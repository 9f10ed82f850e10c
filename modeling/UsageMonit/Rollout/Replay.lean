import UsageMonit.Rollout.Thread

/-!
# Replay of a rollout file (`rollout.rs`, `rollout/request_evidence.rs`)

A thread's file is replayed event by event into the builder of the thread. Usage comes in two
forms: native request records, each a call of its own, and cumulative counters, whose increase is
a call. `requestCoveredCounters` finds the counters that mirror native records; the replay takes
them as a new baseline only.
-/

namespace Rollout

open Time Usage

/-! ## Counters covered by native records -/

structure TurnRequests where
  requests : Map TokenUsage
  sum : TokenUsage
  coveredThrough : Option Nat
  inconsistent : Bool

def TurnRequests.new : TurnRequests where
  requests := ∅
  sum := default
  coveredThrough := none
  inconsistent := false

/-- A response of the turn; the same response again must have the same usage. -/
def TurnRequests.insert (state : TurnRequests) (responseId : String) (usage : TokenUsage) :
    TurnRequests :=
  let state' := { state with requests := state.requests.insert responseId usage }
  match state.requests[responseId]? with
  | some previous => { state' with inconsistent := state.inconsistent || previous ≠ usage }
  | none => { state' with sum := state.sum.addAssign usage }

/-- A native record of the turn, at an index of the file. -/
def TurnRequests.record (state : TurnRequests) (index : Nat) (request : RequestUsageEvent) :
    TurnRequests :=
  let state := state.insert request.responseId request.usage
  match request.turnUsage with
  | none => state
  | some total =>
    if total = state.sum && !state.inconsistent then { state with coveredThrough := some index }
    else { state with inconsistent := true }

structure Coverage where
  turns : Map TurnRequests
  /-- The counters so far, each with the turn it was found in. -/
  counters : List (Nat × String)
  currentTurn : Option String
  pendingRequest : Option (String × TokenUsage)
  covered : List Nat

def Coverage.new : Coverage where
  turns := ∅
  counters := []
  currentTurn := none
  pendingRequest := none
  covered := []

/-- Whether a counter is the mirror of the pending record in a turn. -/
def mirrorsPending (pending : Option (String × TokenUsage)) (turn : String)
    (counter : TokenCountEvent) : Bool :=
  pending.any fun (requestTurn, usage) =>
    requestTurn = turn && counter.lastUsage = some usage &&
      counter.totalUsage.any fun total =>
        total.hasValidBreakdown && total.totalTokens ≥ usage.totalTokens

def Coverage.step (asOf : Option DateTime) (state : Coverage) (entry : ParsedEvent × Nat) :
    Coverage :=
  let (event, index) := entry
  if !eventIsVisible asOf event then { state with pendingRequest := none }
  else
    match event with
    | .taskStarted _ turnId _ =>
      { state with currentTurn := some turnId, pendingRequest := none }
    | .turnContext _ payload =>
      match stringFieldIn payload ["turn_id", "turnId"] with
      | none => state
      | some turn =>
        { state with
          pendingRequest := if state.currentTurn ≠ some turn then none else state.pendingRequest
          currentTurn := some turn }
    | .requestUsage request =>
      { state with
        turns := state.turns.insert request.turnId
          ((state.turns[request.turnId]?.getD .new).record index request)
        pendingRequest := some (request.turnId, request.usage) }
    | .tokenCount counter =>
      match state.currentTurn with
      | none => state
      | some turn =>
        { state with
          counters := state.counters ++ [(index, turn)]
          pendingRequest := none
          covered :=
            if mirrorsPending state.pendingRequest turn counter then state.covered ++ [index]
            else state.covered }
    | _ => state

/-- Whether the records of its turn prove that a counter repeats them. -/
def Coverage.proves (state : Coverage) (counter : Nat × String) : Bool :=
  state.turns[counter.2]?.any fun turn =>
    !turn.inconsistent && turn.coveredThrough.any fun through => counter.1 ≤ through

/-- The indexes of the counters that native records cover. -/
def requestCoveredCounters (events : List ParsedEvent) (asOf : Option DateTime) : List Nat :=
  let state := events.zipIdx.foldl (Coverage.step asOf) .new
  state.covered ++ (state.counters.filter state.proves).map Prod.fst

/-! ## Event identities -/

def beBytes (count n : Nat) : List UInt8 :=
  (List.range count).reverse.map fun i => UInt8.ofNat (n / 256 ^ i % 256)

def hexDigit (n : Nat) : Char := "0123456789abcdef".toList.getD n '0'

def lowerHex (bytes : List UInt8) : String :=
  String.ofList (bytes.flatMap fun byte => [hexDigit (byte.toNat / 16), hexDigit (byte.toNat % 16)])

def asBytes (text : String) : List UInt8 := text.toUTF8.toList

def usageEventIdDomain : List UInt8 := asBytes "codex-usage-monit/usage-event/fallback/v1" ++ [0]

def usageEventIdPrefix : String := "usage-sha256-v1-"

def nativeUsageEventIdPrefix : String := "usage-native-sha256-v1-"

def hashTokenUsage (usage : TokenUsage) : List UInt8 :=
  [usage.inputTokens, usage.cachedInputTokens, usage.cacheWriteInputTokens, usage.outputTokens,
    usage.reasoningOutputTokens, usage.totalTokens].flatMap (beBytes 8)

/-- The two's complement of a number of seconds, which may be negative. -/
def timestampBytes (timestamp : DateTime) : List UInt8 :=
  beBytes 8 ((timestamp.fdiv 1000000000) % 2 ^ 64).toNat ++
    beBytes 4 (timestamp.fmod 1000000000).toNat

def fallbackUsageEventId (env : ReplayEnv) (threadId : String) (timestamp : DateTime)
    (cumulative : TokenUsage) (last : Option TokenUsage) : String :=
  usageEventIdPrefix ++ lowerHex (env.sha256 (usageEventIdDomain ++
    beBytes 8 (asBytes threadId).length ++ asBytes threadId ++ timestampBytes timestamp ++
    hashTokenUsage cumulative ++ last.elim [0] fun last => 1 :: hashTokenUsage last))

def nativeUsageEventId (env : ReplayEnv) (threadId responseId : String) : String :=
  nativeUsageEventIdPrefix ++
    lowerHex (env.sha256 (asBytes threadId ++ [0] ++ asBytes responseId))

/-! ## Counters -/

structure TokenCounterSample where
  total : Option TokenUsage
  last : Option TokenUsage
deriving DecidableEq

/-- The builder of the file's thread and what the file adds to the dataset. -/
structure Replay where
  thread : ThreadBuilder
  dataset : RolloutDataset

def rolloutMaxWarningsPerFile : Nat := 64

def pushReplayWarning (dataset : RolloutDataset) (warning : String) : RolloutDataset :=
  if dataset.warnings.length < rolloutMaxWarningsPerFile then
    { dataset with warnings := dataset.warnings ++ [warning] }
  else dataset

/-- A warning about a counter that was not counted in full. -/
def Replay.ambiguousReset (state : Replay) (warning : String) : Replay :=
  let dataset := pushReplayWarning state.dataset warning
  { state with dataset := { dataset with
      stats := { dataset.stats with
        ambiguousTokenResets := dataset.stats.ambiguousTokenResets + 1 } } }

def Replay.setBaseline (state : Replay) (previousCumulative : Option TokenUsage)
    (incompleteCounterBoundary : Bool) : Replay :=
  { state with thread := { state.thread with
      previousCumulative := previousCumulative
      incompleteCounterBoundary := incompleteCounterBoundary } }

def invalidBreakdownWarning (threadId : String) (path : Path) (lineNumber : Nat) : String :=
  "invalid token breakdown for thread " ++ threadId ++ " at " ++ path.display ++ " line " ++
    toString lineNumber ++ "; counter baseline is unknown"

def outsideBoundaryWarning (threadId : String) (path : Path) (lineNumber : Nat) : String :=
  "token counter baseline for thread " ++ threadId ++
    " is outside the selected rollout boundary at " ++ path.display ++ " line " ++
    toString lineNumber ++ "; counted only the explicitly reported last request, when valid, " ++
    "and did not attribute the unknown cumulative gap"

def counterResetWarning (threadId : String) (path : Path) (lineNumber : Nat) : String :=
  "token counter reset for thread " ++ threadId ++ " at " ++ path.display ++ " line " ++
    toString lineNumber ++ "; re-established the cumulative baseline without counting the " ++
    "ambiguous reset sample"

def Replay.recordRateLimits (state : Replay) (rateLimits : Option CachedRateLimits)
    (timestamp : DateTime) : Replay :=
  match rateLimits with
  | none => state
  | some limits =>
    { state with dataset := { state.dataset with
        rateObservations := state.dataset.rateObservations ++ [{
          timestamp := timestamp
          threadId := state.thread.threadId
          turnId := state.thread.openTurn
          limitId := limits.limitId
          primary := limits.primary
          secondary := limits.secondary
          provenance := .localExact }] } }

def TurnBuilder.addUsage (delta : TokenUsage) (turn : TurnBuilder) : TurnBuilder :=
  { turn with tokenUsage := turn.tokenUsage.addAssign delta }

/-- A usage of the thread and of its open turn. -/
def ThreadBuilder.addUsage (thread : ThreadBuilder) (delta : TokenUsage) : ThreadBuilder :=
  let counted := { thread with tokenUsage := thread.tokenUsage.addAssign delta }
  match thread.openTurn with
  | none => counted
  | some turnId => counted.withTurn turnId (TurnBuilder.addUsage delta)

/-- The increase of a counter as a call of the open turn. -/
def counterCall (env : ReplayEnv) (thread : ThreadBuilder) (totalUsage : TokenUsage)
    (last : Option TokenUsage) (timestamp : DateTime) (delta : TokenUsage) : UsageCall :=
  let turn := thread.openTurn.bind fun turnId => thread.turns[turnId]?
  { timestamp := timestamp
    threadId := thread.threadId
    turnId := thread.openTurn
    usageEventId := some (fallbackUsageEventId env thread.threadId timestamp totalUsage last)
    usageEventIdentityExact := true
    model := turn.bind TurnBuilder.model
    serviceTier := turn.bind TurnBuilder.serviceTier
    tokens := delta
    requestUsageExact := last.any fun last => last = delta && !(last.unclassified > 0) }

/-- Sets the baseline and counts the increase, unless it is zero. -/
def Replay.countDelta (env : ReplayEnv) (state : Replay) (totalUsage : TokenUsage)
    (last : Option TokenUsage) (timestamp : DateTime) (delta : TokenUsage) : Replay :=
  let thread := { state.thread with previousCumulative := some totalUsage }
  if delta.isZero then { state with thread := thread }
  else
    { thread := thread.addUsage delta
      dataset := { state.dataset with
        calls := state.dataset.calls ++
          [counterCall env thread totalUsage last timestamp delta] } }

/-- The last request of a counter without a baseline, when the counter can contain it. -/
def explicitLast (usage : TokenCounterSample) (totalUsage : TokenUsage) : Option TokenUsage :=
  usage.last.filter fun last =>
    last.totalTokens ≤ totalUsage.totalTokens &&
      (last.unclassified = last.totalTokens || (totalUsage.deltaFrom last).isSome)

def applyTokenCount (env : ReplayEnv) (state : Replay) (usage : TokenCounterSample)
    (rateLimits : Option CachedRateLimits) (timestamp : DateTime) (path : Path)
    (lineNumber : Nat) : Replay :=
  let state := state.recordRateLimits rateLimits timestamp
  let threadId := state.thread.threadId
  match usage.total with
  | none => state
  | some totalUsage =>
    if !totalUsage.hasValidBreakdown || usage.last.any fun last => !last.hasValidBreakdown then
      (state.ambiguousReset (invalidBreakdownWarning threadId path lineNumber)).setBaseline none
        true
    else
      match state.thread.previousCumulative with
      | none =>
        if state.thread.incompleteCounterBoundary then
          let state := state.setBaseline (some totalUsage) false
          if usage.last = some totalUsage then
            state.countDelta env totalUsage usage.last timestamp totalUsage
          else
            let state := state.ambiguousReset (outsideBoundaryWarning threadId path lineNumber)
            match explicitLast usage totalUsage with
            | none => state
            | some last => state.countDelta env totalUsage usage.last timestamp last
        else state.countDelta env totalUsage usage.last timestamp totalUsage
      | some previous =>
        if previous = totalUsage then state
        else if usage.last = some totalUsage then
          state.countDelta env totalUsage usage.last timestamp totalUsage
        else
          match totalUsage.deltaFrom previous with
          | some delta => state.countDelta env totalUsage usage.last timestamp delta
          | none =>
            (state.ambiguousReset (counterResetWarning threadId path lineNumber)).setBaseline
              (some totalUsage) state.thread.incompleteCounterBoundary

/-- A native record is a call of the turn it names. -/
def Replay.countRequest (env : ReplayEnv) (state : Replay) (threadId : String)
    (request : RequestUsageEvent) : Replay :=
  let thread := ensureTurn state.thread request.turnId
  let turn := thread.turns[request.turnId]?.getD (.new request.turnId)
  { thread := thread
    dataset := { state.dataset with
      calls := state.dataset.calls ++ [{
        timestamp := request.timestamp
        threadId := threadId
        turnId := some request.turnId
        usageEventId := some (nativeUsageEventId env threadId request.responseId)
        usageEventIdentityExact := true
        model := turn.model
        serviceTier := turn.serviceTier
        tokens := request.usage
        requestUsageExact := request.usage.unclassified = 0 }] } }

/-! ## Files -/

/-- A hidden counter leaves the baseline unknown. -/
def hidesCounter (event : ParsedEvent) : Bool :=
  match event with
  | .foreignCounterBaseline _ _ => true
  | .tokenCount counter => counter.totalUsage.isSome
  | _ => false

/-- An event that does not carry usage, in the builder of the thread. -/
def applyEvent (env : ReplayEnv) (thread : ThreadBuilder) (event : ParsedEvent) : ThreadBuilder :=
  match event with
  | .sessionMeta timestamp payload => applySessionMeta env thread payload timestamp
  | .foreignCounterBaseline _ totalUsage =>
    { thread with previousCumulative := some totalUsage, incompleteCounterBoundary := false }
  | .foreignThreadSettingsBaseline _ model serviceTier =>
    { thread with inheritedThreadSettings :=
        model.bind fun model => serviceTier.map fun serviceTier => (model, serviceTier) }
  | .userMessage _ preview turnId source => applyUserMessage thread preview turnId source
  | .agentCall requestedAt callId parentTurnId kind =>
    { thread with agentCalls := thread.agentCalls ++ [⟨requestedAt, callId, parentTurnId, kind⟩] }
  | .agentActivity _ occurredAt callId childThreadId kind =>
    { thread with agentActivities :=
        thread.agentActivities ++ [⟨occurredAt, callId, childThreadId, kind⟩] }
  | .threadSettingsApplied _ serviceTier => applyThreadSettings thread serviceTier
  | .activity _ => thread
  | .turnContext timestamp payload => applyTurnContext thread payload timestamp
  | .taskStarted timestamp turnId startedAt =>
    activateTurn thread turnId (startedAt.getD timestamp)
  | .taskComplete timestamp turnId completedAt durationMs =>
    finishTurn thread turnId (completedAt.getD timestamp) durationMs .completed
  | .turnAborted timestamp turnId completedAt durationMs failed =>
    finishTurn thread turnId (completedAt.getD timestamp) durationMs
      (if failed then .failed else .interrupted)
  | .requestUsage _ => thread
  | .tokenCount _ => thread

/-- An event of the file of `threadId` that can be seen. -/
def applyVisible (env : ReplayEnv) (path : Path) (threadId : String) (covered : List Nat)
    (state : Replay) (entry : ParsedEvent × Nat) : Replay :=
  match entry.1 with
  | .requestUsage request => state.countRequest env threadId request
  | .tokenCount counter =>
    if covered.contains entry.2 then
      let state := applyTokenCount env state ⟨none, counter.lastUsage⟩ counter.rateLimits
        counter.timestamp path counter.lineNumber
      match counter.totalUsage with
      | none => state
      | some total => state.setBaseline (some total) false
    else
      applyTokenCount env state ⟨counter.totalUsage, counter.lastUsage⟩ counter.rateLimits
        counter.timestamp path counter.lineNumber
  | event => { state with thread := applyEvent env state.thread event }

def replayEvent (env : ReplayEnv) (path : Path) (threadId : String) (asOf : Option DateTime)
    (covered : List Nat) (state : Replay) (entry : ParsedEvent × Nat) : Replay :=
  if !eventIsVisible asOf entry.1 then
    if hidesCounter entry.1 then state.setBaseline none true else state
  else
    let state :=
      if asOf.isSome then
        match parsedEventAvailableAt entry.1 with
        | some activityAt =>
          { state with thread := { state.thread with
              updatedAt := setMaxTimestamp state.thread.updatedAt activityAt } }
        | none => state
      else state
    applyVisible env path threadId covered state entry

def isSessionMeta (event : ParsedEvent) : Bool :=
  match event with
  | .sessionMeta _ _ => true
  | _ => false

/-- The flag for the directory a file was seen in. -/
def markFileSeen (thread : ThreadBuilder) (archivedFile : Bool) : ThreadBuilder :=
  if archivedFile then { thread with seenArchivedFile := true }
  else { thread with seenActiveFile := true }

def isArchived (config : CollectConfig) (path : Path) : Bool :=
  Path.startsWith path (config.codexHome.join "archived_sessions")

/-- The builder at the start of a file: as of a moment, the file is seen once its metadata is. -/
def startFile (path : Path) (parsed : ParsedFile) (config : CollectConfig) (asOf : Option DateTime)
    (thread : ThreadBuilder) : ThreadBuilder :=
  let visibleSessionMetadata :=
    parsed.events.any fun event => isSessionMeta event && eventIsVisible asOf event
  if asOf.isNone || visibleSessionMetadata then markFileSeen thread (isArchived config path)
  else thread

/-- The activity time of the file, when it is not taken from the events seen. -/
def finishFile (parsed : ParsedFile) (asOf : Option DateTime) (thread : ThreadBuilder) :
    ThreadBuilder :=
  match asOf, parsed.activityUpdatedAt with
  | none, some updatedAt =>
    { thread with updatedAt := setMaxTimestamp thread.updatedAt updatedAt }
  | _, _ => thread

/-- The replay of a file with visible events in the builder of its thread. -/
def replayThread (env : ReplayEnv) (path : Path) (parsed : ParsedFile) (config : CollectConfig)
    (threadId : String) (thread : ThreadBuilder) (dataset : RolloutDataset)
    (asOf : Option DateTime) : Replay :=
  let covered := requestCoveredCounters parsed.events asOf
  let state := parsed.events.zipIdx.foldl (replayEvent env path threadId asOf covered)
    ⟨startFile path parsed config asOf thread, dataset⟩
  { state with thread := finishFile parsed asOf state.thread }

def replayRolloutFile (env : ReplayEnv) (path : Path) (parsed : ParsedFile)
    (config : CollectConfig) (threads : Map ThreadBuilder) (dataset : RolloutDataset)
    (asOf : Option DateTime) (incompleteCounterBoundary : Bool) :
    Map ThreadBuilder × RolloutDataset :=
  match parsed.ownerThreadId with
  | none => (threads, dataset)
  | some threadId =>
    if parsed.events.any (eventIsVisible asOf) then
      let thread := threads[threadId]?.getD (.new threadId incompleteCounterBoundary)
      let state := replayThread env path parsed config threadId thread dataset asOf
      (threads.insert threadId state.thread, state.dataset)
    else (threads, dataset)

end Rollout
