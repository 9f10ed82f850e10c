import UsageMonit.Rollout.Reduce

/-!
# Materialisation of a dataset (`rollout.rs`, `rollout/request_evidence.rs`)

The reduced state keeps every parsed event. A dataset is what can be seen of it at a moment:
later calls, turns and metadata are left out, native calls found in several files are counted
once, and the totals, states and titles of the threads follow.

The usage of threads and turns is looked up in the calls instead of in maps built from them.
Fields that window and quota calculations fill in later are left out.
-/

namespace Rollout

open Fallible Time Usage

/-! ## Native calls -/

/-- The identity of a native call. -/
def nativeId (call : UsageCall) : Option String :=
  call.usageEventId.filter fun id => nativeUsageEventIdPrefix.toList.isPrefixOf id.toList

structure NativeIdentities where
  identities : Map (TokenUsage × Option String)
  conflicts : TextSet

def NativeIdentities.add (state : NativeIdentities) (call : UsageCall) : NativeIdentities :=
  match nativeId call with
  | none => state
  | some id =>
    let value := (call.tokens, call.turnId)
    { identities := state.identities.insert id value
      conflicts :=
        if state.identities[id]?.any fun previous => previous ≠ value then
          state.conflicts.insert id
        else state.conflicts }

/-- The identities that calls with different usage or turns share. -/
def nativeConflicts (calls : List UsageCall) : TextSet :=
  (calls.foldl NativeIdentities.add ⟨∅, ∅⟩).conflicts

/-- The calls with the first of each native identity only, and none of the conflicting ones. -/
def retainNative (conflicts : TextSet) (state : List UsageCall × TextSet) (call : UsageCall) :
    List UsageCall × TextSet :=
  match nativeId call with
  | none => (state.1 ++ [call], state.2)
  | some id =>
    if conflicts.contains id || state.2.contains id then state
    else (state.1 ++ [call], state.2.insert id)

def conflictingIdentityWarning (id : String) : String :=
  "conflicting native request identity " ++ id ++ "; excluded its ambiguous usage"

def reportIdentityConflict (dataset : RolloutDataset) (id : String) : RolloutDataset :=
  let dataset := pushReplayWarning dataset (conflictingIdentityWarning id)
  { dataset with
    stats := { dataset.stats with
      ambiguousTokenResets := dataset.stats.ambiguousTokenResets + 1 } }

/-- A native call takes the model and tier that its turn got later. -/
def completeNativeCall (threads : Map ThreadBuilder) (call : UsageCall) : UsageCall :=
  if (nativeId call).isSome then
    match threads[call.threadId]?.bind fun thread =>
        call.turnId.bind fun turnId => thread.turns[turnId]? with
    | none => call
    | some turn =>
      { call with
        model := call.model.or turn.model
        serviceTier := call.serviceTier.or turn.serviceTier }
  else call

def deduplicateNativeCalls (dataset : RolloutDataset) (threads : Map ThreadBuilder) :
    RolloutDataset :=
  let conflicts := nativeConflicts dataset.calls
  let dataset := conflicts.toList.foldl reportIdentityConflict dataset
  { dataset with
    calls := (dataset.calls.foldl (retainNative conflicts) ([], ∅)).1.map
      (completeNativeCall threads) }

/-! ## Usage of threads and turns -/

def threadUsageOf (calls : List UsageCall) (threadId : String) : TokenUsage :=
  TokenUsage.sum ((calls.filter fun call => call.threadId = threadId).map UsageCall.tokens)

def turnUsageOf (calls : List UsageCall) (threadId turnId : String) : Option TokenUsage :=
  let own := calls.filter fun call => call.threadId = threadId && call.turnId = some turnId
  if own.isEmpty then none else some (TokenUsage.sum (own.map UsageCall.tokens))

def latestCallOf (calls : List UsageCall) (threadId : String) : Option DateTime :=
  (calls.filter fun call => call.threadId = threadId).foldl
    (fun latest call => some (latest.elim call.timestamp fun latest => max latest call.timestamp))
    none

/-! ## Threads at a moment -/

def notAfter (now : DateTime) (timestamp : Option DateTime) : Bool :=
  timestamp.all fun timestamp => timestamp ≤ now

def isAfter (now : DateTime) (timestamp : Option DateTime) : Bool :=
  timestamp.any fun timestamp => timestamp > now

def setMaxOption (slot value : Option DateTime) : Option DateTime :=
  value.elim slot fun value => setMaxTimestamp slot value

/-- A turn at a moment, if it has started then. -/
def materializeTurn (now : DateTime) (usage : String → Option TokenUsage) (turn : TurnBuilder) :
    Option TurnBuilder :=
  if notAfter now turn.startedAt &&
      !(turn.startedAt.isNone && isAfter now turn.completedAt && (usage turn.turnId).isNone) then
    let visible := { turn with tokenUsage := (usage turn.turnId).getD default }
    some (if isAfter now turn.completedAt then
      { visible with completedAt := none, durationMs := none, status := .inProgress }
    else visible)
  else none

/-- The metadata of a thread, when it is not from the future. -/
def materializeMetadata (now : DateTime) (thread : ThreadBuilder) : ThreadBuilder :=
  if isAfter now thread.sessionMetadataUpdatedAt then
    { thread with
      parentThreadId := none
      parentThreadRank := none
      seenActiveFile := false
      seenArchivedFile := false
      title := none
      titleSource := none
      titleTurnId := none
      cwd := none
      source := none
      serviceTier := none
      serviceTierObserved := false
      inheritedThreadSettings := none }
  else thread

/-- The last of the elements with the largest key. -/
def maxByKey {α : Type} (key : α → Option DateTime) (xs : List α) : Option α :=
  xs.foldl (fun best x =>
    match best with
    | none => some x
    | some best' =>
      match key best', key x with
      | none, _ => some x
      | some _, none => some best'
      | some a, some b => if a ≤ b then some x else some best') none

/-- The latest of what the thread shows. -/
def materializedUpdatedAt (visible : ThreadBuilder) (latestCall : Option DateTime) :
    Option DateTime :=
  let updatedAt := setMaxOption (setMaxOption visible.updatedAt visible.createdAt) latestCall
  let updatedAt := visible.turns.values.foldl
    (fun updatedAt turn => setMaxOption (setMaxOption updatedAt turn.startedAt) turn.completedAt)
    updatedAt
  let updatedAt := visible.agentCalls.foldl
    (fun updatedAt call => setMaxOption updatedAt call.requestedAt) updatedAt
  visible.agentActivities.foldl
    (fun updatedAt activity => setMaxOption updatedAt activity.occurredAt) updatedAt

/-- Whether a turn is open at a moment: still open, or completed later. -/
def staysOpen (now : DateTime) (thread : ThreadBuilder) (entry : String × TurnBuilder) : Bool :=
  thread.activeTurnIds.contains entry.2.turnId ||
    isAfter now (thread.turns[entry.1]?.bind TurnBuilder.completedAt)

def materializeThreadAsOf (thread : ThreadBuilder) (now : DateTime) (tokenUsage : TokenUsage)
    (usageByTurn : String → Option TokenUsage) (latestCall : Option DateTime) :
    Option ThreadBuilder :=
  let turns := thread.turns.filterMap fun _ turn => materializeTurn now usageByTurn turn
  let visible := { materializeMetadata now thread with
    createdAt := thread.createdAt.filter fun timestamp => timestamp ≤ now
    updatedAt := thread.updatedAt.filter fun timestamp => timestamp ≤ now
    tokenUsage := tokenUsage
    agentCalls := thread.agentCalls.filter fun call => notAfter now call.requestedAt
    agentActivities := thread.agentActivities.filter fun activity =>
      notAfter now activity.occurredAt
    turns := turns
    activeTurnIds := (turns.toList.filter (staysOpen now thread)).map
      fun entry : String × TurnBuilder => entry.2.turnId
    lastTurnId := (maxByKey TurnBuilder.completedAt
      (turns.values.filter fun turn => turn.completedAt.isSome)).map TurnBuilder.turnId }
  let visible := { visible with updatedAt := materializedUpdatedAt visible latestCall }
  let hasVisibleEvidence := visible.createdAt.isSome || visible.updatedAt.isSome ||
    !visible.turns.isEmpty || !tokenUsage.isZero || !visible.agentCalls.isEmpty ||
    !visible.agentActivities.isEmpty
  let legacyUntimestamped := thread.createdAt.isNone && thread.updatedAt.isNone
  if hasVisibleEvidence || legacyUntimestamped then some visible else none

def timestampIsFresh (timestamp : Option DateTime) (now : DateTime) (grace : Duration) : Bool :=
  timestamp.any fun timestamp => timestamp ≤ now && now - timestamp ≤ grace

def taskStatus (thread : ThreadBuilder) (activeIsFresh : Bool) :
    TaskStatus × Provenance × Confidence :=
  if !thread.activeTurnIds.isEmpty then
    if activeIsFresh then (.running, .inferred, .medium) else (.stale, .stale, .low)
  else
    let latest := maxByKey
      (fun turn => some ((turn.completedAt.or turn.startedAt).getD minUtc)) thread.turns.values
    match latest.map TurnBuilder.status with
    | some .completed => (.completed, .localExact, .high)
    | some .interrupted => (.interrupted, .localExact, .high)
    | some .failed => (.failed, .localExact, .high)
    | some .stale => (.stale, .stale, .low)
    | some .inProgress => (.stale, .stale, .low)
    | some .unknown => (.idle, .inferred, .low)
    | none => (.idle, .inferred, .low)

/-! ## Records -/

def activeIsFresh (config : CollectConfig) (now : DateTime) (thread : ThreadBuilder) : Bool :=
  !thread.activeTurnIds.isEmpty && timestampIsFresh thread.updatedAt now config.activeGrace

def turnRecord (thread : ThreadBuilder) (activeIsFresh : Bool) (turn : TurnBuilder) :
    TurnRecord where
  threadId := thread.threadId
  turnId := turn.turnId
  model := turn.model
  reasoningEffort := turn.reasoningEffort
  serviceTier := turn.serviceTier
  messagePreview := turn.messagePreview
  startedAt := turn.startedAt
  completedAt := turn.completedAt
  durationMs := turn.durationMs.or (turn.startedAt.bind fun startedAt =>
    turn.completedAt.bind fun completedAt => elapsedMilliseconds startedAt completedAt)
  status :=
    if thread.activeTurnIds.contains turn.turnId then
      if activeIsFresh then .inProgress else .stale
    else turn.status
  tokenUsage := turn.tokenUsage

def taskTitle (config : CollectConfig) (now : DateTime) (threadTitles : Map String)
    (thread : ThreadBuilder) : String :=
  if config.redactContent then "[redacted]"
  else if isAfter now thread.sessionMetadataUpdatedAt then "Untitled task"
  else (threadTitles[thread.threadId]?.or thread.title).getD "Untitled task"

def taskRecord (config : CollectConfig) (now : DateTime) (threadTitles : Map String)
    (thread : ThreadBuilder) : TaskRecord :=
  let status := taskStatus thread (activeIsFresh config now thread)
  { threadId := thread.threadId
    parentThreadId := thread.parentThreadId
    archived := thread.seenArchivedFile && !thread.seenActiveFile
    title := taskTitle config now threadTitles thread
    cwd := thread.cwd
    source := thread.source
    createdAt := thread.createdAt
    updatedAt := thread.updatedAt
    status := status.1
    statusProvenance := status.2.1
    statusConfidence := status.2.2
    tokenUsage := thread.tokenUsage
    turnCount := thread.turns.size }

/-- Whether a sample's turn can be seen. -/
def turnIsVisible (visibleThreads : Map ThreadBuilder) (threadId : String)
    (turnId : Option String) : Bool :=
  turnId.all fun turnId =>
    visibleThreads[threadId]?.any fun thread => thread.turns.contains turnId

def hideTurn (visibleThreads : Map ThreadBuilder) (call : UsageCall) : UsageCall :=
  if turnIsVisible visibleThreads call.threadId call.turnId then call
  else { call with turnId := none, model := none, serviceTier := none }

def hideObservationTurn (visibleThreads : Map ThreadBuilder) (observation : RateObservation) :
    RateObservation :=
  if turnIsVisible visibleThreads observation.threadId observation.turnId then observation
  else { observation with turnId := none }

/-! ## Interactions of agents -/

def earliest (timestamps : List (Option DateTime)) : Option DateTime :=
  (timestamps.filterMap id).foldl setMinTimestamp none

/-- The interaction that a call and its activity agree on. -/
def exactInteraction (threads : Map ThreadBuilder) (parent : ThreadBuilder) (callId : String) :
    Option AgentInteraction :=
  let calls := parent.agentCalls.filter fun call => call.callId = callId
  let activities := parent.agentActivities.filter fun activity => activity.callId = callId
  match calls, activities with
  | call :: _, activity :: _ =>
    if !calls.all (fun candidate =>
          candidate.parentTurnId = call.parentTurnId && candidate.kind = call.kind) ||
        !activities.all (fun candidate =>
          candidate.childThreadId = activity.childThreadId && candidate.kind = activity.kind) ||
        call.kind ≠ activity.kind then none
    else if parent.threadId = activity.childThreadId then none
    else if call.kind = .spawnStarted &&
        (threads[activity.childThreadId]?.bind ThreadBuilder.parentThreadId).any
          fun claimed => claimed ≠ parent.threadId then none
    else
      some {
        kind := call.kind
        parentThreadId := parent.threadId
        parentTurnId := call.parentTurnId
        childThreadId := activity.childThreadId
        callId := callId
        requestedAt := earliest (calls.map AgentCallEvidence.requestedAt)
        occurredAt := earliest (activities.map AgentActivityEvidence.occurredAt)
        provenance := .localExact }
  | _, _ => none

def threadInteractions (threads : Map ThreadBuilder) (parent : ThreadBuilder) :
    List AgentInteraction :=
  ((∅ : TextSet).insertMany (parent.agentCalls.map AgentCallEvidence.callId)).toList.filterMap
    (exactInteraction threads parent)

def isSpawnOf (child : String) (interaction : AgentInteraction) : Bool :=
  interaction.kind = .spawnStarted && interaction.childThreadId = child

/-- The first spawn of each child, and none of a child with contradictory ones. -/
def keepsInteraction (interactions : List AgentInteraction) (entry : AgentInteraction × Nat) :
    Bool :=
  let (interaction, index) := entry
  if interaction.kind ≠ .spawnStarted then true
  else
    match interactions.filter (isSpawnOf interaction.childThreadId) with
    | [] => true
    | first :: rest =>
      rest.all (fun candidate =>
        candidate.parentThreadId = first.parentThreadId &&
          candidate.parentTurnId = first.parentTurnId) &&
      !(interactions.take index).any (isSpawnOf interaction.childThreadId)

def exactAgentInteractions (threads : Map ThreadBuilder) : List AgentInteraction :=
  let interactions := threads.values.flatMap (threadInteractions threads)
  (interactions.zipIdx.filter (keepsInteraction interactions)).map Prod.fst

/-! ## The dataset -/

/-- `Option` moments, the absent one first. -/
def optionLe (a b : Option DateTime) : Bool :=
  match a, b with
  | none, _ => true
  | some _, none => false
  | some a, some b => a ≤ b

/-- One comparison after another: the next decides what is equal so far. -/
def thenLe {α κ : Type} [DecidableEq κ] (key : α → κ) (le : κ → κ → Bool)
    (next : α → α → Bool) (a b : α) : Bool :=
  if key a = key b then next a b else le (key a) (key b)

def stringLe (a b : String) : Bool := a ≤ b

def stringOptionLe (a b : Option String) : Bool :=
  match a, b with
  | none, _ => true
  | some _, none => false
  | some a, some b => a ≤ b

def taskLe : TaskRecord → TaskRecord → Bool :=
  thenLe TaskRecord.updatedAt (fun a b => optionLe b a) <|
  fun a b => stringLe a.threadId b.threadId

def turnLe : TurnRecord → TurnRecord → Bool :=
  thenLe TurnRecord.startedAt (fun a b => optionLe b a) <|
  thenLe TurnRecord.threadId stringLe <|
  fun a b => stringLe a.turnId b.turnId

def callLe : UsageCall → UsageCall → Bool :=
  thenLe UsageCall.timestamp (fun a b => a ≤ b) <|
  thenLe UsageCall.threadId stringLe <|
  fun a b => stringOptionLe a.turnId b.turnId

def observationLe : RateObservation → RateObservation → Bool :=
  thenLe RateObservation.timestamp (fun a b => a ≤ b) <|
  fun a b => stringLe a.threadId b.threadId

def interactionLe : AgentInteraction → AgentInteraction → Bool :=
  thenLe AgentInteraction.occurredAt optionLe <|
  thenLe AgentInteraction.requestedAt optionLe <|
  thenLe AgentInteraction.parentThreadId stringLe <|
  thenLe AgentInteraction.parentTurnId stringLe <|
  thenLe AgentInteraction.childThreadId stringLe <|
  fun a b => stringLe a.callId b.callId

/-- The threads that can be seen at a moment, with the usage of these calls. -/
def visibleThreadsOf (threads : Map ThreadBuilder) (now : DateTime) (calls : List UsageCall) :
    Map ThreadBuilder :=
  threads.filterMap fun threadId thread =>
    materializeThreadAsOf thread now (threadUsageOf calls threadId)
      (turnUsageOf calls thread.threadId) (latestCallOf calls threadId)

def finishDataset (config : CollectConfig) (now : DateTime) (threads : Map ThreadBuilder)
    (threadTitles : Map String) (dataset : RolloutDataset) : RolloutDataset :=
  let dataset := deduplicateNativeCalls
    { dataset with calls := dataset.calls.filter fun call => call.timestamp ≤ now } threads
  let observations := dataset.rateObservations.filter fun observation =>
    observation.timestamp ≤ now
  let visible := visibleThreadsOf threads now dataset.calls
  { dataset with
    calls := (dataset.calls.map (hideTurn visible)).insertionSort fun a b => callLe a b
    rateObservations := (observations.map (hideObservationTurn visible)).insertionSort
      fun a b => observationLe a b
    turns := (dataset.turns ++ visible.values.flatMap fun thread =>
      thread.turns.values.map (turnRecord thread (activeIsFresh config now thread))).insertionSort
        fun a b => turnLe a b
    tasks := (dataset.tasks ++ visible.values.map (taskRecord config now threadTitles)).insertionSort
      fun a b => taskLe a b
    agentInteractions := ((exactAgentInteractions visible).filter fun interaction =>
      notAfter now interaction.requestedAt && notAfter now interaction.occurredAt).insertionSort
        fun a b => interactionLe a b }

/-- What discovery found: its part of the statistics and warnings. -/
structure DiscoveryState where
  stats : CollectionStats
  warnings : List String
  suppressedWarnings : Nat
deriving DecidableEq

def suppressedWarning (count : Nat) : String :=
  "suppressed " ++ toString count ++ " additional rollout warnings"

def materializeDataset (reduced : ReducedRollouts) (discovery : DiscoveryState)
    (config : CollectConfig) (now : DateTime) (threadTitles : Map String) : RolloutDataset :=
  let stats := { discovery.stats with
    scannedFiles := reduced.dataset.stats.scannedFiles
    parsedLines := reduced.dataset.stats.parsedLines
    skippedLines := reduced.dataset.stats.skippedLines
    ambiguousTokenResets := reduced.dataset.stats.ambiguousTokenResets
    unreadableFiles := discovery.stats.unreadableFiles + reduced.dataset.stats.unreadableFiles }
  let start : BoundedWarnings :=
    ⟨[], saturatingAdd 64 reduced.suppressedWarnings discovery.suppressedWarnings⟩
  let warnings := (start.append discovery.warnings).append reduced.dataset.warnings
  finishDataset config now reduced.threads threadTitles
    { (default : RolloutDataset) with
      stats := stats
      warnings :=
        if warnings.suppressed > 0 then
          warnings.retained ++ [suppressedWarning warnings.suppressed]
        else warnings.retained
      calls := reduced.dataset.calls
      rateObservations := reduced.dataset.rateObservations }

/-! ## Moments at which a dataset changes by itself -/

/-- The end of the grace of a thread with open turns. -/
def freshnessDeadline (activeGrace : Duration) (thread : ThreadBuilder) : Option DateTime :=
  if thread.activeTurnIds.isEmpty then none
  else thread.updatedAt.bind fun updatedAt => checkedAddSigned updatedAt activeGrace

def nextFreshnessDeadline (reduced : ReducedRollouts) (now : DateTime) (activeGrace : Duration) :
    Option DateTime :=
  ((reduced.threads.values.filterMap (freshnessDeadline activeGrace)).filter
    fun deadline => deadline ≥ now).foldl setMinTimestamp none

/-- The moments of a file at which something becomes available. -/
def evidenceMoments (parsed : ParsedFile) : List DateTime :=
  parsed.activityUpdatedAt.toList ++ parsed.events.filterMap parsedEventAvailableAt

def nextAsOfEvidenceBoundary (files : List RolloutFile) (cache : FileCache) (now : DateTime) :
    Option DateTime :=
  (((files.filterMap fun file => cache[file.path]?).flatMap fun cached =>
    evidenceMoments cached.parsed).filter fun timestamp => timestamp > now).foldl
      setMinTimestamp none

def localCoverageBucketSeconds : Int := 15 * 60

def crossedLocalCoverageBucket (lastMaterializedAt now : DateTime) : Bool :=
  (lastMaterializedAt.fdiv 1000000000).fdiv localCoverageBucketSeconds ≠
    (now.fdiv 1000000000).fdiv localCoverageBucketSeconds

end Rollout
