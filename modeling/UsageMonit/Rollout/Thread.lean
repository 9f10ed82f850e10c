import UsageMonit.Rollout.Event

/-!
# The builder of a thread (`rollout.rs`)

What the replay of a thread's files accumulates, and how each event other than a usage sample
changes it: session metadata, user messages, settings and the life of the turns.
-/

namespace Rollout

open Text Time Usage

inductive ParentThreadRank
  | fork
  | direct
  | nested
deriving DecidableEq

/-- The derived order of the variants. -/
def ParentThreadRank.rank : ParentThreadRank → Nat
  | fork => 0
  | direct => 1
  | nested => 2

structure AgentCallEvidence where
  requestedAt : Option DateTime
  callId : String
  parentTurnId : String
  kind : AgentInteractionKind
deriving DecidableEq

structure AgentActivityEvidence where
  occurredAt : Option DateTime
  callId : String
  childThreadId : String
  kind : AgentInteractionKind
deriving DecidableEq

structure TurnBuilder where
  turnId : String
  model : Option String
  reasoningEffort : Option String
  serviceTier : Option String
  messagePreview : Option String
  messageSource : Option UserMessageSource
  startedAt : Option DateTime
  completedAt : Option DateTime
  durationMs : Option Nat
  status : TurnStatus
  tokenUsage : TokenUsage
deriving DecidableEq

def TurnBuilder.new (turnId : String) : TurnBuilder where
  turnId := turnId
  model := none
  reasoningEffort := none
  serviceTier := none
  messagePreview := none
  messageSource := none
  startedAt := none
  completedAt := none
  durationMs := none
  status := .unknown
  tokenUsage := default

structure ThreadBuilder where
  threadId : String
  parentThreadId : Option String
  parentThreadRank : Option ParentThreadRank
  seenActiveFile : Bool
  seenArchivedFile : Bool
  title : Option String
  titleSource : Option UserMessageSource
  titleTurnId : Option String
  cwd : Option String
  source : Option String
  createdAt : Option DateTime
  updatedAt : Option DateTime
  sessionMetadataUpdatedAt : Option DateTime
  serviceTier : Option String
  serviceTierObserved : Bool
  inheritedThreadSettings : Option (String × String)
  activeTurnIds : List String
  lastTurnId : Option String
  previousCumulative : Option TokenUsage
  incompleteCounterBoundary : Bool
  tokenUsage : TokenUsage
  turns : Map TurnBuilder
  agentCalls : List AgentCallEvidence
  agentActivities : List AgentActivityEvidence

/-- A thread of which nothing was replayed yet. -/
def ThreadBuilder.new (threadId : String) (incompleteCounterBoundary : Bool) : ThreadBuilder where
  threadId := threadId
  parentThreadId := none
  parentThreadRank := none
  seenActiveFile := false
  seenArchivedFile := false
  title := none
  titleSource := none
  titleTurnId := none
  cwd := none
  source := none
  createdAt := none
  updatedAt := none
  sessionMetadataUpdatedAt := none
  serviceTier := none
  serviceTierObserved := false
  inheritedThreadSettings := none
  activeTurnIds := []
  lastTurnId := none
  previousCumulative := none
  incompleteCounterBoundary := incompleteCounterBoundary
  tokenUsage := default
  turns := ∅
  agentCalls := []
  agentActivities := []

/-! ## Session metadata -/

def validParentThreadId (candidate ownerThreadId : Option String) : Option String :=
  ((candidate.map trim).filter fun candidate => candidate ≠ "").filter fun candidate =>
    ownerThreadId ≠ some candidate

def validParentThreadIdIn (value : Json) (fields : List String) (ownerThreadId : Option String) :
    Option String :=
  fields.findSome? fun field =>
    validParentThreadId ((value.get field).bind Json.asStr) ownerThreadId

def sourceIsSubagent (payload : Json) : Bool :=
  ((payload.get "source").bind Json.asObject).any fun source =>
    (source.get "subagent").isSome || (source.get "subAgent").isSome

def isSubagentSession (payload : Json) : Bool :=
  (stringFieldIn payload ["thread_source", "threadSource"]).any
      (fun source => eqIgnoreAsciiCase source "subagent") ||
    sourceIsSubagent payload

def nestedSubagentParentThreadId (payload : Json) (ownerThreadId : Option String) :
    Option String := do
  let source ← (payload.get "source").bind Json.asObject
  let subagent ← ((source.get "subagent").or (source.get "subAgent")).bind Json.asObject
  let threadSpawn ← ((subagent.get "thread_spawn").or (subagent.get "threadSpawn")).bind
    Json.asObject
  validParentThreadIdIn threadSpawn ["parent_thread_id", "parentThreadId"] ownerThreadId

def sessionParentThreadId (payload : Json) (ownerThreadId : Option String) :
    Option (String × ParentThreadRank) :=
  if isSubagentSession payload then
    ((nestedSubagentParentThreadId payload ownerThreadId).map (·, .nested)).or
      (((validParentThreadIdIn payload ["parent_thread_id", "parentThreadId"] ownerThreadId).map
        (·, .direct)).or
      ((validParentThreadIdIn payload ["forked_from_id", "forkedFromId"] ownerThreadId).map
        (·, .fork)))
  else none

def sourceLabel (value : Json) : Option String :=
  match value with
  | .str source => some source
  | value => value.firstKey

def sessionSourceLabel (payload : Json) : Option String :=
  let threadSource := stringFieldIn payload ["thread_source", "threadSource"]
  if threadSource.any (fun source => eqIgnoreAsciiCase source "subagent") ||
      sourceIsSubagent payload then
    some "subagent"
  else
    match ((stringFieldIn payload ["originator"]).map trim).filter fun originator =>
        originator ≠ "" with
    | some originator =>
      some (if eqIgnoreAsciiCase originator "Codex Desktop" then "desktop"
        else if eqIgnoreAsciiCase originator "codex-tui" then "cli"
        else originator)
    | none =>
      ((payload.get "source").bind sourceLabel).or
        (threadSource.filter fun source => !eqIgnoreAsciiCase source "user")

def applySessionMeta (env : ReplayEnv) (thread : ThreadBuilder) (payload : Json)
    (timestamp : DateTime) : ThreadBuilder :=
  let parent :=
    match sessionParentThreadId payload (some thread.threadId) with
    | some (parentThreadId, rank) =>
      if thread.parentThreadRank.all fun current : ParentThreadRank => rank.rank > current.rank then
        (some parentThreadId, some rank)
      else (thread.parentThreadId, thread.parentThreadRank)
    | none => (thread.parentThreadId, thread.parentThreadRank)
  let createdAt := ((payload.get "timestamp").bind env.parseTimestamp).getD timestamp
  { thread with
    incompleteCounterBoundary :=
      if isSubagentSession payload && thread.previousCumulative.isNone then true
      else thread.incompleteCounterBoundary
    sessionMetadataUpdatedAt := setMaxTimestamp thread.sessionMetadataUpdatedAt timestamp
    parentThreadId := parent.1
    parentThreadRank := parent.2
    cwd := thread.cwd.or (stringFieldIn payload ["cwd"])
    source := thread.source.or (sessionSourceLabel payload)
    createdAt := setMinTimestamp thread.createdAt createdAt
    updatedAt := setMaxTimestamp thread.updatedAt timestamp }

/-! ## Turns -/

/-- Changes a turn, made first when the thread has not seen it. -/
def ThreadBuilder.withTurn (thread : ThreadBuilder) (turnId : String)
    (change : TurnBuilder → TurnBuilder) : ThreadBuilder :=
  { thread with
    turns := thread.turns.insert turnId (change (thread.turns[turnId]?.getD (.new turnId))) }

def ensureTurn (thread : ThreadBuilder) (turnId : String) : ThreadBuilder :=
  thread.withTurn turnId id

def TurnStatus.finished (status : TurnStatus) : Bool :=
  match status with
  | .completed => true
  | .interrupted => true
  | .failed => true
  | _ => false

def TurnBuilder.start (serviceTier : Option String) (startedAt : DateTime) (turn : TurnBuilder) :
    TurnBuilder :=
  { turn with
    serviceTier := turn.serviceTier.or serviceTier
    startedAt := setMinTimestamp turn.startedAt startedAt
    status :=
      match turn.status with
      | .unknown => .inProgress
      | .stale => .inProgress
      | status => status }

def activateTurn (thread : ThreadBuilder) (turnId : String) (startedAt : DateTime) :
    ThreadBuilder :=
  let serviceTier := thread.serviceTier
  let thread := ensureTurn thread turnId
  let turn := thread.turns[turnId]?.getD (.new turnId)
  if TurnStatus.finished turn.status then thread
  else
    { thread.withTurn turnId (TurnBuilder.start serviceTier startedAt) with
      activeTurnIds := thread.activeTurnIds.filter (fun active => active ≠ turnId) ++ [turnId]
      lastTurnId := none }

/-- The whole milliseconds from one moment to another, when they are not negative. -/
def elapsedMilliseconds (startedAt completedAt : DateTime) : Option Nat :=
  let elapsed := (completedAt - startedAt).tdiv 1000000
  if 0 ≤ elapsed then some elapsed.toNat else none

def TurnBuilder.finish (completedAt : DateTime) (durationMs : Option Nat) (status : TurnStatus)
    (turn : TurnBuilder) : TurnBuilder :=
  { turn with
    completedAt := some completedAt
    status := status
    durationMs := durationMs.or
      (turn.startedAt.bind fun startedAt => elapsedMilliseconds startedAt completedAt) }

def finishTurn (thread : ThreadBuilder) (turnId : String) (completedAt : DateTime)
    (durationMs : Option Nat) (status : TurnStatus) : ThreadBuilder :=
  { thread.withTurn turnId (TurnBuilder.finish completedAt durationMs status) with
    activeTurnIds := thread.activeTurnIds.filter fun active => active ≠ turnId
    lastTurnId := some turnId }

/-- The turn a sample is attributed to. -/
def ThreadBuilder.openTurn (thread : ThreadBuilder) : Option String :=
  thread.activeTurnIds.getLast?.or thread.lastTurnId

def applyTurnContext (thread : ThreadBuilder) (payload : Json) (timestamp : DateTime) :
    ThreadBuilder :=
  match stringFieldIn payload ["turn_id", "turnId"] with
  | none => thread
  | some turnId =>
    let thread :=
      if thread.activeTurnIds.contains turnId then thread
      else activateTurn thread turnId timestamp
    let thread := ensureTurn thread turnId
    let thread :=
      match stringFieldIn payload ["model"] with
      | none => thread
      | some model => thread.withTurn turnId fun turn =>
        { turn with
          model := some model
          serviceTier :=
            if turn.serviceTier.isNone then
              if thread.serviceTierObserved then thread.serviceTier
              else
                match thread.inheritedThreadSettings with
                | some (inheritedModel, inheritedServiceTier) =>
                  if eqIgnoreAsciiCase (trim inheritedModel) (trim model) then
                    some inheritedServiceTier
                  else none
                | none => none
            else turn.serviceTier }
    match stringFieldIn payload ["effort", "reasoning_effort", "reasoningEffort"] with
    | none => thread
    | some effort => thread.withTurn turnId fun turn =>
      { turn with reasoningEffort := some effort }

/-- Settings supersede the tier of every live turn. -/
def applyThreadSettings (thread : ThreadBuilder) (serviceTier : Option String) : ThreadBuilder :=
  { thread with
    serviceTierObserved := true
    serviceTier := serviceTier
    turns := thread.activeTurnIds.foldl (fun turns turnId =>
      match turns[turnId]? with
      | some turn => turns.insert turnId { turn with serviceTier := serviceTier }
      | none => turns) thread.turns }

/-! ## User messages -/

def turnMessagePreviewChars : Nat := 72

def shortenPreview (value : String) (maxChars : Nat) : String :=
  if value.toList.length ≤ maxChars then value
  else if maxChars ≤ 3 then String.ofList (List.replicate maxChars '.')
  else String.ofList (value.toList.take (maxChars - 3)) ++ "..."

def responseItemTurnWithPreview (thread : ThreadBuilder) (preview : String) : Option String :=
  thread.activeTurnIds.reverse.find? fun turnId =>
    thread.turns[turnId]?.any fun turn =>
      turn.messageSource = some .responseItem && turn.messagePreview = some preview

/-- The turn a message belongs to. -/
def messageTurn (thread : ThreadBuilder) (preview : String) (explicitTurnId : Option String)
    (source : UserMessageSource) : Option String :=
  (explicitTurnId.or
    (if source = .eventMessage then responseItemTurnWithPreview thread preview else none)).or
    thread.activeTurnIds.getLast?

def replaceTitle (thread : ThreadBuilder) (message : String) (turnId : Option String)
    (source : UserMessageSource) : ThreadBuilder :=
  if thread.title.isNone ||
      (thread.titleTurnId = turnId &&
        thread.titleSource.any fun current => source.rank > current.rank) then
    { thread with title := some message, titleSource := some source, titleTurnId := turnId }
  else thread

def TurnBuilder.preview (preview : String) (source : UserMessageSource) (turn : TurnBuilder) :
    TurnBuilder :=
  if turn.messagePreview.isNone ||
      turn.messageSource.any fun current => source.rank > current.rank then
    { turn with messagePreview := some preview, messageSource := some source }
  else turn

def applyUserMessage (thread : ThreadBuilder) (message : String) (explicitTurnId : Option String)
    (source : UserMessageSource) : ThreadBuilder :=
  let preview := shortenPreview message turnMessagePreviewChars
  let turnId := messageTurn thread preview explicitTurnId source
  let thread := replaceTitle thread message turnId source
  match turnId with
  | none => thread
  | some turnId => thread.withTurn turnId (TurnBuilder.preview preview source)

end Rollout
