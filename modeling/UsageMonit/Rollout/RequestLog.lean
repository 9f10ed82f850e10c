import UsageMonit.Rollout.Replay

/-!
# Logs of model requests

What a rollout log of one thread says, apart from how the replay reads it: its turns, which turn
each model request belongs to, and the events the requests are written as. A request is written
as a cumulative counter, with or without a native record before it; the counters are the running
sum of the requests from zero.

* `writtenEvents`: the events of a log
* `WellFormed`: valid usages, counters that fit, true turn totals
* `Aligned`: the last turn named is the turn of each request
-/

namespace Rollout

open Time Usage

/-! ## Turns of a log -/

structure OpenTurns where
  /-- The turns in progress, the one started last at the end. -/
  active : List String
  finished : List String
  /-- The turn that finished last, until another starts. -/
  last : Option String
deriving DecidableEq

def OpenTurns.start (turns : OpenTurns) (turn : String) : OpenTurns :=
  if turn ∈ turns.finished then turns
  else { turns with active := turns.active.filter (· ≠ turn) ++ [turn], last := none }

def OpenTurns.finish (turns : OpenTurns) (turn : String) : OpenTurns where
  active := turns.active.filter (· ≠ turn)
  finished := turn :: turns.finished
  last := some turn

def OpenTurns.after (turns : OpenTurns) (event : ParsedEvent) : OpenTurns :=
  match event with
  | .taskStarted _ turn _ => turns.start turn
  | .turnContext _ payload =>
    match stringFieldIn payload ["turn_id", "turnId"] with
    | none => turns
    | some turn => if turn ∈ turns.active then turns else turns.start turn
  | .taskComplete _ turn _ _ => turns.finish turn
  | .turnAborted _ turn _ _ _ => turns.finish turn
  | _ => turns

/-- The turn that is being worked on: the innermost one, or the one that just finished. -/
def OpenTurns.current (turns : OpenTurns) : Option String := turns.active.getLast?.or turns.last

def namedBy (event : ParsedEvent) : Option String :=
  match event with
  | .taskStarted _ turn _ => some turn
  | .turnContext _ payload => stringFieldIn payload ["turn_id", "turnId"]
  | _ => none

/-! ## Requests -/

/-- A native record, apart from the usage. -/
structure NativeRecord where
  timestamp : DateTime
  turnId : String
  responseId : String
  turnUsage : Option TokenUsage
deriving DecidableEq

structure LoggedRequest where
  usage : TokenUsage
  record : Option NativeRecord
  timestamp : DateTime
  lineNumber : Nat
  rateLimits : Option CachedRateLimits
deriving DecidableEq

inductive LogItem
  | request (request : LoggedRequest)
  | event (event : ParsedEvent)
deriving DecidableEq

/-- A request with the turn it belongs to and the turn named last before it. -/
structure Entry where
  /-- The index of its counter in the file. -/
  index : Nat
  turn : Option String
  named : Option String
  request : LoggedRequest

/-- What is known after a part of a log. -/
structure LogState where
  /-- The number of events written. -/
  length : Nat
  turns : OpenTurns
  named : Option String
  entries : List Entry

def LogState.start : LogState := ⟨0, ⟨[], [], none⟩, none, []⟩

def LogState.usages (state : LogState) : List TokenUsage :=
  state.entries.map fun entry => entry.request.usage

/-- The usages of the requests of a turn, or of those outside of all turns. -/
def LogState.usagesOf (state : LogState) (turn : Option String) : List TokenUsage :=
  (state.entries.filter fun entry => entry.turn = turn).map fun entry => entry.request.usage

def LogState.entryOf (state : LogState) (request : LoggedRequest) : Entry where
  index := state.length + if request.record.isSome then 1 else 0
  turn := request.record.elim state.turns.current fun record => some record.turnId
  named := state.named
  request := request

def requestEvent (usage : TokenUsage) (record : NativeRecord) : RequestUsageEvent where
  timestamp := record.timestamp
  turnId := record.turnId
  responseId := record.responseId
  usage := usage
  turnUsage := record.turnUsage

def counterEvent (before : List TokenUsage) (request : LoggedRequest) : TokenCountEvent where
  timestamp := request.timestamp
  lineNumber := request.lineNumber
  totalUsage := some (TokenUsage.sum (before ++ [request.usage]))
  lastUsage := some request.usage
  rateLimits := request.rateLimits

/-- The events an item is written as. -/
def LogState.write (state : LogState) (item : LogItem) : List ParsedEvent :=
  match item with
  | .event event => [event]
  | .request request =>
    match request.record with
    | none => [.tokenCount (counterEvent state.usages request)]
    | some record =>
      [.requestUsage (requestEvent request.usage record),
        .tokenCount (counterEvent state.usages request)]

def LogState.next (state : LogState) (item : LogItem) : LogState :=
  match item with
  | .event event =>
    { state with
      length := state.length + 1
      turns := state.turns.after event
      named := (namedBy event).or state.named }
  | .request request =>
    { state with
      length := state.length + (state.write item).length
      entries := state.entries ++ [state.entryOf request] }

def LogState.after (state : LogState) (log : List LogItem) : LogState := log.foldl next state

def logState (log : List LogItem) : LogState := LogState.start.after log

def writtenFrom (state : LogState) : List LogItem → List ParsedEvent
  | [] => []
  | item :: rest => state.write item ++ writtenFrom (state.next item) rest

def writtenEvents (log : List LogItem) : List ParsedEvent := writtenFrom .start log

/-- The events that may stand between requests: any that carry no usage. -/
def carriesUsage (event : ParsedEvent) : Bool :=
  match event with
  | .requestUsage _ => true
  | .foreignCounterBaseline _ _ => true
  | .tokenCount counter => counter.totalUsage.isSome
  | _ => false

structure WellFormed (log : List LogItem) : Prop where
  others : ∀ event, .event event ∈ log → carriesUsage event = false
  valid : ∀ request, .request request ∈ log → request.usage.hasValidBreakdown
  /-- The last counter is a 64-bit number. -/
  fits : ((logState log).usages.map TokenUsage.totalTokens).sum < 2 ^ 64
  /-- A turn total stated by a record is the sum of the turn's requests so far. -/
  totals : ∀ before request record total after, log = before ++ .request request :: after →
    request.record = some record → record.turnUsage = some total →
    total = TokenUsage.sum ((logState before).usagesOf (some record.turnId) ++ [request.usage])

/-- A native record of the turn `turn` that states a turn total. -/
def LogItem.statesTotalOf (item : LogItem) (turn : String) : Bool :=
  match item with
  | .request logged =>
    logged.record.any fun record => record.turnId = turn && record.turnUsage.isSome
  | .event _ => false

/-- The turn named last before a request is the request's own. For a counter without a record it
may be another turn, as long as no later record states that other turn's total. -/
def Aligned (log : List LogItem) : Prop :=
  ∀ before request after, log = before ++ .request request :: after →
    match request.record with
    | some record => (logState before).named = some record.turnId
    | none => (logState before).named = (logState before).turns.current ∨
      ∀ turn, (logState before).named = some turn → ∀ item ∈ after, item.statesTotalOf turn = false

end Rollout
