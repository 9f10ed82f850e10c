import Std.Data.ExtTreeMap
import UsageMonit.Domain.Usage
import UsageMonit.Lib.Text

/-!
# Parsed rollout files (`rollout.rs`)

The events a rollout log is parsed into, the parsed file with its content bounds, and the moment
each event became available. Payloads stay JSON objects: the replay reads their fields itself.
Reading a timestamp out of JSON is `chrono`'s and is a parameter, as is SHA-256.

The maps of the source are ordered maps here; where the source walks a hash map in no particular
order, the model walks it by key.
-/

namespace Rollout

open Text Time Usage

abbrev Map (α : Type) := Std.ExtTreeMap String α

/-! ## Paths -/

/-- The components of a path; those of an absolute path start with an empty one. -/
abbrev Path := List String

def Path.display (path : Path) : String := String.intercalate "/" path

def Path.join (path : Path) (name : String) : Path := path ++ [name]

/-- `Path::starts_with`, by whole components. -/
def Path.startsWith (path base : Path) : Bool := base.isPrefixOf path

structure CollectConfig where
  codexHome : Path
  redactContent : Bool
  activeGrace : Duration
deriving DecidableEq

/-! ## JSON -/

/-- A JSON value. Objects and arrays are chains of their members. -/
inductive Json
  | null
  | bool (value : Bool)
  | int (value : Int)
  | float (bits : UInt64)
  | str (value : String)
  | emptyArray
  | item (value rest : Json)
  | emptyObject
  | field (key : String) (value rest : Json)
deriving DecidableEq

namespace Json

/-- An object with these members. -/
def object (members : List (String × Json)) : Json :=
  members.foldr (fun member rest => field member.1 member.2 rest) emptyObject

def get (value : Json) (key : String) : Option Json :=
  match value with
  | field key' member rest => if key' = key then some member else rest.get key
  | _ => none

def asStr (value : Json) : Option String :=
  match value with
  | str text => some text
  | _ => none

def asObject (value : Json) : Option Json :=
  match value with
  | emptyObject => some emptyObject
  | field key member rest => some (field key member rest)
  | _ => none

def firstKey (value : Json) : Option String :=
  match value with
  | field key _ _ => some key
  | _ => none

end Json

/-- The first of the fields that holds a string. -/
def stringFieldIn (value : Json) (fields : List String) : Option String :=
  fields.findSome? fun field => (value.get field).bind Json.asStr

/-! ## Code outside the repository -/

/-- What the replay takes from other crates. -/
structure ReplayEnv where
  /-- The digest of a byte string. -/
  sha256 : List UInt8 → List UInt8
  /-- A timestamp held by a JSON value. -/
  parseTimestamp : Json → Option DateTime

/-! ## Events -/

structure RequestUsageEvent where
  timestamp : DateTime
  turnId : String
  responseId : String
  usage : TokenUsage
  turnUsage : Option TokenUsage
deriving DecidableEq

structure CachedRateLimits where
  limitId : String
  primary : Option LimitWindow
  secondary : Option LimitWindow
deriving DecidableEq

structure TokenCountEvent where
  timestamp : DateTime
  lineNumber : Nat
  totalUsage : Option TokenUsage
  lastUsage : Option TokenUsage
  rateLimits : Option CachedRateLimits
deriving DecidableEq

inductive UserMessageSource
  | responseItem
  | eventMessage
deriving DecidableEq

/-- The derived order of the variants. -/
def UserMessageSource.rank : UserMessageSource → Nat
  | responseItem => 0
  | eventMessage => 1

inductive ParsedEvent
  | requestUsage (request : RequestUsageEvent)
  | sessionMeta (timestamp : DateTime) (payload : Json)
  | foreignCounterBaseline (timestamp : DateTime) (totalUsage : TokenUsage)
  | foreignThreadSettingsBaseline (timestamp : DateTime) (model serviceTier : Option String)
  | userMessage (timestamp : DateTime) (preview : String) (turnId : Option String)
      (source : UserMessageSource)
  | agentCall (requestedAt : Option DateTime) (callId parentTurnId : String)
      (kind : AgentInteractionKind)
  | agentActivity (recordedAt occurredAt : Option DateTime) (callId childThreadId : String)
      (kind : AgentInteractionKind)
  | threadSettingsApplied (timestamp : DateTime) (serviceTier : Option String)
  | activity (timestamp : DateTime)
  | turnContext (timestamp : DateTime) (payload : Json)
  | taskStarted (timestamp : DateTime) (turnId : String) (startedAt : Option DateTime)
  | taskComplete (timestamp : DateTime) (turnId : String) (completedAt : Option DateTime)
      (durationMs : Option Nat)
  | turnAborted (timestamp : DateTime) (turnId : String) (completedAt : Option DateTime)
      (durationMs : Option Nat) (failed : Bool)
  | tokenCount (counter : TokenCountEvent)
deriving DecidableEq

/-- When an event became available: a half-dated event when its later part did. -/
def parsedEventAvailableAt (event : ParsedEvent) : Option DateTime :=
  match event with
  | .sessionMeta timestamp _ => some timestamp
  | .foreignCounterBaseline timestamp _ => some timestamp
  | .foreignThreadSettingsBaseline timestamp _ _ => some timestamp
  | .userMessage timestamp _ _ _ => some timestamp
  | .threadSettingsApplied timestamp _ => some timestamp
  | .activity timestamp => some timestamp
  | .turnContext timestamp _ => some timestamp
  | .requestUsage request => some request.timestamp
  | .tokenCount counter => some counter.timestamp
  | .agentCall requestedAt _ _ _ => requestedAt
  | .agentActivity recordedAt occurredAt _ _ _ =>
    match recordedAt, occurredAt with
    | some recordedAt, some occurredAt => some (max recordedAt occurredAt)
    | some timestamp, none => some timestamp
    | none, some timestamp => some timestamp
    | none, none => none
  | .taskStarted timestamp _ startedAt =>
    some (startedAt.elim timestamp fun startedAt => max timestamp startedAt)
  | .taskComplete timestamp _ completedAt _ =>
    some (completedAt.elim timestamp fun completedAt => max timestamp completedAt)
  | .turnAborted timestamp _ completedAt _ _ =>
    some (completedAt.elim timestamp fun completedAt => max timestamp completedAt)

/-- Whether an event can be seen as of a moment: always when no moment is given. -/
def eventIsVisible (asOf : Option DateTime) (event : ParsedEvent) : Bool :=
  asOf.all fun asOf => (parsedEventAvailableAt event).all fun at' => at' ≤ asOf

/-- The parts of a parsed file that the plan and the replay read. -/
structure ParsedFile where
  ownerThreadId : Option String
  activityUpdatedAt : Option DateTime
  events : List ParsedEvent
  parsedLines : Nat
  skippedLines : Nat
  unreadableFiles : Nat
  warnings : List String
  suppressedWarnings : Nat
  complete : Bool
  replayStartedAt : Option DateTime
  replayUpdatedAt : Option DateTime
  replayTimestampsComplete : Bool
deriving DecidableEq

/-! ## Timestamps in a slot -/

def setMinTimestamp (slot : Option DateTime) (value : DateTime) : Option DateTime :=
  if slot.all fun current => value < current then some value else slot

def setMaxTimestamp (slot : Option DateTime) (value : DateTime) : Option DateTime :=
  if slot.all fun current => value > current then some value else slot

end Rollout
