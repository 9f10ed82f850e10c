import Mathlib.Data.List.Infix
import Mathlib.Data.List.Sort
import UsageMonit.Lib.Numerals
import UsageMonit.Rollout.ParsedEvents
import UsageMonit.Rollout.Thread

/-!
# Reading the records of a rollout file (`rollout.rs`)

How the fields of a JSON record are read: numbers, timestamps, token usage, rate limits, the text
of a user and the metadata of a session. What the parser takes from other crates is in
`ParseEnv`. A slice of a text is by byte offsets and panics inside of a character, and so does a
subtraction that leaves the range of dates.
-/

namespace Rollout

open Fallible Text Time Usage Utf8

/-! ## Code outside the repository -/

/-- A `DateTime<Utc>` with the range of its type. -/
abbrev Instant := {t : DateTime // minUtc ≤ t ∧ t ≤ maxUtc}

/-- What the parser takes from other crates and from floating point. -/
structure ParseEnv where
  /-- `serde_json::from_slice`. -/
  fromSlice : List UInt8 → Except String Json
  /-- `DateTime::parse_from_rfc3339`, in UTC. -/
  parseFromRfc3339 : String → Option Instant
  /-- An integer as a double. -/
  floatOfInt : Int → UInt64
  /-- `str::parse::<f64>`. -/
  parseFloat : String → Option UInt64
  /-- The timestamp at a number of seconds with a fraction. -/
  timestampOfFloat : UInt64 → Option Instant
  /-- `(100.0 - used_percent).clamp(0.0, 100.0)`. -/
  remainingPercent : UInt64 → UInt64

/-! ## Text -/

/-- `&value[start..stop]`. -/
def slice (value : String) (start stop : Nat) : Except Panic String :=
  okOr (slice? value start stop) .slice

/-- The digits of an integer, after its sign. -/
def parseDigits (digits : List Char) : Option Nat :=
  if digits ≠ [] ∧ digits.all Char.isDigit then some (Decimal.digitsValue digits) else none

def dropPlus (text : List Char) : List Char :=
  match text with
  | '+' :: digits => digits
  | digits => digits

/-- `str::parse::<u64>`. -/
def parseU64 (text : String) : Option Nat :=
  (parseDigits (dropPlus text.toList)).filter fun n => n < 2 ^ 64

def isI64 (n : Int) : Bool := -2 ^ 63 ≤ n && n < 2 ^ 63

/-- `str::parse::<i64>`. -/
def parseI64 (text : String) : Option Int :=
  (match text.toList with
  | '-' :: digits => (parseDigits digits).map fun n => -(n : Int)
  | text => (parseDigits (dropPlus text)).map fun n => (n : Int)).filter isI64

/-- `u64::from_str_radix` in base 16. -/
def parseHexU64 (text : String) : Option Nat :=
  (Hex.ofHex (dropPlus text.toList)).filter fun n => n < 2 ^ 64

def containsText (text pattern : String) : Bool := decide (pattern.toList <:+: text.toList)

/-! ## Numbers -/

namespace Json

def asArray (value : Json) : Option (List Json) :=
  match value with
  | emptyArray => some []
  | item value rest => rest.asArray.map (value :: ·)
  | _ => none

def asU64 (value : Json) : Option Nat :=
  match value with
  | int n => if 0 ≤ n ∧ n < 2 ^ 64 then some n.toNat else none
  | _ => none

def asI64 (value : Json) : Option Int :=
  match value with
  | int n => if isI64 n then some n else none
  | _ => none

def asF64 (env : ParseEnv) (value : Json) : Option UInt64 :=
  match value with
  | int n => some (env.floatOfInt n)
  | float bits => some bits
  | _ => none

def isNull (value : Json) : Bool :=
  match value with
  | null => true
  | _ => false

end Json

/-- The first of the fields that a reading accepts. -/
def fieldIn {α : Type} (read : Json → Option α) (value : Json) (fields : List String) : Option α :=
  fields.findSome? fun field => (value.get field).bind read

def nonemptyStringFieldIn (value : Json) (fields : List String) : Option String :=
  fieldIn (fun value => (value.asStr.map trim).filter fun text => text ≠ "") value fields

def u64FieldIn (value : Json) (fields : List String) : Option Nat :=
  fieldIn (fun value => value.asU64.or (value.asStr.bind parseU64)) value fields

def i64FieldIn (value : Json) (fields : List String) : Option Int :=
  fieldIn (fun value => value.asI64.or (value.asStr.bind parseI64)) value fields

def f64FieldIn (env : ParseEnv) (value : Json) (fields : List String) : Option UInt64 :=
  fieldIn (fun value => (value.asF64 env).or (value.asStr.bind env.parseFloat)) value fields

def isFinite (bits : UInt64) : Bool := (bits >>> 52) &&& 0x7ff != 0x7ff

/-! ## Timestamps -/

/-- The instant at a number of nanoseconds, if the range has one. -/
def instantAt (nanoseconds : Int) : Option Instant :=
  if h : minUtc ≤ nanoseconds ∧ nanoseconds ≤ maxUtc then some ⟨nanoseconds, h⟩ else none

/-- Large integers are milliseconds. -/
def timestampFromInteger (timestamp : Int) : Option Instant :=
  if timestamp.natAbs ≥ 100000000000 then instantAt (timestamp * 1000000)
  else instantAt (seconds timestamp)

def parseTimestamp (env : ParseEnv) (value : Json) : Option Instant :=
  match value with
  | .str text => (env.parseFromRfc3339 text).or ((parseI64 text).bind timestampFromInteger)
  | value =>
    match value.asI64 with
    | some timestamp => timestampFromInteger timestamp
    | none => (value.asF64 env).bind env.timestampOfFloat

/-- A member of an object, under its name or another. -/
def getOr (value : Json) (name other : String) : Option Json := (value.get name).or (value.get other)

def timestampFieldIn (env : ParseEnv) (value : Json) (name other : String) : Option Instant :=
  (getOr value name other).bind (parseTimestamp env)

/-! ## Usage -/

def tokenUsageFields : List String :=
  ["input_tokens", "inputTokens", "cached_input_tokens", "cachedInputTokens",
    "cache_write_input_tokens", "cacheWriteInputTokens", "output_tokens", "outputTokens",
    "reasoning_output_tokens", "reasoningOutputTokens", "total_tokens", "totalTokens"]

def parseTokenUsage (value : Json) : Option TokenUsage := do
  let value ← value.asObject
  if tokenUsageFields.any fun field => (value.get field).isSome then
    let tokens := fun fields => (u64FieldIn value fields).getD 0
    let inputTokens := tokens ["input_tokens", "inputTokens"]
    let outputTokens := tokens ["output_tokens", "outputTokens"]
    let totalTokens := (u64FieldIn value ["total_tokens", "totalTokens"]).getD
      (saturatingAdd 64 inputTokens outputTokens)
    some {
      unclassifiedTokens := if inputTokens = 0 ∧ outputTokens = 0 then totalTokens else 0
      inputTokens := inputTokens
      cachedInputTokens := tokens ["cached_input_tokens", "cachedInputTokens"]
      cacheWriteInputTokens := tokens ["cache_write_input_tokens", "cacheWriteInputTokens"]
      outputTokens := outputTokens
      reasoningOutputTokens := tokens ["reasoning_output_tokens", "reasoningOutputTokens"]
      totalTokens := totalTokens }
  else none

/-- A usage in the `info` of a payload, or in the payload itself. -/
def payloadTokenUsage (payload : Json) (name other : String) : Option TokenUsage :=
  ((((payload.get "info").bind Json.asObject).bind fun info => getOr info name other).or
    (getOr payload name other)).bind parseTokenUsage

def totalTokenUsage (payload : Json) : Option TokenUsage :=
  payloadTokenUsage payload "total_token_usage" "totalTokenUsage"

def lastTokenUsage (payload : Json) : Option TokenUsage :=
  payloadTokenUsage payload "last_token_usage" "lastTokenUsage"

def parseLimitWindow (env : ParseEnv) (value : Json) : Option LimitWindow := do
  let value ← value.asObject
  let usedPercent ← f64FieldIn env value ["used_percent", "usedPercent"]
  if isFinite usedPercent then
    some {
      usedPercent := usedPercent
      remainingPercent := env.remainingPercent usedPercent
      windowDurationMins := i64FieldIn value
        ["window_minutes", "windowMinutes", "window_duration_mins", "windowDurationMins"]
      resetsAt := (timestampFieldIn env value "resets_at" "resetsAt").map Subtype.val }
  else none

def parseCachedRateLimits (env : ParseEnv) (value : Json) : Option CachedRateLimits :=
  let primary := (value.get "primary").bind (parseLimitWindow env)
  let secondary := (value.get "secondary").bind (parseLimitWindow env)
  if primary.isNone ∧ secondary.isNone ∧ (getOr value "limit_id" "limitId").isNone then none
  else
    some {
      limitId := (stringFieldIn value ["limit_id", "limitId"]).getD "codex"
      primary := primary
      secondary := secondary }

/-! ## Text of a user -/

def titlePreview (message : String) : Option String :=
  let normalized := " ".intercalate (splitWhitespace message)
  if normalized = "" then none else some (shortenPreview normalized 96)

def isSyntheticUserContext (value : String) : Bool :=
  ["# AGENTS.md instructions for ", "<environment_context>", "<codex_internal_context",
    "<turn_aborted>", "<recommended_plugins>"].any fun start =>
      start.toList.isPrefixOf value.toList

def requestMarkers : List String :=
  ["## My request:", "# My request:", "## My request for Codex:", "# My request for Codex:"]

/-- The later of two occurrences, and the second of two at the same offset. -/
def laterMarker (best : Option (Nat × String)) (found : Nat × String) : Option (Nat × String) :=
  match best with
  | none => some found
  | some best => some (if found.1 ≥ best.1 then found else best)

def lastMarker (value : String) : Option (Nat × String) :=
  (requestMarkers.filterMap fun marker => (rfind value marker).map (·, marker)).foldl
    laterMarker none

def userAuthoredInputText (text : String) : Except Panic (Option String) :=
  let value := trim text
  if value = "" || isSyntheticUserContext value then .ok none
  else
    match lastMarker value with
    | none => .ok (some value)
    | some (index, marker) => do
      let rest ← slice value (index + marker.utf8ByteSize) value.utf8ByteSize
      let request := trim rest
      pure (some (if request = "" then value else request))

/-! ## Sessions -/

def isForkedSession (payload : Json) : Bool :=
  (["parent_thread_id", "parentThreadId", "forked_from_id", "forkedFromId"].filterMap fun field =>
      (payload.get field).bind Json.asStr).any (fun parent => trim parent ≠ "") ||
    isSubagentSession payload

def inheritsPlainThreadSpawnSettings (payload : Json) (ownerThreadId : Option String) : Bool :=
  (nestedSubagentParentThreadId payload ownerThreadId).isSome &&
    (do
      let source ← (payload.get "source").bind Json.asObject
      let subagent ← (getOr source "subagent" "subAgent").bind Json.asObject
      let threadSpawn ← (getOr subagent "thread_spawn" "threadSpawn").bind Json.asObject
      getOr threadSpawn "agent_role" "agentRole").any Json.isNull

def normalizedServiceTier (settings : Json) (implicitDefaultIsProven : Bool) : Option String :=
  match getOr settings "service_tier" "serviceTier" with
  | none => if implicitDefaultIsProven then some "default" else none
  | some .null => if implicitDefaultIsProven then some "default" else none
  | some (.str value) => if trim value ≠ "" then some (trim value) else none
  | some _ => none

def threadSettings (payload : Json) : Option Json :=
  (getOr payload "thread_settings" "threadSettings").bind Json.asObject

def inheritedThreadSettingsSnapshot (payload : Json) : Option String × Option String :=
  match threadSettings payload with
  | none => (none, none)
  | some settings =>
    (((stringFieldIn settings ["model"]).map trim).filter fun model => model ≠ "",
      normalizedServiceTier settings true)

/-- The members of a payload that the replay reads, by key. -/
def projectedPayload (payload : Json) (fields : List String) : Json :=
  Json.object ((fields.filterMap fun field =>
    (payload.get field).map (field, ·)).insertionSort fun a b => a.1 ≤ b.1)

/-! ## Owning segments -/

/-- The milliseconds in a UUID of version 7. The offsets of the slices are next to hyphens. -/
def uuidV7TimestampMs (value : String) : Except Panic (Option Nat) :=
  let hyphen := some '-'.toNat.toUInt8
  if value.utf8ByteSize = 36 ∧ byte? value 8 = hyphen ∧ byte? value 13 = hyphen ∧
      byte? value 14 = some '7'.toNat.toUInt8 ∧ byte? value 18 = hyphen ∧
      byte? value 23 = hyphen then do
    let high ← slice value 0 8
    let low ← slice value 9 13
    pure (parseHexU64 (high ++ low))
  else .ok none

/-- The time in the identity of a turn, if it has one. -/
def turnTimestampMs (turnId : Option String) : Except Panic (Option Nat) :=
  match turnId with
  | none => .ok none
  | some turnId => uuidV7TimestampMs turnId

/-- `started_at >= created_at - ChronoDuration::seconds(2)`, when both times are known. -/
def startedWithinTolerance (startedAt createdAt : Option Instant) : Except Panic Bool :=
  match startedAt, createdAt with
  | some startedAt, some createdAt => do
    let earliest ← okOr (checkedSubSigned createdAt.1 (seconds 2)) .dateOverflow
    pure (startedAt.1 ≥ earliest)
  | _, _ => .ok false

/-- Whether a record starts the part of the file that the owner wrote itself. -/
def startsOwningSegment (env : ParseEnv) (recordType : Option String) (payload : Option Json)
    (owningThreadId : String) (owningCreatedAt : Option Instant) : Except Panic Bool :=
  if recordType ≠ some "event_msg" then .ok false
  else
    match payload with
    | none => .ok false
    | some payload =>
      if stringFieldIn payload ["type"] ≠ some "task_started" then .ok false
      else do
        let turnTimestamp ← turnTimestampMs (stringFieldIn payload ["turn_id", "turnId"])
        let ownerTimestamp ← uuidV7TimestampMs owningThreadId
        let uuidTimeIsOwning := turnTimestamp.any fun turn =>
          ownerTimestamp.any fun owner => turn ≥ owner
        let timestampIsOwning ← startedWithinTolerance
          (timestampFieldIn env payload "started_at" "startedAt") owningCreatedAt
        pure (uuidTimeIsOwning || timestampIsOwning)

end Rollout
