import UsageMonit.Rollout.Fields
import UsageMonit.Rollout.Line
import UsageMonit.Rollout.Replay

/-!
# Parsing a rollout file (`rollout.rs`)

A rollout file is read line by line, a JSON record each, into the events of its owner: the thread
of its first session metadata. A forked session embeds the history of its parent after its own
metadata. Records of that history are passed over until a record shows that the owner has started;
of the history, the parser keeps the last counter and, for some sessions, the settings.

Every step is fallible: it panics where a slice, an index or a date leaves its range.
-/

namespace Rollout

open Fallible Time Usage

/-- The fields of a `RolloutFile` that the parser reads. -/
structure RolloutSource where
  path : Path
  modifiedAt : Instant

/-- A `ParsedFile` with what a later parse of the same file goes on from. -/
structure ParsedRollout where
  ownerThreadId : Option String
  activityUpdatedAt : Option DateTime
  events : ParsedEvents
  parsedLines : Nat
  skippedLines : Nat
  unreadableFiles : Nat
  warnings : List String
  suppressedWarnings : Nat
  complete : Bool
  sourceLines : Nat
  owningCreatedAt : Option Instant
  replayStartedAt : Option DateTime
  replayUpdatedAt : Option DateTime
  replayTimestampsComplete : Bool
  replayingForeignHistory : Bool
  foreignBaselineEvents : Nat
  inheritForeignThreadSettings : Bool

def ParsedRollout.new : ParsedRollout where
  ownerThreadId := none
  activityUpdatedAt := none
  events := .new
  parsedLines := 0
  skippedLines := 0
  unreadableFiles := 0
  warnings := []
  suppressedWarnings := 0
  complete := false
  sourceLines := 0
  owningCreatedAt := none
  replayStartedAt := none
  replayUpdatedAt := none
  replayTimestampsComplete := true
  replayingForeignHistory := false
  foreignBaselineEvents := 0
  inheritForeignThreadSettings := false

/-- The part that the replay reads, with the events its iterators read. -/
def ParsedRollout.toParsedFile (parsed : ParsedRollout) (events : List ParsedEvent) :
    ParsedFile where
  ownerThreadId := parsed.ownerThreadId
  activityUpdatedAt := parsed.activityUpdatedAt
  events := events
  parsedLines := parsed.parsedLines
  skippedLines := parsed.skippedLines
  unreadableFiles := parsed.unreadableFiles
  warnings := parsed.warnings
  suppressedWarnings := parsed.suppressedWarnings
  complete := parsed.complete
  replayStartedAt := parsed.replayStartedAt
  replayUpdatedAt := parsed.replayUpdatedAt
  replayTimestampsComplete := parsed.replayTimestampsComplete

/-- A record with its type and time. -/
structure RolloutRecord where
  value : Json
  lineNumber : Nat
  recordType : Option String
  explicitTimestamp : Option Instant
  timestamp : Instant

def RolloutRecord.payload (record : RolloutRecord) : Option Json :=
  (record.value.get "payload").bind Json.asObject

/-! ## Small changes of the parsed file -/

namespace ParsedRollout

def pushWarning (parsed : ParsedRollout) (warning : String) : ParsedRollout :=
  if parsed.warnings.length < rolloutMaxWarningsPerFile then
    { parsed with warnings := parsed.warnings ++ [warning] }
  else { parsed with suppressedWarnings := parsed.suppressedWarnings + 1 }

def skipLine (parsed : ParsedRollout) (warning : String) : ParsedRollout :=
  { parsed with skippedLines := parsed.skippedLines + 1 }.pushWarning warning

def pushEvent (parsed : ParsedRollout) (event : ParsedEvent) : Except Panic ParsedRollout := do
  let events ← parsed.events.push event
  pure { parsed with events := events }

/-- A moment in the content of the file. -/
def seeTimestamp (parsed : ParsedRollout) (timestamp : Instant) : ParsedRollout :=
  { parsed with
    replayStartedAt := setMinTimestamp parsed.replayStartedAt timestamp.1
    replayUpdatedAt := setMaxTimestamp parsed.replayUpdatedAt timestamp.1 }

end ParsedRollout

/-! ## Session metadata -/

def sessionMetaFields : List String :=
  ["cwd", "source", "thread_source", "threadSource", "originator", "timestamp",
    "parent_thread_id", "parentThreadId", "forked_from_id", "forkedFromId"]

/-- When a session was recorded, or took effect if that is later. -/
def sessionTimestamp (file : RolloutSource) (explicitTimestamp payloadTimestamp : Option Instant) :
    DateTime :=
  match explicitTimestamp, payloadTimestamp with
  | some recordedAt, some effectiveAt => max recordedAt.1 effectiveAt.1
  | some timestamp, none => timestamp.1
  | none, some timestamp => timestamp.1
  | none, none => file.modifiedAt.1

/-- Metadata of the owner, whose time is stable unless it is the file's. -/
def pushSessionMeta (file : RolloutSource) (parsed : ParsedRollout) (payload : Json)
    (explicitTimestamp payloadTimestamp : Option Instant) : Except Panic ParsedRollout :=
  (match explicitTimestamp.or payloadTimestamp with
  | some stable => parsed.seeTimestamp stable
  | none => { parsed with replayTimestampsComplete := false }).pushEvent
    (.sessionMeta (sessionTimestamp file explicitTimestamp payloadTimestamp)
      (projectedPayload payload sessionMetaFields))

def parseSessionMeta (env : ParseEnv) (file : RolloutSource) (parsed : ParsedRollout)
    (record : RolloutRecord) : Except Panic ParsedRollout :=
  match record.payload with
  | none => .ok parsed
  | some payload =>
    match stringFieldIn payload ["id"] with
    | none => .ok (parsed.pushWarning ("session metadata without an id at " ++
        file.path.display ++ " line " ++ toString record.lineNumber))
    | some threadId =>
      let payloadTimestamp := (payload.get "timestamp").bind (parseTimestamp env)
      match parsed.ownerThreadId with
      | none =>
        pushSessionMeta file { parsed with
            owningCreatedAt := payloadTimestamp.or (some record.timestamp)
            ownerThreadId := some threadId
            replayingForeignHistory := isForkedSession payload
            inheritForeignThreadSettings := inheritsPlainThreadSpawnSettings payload threadId }
          payload record.explicitTimestamp payloadTimestamp
      | some owner =>
        if owner = threadId then
          pushSessionMeta file { parsed with replayingForeignHistory := false } payload
            record.explicitTimestamp payloadTimestamp
        else .ok { parsed with replayingForeignHistory := true }

/-! ## Foreign history -/

/-- The latest foreign counter before the first of `i` events that belongs to the owner. -/
def locateBaseline (events : ParsedEvents) : Nat → Except Panic (Option Nat)
  | 0 => .ok none
  | i + 1 => do
    let event ← events.index i
    match event with
    | .foreignCounterBaseline _ _ => pure (some i)
    | .foreignThreadSettingsBaseline _ _ _ => locateBaseline events i
    | .sessionMeta _ _ => locateBaseline events i
    | _ => pure none

/-- Returns whether the baseline is the first one. -/
def retainLatestForeignBaseline (events : ParsedEvents) (timestamp : DateTime)
    (totalUsage : TokenUsage) : Except Panic (ParsedEvents × Bool) := do
  let baselineIndex ← locateBaseline events events.len
  match baselineIndex with
  | some index => do
    let event ← events.getMut index
    match event with
    | none => .error (.expect "the located baseline exists")
    | some (.foreignCounterBaseline _ _) =>
      pure (events.write index (.foreignCounterBaseline timestamp totalUsage), false)
    | some _ => .error (.unreachable "the located event is a foreign baseline")
  | none => do
    let events ← events.push (.foreignCounterBaseline timestamp totalUsage)
    pure (events, true)

/-- What is kept of a record of the parent. -/
def retainForeignRecord (parsed : ParsedRollout) (record : RolloutRecord) :
    Except Panic ParsedRollout :=
  if record.recordType ≠ some "event_msg" then .ok parsed
  else
    match record.payload with
    | none => .ok parsed
    | some payload =>
      match stringFieldIn payload ["type"] with
      | some "token_count" =>
        match totalTokenUsage payload with
        | none => .ok parsed
        | some totalUsage => do
          let retained ← retainLatestForeignBaseline parsed.events record.timestamp.1 totalUsage
          pure { parsed with
            events := retained.1
            foreignBaselineEvents := parsed.foreignBaselineEvents + if retained.2 then 1 else 0 }
      | some "thread_settings_applied" =>
        if parsed.inheritForeignThreadSettings then
          let (model, serviceTier) := inheritedThreadSettingsSnapshot payload
          parsed.pushEvent (.foreignThreadSettingsBaseline record.timestamp.1 model serviceTier)
        else .ok parsed
      | _ => .ok parsed

/-! ## Records of the owner -/

def requestUsage (payload : Json) (timestamp : DateTime) : Option RequestUsageEvent := do
  let turnId ← stringFieldIn payload ["turn_id"]
  let responseId ← stringFieldIn payload ["response_id"]
  if turnId = "" ∨ responseId = "" ∨ responseId.utf8ByteSize > 1024 then none
  else
    let usage ← (payload.get "usage").bind parseTokenUsage
    if usage.hasValidBreakdown then
      some {
        timestamp := timestamp
        turnId := turnId
        responseId := responseId
        usage := usage
        turnUsage := ((payload.get "turn_token_usage").bind parseTokenUsage).filter fun usage =>
          usage.hasValidBreakdown }
    else none

def subagentActivity (payload : Json) : Option (String × String × AgentInteractionKind) := do
  if stringFieldIn payload ["type"] ≠ some "sub_agent_activity" then none
  else
    let kind ← match ← nonemptyStringFieldIn payload ["kind"] with
      | "started" => some .spawnStarted
      | "interacted" => some .interacted
      | _ => none
    let callId ← nonemptyStringFieldIn payload ["event_id", "eventId"]
    let childThreadId ← nonemptyStringFieldIn payload ["agent_thread_id", "agentThreadId"]
    some (callId, childThreadId, kind)

def passthroughMetadata (payload : Json) : Option Json :=
  (getOr payload "internal_chat_message_metadata_passthrough"
    "internalChatMessageMetadataPassthrough").bind Json.asObject

def responseItemAgentCall (payload : Json) : Option (String × String × AgentInteractionKind) := do
  if stringFieldIn payload ["type"] ≠ some "function_call" then none
  else
    let kind ← match ← nonemptyStringFieldIn payload ["name"] with
      | "spawn_agent" => some .spawnStarted
      | "followup_task" => some .interacted
      | "send_message" => some .interacted
      | _ => none
    let callId ← nonemptyStringFieldIn payload ["call_id", "callId"]
    let metadata ← passthroughMetadata payload
    let parentTurnId ← nonemptyStringFieldIn metadata ["turn_id", "turnId"]
    some (callId, parentTurnId, kind)

def inputTexts (content : List Json) : List String :=
  ((content.filterMap Json.asObject).filter fun item =>
    stringFieldIn item ["type"] = some "input_text").filterMap fun item =>
      (item.get "text").bind Json.asStr

def responseItemUserMessage (payload : Json) : Except Panic (Option (String × Option String)) :=
  if stringFieldIn payload ["type"] ≠ some "message" ∨
      stringFieldIn payload ["role"] ≠ some "user" then .ok none
  else
    match (payload.get "content").bind Json.asArray with
    | none => .ok none
    | some content => do
      let authored ← (inputTexts content).mapM userAuthoredInputText
      let turnId := (stringFieldIn payload ["turn_id", "turnId"]).or
        ((passthroughMetadata payload).bind fun metadata =>
          stringFieldIn metadata ["turn_id", "turnId"])
      pure ((titlePreview (" ".intercalate (authored.filterMap id))).map (·, turnId))

def cachedEvent (env : ParseEnv) (payload : Json) (timestamp : DateTime) (lineNumber : Nat) :
    Option ParsedEvent :=
  let turnId := stringFieldIn payload ["turn_id", "turnId"]
  let completedAt := (timestampFieldIn env payload "completed_at" "completedAt").map Subtype.val
  let durationMs := u64FieldIn payload ["duration_ms", "durationMs"]
  match stringFieldIn payload ["type"] with
  | some "task_started" => turnId.map fun turnId =>
    .taskStarted timestamp turnId
      ((timestampFieldIn env payload "started_at" "startedAt").map Subtype.val)
  | some "task_complete" => turnId.map fun turnId =>
    .taskComplete timestamp turnId completedAt durationMs
  | some "turn_aborted" => turnId.map fun turnId =>
    let reason := (stringFieldIn payload ["reason"]).getD ""
    .turnAborted timestamp turnId completedAt durationMs
      (containsText reason "fail" || containsText reason "error")
  | some "token_count" =>
    let totalUsage := totalTokenUsage payload
    let lastUsage := lastTokenUsage payload
    let rateLimits := ((getOr payload "rate_limits" "rateLimits").bind Json.asObject).bind
      (parseCachedRateLimits env)
    if totalUsage.isSome ∨ lastUsage.isSome ∨ rateLimits.isSome then
      some (.tokenCount ⟨timestamp, lineNumber, totalUsage, lastUsage, rateLimits⟩)
    else none
  | _ => none

def cacheEventMessage (env : ParseEnv) (parsed : ParsedRollout) (payload : Json)
    (record : RolloutRecord) : Except Panic ParsedRollout :=
  match cachedEvent env payload record.timestamp.1 record.lineNumber with
  | none => .ok parsed
  | some event => parsed.pushEvent event

/-- The preview of a user's message, unless content is redacted. -/
def userMessagePreview (config : CollectConfig) (payload : Json) : Except Panic (Option String) :=
  if config.redactContent then .ok none
  else
    match (payload.get "message").bind Json.asStr with
    | none => .ok none
    | some message => do
      let authored ← userAuthoredInputText message
      pure (authored.bind titlePreview)

def parseEventMessage (env : ParseEnv) (config : CollectConfig) (parsed : ParsedRollout)
    (payload : Json) (record : RolloutRecord) : Except Panic ParsedRollout :=
  match stringFieldIn payload ["type"] with
  | some "user_message" => do
    let title ← userMessagePreview config payload
    match title with
    | none => pure parsed
    | some title => parsed.pushEvent (.userMessage record.timestamp.1 title
        (stringFieldIn payload ["turn_id", "turnId"]) .eventMessage)
  | some "thread_settings_applied" =>
    parsed.pushEvent (.threadSettingsApplied record.timestamp.1
      ((threadSettings payload).bind fun settings =>
        normalizedServiceTier settings parsed.inheritForeignThreadSettings))
  | _ =>
    match subagentActivity payload with
    | some (callId, childThreadId, kind) =>
      let occurredAt := (timestampFieldIn env payload "occurred_at_ms" "occurredAtMs").or
        record.explicitTimestamp
      parsed.pushEvent (.agentActivity (record.explicitTimestamp.map Subtype.val)
        (occurredAt.map Subtype.val) callId childThreadId kind)
    | none => cacheEventMessage env parsed payload record

def pushAgentCall (parsed : ParsedRollout) (payload : Json) (record : RolloutRecord) :
    Except Panic ParsedRollout :=
  match responseItemAgentCall payload with
  | none => .ok parsed
  | some (callId, parentTurnId, kind) =>
    parsed.pushEvent (.agentCall (record.explicitTimestamp.map Subtype.val) callId parentTurnId
      kind)

def parseResponseItem (config : CollectConfig) (parsed : ParsedRollout) (payload : Json)
    (record : RolloutRecord) : Except Panic ParsedRollout := do
  let parsed ← pushAgentCall parsed payload record
  if config.redactContent then pure parsed
  else do
    let message ← responseItemUserMessage payload
    match message with
    | none => pure parsed
    | some (preview, turnId) =>
      parsed.pushEvent (.userMessage record.timestamp.1 preview turnId .responseItem)

def parseUsageRecord (file : RolloutSource) (parsed : ParsedRollout) (payload : Json)
    (record : RolloutRecord) : Except Panic ParsedRollout :=
  match requestUsage payload record.timestamp.1 with
  | some request => parsed.pushEvent (.requestUsage request)
  | none => .ok (parsed.skipLine ("invalid native request usage at " ++ file.path.display ++
      " line " ++ toString record.lineNumber))

def replayedRecordTypes : List (Option String) :=
  [some "turn_context", some "event_msg", some "response_item"]

/-- The times that a record of the owner is evidence of. -/
def seeRecord (parsed : ParsedRollout) (record : RolloutRecord) : ParsedRollout :=
  let parsed := match record.explicitTimestamp with
    | some explicitTimestamp => parsed.seeTimestamp explicitTimestamp
    | none =>
      if replayedRecordTypes.contains record.recordType then
        { parsed with replayTimestampsComplete := false }
      else parsed
  { parsed with
    activityUpdatedAt := setMaxTimestamp parsed.activityUpdatedAt record.timestamp.1 }

/-- A usage record that does not name the owner is passed over. -/
def isOtherUsageRecord (record : RolloutRecord) (threadId : String) : Bool :=
  record.recordType = some "token_usage_record" &&
    record.payload.all fun payload => stringFieldIn payload ["thread_id"] ≠ some threadId

def parseTurnContext (parsed : ParsedRollout) (payload : Json) (record : RolloutRecord) :
    Except Panic ParsedRollout :=
  parsed.pushEvent (.turnContext record.timestamp.1 (projectedPayload payload
    ["turn_id", "turnId", "model", "effort", "reasoning_effort", "reasoningEffort"]))

/-- What a record of the owner adds, by its type. -/
def parseTypedRecord (env : ParseEnv) (file : RolloutSource) (config : CollectConfig)
    (parsed : ParsedRollout) (record : RolloutRecord) : Except Panic ParsedRollout :=
  match record.payload with
  | none => .ok parsed
  | some payload =>
    match record.recordType with
    | some "token_usage_record" => parseUsageRecord file parsed payload record
    | some "turn_context" => parseTurnContext parsed payload record
    | some "event_msg" => parseEventMessage env config parsed payload record
    | some "response_item" => parseResponseItem config parsed payload record
    | _ => .ok parsed

/-- A record that adds nothing is still activity. -/
def parseOwnRecord (env : ParseEnv) (file : RolloutSource) (config : CollectConfig)
    (threadId : String) (parsed : ParsedRollout) (record : RolloutRecord) :
    Except Panic ParsedRollout :=
  let seen := seeRecord parsed record
  if isOtherUsageRecord record threadId then .ok seen
  else do
    let typed ← parseTypedRecord env file config seen record
    if typed.events.len = seen.events.len then typed.pushEvent (.activity record.timestamp.1)
    else pure typed

/-! ## Records and lines -/

/-- `string_field(&record, &["payload", "thread_id"])`: the fields of the record itself. -/
def namesThread (record : RolloutRecord) (threadId : String) : Bool :=
  record.recordType = some "token_usage_record" &&
    stringFieldIn record.value ["payload", "thread_id"] = some threadId

def parseRecord (env : ParseEnv) (file : RolloutSource) (config : CollectConfig)
    (parsed : ParsedRollout) (record : RolloutRecord) : Except Panic ParsedRollout :=
  if record.recordType = some "session_meta" then parseSessionMeta env file parsed record
  else
    match parsed.ownerThreadId with
    | none => .ok parsed
    | some threadId =>
      if parsed.replayingForeignHistory then
        if namesThread record threadId then
          parseOwnRecord env file config threadId
            { parsed with replayingForeignHistory := false } record
        else do
          let starts ← startsOwningSegment env record.recordType record.payload threadId
            parsed.owningCreatedAt
          if starts then
            parseOwnRecord env file config threadId
              { parsed with replayingForeignHistory := false } record
          else retainForeignRecord parsed record
      else parseOwnRecord env file config threadId parsed record

/-- The record of a line, with the time of the file when it has none. -/
def rolloutRecord (env : ParseEnv) (file : RolloutSource) (lineNumber : Nat) (value : Json) :
    RolloutRecord :=
  let explicitTimestamp := (value.get "timestamp").bind (parseTimestamp env)
  { value := value
    lineNumber := lineNumber
    recordType := stringFieldIn value ["type"]
    explicitTimestamp := explicitTimestamp
    timestamp := explicitTimestamp.getD file.modifiedAt }

def parseJsonLine (env : ParseEnv) (file : RolloutSource) (config : CollectConfig)
    (parsed : ParsedRollout) (line : List UInt8) : Except Panic ParsedRollout :=
  let place := " at " ++ file.path.display ++ " line " ++ toString parsed.sourceLines
  match env.fromSlice line with
  | .error error => .ok (parsed.skipLine ("ignored malformed JSON" ++ place ++ ": " ++ error))
  | .ok value =>
    match value.asObject with
    | none => .ok (parsed.skipLine ("ignored non-object JSON" ++ place))
    | some value =>
      parseRecord env file config { parsed with parsedLines := parsed.parsedLines + 1 }
        (rolloutRecord env file parsed.sourceLines value)

/-- One turn of the loop: a line, or the failure of the reader. -/
def parseLine (env : ParseEnv) (file : RolloutSource) (config : CollectConfig) (maxLineBytes : Nat)
    (parsed : ParsedRollout) (read : Except String BoundedLine) : Except Panic ParsedRollout :=
  let lineNumber := parsed.sourceLines + 1
  match read with
  | .error error =>
    .ok ({ parsed with unreadableFiles := parsed.unreadableFiles + 1 }.skipLine
      ("could not read " ++ file.path.display ++ " line " ++ toString lineNumber ++ ": " ++ error))
  | .ok .eof => .ok parsed
  | .ok .tooLong =>
    .ok ({ parsed with sourceLines := lineNumber }.skipLine
      ("ignored oversized JSON at " ++ file.path.display ++ " line " ++ toString lineNumber ++
        "; the " ++ toString maxLineBytes ++ "-byte line limit was exceeded"))
  | .ok (.line line) => parseJsonLine env file config { parsed with sourceLines := lineNumber } line

def rolloutMaxLineBytes : Nat := 32 * 1024 * 1024

def isReadFailure (read : Except String BoundedLine) : Bool :=
  match read with
  | .error _ => true
  | .ok _ => false

def parseRolloutReaderWithLimit (env : ParseEnv) (file : RolloutSource) (config : CollectConfig)
    (parsed : ParsedRollout) (reader : Reader) (maxLineBytes : Nat) :
    Except Panic ParsedRollout := do
  let reads := readLines maxLineBytes reader
  let parsed ← reads.foldlM (parseLine env file config maxLineBytes) parsed
  pure { parsed with complete := !reads.any isReadFailure }

def parseRolloutReader (env : ParseEnv) (file : RolloutSource) (config : CollectConfig)
    (parsed : ParsedRollout) (reader : Reader) : Except Panic ParsedRollout :=
  parseRolloutReaderWithLimit env file config parsed reader rolloutMaxLineBytes

/-! ## Replay of what was parsed -/

/-- `HEX[nibble]` -/
def hexAt (nibble : Nat) : Except Panic Char :=
  okOr "0123456789abcdef".toList[nibble]? .index

/-- The digits of an identity, as `fallback_usage_event_id` looks them up. -/
def lookupDigits (digest : List UInt8) : Except Panic String := do
  let pairs ← digest.mapM fun byte => do
    let high ← hexAt (byte.toNat / 16)
    let low ← hexAt (byte.toNat % 16)
    pure [high, low]
  pure (String.ofList pairs.flatten)

/-- The replay of a parsed file, whose iterators read the events by index. -/
def replayParsed (env : ReplayEnv) (path : Path) (parsed : ParsedRollout) (config : CollectConfig)
    (threads : Map ThreadBuilder) (dataset : RolloutDataset) (asOf : Option DateTime)
    (incompleteCounterBoundary : Bool) : Except Panic (Map ThreadBuilder × RolloutDataset) := do
  let events ← parsed.events.iter
  pure (replayRolloutFile env path (parsed.toParsedFile events) config threads dataset asOf
    incompleteCounterBoundary)

/-- A file that is parsed and then replayed. -/
def parseAndReplay (env : ParseEnv) (replayEnv : ReplayEnv) (file : RolloutSource)
    (config : CollectConfig) (parsed : ParsedRollout) (reader : Reader) (maxLineBytes : Nat)
    (threads : Map ThreadBuilder) (dataset : RolloutDataset) (asOf : Option DateTime)
    (incompleteCounterBoundary : Bool) : Except Panic (Map ThreadBuilder × RolloutDataset) := do
  let parsed ← parseRolloutReaderWithLimit env file config parsed reader maxLineBytes
  replayParsed replayEnv file.path parsed config threads dataset asOf incompleteCounterBoundary

end Rollout
