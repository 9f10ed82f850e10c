import UsageMonit.Domain.Protocol

/-!
# The ingest state of a center (`remote_ingest_state.rs`)

For one source and privacy profile a center keeps one ingest state per binding: the active
generation with its cursor, a bootstrap in progress, the generations to collect, and in memory
only the page prepared for commit. This file holds the data model and `validate`.

Decoding of payloads, the remaining message checks, SHA-256 page identities and the record
writers of the history families are the fields of `IngestEnv`.
-/

namespace Ingest

open Fallible Time Protocol

def ingestStateFormatVersion : Nat := 4
def ingestGenerationPrefix : String := "ingest-gen-"
def ingestGenerationRandomBytes : Nat := 16
def preparedPagePrefix : String := "page-sha256-"
def sha256HexLen : Nat := 64
def maxWindowMinutes : Nat := 35 * 24 * 60
def maxOverlapMinutes : Nat := 24 * 60
def maxIngestStateBytes : Nat := 64 * 1024 * 1024
def maxBindingNamespacesPerSource : Nat := 64
def historyMetricRevision : Nat := 5

/-! ## Bindings -/

structure RemoteDeltaRangePolicy where
  windowMinutes : Nat
  overlapMinutes : Nat
  includeLive : Bool
deriving DecidableEq

def RemoteDeltaRangePolicy.validate (p : RemoteDeltaRangePolicy) : Except String Unit := do
  ensure (p.windowMinutes ≤ maxWindowMinutes)
    "remote ingest range policy exceeds the retained 35-day window"
  ensure (p.overlapMinutes ≤ maxOverlapMinutes)
    "remote ingest range policy overlap exceeds 24 hours"

def RemoteDeltaRangePolicy.validateRequest (p : RemoteDeltaRangePolicy) (request : DeltaRequest) :
    Except String Unit :=
  ensure (request.range.toTime - request.range.fromTime = minutes p.windowMinutes ∧
      request.overlapMinutes = p.overlapMinutes ∧ request.includeLive = p.includeLive)
    "remote delta request does not match its fixed ingest range policy"

/-- The durable namespace of one ingest. -/
structure RemoteDeltaIngestBinding where
  protocolVersion : Nat
  profileId : String
  source : SourceGeneration
  redactionProfile : RedactionProfile
  revisions : ProtocolRevisions
  rangePolicy : RemoteDeltaRangePolicy
deriving DecidableEq

def RemoteDeltaIngestBinding.validate (b : RemoteDeltaIngestBinding) : Except String Unit := do
  b.rangePolicy.validate
  ensure (b.revisions.metric = historyMetricRevision)
    "remote ingest metric revision cannot be represented by source history"

/-- What a history generation is bound to. -/
structure SourceHistoryRemoteBinding where
  source : SourceGeneration
  revisions : ProtocolRevisions
deriving DecidableEq

def sourceHistoryBinding (b : RemoteDeltaIngestBinding) : SourceHistoryRemoteBinding :=
  ⟨b.source, b.revisions⟩

/-! ## Identifiers -/

def validatePrefixedHex (value idPrefix : String) (hexLen : Nat) (label : String) :
    Except String Unit :=
  if idPrefix.toList.isPrefixOf value.toList then
    let hex := value.toList.drop idPrefix.toList.length
    ensure (hex.length = hexLen ∧
        hex.all (fun c => c.isDigit || ('a' ≤ c && c ≤ 'f')) = true)
      (label ++ " is not canonical lower hex")
  else .error (label ++ " has an invalid prefix")

abbrev RemoteHistoryGenerationId := String

def validateGenerationId (generation : RemoteHistoryGenerationId) : Except String Unit :=
  validatePrefixedHex generation ingestGenerationPrefix (ingestGenerationRandomBytes * 2)
    "remote history generation"

def validatePageId (id : String) : Except String Unit :=
  validatePrefixedHex id preparedPagePrefix sha256HexLen "prepared remote delta page ID"

/-! ## The state -/

inductive RemoteDeltaApplyTarget
  | active (expectedGeneration : RemoteHistoryGenerationId)
  | staging (generation : RemoteHistoryGenerationId)
deriving DecidableEq

def RemoteDeltaApplyTarget.resultingGeneration : RemoteDeltaApplyTarget → RemoteHistoryGenerationId
  | .active generation => generation
  | .staging generation => generation

structure StoredActiveGeneration where
  generation : RemoteHistoryGenerationId
  cursor : DeltaCursor
  continuationRange : Option ExportRange
deriving DecidableEq

structure StoredRemoteHistoryActiveRef where
  generation : RemoteHistoryGenerationId
  source : SourceGeneration
  revisions : ProtocolRevisions
deriving DecidableEq

structure StoredBootstrap where
  generation : RemoteHistoryGenerationId
  expectedActive : Option StoredRemoteHistoryActiveRef
  exactRange : Option ExportRange
  cursor : Option DeltaCursor
  readyToActivate : Bool
deriving DecidableEq

variable {π ρ δ : Type}

structure StoredPendingPage (π : Type) where
  id : String
  target : RemoteDeltaApplyTarget
  request : RemoteExportRequest
  response : RemoteDeltaResponse π
  receivedAt : DateTime
deriving DecidableEq

/-- `pending` is never serialized: it lives in the session only. -/
structure StoredRemoteDeltaIngestState (π : Type) where
  formatVersion : Nat
  binding : RemoteDeltaIngestBinding
  active : Option StoredActiveGeneration
  bootstrap : Option StoredBootstrap
  pending : Option (StoredPendingPage π)
  retiredGenerations : List RemoteHistoryGenerationId
deriving DecidableEq

def StoredRemoteDeltaIngestState.new (binding : RemoteDeltaIngestBinding) :
    StoredRemoteDeltaIngestState π where
  formatVersion := ingestStateFormatVersion
  binding := binding
  active := none
  bootstrap := none
  pending := none
  retiredGenerations := []

/-- The code the ingest calls: `π` payloads, `ρ` decoded records, `δ` the stored data of one
generation. -/
structure IngestEnv (π ρ δ : Type) where
  validateRequest : RemoteExportRequest → Except String Unit
  validateResponse : RemoteDeltaResponse π → Except String Unit
  acceptsRevisions : RemoteExportRequest → ProtocolRevisions → Bool
  validatePayload : DeltaRequest → DeltaPage → π → RemoteDeltaResponse π → Except String Unit
  historyRecordsFromPayload : π → Except String ρ
  pendingPageId : RemoteDeltaApplyTarget → RemoteExportRequest → RemoteDeltaResponse π →
    DateTime → Except String String
  encodedLength : StoredRemoteDeltaIngestState π → Nat
  /-- `apply_remote_live_state`: the live row beside the history families. -/
  applyRemoteLiveState : StoredPendingPage π → Except String Unit
  emptyData : δ
  /-- Recording the bucket, digest and quota changes of a page in a generation's directory. -/
  recordChanges : δ → ρ → Except String δ

/-! ## Validation -/

def validateExportRange (range : ExportRange) : Except String Unit :=
  ensure (range.fromTime < range.toTime ∧ range.toTime - range.fromTime ≤ days 35)
    "stored remote export range is invalid"

def deltaRequest (request : RemoteExportRequest) : Except String DeltaRequest :=
  match request.request with
  | .delta delta => .ok delta
  | .other => .error "remote ingest accepts only delta requests"

def deltaResponsePage (response : RemoteDeltaResponse π) : Except String (DeltaPage × π) :=
  match response.result with
  | .delta page payload => .ok (page, payload)
  | .failure => .error "remote failure cannot be persisted as a delta page"
  | .other => .error "remote ingest accepts only delta responses"

/-- `validate_remote_protocol` of a response, with the page check spelled out. -/
def validateResponse (env : IngestEnv π ρ δ) (response : RemoteDeltaResponse π) :
    Except String Unit := do
  env.validateResponse response
  match response.result with
  | .delta page _ => page.validate
  | _ => .ok ()

def validateForRequest (env : IngestEnv π ρ δ) (request : RemoteExportRequest)
    (response : RemoteDeltaResponse π) : Except String Unit := do
  env.validateRequest request
  validateResponse env response
  match response.result with
  | .failure => .ok ()
  | result => do
    ensure (response.redactionProfile = request.redactionProfile)
      "remote response redaction profile does not match its request"
    ensure (∀ expected ∈ request.expectedSource, expected = response.source)
      "remote response source identity does not match its pinned request"
    ensure (env.acceptsRevisions request response.revisions = true)
      "remote response revisions are outside the accepted ranges"
    match request.request, result with
    | .delta delta, .delta page payload => do
      validateDeltaPageForRequest delta page
      env.validatePayload delta page payload response
    | .other, .other => .ok ()
    | _, _ => .error "remote response kind does not match its request"

def RemoteDeltaIngestBinding.validateExchange (env : IngestEnv π ρ δ)
    (b : RemoteDeltaIngestBinding) (request : RemoteExportRequest)
    (response : RemoteDeltaResponse π) : Except String Unit := do
  validateForRequest env request response
  ensure (request.protocolVersion = b.protocolVersion ∧ request.expectedSource = some b.source ∧
      request.redactionProfile = b.redactionProfile ∧ response.source = b.source ∧
      response.redactionProfile = b.redactionProfile ∧ response.revisions = b.revisions)
    "remote delta exchange does not match its durable ingest binding"
  let delta ← deltaRequest request
  b.rangePolicy.validateRequest delta

def StoredActiveGeneration.validate (a : StoredActiveGeneration) : Except String Unit := do
  validateGenerationId a.generation
  checkSome a.continuationRange validateExportRange

def StoredBootstrap.validate (x : StoredBootstrap) : Except String Unit := do
  validateGenerationId x.generation
  checkSome x.expectedActive fun expected => do
    validateGenerationId expected.generation
    ensure (expected.generation ≠ x.generation)
      "remote bootstrap generation must differ from expected active generation"
  checkSome x.exactRange validateExportRange
  ensure (¬ (x.cursor.isSome = true ∧ x.exactRange = none))
    "remote bootstrap cursor lacks its exact range"
  ensure (¬ (x.readyToActivate = true ∧ (x.cursor = none ∨ x.exactRange = none)))
    "ready remote bootstrap lacks its cursor or exact range"

def StoredPendingPage.validate (env : IngestEnv π ρ δ) (b : RemoteDeltaIngestBinding)
    (p : StoredPendingPage π) : Except String Unit := do
  validatePageId p.id
  validateGenerationId p.target.resultingGeneration
  b.validateExchange env p.request p.response
  let id ← env.pendingPageId p.target p.request p.response p.receivedAt
  ensure (id = p.id)
    "prepared remote delta page content hash does not match its prepared page"
  let (page, payload) ← deltaResponsePage p.response
  let delta ← deltaRequest p.request
  env.validatePayload delta page payload p.response

def validatePendingContinuation (p : StoredPendingPage π) (expectedCursor : Option DeltaCursor)
    (exactRange : Option ExportRange) : Except String Unit := do
  let request ← deltaRequest p.request
  ensure (request.deltaCursor = expectedCursor)
    "pending remote delta page does not continue its durable cursor"
  ensure (∀ range ∈ exactRange, request.range = range)
    "pending remote delta page changed its exact continuation range"

/-- `collect_state_history_generations`: the generations a state keeps alive. -/
def StoredRemoteDeltaIngestState.liveGenerations (s : StoredRemoteDeltaIngestState π) :
    List RemoteHistoryGenerationId :=
  (s.active.map (·.generation)).toList ++
    (match s.bootstrap with
      | some x => x.generation :: (x.expectedActive.map (·.generation)).toList
      | none => [])

namespace StoredRemoteDeltaIngestState
variable (env : IngestEnv π ρ δ) (expected : RemoteDeltaIngestBinding)
  (s : StoredRemoteDeltaIngestState π)

def validateBootstrap : Except String Unit :=
  checkSome s.bootstrap fun bootstrap => do
    bootstrap.validate
    ensure (∀ ref ∈ bootstrap.expectedActive, ref.source.nodeId = s.binding.source.nodeId)
      "remote bootstrap expected-active source belongs to another node"
    checkSome s.active fun active => do
      let ref ← okOr bootstrap.expectedActive
        "remote replacement bootstrap lacks its expected active manifest"
      ensure (ref.generation = active.generation ∧ ref.source = s.binding.source ∧
          ref.revisions = s.binding.revisions)
        "remote replacement bootstrap expected-active binding is stale"

def validatePending : Except String Unit :=
  checkSome s.pending fun pending => do
    pending.validate env expected
    match pending.target with
    | .active expectedGeneration => do
      let active ← okOr s.active "pending active page has no active history generation"
      ensure (active.generation = expectedGeneration ∧ s.bootstrap = none)
        "pending active page targets the wrong durable generation"
      validatePendingContinuation pending (some active.cursor) active.continuationRange
    | .staging generation => do
      let bootstrap ← okOr s.bootstrap "pending staging page has no bootstrap generation"
      ensure (bootstrap.generation = generation ∧ bootstrap.readyToActivate = false)
        "pending staging page targets the wrong durable generation"
      let exactRange ← okOr bootstrap.exactRange
        "pending staging page has no exact bootstrap range"
      validatePendingContinuation pending bootstrap.cursor (some exactRange)

/-- The loop over the retired generations; `retired` holds those seen so far. -/
def validateRetired (live : List RemoteHistoryGenerationId) :
    List RemoteHistoryGenerationId → List RemoteHistoryGenerationId → Except String Unit
  | [], _ => .ok ()
  | generation :: rest, retired => do
    validateGenerationId generation
    ensure (generation ∉ retired) "remote ingest state contains a duplicate retired generation"
    ensure (generation ∉ live) "remote ingest state retires a generation that is still live"
    validateRetired live rest (generation :: retired)

def validate : Except String Unit := do
  ensure (s.formatVersion = ingestStateFormatVersion ∧ s.binding = expected)
    "remote ingest state has an incompatible format or binding"
  s.binding.validate
  checkSome s.active StoredActiveGeneration.validate
  s.validateBootstrap
  s.validatePending env expected
  validateRetired s.liveGenerations s.retiredGenerations []

end StoredRemoteDeltaIngestState

end Ingest
