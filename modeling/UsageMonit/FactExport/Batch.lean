import UsageMonit.Export.Session
import UsageMonit.Facts.Record
import UsageMonit.Lib.Numerals

/-!
# Frozen fact batches (`remote_fact_exporter.rs`)

The facts of a thread leave a source in batches that never change: the exporter writes the header
and the records of a batch to a journal of its own (`freezeBatch`) and answers every request of the
center from it. A page is a prefix of the records after the page token (`loadFrozenPage`,
`decodePrefix`).

The encoding of entries and mutations (`serde_json`) is a parameter, `FactCodec`. Of a fact only
its identity is read here; the rest is its content `φ`.
-/

namespace FactExport

open Fallible Time Protocol Export Facts

def batchFormatVersion : Nat := 2
def maxDurablePageEntries : Nat := 4096
def maxDurablePageBytes : Nat := 8 * 1024 * 1024
def maxCompleteBatchPages : Nat := 8
def maxCompleteFactBatchRecords : Nat := maxDurablePageEntries * maxCompleteBatchPages - 1
def maxCompleteFactBatchSerializedBytes : Nat := 8 * 1024 * 1024
def maxFrozenFactRecordSerializedBytes : Nat := 64 * 1024
def maxOpaqueTokenBytes : Nat := 1024

/-! ## The wire -/

structure RemoteUsageEventFact (φ : Type) where
  eventId : UsageEventId
  occurredAt : DateTime
  content : φ
deriving DecidableEq

inductive RemoteUsageEventFactMutation (φ : Type)
  | upsert (fact : RemoteUsageEventFact φ)
  | tombstone
deriving DecidableEq

structure RemoteUsageEventFactRecord (φ : Type) where
  eventId : UsageEventId
  occurredAt : DateTime
  revision : Nat
  mutation : RemoteUsageEventFactMutation φ
deriving DecidableEq

structure RemoteUsageEventFactDeltaChange (φ : Type) where
  sequence : Nat
  record : RemoteUsageEventFactRecord φ
deriving DecidableEq

structure SessionFactsDigestBinding where
  rangeStart : DateTime
  rangeEnd : DateTime
  coveredThrough : DateTime
  coverageComplete : Bool
  fingerprint : String
  projectBreakdownFingerprint : String
  eventCount : Nat
  metricRevision : Nat
  estimatorRevision : Nat
  projectBreakdownRevision : Nat
  apiPricingCatalogRevision : Nat
deriving DecidableEq

inductive SessionFactsPosition
  | snapshotStart
  | snapshotContinue (snapshotId : String) (factGeneration snapshotWatermark : Nat)
      (pageToken : String)
  | deltaStart (factCursor : FactCursor)
  | deltaContinue (factCursor : FactCursor) (batchId : String) (deltaWatermark : Nat)
      (pageToken : String)
deriving DecidableEq

structure SessionFactsRequest where
  threadId : ThreadId
  retentionDays : Nat
  expectedDigests : List SessionFactsDigestBinding
  position : SessionFactsPosition
deriving DecidableEq

inductive FrozenBatchKind
  | snapshot
  | delta
deriving DecidableEq

/-- A page of a snapshot or of a delta; `identity` is its snapshot or batch identifier. -/
structure FactPage where
  threadId : ThreadId
  identity : String
  factGeneration : Nat
  watermark : Nat
  nextPageToken : Option String
  activateFactCursor : Option FactCursor
  hasMore : Bool
deriving DecidableEq

inductive RemoteSessionFactPayload (φ : Type)
  | snapshot (records : List (RemoteUsageEventFactRecord φ))
  | delta (changes : List (RemoteUsageEventFactDeltaChange φ))
deriving DecidableEq

/-- An identifier or token on the wire: bounded ASCII. -/
def opaqueFromStr (label value : String) : Except String String := do
  ensure (value ≠ "" ∧ value.utf8ByteSize ≤ maxOpaqueTokenBytes ∧
      (value.toList.all fun c => c.isAlphanum || c == '-' || c == '_' || c == '.' || c == '~') = true)
    (label ++ " is invalid")
  pure value

/-- The checks of a request on its digest bindings and its retention. -/
def SessionFactsDigestBinding.Valid (binding : SessionFactsDigestBinding) : Prop :=
  ¬ (binding.rangeEnd ≤ binding.rangeStart ∨ days 1 < binding.rangeEnd - binding.rangeStart ∨
    binding.coveredThrough < binding.rangeStart ∨ binding.rangeEnd < binding.coveredThrough ∨
    (binding.coverageComplete = true ∧ binding.coveredThrough ≠ binding.rangeEnd))

instance (binding : SessionFactsDigestBinding) : Decidable binding.Valid :=
  inferInstanceAs (Decidable (¬ _))

/-- `validate_remote_protocol` of a session-fact request, apart from the accepted revisions. -/
def SessionFactsRequest.validate (request : SessionFactsRequest) : Except String Unit := do
  ensure (request.retentionDays ≠ 0 ∧ request.retentionDays ≤ 35)
    "session-fact retentionDays is outside the supported window"
  ensure (request.expectedDigests ≠ [] ∧ request.expectedDigests.length ≤ 36)
    "session-fact digest binding count is invalid"
  ensure (∀ binding ∈ request.expectedDigests, binding.Valid)
    "session-fact digest binding range is invalid"
  ensure (request.expectedDigests.IsChain fun a b => a.rangeStart < b.rangeStart)
    "session-fact digest bindings must be sorted and unique"

/-! ## Batches -/

structure FrozenBatchHeader where
  formatVersion : Nat
  kind : FrozenBatchKind
  batchIdentity : String
  source : SourceGeneration
  redactionProfile : RedactionProfile
  threadId : ThreadId
  retentionDays : Nat
  expectedDigests : List SessionFactsDigestBinding
  factGeneration : Nat
  watermark : Nat
  originalCursor : Option FactCursor
  recordCount : Nat
  createdAt : DateTime
deriving DecidableEq

inductive FrozenFactRecord (φ : Type)
  | snapshot (record : RemoteUsageEventFactRecord φ)
  | delta (change : RemoteUsageEventFactDeltaChange φ)
deriving DecidableEq

inductive FrozenBatchEntry (φ : Type)
  | header (header : FrozenBatchHeader)
  | record (record : FrozenFactRecord φ)
deriving DecidableEq

inductive StoredFactMutation (φ : Type)
  | upsert (fact : RemoteUsageEventFact φ)
  | tombstone (eventId : UsageEventId) (occurredAt : DateTime)
deriving DecidableEq

inductive RemoteFactPrepareError
  | busy
  | factCursorExpired
  | incompleteScan
  | digestChanged
  | inventoryTooLarge
  | internal (message : String)
deriving DecidableEq

abbrev Prepare := Except RemoteFactPrepareError

/-- An error of the store or of a check is an internal one. -/
def internal {α : Type} (result : Except String α) : Prepare α :=
  result.mapError .internal

/-- The encoding of the exporter's records. -/
structure FactCodec (φ : Type) where
  encodeEntry : FrozenBatchEntry φ → List UInt8
  decodeEntry : List UInt8 → Except String (FrozenBatchEntry φ)
  decode_encodeEntry : ∀ entry, decodeEntry (encodeEntry entry) = .ok entry
  encodeMutation : StoredFactMutation φ → List UInt8
  decodeMutation : List UInt8 → Except String (StoredFactMutation φ)
  decode_encodeMutation : ∀ mutation, decodeMutation (encodeMutation mutation) = .ok mutation

def validateBatchIdentity (identity : String) : Except String Unit :=
  ensure (identity ≠ "" ∧ identity.utf8ByteSize ≤ 128 ∧
      (identity.toList.all fun c => c.isAlphanum || c == '-' || c == '_') = true)
    "remote fact batch identity is invalid"

def FrozenBatchHeader.validate (header : FrozenBatchHeader) : Except String Unit := do
  ensure (header.formatVersion = batchFormatVersion ∧
      header.retentionDays ≠ 0 ∧ header.retentionDays ≤ 35 ∧
      header.expectedDigests ≠ [] ∧ header.expectedDigests.length ≤ 36 ∧
      header.expectedDigests.IsChain (fun a b => a.rangeStart < b.rangeStart) ∧
      (∀ binding ∈ header.expectedDigests, binding.Valid) ∧
      header.recordCount ≤ maxCompleteFactBatchRecords ∧
      (∀ cursor ∈ header.originalCursor, cursor.factGeneration = header.factGeneration) ∧
      ¬ (header.kind = .snapshot ∧ header.originalCursor.isSome) ∧
      ¬ (header.kind = .delta ∧ header.originalCursor = none))
    "frozen remote fact batch header is invalid"
  validateBatchIdentity header.batchIdentity

/-! ## Page tokens -/

structure BatchPageToken where
  generation : Nat
  sequence : Nat
deriving DecidableEq

/-- `u64::from_str_radix` with radix 16. -/
def fromStrRadix16 (cs : List Char) : Option Nat :=
  (Hex.ofHex (if cs.head? = some '+' then cs.tail else cs)).filter fun n => n < 2 ^ 64

def parsePageToken (value : String) : Prepare BatchPageToken := do
  let prefixed := "fact-page-".toList
  ensure (value.toList.take prefixed.length = prefixed) .factCursorExpired
  let rest := value.toList.drop prefixed.length
  ensure ('-' ∈ rest) .factCursorExpired
  let generation := rest.takeWhile (· ≠ '-')
  let sequence := rest.drop (generation.length + 1)
  ensure ((String.ofList generation).utf8ByteSize = 16 ∧
    (String.ofList sequence).utf8ByteSize = 16) .factCursorExpired
  let generation ← okOr ((fromStrRadix16 generation).filter (· ≠ 0)) .factCursorExpired
  let sequence ← okOr (fromStrRadix16 sequence) .factCursorExpired
  pure ⟨generation, sequence⟩

def pageTokenValue (generation sequence : Nat) : String :=
  String.ofList ("fact-page-".toList ++ (Hex.toHex 16 generation ++ '-' :: Hex.toHex 16 sequence))

def snapshotPageToken (generation sequence : Nat) : Except String String :=
  opaqueFromStr "fact snapshot page token" (pageTokenValue generation sequence)

def deltaPageToken (generation sequence : Nat) : Except String String :=
  opaqueFromStr "fact delta page token" (pageTokenValue generation sequence)

/-! ## Freezing -/

section
variable {φ : Type} (codec : FactCodec φ) (store : RemoteExportStateStore)

def RemoteExportChange.checked (changeId : String) (payload : List UInt8) :
    Except String RemoteExportChange := do
  let change : RemoteExportChange := ⟨changeId, payload⟩
  change.validate
  pure change

def addSerializedBatchBytes (current incoming : Nat) : Prepare Nat := do
  let total ← okOr (checkedAdd 64 current incoming) .inventoryTooLarge
  ensure (¬ maxCompleteFactBatchSerializedBytes < total) .inventoryTooLarge
  pure total

/-- The identifier of the change at this index: `entry-{index:020}`. -/
def entryChangeId (index : Nat) : String :=
  let digits := toString index
  "entry-" ++ String.ofList (List.replicate (20 - digits.length) '0') ++ digits

/-- The record loop of `frozen_batch_changes`. -/
def frozenRecordChanges : List (FrozenFactRecord φ) → Nat → Nat →
    Prepare (List RemoteExportChange)
  | [], _, _ => .ok []
  | record :: records, index, serializedBytes => do
    let payload := codec.encodeEntry (.record record)
    ensure (¬ maxFrozenFactRecordSerializedBytes < payload.length) .inventoryTooLarge
    let serializedBytes ← addSerializedBatchBytes serializedBytes payload.length
    let change ← internal (RemoteExportChange.checked (entryChangeId index) payload)
    let changes ← frozenRecordChanges records (index + 1) serializedBytes
    pure (change :: changes)

def frozenBatchChanges (header : FrozenBatchHeader) (records : List (FrozenFactRecord φ)) :
    Prepare (List RemoteExportChange) := do
  ensure (¬ maxCompleteFactBatchRecords < records.length) .inventoryTooLarge
  let headerPayload := codec.encodeEntry (.header header)
  let serializedBytes ← addSerializedBatchBytes 0 headerPayload.length
  let first ← internal (RemoteExportChange.checked "header" headerPayload)
  let changes ← frozenRecordChanges codec records 0 serializedBytes
  pure (first :: changes)

/-- `chunks(MAX_DURABLE_PAGE_ENTRIES)`, appended one by one; the fuel is the number of changes. -/
def appendChunks (observedAt : DateTime) :
    Nat → StoredExportState → List RemoteExportChange → Except String StoredExportState
  | _, s, [] => .ok s
  | 0, _, _ :: _ => .error "frozen fact batch has too many chunks"
  | fuel + 1, s, change :: changes => do
    let page := (change :: changes).take maxDurablePageEntries
    let appended ← appendChanges store s observedAt page
    appendChunks observedAt fuel appended.1 ((change :: changes).drop maxDurablePageEntries)

/-- `freeze_batch`, on a new store whose journal has this generation. -/
def freezeBatch (header : FrozenBatchHeader) (records : List (FrozenFactRecord φ))
    (generation : Nat) (observedAt : DateTime) : Prepare StoredExportState := do
  let changes ← frozenBatchChanges codec header records
  let s ← internal (appendChunks store observedAt changes.length
    (StoredExportState.new store.source store.redactionProfile generation observedAt) changes)
  ensure (s.cursor.sequence = saturatingAdd 64 header.recordCount 1)
    (.internal "frozen fact batch did not commit its complete record count")
  pure s

/-! ## Loading -/

structure PreparedRemoteFactPage (φ : Type) where
  observedAt : DateTime
  header : FrozenBatchHeader
  batchCursorGeneration : Nat
  startSequence : Nat
  batchHasMore : Bool
  records : List (FrozenFactRecord φ)
deriving DecidableEq

def readBatchHeader (s : StoredExportState) : Except String FrozenBatchHeader := do
  let read ← readPage store s ⟨s.deltaGeneration, 0⟩ 1 maxDurablePageBytes
  match read with
  | .cursorExpired _ => .error "frozen fact batch header expired"
  | .page page => do
    let entry ← okOr page.entries.head? "frozen fact batch has no header"
    let decoded ← codec.decodeEntry entry.change.payload
    match decoded with
    | .header header => do
      header.validate
      pure header
    | .record _ => .error "frozen fact batch begins with a data record"

def decodeFrozenRecord (entry : RemoteExportJournalEntry) : Except String (FrozenFactRecord φ) := do
  let decoded ← codec.decodeEntry entry.change.payload
  match decoded with
  | .record record => pure record
  | .header _ => .error "frozen fact data page unexpectedly contains a header"

/-- The kind of a batch fits the position of the request. -/
def kindFits (kind : FrozenBatchKind) (position : SessionFactsPosition) : Bool :=
  match kind, position with
  | .snapshot, .snapshotStart | .snapshot, .snapshotContinue _ _ _ _ => true
  | .delta, .deltaStart _ | .delta, .deltaContinue _ _ _ _ => true
  | _, _ => false

def validateHeaderForRequest (header : FrozenBatchHeader) (request : SessionFactsRequest) :
    Prepare Unit := do
  internal header.validate
  ensure (header.threadId = request.threadId ∧ header.retentionDays = request.retentionDays ∧
    header.expectedDigests = request.expectedDigests) .factCursorExpired
  ensure (kindFits header.kind request.position = true) .factCursorExpired

/-- The loop that reads every remaining record. Every round reads an entry, so the number of
entries is enough fuel. -/
def loadRecords (s : StoredExportState) :
    Nat → DeltaCursor → List (FrozenFactRecord φ) → Prepare (List (FrozenFactRecord φ))
  | fuel, next, records =>
    if s.cursor.sequence ≤ next.sequence then .ok records
    else match fuel with
    | 0 => .error (.internal "frozen fact page did not terminate")
    | fuel + 1 => do
      let read ← internal (readPage store s next maxDurablePageEntries maxDurablePageBytes)
      match read with
      | .cursorExpired _ => .error .factCursorExpired
      | .page page => do
        ensure (page.entries ≠ [] ∧ next.sequence < page.nextCursor.sequence) .factCursorExpired
        let decoded ← internal (page.entries.mapM (decodeFrozenRecord codec))
        let records := records ++ decoded
        ensure (¬ maxCompleteFactBatchRecords < records.length) .inventoryTooLarge
        loadRecords s fuel page.nextCursor records

def loadFrozenPageWithSession (s : StoredExportState) (request : SessionFactsRequest)
    (observedAt : DateTime) (header : FrozenBatchHeader) (token : Option BatchPageToken) :
    Prepare (PreparedRemoteFactPage φ) := do
  let token := token.getD ⟨s.cursor.generation, 1⟩
  ensure (token.generation = s.cursor.generation ∧ ¬ token.sequence < 1) .factCursorExpired
  let totalRecords := s.cursor.sequence - 1
  ensure (totalRecords = header.recordCount ∧ ¬ maxCompleteFactBatchRecords < totalRecords ∧
    ¬ s.cursor.sequence < token.sequence) .factCursorExpired
  let records ← loadRecords codec store s s.entries.length ⟨token.generation, token.sequence⟩ []
  ensure (records.length = s.cursor.sequence - token.sequence) .factCursorExpired
  validateHeaderForRequest header request
  pure ⟨observedAt, header, s.cursor.generation, token.sequence, false, records⟩

/-- The place of a batch below the root of its source. -/
structure BatchKey where
  threadId : ThreadId
  retentionDays : Nat
  kind : FrozenBatchKind
  identity : String
deriving DecidableEq

abbrev FrozenBatches := AList fun _ : BatchKey => StoredExportState

/-- `load_frozen_page`, with what the position of the request gives. -/
def loadFrozenPage (batches : FrozenBatches) (request : SessionFactsRequest)
    (observedAt : DateTime) (expectedKind : FrozenBatchKind) (batchIdentity : String)
    (factGeneration watermark : Nat) (pageToken : String) (originalCursor : Option FactCursor) :
    Prepare (PreparedRemoteFactPage φ) := do
  let token ← parsePageToken pageToken
  internal (validateBatchIdentity batchIdentity)
  let s ← okOr (batches.lookup
      ⟨request.threadId, request.retentionDays, expectedKind, batchIdentity⟩) .factCursorExpired
  let header ← internal (readBatchHeader codec store s)
  ensure (header.kind = expectedKind ∧ header.batchIdentity = batchIdentity ∧
    header.source = store.source ∧ header.redactionProfile = store.redactionProfile ∧
    header.threadId = request.threadId ∧ header.retentionDays = request.retentionDays ∧
    header.expectedDigests = request.expectedDigests ∧ header.factGeneration = factGeneration ∧
    header.watermark = watermark ∧ header.originalCursor = originalCursor) .factCursorExpired
  loadFrozenPageWithSession codec store s request observedAt header (some token)

end

/-! ## Pages -/

section
variable {φ : Type}

def asSnapshot : FrozenFactRecord φ → Except String (RemoteUsageEventFactRecord φ)
  | .snapshot record => .ok record
  | .delta _ => .error "frozen snapshot batch contains a delta record"

def asDelta : FrozenFactRecord φ → Except String (RemoteUsageEventFactDeltaChange φ)
  | .delta change => .ok change
  | .snapshot _ => .error "frozen delta batch contains a snapshot record"

def PreparedRemoteFactPage.decodePrefix (prepared : PreparedRemoteFactPage φ) (entryLimit : Nat) :
    Except String (FactPage × RemoteSessionFactPayload φ) := do
  if prepared.records = [] then
    ensure (entryLimit = 0) "empty remote fact page requires a zero entry limit"
  else
    ensure (entryLimit ≠ 0 ∧ entryLimit ≤ prepared.records.length)
      "remote fact page prefix is outside its durable bounds"
  let emitted := prepared.records.take entryLimit
  let throughBatchSequence ← okOr (checkedAdd 64 prepared.startSequence entryLimit)
    "remote fact batch sequence overflowed"
  let hasMore := prepared.batchHasMore || decide (entryLimit < prepared.records.length)
  let header := prepared.header
  let activation := if hasMore then none
    else some (⟨header.factGeneration, header.watermark⟩ : FactCursor)
  match header.kind with
  | .snapshot => do
    let identity ← opaqueFromStr "fact snapshot ID" header.batchIdentity
    let nextPageToken ← if hasMore then
        some <$> snapshotPageToken prepared.batchCursorGeneration throughBatchSequence
      else pure none
    let records ← emitted.mapM asSnapshot
    pure (⟨header.threadId, identity, header.factGeneration, header.watermark, nextPageToken,
      activation, hasMore⟩, .snapshot records)
  | .delta => do
    let identity ← opaqueFromStr "fact batch ID" header.batchIdentity
    let nextPageToken ← if hasMore then
        some <$> deltaPageToken prepared.batchCursorGeneration throughBatchSequence
      else pure none
    let changes ← emitted.mapM asDelta
    pure (⟨header.threadId, identity, header.factGeneration, header.watermark, nextPageToken,
      activation, hasMore⟩, .delta changes)

end

end FactExport
