import UsageMonit.FactExport.Batch

/-!
# The fact index and new batches (`remote_fact_exporter.rs`)

A complete scan of a thread gives its facts. The exporter reconciles them into the index of the
thread, an export state with one materialized record for each fact, and makes a batch from it: the
current facts (`snapshotRecords`) or the journal entries above a cursor (`readDeltaRecords`). A
delta that cannot be completed is refused before the index is written
(`preflightFactDeltaReconcile`).

The domain-separated hashes (`sha2`) are a field of `ExporterEnv`, and so are the random
identities, as arguments of the operations.
-/

namespace FactExport

open Fallible Time Protocol Export Facts

def upsertChangeDomain : String := "codex-usage-monit/fact-upsert/v1"
def tombstoneChangeDomain : String := "codex-usage-monit/fact-tombstone/v1"
def logicalKeyDomain : String := "codex-usage-monit/fact-key/v1"

structure ExporterEnv (φ : Type) where
  codec : FactCodec φ
  store : RemoteExportStateStore
  domainHash : String → List UInt8 → String

section
variable {φ : Type} (env : ExporterEnv φ)

/-! ## The desired set -/

def logicalKey (eventId : UsageEventId) : String :=
  "fact:" ++ env.domainHash logicalKeyDomain eventId.toUTF8.data.toList

def desiredFactRecord (retentionDays : Nat) (fact : RemoteUsageEventFact φ) :
    Except String RemoteExportDesiredRecord := do
  let upsertPayload := env.codec.encodeMutation (.upsert fact)
  let tombstonePayload := env.codec.encodeMutation (.tombstone fact.eventId fact.occurredAt)
  let expiresAt := (checkedAddSigned fact.occurredAt (days retentionDays)).getD maxUtc
  let upsert ← RemoteExportChange.checked
    ("fact-upsert-sha256-v1-" ++ env.domainHash upsertChangeDomain upsertPayload) upsertPayload
  let tombstone ← RemoteExportChange.checked
    ("fact-tombstone-sha256-v1-" ++ env.domainHash tombstoneChangeDomain tombstonePayload)
    tombstonePayload
  let record : RemoteExportDesiredRecord :=
    ⟨logicalKey env fact.eventId, expiresAt, upsert, tombstone⟩
  record.validate
  pure record

def desiredFactRecords (facts : List (RemoteUsageEventFact φ)) (retentionDays : Nat) :
    Except String (List RemoteExportDesiredRecord) := do
  let desired ← facts.mapM (desiredFactRecord env retentionDays)
  let desired := desired.insertionSort fun a b => a.logicalKey ≤ b.logicalKey
  ensure (desired.IsChain fun a b => a.logicalKey ≠ b.logicalKey)
    "remote fact logical-key hash collision"
  pure desired

/-! ## Records of a batch -/

def deltaChangeFromEntry (entry : RemoteExportJournalEntry) :
    Except String (RemoteUsageEventFactDeltaChange φ) := do
  ensure (entry.sequence ≠ 0) "remote fact journal contains a zero sequence"
  let mutation ← env.codec.decodeMutation entry.change.payload
  match mutation with
  | .upsert fact =>
    pure ⟨entry.sequence, ⟨fact.eventId, fact.occurredAt, entry.sequence, .upsert fact⟩⟩
  | .tombstone eventId occurredAt =>
    pure ⟨entry.sequence, ⟨eventId, occurredAt, entry.sequence, .tombstone⟩⟩

/-- The loop of `read_delta_records`; every round reads an entry. -/
def readDeltaRecords (s : StoredExportState) (current : DeltaCursor) :
    Nat → DeltaCursor → List (FrozenFactRecord φ) → Prepare (List (FrozenFactRecord φ))
  | fuel, next, records => do
    let read ← internal (readPage env.store s next maxDurablePageEntries maxDurablePageBytes)
    match read with
    | .cursorExpired _ => .error .factCursorExpired
    | .page page => do
      let entries := page.entries.takeWhile fun entry => entry.sequence ≤ current.sequence
      let changes ← internal (entries.mapM (deltaChangeFromEntry env))
      let records := records ++ changes.map .delta
      ensure (¬ maxCompleteFactBatchRecords < records.length) .inventoryTooLarge
      if current.sequence ≤ page.throughSequence then pure records
      else do
        ensure (page.entries ≠ [])
          (.internal "remote fact delta journal stopped before its watermark")
        match fuel with
        | 0 => .error (.internal "remote fact delta journal did not terminate")
        | fuel + 1 => readDeltaRecords s current fuel page.nextCursor records

def snapshotRecord (upsert : RemoteExportMaterializedUpsert) :
    Except String (RemoteUsageEventFactRecord φ) := do
  let mutation ← env.codec.decodeMutation upsert.change.payload
  match mutation with
  | .tombstone _ _ => .error "materialized remote fact unexpectedly contains a tombstone"
  | .upsert fact => do
    ensure (upsert.revision ≠ 0) "materialized remote fact has a zero revision"
    pure ⟨fact.eventId, fact.occurredAt, upsert.revision, .upsert fact⟩

def snapshotRecords (s : StoredExportState) :
    Except String (List (RemoteUsageEventFactRecord φ)) := do
  let upserts ← materializedUpserts s
  let records ← upserts.mapM (snapshotRecord env)
  pure (records.insertionSort fun a b => a.eventId ≤ b.eventId)

/-! ## Preflight -/

def deltaRecordBytes (entry : RemoteExportJournalEntry) : Except String Nat := do
  let change ← deltaChangeFromEntry env entry
  pure (env.codec.encodeEntry (.record (.delta change))).length

/-- The entries fit the limits of a complete batch. -/
def deltaFits : List RemoteExportJournalEntry → Nat → Nat → Except String Bool
  | [], _, _ => .ok true
  | entry :: entries, count, serializedBytes =>
    if maxCompleteFactBatchRecords < count + 1 then .ok false
    else do
      let recordBytes ← deltaRecordBytes env entry
      if maxFrozenFactRecordSerializedBytes < recordBytes then pure false
      else if maxCompleteFactBatchSerializedBytes < serializedBytes + recordBytes then pure false
      else deltaFits entries (count + 1) (serializedBytes + recordBytes)

def preflightFactDeltaReconcile (s : StoredExportState) (observedAt : DateTime)
    (desired : List RemoteExportDesiredRecord) (factCursor : FactCursor) :
    Prepare DeltaCursor := do
  let cursor : DeltaCursor := ⟨factCursor.factGeneration, factCursor.throughSequence⟩
  internal (validateDesiredRecords desired)
  ensure (s.expiry cursor = none) .factCursorExpired
  ensure (¬ s.currentSequence < cursor.sequence)
    (.internal "remote export cursor is ahead of the durable journal")
  let preview ← internal (reconcileMaterializedRecords env.store s observedAt desired .authoritative)
  ensure (preview.expiry cursor = none) .factCursorExpired
  ensure (¬ preview.currentSequence < cursor.sequence)
    (.internal "remote export cursor is ahead of the reconciled preview")
  let fits ← internal (deltaFits env
    (preview.entries.dropWhile fun entry => entry.sequence ≤ cursor.sequence) 0
    maxFrozenFactRecordSerializedBytes)
  ensure (fits = true) .factCursorExpired
  pure preview.cursor

def preflightCursor (s : StoredExportState) (observedAt : DateTime)
    (desired : List RemoteExportDesiredRecord) (position : SessionFactsPosition) :
    Prepare (Option DeltaCursor) :=
  match position with
  | .deltaStart factCursor => some <$> preflightFactDeltaReconcile env s observedAt desired factCursor
  | _ => .ok none

/-! ## A new batch -/

/-- The records that a start position asks for. -/
def batchRecords (s : StoredExportState) (position : SessionFactsPosition) :
    Prepare (FrozenBatchKind × Option FactCursor × List (FrozenFactRecord φ)) :=
  match position with
  | .deltaStart factCursor => do
    let records ← readDeltaRecords env s s.cursor s.entries.length
      ⟨factCursor.factGeneration, factCursor.throughSequence⟩ []
    pure (.delta, some factCursor, records)
  | _ => do
    let records ← internal (snapshotRecords env s)
    pure (.snapshot, none, records.map .snapshot)

/-- `prepare_new_frozen_page` up to the freezing of its batch: the reconciled index, and the header
and the records of the batch. -/
def prepareNewBatch (s : StoredExportState) (facts : List (RemoteUsageEventFact φ))
    (request : SessionFactsRequest) (observedAt : DateTime) (batchIdentity : String) :
    Prepare (StoredExportState × FrozenBatchHeader × List (FrozenFactRecord φ)) := do
  let desired ← internal (desiredFactRecords env facts request.retentionDays)
  let preflight ← preflightCursor env s observedAt desired request.position
  let s ← internal (reconcileMaterializedRecords env.store s observedAt desired .authoritative)
  ensure (∀ cursor ∈ preflight, cursor = s.cursor)
    (.internal "remote fact delta reconcile diverged from its write-free preflight")
  let batch ← batchRecords env s request.position
  let header : FrozenBatchHeader := {
    formatVersion := batchFormatVersion
    kind := batch.1
    batchIdentity
    source := env.store.source
    redactionProfile := env.store.redactionProfile
    threadId := request.threadId
    retentionDays := request.retentionDays
    expectedDigests := request.expectedDigests
    factGeneration := s.cursor.generation
    watermark := s.cursor.sequence
    originalCursor := batch.2.1
    recordCount := batch.2.2.length
    createdAt := observedAt }
  pure (s, header, batch.2.2)

end

end FactExport
