import UsageMonit.FactExport.Index
import UsageMonit.FactExport.Center

/-!
# A source and the delivery of a batch (`remote_fact_exporter.rs`, `remote_fact_sync.rs`)

`FactSource` is what a source keeps on disk: the index of every thread and its frozen batches. It
changes while a batch is delivered (`SourceStep`): other requests reconcile indexes and freeze
batches under fresh random identities, and the sweeps remove directories by one rename. A restart
loses nothing, since no request keeps anything in memory.

`syncPages` is a run of the center against such a source, one request after another.
-/

namespace FactExport

open Time Export Facts

/-- The indexes and the frozen batches of a source. `identities` are the batch places used so
far: their names are random, and none comes twice. -/
structure FactSource where
  indexes : AList fun _ : ThreadId × Nat => StoredExportState
  batches : FrozenBatches
  identities : List BatchKey

/-- A change of the source. `freeze` also covers a freezing that stopped half way. -/
inductive SourceStep : FactSource → FactSource → Prop
  | reconcile (w : FactSource) (key : ThreadId × Nat) (index : StoredExportState) :
      SourceStep w { w with indexes := w.indexes.insert key index }
  | freeze (w : FactSource) (key : BatchKey) (batch : StoredExportState) :
      key ∉ w.identities →
      SourceStep w { w with
        batches := w.batches.insert key batch
        identities := key :: w.identities }
  | sweepIndex (w : FactSource) (key : ThreadId × Nat) :
      SourceStep w { w with indexes := w.indexes.erase key }
  | sweepBatch (w : FactSource) (key : BatchKey) :
      SourceStep w { w with batches := w.batches.erase key }

abbrev SourceSteps := Relation.ReflTransGen SourceStep

def FrozenBatchHeader.key (header : FrozenBatchHeader) : BatchKey :=
  ⟨header.threadId, header.retentionDays, header.kind, header.batchIdentity⟩

section
variable {φ : Type} (env : ExporterEnv φ)

/-! ## Requests -/

/-- `prepare_remote_fact_page` of a continuation. -/
def continueFrozenPage (batches : FrozenBatches) (request : SessionFactsRequest)
    (observedAt : DateTime) : Prepare (PreparedRemoteFactPage φ) :=
  match request.position with
  | .snapshotContinue snapshotId factGeneration snapshotWatermark pageToken =>
    loadFrozenPage env.codec env.store batches request observedAt .snapshot snapshotId
      factGeneration snapshotWatermark pageToken none
  | .deltaContinue factCursor batchId deltaWatermark pageToken =>
    loadFrozenPage env.codec env.store batches request observedAt .delta batchId
      factCursor.factGeneration deltaWatermark pageToken (some factCursor)
  | _ => .error (.internal "a start position has no frozen batch")

/-- The end of `prepare_new_frozen_page`: a batch with records is frozen, under the maintenance
lock, and its first page is read back. -/
def startFrozenPage (w : FactSource) (request : SessionFactsRequest) (observedAt : DateTime)
    (header : FrozenBatchHeader) (records : List (FrozenFactRecord φ)) (generation : Nat) :
    Prepare (FactSource × PreparedRemoteFactPage φ) :=
  if records = [] then
    .ok (w, ⟨observedAt, header, header.factGeneration, 1, false, []⟩)
  else do
    let batch ← freezeBatch env.codec env.store header records generation observedAt
    let page ← loadFrozenPageWithSession env.codec env.store batch request observedAt header none
    pure ({ w with
      batches := w.batches.insert header.key batch
      identities := header.key :: w.identities }, page)

/-! ## A run of the center -/

inductive RunFailure
  | remote (error : RemoteFactPrepareError)
  | center (error : RemoteFactSyncError)
deriving DecidableEq

/-- The pages of a run in order, and the batch the center has when the last one is in. -/
structure Delivered (φ : Type) where
  pages : List (FactPage × RemoteSessionFactPayload φ)
  kind : FrozenBatchKind
  cursor : FactCursor
  records : List (RemoteUsageEventFactRecord φ)
deriving DecidableEq

/-- The requests of one run after its first page. Page `i` is cut to `cuts i` records, request
`i` finds the source in the state `sources i`. -/
def syncPages (request : SessionFactsRequest) (initialCursor : Option FactCursor)
    (sources : Nat → FactSource) (times : Nat → DateTime) (cuts : Nat → Nat) :
    Nat → Nat → PageAccumulator φ → PreparedRemoteFactPage φ → Except RunFailure (Delivered φ)
  | 0, _, _, _ => .error (.center (.pageContinuity "the run has no request left"))
  | fuel + 1, i, accumulator, prepared => do
    let page ← (internal (prepared.decodePrefix (min (cuts i) prepared.records.length))).mapError
      RunFailure.remote
    let received ← (receivePage initialCursor accumulator page.1 page.2).mapError RunFailure.center
    match received with
    | .complete kind cursor records => pure ⟨[page], kind, cursor, records⟩
    | .next accumulator position => do
      let next ← (continueFrozenPage env (sources (i + 1)).batches { request with position }
        (times (i + 1))).mapError RunFailure.remote
      let delivered ← syncPages request initialCursor sources times cuts fuel (i + 1) accumulator
        next
      pure { delivered with pages := page :: delivered.pages }

end

/-! ## A batch delivered whole -/

section
variable {φ : Type}

def RemoteSessionFactPayload.frozen : RemoteSessionFactPayload φ → List (FrozenFactRecord φ)
  | .snapshot records => records.map .snapshot
  | .delta changes => changes.map .delta

def FrozenFactRecord.wire : FrozenFactRecord φ → RemoteUsageEventFactRecord φ
  | .snapshot record => record
  | .delta change => change.record

def FrozenBatchHeader.activation (header : FrozenBatchHeader) : FactCursor :=
  ⟨header.factGeneration, header.watermark⟩

/-- The run has delivered exactly this batch. -/
structure DeliveredWhole (header : FrozenBatchHeader) (records : List (FrozenFactRecord φ))
    (delivered : Delivered φ) : Prop where
  concatenation : (delivered.pages.map (·.2.frozen)).flatten = records
  before : ∀ page ∈ delivered.pages.dropLast, page.2.frozen ≠ [] ∧ page.1.hasMore = true ∧
    page.1.nextPageToken.isSome = true ∧ page.1.activateFactCursor = none
  last : ∃ page, delivered.pages.getLast? = some page ∧ page.1.hasMore = false ∧
    page.1.nextPageToken = none ∧ page.1.activateFactCursor = some header.activation
  kind : delivered.kind = header.kind
  cursor : delivered.cursor = header.activation
  records : delivered.records = records.map (·.wire)

/-- The records of a batch as `prepare_new_frozen_page` makes them: of the kind that was asked
for, a snapshot sorted by its event ids, a delta numbered from its cursor to the watermark. -/
inductive BatchRecords (header : FrozenBatchHeader) :
    SessionFactsPosition → List (FrozenFactRecord φ) → Prop
  | snapshot (records : List (RemoteUsageEventFactRecord φ)) :
      header.kind = .snapshot → header.originalCursor = none →
      (records.map (·.eventId)).Pairwise (· < ·) →
      BatchRecords header .snapshotStart (records.map .snapshot)
  | delta (cursor : FactCursor) (changes : List (RemoteUsageEventFactDeltaChange φ)) :
      header.kind = .delta → header.originalCursor = some cursor →
      changes.map (·.sequence) = List.range' (cursor.throughSequence + 1) changes.length →
      cursor.throughSequence + changes.length = header.watermark →
      BatchRecords header (.deltaStart cursor) (changes.map .delta)

/-- A header of a source that answers this request and counts the records. -/
structure HeaderFor (store : RemoteExportStateStore) (request : SessionFactsRequest)
    (header : FrozenBatchHeader) (records : List (FrozenFactRecord φ)) : Prop where
  valid : header.validate = .ok ()
  source : header.source = store.source
  redactionProfile : header.redactionProfile = store.redactionProfile
  threadId : header.threadId = request.threadId
  retentionDays : header.retentionDays = request.retentionDays
  expectedDigests : header.expectedDigests = request.expectedDigests
  recordCount : header.recordCount = records.length

/-- A batch of a source that answers this request. -/
structure BatchFor (store : RemoteExportStateStore) (request : SessionFactsRequest)
    (header : FrozenBatchHeader) (records : List (FrozenFactRecord φ)) : Prop extends
    HeaderFor store request header records where
  watermark : header.watermark < 2 ^ 64
  shape : BatchRecords header request.position records

/-- The batch, once `frozen_batch_changes` accepts it, is frozen, and every run that starts with
it ends with an expired cursor or has delivered the whole batch: for all cuts, for all changes of
the source between the requests. -/
def DeliversWhole (env : ExporterEnv φ) (request : SessionFactsRequest) (header : FrozenBatchHeader)
    (records : List (FrozenFactRecord φ)) : Prop :=
  ∀ changes, frozenBatchChanges env.codec header records = .ok changes →
  ∀ generation, generation ≠ 0 → generation < 2 ^ 64 → ∀ now, minUtc ≤ now → ∀ w : FactSource,
  ∃ w' first, startFrozenPage env w request now header records generation = .ok (w', first) ∧
    ∀ initialCursor, (∀ cursor, header.originalCursor = some cursor → initialCursor = some cursor) →
    ∀ (sources : Nat → FactSource) (times : Nat → DateTime) (cuts : Nat → Nat), sources 0 = w' →
    (∀ i, SourceSteps (sources i) (sources (i + 1))) → (∀ i, cuts i ≠ 0) →
    ∀ fuel, records.length < fuel →
    syncPages env request initialCursor sources times cuts fuel 0 {} first =
        .error (.remote .factCursorExpired) ∨
      ∃ delivered, syncPages env request initialCursor sources times cuts fuel 0 {} first =
          .ok delivered ∧
        DeliveredWhole header records delivered

end

end FactExport
