import UsageMonit.Export.State

/-!
# Reconciling and compacting the export state (`remote_export_state.rs`)

The two mutations of the journal: `appendAndCompact` appends caller-supplied changes,
`reconcileAndCompact` turns a desired set into journal transitions and the new materialized set.
Both prune by age, expire records, compact to the limits and re-append every current upsert when
pruning removed one.
-/

namespace Export

open Fallible Time

/-! ## Compaction -/

def encodedStateSize (store : RemoteExportStateStore) (s : StoredExportState) :
    Except String Nat := do
  let size ← store.encodedStateJsonSize s
  okOr (checkedAdd 64 size 1) "serialized remote export state size overflowed"

/-- The number of oldest entries whose encoded size covers `excess`. -/
def reclaimedEntries (store : RemoteExportStateStore) (excess : Nat) :
    List RemoteExportJournalEntry → Nat → Nat → Except String Nat
  | [], _, count => .ok count
  | entry :: rest, reclaimed, count => do
    let size ← store.encodedEntryJsonSize entry
    let reclaimed ← okOr ((checkedAdd 64 reclaimed size).bind fun value => checkedAdd 64 value 1)
      "remote export compaction size overflowed"
    if excess ≤ reclaimed then pure (count + 1)
    else reclaimedEntries store excess rest reclaimed (count + 1)

/-- The loop of `compact_to_limits`. Every round drops an entry, so `entries.length + 1` rounds
suffice (`compactToLimits_yields`). -/
def compactLoop (store : RemoteExportStateStore) :
    Nat → StoredExportState → Except String StoredExportState
  | 0, _ => .error "remote export compaction did not terminate"
  | fuel + 1, s => do
    let size ← encodedStateSize store s
    if size ≤ store.limits.maximumStateBytes then pure s
    else if s.entries = [] then
      .error "remote export state envelope exceeds its hard byte cap"
    else do
      let count ← reclaimedEntries store (size - store.limits.maximumStateBytes) s.entries 0 0
      let s ← dropOldestEntries s count
      compactLoop store fuel s

def compactToLimits (store : RemoteExportStateStore) (s : StoredExportState) :
    Except String StoredExportState := do
  let s ← dropOldestEntries s (s.entries.length - store.limits.maximumEntries)
  compactLoop store (s.entries.length + 1) s

/-! ## The materialized set -/

/-- The upsert change of every current record, read from the journal. -/
def captureMaterializedUpserts (s : StoredExportState) :
    List StoredMaterializedRecord → ChangeMap → Except String ChangeMap
  | [], upserts => .ok upserts
  | record :: rest, upserts => do
    let entry ← okOr (s.entryAtSequence record.lastUpsertSequence)
      "remote materialized upsert is not retained"
    ensure (entry.change.changeId = record.currentChangeId)
      "remote materialized upsert sequence has the wrong content ID"
    captureMaterializedUpserts s rest (upserts.insert record.logicalKey entry.change)

def expireMaterializedRecords (s : StoredExportState) (observedAt trustedAt : DateTime)
    (currentUpserts : ChangeMap) : Except String (StoredExportState × Nat × ChangeMap) := do
  let expired := s.materializedRecords.filter fun record => record.expiresAt ≤ trustedAt
  if expired = [] then pure (s, 0, currentUpserts)
  else do
    let (s, append) ← appendChangeBatch s observedAt (expired.map (·.tombstone)) .append
    ensure (append.sequences.length = expired.length ∧ append.duplicates = 0)
      "remote materialized expiry batch was not appended exactly once"
    let expiredKeys := (expired.map (·.logicalKey)).dedup
    let s := { s with
      materializedRecords := s.materializedRecords.filter (·.logicalKey ∉ expiredKeys) }
    ensure (∀ logicalKey ∈ expiredKeys, logicalKey ∈ currentUpserts)
      "remote expired materialized record has no retained upsert"
    pure (s, expiredKeys.length,
      expiredKeys.foldl (fun upserts key => upserts.erase key) currentUpserts)

def materializedBootstrapIsComplete (s : StoredExportState) : Prop :=
  ∀ record ∈ s.materializedRecords, s.retentionFloor < record.lastUpsertSequence ∧
    (∃ entry ∈ s.entryAtSequence record.lastUpsertSequence,
      entry.change.changeId = record.currentChangeId) ∧
    ¬ ∃ entry ∈ s.entries, record.lastUpsertSequence < entry.sequence ∧
      entry.change.changeId = record.tombstone.changeId

instance (s : StoredExportState) : Decidable (materializedBootstrapIsComplete s) :=
  inferInstanceAs (Decidable (∀ record ∈ s.materializedRecords, _))

def bootstrapChanges (upserts : ChangeMap) :
    List StoredMaterializedRecord → Except String (List RemoteExportChange)
  | [] => .ok []
  | record :: rest => do
    let upsert ← okOr (upserts.lookup record.logicalKey)
      "remote materialized bootstrap key has no upsert payload"
    ensure (upsert.changeId = record.currentChangeId)
      "remote materialized bootstrap upsert content ID changed unexpectedly"
    let changes ← bootstrapChanges upserts rest
    pure (upsert :: changes)

/-- `refresh_materialized_bootstrap_if_needed`: the new state, the refreshed count and the
updated `pruned_by_capacity`. -/
def refreshMaterializedBootstrapIfNeeded (store : RemoteExportStateStore) (s : StoredExportState)
    (observedAt : DateTime) (upserts : ChangeMap) (prunedByCapacity : Nat) :
    Except String (StoredExportState × Nat × Nat) := do
  if materializedBootstrapIsComplete s then pure (s, 0, prunedByCapacity)
  else do
    ensure (upserts.entries.length = s.materializedRecords.length)
      "remote materialized bootstrap is missing a current upsert payload"
    let changes ← bootstrapChanges upserts s.materializedRecords
    let (s, append) ← appendChangeBatch s observedAt changes .append
    ensure (append.sequences.length = s.materializedRecords.length ∧ append.duplicates = 0)
      "remote materialized bootstrap refresh was not appended exactly once"
    let s := { s with
      materializedRecords := s.materializedRecords.zipWith
        (fun record sequence => { record with lastUpsertSequence := sequence }) append.sequences }
    let beforeCapacity := s.entries.length
    let s ← compactToLimits store s
    let pruned ← okOr (checkedAdd 64 prunedByCapacity (beforeCapacity - s.entries.length))
      "remote export capacity prune count overflowed"
    ensure (materializedBootstrapIsComplete s)
      "remote materialized current set cannot fit inside export retention limits"
    pure (s, append.sequences.length, pruned)

/-! ## Direct appends -/

structure RemoteExportAppendReport where
  sequence : Nat
  appended : Nat
  duplicates : Nat
  prunedByAge : Nat
  prunedByCapacity : Nat
  retentionFloor : Nat
  materializedRefreshes : Nat
  expiredRecords : Nat
  retentionDeferred : Bool
deriving DecidableEq

def appendAndCompact (store : RemoteExportStateStore) (s : StoredExportState)
    (observedAt : DateTime) (changes : List RemoteExportChange) :
    Except String (StoredExportState × RemoteExportAppendReport) := do
  s.validate store
  let currentUpserts ← captureMaterializedUpserts s s.materializedRecords ∅
  let (s, append) ← appendChangeBatch s observedAt changes .skip
  let (s, ageCount, retentionDeferred) ←
    advanceRetentionAndPruneAge s observedAt store.limits.retentionDays
  let trustedAt := s.retentionClock.trustedAt
  let (s, expiredRecords, currentUpserts) ←
    expireMaterializedRecords s observedAt trustedAt currentUpserts
  let beforeCapacity := s.entries.length
  let s ← compactToLimits store s
  let (s, materializedRefreshes, prunedByCapacity) ←
    refreshMaterializedBootstrapIfNeeded store s observedAt currentUpserts
      (beforeCapacity - s.entries.length)
  s.validate store
  let appended ← okOr (checkedAdd 64 append.sequences.length expiredRecords)
    "remote export append report overflowed"
  pure (s, {
    sequence := s.currentSequence, appended, duplicates := append.duplicates,
    prunedByAge := ageCount, prunedByCapacity, retentionFloor := s.retentionFloor,
    materializedRefreshes, expiredRecords, retentionDeferred })

/-! ## Reconciling a desired set -/

/-- `validate_desired_records`, the loop. -/
def validateDesiredRecordsLoop : List RemoteExportDesiredRecord → Option String → IdOwners →
    Except String Unit
  | [], _, _ => .ok ()
  | record :: rest, previousKey, owners => do
    record.validate
    ensure (∀ key ∈ previousKey, key < record.logicalKey)
      "remote desired materialized records must be sorted and unique by logical key"
    let owners ← validateMaterializedIdOwner owners record.upsert.changeId record.logicalKey "upsert"
    let owners ←
      validateMaterializedIdOwner owners record.tombstone.changeId record.logicalKey "tombstone"
    validateDesiredRecordsLoop rest (some record.logicalKey) owners

def validateDesiredRecords (desired : List RemoteExportDesiredRecord) : Except String Unit := do
  ensure (desired.length ≤ maxMaterializedRecords)
    "remote desired materialized set exceeds its record bound"
  validateDesiredRecordsLoop desired none ∅

inductive MaterializedChangeRole
  | upsert
  | tombstone
deriving DecidableEq

/-- The current records that own `changeId`, with the role they own it in. The source indexes
both ids of every record; a validated state gives every id one owner. -/
def changeOwner (old : List StoredMaterializedRecord) (changeId : String) :
    Option (StoredMaterializedRecord × MaterializedChangeRole) :=
  old.reverse.findSome? fun record =>
    if record.tombstone.changeId = changeId then some (record, .tombstone)
    else if record.currentChangeId = changeId then some (record, .upsert)
    else none

def validateChangeOwnership (old : List StoredMaterializedRecord) (oldUpserts : ChangeMap)
    (record : RemoteExportDesiredRecord) (change : RemoteExportChange)
    (role : MaterializedChangeRole) : Except String Unit :=
  match changeOwner old change.changeId with
  | none => .ok ()
  | some (oldRecord, oldRole) => do
    ensure (oldRecord.logicalKey = record.logicalKey ∧ oldRole = role)
      "remote desired change ID conflicts with a different current key or role"
    let oldChange ← match role with
      | MaterializedChangeRole.upsert =>
        okOr (oldUpserts.lookup oldRecord.logicalKey) "remote current upsert payload is missing"
      | MaterializedChangeRole.tombstone => pure oldRecord.tombstone
    ensure (oldChange = change) "remote desired change ID was reused with different payload"

def validateReconcileChangeOwnership (old : List StoredMaterializedRecord)
    (oldUpserts : ChangeMap) : List RemoteExportDesiredRecord → Except String Unit
  | [] => .ok ()
  | record :: rest => do
    ensure (∀ candidate ∈ old.find? (fun candidate : StoredMaterializedRecord =>
          candidate.logicalKey == record.logicalKey),
        candidate.expiresAt = record.expiresAt)
      "remote materialized record expiry changed for an existing logical key"
    validateChangeOwnership old oldUpserts record record.upsert .upsert
    validateChangeOwnership old oldUpserts record record.tombstone .tombstone
    validateReconcileChangeOwnership old oldUpserts rest

inductive ReconcileTransitionKind
  | upsert
  | tombstone
  | expiryTombstone
deriving DecidableEq

structure ReconcileTransition where
  kind : ReconcileTransitionKind
  bootstrap : Bool
  change : RemoteExportChange
deriving DecidableEq

structure PendingMaterializedRecord where
  stored : StoredMaterializedRecord
  upsert : RemoteExportChange
  upsertTransition : Option Nat
deriving DecidableEq

/-- The accumulators of the merge: journal transitions and the next materialized set. -/
structure Merge where
  transitions : List ReconcileTransition := []
  pending : List PendingMaterializedRecord := []
deriving DecidableEq

/-- The journal still holds the entry of `old`'s latest upsert. -/
def upsertRetained (s : StoredExportState) (old : StoredMaterializedRecord) : Bool :=
  (s.entryAtSequence old.lastUpsertSequence).any fun entry =>
    entry.change.changeId == old.currentChangeId

def mergeDesiredRecord (old : Option StoredMaterializedRecord)
    (desired : RemoteExportDesiredRecord) (s : StoredExportState) (m : Merge) : Merge :=
  let contentUnchanged := old.any fun old => old.currentChangeId == desired.upsert.changeId
  let retained := old.any (upsertRetained s)
  let stored : StoredMaterializedRecord := {
    logicalKey := desired.logicalKey
    expiresAt := desired.expiresAt
    currentChangeId := desired.upsert.changeId
    lastUpsertSequence := (old.map (·.lastUpsertSequence)).getD 1
    tombstone := desired.tombstone }
  if contentUnchanged && retained then
    { m with pending := m.pending ++ [⟨stored, desired.upsert, none⟩] }
  else
    { transitions := m.transitions ++ [⟨.upsert, contentUnchanged, desired.upsert⟩]
      pending := m.pending ++ [⟨stored, desired.upsert, some m.transitions.length⟩] }

def mergeExpiredOldRecord (old : StoredMaterializedRecord) (m : Merge) : Merge :=
  { m with transitions := m.transitions ++ [⟨.expiryTombstone, false, old.tombstone⟩] }

def mergeOmittedOldRecord (old : StoredMaterializedRecord) (previousUpserts : ChangeMap)
    (mode : RemoteExportReconcileMode) (s : StoredExportState) (m : Merge) :
    Except String Merge :=
  if mode = .authoritative then
    .ok { m with transitions := m.transitions ++ [⟨.tombstone, false, old.tombstone⟩] }
  else do
    let upsert ← okOr (previousUpserts.lookup old.logicalKey)
      "remote partial reconcile lost an old current upsert"
    if upsertRetained s old then
      pure { m with pending := m.pending ++ [⟨old, upsert, none⟩] }
    else
      pure { transitions := m.transitions ++ [⟨.upsert, true, upsert⟩]
             pending := m.pending ++ [⟨old, upsert, some m.transitions.length⟩] }

section
variable (s : StoredExportState) (previousUpserts : ChangeMap) (mode : RemoteExportReconcileMode)
  (trustedAt : DateTime)

/-- A current record that the desired set does not name. -/
def mergeOldRecord (old : StoredMaterializedRecord) (m : Merge) : Except String Merge :=
  if old.expiresAt ≤ trustedAt then .ok (mergeExpiredOldRecord old m)
  else mergeOmittedOldRecord old previousUpserts mode s m

/-- A desired record of a key with no current record. -/
def mergeNewRecord (next : RemoteExportDesiredRecord) (m : Merge) : Merge :=
  if trustedAt < next.expiresAt then mergeDesiredRecord none next s m else m

/-- A desired record of a current key. -/
def mergeBothRecords (old : StoredMaterializedRecord) (next : RemoteExportDesiredRecord)
    (m : Merge) : Merge :=
  if old.expiresAt ≤ trustedAt then mergeExpiredOldRecord old m
  else mergeDesiredRecord (some old) next s m

/-- The merge loop of `reconcile_and_compact` over two lists sorted by key; `fuel` is the number
of records left. -/
def mergeRecords : Nat → List StoredMaterializedRecord → List RemoteExportDesiredRecord → Merge →
    Except String Merge
  | 0, _, _, m => .ok m
  | _ + 1, [], [], m => .ok m
  | fuel + 1, old :: olds, [], m => do
    let m ← mergeOldRecord s previousUpserts mode trustedAt old m
    mergeRecords fuel olds [] m
  | fuel + 1, [], next :: nexts, m => mergeRecords fuel [] nexts (mergeNewRecord s trustedAt next m)
  | fuel + 1, old :: olds, next :: nexts, m =>
    match compare old.logicalKey next.logicalKey with
    | .lt => do
      let m ← mergeOldRecord s previousUpserts mode trustedAt old m
      mergeRecords fuel olds (next :: nexts) m
    | .eq => mergeRecords fuel olds nexts (mergeBothRecords s trustedAt old next m)
    | .gt => mergeRecords fuel (old :: olds) nexts (mergeNewRecord s trustedAt next m)

end

structure RemoteExportReconcileReport where
  sequence : Nat
  upsertsAppended : Nat
  tombstonesAppended : Nat
  expiredRecords : Nat
  bootstrapUpsertsAppended : Nat
  currentRecords : Nat
  prunedByAge : Nat
  prunedByCapacity : Nat
  retentionFloor : Nat
  retentionDeferred : Bool
deriving DecidableEq

/-- A pending record with the sequence its transition was appended at. -/
def PendingMaterializedRecord.commit (sequences : List Nat) (p : PendingMaterializedRecord) :
    StoredMaterializedRecord :=
  match p.upsertTransition with
  | some index => { p.stored with lastUpsertSequence := sequences.getD index 0 }
  | none => p.stored

def reconcileAndCompact (store : RemoteExportStateStore) (s : StoredExportState)
    (observedAt : DateTime) (desired : List RemoteExportDesiredRecord)
    (mode : RemoteExportReconcileMode) :
    Except String (StoredExportState × RemoteExportReconcileReport) := do
  s.validate store
  let previousUpserts ← captureMaterializedUpserts s s.materializedRecords ∅
  validateReconcileChangeOwnership s.materializedRecords previousUpserts desired
  let (s, prunedByAge, retentionDeferred) ←
    advanceRetentionAndPruneAge s observedAt store.limits.retentionDays
  let trustedAt := s.retentionClock.trustedAt
  let m ← mergeRecords s previousUpserts mode trustedAt
    (s.materializedRecords.length + desired.length) s.materializedRecords desired {}
  let (s, append) ← appendChangeBatch s observedAt (m.transitions.map (·.change)) .append
  ensure (append.sequences.length = m.transitions.length ∧ append.duplicates = 0)
    "remote materialized transition batch was not appended exactly once"
  let upsertsAppended := m.transitions.countP (·.kind = .upsert)
  let tombstonesAppended := m.transitions.length - upsertsAppended
  let expiredRecords := m.transitions.countP (·.kind = .expiryTombstone)
  let bootstrapUpsertsAppended := m.transitions.countP (·.bootstrap)
  let activeUpserts := m.pending.foldl
    (fun upserts p => upserts.insert p.stored.logicalKey p.upsert) (∅ : ChangeMap)
  let s := { s with materializedRecords := m.pending.map (·.commit append.sequences) }
  let beforeCapacity := s.entries.length
  let s ← compactToLimits store s
  let (s, refreshed, prunedByCapacity) ←
    refreshMaterializedBootstrapIfNeeded store s observedAt activeUpserts
      (beforeCapacity - s.entries.length)
  let upsertsAppended ← okOr (checkedAdd 64 upsertsAppended refreshed)
    "remote materialized upsert report overflowed"
  let bootstrapUpsertsAppended ← okOr (checkedAdd 64 bootstrapUpsertsAppended refreshed)
    "remote materialized bootstrap report overflowed"
  s.validate store
  pure (s, {
    sequence := s.currentSequence, upsertsAppended, tombstonesAppended, expiredRecords,
    bootstrapUpsertsAppended, currentRecords := s.materializedRecords.length, prunedByAge,
    prunedByCapacity, retentionFloor := s.retentionFloor, retentionDeferred })

end Export
