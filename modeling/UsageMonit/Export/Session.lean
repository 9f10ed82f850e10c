import UsageMonit.Export.Reconcile

/-!
# Sessions of the export state (`remote_export_state.rs`)

What a session offers beside the mutations: pages of the journal (`readPage`), the current upserts
with their revisions (`materializedUpserts`), and the reconciliation of a desired set, which does
nothing when the set is current and no maintenance is due. `RemoteExportSession` is the session
itself: the state file and the state in memory, which a mutation works on and writes out, and which
is read back from the file when the mutation fails. File access itself does not fail here.
-/

namespace Export

open Fallible Time Protocol

def reconcileMaintenanceIntervalHours : Int := 12

def StoredExportState.cursor (s : StoredExportState) : DeltaCursor :=
  ⟨s.deltaGeneration, s.currentSequence⟩

/-! ## Pages -/

inductive RemoteDeltaCursorExpiryReason
  | generationMismatch
  | retention
deriving DecidableEq

structure RemoteDeltaCursorExpired where
  reason : RemoteDeltaCursorExpiryReason
  requested : DeltaCursor
  currentGeneration : Nat
  retentionFloor : Nat
  throughSequence : Nat
deriving DecidableEq

structure RemoteExportDeltaPage where
  generation : Nat
  fromSequence : Nat
  throughSequence : Nat
  nextCursor : DeltaCursor
  hasMore : Bool
  entries : List RemoteExportJournalEntry
deriving DecidableEq

inductive RemoteDeltaPageRead
  | page (page : RemoteExportDeltaPage)
  | cursorExpired (expired : RemoteDeltaCursorExpired)
deriving DecidableEq

def StoredExportState.expiry (s : StoredExportState) (cursor : DeltaCursor) :
    Option RemoteDeltaCursorExpired :=
  if cursor.generation ≠ s.deltaGeneration then
    some ⟨.generationMismatch, cursor, s.deltaGeneration, s.retentionFloor, s.currentSequence⟩
  else if cursor.sequence < s.retentionFloor then
    some ⟨.retention, cursor, s.deltaGeneration, s.retentionFloor, s.currentSequence⟩
  else none

section
variable (store : RemoteExportStateStore)

/-- The page loop: entries within the limits, and at least one. -/
def takeEntries (maximumEntries maximumBytes : Nat) :
    List RemoteExportJournalEntry → List RemoteExportJournalEntry → Nat →
      Except String (List RemoteExportJournalEntry)
  | [], entries, _ => .ok entries
  | entry :: rest, entries, encodedBytes =>
    if entries.length = maximumEntries then .ok entries
    else do
      let entryBytes ← store.encodedEntryJsonSize entry
      let nextBytes ← okOr ((checkedAdd 64 encodedBytes entryBytes).bind fun total =>
          checkedAdd 64 total (if entries = [] then 0 else 1))
        "remote export page size overflowed"
      if maximumBytes < nextBytes then
        if entries = [] then
          .error "remote export page byte limit is smaller than its next change"
        else pure entries
      else takeEntries maximumEntries maximumBytes rest (entries ++ [entry]) nextBytes

def readPage (s : StoredExportState) (cursor : DeltaCursor) (maximumEntries maximumBytes : Nat) :
    Except String RemoteDeltaPageRead :=
  match s.expiry cursor with
  | some expired => .ok (.cursorExpired expired)
  | none => do
    ensure (¬ s.currentSequence < cursor.sequence)
      "remote export cursor is ahead of the durable journal"
    ensure (0 < maximumEntries ∧ maximumEntries ≤ store.limits.maximumPageEntries ∧
        0 < maximumBytes ∧ maximumBytes ≤ store.limits.maximumPageBytes)
      "remote export page limits are outside the supported bounds"
    let firstSequence := saturatingAdd 64 cursor.sequence 1
    let entries ← takeEntries store maximumEntries maximumBytes
      (s.entries.dropWhile fun entry => entry.sequence < firstSequence) [] 0
    let throughSequence := (entries.getLast?.map (·.sequence)).getD cursor.sequence
    pure (.page {
      generation := s.deltaGeneration
      fromSequence := (entries.head?.map (·.sequence)).getD cursor.sequence
      throughSequence
      nextCursor := ⟨s.deltaGeneration, throughSequence⟩
      hasMore := throughSequence < s.currentSequence
      entries })

/-! ## Mutations -/

def appendChanges (s : StoredExportState) (observedAt : DateTime)
    (changes : List RemoteExportChange) :
    Except String (StoredExportState × RemoteExportAppendReport) := do
  ensure (changes.length ≤ maxAppendBatchEntries) "remote export append batch is too large"
  changes.forM (·.validate)
  appendAndCompact store s observedAt changes

/-! ## The materialized set -/

structure RemoteExportMaterializedUpsert where
  logicalKey : String
  expiresAt : DateTime
  revision : Nat
  change : RemoteExportChange
deriving DecidableEq

/-- The sequence of the last entry with this change id. -/
def StoredExportState.latestRevision (s : StoredExportState) (changeId : String) : Option Nat :=
  (s.entries.reverse.find? fun entry => entry.change.changeId == changeId).map (·.sequence)

def materializedUpserts (s : StoredExportState) :
    Except String (List RemoteExportMaterializedUpsert) := do
  let upserts ← captureMaterializedUpserts s s.materializedRecords ∅
  s.materializedRecords.mapM fun record => do
    let change ← okOr (upserts.lookup record.logicalKey)
      "remote materialized upsert disappeared from its journal"
    let revision ← okOr (s.latestRevision record.currentChangeId)
      "remote materialized upsert has no journal revision"
    pure ⟨record.logicalKey, record.expiresAt, revision, change⟩

def materializedSetMatches (s : StoredExportState) (desired : List RemoteExportDesiredRecord) :
    Except String Bool :=
  if s.materializedRecords.length ≠ desired.length then .ok false
  else do
    let currentUpserts ← captureMaterializedUpserts s s.materializedRecords ∅
    pure ((s.materializedRecords.zip desired).all fun (current, wanted) =>
      decide (current.logicalKey = wanted.logicalKey ∧ current.expiresAt = wanted.expiresAt ∧
        current.currentChangeId = wanted.upsert.changeId ∧
        current.tombstone = wanted.tombstone ∧
        currentUpserts.lookup current.logicalKey = some wanted.upsert))

def reconcileMaintenanceDue (s : StoredExportState) (observedAt : DateTime) : Bool :=
  let clock := s.retentionClock
  let trustedForwardLimit := (checkedAddSigned clock.trustedAt
    (hours retentionClockMaxUnconfirmedForwardHours)).getD maxUtc
  let lastMaintenance := clock.pendingLastAt.getD clock.trustedAt
  if store.limits.retentionDays ≤ 0 then true
  else if observedAt ≤ trustedForwardLimit ∧
      ∃ record ∈ s.materializedRecords, record.expiresAt ≤ observedAt then true
  else if clock.pendingLastAt.isSome ∧ observedAt < lastMaintenance then true
  else (checkedAddSigned lastMaintenance (hours reconcileMaintenanceIntervalHours)).any
    fun next => decide (next ≤ observedAt)

/-- `reconcile_materialized_records`. -/
def reconcileMaterializedRecords (s : StoredExportState) (observedAt : DateTime)
    (desired : List RemoteExportDesiredRecord) (mode : RemoteExportReconcileMode) :
    Except String StoredExportState := do
  validateDesiredRecords desired
  let current ← materializedSetMatches s desired
  if current ∧ reconcileMaintenanceDue store s observedAt = false then pure s
  else do
    let reconciled ← reconcileAndCompact store s observedAt desired mode
    pure reconciled.1

/-! ## The session -/

/-- The state file, and the state in memory unless a mutation that failed could not restore it. -/
structure RemoteExportSession where
  file : StoredExportState
  state : Option StoredExportState
deriving DecidableEq

def readState (file : StoredExportState) : Except String StoredExportState := do
  file.validate store
  pure file

/-- `write_state`, as far as it can fail without the file system: the validation of the state and
the byte cap of the writer. -/
def writeState (s : StoredExportState) : Except String Unit := do
  s.validate store
  let size ← encodedStateSize store s
  ensure (size ≤ store.limits.maximumStateBytes)
    "remote export state is invalid: serialized remote export state exceeds its hard byte cap"

/-- `restore_after_failed_mutation`: the state is out of the session when it is called. -/
def RemoteExportSession.restoreAfterFailedMutation (session : RemoteExportSession) :
    Except String Unit × RemoteExportSession :=
  match readState store session.file with
  | .error error =>
    (.error ("remote export mutation failed and durable state could not be reloaded: " ++ error),
      { session with state := none })
  | .ok s =>
    match encodedStateSize store s with
    | .error error => (.error error, session)
    | .ok _ => (.ok (), { session with state := some s })

/-- The end of a mutation that failed with `error`. -/
def RemoteExportSession.fail {α : Type} (session : RemoteExportSession) (error : String) :
    Except String α × RemoteExportSession :=
  match session.restoreAfterFailedMutation store with
  | (.ok (), session) => (.error error, session)
  | (.error other, session) => (.error other, session)

/-- The frame of every mutation: the state is taken, worked on and written out. -/
def RemoteExportSession.mutate {α : Type} (session : RemoteExportSession)
    (operation : StoredExportState → Except String (StoredExportState × α)) :
    Except String α × RemoteExportSession :=
  match session.state with
  | none => (.error "remote export session is poisoned", session)
  | some s =>
    let taken := { session with state := none }
    match operation s with
    | .error error => taken.fail store error
    | .ok (s', report) =>
      match writeState store s' with
      | .error error => taken.fail store error
      | .ok () => (.ok report, { file := s', state := some s' })

def unchangedReport (s : StoredExportState) : RemoteExportReconcileReport where
  sequence := s.currentSequence
  upsertsAppended := 0
  tombstonesAppended := 0
  expiredRecords := 0
  bootstrapUpsertsAppended := 0
  currentRecords := s.materializedRecords.length
  prunedByAge := 0
  prunedByCapacity := 0
  retentionFloor := s.retentionFloor
  retentionDeferred := s.retentionClock.pendingStartedAt.isSome

def RemoteExportSession.reconcileMaterializedRecords (session : RemoteExportSession)
    (observedAt : DateTime) (desired : List RemoteExportDesiredRecord)
    (mode : RemoteExportReconcileMode) :
    Except String RemoteExportReconcileReport × RemoteExportSession :=
  match validateDesiredRecords desired, session.state with
  | .error error, _ => (.error error, session)
  | .ok (), none => (.error "remote export session is poisoned", session)
  | .ok (), some s =>
    match materializedSetMatches s desired with
    | .error error => (.error error, session)
    | .ok current =>
      if current ∧ reconcileMaintenanceDue store s observedAt = false then
        (.ok (unchangedReport s), session)
      else session.mutate store fun s => reconcileAndCompact store s observedAt desired mode

/-! ## Preflight -/

inductive RemoteExportReconcileDeltaPreflight
  | ready (cursor : DeltaCursor) (entries serializedBytes : Nat)
  | cursorExpired (expired : RemoteDeltaCursorExpired)
  | limitExceeded
deriving DecidableEq

/-- The limits of a preflight: `maximum_entries`, `initial_serialized_bytes`,
`maximum_record_serialized_bytes`, `maximum_serialized_bytes`. -/
structure PreflightLimits where
  maximumEntries : Nat
  initialSerializedBytes : Nat
  maximumRecordSerializedBytes : Nat
  maximumSerializedBytes : Nat
deriving DecidableEq

/-- The counting loop of the preflight; `none` when a limit is exceeded. -/
def countDelta (limits : PreflightLimits)
    (serializedRecordBytes : RemoteExportJournalEntry → Except String Nat) :
    List RemoteExportJournalEntry → Nat → Nat → Except String (Option (Nat × Nat))
  | [], entries, serializedBytes => .ok (some (entries, serializedBytes))
  | entry :: rest, entries, serializedBytes => do
    let entries ← okOr (checkedAdd 64 entries 1) "remote reconcile delta entry count overflowed"
    if limits.maximumEntries < entries then pure none
    else do
      let recordBytes ← serializedRecordBytes entry
      if limits.maximumRecordSerializedBytes < recordBytes then pure none
      else match checkedAdd 64 serializedBytes recordBytes with
        | some total =>
          if total ≤ limits.maximumSerializedBytes then
            countDelta limits serializedRecordBytes rest entries total
          else pure none
        | none => pure none

/-- The delta from a cursor to the watermark of the previewed state. -/
def previewDelta (limits : PreflightLimits)
    (serializedRecordBytes : RemoteExportJournalEntry → Except String Nat)
    (preview : StoredExportState) (cursor : DeltaCursor) :
    Except String RemoteExportReconcileDeltaPreflight :=
  match preview.expiry cursor with
  | some expired => .ok (.cursorExpired expired)
  | none => do
    ensure (¬ preview.currentSequence < cursor.sequence)
      "remote export cursor is ahead of the reconciled preview"
    let counted ← countDelta limits serializedRecordBytes
      (preview.entries.dropWhile fun entry => entry.sequence ≤ cursor.sequence) 0
      limits.initialSerializedBytes
    pure (match counted with
      | some (entries, serializedBytes) => .ready preview.cursor entries serializedBytes
      | none => .limitExceeded)

/-- The state that a reconcile would leave, on a copy of the current one. -/
def previewState (current : StoredExportState) (observedAt : DateTime)
    (desired : List RemoteExportDesiredRecord) (mode : RemoteExportReconcileMode) :
    Except String StoredExportState := do
  let matched ← materializedSetMatches current desired
  if matched = false ∨ reconcileMaintenanceDue store current observedAt then do
    let reconciled ← reconcileAndCompact store current observedAt desired mode
    pure reconciled.1
  else pure current

/-- `preflight_reconciled_delta`; the session is borrowed and comes back as it is. -/
def RemoteExportSession.preflightReconciledDelta (session : RemoteExportSession)
    (observedAt : DateTime) (desired : List RemoteExportDesiredRecord)
    (mode : RemoteExportReconcileMode) (cursor : DeltaCursor) (limits : PreflightLimits)
    (serializedRecordBytes : RemoteExportJournalEntry → Except String Nat) :
    Except String RemoteExportReconcileDeltaPreflight × RemoteExportSession :=
  (do
    validateDesiredRecords desired
    ensure (limits.maximumEntries ≠ 0 ∧ limits.maximumRecordSerializedBytes ≠ 0 ∧
        limits.maximumSerializedBytes ≠ 0 ∧
        limits.initialSerializedBytes ≤ limits.maximumSerializedBytes)
      "remote reconcile delta preflight limits are invalid"
    let current ← okOr session.state "remote export session is poisoned"
    match current.expiry cursor with
    | some expired => pure (.cursorExpired expired)
    | none => do
      ensure (¬ current.currentSequence < cursor.sequence)
        "remote export cursor is ahead of the durable journal"
      let preview ← previewState store current observedAt desired mode
      previewDelta limits serializedRecordBytes preview cursor, session)

end

end Export
