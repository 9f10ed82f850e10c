import Mathlib.Data.String.Basic
import UsageMonit.Domain.Protocol

/-!
# The export state (`remote_export_state.rs`)

The durable state of the delta exporter: a journal of opaque changes with contiguous sequence
numbers above a retention floor, the materialized set (the current record of every logical key)
and the retention clock. This file holds the data model, its validation and the operations every
mutation is made of: appending a batch, dropping the oldest entries, advancing the clock.

JSON sizes and the validation of the live snapshot come from code outside the journal; they are
fields of `RemoteExportStateStore`.
-/

namespace Export

open Fallible Time Protocol

def stateFormatVersion : Nat := 3
def journalRetentionDays : Int := 35
def maxJournalStateBytes : Nat := 128 * 1024 * 1024
def maxJournalEntries : Nat := 262144
def maxChangeIdBytes : Nat := 192
def maxChangePayloadBytes : Nat := 1024 * 1024
def maxAppendBatchEntries : Nat := 4096
def maxMaterializedRecords : Nat := 65536
def maxMaterializedKeyBytes : Nat := 512
def maxPageEntries : Nat := 4096
def maxPageBytes : Nat := 8 * 1024 * 1024
def retentionClockMaxUnconfirmedForwardHours : Int := 24
def retentionClockConfirmationHours : Int := 48
def retentionClockMinConfirmations : Nat := 3

/-! ## Data model -/

/-- One opaque aggregate payload. `changeId` is a deterministic content identity. -/
structure RemoteExportChange where
  changeId : String
  payload : List UInt8
deriving DecidableEq

/-- One desired member of the materialized set. -/
structure RemoteExportDesiredRecord where
  logicalKey : String
  expiresAt : DateTime
  upsert : RemoteExportChange
  tombstone : RemoteExportChange
deriving DecidableEq

inductive RemoteExportReconcileMode
  | upsertOnly
  | authoritative
deriving DecidableEq

structure RemoteExportJournalEntry where
  sequence : Nat
  committedAt : DateTime
  change : RemoteExportChange
deriving DecidableEq

structure StoredMaterializedRecord where
  logicalKey : String
  expiresAt : DateTime
  currentChangeId : String
  lastUpsertSequence : Nat
  tombstone : RemoteExportChange
deriving DecidableEq

structure RetentionClock where
  trustedAt : DateTime
  pendingStartedAt : Option DateTime := none
  pendingLastAt : Option DateTime := none
  pendingConfirmations : Nat := 0
deriving DecidableEq

/-- The live snapshot beside the journal; no journal operation reads its `body`. -/
structure StoredLiveState where
  revision : Nat
  body : List UInt8
deriving DecidableEq

structure StoredExportState where
  formatVersion : Nat
  source : SourceGeneration
  redactionProfile : RedactionProfile
  deltaGeneration : Nat
  currentSequence : Nat
  retentionFloor : Nat
  retentionClock : RetentionClock
  entries : List RemoteExportJournalEntry
  materializedRecords : List StoredMaterializedRecord
  live : Option StoredLiveState
deriving DecidableEq

structure RemoteExportLimits where
  retentionDays : Int := journalRetentionDays
  maximumStateBytes : Nat := maxJournalStateBytes
  maximumEntries : Nat := maxJournalEntries
  maximumPageEntries : Nat := maxPageEntries
  maximumPageBytes : Nat := maxPageBytes
deriving DecidableEq

/-- The namespace and limits of one exporter, with the code the journal calls: `serde_json`'s
encoded size of a state and of an entry, and the validation of the live snapshot. -/
structure RemoteExportStateStore where
  source : SourceGeneration
  redactionProfile : RedactionProfile
  limits : RemoteExportLimits
  encodedStateJsonSize : StoredExportState → Except String Nat
  encodedEntryJsonSize : RemoteExportJournalEntry → Except String Nat
  validateLive : RedactionProfile → StoredLiveState → Except String Unit

/-! ## Validation -/

/-- Bounded path-safe ASCII: the byte test of `validate_change_id` and
`validate_materialized_key`. -/
def isPathSafe (s : String) (maximum : Nat) : Prop :=
  s ≠ "" ∧ s.utf8ByteSize ≤ maximum ∧
    s.toList.all (fun c => c.isAlphanum || c == '-' || c == '_' || c == '.' || c == ':') = true

instance (s : String) (n : Nat) : Decidable (isPathSafe s n) :=
  inferInstanceAs (Decidable (_ ∧ _ ∧ _))

def validateChangeId (changeId : String) : Except String Unit :=
  ensure (isPathSafe changeId maxChangeIdBytes)
    "remote export change ID must be bounded path-safe ASCII"

def validateMaterializedKey (logicalKey : String) : Except String Unit :=
  ensure (isPathSafe logicalKey maxMaterializedKeyBytes)
    "remote materialized logical key must be bounded path-safe ASCII"

def RemoteExportChange.validate (c : RemoteExportChange) : Except String Unit := do
  validateChangeId c.changeId
  ensure (c.payload.length ≤ maxChangePayloadBytes) "remote export change payload is too large"

def RemoteExportDesiredRecord.validate (r : RemoteExportDesiredRecord) : Except String Unit := do
  validateMaterializedKey r.logicalKey
  r.upsert.validate
  r.tombstone.validate
  ensure (r.upsert.changeId ≠ r.tombstone.changeId)
    "remote materialized upsert and tombstone must have distinct change IDs"

/-- Owners of the change ids seen so far: id to (logical key, role). -/
abbrev IdOwners := AList fun _ : String => String × String

def validateMaterializedIdOwner (owners : IdOwners) (changeId logicalKey role : String) :
    Except String IdOwners :=
  match owners.lookup changeId with
  | some (existingKey, existingRole) =>
    .error ("remote materialized change ID is shared by " ++ existingKey ++ "/" ++ existingRole ++
      " and " ++ logicalKey ++ "/" ++ role)
  | none => .ok (owners.insert changeId (logicalKey, role))

def RetentionClock.current (trustedAt : DateTime) : RetentionClock := { trustedAt }

def RetentionClock.pending (trustedAt observedAt : DateTime) : RetentionClock :=
  { trustedAt, pendingStartedAt := some observedAt, pendingLastAt := some observedAt,
    pendingConfirmations := 1 }

def RetentionClock.validate (c : RetentionClock) : Except String Unit :=
  match c.pendingStartedAt, c.pendingLastAt with
  | none, none => ensure (c.pendingConfirmations = 0) "remote export retention clock is invalid"
  | some startedAt, some lastAt =>
    ensure (0 < c.pendingConfirmations ∧ startedAt ≤ lastAt ∧ c.trustedAt < startedAt)
      "remote export retention clock is invalid"
  | _, _ => .error "remote export retention clock is invalid"

/-- `entry_at_sequence`: index `sequence - floor - 1`, checked against the entry found there. -/
def StoredExportState.entryAtSequence (s : StoredExportState) (sequence : Nat) :
    Option RemoteExportJournalEntry :=
  if s.retentionFloor + 1 ≤ sequence then
    (s.entries[sequence - s.retentionFloor - 1]?).filter fun entry => entry.sequence == sequence
  else none

/-- The journal loop of `validate`: order, contiguity and one payload per change id. -/
def validateEntries : List RemoteExportJournalEntry → Nat → DateTime →
    (AList fun _ : String => List UInt8) → Except String (AList fun _ : String => List UInt8)
  | [], _, _, ids => .ok ids
  | entry :: rest, previousSequence, previousCommittedAt, ids => do
    entry.change.validate
    let expectedSequence ← okOr (checkedAdd 64 previousSequence 1)
      "remote export journal sequence overflowed"
    ensure (entry.sequence = expectedSequence ∧ previousCommittedAt ≤ entry.committedAt)
      "remote export journal order or sequence is invalid"
    ensure (∀ existing ∈ ids.lookup entry.change.changeId, existing = entry.change.payload)
      "remote export journal reuses a change ID with different payload"
    validateEntries rest entry.sequence entry.committedAt
      (ids.insert entry.change.changeId entry.change.payload)

/-- One materialized record against the journal. -/
def validateMaterializedRecord (s : StoredExportState)
    (journalIds : AList fun _ : String => List UInt8) (previousKey : Option String)
    (owners : IdOwners) (record : StoredMaterializedRecord) : Except String IdOwners := do
  validateMaterializedKey record.logicalKey
  validateChangeId record.currentChangeId
  record.tombstone.validate
  ensure (∀ key ∈ previousKey, key < record.logicalKey)
    "remote materialized records are not sorted and unique by logical key"
  ensure (record.currentChangeId ≠ record.tombstone.changeId)
    "remote materialized upsert and tombstone change IDs collide"
  let owners ← validateMaterializedIdOwner owners record.currentChangeId record.logicalKey "upsert"
  let owners ←
    validateMaterializedIdOwner owners record.tombstone.changeId record.logicalKey "tombstone"
  ensure (s.retentionFloor < record.lastUpsertSequence)
    "remote materialized upsert lies at or before the retention floor"
  let entry ← okOr (s.entryAtSequence record.lastUpsertSequence)
    "remote materialized upsert sequence is not retained"
  ensure (entry.change.changeId = record.currentChangeId)
    "remote materialized upsert sequence does not match its content ID"
  ensure (¬ ∃ entry ∈ s.entries, record.lastUpsertSequence < entry.sequence ∧
      entry.change.changeId = record.tombstone.changeId)
    "remote materialized current record has a later retained tombstone"
  ensure (∀ payload ∈ journalIds.lookup record.tombstone.changeId,
      payload = record.tombstone.payload)
    "remote materialized tombstone change ID conflicts with journal content"
  pure owners

def validateMaterializedRecords (s : StoredExportState)
    (journalIds : AList fun _ : String => List UInt8) :
    List StoredMaterializedRecord → Option String → IdOwners → Except String Unit
  | [], _, _ => .ok ()
  | record :: rest, previousKey, owners => do
    let owners ← validateMaterializedRecord s journalIds previousKey owners record
    validateMaterializedRecords s journalIds rest (some record.logicalKey) owners

def StoredExportState.validateLive (s : StoredExportState) (store : RemoteExportStateStore) :
    Except String Unit :=
  match s.live with
  | some live => store.validateLive s.redactionProfile live
  | none => .ok ()

/-- The part of `validate` about the journal and the materialized set. -/
def StoredExportState.validateJournal (s : StoredExportState) : Except String Unit :=
  match s.entries with
  | [] =>
    ensure (s.retentionFloor = s.currentSequence ∧ s.materializedRecords = [])
      "empty remote export journal has an invalid floor or materialized set"
  | first :: rest => do
    let expectedFirst ← okOr (checkedAdd 64 s.retentionFloor 1)
      "remote export retention floor cannot advance"
    ensure (first.sequence = expectedFirst ∧
        ((first :: rest).getLast (by simp)).sequence = s.currentSequence)
      "remote export journal does not cover its declared sequence range"
    let ids ← validateEntries (first :: rest) s.retentionFloor minUtc ∅
    validateMaterializedRecords s ids s.materializedRecords none ∅

def StoredExportState.validate (s : StoredExportState) (store : RemoteExportStateStore) :
    Except String Unit := do
  ensure (s.formatVersion = stateFormatVersion)
    ("unsupported remote export state format " ++ toString s.formatVersion ++ "; expected " ++
      toString stateFormatVersion)
  ensure (s.source = store.source ∧ s.redactionProfile = store.redactionProfile)
    "remote export state binding does not match its namespace"
  s.retentionClock.validate
  s.validateLive store
  ensure (s.retentionFloor ≤ s.currentSequence ∧ s.entries.length ≤ store.limits.maximumEntries ∧
      s.materializedRecords.length ≤ maxMaterializedRecords)
    "remote export journal bounds are invalid"
  s.validateJournal

/-! ## The empty state -/

/-- `StoredExportState::new`, given the generation the random provider returned. -/
def StoredExportState.new (source : SourceGeneration) (redactionProfile : RedactionProfile)
    (deltaGeneration : Nat) (observedAt : DateTime) : StoredExportState where
  formatVersion := stateFormatVersion
  source := source
  redactionProfile := redactionProfile
  deltaGeneration := deltaGeneration
  currentSequence := 0
  retentionFloor := 0
  retentionClock := RetentionClock.current observedAt
  entries := []
  materializedRecords := []
  live := none

/-! ## Retention clock and dropping entries -/

def nextRetentionClock (clock : RetentionClock) (observedAt : DateTime) :
    RetentionClock × Bool :=
  if observedAt ≤ clock.trustedAt then (RetentionClock.current clock.trustedAt, false)
  else
    let maximum := (checkedAddSigned clock.trustedAt
      (hours retentionClockMaxUnconfirmedForwardHours)).getD maxUtc
    if observedAt ≤ maximum then (RetentionClock.current observedAt, false)
    else if ¬ ∃ lastAt ∈ clock.pendingLastAt, lastAt ≤ observedAt then
      (RetentionClock.pending clock.trustedAt observedAt, true)
    else
      let next := { clock with
        pendingLastAt := some observedAt
        pendingConfirmations := saturatingAdd 32 clock.pendingConfirmations 1 }
      let stableSince := (clock.pendingStartedAt.bind fun startedAt =>
        checkedAddSigned startedAt (hours retentionClockConfirmationHours)).getD maxUtc
      if stableSince ≤ observedAt ∧ retentionClockMinConfirmations ≤ next.pendingConfirmations then
        (RetentionClock.current observedAt, false)
      else (next, true)

def dropOldestEntries (s : StoredExportState) (count : Nat) : Except String StoredExportState :=
  if count = 0 then .ok s
  else do
    let last ← okOr (s.entries[count - 1]?) "remote export compaction exceeded retained entries"
    let entries := s.entries.drop count
    pure { s with
      retentionFloor := if entries.isEmpty then s.currentSequence else last.sequence
      entries }

/-- `advance_retention_and_prune_age`: the new state, the pruned count and whether the clock
deferred. Entries are ordered by commit time, so `partition_point` is the length of the prefix. -/
def advanceRetentionAndPruneAge (s : StoredExportState) (observedAt : DateTime)
    (retentionDays : Int) : Except String (StoredExportState × Nat × Bool) := do
  let (clock, retentionDeferred) := nextRetentionClock s.retentionClock observedAt
  let s := { s with retentionClock := clock }
  let cutoff := (checkedSubSigned clock.trustedAt (days retentionDays)).getD minUtc
  let ageCount := (s.entries.takeWhile fun entry => entry.committedAt < cutoff).length
  let s ← dropOldestEntries s ageCount
  pure (s, ageCount, retentionDeferred)

/-! ## Appending a batch -/

inductive RetainedDuplicatePolicy
  | skip
  | append
deriving DecidableEq

abbrev ChangeMap := AList fun _ : String => RemoteExportChange

/-- The change of every retained id; a retained id with two changes is corruption. -/
def retainedChanges : List RemoteExportJournalEntry → ChangeMap → Except String ChangeMap
  | [], retained => .ok retained
  | entry :: rest, retained => do
    ensure (∀ existing ∈ retained.lookup entry.change.changeId, existing = entry.change)
      "remote export journal has a retained change ID collision"
    retainedChanges rest (retained.insert entry.change.changeId entry.change)

/-- The selection loop: the changes to append, in order, and the number of duplicates skipped. -/
def selectChanges (policy : RetainedDuplicatePolicy) (retained : ChangeMap) :
    List RemoteExportChange → ChangeMap → List RemoteExportChange → Nat →
      Except String (List RemoteExportChange × Nat)
  | [], _, selected, duplicates => .ok (selected, duplicates)
  | change :: rest, batch, selected, duplicates => do
    change.validate
    ensure (∀ existing ∈ retained.lookup change.changeId, existing = change)
      ("remote export change ID " ++ change.changeId ++ " was reused with different payload")
    if (retained.lookup change.changeId).isSome ∧ policy = .skip then
      selectChanges policy retained rest batch selected (duplicates + 1)
    else match batch.lookup change.changeId with
      | some existing => do
        ensure (existing = change) ("remote export append batch reused change ID " ++
          change.changeId ++ " with different payload")
        ensure (policy = .skip) "remote materialized transition batch repeats one change ID"
        selectChanges policy retained rest (batch.insert change.changeId change) selected
          (duplicates + 1)
      | none =>
        selectChanges policy retained rest (batch.insert change.changeId change)
          (selected ++ [change]) duplicates

/-- The push loop: one entry per selected change, at the next sequence. -/
def pushChanges (committedAt : DateTime) :
    List RemoteExportChange → StoredExportState → List Nat →
      Except String (StoredExportState × List Nat)
  | [], s, sequences => .ok (s, sequences)
  | change :: rest, s, sequences => do
    let sequence ← okOr (checkedAdd 64 s.currentSequence 1) "remote export sequence overflowed"
    let s := { s with
      entries := s.entries ++ [{ sequence, committedAt, change }]
      currentSequence := sequence }
    ensure (sequence ≠ 0) "remote export appended a zero sequence"
    pushChanges committedAt rest s (sequences ++ [sequence])

structure AppendBatchResult where
  sequences : List Nat
  duplicates : Nat
deriving DecidableEq

def appendChangeBatch (s : StoredExportState) (observedAt : DateTime)
    (changes : List RemoteExportChange) (policy : RetainedDuplicatePolicy) :
    Except String (StoredExportState × AppendBatchResult) := do
  let retained ← retainedChanges s.entries ∅
  let (selected, duplicates) ← selectChanges policy retained changes ∅ [] 0
  let _ ← okOr (checkedAdd 64 s.currentSequence selected.length)
    "remote export sequence overflowed"
  let committedAt := max (match s.entries.getLast? with
    | some entry => max entry.committedAt observedAt
    | none => observedAt) s.retentionClock.trustedAt
  let (s, sequences) ← pushChanges committedAt selected s []
  pure (s, { sequences, duplicates })

end Export
