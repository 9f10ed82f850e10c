import UsageMonit.Ingest.Session

/-!
# The tables of the history database (`database.rs`, `remote_quota.rs`)

All rows of a profile live in two tables: `history_state` maps a key to a payload and
`history_records` maps a namespace and a record key to one. Both keys are texts, the joined
components of a path below the profile. This file holds the tables, the names of the rows of one
SSH source, and the writers of the record families: each of them writes in the namespace it is
given.

What a family does with one record (its key, its checks and how it is merged with the stored one)
is code of its own: the fields of `FamilyWriter` and `QuotaWriter`. `ρ` are record payloads.
-/

namespace Generations

open Fallible Time Protocol Ingest

def maxRemoteQuotaDays : Nat := 128
def maxRemoteQuotaBytes : Nat := 32 * 1024 * 1024
def remoteGenerationFormatVersion : Nat := 3
def remoteActiveManifestFormatVersion : Nat := 2

/-! ## Rows -/

structure RemoteGenerationMetadata where
  formatVersion : Nat
  profileId : String
  sourceId : String
  redactionProfile : RedactionProfile
  generation : RemoteHistoryGenerationId
  binding : SourceHistoryRemoteBinding
deriving DecidableEq

structure RemoteActiveManifest where
  formatVersion : Nat
  profileId : String
  sourceId : String
  redactionProfile : RedactionProfile
  activeGeneration : RemoteHistoryGenerationId
  binding : SourceHistoryRemoteBinding
  activatedAt : DateTime
deriving DecidableEq

def RemoteActiveManifest.ref (m : RemoteActiveManifest) : SourceHistoryRemoteActiveRef :=
  ⟨m.activeGeneration, m.binding⟩

variable {ρ : Type}

structure RemoteQuotaHistory (ρ : Type) where
  version : Nat
  profileId : String
  sourceId : String
  redactionProfile : RedactionProfile
  lastSequence : Nat
  days : List (String × ρ)
deriving DecidableEq

/-- A payload of `history_state`, by the type it decodes to. -/
inductive StateValue (ρ : Type)
  | generation (metadata : RemoteGenerationMetadata)
  | active (manifest : RemoteActiveManifest)
  | quota (header : RemoteQuotaHistory ρ)
  | revision (value : Nat)
deriving DecidableEq

structure HistoryTables (ρ : Type) where
  states : AList fun _ : String => StateValue ρ
  records : AList fun _ : String × String => ρ

namespace HistoryTables

/-- A payload that does not decode to the type asked for. -/
def undecodable : String := "history state payload does not decode"

/-- `database::state`, for each type of payload. -/
def readState {α : Type} (t : HistoryTables ρ) (key : String) (decode : StateValue ρ → Option α) :
    Except String (Option α) :=
  match t.states.lookup key with
  | none => .ok none
  | some value => do
    let decoded ← okOr (decode value) undecodable
    pure (some decoded)

def generationState (t : HistoryTables ρ) (key : String) :
    Except String (Option RemoteGenerationMetadata) :=
  t.readState key fun
    | .generation metadata => some metadata
    | _ => none

def activeState (t : HistoryTables ρ) (key : String) :
    Except String (Option RemoteActiveManifest) :=
  t.readState key fun
    | .active manifest => some manifest
    | _ => none

def quotaState (t : HistoryTables ρ) (key : String) :
    Except String (Option (RemoteQuotaHistory ρ)) :=
  t.readState key fun
    | .quota header => some header
    | _ => none

def revisionState (t : HistoryTables ρ) (key : String) : Except String (Option Nat) :=
  t.readState key fun
    | .revision value => some value
    | _ => none

def setState (t : HistoryTables ρ) (key : String) (value : StateValue ρ) : HistoryTables ρ :=
  { t with states := t.states.insert key value }

def deleteState (t : HistoryTables ρ) (key : String) : HistoryTables ρ :=
  { t with states := t.states.erase key }

def putRecord (t : HistoryTables ρ) (ns key : String) (value : ρ) : HistoryTables ρ :=
  { t with records := t.records.insert (ns, key) value }

def deleteRecord (t : HistoryTables ρ) (ns key : String) : HistoryTables ρ :=
  { t with records := t.records.erase (ns, key) }

/-- `sqlite_record`: the record of a namespace under a key. -/
def record (t : HistoryTables ρ) (ns key : String) : Option ρ := t.records.lookup (ns, key)

/-- `database::records`: the records of a namespace. -/
def namespaceRecords (t : HistoryTables ρ) (ns : String) : List ρ :=
  (t.records.entries.filter fun row => row.1.1 == ns).map (·.2)

def deleteNamespace (t : HistoryTables ρ) (ns : String) : HistoryTables ρ :=
  { t with
    records := (t.records.keys.filter fun key => key.1 == ns).foldl
      (fun records key => records.erase key) t.records }

end HistoryTables

/-! ## The names of one source's rows -/

/-- One SSH source of a profile. `sourceNamespace` is the namespace of
`source_directory(source).join(redaction)`. -/
structure HistoryScope where
  profileId : String
  sourceId : String
  redactionProfile : RedactionProfile
  sourceNamespace : String
deriving DecidableEq

namespace HistoryScope
variable (s : HistoryScope) (generation : RemoteHistoryGenerationId)

/-- `source_remote_history_directory`. -/
def remoteHistoryDirectory : String := s.sourceNamespace ++ "/remote-history-v1"

/-- `source_remote_history_generation_directory`. -/
def generationDirectory : String :=
  s.remoteHistoryDirectory ++ "/generations" ++ "/" ++ generation

def activeKey : String := s.remoteHistoryDirectory ++ "/active.json"
def publicationRevisionKey : String := s.sourceNamespace ++ "/remote-publication-revision.json"
def generationKey : String := s.generationDirectory generation ++ "/generation.json"
def bucketsNamespace : String := s.generationDirectory generation ++ "/buckets"
def digestsNamespace : String := s.generationDirectory generation ++ "/digests"
def quotaKey : String := s.generationDirectory generation ++ "/quota.json"

end HistoryScope

/-! ## The writers of the families -/

/-- A record family: the checks of a page's records (with the order they are written in), the key
of a record, and what becomes of the stored record. `none` when nothing changes. -/
structure FamilyWriter (ρ : Type) where
  group : List ρ → Except String (List ρ)
  recordKey : ρ → Except String String
  applyRecord : Option ρ → ρ → Except String (Option ρ)

/-- The loop of `sqlite_record_bucket_changes` and `sqlite_record_digest_changes`: the tables, and
whether a shard was written. -/
def recordChange (writer : FamilyWriter ρ) (ns : String) (acc : HistoryTables ρ × Bool)
    (incoming : ρ) : Except String (HistoryTables ρ × Bool) := do
  let key ← writer.recordKey incoming
  let merged ← writer.applyRecord (acc.1.record ns key) incoming
  match merged with
  | some value => pure (acc.1.putRecord ns key value, true)
  | none => pure acc

def recordChanges (writer : FamilyWriter ρ) (t : HistoryTables ρ) (ns : String)
    (records : List ρ) : Except String (HistoryTables ρ × Bool) := do
  let additions ← writer.group records
  additions.foldlM (recordChange writer ns) (t, false)

structure RemoteQuotaChange (ρ : Type) where
  sequence : Nat
  quota : ρ
deriving DecidableEq

/-- What `apply_remote_quota` reads of a day: its check, its day, whether it has no points and its
encoded size. -/
structure QuotaWriter (ρ : Type) where
  validateDay : ρ → Except String Unit
  day : ρ → String
  pointsEmpty : ρ → Bool
  encodedSize : ρ → Nat

structure QuotaLoop (ρ : Type) where
  tables : HistoryTables ρ
  header : RemoteQuotaHistory ρ
  present : AList fun _ : String => ρ
  sizes : AList fun _ : String => Nat
  changed : Bool

section
variable (writer : QuotaWriter ρ)

/-- The days of the namespace, by day; a day with two rows is corruption. -/
def presentDays : List ρ → (AList fun _ : String => ρ) → Except String (AList fun _ : String => ρ)
  | [], present => .ok present
  | day :: rest, present => do
    writer.validateDay day
    ensure (writer.day day ∉ present) "duplicate remote SQL quota day"
    presentDays rest (present.insert (writer.day day) day)

variable [DecidableEq ρ]

def quotaChange (key : String) (acc : QuotaLoop ρ) (change : RemoteQuotaChange ρ) :
    Except String (QuotaLoop ρ) :=
  let day := writer.day change.quota
  if change.sequence ≤ acc.header.lastSequence then .ok acc
  else if writer.pointsEmpty change.quota then
    .ok { tables := acc.tables.deleteRecord key day
          header := { acc.header with lastSequence := change.sequence }
          present := acc.present.erase day
          sizes := acc.sizes.erase day
          changed := acc.changed || decide (day ∈ acc.present) }
  else do
    writer.validateDay change.quota
    pure { tables := acc.tables.putRecord key day change.quota
           header := { acc.header with lastSequence := change.sequence }
           present := acc.present.insert day change.quota
           sizes := acc.sizes.insert day (writer.encodedSize change.quota)
           changed := acc.changed || decide (acc.present.lookup day ≠ some change.quota) }

def validateQuotaHeader (scope : HistoryScope) (header : RemoteQuotaHistory ρ) :
    Except String Unit := do
  ensure (header.version = 1 ∧ header.profileId = scope.profileId ∧
      header.sourceId = scope.sourceId ∧ header.redactionProfile = scope.redactionProfile ∧
      header.days.length ≤ maxRemoteQuotaDays)
    "remote quota history binding or day bound is invalid"
  header.days.forM fun row => do
    ensure (row.1 = writer.day row.2) "remote quota day key mismatch"
    writer.validateDay row.2
  ensure (header.days = []) "remote SQL quota header contains inline day rows"

def applyRemoteQuota (scope : HistoryScope) (t : HistoryTables ρ) (key : String)
    (changes : List (RemoteQuotaChange ρ)) : Except String (HistoryTables ρ × Bool) :=
  if changes = [] then .ok (t, false)
  else do
    changes.forM fun change => writer.validateDay change.quota
    ensure ((changes.map (·.sequence)).IsChain (· < ·))
      "remote quota changes are not in journal order"
    let stored ← t.quotaState key
    let header := stored.getD
      ⟨1, scope.profileId, scope.sourceId, scope.redactionProfile, 0, []⟩
    validateQuotaHeader writer scope header
    let present ← presentDays writer (t.namespaceRecords key) ∅
    let sizes := present.entries.foldl
      (fun sizes row => sizes.insert row.1 (writer.encodedSize row.2))
      (∅ : AList fun _ : String => Nat)
    let acc ← changes.foldlM (quotaChange writer key) ⟨t, header, present, sizes, false⟩
    ensure (acc.present.entries.length ≤ maxRemoteQuotaDays)
      "remote SQL quota day count exceeds its bound"
    ensure ((acc.sizes.entries.map (·.2)).sum ≤ maxRemoteQuotaBytes)
      "remote SQL quota payload exceeds its byte bound"
    pure (acc.tables.setState key (.quota acc.header), acc.changed)

end

end Generations
