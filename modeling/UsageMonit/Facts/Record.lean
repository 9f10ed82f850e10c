import Mathlib.Data.Finset.Sort
import Mathlib.Data.String.Basic
import UsageMonit.Ingest.State

/-!
# Usage event facts (`source_history/session_evidence.rs`)

A fact set of a thread is a list of records, one for each usage event, either the fact itself or a
tombstone. Complete batches of changes are staged beside the active set and replace it as a whole;
the active set is named by a manifest. This file holds the data and the checks on it, with
`applyFactRecord`, the merge of one change into a set.

Of a fact only its identity is read here: the other fields are its content `φ`, and the digest
proofs of a set are values of a type `β`. Their checks, and those on encoded sizes, are the fields
of `FactEnv`.
-/

namespace Facts

open Fallible Time Ingest

abbrev NodeId := String
abbrev ThreadId := String
abbrev UsageEventId := String
abbrev FactBatchId := String
abbrev ThreadShardKey := String
/-- A day, counted from the epoch. -/
abbrev NaiveDate := Int

scoped instance naiveDate_le_trans : IsTrans NaiveDate (· ≤ ·) := ⟨fun _ _ _ => le_trans⟩

scoped instance naiveDate_le_antisymm : Std.Antisymm (α := NaiveDate) (· ≤ ·) := ⟨fun _ _ => le_antisymm⟩

def maxFactBatchChanges : Nat := 250000
def maxFactGenerationRecords : Nat := 1000000
def maxFactRetentionDays : Int := 35
def maxFactRetentionUtcDays : Nat := 36
def factStagingTtlHours : Int := 24

def dateNaive (t : DateTime) : NaiveDate := Int.fdiv t (days 1)

def timestampMillis (t : DateTime) : Int := Int.fdiv t 1000000

/-! ## Records -/

structure SessionReplicaKey where
  sourceId : NodeId
  threadId : ThreadId
deriving DecidableEq

structure UsageEventFact (φ : Type) where
  replica : SessionReplicaKey
  eventId : UsageEventId
  occurredAt : DateTime
  content : φ
deriving DecidableEq

inductive UsageEventFactChange (φ : Type)
  | upsert (fact : UsageEventFact φ)
  | tombstone
deriving DecidableEq

structure UsageEventFactRecord (φ : Type) where
  eventId : UsageEventId
  occurredAt : DateTime
  revision : Nat
  change : UsageEventFactChange φ
deriving DecidableEq

structure FactCursor where
  factGeneration : Nat
  throughSequence : Nat
deriving DecidableEq

inductive FactBatchKind
  | snapshot
  | delta
deriving DecidableEq

inductive SourceKind
  | local
  | ssh
deriving DecidableEq

/-- Exact compare-and-swap identity of an active fact set. -/
structure ActiveFactVersion (β : Type) where
  activeGeneration : FactBatchId
  cursor : FactCursor
  remoteBinding : Option SourceHistoryRemoteBinding
  validatedDigests : List β
  retainedSince : Option DateTime
deriving DecidableEq

structure CompleteFactBatch (φ β : Type) where
  batchId : FactBatchId
  kind : FactBatchKind
  replica : SessionReplicaKey
  expectedActiveVersion : Option (ActiveFactVersion β)
  remoteBinding : Option SourceHistoryRemoteBinding
  validatedDigests : List β
  activateCursor : FactCursor
  completedAt : DateTime
  changes : List (UsageEventFactRecord φ)
deriving DecidableEq

structure StagedFactBatch (β : Type) where
  threadShardKey : ThreadShardKey
  batchId : FactBatchId
  kind : FactBatchKind
  replica : SessionReplicaKey
  expectedActiveVersion : Option (ActiveFactVersion β)
  remoteBinding : Option SourceHistoryRemoteBinding
  validatedDigests : List β
  retainedSince : Option DateTime
  activateCursor : FactCursor
  completedAt : DateTime
  shardDays : List NaiveDate
  changeCount : Nat
  recordCount : Nat
deriving DecidableEq

structure ActiveFactManifest (β : Type) where
  threadShardKey : ThreadShardKey
  replica : SessionReplicaKey
  activeGeneration : FactBatchId
  cursor : FactCursor
  remoteBinding : Option SourceHistoryRemoteBinding
  validatedDigests : List β
  retainedSince : Option DateTime
  activatedAt : DateTime
  shardDays : List NaiveDate
  recordCount : Nat
deriving DecidableEq

def ActiveFactManifest.version {β : Type} (manifest : ActiveFactManifest β) :
    ActiveFactVersion β where
  activeGeneration := manifest.activeGeneration
  cursor := manifest.cursor
  remoteBinding := manifest.remoteBinding
  validatedDigests := manifest.validatedDigests
  retainedSince := manifest.retainedSince

/-! ## Checks -/

/-- One profile, source and redaction profile, with the checks that are not modelled. -/
structure FactEnv (φ β : Type) where
  sourceId : NodeId
  /-- `ThreadShardKey::from_replica`. -/
  fromReplica : SessionReplicaKey → ThreadShardKey
  /-- `UsageEventFact::validate`. -/
  validateFact : UsageEventFact φ → Except String Unit
  validateFactDigestBindings : List β → Except String Unit
  /-- `validate_fact_digest_bindings_against_facts`. -/
  validateProof : SessionReplicaKey → List (UsageEventFact φ) → List β → Option DateTime →
    Except String Unit
  /-- The size limits of an encoded descriptor and an encoded manifest. -/
  encodeDescriptor : StagedFactBatch β → Except String Unit
  encodeManifest : ActiveFactManifest β → Except String Unit
  /-- The budget of one query. -/
  chargeRecords : List (UsageEventFactRecord φ) → Except String Unit

section
variable {φ β : Type} (env : FactEnv φ β)

def UsageEventFactRecord.validate (record : UsageEventFactRecord φ) : Except String Unit := do
  ensure (record.revision ≠ 0) "usage event fact revision must be nonzero"
  match record.change with
  | .upsert fact =>
    env.validateFact fact
    ensure (fact.eventId = record.eventId ∧ fact.occurredAt = record.occurredAt)
      "usage event fact record key does not match its payload"
  | .tombstone => pure ()

/-- The live facts of a list of records. -/
def liveFacts (records : List (UsageEventFactRecord φ)) : List (UsageEventFact φ) :=
  records.filterMap fun record => match record.change with
    | .upsert fact => some fact
    | .tombstone => none

def FactCursor.validate (cursor : FactCursor) : Except String Unit :=
  ensure (cursor.factGeneration ≠ 0) "fact generation must be nonzero"

def validateNamespace (binding : SourceHistoryRemoteBinding) (sourceId : NodeId) :
    Except String Unit :=
  ensure (binding.source.nodeId = sourceId)
    "remote history binding source does not match its namespace"

def ActiveFactVersion.validate (version : ActiveFactVersion β) : Except String Unit := do
  version.cursor.validate
  env.validateFactDigestBindings version.validatedDigests
  checkSome version.remoteBinding fun binding => validateNamespace binding binding.source.nodeId

def validateFactRecordSpan (records : List (UsageEventFactRecord φ)) : Except String Unit :=
  match (records.map (·.occurredAt)).min?, (records.map (·.occurredAt)).max? with
  | some first, some last => ensure (¬ days maxFactRetentionDays < last - first)
      "fact records span more than the 35-day retention window"
  | _, _ => .ok ()

def validateFactGenerationLimits (records : List (UsageEventFactRecord φ)) :
    Except String Unit := do
  ensure (records.length ≤ maxFactGenerationRecords) "fact generation contains too many records"
  validateFactRecordSpan records

def validateFactBatchChangeCount (changeCount : Nat) : Except String Unit :=
  ensure (changeCount ≤ maxFactBatchChanges) "fact batch contains too many changes"

/-- The record is valid and its fact is of this replica. -/
def checkReplica (message : String) (record : UsageEventFactRecord φ)
    (replica : SessionReplicaKey) : Except String Unit := do
  record.validate env
  match record.change with
  | .upsert fact => ensure (fact.replica = replica) message
  | .tombstone => pure ()

def validateFactRecordNamespace (record : UsageEventFactRecord φ) (replica : SessionReplicaKey) :
    Except String Unit :=
  checkReplica env "usage event fact replica does not match its fact batch" record replica

/-- The relation of a batch to the version it replaces. -/
def validateReplacement [DecidableEq β] (batch : CompleteFactBatch φ β) : Except String Unit :=
  match batch.kind with
  | .snapshot => ensure (∀ expected, batch.expectedActiveVersion = some expected →
        ¬ (expected.cursor = batch.activateCursor ∧ expected.remoteBinding = batch.remoteBinding))
      "a fact snapshot cannot replace active facts at the same cursor"
  | .delta => do
    let expected ← okOr batch.expectedActiveVersion "a fact delta requires an expected active cursor"
    ensure (expected.remoteBinding = batch.remoteBinding)
      "a fact delta cannot change its remote source binding"
    ensure (expected.cursor.factGeneration = batch.activateCursor.factGeneration)
      "a fact delta cannot change fact generation"
    ensure (¬ batch.activateCursor.throughSequence < expected.cursor.throughSequence)
      "a fact delta cursor cannot move backwards"
    ensure (¬ (batch.changes ≠ [] ∧
        batch.activateCursor.throughSequence = expected.cursor.throughSequence))
      "a nonempty fact delta must advance its cursor"

def CompleteFactBatch.validate [DecidableEq β] (batch : CompleteFactBatch φ β) :
    Except String Unit := do
  batch.activateCursor.validate
  env.validateFactDigestBindings batch.validatedDigests
  validateFactBatchChangeCount batch.changes.length
  validateFactRecordSpan batch.changes
  checkSome batch.expectedActiveVersion (·.validate env)
  checkSome batch.remoteBinding fun binding => validateNamespace binding batch.replica.sourceId
  validateReplacement batch
  batch.changes.forM fun record =>
    checkReplica env "fact batch contains a different session replica" record batch.replica

def validateFactRemoteBinding (sourceKind : SourceKind) (sourceId : NodeId)
    (remoteBinding : Option SourceHistoryRemoteBinding) : Except String Unit :=
  match sourceKind, remoteBinding with
  | .local, none => .ok ()
  | .ssh, some binding => validateNamespace binding sourceId
  | .local, some _ => .error "local fact set has a remote binding"
  | .ssh, none => .error "SSH fact set is missing its remote binding"

/-! ## Merging changes -/

/-- Merges one change into the records of a set; the answer says whether it took effect. -/
def applyFactRecord [DecidableEq φ] (records : List (UsageEventFactRecord φ))
    (incoming : UsageEventFactRecord φ) :
    Except String (List (UsageEventFactRecord φ) × Bool) := do
  incoming.validate env
  match records.find? fun record => record.eventId == incoming.eventId with
  | none => pure (records ++ [incoming], true)
  | some existing =>
    ensure (incoming.occurredAt = existing.occurredAt)
      ("usage event ID " ++ incoming.eventId ++ " changed occurredAt across revisions")
    if existing.revision < incoming.revision then
      pure (records.map fun record =>
        if record.eventId = incoming.eventId then incoming else record, true)
    else if incoming.revision < existing.revision then pure (records, false)
    else do
      ensure (incoming = existing)
        ("conflicting usage event fact changes share event ID " ++ incoming.eventId ++
          " and revision " ++ toString incoming.revision)
      pure (records, false)

/-- Merges the changes of a batch, in order; those below the retention floor are left out. -/
def applyFactChanges [DecidableEq φ] (replica : SessionReplicaKey)
    (retainedSince : Option DateTime) :
    List (UsageEventFactRecord φ) → List (UsageEventFactRecord φ) →
    Except String (List (UsageEventFactRecord φ))
  | records, [] => .ok records
  | records, change :: changes => do
    validateFactRecordNamespace env change replica
    if retainedSince.any (fun cutoff => decide (change.occurredAt < cutoff)) then
      applyFactChanges replica retainedSince records changes
    else do
      let applied ← applyFactRecord env records change
      applyFactChanges replica retainedSince applied.1 changes

def recordLe (a b : UsageEventFactRecord φ) : Bool :=
  decide (a.occurredAt < b.occurredAt) ||
    (decide (a.occurredAt = b.occurredAt) && decide (a.eventId ≤ b.eventId))

def sortFactRecords (records : List (UsageEventFactRecord φ)) : List (UsageEventFactRecord φ) :=
  records.insertionSort fun a b => recordLe a b = true

/-- The days of the records, as the `BTreeSet` that collects them. -/
def recordDaySet (records : List (UsageEventFactRecord φ)) : Finset NaiveDate :=
  (records.map fun record => dateNaive record.occurredAt).toFinset

def recordDays (records : List (UsageEventFactRecord φ)) : List NaiveDate :=
  (recordDaySet records).sort (· ≤ ·)

/-! ## Descriptors and manifests -/

def validateSortedUniqueDays (shardDays : List NaiveDate) : Except String Unit := do
  ensure (shardDays.length ≤ maxFactRetentionUtcDays)
    "fact shard set exceeds the 35-day retention window"
  ensure (shardDays.IsChain (· < ·)) "fact shard days must be sorted and unique"
  match shardDays.head?, shardDays.getLast? with
  | some first, some last =>
    ensure (¬ maxFactRetentionDays < last - first)
      "fact shard set exceeds the 35-day retention window"
  | _, _ => pure ()

/-- The cursor of a descriptor against the version it replaces. -/
def validateStagedReplacement [DecidableEq β] (descriptor : StagedFactBatch β) :
    Except String Unit :=
  match descriptor.kind with
  | .delta => do
    let expected ← okOr descriptor.expectedActiveVersion
      "staged fact delta has no expected active cursor"
    ensure (expected.cursor.factGeneration = descriptor.activateCursor.factGeneration ∧
        expected.remoteBinding = descriptor.remoteBinding ∧
        ¬ descriptor.activateCursor.throughSequence < expected.cursor.throughSequence ∧
        ¬ (0 < descriptor.changeCount ∧
          descriptor.activateCursor.throughSequence = expected.cursor.throughSequence))
      "staged fact delta cursor is invalid"
  | .snapshot => ensure (∀ expected, descriptor.expectedActiveVersion = some expected →
        ¬ (expected.cursor = descriptor.activateCursor ∧
          expected.remoteBinding = descriptor.remoteBinding))
      "staged fact snapshot cannot replace facts at the same cursor"

def validateStagedBatch [DecidableEq β] (descriptor : StagedFactBatch β) (batchId : FactBatchId) :
    Except String Unit := do
  ensure (descriptor.batchId = batchId ∧ descriptor.replica.sourceId = env.sourceId ∧
      env.fromReplica descriptor.replica = descriptor.threadShardKey)
    "staged fact batch envelope does not match"
  descriptor.activateCursor.validate
  env.validateFactDigestBindings descriptor.validatedDigests
  ensure (descriptor.changeCount ≤ maxFactBatchChanges ∧
      descriptor.recordCount ≤ maxFactGenerationRecords)
    "staged fact batch exceeds record limits"
  checkSome descriptor.expectedActiveVersion (·.validate env)
  checkSome descriptor.remoteBinding fun binding => validateNamespace binding env.sourceId
  ensure (descriptor.retainedSince = descriptor.expectedActiveVersion.bind (·.retainedSince))
    "staged fact batch retention floor does not match its expected active version"
  validateStagedReplacement descriptor
  validateSortedUniqueDays descriptor.shardDays

def validateActiveManifest (manifest : ActiveFactManifest β) (replica : SessionReplicaKey)
    (shardKey : ThreadShardKey) : Except String Unit := do
  ensure (manifest.replica = replica ∧ manifest.threadShardKey = shardKey ∧
      env.fromReplica manifest.replica = manifest.threadShardKey)
    "active fact manifest envelope is invalid"
  manifest.cursor.validate
  env.validateFactDigestBindings manifest.validatedDigests
  checkSome manifest.remoteBinding fun binding => validateNamespace binding env.sourceId
  ensure (manifest.recordCount ≤ maxFactGenerationRecords)
    "active fact manifest exceeds the record limit"
  validateSortedUniqueDays manifest.shardDays

end

end Facts
