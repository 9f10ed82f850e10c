import UsageMonit.Facts.Record

/-!
# Fact publication (`source_history/sqlite_evidence.rs`)

A complete batch becomes the active set of its thread in four steps, run by independent workers:
`stageFactBatch` writes its generation and a descriptor, `prevalidateFactBatch` checks the
generation and writes the candidate manifest, `publishFactBatch` swaps the active manifest, and
`cleanupFactPublication` removes what is left over. Each write is one transaction, and the first
two operations read before it in a transaction of their own: they take the database as it stood
then and as it stands now.

The database is the part of the history database of one profile, source and redaction profile that
these operations use: the rows of the fact generations and the states of the facts.
-/

namespace Facts

open Fallible Time Ingest

/-! ## The database -/

structure FactNamespace where
  shardKey : ThreadShardKey
  generation : FactBatchId
deriving DecidableEq

structure HistoryRow (φ : Type) where
  nspace : FactNamespace
  record : UsageEventFactRecord φ
deriving DecidableEq

inductive Phase
  | digests
  | facts
  | staging
  | orphans
  | done
deriving DecidableEq

/-- A position in the order `(sort_time, record_key)` of the rows of a namespace. -/
structure RowCursor where
  nspace : FactNamespace
  sortTime : Int
  key : String
deriving DecidableEq

/-- The replacement of one active set by its retained records. -/
structure FactJob (β : Type) where
  key : ThreadShardKey
  expected : ActiveFactManifest β
  replacement : FactBatchId
  cursor : Option RowCursor
  seenCount : Nat
  seenDays : Finset NaiveDate
  retainedCount : Nat
  retainedDays : Finset NaiveDate
  retireNamespace : Option FactNamespace
  cancelled : Bool
deriving DecidableEq

structure Progress (β : Type) where
  cutoff : DateTime
  trustedAt : DateTime
  phase : Phase
  cursor : Option RowCursor
  stateCursor : String
  job : Option (FactJob β)
deriving DecidableEq

structure FactDatabase (φ β : Type) where
  source : Option SourceKind
  records : List (HistoryRow φ)
  manifests : AList fun _ : ThreadShardKey => ActiveFactManifest β
  staged : AList fun _ : FactBatchId => StagedFactBatch β
  stagedAt : AList fun _ : FactBatchId => DateTime
  publications : AList fun _ : FactBatchId => ActiveFactManifest β
  progress : Option (Progress β)

variable {φ β : Type}

namespace FactDatabase

def rows (db : FactDatabase φ β) (nspace : FactNamespace) : List (UsageEventFactRecord φ) :=
  (db.records.filter fun row => row.nspace = nspace).map (·.record)

def putRecord (db : FactDatabase φ β) (nspace : FactNamespace) (record : UsageEventFactRecord φ) :
    FactDatabase φ β :=
  { db with
    records := db.records.filter (fun row =>
      ¬ (row.nspace = nspace ∧ row.record.eventId = record.eventId)) ++ [⟨nspace, record⟩] }

def putRecords (db : FactDatabase φ β) (nspace : FactNamespace) :
    List (UsageEventFactRecord φ) → FactDatabase φ β
  | [] => db
  | record :: records => (db.putRecord nspace record).putRecords nspace records

def deleteNamespace (db : FactDatabase φ β) (nspace : FactNamespace) : FactDatabase φ β :=
  { db with records := db.records.filter fun row => row.nspace ≠ nspace }

def deleteStaging (db : FactDatabase φ β) (batchId : FactBatchId) : FactDatabase φ β :=
  { db with
    staged := db.staged.erase batchId
    publications := db.publications.erase batchId
    stagedAt := db.stagedAt.erase batchId }

end FactDatabase

def rowLe (a b : UsageEventFactRecord φ) : Bool :=
  decide (timestampMillis a.occurredAt < timestampMillis b.occurredAt) ||
    (decide (timestampMillis a.occurredAt = timestampMillis b.occurredAt) &&
      decide (a.eventId ≤ b.eventId))

/-- `database::records`, in the order of the index. -/
def FactDatabase.readRecords (db : FactDatabase φ β) (nspace : FactNamespace) :
    List (UsageEventFactRecord φ) :=
  (db.rows nspace).insertionSort fun a b => rowLe a b = true

/-! ## Reading -/

/-- The checks that the database makes after a write: the caps on facts and staging. -/
structure StoreEnv (φ β : Type) extends FactEnv φ β where
  ensureSqlFactCap : FactDatabase φ β → Except String Unit

variable (env : StoreEnv φ β)

def loadSourceMetadata (db : FactDatabase φ β) : Except String SourceKind :=
  okOr db.source "source metadata is missing"

def readFactManifest (db : FactDatabase φ β) (replica : SessionReplicaKey)
    (shardKey : ThreadShardKey) : Except String (Option (ActiveFactManifest β)) :=
  match db.manifests.lookup shardKey with
  | none => .ok none
  | some manifest => do
    validateActiveManifest env.toFactEnv manifest replica shardKey
    pure (some manifest)

/-- The checks on the records of a generation, one by one. -/
def checkGenerationRecords (manifest : ActiveFactManifest β) :
    List UsageEventId → List (UsageEventFactRecord φ) → Except String Unit
  | _, [] => .ok ()
  | ids, record :: records => do
    validateFactRecordNamespace env.toFactEnv record manifest.replica
    ensure (record.eventId ∉ ids) "fact generation contains duplicate usage event IDs"
    ensure (¬ manifest.retainedSince.any (fun cutoff => decide (record.occurredAt < cutoff)) = true)
      "active fact generation contains a record below its retention floor"
    checkGenerationRecords manifest (record.eventId :: ids) records

def readFactGeneration (db : FactDatabase φ β) (manifest : ActiveFactManifest β) :
    Except String (List (UsageEventFactRecord φ)) := do
  let records := db.readRecords ⟨manifest.threadShardKey, manifest.activeGeneration⟩
  env.chargeRecords records
  checkGenerationRecords env manifest [] records
  ensure (records.length = manifest.recordCount ∧ recordDays records = manifest.shardDays)
    "active fact generation does not match its manifest"
  let records := sortFactRecords records
  validateFactGenerationLimits records
  pure records

def readDescriptor [DecidableEq β] (db : FactDatabase φ β) (batchId : FactBatchId) :
    Except String (StagedFactBatch β) := do
  let descriptor ← okOr (db.staged.lookup batchId) "staged fact batch is missing"
  validateStagedBatch env.toFactEnv descriptor batchId
  pure descriptor

variable [DecidableEq φ] [DecidableEq β]

/-- The active version of a thread is the one that the batch was made from. -/
def ensureVersion (current : Option (ActiveFactManifest β))
    (expected : Option (ActiveFactVersion β)) (message : String) : Except String Unit :=
  ensure (current.map (·.version) = expected) message

/-! ## Staging -/

/-- What the read transaction of `sqlite_stage_fact_batch` returns. -/
def readStageBase (db : FactDatabase φ β) (batch : CompleteFactBatch φ β) : Except String
    (SourceKind × Option (ActiveFactManifest β) × List (UsageEventFactRecord φ)) := do
  let source ← loadSourceMetadata db
  validateFactRemoteBinding source env.sourceId batch.remoteBinding
  let current ← readFactManifest env db batch.replica (env.fromReplica batch.replica)
  ensureVersion current batch.expectedActiveVersion "active fact version changed before staging"
  match batch.kind, current with
  | .delta, some manifest => do
    let records ← readFactGeneration env db manifest
    pure (source, current, records)
  | _, _ => pure (source, current, [])

/-- The descriptor of a batch and the records of its generation. -/
def stageCandidate (batch : CompleteFactBatch φ β) (current : Option (ActiveFactManifest β))
    (records : List (UsageEventFactRecord φ)) :
    Except String (StagedFactBatch β × List (UsageEventFactRecord φ)) := do
  let retainedSince := current.bind (·.retainedSince)
  let records ← applyFactChanges env.toFactEnv batch.replica retainedSince records batch.changes
  let records := sortFactRecords records
  validateFactGenerationLimits records
  env.validateProof batch.replica (liveFacts records) batch.validatedDigests retainedSince
  let descriptor := {
    threadShardKey := env.fromReplica batch.replica
    batchId := batch.batchId
    kind := batch.kind
    replica := batch.replica
    expectedActiveVersion := batch.expectedActiveVersion
    remoteBinding := batch.remoteBinding
    validatedDigests := batch.validatedDigests
    retainedSince
    activateCursor := batch.activateCursor
    completedAt := batch.completedAt
    shardDays := recordDays records
    changeCount := batch.changes.length
    recordCount := records.length }
  env.encodeDescriptor descriptor
  pure (descriptor, records)

/-- The write transaction of `sqlite_stage_fact_batch`. -/
def writeStage (db : FactDatabase φ β) (batch : CompleteFactBatch φ β) (source : SourceKind)
    (descriptor : StagedFactBatch β) (records : List (UsageEventFactRecord φ)) (now : DateTime) :
    Except String (FactDatabase φ β) := do
  let latestSource ← loadSourceMetadata db
  ensure (latestSource = source) "source kind changed before fact staging"
  let latest ← readFactManifest env db batch.replica (env.fromReplica batch.replica)
  ensureVersion latest batch.expectedActiveVersion "active fact version changed before staging"
  ensure (db.staged.lookup batch.batchId = none) "fact batch is already staged"
  let nspace : FactNamespace := ⟨env.fromReplica batch.replica, batch.batchId⟩
  ensure (db.rows nspace = [] ∧ latest.map (·.activeGeneration) ≠ some batch.batchId)
    "fact generation already exists for staged batch"
  let db := db.putRecords nspace records
  let db := { db with
    staged := db.staged.insert batch.batchId descriptor
    stagedAt := db.stagedAt.insert batch.batchId now }
  env.ensureSqlFactCap db
  pure db

/-- `sqlite_stage_fact_batch`, with the database of its read and of its write. -/
def stageFactBatch (read write : FactDatabase φ β) (batch : CompleteFactBatch φ β)
    (now : DateTime) : Except String (FactDatabase φ β) := do
  batch.validate env.toFactEnv
  ensure (batch.replica.sourceId = env.sourceId) "fact batch source does not match its namespace"
  let base ← readStageBase env read batch
  let candidate ← stageCandidate env batch base.2.1 base.2.2
  writeStage env write batch base.1 candidate.1 candidate.2 now

/-! ## Prevalidation -/

inductive PrevalidatedFactPublicationMode (β : Type)
  | noOp
  | publish (manifest : ActiveFactManifest β) (previousActiveGeneration : Option FactBatchId)
deriving DecidableEq

structure PrevalidatedFactPublication (β : Type) where
  descriptor : StagedFactBatch β
  mode : PrevalidatedFactPublicationMode β
deriving DecidableEq

/-- The batch is the active one already. -/
def AlreadyActive (current : Option (ActiveFactManifest β)) (descriptor : StagedFactBatch β) :
    Prop :=
  ∃ manifest ∈ current, manifest.activeGeneration = descriptor.batchId ∧
    manifest.cursor = descriptor.activateCursor ∧
    manifest.remoteBinding = descriptor.remoteBinding

instance (current : Option (ActiveFactManifest β)) (descriptor : StagedFactBatch β) :
    Decidable (AlreadyActive current descriptor) := by
  unfold AlreadyActive
  infer_instance

/-- A delta that moves neither the cursor nor the proofs. -/
def EmptyDelta (descriptor : StagedFactBatch β) : Prop :=
  descriptor.kind = .delta ∧ ∃ expected ∈ descriptor.expectedActiveVersion,
    expected.cursor = descriptor.activateCursor ∧
    expected.validatedDigests = descriptor.validatedDigests

instance (descriptor : StagedFactBatch β) : Decidable (EmptyDelta descriptor) := by
  unfold EmptyDelta
  infer_instance

/-- The manifest that activates a staged batch. -/
def candidateManifest (descriptor : StagedFactBatch β) : ActiveFactManifest β where
  threadShardKey := descriptor.threadShardKey
  replica := descriptor.replica
  activeGeneration := descriptor.batchId
  cursor := descriptor.activateCursor
  remoteBinding := descriptor.remoteBinding
  validatedDigests := descriptor.validatedDigests
  retainedSince := descriptor.retainedSince
  activatedAt := descriptor.completedAt
  shardDays := descriptor.shardDays
  recordCount := descriptor.recordCount

/-- What the read transaction of `sqlite_prevalidate_fact_batch` returns. -/
def readPrevalidation (db : FactDatabase φ β) (batchId : FactBatchId) : Except String
    (StagedFactBatch β × Option (ActiveFactManifest β) × Option (ActiveFactManifest β)) := do
  let source ← loadSourceMetadata db
  let descriptor ← readDescriptor env db batchId
  validateFactRemoteBinding source env.sourceId descriptor.remoteBinding
  let current ← readFactManifest env db descriptor.replica descriptor.threadShardKey
  if AlreadyActive current descriptor then pure (descriptor, current, none)
  else do
    ensureVersion current descriptor.expectedActiveVersion
      "active fact version changed before activation"
    if EmptyDelta descriptor then pure (descriptor, current, none)
    else do
      let manifest := candidateManifest descriptor
      let records ← readFactGeneration env db manifest
      env.validateProof descriptor.replica (liveFacts records) descriptor.validatedDigests
        descriptor.retainedSince
      pure (descriptor, current, some manifest)

/-- `sqlite_prevalidate_fact_batch`, with the database of its read and of its write. -/
def prevalidateFactBatch (read write : FactDatabase φ β) (batchId : FactBatchId) :
    Except String (PrevalidatedFactPublication β × FactDatabase φ β) := do
  let checked ← readPrevalidation env read batchId
  match checked.2.2 with
  | none => pure (⟨checked.1, .noOp⟩, write)
  | some manifest => do
    env.encodeManifest manifest
    let persisted ← readDescriptor env write batchId
    ensure (persisted = checked.1) "staged fact descriptor changed after prevalidation"
    let db := { write with publications := write.publications.insert batchId manifest }
    env.ensureSqlFactCap db
    pure (⟨checked.1, .publish manifest (checked.2.1.map (·.activeGeneration))⟩, db)

/-! ## Publication and cleanup -/

structure FactActivationReport where
  activated : Bool
  cleanupPending : Bool
deriving DecidableEq

def publishCandidate (db : FactDatabase φ β) (descriptor : StagedFactBatch β)
    (current : Option (ActiveFactManifest β)) (manifest : ActiveFactManifest β) :
    Except String (FactActivationReport × FactDatabase φ β) := do
  ensureVersion current descriptor.expectedActiveVersion
    "active fact version changed before publication"
  let candidate ← okOr (db.publications.lookup descriptor.batchId)
    "prevalidated fact manifest is missing"
  validateActiveManifest env.toFactEnv candidate descriptor.replica descriptor.threadShardKey
  ensure (candidate = manifest) "prevalidated fact manifest changed before publication"
  pure (⟨true, false⟩, { db with
    manifests := db.manifests.insert descriptor.threadShardKey candidate
    publications := db.publications.erase descriptor.batchId })

def publishFactBatch (db : FactDatabase φ β) (publication : PrevalidatedFactPublication β) :
    Except String (FactActivationReport × FactDatabase φ β) := do
  let descriptor := publication.descriptor
  let source ← loadSourceMetadata db
  validateFactRemoteBinding source env.sourceId descriptor.remoteBinding
  let persisted ← readDescriptor env db descriptor.batchId
  ensure (persisted = descriptor) "staged fact descriptor changed after prevalidation"
  let current ← readFactManifest env db descriptor.replica descriptor.threadShardKey
  match publication.mode with
  | .noOp => do
    ensure (AlreadyActive current descriptor ∨ (EmptyDelta descriptor ∧
        current.map (·.version) = descriptor.expectedActiveVersion))
      "active fact version changed before no-op publication"
    pure (⟨false, false⟩, db)
  | .publish manifest _ => publishCandidate env db descriptor current manifest

/-- The generation that a cleanup deletes: the one that the batch replaced if the batch is active,
its own if it is not. -/
def cleanupGeneration (publication : PrevalidatedFactPublication β)
    (current : Option (ActiveFactManifest β)) : Option FactBatchId :=
  if current.map (·.activeGeneration) = some publication.descriptor.batchId then
    match publication.mode with
    | .publish _ (some previous) =>
      if previous ≠ publication.descriptor.batchId then some previous else none
    | _ => none
  else some publication.descriptor.batchId

def cleanupFactPublication (db : FactDatabase φ β) (publication : PrevalidatedFactPublication β) :
    Except String (FactDatabase φ β) := do
  let descriptor := publication.descriptor
  let current ← readFactManifest env db descriptor.replica descriptor.threadShardKey
  let db := match cleanupGeneration publication current with
    | some generation => db.deleteNamespace ⟨descriptor.threadShardKey, generation⟩
    | none => db
  let db := db.deleteStaging descriptor.batchId
  env.ensureSqlFactCap db
  pure db

end Facts
