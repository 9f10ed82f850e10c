import UsageMonit.Facts.Collect

/-!
# Runs of the fact store

Workers that publish batches and workers that collect evidence act on one database. A step commits
one transaction; a transaction that fails changes nothing and is no step. Batches are given by
their identifiers (`Batches`): an identifier is the random identity of one complete batch, and the
replacement generations of the collector are drawn from the same space (`generated`).

`World.past` is every database of the run so far, from which the reads of an operation before its
write are taken. A worker may prevalidate, publish and clean up any number of times; a prepared
unit of the collector is published once or abandoned.
-/

namespace Facts

open Time

variable {φ β : Type} [DecidableEq φ] [DecidableEq β]

/-- The complete batches of a run. -/
structure Batches (φ β : Type) where
  batch : FactBatchId → Option (CompleteFactBatch φ β)
  batchId_eq : ∀ {id b}, batch id = some b → b.batchId = id

structure World (φ β : Type) where
  db : FactDatabase φ β
  past : List (FactDatabase φ β)
  publications : List (PrevalidatedFactPublication β)
  /-- The batches activated so far, the last one first. -/
  activated : List FactBatchId
  /-- The prepared units, each with the identifier that was drawn for it. -/
  units : List (FactBatchId × PreparedEvidenceGc φ β)
  generated : List FactBatchId

def World.commit (w : World φ β) (db : FactDatabase φ β) : World φ β :=
  { w with db, past := db :: w.past }

variable (env : StoreEnv φ β) (batches : Batches φ β)

/-- A step of a worker that publishes facts. -/
inductive FactStep : World φ β → World φ β → Prop
  | stage {w : World φ β} {id : FactBatchId} {batch : CompleteFactBatch φ β}
      {read db : FactDatabase φ β} {now : DateTime} :
      batches.batch id = some batch → read ∈ w.past →
      stageFactBatch env read w.db batch now = .ok db → FactStep w (w.commit db)
  | prevalidate {w : World φ β} {id : FactBatchId} {read db : FactDatabase φ β}
      {publication : PrevalidatedFactPublication β} :
      read ∈ w.past → prevalidateFactBatch env read w.db id = .ok (publication, db) →
      FactStep w { w.commit db with publications := publication :: w.publications }
  | publish {w : World φ β} {publication : PrevalidatedFactPublication β}
      {report : FactActivationReport} {db : FactDatabase φ β} :
      publication ∈ w.publications → publishFactBatch env w.db publication = .ok (report, db) →
      FactStep w { w.commit db with
        activated := if report.activated then publication.descriptor.batchId :: w.activated
          else w.activated }
  | cleanup {w : World φ β} {publication : PrevalidatedFactPublication β}
      {db : FactDatabase φ β} :
      publication ∈ w.publications → cleanupFactPublication env w.db publication = .ok db →
      FactStep w (w.commit db)

/-- An identifier that nothing uses yet. -/
def World.Unused (batches : Batches φ β) (w : World φ β) (id : FactBatchId) : Prop :=
  batches.batch id = none ∧ id ∉ w.generated ∧
    ∀ db ∈ w.past, (∀ row ∈ db.records, row.nspace.generation ≠ id) ∧
      ∀ key manifest, db.manifests.lookup key = some manifest → manifest.activeGeneration ≠ id

/-- A step of the store of a source: of its publishers or of its collectors. -/
inductive SourceStep : World φ β → World φ β → Prop
  | fact {w w' : World φ β} : FactStep env batches w w' → SourceStep w w'
  | prepare {w : World φ β} {reads : Nat → FactDatabase φ β} {cutoff trustedAt : DateTime}
      {generated : FactBatchId} {scan : DigestScan} {budget : Nat}
      {unit : PreparedEvidenceGc φ β} :
      (∀ i, reads i ∈ w.past) → w.Unused batches generated →
      prepareGcEvidenceUnit env reads w.db cutoff trustedAt generated scan budget = .ok unit →
      SourceStep w { w with
        units := (generated, unit) :: w.units
        generated := generated :: w.generated }
  | collect {w : World φ β} {id : FactBatchId} {unit : PreparedEvidenceGc φ β}
      {db : FactDatabase φ β} :
      (id, unit) ∈ w.units → unit.publish w.db = .ok db →
      SourceStep w { w.commit db with units := w.units.filter fun prepared => prepared.1 ≠ id }
  | abandon {w : World φ β} {id : FactBatchId} :
      SourceStep w { w with units := w.units.filter fun prepared => prepared.1 ≠ id }

/-- The rows of a generation are those that a descriptor or a manifest counts. -/
def Matches (rows : List (UsageEventFactRecord φ)) (recordCount : Nat)
    (shardDays : List NaiveDate) : Prop :=
  rows.length = recordCount ∧ recordDays rows = shardDays ∧ (rows.map (·.eventId)).Nodup

/-- Nothing is staged or prepared, and the active sets, if there are any, are whole and come from
earlier batches. -/
structure Initial (w : World φ β) : Prop where
  past : w.past = [w.db]
  staged : w.db.staged = ∅
  publications : w.publications = []
  activated : w.activated = []
  units : w.units = []
  progress : w.db.progress = none
  active : ∀ key manifest, w.db.manifests.lookup key = some manifest →
    manifest.threadShardKey = key ∧ batches.batch manifest.activeGeneration = none ∧
    Matches (w.db.rows ⟨key, manifest.activeGeneration⟩) manifest.recordCount manifest.shardDays

/-- The states that publishers reach. -/
inductive FactReachable : World φ β → Prop
  | init {w : World φ β} : Initial batches w → FactReachable w
  | step {w w' : World φ β} : FactReachable w → FactStep env batches w w' → FactReachable w'

/-- The states that publishers and collectors reach together. -/
inductive SourceReachable : World φ β → Prop
  | init {w : World φ β} : Initial batches w → SourceReachable w
  | step {w w' : World φ β} : SourceReachable w → SourceStep env batches w w' → SourceReachable w'

end Facts
