import UsageMonit.Lib.Outcome
import UsageMonit.Replica.Resolve

/-!
# The steps of a resolution on one source

A resolution works on the buckets of a source in steps: the groups of a thread are removed or
suppressed, bucket by bucket, facts are added, and buckets are marked. `SumsUp` says what a bucket
should be in the end: its residual (`bucketBase`) with the sum of its project groups.

The running totals of a bucket keep unknown long-context units when the group they came from is
removed, and a bucket keeps the flag a rebuild from such totals sets. `readsKnown` excludes these
rebuilds: what is read is unknown only where something that stays is.
-/

namespace Replica

open Fallible Time Protocol History

inductive GroupStep
  /-- `remove_replica_groups`, for one offset of a thread. -/
  | remove (thread : ThreadId) (offset : Nat)
  /-- `suppress_unbound_replica_buckets`, for one offset of a thread. -/
  | suppressThread (thread : ThreadId) (selection : ReplicaBucketSelection) (offset : Nat)
  /-- `suppress_unbound_replica_buckets`, for one opaque position. -/
  | suppressOpaque (thread : ThreadId) (selection : ReplicaBucketSelection) (position : Nat)
  | addFact (compatible : Bool) (fact : UsageEventFact)
  | ensureAuthority (rangeStart rangeEnd : DateTime)
  | markUnhandled (thread : ThreadId) (rangeStart rangeEnd : DateTime)
      (handledRanges : List (DateTime × DateTime))

namespace GroupStep

def run (current : ProtocolRevisions) (s : SourceState) :
    GroupStep → Except String SourceState
  | remove thread offset => SourceState.removeReplicaGroup thread s offset
  | suppressThread thread selection offset => s.suppressThreadBucket thread selection offset
  | suppressOpaque thread selection position => s.suppressOpaqueBucket thread selection position
  | addFact compatible fact => s.addFact current compatible fact
  | ensureAuthority rangeStart rangeEnd =>
    .ok (s.ensureAuthorityProjectConsistency rangeStart rangeEnd)
  | markUnhandled thread rangeStart rangeEnd handledRanges =>
    .ok (s.markUnhandledAuthorityLowerBound thread rangeStart rangeEnd handledRanges)

/-- The thread whose groups a step removes or adds. -/
def thread : GroupStep → Option ThreadId
  | remove thread _ => some thread
  | suppressThread thread _ _ => some thread
  | suppressOpaque thread _ _ => some thread
  | addFact _ fact => some fact.replica.threadId
  | ensureAuthority _ _ => none
  | markUnhandled _ _ _ _ => none

end GroupStep

/-! ## What a rebuild reads -/

namespace SourceState

/-- A group of unknown units stays in a bucket when the groups of some threads are marked. -/
def staysUnknown (s : SourceState) (position : Nat) (threads : List ThreadId) : Prop :=
  ∃ entry ∈ (s.bucketAt position).projectGroups.zipIdx,
    (s.indexAt position).removedGroups.getD entry.2 false = false ∧
      (∀ thread ∈ threads, entry.2 ∉ (s.indexAt position).groupPositions thread) ∧
      entry.1.apiLongContextExtraCostUnits = none

instance (s : SourceState) (position : Nat) (threads : List ThreadId) :
    Decidable (s.staysUnknown position threads) :=
  inferInstanceAs (Decidable (∃ _ ∈ _, _ ∧ _ ∧ _))

/-- The residual a bucket is rebuilt with in the end, once it is touched. -/
def keptResidual (s : SourceState) (position : Nat) : Option BucketProjectResidual :=
  (s.touched.lookup (s.startOf position)).or (s.indexAt position).residual

def unknownResidual (residual : Option BucketProjectResidual) : Prop :=
  ∃ r ∈ residual, r.apiLongContextExtraCostUnits = none

instance (residual : Option BucketProjectResidual) : Decidable (unknownResidual residual) :=
  inferInstanceAs (Decidable (∃ _ ∈ _, _))

/-- A removal that reads unknown units leaves a residual or a group of unknown units. -/
def removalReadsKnown (s : SourceState) (thread : ThreadId) (position : Nat) : Prop :=
  unknownResidual (s.indexAt position).residual ∨
      (s.indexAt position).activeTotals.apiLongContextExtraCostUnits = none →
    unknownResidual (s.keptResidual position) ∨ s.staysUnknown position [thread]

/-- A suppression, which drops the residual, that reads unknown units leaves a group of them. -/
def suppressionReadsKnown (s : SourceState) (thread : ThreadId) (position : Nat) : Prop :=
  (s.indexAt position).activeTotals.apiLongContextExtraCostUnits = none →
    s.staysUnknown position ["", thread]

instance (s : SourceState) (thread : ThreadId) (position : Nat) :
    Decidable (s.removalReadsKnown thread position) := inferInstanceAs (Decidable (_ → _))

instance (s : SourceState) (thread : ThreadId) (position : Nat) :
    Decidable (s.suppressionReadsKnown thread position) := inferInstanceAs (Decidable (_ → _))

/-- The position at an offset of a thread, if its bucket is active there. -/
def activePosition (s : SourceState) (thread : ThreadId) (offset : Nat) : Option Nat :=
  ((s.threads thread)[offset]?.filter (·.active)).map (·.bucketPosition)

end SourceState

namespace GroupStep

/-- The bucket whose groups a step removes. -/
def removesFrom (s : SourceState) : GroupStep → Option Nat
  | remove thread offset => s.activePosition thread offset
  | _ => none

/-- The bucket a step suppresses: its residual is dropped, and the flag of unknown units is reset. -/
def suppresses (s : SourceState) : GroupStep → Option Nat
  | suppressThread thread selection offset =>
    (s.activePosition thread offset).filter fun position => selection.contains (s.startOf position)
  | suppressOpaque _ selection position =>
    if (s.indexAt position).opaqueActive = true ∧ selection.contains (s.startOf position) ∧
        ¬ s.bucketIsFullyAttributed position then some position
    else none
  | _ => none

/-- A rebuild of the step reads unknown units only if some of what stays is unknown. -/
def readsKnown (s : SourceState) (step : GroupStep) : Prop :=
  ∀ thread ∈ step.thread,
    (∀ position ∈ step.removesFrom s, s.removalReadsKnown thread position) ∧
      ∀ position ∈ step.suppresses s, s.suppressionReadsKnown thread position

instance (s : SourceState) (step : GroupStep) : Decidable (step.readsKnown s) :=
  inferInstanceAs (Decidable (∀ _ ∈ _, (∀ _ ∈ _, _) ∧ ∀ _ ∈ _, _))

end GroupStep

/-! ## Runs of steps -/

section
variable (current : ProtocolRevisions) (source : ReplicaSource) (steps : List GroupStep)

def Runs (s : SourceState) : Prop :=
  steps.foldlM (GroupStep.run current) (buildSourceState source) = .ok s

/-- Every rebuild in the steps on a source reads known units, or leaves some unknown. -/
def ReadsKnown : Prop :=
  Along (GroupStep.run current) GroupStep.readsKnown (buildSourceState source) steps

def suppressedBy : List Nat :=
  trail (GroupStep.run current) (fun s step => (step.suppresses s).toList)
    (buildSourceState source) steps

end

/-! ## Buckets rebuilt from scratch -/

/-- The residual and the flag that a bucket of a source is rebuilt from: its own, or nothing for a
new bucket and for one that was suppressed. -/
def bucketBase (source : ReplicaSource) (suppressed : List Nat) (position : Nat) :
    Option (BucketProjectResidual × Bool) :=
  match source.buckets[position]? with
  | some bucket =>
    if position ∈ suppressed then some ({}, false)
    else (bucketProjectResidual bucket).map fun residual =>
      (residual, bucket.longContextUsageUnknown)
  | none => some ({}, false)

/-- The totals of a bucket are a residual with the sum of its project groups. -/
structure SumsUp (residual : BucketProjectResidual) (unknown : Bool)
    (bucket : LocalHalfHourBucket) : Prop where
  tokenUsage : bucket.tokenUsage =
    residual.tokenUsage.addAssign (projectGroupTotals bucket.projectGroups).tokenUsage
  estimatedCostUnits : bucket.estimatedCostUnits = saturatingAdd 128 residual.estimatedCostUnits
    (projectGroupTotals bucket.projectGroups).estimatedCostUnits
  apiLongContextExtraCostUnits : bucket.apiLongContextExtraCostUnits =
    addOptionalUnits residual.apiLongContextExtraCostUnits
      (projectGroupTotals bucket.projectGroups).apiLongContextExtraCostUnits
  longContextUsageUnknown : bucket.longContextUsageUnknown =
    (unknown || bucket.apiLongContextExtraCostUnits.isNone)
  callCount : bucket.callCount = saturatingAdd 64 residual.callCount
    (projectGroupTotals bucket.projectGroups).callCount

/-- Two buckets with the same groups and the same totals. -/
structure SameUsage (bucket bucket' : LocalHalfHourBucket) : Prop where
  tokenUsage : bucket'.tokenUsage = bucket.tokenUsage
  estimatedCostUnits : bucket'.estimatedCostUnits = bucket.estimatedCostUnits
  apiLongContextExtraCostUnits :
    bucket'.apiLongContextExtraCostUnits = bucket.apiLongContextExtraCostUnits
  longContextUsageUnknown : bucket'.longContextUsageUnknown = bucket.longContextUsageUnknown
  callCount : bucket'.callCount = bucket.callCount
  projectGroups : bucket'.projectGroups = bucket.projectGroups

/-- A bucket at the end of the steps on a source: rebuilt from its base, or as it was. -/
def Reconciled (source : ReplicaSource) (suppressed : List Nat) (s : SourceState)
    (position : Nat) : Prop :=
  let bucket := s.finish.bucketAt position
  match s.touched.lookup (s.startOf position) with
  | some _ => ∃ residual unknown, bucketBase source suppressed position = some (residual, unknown) ∧
      SumsUp residual unknown bucket
  | none => ∃ before, source.buckets[position]? = some before ∧ SameUsage before bucket

end Replica
