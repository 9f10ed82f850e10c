import UsageMonit.Replica.Plan

/-!
# The bucket index of a source (`history_query/reconciliation.rs`)

While replicas are resolved, the project groups of a thread are found through an index of their
positions and are removed by a mark only (`tombstoneProjectGroups`); the marked groups go at the end,
once for a bucket (`compactTombstonedProjectGroups`). The residual of a bucket is what its project
groups do not account for; a bucket without one, or with a residual that is not zero, is opaque.

The state of a source holds its buckets beside the index of the buckets. A panic is an error here.
-/

namespace Replica

open Fallible Time Usage History

def duplicateSessionDedupUnavailableWarning : String := "duplicate_session_dedup_unavailable"
def duplicateSessionFactConflictWarning : String := "duplicate_session_fact_conflict"
def duplicateSessionProjectConflictWarning : String := "replica_project_conflict"
def duplicateSessionModelBreakdownPartial : String := "duplicate_session_model_breakdown_partial"
def duplicateSessionProjectBreakdownLowerBound : String :=
  "duplicate_session_project_breakdown_lower_bound"
def duplicateSessionWeeklyRebuiltFromBuckets : String :=
  "duplicate_session_weekly_rebuilt_from_buckets"
def remoteModelCatalogMismatchWarning : String := "remote_model_catalog_fingerprint_mismatch"

/-! ## Totals and residuals -/

/-- `ProjectGroupTotals`; an empty total has no long-context units. -/
abbrev ProjectGroupTotals := MetricTotals

def ProjectGroupTotals.addTotals (t other : ProjectGroupTotals) : ProjectGroupTotals where
  tokenUsage := t.tokenUsage.addAssign other.tokenUsage
  estimatedCostUnits := saturatingAdd 128 t.estimatedCostUnits other.estimatedCostUnits
  apiLongContextExtraCostUnits := addOptionalUnits t.apiLongContextExtraCostUnits
    other.apiLongContextExtraCostUnits
  apiEquivalentCost := t.apiEquivalentCost.addAssign other.apiEquivalentCost
  callCount := saturatingAdd 64 t.callCount other.callCount

def groupTotals (group : LocalProjectUsageGroup) : ProjectGroupTotals :=
  ⟨group.tokenUsage, group.estimatedCostUnits, group.apiLongContextExtraCostUnits,
    group.apiEquivalentCost, group.callCount⟩

def ProjectGroupTotals.addGroup (t : ProjectGroupTotals) (group : LocalProjectUsageGroup) :
    ProjectGroupTotals := ProjectGroupTotals.addTotals t (groupTotals group)

def checkedSub (a b : Nat) : Option Nat := if b ≤ a then some (a - b) else none

/-- Units left of a total: unknown when the total is, refused when only the part is. -/
def unitsDelta (total part : Option Nat) : Option (Option Nat) :=
  match total, part with
  | some total, some part => (checkedSub total part).map some
  | none, _ => some none
  | some _, none => none

def apiCostDelta (a older : ApiCostAmount) : Option ApiCostAmount := do
  let minimumPicoUsd ← checkedSub a.minimumPicoUsd older.minimumPicoUsd
  let maximumPicoUsd ← checkedSub a.maximumPicoUsd older.maximumPicoUsd
  let observedSamples ← checkedSub a.observedSamples older.observedSamples
  let pricedSamples ← checkedSub a.pricedSamples older.pricedSamples
  let observedTokens ← checkedSub a.observedTokens older.observedTokens
  let pricedTokens ← checkedSub a.pricedTokens older.pricedTokens
  pure ⟨minimumPicoUsd, maximumPicoUsd, observedSamples, pricedSamples, observedTokens, pricedTokens⟩

def ProjectGroupTotals.checkedDeltaFrom (t removed : ProjectGroupTotals) :
    Option ProjectGroupTotals := do
  let tokenUsage ← t.tokenUsage.deltaFrom removed.tokenUsage
  let estimatedCostUnits ← checkedSub t.estimatedCostUnits removed.estimatedCostUnits
  let units ← unitsDelta t.apiLongContextExtraCostUnits removed.apiLongContextExtraCostUnits
  let apiEquivalentCost ← apiCostDelta t.apiEquivalentCost removed.apiEquivalentCost
  let callCount ← checkedSub t.callCount removed.callCount
  pure ⟨tokenUsage, estimatedCostUnits, units, apiEquivalentCost, callCount⟩

def projectGroupTotals (groups : List LocalProjectUsageGroup) : ProjectGroupTotals :=
  groups.foldl ProjectGroupTotals.addGroup {}

structure BucketProjectResidual where
  tokenUsage : TokenUsage := default
  estimatedCostUnits : Nat := 0
  apiLongContextExtraCostUnits : Option Nat := some 0
  callCount : Nat := 0
deriving DecidableEq

def bucketProjectResidualIsZero (r : BucketProjectResidual) : Prop :=
  r.tokenUsage.isZero ∧ r.estimatedCostUnits = 0 ∧ r.apiLongContextExtraCostUnits = some 0 ∧
    r.callCount = 0

instance (r : BucketProjectResidual) : Decidable (bucketProjectResidualIsZero r) :=
  inferInstanceAs (Decidable (_ ∧ _))

def bucketProjectResidual (bucket : LocalHalfHourBucket) : Option BucketProjectResidual := do
  let totals := projectGroupTotals bucket.projectGroups
  let tokenUsage ← bucket.tokenUsage.deltaFrom totals.tokenUsage
  let estimatedCostUnits ← checkedSub bucket.estimatedCostUnits totals.estimatedCostUnits
  let units ← unitsDelta bucket.apiLongContextExtraCostUnits totals.apiLongContextExtraCostUnits
  let callCount ← checkedSub bucket.callCount totals.callCount
  pure ⟨tokenUsage, estimatedCostUnits, units, callCount⟩

/-! ## Buckets -/

instance : Inhabited LocalHalfHourBucket :=
  ⟨{ startsAt := 0, endsAt := 0, sampledAt := 0, estimatorRevision := 0 }⟩

def pushPartialReason (reason : String) (bucket : LocalHalfHourBucket) : LocalHalfHourBucket :=
  { bucket with partialReasons := bucket.partialReasons ++ [reason] }

def pushPartialReasonOnce (reason : String) (bucket : LocalHalfHourBucket) : LocalHalfHourBucket :=
  if reason ∈ bucket.partialReasons then bucket else pushPartialReason reason bucket

def rebuildBucketFromProjectGroupTotals (residual : BucketProjectResidual)
    (totals : ProjectGroupTotals) (bucket : LocalHalfHourBucket) : LocalHalfHourBucket :=
  let units := addOptionalUnits residual.apiLongContextExtraCostUnits
    totals.apiLongContextExtraCostUnits
  let rebuilt := pushPartialReasonOnce duplicateSessionModelBreakdownPartial { bucket with
    tokenUsage := residual.tokenUsage.addAssign totals.tokenUsage
    estimatedCostUnits := saturatingAdd 128 residual.estimatedCostUnits totals.estimatedCostUnits
    apiLongContextExtraCostUnits := units
    longContextUsageUnknown := bucket.longContextUsageUnknown || units.isNone
    callCount := saturatingAdd 64 residual.callCount totals.callCount
    groups := [] }
  { rebuilt with partialReasons := sortReasons rebuilt.partialReasons }

def addProjectGroupTotalsToBucket (totals : ProjectGroupTotals) (bucket : LocalHalfHourBucket) :
    LocalHalfHourBucket :=
  let units := addOptionalUnits bucket.apiLongContextExtraCostUnits
    totals.apiLongContextExtraCostUnits
  pushPartialReasonOnce duplicateSessionModelBreakdownPartial { bucket with
    tokenUsage := bucket.tokenUsage.addAssign totals.tokenUsage
    estimatedCostUnits := saturatingAdd 128 bucket.estimatedCostUnits totals.estimatedCostUnits
    apiLongContextExtraCostUnits := units
    longContextUsageUnknown := bucket.longContextUsageUnknown || units.isNone
    callCount := saturatingAdd 64 bucket.callCount totals.callCount
    groups := [] }

/-! ## The index -/

structure IndexedThreadBucket where
  bucketPosition : Nat
  active : Bool
  totals : ProjectGroupTotals
deriving DecidableEq

structure BucketIndex where
  groupPositions : ThreadId → List Nat := fun _ => []
  removedGroups : List Bool := []
  activeTotals : ProjectGroupTotals := {}
  opaqueActive : Bool := false
  authorityMarked : Bool := false
  residual : Option BucketProjectResidual := none
  needsCompaction : Bool := false

instance : Inhabited BucketIndex := ⟨{}⟩

/-- The buckets of a source with their index. -/
structure SourceState where
  displayLabel : String
  buckets : List LocalHalfHourBucket
  weeklyLocalPoints : List WeeklyLocalPoint := []
  index : List BucketIndex := []
  threads : ThreadId → List IndexedThreadBucket := fun _ => []
  opaquePositions : List Nat := []
  activeOpaqueCount : Nat := 0
  touched : AList (fun _ : DateTime => BucketProjectResidual) := ∅

instance : Inhabited SourceState := ⟨{ displayLabel := "", buckets := [] }⟩

namespace SourceState

def bucketAt (s : SourceState) (position : Nat) : LocalHalfHourBucket :=
  s.buckets.getD position default

def indexAt (s : SourceState) (position : Nat) : BucketIndex := s.index.getD position {}

def startOf (s : SourceState) (position : Nat) : DateTime := (s.bucketAt position).startsAt

def modifyBucket (s : SourceState) (position : Nat)
    (f : LocalHalfHourBucket → LocalHalfHourBucket) : SourceState :=
  { s with buckets := s.buckets.modify position f }

def modifyIndex (s : SourceState) (position : Nat) (f : BucketIndex → BucketIndex) : SourceState :=
  { s with index := s.index.modify position f }

/-- `touched.entry(..).or_insert(..)`. -/
def touchOnce (s : SourceState) (startsAt : DateTime) (residual : BucketProjectResidual) :
    SourceState :=
  if (s.touched.lookup startsAt).isSome then s
  else { s with touched := s.touched.insert startsAt residual }

def touch (s : SourceState) (startsAt : DateTime) (residual : BucketProjectResidual) :
    SourceState :=
  { s with touched := s.touched.insert startsAt residual }

def positionRank (s : SourceState) (position : Nat) : DateTime ×ₗ Nat :=
  toLex (s.startOf position, position)

/-- The offsets of a range in positions ordered by their start. -/
def bounds (s : SourceState) (positions : List Nat) (rangeStart rangeEnd : DateTime) : Nat × Nat :=
  (positions.findIdx fun p => rangeStart ≤ s.startOf p,
    positions.findIdx fun p => rangeEnd ≤ s.startOf p)

def threadBounds (s : SourceState) (thread : ThreadId) (rangeStart rangeEnd : DateTime) :
    Nat × Nat :=
  s.bounds ((s.threads thread).map (·.bucketPosition)) rangeStart rangeEnd

def threadBucketPositionsInRange (s : SourceState) (thread : ThreadId)
    (rangeStart rangeEnd : DateTime) : List IndexedThreadBucket :=
  let (first, last) := s.threadBounds thread rangeStart rangeEnd
  ((s.threads thread).take last).drop first

def opaquePositionsInRange (s : SourceState) (rangeStart rangeEnd : DateTime) : List Nat :=
  let (first, last) := s.bounds s.opaquePositions rangeStart rangeEnd
  (s.opaquePositions.take last).drop first

def bucketIsFullyAttributed (s : SourceState) (position : Nat) : Prop :=
  ∃ residual ∈ (s.indexAt position).residual, bucketProjectResidualIsZero residual

instance (s : SourceState) (position : Nat) : Decidable (s.bucketIsFullyAttributed position) :=
  inferInstanceAs (Decidable (∃ _ ∈ _, _))

/-! ## Marking groups -/

/-- The marks of a bucket after its groups at some positions were marked, with their totals. -/
def markRemoved (groups : List LocalProjectUsageGroup) (positions : List Nat)
    (removedGroups : List Bool) : List Bool × ProjectGroupTotals × Bool :=
  positions.foldl (fun state position =>
    if state.1.getD position false then state
    else (state.1.set position true,
      ProjectGroupTotals.addGroup state.2.1 (groups.getD position {}), true))
    (removedGroups, {}, false)

def tombstoneProjectGroups (s : SourceState) (thread : ThreadId) (position : Nat) :
    Except String SourceState :=
  let index := s.indexAt position
  let (removedGroups, totals, removedAny) := markRemoved (s.bucketAt position).projectGroups
    (index.groupPositions thread) index.removedGroups
  if removedAny then do
    let activeTotals ← okOr (ProjectGroupTotals.checkedDeltaFrom index.activeTotals totals)
      "project-group tombstones cannot exceed indexed active totals"
    pure (s.modifyIndex position fun index =>
      { index with removedGroups, activeTotals, needsCompaction := true })
  else pure s

def markBucketTransparent (s : SourceState) (position : Nat) : SourceState :=
  let s' := if (s.indexAt position).opaqueActive then
      { s with activeOpaqueCount := s.activeOpaqueCount - 1 } else s
  s'.modifyIndex position fun index => { index with opaqueActive := false, residual := some {} }

def threadOffset (s : SourceState) (thread : ThreadId) (position : Nat) : Option Nat :=
  (s.threads thread).findIdx? fun entry => entry.bucketPosition = position

def setThread (s : SourceState) (thread : ThreadId) (entries : List IndexedThreadBucket) :
    SourceState :=
  { s with threads := fun t => if t = thread then entries else s.threads t }

def deactivateThreadBucket (s : SourceState) (thread : ThreadId) (position : Nat) :
    Except String SourceState :=
  match s.threadOffset thread position with
  | none => pure s
  | some offset =>
    if ((s.threads thread)[offset]?.map (·.active)).getD false then do
      let s ← s.tombstoneProjectGroups thread position
      pure (s.setThread thread ((s.threads thread).modify offset fun entry =>
        { entry with active := false, totals := {} }))
    else pure s

/-! ## Removing and suppressing -/

/-- `remove_replica_groups`, for one offset. -/
def removeReplicaGroup (thread : ThreadId) (s : SourceState) (offset : Nat) :
    Except String SourceState :=
  match (s.threads thread)[offset]? with
  | none => pure s
  | some indexed =>
    if indexed.active then do
      let position := indexed.bucketPosition
      let residual ← okOr (s.indexAt position).residual
        "replica coverage preflight proved a subtractable project breakdown"
      let s := s.touchOnce (s.startOf position) residual
      let s ← s.deactivateThreadBucket thread position
      let totals := (s.indexAt position).activeTotals
      pure (s.modifyBucket position fun bucket =>
        let bucket := pushPartialReasonOnce duplicateSessionModelBreakdownPartial bucket
        let bucket := if bucketProjectResidualIsZero residual then bucket
          else pushPartialReasonOnce duplicateSessionProjectBreakdownLowerBound bucket
        rebuildBucketFromProjectGroupTotals residual totals bucket)
    else pure s

def removeReplicaGroups (s : SourceState) (thread : ThreadId) (rangeStart rangeEnd : DateTime) :
    Except String SourceState :=
  let (first, last) := s.threadBounds thread rangeStart rangeEnd
  (List.range' first (last - first)).foldlM (removeReplicaGroup thread) s

def preserveUnrelatedProjectGroupsInBucket (s : SourceState) (position : Nat) (thread : ThreadId) :
    Except String SourceState := do
  let s := s.touch (s.startOf position) {}
  let s ← s.tombstoneProjectGroups "" position
  let s ← s.deactivateThreadBucket thread position
  let s := s.markBucketTransparent position
  let totals := (s.indexAt position).activeTotals
  pure (s.modifyBucket position fun bucket =>
    let bucket := { bucket with groups := [], longContextUsageUnknown := false }
    let bucket := pushPartialReasonOnce duplicateSessionModelBreakdownPartial bucket
    let bucket := pushPartialReasonOnce duplicateSessionProjectBreakdownLowerBound bucket
    rebuildBucketFromProjectGroupTotals {} totals bucket)

end SourceState

def timestampInRanges (timestamp : DateTime) (ranges : List (DateTime × DateTime)) : Prop :=
  let next := ranges.findIdx fun range => timestamp < range.1
  0 < next ∧ ∃ range ∈ ranges[next - 1]?, timestamp < range.2

instance (timestamp : DateTime) (ranges : List (DateTime × DateTime)) :
    Decidable (timestampInRanges timestamp ranges) :=
  inferInstanceAs (Decidable (_ ∧ ∃ _ ∈ _, _))

/-- `ReplicaBucketSelection`: a range, less the ranges that are handled. -/
structure ReplicaBucketSelection where
  rangeStart : DateTime
  rangeEnd : DateTime
  handledRanges : List (DateTime × DateTime) := []
deriving DecidableEq

def ReplicaBucketSelection.contains (selection : ReplicaBucketSelection) (timestamp : DateTime) :
    Prop :=
  selection.rangeStart ≤ timestamp ∧ timestamp < selection.rangeEnd ∧
    ¬ timestampInRanges timestamp selection.handledRanges

instance (selection : ReplicaBucketSelection) (timestamp : DateTime) :
    Decidable (selection.contains timestamp) := inferInstanceAs (Decidable (_ ∧ _))

namespace SourceState

/-- `suppress_unbound_replica_buckets`, for one bucket of the thread. -/
def suppressThreadBucket (thread : ThreadId) (selection : ReplicaBucketSelection) (s : SourceState)
    (offset : Nat) : Except String SourceState :=
  match (s.threads thread)[offset]? with
  | none => pure s
  | some indexed =>
    if indexed.active = true ∧ selection.contains (s.startOf indexed.bucketPosition) then
      s.preserveUnrelatedProjectGroupsInBucket indexed.bucketPosition thread
    else pure s

/-- `suppress_unbound_replica_buckets`, for one opaque bucket. -/
def suppressOpaqueBucket (thread : ThreadId) (selection : ReplicaBucketSelection) (s : SourceState)
    (position : Nat) : Except String SourceState :=
  if (s.indexAt position).opaqueActive = true ∧ selection.contains (s.startOf position) then
    if s.bucketIsFullyAttributed position then pure (s.markBucketTransparent position)
    else s.preserveUnrelatedProjectGroupsInBucket position thread
  else pure s

def suppressUnboundReplicaBuckets (s : SourceState) (thread : ThreadId)
    (selection : ReplicaBucketSelection) : Except String SourceState := do
  let (first, last) := s.threadBounds thread selection.rangeStart selection.rangeEnd
  let s ← (List.range' first (last - first)).foldlM (suppressThreadBucket thread selection) s
  let positions := if s.activeOpaqueCount = 0 then []
    else s.opaquePositionsInRange selection.rangeStart selection.rangeEnd
  positions.foldlM (suppressOpaqueBucket thread selection) s

/-- `preserve_unrelated_project_groups_in_replica_range` and `suppress_unbound_replica_range`. -/
def suppressUnboundReplicaRange (s : SourceState) (thread : ThreadId)
    (rangeStart rangeEnd : DateTime) : Except String SourceState :=
  s.suppressUnboundReplicaBuckets thread { rangeStart, rangeEnd }

/-- `ensure_authority_project_consistency`, for one opaque bucket. -/
def ensureAuthorityBucket (s : SourceState) (position : Nat) : SourceState :=
  if (s.indexAt position).opaqueActive then
    if s.bucketIsFullyAttributed position then
      { s.modifyIndex position fun index => { index with opaqueActive := false } with
        activeOpaqueCount := s.activeOpaqueCount - 1 }
    else if (s.indexAt position).authorityMarked then s
    else
      (s.modifyBucket position fun bucket =>
        pushPartialReason duplicateSessionProjectBreakdownLowerBound
          (pushPartialReason duplicateSessionModelBreakdownPartial bucket)).modifyIndex position
        fun index => { index with authorityMarked := true }
  else s

def ensureAuthorityProjectConsistency (s : SourceState) (rangeStart rangeEnd : DateTime) :
    SourceState :=
  (s.opaquePositionsInRange rangeStart rangeEnd).foldl ensureAuthorityBucket s

def sourceHasThreadGroupInRange (s : SourceState) (thread : ThreadId)
    (rangeStart rangeEnd : DateTime) : Bool :=
  (s.threadBucketPositionsInRange thread rangeStart rangeEnd).any (·.active)

def sourceHasUnhandledOpaqueBucket (s : SourceState) (rangeStart rangeEnd : DateTime)
    (handledRanges : List (DateTime × DateTime)) : Bool :=
  decide (s.activeOpaqueCount ≠ 0) &&
    (s.opaquePositionsInRange rangeStart rangeEnd).any fun position =>
      (s.indexAt position).opaqueActive &&
        decide (¬ timestampInRanges (s.startOf position) handledRanges)

def sourceHasUnhandledThreadGroup (s : SourceState) (thread : ThreadId)
    (rangeStart rangeEnd : DateTime) (handledRanges : List (DateTime × DateTime)) : Bool :=
  (s.threadBucketPositionsInRange thread rangeStart rangeEnd).any fun entry =>
    entry.active && decide (¬ timestampInRanges (s.startOf entry.bucketPosition) handledRanges)

def markUnhandledAuthorityLowerBound (s : SourceState) (thread : ThreadId)
    (rangeStart rangeEnd : DateTime) (handledRanges : List (DateTime × DateTime)) : SourceState :=
  (s.threadBucketPositionsInRange thread rangeStart rangeEnd).foldl (fun s entry =>
    if entry.active = true ∧ ¬ timestampInRanges (s.startOf entry.bucketPosition) handledRanges then
      s.modifyBucket entry.bucketPosition
        (pushPartialReason duplicateSessionProjectBreakdownLowerBound)
    else s) s

/-- The project groups of a thread in the range of a digest account for the digest. -/
def replicaGroupsCoverDigest (s : SourceState) (thread : ThreadId) (digest : SourceSessionDigest)
    (modelCatalogCompatible : Bool) : Bool :=
  let entries := (s.threadBucketPositionsInRange thread digest.rangeStart digest.rangeEnd).filter
    (·.active)
  let totals : ProjectGroupTotals := entries.foldl
    (fun totals entry => ProjectGroupTotals.addTotals totals entry.totals) {}
  entries.all (fun entry => (s.indexAt entry.bucketPosition).residual.isSome) &&
    decide (totals.tokenUsage = digest.metrics.tokenUsage ∧
      totals.callCount = digest.metrics.callCount ∧
      (modelCatalogCompatible = true →
        totals.estimatedCostUnits = digest.metrics.estimatedCostUnits ∧
        totals.apiLongContextExtraCostUnits = digest.metrics.apiLongContextExtraCostUnits ∧
        totals.apiEquivalentCost = digest.metrics.apiEquivalentCost))

end SourceState

end Replica
