import Mathlib.Data.List.Dedup
import Mathlib.Data.Prod.Lex
import Mathlib.Data.String.Basic
import Mathlib.Order.WithBot
import UsageMonit.History.Bucket
import UsageMonit.Lib.KeyedMerge

/-!
# Aggregation of buckets across sources (`history_query/aggregation.rs`)

The buckets of all sources are merged slot by slot. Derived values depend on a revision (of the
estimator, or of the API price catalog); where two buckets of a slot have different revisions, only
values at the active revision stay, and a slot without a bucket at the active revision gets the
sentinel revision zero.
-/

namespace History

open Fallible

/-- The active revisions: `current_history_estimator_revision` and
`current_api_pricing_catalog_revision`. -/
structure Revisions where
  estimator : Nat
  apiCatalog : Nat
deriving DecidableEq

/-! ## Sources -/

structure SourceMetadata where
  sourceId : String
  displayLabel : String
deriving DecidableEq

structure SourceSlice where
  metadata : SourceMetadata
  buckets : List LocalHalfHourBucket
deriving DecidableEq

/-- The project an observed key of a source belongs to: its aggregate id and its label. A key that
is not a well-formed observed project key has none. -/
structure ProjectMappingProjection where
  resolve : String → String → Option (String × Option String)

abbrev LogicalThreadProjection := String × String → Option String

structure ProjectScopeReport where
  projectObservations : Bool := false
  unmappedProjects : Bool := false
deriving DecidableEq

def ProjectScopeReport.or (a b : ProjectScopeReport) : ProjectScopeReport :=
  ⟨a.projectObservations || b.projectObservations, a.unmappedProjects || b.unmappedProjects⟩

def scopedValue (value sourceId : String) : String := value ++ "@" ++ sourceId

section
variable (mapping : ProjectMappingProjection) (logicalThreads : LogicalThreadProjection)

def logicalIdentity (value sourceId : String) : Option String := logicalThreads (sourceId, value)

/-- The logical identity of a thread, or its scoped id. -/
def scopedThread (value sourceId : String) : String :=
  (logicalIdentity logicalThreads value sourceId).getD (scopedValue value sourceId)

/-- `scope_project_groups`, for one group. -/
def scopeProjectGroup (source : SourceMetadata) (group : LocalProjectUsageGroup) :
    LocalProjectUsageGroup :=
  let projection := group.projectId.bind (mapping.resolve source.sourceId)
  { group with
    threadId := scopedThread logicalThreads group.threadId source.sourceId
    turnId := group.turnId.map (scopedValue · source.sourceId)
    parentThreadId := group.parentThreadId.map (scopedThread logicalThreads · source.sourceId)
    sessionThreadId := group.sessionThreadId.map (scopedThread logicalThreads · source.sourceId)
    sessionTurnId := group.sessionTurnId.map (scopedValue · source.sourceId)
    source := if (logicalIdentity logicalThreads group.threadId source.sourceId).isSome then
      some source.displayLabel else group.source
    projectId := some (match projection with
      | some (aggregateId, _) => aggregateId
      | none => scopedValue (group.projectId.getD "unknown") source.sourceId)
    projectLabel := match projection with
      | some (_, label) => label.or group.projectLabel
      | none => some (group.projectLabel.getD "unknown" ++ " @ " ++ source.displayLabel) }

/-- What one group adds to the report. -/
def projectGroupReport (source : SourceMetadata) (group : LocalProjectUsageGroup) :
    ProjectScopeReport :=
  ⟨group.projectId.isSome,
    (group.projectId.bind (mapping.resolve source.sourceId)).isNone && group.projectId.isSome⟩

def scopeProjectGroups (groups : List LocalProjectUsageGroup) (source : SourceMetadata) :
    List LocalProjectUsageGroup × ProjectScopeReport :=
  (groups.map (scopeProjectGroup mapping logicalThreads source),
    groups.foldl (fun report group => report.or (projectGroupReport mapping source group)) {})

end

/-! ## Revisions -/

def maskApiCostProjection (amount : ApiCostAmount) (observedTokens observedCalls : Nat) :
    ApiCostAmount where
  minimumPicoUsd := 0
  maximumPicoUsd := 0
  observedSamples := max amount.observedSamples observedCalls
  pricedSamples := 0
  observedTokens := max amount.observedTokens observedTokens
  pricedTokens := 0

def LocalUsageGroup.maskEstimator (group : LocalUsageGroup) : LocalUsageGroup :=
  { group with estimatedCostUnits := 0, apiLongContextExtraCostUnits := some 0 }

def LocalProjectUsageGroup.maskEstimator (group : LocalProjectUsageGroup) :
    LocalProjectUsageGroup :=
  { group with estimatedCostUnits := 0, apiLongContextExtraCostUnits := some 0 }

def LocalUsageGroup.maskApi (group : LocalUsageGroup) : LocalUsageGroup :=
  { group with
    apiEquivalentCost := maskApiCostProjection group.apiEquivalentCost
      group.tokenUsage.totalTokens group.callCount
    apiEquivalentCostComplete := false }

def LocalProjectUsageGroup.maskApi (group : LocalProjectUsageGroup) : LocalProjectUsageGroup :=
  { group with
    apiEquivalentCost := maskApiCostProjection group.apiEquivalentCost
      group.tokenUsage.totalTokens group.callCount }

def maskBucketEstimatorProjection (bucket : LocalHalfHourBucket) : LocalHalfHourBucket :=
  { bucket with
    longContextUsageUnknown := bucket.longContextUsageUnknown ||
      decide (¬ bucket.tokenUsage.isZero ∨ 0 < bucket.callCount ∨ 0 < bucket.estimatedCostUnits ∨
        ∃ value ∈ bucket.apiLongContextExtraCostUnits, 0 < value)
    estimatedCostUnits := 0
    apiLongContextExtraCostUnits := some 0
    groups := bucket.groups.map (·.maskEstimator)
    projectGroups := bucket.projectGroups.map (·.maskEstimator) }

def maskBucketApiProjection (bucket : LocalHalfHourBucket) : LocalHalfHourBucket :=
  { bucket with
    groups := bucket.groups.map (·.maskApi)
    projectGroups := bucket.projectGroups.map (·.maskApi) }

/-- The revision of two buckets with different ones: the active one, or the sentinel. -/
def mergedRevision (current target incoming : Nat) : Nat :=
  if target = current ∨ incoming = current then current else 0

def reconcileEstimatorRevision (current : Nat) (target incoming : LocalHalfHourBucket) :
    LocalHalfHourBucket × LocalHalfHourBucket :=
  if target.estimatorRevision = incoming.estimatorRevision then (target, incoming)
  else
    let masked := if target.estimatorRevision = current then target
      else maskBucketEstimatorProjection target
    ({ masked with
        estimatorRevision :=
          mergedRevision current target.estimatorRevision incoming.estimatorRevision
        partialReasons := target.partialReasons ++ ["estimator_revision_changed"] },
      if incoming.estimatorRevision = current then incoming
      else maskBucketEstimatorProjection incoming)

def reconcileApiCatalogRevision (current : Nat) (target incoming : LocalHalfHourBucket) :
    LocalHalfHourBucket × LocalHalfHourBucket :=
  if target.apiPricingCatalogRevision = incoming.apiPricingCatalogRevision then (target, incoming)
  else
    let masked := if target.apiPricingCatalogRevision = current then target
      else maskBucketApiProjection target
    ({ masked with
        apiPricingCatalogRevision :=
          mergedRevision current target.apiPricingCatalogRevision incoming.apiPricingCatalogRevision
        partialReasons := target.partialReasons ++ ["api_pricing_catalog_changed"] },
      if incoming.apiPricingCatalogRevision = current then incoming
      else maskBucketApiProjection incoming)

/-! ## Merging -/

/-- The order of `Option<String>`: nothing comes first. -/
def optionRank (value : Option String) : WithBot String := value

def LocalUsageGroup.key (group : LocalUsageGroup) : WithBot String ×ₗ WithBot String :=
  toLex (optionRank group.model, optionRank group.serviceTier)

def LocalProjectUsageGroup.rank (group : LocalProjectUsageGroup) :
    WithBot String ×ₗ String ×ₗ WithBot String :=
  toLex (optionRank group.projectId, toLex (group.threadId, optionRank group.turnId))

def mergeUsageGroup (existing group : LocalUsageGroup) : LocalUsageGroup :=
  { existing with
    tokenUsage := existing.tokenUsage.addAssign group.tokenUsage
    estimatedCostUnits := saturatingAdd 128 existing.estimatedCostUnits group.estimatedCostUnits
    apiLongContextExtraCostUnits := addOptionalUnits existing.apiLongContextExtraCostUnits
      group.apiLongContextExtraCostUnits
    callCount := saturatingAdd 64 existing.callCount group.callCount
    usedModelFallback := existing.usedModelFallback || group.usedModelFallback
    usedTokenBreakdownFallback :=
      existing.usedTokenBreakdownFallback || group.usedTokenBreakdownFallback
    usedLongContextPricing := existing.usedLongContextPricing || group.usedLongContextPricing
    usedLongContextDetectionFallback :=
      existing.usedLongContextDetectionFallback || group.usedLongContextDetectionFallback
    apiEquivalentCost := existing.apiEquivalentCost.addAssign group.apiEquivalentCost
    apiEquivalentCostComplete :=
      existing.apiEquivalentCostComplete && group.apiEquivalentCostComplete }

def mergeUsageGroups (target incoming : List LocalUsageGroup) : List LocalUsageGroup :=
  KeyedMerge.collect LocalUsageGroup.key mergeUsageGroup (target ++ incoming)

/-- Sorting and dropping repetitions, which are next to each other then. -/
def sortReasons (reasons : List String) : List String :=
  (reasons.insertionSort (· ≤ ·)).dedup

/-- The additive part of a merge, after the revisions were reconciled. -/
def addBuckets (target incoming : LocalHalfHourBucket) : LocalHalfHourBucket :=
  { target with
    endsAt := min target.endsAt incoming.endsAt
    sampledAt := min target.sampledAt incoming.sampledAt
    tokenUsage := target.tokenUsage.addAssign incoming.tokenUsage
    estimatedCostUnits := saturatingAdd 128 target.estimatedCostUnits incoming.estimatedCostUnits
    apiLongContextExtraCostUnits := addOptionalUnits target.apiLongContextExtraCostUnits
      incoming.apiLongContextExtraCostUnits
    longContextUsageUnknown := target.longContextUsageUnknown || incoming.longContextUsageUnknown
    projectBreakdownRevision :=
      min target.projectBreakdownRevision incoming.projectBreakdownRevision
    callCount := saturatingAdd 64 target.callCount incoming.callCount
    groups := mergeUsageGroups target.groups incoming.groups
    projectGroups := (target.projectGroups ++ incoming.projectGroups).insertionSort
      fun left right => left.rank ≤ right.rank
    partialReasons := sortReasons (target.partialReasons ++ incoming.partialReasons) }

def mergeAdditiveBucket (current : Revisions) (target incoming : LocalHalfHourBucket) :
    LocalHalfHourBucket :=
  let (target, incoming) := reconcileEstimatorRevision current.estimator target incoming
  let (target, incoming) := reconcileApiCatalogRevision current.apiCatalog target incoming
  addBuckets target incoming

/-! ## All sources -/

structure BucketProjection where
  buckets : List LocalHalfHourBucket := []
  report : ProjectScopeReport := {}
deriving DecidableEq

section
variable (current : Revisions) (mapping : ProjectMappingProjection)
  (logicalThreads : LogicalThreadProjection)

def aggregateBucket (source : SourceMetadata) (projection : BucketProjection)
    (bucket : LocalHalfHourBucket) : BucketProjection :=
  let (projectGroups, report) :=
    scopeProjectGroups mapping logicalThreads bucket.projectGroups source
  let incoming := { bucket with projectGroups }
  { buckets := KeyedMerge.upsert LocalHalfHourBucket.startsAt (mergeAdditiveBucket current)
      incoming projection.buckets
    report := projection.report.or report }

/-- `aggregate_source_buckets_with_logical_threads`. -/
def aggregateSourceBucketsWithLogicalThreads (sources : List SourceSlice) : BucketProjection :=
  sources.foldl (fun projection source => source.buckets.foldl
    (aggregateBucket current mapping logicalThreads source.metadata) projection) {}

end

end History
