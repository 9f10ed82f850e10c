import UsageMonit.History.Aggregation
import UsageMonit.Rollout.Event

/-!
# Upserting a version of a bucket (`history.rs`)

Several writers observe the same bucket. `upsertHalfHourBucket` brings one version into the stored
buckets: a version of a new interval is appended, and a version of a stored one is merged into it
(`mergeVersion`), where it replaces the stored bucket (`shouldReplaceHalfHourBucket`) or grafts
some of its parts onto it.
-/

namespace History

open Fallible Time Usage
open Text (trim)

/-! ## Intervals -/

def datetimeSaturatingAdd (timestamp : DateTime) (duration : Duration) : DateTime :=
  (checkedAddSigned timestamp duration).getD (if duration < 0 then minUtc else maxUtc)

def datetimeSaturatingSub (timestamp : DateTime) (duration : Duration) : DateTime :=
  (checkedSubSigned timestamp duration).getD (if duration < 0 then maxUtc else minUtc)

/-- `DateTime::timestamp`: the whole seconds, rounded down. -/
def timestampSecs (timestamp : DateTime) : Int := timestamp / 1000000000

def localBucketSecs : Int := 15 * 60

/-- The start of the bucket an instant is in. -/
def floorLocalBucket (timestamp : DateTime) : DateTime :=
  let start := seconds (timestampSecs timestamp / localBucketSecs * localBucketSecs)
  if minUtc ≤ start ∧ start ≤ maxUtc then start else minUtc

def isCurrentLocalBucket (bucket : LocalHalfHourBucket) : Bool :=
  datetimeSaturatingAdd bucket.startsAt (seconds localBucketSecs) = bucket.endsAt ∧
    floorLocalBucket bucket.startsAt = bucket.startsAt ∧
    bucket.startsAt ≤ bucket.sampledAt ∧ bucket.sampledAt ≤ bucket.endsAt

/-- Orders revisions: the active one is authoritative even where it is the lower number. -/
def revisionIsPreferred (candidate existing current : Nat) : Bool :=
  candidate ≠ existing ∧ (candidate = current ∨ (existing ≠ current ∧ existing < candidate))

/-! ## Reasons -/

def isCollectionIssueReason (reason : String) : Bool :=
  "rollout_".toList.isPrefixOf reason.toList || reason == "coverage_starts_within_local_bucket" ||
    reason == "local_scan_disabled" || reason == "subagent_turn_attribution_unavailable"

def collectionIssueCount (partialReasons : List String) : Nat :=
  partialReasons.countP isCollectionIssueReason

def coverageIssues : List String :=
  ["rollout_local_coverage_unverified", "coverage_starts_within_local_bucket"]

def isCoverageIssueReason (reason : String) : Bool := coverageIssues.contains reason

def coverageIssueStateDiffers (left right : List String) : Bool :=
  coverageIssues.any fun reason => left.contains reason != right.contains reason

def hasCoverageIssue (reasons : List String) : Bool := reasons.any isCoverageIssueReason

def mergeCoverageIssues (existing incoming : List String) : List String :=
  sortReasons (existing ++ incoming.filter isCoverageIssueReason)

/-! ## Evidence of a bucket -/

def halfHourBucketEvidenceEq (left right : LocalHalfHourBucket) : Bool :=
  left.startsAt = right.startsAt ∧ left.endsAt = right.endsAt ∧
    left.tokenUsage = right.tokenUsage ∧ left.estimatedCostUnits = right.estimatedCostUnits ∧
    left.apiLongContextExtraCostUnits = right.apiLongContextExtraCostUnits ∧
    left.longContextUsageUnknown = right.longContextUsageUnknown ∧
    left.estimatorRevision = right.estimatorRevision ∧
    left.projectBreakdownRevision = right.projectBreakdownRevision ∧
    left.apiPricingCatalogRevision = right.apiPricingCatalogRevision ∧
    left.callCount = right.callCount ∧ left.groups = right.groups ∧
    left.projectGroups = right.projectGroups

def halfHourBucketPayloadEq (left right : LocalHalfHourBucket) : Bool :=
  halfHourBucketEvidenceEq left right && left.partialReasons == right.partialReasons

/-- The counters of calls and tokens, which no estimate enters. -/
def unweightedEvidenceDominates (calls otherCalls : Nat) (usage other : TokenUsage) : Bool :=
  otherCalls ≤ calls ∧ other.inputTokens ≤ usage.inputTokens ∧
    other.cachedInputTokens ≤ usage.cachedInputTokens ∧
    other.cacheWriteInputTokens ≤ usage.cacheWriteInputTokens ∧
    other.outputTokens ≤ usage.outputTokens ∧
    other.reasoningOutputTokens ≤ usage.reasoningOutputTokens ∧
    other.totalTokens ≤ usage.totalTokens

def bucketUnweightedEvidenceDominates (candidate other : LocalHalfHourBucket) : Bool :=
  unweightedEvidenceDominates candidate.callCount other.callCount candidate.tokenUsage
    other.tokenUsage

def bucketEvidenceDominates (candidate other : LocalHalfHourBucket) : Bool :=
  bucketUnweightedEvidenceDominates candidate other &&
    decide (other.estimatedCostUnits ≤ candidate.estimatedCostUnits)

def bucketCollectionIssueCount (bucket : LocalHalfHourBucket) : Nat :=
  collectionIssueCount bucket.partialReasons

def projectCallCount (bucket : LocalHalfHourBucket) : Nat :=
  (bucket.projectGroups.map (·.callCount)).foldl (saturatingAdd 64) 0

/-- The last tie-break: the components of the source's tuple, compared in their order. -/
def bucketEvidenceKey (bucket : LocalHalfHourBucket) : List Nat :=
  [bucket.tokenUsage.totalTokens, bucket.estimatedCostUnits, bucket.callCount,
    bucket.tokenUsage.inputTokens, bucket.tokenUsage.cachedInputTokens,
    bucket.tokenUsage.cacheWriteInputTokens, bucket.tokenUsage.outputTokens,
    bucket.tokenUsage.reasoningOutputTokens, projectCallCount bucket,
    bucket.projectGroups.length, bucket.projectBreakdownRevision,
    bucket.apiPricingCatalogRevision]

/-- Whether the incoming version takes the place of the stored one; `estimator` is the active
estimator revision. -/
def shouldReplaceHalfHourBucket (estimator : Nat) (incoming existing : LocalHalfHourBucket) :
    Bool :=
  if halfHourBucketEvidenceEq incoming existing &&
      coverageIssueStateDiffers incoming.partialReasons existing.partialReasons &&
      decide (incoming.sampledAt ≠ existing.sampledAt) then
    existing.sampledAt < incoming.sampledAt
  else if incoming.estimatorRevision ≠ existing.estimatorRevision then
    revisionIsPreferred incoming.estimatorRevision existing.estimatorRevision estimator &&
      bucketUnweightedEvidenceDominates incoming existing &&
      decide (bucketCollectionIssueCount incoming ≤ bucketCollectionIssueCount existing) &&
      decide (existing.sampledAt ≤ incoming.sampledAt)
  else if bucketEvidenceDominates incoming existing ≠ bucketEvidenceDominates existing incoming then
    bucketEvidenceDominates incoming existing
  else if bucketCollectionIssueCount incoming ≠ bucketCollectionIssueCount existing then
    bucketCollectionIssueCount incoming < bucketCollectionIssueCount existing
  else if incoming.sampledAt ≠ existing.sampledAt then
    existing.sampledAt < incoming.sampledAt
  else bucketEvidenceKey existing < bucketEvidenceKey incoming

/-! ## What a group retains -/

/-- A comparison that may reject: `none` where something known is lost, else whether something is
gained. Over several parts everything must be retained, and one gain is enough. -/
def strictlyRicher : List (Option Bool) → Option Bool
  | [] => some false
  | part :: parts => part.bind fun richer => (strictlyRicher parts).map (richer || ·)

/-- An optional value: a known one must stay what it is. -/
def valueRetained {α : Type} [DecidableEq α] (candidate existing : Option α) : Option Bool :=
  match candidate, existing with
  | some candidate, some existing => if candidate ≠ existing then none else some false
  | none, some _ => none
  | some _, none => some true
  | none, none => some false

/-- A counter: it must not fall. -/
def countRetained (candidate existing : Nat) : Option Bool :=
  if candidate < existing then none else some (decide (existing < candidate))

def apiCoverageRetained (candidate existing : ApiCostAmount) : List (Option Bool) :=
  [countRetained candidate.observedSamples existing.observedSamples,
    countRetained candidate.pricedSamples existing.pricedSamples,
    countRetained candidate.observedTokens existing.observedTokens,
    countRetained candidate.pricedTokens existing.pricedTokens]

/-! ## Model groups -/

def LocalUsageGroup.identity (group : LocalUsageGroup) : Option String × Option String :=
  (group.model, group.serviceTier)

/-- The groups by identity; nothing where two groups share one. -/
def modelGroupsByIdentity (groups : List LocalUsageGroup) :
    Option (Option String × Option String → Option LocalUsageGroup) :=
  if (groups.map (·.identity)).Nodup then
    some fun identity => groups.find? fun group => group.identity = identity
  else none

/-- Every existing group has a candidate of its identity that passes the test. -/
def everyModelGroup (test : LocalUsageGroup → LocalUsageGroup → Bool)
    (candidate existing : LocalHalfHourBucket) : Bool :=
  (modelGroupsByIdentity candidate.groups).any fun candidateByModel =>
    existing.groups.all fun existingGroup =>
      (candidateByModel existingGroup.identity).any fun candidateGroup =>
        test candidateGroup existingGroup

def modelGroupNonApiEvidenceEq (candidate existing : LocalUsageGroup) : Bool :=
  candidate.model = existing.model ∧ candidate.serviceTier = existing.serviceTier ∧
    candidate.tokenUsage = existing.tokenUsage ∧
    candidate.estimatedCostUnits = existing.estimatedCostUnits ∧
    candidate.apiLongContextExtraCostUnits = existing.apiLongContextExtraCostUnits ∧
    candidate.callCount = existing.callCount ∧
    candidate.usedModelFallback = existing.usedModelFallback ∧
    candidate.usedTokenBreakdownFallback = existing.usedTokenBreakdownFallback ∧
    candidate.usedLongContextPricing = existing.usedLongContextPricing ∧
    candidate.usedLongContextDetectionFallback = existing.usedLongContextDetectionFallback

def modelGroupApiCoverageAndCompletenessRetained (candidate existing : LocalUsageGroup) : Bool :=
  !(existing.apiEquivalentCostComplete && !candidate.apiEquivalentCostComplete) &&
    decide (existing.apiEquivalentCost.observedSamples ≤
        candidate.apiEquivalentCost.observedSamples ∧
      existing.apiEquivalentCost.pricedSamples ≤ candidate.apiEquivalentCost.pricedSamples ∧
      existing.apiEquivalentCost.observedTokens ≤ candidate.apiEquivalentCost.observedTokens ∧
      existing.apiEquivalentCost.pricedTokens ≤ candidate.apiEquivalentCost.pricedTokens)

def modelGroupApiCostFactsEq (candidate existing : LocalHalfHourBucket) : Bool :=
  everyModelGroup (fun candidateGroup existingGroup =>
    candidateGroup.apiEquivalentCost = existingGroup.apiEquivalentCost ∧
      candidateGroup.apiEquivalentCostComplete = existingGroup.apiEquivalentCostComplete)
    candidate existing

/-- The price may grow only with its coverage or its completeness. -/
def modelGroupApiCostInformationDominates (candidate existing : LocalUsageGroup) : Option Bool :=
  let candidateApi := candidate.apiEquivalentCost
  let existingApi := existing.apiEquivalentCost
  if existing.apiEquivalentCostComplete && !candidate.apiEquivalentCostComplete then none
  else if candidateApi.minimumPicoUsd < existingApi.minimumPicoUsd ∨
      candidateApi.maximumPicoUsd < existingApi.maximumPicoUsd then none
  else (strictlyRicher (apiCoverageRetained candidateApi existingApi)).bind fun coverageIsRicher =>
    let amountIsRicher := decide (existingApi.minimumPicoUsd < candidateApi.minimumPicoUsd ∨
      existingApi.maximumPicoUsd < candidateApi.maximumPicoUsd)
    let completenessIsRicher :=
      candidate.apiEquivalentCostComplete && !existing.apiEquivalentCostComplete
    if amountIsRicher && !coverageIsRicher && !completenessIsRicher then none
    else some (coverageIsRicher || completenessIsRicher)

/-- Both buckets are closed and agree on everything but the prices of their model groups. -/
def closedBucketModelGroupNonApiEvidenceEq (candidate existing : LocalHalfHourBucket) : Bool :=
  decide (candidate.sampledAt = candidate.endsAt ∧ existing.sampledAt = existing.endsAt ∧
    candidate.estimatorRevision = existing.estimatorRevision ∧
    candidate.tokenUsage = existing.tokenUsage ∧
    candidate.estimatedCostUnits = existing.estimatedCostUnits ∧
    candidate.apiLongContextExtraCostUnits = existing.apiLongContextExtraCostUnits ∧
    candidate.longContextUsageUnknown = existing.longContextUsageUnknown ∧
    candidate.callCount = existing.callCount ∧
    candidate.groups.length = existing.groups.length) &&
  everyModelGroup modelGroupNonApiEvidenceEq candidate existing

def modelGroupApiCostCanUpgradeWithoutReplacing (candidate existing : LocalHalfHourBucket) :
    Bool :=
  if candidate.apiPricingCatalogRevision ≠ existing.apiPricingCatalogRevision ||
      !closedBucketModelGroupNonApiEvidenceEq candidate existing then false
  else (modelGroupsByIdentity candidate.groups).any fun candidateByModel =>
    strictlyRicher (existing.groups.map fun existingGroup =>
      (candidateByModel existingGroup.identity).bind fun candidateGroup =>
        modelGroupApiCostInformationDominates candidateGroup existingGroup) = some true

/-! ## Project groups -/

/-- The emitting thread and turn of a project group. -/
def LocalProjectUsageGroup.turn (group : LocalProjectUsageGroup) : String × Option String :=
  (group.threadId, group.turnId)

def informativeText (value : Option String) : Option String :=
  value.filter fun value => trim value ≠ ""

def informativeTitle (value : Option String) : Option String :=
  (informativeText value).filter (· ≠ "Untitled task")

def projectGroupInformationDominates (candidate existing : LocalProjectUsageGroup) :
    Option Bool :=
  let texts := [fun (group : LocalProjectUsageGroup) => group.parentThreadId, (·.sessionThreadId),
    (·.sessionTurnId), (·.projectId), (·.projectLabel), (·.source)]
  let candidateApi := candidate.apiEquivalentCost
  let existingApi := existing.apiEquivalentCost
  if candidate.tokenUsage ≠ existing.tokenUsage ∨
      candidate.estimatedCostUnits ≠ existing.estimatedCostUnits ∨
      candidate.callCount ≠ existing.callCount then none
  else (strictlyRicher (texts.map (fun text =>
        valueRetained (informativeText (text candidate)) (informativeText (text existing))) ++
      [valueRetained (informativeTitle candidate.title) (informativeTitle existing.title),
        valueRetained (informativeText candidate.messagePreview)
          (informativeText existing.messagePreview),
        valueRetained candidate.turnStartedAt existing.turnStartedAt,
        valueRetained candidate.apiLongContextExtraCostUnits
          existing.apiLongContextExtraCostUnits] ++
      apiCoverageRetained candidateApi existingApi)).bind fun richer =>
    if (candidateApi.observedSamples = existingApi.observedSamples ∧
        candidateApi.pricedSamples = existingApi.pricedSamples ∧
        candidateApi.observedTokens = existingApi.observedTokens ∧
        candidateApi.pricedTokens = existingApi.pricedTokens) ∧
        (candidateApi.minimumPicoUsd ≠ existingApi.minimumPicoUsd ∨
          candidateApi.maximumPicoUsd ≠ existingApi.maximumPicoUsd) then none
    else some richer

/-- What the candidates retain of each existing project group; nothing where two candidates share
a turn. -/
def projectGroupsRetained
    (test : LocalProjectUsageGroup → LocalProjectUsageGroup → Option Bool)
    (candidate existing : List LocalProjectUsageGroup) : Option Bool :=
  if (candidate.map (·.turn)).Nodup then
    strictlyRicher (existing.map fun existingGroup =>
      (candidate.find? fun group => group.turn = existingGroup.turn).bind fun candidateGroup =>
        test candidateGroup existingGroup)
  else none

def projectGroupsAreStrictlyRicher (candidate existing : List LocalProjectUsageGroup) : Bool :=
  (projectGroupsRetained projectGroupInformationDominates candidate existing).any fun richer =>
    decide (existing.length < candidate.length) || richer

/-- Prices may move either way, but nothing else may be lost. -/
def projectGroupsRetainApiCostInformationForReprice
    (candidate existing : List LocalProjectUsageGroup) : Bool :=
  (projectGroupsRetained (fun candidateGroup existingGroup =>
    projectGroupInformationDominates
      { candidateGroup with
        apiEquivalentCost :=
          { candidateGroup.apiEquivalentCost with
            minimumPicoUsd := existingGroup.apiEquivalentCost.minimumPicoUsd
            maximumPicoUsd := existingGroup.apiEquivalentCost.maximumPicoUsd } }
      existingGroup) candidate existing).isSome

/-! ## Merging a version -/

section
variable (current : Revisions)

/-- Whether the catalog of the first bucket is preferred to that of the second. -/
def catalogIsPreferred (candidate existing : LocalHalfHourBucket) : Bool :=
  revisionIsPreferred candidate.apiPricingCatalogRevision existing.apiPricingCatalogRevision
    current.apiCatalog

def modelGroupApiCostCanRepriceWithoutReplacing (candidate existing : LocalHalfHourBucket) :
    Bool :=
  let rollsBackToActiveCatalog :=
    decide (candidate.apiPricingCatalogRevision < existing.apiPricingCatalogRevision)
  if !catalogIsPreferred current candidate existing ||
      !closedBucketModelGroupNonApiEvidenceEq candidate existing ||
      (rollsBackToActiveCatalog &&
        (decide (bucketCollectionIssueCount existing < bucketCollectionIssueCount candidate) ||
          !projectGroupsRetainApiCostInformationForReprice candidate.projectGroups
            existing.projectGroups)) then false
  else everyModelGroup modelGroupApiCoverageAndCompletenessRetained candidate existing

def projectBreakdownCanUpgradeWithoutReplacing (incoming existing : LocalHalfHourBucket) : Bool :=
  let apiRevisionIsPreferred := catalogIsPreferred current incoming existing
  let apiRevisionIsNotOlder :=
    decide (incoming.apiPricingCatalogRevision = existing.apiPricingCatalogRevision) ||
      apiRevisionIsPreferred
  let newerBreakdown :=
    decide (existing.projectBreakdownRevision < incoming.projectBreakdownRevision) ||
      apiRevisionIsPreferred
  let richerBreakdown :=
    decide (incoming.projectBreakdownRevision = existing.projectBreakdownRevision) &&
      decide (incoming.apiPricingCatalogRevision = existing.apiPricingCatalogRevision) &&
      projectGroupsAreStrictlyRicher incoming.projectGroups existing.projectGroups
  (newerBreakdown || richerBreakdown) &&
    decide (existing.projectBreakdownRevision ≤ incoming.projectBreakdownRevision) &&
    apiRevisionIsNotOlder &&
    decide (incoming.estimatorRevision = existing.estimatorRevision ∧
      incoming.tokenUsage = existing.tokenUsage ∧
      incoming.estimatedCostUnits = existing.estimatedCostUnits ∧
      incoming.apiLongContextExtraCostUnits = existing.apiLongContextExtraCostUnits ∧
      incoming.longContextUsageUnknown = existing.longContextUsageUnknown ∧
      incoming.callCount = existing.callCount)

/-- A version that the stored bucket dominates, but that was sampled later and shows a gap in the
coverage. -/
def revealsCoverageGap (existing incoming : LocalHalfHourBucket) : Bool :=
  (bucketEvidenceDominates existing incoming && !bucketEvidenceDominates incoming existing) &&
    decide (existing.sampledAt < incoming.sampledAt) &&
    hasCoverageIssue incoming.partialReasons &&
    (coverageIssueStateDiffers incoming.partialReasons existing.partialReasons ||
      decide (incoming.sampledAt = incoming.endsAt))

/-- The stored and the incoming version after one of them took the model groups of the other. -/
def graftModelGroups (upgraded : Bool) (existing incoming : LocalHalfHourBucket) :
    LocalHalfHourBucket × LocalHalfHourBucket :=
  if upgraded then ({ existing with groups := incoming.groups }, incoming)
  else if (catalogIsPreferred current existing incoming &&
        closedBucketModelGroupNonApiEvidenceEq existing incoming) ||
      modelGroupApiCostCanUpgradeWithoutReplacing existing incoming then
    (existing, { incoming with groups := existing.groups })
  else if closedBucketModelGroupNonApiEvidenceEq incoming existing &&
      !modelGroupApiCostFactsEq incoming existing then
    (existing, { incoming with groups := existing.groups })
  else (existing, incoming)

/-- A preferred catalog whose model evidence was not accepted does not advance. -/
def retainCatalog (repriced : Bool) (existing incoming : LocalHalfHourBucket) :
    LocalHalfHourBucket :=
  if catalogIsPreferred current incoming existing &&
      closedBucketModelGroupNonApiEvidenceEq incoming existing && !repriced then
    { incoming with
      apiPricingCatalogRevision := existing.apiPricingCatalogRevision
      projectGroups := existing.projectGroups }
  else incoming

/-- The incoming project breakdown with its collection issues onto the stored bucket. -/
def graftProjectGroups (existing incoming : LocalHalfHourBucket) : LocalHalfHourBucket :=
  { existing with
    sampledAt := max existing.sampledAt incoming.sampledAt
    projectBreakdownRevision := incoming.projectBreakdownRevision
    apiPricingCatalogRevision := incoming.apiPricingCatalogRevision
    projectGroups := incoming.projectGroups
    partialReasons := sortReasons
      (existing.partialReasons.filter (fun reason => !isCollectionIssueReason reason) ++
        incoming.partialReasons.filter isCollectionIssueReason) }

/-- The stored project breakdown stays where it is the better one. -/
def retainProjectGroups (existing incoming : LocalHalfHourBucket) : LocalHalfHourBucket :=
  if projectBreakdownCanUpgradeWithoutReplacing current existing incoming then
    { incoming with
      projectBreakdownRevision := existing.projectBreakdownRevision
      apiPricingCatalogRevision := existing.apiPricingCatalogRevision
      projectGroups := existing.projectGroups }
  else incoming

/-- The version with its retained parts against the stored bucket with its grafted ones. -/
def settleVersion (upgraded : Bool) (existing incoming : LocalHalfHourBucket) :
    LocalHalfHourBucket × Bool :=
  if projectBreakdownCanUpgradeWithoutReplacing current incoming existing then
    (graftProjectGroups existing incoming, true)
  else
    let incoming := retainProjectGroups current existing incoming
    if shouldReplaceHalfHourBucket current.estimator incoming existing then (incoming, true)
    else (existing, upgraded)

/-- The stored bucket after a version with other evidence, and whether it changed. -/
def mergeEvidence (existing incoming : LocalHalfHourBucket) : LocalHalfHourBucket × Bool :=
  let repriced := modelGroupApiCostCanRepriceWithoutReplacing current incoming existing
  let upgraded := repriced || modelGroupApiCostCanUpgradeWithoutReplacing incoming existing
  let grafted := graftModelGroups current upgraded existing incoming
  settleVersion current upgraded grafted.1
    (retainCatalog current repriced grafted.1 grafted.2)

/-- The stored bucket after a version of its interval, and whether it changed. -/
def mergeVersion (existing incoming : LocalHalfHourBucket) : LocalHalfHourBucket × Bool :=
  if halfHourBucketPayloadEq incoming existing then
    if existing.sampledAt < existing.endsAt ∧ incoming.sampledAt = incoming.endsAt then
      (incoming, true)
    else (existing, false)
  else if revealsCoverageGap existing incoming then
    ({ existing with
        sampledAt := incoming.sampledAt
        partialReasons :=
          mergeCoverageIssues existing.partialReasons incoming.partialReasons }, true)
  else mergeEvidence current existing incoming

/-- The version merged into the first bucket with its start, or appended. -/
def upsertSlot (incoming : LocalHalfHourBucket) :
    List LocalHalfHourBucket → List LocalHalfHourBucket × Bool
  | [] => ([incoming], true)
  | bucket :: buckets =>
    if bucket.startsAt = incoming.startsAt then
      ((mergeVersion current bucket incoming).1 :: buckets,
        (mergeVersion current bucket incoming).2)
    else (bucket :: (upsertSlot incoming buckets).1, (upsertSlot incoming buckets).2)

def upsertHalfHourBucket (buckets : List LocalHalfHourBucket) (incoming : LocalHalfHourBucket) :
    List LocalHalfHourBucket × Bool :=
  if isCurrentLocalBucket incoming then upsertSlot current incoming buckets else (buckets, false)

end

end History
