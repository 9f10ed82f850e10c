import UsageMonit.History.Proof.Richer

/-!
# The catalog label of an upserted bucket

A bucket names one revision of the price catalog for all of its API amounts. The parts of a merged
bucket are parts of the two versions, whose counters they sum to (`PartsOf`, `mergeVersion_parts`);
but the model groups and the label may be parts of different ones. `Mislabels` lists how that comes
about, and `mergeVersion_labelled_iff` shows that there is no other way;
`upsertHalfHourBucket_consistent_iff` is the result for a list of buckets.
-/

namespace History

open Fallible Time Usage

/-! ## Parts and their sums -/

variable {a b : LocalHalfHourBucket}

/-- What is counted in a bucket, and in each of its groups. -/
structure Counters where
  tokenUsage : TokenUsage
  estimatedCostUnits : Nat
  apiLongContextExtraCostUnits : Option Nat
  callCount : Nat
deriving DecidableEq

def Counters.add (a b : Counters) : Counters where
  tokenUsage := a.tokenUsage.addAssign b.tokenUsage
  estimatedCostUnits := saturatingAdd 128 a.estimatedCostUnits b.estimatedCostUnits
  apiLongContextExtraCostUnits :=
    addOptionalUnits a.apiLongContextExtraCostUnits b.apiLongContextExtraCostUnits
  callCount := saturatingAdd 64 a.callCount b.callCount

def Counters.sum (parts : List Counters) : Counters :=
  parts.foldl Counters.add ⟨TokenUsage.zero, 0, some 0, 0⟩

def LocalUsageGroup.counters (group : LocalUsageGroup) : Counters :=
  ⟨group.tokenUsage, group.estimatedCostUnits, group.apiLongContextExtraCostUnits, group.callCount⟩

def LocalProjectUsageGroup.counters (group : LocalProjectUsageGroup) : Counters :=
  ⟨group.tokenUsage, group.estimatedCostUnits, group.apiLongContextExtraCostUnits, group.callCount⟩

def LocalHalfHourBucket.counters (bucket : LocalHalfHourBucket) : Counters :=
  ⟨bucket.tokenUsage, bucket.estimatedCostUnits, bucket.apiLongContextExtraCostUnits,
    bucket.callCount⟩

/-- The model groups and the project groups each sum to the bucket. -/
structure Balanced (bucket : LocalHalfHourBucket) : Prop where
  models : Counters.sum (bucket.groups.map (·.counters)) = bucket.counters
  projects : Counters.sum (bucket.projectGroups.map (·.counters)) = bucket.counters

theorem SameCounters.counters (h : SameCounters a b) : a.counters = b.counters := by
  simp [LocalHalfHourBucket.counters, h.tokens, h.units, h.extra, h.calls]

/-- Every part of the bucket is the one of a version that counts the same. -/
structure PartsOf (existing incoming bucket : LocalHalfHourBucket) : Prop where
  start : bucket.startsAt = existing.startsAt ∨ bucket.startsAt = incoming.startsAt
  catalog : bucket.apiPricingCatalogRevision = existing.apiPricingCatalogRevision ∨
    bucket.apiPricingCatalogRevision = incoming.apiPricingCatalogRevision
  models : (bucket.groups = existing.groups ∧ bucket.counters = existing.counters) ∨
    (bucket.groups = incoming.groups ∧ bucket.counters = incoming.counters)
  projects : (bucket.projectGroups = existing.projectGroups ∧
      bucket.counters = existing.counters) ∨
    (bucket.projectGroups = incoming.projectGroups ∧ bucket.counters = incoming.counters)

namespace PartsOf

variable {existing incoming bucket : LocalHalfHourBucket}

theorem left : PartsOf existing incoming existing :=
  ⟨.inl rfl, .inl rfl, .inl ⟨rfl, rfl⟩, .inl ⟨rfl, rfl⟩⟩

theorem right : PartsOf existing incoming incoming :=
  ⟨.inr rfl, .inr rfl, .inr ⟨rfl, rfl⟩, .inr ⟨rfl, rfl⟩⟩

theorem trans (ha : PartsOf existing incoming a) (hb : PartsOf existing incoming b)
    (h : PartsOf a b bucket) : PartsOf existing incoming bucket := by
  obtain ⟨hstart, hcatalog, hmodels, hprojects⟩ := h
  refine ⟨?_, ?_, ?_, ?_⟩
  · rcases hstart with h | h
    · exact h ▸ ha.start
    · exact h ▸ hb.start
  · rcases hcatalog with h | h
    · exact h ▸ ha.catalog
    · exact h ▸ hb.catalog
  · rcases hmodels with ⟨hg, hc⟩ | ⟨hg, hc⟩
    · exact hg ▸ hc ▸ ha.models
    · exact hg ▸ hc ▸ hb.models
  · rcases hprojects with ⟨hg, hc⟩ | ⟨hg, hc⟩
    · exact hg ▸ hc ▸ ha.projects
    · exact hg ▸ hc ▸ hb.projects

theorem balanced (h : PartsOf existing incoming bucket) (hexisting : Balanced existing)
    (hincoming : Balanced incoming) : Balanced bucket := by
  refine ⟨?_, ?_⟩
  · rcases h.models with ⟨hg, hc⟩ | ⟨hg, hc⟩
    · rw [hg, hc, hexisting.models]
    · rw [hg, hc, hincoming.models]
  · rcases h.projects with ⟨hg, hc⟩ | ⟨hg, hc⟩
    · rw [hg, hc, hexisting.projects]
    · rw [hg, hc, hincoming.projects]

end PartsOf

section
variable {current : Revisions} {existing incoming : LocalHalfHourBucket}

theorem graftModelGroups_parts {upgraded : Bool}
    (h : upgraded = true → SameCounters incoming existing) :
    PartsOf existing incoming (graftModelGroups current upgraded existing incoming).1 ∧
      PartsOf existing incoming (graftModelGroups current upgraded existing incoming).2 := by
  have hincoming (hsame : SameCounters incoming existing) :
      PartsOf existing incoming { incoming with groups := existing.groups } :=
    ⟨.inr rfl, .inr rfl, .inl ⟨rfl, hsame.counters⟩, .inr ⟨rfl, rfl⟩⟩
  unfold graftModelGroups
  split_ifs with hup hold hnew
  · exact ⟨⟨.inl rfl, .inl rfl, .inr ⟨rfl, (h hup).symm.counters⟩, .inl ⟨rfl, rfl⟩⟩, .right⟩
  · refine ⟨.left, hincoming ?_⟩
    rw [Bool.or_eq_true, Bool.and_eq_true] at hold
    rcases hold with ⟨-, hclosed⟩ | hupgrade
    · exact (closed_sameCounters hclosed).symm
    · exact (closed_sameCounters (upgrade_closed hupgrade).2).symm
  · rw [Bool.and_eq_true] at hnew
    exact ⟨.left, hincoming (closed_sameCounters hnew.1)⟩
  · exact ⟨.left, .right⟩

theorem retainCatalog_parts {repriced : Bool} :
    PartsOf existing incoming (retainCatalog current repriced existing incoming) := by
  unfold retainCatalog
  split_ifs with h
  · simp only [Bool.and_eq_true] at h
    exact ⟨.inr rfl, .inl rfl, .inr ⟨rfl, rfl⟩, .inl ⟨rfl, (closed_sameCounters h.1.2).counters⟩⟩
  · exact .right

theorem settleVersion_parts {upgraded : Bool} :
    PartsOf existing incoming (settleVersion current upgraded existing incoming).1 := by
  have hretain : PartsOf existing incoming (retainProjectGroups current existing incoming) := by
    unfold retainProjectGroups
    split_ifs with h
    · exact ⟨.inr rfl, .inl rfl, .inr ⟨rfl, rfl⟩,
        .inl ⟨rfl, (canUpgradeProjects_iff.1 h).1.symm.counters⟩⟩
    · exact .right
  unfold settleVersion
  dsimp only
  split_ifs with hproject
  · exact ⟨.inl rfl, .inr rfl, .inl ⟨rfl, rfl⟩,
      .inr ⟨rfl, (canUpgradeProjects_iff.1 hproject).1.symm.counters⟩⟩
  · exact hretain
  · exact .left

theorem mergeEvidence_parts :
    PartsOf existing incoming (mergeEvidence current existing incoming).1 := by
  have hsame (h : (modelGroupApiCostCanRepriceWithoutReplacing current incoming existing ||
      modelGroupApiCostCanUpgradeWithoutReplacing incoming existing) = true) :
      SameCounters incoming existing := by
    rcases Bool.or_eq_true_iff.1 h with h | h
    · exact closed_sameCounters (reprice_closed h).2
    · exact closed_sameCounters (upgrade_closed h).2
  obtain ⟨hstored, hversion⟩ := @graftModelGroups_parts current _ _ _ hsame
  exact hstored.trans (hstored.trans hversion retainCatalog_parts) settleVersion_parts

/-- A merged bucket is put together from parts of the two versions. -/
theorem mergeVersion_parts :
    PartsOf existing incoming (mergeVersion current existing incoming).1 := by
  unfold mergeVersion
  split_ifs
  · exact .right
  · exact .left
  · exact ⟨.inl rfl, .inl rfl, .inl ⟨rfl, rfl⟩, .inl ⟨rfl, rfl⟩⟩
  · exact mergeEvidence_parts

end

/-! ## Prices and labels -/

/-- Every amount of the groups is the amount of a source of the same model and tier. -/
def ModelPrices (groups sources : List LocalUsageGroup) : Prop :=
  ∀ group ∈ groups, ∃ source ∈ sources, source.identity = group.identity ∧
    source.apiEquivalentCost = group.apiEquivalentCost

/-- Every amount of the groups is the amount of a source of the same thread and turn. -/
def ProjectPrices (groups sources : List LocalProjectUsageGroup) : Prop :=
  ∀ group ∈ groups, ∃ source ∈ sources, source.turn = group.turn ∧
    source.apiEquivalentCost = group.apiEquivalentCost

instance (groups sources : List LocalUsageGroup) : Decidable (ModelPrices groups sources) :=
  inferInstanceAs (Decidable (∀ group ∈ groups, ∃ source ∈ sources, _))

theorem ModelPrices.refl (groups : List LocalUsageGroup) : ModelPrices groups groups :=
  fun group h => ⟨group, h, rfl, rfl⟩

theorem ProjectPrices.refl (groups : List LocalProjectUsageGroup) : ProjectPrices groups groups :=
  fun group h => ⟨group, h, rfl, rfl⟩

/-- Every API amount of the bucket comes from an input with the bucket's label. -/
structure Labelled (inputs : List LocalHalfHourBucket) (bucket : LocalHalfHourBucket) : Prop where
  models : ∀ group ∈ bucket.groups, ∃ input ∈ inputs,
    input.apiPricingCatalogRevision = bucket.apiPricingCatalogRevision ∧
      ModelPrices [group] input.groups
  projects : ∀ group ∈ bucket.projectGroups, ∃ input ∈ inputs,
    input.apiPricingCatalogRevision = bucket.apiPricingCatalogRevision ∧
      ProjectPrices [group] input.projectGroups

section
variable {inputs : List LocalHalfHourBucket} {input bucket existing incoming : LocalHalfHourBucket}

theorem modelPrices_singleton {groups sources : List LocalUsageGroup} :
    (∀ group ∈ groups, ModelPrices [group] sources) ↔ ModelPrices groups sources := by
  simp [ModelPrices]

theorem projectPrices_singleton {groups sources : List LocalProjectUsageGroup} :
    (∀ group ∈ groups, ProjectPrices [group] sources) ↔ ProjectPrices groups sources := by
  simp [ProjectPrices]

theorem Labelled.of_input (hmem : input ∈ inputs)
    (hcatalog : input.apiPricingCatalogRevision = bucket.apiPricingCatalogRevision)
    (hmodels : ModelPrices bucket.groups input.groups)
    (hprojects : ProjectPrices bucket.projectGroups input.projectGroups) :
    Labelled inputs bucket :=
  ⟨fun group h => ⟨input, hmem, hcatalog, modelPrices_singleton.2 hmodels group h⟩,
    fun group h => ⟨input, hmem, hcatalog, projectPrices_singleton.2 hprojects group h⟩⟩

/-- Under the label of one version only, the amounts must be that version's. -/
theorem labelled_left_iff
    (hne : existing.apiPricingCatalogRevision ≠ incoming.apiPricingCatalogRevision)
    (hcatalog : bucket.apiPricingCatalogRevision = existing.apiPricingCatalogRevision) :
    Labelled [existing, incoming] bucket ↔ ModelPrices bucket.groups existing.groups ∧
      ProjectPrices bucket.projectGroups existing.projectGroups := by
  refine ⟨fun h => ⟨modelPrices_singleton.1 fun group hg => ?_,
    projectPrices_singleton.1 fun group hg => ?_⟩,
    fun h => .of_input (by simp) hcatalog.symm h.1 h.2⟩
  · obtain ⟨input, hmem, hlabel, hprices⟩ := h.models group hg
    obtain rfl | rfl : input = existing ∨ input = incoming := by simpa using hmem
    · exact hprices
    · exact absurd (hcatalog.symm.trans hlabel.symm) hne
  · obtain ⟨input, hmem, hlabel, hprices⟩ := h.projects group hg
    obtain rfl | rfl : input = existing ∨ input = incoming := by simpa using hmem
    · exact hprices
    · exact absurd (hcatalog.symm.trans hlabel.symm) hne

theorem Labelled.swap (h : Labelled [existing, incoming] bucket) :
    Labelled [incoming, existing] bucket := by
  refine ⟨fun group hg => ?_, fun group hg => ?_⟩
  · obtain ⟨input, hmem, hrest⟩ := h.models group hg
    exact ⟨input, by simpa [or_comm] using hmem, hrest⟩
  · obtain ⟨input, hmem, hrest⟩ := h.projects group hg
    exact ⟨input, by simpa [or_comm] using hmem, hrest⟩

theorem labelled_right_iff
    (hne : existing.apiPricingCatalogRevision ≠ incoming.apiPricingCatalogRevision)
    (hcatalog : bucket.apiPricingCatalogRevision = incoming.apiPricingCatalogRevision) :
    Labelled [existing, incoming] bucket ↔ ModelPrices bucket.groups incoming.groups ∧
      ProjectPrices bucket.projectGroups incoming.projectGroups := by
  rw [← labelled_left_iff hne.symm hcatalog]
  exact ⟨.swap, .swap⟩

/-- Under equal labels nothing can be labelled wrongly. -/
theorem PartsOf.labelled (h : PartsOf existing incoming bucket)
    (heq : existing.apiPricingCatalogRevision = incoming.apiPricingCatalogRevision) :
    Labelled [existing, incoming] bucket := by
  have hcatalog : bucket.apiPricingCatalogRevision = existing.apiPricingCatalogRevision :=
    h.catalog.elim id fun hc => hc.trans heq.symm
  refine ⟨fun group hg => ?_, fun group hg => ?_⟩
  · rcases h.models with ⟨hm, -⟩ | ⟨hm, -⟩
    · exact ⟨existing, by simp, hcatalog.symm,
        modelPrices_singleton.2 (ModelPrices.refl _) group (hm ▸ hg)⟩
    · exact ⟨incoming, by simp, heq.symm.trans hcatalog.symm,
        modelPrices_singleton.2 (ModelPrices.refl _) group (hm ▸ hg)⟩
  · rcases h.projects with ⟨hm, -⟩ | ⟨hm, -⟩
    · exact ⟨existing, by simp, hcatalog.symm,
        projectPrices_singleton.2 (ProjectPrices.refl _) group (hm ▸ hg)⟩
    · exact ⟨incoming, by simp, heq.symm.trans hcatalog.symm,
        projectPrices_singleton.2 (ProjectPrices.refl _) group (hm ▸ hg)⟩

end

/-! ## When a merged bucket is mislabelled -/

/-- The incoming version is the better sample, or an equal one with the larger project breakdown. -/
def Overtakes (incoming existing : LocalHalfHourBucket) : Prop :=
  Fresher incoming existing ∨
    Tied incoming existing ∧ projectVolume existing < projectVolume incoming

/-- The stored model groups are kept against a version of a catalog that is not preferred. -/
def keepsModelGroups (existing incoming : LocalHalfHourBucket) : Bool :=
  closedBucketModelGroupNonApiEvidenceEq existing incoming ||
    (closedBucketModelGroupNonApiEvidenceEq incoming existing &&
      !modelGroupApiCostFactsEq incoming existing)

/-- The ways in which two versions with different catalogs and prices leave a bucket with the model
groups of one and the label of the other. -/
inductive Mislabels (current : Revisions) (existing incoming : LocalHalfHourBucket) : Prop
  /-- The repriced groups are grafted, but an older breakdown keeps the old label. -/
  | repriced (reprice : modelGroupApiCostCanRepriceWithoutReplacing current incoming existing = true)
      (older : incoming.projectBreakdownRevision < existing.projectBreakdownRevision)
      (loses : ¬ Overtakes incoming existing)
      (prices : ¬ ModelPrices incoming.groups existing.groups)
  /-- The new breakdown brings its label, and the groups are not those of two closed buckets. -/
  | relabelled (same : SameCounters incoming existing)
      (preferred : catalogIsPreferred current incoming existing = true)
      (opened : closedBucketModelGroupNonApiEvidenceEq incoming existing = false)
      (newer : existing.projectBreakdownRevision ≤ incoming.projectBreakdownRevision)
      (prices : ¬ ModelPrices existing.groups incoming.groups)
  /-- The old groups replace new ones, but a repeated identity among them hides that. -/
  | repeated (preferred : catalogIsPreferred current incoming existing = true)
      (closed : closedBucketModelGroupNonApiEvidenceEq incoming existing = true)
      (reprice : modelGroupApiCostCanRepriceWithoutReplacing current incoming existing = false)
      (facts : modelGroupApiCostFactsEq incoming existing = false)
      (identities : ¬ (existing.groups.map (·.identity)).Nodup)
      (wins : existing.projectBreakdownRevision ≤ incoming.projectBreakdownRevision ∨
        Overtakes incoming existing)
      (prices : ¬ ModelPrices existing.groups incoming.groups)
  /-- Every old group has its price among the new ones, but not the other way around. -/
  | hidden (preferred : catalogIsPreferred current incoming existing = true)
      (closed : closedBucketModelGroupNonApiEvidenceEq incoming existing = true)
      (reprice : modelGroupApiCostCanRepriceWithoutReplacing current incoming existing = false)
      (facts : modelGroupApiCostFactsEq incoming existing = true)
      (older : incoming.projectBreakdownRevision ≤ existing.projectBreakdownRevision)
      (wins : Fresher incoming existing)
      (prices : ¬ ModelPrices incoming.groups existing.groups)
  /-- The stored groups are kept, but a newer breakdown of the other catalog replaces the rest. -/
  | replaced (preferred : catalogIsPreferred current existing incoming = true)
      (keeps : keepsModelGroups existing incoming = true)
      (newer : existing.projectBreakdownRevision < incoming.projectBreakdownRevision)
      (wins : Fresher incoming existing ∨
        Tied incoming existing ∧ projectVolume existing ≤ projectVolume incoming)
      (prices : ¬ ModelPrices existing.groups incoming.groups)
  /-- The stored breakdown and its label are kept, but not the stored model groups. -/
  | retained (same : SameCounters incoming existing)
      (preferred : catalogIsPreferred current existing incoming = true)
      (keeps : keepsModelGroups existing incoming = false)
      (older : incoming.projectBreakdownRevision ≤ existing.projectBreakdownRevision)
      (wins : Fresher incoming existing)
      (prices : ¬ ModelPrices incoming.groups existing.groups)

/-! ## Settling -/

section
variable {current : Revisions} {upgraded : Bool} {existing incoming : LocalHalfHourBucket}

theorem settleVersion_grafts
    (h : projectBreakdownCanUpgradeWithoutReplacing current incoming existing = true) :
    (settleVersion current upgraded existing incoming).1 =
      graftProjectGroups existing incoming := by
  simp [settleVersion, h]

/-- The bucket with the model groups of another one. -/
def withModels (source bucket : LocalHalfHourBucket) : LocalHalfHourBucket :=
  { bucket with groups := source.groups }

theorem SameCounters.withModels_left {source : LocalHalfHourBucket} (h : SameCounters a b) :
    SameCounters (withModels source a) b :=
  ⟨h.estimator, h.tokens, h.units, h.extra, h.unknown, h.calls⟩

/-- The version with the project breakdown and the label of the stored bucket. -/
def withProjects (existing incoming : LocalHalfHourBucket) : LocalHalfHourBucket :=
  { incoming with
    projectBreakdownRevision := existing.projectBreakdownRevision
    apiPricingCatalogRevision := existing.apiPricingCatalogRevision
    projectGroups := existing.projectGroups }

@[simp] theorem withModels_catalog (source bucket : LocalHalfHourBucket) :
    (withModels source bucket).apiPricingCatalogRevision = bucket.apiPricingCatalogRevision := rfl

@[simp] theorem withModels_groups (source bucket : LocalHalfHourBucket) :
    (withModels source bucket).groups = source.groups := rfl

@[simp] theorem withModels_projectGroups (source bucket : LocalHalfHourBucket) :
    (withModels source bucket).projectGroups = bucket.projectGroups := rfl

@[simp] theorem withProjects_catalog (existing incoming : LocalHalfHourBucket) :
    (withProjects existing incoming).apiPricingCatalogRevision =
      existing.apiPricingCatalogRevision := rfl

@[simp] theorem withProjects_groups (existing incoming : LocalHalfHourBucket) :
    (withProjects existing incoming).groups = incoming.groups := rfl

@[simp] theorem withProjects_projectGroups (existing incoming : LocalHalfHourBucket) :
    (withProjects existing incoming).projectGroups = existing.projectGroups := rfl

@[simp] theorem graftProjectGroups_catalog (existing incoming : LocalHalfHourBucket) :
    (graftProjectGroups existing incoming).apiPricingCatalogRevision =
      incoming.apiPricingCatalogRevision := rfl

@[simp] theorem graftProjectGroups_groups (existing incoming : LocalHalfHourBucket) :
    (graftProjectGroups existing incoming).groups = existing.groups := rfl

@[simp] theorem graftProjectGroups_projectGroups (existing incoming : LocalHalfHourBucket) :
    (graftProjectGroups existing incoming).projectGroups = incoming.projectGroups := rfl

theorem SameCounters.withModels_right {source : LocalHalfHourBucket} (h : SameCounters a b) :
    SameCounters a (withModels source b) :=
  ⟨h.estimator, h.tokens, h.units, h.extra, h.unknown, h.calls⟩

theorem settleVersion_retains
    (h : projectBreakdownCanUpgradeWithoutReplacing current incoming existing = false)
    (h' : projectBreakdownCanUpgradeWithoutReplacing current existing incoming = true) :
    (settleVersion current upgraded existing incoming).1 =
      if shouldReplaceHalfHourBucket current.estimator (withProjects existing incoming) existing
      then withProjects existing incoming
      else existing := by
  have hretain : retainProjectGroups current existing incoming = withProjects existing incoming := by
    simp [retainProjectGroups, h', withProjects]
  simp only [settleVersion, hretain, h, Bool.false_eq_true, if_false]
  split_ifs <;> rfl

theorem canUpgradeProjects_preferred
    (hpreferred : catalogIsPreferred current incoming existing = true) :
    projectBreakdownCanUpgradeWithoutReplacing current incoming existing = true ↔
      SameCounters incoming existing ∧
        existing.projectBreakdownRevision ≤ incoming.projectBreakdownRevision := by
  rw [canUpgradeProjects_iff]
  tauto

theorem canUpgradeProjects_not_preferred
    (hne : existing.apiPricingCatalogRevision ≠ incoming.apiPricingCatalogRevision)
    (hpreferred : catalogIsPreferred current existing incoming = true) :
    projectBreakdownCanUpgradeWithoutReplacing current incoming existing = false := by
  have hother := not_preferred_swap hne hpreferred
  rw [← Bool.not_eq_true, canUpgradeProjects_iff]
  rintro ⟨-, -, h | ⟨h, -⟩⟩
  · simp [hother] at h
  · exact hne h.symm

theorem canUpgradeProjects_sameProjects (hsame : SameCounters incoming existing)
    (hcatalog : incoming.apiPricingCatalogRevision = existing.apiPricingCatalogRevision)
    (hprojects : incoming.projectGroups = existing.projectGroups) :
    projectBreakdownCanUpgradeWithoutReplacing current incoming existing = true ↔
      existing.projectBreakdownRevision < incoming.projectBreakdownRevision := by
  rw [canUpgradeProjects_iff, catalogIsPreferred_self hcatalog, hprojects,
    projectGroupsAreStrictlyRicher_self]
  simp only [hcatalog, Bool.false_eq_true, or_false, false_or, true_and]
  exact ⟨fun h => h.2.2, fun h => ⟨hsame, by omega, h⟩⟩

theorem evidenceEq_of_catalog_ne
    (hne : existing.apiPricingCatalogRevision ≠ incoming.apiPricingCatalogRevision) :
    halfHourBucketEvidenceEq incoming existing = false := by
  rw [← Bool.not_eq_true]
  intro h
  simp only [halfHourBucketEvidenceEq, decide_eq_true_eq] at h
  exact hne h.2.2.2.2.2.2.2.2.1.symm

theorem evidenceEq_of_groups_ne (hne : incoming.groups ≠ existing.groups) :
    halfHourBucketEvidenceEq incoming existing = false := by
  rw [← Bool.not_eq_true]
  intro h
  simp only [halfHourBucketEvidenceEq, decide_eq_true_eq] at h
  exact hne h.2.2.2.2.2.2.2.2.2.2.1

/-- An older breakdown replaces only with more of it, or as the better sample. -/
theorem shouldReplace_older {estimator : Nat} (hsame : SameCounters incoming existing)
    (hne : existing.apiPricingCatalogRevision ≠ incoming.apiPricingCatalogRevision)
    (holder : incoming.projectBreakdownRevision < existing.projectBreakdownRevision) :
    shouldReplaceHalfHourBucket estimator incoming existing = true ↔
      Overtakes incoming existing := by
  rw [shouldReplace_sameCounters hsame (evidenceEq_of_catalog_ne hne),
    evidenceKey_sameCounters hsame, Overtakes]
  have : ¬ (existing.projectBreakdownRevision < incoming.projectBreakdownRevision ∨
      existing.projectBreakdownRevision = incoming.projectBreakdownRevision ∧
        existing.apiPricingCatalogRevision < incoming.apiPricingCatalogRevision) := by
    omega
  tauto

theorem shouldReplace_newer {estimator : Nat} (hsame : SameCounters incoming existing)
    (hne : existing.apiPricingCatalogRevision ≠ incoming.apiPricingCatalogRevision)
    (hnewer : existing.projectBreakdownRevision < incoming.projectBreakdownRevision) :
    shouldReplaceHalfHourBucket estimator incoming existing = true ↔ Fresher incoming existing ∨
      Tied incoming existing ∧ projectVolume existing ≤ projectVolume incoming := by
  rw [shouldReplace_sameCounters hsame (evidenceEq_of_catalog_ne hne),
    evidenceKey_sameCounters hsame, le_iff_lt_or_eq]
  tauto

theorem shouldReplace_withProjects {estimator : Nat} (hsame : SameCounters incoming existing)
    (hgroups : incoming.groups ≠ existing.groups) :
    shouldReplaceHalfHourBucket estimator (withProjects existing incoming) existing = true ↔
      Fresher incoming existing := by
  have hsame' : SameCounters (withProjects existing incoming) existing :=
    ⟨hsame.estimator, hsame.tokens, hsame.units, hsame.extra, hsame.unknown, hsame.calls⟩
  have hvolume : projectVolume (withProjects existing incoming) = projectVolume existing := rfl
  have hfresher : Fresher (withProjects existing incoming) existing ↔ Fresher incoming existing :=
    Iff.rfl
  have hgroups' : (withProjects existing incoming).groups ≠ existing.groups := hgroups
  rw [shouldReplace_sameCounters hsame' (evidenceEq_of_groups_ne hgroups'),
    evidenceKey_sameCounters hsame', hvolume, hfresher]
  simp [withProjects]

theorem settleVersion_keeps (hmodels : incoming.groups = existing.groups)
    (hprojects : incoming.projectGroups = existing.projectGroups)
    (hcatalog : incoming.apiPricingCatalogRevision = existing.apiPricingCatalogRevision) :
    let bucket := (settleVersion current upgraded existing incoming).1
    bucket.groups = existing.groups ∧ bucket.projectGroups = existing.projectGroups ∧
      bucket.apiPricingCatalogRevision = existing.apiPricingCatalogRevision := by
  simp only [settleVersion, retainProjectGroups, graftProjectGroups]
  split_ifs <;> simp [hmodels, hprojects, hcatalog]

end

/-! ## The six cases -/

section
variable {current : Revisions} {existing incoming : LocalHalfHourBucket}

theorem mergeEvidence_repriced
    (h : modelGroupApiCostCanRepriceWithoutReplacing current incoming existing = true) :
    (mergeEvidence current existing incoming).1 =
      (settleVersion current true (withModels incoming existing) incoming).1 := by
  simp [mergeEvidence, h, graftModelGroups, retainCatalog, withModels]

theorem Labelled.of_stored {bucket : LocalHalfHourBucket} (h : bucket.groups = existing.groups ∧
      bucket.projectGroups = existing.projectGroups ∧
      bucket.apiPricingCatalogRevision = existing.apiPricingCatalogRevision) :
    Labelled [existing, incoming] bucket :=
  .of_input (by simp) h.2.2.symm (h.1 ▸ .refl _) (h.2.1 ▸ .refl _)

/-! Groups against themselves: only their identities have to be distinct. -/

theorem modelGroupNonApiEvidenceEq_self (group : LocalUsageGroup) :
    modelGroupNonApiEvidenceEq group group = true := by
  simp [modelGroupNonApiEvidenceEq]

theorem everyModelGroup_self {test : LocalUsageGroup → LocalUsageGroup → Bool}
    (htest : ∀ group, test group group = true) (hgroups : a.groups = b.groups) :
    everyModelGroup test a b = true ↔ (b.groups.map (·.identity)).Nodup := by
  unfold everyModelGroup modelGroupsByIdentity
  rw [hgroups]
  split_ifs with hnodup
  · simp only [Option.any_some, List.all_eq_true, hnodup, iff_true]
    intro group hmem
    rw [find?_of_nodup hnodup hmem]
    simp [htest]
  · simp [hnodup]

theorem closed_withModels (hclosed : closedBucketModelGroupNonApiEvidenceEq incoming existing = true) :
    closedBucketModelGroupNonApiEvidenceEq (withModels existing incoming) existing = true ↔
      (existing.groups.map (·.identity)).Nodup := by
  simp only [closedBucketModelGroupNonApiEvidenceEq, Bool.and_eq_true, decide_eq_true_eq]
    at hclosed ⊢
  rw [everyModelGroup_self modelGroupNonApiEvidenceEq_self (withModels_groups _ _)]
  exact ⟨fun h => h.2, fun h => ⟨⟨hclosed.1.1, hclosed.1.2.1, hclosed.1.2.2.1, hclosed.1.2.2.2.1,
    hclosed.1.2.2.2.2.1, hclosed.1.2.2.2.2.2.1, hclosed.1.2.2.2.2.2.2.1,
    hclosed.1.2.2.2.2.2.2.2.1, rfl⟩, h⟩⟩

section
variable (hne : existing.apiPricingCatalogRevision ≠ incoming.apiPricingCatalogRevision)
include hne

theorem mergeEvidence_unpriced
    (h : modelGroupApiCostCanRepriceWithoutReplacing current incoming existing = false) :
    (mergeEvidence current existing incoming).1 =
      (settleVersion current false existing (retainCatalog current false existing
        (if (catalogIsPreferred current existing incoming &&
            closedBucketModelGroupNonApiEvidenceEq existing incoming) ||
            (closedBucketModelGroupNonApiEvidenceEq incoming existing &&
              !modelGroupApiCostFactsEq incoming existing) then
          withModels existing incoming else incoming))).1 := by
  have hup : modelGroupApiCostCanUpgradeWithoutReplacing incoming existing = false := by
    rw [← Bool.not_eq_true]
    exact fun hu => hne (upgrade_closed hu).1.symm
  have hup' : modelGroupApiCostCanUpgradeWithoutReplacing existing incoming = false := by
    rw [← Bool.not_eq_true]
    exact fun hu => hne (upgrade_closed hu).1
  simp only [mergeEvidence, h, hup, graftModelGroups, hup', Bool.or_false, Bool.false_eq_true,
    if_false]
  cases catalogIsPreferred current existing incoming &&
      closedBucketModelGroupNonApiEvidenceEq existing incoming <;>
    cases closedBucketModelGroupNonApiEvidenceEq incoming existing &&
      !modelGroupApiCostFactsEq incoming existing <;> rfl

theorem repriced_labelled_iff
    (h : modelGroupApiCostCanRepriceWithoutReplacing current incoming existing = true) :
    Labelled [existing, incoming] (mergeEvidence current existing incoming).1 ↔
      ¬ (incoming.projectBreakdownRevision < existing.projectBreakdownRevision ∧
        ¬ Overtakes incoming existing ∧ ¬ ModelPrices incoming.groups existing.groups) := by
  obtain ⟨hpreferred, hclosed⟩ := reprice_closed h
  have hsame : SameCounters incoming (withModels incoming existing) :=
    (closed_sameCounters hclosed).withModels_right
  have hnew : Labelled [existing, incoming] incoming :=
    (labelled_right_iff hne rfl).2 ⟨.refl _, .refl _⟩
  have hupgrade := @canUpgradeProjects_preferred current (withModels incoming existing) incoming
    hpreferred
  rw [mergeEvidence_repriced h]
  by_cases hnewer : existing.projectBreakdownRevision ≤ incoming.projectBreakdownRevision
  · rw [settleVersion_grafts (hupgrade.2 ⟨hsame, hnewer⟩),
      labelled_right_iff hne (graftProjectGroups_catalog _ _)]
    exact iff_of_true ⟨.refl _, .refl _⟩ fun hmis => by omega
  · have holder : incoming.projectBreakdownRevision < existing.projectBreakdownRevision := by omega
    have hnot : projectBreakdownCanUpgradeWithoutReplacing current incoming
        (withModels incoming existing) = false := by
      rw [← Bool.not_eq_true, hupgrade]
      exact fun hup => hnewer hup.2
    have hnot' : projectBreakdownCanUpgradeWithoutReplacing current (withModels incoming existing)
        incoming = false := canUpgradeProjects_not_preferred hne.symm hpreferred
    have hreplace : shouldReplaceHalfHourBucket current.estimator incoming
        (withModels incoming existing) = true ↔ Overtakes incoming existing :=
      shouldReplace_older hsame hne holder
    rw [settleVersion_replaces hnot hnot']
    by_cases hwins : Overtakes incoming existing
    · rw [if_pos (hreplace.2 hwins)]
      exact iff_of_true hnew fun hmis => hmis.2.1 hwins
    · rw [if_neg (mt hreplace.1 hwins), labelled_left_iff hne (withModels_catalog _ _)]
      simp [holder, hwins, ProjectPrices.refl]

/-- A preferred version against the stored bucket: it is labelled by what its groups are. -/
theorem preferred_labelled_iff {version : LocalHalfHourBucket}
    (hpreferred : catalogIsPreferred current incoming existing = true)
    (hcatalog : version.apiPricingCatalogRevision = incoming.apiPricingCatalogRevision)
    (hprojects : version.projectGroups = incoming.projectGroups) :
    Labelled [existing, incoming] (settleVersion current false existing version).1 ↔
      ((SameCounters version existing ∧
          existing.projectBreakdownRevision ≤ version.projectBreakdownRevision →
        ModelPrices existing.groups incoming.groups) ∧
      (¬ (SameCounters version existing ∧
          existing.projectBreakdownRevision ≤ version.projectBreakdownRevision) →
        shouldReplaceHalfHourBucket current.estimator version existing = true →
        ModelPrices version.groups incoming.groups)) := by
  have hpreferred' : catalogIsPreferred current version existing = true := by
    rw [catalogIsPreferred, hcatalog]
    exact hpreferred
  have hne' : existing.apiPricingCatalogRevision ≠ version.apiPricingCatalogRevision :=
    hcatalog ▸ hne
  by_cases hgrafts : SameCounters version existing ∧
      existing.projectBreakdownRevision ≤ version.projectBreakdownRevision
  · rw [settleVersion_grafts ((canUpgradeProjects_preferred hpreferred').2 hgrafts),
      labelled_right_iff hne ((graftProjectGroups_catalog _ _).trans hcatalog)]
    simp [hgrafts, hprojects, ProjectPrices.refl]
  · have hnot : projectBreakdownCanUpgradeWithoutReplacing current version existing = false := by
      rw [← Bool.not_eq_true, canUpgradeProjects_preferred hpreferred']
      exact hgrafts
    rw [settleVersion_replaces hnot (canUpgradeProjects_not_preferred hne'.symm hpreferred')]
    by_cases hreplace :
        shouldReplaceHalfHourBucket current.estimator version existing = true
    · rw [if_pos hreplace, labelled_right_iff hne hcatalog]
      simp [hgrafts, hreplace, hprojects, ProjectPrices.refl]
    · rw [if_neg hreplace, labelled_left_iff hne rfl]
      simp [hgrafts, hreplace, ModelPrices.refl, ProjectPrices.refl]

theorem withProjects_labelled_iff
    (hsame : SameCounters incoming existing) :
    Labelled [existing, incoming]
        (if shouldReplaceHalfHourBucket current.estimator (withProjects existing incoming) existing
        then withProjects existing incoming else existing) ↔
      ¬ (Fresher incoming existing ∧ ¬ ModelPrices incoming.groups existing.groups) := by
  by_cases hprices : ModelPrices incoming.groups existing.groups
  · refine iff_of_true ?_ fun h => h.2 hprices
    split_ifs
    · exact (labelled_left_iff hne (withProjects_catalog _ _)).2 ⟨hprices, .refl _⟩
    · exact (labelled_left_iff hne rfl).2 ⟨.refl _, .refl _⟩
  · have hgroups : incoming.groups ≠ existing.groups := fun h => hprices (h ▸ .refl _)
    have hreplace := @shouldReplace_withProjects existing incoming current.estimator hsame hgroups
    by_cases hfresher : Fresher incoming existing
    · rw [if_pos (hreplace.2 hfresher), labelled_left_iff hne (withProjects_catalog _ _)]
      simp [hfresher, hprices]
    · rw [if_neg (mt hreplace.1 hfresher), labelled_left_iff hne rfl]
      simp [hfresher, ModelPrices.refl, ProjectPrices.refl]

section

variable (hpreferred : catalogIsPreferred current incoming existing = true)

include hpreferred

theorem opened_labelled_iff
    (hopened : closedBucketModelGroupNonApiEvidenceEq incoming existing = false)
    (hreprice : modelGroupApiCostCanRepriceWithoutReplacing current incoming existing = false) :
    Labelled [existing, incoming] (mergeEvidence current existing incoming).1 ↔
      ¬ (SameCounters incoming existing ∧
        existing.projectBreakdownRevision ≤ incoming.projectBreakdownRevision ∧
        ¬ ModelPrices existing.groups incoming.groups) := by
  have hother := not_preferred_swap hne.symm hpreferred
  have hsettle : (mergeEvidence current existing incoming).1 =
      (settleVersion current false existing incoming).1 := by
    rw [mergeEvidence_unpriced hne hreprice]
    simp [hother, hopened, retainCatalog]
  rw [hsettle, preferred_labelled_iff hne hpreferred rfl rfl]
  simp [ModelPrices.refl]

theorem hidden_labelled_iff
    (hclosed : closedBucketModelGroupNonApiEvidenceEq incoming existing = true)
    (hreprice : modelGroupApiCostCanRepriceWithoutReplacing current incoming existing = false)
    (hfacts : modelGroupApiCostFactsEq incoming existing = true) :
    Labelled [existing, incoming] (mergeEvidence current existing incoming).1 ↔
      ¬ (incoming.projectBreakdownRevision ≤ existing.projectBreakdownRevision ∧
        Fresher incoming existing ∧ ¬ ModelPrices incoming.groups existing.groups) := by
  have hother := not_preferred_swap hne.symm hpreferred
  have hsame := closed_sameCounters hclosed
  let version : LocalHalfHourBucket :=
    { incoming with
      apiPricingCatalogRevision := existing.apiPricingCatalogRevision
      projectGroups := existing.projectGroups }
  have hsettle : (mergeEvidence current existing incoming).1 =
      (settleVersion current false existing version).1 := by
    rw [mergeEvidence_unpriced hne hreprice]
    simp [hother, hfacts, retainCatalog, hpreferred, hclosed, version]
  have hsame' : SameCounters version existing :=
    ⟨hsame.estimator, hsame.tokens, hsame.units, hsame.extra, hsame.unknown, hsame.calls⟩
  have hup : projectBreakdownCanUpgradeWithoutReplacing current version existing = true ↔
      existing.projectBreakdownRevision < incoming.projectBreakdownRevision :=
    canUpgradeProjects_sameProjects hsame' rfl rfl
  have hup' : projectBreakdownCanUpgradeWithoutReplacing current existing version = true ↔
      incoming.projectBreakdownRevision < existing.projectBreakdownRevision :=
    canUpgradeProjects_sameProjects hsame'.symm rfl rfl
  rw [hsettle]
  rcases Nat.lt_trichotomy existing.projectBreakdownRevision incoming.projectBreakdownRevision with
    hlt | heq | hgt
  · rw [settleVersion_grafts (hup.2 hlt)]
    exact iff_of_true (.of_stored ⟨rfl, rfl, rfl⟩) fun h => by omega
  · have hversion : version = withProjects existing incoming := by
      simp [version, withProjects, heq]
    rw [settleVersion_replaces (by simp [← Bool.not_eq_true, hup, heq])
      (by simp [← Bool.not_eq_true, hup', heq]), hversion, withProjects_labelled_iff hne hsame]
    simp [heq]
  · have hversion : withProjects existing version = withProjects existing incoming := rfl
    rw [settleVersion_retains (by simp [← Bool.not_eq_true, hup, hgt.le]) (hup'.2 hgt), hversion,
      withProjects_labelled_iff hne hsame]
    simp [hgt.le]

theorem repeated_labelled_iff
    (hclosed : closedBucketModelGroupNonApiEvidenceEq incoming existing = true)
    (hreprice : modelGroupApiCostCanRepriceWithoutReplacing current incoming existing = false)
    (hfacts : modelGroupApiCostFactsEq incoming existing = false) :
    Labelled [existing, incoming] (mergeEvidence current existing incoming).1 ↔
      ¬ (¬ (existing.groups.map (·.identity)).Nodup ∧
        (existing.projectBreakdownRevision ≤ incoming.projectBreakdownRevision ∨
          Overtakes incoming existing) ∧ ¬ ModelPrices existing.groups incoming.groups) := by
  have hother := not_preferred_swap hne.symm hpreferred
  have hsame : SameCounters (withModels existing incoming) existing :=
    (closed_sameCounters hclosed).withModels_left
  have hsettle : (mergeEvidence current existing incoming).1 = (settleVersion current false existing
      (retainCatalog current false existing (withModels existing incoming))).1 := by
    rw [mergeEvidence_unpriced hne hreprice]
    simp [hother, hfacts, hclosed]
  have hpreferred' : catalogIsPreferred current (withModels existing incoming) existing = true :=
    hpreferred
  rw [hsettle]
  by_cases hnodup : (existing.groups.map (·.identity)).Nodup
  · refine iff_of_true (.of_stored (settleVersion_keeps ?_ ?_ ?_)) fun h => h.1 hnodup
    all_goals simp [retainCatalog, hpreferred', (closed_withModels hclosed).2 hnodup]
  · have hretain : retainCatalog current false existing (withModels existing incoming) =
        withModels existing incoming := by
      simp [retainCatalog, (closed_withModels hclosed).not.2 hnodup]
    rw [hretain, preferred_labelled_iff hne hpreferred (withModels_catalog _ _)
      (withModels_projectGroups _ _)]
    have hreplace (holder : incoming.projectBreakdownRevision < existing.projectBreakdownRevision) :
        shouldReplaceHalfHourBucket current.estimator (withModels existing incoming) existing = true ↔
          Overtakes incoming existing :=
      shouldReplace_older hsame hne holder
    have hrevision : (withModels existing incoming).projectBreakdownRevision =
        incoming.projectBreakdownRevision := rfl
    by_cases hnewer : existing.projectBreakdownRevision ≤ incoming.projectBreakdownRevision
    · simp [hsame, hrevision, hnewer, hnodup]
    · simp [hrevision, hnewer, hnodup, hreplace (by omega)]

end

section

variable (hpreferred : catalogIsPreferred current existing incoming = true)

include hpreferred

theorem mergeEvidence_not_preferred :
    (mergeEvidence current existing incoming).1 = (settleVersion current false existing
      (if keepsModelGroups existing incoming then withModels existing incoming else incoming)).1 := by
  have hother := not_preferred_swap hne hpreferred
  have hreprice : modelGroupApiCostCanRepriceWithoutReplacing current incoming existing = false := by
    rw [← Bool.not_eq_true]
    exact fun h => by simpa [hother] using (reprice_closed h).1
  rw [mergeEvidence_unpriced hne hreprice]
  have hother' : catalogIsPreferred current (withModels existing incoming) existing = false := hother
  have hretain (version : LocalHalfHourBucket)
      (h : catalogIsPreferred current version existing = false) :
      retainCatalog current false existing version = version := by
    simp [retainCatalog, h]
  rw [hpreferred, Bool.true_and, hretain]
  · rfl
  · split_ifs
    · exact hother'
    · exact hother

theorem replaced_labelled_iff
    (hkeeps : keepsModelGroups existing incoming = true) :
    Labelled [existing, incoming] (mergeEvidence current existing incoming).1 ↔
      ¬ (existing.projectBreakdownRevision < incoming.projectBreakdownRevision ∧
        (Fresher incoming existing ∨
          Tied incoming existing ∧ projectVolume existing ≤ projectVolume incoming) ∧
        ¬ ModelPrices existing.groups incoming.groups) := by
  have hclosed : SameCounters incoming existing := by
    simp only [keepsModelGroups, Bool.or_eq_true, Bool.and_eq_true] at hkeeps
    rcases hkeeps with h | ⟨h, -⟩
    · exact (closed_sameCounters h).symm
    · exact closed_sameCounters h
  have hsame : SameCounters (withModels existing incoming) existing := hclosed.withModels_left
  have hnot : projectBreakdownCanUpgradeWithoutReplacing current (withModels existing incoming)
      existing = false := canUpgradeProjects_not_preferred hne hpreferred
  have hup := @canUpgradeProjects_preferred current (withModels existing incoming) existing
    hpreferred
  rw [mergeEvidence_not_preferred hne hpreferred, if_pos hkeeps]
  by_cases holder : incoming.projectBreakdownRevision ≤ existing.projectBreakdownRevision
  · rw [settleVersion_retains hnot (hup.2 ⟨hsame.symm, holder⟩)]
    refine iff_of_true (.of_stored ?_) fun h => by omega
    split_ifs <;> simp
  · have hnewer : existing.projectBreakdownRevision < incoming.projectBreakdownRevision := by omega
    have hreplace := @shouldReplace_newer _ (withModels existing incoming) current.estimator hsame
      hne hnewer
    rw [settleVersion_replaces hnot
      ((Bool.not_eq_true _).mp fun h => holder (hup.1 h).2)]
    by_cases hwins : Fresher incoming existing ∨
        Tied incoming existing ∧ projectVolume existing ≤ projectVolume incoming
    · rw [if_pos (hreplace.2 hwins), labelled_right_iff hne (withModels_catalog _ _)]
      simp [hnewer, hwins, ProjectPrices.refl]
    · rw [if_neg (mt hreplace.1 hwins), labelled_left_iff hne rfl]
      simp [hwins, ModelPrices.refl, ProjectPrices.refl]

theorem retained_labelled_iff
    (hkeeps : keepsModelGroups existing incoming = false) :
    Labelled [existing, incoming] (mergeEvidence current existing incoming).1 ↔
      ¬ (SameCounters incoming existing ∧
        incoming.projectBreakdownRevision ≤ existing.projectBreakdownRevision ∧
        Fresher incoming existing ∧ ¬ ModelPrices incoming.groups existing.groups) := by
  have hnot : projectBreakdownCanUpgradeWithoutReplacing current incoming existing = false :=
    canUpgradeProjects_not_preferred hne hpreferred
  have hup := @canUpgradeProjects_preferred current incoming existing hpreferred
  rw [mergeEvidence_not_preferred hne hpreferred, if_neg (by simp [hkeeps])]
  by_cases hretains : SameCounters existing incoming ∧
      incoming.projectBreakdownRevision ≤ existing.projectBreakdownRevision
  · rw [settleVersion_retains hnot (hup.2 hretains),
      withProjects_labelled_iff hne hretains.1.symm]
    simp [hretains.1.symm, hretains.2]
  · rw [settleVersion_replaces hnot ((Bool.not_eq_true _).mp fun h => hretains (hup.1 h))]
    refine iff_of_true ?_ fun h => hretains ⟨h.1.symm, h.2.1⟩
    split_ifs
    · exact (labelled_right_iff hne rfl).2 ⟨.refl _, .refl _⟩
    · exact (labelled_left_iff hne rfl).2 ⟨.refl _, .refl _⟩

end

/-- **The label of merged evidence.** The amounts are those of the label unless one of the six
cases applies. -/
theorem mergeEvidence_labelled_iff :
    Labelled [existing, incoming] (mergeEvidence current existing incoming).1 ↔
      ¬ Mislabels current existing incoming := by
  rcases Bool.eq_false_or_eq_true (catalogIsPreferred current incoming existing) with
    hpreferred | hpreferred
  · have hother := not_preferred_swap hne.symm hpreferred
    rcases Bool.eq_false_or_eq_true
      (modelGroupApiCostCanRepriceWithoutReplacing current incoming existing) with
      hreprice | hreprice
    · rw [repriced_labelled_iff hne hreprice, not_iff_not]
      have hclosed := (reprice_closed hreprice).2
      refine ⟨fun ⟨h₁, h₂, h₃⟩ => .repriced hreprice h₁ h₂ h₃, fun h => ?_⟩
      cases h <;> simp_all
    · rcases Bool.eq_false_or_eq_true
        (closedBucketModelGroupNonApiEvidenceEq incoming existing) with hclosed | hclosed
      · rcases Bool.eq_false_or_eq_true (modelGroupApiCostFactsEq incoming existing) with
          hfacts | hfacts
        · rw [hidden_labelled_iff hne hpreferred hclosed hreprice hfacts, not_iff_not]
          refine ⟨fun ⟨h₁, h₂, h₃⟩ => .hidden hpreferred hclosed hreprice hfacts h₁ h₂ h₃,
            fun h => ?_⟩
          cases h <;> simp_all
        · rw [repeated_labelled_iff hne hpreferred hclosed hreprice hfacts, not_iff_not]
          refine ⟨fun ⟨h₁, h₂, h₃⟩ => .repeated hpreferred hclosed hreprice hfacts h₁ h₂ h₃,
            fun h => ?_⟩
          cases h <;> simp_all
      · rw [opened_labelled_iff hne hpreferred hclosed hreprice, not_iff_not]
        refine ⟨fun ⟨h₁, h₂, h₃⟩ => .relabelled h₁ hpreferred hclosed h₂ h₃, fun h => ?_⟩
        cases h <;> simp_all
  · have hother : catalogIsPreferred current existing incoming = true := by
      rw [catalogIsPreferred_swap hne.symm, hpreferred]
      rfl
    have hreprice :
        modelGroupApiCostCanRepriceWithoutReplacing current incoming existing = false := by
      rw [← Bool.not_eq_true]
      exact fun h => by simpa [hpreferred] using (reprice_closed h).1
    rcases Bool.eq_false_or_eq_true (keepsModelGroups existing incoming) with hkeeps | hkeeps
    · rw [replaced_labelled_iff hne hother hkeeps, not_iff_not]
      refine ⟨fun ⟨h₁, h₂, h₃⟩ => .replaced hother hkeeps h₁ h₂ h₃, fun h => ?_⟩
      cases h <;> simp_all
    · rw [retained_labelled_iff hne hother hkeeps, not_iff_not]
      refine ⟨fun ⟨h₁, h₂, h₃, h₄⟩ => .retained h₁ hother hkeeps h₂ h₃ h₄, fun h => ?_⟩
      cases h <;> simp_all

end

theorem Mislabels.sameCounters (h : Mislabels current existing incoming) :
    SameCounters incoming existing := by
  cases h with
  | repriced hreprice => exact closed_sameCounters (reprice_closed hreprice).2
  | relabelled hsame => exact hsame
  | repeated _ hclosed => exact closed_sameCounters hclosed
  | hidden _ hclosed => exact closed_sameCounters hclosed
  | replaced _ hkeeps =>
    simp only [keepsModelGroups, Bool.or_eq_true, Bool.and_eq_true] at hkeeps
    rcases hkeeps with h | ⟨h, -⟩
    · exact (closed_sameCounters h).symm
    · exact closed_sameCounters h
  | retained hsame => exact hsame

theorem Mislabels.catalog_ne (h : Mislabels current existing incoming) :
    existing.apiPricingCatalogRevision ≠ incoming.apiPricingCatalogRevision := by
  intro heq
  have hold := @catalogIsPreferred_self current _ _ heq
  have hnew := @catalogIsPreferred_self current _ _ heq.symm
  cases h with
  | repriced hreprice => simpa [hnew] using (reprice_closed hreprice).1
  | relabelled _ hpreferred => simp [hnew] at hpreferred
  | repeated hpreferred => simp [hnew] at hpreferred
  | hidden hpreferred => simp [hnew] at hpreferred
  | replaced hpreferred => simp [hold] at hpreferred
  | retained _ hpreferred => simp [hold] at hpreferred

/-- **The label of a merged version.** -/
theorem mergeVersion_labelled_iff :
    Labelled [existing, incoming] (mergeVersion current existing incoming).1 ↔
      ¬ Mislabels current existing incoming := by
  by_cases hne : existing.apiPricingCatalogRevision = incoming.apiPricingCatalogRevision
  · exact iff_of_true (mergeVersion_parts.labelled hne) fun h => h.catalog_ne hne
  · have hpayload : halfHourBucketPayloadEq incoming existing = false := by
      simp [halfHourBucketPayloadEq, evidenceEq_of_catalog_ne hne]
    unfold mergeVersion
    rw [if_neg (by simp [hpayload])]
    by_cases hgap : revealsCoverageGap existing incoming = true
    · rw [if_pos hgap]
      simp only [revealsCoverageGap, Bool.and_eq_true, Bool.not_eq_true'] at hgap
      have hdominates : StrictlyDominates existing incoming := hgap.1.1.1
      exact iff_of_true (.of_stored ⟨rfl, rfl, rfl⟩) fun h =>
        hdominates.not_sameCounters h.sameCounters.symm
    · rw [if_neg hgap]
      exact mergeEvidence_labelled_iff hne

end

/-! ## The stored buckets -/

/-- What an upsert is to keep: one bucket for a start, sums, labels, and evidence that strictly
dominates the version under the same estimator. -/
structure UpsertConsistent (before : List LocalHalfHourBucket) (incoming : LocalHalfHourBucket)
    (after : List LocalHalfHourBucket) : Prop where
  slots : (after.map (·.startsAt)).Nodup
  balanced : ∀ bucket ∈ after, Balanced bucket
  labelled : ∀ bucket ∈ after,
    Labelled ((incoming :: before).filter (·.startsAt = bucket.startsAt)) bucket
  kept : ∀ existing ∈ before, existing.startsAt = incoming.startsAt →
    existing.estimatorRevision = incoming.estimatorRevision →
    StrictlyDominates existing incoming → ∃ bucket ∈ after, bucket =
      { existing with sampledAt := bucket.sampledAt, partialReasons := bucket.partialReasons }

section
variable {current : Revisions} {before : List LocalHalfHourBucket}
  {incoming : LocalHalfHourBucket}

theorem Labelled.congr {inputs inputs' : List LocalHalfHourBucket} {bucket : LocalHalfHourBucket}
    (h : ∀ input, input ∈ inputs ↔ input ∈ inputs') :
    Labelled inputs bucket ↔ Labelled inputs' bucket := by
  constructor
  · rintro ⟨hmodels, hprojects⟩
    exact ⟨by simpa [h] using hmodels, by simpa [h] using hprojects⟩
  · rintro ⟨hmodels, hprojects⟩
    exact ⟨by simpa [h] using hmodels, by simpa [h] using hprojects⟩

theorem Labelled.self {inputs : List LocalHalfHourBucket} {bucket : LocalHalfHourBucket}
    (h : bucket ∈ inputs) : Labelled inputs bucket :=
  .of_input h rfl (.refl _) (.refl _)

theorem eq_of_nodup_start (h : (before.map (·.startsAt)).Nodup) (ha : a ∈ before)
    (hb : b ∈ before) (hstart : a.startsAt = b.startsAt) : a = b :=
  List.inj_on_of_nodup_map h ha hb hstart

/-- **Upserts keep a bucket's parts and labels together** exactly where no two versions of the
bucket are mixed under one label. -/
theorem upsertHalfHourBucket_consistent_iff (hslots : (before.map (·.startsAt)).Nodup)
    (hbefore : ∀ bucket ∈ before, Balanced bucket) (hincoming : Balanced incoming) :
    UpsertConsistent before incoming (upsertHalfHourBucket current before incoming).1 ↔
      (isCurrentLocalBucket incoming = true → ∀ existing ∈ before,
        existing.startsAt = incoming.startsAt → ¬ Mislabels current existing incoming) := by
  unfold upsertHalfHourBucket
  by_cases hcurrent : isCurrentLocalBucket incoming = true
  swap
  · rw [if_neg hcurrent]
    refine iff_of_true ⟨hslots, hbefore, fun bucket hmem => .self (by simp [hmem]), ?_⟩
      fun h => absurd h hcurrent
    exact fun existing hmem _ _ _ => ⟨existing, hmem, rfl⟩
  rw [if_pos hcurrent]
  by_cases hstored : ∃ existing ∈ before, existing.startsAt = incoming.startsAt
  swap
  · have hnew : ∀ bucket ∈ before, bucket.startsAt ≠ incoming.startsAt :=
      fun bucket hmem heq => hstored ⟨bucket, hmem, heq⟩
    rw [upsertSlot_new hnew]
    refine iff_of_true ⟨?_, ?_, ?_, ?_⟩ fun _ existing hmem heq => absurd heq (hnew existing hmem)
    · rw [List.map_append, List.nodup_append]
      refine ⟨hslots, by simp, ?_⟩
      simpa using hnew
    · simpa [or_imp, forall_and] using ⟨hbefore, hincoming⟩
    · intro bucket hmem
      exact .self (by simpa [or_comm] using hmem)
    · exact fun existing hmem heq => absurd heq (hnew existing hmem)
  obtain ⟨existing, hmem, hstart⟩ := hstored
  obtain ⟨pre, post, hsplit, hafter⟩ := @upsertSlot_stored current _ _ _ hslots hmem hstart
  have hparts := @mergeVersion_parts current existing incoming
  have hmerged : (mergeVersion current existing incoming).1.startsAt = existing.startsAt := by
    rcases hparts.start with h | h
    · exact h
    · exact h.trans hstart.symm
  have hinputs : ∀ input, input ∈ (incoming :: before).filter (·.startsAt =
        (mergeVersion current existing incoming).1.startsAt) ↔ input ∈ [existing, incoming] := by
    intro input
    simp only [hmerged, List.mem_filter, decide_eq_true_eq, List.mem_cons, List.not_mem_nil,
      or_false]
    constructor
    · rintro ⟨rfl | h, heq⟩
      · exact .inr rfl
      · exact .inl (eq_of_nodup_start hslots h hmem heq)
    · rintro (rfl | rfl)
      · exact ⟨.inr hmem, rfl⟩
      · exact ⟨.inl rfl, hstart.symm⟩
  have honly : (∀ other ∈ before, other.startsAt = incoming.startsAt →
      ¬ Mislabels current other incoming) ↔ ¬ Mislabels current existing incoming := by
    refine ⟨fun h => h existing hmem hstart, fun h other hother heq => ?_⟩
    rwa [eq_of_nodup_start hslots hother hmem (heq.trans hstart.symm)]
  rw [hafter, forall_prop_of_true hcurrent, honly, ← mergeVersion_labelled_iff,
    ← Labelled.congr hinputs]
  constructor
  · exact fun h => h.labelled _ (by simp)
  · intro hlabelled
    subst hsplit
    refine ⟨?_, ?_, ?_, ?_⟩
    · simpa [hmerged] using hslots
    · intro bucket hbucket
      rcases List.mem_append.1 hbucket with h | h
      · exact hbefore bucket (by simp [h])
      · rcases List.mem_cons.1 h with rfl | h
        · exact hparts.balanced (hbefore existing hmem) hincoming
        · exact hbefore bucket (by simp [h])
    · intro bucket hbucket
      rcases List.mem_append.1 hbucket with h | h
      · exact .self (by simp [h])
      · rcases List.mem_cons.1 h with rfl | h
        · exact hlabelled
        · exact .self (by simp [h])
    · intro other hother heq hestimator hdominates
      obtain rfl := eq_of_nodup_start hslots hother hmem (heq.trans hstart.symm)
      obtain ⟨sampledAt, partialReasons, hkept⟩ :=
        @mergeVersion_dominated current _ _ hestimator hdominates
      exact ⟨(mergeVersion current other incoming).1, by simp, by rw [hkept]⟩

end

instance (groups sources : List LocalProjectUsageGroup) :
    Decidable (ProjectPrices groups sources) :=
  inferInstanceAs (Decidable (∀ group ∈ groups, ∃ source ∈ sources, _))

instance (inputs : List LocalHalfHourBucket) (bucket : LocalHalfHourBucket) :
    Decidable (Labelled inputs bucket) :=
  decidable_of_iff ((∀ group ∈ bucket.groups, ∃ input ∈ inputs,
      input.apiPricingCatalogRevision = bucket.apiPricingCatalogRevision ∧
        ModelPrices [group] input.groups) ∧
    ∀ group ∈ bucket.projectGroups, ∃ input ∈ inputs,
      input.apiPricingCatalogRevision = bucket.apiPricingCatalogRevision ∧
        ProjectPrices [group] input.projectGroups)
    ⟨fun h => ⟨h.1, h.2⟩, fun h => ⟨h.1, h.2⟩⟩

instance (bucket : LocalHalfHourBucket) : Decidable (Balanced bucket) :=
  decidable_of_iff (Counters.sum (bucket.groups.map (·.counters)) = bucket.counters ∧
    Counters.sum (bucket.projectGroups.map (·.counters)) = bucket.counters)
    ⟨fun h => ⟨h.1, h.2⟩, fun h => ⟨h.1, h.2⟩⟩

namespace Sample

/-- Calls of ten tokens in and five out. -/
def tokens (calls : Nat) : TokenUsage := ⟨10 * calls, 0, 0, 5 * calls, 0, 0, 15 * calls⟩

/-- The bucket of some calls, priced under a catalog and sampled some seconds after its start. -/
def pricedBucket (calls catalog price sampled : Nat) : LocalHalfHourBucket where
  startsAt := 0
  endsAt := seconds 900
  sampledAt := seconds sampled
  tokenUsage := tokens calls
  estimatedCostUnits := 7 * calls
  apiLongContextExtraCostUnits := some 0
  estimatorRevision := 1
  projectBreakdownRevision := 1
  apiPricingCatalogRevision := catalog
  callCount := calls
  groups := [{ model := some "gpt-5", tokenUsage := tokens calls, estimatedCostUnits := 7 * calls,
               apiLongContextExtraCostUnits := some 0, callCount := calls,
               apiEquivalentCost := ⟨price, price, calls, calls, 15 * calls, 15 * calls⟩,
               apiEquivalentCostComplete := true }]
  projectGroups := [{ threadId := "thread", turnId := some "turn", tokenUsage := tokens calls,
                      estimatedCostUnits := 7 * calls, apiLongContextExtraCostUnits := some 0,
                      callCount := calls,
                      apiEquivalentCost := ⟨price, price, calls, calls, 15 * calls, 15 * calls⟩ }]

/-- Two versions under one catalog, the later one with a second call. -/
theorem upsertHalfHourBucket_one_catalog :
    UpsertConsistent [pricedBucket 1 2 100 60] (pricedBucket 2 2 200 120)
      (upsertHalfHourBucket ⟨1, 2⟩ [pricedBucket 1 2 100 60] (pricedBucket 2 2 200 120)).1 :=
  (upsertHalfHourBucket_consistent_iff (by decide +kernel) (by decide +kernel)
    (by decide +kernel)).2 fun _ existing hmem _ h => by
      obtain rfl : existing = pricedBucket 1 2 100 60 := by simpa using hmem
      exact h.catalog_ne rfl

/-- A process with a new catalog sees the call of a bucket that is still open: the old amount of the
model group ends up under the new label. -/
theorem upsertHalfHourBucket_mislabels :
    Balanced (pricedBucket 1 1 100 60) ∧ Balanced (pricedBucket 1 2 130 120) ∧
      ¬ UpsertConsistent [pricedBucket 1 1 100 60] (pricedBucket 1 2 130 120)
        (upsertHalfHourBucket ⟨1, 2⟩ [pricedBucket 1 1 100 60] (pricedBucket 1 2 130 120)).1 := by
  refine ⟨by decide +kernel, by decide +kernel, fun h => ?_⟩
  have hstored := h.labelled
    (mergeVersion ⟨1, 2⟩ (pricedBucket 1 1 100 60) (pricedBucket 1 2 130 120)).1
    (by decide +kernel)
  exact absurd hstored (by decide +kernel)

end Sample

end History
