import UsageMonit.History.Proof.Labels
import UsageMonit.Lib.Settling

/-!
# Where an upsert leads

`rank` orders the versions of a bucket: by the estimator, by what is counted, by the time of the
sample, by the quality of the collection, by the weight of the project breakdown, and last by
enrichment. An upsert that changes the stored bucket raises its rank (`mergeVersion_ascends`),
unless the version wins in one of the ways of `Backslides`.
-/

namespace History

open Usage

/-! ## What is counted -/

variable {a b : LocalHalfHourBucket}

/-- The counters the comparison of evidence reads, ordered componentwise. -/
abbrev Evidence := ℕ × ℕ × ℕ × ℕ × ℕ × ℕ × ℕ × ℕ

def evidenceOf (calls : Nat) (usage : TokenUsage) (units : Nat) : Evidence :=
  (calls, usage.inputTokens, usage.cachedInputTokens, usage.cacheWriteInputTokens,
    usage.outputTokens, usage.reasoningOutputTokens, usage.totalTokens, units)

theorem unweighted_and_units_iff {calls otherCalls units otherUnits : Nat}
    {usage other : TokenUsage} :
    (unweightedEvidenceDominates calls otherCalls usage other && decide (otherUnits ≤ units)) = true ↔
      evidenceOf otherCalls other otherUnits ≤ evidenceOf calls usage units := by
  simp only [unweightedEvidenceDominates, evidenceOf, Bool.and_eq_true, decide_eq_true_eq,
    Prod.mk_le_mk]
  tauto

def LocalHalfHourBucket.evidence (bucket : LocalHalfHourBucket) : Evidence :=
  evidenceOf bucket.callCount bucket.tokenUsage bucket.estimatedCostUnits

theorem bucketEvidenceDominates_iff :
    bucketEvidenceDominates a b = true ↔ b.evidence ≤ a.evidence :=
  unweighted_and_units_iff

theorem SameCounters.evidence (h : SameCounters a b) : a.evidence = b.evidence := by
  simp [LocalHalfHourBucket.evidence, h.tokens, h.units, h.calls]

/-! ## Ranks -/

/-- The active estimator revision is above all others. -/
def estimatorRank (current revision : Nat) : WithTop ℕ :=
  if revision = current then ⊤ else revision

theorem estimatorRank_lt {candidate existing current : Nat}
    (h : revisionIsPreferred candidate existing current = true) :
    estimatorRank current existing < estimatorRank current candidate := by
  rw [revisionIsPreferred_iff] at h
  unfold estimatorRank
  obtain ⟨hne, rfl | ⟨hold, hlt⟩⟩ := h
  · rw [if_neg (Ne.symm hne), if_pos rfl]
    exact WithTop.coe_lt_top existing
  · rw [if_neg hold]
    split_ifs
    · exact WithTop.coe_lt_top existing
    · exact WithTop.coe_lt_coe.2 hlt

/-- What the project breakdown of a bucket weighs: its volume, its revision and its label. -/
def breakdownWeight (bucket : LocalHalfHourBucket) : (ℕ ×ₗ ℕ) ×ₗ ℕ ×ₗ ℕ :=
  toLex (projectVolume bucket,
    toLex (bucket.projectBreakdownRevision, bucket.apiPricingCatalogRevision))

theorem evidenceKey_lt_iff (h : a.evidence = b.evidence) :
    bucketEvidenceKey b < bucketEvidenceKey a ↔ breakdownWeight b < breakdownWeight a := by
  simp only [LocalHalfHourBucket.evidence, evidenceOf, Prod.mk.injEq] at h
  obtain ⟨hcalls, hinput, hcached, hwrite, houtput, hreasoning, htotal, hunits⟩ := h
  simp only [bucketEvidenceKey, hcalls, hinput, hcached, hwrite, houtput, hreasoning, htotal,
    hunits, List.cons_lt_cons_iff, lt_irrefl, false_or, true_and, breakdownWeight, projectVolume,
    Prod.Lex.toLex_lt_toLex, toLex_inj, Prod.mk.injEq, and_false, or_false]
  tauto

def LocalHalfHourBucket.breakdown (bucket : LocalHalfHourBucket) : Breakdown :=
  ⟨bucket.projectGroups, bucket.groups⟩

/-- The order of the tests, from the first to the last. -/
abbrev Rank :=
  WithTop ℕ ×ₗ Evidence ×ₗ ℤ ×ₗ ℕᵒᵈ ×ₗ ((ℕ ×ₗ ℕ) ×ₗ ℕ ×ₗ ℕ) ×ₗ Breakdown

def rank (estimator : Nat) (bucket : LocalHalfHourBucket) : Rank :=
  toLex (estimatorRank estimator bucket.estimatorRevision, toLex (bucket.evidence,
    toLex (bucket.sampledAt, toLex (OrderDual.toDual (bucketCollectionIssueCount bucket),
      toLex (breakdownWeight bucket, bucket.breakdown)))))

/-- The second bucket is the better sample of the same calls, or has the heavier breakdown. -/
def Overrides (a b : LocalHalfHourBucket) : Prop :=
  a.sampledAt < b.sampledAt ∨ a.sampledAt = b.sampledAt ∧
    (bucketCollectionIssueCount b < bucketCollectionIssueCount a ∨
      bucketCollectionIssueCount b = bucketCollectionIssueCount a ∧
        breakdownWeight a < breakdownWeight b)

/-- The second bucket overrides the first, or has an enriched breakdown. -/
def Improves (a b : LocalHalfHourBucket) : Prop :=
  a.sampledAt < b.sampledAt ∨ a.sampledAt = b.sampledAt ∧
    (bucketCollectionIssueCount b < bucketCollectionIssueCount a ∨
      bucketCollectionIssueCount b = bucketCollectionIssueCount a ∧
        (breakdownWeight a < breakdownWeight b ∨ breakdownWeight a = breakdownWeight b ∧
          a.breakdown < b.breakdown))

section
variable {estimator : Nat}

theorem Overrides.improves (h : Overrides a b) : Improves a b := by
  unfold Overrides at h
  tauto

theorem rank_lt_of_estimator
    (h : estimatorRank estimator a.estimatorRevision < estimatorRank estimator b.estimatorRevision) :
    rank estimator a < rank estimator b :=
  Prod.Lex.toLex_lt_toLex.2 (.inl h)

theorem rank_lt_of_evidence (hestimator : a.estimatorRevision = b.estimatorRevision)
    (h : a.evidence < b.evidence) : rank estimator a < rank estimator b :=
  Prod.Lex.toLex_lt_toLex.2 (.inr ⟨congrArg (estimatorRank estimator) hestimator, Prod.Lex.toLex_lt_toLex.2 (.inl h)⟩)

theorem rank_lt_of_improves (hestimator : a.estimatorRevision = b.estimatorRevision)
    (hevidence : a.evidence = b.evidence) (h : Improves a b) :
    rank estimator a < rank estimator b := by
  refine Prod.Lex.toLex_lt_toLex.2 (.inr ⟨congrArg (estimatorRank estimator) hestimator,
    Prod.Lex.toLex_lt_toLex.2 (.inr ⟨hevidence, ?_⟩)⟩)
  simp only [Prod.Lex.toLex_lt_toLex, OrderDual.toDual_lt_toDual, OrderDual.toDual_inj]
  simpa only [eq_comm, Improves] using h

end

/-! ## Replacing -/

/-- With equal estimators and counters a version wins as the better sample or by its breakdown,
and never with an earlier sample against a stored one that differs only in its coverage. -/
theorem overrides_of_replace {estimator : Nat}
    (hestimator : b.estimatorRevision = a.estimatorRevision) (hevidence : b.evidence = a.evidence)
    (hearlier : bucketCollectionIssueCount b < bucketCollectionIssueCount a →
      ¬ (halfHourBucketEvidenceEq b a = true ∧
        coverageIssueStateDiffers b.partialReasons a.partialReasons = true) →
      ¬ b.sampledAt < a.sampledAt) (h : shouldReplaceHalfHourBucket estimator b a = true) :
    Overrides a b := by
  have hdominates : bucketEvidenceDominates b a = true := bucketEvidenceDominates_iff.2 hevidence.ge
  have hdominated : bucketEvidenceDominates a b = true := bucketEvidenceDominates_iff.2 hevidence.le
  unfold shouldReplaceHalfHourBucket at h
  split_ifs at h with hguard hest hdom hissues hsampled
  · exact .inl (by simpa using h)
  · exact absurd hestimator hest
  · simp [hdominates, hdominated] at hdom
  · have hfewer : bucketCollectionIssueCount b < bucketCollectionIssueCount a := by simpa using h
    by_cases hsampled : b.sampledAt = a.sampledAt
    · exact .inr ⟨hsampled.symm, .inl hfewer⟩
    · have hnot := hearlier hfewer fun hboth => hguard (by simp [hboth, hsampled])
      exact .inl (lt_of_le_of_ne (not_lt.1 hnot) (Ne.symm hsampled))
  · exact .inl (by simpa using h)
  · have hissues' : bucketCollectionIssueCount b = bucketCollectionIssueCount a := not_not.1 hissues
    have hsampled' : b.sampledAt = a.sampledAt := not_not.1 hsampled
    refine .inr ⟨hsampled'.symm, .inr ⟨hissues', ?_⟩⟩
    exact (evidenceKey_lt_iff hevidence).1 (by simpa using h)

/-! ## Ways back -/

/-- The ways in which a version may take a stored bucket back: it wins without counting as much,
or with a sample from before, or it grafts what weighs less, or prices without their label. -/
inductive Backslides (current : Revisions) (existing incoming : LocalHalfHourBucket) : Prop
  /-- Neither version counts all of the other, and the incoming one wins by its quality, its time or
  its key. -/
  | sideways (estimator : incoming.estimatorRevision = existing.estimatorRevision)
      (less : bucketEvidenceDominates incoming existing = false)
      (more : bucketEvidenceDominates existing incoming = false)
      (wins : shouldReplaceHalfHourBucket current.estimator incoming existing = true)
  /-- An earlier sample of the same counters wins because it has fewer issues. -/
  | earlier (estimator : incoming.estimatorRevision = existing.estimatorRevision)
      (evidence : bucketEvidenceDominates incoming existing = true ∧
        bucketEvidenceDominates existing incoming = true)
      (fewer : bucketCollectionIssueCount incoming < bucketCollectionIssueCount existing)
      (before : incoming.sampledAt < existing.sampledAt)
      (other : ¬ (halfHourBucketEvidenceEq incoming existing = true ∧
        coverageIssueStateDiffers incoming.partialReasons existing.partialReasons = true))
  /-- A breakdown that is not from a later sample is grafted with more issues or less weight. -/
  | grafted (graft : projectBreakdownCanUpgradeWithoutReplacing current incoming existing = true)
      (notLater : incoming.sampledAt ≤ existing.sampledAt)
      (worse : bucketCollectionIssueCount existing < bucketCollectionIssueCount incoming ∨
        bucketCollectionIssueCount incoming = bucketCollectionIssueCount existing ∧
          bucketEvidenceKey incoming < bucketEvidenceKey existing)
  /-- Model groups are repriced under a breakdown that is too old to bring the label. -/
  | repriced (reprice : modelGroupApiCostCanRepriceWithoutReplacing current incoming existing = true)
      (older : incoming.projectBreakdownRevision < existing.projectBreakdownRevision)
      (loses : ¬ Overtakes incoming existing)

/-! ## Versions with grafted parts -/

/-- The two buckets differ in their groups and in the revisions of these at most. -/
structure VariantOf (source bucket : LocalHalfHourBucket) : Prop where
  starts : bucket.startsAt = source.startsAt
  ends : bucket.endsAt = source.endsAt
  sampledAt : bucket.sampledAt = source.sampledAt
  reasons : bucket.partialReasons = source.partialReasons
  same : SameCounters bucket source

namespace VariantOf

variable {c : LocalHalfHourBucket}

theorem refl (a : LocalHalfHourBucket) : VariantOf a a :=
  ⟨rfl, rfl, rfl, rfl, ⟨rfl, rfl, rfl, rfl, rfl, rfl⟩⟩

theorem issues (h : VariantOf a b) :
    bucketCollectionIssueCount b = bucketCollectionIssueCount a := by
  simp [bucketCollectionIssueCount, h.reasons]

theorem withModels (source a : LocalHalfHourBucket) : VariantOf a (withModels source a) :=
  ⟨rfl, rfl, rfl, rfl, ⟨rfl, rfl, rfl, rfl, rfl, rfl⟩⟩

end VariantOf

/-- The parts of a breakdown and its label are those of the bucket. -/
structure SameProjects (a b : LocalHalfHourBucket) : Prop where
  revision : a.projectBreakdownRevision = b.projectBreakdownRevision
  catalog : a.apiPricingCatalogRevision = b.apiPricingCatalogRevision
  groups : a.projectGroups = b.projectGroups

theorem SameProjects.weight (h : SameProjects a b) : breakdownWeight a = breakdownWeight b := by
  simp [breakdownWeight, projectVolume, projectCallCount, h.revision, h.catalog, h.groups]

/-- The version that is settled: the incoming one, in part with the groups of the stored one. -/
structure SettledVersion (current : Revisions) (existing incoming version : LocalHalfHourBucket) :
    Prop where
  variant : VariantOf incoming version
  revision : version.projectBreakdownRevision = incoming.projectBreakdownRevision
  projects : (version.apiPricingCatalogRevision = incoming.apiPricingCatalogRevision ∧
      version.projectGroups = incoming.projectGroups) ∨
    (catalogIsPreferred current incoming existing = true ∧
      version.apiPricingCatalogRevision = existing.apiPricingCatalogRevision ∧
      version.projectGroups = existing.projectGroups)
  models : version.groups = incoming.groups ∨ version.groups = existing.groups

section
variable {current : Revisions} {existing incoming stored version : LocalHalfHourBucket}

theorem graftModelGroups_cases {upgraded : Bool} :
    (upgraded = true ∧ graftModelGroups current upgraded existing incoming =
        (withModels incoming existing, incoming)) ∨
      (upgraded = false ∧ ∃ version, graftModelGroups current upgraded existing incoming =
          (existing, version) ∧ (version = incoming ∨ version = withModels existing incoming)) := by
  unfold graftModelGroups
  split_ifs with hup
  · exact .inl ⟨hup, rfl⟩
  · exact .inr ⟨by simpa using hup, _, rfl, .inr rfl⟩
  · exact .inr ⟨by simpa using hup, _, rfl, .inr rfl⟩
  · exact .inr ⟨by simpa using hup, _, rfl, .inl rfl⟩

theorem retainCatalog_settled {repriced : Bool} (hversion : version = incoming ∨
      version = withModels existing incoming)
    (hstored : stored.apiPricingCatalogRevision = existing.apiPricingCatalogRevision)
    (hprojects : stored.projectGroups = existing.projectGroups) :
    SettledVersion current existing incoming (retainCatalog current repriced stored version) := by
  have hvariant : VariantOf incoming version := by
    rcases hversion with rfl | rfl
    · exact .refl _
    · exact .withModels _ _
  have hmodels : version.groups = incoming.groups ∨ version.groups = existing.groups := by
    rcases hversion with rfl | rfl
    · exact .inl rfl
    · exact .inr rfl
  have hcatalog : version.apiPricingCatalogRevision = incoming.apiPricingCatalogRevision ∧
      version.projectBreakdownRevision = incoming.projectBreakdownRevision ∧
      version.projectGroups = incoming.projectGroups := by
    rcases hversion with rfl | rfl <;> exact ⟨rfl, rfl, rfl⟩
  unfold retainCatalog
  split_ifs with h
  · simp only [Bool.and_eq_true] at h
    have hpreferred : catalogIsPreferred current incoming existing = true := by
      have := h.1.1
      rwa [catalogIsPreferred, hcatalog.1, hstored] at this
    exact ⟨⟨hvariant.starts, hvariant.ends, hvariant.sampledAt, hvariant.reasons,
      ⟨hvariant.same.estimator, hvariant.same.tokens, hvariant.same.units, hvariant.same.extra,
        hvariant.same.unknown, hvariant.same.calls⟩⟩, hcatalog.2.1,
      .inr ⟨hpreferred, hstored, hprojects⟩, hmodels⟩
  · exact ⟨hvariant, hcatalog.2.1, .inl ⟨hcatalog.1, hcatalog.2.2⟩, hmodels⟩

theorem collectionIssueCount_graft (existing incoming : LocalHalfHourBucket) :
    bucketCollectionIssueCount (graftProjectGroups existing incoming) ≤
      bucketCollectionIssueCount incoming := by
  have hsub (reasons : List String) :
      collectionIssueCount (sortReasons reasons) ≤ collectionIssueCount reasons := by
    calc _ ≤ (reasons.insertionSort (· ≤ ·)).countP isCollectionIssueReason :=
          (List.dedup_sublist _).countP_le
      _ = _ := (List.perm_insertionSort _ reasons).countP_eq _
  refine (hsub _).trans ?_
  simp [collectionIssueCount, List.countP_append, List.countP_filter, bucketCollectionIssueCount]

theorem graft_improves (hsame : SameCounters incoming existing)
    (hback : ¬ Backslides current existing incoming)
    (hstored : VariantOf existing stored) (hprojects : SameProjects stored existing)
    (hmodels : stored.groups = existing.groups ∨
      (incoming.apiPricingCatalogRevision = existing.apiPricingCatalogRevision →
        ModelGroupsRicher stored.groups existing.groups))
    (hversion : SettledVersion current existing incoming version)
    (h : projectBreakdownCanUpgradeWithoutReplacing current version stored = true) :
    Improves existing (graftProjectGroups stored version) := by
  have hsampled : (graftProjectGroups stored version).sampledAt =
      max existing.sampledAt incoming.sampledAt := by
    simp [graftProjectGroups, hstored.sampledAt, hversion.variant.sampledAt]
  rw [Improves, hsampled]
  by_cases hlater : existing.sampledAt < incoming.sampledAt
  · exact .inl (lt_max_of_lt_right hlater)
  have hnotLater : incoming.sampledAt ≤ existing.sampledAt := not_lt.1 hlater
  rw [canUpgradeProjects_iff, hprojects.revision, hversion.revision] at h
  obtain ⟨-, hrevision, hwhy⟩ := h
  -- the incoming version itself could be grafted
  have hgraft : projectBreakdownCanUpgradeWithoutReplacing current incoming existing = true := by
    rw [canUpgradeProjects_iff]
    refine ⟨hsame, hrevision, ?_⟩
    rcases hversion.projects with ⟨hcatalog, hgroups⟩ | ⟨hpreferred, -, -⟩
    · rwa [catalogIsPreferred, hcatalog, hprojects.catalog, hgroups, hprojects.groups] at hwhy
    · exact .inl hpreferred
  have hbetter : bucketCollectionIssueCount incoming ≤ bucketCollectionIssueCount existing :=
    not_lt.1 fun hlt => hback (.grafted hgraft hnotLater (.inl hlt))
  have hissues := (collectionIssueCount_graft stored version).trans hversion.variant.issues.le
  refine .inr ⟨(max_eq_left hnotLater).symm, ?_⟩
  rcases (hissues.trans hbetter).lt_or_eq with hlt | heq
  · exact .inl hlt
  refine .inr ⟨heq, ?_⟩
  have hequal : bucketCollectionIssueCount incoming = bucketCollectionIssueCount existing := by omega
  have hweight : ¬ breakdownWeight incoming < breakdownWeight existing := fun hlt =>
    hback (.grafted hgraft hnotLater
      (.inr ⟨hequal, (evidenceKey_lt_iff hsame.symm.evidence).2 hlt⟩))
  have hgrafted : breakdownWeight (graftProjectGroups stored version) = breakdownWeight version :=
    rfl
  rw [hgrafted]
  rcases hversion.projects with ⟨hcatalog, hgroups⟩ | ⟨hpreferred, hcatalog, hgroups⟩
  · have hsameProjects : SameProjects version incoming := ⟨hversion.revision, hcatalog, hgroups⟩
    rw [hsameProjects.weight]
    rcases (not_lt.1 hweight).lt_or_eq with hlt | heq
    · exact .inl hlt
    -- the same weight: the label is the same, and the project groups are enriched
    refine .inr ⟨heq, ?_⟩
    simp only [breakdownWeight, toLex_inj, Prod.mk.injEq] at heq
    have hlabel : incoming.apiPricingCatalogRevision = existing.apiPricingCatalogRevision :=
      heq.2.2.symm
    rw [catalogIsPreferred_self (by rw [hcatalog, hprojects.catalog, hlabel])] at hwhy
    have hricher : projectGroupsAreStrictlyRicher incoming.projectGroups existing.projectGroups =
        true := by
      rcases hwhy with h | ⟨-, h | h⟩
      · cases h
      · omega
      · rwa [hgroups, hprojects.groups] at h
    refine lt_of_le_of_ne ⟨.inr ?_, ?_⟩ fun hne => ?_
    · change projectGroupsAreStrictlyRicher version.projectGroups _ = true
      rwa [hgroups]
    · exact hmodels.imp Eq.symm fun h => h hlabel
    · have heqGroups : existing.projectGroups = version.projectGroups :=
        congrArg Breakdown.projectGroups hne
      rw [heqGroups, hgroups, projectGroupsAreStrictlyRicher_self] at hricher
      cases hricher
  · refine .inl ?_
    rw [catalogIsPreferred_self (by rw [hcatalog, hprojects.catalog])] at hwhy
    have hnewer : existing.projectBreakdownRevision < incoming.projectBreakdownRevision := by
      rcases hwhy with h | ⟨-, h | h⟩
      · cases h
      · exact h
      · rw [hgroups, hprojects.groups, projectGroupsAreStrictlyRicher_self] at h
        cases h
    simp [breakdownWeight, projectVolume, projectCallCount, hgroups, hversion.revision,
      Prod.Lex.toLex_lt_toLex, hnewer]

theorem replace_improves (hsame : SameCounters incoming existing)
    (hback : ¬ Backslides current existing incoming)
    (hstored : VariantOf existing stored) (hprojects : SameProjects stored existing)
    (hversion : VariantOf incoming version)
    (hequal : halfHourBucketEvidenceEq incoming existing = true →
      halfHourBucketEvidenceEq version stored = true)
    (h : shouldReplaceHalfHourBucket current.estimator version stored = true) :
    Improves existing version := by
  have hboth : SameCounters version stored :=
    ⟨hversion.same.estimator.trans (hsame.estimator.trans hstored.same.estimator.symm),
      hversion.same.tokens.trans (hsame.tokens.trans hstored.same.tokens.symm),
      hversion.same.units.trans (hsame.units.trans hstored.same.units.symm),
      hversion.same.extra.trans (hsame.extra.trans hstored.same.extra.symm),
      hversion.same.unknown.trans (hsame.unknown.trans hstored.same.unknown.symm),
      hversion.same.calls.trans (hsame.calls.trans hstored.same.calls.symm)⟩
  have hoverrides : Overrides stored version := by
    refine overrides_of_replace hboth.estimator hboth.evidence (fun hfewer hother hbefore => ?_) h
    rw [hversion.issues, hstored.issues] at hfewer
    rw [hversion.sampledAt, hstored.sampledAt] at hbefore
    rw [hversion.reasons, hstored.reasons] at hother
    exact hback (.earlier hsame.estimator ⟨hsame.dominates, hsame.symm.dominates⟩ hfewer hbefore
      fun hguard => hother ⟨hequal hguard.1, hguard.2⟩)
  rw [Overrides, hstored.sampledAt, hstored.issues, hprojects.weight] at hoverrides
  exact Overrides.improves hoverrides

theorem retainProjectGroups_variant (hversion : SettledVersion current existing incoming version) :
    VariantOf incoming (retainProjectGroups current stored version) := by
  obtain ⟨hstarts, hends, hsampled, hreasons, hsame⟩ := hversion.variant
  unfold retainProjectGroups
  split_ifs
  · exact ⟨hstarts, hends, hsampled, hreasons, ⟨hsame.estimator, hsame.tokens, hsame.units,
      hsame.extra, hsame.unknown, hsame.calls⟩⟩
  · exact hversion.variant

/-- Versions of equal evidence stay equal, whatever is grafted. -/
theorem evidenceEq_settled (hstored : VariantOf existing stored)
    (hprojects : SameProjects stored existing)
    (hmodels : stored.groups = existing.groups ∨ stored.groups = incoming.groups)
    (hversion : SettledVersion current existing incoming version)
    (h : halfHourBucketEvidenceEq incoming existing = true) :
    halfHourBucketEvidenceEq (retainProjectGroups current stored version) stored = true := by
  have hvariant := @retainProjectGroups_variant current existing incoming stored version hversion
  simp only [halfHourBucketEvidenceEq, decide_eq_true_eq] at h
  obtain ⟨hstarts, hends, htokens, hunits, hextra, hunknown, hestimator, hrevision, hcatalog,
    hcalls, hgroups, hprojectGroups⟩ := h
  have hstoredGroups : stored.groups = existing.groups :=
    hmodels.elim id fun hg => hg.trans hgroups
  have hversionGroups : version.groups = existing.groups :=
    hversion.models.elim (fun hg => hg.trans hgroups) id
  have hversionProjects : version.apiPricingCatalogRevision = existing.apiPricingCatalogRevision ∧
      version.projectGroups = existing.projectGroups := by
    rcases hversion.projects with ⟨hc, hp⟩ | ⟨-, hc, hp⟩
    · exact ⟨hc.trans hcatalog, hp.trans hprojectGroups⟩
    · exact ⟨hc, hp⟩
  have hparts : (retainProjectGroups current stored version).projectBreakdownRevision =
        stored.projectBreakdownRevision ∧
      (retainProjectGroups current stored version).apiPricingCatalogRevision =
        stored.apiPricingCatalogRevision ∧
      (retainProjectGroups current stored version).projectGroups = stored.projectGroups ∧
      (retainProjectGroups current stored version).groups = existing.groups := by
    unfold retainProjectGroups
    split_ifs
    · exact ⟨rfl, rfl, rfl, hversionGroups⟩
    · exact ⟨(hversion.revision.trans hrevision).trans hprojects.revision.symm,
        hversionProjects.1.trans hprojects.catalog.symm,
        hversionProjects.2.trans hprojects.groups.symm, hversionGroups⟩
  simp only [halfHourBucketEvidenceEq, decide_eq_true_eq]
  exact ⟨hvariant.starts.trans (hstarts.trans hstored.starts.symm),
    hvariant.ends.trans (hends.trans hstored.ends.symm),
    hvariant.same.tokens.trans (htokens.trans hstored.same.tokens.symm),
    hvariant.same.units.trans (hunits.trans hstored.same.units.symm),
    hvariant.same.extra.trans (hextra.trans hstored.same.extra.symm),
    hvariant.same.unknown.trans (hunknown.trans hstored.same.unknown.symm),
    hvariant.same.estimator.trans (hestimator.trans hstored.same.estimator.symm),
    hparts.1, hparts.2.1, hvariant.same.calls.trans (hcalls.trans hstored.same.calls.symm),
    hparts.2.2.2.trans hstoredGroups.symm, hparts.2.2.1⟩

theorem SameCounters.trans {c : LocalHalfHourBucket} (hab : SameCounters a b)
    (hbc : SameCounters b c) : SameCounters a c :=
  ⟨hab.estimator.trans hbc.estimator, hab.tokens.trans hbc.tokens, hab.units.trans hbc.units,
    hab.extra.trans hbc.extra, hab.unknown.trans hbc.unknown, hab.calls.trans hbc.calls⟩

theorem settleVersion_improves {upgraded : Bool} (hsame : SameCounters incoming existing)
    (hback : ¬ Backslides current existing incoming)
    (hstored : VariantOf existing stored) (hprojects : SameProjects stored existing)
    (hmodels : stored.groups = existing.groups ∨ stored.groups = incoming.groups)
    (hricher : stored.groups = existing.groups ∨
      (incoming.apiPricingCatalogRevision = existing.apiPricingCatalogRevision →
        ModelGroupsRicher stored.groups existing.groups))
    (hversion : SettledVersion current existing incoming version) :
    (SameCounters (settleVersion current upgraded stored version).1 existing ∧
        Improves existing (settleVersion current upgraded stored version).1) ∨
      ((settleVersion current upgraded stored version).1 = stored ∧
        projectBreakdownCanUpgradeWithoutReplacing current version stored = false ∧
        shouldReplaceHalfHourBucket current.estimator
          (retainProjectGroups current stored version) stored = false) := by
  unfold settleVersion
  by_cases hgraft : projectBreakdownCanUpgradeWithoutReplacing current version stored = true
  · rw [if_pos hgraft]
    refine .inl ⟨?_, graft_improves hsame hback hstored hprojects hricher hversion hgraft⟩
    obtain ⟨hestimator, htokens, hunits, hextra, hunknown, hcalls⟩ := hstored.same
    exact ⟨hestimator, htokens, hunits, hextra, hunknown, hcalls⟩
  · rw [if_neg hgraft]
    by_cases hreplace : shouldReplaceHalfHourBucket current.estimator
        (retainProjectGroups current stored version) stored = true
    · rw [if_pos hreplace]
      have hvariant : VariantOf incoming (retainProjectGroups current stored version) :=
        retainProjectGroups_variant hversion
      refine .inl ⟨hvariant.same.trans hsame, replace_improves hsame hback hstored hprojects
        hvariant (fun h => ?_) hreplace⟩
      exact evidenceEq_settled hstored hprojects hmodels hversion h
    · rw [if_neg hreplace]
      exact .inr ⟨rfl, by simpa using hgraft, by simpa using hreplace⟩

/-- Repricing the model groups alone is a way back. -/
theorem backslides_of_repriced
    (hreprice : modelGroupApiCostCanRepriceWithoutReplacing current incoming existing = true)
    (hnot : projectBreakdownCanUpgradeWithoutReplacing current incoming
      (withModels incoming existing) = false)
    (hloses : shouldReplaceHalfHourBucket current.estimator
      (retainProjectGroups current (withModels incoming existing) incoming)
      (withModels incoming existing) = false) :
    Backslides current existing incoming := by
  obtain ⟨hpreferred, hclosed⟩ := reprice_closed hreprice
  have hsame : SameCounters incoming (withModels incoming existing) :=
    (closed_sameCounters hclosed).withModels_right
  have hne : (withModels incoming existing).apiPricingCatalogRevision ≠
      incoming.apiPricingCatalogRevision := by
    intro heq
    have hself := @catalogIsPreferred_self current incoming existing heq.symm
    simp [hself] at hpreferred
  have holder : incoming.projectBreakdownRevision < existing.projectBreakdownRevision := by
    rw [← Bool.not_eq_true, @canUpgradeProjects_preferred current (withModels incoming existing)
      incoming hpreferred] at hnot
    exact not_le.1 fun hle => hnot ⟨hsame, hle⟩
  have hretain : retainProjectGroups current (withModels incoming existing) incoming = incoming := by
    simp [retainProjectGroups, @canUpgradeProjects_not_preferred current incoming
      (withModels incoming existing) hne.symm hpreferred]
  rw [hretain, ← Bool.not_eq_true, shouldReplace_older hsame hne holder] at hloses
  exact .repriced hreprice holder hloses

theorem mergeEvidence_improves (hsame : SameCounters incoming existing)
    (hback : ¬ Backslides current existing incoming) :
    (mergeEvidence current existing incoming).1 = existing ∨
      (SameCounters (mergeEvidence current existing incoming).1 existing ∧
        Improves existing (mergeEvidence current existing incoming).1) := by
  unfold mergeEvidence
  dsimp only
  generalize hreprice : modelGroupApiCostCanRepriceWithoutReplacing current incoming existing =
    repriced
  generalize hupgrade : modelGroupApiCostCanUpgradeWithoutReplacing incoming existing = upgrade
  obtain ⟨hup, hgraft⟩ | ⟨-, version, hgraft, hversion⟩ :=
    @graftModelGroups_cases current existing incoming (repriced || upgrade)
  · rw [hgraft]
    have hricher : incoming.apiPricingCatalogRevision = existing.apiPricingCatalogRevision →
        ModelGroupsRicher incoming.groups existing.groups := by
      intro heq
      rcases Bool.or_eq_true_iff.1 hup with h | h
      · have hpreferred := (reprice_closed (hreprice.trans h)).1
        rw [catalogIsPreferred_self heq] at hpreferred
        cases hpreferred
      · exact upgrade_richer (hupgrade.trans h)
    have hsettled : SettledVersion current existing incoming
        (retainCatalog current repriced (withModels incoming existing) incoming) :=
      retainCatalog_settled (.inl rfl) rfl rfl
    obtain h | ⟨hstays, hnot, hloses⟩ := @settleVersion_improves current existing incoming
      (withModels incoming existing) _ (repriced || upgrade) hsame hback (.withModels _ _)
      ⟨rfl, rfl, rfl⟩ (.inr rfl) (.inr hricher) hsettled
    · exact .inr h
    rw [hstays]
    refine .inr ⟨(VariantOf.withModels incoming existing).same, ?_⟩
    rcases Bool.or_eq_true_iff.1 hup with h | h
    · have hversion : retainCatalog current repriced (withModels incoming existing) incoming =
          incoming := by
        simp [retainCatalog, h]
      rw [hversion] at hnot hloses
      exact absurd (backslides_of_repriced (hreprice.trans h) hnot hloses) hback
    · refine .inr ⟨rfl, .inr ⟨rfl, .inr ⟨rfl, lt_of_le_of_ne ⟨.inl rfl, .inr ?_⟩ fun hne => ?_⟩⟩⟩
      · change ModelGroupsRicher incoming.groups existing.groups
        exact upgrade_richer (hupgrade.trans h)
      · have heq : existing.groups = incoming.groups := congrArg Breakdown.groups hne
        have hself := upgrade_richer (hupgrade.trans h)
        rw [heq] at hself
        exact ModelGroupsRicher.irrefl _ hself
  · rw [hgraft]
    have hsettled : SettledVersion current existing incoming
        (retainCatalog current repriced existing version) :=
      retainCatalog_settled hversion rfl rfl
    obtain h | ⟨hstays, -, -⟩ := @settleVersion_improves current existing incoming
      existing _ (repriced || upgrade) hsame hback (.refl _) ⟨rfl, rfl, rfl⟩ (.inl rfl) (.inl rfl)
      hsettled
    · exact .inr h
    · exact .inl hstays

theorem replace_ascends (hsame : ¬ SameCounters incoming existing)
    (hback : ¬ Backslides current existing incoming)
    (h : shouldReplaceHalfHourBucket current.estimator incoming existing = true) :
    rank current.estimator existing < rank current.estimator incoming := by
  have hne : halfHourBucketEvidenceEq incoming existing = false := by
    rw [← Bool.not_eq_true]
    exact fun he => hsame (evidenceEq_sameCounters he)
  by_cases hestimator : incoming.estimatorRevision = existing.estimatorRevision
  · rcases Bool.eq_false_or_eq_true (bucketEvidenceDominates incoming existing) with hmore | hmore <;>
      rcases Bool.eq_false_or_eq_true (bucketEvidenceDominates existing incoming) with hless | hless
    · have hevidence : incoming.evidence = existing.evidence :=
        le_antisymm (bucketEvidenceDominates_iff.1 hless) (bucketEvidenceDominates_iff.1 hmore)
      refine rank_lt_of_improves hestimator.symm hevidence.symm (Overrides.improves ?_)
      exact overrides_of_replace hestimator hevidence (fun hfewer hother hbefore =>
        hback (.earlier hestimator ⟨hmore, hless⟩ hfewer hbefore hother)) h
    · refine rank_lt_of_evidence hestimator.symm (lt_of_le_not_ge ?_ fun hge => ?_)
      · exact bucketEvidenceDominates_iff.1 hmore
      · simp [bucketEvidenceDominates_iff.2 hge] at hless
    · simp [shouldReplaceHalfHourBucket, hne, hestimator, hmore, hless] at h
    · exact absurd (.sideways hestimator hmore hless h) hback
  · simp only [shouldReplaceHalfHourBucket, hne, Bool.false_and, Bool.false_eq_true, if_false,
      if_pos hestimator, Bool.and_eq_true] at h
    exact rank_lt_of_estimator (estimatorRank_lt h.1.1.1)

/-- **A merged version ascends.** It leaves the stored bucket or raises its rank. -/
theorem mergeVersion_ascends (hback : ¬ Backslides current existing incoming) :
    (mergeVersion current existing incoming).1 = existing ∨
      rank current.estimator existing <
        rank current.estimator (mergeVersion current existing incoming).1 := by
  unfold mergeVersion
  split_ifs with hpayload hcloses hgap
  · simp only [halfHourBucketPayloadEq, Bool.and_eq_true] at hpayload
    have hsame := evidenceEq_sameCounters hpayload.1
    have hends : incoming.endsAt = existing.endsAt := by
      simp only [halfHourBucketEvidenceEq, decide_eq_true_eq] at hpayload
      exact hpayload.1.2.1
    refine .inr (rank_lt_of_improves hsame.estimator.symm hsame.evidence.symm (.inl ?_))
    exact (hcloses.2.trans hends) ▸ hcloses.1
  · exact .inl rfl
  · simp only [revealsCoverageGap, Bool.and_eq_true, decide_eq_true_eq] at hgap
    exact .inr (rank_lt_of_improves rfl rfl (.inl hgap.1.1.2))
  · by_cases hsame : SameCounters incoming existing
    · rcases mergeEvidence_improves hsame hback with hkeep | ⟨hsame', himproves⟩
      · exact .inl hkeep
      · exact .inr (rank_lt_of_improves hsame'.estimator.symm hsame'.evidence.symm himproves)
    · rw [mergeEvidence_plain hsame]
      split_ifs with hreplace
      · exact .inr (replace_ascends hsame hback hreplace)
      · exact .inl rfl

end

/-! ## Finitely many ranks -/

section
variable {current : Revisions} {existing incoming : LocalHalfHourBucket}

/-- What a merged bucket has besides the parts of `PartsOf` comes from the two versions as well. -/
structure MixOf (existing incoming bucket : LocalHalfHourBucket) : Prop where
  estimator : bucket.estimatorRevision = existing.estimatorRevision ∨
    bucket.estimatorRevision = incoming.estimatorRevision
  sampledAt : bucket.sampledAt = existing.sampledAt ∨ bucket.sampledAt = incoming.sampledAt
  revision : bucket.projectBreakdownRevision = existing.projectBreakdownRevision ∨
    bucket.projectBreakdownRevision = incoming.projectBreakdownRevision
  reasons : bucket.partialReasons = existing.partialReasons ∨
    bucket.partialReasons = incoming.partialReasons ∨
    ∃ reasons, bucket.partialReasons = sortReasons reasons ∧
      ∀ reason ∈ reasons, reason ∈ existing.partialReasons ∨ reason ∈ incoming.partialReasons

theorem MixOf.left : MixOf existing incoming existing := ⟨.inl rfl, .inl rfl, .inl rfl, .inl rfl⟩

theorem MixOf.right : MixOf existing incoming incoming :=
  ⟨.inr rfl, .inr rfl, .inr rfl, .inr (.inl rfl)⟩

theorem mergeEvidence_settles : ∃ upgraded stored version, VariantOf existing stored ∧
    stored.projectBreakdownRevision = existing.projectBreakdownRevision ∧
    SettledVersion current existing incoming version ∧
    (mergeEvidence current existing incoming).1 =
      (settleVersion current upgraded stored version).1 := by
  unfold mergeEvidence
  dsimp only
  generalize modelGroupApiCostCanRepriceWithoutReplacing current incoming existing = repriced
  generalize (repriced || modelGroupApiCostCanUpgradeWithoutReplacing incoming existing) = upgraded
  obtain ⟨-, hgraft⟩ | ⟨-, version, hgraft, hversion⟩ :=
    @graftModelGroups_cases current existing incoming upgraded
  · rw [hgraft]
    exact ⟨upgraded, withModels incoming existing,
      retainCatalog current repriced (withModels incoming existing) incoming,
      .withModels _ _, rfl, retainCatalog_settled (.inl rfl) rfl rfl, rfl⟩
  · rw [hgraft]
    exact ⟨upgraded, existing, retainCatalog current repriced existing version, .refl _, rfl,
      retainCatalog_settled hversion rfl rfl, rfl⟩

theorem mergeEvidence_mix : MixOf existing incoming (mergeEvidence current existing incoming).1 := by
  obtain ⟨upgraded, stored, version, hstored, hrevision, hversion, heq⟩ :=
    @mergeEvidence_settles current existing incoming
  rw [heq]
  unfold settleVersion
  dsimp only
  split_ifs with hgraft
  · refine ⟨.inl hstored.same.estimator, ?_, .inr hversion.revision, .inr (.inr ⟨_, rfl, ?_⟩)⟩
    · change max stored.sampledAt version.sampledAt = _ ∨ max stored.sampledAt version.sampledAt = _
      rw [hstored.sampledAt, hversion.variant.sampledAt]
      exact max_choice _ _
    · intro reason hreason
      rw [List.mem_append, List.mem_filter, List.mem_filter, hstored.reasons,
        hversion.variant.reasons] at hreason
      exact hreason.imp And.left And.left
  · have hvariant : VariantOf incoming (retainProjectGroups current stored version) :=
      retainProjectGroups_variant hversion
    refine ⟨.inr hvariant.same.estimator, .inr hvariant.sampledAt, ?_, .inr (.inl hvariant.reasons)⟩
    unfold retainProjectGroups
    split_ifs
    · exact .inl hrevision
    · exact .inr hversion.revision
  · exact ⟨.inl hstored.same.estimator, .inl hstored.sampledAt, .inl hrevision,
      .inl hstored.reasons⟩

theorem mergeVersion_mix : MixOf existing incoming (mergeVersion current existing incoming).1 := by
  unfold mergeVersion
  split_ifs
  · exact .right
  · exact .left
  · refine ⟨.inl rfl, .inr rfl, .inl rfl, .inr (.inr ⟨_, rfl, ?_⟩)⟩
    intro reason hreason
    rw [List.mem_append, List.mem_filter] at hreason
    exact hreason.imp id And.left
  · exact mergeEvidence_mix

/-- All reasons that occur. -/
def reasonsOf (sources : List LocalHalfHourBucket) : List String :=
  sources.flatMap (·.partialReasons)

/-- What the rank of a bucket reads is taken from the sources. -/
structure DrawnFrom (sources : List LocalHalfHourBucket) (bucket : LocalHalfHourBucket) : Prop where
  estimator : ∃ source ∈ sources, source.estimatorRevision = bucket.estimatorRevision
  counters : ∃ source ∈ sources, source.counters = bucket.counters
  sampledAt : ∃ source ∈ sources, source.sampledAt = bucket.sampledAt
  revision : ∃ source ∈ sources, source.projectBreakdownRevision = bucket.projectBreakdownRevision
  catalog : ∃ source ∈ sources, source.apiPricingCatalogRevision = bucket.apiPricingCatalogRevision
  models : ∃ source ∈ sources, source.groups = bucket.groups
  projects : ∃ source ∈ sources, source.projectGroups = bucket.projectGroups
  reasons : ∀ reason ∈ bucket.partialReasons, reason ∈ reasonsOf sources
  issues : bucket.partialReasons.length ≤ (reasonsOf sources).length

theorem DrawnFrom.of_mem {sources : List LocalHalfHourBucket} {bucket : LocalHalfHourBucket}
    (h : bucket ∈ sources) : DrawnFrom sources bucket := by
  refine ⟨⟨_, h, rfl⟩, ⟨_, h, rfl⟩, ⟨_, h, rfl⟩, ⟨_, h, rfl⟩, ⟨_, h, rfl⟩, ⟨_, h, rfl⟩,
    ⟨_, h, rfl⟩, fun reason hreason => List.mem_flatMap.2 ⟨_, h, hreason⟩, ?_⟩
  exact (List.sublist_flatten_of_mem (List.mem_map_of_mem h)).length_le

theorem DrawnFrom.merge {sources : List LocalHalfHourBucket} (hexisting : DrawnFrom sources existing)
    (hincoming : DrawnFrom sources incoming) :
    DrawnFrom sources (mergeVersion current existing incoming).1 := by
  obtain ⟨-, hcatalog, hmodels, hprojects⟩ := @mergeVersion_parts current existing incoming
  obtain ⟨hestimator, hsampled, hrevision, hreasons⟩ := @mergeVersion_mix current existing incoming
  generalize (mergeVersion current existing incoming).1 = bucket at *
  have hfrom : ∀ reason ∈ bucket.partialReasons, reason ∈ reasonsOf sources := by
    intro reason hreason
    rcases hreasons with h | h | ⟨reasons, h, hall⟩
    · exact hexisting.reasons reason (h ▸ hreason)
    · exact hincoming.reasons reason (h ▸ hreason)
    · rw [h, sortReasons, List.mem_dedup, List.mem_insertionSort] at hreason
      exact (hall reason hreason).elim (hexisting.reasons reason) (hincoming.reasons reason)
  refine ⟨?_, ?_, ?_, ?_, ?_, ?_, ?_, hfrom, ?_⟩
  · rcases hestimator with h | h
    · exact h ▸ hexisting.estimator
    · exact h ▸ hincoming.estimator
  · rcases hmodels with ⟨-, h⟩ | ⟨-, h⟩
    · exact h ▸ hexisting.counters
    · exact h ▸ hincoming.counters
  · rcases hsampled with h | h
    · exact h ▸ hexisting.sampledAt
    · exact h ▸ hincoming.sampledAt
  · rcases hrevision with h | h
    · exact h ▸ hexisting.revision
    · exact h ▸ hincoming.revision
  · rcases hcatalog with h | h
    · exact h ▸ hexisting.catalog
    · exact h ▸ hincoming.catalog
  · rcases hmodels with ⟨h, -⟩ | ⟨h, -⟩
    · exact h ▸ hexisting.models
    · exact h ▸ hincoming.models
  · rcases hprojects with ⟨h, -⟩ | ⟨h, -⟩
    · exact h ▸ hexisting.projects
    · exact h ▸ hincoming.projects
  · rcases hreasons with h | h | ⟨reasons, h, -⟩
    · exact h ▸ hexisting.issues
    · exact h ▸ hincoming.issues
    · have hnodup : bucket.partialReasons.Nodup := h ▸ List.nodup_dedup _
      exact (List.subperm_of_subset hnodup hfrom).length_le

/-- A rank from the values it is made of. -/
def rankOf (estimator : Nat) (values : ℕ × Counters × ℤ × ℕ × ℕ × ℕ × List LocalUsageGroup ×
    List LocalProjectUsageGroup) : Rank :=
  let (revision, counters, sampledAt, issues, breakdown, catalog, groups, projectGroups) := values
  let bucket : LocalHalfHourBucket :=
    { startsAt := 0, endsAt := 0, sampledAt, estimatorRevision := revision,
      projectBreakdownRevision := breakdown, apiPricingCatalogRevision := catalog, groups,
      projectGroups }
  toLex (estimatorRank estimator revision,
    toLex (evidenceOf counters.callCount counters.tokenUsage counters.estimatedCostUnits,
      toLex (sampledAt, toLex (OrderDual.toDual issues,
        toLex (breakdownWeight bucket, bucket.breakdown)))))

/-- Buckets drawn from finitely many sources have finitely many ranks. -/
theorem ranks_finite (estimator : Nat) (sources : List LocalHalfHourBucket) :
    {x | ∃ bucket, DrawnFrom sources bucket ∧ rank estimator bucket = x}.Finite := by
  have hsources := List.finite_toSet sources
  refine Set.Finite.subset (((hsources.image (·.estimatorRevision)).prod
    ((hsources.image (·.counters)).prod ((hsources.image (·.sampledAt)).prod
      ((Set.finite_le_nat (reasonsOf sources).length).prod
        ((hsources.image (·.projectBreakdownRevision)).prod
          ((hsources.image (·.apiPricingCatalogRevision)).prod
            ((hsources.image (·.groups)).prod
              (hsources.image (·.projectGroups))))))))).image (rankOf estimator)) ?_
  rintro x ⟨bucket, h, rfl⟩
  have hissues : bucketCollectionIssueCount bucket ≤ (reasonsOf sources).length :=
    List.countP_le_length.trans h.issues
  exact ⟨(bucket.estimatorRevision, bucket.counters, bucket.sampledAt,
    bucketCollectionIssueCount bucket, bucket.projectBreakdownRevision,
    bucket.apiPricingCatalogRevision, bucket.groups, bucket.projectGroups),
    ⟨h.estimator, h.counters, h.sampledAt, hissues, h.revision, h.catalog, h.models, h.projects⟩,
    rfl⟩

end

end History
