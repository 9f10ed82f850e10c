import UsageMonit.History.Upsert

/-!
# What the tests of an upsert say

The tests by which an incoming version is weighed against the stored bucket, as propositions about
the two: `SameCounters` where they count the same under one estimator, `Fresher` and `Tied` for the
quality and the time of the samples (`shouldReplace_sameCounters`), and when a project breakdown is
grafted (`canUpgradeProjects_iff`). `mergeVersion_dominated` is the case of a stored bucket that
strictly dominates, and `mem_upsertSlot` says what an upsert leaves in the list.
-/

namespace History

/-- The two buckets count the same calls under the same estimator. -/
structure SameCounters (a b : LocalHalfHourBucket) : Prop where
  estimator : a.estimatorRevision = b.estimatorRevision
  tokens : a.tokenUsage = b.tokenUsage
  units : a.estimatedCostUnits = b.estimatedCostUnits
  extra : a.apiLongContextExtraCostUnits = b.apiLongContextExtraCostUnits
  unknown : a.longContextUsageUnknown = b.longContextUsageUnknown
  calls : a.callCount = b.callCount

/-- The first bucket has fewer collection issues, or as many and a later sample. -/
def Fresher (a b : LocalHalfHourBucket) : Prop :=
  bucketCollectionIssueCount a < bucketCollectionIssueCount b ∨
    bucketCollectionIssueCount a = bucketCollectionIssueCount b ∧ b.sampledAt < a.sampledAt

def Tied (a b : LocalHalfHourBucket) : Prop :=
  bucketCollectionIssueCount a = bucketCollectionIssueCount b ∧ a.sampledAt = b.sampledAt

theorem SameCounters.symm {a b : LocalHalfHourBucket} (h : SameCounters a b) :
    SameCounters b a :=
  ⟨h.estimator.symm, h.tokens.symm, h.units.symm, h.extra.symm, h.unknown.symm, h.calls.symm⟩

/-! ## Revisions -/

theorem revisionIsPreferred_iff {candidate existing current : Nat} :
    revisionIsPreferred candidate existing current = true ↔ candidate ≠ existing ∧
      (candidate = current ∨ (existing ≠ current ∧ existing < candidate)) := by
  simp [revisionIsPreferred]

theorem revisionIsPreferred_swap {candidate existing current : Nat} (h : candidate ≠ existing) :
    revisionIsPreferred existing candidate current =
      !revisionIsPreferred candidate existing current := by
  rw [Bool.eq_iff_iff, Bool.not_eq_true', ← Bool.not_eq_true, revisionIsPreferred_iff,
    revisionIsPreferred_iff]
  omega

section
variable {current : Revisions} {a b : LocalHalfHourBucket}

theorem catalogIsPreferred_swap (h : a.apiPricingCatalogRevision ≠ b.apiPricingCatalogRevision) :
    catalogIsPreferred current b a = !catalogIsPreferred current a b :=
  revisionIsPreferred_swap h

theorem not_preferred_swap (h : a.apiPricingCatalogRevision ≠ b.apiPricingCatalogRevision)
    (hpreferred : catalogIsPreferred current a b = true) :
    catalogIsPreferred current b a = false := by
  rw [catalogIsPreferred_swap h, hpreferred]
  rfl

theorem catalogIsPreferred_self
    (h : a.apiPricingCatalogRevision = b.apiPricingCatalogRevision) :
    catalogIsPreferred current a b = false := by
  simp [catalogIsPreferred, revisionIsPreferred, h]

/-! ## Equal counters -/

theorem closed_sameCounters (h : closedBucketModelGroupNonApiEvidenceEq a b = true) :
    SameCounters a b := by
  simp only [closedBucketModelGroupNonApiEvidenceEq, Bool.and_eq_true, decide_eq_true_eq] at h
  obtain ⟨⟨-, -, hestimator, htokens, hunits, hextra, hunknown, hcalls, -⟩, -⟩ := h
  exact ⟨hestimator, htokens, hunits, hextra, hunknown, hcalls⟩

theorem evidenceEq_sameCounters (h : halfHourBucketEvidenceEq a b = true) : SameCounters a b := by
  simp only [halfHourBucketEvidenceEq, decide_eq_true_eq] at h
  obtain ⟨-, -, htokens, hunits, hextra, hunknown, hestimator, -, -, hcalls, -⟩ := h
  exact ⟨hestimator, htokens, hunits, hextra, hunknown, hcalls⟩

theorem reprice_closed (h : modelGroupApiCostCanRepriceWithoutReplacing current a b = true) :
    catalogIsPreferred current a b = true ∧
      closedBucketModelGroupNonApiEvidenceEq a b = true := by
  simp only [modelGroupApiCostCanRepriceWithoutReplacing] at h
  split at h
  · cases h
  · simp_all

theorem upgrade_closed (h : modelGroupApiCostCanUpgradeWithoutReplacing a b = true) :
    a.apiPricingCatalogRevision = b.apiPricingCatalogRevision ∧
      closedBucketModelGroupNonApiEvidenceEq a b = true := by
  simp only [modelGroupApiCostCanUpgradeWithoutReplacing] at h
  split at h
  · cases h
  · simp_all

theorem canUpgradeProjects_iff :
    projectBreakdownCanUpgradeWithoutReplacing current a b = true ↔
      SameCounters a b ∧ b.projectBreakdownRevision ≤ a.projectBreakdownRevision ∧
        (catalogIsPreferred current a b = true ∨
          a.apiPricingCatalogRevision = b.apiPricingCatalogRevision ∧
            (b.projectBreakdownRevision < a.projectBreakdownRevision ∨
              projectGroupsAreStrictlyRicher a.projectGroups b.projectGroups = true)) := by
  simp only [projectBreakdownCanUpgradeWithoutReplacing, Bool.and_eq_true, Bool.or_eq_true,
    decide_eq_true_eq]
  constructor
  · rintro ⟨⟨⟨hnew, hle⟩, hold⟩, hestimator, htokens, hunits, hextra, hunknown, hcalls⟩
    refine ⟨⟨hestimator, htokens, hunits, hextra, hunknown, hcalls⟩, hle, ?_⟩
    tauto
  · rintro ⟨hsame, hle, h⟩
    refine ⟨⟨⟨?_, hle⟩, by tauto⟩, hsame.estimator, hsame.tokens, hsame.units, hsame.extra,
      hsame.unknown, hsame.calls⟩
    rcases h with h | ⟨hcatalog, h | h⟩
    · exact .inl (.inr h)
    · exact .inl (.inl h)
    · by_cases hlt : b.projectBreakdownRevision < a.projectBreakdownRevision
      · exact .inl (.inl hlt)
      · exact .inr ⟨⟨by omega, hcatalog⟩, h⟩

theorem SameCounters.dominates (h : SameCounters a b) : bucketEvidenceDominates a b = true := by
  simp [bucketEvidenceDominates, bucketUnweightedEvidenceDominates, unweightedEvidenceDominates,
    h.tokens, h.units, h.calls]

theorem shouldReplace_sameCounters {estimator : Nat} (h : SameCounters a b)
    (hne : halfHourBucketEvidenceEq a b = false) :
    shouldReplaceHalfHourBucket estimator a b = true ↔
      Fresher a b ∨ Tied a b ∧ bucketEvidenceKey b < bucketEvidenceKey a := by
  simp only [shouldReplaceHalfHourBucket, hne, h.estimator, h.dominates, h.symm.dominates,
    Bool.false_and, Bool.false_eq_true, if_false, ne_eq, not_true_eq_false, Fresher, Tied]
  split_ifs with hissues hsampled
  · simp [hissues, hsampled]
  · simp [hissues, hsampled]
  · simp [hissues]

/-- What a project breakdown weighs in the last tie-break. -/
def projectVolume (bucket : LocalHalfHourBucket) : Nat ×ₗ Nat :=
  toLex (projectCallCount bucket, bucket.projectGroups.length)

theorem evidenceKey_sameCounters (h : SameCounters a b) :
    bucketEvidenceKey b < bucketEvidenceKey a ↔
      projectVolume b < projectVolume a ∨ projectVolume b = projectVolume a ∧
        (b.projectBreakdownRevision < a.projectBreakdownRevision ∨
          b.projectBreakdownRevision = a.projectBreakdownRevision ∧
            b.apiPricingCatalogRevision < a.apiPricingCatalogRevision) := by
  simp only [bucketEvidenceKey, h.tokens, h.units, h.calls, List.cons_lt_cons_iff, lt_irrefl,
    false_or, true_and, projectVolume, Prod.Lex.toLex_lt_toLex, toLex_inj, Prod.mk.injEq,
    and_false, or_false]
  tauto

/-! ## A stored bucket that strictly dominates -/

/-- The first bucket has evidence of everything in the second, and of more. -/
def StrictlyDominates (a b : LocalHalfHourBucket) : Prop :=
  bucketEvidenceDominates a b = true ∧ bucketEvidenceDominates b a = false

theorem StrictlyDominates.not_sameCounters (h : StrictlyDominates a b) : ¬ SameCounters a b := by
  intro hsame
  simpa [hsame.symm.dominates] using h.2

end

section
variable {current : Revisions} {existing incoming : LocalHalfHourBucket}

theorem graftModelGroups_of_not_closed
    (h : closedBucketModelGroupNonApiEvidenceEq incoming existing = false)
    (h' : closedBucketModelGroupNonApiEvidenceEq existing incoming = false) :
    graftModelGroups current false existing incoming = (existing, incoming) := by
  have hupgrade : modelGroupApiCostCanUpgradeWithoutReplacing existing incoming = false := by
    rw [← Bool.not_eq_true]
    intro hup
    simpa [h'] using (upgrade_closed hup).2
  simp [graftModelGroups, h, h', hupgrade]

theorem retainCatalog_of_not_closed {repriced : Bool}
    (h : closedBucketModelGroupNonApiEvidenceEq incoming existing = false) :
    retainCatalog current repriced existing incoming = incoming := by
  simp [retainCatalog, h]

theorem settleVersion_replaces {upgraded : Bool}
    (h : projectBreakdownCanUpgradeWithoutReplacing current incoming existing = false)
    (h' : projectBreakdownCanUpgradeWithoutReplacing current existing incoming = false) :
    (settleVersion current upgraded existing incoming).1 =
      if shouldReplaceHalfHourBucket current.estimator incoming existing then incoming
      else existing := by
  simp only [settleVersion, retainProjectGroups, h, h', Bool.false_eq_true, if_false]
  split_ifs <;> rfl

theorem mergeEvidence_plain (h : ¬ SameCounters incoming existing) :
    (mergeEvidence current existing incoming).1 =
      if shouldReplaceHalfHourBucket current.estimator incoming existing then incoming
      else existing := by
  have hclosed : closedBucketModelGroupNonApiEvidenceEq incoming existing = false := by
    rw [← Bool.not_eq_true]
    exact fun hc => h (closed_sameCounters hc)
  have hclosed' : closedBucketModelGroupNonApiEvidenceEq existing incoming = false := by
    rw [← Bool.not_eq_true]
    exact fun hc => h (closed_sameCounters hc).symm
  have hreprice : modelGroupApiCostCanRepriceWithoutReplacing current incoming existing = false := by
    rw [← Bool.not_eq_true]
    exact fun hr => by simpa [hclosed] using (reprice_closed hr).2
  have hupgrade : modelGroupApiCostCanUpgradeWithoutReplacing incoming existing = false := by
    rw [← Bool.not_eq_true]
    exact fun hu => by simpa [hclosed] using (upgrade_closed hu).2
  have hproject : projectBreakdownCanUpgradeWithoutReplacing current incoming existing = false := by
    rw [← Bool.not_eq_true, canUpgradeProjects_iff]
    exact fun hp => h hp.1
  have hproject' : projectBreakdownCanUpgradeWithoutReplacing current existing incoming = false := by
    rw [← Bool.not_eq_true, canUpgradeProjects_iff]
    exact fun hp => h hp.1.symm
  simp only [mergeEvidence, hreprice, hupgrade, Bool.or_false,
    graftModelGroups_of_not_closed hclosed hclosed', retainCatalog_of_not_closed hclosed]
  exact settleVersion_replaces hproject hproject'

theorem StrictlyDominates.not_evidenceEq (h : StrictlyDominates existing incoming) :
    halfHourBucketEvidenceEq incoming existing = false := by
  rw [← Bool.not_eq_true]
  exact fun he => h.not_sameCounters (evidenceEq_sameCounters he).symm

theorem mergeEvidence_dominated (hestimator :
      existing.estimatorRevision = incoming.estimatorRevision)
    (h : StrictlyDominates existing incoming) :
    (mergeEvidence current existing incoming).1 = existing := by
  have hreplace : shouldReplaceHalfHourBucket current.estimator incoming existing = false := by
    simp [shouldReplaceHalfHourBucket, h.not_evidenceEq, hestimator, h.1, h.2]
  rw [mergeEvidence_plain fun hsame => h.not_sameCounters hsame.symm, hreplace]
  rfl

/-- **The stored evidence stays.** Of a version it strictly dominates, the stored bucket takes at
most the time of the sample and the reasons. -/
theorem mergeVersion_dominated (hestimator :
      existing.estimatorRevision = incoming.estimatorRevision)
    (h : StrictlyDominates existing incoming) :
    ∃ sampledAt partialReasons, (mergeVersion current existing incoming).1 =
      { existing with sampledAt, partialReasons } := by
  have hpayload : halfHourBucketPayloadEq incoming existing = false := by
    simp [halfHourBucketPayloadEq, h.not_evidenceEq]
  unfold mergeVersion
  rw [hpayload]
  by_cases hgap : revealsCoverageGap existing incoming = true
  · rw [if_neg (by simp), if_pos hgap]
    exact ⟨_, _, rfl⟩
  · rw [if_neg (by simp), if_neg hgap, mergeEvidence_dominated hestimator h]
    exact ⟨_, _, rfl⟩

end

/-! ## Lists -/

theorem find?_of_nodup {α β : Type} [DecidableEq β] {key : α → β} {as : List α} {a : α}
    (h : (as.map key).Nodup) (hmem : a ∈ as) : as.find? (fun b => key b = key a) = some a := by
  induction as with
  | nil => simp at hmem
  | cons b as ih =>
    rw [List.map_cons, List.nodup_cons] at h
    rcases List.mem_cons.1 hmem with rfl | hmem
    · simp
    · have hne : key b ≠ key a := fun heq => h.1 (heq ▸ List.mem_map_of_mem hmem)
      simpa [hne] using ih h.2 hmem

section
variable {current : Revisions} {incoming : LocalHalfHourBucket}

theorem upsertSlot_new {buckets : List LocalHalfHourBucket}
    (h : ∀ bucket ∈ buckets, bucket.startsAt ≠ incoming.startsAt) :
    (upsertSlot current incoming buckets).1 = buckets ++ [incoming] := by
  induction buckets with
  | nil => rfl
  | cons bucket buckets ih =>
    simp only [upsertSlot, if_neg (h bucket (by simp)), List.cons_append]
    rw [ih fun b hb => h b (by simp [hb])]

theorem upsertSlot_stored {buckets : List LocalHalfHourBucket} {existing : LocalHalfHourBucket}
    (hslots : (buckets.map (·.startsAt)).Nodup) (hmem : existing ∈ buckets)
    (hstart : existing.startsAt = incoming.startsAt) :
    ∃ before after, buckets = before ++ existing :: after ∧
      (upsertSlot current incoming buckets).1 =
        before ++ (mergeVersion current existing incoming).1 :: after := by
  induction buckets with
  | nil => simp at hmem
  | cons bucket buckets ih =>
    rw [List.map_cons, List.nodup_cons] at hslots
    by_cases hfirst : bucket.startsAt = incoming.startsAt
    · have heq : bucket = existing := by
        rcases List.mem_cons.1 hmem with h | h
        · exact h.symm
        · exact absurd (List.mem_map.2 ⟨existing, h, by rw [hstart, hfirst]⟩) hslots.1
      subst heq
      exact ⟨[], buckets, rfl, by simp [upsertSlot, hfirst]⟩
    · have hrest : existing ∈ buckets := by
        rcases List.mem_cons.1 hmem with h | h
        · exact absurd (h ▸ hstart) hfirst
        · exact h
      obtain ⟨before, after, hsplit, hupsert⟩ := ih hslots.2 hrest
      refine ⟨bucket :: before, after, by simp [hsplit], ?_⟩
      simp [upsertSlot, hfirst, hupsert]

end

end History
