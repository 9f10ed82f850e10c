import UsageMonit.History.Proof.Content

/-!
# The content of a merge

`content` reads a bucket as a `Content`. A merge adds the contents of its buckets, each carried to
the common revisions (`graded_merge`): where the code masks a bucket that already has the sentinel
revision, the mask finds nothing to hide (`Sealed`), because the sentinel only comes from a merge.
-/

namespace History

open KeyedMerge

/-! ## Contents of buckets -/

variable {b : LocalHalfHourBucket}

def groupsAt (k : GroupKey) (groups : List LocalUsageGroup) : List LocalUsageGroup :=
  groups.filter fun g => g.key = k

def content (b : LocalHalfHourBucket) : Content where
  endsAt := b.endsAt
  sampledAt := b.sampledAt
  tokenUsage := b.tokenUsage
  estimatedCostUnits := b.estimatedCostUnits
  apiLongContextExtraCostUnits := b.apiLongContextExtraCostUnits
  longContextUsageUnknown := b.longContextUsageUnknown
  projectBreakdownRevision := b.projectBreakdownRevision
  callCount := b.callCount
  groups k := mergeAll (· + ·) ((groupsAt k b.groups).map LocalUsageGroup.value)
  projectGroups := b.projectGroups
  partialReasons := { reason | reason ∈ b.partialReasons }

/-- The coverage of a group's API amount is within what the group counts. -/
def LocalUsageGroup.Covered (g : LocalUsageGroup) : Prop :=
  g.apiEquivalentCost.observedSamples ≤ g.callCount ∧
    g.apiEquivalentCost.observedTokens ≤ g.tokenUsage.totalTokens

instance (g : LocalUsageGroup) : Decidable g.Covered := inferInstanceAs (Decidable (_ ∧ _))

/-- Extra units belong to calls: a bucket that has some has usage without them too. -/
def LocalHalfHourBucket.ExtraCounted (b : LocalHalfHourBucket) : Prop :=
  ∀ n ∈ b.apiLongContextExtraCostUnits, 0 < n →
    ¬ b.tokenUsage.isZero ∨ 0 < b.callCount ∨ 0 < b.estimatedCostUnits

/-- The buckets the masks are exact on. -/
structure Regular (b : LocalHalfHourBucket) : Prop where
  covered : ∀ g ∈ b.groups, g.Covered
  extra : b.ExtraCounted

theorem groupsAt_covered (h : Regular b) (k : GroupKey) :
    ∀ v ∈ (groupsAt k b.groups).map LocalUsageGroup.value, v.Covered := by
  intro _ hv
  obtain ⟨g, hg, rfl⟩ := List.mem_map.1 hv
  exact h.covered g (List.mem_filter.1 hg).1

theorem Regular.ok (h : Regular b) : (content b).Ok where
  covered k _ hv :=
    mergeAll_of (P := GroupValue.Covered) (fun _ _ ha hb => ha.add hb) (groupsAt_covered h k) hv
  extra n hn hpos := h.extra n hn hpos

/-! ## The additive part -/

theorem groupsAt_append (k : GroupKey) (gs hs : List LocalUsageGroup) :
    groupsAt k (gs ++ hs) = groupsAt k gs ++ groupsAt k hs := List.filter_append gs hs

theorem key_mergeUsageGroup (a b : LocalUsageGroup) : (mergeUsageGroup a b).key = a.key := rfl

theorem mergeUsageGroups_ordered (gs hs : List LocalUsageGroup) :
    Ordered LocalUsageGroup.key (mergeUsageGroups gs hs) :=
  Ordered.collect (fun a b _ => key_mergeUsageGroup a b) (gs ++ hs)

/-- A merged list of groups has one group for a key, with the values of that key. -/
theorem groupsAt_merge (k : GroupKey) (gs hs : List LocalUsageGroup) :
    groupsAt k (mergeUsageGroups gs hs) =
      (mergeAll mergeUsageGroup (groupsAt k (gs ++ hs))).toList := by
  rw [groupsAt, (mergeUsageGroups_ordered gs hs).filter_key k, mergeUsageGroups,
    valueAt_collect (fun a b _ => key_mergeUsageGroup a b)]
  rfl

theorem groupValue_merge (k : GroupKey) (gs hs : List LocalUsageGroup) :
    mergeAll (· + ·) ((groupsAt k (mergeUsageGroups gs hs)).map LocalUsageGroup.value) =
      mergeOption (· + ·) (mergeAll (· + ·) ((groupsAt k gs).map LocalUsageGroup.value))
        (mergeAll (· + ·) ((groupsAt k hs).map LocalUsageGroup.value)) := by
  have hall : mergeAll (· + ·) ((groupsAt k (gs ++ hs)).map LocalUsageGroup.value) =
      (mergeAll mergeUsageGroup (groupsAt k (gs ++ hs))).map LocalUsageGroup.value :=
    mergeAll_map value_merge _
  rw [← mergeAll_append add_assoc, ← List.map_append, ← groupsAt_append, groupsAt_merge, hall]
  cases mergeAll mergeUsageGroup (groupsAt k (gs ++ hs)) <;> rfl

theorem mem_sortReasons {reason : String} {reasons : List String} :
    reason ∈ sortReasons reasons ↔ reason ∈ reasons := by
  rw [sortReasons, List.mem_dedup, List.mem_insertionSort]

/-- **The additive part of a merge adds the contents.** -/
theorem content_add (t i : LocalHalfHourBucket) :
    content (addBuckets t i) = content t + content i := by
  have hprojects : ((addBuckets t i).projectGroups : Multiset LocalProjectUsageGroup) =
      (t.projectGroups : Multiset LocalProjectUsageGroup) + i.projectGroups := by
    rw [Multiset.coe_add]
    exact Multiset.coe_eq_coe.2 (List.perm_insertionSort _ _)
  have hreasons : { reason | reason ∈ (addBuckets t i).partialReasons } =
      { reason | reason ∈ t.partialReasons } ∪ { reason | reason ∈ i.partialReasons } := by
    ext reason
    simp [addBuckets, mem_sortReasons]
  have hgroups : (content (addBuckets t i)).groups =
      fun k => mergeOption (· + ·) ((content t).groups k) ((content i).groups k) :=
    funext fun k => groupValue_merge k t.groups i.groups
  rw [Content.add_def]
  simp only [Add.add]
  rw [← hgroups]
  simp only [content, hprojects, hreasons]
  rfl

/-! ## The masks of a bucket -/

/-- Everything but the reasons. -/
def Content.core (x : Content) : Content := { x with partialReasons := ∅ }

theorem Content.ext_core {x y : Content} (h : x.core = y.core)
    (hreasons : x.partialReasons = y.partialReasons) : x = y := by
  cases x
  cases y
  simp only [Content.core, Content.mk.injEq] at h hreasons ⊢
  simp only [h, hreasons, and_self]

theorem Content.core_add (x y : Content) : (x + y).core = (x.core + y.core).core := rfl

theorem Content.core_maskApi (x : Content) : x.maskApi.core = x.core.maskApi.core := rfl

theorem groupsAt_map {f : LocalUsageGroup → LocalUsageGroup} (hf : ∀ g, (f g).key = g.key)
    (k : GroupKey) (gs : List LocalUsageGroup) :
    groupsAt k (gs.map f) = (groupsAt k gs).map f := by
  simp [groupsAt, List.filter_map, Function.comp_def, hf]

theorem core_maskBucketEstimator (b : LocalHalfHourBucket) :
    (content (maskBucketEstimatorProjection b)).core = (content b).maskEstimator.core := by
  have hgroups : ∀ k, mergeAll (· + ·)
      ((groupsAt k (b.groups.map LocalUsageGroup.maskEstimator)).map LocalUsageGroup.value) =
      (mergeAll (· + ·) ((groupsAt k b.groups).map LocalUsageGroup.value)).map
        GroupValue.maskEstimator := by
    intro k
    rw [groupsAt_map (f := LocalUsageGroup.maskEstimator) (fun _ => rfl), List.map_map,
      ← mergeAll_map GroupValue.maskEstimator_add, List.map_map]
    rfl
  simp only [content, maskBucketEstimatorProjection, Content.core, Content.maskEstimator, hgroups]
  rfl

theorem core_maskBucketApi (h : Regular b) :
    (content (maskBucketApiProjection b)).core = (content b).maskApi.core := by
  have hgroups : ∀ k, mergeAll (· + ·)
      ((groupsAt k (b.groups.map LocalUsageGroup.maskApi)).map LocalUsageGroup.value) =
      (mergeAll (· + ·) ((groupsAt k b.groups).map LocalUsageGroup.value)).map
        GroupValue.maskApi := by
    intro k
    rw [groupsAt_map (f := LocalUsageGroup.maskApi) (fun _ => rfl), List.map_map,
      ← mergeAll_map_of (fun _ _ ha hb => ha.add hb)
        (fun _ _ ha hb => GroupValue.maskApi_add ha hb) (groupsAt_covered h k), List.map_map]
    rfl
  simp only [content, maskBucketApiProjection, Content.core, Content.maskApi, hgroups]
  rfl

/-! ## Reconciled revisions -/

/-- The revision of a merge. -/
def jointRevision (current r s : Nat) : Nat := if r = s then r else mergedRevision current r s

def carryEstimator (r s : Nat) (x : Content) : Content := if r = s then x else x.maskEstimator

def carryApi (r s : Nat) (x : Content) : Content := if r = s then x else x.maskApi

/-- What a merge left with a sentinel revision has nothing left to mask. -/
structure Sealed (current : Revisions) (b : LocalHalfHourBucket) : Prop where
  estimator : b.estimatorRevision = 0 → current.estimator ≠ 0 →
    (content b).maskEstimator = content b
  api : b.apiPricingCatalogRevision = 0 → current.apiCatalog ≠ 0 → (content b).maskApi = content b

theorem mergedRevision_cases (current r s : Nat) :
    mergedRevision current r s = current ∨
      r ≠ current ∧ s ≠ current ∧ mergedRevision current r s = 0 := by
  unfold mergedRevision
  split_ifs with h
  · exact .inl rfl
  · exact .inr ⟨fun hr => h (.inl hr), fun hs => h (.inr hs), rfl⟩

theorem core_side {current r j : Nat} {masked : LocalHalfHourBucket} {mask : Content → Content}
    (hmask : (content masked).core = (mask (content b)).core)
    (hsealed : r = 0 → current ≠ 0 → (mask (content b)).core = (content b).core)
    (hcurrent : r = current → j = current) (hother : r ≠ current → r = j → r = 0) :
    (content (if r = current then b else masked)).core =
      (if r = j then content b else mask (content b)).core := by
  by_cases hr : r = current
  · rw [if_pos hr, if_pos (hr.trans (hcurrent hr).symm)]
  · rw [if_neg hr, hmask]
    by_cases hj : r = j
    · have hzero := hother hr hj
      rw [if_pos hj, hsealed hzero fun h => hr (hzero.trans h.symm)]
    · rw [if_neg hj]

section
variable {current : Revisions} {t i : LocalHalfHourBucket}

theorem reconcileEstimator_core (ht : Sealed current t) (hi : Sealed current i) :
    let p := reconcileEstimatorRevision current.estimator t i
    let j := jointRevision current.estimator t.estimatorRevision i.estimatorRevision
    (content p.1).core = (carryEstimator t.estimatorRevision j (content t)).core ∧
      (content p.2).core = (carryEstimator i.estimatorRevision j (content i)).core := by
  have hcases := mergedRevision_cases current.estimator t.estimatorRevision i.estimatorRevision
  unfold reconcileEstimatorRevision jointRevision carryEstimator
  by_cases h : t.estimatorRevision = i.estimatorRevision
  · simp [h]
  · simp only [if_neg h]
    refine ⟨?_, ?_⟩
    · exact core_side (core_maskBucketEstimator t) (fun h h' => by rw [ht.estimator h h'])
        (by omega) (by omega)
    · exact core_side (core_maskBucketEstimator i) (fun h h' => by rw [hi.estimator h h'])
        (by omega) (by omega)

variable (current) in
theorem reconcileApi_core (hrt : Regular t) (hri : Regular i)
    (ht : t.apiPricingCatalogRevision = 0 → current.apiCatalog ≠ 0 →
      (content t).maskApi.core = (content t).core)
    (hi : i.apiPricingCatalogRevision = 0 → current.apiCatalog ≠ 0 →
      (content i).maskApi.core = (content i).core) :
    let p := reconcileApiCatalogRevision current.apiCatalog t i
    let j := jointRevision current.apiCatalog t.apiPricingCatalogRevision
      i.apiPricingCatalogRevision
    (content p.1).core = (carryApi t.apiPricingCatalogRevision j (content t)).core ∧
      (content p.2).core = (carryApi i.apiPricingCatalogRevision j (content i)).core := by
  have hcases := mergedRevision_cases current.apiCatalog t.apiPricingCatalogRevision
    i.apiPricingCatalogRevision
  unfold reconcileApiCatalogRevision jointRevision carryApi
  by_cases h : t.apiPricingCatalogRevision = i.apiPricingCatalogRevision
  · simp [h]
  · simp only [if_neg h]
    refine ⟨?_, ?_⟩
    · exact core_side (core_maskBucketApi hrt) ht (by omega) (by omega)
    · exact core_side (core_maskBucketApi hri) hi (by omega) (by omega)

theorem Regular.maskEstimator (h : Regular b) :
    Regular (maskBucketEstimatorProjection b) where
  covered g hg := by
    obtain ⟨a, ha, rfl⟩ := List.mem_map.1 hg
    exact h.covered a ha
  extra n hn hpos := by
    cases hn
    exact absurd hpos (lt_irrefl 0)

variable (current) in
theorem reconcileEstimator_regular (ht : Regular t) (hi : Regular i) :
    Regular (reconcileEstimatorRevision current.estimator t i).1 ∧
      Regular (reconcileEstimatorRevision current.estimator t i).2 := by
  unfold reconcileEstimatorRevision
  split
  · exact ⟨ht, hi⟩
  · refine ⟨?_, ?_⟩
    · by_cases hc : t.estimatorRevision = current.estimator
      · simp only [if_pos hc]
        exact ⟨ht.covered, ht.extra⟩
      · simp only [if_neg hc]
        exact ⟨ht.maskEstimator.covered, ht.maskEstimator.extra⟩
    · dsimp only
      split
      · exact hi
      · exact hi.maskEstimator

variable (current) in
theorem reconcileEstimator_fields :
    let p := reconcileEstimatorRevision current.estimator t i
    p.1.startsAt = t.startsAt ∧
      p.1.estimatorRevision =
        jointRevision current.estimator t.estimatorRevision i.estimatorRevision ∧
      p.1.apiPricingCatalogRevision = t.apiPricingCatalogRevision ∧
      p.2.apiPricingCatalogRevision = i.apiPricingCatalogRevision := by
  unfold reconcileEstimatorRevision jointRevision
  by_cases h : t.estimatorRevision = i.estimatorRevision
  · simp [h]
  · simp only [if_neg h]
    refine ⟨?_, trivial, ?_, ?_⟩ <;> split <;> rfl

variable (current) in
theorem reconcileApi_fields :
    let p := reconcileApiCatalogRevision current.apiCatalog t i
    p.1.startsAt = t.startsAt ∧ p.1.estimatorRevision = t.estimatorRevision ∧
      p.1.apiPricingCatalogRevision = jointRevision current.apiCatalog
        t.apiPricingCatalogRevision i.apiPricingCatalogRevision := by
  unfold reconcileApiCatalogRevision jointRevision
  by_cases h : t.apiPricingCatalogRevision = i.apiPricingCatalogRevision
  · simp [h]
  · simp only [if_neg h]
    refine ⟨?_, ?_, trivial⟩ <;> split <;> rfl

/-! ## Reasons -/

theorem reasons_side {r s j : Nat} {reason : String} {x y : Set String} (h : r ≠ s) :
    (x ∪ {reason}) ∪ y =
      (if r = j then x else x ∪ {reason}) ∪ (if s = j then y else y ∪ {reason}) := by
  have hone : r ≠ j ∨ s ≠ j := by omega
  ext a
  by_cases hr : r = j
  · rw [if_pos hr, if_neg (hone.resolve_left (not_not_intro hr))]
    simp only [Set.mem_union, Set.mem_singleton_iff]
    tauto
  · rw [if_neg hr]
    by_cases hs : s = j
    · rw [if_pos hs]
    · rw [if_neg hs]
      simp only [Set.mem_union, Set.mem_singleton_iff]
      tauto

theorem carryEstimator_reasons (r s : Nat) (x : Content) :
    (carryEstimator r s x).partialReasons =
      if r = s then x.partialReasons else x.partialReasons ∪ {"estimator_revision_changed"} := by
  unfold carryEstimator
  split_ifs <;> rfl

theorem carryApi_reasons (r s : Nat) (x : Content) :
    (carryApi r s x).partialReasons =
      if r = s then x.partialReasons else x.partialReasons ∪ {"api_pricing_catalog_changed"} := by
  unfold carryApi
  split_ifs <;> rfl

variable (current) in
theorem reconcileEstimator_reasons :
    let p := reconcileEstimatorRevision current.estimator t i
    let j := jointRevision current.estimator t.estimatorRevision i.estimatorRevision
    (content p.1).partialReasons ∪ (content p.2).partialReasons =
      (carryEstimator t.estimatorRevision j (content t)).partialReasons ∪
        (carryEstimator i.estimatorRevision j (content i)).partialReasons := by
  simp only [carryEstimator_reasons]
  by_cases h : t.estimatorRevision = i.estimatorRevision
  · simp [reconcileEstimatorRevision, jointRevision, h]
  · rw [← reasons_side h]
    unfold reconcileEstimatorRevision
    simp only [if_neg h]
    congr 1
    · ext reason
      simp [content, or_comm]
    · split <;> rfl

variable (current) in
theorem reconcileApi_reasons :
    let p := reconcileApiCatalogRevision current.apiCatalog t i
    let j := jointRevision current.apiCatalog t.apiPricingCatalogRevision
      i.apiPricingCatalogRevision
    (content p.1).partialReasons ∪ (content p.2).partialReasons =
      (carryApi t.apiPricingCatalogRevision j (content t)).partialReasons ∪
        (carryApi i.apiPricingCatalogRevision j (content i)).partialReasons := by
  simp only [carryApi_reasons]
  by_cases h : t.apiPricingCatalogRevision = i.apiPricingCatalogRevision
  · simp [reconcileApiCatalogRevision, jointRevision, h]
  · rw [← reasons_side h]
    unfold reconcileApiCatalogRevision
    simp only [if_neg h]
    congr 1
    · ext reason
      simp [content, or_comm]
    · split <;> rfl

/-! ## The merge -/

theorem carryEstimator_maskApi (r s : Nat) (x : Content) :
    (carryEstimator r s x).maskApi = carryEstimator r s x.maskApi := by
  unfold carryEstimator
  split_ifs
  · rfl
  · exact x.mask_comm

theorem carryApi_core {r s : Nat} {x y : Content} (h : x.core = y.core) :
    (carryApi r s x).core = (carryApi r s y).core := by
  unfold carryApi
  split_ifs
  · exact h
  · rw [x.core_maskApi, y.core_maskApi, h]

/-- What the estimator step leaves is as sealed for the API step as its bucket was. -/
theorem maskApi_core {r s : Nat} {p : LocalHalfHourBucket}
    (hp : (content p).core = (carryEstimator r s (content b)).core)
    (hb : (content b).maskApi = content b) : (content p).maskApi.core = (content p).core := by
  rw [Content.core_maskApi, hp, ← Content.core_maskApi, carryEstimator_maskApi, hb]

/-- **The content of a merge**: both contents, carried to the common revisions, and added. -/
theorem content_merge (hrt : Regular t) (hri : Regular i) (ht : Sealed current t)
    (hi : Sealed current i) :
    let j := jointRevision current.estimator t.estimatorRevision i.estimatorRevision
    let j' := jointRevision current.apiCatalog t.apiPricingCatalogRevision
      i.apiPricingCatalogRevision
    content (mergeAdditiveBucket current t i) =
      carryApi t.apiPricingCatalogRevision j' (carryEstimator t.estimatorRevision j (content t)) +
        carryApi i.apiPricingCatalogRevision j'
          (carryEstimator i.estimatorRevision j (content i)) := by
  intro j j'
  obtain ⟨htcore, hicore⟩ := reconcileEstimator_core ht hi
  obtain ⟨hrt', hri'⟩ := reconcileEstimator_regular current hrt hri
  obtain ⟨-, -, htapi, hiapi⟩ := reconcileEstimator_fields current (t := t) (i := i)
  have hreasons := reconcileEstimator_reasons current (t := t) (i := i)
  change content (addBuckets
    (reconcileApiCatalogRevision current.apiCatalog
      (reconcileEstimatorRevision current.estimator t i).1
      (reconcileEstimatorRevision current.estimator t i).2).1
    (reconcileApiCatalogRevision current.apiCatalog
      (reconcileEstimatorRevision current.estimator t i).1
      (reconcileEstimatorRevision current.estimator t i).2).2) = _
  generalize reconcileEstimatorRevision current.estimator t i = p at *
  obtain ⟨p, q⟩ := p
  dsimp only at *
  obtain ⟨hpcore, hqcore⟩ := reconcileApi_core current hrt' hri'
    (fun h h' => maskApi_core htcore (ht.api (htapi ▸ h) h'))
    (fun h h' => maskApi_core hicore (hi.api (hiapi ▸ h) h'))
  have hreasons' := reconcileApi_reasons current (t := p) (i := q)
  rw [content_add]
  refine Content.ext_core ?_ ?_
  · rw [Content.core_add, hpcore, hqcore, htapi, hiapi, carryApi_core htcore, carryApi_core hicore]
    rfl
  · refine hreasons'.trans ?_
    change _ = (carryApi _ _ _).partialReasons ∪ (carryApi _ _ _).partialReasons
    simp only [carryApi_reasons, htapi, hiapi]
    -- the API reason stands on its own, so the estimator reasons are compared without it
    have hsplit : ∀ (c c' : Prop) [Decidable c] [Decidable c'] (x y r : Set String),
        (if c then x else x ∪ r) ∪ (if c' then y else y ∪ r) =
          (x ∪ y) ∪ ((if c then ∅ else r) ∪ (if c' then ∅ else r)) := by
      intro c c' _ _ x y r
      ext a
      split_ifs <;> simp only [Set.mem_union, Set.mem_empty_iff_false] <;> tauto
    rw [hsplit, hsplit, hreasons]

variable (current) in
theorem merge_fields :
    (mergeAdditiveBucket current t i).startsAt = t.startsAt ∧
      (mergeAdditiveBucket current t i).estimatorRevision =
        jointRevision current.estimator t.estimatorRevision i.estimatorRevision ∧
      (mergeAdditiveBucket current t i).apiPricingCatalogRevision =
        jointRevision current.apiCatalog t.apiPricingCatalogRevision
          i.apiPricingCatalogRevision := by
  obtain ⟨hstart, hest, htapi, hiapi⟩ :=
    reconcileEstimator_fields current (t := t) (i := i)
  obtain ⟨hstart', hest', hapi⟩ := reconcileApi_fields current
    (t := (reconcileEstimatorRevision current.estimator t i).1)
    (i := (reconcileEstimatorRevision current.estimator t i).2)
  refine ⟨hstart'.trans hstart, hest'.trans hest, hapi.trans ?_⟩
  rw [htapi, hiapi]

end

end History
