import Mathlib.Algebra.Order.BigOperators.Group.List
import Mathlib.Algebra.Order.Monoid.WithTop
import UsageMonit.History.Proof.Aggregation

/-!
# What an aggregated bucket counts

The counters of a bucket and of its model groups (`bucketCounters`, `groupCounters`), each with the
revision its value is derived at. `merged_conserved`: a merge of any number of buckets reports for
each counter the sum over the buckets that have the reported revision, and its project groups are
those of the buckets; the raw counters add up without a condition (`Counter.conserved_raw`).
`aggregation_conserves` says this of a whole aggregation, together with its independence of the
order of the sources.
-/

namespace History

open Fallible Time Usage KeyedMerge

/-! ## Counters -/

/-- What the value of a counter is derived with. -/
inductive Derivation
  | raw
  | estimator
  | apiCatalog
deriving DecidableEq

/-- The revision of a bucket that a counter is derived at. -/
def Derivation.revision : Derivation → LocalHalfHourBucket → Nat
  | raw, _ => 0
  | estimator, b => b.estimatorRevision
  | apiCatalog, b => b.apiPricingCatalogRevision

/-- A counter of a bucket with its width. It may have several parts in a bucket, and a part that is
unknown is the top element. -/
structure Counter where
  width : Nat
  derivation : Derivation
  parts : LocalHalfHourBucket → List (WithTop Nat)

def Counter.value (c : Counter) (b : LocalHalfHourBucket) : WithTop Nat := (c.parts b).sum

def Counter.known (c : Counter) (b : LocalHalfHourBucket) : Nat :=
  ((c.parts b).map fun part => part.untopD 0).sum

def tokenCounts : List (TokenUsage → Nat) :=
  [TokenUsage.inputTokens, TokenUsage.cachedInputTokens, TokenUsage.cacheWriteInputTokens,
    TokenUsage.outputTokens, TokenUsage.reasoningOutputTokens, TokenUsage.unclassified,
    TokenUsage.totalTokens]

/-- The bounds of an API amount and the coverage they were computed from, with their widths. -/
def priceCounts : List (Nat × (ApiCostAmount → Nat)) :=
  [(128, ApiCostAmount.minimumPicoUsd), (128, ApiCostAmount.maximumPicoUsd),
    (64, ApiCostAmount.pricedSamples), (64, ApiCostAmount.pricedTokens)]

/-- Optional units as a value. -/
def unitsValue (units : Option Nat) : WithTop Nat := units

def bucketCounters : List Counter :=
  tokenCounts.map (fun count => ⟨64, .raw, fun b => [(count b.tokenUsage : Nat)]⟩) ++
    [⟨64, .raw, fun b => [(b.callCount : Nat)]⟩,
      ⟨128, .estimator, fun b => [(b.estimatedCostUnits : Nat)]⟩,
      ⟨128, .estimator, fun b => [unitsValue b.apiLongContextExtraCostUnits]⟩]

def groupCounter (k : GroupKey) (width : Nat) (derivation : Derivation)
    (value : GroupValue → WithTop Nat) : Counter :=
  ⟨width, derivation, fun b => (groupsAt k b.groups).map fun g => value g.value⟩

def groupCounters (k : GroupKey) : List Counter :=
  tokenCounts.map (fun count => groupCounter k 64 .raw fun v => (count v.tokenUsage : Nat)) ++
    [groupCounter k 64 .raw fun v => (v.callCount : Nat),
      groupCounter k 128 .estimator fun v => (v.estimatedCostUnits : Nat),
      groupCounter k 128 .estimator fun v => unitsValue v.apiLongContextExtraCostUnits] ++
    priceCounts.map fun count =>
      groupCounter k count.1 .apiCatalog fun v => (count.2 v.apiEquivalentCost : Nat)

def Counter.atRevision (c : Counter) (revision : Nat) (inputs : List LocalHalfHourBucket) :
    List LocalHalfHourBucket :=
  inputs.filter fun a => c.derivation.revision a = revision

/-- No sum of a counter over the buckets of one revision saturates. -/
def Counter.Fits (c : Counter) (inputs : List LocalHalfHourBucket) : Prop :=
  ∀ revision, ((c.atRevision revision inputs).map c.known).sum < 2 ^ c.width

/-- A bucket reports the sum over the inputs at the revision it reports. -/
def Counter.Conserved (c : Counter) (inputs : List LocalHalfHourBucket)
    (b : LocalHalfHourBucket) : Prop :=
  c.value b = ((c.atRevision (c.derivation.revision b) inputs).map c.value).sum

/-! ## Sums over a merge -/

theorem untopD_sum_le (l : List (WithTop Nat)) :
    l.sum.untopD 0 ≤ (l.map fun a => a.untopD 0).sum := by
  induction l with
  | nil => rfl
  | cons a l ih =>
    rw [List.sum_cons, List.map_cons, List.sum_cons]
    cases a with
    | top => simp
    | coe a =>
      cases hsum : l.sum with
      | top => simp
      | coe n =>
        rw [hsum] at ih
        rw [← WithTop.coe_add, WithTop.untopD_coe, WithTop.untopD_coe]
        rw [WithTop.untopD_coe] at ih
        omega

theorem mergeAll_sum {α : Type*} {merge : α → α → α} {F : α → WithTop Nat} {w : Nat}
    (hF : ∀ x y, (F x).untopD 0 + (F y).untopD 0 < 2 ^ w → F (merge x y) = F x + F y)
    {l : List α} {t : α} (h : mergeAll merge l = some t)
    (hfit : (l.map fun x => (F x).untopD 0).sum < 2 ^ w) : F t = (l.map F).sum := by
  induction l using List.reverseRecOn generalizing t with
  | nil => cases h
  | append_singleton l a ih =>
    rw [mergeAll_concat] at h
    rw [List.map_append, List.sum_append, List.map_singleton, List.sum_singleton] at hfit
    rw [List.map_append, List.sum_append, List.map_singleton, List.sum_singleton]
    cases hinit : mergeAll merge l with
    | none =>
      cases l with
      | nil =>
        rw [hinit] at h
        rw [← Option.some.inj h, List.map_nil, List.sum_nil, zero_add]
      | cons b l => cases hinit
    | some s =>
      rw [hinit] at h
      have hs := ih hinit (by omega)
      have hle : (F s).untopD 0 ≤ (l.map fun x => (F x).untopD 0).sum := by
        rw [hs]
        refine (untopD_sum_le _).trans (le_of_eq ?_)
        rw [List.map_map]
        rfl
      rw [← Option.some.inj h, ← hs]
      exact hF s a (by omega)

/-! ## Reading counters off contents -/

/-- A counter read off the content of a bucket. -/
structure Reads (c : Counter) (F : Content → WithTop Nat) : Prop where
  add : ∀ x y, (F x).untopD 0 + (F y).untopD 0 < 2 ^ c.width → F (x + y) = F x + F y
  read : ∀ a, c.known a < 2 ^ c.width → F (content a) = c.value a
  ordered : ∀ b, Ordered LocalUsageGroup.key b.groups → F (content b) = c.value b
  carry : ∀ a b x, F (carryApi a.apiPricingCatalogRevision b.apiPricingCatalogRevision
      (carryEstimator a.estimatorRevision b.estimatorRevision x)) =
    if c.derivation.revision a = c.derivation.revision b then F x else 0

theorem sum_ite_filter {α β : Type*} [AddCommMonoid β] (p : α → Prop) [DecidablePred p]
    (f : α → β) (l : List α) :
    (l.map fun a => if p a then f a else 0).sum = ((l.filter fun a => p a).map f).sum := by
  induction l with
  | nil => rfl
  | cons a l ih =>
    by_cases ha : p a
    · rw [List.map_cons, List.sum_cons, ih, if_pos ha, List.filter_cons_of_pos (by simpa using ha),
        List.map_cons, List.sum_cons]
    · rw [List.map_cons, List.sum_cons, ih, if_neg ha, List.filter_cons_of_neg (by simpa using ha),
        zero_add]

section
variable {current : Revisions} {l : List LocalHalfHourBucket} {b : LocalHalfHourBucket}

theorem merged_content (hgood : ∀ a ∈ l, Good current a)
    (h : mergeAll (mergeAdditiveBucket current) l = some b) :
    mergeAll (· + ·) (l.map fun a =>
      carryApi a.apiPricingCatalogRevision b.apiPricingCatalogRevision
        (carryEstimator a.estimatorRevision b.estimatorRevision (content a))) =
      some (content b) := by
  obtain ⟨hb, hsum⟩ := mergeAll_graded hgood h
  have hall := congrArg (Option.map Subtype.val) ((carried current).mergeAll_eq hsum).2
  have hval : ∀ xs : List OkContent,
      mergeAll (· + ·) (xs.map Subtype.val) = (mergeAll (· + ·) xs).map Subtype.val :=
    fun xs => mergeAll_map (fun _ _ => rfl) xs
  rw [← hval, List.map_map, List.map_map, List.map_pmap] at hall
  refine Eq.trans (congrArg _ ?_) hall
  rw [← List.pmap_eq_map (p := fun a => Good current a) hgood]
  refine List.pmap_congr_left l fun a _ ha _ => ?_
  exact (carried_carry (graded ⟨a, ha⟩).1 (graded ⟨b, hb⟩).1 (graded ⟨a, ha⟩).2).symm

/-- **The counter of a merge.** -/
theorem Reads.conserved {c : Counter} {F : Content → WithTop Nat} (hc : Reads c F)
    (hgood : ∀ a ∈ l, Good current a) (hfit : c.Fits l)
    (h : mergeAll (mergeAdditiveBucket current) l = some b) : c.Conserved l b := by
  match l, hgood, hfit, h with
  | [a], _, _, h =>
    obtain rfl : a = b := Option.some.inj h
    simp [Counter.Conserved, Counter.atRevision]
  | a :: a' :: as, hgood, hfit, h =>
    have hordered := (mergeAll_normal (by simp) h).groups
    have hfits := hfit (c.derivation.revision b)
    unfold Counter.Conserved
    generalize a :: a' :: as = l at hgood h hfits ⊢
    -- the measure of a carried content is the counter of its bucket, or nothing
    have hvalue : ∀ a ∈ l, F (carryApi a.apiPricingCatalogRevision b.apiPricingCatalogRevision
        (carryEstimator a.estimatorRevision b.estimatorRevision (content a))) =
        if c.derivation.revision a = c.derivation.revision b then c.value a else 0 := by
      intro a ha
      rw [hc.carry]
      split_ifs with hrev
      · refine hc.read a (lt_of_le_of_lt ?_ hfits)
        refine List.single_le_sum (by simp) _ (List.mem_map.2 ⟨a, ?_, rfl⟩)
        exact List.mem_filter.2 ⟨ha, by simpa using hrev⟩
      · rfl
    have hmap : (l.map fun a => carryApi a.apiPricingCatalogRevision b.apiPricingCatalogRevision
        (carryEstimator a.estimatorRevision b.estimatorRevision (content a))).map F =
        l.map fun a => if c.derivation.revision a = c.derivation.revision b then c.value a else 0 := by
      rw [List.map_map]
      exact List.map_congr_left hvalue
    have hknown : ((l.map fun a => carryApi a.apiPricingCatalogRevision b.apiPricingCatalogRevision
        (carryEstimator a.estimatorRevision b.estimatorRevision (content a))).map
          fun x => (F x).untopD 0).sum < 2 ^ c.width := by
      refine lt_of_le_of_lt ?_ hfits
      rw [Counter.atRevision, ← sum_ite_filter, List.map_map]
      refine List.sum_le_sum fun a ha => ?_
      rw [Function.comp_apply, hvalue a ha]
      split_ifs
      · exact untopD_sum_le (c.parts a)
      · exact le_refl 0
    rw [← hc.ordered b hordered, mergeAll_sum hc.add (merged_content hgood h) hknown, hmap,
      sum_ite_filter]
    rfl

end

/-! ## The counters -/

theorem coe_saturatingAdd {w m n : Nat}
    (h : (m : WithTop Nat).untopD 0 + (n : WithTop Nat).untopD 0 < 2 ^ w) :
    ((saturatingAdd w m n : Nat) : WithTop Nat) = (m : WithTop Nat) + (n : WithTop Nat) := by
  change m + n < 2 ^ w at h
  have hsum : saturatingAdd w m n = m + n := by
    unfold saturatingAdd
    omega
  rw [hsum]
  rfl

theorem unitsValue_add {m n : Option Nat}
    (h : (unitsValue m).untopD 0 + (unitsValue n).untopD 0 < 2 ^ 128) :
    unitsValue (addOptionalUnits m n) = unitsValue m + unitsValue n := by
  cases m with
  | none => rfl
  | some m =>
    cases n with
    | none => rfl
    | some n => exact coe_saturatingAdd h

theorem tokenCounts_add {count : TokenUsage → Nat} (h : count ∈ tokenCounts) (u v : TokenUsage) :
    count (u.addAssign v) = saturatingAdd 64 (count u) (count v) := by
  simp only [tokenCounts, List.mem_cons, List.not_mem_nil, or_false] at h
  rcases h with rfl | rfl | rfl | rfl | rfl | rfl | rfl
  · rfl
  · rfl
  · rfl
  · rfl
  · rfl
  · exact TokenUsage.addAssign_unclassified u v
  · rfl

theorem priceCounts_add {count : Nat × (ApiCostAmount → Nat)} (h : count ∈ priceCounts)
    (a b : ApiCostAmount) :
    count.2 (a.addAssign b) = saturatingAdd count.1 (count.2 a) (count.2 b) := by
  simp only [priceCounts, List.mem_cons, List.not_mem_nil, or_false] at h
  rcases h with rfl | rfl | rfl | rfl <;> rfl

theorem priceCounts_mask {count : Nat × (ApiCostAmount → Nat)} (h : count ∈ priceCounts)
    (a : ApiCostAmount) (tokens calls : Nat) : count.2 (maskApiCostProjection a tokens calls) = 0 := by
  simp only [priceCounts, List.mem_cons, List.not_mem_nil, or_false] at h
  rcases h with rfl | rfl | rfl | rfl <;> rfl

theorem bucketCounters_reads {c : Counter} (h : c ∈ bucketCounters) (hraw : c.derivation ≠ .raw) :
    ∃ F, Reads c F := by
  simp only [bucketCounters, List.mem_append, List.mem_map, List.mem_cons, List.not_mem_nil,
    or_false] at h
  rcases h with ⟨count, -, rfl⟩ | rfl | rfl | rfl
  · exact absurd rfl hraw
  · exact absurd rfl hraw
  · refine ⟨fun x => (x.estimatedCostUnits : Nat), fun x y hfit => coe_saturatingAdd hfit,
      fun _ _ => List.sum_singleton.symm, fun _ _ => List.sum_singleton.symm, ?_⟩
    intro a b x
    unfold carryApi carryEstimator
    split_ifs <;> first | rfl | contradiction
  · refine ⟨fun x => unitsValue x.apiLongContextExtraCostUnits, fun x y hfit => unitsValue_add hfit,
      fun _ _ => List.sum_singleton.symm, fun _ _ => List.sum_singleton.symm, ?_⟩
    intro a b x
    unfold carryApi carryEstimator
    split_ifs <;> first | rfl | contradiction

theorem groupCounter_reads (k : GroupKey) {w : Nat} {derivation : Derivation}
    {value : GroupValue → WithTop Nat}
    (hadd : ∀ v v', (value v).untopD 0 + (value v').untopD 0 < 2 ^ w →
      value (v + v') = value v + value v')
    (hestimator : ∀ v, value v.maskEstimator = if derivation = .estimator then 0 else value v)
    (hapi : ∀ v, value v.maskApi = if derivation = .apiCatalog then 0 else value v) :
    Reads (groupCounter k w derivation value) fun x => ((x.groups k).map value).getD 0 where
  add x y hfit := by
    show ((mergeOption (· + ·) (x.groups k) (y.groups k)).map value).getD 0 = _
    cases hx : x.groups k with
    | none => simp [mergeOption]
    | some v =>
      cases hy : y.groups k with
      | none => simp [mergeOption]
      | some v' =>
        rw [hx, hy] at hfit
        exact hadd v v' hfit
  read a hfit := by
    show ((mergeAll (· + ·) ((groupsAt k a.groups).map LocalUsageGroup.value)).map value).getD 0 =
      ((groupsAt k a.groups).map fun g => value g.value).sum
    cases hall : mergeAll (· + ·) ((groupsAt k a.groups).map LocalUsageGroup.value) with
    | none =>
      cases hgroups : groupsAt k a.groups with
      | nil => rfl
      | cons g gs =>
        rw [hgroups] at hall
        cases hall
    | some v =>
      have hsum := mergeAll_sum hadd hall (by
        rw [List.map_map]
        refine lt_of_le_of_lt (le_of_eq ?_) hfit
        unfold Counter.known groupCounter
        rw [List.map_map]
        rfl)
      rw [List.map_map] at hsum
      exact hsum
  ordered b hb := by
    show (((content b).groups k).map value).getD 0 =
      ((groupsAt k b.groups).map fun g => value g.value).sum
    rw [content_groups hb, groupsAt, hb.filter_key k]
    cases valueAt LocalUsageGroup.key k b.groups <;> simp
  carry a b x := by
    cases hx : x.groups k with
    | none =>
      unfold carryApi carryEstimator
      split_ifs <;> simp [Content.maskApi, Content.maskEstimator, hx]
    | some v =>
      unfold carryApi carryEstimator
      cases derivation <;> split_ifs <;>
        simp_all [Content.maskApi, Content.maskEstimator, Derivation.revision, groupCounter]

theorem groupCounters_reads {k : GroupKey} {c : Counter} (h : c ∈ groupCounters k)
    (hraw : c.derivation ≠ .raw) : ∃ F, Reads c F := by
  simp only [groupCounters, List.mem_append, List.mem_map, List.mem_cons, List.not_mem_nil,
    or_false] at h
  rcases h with (⟨count, -, rfl⟩ | rfl | rfl | rfl) | ⟨count, hcount, rfl⟩
  · exact absurd rfl hraw
  · exact absurd rfl hraw
  · exact ⟨_, groupCounter_reads k (fun v v' hfit => coe_saturatingAdd hfit) (fun _ => rfl)
      fun _ => rfl⟩
  · exact ⟨_, groupCounter_reads k (fun v v' hfit => unitsValue_add hfit) (fun _ => rfl)
      fun _ => rfl⟩
  · refine ⟨_, groupCounter_reads k (fun v v' hfit => ?_) (fun _ => rfl) fun v => ?_⟩
    · refine Eq.trans ?_ (coe_saturatingAdd hfit)
      exact congrArg _ (priceCounts_add hcount v.apiEquivalentCost v'.apiEquivalentCost)
    · exact congrArg _ (priceCounts_mask hcount v.apiEquivalentCost _ _)

/-! ## Raw counters -/

/-- What the raw counters of a bucket are read from: no mask touches it. -/
def rawPart (b : LocalHalfHourBucket) :
    TokenUsage × Nat × List (GroupKey × TokenUsage × Nat) :=
  (b.tokenUsage, b.callCount, b.groups.map fun g => (g.key, g.tokenUsage, g.callCount))

theorem raw_counter {c : Counter} (hc : c ∈ bucketCounters ∨ ∃ k, c ∈ groupCounters k)
    (hraw : c.derivation = .raw) :
    ∃ count : TokenUsage → Nat → Nat,
      (∀ u v m n, count (u.addAssign v) (saturatingAdd 64 m n) =
        saturatingAdd 64 (count u m) (count v n)) ∧
      (c = ⟨64, .raw, fun b => [(count b.tokenUsage b.callCount : Nat)]⟩ ∨
        ∃ k, c = groupCounter k 64 .raw fun v => (count v.tokenUsage v.callCount : Nat)) := by
  have htokens : ∀ count ∈ tokenCounts, ∀ (u v : TokenUsage) (_ _ : Nat),
      count (u.addAssign v) = saturatingAdd 64 (count u) (count v) :=
    fun count h u v _ _ => tokenCounts_add h u v
  simp only [bucketCounters, groupCounters, List.mem_append, List.mem_map, List.mem_cons,
    List.not_mem_nil, or_false] at hc
  rcases hc with (⟨count, hcount, rfl⟩ | rfl | rfl | rfl) |
    ⟨k, (⟨count, hcount, rfl⟩ | rfl | rfl | rfl) | ⟨count, hcount, rfl⟩⟩
  · exact ⟨fun u _ => count u, htokens count hcount, .inl rfl⟩
  · exact ⟨fun _ n => n, fun _ _ _ _ => rfl, .inl rfl⟩
  · cases hraw
  · cases hraw
  · exact ⟨fun u _ => count u, htokens count hcount, .inr ⟨k, rfl⟩⟩
  · exact ⟨fun _ n => n, fun _ _ _ _ => rfl, .inr ⟨k, rfl⟩⟩
  · cases hraw
  · cases hraw
  · cases hraw

theorem coe_sum {α : Type*} (f : α → Nat) (l : List α) :
    (l.map fun a => (f a : WithTop Nat)).sum = ((l.map f).sum : Nat) := by
  induction l with
  | nil => rfl
  | cons a l ih =>
    rw [List.map_cons, List.sum_cons, ih]
    rfl

section
variable {current : Revisions}

theorem rawPart_reconciled (t i : LocalHalfHourBucket) :
    ∃ p q : LocalHalfHourBucket, mergeAdditiveBucket current t i = addBuckets p q ∧
      rawPart p = rawPart t ∧ rawPart q = rawPart i := by
  have hestimator : ∀ b, rawPart (maskBucketEstimatorProjection b) = rawPart b := fun b => by
    simp only [rawPart, maskBucketEstimatorProjection, List.map_map]
    rfl
  have hapi : ∀ b, rawPart (maskBucketApiProjection b) = rawPart b := fun b => by
    simp only [rawPart, maskBucketApiProjection, List.map_map]
    rfl
  have hfirst : ∀ t i, rawPart (reconcileEstimatorRevision current.estimator t i).1 = rawPart t ∧
      rawPart (reconcileEstimatorRevision current.estimator t i).2 = rawPart i := by
    intro t i
    unfold reconcileEstimatorRevision
    split_ifs
    all_goals exact ⟨by first | rfl | exact hestimator t, by first | rfl | exact hestimator i⟩
  have hsecond : ∀ t i, rawPart (reconcileApiCatalogRevision current.apiCatalog t i).1 =
      rawPart t ∧ rawPart (reconcileApiCatalogRevision current.apiCatalog t i).2 = rawPart i := by
    intro t i
    unfold reconcileApiCatalogRevision
    split_ifs
    all_goals exact ⟨by first | rfl | exact hapi t, by first | rfl | exact hapi i⟩
  exact ⟨_, _, rfl, (hsecond _ _).1.trans (hfirst t i).1, (hsecond _ _).2.trans (hfirst t i).2⟩

/-- **A merge adds the raw counters**, whatever the revisions are. -/
theorem raw_merge {c : Counter} (hc : c ∈ bucketCounters ∨ ∃ k, c ∈ groupCounters k)
    (hraw : c.derivation = .raw) (t i : LocalHalfHourBucket)
    (hfit : (c.value t).untopD 0 + (c.value i).untopD 0 < 2 ^ c.width) :
    c.value (mergeAdditiveBucket current t i) = c.value t + c.value i := by
  obtain ⟨p, q, hmerge, hp, hq⟩ := @rawPart_reconciled current t i
  obtain ⟨count, hadd, rfl | ⟨k, rfl⟩⟩ := raw_counter hc hraw
  · simp only [rawPart, Prod.mk.injEq] at hp hq
    simp only [Counter.value, List.sum_singleton, hmerge, ← hp.1, ← hp.2.1, ← hq.1, ← hq.2.1]
      at hfit ⊢
    exact (congrArg _ (hadd _ _ _ _)).trans (coe_saturatingAdd hfit)
  · -- The groups of the key are read off the raw part, and merging them adds them up.
    let n : LocalUsageGroup → Nat := fun g => count g.tokenUsage g.callCount
    have hvalue : ∀ b, (groupCounter k 64 .raw fun v => (count v.tokenUsage v.callCount : Nat)).value
        b = (((groupsAt k b.groups).map n).sum : Nat) := fun b => coe_sum n _
    have hread : ∀ {a b : LocalHalfHourBucket}, rawPart a = rawPart b →
        (groupsAt k a.groups).map n = (groupsAt k b.groups).map n := by
      have hparts : ∀ b : LocalHalfHourBucket, (groupsAt k b.groups).map n =
          ((rawPart b).2.2.filter fun x => x.1 = k).map fun x => count x.2.1 x.2.2 := fun b => by
        simp only [rawPart, groupsAt, List.filter_map, List.map_map]
        rfl
      intro a b h
      rw [hparts, hparts, h]
    rw [hvalue, hvalue] at hfit
    rw [hvalue, hvalue, hvalue, hmerge, ← hread hp, ← hread hq]
    rw [← hread hp, ← hread hq] at hfit
    change ((((groupsAt k (mergeUsageGroups p.groups q.groups)).map n).sum : Nat) : WithTop Nat) = _
    rw [groupsAt_merge, groupsAt_append]
    cases hall : mergeAll mergeUsageGroup (groupsAt k p.groups ++ groupsAt k q.groups) with
    | none =>
      cases hgroups : groupsAt k p.groups ++ groupsAt k q.groups with
      | nil =>
        obtain ⟨hpnil, hqnil⟩ := List.append_eq_nil_iff.1 hgroups
        rw [hpnil, hqnil]
        rfl
      | cons g gs =>
        rw [hgroups] at hall
        cases hall
    | some g =>
      have hsum := mergeAll_sum (w := 64) (F := fun g => (n g : WithTop Nat))
        (fun x y hxy => (congrArg _ (hadd _ _ _ _)).trans (coe_saturatingAdd hxy)) hall (by
          rw [List.map_append, List.sum_append]
          exact hfit)
      rw [List.map_append, List.sum_append, coe_sum, coe_sum] at hsum
      rw [← hsum]
      rfl

theorem Counter.conserved_raw {c : Counter} {l : List LocalHalfHourBucket} {b : LocalHalfHourBucket}
    (hc : c ∈ bucketCounters ∨ ∃ k, c ∈ groupCounters k) (hraw : c.derivation = .raw)
    (hfit : c.Fits l) (h : mergeAll (mergeAdditiveBucket current) l = some b) :
    c.Conserved l b := by
  have hall : c.atRevision (c.derivation.revision b) l = l :=
    List.filter_eq_self.2 fun a _ => by simp [hraw, Derivation.revision]
  have hfits := hfit (c.derivation.revision b)
  unfold Counter.Conserved
  rw [hall] at hfits ⊢
  refine mergeAll_sum (raw_merge hc hraw) h (lt_of_le_of_lt ?_ hfits)
  exact List.sum_le_sum fun a _ => untopD_sum_le (c.parts a)

end

/-! ## Project groups -/

/-- A project group of a bucket in the aggregate: masked where the revisions differ. -/
def carriedProjectGroup (a b : LocalHalfHourBucket) (g : LocalProjectUsageGroup) :
    LocalProjectUsageGroup :=
  let g := if a.estimatorRevision = b.estimatorRevision then g else g.maskEstimator
  if a.apiPricingCatalogRevision = b.apiPricingCatalogRevision then g else g.maskApi

theorem merged_projectGroups {current : Revisions} {l : List LocalHalfHourBucket}
    {b : LocalHalfHourBucket} (hgood : ∀ a ∈ l, Good current a)
    (h : mergeAll (mergeAdditiveBucket current) l = some b) :
    b.projectGroups.Perm (l.flatMap fun a => a.projectGroups.map (carriedProjectGroup a b)) := by
  have hall := merged_content hgood h
  have hcarried : ∀ a : LocalHalfHourBucket,
      (carryApi a.apiPricingCatalogRevision b.apiPricingCatalogRevision
        (carryEstimator a.estimatorRevision b.estimatorRevision (content a))).projectGroups =
        (a.projectGroups.map (carriedProjectGroup a b) : Multiset LocalProjectUsageGroup) := by
    intro a
    unfold carryApi carryEstimator carriedProjectGroup
    split_ifs
    · simp [content]
    · simp [content, Content.maskEstimator]
    · simp [content, Content.maskApi]
    · simp [content, Content.maskEstimator, Content.maskApi, Function.comp_def]
  -- the groups of a sum are the groups of its parts
  have hsum : ∀ {xs : List Content} {x : Content}, mergeAll (· + ·) xs = some x →
      x.projectGroups = (xs.map Content.projectGroups).sum := by
    intro xs x hx
    induction xs using List.reverseRecOn generalizing x with
    | nil => cases hx
    | append_singleton xs y ih =>
      rw [mergeAll_concat] at hx
      rw [List.map_append, List.sum_append, List.map_singleton, List.sum_singleton]
      cases hinit : mergeAll (· + ·) xs with
      | none =>
        cases xs with
        | nil =>
          rw [hinit] at hx
          rw [← Option.some.inj hx, List.map_nil, List.sum_nil, zero_add]
        | cons z xs => cases hinit
      | some z =>
        rw [hinit] at hx
        rw [← Option.some.inj hx, ← ih hinit]
        rfl
  have hgroups := hsum hall
  rw [List.map_map] at hgroups
  refine Multiset.coe_eq_coe.1 (hgroups.trans ?_)
  clear hall hgroups h hgood
  induction l with
  | nil => rfl
  | cons a l ih =>
    rw [List.map_cons, List.sum_cons, ih, List.flatMap_cons, ← Multiset.coe_add, ← hcarried a]
    rfl

/-! ## Aggregation -/

/-- A slot reports what its buckets have. -/
structure SlotConserved (inputs : List LocalHalfHourBucket) (b : LocalHalfHourBucket) : Prop where
  totals : ∀ c ∈ bucketCounters, c.Conserved inputs b
  groups : ∀ k, ∀ c ∈ groupCounters k, c.Conserved inputs b
  projectGroups :
    b.projectGroups.Perm (inputs.flatMap fun a => a.projectGroups.map (carriedProjectGroup a b))

structure Unsaturated (inputs : List LocalHalfHourBucket) : Prop where
  totals : ∀ c ∈ bucketCounters, c.Fits inputs
  groups : ∀ k, ∀ c ∈ groupCounters k, c.Fits inputs

theorem merged_conserved {current : Revisions} {l : List LocalHalfHourBucket}
    {b : LocalHalfHourBucket} (hgood : ∀ a ∈ l, Good current a) (hfit : Unsaturated l)
    (h : mergeAll (mergeAdditiveBucket current) l = some b) : SlotConserved l b where
  totals c hc := by
    by_cases hraw : c.derivation = .raw
    · exact Counter.conserved_raw (.inl hc) hraw (hfit.totals c hc) h
    · obtain ⟨F, hF⟩ := bucketCounters_reads hc hraw
      exact hF.conserved hgood (hfit.totals c hc) h
  groups k c hc := by
    by_cases hraw : c.derivation = .raw
    · exact Counter.conserved_raw (.inr ⟨k, hc⟩) hraw (hfit.groups k c hc) h
    · obtain ⟨F, hF⟩ := groupCounters_reads hc hraw
      exact hF.conserved hgood (hfit.groups k c hc) h
  projectGroups := merged_projectGroups hgood h

/-- A bucket as its source's collection writes it. The sentinel revision is not a revision of its
own, the coverage of a price is within the usage, and extra units belong to usage. -/
structure Consistent (current : Revisions) (b : LocalHalfHourBucket) : Prop where
  estimator : b.estimatorRevision = 0 → current.estimator = 0
  apiCatalog : b.apiPricingCatalogRevision = 0 → current.apiCatalog = 0
  covered : ∀ g ∈ b.groups, g.Covered
  extra : b.ExtraCounted

section
variable (current : Revisions) (mapping : ProjectMappingProjection)
  (logicalThreads : LogicalThreadProjection)

/-- A bucket of a source with its project groups scoped. -/
def scopedBucket (source : SourceMetadata) (b : LocalHalfHourBucket) : LocalHalfHourBucket :=
  { b with
    projectGroups := (scopeProjectGroups mapping logicalThreads b.projectGroups source).1 }

def scopedBuckets (sources : List SourceSlice) : List LocalHalfHourBucket :=
  sources.flatMap fun source =>
    source.buckets.map (scopedBucket mapping logicalThreads source.metadata)

def slotBuckets (sources : List SourceSlice) (k : DateTime) : List LocalHalfHourBucket :=
  (scopedBuckets mapping logicalThreads sources).filter fun b => b.startsAt = k

def scopeReports (sources : List SourceSlice) : List ProjectScopeReport :=
  sources.flatMap fun source => source.buckets.map fun b =>
    (scopeProjectGroups mapping logicalThreads b.projectGroups source.metadata).2

theorem aggregate_eq (sources : List SourceSlice) :
    aggregateSourceBucketsWithLogicalThreads current mapping logicalThreads sources =
      { buckets := collect LocalHalfHourBucket.startsAt (mergeAdditiveBucket current)
          (scopedBuckets mapping logicalThreads sources)
        report := (scopeReports mapping logicalThreads sources).foldl ProjectScopeReport.or {} } := by
  have hsource : ∀ (source : SourceMetadata) (bs : List LocalHalfHourBucket)
      (p : BucketProjection),
      bs.foldl (aggregateBucket current mapping logicalThreads source) p =
        { buckets := (bs.map (scopedBucket mapping logicalThreads source)).foldl
            (fun l a => upsert LocalHalfHourBucket.startsAt (mergeAdditiveBucket current) a l)
            p.buckets
          report := (bs.map fun b => (scopeProjectGroups mapping logicalThreads b.projectGroups
            source).2).foldl ProjectScopeReport.or p.report } := by
    intro source bs
    induction bs with
    | nil => exact fun p => rfl
    | cons b bs ih =>
      intro p
      rw [List.foldl_cons, ih]
      rfl
  have hall : ∀ (ss : List SourceSlice) (p : BucketProjection),
      ss.foldl (fun projection source => source.buckets.foldl
        (aggregateBucket current mapping logicalThreads source.metadata) projection) p =
        { buckets := (scopedBuckets mapping logicalThreads ss).foldl
            (fun l a => upsert LocalHalfHourBucket.startsAt (mergeAdditiveBucket current) a l)
            p.buckets
          report := (scopeReports mapping logicalThreads ss).foldl ProjectScopeReport.or
            p.report } := by
    intro ss
    induction ss with
    | nil => exact fun p => rfl
    | cons s ss ih =>
      intro p
      rw [List.foldl_cons, ih, hsource, scopedBuckets, scopedBuckets, scopeReports, scopeReports,
        List.flatMap_cons, List.flatMap_cons, List.foldl_append, List.foldl_append]
  exact hall sources {}

variable {current mapping logicalThreads}

theorem Consistent.good {b : LocalHalfHourBucket} (h : Consistent current b)
    (source : SourceMetadata) : Good current (scopedBucket mapping logicalThreads source b) where
  regular := ⟨h.covered, h.extra⟩
  sealing := ⟨fun hzero hne => absurd (h.estimator hzero) hne,
    fun hzero hne => absurd (h.apiCatalog hzero) hne⟩

theorem scopedBuckets_good {sources : List SourceSlice}
    (h : ∀ source ∈ sources, ∀ b ∈ source.buckets, Consistent current b) :
    ∀ b ∈ scopedBuckets mapping logicalThreads sources, Good current b := by
  intro b hb
  obtain ⟨source, hsource, hb⟩ := List.mem_flatMap.1 hb
  obtain ⟨b, hmem, rfl⟩ := List.mem_map.1 hb
  exact (h source hsource b hmem).good source.metadata

theorem valueAt_aggregate (sources : List SourceSlice) (k : DateTime) :
    valueAt LocalHalfHourBucket.startsAt k
        (aggregateSourceBucketsWithLogicalThreads current mapping logicalThreads sources).buckets =
      mergeAll (mergeAdditiveBucket current) (slotBuckets mapping logicalThreads sources k) := by
  rw [aggregate_eq]
  exact valueAt_collect (fun t i _ => (merge_fields current (t := t) (i := i)).1) k _

theorem aggregate_ordered (sources : List SourceSlice) :
    Ordered LocalHalfHourBucket.startsAt
      (aggregateSourceBucketsWithLogicalThreads current mapping logicalThreads sources).buckets := by
  rw [aggregate_eq]
  exact Ordered.collect (fun t i _ => (merge_fields current (t := t) (i := i)).1) _

theorem report_or_comm (a b c : ProjectScopeReport) : (a.or b).or c = (a.or c).or b := by
  simp only [ProjectScopeReport.or, Bool.or_right_comm]

theorem aggregate_same {sources sources' : List SourceSlice} (hperm : sources.Perm sources')
    (hconsistent : ∀ source ∈ sources, ∀ b ∈ source.buckets, Consistent current b) :
    List.Forall₂ SameBucket
      (aggregateSourceBucketsWithLogicalThreads current mapping logicalThreads sources).buckets
      (aggregateSourceBucketsWithLogicalThreads current mapping logicalThreads
        sources').buckets := by
  refine forall₂_of_valueAt (fun b b' h => ?_) (aggregate_ordered sources)
    (aggregate_ordered sources') fun k => ?_
  · rw [h.fields]
  · rw [valueAt_aggregate, valueAt_aggregate]
    refine merged_same (k := k) (fun b hb => ?_) (fun b hb => ?_) ?_
    · exact scopedBuckets_good hconsistent b (List.mem_filter.1 hb).1
    · simpa using (List.mem_filter.1 hb).2
    · exact (hperm.flatMap_right _).filter _

/-- **Aggregation across sources.** Every slot of an input has one bucket, which reports the sums of
the tokens and the calls, in all and of each group. If the inputs are consistent, the buckets do not
depend on the order of the sources, and one reports for each counter the sum over exactly the inputs
at the revision it reports. -/
theorem aggregation_conserves {sources sources' : List SourceSlice}
    (hperm : sources.Perm sources') :
    let result :=
      aggregateSourceBucketsWithLogicalThreads current mapping logicalThreads sources
    let result' :=
      aggregateSourceBucketsWithLogicalThreads current mapping logicalThreads sources'
    let slot := slotBuckets mapping logicalThreads sources
    result.report = result'.report ∧ Ordered LocalHalfHourBucket.startsAt result.buckets ∧
      (∀ k, match valueAt LocalHalfHourBucket.startsAt k result.buckets with
        | some b => ∀ c : Counter, (c ∈ bucketCounters ∨ ∃ key, c ∈ groupCounters key) →
            c.derivation = .raw → c.Fits (slot k) → c.Conserved (slot k) b
        | none => slot k = []) ∧
      ((∀ source ∈ sources, ∀ b ∈ source.buckets, Consistent current b) →
        List.Forall₂ SameBucket result.buckets result'.buckets ∧
        ∀ k b, valueAt LocalHalfHourBucket.startsAt k result.buckets = some b →
          Unsaturated (slot k) → SlotConserved (slot k) b) := by
  intro result result' slot
  have hreport : result.report = result'.report := by
    have hcomm : RightCommutative ProjectScopeReport.or := ⟨report_or_comm⟩
    simp only [result, result', aggregate_eq]
    exact (hperm.flatMap_right _).foldl_eq _
  refine ⟨hreport, aggregate_ordered sources, fun k => ?_, fun hconsistent =>
    ⟨aggregate_same hperm hconsistent, fun k b hb hfit => ?_⟩⟩
  · rw [valueAt_aggregate]
    cases hmerged : mergeAll (mergeAdditiveBucket current) (slot k) with
    | some b => exact fun c hc hraw hfit => Counter.conserved_raw hc hraw hfit hmerged
    | none =>
      cases hslot : slot k with
      | nil => rfl
      | cons a as =>
        rw [hslot] at hmerged
        cases hmerged
  · rw [valueAt_aggregate] at hb
    refine merged_conserved (fun a ha => ?_) hfit hb
    exact scopedBuckets_good hconsistent a (List.mem_filter.1 ha).1

end

theorem Counter.fits_of_sum {c : Counter} {inputs : List LocalHalfHourBucket}
    (h : (inputs.map c.known).sum < 2 ^ c.width) : c.Fits inputs := by
  intro revision
  refine lt_of_le_of_lt ?_ h
  exact (List.filter_sublist.map c.known).sum_le_sum (by simp)

theorem groupCounters_none {k : GroupKey} {c : Counter} (hc : c ∈ groupCounters k)
    {b : LocalHalfHourBucket} (h : groupsAt k b.groups = []) : c.known b = 0 := by
  have hparts : c.parts b = [] := by
    simp only [groupCounters, List.mem_append, List.mem_map, List.mem_cons, List.not_mem_nil,
      or_false] at hc
    rcases hc with (⟨count, -, rfl⟩ | rfl | rfl | rfl) | ⟨count, -, rfl⟩ <;>
      simp [groupCounter, h]
  simp [Counter.known, hparts]

namespace Sample

def active : Revisions := ⟨8, 3⟩

def usage (tokens : Nat) : TokenUsage := ⟨tokens, 0, 0, 0, 0, 0, tokens⟩

/-- The usage of one call with its price. -/
def modelGroup (tokens units picoUsd : Nat) : LocalUsageGroup :=
  { model := some "gpt", tokenUsage := usage tokens, estimatedCostUnits := units,
    apiLongContextExtraCostUnits := some 0, callCount := 1,
    apiEquivalentCost := ⟨picoUsd, picoUsd, 1, 1, tokens, tokens⟩ }

def bucket (revision tokens units picoUsd : Nat) : LocalHalfHourBucket :=
  { startsAt := 0, endsAt := 900, sampledAt := 900, tokenUsage := usage tokens,
    estimatedCostUnits := units, apiLongContextExtraCostUnits := some 0,
    estimatorRevision := revision, apiPricingCatalogRevision := 3, callCount := 1,
    groups := [modelGroup tokens units picoUsd] }

def slice (id : String) (b : LocalHalfHourBucket) : SourceSlice := ⟨⟨id, id⟩, [b]⟩

def unmapped : ProjectMappingProjection := ⟨fun _ _ => none⟩

def aggregate (sources : List SourceSlice) : BucketProjection :=
  aggregateSourceBucketsWithLogicalThreads active unmapped (fun _ => none) sources

/-- A source at the active revision, and one that was not collected again since. -/
def sources : List SourceSlice := [slice "a" (bucket 8 5 40 7), slice "b" (bucket 7 9 90 6)]

theorem unsaturated : Unsaturated (slotBuckets unmapped (fun _ => none) sources 0) where
  totals c hc := by
    refine c.fits_of_sum ?_
    simp only [bucketCounters, tokenCounts, List.map_cons, List.map_nil, List.cons_append,
      List.nil_append, List.mem_cons, List.not_mem_nil, or_false] at hc
    rcases hc with rfl | rfl | rfl | rfl | rfl | rfl | rfl | rfl | rfl | rfl <;> decide +kernel
  groups k c hc := by
    refine c.fits_of_sum ?_
    by_cases hk : (modelGroup 0 0 0).key = k
    · simp only [groupCounters, tokenCounts, priceCounts, List.map_cons, List.map_nil,
        List.cons_append, List.nil_append, List.mem_cons, List.not_mem_nil, or_false] at hc
      subst hk
      rcases hc with rfl | rfl | rfl | rfl | rfl | rfl | rfl | rfl | rfl | rfl | rfl | rfl | rfl |
        rfl <;> decide +kernel
    · rw [List.sum_eq_zero]
      · exact Nat.two_pow_pos _
      · intro n hn
        obtain ⟨b, hb, rfl⟩ := List.mem_map.1 hn
        refine groupCounters_none hc ?_
        have hmem := (List.mem_filter.1 hb).1
        simp only [scopedBuckets, sources, slice, List.flatMap_cons, List.flatMap_nil,
          List.map_cons, List.map_nil, List.cons_append, List.nil_append, List.append_nil,
          List.mem_cons, List.not_mem_nil, or_false] at hmem
        rcases hmem with rfl | rfl
        · exact List.filter_cons_of_neg (by rw [decide_eq_true_eq]; exact hk)
        · exact List.filter_cons_of_neg (by rw [decide_eq_true_eq]; exact hk)

end Sample

theorem aggregation_conserves_sample :
    (Sample.aggregate Sample.sources).buckets.map (fun b =>
        (b.tokenUsage.totalTokens, b.callCount, b.estimatorRevision, b.estimatedCostUnits)) =
        [(14, 2, 8, 40)] ∧
      List.Forall₂ SameBucket (Sample.aggregate Sample.sources).buckets
        (Sample.aggregate Sample.sources.reverse).buckets ∧
      ∀ b, valueAt LocalHalfHourBucket.startsAt 0 (Sample.aggregate Sample.sources).buckets =
          some b →
        SlotConserved (slotBuckets Sample.unmapped (fun _ => none) Sample.sources 0) b := by
  have hconsistent : ∀ source ∈ Sample.sources, ∀ b ∈ source.buckets,
      Consistent Sample.active b := by
    intro source hsource b hb
    simp only [Sample.sources, List.mem_cons, List.not_mem_nil, or_false] at hsource
    rcases hsource with rfl | rfl <;> obtain rfl := List.mem_singleton.1 hb <;>
      exact ⟨by decide, by decide, by decide, fun n hn hpos => .inr (.inl (by decide))⟩
  obtain ⟨-, -, -, hconserved⟩ := @aggregation_conserves Sample.active Sample.unmapped
    (fun _ => none) _ _ (List.reverse_perm Sample.sources).symm
  obtain ⟨hsame, hslot⟩ := hconserved hconsistent
  exact ⟨by decide +kernel, hsame, fun b hb => hslot 0 b hb Sample.unsaturated⟩

namespace Sample

/-- A bucket with one group, whose price covers `samples` calls. -/
def coverage (revision calls samples : Nat) : LocalHalfHourBucket :=
  { startsAt := 0, endsAt := 900, sampledAt := 900, estimatorRevision := 8,
    apiPricingCatalogRevision := revision, callCount := calls,
    groups := [{ callCount := calls, apiEquivalentCost := { observedSamples := samples } }] }

/-- A bucket without usage but for its extra units. -/
def extraOnly (revision : Nat) (extra : Option Nat) : LocalHalfHourBucket :=
  { startsAt := 0, endsAt := 900, sampledAt := 900, estimatorRevision := revision,
    apiLongContextExtraCostUnits := extra }

end Sample

/-- Inputs the order of the sources shows on: one that has the sentinel as a revision of its own,
a group whose price covers more calls than it has, and extra units without usage. -/
theorem aggregation_sees_order :
    (Sample.aggregate [Sample.slice "a" (Sample.bucket 1 5 20 7),
        Sample.slice "b" (Sample.bucket 2 5 30 7),
        Sample.slice "c" (Sample.bucket 0 5 40 7)]).buckets.map (fun b =>
          (b.estimatorRevision, b.estimatedCostUnits)) = [(0, 40)] ∧
      (Sample.aggregate [Sample.slice "c" (Sample.bucket 0 5 40 7),
        Sample.slice "a" (Sample.bucket 1 5 20 7),
        Sample.slice "b" (Sample.bucket 2 5 30 7)]).buckets.map (fun b =>
          (b.estimatorRevision, b.estimatedCostUnits)) = [(0, 0)] ∧
      (Sample.aggregate [Sample.slice "a" (Sample.coverage 1 1 3),
        Sample.slice "b" (Sample.coverage 1 5 0),
        Sample.slice "c" (Sample.coverage 3 0 0)]).buckets.map (fun b =>
          b.groups.map fun g => g.apiEquivalentCost.observedSamples) = [[6]] ∧
      (Sample.aggregate [Sample.slice "a" (Sample.coverage 1 1 3),
        Sample.slice "c" (Sample.coverage 3 0 0),
        Sample.slice "b" (Sample.coverage 1 5 0)]).buckets.map (fun b =>
          b.groups.map fun g => g.apiEquivalentCost.observedSamples) = [[8]] ∧
      (Sample.aggregate [Sample.slice "a" (Sample.extraOnly 1 (some 5)),
        Sample.slice "b" (Sample.extraOnly 1 none),
        Sample.slice "c" (Sample.extraOnly 8 none)]).buckets.map (fun b =>
          b.longContextUsageUnknown) = [false] ∧
      (Sample.aggregate [Sample.slice "a" (Sample.extraOnly 1 (some 5)),
        Sample.slice "c" (Sample.extraOnly 8 none),
        Sample.slice "b" (Sample.extraOnly 1 none)]).buckets.map (fun b =>
          b.longContextUsageUnknown) = [true] := by
  decide +kernel

end History
