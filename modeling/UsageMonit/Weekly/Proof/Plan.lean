import UsageMonit.History.Proof.OnePerSlot
import UsageMonit.Lib.Outcome
import UsageMonit.Weekly.Plan
import UsageMonit.Weekly.Proof.Resets

/-!
# Weekly cycles partition the points

A step of the planning does the same to every plan: it adds a point to the plan of its cycle
(`planPoint`), a bucket to those that hold it or that it overlaps (`planBucket`). The ranges that
the binary searches find are exactly these (`yields_addWeeklyBucket`). What a plan has at the end is
therefore a filter of what its sources have (`inputs_foldl`).
-/

namespace Weekly

open Fallible Time History PartitionPoint

/-! ## What a cycle holds -/

/-- A point is of the cycle of its reset, if it was observed in it. -/
def InCycle (resets : List DateTime) (resetsAt : DateTime) (point : WeeklyLocalPoint) : Prop :=
  assignedCanonicalReset point.resetsAt resets = some resetsAt ∧
    resetsAt - weeklyWindow ≤ point.observedAt ∧ point.observedAt < resetsAt

instance (resets : List DateTime) (resetsAt : DateTime) (point : WeeklyLocalPoint) :
    Decidable (InCycle resets resetsAt point) := inferInstanceAs (Decidable (_ ∧ _))

/-- A bucket lies in the seven days before a reset. -/
def InsideCycle (resetsAt : DateTime) (bucket : LocalHalfHourBucket) : Prop :=
  resetsAt - weeklyWindow ≤ bucket.startsAt ∧ bucket.endsAt ≤ resetsAt

instance (resetsAt : DateTime) (bucket : LocalHalfHourBucket) :
    Decidable (InsideCycle resetsAt bucket) := inferInstanceAs (Decidable (_ ∧ _))

/-- A bucket overlaps the seven days before a reset. -/
def OverlapsCycle (resetsAt : DateTime) (bucket : LocalHalfHourBucket) : Prop :=
  resetsAt - weeklyWindow < bucket.endsAt ∧ bucket.startsAt < resetsAt

instance (resetsAt : DateTime) (bucket : LocalHalfHourBucket) :
    Decidable (OverlapsCycle resetsAt bucket) := inferInstanceAs (Decidable (_ ∧ _))

structure SourceInRange (source : SourceSlice) : Prop where
  weekly : ∀ point ∈ source.weeklyLocalPoints, Utc point.observedAt
  buckets : ∀ bucket ∈ source.buckets, Utc bucket.startsAt ∧ Utc bucket.endsAt

/-! ## What a step does to a plan -/

def planPoint (resets : List DateTime) (sourceIndex : Nat) (plan : WeeklyCyclePlan)
    (point : WeeklyLocalPoint) : WeeklyCyclePlan :=
  if InCycle resets plan.resetsAt point then plan.pushWeekly sourceIndex point else plan

def planInside (sourceIndex : Nat) (plan : WeeklyCyclePlan) (bucket : LocalHalfHourBucket) :
    WeeklyCyclePlan :=
  if InsideCycle plan.resetsAt bucket then plan.pushBucket sourceIndex bucket else plan

def planOverlap (sourceIndex : Nat) (plan : WeeklyCyclePlan) (bucket : LocalHalfHourBucket) :
    WeeklyCyclePlan :=
  if OverlapsCycle plan.resetsAt bucket then plan.pushCoverage sourceIndex bucket else plan

def planBucket (sourceIndex : Nat) (plan : WeeklyCyclePlan) (bucket : LocalHalfHourBucket) :
    WeeklyCyclePlan :=
  planOverlap sourceIndex (planInside sourceIndex plan bucket) bucket

def planSource (resets : List DateTime) (plan : WeeklyCyclePlan) (source : SourceSlice × Nat) :
    WeeklyCyclePlan :=
  source.1.buckets.foldl (planBucket source.2)
    (source.1.weeklyLocalPoints.foldl (planPoint resets source.2) plan)

/-- The bounds of a plan, which no step changes. -/
def bounds (plan : WeeklyCyclePlan) : DateTime × DateTime := (plan.startsAt, plan.resetsAt)

section
variable {resets : List DateTime} {sourceIndex : Nat} {plan : WeeklyCyclePlan}

theorem bounds_planPoint (point : WeeklyLocalPoint) :
    bounds (planPoint resets sourceIndex plan point) = bounds plan := by
  unfold planPoint
  split_ifs <;> rfl

theorem bounds_planInside (bucket : LocalHalfHourBucket) :
    bounds (planInside sourceIndex plan bucket) = bounds plan := by
  unfold planInside
  split_ifs <;> rfl

theorem bounds_planOverlap (bucket : LocalHalfHourBucket) :
    bounds (planOverlap sourceIndex plan bucket) = bounds plan := by
  unfold planOverlap
  split_ifs <;> rfl

theorem bounds_planBucket (bucket : LocalHalfHourBucket) :
    bounds (planBucket sourceIndex plan bucket) = bounds plan :=
  (bounds_planOverlap bucket).trans (bounds_planInside bucket)

theorem bounds_foldl {β : Type} {step : WeeklyCyclePlan → β → WeeklyCyclePlan}
    (hstep : ∀ plan b, bounds (step plan b) = bounds plan) (plan : WeeklyCyclePlan) (l : List β) :
    bounds (l.foldl step plan) = bounds plan := by
  induction l generalizing plan with
  | nil => rfl
  | cons b l ih => rw [List.foldl_cons, ih, hstep]

theorem bounds_planSource (source : SourceSlice × Nat) :
    bounds (planSource resets plan source) = bounds plan := by
  unfold planSource
  rw [bounds_foldl fun _ => bounds_planBucket, bounds_foldl fun _ => bounds_planPoint]

end

theorem foldl_map {β : Type} (step : WeeklyCyclePlan → β → WeeklyCyclePlan)
    (plans : List WeeklyCyclePlan) (l : List β) :
    l.foldl (fun plans b => plans.map (step · b)) plans = plans.map (l.foldl step ·) := by
  induction l generalizing plans with
  | nil => simp
  | cons b l ih => simp [ih]

/-! ## The run -/

/-- The errors of the work bound. -/
inductive BudgetError (limit : Nat) : String → Prop
  | plans : BudgetError limit
      (weeklyProjectionLimitError "cycle/source plan count overflowed")
  | overflow : BudgetError limit (weeklyProjectionLimitError "projection work count overflowed")
  | exceeded (phase : String) : BudgetError limit (weeklyProjectionLimitError
      ("more than " ++ toString limit ++ " projection work units (" ++ phase ++ ")"))

/-- The plans of a run so far are those of the resets. -/
structure Follows (resets : List DateTime) (s : List WeeklyCyclePlan × Nat)
    (plans : List WeeklyCyclePlan) : Prop where
  plans_eq : s.1 = plans
  bounds_eq : plans.map bounds = resets.map fun r => bounds (newPlan 0 r)

section
variable {limit : Nat} {resets : List DateTime} {sourceIndex : Nat}
  {s : List WeeklyCyclePlan × Nat} {plans : List WeeklyCyclePlan}

theorem Follows.resets_eq (h : Follows resets s plans) : plans.map (·.resetsAt) = resets := by
  have hsnd := congrArg (List.map Prod.snd) h.bounds_eq
  rw [List.map_map, List.map_map] at hsnd
  exact hsnd.trans (List.map_id _)

theorem Follows.map {s' : List WeeklyCyclePlan × Nat} {f : WeeklyCyclePlan → WeeklyCyclePlan}
    (h : Follows resets s plans) (hplans : s'.1 = plans.map f)
    (hf : ∀ plan, bounds (f plan) = bounds plan) : Follows resets s' (plans.map f) := by
  refine ⟨hplans, ?_⟩
  rw [List.map_map, ← h.bounds_eq]
  exact List.map_congr_left fun plan _ => hf plan

theorem Follows.startsAt (h : Follows resets s plans) (hresets : ∀ r ∈ resets, Utc r)
    {plan : WeeklyCyclePlan} (hplan : plan ∈ plans) {t : DateTime} (ht : Utc t) :
    plan.startsAt ≤ t ↔ plan.resetsAt - weeklyWindow ≤ t := by
  have hmem : bounds plan ∈ resets.map fun r => bounds (newPlan 0 r) :=
    h.bounds_eq ▸ List.mem_map_of_mem hplan
  obtain ⟨r, hr, hbounds⟩ := List.mem_map.1 hmem
  have hstart : plan.startsAt = (checkedSubSigned r weeklyWindow).getD minUtc :=
    (congrArg Prod.fst hbounds).symm
  have hreset : plan.resetsAt = r := (congrArg Prod.snd hbounds).symm
  have hpos : (0 : Int) < weeklyWindow := by decide
  have hrange := hresets r hr
  rw [hstart, hreset]
  unfold checkedSubSigned checkedAddSigned
  have hneg : r + -weeklyWindow = r - weeklyWindow := (sub_eq_add_neg _ _).symm
  rw [hneg]
  split_ifs with hfits
  · exact Iff.rfl
  · have hearly : r - weeklyWindow < minUtc := by
      by_contra hle
      exact hfits ⟨not_lt.1 hle, le_trans (sub_le_self _ hpos.le) hrange.2⟩
    exact iff_of_true ht.1 (hearly.le.trans ht.1)

theorem yields_consume {used units : Nat} {phase : String} :
    Yields (consume limit used units phase) (BudgetError limit) fun _ => True := by
  unfold consume
  cases checkedAdd 64 used units with
  | none => exact .overflow
  | some used =>
    dsimp only
    split_ifs
    · exact .exceeded phase
    · trivial

theorem yields_reserve (used count : Nat) :
    Yields (reserveWeeklyMemberships limit used count) (BudgetError limit) fun _ => True := by
  induction count generalizing used with
  | zero => trivial
  | succ count ih => exact yields_consume.bind fun used _ => ih used

theorem modify_eq_map {α κ : Type} [DecidableEq κ] {key : α → κ} {l : List α}
    (hnodup : (l.map key).Nodup) {i : ℕ} {a : α} (ha : l[i]? = some a) (f : α → α) :
    l.modify i f = l.map fun b => if key b = key a then f b else b := by
  refine List.ext_getElem? fun j => ?_
  rw [List.getElem?_modify, List.getElem?_map]
  cases hb : l[j]? with
  | none => rfl
  | some b =>
    have hiff : i = j ↔ key b = key a := by
      obtain ⟨hi, rfl⟩ := List.getElem?_eq_some_iff.1 ha
      obtain ⟨hj, rfl⟩ := List.getElem?_eq_some_iff.1 hb
      have hlen : (l.map key).length = l.length := List.length_map key
      have hinj := @List.Nodup.getElem_inj_iff _ _ hnodup j (hlen ▸ hj) i (hlen ▸ hi)
      simp only [List.getElem_map] at hinj
      rw [hinj, eq_comm]
    simp [hiff]

theorem assigned_mem {reported r : DateTime}
    (h : assignedCanonicalReset reported resets = some r) : r ∈ resets := by
  have hmem := (minByKey_spec h).1
  rw [List.mem_filter, List.mem_append, Option.mem_toList, Option.mem_toList] at hmem
  rcases hmem.1 with hearlier | hlater
  · split_ifs at hearlier
    exact List.mem_of_getElem? hearlier
  · exact List.mem_of_getElem? hlater

/-- **A point** is added to the plan of its cycle, and to no other. -/
theorem yields_addWeeklyPoint (hsorted : resets.Pairwise (· < ·))
    (hresets : ∀ r ∈ resets, Utc r) (h : Follows resets s plans) {point : WeeklyLocalPoint}
    (hpoint : Utc point.observedAt) :
    Yields (addWeeklyPoint limit resets sourceIndex s point) (BudgetError limit) fun s' =>
      Follows resets s' (plans.map (planPoint resets sourceIndex · point)) := by
  have hnodup : (plans.map (·.resetsAt)).Nodup := by
    rw [h.resets_eq]
    exact hsorted.imp ne_of_lt
  have hbounds : ∀ plan, bounds (planPoint resets sourceIndex plan point) = bounds plan :=
    fun _ => bounds_planPoint point
  unfold addWeeklyPoint
  cases hassigned : assignedCanonicalReset point.resetsAt resets with
  | none =>
    refine h.map ?_ hbounds
    refine h.plans_eq.trans (List.map_id' plans).symm |>.trans (List.map_congr_left fun plan _ => ?_)
    exact (if_neg fun hin => by simp [InCycle, hassigned] at hin).symm
  | some r =>
    have hr := assigned_mem hassigned
    have hfind : (resets.findIdx? fun reset => reset = r).isSome := by
      rw [List.findIdx?_isSome, List.any_eq_true]
      exact ⟨r, hr, by simp⟩
    refine (yields_okOr (.inl hfind)).bind fun cycleIndex hindex => ?_
    obtain ⟨hlt, hat, -⟩ := List.findIdx?_eq_some_iff_getElem.1 hindex
    have hat : resets[cycleIndex]? = some r := by
      rw [List.getElem?_eq_getElem hlt]
      exact congrArg some (of_decide_eq_true hat)
    have hplan : ∃ plan, plans[cycleIndex]? = some plan ∧ plan.resetsAt = r := by
      rw [← h.resets_eq, List.getElem?_map, Option.map_eq_some_iff] at hat
      exact hat
    obtain ⟨plan, hplan, hreset⟩ := hplan
    rw [h.plans_eq]
    refine (yields_okOr (.inl (by rw [hplan]; rfl))).bind fun plan' hplan' => ?_
    obtain rfl : plan = plan' := Option.some.inj (hplan.symm.trans hplan')
    have hstart := h.startsAt hresets (List.mem_of_getElem? hplan) hpoint
    have hin : ¬ (point.observedAt < plan.startsAt ∨ plan.resetsAt ≤ point.observedAt) ↔
        InCycle resets r point := by
      unfold InCycle
      rw [not_or, not_lt, not_le, hstart, hreset, hassigned]
      simp
    split_ifs with hout
    · -- The point was not observed in its cycle, so it is of no cycle.
      refine h.map ?_ hbounds
      refine h.plans_eq.trans (List.map_id' plans).symm |>.trans
        (List.map_congr_left fun other _ => ?_)
      refine (if_neg fun hother => ?_).symm
      have heq : r = other.resetsAt := Option.some.inj (hassigned.symm.trans hother.1)
      exact hin.2 (heq ▸ hother) hout
    · refine (yields_reserve s.2 2).bind fun used _ => h.map ?_ hbounds
      rw [modify_eq_map hnodup hplan]
      refine List.map_congr_left fun other _ => ?_
      unfold planPoint
      by_cases heq : other.resetsAt = plan.resetsAt
      · rw [if_pos heq, if_pos (by rw [heq, hreset]; exact hin.1 hout)]
      · rw [if_neg heq, if_neg fun hother => heq ?_]
        exact (Option.some.inj (hassigned.symm.trans hother.1)).symm.trans hreset.symm

theorem checkedAdd_week {t : DateTime} (ht : Utc t) :
    checkedAddSigned t weeklyWindow = if t + weeklyWindow ≤ maxUtc then some (t + weeklyWindow)
      else none := by
  have hpos : (0 : Int) < weeklyWindow := by decide
  unfold checkedAddSigned
  simp only [ht.1.trans (le_add_of_nonneg_right hpos.le), true_and]

/-- The resets up to a week after an instant, also if that week is longer than all dates. -/
theorem partitionPoint_week {t : DateTime} (ht : Utc t) (hresets : ∀ r ∈ resets, Utc r)
    (p : DateTime → DateTime → Bool) (q : DateTime → Bool)
    (hq : ∀ r, q r = p r (t + weeklyWindow)) (hp : ∀ r latest, r < latest → p r latest = true) :
    ((checkedAddSigned t weeklyWindow).elim resets.length fun latest =>
      partitionPoint (p · latest) resets) = partitionPoint q resets := by
  rw [checkedAdd_week ht]
  split_ifs with hfits
  · exact partitionPoint_congr fun r _ => (hq r).symm
  · refine (partitionPoint_of_forall fun r hr => ?_).symm
    rw [hq]
    exact hp r _ (lt_of_le_of_lt (hresets r hr).2 (not_le.1 hfits))

/-- Two predicates that fall along the resets pick a range of the plans. -/
theorem Follows.modifyRange (h : Follows resets s plans) (hsorted : resets.Pairwise (· < ·))
    {p q : DateTime → Bool} (hp : ∀ a b, a < b → p b = true → p a = true)
    (hq : ∀ a b, a < b → q b = true → q a = true) (f : WeeklyCyclePlan → WeeklyCyclePlan) :
    PartitionPoint.modifyRange (partitionPoint p resets) (partitionPoint q resets) f s.1 =
      plans.map fun plan => if !p plan.resetsAt && q plan.resetsAt then f plan else plan := by
  have heq := h.resets_eq
  rw [h.plans_eq, ← heq]
  rw [← heq] at hsorted
  exact modifyRange_partitionPoint (partitioned_of_pairwise hsorted hp)
    (partitioned_of_pairwise hsorted hq)

section
variable (hsorted : resets.Pairwise (· < ·)) (hresets : ∀ r ∈ resets, Utc r)
include hsorted hresets

theorem Follows.modifyWeek (h : Follows resets s plans) {t : DateTime} (ht : Utc t)
    {p : DateTime → Bool}
    (hp : ∀ a b, a < b → p b = true → p a = true) {q : DateTime → DateTime → Bool}
    (hq : ∀ a b latest, a < b → q b latest = true → q a latest = true)
    (hlatest : ∀ r latest, r < latest → q r latest = true) {f g : WeeklyCyclePlan → WeeklyCyclePlan}
    (hg : ∀ plan, g plan =
      if !p plan.resetsAt && q plan.resetsAt (t + weeklyWindow) then f plan else plan)
    (hbounds : ∀ plan, bounds (g plan) = bounds plan) (used : Nat) :
    Follows resets
      (PartitionPoint.modifyRange (partitionPoint p resets)
        ((checkedAddSigned t weeklyWindow).elim resets.length fun latest =>
          partitionPoint (q · latest) resets) f s.1, used) (plans.map g) := by
  refine h.map ?_ hbounds
  rw [partitionPoint_week ht hresets q (q · (t + weeklyWindow)) (fun _ => rfl) hlatest]
  exact (h.modifyRange hsorted hp (fun a b => hq a b _) f).trans
    (List.map_congr_left fun plan _ => (hg plan).symm)

/-- **A bucket** is added to the plans that hold it and to those that it overlaps. -/
theorem yields_addWeeklyBucket (h : Follows resets s plans)
    {bucket : LocalHalfHourBucket} (hstarts : Utc bucket.startsAt)
    (hends : Utc bucket.endsAt) :
    Yields (addWeeklyBucket limit resets sourceIndex s bucket) (BudgetError limit) fun s' =>
      Follows resets s' (plans.map (planBucket sourceIndex · bucket)) := by
  have hlt : ∀ a b c : DateTime, a < b → decide (b < c) = true → decide (a < c) = true :=
    fun a b c hab hbc => decide_eq_true (hab.trans (of_decide_eq_true hbc))
  have hle : ∀ a b c : DateTime, a < b → decide (b ≤ c) = true → decide (a ≤ c) = true :=
    fun a b c hab hbc => decide_eq_true (hab.le.trans (of_decide_eq_true hbc))
  refine (yields_reserve _ _).bind fun used _ => (yields_reserve _ _).bind fun used' _ => ?_
  refine yields_pure ?_
  have hinside := h.modifyWeek (f := (·.pushBucket sourceIndex bucket))
    (g := (planInside sourceIndex · bucket)) hsorted hresets hstarts (hlt · · bucket.endsAt) hle
    (fun _ _ h => decide_eq_true h.le) (fun plan => ?_) (fun _ => bounds_planInside bucket) used
  · have hoverlap := hinside.modifyWeek (f := (·.pushCoverage sourceIndex bucket))
      (g := (planOverlap sourceIndex · bucket)) hsorted hresets hends (hle · · bucket.startsAt) hlt
      (fun _ _ h => decide_eq_true h) (fun plan => ?_) (fun _ => bounds_planOverlap bucket) used'
    · rw [List.map_map] at hoverlap
      exact hoverlap
    · unfold planOverlap OverlapsCycle
      simp only [Bool.and_eq_true, Bool.not_eq_true', decide_eq_false_iff_not, decide_eq_true_eq,
        not_le, sub_lt_iff_lt_add, and_comm]
  · unfold planInside InsideCycle
    simp only [Bool.and_eq_true, Bool.not_eq_true', decide_eq_false_iff_not, decide_eq_true_eq,
      not_lt, sub_le_iff_le_add, and_comm]

theorem yields_addWeeklySource (h : Follows resets s plans) {source : SourceSlice × Nat}
    (hsource : SourceInRange source.1) :
    Yields (addWeeklySource limit resets s source) (BudgetError limit) fun s' =>
      Follows resets s' (plans.map (planSource resets · source)) := by
  have hpoints : Yields (source.1.weeklyLocalPoints.foldlM (addWeeklyPoint limit resets source.2) s)
      (BudgetError limit) fun s' => Follows resets s'
        (plans.map fun plan => source.1.weeklyLocalPoints.foldl (planPoint resets source.2) plan) := by
    rw [← foldl_map]
    refine yields_foldlM (R := Follows resets) (fun point hpoint s' plans' h' => ?_) h
    exact yields_addWeeklyPoint hsorted hresets h' (hsource.weekly point hpoint)
  refine hpoints.bind fun s' h' => ?_
  have hbuckets : Yields (source.1.buckets.foldlM (addWeeklyBucket limit resets source.2) s')
      (BudgetError limit) fun s'' => Follows resets s''
        ((plans.map fun plan => source.1.weeklyLocalPoints.foldl (planPoint resets source.2) plan).map
          fun plan => source.1.buckets.foldl (planBucket source.2) plan) := by
    rw [← foldl_map (planBucket source.2)]
    refine yields_foldlM (R := Follows resets) (fun bucket hbucket s'' plans' h'' => ?_) h'
    obtain ⟨hstarts, hends⟩ := hsource.buckets bucket hbucket
    exact yields_addWeeklyBucket hsorted hresets h'' hstarts hends
  rw [List.map_map] at hbuckets
  exact hbuckets

end

end

/-! ## What the plans hold -/

namespace WeeklyCycleSourceInput

/-- Members in the order of their memberships. -/
def append (input more : WeeklyCycleSourceInput) : WeeklyCycleSourceInput where
  weekly := input.weekly ++ more.weekly
  buckets := input.buckets ++ more.buckets
  coverageBuckets := input.coverageBuckets ++ more.coverageBuckets

@[simp] theorem append_empty (input : WeeklyCycleSourceInput) : input.append {} = input := by
  simp [append]

@[simp] theorem empty_append (input : WeeklyCycleSourceInput) : append {} input = input := by
  simp [append]

theorem append_assoc (a b c : WeeklyCycleSourceInput) :
    (a.append b).append c = a.append (b.append c) := by
  simp [append]

end WeeklyCycleSourceInput

def sliceOf (resets : List DateTime) (resetsAt : DateTime) (source : SourceSlice) :
    WeeklyCycleSourceInput where
  weekly := source.weeklyLocalPoints.filter fun point => InCycle resets resetsAt point
  buckets := source.buckets.filter fun bucket => InsideCycle resetsAt bucket
  coverageBuckets := source.buckets.filter fun bucket => OverlapsCycle resetsAt bucket

/-- The plan has more members of a source than it had. -/
def Gains (sourceIndex : Nat) (plan plan' : WeeklyCyclePlan) (more : WeeklyCycleSourceInput) :
    Prop :=
  plan'.sourceInputs = plan.sourceInputs.modify sourceIndex (·.append more)

section
variable {resets : List DateTime} {sourceIndex : Nat} {plan : WeeklyCyclePlan}

theorem Gains.none (plan : WeeklyCyclePlan) : Gains sourceIndex plan plan {} := by
  unfold Gains
  simp only [WeeklyCycleSourceInput.append_empty]
  exact (List.modify_id sourceIndex plan.sourceInputs).symm

theorem Gains.trans {plan' plan'' : WeeklyCyclePlan} {more more' : WeeklyCycleSourceInput}
    (h : Gains sourceIndex plan plan' more) (h' : Gains sourceIndex plan' plan'' more') :
    Gains sourceIndex plan plan'' (more.append more') := by
  unfold Gains at h h' ⊢
  rw [h', h, List.modify_modify_eq]
  congr 1
  funext input
  exact input.append_assoc more more'

theorem gains_point (point : WeeklyLocalPoint) :
    Gains sourceIndex plan (planPoint resets sourceIndex plan point)
      { weekly := [point].filter fun point => InCycle resets plan.resetsAt point } := by
  unfold planPoint
  split_ifs with hin
  · simp [Gains, hin, WeeklyCyclePlan.pushWeekly, WeeklyCyclePlan.modifyInput,
      WeeklyCycleSourceInput.append]
  · simpa [hin] using Gains.none plan

theorem gains_inside (bucket : LocalHalfHourBucket) :
    Gains sourceIndex plan (planInside sourceIndex plan bucket)
      { buckets := [bucket].filter fun bucket => InsideCycle plan.resetsAt bucket } := by
  unfold planInside
  split_ifs with hin
  · simp [Gains, hin, WeeklyCyclePlan.pushBucket, WeeklyCyclePlan.modifyInput,
      WeeklyCycleSourceInput.append]
  · simpa [hin] using Gains.none plan

theorem gains_overlap (bucket : LocalHalfHourBucket) :
    Gains sourceIndex plan (planOverlap sourceIndex plan bucket)
      { coverageBuckets := [bucket].filter fun bucket => OverlapsCycle plan.resetsAt bucket } := by
  unfold planOverlap
  split_ifs with hin
  · simp [Gains, hin, WeeklyCyclePlan.pushCoverage, WeeklyCyclePlan.modifyInput,
      WeeklyCycleSourceInput.append]
  · simpa [hin] using Gains.none plan

theorem gains_bucket (bucket : LocalHalfHourBucket) :
    Gains sourceIndex plan (planBucket sourceIndex plan bucket)
      { buckets := [bucket].filter fun bucket => InsideCycle plan.resetsAt bucket
        coverageBuckets := [bucket].filter fun bucket => OverlapsCycle plan.resetsAt bucket } := by
  have hreset : (planInside sourceIndex plan bucket).resetsAt = plan.resetsAt :=
    congrArg Prod.snd (bounds_planInside bucket)
  have hgains := (@gains_inside sourceIndex plan bucket).trans (gains_overlap bucket)
  rw [hreset] at hgains
  simpa [planBucket, WeeklyCycleSourceInput.append] using hgains

theorem gains_foldl {β : Type} {step : WeeklyCyclePlan → β → WeeklyCyclePlan}
    {gain : DateTime → List β → WeeklyCycleSourceInput}
    (hbounds : ∀ plan b, bounds (step plan b) = bounds plan)
    (hstep : ∀ plan b, Gains sourceIndex plan (step plan b) (gain plan.resetsAt [b]))
    (hnil : ∀ r, gain r [] = {})
    (hcons : ∀ r b l, gain r (b :: l) = (gain r [b]).append (gain r l)) (l : List β) :
    Gains sourceIndex plan (l.foldl step plan) (gain plan.resetsAt l) := by
  induction l generalizing plan with
  | nil => exact (hnil plan.resetsAt).symm ▸ .none plan
  | cons b l ih =>
    have hreset : (step plan b).resetsAt = plan.resetsAt := congrArg Prod.snd (hbounds plan b)
    rw [List.foldl_cons, hcons, ← hreset]
    exact (hreset ▸ hstep plan b).trans ih

theorem gains_points (points : List WeeklyLocalPoint) :
    Gains sourceIndex plan (points.foldl (planPoint resets sourceIndex) plan)
      { weekly := points.filter fun point => InCycle resets plan.resetsAt point } := by
  refine @gains_foldl _ _ _ _
    (fun r points => { weekly := points.filter fun point => InCycle resets r point })
    (fun _ => bounds_planPoint) (fun _ => gains_point) (fun _ => rfl) (fun r point points => ?_)
    points
  simp [WeeklyCycleSourceInput.append, ← List.filter_append]

theorem gains_buckets (buckets : List LocalHalfHourBucket) :
    Gains sourceIndex plan (buckets.foldl (planBucket sourceIndex) plan)
      { buckets := buckets.filter fun bucket => InsideCycle plan.resetsAt bucket
        coverageBuckets := buckets.filter fun bucket => OverlapsCycle plan.resetsAt bucket } := by
  refine @gains_foldl _ _ _ _
    (fun r buckets =>
      { buckets := buckets.filter fun bucket => InsideCycle r bucket
        coverageBuckets := buckets.filter fun bucket => OverlapsCycle r bucket })
    (fun _ => bounds_planBucket) (fun _ => gains_bucket) (fun _ => rfl) (fun r bucket buckets => ?_)
    buckets
  simp [WeeklyCycleSourceInput.append, ← List.filter_append]

theorem gains_source (source : SourceSlice) :
    Gains sourceIndex plan (planSource resets plan (source, sourceIndex))
      (sliceOf resets plan.resetsAt source) := by
  have hreset : (source.weeklyLocalPoints.foldl (planPoint resets sourceIndex) plan).resetsAt =
      plan.resetsAt := congrArg Prod.snd (bounds_foldl (fun _ => bounds_planPoint) plan _)
  have hgains := (@gains_points resets sourceIndex plan source.weeklyLocalPoints).trans
    (gains_buckets source.buckets)
  rw [hreset] at hgains
  simpa [planSource, sliceOf, WeeklyCycleSourceInput.append] using hgains

theorem sourceInputs_foldl (sources : List SourceSlice) (done : List WeeklyCycleSourceInput)
    (hinputs : plan.sourceInputs = done ++ List.replicate sources.length ⟨[], [], []⟩) :
    ((sources.zipIdx done.length).foldl (planSource resets) plan).sourceInputs =
      done ++ sources.map (sliceOf resets plan.resetsAt) := by
  induction sources generalizing plan done with
  | nil => simpa using hinputs
  | cons source sources ih =>
    have hreset : (planSource resets plan (source, done.length)).resetsAt = plan.resetsAt :=
      congrArg Prod.snd (bounds_planSource (source, done.length))
    have hgains : Gains done.length plan _ _ := @gains_source resets _ _ source
    have hinputs' : (planSource resets plan (source, done.length)).sourceInputs =
        (done ++ [sliceOf resets plan.resetsAt source]) ++ List.replicate sources.length ⟨[], [], []⟩ := by
      rw [hgains, hinputs, List.length_cons, List.replicate_succ]
      simp [List.modify_eq_take_cons_drop]
    have hrest := ih _ hinputs'
    rw [List.length_append, List.length_singleton, hreset] at hrest
    rw [List.zipIdx_cons, List.foldl_cons, hrest]
    simp

end

/-! ## The partition -/

/-- The members of a cycle's source are those that the cycle takes, in order. -/
structure Slices (resets : List DateTime) (resetsAt : DateTime) (source : SourceSlice)
    (input : WeeklyCycleSourceInput) : Prop where
  weekly : input.weekly.Perm (sliceOf resets resetsAt source).weekly
  weekly_sorted : input.weekly.Pairwise fun a b => a.observedAt ≤ b.observedAt
  buckets : input.buckets.Perm (sliceOf resets resetsAt source).buckets
  buckets_sorted : input.buckets.Pairwise fun a b =>
    toLex (a.endsAt, a.startsAt) ≤ toLex (b.endsAt, b.startsAt)
  coverage : input.coverageBuckets.Perm (sliceOf resets resetsAt source).coverageBuckets
  coverage_sorted : input.coverageBuckets.Pairwise fun a b =>
    toLex (a.startsAt, a.endsAt) ≤ toLex (b.startsAt, b.endsAt)

theorem pairwise_sort {α κ : Type} [LinearOrder κ] (key : α → κ) (l : List α) :
    (l.insertionSort fun a b => key a ≤ key b).Pairwise fun a b => key a ≤ key b := by
  have : Std.Total fun a b => key a ≤ key b := ⟨fun _ _ => le_total _ _⟩
  have : IsTrans α fun a b => key a ≤ key b := ⟨fun _ _ _ => le_trans⟩
  exact List.pairwise_insertionSort _ l

theorem slices_sort (resets : List DateTime) (resetsAt : DateTime) (source : SourceSlice) :
    Slices resets resetsAt source (sliceOf resets resetsAt source).sort where
  weekly := List.perm_insertionSort _ _
  weekly_sorted := pairwise_sort WeeklyLocalPoint.observedAt _
  buckets := List.perm_insertionSort _ _
  buckets_sorted := pairwise_sort
    (fun bucket : LocalHalfHourBucket => toLex (bucket.endsAt, bucket.startsAt)) _
  coverage := List.perm_insertionSort _ _
  coverage_sorted := pairwise_sort
    (fun bucket : LocalHalfHourBucket => toLex (bucket.startsAt, bucket.endsAt)) _

def planned (resets : List DateTime) (sources : List SourceSlice) (resetsAt : DateTime) :
    WeeklyCyclePlan :=
  sources.zipIdx.foldl (planSource resets) (newPlan sources.length resetsAt)

section
variable (resets : List DateTime) (sources : List SourceSlice) (resetsAt : DateTime)

theorem planned_resetsAt : (planned resets sources resetsAt).resetsAt = resetsAt :=
  congrArg Prod.snd (bounds_foldl (fun _ => bounds_planSource) (newPlan _ resetsAt) sources.zipIdx)

theorem planned_sourceInputs :
    (planned resets sources resetsAt).sourceInputs = sources.map (sliceOf resets resetsAt) :=
  sourceInputs_foldl sources [] rfl

theorem planned_slices : List.Forall₂ (Slices resets resetsAt) sources
    (planned resets sources resetsAt).sort.sourceInputs := by
  unfold WeeklyCyclePlan.sort
  rw [planned_sourceInputs, List.map_map, List.forall₂_map_right_iff, List.forall₂_same]
  exact fun source _ => slices_sort resets resetsAt source

end

theorem inCycle_of_mem {resets : List DateTime} {resetsAt : DateTime} {sources : List SourceSlice}
    {inputs : List WeeklyCycleSourceInput}
    (hslices : List.Forall₂ (Slices resets resetsAt) sources inputs)
    {input : WeeklyCycleSourceInput} (hinput : input ∈ inputs) {point : WeeklyLocalPoint}
    (hpoint : point ∈ input.weekly) : InCycle resets resetsAt point := by
  obtain ⟨i, hi, rfl⟩ := List.getElem_of_mem hinput
  have hslice := hslices.get (hslices.length_eq ▸ hi) hi
  have hmem := hslice.weekly.subset hpoint
  exact of_decide_eq_true (List.mem_filter.1 hmem).2

/-- **The cycles partition the points.** A plan that is returned has, of each source, exactly the
points of its cycle, the buckets in it and the buckets that overlap it; no point is of two cycles. -/
theorem weekly_cycle_plans_partition {limit used : Nat} {sources : List SourceSlice}
    {resets : List DateTime} (hsorted : resets.Pairwise (· < ·)) (hresets : ∀ r ∈ resets, Utc r)
    (hsources : ∀ source ∈ sources, SourceInRange source) :
    Yields (weeklyCyclePlans limit used sources resets) (BudgetError limit) fun out =>
      out.1.map (·.resetsAt) = resets ∧
      (∀ plan ∈ out.1, List.Forall₂ (Slices resets plan.resetsAt) sources plan.sourceInputs) ∧
      ∀ plan ∈ out.1, ∀ plan' ∈ out.1, ∀ input ∈ plan.sourceInputs, ∀ input' ∈ plan'.sourceInputs,
        ∀ point ∈ input.weekly, point ∈ input'.weekly → plan.resetsAt = plan'.resetsAt := by
  unfold weeklyCyclePlans
  refine (yields_okOr (.inr .plans)).bind fun planCells _ => yields_consume.bind fun used _ => ?_
  have hstart : Follows resets (resets.map (newPlan sources.length), used)
      (resets.map (newPlan sources.length)) := ⟨rfl, by rw [List.map_map]; rfl⟩
  have hrun : Yields (sources.zipIdx.foldlM (addWeeklySource limit resets)
      (resets.map (newPlan sources.length), used)) (BudgetError limit) fun s =>
      Follows resets s ((resets.map (newPlan sources.length)).map fun plan =>
        sources.zipIdx.foldl (planSource resets) plan) := by
    rw [← foldl_map]
    refine yields_foldlM (R := Follows resets) (fun source hsource s plans h => ?_) hstart
    exact yields_addWeeklySource hsorted hresets h (hsources _ (List.fst_mem_of_mem_zipIdx hsource))
  refine hrun.bind fun s h => yields_pure ?_
  have hplans : s.1 = resets.map (planned resets sources) := by
    rw [h.plans_eq, List.map_map]
    rfl
  have hslices : ∀ plan ∈ s.1.map (·.sort),
      List.Forall₂ (Slices resets plan.resetsAt) sources plan.sourceInputs := by
    intro plan hplan
    rw [hplans, List.map_map] at hplan
    obtain ⟨r, -, rfl⟩ := List.mem_map.1 hplan
    have hreset : (planned resets sources r).sort.resetsAt = r := planned_resetsAt resets sources r
    rw [Function.comp_apply, hreset]
    exact planned_slices resets sources r
  refine ⟨?_, hslices, ?_⟩
  · rw [List.map_map, hplans, List.map_map]
    exact (List.map_congr_left fun r _ => planned_resetsAt resets sources r).trans (List.map_id _)
  · intro plan hplan plan' hplan' input hinput input' hinput' point hpoint hpoint'
    have hin := inCycle_of_mem (hslices plan hplan) hinput hpoint
    have hin' := inCycle_of_mem (hslices plan' hplan') hinput' hpoint'
    exact Option.some.inj (hin.1.symm.trans hin'.1)

namespace Sample

/-- The second cycle starts ten minutes before the first ends. -/
def resets : List DateTime := [weeklyWindow, 2 * weeklyWindow - minutes 10]

/-- A point of the first cycle, and a bucket at its end. -/
def source : SourceSlice where
  kind := .local
  weeklyLocalPoints := [{
    observedAt := minutes 5
    resetsAt := weeklyWindow + seconds 30
    estimatorRevision := 1 }]
  buckets := [{
    startsAt := weeklyWindow - minutes 15
    endsAt := weeklyWindow
    sampledAt := weeklyWindow
    estimatorRevision := 1 }]

end Sample

open Weekly.Sample in
/-- The bucket lies in the first cycle and overlaps both. -/
theorem weekly_cycle_plans_partition_sample :
    (weeklyCyclePlans 1000 0 [source] resets).map (fun out => out.1.map fun plan =>
      plan.sourceInputs.map fun input =>
        (input.weekly.length, input.buckets.length, input.coverageBuckets.length)) =
      .ok [[(1, 1, 1)], [(0, 0, 1)]] ∧
    Yields (weeklyCyclePlans 1000 0 [source] resets) (BudgetError 1000) fun out =>
      out.1.map (·.resetsAt) = resets ∧
      (∀ plan ∈ out.1, List.Forall₂ (Slices resets plan.resetsAt) [source] plan.sourceInputs) ∧
      ∀ plan ∈ out.1, ∀ plan' ∈ out.1, ∀ input ∈ plan.sourceInputs, ∀ input' ∈ plan'.sourceInputs,
        ∀ point ∈ input.weekly, point ∈ input'.weekly → plan.resetsAt = plan'.resetsAt := by
  refine ⟨by decide +kernel, weekly_cycle_plans_partition (by decide) ?_ ?_⟩
  · simp only [Utc, Set.mem_Icc]
    decide
  · intro source hsource
    obtain rfl := List.mem_singleton.1 hsource
    constructor <;> simp only [Utc, Set.mem_Icc] <;> decide

end Weekly
