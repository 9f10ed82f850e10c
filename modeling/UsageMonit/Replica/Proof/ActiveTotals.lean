import Mathlib.Algebra.Order.BigOperators.Group.List
import UsageMonit.Domain.Delta
import UsageMonit.Lib.Unmarked
import UsageMonit.Replica.Proof.Keeps
import UsageMonit.Replica.Steps

/-!
# Running totals of project groups

The index keeps the total of a bucket's groups that are not tombstoned. Groups are added to it with
saturating sums and taken from it with checked differences, so a total is only known to be the sum
of its groups while their counters sum up within their widths (`GroupsFit`); then it is
(`TotalsOf`), whatever was added (`TotalsOf.add`), and a difference exists
(`checkedDeltaFrom_totalsOf`). Unknown long-context units stay in a total when the group they came
from is taken away.

The remainder of tokens without detail is derived from the other counters. It is exact too, as
groups without input, output and remainder have no tokens at all (`sum_total_eq_zero`).
-/

namespace Replica

open Fallible Usage History

/-! ## Parts of a total -/

/-- The counters of a total, but for the long-context units, which may be unknown. -/
inductive TotalPart
  | tokens (counter : TokenCounter)
  | estimatedCostUnits
  | minimumPicoUsd
  | maximumPicoUsd
  | observedSamples
  | pricedSamples
  | observedTokens
  | pricedTokens
  | callCount
deriving DecidableEq

def TotalPart.bits : TotalPart → Nat
  | tokens _ => 64
  | estimatedCostUnits => 128
  | minimumPicoUsd => 128
  | maximumPicoUsd => 128
  | observedSamples => 64
  | pricedSamples => 64
  | observedTokens => 64
  | pricedTokens => 64
  | callCount => 64

def totalPart (t : ProjectGroupTotals) : TotalPart → Nat
  | .tokens counter => t.tokenUsage.counter counter
  | .estimatedCostUnits => t.estimatedCostUnits
  | .minimumPicoUsd => t.apiEquivalentCost.minimumPicoUsd
  | .maximumPicoUsd => t.apiEquivalentCost.maximumPicoUsd
  | .observedSamples => t.apiEquivalentCost.observedSamples
  | .pricedSamples => t.apiEquivalentCost.pricedSamples
  | .observedTokens => t.apiEquivalentCost.observedTokens
  | .pricedTokens => t.apiEquivalentCost.pricedTokens
  | .callCount => t.callCount

def partSum (k : TotalPart) (groups : List LocalProjectUsageGroup) : Nat :=
  (groups.map fun group => totalPart (groupTotals group) k).sum

def unitSum (groups : List LocalProjectUsageGroup) : Nat :=
  (groups.map fun group => group.apiLongContextExtraCostUnits.getD 0).sum

def UnknownUnits (groups : List LocalProjectUsageGroup) : Prop :=
  ∃ group ∈ groups, group.apiLongContextExtraCostUnits = none

instance (groups : List LocalProjectUsageGroup) : Decidable (UnknownUnits groups) :=
  inferInstanceAs (Decidable (∃ _ ∈ _, _))

structure GroupsFit (groups : List LocalProjectUsageGroup) : Prop where
  parts : ∀ k : TotalPart, partSum k groups < 2 ^ k.bits
  units : unitSum groups < 2 ^ 128

/-- A total is the exact sum of its live groups, with long-context units that are unknown as
soon as those of a recorded group are. -/
structure TotalsOf (recorded live : List LocalProjectUsageGroup) (t : ProjectGroupTotals) :
    Prop where
  parts : ∀ k, totalPart t k = partSum k live
  units : t.apiLongContextExtraCostUnits =
    if UnknownUnits recorded then none else some (unitSum live)

section
variable {groups groups' recorded live gone : List LocalProjectUsageGroup}
  {group : LocalProjectUsageGroup} {t : ProjectGroupTotals} {k : TotalPart}

@[simp] theorem partSum_append :
    partSum k (groups ++ groups') = partSum k groups + partSum k groups' := by
  simp [partSum]

@[simp] theorem partSum_singleton : partSum k [group] = totalPart (groupTotals group) k := by
  simp [partSum]

theorem partSum_perm (h : groups.Perm groups') : partSum k groups = partSum k groups' :=
  (h.map _).sum_eq

@[simp] theorem unitSum_append :
    unitSum (groups ++ groups') = unitSum groups + unitSum groups' := by
  simp [unitSum]

@[simp] theorem unitSum_singleton :
    unitSum [group] = group.apiLongContextExtraCostUnits.getD 0 := by
  simp [unitSum]

theorem unitSum_perm (h : groups.Perm groups') : unitSum groups = unitSum groups' :=
  (h.map _).sum_eq

@[simp] theorem unknownUnits_append :
    UnknownUnits (groups ++ groups') ↔ UnknownUnits groups ∨ UnknownUnits groups' := by
  simp [UnknownUnits, or_and_right, exists_or]

@[simp] theorem unknownUnits_singleton :
    UnknownUnits [group] ↔ group.apiLongContextExtraCostUnits = none := by
  simp [UnknownUnits]

theorem UnknownUnits.mono (h : UnknownUnits groups) (hsub : groups ⊆ groups') :
    UnknownUnits groups' := by
  obtain ⟨group, hgroup, hunits⟩ := h
  exact ⟨group, hsub hgroup, hunits⟩

theorem GroupsFit.left (h : GroupsFit (groups ++ groups')) : GroupsFit groups := by
  refine ⟨fun k => ?_, ?_⟩
  · have hk := h.parts k
    rw [partSum_append] at hk
    omega
  · have hunits := h.units
    rw [unitSum_append] at hunits
    omega

theorem GroupsFit.perm (h : GroupsFit groups) (hperm : groups.Perm groups') :
    GroupsFit groups' := by
  refine ⟨fun k => ?_, ?_⟩
  · rw [← partSum_perm hperm]
    exact h.parts k
  · rw [← unitSum_perm hperm]
    exact h.units

theorem GroupsFit.right (h : GroupsFit (groups ++ groups')) : GroupsFit groups' :=
  (h.perm List.perm_append_comm).left

theorem TotalsOf.perm (h : TotalsOf recorded groups t) (hperm : groups.Perm groups') :
    TotalsOf recorded groups' t := by
  refine ⟨fun k => ?_, ?_⟩
  · rw [h.parts, partSum_perm hperm]
  · rw [h.units, unitSum_perm hperm]

/-! ## Adding -/

theorem saturatingAdd_of_lt {w a b : Nat} (h : a + b < 2 ^ w) : saturatingAdd w a b = a + b := by
  unfold saturatingAdd
  omega

theorem totalPart_addTotals (t u : ProjectGroupTotals) (k : TotalPart) :
    totalPart (ProjectGroupTotals.addTotals t u) k =
      saturatingAdd k.bits (totalPart t k) (totalPart u k) := by
  cases k with
  | tokens counter => exact TokenUsage.counter_addAssign
  | _ => rfl

theorem totalsOf_nil : TotalsOf [] [] {} := by
  refine ⟨fun k => ?_, rfl⟩
  cases k with
  | tokens counter => cases counter <;> rfl
  | _ => rfl

/-- **A group added** to a total. -/
theorem TotalsOf.add (h : TotalsOf recorded live t) (hfit : GroupsFit (live ++ [group])) :
    TotalsOf (recorded ++ [group]) (live ++ [group])
      (ProjectGroupTotals.addTotals t (groupTotals group)) := by
  refine ⟨fun k => ?_, ?_⟩
  · have hk := hfit.parts k
    rw [partSum_append, partSum_singleton, ← h.parts] at hk
    rw [totalPart_addTotals, saturatingAdd_of_lt hk, partSum_append, partSum_singleton, h.parts]
  · have hunits := hfit.units
    rw [unitSum_append, unitSum_singleton] at hunits
    show addOptionalUnits t.apiLongContextExtraCostUnits group.apiLongContextExtraCostUnits = _
    rw [h.units]
    simp only [unknownUnits_append, unknownUnits_singleton, unitSum_append, unitSum_singleton]
    cases hgroup : group.apiLongContextExtraCostUnits with
    | none => by_cases hunknown : UnknownUnits recorded <;> simp [hunknown, addOptionalUnits]
    | some units =>
      rw [hgroup, Option.getD_some] at hunits
      by_cases hunknown : UnknownUnits recorded
      · simp [hunknown, addOptionalUnits]
      · simp [hunknown, addOptionalUnits, saturatingAdd_of_lt hunits]

/-- **Totals from scratch.** -/
theorem totalsOf_projectGroupTotals (hfit : GroupsFit groups) :
    TotalsOf groups groups (projectGroupTotals groups) := by
  induction groups using List.reverseRecOn with
  | nil => exact totalsOf_nil
  | append_singleton groups group ih =>
    have hadd : projectGroupTotals (groups ++ [group]) =
        ProjectGroupTotals.addTotals (projectGroupTotals groups) (groupTotals group) := by
      simp [projectGroupTotals, ProjectGroupTotals.addGroup]
    rw [hadd]
    exact (ih hfit.left).add hfit

/-! ## Taking away -/

theorem sum_total_eq_zero (hinput : partSum (.tokens .input) groups = 0)
    (houtput : partSum (.tokens .output) groups = 0)
    (hunclassified : partSum (.tokens .unclassified) groups = 0) :
    partSum (.tokens .total) groups = 0 := by
  have heach : ∀ k, partSum k groups = 0 → ∀ group ∈ groups,
      totalPart (groupTotals group) k = 0 := by
    intro k hk group hgroup
    exact List.sum_eq_zero_iff.1 hk _ (List.mem_map_of_mem hgroup)
  refine List.sum_eq_zero fun total htotal => ?_
  obtain ⟨group, hgroup, rfl⟩ := List.mem_map.1 htotal
  have hin : group.tokenUsage.inputTokens = 0 := heach _ hinput group hgroup
  have hout : group.tokenUsage.outputTokens = 0 := heach _ houtput group hgroup
  have hrest : group.tokenUsage.unclassified = 0 := heach _ hunclassified group hgroup
  show group.tokenUsage.totalTokens = 0
  unfold TokenUsage.unclassified at hrest
  split at hrest
  · exact hrest
  · rename_i hdetail
    exact absurd ⟨hin, hout, hrest⟩ hdetail

theorem unclassified_deltaFrom {current previous delta : TokenUsage}
    (h : current.deltaFrom previous = some delta) :
    delta.unclassified = if delta.inputTokens = 0 ∧ delta.outputTokens = 0 ∧
        current.unclassified - previous.unclassified = 0 then delta.totalTokens
      else current.unclassified - previous.unclassified := by
  unfold TokenUsage.deltaFrom at h
  split_ifs at h
  obtain rfl := Option.some.inj h
  rfl

theorem counter_deltaFrom_groups {u removed : TokenUsage}
    (hu : ∀ counter, u.counter counter = partSum (.tokens counter) (gone ++ live))
    (hremoved : ∀ counter, removed.counter counter = partSum (.tokens counter) gone) :
    ∃ delta, u.deltaFrom removed = some delta ∧
      ∀ counter, delta.counter counter = partSum (.tokens counter) live := by
  have hle : ∀ counter, removed.counter counter ≤ u.counter counter := by
    intro counter
    rw [hu, hremoved, partSum_append]
    omega
  obtain ⟨delta, hdelta⟩ : ∃ delta, u.deltaFrom removed = some delta := by
    cases hdelta : u.deltaFrom removed with
    | some delta => exact ⟨delta, rfl⟩
    | none =>
      obtain ⟨counter, hlt⟩ := TokenUsage.deltaFrom_eq_none.1 hdelta
      exact absurd (hle counter) (not_le.2 hlt)
  have hreported : ∀ counter, counter ≠ .unclassified →
      delta.counter counter = partSum (.tokens counter) live := by
    intro counter hne
    have hsum := TokenUsage.counter_deltaFrom hdelta (.inl hne)
    rw [hu, hremoved, partSum_append] at hsum
    omega
  refine ⟨delta, hdelta, fun counter => ?_⟩
  by_cases hne : counter = .unclassified
  · subst hne
    have hrest : u.unclassified - removed.unclassified = partSum (.tokens .unclassified) live := by
      have hwhole := hu .unclassified
      have hpart := hremoved .unclassified
      rw [partSum_append] at hwhole
      simp only [TokenUsage.counter] at hwhole hpart
      omega
    have hin := hreported .input (by decide)
    have hout := hreported .output (by decide)
    have htotal := hreported .total (by decide)
    simp only [TokenUsage.counter] at hin hout htotal ⊢
    rw [unclassified_deltaFrom hdelta, hrest, hin, hout, htotal]
    split
    · rename_i hnone
      rw [sum_total_eq_zero hnone.1 hnone.2.1 hnone.2.2, hnone.2.2]
    · rfl
  · exact hreported counter hne

theorem checkedSub_add (a b : Nat) : checkedSub (a + b) a = some b := by
  unfold checkedSub
  rw [if_pos (Nat.le_add_right a b), Nat.add_sub_cancel_left]

/-- **Groups taken away** from a total: the difference exists and is the total of what is left. -/
theorem checkedDeltaFrom_totalsOf (h : TotalsOf recorded (gone ++ live) t)
    (hfit : GroupsFit (gone ++ live)) (hsub : gone ⊆ recorded) :
    ∃ t', ProjectGroupTotals.checkedDeltaFrom t (projectGroupTotals gone) = some t' ∧
      TotalsOf recorded live t' := by
  have hgone := totalsOf_projectGroupTotals hfit.left
  generalize projectGroupTotals gone = removed at hgone ⊢
  obtain ⟨tokens, htokens, hcounters⟩ := counter_deltaFrom_groups
    (fun counter => h.parts (.tokens counter)) fun counter => hgone.parts (.tokens counter)
  have hdiff : ∀ k, checkedSub (totalPart t k) (totalPart removed k) = some (partSum k live) := by
    intro k
    rw [h.parts, hgone.parts, partSum_append, checkedSub_add]
  have hunits : unitsDelta t.apiLongContextExtraCostUnits removed.apiLongContextExtraCostUnits =
      some (if UnknownUnits recorded then none else some (unitSum live)) := by
    rw [h.units, hgone.units]
    by_cases hunknown : UnknownUnits recorded
    · rw [if_pos hunknown, if_pos hunknown]
      rfl
    · have hknown : ¬ UnknownUnits gone := fun hgone => hunknown (hgone.mono hsub)
      rw [if_neg hunknown, if_neg hknown, if_neg hunknown, unitSum_append]
      show (checkedSub (unitSum gone + unitSum live) (unitSum gone)).map some = _
      rw [checkedSub_add]
      rfl
  have hcost : apiCostDelta t.apiEquivalentCost removed.apiEquivalentCost = some
      ⟨partSum .minimumPicoUsd live, partSum .maximumPicoUsd live, partSum .observedSamples live,
        partSum .pricedSamples live, partSum .observedTokens live, partSum .pricedTokens live⟩ := by
    refine Option.bind_eq_some_iff.2 ⟨_, hdiff .minimumPicoUsd, ?_⟩
    refine Option.bind_eq_some_iff.2 ⟨_, hdiff .maximumPicoUsd, ?_⟩
    refine Option.bind_eq_some_iff.2 ⟨_, hdiff .observedSamples, ?_⟩
    refine Option.bind_eq_some_iff.2 ⟨_, hdiff .pricedSamples, ?_⟩
    refine Option.bind_eq_some_iff.2 ⟨_, hdiff .observedTokens, ?_⟩
    exact Option.bind_eq_some_iff.2 ⟨_, hdiff .pricedTokens, rfl⟩
  refine ⟨⟨tokens, partSum .estimatedCostUnits live,
    if UnknownUnits recorded then none else some (unitSum live),
    ⟨partSum .minimumPicoUsd live, partSum .maximumPicoUsd live, partSum .observedSamples live,
      partSum .pricedSamples live, partSum .observedTokens live, partSum .pricedTokens live⟩,
    partSum .callCount live⟩, ?_, fun k => ?_, rfl⟩
  · refine Option.bind_eq_some_iff.2 ⟨_, htokens, ?_⟩
    refine Option.bind_eq_some_iff.2 ⟨_, hdiff .estimatedCostUnits, ?_⟩
    refine Option.bind_eq_some_iff.2 ⟨_, hunits, ?_⟩
    refine Option.bind_eq_some_iff.2 ⟨_, hcost, ?_⟩
    exact Option.bind_eq_some_iff.2 ⟨_, hdiff .callCount, rfl⟩
  · cases k with
    | tokens counter => exact hcounters counter
    | _ => rfl

/-! ## Marking -/

/-- **What marking takes away**: the groups at the positions that were not marked. -/
theorem markRemoved_spec {positions : List Nat} {marks : List Bool}
    (hmarks : marks.length = groups.length) (hpositions : ∀ q ∈ positions, q < groups.length) :
    ∃ gone, (SourceState.markRemoved groups positions marks).2.1 = projectGroupTotals gone ∧
      (unmarked groups marks).Perm
        (gone ++ unmarked groups (SourceState.markRemoved groups positions marks).1) ∧
      (SourceState.markRemoved groups positions marks).1.length = groups.length := by
  have hfold : ∀ (positions : List Nat) (state : List Bool × ProjectGroupTotals × Bool)
      (gone : List LocalProjectUsageGroup), (∀ q ∈ positions, q < groups.length) →
      state.2.1 = projectGroupTotals gone → state.1.length = groups.length →
      (unmarked groups marks).Perm (gone ++ unmarked groups state.1) →
      let state' := positions.foldl (fun state position =>
        if state.1.getD position false then state
        else (state.1.set position true,
          ProjectGroupTotals.addGroup state.2.1 (groups.getD position {}), true)) state
      ∃ gone, state'.2.1 = projectGroupTotals gone ∧
        (unmarked groups marks).Perm (gone ++ unmarked groups state'.1) ∧
        state'.1.length = groups.length := by
    intro positions
    induction positions with
    | nil => exact fun state gone _ htotals hlength hperm => ⟨gone, htotals, hperm, hlength⟩
    | cons q positions ih =>
      intro state gone hin htotals hlength hperm
      obtain ⟨hq, hin⟩ := List.forall_mem_cons.1 hin
      rw [List.foldl_cons]
      split
      · exact ih state gone hin htotals hlength hperm
      · rename_i hmark
        have hunmarked : state.1.getD q false = false := by simpa using hmark
        have hget : groups[q]? = some (groups.getD q {}) := by
          rw [List.getD_eq_getElem?_getD, List.getElem?_eq_getElem hq]
          rfl
        refine ih _ (gone ++ [groups.getD q {}]) hin ?_ ?_ ?_
        · simp [htotals, projectGroupTotals]
        · simpa using hlength
        · have htake := unmarked_perm_set hget (by rw [hlength]; exact hq) hunmarked
          rw [List.append_assoc]
          exact hperm.trans (htake.append_left gone)
  exact hfold positions _ [] hpositions rfl hmarks (List.Perm.refl _)

end

end Replica
