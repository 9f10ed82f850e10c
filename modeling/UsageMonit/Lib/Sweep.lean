import Mathlib.Order.MinMax
import UsageMonit.Lib.PartitionPoint

/-!
# Sweeps

A sweep goes on in a list, from the index where the last one ended, as long as a predicate holds
(`sweep`). `sweep_eq` says where it ends, and that it folds over what lies between. A sweep over
intervals that are sorted by their starts finds out how far they cover without a gap (`extend`,
`covers_iff`).
-/

namespace Sweep

open PartitionPoint

section
variable {α σ : Type} (p : α → Bool) (step : σ → α → σ)

def sweepFrom : List α → Nat × σ → Nat × σ
  | [], s => s
  | a :: rest, s => if p a then sweepFrom rest (s.1 + 1, step s.2 a) else s

/-- `while items.get(index).is_some_and(p)` -/
def sweep (items : List α) (s : Nat × σ) : Nat × σ := sweepFrom p step (items.drop s.1) s

variable {p step}

theorem sweepFrom_eq (l : List α) (s : Nat × σ) :
    sweepFrom p step l s = (s.1 + (l.takeWhile p).length, (l.takeWhile p).foldl step s.2) := by
  induction l generalizing s with
  | nil => rfl
  | cons a l ih =>
    unfold sweepFrom
    by_cases hp : p a
    · rw [if_pos hp, ih, List.takeWhile_cons_of_pos hp, List.length_cons, List.foldl_cons,
        Nat.add_right_comm, Nat.add_assoc]
    · rw [if_neg hp, List.takeWhile_cons_of_neg hp]
      rfl

theorem takeWhile_drop {items : List α} {index : Nat} (hindex : index ≤ partitionPoint p items) :
    (items.drop index).takeWhile p = (items.takeWhile p).drop index := by
  induction items generalizing index with
  | nil => simp
  | cons a items ih =>
    cases index with
    | zero => rfl
    | succ index =>
      rw [partitionPoint_cons] at hindex
      split_ifs at hindex with hp
      · rw [List.takeWhile_cons_of_pos hp, List.drop_succ_cons, List.drop_succ_cons]
        exact ih (Nat.le_of_succ_le_succ hindex)
      · exact absurd hindex (Nat.not_succ_le_zero index)

/-- **A sweep** ends at the partition point, and folds over the items that it passes. -/
theorem sweep_eq {items : List α} (hp : Partitioned p items) {index : Nat}
    (hindex : index ≤ partitionPoint p items) (s : σ) :
    ∃ passed, items.take index ++ passed = items.filter p ∧ (∀ a ∈ passed, a ∈ items.drop index) ∧
      sweep p step items (index, s) = (partitionPoint p items, passed.foldl step s) := by
  have htake : items.takeWhile p = items.filter p := by
    rw [← take_partitionPoint hp]
    exact List.prefix_iff_eq_take.1 (List.takeWhile_prefix p)
  have hlen : (items.filter p).length = partitionPoint p items := congrArg List.length htake.symm
  have hbefore : (items.filter p).take index = items.take index := by
    rw [← take_partitionPoint hp, List.take_take, min_eq_left hindex]
  refine ⟨(items.filter p).drop index, ?_, fun a ha => ?_, ?_⟩
  · rw [← hbefore, List.take_append_drop]
  · rw [← htake, ← takeWhile_drop hindex] at ha
    exact (List.takeWhile_prefix p).subset ha
  · unfold sweep
    rw [sweepFrom_eq, takeWhile_drop hindex, List.length_drop, htake, hlen,
      Nat.add_sub_cancel' hindex]

/-- A sweep that keeps a fold of what it has passed, also where it is beyond the partition point. -/
theorem sweep_foldl {items : List α} (hp : Partitioned p items) (index : Nat) (init : σ) :
    ∃ index', index ≤ index' ∧ partitionPoint p items ≤ index' ∧
      (∀ a ∈ items.take index', a ∈ items.take index ∨ p a) ∧
      sweep p step items (index, (items.take index).foldl step init) =
        (index', (items.take index').foldl step init) := by
  by_cases hindex : index ≤ partitionPoint p items
  · refine ⟨partitionPoint p items, hindex, le_rfl, fun a ha => ?_, ?_⟩
    · rw [take_partitionPoint hp] at ha
      exact .inr (List.mem_filter.1 ha).2
    · obtain ⟨passed, hpassed, -, hsweep⟩ :=
        @sweep_eq _ _ _ step _ hp _ hindex ((items.take index).foldl step init)
      rw [hsweep, ← List.foldl_append, hpassed, take_partitionPoint hp]
  · have hbeyond := (Nat.lt_of_not_le hindex).le
    refine ⟨index, le_rfl, hbeyond, fun a ha => .inl ha, ?_⟩
    have hnone : (items.drop index).takeWhile p = [] := by
      cases hrest : items.drop index with
      | nil => rfl
      | cons a rest =>
        have ha : a ∈ items.drop (partitionPoint p items) :=
          List.drop_subset_drop_left items hbeyond (hrest ▸ List.mem_cons_self)
        rw [drop_partitionPoint hp] at ha
        exact List.takeWhile_cons_of_neg (by simpa using (List.mem_filter.1 ha).2)
    unfold sweep
    rw [sweepFrom_eq, hnone]
    rfl

theorem partitionPoint_mono {q : α → Bool} {items : List α} (hpq : ∀ a ∈ items, p a → q a) :
    partitionPoint p items ≤ partitionPoint q items := by
  induction items with
  | nil => exact le_rfl
  | cons a items ih =>
    have htail := ih fun b hb => hpq b (List.mem_cons_of_mem a hb)
    have hhead := hpq a List.mem_cons_self
    rw [partitionPoint_cons, partitionPoint_cons]
    split_ifs with hp hq
    · exact Nat.succ_le_succ htail
    · exact absurd (hhead hp) hq
    · exact Nat.zero_le _
    · exact le_rfl

end

/-! ## Intervals -/

section
variable {τ : Type} [LinearOrder τ]

/-- The end of what is covered so far, and whether there was a gap: with a further interval. -/
def extend (s : τ × Bool) (interval : τ × τ) : τ × Bool :=
  if s.2 then s else if s.1 < interval.1 then (s.1, true) else (max s.1 interval.2, false)

theorem foldl_extend_gap (l : List (τ × τ)) (through : τ) :
    l.foldl extend (through, true) = (through, true) := by
  induction l with
  | nil => rfl
  | cons interval l ih => exact ih

/-- **The sweep finds out what is covered**: it has passed all intervals that start before the
target, and none that starts after it. -/
theorem covers_iff {l rest : List (τ × τ)} (hsorted : (l ++ rest).Pairwise fun i j => i.1 ≤ j.1)
    {origin target : τ} (hl : ∀ i ∈ l, i.1 ≤ target) (hrest : ∀ i ∈ rest, target ≤ i.1) :
    ((l.foldl extend (origin, false)).2 = false ∧ target ≤ (l.foldl extend (origin, false)).1) ↔
      ∀ x, origin ≤ x → x < target → ∃ i ∈ l ++ rest, i.1 ≤ x ∧ x < i.2 := by
  induction l generalizing origin with
  | nil =>
    constructor
    · rintro ⟨-, hle⟩ x hx hlt
      exact absurd (hle.trans hx) (not_le.2 hlt)
    · refine fun hcovered => ⟨rfl, ?_⟩
      by_contra hlt
      obtain ⟨i, hi, hstart, -⟩ := hcovered origin le_rfl (not_le.1 hlt)
      exact hlt ((hrest i hi).trans hstart)
  | cons i l ih =>
    rw [List.cons_append, List.pairwise_cons] at hsorted
    rw [List.foldl_cons]
    by_cases hgap : origin < i.1
    · -- Nothing covers the origin, since everything starts after it.
      have hstep : extend (origin, false) i = (origin, true) := by simp [extend, hgap]
      rw [hstep, foldl_extend_gap]
      refine iff_of_false (by simp) fun hcovered => ?_
      have hlt := hgap.trans_le (hl i List.mem_cons_self)
      obtain ⟨j, hj, hstart, -⟩ := hcovered origin le_rfl hlt
      rcases List.mem_cons.1 hj with rfl | hj
      · exact not_le.2 hgap hstart
      · exact not_le.2 (hgap.trans_le (hsorted.1 j hj)) hstart
    · have hstep : extend (origin, false) i = (max origin i.2, false) := by simp [extend, hgap]
      rw [hstep, ih hsorted.2 fun j hj => hl j (List.mem_cons_of_mem i hj)]
      constructor
      · intro hcovered x hx hlt
        by_cases hend : x < i.2
        · exact ⟨i, List.mem_cons_self, (not_lt.1 hgap).trans hx, hend⟩
        · obtain ⟨j, hj, hin⟩ := hcovered x (max_le hx (not_lt.1 hend)) hlt
          exact ⟨j, List.mem_cons_of_mem i hj, hin⟩
      · intro hcovered x hx hlt
        obtain ⟨horigin, hend⟩ := max_le_iff.1 hx
        obtain ⟨j, hj, hin⟩ := hcovered x horigin hlt
        rcases List.mem_cons.1 hj with rfl | hj
        · exact absurd hin.2 (not_lt.2 hend)
        · exact ⟨j, hj, hin⟩

end

end Sweep
