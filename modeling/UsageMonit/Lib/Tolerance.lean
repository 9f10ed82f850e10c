import Mathlib.Algebra.Order.Group.Abs
import Mathlib.Data.List.Pairwise
import Mathlib.Algebra.Order.Group.Int

/-!
# Lists that a tolerance keeps apart

Elements are near if they have the same key and their instants differ by at most a tolerance. This
is no equivalence: an element can be near two that are not near each other. A list is kept apart if
no two of its elements are near (`KeptApart`). An element is merged into the first one that matches
it (`mergeFirst`); the list stays apart if nothing else in it is near the result
(`KeptApart.replace`), and an element of the list is its own first match
(`KeptApart.mergeFirst_self`).
-/

namespace Tolerance

variable {α κ : Type*}

/-- The first element that matches is merged, if there is one. -/
def mergeFirst (isMatch : α → Bool) (merge : α → α × Bool) : List α → Option (List α × Bool)
  | [] => none
  | a :: l =>
    if isMatch a then some ((merge a).1 :: l, (merge a).2)
    else (mergeFirst isMatch merge l).map fun merged => (a :: merged.1, merged.2)

section
variable {isMatch : α → Bool} {merge : α → α × Bool}

theorem mergeFirst_eq_none {l : List α} (h : ∀ a ∈ l, isMatch a = false) :
    mergeFirst isMatch merge l = none := by
  induction l with
  | nil => rfl
  | cons a l ih =>
    obtain ⟨ha, hl⟩ := List.forall_mem_cons.1 h
    simp [mergeFirst, ha, ih hl]

theorem mergeFirst_append {pre post : List α} {a : α} (hpre : ∀ b ∈ pre, isMatch b = false)
    (ha : isMatch a = true) : mergeFirst isMatch merge (pre ++ a :: post) =
      some (pre ++ (merge a).1 :: post, (merge a).2) := by
  induction pre with
  | nil => simp [mergeFirst, ha]
  | cons b pre ih =>
    obtain ⟨hb, hpre⟩ := List.forall_mem_cons.1 hpre
    simp [mergeFirst, hb, ih hpre]

theorem first_match (isMatch : α → Bool) (l : List α) :
    (∀ a ∈ l, isMatch a = false) ∨ ∃ pre a post, l = pre ++ a :: post ∧
      (∀ b ∈ pre, isMatch b = false) ∧ isMatch a = true := by
  induction l with
  | nil => exact .inl (by simp)
  | cons a l ih =>
    cases ha : isMatch a with
    | true => exact .inr ⟨[], a, l, rfl, by simp, ha⟩
    | false =>
      rcases ih with hnone | ⟨pre, b, post, rfl, hpre, hb⟩
      · exact .inl (List.forall_mem_cons.2 ⟨ha, hnone⟩)
      · exact .inr ⟨a :: pre, b, post, rfl, List.forall_mem_cons.2 ⟨ha, hpre⟩, hb⟩

end

section
variable (key : α → κ) (instant : α → ℤ) (tolerance : ℤ)

/-- Elements of one key whose instants differ by at most the tolerance. -/
def Near (a b : α) : Prop := key a = key b ∧ |instant a - instant b| ≤ tolerance

/-- No two elements are near. -/
def KeptApart (l : List α) : Prop := l.Pairwise fun a b => ¬ Near key instant tolerance a b

end

variable {key : α → κ} {instant : α → ℤ} {tolerance : ℤ} {l pre post : List α} {a b c : α}

theorem Near.symm (h : Near key instant tolerance a b) : Near key instant tolerance b a :=
  ⟨h.1.symm, by rw [abs_sub_comm]; exact h.2⟩

theorem near_self (htolerance : 0 ≤ tolerance) (a : α) : Near key instant tolerance a a :=
  ⟨rfl, by rwa [sub_self, abs_zero]⟩

theorem near_congr (hkey : key b = key c) (hinstant : instant b = instant c) :
    Near key instant tolerance a b ↔ Near key instant tolerance a c := by
  unfold Near
  rw [hkey, hinstant]

theorem keptApart_middle : KeptApart key instant tolerance (pre ++ a :: post) ↔
    KeptApart key instant tolerance (pre ++ post) ∧
      ∀ b ∈ pre ++ post, ¬ Near key instant tolerance b a := by
  unfold KeptApart
  rw [List.pairwise_middle fun hnot hnear => hnot hnear.symm, List.pairwise_cons, and_comm]
  refine and_congr_right fun _ => forall₂_congr fun b _ => ?_
  exact not_congr ⟨Near.symm, Near.symm⟩

/-- **Replacing an element** keeps the list apart if the new one is near nothing else. -/
theorem KeptApart.replace (h : KeptApart key instant tolerance (pre ++ a :: post))
    (hc : ∀ b ∈ pre ++ post, Near key instant tolerance b c → Near key instant tolerance b a) :
    KeptApart key instant tolerance (pre ++ c :: post) := by
  obtain ⟨hrest, ha⟩ := keptApart_middle.1 h
  exact keptApart_middle.2 ⟨hrest, fun b hb hnear => ha b hb (hc b hb hnear)⟩

theorem KeptApart.concat (h : KeptApart key instant tolerance l)
    (hc : ∀ b ∈ l, ¬ Near key instant tolerance b c) :
    KeptApart key instant tolerance (l ++ [c]) := by
  rw [← List.append_nil l] at h hc
  exact keptApart_middle.2 ⟨h, hc⟩

theorem KeptApart.perm {l' : List α} (h : KeptApart key instant tolerance l) (hperm : l'.Perm l) :
    KeptApart key instant tolerance l' :=
  (hperm.pairwise_iff fun hnot hnear => hnot hnear.symm).2 h

/-- **An element is its own first match**, if a match is an element near it. -/
theorem KeptApart.mergeFirst_self (htolerance : 0 ≤ tolerance)
    (h : KeptApart key instant tolerance l) {isMatch : α → Bool} {merge : α → α × Bool}
    (ha : a ∈ l) (hmatch : ∀ b ∈ l, isMatch b = true ↔ Near key instant tolerance b a)
    (hmerge : merge a = (a, false)) : mergeFirst isMatch merge l = some (l, false) := by
  obtain ⟨pre, post, rfl⟩ := List.append_of_mem ha
  obtain ⟨-, hrest⟩ := keptApart_middle.1 h
  have hpre : ∀ b ∈ pre, isMatch b = false := by
    intro b hb
    rw [← Bool.not_eq_true, hmatch b (by simp [hb])]
    exact hrest b (by simp [hb])
  rw [mergeFirst_append hpre ((hmatch a ha).2 (near_self htolerance a)), hmerge]

theorem others_apart {isMatch : α → Bool}
    (hmatch : ∀ b ∈ pre ++ a :: post, isMatch b = true ↔ Near key instant tolerance b c)
    (hcount : (pre ++ a :: post).countP isMatch ≤ 1) (ha : isMatch a = true) :
    ∀ b ∈ pre ++ post, ¬ Near key instant tolerance b c := by
  rw [List.countP_append, List.countP_cons_of_pos ha] at hcount
  have hpre : pre.countP isMatch = 0 := by omega
  have hpost : post.countP isMatch = 0 := by omega
  rw [List.countP_eq_zero] at hpre hpost
  intro b hb hnear
  rcases List.mem_append.1 hb with hb | hb
  · exact hpre b hb ((hmatch b (by simp [hb])).2 hnear)
  · exact hpost b hb ((hmatch b (by simp [hb])).2 hnear)

end Tolerance
