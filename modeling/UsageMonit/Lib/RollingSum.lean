import Mathlib.Algebra.Order.BigOperators.Group.List
import Mathlib.Algebra.Order.Ring.Nat

/-!
# What timed weights sum to after an instant

`massAfter time weight c l` is what the items of `l` that are later than `c` weigh. It is the tool
for rolling windows: dropping items up to `c₀` keeps the mass after any later instant
(`massAfter_dropUntil`), and moving weight to a later instant never makes it less
(`massAfter_modify_le`).
-/

namespace RollingSum

variable {α : Type} (time : α → Int) (weight : α → Nat)

def massAfter (c : Int) (l : List α) : Nat :=
  ((l.filter fun a => decide (c < time a)).map weight).sum

def massOf (c : Int) (a : α) : Nat := if c < time a then weight a else 0

variable {time weight} {c : Int} {l l' : List α}

@[simp] theorem massAfter_nil : massAfter time weight c [] = 0 := rfl

@[simp] theorem massAfter_cons (a : α) :
    massAfter time weight c (a :: l) = massOf time weight c a + massAfter time weight c l := by
  unfold massAfter massOf
  by_cases h : c < time a
  · simp [h]
  · simp [h]

@[simp] theorem massAfter_append :
    massAfter time weight c (l ++ l') = massAfter time weight c l + massAfter time weight c l' := by
  unfold massAfter
  simp

theorem massAfter_perm (h : l.Perm l') :
    massAfter time weight c l = massAfter time weight c l' := by
  exact ((h.filter _).map _).sum_eq

theorem massAfter_dropUntil {c₀ : Int} (h : c₀ ≤ c) :
    massAfter time weight c (l.filter fun a => decide (c₀ < time a)) =
      massAfter time weight c l := by
  unfold massAfter
  rw [List.filter_filter]
  congr 2
  refine List.filter_congr fun a _ => ?_
  by_cases hc : c < time a
  · simp [hc, lt_of_le_of_lt h hc]
  · simp [hc]

theorem massAfter_eq_zero (h : ∀ a ∈ l, time a ≤ c) : massAfter time weight c l = 0 := by
  have hnil : (l.filter fun a => decide (c < time a)) = [] := by
    rw [List.filter_eq_nil_iff]
    intro a ha
    simpa using h a ha
  unfold massAfter
  rw [hnil]
  rfl

theorem massAfter_le_sum : massAfter time weight c l ≤ (l.map weight).sum := by
  exact List.Sublist.sum_le_sum (List.filter_sublist.map _) fun _ _ => Nat.zero_le _

/-- Replacing one item by one that weighs as much as it and another item together, and that is no
earlier than either. -/
theorem massAfter_modify_le {f : α → α} {i : Nat} {a b : α} (hi : l[i]? = some a)
    (hw : weight (f a) = weight a + weight b) (ha : time a ≤ time (f a))
    (hb : time b ≤ time (f a)) :
    massAfter time weight c l + massOf time weight c b ≤
      massAfter time weight c (l.modify i f) := by
  induction l generalizing i with
  | nil => cases hi
  | cons x l ih =>
    cases i with
    | zero =>
      cases hi
      rw [List.modify_zero_cons, massAfter_cons, massAfter_cons]
      unfold massOf
      split <;> split <;> split <;> omega
    | succ i =>
      rw [List.modify_succ_cons, massAfter_cons, massAfter_cons]
      have := ih (i := i) (by simpa using hi)
      omega

end RollingSum
