import Mathlib.Data.List.Perm.Basic

/-!
# Entries without a mark

Entries of a list are removed by a mark at their position; what is left are the entries without one
(`unmarked`). Marking one more entry takes just this entry away (`unmarked_perm_set`), and an entry
that is added at the end is not marked (`unmarked_concat`).
-/

variable {α : Type*} {l : List α} {marks : List Bool} {a : α} {q : Nat}

def unmarked (l : List α) (marks : List Bool) : List α :=
  (l.zipIdx.filter fun entry => !(marks.getD entry.2 false)).map (·.1)

namespace Unmarked

/-- The entries without a mark, when the first position is `n`. -/
def unmarkedFrom (n : Nat) (l : List α) (marks : List Bool) : List α :=
  ((l.zipIdx n).filter fun entry => !(marks.getD entry.2 false)).map (·.1)

theorem unmarkedFrom_cons (n : Nat) (a : α) (l : List α) (marks : List Bool) :
    unmarkedFrom n (a :: l) marks =
      if marks.getD n false then unmarkedFrom (n + 1) l marks
      else a :: unmarkedFrom (n + 1) l marks := by
  unfold unmarkedFrom
  rw [List.zipIdx_cons, List.filter_cons]
  cases marks.getD n false <;> simp

theorem getD_set_ne {p q : Nat} (h : q ≠ p) (b : Bool) :
    (marks.set q b).getD p false = marks.getD p false := by
  rw [List.getD_eq_getElem?_getD, List.getElem?_set_ne h, ← List.getD_eq_getElem?_getD]

theorem getD_set_self (h : q < marks.length) (b : Bool) : (marks.set q b).getD q false = b := by
  simp [List.getD_eq_getElem?_getD, List.getElem?_set_self h]

theorem unmarkedFrom_set_lt {n : Nat} (h : q < n) (l : List α) (b : Bool) :
    unmarkedFrom n l (marks.set q b) = unmarkedFrom n l marks := by
  induction l generalizing n with
  | nil => rfl
  | cons a l ih =>
    rw [unmarkedFrom_cons, unmarkedFrom_cons, getD_set_ne (Nat.ne_of_lt h),
      ih (Nat.lt_succ_of_lt h)]

theorem perm_set_from {n j : Nat} (ha : l[j]? = some a) (hlt : n + j < marks.length)
    (hmark : marks.getD (n + j) false = false) :
    (unmarkedFrom n l marks).Perm (a :: unmarkedFrom n l (marks.set (n + j) true)) := by
  induction l generalizing n j with
  | nil => simp at ha
  | cons b l ih =>
    rw [unmarkedFrom_cons, unmarkedFrom_cons]
    cases j with
    | zero =>
      obtain rfl : b = a := by simpa using ha
      simp only [Nat.add_zero] at hmark hlt ⊢
      rw [hmark, getD_set_self hlt, unmarkedFrom_set_lt (Nat.lt_succ_self n)]
      exact List.Perm.refl _
    | succ j =>
      have hrest : l[j]? = some a := by simpa using ha
      have hstep : n + (j + 1) = n + 1 + j := by omega
      rw [hstep] at hmark hlt ⊢
      have hperm := ih hrest hlt hmark
      rw [getD_set_ne (by omega)]
      cases marks.getD n false with
      | true => exact hperm
      | false => exact (hperm.cons b).trans (List.Perm.swap a b _)

end Unmarked

/-- **One more mark** takes one entry away. -/
theorem unmarked_perm_set (ha : l[q]? = some a) (hlt : q < marks.length)
    (hmark : marks.getD q false = false) :
    (unmarked l marks).Perm (a :: unmarked l (marks.set q true)) := by
  rw [← Nat.zero_add q] at hlt hmark
  have hperm := Unmarked.perm_set_from ha hlt hmark
  rwa [Nat.zero_add] at hperm

theorem unmarked_concat (hle : marks.length ≤ l.length) (a : α) :
    unmarked (l ++ [a]) marks = unmarked l marks ++ [a] := by
  have hlast : marks.getD l.length false = false := by
    rw [List.getD_eq_getElem?_getD, List.getElem?_eq_none hle]
    rfl
  unfold unmarked
  rw [List.zipIdx_append, List.filter_append, List.map_append, Nat.zero_add,
    List.zipIdx_singleton, List.filter_cons_of_pos (by rw [hlast]; rfl)]
  rfl

theorem unmarked_congr {marks' : List Bool}
    (h : ∀ q, marks'.getD q false = marks.getD q false) (l : List α) :
    unmarked l marks' = unmarked l marks := by
  unfold unmarked
  simp only [h]

theorem unmarked_replicate (l : List α) (n : Nat) : unmarked l (List.replicate n false) = l := by
  have hall : ∀ q, (List.replicate n false).getD q false = false := by
    intro q
    rw [List.getD_eq_getElem?_getD, List.getElem?_replicate]
    split <;> rfl
  have hkept : ∀ entry ∈ l.zipIdx, (!(List.replicate n false).getD entry.2 false) = true := by
    intro entry _
    rw [hall]
    rfl
  rw [unmarked, List.filter_eq_self.2 hkept, List.zipIdx_map_fst]

theorem mem_of_mem_unmarked (h : a ∈ unmarked l marks) : a ∈ l := by
  obtain ⟨entry, hentry, rfl⟩ := List.mem_map.1 h
  exact List.fst_mem_of_mem_zipIdx (List.mem_of_mem_filter hentry)
