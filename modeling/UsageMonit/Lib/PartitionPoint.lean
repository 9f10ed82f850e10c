import Mathlib.Data.List.Pairwise
import Mathlib.Data.List.TakeWhile

/-!
# Partition points

`partitionPoint p l` is where a binary search finds the first element of a list on which a predicate
fails. The list has to be partitioned: no element on which the predicate holds comes after one on
which it does not. A range between two partition points (`modifyRange`) then is what a filter
would pick (`modifyRange_partitionPoint`).
-/

namespace PartitionPoint

variable {α β : Type*}

/-- The length of the prefix on which a predicate holds. -/
def partitionPoint (p : α → Bool) (l : List α) : ℕ := (l.takeWhile p).length

/-- The elements of a range of positions, changed. -/
def modifyRange (start stop : ℕ) (f : α → α) (l : List α) : List α :=
  l.mapIdx fun i a => if start ≤ i ∧ i < stop then f a else a

/-- The predicate holds on a prefix only. -/
def Partitioned (p : α → Bool) (l : List α) : Prop :=
  l.Pairwise fun a b => p b = true → p a = true

section
variable {p q : α → Bool} {l : List α}

theorem partitionPoint_le_length (p : α → Bool) (l : List α) : partitionPoint p l ≤ l.length :=
  (List.takeWhile_prefix p).length_le

theorem partitioned_of_pairwise {r : α → α → Prop} (h : l.Pairwise r)
    (hp : ∀ a b, r a b → p b = true → p a = true) : Partitioned p l :=
  h.imp fun hab => hp _ _ hab

theorem partitionPoint_cons (a : α) : partitionPoint p (a :: l) =
    if p a then partitionPoint p l + 1 else 0 := by
  unfold partitionPoint
  rw [List.takeWhile_cons]
  split_ifs <;> rfl

theorem partitionPoint_congr (h : ∀ a ∈ l, p a = q a) : partitionPoint p l = partitionPoint q l := by
  induction l with
  | nil => rfl
  | cons a l ih =>
    rw [partitionPoint_cons, partitionPoint_cons, h a List.mem_cons_self,
      ih fun b hb => h b (List.mem_cons_of_mem a hb)]

theorem partitionPoint_of_forall (h : ∀ a ∈ l, p a = true) : partitionPoint p l = l.length := by
  unfold partitionPoint
  rw [List.takeWhile_eq_self_iff.2 h]

/-- **The elements before the partition point** are those on which the predicate holds. -/
theorem lt_partitionPoint_iff (h : Partitioned p l) {i : ℕ} {a : α} (ha : l[i]? = some a) :
    i < partitionPoint p l ↔ p a = true := by
  induction l generalizing i with
  | nil => simp at ha
  | cons b l ih =>
    obtain ⟨hb, hl⟩ := List.pairwise_cons.1 h
    rw [partitionPoint_cons]
    cases i with
    | zero =>
      obtain rfl : b = a := by simpa using ha
      split_ifs with hp <;> simp [hp]
    | succ i =>
      have hrest : l[i]? = some a := by simpa using ha
      have hmem : a ∈ l := List.mem_of_getElem? hrest
      split_ifs with hp
      · rw [Nat.add_lt_add_iff_right, ih hl hrest]
      · refine iff_of_false (Nat.not_lt_zero _) fun hpa => hp (hb a hmem hpa)

theorem take_partitionPoint (h : Partitioned p l) : l.take (partitionPoint p l) = l.filter p := by
  induction l with
  | nil => rfl
  | cons a l ih =>
    obtain ⟨ha, hl⟩ := List.pairwise_cons.1 h
    rw [partitionPoint_cons]
    by_cases hp : p a = true
    · rw [if_pos hp, List.take_succ_cons, ih hl, List.filter_cons_of_pos hp]
    · rw [if_neg hp, List.take_zero, List.filter_cons_of_neg hp]
      refine (List.filter_eq_nil_iff.2 fun b hb hpb => hp (ha b hb hpb)).symm

theorem drop_partitionPoint (h : Partitioned p l) :
    l.drop (partitionPoint p l) = l.filter (!p ·) := by
  induction l with
  | nil => rfl
  | cons a l ih =>
    obtain ⟨ha, hl⟩ := List.pairwise_cons.1 h
    rw [partitionPoint_cons]
    by_cases hp : p a = true
    · rw [if_pos hp, List.drop_succ_cons, ih hl, List.filter_cons_of_neg (by simp [hp])]
    · rw [if_neg hp, List.drop_zero]
      refine (List.filter_eq_self.2 fun b hb => ?_).symm
      rcases List.mem_cons.1 hb with rfl | hb
      · simpa using hp
      · simpa using fun hpb => hp (ha b hb hpb)

theorem insertIdx_partitionPoint (h : Partitioned p l) (a : α) :
    l.insertIdx (partitionPoint p l) a = l.filter p ++ a :: l.filter (!p ·) := by
  induction l with
  | nil => rfl
  | cons b l ih =>
    obtain ⟨hb, hl⟩ := List.pairwise_cons.1 h
    rw [partitionPoint_cons]
    by_cases hp : p b = true
    · rw [if_pos hp, List.insertIdx_succ_cons, ih hl, List.filter_cons_of_pos hp,
        List.filter_cons_of_neg (by simp [hp]), List.cons_append]
    · have hnone : ∀ c ∈ l, ¬ p c = true := fun c hc hpc => hp (hb c hc hpc)
      rw [if_neg hp, List.insertIdx_zero, List.filter_cons_of_neg hp,
        List.filter_eq_nil_iff.2 hnone, List.nil_append, List.filter_cons_of_pos (by simp [hp]),
        List.filter_eq_self.2 fun c hc => by simp [hnone c hc]]

end

/-- **A range between two partition points** of the keys holds the elements that a filter picks. -/
theorem modifyRange_partitionPoint {key : α → β} {p q : β → Bool} {f : α → α} {l : List α}
    (hp : Partitioned p (l.map key)) (hq : Partitioned q (l.map key)) :
    modifyRange (partitionPoint p (l.map key)) (partitionPoint q (l.map key)) f l =
      l.map fun a => if !p (key a) && q (key a) then f a else a := by
  unfold modifyRange
  refine List.ext_getElem? fun i => ?_
  rw [List.getElem?_mapIdx, List.getElem?_map]
  cases ha : l[i]? with
  | none => rfl
  | some a =>
    have hkey : (l.map key)[i]? = some (key a) := by rw [List.getElem?_map, ha]; rfl
    have hstart : partitionPoint p (l.map key) ≤ i ↔ ¬ p (key a) = true := by
      rw [← lt_partitionPoint_iff hp hkey, not_lt]
    have hstop := lt_partitionPoint_iff hq hkey
    simp [hstart, hstop]

end PartitionPoint
