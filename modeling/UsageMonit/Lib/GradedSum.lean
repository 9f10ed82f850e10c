import UsageMonit.Lib.KeyedMerge

/-!
# Sums of graded values

Values that come with a grade of a join-semilattice are added at the join of their grades, each
carried up to it first (`Carry`). The sum is commutative and associative (`Carry.plus_comm`,
`Carry.plus_assoc`), and a sum of many values is the plain sum of all of them carried to the common
grade (`Carry.mergeAll_eq`). A mask that forgets part of a value gives such a carrier
(`Carry.ofMask`): a value keeps that part only when its grade is the common one.
-/

namespace GradedSum

open KeyedMerge

variable {L M : Type*} [SemilatticeSup L] [AddCommSemigroup M]

/-- How values of a grade are carried to a higher one. -/
structure Carry (L M : Type*) [SemilatticeSup L] [AddCommSemigroup M] where
  carry : L → L → M → M
  carry_self : ∀ r x, carry r r x = x
  carry_trans : ∀ {r s t} x, r ≤ s → s ≤ t → carry s t (carry r s x) = carry r t x
  carry_add : ∀ {r s} x y, r ≤ s → carry r s (x + y) = carry r s x + carry r s y

namespace Carry

/-- Values with a mask, over grades: carried unmasked to the same grade only. -/
def ofMask [DecidableEq L] (mask : M → M) (hidem : ∀ x, mask (mask x) = mask x)
    (hadd : ∀ x y, mask (x + y) = mask x + mask y) : Carry L M where
  carry r s x := if r = s then x else mask x
  carry_self r x := if_pos rfl
  carry_trans := by
    intro r s t x hrs hst
    by_cases h : r = s
    · rw [if_pos h, h]
    · have hrt : r ≠ t := fun h' => h (le_antisymm hrs (h' ▸ hst))
      rw [if_neg h, if_neg hrt, hidem, ite_self]
  carry_add := by
    intro r s x y _
    split
    · rfl
    · exact hadd x y

/-- Two kinds of grades at once, with carriers that commute. -/
def prod {K : Type*} [SemilatticeSup K] (c : Carry L M) (d : Carry K M)
    (hcomm : ∀ r s r' s' x, c.carry r s (d.carry r' s' x) = d.carry r' s' (c.carry r s x)) :
    Carry (L × K) M where
  carry r s x := d.carry r.2 s.2 (c.carry r.1 s.1 x)
  carry_self r x := by rw [c.carry_self, d.carry_self]
  carry_trans := by
    intro r s t x hrs hst
    rw [hcomm, c.carry_trans x hrs.1 hst.1, d.carry_trans _ hrs.2 hst.2]
  carry_add := by
    intro r s x y hrs
    rw [c.carry_add x y hrs.1, d.carry_add _ _ hrs.2]

variable (c : Carry L M)

/-- The sum of two graded values. -/
def plus (a b : L × M) : L × M :=
  (a.1 ⊔ b.1, c.carry a.1 (a.1 ⊔ b.1) a.2 + c.carry b.1 (a.1 ⊔ b.1) b.2)

theorem plus_comm (a b : L × M) : c.plus a b = c.plus b a := by
  unfold plus
  rw [sup_comm, add_comm]

theorem plus_assoc (a b d : L × M) : c.plus (c.plus a b) d = c.plus a (c.plus b d) := by
  unfold plus
  have hab : a.1 ⊔ b.1 ≤ a.1 ⊔ b.1 ⊔ d.1 := le_sup_left
  have hbd : b.1 ⊔ d.1 ≤ a.1 ⊔ (b.1 ⊔ d.1) := le_sup_right
  rw [c.carry_add _ _ hab, c.carry_add _ _ hbd, c.carry_trans _ le_sup_left hab,
    c.carry_trans _ le_sup_right hab, c.carry_trans _ le_sup_left hbd,
    c.carry_trans _ le_sup_right hbd, sup_assoc, add_assoc]

/-- **A sum of many values** is the plain sum of the values at the common grade. -/
theorem mergeAll_eq {as : List (L × M)} {t : L × M} (h : mergeAll c.plus as = some t) :
    (∀ a ∈ as, a.1 ≤ t.1) ∧
      mergeAll (· + ·) (as.map fun a => c.carry a.1 t.1 a.2) = some t.2 := by
  induction as using List.reverseRecOn generalizing t with
  | nil => cases h
  | append_singleton as a ih =>
    rw [mergeAll_concat] at h
    cases hinit : mergeAll c.plus as with
    | none =>
      have hnil : as = [] := by
        cases as with
        | nil => rfl
        | cons b as => cases hinit
      subst hnil
      rw [hinit] at h
      cases h
      exact ⟨by simp, by simp [mergeAll, c.carry_self]⟩
    | some s =>
      rw [hinit] at h
      cases h
      obtain ⟨hle, hsum⟩ := ih hinit
      refine ⟨fun b hb => ?_, ?_⟩
      · rcases List.mem_append.1 hb with hb | hb
        · exact (hle b hb).trans le_sup_left
        · rw [List.mem_singleton.1 hb]
          exact le_sup_right
      · have hcarried : (as.map fun b => c.carry b.1 (c.plus s a).1 b.2) =
            (as.map fun b => c.carry b.1 s.1 b.2).map (c.carry s.1 (c.plus s a).1) := by
          rw [List.map_map]
          refine List.map_congr_left fun b hb => ?_
          exact (c.carry_trans b.2 (hle b hb) le_sup_left).symm
        have hmapped : mergeAll (· + ·) ((as.map fun b => c.carry b.1 s.1 b.2).map
              (c.carry s.1 (c.plus s a).1)) =
            (mergeAll (· + ·) (as.map fun b => c.carry b.1 s.1 b.2)).map
              (c.carry s.1 (c.plus s a).1) :=
          mergeAll_map (fun x y => c.carry_add x y le_sup_left) _
        rw [List.map_append, List.map_singleton, mergeAll_concat, hcarried, hmapped, hsum]
        rfl

end Carry

end GradedSum
