import Mathlib.Data.List.Induction
import Mathlib.Order.MinMax

/-!
# Half-open intervals in order

A pair of bounds stands for the points from the first up to, but without, the second; there are none
when the second is not above the first. In a list whose intervals are `Apart` a point can only be in
the last interval that starts at or before it (`covered_iff_before`), so that a search for this
interval decides membership. `join` extends the last interval or begins a new one; joining intervals
by their start gives a list that is apart and covers the same points (`joins_spec`).
-/

namespace Intervals

variable {α : Type*} [LinearOrder α]

def Contains (r : α × α) (t : α) : Prop := r.1 ≤ t ∧ t < r.2

def Covered (l : List (α × α)) (t : α) : Prop := ∃ r ∈ l, Contains r t

/-- The starts ascend, and every interval ends before the next ones start. -/
def Apart (l : List (α × α)) : Prop := l.Pairwise fun a b => a.1 ≤ b.1 ∧ a.2 < b.1

/-- An interval after others: it extends the last one if it starts within it or at its end. -/
def join (l : List (α × α)) (r : α × α) : List (α × α) :=
  match l.getLast? with
  | some last => if r.1 ≤ last.2 then l.dropLast ++ [(last.1, max last.2 r.2)] else l ++ [r]
  | none => [r]

variable {l : List (α × α)} {r : α × α} {t : α}

theorem join_nil (r : α × α) : join [] r = [r] := rfl

theorem join_concat (init : List (α × α)) (last r : α × α) :
    join (init ++ [last]) r =
      if r.1 ≤ last.2 then init ++ [(last.1, max last.2 r.2)] else init ++ [last] ++ [r] := by
  unfold join
  rw [List.getLast?_concat]
  simp

theorem covered_append (l l' : List (α × α)) (t : α) :
    Covered (l ++ l') t ↔ Covered l t ∨ Covered l' t := by
  simp [Covered, or_and_right, exists_or]

theorem covered_singleton (r : α × α) (t : α) : Covered [r] t ↔ Contains r t := by
  simp [Covered]

theorem contains_joined {last : α × α} (hstart : last.1 ≤ r.1) (htouch : r.1 ≤ last.2) :
    Contains (last.1, max last.2 r.2) t ↔ Contains last t ∨ Contains r t := by
  constructor
  · rintro ⟨hle, hlt⟩
    rcases lt_or_ge t last.2 with hlast | hlast
    · exact .inl ⟨hle, hlast⟩
    · refine .inr ⟨htouch.trans hlast, ?_⟩
      exact (lt_max_iff.1 hlt).resolve_left (not_lt.2 hlast)
  · rintro (⟨hle, hlt⟩ | ⟨hle, hlt⟩)
    · exact ⟨hle, lt_max_of_lt_left hlt⟩
    · exact ⟨hstart.trans hle, lt_max_of_lt_right hlt⟩

/-! ## Joining -/

/-- **One interval joined**: no start comes after its own. -/
theorem join_spec (hapart : Apart l) (hstarts : ∀ a ∈ l, a.1 ≤ r.1) :
    Apart (join l r) ∧ (∀ t, Covered (join l r) t ↔ Covered l t ∨ Contains r t) ∧
      ∀ a ∈ join l r, a.1 ≤ r.1 := by
  induction l using List.reverseRecOn with
  | nil => simp [join_nil, Apart, Covered]
  | append_singleton init last =>
    obtain ⟨hinit, -, hlast⟩ := List.pairwise_append.1 hapart
    have hbefore : ∀ a ∈ init, a.1 ≤ last.1 ∧ a.2 < last.1 := fun a ha =>
      hlast a ha last (List.mem_singleton_self last)
    have hstart : last.1 ≤ r.1 := hstarts last (by simp)
    rw [join_concat]
    split
    · rename_i htouch
      refine ⟨List.pairwise_append.2 ⟨hinit, List.pairwise_singleton _ _, fun a ha b hb => ?_⟩,
        fun t => ?_, fun a ha => ?_⟩
      · obtain rfl := List.mem_singleton.1 hb
        exact hbefore a ha
      · rw [covered_append, covered_singleton, contains_joined hstart htouch, covered_append,
          covered_singleton, or_assoc]
      · rcases List.mem_append.1 ha with ha | ha
        · exact hstarts a (List.mem_append_left _ ha)
        · obtain rfl := List.mem_singleton.1 ha
          exact hstart
    · rename_i htouch
      have hgap : last.2 < r.1 := not_le.1 htouch
      refine ⟨List.pairwise_append.2 ⟨hapart, List.pairwise_singleton _ _, fun a ha b hb => ?_⟩,
        fun t => ?_, fun a ha => ?_⟩
      · obtain rfl := List.mem_singleton.1 hb
        rcases List.mem_append.1 ha with hin | hin
        · exact ⟨hstarts a ha, (hbefore a hin).2.trans_le hstart⟩
        · obtain rfl := List.mem_singleton.1 hin
          exact ⟨hstart, hgap⟩
      · rw [covered_append, covered_singleton]
      · rcases List.mem_append.1 ha with ha | ha
        · exact hstarts a ha
        · obtain rfl := List.mem_singleton.1 ha
          exact le_refl a.1

/-- **Intervals joined by their start** are apart and cover the points they covered. -/
theorem joins_spec {rs : List (α × α)} (hsorted : rs.Pairwise fun a b => a.1 ≤ b.1)
    (hapart : Apart l) (hstarts : ∀ a ∈ l, ∀ r ∈ rs, a.1 ≤ r.1) :
    Apart (rs.foldl join l) ∧
      ∀ t, Covered (rs.foldl join l) t ↔ Covered l t ∨ Covered rs t := by
  induction rs generalizing l with
  | nil => exact ⟨hapart, fun t => by simp [Covered]⟩
  | cons r rs ih =>
    obtain ⟨hfirst, hrest⟩ := List.pairwise_cons.1 hsorted
    obtain ⟨hjoined, hcovered, hbound⟩ := join_spec hapart fun a ha =>
      hstarts a ha r List.mem_cons_self
    obtain ⟨hapart', hcovered'⟩ := ih hrest hjoined fun a ha r' hr' =>
      (hbound a ha).trans (hfirst r' hr')
    refine ⟨hapart', fun t => ?_⟩
    rw [List.foldl_cons, hcovered', hcovered, or_assoc]
    simp [Covered]

/-! ## Searching -/

/-- **Membership by search**: the interval before the first one that starts after a point. -/
theorem covered_iff_before (hapart : Apart l) (t : α) :
    Covered l t ↔ 0 < l.findIdx (fun r => t < r.1) ∧
      ∃ r ∈ l[l.findIdx (fun r => t < r.1) - 1]?, t < r.2 := by
  induction l with
  | nil => simp [Covered]
  | cons a l ih =>
    obtain ⟨hfirst, hrest⟩ := List.pairwise_cons.1 hapart
    rw [List.findIdx_cons]
    by_cases ha : t < a.1
    · -- all intervals start after the point
      have hnone : ¬ Covered (a :: l) t := by
        rintro ⟨r, hr, hle, -⟩
        rcases List.mem_cons.1 hr with rfl | hr
        · exact absurd hle (not_le.2 ha)
        · exact absurd ((hfirst r hr).1.trans hle) (not_le.2 ha)
      simp [ha, hnone]
    · have ha : a.1 ≤ t := not_lt.1 ha
      have hcons : Covered (a :: l) t ↔ t < a.2 ∨ Covered l t := by
        simp [Covered, Contains, ha]
      rw [hcons, ih hrest]
      simp only [not_lt.2 ha, decide_false, cond_false, Nat.add_sub_cancel, Nat.succ_pos, true_and]
      cases hfind : l.findIdx (fun r => t < r.1) with
      | zero => simp
      | succ i =>
        -- a later interval starts at or before the point, so the first one has ended
        have hafter : ¬ t < a.2 := by
          intro hlt
          have hlen : 0 < l.findIdx (fun r => t < r.1) := by omega
          cases l with
          | nil => simp at hlen
          | cons b l =>
            have hb := (hfirst b List.mem_cons_self).2
            have hstarts : t < b.1 := hlt.trans hb
            simp [List.findIdx_cons, hstarts] at hlen
        simp [hafter]

end Intervals
