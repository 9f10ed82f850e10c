import Mathlib.Data.Set.Card

/-!
# Runs that come to rest

A sequence whose steps stay or fall in a well-founded measure changes finitely often (`settles`).
Where elements of a finite set only ever rise in a preorder, the number of elements above is such a
measure (`headroom`); so a list settles whose steps raise one element or work off a finite number
of pending additions (`lists_settle`).
-/

namespace Settling

variable {α β : Type*} [Preorder β]

/-- A sequence that stays, or falls in a well-founded measure, comes to rest. -/
theorem settles [WellFoundedLT β] {s : ℕ → α} (μ : α → β)
    (h : ∀ n, s (n + 1) = s n ∨ μ (s (n + 1)) < μ (s n)) : ∃ N, ∀ n, N ≤ n → s n = s N := by
  -- induction on the measure from some point of the run on
  suffices hrest : ∀ b k, μ (s k) = b → ∃ N, ∀ n, N ≤ n → s n = s N from hrest _ 0 rfl
  intro b
  induction b using WellFoundedLT.induction with
  | ind b ih =>
    intro k hk
    by_cases hstays : ∀ n, k ≤ n → s n = s k
    · exact ⟨k, hstays⟩
    · have hsome : ∃ i, s (k + i) ≠ s k := by
        by_contra hnone
        simp only [not_exists, not_not] at hnone
        exact hstays fun n hn => by rw [← hnone (n - k), Nat.add_sub_cancel' hn]
      classical
      have hfirst := Nat.find_spec hsome
      obtain ⟨i, hi⟩ : ∃ i, Nat.find hsome = i + 1 :=
        Nat.exists_eq_succ_of_ne_zero fun h0 => by simp [h0] at hfirst
      have hbefore : s (k + i) = s k := not_not.1 (Nat.find_min hsome (by omega))
      rw [hi, ← Nat.add_assoc, ← hbefore] at hfirst
      have hlt : μ (s (k + i + 1)) < μ (s k) := hbefore ▸ (h (k + i)).resolve_left hfirst
      exact ih _ (hk ▸ hlt) (k + i + 1) rfl

/-- How many elements of a set are above an element. -/
noncomputable def headroom (T : Set β) (b : β) : ℕ := {x | x ∈ T ∧ b < x}.ncard

theorem headroom_lt {T : Set β} (hT : T.Finite) {a b : β} (hb : b ∈ T) (h : a < b) :
    headroom T b < headroom T a := by
  apply Set.ncard_lt_ncard
  · refine ⟨fun x hx => ⟨hx.1, h.trans hx.2⟩, fun hsub => ?_⟩
    exact lt_irrefl b (hsub ⟨hb, h⟩).2
  · exact hT.subset fun x hx => hx.1

/-- One element is replaced by one of greater rank in the set. -/
def Raised (rank : α → β) (T : Set β) (l l' : List α) : Prop :=
  ∃ pre a b post, l = pre ++ a :: post ∧ l' = pre ++ b :: post ∧ rank a < rank b ∧ rank b ∈ T

/-- What all elements of a list have left to climb. -/
noncomputable def totalHeadroom (rank : α → β) (T : Set β) (l : List α) : ℕ :=
  (l.map fun a => headroom T (rank a)).sum

theorem Raised.totalHeadroom_lt {rank : α → β} {T : Set β} (hT : T.Finite) {l l' : List α}
    (h : Raised rank T l l') : totalHeadroom rank T l' < totalHeadroom rank T l := by
  obtain ⟨pre, a, b, post, rfl, rfl, hlt, hb⟩ := h
  have := headroom_lt hT hb hlt
  simp only [totalHeadroom, List.map_append, List.map_cons, List.sum_append, List.sum_cons]
  omega

/-- **Lists settle** whose steps raise an element within a finite set of ranks, or work off one of
finitely many pending additions. -/
theorem lists_settle (rank : α → β) {T : Set β} (hT : T.Finite) {s : ℕ → List α}
    (pending : List α → ℕ)
    (h : ∀ n, s (n + 1) = s n ∨ pending (s (n + 1)) < pending (s n) ∨
      (pending (s (n + 1)) ≤ pending (s n) ∧ Raised rank T (s n) (s (n + 1)))) :
    ∃ N, ∀ n, N ≤ n → s n = s N := by
  refine settles (fun l => toLex (pending l, totalHeadroom rank T l)) fun n => ?_
  rcases h n with hstay | hpush | ⟨hle, hraise⟩
  · exact .inl hstay
  · exact .inr (Prod.Lex.toLex_lt_toLex.2 (.inl hpush))
  · have hlt := hraise.totalHeadroom_lt hT
    rw [Prod.Lex.toLex_lt_toLex]
    omega

end Settling
