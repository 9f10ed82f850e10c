import Mathlib.Data.List.Chain
import UsageMonit.Domain.Usage

/-!
# Deltas of cumulative readings (`domain.rs`)

A reading has six counters that it reports and a remainder without detail, which is derived from
them. `deltaFrom` rejects a reading where one of the seven decreased. A delta restores the reported
counters, and the remainder where both readings have a valid breakdown; so along a chain of readings
the deltas add up to the difference of its ends (`sum_deltas`).
-/

namespace Usage

open Fallible

/-- The counters that a reading reports, and the remainder. -/
inductive TokenCounter
  | input
  | cachedInput
  | cacheWriteInput
  | output
  | reasoningOutput
  | total
  | unclassified
deriving DecidableEq

namespace TokenUsage

def counter (u : TokenUsage) : TokenCounter → Nat
  | .input => u.inputTokens
  | .cachedInput => u.cachedInputTokens
  | .cacheWriteInput => u.cacheWriteInputTokens
  | .output => u.outputTokens
  | .reasoningOutput => u.reasoningOutputTokens
  | .total => u.totalTokens
  | .unclassified => u.unclassified

def Fits (u : TokenUsage) : Prop := ∀ k, u.counter k < 2 ^ 64

def NonDecreasing (previous current : TokenUsage) : Prop :=
  ∀ k, previous.counter k ≤ current.counter k

/-- The deltas along the readings after a first one. -/
def deltas : TokenUsage → List TokenUsage → Option (List TokenUsage)
  | _, [] => some []
  | previous, current :: rest =>
    (current.deltaFrom previous).bind fun delta => (deltas current rest).map (delta :: ·)

section
variable {u v previous current delta : TokenUsage} {k : TokenCounter}

theorem counter_addAssign :
    (u.addAssign v).counter k = saturatingAdd 64 (u.counter k) (v.counter k) := by
  cases k with
  | unclassified => exact addAssign_unclassified u v
  | _ => rfl

/-- **There is no delta** exactly when a counter decreased. -/
theorem deltaFrom_eq_none :
    current.deltaFrom previous = none ↔ ∃ k, current.counter k < previous.counter k := by
  unfold deltaFrom
  rw [ite_eq_left_iff]
  constructor
  · intro h
    by_contra hnone
    have hle : ∀ k, previous.counter k ≤ current.counter k := fun k =>
      not_lt.1 fun hlt => hnone ⟨k, hlt⟩
    refine Option.some_ne_none _ (h ?_)
    simp only [not_or, not_lt]
    exact ⟨hle .input, hle .cachedInput, hle .cacheWriteInput, hle .output, hle .reasoningOutput,
      hle .total, hle .unclassified⟩
  · rintro ⟨k, hk⟩ hle
    cases k <;> simp only [counter] at hk <;> omega

theorem counter_deltaFrom (h : current.deltaFrom previous = some delta)
    (hk : k ≠ .unclassified ∨ previous.hasValidBreakdown ∧ current.hasValidBreakdown) :
    previous.counter k + delta.counter k = current.counter k := by
  have hle : ∀ k, previous.counter k ≤ current.counter k := by
    intro k
    by_contra hlt
    have hnone := deltaFrom_eq_none.2 ⟨k, not_le.1 hlt⟩
    cases h.symm.trans hnone
  have hlek := hle k
  unfold deltaFrom at h
  split_ifs at h
  obtain rfl := Option.some.inj h
  cases k with
  | unclassified =>
    obtain ⟨hprevious, hcurrent⟩ := hk.resolve_left fun hne => hne rfl
    rw [hasValidBreakdown_iff] at hprevious hcurrent
    have hinput := hle .input
    have houtput := hle .output
    -- a delta without detail has no tokens either
    show previous.unclassified + (if current.inputTokens - previous.inputTokens = 0 ∧
        current.outputTokens - previous.outputTokens = 0 ∧
        current.unclassified - previous.unclassified = 0
      then current.totalTokens - previous.totalTokens
      else current.unclassified - previous.unclassified) = current.unclassified
    split <;> omega
  | _ =>
    simp only [counter] at hlek ⊢
    omega

/-- **A delta restores** the counters of the reading. -/
theorem addAssign_deltaFrom (hfits : current.Fits) (h : current.deltaFrom previous = some delta)
    (hk : k ≠ .unclassified ∨ previous.hasValidBreakdown ∧ current.hasValidBreakdown) :
    (previous.addAssign delta).counter k = current.counter k := by
  have hsum := counter_deltaFrom h hk
  have hlt := hfits k
  rw [counter_addAssign]
  unfold saturatingAdd
  omega

end

/-! ## Chains of readings -/

theorem deltas_isSome {first : TokenUsage} {rest : List TokenUsage}
    (h : (first :: rest).IsChain NonDecreasing) : ∃ ds, deltas first rest = some ds := by
  induction rest generalizing first with
  | nil => exact ⟨[], rfl⟩
  | cons current rest ih =>
    obtain ⟨hle, hrest⟩ := List.isChain_cons_cons.1 h
    obtain ⟨ds, hds⟩ := ih hrest
    cases hdelta : current.deltaFrom first with
    | none =>
      obtain ⟨k, hk⟩ := deltaFrom_eq_none.1 hdelta
      exact absurd (hle k) (not_le.2 hk)
    | some delta => exact ⟨delta :: ds, by simp [deltas, hdelta, hds]⟩

theorem foldl_deltas {first : TokenUsage} {rest ds : List TokenUsage} {k : TokenCounter}
    (hds : deltas first rest = some ds)
    (hk : k ≠ .unclassified ∨ ∀ r ∈ first :: rest, r.hasValidBreakdown) {start : TokenUsage} {base : Nat}
    (hstart : start.counter k + base = first.counter k)
    (hfits : ∀ r ∈ rest, r.Fits) :
    (ds.foldl addAssign start).counter k + base =
      ((first :: rest).getLast (List.cons_ne_nil _ _)).counter k := by
  induction rest generalizing first ds start with
  | nil =>
    obtain rfl := Option.some.inj hds
    exact hstart
  | cons current rest ih =>
    obtain ⟨delta, hdelta, hmap⟩ := Option.bind_eq_some_iff.1 hds
    obtain ⟨tail, htail, rfl⟩ := Option.map_eq_some_iff.1 hmap
    obtain ⟨hcurrent, hfits⟩ := List.forall_mem_cons.1 hfits
    have hstep : first.counter k + delta.counter k = current.counter k :=
      counter_deltaFrom hdelta (hk.imp_right fun hvalid => ⟨hvalid _ (by simp), hvalid _ (by simp)⟩)
    have hlt := hcurrent k
    rw [List.foldl_cons, List.getLast_cons (List.cons_ne_nil _ _)]
    refine ih htail (hk.imp_right fun hvalid r hr => hvalid r (List.mem_cons_of_mem _ hr)) ?_ hfits
    rw [counter_addAssign]
    unfold saturatingAdd
    omega

/-- **The deltas of a chain** add up to the difference of its ends. -/
theorem sum_deltas {first : TokenUsage} {rest ds : List TokenUsage} {k : TokenCounter}
    (hds : deltas first rest = some ds) (hfits : ∀ r ∈ rest, r.Fits)
    (hk : k ≠ .unclassified ∨ ∀ r ∈ first :: rest, r.hasValidBreakdown) :
    first.counter k + (sum ds).counter k =
      ((first :: rest).getLast (List.cons_ne_nil _ _)).counter k := by
  have hzero : (default : TokenUsage).counter k + first.counter k = first.counter k := by
    cases k <;> exact Nat.zero_add _
  exact (Nat.add_comm _ _).trans (foldl_deltas hds hk hzero hfits)

/-- **Token counter deltas are exact** in the reported counters, and in the remainders of valid
breakdowns. -/
theorem token_deltas_exact (previous current first : TokenUsage) (rest : List TokenUsage)
    (hcurrent : current.Fits) (hrest : ∀ r ∈ rest, r.Fits) :
    (current.deltaFrom previous = none ↔ ∃ k, current.counter k < previous.counter k) ∧
      (∀ delta, current.deltaFrom previous = some delta → ∀ k,
        (k ≠ .unclassified ∨ previous.hasValidBreakdown ∧ current.hasValidBreakdown) →
        (previous.addAssign delta).counter k = current.counter k) ∧
      ((first :: rest).IsChain NonDecreasing → ∃ ds, deltas first rest = some ds ∧ ∀ k,
        (k ≠ .unclassified ∨ ∀ r ∈ first :: rest, r.hasValidBreakdown) →
        first.counter k + (sum ds).counter k =
          ((first :: rest).getLast (List.cons_ne_nil _ _)).counter k) := by
  refine ⟨deltaFrom_eq_none, fun delta hdelta k hk => addAssign_deltaFrom hcurrent hdelta hk,
    fun hchain => ?_⟩
  obtain ⟨ds, hds⟩ := deltas_isSome hchain
  exact ⟨ds, hds, fun k hk => sum_deltas hds hrest hk⟩

theorem token_deltas_exact_sample :
    ∃ ds, deltas { zero with inputTokens := 1, totalTokens := 1 }
        [{ zero with inputTokens := 3, outputTokens := 2, totalTokens := 5 }] = some ds ∧
      (sum ds).counter .total = 4 := by
  obtain ⟨-, -, hchain⟩ := token_deltas_exact { zero with inputTokens := 1, totalTokens := 1 }
    { zero with inputTokens := 3, outputTokens := 2, totalTokens := 5 }
    { zero with inputTokens := 1, totalTokens := 1 }
    [{ zero with inputTokens := 3, outputTokens := 2, totalTokens := 5 }]
    (by intro k; cases k <;> decide)
    (List.forall_mem_singleton.2 (by intro k; cases k <;> decide))
  obtain ⟨ds, hds, hsum⟩ := hchain (List.isChain_pair.2 (by intro k; cases k <;> decide))
  have htotal : 1 + (sum ds).counter .total = 5 := hsum .total (.inl (by decide))
  exact ⟨ds, hds, by omega⟩

/-- Where detail appears, no reported counter decreases, but the remainder does; and where a reading
is not broken down, a delta does not restore the remainder. -/
theorem remainder_is_no_counter :
    ¬ (∀ previous current : TokenUsage, current.deltaFrom previous = none →
        ∃ k, k ≠ .unclassified ∧ current.counter k < previous.counter k) ∧
      ¬ ∀ previous current delta : TokenUsage, current.Fits →
        current.deltaFrom previous = some delta →
        ∀ k, (previous.addAssign delta).counter k = current.counter k := by
  constructor
  · intro h
    obtain ⟨k, hk, hlt⟩ := h { zero with totalTokens := 10 }
      { zero with inputTokens := 10, totalTokens := 10 } (by decide)
    cases k <;> revert hk hlt <;> decide
  · intro h
    have hrest := h { zero with inputTokens := 5, totalTokens := 5 }
      { zero with inputTokens := 5, totalTokens := 8 } { zero with totalTokens := 3 }
      (by intro k; cases k <;> decide) (by decide) .unclassified
    revert hrest
    decide

end TokenUsage

end Usage
