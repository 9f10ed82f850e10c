import UsageMonit.Lib.Intervals
import UsageMonit.Replica.Resolve

/-!
# Handled ranges

The ranges of a thread that are handled are merged, so that one binary search tells whether a bucket
starts in one of them. The loop that merges them in place leaves the ranges joined in order
(`normalizeInPlace_eq`); these are apart and cover the same instants (`normalized_ranges_exact`).
-/

namespace Replica

open Time Intervals

theorem joinRange_eq (ranges : List (DateTime × DateTime)) (range : DateTime × DateTime) :
    joinRange ranges range = join ranges range := by
  unfold joinRange join
  cases ranges.getLast? with
  | none => rfl
  | some last => by_cases htouch : range.1 ≤ last.2 <;> simp [htouch]

/-! ## The loop in place -/

section
variable {ranges merged : List (DateTime × DateTime)} {i outputLen : Nat}

/-- After `i` ranges: the merged ones come first, and those to come are as they were. -/
structure Merged (ranges : List (DateTime × DateTime)) (i : Nat)
    (state : List (DateTime × DateTime) × Nat) : Prop where
  length : state.1.length = ranges.length
  output : state.2 ≤ i
  merged : state.1.take state.2 = (ranges.take i).foldl joinRange []
  rest : state.1.drop i = ranges.drop i

/-- **One round** of the loop writes behind the ranges it still has to read. -/
theorem merged_step {state : List (DateTime × DateTime) × Nat} (h : Merged ranges i state)
    (hi : i < ranges.length) : Merged ranges (i + 1) (mergeInPlace state i) := by
  obtain ⟨merged, outputLen⟩ := state
  obtain ⟨hlength, houtput, hmerged, hrest⟩ := h
  dsimp only at hlength houtput hmerged hrest
  have hread : merged[i]? = ranges[i]? := by
    have := congrArg (·[0]?) hrest
    simpa using this
  have hrange : merged.getD i default = ranges[i] := by
    rw [List.getD_eq_getElem?_getD, hread, List.getElem?_eq_getElem hi]
    rfl
  have hnext : (ranges.take (i + 1)).foldl joinRange [] =
      join (merged.take outputLen) ranges[i] := by
    rw [List.take_add_one, List.getElem?_eq_getElem hi, List.foldl_append, hmerged, ← joinRange_eq]
    rfl
  have hdrop : merged.drop (i + 1) = ranges.drop (i + 1) := by
    have := congrArg (List.drop 1) hrest
    simpa [List.drop_drop, Nat.add_comm] using this
  unfold mergeInPlace
  simp only [hrange]
  split
  · rename_i htouch
    obtain ⟨hpos, htouch⟩ := htouch
    obtain ⟨n, rfl⟩ : ∃ n, outputLen = n + 1 := ⟨outputLen - 1, by omega⟩
    simp only [Nat.add_sub_cancel] at htouch ⊢
    have hn : n < merged.length := by omega
    have htake : merged.take (n + 1) = merged.take n ++ [merged[n]] := by
      rw [List.take_add_one, List.getElem?_eq_getElem hn]
      rfl
    rw [List.getD_eq_getElem?_getD, List.getElem?_eq_getElem hn, Option.getD_some] at htouch
    refine ⟨by simpa using hlength, by omega, ?_, ?_⟩
    · rw [hnext, htake]
      have hjoin := join_concat (merged.take n) merged[n] ranges[i]
      rw [if_pos htouch] at hjoin
      refine Eq.trans ?_ hjoin.symm
      rw [List.take_add_one, List.getElem?_modify_eq, List.getElem?_eq_getElem hn]
      simp [List.take_modify, List.modify_eq_self]
    · rw [List.drop_modify_of_lt _ n (i + 1) merged (by omega), hdrop]
  · rename_i htouch
    have hlt : outputLen < merged.length := by omega
    refine ⟨by simpa using hlength, by omega, ?_, ?_⟩
    · rw [hnext, List.take_add_one, List.getElem?_set_self hlt, List.take_set_of_le le_rfl]
      cases outputLen with
      | zero => rfl
      | succ n =>
        have hn : n < merged.length := by omega
        have htake : merged.take (n + 1) = merged.take n ++ [merged[n]] := by
          rw [List.take_add_one, List.getElem?_eq_getElem hn]
          rfl
        have hgap : ¬ ranges[i].1 ≤ merged[n].2 := by
          simpa [List.getD_eq_getElem?_getD, List.getElem?_eq_getElem hn] using htouch
        have hjoin := join_concat (merged.take n) merged[n] ranges[i]
        rw [if_neg hgap] at hjoin
        rw [htake]
        exact hjoin.symm
    · rw [List.drop_set_of_lt (by omega), hdrop]

/-- **The loop in place** leaves the ranges joined in order. -/
theorem normalizeInPlace_eq (ranges : List (DateTime × DateTime)) :
    normalizeInPlace ranges = normalizeTimeRanges ranges := by
  set sorted := ranges.insertionSort fun left right => toLex left ≤ toLex right
  have hloop : ∀ i ≤ sorted.length,
      Merged sorted i ((List.range i).foldl mergeInPlace (sorted, 0)) := by
    intro i hi
    induction i with
    | zero => exact ⟨rfl, le_rfl, by simp, rfl⟩
    | succ i ih =>
      rw [List.range_succ, List.foldl_append]
      exact merged_step (ih (by omega)) (by omega)
  have hend := (hloop sorted.length le_rfl).merged
  rw [List.take_length] at hend
  exact hend

end

/-! ## Membership -/

theorem sortedRanges (ranges : List (DateTime × DateTime)) :
    (ranges.insertionSort fun left right => toLex left ≤ toLex right).Pairwise
      fun a b => a.1 ≤ b.1 := by
  have hsorted := List.pairwise_insertionSort
    (fun left right : DateTime × DateTime => toLex left ≤ toLex right) ranges
  refine hsorted.imp fun {a b} hle => ?_
  rcases Prod.Lex.le_iff.1 hle with hlt | ⟨heq, -⟩
  · exact le_of_lt hlt
  · exact le_of_eq heq

/-- **Normalized ranges.** What the loop leaves is sorted by start, every range ends before the next
ones start, and a search in it finds an instant exactly when the instant is in one of the original
ranges. -/
theorem normalized_ranges_exact (ranges : List (DateTime × DateTime)) :
    (∀ timestamp, timestampInRanges timestamp (normalizeInPlace ranges) ↔
      ∃ range ∈ ranges, range.1 ≤ timestamp ∧ timestamp < range.2) ∧
    (normalizeInPlace ranges).Pairwise fun a b => a.1 ≤ b.1 ∧ a.2 < b.1 := by
  rw [normalizeInPlace_eq]
  unfold normalizeTimeRanges
  rw [show joinRange = join from funext fun l => funext fun r => joinRange_eq l r]
  obtain ⟨hapart, hcovered⟩ :=
    joins_spec (l := []) (sortedRanges ranges) List.Pairwise.nil (by simp)
  refine ⟨fun timestamp => ?_, hapart⟩
  have hsearch := covered_iff_before hapart timestamp
  unfold timestampInRanges
  rw [← hsearch, hcovered]
  simp [Covered, Contains]

/-- An empty range stays alone, and one that ends before it starts covers nothing. -/
example : normalizeInPlace [(5, 5), (7, 9), (8, 6), (3, 1), (9, 12)] =
    [(3, 1), (5, 5), (7, 12)] := by
  decide

end Replica
