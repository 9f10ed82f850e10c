import Mathlib.Algebra.Order.BigOperators.Group.List
import Mathlib.Algebra.Order.Ring.Nat
import Mathlib.Data.List.Induction
import UsageMonit.Rollout.RequestLog

/-!
# Request logs, item by item

How the state and the events of a log grow with one more item, and what a well-formed log says
about its usages.

* `logState_append_singleton`, `writtenEvents_append_singleton`: one more item
* `entry_split`: where an entry stands in its log
* `WellFormed.left`, `Aligned.left`: both properties hold of every part a log starts with
* `sum_of_valid`: without overflow a sum counts the tokens of its usages
-/

namespace Rollout

open Usage

variable {log : List LogItem} (state : LogState)

section growth

variable (log : List LogItem) (item : LogItem)

theorem logState_append_singleton : logState (log ++ [item]) = (logState log).next item := by
  unfold logState LogState.after
  rw [List.foldl_append]
  rfl

theorem writtenFrom_append (state : LogState) (front back : List LogItem) :
    writtenFrom state (front ++ back) =
      writtenFrom state front ++ writtenFrom (state.after front) back := by
  induction front generalizing state with
  | nil => rfl
  | cons first rest ih =>
    rw [List.cons_append, writtenFrom, ih (state.next first), writtenFrom, List.append_assoc]
    rfl

theorem writtenEvents_append_singleton :
    writtenEvents (log ++ [item]) = writtenEvents log ++ (logState log).write item := by
  unfold writtenEvents
  rw [writtenFrom_append, writtenFrom, writtenFrom, List.append_nil]
  rfl

theorem next_length (state : LogState) :
    (state.next item).length = state.length + (state.write item).length := by
  cases item <;> rfl

theorem writtenEvents_length : (writtenEvents log).length = (logState log).length := by
  induction log using List.reverseRecOn with
  | nil => rfl
  | append_singleton front item ih =>
    rw [writtenEvents_append_singleton, List.length_append, ih, logState_append_singleton,
      next_length]

theorem next_entries (state : LogState) : (state.next item).entries =
    state.entries ++
      match item with
      | .request request => [state.entryOf request]
      | .event _ => [] := by
  cases item with
  | request request => rfl
  | event event => exact (List.append_nil _).symm

end growth

/-! ## Entries -/

theorem write_counter {request : LoggedRequest} (h : request.record = none) :
    state.write (.request request) = [.tokenCount (counterEvent state.usages request)] := by
  simp only [LogState.write, h]

theorem write_native {request : LoggedRequest} {record : NativeRecord}
    (h : request.record = some record) : state.write (.request request) =
      [.requestUsage (requestEvent request.usage record),
        .tokenCount (counterEvent state.usages request)] := by
  simp only [LogState.write, h]

/-- The index of an entry is that of the last event it is written as. -/
theorem entryOf_index (request : LoggedRequest) :
    (state.entryOf request).index + 1 = (state.next (.request request)).length := by
  rw [next_length]
  unfold LogState.entryOf
  cases h : request.record with
  | none => rw [write_counter state h]; rfl
  | some record => rw [write_native state h]; rfl

theorem entry_index_lt {entry : Entry} (h : entry ∈ (logState log).entries) :
    entry.index < (logState log).length := by
  induction log using List.reverseRecOn with
  | nil => cases h
  | append_singleton front item ih =>
    rw [logState_append_singleton, next_entries] at h
    rw [logState_append_singleton]
    rcases List.mem_append.1 h with h | h
    · have := ih h
      rw [next_length]
      omega
    · cases item with
      | event event => cases h
      | request request =>
        obtain rfl := List.mem_singleton.1 h
        have := entryOf_index (logState front) request
        omega

theorem length_le_entryOf_index (request : LoggedRequest) :
    state.length ≤ (state.entryOf request).index := Nat.le_add_right _ _

theorem entry_unique {a b : Entry} (ha : a ∈ (logState log).entries)
    (hb : b ∈ (logState log).entries) (h : a.index = b.index) : a = b := by
  induction log using List.reverseRecOn with
  | nil => cases ha
  | append_singleton front item ih =>
    rw [logState_append_singleton, next_entries] at ha hb
    cases item with
    | event event => exact ih (by simpa using ha) (by simpa using hb)
    | request request =>
      have hnew := length_le_entryOf_index (logState front) request
      rcases List.mem_append.1 ha with ha | ha <;> rcases List.mem_append.1 hb with hb | hb
      · exact ih ha hb
      · obtain rfl := List.mem_singleton.1 hb
        have := entry_index_lt ha
        omega
      · obtain rfl := List.mem_singleton.1 ha
        have := entry_index_lt hb
        omega
      · rw [List.mem_singleton.1 ha, List.mem_singleton.1 hb]

theorem entry_split {entry : Entry} (h : entry ∈ (logState log).entries) : ∃ before request after,
      log = before ++ .request request :: after ∧ entry = (logState before).entryOf request := by
  induction log using List.reverseRecOn with
  | nil => cases h
  | append_singleton front item ih =>
    rw [logState_append_singleton, next_entries] at h
    rcases List.mem_append.1 h with h | h
    · obtain ⟨before, request, after, rfl, hentry⟩ := ih h
      exact ⟨before, request, after ++ [item], by simp, hentry⟩
    · cases item with
      | event event => cases h
      | request request => exact ⟨front, request, [], rfl, List.mem_singleton.1 h⟩

/-! ## Prefixes -/

theorem entries_extend (front back : List LogItem) :
    (logState front).entries <+: (logState (front ++ back)).entries := by
  induction back using List.reverseRecOn with
  | nil => exact (List.append_nil front).symm ▸ List.prefix_refl _
  | append_singleton back item ih =>
    rw [← List.append_assoc, logState_append_singleton, next_entries]
    exact ih.trans (List.prefix_append _ _)

theorem WellFormed.left {front back : List LogItem} (h : WellFormed (front ++ back)) :
    WellFormed front where
  others event hmem := h.others event (List.mem_append_left _ hmem)
  valid request hmem := h.valid request (List.mem_append_left _ hmem)
  fits := by
    refine Nat.lt_of_le_of_lt ?_ h.fits
    exact (((entries_extend front back).map _).map _).sublist.sum_le_sum fun _ _ => Nat.zero_le _
  totals before request record total after heq :=
    h.totals before request record total (after ++ back) (by rw [heq]; simp)

theorem Aligned.left {front back : List LogItem} (h : Aligned (front ++ back)) :
    Aligned front := by
  intro before request after heq
  have hwhole := h before request (after ++ back) (by rw [heq]; simp)
  cases hrecord : request.record with
  | some record =>
    rw [hrecord] at hwhole
    exact hwhole
  | none =>
    rw [hrecord] at hwhole
    exact hwhole.imp_right fun hlater turn hturn item hitem =>
      hlater turn hturn item (List.mem_append_left _ hitem)

/-! ## Sums -/

theorem sum_append_singleton (usages : List TokenUsage) (usage : TokenUsage) :
    TokenUsage.sum (usages ++ [usage]) = (TokenUsage.sum usages).addAssign usage := by
  unfold TokenUsage.sum
  rw [List.foldl_append]
  rfl

theorem sum_normal (usages : List TokenUsage) :
    (TokenUsage.sum usages).unclassifiedTokens = (TokenUsage.sum usages).unclassified := by
  cases usages using List.reverseRecOn with
  | nil => rfl
  | append_singleton usages usage =>
    rw [sum_append_singleton, TokenUsage.addAssign_unclassified]
    rfl

theorem sum_of_valid {usages : List TokenUsage} (hvalid : ∀ u ∈ usages, u.hasValidBreakdown)
    (hfits : (usages.map TokenUsage.totalTokens).sum < 2 ^ 64) :
    (TokenUsage.sum usages).hasValidBreakdown ∧
      (TokenUsage.sum usages).totalTokens = (usages.map TokenUsage.totalTokens).sum := by
  induction usages using List.reverseRecOn with
  | nil => exact ⟨TokenUsage.default_valid, rfl⟩
  | append_singleton usages usage ih =>
    rw [List.map_append, List.sum_append, List.map_singleton, List.sum_singleton] at hfits
    obtain ⟨ihvalid, ihtotal⟩ :=
      ih (fun u hu => hvalid u (List.mem_append_left _ hu)) (by omega)
    have husage := hvalid usage (List.mem_append_right _ (List.mem_singleton_self _))
    rw [sum_append_singleton]
    refine ⟨TokenUsage.valid_addAssign ihvalid husage (by omega), ?_⟩
    rw [TokenUsage.addAssign_of_valid ihvalid husage (by omega), List.map_append, List.sum_append,
      ihtotal]
    rfl

theorem WellFormed.entry_valid (h : WellFormed log) {entry : Entry}
    (hentry : entry ∈ (logState log).entries) : entry.request.usage.hasValidBreakdown := by
  obtain ⟨before, request, after, rfl, rfl⟩ := entry_split hentry
  exact h.valid request (List.mem_append_right _ (List.mem_cons_self ..))

theorem WellFormed.usage_valid (h : WellFormed log) :
    ∀ u ∈ (logState log).usages, u.hasValidBreakdown := by
  intro u hu
  obtain ⟨entry, hentry, rfl⟩ := List.mem_map.1 hu
  exact h.entry_valid hentry

theorem usagesOf_sublist (turn : Option String) :
    (state.usagesOf turn).Sublist state.usages := List.filter_sublist.map _

end Rollout
