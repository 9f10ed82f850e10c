import UsageMonit.Summary.Summarize

/-!
# Counters of a summary

The metrics are counters of 64 or 128 bits. Where the counters of the items do not overflow, each
counter of a total is the sum of theirs (`counter_foldl`), and so are the sums of what is listed
under the keys of a book.
-/

namespace Summary

open Fallible Time Usage Tally

inductive Counter
  | inputTokens
  | cachedInputTokens
  | cacheWriteInputTokens
  | outputTokens
  | reasoningOutputTokens
  | unclassified
  | totalTokens
  | estimatedCostUnits
  | apiLongContextExtraCostUnits
  | minimumPicoUsd
  | maximumPicoUsd
  | observedSamples
  | pricedSamples
  | observedTokens
  | pricedTokens
  | callCount
deriving DecidableEq

def Counter.bits : Counter → Nat
  | estimatedCostUnits => 128
  | apiLongContextExtraCostUnits => 128
  | minimumPicoUsd => 128
  | maximumPicoUsd => 128
  | _ => 64

/-- What a counter shows. Tokens without detail are shown as unclassified. -/
def SummaryMetrics.counter (m : SummaryMetrics) : Counter → Nat
  | .inputTokens => m.tokenUsage.inputTokens
  | .cachedInputTokens => m.tokenUsage.cachedInputTokens
  | .cacheWriteInputTokens => m.tokenUsage.cacheWriteInputTokens
  | .outputTokens => m.tokenUsage.outputTokens
  | .reasoningOutputTokens => m.tokenUsage.reasoningOutputTokens
  | .unclassified => m.tokenUsage.unclassified
  | .totalTokens => m.tokenUsage.totalTokens
  | .estimatedCostUnits => m.estimatedCostUnits
  | .apiLongContextExtraCostUnits => m.apiLongContextExtraCostUnits
  | .minimumPicoUsd => m.apiEquivalentCost.minimumPicoUsd
  | .maximumPicoUsd => m.apiEquivalentCost.maximumPicoUsd
  | .observedSamples => m.apiEquivalentCost.observedSamples
  | .pricedSamples => m.apiEquivalentCost.pricedSamples
  | .observedTokens => m.apiEquivalentCost.observedTokens
  | .pricedTokens => m.apiEquivalentCost.pricedTokens
  | .callCount => m.callCount

section
variable {Path : Type} {counter : Counter} {items : List (Contribution Path)}

theorem counter_empty : ({} : SummaryMetrics).counter counter = 0 := by
  cases counter <;> rfl

theorem counter_addAssign (m other : SummaryMetrics) : (m.addAssign other).counter counter =
    saturatingAdd counter.bits (m.counter counter) (other.counter counter) := by
  cases counter with
  | unclassified => exact TokenUsage.addAssign_unclassified _ _
  | _ => rfl

theorem counter_pos_of_hasUsage {sample : SummarySample Path} (h : sample.hasUsage = true) :
    ∃ counter, 0 < sample.metrics.counter counter := by
  unfold SummarySample.hasUsage at h
  rw [decide_eq_true_eq] at h
  rcases h with htokens | h | h | h | h | h
  · by_contra hnone
    have hzero : ∀ counter, sample.metrics.counter counter = 0 := fun counter =>
      Nat.eq_zero_of_not_pos fun hpos => hnone ⟨counter, hpos⟩
    have hinput : sample.tokenUsage.inputTokens = 0 := hzero .inputTokens
    have houtput : sample.tokenUsage.outputTokens = 0 := hzero .outputTokens
    have htotal : sample.tokenUsage.totalTokens = 0 := hzero .totalTokens
    have hunclassified : sample.tokenUsage.unclassified = 0 := hzero .unclassified
    refine htokens ⟨htotal, hinput, hzero .cachedInputTokens, hzero .cacheWriteInputTokens, houtput,
      hzero .reasoningOutputTokens, ?_⟩
    unfold TokenUsage.unclassified at hunclassified
    split at hunclassified
    · rename_i hdetail
      exact hdetail.2.2
    · exact hunclassified
  · exact ⟨.estimatedCostUnits, h⟩
  · exact ⟨.apiLongContextExtraCostUnits, h⟩
  · exact ⟨.observedSamples, h⟩
  · exact ⟨.observedTokens, h⟩
  · exact ⟨.callCount, h⟩

def sumOf (counter : Counter) (items : List (Contribution Path)) : ℕ :=
  (items.map fun c => c.sample.metrics.counter counter).sum

theorem sumOf_sublist {items' : List (Contribution Path)} (h : items.Sublist items') :
    sumOf counter items ≤ sumOf counter items' :=
  List.Sublist.sum_le_sum (h.map _) fun _ _ => Nat.zero_le _

theorem sumOf_filter_lt {c : Contribution Path} (hc : c ∈ items) {p : Contribution Path → Bool}
    (hp : p c = false) (hpos : 0 < c.sample.metrics.counter counter) :
    sumOf counter (items.filter p) < sumOf counter items := by
  have hsplit : sumOf counter (items.filter p) +
      sumOf counter (items.filter fun c => ¬ p c = true) = sumOf counter items := by
    simpa [sumOf] using List.sum_map_filter_add_sum_map_filter_not (fun c => p c = true)
      (fun c : Contribution Path => c.sample.metrics.counter counter) items
  have hmem : c ∈ items.filter fun c => ¬ p c = true := List.mem_filter.2 ⟨hc, by simp [hp]⟩
  have hle : c.sample.metrics.counter counter ≤
      sumOf counter (items.filter fun c => ¬ p c = true) :=
    List.le_sum_of_mem (List.mem_map_of_mem hmem)
  omega

theorem sumOf_itemsOf_le {κ : Type} [LinearOrder κ] (key : Contribution Path → κ) (k : κ)
    (items : List (Contribution Path)) :
    sumOf counter (itemsOf key k items) ≤ sumOf counter items :=
  sumOf_sublist List.filter_sublist

def totalOf (m : SummaryMetrics) (items : List (Contribution Path)) : SummaryMetrics :=
  items.foldl (fun m c => m.addAssign c.sample.metrics) m

theorem counter_totalOf {m : SummaryMetrics}
    (h : m.counter counter + sumOf counter items < 2 ^ counter.bits) :
    (totalOf m items).counter counter = m.counter counter + sumOf counter items := by
  induction items generalizing m with
  | nil => rfl
  | cons c items ih =>
    have hsum : sumOf counter (c :: items) =
        c.sample.metrics.counter counter + sumOf counter items := by
      unfold sumOf
      rw [List.map_cons, List.sum_cons]
    rw [hsum] at h ⊢
    have hadd : (m.addAssign c.sample.metrics).counter counter =
        m.counter counter + c.sample.metrics.counter counter := by
      rw [counter_addAssign]
      unfold saturatingAdd
      omega
    have hrest := ih (m := m.addAssign c.sample.metrics) (by omega)
    rw [hadd] at hrest
    exact hrest.trans (Nat.add_assoc _ _ _)

theorem counter_totalOf_empty (h : sumOf counter items < 2 ^ counter.bits) :
    (totalOf {} items).counter counter = sumOf counter items := by
  have hempty : ({} : SummaryMetrics).counter counter = 0 := counter_empty
  rw [counter_totalOf (by omega), hempty, Nat.zero_add]

/-! ## What the books hold -/

theorem totals_turn (turn : TurnAccumulator) (items : List (Contribution Path)) :
    (items.foldl TurnAccumulator.add turn).totals = totalOf turn.totals items :=
  (List.foldl_hom TurnAccumulator.totals fun _ _ => rfl).symm

theorem totals_session (session : SessionAccumulator) (items : List (Contribution Path)) :
    (items.foldl SessionAccumulator.add session).totals = totalOf session.totals items :=
  (List.foldl_hom SessionAccumulator.totals fun _ _ => rfl).symm

theorem turns_session (session : SessionAccumulator) (items : List (Contribution Path)) :
    (items.foldl SessionAccumulator.add session).turns =
      tally {} Contribution.turnKey TurnAccumulator.add session.turns items :=
  (List.foldl_hom SessionAccumulator.turns fun _ _ => rfl).symm

def book {κ : Type} [LinearOrder κ] (key : Contribution Path → κ) (m : List (κ × SummaryMetrics))
    (items : List (Contribution Path)) : List (κ × SummaryMetrics) :=
  tally {} key (fun m c => m.addAssign c.sample.metrics) m items

theorem foldl_addToHour {hour : Contribution Path → NaiveDateTime}
    (hhour : ∀ c ∈ items, c.hour = some (hour c)) (hours : List (NaiveDateTime × SummaryMetrics)) :
    items.foldl (fun hours c => addToHour c hours) hours = book hour hours items := by
  induction items generalizing hours with
  | nil => rfl
  | cons c items ih =>
    obtain ⟨hc, hitems⟩ := List.forall_mem_cons.1 hhour
    rw [List.foldl_cons, ih hitems]
    unfold addToHour
    rw [hc]
    rfl

/-- What the contributions of a project leave. -/
structure ProjectHolds (project : ProjectAccumulator Path) (items : List (Contribution Path)) :
    Prop where
  totals : project.totals = totalOf {} items
  days : project.days = book Contribution.date [] items
  hours : ∀ hour : Contribution Path → NaiveDateTime, (∀ c ∈ items, c.hour = some (hour c)) →
    project.hours = book hour [] items
  sessions : project.sessions =
    tally {} Contribution.sessionThreadId SessionAccumulator.add [] items

theorem projectHolds (items : List (Contribution Path)) :
    ProjectHolds (items.foldl ProjectAccumulator.add {}) items where
  totals := (List.foldl_hom ProjectAccumulator.totals fun _ _ => rfl).symm
  days := (List.foldl_hom ProjectAccumulator.days fun _ _ => rfl).symm
  hours hour hhour := by
    rw [← foldl_addToHour hhour]
    exact (List.foldl_hom ProjectAccumulator.hours fun _ _ => rfl).symm
  sessions := (List.foldl_hom ProjectAccumulator.sessions fun _ _ => rfl).symm

/-- What all contributions leave, over days that are opened before. -/
structure BooksHold (books : Books Path) (days : List (NaiveDate × SummaryMetrics))
    (items : List (Contribution Path)) : Prop where
  totals : books.totals = totalOf {} items
  days : books.days = book Contribution.date days items
  hours : ∀ hour : Contribution Path → NaiveDateTime, (∀ c ∈ items, c.hour = some (hour c)) →
    books.hours = book hour [] items
  projects : books.projects = tally {} Contribution.key ProjectAccumulator.add [] items

theorem booksHold (days : List (NaiveDate × SummaryMetrics)) (items : List (Contribution Path)) :
    BooksHold (items.foldl Books.add { days }) days items where
  totals := (List.foldl_hom Books.totals fun _ _ => rfl).symm
  days := (List.foldl_hom Books.days fun _ _ => rfl).symm
  hours hour hhour := by
    rw [← foldl_addToHour hhour]
    exact (List.foldl_hom Books.hours fun _ _ => rfl).symm
  projects := (List.foldl_hom Books.projects fun _ _ => rfl).symm

end

end Summary
