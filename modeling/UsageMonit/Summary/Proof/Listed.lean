import UsageMonit.Summary.Proof.Counters

/-!
# Lists of totals

A summary lists its books by sorting them: every list has an entry for each key, which totals the
contributions under this key (`Listed`). A list that has the keys of all contributions adds up to
them, and only such a list does (`Listed.sum_iff`).
-/

namespace Summary

open Time Tally

section
variable {Path : Type}

/-- The contributions do not overflow any counter. -/
def Room (items : List (Contribution Path)) : Prop :=
  ∀ counter, sumOf counter items < 2 ^ counter.bits

/-- Each entry of a list is under a key of its own and totals the contributions of this key. -/
structure Listed {κ β : Type} [LinearOrder κ] (id : β → κ) (totals : β → SummaryMetrics)
    (key : Contribution Path → κ) (items : List (Contribution Path)) (listed : List β) : Prop where
  once : (listed.map id).Nodup
  holds : ∀ b ∈ listed, ∀ counter,
    (totals b).counter counter = sumOf counter (itemsOf key (id b) items)

section
variable {κ ν β : Type} [LinearOrder κ] {id : β → κ} {totals : β → SummaryMetrics}
  {key : Contribution Path → κ} {items : List (Contribution Path)} {listed : List β}
  {counter : Counter}

theorem Room.itemsOf (h : Room items) (key : Contribution Path → κ) (k : κ) :
    Room (itemsOf key k items) :=
  fun _ => (sumOf_itemsOf_le key k items).trans_lt (h _)

section

variable (h : Listed id totals key items listed)

include h

theorem Listed.sum_filter : (listed.map fun b => (totals b).counter counter).sum =
      sumOf counter (items.filter fun c => key c ∈ listed.map id) := by
  have hvalues : listed.map (fun b => (totals b).counter counter) = (listed.map id).map
      fun k => sumOf counter
        (Tally.itemsOf key k (items.filter fun c => key c ∈ listed.map id)) := by
    rw [List.map_map]
    refine List.map_congr_left fun b hb => ?_
    rw [h.holds b hb counter, Function.comp_apply]
    unfold Tally.itemsOf
    rw [List.filter_filter]
    congr 1
    refine List.filter_congr fun c _ => ?_
    by_cases hk : key c = id b
    · simp [hk, List.mem_map_of_mem hb]
    · simp [hk]
  rw [hvalues]
  exact sum_keys h.once key _ fun c hc => of_decide_eq_true (List.mem_filter.1 hc).2

theorem Listed.sum (hall : ∀ c ∈ items, key c ∈ listed.map id) :
    (listed.map fun b => (totals b).counter counter).sum = sumOf counter items := by
  rw [h.sum_filter, List.filter_eq_self.2 fun c hc => decide_eq_true (hall c hc)]

/-- **A list adds up** to contributions with usage only if it has all their keys. -/
theorem Listed.sum_iff (husage : ∀ c ∈ items, c.sample.hasUsage = true) :
    (∀ counter, (listed.map fun b => (totals b).counter counter).sum = sumOf counter items) ↔
      ∀ c ∈ items, key c ∈ listed.map id := by
  refine ⟨fun hsum c hc => ?_, fun hall counter => h.sum hall⟩
  by_contra hkey
  obtain ⟨counter, hpos⟩ := counter_pos_of_hasUsage (husage c hc)
  have hlisted := hsum counter
  rw [h.sum_filter] at hlisted
  exact (sumOf_filter_lt hc (decide_eq_false hkey) hpos).ne hlisted

theorem Listed.entry (hall : ∀ c ∈ items, key c ∈ listed.map id) (k : κ) :
    ((listed.filter fun b => id b = k).map fun b => (totals b).counter counter).sum =
      sumOf counter (itemsOf key k items) := by
  have hfiltered : Listed id totals key (Tally.itemsOf key k items)
      (listed.filter fun b => id b = k) := by
    refine ⟨h.once.sublist (List.filter_sublist.map _), fun b hb counter => ?_⟩
    obtain ⟨hmem, hk⟩ := List.mem_filter.1 hb
    rw [decide_eq_true_eq] at hk
    rw [h.holds b hmem counter, hk]
    unfold Tally.itemsOf
    rw [List.filter_filter]
    simp
  refine hfiltered.sum fun c hc => ?_
  obtain ⟨hmem, hk⟩ := mem_itemsOf.1 hc
  obtain ⟨b, hb, hid⟩ := List.mem_map.1 (hall c hmem)
  exact List.mem_map.2 ⟨b, List.mem_filter.2 ⟨hb, by simpa using hid.trans hk⟩, hid⟩

end

variable {empty : ν} {update : ν → Contribution Path → ν} {m : List (κ × ν)} {f : κ × ν → β}

theorem keys_listed (hperm : listed.Perm ((tally empty key update m items).map f))
    (hid : ∀ e, id (f e) = e.1) :
    (listed.map id).Perm ((tally empty key update m items).map Prod.fst) := by
  have hkeys := hperm.map id
  rw [List.map_map] at hkeys
  exact hkeys.trans (.of_eq (List.map_congr_left fun e _ => hid e))

theorem mem_listed (hm : Keyed m) (hempty : ∀ e ∈ m, e.2 = empty)
    (hperm : listed.Perm ((tally empty key update m items).map f)) (hid : ∀ e, id (f e) = e.1)
    {b : β} (hb : b ∈ listed) :
    b = f (id b, (Tally.itemsOf key (id b) items).foldl update empty) := by
  obtain ⟨e, he, rfl⟩ := List.mem_map.1 (hperm.mem_iff.1 hb)
  rw [hid e, ← value_tally hm hempty he]

theorem find_listed (hperm : listed.Perm ((tally empty key update [] items).map f))
    (hid : ∀ e, id (f e) = e.1) {k : κ} {p : β → Bool} (hp : ∀ b, p b = true ↔ id b = k) :
    listed.find? p = if Tally.itemsOf key k items = [] then none
      else some (f (k, (Tally.itemsOf key k items).foldl update empty)) := by
  have hkeyed : Keyed (tally empty key update [] items) := keyed_tally .nil empty key update items
  have hvalue : valueOf k (tally empty key update [] items) =
      if Tally.itemsOf key k items = [] then none
      else some ((Tally.itemsOf key k items).foldl update empty) := Keyed.valueOf_tally .nil
  cases hfind : listed.find? p with
  | some b =>
    obtain ⟨e, he, rfl⟩ := List.mem_map.1 (hperm.mem_iff.1 (List.mem_of_find?_eq_some hfind))
    have hk : e.1 = k := (hid e).symm.trans ((hp _).1 (List.find?_some hfind))
    subst hk
    rw [hkeyed.mem_iff.1 he] at hvalue
    split_ifs at hvalue ⊢
    rw [← Option.some.inj hvalue]
  | none =>
    split_ifs at hvalue ⊢
    · rfl
    · have hmem := hperm.mem_iff.2 (List.mem_map_of_mem (hkeyed.mem_iff.2 hvalue))
      exact absurd ((hp _).2 (hid _)) (List.find?_eq_none.1 hfind _ hmem)

theorem find_listed_bind {γ : Type} (hperm : listed.Perm ((tally empty key update [] items).map f))
    (hid : ∀ e, id (f e) = e.1) {k : κ} {p : β → Bool} (hp : ∀ b, p b = true ↔ id b = k)
    {g : β → Option γ} (hg : g (f (k, empty)) = none) :
    (listed.find? p).bind g =
      g (f (k, (Tally.itemsOf key k items).foldl update empty)) := by
  rw [find_listed hperm hid hp]
  split_ifs with hnil
  · rw [hnil, List.foldl_nil, hg]
    rfl
  · rfl

/-- **A tally lists** its items under their keys. -/
theorem listed_tally (hroom : Room items) (hm : Keyed m) (hempty : ∀ e ∈ m, e.2 = empty)
    (hperm : listed.Perm ((tally empty key update m items).map f)) (hid : ∀ e, id (f e) = e.1)
    (htotals : ∀ k items, totals (f (k, items.foldl update empty)) = totalOf {} items) :
    Listed id totals key items listed := by
  refine ⟨?_, fun b hb counter => ?_⟩
  · exact (keys_listed hperm hid).nodup_iff.2 (keyed_tally hm empty key update items).nodup
  · conv_lhs => rw [mem_listed hm hempty hperm hid hb]
    rw [htotals]
    exact counter_totalOf_empty (hroom.itemsOf key (id b) counter)

theorem all_listed (hperm : listed.Perm ((tally empty key update m items).map f))
    (hid : ∀ e, id (f e) = e.1) : ∀ c ∈ items, key c ∈ listed.map id := fun c hc =>
  (keys_listed hperm hid).mem_iff.2 (mem_keys_tally.2 (.inr ⟨c, hc, rfl⟩))

end

/-! ## What a session and a project list -/

section
variable {items : List (Contribution Path)} {counter : Counter}

theorem turns_perm (items : List (Contribution Path)) :
    (listTurns (items.foldl SessionAccumulator.add {}).turns).Perm
      ((tally {} Contribution.turnKey TurnAccumulator.add [] items).map fun entry =>
        ⟨entry.1, entry.2.messagePreview, entry.2.startedAt, entry.2.totals⟩) := by
  rw [turns_session]
  exact List.perm_insertionSort _ _

theorem turns_listed (hroom : Room items) : Listed TurnSummary.key TurnSummary.totals
    Contribution.turnKey items (listTurns (items.foldl SessionAccumulator.add {}).turns) :=
  listed_tally hroom .nil (by simp) (turns_perm items) (fun _ => rfl) fun _ _ => totals_turn _ _

theorem sessions_perm (items : List (Contribution Path)) (metadata : Metadata Path)
    (cwds : List (String × Option Path)) :
    (buildProjectSessions (items.foldl ProjectAccumulator.add {}).sessions metadata cwds).Perm
      ((tally {} Contribution.sessionThreadId SessionAccumulator.add [] items).map fun entry =>
        let thread := (valueOf entry.1 metadata).getD {}
        { threadId := entry.1, title := thread.title, source := thread.source
          cwd := cachedCwd cwds entry.1, totals := entry.2.totals
          turns := listTurns entry.2.turns }) := by
  rw [(projectHolds items).sessions]
  exact List.perm_insertionSort _ _

theorem sessions_listed (hroom : Room items) (metadata : Metadata Path)
    (cwds : List (String × Option Path)) : Listed SessionSummary.threadId SessionSummary.totals
      Contribution.sessionThreadId items
      (buildProjectSessions (items.foldl ProjectAccumulator.add {}).sessions metadata cwds) :=
  listed_tally hroom .nil (by simp) (sessions_perm items metadata cwds) (fun _ => rfl)
    fun _ _ => totals_session _ _

theorem turns_of_session {metadata : Metadata Path} {cwds : List (String × Option Path)}
    {session : SessionSummary Path} (h : session ∈
      buildProjectSessions (items.foldl ProjectAccumulator.add {}).sessions metadata cwds) :
    session.turns = listTurns ((itemsOf Contribution.sessionThreadId session.threadId items).foldl
      SessionAccumulator.add {}).turns := by
  obtain ⟨entry, hentry, rfl⟩ := List.mem_map.1 ((sessions_perm items metadata cwds).mem_iff.1 h)
  rw [value_tally .nil (by simp) hentry]

theorem valueOf_book {κ : Type} [LinearOrder κ] {key : Contribution Path → κ}
    {m : List (κ × SummaryMetrics)} (hroom : Room items) (hm : Keyed m)
    (hempty : ∀ e ∈ m, e.2 = {}) (k : κ) :
    ((valueOf k (book key m items)).getD {}).counter counter =
      sumOf counter (itemsOf key k items) := by
  unfold book
  cases hv : valueOf k (tally {} key (fun m c => m.addAssign c.sample.metrics) m items) with
  | some v =>
    have hmem := (keyed_tally hm {} key (fun m (c : Contribution Path) =>
      m.addAssign c.sample.metrics) items).mem_iff.2 hv
    rw [value_tally hm hempty hmem]
    exact counter_totalOf_empty (hroom.itemsOf key k counter)
  | none =>
    rw [hm.valueOf_tally] at hv
    split_ifs at hv with hnil
    rw [hnil]
    exact counter_empty

theorem listed_book {κ β : Type} [LinearOrder κ] {key : Contribution Path → κ}
    {m : List (κ × SummaryMetrics)} {id : β → κ} {totals : β → SummaryMetrics}
    {f : κ × SummaryMetrics → β} (hroom : Room items) (hm : Keyed m) (hempty : ∀ e ∈ m, e.2 = {})
    (hid : ∀ e, id (f e) = e.1) (htotals : ∀ e, totals (f e) = e.2) :
    Listed id totals key items ((book key m items).map f) :=
  listed_tally hroom hm hempty (.refl _) hid fun _ _ => htotals _

theorem hours_sum (hour : Contribution Path → NaiveDateTime)
    (hroom : Room items) (counter : Counter) :
    ((listHours (book hour [] items)).map fun hour => hour.totals.counter counter).sum =
      sumOf counter items := by
  have hlisted : Listed HourlySummary.startsAt HourlySummary.totals hour items
      (listHours (book hour [] items)) :=
    listed_book hroom .nil (by simp) (fun _ => rfl) fun _ => rfl
  exact hlisted.sum (all_listed (.refl _) fun _ => rfl)

variable [PathText Path] {dates : List NaiveDate}

theorem projectDays_listed (hroom : Room items) (hdates : dates.Pairwise (· < ·))
    (metadata : Metadata Path) (cwds : List (String × Option Path)) (key : String) :
    Listed DailySummary.date DailySummary.totals Contribution.date items
      (listProject dates metadata cwds (key, items.foldl ProjectAccumulator.add {})).days := by
  unfold listProject
  rw [(projectHolds items).days]
  refine ⟨?_, ?_⟩
  · simp only [List.map_map]
    exact List.Nodup.map (fun _ _ h => h) (hdates.imp ne_of_lt)
  · intro day hday counter
    obtain ⟨date, -, rfl⟩ := List.mem_map.1 hday
    exact valueOf_book hroom .nil (by simp) date

theorem projectDays_dates (items : List (Contribution Path)) (metadata : Metadata Path)
    (cwds : List (String × Option Path)) (key : String) :
    (listProject dates metadata cwds (key, items.foldl ProjectAccumulator.add {})).days.map
      DailySummary.date = dates := by
  unfold listProject
  rw [List.map_map]
  exact List.map_id _

end

/-! ## What a summary lists -/

theorem projects_perm [PathText Path] (samples : List (SummarySample Path)) (window : SummaryWindow)
    (localDate : DateTime → NaiveDate) (localHour : DateTime → Option NaiveDateTime)
    (order : List String) :
    (summarizeSamplesWithLocalMapping samples window localDate localHour order).projects.Perm
      ((tally {} Contribution.key ProjectAccumulator.add []
        (contributions samples window localDate localHour order)).map
        (listProject (datesInWindow window localDate) (threadMetadata samples)
          (resolveThreads (threadMetadata samples) order).cwds)) := by
  unfold summarizeSamplesWithLocalMapping
  dsimp only
  rw [(booksHold _ _).projects]
  exact List.perm_insertionSort _ _

end

end Summary
