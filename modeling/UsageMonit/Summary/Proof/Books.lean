import UsageMonit.Summary.Proof.Listed

/-!
# The books of a summary balance

Each counted sample is in one project, one session of it and one turn of that (`CountedOnce`), and
the totals of each level are the sums of what is listed below it (`Balanced`), except that a project
lists the dates between the two ends of the window only. Where the local time is set back over a
midnight, a sample can have a date outside of them: `books_balance_iff` says that the books balance
exactly when none has.
-/

namespace Summary

open Time Tally

/-! ## The dates between the ends of a window -/

/-- Between the local dates of the first and of the last instant of a window. There are no dates
after `naiveDateMax`. -/
def BetweenEnds (window : SummaryWindow) (localDate : DateTime → NaiveDate) (date : NaiveDate) :
    Prop :=
  localDate window.startsAt ≤ date ∧
    date ≤ max (localDate window.startsAt) (min (localDate (window.endsAt - 1)) naiveDateMax)

section
variable {last date other : NaiveDate} {steps : ℕ}

theorem succOpt_eq_some {next : NaiveDate} :
    succOpt date = some next ↔ date < naiveDateMax ∧ next = date + 1 := by
  unfold succOpt
  split_ifs with h <;> simp [h, eq_comm]

theorem mem_datesFrom (hsteps : last ≤ date + steps) : other ∈ datesFrom last steps date ↔
    date ≤ other ∧ other ≤ max date (min last naiveDateMax) := by
  induction steps generalizing date with
  | zero =>
    simp only [datesFrom, List.mem_singleton, NaiveDate] at *
    omega
  | succ steps ih =>
    unfold datesFrom
    split_ifs with hlast
    · simp only [List.mem_singleton, NaiveDate] at *
      omega
    · cases hnext : succOpt date with
      | none =>
        unfold succOpt at hnext
        split_ifs at hnext with hmax
        simp only [List.mem_singleton, NaiveDate] at *
        omega
      | some next =>
        obtain ⟨hmax, rfl⟩ := succOpt_eq_some.1 hnext
        have hrest : last ≤ date + 1 + steps := by
          simp only [NaiveDate] at *
          omega
        rw [List.mem_cons, ih hrest]
        simp only [NaiveDate] at *
        omega

theorem pairwise_datesFrom (last : NaiveDate) (steps : ℕ) (date : NaiveDate) :
    (datesFrom last steps date).Pairwise (· < ·) ∧
      ∀ other ∈ datesFrom last steps date, date ≤ other := by
  induction steps generalizing date with
  | zero => simp [datesFrom]
  | succ steps ih =>
    unfold datesFrom
    split_ifs with hlast
    · simp
    · cases hnext : succOpt date with
      | none => simp
      | some next =>
        obtain ⟨hlt, rfl⟩ := succOpt_eq_some.1 hnext
        obtain ⟨hpairwise, hle⟩ := ih (date + 1)
        have hafter : ∀ other ∈ datesFrom last steps (date + 1), date < other :=
          fun other hother => (Int.lt_succ date).trans_le (hle other hother)
        exact ⟨List.pairwise_cons.2 ⟨hafter, hpairwise⟩,
          List.forall_mem_cons.2 ⟨le_rfl, fun other hother => (hafter other hother).le⟩⟩

variable {window : SummaryWindow} {localDate : DateTime → NaiveDate}

theorem mem_datesInWindow (hwindow : window.startsAt < window.endsAt) :
    date ∈ datesInWindow window localDate ↔ BetweenEnds window localDate date := by
  unfold datesInWindow
  rw [if_neg (not_le.2 hwindow)]
  refine mem_datesFrom ?_
  simp only [NaiveDate] at *
  omega

theorem pairwise_datesInWindow (window : SummaryWindow) (localDate : DateTime → NaiveDate) :
    (datesInWindow window localDate).Pairwise (· < ·) := by
  unfold datesInWindow
  split_ifs
  · exact List.Pairwise.nil
  · exact (pairwise_datesFrom _ _ _).1

end

/-! ## Balance -/

def entryFor (date : NaiveDate) (counter : Counter) (days : List DailySummary) : ℕ :=
  ((days.filter fun day => day.date = date).map fun day => day.totals.counter counter).sum

section
variable {Path : Type} {project : ProjectSummary Path}

/-- Each of the contributions of some samples is in one project, one session of it and one turn of
that, and these hold nothing else. -/
structure CountedOnce (s : UsageSummary Path) (samples : List (SummarySample Path))
    (items : List (Contribution Path)) : Prop where
  samples : items.map Contribution.sample = samples
  projectOnce : (s.projects.map ProjectSummary.key).Nodup
  sessionOnce : ∀ project ∈ s.projects, (project.sessions.map SessionSummary.threadId).Nodup
  turnOnce : ∀ project ∈ s.projects, ∀ session ∈ project.sessions,
    (session.turns.map TurnSummary.key).Nodup
  listed : ∀ c ∈ items, ∃ project ∈ s.projects, project.key = c.key ∧
    ∃ session ∈ project.sessions, session.threadId = c.sessionThreadId ∧
      ∃ turn ∈ session.turns, turn.key = c.turnKey
  window : ∀ counter, s.totals.counter counter = sumOf counter items
  project : ∀ project ∈ s.projects, ∀ counter,
    project.totals.counter counter = sumOf counter (itemsOf Contribution.key project.key items)
  session : ∀ project ∈ s.projects, ∀ session ∈ project.sessions, ∀ counter,
    session.totals.counter counter =
      sumOf counter (itemsOf Contribution.sessionThreadId session.threadId
        (itemsOf Contribution.key project.key items))
  turn : ∀ project ∈ s.projects, ∀ session ∈ project.sessions, ∀ turn ∈ session.turns, ∀ counter,
    turn.totals.counter counter =
      sumOf counter (itemsOf Contribution.turnKey turn.key
        (itemsOf Contribution.sessionThreadId session.threadId
          (itemsOf Contribution.key project.key items)))

/-- Every total is the sum of what is listed below it. -/
structure Balanced (s : UsageSummary Path) : Prop where
  days : ∀ counter,
    s.totals.counter counter = (s.days.map fun day => day.totals.counter counter).sum
  hours : ∀ counter,
    s.totals.counter counter = (s.hours.map fun hour => hour.totals.counter counter).sum
  projects : ∀ counter,
    s.totals.counter counter = (s.projects.map fun project => project.totals.counter counter).sum
  projectDays : ∀ project ∈ s.projects, ∀ counter,
    project.totals.counter counter = (project.days.map fun day => day.totals.counter counter).sum
  projectHours : ∀ project ∈ s.projects, ∀ counter,
    project.totals.counter counter = (project.hours.map fun hour => hour.totals.counter counter).sum
  projectSessions : ∀ project ∈ s.projects, ∀ counter,
    project.totals.counter counter =
      (project.sessions.map fun session => session.totals.counter counter).sum
  sessionTurns : ∀ project ∈ s.projects, ∀ session ∈ project.sessions, ∀ counter,
    session.totals.counter counter =
      (session.turns.map fun turn => turn.totals.counter counter).sum
  dates : ∀ date counter, entryFor date counter s.days =
    (s.projects.map fun project => entryFor date counter project.days).sum

/-! ## What a summary lists -/

/-- The counters of the samples do not overflow. -/
def Unsaturated (samples : List (SummarySample Path)) : Prop :=
  ∀ counter, (samples.map fun sample => sample.metrics.counter counter).sum < 2 ^ counter.bits

section
variable [PathText Path] {samples : List (SummarySample Path)} {window : SummaryWindow}
  {localTime : DateTime → NaiveDateTime} {order : List String} {c : Contribution Path}

def localContributions (samples : List (SummarySample Path)) (window : SummaryWindow)
    (localTime : DateTime → NaiveDateTime) (order : List String) : List (Contribution Path) :=
  contributions samples window (fun timestamp => dateOf (localTime timestamp))
    (fun timestamp => some (localHourStart (localTime timestamp))) order

theorem samples_localContributions (samples : List (SummarySample Path)) (window : SummaryWindow)
    (localTime : DateTime → NaiveDateTime) (order : List String) :
    (localContributions samples window localTime order).map Contribution.sample =
      counted samples window := by
  unfold localContributions contributions
  rw [List.map_map]
  exact List.map_id _

theorem room_localContributions (h : Unsaturated (counted samples window))
    (localTime : DateTime → NaiveDateTime) (order : List String) :
    Room (localContributions samples window localTime order) := by
  intro counter
  have hsum := h counter
  rw [← samples_localContributions samples window localTime order, List.map_map] at hsum
  exact hsum

theorem of_mem_localContributions (hc : c ∈ localContributions samples window localTime order) :
    c.sample ∈ counted samples window ∧ c.date = dateOf (localTime c.sample.timestamp) ∧
      c.hour = some (localHourStart (localTime c.sample.timestamp)) := by
  obtain ⟨sample, hsample, rfl⟩ := List.mem_map.1 hc
  exact ⟨hsample, rfl, rfl⟩

theorem local_projects_perm :
    (summarizeSamplesWithLocalTime samples window localTime order).projects.Perm
      ((tally {} Contribution.key ProjectAccumulator.add []
        (localContributions samples window localTime order)).map
        (listProject (datesInWindow window fun timestamp => dateOf (localTime timestamp))
          (threadMetadata samples) (resolveThreads (threadMetadata samples) order).cwds)) :=
  projects_perm _ _ _ _ _

theorem project_of_mem
    (h : project ∈ (summarizeSamplesWithLocalTime samples window localTime order).projects) :
    project = listProject (datesInWindow window fun timestamp => dateOf (localTime timestamp))
      (threadMetadata samples) (resolveThreads (threadMetadata samples) order).cwds
      (project.key, (itemsOf Contribution.key project.key
        (localContributions samples window localTime order)).foldl ProjectAccumulator.add {}) := by
  obtain ⟨entry, hentry, rfl⟩ := List.mem_map.1 (local_projects_perm.mem_iff.1 h)
  unfold listProject
  rw [value_tally .nil (by simp) hentry]

theorem projects_all : ∀ c ∈ localContributions samples window localTime order,
    c.key ∈ (summarizeSamplesWithLocalTime samples window localTime order).projects.map
      ProjectSummary.key :=
  all_listed local_projects_perm fun _ => rfl

section
variable (hroom : Room (localContributions samples window localTime order))
include hroom

theorem projects_listed :
    Listed ProjectSummary.key ProjectSummary.totals Contribution.key
      (localContributions samples window localTime order)
      (summarizeSamplesWithLocalTime samples window localTime order).projects :=
  listed_tally hroom .nil (by simp) local_projects_perm (fun _ => rfl)
    fun _ items => (projectHolds items).totals

theorem sessions_of_project
    (h : project ∈ (summarizeSamplesWithLocalTime samples window localTime order).projects) :
    Listed SessionSummary.threadId SessionSummary.totals Contribution.sessionThreadId
        (itemsOf Contribution.key project.key (localContributions samples window localTime order))
        project.sessions ∧
      ∀ c ∈ itemsOf Contribution.key project.key
        (localContributions samples window localTime order),
        c.sessionThreadId ∈ project.sessions.map SessionSummary.threadId := by
  rw [project_of_mem h]
  exact ⟨sessions_listed (hroom.itemsOf _ _) _ _, all_listed (sessions_perm _ _ _) fun _ => rfl⟩

theorem turns_of_project
    (h : project ∈ (summarizeSamplesWithLocalTime samples window localTime order).projects)
    {session : SessionSummary Path} (hsession : session ∈ project.sessions) :
    Listed TurnSummary.key TurnSummary.totals Contribution.turnKey
        (itemsOf Contribution.sessionThreadId session.threadId
          (itemsOf Contribution.key project.key
            (localContributions samples window localTime order))) session.turns ∧
      ∀ c ∈ itemsOf Contribution.sessionThreadId session.threadId
        (itemsOf Contribution.key project.key (localContributions samples window localTime order)),
        c.turnKey ∈ session.turns.map TurnSummary.key := by
  rw [project_of_mem h] at hsession
  rw [turns_of_session hsession]
  exact ⟨turns_listed ((hroom.itemsOf _ _).itemsOf _ _), all_listed (turns_perm _) fun _ => rfl⟩

theorem counter_totals (counter : Counter) :
    (summarizeSamplesWithLocalTime samples window localTime order).totals.counter counter =
      sumOf counter (localContributions samples window localTime order) := by
  rw [← counter_totalOf_empty (hroom counter)]
  exact congrArg (·.counter counter) (booksHold _ _).totals

/-! ## Balance -/

theorem days_listed :
    Listed DailySummary.date DailySummary.totals Contribution.date
        (localContributions samples window localTime order)
        (summarizeSamplesWithLocalTime samples window localTime order).days ∧
      ∀ c ∈ localContributions samples window localTime order, c.date ∈
        (summarizeSamplesWithLocalTime samples window localTime order).days.map
          DailySummary.date := by
  unfold summarizeSamplesWithLocalTime summarizeSamplesWithLocalMapping
  dsimp only
  rw [(booksHold _ _).days]
  refine ⟨listed_book hroom ?_ (by simp) (fun _ => rfl) fun _ => rfl,
    all_listed (.refl _) fun _ => rfl⟩
  exact List.pairwise_map.2 (pairwise_datesInWindow _ _)

theorem days_of_project
    (h : project ∈ (summarizeSamplesWithLocalTime samples window localTime order).projects) :
    Listed DailySummary.date DailySummary.totals Contribution.date
        (itemsOf Contribution.key project.key (localContributions samples window localTime order))
        project.days ∧
      project.days.map DailySummary.date =
        datesInWindow window fun timestamp => dateOf (localTime timestamp) := by
  rw [project_of_mem h]
  exact ⟨projectDays_listed (hroom.itemsOf _ _) (pairwise_datesInWindow _ _) _ _ _,
    projectDays_dates _ _ _ _⟩

theorem hours_of_project
    (h : project ∈ (summarizeSamplesWithLocalTime samples window localTime order).projects)
    (counter : Counter) :
    (project.hours.map fun hour => hour.totals.counter counter).sum = sumOf counter
      (itemsOf Contribution.key project.key
        (localContributions samples window localTime order)) := by
  rw [project_of_mem h]
  unfold listProject
  rw [(projectHolds _).hours (fun c => localHourStart (localTime c.sample.timestamp))]
  · exact hours_sum _ (hroom.itemsOf _ _) counter
  · exact fun c hc => (of_mem_localContributions (mem_itemsOf.1 hc).1).2.2

theorem hours_of_window (counter : Counter) :
    ((summarizeSamplesWithLocalTime samples window localTime order).hours.map
      fun hour => hour.totals.counter counter).sum =
      sumOf counter (localContributions samples window localTime order) := by
  unfold summarizeSamplesWithLocalTime summarizeSamplesWithLocalMapping
  dsimp only
  rw [(booksHold _ _).hours (fun c => localHourStart (localTime c.sample.timestamp))]
  · exact hours_sum _ hroom counter
  · exact fun c hc => (of_mem_localContributions hc).2.2

/-- What the projects enter for a date is what the window does, if the window has the dates of all
contributions. -/
theorem entries_of_projects
    (hdates : ∀ c ∈ localContributions samples window localTime order,
      c.date ∈ datesInWindow window fun timestamp => dateOf (localTime timestamp))
    (date : NaiveDate) (counter : Counter) :
    entryFor date counter (summarizeSamplesWithLocalTime samples window localTime order).days =
      ((summarizeSamplesWithLocalTime samples window localTime order).projects.map
        fun project => entryFor date counter project.days).sum := by
  obtain ⟨hdays, hall⟩ := days_listed hroom
  have hprojects : (summarizeSamplesWithLocalTime samples window localTime order).projects.map
      (fun project => entryFor date counter project.days) =
      ((summarizeSamplesWithLocalTime samples window localTime order).projects.map
        ProjectSummary.key).map fun key =>
          sumOf counter (itemsOf Contribution.key key (itemsOf Contribution.date date
            (localContributions samples window localTime order))) := by
    rw [List.map_map]
    refine List.map_congr_left fun project hproject => ?_
    obtain ⟨hlisted, hkeys⟩ := days_of_project hroom hproject
    refine (hlisted.entry (fun c hc => ?_) date).trans ?_
    · rw [hkeys]
      exact hdates c (mem_itemsOf.1 hc).1
    · rw [itemsOf_comm]
      rfl
  rw [hprojects]
  refine (hdays.entry hall date).trans (sum_keys (projects_listed hroom).once _ _ ?_).symm
  exact fun c hc => projects_all c (mem_itemsOf.1 hc).1

end

/-- **Each counted sample** is in one project, one session of it and one turn of that. -/
theorem counted_once (h : Unsaturated (counted samples window)) :
    CountedOnce (summarizeSamplesWithLocalTime samples window localTime order)
      (counted samples window) (localContributions samples window localTime order) := by
  have hroom := room_localContributions h localTime order
  have hprojects := projects_listed hroom
  exact {
    samples := samples_localContributions _ _ _ _
    projectOnce := hprojects.once
    sessionOnce := fun project hproject => (sessions_of_project hroom hproject).1.once
    turnOnce := fun project hproject session hsession =>
      (turns_of_project hroom hproject hsession).1.once
    listed := fun c hc => by
      obtain ⟨project, hproject, hkey⟩ := List.mem_map.1 (projects_all c hc)
      have hc₁ := mem_itemsOf.2 ⟨hc, hkey.symm⟩
      obtain ⟨session, hsession, hthread⟩ :=
        List.mem_map.1 ((sessions_of_project hroom hproject).2 c hc₁)
      have hc₂ := mem_itemsOf.2 ⟨hc₁, hthread.symm⟩
      obtain ⟨turn, hturn, hturnKey⟩ :=
        List.mem_map.1 ((turns_of_project hroom hproject hsession).2 c hc₂)
      exact ⟨project, hproject, hkey, session, hsession, hthread, turn, hturn, hturnKey⟩
    window := counter_totals hroom
    project := hprojects.holds
    session := fun project hproject => (sessions_of_project hroom hproject).1.holds
    turn := fun project hproject session hsession =>
      (turns_of_project hroom hproject hsession).1.holds }

/-- **The totals are the sums of what is listed below them** exactly when the window has the dates
of all contributions. -/
theorem balanced_iff (h : Unsaturated (counted samples window)) :
    Balanced (summarizeSamplesWithLocalTime samples window localTime order) ↔
      ∀ c ∈ localContributions samples window localTime order,
        c.date ∈ datesInWindow window fun timestamp => dateOf (localTime timestamp) := by
  have hroom := room_localContributions h localTime order
  have hprojects := projects_listed hroom
  constructor
  · intro hbalanced c hc
    obtain ⟨project, hproject, hkey⟩ := List.mem_map.1 (projects_all c hc)
    obtain ⟨hlisted, hdates⟩ := days_of_project hroom hproject
    rw [← hdates]
    refine (hlisted.sum_iff fun other hother => ?_).1 (fun counter => ?_) c
      (mem_itemsOf.2 ⟨hc, hkey.symm⟩)
    · have hcounted := (of_mem_localContributions (mem_itemsOf.1 hother).1).1
      exact (Bool.and_eq_true_iff.1 (List.mem_filter.1 hcounted).2).1
    · rw [← hprojects.holds project hproject counter]
      exact (hbalanced.projectDays project hproject counter).symm
  · intro hdates
    refine ⟨fun counter => ?_, fun counter => ?_, fun counter => ?_,
      fun project hproject counter => ?_, fun project hproject counter => ?_,
      fun project hproject counter => ?_,
      fun project hproject session hsession counter => ?_, entries_of_projects hroom hdates⟩
    · exact (counter_totals hroom counter).trans
        ((days_listed hroom).1.sum (days_listed hroom).2).symm
    · exact (counter_totals hroom counter).trans (hours_of_window hroom counter).symm
    · exact (counter_totals hroom counter).trans (hprojects.sum projects_all).symm
    · obtain ⟨hlisted, hkeys⟩ := days_of_project hroom hproject
      refine (hprojects.holds project hproject counter).trans (hlisted.sum fun c hc => ?_).symm
      rw [hkeys]
      exact hdates c (mem_itemsOf.1 hc).1
    · exact (hprojects.holds project hproject counter).trans
        (hours_of_project hroom hproject counter).symm
    · obtain ⟨hlisted, hall⟩ := sessions_of_project hroom hproject
      exact (hprojects.holds project hproject counter).trans (hlisted.sum hall).symm
    · obtain ⟨hlisted, hall⟩ := turns_of_project hroom hproject hsession
      exact ((sessions_of_project hroom hproject).1.holds session hsession counter).trans
        (hlisted.sum hall).symm

/-- **The books of a summary balance** exactly when each counted sample has a date between the ends
of the window. -/
theorem books_balance_iff (samples : List (SummarySample Path)) (window : SummaryWindow)
    (localTime : DateTime → NaiveDateTime) (order : List String)
    (h : Unsaturated (counted samples window)) :
    ((∃ items, CountedOnce (summarizeSamplesWithLocalTime samples window localTime order)
        (counted samples window) items) ∧
      Balanced (summarizeSamplesWithLocalTime samples window localTime order)) ↔
    ∀ sample ∈ counted samples window, BetweenEnds window
      (fun timestamp => dateOf (localTime timestamp)) (dateOf (localTime sample.timestamp)) := by
  rw [and_iff_right ⟨_, counted_once h⟩, balanced_iff h,
    ← samples_localContributions samples window localTime order, List.forall_mem_map]
  refine forall₂_congr fun c hc => ?_
  obtain ⟨hcounted, hdate, -⟩ := of_mem_localContributions hc
  have hwindow := (Bool.and_eq_true_iff.1 (List.mem_filter.1 hcounted).2).2
  unfold SummaryWindow.contains at hwindow
  rw [decide_eq_true_eq] at hwindow
  rw [hdate, mem_datesInWindow (hwindow.1.trans_lt hwindow.2)]

end

end

/-! ## A clock that is set back over a midnight -/

/-- Usage at the moment where the local time is set back from 00:01 to 23:01. -/
def setBackSample : SummarySample String where
  timestamp := hours 23 + minutes 1
  threadId := "root"
  callCount := 1

/-- From half a minute before to three hours after. -/
def setBackWindow : SummaryWindow where
  startsAt := hours 23 + seconds 30
  endsAt := hours 26

/-- An hour ahead of UTC before, no more after. -/
def setBackOffset (timestamp : DateTime) : Duration :=
  if timestamp < hours 23 + minutes 1 then hours 1 else 0

theorem unsaturated_setBackSample : Unsaturated (counted [setBackSample] setBackWindow) := by
  intro counter
  cases counter <;> decide

/-- A moment before and a moment after the clock is set forward, over a midnight. -/
def setForwardSamples : List (SummarySample String) :=
  [{ setBackSample with timestamp := hours 22 }, { setBackSample with timestamp := hours 24 }]

def setForwardWindow : SummaryWindow := ⟨hours 21, hours 26⟩

def setForward (timestamp : DateTime) : NaiveDateTime :=
  if timestamp < hours 23 then timestamp else timestamp + hours 1

theorem books_balance_set_forward :
    (∃ items, CountedOnce (summarizeSamplesWithLocalTime setForwardSamples setForwardWindow
        setForward ["root"]) (counted setForwardSamples setForwardWindow) items) ∧
      Balanced (summarizeSamplesWithLocalTime setForwardSamples setForwardWindow setForward
        ["root"]) := by
  have hroom : Unsaturated (counted setForwardSamples setForwardWindow) := by
    intro counter
    cases counter <;> decide
  refine (books_balance_iff _ _ setForward ["root"] hroom).2 ?_
  unfold BetweenEnds
  decide +kernel

/-- The sample is on the day before the first date of the window: its project does not list it. -/
theorem set_back_unbalanced : ¬ ∀ (samples : List (SummarySample String)) (window : SummaryWindow)
    (offset : DateTime → Duration) (order : List String), Unsaturated (counted samples window) →
    (∃ items, CountedOnce (summarizeSamplesWithLocalTime samples window
        (fun timestamp => timestamp + offset timestamp) order) (counted samples window) items) ∧
      Balanced (summarizeSamplesWithLocalTime samples window
        (fun timestamp => timestamp + offset timestamp) order) := by
  intro h
  obtain ⟨-, hbalanced⟩ :=
    h [setBackSample] setBackWindow setBackOffset ["root"] unsaturated_setBackSample
  have hcounted : setBackSample ∈ counted [setBackSample] setBackWindow := by decide
  have hdate :=
    (balanced_iff unsaturated_setBackSample).1 hbalanced _ (List.mem_map_of_mem hcounted)
  revert hdate
  decide +kernel

end Summary
