import UsageMonit.Scheduler.Tick

/-!
# What one tick does

A tick first reconciles the record of every host of the allowlist (`reconcileLoop_row`) and then
attempts at most one host that is due (`tick_cases`). `tick_row` reads off what this means for one
row of the allowlist, and `tick_tracks` what it means for a row that has a record already.
-/

namespace Scheduler

/-! ## Reconciliation -/

section
variable {input : TickInput} {now : Duration} {restore : Bool}
  {pauses : Option (String → Option Bool)} {hosts : String → Option HostSchedule}
  {rows : List RemoteHostConfig} {row : RemoteHostConfig} {s : RemoteSyncScheduler}

theorem automaticHosts_nodup (config : RemotesConfig) :
    (config.automaticHosts.map (·.id)).Nodup :=
  config.hosts_nodup.sublist (List.filter_sublist.map _)

theorem reconcileLoop_other {id : String} (h : ∀ row ∈ rows, row.id ≠ id) :
    (reconcileLoop input now restore pauses rows hosts).1 id = hosts id := by
  induction rows generalizing hosts with
  | nil => rfl
  | cons row rest ih =>
    simp only [reconcileLoop]
    cases reconcileHost input now restore pauses row (hosts row.id) with
    | error e => rfl
    | ok schedule =>
      rw [ih fun r hr => h r (List.mem_cons_of_mem _ hr),
        Function.update_of_ne (h row (List.mem_cons_self ..)).symm]

/-- The loop gives every row its reconciled record, unless an error stopped it before. -/
theorem reconcileLoop_row {hosts : String → Option HostSchedule}
    (hnd : (rows.map (·.id)).Nodup) (hrow : row ∈ rows) :
    (∃ schedule, reconcileHost input now restore pauses row (hosts row.id) = .ok schedule ∧
      (reconcileLoop input now restore pauses rows hosts).1 row.id = some schedule) ∨
    (∃ e, (reconcileLoop input now restore pauses rows hosts).2 = .error e) ∧
      (reconcileLoop input now restore pauses rows hosts).1 row.id = hosts row.id := by
  induction rows generalizing hosts with
  | nil => cases hrow
  | cons first rest ih =>
    obtain ⟨hfirst, hrest⟩ := List.nodup_cons.1 hnd
    simp only [reconcileLoop]
    cases hrec : reconcileHost input now restore pauses first (hosts first.id) with
    | error e => exact .inr ⟨⟨e, rfl⟩, rfl⟩
    | ok schedule =>
      rcases List.mem_cons.1 hrow with rfl | hmem
      · refine .inl ⟨schedule, hrec, ?_⟩
        rw [reconcileLoop_other, Function.update_self]
        intro r hr heq
        exact hfirst (List.mem_map.2 ⟨r, hr, heq⟩)
      · have hne : row.id ≠ first.id := fun heq => hfirst (List.mem_map.2 ⟨row, hmem, heq⟩)
        have hother : Function.update hosts first.id (some schedule) row.id = hosts row.id :=
          Function.update_of_ne hne _ _
        rw [← hother]
        exact ih hrest hmem

theorem retainEligible_row (hrow : row ∈ rows) :
    retainEligible rows hosts row.id = hosts row.id := by
  have : rows.any (fun host => host.id == row.id) = true :=
    List.any_eq_true.2 ⟨row, hrow, by simp⟩
  rw [retainEligible, if_pos this]

theorem reconcileHosts_row (hnd : (rows.map (·.id)).Nodup) (hrow : row ∈ rows) :
    (∃ schedule, reconcileHost input now s.restoreDurableState pauses row (s.hosts row.id) =
        .ok schedule ∧ (reconcileHosts s input rows now pauses).1.hosts row.id = some schedule) ∨
    (∃ e, (reconcileHosts s input rows now pauses).2 = .error e) ∧
      (reconcileHosts s input rows now pauses).1.hosts row.id = s.hosts row.id := by
  have h := @reconcileLoop_row input now s.restoreDurableState pauses rows row
    (retainEligible rows s.hosts) hnd hrow
  rw [retainEligible_row hrow] at h
  unfold reconcileHosts
  rcases hloop : reconcileLoop input now s.restoreDurableState pauses rows
    (retainEligible rows s.hosts) with ⟨hosts', result⟩
  rw [hloop] at h
  cases result with
  | error e => simpa using h
  | ok u => simpa using h

@[simp] theorem reconcileHosts_finished :
    (reconcileHosts s input rows now pauses).1.lastDispatchFinishedAt =
      s.lastDispatchFinishedAt := by
  unfold reconcileHosts
  rcases reconcileLoop input now s.restoreDurableState pauses rows
    (retainEligible rows s.hosts) with ⟨hosts', result⟩
  cases result <;> rfl

@[simp] theorem reconcileHosts_now :
    (reconcileHosts s input rows now pauses).1.lastObservedNow = s.lastObservedNow := by
  unfold reconcileHosts
  rcases reconcileLoop input now s.restoreDurableState pauses rows
    (retainEligible rows s.hosts) with ⟨hosts', result⟩
  cases result <;> rfl

end

/-! ## Selection -/

theorem nextDueHostIndex_some {s : RemoteSyncScheduler} {eligible : List RemoteHostConfig}
    {config : RemotesConfig} {now globalDue : Duration} {i : Nat} {host : RemoteHostConfig}
    (h : nextDueHostIndex s eligible config now globalDue = some i) (hi : eligible[i]? = some host) :
    globalDue ≤ now ∧ ∃ schedule due, s.hosts host.id = some schedule ∧
      schedule.dueAt config = some due ∧ due ≤ now := by
  unfold nextDueHostIndex at h
  split at h
  · cases h
  next hnow =>
    refine ⟨Nat.not_lt.1 hnow, ?_⟩
    have hp := List.find?_some h
    simp only [hi] at hp
    cases hs : s.hosts host.id with
    | none => simp [hs] at hp
    | some schedule =>
      cases hd : schedule.dueAt config with
      | none => simp [hs, hd] at hp
      | some due => exact ⟨schedule, due, rfl, hd, by simpa [hs, hd] using hp⟩

/-! ## One tick -/

section
variable {s : RemoteSyncScheduler} {input : TickInput}

/-- The reconciliation of a tick. -/
def reconciled (s : RemoteSyncScheduler) (input : TickInput)
    (pauses : Option (String → Option Bool)) : RemoteSyncScheduler × Except RemoteSyncError Unit :=
  reconcileHosts (monotonicNow s input.clock) input input.config.automaticHosts
    (monotonicNow s input.clock).lastObservedNow pauses

/-- The earliest instant of the next attempt, of whatever host. -/
def globalDue (s : RemoteSyncScheduler) : Duration :=
  match s.lastDispatchFinishedAt with
  | some finished => finished.saturatingAdd minDispatchSpacing
  | none => 0

/-- What an attempt does: the call it makes and the scheduler it leaves. -/
structure Attempted (s : RemoteSyncScheduler) (now : Duration) (host : RemoteHostConfig)
    (result : TickResult) (d : Dispatch) : Prop where
  calls : result.calls = [d]
  host_eq : d.host = host
  dispatchedAt_eq : d.dispatchedAt = now
  finishedAt_ge : s.lastObservedNow ≤ d.finishedAt
  hosts : result.scheduler.hosts = Function.update s.hosts host.id
    ((s.hosts host.id).map fun schedule => recordAttempt schedule d)
  finished : result.scheduler.lastDispatchFinishedAt = some d.finishedAt
  observed : result.scheduler.lastObservedNow = d.finishedAt

theorem dispatchHost_cases (s : RemoteSyncScheduler) (input : TickInput)
    (eligible : List RemoteHostConfig) (now : Duration) (host : RemoteHostConfig) :
    ((dispatchHost s input eligible now host).calls = [] ∧
      (dispatchHost s input eligible now host).scheduler = s) ∨
    ∃ d, Attempted s now host (dispatchHost s input eligible now host) d := by
  unfold dispatchHost
  cases captureForAutomatic input.config host with
  | error e => exact .inl ⟨rfl, rfl⟩
  | ok selected =>
    refine .inr ⟨_, rfl, rfl, rfl, ?_, rfl, rfl, rfl⟩
    exact Nat.le_max_left _ _

/-- **One tick.** It clears the scheduler, fails before or in the reconciliation, or reconciles
and then attempts nothing or one host that is due. -/
theorem tick_cases (s : RemoteSyncScheduler) (input : TickInput) :
    (input.config.automaticHosts = [] ∧ (tick s input).calls = [] ∧
      (tick s input).scheduler.hosts = fun _ => none) ∨
    input.config.automaticHosts ≠ [] ∧
      (((∃ e, (tick s input).outcome = .error e) ∧ (tick s input).calls = [] ∧
          ((tick s input).scheduler = monotonicNow s input.clock ∨
            ∃ pauses, input.processContainmentPausedHosts = .ok pauses ∧
              (tick s input).scheduler = (reconciled s input pauses).1)) ∨
        ∃ pauses, input.processContainmentPausedHosts = .ok pauses ∧
          (reconciled s input pauses).2 = .ok () ∧
          (((tick s input).calls = [] ∧ (tick s input).scheduler =
              { (reconciled s input pauses).1 with restoreDurableState := false }) ∨
            ∃ host d schedule due, host ∈ input.config.automaticHosts ∧
              (reconciled s input pauses).1.hosts host.id = some schedule ∧
              schedule.dueAt input.config = some due ∧ due ≤ d.dispatchedAt ∧
              globalDue s ≤ d.dispatchedAt ∧
              Attempted { (reconciled s input pauses).1 with restoreDurableState := false }
                (monotonicNow s input.clock).lastObservedNow host (tick s input) d)) := by
  have hcleared (h : input.config.autoSyncEnabled = false) : input.config.automaticHosts = [] := by
    simp [RemotesConfig.automaticHosts, h]
  by_cases hauto : input.config.autoSyncEnabled = false
  · exact .inl ⟨hcleared hauto, by simp [tick, hauto, clearIneligibleState]⟩
  by_cases hempty : input.config.automaticHosts = []
  · exact .inl ⟨hempty, by simp [tick, hauto, hempty, clearIneligibleState]⟩
  refine .inr ⟨hempty, ?_⟩
  unfold tick
  simp only [if_neg hauto, if_neg hempty]
  cases hp : input.processContainmentPausedHosts with
  | error e => exact .inl ⟨⟨e, rfl⟩, rfl, .inl rfl⟩
  | ok pauses =>
    simp only
    have hdef : reconcileHosts (monotonicNow s input.clock) input input.config.automaticHosts
        (monotonicNow s input.clock).lastObservedNow pauses = reconciled s input pauses := rfl
    have hfinished : (reconciled s input pauses).1.lastDispatchFinishedAt =
        s.lastDispatchFinishedAt := reconcileHosts_finished
    rw [hdef]
    rcases hrec : reconciled s input pauses with ⟨s₁, result⟩
    have hglobal : globalDue s = globalDue s₁ := by
      rw [hrec] at hfinished
      rw [globalDue, globalDue, ← hfinished]
    cases result with
    | error e => exact .inl ⟨⟨e, rfl⟩, rfl, .inr ⟨pauses, rfl, (congrArg Prod.fst hrec).symm⟩⟩
    | ok u =>
      refine .inr ⟨pauses, rfl, congrArg Prod.snd hrec, ?_⟩
      simp only [hrec]
      split
      · exact .inl ⟨rfl, rfl⟩
      next host hhost =>
        obtain ⟨i, hi, hget⟩ := Option.bind_eq_some_iff.1 hhost
        obtain ⟨hspaced, schedule, due, hs, hdue, hnow⟩ := nextDueHostIndex_some hi hget
        rcases dispatchHost_cases _ input _ _ host with h | ⟨d, hd⟩
        · exact .inl h
        · refine .inr ⟨host, d, schedule, due, List.mem_of_getElem? hget, hs, hdue, ?_, ?_, hd⟩
          · exact hd.dispatchedAt_eq ▸ hnow
          · rw [hd.dispatchedAt_eq, hglobal]
            exact hspaced

/-- The record that the reconciliation of a tick gives to a row. -/
def ReconciledRow (s : RemoteSyncScheduler) (input : TickInput) (row : RemoteHostConfig)
    (schedule : HostSchedule) : Prop :=
  ∃ pauses, input.processContainmentPausedHosts = .ok pauses ∧
    reconcileHost input (monotonicNow s input.clock).lastObservedNow s.restoreDurableState pauses
      row (s.hosts row.id) = .ok schedule

theorem reconciled_row {pauses : Option (String → Option Bool)} {row : RemoteHostConfig}
    (hp : input.processContainmentPausedHosts = .ok pauses)
    (hrow : row ∈ input.config.automaticHosts) :
    (∃ schedule, ReconciledRow s input row schedule ∧
      (reconciled s input pauses).1.hosts row.id = some schedule) ∨
    (∃ e, (reconciled s input pauses).2 = .error e) ∧
      (reconciled s input pauses).1.hosts row.id = s.hosts row.id := by
  rcases reconcileHosts_row (s := monotonicNow s input.clock)
    (automaticHosts_nodup input.config) hrow with ⟨schedule, h, hs⟩ | h
  · exact .inl ⟨schedule, ⟨pauses, hp, h⟩, hs⟩
  · exact .inr h

/-- **One row in one tick.** The tick fails and keeps the record, or the row gets its reconciled
record and, if it is attempted, the attempt is due by that record and recorded in it. -/
theorem tick_row {row : RemoteHostConfig} (hrow : row ∈ input.config.automaticHosts) :
    ((∃ e, (tick s input).outcome = .error e) ∧ (tick s input).calls = [] ∧
      (tick s input).scheduler.hosts row.id = s.hosts row.id) ∨
    ∃ schedule, ReconciledRow s input row schedule ∧
      (((∀ d ∈ (tick s input).calls, d.host.id ≠ row.id) ∧
          (tick s input).scheduler.hosts row.id = some schedule) ∨
        ∃ d due, (tick s input).calls = [d] ∧ d.host = row ∧
          schedule.dueAt input.config = some due ∧ due ≤ d.dispatchedAt ∧
          (tick s input).scheduler.hosts row.id = some (recordAttempt schedule d)) := by
  rcases tick_cases s input with ⟨hempty, -⟩ | ⟨-, ⟨he, hcalls, hs⟩ | ⟨pauses, hp, hok, h⟩⟩
  · rw [hempty] at hrow
    cases hrow
  · rcases hs with hs | ⟨pauses, hp, hs⟩
    · exact .inl ⟨he, hcalls, by rw [hs]; rfl⟩
    · rcases reconciled_row hp hrow with ⟨schedule, hrec, hrow⟩ | ⟨-, hkeep⟩
      · refine .inr ⟨schedule, hrec, .inl ⟨?_, by rw [hs, hrow]⟩⟩
        simp [hcalls]
      · exact .inl ⟨he, hcalls, by rw [hs, hkeep]⟩
  · have hrec := reconciled_row (s := s) hp hrow
    rw [hok] at hrec
    obtain ⟨schedule, hrec, hs⟩ | ⟨⟨e, he⟩, -⟩ := hrec
    · refine .inr ⟨schedule, hrec, ?_⟩
      rcases h with ⟨hcalls, hscheduler⟩ | ⟨host, d, schedule', due, hhost, hs', hdue, hnow, -, hd⟩
      · exact .inl ⟨by simp [hcalls], by rw [hscheduler]; exact hs⟩
      · by_cases hid : host.id = row.id
        · have heq : host = row :=
            List.inj_on_of_nodup_map (automaticHosts_nodup input.config) hhost hrow hid
          subst heq
          obtain rfl : schedule' = schedule := Option.some.inj (hs'.symm.trans hs)
          refine .inr ⟨d, due, hd.calls, hd.host_eq, hdue, hnow, ?_⟩
          rw [hd.hosts, Function.update_self]
          simp [hs]
        · refine .inl ⟨fun d' hd' => ?_, ?_⟩
          · rw [hd.calls, List.mem_singleton] at hd'
            rw [hd', hd.host_eq]
            exact hid
          · rw [hd.hosts, Function.update_of_ne (Ne.symm hid)]
            exact hs
    · cases he

theorem tick_calls : (tick s input).calls.length ≤ 1 ∧
    ∀ d ∈ (tick s input).calls, d.host ∈ input.config.automaticHosts := by
  have hnone (h : (tick s input).calls = []) : (tick s input).calls.length ≤ 1 ∧
      ∀ d ∈ (tick s input).calls, d.host ∈ input.config.automaticHosts := by simp [h]
  rcases tick_cases s input with ⟨-, h, -⟩ | ⟨-, ⟨-, h, -⟩ | ⟨_, -, -, ⟨h, -⟩ | h⟩⟩
  · exact hnone h
  · exact hnone h
  · exact hnone h
  · obtain ⟨host, d, _, _, hhost, -, -, -, -, hd⟩ := h
    rw [hd.calls]
    refine ⟨le_rfl, fun d' hd' => ?_⟩
    rw [List.mem_singleton.1 hd', hd.host_eq]
    exact hhost

/-- An attempt waits for the one before it and is the next one to wait for. -/
theorem tick_attempt {d : Dispatch} (h : d ∈ (tick s input).calls) :
    globalDue s ≤ d.dispatchedAt ∧ s.lastObservedNow ≤ d.dispatchedAt ∧
      d.dispatchedAt ≤ d.finishedAt ∧
      (tick s input).scheduler.lastDispatchFinishedAt = some d.finishedAt ∧
      (tick s input).scheduler.lastObservedNow = d.finishedAt := by
  rcases tick_cases s input with ⟨-, hn, -⟩ | ⟨-, ⟨-, hn, -⟩ | ⟨_, -, -, ⟨hn, -⟩ | hd⟩⟩
  · simp [hn] at h
  · simp [hn] at h
  · simp [hn] at h
  · obtain ⟨host, d', _, _, -, -, -, -, hglobal, hd⟩ := hd
    rw [hd.calls, List.mem_singleton] at h
    subst h
    rw [hd.dispatchedAt_eq] at hglobal ⊢
    refine ⟨hglobal, Nat.le_max_left _ _, ?_, hd.finished, hd.observed⟩
    refine Nat.le_trans (Nat.le_of_eq ?_) hd.finishedAt_ge
    exact reconcileHosts_now.symm

theorem tick_idle (hne : input.config.automaticHosts ≠ []) (h : (tick s input).calls = []) :
    (tick s input).scheduler.lastDispatchFinishedAt = s.lastDispatchFinishedAt ∧
      s.lastObservedNow ≤ (tick s input).scheduler.lastObservedNow := by
  have hrec (pauses : Option (String → Option Bool)) :
      (reconciled s input pauses).1.lastDispatchFinishedAt = s.lastDispatchFinishedAt ∧
        s.lastObservedNow ≤ (reconciled s input pauses).1.lastObservedNow := by
    refine ⟨reconcileHosts_finished, ?_⟩
    rw [reconciled, reconcileHosts_now]
    exact Nat.le_max_left _ _
  rcases tick_cases s input with
    ⟨he, -⟩ | ⟨-, ⟨-, -, hs | ⟨pauses, -, hs⟩⟩ | ⟨pauses, -, -, ⟨-, hs⟩ | hd⟩⟩
  · exact absurd he hne
  · rw [hs]
    exact ⟨rfl, Nat.le_max_left _ _⟩
  · rw [hs]
    exact hrec pauses
  · rw [hs]
    exact hrec pauses
  · obtain ⟨host, d, _, _, -, -, -, -, -, hd⟩ := hd
    rw [hd.calls] at h
    cases h

end

/-! ## One record -/

/-- What the durable report of a tick says of a row. -/
def reportFor (input : TickInput) (row : RemoteHostConfig) : Option Bool :=
  match input.processContainmentPausedHosts with
  | .ok pauses => durableReport pauses row
  | .error _ => none

def Tracks (s : RemoteSyncScheduler) (row : RemoteHostConfig) (schedule : HostSchedule) : Prop :=
  s.hosts row.id = some schedule ∧ schedule.configuredHost = row

section
variable {s : RemoteSyncScheduler} {input : TickInput} {row : RemoteHostConfig}
  {schedule schedule' : HostSchedule}

/-- A record of an unchanged row changes by the report only. -/
theorem ReconciledRow.of_tracks (h : ReconciledRow s input row schedule')
    (ht : Tracks s row schedule) : schedule' = { schedule with
      lastAttempt := afterReport (reportFor input row) schedule.lastAttempt } := by
  obtain ⟨pauses, hp, h⟩ := h
  rw [ht.1, reconcileHost] at h
  simp only [ht.2, if_true, Except.ok.injEq] at h
  rw [← h, reportFor, hp, ht.2]

theorem afterReport_of_active {report : Option Bool} {last : LastAttempt}
    (hr : report ≠ some true) (hl : last ≠ .processContainmentPause) :
    afterReport report last = last := by
  unfold afterReport
  split
  · exact absurd rfl hr
  · rw [if_neg hl]
  · rfl

theorem afterReport_of_paused {report : Option Bool} (hr : report ≠ some false) :
    afterReport report .processContainmentPause = .processContainmentPause := by
  unfold afterReport
  split
  · rfl
  · exact absurd rfl hr
  · rfl

@[simp] theorem recordAttempt_configuredHost {d : Dispatch} :
    (recordAttempt schedule d).configuredHost = schedule.configuredHost := by
  unfold recordAttempt
  split
  · rfl
  · split <;> rfl

/-- **A tracked row in one tick that keeps it.** -/
theorem tick_tracks (hrow : row ∈ input.config.automaticHosts) (ht : Tracks s row schedule) :
    (((tick s input).calls = [] ∨ ∀ d ∈ (tick s input).calls, d.host ≠ row) ∧
      (Tracks (tick s input).scheduler row schedule ∨
        Tracks (tick s input).scheduler row { schedule with
          lastAttempt := afterReport (reportFor input row) schedule.lastAttempt })) ∨
    ∃ d due, (tick s input).calls = [d] ∧ d.host = row ∧
      { schedule with
        lastAttempt := afterReport (reportFor input row) schedule.lastAttempt }.dueAt
          input.config = some due ∧ due ≤ d.dispatchedAt ∧
      Tracks (tick s input).scheduler row (recordAttempt { schedule with
        lastAttempt := afterReport (reportFor input row) schedule.lastAttempt } d) := by
  rcases tick_row (s := s) hrow with ⟨-, hcalls, hs⟩ | ⟨schedule', hrec, ⟨hcalls, hs⟩ | h⟩
  · exact .inl ⟨.inl hcalls, .inl ⟨hs.trans ht.1, ht.2⟩⟩
  · have heq := hrec.of_tracks ht
    subst heq
    exact .inl ⟨.inr fun d hd heq => hcalls d hd (by rw [heq]), .inr ⟨hs, ht.2⟩⟩
  · obtain ⟨d, due, hcalls, hhost, hdue, hnow, hs⟩ := h
    have heq := hrec.of_tracks ht
    subst heq
    exact .inr ⟨d, due, hcalls, hhost, hdue, hnow, hs, by simp [ht.2]⟩

/-! ## New records -/

/-- The count that a seed of a new record carries. -/
def seedFailures (input : TickInput) (restoreDurableState : Bool) (report : Option Bool)
    (row : RemoteHostConfig) : Nat :=
  if restoreDurableState = true ∧ report ≠ some true then
    match input.restoreHostSchedule row with
    | .ok (some seed) =>
      if row.expectedSource = some seed.source ∧ seed.processContainmentPaused = false
      then seed.consecutiveFailures else 0
    | _ => 0
  else 0

theorem seedFailures_lt {restore : Bool} {report : Option Bool} :
    seedFailures input restore report row < 2 ^ 32 := by
  unfold seedFailures
  split
  · split
    · split
      · exact RemoteSyncScheduleSeed.consecutiveFailures_lt _
      · omega
    · omega
  · omega

/-- A new record is of its row, paused if the report says so, and counts the seed's failures. -/
theorem freshSchedule_ok {now : Duration} {restore : Bool} {report : Option Bool}
    (h : freshSchedule input now restore report row = .ok schedule) :
    schedule.configuredHost = row ∧
      (report = some true → schedule.lastAttempt = .processContainmentPause) ∧
      schedule.lastAttempt.previousFailures = seedFailures input restore report row := by
  obtain ⟨base, hbase, h⟩ := Fallible.bind_ok h
  cases h
  have hcount : base.configuredHost = row ∧
      (report ≠ some true →
        base.lastAttempt.previousFailures = seedFailures input restore report row) := by
    unfold restoredSchedule at hbase
    unfold seedFailures
    cases restore with
    | false =>
      cases hbase
      exact ⟨rfl, fun _ => by simp [HostSchedule.new, LastAttempt.previousFailures]⟩
    | true =>
      rw [if_pos rfl] at hbase
      obtain ⟨seed, hseed, hbase⟩ := Fallible.bind_ok hbase
      cases seed with
      | none =>
        cases hbase
        exact ⟨rfl, fun _ => by simp [HostSchedule.new, LastAttempt.previousFailures, hseed]⟩
      | some seed =>
        simp only at hbase
        split at hbase
        next hsource =>
          cases hbase
          refine ⟨rfl, fun hr => ?_⟩
          cases hp : seed.processContainmentPaused <;>
            simp [LastAttempt.previousFailures, hseed, hsource, hr, hp]
        next hsource =>
          cases hbase
          exact ⟨rfl, fun _ => by
            simp [HostSchedule.new, LastAttempt.previousFailures, hseed, hsource]⟩
  by_cases hr : report = some true
  · simp [hr, hcount.1, LastAttempt.previousFailures, seedFailures]
  · simp [hr, hcount.1, hcount.2 hr]

/-- The count that a tick continues for a row: of its record, of a seed, or none. -/
def startFailures (s : RemoteSyncScheduler) (input : TickInput) (row : RemoteHostConfig) : Nat :=
  match s.hosts row.id with
  | some schedule =>
    if schedule.configuredHost = row then schedule.lastAttempt.previousFailures else 0
  | none => seedFailures input s.restoreDurableState (reportFor input row) row

theorem startFailures_of_tracks (ht : Tracks s row schedule) :
    startFailures s input row = schedule.lastAttempt.previousFailures := by
  rw [startFailures, ht.1]
  exact if_pos ht.2

theorem ReconciledRow.configuredHost (h : ReconciledRow s input row schedule) :
    schedule.configuredHost = row := by
  obtain ⟨pauses, -, h⟩ := h
  unfold reconcileHost at h
  split at h
  · split at h
    next heq =>
      cases h
      exact heq
    next => cases h; rfl
  · exact (freshSchedule_ok h).1

/-- A record of the row, or none: a report that pauses the row is not lost. -/
theorem ReconciledRow.paused (h : ReconciledRow s input row schedule)
    (hs : ∀ existing, s.hosts row.id = some existing → existing.configuredHost = row)
    (hr : reportFor input row = some true) : schedule.lastAttempt = .processContainmentPause := by
  cases hex : s.hosts row.id with
  | some existing =>
    rw [h.of_tracks ⟨hex, hs existing hex⟩, hr]
    rfl
  | none =>
    obtain ⟨pauses, hp, h⟩ := h
    rw [hex] at h
    rw [reportFor, hp] at hr
    exact (freshSchedule_ok h).2.1 hr

theorem ReconciledRow.failures (h : ReconciledRow s input row schedule)
    (hr : reportFor input row ≠ some true) :
    schedule.lastAttempt.previousFailures = startFailures s input row := by
  cases hex : s.hosts row.id with
  | some existing =>
    by_cases heq : existing.configuredHost = row
    · rw [startFailures_of_tracks ⟨hex, heq⟩, h.of_tracks ⟨hex, heq⟩]
      by_cases hl : existing.lastAttempt = .processContainmentPause
      · simp only [hl, afterReport]
        split <;> simp [LastAttempt.previousFailures]
      · simp only [afterReport_of_active hr hl]
    · obtain ⟨pauses, -, h⟩ := h
      rw [hex, reconcileHost] at h
      simp only [heq, if_false] at h
      cases h
      simp [startFailures, hex, heq, HostSchedule.new, LastAttempt.previousFailures]
  | none =>
    obtain ⟨pauses, hp, h⟩ := h
    rw [hex] at h
    rw [startFailures, hex, reportFor, hp]
    exact (freshSchedule_ok h).2.2

/-! ## Counts -/

/-- The counts of a scheduler are `u32` values. -/
def CountsBounded (hosts : String → Option HostSchedule) : Prop :=
  ∀ id schedule, hosts id = some schedule → schedule.lastAttempt.previousFailures < 2 ^ 32

theorem CountsBounded.update {hosts : String → Option HostSchedule} {id : String}
    (h : CountsBounded hosts) (hs : schedule.lastAttempt.previousFailures < 2 ^ 32) :
    CountsBounded (Function.update hosts id (some schedule)) := by
  intro id' schedule' h'
  by_cases heq : id' = id
  · rw [heq, Function.update_self] at h'
    cases h'
    exact hs
  · rw [Function.update_of_ne heq] at h'
    exact h id' schedule' h'

theorem recordAttempt_lt {d : Dispatch} (h : schedule.lastAttempt.previousFailures < 2 ^ 32) :
    (recordAttempt schedule d).lastAttempt.previousFailures < 2 ^ 32 := by
  unfold recordAttempt
  split
  · simp [LastAttempt.previousFailures]
  · split
    · dsimp only
      split <;> simp [LastAttempt.previousFailures]
    · exact h
    · simp only [LastAttempt.previousFailures, Fallible.saturatingAdd]
      omega

theorem reconcileHost_lt {now : Duration} {restore : Bool}
    {pauses : Option (String → Option Bool)} {existing : Option HostSchedule}
    (h : reconcileHost input now restore pauses row existing = .ok schedule)
    (he : ∀ old, existing = some old → old.lastAttempt.previousFailures < 2 ^ 32) :
    schedule.lastAttempt.previousFailures < 2 ^ 32 := by
  unfold reconcileHost at h
  split at h
  next old =>
    split at h
    · cases h
      have hold := he old rfl
      simp only [afterReport]
      split
      · simp [LastAttempt.previousFailures]
      · split
        · simp [LastAttempt.previousFailures]
        · exact hold
      · exact hold
    · cases h
      simp [HostSchedule.new, LastAttempt.previousFailures]
  next =>
    rw [(freshSchedule_ok h).2.2]
    exact seedFailures_lt

theorem reconcileLoop_bounded {now : Duration} {restore : Bool}
    {pauses : Option (String → Option Bool)} {rows : List RemoteHostConfig}
    {hosts : String → Option HostSchedule} (h : CountsBounded hosts) :
    CountsBounded (reconcileLoop input now restore pauses rows hosts).1 := by
  induction rows generalizing hosts with
  | nil => exact h
  | cons first rest ih =>
    simp only [reconcileLoop]
    cases hrec : reconcileHost input now restore pauses first (hosts first.id) with
    | error e => exact h
    | ok schedule => exact ih (h.update (reconcileHost_lt hrec fun old => h _ old))

theorem reconciled_bounded {pauses : Option (String → Option Bool)} (h : CountsBounded s.hosts) :
    CountsBounded (reconciled s input pauses).1.hosts := by
  have hretained : CountsBounded (retainEligible input.config.automaticHosts s.hosts) := by
    intro id schedule hs
    unfold retainEligible at hs
    split at hs
    · exact h id schedule hs
    · cases hs
  have hloop := @reconcileLoop_bounded input (monotonicNow s input.clock).lastObservedNow
    s.restoreDurableState pauses input.config.automaticHosts _ hretained
  unfold reconciled reconcileHosts
  simp only [monotonicNow] at hloop ⊢
  split <;> exact hloop

theorem tick_bounded (h : CountsBounded s.hosts) : CountsBounded (tick s input).scheduler.hosts := by
  rcases tick_cases s input with
    ⟨-, -, hs⟩ | ⟨-, ⟨-, -, hs | ⟨pauses, -, hs⟩⟩ | ⟨pauses, -, -, ⟨-, hs⟩ | hd⟩⟩
  · rw [hs]
    intro id schedule hn
    cases hn
  · rw [hs]
    exact h
  · rw [hs]
    exact reconciled_bounded h
  · rw [hs]
    exact reconciled_bounded h
  · obtain ⟨host, d, schedule, due, -, hs, -, -, -, hd⟩ := hd
    rw [hd.hosts]
    simp only [hs, Option.map_some]
    exact (reconciled_bounded h).update (recordAttempt_lt (reconciled_bounded h _ _ hs))

end

end Scheduler
