import UsageMonit.Scheduler.Proof.Fair

/-!
# Wake-ups

After a tick every host of the allowlist has a record (`settled_of_ok`), and the wake time that it
announces is the first instant at which the selection finds a host (`announced_eq`). Ticks that
change no record then attempt nothing before the wake time and a host from it on (`run_early`,
`tick_woken`).
-/

namespace Scheduler

open RoundRobin

/-! ## Representable values -/

/-- The instants that are stored are `Duration` values; all others are sums that saturate. -/
structure RemoteSyncScheduler.Representable (s : RemoteSyncScheduler) : Prop where
  observed : s.lastObservedNow ≤ durationMax
  restored : ∀ id schedule due failures, s.hosts id = some schedule →
    schedule.lastAttempt = .restored due failures → due ≤ durationMax

structure TickInput.Representable (input : TickInput) : Prop where
  clock : input.clock ≤ durationMax
  finishClock : input.finishClock ≤ durationMax

theorem saturatingAdd_le_max (a b : Duration) : a.saturatingAdd b ≤ durationMax :=
  Nat.min_le_right _ _

theorem dueAt_le {schedule : HostSchedule} {config : RemotesConfig} {due : Duration}
    (h : ∀ due failures, schedule.lastAttempt = .restored due failures → due ≤ durationMax)
    (hdue : schedule.dueAt config = some due) : due ≤ durationMax := by
  unfold HostSchedule.dueAt at hdue
  split at hdue
  · cases hdue
    exact Nat.zero_le _
  · have hinterval := saturatingAdd_le_max
    split at hdue
    · split at hdue
      · cases hdue
        exact (Nat.min_le_left _ _).trans (hinterval _ _)
      · cases hdue
        exact hinterval _ _
    · cases hdue
      exact hinterval _ _
  · cases hdue
    exact saturatingAdd_le_max _ _
  · cases hdue
    exact saturatingAdd_le_max _ _
  · cases hdue
    exact saturatingAdd_le_max _ _
  · cases hdue
  · next hlast =>
    cases hdue
    exact h _ _ hlast

theorem globalDue_le (s : RemoteSyncScheduler) : globalDue s ≤ durationMax := by
  unfold globalDue
  split
  · exact saturatingAdd_le_max _ _
  · exact Nat.zero_le _

section
variable {s s' : RemoteSyncScheduler} {input : TickInput} {row : RemoteHostConfig}
  {schedule : HostSchedule} {pauses : Option (String → Option Bool)} {config : RemotesConfig}
  {rows : List RemoteHostConfig}

theorem afterReport_restored {report : Option Bool} {last : LastAttempt} {due : Duration}
    {failures : Nat} (h : afterReport report last = .restored due failures) :
    last = .restored due failures := by
  unfold afterReport at h
  split at h
  · cases h
  · split at h
    · cases h
    · exact h
  · exact h

theorem recordAttempt_restored {d : Dispatch} {due : Duration} {failures : Nat} :
    (recordAttempt schedule d).lastAttempt ≠ .restored due failures := by
  unfold recordAttempt
  split
  · simp
  · split
    · dsimp only
      split <;> simp
    · simp
    · simp

theorem ReconciledRow.restored (h : ReconciledRow s input row schedule) (hs : s.Representable)
    {due : Duration} {failures : Nat} (hlast : schedule.lastAttempt = .restored due failures) :
    due ≤ durationMax := by
  obtain ⟨pauses, -, h⟩ := h
  unfold reconcileHost at h
  split at h
  next old hold =>
    split at h
    · cases h
      exact hs.restored _ old due failures hold (afterReport_restored hlast)
    · cases h
      simp [HostSchedule.new] at hlast
  next =>
    obtain ⟨base, hbase, h⟩ := Fallible.bind_ok h
    cases h
    have hbase' : base.lastAttempt = .restored due failures := by
      split at hlast
      · simp at hlast
      · exact hlast
    unfold restoredSchedule at hbase
    split at hbase
    · obtain ⟨seed, -, hbase⟩ := Fallible.bind_ok hbase
      split at hbase
      · split at hbase
        · cases hbase
          split at hbase'
          · cases hbase'
          · cases hbase'
            exact saturatingAdd_le_max _ _
        · cases hbase
          simp [HostSchedule.new] at hbase'
      · cases hbase
        simp [HostSchedule.new] at hbase'
    · cases hbase
      simp [HostSchedule.new] at hbase'

/-! ## Settled schedulers -/

/-- Every row has a record. -/
def Settled (s : RemoteSyncScheduler) (rows : List RemoteHostConfig) : Prop :=
  ∀ row ∈ rows, ∃ schedule, Tracks s row schedule

/-- A tick that announces a wake time leaves a record for every row, and restored ones only with
representable instants. -/
theorem settled_of_ok {outcome : RemoteSyncSchedulerTick} (hs : s.Representable)
    (h : (tick s input).outcome = .ok outcome) : ∀ row ∈ input.config.automaticHosts,
      ∃ schedule, Tracks (tick s input).scheduler row schedule ∧
        ∀ due failures, schedule.lastAttempt = .restored due failures → due ≤ durationMax := by
  intro row hrow
  rcases tick_row (s := s) hrow with ⟨⟨e, he⟩, -⟩ | ⟨schedule, hrec, ⟨-, hafter⟩ | hd⟩
  · rw [h] at he
    cases he
  · exact ⟨schedule, ⟨hafter, hrec.configuredHost⟩, fun _ _ hlast => hrec.restored hs hlast⟩
  · obtain ⟨d, _, -, -, -, -, hafter⟩ := hd
    refine ⟨_, ⟨hafter, by simp [hrec.configuredHost]⟩, fun _ _ hlast => ?_⟩
    exact absurd hlast recordAttempt_restored

/-- The records of the rows and the spacing are as they were. -/
structure Rests (s s' : RemoteSyncScheduler) (rows : List RemoteHostConfig) : Prop where
  hosts : ∀ row ∈ rows, s'.hosts row.id = s.hosts row.id
  finished : s'.lastDispatchFinishedAt = s.lastDispatchFinishedAt

theorem Rests.settled (h : Rests s s' rows) (hs : Settled s rows) : Settled s' rows := by
  intro row hrow
  obtain ⟨schedule, ht⟩ := hs row hrow
  exact ⟨schedule, (h.hosts row hrow).trans ht.1, ht.2⟩

theorem Rests.wakeTime (h : Rests s s' rows) :
    wakeTime s' rows config = wakeTime s rows config := wakeTime_congr h.hosts h.finished

/-- The reports of a tick agree with the pauses that are recorded. -/
def ChangesNoPause (s : RemoteSyncScheduler) (input : TickInput) : Prop :=
  ∀ row ∈ input.config.automaticHosts, ∀ schedule, s.hosts row.id = some schedule →
    afterReport (reportFor input row) schedule.lastAttempt = schedule.lastAttempt

theorem Rests.changesNoPause (h : Rests s s' input.config.automaticHosts)
    (hs : ChangesNoPause s input) : ChangesNoPause s' input := by
  intro row hrow schedule hschedule
  rw [h.hosts row hrow] at hschedule
  exact hs row hrow schedule hschedule

theorem reconcileLoop_settled {now : Duration} {restore : Bool}
    {hosts : String → Option HostSchedule} (h : ∀ row ∈ rows, ∃ schedule, hosts row.id = some schedule) :
    (reconcileLoop input now restore pauses rows hosts).2 = .ok () := by
  induction rows generalizing hosts with
  | nil => rfl
  | cons row rest ih =>
    obtain ⟨⟨schedule, hrow⟩, hrest⟩ := List.forall_mem_cons.1 h
    have hok : ∃ schedule', reconcileHost input now restore pauses row (hosts row.id) =
        .ok schedule' := by
      rw [hrow, reconcileHost]
      split
      · exact ⟨_, rfl⟩
      · exact ⟨_, rfl⟩
    obtain ⟨schedule', hok⟩ := hok
    simp only [reconcileLoop, hok]
    refine ih fun r hr => ?_
    by_cases hid : r.id = row.id
    · exact ⟨schedule', by rw [hid, Function.update_self]⟩
    · rw [Function.update_of_ne hid]
      exact hrest r hr

theorem reconciled_settled (h : Settled s input.config.automaticHosts) :
    (reconciled s input pauses).2 = .ok () := by
  have hloop : (reconcileLoop input (monotonicNow s input.clock).lastObservedNow
      s.restoreDurableState pauses input.config.automaticHosts
      (retainEligible input.config.automaticHosts s.hosts)).2 = .ok () := by
    refine reconcileLoop_settled fun row hrow => ?_
    obtain ⟨schedule, ht⟩ := h row hrow
    exact ⟨schedule, (retainEligible_row hrow).trans ht.1⟩
  unfold reconciled reconcileHosts
  simp only [monotonicNow] at hloop ⊢
  rw [hloop]

theorem ready_rests (h : Settled s input.config.automaticHosts) (hno : ChangesNoPause s input)
    (hp : input.processContainmentPausedHosts = .ok pauses) :
    Rests s (ready s input pauses) input.config.automaticHosts := by
  refine ⟨fun row hrow => ?_, ready_finished⟩
  obtain ⟨schedule, ht⟩ := h row hrow
  obtain ⟨schedule', hrec, hs⟩ := ready_row hp (reconciled_settled h) hrow
  rw [hs, hrec.of_tracks ht, hno row hrow schedule ht.1, ht.1]

/-! ## Before and at the wake time -/

theorem selectedHost_none :
    selectedHost s input pauses = none ↔ nextDueHostIndex (ready s input pauses)
      input.config.automaticHosts input.config (max s.lastObservedNow input.clock)
      (globalDue (ready s input pauses)) = none := by
  constructor
  · intro h
    by_contra hsome
    obtain ⟨k, hk⟩ := Option.ne_none_iff_exists'.1 hsome
    unfold selectedHost at h
    rw [hk] at h
    rw [nextDueHostIndex_eq] at hk
    split at hk
    · cases hk
    · have hne : input.config.automaticHosts ≠ [] := by
        intro hnil
        rw [hnil] at hk
        cases hk
      have hlt := ((pick_eq_some (startIndex_lt hne)).1 hk).1
      simp only [Option.bind_some, List.getElem?_eq_none_iff] at h
      omega
  · intro h
    unfold selectedHost
    rw [h]
    rfl

theorem selectedHost_settled (hne : input.config.automaticHosts ≠ [])
    (h : Settled s input.config.automaticHosts) (hno : ChangesNoPause s input)
    (hp : input.processContainmentPausedHosts = .ok pauses) :
    selectedHost s input pauses = none ↔
      ∀ t, wakeTime s input.config.automaticHosts input.config = some t →
        max s.lastObservedNow input.clock < t := by
  rw [selectedHost_none, ← Option.not_isSome_iff_eq_none, nextDueHostIndex_isSome hne,
    (ready_rests h hno hp).wakeTime]
  simp only [not_exists, not_and, Nat.not_le]

/-- **Before the wake time** a tick attempts nothing and changes no record. -/
theorem tick_early (hne : input.config.automaticHosts ≠ [])
    (h : Settled s input.config.automaticHosts) (hno : ChangesNoPause s input)
    (hearly : ∀ t, wakeTime s input.config.automaticHosts input.config = some t →
      max s.lastObservedNow input.clock < t) :
    (tick s input).calls = [] ∧
      Rests s (tick s input).scheduler input.config.automaticHosts ∧
      (tick s input).scheduler.lastObservedNow = max s.lastObservedNow input.clock := by
  cases hp : input.processContainmentPausedHosts with
  | error e =>
    have hauto := enabled_of_automaticHosts hne
    unfold tick
    simp only [if_neg hauto, if_neg hne, hp]
    exact ⟨trivial, ⟨fun _ _ => rfl, rfl⟩, rfl⟩
  | ok pauses =>
    have hsel := (selectedHost_settled hne h hno hp).2 hearly
    rw [tick_ready hne hp (reconciled_settled h), hsel]
    exact ⟨rfl, ready_rests h hno hp, ready_now⟩

/-- **From the wake time on** a tick attempts a host. -/
theorem tick_woken (hne : input.config.automaticHosts ≠ [])
    (h : Settled s input.config.automaticHosts) (hno : ChangesNoPause s input)
    (hp : input.processContainmentPausedHosts = .ok pauses) {t : Duration}
    (ht : wakeTime s input.config.automaticHosts input.config = some t)
    (hwoken : t ≤ max s.lastObservedNow input.clock) : (tick s input).calls ≠ [] := by
  rw [tick_ready hne hp (reconciled_settled h)]
  cases hsel : selectedHost s input pauses with
  | none => exact absurd hwoken (Nat.not_le.2 ((selectedHost_settled hne h hno hp).1 hsel t ht))
  | some host =>
    obtain ⟨k, hk, -⟩ := selectedHost_index hsel
    obtain ⟨d, hcalls, -⟩ := dispatchHost_last
      (ready s input pauses) (max s.lastObservedNow input.clock) (List.mem_of_getElem? hk)
    simp [hcalls]

theorem run_early {mid : List TickInput} (hne : config.automaticHosts ≠ [])
    (h : Settled s config.automaticHosts)
    (hmid : ∀ input ∈ mid, input.config = config ∧ ChangesNoPause s input)
    (hearly : ∀ t, wakeTime s config.automaticHosts config = some t →
      ∀ input ∈ mid, max s.lastObservedNow input.clock < t) :
    calls s mid = [] ∧ Rests s (after s mid) config.automaticHosts ∧
      s.lastObservedNow ≤ (after s mid).lastObservedNow := by
  induction mid generalizing s with
  | nil => exact ⟨rfl, ⟨fun _ _ => rfl, rfl⟩, le_rfl⟩
  | cons input rest ih =>
    obtain ⟨⟨rfl, hno⟩, hrest⟩ := List.forall_mem_cons.1 hmid
    obtain ⟨hcalls, hrests, hnow⟩ := tick_early hne h hno
      fun t ht => hearly t ht input (List.mem_cons_self ..)
    obtain ⟨hcalls', hrests', hnow'⟩ := ih (hrests.settled h)
      (fun i hi => by
        obtain ⟨hconfig, hno⟩ := hrest i hi
        exact ⟨hconfig, Rests.changesNoPause (hconfig ▸ hrests) hno⟩)
      (fun t ht i hi => by
        rw [hrests.wakeTime] at ht
        have h1 := hearly t ht input (List.mem_cons_self ..)
        have h2 := hearly t ht i (List.mem_cons_of_mem _ hi)
        rw [hnow]
        exact max_lt h1 ((le_max_right _ _).trans_lt h2))
    refine ⟨by simp [calls, hcalls, hcalls'], ?_, ?_⟩
    · exact ⟨fun row hrow => (hrests'.hosts row hrow).trans (hrests.hosts row hrow),
        hrests'.finished.trans hrests.finished⟩
    · exact ((le_max_left _ _).trans_eq hnow.symm).trans hnow'

/-! ## The announced wake time -/

theorem minDispatchSpacing_pos : 0 < minDispatchSpacing := by
  simp [minDispatchSpacing, fromSecs]

theorem strictlyPositive_pos (delay : Duration) : 0 < strictlyPositive delay := by
  unfold strictlyPositive
  split
  · exact minDispatchSpacing_pos
  · exact Nat.pos_of_ne_zero (by assumption)

@[simp] theorem nextWakeIn_disabled (delay : Duration) :
    (RemoteSyncSchedulerTick.disabled delay).nextWakeIn = delay := rfl

@[simp] theorem nextWakeIn_noEligibleHosts (delay : Duration) :
    (RemoteSyncSchedulerTick.noEligibleHosts delay).nextWakeIn = delay := rfl

@[simp] theorem nextWakeIn_waiting (delay : Duration) :
    (RemoteSyncSchedulerTick.waiting delay).nextWakeIn = delay := rfl

theorem configuredIdleDelay_pos : 0 < configuredIdleDelay config := strictlyPositive_pos _

theorem dispatchHost_outcome {now : Duration} {host : RemoteHostConfig}
    {r : TickResult} (hr : dispatchHost s input input.config.automaticHosts now host = r)
    (h : host ∈ input.config.automaticHosts) :
    (∃ outcome, r.outcome = .ok outcome ∧ outcome.nextWakeIn =
      nextWakeDelay r.scheduler input.config.automaticHosts input.config
        r.scheduler.lastObservedNow (globalDue r.scheduler)) ∧
      globalDue r.scheduler = r.scheduler.lastObservedNow.saturatingAdd minDispatchSpacing ∧
      r.scheduler.lastObservedNow = max s.lastObservedNow input.finishClock := by
  subst hr
  unfold dispatchHost
  rw [captureForAutomatic_ok h]
  exact ⟨⟨_, rfl, rfl⟩, rfl, rfl⟩

/-- **Every announced delay is positive.** -/
theorem nextWakeIn_pos {outcome : RemoteSyncSchedulerTick}
    (h : (tick s input).outcome = .ok outcome) : 0 < outcome.nextWakeIn := by
  by_cases hauto : input.config.autoSyncEnabled = false
  · unfold tick at h
    simp only [if_pos hauto] at h
    rw [← Except.ok.inj h, nextWakeIn_disabled]
    exact configuredIdleDelay_pos
  by_cases hne : input.config.automaticHosts = []
  · unfold tick at h
    simp only [if_neg hauto, if_pos hne] at h
    rw [← Except.ok.inj h, nextWakeIn_noEligibleHosts]
    exact configuredIdleDelay_pos
  rcases tick_failed_or_ready s input hne with ⟨⟨e, he⟩, -⟩ | ⟨pauses, hp, hok⟩
  · rw [h] at he
    cases he
  rw [tick_ready hne hp hok] at h
  cases hsel : selectedHost s input pauses with
  | none =>
    rw [hsel] at h
    rw [← Except.ok.inj h, nextWakeIn_waiting, nextWakeDelay_eq]
    exact strictlyPositive_pos _
  | some host =>
    rw [hsel] at h
    obtain ⟨k, hk, -⟩ := selectedHost_index hsel
    obtain ⟨⟨outcome', hout, hwake⟩, -⟩ := dispatchHost_outcome rfl (List.mem_of_getElem? hk)
    obtain rfl := Except.ok.inj (h.symm.trans hout)
    rw [hwake, nextWakeDelay_eq]
    exact strictlyPositive_pos _

theorem wakeTime_mem {t : Duration} (h : wakeTime s rows config = some t) :
    globalDue s ≤ t ∧ ∃ row ∈ rows, ∃ schedule due, s.hosts row.id = some schedule ∧
      schedule.dueAt config = some due ∧ t = max (globalDue s) due := by
  obtain ⟨row, hrow, ht⟩ := List.mem_filterMap.1 (List.min?_mem h)
  obtain ⟨due, hdue, rfl⟩ := Option.map_eq_some_iff.1 ht
  obtain ⟨schedule, hs, hdue⟩ := Option.bind_eq_some_iff.1 hdue
  exact ⟨le_max_left _ _, row, hrow, schedule, due, hs, hdue, rfl⟩

theorem add_delay {now t : Duration} (ht : t ≤ durationMax)
    (h : now < t ∨ now = t ∧ t = durationMax) :
    now.saturatingAdd (strictlyPositive (t - now)) = t := by
  unfold Duration.saturatingAdd strictlyPositive
  rcases h with h | ⟨rfl, rfl⟩
  · rw [if_neg (Nat.sub_ne_zero_of_lt h), Nat.add_sub_of_le (Nat.le_of_lt h)]
    exact Nat.min_eq_left ht
  · rw [if_pos (Nat.sub_self _)]
    exact Nat.min_eq_right (Nat.le_add_right _ _)

/-- **The announced wake time** is the first instant at which the selection finds a host. -/
theorem announced_eq {outcome : RemoteSyncSchedulerTick} (hs : s.Representable)
    (hi : input.Representable) (h : (tick s input).outcome = .ok outcome) {t : Duration}
    (ht : wakeTime (tick s input).scheduler input.config.automaticHosts input.config = some t) :
    (tick s input).scheduler.lastObservedNow.saturatingAdd outcome.nextWakeIn = t := by
  obtain ⟨hglobal, row, hrow, schedule, due, hschedule, hdue, hmax⟩ := wakeTime_mem ht
  have hne : input.config.automaticHosts ≠ [] := List.ne_nil_of_mem hrow
  have hle : t ≤ durationMax := by
    obtain ⟨schedule', ht', hrestored⟩ := settled_of_ok hs h row hrow
    obtain rfl : schedule' = schedule := Option.some.inj (ht'.1.symm.trans hschedule)
    rw [hmax]
    exact max_le (globalDue_le _) (dueAt_le hrestored hdue)
  rcases tick_failed_or_ready s input hne with ⟨⟨e, he⟩, -⟩ | ⟨pauses, hp, hok⟩
  · rw [h] at he
    cases he
  rw [tick_ready hne hp hok] at h ht hglobal ⊢
  cases hsel : selectedHost s input pauses with
  | none =>
    rw [hsel] at h ht hglobal
    cases h
    have hlate : max s.lastObservedNow input.clock < t := by
      have hnone := selectedHost_none.1 hsel
      by_contra hnow
      have hsome := (nextDueHostIndex_isSome hne).2 ⟨t, ht, Nat.not_lt.1 hnow⟩
      rw [hnone] at hsome
      cases hsome
    simp only [nextWakeIn_waiting, ready_now]
    rw [nextWakeDelay_eq, ht, Option.getD_some]
    exact add_delay hle (.inl hlate)
  | some host =>
    rw [hsel] at h ht hglobal
    obtain ⟨k, hk, -⟩ := selectedHost_index hsel
    dsimp only at h ht hglobal ⊢
    obtain ⟨⟨outcome', hout, hwake⟩, hspacing, hnow⟩ :=
      dispatchHost_outcome rfl (List.mem_of_getElem? hk)
    obtain rfl := Except.ok.inj (h.symm.trans hout)
    rw [hwake, nextWakeDelay_eq, ht, Option.getD_some]
    refine add_delay hle ?_
    -- the spacing puts the wake time after the attempt, up to the largest instant
    have hobserved : max (ready s input pauses).lastObservedNow input.finishClock ≤ durationMax := by
      rw [ready_now]
      exact max_le (max_le hs.observed hi.clock) hi.finishClock
    rw [hspacing] at hglobal
    rw [← hnow] at hobserved
    unfold Duration.saturatingAdd at hglobal
    generalize (dispatchHost (ready s input pauses) input input.config.automaticHosts
      (max s.lastObservedNow input.clock) host).scheduler.lastObservedNow = finished at *
    rcases Nat.lt_or_ge finished t with hlt | hge
    · exact .inl hlt
    · rcases min_choice (finished + minDispatchSpacing) durationMax with hmin | hmin
      · rw [hmin] at hglobal
        exact absurd (hglobal.trans hge) (Nat.not_le.2 (Nat.lt_add_of_pos_right minDispatchSpacing_pos))
      · rw [hmin] at hglobal
        have heq : t = durationMax := le_antisymm hle hglobal
        exact .inr ⟨le_antisymm (hobserved.trans_eq heq.symm) hge, heq⟩

theorem dueAt_eq_none : schedule.dueAt config = none ↔
    schedule.lastAttempt = .processContainmentPause := by
  unfold HostSchedule.dueAt
  cases schedule.lastAttempt with
  | activeSuccess finishedAt =>
    dsimp only
    split
    · split <;> simp
    · simp
  | _ => simp

theorem wakeTime_isSome (h : Settled s rows) (hactive : ∃ row ∈ rows, ¬ Paused s row) :
    ∃ t, wakeTime s rows config = some t := by
  obtain ⟨row, hrow, hnot⟩ := hactive
  obtain ⟨schedule, ht⟩ := h row hrow
  have hdue : schedule.dueAt config ≠ none := by
    intro hnone
    exact hnot ⟨schedule, ht, dueAt_eq_none.1 hnone⟩
  obtain ⟨due, hdue⟩ := Option.ne_none_iff_exists'.1 hdue
  have hbind : (s.hosts row.id).bind (·.dueAt config) = some due := by
    rw [ht.1]
    exact hdue
  have hwoken : ∃ t, wakeTime s rows config = some t ∧ t ≤ max (globalDue s) due :=
    wakeTime_le.2 ⟨le_max_left _ _, row, hrow, due, hbind, le_max_right _ _⟩
  obtain ⟨t, ht', -⟩ := hwoken
  exact ⟨t, ht'⟩

end

/-! ## Scheduling -/

/-- **Scheduling is fair and wake-ups are exact.** While the allowlist stays the same, a host that
stays due behind an attempt of another one is attempted before the other is attempted again. Every
announced delay is positive. While the configuration stays and the reports change no recorded pause,
no tick before the announced wake time attempts a host, and unless every host is paused a tick from
the wake time on does, once it can read the reports. -/
theorem scheduling_fair_and_exact :
    (∀ (s : RemoteSyncScheduler) first mid last rows a b,
      (∀ input ∈ first :: mid ++ [last], input.config.automaticHosts = rows) → b ∈ rows → b ≠ a →
      (∃ d ∈ (tick s first).calls, d.host = a) →
      StaysDue (tick s first).scheduler b (mid ++ [last]) →
      (∃ d ∈ (tick (after s (first :: mid)) last).calls, d.host = a) →
      ∃ d ∈ calls (tick s first).scheduler mid, d.host = b) ∧
    (∀ s input outcome, (tick s input).outcome = .ok outcome → 0 < outcome.nextWakeIn) ∧
    ∀ (s : RemoteSyncScheduler) (input : TickInput) outcome wake, s.Representable →
      input.Representable → (tick s input).outcome = .ok outcome →
      wake = (tick s input).scheduler.lastObservedNow.saturatingAdd outcome.nextWakeIn →
      ∀ mid last, (∀ i ∈ mid ++ [last],
        i.config = input.config ∧ ChangesNoPause (tick s input).scheduler i) →
      (∀ i ∈ mid, max (tick s input).scheduler.lastObservedNow i.clock < wake) →
      calls (tick s input).scheduler mid = [] ∧
        ((∃ row ∈ input.config.automaticHosts, ¬ Paused (tick s input).scheduler row) →
          (∃ pauses, last.processContainmentPausedHosts = .ok pauses) → wake ≤ last.clock →
          (tick (after (tick s input).scheduler mid) last).calls ≠ []) := by
  refine ⟨?_, fun s input outcome h => nextWakeIn_pos h, ?_⟩
  · intro s first mid last rows a b hrows hb hne hfirst hdue hagain
    obtain ⟨hsame, hrest⟩ := List.forall_mem_cons.1 hrows
    obtain ⟨d, hd, ha⟩ := hfirst
    subst hsame
    exact run_fair hrest (before_of_attempt hd ha hb hne) hdue hagain
  · intro s input outcome wake hs hi h hwake mid last hruns hearly
    obtain ⟨hmid, hlast⟩ := List.forall_mem_append.1 hruns
    obtain ⟨hconfig, hno⟩ := hlast last (List.mem_singleton.2 rfl)
    by_cases hne : input.config.automaticHosts = []
    · -- without hosts there is nothing to attempt
      refine ⟨?_, by simp [hne]⟩
      rw [List.eq_nil_iff_forall_not_mem]
      intro d hd
      have hempty : ∀ (inputs : List TickInput) (s : RemoteSyncScheduler),
          (∀ i ∈ inputs, i.config = input.config) → d ∉ calls s inputs := by
        intro inputs
        induction inputs with
        | nil => simp [calls]
        | cons i rest ih =>
          intro s hsame hd
          obtain ⟨hi, hrest⟩ := List.forall_mem_cons.1 hsame
          rcases List.mem_append.1 hd with hd | hd
          · have hmem := tick_calls.2 d hd
            rw [hi, hne] at hmem
            cases hmem
          · exact ih _ hrest hd
      exact hempty mid _ (fun i hi => (hmid i hi).1) hd
    · have hsettled : Settled (tick s input).scheduler input.config.automaticHosts := by
        intro row hrow
        obtain ⟨schedule, ht, -⟩ := settled_of_ok hs h row hrow
        exact ⟨schedule, ht⟩
      have hannounced : ∀ t, wakeTime (tick s input).scheduler input.config.automaticHosts
          input.config = some t → wake = t := fun t ht => hwake.trans (announced_eq hs hi h ht)
      obtain ⟨hcalls, hrests, -⟩ := run_early hne hsettled hmid
        fun t ht i hi => (hannounced t ht) ▸ hearly i hi
      refine ⟨hcalls, ?_⟩
      rintro hactive ⟨pauses, hp⟩ hwoken
      obtain ⟨t, ht⟩ := wakeTime_isSome hsettled hactive
      rw [hannounced t ht] at hwoken
      rw [← hconfig] at hne hsettled hrests ht
      exact tick_woken hne (hrests.settled hsettled) (hrests.changesNoPause hno) hp
        (hrests.wakeTime.trans ht) (hwoken.trans (le_max_right _ _))

namespace Sample

/-- A tick whose attempt leaves the containment uncertain, while the reports pause no host. -/
def uncertainTick (clock : Duration) : TickInput :=
  { failingTick clock (some false) with syncHost := fun _ => .error .processContainment }

def beta : RemoteHostConfig :=
  { alpha with id := "beta", expectedSource := some ⟨"node-bbbbbbbbbbbbbbbbbbbbbbbbbbbbbbbb", 1⟩ }

def pair : RemotesConfig where
  configRevision := 1
  autoSyncEnabled := true
  activeIntervalSeconds := 30
  idleIntervalSeconds := 120
  hosts := [alpha, beta]
  hosts_nodup := by decide

def pairTick (clock : Duration) : TickInput := { failingTick clock none with config := pair }

end Sample

open Sample in
/-- The scheduler believes a report that a host is not paused over an attempt that left its
containment uncertain: the wake time is announced for two minutes later, and yet, with the same
configuration and reports, the host is attempted after a second. -/
theorem unrecorded_pause_wakes_early :
    (uncertainTick (fromSecs 1)).config = (uncertainTick 0).config ∧
    (uncertainTick (fromSecs 1)).processContainmentPausedHosts =
      (uncertainTick 0).processContainmentPausedHosts ∧
    (∃ outcome, (tick .new (uncertainTick 0)).outcome = .ok outcome ∧
      outcome.nextWakeIn = fromSecs 120) ∧
    (tick .new (uncertainTick 0)).scheduler.lastObservedNow = 0 ∧
    ((tick (tick .new (uncertainTick 0)).scheduler (uncertainTick (fromSecs 1))).calls.map
      fun d => (d.host, d.dispatchedAt)) = [(alpha, fromSecs 1)] := by
  refine ⟨rfl, rfl, ?_, by decide +kernel, by decide +kernel⟩
  have h : (tick .new (uncertainTick 0)).outcome.toOption.map (·.nextWakeIn) =
      some (fromSecs 120) := by decide +kernel
  cases hout : (tick .new (uncertainTick 0)).outcome with
  | error e =>
    rw [hout] at h
    cases h
  | ok outcome =>
    rw [hout] at h
    exact ⟨outcome, rfl, Option.some.inj h⟩

open Sample in
theorem scheduling_sample :
    (∃ d ∈ calls (tick .new (pairTick 0)).scheduler [pairTick (fromSecs 1)], d.host = beta) ∧
      ∃ wake, wake = fromSecs 1 ∧
        calls (tick .new (pairTick 0)).scheduler [pairTick 500000000] = [] ∧
        (tick (after (tick .new (pairTick 0)).scheduler [pairTick 500000000])
          (pairTick (fromSecs 1))).calls ≠ [] := by
  obtain ⟨hfair, -, hexact⟩ := scheduling_fair_and_exact
  have hbeta : (tick .new (pairTick 0)).scheduler.hosts beta.id = some (HostSchedule.new beta) := by
    decide +kernel
  have hnew : RemoteSyncScheduler.new.Representable :=
    ⟨Nat.zero_le _, fun _ _ _ _ hnone => by cases hnone⟩
  have hchanges (clock : Duration) :
      ChangesNoPause (tick .new (pairTick 0)).scheduler (pairTick clock) := fun _ _ _ _ => rfl
  constructor
  · have hturn : (tick (tick .new (pairTick 0)).scheduler (pairTick (fromSecs 1))).calls.map
        (·.host) = [beta] := by decide +kernel
    refine hfair .new (pairTick 0) [pairTick (fromSecs 1)] (pairTick (fromSecs 100)) [alpha, beta]
      alpha beta (by decide) (by decide) (by decide) ?_ ⟨fun _ => ?_, fun hnone => ?_⟩ ?_
    · exact List.mem_map.1 (by decide +kernel : alpha ∈ (tick .new (pairTick 0)).calls.map (·.host))
    · exact ⟨HostSchedule.new beta, 0, ⟨some fun _ => none, rfl, by rw [hbeta]; rfl⟩, rfl,
        Nat.zero_le _⟩
    · obtain ⟨d, hd, hhost⟩ := List.mem_map.1 (hturn ▸ List.mem_singleton.2 rfl :
        beta ∈ (tick (tick .new (pairTick 0)).scheduler (pairTick (fromSecs 1))).calls.map (·.host))
      exact absurd hhost (hnone d hd)
    · exact List.mem_map.1 (by decide +kernel : alpha ∈ (tick (after .new
        [pairTick 0, pairTick (fromSecs 1)]) (pairTick (fromSecs 100))).calls.map (·.host))
  · have h : (tick .new (pairTick 0)).outcome.toOption.map (·.nextWakeIn) = some (fromSecs 1) := by
      decide +kernel
    have hnow : (tick .new (pairTick 0)).scheduler.lastObservedNow = 0 := by decide +kernel
    have hwake : (0 : Duration).saturatingAdd (fromSecs 1) = fromSecs 1 := by decide +kernel
    cases hout : (tick .new (pairTick 0)).outcome with
    | error e =>
      rw [hout] at h
      cases h
    | ok outcome =>
      rw [hout] at h
      have hin : outcome.nextWakeIn = fromSecs 1 := Option.some.inj h
      have hruns : ∀ i ∈ [pairTick 500000000] ++ [pairTick (fromSecs 1)],
          i.config = (pairTick 0).config ∧
            ChangesNoPause (tick .new (pairTick 0)).scheduler i := by
        intro i hi
        rcases List.mem_pair.1 hi with rfl | rfl
        · exact ⟨rfl, hchanges _⟩
        · exact ⟨rfl, hchanges _⟩
      obtain ⟨hcalls, hwoken⟩ := hexact .new (pairTick 0) outcome (fromSecs 1) hnew
        ⟨Nat.zero_le _, Nat.zero_le _⟩ hout (by rw [hnow, hin, hwake]) [pairTick 500000000]
        (pairTick (fromSecs 1)) hruns
        (by rw [hnow]; decide +kernel)
      refine ⟨fromSecs 1, rfl, hcalls, hwoken ⟨beta, by decide, ?_⟩ ⟨_, rfl⟩ (Nat.le_refl _)⟩
      rintro ⟨schedule, ht, hpaused⟩
      obtain rfl := Option.some.inj (hbeta.symm.trans ht.1)
      cases hpaused

end Scheduler
