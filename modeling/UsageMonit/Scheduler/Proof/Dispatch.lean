import Mathlib.Data.List.TakeWhile
import UsageMonit.Scheduler.Proof.Tick

/-!
# When the scheduler may connect

The guarantees over whole runs, by induction over the ticks: the spacing of the attempts
(`run_spaced`), their due times (`run_due`), containment pauses (`run_paused`) and the counts of
failures that set the backoff (`run_failures`).
-/

namespace Scheduler

/-! ## Runs -/

def after (s : RemoteSyncScheduler) (inputs : List TickInput) : RemoteSyncScheduler :=
  inputs.foldl (fun s input => (tick s input).scheduler) s

def calls (s : RemoteSyncScheduler) : List TickInput → List Dispatch
  | [] => []
  | input :: rest => (tick s input).calls ++ calls (tick s input).scheduler rest

def attempts (s : RemoteSyncScheduler) (row : RemoteHostConfig) (inputs : List TickInput) :
    List Dispatch :=
  (calls s inputs).filter fun d => decide (d.host = row)

/-! ### Spacing -/

/-- An attempt that finished at an instant still holds back the next one. -/
def Spaced (finished : Duration) (s : RemoteSyncScheduler) : Prop :=
  ∃ latest, s.lastDispatchFinishedAt = some latest ∧ finished ≤ latest ∧
    latest ≤ s.lastObservedNow

theorem tick_spaced_of_attempt {s : RemoteSyncScheduler} {input : TickInput} {d : Dispatch}
    (h : d ∈ (tick s input).calls) : Spaced d.finishedAt (tick s input).scheduler := by
  obtain ⟨-, -, -, hfinished, hobserved⟩ := tick_attempt h
  exact ⟨d.finishedAt, hfinished, Nat.le_refl _, Nat.le_of_eq hobserved.symm⟩

theorem tick_spaced {s : RemoteSyncScheduler} {input : TickInput} {finished : Duration}
    (h : Spaced finished s) (hne : input.config.automaticHosts ≠ []) :
    Spaced finished (tick s input).scheduler := by
  obtain ⟨latest, hlatest, hle, hobserved⟩ := h
  cases hcalls : (tick s input).calls with
  | nil =>
    obtain ⟨hsame, hmono⟩ := tick_idle hne hcalls
    exact ⟨latest, hsame.trans hlatest, hle, Nat.le_trans hobserved hmono⟩
  | cons d ds =>
    have hd : d ∈ (tick s input).calls := by simp [hcalls]
    obtain ⟨-, hnow, hfinish, -, -⟩ := tick_attempt hd
    obtain ⟨latest', hlatest', hle', hobserved'⟩ := tick_spaced_of_attempt hd
    refine ⟨latest', hlatest', ?_, hobserved'⟩
    exact Nat.le_trans hle (Nat.le_trans hobserved (Nat.le_trans hnow (Nat.le_trans hfinish hle')))

theorem run_spaced {s : RemoteSyncScheduler} {finished : Duration} {inputs : List TickInput}
    (h : Spaced finished s) (hne : ∀ input ∈ inputs, input.config.automaticHosts ≠ []) :
    Spaced finished (after s inputs) := by
  induction inputs generalizing s with
  | nil => exact h
  | cons input rest ih =>
    exact ih (tick_spaced h (hne input (List.mem_cons_self ..)))
      fun i hi => hne i (List.mem_cons_of_mem _ hi)

theorem tick_spacing {s : RemoteSyncScheduler} {input : TickInput} {finished : Duration}
    {d : Dispatch} (h : Spaced finished s) (hd : d ∈ (tick s input).calls) :
    finished.saturatingAdd minDispatchSpacing ≤ d.dispatchedAt := by
  obtain ⟨latest, hlatest, hle, -⟩ := h
  have hglobal := (tick_attempt hd).1
  rw [globalDue, hlatest] at hglobal
  refine Nat.le_trans ?_ hglobal
  exact Nat.le_min.2 ⟨Nat.le_trans (Nat.min_le_left _ _) (Nat.add_le_add_right hle _),
    Nat.min_le_right _ _⟩

/-! ### Due times -/

section
variable {s : RemoteSyncScheduler} {input : TickInput} {row : RemoteHostConfig}
  {schedule : HostSchedule} {inputs : List TickInput}

@[simp] theorem mem_attempts {d : Dispatch} :
    d ∈ attempts s row inputs ↔ d ∈ calls s inputs ∧ d.host = row := by
  simp [attempts]

theorem attempts_cons {input : TickInput} :
    attempts s row (input :: inputs) =
      (tick s input).calls.filter (fun d => decide (d.host = row)) ++
        attempts (tick s input).scheduler row inputs := by
  simp [attempts, calls]

/-- A record that is not paused lasts until the next attempt of its row. -/
theorem run_tracks (ht : Tracks s row schedule)
    (hactive : schedule.lastAttempt ≠ .processContainmentPause)
    (hrow : ∀ input ∈ inputs, row ∈ input.config.automaticHosts)
    (hreport : ∀ input ∈ inputs, reportFor input row ≠ some true)
    (hnone : attempts s row inputs = []) : Tracks (after s inputs) row schedule := by
  induction inputs generalizing s with
  | nil => exact ht
  | cons input rest ih =>
    obtain ⟨hrow₁, hrows⟩ := List.forall_mem_cons.1 hrow
    obtain ⟨hreport₁, hreports⟩ := List.forall_mem_cons.1 hreport
    rw [attempts_cons, List.append_eq_nil_iff] at hnone
    refine ih ?_ hrows hreports hnone.2
    have hstep := tick_tracks hrow₁ ht
    rw [afterReport_of_active hreport₁ hactive] at hstep
    rcases hstep with ⟨-, h | h⟩ | ⟨d, due, hcalls, hhost, -⟩
    · exact h
    · exact h
    · simp [hcalls, hhost] at hnone

/-- **Due times.** The next attempt of a row waits for the due time of its record. -/
theorem run_due {last : TickInput} {d : Dispatch} (ht : Tracks s row schedule)
    (hactive : schedule.lastAttempt ≠ .processContainmentPause)
    (hrow : ∀ input ∈ inputs ++ [last], row ∈ input.config.automaticHosts)
    (hreport : ∀ input ∈ inputs ++ [last], reportFor input row ≠ some true)
    (hnone : attempts s row inputs = []) (hd : d ∈ (tick (after s inputs) last).calls)
    (hhost : d.host = row) :
    ∃ due, schedule.dueAt last.config = some due ∧ due ≤ d.dispatchedAt := by
  obtain ⟨hrows, hrow₁⟩ := List.forall_mem_append.1 hrow
  obtain ⟨hreports, hreport₁⟩ := List.forall_mem_append.1 hreport
  have hstep := tick_tracks (hrow₁ last (List.mem_singleton.2 rfl))
    (run_tracks ht hactive hrows hreports hnone)
  rw [afterReport_of_active (hreport₁ last (List.mem_singleton.2 rfl)) hactive] at hstep
  rcases hstep with ⟨h | h, -⟩ | ⟨d', due, hcalls, -, hdue, hnow, -⟩
  · simp [h] at hd
  · exact absurd hhost (h d hd)
  · rw [hcalls, List.mem_singleton] at hd
    exact ⟨due, hdue, hd ▸ hnow⟩

/-! ### Containment pauses -/

/-- The record of a row says that it is paused. -/
def Paused (s : RemoteSyncScheduler) (row : RemoteHostConfig) : Prop :=
  ∃ schedule, Tracks s row schedule ∧ schedule.lastAttempt = .processContainmentPause

theorem tick_paused (h : Paused s row) (hrow : row ∈ input.config.automaticHosts)
    (hreport : reportFor input row ≠ some false) :
    Paused (tick s input).scheduler row ∧ ∀ d ∈ (tick s input).calls, d.host ≠ row := by
  obtain ⟨schedule, ht, hpaused⟩ := h
  have hstep := tick_tracks hrow ht
  rw [hpaused, afterReport_of_paused hreport, ← hpaused] at hstep
  rcases hstep with ⟨hcalls, h⟩ | ⟨d, due, -, -, hdue, -⟩
  · refine ⟨⟨schedule, h.elim id id, hpaused⟩, ?_⟩
    rcases hcalls with h | h
    · simp [h]
    · exact h
  · simp [HostSchedule.dueAt, hpaused] at hdue

/-- **Pauses.** A paused row is not attempted until a report clears the pause. -/
theorem run_paused (h : Paused s row) (hrow : ∀ input ∈ inputs, row ∈ input.config.automaticHosts)
    (hreport : ∀ input ∈ inputs, reportFor input row ≠ some false) :
    Paused (after s inputs) row ∧ attempts s row inputs = [] := by
  induction inputs generalizing s with
  | nil => exact ⟨h, rfl⟩
  | cons input rest ih =>
    obtain ⟨hrow₁, hrows⟩ := List.forall_mem_cons.1 hrow
    obtain ⟨hreport₁, hreports⟩ := List.forall_mem_cons.1 hreport
    obtain ⟨hpaused, hcalls⟩ := tick_paused h hrow₁ hreport₁
    obtain ⟨hafter, hattempts⟩ := ih hpaused hrows hreports
    refine ⟨hafter, ?_⟩
    rw [attempts_cons, hattempts, List.append_nil, List.filter_eq_nil_iff]
    intro d hd
    simpa using hcalls d hd

/-! ### Failure counts -/

def Dispatch.succeeded (d : Dispatch) : Bool :=
  match d.result with
  | .ok _ => true
  | .error _ => false

/-- A failure: neither a success nor a pause of the budget. -/
def Dispatch.failed (d : Dispatch) : Bool :=
  match d.result with
  | .ok _ => false
  | .error (.localError (some _)) => false
  | .error _ => true

/-- The failures since the last success, from a count before the attempts, as a `u32`. -/
def failureCount (start : Nat) (ds : List Dispatch) : Nat :=
  min ((if ds.any (·.succeeded) then 0 else start) +
    (ds.reverse.takeWhile (fun d => !d.succeeded)).countP (·.failed)) (2 ^ 32 - 1)

theorem failureCount_nil {start : Nat} (h : start < 2 ^ 32) : failureCount start [] = start := by
  simp only [failureCount, List.any_nil, List.reverse_nil, List.takeWhile_nil, List.countP_nil]
  simp only [Bool.false_eq_true, if_false]
  omega

theorem failureCount_append (start : Nat) (ds ds' : List Dispatch) :
    failureCount start (ds ++ ds') = failureCount (failureCount start ds) ds' := by
  have hall (h : ds'.any (·.succeeded) = false) :
      ∀ d ∈ ds'.reverse, (!d.succeeded) = true := by
    intro d hd
    have := List.any_eq_false.1 h d (List.mem_reverse.1 hd)
    simpa using this
  simp only [failureCount, List.any_append, List.reverse_append]
  cases hany : ds'.any (·.succeeded) with
  | true =>
    have hstop : (ds'.reverse.takeWhile (fun d => !d.succeeded)).length ≠ ds'.length := by
      intro hlen
      have hpre := List.takeWhile_prefix (l := ds'.reverse) fun d : Dispatch => !d.succeeded
      have heq := hpre.eq_of_length (hlen.trans List.length_reverse.symm)
      obtain ⟨d, hd, hsucc⟩ := List.any_eq_true.1 hany
      have := List.takeWhile_eq_self_iff.1 heq d (List.mem_reverse.2 hd)
      simp [hsucc] at this
    simp [List.takeWhile_append, hstop]
  | false =>
    rw [List.takeWhile_append_of_pos (hall hany), List.takeWhile_eq_self_iff.2 (hall hany)]
    simp only [Bool.or_false, Bool.false_eq_true, if_false, List.countP_append]
    omega

theorem recordAttempt_failures {d : Dispatch}
    (h : schedule.lastAttempt.previousFailures < 2 ^ 32)
    (hd : d.processContainmentUncertain = false) :
    (recordAttempt schedule d).lastAttempt.previousFailures =
      failureCount schedule.lastAttempt.previousFailures [d] := by
  have hone : failureCount schedule.lastAttempt.previousFailures [d] =
      if d.succeeded then 0
      else min (schedule.lastAttempt.previousFailures + if d.failed then 1 else 0) (2 ^ 32 - 1) := by
    cases hs : d.succeeded <;> cases hf : d.failed <;> simp [failureCount, hs, hf]
  rw [hone]
  unfold recordAttempt
  rw [if_neg (by simp [hd])]
  unfold Dispatch.succeeded Dispatch.failed
  split
  next report hr =>
    simp only [hr, if_true]
    split <;> rfl
  next level hr =>
    simp only [hr, Bool.false_eq_true, if_false, LastAttempt.previousFailures]
    simp only [LastAttempt.previousFailures] at h
    omega
  next e hne hr =>
    simp only [hr, Bool.false_eq_true, if_false, LastAttempt.previousFailures]
    rfl

theorem calls_filter_of_ne (h : ∀ d ∈ (tick s input).calls, d.host ≠ row) :
    (tick s input).calls.filter (fun d => decide (d.host = row)) = [] := by
  rw [List.filter_eq_nil_iff]
  intro d hd
  simpa using h d hd

theorem tick_failures (hb : CountsBounded s.hosts) (hrow : row ∈ input.config.automaticHosts)
    (hreport : reportFor input row ≠ some true)
    (hcertain : ∀ d ∈ (tick s input).calls, d.host = row → d.processContainmentUncertain = false)
    (ht : Tracks (tick s input).scheduler row schedule) :
    schedule.lastAttempt.previousFailures = failureCount (startFailures s input row)
      ((tick s input).calls.filter fun d => decide (d.host = row)) := by
  have hlt := tick_bounded hb row.id schedule ht.1
  rcases tick_row (s := s) hrow with ⟨-, hcalls, hs⟩ | ⟨old, hrec, ⟨hcalls, hs⟩ | h⟩
  · rw [hcalls, startFailures_of_tracks ⟨hs.symm.trans ht.1, ht.2⟩]
    exact (failureCount_nil hlt).symm
  · rw [calls_filter_of_ne fun d hd heq => hcalls d hd (by rw [heq]), ← hrec.failures hreport]
    obtain rfl : old = schedule := Option.some.inj (hs.symm.trans ht.1)
    exact (failureCount_nil hlt).symm
  · obtain ⟨d, due, hcalls, hhost, -, -, hs⟩ := h
    obtain rfl : recordAttempt old d = schedule := Option.some.inj (hs.symm.trans ht.1)
    have hold : old.lastAttempt.previousFailures < 2 ^ 32 := by
      obtain ⟨pauses, -, hold⟩ := hrec
      exact reconcileHost_lt hold fun old' => hb _ old'
    rw [recordAttempt_failures hold (hcertain d (by simp [hcalls]) hhost), hrec.failures hreport,
      hcalls]
    simp [hhost]

theorem tick_keeps (hrow : row ∈ input.config.automaticHosts) (ht : Tracks s row schedule) :
    ∃ schedule', Tracks (tick s input).scheduler row schedule' := by
  rcases tick_tracks hrow ht with ⟨-, h | h⟩ | ⟨_, _, -, -, -, -, h⟩
  · exact ⟨_, h⟩
  · exact ⟨_, h⟩
  · exact ⟨_, h⟩

/-- **Failure counts.** While a row stays and is not paused, its record counts the failures since
its last success. -/
theorem run_failures {first : TickInput} (hb : CountsBounded s.hosts)
    (hrow : ∀ input ∈ first :: inputs, row ∈ input.config.automaticHosts)
    (hreport : ∀ input ∈ first :: inputs, reportFor input row ≠ some true)
    (hcertain : ∀ d ∈ attempts s row (first :: inputs), d.processContainmentUncertain = false)
    (ht : Tracks (tick s first).scheduler row schedule) :
    ∃ schedule', Tracks (after s (first :: inputs)) row schedule' ∧
      schedule'.lastAttempt.previousFailures =
        failureCount (startFailures s first row) (attempts s row (first :: inputs)) := by
  induction inputs generalizing s first schedule with
  | nil =>
    rw [attempts_cons] at hcertain ⊢
    refine ⟨schedule, ht, ?_⟩
    rw [tick_failures hb (hrow first (List.mem_singleton.2 rfl))
      (hreport first (List.mem_singleton.2 rfl)) (fun d hd hhost => hcertain d ?_) ht]
    · simp [attempts, calls]
    · simp [hd, hhost]
  | cons second rest ih =>
    obtain ⟨hrow₁, hrows⟩ := List.forall_mem_cons.1 hrow
    obtain ⟨hreport₁, hreports⟩ := List.forall_mem_cons.1 hreport
    rw [attempts_cons] at hcertain ⊢
    obtain ⟨hcertain₁, hcertains⟩ := List.forall_mem_append.1 hcertain
    obtain ⟨schedule₁, ht₁⟩ := tick_keeps (hrows second (List.mem_cons_self ..)) ht
    obtain ⟨schedule', ht', hcount⟩ := ih (tick_bounded hb) hrows hreports hcertains ht₁
    refine ⟨schedule', ht', ?_⟩
    rw [hcount, startFailures_of_tracks ht, failureCount_append,
      tick_failures hb hrow₁ hreport₁ (fun d hd hhost => hcertain₁ d ?_) ht]
    simp [hd, hhost]

end

theorem run_bounded (history : List TickInput) :
    CountsBounded (after RemoteSyncScheduler.new history).hosts := by
  suffices h : ∀ s, CountsBounded s.hosts → CountsBounded (after s history).hosts from
    h _ fun _ _ hn => by cases hn
  induction history with
  | nil => exact fun _ h => h
  | cons input rest ih => exact fun s h => ih _ (tick_bounded h)

/-! ## The guarantees -/

/-- What the ticks that follow a scheduler keep to. -/
structure ConnectsWhenAllowed (s : RemoteSyncScheduler) : Prop where
  /-- A tick makes one call at most, for a host of its allowlist. -/
  allowed : ∀ input, (tick s input).calls.length ≤ 1 ∧
    ∀ d ∈ (tick s input).calls, d.host ∈ input.config.automaticHosts
  /-- Attempts with no disabled or empty tick between them are a second apart. -/
  spaced : ∀ first mid last d d', d ∈ (tick s first).calls →
    (∀ input ∈ mid, input.config.automaticHosts ≠ []) →
    d' ∈ (tick (after s (first :: mid)) last).calls →
    d.dispatchedAt ≤ d.finishedAt ∧ d.finishedAt.saturatingAdd minDispatchSpacing ≤ d'.dispatchedAt
  /-- An attempt is due by the reconciled record of its row, and is recorded in it. -/
  recorded : ∀ input d, d ∈ (tick s input).calls → ∃ schedule due,
    ReconciledRow s input d.host schedule ∧ schedule.dueAt input.config = some due ∧
    due ≤ d.dispatchedAt ∧ Tracks (tick s input).scheduler d.host (recordAttempt schedule d)
  /-- While its row stays and is not paused, a host is not attempted before its record is due. -/
  due : ∀ row schedule, Tracks s row schedule → schedule.lastAttempt ≠ .processContainmentPause →
    ∀ mid last d, (∀ input ∈ mid ++ [last], row ∈ input.config.automaticHosts) →
    (∀ input ∈ mid ++ [last], reportFor input row ≠ some true) → attempts s row mid = [] →
    d ∈ (tick (after s mid) last).calls → d.host = row →
    ∃ due, schedule.dueAt last.config = some due ∧ due ≤ d.dispatchedAt
  /-- A paused host is not attempted while its row stays and no report clears the pause. -/
  paused : ∀ row, Paused s row → ∀ inputs, (∀ input ∈ inputs, row ∈ input.config.automaticHosts) →
    (∀ input ∈ inputs, reportFor input row ≠ some false) → attempts s row inputs = []
  /-- An attempt whose containment is uncertain pauses its host. -/
  pauses_uncertain : ∀ input d, d ∈ (tick s input).calls → d.processContainmentUncertain = true →
    Paused (tick s input).scheduler d.host
  /-- So does a durable report about a row that did not change. -/
  pauses_reported : ∀ row input, row ∈ input.config.automaticHosts →
    (∀ existing, s.hosts row.id = some existing → existing.configuredHost = row) →
    reportFor input row = some true → (∀ e, (tick s input).outcome ≠ .error e) →
    Paused (tick s input).scheduler row ∧ ∀ d ∈ (tick s input).calls, d.host ≠ row
  /-- The count behind the backoff: the failures since the last success, a seed's included. -/
  failures : ∀ row schedule first rest, Tracks (tick s first).scheduler row schedule →
    (∀ input ∈ first :: rest, row ∈ input.config.automaticHosts) →
    (∀ input ∈ first :: rest, reportFor input row ≠ some true) →
    (∀ d ∈ attempts s row (first :: rest), d.processContainmentUncertain = false) →
    ∃ schedule', Tracks (after s (first :: rest)) row schedule' ∧
      schedule'.lastAttempt.previousFailures =
        failureCount (startFailures s first row) (attempts s row (first :: rest))

section
variable {s : RemoteSyncScheduler} {input : TickInput} {d : Dispatch}

/-- An attempt, seen from its row. -/
theorem tick_recorded (hd : d ∈ (tick s input).calls) : ∃ schedule due,
    ReconciledRow s input d.host schedule ∧ schedule.dueAt input.config = some due ∧
    due ≤ d.dispatchedAt ∧ Tracks (tick s input).scheduler d.host (recordAttempt schedule d) := by
  rcases tick_row (s := s) (tick_calls.2 d hd) with ⟨-, hcalls, -⟩ | ⟨schedule, hrec, ⟨hcalls, -⟩ | h⟩
  · simp [hcalls] at hd
  · exact absurd rfl (hcalls d hd)
  · obtain ⟨d', due, hcalls, hhost, hdue, hnow, hs⟩ := h
    rw [hcalls, List.mem_singleton] at hd
    subst hd
    exact ⟨schedule, due, hrec, hdue, hnow, hs, by simp [hrec.configuredHost]⟩

theorem tick_pauses_uncertain (hd : d ∈ (tick s input).calls)
    (hu : d.processContainmentUncertain = true) : Paused (tick s input).scheduler d.host := by
  obtain ⟨schedule, _, -, -, -, ht⟩ := tick_recorded hd
  refine ⟨_, ht, ?_⟩
  simp [recordAttempt, hu]

theorem tick_pauses_reported {row : RemoteHostConfig} (hrow : row ∈ input.config.automaticHosts)
    (hs : ∀ existing, s.hosts row.id = some existing → existing.configuredHost = row)
    (hr : reportFor input row = some true) (hok : ∀ e, (tick s input).outcome ≠ .error e) :
    Paused (tick s input).scheduler row ∧ ∀ d ∈ (tick s input).calls, d.host ≠ row := by
  rcases tick_row (s := s) hrow with ⟨⟨e, he⟩, -, -⟩ | ⟨schedule, hrec, ⟨hcalls, hafter⟩ | h⟩
  · exact absurd he (hok e)
  · refine ⟨⟨schedule, ⟨hafter, hrec.configuredHost⟩, hrec.paused hs hr⟩, ?_⟩
    exact fun d hd heq => hcalls d hd (by rw [heq])
  · obtain ⟨_, _, -, -, hdue, -, -⟩ := h
    simp [HostSchedule.dueAt, hrec.paused hs hr] at hdue

end

/-- **The scheduler connects only when allowed**, after any history. -/
theorem scheduler_connects_only_when_allowed (history : List TickInput) :
    ConnectsWhenAllowed (after RemoteSyncScheduler.new history) where
  allowed _ := tick_calls
  spaced first mid last d d' hd hmid hd' := by
    obtain ⟨-, -, hfinish, -, -⟩ := tick_attempt hd
    exact ⟨hfinish, tick_spacing (run_spaced (tick_spaced_of_attempt hd) hmid) hd'⟩
  recorded _ _ hd := tick_recorded hd
  due _ _ ht hactive _ _ _ hrow hreport hnone hd hhost :=
    run_due ht hactive hrow hreport hnone hd hhost
  paused _ h _ hrow hreport := (run_paused h hrow hreport).2
  pauses_uncertain _ _ hd hu := tick_pauses_uncertain hd hu
  pauses_reported _ _ hrow hs hr hok := tick_pauses_reported hrow hs hr hok
  failures _ _ _ _ ht hrow hreport hcertain :=
    run_failures (run_bounded history) hrow hreport hcertain ht

namespace Sample

def alpha : RemoteHostConfig where
  id := "alpha"
  sshHost := "alpha"
  agentExecutable := "agent"
  syncEnabled := true
  redactContent := true
  expectedSource := some ⟨"node-aaaaaaaaaaaaaaaaaaaaaaaaaaaaaaaa", 1⟩
  previousSource := none

def config : RemotesConfig where
  configRevision := 1
  autoSyncEnabled := true
  activeIntervalSeconds := 30
  idleIntervalSeconds := 120
  hosts := [alpha]
  hosts_nodup := by decide

/-- A tick whose sync fails, with a durable report about its hosts. -/
def failingTick (clock : Duration) (report : Option Bool) : TickInput where
  config := config
  clock := clock
  finishClock := clock
  processContainmentPausedHosts := .ok (some fun _ => report)
  restoreHostSchedule _ := .ok none
  syncHost _ := .error .other
  takeProcessContainmentSignal _ := false

/-- A failure, a pause, and the report that clears it. -/
def ticks : List TickInput :=
  [failingTick 0 none, failingTick (fromSecs 1) (some true), failingTick (fromSecs 2) (some false)]

end Sample

open Sample in
/-- A cleared pause forgets the backoff: the row of a host never changes and stays in the
allowlist, its first attempt fails and is due again 48 s later at the earliest, and yet it is
attempted 2 s later, and its second failure in a row is counted as the first. -/
theorem cleared_pause_restarts_backoff :
    (∀ input ∈ ticks, alpha ∈ input.config.automaticHosts) ∧
    (attempts .new alpha ticks).map (fun d => (d.dispatchedAt, d.failed)) =
      [(0, true), (fromSecs 2, true)] ∧
    (after .new (ticks.take 1)).hosts alpha.id = some ⟨alpha, .failure 0 1, none⟩ ∧
    (∃ due, HostSchedule.dueAt ⟨alpha, .failure 0 1, none⟩ config = some due ∧ fromSecs 48 ≤ due) ∧
    (after .new ticks).hosts alpha.id = some ⟨alpha, .failure (fromSecs 2) 1, none⟩ := by
  refine ⟨by decide, by decide +kernel, by decide +kernel, ⟨_, rfl, by decide +kernel⟩,
    by decide +kernel⟩

end Scheduler
