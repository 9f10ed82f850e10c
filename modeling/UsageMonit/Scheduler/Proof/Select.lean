import UsageMonit.Lib.RoundRobin
import UsageMonit.Scheduler.Proof.Dispatch

/-!
# Which host is next, and when

The selection of a tick is a round robin behind the last host (`nextDueHostIndex_eq`), and it finds
a host as soon as the instant is reached that the wake delay is computed from (`wakeTime`,
`nextDueHostIndex_isSome`). A tick that gets through its reconciliation selects from what the
reconciliation left (`tick_ready`).
-/

namespace Scheduler

open RoundRobin

/-! ## The selection -/

variable {pauses : Option (String → Option Bool)}

section
variable {s : RemoteSyncScheduler} {rows : List RemoteHostConfig} {config : RemotesConfig}
  {now : Duration} {row : RemoteHostConfig}

/-- Where the round robin starts. -/
def startIndex (s : RemoteSyncScheduler) (rows : List RemoteHostConfig) : Nat :=
  match s.lastDispatchedHost with
  | some last => match rows.findIdx? fun host => host.id == last with
    | some index => next rows.length index
    | none => 0
  | none => 0

def dueIndex (s : RemoteSyncScheduler) (rows : List RemoteHostConfig) (config : RemotesConfig)
    (now : Duration) (index : Nat) : Bool :=
  match rows[index]? with
  | some host => match (s.hosts host.id).bind (·.dueAt config) with
    | some dueAt => decide (dueAt ≤ now)
    | none => false
  | none => false

theorem nextDueHostIndex_eq {due : Duration} :
    nextDueHostIndex s rows config now due =
      if now < due then none
      else pick rows.length (startIndex s rows) (dueIndex s rows config now) := rfl

theorem startIndex_lt (hne : rows ≠ []) : startIndex s rows < rows.length := by
  have hpos := List.length_pos_iff.2 hne
  unfold startIndex
  split
  · split
    · exact Nat.mod_lt _ hpos
    · exact hpos
  · exact hpos

theorem dueIndex_iff {index : Nat} :
    dueIndex s rows config now index = true ↔
      ∃ row due, rows[index]? = some row ∧ (s.hosts row.id).bind (·.dueAt config) = some due ∧
        due ≤ now := by
  unfold dueIndex
  cases hrow : rows[index]? with
  | none => simp
  | some row =>
    cases hdue : (s.hosts row.id).bind (·.dueAt config) with
    | none => simp [hdue]
    | some due => simp [hdue]

/-- The first instant at which the selection finds a host. -/
def wakeTime (s : RemoteSyncScheduler) (rows : List RemoteHostConfig) (config : RemotesConfig) :
    Option Duration :=
  (rows.filterMap fun host =>
    ((s.hosts host.id).bind (·.dueAt config)).map (max (globalDue s))).min?

theorem nextWakeDelay_eq :
    nextWakeDelay s rows config now (globalDue s) =
      strictlyPositive (((wakeTime s rows config).getD
        (now.saturatingAdd (configuredIdleDelay config))) - now) := rfl

theorem wakeTime_le :
    (∃ t, wakeTime s rows config = some t ∧ t ≤ now) ↔
      globalDue s ≤ now ∧ ∃ row ∈ rows, ∃ due,
        (s.hosts row.id).bind (·.dueAt config) = some due ∧ due ≤ now := by
  have hmem (t : Duration) : t ∈ (rows.filterMap fun host =>
      ((s.hosts host.id).bind (·.dueAt config)).map (max (globalDue s))) ↔
        ∃ row ∈ rows, ∃ due, (s.hosts row.id).bind (·.dueAt config) = some due ∧
          max (globalDue s) due = t := by
    simp only [List.mem_filterMap, Option.map_eq_some_iff]
  constructor
  · rintro ⟨t, ht, hle⟩
    obtain ⟨row, hrow, due, hdue, rfl⟩ := (hmem t).1 (List.min?_mem ht)
    exact ⟨(Nat.le_max_left _ _).trans hle, row, hrow, due, hdue, (Nat.le_max_right _ _).trans hle⟩
  · rintro ⟨hglobal, row, hrow, due, hdue, hle⟩
    have hin := (hmem _).2 ⟨row, hrow, due, hdue, rfl⟩
    cases ht : wakeTime s rows config with
    | none =>
      rw [List.min?_eq_none_iff.1 ht] at hin
      cases hin
    | some t =>
      refine ⟨t, rfl, ?_⟩
      have hmin := (List.min?_eq_some_iff.1 ht).2 _ hin
      exact hmin.trans (max_le hglobal hle)

/-- **The selection and the wake delay agree**: a host is found from the wake time on. -/
theorem nextDueHostIndex_isSome (hne : rows ≠ []) :
    (nextDueHostIndex s rows config now (globalDue s)).isSome = true ↔
      ∃ t, wakeTime s rows config = some t ∧ t ≤ now := by
  rw [wakeTime_le, nextDueHostIndex_eq]
  split
  next hspaced => simp [Nat.not_le.2 hspaced]
  next hspaced =>
    rw [pick_isSome (startIndex_lt hne)]
    constructor
    · rintro ⟨i, -, hdue⟩
      obtain ⟨row, due, hrow, hdue, hle⟩ := dueIndex_iff.1 hdue
      exact ⟨Nat.not_lt.1 hspaced, row, List.mem_of_getElem? hrow, due, hdue, hle⟩
    · rintro ⟨-, row, hrow, due, hdue, hle⟩
      obtain ⟨i, hi⟩ := List.mem_iff_getElem?.1 hrow
      exact ⟨i, (List.getElem?_eq_some_iff.1 hi).1, dueIndex_iff.2 ⟨row, due, hi, hdue, hle⟩⟩

theorem wakeTime_congr {s' : RemoteSyncScheduler}
    (hhosts : ∀ row ∈ rows, s'.hosts row.id = s.hosts row.id)
    (hfinished : s'.lastDispatchFinishedAt = s.lastDispatchFinishedAt) :
    wakeTime s' rows config = wakeTime s rows config := by
  have hglobal : globalDue s' = globalDue s := by rw [globalDue, globalDue, hfinished]
  unfold wakeTime
  rw [hglobal]
  congr 1
  refine List.filterMap_congr fun row hrow => ?_
  rw [hhosts row hrow]

theorem startIndex_of_row (hnd : (rows.map (·.id)).Nodup) {l : Nat} (hl : rows[l]? = some row)
    (hlast : s.lastDispatchedHost = some row.id) : startIndex s rows = next rows.length l := by
  have hfind : rows.findIdx? (fun host => host.id == row.id) = some l := by
    obtain ⟨hlt, hget⟩ := List.getElem?_eq_some_iff.1 hl
    rw [List.findIdx?_eq_some_iff_getElem]
    refine ⟨hlt, by simp [hget], fun j hj heq => ?_⟩
    have hllt : l < (rows.map (·.id)).length := by rwa [List.length_map]
    have hsame : (rows.map (·.id))[j] = (rows.map (·.id))[l] := by simpa [hget] using heq
    have := (List.Nodup.getElem_inj_iff hnd).1 hsame
    omega
  unfold startIndex
  rw [hlast]
  simp only [hfind]

end

/-! ## A tick that gets through its reconciliation -/

section
variable {s : RemoteSyncScheduler} {input : TickInput} {row : RemoteHostConfig}

theorem host_of_mem {config : RemotesConfig} (h : row ∈ config.hosts) :
    config.host row.id = some row := by
  unfold RemotesConfig.host
  obtain ⟨found, hfound⟩ : ∃ found, config.hosts.find? (fun host => host.id == row.id) = some found :=
    Option.isSome_iff_exists.1 (List.find?_isSome.2 ⟨row, h, by simp⟩)
  have hid : found.id = row.id := by simpa using List.find?_some hfound
  rw [hfound, List.inj_on_of_nodup_map config.hosts_nodup (List.mem_of_find?_eq_some hfound) h hid]

theorem captureForAutomatic_ok {config : RemotesConfig} (h : row ∈ config.automaticHosts) :
    captureForAutomatic config row = .ok ⟨config.configRevision, row⟩ := by
  obtain ⟨hmem, hflags⟩ := List.mem_filter.1 h
  simp only [Bool.and_eq_true] at hflags
  unfold captureForAutomatic
  rw [if_neg (by simp [hflags.1.1, hflags.1.2]), if_neg (by simp [host_of_mem hmem]),
    if_neg (Option.isSome_iff_ne_none.1 hflags.2)]

/-- What a reconciliation leaves to the selection. -/
def ready (s : RemoteSyncScheduler) (input : TickInput) (pauses : Option (String → Option Bool)) :
    RemoteSyncScheduler :=
  { (reconciled s input pauses).1 with restoreDurableState := false }

@[simp] theorem ready_now :
    (ready s input pauses).lastObservedNow = max s.lastObservedNow input.clock := reconcileHosts_now

@[simp] theorem ready_finished :
    (ready s input pauses).lastDispatchFinishedAt = s.lastDispatchFinishedAt :=
  reconcileHosts_finished

def selectedHost (s : RemoteSyncScheduler) (input : TickInput)
    (pauses : Option (String → Option Bool)) : Option RemoteHostConfig :=
  (nextDueHostIndex (ready s input pauses) input.config.automaticHosts input.config
    (max s.lastObservedNow input.clock) (globalDue (ready s input pauses))).bind
      fun i => input.config.automaticHosts[i]?

theorem enabled_of_automaticHosts {config : RemotesConfig} (hne : config.automaticHosts ≠ []) :
    ¬ config.autoSyncEnabled = false := by
  intro hauto
  exact hne (by simp [RemotesConfig.automaticHosts, hauto])

/-- **A tick that gets through its reconciliation** waits or attempts the host it selects. -/
theorem tick_ready (hne : input.config.automaticHosts ≠ [])
    (hp : input.processContainmentPausedHosts = .ok pauses)
    (hok : (reconciled s input pauses).2 = .ok ()) :
    tick s input = match selectedHost s input pauses with
      | none => ⟨ready s input pauses, .ok (.waiting (nextWakeDelay (ready s input pauses)
          input.config.automaticHosts input.config (max s.lastObservedNow input.clock)
          (globalDue (ready s input pauses)))), []⟩
      | some host => dispatchHost (ready s input pauses) input input.config.automaticHosts
          (max s.lastObservedNow input.clock) host := by
  have hauto := enabled_of_automaticHosts hne
  have hdef : reconcileHosts (monotonicNow s input.clock) input input.config.automaticHosts
      (max s.lastObservedNow input.clock) pauses = reconciled s input pauses := rfl
  unfold tick
  simp only [if_neg hauto, if_neg hne, hp]
  simp only [monotonicNow] at hdef ⊢
  rw [hdef]
  unfold selectedHost ready
  rcases hrec : reconciled s input pauses with ⟨s₁, result⟩
  rw [hrec] at hok
  cases hok
  rfl

/-- A tick fails before its selection, and then keeps the last host, or gets to it. -/
theorem tick_failed_or_ready (s : RemoteSyncScheduler) (input : TickInput)
    (hne : input.config.automaticHosts ≠ []) :
    ((∃ e, (tick s input).outcome = .error e) ∧ (tick s input).calls = [] ∧
      (tick s input).scheduler.lastDispatchedHost = s.lastDispatchedHost) ∨
    ∃ pauses, input.processContainmentPausedHosts = .ok pauses ∧
      (reconciled s input pauses).2 = .ok () := by
  have hauto := enabled_of_automaticHosts hne
  cases hp : input.processContainmentPausedHosts with
  | error e =>
    left
    unfold tick
    simp only [if_neg hauto, if_neg hne, hp]
    exact ⟨⟨e, rfl⟩, trivial, rfl⟩
  | ok pauses =>
    cases hok : (reconciled s input pauses).2 with
    | ok u => exact .inr ⟨pauses, rfl, hok⟩
    | error e =>
      left
      have hdef : reconcileHosts (monotonicNow s input.clock) input input.config.automaticHosts
          (monotonicNow s input.clock).lastObservedNow pauses = reconciled s input pauses := rfl
      have hlast : (reconciled s input pauses).1.lastDispatchedHost = s.lastDispatchedHost := by
        unfold reconciled reconcileHosts at hok ⊢
        dsimp only at hok ⊢
        split at hok
        · rfl
        · cases hok
      unfold tick
      simp only [if_neg hauto, if_neg hne, hp, hdef]
      rcases hrec : reconciled s input pauses with ⟨s₁, result⟩
      rw [hrec] at hok hlast
      cases hok
      exact ⟨⟨e, rfl⟩, rfl, hlast⟩

end

end Scheduler
