import UsageMonit.Bandwidth.Ledger
import UsageMonit.Domain.Protocol

/-!
# The automatic synchronization scheduler (`remote_sync_scheduler.rs`)

One worker drives `tick`: it reconciles the schedules with the allowlist of the configuration,
picks at most one due host and hands it to the executor. A tick can fail and still leave changes in
the scheduler, so `tick` returns the scheduler beside its outcome, with the calls of `sync_host` it
made.

The executor's answers and the two clock readings of a tick are its inputs (`TickInput`). Positions
and counters of reports that the scheduler does not read are left out.
-/

namespace Scheduler

open Protocol Bandwidth

/-! ## Durations -/

/-- A `std::time::Duration`, in nanoseconds. -/
abbrev Duration := Nat

def fromSecs (n : Nat) : Duration := n * 1000000000

/-- `Duration::MAX`. -/
def durationMax : Duration := fromSecs (2 ^ 64 - 1) + 999999999

def Duration.saturatingAdd (a b : Duration) : Duration := min (a + b) durationMax

def automaticRemoteSyncActivityHysteresis : Duration := fromSecs (10 * 60)
def minDispatchSpacing : Duration := fromSecs 1
def failureBackoffSeconds : List Nat := [60, 2 * 60, 5 * 60, 10 * 60, 30 * 60]
def jitterPercentMin : Nat := 80
def jitterPercentSpan : Nat := 41
def remoteSyncHardPauseProbeIntervalSeconds : Nat := 30 * 60

/-! ## Configuration -/

structure RemoteHostConfig where
  id : String
  sshHost : String
  agentExecutable : String
  syncEnabled : Bool
  redactContent : Bool
  expectedSource : Option SourceGeneration
  previousSource : Option SourceGeneration
deriving DecidableEq

/-- A validated configuration: host ids are unique. -/
structure RemotesConfig where
  configRevision : Nat
  autoSyncEnabled : Bool
  activeIntervalSeconds : Nat
  idleIntervalSeconds : Nat
  hosts : List RemoteHostConfig
  hosts_nodup : (hosts.map (·.id)).Nodup

/-- The only automatic connection allowlist. -/
def RemotesConfig.automaticHosts (config : RemotesConfig) : List RemoteHostConfig :=
  config.hosts.filter fun host =>
    config.autoSyncEnabled && host.syncEnabled && host.expectedSource.isSome

def RemotesConfig.host (config : RemotesConfig) (id : String) : Option RemoteHostConfig :=
  config.hosts.find? fun host => host.id == id

/-! ## The executor -/

inductive RemoteSyncCompletion
  | complete
  | continuation
  | bootstrapRestarted
deriving DecidableEq

structure RemoteSyncReport where
  changesCommitted : Nat
  liveStateChanged : Bool
  completion : RemoteSyncCompletion
deriving DecidableEq

def RemoteSyncReport.hasActivity (report : RemoteSyncReport) : Bool :=
  decide (0 < report.changesCommitted) || report.liveStateChanged

/-- The distinctions that the scheduler makes between errors. -/
inductive RemoteSyncError
  | processContainment
  | transport (processContainmentUncertain : Bool)
  /-- A local error, with the level of the budget pause it carries. -/
  | localError (budgetPause : Option RemoteBandwidthBudgetLevel)
  | hostNotEnabledForAutomaticSync (hostId : String)
  | staleHostSelection (hostId : String)
  | hostNotPaired (hostId : String)
  | other
deriving DecidableEq

structure RemoteSyncScheduleSeed where
  source : SourceGeneration
  nextEligibleIn : Duration
  consecutiveFailures : Nat
  activeUntilIn : Option Duration
  processContainmentPaused : Bool
  /-- The count is a `u32`. -/
  consecutiveFailures_lt : consecutiveFailures < 2 ^ 32
deriving DecidableEq

structure RemoteSyncHostSnapshot where
  configRevision : Nat
  host : RemoteHostConfig
deriving DecidableEq

/-- The environment of one tick: the configuration, the clock at its start and after the sync, and
what the executor answers. -/
structure TickInput where
  config : RemotesConfig
  clock : Duration
  finishClock : Duration
  processContainmentPausedHosts : Except RemoteSyncError (Option (String → Option Bool))
  restoreHostSchedule : RemoteHostConfig → Except RemoteSyncError (Option RemoteSyncScheduleSeed)
  syncHost : RemoteSyncHostSnapshot → Except RemoteSyncError RemoteSyncReport
  takeProcessContainmentSignal : RemoteHostConfig → Bool

def captureForAutomatic (config : RemotesConfig) (selected : RemoteHostConfig) :
    Except RemoteSyncError RemoteSyncHostSnapshot :=
  if config.autoSyncEnabled = false ∨ selected.syncEnabled = false then
    .error (.hostNotEnabledForAutomaticSync selected.id)
  else if config.host selected.id ≠ some selected then .error (.staleHostSelection selected.id)
  else if selected.expectedSource = none then .error (.hostNotPaired selected.id)
  else .ok ⟨config.configRevision, selected⟩

/-! ## Schedules -/

inductive LastAttempt
  | never
  | activeSuccess (finishedAt : Duration)
  | idleSuccess (finishedAt : Duration)
  | budgetPause (finishedAt : Duration) (hard : Bool) (consecutiveFailures : Nat)
  | processContainmentPause
  | failure (finishedAt : Duration) (consecutiveFailures : Nat)
  | restored (dueAt : Duration) (consecutiveFailures : Nat)
deriving DecidableEq

structure HostSchedule where
  configuredHost : RemoteHostConfig
  lastAttempt : LastAttempt
  activeUntil : Option Duration
deriving DecidableEq

def HostSchedule.new (host : RemoteHostConfig) : HostSchedule := ⟨host, .never, none⟩

/-- Stable FNV-1a over the host id and the little-endian failure count. -/
def stableJitter (hostId : String) (consecutiveFailures : Nat) : Nat :=
  let countBytes := (List.range 4).map fun i => consecutiveFailures / 256 ^ i % 256
  (hostId.toUTF8.toList.map (·.toNat) ++ countBytes).foldl
    (fun hash byte => (hash ^^^ byte) * 0x100000001b3 % 2 ^ 64) 0xcbf29ce484222325

def retryDelay (hostId : String) (consecutiveFailures : Nat) : Duration :=
  let index := min (consecutiveFailures - 1) (failureBackoffSeconds.length - 1)
  let nominal := failureBackoffSeconds.getD index 0
  let jitterPercent := jitterPercentMin + stableJitter hostId consecutiveFailures % jitterPercentSpan
  fromSecs (max ((nominal * jitterPercent + 99) / 100) 1)

def HostSchedule.dueAt (schedule : HostSchedule) (config : RemotesConfig) : Option Duration :=
  match schedule.lastAttempt with
  | .never => some 0
  | .activeSuccess finishedAt =>
    let intervalDue := finishedAt.saturatingAdd (fromSecs config.activeIntervalSeconds)
    match schedule.activeUntil with
    | some activeUntil =>
      if finishedAt < activeUntil then some (min intervalDue activeUntil) else some intervalDue
    | none => some intervalDue
  | .idleSuccess finishedAt =>
    some (finishedAt.saturatingAdd (fromSecs config.idleIntervalSeconds))
  | .budgetPause finishedAt hard _ =>
    some (finishedAt.saturatingAdd (if hard then
        min (fromSecs config.idleIntervalSeconds) (fromSecs remoteSyncHardPauseProbeIntervalSeconds)
      else fromSecs config.idleIntervalSeconds))
  | .failure finishedAt consecutiveFailures =>
    some (finishedAt.saturatingAdd (retryDelay schedule.configuredHost.id consecutiveFailures))
  | .processContainmentPause => none
  | .restored dueAt _ => some dueAt

structure RemoteSyncScheduler where
  hosts : String → Option HostSchedule
  lastDispatchedHost : Option String
  lastDispatchFinishedAt : Option Duration
  lastObservedNow : Duration
  restoreDurableState : Bool

def RemoteSyncScheduler.new : RemoteSyncScheduler where
  hosts _ := none
  lastDispatchedHost := none
  lastDispatchFinishedAt := none
  lastObservedNow := 0
  restoreDurableState := true

/-! ## Reconciliation -/

/-- What a durable report says of a host, if there is one. -/
def durableReport (pauses : Option (String → Option Bool)) (host : RemoteHostConfig) :
    Option Bool :=
  pauses.bind fun paused => paused host.id

/-- A report about a host whose row did not change. -/
def afterReport (report : Option Bool) (lastAttempt : LastAttempt) : LastAttempt :=
  match report with
  | some true => .processContainmentPause
  | some false => if lastAttempt = .processContainmentPause then .never else lastAttempt
  | none => lastAttempt

/-- The schedule that the first ticks restore from durable state. -/
def restoredSchedule (input : TickInput) (now : Duration) (restoreDurableState : Bool)
    (host : RemoteHostConfig) : Except RemoteSyncError HostSchedule :=
  if restoreDurableState then do
    match ← input.restoreHostSchedule host with
    | some seed =>
      if host.expectedSource = some seed.source then
        pure {
          configuredHost := host
          lastAttempt := if seed.processContainmentPaused then .processContainmentPause
            else .restored (now.saturatingAdd seed.nextEligibleIn) seed.consecutiveFailures
          activeUntil := seed.activeUntilIn.map now.saturatingAdd }
      else pure (HostSchedule.new host)
    | none => pure (HostSchedule.new host)
  else pure (HostSchedule.new host)

/-- The schedule of a host that had none. -/
def freshSchedule (input : TickInput) (now : Duration) (restoreDurableState : Bool)
    (report : Option Bool) (host : RemoteHostConfig) : Except RemoteSyncError HostSchedule := do
  let schedule ← restoredSchedule input now restoreDurableState host
  pure (if report = some true then { schedule with lastAttempt := .processContainmentPause }
    else schedule)

/-- The body of the loop of `reconcile_hosts`: the record of a host from the one that it had. -/
def reconcileHost (input : TickInput) (now : Duration) (restoreDurableState : Bool)
    (pauses : Option (String → Option Bool)) (host : RemoteHostConfig)
    (existing : Option HostSchedule) : Except RemoteSyncError HostSchedule :=
  match existing with
  | some schedule =>
    if schedule.configuredHost = host then
      .ok { schedule with
        lastAttempt := afterReport (durableReport pauses host) schedule.lastAttempt }
    else .ok (HostSchedule.new host)
  | none => freshSchedule input now restoreDurableState (durableReport pauses host) host

/-- The loop: an error stops it and keeps the hosts reconciled so far. -/
def reconcileLoop (input : TickInput) (now : Duration) (restoreDurableState : Bool)
    (pauses : Option (String → Option Bool)) : List RemoteHostConfig →
    (String → Option HostSchedule) → (String → Option HostSchedule) × Except RemoteSyncError Unit
  | [], hosts => (hosts, .ok ())
  | host :: rest, hosts =>
    match reconcileHost input now restoreDurableState pauses host (hosts host.id) with
    | .ok schedule => reconcileLoop input now restoreDurableState pauses rest
        (Function.update hosts host.id (some schedule))
    | .error error => (hosts, .error error)

def retainEligible (eligible : List RemoteHostConfig) (hosts : String → Option HostSchedule) :
    String → Option HostSchedule :=
  fun id => if eligible.any (fun host => host.id == id) then hosts id else none

def reconcileHosts (s : RemoteSyncScheduler) (input : TickInput) (eligible : List RemoteHostConfig)
    (now : Duration) (pauses : Option (String → Option Bool)) :
    RemoteSyncScheduler × Except RemoteSyncError Unit :=
  let (hosts, result) := reconcileLoop input now s.restoreDurableState pauses eligible
    (retainEligible eligible s.hosts)
  match result with
  | .error error => ({ s with hosts }, .error error)
  | .ok _ => ({ s with
      hosts
      lastDispatchedHost := s.lastDispatchedHost.filter fun id => (hosts id).isSome }, .ok ())

/-! ## Selection -/

def nextDueHostIndex (s : RemoteSyncScheduler) (eligible : List RemoteHostConfig)
    (config : RemotesConfig) (now globalDue : Duration) : Option Nat :=
  if now < globalDue then none
  else
    let start := match s.lastDispatchedHost with
      | some last => match eligible.findIdx? fun host => host.id == last with
        | some index => (index + 1) % eligible.length
        | none => 0
      | none => 0
    ((List.range eligible.length).map fun offset => (start + offset) % eligible.length).find?
      fun index => match eligible[index]? with
        | some host => match (s.hosts host.id).bind (·.dueAt config) with
          | some dueAt => decide (dueAt ≤ now)
          | none => false
        | none => false

def strictlyPositive (delay : Duration) : Duration :=
  if delay = 0 then minDispatchSpacing else delay

def configuredIdleDelay (config : RemotesConfig) : Duration :=
  strictlyPositive (fromSecs config.idleIntervalSeconds)

def nextWakeDelay (s : RemoteSyncScheduler) (eligible : List RemoteHostConfig)
    (config : RemotesConfig) (now globalDue : Duration) : Duration :=
  let due := eligible.filterMap fun host =>
    ((s.hosts host.id).bind (·.dueAt config)).map (max globalDue)
  strictlyPositive ((due.min?.getD (now.saturatingAdd (configuredIdleDelay config))) - now)

/-! ## One tick -/

inductive RemoteSyncSchedulerTick
  | disabled (nextWakeIn : Duration)
  | noEligibleHosts (nextWakeIn : Duration)
  | waiting (nextWakeIn : Duration)
  | attempted (hostId : String) (configRevision : Nat) (source : Option SourceGeneration)
      (processContainmentUncertain : Bool) (result : Except RemoteSyncError RemoteSyncReport)
      (nextEligibleIn nextWakeIn : Duration)

def RemoteSyncSchedulerTick.nextWakeIn : RemoteSyncSchedulerTick → Duration
  | .disabled nextWakeIn => nextWakeIn
  | .noEligibleHosts nextWakeIn => nextWakeIn
  | .waiting nextWakeIn => nextWakeIn
  | .attempted _ _ _ _ _ _ nextWakeIn => nextWakeIn

/-- One call of `sync_host`. -/
structure Dispatch where
  host : RemoteHostConfig
  dispatchedAt : Duration
  finishedAt : Duration
  result : Except RemoteSyncError RemoteSyncReport
  processContainmentUncertain : Bool

structure TickResult where
  scheduler : RemoteSyncScheduler
  outcome : Except RemoteSyncError RemoteSyncSchedulerTick
  calls : List Dispatch

def monotonicNow (s : RemoteSyncScheduler) (observed : Duration) : RemoteSyncScheduler :=
  { s with lastObservedNow := max s.lastObservedNow observed }

def clearIneligibleState (s : RemoteSyncScheduler) : RemoteSyncScheduler :=
  { s with hosts := fun _ => none, lastDispatchedHost := none, lastDispatchFinishedAt := none }

def resultUncertain : Except RemoteSyncError RemoteSyncReport → Bool
  | .error .processContainment => true
  | .error (.transport uncertain) => uncertain
  | _ => false

/-- The failures that a failed attempt adds to. -/
def LastAttempt.previousFailures : LastAttempt → Nat
  | .failure _ consecutiveFailures => consecutiveFailures
  | .restored _ consecutiveFailures => consecutiveFailures
  | .budgetPause _ _ consecutiveFailures => consecutiveFailures
  | _ => 0

def reportRequiresImmediateActivePolling (report : RemoteSyncReport) : Bool :=
  decide (report.completion ≠ .complete)

/-- The activity window after a report. -/
def activeUntilAfter (report : RemoteSyncReport) (finishedAt : Duration)
    (activeUntil : Option Duration) : Option Duration :=
  if report.hasActivity then
    some (finishedAt.saturatingAdd automaticRemoteSyncActivityHysteresis)
  else activeUntil.filter fun until' => decide (finishedAt < until')

/-- The schedule after an attempt. -/
def recordAttempt (schedule : HostSchedule) (d : Dispatch) : HostSchedule :=
  if d.processContainmentUncertain then { schedule with lastAttempt := .processContainmentPause }
  else match d.result with
    | .ok report =>
      let activeUntil := activeUntilAfter report d.finishedAt schedule.activeUntil
      { schedule with
        activeUntil
        lastAttempt :=
          if reportRequiresImmediateActivePolling report ||
              activeUntil.any (fun until' => decide (d.finishedAt < until'))
          then .activeSuccess d.finishedAt else .idleSuccess d.finishedAt }
    | .error (.localError (some level)) => { schedule with
        lastAttempt := .budgetPause d.finishedAt (decide (level = .hard))
          schedule.lastAttempt.previousFailures }
    | .error _ => { schedule with
        lastAttempt := .failure d.finishedAt
          (Fallible.saturatingAdd 32 schedule.lastAttempt.previousFailures 1) }

/-- The part of a tick after a host was selected. -/
def dispatchHost (s : RemoteSyncScheduler) (input : TickInput) (eligible : List RemoteHostConfig)
    (now : Duration) (host : RemoteHostConfig) : TickResult :=
  match captureForAutomatic input.config host with
  | .error error => ⟨s, .error error, []⟩
  | .ok selected =>
    let result := input.syncHost selected
    let uncertain := resultUncertain result || input.takeProcessContainmentSignal host
    let s := monotonicNow s input.finishClock
    let finishedAt := s.lastObservedNow
    let d : Dispatch := ⟨host, now, finishedAt, result, uncertain⟩
    let schedule := (s.hosts host.id).map fun schedule => recordAttempt schedule d
    let s := { s with
      hosts := Function.update s.hosts host.id schedule
      lastDispatchedHost := some host.id
      lastDispatchFinishedAt := some finishedAt }
    let nextEligibleIn := match schedule.bind (·.dueAt input.config) with
      | some dueAt => dueAt - finishedAt
      | none => durationMax
    let nextWakeIn := nextWakeDelay s eligible input.config finishedAt
      (finishedAt.saturatingAdd minDispatchSpacing)
    ⟨s, .ok (.attempted host.id selected.configRevision host.expectedSource uncertain result
      nextEligibleIn nextWakeIn), [d]⟩

def tick (s : RemoteSyncScheduler) (input : TickInput) : TickResult :=
  let s := monotonicNow s input.clock
  let now := s.lastObservedNow
  let config := input.config
  if config.autoSyncEnabled = false then
    ⟨clearIneligibleState { s with restoreDurableState := false },
      .ok (.disabled (configuredIdleDelay config)), []⟩
  else
    let eligible := config.automaticHosts
    if eligible = [] then
      ⟨clearIneligibleState { s with restoreDurableState := false },
        .ok (.noEligibleHosts (configuredIdleDelay config)), []⟩
    else match input.processContainmentPausedHosts with
      | .error error => ⟨s, .error error, []⟩
      | .ok pauses =>
        match reconcileHosts s input eligible now pauses with
        | (s, .error error) => ⟨s, .error error, []⟩
        | (s, .ok _) =>
          let s := { s with restoreDurableState := false }
          let globalDue := match s.lastDispatchFinishedAt with
            | some finished => finished.saturatingAdd minDispatchSpacing
            | none => 0
          match (nextDueHostIndex s eligible config now globalDue).bind fun i => eligible[i]? with
          | none => ⟨s, .ok (.waiting (nextWakeDelay s eligible config now globalDue)), []⟩
          | some host => dispatchHost s input eligible now host

end Scheduler
