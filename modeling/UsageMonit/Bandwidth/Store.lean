import UsageMonit.Bandwidth.Ledger
import UsageMonit.Lib.Numerals

/-!
# Admissions and settlements

The operations of `RemoteBandwidthBudgetStore`, each one `mutate` of the ledger, and the runs of a
store: `StoreState` carries, besides the ledger, what really happened (`settled` transfers and
`outstanding` attempts), so that the ledger's view can be compared with it.
-/

namespace Bandwidth

open Fallible Time

/-- The serialized size is within `MAX_BUDGET_FILE_BYTES`. -/
abbrev FileBound := StoredRemoteBandwidthLedger → Bool

section
variable (fits : FileBound)

/-- One operation under the exclusive lock. The file is checked when it is read and before it is
written; an error leaves it as it was. -/
def mutate {α : Type} (ledger : StoredRemoteBandwidthLedger)
    (operation : StoredRemoteBandwidthLedger → Except String (StoredRemoteBandwidthLedger × α)) :
    Except String (StoredRemoteBandwidthLedger × α) := do
  ledger.validate
  let (next, result) ← operation ledger
  next.validate
  ensure (fits next = true) "remote bandwidth ledger file is too large"
  pure (next, result)

/-! ## Admission -/

/-- `allocate_entry_id`: the first of the random ids that is usable. -/
def allocateEntryId (random : List String) (entries : List LedgerEntry) : Except String String :=
  okOr ((random.take entryIdAttempts).find? fun id =>
      !id.toList.all (· == '0') && !entries.any fun entry => entry.id == id)
    "could not allocate a unique remote bandwidth ledger ID"

def overrideHard : RemoteBandwidthTransferKind → Bool
  | .manualOverride => true
  | .automaticProbe => true
  | _ => false

/-- The checks of the request before the ledger is opened. -/
def checkByteRequest (kind : RemoteBandwidthTransferKind) (bytes : ReservationByteRequest) :
    Except String Unit := do
  ensure (¬ (bytes.requestedTotalBytes = 0 ∨ maxBytesPerEntry < bytes.requestedTotalBytes ∨
      bytes.minimumGrantBytes = 0 ∨ bytes.requestedTotalBytes < bytes.minimumGrantBytes ∨
      bytes.minimumGrantBytes ≤ bytes.reservedTransportOverheadBytes))
    "remote bandwidth requested bytes are outside the supported range"
  if kind = .automaticProbe then
    let expectedTotal := remoteBandwidthAutomaticProbeMaxResponseBytes +
      remoteBandwidthEstimatedSshExchangeOverheadBytes
    ensure (bytes.requestedTotalBytes = expectedTotal ∧ bytes.minimumGrantBytes = expectedTotal ∧
        bytes.reservedTransportOverheadBytes = remoteBandwidthEstimatedSshExchangeOverheadBytes)
      "automatic remote probe requires the fixed bounded reservation"

def earliestExpiry (entries : List LedgerEntry) : Option DateTime :=
  (entries.filterMap fun entry => entry.expiresAt.toOption).min?

/-- What the limits leave of a request. -/
def grantedBytes (kind : RemoteBandwidthTransferKind) (requested rolling : Nat) : Nat :=
  let granted := if overrideHard kind then requested
    else min requested (remoteBandwidthHardLimitBytes - rolling)
  if kind = .automaticBulk then min granted (remoteBandwidthSoftLimitBytes - rolling) else granted

/-- The part of `begin_attempt_inner` after the clock was advanced and the buckets were merged. -/
def admitAttempt (ledger : StoredRemoteBandwidthLedger) (hostId : String) (nodeId : Option NodeId)
    (now : DateTime) (kind : RemoteBandwidthTransferKind) (bytes : ReservationByteRequest)
    (random : List String) :
    Except String (StoredRemoteBandwidthLedger × RemoteBandwidthAdmission) := do
  let usage := ledger.usage hostId nodeId
  let rolling := usage.rollingBytes
  if overrideHard kind = false ∧ remoteBandwidthHardLimitBytes ≤ rolling then
    return (ledger, .paused ⟨usage, .hard, .limitReached, remoteBandwidthHardLimitBytes,
      ledger.resumeBelow hostId nodeId remoteBandwidthHardLimitBytes⟩)
  if kind = .automaticBulk ∧ remoteBandwidthSoftLimitBytes ≤ rolling then
    return (ledger, .paused ⟨usage, .soft, .limitReached, remoteBandwidthSoftLimitBytes,
      ledger.resumeBelow hostId nodeId remoteBandwidthSoftLimitBytes⟩)
  let globalCapacityReached := decide (maxLedgerEntries ≤ ledger.entries.length)
  let sourceCapacityReached :=
    decide (maxEntriesPerSource ≤ ledger.sourceEntryCount hostId nodeId)
  if globalCapacityReached || sourceCapacityReached then
    return (ledger, .paused ⟨usage, .hard, .ledgerCapacity, remoteBandwidthHardLimitBytes,
      if globalCapacityReached then earliestExpiry ledger.entries
      else earliestExpiry (ledger.sourceEntries hostId nodeId)⟩)
  let granted := grantedBytes kind bytes.requestedTotalBytes rolling
  if granted < bytes.minimumGrantBytes then
    let (level, limit) := if kind = .automaticBulk
      then (RemoteBandwidthBudgetLevel.soft, remoteBandwidthSoftLimitBytes)
      else (.hard, remoteBandwidthHardLimitBytes)
    return (ledger, .paused ⟨usage, level, .limitReached, limit,
      ledger.resumeBelow hostId nodeId limit⟩)
  let id ← allocateEntryId random ledger.entries
  let entry : LedgerEntry := ⟨id, hostId, nodeId, now, granted, .reserved⟩
  return (({ ledger with entries := ledger.entries ++ [entry] } :
      StoredRemoteBandwidthLedger).sortEntries,
    .granted ⟨id, hostId, nodeId, now, granted, bytes.reservedTransportOverheadBytes, kind⟩)

def beginAttemptInner (ledger : StoredRemoteBandwidthLedger) (hostId : String)
    (nodeId : Option NodeId) (now : DateTime) (kind : RemoteBandwidthTransferKind)
    (bytes : ReservationByteRequest) (random : List String) :
    Except String (StoredRemoteBandwidthLedger × RemoteBandwidthAdmission) := do
  validateHostId hostId
  checkByteRequest kind bytes
  mutate fits ledger fun ledger =>
    match ledger.clockAnomalyAt now with
    | some resumeAt => .ok (ledger, .paused ⟨ledger.usage hostId nodeId, .hard, .clockAnomaly,
        remoteBandwidthHardLimitBytes, some resumeAt⟩)
    | none => do
      let ledger ← ledger.advanceClockAndPrune now
      let ledger ← ledger.mergeCommittedMinuteBuckets
      admitAttempt ledger hostId nodeId now kind bytes random

def beginAttempt (ledger : StoredRemoteBandwidthLedger) (hostId : String)
    (nodeId : Option NodeId) (now : DateTime) (kind : RemoteBandwidthTransferKind)
    (requestedMaxResponseBytes : Nat) (random : List String) :
    Except String (StoredRemoteBandwidthLedger × RemoteBandwidthAdmission) :=
  beginAttemptInner fits ledger hostId nodeId now kind ⟨requestedMaxResponseBytes, 0, 1⟩ random

def beginSyncAttempt (ledger : StoredRemoteBandwidthLedger) (hostId : String)
    (nodeId : Option NodeId) (now : DateTime) (kind : RemoteBandwidthTransferKind)
    (requestedMaxResponseBytes maxExchanges : Nat) (random : List String) :
    Except String (StoredRemoteBandwidthLedger × RemoteBandwidthAdmission) := do
  ensure (maxExchanges ≠ 0) "remote bandwidth sync reservation requires at least one exchange"
  let overhead := maxExchanges * remoteBandwidthEstimatedSshExchangeOverheadBytes
  ensure (overhead < 2 ^ 64) "remote bandwidth reservation overhead overflows usize"
  let requestedTotal ← okOr (checkedAdd 64 requestedMaxResponseBytes overhead)
    "remote bandwidth reservation total overflows usize"
  let minimumTotal ← okOr (checkedAdd 64 minRemoteSyncResponseBytes overhead)
    "remote bandwidth minimum reservation overflows usize"
  beginAttemptInner fits ledger hostId nodeId now kind ⟨requestedTotal, overhead, minimumTotal⟩
    random

def beginAutomaticProbeAttempt (ledger : StoredRemoteBandwidthLedger) (hostId : String)
    (nodeId : Option NodeId) (now : DateTime) (random : List String) :
    Except String (StoredRemoteBandwidthLedger × RemoteBandwidthAdmission) :=
  let overhead := remoteBandwidthEstimatedSshExchangeOverheadBytes
  let requestedTotal := remoteBandwidthAutomaticProbeMaxResponseBytes + overhead
  beginAttemptInner fits ledger hostId nodeId now .automaticProbe
    ⟨requestedTotal, overhead, requestedTotal⟩ random

/-! ## Settlement -/

def ensureCompletionClock (reservation : RemoteBandwidthReservation) (completedAt : DateTime) :
    Except String Unit :=
  ensure (¬ completedAt < reservation.startedAt)
    "remote bandwidth completion clock moved backwards; reservation retained"

/-- The entry that an admission wrote for its reservation. -/
def RemoteBandwidthReservation.entry (r : RemoteBandwidthReservation) : LedgerEntry :=
  ⟨r.id, r.hostId, r.nodeId, r.startedAt, r.reservedBytes, .reserved⟩

/-- `find_reservation`: every stored field must agree. -/
def findReservation (ledger : StoredRemoteBandwidthLedger)
    (reservation : RemoteBandwidthReservation) : Except String Nat :=
  okOr (ledger.entries.findIdx? fun entry => decide (entry = reservation.entry))
    "remote bandwidth reservation is missing or no longer current"

def observed (ledger : StoredRemoteBandwidthLedger) (at' : DateTime) : Option DateTime :=
  some (match ledger.lastObservedAt with
    | some time => max time at'
    | none => at')

def completeAttempt (ledger : StoredRemoteBandwidthLedger)
    (reservation : RemoteBandwidthReservation) (completedAt : DateTime)
    (explicitTotalBytes : Nat) :
    Except String (StoredRemoteBandwidthLedger × RemoteBandwidthUsage) := do
  ensure (explicitTotalBytes ≤ maxBytesPerEntry)
    "remote bandwidth total exceeds the supported entry bound"
  mutate fits ledger fun ledger => do
    ensureCompletionClock reservation completedAt
    let index ← findReservation ledger reservation
    let entries := ledger.entries.eraseIdx index
    let entries := if 0 < explicitTotalBytes then
        entries ++ [⟨reservation.id, reservation.hostId, reservation.nodeId, completedAt,
          explicitTotalBytes, .committed⟩]
      else entries
    let ledger ← ({ ledger with entries, lastObservedAt := observed ledger completedAt } :
      StoredRemoteBandwidthLedger).mergeCommittedMinuteBuckets
    pure (ledger, ledger.usage reservation.hostId reservation.nodeId)

def cancelAttempt (ledger : StoredRemoteBandwidthLedger)
    (reservation : RemoteBandwidthReservation) (cancelledAt : DateTime) :
    Except String (StoredRemoteBandwidthLedger × RemoteBandwidthUsage) :=
  mutate fits ledger fun ledger => do
    ensureCompletionClock reservation cancelledAt
    let index ← findReservation ledger reservation
    let ledger : StoredRemoteBandwidthLedger := { ledger with
      entries := ledger.entries.eraseIdx index
      lastObservedAt := observed ledger cancelledAt }
    pure (ledger, ledger.usage reservation.hostId reservation.nodeId)

def usageAt (ledger : StoredRemoteBandwidthLedger) (hostId : String) (nodeId : Option NodeId)
    (now : DateTime) : Except String (StoredRemoteBandwidthLedger ×
      Except RemoteBandwidthBudgetPause RemoteBandwidthUsage) := do
  validateHostId hostId
  mutate fits ledger fun ledger =>
    match ledger.clockAnomalyAt now with
    | some resumeAt => .ok (ledger, .error ⟨ledger.usage hostId nodeId, .hard, .clockAnomaly,
        remoteBandwidthHardLimitBytes, some resumeAt⟩)
    | none => do
      let ledger ← ledger.advanceClockAndPrune now
      pure (ledger, .ok (ledger.usage hostId nodeId))

def checkLoadedPolicy (ledger : StoredRemoteBandwidthLedger) (hostId : String)
    (nodeId : Option NodeId) (kind : RemoteBandwidthTransferKind) :
    Except RemoteBandwidthBudgetPause RemoteBandwidthUsage :=
  let usage := ledger.usage hostId nodeId
  let rolling := usage.rollingBytes
  if overrideHard kind = false ∧ remoteBandwidthHardLimitBytes ≤ rolling then
    .error ⟨usage, .hard, .limitReached, remoteBandwidthHardLimitBytes,
      ledger.resumeBelow hostId nodeId remoteBandwidthHardLimitBytes⟩
  else if kind = .automaticBulk ∧ remoteBandwidthSoftLimitBytes ≤ rolling then
    .error ⟨usage, .soft, .limitReached, remoteBandwidthSoftLimitBytes,
      ledger.resumeBelow hostId nodeId remoteBandwidthSoftLimitBytes⟩
  else .ok usage

def check (ledger : StoredRemoteBandwidthLedger) (hostId : String) (nodeId : Option NodeId)
    (now : DateTime) (kind : RemoteBandwidthTransferKind) :
    Except String (StoredRemoteBandwidthLedger ×
      Except RemoteBandwidthBudgetPause RemoteBandwidthUsage) := do
  validateHostId hostId
  mutate fits ledger fun ledger =>
    match ledger.clockAnomalyAt now with
    | some resumeAt => .ok (ledger, .error ⟨ledger.usage hostId nodeId, .hard, .clockAnomaly,
        remoteBandwidthHardLimitBytes, some resumeAt⟩)
    | none => do
      let ledger ← ledger.advanceClockAndPrune now
      pure (ledger, checkLoadedPolicy ledger hostId nodeId kind)

end

/-! ## The ledger an operation hands to `mutate` -/

/-- The text of an entry id: its sixteen random bytes in hexadecimal. -/
def entryIdText (random : Fin (2 ^ 128)) : String :=
  String.ofList (Hex.toHex entryIdHexBytes random.val)

/-- A call of the store, with the bytes that the random source would deliver. The three ways to
begin an attempt differ in the bytes they request. -/
inductive LedgerOperation
  | begin (hostId : String) (nodeId : Option NodeId) (now : DateTime)
      (kind : RemoteBandwidthTransferKind) (bytes : ReservationByteRequest)
      (random : List (Fin (2 ^ 128)))
  | complete (reservation : RemoteBandwidthReservation) (completedAt : DateTime)
      (explicitTotalBytes : Nat)
  | cancel (reservation : RemoteBandwidthReservation) (cancelledAt : DateTime)
  | usage (hostId : String) (nodeId : Option NodeId) (now : DateTime)
  | check (hostId : String) (nodeId : Option NodeId) (now : DateTime)
      (kind : RemoteBandwidthTransferKind)

namespace LedgerOperation

/-- The checks of the arguments, before the ledger is opened. -/
def checkArguments : LedgerOperation → Except String Unit
  | begin hostId _ _ kind bytes _ => do
    validateHostId hostId
    checkByteRequest kind bytes
  | complete _ _ explicitTotalBytes => ensure (explicitTotalBytes ≤ maxBytesPerEntry)
      "remote bandwidth total exceeds the supported entry bound"
  | cancel _ _ => .ok ()
  | usage hostId _ _ => validateHostId hostId
  | check hostId _ _ _ => validateHostId hostId

/-- The closure that the call gives to `mutate`, by the ledger it leaves. -/
def body (ledger : StoredRemoteBandwidthLedger) : LedgerOperation →
    Except String StoredRemoteBandwidthLedger
  | begin hostId nodeId now kind bytes random =>
    match ledger.clockAnomalyAt now with
    | some _ => .ok ledger
    | none => do
      let ledger ← ledger.advanceClockAndPrune now
      let ledger ← ledger.mergeCommittedMinuteBuckets
      let (ledger, _) ← admitAttempt ledger hostId nodeId now kind bytes (random.map entryIdText)
      pure ledger
  | complete reservation completedAt explicitTotalBytes => do
    ensureCompletionClock reservation completedAt
    let index ← findReservation ledger reservation
    let entries := ledger.entries.eraseIdx index
    let entries := if 0 < explicitTotalBytes then
        entries ++ [⟨reservation.id, reservation.hostId, reservation.nodeId, completedAt,
          explicitTotalBytes, .committed⟩]
      else entries
    ({ ledger with entries, lastObservedAt := observed ledger completedAt } :
      StoredRemoteBandwidthLedger).mergeCommittedMinuteBuckets
  | cancel reservation cancelledAt => do
    ensureCompletionClock reservation cancelledAt
    let index ← findReservation ledger reservation
    pure { ledger with
      entries := ledger.entries.eraseIdx index
      lastObservedAt := observed ledger cancelledAt }
  | usage _ _ now | check _ _ now _ =>
    match ledger.clockAnomalyAt now with
    | some _ => .ok ledger
    | none => ledger.advanceClockAndPrune now

def run (fits : FileBound) (ledger : StoredRemoteBandwidthLedger) : LedgerOperation →
    Except String StoredRemoteBandwidthLedger
  | begin hostId nodeId now kind bytes random => Prod.fst <$>
      beginAttemptInner fits ledger hostId nodeId now kind bytes (random.map entryIdText)
  | complete reservation completedAt explicitTotalBytes => Prod.fst <$>
      completeAttempt fits ledger reservation completedAt explicitTotalBytes
  | cancel reservation cancelledAt => Prod.fst <$>
      cancelAttempt fits ledger reservation cancelledAt
  | usage hostId nodeId now => Prod.fst <$> usageAt fits ledger hostId nodeId now
  | check hostId nodeId now kind => Prod.fst <$> Bandwidth.check fits ledger hostId nodeId now kind

end LedgerOperation

/-! ## Runs -/

structure Settlement where
  hostId : String
  nodeId : Option NodeId
  completedAt : DateTime
  bytes : Nat
deriving DecidableEq

/-- The ledger, with every settled transfer and, by their entries, the attempts that are out. -/
structure StoreState where
  ledger : StoredRemoteBandwidthLedger
  settled : List Settlement
  outstanding : List LedgerEntry

def StoreState.init : StoreState := ⟨.default, [], []⟩

/-- One admission by any of the three entry points. -/
inductive Admits (fits : FileBound) (ledger : StoredRemoteBandwidthLedger) (hostId : String)
    (nodeId : Option NodeId) (now : DateTime) : RemoteBandwidthTransferKind →
    StoredRemoteBandwidthLedger → RemoteBandwidthAdmission → Prop
  | attempt {kind : RemoteBandwidthTransferKind} (requested : Nat) (random : List String)
      {ledger' : StoredRemoteBandwidthLedger} {admission : RemoteBandwidthAdmission} :
      beginAttempt fits ledger hostId nodeId now kind requested random = .ok (ledger', admission) →
      Admits fits ledger hostId nodeId now kind ledger' admission
  | sync {kind : RemoteBandwidthTransferKind} (requested maxExchanges : Nat)
      (random : List String) {ledger' : StoredRemoteBandwidthLedger}
      {admission : RemoteBandwidthAdmission} :
      beginSyncAttempt fits ledger hostId nodeId now kind requested maxExchanges random =
        .ok (ledger', admission) →
      Admits fits ledger hostId nodeId now kind ledger' admission
  | probe (random : List String) {ledger' : StoredRemoteBandwidthLedger}
      {admission : RemoteBandwidthAdmission} :
      beginAutomaticProbeAttempt fits ledger hostId nodeId now random = .ok (ledger', admission) →
      Admits fits ledger hostId nodeId now .automaticProbe ledger' admission

inductive StoreStep (fits : FileBound) : StoreState → StoreState → Prop
  | grant {s : StoreState} {hostId : String} {nodeId : Option NodeId} {now : DateTime}
      {kind : RemoteBandwidthTransferKind} {ledger : StoredRemoteBandwidthLedger}
      {reservation : RemoteBandwidthReservation} :
      Admits fits s.ledger hostId nodeId now kind ledger (.granted reservation) →
      StoreStep fits s { s with ledger, outstanding := reservation.entry :: s.outstanding }
  | pause {s : StoreState} {hostId : String} {nodeId : Option NodeId} {now : DateTime}
      {kind : RemoteBandwidthTransferKind} {ledger : StoredRemoteBandwidthLedger}
      {pause : RemoteBandwidthBudgetPause} :
      Admits fits s.ledger hostId nodeId now kind ledger (.paused pause) →
      StoreStep fits s { s with ledger }
  | complete {s : StoreState} (reservation : RemoteBandwidthReservation) (completedAt : DateTime)
      (total : Nat) {ledger : StoredRemoteBandwidthLedger} {usage : RemoteBandwidthUsage} :
      completeAttempt fits s.ledger reservation completedAt total = .ok (ledger, usage) →
      StoreStep fits s ⟨ledger,
        ⟨reservation.hostId, reservation.nodeId, completedAt, total⟩ :: s.settled,
        s.outstanding.erase reservation.entry⟩
  | cancel {s : StoreState} (reservation : RemoteBandwidthReservation) (cancelledAt : DateTime)
      {ledger : StoredRemoteBandwidthLedger} {usage : RemoteBandwidthUsage} :
      cancelAttempt fits s.ledger reservation cancelledAt = .ok (ledger, usage) →
      StoreStep fits s { s with ledger, outstanding := s.outstanding.erase reservation.entry }
  | usage {s : StoreState} (hostId : String) (nodeId : Option NodeId) (now : DateTime)
      {ledger : StoredRemoteBandwidthLedger}
      {result : Except RemoteBandwidthBudgetPause RemoteBandwidthUsage} :
      usageAt fits s.ledger hostId nodeId now = .ok (ledger, result) →
      StoreStep fits s { s with ledger }
  | check {s : StoreState} (hostId : String) (nodeId : Option NodeId) (now : DateTime)
      (kind : RemoteBandwidthTransferKind) {ledger : StoredRemoteBandwidthLedger}
      {result : Except RemoteBandwidthBudgetPause RemoteBandwidthUsage} :
      check fits s.ledger hostId nodeId now kind = .ok (ledger, result) →
      StoreStep fits s { s with ledger }
  | fail (s : StoreState) : StoreStep fits s s

inductive StoreReachable (fits : FileBound) : StoreState → Prop
  | init : StoreReachable fits .init
  | step {s s' : StoreState} : StoreReachable fits s → StoreStep fits s s' →
      StoreReachable fits s'

end Bandwidth
