import Mathlib.Data.List.Sort
import UsageMonit.Domain.Time
import UsageMonit.Lib.Fallible

/-!
# The bandwidth ledger (`remote_bandwidth_budget.rs`)

A rolling budget of network bytes per source. Every operation runs under one exclusive lock: it
reads the ledger, changes it, checks the result and replaces the file (`mutate`), so a history of
concurrent callers is a sequence of operations. Entries are charges: bytes that were transferred,
or bytes reserved by an attempt that is still out.

The random bytes of an entry id and the size of the serialized ledger are parameters.
-/

namespace Bandwidth

open Fallible Time

def remoteBandwidthBudgetSchemaVersion : Nat := 1
def remoteBandwidthWindowHours : Int := 24
def remoteBandwidthSoftLimitBytes : Nat := 150 * 1024 * 1024
def remoteBandwidthHardLimitBytes : Nat := 250 * 1024 * 1024
def remoteBandwidthEstimatedBytesPerSshHop : Nat := 100 * 1024
def remoteBandwidthUnknownEffectiveHops : Nat := 3
def remoteBandwidthEstimatedSshExchangeOverheadBytes : Nat :=
  remoteBandwidthEstimatedBytesPerSshHop * remoteBandwidthUnknownEffectiveHops
/-- The smallest encoded response with its frame header. -/
def minRemoteSyncResponseBytes : Nat := 4 * 1024 + 20
def remoteBandwidthAutomaticProbeMaxResponseBytes : Nat := minRemoteSyncResponseBytes
def maxLedgerEntries : Nat := 65536
def maxEntriesPerSource : Nat := 2048
def maxHostIdBytes : Nat := 64
def maxBytesPerEntry : Nat := 512 * 1024 * 1024
def entryIdHexBytes : Nat := 32
def entryIdAttempts : Nat := 128

inductive RemoteBandwidthTransferKind
  | automaticBulk
  | automaticIncremental
  | automaticProbe
  | manual
  | manualOverride
deriving DecidableEq

inductive RemoteBandwidthBudgetLevel
  | soft
  | hard
deriving DecidableEq

inductive RemoteBandwidthPauseReason
  | limitReached
  | clockAnomaly
  | ledgerCapacity
deriving DecidableEq

abbrev NodeId := String

structure RemoteBandwidthUsage where
  hostId : String
  nodeId : Option NodeId
  committedBytes : Nat
  reservedBytes : Nat
  oldestExpiryAt : Option DateTime
deriving DecidableEq

def RemoteBandwidthUsage.rollingBytes (u : RemoteBandwidthUsage) : Nat :=
  saturatingAdd 64 u.committedBytes u.reservedBytes

structure RemoteBandwidthBudgetPause where
  usage : RemoteBandwidthUsage
  level : RemoteBandwidthBudgetLevel
  reason : RemoteBandwidthPauseReason
  limitBytes : Nat
  resumeAt : Option DateTime
deriving DecidableEq

structure RemoteBandwidthReservation where
  id : String
  hostId : String
  nodeId : Option NodeId
  startedAt : DateTime
  reservedBytes : Nat
  reservedTransportOverheadBytes : Nat
  kind : RemoteBandwidthTransferKind
deriving DecidableEq

inductive RemoteBandwidthAdmission
  | granted (reservation : RemoteBandwidthReservation)
  | paused (pause : RemoteBandwidthBudgetPause)
deriving DecidableEq

structure ReservationByteRequest where
  requestedTotalBytes : Nat
  reservedTransportOverheadBytes : Nat
  minimumGrantBytes : Nat
deriving DecidableEq

/-! ## Entries -/

inductive LedgerEntryKind
  | committed
  | reserved
deriving DecidableEq

structure LedgerEntry where
  id : String
  hostId : String
  nodeId : Option NodeId
  recordedAt : DateTime
  bytes : Nat
  kind : LedgerEntryKind
deriving DecidableEq

def windowDuration : Duration := hours remoteBandwidthWindowHours

def utcMinuteKey (value : DateTime) : Int := value / 1000000000 / 60

def hostIdHasValidShape (id : String) : Bool :=
  match id.toList with
  | [] => false
  | first :: rest =>
    decide (rest.length + 1 ≤ maxHostIdBytes) && first.isAlphanum &&
      (first :: rest).all fun c => c.isAlphanum || c == '-' || c == '_'

def validateHostId (id : String) : Except String Unit :=
  ensure (hostIdHasValidShape id = true)
    "remote host ID must contain 1 to 64 bytes and use only the configured host-ID alphabet"

def validateStoredHostId (id : String) : Except String Unit :=
  ensure (hostIdHasValidShape id = true) "remote bandwidth ledger contains an invalid host ID"

def validateEntryId (id : String) : Except String Unit :=
  ensure (id.toList.length = entryIdHexBytes ∧
      id.toList.all (fun c => c.isDigit || ('a' ≤ c && c ≤ 'f')) = true ∧
      ¬ id.toList.all (· == '0') = true)
    "remote bandwidth ledger contains an invalid entry ID"

def sourceStorageKey (hostId : String) : Option NodeId → String
  | some nodeId => "node:" ++ nodeId
  | none => "host:" ++ hostId

namespace LedgerEntry

def matchesSource (e : LedgerEntry) (hostId : String) : Option NodeId → Bool
  | some nodeId => decide (e.nodeId = some nodeId)
  | none => decide (e.nodeId = none ∧ e.hostId = hostId)

def expiresAt (e : LedgerEntry) : Except String DateTime :=
  okOr (checkedAddSigned e.recordedAt windowDuration)
    "remote bandwidth expiry timestamp overflows"

def validate (e : LedgerEntry) : Except String Unit := do
  validateStoredHostId e.hostId
  validateEntryId e.id
  ensure (¬ (e.bytes = 0 ∨ maxBytesPerEntry < e.bytes))
    "remote bandwidth entry byte count is outside the supported range"
  let _ ← e.expiresAt
  pure ()

/-- The order of the ledger file. -/
def before (a b : LedgerEntry) : Bool :=
  decide (a.recordedAt < b.recordedAt ∨ a.recordedAt = b.recordedAt ∧ a.id ≤ b.id)

end LedgerEntry

/-! ## The ledger -/

structure StoredRemoteBandwidthLedger where
  schemaVersion : Nat
  lastObservedAt : Option DateTime
  entries : List LedgerEntry
deriving DecidableEq

/-- The ledger of a store without a file. -/
def StoredRemoteBandwidthLedger.default : StoredRemoteBandwidthLedger where
  schemaVersion := remoteBandwidthBudgetSchemaVersion
  lastObservedAt := none
  entries := []

namespace StoredRemoteBandwidthLedger

/-- The loop of `validate`: ids and source keys seen so far, and the entry before. -/
def validateEntries : List LedgerEntry → List String → List String → Option (DateTime × String) →
    Except String Unit
  | [], _, _, _ => .ok ()
  | entry :: rest, ids, sources, previous => do
    entry.validate
    ensure (entry.id ∉ ids) "remote bandwidth ledger contains a duplicate entry ID"
    let key := sourceStorageKey entry.hostId entry.nodeId
    ensure (sources.count key + 1 ≤ maxEntriesPerSource)
      "remote bandwidth ledger has too many entries for one source"
    ensure (∀ p ∈ previous,
        p.1 < entry.recordedAt ∨ p.1 = entry.recordedAt ∧ p.2 < entry.id)
      "remote bandwidth ledger entries are not strictly sorted"
    validateEntries rest (entry.id :: ids) (key :: sources) (some (entry.recordedAt, entry.id))

def validate (l : StoredRemoteBandwidthLedger) : Except String Unit := do
  if l.schemaVersion ≠ remoteBandwidthBudgetSchemaVersion then
    .error ((if remoteBandwidthBudgetSchemaVersion < l.schemaVersion then "future"
        else "unsupported") ++ " remote bandwidth schema version " ++ toString l.schemaVersion ++
      "; expected " ++ toString remoteBandwidthBudgetSchemaVersion)
  ensure (l.entries.length ≤ maxLedgerEntries) "remote bandwidth ledger has too many entries"
  validateEntries l.entries [] [] none
  match l.lastObservedAt, l.entries.getLast? with
  | some lastObserved, some lastEntry =>
    ensure (lastEntry.recordedAt ≤ lastObserved)
      "remote bandwidth last-observed time precedes a ledger entry"
  | _, _ => .ok ()

def sortEntries (l : StoredRemoteBandwidthLedger) : StoredRemoteBandwidthLedger :=
  { l with entries := l.entries.insertionSort fun a b => a.before b = true }

/-- The latest recorded instant after `now`. -/
def clockAnomalyAt (l : StoredRemoteBandwidthLedger) (now : DateTime) : Option DateTime :=
  (l.lastObservedAt.toList ++ l.entries.map (·.recordedAt)).filter (fun t => decide (now < t))
    |>.max?

def advanceClockAndPrune (l : StoredRemoteBandwidthLedger) (now : DateTime) :
    Except String StoredRemoteBandwidthLedger := do
  ensure (l.clockAnomalyAt now = none) "remote bandwidth clock moved backwards"
  let cutoff ← okOr (checkedSubSigned now windowDuration)
    "remote bandwidth window timestamp underflows"
  pure { l with
    entries := l.entries.filter fun entry => decide (cutoff < entry.recordedAt)
    lastObservedAt := some now }

def sourceEntries (l : StoredRemoteBandwidthLedger) (hostId : String) (nodeId : Option NodeId) :
    List LedgerEntry :=
  l.entries.filter fun entry => entry.matchesSource hostId nodeId

/-- The body of the loop of `usage`. -/
def addUsage (u : RemoteBandwidthUsage) (entry : LedgerEntry) : RemoteBandwidthUsage :=
  let u := match entry.kind with
    | .committed => { u with committedBytes := saturatingAdd 64 u.committedBytes entry.bytes }
    | .reserved => { u with reservedBytes := saturatingAdd 64 u.reservedBytes entry.bytes }
  match entry.expiresAt with
  | .ok expiry => { u with
      oldestExpiryAt := some (match u.oldestExpiryAt with
        | some oldest => min oldest expiry
        | none => expiry) }
  | .error _ => u

def usage (l : StoredRemoteBandwidthLedger) (hostId : String) (nodeId : Option NodeId) :
    RemoteBandwidthUsage :=
  (l.sourceEntries hostId nodeId).foldl addUsage ⟨hostId, nodeId, 0, 0, none⟩

/-- The loops of `resume_below`: after the last entry of an instant, whether the rest is below the
threshold. -/
def resumeBelowLoop (threshold : Nat) : Nat → List LedgerEntry → Option DateTime
  | _, [] => none
  | remaining, entry :: rest =>
    let remaining := remaining - entry.bytes
    if rest.head?.map (·.recordedAt) = some entry.recordedAt then
      resumeBelowLoop threshold remaining rest
    else if remaining < threshold then checkedAddSigned entry.recordedAt windowDuration
    else resumeBelowLoop threshold remaining rest

def resumeBelow (l : StoredRemoteBandwidthLedger) (hostId : String) (nodeId : Option NodeId)
    (threshold : Nat) : Option DateTime :=
  resumeBelowLoop threshold (l.usage hostId nodeId).rollingBytes
    ((l.sourceEntries hostId nodeId).insertionSort fun a b => a.recordedAt ≤ b.recordedAt)

def sourceEntryCount (l : StoredRemoteBandwidthLedger) (hostId : String) (nodeId : Option NodeId) :
    Nat :=
  (l.sourceEntries hostId nodeId).length

/-! ### Minute buckets -/

/-- The entries kept so far, and for each source and minute the last bin opened for it. -/
structure Compaction where
  compacted : List LedgerEntry
  committedGroups : List ((String × Int) × Nat)
deriving DecidableEq

def bucketKey (entry : LedgerEntry) : String × Int :=
  (sourceStorageKey entry.hostId entry.nodeId, utcMinuteKey entry.recordedAt)

/-- Charging an entry to an existing bin: the whole bin expires with its latest event. -/
def absorb (entry previous : LedgerEntry) : LedgerEntry :=
  { previous with
    bytes := previous.bytes + entry.bytes
    recordedAt := max previous.recordedAt entry.recordedAt }

def openBin (c : Compaction) (entry : LedgerEntry) : Compaction where
  compacted := c.compacted ++ [entry]
  committedGroups := (bucketKey entry, c.compacted.length) :: c.committedGroups

def compactEntry (c : Compaction) (entry : LedgerEntry) : Except String Compaction :=
  if entry.kind = .reserved then pure { c with compacted := c.compacted ++ [entry] }
  else match c.committedGroups.lookup (bucketKey entry) with
    | none => pure (openBin c entry)
    | some index => do
      let previous ← okOr c.compacted[index]? "committed bin is missing"
      let combined ← okOr (checkedAdd 64 previous.bytes entry.bytes)
        "remote bandwidth compacted bytes overflow"
      if combined ≤ maxBytesPerEntry then
        pure { c with compacted := c.compacted.modify index (absorb entry) }
      else pure (openBin c entry)

def mergeCommittedMinuteBuckets (l : StoredRemoteBandwidthLedger) :
    Except String StoredRemoteBandwidthLedger := do
  let sorted := l.sortEntries
  let c ← sorted.entries.foldlM compactEntry ⟨[], []⟩
  pure ({ sorted with entries := c.compacted } : StoredRemoteBandwidthLedger).sortEntries

end StoredRemoteBandwidthLedger

end Bandwidth
