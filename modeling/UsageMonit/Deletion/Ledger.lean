import Mathlib.Data.List.Sort
import UsageMonit.Domain.Usage
import UsageMonit.Lib.Text

/-!
# The ledger of deleted sessions (`deleted_sessions.rs`)

The records saved before a session is deleted, and the two transactions that write the ledger:
`prepareDelete` publishes the pending records of an operation, merged with what is saved already,
and `setDeletionOutcome` records what became of a member. A payload is the record it encodes; the
length of its encoding is a parameter, as are the digest of a call without an event id, the
segmentation of a title into graphemes and the iteration order of a hash map.
-/

namespace Deletion

open Fallible Text Time Usage

inductive DeletionStatus
  | pending
  | deleted
  | unknown
  | partially
  | failed
deriving DecidableEq

structure PendingDeletionReceipt where
  operationId : String
  threadId : String
deriving DecidableEq

structure DeletedUsageCall where
  timestamp : DateTime
  threadId : String
  turnId : Option String
  usageEventId : Option String
  usageEventIdentityExact : Bool
  model : Option String
  serviceTier : Option String
  tokens : TokenUsage
  requestUsageExact : Bool
deriving DecidableEq

def DeletedUsageCall.from (call : UsageCall) : DeletedUsageCall where
  timestamp := call.timestamp
  threadId := call.threadId
  turnId := call.turnId
  usageEventId := call.usageEventId
  usageEventIdentityExact := call.usageEventIdentityExact
  model := call.model
  serviceTier := call.serviceTier
  tokens := call.tokens
  requestUsageExact := call.requestUsageExact

def DeletedUsageCall.toCall (call : DeletedUsageCall) : UsageCall where
  timestamp := call.timestamp
  threadId := call.threadId
  turnId := call.turnId
  usageEventId := call.usageEventId
  usageEventIdentityExact := call.usageEventIdentityExact
  model := call.model
  serviceTier := call.serviceTier
  tokens := call.tokens
  requestUsageExact := call.requestUsageExact

structure DeletedTurn where
  turnId : String
  model : Option String
  serviceTier : Option String
  startedAt : Option DateTime
  completedAt : Option DateTime
  durationMs : Option Nat
  status : TurnStatus
deriving DecidableEq

structure DeletedSessionRecord where
  threadId : String
  title : String
  parentThreadId : Option String
  cwd : Option String
  source : Option String
  createdAt : Option DateTime
  updatedAt : Option DateTime
  capturedAt : DateTime
  deletedAt : Option DateTime
  status : DeletionStatus
  calls : List DeletedUsageCall
  turns : List DeletedTurn
  agentInteractions : List AgentInteraction
deriving DecidableEq

/-- What the ledger takes from outside of it. -/
structure LedgerEnv where
  graphemes : String → List String
  /-- The hexadecimal SHA-256 digest of a call's JSON. -/
  observationDigest : DeletedUsageCall → String
  /-- The length of a record's JSON. -/
  encodedLength : DeletedSessionRecord → Nat
  /-- The order in which the hash maps of an operation give up their values. -/
  intoValues : String → List DeletedUsageCall → List DeletedUsageCall
  intoValues_perm : ∀ seed calls, (intoValues seed calls).Perm calls

def maxRecordBytes : Nat := 64 * 1024 * 1024

def maxReadBytes : Nat := 256 * 1024 * 1024

def maxRecords : Nat := 100000

def maxCalls : Nat := 500000

def maxPendingReceipts : Nat := 512

structure LedgerReadBudget where
  records : Nat
  recordBytes : Nat
  totalBytes : Nat

def ledgerReadBudget : LedgerReadBudget := ⟨maxRecords, maxRecordBytes, maxReadBytes⟩

/-! ## Texts -/

def isBidiControl (c : Char) : Bool :=
  [0x061c, 0x200e, 0x200f].contains c.toNat || (0x202a ≤ c.toNat && c.toNat ≤ 0x202e) ||
    (0x2066 ≤ c.toNat && c.toNat ≤ 0x2069)

def terminalSafeText (value : String) : String :=
  String.ofList (value.toList.map fun c => if isControl c || isBidiControl c then ' ' else c)

def shortTitle (env : LedgerEnv) (title : String) : String :=
  let safe := terminalSafeText title
  let normalized := " ".intercalate (splitWhitespace safe)
  String.join ((env.graphemes normalized).take 80)

def noControl (text : String) : Bool := !text.toList.any isControl

/-! ## Records -/

def DeletedUsageCall.key (env : LedgerEnv) (call : DeletedUsageCall) : String :=
  match call.usageEventId with
  | some id => "event:" ++ id
  | none => "observation:" ++ env.observationDigest call

/-- The texts of a call that enter a calculation. -/
def DeletedUsageCall.texts (call : DeletedUsageCall) : List String :=
  [call.turnId, call.model, call.serviceTier, call.usageEventId].filterMap id

/-- The loop of `validate` over the calls; `keys` are the keys seen before. -/
def DeletedSessionRecord.validateCalls (env : LedgerEnv) (record : DeletedSessionRecord) :
    List String → List DeletedUsageCall → Except String Unit
  | _, [] => .ok ()
  | keys, call :: calls => do
    ensure (call.threadId = record.threadId ∧ call.timestamp ≤ record.capturedAt)
      "deleted-session call violates its frozen owner or time boundary"
    ensure (call.key env ∉ keys) "duplicate deleted-session usage event"
    ensure (∀ text ∈ call.texts, text.utf8ByteSize ≤ 4096 ∧ noControl text = true)
      "invalid deleted-session calculation identity"
    record.validateCalls env (call.key env :: keys) calls

def isRemoteSource (source : Option String) : Bool :=
  source.any fun source => "remote:".toList.isPrefixOf source.toList

def DeletedSessionRecord.validate (env : LedgerEnv) (record : DeletedSessionRecord) :
    Except String Unit := do
  ensure (record.threadId ≠ "" ∧ record.threadId.utf8ByteSize ≤ 256)
    "invalid deleted-session thread identity"
  ensure (record.calls.length ≤ maxCalls ∧ record.turns.length ≤ maxCalls)
    "deleted-session evidence exceeds its record limit"
  ensure (isRemoteSource record.source = false)
    "a local deletion ledger cannot accept a remote source"
  ensure (record.title.utf8ByteSize ≤ 4096 ∧ noControl record.title = true)
    "invalid deleted-session short title"
  record.validateCalls env [] record.calls

/-- `Ord for Option`: nothing comes first. -/
def optionLe {α : Type} (le : α → α → Bool) : Option α → Option α → Bool
  | none, _ => true
  | some _, none => false
  | some a, some b => le a b

def optionMax (a b : Option DateTime) : Option DateTime :=
  if optionLe (fun x y => decide (x ≤ y)) a b then b else a

/-- The order of a merged record's calls. -/
def callLe (left right : DeletedUsageCall) : Bool :=
  decide (left.timestamp < right.timestamp) ||
    (decide (left.timestamp = right.timestamp) &&
      optionLe (fun x y => decide (x ≤ y)) left.usageEventId right.usageEventId)

/-- The saved call of a key, in the map from keys to calls. -/
def savedCall (env : LedgerEnv) (saved : List DeletedUsageCall) (key : String) :
    Option DeletedUsageCall :=
  saved.find? fun call => call.key env = key

/-- The loop of `merge_saved_record` over the incoming calls; the map's values are a list. -/
def mergeCalls (env : LedgerEnv) :
    List DeletedUsageCall → List DeletedUsageCall → Except String (List DeletedUsageCall)
  | saved, [] => .ok saved
  | saved, call :: calls =>
    match savedCall env saved (call.key env) with
    | some previous => do
      ensure (previous = call)
        "a restored session conflicts with an already saved usage event; deletion refused"
      mergeCalls env saved calls
    | none => mergeCalls env (saved ++ [call]) calls

/-- Append `make x` unless an element stands for `x` already. -/
def pushMissing {α β : Type} (stands : β → α → Bool) (make : α → β) (list : List β) (x : α) :
    List β :=
  if list.any (stands · x) then list else list ++ [make x]

def mergeTurns (incoming previous : List DeletedTurn) : List DeletedTurn :=
  previous.foldl (pushMissing (fun current turn => current.turnId = turn.turnId) id) incoming

def mergeEdges (incoming previous : List AgentInteraction) : List AgentInteraction :=
  previous.foldl (pushMissing (fun current edge => current = edge) id) incoming

def mergeSavedRecord (env : LedgerEnv) (seed : String)
    (previous incoming : DeletedSessionRecord) : Except String DeletedSessionRecord := do
  previous.validate env
  ensure (previous.threadId = incoming.threadId) "saved deletion owner changed"
  ensure (previous.cwd = none ∨ incoming.cwd = none ∨ previous.cwd = incoming.cwd)
    "restored session changed its project binding; deletion statistics cannot be merged safely"
  let calls ← mergeCalls env previous.calls incoming.calls
  let merged := { incoming with
    calls := (env.intoValues seed calls).insertionSort fun left right => callLe left right
    turns := mergeTurns incoming.turns previous.turns
    agentInteractions := mergeEdges incoming.agentInteractions previous.agentInteractions
    capturedAt := max incoming.capturedAt previous.capturedAt
    createdAt := incoming.createdAt.or previous.createdAt
    updatedAt := optionMax incoming.updatedAt previous.updatedAt
    cwd := incoming.cwd.or previous.cwd
    source := incoming.source.or previous.source
    parentThreadId := incoming.parentThreadId.or previous.parentThreadId }
  merged.validate env
  return merged

/-! ## The database -/

structure SessionRow where
  operationId : String
  record : DeletedSessionRecord
deriving DecidableEq

/-- The tables `operations`, `outcomes` (by operation and thread) and `sessions` (by thread). -/
structure Ledger where
  operations : List String
  outcomes : AList fun _ : String × String => DeletionStatus
  sessions : AList fun _ : String => SessionRow

def Ledger.empty : Ledger := ⟨[], ∅, ∅⟩

/-- The rows of `sessions` with their threads, in the order of `ORDER BY thread_id`. -/
def Ledger.rows (ledger : Ledger) : List (String × SessionRow) :=
  (ledger.sessions.entries.map fun entry => (entry.1, entry.2)).insertionSort
    fun left right => left.1 ≤ right.1

def validateLedgerReadBudget (env : LedgerEnv) (ledger : Ledger) (budget : LedgerReadBudget) :
    Except String Unit := do
  let lengths := ledger.rows.map fun row => env.encodedLength row.2.record
  ensure (lengths.length ≤ budget.records)
    "deleted-session ledger would exceed its record-count read budget; operation was not committed"
  ensure (∀ length ∈ lengths, length ≤ budget.recordBytes)
    "deleted-session ledger would exceed its per-record read budget; operation was not committed"
  ensure (lengths.sum ≤ budget.totalBytes)
    "deleted-session ledger would exceed its total-byte read budget; operation was not committed"

def DeletionStatus.unresolved : DeletionStatus → Bool
  | .pending | .unknown | .partially => true
  | .deleted | .failed => false

/-- The checks of one row, and its receipt when the member is unresolved. -/
def rowReceipt (env : LedgerEnv) (ledger : Ledger) (threadId : String) (row : SessionRow) :
    Except String (Option PendingDeletionReceipt) := do
  ensure (row.operationId ≠ "" ∧ row.operationId.utf8ByteSize ≤ 256 ∧
      noControl row.operationId = true)
    "invalid current deletion operation identity"
  ensure (row.operationId ∈ ledger.operations)
    "current deletion operation is missing from the ledger"
  row.record.validate env
  ensure (row.record.threadId = threadId) "pending deletion thread identity mismatch"
  let status ← okOr (ledger.outcomes.lookup (row.operationId, threadId))
    "current deletion operation has no member outcome"
  ensure (status = row.record.status)
    "current deletion member status disagrees with saved usage evidence"
  return if status.unresolved then some ⟨row.operationId, threadId⟩ else none

/-- The loop of `pending_deletion_receipts_in_database`. -/
def collectReceipts (env : LedgerEnv) (ledger : Ledger) (bytes count : Nat)
    (receipts : List PendingDeletionReceipt) :
    List (String × SessionRow) → Except String (List PendingDeletionReceipt)
  | [] => .ok receipts
  | (threadId, row) :: rows => do
    let length := env.encodedLength row.record
    let bytes := saturatingAdd 64 bytes length
    let count := count + 1
    ensure (length ≤ maxRecordBytes ∧ bytes ≤ maxReadBytes ∧ count ≤ maxRecords)
      "pending deletion evidence exceeds the bounded read limit; reconciliation refused"
    let receipt ← rowReceipt env ledger threadId row
    ensure (receipt = none ∨ receipts.length < maxPendingReceipts)
      "more than 512 pending deletion receipts; reconciliation refused without truncation"
    collectReceipts env ledger bytes count (receipts ++ receipt.toList) rows

def pendingDeletionReceipts (env : LedgerEnv) (ledger : Ledger) :
    Except String (List PendingDeletionReceipt) :=
  collectReceipts env ledger 0 0 [] ledger.rows

/-- A member's record as `prepare_delete` publishes it, before it is merged. -/
def pendingRecord (env : LedgerEnv) (redactContent : Bool) (record : DeletedSessionRecord) :
    DeletedSessionRecord :=
  { record with
    status := .pending
    deletedAt := none
    title := if redactContent then "[redacted]" else shortTitle env record.title }

/-- The loop of `prepare_delete` that checks the records; `ids` and `bytes` are those of the
records before. -/
def preparePayloads (env : LedgerEnv) (redactContent : Bool) (ids : List String) (bytes : Nat) :
    List DeletedSessionRecord → Except String (List DeletedSessionRecord)
  | [] => .ok []
  | record :: records => do
    ensure (record.threadId ∉ ids) "duplicate member in deletion operation"
    (pendingRecord env redactContent record).validate env
    let length := env.encodedLength (pendingRecord env redactContent record)
    let bytes := saturatingAdd 64 bytes length
    ensure (length ≤ maxRecordBytes ∧ bytes ≤ maxReadBytes)
      "deletion evidence exceeds the durable capture budget; no deletion is permitted"
    let payloads ← preparePayloads env redactContent (record.threadId :: ids) bytes records
    return pendingRecord env redactContent record :: payloads

/-- An incoming record merged with the saved one of its thread. -/
def mergePrevious (env : LedgerEnv) (seed : String) (ledger : Ledger)
    (record : DeletedSessionRecord) : Except String DeletedSessionRecord :=
  match ledger.sessions.lookup record.threadId with
  | none => .ok record
  | some previous => do
    ensure (env.encodedLength previous.record ≤ maxRecordBytes)
      "saved deletion evidence exceeds its record limit"
    mergeSavedRecord env seed previous.record record

/-- The row of a member and its outcome, written under an operation. -/
def Ledger.publish (ledger : Ledger) (operationId : String) (record : DeletedSessionRecord) :
    Ledger :=
  { ledger with
    sessions := ledger.sessions.insert record.threadId ⟨operationId, record⟩
    outcomes := ledger.outcomes.insert (operationId, record.threadId) .pending }

/-- One member of `prepare_delete`; the primary key of `outcomes` refuses a second one. -/
def publishRecord (env : LedgerEnv) (operationId : String) (ledger : Ledger)
    (record : DeletedSessionRecord) : Except String Ledger := do
  let merged ← mergePrevious env operationId ledger record
  ensure (env.encodedLength merged ≤ maxRecordBytes)
    "merged deletion evidence exceeds its durable record budget"
  ensure ((operationId, merged.threadId) ∉ ledger.outcomes)
    "UNIQUE constraint failed: outcomes.operation_id, outcomes.thread_id"
  return ledger.publish operationId merged

def publishRecords (env : LedgerEnv) (operationId : String) :
    Ledger → List DeletedSessionRecord → Except String Ledger
  | ledger, [] => .ok ledger
  | ledger, record :: records => do
    let ledger ← publishRecord env operationId ledger record
    publishRecords env operationId ledger records

/-- `prepare_delete_with_budget`: one transaction, so a failure leaves the ledger as it was. -/
def prepareDelete (env : LedgerEnv) (redactContent : Bool) (budget : LedgerReadBudget)
    (ledger : Ledger) (operationId : String) (records : List DeletedSessionRecord) :
    Except String Ledger := do
  ensure (operationId ≠ "" ∧ operationId.utf8ByteSize ≤ 256 ∧ records ≠ [])
    "invalid deletion operation"
  let payloads ← preparePayloads env redactContent [] 0 records
  let receipts ← pendingDeletionReceipts env ledger
  let pendingIds := (receipts.map (·.threadId) ++ payloads.map (·.threadId)).dedup
  ensure (pendingIds.length ≤ maxPendingReceipts)
    "unresolved deletion member budget exceeded; verify pending results before deleting more sessions"
  ensure (operationId ∉ ledger.operations) "UNIQUE constraint failed: operations.id"
  let ledger ← publishRecords env operationId
    { ledger with operations := operationId :: ledger.operations } payloads
  validateLedgerReadBudget env ledger budget
  return ledger

/-- A record with the status of an outcome. -/
def DeletedSessionRecord.withOutcome (record : DeletedSessionRecord) (status : DeletionStatus)
    (at' : DateTime) : DeletedSessionRecord :=
  { record with
    status := status
    deletedAt := if status = .deleted then some at' else none }

/-- The member's row under its current operation. -/
def Ledger.memberRow (ledger : Ledger) (operationId threadId : String) : Option SessionRow :=
  (ledger.sessions.lookup threadId).filter fun row => row.operationId = operationId

/-- `UPDATE outcomes`: no row is added. -/
def Ledger.updateOutcome (ledger : Ledger) (operationId threadId : String)
    (record : DeletedSessionRecord) : Ledger :=
  { ledger with
    sessions := ledger.sessions.insert threadId ⟨operationId, record⟩
    outcomes := if (operationId, threadId) ∈ ledger.outcomes then
        ledger.outcomes.insert (operationId, threadId) record.status
      else ledger.outcomes }

/-- `set_deletion_outcome_with_budget`. -/
def setDeletionOutcome (env : LedgerEnv) (budget : LedgerReadBudget) (ledger : Ledger)
    (operationId threadId : String) (status : DeletionStatus) (at' : DateTime) :
    Except String Ledger := do
  let row ← okOr (ledger.memberRow operationId threadId) "Query returned no rows"
  ensure (env.encodedLength row.record ≤ maxRecordBytes)
    "deleted-session record exceeds its read limit"
  let record := row.record.withOutcome status at'
  record.validate env
  let ledger := ledger.updateOutcome operationId threadId record
  validateLedgerReadBudget env ledger budget
  return ledger

/-! ## Runs -/

/-- A call of one of the two writing functions. -/
inductive LedgerCall
  | prepareDelete (redactContent : Bool) (operationId : String)
      (records : List DeletedSessionRecord)
  | setDeletionOutcome (operationId threadId : String) (status : DeletionStatus)
      (time : DateTime)

def LedgerCall.transaction (env : LedgerEnv) (budget : LedgerReadBudget) (ledger : Ledger) :
    LedgerCall → Except String Ledger
  | .prepareDelete redactContent operationId records =>
    Deletion.prepareDelete env redactContent budget ledger operationId records
  | .setDeletionOutcome operationId threadId status time =>
    Deletion.setDeletionOutcome env budget ledger operationId threadId status time

/-- `with_database`: a call commits when its transaction succeeds and the storage does not fail
(`available`); it is rolled back otherwise. -/
def Ledger.step (env : LedgerEnv) (budget : LedgerReadBudget) (ledger : Ledger)
    (call : LedgerCall × Bool) : Ledger :=
  match call.1.transaction env budget ledger, call.2 with
  | .ok next, true => next
  | _, _ => ledger

def Ledger.run (env : LedgerEnv) (budget : LedgerReadBudget) (ledger : Ledger)
    (calls : List (LedgerCall × Bool)) : Ledger :=
  calls.foldl (Ledger.step env budget) ledger

end Deletion
