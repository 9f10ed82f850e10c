import UsageMonit.Deletion.Ledger

/-!
# The overlay of saved usage (`overlay_deleted_sessions`)

A scan's dataset with the saved usage of deleted sessions added: saved calls whose event is not
live, a task and turns for the threads that have none, then fresh totals for the threads of the
records. The map from events to positions in the dataset's calls holds the calls themselves: no
call is moved before the final sort.
-/

namespace Deletion

open Fallible Time Usage

/-- The identity of an event within a source: its thread and key. -/
abbrev EventIdentity := String × String

def DeletedUsageCall.identity (env : LedgerEnv) (call : DeletedUsageCall) : EventIdentity :=
  (call.threadId, call.key env)

def callIdentity (env : LedgerEnv) (call : UsageCall) : EventIdentity :=
  (DeletedUsageCall.from call).identity env

/-- The dataset in the loop over the records, with the calls by identity. -/
structure OverlayState where
  dataset : RolloutDataset
  calls : AList fun _ : EventIdentity => UsageCall

def indexCalls (env : LedgerEnv) (calls : List UsageCall) :
    AList fun _ : EventIdentity => UsageCall :=
  calls.foldl (fun index call => index.insert (callIdentity env call) call) ∅

def conflictWarning (threadId : String) : String :=
  "saved deletion usage conflicts with a live event for " ++ threadId ++
    "; live evidence retained"

def reportConflict (dataset : RolloutDataset) (threadId : String) : RolloutDataset :=
  { dataset with
    stats := { dataset.stats with skippedLines := saturatingAdd 64 dataset.stats.skippedLines 1 }
    warnings := dataset.warnings ++ [conflictWarning threadId] }

def overlayCall (env : LedgerEnv) (threadId : String) (state : OverlayState)
    (saved : DeletedUsageCall) : OverlayState :=
  match state.calls.lookup (saved.identity env) with
  | some live =>
    if DeletedUsageCall.from live ≠ saved then
      { state with dataset := reportConflict state.dataset threadId }
    else state
  | none => {
      dataset := { state.dataset with calls := state.dataset.calls ++ [saved.toCall] }
      calls := state.calls.insert (saved.identity env) saved.toCall }

def DeletedSessionRecord.toTask (record : DeletedSessionRecord) : TaskRecord where
  threadId := record.threadId
  parentThreadId := record.parentThreadId
  archived := false
  title := record.title
  cwd := record.cwd
  source := record.source
  createdAt := record.createdAt
  updatedAt := record.updatedAt
  status := if record.status = .deleted then .completed else .unknown
  statusProvenance := .localExact
  statusConfidence := .high
  tokenUsage := default
  turnCount := record.turns.length

def DeletedTurn.toTurn (threadId : String) (turn : DeletedTurn) : TurnRecord where
  threadId := threadId
  turnId := turn.turnId
  model := turn.model
  reasoningEffort := none
  serviceTier := turn.serviceTier
  messagePreview := none
  startedAt := turn.startedAt
  completedAt := turn.completedAt
  durationMs := turn.durationMs
  status := turn.status
  tokenUsage := default

def overlayTask : List TaskRecord → DeletedSessionRecord → List TaskRecord :=
  pushMissing (fun task record => task.threadId = record.threadId) DeletedSessionRecord.toTask

def overlayTurn (threadId : String) : List TurnRecord → DeletedTurn → List TurnRecord :=
  pushMissing (fun existing turn => existing.threadId = threadId ∧ existing.turnId = turn.turnId)
    (DeletedTurn.toTurn threadId)

def overlayRecord (env : LedgerEnv) (asOf : DateTime) (state : OverlayState)
    (record : DeletedSessionRecord) : OverlayState :=
  let state := (record.calls.filter fun call => call.timestamp ≤ asOf).foldl
    (overlayCall env record.threadId) state
  { state with
    dataset := { state.dataset with
      tasks := overlayTask state.dataset.tasks record
      turns := record.turns.foldl (overlayTurn record.threadId) state.dataset.turns
      agentInteractions :=
        mergeEdges state.dataset.agentInteractions record.agentInteractions } }

/-! ## Totals -/

/-- `entry(key).or_default().add_assign(tokens)`. -/
def addTotal {κ : Type} [DecidableEq κ] (totals : AList fun _ : κ => TokenUsage) (key : κ)
    (tokens : TokenUsage) : AList fun _ : κ => TokenUsage :=
  totals.insert key (((totals.lookup key).getD default).addAssign tokens)

structure Totals where
  threads : AList fun _ : String => TokenUsage
  turns : AList fun _ : String × String => TokenUsage

def addCallTotals (totals : Totals) (call : UsageCall) : Totals where
  threads := addTotal totals.threads call.threadId call.tokens
  turns :=
    match call.turnId with
    | some turn => addTotal totals.turns (call.threadId, turn) call.tokens
    | none => totals.turns

/-- Task and turn totals of the touched threads, from the calls. -/
def rebuildTotals (touched : List String) (dataset : RolloutDataset) : RolloutDataset :=
  let totals := (dataset.calls.filter fun call => call.threadId ∈ touched).foldl
    addCallTotals ⟨∅, ∅⟩
  { dataset with
    tasks := dataset.tasks.map fun task =>
      if task.threadId ∈ touched then
        { task with tokenUsage := (totals.threads.lookup task.threadId).getD default }
      else task
    turns := dataset.turns.map fun turn =>
      if turn.threadId ∈ touched then
        { turn with tokenUsage := (totals.turns.lookup (turn.threadId, turn.turnId)).getD default }
      else turn }

/-- The order of a dataset's calls. -/
def usageCallLe (left right : UsageCall) : Bool :=
  decide (left.timestamp < right.timestamp) ||
    (decide (left.timestamp = right.timestamp) && decide (left.threadId ≤ right.threadId))

def visibleRecords (records : List DeletedSessionRecord) (asOf : DateTime) :
    List DeletedSessionRecord :=
  records.filter fun record => record.capturedAt ≤ asOf

def overlayDeletedSessions (env : LedgerEnv) (dataset : RolloutDataset)
    (records : List DeletedSessionRecord) (asOf : DateTime) : RolloutDataset :=
  let visible := visibleRecords records asOf
  let state := visible.foldl (overlayRecord env asOf) ⟨dataset, indexCalls env dataset.calls⟩
  let touched := visible.map (·.threadId)
  let dataset := rebuildTotals touched state.dataset
  { dataset with calls := dataset.calls.insertionSort fun left right => usageCallLe left right }

end Deletion
