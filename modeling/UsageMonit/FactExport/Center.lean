import UsageMonit.FactExport.Batch

/-!
# Receiving fact pages (`remote_fact_sync.rs`)

The center collects the pages of one batch before it commits anything. It checks by itself that
the events of a snapshot are sorted across pages and that the sequences of a delta run from its
active cursor to the watermark without a gap (`appendSnapshotPage`, `appendDeltaPage`,
`ensureDeltaReachesWatermark`). `receivePages` is the loop of `sync_remote_thread_facts_bounded`
over the responses, up to the commit; the budgets of a run are not part of it.
-/

namespace FactExport

open Fallible Facts

inductive RemoteFactSyncError
  | recordBudgetExceeded
  | unexpectedResponse
  | pageContinuity (message : String)
deriving DecidableEq

abbrev Sync := Except RemoteFactSyncError

structure PageAccumulator (φ : Type) where
  snapshotRecords : List (RemoteUsageEventFactRecord φ) := []
  deltaRecords : List (RemoteUsageEventFactRecord φ) := []
  lastSnapshotEventId : Option UsageEventId := none
  lastDeltaSequence : Option Nat := none
deriving DecidableEq

section
variable {φ : Type}

def ensureRecordCapacity (current incoming : Nat) : Sync Unit :=
  ensure (∃ total ∈ checkedAdd 64 current incoming, ¬ maxCompleteFactBatchRecords < total)
    .recordBudgetExceeded

/-- The record loop of `append_snapshot_page`. -/
def pushSnapshotRecords (accumulator : PageAccumulator φ) :
    List (RemoteUsageEventFactRecord φ) → Sync (PageAccumulator φ)
  | [] => .ok accumulator
  | record :: records => do
    ensure (¬ ∃ last ∈ accumulator.lastSnapshotEventId, record.eventId ≤ last)
      (.pageContinuity "snapshot event IDs are not globally sorted and unique")
    pushSnapshotRecords { accumulator with
      lastSnapshotEventId := some record.eventId
      snapshotRecords := accumulator.snapshotRecords ++ [record] } records

def appendSnapshotPage (accumulator : PageAccumulator φ)
    (records : List (RemoteUsageEventFactRecord φ)) : Sync (PageAccumulator φ) := do
  ensureRecordCapacity accumulator.snapshotRecords.length records.length
  pushSnapshotRecords accumulator records

/-- The change loop of `append_delta_page`. -/
def pushDeltaChanges (baseCursor : FactCursor) (accumulator : PageAccumulator φ) :
    List (RemoteUsageEventFactDeltaChange φ) → Sync (PageAccumulator φ)
  | [] => .ok accumulator
  | change :: changes => do
    let previous := accumulator.lastDeltaSequence.getD baseCursor.throughSequence
    let expected ← okOr (checkedAdd 64 previous 1) (.pageContinuity "delta sequence overflowed")
    ensure (change.sequence = expected)
      (.pageContinuity "delta sequences contain a gap, duplicate, or regression")
    pushDeltaChanges baseCursor { accumulator with
      lastDeltaSequence := some change.sequence
      deltaRecords := accumulator.deltaRecords ++ [change.record] } changes

def appendDeltaPage (accumulator : PageAccumulator φ) (baseCursor : FactCursor)
    (changes : List (RemoteUsageEventFactDeltaChange φ)) : Sync (PageAccumulator φ) := do
  ensureRecordCapacity accumulator.deltaRecords.length changes.length
  pushDeltaChanges baseCursor accumulator changes

def ensureDeltaReachesWatermark (accumulator : PageAccumulator φ)
    (baseCursor activateCursor : FactCursor) : Sync Unit :=
  ensure (accumulator.lastDeltaSequence.getD baseCursor.throughSequence =
      activateCursor.throughSequence)
    (.pageContinuity "delta changes do not reach the activation watermark")

/-! ## Continuations -/

def snapshotContinuation (page : FactPage) : Sync SessionFactsPosition := do
  let pageToken ← okOr page.nextPageToken
    (.pageContinuity "intermediate snapshot omitted its page token")
  pure (.snapshotContinue page.identity page.factGeneration page.watermark pageToken)

def deltaContinuation (page : FactPage) (factCursor : FactCursor) : Sync SessionFactsPosition := do
  let pageToken ← okOr page.nextPageToken
    (.pageContinuity "intermediate delta omitted its page token")
  pure (.deltaContinue factCursor page.identity page.watermark pageToken)

/-! ## The loop -/

/-- What one response makes of the run: the next request, or the batch to commit. -/
inductive Received (φ : Type)
  | next (accumulator : PageAccumulator φ) (position : SessionFactsPosition)
  | complete (kind : FrozenBatchKind) (cursor : FactCursor)
      (records : List (RemoteUsageEventFactRecord φ))
deriving DecidableEq

/-- One round of the loop; `initialCursor` is the active cursor the run started from. -/
def receivePage (initialCursor : Option FactCursor) (accumulator : PageAccumulator φ)
    (page : FactPage) : RemoteSessionFactPayload φ → Sync (Received φ)
  | .snapshot records => do
    let accumulator ← appendSnapshotPage accumulator records
    if page.hasMore then
      let position ← snapshotContinuation page
      pure (.next accumulator position)
    else
      let cursor ← okOr page.activateFactCursor
        (.pageContinuity "final snapshot omitted its activation cursor")
      pure (.complete .snapshot cursor accumulator.snapshotRecords)
  | .delta changes => do
    let baseCursor ← okOr initialCursor
      (.pageContinuity "delta response has no active local cursor")
    let accumulator ← appendDeltaPage accumulator baseCursor changes
    if page.hasMore then
      ensure (changes ≠ []) (.pageContinuity "an intermediate delta page is empty")
      let position ← deltaContinuation page baseCursor
      pure (.next accumulator position)
    else
      let cursor ← okOr page.activateFactCursor
        (.pageContinuity "final delta omitted its activation cursor")
      ensureDeltaReachesWatermark accumulator baseCursor cursor
      pure (.complete .delta cursor accumulator.deltaRecords)

end

end FactExport
