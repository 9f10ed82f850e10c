import Mathlib.Data.List.Sort
import UsageMonit.Ingest.Run

/-!
# Collecting history generations (`remote_ingest_state.rs`, `remote_generation.rs`)

Three paths delete generations, each under the source's ingest lock: the cleanup of a generation
that a session retired, the bounded sweep over all rows, and the explicit collection of one
generation. All of them first trace the states of every binding (`tracedGenerations`).

`CollectorStep` adds the sweep and the explicit collection to the steps of the ingest.
-/

namespace Ingest

open Fallible

def remoteGenerationSweepWorkLimit : Nat := 8

variable {π ρ δ : Type}

/-! ## The trace -/

/-- The checks that `protected_history_generations` makes of one state row. Every generation id
was generated, so `source_history_generation` accepts what `validate` accepts. -/
def traceState (env : IngestEnv π ρ δ)
    (entry : Sigma fun _ : RemoteDeltaIngestBinding => StoredRemoteDeltaIngestState π) :
    Except String Unit := do
  entry.2.validate env entry.2.binding
  ensure (entry.1 = entry.2.binding) "remote SQL ingest state key does not match its binding"

/-- `protected_history_generations`: any row that fails its check stops the collection. -/
def tracedGenerations (env : IngestEnv π ρ δ) (h : HistoryStore π δ) :
    Except String (List RemoteHistoryGenerationId) := do
  ensure (h.states.entries.length ≤ maxBindingNamespacesPerSource)
    "remote SQL ingest binding namespace count exceeds its bound"
  h.states.entries.forM (traceState env)
  pure (protectedHistoryGenerations h)

/-- The attempt of `cleanup_retired_generation_after_commit`, and the whole of
`garbage_collect_retired_remote_history_generation` once its session is open. -/
def garbageCollectRemoteHistoryGeneration (env : IngestEnv π ρ δ) (h : HistoryStore π δ)
    (candidate : RemoteHistoryGenerationId) :
    Except String (HistoryStore π δ × RemoteHistoryGenerationGcOutcome) := do
  let protectedIds ← tracedGenerations env h
  h.gcRemoteGeneration env candidate protectedIds

/-! ## The sweep -/

structure RemoteHistoryGenerationSweepReport where
  deleted : Nat
  skipped : Nat
  remaining : Nat
deriving DecidableEq

namespace HistoryStore

/-- `sqlite_remote_catalog`, in the order of the keys. -/
def remoteCatalog (h : HistoryStore π δ) : Except String (List RemoteHistoryGenerationId) := do
  ensure (h.generations.entries.length ≤ maxRemoteHistoryGenerations)
    "remote SQL generation count exceeds its bound"
  pure (h.generations.keys.insertionSort (· ≤ ·))

/-- The body of the loop of `sweep_remote_history_generations_unfenced`. -/
def sweepGeneration (env : IngestEnv π ρ δ) (protectedIds : List RemoteHistoryGenerationId)
    (maxWork : Nat) (active : Option RemoteActiveManifest)
    (acc : HistoryStore π δ × RemoteHistoryGenerationSweepReport)
    (candidate : RemoteHistoryGenerationId) :
    Except String (HistoryStore π δ × RemoteHistoryGenerationSweepReport) :=
  let (h, report) := acc
  if candidate ∈ protectedIds ∨ active.map (·.activeGeneration) = some candidate then
    pure (h, { report with skipped := report.skipped + 1 })
  else if maxWork ≤ report.deleted then
    pure (h, { report with remaining := report.remaining + 1 })
  else do
    let (h, outcome) ← h.gcRemoteGeneration env candidate protectedIds
    pure (h, if outcome = .deleted then { report with deleted := report.deleted + 1 }
      else report)

def sweepRemoteHistoryGenerations (env : IngestEnv π ρ δ) (h : HistoryStore π δ)
    (protectedIds : List RemoteHistoryGenerationId) (maxWork : Nat) :
    Except String (HistoryStore π δ × RemoteHistoryGenerationSweepReport) := do
  let catalog ← h.remoteCatalog
  let active ← h.remoteActive
  catalog.foldlM (sweepGeneration env protectedIds maxWork active) (h, ⟨0, 0, 0⟩)

end HistoryStore

def sweepUnreferencedRemoteHistoryGenerations (env : IngestEnv π ρ δ) (h : HistoryStore π δ) :
    Except String (HistoryStore π δ × RemoteHistoryGenerationSweepReport) := do
  let protectedIds ← tracedGenerations env h
  h.sweepRemoteHistoryGenerations env protectedIds remoteGenerationSweepWorkLimit

/-! ## Runs with the collector -/

/-- The pages that count as applied once rows are gone. -/
def appliedAfterCollection (w : World π ρ δ) (h : HistoryStore π δ)
    (generation : RemoteHistoryGenerationId) : List (AppliedPage ρ) :=
  if generation ∈ w.store.generations ∧ generation ∉ h.generations then []
  else w.applied generation

inductive CollectorStep [DecidableEq ρ] (env : IngestEnv π ρ δ) :
    World π ρ δ → World π ρ δ → Prop
  | ingest {w w' : World π ρ δ} : Step env w w' → CollectorStep env w w'
  | sweep {w : World π ρ δ} (session : RemoteDeltaIngestSession π) {h : HistoryStore π δ}
      {report : RemoteHistoryGenerationSweepReport} : w.session = some session →
      sweepUnreferencedRemoteHistoryGenerations env w.store = .ok (h, report) →
      CollectorStep env w { w with store := h, applied := appliedAfterCollection w h }
  | garbageCollect {w : World π ρ δ} (session : RemoteDeltaIngestSession π)
      (candidate : RemoteHistoryGenerationId) {h : HistoryStore π δ}
      {outcome : RemoteHistoryGenerationGcOutcome} : w.session = some session →
      garbageCollectRemoteHistoryGeneration env w.store candidate = .ok (h, outcome) →
      CollectorStep env w { w with store := h, applied := appliedAfterCollection w h }

inductive CollectorReachable [DecidableEq ρ] (env : IngestEnv π ρ δ) : World π ρ δ → Prop
  | init : CollectorReachable env (World.init env)
  | step {w w' : World π ρ δ} : CollectorReachable env w → CollectorStep env w w' →
      CollectorReachable env w'

end Ingest
