import UsageMonit.Ingest.Session

/-!
# Runs of the ingest

`World` is what a source's ingest consists of: the durable rows, at most one session (it holds the
source's lock) and, as history variables, the pages applied to every generation and the binding
that generated each generation id. `Step` is one transaction, or one operation in memory, or a
crash between two of them; an operation that fails before it writes is `fail`, one that fails
between two of its transactions has the `Interrupted` steps.
-/

namespace Ingest

open Time Protocol

variable {π ρ δ : Type}

structure AppliedPage (ρ : Type) where
  request : DeltaRequest
  page : DeltaPage
  records : ρ

structure World (π ρ δ : Type) where
  store : HistoryStore π δ
  session : Option (RemoteDeltaIngestSession π)
  applied : RemoteHistoryGenerationId → List (AppliedPage ρ)
  issued : RemoteHistoryGenerationId → Option RemoteDeltaIngestBinding

/-- No binding, no generation, no session. -/
def World.init (env : IngestEnv π ρ δ) : World π ρ δ where
  store := ⟨∅, ∅, fun _ => env.emptyData, none⟩
  session := none
  applied _ := []
  issued _ := none

/-- A session after a write to the rows: a fence that fails after the write leaves the session's
own copy as it was. -/
def afterPublish (fenceHolds : Bool) (session : RemoteDeltaIngestSession π)
    (next : StoredRemoteDeltaIngestState π) : RemoteDeltaIngestSession π :=
  if fenceHolds then { session with state := next } else session

inductive Step [DecidableEq ρ] (env : IngestEnv π ρ δ) : World π ρ δ → World π ρ δ → Prop
  | begin {w : World π ρ δ} (b : RemoteDeltaIngestBinding) {h : HistoryStore π δ}
      {s : StoredRemoteDeltaIngestState π} : w.session = none →
      loadOrCreateState env w.store b = .ok (h, s) →
      Step env w { w with store := h, session := some ⟨b, s⟩ }
  | crash (w : World π ρ δ) : Step env w { w with session := none }
  | fail (w : World π ρ δ) : Step env w w
  | prepare {w : World π ρ δ} {session session' : RemoteDeltaIngestSession π}
      (request : RemoteExportRequest) (response : RemoteDeltaResponse π) (receivedAt : DateTime)
      {page : PreparedRemoteDeltaPage ρ} : w.session = some session →
      preparePage env session request response receivedAt = .ok (session', page) →
      Step env w { w with session := some session' }
  | apply {w : World π ρ δ} {session session' : RemoteDeltaIngestSession π}
      (page : PreparedRemoteDeltaPage ρ) (activatedAt : DateTime) {h : HistoryStore π δ}
      {pending : StoredPendingPage π} {request : DeltaRequest} {deltaPage : DeltaPage}
      {payload : π} : w.session = some session →
      applyAndCommitRemoteDeltaPage env w.store session page activatedAt = .ok (h, session') →
      session.state.pending = some pending → deltaRequest pending.request = .ok request →
      deltaResponsePage pending.response = .ok (deltaPage, payload) →
      Step env w { w with
        store := h
        session := some session'
        applied := Function.update w.applied page.target.resultingGeneration
          (w.applied page.target.resultingGeneration ++ [⟨request, deltaPage, page.records⟩]) }
  | activate {w : World π ρ δ} {session session' : RemoteDeltaIngestSession π}
      (activatedAt : DateTime) {h : HistoryStore π δ} : w.session = some session →
      activateRemoteDeltaBootstrap env w.store session activatedAt = .ok (some (h, session')) →
      Step env w { w with store := h, session := some session' }
  | bootstrapInterrupted {w : World π ρ δ} (session : RemoteDeltaIngestSession π)
      {expectedActive : Option StoredRemoteHistoryActiveRef}
      (generation : RemoteHistoryGenerationId) {h : HistoryStore π δ} :
      w.session = some session →
      freshBootstrapExpectedActive w.store session = .ok expectedActive →
      w.issued generation = none →
      w.store.ensureRemoteGeneration generation (sourceHistoryBinding session.binding) = .ok h →
      Step env w { w with
        store := h
        issued := Function.update w.issued generation (some session.binding) }
  | bootstrap {w : World π ρ δ} (session : RemoteDeltaIngestSession π)
      {expectedActive : Option StoredRemoteHistoryActiveRef}
      (generation : RemoteHistoryGenerationId) {h h' : HistoryStore π δ} (fenceHolds : Bool) :
      w.session = some session →
      freshBootstrapExpectedActive w.store session = .ok expectedActive →
      w.issued generation = none →
      w.store.ensureRemoteGeneration generation (sourceHistoryBinding session.binding) = .ok h →
      writeState env h session.binding
        (freshBootstrapState session.state generation expectedActive) = .ok h' →
      Step env w { w with
        store := h'
        session := some (afterPublish fenceHolds session
          (freshBootstrapState session.state generation expectedActive))
        issued := Function.update w.issued generation (some session.binding) }
  | collectInterrupted {w : World π ρ δ} (session : RemoteDeltaIngestSession π)
      (candidate : RemoteHistoryGenerationId) {h : HistoryStore π δ}
      {outcome : RemoteHistoryGenerationGcOutcome} : w.session = some session →
      collectRetiredGeneration env w.store session candidate = .ok (h, outcome) →
      Step env w { w with
        store := h
        applied := if outcome = .deleted then Function.update w.applied candidate []
          else w.applied }
  | collect {w : World π ρ δ} (session : RemoteDeltaIngestSession π)
      (candidate : RemoteHistoryGenerationId) {h h' : HistoryStore π δ}
      {outcome : RemoteHistoryGenerationGcOutcome} (fenceHolds : Bool) :
      w.session = some session →
      collectRetiredGeneration env w.store session candidate = .ok (h, outcome) →
      outcome = .deleted ∨ outcome = .notFound →
      writeState env h session.binding (collectedState session.state candidate) = .ok h' →
      Step env w { w with
        store := h'
        session := some (afterPublish fenceHolds session (collectedState session.state candidate))
        applied := if outcome = .deleted then Function.update w.applied candidate []
          else w.applied }

inductive Reachable [DecidableEq ρ] (env : IngestEnv π ρ δ) : World π ρ δ → Prop
  | init : Reachable env (World.init env)
  | step {w w' : World π ρ δ} : Reachable env w → Step env w w' → Reachable env w'

end Ingest
