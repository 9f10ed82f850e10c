import UsageMonit.Ingest.State

/-!
# Ingest sessions and the history store

The SQL rows of one source (`HistoryStore`): the ingest state of every binding, the generation
rows, the data of each generation and the active manifest. The history operations
(`remote_generation.rs`) and the session operations (`remote_ingest_state.rs`) are functions on
the rows; a function that the source runs in one transaction returns the rows after its commit,
and an error means that nothing was written.

Lock and directory fences and the source metadata are checked before each of these operations;
a failing check is a failure of the operation.
-/

namespace Ingest

open Fallible Time Protocol

def maxRemoteHistoryGenerations : Nat := 32

structure RemoteActiveManifest where
  activeGeneration : RemoteHistoryGenerationId
  binding : SourceHistoryRemoteBinding
  activatedAt : DateTime
deriving DecidableEq

structure SourceHistoryRemoteActiveRef where
  generation : RemoteHistoryGenerationId
  binding : SourceHistoryRemoteBinding
deriving DecidableEq

def RemoteActiveManifest.ref (m : RemoteActiveManifest) : SourceHistoryRemoteActiveRef :=
  ⟨m.activeGeneration, m.binding⟩

variable {π ρ δ : Type}

structure HistoryStore (π δ : Type) where
  states : AList fun _ : RemoteDeltaIngestBinding => StoredRemoteDeltaIngestState π
  generations : AList fun _ : RemoteHistoryGenerationId => SourceHistoryRemoteBinding
  data : RemoteHistoryGenerationId → δ
  manifest : Option RemoteActiveManifest

/-! ## History generations -/

inductive RemoteHistoryGenerationGcOutcome
  | skippedActive
  | skippedProtected
  | notFound
  | deleted
deriving DecidableEq

namespace HistoryStore

/-- `sqlite_remote_active`: the manifest, checked against its generation row. -/
def remoteActive (h : HistoryStore π δ) : Except String (Option RemoteActiveManifest) := do
  checkSome h.manifest fun active => do
    let binding ← okOr (h.generations.lookup active.activeGeneration)
      "remote SQL generation is missing"
    ensure (binding = active.binding) "remote SQL active generation binding mismatch"
  pure h.manifest

def activeRemoteHistoryRef (h : HistoryStore π δ) :
    Except String (Option SourceHistoryRemoteActiveRef) := do
  let active ← h.remoteActive
  pure (active.map (·.ref))

def ensureRemoteGeneration (h : HistoryStore π δ) (generation : RemoteHistoryGenerationId)
    (binding : SourceHistoryRemoteBinding) : Except String (HistoryStore π δ) := do
  ensure (h.generations.entries.length < maxRemoteHistoryGenerations ∨
      generation ∈ h.generations) "remote SQL generation capacity is exhausted"
  match h.generations.lookup generation with
  | some existing => do
    ensure (existing = binding) "remote SQL generation is bound to another bootstrap"
    pure h
  | none => pure { h with generations := h.generations.insert generation binding }

/-- Recording a page's changes in the directory of a generation. -/
def recordChanges (env : IngestEnv π ρ δ) (h : HistoryStore π δ)
    (generation : RemoteHistoryGenerationId) (records : ρ) : Except String (HistoryStore π δ) := do
  let data ← env.recordChanges (h.data generation) records
  pure { h with data := Function.update h.data generation data }

def applyRemoteGenerationPage (env : IngestEnv π ρ δ) (h : HistoryStore π δ)
    (generation : RemoteHistoryGenerationId) (binding : SourceHistoryRemoteBinding) (records : ρ) :
    Except String (HistoryStore π δ) := do
  let active ← h.remoteActive
  ensure (∀ manifest ∈ active, manifest.activeGeneration ≠ generation)
    "remote active pages require the CAS apply path"
  let value ← okOr (h.generations.lookup generation) "remote SQL generation is missing"
  ensure (value = binding) "remote SQL page generation binding mismatch"
  h.recordChanges env generation records

def applyRemoteActivePage (env : IngestEnv π ρ δ) (h : HistoryStore π δ)
    (expected : SourceHistoryRemoteActiveRef) (binding : SourceHistoryRemoteBinding) (records : ρ)
    (activatedAt : DateTime) : Except String (HistoryStore π δ) := do
  let active ← h.remoteActive
  let active ← okOr active "remote SQL active generation is missing"
  ensure (active.ref = expected) "remote SQL active generation changed before apply"
  ensure (active.binding = binding) "remote active page binding differs from its generation"
  let h ← h.recordChanges env expected.generation records
  pure { h with manifest := some { active with activatedAt } }

def validateBindingDoesNotRollBack (active candidate : SourceHistoryRemoteBinding) :
    Except String Unit := do
  ensure (candidate.source.nodeId = active.source.nodeId)
    "remote history activation cannot change source identity"
  ensure (active.source.generation ≤ candidate.source.generation ∧
      active.revisions.historyFormat ≤ candidate.revisions.historyFormat ∧
      active.revisions.metric ≤ candidate.revisions.metric ∧
      active.revisions.estimator ≤ candidate.revisions.estimator ∧
      active.revisions.projectBreakdown ≤ candidate.revisions.projectBreakdown ∧
      active.revisions.apiPricingCatalog ≤ candidate.revisions.apiPricingCatalog)
    "remote history activation would roll back source or protocol revisions"

def activateRemoteGeneration (h : HistoryStore π δ)
    (expected : Option SourceHistoryRemoteActiveRef) (candidate : RemoteHistoryGenerationId)
    (binding : SourceHistoryRemoteBinding) (activatedAt : DateTime) :
    Except String (HistoryStore π δ) := do
  let value ← okOr (h.generations.lookup candidate) "remote SQL generation is missing"
  ensure (value = binding) "remote SQL bootstrap generation binding mismatch"
  let active ← h.remoteActive
  if active.map (·.ref) = some ⟨candidate, binding⟩ then pure h
  else do
    ensure (active.map (·.ref) = expected) "remote SQL active generation changed before bootstrap"
    checkSome active fun active => validateBindingDoesNotRollBack active.binding binding
    pure { h with manifest := some ⟨candidate, binding, activatedAt⟩ }

/-- `sqlite_gc_remote_generation`. A generation id has one row, so no retained row can still
refer to the directory of a deleted one. -/
def gcRemoteGeneration (env : IngestEnv π ρ δ) (h : HistoryStore π δ)
    (candidate : RemoteHistoryGenerationId) (protectedIds : List RemoteHistoryGenerationId) :
    Except String (HistoryStore π δ × RemoteHistoryGenerationGcOutcome) := do
  let active ← h.remoteActive
  if active.map (·.activeGeneration) = some candidate then pure (h, .skippedActive)
  else if candidate ∈ protectedIds then pure (h, .skippedProtected)
  else match h.generations.lookup candidate with
    | none => pure (h, .notFound)
    | some _ => pure ({ h with
        generations := h.generations.erase candidate
        data := Function.update h.data candidate env.emptyData }, .deleted)

end HistoryStore

/-! ## Sessions -/

/-- A session holds the ingest lock of the source; `state` is its copy of the binding's state. -/
structure RemoteDeltaIngestSession (π : Type) where
  binding : RemoteDeltaIngestBinding
  state : StoredRemoteDeltaIngestState π

structure PreparedRemoteDeltaPage (ρ : Type) where
  id : String
  target : RemoteDeltaApplyTarget
  records : ρ
  nextCursor : DeltaCursor
  hasMore : Bool
deriving DecidableEq

/-- `load_or_create_state`. The anchor row is written with the state row. -/
def loadOrCreateState (env : IngestEnv π ρ δ) (h : HistoryStore π δ)
    (binding : RemoteDeltaIngestBinding) :
    Except String (HistoryStore π δ × StoredRemoteDeltaIngestState π) :=
  match h.states.lookup binding with
  | some state => do
    state.validate env binding
    pure (h, state)
  | none => do
    ensure (h.states.entries.length < maxBindingNamespacesPerSource)
      "remote SQL ingest binding namespace count exceeds its bound"
    let state := StoredRemoteDeltaIngestState.new binding
    state.validate env binding
    pure ({ h with states := h.states.insert binding state }, state)

/-- `write_state`: the pending page is not serialized. -/
def writeState (env : IngestEnv π ρ δ) (h : HistoryStore π δ) (binding : RemoteDeltaIngestBinding)
    (state : StoredRemoteDeltaIngestState π) : Except String (HistoryStore π δ) := do
  state.validate env binding
  ensure (env.encodedLength state ≤ maxIngestStateBytes)
    "remote SQL ingest state exceeds its size bound"
  pure { h with states := h.states.insert binding { state with pending := none } }

def prepareTarget (state : StoredRemoteDeltaIngestState π) (request : DeltaRequest) :
    Except String RemoteDeltaApplyTarget :=
  match state.bootstrap with
  | some bootstrap => do
    ensure (bootstrap.readyToActivate = false)
      "completed bootstrap must be activated before accepting another page"
    ensure (request.deltaCursor = bootstrap.cursor)
      "remote bootstrap request does not continue its staged cursor"
    ensure (∀ range ∈ bootstrap.exactRange, request.range = range)
      "remote bootstrap continuation changed its exact export range"
    pure (.staging bootstrap.generation)
  | none =>
    match state.active with
    | some active => do
      ensure (request.deltaCursor = some active.cursor)
        "remote incremental request does not continue its active cursor"
      ensure (∀ range ∈ active.continuationRange, request.range = range)
        "remote incremental continuation changed its exact export range"
      pure (.active active.generation)
    | none =>
      if request.deltaCursor.isSome = true then
        .error "initial remote ingest must begin with a cursorless bootstrap"
      else .error
        "initial remote bootstrap must be initialized with a history writer before transport"

/-- The page a pending record stands for. -/
def preparedFromPending (env : IngestEnv π ρ δ) (pending : StoredPendingPage π) :
    Except String (PreparedRemoteDeltaPage ρ) := do
  let (page, payload) ← deltaResponsePage pending.response
  let records ← env.historyRecordsFromPayload payload
  pure ⟨pending.id, pending.target, records, page.nextDeltaCursor, page.hasMore⟩

def preparePage (env : IngestEnv π ρ δ) (session : RemoteDeltaIngestSession π)
    (request : RemoteExportRequest) (response : RemoteDeltaResponse π) (receivedAt : DateTime) :
    Except String (RemoteDeltaIngestSession π × PreparedRemoteDeltaPage ρ) := do
  ensure (session.state.pending.isNone = true) "commit or discard the already prepared page first"
  session.binding.validateExchange env request response
  let delta ← deltaRequest request
  let (page, payload) ← deltaResponsePage response
  let records ← env.historyRecordsFromPayload payload
  let target ← prepareTarget session.state delta
  let id ← env.pendingPageId target request response receivedAt
  let pending : StoredPendingPage π := ⟨id, target, request, response, receivedAt⟩
  pending.validate env session.binding
  let next := { session.state with
    bootstrap := session.state.bootstrap.map fun bootstrap =>
      { bootstrap with exactRange := bootstrap.exactRange <|> some delta.range }
    pending := some pending }
  next.validate env session.binding
  pure ({ session with state := next },
    ⟨id, target, records, page.nextDeltaCursor, page.hasMore⟩)

/-- The state after the page `id` was applied. -/
def markedState (state : StoredRemoteDeltaIngestState π) (id : String) :
    Except String (StoredRemoteDeltaIngestState π) := do
  let pending ← okOr state.pending "no pending delta page"
  ensure (pending.id = id) "prepared page ID does not match the prepared page"
  let delta ← deltaRequest pending.request
  let (page, _) ← deltaResponsePage pending.response
  match pending.target with
  | .active expectedGeneration => do
    let active ← okOr state.active "prepared active page has no active generation"
    ensure (active.generation = expectedGeneration)
      "prepared page targets the wrong active generation"
    pure { state with
      active := some { active with
        cursor := page.nextDeltaCursor
        continuationRange := if page.hasMore then some delta.range else none }
      pending := none }
  | .staging generation => do
    let bootstrap ← okOr state.bootstrap "pending staging page has no bootstrap generation"
    ensure (bootstrap.generation = generation)
      "pending page targets the wrong bootstrap generation"
    pure { state with
      bootstrap := some { bootstrap with
        cursor := some page.nextDeltaCursor
        readyToActivate := !page.hasMore }
      pending := none }

def markPageApplied (env : IngestEnv π ρ δ) (h : HistoryStore π δ)
    (session : RemoteDeltaIngestSession π) (id : String) :
    Except String (HistoryStore π δ × RemoteDeltaIngestSession π) := do
  let next ← markedState session.state id
  let h ← writeState env h session.binding next
  pure (h, { session with state := next })

def sourceHistoryActiveRef (ref : StoredRemoteHistoryActiveRef) : SourceHistoryRemoteActiveRef :=
  ⟨ref.generation, ref.source, ref.revisions⟩

def storedActiveRefFromHistory (ref : SourceHistoryRemoteActiveRef) :
    StoredRemoteHistoryActiveRef :=
  ⟨ref.generation, ref.binding.source, ref.binding.revisions⟩

/-- `apply_remote_delta_records`, once the page is known to be the pending one. -/
def applyRemoteDeltaRecords (env : IngestEnv π ρ δ) (h : HistoryStore π δ)
    (session : RemoteDeltaIngestSession π) (page : PreparedRemoteDeltaPage ρ)
    (activatedAt : DateTime) : Except String (HistoryStore π δ) :=
  let binding := sourceHistoryBinding session.binding
  match page.target with
  | .active expectedGeneration =>
    h.applyRemoteActivePage env ⟨expectedGeneration, binding⟩ binding page.records activatedAt
  | .staging generation => do
    let expected := (session.state.bootstrap.bind (·.expectedActive)).map sourceHistoryActiveRef
    let actual ← h.activeRemoteHistoryRef
    ensure (actual = expected) "remote bootstrap active history changed before page apply"
    let h ← h.ensureRemoteGeneration generation binding
    h.applyRemoteGenerationPage env generation binding page.records

section
variable [DecidableEq ρ]

def validatePendingPage (env : IngestEnv π ρ δ) (session : RemoteDeltaIngestSession π)
    (page : PreparedRemoteDeltaPage ρ) : Except String (StoredPendingPage π) := do
  let pending ← okOr session.state.pending "remote delta page is not backed by a prepared page"
  let expected ← preparedFromPending env pending
  ensure (expected = page) "remote delta page does not match the prepared page"
  pure pending

/-- One transaction: the records, the live row and the cursor. -/
def applyAndCommitRemoteDeltaPage (env : IngestEnv π ρ δ) (h : HistoryStore π δ)
    (session : RemoteDeltaIngestSession π) (page : PreparedRemoteDeltaPage ρ)
    (activatedAt : DateTime) :
    Except String (HistoryStore π δ × RemoteDeltaIngestSession π) := do
  let pending ← validatePendingPage env session page
  let h ← applyRemoteDeltaRecords env h session page activatedAt
  env.applyRemoteLiveState pending
  markPageApplied env h session page.id

end

/-! ## Activation -/

def queueRetiredGeneration (state : StoredRemoteDeltaIngestState π)
    (generation : RemoteHistoryGenerationId) : StoredRemoteDeltaIngestState π :=
  if generation ∈ state.retiredGenerations then state
  else { state with retiredGenerations := state.retiredGenerations ++ [generation] }

/-- Queueing the generation of an optional reference. -/
def queueRetired (state : StoredRemoteDeltaIngestState π) :
    Option RemoteHistoryGenerationId → StoredRemoteDeltaIngestState π
  | some generation => queueRetiredGeneration state generation
  | none => state

structure RemoteBootstrapActivation where
  generation : RemoteHistoryGenerationId
  cursor : DeltaCursor
deriving DecidableEq

def bootstrapActivationRequired (state : StoredRemoteDeltaIngestState π) :
    Option RemoteBootstrapActivation :=
  state.bootstrap.bind fun bootstrap =>
    if bootstrap.readyToActivate then
      bootstrap.cursor.map fun cursor => ⟨bootstrap.generation, cursor⟩
    else none

/-- The state after selecting the bootstrap as active. -/
def activatedState (state : StoredRemoteDeltaIngestState π)
    (activation : RemoteBootstrapActivation) : Except String (StoredRemoteDeltaIngestState π) := do
  ensure (state.pending.isNone = true)
    "cannot activate bootstrap while a page prepared page is pending"
  let bootstrap ← okOr state.bootstrap "no bootstrap to activate"
  ensure (bootstrap.readyToActivate = true ∧ bootstrap.cursor = some activation.cursor ∧
      bootstrap.generation = activation.generation)
    "bootstrap activation does not match durable staging state"
  let next := { state with
    active := some ⟨activation.generation, activation.cursor, none⟩ }
  let next := queueRetired next (bootstrap.expectedActive.map (·.generation))
  pure { next with bootstrap := none }

/-- One transaction: the manifest and the ingest state. `none` when nothing is to be activated. -/
def activateRemoteDeltaBootstrap (env : IngestEnv π ρ δ) (h : HistoryStore π δ)
    (session : RemoteDeltaIngestSession π) (activatedAt : DateTime) :
    Except String (Option (HistoryStore π δ × RemoteDeltaIngestSession π)) :=
  match bootstrapActivationRequired session.state with
  | none => .ok none
  | some activation => do
    let expected := (session.state.bootstrap.bind (·.expectedActive)).map sourceHistoryActiveRef
    let h ← h.activateRemoteGeneration expected activation.generation
      (sourceHistoryBinding session.binding) activatedAt
    let next ← activatedState session.state activation
    let h ← writeState env h session.binding next
    pure (some (h, { session with state := next }))

/-! ## Starting a bootstrap -/

/-- The checks of `create_fresh_bootstrap`: the active generation the bootstrap will replace. -/
def freshBootstrapExpectedActive (h : HistoryStore π δ) (session : RemoteDeltaIngestSession π) :
    Except String (Option StoredRemoteHistoryActiveRef) := do
  ensure (session.state.pending.isNone = true)
    "cannot start bootstrap while a page prepared page is pending"
  let activeRef ← h.activeRemoteHistoryRef
  let expectedActive := activeRef.map storedActiveRefFromHistory
  checkSome session.state.active fun active => do
    let expected ← okOr expectedActive
      "ingest active generation has no matching history manifest"
    ensure (expected.generation = active.generation ∧ expected.source = session.binding.source ∧
        expected.revisions = session.binding.revisions)
      "ingest active generation does not match the history manifest binding"
  pure expectedActive

/-- The state with a fresh bootstrap; a bootstrap it replaces is queued for collection. -/
def freshBootstrapState (state : StoredRemoteDeltaIngestState π)
    (generation : RemoteHistoryGenerationId)
    (expectedActive : Option StoredRemoteHistoryActiveRef) : StoredRemoteDeltaIngestState π :=
  let next := { state with bootstrap := some ⟨generation, expectedActive, none, none, false⟩ }
  queueRetired next (state.bootstrap.map (·.generation))

/-! ## Collecting retired generations -/

/-- `protected_history_generations`: what the states of all bindings keep alive. -/
def protectedHistoryGenerations (h : HistoryStore π δ) : List RemoteHistoryGenerationId :=
  h.states.entries.flatMap fun entry => entry.2.liveGenerations

/-- The transaction of a cleanup: collecting a generation that this session retired. -/
def collectRetiredGeneration (env : IngestEnv π ρ δ) (h : HistoryStore π δ)
    (session : RemoteDeltaIngestSession π) (candidate : RemoteHistoryGenerationId) :
    Except String (HistoryStore π δ × RemoteHistoryGenerationGcOutcome) := do
  ensure (candidate ∈ session.state.retiredGenerations) "generation is not retired"
  h.gcRemoteGeneration env candidate (protectedHistoryGenerations h)

/-- The state once a retired generation is gone. -/
def collectedState (state : StoredRemoteDeltaIngestState π)
    (candidate : RemoteHistoryGenerationId) : StoredRemoteDeltaIngestState π :=
  { state with
    retiredGenerations := state.retiredGenerations.filter fun generation =>
      decide (generation ≠ candidate) }

end Ingest
