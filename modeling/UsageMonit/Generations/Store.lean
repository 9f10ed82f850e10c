import Mathlib.Data.List.Sort
import Mathlib.Data.String.Basic
import UsageMonit.Generations.Tables

/-!
# Generations of a remote history (`remote_generation.rs`)

A bootstrap is written into a generation of its own; readers resolve both record families through
the active manifest. Every operation is one transaction on the tables: an error leaves them as
they were. `HistoryOperation` and `HistoryOperation.run` are the operations of one source's
history.
-/

namespace Generations

open Fallible Time Ingest

variable {ρ : Type}

/-- The code the operations call: the family writers, the check that the source is an SSH source
and the bound on an encoded binding. -/
structure GenerationEnv (ρ : Type) where
  buckets : FamilyWriter ρ
  digests : FamilyWriter ρ
  quotas : QuotaWriter ρ
  requireSshSource : Except String Unit
  bindingFits : SourceHistoryRemoteBinding → Bool

/-! ## Checks of identifiers and rows -/

def validateGeneration (generation : RemoteHistoryGenerationId) : Except String Unit :=
  let idPrefix := "ingest-gen-".toList
  let hex := generation.toList.drop idPrefix.length
  ensure (idPrefix.isPrefixOf generation.toList = true ∧ hex.length = 32 ∧
      hex.all (fun c => c.isDigit || ('a' ≤ c && c ≤ 'f')) = true ∧
      ¬ hex.all (· == '0') = true) "remote history generation ID is invalid"

section
variable (env : GenerationEnv ρ) (scope : HistoryScope)

def validateBinding (binding : SourceHistoryRemoteBinding) : Except String Unit :=
  ensure (env.bindingFits binding = true) "encoded source history shard is too large"

def validateBindingNamespace (binding : SourceHistoryRemoteBinding) : Except String Unit := do
  validateBinding env binding
  ensure (binding.source.nodeId = scope.sourceId)
    "remote history binding source does not match its namespace"

/-- `SourceHistoryRemoteActiveRef::new`. -/
def newActiveRef (generation : RemoteHistoryGenerationId) (binding : SourceHistoryRemoteBinding) :
    Except String SourceHistoryRemoteActiveRef := do
  validateGeneration generation
  validateBinding env binding
  pure ⟨generation, binding⟩

def validateActiveRefNamespace (ref : SourceHistoryRemoteActiveRef) : Except String Unit := do
  validateGeneration ref.generation
  validateBindingNamespace env scope ref.binding

/-- `validate_ready`. -/
def RemoteGenerationMetadata.validate (m : RemoteGenerationMetadata)
    (generation : RemoteHistoryGenerationId) : Except String Unit := do
  validateGeneration m.generation
  validateBindingNamespace env scope m.binding
  ensure (m.formatVersion = remoteGenerationFormatVersion ∧ m.profileId = scope.profileId ∧
      m.sourceId = scope.sourceId ∧ m.redactionProfile = scope.redactionProfile ∧
      m.generation = generation)
    "remote history generation metadata does not match its namespace"

def RemoteActiveManifest.validate (m : RemoteActiveManifest) : Except String Unit := do
  validateGeneration m.activeGeneration
  validateBindingNamespace env scope m.binding
  ensure (m.formatVersion = remoteActiveManifestFormatVersion ∧ m.profileId = scope.profileId ∧
      m.sourceId = scope.sourceId ∧ m.redactionProfile = scope.redactionProfile)
    "remote active history manifest does not match its namespace"

/-! ## Reading the rows -/

def remoteGeneration (t : HistoryTables ρ) (generation : RemoteHistoryGenerationId) :
    Except String RemoteGenerationMetadata := do
  let stored ← t.generationState (scope.generationKey generation)
  let metadata ← okOr stored "remote SQL generation is missing"
  metadata.validate env scope generation
  validateGeneration metadata.generation
  pure metadata

/-- The check of a manifest against the row of its generation. -/
def checkActive (t : HistoryTables ρ) (active : RemoteActiveManifest) : Except String Unit := do
  active.validate env scope
  let generation ← remoteGeneration env scope t active.activeGeneration
  ensure (generation.binding = active.binding) "remote SQL active generation binding mismatch"

def remoteActive (t : HistoryTables ρ) : Except String (Option RemoteActiveManifest) := do
  let active ← t.activeState scope.activeKey
  checkSome active (checkActive env scope t)
  pure active

/-- The rows below `generations` that describe a generation, in the order of their keys. -/
def catalogKeys (t : HistoryTables ρ) : List String :=
  (t.states.keys.filter fun key =>
    (scope.remoteHistoryDirectory ++ "/generations" ++ "/").toList.isPrefixOf key.toList &&
      "/generation.json".toList.isSuffixOf key.toList).insertionSort (· ≤ ·)

def catalogRow (t : HistoryTables ρ) (key : String) : Except String RemoteGenerationMetadata := do
  let stored ← t.generationState key
  okOr stored "remote SQL generation descriptor disappeared"

def checkCatalogRow (row : String × RemoteGenerationMetadata) : Except String Unit := do
  row.2.validate env scope row.2.generation
  validateGeneration row.2.generation
  ensure (row.1 = scope.generationKey row.2.generation) "remote SQL generation key mismatch"

def remoteCatalog (t : HistoryTables ρ) :
    Except String (List (String × RemoteGenerationMetadata)) := do
  let keys := catalogKeys scope t
  ensure (keys.length ≤ maxRemoteHistoryGenerations) "remote SQL generation count exceeds its bound"
  let values ← keys.mapM (catalogRow t)
  let rows := keys.zip values
  rows.forM (checkCatalogRow env scope)
  pure rows

def remoteCapacity (t : HistoryTables ρ) (candidate : RemoteHistoryGenerationId) :
    Except String Unit := do
  let catalog ← remoteCatalog env scope t
  ensure (catalog.length < maxRemoteHistoryGenerations ∨
      ∃ row ∈ catalog, row.2.generation = candidate)
    "remote SQL generation capacity is exhausted"

/-- `sqlite_remote_data_directory`, by the generation of the row. -/
def remoteDataGeneration (value : RemoteGenerationMetadata) : RemoteHistoryGenerationId :=
  value.generation

/-- What a reader of both families sees: the active reference, and for each family the records of
the selected generation. -/
structure RemoteHistorySnapshot (ρ : Type) where
  activeRef : Option SourceHistoryRemoteActiveRef
  bucketRecords : String → Option ρ
  sessionDigestRecords : String → Option ρ

def loadRemoteHistorySnapshot (t : HistoryTables ρ) : Except String (RemoteHistorySnapshot ρ) := do
  let active ← remoteActive env scope t
  match active with
  | none => pure ⟨none, fun _ => none, fun _ => none⟩
  | some active => do
    let value ← remoteGeneration env scope t active.activeGeneration
    let generation := remoteDataGeneration value
    pure ⟨some active.ref, t.record (scope.bucketsNamespace generation),
      t.record (scope.digestsNamespace generation)⟩

/-! ## Operations -/

def advanceProjectionRevision (t : HistoryTables ρ) : Except String (HistoryTables ρ) := do
  let stored ← t.revisionState scope.publicationRevisionKey
  let next ← okOr (checkedAdd 64 (stored.getD 0) 1) "remote publication revision overflow"
  pure (t.setState scope.publicationRevisionKey (.revision next))

/-- Readers are told of a page that changed something. -/
def publishChange (t : HistoryTables ρ) (changed : Bool) : Except String (HistoryTables ρ) :=
  if changed then advanceProjectionRevision scope t else .ok t

def ensureRemoteGeneration (t : HistoryTables ρ) (generation : RemoteHistoryGenerationId)
    (binding : SourceHistoryRemoteBinding) : Except String (HistoryTables ρ) := do
  validateGeneration generation
  validateBindingNamespace env scope binding
  env.requireSshSource
  remoteCapacity env scope t generation
  let stored ← t.generationState (scope.generationKey generation)
  match stored with
  | some existing => do
    existing.validate env scope generation
    ensure (existing.binding = binding) "remote SQL generation is bound to another bootstrap"
    validateGeneration existing.generation
    pure t
  | none => pure (t.setState (scope.generationKey generation)
      (.generation ⟨remoteGenerationFormatVersion, scope.profileId, scope.sourceId,
        scope.redactionProfile, generation, binding⟩))

structure HistoryPage (ρ : Type) where
  buckets : List ρ
  digests : List ρ
  quotas : List (RemoteQuotaChange ρ)

variable [DecidableEq ρ]

/-- The writes of a page in the directory of a generation; whether a reader can see a change. -/
def writePage (t : HistoryTables ρ) (generation : RemoteHistoryGenerationId)
    (page : HistoryPage ρ) : Except String (HistoryTables ρ × Bool) := do
  let (t, bucketsWritten) ←
    recordChanges env.buckets t (scope.bucketsNamespace generation) page.buckets
  let (t, digestsWritten) ←
    recordChanges env.digests t (scope.digestsNamespace generation) page.digests
  let (t, quotaChanged) ←
    applyRemoteQuota env.quotas scope t (scope.quotaKey generation) page.quotas
  pure (t, bucketsWritten || digestsWritten || quotaChanged)

/-- `apply_remote_history_generation_page`: a page of a generation that is not the active one. -/
def applyRemoteGenerationPage (t : HistoryTables ρ) (generation : RemoteHistoryGenerationId)
    (binding : SourceHistoryRemoteBinding) (page : HistoryPage ρ) :
    Except String (HistoryTables ρ) := do
  validateGeneration generation
  validateBindingNamespace env scope binding
  env.requireSshSource
  let active ← remoteActive env scope t
  ensure (∀ manifest ∈ active, manifest.activeGeneration ≠ generation)
    "remote active pages require the CAS apply path"
  let value ← remoteGeneration env scope t generation
  ensure (value.binding = binding) "remote SQL page generation binding mismatch"
  let (t, _) ← writePage env scope t (remoteDataGeneration value) page
  pure t

def applyRemoteActivePage (t : HistoryTables ρ) (expected : SourceHistoryRemoteActiveRef)
    (binding : SourceHistoryRemoteBinding) (page : HistoryPage ρ) (activatedAt : DateTime) :
    Except String (HistoryTables ρ) := do
  validateActiveRefNamespace env scope expected
  validateBindingNamespace env scope binding
  env.requireSshSource
  let active ← remoteActive env scope t
  let active ← okOr active "remote SQL active generation is missing"
  let actual ← newActiveRef env active.activeGeneration active.binding
  ensure (actual = expected) "remote SQL active generation changed before apply"
  ensure (actual.binding = binding) "remote active page binding differs from its generation"
  let generation ← remoteGeneration env scope t expected.generation
  let (t, changed) ← writePage env scope t (remoteDataGeneration generation) page
  let t ← publishChange scope t changed
  pure (t.setState scope.activeKey (.active { active with activatedAt }))

omit [DecidableEq ρ] in
def validateBindingDoesNotRollBack (active candidate : SourceHistoryRemoteBinding) :
    Except String Unit := do
  validateBinding env active
  validateBinding env candidate
  HistoryStore.validateBindingDoesNotRollBack active candidate

def activateRemoteGeneration (t : HistoryTables ρ)
    (expected : Option SourceHistoryRemoteActiveRef) (candidate : RemoteHistoryGenerationId)
    (binding : SourceHistoryRemoteBinding) (activatedAt : DateTime) :
    Except String (HistoryTables ρ) := do
  validateGeneration candidate
  validateBindingNamespace env scope binding
  checkSome expected (validateActiveRefNamespace env scope)
  env.requireSshSource
  let value ← remoteGeneration env scope t candidate
  ensure (value.binding = binding) "remote SQL bootstrap generation binding mismatch"
  let active ← remoteActive env scope t
  let wanted ← newActiveRef env candidate binding
  if active.map (·.ref) = some wanted then pure t
  else do
    ensure (active.map (·.ref) = expected) "remote SQL active generation changed before bootstrap"
    checkSome active fun active => validateBindingDoesNotRollBack env active.binding binding
    advanceProjectionRevision scope (t.setState scope.activeKey
      (.active ⟨remoteActiveManifestFormatVersion, scope.profileId, scope.sourceId,
        scope.redactionProfile, candidate, binding, activatedAt⟩))

def deleteGenerationData (t : HistoryTables ρ) (generation : RemoteHistoryGenerationId) :
    HistoryTables ρ :=
  (((t.deleteNamespace (scope.bucketsNamespace generation)).deleteNamespace
    (scope.digestsNamespace generation)).deleteState (scope.quotaKey generation)).deleteNamespace
    (scope.quotaKey generation)

def gcRemoteGeneration (t : HistoryTables ρ) (candidate : RemoteHistoryGenerationId)
    (protectedIds : List RemoteHistoryGenerationId) :
    Except String (HistoryTables ρ × RemoteHistoryGenerationGcOutcome) := do
  env.requireSshSource
  let active ← remoteActive env scope t
  if active.map (·.activeGeneration) = some candidate then pure (t, .skippedActive)
  else if candidate ∈ protectedIds then pure (t, .skippedProtected)
  else do
    let stored ← t.generationState (scope.generationKey candidate)
    match stored with
    | none => pure (t, .notFound)
    | some value => do
      value.validate env scope candidate
      validateGeneration value.generation
      let t := t.deleteState (scope.generationKey candidate)
      let catalog ← remoteCatalog env scope t
      if ∃ row ∈ catalog, row.2.generation = value.generation then pure (t, .deleted)
      else pure (deleteGenerationData scope t (remoteDataGeneration value), .deleted)

def garbageCollectRemoteGeneration (t : HistoryTables ρ) (candidate : RemoteHistoryGenerationId)
    (protectedIds : List RemoteHistoryGenerationId) :
    Except String (HistoryTables ρ × RemoteHistoryGenerationGcOutcome) := do
  validateGeneration candidate
  protectedIds.forM validateGeneration
  gcRemoteGeneration env scope t candidate protectedIds

/-- The body of the loop of `sweep_remote_history_generations`. -/
def sweepGeneration (protectedIds : List RemoteHistoryGenerationId) (maxWork : Nat)
    (active : Option RemoteActiveManifest) (acc : HistoryTables ρ × Nat)
    (row : String × RemoteGenerationMetadata) : Except String (HistoryTables ρ × Nat) :=
  let candidate := row.2.generation
  if candidate ∈ protectedIds ∨ active.map (·.activeGeneration) = some candidate then .ok acc
  else if maxWork ≤ acc.2 then .ok acc
  else do
    let (t, outcome) ← gcRemoteGeneration env scope acc.1 candidate protectedIds
    pure (t, if outcome = .deleted then acc.2 + 1 else acc.2)

def sweepRemoteGenerations (t : HistoryTables ρ) (protectedIds : List RemoteHistoryGenerationId)
    (maxWork : Nat) : Except String (HistoryTables ρ × Nat) := do
  protectedIds.forM validateGeneration
  let catalog ← remoteCatalog env scope t
  let active ← remoteActive env scope t
  catalog.foldlM (sweepGeneration env scope protectedIds maxWork active) (t, 0)

end

/-! ## Runs -/

inductive HistoryOperation (ρ : Type)
  | ensure (generation : RemoteHistoryGenerationId) (binding : SourceHistoryRemoteBinding)
  | stagePage (generation : RemoteHistoryGenerationId) (binding : SourceHistoryRemoteBinding)
      (page : HistoryPage ρ)
  | activePage (expected : SourceHistoryRemoteActiveRef) (binding : SourceHistoryRemoteBinding)
      (page : HistoryPage ρ) (activatedAt : DateTime)
  | activate (expected : Option SourceHistoryRemoteActiveRef)
      (candidate : RemoteHistoryGenerationId) (binding : SourceHistoryRemoteBinding)
      (activatedAt : DateTime)
  | collect (candidate : RemoteHistoryGenerationId)
      (protectedIds : List RemoteHistoryGenerationId)
  | sweep (protectedIds : List RemoteHistoryGenerationId) (maxWork : Nat)

namespace HistoryOperation
variable [DecidableEq ρ] (env : GenerationEnv ρ) (scope : HistoryScope)

/-- The tables after an operation; an error rolls the transaction back. -/
def apply (t : HistoryTables ρ) : HistoryOperation ρ → Except String (HistoryTables ρ)
  | ensure generation binding => ensureRemoteGeneration env scope t generation binding
  | stagePage generation binding page =>
    applyRemoteGenerationPage env scope t generation binding page
  | activePage expected binding page activatedAt =>
    applyRemoteActivePage env scope t expected binding page activatedAt
  | activate expected candidate binding activatedAt =>
    activateRemoteGeneration env scope t expected candidate binding activatedAt
  | collect candidate protectedIds =>
    Prod.fst <$> garbageCollectRemoteGeneration env scope t candidate protectedIds
  | sweep protectedIds maxWork =>
    Prod.fst <$> sweepRemoteGenerations env scope t protectedIds maxWork

def step (t : HistoryTables ρ) (op : HistoryOperation ρ) : HistoryTables ρ :=
  match op.apply env scope t with
  | .ok t' => t'
  | .error _ => t

def run (t : HistoryTables ρ) (ops : List (HistoryOperation ρ)) : HistoryTables ρ :=
  ops.foldl (step env scope) t

end HistoryOperation

end Generations
