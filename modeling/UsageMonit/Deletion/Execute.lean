import UsageMonit.Deletion.Ledger
import UsageMonit.Lib.Effects

/-!
# Deleting a session (`session_delete.rs`)

`executeWithClient` and `reconcileWithClient` as programs over what they observe and write: the
management client, the session files and the ledger. The client and the files answer anything; the
ledger's transactions commit or fail. Whole runs are in `Reaches`: activities one after another
under the operation lock, each stopped after any number of steps.
-/

namespace Deletion

open Effects Fallible Text Time Usage

/-- An error of the client, or any other. -/
inductive ManagementError
  | rpc (code : Option Int) (message : String)
  | other (message : String)
deriving DecidableEq

structure ManagedThread where
  id : String
  parentThreadId : Option String
  path : String
  name : Option String
  runtimeStatus : String
  ephemeral : Bool
deriving DecidableEq

/-- The session roots of a local binding, by the home they were resolved for. -/
structure SessionCaptureRoots where
  home : String
deriving DecidableEq

structure RolloutFile where
  path : String
  modifiedAt : DateTime
  fingerprint : String
deriving DecidableEq

/-- The usage captured for one deletion, with the owned files it was read from. -/
structure SessionUsageCapture where
  dataset : RolloutDataset
  roots : SessionCaptureRoots
  targets : List String
  files : List (RolloutFile × String)
deriving DecidableEq

def SessionUsageCapture.paths (capture : SessionUsageCapture) : List String :=
  capture.files.map fun file => file.1.path

def SessionUsageCapture.pathsForThread (capture : SessionUsageCapture) (threadId : String) :
    List String :=
  (capture.files.filter fun file => file.2 = threadId).map fun file => file.1.path

structure PreparedSessionDeletion where
  rootThreadId : String
  threadIds : List String
  capturedAt : DateTime
  totalTokens : TokenUsage
  selectedRoot : String
  captureBoundary : DateTime
  /-- `binding.session_roots`. -/
  sessionRoots : SessionCaptureRoots
  threads : List ManagedThread
  capture : SessionUsageCapture
  operationId : String
deriving DecidableEq

/-! ## Errors of the client -/

def toAsciiLowercase (text : String) : List Char :=
  text.toList.map Char.toLower

def stripPrefix (start text : List Char) : Option (List Char) :=
  if start.isPrefixOf text then some (text.drop start.length) else none

/-- Space, colon or a quotation mark before an identity. -/
def isIdentityLead (c : Char) : Bool :=
  isWhitespace c || [58, 39, 34, 96].contains c.toNat

def missingThreadPrefixes : List String :=
  ["thread not found", "thread was not found", "no rollout found for thread id",
    "no session found for", "thread does not exist"]

def isMissingThread (error : ManagementError) (threadId : String) : Bool :=
  match error with
  | .other _ => false
  | .rpc code message =>
    [some (-32600), some (-32602), some (-32004)].contains code &&
      (missingThreadPrefixes.filterMap fun start =>
        stripPrefix start.toList (toAsciiLowercase message)).any fun suffix =>
          (suffix.dropWhile isIdentityLead).takeWhile (fun c => isAsciiHexdigit c || c = '-') =
            threadId.toList

def isThreadNotLoaded (error : ManagementError) (threadId : String) : Bool :=
  match error with
  | .other _ => false
  | .rpc code message =>
    code == some (-32600) &&
      (stripPrefix "thread not loaded:".toList (toAsciiLowercase message)).any fun suffix =>
        trimChars suffix = threadId.toList

/-! ## Operations -/

inductive PathStatus
  | present
  | notFound
  | otherError
deriving DecidableEq

/-- What the programs ask of the client, the files and the ledger. -/
inductive Op
  | readThread (id : String)
  | descendants (root : String)
  | deleteThread (root : String) (expected : List String)
  | persistedThreads (targets : List String)
  | rootsUnchanged (roots : SessionCaptureRoots)
  | validateLogPath (roots : SessionCaptureRoots) (path : String)
  | discoverFiles (roots : SessionCaptureRoots) (targets : List String)
  | canonicalize (path : String)
  | symlinkMetadata (path : String)
  | prepareDelete (redactContent : Bool) (operationId : String)
      (records : List DeletedSessionRecord)
  | setDeletionOutcome (operationId threadId : String) (status : DeletionStatus)

def Op.Answer : Op → Type
  | .readThread _ => Except ManagementError ManagedThread
  | .descendants _ => Except ManagementError (List ManagedThread)
  | .deleteThread _ _ => Except ManagementError Unit
  | .persistedThreads _ => Except ManagementError (List String)
  | .rootsUnchanged _ => Except ManagementError Unit
  | .validateLogPath _ _ => Except ManagementError Unit
  | .discoverFiles _ _ => Except ManagementError (List (RolloutFile × String))
  | .canonicalize _ => Except ManagementError String
  | .symlinkMetadata _ => PathStatus
  | .prepareDelete _ _ _ => Except ManagementError Unit
  | .setDeletionOutcome _ _ _ => Except ManagementError Unit

/-- A transaction of the ledger commits when it succeeds and the storage is available. -/
def commit (ledger : Ledger) (available : Bool) (transaction : Except String Ledger) :
    Except ManagementError Unit × Ledger :=
  match transaction, available with
  | .ok next, true => (.ok (), next)
  | .ok _, false => (.error (.other "the ledger is unavailable"), ledger)
  | .error e, _ => (.error (.other e), ledger)

/-- The client and the files choose their answers; at a transaction the surroundings choose whether
the storage is available and the time of an outcome. -/
def handler (env : LedgerEnv) : Handler Op Op.Answer Ledger where
  Choice
    | .prepareDelete _ _ _ => Bool
    | .setDeletionOutcome _ _ _ => Bool × DateTime
    | .readThread id => (Op.readThread id).Answer
    | .descendants root => (Op.descendants root).Answer
    | .deleteThread root expected => (Op.deleteThread root expected).Answer
    | .persistedThreads targets => (Op.persistedThreads targets).Answer
    | .rootsUnchanged roots => (Op.rootsUnchanged roots).Answer
    | .validateLogPath roots path => (Op.validateLogPath roots path).Answer
    | .discoverFiles roots targets => (Op.discoverFiles roots targets).Answer
    | .canonicalize path => (Op.canonicalize path).Answer
    | .symlinkMetadata path => (Op.symlinkMetadata path).Answer
  answer
    | .prepareDelete redactContent operationId records, available, ledger =>
      commit ledger available
        (prepareDelete env redactContent ledgerReadBudget ledger operationId records)
    | .setDeletionOutcome operationId threadId status, choice, ledger =>
      commit ledger choice.1
        (setDeletionOutcome env ledgerReadBudget ledger operationId threadId status choice.2)
    | .readThread _, answer, ledger => (answer, ledger)
    | .descendants _, answer, ledger => (answer, ledger)
    | .deleteThread _ _, answer, ledger => (answer, ledger)
    | .persistedThreads _, answer, ledger => (answer, ledger)
    | .rootsUnchanged _, answer, ledger => (answer, ledger)
    | .validateLogPath _ _, answer, ledger => (answer, ledger)
    | .discoverFiles _ _, answer, ledger => (answer, ledger)
    | .canonicalize _, answer, ledger => (answer, ledger)
    | .symlinkMetadata _, answer, ledger => (answer, ledger)

abbrev Session (α : Type) := Prog Op Op.Answer ManagementError α

/-- Ask, and fail with the answer's error. -/
def ask {α : Type} (answer : Session (Except ManagementError α)) : Session α :=
  answer >>= Prog.lift

def require (c : Prop) [Decidable c] (message : String) : Session Unit :=
  Prog.lift (ensure c (.other message))

def readThread (id : String) : Session (Except ManagementError ManagedThread) :=
  Prog.perform (Op.readThread id)

def descendants (root : String) : Session (Except ManagementError (List ManagedThread)) :=
  Prog.perform (Op.descendants root)

def deleteThread (root : String) (expected : List String) :
    Session (Except ManagementError Unit) :=
  Prog.perform (Op.deleteThread root expected)

def persistedThreads (targets : List String) : Session (Except ManagementError (List String)) :=
  Prog.perform (Op.persistedThreads targets)

def rootsUnchanged (roots : SessionCaptureRoots) : Session (Except ManagementError Unit) :=
  Prog.perform (Op.rootsUnchanged roots)

def validateLogPath (roots : SessionCaptureRoots) (path : String) :
    Session (Except ManagementError Unit) :=
  Prog.perform (Op.validateLogPath roots path)

def discoverFiles (roots : SessionCaptureRoots) (targets : List String) :
    Session (Except ManagementError (List (RolloutFile × String))) :=
  Prog.perform (Op.discoverFiles roots targets)

def canonicalize (path : String) : Session (Except ManagementError String) :=
  Prog.perform (Op.canonicalize path)

def symlinkMetadata (path : String) : Session PathStatus :=
  Prog.perform (Op.symlinkMetadata path)

def saveRecords (redactContent : Bool) (operationId : String)
    (records : List DeletedSessionRecord) : Session (Except ManagementError Unit) :=
  Prog.perform (Op.prepareDelete redactContent operationId records)

def recordOutcome (operationId threadId : String) (status : DeletionStatus) :
    Session (Except ManagementError Unit) :=
  Prog.perform (Op.setDeletionOutcome operationId threadId status)

/-! ## The tree of sessions -/

/-- A character of a hyphenated lower-case UUID at an index. -/
def uuidCharacter (index : Nat) (c : Char) : Bool :=
  if [8, 13, 18, 23].contains index then c = '-'
  else c.isDigit || (97 ≤ c.toNat && c.toNat ≤ 102)

def validateUuid (value : String) : Session Unit :=
  require (value.toList.length = 36 ∧
      value.toList.zipIdx.all (fun p => uuidCharacter p.2 p.1) = true)
    "select a local session by its exact UUID; session names and remote identities are not accepted"

/-- A map by identity: the value of a later insertion stays. -/
def insertMember (members : List ManagedThread) (thread : ManagedThread) : List ManagedThread :=
  members.filter (fun member => member.id ≠ thread.id) ++ [thread]

def readDescendants (root : String) :
    List ManagedThread → List ManagedThread → Session (List ManagedThread)
  | members, [] => pure members
  | members, listed :: rest => do
    validateUuid listed.id
    require (listed.id ≠ root ∧ members.any (fun member => member.id = listed.id) = false)
      "invalid duplicate descendant identity"
    let fresh ← ask (readThread listed.id)
    require (fresh.parentThreadId = listed.parentThreadId ∧ fresh.path = listed.path)
      "descendant ownership changed while reading its metadata"
    readDescendants root (insertMember members fresh) rest

/-- The walk from a member to the root. Every turn adds a member to `seen`, so it ends within as
many turns as there are members. -/
def connected (members : List ManagedThread) (root : String) :
    Nat → List String → ManagedThread → Except ManagementError Unit
  | fuel, seen, current =>
    if current.id = root then .ok ()
    else if current.id ∈ seen then .error (.other "cyclic spawned-session ownership")
    else
      match fuel, current.parentThreadId with
      | 0, _ => .error (.other "cyclic spawned-session ownership")
      | _, none => .error (.other "spawned ownership is incomplete")
      | fuel + 1, some parent =>
        match members.find? fun member => member.id = parent with
        | none => .error (.other "descendant is not connected to the selected root")
        | some next => connected members root fuel (current.id :: seen) next

def validateMember (roots : SessionCaptureRoots) (root : String) (members : List ManagedThread)
    (thread : ManagedThread) : Session Unit := do
  require (thread.id = root ∨ thread.parentThreadId.isSome = true)
    "descendant has no proven spawned parent"
  require (thread.ephemeral = false) "ephemeral sessions cannot be deleted with retained usage"
  require (thread.runtimeStatus = "idle" ∨ thread.runtimeStatus = "notLoaded")
    ("session " ++ thread.id ++ " is active or its runtime state is unavailable")
  ask (validateLogPath roots thread.path)
  Prog.lift (connected members root members.length [] thread)

def validateMembers (roots : SessionCaptureRoots) (root : String) (members : List ManagedThread) :
    List ManagedThread → Session Unit
  | [] => pure ()
  | thread :: threads => do
    validateMember roots root members thread
    validateMembers roots root members threads

def freshTree (root : String) (roots : SessionCaptureRoots) : Session (List ManagedThread) := do
  validateUuid root
  ask (rootsUnchanged roots)
  let rootThread ← ask (readThread root)
  require (rootThread.id = root) "thread/read returned a different root identity"
  let listed ← ask (descendants root)
  let members ← readDescendants root [rootThread] listed
  let members := members.insertionSort fun left right => left.id ≤ right.id
  validateMembers roots root members members
  ask (rootsUnchanged roots)
  return members

/-! ## The capture -/

def SessionUsageCapture.validateUnchanged (capture : SessionUsageCapture) : Session Unit := do
  let current ← ask (discoverFiles capture.roots capture.targets)
  require (current = capture.files)
    "session rollout files changed after usage capture; prepare deletion again"

def remainingOwnedThreads (roots : SessionCaptureRoots) (targets : List String) :
    Session (List String) := do
  require (targets ≠ [] ∧ targets.length ≤ 1024)
    "invalid session absence verification target set"
  let files ← ask (discoverFiles roots targets)
  return files.map (·.2)

/-- Whether one of the paths resolves to `canonical`. -/
def anyCanonical (canonical : String) : List String → Session Bool
  | [] => pure false
  | path :: paths => do
    let resolved ← canonicalize path
    if resolved.toOption = some canonical then pure true else anyCanonical canonical paths

def TaskStatus.settled : TaskStatus → Bool
  | .running | .waitingApproval | .waitingInput | .stale | .unknown => false
  | .idle | .completed | .interrupted | .failed => true

def TurnStatus.settled : TurnStatus → Bool
  | .completed | .interrupted | .failed => true
  | .inProgress | .stale | .unknown => false

def validateThreadCapture (capture : SessionUsageCapture) (thread : ManagedThread) :
    Session Unit := do
  let task ← Prog.lift (okOr (capture.dataset.tasks.find? fun task => task.threadId = thread.id)
    (.other "complete own-session usage metadata could not be captured"))
  require (TaskStatus.settled task.status = true)
    ("session " ++ thread.id ++ " is active or its persisted state is unknown")
  require (∀ turn ∈ capture.dataset.turns, turn.threadId = thread.id →
      TurnStatus.settled turn.status = true)
    ("session " ++ thread.id ++ " has an unfinished or unverifiable turn")
  let canonical ← ask (canonicalize thread.path)
  let matched ← anyCanonical canonical (capture.pathsForThread thread.id)
  require (matched = true) "API thread identity does not match its owned usage log"

def validateThreadCaptures (capture : SessionUsageCapture) : List ManagedThread → Session Unit
  | [] => pure ()
  | thread :: threads => do
    validateThreadCapture capture thread
    validateThreadCaptures capture threads

def validateCapture (threads : List ManagedThread) (capture : SessionUsageCapture) :
    Session Unit := do
  require (threads.length ≤ capture.paths.length) "owned session capture is incomplete"
  validateThreadCaptures capture threads

/-! ## Records -/

/-- `DeletedSessionRecord::from_dataset`. -/
def fromDataset (env : LedgerEnv) (threadId title : String) (capturedAt : DateTime)
    (dataset : RolloutDataset) : Except String DeletedSessionRecord := do
  let task ← okOr (dataset.tasks.find? fun task => task.threadId = threadId)
    "target session is absent from complete usage capture"
  let record : DeletedSessionRecord := {
    threadId := threadId
    title := shortTitle env title
    parentThreadId := task.parentThreadId
    cwd := task.cwd
    source := task.source
    createdAt := task.createdAt
    updatedAt := task.updatedAt
    capturedAt := capturedAt
    deletedAt := none
    status := .pending
    calls := (dataset.calls.filter fun call => call.threadId = threadId).map DeletedUsageCall.from
    turns := (dataset.turns.filter fun turn => turn.threadId = threadId).map fun turn =>
      { turnId := turn.turnId, model := turn.model, serviceTier := turn.serviceTier,
        startedAt := turn.startedAt, completedAt := turn.completedAt,
        durationMs := turn.durationMs, status := turn.status }
    agentInteractions := dataset.agentInteractions.filter fun edge =>
      edge.parentThreadId = threadId ∨ edge.childThreadId = threadId }
  record.validate env
  return record

def memberRecord (env : LedgerEnv) (prepared : PreparedSessionDeletion) (thread : ManagedThread) :
    Except String DeletedSessionRecord := do
  let task ← okOr (prepared.capture.dataset.tasks.find? fun task => task.threadId = thread.id)
    "captured session metadata is missing"
  let record ← fromDataset env thread.id (thread.name.getD task.title) prepared.capturedAt
    prepared.capture.dataset
  return { record with parentThreadId := thread.parentThreadId }

def memberRecords (env : LedgerEnv) (prepared : PreparedSessionDeletion) :
    List ManagedThread → Except String (List DeletedSessionRecord)
  | [] => .ok []
  | thread :: threads => do
    let record ← memberRecord env prepared thread
    let records ← memberRecords env prepared threads
    return record :: records

def liftText {α : Type} (x : Except String α) : Session α :=
  Prog.lift (x.mapError ManagementError.other)

/-! ## Execution -/

def validatePreparedSummary (prepared : PreparedSessionDeletion) : Session Unit :=
  require (prepared.rootThreadId = prepared.selectedRoot ∧
      prepared.threadIds = prepared.threads.map (·.id) ∧
      prepared.capturedAt = prepared.captureBoundary ∧
      prepared.totalTokens = TokenUsage.sum (prepared.capture.dataset.calls.map (·.tokens)))
    "prepared deletion summary was modified; prepare and confirm again"

def finalValidation (prepared : PreparedSessionDeletion) : Session Unit := do
  prepared.capture.validateUnchanged
  let tree ← freshTree prepared.rootThreadId prepared.sessionRoots
  require (tree = prepared.threads)
    "session state or spawned descendants changed before the delete request"
  prepared.capture.validateUnchanged

def recordFailed (operationId : String) : List String → Session Unit
  | [] => pure ()
  | id :: ids => do
    ask (recordOutcome operationId id .failed)
    recordFailed operationId ids

def allNotFound : List String → Session Bool
  | [] => pure true
  | path :: paths => do
    let status ← symlinkMetadata path
    if status = .notFound then allNotFound paths else pure false

/-- No owner scan finds the thread, and every captured path of it is gone. -/
def filesAbsent (capture : SessionUsageCapture) (remainingOwned : Except ManagementError (List String))
    (id : String) : Session Bool :=
  match remainingOwned with
  | .error _ => pure false
  | .ok owners =>
    if id ∈ owners ∨ capture.pathsForThread id = [] then pure false
    else allNotFound (capture.pathsForThread id)

def isOk {α : Type} (x : Except ManagementError α) : Bool :=
  match x with
  | .ok _ => true
  | .error _ => false

def reportsMissing (deletionResult : Except ManagementError Unit)
    (observation : Except ManagementError ManagedThread) (id : String) : Bool :=
  match observation with
  | .ok _ => false
  | .error error =>
    isMissingThread error id || (isOk deletionResult && isThreadNotLoaded error id)

def memberStatus (deletionResult : Except ManagementError Unit)
    (observation : Except ManagementError ManagedThread) (absent : Bool) (id : String) :
    DeletionStatus :=
  if isOk deletionResult && reportsMissing deletionResult observation id && absent then .deleted
  else if isOk observation && isOk deletionResult then .partially
  else .unknown

/-- The loop over the members after the request; `deleted` and `unresolved` are those before. -/
def confirmMembers (prepared : PreparedSessionDeletion)
    (deletionResult : Except ManagementError Unit)
    (remainingOwned : Except ManagementError (List String)) :
    List String → List String → List String → Session (List String × List String)
  | deleted, unresolved, [] => pure (deleted, unresolved)
  | deleted, unresolved, id :: ids => do
    let observation ← readThread id
    let absent ← filesAbsent prepared.capture remainingOwned id
    let status := memberStatus deletionResult observation absent id
    ask (recordOutcome prepared.operationId id status)
    if status = .deleted then
      confirmMembers prepared deletionResult remainingOwned (deleted ++ [id]) unresolved ids
    else
      confirmMembers prepared deletionResult remainingOwned deleted (unresolved ++ [id]) ids

/-- From the delete request on. -/
def requestDeletion (prepared : PreparedSessionDeletion) : Session (List String) := do
  let deletionResult ← deleteThread prepared.rootThreadId prepared.threadIds
  let remainingOwned ← Prog.attempt
    (remainingOwnedThreads prepared.capture.roots prepared.capture.targets)
  let (deleted, unresolved) ←
    confirmMembers prepared deletionResult remainingOwned [] [] prepared.threadIds
  require (isOk deletionResult = true)
    "deletion request failed or its result is unknown"
  require (unresolved = []) "deletion is only partially confirmed"
  return deleted

/-- From saving the records of the members on. -/
def saveThenRequest (redactContent : Bool) (prepared : PreparedSessionDeletion)
    (records : List DeletedSessionRecord) : Session (List String) := do
  ask (saveRecords redactContent prepared.operationId records)
  match ← Prog.attempt (finalValidation prepared) with
  | .error error => do
    recordFailed prepared.operationId prepared.threadIds
    Prog.fail error
  | .ok () => requestDeletion prepared

def executeWithClient (env : LedgerEnv) (redactContent : Bool)
    (prepared : PreparedSessionDeletion) : Session (List String) := do
  validatePreparedSummary prepared
  let tree ← freshTree prepared.rootThreadId prepared.sessionRoots
  require (tree = prepared.threads)
    "session state or spawned descendants changed after confirmation; prepare again"
  prepared.capture.validateUnchanged
  validateCapture prepared.threads prepared.capture
  let records ← liftText (memberRecords env prepared prepared.threads)
  saveThenRequest redactContent prepared records

/-! ## Reconciliation -/

def validateReceipts : List String → List PendingDeletionReceipt → Session (List String)
  | targets, [] => pure targets
  | targets, receipt :: receipts => do
    validateUuid receipt.threadId
    require (receipt.threadId ∉ targets) "duplicate unresolved deletion receipt"
    validateReceipts (targets ++ [receipt.threadId]) receipts

def maxDeletionThreads : Nat := 512

/-- Whether a read says that the thread is gone or not loaded. -/
def readsAbsent (observation : Except ManagementError ManagedThread) (id : String) : Bool :=
  match observation with
  | .ok _ => false
  | .error error => isMissingThread error id || isThreadNotLoaded error id

def collectCandidates (persisted : List String) : List String → List String → Session (List String)
  | candidates, [] => pure candidates
  | candidates, id :: ids =>
    if id ∈ persisted then collectCandidates persisted candidates ids
    else do
      let observation ← readThread id
      if readsAbsent observation id then collectCandidates persisted (candidates ++ [id]) ids
      else collectCandidates persisted candidates ids

def confirmReceipts (candidates owners : List String) :
    List String → List PendingDeletionReceipt → Session (List String)
  | confirmed, [] => pure confirmed
  | confirmed, receipt :: receipts =>
    if receipt.threadId ∈ candidates ∧ receipt.threadId ∉ owners then do
      ask (recordOutcome receipt.operationId receipt.threadId .deleted)
      confirmReceipts candidates owners (confirmed ++ [receipt.threadId]) receipts
    else confirmReceipts candidates owners confirmed receipts

def reconcileWithClient (roots : SessionCaptureRoots) (receipts : List PendingDeletionReceipt) :
    Session (List String) := do
  let targets ← validateReceipts [] receipts
  require (targets ≠ [] ∧ targets.length ≤ maxDeletionThreads)
    "unresolved deletion verification exceeded its target budget"
  ask (rootsUnchanged roots)
  let persisted ← ask (persistedThreads targets)
  let candidates ← collectCandidates persisted [] targets
  if candidates = [] then return []
  else do
    let owners ← remainingOwnedThreads roots targets
    confirmReceipts candidates owners [] receipts

/-! ## Runs -/

def hexDigit (n : Nat) : Char := Char.ofNat (if n < 10 then 48 + n else 87 + n)

/-- The identity of an operation: sixteen random bytes in hexadecimal. -/
def operationIdOf (random : List UInt8) : String :=
  String.ofList (random.flatMap fun byte => [hexDigit (byte.toNat / 16), hexDigit (byte.toNat % 16)])

/-- What takes the operation lock. -/
inductive Activity
  | execute (redactContent : Bool) (prepared : PreparedSessionDeletion)
  | reconcile (roots : SessionCaptureRoots) (receipts : List PendingDeletionReceipt)

def Activity.program (env : LedgerEnv) : Activity → Session (List String)
  | .execute redactContent prepared => executeWithClient env redactContent prepared
  | .reconcile roots receipts => reconcileWithClient roots receipts

/-- A prepared deletion has a generated identity. -/
def Activity.WellFormed : Activity → Prop
  | .execute _ prepared =>
    ∃ random : List UInt8, random.length = 16 ∧ prepared.operationId = operationIdOf random
  | .reconcile _ _ => True

/-- An activity with what it did until it ended or was stopped. -/
structure Segment where
  activity : Activity
  events : List (Event Op Op.Answer Ledger)

/-- The ledgers that activities one after another reach, against any client, files and storage. -/
inductive Reaches (env : LedgerEnv) : List Segment → Ledger → Prop
  | start : Reaches env [] Ledger.empty
  | step {past : List Segment} {ledger : Ledger} (activity : Activity)
      (choose : Nat → (op : Op) → (handler env).Choice op) (n : Nat) :
      Reaches env past ledger → activity.WellFormed →
      Reaches env
        (past ++ [⟨activity, ((activity.program env).run (handler env) choose n ledger).events⟩])
        ((activity.program env).run (handler env) choose n ledger).state

end Deletion
