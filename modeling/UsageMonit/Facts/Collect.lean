import UsageMonit.Facts.Store

/-!
# Collecting expired evidence (`source_history/sqlite_evidence_gc.rs`)

Retention works in units: `prepareGcEvidenceUnit` reads a bounded page without holding the writer,
and `PreparedEvidenceGc.publish` commits it if nothing that it rests on has changed. The state of
the work is the persisted `Progress`: for each active set a job copies the retained records to a
replacement generation, page by page, swaps the manifest and retires the other generation; then
expired staging states and orphan generations are removed.

A unit reads in several transactions. They are its arguments, `reads 0` the database of the first;
the last read, of the rows, is of the database `db`. The budget of a page is the number of its rows
that fit. Session digests and the statistics of a collection are not modelled: a unit of the digest
phase moves on with the outcome of its scan, which is an input.
-/

namespace Facts

open Fallible Time

variable {φ β : Type}

def i64Max : Int := 2 ^ 63 - 1
def i64Min : Int := -2 ^ 63

inductive Action (φ β : Type)
  | none
  | delete (rows : List (HistoryRow φ))
  | copy (nspace : FactNamespace) (rows : List (UsageEventFactRecord φ))
  | publish (key : ThreadShardKey) (expected replacement : ActiveFactManifest β)
  | deleteStates (batchId : FactBatchId) (descriptor : StagedFactBatch β) (stagedAt : DateTime)
      (publication : Option (ActiveFactManifest β))
deriving DecidableEq

/-- The states that a sweep of an orphan rests on. -/
structure References (β : Type) where
  shardKey : ThreadShardKey
  manifest : Option (ActiveFactManifest β)
  generation : FactBatchId
  descriptor : Option (StagedFactBatch β)
deriving DecidableEq

structure PreparedEvidenceGc (φ β : Type) where
  expected : Option (Progress β)
  next : Progress β
  action : Action φ β
  references : Option (References β)
  sourceMetadata : SourceKind
deriving DecidableEq

/-! ## Pages -/

def RowCursor.before (cursor : RowCursor) (record : UsageEventFactRecord φ) : Bool :=
  decide (cursor.sortTime < timestampMillis record.occurredAt) ||
    (decide (cursor.sortTime = timestampMillis record.occurredAt) &&
      decide (cursor.key < record.eventId))

def cursorAt (nspace : FactNamespace) (record : UsageEventFactRecord φ) : RowCursor :=
  ⟨nspace, timestampMillis record.occurredAt, record.eventId⟩

/-- The rows of a sorted list that come after a cursor. -/
def rowsAfter (cursor : Option RowCursor) (records : List (UsageEventFactRecord φ)) :
    List (UsageEventFactRecord φ) :=
  match cursor with
  | some cursor => records.filter cursor.before
  | none => records

/-- `read_rows`: the page that fits the budget, and whether it is the last one. -/
def FactDatabase.readRows (db : FactDatabase φ β) (nspace : FactNamespace)
    (cursor : Option RowCursor) (budget : Nat) : List (UsageEventFactRecord φ) × Bool :=
  let rows := rowsAfter cursor (db.readRecords nspace)
  (rows.take budget, decide (rows.length ≤ budget))

/-- The cursor after a page. -/
def advance (nspace : FactNamespace) (cursor : Option RowCursor)
    (rows : List (UsageEventFactRecord φ)) : Option RowCursor :=
  match rows.getLast? with
  | some record => some (cursorAt nspace record)
  | none => cursor

def atEnd (nspace : FactNamespace) : RowCursor := ⟨nspace, i64Max, ""⟩

def FactNamespace.toKey (nspace : FactNamespace) : String :=
  nspace.shardKey ++ "/" ++ nspace.generation

/-- `next_namespace`. -/
def FactDatabase.nextNamespace (db : FactDatabase φ β) (cursor : Option RowCursor) :
    Option FactNamespace :=
  let keys := (db.records.map (·.nspace)).filter fun nspace =>
    match cursor with
    | some cursor => decide (cursor.nspace.toKey < nspace.toKey)
    | none => true
  keys.find? fun nspace => keys.all fun other => decide (nspace.toKey ≤ other.toKey)

/-- The least key above a position. -/
def nextKey (keys : List String) (position : String) : Option String :=
  let above := keys.filter fun key => decide (position < key)
  above.find? fun key => above.all fun other => decide (key ≤ other)

/-! ## Jobs -/

section
variable (env : StoreEnv φ β)

def FactJob.original (job : FactJob β) : FactNamespace :=
  ⟨job.expected.threadShardKey, job.expected.activeGeneration⟩

def FactJob.candidate (job : FactJob β) : FactNamespace :=
  ⟨job.expected.threadShardKey, job.replacement⟩

def FactJob.new (key : ThreadShardKey) (expected : ActiveFactManifest β)
    (replacement : FactBatchId) : FactJob β where
  key := key
  expected := expected
  replacement := replacement
  cursor := none
  seenCount := 0
  seenDays := ∅
  retainedCount := 0
  retainedDays := ∅
  retireNamespace := none
  cancelled := false

def validateJob (job : FactJob β) : Except String Unit := do
  validateActiveManifest env.toFactEnv job.expected job.expected.replica
    job.expected.threadShardKey
  ensure (job.replacement ≠ job.expected.activeGeneration ∧
      job.seenCount ≤ job.expected.recordCount ∧ job.retainedCount ≤ job.seenCount ∧
      job.retainedDays ⊆ job.seenDays)
    "GC candidate progress counters or generation are invalid"
  validateSortedUniqueDays (job.seenDays.sort (· ≤ ·))
  ensure (job.key = job.expected.threadShardKey)
    "GC candidate manifest key does not match its namespace"
  ensure (job.retireNamespace = none →
      job.cursor.map (·.nspace) = none ∨ job.cursor.map (·.nspace) = some job.original)
    "GC fact cursor does not match its immutable generation"

def FactJob.see (cutoff : DateTime) (job : FactJob β) (record : UsageEventFactRecord φ) :
    Except String (FactJob β) := do
  validateFactRecordNamespace env.toFactEnv record job.expected.replica
  ensure (¬ job.expected.retainedSince.any
      (fun floor => decide (record.occurredAt < floor)) = true)
    "fact GC record key, timestamp or retention floor is invalid"
  let job := { job with
    seenCount := job.seenCount + 1
    seenDays := insert (dateNaive record.occurredAt) job.seenDays }
  ensure (job.seenCount ≤ maxFactGenerationRecords ∧ job.seenCount ≤ job.expected.recordCount)
    "fact GC generation exceeds its manifest record count"
  if cutoff ≤ record.occurredAt then
    pure { job with
      retainedCount := job.retainedCount + 1
      retainedDays := insert (dateNaive record.occurredAt) job.retainedDays }
  else pure job

def FactJob.changed (job : FactJob β) : Bool := decide (job.retainedCount ≠ job.seenCount)

def FactJob.replacementManifest (job : FactJob β) (cutoff : DateTime) : ActiveFactManifest β :=
  { job.expected with
    activeGeneration := if job.changed then job.replacement else job.expected.activeGeneration
    retainedSince := some cutoff
    shardDays := job.retainedDays.sort (· ≤ ·)
    recordCount := job.retainedCount }

def retainedRows (cutoff : DateTime) (rows : List (UsageEventFactRecord φ)) :
    List (UsageEventFactRecord φ) :=
  rows.filter fun record => decide (cutoff ≤ record.occurredAt)

/-- One page of a job whose set is still active. -/
def FactJob.page (cutoff : DateTime) (job : FactJob β) (rows : List (UsageEventFactRecord φ))
    (complete : Bool) : Except String (FactJob β × Action φ β) := do
  let job ← rows.foldlM (FactJob.see env cutoff)
    { job with cursor := advance job.original job.cursor rows }
  let retained := retainedRows cutoff rows
  if complete then do
    ensure (job.seenCount = job.expected.recordCount ∧
        job.seenDays.sort (· ≤ ·) = job.expected.shardDays)
      "fact GC generation does not match its manifest"
    if retained ≠ [] then
      pure ({ job with cursor := some (atEnd job.original) }, .copy job.candidate retained)
    else
      pure ({ job with
          retireNamespace := some (if job.changed then job.original else job.candidate)
          cursor := none },
        .publish job.key job.expected (job.replacementManifest cutoff))
  else pure (job, .copy job.candidate retained)

/-! ## Preparation -/

variable [DecidableEq β]

/-- The phase that copies retained facts. -/
def prepareFacts (reads : Nat → FactDatabase φ β) (db : FactDatabase φ β) (next : Progress β)
    (generated : FactBatchId) (budget : Nat) : Except String (Progress β × Action φ β) :=
  match next.job with
  | none =>
    match nextKey db.manifests.keys next.stateCursor with
    | none => .ok ({ next with phase := .staging, stateCursor := "" }, .none)
    | some key => do
      let manifest ← okOr (db.manifests.lookup key) "GC fact manifest is missing"
      validateActiveManifest env.toFactEnv manifest manifest.replica manifest.threadShardKey
      ensure (key = manifest.threadShardKey) "GC active manifest key does not match its shard"
      if manifest.retainedSince.any (fun floor => decide (next.cutoff ≤ floor)) then
        pure ({ next with stateCursor := key }, .none)
      else pure ({ next with job := some (FactJob.new key manifest generated) }, .none)
  | some job =>
    match job.retireNamespace with
    | some retired =>
      let page := db.readRows retired none budget
      let action := .delete (page.1.map fun record => ⟨retired, record⟩)
      if page.2 then
        .ok ({ next with
          stateCursor := if job.cancelled then next.stateCursor else job.key
          job := none }, action)
      else .ok (next, action)
    | none =>
      if (reads 2).manifests.lookup job.key ≠ some job.expected then
        .ok ({ next with
          job := some { job with retireNamespace := some job.candidate, cancelled := true } }, .none)
      else do
        let page := db.readRows job.original job.cursor budget
        let worked ← job.page env next.cutoff page.1 page.2
        pure ({ next with job := some worked.1 }, worked.2)

/-- The phase that removes expired staging states. -/
def prepareStaging (reads : Nat → FactDatabase φ β) (db : FactDatabase φ β) (next : Progress β) :
    Except String (Progress β × Action φ β) :=
  match nextKey (reads 2).staged.keys next.stateCursor with
  | none => .ok ({ next with phase := .orphans, cursor := none }, .none)
  | some batchId => do
    let descriptor ← okOr ((reads 3).staged.lookup batchId) "GC staged descriptor disappeared"
    validateStagedBatch env.toFactEnv descriptor batchId
    let timestamp ← okOr ((reads 4).stagedAt.lookup batchId)
      "staged fact batch has no central staging timestamp"
    let expired := decide (timestamp <
      (checkedSubSigned next.trustedAt (hours factStagingTtlHours)).getD minUtc)
    pure ({ next with stateCursor := batchId },
      if expired then
        .deleteStates batchId descriptor timestamp (db.publications.lookup batchId)
      else .none)

/-- The phase that removes generations that nothing refers to. -/
def prepareOrphans (reads : Nat → FactDatabase φ β) (db : FactDatabase φ β) (next : Progress β)
    (budget : Nat) : Except String (Progress β × Action φ β × Option (References β)) :=
  let resumed := next.cursor.filter fun cursor => decide (cursor.sortTime ≠ i64Max)
  let found := match resumed with
    | some cursor => some cursor.nspace
    | none => (reads 2).nextNamespace next.cursor
  match found with
  | none => .ok ({ next with phase := .done }, .none, none)
  | some nspace => do
    let cursor := match resumed with
      | some cursor => cursor
      | none => ⟨nspace, i64Min, ""⟩
    let active := (reads 3).manifests.lookup nspace.shardKey
    checkSome active fun manifest =>
      validateActiveManifest env.toFactEnv manifest manifest.replica nspace.shardKey
    let staged := (reads 4).staged.lookup nspace.generation
    checkSome staged fun descriptor =>
      validateStagedBatch env.toFactEnv descriptor nspace.generation
    let references := some ⟨nspace.shardKey, active, nspace.generation, staged⟩
    if active.map (·.activeGeneration) = some nspace.generation ∨
        staged.map (·.threadShardKey) = some nspace.shardKey then
      pure ({ next with cursor := some (atEnd nspace) }, .none, references)
    else
      let page := db.readRows nspace (some cursor) budget
      pure ({ next with
          cursor := if page.2 then some (atEnd nspace)
            else (advance nspace (some cursor) page.1) },
        .delete (page.1.map fun record => ⟨nspace, record⟩), references)

/-- What the scan of the session digests came to. -/
structure DigestScan where
  cursor : Option RowCursor
  complete : Bool

def prepareGcEvidenceUnit (reads : Nat → FactDatabase φ β) (db : FactDatabase φ β)
    (cutoff trustedAt : DateTime) (generated : FactBatchId) (scan : DigestScan) (budget : Nat) :
    Except String (PreparedEvidenceGc φ β) := do
  let source ← okOr (reads 0).source "GC source was removed during preparation"
  let expected := (reads 1).progress
  let next := expected.getD ⟨cutoff, trustedAt, .digests, none, "", none⟩
  ensure (next.cutoff = cutoff ∧ next.trustedAt = trustedAt)
    "evidence GC progress retention boundary changed"
  checkSome next.job (validateJob env)
  match next.phase with
  | .digests =>
    let next := if scan.complete then { next with phase := .facts, cursor := none }
      else { next with cursor := scan.cursor }
    pure ⟨expected, next, .delete [], none, source⟩
  | .facts => do
    let unit ← prepareFacts env reads db next generated budget
    pure ⟨expected, unit.1, unit.2, none, source⟩
  | .staging => do
    let unit ← prepareStaging env reads db next
    pure ⟨expected, unit.1, unit.2, none, source⟩
  | .orphans => do
    let unit ← prepareOrphans env reads db next budget
    pure ⟨expected, unit.1, unit.2.1, unit.2.2, source⟩
  | .done => pure ⟨expected, next, .none, none, source⟩

end

/-! ## Publication -/

variable [DecidableEq φ] [DecidableEq β]

/-- `delete_rows`: every row must still be there. -/
def FactDatabase.deleteRows (db : FactDatabase φ β) :
    List (HistoryRow φ) → Except String (FactDatabase φ β)
  | [] => .ok db
  | row :: rows => do
    ensure (row ∈ db.records) "GC record changed after preparation"
    FactDatabase.deleteRows { db with records := db.records.filter (· ≠ row) } rows

/-- Inserts rows whose keys must be free. -/
def FactDatabase.insertRows (db : FactDatabase φ β) (nspace : FactNamespace) :
    List (UsageEventFactRecord φ) → Except String (FactDatabase φ β)
  | [] => .ok db
  | record :: records => do
    ensure (record.eventId ∉ (db.rows nspace).map (·.eventId)) "GC record already exists"
    FactDatabase.insertRows { db with records := db.records ++ [⟨nspace, record⟩] } nspace records

/-- A job that was still copying rests on its active set. -/
def activeJob (expected : Option (Progress β)) : Option (FactJob β) :=
  (expected.bind (·.job)).filter fun job => decide (job.retireNamespace = none)

def PreparedEvidenceGc.apply (unit : PreparedEvidenceGc φ β) (db : FactDatabase φ β) :
    Except String (FactDatabase φ β) :=
  match unit.action with
  | .none => .ok db
  | .delete rows => db.deleteRows rows
  | .copy nspace rows => db.insertRows nspace rows
  | .publish key expected replacement => do
    ensure (db.manifests.lookup key = some expected) "fact GC compare-and-swap failed"
    pure { db with manifests := db.manifests.insert key replacement }
  | .deleteStates batchId descriptor stagedAt publication => do
    ensure (db.staged.lookup batchId = some descriptor ∧ db.stagedAt.lookup batchId = some stagedAt ∧
        (publication = none ∨ db.publications.lookup batchId = publication))
      "GC staged state changed after preparation"
    pure { db with
      staged := db.staged.erase batchId
      stagedAt := db.stagedAt.erase batchId
      publications := if publication = none then db.publications
        else db.publications.erase batchId }

def PreparedEvidenceGc.publish (unit : PreparedEvidenceGc φ β) (db : FactDatabase φ β) :
    Except String (FactDatabase φ β) := do
  ensure (db.progress = unit.expected) "evidence GC progress changed after preparation"
  ensure (db.source = some unit.sourceMetadata)
    "GC source metadata changed or was purged after preparation"
  checkSome unit.references fun references =>
    ensure (db.manifests.lookup references.shardKey = references.manifest ∧
        db.staged.lookup references.generation = references.descriptor)
      "GC artifact references changed after preparation"
  checkSome (activeJob unit.expected) fun job =>
    ensure (db.manifests.lookup job.key = some job.expected ∨ unit.action = .none)
      "fact GC active version changed after preparation"
  let db ← unit.apply db
  pure { db with progress := if unit.next.phase = .done then none else some unit.next }

end Facts
