import UsageMonit.Journal.Codec

/-!
# Decoding a page of the delta journal (`remote_delta_journal.rs`)

A durable page of the journal becomes a page and a payload of the protocol
(`decodeRemoteDeltaJournalPageClassified`): every entry is decoded and goes to the changes of its family, the
descriptors of all entries and of the live rows are united. If they cannot go on one page together,
the error says so: the caller may then ask for fewer entries.

The protocol's own validation of a payload is a parameter, of which nothing is assumed. The fields
of live rows that the decoder does not read are their content `γ`.
-/

namespace Journal

open Fallible Time Export Protocol

def maxJournalPageEntries : Nat := 4096
def maxJournalPageBytes : Nat := 8 * 1024 * 1024
def maxDescriptorsPerPage : Nat := 16384

/-! ## Payloads -/

structure RemoteQuotaChange (π : Type) where
  sequence : Nat
  quota : RemoteQuotaDay π
deriving DecidableEq

structure RemoteUsageBucketChange (γ : Type) where
  sequence : Nat
  startsAt : DateTime
  revision : Nat
  mutation : RemoteUsageBucketMutation γ
deriving DecidableEq

structure RemoteSessionDigestChange (γ : Type) where
  sequence : Nat
  threadId : String
  rangeStart : DateTime
  rangeEnd : DateTime
  changedAt : DateTime
  retentionThrough : DateTime
  revision : Nat
  mutation : RemoteSessionDigestMutation γ
deriving DecidableEq

structure RemoteDeltaCoverage where
  requestedRange : ExportRange
  coveredRange : Option ExportRange
  rangeComplete : Bool
  partialReasons : List String
deriving DecidableEq

structure RemoteLiveTask (γ : Type) where
  observedProjectKey : Option String
  content : γ
deriving DecidableEq

structure RemoteLiveSnapshot (γ : Type) where
  capturedAt : DateTime
  tasks : List (RemoteLiveTask γ)
  turns : List γ
deriving DecidableEq

structure RemoteLiveState (γ : Type) where
  liveRevision : Nat
  snapshot : Option (RemoteLiveSnapshot γ)
deriving DecidableEq

structure RemoteDeltaStats where
  journalRecordsScanned : Nat := 0
  quotaChangesEmitted : Nat := 0
  projectDescriptorsEmitted : Nat := 0
  bucketChangesEmitted : Nat := 0
  sessionDigestChangesEmitted : Nat := 0
  liveTasksEmitted : Nat := 0
  liveTurnsEmitted : Nat := 0
  discoveredFiles : Nat := 0
  parsedFiles : Nat := 0
  reusedFiles : Nat := 0
  unreadableFiles : Nat := 0
  truncatedFiles : Nat := 0
  skippedLines : Nat := 0
  ambiguousTokenResets : Nat := 0
  warningsSuppressed : Nat := 0
  gitCommandsSpawned : Nat := 0
  gitWorkspacesProbed : Nat := 0
  gitEvidenceCacheHits : Nat := 0
  gitBudgetExhausted : Nat := 0
  gitElapsedMillis : Nat := 0
deriving DecidableEq

structure RemoteDeltaWarning where
  code : String
  occurrences : Nat
deriving DecidableEq

structure DeltaPayload (γ π : Type) where
  quotaChanges : List (RemoteQuotaChange π)
  coverage : RemoteDeltaCoverage
  projectDescriptors : List RemoteProjectDescriptor
  bucketChanges : List (RemoteUsageBucketChange γ)
  sessionDigestChanges : List (RemoteSessionDigestChange γ)
  live : Option (RemoteLiveState γ)
  stats : RemoteDeltaStats
  warnings : List RemoteDeltaWarning
deriving DecidableEq

/-- `RemoteDeltaPayloadContext`, without a request. -/
structure RemoteDeltaPayloadContext where
  page : DeltaPage
  source : SourceGeneration
  redactionProfile : RedactionProfile
  revisions : ProtocolRevisions
  observedAt : DateTime
deriving DecidableEq

structure RemoteDeltaJournalPageInputs (γ : Type) where
  source : SourceGeneration
  redactionProfile : RedactionProfile
  revisions : ProtocolRevisions
  observedAt : DateTime
  coverage : RemoteDeltaCoverage
  live : Option (RemoteLiveState γ)
  stats : RemoteDeltaStats
  warnings : List RemoteDeltaWarning
  liveProjectDescriptors : List RemoteProjectDescriptor
deriving DecidableEq

/-- `JournalEnv` with `validate_remote_delta_payload`. -/
structure PageEnv (γ π : Type) extends JournalEnv γ π where
  validateRemoteDeltaPayload : RemoteDeltaPayloadContext → DeltaPayload γ π → Except String Unit

/-! ## Errors -/

inductive RemoteDeltaPageDecodeError
  | splittable (error : String)
  | fatal (error : String)
deriving DecidableEq

/-- An error of a single record or of the page itself. -/
def orFatal {α : Type} (x : Except String α) : Except RemoteDeltaPageDecodeError α :=
  x.mapError .fatal

def pageDescriptorError (pageEntryCount : Nat) (message : String) : RemoteDeltaPageDecodeError :=
  if 1 < pageEntryCount then .splittable message else .fatal message

/-! ## The durable page -/

def validateSequences (previous : Nat) : List RemoteExportJournalEntry → Except String Unit
  | [] => pure ()
  | entry :: entries => do
    let expected ← okOr (checkedAdd 64 previous 1) "remote delta journal page sequence overflows"
    ensure (entry.sequence = expected) "remote delta journal page sequence is not contiguous"
    validateSequences entry.sequence entries

def validateDurablePage (page : RemoteExportDeltaPage) : Except String Unit := do
  ensure (page.entries.length ≤ maxJournalPageEntries)
    "remote delta journal page has too many entries"
  ensure (page.nextCursor.generation = page.generation ∧
      page.nextCursor.sequence = page.throughSequence)
    "remote delta journal page cursor does not match its watermark"
  if page.entries = [] then
    ensure (page.fromSequence = page.throughSequence ∧ page.hasMore = false)
      "remote delta no-change page has invalid cursor semantics"
  else do
    ensure (page.fromSequence ≠ 0 ∧
        page.entries.head?.map (·.sequence) = some page.fromSequence ∧
        page.entries.getLast?.map (·.sequence) = some page.throughSequence)
      "remote delta journal page sequence bounds are invalid"
    validateSequences (page.fromSequence - 1) page.entries

def scannedRecords (page : RemoteExportDeltaPage) : Except String Nat :=
  if page.entries = [] then pure 0
  else do
    ensure (page.fromSequence ≤ page.throughSequence)
      "remote delta scanned sequence range overflowed"
    okOr (checkedAdd 64 (page.throughSequence - page.fromSequence) 1)
      "remote delta scanned sequence range overflowed"

/-- The payload that an identifier was seen with, and not another one. -/
def rememberContentId (contentIds : List RemoteExportChange) (change : RemoteExportChange) :
    Except String (List RemoteExportChange) :=
  match contentIds.find? fun known => known.changeId = change.changeId with
  | some existing => do
    ensure (existing.payload = change.payload)
      "remote delta journal contains a content-hash collision"
    pure contentIds
  | none => pure (change :: contentIds)

/-! ## Changes -/

/-- The changes of a page so far, family by family. -/
structure Changes (γ π : Type) where
  quota : List (RemoteQuotaChange π) := []
  buckets : List (RemoteUsageBucketChange γ) := []
  digests : List (RemoteSessionDigestChange γ) := []
deriving DecidableEq

section
variable {γ π : Type}

def Changes.push (changes : Changes γ π) (sequence : Nat)
    (record : RemoteDeltaJournalRecord γ π) : Changes γ π :=
  match record with
  | .quotaDay quota => { changes with quota := changes.quota ++ [⟨sequence, quota⟩] }
  | .usageBucket startsAt mutation =>
    { changes with buckets := changes.buckets ++ [⟨sequence, startsAt, sequence, mutation⟩] }
  | .sessionDigest threadId rangeStart rangeEnd changedAt retentionThrough mutation =>
    { changes with digests := changes.digests ++
        [⟨sequence, threadId, rangeStart, rangeEnd, changedAt, retentionThrough, sequence,
          mutation⟩] }

variable (env : PageEnv γ π) (inputs : RemoteDeltaJournalPageInputs γ)

def RemoteDeltaJournalPageInputs.context {γ : Type} (inputs : RemoteDeltaJournalPageInputs γ)
    (page : DeltaPage) : RemoteDeltaPayloadContext where
  page := page
  source := inputs.source
  redactionProfile := inputs.redactionProfile
  revisions := inputs.revisions
  observedAt := inputs.observedAt

/-- A record alone on a page is valid. -/
def validateDecodedRecord (decoded : RemoteDeltaJournalRecordV1 γ π) (sequence generation : Nat) :
    Except String Unit :=
  let changes := ({} : Changes γ π).push sequence decoded.record
  let page : DeltaPage := ⟨generation, sequence, sequence, ⟨generation, sequence⟩, false⟩
  let payload : DeltaPayload γ π := {
    quotaChanges := changes.quota
    coverage := inputs.coverage
    projectDescriptors := decoded.projectDescriptors
    stats := {
      journalRecordsScanned := 1
      quotaChangesEmitted := if decoded.record.isQuota then 1 else 0
      projectDescriptorsEmitted := decoded.projectDescriptors.length
      bucketChangesEmitted := changes.buckets.length
      sessionDigestChangesEmitted := changes.digests.length }
    bucketChanges := changes.buckets
    sessionDigestChanges := changes.digests
    live := none
    warnings := [] }
  (env.validateRemoteDeltaPayload (inputs.context page) payload).mapError
    ("invalid remote delta journal record: " ++ ·)

/-! ## Descriptors -/

def mergePageDescriptor (subject : String) (maximum pageEntryCount : Nat)
    (target : List RemoteProjectDescriptor) (descriptor : RemoteProjectDescriptor) :
    Except RemoteDeltaPageDecodeError (List RemoteProjectDescriptor) :=
  match KeyedMerge.valueAt RemoteProjectDescriptor.observedProjectKey
      descriptor.observedProjectKey target with
  | some existing => do
    ensure (existing = descriptor) (pageDescriptorError pageEntryCount
      (subject ++ " has conflicting descriptors for one observed project key"))
    pure target
  | none => do
    let target := KeyedMerge.upsert RemoteProjectDescriptor.observedProjectKey
      (fun existing _ => existing) descriptor target
    ensure (target.length ≤ maximum) (pageDescriptorError pageEntryCount
      "remote delta page exceeds its project descriptor bound")
    pure target

def mergePageDescriptors (target descriptors : List RemoteProjectDescriptor) (subject : String)
    (maximum pageEntryCount : Nat) :
    Except RemoteDeltaPageDecodeError (List RemoteProjectDescriptor) :=
  descriptors.foldlM (mergePageDescriptor subject maximum pageEntryCount) target

/-- A quota record has no descriptors to unite. -/
def mergeEntryDescriptors (target : List RemoteProjectDescriptor)
    (decoded : RemoteDeltaJournalRecordV1 γ π) (maximum pageEntryCount : Nat) :
    Except RemoteDeltaPageDecodeError (List RemoteProjectDescriptor) :=
  if decoded.record.isQuota then pure target
  else mergePageDescriptors target decoded.projectDescriptors "remote delta journal page" maximum
    pageEntryCount

/-- The projects that the changes and the live rows refer to. -/
def pageProjectKeys (changes : Changes γ π) (live : Option (RemoteLiveState γ)) : Finset String :=
  (changes.buckets.flatMap fun change =>
      match change.mutation with
      | .upsert bucket => bucket.projectGroups.filterMap (·.observedProjectKey)
      | .tombstone => []).toFinset ∪
    (changes.digests.flatMap fun change =>
      match change.mutation with
      | .upsert digest => digest.observedProjectKeys
      | .tombstone => []).toFinset ∪
    ((live.bind (·.snapshot)).elim [] fun snapshot =>
      snapshot.tasks.filterMap (·.observedProjectKey)).toFinset

def validatePageDescriptorReferences (descriptors : List RemoteProjectDescriptor)
    (changes : Changes γ π) (live : Option (RemoteLiveState γ)) : Except String Unit :=
  ensure (pageProjectKeys changes live = (descriptors.map (·.observedProjectKey)).toFinset)
    "remote delta page descriptors do not exactly match emitted project references"

/-! ## The page -/

/-- What the loop over the entries has collected. -/
structure PageState (γ π : Type) where
  payloadBytes : Nat := 0
  contentIds : List RemoteExportChange := []
  descriptors : List RemoteProjectDescriptor := []
  changes : Changes γ π := {}

def decodeEntry (generation descriptorUnionLimit entryCount : Nat) (s : PageState γ π)
    (entry : RemoteExportJournalEntry) : Except RemoteDeltaPageDecodeError (PageState γ π) := do
  let payloadBytes ← orFatal (okOr (checkedAdd 64 s.payloadBytes entry.change.payload.length)
    "remote delta journal page byte count overflowed")
  orFatal (ensure (payloadBytes ≤ maxJournalPageBytes)
    "remote delta journal page exceeds its decoded byte bound")
  let contentIds ← orFatal (rememberContentId s.contentIds entry.change)
  let decoded ← orFatal (decodeRemoteDeltaJournalChange env.toJournalEnv entry.change)
  orFatal (ensure (entry.sequence ≠ 0) "remote delta journal sequence must be nonzero")
  orFatal (validateDecodedRecord env inputs decoded entry.sequence generation)
  let descriptors ← mergeEntryDescriptors s.descriptors decoded descriptorUnionLimit entryCount
  return { payloadBytes, contentIds, descriptors
           changes := s.changes.push entry.sequence decoded.record }

def decodeRemoteDeltaJournalPageWithDescriptorLimit (page : RemoteExportDeltaPage)
    (descriptorUnionLimit : Nat) :
    Except RemoteDeltaPageDecodeError (DeltaPage × DeltaPayload γ π) := do
  orFatal (validateDurablePage page)
  orFatal (ensure (inputs.liveProjectDescriptors.length ≤ maxDescriptorsPerPage)
    "remote delta live descriptor input exceeds its page bound")
  let s ← page.entries.foldlM (decodeEntry env inputs page.generation descriptorUnionLimit
    page.entries.length) {}
  let liveDescriptors ← orFatal (canonicalizeDescriptors inputs.liveProjectDescriptors
    maxDescriptorsPerPage "remote delta live state")
  let descriptors ← mergePageDescriptors s.descriptors liveDescriptors "remote delta page"
    descriptorUnionLimit page.entries.length
  orFatal (validatePageDescriptorReferences descriptors s.changes inputs.live)
  let protocolPage : DeltaPage :=
    ⟨page.generation, page.fromSequence, page.throughSequence, page.nextCursor, page.hasMore⟩
  let scanned ← orFatal (scannedRecords page)
  let snapshot := inputs.live.bind (·.snapshot)
  let payload : DeltaPayload γ π := {
    quotaChanges := s.changes.quota
    coverage := inputs.coverage
    projectDescriptors := descriptors
    bucketChanges := s.changes.buckets
    sessionDigestChanges := s.changes.digests
    live := inputs.live
    stats := { inputs.stats with
      journalRecordsScanned := scanned
      quotaChangesEmitted := s.changes.quota.length
      projectDescriptorsEmitted := descriptors.length
      bucketChangesEmitted := s.changes.buckets.length
      sessionDigestChangesEmitted := s.changes.digests.length
      liveTasksEmitted := snapshot.elim 0 (·.tasks.length)
      liveTurnsEmitted := snapshot.elim 0 (·.turns.length) }
    warnings := inputs.warnings }
  orFatal ((env.validateRemoteDeltaPayload (inputs.context protocolPage) payload).mapError
    ("invalid remote delta journal page: " ++ ·))
  return (protocolPage, payload)

def decodeRemoteDeltaJournalPageClassified (page : RemoteExportDeltaPage) :
    Except RemoteDeltaPageDecodeError (DeltaPage × DeltaPayload γ π) :=
  decodeRemoteDeltaJournalPageWithDescriptorLimit env inputs page maxDescriptorsPerPage

end

end Journal
