import Mathlib.Data.Prod.Lex
import UsageMonit.Deletion.Ledger
import UsageMonit.FactExport.Batch
import UsageMonit.Lib.KeyedMerge
import UsageMonit.Rollout.Event

/-!
# The codec of the delta journal (`remote_delta_journal.rs`)

An aggregate mutation is written to the journal as one opaque change: the bytes of the record with
the descriptors of the projects it refers to, under an identifier derived from the bytes
(`encodeRemoteDeltaJournalRecord`). The decoder takes only such changes back
(`decodeRemoteDeltaJournalChange`).

The serialization (`serde_json`) and the digest (`sha2`) are parameters. The fields of buckets and
digests that the codec does not read are their content `γ`; a quota percentage `π` is finite and
within 0..100 by construction, and `complementary` says that two of them sum up to 100.
-/

namespace Journal

open Fallible Time Export

def maxJournalRecordBytes : Nat := 1024 * 1024
def maxDescriptorsPerRecord : Nat := 16384
def maxRepositoryRelativeRootBytes : Nat := 2 * 1024
def maxQuotaPointsPerDay : Nat := 4096
def maxQuotaLimitIdChars : Nat := 128
def bucketMinutes : Int := 15

/-! ## Records -/

inductive Provenance
  | live | serverSnapshot | localExact | inferred | estimated | stale | unknown
deriving DecidableEq

structure RemoteQuotaPoint (π : Type) where
  observedAt : DateTime
  limitId : String
  durationMins : Int
  resetsAt : DateTime
  usedPercent : π
  remainingPercent : π
  provenance : Provenance
deriving DecidableEq

/-- The observations of a day, whose number since the epoch is `day`. -/
structure RemoteQuotaDay (π : Type) where
  day : Int
  points : List (RemoteQuotaPoint π)
deriving DecidableEq

structure RemoteProjectUsageGroup (γ : Type) where
  observedProjectKey : Option String
  content : γ
deriving DecidableEq

structure RemoteUsageBucket (γ : Type) where
  startsAt : DateTime
  projectGroups : List (RemoteProjectUsageGroup γ)
  content : γ
deriving DecidableEq

inductive RemoteUsageBucketMutation (γ : Type)
  | upsert (bucket : RemoteUsageBucket γ)
  | tombstone
deriving DecidableEq

structure RemoteSessionDigest (γ : Type) where
  threadId : String
  rangeStart : DateTime
  rangeEnd : DateTime
  coveredThrough : DateTime
  observedProjectKeys : List String
  content : γ
deriving DecidableEq

inductive RemoteSessionDigestMutation (γ : Type)
  | upsert (digest : RemoteSessionDigest γ)
  | tombstone
deriving DecidableEq

inductive RemoteDeltaJournalRecord (γ π : Type)
  | quotaDay (quota : RemoteQuotaDay π)
  | usageBucket (startsAt : DateTime) (mutation : RemoteUsageBucketMutation γ)
  | sessionDigest (threadId : String) (rangeStart rangeEnd changedAt retentionThrough : DateTime)
      (mutation : RemoteSessionDigestMutation γ)
deriving DecidableEq

/-- The result of the source's Git probe. -/
inductive RemoteGitRepositoryEvidence
  | unavailable
  | confirmedNonRepository
  | repository (fingerprint : Option String) (repositoryRelativeWorkspaceRoot : String)
deriving DecidableEq

structure RemoteProjectDescriptor where
  observedProjectKey : String
  displayLabel : String
  gitEvidence : RemoteGitRepositoryEvidence
deriving DecidableEq

structure RemoteDeltaJournalRecordV1 (γ π : Type) where
  record : RemoteDeltaJournalRecord γ π
  projectDescriptors : List RemoteProjectDescriptor
deriving DecidableEq

inductive VersionedRemoteDeltaJournalRecord (γ π : Type)
  | v1 (entry : RemoteDeltaJournalRecordV1 γ π)
  | v2 (entry : RemoteDeltaJournalRecordV1 γ π)
deriving DecidableEq

/-! ## Code outside the repository -/

/-- What the codec takes from other crates. -/
structure JournalEnv (γ π : Type) where
  serialize : VersionedRemoteDeltaJournalRecord γ π → List UInt8
  parse : List UInt8 → Except String (VersionedRemoteDeltaJournalRecord γ π)
  sha256 : List UInt8 → Fin 32 → UInt8
  /-- Two percentages sum up to 100, within one millionth. -/
  complementary : π → π → Bool

/-- A value is read back from its own serialization. -/
def JournalEnv.Canonical {γ π : Type} (env : JournalEnv γ π) : Prop :=
  ∀ value, env.parse (env.serialize value) = .ok value

section
variable {γ π : Type} (env : JournalEnv γ π)

/-! ## The shape of a record -/

def validateAccountQuotaPoint (point : RemoteQuotaPoint π) : Except String Unit := do
  ensure (point.limitId ≠ "" ∧ Text.trim point.limitId = point.limitId ∧
      point.limitId.length ≤ maxQuotaLimitIdChars ∧
      ¬ point.limitId.toList.any (fun c => Text.isControl c || c.toNat == 0x2028 ||
        c.toNat == 0x2029 || Deletion.isBidiControl c))
    "account quota limit ID is invalid"
  ensure (0 < point.durationMins) "account quota duration must be greater than zero"

def RemoteQuotaPoint.sortKey (point : RemoteQuotaPoint π) : DateTime ×ₗ String ×ₗ Int ×ₗ DateTime :=
  toLex (point.observedAt, toLex (point.limitId, toLex (point.durationMins, point.resetsAt)))

def RemoteQuotaDay.validatePoint (quota : RemoteQuotaDay π) (point : RemoteQuotaPoint π) :
    Except String Unit := do
  validateAccountQuotaPoint point
  ensure (Text.eqIgnoreAsciiCase point.limitId "codex" = true ∧
      (point.durationMins = 300 ∨ point.durationMins = 10080) ∧
      point.provenance = .serverSnapshot ∧
      env.complementary point.usedPercent point.remainingPercent = true ∧
      point.observedAt < point.resetsAt ∧
      point.resetsAt - point.observedAt ≤ minutes point.durationMins + seconds 120)
    "remote quota observation is not a valid recorded Codex account window"
  ensure (point.observedAt / days 1 = quota.day) "remote quota observation is outside its day"

def RemoteQuotaDay.validate (quota : RemoteQuotaDay π) : Except String Unit := do
  ensure (quota.points.length ≤ maxQuotaPointsPerDay)
    "remote quota day exceeds its observation bound"
  quota.points.forM (quota.validatePoint env)
  ensure (∀ p ∈ quota.points.zip quota.points.tail, p.1.sortKey < p.2.sortKey)
    "remote quota observations must be sorted and unique"

def validateRecordShape (record : RemoteDeltaJournalRecord γ π) : Except String Unit :=
  match record with
  | .quotaDay quota => quota.validate env
  | .usageBucket startsAt mutation => do
    ensure (startsAt % minutes bucketMinutes = 0)
      "remote delta journal bucket key is not 15-minute aligned"
    match mutation with
    | .upsert bucket =>
      ensure (bucket.startsAt = startsAt)
        "remote delta journal bucket key does not match its payload"
    | .tombstone => pure ()
  | .sessionDigest threadId rangeStart rangeEnd changedAt retentionThrough mutation => do
    ensure (rangeStart < rangeEnd ∧ rangeStart ≤ changedAt ∧ rangeEnd ≤ retentionThrough ∧
        changedAt ≤ retentionThrough)
      "remote delta journal digest bounds are invalid"
    match mutation with
    | .upsert digest =>
      ensure (digest.threadId = threadId ∧ digest.rangeStart = rangeStart ∧
          digest.rangeEnd = rangeEnd ∧ digest.coveredThrough = changedAt)
        "remote delta journal digest key does not match its payload"
    | .tombstone => pure ()

/-! ## Descriptors -/

def RemoteGitRepositoryEvidence.repositoryRelativeWorkspaceRoot
    (evidence : RemoteGitRepositoryEvidence) : Option String :=
  match evidence with
  | .repository _ root => some root
  | .unavailable | .confirmedNonRepository => none

/-- A root other than `.` is a relative path without empty, `.` or `..` components. -/
def validRelativeRoot (root : String) : Prop :=
  root ≠ "" ∧ root.utf8ByteSize ≤ maxRepositoryRelativeRootBytes ∧ root.toList.head? ≠ some '/' ∧
    '\\' ∉ root.toList ∧
    ¬ root.toList.any (fun c => Text.isControl c || c.toNat == 0x2028 || c.toNat == 0x2029 ||
      Deletion.isBidiControl c) ∧
    ∀ component ∈ root.toList.splitOn '/', component ∉ [[], ['.'], ['.', '.']]

instance (root : String) : Decidable (validRelativeRoot root) :=
  inferInstanceAs (Decidable (_ ∧ _))

def validateDescriptorShape (descriptor : RemoteProjectDescriptor) (subject : String) :
    Except String Unit :=
  match descriptor.gitEvidence.repositoryRelativeWorkspaceRoot with
  | none => pure ()
  | some root => ensure (root = "." ∨ validRelativeRoot root)
      (subject ++ " contains an invalid repository-relative workspace root")

/-- One descriptor into the map by project key. -/
def insertDescriptor (subject : String) (canonical : List RemoteProjectDescriptor)
    (descriptor : RemoteProjectDescriptor) : Except String (List RemoteProjectDescriptor) := do
  validateDescriptorShape descriptor subject
  match KeyedMerge.valueAt RemoteProjectDescriptor.observedProjectKey
      descriptor.observedProjectKey canonical with
  | some existing =>
    ensure (existing = descriptor)
      (subject ++ " has conflicting descriptors for one observed project key")
    pure canonical
  | none => pure (KeyedMerge.upsert RemoteProjectDescriptor.observedProjectKey
      (fun existing _ => existing) descriptor canonical)

def canonicalizeDescriptors (descriptors : List RemoteProjectDescriptor) (maximum : Nat)
    (subject : String) : Except String (List RemoteProjectDescriptor) := do
  ensure (descriptors.length ≤ maximum) (subject ++ " has too many project descriptors")
  descriptors.foldlM (insertDescriptor subject) []

def recordProjectKeys (record : RemoteDeltaJournalRecord γ π) : Finset String :=
  match record with
  | .quotaDay _ => ∅
  | .usageBucket _ (.upsert bucket) =>
    (bucket.projectGroups.filterMap (·.observedProjectKey)).toFinset
  | .usageBucket _ .tombstone => ∅
  | .sessionDigest _ _ _ _ _ (.upsert digest) => digest.observedProjectKeys.toFinset
  | .sessionDigest _ _ _ _ _ .tombstone => ∅

def validateExactDescriptorReferences (record : RemoteDeltaJournalRecord γ π)
    (descriptors : List RemoteProjectDescriptor) : Except String Unit :=
  ensure (recordProjectKeys record = (descriptors.map (·.observedProjectKey)).toFinset)
    "remote delta journal descriptors do not exactly match referenced projects"

/-! ## Encoding and decoding -/

def hexDigits (byte : UInt8) : List Char :=
  [Nat.digitChar (byte.toNat / 16), Nat.digitChar (byte.toNat % 16)]

def contentDerivedChangeId (payload : List UInt8) : String :=
  String.ofList ("delta-journal-sha256-v1-".toList ++
    (List.ofFn (env.sha256 payload)).flatMap hexDigits)

def encodeCanonicalBounded (value : VersionedRemoteDeltaJournalRecord γ π) :
    Except String (List UInt8) := do
  ensure ((env.serialize value).length ≤ maxJournalRecordBytes)
    ("invalid remote delta journal record: " ++
      "remote delta journal record exceeds its encoded byte bound")
  pure (env.serialize value)

def RemoteDeltaJournalRecord.isQuota (record : RemoteDeltaJournalRecord γ π) : Bool :=
  match record with
  | .quotaDay _ => true
  | _ => false

/-- The version tag an entry is written with. -/
def versioned (entry : RemoteDeltaJournalRecordV1 γ π) : VersionedRemoteDeltaJournalRecord γ π :=
  if entry.record.isQuota then .v2 entry else .v1 entry

def encodeRemoteDeltaJournalRecord (record : RemoteDeltaJournalRecord γ π)
    (projectDescriptors : List RemoteProjectDescriptor) : Except String RemoteExportChange := do
  validateRecordShape env record
  let projectDescriptors ← canonicalizeDescriptors projectDescriptors maxDescriptorsPerRecord
    "remote delta journal record"
  validateExactDescriptorReferences record projectDescriptors
  let payload ← encodeCanonicalBounded env (versioned ⟨record, projectDescriptors⟩)
  FactExport.RemoteExportChange.checked (contentDerivedChangeId env payload) payload

/-- The entry of a versioned record; a quota record must have version 2. -/
def unversioned (value : VersionedRemoteDeltaJournalRecord γ π) :
    Except String (RemoteDeltaJournalRecordV1 γ π) :=
  match value with
  | .v1 entry => do
    ensure (entry.record.isQuota = false) "quota journal records require version 2"
    pure entry
  | .v2 entry => pure entry

def decodeRemoteDeltaJournalChange (change : RemoteExportChange) :
    Except String (RemoteDeltaJournalRecordV1 γ π) := do
  ensure (change.payload.length ≤ maxJournalRecordBytes)
    "remote delta journal record exceeds its decoded byte bound"
  ensure (change.changeId = contentDerivedChangeId env change.payload)
    "remote delta journal record content hash does not match its change ID"
  let value ← (env.parse change.payload).mapError ("invalid remote delta journal record: " ++ ·)
  let canonical ← encodeCanonicalBounded env value
  ensure (canonical = change.payload) "remote delta journal record is not in canonical encoding"
  let decoded ← unversioned value
  validateRecordShape env decoded.record
  ensure (decoded.projectDescriptors.length ≤ maxDescriptorsPerRecord)
    "remote delta journal record has too many project descriptors"
  let canonicalDescriptors ← canonicalizeDescriptors decoded.projectDescriptors
    maxDescriptorsPerRecord "remote delta journal record"
  ensure (canonicalDescriptors = decoded.projectDescriptors)
    "remote delta journal descriptors are not canonical"
  validateExactDescriptorReferences decoded.record decoded.projectDescriptors
  pure decoded

end

end Journal
