import UsageMonit.Replica.Evidence

/-!
# Session digest records (`source_history/session_evidence.rs`)

A source keeps one record for each thread and range start: the digest, or its tombstone, under a
revision that rises with each change, and with the horizon through which the revision must be known
(`retentionThrough`). `applyDigestRecord` merges a delivered record into the records at hand.
-/

namespace Replica

open Fallible Time History

def maxPartialReasons : Nat := 128
def maxPartialReasonBytes : Nat := 160

/-! ## Valid digests -/

/-- No two neighbours are out of order or equal. -/
def sortedUnique (texts : List String) : Prop := ∀ p ∈ texts.zip texts.tail, p.1 < p.2

instance (texts : List String) : Decidable (sortedUnique texts) :=
  inferInstanceAs (Decidable (∀ _ ∈ _, _))

def validPartialReason (reason : String) : Prop :=
  reason ≠ "" ∧ reason.utf8ByteSize ≤ maxPartialReasonBytes ∧
    reason.toList.all (fun c => c.isLower || c.isDigit || c == '_' || c == '-' || c == '.' ||
      c == ':') = true

instance (reason : String) : Decidable (validPartialReason reason) :=
  inferInstanceAs (Decidable (_ ∧ _))

def validatePartialReasons (reasons : List String) : Except String Unit := do
  ensure (reasons.length ≤ maxPartialReasons) "too many session evidence partial reasons"
  ensure (∀ reason ∈ reasons, validPartialReason reason) "session evidence partial reason is invalid"
  ensure (sortedUnique reasons) "session evidence partial reasons must be sorted and unique"

def validateApiCost (amount : ApiCostAmount) : Except String Unit := do
  ensure (amount.minimumPicoUsd ≤ amount.maximumPicoUsd ∧
      amount.pricedSamples ≤ amount.observedSamples ∧ amount.pricedTokens ≤ amount.observedTokens)
    "session evidence API cost coverage is invalid"
  ensure (amount.pricedSamples = 0 → amount.minimumPicoUsd = 0 ∧ amount.maximumPicoUsd = 0)
    "unpriced session evidence cannot contain API cost"

def SessionUsageMetrics.validate (metrics : SessionUsageMetrics) : Except String Unit := do
  ensure (metrics.metricRevision ≠ 0 ∧ metrics.estimatorRevision ≠ 0 ∧
      metrics.projectBreakdownRevision ≠ 0 ∧ metrics.apiPricingCatalogRevision ≠ 0)
    "session evidence revisions must be nonzero"
  validateApiCost metrics.apiEquivalentCost
  validatePartialReasons metrics.partialReasons

def SourceSessionDigest.validate (digest : SourceSessionDigest) : Except String Unit := do
  ensure (digest.rangeStart < digest.rangeEnd) "session digest range must be nonempty"
  ensure (digest.rangeStart ≤ digest.coveredThrough ∧ digest.coveredThrough ≤ digest.rangeEnd)
    "session digest coveredThrough must fall within its range"
  ensure (digest.coverageComplete = true → digest.coveredThrough = digest.rangeEnd)
    "a complete session digest must cover its full range"
  ensure (digest.eventCount = 0 → digest.metrics.tokenUsage.isZero)
    "a nonzero session digest must report at least one event"
  ensure (digest.metrics.callCount ≤ digest.eventCount)
    "session digest call count cannot exceed its event count"
  ensure (sortedUnique digest.observedProjectKeys)
    "session digest observed project keys must be sorted and unique"
  digest.metrics.validate

/-! ## Records -/

inductive SourceSessionDigestChange
  | upsert (digest : SourceSessionDigest)
  | tombstone
deriving DecidableEq

structure SourceSessionDigestRecord where
  threadId : ThreadId
  rangeStart : DateTime
  rangeEnd : DateTime
  changedAt : DateTime
  /-- The horizon through which older revisions of the key are suppressed. -/
  retentionThrough : DateTime
  revision : Nat
  change : SourceSessionDigestChange
deriving DecidableEq

abbrev DigestRecordKey := ThreadId × DateTime

namespace SourceSessionDigestRecord

def key (record : SourceSessionDigestRecord) : DigestRecordKey :=
  (record.threadId, record.rangeStart)

def validate (record : SourceSessionDigestRecord) : Except String Unit := do
  ensure (record.revision ≠ 0) "session digest revision must be nonzero"
  ensure (record.rangeStart < record.rangeEnd ∧ record.rangeStart ≤ record.changedAt ∧
      record.rangeEnd ≤ record.retentionThrough ∧ record.changedAt ≤ record.retentionThrough)
    "session digest record retention bounds are invalid"
  match record.change with
  | .upsert digest => do
    digest.validate
    ensure (digest.replica.threadId = record.threadId ∧ digest.rangeStart = record.rangeStart ∧
        digest.rangeEnd = record.rangeEnd ∧ digest.coveredThrough = record.changedAt)
      "session digest record key does not match its payload"
  | .tombstone => pure ()

end SourceSessionDigestRecord

/-- The records at hand with the index of their positions. -/
structure DigestRecords where
  records : List SourceSessionDigestRecord := []
  recordIndex : DigestRecordKey → Option Nat := fun _ => none

section
variable (toRfc3339 : DateTime → String)

/-- `apply_digest_record`: the records after it, and whether they changed. -/
def applyDigestRecord (s : DigestRecords) (incoming : SourceSessionDigestRecord) :
    Except String (DigestRecords × Bool) := do
  incoming.validate
  match s.recordIndex incoming.key with
  | none => pure ({
      records := s.records ++ [incoming]
      recordIndex := Function.update s.recordIndex incoming.key (some s.records.length) }, true)
  | some index => do
    let existing ← okOr s.records[index]? "index out of bounds"
    if existing.revision < incoming.revision then
      let incoming := { incoming with
        retentionThrough := max incoming.retentionThrough existing.retentionThrough }
      pure ({ s with records := s.records.set index incoming }, true)
    else if incoming.revision < existing.revision then pure (s, false)
    else do
      ensure (incoming = existing)
        ("conflicting session digest changes share key (" ++ incoming.threadId ++ ", " ++
          toRfc3339 incoming.rangeStart ++ ") and revision " ++ toString incoming.revision)
      pure (s, false)

def applyDigestRecords (s : DigestRecords) (deliveries : List SourceSessionDigestRecord) :
    Except String DigestRecords :=
  deliveries.foldlM (fun s incoming => (·.1) <$> applyDigestRecord toRfc3339 s incoming) s

end

end Replica
