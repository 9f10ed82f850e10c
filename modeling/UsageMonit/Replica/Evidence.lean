import UsageMonit.History.Aggregation
import UsageMonit.Ingest.State

/-!
# Session evidence and replica candidates (`logical_replica.rs`, `session_evidence.rs`)

A physical thread that several sources collected has a digest for each source and day. The
candidates are the threads and days with digests of at least two sources (`detectReplicaCandidates`);
they are `identical` when all digests prove the same complete content, and need the facts of the
sources otherwise. The fingerprints of facts are a parameter.
-/

namespace Replica

open Fallible Time Usage Ingest History

abbrev NodeId := String
abbrev ThreadId := String

structure SessionReplicaKey where
  sourceId : NodeId
  threadId : ThreadId
deriving DecidableEq

structure SessionUsageMetrics where
  tokenUsage : TokenUsage := default
  estimatedCostUnits : Nat := 0
  apiLongContextExtraCostUnits : Option Nat := none
  apiEquivalentCost : ApiCostAmount := {}
  callCount : Nat := 0
  metricRevision : Nat := 0
  estimatorRevision : Nat := 0
  projectBreakdownRevision : Nat := 0
  apiPricingCatalogRevision : Nat := 0
  partialReasons : List String := []
deriving DecidableEq

structure SourceSessionDigest where
  replica : SessionReplicaKey
  rangeStart : DateTime
  rangeEnd : DateTime
  coveredThrough : DateTime
  fingerprint : String
  projectBreakdownFingerprint : String
  eventCount : Nat
  exactEventIdentity : Bool
  coverageComplete : Bool
  observedProjectKeys : List String
  metrics : SessionUsageMetrics
deriving DecidableEq

structure UsageEventFact where
  replica : SessionReplicaKey
  eventId : String
  occurredAt : DateTime
  observedProjectKey : String
  emittingTurnId : Option String
  parentThreadId : Option ThreadId
  projectSessionThreadId : Option ThreadId
  rootSessionThreadId : ThreadId
  rootSessionTurnId : Option String
  model : Option String
  serviceTier : Option String
  digestTokenUsage : TokenUsage
  requestUsageExact : Bool
  exactEventIdentity : Bool
  metrics : SessionUsageMetrics
deriving DecidableEq

structure FactDigestBinding where
  rangeStart : DateTime
  rangeEnd : DateTime
  coveredThrough : DateTime
  coverageComplete : Bool
  fingerprint : String
  projectBreakdownFingerprint : String
  eventCount : Nat
  metricRevision : Nat
  estimatorRevision : Nat
  projectBreakdownRevision : Nat
  apiPricingCatalogRevision : Nat
deriving DecidableEq

def FactDigestBinding.matchesDigest (b : FactDigestBinding) (digest : SourceSessionDigest) : Prop :=
  b.rangeStart = digest.rangeStart ∧ b.rangeEnd = digest.rangeEnd ∧
    b.coveredThrough = digest.coveredThrough ∧ b.coverageComplete = digest.coverageComplete ∧
    b.fingerprint = digest.fingerprint ∧
    b.projectBreakdownFingerprint = digest.projectBreakdownFingerprint ∧
    b.eventCount = digest.eventCount ∧ b.metricRevision = digest.metrics.metricRevision ∧
    b.estimatorRevision = digest.metrics.estimatorRevision ∧
    b.projectBreakdownRevision = digest.metrics.projectBreakdownRevision ∧
    b.apiPricingCatalogRevision = digest.metrics.apiPricingCatalogRevision

instance (b : FactDigestBinding) (digest : SourceSessionDigest) :
    Decidable (b.matchesDigest digest) := inferInstanceAs (Decidable (_ ∧ _))

inductive UsageEventFactChange
  | upsert (fact : UsageEventFact)
  | tombstone
deriving DecidableEq

/-- The active facts of a thread, with the part of their version that readers check. -/
structure ActiveFactSet where
  validatedDigests : List FactDigestBinding
  retainedSince : Option DateTime
  remoteBinding : Option SourceHistoryRemoteBinding
  records : List UsageEventFactChange
deriving DecidableEq

def ActiveFactSet.facts (active : ActiveFactSet) : List UsageEventFact :=
  active.records.filterMap fun
    | .upsert fact => some fact
    | .tombstone => none

structure SourceReplicaEvidence where
  sourceId : NodeId
  digests : List SourceSessionDigest := []
  activeRemoteRef : Option SourceHistoryRemoteBinding := none
  activeFacts : ThreadId → Option ActiveFactSet := fun _ => none
  modelCatalogCompatible : Bool := true

instance : Inhabited SourceReplicaEvidence := ⟨{ sourceId := "" }⟩

/-! ## Facts that cover a digest -/

/-- `canonical_fact_fingerprint_values`: the two fingerprints of the facts of a range, or nothing
when the facts cannot be fingerprinted. -/
abbrev Fingerprints :=
  SessionReplicaKey → DateTime → DateTime → List UsageEventFact → Option (String × String)

section
variable (fingerprints : Fingerprints)

def UsageEventFact.rank (fact : UsageEventFact) : DateTime ×ₗ String :=
  toLex (fact.occurredAt, fact.eventId)

/-- `validate_fact_digest_bindings_against_facts`, for one binding. -/
def validateFactDigestBinding (replica : SessionReplicaKey) (facts : List UsageEventFact)
    (binding : FactDigestBinding) (retainedSince : Option DateTime) : Except String Unit := do
  let facts := facts.insertionSort fun left right => left.rank ≤ right.rank
  ensure (∀ cutoff ∈ retainedSince, cutoff ≤ binding.rangeStart)
    "fact digest fingerprint binding starts before retained evidence"
  let first := facts.findIdx fun fact => binding.rangeStart ≤ fact.occurredAt
  let last := facts.findIdx fun fact => binding.rangeEnd ≤ fact.occurredAt
  let rangeFacts := (facts.take last).drop first
  ensure (rangeFacts.length = binding.eventCount)
    "fact digest fingerprint event count does not match its active facts"
  ensure (∀ fact ∈ rangeFacts, fact.metrics.metricRevision = binding.metricRevision ∧
      fact.metrics.estimatorRevision = binding.estimatorRevision ∧
      fact.metrics.projectBreakdownRevision = binding.projectBreakdownRevision ∧
      fact.metrics.apiPricingCatalogRevision = binding.apiPricingCatalogRevision)
    "fact digest fingerprint inputs do not match their binding"
  let (event, project) ← okOr (fingerprints replica binding.rangeStart binding.rangeEnd rangeFacts)
    "fact digest fingerprint requires exact single-call inputs"
  ensure (event = binding.fingerprint)
    "active fact event fingerprint does not match its validated digest"
  ensure (project = binding.projectBreakdownFingerprint)
    "active fact project-breakdown fingerprint does not match its validated digest"

/-- The sums of a set of metrics; the long-context units are unknown as soon as one is. -/
structure MetricTotals where
  tokenUsage : TokenUsage := default
  estimatedCostUnits : Nat := 0
  apiLongContextExtraCostUnits : Option Nat := some 0
  apiEquivalentCost : ApiCostAmount := {}
  callCount : Nat := 0
deriving DecidableEq

def MetricTotals.add (t : MetricTotals) (metrics : SessionUsageMetrics) : MetricTotals where
  tokenUsage := t.tokenUsage.addAssign metrics.tokenUsage
  estimatedCostUnits := saturatingAdd 128 t.estimatedCostUnits metrics.estimatedCostUnits
  apiLongContextExtraCostUnits := addOptionalUnits t.apiLongContextExtraCostUnits
    metrics.apiLongContextExtraCostUnits
  apiEquivalentCost := t.apiEquivalentCost.addAssign metrics.apiEquivalentCost
  callCount := saturatingAdd 64 t.callCount metrics.callCount

def factMetricsMatchDigest (facts : List UsageEventFact) (digest : SourceSessionDigest) : Prop :=
  (∀ fact ∈ facts, fact.metrics.metricRevision = digest.metrics.metricRevision ∧
    fact.metrics.estimatorRevision = digest.metrics.estimatorRevision ∧
    fact.metrics.projectBreakdownRevision = digest.metrics.projectBreakdownRevision ∧
    fact.metrics.apiPricingCatalogRevision = digest.metrics.apiPricingCatalogRevision) ∧
    facts.foldl (fun (totals : MetricTotals) fact => totals.add fact.metrics) {} =
      ⟨digest.metrics.tokenUsage, digest.metrics.estimatedCostUnits,
        digest.metrics.apiLongContextExtraCostUnits, digest.metrics.apiEquivalentCost,
        digest.metrics.callCount⟩

instance (facts : List UsageEventFact) (digest : SourceSessionDigest) :
    Decidable (factMetricsMatchDigest facts digest) := inferInstanceAs (Decidable (_ ∧ _))

/-- The binding a fact set must have: none for local facts, the active one for remote facts. -/
def bindingMatches (expected active : Option SourceHistoryRemoteBinding)
    (digest : SourceSessionDigest) : Prop :=
  match expected with
  | none => active = none
  | some expected => active = some expected ∧
      digest.metrics.metricRevision = expected.revisions.metric ∧
      digest.metrics.estimatorRevision = expected.revisions.estimator ∧
      digest.metrics.projectBreakdownRevision = expected.revisions.projectBreakdown ∧
      digest.metrics.apiPricingCatalogRevision = expected.revisions.apiPricingCatalog

instance (expected active : Option SourceHistoryRemoteBinding) (digest : SourceSessionDigest) :
    Decidable (bindingMatches expected active digest) := by
  unfold bindingMatches
  cases expected <;> infer_instance

def rangeFacts (active : ActiveFactSet) (digest : SourceSessionDigest) : List UsageEventFact :=
  active.facts.filter fun fact =>
    digest.rangeStart ≤ fact.occurredAt ∧ fact.occurredAt < digest.rangeEnd

def activeFactsCoverDigest (digest : SourceSessionDigest) (active : Option ActiveFactSet)
    (expectedBinding : Option SourceHistoryRemoteBinding) : Bool :=
  match active with
  | none => false
  | some active =>
    match active.validatedDigests.find? fun binding => binding.matchesDigest digest with
    | none => false
    | some validatedBinding =>
      digest.exactEventIdentity &&
        decide (bindingMatches expectedBinding active.remoteBinding digest) &&
        decide (∀ retainedSince ∈ active.retainedSince, retainedSince ≤ digest.rangeStart) &&
        decide ((rangeFacts active digest).length = digest.eventCount) &&
        (rangeFacts active digest).all (fun fact =>
          fact.exactEventIdentity && fact.replica.threadId == digest.replica.threadId) &&
        (validateFactDigestBinding fingerprints digest.replica (rangeFacts active digest)
          validatedBinding active.retainedSince).isOk &&
        decide (factMetricsMatchDigest (rangeFacts active digest) digest)

end

/-! ## Candidates -/

structure ReplicaDigestObservation where
  sourceId : NodeId
  digest : SourceSessionDigest
deriving DecidableEq

inductive ReplicaCandidateKind
  | identical
  | needsFacts
deriving DecidableEq

structure ReplicaCandidate where
  threadId : ThreadId
  rangeStart : DateTime
  rangeEnd : DateTime
  sourceIds : List NodeId
  kind : ReplicaCandidateKind
deriving DecidableEq

def digestProvesIdentical (digest : SourceSessionDigest) : Bool :=
  digest.exactEventIdentity && digest.coverageComplete

def identicalDigest (left right : SourceSessionDigest) : Prop :=
  left.rangeStart = right.rangeStart ∧ left.rangeEnd = right.rangeEnd ∧
    left.coveredThrough = right.coveredThrough ∧ left.fingerprint = right.fingerprint ∧
    left.projectBreakdownFingerprint = right.projectBreakdownFingerprint ∧
    left.eventCount = right.eventCount ∧ left.metrics = right.metrics

instance (left right : SourceSessionDigest) : Decidable (identicalDigest left right) :=
  inferInstanceAs (Decidable (_ ∧ _))

/-- The observations of one thread and range start, by source. -/
structure ReplicaGroup where
  threadId : ThreadId
  rangeStart : DateTime
  sources : List ReplicaDigestObservation
deriving DecidableEq

def ReplicaGroup.key (group : ReplicaGroup) : ThreadId ×ₗ DateTime :=
  toLex (group.threadId, group.rangeStart)

/-- `or_insert`: the first observation of a source stays. -/
def insertSource (observation : ReplicaDigestObservation) (sources : List ReplicaDigestObservation) :
    List ReplicaDigestObservation :=
  KeyedMerge.upsert ReplicaDigestObservation.sourceId (fun existing _ => existing) observation sources

def ReplicaGroup.merge (existing incoming : ReplicaGroup) : ReplicaGroup :=
  { existing with
    sources := incoming.sources.foldl (fun sources o => insertSource o sources) existing.sources }

def ReplicaDigestObservation.group (o : ReplicaDigestObservation) : ReplicaGroup :=
  ⟨o.digest.replica.threadId, o.digest.rangeStart, [o]⟩

/-- The candidate of a group, if two sources have it. -/
def ReplicaGroup.candidate (group : ReplicaGroup) : Option ReplicaCandidate :=
  match group.sources with
  | first :: second :: rest =>
    let identical := digestProvesIdentical first.digest &&
      (second :: rest).all fun o =>
        digestProvesIdentical o.digest && decide (identicalDigest first.digest o.digest)
    some {
      threadId := group.threadId
      rangeStart := group.rangeStart
      rangeEnd := (second :: rest).foldl (fun latest o => max latest o.digest.rangeEnd)
        first.digest.rangeEnd
      sourceIds := group.sources.map (·.sourceId)
      kind := if identical then .identical else .needsFacts }
  | _ => none

def detectReplicaCandidates (observations : List ReplicaDigestObservation) :
    List ReplicaCandidate :=
  (KeyedMerge.collect ReplicaGroup.key ReplicaGroup.merge
    (observations.map ReplicaDigestObservation.group)).filterMap ReplicaGroup.candidate

def digestObservations (evidence : List SourceReplicaEvidence) : List ReplicaDigestObservation :=
  evidence.flatMap fun source => source.digests.map fun digest => ⟨source.sourceId, digest⟩

end Replica
