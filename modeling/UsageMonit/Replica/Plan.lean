import Mathlib.Data.Finset.Dedup
import UsageMonit.Replica.Evidence

/-!
# The resolution of a replica candidate (`history_query/reconciliation.rs`)

For the sources of a candidate the plan chooses an authority and, when every source has exact facts
for its digest, the union of these facts by event, where the better authority keeps an event that
two sources have. Sources are given by a handle, which is their position in the query's source list.
-/

namespace Replica

open Time Protocol History

/-! ## Authority -/

section
variable (current : ProtocolRevisions)

/-- A five-part revision tuple, compared part by part. -/
abbrev RevisionTuple := Nat ×ₗ Nat ×ₗ Nat ×ₗ Nat ×ₗ Nat

def currentTuple : RevisionTuple :=
  toLex (current.historyFormat, toLex (current.metric, toLex (current.estimator,
    toLex (current.projectBreakdown, current.apiPricingCatalog))))

def authorityRevisions (source : SourceReplicaEvidence) (digest : SourceSessionDigest) :
    RevisionTuple :=
  let history := (source.activeRemoteRef.map (·.revisions.historyFormat)).getD current.historyFormat
  toLex (history, toLex (digest.metrics.metricRevision, toLex (digest.metrics.estimatorRevision,
    toLex (digest.metrics.projectBreakdownRevision, digest.metrics.apiPricingCatalogRevision))))

def hardPartialReasons : List String :=
  ["rollout_local_coverage_unverified", "coverage_starts_within_local_bucket",
    "rollout_scan_incomplete", "rollout_scan_truncated", "rollout_unreadable",
    "rollout_lines_skipped", "ambiguous_token_reset"]

def hardPartialCount (digest : SourceSessionDigest) : Nat :=
  (digest.metrics.partialReasons.filter fun reason => reason ∈ hardPartialReasons).length

abbrev AuthorityKey :=
  Bool ×ₗ Bool ×ₗ RevisionTuple ×ₗ Bool ×ₗ Bool ×ₗ Natᵒᵈ ×ₗ Bool ×ₗ DateTime ×ₗ DateTime

/-- The comparison key of a source for a candidate. -/
def authorityKey (source : SourceReplicaEvidence) (digest : SourceSessionDigest)
    (factCoverage : Bool) : AuthorityKey :=
  let revisions := authorityRevisions current source digest
  toLex (source.modelCatalogCompatible, toLex (decide (revisions = currentTuple current),
    toLex (revisions, toLex (digest.exactEventIdentity, toLex (digest.coverageComplete,
      toLex (OrderDual.toDual (hardPartialCount digest), toLex (factCoverage,
        toLex (digest.coveredThrough, digest.rangeEnd))))))))

def authorityIsBetter (leftSource : SourceReplicaEvidence) (left : SourceSessionDigest)
    (leftFactCoverage : Bool) (rightSource : SourceReplicaEvidence) (right : SourceSessionDigest)
    (rightFactCoverage : Bool) : Prop :=
  let leftKey := authorityKey current leftSource left leftFactCoverage
  let rightKey := authorityKey current rightSource right rightFactCoverage
  rightKey < leftKey ∨ (leftKey = rightKey ∧ leftSource.sourceId < rightSource.sourceId)

instance (leftSource : SourceReplicaEvidence) (left : SourceSessionDigest)
    (leftFactCoverage : Bool) (rightSource : SourceReplicaEvidence) (right : SourceSessionDigest)
    (rightFactCoverage : Bool) :
    Decidable (authorityIsBetter current leftSource left leftFactCoverage rightSource right
      rightFactCoverage) := inferInstanceAs (Decidable (_ ∨ _))

end

/-! ## Facts -/

def factsSemanticallyEqual (left right : UsageEventFact) : Prop :=
  left.eventId = right.eventId ∧ left.occurredAt = right.occurredAt ∧
    left.emittingTurnId = right.emittingTurnId ∧ left.parentThreadId = right.parentThreadId ∧
    left.projectSessionThreadId = right.projectSessionThreadId ∧
    left.rootSessionThreadId = right.rootSessionThreadId ∧
    left.rootSessionTurnId = right.rootSessionTurnId ∧ left.model = right.model ∧
    left.serviceTier = right.serviceTier ∧ left.digestTokenUsage = right.digestTokenUsage ∧
    left.requestUsageExact = right.requestUsageExact ∧
    left.exactEventIdentity = right.exactEventIdentity ∧ left.metrics = right.metrics

instance (left right : UsageEventFact) : Decidable (factsSemanticallyEqual left right) :=
  inferInstanceAs (Decidable (_ ∧ _))

/-- Unequal aggregates, or an unmapped project. -/
def factProjectAttributionConflicts (mapping : ProjectMappingProjection) (leftSource : NodeId)
    (left : UsageEventFact) (rightSource : NodeId) (right : UsageEventFact) : Bool :=
  match mapping.resolve leftSource left.observedProjectKey,
    mapping.resolve rightSource right.observedProjectKey with
  | some left, some right => decide (left.1 ≠ right.1)
  | _, _ => true

section
variable (fingerprints : Fingerprints)

def activeSourceFactsCoverDigest (source : SourceReplicaEvidence) (digest : SourceSessionDigest) :
    Bool :=
  activeFactsCoverDigest fingerprints digest (source.activeFacts digest.replica.threadId)
    source.activeRemoteRef

def completeCompatibleFacts (source : SourceReplicaEvidence) (digest : SourceSessionDigest) :
    Option (List UsageEventFact) :=
  (source.activeFacts digest.replica.threadId).bind fun active =>
    if activeFactsCoverDigest fingerprints digest (some active) source.activeRemoteRef then
      some (rangeFacts active digest)
    else none

end

/-! ## The plan -/

structure ReplicaParticipant (ι : Type) where
  sourceIndex : ι
  digest : SourceSessionDigest
  exactFactCoverage : Bool
deriving DecidableEq

structure ReplicaResolution (ι : Type) where
  participants : List (ReplicaParticipant ι)
  authorityIndex : ι
  unionFacts : Option (List (ι × UsageEventFact))
  factConflict : Bool
  projectConflict : Bool
deriving DecidableEq

section
variable {ι : Type} (evidence : ι → SourceReplicaEvidence)

/-- The aggregates of a digest's projects, unless one is unmapped. -/
def digestAggregates (mapping : ProjectMappingProjection) (participant : ReplicaParticipant ι) :
    Option (Finset String) :=
  (participant.digest.observedProjectKeys.mapM fun key =>
    (mapping.resolve (evidence participant.sourceIndex).sourceId key).map (·.1)).map List.toFinset

/-- The digests of the participants disagree on the projects, or one is unmapped. -/
def digestProjectAttributionConflicts (mapping : ProjectMappingProjection) :
    Option (Finset String) → List (ReplicaParticipant ι) → Bool
  | _, [] => false
  | expected, participant :: participants =>
    match digestAggregates evidence mapping participant with
    | none => true
    | some aggregateIds =>
      if ∃ ids ∈ expected, ids ≠ aggregateIds then true
      else digestProjectAttributionConflicts mapping (some aggregateIds) participants

def participantRevisionsCompatible (participants : List (ReplicaParticipant ι)) : Bool :=
  match participants with
  | [] => false
  | first :: _ => participants.all fun p =>
      decide (p.digest.rangeStart = first.digest.rangeStart ∧
        p.digest.rangeEnd = first.digest.rangeEnd ∧
        p.digest.metrics.metricRevision = first.digest.metrics.metricRevision ∧
        p.digest.metrics.estimatorRevision = first.digest.metrics.estimatorRevision ∧
        p.digest.metrics.projectBreakdownRevision =
          first.digest.metrics.projectBreakdownRevision ∧
        p.digest.metrics.apiPricingCatalogRevision =
          first.digest.metrics.apiPricingCatalogRevision)

variable (current : ProtocolRevisions)

/-- One participant against another. -/
def participantIsBetter (left right : ReplicaParticipant ι) : Prop :=
  authorityIsBetter current (evidence left.sourceIndex) left.digest left.exactFactCoverage
    (evidence right.sourceIndex) right.digest right.exactFactCoverage

instance (left right : ReplicaParticipant ι) :
    Decidable (participantIsBetter evidence current left right) :=
  inferInstanceAs (Decidable (authorityIsBetter ..))

/-- The participant no later one is better than. -/
def chooseAuthority (first : ReplicaParticipant ι) (rest : List (ReplicaParticipant ι)) :
    ReplicaParticipant ι :=
  rest.foldl (fun best p => if participantIsBetter evidence current p best then p else best) first

variable [DecidableEq ι]

/-- `participant_positions`, for one source: the position of its last participant. -/
def participantPosition (participants : List (ReplicaParticipant ι)) (i : ι) : Option Nat :=
  participants.zipIdx.foldl
    (fun found entry => if entry.1.sourceIndex = i then some entry.2 else found) none

def factOwner (participants : List (ReplicaParticipant ι)) (i : ι) :
    Option (ReplicaParticipant ι) :=
  (participantPosition participants i).bind fun position => participants[position]?

/-- The incoming owner of an event replaces the existing one. -/
def ownerIsBetter (participants : List (ReplicaParticipant ι)) (incoming existing : ι) : Bool :=
  match factOwner participants incoming, factOwner participants existing with
  | some incoming, some existing => decide (participantIsBetter evidence current incoming existing)
  | _, _ => false

/-- The events collected so far, by event id, with the conflicts that were met. -/
structure UnionState (ι : Type) where
  events : List (ι × UsageEventFact) := []
  factConflict : Bool := false
  projectConflict : Bool
deriving DecidableEq

def eventKey (entry : ι × UsageEventFact) : String := entry.2.eventId

variable (mapping : ProjectMappingProjection)

/-- One fact into the union. -/
def addUnionFact (participants : List (ReplicaParticipant ι)) (state : UnionState ι)
    (incoming : ι × UsageEventFact) : UnionState ι :=
  let existing := KeyedMerge.valueAt eventKey (eventKey incoming) state.events
  { events := KeyedMerge.upsert eventKey
      (fun existing incoming =>
        if ownerIsBetter evidence current participants incoming.1 existing.1 then incoming
        else existing) incoming state.events
    factConflict := state.factConflict ||
      existing.any fun existing => decide (¬ factsSemanticallyEqual existing.2 incoming.2)
    projectConflict := state.projectConflict ||
      existing.any fun existing => factProjectAttributionConflicts mapping
        (evidence existing.1).sourceId existing.2 (evidence incoming.1).sourceId incoming.2 }

variable (fingerprints : Fingerprints) (sourcePositions : NodeId → Option ι)

def findParticipant (candidate : ReplicaCandidate) (sourceId : NodeId) :
    Option (ReplicaParticipant ι) :=
  (sourcePositions sourceId).bind fun sourceIndex =>
    ((evidence sourceIndex).digests.find? fun digest =>
      digest.replica.threadId = candidate.threadId ∧ digest.rangeStart = candidate.rangeStart ∧
        digest.rangeEnd ≤ candidate.rangeEnd).map fun digest =>
      { sourceIndex
        digest
        exactFactCoverage :=
          activeSourceFactsCoverDigest fingerprints (evidence sourceIndex) digest }

/-- The facts of all participants, when every one has exact facts for its digest. -/
def participantFacts (participants : List (ReplicaParticipant ι)) :
    Option (List (ι × UsageEventFact)) :=
  (participants.mapM fun p =>
    (completeCompatibleFacts fingerprints (evidence p.sourceIndex) p.digest).map fun facts =>
      facts.map fun fact => (p.sourceIndex, fact)).map List.flatten

def planReplicaResolution (candidate : ReplicaCandidate) : Option (ReplicaResolution ι) :=
  (candidate.sourceIds.mapM
    (findParticipant evidence fingerprints sourcePositions candidate)).bind fun participants =>
  match participants with
  | first :: second :: rest =>
    let authority := chooseAuthority evidence current first (second :: rest)
    let projectConflict := digestProjectAttributionConflicts evidence mapping none participants
    let facts :=
      if candidate.kind = .needsFacts ∧ participantRevisionsCompatible participants = true then
        participantFacts evidence fingerprints participants
      else none
    match facts with
    | none =>
      some {
        participants
        authorityIndex := authority.sourceIndex
        unionFacts := none
        factConflict := false
        projectConflict }
    | some facts =>
      let union := facts.foldl (addUnionFact evidence current mapping participants)
        { projectConflict }
      some {
        participants
        authorityIndex := authority.sourceIndex
        unionFacts := some union.events
        factConflict := union.factConflict
        projectConflict := union.projectConflict }
  | _ => none

end

/-! ## Positions in the source list -/

/-- `source_positions`: the first source with an id. -/
def sourcePositions (evidence : List SourceReplicaEvidence) (sourceId : NodeId) :
    Option (Fin evidence.length) :=
  evidence.findFinIdx? fun source => source.sourceId = sourceId

def planReplicaResolutionIn (fingerprints : Fingerprints) (current : ProtocolRevisions)
    (mapping : ProjectMappingProjection) (evidence : List SourceReplicaEvidence)
    (candidate : ReplicaCandidate) : Option (ReplicaResolution (Fin evidence.length)) :=
  planReplicaResolution evidence.get current mapping fingerprints (sourcePositions evidence)
    candidate

end Replica
