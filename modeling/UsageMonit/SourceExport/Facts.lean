import Mathlib.Data.Finset.Sort
import Mathlib.Data.String.Basic
import UsageMonit.Deletion.Ledger
import UsageMonit.Domain.Protocol
import UsageMonit.Lib.KeyedMerge
import UsageMonit.Lib.Numerals
import UsageMonit.Pricing.Rates
import UsageMonit.SourceExport.Coverage

/-!
# The usage facts of a thread (`source_export.rs`)

`materializeSessionFacts` turns the calls of one thread into one fact for an event identity. Calls of
one identity and one semantic hash are one event; different hashes under one identity are a conflict,
which the least hash wins. A running total of serialized sizes bounds the inventory.

SHA-256 is a parameter, over the fields it is fed with, as is the size of a serialized fact.
-/

namespace SourceExport

open Fallible Time Usage History Pricing Protocol
open Text (trim)

def missingEventReason : String := "usage_event_identity_missing"
def fallbackEventReason : String := "usage_event_identity_fallback"
def conflictingEventReason : String := "usage_event_identity_conflict"
def modelFallbackReason : String := "unpriced_model_rate_fallback"
def tokenBreakdownReason : String := "token_breakdown_missing"
def longContextUnknownReason : String := "long_context_usage_unknown"
def requestUsageInexactReason : String := "request_usage_not_exact"
def subagentAttributionReason : String := "subagent_turn_attribution_unavailable"

abbrev ThreadId := String

/-! ## Texts and identities -/

def unsafeCharacter (c : Char) : Bool :=
  Text.isControl c || Deletion.isBidiControl c || c.toNat == 0x2028 || c.toNat == 0x2029

/-- `UsageEventId::from_str`. -/
def validUsageEventId (value : String) : Prop :=
  value ≠ "" ∧ trim value = value ∧ value.utf8ByteSize ≤ 256 ∧
    value.toList.any unsafeCharacter = false

instance (value : String) : Decidable (validUsageEventId value) :=
  inferInstanceAs (Decidable (_ ∧ _ ∧ _ ∧ _))

/-- `ObservedProjectKey::from_str`. -/
def validObservedProjectKey (value : String) : Prop :=
  "opk-hmac-sha256-v1-".toList.isPrefixOf value.toList = true ∧
    (value.toList.drop 19).length = 64 ∧
    (value.toList.drop 19).all (fun c => c.isDigit || ('a' ≤ c && c ≤ 'f')) = true

instance (value : String) : Decidable (validObservedProjectKey value) :=
  inferInstanceAs (Decidable (_ ∧ _ ∧ _))

/-- `ThreadId::from_str`. -/
def threadIdFromStr (value : String) : Except String ThreadId := do
  ensure (value ≠ "" ∧ value.utf8ByteSize ≤ 128) "thread ID has an invalid length"
  ensure (value.toList.all (fun c => c.isAlphanum || c == '-' || c == '_') = true)
    "thread ID contains unsafe protocol characters"
  pure value

def strictOptionalThreadId (value : Option String) (subject : String) :
    Except String (Option ThreadId) :=
  match value with
  | none => .ok none
  | some value =>
    match threadIdFromStr (trim value) with
    | .ok thread => .ok (some thread)
    | .error error => .error (subject ++ ": " ++ error)

def strictOptionalProtocolText (value : Option String) (maximumBytes : Nat) (subject : String) :
    Except String (Option String) :=
  match value with
  | none => .ok none
  | some value => do
    ensure (trim value ≠ "" ∧ (trim value).utf8ByteSize ≤ maximumBytes ∧
        (trim value).toList.any unsafeCharacter = false)
      (subject ++ " is not bounded protocol text")
    pure (some (trim value))

def bucketStart (timestamp : DateTime) : Option DateTime :=
  let start := timestamp / minutes 15 * minutes 15
  if minUtc ≤ start ∧ start ≤ maxUtc then some start else none

/-! ## The semantic hash -/

/-- What `digest_event_semantic_hash` feeds to SHA-256. -/
structure DigestEventFields where
  threadId : String
  timestamp : DateTime
  turnId : Option String
  model : Option String
  serviceTier : Option String
  inputTokens : Nat
  cachedInputTokens : Nat
  cacheWriteInputTokens : Nat
  outputTokens : Nat
  reasoningOutputTokens : Nat
  unclassifiedTokens : Nat
  totalTokens : Nat
  requestUsageExact : Bool
deriving DecidableEq

def digestEventFields (call : UsageCall) : DigestEventFields where
  threadId := call.threadId
  timestamp := call.timestamp
  turnId := trimmed call.turnId
  model := trimmed call.model
  serviceTier := trimmed call.serviceTier
  inputTokens := call.tokens.inputTokens
  cachedInputTokens := call.tokens.cachedInputTokens
  cacheWriteInputTokens := call.tokens.cacheWriteInputTokens
  outputTokens := call.tokens.outputTokens
  reasoningOutputTokens := call.tokens.reasoningOutputTokens
  unclassifiedTokens := call.tokens.unclassified
  totalTokens := call.tokens.totalTokens
  requestUsageExact := call.requestUsageExact

structure FactEnv where
  catalog : ModelCatalog
  revisions : ProtocolRevisions
  /-- A digest, read as a big-endian number of 256 bits. -/
  sha256 : DigestEventFields → Nat

def FactEnv.semanticHash (env : FactEnv) (call : UsageCall) : Nat :=
  env.sha256 (digestEventFields call)

/-- The identity of a call's event, and the marks it leaves on the fact. -/
structure EventIdentity where
  eventId : String
  exact : Bool
  missing : Bool
deriving DecidableEq

def eventIdentity (env : FactEnv) (call : UsageCall) : EventIdentity :=
  match call.usageEventId.filter validUsageEventId with
  | some eventId => ⟨eventId, call.usageEventIdentityExact, false⟩
  | none =>
    let hex := String.ofList (Hex.toHex 64 (env.semanticHash call))
    ⟨"usage-derived-sha256-v1-" ++ hex, false, true⟩

/-! ## Facts -/

structure RemoteTokenUsage where
  unclassifiedTokens : Nat
  inputTokens : Nat
  cachedInputTokens : Nat
  cacheWriteInputTokens : Nat
  outputTokens : Nat
  reasoningOutputTokens : Nat
  totalTokens : Nat
deriving DecidableEq

def remoteTokenUsage (usage : TokenUsage) : Except String RemoteTokenUsage := do
  ensure (usage.cachedInputTokens ≤ usage.inputTokens ∧
      usage.cacheWriteInputTokens ≤ usage.inputTokens ∧
      usage.reasoningOutputTokens ≤ usage.outputTokens)
    "token detail exceeds its containing input or output total"
  ensure usage.hasValidBreakdown "token total does not match its input/output breakdown"
  pure {
    unclassifiedTokens := usage.unclassified
    inputTokens := usage.inputTokens
    cachedInputTokens := usage.cachedInputTokens
    cacheWriteInputTokens := usage.cacheWriteInputTokens
    outputTokens := usage.outputTokens
    reasoningOutputTokens := usage.reasoningOutputTokens
    totalTokens := usage.totalTokens }

structure RemoteSessionUsageMetrics where
  tokenUsage : RemoteTokenUsage
  estimatedCostUnits : Nat
  apiLongContextExtraCostUnits : Option Nat
  apiEquivalentCost : ApiCostAmount
  callCount : Nat
  metricRevision : Nat
  estimatorRevision : Nat
  projectBreakdownRevision : Nat
  apiPricingCatalogRevision : Nat
  partialReasons : List String
deriving DecidableEq

structure RemoteUsageEventFact where
  eventId : String
  occurredAt : DateTime
  observedProjectKey : String
  emittingThreadId : ThreadId
  emittingTurnId : Option String
  parentThreadId : Option ThreadId
  projectSessionThreadId : Option ThreadId
  rootSessionThreadId : ThreadId
  rootSessionTurnId : Option String
  model : Option String
  serviceTier : Option String
  digestTokenUsage : RemoteTokenUsage
  requestUsageExact : Bool
  exactEventIdentity : Bool
  metrics : RemoteSessionUsageMetrics
deriving DecidableEq

def reasonIf (applies : Bool) (reason : String) : Finset String := if applies then {reason} else ∅

/-- The reasons a call's weight gives; a call of the excluded model is not weighed. -/
def weightReasons (catalog : ModelCatalog) (call : UsageCall) : Finset String :=
  if isSparkModel call.model then ∅
  else
    let weight := estimateCallWeight catalog call
    reasonIf weight.usedModelFallback modelFallbackReason ∪
      reasonIf weight.usedTokenBreakdownFallback tokenBreakdownReason ∪
      reasonIf weight.usedLongContextDetectionFallback longContextUnknownReason

/-- The reasons exported of a set of reasons: the first ones. -/
def exportedReasons (reasons : Finset String) : List String :=
  (reasons.sort (· ≤ ·)).take maxExportedPartialReasons

/-- The project groups of a thread by bucket, thread and turn. -/
abbrev FactGroupKey := DateTime × ThreadId × Option String

def insertFactGroup (groups : List (FactGroupKey × LocalProjectUsageGroup))
    (startsAt : DateTime) (group : LocalProjectUsageGroup) :
    Except String (List (FactGroupKey × LocalProjectUsageGroup)) := do
  let key := (startsAt, group.threadId, trimmed group.turnId)
  ensure ((groups.lookup key).isNone = true)
    "session fact attribution is ambiguous for an emitting turn"
  pure ((key, group) :: groups)

def factGroups (thread : ThreadId) (buckets : List LocalHalfHourBucket) :
    Except String (List (FactGroupKey × LocalProjectUsageGroup)) :=
  (buckets.flatMap fun bucket =>
      (bucket.projectGroups.filter fun group =>
        0 < group.callCount ∧ group.threadId = thread).map fun group =>
          (bucket.startsAt, group)).foldlM
    (fun groups entry => insertFactGroup groups entry.1 entry.2) []

/-- Whom a call's usage is attributed to. -/
structure FactAttribution where
  observedProjectKey : String
  emittingTurnId : Option String
  parentThreadId : Option ThreadId
  projectSessionThreadId : Option ThreadId
  rootSessionThreadId : ThreadId
  rootSessionTurnId : Option String
  /-- The turn of a subagent whose root turn is not known. -/
  subagentUnattributed : Bool
deriving DecidableEq

def factAttribution (thread : ThreadId) (groups : List (FactGroupKey × LocalProjectUsageGroup))
    (call : UsageCall) : Except String FactAttribution := do
  let startsAt ← okOr (bucketStart call.timestamp)
    "session fact timestamp cannot be assigned to a local bucket"
  let group ← okOr (groups.lookup (startsAt, call.threadId, trimmed call.turnId))
    "session fact has no unambiguous project/lineage attribution"
  let observedProjectKey ← okOr (group.projectId.filter validObservedProjectKey)
    "session fact has no source-scoped observed project key"
  let emittingTurnId ← strictOptionalProtocolText call.turnId 256 "session fact emitting turn ID"
  let parentThreadId ← strictOptionalThreadId group.parentThreadId "session fact parent thread ID"
  let projectSessionThreadId ← strictOptionalThreadId group.sessionThreadId
    "session fact project session thread ID"
  let rootSessionThreadId := projectSessionThreadId.getD thread
  let rootSessionTurnId ← strictOptionalProtocolText group.sessionTurnId 256
    "session fact root turn ID"
  pure {
    observedProjectKey
    emittingTurnId
    parentThreadId
    projectSessionThreadId
    rootSessionThreadId
    rootSessionTurnId
    subagentUnattributed := group.sessionTurnId.isNone && parentThreadId.isSome &&
      rootSessionThreadId != thread }

section
variable (env : FactEnv) (thread : ThreadId)
  (groups : List (FactGroupKey × LocalProjectUsageGroup)) (collectionPartialReasons : List String)

/-- Every reason of a call's fact but those its identity gives. -/
def commonReasons (call : UsageCall) (subagentUnattributed : Bool) : Finset String :=
  normalizedPartialReasons collectionPartialReasons ∪
    reasonIf (!call.requestUsageExact) requestUsageInexactReason ∪
    reasonIf subagentUnattributed subagentAttributionReason ∪
    (ApiCostAccumulator.addCall env.catalog {} call).partialReasons ∪
    weightReasons env.catalog call

def identityReasons (identity : EventIdentity) : Finset String :=
  reasonIf (!identity.exact) fallbackEventReason ∪ reasonIf identity.missing missingEventReason

/-- The fact of one call. -/
def sessionFact (call : UsageCall) : Except String RemoteUsageEventFact := do
  let attribution ← factAttribution thread groups call
  let model ← strictOptionalProtocolText call.model 256 "session fact model"
  let serviceTier ← strictOptionalProtocolText call.serviceTier 64 "session fact service tier"
  let identity := eventIdentity env call
  let spark := isSparkModel call.model
  let weight := estimateCallWeight env.catalog call
  let digestTokenUsage ← remoteTokenUsage call.tokens
  let tokenUsage ← remoteTokenUsage (if spark then default else call.tokens)
  pure {
    eventId := identity.eventId
    occurredAt := call.timestamp
    observedProjectKey := attribution.observedProjectKey
    emittingThreadId := thread
    emittingTurnId := attribution.emittingTurnId
    parentThreadId := attribution.parentThreadId
    projectSessionThreadId := attribution.projectSessionThreadId
    rootSessionThreadId := attribution.rootSessionThreadId
    rootSessionTurnId := attribution.rootSessionTurnId
    model
    serviceTier
    digestTokenUsage
    requestUsageExact := call.requestUsageExact
    exactEventIdentity := identity.exact
    metrics := {
      tokenUsage
      estimatedCostUnits := if spark then 0 else weight.units
      apiLongContextExtraCostUnits := some (if spark then 0 else weight.apiLongContextExtraUnits)
      apiEquivalentCost := (ApiCostAccumulator.addCall env.catalog {} call).amount
      callCount := 1
      metricRevision := env.revisions.metric
      estimatorRevision := env.revisions.estimator
      projectBreakdownRevision := env.revisions.projectBreakdown
      apiPricingCatalogRevision := env.revisions.apiPricingCatalog
      partialReasons := exportedReasons
        (commonReasons env collectionPartialReasons call attribution.subagentUnattributed ∪
          identityReasons identity) } }

end

/-! ## The inventory -/

structure SessionFactMaterializationLimits where
  maximumRecords : Nat
  initialSerializedBytes : Nat
  maximumRecordSerializedBytes : Nat
  maximumSerializedBytes : Nat

namespace SessionFactMaterializationLimits

def unbounded : SessionFactMaterializationLimits where
  maximumRecords := 2 ^ 64 - 1
  initialSerializedBytes := 0
  maximumRecordSerializedBytes := 2 ^ 64 - 1
  maximumSerializedBytes := 2 ^ 64 - 1

def validate (limits : SessionFactMaterializationLimits) : Except String Unit :=
  ensure (¬ (limits.maximumRecords = 0 ∨ limits.maximumRecordSerializedBytes = 0 ∨
      limits.maximumSerializedBytes = 0 ∨
      limits.maximumSerializedBytes < limits.initialSerializedBytes))
    "session fact materialization limits are invalid"

end SessionFactMaterializationLimits

def inventoryLimitError : String := "session fact inventory exceeds its complete-batch limit"

structure Candidate where
  semanticHash : Nat
  fact : RemoteUsageEventFact
  serializedBytes : Nat

def Candidate.eventId (candidate : Candidate) : String := candidate.fact.eventId

structure MaterializeState where
  candidates : List Candidate := []
  inventorySerializedBytes : Nat
  missingEventIdentities : Nat := 0
  conflictingEventIdentities : Nat := 0

def pushConflict (reasons : List String) : List String :=
  if conflictingEventReason ∈ reasons then reasons
  else
    ((reasons ++ [conflictingEventReason]).insertionSort (· ≤ ·)).take maxExportedPartialReasons

/-- The winner of a conflict is not exact. -/
def markConflict (fact : RemoteUsageEventFact) : RemoteUsageEventFact :=
  { fact with
    exactEventIdentity := false
    metrics := { fact.metrics with partialReasons := pushConflict fact.metrics.partialReasons } }

section
variable (limits : SessionFactMaterializationLimits)
  (serializedFactBytes : RemoteUsageEventFact → Except String Nat)

/-- The running total with a size in the place of another one. -/
def replaceBytes (total existing bytes : Nat) : Except String Nat :=
  okOr (((if existing ≤ total then some (total - existing) else none).bind
      (checkedAdd 64 · bytes)).filter (· ≤ limits.maximumSerializedBytes))
    inventoryLimitError

/-- A fact enters the inventory under its identity. -/
def admitFact (state : MaterializeState) (semanticHash : Nat) (fact : RemoteUsageEventFact) :
    Except String MaterializeState :=
  let put := KeyedMerge.upsert Candidate.eventId fun _ candidate => candidate
  match KeyedMerge.valueAt Candidate.eventId fact.eventId state.candidates with
  | some existing =>
    if existing.semanticHash = semanticHash then pure state
    else do
      let wins := semanticHash < existing.semanticHash
      let winner := markConflict (if wins then fact else existing.fact)
      let bytes ← serializedFactBytes winner
      ensure (bytes ≤ limits.maximumRecordSerializedBytes) inventoryLimitError
      let total ← replaceBytes limits state.inventorySerializedBytes existing.serializedBytes bytes
      pure { state with
        candidates :=
          put ⟨if wins then semanticHash else existing.semanticHash, winner, bytes⟩ state.candidates
        inventorySerializedBytes := total
        conflictingEventIdentities := saturatingAdd 64 state.conflictingEventIdentities 1 }
  | none => do
    ensure (state.candidates.length < limits.maximumRecords) inventoryLimitError
    let bytes ← serializedFactBytes fact
    ensure (bytes ≤ limits.maximumRecordSerializedBytes) inventoryLimitError
    let total ← replaceBytes limits state.inventorySerializedBytes 0 bytes
    pure { state with
      candidates := put ⟨semanticHash, fact, bytes⟩ state.candidates
      inventorySerializedBytes := total }

end

/-! ## The materialization -/

structure HistoryObservation where
  observedAt : DateTime
  halfHourBuckets : List LocalHalfHourBucket

structure MaterializedSessionFacts where
  facts : List RemoteUsageEventFact
  missingEventIdentities : Nat
  conflictingEventIdentities : Nat
deriving DecidableEq

/-- What a materialization is asked for, without its calls. -/
structure FactRequest where
  thread : ThreadId
  retentionDays : Nat
  observedAt : DateTime
  observation : HistoryObservation
  collectionPartialReasons : List String

def FactRequest.retentionStart (request : FactRequest) : DateTime :=
  (checkedSubSigned request.observedAt (days request.retentionDays)).getD minUtc

/-- The calls of the thread in the retention window. -/
def FactRequest.inWindow (request : FactRequest) (call : UsageCall) : Bool :=
  call.threadId = request.thread ∧ request.retentionStart < call.timestamp ∧
    call.timestamp ≤ request.observedAt

section
variable (env : FactEnv) (request : FactRequest) (limits : SessionFactMaterializationLimits)
  (serializedFactBytes : RemoteUsageEventFact → Except String Nat)

def materializeCall (groups : List (FactGroupKey × LocalProjectUsageGroup))
    (state : MaterializeState) (call : UsageCall) : Except String MaterializeState := do
  let fact ← sessionFact env request.thread groups request.collectionPartialReasons call
  let state := if (eventIdentity env call).missing then
      { state with
        missingEventIdentities := saturatingAdd 64 state.missingEventIdentities 1 }
    else state
  admitFact limits serializedFactBytes state (env.semanticHash call) fact

def materializeCalls (calls : List UsageCall) : Except String MaterializeState := do
  limits.validate
  ensure (request.observation.observedAt = request.observedAt)
    "normalized session-fact observation does not match its observation time"
  let groups ← factGroups request.thread request.observation.halfHourBuckets
  (calls.filter request.inWindow).foldlM
    (materializeCall env request limits serializedFactBytes groups)
    { inventorySerializedBytes := limits.initialSerializedBytes }

def materializeSessionFacts (calls : List UsageCall) : Except String MaterializedSessionFacts := do
  let state ← materializeCalls env request limits serializedFactBytes calls
  pure {
    facts := state.candidates.map (·.fact)
    missingEventIdentities := state.missingEventIdentities
    conflictingEventIdentities := state.conflictingEventIdentities }

end

end SourceExport
