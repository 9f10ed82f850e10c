import UsageMonit.Replica.Buckets

/-!
# Resolution of logical replicas (`history_query/reconciliation.rs`)

`resolveLogicalReplicas` takes the buckets of all sources with their evidence and leaves one copy of
each replicated thread. Candidates with exact facts get the union of the facts; the others keep the
copy of the authority. What a source may still hold of a replicated thread in an opaque bucket is
suppressed, day by day, in all sources but the authority.
-/

namespace Replica

open Fallible Time Protocol History

/-- One source of a query: its slice of the history and its evidence. -/
structure ReplicaSource where
  displayLabel : String := ""
  buckets : List LocalHalfHourBucket := []
  weeklyLocalPoints : List WeeklyLocalPoint := []
  evidence : SourceReplicaEvidence

instance : Inhabited ReplicaSource := ⟨{ evidence := default }⟩

/-! ## Building the index -/

def bucketIsOpaque (bucket : LocalHalfHourBucket) : Prop :=
  ∀ residual ∈ bucketProjectResidual bucket, ¬ bucketProjectResidualIsZero residual

instance (bucket : LocalHalfHourBucket) : Decidable (bucketIsOpaque bucket) :=
  inferInstanceAs (Decidable (∀ _ ∈ _, _))

def threadGroups (thread : ThreadId) (bucket : LocalHalfHourBucket) :
    List LocalProjectUsageGroup :=
  bucket.projectGroups.filter fun group => group.threadId = thread

def buildBucketIndex (bucket : LocalHalfHourBucket) : BucketIndex where
  groupPositions := fun thread =>
    (bucket.projectGroups.zipIdx.filter fun entry => entry.1.threadId = thread).map (·.2)
  removedGroups := List.replicate bucket.projectGroups.length false
  activeTotals := projectGroupTotals bucket.projectGroups
  opaqueActive := decide (bucketIsOpaque bucket)
  residual := bucketProjectResidual bucket

def buildThreadIndex (s : SourceState) (thread : ThreadId) : List IndexedThreadBucket :=
  if thread = "" then []
  else
    (s.buckets.zipIdx.filterMap fun entry =>
      match threadGroups thread entry.1 with
      | [] => none
      | groups => some ⟨entry.2, true, projectGroupTotals groups⟩).insertionSort
      fun left right => s.positionRank left.bucketPosition ≤ s.positionRank right.bucketPosition

def buildSourceState (source : ReplicaSource) : SourceState :=
  let s : SourceState := {
    displayLabel := source.displayLabel
    buckets := source.buckets
    weeklyLocalPoints := source.weeklyLocalPoints
    index := source.buckets.map buildBucketIndex }
  let opaquePositions := ((source.buckets.zipIdx.filter fun entry => bucketIsOpaque entry.1).map
    (·.2)).insertionSort fun left right => s.positionRank left ≤ s.positionRank right
  { s with
    threads := buildThreadIndex s
    opaquePositions
    activeOpaqueCount := opaquePositions.length }

/-! ## Observed threads -/

/-- `BTreeSet`. -/
def sortedSet {α : Type} [LinearOrder α] (l : List α) : List α :=
  (l.insertionSort (· ≤ ·)).dedup

def utcDayStart (timestamp : DateTime) : DateTime := timestamp - timestamp % days 1

def sourceHasThread (source : ReplicaSource) (thread : ThreadId) : Prop :=
  thread ≠ "" ∧ ∃ bucket ∈ source.buckets, ∃ group ∈ bucket.projectGroups, group.threadId = thread

/-- A source is associated with a thread, by a project group or a digest. -/
def sourceObservesThread (source : ReplicaSource) (thread : ThreadId) : Prop :=
  sourceHasThread source thread ∨
    ∃ digest ∈ source.evidence.digests, digest.replica.threadId = thread

instance (source : ReplicaSource) (thread : ThreadId) : Decidable (sourceHasThread source thread) :=
  inferInstanceAs (Decidable (_ ∧ ∃ _ ∈ _, ∃ _ ∈ _, _))

instance (source : ReplicaSource) (thread : ThreadId) :
    Decidable (sourceObservesThread source thread) := inferInstanceAs (Decidable (_ ∨ ∃ _ ∈ _, _))

/-- The positions of the sources with a property. -/
def positionsWhere (sources : List ReplicaSource) (p : ReplicaSource → Prop) [DecidablePred p] :
    List Nat :=
  (List.range sources.length).filter fun i => p (sources.getD i default)

def observedSources (sources : List ReplicaSource) (thread : ThreadId) : List Nat :=
  positionsWhere sources fun source => sourceObservesThread source thread

def observedThreads (sources : List ReplicaSource) : List ThreadId :=
  sortedSet (sources.flatMap fun source =>
    ((source.buckets.flatMap fun bucket => bucket.projectGroups.map (·.threadId)).filter
      fun thread => thread ≠ "") ++ source.evidence.digests.map (·.replica.threadId))

def bucketsOfDay (source : ReplicaSource) (day : DateTime) : List LocalHalfHourBucket :=
  source.buckets.filter fun bucket => utcDayStart bucket.startsAt = day

def observedOnDay (sources : List ReplicaSource) (thread : ThreadId) (day : DateTime) : List Nat :=
  positionsWhere sources fun source =>
    thread ≠ "" ∧ ∃ bucket ∈ bucketsOfDay source day, threadGroups thread bucket ≠ []

def opaqueOnDay (sources : List ReplicaSource) (day : DateTime) : List Nat :=
  positionsWhere sources fun source => ∃ bucket ∈ bucketsOfDay source day, bucketIsOpaque bucket

/-- The days of a thread: those with its groups, and those with opaque buckets of its sources. -/
def threadDays (sources : List ReplicaSource) (thread : ThreadId) : List DateTime :=
  sortedSet ((sources.flatMap fun source =>
      (source.buckets.filter fun bucket => thread ≠ "" ∧ threadGroups thread bucket ≠ []).map
        fun bucket => utcDayStart bucket.startsAt) ++
    (observedSources sources thread).flatMap fun i =>
      ((sources.getD i default).buckets.filter fun bucket => bucketIsOpaque bucket).map
        fun bucket => utcDayStart bucket.startsAt)

/-! ## Facts as project groups -/

section
variable (current : ProtocolRevisions)

def maskSessionModelCatalogProjection (metrics : SessionUsageMetrics) : SessionUsageMetrics :=
  { metrics with
    estimatedCostUnits := 0
    apiLongContextExtraCostUnits := some 0
    apiEquivalentCost := maskApiCostProjection metrics.apiEquivalentCost
      metrics.tokenUsage.totalTokens metrics.callCount
    estimatorRevision := current.estimator
    apiPricingCatalogRevision := current.apiPricingCatalog
    partialReasons := if remoteModelCatalogMismatchWarning ∈ metrics.partialReasons then
      metrics.partialReasons else metrics.partialReasons ++ [remoteModelCatalogMismatchWarning] }

end

def metricTotals (metrics : SessionUsageMetrics) : ProjectGroupTotals :=
  ⟨metrics.tokenUsage, metrics.estimatedCostUnits, metrics.apiLongContextExtraCostUnits,
    metrics.apiEquivalentCost, metrics.callCount⟩

def quarterHourStart (timestamp : DateTime) : Except String DateTime := do
  let start := timestamp - timestamp % minutes 15
  ensure (minUtc ≤ start ∧ start ≤ maxUtc)
    "session fact timestamp cannot be assigned to a history bucket"
  pure start

def factGroup (displayLabel : String) (fact : UsageEventFact) (metrics : SessionUsageMetrics) :
    LocalProjectUsageGroup :=
  { threadId := fact.replica.threadId
    turnId := fact.emittingTurnId
    parentThreadId := fact.parentThreadId
    sessionThreadId := some fact.rootSessionThreadId
    sessionTurnId := fact.rootSessionTurnId
    projectId := some fact.observedProjectKey
    source := some displayLabel
    tokenUsage := metrics.tokenUsage
    estimatedCostUnits := metrics.estimatedCostUnits
    apiLongContextExtraCostUnits := metrics.apiLongContextExtraCostUnits
    apiEquivalentCost := metrics.apiEquivalentCost
    callCount := metrics.callCount }

namespace SourceState

/-- The position of the bucket with a start, which is added at the end if there is none. -/
def bucketForFact (s : SourceState) (startsAt : DateTime) (metrics : SessionUsageMetrics) :
    SourceState × Nat :=
  match s.buckets.findIdx? fun bucket => bucket.startsAt = startsAt with
  | some position => (s, position)
  | none =>
    ({ s with
        buckets := s.buckets ++ [{
          startsAt
          endsAt := startsAt + minutes 15
          sampledAt := startsAt + minutes 15
          apiLongContextExtraCostUnits := some 0
          estimatorRevision := metrics.estimatorRevision
          projectBreakdownRevision := metrics.projectBreakdownRevision
          apiPricingCatalogRevision := metrics.apiPricingCatalogRevision
          partialReasons := [duplicateSessionModelBreakdownPartial] }] },
      s.buckets.length)

def addFactGroup (s : SourceState) (fact : UsageEventFact) (metrics : SessionUsageMetrics) :
    Except String (SourceState × Nat) := do
  let startsAt ← quarterHourStart fact.occurredAt
  let (s, position) := s.bucketForFact startsAt metrics
  let residual ← okOr ((s.touched.lookup startsAt).or (bucketProjectResidual (s.bucketAt position)))
    "replica fact target bucket has a non-subtractable project breakdown"
  let s := s.touchOnce startsAt residual
  pure (s.modifyBucket position fun bucket =>
    addProjectGroupTotalsToBucket (metricTotals metrics)
      (pushPartialReason duplicateSessionModelBreakdownPartial { bucket with
        projectGroups := bucket.projectGroups ++ [factGroup s.displayLabel fact metrics] }),
    position)

/-- The index with an entry for each bucket up to a position. -/
def growIndex (s : SourceState) (position : Nat) : SourceState :=
  { s with index := s.index ++ List.replicate (position + 1 - s.index.length) {} }

/-- The entry of a thread's bucket after a fact was added to it. -/
def recordThreadEntry (s : SourceState) (thread : ThreadId) (position : Nat)
    (totals : ProjectGroupTotals) : List IndexedThreadBucket :=
  match s.threadOffset thread position with
  | some offset => (s.threads thread).modify offset fun entry =>
      { entry with
        active := true
        totals := ProjectGroupTotals.addTotals (if entry.active then entry.totals else {}) totals }
  | none => (s.threads thread).orderedInsert
      (fun left right => s.positionRank left.bucketPosition ≤ s.positionRank right.bucketPosition)
      ⟨position, true, totals⟩

def record (s : SourceState) (thread : ThreadId) (position : Nat) (totals : ProjectGroupTotals) :
    Except String SourceState := do
  let bucket ← okOr s.buckets[position]? "replica thread index bucket is out of range"
  ensure (0 < bucket.projectGroups.length) "replica fact target bucket has no project group"
  let wasIndexed := decide (position < s.index.length)
  let s := (s.growIndex position).modifyIndex position fun index =>
    { index with
      residual := if wasIndexed then index.residual else bucketProjectResidual bucket
      removedGroups := index.removedGroups ++
        List.replicate (bucket.projectGroups.length - index.removedGroups.length) false
      groupPositions := fun t => if t = thread then
        index.groupPositions t ++ [bucket.projectGroups.length - 1] else index.groupPositions t
      activeTotals := if wasIndexed then ProjectGroupTotals.addTotals index.activeTotals totals
        else projectGroupTotals bucket.projectGroups }
  pure (s.setThread thread (s.recordThreadEntry thread position totals))

def addFact (s : SourceState) (current : ProtocolRevisions) (modelCatalogCompatible : Bool)
    (fact : UsageEventFact) : Except String SourceState := do
  let metrics := if modelCatalogCompatible then fact.metrics
    else maskSessionModelCatalogProjection current fact.metrics
  let (s, position) ← s.addFactGroup fact metrics
  let s := if modelCatalogCompatible then s
    else s.modifyBucket position (pushPartialReasonOnce remoteModelCatalogMismatchWarning)
  s.record fact.replica.threadId position (metricTotals metrics)

/-! ## The end of a resolution -/

def survivingGroups (bucket : LocalHalfHourBucket) (index : BucketIndex) :
    List LocalProjectUsageGroup :=
  (bucket.projectGroups.zipIdx.filter fun entry =>
    !(index.removedGroups.getD entry.2 false)).map (·.1)

def compactTombstonedProjectGroups (s : SourceState) : SourceState :=
  { s with
    buckets := s.buckets.zipIdx.map fun entry =>
      if (s.indexAt entry.2).needsCompaction then
        { entry.1 with projectGroups := survivingGroups entry.1 (s.indexAt entry.2) }
      else entry.1
    index := s.index.map fun index => { index with needsCompaction := false } }

/-- `rebuild_bucket_from_project_groups`, for the first bucket of a start. -/
def rebuildTouched (s : SourceState) (entry : (_ : DateTime) × BucketProjectResidual) :
    SourceState :=
  match s.buckets.findIdx? fun bucket => bucket.startsAt = entry.1 with
  | none => s
  | some position => s.modifyBucket position fun bucket =>
      rebuildBucketFromProjectGroupTotals entry.2 (projectGroupTotals bucket.projectGroups) bucket

def finish (s : SourceState) : SourceState :=
  let s := s.compactTombstonedProjectGroups
  s.touched.entries.foldl rebuildTouched s

end SourceState

/-! ## Ranges -/

/-- One step of `normalize_time_ranges`: the last range is extended, or a new one begins. -/
def joinRange (ranges : List (DateTime × DateTime)) (range : DateTime × DateTime) :
    List (DateTime × DateTime) :=
  match ranges.getLast? with
  | some last =>
    if range.1 ≤ last.2 then ranges.dropLast ++ [(last.1, max last.2 range.2)]
    else ranges ++ [range]
  | none => [range]

def normalizeTimeRanges (ranges : List (DateTime × DateTime)) : List (DateTime × DateTime) :=
  (ranges.insertionSort fun left right => toLex left ≤ toLex right).foldl joinRange []

/-- The body of the loop in place: the merged ranges are the first `output_len` ones. -/
def mergeInPlace (state : List (DateTime × DateTime) × Nat) (input : Nat) :
    List (DateTime × DateTime) × Nat :=
  let (ranges, outputLen) := state
  let range := ranges.getD input default
  if 0 < outputLen ∧ range.1 ≤ (ranges.getD (outputLen - 1) default).2 then
    (ranges.modify (outputLen - 1) fun last => (last.1, max last.2 range.2), outputLen)
  else (ranges.set outputLen range, outputLen + 1)

/-- `normalize_time_ranges` as it is written, on one list; `normalizeTimeRanges` is what it leaves
(`normalizeInPlace_eq`). -/
def normalizeInPlace (ranges : List (DateTime × DateTime)) : List (DateTime × DateTime) :=
  let sorted := ranges.insertionSort fun left right => toLex left ≤ toLex right
  let (merged, outputLen) := (List.range sorted.length).foldl mergeInPlace (sorted, 0)
  merged.take outputLen

/-! ## The run -/

abbrev LogicalThreads := AList fun _ : NodeId × ThreadId => String

structure LogicalReplicaReport where
  logicalThreads : LogicalThreads := ∅
  warnings : List String := []

/-- The state of a run: the sources, the report, and the handled ranges of threads and sources. -/
structure ResolveState where
  sources : List SourceState
  report : LogicalReplicaReport := {}
  handledRanges : AList (fun _ : ThreadId × Nat => List (DateTime × DateTime)) := ∅

namespace ResolveState

def sourceAt (state : ResolveState) (i : Nat) : SourceState := state.sources.getD i default

def modifySource (state : ResolveState) (i : Nat)
    (f : SourceState → Except String SourceState) : Except String ResolveState := do
  let source ← f (state.sourceAt i)
  pure { state with sources := state.sources.set i source }

def warn (state : ResolveState) (warning : String) : ResolveState :=
  { state with report := { state.report with warnings := state.report.warnings ++ [warning] } }

def ranges (state : ResolveState) (thread : ThreadId) (i : Nat) : List (DateTime × DateTime) :=
  (state.handledRanges.lookup (thread, i)).getD []

def handle (state : ResolveState) (thread : ThreadId) (rangeStart rangeEnd : DateTime) (i : Nat) :
    ResolveState :=
  { state with
    handledRanges := state.handledRanges.insert (thread, i)
      (state.ranges thread i ++ [(rangeStart, rangeEnd)]) }

/-- The logical identity of a thread in a source. -/
def identify (state : ResolveState) (sourceId : NodeId) (thread : ThreadId) : ResolveState :=
  { state with
    report := { state.report with
      logicalThreads :=
        state.report.logicalThreads.insert (sourceId, thread) ("logical-thread:" ++ thread) } }

end ResolveState

section
variable (current : ProtocolRevisions) (mapping : ProjectMappingProjection)
  (fingerprints : Fingerprints) (inputs : List ReplicaSource)
  (evidence : List SourceReplicaEvidence)

def evidenceAt (i : Nat) : SourceReplicaEvidence := evidence.getD i default

def evidencePosition (sourceId : NodeId) : Option Nat :=
  evidence.findIdx? fun source => source.sourceId = sourceId

/-- The copy of one participant goes: its groups are subtracted, or suppressed as a lower bound. -/
def dropParticipantCopy (thread : ThreadId) (coverage : Nat → Option Bool) (state : ResolveState)
    (participant : ReplicaParticipant Nat) : Except String ResolveState :=
  state.modifySource participant.sourceIndex fun source =>
    if coverage participant.sourceIndex = some true then
      source.removeReplicaGroups thread participant.digest.rangeStart participant.digest.rangeEnd
    else
      source.suppressUnboundReplicaRange thread participant.digest.rangeStart
        participant.digest.rangeEnd

/-- A copy without a digest is suppressed in the range of the candidate. -/
def suppressUnboundCopy (candidate : ReplicaCandidate) (state : ResolveState) (i : Nat) :
    Except String ResolveState :=
  state.modifySource i fun source =>
    source.suppressUnboundReplicaRange candidate.threadId candidate.rangeStart candidate.rangeEnd

def addUnionGroup (state : ResolveState) (entry : Nat × UsageEventFact) :
    Except String ResolveState :=
  state.modifySource entry.1 fun source =>
    source.addFact current (evidenceAt evidence entry.1).modelCatalogCompatible entry.2

/-- The sources a candidate concerns: its participants and those with groups of the thread. -/
def candidateSourceIndices (candidate : ReplicaCandidate) (resolution : ReplicaResolution Nat)
    (state : ResolveState) : List Nat :=
  sortedSet (resolution.participants.map (·.sourceIndex) ++
    (observedSources inputs candidate.threadId).filter fun i =>
      (state.sourceAt i).sourceHasThreadGroupInRange candidate.threadId candidate.rangeStart
        candidate.rangeEnd)

/-- The groups of each participant account for its digest. -/
def participantCoverage (candidate : ReplicaCandidate) (resolution : ReplicaResolution Nat)
    (state : ResolveState) (i : Nat) : Option Bool :=
  (resolution.participants.find? fun p => p.sourceIndex = i).map fun p =>
    (state.sourceAt i).replicaGroupsCoverDigest candidate.threadId p.digest
      (evidenceAt evidence i).modelCatalogCompatible

/-- The opaque buckets of the authority are marked in the range of its digest. -/
def ensureAuthority (resolution : ReplicaResolution Nat) (state : ResolveState) :
    Except String ResolveState :=
  match resolution.participants.find? fun p => p.sourceIndex = resolution.authorityIndex with
  | some authority => state.modifySource resolution.authorityIndex fun source =>
      .ok (source.ensureAuthorityProjectConsistency authority.digest.rangeStart
        authority.digest.rangeEnd)
  | none => .ok state

/-- The buckets of a resolution with its union, or with its authority. -/
def resolveBuckets (candidate : ReplicaCandidate) (resolution : ReplicaResolution Nat)
    (coverage : Nat → Option Bool) (unbound : List Nat) (state : ResolveState) :
    Except String ResolveState :=
  match resolution.unionFacts with
  | some facts => do
    let state ← resolution.participants.foldlM
      (dropParticipantCopy candidate.threadId coverage) state
    let state ← unbound.foldlM (suppressUnboundCopy candidate) state
    let state ← facts.foldlM (addUnionGroup current evidence) state
    pure (if resolution.factConflict then state.warn duplicateSessionFactConflictWarning else state)
  | none => do
    let state ← ensureAuthority resolution state
    let state ← (resolution.participants.filter fun p =>
      p.sourceIndex ≠ resolution.authorityIndex).foldlM
        (dropParticipantCopy candidate.threadId coverage) state
    let state ← unbound.foldlM (suppressUnboundCopy candidate) state
    pure (if candidate.kind = .needsFacts then
      state.warn duplicateSessionDedupUnavailableWarning else state)

def resolveCandidate (state : ResolveState) (candidate : ReplicaCandidate) :
    Except String ResolveState :=
  match planReplicaResolution (evidenceAt evidence) current mapping fingerprints
      (evidencePosition evidence) candidate with
  | none => pure state
  | some resolution => do
    let indices := candidateSourceIndices inputs candidate resolution state
    let coverage := participantCoverage evidence candidate resolution state
    let unbound := indices.filter fun i => coverage i = none
    let state := indices.foldl (fun state i =>
      (state.identify (evidenceAt evidence i).sourceId candidate.threadId).handle
        candidate.threadId candidate.rangeStart candidate.rangeEnd i) state
    -- a copy that is only a lower bound is reported
    let replaced := if resolution.unionFacts.isSome then resolution.participants
      else resolution.participants.filter fun p => p.sourceIndex ≠ resolution.authorityIndex
    let conservative := unbound ≠ [] ∨ ∃ p ∈ replaced, coverage p.sourceIndex ≠ some true
    let state ← resolveBuckets current evidence candidate resolution coverage unbound state
    let state := if conservative then state.warn duplicateSessionDedupUnavailableWarning else state
    pure (if resolution.projectConflict then
      state.warn duplicateSessionProjectConflictWarning else state)

/-! ## Days without a candidate -/

def chooseObservedThreadAuthority (thread : ThreadId) (indices : List Nat)
    (rangeStart rangeEnd : DateTime) : Nat :=
  let digests := indices.flatMap fun i =>
    ((evidenceAt evidence i).digests.filter fun digest =>
      digest.replica.threadId = thread ∧ digest.rangeStart < rangeEnd ∧
        rangeStart < digest.rangeEnd).map fun digest =>
      ({ sourceIndex := i
         digest
         exactFactCoverage := activeSourceFactsCoverDigest fingerprints (evidenceAt evidence i)
           digest } : ReplicaParticipant Nat)
  match digests with
  | first :: rest => (chooseAuthority (evidenceAt evidence) current first rest).sourceIndex
  | [] => (indices.foldl (fun best i => match best with
      | none => some i
      | some best =>
        if (evidenceAt evidence i).sourceId < (evidenceAt evidence best).sourceId then some i
        else some best) none).getD 0

/-- Suppression of what a source may hold of a thread on a day. -/
def suppressDay (thread : ThreadId) (rangeStart rangeEnd : DateTime)
    (result : ResolveState × Bool) (i : Nat) : Except String (ResolveState × Bool) := do
  let (state, suppressed) := result
  let handled := state.ranges thread i
  let source := state.sourceAt i
  if source.sourceHasUnhandledThreadGroup thread rangeStart rangeEnd handled = true ∨
      source.sourceHasUnhandledOpaqueBucket rangeStart rangeEnd handled = true then do
    let state ← state.modifySource i fun source =>
      source.suppressUnboundReplicaBuckets thread { rangeStart, rangeEnd, handledRanges := handled }
    pure (state, true)
  else pure (state, suppressed)

def resolveDay (thread : ThreadId) (state : ResolveState) (rangeStart : DateTime) :
    Except String ResolveState := do
  let rangeEnd := (checkedAddSigned rangeStart (days 1)).getD maxUtc
  let opaqueSources := (opaqueOnDay inputs rangeStart).filter fun i =>
    i ∈ observedSources inputs thread ∧
      (state.sourceAt i).sourceHasUnhandledOpaqueBucket rangeStart rangeEnd
        (state.ranges thread i) = true
  let indices := sortedSet (observedOnDay inputs thread rangeStart ++ opaqueSources)
  if indices.length < 2 then pure state
  else do
    let authority := chooseObservedThreadAuthority current fingerprints evidence thread indices
      rangeStart rangeEnd
    let (state, suppressed) ← (indices.filter fun i => i ≠ authority).foldlM
      (suppressDay thread rangeStart rangeEnd) (state, false)
    if suppressed then do
      let state ← state.modifySource authority fun source =>
        pure ((source.ensureAuthorityProjectConsistency rangeStart rangeEnd)
          |>.markUnhandledAuthorityLowerBound thread rangeStart rangeEnd
            (state.ranges thread authority))
      pure (state.warn duplicateSessionDedupUnavailableWarning)
    else pure state

/-- One thread after the candidates. -/
def resolveObservedThread (state : ResolveState) (thread : ThreadId) :
    Except String ResolveState :=
  let associated := observedSources inputs thread
  if associated.length < 2 then pure state
  else
    let state := associated.foldl (fun state i =>
      state.identify (evidenceAt evidence i).sourceId thread) state
    (threadDays inputs thread).foldlM
      (resolveDay current fingerprints inputs evidence thread) state

end

/-! ## Loading facts -/

/-- The facts of a source and thread as the store answers the n-th read; an error is an exhausted
read budget. -/
abbrev FactLoader := Nat → NodeId → ThreadId → Except String (Option ActiveFactSet)

def loadSourceFacts (load : FactLoader) (candidate : ReplicaCandidate)
    (result : List SourceReplicaEvidence × Nat) (sourceId : NodeId) :
    Except String (List SourceReplicaEvidence × Nat) :=
  match evidencePosition result.1 sourceId with
  | none => pure result
  | some i =>
    if ((evidenceAt result.1 i).activeFacts candidate.threadId).isSome then pure result
    else do
      let active ← load result.2 sourceId candidate.threadId
      pure (result.1.modify i fun source =>
        { source with
          activeFacts := fun thread => if thread = candidate.threadId then active
            else source.activeFacts thread }, result.2 + 1)

def loadCandidateFacts (load : FactLoader) (candidates : List ReplicaCandidate)
    (evidence : List SourceReplicaEvidence) : Except String (List SourceReplicaEvidence) := do
  let needing := candidates.filter fun candidate => candidate.kind = .needsFacts
  let (evidence, _) ← needing.foldlM (fun result candidate =>
    candidate.sourceIds.foldlM (loadSourceFacts load candidate) result) (evidence, 0)
  pure evidence

/-! ## The whole -/

def replaceWeeklyBaselinesWithCycleMarkers (current : ProtocolRevisions)
    (canonicalResets : List DateTime) (sources : List SourceState) : List SourceState :=
  match sources.map fun source => { source with weeklyLocalPoints := [] } with
  | [] => []
  | first :: rest =>
    { first with
      weeklyLocalPoints := canonicalResets.map fun resetsAt =>
        { observedAt := (checkedSubSigned resetsAt (minutes 10080)).getD minUtc
          resetsAt
          estimatorRevision := current.estimator
          partialReasons := [duplicateSessionWeeklyRebuiltFromBuckets] } } :: rest

/-- `resolve_logical_replicas`: the sources after it, with the report. -/
def resolveLogicalReplicas (current : ProtocolRevisions) (mapping : ProjectMappingProjection)
    (fingerprints : Fingerprints) (load : FactLoader) (weeklyCycleResets : List DateTime)
    (inputs : List ReplicaSource) : Except String (List SourceState × LogicalReplicaReport) := do
  let sources := inputs.map buildSourceState
  let candidates := detectReplicaCandidates (digestObservations (inputs.map (·.evidence)))
  if candidates = [] ∧ ∀ thread ∈ observedThreads inputs,
      (observedSources inputs thread).length ≤ 1 then
    pure (sources, {})
  else do
    let evidence ← loadCandidateFacts load candidates (inputs.map (·.evidence))
    let state ← candidates.foldlM (resolveCandidate current mapping fingerprints inputs evidence)
      { sources }
    let state := { state with
      handledRanges := ⟨state.handledRanges.entries.map fun entry =>
        ⟨entry.1, normalizeTimeRanges entry.2⟩, by
          simpa [List.NodupKeys, List.keys, Function.comp_def] using
            state.handledRanges.nodupKeys⟩ }
    let state ← (observedThreads inputs).foldlM
      (resolveObservedThread current fingerprints inputs evidence) state
    let sources := state.sources.map SourceState.finish
    let sources := if state.report.logicalThreads.entries = [] then sources
      else replaceWeeklyBaselinesWithCycleMarkers current weeklyCycleResets sources
    pure (sources, { state.report with warnings := sortReasons state.report.warnings })

end Replica
