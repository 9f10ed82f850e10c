import UsageMonit.Replica.Plan

/-!
# Replica resolution and the order of the sources

* `detect_perm`: the candidates do not depend on the order of the observations
* `authority_trans`, `authority_total`: one source is better than another by a strict total order
* `plan_map`: a plan does not see what the handles of its sources are, so it is the same for two
  lists of the same sources (`resolution_order_independent`)
-/

namespace Replica

open Time Usage Protocol Ingest History KeyedMerge

/-! ## Candidates -/

variable {observations : List ReplicaDigestObservation}

theorem key_merge (a b : ReplicaGroup) : (a.merge b).key = a.key := rfl

/-- The group of a key: the observations of the key, by source. -/
def keyGroup (observations : List ReplicaDigestObservation) (k : ThreadId ×ₗ DateTime) :
    Option ReplicaGroup :=
  if observations = [] then none
  else some ⟨(ofLex k).1, (ofLex k).2,
    collect ReplicaDigestObservation.sourceId (fun existing _ => existing) observations⟩

theorem mergeAll_group {k : ThreadId ×ₗ DateTime} (h : ∀ o ∈ observations, o.group.key = k) :
    mergeAll ReplicaGroup.merge (observations.map ReplicaDigestObservation.group) =
      keyGroup observations k := by
  induction observations using List.reverseRecOn with
  | nil => rfl
  | append_singleton os o ih =>
    have ho : o.group.key = k := h o (by simp)
    rw [List.map_append, List.map_singleton, mergeAll_concat, ih fun o ho => h o (by simp [ho])]
    unfold keyGroup
    by_cases hnil : os = []
    · subst hnil
      rw [← ho]
      rfl
    · simp only [if_neg hnil, ReplicaGroup.merge, ReplicaDigestObservation.group, List.foldl_cons,
        List.foldl_nil, collect, List.foldl_append, List.append_eq_nil_iff, List.cons_ne_nil,
        and_false, if_false]
      rfl

/-- What an observation is about. -/
def ReplicaDigestObservation.subject (o : ReplicaDigestObservation) :
    NodeId × ThreadId × DateTime :=
  (o.sourceId, o.digest.replica.threadId, o.digest.rangeStart)

theorem sources_nodup (h : (observations.map ReplicaDigestObservation.subject).Nodup)
    (k : ThreadId ×ₗ DateTime) :
    ((observations.filter fun o => o.group.key = k).map
      ReplicaDigestObservation.sourceId).Nodup := by
  have hsub := (List.Nodup.sublist (List.filter_sublist.map _) h :
    ((observations.filter fun o => o.group.key = k).map ReplicaDigestObservation.subject).Nodup)
  rw [List.Nodup, List.pairwise_map] at hsub ⊢
  refine hsub.imp_of_mem fun {a b} ha hb hne hsource => hne ?_
  have hka : a.group.key = k := by simpa using (List.mem_filter.1 ha).2
  have hkb : b.group.key = k := by simpa using (List.mem_filter.1 hb).2
  have hkey : (a.digest.replica.threadId, a.digest.rangeStart) =
      (b.digest.replica.threadId, b.digest.rangeStart) := congrArg ofLex (hka.trans hkb.symm)
  exact Prod.ext hsource hkey

theorem valueAt_groups (observations : List ReplicaDigestObservation) (k : ThreadId ×ₗ DateTime) :
    valueAt ReplicaGroup.key k (collect ReplicaGroup.key ReplicaGroup.merge
      (observations.map ReplicaDigestObservation.group)) =
      keyGroup (observations.filter fun o => o.group.key = k) k := by
  rw [valueAt_collect (fun a b _ => key_merge a b), List.filter_map,
    ← mergeAll_group (fun o ho => by simpa using (List.mem_filter.1 ho).2)]
  rfl

/-- **The candidates do not depend on the order of the observations.** -/
theorem detect_perm {observations' : List ReplicaDigestObservation}
    (hperm : observations.Perm observations')
    (hnodup : (observations.map ReplicaDigestObservation.subject).Nodup) :
    detectReplicaCandidates observations = detectReplicaCandidates observations' := by
  unfold detectReplicaCandidates
  congr 1
  refine List.forall₂_eq_eq_eq ▸ forall₂_of_valueAt (R := Eq) (fun _ _ h => h ▸ rfl)
    (Ordered.collect (fun a b _ => key_merge a b) _)
    (Ordered.collect (fun a b _ => key_merge a b) _) fun k => ?_
  have hfilter := hperm.filter fun o => decide (o.group.key = k)
  have hsame : keyGroup (observations.filter fun o => o.group.key = k) k =
      keyGroup (observations'.filter fun o => o.group.key = k) k := by
    unfold keyGroup
    rw [collect_perm (fun _ _ _ => rfl) hfilter (sources_nodup hnodup k)]
    have hnil : (observations.filter fun o => decide (o.group.key = k)) = [] ↔
        (observations'.filter fun o => decide (o.group.key = k)) = [] :=
      ⟨fun h => List.nil_perm.1 (h ▸ hfilter), fun h => List.perm_nil.1 (h ▸ hfilter)⟩
    simp only [hnil]
  rw [valueAt_groups, valueAt_groups, hsame]
  cases keyGroup (observations'.filter fun o => o.group.key = k) k with
  | none => exact .none
  | some group => exact .some rfl

/-! ## Authority -/

section
variable {current : ProtocolRevisions} {s s' s'' : SourceReplicaEvidence}
  {d d' d'' : SourceSessionDigest} {c c' c'' : Bool}

theorem authority_irrefl : ¬ authorityIsBetter current s d c s d c := by
  rintro (h | ⟨-, h⟩)
  · exact lt_irrefl _ h
  · exact lt_irrefl _ h

theorem authority_trans (h : authorityIsBetter current s d c s' d' c')
    (h' : authorityIsBetter current s' d' c' s'' d'' c'') :
    authorityIsBetter current s d c s'' d'' c'' := by
  rcases h with h | ⟨heq, h⟩ <;> rcases h' with h' | ⟨heq', h'⟩
  · exact .inl (h'.trans h)
  · exact .inl (heq' ▸ h)
  · exact .inl (heq.symm ▸ h')
  · exact .inr ⟨heq.trans heq', h.trans h'⟩

theorem authority_total (hne : s.sourceId ≠ s'.sourceId) :
    authorityIsBetter current s d c s' d' c' ∨ authorityIsBetter current s' d' c' s d c := by
  rcases lt_trichotomy (authorityKey current s d c) (authorityKey current s' d' c') with
    h | h | h
  · exact .inr (.inl h)
  · rcases lt_or_gt_of_ne hne with hlt | hlt
    · exact .inl (.inr ⟨h, hlt⟩)
    · exact .inr (.inr ⟨h.symm, hlt⟩)
  · exact .inl (.inl h)

end

/-! ## Handles -/

theorem mapM_option_map {α β γ : Type} (g : α → Option β) (φ : β → γ) (l : List α) :
    (l.mapM fun a => (g a).map φ) = (l.mapM g).map (List.map φ) := by
  induction l with
  | nil => rfl
  | cons a l ih =>
    rw [List.mapM_cons, List.mapM_cons, ih]
    cases g a with
    | none => rfl
    | some b =>
      cases l.mapM g <;> rfl

section
variable {ι κ : Type} (f : ι → κ)

def ReplicaParticipant.map (p : ReplicaParticipant ι) : ReplicaParticipant κ :=
  ⟨f p.sourceIndex, p.digest, p.exactFactCoverage⟩

def ReplicaResolution.map (r : ReplicaResolution ι) : ReplicaResolution κ where
  participants := r.participants.map (·.map f)
  authorityIndex := f r.authorityIndex
  unionFacts := r.unionFacts.map (List.map fun e => (f e.1, e.2))
  factConflict := r.factConflict
  projectConflict := r.projectConflict

def UnionState.map (u : UnionState ι) : UnionState κ where
  events := u.events.map fun e => (f e.1, e.2)
  factConflict := u.factConflict
  projectConflict := u.projectConflict

variable {f} {evidence : ι → SourceReplicaEvidence} {evidence' : κ → SourceReplicaEvidence}
  (hevidence : ∀ i, evidence' (f i) = evidence i)
  (current : ProtocolRevisions) (mapping : ProjectMappingProjection) (fingerprints : Fingerprints)
include hevidence

theorem participantIsBetter_map (p q : ReplicaParticipant ι) :
    participantIsBetter evidence' current (p.map f) (q.map f) ↔
      participantIsBetter evidence current p q := by
  simp only [participantIsBetter, ReplicaParticipant.map, hevidence]

theorem chooseAuthority_map (first : ReplicaParticipant ι) (rest : List (ReplicaParticipant ι)) :
    chooseAuthority evidence' current (first.map f) (rest.map (·.map f)) =
      (chooseAuthority evidence current first rest).map f := by
  unfold chooseAuthority
  induction rest generalizing first with
  | nil => rfl
  | cons p rest ih =>
    simp only [List.map_cons, List.foldl_cons, participantIsBetter_map hevidence current]
    split_ifs
    · exact ih p
    · exact ih first

theorem digestConflicts_map (expected : Option (Finset String))
    (participants : List (ReplicaParticipant ι)) :
    digestProjectAttributionConflicts evidence' mapping expected (participants.map (·.map f)) =
      digestProjectAttributionConflicts evidence mapping expected participants := by
  induction participants generalizing expected with
  | nil => rfl
  | cons p participants ih =>
    have haggregates : digestAggregates evidence' mapping (p.map f) =
        digestAggregates evidence mapping p := by
      simp only [digestAggregates, ReplicaParticipant.map, hevidence]
    simp only [List.map_cons, digestProjectAttributionConflicts, haggregates, ih]

theorem participantFacts_map (participants : List (ReplicaParticipant ι)) :
    participantFacts evidence' fingerprints (participants.map (·.map f)) =
      (participantFacts evidence fingerprints participants).map
        (List.map fun e => (f e.1, e.2)) := by
  unfold participantFacts
  rw [List.mapM_map]
  have hone : ((fun p => (completeCompatibleFacts fingerprints (evidence' p.sourceIndex)
        p.digest).map fun facts => facts.map fun fact => (p.sourceIndex, fact)) ∘
        fun p : ReplicaParticipant ι => p.map f) =
      fun p => ((completeCompatibleFacts fingerprints (evidence p.sourceIndex) p.digest).map
        fun facts => facts.map fun fact => (p.sourceIndex, fact)).map
          (List.map fun e => (f e.1, e.2)) := by
    funext p
    simp only [Function.comp_apply, ReplicaParticipant.map, hevidence, Option.map_map]
    congr 1
    funext facts
    simp
  rw [hone, mapM_option_map, Option.map_map, Option.map_map]
  congr 1
  funext facts
  simp [List.map_flatten]

theorem findParticipant_map {positions : NodeId → Option ι} {positions' : NodeId → Option κ}
    (hpositions : ∀ id, positions' id = (positions id).map f) (candidate : ReplicaCandidate)
    (sourceId : NodeId) :
    findParticipant evidence' fingerprints positions' candidate sourceId =
      (findParticipant evidence fingerprints positions candidate sourceId).map (·.map f) := by
  unfold findParticipant
  rw [hpositions]
  cases positions sourceId with
  | none => rfl
  | some i =>
    simp only [Option.map_some, Option.bind_some, hevidence, Option.map_map]
    rfl

omit hevidence in
theorem revisionsCompatible_map (participants : List (ReplicaParticipant ι)) :
    participantRevisionsCompatible (participants.map (·.map f)) =
      participantRevisionsCompatible participants := by
  cases participants with
  | nil => rfl
  | cons first rest =>
    simp only [participantRevisionsCompatible, List.map_cons, List.all_cons, List.all_map]
    rfl

variable [DecidableEq ι] [DecidableEq κ] (hf : Function.Injective f)
include hf

omit hevidence in
theorem factOwner_map (participants : List (ReplicaParticipant ι)) (i : ι) :
    factOwner (participants.map (·.map f)) (f i) = (factOwner participants i).map (·.map f) := by
  have hposition : participantPosition (participants.map (·.map f)) (f i) =
      participantPosition participants i := by
    unfold participantPosition
    rw [List.zipIdx_map, List.foldl_map]
    simp only [Prod.map_fst, Prod.map_snd, ReplicaParticipant.map, hf.eq_iff, id_eq]
  unfold factOwner
  rw [hposition]
  cases participantPosition participants i with
  | none => rfl
  | some position => simp

theorem ownerIsBetter_map (participants : List (ReplicaParticipant ι)) (i j : ι) :
    ownerIsBetter evidence' current (participants.map (·.map f)) (f i) (f j) =
      ownerIsBetter evidence current participants i j := by
  unfold ownerIsBetter
  rw [factOwner_map hf, factOwner_map hf]
  cases factOwner participants i with
  | none => rfl
  | some p =>
    cases factOwner participants j with
    | none => rfl
    | some q => simp only [Option.map_some, participantIsBetter_map hevidence current]

theorem addUnionFact_map (participants : List (ReplicaParticipant ι)) (state : UnionState ι)
    (incoming : ι × UsageEventFact) :
    addUnionFact evidence' current mapping (participants.map (·.map f)) (state.map f)
        (f incoming.1, incoming.2) =
      (addUnionFact evidence current mapping participants state incoming).map f := by
  have hvalue : valueAt eventKey incoming.2.eventId (state.events.map fun e => (f e.1, e.2)) =
      (valueAt eventKey incoming.2.eventId state.events).map fun e => (f e.1, e.2) :=
    valueAt_map (fun _ => rfl) _ _
  unfold addUnionFact
  simp only [UnionState.map, eventKey, UnionState.mk.injEq]
  refine ⟨?_, ?_, ?_⟩
  · refine upsert_map (f := fun e : ι × UsageEventFact => (f e.1, e.2)) (fun _ => rfl)
      (fun a b => ?_) incoming state.events
    rw [ownerIsBetter_map hevidence current hf]
    split_ifs <;> rfl
  · rw [show valueAt eventKey incoming.2.eventId _ = _ from hvalue, Option.any_map]
  · rw [show valueAt eventKey incoming.2.eventId _ = _ from hvalue, Option.any_map]
    simp only [hevidence]

theorem unionFacts_map (participants : List (ReplicaParticipant ι)) (state : UnionState ι)
    (facts : List (ι × UsageEventFact)) :
    (facts.map fun e => (f e.1, e.2)).foldl
        (addUnionFact evidence' current mapping (participants.map (·.map f))) (state.map f) =
      (facts.foldl (addUnionFact evidence current mapping participants) state).map f := by
  induction facts generalizing state with
  | nil => rfl
  | cons fact facts ih =>
    rw [List.map_cons, List.foldl_cons, List.foldl_cons, addUnionFact_map hevidence current mapping hf, ih]

/-- **A plan does not depend on the handles of its sources.** -/
theorem plan_map {positions : NodeId → Option ι} {positions' : NodeId → Option κ}
    (hpositions : ∀ id, positions' id = (positions id).map f) (candidate : ReplicaCandidate) :
    planReplicaResolution evidence' current mapping fingerprints positions' candidate =
      (planReplicaResolution evidence current mapping fingerprints positions candidate).map
        (·.map f) := by
  unfold planReplicaResolution
  rw [funext (findParticipant_map hevidence fingerprints hpositions candidate), mapM_option_map]
  match candidate.sourceIds.mapM (findParticipant evidence fingerprints positions candidate) with
  | none => rfl
  | some [] => rfl
  | some [_] => rfl
  | some (first :: second :: rest) =>
    have hfacts := participantFacts_map hevidence fingerprints (first :: second :: rest)
    have hconflicts := digestConflicts_map hevidence mapping none (first :: second :: rest)
    have hcompatible := revisionsCompatible_map (f := f) (first :: second :: rest)
    have hauthority := chooseAuthority_map hevidence current first (second :: rest)
    rw [List.map_cons, List.map_cons] at hfacts hconflicts hcompatible
    rw [List.map_cons] at hauthority
    simp only [Option.map_some, Option.bind_some, List.map_cons]
    rw [hfacts, hconflicts, hcompatible, hauthority]
    split_ifs
    · cases participantFacts evidence fingerprints (first :: second :: rest) with
      | none => rfl
      | some facts =>
        have hunion := unionFacts_map hevidence current mapping hf (first :: second :: rest)
          { projectConflict := digestProjectAttributionConflicts evidence mapping none
              (first :: second :: rest) } facts
        simp only [Option.map_some, List.map_cons] at hunion ⊢
        rw [show (UnionState.mk [] false _ : UnionState κ) = UnionState.map f (UnionState.mk [] false
          (digestProjectAttributionConflicts evidence mapping none
              (first :: second :: rest))) from rfl, hunion]
        rfl
    · rfl

end

/-! ## The order of the sources -/

/-- The usage a resolution stands for: that of the union, or of the authority's digest. -/
def ReplicaResolution.totalUsage {ι : Type} [DecidableEq ι] (r : ReplicaResolution ι) :
    TokenUsage :=
  match r.unionFacts with
  | some facts => TokenUsage.sum (facts.map fun e => e.2.metrics.tokenUsage)
  | none => ((r.participants.find? fun p => p.sourceIndex = r.authorityIndex).map
      fun p => p.digest.metrics.tokenUsage).getD default

theorem totalUsage_map {ι κ : Type} [DecidableEq ι] [DecidableEq κ] {f : ι → κ}
    (hf : Function.Injective f) (r : ReplicaResolution ι) :
    (r.map f).totalUsage = r.totalUsage := by
  unfold ReplicaResolution.totalUsage ReplicaResolution.map
  cases r.unionFacts with
  | some facts => simp [Function.comp_def]
  | none => simp [List.find?_map, Function.comp_def, ReplicaParticipant.map, hf.eq_iff]

section
variable (evidence : List SourceReplicaEvidence)

def sourceName (i : Fin evidence.length) : NodeId := (evidence.get i).sourceId

def sourceNamed (sourceId : NodeId) : Option SourceReplicaEvidence :=
  valueAt SourceReplicaEvidence.sourceId sourceId evidence

def planByName (fingerprints : Fingerprints) (current : ProtocolRevisions)
    (mapping : ProjectMappingProjection) (candidate : ReplicaCandidate) :
    Option (ReplicaResolution NodeId × TokenUsage) :=
  (planReplicaResolutionIn fingerprints current mapping evidence candidate).map fun r =>
    (r.map (sourceName evidence), r.totalUsage)

variable {evidence}

theorem get_sourcePositions (sourceId : NodeId) :
    (sourcePositions evidence sourceId).map evidence.get = sourceNamed evidence sourceId := by
  unfold sourcePositions sourceNamed valueAt
  induction evidence with
  | nil => rfl
  | cons source evidence ih =>
    rw [List.findFinIdx?_cons, List.find?_cons]
    by_cases h : source.sourceId = sourceId
    · simp [h]
    · rw [if_neg (by simpa using h), Option.map_map]
      simp only [h, decide_false]
      exact ih

theorem planByName_eq (hsources : (evidence.map SourceReplicaEvidence.sourceId).Nodup)
    (fingerprints : Fingerprints) (current : ProtocolRevisions)
    (mapping : ProjectMappingProjection) (candidate : ReplicaCandidate) :
    planByName evidence fingerprints current mapping candidate =
      (planReplicaResolution (fun id => (sourceNamed evidence id).getD default) current mapping
        fingerprints (fun id => (sourceNamed evidence id).map SourceReplicaEvidence.sourceId)
        candidate).map fun r => (r, r.totalUsage) := by
  have hinj : Function.Injective (sourceName evidence) := by
    intro i j h
    refine List.nodup_iff_injective_get.1 (hsources.of_map _) ?_
    exact List.inj_on_of_nodup_map hsources (List.get_mem evidence i) (List.get_mem evidence j) h
  have hnamed : ∀ i, (sourceNamed evidence (sourceName evidence i)).getD default =
      evidence.get i := by
    intro i
    have hmem : evidence.get i ∈ evidence := List.get_mem evidence i
    cases h : sourceNamed evidence (sourceName evidence i) with
    | none => exact absurd rfl (valueAt_eq_none.1 h (evidence.get i) hmem)
    | some source =>
      obtain ⟨hsource, hid⟩ := valueAt_key h
      exact List.inj_on_of_nodup_map hsources hsource hmem hid
  have hpositions : ∀ id, (sourceNamed evidence id).map SourceReplicaEvidence.sourceId =
      (sourcePositions evidence id).map (sourceName evidence) := by
    intro id
    rw [← get_sourcePositions, Option.map_map]
    rfl
  rw [plan_map hnamed current mapping fingerprints hinj hpositions candidate, Option.map_map]
  unfold planByName planReplicaResolutionIn
  congr 1
  funext r
  exact Prod.ext rfl (totalUsage_map hinj r).symm

/-- **Replica resolution does not depend on the order of the sources.** -/
theorem resolution_order_independent {evidence' : List SourceReplicaEvidence}
    (hperm : evidence.Perm evidence')
    (hsources : (evidence.map SourceReplicaEvidence.sourceId).Nodup)
    (hobserved : ((digestObservations evidence).map ReplicaDigestObservation.subject).Nodup) :
    detectReplicaCandidates (digestObservations evidence) =
        detectReplicaCandidates (digestObservations evidence') ∧
      (∀ current s d c, ¬ authorityIsBetter current s d c s d c) ∧
      (∀ current s d c s' d' c' s'' d'' c'', authorityIsBetter current s d c s' d' c' →
        authorityIsBetter current s' d' c' s'' d'' c'' →
        authorityIsBetter current s d c s'' d'' c'') ∧
      (∀ current s d c s' d' c', s.sourceId ≠ s'.sourceId →
        authorityIsBetter current s d c s' d' c' ∨ authorityIsBetter current s' d' c' s d c) ∧
      ∀ fingerprints current mapping candidate,
        planByName evidence fingerprints current mapping candidate =
          planByName evidence' fingerprints current mapping candidate := by
  refine ⟨detect_perm (hperm.flatMap_right _) hobserved, fun _ _ _ _ => authority_irrefl,
    fun _ _ _ _ _ _ _ _ _ _ => authority_trans, fun _ _ _ _ _ _ _ => authority_total,
    fun fingerprints current mapping candidate => ?_⟩
  have hsources' : (evidence'.map SourceReplicaEvidence.sourceId).Nodup :=
    (hperm.map _).nodup_iff.1 hsources
  have hnamed : sourceNamed evidence = sourceNamed evidence' :=
    funext fun id => valueAt_perm hperm hsources id
  rw [planByName_eq hsources, planByName_eq hsources', hnamed]

end

namespace Sample

def revisions : ProtocolRevisions := ⟨2, 5, 8, 1, 3, ""⟩

/-- A day of the thread `t`, covered up to some time. -/
def digest (source : NodeId) (covered : DateTime) (calls : Nat) : SourceSessionDigest where
  replica := ⟨source, "t"⟩
  rangeStart := 0
  rangeEnd := days 1
  coveredThrough := covered
  fingerprint := "f"
  projectBreakdownFingerprint := "p"
  eventCount := calls
  exactEventIdentity := true
  coverageComplete := decide (covered = days 1)
  observedProjectKeys := []
  metrics := {
    callCount := calls, metricRevision := 5, estimatorRevision := 8, projectBreakdownRevision := 1,
    apiPricingCatalogRevision := 3 }

/-- Two sources with the same thread, one of them with more of the day. -/
def sources : List SourceReplicaEvidence :=
  [{ sourceId := "a", digests := [digest "a" (hours 3) 1] },
    { sourceId := "b", digests := [digest "b" (hours 9) 2] }]

def candidate : ReplicaCandidate := ⟨"t", 0, days 1, ["a", "b"], .needsFacts⟩

end Sample

theorem resolution_order_sample :
    detectReplicaCandidates (digestObservations Sample.sources.reverse) = [Sample.candidate] ∧
      (planByName Sample.sources.reverse (fun _ _ _ _ => none) Sample.revisions
        ⟨fun _ _ => none⟩ Sample.candidate).map (fun r => (r.1.authorityIndex, r.1.unionFacts)) =
        some ("b", none) := by
  obtain ⟨hdetect, -, -, -, hplan⟩ := resolution_order_independent
    (List.reverse_perm Sample.sources).symm (by decide) (by decide)
  rw [← hdetect, ← hplan]
  decide +kernel

end Replica
