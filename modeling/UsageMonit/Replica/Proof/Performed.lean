import UsageMonit.Replica.Steps
import UsageMonit.Replica.Proof.Order

/-!
# A resolution performs steps

A candidate is about a thread that two sources observed (`candidate_observed`), its union has facts
of that thread only (`union_thread`), and the days after the candidates are about threads of several
sources. So what a resolution does to each source is a sequence of `GroupStep`s about such threads
(`resolve_performs`), and what every step keeps a resolution keeps.
-/

namespace Replica

open Fallible Time Protocol History KeyedMerge

/-! ## Candidates are about threads of two sources -/

variable {facts : List (Nat × UsageEventFact)} {participants : List (ReplicaParticipant Nat)}

theorem candidate_observed {observations : List ReplicaDigestObservation}
    {candidate : ReplicaCandidate} (h : candidate ∈ detectReplicaCandidates observations) :
    ∃ o ∈ observations, ∃ o' ∈ observations, o.sourceId ≠ o'.sourceId ∧
      o.digest.replica.threadId = candidate.threadId ∧
      o'.digest.replica.threadId = candidate.threadId := by
  obtain ⟨group, hgroup, hcandidate⟩ := List.mem_filterMap.1 h
  have hvalue := (Ordered.collect (fun a b _ => key_merge a b) _).valueAt_self hgroup
  rw [valueAt_groups] at hvalue
  unfold keyGroup at hvalue
  split at hvalue
  · cases hvalue
  have hsources : group.sources = collect ReplicaDigestObservation.sourceId
      (fun existing _ => existing) (observations.filter fun o => o.group.key = group.key) :=
    (congrArg ReplicaGroup.sources (Option.some.inj hvalue)).symm
  have hordered : Ordered ReplicaDigestObservation.sourceId group.sources :=
    hsources ▸ Ordered.collect (fun _ _ _ => rfl) _
  have hmem : ∀ o ∈ group.sources, o ∈ observations ∧
      o.digest.replica.threadId = group.threadId := by
    intro o ho
    rw [hsources] at ho
    refine collect_of (P := fun o => o ∈ observations ∧
      o.digest.replica.threadId = group.threadId) (fun _ _ ha _ => ha) (fun o ho => ?_) o ho
    obtain ⟨ho, hkey⟩ := List.mem_filter.1 ho
    exact ⟨ho, congrArg Prod.fst (congrArg ofLex (by simpa using hkey : o.group.key = group.key))⟩
  unfold ReplicaGroup.candidate at hcandidate
  split at hcandidate
  · rename_i first second rest hlist
    have hthread : candidate.threadId = group.threadId :=
      (congrArg ReplicaCandidate.threadId (Option.some.inj hcandidate)).symm
    rw [hlist] at hordered
    have hfirst := hmem first (by simp [hlist])
    have hsecond := hmem second (by simp [hlist])
    refine ⟨first, hfirst.1, second, hsecond.1, ne_of_lt ?_, by rw [hthread, hfirst.2],
      by rw [hthread, hsecond.2]⟩
    exact (List.pairwise_cons.1 hordered).1 second List.mem_cons_self
  · cases hcandidate

section
variable {inputs : List ReplicaSource}

theorem mem_digestObservations {o : ReplicaDigestObservation}
    (h : o ∈ digestObservations (inputs.map (·.evidence))) :
    ∃ i ∈ observedSources inputs o.digest.replica.threadId,
      (inputs.getD i default).evidence.sourceId = o.sourceId := by
  obtain ⟨evidence, hevidence, ho⟩ := List.mem_flatMap.1 h
  obtain ⟨source, hsource, rfl⟩ := List.mem_map.1 hevidence
  obtain ⟨digest, hdigest, rfl⟩ := List.mem_map.1 ho
  obtain ⟨i, hi, rfl⟩ := List.getElem_of_mem hsource
  have hget : inputs.getD i default = inputs[i] := by simp [hi]
  refine ⟨i, List.mem_filter.2 ⟨List.mem_range.2 hi, ?_⟩, by rw [hget]⟩
  rw [hget]
  exact decide_eq_true (.inr ⟨digest, hdigest, rfl⟩)

/-- A thread that several sources observed. -/
def Replicated (inputs : List ReplicaSource) (thread : ThreadId) : Prop :=
  2 ≤ (observedSources inputs thread).length

/-- **Candidates are about replicated threads.** -/
theorem candidate_replicated {candidate : ReplicaCandidate}
    (h : candidate ∈ detectReplicaCandidates (digestObservations (inputs.map (·.evidence)))) :
    Replicated inputs candidate.threadId := by
  obtain ⟨o, ho, o', ho', hne, hthread, hthread'⟩ := candidate_observed h
  obtain ⟨i, hi, hsource⟩ := mem_digestObservations ho
  obtain ⟨j, hj, hsource'⟩ := mem_digestObservations ho'
  rw [hthread] at hi
  rw [hthread'] at hj
  unfold Replicated
  match hlist : observedSources inputs candidate.threadId with
  | [] => rw [hlist] at hi; cases hi
  | [k] =>
    rw [hlist, List.mem_singleton] at hi hj
    exact absurd (by rw [← hsource, ← hsource', hi, hj]) hne
  | _ :: _ :: _ => simp

end

/-! ## A union has facts of its thread -/

theorem mem_of_mapM {α β : Type} {f : α → Option β} {l : List α} {l' : List β}
    (h : l.mapM f = some l') {b : β} (hb : b ∈ l') : ∃ a ∈ l, f a = some b := by
  induction l generalizing l' with
  | nil =>
    obtain rfl : [] = l' := Option.some.inj h
    cases hb
  | cons a l ih =>
    rw [List.mapM_cons] at h
    obtain ⟨c, hc, h⟩ := Option.bind_eq_some_iff.1 h
    obtain ⟨l'', hl'', h⟩ := Option.bind_eq_some_iff.1 h
    obtain rfl : c :: l'' = l' := Option.some.inj h
    rcases List.mem_cons.1 hb with rfl | hb
    · exact ⟨a, List.mem_cons_self, hc⟩
    · obtain ⟨a', ha', hb⟩ := ih hl'' hb
      exact ⟨a', List.mem_cons_of_mem a ha', hb⟩

section
variable {evidence : Nat → SourceReplicaEvidence} {current : ProtocolRevisions}
  {mapping : ProjectMappingProjection} {fingerprints : Fingerprints}
  {positions : NodeId → Option Nat} {candidate : ReplicaCandidate}

theorem findParticipant_thread {sourceId : NodeId} {p : ReplicaParticipant Nat}
    (h : findParticipant evidence fingerprints positions candidate sourceId = some p) :
    p.digest.replica.threadId = candidate.threadId := by
  obtain ⟨i, -, h⟩ := Option.bind_eq_some_iff.1 h
  obtain ⟨digest, hdigest, rfl⟩ := Option.map_eq_some_iff.1 h
  have hmatch := List.find?_some hdigest
  simp only [decide_eq_true_eq] at hmatch
  exact hmatch.1

theorem completeCompatibleFacts_thread {source : SourceReplicaEvidence}
    {digest : SourceSessionDigest} {facts : List UsageEventFact}
    (h : completeCompatibleFacts fingerprints source digest = some facts) :
    ∀ fact ∈ facts, fact.replica.threadId = digest.replica.threadId := by
  obtain ⟨active, -, h⟩ := Option.bind_eq_some_iff.1 h
  split at h
  · rename_i hcover
    obtain rfl : rangeFacts active digest = facts := Option.some.inj h
    intro fact hfact
    unfold activeFactsCoverDigest at hcover
    dsimp only at hcover
    split at hcover
    · cases hcover
    · simp only [Bool.and_eq_true, List.all_eq_true] at hcover
      have hall := hcover.1.1.2 fact hfact
      exact beq_iff_eq.1 hall.2
  · cases h

theorem participantFacts_thread
    (hthread : ∀ p ∈ participants, p.digest.replica.threadId = candidate.threadId)
    (h : participantFacts evidence fingerprints participants = some facts) :
    ∀ entry ∈ facts, entry.2.replica.threadId = candidate.threadId := by
  obtain ⟨lists, hlists, rfl⟩ := Option.map_eq_some_iff.1 h
  intro entry hentry
  obtain ⟨list, hlist, hentry⟩ := List.mem_flatten.1 hentry
  obtain ⟨p, hp, hsome⟩ := mem_of_mapM hlists hlist
  obtain ⟨facts, hfacts, rfl⟩ := Option.map_eq_some_iff.1 hsome
  obtain ⟨fact, hfact, rfl⟩ := List.mem_map.1 hentry
  rw [completeCompatibleFacts_thread hfacts fact hfact, hthread p hp]

theorem unionEvents_thread {thread : ThreadId}
    (hfacts : ∀ entry ∈ facts, entry.2.replica.threadId = thread) {state : UnionState Nat}
    (hstate : ∀ entry ∈ state.events, entry.2.replica.threadId = thread) :
    ∀ entry ∈ (facts.foldl (addUnionFact evidence current mapping participants) state).events,
      entry.2.replica.threadId = thread := by
  induction facts generalizing state with
  | nil => exact hstate
  | cons fact facts ih =>
    refine ih (fun entry hentry => hfacts entry (List.mem_cons_of_mem fact hentry)) ?_
    refine upsert_of (P := fun entry : Nat × UsageEventFact => entry.2.replica.threadId = thread)
      (fun a b ha hb => ?_) (hfacts fact List.mem_cons_self) hstate
    split
    · exact hb
    · exact ha

/-- **A union has facts of its thread only.** -/
theorem union_thread {resolution : ReplicaResolution Nat}
    (h : planReplicaResolution evidence current mapping fingerprints positions candidate =
      some resolution) (hfacts : resolution.unionFacts = some facts) :
    ∀ entry ∈ facts, entry.2.replica.threadId = candidate.threadId := by
  obtain ⟨participants, hparticipants, h⟩ := Option.bind_eq_some_iff.1 h
  have hthread : ∀ p ∈ participants, p.digest.replica.threadId = candidate.threadId := by
    intro p hp
    obtain ⟨sourceId, -, hp⟩ := mem_of_mapM hparticipants hp
    exact findParticipant_thread hp
  split at h
  · dsimp only at h
    split at h
    · obtain rfl := Option.some.inj h
      cases hfacts
    · rename_i union hunion
      obtain rfl := Option.some.inj h
      obtain rfl := Option.some.inj hfacts
      split at hunion
      · exact unionEvents_thread (participantFacts_thread hthread hunion)
          fun entry hentry => absurd hentry List.not_mem_nil
      · cases hunion
  · cases h

end

/-! ## Steps on one source -/

section
variable (current : ProtocolRevisions) (P : ThreadId → Prop)

/-- One state of a source comes from another in steps about threads with `P`. -/
def Performs (s s' : SourceState) : Prop :=
  ∃ steps : List GroupStep, (∀ step ∈ steps, ∀ thread ∈ step.thread, P thread) ∧
    steps.foldlM (GroupStep.run current) s = .ok s'

/-- Every source of one state of a run comes from that of another in steps. -/
structure PerformsAll (state state' : ResolveState) : Prop where
  length : state'.sources.length = state.sources.length
  performs : ∀ i, Performs current P (state.sourceAt i) (state'.sourceAt i)

end

section
variable {current : ProtocolRevisions} {P : ThreadId → Prop}

namespace Performs

theorem refl (s : SourceState) : Performs current P s s :=
  ⟨[], fun _ h => absurd h List.not_mem_nil, rfl⟩

theorem trans {a b c : SourceState} (h : Performs current P a b) (h' : Performs current P b c) :
    Performs current P a c := by
  obtain ⟨steps, hsteps, hrun⟩ := h
  obtain ⟨steps', hsteps', hrun'⟩ := h'
  refine ⟨steps ++ steps', fun step hstep => ?_, foldlM_append_ok hrun hrun'⟩
  rcases List.mem_append.1 hstep with hstep | hstep
  · exact hsteps step hstep
  · exact hsteps' step hstep

theorem one {s s' : SourceState} (step : GroupStep) (hthread : ∀ thread ∈ step.thread, P thread)
    (h : step.run current s = .ok s') : Performs current P s s' := by
  refine ⟨[step], fun step' hstep => ?_, ?_⟩
  · rwa [List.mem_singleton.1 hstep]
  · rw [List.foldlM_cons, h]
    rfl

theorem foldlM {α : Type} {f : SourceState → α → Except String SourceState} {l : List α}
    {s s' : SourceState} (hstep : ∀ a ∈ l, ∀ t t', f t a = .ok t' → Performs current P t t')
    (h : l.foldlM f s = .ok s') : Performs current P s s' :=
  foldlM_ok refl (fun _ _ _ => trans) hstep h

end Performs

variable {s s' : SourceState} {thread : ThreadId}

theorem performs_removeReplicaGroups (hthread : P thread) {rangeStart rangeEnd : DateTime}
    (h : s.removeReplicaGroups thread rangeStart rangeEnd = .ok s') : Performs current P s s' := by
  refine .foldlM (fun offset _ t t' ht => ?_) h
  refine .one (.remove thread offset) ?_ ht
  simpa [GroupStep.thread] using hthread

theorem performs_suppress (hthread : P thread) {selection : ReplicaBucketSelection}
    (h : s.suppressUnboundReplicaBuckets thread selection = .ok s') : Performs current P s s' := by
  obtain ⟨t, ht, h⟩ := bind_ok h
  refine (Performs.foldlM (fun offset _ u u' hu => ?_) ht).trans
    (.foldlM (fun position _ u u' hu => ?_) h)
  · refine .one (.suppressThread thread selection offset) ?_ hu
    simpa [GroupStep.thread] using hthread
  · refine .one (.suppressOpaque thread selection position) ?_ hu
    simpa [GroupStep.thread] using hthread

theorem performs_addFact {compatible : Bool} {fact : UsageEventFact}
    (hthread : P fact.replica.threadId) (h : s.addFact current compatible fact = .ok s') :
    Performs current P s s' := by
  refine .one (.addFact compatible fact) ?_ h
  simpa [GroupStep.thread] using hthread

theorem performs_ensureAuthority (rangeStart rangeEnd : DateTime) :
    Performs current P s (s.ensureAuthorityProjectConsistency rangeStart rangeEnd) :=
  .one (.ensureAuthority rangeStart rangeEnd) (by simp [GroupStep.thread]) rfl

theorem performs_markUnhandled (rangeStart rangeEnd : DateTime)
    (handledRanges : List (DateTime × DateTime)) : Performs current P s
      (s.markUnhandledAuthorityLowerBound thread rangeStart rangeEnd handledRanges) :=
  .one (.markUnhandled thread rangeStart rangeEnd handledRanges)
    (by simp [GroupStep.thread]) rfl

end

/-! ## Steps of a run -/

section
variable {current : ProtocolRevisions} {P : ThreadId → Prop} {state state' : ResolveState}

namespace PerformsAll

theorem of_sources (h : state'.sources = state.sources) : PerformsAll current P state state' :=
  ⟨by rw [h], fun i => by
    rw [ResolveState.sourceAt, ResolveState.sourceAt, h]
    exact .refl _⟩

theorem refl (state : ResolveState) : PerformsAll current P state state := .of_sources rfl

theorem trans {a b c : ResolveState} (h : PerformsAll current P a b)
    (h' : PerformsAll current P b c) : PerformsAll current P a c :=
  ⟨h'.length.trans h.length, fun i => (h.performs i).trans (h'.performs i)⟩

theorem modifySource {i : Nat} {f : SourceState → Except String SourceState}
    (hf : ∀ s s', f s = .ok s' → Performs current P s s') (h : state.modifySource i f = .ok state') :
    PerformsAll current P state state' := by
  obtain ⟨source, hsource, h⟩ := bind_ok h
  obtain rfl : _ = state' := Except.ok.inj h
  refine ⟨List.length_set, fun j => ?_⟩
  have hsourceAt : (state.sources.set i source).getD j default =
      if i = j ∧ i < state.sources.length then source else state.sourceAt j := by
    rw [ResolveState.sourceAt, List.getD_eq_getElem?_getD, List.getD_eq_getElem?_getD,
      List.getElem?_set]
    by_cases hij : i = j
    · subst hij
      by_cases hlt : i < state.sources.length <;> simp [hlt]
    · simp [hij]
  change Performs current P _ ((state.sources.set i source).getD j default)
  rw [hsourceAt]
  split
  · rename_i hij
    exact hij.1 ▸ hf _ _ hsource
  · exact .refl _

theorem foldlM {α : Type} {f : ResolveState → α → Except String ResolveState} {l : List α}
    (hstep : ∀ a ∈ l, ∀ b b', f b a = .ok b' → PerformsAll current P b b')
    (h : l.foldlM f state = .ok state') : PerformsAll current P state state' :=
  foldlM_ok refl (fun _ _ _ => trans) hstep h

end PerformsAll

theorem foldl_sources {α : Type} {f : ResolveState → α → ResolveState}
    (h : ∀ state a, (f state a).sources = state.sources) (l : List α) (state : ResolveState) :
    (l.foldl f state).sources = state.sources := by
  induction l generalizing state with
  | nil => rfl
  | cons a l ih => rw [List.foldl_cons, ih, h]

theorem warn_sources (warning : String) : (state.warn warning).sources = state.sources := rfl

theorem if_warn_sources {c : Prop} [Decidable c] (warning : String) :
    (if c then state.warn warning else state).sources = state.sources := by
  split <;> rfl

/-! ## Candidates -/

section
variable {mapping : ProjectMappingProjection} {fingerprints : Fingerprints}
  {inputs : List ReplicaSource} {evidence : List SourceReplicaEvidence}
  {candidate : ReplicaCandidate} {resolution : ReplicaResolution Nat}

section
variable (hthread : P candidate.threadId)
include hthread

theorem performs_dropParticipantCopies {coverage : Nat → Option Bool}
    (h : participants.foldlM (dropParticipantCopy candidate.threadId coverage) state = .ok state') :
    PerformsAll current P state state' := by
  refine .foldlM (fun p _ b b' hb => .modifySource (fun s s' hs => ?_) hb) h
  split at hs
  · exact performs_removeReplicaGroups hthread hs
  · exact performs_suppress hthread hs

theorem performs_suppressUnboundCopies {unbound : List Nat}
    (h : unbound.foldlM (suppressUnboundCopy candidate) state = .ok state') :
    PerformsAll current P state state' :=
  .foldlM (fun _ _ _ _ hb => .modifySource (fun _ _ hs => performs_suppress hthread hs) hb) h

theorem performs_addUnionGroups
    (hfacts : ∀ entry ∈ facts, entry.2.replica.threadId = candidate.threadId)
    (h : facts.foldlM (addUnionGroup current evidence) state = .ok state') :
    PerformsAll current P state state' := by
  refine .foldlM (fun entry hentry b b' hb => ?_) h
  have hfact : P entry.2.replica.threadId := by
    rw [hfacts entry hentry]
    exact hthread
  exact .modifySource (fun _ _ hs => performs_addFact hfact hs) hb

omit hthread in
theorem performs_ensureAuthorities (h : ensureAuthority resolution state = .ok state') :
    PerformsAll current P state state' := by
  unfold ensureAuthority at h
  split at h
  · refine .modifySource (fun s s' hs => ?_) h
    obtain rfl := Except.ok.inj hs
    exact performs_ensureAuthority _ _
  · obtain rfl := Except.ok.inj h
    exact .refl state

theorem performs_resolveBuckets {coverage : Nat → Option Bool} {unbound : List Nat}
    (hfacts : ∀ facts, resolution.unionFacts = some facts →
      ∀ entry ∈ facts, entry.2.replica.threadId = candidate.threadId)
    (h : resolveBuckets current evidence candidate resolution coverage unbound state =
      .ok state') : PerformsAll current P state state' := by
  unfold resolveBuckets at h
  split at h
  · rename_i facts hunion
    obtain ⟨a, ha, h⟩ := bind_ok h
    obtain ⟨b, hb, h⟩ := bind_ok h
    obtain ⟨c, hc, h⟩ := bind_ok h
    obtain rfl := Except.ok.inj h
    refine (performs_dropParticipantCopies hthread ha).trans
      ((performs_suppressUnboundCopies hthread hb).trans
        ((performs_addUnionGroups hthread (hfacts facts hunion) hc).trans ?_))
    exact .of_sources (if_warn_sources _)
  · obtain ⟨a, ha, h⟩ := bind_ok h
    obtain ⟨b, hb, h⟩ := bind_ok h
    obtain ⟨c, hc, h⟩ := bind_ok h
    obtain rfl := Except.ok.inj h
    refine (performs_ensureAuthorities ha).trans
      ((performs_dropParticipantCopies hthread hb).trans
        ((performs_suppressUnboundCopies hthread hc).trans ?_))
    exact .of_sources (if_warn_sources _)

/-- **A candidate performs steps about its thread.** -/
theorem performs_resolveCandidate
    (h : resolveCandidate current mapping fingerprints inputs evidence state candidate =
      .ok state') : PerformsAll current P state state' := by
  unfold resolveCandidate at h
  split at h
  · obtain rfl := Except.ok.inj h
    exact .refl state
  · rename_i resolution hplan
    obtain ⟨a, ha, h⟩ := bind_ok h
    obtain rfl := Except.ok.inj h
    have hidentified := foldl_sources (f := fun (state : ResolveState) (i : Nat) =>
      (state.identify (evidenceAt evidence i).sourceId candidate.threadId).handle
        candidate.threadId candidate.rangeStart candidate.rangeEnd i) (fun _ _ => rfl)
      (candidateSourceIndices inputs candidate resolution state) state
    refine (PerformsAll.of_sources hidentified).trans
      ((performs_resolveBuckets hthread (fun facts hfacts => union_thread hplan hfacts) ha).trans
        ?_)
    exact .of_sources ((if_warn_sources _).trans (if_warn_sources _))

end

/-! ## Days -/

section
variable {thread : ThreadId} (hthread : P thread)
include hthread

theorem performs_suppressDays {a b : DateTime} {indices : List Nat} {suppressed suppressed' : Bool}
    (h : indices.foldlM (suppressDay thread a b) (state, suppressed) = .ok (state', suppressed')) :
    PerformsAll current P state state' := by
  refine foldlM_ok (R := fun p q : ResolveState × Bool => PerformsAll current P p.1 q.1)
    (fun p => .refl p.1) (fun _ _ _ => PerformsAll.trans) (fun i _ p q hstep => ?_) h
  unfold suppressDay at hstep
  dsimp only at hstep
  split at hstep
  · obtain ⟨next, hnext, hstep⟩ := bind_ok hstep
    obtain rfl := Except.ok.inj hstep
    exact .modifySource (fun _ _ hs => performs_suppress hthread hs) hnext
  · obtain rfl := Except.ok.inj hstep
    exact .refl p.1

theorem performs_resolveDay {day : DateTime}
    (h : resolveDay current fingerprints inputs evidence thread state day = .ok state') :
    PerformsAll current P state state' := by
  unfold resolveDay at h
  dsimp only at h
  split at h
  · obtain rfl := Except.ok.inj h
    exact .refl state
  · obtain ⟨⟨a, suppressed⟩, ha, h⟩ := bind_ok h
    refine (performs_suppressDays hthread ha).trans ?_
    split at h
    · obtain ⟨b, hb, h⟩ := bind_ok h
      obtain rfl := Except.ok.inj h
      refine PerformsAll.trans (.modifySource (fun s s' hs => ?_) hb) (.of_sources (warn_sources _))
      obtain rfl := Except.ok.inj hs
      exact (performs_ensureAuthority _ _).trans (performs_markUnhandled _ _ _)
    · obtain rfl := Except.ok.inj h
      exact .refl a

end

/-- **The days of a replicated thread perform steps about it.** -/
theorem performs_resolveObservedThread {thread : ThreadId}
    (hthread : Replicated inputs thread → P thread)
    (h : resolveObservedThread current fingerprints inputs evidence state thread = .ok state') :
    PerformsAll current P state state' := by
  unfold resolveObservedThread at h
  dsimp only at h
  split at h
  · obtain rfl := Except.ok.inj h
    exact .refl state
  · rename_i hmany
    have hidentified := foldl_sources (f := fun (state : ResolveState) (i : Nat) =>
      state.identify (evidenceAt evidence i).sourceId thread) (fun _ _ => rfl)
      (observedSources inputs thread) state
    exact (PerformsAll.of_sources hidentified).trans
      (.foldlM (fun day _ b b' hb => performs_resolveDay (hthread (not_lt.1 hmany)) hb) h)

end

end

/-! ## Whole runs -/

theorem finish_buildSourceState (source : ReplicaSource) :
    (buildSourceState source).finish.buckets = source.buckets := by
  have hplain : ∀ entry ∈ source.buckets.zipIdx,
      ((buildSourceState source).indexAt entry.2).needsCompaction = false := by
    intro entry _
    simp only [SourceState.indexAt, buildSourceState, List.getD_eq_getElem?_getD,
      List.getElem?_map]
    cases source.buckets[entry.2]? <;> rfl
  have hcompact : (buildSourceState source).finish.buckets =
      source.buckets.zipIdx.map Prod.fst := by
    refine List.map_congr_left fun entry hentry => ?_
    rw [hplain entry hentry]
    rfl
  rw [hcompact, List.zipIdx_map_fst]

theorem replaceWeekly_buckets (current : ProtocolRevisions) (resets : List DateTime)
    (sources : List SourceState) :
    (replaceWeeklyBaselinesWithCycleMarkers current resets sources).map (·.buckets) =
      sources.map (·.buckets) := by
  cases sources with
  | nil => rfl
  | cons first rest => simp [replaceWeeklyBaselinesWithCycleMarkers]

section
variable {current : ProtocolRevisions} {mapping : ProjectMappingProjection}
  {fingerprints : Fingerprints} {load : FactLoader} {resets : List DateTime}
  {inputs : List ReplicaSource} {sources : List SourceState} {report : LogicalReplicaReport}

/-- **A resolution performs steps about replicated threads**: the buckets of every source at its end
are those of a state that the source comes to in such steps, finished. -/
theorem resolve_performs
    (h : resolveLogicalReplicas current mapping fingerprints load resets inputs =
      .ok (sources, report)) :
    List.Forall₂ (fun source s' => ∃ s, Performs current (Replicated inputs)
      (buildSourceState source) s ∧ s'.buckets = s.finish.buckets) inputs sources := by
  have hall : sources.length = inputs.length ∧ ∀ i, i < inputs.length → ∃ s,
      Performs current (Replicated inputs) (buildSourceState (inputs.getD i default)) s ∧
        (sources.map (·.buckets)).getD i [] = s.finish.buckets := by
    unfold resolveLogicalReplicas at h
    dsimp only at h
    split at h
    · obtain ⟨rfl, -⟩ := Prod.mk.inj (Except.ok.inj h)
      refine ⟨List.length_map _, fun i hi => ⟨_, .refl _, ?_⟩⟩
      rw [finish_buildSourceState]
      simp [hi, buildSourceState]
    · obtain ⟨evidence, -, h⟩ := bind_ok h
      obtain ⟨a, ha, h⟩ := bind_ok h
      obtain ⟨b, hb, h⟩ := bind_ok h
      obtain ⟨rfl, -⟩ := Prod.mk.inj (Except.ok.inj h)
      have hcandidates : PerformsAll current (Replicated inputs)
          { sources := inputs.map buildSourceState } a :=
        .foldlM (fun candidate hcandidate _ _ hstep =>
          performs_resolveCandidate (candidate_replicated hcandidate) hstep) ha
      have hdays : PerformsAll current (Replicated inputs) _ b :=
        .foldlM (fun thread _ _ _ hstep => performs_resolveObservedThread id hstep) hb
      have hrun : PerformsAll current (Replicated inputs) a b :=
        PerformsAll.trans (.of_sources (by rfl)) hdays
      have hall := hcandidates.trans hrun
      have hlength : b.sources.length = inputs.length := by rw [hall.length, List.length_map]
      have hbuckets : ∀ i, i < inputs.length →
          ((b.sources.map SourceState.finish).map (·.buckets)).getD i [] =
            (b.sourceAt i).finish.buckets := by
        intro i hi
        simp [ResolveState.sourceAt, hlength, hi]
      have hbuilt : ∀ i, i < inputs.length →
          ({ sources := inputs.map buildSourceState } : ResolveState).sourceAt i =
            buildSourceState (inputs.getD i default) := by
        intro i hi
        simp [ResolveState.sourceAt, hi]
      split
      · refine ⟨by rw [List.length_map, hlength], fun i hi => ⟨b.sourceAt i, ?_, hbuckets i hi⟩⟩
        rw [← hbuilt i hi]
        exact hall.performs i
      · refine ⟨?_, fun i hi => ⟨b.sourceAt i, ?_, ?_⟩⟩
        · have hmap := congrArg List.length (replaceWeekly_buckets current resets
            (b.sources.map SourceState.finish))
          rw [List.length_map, List.length_map, List.length_map] at hmap
          rw [hmap, hlength]
        · rw [← hbuilt i hi]
          exact hall.performs i
        · rw [replaceWeekly_buckets]
          exact hbuckets i hi
  refine List.forall₂_iff_get.2 ⟨hall.1.symm, fun i hi hi' => ?_⟩
  simpa [hi, hi'] using hall.2 i hi

end

end Replica
