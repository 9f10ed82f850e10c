import UsageMonit.Replica.Proof.Keeps
import UsageMonit.Replica.Proof.Performed

/-!
# Threads of one source are untouched

A resolution performs steps about replicated threads only, and a step keeps the threads it is not
about (`keeps_step`), so the groups of a thread of one source are the same after a run
(`unreplicated_thread_untouched`).
-/

namespace Replica

open Fallible Time Protocol Ingest History

section
variable {current : ProtocolRevisions} {T : ThreadId} {s s' : SourceState}

/-- **A step keeps the threads it is not about.** -/
theorem keeps_step (hT : T ≠ "") {step : GroupStep} (hne : ∀ thread ∈ step.thread, thread ≠ T)
    (h : step.run current s = .ok s') : Keeps T s s' := by
  cases step with
  | remove thread offset => exact keeps_removeReplicaGroup (hne thread rfl) h
  | suppressThread thread selection offset =>
    exact keeps_suppressThreadBucket (hne thread rfl) hT h
  | suppressOpaque thread selection position =>
    exact keeps_suppressOpaqueBucket (hne thread rfl) hT h
  | addFact compatible fact => exact keeps_addFact (hne _ rfl) h
  | ensureAuthority rangeStart rangeEnd =>
    obtain rfl := Except.ok.inj h
    exact keeps_ensureAuthority _ _
  | markUnhandled thread rangeStart rangeEnd handledRanges =>
    obtain rfl := Except.ok.inj h
    exact keeps_markUnhandled _ _ _ _

theorem Performs.keeps {P : ThreadId → Prop} (hT : T ≠ "") (hne : ∀ thread, P thread → thread ≠ T)
    (h : Performs current P s s') : Keeps T s s' := by
  obtain ⟨steps, hsteps, h⟩ := h
  exact foldlM_ok (Keeps.refl T) (fun _ _ _ => Keeps.trans) (fun step hstep _ _ hrun =>
    keeps_step hT (fun thread hthread => hne thread (hsteps step hstep thread hthread)) hrun) h

end

/-- A source whose groups of a thread are those it had. -/
def SameThread (T : ThreadId) (source : ReplicaSource) (s : SourceState) : Prop :=
  groupsOf T s = source.buckets.flatMap (threadGroups T)

section
variable {current : ProtocolRevisions} {mapping : ProjectMappingProjection}
  {fingerprints : Fingerprints} {load : FactLoader} {resets : List DateTime}
  {inputs : List ReplicaSource} {sources : List SourceState} {report : LogicalReplicaReport}
  {T : ThreadId}

/-- **Unreplicated threads are untouched**: a resolution leaves the project groups of a thread that
at most one source observed as they are, in every source. -/
theorem unreplicated_thread_untouched (hT : T ≠ "")
    (hone : (observedSources inputs T).length ≤ 1)
    (h : resolveLogicalReplicas current mapping fingerprints load resets inputs =
      .ok (sources, report)) :
    List.Forall₂ (SameThread T) inputs sources := by
  refine (resolve_performs h).imp fun source s' hperforms => ?_
  obtain ⟨s, hperforms, hbuckets⟩ := hperforms
  have hne : ∀ thread, Replicated inputs thread → thread ≠ T := by
    rintro thread hthread rfl
    exact absurd hthread (not_le.2 (Nat.lt_succ_of_le hone))
  have hkeeps := hperforms.keeps hT hne
  have htracked := buildSourceState_tracked (T := T) source
  have hgroups : groupsOf T s' = groupsOf T s.finish := by
    rw [groupsOf, groupsOf, groupLists, groupLists, hbuckets]
  rw [SameThread, hgroups, finish_groups (hkeeps.tracked htracked), hkeeps.groups htracked,
    buildSourceState_groups]

end

namespace Sample

def group (thread : ThreadId) (calls : Nat) : LocalProjectUsageGroup :=
  { threadId := thread, apiLongContextExtraCostUnits := some 0, callCount := calls }

def bucket (groups : List LocalProjectUsageGroup) : LocalHalfHourBucket :=
  { startsAt := 0
    endsAt := minutes 30
    sampledAt := minutes 30
    apiLongContextExtraCostUnits := some 0
    estimatorRevision := 8
    callCount := (groups.map (·.callCount)).sum
    projectGroups := groups }

/-- Two sources with the thread `t`; one of them has the thread `u` in the same bucket. -/
def inputs : List ReplicaSource :=
  [{ buckets := [bucket [group "t" 1, group "u" 2]], evidence := sources.getD 0 default },
    { buckets := [bucket [group "t" 2]], evidence := sources.getD 1 default }]

def resolved : Except String (List SourceState × LogicalReplicaReport) :=
  resolveLogicalReplicas revisions ⟨fun _ _ => none⟩ (fun _ _ _ _ => none)
    (fun _ _ _ => .ok none) [] inputs

end Sample

theorem unreplicated_thread_sample :
    ∃ sources report, Sample.resolved = .ok (sources, report) ∧
      List.Forall₂ (SameThread "u") Sample.inputs sources ∧
      sources.map (fun s => (groupsOf "t" s).length) = [0, 1] ∧
      sources.map (fun s => (groupsOf "u" s).length) = [1, 0] := by
  have hcounts : Sample.resolved.toOption.map (fun r => (r.1.map fun s => (groupsOf "t" s).length,
      r.1.map fun s => (groupsOf "u" s).length)) = some ([0, 1], [1, 0]) := by
    decide +kernel
  cases hrun : Sample.resolved with
  | error e =>
    rw [hrun] at hcounts
    cases hcounts
  | ok r =>
    rw [hrun] at hcounts
    obtain ⟨hreplicated, hsingle⟩ := Prod.mk.inj (Option.some.inj hcounts)
    exact ⟨r.1, r.2, rfl, unreplicated_thread_untouched (by decide) (by decide +kernel) hrun,
      hreplicated, hsingle⟩

end Replica
