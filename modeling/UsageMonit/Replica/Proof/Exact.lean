import UsageMonit.Replica.Proof.Sound
import UsageMonit.Replica.Proof.Untouched

/-!
# Exact buckets at the end of a resolution

A new state of a source is sound (`sound_build`), and every step that reads known units keeps it
sound (`sound_step`). At the end the marked groups go and each touched bucket is rebuilt once
(`rebuildTouched_foldl`), which leaves the buckets of a sound source exact (`Sound.reconciled`).
-/

namespace Replica

open Fallible Time Protocol Ingest History

section
variable {source : ReplicaSource} {suppressed : List Nat} {p : Nat} {s s' : SourceState}

/-! ## Runs -/

theorem sound_build (hstarts : (source.buckets.map (·.startsAt)).Nodup) :
    Sound source [] (buildSourceState source) := by
  have hat : ∀ q (hq : q < source.buckets.length),
      (buildSourceState source).bucketAt q = source.buckets[q] := by
    intro q hq
    simp [SourceState.bucketAt, buildSourceState, hq]
  refine ⟨fun q q' hq hq' heq => ?_, by simp [buildSourceState], le_rfl, fun t ht => ?_,
    fun thread e he => ?_, fun q hq _ => ?_⟩
  · rw [SourceState.startOf, SourceState.startOf, hat q hq, hat q' hq'] at heq
    have hlt : q < (source.buckets.map (·.startsAt)).length := by
      rw [List.length_map]
      exact hq
    have hlt' : q' < (source.buckets.map (·.startsAt)).length := by
      rw [List.length_map]
      exact hq'
    apply (List.Nodup.getElem_inj_iff hstarts).1
    show (source.buckets.map (·.startsAt))[q] = (source.buckets.map (·.startsAt))[q']
    rw [List.getElem_map, List.getElem_map]
    exact heq
  · cases ht
  · change e.bucketPosition < source.buckets.length
    change e ∈ buildThreadIndex _ thread at he
    unfold buildThreadIndex at he
    split at he
    · cases he
    · rw [List.mem_insertionSort] at he
      obtain ⟨entry, hentry, he⟩ := List.mem_filterMap.1 he
      have hlt : entry.2 < source.buckets.length :=
        (List.getElem?_eq_some_iff.1 (List.mem_zipIdx_iff_getElem?.1 hentry)).1
      split at he
      · cases he
      · obtain rfl := Option.some.inj he
        exact hlt
  · have hq : q < source.buckets.length := hq
    have hcell : (buildSourceState source).cellAt q =
        ⟨source.buckets[q], buildBucketIndex source.buckets[q], none⟩ := by
      unfold SourceState.cellAt
      rw [hat q hq]
      congr 1
      simp [SourceState.indexAt, buildSourceState, hq]
    rw [hcell]
    refine ⟨⟨by simp [buildBucketIndex], fun _ p => ?_, ?_⟩,
      fun _ => ⟨by simp, ⟨source.buckets[q], by simp [hq], .refl _, rfl⟩, rfl⟩,
      fun r hr => by cases hr⟩
    · simp only [buildBucketIndex]
      exact getD_append_replicate [] false (source.buckets[q]).projectGroups.length p
    · rintro ⟨entry, hentry, -, hunits⟩
      refine projectGroupTotals_units.2 ⟨entry.1, ?_, hunits⟩
      exact List.mem_of_getElem? (List.mem_zipIdx_iff_getElem?.1 hentry)

/-- **A step that reads known units** keeps the cells sound. -/
theorem sound_step {current : ProtocolRevisions} {step : GroupStep}
    (h : Sound source suppressed s) (hreads : step.readsKnown s)
    (hrun : step.run current s = .ok s') :
    Sound source (suppressed ++ (step.suppresses s).toList) s' := by
  cases step with
  | remove thread offset =>
    have hsound := sound_removeReplicaGroup h (hreads thread rfl).1 hrun
    simpa [GroupStep.suppresses] using hsound
  | suppressThread thread selection offset =>
    exact sound_suppressThreadBucket h (hreads thread rfl).2 hrun
  | suppressOpaque thread selection position =>
    exact sound_suppressOpaqueBucket h (hreads thread rfl).2 hrun
  | addFact compatible fact =>
    have hsound := sound_addFact h hrun
    simpa [GroupStep.suppresses] using hsound
  | ensureAuthority rangeStart rangeEnd =>
    obtain rfl := Except.ok.inj hrun
    change Sound source (suppressed ++ []) _
    rw [List.append_nil]
    exact sound_foldl (fun _ p h => sound_ensureAuthorityBucket h p) _ h
  | markUnhandled thread rangeStart rangeEnd handledRanges =>
    obtain rfl := Except.ok.inj hrun
    change Sound source (suppressed ++ []) _
    rw [List.append_nil]
    exact sound_markUnhandled h thread rangeStart rangeEnd handledRanges

/-! ## The end of a resolution -/

theorem compact_bucketAt (hp : p < s.buckets.length) :
    s.compactTombstonedProjectGroups.bucketAt p = if (s.indexAt p).needsCompaction then
      { s.bucketAt p with
        projectGroups := SourceState.survivingGroups (s.bucketAt p) (s.indexAt p) }
    else s.bucketAt p := by
  have hbucket : s.bucketAt p = s.buckets[p] := by
    simp [SourceState.bucketAt, hp]
  rw [hbucket]
  simp [SourceState.bucketAt, SourceState.compactTombstonedProjectGroups, hp]

/-- The groups of a bucket after the compaction are those that are not marked. -/
theorem Cell.Indexed.unknown_iff (h : (s.cellAt p).Indexed) (hp : p < s.buckets.length) :
    (s.cellAt p).Unknown ↔
      ∃ g ∈ (s.compactTombstonedProjectGroups.bucketAt p).projectGroups,
        g.apiLongContextExtraCostUnits = none := by
  rw [compact_bucketAt hp]
  cases hcompaction : (s.indexAt p).needsCompaction with
  | true =>
    simp only [if_true, SourceState.survivingGroups, List.mem_map, List.mem_filter]
    constructor
    · rintro ⟨entry, hentry, hmark, hunits⟩
      refine ⟨entry.1, ⟨entry, ⟨hentry, ?_⟩, rfl⟩, hunits⟩
      have hmark : (s.indexAt p).removedGroups.getD entry.2 false = false := hmark
      rw [hmark]
      rfl
    · rintro ⟨g, ⟨entry, ⟨hentry, hmark⟩, rfl⟩, hunits⟩
      have hmark : (s.indexAt p).removedGroups.getD entry.2 false = false := by simpa using hmark
      exact ⟨entry, hentry, hmark, hunits⟩
  | false =>
    constructor
    · rintro ⟨entry, hentry, -, hunits⟩
      exact ⟨entry.1, List.mem_of_getElem? (List.mem_zipIdx_iff_getElem?.1 hentry), hunits⟩
    · rintro ⟨g, hg, hunits⟩
      obtain ⟨i, hi⟩ := List.mem_iff_getElem?.1 hg
      exact ⟨(g, i), List.mem_zipIdx_iff_getElem?.2 hi, h.unmarked hcompaction i, hunits⟩

/-- **The last rebuild**: each touched bucket is rebuilt once, the others stay. -/
theorem rebuildTouched_foldl {entries : List ((_ : DateTime) × BucketProjectResidual)}
    (hkeys : entries.NodupKeys) (hs : Distinct s) (hp : p < s.buckets.length) :
    (entries.foldl SourceState.rebuildTouched s).bucketAt p =
      match entries.dlookup (s.startOf p) with
      | some r => rebuildBucketFromProjectGroupTotals r
          (projectGroupTotals (s.bucketAt p).projectGroups) (s.bucketAt p)
      | none => s.bucketAt p := by
  induction entries generalizing s with
  | nil => rfl
  | cons entry entries ih =>
    rw [List.nodupKeys_cons] at hkeys
    rw [List.foldl_cons]
    have hstep : ∃ f : LocalHalfHourBucket → LocalHalfHourBucket, ∃ k,
        (∀ b, (f b).startsAt = b.startsAt) ∧ s.rebuildTouched entry = s.modifyBucket k f ∧
        (s.startOf p = entry.1 → k = p ∧ f (s.bucketAt p) =
          rebuildBucketFromProjectGroupTotals entry.2
            (projectGroupTotals (s.bucketAt p).projectGroups) (s.bucketAt p)) ∧
        (s.startOf p ≠ entry.1 → k ≠ p) := by
      unfold SourceState.rebuildTouched
      split
      · rename_i hfind
        refine ⟨id, s.buckets.length, fun _ => rfl, ?_, fun heq => ?_, fun _ => by omega⟩
        · unfold SourceState.modifyBucket
          rw [List.modify_eq_self le_rfl]
        · have hnot := List.findIdx?_eq_none_iff.1 hfind _ (List.getElem_mem hp)
          rw [SourceState.startOf, SourceState.bucketAt, List.getD_eq_getElem?_getD,
            List.getElem?_eq_getElem hp] at heq
          simp [← heq] at hnot
      · rename_i k hfind
        obtain ⟨hk, hfind⟩ := List.findIdx?_eq_some_iff_findIdx_eq.1 hfind
        have hstart : s.startOf k = entry.1 := by
          have hat := List.findIdx_getElem (w := hfind ▸ hk)
          simp only [hfind, decide_eq_true_eq] at hat
          rw [SourceState.startOf, SourceState.bucketAt, List.getD_eq_getElem?_getD,
            List.getElem?_eq_getElem hk]
          exact hat
        refine ⟨_, k, fun b => rebuild_startsAt _ _ b, rfl, fun heq => ⟨?_, rfl⟩, ?_⟩
        · exact hs k p hk hp (hstart.trans heq.symm)
        · rintro hne rfl
          exact hne hstart
    obtain ⟨f, k, hf, hrebuilt, hhit, hmiss⟩ := hstep
    have hdistinct : Distinct (s.modifyBucket k f) := by
      intro q q' hq hq' heq
      rw [startOf_modifyBucket hf, startOf_modifyBucket hf] at heq
      rw [SourceState.modifyBucket, List.length_modify] at hq hq'
      exact hs q q' hq hq' heq
    have hlength : p < (s.modifyBucket k f).buckets.length := by
      rw [SourceState.modifyBucket, List.length_modify]
      exact hp
    rw [hrebuilt, ih hkeys.2 hdistinct hlength, startOf_modifyBucket hf]
    by_cases heq : s.startOf p = entry.1
    · obtain ⟨rfl, hvalue⟩ := hhit heq
      rw [bucketAt_modifyBucket hp, if_pos rfl, hvalue, heq, List.dlookup_cons_eq]
      rw [List.dlookup_eq_none.2 hkeys.1]
    · have hother : (s.modifyBucket k f).bucketAt p = s.bucketAt p := by
        unfold SourceState.bucketAt SourceState.modifyBucket
        rw [List.getD_eq_getElem?_getD, List.getD_eq_getElem?_getD, List.getElem?_modify_ne]
        exact hmiss heq
      rw [hother, List.dlookup_cons_ne _ _ heq]

theorem finish_bucketAt (h : Sound source suppressed s) (hp : p < s.buckets.length) :
    s.finish.bucketAt p = match s.touched.lookup (s.startOf p) with
      | some r => rebuildBucketFromProjectGroupTotals r
          (projectGroupTotals (s.compactTombstonedProjectGroups.bucketAt p).projectGroups)
          (s.compactTombstonedProjectGroups.bucketAt p)
      | none => s.compactTombstonedProjectGroups.bucketAt p := by
  have hlength : s.compactTombstonedProjectGroups.buckets.length = s.buckets.length := by
    simp [SourceState.compactTombstonedProjectGroups]
  have hstart : ∀ q, q < s.buckets.length →
      s.compactTombstonedProjectGroups.startOf q = s.startOf q := by
    intro q hq
    rw [SourceState.startOf, compact_bucketAt hq]
    split <;> rfl
  have hdistinct : Distinct s.compactTombstonedProjectGroups := by
    intro q q' hq hq' heq
    rw [hlength] at hq hq'
    rw [hstart q hq, hstart q' hq'] at heq
    exact h.distinct q q' hq hq' heq
  have hfold := rebuildTouched_foldl s.touched.nodupKeys hdistinct (p := p) (by rw [hlength]; exact hp)
  rw [hstart p hp] at hfold
  exact hfold

/-- **Sound sources end with exact buckets.** -/
theorem Sound.reconciled (h : Sound source suppressed s) (hp : p < s.buckets.length) :
    Reconciled source suppressed s p := by
  have hcell := h.cells p hp trivial
  have hgroups : (s.compactTombstonedProjectGroups.bucketAt p).longContextUsageUnknown =
      (s.bucketAt p).longContextUsageUnknown := by
    rw [compact_bucketAt hp]
    split <;> rfl
  unfold Reconciled
  rw [finish_bucketAt h hp]
  cases htouched : s.touched.lookup (s.startOf p) with
  | none =>
    obtain ⟨-, ⟨b, hb, hsame, -⟩, huncompacted⟩ := hcell.untouched htouched
    have hplain : (s.indexAt p).needsCompaction = false := huncompacted
    refine ⟨b, hb, ?_⟩
    rw [compact_bucketAt hp, hplain]
    exact hsame
  | some r =>
    obtain ⟨unknown, hbase, hflag⟩ := hcell.touched r htouched
    have hrebuilt := rebuild_usage r
      (projectGroupTotals (s.compactTombstonedProjectGroups.bucketAt p).projectGroups)
      (s.compactTombstonedProjectGroups.bucketAt p)
    refine ⟨r, unknown, hbase, ?_, ?_, ?_, ?_, ?_⟩
    all_goals dsimp only
    · rw [hrebuilt.tokenUsage, hrebuilt.projectGroups]
    · rw [hrebuilt.estimatedCostUnits, hrebuilt.projectGroups]
    · rw [hrebuilt.apiLongContextExtraCostUnits, hrebuilt.projectGroups]
    · rw [hrebuilt.longContextUsageUnknown, hrebuilt.apiLongContextExtraCostUnits, hgroups]
      -- a flag that the base does not have comes from a group that is still there
      have hkept : unknown = true → (s.bucketAt p).longContextUsageUnknown = true := hflag.kept
      have hnone : (s.bucketAt p).longContextUsageUnknown = true → unknown = true ∨
          addOptionalUnits r.apiLongContextExtraCostUnits (projectGroupTotals
            (s.compactTombstonedProjectGroups.bucketAt p).projectGroups).apiLongContextExtraCostUnits
              = none := by
        intro htrue
        rcases hflag.flag htrue with hunknown | hunits | hunits
        · exact .inl hunknown
        · exact .inr (addOptionalUnits_none.2 (.inl hunits))
        · refine .inr (addOptionalUnits_none.2 (.inr (projectGroupTotals_units.2 ?_)))
          exact (hcell.indexed.unknown_iff hp).1 hunits
      cases hbucket : (s.bucketAt p).longContextUsageUnknown with
      | true =>
        rcases hnone hbucket with rfl | hunits
        · rfl
        · simp [hunits]
      | false =>
        cases unknown with
        | true => exact absurd (hkept rfl) (by simp [hbucket])
        | false => rfl
    · rw [hrebuilt.callCount, hrebuilt.projectGroups]

end

/-- **Reconciled bucket totals are exact** after every sequence of steps that read known units, and
a resolution performs a sequence of steps on each source. -/
theorem reconciled_totals_exact (current : ProtocolRevisions) :
    (∀ source steps s, (source.buckets.map (·.startsAt)).Nodup → Runs current source steps s →
      ReadsKnown current source steps →
        ∀ p, p < s.buckets.length → Reconciled source (suppressedBy current source steps) s p) ∧
      ∀ mapping fingerprints load resets inputs sources report,
        resolveLogicalReplicas current mapping fingerprints load resets inputs =
          .ok (sources, report) →
        List.Forall₂ (fun source s' => ∃ steps s, Runs current source steps s ∧
          s'.buckets = s.finish.buckets) inputs sources := by
  constructor
  · intro source steps s hstarts hrun hknown p hp
    have hsound : Sound source ([] ++ suppressedBy current source steps) s :=
      foldlM_along (fun _ _ _ _ h hreads hstep => sound_step h hreads hstep)
        (sound_build hstarts) hknown hrun
    exact hsound.reconciled hp
  · intro mapping fingerprints load resets inputs sources report h
    refine (resolve_performs h).imp fun source s' hperforms => ?_
    obtain ⟨s, ⟨steps, -, hrun⟩, hbuckets⟩ := hperforms
    exact ⟨steps, s, hrun, hbuckets⟩

namespace Sample

/-- A bucket with one group, of unknown long-context units. -/
def unknownBucket : LocalHalfHourBucket :=
  { bucket [{ threadId := "t", callCount := 1 }] with
    apiLongContextExtraCostUnits := none
    longContextUsageUnknown := true }

/-- Two sources with the thread `t`, without digests. -/
def copies : List ReplicaSource :=
  [{ buckets := [bucket [group "t" 1]], evidence := { sourceId := "a" } },
    { buckets := [unknownBucket], evidence := { sourceId := "b" } }]

def resolvedCopies : Except String (List SourceState × LogicalReplicaReport) :=
  resolveLogicalReplicas revisions ⟨fun _ _ => none⟩ (fun _ _ _ _ => none)
    (fun _ _ _ => .ok none) [] copies

/-- What the resolution does to the second copy. -/
def suppression : List GroupStep := [.suppressThread "t" { rangeStart := 0, rangeEnd := days 1 } 0]

end Sample

/-- The only group of unknown units is suppressed, and the flag stays. -/
theorem suppressed_copy_stays_flagged :
    ∃ sources report s, Sample.resolvedCopies = .ok (sources, report) ∧
      Runs Sample.revisions (Sample.copies.getD 1 default) Sample.suppression s ∧
      (sources.getD 1 default).buckets = s.finish.buckets ∧
      (s.finish.bucketAt 0).projectGroups = [] ∧
      (s.finish.bucketAt 0).apiLongContextExtraCostUnits = some 0 ∧
      (s.finish.bucketAt 0).longContextUsageUnknown = true ∧
      ¬ Reconciled (Sample.copies.getD 1 default)
        (suppressedBy Sample.revisions (Sample.copies.getD 1 default) Sample.suppression) s 0 := by
  have hbuckets : Sample.resolvedCopies.toOption.map (fun r => (r.1.getD 1 default).buckets) =
      (Sample.suppression.foldlM (GroupStep.run Sample.revisions)
        (buildSourceState (Sample.copies.getD 1 default))).toOption.map fun s =>
          s.finish.buckets := by
    decide +kernel
  have hfacts : (Sample.suppression.foldlM (GroupStep.run Sample.revisions)
      (buildSourceState (Sample.copies.getD 1 default))).toOption.map (fun s =>
        ((s.finish.bucketAt 0).projectGroups, (s.finish.bucketAt 0).apiLongContextExtraCostUnits,
          (s.finish.bucketAt 0).longContextUsageUnknown, s.touched.lookup (s.startOf 0))) =
      some ([], some 0, true, some {}) := by
    decide +kernel
  have hbase : bucketBase (Sample.copies.getD 1 default)
      (suppressedBy Sample.revisions (Sample.copies.getD 1 default) Sample.suppression) 0 =
      some ({}, false) := by
    decide +kernel
  cases hrun : Sample.suppression.foldlM (GroupStep.run Sample.revisions)
      (buildSourceState (Sample.copies.getD 1 default)) with
  | error e =>
    rw [hrun] at hfacts
    cases hfacts
  | ok s =>
    rw [hrun] at hbuckets hfacts
    obtain ⟨hgroups, hfacts⟩ := Prod.mk.inj (Option.some.inj hfacts)
    obtain ⟨hunits, hfacts⟩ := Prod.mk.inj hfacts
    obtain ⟨hflag, htouched⟩ := Prod.mk.inj hfacts
    cases hresolved : Sample.resolvedCopies with
    | error e =>
      rw [hresolved] at hbuckets
      cases hbuckets
    | ok r =>
      rw [hresolved] at hbuckets
      refine ⟨r.1, r.2, s, rfl, hrun, Option.some.inj hbuckets, hgroups, hunits, hflag,
        fun hreconciled => ?_⟩
      unfold Reconciled at hreconciled
      rw [htouched] at hreconciled
      obtain ⟨residual, unknown, hsame, hsums⟩ := hreconciled
      obtain ⟨rfl, rfl⟩ := Prod.mk.inj (Option.some.inj (hbase.symm.trans hsame))
      have hclear := hsums.longContextUsageUnknown
      rw [hflag, hunits] at hclear
      cases hclear

namespace Sample

/-- A source whose thread `t` is removed from a bucket that it shares with the thread `u`. -/
def shared : ReplicaSource := inputs.getD 0 default

def removal : List GroupStep := [.remove "t" 0]

end Sample

theorem reconciled_totals_sample :
    (∃ s, Runs Sample.revisions Sample.shared Sample.removal s ∧
      Reconciled Sample.shared (suppressedBy Sample.revisions Sample.shared Sample.removal) s 0 ∧
      (s.finish.bucketAt 0).callCount = 2) ∧
      ∃ sources report, Sample.resolved = .ok (sources, report) ∧
        List.Forall₂ (fun source s' => ∃ steps s, Runs Sample.revisions source steps s ∧
          s'.buckets = s.finish.buckets) Sample.inputs sources := by
  obtain ⟨hexact, hresolve⟩ := reconciled_totals_exact Sample.revisions
  constructor
  · have hcounts : (Sample.removal.foldlM (GroupStep.run Sample.revisions)
        (buildSourceState Sample.shared)).toOption.map (fun s =>
          (s.buckets.length, (s.finish.bucketAt 0).callCount)) = some (1, 2) := by
      decide +kernel
    cases hrun : Sample.removal.foldlM (GroupStep.run Sample.revisions)
        (buildSourceState Sample.shared) with
    | error e =>
      rw [hrun] at hcounts
      cases hcounts
    | ok s =>
      rw [hrun] at hcounts
      obtain ⟨hlength, hcalls⟩ := Prod.mk.inj (Option.some.inj hcounts)
      refine ⟨s, hrun, hexact Sample.shared Sample.removal s (by decide) hrun ?_ 0 ?_, hcalls⟩
      · exact ⟨by decide +kernel, fun _ _ => trivial⟩
      · rw [hlength]
        exact Nat.one_pos
  · have hok : Sample.resolved.toOption.isSome := by decide +kernel
    cases hrun : Sample.resolved with
    | error e =>
      rw [hrun] at hok
      cases hok
    | ok r => exact ⟨r.1, r.2, rfl, hresolve _ _ _ _ _ _ _ hrun⟩

end Replica
