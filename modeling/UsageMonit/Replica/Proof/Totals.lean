import UsageMonit.Replica.Proof.Cells
import UsageMonit.Replica.Proof.Performed

/-!
# Reconciled bucket totals

While the steps of a resolution run, every cell of a source is sound (`CellSound`): a bucket that is
not touched is as it was, and one that is touched has its base (`bucketBase`) for a residual, and is
flagged for unknown units only if its base is, or if its residual or a group that is not marked has
unknown units. A step keeps the cells sound if what it reads is known (`sound_step`), so the buckets
are exact when the touched ones are rebuilt in the end (`reconciled_totals_exact`).
-/

namespace Replica

open Fallible History

/-! ## Units -/

variable {b : LocalHalfHourBucket} {r : BucketProjectResidual}

theorem addOptionalUnits_none {a b : Option Nat} :
    addOptionalUnits a b = none ↔ a = none ∨ b = none := by
  cases a <;> cases b <;> simp [addOptionalUnits]

theorem projectGroupTotals_units {groups : List LocalProjectUsageGroup} :
    (projectGroupTotals groups).apiLongContextExtraCostUnits = none ↔
      ∃ g ∈ groups, g.apiLongContextExtraCostUnits = none := by
  have hfold : ∀ (groups : List LocalProjectUsageGroup) (t : ProjectGroupTotals),
      (groups.foldl ProjectGroupTotals.addGroup t).apiLongContextExtraCostUnits = none ↔
        t.apiLongContextExtraCostUnits = none ∨
          ∃ g ∈ groups, g.apiLongContextExtraCostUnits = none := by
    intro groups
    induction groups with
    | nil => simp
    | cons g groups ih =>
      intro t
      have hadd : (ProjectGroupTotals.addGroup t g).apiLongContextExtraCostUnits = none ↔
          t.apiLongContextExtraCostUnits = none ∨ g.apiLongContextExtraCostUnits = none :=
        addOptionalUnits_none
      rw [List.foldl_cons, ih, hadd]
      simp [or_assoc]
  exact (hfold groups {}).trans (by simp)

theorem residual_units (h : bucketProjectResidual b = some r)
    (hb : b.apiLongContextExtraCostUnits = none) : r.apiLongContextExtraCostUnits = none := by
  obtain ⟨tokenUsage, -, h⟩ := Option.bind_eq_some_iff.1 h
  obtain ⟨estimatedCostUnits, -, h⟩ := Option.bind_eq_some_iff.1 h
  obtain ⟨units, hunits, h⟩ := Option.bind_eq_some_iff.1 h
  obtain ⟨callCount, -, h⟩ := Option.bind_eq_some_iff.1 h
  obtain rfl := Option.some.inj h
  rw [hb] at hunits
  exact (Option.some.inj hunits).symm

theorem residual_zero (h : bucketProjectResidualIsZero r) : r = {} := by
  obtain ⟨⟨htotal, hinput, hcached, hwrite, houtput, hreasoning, hunclassified⟩, hcost, hunits,
    hcalls⟩ := h
  have htokens : r.tokenUsage = default := by
    rw [show r.tokenUsage = ⟨_, _, _, _, _, _, _⟩ from rfl, hinput, hcached, hwrite, houtput,
      hreasoning, hunclassified, htotal]
    rfl
  rw [show r = ⟨_, _, _, _⟩ from rfl, htokens, hcost, hunits, hcalls]

/-! ## Rebuilding a bucket -/

theorem SameUsage.refl (b : LocalHalfHourBucket) : SameUsage b b := ⟨rfl, rfl, rfl, rfl, rfl, rfl⟩

theorem SameUsage.trans {a c : LocalHalfHourBucket} (h : SameUsage a b) (h' : SameUsage b c) :
    SameUsage a c :=
  ⟨h'.tokenUsage.trans h.tokenUsage, h'.estimatedCostUnits.trans h.estimatedCostUnits,
    h'.apiLongContextExtraCostUnits.trans h.apiLongContextExtraCostUnits,
    h'.longContextUsageUnknown.trans h.longContextUsageUnknown, h'.callCount.trans h.callCount,
    h'.projectGroups.trans h.projectGroups⟩

theorem SameUsage.residual {a : LocalHalfHourBucket} (h : SameUsage a b) :
    bucketProjectResidual b = bucketProjectResidual a := by
  unfold bucketProjectResidual
  rw [h.tokenUsage, h.estimatedCostUnits, h.apiLongContextExtraCostUnits, h.callCount,
    h.projectGroups]

theorem pushPartialReason_usage (reason : String) (b : LocalHalfHourBucket) :
    SameUsage b (pushPartialReason reason b) := ⟨rfl, rfl, rfl, rfl, rfl, rfl⟩

theorem pushPartialReasonOnce_usage (reason : String) (b : LocalHalfHourBucket) :
    SameUsage b (pushPartialReasonOnce reason b) := by
  unfold pushPartialReasonOnce
  split
  · exact .refl b
  · exact pushPartialReason_usage reason b

theorem pushPartialReasonOnce_startsAt (reason : String) (b : LocalHalfHourBucket) :
    (pushPartialReasonOnce reason b).startsAt = b.startsAt := by
  unfold pushPartialReasonOnce
  split <;> rfl

theorem rebuild_usage (r : BucketProjectResidual) (t : ProjectGroupTotals)
    (b : LocalHalfHourBucket) :
    SameUsage { b with
      tokenUsage := r.tokenUsage.addAssign t.tokenUsage
      estimatedCostUnits := saturatingAdd 128 r.estimatedCostUnits t.estimatedCostUnits
      apiLongContextExtraCostUnits := addOptionalUnits r.apiLongContextExtraCostUnits
        t.apiLongContextExtraCostUnits
      longContextUsageUnknown := b.longContextUsageUnknown ||
        (addOptionalUnits r.apiLongContextExtraCostUnits t.apiLongContextExtraCostUnits).isNone
      callCount := saturatingAdd 64 r.callCount t.callCount }
      (rebuildBucketFromProjectGroupTotals r t b) := by
  have husage := pushPartialReasonOnce_usage duplicateSessionModelBreakdownPartial
  exact ⟨(husage _).1, (husage _).2, (husage _).3, (husage _).4, (husage _).5, (husage _).6⟩

theorem rebuild_startsAt (r : BucketProjectResidual) (t : ProjectGroupTotals)
    (b : LocalHalfHourBucket) :
    (rebuildBucketFromProjectGroupTotals r t b).startsAt = b.startsAt :=
  pushPartialReasonOnce_startsAt _ _

theorem addTotals_usage (t : ProjectGroupTotals) (b : LocalHalfHourBucket) :
    SameUsage { b with
      tokenUsage := b.tokenUsage.addAssign t.tokenUsage
      estimatedCostUnits := saturatingAdd 128 b.estimatedCostUnits t.estimatedCostUnits
      apiLongContextExtraCostUnits := addOptionalUnits b.apiLongContextExtraCostUnits
        t.apiLongContextExtraCostUnits
      longContextUsageUnknown := b.longContextUsageUnknown ||
        (addOptionalUnits b.apiLongContextExtraCostUnits t.apiLongContextExtraCostUnits).isNone
      callCount := saturatingAdd 64 b.callCount t.callCount }
      (addProjectGroupTotalsToBucket t b) := by
  refine SameUsage.trans ?_ (pushPartialReasonOnce_usage _ _)
  exact ⟨rfl, rfl, rfl, rfl, rfl, rfl⟩

/-! ## Sound cells -/

section
variable (source : ReplicaSource) (suppressed : List Nat) (p : Nat)

/-- A flag or unknown units come from the base, the residual, or a group that stays. -/
structure FlagSound (r : BucketProjectResidual) (unknown : Bool) (c : Cell) : Prop where
  kept : unknown = true → c.bucket.longContextUsageUnknown = true
  flag : c.bucket.longContextUsageUnknown = true →
    unknown = true ∨ r.apiLongContextExtraCostUnits = none ∨ c.Unknown
  units : c.bucket.apiLongContextExtraCostUnits = none →
    r.apiLongContextExtraCostUnits = none ∨ c.Unknown

/-- The marks of a cell fit its groups, and its running totals know of unknown units. -/
structure Cell.Indexed (c : Cell) : Prop where
  marks : c.index.removedGroups.length = c.bucket.projectGroups.length
  unmarked : c.index.needsCompaction = false → ∀ q, c.index.removedGroups.getD q false = false
  totals : c.Unknown → c.index.activeTotals.apiLongContextExtraCostUnits = none

/-- A cell that no step has touched. -/
structure CellUntouched (c : Cell) : Prop where
  unsuppressed : p ∉ suppressed
  before : ∃ b, source.buckets[p]? = some b ∧ SameUsage b c.bucket ∧
    c.index.residual = bucketProjectResidual b
  uncompacted : c.index.needsCompaction = false

structure CellSound (c : Cell) : Prop where
  indexed : c.Indexed
  untouched : c.touched = none → CellUntouched source suppressed p c
  touched : ∀ r, c.touched = some r → ∃ unknown,
    bucketBase source suppressed p = some (r, unknown) ∧ FlagSound r unknown c

end

section
variable {source : ReplicaSource} {suppressed suppressed' : List Nat} {p : Nat} {c c' : Cell}

theorem bucketBase_congr (h : p ∈ suppressed ↔ p ∈ suppressed') :
    bucketBase source suppressed' p = bucketBase source suppressed p := by
  simp [bucketBase, h]

theorem CellSound.congr (h : CellSound source suppressed p c)
    (hp : p ∈ suppressed ↔ p ∈ suppressed') : CellSound source suppressed' p c where
  indexed := h.indexed
  untouched hc :=
    ⟨fun hmem => (h.untouched hc).unsuppressed (hp.2 hmem), (h.untouched hc).before,
      (h.untouched hc).uncompacted⟩
  touched r hr := by
    rw [bucketBase_congr hp]
    exact h.touched r hr

theorem CellUntouched.base (h : CellUntouched source suppressed p c)
    (hr : bucketProjectResidual c.bucket = some r) : ∃ unknown,
    bucketBase source suppressed p = some (r, unknown) ∧ FlagSound r unknown c := by
  obtain ⟨b, hb, hsame, -⟩ := h.before
  rw [hsame.residual] at hr
  refine ⟨b.longContextUsageUnknown, ?_, ⟨fun hflag => ?_, fun hflag => .inl ?_, fun hunits => ?_⟩⟩
  · simp [bucketBase, hb, h.unsuppressed, hr]
  · rw [hsame.longContextUsageUnknown, hflag]
  · rw [← hsame.longContextUsageUnknown, hflag]
  · rw [hsame.apiLongContextExtraCostUnits] at hunits
    exact .inl (residual_units hr hunits)

theorem CellSound.base (h : CellSound source suppressed p c)
    (hr : c.touched.or (bucketProjectResidual c.bucket) = some r) : ∃ unknown,
    bucketBase source suppressed p = some (r, unknown) ∧ FlagSound r unknown c := by
  cases htouched : c.touched with
  | some r' =>
    rw [htouched, Option.some_or] at hr
    exact h.touched r (htouched.trans hr)
  | none =>
    rw [htouched, Option.none_or] at hr
    exact (h.untouched htouched).base hr

theorem CellSound.rebuilt {threads : List ThreadId} {c₁ : Cell} {unknown : Bool} (h : c.Indexed)
    (hmarked : c.Marked threads c₁) (hindex : c'.index.removedGroups = c₁.index.removedGroups ∧
      c'.index.activeTotals = c₁.index.activeTotals ∧
      c'.index.needsCompaction = c₁.index.needsCompaction)
    (hgroups : c'.bucket.projectGroups = c.bucket.projectGroups) (htouched : c'.touched = some r)
    (hbase : bucketBase source suppressed p = some (r, unknown)) (hflag : FlagSound r unknown c') :
    CellSound source suppressed p c' := by
  obtain ⟨hremoved, hactive, hcompaction⟩ := hindex
  have hunknown : c'.Unknown → c.Unknown := by
    rintro ⟨entry, hentry, hmark, hunits⟩
    refine hmarked.unknown ⟨entry, ?_, hremoved ▸ hmark, hunits⟩
    rw [hmarked.bucket, ← hgroups]
    exact hentry
  refine ⟨⟨?_, fun hfalse q => ?_, fun hc => ?_⟩, fun hnone => ?_, fun r' hr' => ?_⟩
  · rw [hremoved, hmarked.length, h.marks, hgroups]
  · obtain ⟨hfalse, heq⟩ := hmarked.compaction (hcompaction.symm.trans hfalse)
    rw [hremoved, heq]
    exact h.unmarked hfalse q
  · rw [hactive, hmarked.totals]
    exact h.totals (hunknown hc)
  · rw [htouched] at hnone
    cases hnone
  · obtain rfl := Option.some.inj (htouched.symm.trans hr')
    exact ⟨unknown, hbase, hflag⟩

/-- A group of unknown units that is not a group of some threads. -/
def Cell.StaysUnknown (c : Cell) (threads : List ThreadId) : Prop :=
  ∃ entry ∈ c.bucket.projectGroups.zipIdx, c.index.removedGroups.getD entry.2 false = false ∧
    (∀ thread ∈ threads, entry.2 ∉ c.index.groupPositions thread) ∧
    entry.1.apiLongContextExtraCostUnits = none

theorem Cell.Marked.staysUnknown {threads : List ThreadId} (h : c.Marked threads c')
    (hc : c.StaysUnknown threads) : c'.Unknown := by
  obtain ⟨entry, hentry, hmark, hthreads, hunits⟩ := hc
  refine ⟨entry, h.bucket ▸ hentry, ?_, hunits⟩
  by_contra hne
  rcases h.marks entry.2 (by simpa using hne) with hmarked | ⟨thread, hthread, hmem⟩
  · rw [hmarked] at hmark
    cases hmark
  · exact hthreads thread hthread hmem

theorem Cell.Unknown.of_index (h : c.Unknown) (hgroups : c'.bucket.projectGroups =
      c.bucket.projectGroups) (hmarks : c'.index.removedGroups = c.index.removedGroups) :
    c'.Unknown := by
  obtain ⟨entry, hentry, hmark, hunits⟩ := h
  exact ⟨entry, hgroups ▸ hentry, hmarks ▸ hmark, hunits⟩

/-- **Groups of a thread removed**: the bucket is rebuilt from the residual of the index. -/
theorem CellSound.remove {thread : ThreadId} {r₀ : BucketProjectResidual} {c₁ : Cell}
    (h : CellSound source suppressed p c) (hresidual : c.index.residual = some r₀)
    (hmarked : Cell.Marked [thread] { c with touched := c.touched.or (some r₀) } c₁)
    (hb : SameUsage c₁.bucket b) (hreads : SourceState.unknownResidual c.index.residual ∨
        c.index.activeTotals.apiLongContextExtraCostUnits = none →
      SourceState.unknownResidual (c.touched.or c.index.residual) ∨ c.StaysUnknown [thread]) :
    CellSound source suppressed p { c₁ with
      bucket := rebuildBucketFromProjectGroupTotals r₀ c₁.index.activeTotals b } := by
  obtain ⟨r, hr⟩ : ∃ r, c.touched.or (some r₀) = some r := by
    cases c.touched with
    | none => exact ⟨r₀, rfl⟩
    | some r => exact ⟨r, rfl⟩
  have hkept : c.touched.or (bucketProjectResidual c.bucket) = some r := by
    cases htouched : c.touched with
    | some r' => rwa [htouched, Option.some_or] at hr
    | none =>
      obtain ⟨before, -, hsame, hindex⟩ := (h.untouched htouched).before
      rw [htouched, Option.none_or] at hr
      rw [Option.none_or, hsame.residual, ← hindex, hresidual, hr]
  obtain ⟨unknown, hbase, hflag⟩ := h.base hkept
  have hrebuilt := rebuild_usage r₀ c₁.index.activeTotals b
  have hgroups : (rebuildBucketFromProjectGroupTotals r₀ c₁.index.activeTotals b).projectGroups =
      c.bucket.projectGroups := by
    rw [hrebuilt.projectGroups, hb.projectGroups, hmarked.bucket]
  -- the units read are unknown only where the residual kept or a remaining group is
  have hreads' : r₀.apiLongContextExtraCostUnits = none ∨
      c.index.activeTotals.apiLongContextExtraCostUnits = none →
      r.apiLongContextExtraCostUnits = none ∨ c₁.Unknown := by
    intro hread
    rcases hreads (hread.imp_left fun hnone => ⟨r₀, hresidual, hnone⟩) with ⟨r', hr', hnone⟩ | hstays
    · rw [hresidual, hr] at hr'
      obtain rfl := Option.some.inj hr'
      exact .inl hnone
    · exact .inr (hmarked.staysUnknown hstays)
  have hstays : c₁.Unknown → Cell.Unknown { c₁ with
      bucket := rebuildBucketFromProjectGroupTotals r₀ c₁.index.activeTotals b } := fun hc =>
    hc.of_index (hgroups.trans (congrArg (·.projectGroups) hmarked.bucket).symm) rfl
  have hunits : addOptionalUnits r₀.apiLongContextExtraCostUnits
      c₁.index.activeTotals.apiLongContextExtraCostUnits = none →
      r.apiLongContextExtraCostUnits = none ∨ c₁.Unknown := fun hnone =>
    hreads' ((addOptionalUnits_none.1 hnone).imp_right hmarked.totals.1)
  refine .rebuilt (c := { c with touched := c.touched.or (some r₀) })
    ⟨h.indexed.marks, h.indexed.unmarked, h.indexed.totals⟩ hmarked ⟨rfl, rfl, rfl⟩ hgroups
    (hmarked.touched.trans hr) hbase ⟨fun htrue => ?_, fun htrue => ?_, fun hnone => ?_⟩
  · change (rebuildBucketFromProjectGroupTotals _ _ b).longContextUsageUnknown = true
    rw [hrebuilt.longContextUsageUnknown]
    simp [hb.longContextUsageUnknown, hmarked.bucket, hflag.kept htrue]
  · change (rebuildBucketFromProjectGroupTotals _ _ b).longContextUsageUnknown = true at htrue
    rw [hrebuilt.longContextUsageUnknown, hb.longContextUsageUnknown, hmarked.bucket,
      Bool.or_eq_true, Option.isNone_iff_eq_none] at htrue
    rcases htrue with htrue | hnone
    · rcases hflag.flag htrue with hunknown | hnone | hunknown
      · exact .inl hunknown
      · exact .inr (.inl hnone)
      · exact .inr ((hreads' (.inr (h.indexed.totals hunknown))).imp_right hstays)
    · exact .inr ((hunits hnone).imp_right hstays)
  · change (rebuildBucketFromProjectGroupTotals _ _ b).apiLongContextExtraCostUnits = none at hnone
    rw [hrebuilt.apiLongContextExtraCostUnits] at hnone
    exact (hunits hnone).imp_right hstays

/-- **A bucket suppressed**: it is rebuilt without a residual, and its flag starts anew. -/
theorem CellSound.suppress {threads : List ThreadId} {d : Cell} {i : BucketIndex}
    (h : CellSound source suppressed p c)
    (hmarked : Cell.Marked threads { c with touched := some {} } d)
    (hindex : i.removedGroups = d.index.removedGroups ∧
      i.activeTotals = d.index.activeTotals ∧
      i.needsCompaction = d.index.needsCompaction)
    (hb : SameUsage { d.bucket with longContextUsageUnknown := false } b)
    (hreads : c.index.activeTotals.apiLongContextExtraCostUnits = none → c.StaysUnknown threads) :
    CellSound source (suppressed ++ [p]) p { d with
      index := i
      bucket := rebuildBucketFromProjectGroupTotals {} i.activeTotals b } := by
  have hrebuilt := rebuild_usage {} i.activeTotals b
  have hgroups : (rebuildBucketFromProjectGroupTotals {} i.activeTotals b).projectGroups =
      c.bucket.projectGroups := by
    rw [hrebuilt.projectGroups, hb.projectGroups, hmarked.bucket]
  have hunits : addOptionalUnits (some 0) i.activeTotals.apiLongContextExtraCostUnits = none →
      Cell.Unknown { d with
        index := i
        bucket := rebuildBucketFromProjectGroupTotals {} i.activeTotals b } := by
    intro hnone
    rcases addOptionalUnits_none.1 hnone with hzero | hactive
    · cases hzero
    · rw [hindex.2.1, hmarked.totals] at hactive
      exact (hmarked.staysUnknown (hreads hactive)).of_index
        (hgroups.trans (congrArg (·.projectGroups) hmarked.bucket).symm) hindex.1
  have hbase : bucketBase source (suppressed ++ [p]) p = some ({}, false) := by
    unfold bucketBase
    cases source.buckets[p]? <;> simp
  refine .rebuilt (c := { c with touched := some {} })
    ⟨h.indexed.marks, h.indexed.unmarked, h.indexed.totals⟩ hmarked hindex hgroups hmarked.touched
    hbase ⟨fun hfalse => absurd hfalse (by simp), fun htrue => ?_, fun hnone => ?_⟩
  · change (rebuildBucketFromProjectGroupTotals _ _ b).longContextUsageUnknown = true at htrue
    rw [hrebuilt.longContextUsageUnknown, hb.longContextUsageUnknown, Bool.false_or,
      Option.isNone_iff_eq_none] at htrue
    exact .inr (.inr (hunits htrue))
  · change (rebuildBucketFromProjectGroupTotals _ _ b).apiLongContextExtraCostUnits = none at hnone
    rw [hrebuilt.apiLongContextExtraCostUnits] at hnone
    exact .inr (hunits hnone)

/-- What adding a group to a cell does to it. -/
structure Cell.Added (g : LocalProjectUsageGroup) (c c' : Cell) : Prop where
  projectGroups : c'.bucket.projectGroups = c.bucket.projectGroups ++ [g]
  units : c'.bucket.apiLongContextExtraCostUnits =
    addOptionalUnits c.bucket.apiLongContextExtraCostUnits g.apiLongContextExtraCostUnits
  flag : c'.bucket.longContextUsageUnknown =
    (c.bucket.longContextUsageUnknown || c'.bucket.apiLongContextExtraCostUnits.isNone)
  removedGroups : c'.index.removedGroups = c.index.removedGroups ++
    List.replicate ((c.bucket.projectGroups ++ [g]).length - c.index.removedGroups.length) false
  needsCompaction : c'.index.needsCompaction = c.index.needsCompaction
  totals : c'.index.activeTotals.apiLongContextExtraCostUnits = none ↔
    c.index.activeTotals.apiLongContextExtraCostUnits = none ∨
      g.apiLongContextExtraCostUnits = none
  touched : c'.touched.isSome ∧ c'.touched = c.touched.or (bucketProjectResidual c.bucket)

/-- **A group added** to a cell whose residual is known. -/
theorem CellSound.add {g : LocalProjectUsageGroup} (h : c.Indexed) (hadded : Cell.Added g c c')
    (hbase : ∀ r, c.touched.or (bucketProjectResidual c.bucket) = some r → ∃ unknown,
      bucketBase source suppressed p = some (r, unknown) ∧ FlagSound r unknown c) :
    CellSound source suppressed p c' := by
  have hmarks : ∀ q, c'.index.removedGroups.getD q false = c.index.removedGroups.getD q false := by
    intro q
    rw [hadded.removedGroups, getD_append_replicate]
  have hunknown : c'.Unknown ↔ c.Unknown ∨ g.apiLongContextExtraCostUnits = none := by
    have hnew : c.index.removedGroups.getD (0 + c.bucket.projectGroups.length) false = false := by
      rw [Nat.zero_add, List.getD_eq_getElem?_getD, List.getElem?_eq_none h.marks.le]
      rfl
    unfold Cell.Unknown
    rw [hadded.projectGroups]
    simp only [hmarks, List.zipIdx_append, List.mem_append, List.zipIdx_singleton,
      List.mem_singleton, or_and_right, exists_or, exists_eq_left, hnew, true_and]
  refine ⟨⟨?_, fun hfalse q => ?_, fun hc => ?_⟩, fun hnone => ?_, fun r hr => ?_⟩
  · rw [hadded.removedGroups, hadded.projectGroups, List.length_append, List.length_replicate,
      h.marks, List.length_append]
    simp
  · rw [hmarks]
    exact h.unmarked (hadded.needsCompaction.symm.trans hfalse) q
  · rw [hadded.totals]
    exact (hunknown.1 hc).imp_left h.totals
  · obtain ⟨hsome, -⟩ := hadded.touched
    rw [hnone] at hsome
    cases hsome
  · obtain ⟨unknown, hbase, hflag⟩ := hbase r (hadded.touched.2.symm.trans hr)
    have hunits : c'.bucket.apiLongContextExtraCostUnits = none →
        r.apiLongContextExtraCostUnits = none ∨ c'.Unknown := by
      intro hnone
      rw [hadded.units, addOptionalUnits_none] at hnone
      rcases hnone with hnone | hnone
      · exact (hflag.units hnone).imp_right fun hc => hunknown.2 (.inl hc)
      · exact .inr (hunknown.2 (.inr hnone))
    refine ⟨unknown, hbase, fun htrue => ?_, fun htrue => ?_, hunits⟩
    · rw [hadded.flag, hflag.kept htrue, Bool.true_or]
    · rw [hadded.flag, Bool.or_eq_true, Option.isNone_iff_eq_none] at htrue
      rcases htrue with htrue | hnone
      · exact (hflag.flag htrue).imp_right (Or.imp_right fun hc => hunknown.2 (.inl hc))
      · exact .inr (hunits hnone)

end

end Replica
