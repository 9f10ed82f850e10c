import UsageMonit.Replica.Proof.Totals

/-!
# Steps keep the cells of a source sound

`Sound` says that all cells of a source are sound. Each operation acts at one position
(`SoundOn.acts`), so it keeps a source sound if it keeps the cell there: groups are removed
(`sound_removeReplicaGroup`), a bucket is suppressed (`sound_preserve`), a fact is added, perhaps to
a new bucket (`sound_addFact`), or a bucket is only marked (`CellSound.same`).
-/

namespace Replica

open Fallible Time Protocol History

variable {thread : ThreadId}

section
variable (source : ReplicaSource) (suppressed : List Nat)

/-- The cells of a source that `Q` selects are sound, and its index fits its buckets. -/
structure SoundOn (Q : Nat → Prop) (s : SourceState) : Prop where
  distinct : Distinct s
  indexed : s.index.length = s.buckets.length
  grown : source.buckets.length ≤ s.buckets.length
  touched : ∀ t, (s.touched.lookup t).isSome → ∃ p, p < s.buckets.length ∧ s.startOf p = t
  threads : ∀ thread, ∀ e ∈ s.threads thread, e.bucketPosition < s.buckets.length
  cells : ∀ p, p < s.buckets.length → Q p → CellSound source suppressed p (s.cellAt p)

abbrev Sound (s : SourceState) : Prop := SoundOn source suppressed (fun _ => True) s

end

section
variable {source : ReplicaSource} {suppressed suppressed' : List Nat} {Q : Nat → Prop} {p : Nat}
  {s s' : SourceState}

theorem SoundOn.mono {Q' : Nat → Prop} (h : SoundOn source suppressed Q s) (hQ : ∀ p, Q' p → Q p) :
    SoundOn source suppressed Q' s :=
  ⟨h.distinct, h.indexed, h.grown, h.touched, h.threads, fun p hp hq => h.cells p hp (hQ p hq)⟩

/-- **A step at one position**: its cell is sound again, and the others are as they were. -/
theorem SoundOn.acts (h : SoundOn source suppressed (fun q => q ≠ p) s) (hacts : Acts p s s')
    (hp : p < s.buckets.length) (hcell : CellSound source suppressed' p (s'.cellAt p))
    (hsame : ∀ q, q ≠ p → (q ∈ suppressed ↔ q ∈ suppressed')) : Sound source suppressed' s' where
  distinct := hacts.distinct h.distinct
  indexed := by rw [hacts.indexed, hacts.length, h.indexed]
  grown := hacts.length ▸ h.grown
  touched t ht := by
    rw [hacts.length]
    rcases hacts.touched t ht with ht | rfl
    · obtain ⟨q, hq, hstart⟩ := h.touched t ht
      exact ⟨q, hq, (hacts.starts q).trans hstart⟩
    · exact ⟨p, hp, hacts.starts p⟩
  threads thread e he := by
    rw [hacts.length]
    rcases hacts.threads thread e he with heq | ⟨e', he', heq⟩
    · exact heq ▸ hp
    · exact heq ▸ h.threads thread e' he'
  cells q hq _ := by
    by_cases hne : q = p
    · exact hne ▸ hcell
    · rw [hacts.others q (hacts.length ▸ hq) hne]
      exact (h.cells q (hacts.length ▸ hq) hne).congr (hsame q hne)

/-! ## Removing a thread -/

theorem acts_markBucketTransparent (hp : p < s.index.length) :
    Acts p s (s.markBucketTransparent p) ∧ (s.markBucketTransparent p).cellAt p =
      { s.cellAt p with
        index := { s.indexAt p with opaqueActive := false, residual := some {} } } := by
  unfold SourceState.markBucketTransparent
  split
  · obtain ⟨hacts, hcell⟩ := acts_modifyIndex
      (s := { s with activeOpaqueCount := s.activeOpaqueCount - 1 }) hp fun index =>
        { index with opaqueActive := false, residual := some {} }
    exact ⟨⟨hacts.length, hacts.indexed, hacts.starts, hacts.others, hacts.touched, hacts.threads⟩,
      hcell⟩
  · exact acts_modifyIndex hp _

theorem sound_removeReplicaGroup {offset : Nat} (h : Sound source suppressed s)
    (hreads : ∀ position ∈ s.activePosition thread offset, s.removalReadsKnown thread position)
    (hrun : SourceState.removeReplicaGroup thread s offset = .ok s') :
    Sound source suppressed s' := by
  unfold SourceState.removeReplicaGroup at hrun
  split at hrun
  · obtain rfl : s = s' := Except.ok.inj hrun
    exact h
  · rename_i indexed hindexed
    split at hrun
    · rename_i hactive
      obtain ⟨residual, hresidual, hrun⟩ := bind_ok hrun
      obtain ⟨t, ht, hrun⟩ := bind_ok hrun
      obtain rfl : _ = s' := Except.ok.inj hrun
      rw [okOr_ok] at hresidual
      have hp := h.threads thread indexed (List.mem_of_getElem? hindexed)
      obtain ⟨htouch, htouched⟩ := acts_touchOnce h.distinct hp residual
      obtain ⟨hmark, hmarked⟩ := acts_deactivate (by rw [htouch.indexed, h.indexed]; exact hp) ht
      rw [htouched] at hmarked
      have hstarts : ∀ b : LocalHalfHourBucket, (rebuildBucketFromProjectGroupTotals residual
          (t.indexAt indexed.bucketPosition).activeTotals
          (if bucketProjectResidualIsZero residual then
            pushPartialReasonOnce duplicateSessionModelBreakdownPartial b
          else pushPartialReasonOnce duplicateSessionProjectBreakdownLowerBound
            (pushPartialReasonOnce duplicateSessionModelBreakdownPartial b))).startsAt =
          b.startsAt := by
        intro b
        rw [rebuild_startsAt]
        split <;> simp [pushPartialReasonOnce_startsAt]
      obtain ⟨hmodify, hcell⟩ := acts_modifyBucket
        (by rw [hmark.length, htouch.length]; exact hp) hstarts
      refine (h.mono fun _ _ => trivial).acts ((htouch.trans hmark).trans hmodify) hp ?_
        fun _ _ => .rfl
      have hposition : s.activePosition thread offset = some indexed.bucketPosition := by
        unfold SourceState.activePosition
        rw [hindexed, Option.filter_some, if_pos hactive]
        rfl
      rw [hcell]
      refine (h.cells _ hp trivial).remove hresidual hmarked ?_ (hreads _ hposition)
      split
      · exact pushPartialReasonOnce_usage _ _
      · exact (pushPartialReasonOnce_usage _ _).trans (pushPartialReasonOnce_usage _ _)
    · obtain rfl : s = s' := Except.ok.inj hrun
      exact h

/-! ## Suppressing a thread -/

theorem mem_append_singleton_of_ne {p q : Nat} (hq : q ≠ p) :
    q ∈ suppressed ↔ q ∈ suppressed ++ [p] := by
  simp [hq]

theorem sound_preserve (h : Sound source suppressed s) (hp : p < s.buckets.length)
    (hreads : s.suppressionReadsKnown thread p)
    (hrun : s.preserveUnrelatedProjectGroupsInBucket p thread = .ok s') :
    Sound source (suppressed ++ [p]) s' := by
  obtain ⟨t, ht, hrun⟩ := bind_ok hrun
  obtain ⟨u, hu, hrun⟩ := bind_ok hrun
  obtain rfl : _ = s' := Except.ok.inj hrun
  obtain ⟨htouch, htouched⟩ := acts_touch h.distinct hp {}
  obtain ⟨hmark, hmarked⟩ := acts_tombstone (by rw [htouch.indexed, h.indexed]; exact hp) ht
  obtain ⟨hmark', hmarked'⟩ := acts_deactivate
    (by rw [hmark.indexed, htouch.indexed, h.indexed]; exact hp) hu
  obtain ⟨hclear, hcleared⟩ := acts_markBucketTransparent (s := u) (p := p)
    (by rw [hmark'.indexed, hmark.indexed, htouch.indexed, h.indexed]; exact hp)
  have hstarts : ∀ b : LocalHalfHourBucket, (rebuildBucketFromProjectGroupTotals {}
      ((u.markBucketTransparent p).indexAt p).activeTotals
      (pushPartialReasonOnce duplicateSessionProjectBreakdownLowerBound
        (pushPartialReasonOnce duplicateSessionModelBreakdownPartial
          { b with groups := [], longContextUsageUnknown := false }))).startsAt = b.startsAt := by
    intro b
    rw [rebuild_startsAt, pushPartialReasonOnce_startsAt, pushPartialReasonOnce_startsAt]
  obtain ⟨hmodify, hcell⟩ := acts_modifyBucket (s := u.markBucketTransparent p)
    (by rw [hclear.length, hmark'.length, hmark.length, htouch.length]; exact hp) hstarts
  refine (h.mono fun _ _ => trivial).acts
    ((((htouch.trans hmark).trans hmark').trans hclear).trans hmodify) hp ?_
    fun _ hq => mem_append_singleton_of_ne hq
  rw [htouched] at hmarked
  have hindex : (u.markBucketTransparent p).indexAt p =
      { u.indexAt p with opaqueActive := false, residual := some {} } :=
    congrArg Cell.index hcleared
  have hbucket : (u.markBucketTransparent p).bucketAt p = u.bucketAt p :=
    congrArg Cell.bucket hcleared
  rw [hcell, hcleared, hindex, hbucket]
  refine (h.cells p hp trivial).suppress (d := u.cellAt p)
    (i := { u.indexAt p with opaqueActive := false, residual := some {} })
    (hmarked.trans hmarked') ⟨rfl, rfl, rfl⟩ ?_ hreads
  refine SameUsage.trans (b := { u.bucketAt p with groups := [], longContextUsageUnknown := false })
    ⟨rfl, rfl, rfl, rfl, rfl, rfl⟩ ?_
  exact (pushPartialReasonOnce_usage _ _).trans (pushPartialReasonOnce_usage _ _)

theorem sound_suppressThreadBucket {selection : ReplicaBucketSelection} {offset : Nat}
    (h : Sound source suppressed s)
    (hreads : ∀ position ∈ (GroupStep.suppressThread thread selection offset).suppresses s,
      s.suppressionReadsKnown thread position)
    (hrun : s.suppressThreadBucket thread selection offset = .ok s') :
    Sound source (suppressed ++
      ((GroupStep.suppressThread thread selection offset).suppresses s).toList) s' := by
  unfold SourceState.suppressThreadBucket at hrun
  unfold GroupStep.suppresses SourceState.activePosition at hreads ⊢
  dsimp only at hreads ⊢
  split at hrun
  · rename_i hnone
    obtain rfl : s = s' := Except.ok.inj hrun
    rw [hnone]
    simpa using h
  · rename_i indexed hindexed
    have hp := h.threads thread indexed (List.mem_of_getElem? hindexed)
    rw [hindexed] at hreads ⊢
    split at hrun
    · rename_i hboth
      simp only [Option.filter_some, hboth.1, if_true, Option.map_some, hboth.2, decide_true,
        Option.mem_some_iff, forall_eq', Option.toList_some] at hreads ⊢
      exact sound_preserve h hp hreads hrun
    · rename_i hboth
      obtain rfl : s = s' := Except.ok.inj hrun
      have hfilter : (((some indexed).filter (·.active)).map (·.bucketPosition)).filter
          (fun position => decide (selection.contains (s.startOf position))) = none := by
        by_cases hactive : indexed.active = true
        · have hcontains : ¬ selection.contains (s.startOf indexed.bucketPosition) := fun hc =>
            hboth ⟨hactive, hc⟩
          simp [Option.filter_some, hactive, hcontains]
        · simp [Option.filter_some, hactive]
      rw [hfilter]
      simpa using h

theorem CellSound.transparent {c : Cell} (h : CellSound source suppressed p c)
    (hzero : ∃ residual ∈ c.index.residual, bucketProjectResidualIsZero residual) :
    CellSound source suppressed p { c with
      index := { c.index with opaqueActive := false, residual := some {} } } := by
  obtain ⟨residual, hresidual, hzero⟩ := hzero
  obtain rfl := residual_zero hzero
  refine ⟨⟨h.indexed.marks, h.indexed.unmarked, h.indexed.totals⟩, fun hnone => ?_,
    fun r hr => ?_⟩
  · obtain ⟨hp, ⟨b, hb, hsame, hindex⟩, huncompacted⟩ := h.untouched hnone
    exact ⟨hp, ⟨b, hb, hsame, Eq.trans hresidual.symm hindex⟩, huncompacted⟩
  · obtain ⟨unknown, hbase, hflag⟩ := h.touched r hr
    exact ⟨unknown, hbase, hflag.kept, hflag.flag, hflag.units⟩

theorem sound_suppressOpaqueBucket {selection : ReplicaBucketSelection}
    (h : Sound source suppressed s)
    (hreads : ∀ position ∈ (GroupStep.suppressOpaque thread selection p).suppresses s,
      s.suppressionReadsKnown thread position)
    (hrun : s.suppressOpaqueBucket thread selection p = .ok s') :
    Sound source (suppressed ++
      ((GroupStep.suppressOpaque thread selection p).suppresses s).toList) s' := by
  unfold SourceState.suppressOpaqueBucket at hrun
  unfold GroupStep.suppresses at hreads ⊢
  dsimp only at hreads ⊢
  split at hrun
  · rename_i hboth
    have hp : p < s.buckets.length := by
      by_contra hp
      have hdefault : s.indexAt p = {} := by
        rw [SourceState.indexAt, List.getD_eq_getElem?_getD,
          List.getElem?_eq_none (by rw [h.indexed]; exact not_lt.1 hp)]
        rfl
      rw [hdefault] at hboth
      cases hboth.1
    split at hrun
    · rename_i hattributed
      obtain rfl : _ = s' := Except.ok.inj hrun
      obtain ⟨hclear, hcleared⟩ := acts_markBucketTransparent (s := s) (p := p)
        (by rw [h.indexed]; exact hp)
      rw [if_neg fun hall => hall.2.2 hattributed, Option.toList_none, List.append_nil]
      refine (h.mono fun _ _ => trivial).acts hclear hp ?_ fun _ _ => .rfl
      rw [hcleared]
      exact (h.cells p hp trivial).transparent hattributed
    · rename_i hattributed
      rw [if_pos ⟨hboth.1, hboth.2, hattributed⟩] at hreads ⊢
      exact sound_preserve h hp (hreads p rfl) hrun
  · rename_i hboth
    obtain rfl : s = s' := Except.ok.inj hrun
    rw [if_neg fun hall => hboth ⟨hall.1, hall.2.1⟩, Option.toList_none, List.append_nil]
    exact h

/-! ## Marking buckets -/

theorem CellSound.same {c c' : Cell} (h : CellSound source suppressed p c)
    (hbucket : SameUsage c.bucket c'.bucket)
    (hindex : c'.index.removedGroups = c.index.removedGroups ∧
      c'.index.activeTotals = c.index.activeTotals ∧ c'.index.residual = c.index.residual ∧
      c'.index.needsCompaction = c.index.needsCompaction)
    (htouched : c'.touched = c.touched) : CellSound source suppressed p c' := by
  obtain ⟨hremoved, hactive, hresidual, hcompaction⟩ := hindex
  have hunknown : c'.Unknown ↔ c.Unknown :=
    ⟨fun hc => hc.of_index hbucket.projectGroups.symm hremoved.symm,
      fun hc => hc.of_index hbucket.projectGroups hremoved⟩
  refine ⟨⟨?_, fun hfalse q => ?_, fun hc => ?_⟩, fun hnone => ?_, fun r hr => ?_⟩
  · rw [hremoved, hbucket.projectGroups, h.indexed.marks]
  · rw [hremoved, h.indexed.unmarked (hcompaction.symm.trans hfalse)]
  · rw [hactive, h.indexed.totals (hunknown.1 hc)]
  · obtain ⟨hp, ⟨b, hb, hsame, heq⟩, huncompacted⟩ := h.untouched (htouched.symm.trans hnone)
    exact ⟨hp, ⟨b, hb, hsame.trans hbucket, hresidual.trans heq⟩, hcompaction.trans huncompacted⟩
  · obtain ⟨unknown, hbase, hflag⟩ := h.touched r (htouched.symm.trans hr)
    refine ⟨unknown, hbase, fun htrue => ?_, fun htrue => ?_, fun hnone => ?_⟩
    · rw [hbucket.longContextUsageUnknown, hflag.kept htrue]
    · rw [hunknown]
      exact hflag.flag (hbucket.longContextUsageUnknown.symm.trans htrue)
    · rw [hunknown]
      exact hflag.units (hbucket.apiLongContextExtraCostUnits.symm.trans hnone)

theorem sound_pushReasons {f : LocalHalfHourBucket → LocalHalfHourBucket}
    (hf : ∀ b, SameUsage b (f b)) (hstart : ∀ b, (f b).startsAt = b.startsAt)
    (h : Sound source suppressed s) (p : Nat) : Sound source suppressed (s.modifyBucket p f) := by
  by_cases hp : p < s.buckets.length
  · obtain ⟨hacts, hcell⟩ := acts_modifyBucket hp hstart
    refine (h.mono fun _ _ => trivial).acts hacts hp ?_ fun _ _ => .rfl
    rw [hcell]
    exact (h.cells p hp trivial).same (hf _) ⟨rfl, rfl, rfl, rfl⟩ rfl
  · have hsame : s.modifyBucket p f = s := by
      unfold SourceState.modifyBucket
      rw [List.modify_eq_self (not_lt.1 hp)]
    rwa [hsame]

theorem sound_markIndex {f : BucketIndex → BucketIndex}
    (hf : ∀ i, (f i).removedGroups = i.removedGroups ∧ (f i).activeTotals = i.activeTotals ∧
      (f i).residual = i.residual ∧ (f i).needsCompaction = i.needsCompaction)
    (h : Sound source suppressed s) (p : Nat) : Sound source suppressed (s.modifyIndex p f) := by
  by_cases hp : p < s.buckets.length
  · obtain ⟨hacts, hcell⟩ := acts_modifyIndex (by rw [h.indexed]; exact hp) f
    refine (h.mono fun _ _ => trivial).acts hacts hp ?_ fun _ _ => .rfl
    rw [hcell]
    exact (h.cells p hp trivial).same (.refl _) (hf _) rfl
  · have hsame : s.modifyIndex p f = s := by
      unfold SourceState.modifyIndex
      rw [List.modify_eq_self (by rw [h.indexed]; exact not_lt.1 hp)]
    rwa [hsame]

theorem sound_foldl {α : Type} {f : SourceState → α → SourceState}
    (hf : ∀ s a, Sound source suppressed s → Sound source suppressed (f s a)) (l : List α)
    (h : Sound source suppressed s) : Sound source suppressed (l.foldl f s) := by
  induction l generalizing s with
  | nil => exact h
  | cons a l ih => exact ih (hf s a h)

theorem sound_ensureAuthorityBucket (h : Sound source suppressed s) (p : Nat) :
    Sound source suppressed (s.ensureAuthorityBucket p) := by
  unfold SourceState.ensureAuthorityBucket
  split
  · split
    · obtain ⟨h1, h2, h3, h4, h5, h6⟩ := sound_markIndex (f := fun index =>
        { index with opaqueActive := false }) (fun _ => ⟨rfl, rfl, rfl, rfl⟩) h p
      exact ⟨h1, h2, h3, h4, h5, h6⟩
    · split
      · exact h
      · refine sound_markIndex (f := fun index => { index with authorityMarked := true })
          (fun _ => ⟨rfl, rfl, rfl, rfl⟩) (sound_pushReasons ?_ ?_ h p) p
        · exact fun b => (pushPartialReason_usage _ b).trans (pushPartialReason_usage _ _)
        · exact fun b => rfl
  · exact h

theorem sound_markUnhandled (h : Sound source suppressed s) (thread : ThreadId)
    (rangeStart rangeEnd : DateTime) (handledRanges : List (DateTime × DateTime)) :
    Sound source suppressed
      (s.markUnhandledAuthorityLowerBound thread rangeStart rangeEnd handledRanges) := by
  refine sound_foldl (fun s entry h => ?_) _ h
  split
  · exact sound_pushReasons (fun b => pushPartialReason_usage _ b) (fun b => rfl) h _
  · exact h

/-! ## Adding facts -/

/-- What a fact is added to: the cell of its bucket, which may be a new one. -/
structure Target (source : ReplicaSource) (suppressed : List Nat) (p : Nat) (wasIndexed : Prop)
    (c : Cell) : Prop where
  indexed : c.Indexed
  fresh : ¬ wasIndexed → c.bucket.projectGroups = [] ∧ c.index = {}
  base : ∀ r, c.touched.or (bucketProjectResidual c.bucket) = some r → ∃ unknown,
    bucketBase source suppressed p = some (r, unknown) ∧ FlagSound r unknown c

theorem soundOn_append {b : LocalHalfHourBucket} (h : Sound source suppressed s)
    (hstart : ∀ q, q < s.buckets.length → s.startOf q ≠ b.startsAt) :
    SoundOn source suppressed (fun q => q ≠ s.buckets.length)
        { s with buckets := s.buckets ++ [b], index := s.index ++ [{}] } ∧
      SourceState.cellAt { s with buckets := s.buckets ++ [b], index := s.index ++ [{}] }
        s.buckets.length = ⟨b, {}, none⟩ := by
  have hat : ∀ q, q < s.buckets.length → (s.buckets ++ [b]).getD q default = s.bucketAt q := by
    intro q hq
    rw [List.getD_eq_getElem?_getD, List.getElem?_append_left hq, SourceState.bucketAt,
      List.getD_eq_getElem?_getD]
  have hnew : (s.buckets ++ [b]).getD s.buckets.length default = b := by
    rw [List.getD_eq_getElem?_getD, List.getElem?_concat_length]
    rfl
  have hindex : ∀ q, (s.index ++ [({} : BucketIndex)]).getD q {} = s.indexAt q := by
    intro q
    rw [SourceState.indexAt, List.getD_eq_getElem?_getD, List.getD_eq_getElem?_getD]
    by_cases hq : q < s.index.length
    · rw [List.getElem?_append_left hq]
    · rw [List.getElem?_append_right (not_lt.1 hq), List.getElem?_eq_none (not_lt.1 hq)]
      cases q - s.index.length <;> rfl
  have hstartAt : ∀ q, q < s.buckets.length →
      ((s.buckets ++ [b]).getD q default).startsAt = s.startOf q := fun q hq => by
    rw [hat q hq]
    rfl
  have huntouched : s.touched.lookup b.startsAt = none := by
    by_contra hsome
    obtain ⟨q, hq, heq⟩ := h.touched b.startsAt (Option.isSome_iff_ne_none.2 hsome)
    exact hstart q hq heq
  refine ⟨⟨fun q q' hq hq' heq => ?_, ?_, ?_, fun t ht => ?_, fun thread e he => ?_,
    fun q hq hne => ?_⟩, ?_⟩
  · change ((s.buckets ++ [b]).getD q default).startsAt =
      ((s.buckets ++ [b]).getD q' default).startsAt at heq
    simp only [List.length_append, List.length_singleton] at hq hq'
    rcases Nat.lt_succ_iff_lt_or_eq.1 hq with hq | rfl <;>
      rcases Nat.lt_succ_iff_lt_or_eq.1 hq' with hq' | rfl
    · rw [hstartAt q hq, hstartAt q' hq'] at heq
      exact h.distinct q q' hq hq' heq
    · rw [hstartAt q hq, hnew] at heq
      exact absurd heq (hstart q hq)
    · rw [hstartAt q' hq', hnew] at heq
      exact absurd heq.symm (hstart q' hq')
    · rfl
  · simp [h.indexed]
  · simp only [List.length_append, List.length_singleton]
    exact Nat.le_succ_of_le h.grown
  · obtain ⟨q, hq, heq⟩ := h.touched t ht
    refine ⟨q, by simp; omega, (hstartAt q hq).trans heq⟩
  · simp only [List.length_append, List.length_singleton]
    exact Nat.lt_succ_of_lt (h.threads thread e he)
  · simp only [List.length_append, List.length_singleton] at hq
    have hq : q < s.buckets.length := by omega
    have hcell : SourceState.cellAt
        { s with buckets := s.buckets ++ [b], index := s.index ++ [{}] } q = s.cellAt q := by
      unfold SourceState.cellAt
      congr 1
      · exact hat q hq
      · exact hindex q
      · exact congrArg s.touched.lookup (hstartAt q hq)
    rw [hcell]
    exact h.cells q hq trivial
  · have hlast : s.indexAt s.buckets.length = {} := by
      rw [SourceState.indexAt, List.getD_eq_getElem?_getD,
        List.getElem?_eq_none (by rw [h.indexed])]
      rfl
    unfold SourceState.cellAt
    congr 1
    · exact (hindex s.buckets.length).trans hlast
    · exact (congrArg s.touched.lookup (congrArg (·.startsAt) hnew)).trans huntouched

theorem target_append {b : LocalHalfHourBucket} (h : Sound source suppressed s)
    (hstart : ∀ q, q < s.buckets.length → s.startOf q ≠ b.startsAt)
    (hgroups : b.projectGroups = []) (hunits : b.apiLongContextExtraCostUnits = some 0)
    (hflag : b.longContextUsageUnknown = false) (hresidual : bucketProjectResidual b = some {}) :
    SoundOn source suppressed (fun q => q ≠ s.buckets.length)
        (SourceState.growIndex { s with buckets := s.buckets ++ [b] } s.buckets.length) ∧
      Target source suppressed s.buckets.length (s.buckets.length < s.index.length)
        ((SourceState.growIndex { s with buckets := s.buckets ++ [b] } s.buckets.length).cellAt
          s.buckets.length) := by
  have hgrow : SourceState.growIndex { s with buckets := s.buckets ++ [b] } s.buckets.length =
      { s with buckets := s.buckets ++ [b], index := s.index ++ [{}] } := by
    simp [SourceState.growIndex, h.indexed]
  obtain ⟨hsound, hcell⟩ := soundOn_append h hstart
  rw [hgrow, hcell]
  refine ⟨hsound, ⟨by rw [hgroups]; rfl, fun _ _ => rfl, ?_⟩,
    fun _ => ⟨hgroups, rfl⟩, fun r hr => ⟨false, ?_, ?_⟩⟩
  · rintro ⟨entry, hentry, -⟩
    rw [hgroups] at hentry
    cases hentry
  · obtain rfl : {} = r := Option.some.inj (hresidual.symm.trans hr)
    unfold bucketBase
    rw [List.getElem?_eq_none h.grown]
  · refine ⟨fun hfalse => absurd hfalse (by simp), fun htrue => ?_, fun hnone => ?_⟩
    · rw [hflag] at htrue
      cases htrue
    · rw [hunits] at hnone
      cases hnone

theorem bucketForFact_spec (h : Sound source suppressed s) {startsAt : DateTime}
    {metrics : SessionUsageMetrics} {t : SourceState} {p : Nat}
    (hbucket : s.bucketForFact startsAt metrics = (t, p)) :
    SoundOn source suppressed (fun q => q ≠ p) (t.growIndex p) ∧ p < t.buckets.length ∧
      t.startOf p = startsAt ∧
      Target source suppressed p (p < t.index.length) ((t.growIndex p).cellAt p) := by
  unfold SourceState.bucketForFact at hbucket
  split at hbucket
  · rename_i position hfind
    obtain ⟨rfl, rfl⟩ := Prod.mk.inj hbucket
    obtain ⟨hp, hfind⟩ := List.findIdx?_eq_some_iff_findIdx_eq.1 hfind
    have hstart : s.startOf position = startsAt := by
      have hat := List.findIdx_getElem (w := hfind ▸ hp)
      simp only [hfind, decide_eq_true_eq] at hat
      rw [SourceState.startOf, SourceState.bucketAt, List.getD_eq_getElem?_getD,
        List.getElem?_eq_getElem hp]
      exact hat
    have hgrow : s.growIndex position = s := by
      unfold SourceState.growIndex
      rw [Nat.sub_eq_zero_of_le (by rw [h.indexed]; omega)]
      simp
    rw [hgrow]
    have hcell := h.cells position hp trivial
    refine ⟨h.mono fun _ _ => trivial, hp, hstart, hcell.indexed, fun hfalse => ?_,
      fun r hr => hcell.base hr⟩
    rw [h.indexed] at hfalse
    exact absurd hp hfalse
  · rename_i hfind
    obtain ⟨rfl, rfl⟩ := Prod.mk.inj hbucket
    have hstart : ∀ q, q < s.buckets.length → s.startOf q ≠ startsAt := by
      intro q hq heq
      rw [SourceState.startOf, SourceState.bucketAt, List.getD_eq_getElem?_getD,
        List.getElem?_eq_getElem hq] at heq
      have hnot := List.findIdx?_eq_none_iff.1 hfind _ (List.getElem_mem hq)
      rw [decide_eq_false_iff_not] at hnot
      exact hnot heq
    refine ⟨And.left (target_append h hstart rfl rfl rfl rfl), by simp, ?_,
      And.right (target_append h hstart rfl rfl rfl rfl)⟩
    rw [SourceState.startOf, SourceState.bucketAt, List.getD_eq_getElem?_getD,
      List.getElem?_concat_length]
    rfl

theorem growIndex_touchOnce (startsAt : DateTime) (r : BucketProjectResidual) (p : Nat) :
    (s.touchOnce startsAt r).growIndex p = (s.growIndex p).touchOnce startsAt r := by
  unfold SourceState.touchOnce
  change _ = if (s.touched.lookup startsAt).isSome then s.growIndex p
    else { s.growIndex p with touched := s.touched.insert startsAt r }
  split <;> rfl

theorem recordThreadEntry_positions (thread : ThreadId) (p : Nat) (totals : ProjectGroupTotals) :
    ∀ e ∈ s.recordThreadEntry thread p totals, e.bucketPosition = p ∨
      ∃ e' ∈ s.threads thread, e'.bucketPosition = e.bucketPosition := by
  intro e he
  unfold SourceState.recordThreadEntry at he
  split at he
  · obtain ⟨i, hi⟩ := List.mem_iff_getElem?.1 he
    rw [List.getElem?_modify] at hi
    obtain ⟨e', he', rfl⟩ := Option.map_eq_some_iff.1 hi
    refine .inr ⟨e', List.mem_of_getElem? he', ?_⟩
    split <;> rfl
  · rcases (List.mem_orderedInsert _).1 he with rfl | he
    · exact .inl rfl
    · exact .inr ⟨e, he, rfl⟩

theorem acts_record {totals : ProjectGroupTotals} (hp : p < (s.growIndex p).index.length)
    (h : s.record thread p totals = .ok s') :
    Acts p (s.growIndex p) s' ∧ ∃ i : BucketIndex,
      s'.cellAt p = { (s.growIndex p).cellAt p with index := i } ∧
      i.removedGroups = ((s.growIndex p).indexAt p).removedGroups ++ List.replicate
        ((s.bucketAt p).projectGroups.length - ((s.growIndex p).indexAt p).removedGroups.length)
        false ∧
      i.needsCompaction = ((s.growIndex p).indexAt p).needsCompaction ∧
      i.activeTotals = if p < s.index.length then
        ProjectGroupTotals.addTotals ((s.growIndex p).indexAt p).activeTotals totals
      else projectGroupTotals (s.bucketAt p).projectGroups := by
  obtain ⟨bucket, hbucket, h⟩ := bind_ok h
  obtain ⟨-, -, h⟩ := bind_ok h
  obtain rfl : _ = s' := Except.ok.inj h
  have hat : s.bucketAt p = bucket := by
    rw [SourceState.bucketAt, List.getD_eq_getElem?_getD,
      (okOr_ok.1 hbucket : s.buckets[p]? = some bucket)]
    rfl
  obtain ⟨hmodify, hcell⟩ := acts_modifyIndex (s := s.growIndex p) hp fun index => { index with
    residual := if decide (p < s.index.length) then index.residual
      else bucketProjectResidual bucket
    removedGroups := index.removedGroups ++
      List.replicate (bucket.projectGroups.length - index.removedGroups.length) false
    groupPositions := fun t => if t = thread then
      index.groupPositions t ++ [bucket.projectGroups.length - 1] else index.groupPositions t
    activeTotals := if decide (p < s.index.length) then
        ProjectGroupTotals.addTotals index.activeTotals totals
      else projectGroupTotals bucket.projectGroups }
  obtain ⟨hset, hcell'⟩ := acts_setThread (recordThreadEntry_positions thread p totals)
  refine ⟨hmodify.trans hset, _, hcell'.trans hcell, ?_, rfl, ?_⟩
  · rw [hat]
  · rw [hat]
    simp

theorem touchOnce_index (startsAt : DateTime) (r : BucketProjectResidual) :
    (s.touchOnce startsAt r).index = s.index := by
  unfold SourceState.touchOnce
  split <;> rfl

theorem acts_addGroup {t : SourceState} {startsAt : DateTime} {residual : BucketProjectResidual}
    {metrics : SessionUsageMetrics} {g : LocalProjectUsageGroup} {compatible : Bool}
    (hdistinct : Distinct (t.growIndex p)) (hp : p < t.buckets.length)
    (hstart : t.startOf p = startsAt)
    (hs' : s' = (t.touchOnce startsAt residual).modifyBucket p fun bucket =>
      addProjectGroupTotalsToBucket (metricTotals metrics)
        (pushPartialReason duplicateSessionModelBreakdownPartial { bucket with
          projectGroups := bucket.projectGroups ++ [g] })) :
    let u := if compatible then s'
      else s'.modifyBucket p (pushPartialReasonOnce remoteModelCatalogMismatchWarning)
    u.index = t.index ∧ Acts p (t.growIndex p) (u.growIndex p) ∧
      ∃ b, SameUsage (addProjectGroupTotalsToBucket (metricTotals metrics)
          { t.bucketAt p with projectGroups := (t.bucketAt p).projectGroups ++ [g] }) b ∧
        (u.growIndex p).cellAt p = { (t.growIndex p).cellAt p with
          bucket := b
          touched := ((t.growIndex p).cellAt p).touched.or (some residual) } := by
  obtain ⟨htouch, htouched⟩ := acts_touchOnce hdistinct hp residual
  have hstarts : ∀ b : LocalHalfHourBucket, (addProjectGroupTotalsToBucket (metricTotals metrics)
      (pushPartialReason duplicateSessionModelBreakdownPartial { b with
        projectGroups := b.projectGroups ++ [g] })).startsAt = b.startsAt :=
    fun b => pushPartialReasonOnce_startsAt _ _
  obtain ⟨hmodify, hcell⟩ := acts_modifyBucket
    (s := (t.growIndex p).touchOnce ((t.growIndex p).startOf p) residual)
    (by rw [htouch.length]; exact hp) hstarts
  have hgrow : s'.growIndex p = ((t.growIndex p).touchOnce ((t.growIndex p).startOf p)
      residual).modifyBucket p fun bucket =>
        addProjectGroupTotalsToBucket (metricTotals metrics)
          (pushPartialReason duplicateSessionModelBreakdownPartial { bucket with
            projectGroups := bucket.projectGroups ++ [g] }) := by
    have hsame : (t.growIndex p).startOf p = startsAt := hstart
    rw [hs', hsame, ← growIndex_touchOnce]
    rfl
  have husage : ∀ b : LocalHalfHourBucket, SameUsage
      (addProjectGroupTotalsToBucket (metricTotals metrics)
        { b with projectGroups := b.projectGroups ++ [g] })
      (addProjectGroupTotalsToBucket (metricTotals metrics)
        (pushPartialReason duplicateSessionModelBreakdownPartial { b with
          projectGroups := b.projectGroups ++ [g] })) := by
    intro b
    have hplain := addTotals_usage (metricTotals metrics)
      { b with projectGroups := b.projectGroups ++ [g] }
    have hpushed := addTotals_usage (metricTotals metrics)
      (pushPartialReason duplicateSessionModelBreakdownPartial
        { b with projectGroups := b.projectGroups ++ [g] })
    exact ⟨hpushed.tokenUsage.trans hplain.tokenUsage.symm,
      hpushed.estimatedCostUnits.trans hplain.estimatedCostUnits.symm,
      hpushed.apiLongContextExtraCostUnits.trans hplain.apiLongContextExtraCostUnits.symm,
      hpushed.longContextUsageUnknown.trans hplain.longContextUsageUnknown.symm,
      hpushed.callCount.trans hplain.callCount.symm,
      hpushed.projectGroups.trans hplain.projectGroups.symm⟩
  have hindex : s'.index = t.index := by
    rw [hs']
    exact touchOnce_index startsAt residual
  have hbucket : ((t.growIndex p).touchOnce ((t.growIndex p).startOf p) residual).bucketAt p =
      t.bucketAt p := congrArg Cell.bucket htouched
  rw [htouched, hbucket, ← hgrow] at hcell
  rw [← hgrow] at hmodify
  cases compatible with
  | true => exact ⟨hindex, htouch.trans hmodify, _, husage _, hcell⟩
  | false =>
    obtain ⟨hwarn, hwarned⟩ := acts_modifyBucket (s := s'.growIndex p) (p := p)
      (by rw [hmodify.length, htouch.length]; exact hp)
      (pushPartialReasonOnce_startsAt remoteModelCatalogMismatchWarning)
    refine ⟨hindex, (htouch.trans hmodify).trans hwarn, _, (husage _).trans
      (pushPartialReasonOnce_usage remoteModelCatalogMismatchWarning _), hwarned.trans ?_⟩
    have hlast : (s'.growIndex p).bucketAt p = _ := congrArg Cell.bucket hcell
    rw [hcell, hlast]

/-- **A fact added**: its bucket is touched, and the running totals know of its units. -/
theorem sound_addFact {current : ProtocolRevisions} {compatible : Bool} {fact : UsageEventFact}
    (h : Sound source suppressed s) (hrun : s.addFact current compatible fact = .ok s') :
    Sound source suppressed s' := by
  unfold SourceState.addFact at hrun
  generalize (if compatible then fact.metrics
    else maskSessionModelCatalogProjection current fact.metrics) = metrics at hrun
  obtain ⟨⟨t, p⟩, ht, hrun⟩ := bind_ok hrun
  dsimp only at hrun
  obtain ⟨startsAt, -, ht⟩ := bind_ok ht
  obtain ⟨⟨s₁, p₁⟩, hbucket⟩ : ∃ target, s.bucketForFact startsAt metrics = target := ⟨_, rfl⟩
  rw [hbucket] at ht
  obtain ⟨residual, hresidual, ht⟩ := bind_ok ht
  obtain ⟨hgroup, rfl⟩ := Prod.mk.inj (Except.ok.inj ht)
  rw [okOr_ok] at hresidual
  obtain ⟨hsound, hp, hstart, htarget⟩ := bucketForFact_spec h hbucket
  generalize hg : factGroup (s₁.touchOnce startsAt residual).displayLabel fact metrics = g at hgroup
  have hunits : g.apiLongContextExtraCostUnits = (metricTotals metrics).apiLongContextExtraCostUnits
    := by rw [← hg]; rfl
  obtain ⟨hindex, hadd, b, hb, hcell⟩ := acts_addGroup hsound.distinct hp hstart hgroup.symm
  generalize (if compatible then t
    else t.modifyBucket p₁ (pushPartialReasonOnce remoteModelCatalogMismatchWarning)) = u at *
  obtain ⟨hrecord, i, hrecorded, hremoved, hcompaction, htotals⟩ := acts_record
    (by rw [hadd.indexed, hsound.indexed]; exact hp) hrun
  refine hsound.acts (hadd.trans hrecord) hp ?_ fun _ _ => .rfl
  have hat : u.bucketAt p₁ = b := congrArg Cell.bucket hcell
  have hindexAt : (u.growIndex p₁).indexAt p₁ = (s₁.growIndex p₁).indexAt p₁ :=
    congrArg Cell.index hcell
  have husage := (addTotals_usage (metricTotals metrics) { s₁.bucketAt p₁ with
    projectGroups := (s₁.bucketAt p₁).projectGroups ++ [g] }).trans hb
  have htouched : ((s₁.growIndex p₁).cellAt p₁).touched = s₁.touched.lookup startsAt :=
    congrArg s₁.touched.lookup hstart
  rw [hrecorded, hcell]
  refine CellSound.add (g := g) htarget.indexed ⟨husage.projectGroups, ?_, ?_, ?_, ?_, ?_, ?_⟩
    htarget.base
  · rw [hunits]
    exact husage.apiLongContextExtraCostUnits
  · refine husage.longContextUsageUnknown.trans ?_
    exact congrArg (fun units : Option Nat => (s₁.bucketAt p₁).longContextUsageUnknown ||
      units.isNone) husage.apiLongContextExtraCostUnits.symm
  · refine hremoved.trans ?_
    rw [hindexAt, hat, husage.projectGroups]
    rfl
  · exact hcompaction.trans (congrArg BucketIndex.needsCompaction hindexAt)
  · change i.activeTotals.apiLongContextExtraCostUnits = none ↔ _
    rw [htotals, hindex, hindexAt, hat, husage.projectGroups, hunits]
    split
    · exact addOptionalUnits_none
    · rename_i hnew
      obtain ⟨hempty, hfresh⟩ := htarget.fresh hnew
      have hgroups : (s₁.bucketAt p₁).projectGroups = [] := hempty
      rw [hgroups, projectGroupTotals_units, hfresh]
      simp [hunits]
  · change (((s₁.growIndex p₁).cellAt p₁).touched.or (some residual)).isSome ∧
      ((s₁.growIndex p₁).cellAt p₁).touched.or (some residual) =
        ((s₁.growIndex p₁).cellAt p₁).touched.or (bucketProjectResidual (s₁.bucketAt p₁))
    rw [htouched]
    cases hlookup : s₁.touched.lookup startsAt with
    | some r => exact ⟨rfl, rfl⟩
    | none =>
      rw [hlookup, Option.none_or] at hresidual
      rw [hresidual]
      exact ⟨rfl, rfl⟩

end

end Replica
