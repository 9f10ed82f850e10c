import UsageMonit.Replica.Proof.Keeps
import UsageMonit.Replica.Steps

/-!
# The cell of a bucket

A step of a resolution works on one bucket: on its *cell*, which is the bucket with its index and
the residual it is kept with. `Acts p s s'` says that only the cell at `p` changes. Each operation
on a source acts at its position, with a lemma for the new cell there; marking the groups of a
thread is `Marked`, which says what later rebuilds need to know of it.
-/

namespace Replica

open Fallible History

structure Cell where
  bucket : LocalHalfHourBucket
  index : BucketIndex
  touched : Option BucketProjectResidual

namespace SourceState

def cellAt (s : SourceState) (position : Nat) : Cell where
  bucket := s.bucketAt position
  index := s.indexAt position
  touched := s.touched.lookup (s.startOf position)

end SourceState

/-! ## Reading after a change -/

theorem getD_modify {α : Type} (l : List α) {p : Nat} (hp : p < l.length) (f : α → α) (d : α)
    (q : Nat) : (l.modify p f).getD q d = if q = p then f (l.getD q d) else l.getD q d := by
  rw [List.getD_eq_getElem?_getD, List.getD_eq_getElem?_getD, List.getElem?_modify]
  by_cases hq : q = p
  · subst hq
    simp [hp]
  · simp [hq, Ne.symm hq]

section
variable {s : SourceState} {p q : Nat}

theorem bucketAt_modifyBucket (hp : p < s.buckets.length)
    (f : LocalHalfHourBucket → LocalHalfHourBucket) (q : Nat) :
    (s.modifyBucket p f).bucketAt q = if q = p then f (s.bucketAt q) else s.bucketAt q :=
  getD_modify s.buckets hp f default q

theorem indexAt_modifyIndex (hp : p < s.index.length) (f : BucketIndex → BucketIndex) (q : Nat) :
    (s.modifyIndex p f).indexAt q = if q = p then f (s.indexAt q) else s.indexAt q :=
  getD_modify s.index hp f {} q

theorem startOf_modifyBucket {f : LocalHalfHourBucket → LocalHalfHourBucket}
    (hf : ∀ b, (f b).startsAt = b.startsAt) (p q : Nat) :
    (s.modifyBucket p f).startOf q = s.startOf q := by
  unfold SourceState.startOf SourceState.bucketAt SourceState.modifyBucket
  rw [List.getD_eq_getElem?_getD, List.getD_eq_getElem?_getD, List.getElem?_modify]
  cases s.buckets[q]? with
  | none => rfl
  | some b => by_cases hq : p = q <;> simp [hq, hf]

end

/-! ## Steps at one position -/

def Distinct (s : SourceState) : Prop :=
  ∀ p q, p < s.buckets.length → q < s.buckets.length → s.startOf p = s.startOf q → p = q

/-- A step that changes the cell at `p` only. -/
structure Acts (p : Nat) (s s' : SourceState) : Prop where
  length : s'.buckets.length = s.buckets.length
  indexed : s'.index.length = s.index.length
  starts : ∀ q, s'.startOf q = s.startOf q
  others : ∀ q, q < s.buckets.length → q ≠ p → s'.cellAt q = s.cellAt q
  touched : ∀ t, (s'.touched.lookup t).isSome → (s.touched.lookup t).isSome ∨ t = s.startOf p
  threads : ∀ t, ∀ e ∈ s'.threads t, e.bucketPosition = p ∨
    ∃ e' ∈ s.threads t, e'.bucketPosition = e.bucketPosition

namespace Acts

variable {p : Nat} {s s' s'' : SourceState}

theorem refl (p : Nat) (s : SourceState) : Acts p s s :=
  ⟨rfl, rfl, fun _ => rfl, fun _ _ _ => rfl, fun _ => .inl, fun _ e he => .inr ⟨e, he, rfl⟩⟩

theorem trans (h : Acts p s s') (h' : Acts p s' s'') : Acts p s s'' where
  length := h'.length.trans h.length
  indexed := h'.indexed.trans h.indexed
  starts q := (h'.starts q).trans (h.starts q)
  others q hq hne := (h'.others q (h.length ▸ hq) hne).trans (h.others q hq hne)
  touched t ht := by
    rcases h'.touched t ht with ht | rfl
    · exact h.touched t ht
    · exact .inr (h.starts p)
  threads t e he := by
    rcases h'.threads t e he with he | ⟨e', he', heq⟩
    · exact .inl he
    · rcases h.threads t e' he' with hp | ⟨e'', he'', heq'⟩
      · exact .inl (heq.symm.trans hp)
      · exact .inr ⟨e'', he'', heq'.trans heq⟩

theorem distinct (h : Acts p s s') (hs : Distinct s) : Distinct s' := by
  intro q q' hq hq' heq
  rw [h.starts, h.starts] at heq
  exact hs q q' (h.length ▸ hq) (h.length ▸ hq') heq

end Acts

section
variable {s : SourceState} {p : Nat}

theorem acts_modifyBucket (hp : p < s.buckets.length)
    {f : LocalHalfHourBucket → LocalHalfHourBucket} (hf : ∀ b, (f b).startsAt = b.startsAt) :
    Acts p s (s.modifyBucket p f) ∧
      (s.modifyBucket p f).cellAt p = { s.cellAt p with bucket := f (s.bucketAt p) } := by
  have hstarts := startOf_modifyBucket (s := s) hf p
  refine ⟨⟨List.length_modify .., rfl, hstarts, fun q _ hne => ?_, fun _ => .inl,
    fun _ e he => .inr ⟨e, he, rfl⟩⟩, ?_⟩
  · unfold SourceState.cellAt
    rw [bucketAt_modifyBucket hp, if_neg hne, hstarts]
    rfl
  · unfold SourceState.cellAt
    rw [bucketAt_modifyBucket hp, if_pos rfl, hstarts]
    rfl

theorem acts_modifyIndex (hp : p < s.index.length) (f : BucketIndex → BucketIndex) :
    Acts p s (s.modifyIndex p f) ∧
      (s.modifyIndex p f).cellAt p = { s.cellAt p with index := f (s.indexAt p) } := by
  refine ⟨⟨rfl, List.length_modify .., fun _ => rfl, fun q _ hne => ?_, fun _ => .inl,
    fun _ e he => .inr ⟨e, he, rfl⟩⟩, ?_⟩
  · unfold SourceState.cellAt
    rw [indexAt_modifyIndex hp, if_neg hne]
    rfl
  · unfold SourceState.cellAt
    rw [indexAt_modifyIndex hp, if_pos rfl]
    rfl

theorem acts_touch (hs : Distinct s) (hp : p < s.buckets.length) (r : BucketProjectResidual) :
    Acts p s (s.touch (s.startOf p) r) ∧
      (s.touch (s.startOf p) r).cellAt p = { s.cellAt p with touched := some r } := by
  refine ⟨⟨rfl, rfl, fun _ => rfl, fun q hq hne => ?_, fun t ht => ?_,
    fun _ e he => .inr ⟨e, he, rfl⟩⟩, ?_⟩
  · have hstart : s.startOf q ≠ s.startOf p := fun heq => hne (hs q p hq hp heq)
    unfold SourceState.cellAt SourceState.touch
    congr 1
    exact AList.lookup_insert_ne hstart
  · by_cases heq : t = s.startOf p
    · exact .inr heq
    · left
      rwa [SourceState.touch, AList.lookup_insert_ne heq] at ht
  · unfold SourceState.cellAt SourceState.touch
    congr 1
    exact AList.lookup_insert s.touched

theorem acts_touchOnce (hs : Distinct s) (hp : p < s.buckets.length) (r : BucketProjectResidual) :
    Acts p s (s.touchOnce (s.startOf p) r) ∧ (s.touchOnce (s.startOf p) r).cellAt p =
      { s.cellAt p with touched := (s.cellAt p).touched.or (some r) } := by
  unfold SourceState.touchOnce
  split
  · rename_i hsome
    refine ⟨.refl p s, ?_⟩
    have hlookup : ∃ r', (s.cellAt p).touched = some r' := Option.isSome_iff_exists.1 hsome
    obtain ⟨r', hr'⟩ := hlookup
    rw [hr', Option.some_or, ← hr']
  · rename_i hnone
    have hlookup : (s.cellAt p).touched = none := by
      change s.touched.lookup (s.startOf p) = none
      simpa using hnone
    rw [hlookup, Option.none_or]
    exact acts_touch hs hp r

theorem acts_setThread {thread : ThreadId} {entries : List IndexedThreadBucket}
    (h : ∀ e ∈ entries, e.bucketPosition = p ∨
      ∃ e' ∈ s.threads thread, e'.bucketPosition = e.bucketPosition) :
    Acts p s (s.setThread thread entries) ∧ (s.setThread thread entries).cellAt p = s.cellAt p := by
  refine ⟨⟨rfl, rfl, fun _ => rfl, fun _ _ _ => rfl, fun _ => .inl, fun t e he => ?_⟩, rfl⟩
  unfold SourceState.setThread at he
  dsimp only at he
  split at he
  · rename_i heq
    subst heq
    exact h e he
  · exact .inr ⟨e, he, rfl⟩

end

/-! ## Marking the groups of threads -/

namespace Cell

/-- A group that is not marked has unknown units. -/
def Unknown (c : Cell) : Prop :=
  ∃ entry ∈ c.bucket.projectGroups.zipIdx, c.index.removedGroups.getD entry.2 false = false ∧
    entry.1.apiLongContextExtraCostUnits = none

/-- Some groups of some threads are marked; nothing else of the cell matters. -/
structure Marked (threads : List ThreadId) (c c' : Cell) : Prop where
  bucket : c'.bucket = c.bucket
  touched : c'.touched = c.touched
  residual : c'.index.residual = c.index.residual
  positions : c'.index.groupPositions = c.index.groupPositions
  length : c'.index.removedGroups.length = c.index.removedGroups.length
  kept : ∀ q, c.index.removedGroups.getD q false = true →
    c'.index.removedGroups.getD q false = true
  marks : ∀ q, c'.index.removedGroups.getD q false = true →
    c.index.removedGroups.getD q false = true ∨
      ∃ thread ∈ threads, q ∈ c.index.groupPositions thread
  totals : c'.index.activeTotals.apiLongContextExtraCostUnits = none ↔
    c.index.activeTotals.apiLongContextExtraCostUnits = none
  compaction : c'.index.needsCompaction = false →
    c.index.needsCompaction = false ∧ c'.index.removedGroups = c.index.removedGroups

namespace Marked

variable {threads threads' : List ThreadId} {c c' c'' : Cell}

theorem refl (threads : List ThreadId) (c : Cell) : Marked threads c c :=
  ⟨rfl, rfl, rfl, rfl, rfl, fun _ => id, fun _ => .inl, .rfl, fun h => ⟨h, rfl⟩⟩

theorem trans (h : Marked threads c c') (h' : Marked threads' c' c'') :
    Marked (threads ++ threads') c c'' where
  bucket := h'.bucket.trans h.bucket
  touched := h'.touched.trans h.touched
  residual := h'.residual.trans h.residual
  positions := h'.positions.trans h.positions
  length := h'.length.trans h.length
  kept q hq := h'.kept q (h.kept q hq)
  marks q hq := by
    rcases h'.marks q hq with hq | ⟨thread, hthread, hq⟩
    · refine (h.marks q hq).imp_right fun ⟨thread, hthread, hq⟩ => ⟨thread, ?_, hq⟩
      exact List.mem_append_left threads' hthread
    · exact .inr ⟨thread, List.mem_append_right threads hthread, h.positions ▸ hq⟩
  totals := h'.totals.trans h.totals
  compaction hq := by
    obtain ⟨hq, heq⟩ := h'.compaction hq
    obtain ⟨hq, heq'⟩ := h.compaction hq
    exact ⟨hq, heq.trans heq'⟩

theorem unknown (h : Marked threads c c') (hc : c'.Unknown) : c.Unknown := by
  obtain ⟨entry, hentry, hmark, hunits⟩ := hc
  refine ⟨entry, h.bucket ▸ hentry, ?_, hunits⟩
  by_contra hne
  rw [h.kept entry.2 (by simpa using hne)] at hmark
  cases hmark

end Marked

end Cell

theorem checkedDeltaFrom_units {t removed t' : ProjectGroupTotals}
    (h : ProjectGroupTotals.checkedDeltaFrom t removed = some t') :
    t'.apiLongContextExtraCostUnits = none ↔ t.apiLongContextExtraCostUnits = none := by
  obtain ⟨tokenUsage, -, h⟩ := Option.bind_eq_some_iff.1 h
  obtain ⟨estimatedCostUnits, -, h⟩ := Option.bind_eq_some_iff.1 h
  obtain ⟨units, hunits, h⟩ := Option.bind_eq_some_iff.1 h
  obtain ⟨apiEquivalentCost, -, h⟩ := Option.bind_eq_some_iff.1 h
  obtain ⟨callCount, -, h⟩ := Option.bind_eq_some_iff.1 h
  obtain rfl := Option.some.inj h
  change units = none ↔ _
  unfold unitsDelta at hunits
  split at hunits
  · rename_i total part htotal hpart
    obtain ⟨left, -, rfl⟩ := Option.map_eq_some_iff.1 hunits
    simp [htotal]
  · rename_i htotal
    obtain rfl := Option.some.inj hunits
    simp [htotal]
  · cases hunits

theorem markRemoved_kept (groups : List LocalProjectUsageGroup) (positions : List Nat)
    (removed : List Bool) :
    (SourceState.markRemoved groups positions removed).1.length = removed.length ∧
      ∀ q, removed.getD q false = true →
        (SourceState.markRemoved groups positions removed).1.getD q false = true := by
  have hfold : ∀ (positions : List Nat) (state : List Bool × ProjectGroupTotals × Bool),
      let marks := (positions.foldl (fun state position =>
        if state.1.getD position false then state
        else (state.1.set position true,
          ProjectGroupTotals.addGroup state.2.1 (groups.getD position {}), true)) state).1
      marks.length = state.1.length ∧
        ∀ q, state.1.getD q false = true → marks.getD q false = true := by
    intro positions
    induction positions with
    | nil => exact fun state => ⟨rfl, fun _ => id⟩
    | cons p positions ih =>
      intro state
      rw [List.foldl_cons]
      split
      · exact ih state
      · rename_i hp
        obtain ⟨hlength, hkept⟩ := ih (state.1.set p true,
          ProjectGroupTotals.addGroup state.2.1 (groups.getD p {}), true)
        refine ⟨by simpa using hlength, fun q hq => hkept q ?_⟩
        have hne : p ≠ q := by
          rintro rfl
          exact hp hq
        simpa [List.getD_eq_getElem?_getD, List.getElem?_set_ne hne] using hq
  exact hfold positions _

section
variable {s s' : SourceState} {thread : ThreadId} {p : Nat}

theorem acts_tombstone (hp : p < s.index.length)
    (h : s.tombstoneProjectGroups thread p = .ok s') :
    Acts p s s' ∧ Cell.Marked [thread] (s.cellAt p) (s'.cellAt p) := by
  unfold SourceState.tombstoneProjectGroups at h
  dsimp only at h
  split at h
  · obtain ⟨totals, htotals, h⟩ := bind_ok h
    obtain rfl : _ = s' := Except.ok.inj h
    obtain ⟨hacts, hcell⟩ := acts_modifyIndex hp fun index =>
      { index with
        removedGroups := (SourceState.markRemoved (s.bucketAt p).projectGroups
          ((s.indexAt p).groupPositions thread) (s.indexAt p).removedGroups).1
        activeTotals := totals
        needsCompaction := true }
    obtain ⟨hlength, hkept⟩ := markRemoved_kept (s.bucketAt p).projectGroups
      ((s.indexAt p).groupPositions thread) (s.indexAt p).removedGroups
    refine ⟨hacts, ?_⟩
    rw [hcell]
    exact ⟨rfl, rfl, rfl, rfl, hlength, hkept, fun q hq =>
      (markRemoved_getD _ _ _ hq).imp_right fun hq => ⟨thread, List.mem_singleton_self thread, hq⟩,
      checkedDeltaFrom_units (okOr_ok.1 htotals), fun hfalse => absurd hfalse (by simp)⟩
  · obtain rfl : s = s' := Except.ok.inj h
    exact ⟨.refl p s, .refl _ _⟩

theorem acts_deactivate (hp : p < s.index.length)
    (h : s.deactivateThreadBucket thread p = .ok s') :
    Acts p s s' ∧ Cell.Marked [thread] (s.cellAt p) (s'.cellAt p) := by
  unfold SourceState.deactivateThreadBucket at h
  split at h
  · obtain rfl : s = s' := Except.ok.inj h
    exact ⟨.refl p s, .refl _ _⟩
  · split at h
    · obtain ⟨t, ht, h⟩ := bind_ok h
      obtain rfl : _ = s' := Except.ok.inj h
      obtain ⟨hacts, hmarked⟩ := acts_tombstone hp ht
      have hentries : ∀ e ∈ (t.threads thread).modify ‹Nat› fun entry =>
          { entry with active := false, totals := {} }, e.bucketPosition = p ∨
            ∃ e' ∈ t.threads thread, e'.bucketPosition = e.bucketPosition := by
        intro e he
        obtain ⟨i, hi⟩ := List.mem_iff_getElem?.1 he
        rw [List.getElem?_modify] at hi
        obtain ⟨e', he', rfl⟩ := Option.map_eq_some_iff.1 hi
        refine .inr ⟨e', List.mem_of_getElem? he', ?_⟩
        split <;> rfl
      obtain ⟨hset, hcell⟩ := acts_setThread hentries
      refine ⟨hacts.trans hset, ?_⟩
      rw [hcell]
      exact hmarked
    · obtain rfl : s = s' := Except.ok.inj h
      exact ⟨.refl p s, .refl _ _⟩

end

end Replica
