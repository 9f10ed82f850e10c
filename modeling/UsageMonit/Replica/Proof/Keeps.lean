import UsageMonit.Replica.Resolve

/-!
# What a step keeps of a thread

A group is only removed through the index positions of a thread, so the groups of another thread
stay: `Keeps` says that of two states of a source, with the invariant that carries it (`Tracked`).
Each operation on a source keeps the threads it is not about (`keeps_removeReplicaGroup`,
`keeps_preserve`, `keeps_addFact`), the index of a new state is right (`buildSourceState_tracked`),
and the end of a resolution drops marked groups only (`finish_groups`).
-/

namespace Replica

open Fallible Time Protocol History

/-! ## The groups of a thread -/

variable {f : LocalHalfHourBucket → LocalHalfHourBucket} {k : Nat} {g : LocalProjectUsageGroup}

def groupLists (s : SourceState) : List (List LocalProjectUsageGroup) :=
  s.buckets.map (·.projectGroups)

/-- The part of the index that says which groups are removed. -/
abbrev GroupMarks := (ThreadId → List Nat) × List Bool

def groupMarks (s : SourceState) : List GroupMarks :=
  s.index.map fun index => (index.groupPositions, index.removedGroups)

def ofThread (thread : ThreadId) (groups : List LocalProjectUsageGroup) :
    List LocalProjectUsageGroup :=
  groups.filter fun group => group.threadId = thread

def groupsOf (thread : ThreadId) (s : SourceState) : List LocalProjectUsageGroup :=
  (groupLists s).flatMap (ofThread thread)

/-- Index positions point at groups of their thread, and no group of `T` is removed. -/
structure Tracked (T : ThreadId) (groups : List (List LocalProjectUsageGroup))
    (marks : List GroupMarks) : Prop where
  positions : ∀ k m, marks[k]? = some m → ∀ thread, ∀ p ∈ m.1 thread,
    ∃ g, (groups.getD k [])[p]? = some g ∧ g.threadId = thread
  kept : ∀ k m, marks[k]? = some m → ∀ p, m.2.getD p false = true →
    ∀ g, (groups.getD k [])[p]? = some g → g.threadId ≠ T

/-- A step that leaves the groups of a thread as they are. -/
structure Keeps (T : ThreadId) (s s' : SourceState) : Prop where
  tracked : Tracked T (groupLists s) (groupMarks s) → Tracked T (groupLists s') (groupMarks s')
  groups : Tracked T (groupLists s) (groupMarks s) → groupsOf T s' = groupsOf T s

theorem Keeps.refl (T : ThreadId) (s : SourceState) : Keeps T s s := ⟨id, fun _ => rfl⟩

theorem Keeps.trans {T : ThreadId} {s s' s'' : SourceState} (h : Keeps T s s')
    (h' : Keeps T s' s'') : Keeps T s s'' :=
  ⟨fun ht => h'.tracked (h.tracked ht), fun ht => (h'.groups (h.tracked ht)).trans (h.groups ht)⟩

theorem Keeps.of_eq {T : ThreadId} {s s' : SourceState} (hgroups : groupLists s' = groupLists s)
    (hmarks : groupMarks s' = groupMarks s) : Keeps T s s' :=
  ⟨fun ht => by rwa [hgroups, hmarks], fun _ => by rw [groupsOf, groupsOf, hgroups]⟩

/-! ## Steps that only touch other fields -/

theorem map_modify_eq {α β : Type} {g : α → β} {f : α → α} (h : ∀ a, g (f a) = g a) (k : Nat)
    (l : List α) : (l.modify k f).map g = l.map g := by
  refine List.ext_getElem? fun i => ?_
  rw [List.getElem?_map, List.getElem?_map, List.getElem?_modify]
  cases l[i]? with
  | none => rfl
  | some a => by_cases hi : k = i <;> simp [hi, h]

section
variable {T : ThreadId} {s s' : SourceState}

theorem keeps_modifyBucket (h : ∀ b, (f b).projectGroups = b.projectGroups) (k : Nat) :
    Keeps T s (s.modifyBucket k f) :=
  .of_eq (map_modify_eq h k s.buckets) rfl

theorem keeps_modifyIndex {f : BucketIndex → BucketIndex}
    (h : ∀ i, (f i).groupPositions = i.groupPositions ∧ (f i).removedGroups = i.removedGroups)
    (k : Nat) : Keeps T s (s.modifyIndex k f) :=
  .of_eq rfl (map_modify_eq (fun i => Prod.ext (h i).1 (h i).2) k s.index)

theorem keeps_touchOnce (t : DateTime) (r : BucketProjectResidual) :
    Keeps T s (s.touchOnce t r) := by
  unfold SourceState.touchOnce
  split <;> exact .of_eq rfl rfl

theorem keeps_touch (t : DateTime) (r : BucketProjectResidual) : Keeps T s (s.touch t r) :=
  .of_eq rfl rfl

theorem keeps_setThread (thread : ThreadId) (entries : List IndexedThreadBucket) :
    Keeps T s (s.setThread thread entries) := .of_eq rfl rfl

theorem keeps_markBucketTransparent (k : Nat) : Keeps T s (s.markBucketTransparent k) := by
  unfold SourceState.markBucketTransparent
  split
  · exact .of_eq rfl (map_modify_eq (fun _ => by rfl) k s.index)
  · exact keeps_modifyIndex (fun _ => ⟨by rfl, by rfl⟩) k

@[simp] theorem pushPartialReason_groups (reason : String) (b : LocalHalfHourBucket) :
    (pushPartialReason reason b).projectGroups = b.projectGroups := rfl

@[simp] theorem pushPartialReasonOnce_groups (reason : String) (b : LocalHalfHourBucket) :
    (pushPartialReasonOnce reason b).projectGroups = b.projectGroups := by
  unfold pushPartialReasonOnce
  split <;> rfl

@[simp] theorem rebuild_groups (r : BucketProjectResidual) (t : ProjectGroupTotals)
    (b : LocalHalfHourBucket) :
    (rebuildBucketFromProjectGroupTotals r t b).projectGroups = b.projectGroups := by
  simp [rebuildBucketFromProjectGroupTotals]

@[simp] theorem addTotals_groups (t : ProjectGroupTotals) (b : LocalHalfHourBucket) :
    (addProjectGroupTotalsToBucket t b).projectGroups = b.projectGroups := by
  simp [addProjectGroupTotalsToBucket]

theorem keeps_ensureAuthorityBucket (k : Nat) : Keeps T s (s.ensureAuthorityBucket k) := by
  unfold SourceState.ensureAuthorityBucket
  split
  · split
    · exact .of_eq rfl (map_modify_eq (fun _ => by rfl) k s.index)
    · split
      · exact .refl T s
      · exact (keeps_modifyBucket (fun b => by rfl) k).trans
          (keeps_modifyIndex (fun _ => ⟨by rfl, by rfl⟩) k)
  · exact .refl T s

theorem keeps_foldl {α : Type} {f : SourceState → α → SourceState}
    (h : ∀ s a, Keeps T s (f s a)) (l : List α) : Keeps T s (l.foldl f s) := by
  induction l generalizing s with
  | nil => exact .refl T s
  | cons a l ih => exact (h s a).trans ih

theorem keeps_ensureAuthority (a b : DateTime) :
    Keeps T s (s.ensureAuthorityProjectConsistency a b) :=
  keeps_foldl (fun _ k => keeps_ensureAuthorityBucket k) _

theorem keeps_markUnhandled (thread : ThreadId) (a b : DateTime)
    (ranges : List (DateTime × DateTime)) :
    Keeps T s (s.markUnhandledAuthorityLowerBound thread a b ranges) := by
  refine keeps_foldl (fun s entry => ?_) _
  split
  · exact keeps_modifyBucket (fun b => by simp) _
  · exact .refl T s

/-! ## Marking groups -/

theorem markRemoved_getD (groups : List LocalProjectUsageGroup) (positions : List Nat)
    (removed : List Bool) {p : Nat}
    (h : (SourceState.markRemoved groups positions removed).1.getD p false = true) :
    removed.getD p false = true ∨ p ∈ positions := by
  have hfold : ∀ (positions : List Nat) (state : List Bool × ProjectGroupTotals × Bool),
      (positions.foldl (fun state position =>
        if state.1.getD position false then state
        else (state.1.set position true,
          ProjectGroupTotals.addGroup state.2.1 (groups.getD position {}), true))
        state).1.getD p false = true → state.1.getD p false = true ∨ p ∈ positions := by
    intro positions
    induction positions with
    | nil => exact fun state h => .inl h
    | cons q positions ih =>
      intro state h
      rw [List.foldl_cons] at h
      rcases ih _ h with h | h
      · split at h
        · exact .inl h
        · by_cases hq : q = p
          · exact .inr (hq ▸ List.mem_cons_self)
          · rw [List.getD_eq_getElem?_getD, List.getElem?_set_ne hq,
              ← List.getD_eq_getElem?_getD] at h
            exact .inl h
      · exact .inr (List.mem_cons_of_mem q h)
  exact hfold positions _ h

theorem bucketAt_groups (s : SourceState) (k : Nat) :
    (s.bucketAt k).projectGroups = (groupLists s).getD k [] := by
  unfold SourceState.bucketAt groupLists
  rw [List.getD_eq_getElem?_getD, List.getD_eq_getElem?_getD, List.getElem?_map]
  cases s.buckets[k]? <;> rfl

/-- **Marking the groups of another thread.** -/
theorem keeps_tombstone {thread : ThreadId} (hne : thread ≠ T)
    (h : s.tombstoneProjectGroups thread k = .ok s') : Keeps T s s' := by
  unfold SourceState.tombstoneProjectGroups at h
  dsimp only at h
  split at h
  · obtain ⟨totals, -, h⟩ := bind_ok h
    obtain rfl : _ = s' := Except.ok.inj h
    have hmarks : ∀ i, (groupMarks (s.modifyIndex k fun index => { index with
          removedGroups := (SourceState.markRemoved (s.bucketAt k).projectGroups
            ((s.indexAt k).groupPositions thread) (s.indexAt k).removedGroups).1
          activeTotals := totals
          needsCompaction := true }))[i]? =
        if k = i then (groupMarks s)[i]?.map fun m => (m.1,
          (SourceState.markRemoved (s.bucketAt k).projectGroups
            ((s.indexAt k).groupPositions thread) (s.indexAt k).removedGroups).1)
        else (groupMarks s)[i]? := by
      intro i
      unfold groupMarks SourceState.modifyIndex
      rw [List.getElem?_map, List.getElem?_map, List.getElem?_modify]
      by_cases hi : k = i
      · subst hi
        cases s.index[k]? <;> simp
      · cases s.index[i]? <;> simp [hi]
    refine ⟨fun ht => ⟨fun i m hm => ?_, fun i m hm p hp g hg => ?_⟩, fun _ => rfl⟩
    · rw [hmarks] at hm
      by_cases hi : k = i
      · rw [if_pos hi] at hm
        obtain ⟨m', hm', rfl⟩ := Option.map_eq_some_iff.1 hm
        exact ht.positions i m' hm'
      · rw [if_neg hi] at hm
        exact ht.positions i m hm
    · rw [hmarks] at hm
      by_cases hi : k = i
      · subst hi
        rw [if_pos rfl] at hm
        obtain ⟨m', hm', rfl⟩ := Option.map_eq_some_iff.1 hm
        have hindex : m' = ((s.indexAt k).groupPositions, (s.indexAt k).removedGroups) := by
          unfold groupMarks at hm'
          rw [List.getElem?_map] at hm'
          obtain ⟨index, hindex, rfl⟩ := Option.map_eq_some_iff.1 hm'
          rw [SourceState.indexAt, List.getD_eq_getElem?_getD, hindex]
          rfl
        rcases markRemoved_getD _ _ _ hp with hp | hp
        · exact ht.kept k m' hm' p (hindex ▸ hp) g hg
        · obtain ⟨g', hg', hthread⟩ := ht.positions k m' hm' thread p (hindex ▸ hp)
          have hsame : g' = g := Option.some.inj (hg'.symm.trans hg)
          rw [← hsame, hthread]
          exact hne
      · rw [if_neg hi] at hm
        exact ht.kept i m hm p hp g hg
  · obtain rfl : s = s' := Except.ok.inj h
    exact .refl T s

theorem keeps_deactivate {thread : ThreadId} (hne : thread ≠ T)
    (h : s.deactivateThreadBucket thread k = .ok s') : Keeps T s s' := by
  unfold SourceState.deactivateThreadBucket at h
  split at h
  · obtain rfl : s = s' := Except.ok.inj h
    exact .refl T s
  · split at h
    · obtain ⟨t, ht, h⟩ := bind_ok h
      obtain rfl : _ = s' := Except.ok.inj h
      exact (keeps_tombstone hne ht).trans (keeps_setThread _ _)
    · obtain rfl : s = s' := Except.ok.inj h
      exact .refl T s

/-! ## Removing and suppressing a thread -/

section
variable {thread : ThreadId} (hne : thread ≠ T)
include hne

theorem keeps_removeReplicaGroup {offset : Nat}
    (h : SourceState.removeReplicaGroup thread s offset = .ok s') : Keeps T s s' := by
  unfold SourceState.removeReplicaGroup at h
  split at h
  · obtain rfl : s = s' := Except.ok.inj h
    exact .refl T s
  · split at h
    · obtain ⟨residual, -, h⟩ := bind_ok h
      obtain ⟨u, hu, h⟩ := bind_ok h
      obtain rfl : _ = s' := Except.ok.inj h
      refine (keeps_touchOnce _ _).trans ((keeps_deactivate hne hu).trans ?_)
      refine keeps_modifyBucket (fun b => ?_) _
      split <;> simp
    · obtain rfl : s = s' := Except.ok.inj h
      exact .refl T s

theorem keeps_preserve (hT : T ≠ "")
    (h : s.preserveUnrelatedProjectGroupsInBucket k thread = .ok s') : Keeps T s s' := by
  obtain ⟨t, ht, h⟩ := bind_ok h
  obtain ⟨u, hu, h⟩ := bind_ok h
  obtain rfl : _ = s' := Except.ok.inj h
  refine (keeps_touch _ _).trans ((keeps_tombstone hT.symm ht).trans
    ((keeps_deactivate hne hu).trans ((keeps_markBucketTransparent k).trans ?_)))
  refine keeps_modifyBucket (fun b => ?_) k
  simp

theorem keeps_suppressThreadBucket (hT : T ≠ "") {selection : ReplicaBucketSelection}
    {offset : Nat} (h : s.suppressThreadBucket thread selection offset = .ok s') :
    Keeps T s s' := by
  unfold SourceState.suppressThreadBucket at h
  split at h
  · obtain rfl : s = s' := Except.ok.inj h
    exact .refl T s
  · split at h
    · exact keeps_preserve hne hT h
    · obtain rfl : s = s' := Except.ok.inj h
      exact .refl T s

theorem keeps_suppressOpaqueBucket (hT : T ≠ "") {selection : ReplicaBucketSelection}
    (h : s.suppressOpaqueBucket thread selection k = .ok s') : Keeps T s s' := by
  unfold SourceState.suppressOpaqueBucket at h
  split at h
  · split at h
    · obtain rfl : _ = s' := Except.ok.inj h
      exact keeps_markBucketTransparent k
    · exact keeps_preserve hne hT h
  · obtain rfl : s = s' := Except.ok.inj h
    exact .refl T s

end

/-! ## Facts of another thread -/

theorem Tracked.append_group {T : ThreadId} {groups groups' : List (List LocalProjectUsageGroup)}
    {marks : List GroupMarks} (ht : Tracked T groups marks) (hg : g.threadId ≠ T)
    (hgroups : ∀ i, groups'.getD i [] = groups.getD i [] ++ if i = k then [g] else []) :
    Tracked T groups' marks := by
  refine ⟨fun i m hm thread p hp => ?_, fun i m hm p hp g' hg' => ?_⟩
  · obtain ⟨g', hg', hthread⟩ := ht.positions i m hm thread p hp
    refine ⟨g', ?_, hthread⟩
    rw [hgroups, List.getElem?_append_left (List.getElem?_eq_some_iff.1 hg').1, hg']
  · rw [hgroups] at hg'
    by_cases hlt : p < (groups.getD i []).length
    · rw [List.getElem?_append_left hlt] at hg'
      exact ht.kept i m hm p hp g' hg'
    · rw [List.getElem?_append_right (not_lt.1 hlt)] at hg'
      by_cases hi : i = k
      · rw [if_pos hi] at hg'
        obtain rfl := List.mem_singleton.1 (List.mem_of_getElem? hg')
        exact hg
      · rw [if_neg hi] at hg'
        cases hg'

/-- What adding a fact does to the groups: its group comes last in one bucket. -/
structure Appended (g : LocalProjectUsageGroup) (k : Nat) (s s' : SourceState) : Prop where
  marks : groupMarks s' = groupMarks s
  groups : ∀ i, (groupLists s').getD i [] =
    (groupLists s).getD i [] ++ if i = k then [g] else []
  flat : ∀ T, g.threadId ≠ T → groupsOf T s' = groupsOf T s

theorem groupsOf_modify (hf : ∀ b, (f b).projectGroups = b.projectGroups ++ [g]) (k : Nat)
    (hg : g.threadId ≠ T) : groupsOf T (s.modifyBucket k f) = groupsOf T s := by
  have hlists : groupLists (s.modifyBucket k f) = (groupLists s).modify k (· ++ [g]) := by
    unfold groupLists SourceState.modifyBucket
    refine List.ext_getElem? fun i => ?_
    rw [List.getElem?_map, List.getElem?_modify, List.getElem?_modify, List.getElem?_map]
    cases s.buckets[i]? with
    | none => rfl
    | some b => by_cases hi : k = i <;> simp [hi, hf]
  unfold groupsOf
  rw [hlists, List.flatMap_def, List.flatMap_def, map_modify_eq]
  intro groups
  simp [ofThread, hg]

theorem groupLists_getD_modify (hf : ∀ b, (f b).projectGroups = b.projectGroups ++ [g])
    (hk : k < s.buckets.length) (i : Nat) : (groupLists (s.modifyBucket k f)).getD i [] =
      (groupLists s).getD i [] ++ if i = k then [g] else [] := by
  unfold groupLists SourceState.modifyBucket
  rw [List.getD_eq_getElem?_getD, List.getD_eq_getElem?_getD, List.getElem?_map,
    List.getElem?_modify, List.getElem?_map]
  by_cases hi : i = k
  · subst hi
    rw [List.getElem?_eq_getElem hk]
    simp [hf]
  · rw [if_neg hi]
    cases s.buckets[i]? with
    | none => rfl
    | some b => simp [Ne.symm hi]

theorem addFactGroup_appended {fact : UsageEventFact} {metrics : SessionUsageMetrics}
    (h : s.addFactGroup fact metrics = .ok (s', k)) :
    Appended (factGroup s.displayLabel fact metrics) k s s' ∧ k < s'.buckets.length := by
  obtain ⟨startsAt, -, h⟩ := bind_ok h
  have hbucket : ∃ t, s.bucketForFact startsAt metrics = (t, (s.bucketForFact startsAt metrics).2) ∧
      t.displayLabel = s.displayLabel ∧ groupMarks t = groupMarks s ∧
      (∀ i, (groupLists t).getD i [] = (groupLists s).getD i []) ∧
      (∀ T, groupsOf T t = groupsOf T s) ∧
      (s.bucketForFact startsAt metrics).2 < t.buckets.length := by
    unfold SourceState.bucketForFact
    cases hfind : s.buckets.findIdx? fun bucket => bucket.startsAt = startsAt with
    | some position =>
      exact ⟨s, rfl, rfl, rfl, fun _ => rfl, fun _ => rfl,
        (List.findIdx?_eq_some_iff_findIdx_eq.1 hfind).1⟩
    | none =>
      refine ⟨_, rfl, rfl, rfl, fun i => ?_, fun T => ?_, by simp⟩
      · unfold groupLists
        rw [List.map_append, List.getD_eq_getElem?_getD, List.getD_eq_getElem?_getD]
        by_cases hlt : i < (s.buckets.map (·.projectGroups)).length
        · rw [List.getElem?_append_left hlt]
        · rw [List.getElem?_append_right (not_lt.1 hlt), List.getElem?_eq_none (not_lt.1 hlt)]
          cases hi : i - (s.buckets.map (·.projectGroups)).length <;> rfl
      · simp [groupsOf, groupLists, ofThread]
  obtain ⟨t, ht, hlabel, hmarks, hgroups, hflat, hlt⟩ := hbucket
  rw [ht] at h
  obtain ⟨residual, -, h⟩ := bind_ok h
  obtain ⟨rfl, rfl⟩ := Prod.mk.inj (Except.ok.inj h)
  have htouch : groupLists (t.touchOnce startsAt residual) = groupLists t ∧
      groupMarks (t.touchOnce startsAt residual) = groupMarks t ∧
      (t.touchOnce startsAt residual).displayLabel = t.displayLabel ∧
      (t.touchOnce startsAt residual).buckets = t.buckets := by
    unfold SourceState.touchOnce
    split <;> exact ⟨rfl, rfl, rfl, rfl⟩
  obtain ⟨htgroups, htmarks, htlabel, htbuckets⟩ := htouch
  have hf : ∀ b : LocalHalfHourBucket, (addProjectGroupTotalsToBucket (metricTotals metrics)
      (pushPartialReason duplicateSessionModelBreakdownPartial { b with
        projectGroups := b.projectGroups ++
          [factGroup (t.touchOnce startsAt residual).displayLabel fact metrics] })).projectGroups =
      b.projectGroups ++ [factGroup s.displayLabel fact metrics] := by
    intro b
    simp [htlabel, hlabel]
  refine ⟨⟨htmarks.trans hmarks, fun i => ?_, fun T hT => ?_⟩, ?_⟩
  · rw [groupLists_getD_modify hf (by rw [htbuckets]; exact hlt), htgroups, hgroups]
  · rw [groupsOf_modify hf _ hT, ← hflat T]
    unfold groupsOf
    rw [htgroups]
  · simp only [SourceState.modifyBucket, List.length_modify, htbuckets]
    exact hlt

theorem getD_append_replicate {α : Type} (l : List α) (d : α) (n p : Nat) :
    (l ++ List.replicate n d).getD p d = l.getD p d := by
  rw [List.getD_eq_getElem?_getD, List.getD_eq_getElem?_getD]
  by_cases hp : p < l.length
  · rw [List.getElem?_append_left hp]
  · rw [List.getElem?_append_right (not_lt.1 hp), List.getElem?_eq_none (not_lt.1 hp),
      List.getElem?_replicate]
    split <;> rfl

/-- The index of a bucket whose last group was added for a thread. -/
def recordedMarks (thread : ThreadId) (count : Nat) (m : GroupMarks) : GroupMarks :=
  (fun t => if t = thread then m.1 t ++ [count - 1] else m.1 t,
    m.2 ++ List.replicate (count - m.2.length) false)

theorem Tracked.record {groups : List (List LocalProjectUsageGroup)} {marks : List GroupMarks}
    (ht : Tracked T groups marks) {thread : ThreadId} {n : Nat}
    {init : List LocalProjectUsageGroup} (hlast : groups.getD k [] = init ++ [g])
    (hthread : g.threadId = thread) :
    Tracked T groups ((marks ++ List.replicate n ((fun _ => []), [])).modify k
      (recordedMarks thread (groups.getD k []).length)) := by
  -- an entry is an old one, or an empty one, and the one of the bucket is extended
  have hentry : ∀ i m, ((marks ++ List.replicate n ((fun _ => []), [])).modify k
      (recordedMarks thread (groups.getD k []).length))[i]? = some m →
      ∃ m₀ : GroupMarks, (marks[i]? = some m₀ ∨ m₀ = ((fun _ => []), [])) ∧
        m = if k = i then recordedMarks thread (groups.getD k []).length m₀ else m₀ := by
    intro i m hm
    rw [List.getElem?_modify] at hm
    obtain ⟨m₀, hm₀, rfl⟩ := Option.map_eq_some_iff.1 hm
    refine ⟨m₀, ?_, by split <;> simp_all⟩
    by_cases hi : i < marks.length
    · rw [List.getElem?_append_left hi] at hm₀
      exact .inl hm₀
    · rw [List.getElem?_append_right (not_lt.1 hi)] at hm₀
      exact .inr (List.eq_of_mem_replicate (List.mem_of_getElem? hm₀))
  have hold : ∀ i (m₀ : GroupMarks), (marks[i]? = some m₀ ∨ m₀ = ((fun _ => []), [])) →
      ∀ t, ∀ p ∈ m₀.1 t, ∃ g, (groups.getD i [])[p]? = some g ∧ g.threadId = t := by
    rintro i m₀ (hm₀ | rfl) t p hp
    · exact ht.positions i m₀ hm₀ t p hp
    · cases hp
  refine ⟨fun i m hm t p hp => ?_, fun i m hm p hp g' hg' => ?_⟩
  · obtain ⟨m₀, hm₀, rfl⟩ := hentry i m hm
    by_cases hi : k = i
    · subst hi
      rw [if_pos rfl] at hp
      unfold recordedMarks at hp
      dsimp only at hp
      split at hp
      · rename_i heq
        rcases List.mem_append.1 hp with hp | hp
        · exact hold k m₀ hm₀ t p hp
        · rw [List.mem_singleton.1 hp, hlast, List.length_append, List.length_singleton,
            Nat.add_sub_cancel]
          exact ⟨g, by simp, hthread.trans heq.symm⟩
      · exact hold k m₀ hm₀ t p hp
    · rw [if_neg hi] at hp
      exact hold i m₀ hm₀ t p hp
  · obtain ⟨m₀, hm₀, rfl⟩ := hentry i m hm
    have hp₀ : m₀.2.getD p false = true := by
      split at hp
      · unfold recordedMarks at hp
        rwa [getD_append_replicate] at hp
      · exact hp
    rcases hm₀ with hm₀ | rfl
    · exact ht.kept i m₀ hm₀ p hp₀ g' hg'
    · simp at hp₀

theorem keeps_record {thread : ThreadId} {totals : ProjectGroupTotals}
    {init : List LocalProjectUsageGroup} (hlast : (groupLists s).getD k [] = init ++ [g])
    (hthread : g.threadId = thread) (h : s.record thread k totals = .ok s') : Keeps T s s' := by
  obtain ⟨bucket, hbucket, h⟩ := bind_ok h
  obtain ⟨-, -, h⟩ := bind_ok h
  obtain rfl : _ = s' := Except.ok.inj h
  have hcount : bucket.projectGroups = (groupLists s).getD k [] := by
    rw [← bucketAt_groups, SourceState.bucketAt, List.getD_eq_getElem?_getD,
      (okOr_ok.1 hbucket : s.buckets[k]? = some bucket)]
    rfl
  have hgrow : groupMarks (s.growIndex k) = groupMarks s ++
      List.replicate (k + 1 - s.index.length) ((fun _ => [], []) : GroupMarks) := by
    simp [groupMarks, SourceState.growIndex]
  have hmarks : ∀ f : BucketIndex → BucketIndex,
      (∀ i, ((f i).groupPositions, (f i).removedGroups) =
        recordedMarks thread bucket.projectGroups.length (i.groupPositions, i.removedGroups)) →
      groupMarks ((s.growIndex k).modifyIndex k f) = (groupMarks (s.growIndex k)).modify k
        (recordedMarks thread bucket.projectGroups.length) := by
    intro f hf
    refine List.ext_getElem? fun i => ?_
    unfold groupMarks SourceState.modifyIndex
    rw [List.getElem?_map, List.getElem?_modify, List.getElem?_modify, List.getElem?_map]
    cases (s.growIndex k).index[i]? with
    | none => rfl
    | some index => by_cases hi : k = i <;> simp [hi, hf]
  refine ⟨fun ht => ?_, fun _ => rfl⟩
  have hrecord := ht.record (n := k + 1 - s.index.length) hlast hthread
  rw [← hcount, ← hgrow] at hrecord
  change Tracked T (groupLists s) (groupMarks ((s.growIndex k).modifyIndex k _))
  rw [hmarks]
  · exact hrecord
  · intro i
    rfl

/-- **A fact of another thread.** -/
theorem keeps_addFact {current : ProtocolRevisions} {compatible : Bool} {fact : UsageEventFact}
    (hne : fact.replica.threadId ≠ T) (h : s.addFact current compatible fact = .ok s') :
    Keeps T s s' := by
  unfold SourceState.addFact at h
  generalize (if compatible then fact.metrics
    else maskSessionModelCatalogProjection current fact.metrics) = metrics at h
  obtain ⟨⟨t, k⟩, ht, h⟩ := bind_ok h
  obtain ⟨happended, hk⟩ := addFactGroup_appended ht
  have hthread : (factGroup s.displayLabel fact metrics).threadId = fact.replica.threadId := rfl
  have hadd : Keeps T s t :=
    ⟨fun htracked => by
      rw [happended.marks]
      exact htracked.append_group (hthread ▸ hne) happended.groups,
      fun _ => happended.flat T (hthread ▸ hne)⟩
  have hlast : (groupLists t).getD k [] = (groupLists s).getD k [] ++
      [factGroup s.displayLabel fact metrics] := by
    rw [happended.groups, if_pos rfl]
  refine hadd.trans ?_
  cases compatible with
  | true => exact keeps_record hlast hthread h
  | false =>
    have hwarned : groupLists (t.modifyBucket k
        (pushPartialReasonOnce remoteModelCatalogMismatchWarning)) = groupLists t :=
      map_modify_eq (fun b => by simp) k t.buckets
    rw [← hwarned] at hlast
    exact (keeps_modifyBucket (fun b => by simp) k).trans (keeps_record hlast hthread h)

/-! ## The first and the last step -/

theorem buildSourceState_tracked (source : ReplicaSource) :
    Tracked T (groupLists (buildSourceState source)) (groupMarks (buildSourceState source)) := by
  have hentry : ∀ k m, (groupMarks (buildSourceState source))[k]? = some m →
      ∃ groups, (groupLists (buildSourceState source)).getD k [] = groups ∧
        (∀ thread, m.1 thread =
          (groups.zipIdx.filter fun entry => entry.1.threadId = thread).map (·.2)) ∧
        m.2 = List.replicate groups.length false := by
    intro k m hm
    unfold groupMarks buildSourceState at hm
    rw [List.getElem?_map, List.getElem?_map] at hm
    obtain ⟨index, hindex, rfl⟩ := Option.map_eq_some_iff.1 hm
    obtain ⟨bucket, hbucket, rfl⟩ := Option.map_eq_some_iff.1 hindex
    refine ⟨bucket.projectGroups, ?_, fun _ => rfl, rfl⟩
    rw [← bucketAt_groups, SourceState.bucketAt, List.getD_eq_getElem?_getD]
    exact congrArg (fun b => (b.getD default).projectGroups) hbucket
  refine ⟨fun k m hm thread p hp => ?_, fun k m hm p hp => ?_⟩
  · obtain ⟨groups, hgroups, hpositions, -⟩ := hentry k m hm
    rw [hpositions, List.mem_map] at hp
    obtain ⟨⟨g, q⟩, hg, rfl⟩ := hp
    obtain ⟨hmem, hthread⟩ := List.mem_filter.1 hg
    exact ⟨g, hgroups ▸ List.mem_zipIdx_iff_getElem?.1 hmem, by simpa using hthread⟩
  · obtain ⟨groups, -, -, hremoved⟩ := hentry k m hm
    rw [hremoved, List.getD_eq_getElem?_getD, List.getElem?_replicate] at hp
    split at hp <;> cases hp

theorem buildSourceState_groups (source : ReplicaSource) :
    groupsOf T (buildSourceState source) = source.buckets.flatMap (threadGroups T) := by
  simp only [groupsOf, groupLists, buildSourceState, List.flatMap_map]
  rfl

theorem ofThread_surviving {bucket : LocalHalfHourBucket} {index : BucketIndex}
    (h : ∀ p, index.removedGroups.getD p false = true →
      ∀ g, bucket.projectGroups[p]? = some g → g.threadId ≠ T) :
    ofThread T (SourceState.survivingGroups bucket index) = ofThread T bucket.projectGroups := by
  unfold ofThread SourceState.survivingGroups
  rw [List.filter_map, List.filter_filter]
  have hcongr : (bucket.projectGroups.zipIdx.filter fun entry =>
      ((fun group : LocalProjectUsageGroup => decide (group.threadId = T)) ∘ Prod.fst) entry &&
        !(index.removedGroups.getD entry.2 false)) =
      bucket.projectGroups.zipIdx.filter
        ((fun group : LocalProjectUsageGroup => decide (group.threadId = T)) ∘ Prod.fst) := by
    refine List.filter_congr fun entry hentry => ?_
    cases hremoved : index.removedGroups.getD entry.2 false with
    | false => simp
    | true => simp [h entry.2 hremoved entry.1 (List.mem_zipIdx_iff_getElem?.1 hentry)]
  rw [hcongr, ← List.filter_map, List.zipIdx_map_fst]

theorem compact_groups (h : Tracked T (groupLists s) (groupMarks s)) :
    groupsOf T s.compactTombstonedProjectGroups = groupsOf T s := by
  have hplain : groupsOf T s =
      s.buckets.zipIdx.flatMap fun entry => ofThread T entry.1.projectGroups := by
    have hmap := List.flatMap_map (l := s.buckets.zipIdx) Prod.fst
      fun bucket : LocalHalfHourBucket => ofThread T bucket.projectGroups
    rw [← hmap, List.zipIdx_map_fst, groupsOf, groupLists, List.flatMap_map]
  have hcompact : groupsOf T s.compactTombstonedProjectGroups =
      s.buckets.zipIdx.flatMap fun entry => ofThread T
        (if (s.indexAt entry.2).needsCompaction then
          { entry.1 with
            projectGroups := SourceState.survivingGroups entry.1 (s.indexAt entry.2) }
        else entry.1).projectGroups := by
    simp [groupsOf, groupLists, SourceState.compactTombstonedProjectGroups, List.flatMap_map]
  rw [hplain, hcompact]
  refine List.flatMap_congr fun entry hentry => ?_
  split
  · rename_i hneeds
    have hbucket := List.mem_zipIdx_iff_getElem?.1 hentry
    refine ofThread_surviving fun p hp g hg => ?_
    cases hindex : s.index[entry.2]? with
    | none =>
      rw [SourceState.indexAt, List.getD_eq_getElem?_getD, hindex] at hneeds
      cases hneeds
    | some index =>
      have hat : s.indexAt entry.2 = index := by
        rw [SourceState.indexAt, List.getD_eq_getElem?_getD, hindex]
        rfl
      rw [hat] at hp
      refine h.kept entry.2 (index.groupPositions, index.removedGroups) ?_ p hp g ?_
      · simp [groupMarks, hindex]
      · rw [← bucketAt_groups, SourceState.bucketAt, List.getD_eq_getElem?_getD, hbucket]
        exact hg
  · rfl

/-- **The end of a resolution** drops marked groups only. -/
theorem finish_groups (h : Tracked T (groupLists s) (groupMarks s)) :
    groupsOf T s.finish = groupsOf T s := by
  have hrebuild : ∀ (entries : List ((_ : DateTime) × BucketProjectResidual)) (t : SourceState),
      groupLists (entries.foldl SourceState.rebuildTouched t) = groupLists t := by
    intro entries
    induction entries with
    | nil => exact fun t => rfl
    | cons entry entries ih =>
      intro t
      rw [List.foldl_cons, ih]
      unfold SourceState.rebuildTouched
      split
      · rfl
      · exact map_modify_eq (fun b => by simp) _ t.buckets
  rw [← compact_groups h]
  exact congrArg (List.flatMap (ofThread T)) (hrebuild _ s.compactTombstonedProjectGroups)

end

end Replica
