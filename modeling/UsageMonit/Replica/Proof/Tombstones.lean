import Mathlib.Data.List.GetD
import UsageMonit.Replica.Proof.ActiveTotals
import UsageMonit.Replica.Proof.Cells
import UsageMonit.Replica.Proof.Untouched

/-!
# Tombstones against running totals

The ledger of a bucket is what its running total depends on: its groups, the positions of the groups
of a thread, the marks and the total. Most operations leave the ledgers as they are (`SameLedgers`);
marking the groups of a thread takes them from the total (`yields_tombstone`), and a recorded fact
adds its group to it (`sound_recorded`). So in a run the total of a bucket is the sum of the groups
that are not marked as long as these sum up within their widths, and no group is marked in vain
(`active_totals_exact`).
-/

namespace Replica

open Fallible Time Protocol Ingest History

def tombstonePanic : String := "project-group tombstones cannot exceed indexed active totals"

/-! ## Ledgers -/

structure GroupLedger where
  groups : List LocalProjectUsageGroup
  positions : ThreadId → List Nat
  removedGroups : List Bool
  activeTotals : ProjectGroupTotals

def GroupLedger.active (ledger : GroupLedger) : List LocalProjectUsageGroup :=
  unmarked ledger.groups ledger.removedGroups

/-- The index fits the groups, and the total is exact unless a counter overflows. -/
structure GroupLedger.Sound (ledger : GroupLedger) : Prop where
  marks : ledger.removedGroups.length = ledger.groups.length
  positions : ∀ thread, ∀ q ∈ ledger.positions thread, q < ledger.groups.length
  totals : GroupsFit ledger.active → TotalsOf ledger.groups ledger.active ledger.activeTotals

/-- A ledger whose counters sum up within their widths. -/
structure GroupLedger.Good (ledger : GroupLedger) : Prop where
  sound : ledger.Sound
  fit : GroupsFit ledger.active

namespace SourceState

def ledgerAt (s : SourceState) (position : Nat) : GroupLedger where
  groups := (s.bucketAt position).projectGroups
  positions := (s.indexAt position).groupPositions
  removedGroups := (s.indexAt position).removedGroups
  activeTotals := (s.indexAt position).activeTotals

def activeGroups (s : SourceState) (position : Nat) : List LocalProjectUsageGroup :=
  survivingGroups (s.bucketAt position) (s.indexAt position)

def ActiveFits (s : SourceState) (position : Nat) : Prop := GroupsFit (s.activeGroups position)

/-- The stored total of a bucket is the sum of its active groups. -/
def ActiveExact (s : SourceState) (position : Nat) : Prop :=
  TotalsOf (s.bucketAt position).projectGroups (s.activeGroups position)
    (s.indexAt position).activeTotals

end SourceState

/-- The buckets in `Q` have sound ledgers, and good ones. -/
def SoundIn (Q : Nat → Prop) (s : SourceState) : Prop := ∀ p, Q p → (s.ledgerAt p).Sound

def GoodIn (Q : Nat → Prop) (s : SourceState) : Prop := ∀ p, Q p → (s.ledgerAt p).Good

/-- A panic at a tombstone is due to a bucket outside of `Q`. -/
def PanicsOutside (Q : Nat → Prop) (e : String) : Prop := e = tombstonePanic → ∃ p, ¬ Q p

theorem panicsOutside_of_ne {Q : Nat → Prop} {e : String} (h : e ≠ tombstonePanic) :
    PanicsOutside Q e := fun heq => absurd heq h

/-! ## Operations that leave the ledgers -/

def SameLedgers (s s' : SourceState) : Prop := ∀ p, s'.ledgerAt p = s.ledgerAt p

section
variable {s s' s'' : SourceState} {k : Nat} {Q : Nat → Prop}

theorem SameLedgers.refl (s : SourceState) : SameLedgers s s := fun _ => rfl

theorem SameLedgers.trans (h : SameLedgers s s') (h' : SameLedgers s' s'') : SameLedgers s s'' :=
  fun p => (h' p).trans (h p)

theorem SameLedgers.good (h : SameLedgers s s') (hs : GoodIn Q s) : GoodIn Q s' := fun p hp => by
  rw [h p]
  exact hs p hp

theorem getD_modify_of {α β : Type} {g : α → β} {f : α → α} (h : ∀ a, g (f a) = g a) (l : List α)
    (k q : Nat) (d : α) : g ((l.modify k f).getD q d) = g (l.getD q d) := by
  rw [List.getD_eq_getElem?_getD, List.getD_eq_getElem?_getD, List.getElem?_modify]
  cases l[q]? with
  | none => rfl
  | some a => by_cases hq : k = q <;> simp [hq, h]

theorem same_modifyBucket {f : LocalHalfHourBucket → LocalHalfHourBucket}
    (h : ∀ b, (f b).projectGroups = b.projectGroups) (k : Nat) :
    SameLedgers s (s.modifyBucket k f) := by
  intro p
  have hgroups : ((s.modifyBucket k f).bucketAt p).projectGroups = (s.bucketAt p).projectGroups :=
    getD_modify_of h s.buckets k p default
  unfold SourceState.ledgerAt
  rw [hgroups]
  rfl

/-- The part of an index entry that a ledger has. -/
def ledgerPart (index : BucketIndex) : (ThreadId → List Nat) × List Bool × ProjectGroupTotals :=
  (index.groupPositions, index.removedGroups, index.activeTotals)

theorem same_modifyIndex {f : BucketIndex → BucketIndex}
    (h : ∀ i, ledgerPart (f i) = ledgerPart i) (k : Nat) : SameLedgers s (s.modifyIndex k f) := by
  intro p
  have hpart : ledgerPart ((s.modifyIndex k f).indexAt p) = ledgerPart (s.indexAt p) :=
    getD_modify_of h s.index k p {}
  obtain ⟨hpositions, hrest⟩ := Prod.mk.inj hpart
  obtain ⟨hremoved, htotals⟩ := Prod.mk.inj hrest
  unfold SourceState.ledgerAt
  rw [hpositions, hremoved, htotals]
  rfl

theorem same_touchOnce (t : DateTime) (r : BucketProjectResidual) :
    SameLedgers s (s.touchOnce t r) := by
  unfold SourceState.touchOnce
  split <;> exact fun _ => rfl

theorem same_markBucketTransparent (k : Nat) : SameLedgers s (s.markBucketTransparent k) := by
  unfold SourceState.markBucketTransparent
  split
  · exact fun p => same_modifyIndex (s := s) (fun _ => by rfl) k p
  · exact same_modifyIndex (fun _ => by rfl) k

theorem same_ensureAuthorityBucket (k : Nat) : SameLedgers s (s.ensureAuthorityBucket k) := by
  unfold SourceState.ensureAuthorityBucket
  split
  · split
    · exact fun p => same_modifyIndex (s := s) (fun _ => by rfl) k p
    · split
      · exact .refl s
      · exact (same_modifyBucket (fun _ => by rfl) k).trans (same_modifyIndex (fun _ => by rfl) k)
  · exact .refl s

theorem same_foldl {α : Type} {f : SourceState → α → SourceState}
    (h : ∀ s a, SameLedgers s (f s a)) (l : List α) : SameLedgers s (l.foldl f s) := by
  induction l generalizing s with
  | nil => exact .refl s
  | cons a l ih => exact (h s a).trans ih

theorem same_markUnhandled (thread : ThreadId) (a b : DateTime)
    (ranges : List (DateTime × DateTime)) :
    SameLedgers s (s.markUnhandledAuthorityLowerBound thread a b ranges) := by
  refine same_foldl (fun s entry => ?_) _
  split
  · exact same_modifyBucket (fun b => by simp) _
  · exact .refl s

/-! ## Marking the groups of a thread -/

/-- **Marking the groups of a thread** takes them from the total. -/
theorem GroupLedger.Good.mark {ledger : GroupLedger} (h : ledger.Good) (thread : ThreadId) :
    let marked := SourceState.markRemoved ledger.groups (ledger.positions thread)
      ledger.removedGroups
    ∃ totals, ProjectGroupTotals.checkedDeltaFrom ledger.activeTotals marked.2.1 = some totals ∧
      GroupLedger.Good
        { ledger with
          removedGroups := marked.1
          activeTotals := totals } := by
  obtain ⟨gone, htotals, hperm, hlength⟩ :=
    markRemoved_spec h.sound.marks (h.sound.positions thread)
  dsimp only
  rw [htotals]
  generalize (SourceState.markRemoved ledger.groups (ledger.positions thread)
    ledger.removedGroups).1 = marks at hperm hlength ⊢
  have hfit := h.fit.perm hperm
  have hsub : gone ⊆ ledger.groups := fun group hgroup =>
    mem_of_mem_unmarked (hperm.mem_iff.2 (List.mem_append_left _ hgroup))
  obtain ⟨totals, hdelta, hof⟩ :=
    checkedDeltaFrom_totalsOf ((h.sound.totals h.fit).perm hperm) hfit hsub
  exact ⟨totals, hdelta, ⟨hlength, h.sound.positions, fun _ => hof⟩, hfit.right⟩

theorem ledgerAt_modifyIndex (hk : k < s.index.length) (f : BucketIndex → BucketIndex) (p : Nat) :
    (s.modifyIndex k f).ledgerAt p = if p = k then
      { groups := (s.bucketAt k).projectGroups
        positions := (f (s.indexAt k)).groupPositions
        removedGroups := (f (s.indexAt k)).removedGroups
        activeTotals := (f (s.indexAt k)).activeTotals } else s.ledgerAt p := by
  unfold SourceState.ledgerAt
  rw [indexAt_modifyIndex hk]
  by_cases hp : p = k
  · subst hp
    rw [if_pos rfl, if_pos rfl]
    rfl
  · rw [if_neg hp, if_neg hp]
    rfl

/-- **A tombstone** never panics in a good ledger. -/
theorem yields_tombstone (h : GoodIn Q s) (thread : ThreadId) (k : Nat) :
    Yields (s.tombstoneProjectGroups thread k) (PanicsOutside Q) (GoodIn Q) := by
  unfold SourceState.tombstoneProjectGroups
  dsimp only
  split
  · rename_i hany
    have hk : k < s.index.length := by
      by_contra hk
      have hempty : s.indexAt k = {} := List.getD_eq_default _ _ (not_lt.1 hk)
      rw [hempty] at hany
      cases hany
    by_cases hQ : Q k
    · obtain ⟨totals, hdelta, hgood⟩ := (h k hQ).mark thread
      have hok : okOr (ProjectGroupTotals.checkedDeltaFrom (s.indexAt k).activeTotals
          (SourceState.markRemoved (s.bucketAt k).projectGroups
            ((s.indexAt k).groupPositions thread) (s.indexAt k).removedGroups).2.1)
          tombstonePanic = .ok totals := okOr_ok.2 hdelta
      refine Yields.bind (P := fun a => a = totals) (.of_eq hok rfl) fun _ htotals => ?_
      subst htotals
      refine yields_pure fun p hp => ?_
      rw [ledgerAt_modifyIndex hk]
      split
      · exact hgood
      · exact h p hp
    · refine Yields.bind (P := fun _ => True) ?_ fun totals _ => yields_pure fun p hp => ?_
      · exact (yields_okOr (.inr fun _ => ⟨k, hQ⟩)).mono (fun _ he => he) fun _ _ => trivial
      · have hne : p ≠ k := fun heq => hQ (heq ▸ hp)
        rw [ledgerAt_modifyIndex hk, if_neg hne]
        exact h p hp
  · exact yields_pure h

theorem yields_deactivate (h : GoodIn Q s) (thread : ThreadId) (k : Nat) :
    Yields (s.deactivateThreadBucket thread k) (PanicsOutside Q) (GoodIn Q) := by
  unfold SourceState.deactivateThreadBucket
  split
  · exact yields_pure h
  · split
    · exact (yields_tombstone h thread k).bind fun t ht => yields_pure ht
    · exact yields_pure h

/-! ## Removing and suppressing a thread -/

theorem yields_removeReplicaGroup (h : GoodIn Q s) (thread : ThreadId) (offset : Nat) :
    Yields (SourceState.removeReplicaGroup thread s offset) (PanicsOutside Q) (GoodIn Q) := by
  unfold SourceState.removeReplicaGroup
  split
  · exact yields_pure h
  · split
    · refine (yields_okOr (.inr (panicsOutside_of_ne (by decide)))).bind fun residual _ => ?_
      refine (yields_deactivate ((same_touchOnce _ _).good h) thread _).bind fun t ht => ?_
      refine yields_pure ((same_modifyBucket (fun b => ?_) _).good ht)
      split <;> simp
    · exact yields_pure h

theorem yields_preserve (h : GoodIn Q s) (thread : ThreadId) (k : Nat) :
    Yields (s.preserveUnrelatedProjectGroupsInBucket k thread) (PanicsOutside Q) (GoodIn Q) := by
  have htouch : GoodIn Q (s.touch (s.startOf k) {}) := h
  refine (yields_tombstone htouch "" k).bind fun t ht => ?_
  refine (yields_deactivate ht thread k).bind fun u hu => ?_
  refine yields_pure ((same_modifyBucket (fun b => ?_) k).good
    ((same_markBucketTransparent k).good hu))
  simp

theorem yields_suppressThreadBucket (h : GoodIn Q s) (thread : ThreadId)
    (selection : ReplicaBucketSelection) (offset : Nat) :
    Yields (s.suppressThreadBucket thread selection offset) (PanicsOutside Q) (GoodIn Q) := by
  unfold SourceState.suppressThreadBucket
  split
  · exact yields_pure h
  · split
    · exact yields_preserve h thread _
    · exact yields_pure h

theorem yields_suppressOpaqueBucket (h : GoodIn Q s) (thread : ThreadId)
    (selection : ReplicaBucketSelection) (k : Nat) :
    Yields (s.suppressOpaqueBucket thread selection k) (PanicsOutside Q) (GoodIn Q) := by
  unfold SourceState.suppressOpaqueBucket
  split
  · split
    · exact yields_pure ((same_markBucketTransparent k).good h)
    · exact yields_preserve h thread k
  · exact yields_pure h

/-! ## Recording facts -/

/-- A fact's group comes last in its bucket, and nothing changes in the index. -/
structure FactAdded (group : LocalProjectUsageGroup) (k : Nat) (s s' : SourceState) : Prop where
  index : s'.index = s.index
  ledger : ∀ p, s'.ledgerAt p = { s.ledgerAt p with
    groups := (s.ledgerAt p).groups ++ if p = k then [group] else [] }

theorem yields_quarterHourStart (timestamp : DateTime) :
    Yields (quarterHourStart timestamp) (PanicsOutside Q) fun _ => True := by
  refine (yields_ensure (.inr (panicsOutside_of_ne (by decide)))).bind fun _ _ => ?_
  exact yields_pure trivial

theorem yields_addFactGroup (s : SourceState) (fact : UsageEventFact)
    (metrics : SessionUsageMetrics) :
    Yields (s.addFactGroup fact metrics) (PanicsOutside Q) fun r =>
      FactAdded (factGroup s.displayLabel fact metrics) r.2 s r.1 := by
  have hnopanic : Yields (s.addFactGroup fact metrics) (PanicsOutside Q) fun r =>
      r.1.index = s.index := by
    refine (yields_quarterHourStart fact.occurredAt).bind fun startsAt _ => ?_
    have hbucket : (s.bucketForFact startsAt metrics).1.index = s.index := by
      unfold SourceState.bucketForFact
      split <;> rfl
    generalize s.bucketForFact startsAt metrics = target at hbucket ⊢
    obtain ⟨t, k⟩ := target
    refine (yields_okOr (.inr (panicsOutside_of_ne (by decide)))).bind fun residual _ => ?_
    refine yields_pure ?_
    show (t.touchOnce startsAt residual).index = s.index
    unfold SourceState.touchOnce
    split <;> exact hbucket
  refine hnopanic.with_eq.mono (fun _ he => he) fun ⟨t, k⟩ hr => ⟨hr.2, fun p => ?_⟩
  obtain ⟨happended, -⟩ := addFactGroup_appended hr.1
  unfold SourceState.ledgerAt SourceState.indexAt
  rw [show t.index = s.index from hr.2, bucketAt_groups, bucketAt_groups, happended.groups]

theorem ledgerAt_record {thread : ThreadId} {totals : ProjectGroupTotals}
    (h : s.record thread k totals = .ok s') (p : Nat) : s'.ledgerAt p = if p = k then
      { groups := (s.ledgerAt k).groups
        positions := fun t => if t = thread then
            (s.ledgerAt k).positions t ++ [(s.ledgerAt k).groups.length - 1]
          else (s.ledgerAt k).positions t
        removedGroups := (s.ledgerAt k).removedGroups ++ List.replicate
          ((s.ledgerAt k).groups.length - (s.ledgerAt k).removedGroups.length) false
        activeTotals := if k < s.index.length then
            ProjectGroupTotals.addTotals (s.ledgerAt k).activeTotals totals
          else projectGroupTotals (s.ledgerAt k).groups }
      else s.ledgerAt p := by
  obtain ⟨bucket, hbucket, h⟩ := bind_ok h
  obtain ⟨-, -, h⟩ := bind_ok h
  obtain rfl : _ = s' := Except.ok.inj h
  have hat : bucket = s.bucketAt k := by
    rw [SourceState.bucketAt, List.getD_eq_getElem?_getD,
      (okOr_ok.1 hbucket : s.buckets[k]? = some bucket)]
    rfl
  have hgrown : ∀ q, (s.growIndex k).indexAt q = s.indexAt q := fun q =>
    getD_append_replicate s.index {} (k + 1 - s.index.length) q
  have hk : k < (s.growIndex k).index.length := by
    simp only [SourceState.growIndex, List.length_append, List.length_replicate]
    omega
  show ((s.growIndex k).modifyIndex k _).ledgerAt p = _
  rw [ledgerAt_modifyIndex hk, hgrown, hat]
  have hother : (s.growIndex k).ledgerAt p = s.ledgerAt p := by
    unfold SourceState.ledgerAt
    rw [hgrown]
    rfl
  rw [hother]
  by_cases hp : p = k
  · rw [if_pos hp, if_pos hp]
    simp only [decide_eq_true_eq]
    rfl
  · rw [if_neg hp, if_neg hp]

/-- **A group recorded** in a ledger. -/
theorem GroupLedger.Sound.record {ledger : GroupLedger} (h : ledger.Sound) (thread : ThreadId)
    (group : LocalProjectUsageGroup) :
    GroupLedger.Sound
      { groups := ledger.groups ++ [group]
        positions := fun t => if t = thread then
            ledger.positions t ++ [(ledger.groups ++ [group]).length - 1]
          else ledger.positions t
        removedGroups := ledger.removedGroups ++ List.replicate
          ((ledger.groups ++ [group]).length - ledger.removedGroups.length) false
        activeTotals := ProjectGroupTotals.addTotals ledger.activeTotals (groupTotals group) } := by
  have hold : ∀ t, ∀ q ∈ ledger.positions t, q < (ledger.groups ++ [group]).length := by
    intro t q hq
    have hlt := h.positions t q hq
    rw [List.length_append]
    omega
  refine ⟨?_, fun t q hq => ?_, fun hfit => ?_⟩
  · have hmarks := h.marks
    simp only [List.length_append, List.length_replicate, List.length_singleton]
    omega
  · dsimp only at hq
    split at hq
    · rcases List.mem_append.1 hq with hq | hq
      · exact hold t q hq
      · obtain rfl := List.mem_singleton.1 hq
        simp
    · exact hold t q hq
  · have hactive : unmarked (ledger.groups ++ [group]) (ledger.removedGroups ++ List.replicate
        ((ledger.groups ++ [group]).length - ledger.removedGroups.length) false) =
        ledger.active ++ [group] := by
      rw [unmarked_congr fun q => getD_append_replicate ledger.removedGroups false _ q,
        unmarked_concat h.marks.le]
      rfl
    show TotalsOf (ledger.groups ++ [group]) (unmarked _ _) _
    have hfit' : GroupsFit (ledger.active ++ [group]) := hactive ▸ hfit
    rw [hactive]
    exact (h.totals hfit'.left).add hfit'

theorem sound_recorded {t u : SourceState} {thread : ThreadId} {group : LocalProjectUsageGroup}
    (h : GoodIn Q s) (hadded : FactAdded group k s t) (hsame : SameLedgers t u)
    (hindex : u.index = t.index) (hrecord : u.record thread k (groupTotals group) = .ok s') :
    SoundIn Q s' := by
  intro p hp
  have hsound := (h p hp).sound
  have hu : u.ledgerAt p = { s.ledgerAt p with
      groups := (s.ledgerAt p).groups ++ if p = k then [group] else [] } :=
    (hsame p).trans (hadded.ledger p)
  rw [ledgerAt_record hrecord]
  by_cases hpk : p = k
  · subst hpk
    rw [if_pos rfl] at hu
    rw [if_pos rfl, hu, hindex, hadded.index]
    have htotals : (if p < s.index.length then
        ProjectGroupTotals.addTotals (s.ledgerAt p).activeTotals (groupTotals group)
        else projectGroupTotals ((s.ledgerAt p).groups ++ [group])) =
        ProjectGroupTotals.addTotals (s.ledgerAt p).activeTotals (groupTotals group) := by
      split
      · rfl
      · rename_i hnew
        have hempty : s.indexAt p = {} := List.getD_eq_default _ _ (not_lt.1 hnew)
        have hgroups : (s.ledgerAt p).groups = [] := by
          have hmarks := hsound.marks
          unfold SourceState.ledgerAt at hmarks ⊢
          rw [hempty] at hmarks
          exact List.length_eq_zero_iff.1 hmarks.symm
        have hzero : (s.ledgerAt p).activeTotals = {} := congrArg BucketIndex.activeTotals hempty
        rw [hgroups, hzero]
        rfl
    rw [htotals]
    exact hsound.record thread group
  · rw [if_neg hpk, hu, if_neg hpk, List.append_nil]
    exact hsound

theorem yields_addFact (current : ProtocolRevisions) (compatible : Bool) (fact : UsageEventFact)
    (h : GoodIn Q s) : Yields (s.addFact current compatible fact) (PanicsOutside Q)
      (SoundIn Q) := by
  unfold SourceState.addFact
  generalize (if compatible then fact.metrics
    else maskSessionModelCatalogProjection current fact.metrics) = metrics
  refine (yields_addFactGroup s fact metrics).bind fun ⟨t, k⟩ hadded => ?_
  have hrecord : ∀ u, SameLedgers t u → u.index = t.index →
      Yields (u.record fact.replica.threadId k (metricTotals metrics)) (PanicsOutside Q)
        (SoundIn Q) := by
    intro u hsame hindex
    have hnopanic : Yields (u.record fact.replica.threadId k (metricTotals metrics))
        (PanicsOutside Q) fun _ => True := by
      refine (yields_okOr (.inr (panicsOutside_of_ne (by decide)))).bind fun bucket _ => ?_
      refine (yields_ensure (.inr (panicsOutside_of_ne (by decide)))).bind fun _ _ => ?_
      exact yields_pure trivial
    exact hnopanic.with_eq.mono (fun _ he => he) fun s' hs' =>
      sound_recorded h hadded hsame hindex hs'.1
  cases compatible with
  | true => exact hrecord t (.refl t) rfl
  | false => exact hrecord _ (same_modifyBucket (fun b => by simp) k) rfl

end

/-! ## Runs -/

theorem sound_built (source : ReplicaSource) (p : Nat) :
    ((buildSourceState source).ledgerAt p).Sound := by
  have hindex : (buildSourceState source).indexAt p =
      (source.buckets[p]?.map buildBucketIndex).getD {} := by
    rw [← List.getElem?_map, ← List.getD_eq_getElem?_getD]
    rfl
  have hbucket : (buildSourceState source).bucketAt p = source.buckets[p]?.getD default :=
    List.getD_eq_getElem?_getD ..
  unfold SourceState.ledgerAt
  rw [hindex, hbucket]
  cases source.buckets[p]? with
  | none => exact ⟨rfl, fun _ _ hq => absurd hq List.not_mem_nil, fun _ => totalsOf_nil⟩
  | some bucket =>
    refine ⟨List.length_replicate, fun thread q hq => ?_, fun hfit => ?_⟩
    · obtain ⟨entry, hentry, rfl⟩ := List.mem_map.1 hq
      have hget := List.mem_zipIdx_iff_getElem?.1 (List.mem_filter.1 hentry).1
      exact (List.getElem?_eq_some_iff.1 hget).1
    · have hactive : unmarked bucket.projectGroups
          (List.replicate bucket.projectGroups.length false) = bucket.projectGroups :=
        unmarked_replicate _ _
      have hfit' : GroupsFit bucket.projectGroups := hactive ▸ hfit
      show TotalsOf bucket.projectGroups (unmarked bucket.projectGroups
        (List.replicate bucket.projectGroups.length false))
        (projectGroupTotals bucket.projectGroups)
      rw [hactive]
      exact totalsOf_projectGroupTotals hfit'

section
variable {current : ProtocolRevisions} {source : ReplicaSource} {steps : List GroupStep}
  {Q : Nat → Prop}

/-- **One step** on good ledgers. -/
theorem yields_step {s : SourceState} (h : GoodIn Q s) (step : GroupStep) :
    Yields (step.run current s) (PanicsOutside Q) (SoundIn Q) := by
  have hsound : ∀ t, GoodIn Q t → SoundIn Q t := fun t ht p hp => (ht p hp).sound
  cases step with
  | remove thread offset =>
    exact (yields_removeReplicaGroup h thread offset).mono (fun _ he => he) hsound
  | suppressThread thread selection offset =>
    exact (yields_suppressThreadBucket h thread selection offset).mono (fun _ he => he) hsound
  | suppressOpaque thread selection position =>
    exact (yields_suppressOpaqueBucket h thread selection position).mono (fun _ he => he) hsound
  | addFact compatible fact => exact yields_addFact current compatible fact h
  | ensureAuthority rangeStart rangeEnd =>
    exact yields_ok (hsound _ ((same_foldl (fun _ k => same_ensureAuthorityBucket k) _).good h))
  | markUnhandled thread rangeStart rangeEnd handledRanges =>
    exact yields_ok (hsound _ ((same_markUnhandled _ _ _ _).good h))

/-- **A run** whose counters fit in some buckets. -/
theorem yields_run (hfit : ∀ p, Q p → Along (GroupStep.run current) (fun s _ => s.ActiveFits p)
      (buildSourceState source) steps) :
    Yields (steps.foldlM (GroupStep.run current) (buildSourceState source)) (PanicsOutside Q)
      (SoundIn Q) := by
  have hall : Along (GroupStep.run current) (fun s _ => ∀ p, Q p → s.ActiveFits p)
      (buildSourceState source) steps :=
    along_iff.2 fun before b after t hsteps ht p hp =>
      along_iff.1 (hfit p hp) before b after t hsteps ht
  refine yields_along (I := SoundIn Q) (fun s step hs hfits => ?_)
    (fun p _ => sound_built source p) hall
  exact yields_step (fun p hp => ⟨hs p hp, hfits p hp⟩) step

/-- **Tombstones and running totals.** While the counters of a bucket's active groups sum up within
their widths, its stored total is their exact sum; and while those of all buckets do, no tombstone
panics. -/
theorem active_totals_exact (current : ProtocolRevisions) (source : ReplicaSource)
    (steps : List GroupStep) :
    (∀ p, Along (GroupStep.run current) (fun s _ => s.ActiveFits p) (buildSourceState source)
        steps → ∀ s, Runs current source steps s → s.ActiveFits p → s.ActiveExact p) ∧
      ((∀ p, Along (GroupStep.run current) (fun s _ => s.ActiveFits p) (buildSourceState source)
        steps) →
        steps.foldlM (GroupStep.run current) (buildSourceState source) ≠
          .error tombstonePanic) := by
  constructor
  · intro p hfit s hrun hlast
    have hyields := yields_run (Q := fun q => q = p) fun q hq => hq ▸ hfit
    rw [show steps.foldlM _ _ = _ from hrun] at hyields
    exact (hyields p rfl).totals hlast
  · intro hfit hpanic
    have hyields := yields_run (Q := fun _ => True) fun p _ => hfit p
    rw [hpanic] at hyields
    obtain ⟨p, hp⟩ := hyields rfl
    exact hp trivial

end

namespace Sample

/-- A bucket that the threads `t` and `u` share. -/
def twoThreads : ReplicaSource :=
  { buckets := [bucket [group "t" 1, group "u" 2]], evidence := { sourceId := "a" } }

def removeFirst : List GroupStep := [.remove "t" 0]

/-- Groups whose calls do not sum up within 64 bits. -/
def saturated : ReplicaSource :=
  { buckets := [{ bucket [group "" (2 ^ 64 - 1), group "t" (2 ^ 64 - 1)] with
      callCount := 2 ^ 64 - 1 }]
    evidence := { sourceId := "a" } }

def suppressFirst : List GroupStep :=
  [.suppressThread "t" { rangeStart := 0, rangeEnd := days 1 } 0]

/-- The group of `t` has unknown long-context units. -/
def unknownThread : ReplicaSource :=
  { buckets := [{ bucket [{ threadId := "t", callCount := 1 }, group "u" 2] with
      apiLongContextExtraCostUnits := none }]
    evidence := { sourceId := "a" } }

theorem oneGroup_fits : GroupsFit [group "u" 2] := by
  refine ⟨fun k => ?_, by decide⟩
  cases k with
  | tokens counter => cases counter <;> decide
  | _ => decide

end Sample

theorem active_totals_sample : ∃ s, Runs Sample.revisions Sample.twoThreads Sample.removeFirst s ∧
    s.ActiveExact 0 ∧ (s.indexAt 0).activeTotals.callCount = 2 := by
  have hfit : ∀ p, Along (GroupStep.run Sample.revisions) (fun s _ => s.ActiveFits p)
      (buildSourceState Sample.twoThreads) Sample.removeFirst := by
    refine fun p => ⟨?_, fun _ _ => trivial⟩
    cases p with
    | zero =>
      refine ⟨fun k => ?_, by decide +kernel⟩
      cases k with
      | tokens counter => cases counter <;> decide +kernel
      | _ => decide +kernel
    | succ p => exact ⟨fun k => Nat.two_pow_pos k.bits, Nat.two_pow_pos 128⟩
  obtain ⟨hexact, -⟩ := active_totals_exact Sample.revisions Sample.twoThreads Sample.removeFirst
  have hactive : (Sample.removeFirst.foldlM (GroupStep.run Sample.revisions)
      (buildSourceState Sample.twoThreads)).toOption.map (fun s => s.activeGroups 0) =
      some [Sample.group "u" 2] := by
    decide +kernel
  cases hrun : Sample.removeFirst.foldlM (GroupStep.run Sample.revisions)
      (buildSourceState Sample.twoThreads) with
  | error e =>
    rw [hrun] at hactive
    cases hactive
  | ok s =>
    rw [hrun] at hactive
    have hgroups : s.activeGroups 0 = [Sample.group "u" 2] := Option.some.inj hactive
    have hlast : s.ActiveFits 0 := by
      show GroupsFit (s.activeGroups 0)
      rw [hgroups]
      exact Sample.oneGroup_fits
    have hof := hexact 0 (hfit 0) s hrun hlast
    refine ⟨s, hrun, hof, ?_⟩
    have hcalls : (s.indexAt 0).activeTotals.callCount = partSum .callCount (s.activeGroups 0) :=
      hof.parts .callCount
    rw [hcalls, hgroups]
    rfl

/-- Saturated calls leave nothing to subtract from, and a tombstone panics; and units stay unknown
when the group they came from is gone. -/
theorem saturated_tombstone_panics :
    Sample.suppressFirst.foldlM (GroupStep.run Sample.revisions)
        (buildSourceState Sample.saturated) = .error tombstonePanic ∧
      ∃ s, Runs Sample.revisions Sample.unknownThread Sample.removeFirst s ∧
        s.activeGroups 0 = [Sample.group "u" 2] ∧
        (projectGroupTotals (s.activeGroups 0)).apiLongContextExtraCostUnits = some 0 ∧
        (s.indexAt 0).activeTotals.apiLongContextExtraCostUnits = none := by
  constructor
  · have herror : (match Sample.suppressFirst.foldlM (GroupStep.run Sample.revisions)
        (buildSourceState Sample.saturated) with
      | .error e => some e
      | .ok _ => none) = some tombstonePanic := by
      decide +kernel
    cases hrun : Sample.suppressFirst.foldlM (GroupStep.run Sample.revisions)
        (buildSourceState Sample.saturated) with
    | error e =>
      rw [hrun] at herror
      rw [Option.some.inj herror]
    | ok s =>
      rw [hrun] at herror
      cases herror
  · have hfacts : (Sample.removeFirst.foldlM (GroupStep.run Sample.revisions)
        (buildSourceState Sample.unknownThread)).toOption.map (fun s =>
          (s.activeGroups 0, (s.indexAt 0).activeTotals.apiLongContextExtraCostUnits)) =
        some ([Sample.group "u" 2], none) := by
      decide +kernel
    cases hrun : Sample.removeFirst.foldlM (GroupStep.run Sample.revisions)
        (buildSourceState Sample.unknownThread) with
    | error e =>
      rw [hrun] at hfacts
      cases hfacts
    | ok s =>
      rw [hrun] at hfacts
      obtain ⟨hgroups, hunits⟩ := Prod.mk.inj (Option.some.inj hfacts)
      refine ⟨s, hrun, hgroups, ?_, hunits⟩
      rw [hgroups]
      rfl

end Replica
