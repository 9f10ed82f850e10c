import UsageMonit.Weekly.Cursor
import UsageMonit.Weekly.Proof.Plan

/-!
# The cursor gives the direct answers

What a cursor has passed is a prefix of each of its lists, and its aggregate is that of the prefixes
(`Swept`). The buckets that it passed end before the points that it did not, so that a new base
leaves none of them (`Swept.advanceWeekly`). At every instant the answer is then the direct one
(`answers_direct`).
-/

namespace Weekly

open Time Usage History Sweep PartitionPoint
open Facts (SourceKind)

/-! ## The direct answer -/

/-- A latest point at or before an instant, if there is one. -/
def IsLatest (points : List WeeklyLocalPoint) (t : DateTime) : Option WeeklyLocalPoint → Prop
  | none => ∀ point ∈ points, t < point.observedAt
  | some latest => latest ∈ points ∧ latest.observedAt ≤ t ∧
      ∀ point ∈ points, point.observedAt ≤ t → point.observedAt ≤ latest.observedAt

/-- A base and the buckets that start at or after a cutoff. -/
def aggregateOf (base : Option WeeklyLocalPoint) (cutoff : DateTime)
    (buckets : List LocalHalfHourBucket) : WeeklyAccumulator :=
  (buckets.filter fun bucket => cutoff ≤ bucket.startsAt).foldl WeeklyAccumulator.addBucket
    (base.elim {} fromWeekly)

/-- What a source used until an instant: the base, and the buckets since that ended by then. -/
def cumulativeAt (sourceKind : SourceKind) (cycleStartsAt : DateTime)
    (slice : WeeklyCycleSourceInput) (t : DateTime) (base : Option WeeklyLocalPoint)
    (complete : Bool) : Option WeeklyAccumulator :=
  let aggregate := aggregateOf base ((base.map (·.observedAt)).getD cycleStartsAt)
    (slice.buckets.filter fun bucket => bucket.endsAt ≤ t)
  if !aggregate.present then none
  else if base.isSome then some aggregate
  else
    match sourceKind with
    | .ssh => some (aggregate.addReason "remote_weekly_from_buckets_lower_bound")
    | .local => some (if complete then aggregate
        else aggregate.addReason "local_weekly_from_buckets_lower_bound")

/-- Buckets reach from one instant to another. -/
def Reach (buckets : List LocalHalfHourBucket) (origin target : DateTime) : Prop :=
  ∀ x, origin ≤ x → x < target → ∃ bucket ∈ buckets, bucket.startsAt ≤ x ∧ x < bucket.endsAt

/-- The cycle is covered until the last quarter of an hour. -/
def CoverageComplete (cycleStartsAt : DateTime) (slice : WeeklyCycleSourceInput) (t : DateTime) :
    Prop :=
  cycleStartsAt ≤ WeeklySourceCursor.coverageTarget t ∧
    Reach slice.coverageBuckets cycleStartsAt (WeeklySourceCursor.coverageTarget t)

structure Answers (sourceKind : SourceKind) (cycleStartsAt : DateTime)
    (slice : WeeklyCycleSourceInput) (t : DateTime) (answer : Option WeeklyAccumulator × Bool) :
    Prop where
  complete : answer.2 = true ↔ CoverageComplete cycleStartsAt slice t
  aggregate : ∃ base, IsLatest slice.weekly t base ∧
    answer.1 = cumulativeAt sourceKind cycleStartsAt slice t base answer.2

/-! ## Sums of buckets -/

theorem addBucket_right_comm (a : WeeklyAccumulator) (b b' : LocalHalfHourBucket) :
    (a.addBucket b).addBucket b' = (a.addBucket b').addBucket b := by
  have hunits : ∀ x y z : Option Nat,
      addOptionalUnits (addOptionalUnits x y) z = addOptionalUnits (addOptionalUnits x z) y := by
    intro x y z
    cases x <;> cases y <;> cases z <;>
      simp [addOptionalUnits, TokenUsage.saturatingAdd_right_comm _ _ _ (_ : Nat)]
  unfold WeeklyAccumulator.addBucket WeeklyAccumulator.addValues
  simp only [WeeklyAccumulator.mk.injEq, if_true, true_and]
  exact ⟨TokenUsage.addAssign_right_comm .., TokenUsage.saturatingAdd_right_comm .., hunits ..,
    Bool.or_right_comm .., Finset.insert_comm .., TokenUsage.saturatingAdd_right_comm ..,
    Finset.union_right_comm ..⟩

theorem aggregateOf_perm {base : Option WeeklyLocalPoint} {cutoff : DateTime}
    {buckets buckets' : List LocalHalfHourBucket} (h : buckets.Perm buckets') :
    aggregateOf base cutoff buckets = aggregateOf base cutoff buckets' := by
  have : RightCommutative WeeklyAccumulator.addBucket := ⟨addBucket_right_comm⟩
  exact (h.filter _).foldl_eq _

/-! ## Buckets start at quarters of an hour -/

theorem startsAt_le_endsAt {bucket : LocalHalfHourBucket}
    (h : isCurrentLocalBucket bucket = true) : bucket.startsAt ≤ bucket.endsAt := by
  obtain ⟨-, -, hstarts, hends⟩ := of_decide_eq_true h
  exact hstarts.trans hends

theorem startsAt_aligned {bucket : LocalHalfHourBucket} (h : isCurrentLocalBucket bucket = true) :
    ∃ quarter : Int, bucket.startsAt = seconds (quarter * localBucketSecs) := by
  obtain ⟨-, hfloor, -⟩ := of_decide_eq_true h
  rw [← hfloor]
  unfold floorLocalBucket
  dsimp only
  split_ifs
  · exact ⟨_, rfl⟩
  · exact ⟨-9260668032, by decide⟩

open WeeklySourceCursor in
/-- A bucket that has started has started by the last quarter of an hour. -/
theorem startsAt_le_target {bucket : LocalHalfHourBucket}
    (h : isCurrentLocalBucket bucket = true) {t : DateTime} (ht : bucket.startsAt ≤ t) :
    bucket.startsAt ≤ coverageTarget t := by
  obtain ⟨quarter, hquarter⟩ := startsAt_aligned h
  rw [hquarter] at ht ⊢
  change (quarter * (15 * 60) * 1000000000 : Int) ≤ (t : Int) at ht
  change (quarter * (15 * 60) * 1000000000 : Int) ≤
    (t : Int) - (t / 1000000000 % (15 * 60)) * 1000000000
  omega

open WeeklySourceCursor in
theorem target_le (t : DateTime) : coverageTarget t ≤ t := by
  refine sub_le_self t ?_
  unfold seconds
  have hmod : (0 : Int) ≤ timestampSecs t % localBucketSecs := Int.emod_nonneg _ (by decide)
  positivity

/-! ## What a cursor has passed -/

section
variable (sourceKind : SourceKind) (cycleStartsAt : DateTime) (input : WeeklyCycleSourceInput)

/-- The lists of a cursor, and its state as what it has passed of them until an instant. -/
structure Swept (t : DateTime) (c : WeeklySourceCursor) : Prop where
  sourceKind_eq : c.sourceKind = sourceKind
  cycleStartsAt_eq : c.cycleStartsAt = cycleStartsAt
  weekly_eq : c.weekly = input.weekly
  buckets_eq : c.buckets = input.buckets
  coverageBuckets_eq : c.coverageBuckets = input.coverageBuckets
  weekly_le : c.weeklyIndex ≤ partitionPoint (fun point => point.observedAt ≤ t) input.weekly
  bucket_le : c.bucketIndex ≤ partitionPoint (fun bucket => bucket.endsAt ≤ t) input.buckets
  coverage_le : ∀ bucket ∈ input.coverageBuckets.take c.coverageIndex, bucket.startsAt ≤ t
  base : c.baseObservedAt = (input.weekly.take c.weeklyIndex).getLast?.map (·.observedAt)
  aggregate : c.aggregate = aggregateOf (input.weekly.take c.weeklyIndex).getLast? c.bucketCutoff
    (input.buckets.take c.bucketIndex)
  before : ∀ bucket ∈ input.buckets.take c.bucketIndex,
    ∀ point ∈ input.weekly.drop c.weeklyIndex, bucket.endsAt < point.observedAt
  coverage : (c.coverageThrough, c.coverageGap) =
    (input.coverageBuckets.take c.coverageIndex).foldl WeeklySourceCursor.extendCoverage
      (cycleStartsAt, false)

theorem swept_fromPartitioned (t : DateTime) : Swept sourceKind cycleStartsAt input t
    (.fromPartitioned sourceKind cycleStartsAt input) where
  sourceKind_eq := rfl
  cycleStartsAt_eq := rfl
  weekly_eq := rfl
  buckets_eq := rfl
  coverageBuckets_eq := rfl
  weekly_le := Nat.zero_le _
  bucket_le := Nat.zero_le _
  coverage_le := by simp [WeeklySourceCursor.fromPartitioned]
  base := rfl
  aggregate := rfl
  before := by simp [WeeklySourceCursor.fromPartitioned]
  coverage := rfl

/-- Sorted lists of valid buckets. -/
structure SortedInput : Prop where
  weekly : input.weekly.Pairwise fun a b => a.observedAt ≤ b.observedAt
  buckets : input.buckets.Pairwise fun a b => a.endsAt ≤ b.endsAt
  coverage : input.coverageBuckets.Pairwise fun a b => a.startsAt ≤ b.startsAt
  valid : ∀ bucket ∈ input.buckets, isCurrentLocalBucket bucket = true
  valid_coverage : ∀ bucket ∈ input.coverageBuckets, isCurrentLocalBucket bucket = true

end

section
variable {sourceKind : SourceKind} {cycleStartsAt : DateTime} {input : WeeklyCycleSourceInput}
  {t t' : DateTime} {c : WeeklySourceCursor}

theorem Swept.mono (h : Swept sourceKind cycleStartsAt input t c) (ht : t ≤ t') :
    Swept sourceKind cycleStartsAt input t' c where
  __ := h
  weekly_le := h.weekly_le.trans <| partitionPoint_mono fun _ _ hpoint =>
    decide_eq_true ((of_decide_eq_true hpoint).trans ht)
  bucket_le := h.bucket_le.trans <| partitionPoint_mono fun _ _ hbucket =>
    decide_eq_true ((of_decide_eq_true hbucket).trans ht)
  coverage_le bucket hbucket := (h.coverage_le bucket hbucket).trans ht

theorem SortedInput.weekly_partitioned (h : SortedInput input) (t : DateTime) :
    Partitioned (fun point : WeeklyLocalPoint => decide (point.observedAt ≤ t)) input.weekly :=
  partitioned_of_pairwise h.weekly fun _ _ hle ht =>
    decide_eq_true (hle.trans (of_decide_eq_true ht))

theorem SortedInput.buckets_partitioned (h : SortedInput input) (t : DateTime) :
    Partitioned (fun bucket : LocalHalfHourBucket => decide (bucket.endsAt ≤ t)) input.buckets :=
  partitioned_of_pairwise h.buckets fun _ _ hle ht =>
    decide_eq_true (hle.trans (of_decide_eq_true ht))

theorem SortedInput.coverage_partitioned (h : SortedInput input) (target : DateTime) :
    Partitioned (fun bucket : LocalHalfHourBucket => decide (bucket.startsAt < target))
      input.coverageBuckets :=
  partitioned_of_pairwise h.coverage fun _ _ hle ht =>
    decide_eq_true (hle.trans_lt (of_decide_eq_true ht))

theorem foldl_last {α σ : Type} (f : α → σ) (l : List α) (s : σ) :
    l.foldl (fun _ a => f a) s = (l.getLast?.map f).getD s := by
  induction l generalizing s with
  | nil => rfl
  | cons a l ih => rw [List.foldl_cons, ih, List.getLast?_cons]; cases l.getLast? <;> rfl

/-- A new base leaves none of the buckets that were passed: they end before it. -/
theorem Swept.aggregateOf_new (hsorted : SortedInput input)
    (h : Swept sourceKind cycleStartsAt input t c) {point : WeeklyLocalPoint}
    (hpoint : point ∈ input.weekly.drop c.weeklyIndex) :
    aggregateOf (some point) point.observedAt (input.buckets.take c.bucketIndex) =
      fromWeekly point := by
  have hnone : (input.buckets.take c.bucketIndex).filter
      (fun bucket => point.observedAt ≤ bucket.startsAt) = [] := by
    refine List.filter_eq_nil_iff.2 fun bucket hbucket hle => ?_
    have hvalid := startsAt_le_endsAt (hsorted.valid bucket (List.mem_of_mem_take hbucket))
    exact not_lt.2 ((of_decide_eq_true hle).trans hvalid) (h.before bucket hbucket point hpoint)
  unfold aggregateOf
  rw [hnone]
  rfl

/-- **The points** until an instant are passed; the last of them is the base. -/
theorem Swept.advanceWeekly (hsorted : SortedInput input)
    (h : Swept sourceKind cycleStartsAt input t c) :
    Swept sourceKind cycleStartsAt input t (c.advanceWeekly t) ∧
      (c.advanceWeekly t).weeklyIndex =
        partitionPoint (fun point => point.observedAt ≤ t) input.weekly := by
  have hp := hsorted.weekly_partitioned t
  have htake := take_partitionPoint hp
  obtain ⟨passed, hpassed, hnew, hsweep⟩ := @sweep_eq _ _ _
    (fun (_ : WeeklyAccumulator × Option DateTime) point => (fromWeekly point, some point.observedAt))
    _ hp _ h.weekly_le (c.aggregate, c.baseObservedAt)
  rw [foldl_last] at hsweep
  have hdrop : ∀ point ∈ input.weekly.drop
      (partitionPoint (fun point : WeeklyLocalPoint => point.observedAt ≤ t) input.weekly),
      point ∈ input.weekly.drop c.weeklyIndex := fun _ hpoint =>
    List.drop_subset_drop_left _ h.weekly_le hpoint
  have hlatest : (input.weekly.take (partitionPoint
      (fun point : WeeklyLocalPoint => point.observedAt ≤ t) input.weekly)).getLast? =
      passed.getLast?.or (input.weekly.take c.weeklyIndex).getLast? := by
    rw [htake, ← hpassed, List.getLast?_append]
  unfold WeeklySourceCursor.advanceWeekly
  rw [h.weekly_eq, hsweep]
  refine ⟨?_, rfl⟩
  cases hlast : passed.getLast? with
  | none =>
    rw [hlast, Option.none_or] at hlatest
    exact { h with
      weekly_eq := rfl
      weekly_le := le_rfl
      base := h.base.trans (congrArg _ hlatest.symm)
      aggregate := hlatest ▸ h.aggregate
      before := fun bucket hbucket point hpoint => h.before bucket hbucket point (hdrop point hpoint) }
  | some point =>
    rw [hlast, Option.some_or] at hlatest
    have hpoint := hnew point (List.mem_of_getLast? hlast)
    exact { h with
      weekly_eq := rfl
      weekly_le := le_rfl
      base := congrArg (Option.map WeeklyLocalPoint.observedAt) hlatest.symm
      aggregate := (h.aggregateOf_new hsorted hpoint).symm.trans
        (congrArg (aggregateOf · point.observedAt (input.buckets.take c.bucketIndex)) hlatest.symm)
      before := fun bucket hbucket point hpoint => h.before bucket hbucket point (hdrop point hpoint) }

/-- **The buckets** that end by an instant are passed; those since the base are added. -/
theorem Swept.advanceBuckets (hsorted : SortedInput input)
    (h : Swept sourceKind cycleStartsAt input t c)
    (hweekly : c.weeklyIndex = partitionPoint (fun point => point.observedAt ≤ t) input.weekly) :
    Swept sourceKind cycleStartsAt input t (c.advanceBuckets t) ∧
      (c.advanceBuckets t).weeklyIndex = c.weeklyIndex ∧
      (c.advanceBuckets t).bucketIndex =
        partitionPoint (fun bucket => bucket.endsAt ≤ t) input.buckets := by
  have hp := hsorted.buckets_partitioned t
  have htake := take_partitionPoint hp
  obtain ⟨passed, hpassed, -, hsweep⟩ := @sweep_eq _ _ _
    (fun aggregate (bucket : LocalHalfHourBucket) =>
      if c.bucketCutoff ≤ bucket.startsAt then aggregate.addBucket bucket else aggregate)
    _ hp _ h.bucket_le c.aggregate
  have hfold : passed.foldl (fun aggregate (bucket : LocalHalfHourBucket) =>
      if c.bucketCutoff ≤ bucket.startsAt then aggregate.addBucket bucket else aggregate)
      c.aggregate = aggregateOf (input.weekly.take c.weeklyIndex).getLast? c.bucketCutoff
        (input.buckets.filter fun bucket => bucket.endsAt ≤ t) := by
    rw [← hpassed, h.aggregate]
    unfold aggregateOf
    simp only [List.filter_append, List.foldl_append, List.foldl_filter, decide_eq_true_eq]
  unfold WeeklySourceCursor.advanceBuckets
  rw [h.buckets_eq, hsweep, hfold]
  refine ⟨?_, rfl, rfl⟩
  exact { h with
    buckets_eq := rfl
    bucket_le := le_rfl
    aggregate := congrArg
      (aggregateOf (input.weekly.take c.weeklyIndex).getLast? c.bucketCutoff) htake.symm
    before := by
      rw [htake, hweekly, drop_partitionPoint (hsorted.weekly_partitioned t)]
      intro bucket hbucket point hpoint
      have hends := of_decide_eq_true (List.mem_filter.1 hbucket).2
      have hlater := (List.mem_filter.1 hpoint).2
      simp only [Bool.not_eq_true', decide_eq_false_iff_not, not_le] at hlater
      exact hends.trans_lt hlater }

theorem foldl_extendCoverage (buckets : List LocalHalfHourBucket) (s : DateTime × Bool) :
    buckets.foldl WeeklySourceCursor.extendCoverage s =
      (buckets.map fun bucket => (bucket.startsAt, bucket.endsAt)).foldl extend s := by
  induction buckets generalizing s with
  | nil => rfl
  | cons bucket buckets ih =>
    have hstep : WeeklySourceCursor.extendCoverage s bucket =
        extend s (bucket.startsAt, bucket.endsAt) := by
      obtain ⟨through, gap⟩ := s
      unfold WeeklySourceCursor.extendCoverage extend
      cases gap with
      | true => rfl
      | false =>
        simp only [Bool.false_eq_true, if_false]
        split_ifs with hgap hends
        · rfl
        · rw [max_eq_right hends.le]
        · rw [max_eq_left (not_lt.1 hends)]
    rw [List.foldl_cons, List.map_cons, List.foldl_cons, hstep, ih]

section

variable (hsorted : SortedInput input)

include hsorted

open WeeklySourceCursor in
theorem reach_iff {origin : DateTime} {index : Nat}
    (hindex : partitionPoint (fun bucket => bucket.startsAt < coverageTarget t)
      input.coverageBuckets ≤ index)
    (hstarted : ∀ bucket ∈ input.coverageBuckets.take index, bucket.startsAt ≤ t) :
    let s := (input.coverageBuckets.take index).foldl extendCoverage (origin, false)
    (s.2 = false ∧ coverageTarget t ≤ s.1) ↔
      Reach input.coverageBuckets origin (coverageTarget t) := by
  have hmap : (input.coverageBuckets.take index ++ input.coverageBuckets.drop index) =
      input.coverageBuckets := List.take_append_drop index _
  have hcovers := @covers_iff _ _
    ((input.coverageBuckets.take index).map fun bucket => (bucket.startsAt, bucket.endsAt))
    ((input.coverageBuckets.drop index).map fun bucket => (bucket.startsAt, bucket.endsAt))
    (by rw [← List.map_append, hmap]; exact List.pairwise_map.2 hsorted.coverage) origin
    (coverageTarget t) ?_ ?_
  · dsimp only
    rw [foldl_extendCoverage, hcovers, ← List.map_append, hmap]
    simp [Reach]
  · intro i hi
    obtain ⟨bucket, hbucket, rfl⟩ := List.mem_map.1 hi
    have hvalid := hsorted.valid_coverage bucket (List.mem_of_mem_take hbucket)
    exact startsAt_le_target hvalid (hstarted bucket hbucket)
  · intro i hi
    obtain ⟨bucket, hbucket, rfl⟩ := List.mem_map.1 hi
    have hlater := List.drop_subset_drop_left _ hindex hbucket
    rw [drop_partitionPoint (hsorted.coverage_partitioned _)] at hlater
    simpa using (List.mem_filter.1 hlater).2

/-- **The coverage** of the cycle, whatever part of it is known already. -/
theorem Swept.coverageCompleteThrough (h : Swept sourceKind cycleStartsAt input t c) :
    Swept sourceKind cycleStartsAt input t (c.coverageCompleteThrough t).2 ∧
      ((c.coverageCompleteThrough t).1 = true ↔ CoverageComplete cycleStartsAt input t) := by
  obtain rfl := h.cycleStartsAt_eq
  have hp := hsorted.coverage_partitioned (WeeklySourceCursor.coverageTarget t)
  obtain ⟨index, hle, hbeyond, hpassed, hsweep⟩ := @sweep_foldl _ _ _
    WeeklySourceCursor.extendCoverage _ hp c.coverageIndex (c.cycleStartsAt, false)
  rw [← h.coverage] at hsweep
  have hstarted : ∀ bucket ∈ input.coverageBuckets.take index, bucket.startsAt ≤ t :=
    fun bucket hbucket => (hpassed bucket hbucket).elim (h.coverage_le bucket) fun hlt =>
      (of_decide_eq_true hlt).le.trans (target_le t)
  have hcovers := @reach_iff _ _ hsorted c.cycleStartsAt _ hbeyond hstarted
  dsimp only at hcovers
  unfold WeeklySourceCursor.coverageCompleteThrough CoverageComplete
  dsimp only
  split_ifs with hearly
  · -- At the start of the cycle nothing is to be covered, and before it nothing can be.
    refine ⟨h, decide_eq_true_iff.trans ⟨fun heq => ?_, fun hcomplete => ?_⟩⟩
    · exact ⟨heq.ge, fun x hx hlt => absurd (heq ▸ hlt) (not_lt.2 hx)⟩
    · exact le_antisymm hearly hcomplete.1
  · rw [h.coverageBuckets_eq, hsweep]
    refine ⟨?_, ?_⟩
    · exact { h with
        coverageBuckets_eq := rfl
        coverage_le := hstarted
        coverage := rfl }
    · rw [Bool.and_eq_true, Bool.not_eq_true', decide_eq_true_iff, hcovers]
      exact ⟨fun hreach => ⟨(not_le.1 hearly).le, hreach⟩, fun hcomplete => hcomplete.2⟩

theorem isLatest_getLast? {weekly : List WeeklyLocalPoint}
    (hperm : input.weekly.Perm weekly) (t : DateTime) :
    IsLatest weekly t (input.weekly.filter fun point => point.observedAt ≤ t).getLast? := by
  cases hlast : (input.weekly.filter fun point => point.observedAt ≤ t).getLast? with
  | none =>
    intro point hpoint
    have hnone := List.filter_eq_nil_iff.1 (List.getLast?_eq_none_iff.1 hlast) point
      (hperm.mem_iff.2 hpoint)
    simpa using hnone
  | some latest =>
    have hmem := List.mem_filter.1 (List.mem_of_getLast? hlast)
    refine ⟨hperm.subset hmem.1, of_decide_eq_true hmem.2, fun point hpoint hle => ?_⟩
    obtain ⟨rest, hrest⟩ := List.getLast?_eq_some_iff.1 hlast
    have hpoint' : point ∈ input.weekly.filter fun point => point.observedAt ≤ t :=
      List.mem_filter.2 ⟨hperm.mem_iff.2 hpoint, decide_eq_true hle⟩
    have hpairwise := hsorted.weekly.filter fun point => decide (point.observedAt ≤ t)
    rw [hrest] at hpoint' hpairwise
    rcases List.mem_append.1 hpoint' with hearlier | hlatest
    · exact (List.pairwise_append.1 hpairwise).2.2 point hearlier latest (by simp)
    · rw [List.mem_singleton.1 hlatest]

/-- **The aggregate** of an instant. -/
theorem Swept.advanceTo
    (h : Swept sourceKind cycleStartsAt input t c) {slice : WeeklyCycleSourceInput}
    (hweekly : input.weekly.Perm slice.weekly) (hbuckets : input.buckets.Perm slice.buckets) :
    Swept sourceKind cycleStartsAt input t (c.advanceTo t).2 ∧ ∃ base, IsLatest slice.weekly t base ∧
      ∀ complete, (complete = true ↔ CoverageComplete cycleStartsAt input t) →
        (c.advanceTo t).1 = cumulativeAt sourceKind cycleStartsAt slice t base complete := by
  obtain ⟨h, hweeklyIndex⟩ := h.advanceWeekly hsorted
  obtain ⟨h, hindex, hbucketIndex⟩ := h.advanceBuckets hsorted hweeklyIndex
  rw [hweeklyIndex] at hindex
  unfold WeeklySourceCursor.advanceTo
  generalize (c.advanceWeekly t).advanceBuckets t = c at h hindex hbucketIndex ⊢
  generalize hbase : (input.weekly.filter fun point => point.observedAt ≤ t).getLast? = base
  have hpoint : (input.weekly.take c.weeklyIndex).getLast? = base := by
    rw [hindex, take_partitionPoint (hsorted.weekly_partitioned t), hbase]
  have hobserved : c.baseObservedAt = base.map (·.observedAt) := hpoint ▸ h.base
  have hcutoff : c.bucketCutoff = (base.map (·.observedAt)).getD cycleStartsAt := by
    unfold WeeklySourceCursor.bucketCutoff
    rw [hobserved, h.cycleStartsAt_eq]
  have haggregate : c.aggregate = aggregateOf base ((base.map (·.observedAt)).getD cycleStartsAt)
      (slice.buckets.filter fun bucket => bucket.endsAt ≤ t) := by
    rw [h.aggregate, hpoint, hcutoff, hbucketIndex,
      take_partitionPoint (hsorted.buckets_partitioned t)]
    exact aggregateOf_perm (hbuckets.filter _)
  have hisSome : c.baseObservedAt.isSome = base.isSome := by
    rw [hobserved, Option.isSome_map]
  obtain ⟨hswept, hcoverage⟩ := h.coverageCompleteThrough hsorted
  dsimp only
  constructor
  · split
    · exact h
    · split
      · exact h
      · cases c.sourceKind with
        | ssh => exact h
        | «local» => exact hswept
  · refine ⟨base, hbase ▸ isLatest_getLast? hsorted hweekly t, fun complete hcomplete => ?_⟩
    have heq : (c.coverageCompleteThrough t).1 = complete :=
      Bool.eq_iff_iff.2 (hcoverage.trans hcomplete.symm)
    unfold cumulativeAt
    dsimp only
    rw [← haggregate, ← hisSome, ← h.sourceKind_eq]
    split
    · rfl
    · split
      · rfl
      · cases c.sourceKind with
        | ssh => rfl
        | «local» => simp only [heq]

theorem Swept.answer (h : Swept sourceKind cycleStartsAt input t c) {slice : WeeklyCycleSourceInput}
    (hweekly : input.weekly.Perm slice.weekly) (hbuckets : input.buckets.Perm slice.buckets)
    (hcoverage : input.coverageBuckets.Perm slice.coverageBuckets) :
    Swept sourceKind cycleStartsAt input t (c.answer t).2 ∧
      Answers sourceKind cycleStartsAt slice t (c.answer t).1 := by
  obtain ⟨hadvanced, base, hlatest, haggregate⟩ := h.advanceTo hsorted hweekly hbuckets
  obtain ⟨hswept, hcomplete⟩ := hadvanced.coverageCompleteThrough hsorted
  refine ⟨hswept, hcomplete.trans ?_, base, hlatest, haggregate _ hcomplete⟩
  unfold CoverageComplete Reach
  simp only [hcoverage.mem_iff]

theorem Swept.answers
    (h : Swept sourceKind cycleStartsAt input t c) {slice : WeeklyCycleSourceInput}
    (hweekly : input.weekly.Perm slice.weekly) (hbuckets : input.buckets.Perm slice.buckets)
    (hcoverage : input.coverageBuckets.Perm slice.coverageBuckets) {times : List DateTime}
    (htimes : (t :: times).Pairwise (· ≤ ·)) :
    List.Forall₂ (Answers sourceKind cycleStartsAt slice) times (c.answers times) := by
  induction times generalizing t c with
  | nil => exact .nil
  | cons t' times ih =>
    obtain ⟨hle, hrest⟩ := List.pairwise_cons.1 htimes
    obtain ⟨hswept, hanswer⟩ := (h.mono (hle t' List.mem_cons_self)).answer hsorted hweekly hbuckets
      hcoverage
    exact .cons hanswer (ih hswept hrest)

end

end

theorem sortedInput_of_slices {resets : List DateTime} {resetsAt : DateTime} {source : SourceSlice}
    {input : WeeklyCycleSourceInput} (hslices : Slices resets resetsAt source input)
    (hvalid : ∀ bucket ∈ source.buckets, isCurrentLocalBucket bucket = true) :
    SortedInput input where
  weekly := hslices.weekly_sorted
  buckets := hslices.buckets_sorted.imp fun hle => Prod.Lex.monotone_fst _ _ hle
  coverage := hslices.coverage_sorted.imp fun hle => Prod.Lex.monotone_fst _ _ hle
  valid bucket hbucket :=
    hvalid bucket (List.mem_filter.1 (hslices.buckets.subset hbucket)).1
  valid_coverage bucket hbucket :=
    hvalid bucket (List.mem_filter.1 (hslices.coverage.subset hbucket)).1

/-- **The cursor gives the direct answers**, at any instants in order. -/
theorem answers_direct {resets : List DateTime} {resetsAt : DateTime} {source : SourceSlice}
    {input : WeeklyCycleSourceInput} (hslices : Slices resets resetsAt source input)
    (hvalid : ∀ bucket ∈ source.buckets, isCurrentLocalBucket bucket = true)
    (cycleStartsAt : DateTime) {times : List DateTime} (htimes : times.Pairwise (· ≤ ·)) :
    List.Forall₂ (Answers source.kind cycleStartsAt (sliceOf resets resetsAt source)) times
      ((WeeklySourceCursor.fromPartitioned source.kind cycleStartsAt input).answers times) := by
  have hsorted := sortedInput_of_slices hslices hvalid
  cases times with
  | nil => exact .nil
  | cons t times =>
    refine (swept_fromPartitioned source.kind cycleStartsAt input t).answers hsorted hslices.weekly
      hslices.buckets hslices.coverage (List.pairwise_cons.2 ⟨fun t' ht' => ?_, htimes⟩)
    rcases List.mem_cons.1 ht' with rfl | ht'
    · exact le_rfl
    · exact (List.pairwise_cons.1 htimes).1 t' ht'

namespace Sample

/-- A bucket with one call. -/
def quarter (n : Int) : LocalHalfHourBucket where
  startsAt := minutes (15 * n)
  endsAt := minutes (15 * (n + 1))
  sampledAt := minutes (15 * (n + 1))
  estimatorRevision := 1
  callCount := 1

/-- The first hour of a cycle without its third quarter, and a point in that quarter. -/
def hour : SourceSlice where
  kind := .local
  buckets := [quarter 0, quarter 1, quarter 3]
  weeklyLocalPoints := [{
    observedAt := minutes 37
    resetsAt := weeklyWindow
    estimatorRevision := 1
    callCount := 10 }]

def hourInput : WeeklyCycleSourceInput := (sliceOf [weeklyWindow] weeklyWindow hour).sort

def times : List DateTime := [minutes 16, minutes 16, minutes 37, minutes 60]

end Sample

open Weekly.Sample in
/-- The point replaces the buckets before it. The last answer meets the gap. -/
theorem answers_direct_sample :
    ((WeeklySourceCursor.fromPartitioned .local 0 hourInput).answers times).map
      (fun answer => (answer.1.map (·.callCount), answer.2)) =
      [(some 1, true), (some 1, true), (some 10, true), (some 11, false)] ∧
    List.Forall₂ (Answers .local 0 (sliceOf [weeklyWindow] weeklyWindow hour)) times
      ((WeeklySourceCursor.fromPartitioned .local 0 hourInput).answers times) :=
  ⟨by decide +kernel, answers_direct (slices_sort [weeklyWindow] weeklyWindow hour)
    (by decide +kernel) 0 (by decide +kernel)⟩

open Weekly.Sample in
/-- A minute after the first bucket the coverage is complete, and nothing covers that minute. -/
theorem covered_before_the_instant :
    ((WeeklySourceCursor.fromPartitioned .local 0
      (sliceOf [weeklyWindow] weeklyWindow { hour with buckets := [quarter 0] }).sort).answers
        [minutes 16]).map (·.2) = [true] ∧
    ¬ Reach [quarter 0] 0 (minutes 16) := by
  refine ⟨by decide +kernel, fun hreach => ?_⟩
  obtain ⟨bucket, hbucket, -, hlt⟩ := hreach (minutes 15) (by decide) (by decide)
  rw [List.mem_singleton.1 hbucket] at hlt
  exact absurd hlt (by decide)

end Weekly
