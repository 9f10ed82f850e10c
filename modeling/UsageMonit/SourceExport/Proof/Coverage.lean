import Mathlib.Tactic.Linarith
import Mathlib.Tactic.Ring
import UsageMonit.SourceExport.Coverage

/-!
# The coverage of a day

The loop of `digestCoverage` goes from quarter hour to quarter hour (`loop_slots`) until the target,
a gap, or the bucket that is open at the target (`loop_open`). In the open bucket it goes on for ever
if the bucket was sampled at its start (`loop_stuck`); apart from that the loop ends and what it
returns is honest (`digest_coverage_honest`).
-/

namespace SourceExport

open Time History

variable {fuel : Nat} {result : DateTime × Finset String}

def slot (rangeStart : DateTime) (k : Nat) : DateTime := rangeStart + k * minutes 15

/-- The interval of a bucket is a quarter hour, and its sample is within it. -/
structure QuarterHour (bucket : LocalHalfHourBucket) : Prop where
  aligned : bucket.startsAt % minutes 15 = 0
  endsAt : bucket.endsAt = bucket.startsAt + minutes 15
  sampled : bucket.startsAt ≤ bucket.sampledAt ∧ bucket.sampledAt ≤ bucket.endsAt

section
variable (rangeStart : DateTime) (buckets : List LocalHalfHourBucket)

/-- The bucket of a quarter hour: the last one with its start. -/
def slotBucket (k : Nat) : Option LocalHalfHourBucket :=
  buckets.reverse.find? fun bucket => bucket.startsAt = slot rangeStart k

/-- A quarter hour that is present and free of hard reasons. -/
def SlotCovered (k : Nat) : Prop :=
  ∃ bucket ∈ slotBucket rangeStart buckets k,
    bucket.partialReasons.any isHardCoverageReason = false

/-- The loop reaches a bucket that is open at the observation and was sampled at its start. -/
def ReachesUnsampledBucket (observedAt : DateTime) : Prop :=
  ∃ k < 96, slot rangeStart k < observedAt ∧ observedAt < slot rangeStart (k + 1) ∧
    (∀ j ≤ k, SlotCovered rangeStart buckets j) ∧
    ∃ bucket ∈ slotBucket rangeStart buckets k, bucket.sampledAt = bucket.startsAt

end

section
variable {rangeStart rangeEnd observedAt : DateTime} {buckets : List LocalHalfHourBucket}

theorem slot_zero : slot rangeStart 0 = rangeStart := by
  simp [slot]

theorem slot_succ (k : Nat) : slot rangeStart (k + 1) = slot rangeStart k + minutes 15 := by
  simp only [slot, Nat.cast_add, Nat.cast_one]
  ring

theorem slot_lt (k : Nat) : slot rangeStart k < slot rangeStart (k + 1) := by
  rw [slot_succ]
  unfold minutes seconds
  linarith

theorem slot_mono {j k : Nat} (h : j ≤ k) : slot rangeStart j ≤ slot rangeStart k := by
  induction k, h using Nat.le_induction with
  | base => exact le_rfl
  | succ k _ ih => exact ih.trans (slot_lt k).le

theorem slot_le_iff {j k : Nat} : slot rangeStart j ≤ slot rangeStart k ↔ j ≤ k := by
  refine ⟨fun h => ?_, slot_mono⟩
  by_contra hlt
  have hnext : slot rangeStart (k + 1) ≤ slot rangeStart j := slot_mono (Nat.lt_of_not_le hlt)
  exact absurd ((slot_lt k).trans_le hnext) (not_lt.2 h)

theorem slot_day : slot rangeStart 96 = rangeStart + days 1 := by
  unfold slot days minutes seconds
  norm_num

theorem start_le_slot (k : Nat) : rangeStart ≤ slot rangeStart k := by
  have h : slot rangeStart 0 ≤ slot rangeStart k := slot_mono (Nat.zero_le k)
  rwa [slot_zero] at h

theorem bucketByStart_slot {k : Nat}
    (h : slot rangeStart k < coverageTarget rangeStart rangeEnd observedAt) :
    bucketByStart rangeStart rangeEnd buckets observedAt (slot rangeStart k) =
      slotBucket rangeStart buckets k :=
  if_pos ⟨start_le_slot k, h⟩

/-! ## One iteration -/

section
variable (hbuckets : ∀ bucket ∈ buckets, QuarterHour bucket) {k : Nat}
include hbuckets

theorem slotBucket_spec {bucket : LocalHalfHourBucket}
    (h : slotBucket rangeStart buckets k = some bucket) :
    bucket.startsAt = slot rangeStart k ∧ QuarterHour bucket := by
  refine ⟨by simpa using List.find?_some h, hbuckets bucket ?_⟩
  exact List.mem_reverse.1 (List.mem_of_find?_eq_some h)

theorem step_whole (hcovered : SlotCovered rangeStart buckets k)
    (htarget : slot rangeStart (k + 1) ≤ coverageTarget rangeStart rangeEnd observedAt) :
    coverageStep rangeStart rangeEnd buckets observedAt (slot rangeStart k) =
      .inl (slot rangeStart (k + 1)) := by
  obtain ⟨bucket, hbucket, hhard⟩ := hcovered
  obtain ⟨hstart, hquarter⟩ := slotBucket_spec hbuckets hbucket
  have hends : bucket.endsAt = slot rangeStart (k + 1) := by
    rw [hquarter.endsAt, hstart, slot_succ]
  have hlt : slot rangeStart k < slot rangeStart (k + 1) := slot_lt k
  unfold coverageStep
  rw [bucketByStart_slot (hlt.trans_le htarget), hbucket]
  simp only [hhard, hends, min_eq_left htarget, Bool.false_eq_true, if_false]
  rw [if_neg (not_le.2 hlt), if_neg (not_lt.2 htarget)]

theorem step_open {bucket : LocalHalfHourBucket}
    (hbucket : slotBucket rangeStart buckets k = some bucket)
    (hhard : bucket.partialReasons.any isHardCoverageReason = false)
    (hstart : slot rangeStart k < coverageTarget rangeStart rangeEnd observedAt)
    (hopen : coverageTarget rangeStart rangeEnd observedAt < slot rangeStart (k + 1)) :
    coverageStep rangeStart rangeEnd buckets observedAt (slot rangeStart k) =
      .inl (min bucket.sampledAt (coverageTarget rangeStart rangeEnd observedAt)) := by
  obtain ⟨hstarts, hquarter⟩ := slotBucket_spec hbuckets hbucket
  have hends : bucket.endsAt = slot rangeStart (k + 1) := by
    rw [hquarter.endsAt, hstarts, slot_succ]
  unfold coverageStep
  rw [bucketByStart_slot hstart, hbucket]
  simp only [hhard, hends, min_eq_right hopen.le, Bool.false_eq_true, if_false]
  rw [if_neg (not_le.2 hstart), if_pos hopen, max_eq_left hquarter.sampled.1]

omit hbuckets in
theorem step_gap (hgap : ¬ SlotCovered rangeStart buckets k)
    (hstart : slot rangeStart k < coverageTarget rangeStart rangeEnd observedAt) :
    ∃ reasons, reasons ≠ ∅ ∧
      coverageStep rangeStart rangeEnd buckets observedAt (slot rangeStart k) = .inr reasons := by
  unfold coverageStep
  rw [bucketByStart_slot hstart]
  cases hbucket : slotBucket rangeStart buckets k with
  | none => exact ⟨_, Finset.singleton_ne_empty _, rfl⟩
  | some bucket =>
    cases hhard : bucket.partialReasons.any isHardCoverageReason with
    | false => exact absurd ⟨bucket, hbucket, hhard⟩ hgap
    | true => exact ⟨_, Finset.insert_ne_empty _ _, if_pos hhard⟩

end

/-! ## The loop -/

theorem loop_done {t : DateTime} (h : coverageTarget rangeStart rangeEnd observedAt ≤ t) :
    coverageLoop rangeStart rangeEnd buckets observedAt fuel t = some (t, ∅) := by
  unfold coverageLoop
  exact if_neg (not_lt.2 h)

theorem loop_next {t next : DateTime} (h : t < coverageTarget rangeStart rangeEnd observedAt)
    (hstep : coverageStep rangeStart rangeEnd buckets observedAt t = .inl next) :
    coverageLoop rangeStart rangeEnd buckets observedAt (fuel + 1) t =
      coverageLoop rangeStart rangeEnd buckets observedAt fuel next := by
  conv_lhs => unfold coverageLoop
  rw [if_pos h]
  simp only [hstep]

theorem loop_break {t : DateTime} {reasons : Finset String}
    (h : t < coverageTarget rangeStart rangeEnd observedAt)
    (hstep : coverageStep rangeStart rangeEnd buckets observedAt t = .inr reasons) :
    coverageLoop rangeStart rangeEnd buckets observedAt (fuel + 1) t = some (t, reasons) := by
  unfold coverageLoop
  rw [if_pos h]
  simp only [hstep]

/-- **Over the covered quarter hours.** -/
theorem loop_slots (hbuckets : ∀ bucket ∈ buckets, QuarterHour bucket) {k : Nat}
    (hcovered : ∀ j < k, SlotCovered rangeStart buckets j)
    (htarget : slot rangeStart k ≤ coverageTarget rangeStart rangeEnd observedAt) (fuel : Nat) :
    coverageLoop rangeStart rangeEnd buckets observedAt (fuel + k) rangeStart =
      coverageLoop rangeStart rangeEnd buckets observedAt fuel (slot rangeStart k) := by
  induction k generalizing fuel with
  | zero => rw [slot_zero, Nat.add_zero]
  | succ k ih =>
    have hk : slot rangeStart k < coverageTarget rangeStart rangeEnd observedAt :=
      (slot_lt k).trans_le htarget
    have hprefix := ih (fun j hj => hcovered j (by omega)) hk.le (fuel + 1)
    rw [show fuel + (k + 1) = fuel + 1 + k by omega, hprefix,
      loop_next hk (step_whole hbuckets (hcovered k (by omega)) htarget)]

theorem loop_more {t : DateTime}
    (h : coverageLoop rangeStart rangeEnd buckets observedAt fuel t = some result) (more : Nat) :
    coverageLoop rangeStart rangeEnd buckets observedAt (fuel + more) t = some result := by
  induction fuel generalizing t with
  | zero =>
    by_cases ht : t < coverageTarget rangeStart rangeEnd observedAt
    · simp [coverageLoop, ht] at h
    · rw [loop_done (not_lt.1 ht)] at h ⊢
      exact h
  | succ fuel ih =>
    rw [Nat.succ_add]
    by_cases ht : t < coverageTarget rangeStart rangeEnd observedAt
    · cases hstep : coverageStep rangeStart rangeEnd buckets observedAt t with
      | inl next =>
        rw [loop_next ht hstep] at h ⊢
        exact ih h
      | inr reasons =>
        rw [loop_break ht hstep] at h ⊢
        exact h
    · rw [loop_done (not_lt.1 ht)] at h ⊢
      exact h

/-- A time the loop does not get on from. -/
theorem loop_stuck {t : DateTime} (h : t < coverageTarget rangeStart rangeEnd observedAt)
    (hstep : coverageStep rangeStart rangeEnd buckets observedAt t = .inl t) (fuel : Nat) :
    coverageLoop rangeStart rangeEnd buckets observedAt fuel t = none := by
  induction fuel with
  | zero => simp [coverageLoop, h]
  | succ fuel ih => rw [loop_next h hstep, ih]

/-! ## The first quarter hour the loop does not pass -/

/-- The quarter hours before the `k`-th are covered, and the `k`-th one is not passed whole. -/
structure Frontier (rangeStart rangeEnd observedAt : DateTime)
    (buckets : List LocalHalfHourBucket) (k : Nat) : Prop where
  le_day : k ≤ 96
  covered : ∀ j < k, SlotCovered rangeStart buckets j
  reached : slot rangeStart k ≤ coverageTarget rangeStart rangeEnd observedAt
  stop : slot rangeStart k = coverageTarget rangeStart rangeEnd observedAt ∨
    ¬ SlotCovered rangeStart buckets k ∨
    coverageTarget rangeStart rangeEnd observedAt < slot rangeStart (k + 1)

theorem target_le_end : coverageTarget rangeStart rangeEnd observedAt ≤ rangeEnd := min_le_right _ _

section
variable (hend : rangeEnd = rangeStart + days 1)
include hend

theorem start_le_target : rangeStart ≤ coverageTarget rangeStart rangeEnd observedAt := by
  refine le_min (le_max_right _ _) ?_
  rw [hend, ← slot_day]
  exact start_le_slot 96

theorem exists_frontier : ∃ k, Frontier rangeStart rangeEnd observedAt buckets k := by
  by_contra hnone
  -- without such a quarter hour all of the day would be passed
  have hall : ∀ n ≤ 96, (∀ j < n, SlotCovered rangeStart buckets j) ∧
      slot rangeStart n ≤ coverageTarget rangeStart rangeEnd observedAt := by
    intro n
    induction n with
    | zero =>
      intro _
      exact ⟨by simp, by rw [slot_zero]; exact start_le_target hend⟩
    | succ n ih =>
      intro hn
      obtain ⟨hcovered, hreached⟩ := ih (by omega)
      have hpassed : SlotCovered rangeStart buckets n ∧
          slot rangeStart (n + 1) ≤ coverageTarget rangeStart rangeEnd observedAt := by
        by_contra hstop
        rw [not_and_or, not_le] at hstop
        exact hnone ⟨n, by omega, hcovered, hreached, .inr hstop⟩
      refine ⟨fun j hj => ?_, hpassed.2⟩
      rcases Nat.lt_succ_iff_lt_or_eq.1 hj with hj | rfl
      · exact hcovered j hj
      · exact hpassed.1
  obtain ⟨hcovered, hreached⟩ := hall 96 le_rfl
  refine hnone ⟨96, le_rfl, hcovered, hreached, .inl (le_antisymm hreached ?_)⟩
  rw [slot_day, ← hend]
  exact target_le_end

theorem target_eq_observedAt {k : Nat} (hk : k < 96)
    (hreached : slot rangeStart k < coverageTarget rangeStart rangeEnd observedAt)
    (hopen : coverageTarget rangeStart rangeEnd observedAt < slot rangeStart (k + 1)) :
    coverageTarget rangeStart rangeEnd observedAt = observedAt := by
  have hday : slot rangeStart (k + 1) ≤ rangeEnd := by
    rw [hend, ← slot_day]
    exact slot_mono hk
  have hstart : rangeStart ≤ slot rangeStart k := start_le_slot k
  unfold coverageTarget at *
  rcases min_choice (max observedAt rangeStart) rangeEnd with hmin | hmin
  · rw [hmin] at hreached ⊢
    rcases max_choice observedAt rangeStart with hmax | hmax
    · exact hmax
    · rw [hmax] at hreached
      exact absurd hreached (not_lt.2 hstart)
  · rw [hmin] at hopen
    exact absurd hopen (not_lt.2 hday)

theorem Frontier.lt_day {k : Nat} (h : Frontier rangeStart rangeEnd observedAt buckets k)
    (hlt : slot rangeStart k < coverageTarget rangeStart rangeEnd observedAt) : k < 96 := by
  refine lt_of_le_of_ne h.le_day fun heq => ?_
  rw [heq, slot_day, ← hend] at hlt
  exact absurd hlt (not_lt.2 target_le_end)

end

/-! ## What the loop returns -/

/-- What the loop returns, told from the quarter hour it does not pass. -/
structure EndsIn (rangeStart rangeEnd observedAt : DateTime) (k : Nat)
    (result : DateTime × Finset String) : Prop where
  lower : slot rangeStart k ≤ result.1
  upper : result.1 ≤ coverageTarget rangeStart rangeEnd observedAt
  within : result.1 < slot rangeStart (k + 1)
  whole : rangeEnd ≤ observedAt → (result.1 = rangeEnd ∧ result.2 = ∅ ↔ k = 96)

section
variable (hbuckets : ∀ bucket ∈ buckets, QuarterHour bucket)
  (hday : rangeStart % days 1 = 0) (hend : rangeEnd = rangeStart + days 1) {k : Nat}
  (hk : Frontier rangeStart rangeEnd observedAt buckets k)
include hbuckets hend hk

theorem loop_at_target
    (htarget : slot rangeStart k = coverageTarget rangeStart rangeEnd observedAt) :
    ∃ fuel result, coverageLoop rangeStart rangeEnd buckets observedAt fuel rangeStart =
      some result ∧ EndsIn rangeStart rangeEnd observedAt k result := by
  refine ⟨0 + k, (slot rangeStart k, ∅), ?_, le_rfl, hk.reached, slot_lt k, fun hclosed => ?_⟩
  · rw [loop_slots hbuckets hk.covered hk.reached, loop_done htarget.ge]
  · have hwhole : slot rangeStart k = slot rangeStart 96 := by
      rw [htarget, slot_day, ← hend]
      exact min_eq_right (hclosed.trans (le_max_left _ _))
    have hlast : k = 96 := le_antisymm hk.le_day (slot_le_iff.1 hwhole.ge)
    rw [slot_day, ← hend] at hwhole
    exact ⟨fun _ => hlast, fun _ => ⟨hwhole, rfl⟩⟩

theorem loop_at_gap (hlt : slot rangeStart k < coverageTarget rangeStart rangeEnd observedAt)
    (hgap : ¬ SlotCovered rangeStart buckets k) :
    ∃ fuel result, coverageLoop rangeStart rangeEnd buckets observedAt fuel rangeStart =
      some result ∧ EndsIn rangeStart rangeEnd observedAt k result := by
  obtain ⟨reasons, hreasons, hstep⟩ := step_gap hgap hlt
  refine ⟨1 + k, (slot rangeStart k, reasons), ?_, le_rfl, hk.reached, slot_lt k, fun _ => ?_⟩
  · rw [loop_slots hbuckets hk.covered hk.reached, ← Nat.zero_add 1, loop_break hlt hstep]
  · have hlast : k ≠ 96 := (hk.lt_day hend hlt).ne
    simp [hreasons, hlast]

omit hbuckets hend hk in
include hbuckets hday in
theorem bucketByStart_within {t : DateTime} (hlower : slot rangeStart k < t)
    (hupper : t < slot rangeStart (k + 1)) :
    bucketByStart rangeStart rangeEnd buckets observedAt t = none := by
  unfold bucketByStart
  split
  · rw [List.find?_eq_none]
    intro bucket hbucket hstart
    have haligned := (hbuckets bucket (List.mem_reverse.1 hbucket)).aligned
    rw [of_decide_eq_true hstart] at haligned
    simp only [slot, DateTime, Duration, minutes, days, seconds] at *
    push_cast at *
    omega
  · rfl

include hday in
theorem loop_in_open {bucket : LocalHalfHourBucket}
    (hlt : slot rangeStart k < coverageTarget rangeStart rangeEnd observedAt)
    (hopen : coverageTarget rangeStart rangeEnd observedAt < slot rangeStart (k + 1))
    (hbucket : slotBucket rangeStart buckets k = some bucket)
    (hhard : bucket.partialReasons.any isHardCoverageReason = false)
    (hsampled : bucket.sampledAt ≠ bucket.startsAt) :
    ∃ fuel result, coverageLoop rangeStart rangeEnd buckets observedAt fuel rangeStart =
      some result ∧ EndsIn rangeStart rangeEnd observedAt k result := by
  have hstep := step_open hbuckets hbucket hhard hlt hopen
  obtain ⟨hstarts, hquarter⟩ := slotBucket_spec hbuckets hbucket
  have hsome := lt_of_le_of_ne hquarter.sampled.1 hsampled.symm
  rw [hstarts] at hsome
  set t := min bucket.sampledAt (coverageTarget rangeStart rangeEnd observedAt) with ht
  have hlower : slot rangeStart k < t := lt_min hsome hlt
  have hupper : t ≤ coverageTarget rangeStart rangeEnd observedAt := min_le_right _ _
  have hends : ∀ reasons, EndsIn rangeStart rangeEnd observedAt k (t, reasons) := by
    refine fun _ => ⟨hlower.le, hupper, hupper.trans_lt hopen, fun hclosed => ?_⟩
    -- the day is not over in an open bucket
    have hobserved := target_eq_observedAt hend (hk.lt_day hend hlt) hlt hopen
    have hnext : slot rangeStart (k + 1) ≤ rangeEnd := by
      rw [hend, ← slot_day]
      exact slot_mono (hk.lt_day hend hlt)
    rw [hobserved] at hopen
    exact absurd (hopen.trans_le hnext) (not_lt.2 hclosed)
  rcases hupper.eq_or_lt with hdone | hmore
  · refine ⟨1 + k, (t, ∅), ?_, hends ∅⟩
    rw [loop_slots hbuckets hk.covered hk.reached, ← Nat.zero_add 1, loop_next hlt hstep,
      loop_done hdone.ge]
  · have hnone : bucketByStart rangeStart rangeEnd buckets observedAt t = none :=
      bucketByStart_within hbuckets hday hlower (hupper.trans_lt hopen)
    have hgap : coverageStep rangeStart rangeEnd buckets observedAt t =
        .inr {coverageGapReason} := by
      unfold coverageStep
      rw [hnone]
    refine ⟨2 + k, (t, {coverageGapReason}), ?_, hends _⟩
    rw [loop_slots hbuckets hk.covered hk.reached, loop_next hlt hstep, ← Nat.zero_add 1,
      loop_break hmore hgap]

end

/-! ## Honesty -/

/-- What a digest may say about the coverage of its day. -/
structure Honest (rangeStart rangeEnd observedAt : DateTime) (buckets : List LocalHalfHourBucket)
    (scanComplete : Bool) (coverage : DigestCoverage) : Prop where
  bounds : rangeStart ≤ coverage.coveredThrough ∧
    coverage.coveredThrough ≤ min observedAt rangeEnd
  covered : ∀ k, slot rangeStart (k + 1) ≤ coverage.coveredThrough →
    SlotCovered rangeStart buckets k
  complete : coverage.complete = true ↔ scanComplete = true ∧ rangeEnd ≤ observedAt ∧
    ∀ k < 96, SlotCovered rangeStart buckets k

variable {scanComplete : Bool}

section
variable {coverage : DigestCoverage}
  (hloop : coverageLoop rangeStart rangeEnd buckets observedAt fuel rangeStart = some result)
  (h : digestCoverage rangeStart rangeEnd buckets observedAt scanComplete fuel = some coverage)
include hloop h

theorem complete_iff :
    coverage.complete = true ↔ scanComplete = true ∧ rangeEnd ≤ observedAt ∧
      result.1 = rangeEnd ∧ result.2 = ∅ := by
  unfold digestCoverage at h
  rw [hloop, Option.map_some, Option.some_inj] at h
  subst h
  cases scanComplete with
  | false => simp
  | true =>
    by_cases hopen : observedAt < rangeEnd
    · simp [hopen]
    · have htarget : coverageTarget rangeStart rangeEnd observedAt = rangeEnd :=
        min_eq_right ((not_lt.1 hopen).trans (le_max_left _ _))
      simp [hopen, htarget, not_lt.1 hopen]

theorem coveredThrough_eq : coverage.coveredThrough = result.1 := by
  unfold digestCoverage at h
  rw [hloop, Option.map_some, Option.some_inj] at h
  rw [← h]

end

section
variable (hend : rangeEnd = rangeStart + days 1) {k : Nat}
  (hk : Frontier rangeStart rangeEnd observedAt buckets k)
include hend hk

/-- What the loop returns is honest about an observation that is not before the day. -/
theorem EndsIn.honest {coverage : DigestCoverage}
    (hresult : EndsIn rangeStart rangeEnd observedAt k result)
    (hloop : coverageLoop rangeStart rangeEnd buckets observedAt fuel rangeStart = some result)
    (h : digestCoverage rangeStart rangeEnd buckets observedAt scanComplete fuel = some coverage)
    (hobserved : rangeStart ≤ observedAt) :
    Honest rangeStart rangeEnd observedAt buckets scanComplete coverage := by
  have hcoveredThrough := coveredThrough_eq hloop h
  refine ⟨⟨?_, ?_⟩, fun j hj => ?_, ?_⟩
  · rw [hcoveredThrough]
    exact (start_le_slot k).trans hresult.lower
  · rw [hcoveredThrough, ← max_eq_left hobserved]
    exact hresult.upper
  · rw [hcoveredThrough] at hj
    refine hk.covered j (Nat.lt_of_not_le fun hkj => ?_)
    have hnext : slot rangeStart (k + 1) ≤ slot rangeStart (j + 1) := slot_mono (by omega)
    exact absurd (hnext.trans hj) (not_le.2 hresult.within)
  · rw [complete_iff hloop h]
    refine and_congr_right fun _ => and_congr_right fun hclosed => ?_
    rw [hresult.whole hclosed]
    constructor
    · rintro rfl
      exact hk.covered
    · intro hall
      by_contra hlast
      -- a day that is over is not left off in a covered quarter hour
      have hlt : k < 96 := lt_of_le_of_ne hk.le_day hlast
      have htarget : coverageTarget rangeStart rangeEnd observedAt = slot rangeStart 96 := by
        rw [slot_day, ← hend]
        exact min_eq_right (hclosed.trans (le_max_left _ _))
      rcases hk.stop with hdone | hgap | hopen
      · rw [htarget] at hdone
        exact hlast (le_antisymm hk.le_day (slot_le_iff.1 hdone.ge))
      · exact hgap (hall k hlt)
      · rw [htarget] at hopen
        exact absurd (slot_mono hlt) (not_le.2 hopen)

end

section
variable (hbuckets : ∀ bucket ∈ buckets, QuarterHour bucket)
  (hday : rangeStart % days 1 = 0) (hend : rangeEnd = rangeStart + days 1)
include hbuckets hend

/-- In a bucket sampled at its start the loop goes on for ever. -/
theorem loop_unsampled (hunsampled : ReachesUnsampledBucket rangeStart buckets observedAt)
    (fuel : Nat) :
    coverageLoop rangeStart rangeEnd buckets observedAt fuel rangeStart = none := by
  obtain ⟨k, hk, hlower, hupper, hcovered, bucket, hbucket, hsampled⟩ := hunsampled
  have hnext : slot rangeStart (k + 1) ≤ rangeEnd := by
    rw [hend, ← slot_day]
    exact slot_mono hk
  have htarget : coverageTarget rangeStart rangeEnd observedAt = observedAt := by
    unfold coverageTarget
    rw [max_eq_left ((start_le_slot k).trans hlower.le), min_eq_left (hupper.le.trans hnext)]
  obtain ⟨hstarts, -⟩ := slotBucket_spec hbuckets hbucket
  have hhard : bucket.partialReasons.any isHardCoverageReason = false := by
    obtain ⟨other, hother, hhard⟩ := hcovered k le_rfl
    have heq : bucket = other := Option.some_inj.1 (hbucket.symm.trans hother)
    rwa [heq]
  have hreached := hlower.trans_eq htarget.symm
  have hstep := step_open hbuckets hbucket hhard hreached (htarget.trans_lt hupper)
  rw [hsampled, hstarts, htarget, min_eq_left hlower.le] at hstep
  cases hresult : coverageLoop rangeStart rangeEnd buckets observedAt fuel rangeStart with
  | none => rfl
  | some result =>
    have hmore := loop_more hresult k
    rw [loop_slots hbuckets (fun j hj => hcovered j hj.le) hreached.le,
      loop_stuck hreached hstep] at hmore
    exact absurd hmore (by simp)

include hday in
/-- Apart from that the loop ends. -/
theorem loop_ends (hsampled : ¬ ReachesUnsampledBucket rangeStart buckets observedAt) :
    ∃ k fuel result, Frontier rangeStart rangeEnd observedAt buckets k ∧
      EndsIn rangeStart rangeEnd observedAt k result ∧
      coverageLoop rangeStart rangeEnd buckets observedAt fuel rangeStart = some result := by
  obtain ⟨k, hk⟩ : ∃ k, Frontier rangeStart rangeEnd observedAt buckets k := exists_frontier hend
  have hresult : ∃ fuel result,
      coverageLoop rangeStart rangeEnd buckets observedAt fuel rangeStart = some result ∧
        EndsIn rangeStart rangeEnd observedAt k result := by
    rcases hk.reached.eq_or_lt with htarget | hlt
    · exact loop_at_target hbuckets hend hk htarget
    · by_cases hcovered : SlotCovered rangeStart buckets k
      · have hopen := (hk.stop.resolve_left hlt.ne).resolve_left (not_not.2 hcovered)
        obtain ⟨bucket, hbucket, hhard⟩ := id hcovered
        refine loop_in_open hbuckets hday hend hk hlt hopen hbucket hhard fun hstart => ?_
        have hlast := hk.lt_day hend hlt
        have hobserved := target_eq_observedAt hend hlast hlt hopen
        rw [hobserved] at hlt hopen
        refine hsampled ⟨k, hlast, hlt, hopen, fun j hj => ?_, bucket, hbucket, hstart⟩
        rcases hj.eq_or_lt with rfl | hj
        · exact hcovered
        · exact hk.covered j hj
      · exact loop_at_gap hbuckets hend hk hlt hcovered
  obtain ⟨fuel, result, hloop, hends⟩ := hresult
  exact ⟨k, fuel, result, hk, hends, hloop⟩

end

/-- **The coverage of a day ends and is honest exactly when** the observation is not before the day
and the bucket open at it, if the loop gets there, was not sampled at its start. -/
theorem digest_coverage_honest (rangeStart rangeEnd observedAt : DateTime)
    (buckets : List LocalHalfHourBucket) (scanComplete : Bool)
    (hbuckets : ∀ bucket ∈ buckets, QuarterHour bucket)
    (hday : rangeStart % days 1 = 0) (hend : rangeEnd = rangeStart + days 1) :
    (∃ enough coverage, Honest rangeStart rangeEnd observedAt buckets scanComplete coverage ∧
      ∀ fuel ≥ enough, digestCoverage rangeStart rangeEnd buckets observedAt scanComplete fuel =
        some coverage) ↔
      rangeStart ≤ observedAt ∧ ¬ ReachesUnsampledBucket rangeStart buckets observedAt := by
  constructor
  · rintro ⟨enough, coverage, hhonest, hresult⟩
    refine ⟨(hhonest.bounds.1.trans hhonest.bounds.2).trans (min_le_left _ _), fun hstuck => ?_⟩
    have hnone := hresult enough le_rfl
    unfold digestCoverage at hnone
    rw [loop_unsampled hbuckets hend hstuck] at hnone
    exact absurd hnone (by simp)
  · rintro ⟨hobserved, hsampled⟩
    obtain ⟨k, enough, result, hk, hends, hloop⟩ := loop_ends hbuckets hday hend hsampled
    have hall : ∀ fuel ≥ enough,
        coverageLoop rangeStart rangeEnd buckets observedAt fuel rangeStart = some result := by
      intro fuel hfuel
      obtain ⟨more, rfl⟩ := Nat.exists_eq_add_of_le hfuel
      exact loop_more hloop more
    obtain ⟨coverage, hcoverage⟩ : ∃ coverage, digestCoverage rangeStart rangeEnd buckets observedAt
        scanComplete enough = some coverage := by
      unfold digestCoverage
      rw [hloop]
      exact ⟨_, rfl⟩
    refine ⟨enough, coverage, hends.honest hend hk hloop hcoverage hobserved, fun fuel hfuel => ?_⟩
    rw [← hcoverage]
    unfold digestCoverage
    rw [hall fuel hfuel, hloop]

namespace Sample

/-- The bucket of the first quarter hour, with nothing in it. -/
def bucketSampledAt (sampledAt : DateTime) : LocalHalfHourBucket where
  startsAt := 0
  endsAt := minutes 15
  sampledAt := sampledAt
  estimatorRevision := 0

theorem bucketSampledAt_quarterHour {sampledAt : DateTime}
    (h : 0 ≤ sampledAt ∧ sampledAt ≤ minutes 15) :
    ∀ bucket ∈ [bucketSampledAt sampledAt], QuarterHour bucket := by
  intro bucket hbucket
  rw [List.mem_singleton.1 hbucket]
  exact ⟨rfl, rfl, h⟩

end Sample

open SourceExport.Sample in
/-- A bucket sampled five minutes into it is covered up to there. -/
theorem digest_coverage_sample :
    ∃ enough coverage,
      Honest 0 (days 1) (minutes 5) [bucketSampledAt (minutes 5)] true coverage ∧
        ∀ fuel ≥ enough, digestCoverage 0 (days 1) [bucketSampledAt (minutes 5)] (minutes 5) true
          fuel = some coverage := by
  refine (digest_coverage_honest 0 (days 1) (minutes 5) [bucketSampledAt (minutes 5)] true
    (bucketSampledAt_quarterHour (by decide)) (by decide) (by decide)).2 ⟨by decide, ?_⟩
  rintro ⟨k, -, -, -, -, bucket, hbucket, hsampled⟩
  have hmem := List.mem_of_find?_eq_some hbucket
  rw [List.mem_singleton.1 (List.mem_reverse.1 hmem)] at hsampled
  exact absurd hsampled (by decide)

open SourceExport.Sample in
/-- A bucket sampled at its start, within itself, holds the loop for ever once it is observed five
minutes later. -/
theorem bucket_sampled_at_start_never_ends :
    (∀ bucket ∈ [bucketSampledAt 0], QuarterHour bucket) ∧ (0 : DateTime) ≤ minutes 5 ∧
      ∀ fuel, digestCoverage 0 (days 1) [bucketSampledAt 0] (minutes 5) true fuel = none := by
  have hbuckets := @bucketSampledAt_quarterHour 0 (by decide)
  have hslot : slotBucket 0 [bucketSampledAt 0] 0 = some (bucketSampledAt 0) := by decide
  have hstuck : ReachesUnsampledBucket 0 [bucketSampledAt 0] (minutes 5) := by
    refine ⟨0, by decide, by decide, by decide, fun j hj => ?_, bucketSampledAt 0, hslot, rfl⟩
    rw [Nat.le_zero.1 hj]
    exact ⟨bucketSampledAt 0, hslot, rfl⟩
  have hend : days 1 = 0 + days 1 := by decide
  refine ⟨hbuckets, by decide, fun fuel => ?_⟩
  unfold digestCoverage
  rw [loop_unsampled hbuckets hend hstuck, Option.map_none]

end

end SourceExport
