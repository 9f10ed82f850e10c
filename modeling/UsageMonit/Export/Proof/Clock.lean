import UsageMonit.Export.Reconcile
import Mathlib.Data.List.Induction
import Mathlib.Data.List.Sort

/-!
# The retention clock resists bad readings

`nextRetentionClock` trusts a reading at once when it is at most a day ahead
(`nextRetentionClock_near`), and otherwise counts it towards a pending jump that it restarts or
continues. `PendingRun` says which readings of a run a pending jump consists of; along every run
it holds of the clock reached (`pendingRun_run`), so that a jump is trusted after three readings
that span two days, and not before.
-/

namespace Export

open Fallible Time

variable {o : DateTime} {clock : RetentionClock}

def retentionRun (clock : RetentionClock) (readings : List DateTime) : RetentionClock :=
  readings.foldl (fun clock observedAt => (nextRetentionClock clock observedAt).1) clock

@[simp] theorem retentionRun_concat (clock : RetentionClock) (readings : List DateTime)
    (o : DateTime) : retentionRun clock (readings ++ [o]) =
      (nextRetentionClock (retentionRun clock readings) o).1 := by
  simp [retentionRun]

/-- An instant that `DateTime<Utc>` can hold. -/
def Representable (t : DateTime) : Prop := minUtc ≤ t ∧ t ≤ maxUtc

/-- A reading more than a day after the trusted instant. -/
def Beyond (trustedAt o : DateTime) : Prop :=
  trustedAt + hours retentionClockMaxUnconfirmedForwardHours < o

/-- A reading continues the pending jump of a clock. -/
def Continues (clock : RetentionClock) (o : DateTime) : Prop :=
  ∃ lastAt ∈ clock.pendingLastAt, lastAt ≤ o

/-- The jump with one more reading. -/
def RetentionClock.confirm (clock : RetentionClock) (o : DateTime) : RetentionClock :=
  { clock with
    pendingLastAt := some o
    pendingConfirmations := saturatingAdd 32 clock.pendingConfirmations 1 }

/-- The instant from which a pending jump counts as stable. -/
def RetentionClock.stableSince (clock : RetentionClock) : DateTime :=
  (clock.pendingStartedAt.bind fun startedAt =>
    checkedAddSigned startedAt (hours retentionClockConfirmationHours)).getD maxUtc

/-! ## One reading -/

theorem Beyond.not_le {trustedAt : DateTime} (h : Beyond trustedAt o) : ¬ o ≤ trustedAt := by
  have hday : (0 : Int) ≤ hours retentionClockMaxUnconfirmedForwardHours := by decide
  intro hle
  exact absurd (h.trans_le (hle.trans (Int.le_add_of_nonneg_right hday))) (lt_irrefl _)

section
variable (hclock : Representable clock.trustedAt) (ho : Representable o)
include hclock ho

/-- The overflow of the daily bound does not matter: no reading is beyond it then. -/
theorem le_maximum_iff :
    o ≤ (checkedAddSigned clock.trustedAt
        (hours retentionClockMaxUnconfirmedForwardHours)).getD maxUtc ↔
      ¬ Beyond clock.trustedAt o := by
  obtain ⟨hmin, hmax⟩ := hclock
  obtain ⟨homin, homax⟩ := ho
  have hday : (0 : Int) ≤ hours retentionClockMaxUnconfirmedForwardHours := by decide
  unfold checkedAddSigned Beyond
  split
  · simp
  · rename_i hout
    have hout : maxUtc < clock.trustedAt + hours retentionClockMaxUnconfirmedForwardHours := by
      by_contra hle
      exact hout ⟨hmin.trans (Int.le_add_of_nonneg_right hday), Int.not_lt.1 hle⟩
    simp only [Option.getD_none, homax, true_iff, not_lt]
    exact homax.trans hout.le

/-- A reading that is not beyond the bound is trusted, and never moves the clock back. -/
theorem nextRetentionClock_near (h : ¬ Beyond clock.trustedAt o) :
    nextRetentionClock clock o = (RetentionClock.current (max clock.trustedAt o), false) := by
  unfold nextRetentionClock
  split
  · rename_i hle
    rw [max_eq_left hle]
  · rename_i hle
    rw [max_eq_right (Int.not_le.1 hle).le]
    rw [if_pos ((le_maximum_iff hclock ho).2 h)]

theorem nextRetentionClock_restart (h : Beyond clock.trustedAt o) (hc : ¬ Continues clock o) :
    nextRetentionClock clock o = (RetentionClock.pending clock.trustedAt o, true) := by
  unfold nextRetentionClock
  rw [if_neg h.not_le, if_neg (mt (le_maximum_iff hclock ho).1 (not_not.2 h))]
  exact if_pos hc

theorem nextRetentionClock_continue (h : Beyond clock.trustedAt o) (hc : Continues clock o) :
    nextRetentionClock clock o =
      if clock.stableSince ≤ o ∧
          retentionClockMinConfirmations ≤ (clock.confirm o).pendingConfirmations
      then (RetentionClock.current o, false) else (clock.confirm o, true) := by
  unfold nextRetentionClock
  rw [if_neg h.not_le, if_neg (mt (le_maximum_iff hclock ho).1 (not_not.2 h))]
  exact if_neg (not_not.2 hc)

theorem trustedAt_next :
    ((nextRetentionClock clock o).1.trustedAt = clock.trustedAt ∨
      (nextRetentionClock clock o).1.trustedAt = o) ∧
      clock.trustedAt ≤ (nextRetentionClock clock o).1.trustedAt := by
  by_cases h : Beyond clock.trustedAt o
  · have hlt : clock.trustedAt ≤ o := (Int.not_le.1 h.not_le).le
    by_cases hc : Continues clock o
    · rw [nextRetentionClock_continue hclock ho h hc]
      split
      · exact ⟨.inr rfl, hlt⟩
      · exact ⟨.inl rfl, le_refl clock.trustedAt⟩
    · rw [nextRetentionClock_restart hclock ho h hc]
      exact ⟨.inl rfl, le_refl clock.trustedAt⟩
  · rw [nextRetentionClock_near hclock ho h]
    refine ⟨?_, le_max_left clock.trustedAt o⟩
    rcases le_total clock.trustedAt o with hle | hle
    · exact .inr (max_eq_right hle)
    · exact .inl (max_eq_left hle)

theorem representable_next : Representable (nextRetentionClock clock o).1.trustedAt := by
  rcases (trustedAt_next hclock ho).1 with h | h
  · rw [h]
    exact hclock
  · rw [h]
    exact ho

end

theorem RetentionClock.validate_iff (clock : RetentionClock) : clock.validate = .ok () ↔
    (clock.pendingStartedAt = none ∧ clock.pendingLastAt = none ∧
        clock.pendingConfirmations = 0) ∨
      ∃ startedAt lastAt, clock.pendingStartedAt = some startedAt ∧
        clock.pendingLastAt = some lastAt ∧ 0 < clock.pendingConfirmations ∧
        startedAt ≤ lastAt ∧ clock.trustedAt < startedAt := by
  unfold RetentionClock.validate
  cases clock.pendingStartedAt <;> cases clock.pendingLastAt <;> simp

/-- **One reading keeps a valid clock valid.** -/
theorem validate_next (hclock : Representable clock.trustedAt) (ho : Representable o)
    (hvalid : clock.validate = .ok ()) : (nextRetentionClock clock o).1.validate = .ok () := by
  have hcurrent : ∀ t, (RetentionClock.current t).validate = .ok () := fun t => rfl
  by_cases h : Beyond clock.trustedAt o
  · have hlt : clock.trustedAt < o := Int.not_le.1 h.not_le
    by_cases hc : Continues clock o
    · rw [nextRetentionClock_continue hclock ho h hc]
      split
      · exact hcurrent o
      · obtain ⟨lastAt, hlast, hle⟩ := hc
        rw [RetentionClock.validate_iff] at hvalid ⊢
        rcases hvalid with ⟨-, hnone, -⟩ | ⟨startedAt, last, hstart, hlast', -, hsl, hts⟩
        · rw [hnone] at hlast
          cases hlast
        · rw [hlast'] at hlast
          cases hlast
          refine .inr ⟨startedAt, o, hstart, rfl, ?_, hsl.trans hle, hts⟩
          simp [RetentionClock.confirm, saturatingAdd]
    · rw [nextRetentionClock_restart hclock ho h hc, RetentionClock.validate_iff]
      exact .inr ⟨o, o, rfl, rfl, Nat.one_pos, le_refl o, hlt⟩
  · rw [nextRetentionClock_near hclock ho h]
    exact hcurrent _

/-! ## The readings of a pending jump -/

section
variable (clock : RetentionClock) (pre : List DateTime)

/-- The readings that a pending jump consists of: readings at the end of the run, or all of the run
after a jump that the first clock had recorded. -/
inductive PendingRun (startedAt lastAt trustedAt : DateTime) (count : Nat) : Prop
  | fresh (earlier window : List DateTime) : pre = earlier ++ window →
      window.head? = some startedAt → window.getLast? = some lastAt →
      window.Pairwise (· ≤ ·) → (∀ r ∈ window, Beyond trustedAt r) →
      (retentionRun clock earlier).trustedAt = trustedAt → count ≤ window.length →
      PendingRun startedAt lastAt trustedAt count
  | carried (last : DateTime) : clock.pendingStartedAt = some startedAt →
      clock.pendingLastAt = some last → (last :: pre).getLast? = some lastAt →
      (last :: pre).Pairwise (· ≤ ·) → (∀ r ∈ pre, Beyond trustedAt r) →
      clock.trustedAt = trustedAt → count ≤ clock.pendingConfirmations + pre.length →
      PendingRun startedAt lastAt trustedAt count

/-- Three readings one after the other, none before the one before it, over two days. -/
def Confirmed (o : DateTime) : Prop :=
  (∃ earlier window first, pre = earlier ++ window ∧ window.head? = some first ∧
    2 ≤ window.length ∧ (window ++ [o]).Pairwise (· ≤ ·) ∧
    (∀ r ∈ window, Beyond (retentionRun clock pre).trustedAt r) ∧
    (retentionRun clock earlier).trustedAt = (retentionRun clock pre).trustedAt ∧
    first + hours retentionClockConfirmationHours ≤ o) ∨
  (∃ startedAt lastAt, clock.pendingStartedAt = some startedAt ∧
    clock.pendingLastAt = some lastAt ∧ 3 ≤ clock.pendingConfirmations + pre.length + 1 ∧
    (lastAt :: (pre ++ [o])).Pairwise (· ≤ ·) ∧
    (∀ r ∈ pre, Beyond (retentionRun clock pre).trustedAt r) ∧
    clock.trustedAt = (retentionRun clock pre).trustedAt ∧
    startedAt + hours retentionClockConfirmationHours ≤ o)

end

theorem pairwise_concat {l : List DateTime} {lastAt : DateTime} (h : l.Pairwise (· ≤ ·))
    (hlast : l.getLast? = some lastAt) (hle : lastAt ≤ o) : (l ++ [o]).Pairwise (· ≤ ·) := by
  obtain ⟨init, rfl⟩ : ∃ init, l = init ++ [lastAt] := by
    obtain ⟨init, hinit⟩ := List.getLast?_eq_some_iff.1 hlast
    exact ⟨init, hinit⟩
  refine List.pairwise_append.2 ⟨h, List.pairwise_singleton _ _, fun a ha b hb => ?_⟩
  rw [List.mem_singleton.1 hb]
  rcases List.mem_append.1 ha with ha | ha
  · exact ((List.pairwise_append.1 h).2.2 a ha lastAt (List.mem_singleton_self _)).trans hle
  · exact List.mem_singleton.1 ha ▸ hle

theorem PendingRun.confirm {pre : List DateTime} {startedAt lastAt trustedAt : DateTime}
    {count : Nat} (h : PendingRun clock pre startedAt lastAt trustedAt count)
    (ho : Beyond trustedAt o) (hle : lastAt ≤ o) :
    PendingRun clock (pre ++ [o]) startedAt o trustedAt (saturatingAdd 32 count 1) := by
  have hcount : saturatingAdd 32 count 1 ≤ count + 1 := min_le_left _ _
  cases h with
  | fresh earlier window hpre hhead hlast hsorted hbeyond htrusted hlen =>
    refine .fresh earlier (window ++ [o]) (by simp [hpre]) ?_ (by simp)
      (pairwise_concat hsorted hlast hle) (fun r hr => ?_) htrusted ?_
    · rw [List.head?_append, hhead]
      rfl
    · rcases List.mem_append.1 hr with hr | hr
      · exact hbeyond r hr
      · exact List.mem_singleton.1 hr ▸ ho
    · rw [List.length_append, List.length_singleton]
      omega
  | carried last hstart hfirst hlast hsorted hbeyond htrusted hlen =>
    refine .carried last hstart hfirst ?_ ?_ (fun r hr => ?_) htrusted ?_
    · rw [← List.cons_append, List.getLast?_append]
      rfl
    · rw [← List.cons_append]
      exact pairwise_concat hsorted hlast hle
    · rcases List.mem_append.1 hr with hr | hr
      · exact hbeyond r hr
      · exact List.mem_singleton.1 hr ▸ ho
    · rw [List.length_append, List.length_singleton]
      omega

/-- **What a pending jump consists of**, along every run. -/
theorem pendingRun_run (hclock : Representable clock.trustedAt) (pre : List DateTime)
    (hpre : ∀ r ∈ pre, Representable r) :
    Representable (retentionRun clock pre).trustedAt ∧
      ∀ startedAt lastAt, (retentionRun clock pre).pendingStartedAt = some startedAt →
        (retentionRun clock pre).pendingLastAt = some lastAt →
        PendingRun clock pre startedAt lastAt (retentionRun clock pre).trustedAt
          (retentionRun clock pre).pendingConfirmations := by
  induction pre using List.reverseRecOn with
  | nil =>
    refine ⟨hclock, fun startedAt lastAt hstart hlast => ?_⟩
    exact .carried lastAt hstart hlast rfl (List.pairwise_singleton _ _)
      (fun r hr => by cases hr) rfl (Nat.le_refl _)
  | append_singleton pre o ih =>
    obtain ⟨hc, hrun⟩ := ih fun r hr => hpre r (List.mem_append_left _ hr)
    have ho : Representable o := hpre o (List.mem_append_right _ (List.mem_singleton_self o))
    rw [retentionRun_concat]
    refine ⟨representable_next hc ho, ?_⟩
    by_cases h : Beyond (retentionRun clock pre).trustedAt o
    · by_cases hcont : Continues (retentionRun clock pre) o
      · rw [nextRetentionClock_continue hc ho h hcont]
        split
        · intro startedAt lastAt hstart
          cases hstart
        · intro startedAt lastAt hstart hlast
          cases hlast
          obtain ⟨last, hlast, hle⟩ := hcont
          exact (hrun startedAt last hstart hlast).confirm h hle
      · -- the jump starts again with this reading
        rw [nextRetentionClock_restart hc ho h hcont]
        intro startedAt lastAt hstart hlast
        cases hstart
        cases hlast
        refine .fresh pre [o] rfl rfl rfl (List.pairwise_singleton _ _) (fun r hr => ?_) rfl
          (Nat.le_refl _)
        exact List.mem_singleton.1 hr ▸ h
    · rw [nextRetentionClock_near hc ho h]
      intro startedAt lastAt hstart
      cases hstart

theorem validate_run (hclock : Representable clock.trustedAt) (hvalid : clock.validate = .ok ())
    (pre : List DateTime) (hpre : ∀ r ∈ pre, Representable r) :
    (retentionRun clock pre).validate = .ok () := by
  induction pre using List.reverseRecOn with
  | nil => exact hvalid
  | append_singleton pre o ih =>
    have hpre' : ∀ r ∈ pre, Representable r := fun r hr => hpre r (List.mem_append_left _ hr)
    rw [retentionRun_concat]
    exact validate_next (pendingRun_run hclock pre hpre').1
      (hpre o (List.mem_append_right _ (List.mem_singleton_self o))) (ih hpre')

/-! ## The last instant

Where a day or two after the start of the jump cannot be represented, `stable_since` falls back to
the last instant there is, and a reading of that very instant passes for a stable one. -/

/-- The reading is not the last instant there is, or the jump it continues is two days old. -/
def ClearOfEnd (clock : RetentionClock) (o : DateTime) : Prop :=
  o = maxUtc → ∀ startedAt ∈ clock.pendingStartedAt,
    startedAt + hours retentionClockConfirmationHours ≤ o

theorem stable_of_clearOfEnd {startedAt : DateTime} (ho : Representable o)
    (hend : ClearOfEnd clock o) (hstart : clock.pendingStartedAt = some startedAt)
    (h : clock.stableSince ≤ o) : startedAt + hours retentionClockConfirmationHours ≤ o := by
  unfold RetentionClock.stableSince checkedAddSigned at h
  rw [hstart, Option.bind_some] at h
  split at h
  · exact h
  · exact hend (le_antisymm ho.2 h) startedAt hstart

/-- A reading beyond the bound is deferred, or it completes a jump. -/
theorem deferred_or_confirmed (hclock : Representable clock.trustedAt)
    (hvalid : clock.validate = .ok ()) {pre : List DateTime} (hpre : ∀ r ∈ pre, Representable r)
    (ho : Representable o) (hend : ClearOfEnd (retentionRun clock pre) o)
    (hbeyond : Beyond (retentionRun clock pre).trustedAt o) :
    (nextRetentionClock (retentionRun clock pre) o).1.trustedAt =
        (retentionRun clock pre).trustedAt ∨
      (nextRetentionClock (retentionRun clock pre) o).1.trustedAt = o ∧ Confirmed clock pre o := by
  obtain ⟨hc, hrun⟩ := pendingRun_run hclock pre hpre
  by_cases hcont : Continues (retentionRun clock pre) o
  · rw [nextRetentionClock_continue hc ho hbeyond hcont]
    split
    · rename_i hstable
      refine .inr ⟨rfl, ?_⟩
      obtain ⟨lastAt, hlast, hle⟩ := hcont
      obtain ⟨startedAt, hstart⟩ : ∃ startedAt,
          (retentionRun clock pre).pendingStartedAt = some startedAt := by
        rcases (RetentionClock.validate_iff _).1 (validate_run hclock hvalid pre hpre) with
          ⟨-, hnone, -⟩ | ⟨startedAt, -, hstart, -⟩
        · rw [hnone] at hlast
          cases hlast
        · exact ⟨startedAt, hstart⟩
      have hspan := stable_of_clearOfEnd ho hend hstart hstable.1
      have hthree : 3 ≤ (retentionRun clock pre).pendingConfirmations + 1 :=
        hstable.2.trans (min_le_left _ _)
      cases hrun startedAt lastAt hstart hlast with
      | fresh earlier window hpre hhead hlast hsorted hbeyond htrusted hlen =>
        exact .inl ⟨earlier, window, startedAt, hpre, hhead, by omega,
          pairwise_concat hsorted hlast hle, hbeyond, htrusted, hspan⟩
      | carried last hstart hfirst hlast hsorted hbeyond htrusted hlen =>
        refine .inr ⟨startedAt, last, hstart, hfirst, by omega, ?_, hbeyond, htrusted, hspan⟩
        exact pairwise_concat hsorted hlast hle
    · exact .inl rfl
  · rw [nextRetentionClock_restart hc ho hbeyond hcont]
    exact .inl rfl

/-! ## Pruning and expiring -/

theorem dropOldestEntries_clock (s : StoredExportState) (clock : RetentionClock) (n : Nat) :
    dropOldestEntries { s with retentionClock := clock } n =
      (dropOldestEntries s n).map fun s => { s with retentionClock := clock } := by
  unfold dropOldestEntries
  split
  · rfl
  · cases s.entries[n - 1]? <;> rfl

/-- What is pruned depends on the trusted instant only. -/
theorem advance_of_trustedAt {s : StoredExportState} {o' : DateTime} (retentionDays : Int)
    (h : (nextRetentionClock s.retentionClock o).1.trustedAt =
      (nextRetentionClock s.retentionClock o').1.trustedAt) :
    (advanceRetentionAndPruneAge s o retentionDays).map
        (fun r => (r.1.entries, r.1.retentionFloor, r.2.1)) =
      (advanceRetentionAndPruneAge s o' retentionDays).map
        fun r => (r.1.entries, r.1.retentionFloor, r.2.1) := by
  unfold advanceRetentionAndPruneAge
  simp only [dropOldestEntries_clock, h]
  cases dropOldestEntries s _ <;> rfl

/-- A reading removes nothing: it prunes what a reading of the trusted instant itself would prune,
and no record expires that had not expired at that instant. -/
structure RemovesNothing (clock : RetentionClock) (o : DateTime) : Prop where
  prunes : ∀ (s : StoredExportState) (retentionDays : Int), s.retentionClock = clock →
    (advanceRetentionAndPruneAge s o retentionDays).map
        (fun r => (r.1.entries, r.1.retentionFloor, r.2.1)) =
      (advanceRetentionAndPruneAge s clock.trustedAt retentionDays).map
        fun r => (r.1.entries, r.1.retentionFloor, r.2.1)
  expires : ∀ (s : StoredExportState) (upserts : ChangeMap),
    (∀ record ∈ s.materializedRecords, clock.trustedAt < record.expiresAt) →
    expireMaterializedRecords s o (nextRetentionClock clock o).1.trustedAt upserts =
      .ok (s, 0, upserts)

theorem removesNothing_of_deferred
    (h : (nextRetentionClock clock o).1.trustedAt = clock.trustedAt) : RemovesNothing clock o where
  prunes s retentionDays hs := by
    subst hs
    have hsame : (nextRetentionClock s.retentionClock s.retentionClock.trustedAt).1.trustedAt =
        s.retentionClock.trustedAt := by
      unfold nextRetentionClock
      rw [if_pos (le_refl s.retentionClock.trustedAt)]
      rfl
    exact advance_of_trustedAt retentionDays (h.trans hsame.symm)
  expires s upserts hrecords := by
    have hnone : (s.materializedRecords.filter fun record =>
        record.expiresAt ≤ (nextRetentionClock clock o).1.trustedAt) = [] := by
      rw [h, List.filter_eq_nil_iff]
      intro record hrecord
      simpa using hrecords record hrecord
    unfold expireMaterializedRecords
    simp only [hnone, if_true]
    rfl

/-- **A bad reading does not move the clock.** Along every run of readings from a valid clock, the
clock stays valid and never goes back; a reading more than a day ahead removes nothing, unless it
is the third at least of readings that span two days. -/
theorem retention_clock_resists {clock : RetentionClock} (hvalid : clock.validate = .ok ())
    (hclock : Representable clock.trustedAt) {readings : List DateTime}
    (hreadings : ∀ r ∈ readings, Representable r)
    (hend : ∀ pre o post, readings = pre ++ o :: post → ClearOfEnd (retentionRun clock pre) o) :
    ∀ pre o post, readings = pre ++ o :: post →
      (retentionRun clock (pre ++ [o])).validate = .ok () ∧
      (retentionRun clock pre).trustedAt ≤ (retentionRun clock (pre ++ [o])).trustedAt ∧
      (Beyond (retentionRun clock pre).trustedAt o →
        (retentionRun clock (pre ++ [o])).trustedAt = (retentionRun clock pre).trustedAt ∧
          RemovesNothing (retentionRun clock pre) o ∨
        (retentionRun clock (pre ++ [o])).trustedAt = o ∧ Confirmed clock pre o) := by
  intro pre o post hsplit
  have hpre : ∀ r ∈ pre, Representable r := fun r hr =>
    hreadings r (hsplit ▸ List.mem_append_left _ hr)
  have ho : Representable o :=
    hreadings o (hsplit ▸ List.mem_append_right _ List.mem_cons_self)
  have hc := (pendingRun_run hclock pre hpre).1
  rw [retentionRun_concat]
  refine ⟨validate_next hc ho (validate_run hclock hvalid pre hpre), (trustedAt_next hc ho).2,
    fun hbeyond => ?_⟩
  have hcases := deferred_or_confirmed hclock hvalid hpre ho (hend pre o post hsplit) hbeyond
  exact hcases.imp_left fun h => ⟨h, removesNothing_of_deferred h⟩

theorem retention_clock_resists_sample :
    let clock := RetentionClock.current 0
    (retentionRun clock ([hours 20] ++ [hours 100])).trustedAt = hours 20 ∧
      RemovesNothing (retentionRun clock [hours 20]) (hours 100) := by
  have hclear : ∀ r ∈ [hours 20, hours 100], r ≠ maxUtc := by decide
  have h := @retention_clock_resists (RetentionClock.current 0) rfl
    (by unfold Representable; decide) [hours 20, hours 100] (by unfold Representable; decide)
    (fun pre o post hsplit hmax => absurd hmax (hclear o (by
      rw [hsplit]
      exact List.mem_append_right _ List.mem_cons_self)))
    [hours 20] (hours 100) [] rfl
  rcases h.2.2 (by unfold Beyond; decide) with h | ⟨h, -⟩
  · exact h
  · exact absurd h (by decide)

/-- Three readings of the last instant there is, in the same moment: the clock trusts it. -/
theorem last_instant_is_trusted :
    let clock := RetentionClock.current 0
    clock.validate = .ok () ∧
      (retentionRun clock [maxUtc, maxUtc]).trustedAt = 0 ∧ Beyond 0 maxUtc ∧
      (retentionRun clock [maxUtc, maxUtc, maxUtc]).trustedAt = maxUtc ∧
      ¬ Confirmed clock [maxUtc, maxUtc] maxUtc := by
  refine ⟨rfl, by decide, by unfold Beyond; decide, by decide, ?_⟩
  rintro (⟨earlier, window, first, hpre, hhead, -, -, -, -, hspan⟩ | ⟨startedAt, -, hstart, -⟩)
  · have hfirst : first ∈ [maxUtc, maxUtc] := by
      rw [hpre]
      exact List.mem_append_right _ (List.mem_of_mem_head? hhead)
    have hfirst : first = maxUtc := by simpa using hfirst
    subst hfirst
    revert hspan
    decide
  · cases hstart

end Export
