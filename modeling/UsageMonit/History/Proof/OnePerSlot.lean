import Mathlib.Algebra.Order.Field.Rat
import UsageMonit.History.Quota
import UsageMonit.History.Proof.Settle

/-!
# One point per slot

A stored point is replaced by the first point that matches it, and a reset that is near to two
stored ones brings them together. Where no upsert does that (`SeriesCall.Clear`), no two points of a
slot have resets within the drift of each other, and a stored point is its own match
(`series_one_per_slot`).
-/

namespace History

open Time Tolerance
open Text (eqIgnoreAsciiCase)

/-- An instant that a `DateTime<Utc>` can hold. -/
def Utc (t : ℤ) : Prop := t ∈ Set.Icc (α := ℤ) minUtc maxUtc

/-! ## Near resets -/

theorem resetDrift_nonneg : 0 ≤ seconds resetDriftSecs := by decide

theorem saturatingSub_le {reference tolerance t : ℤ} (htolerance : 0 ≤ tolerance)
    (hreference : Utc reference) (ht : Utc t) :
    datetimeSaturatingSub reference tolerance ≤ t ↔ reference ≤ t + tolerance := by
  obtain ⟨hmin, hmax⟩ := hreference
  obtain ⟨htmin, -⟩ := ht
  have hle : reference + -tolerance ≤ maxUtc :=
    (add_neg_le_iff_le_add.2 (le_add_of_nonneg_right htolerance)).trans hmax
  unfold datetimeSaturatingSub checkedSubSigned checkedAddSigned
  rw [if_neg (not_lt.2 htolerance)]
  split
  · rw [Option.getD_some]
    exact add_neg_le_iff_le_add
  · rename_i hrange
    rw [Option.getD_none]
    have hlow : reference + -tolerance < minUtc := not_le.1 fun hmin => hrange ⟨hmin, hle⟩
    exact iff_of_true htmin (add_neg_le_iff_le_add.1 (hlow.le.trans htmin))

theorem le_saturatingAdd {reference tolerance t : ℤ} (htolerance : 0 ≤ tolerance)
    (hreference : Utc reference) (ht : Utc t) :
    t ≤ datetimeSaturatingAdd reference tolerance ↔ t ≤ reference + tolerance := by
  obtain ⟨hmin, hmax⟩ := hreference
  obtain ⟨-, htmax⟩ := ht
  have hle : minUtc ≤ reference + tolerance := hmin.trans (le_add_of_nonneg_right htolerance)
  unfold datetimeSaturatingAdd checkedAddSigned
  rw [if_neg (not_lt.2 htolerance)]
  split
  · rw [Option.getD_some]
  · rename_i hrange
    rw [Option.getD_none]
    have hhigh : maxUtc < reference + tolerance := not_le.1 fun hmax => hrange ⟨hle, hmax⟩
    exact iff_of_true htmax (htmax.trans hhigh.le)

/-- Between instants of the calendar nothing saturates. -/
theorem timestampsWithin_iff {t reference tolerance : Int} (htolerance : 0 ≤ tolerance)
    (hreference : Utc reference) (ht : Utc t) :
    timestampsWithin t reference tolerance = true ↔ |t - reference| ≤ tolerance := by
  unfold timestampsWithin
  rw [decide_eq_true_eq, saturatingSub_le htolerance hreference ht,
    le_saturatingAdd htolerance hreference ht, abs_le]
  omega

/-- What the points of a quota slot share. -/
def quotaKey {Percent : Type} (point : QuotaPoint Percent) : List Char × Int × Int :=
  (point.limitId.toList.map Char.toLower, point.durationMins,
    timestampSecs point.observedAt / quotaSampleSecs)

/-- What the points of a weekly slot share. -/
def weeklyKey (point : WeeklyLocalPoint) : Int × Bool :=
  (timestampSecs point.observedAt / quotaSampleSecs, isExactWeeklySampleBoundary point.observedAt)

/-- Two quota points of one slot, with resets within the drift of each other. -/
def NearQuota {Percent : Type} : QuotaPoint Percent → QuotaPoint Percent → Prop :=
  Near quotaKey (·.resetsAt) (seconds resetDriftSecs)

/-- Two weekly points of one slot, with resets within the drift of each other. -/
def NearWeekly : WeeklyLocalPoint → WeeklyLocalPoint → Prop :=
  Near weeklyKey (·.resetsAt) (seconds resetDriftSecs)

section
variable {Percent : Type} {incoming point : QuotaPoint Percent}

theorem sameQuotaSlot_iff (hincoming : Utc incoming.resetsAt) (hpoint : Utc point.resetsAt) :
    sameQuotaSlot incoming point = true ↔ NearQuota point incoming := by
  have hwithin := timestampsWithin_iff resetDrift_nonneg hincoming hpoint
  unfold sameQuotaSlot NearQuota Near quotaKey eqIgnoreAsciiCase
  simp only [Bool.and_eq_true, decide_eq_true_eq, beq_iff_eq, Prod.mk.injEq, hwithin]
  tauto

end

section
variable {incoming point : WeeklyLocalPoint}

theorem sameSlot_iff_near (hincoming : Utc incoming.resetsAt) (hpoint : Utc point.resetsAt) :
    sameSlot incoming point = true ↔ NearWeekly point incoming := by
  have hwithin := timestampsWithin_iff resetDrift_nonneg hincoming hpoint
  rw [sameSlot_iff]
  unfold NearWeekly Near weeklyKey sameCycle
  rw [hwithin, Prod.mk.injEq]
  tauto

end

/-! ## Steps -/

section
variable {Percent : Type} [BEq Percent] [LT Percent] [DecidableLT Percent]

theorem mergeQuotaPoint_cases (incoming existing : QuotaPoint Percent) :
    (mergeQuotaPoint incoming existing).1 = existing ∨
      (mergeQuotaPoint incoming existing).1 = incoming := by
  unfold mergeQuotaPoint
  split_ifs
  · exact .inl rfl
  · exact .inr rfl
  · exact .inl rfl

theorem mergeQuotaPoint_self (hirrefl : ∀ x : Percent, ¬ x < x) (point : QuotaPoint Percent) :
    mergeQuotaPoint point point = (point, false) := by
  have hkeep : shouldReplaceQuotaPoint point point = false := by
    simp [shouldReplaceQuotaPoint, hirrefl]
  unfold mergeQuotaPoint
  rw [hkeep]
  simp

theorem upsertQuotaPoint_cases (points : List (QuotaPoint Percent))
    (incoming : QuotaPoint Percent) :
    (∀ point ∈ points, sameQuotaSlot incoming point = false) ∧
        (upsertQuotaPoint points incoming).1 = points ++ [incoming] ∨
      ∃ pre existing post, points = pre ++ existing :: post ∧
        sameQuotaSlot incoming existing = true ∧ (upsertQuotaPoint points incoming).1 =
          pre ++ (mergeQuotaPoint incoming existing).1 :: post := by
  unfold upsertQuotaPoint
  rcases first_match (sameQuotaSlot incoming) points with
    hnone | ⟨pre, existing, post, rfl, hpre, hexisting⟩
  · exact .inl ⟨hnone, by rw [mergeFirst_eq_none hnone, Option.getD_none]⟩
  · exact .inr ⟨pre, existing, post, rfl, hexisting,
      by rw [mergeFirst_append hpre hexisting, Option.getD_some]⟩

end

section
variable {estimator : Nat} {incoming : WeeklyLocalPoint}

theorem mergeIntoSlot_eq (points : List WeeklyLocalPoint) :
    mergeIntoSlot estimator incoming points =
      mergeFirst (sameSlot incoming) (mergeWeeklyPoint estimator · incoming) points := by
  induction points with
  | nil => rfl
  | cons point points ih =>
    unfold mergeIntoSlot mergeFirst
    rw [ih]

theorem mergeWeeklyPoint_cases (estimator : Nat) (existing incoming : WeeklyLocalPoint) :
    (mergeWeeklyPoint estimator existing incoming).1 = existing ∨
      (mergeWeeklyPoint estimator existing incoming).1 = mergeWeeklyGap existing incoming ∨
      (mergeWeeklyPoint estimator existing incoming).1 = incoming := by
  unfold mergeWeeklyPoint
  split_ifs
  · exact .inl rfl
  · exact .inr (.inl rfl)
  · exact .inr (.inr rfl)
  · exact .inl rfl

theorem mergeWeeklyPoint_self (point : WeeklyLocalPoint) :
    mergeWeeklyPoint estimator point point = (point, false) := by
  simp [mergeWeeklyPoint, weeklyLocalPointPayloadEq, weeklyLocalPointEvidenceEq]

theorem upsertWeeklyLocalPoint_cases (points : List WeeklyLocalPoint)
    (incoming : WeeklyLocalPoint) :
    (∀ point ∈ points, sameSlot incoming point = false) ∧
        ((upsertWeeklyLocalPoint estimator points incoming).1 = points ∨
          (upsertWeeklyLocalPoint estimator points incoming).1 = points ++ [incoming] ∨
          ∃ latest, latestPoint (points.filter (sameCycle incoming)) = some latest ∧
            weeklyRevealsCoverageGap latest incoming = true ∧
            (upsertWeeklyLocalPoint estimator points incoming).1 =
              points ++ [mergeWeeklyGap latest incoming]) ∨
      ∃ pre existing post, points = pre ++ existing :: post ∧ sameSlot incoming existing = true ∧
        (upsertWeeklyLocalPoint estimator points incoming).1 =
          pre ++ (mergeWeeklyPoint estimator existing incoming).1 :: post := by
  unfold upsertWeeklyLocalPoint
  rw [mergeIntoSlot_eq]
  rcases first_match (sameSlot incoming) points with
    hnone | ⟨pre, existing, post, rfl, hpre, hexisting⟩
  · rw [mergeFirst_eq_none hnone, Option.getD_none]
    exact .inl ⟨hnone, appendWeeklyPoint_cases points⟩
  · exact .inr ⟨pre, existing, post, rfl, hexisting,
      by rw [mergeFirst_append hpre hexisting, Option.getD_some]⟩

end

/-! ## Runs -/

section
variable {Percent : Type}

/-- No upsert stores a reset that is near to another one of its slot: at most one stored point of
the slot matches, and where the latest point of the cycle is stored again in a new slot, none has a
reset near to it there. -/
def SeriesCall.Clear (data : HistorySeries Percent) : SeriesCall Percent → Prop
  | upsertQuotaPoint incoming =>
    data.quotaPoints.countP (sameQuotaSlot incoming) ≤ 1
  | upsertWeeklyLocalPoint incoming =>
    data.weeklyLocalPoints.countP (sameSlot incoming) ≤ 1 ∧
      ∀ latest, latestPoint (data.weeklyLocalPoints.filter (sameCycle incoming)) = some latest →
        weeklyRevealsCoverageGap latest incoming = true →
        data.weeklyLocalPoints.countP (sameSlot incoming) = 0 →
        data.weeklyLocalPoints.countP (sameSlot (mergeWeeklyGap latest incoming)) = 0
  | retain _ => True

/-- The resets are instants of the calendar. -/
def SeriesCall.Dated : SeriesCall Percent → Prop
  | upsertQuotaPoint incoming => Utc incoming.resetsAt
  | upsertWeeklyLocalPoint incoming => Utc incoming.resetsAt
  | retain _ => True

/-- No two points of a slot have resets within the drift of each other. -/
structure OnePerSlot (data : HistorySeries Percent) : Prop where
  quota : data.quotaPoints.Pairwise fun a b => ¬ NearQuota a b
  weekly : data.weeklyLocalPoints.Pairwise fun a b => ¬ NearWeekly a b

/-- The series of a run: dated, and with one point per slot. -/
structure SeriesInv (data : HistorySeries Percent) : Prop extends OnePerSlot data where
  quotaUtc : ∀ point ∈ data.quotaPoints, Utc point.resetsAt
  weeklyUtc : ∀ point ∈ data.weeklyLocalPoints, Utc point.resetsAt

theorem seriesInv_empty : SeriesInv ({} : HistorySeries Percent) where
  quota := .nil
  weekly := .nil
  quotaUtc := by simp
  weeklyUtc := by simp

theorem perm_sortHistoryData (data : HistorySeries Percent) :
    (sortHistoryData data).quotaPoints.Perm data.quotaPoints ∧
      (sortHistoryData data).weeklyLocalPoints.Perm data.weeklyLocalPoints :=
  ⟨List.perm_insertionSort _ _, List.perm_insertionSort _ _⟩

theorem SeriesInv.sort {data : HistorySeries Percent} (h : SeriesInv data) :
    SeriesInv (sortHistoryData data) := by
  obtain ⟨hquota, hweekly⟩ := perm_sortHistoryData data
  exact ⟨⟨KeptApart.perm h.quota hquota, KeptApart.perm h.weekly hweekly⟩,
    fun point hpoint => h.quotaUtc point (hquota.mem_iff.1 hpoint),
    fun point hpoint => h.weeklyUtc point (hweekly.mem_iff.1 hpoint)⟩

theorem SeriesInv.retain {data : HistorySeries Percent} (h : SeriesInv data) (since : DateTime) :
    SeriesInv (retainSince since data) := by
  refine SeriesInv.sort ⟨⟨h.quota.filter _, h.weekly.filter _⟩, fun point hpoint => ?_,
    fun point hpoint => ?_⟩
  · exact h.quotaUtc point (List.mem_of_mem_filter hpoint)
  · exact h.weeklyUtc point (List.mem_of_mem_filter hpoint)

theorem weeklyKey_gap (existing incoming : WeeklyLocalPoint) :
    weeklyKey (mergeWeeklyGap existing incoming) = weeklyKey incoming := rfl

theorem SeriesInv.upsertWeekly {data : HistorySeries Percent} (h : SeriesInv data)
    (estimator : Nat) {incoming : WeeklyLocalPoint} (hincoming : Utc incoming.resetsAt)
    (hclear : (SeriesCall.upsertWeeklyLocalPoint incoming : SeriesCall Percent).Clear data) :
    SeriesInv { data with weeklyLocalPoints :=
      (upsertWeeklyLocalPoint estimator data.weeklyLocalPoints incoming).1 } := by
  have hmatch {new : WeeklyLocalPoint} (hnew : Utc new.resetsAt) :
      ∀ point ∈ data.weeklyLocalPoints, sameSlot new point = true ↔ NearWeekly point new :=
    fun point hpoint => sameSlot_iff_near hnew (h.weeklyUtc point hpoint)
  -- a point that nothing matches can be appended
  have happend {new : WeeklyLocalPoint} (hnew : Utc new.resetsAt)
      (hnone : ∀ point ∈ data.weeklyLocalPoints, sameSlot new point = false) :
      SeriesInv { data with weeklyLocalPoints := data.weeklyLocalPoints ++ [new] } := by
    refine ⟨⟨h.quota, KeptApart.concat h.weekly fun point hpoint hnear => ?_⟩, h.quotaUtc, ?_⟩
    · exact absurd ((hmatch hnew point hpoint).2 hnear) (by simp [hnone point hpoint])
    · exact List.forall_mem_append.2 ⟨h.weeklyUtc, List.forall_mem_singleton.2 hnew⟩
  obtain ⟨hcount, hgap⟩ := hclear
  rcases upsertWeeklyLocalPoint_cases data.weeklyLocalPoints incoming with
    ⟨hnone, heq | heq | ⟨latest, hlatest, hreveals, heq⟩⟩ |
    ⟨pre, existing, post, hsplit, hexisting, heq⟩ <;> rw [heq]
  · exact h
  · exact happend hincoming hnone
  · refine happend (h.weeklyUtc latest (latest_of_cycle hlatest).1) fun point hpoint => ?_
    have hzero := hgap latest hlatest hreveals (List.countP_eq_zero.2 fun point hpoint => by
      simp [hnone point hpoint])
    exact Bool.not_eq_true _ ▸ List.countP_eq_zero.1 hzero point hpoint
  · have hweekly := h.weekly
    have hutc := h.weeklyUtc
    have hincomingMatch := hmatch hincoming
    rw [hsplit] at hweekly hutc hincomingMatch hcount
    rw [List.forall_mem_append, List.forall_mem_cons] at hutc
    -- the merged point, where nothing else is near to it
    have hreplace {new : WeeklyLocalPoint} (hnew : Utc new.resetsAt)
        (hothers : ∀ point ∈ pre ++ post, NearWeekly point new → NearWeekly point existing) :
        SeriesInv { data with weeklyLocalPoints := pre ++ new :: post } :=
      ⟨⟨h.quota, KeptApart.replace hweekly hothers⟩, h.quotaUtc,
        List.forall_mem_append.2 ⟨hutc.1, List.forall_mem_cons.2 ⟨hnew, hutc.2.2⟩⟩⟩
    rcases mergeWeeklyPoint_cases estimator existing incoming with hsame | hsame | hsame <;>
      rw [hsame]
    · exact hreplace hutc.2.1 fun point _ hnear => hnear
    · refine hreplace hutc.2.1 fun point _ hnear => ?_
      have hslot := (hincomingMatch existing (by simp)).1 hexisting
      exact (near_congr ((weeklyKey_gap existing incoming).trans hslot.1.symm) rfl).1 hnear
    · exact hreplace hincoming fun point hpoint hnear =>
        absurd hnear (others_apart hincomingMatch hcount hexisting point hpoint)

theorem SeriesInv.upsertWeekly_again {data : HistorySeries Percent} (h : SeriesInv data)
    (estimator : Nat) {point : WeeklyLocalPoint} (hpoint : point ∈ data.weeklyLocalPoints) :
    upsertWeeklyLocalPoint estimator data.weeklyLocalPoints point =
      (data.weeklyLocalPoints, false) := by
  have hself : mergeFirst (sameSlot point) (mergeWeeklyPoint estimator · point)
      data.weeklyLocalPoints = some (data.weeklyLocalPoints, false) :=
    KeptApart.mergeFirst_self resetDrift_nonneg h.weekly hpoint
      (fun other hother => sameSlot_iff_near (h.weeklyUtc point hpoint) (h.weeklyUtc other hother))
      (mergeWeeklyPoint_self point)
  unfold upsertWeeklyLocalPoint
  rw [mergeIntoSlot_eq, hself, Option.getD_some]

variable [BEq Percent] [LT Percent] [DecidableLT Percent]

theorem SeriesInv.upsertQuota {data : HistorySeries Percent} (h : SeriesInv data)
    {incoming : QuotaPoint Percent} (hincoming : Utc incoming.resetsAt)
    (hclear : data.quotaPoints.countP (sameQuotaSlot incoming) ≤ 1) :
    SeriesInv { data with quotaPoints := (upsertQuotaPoint data.quotaPoints incoming).1 } := by
  have hmatch : ∀ point ∈ data.quotaPoints,
      sameQuotaSlot incoming point = true ↔ NearQuota point incoming :=
    fun point hpoint => sameQuotaSlot_iff hincoming (h.quotaUtc point hpoint)
  rcases upsertQuotaPoint_cases data.quotaPoints incoming with
    ⟨hnone, heq⟩ | ⟨pre, existing, post, hsplit, hexisting, heq⟩
  · rw [heq]
    refine ⟨⟨KeptApart.concat h.quota fun point hpoint hnear => ?_, h.weekly⟩, ?_, h.weeklyUtc⟩
    · exact absurd ((hmatch point hpoint).2 hnear) (by simp [hnone point hpoint])
    · exact List.forall_mem_append.2 ⟨h.quotaUtc, List.forall_mem_singleton.2 hincoming⟩
  · rw [heq]
    rcases mergeQuotaPoint_cases incoming existing with hsame | hnew
    · rw [hsame, ← hsplit]
      exact h
    · rw [hnew]
      have hquota := h.quota
      have hutc := h.quotaUtc
      rw [hsplit] at hquota hutc hmatch hclear
      rw [List.forall_mem_append, List.forall_mem_cons] at hutc
      refine ⟨⟨KeptApart.replace hquota fun point hpoint hnear => ?_, h.weekly⟩, ?_, h.weeklyUtc⟩
      · exact absurd hnear (others_apart hmatch hclear hexisting point hpoint)
      · exact List.forall_mem_append.2 ⟨hutc.1, List.forall_mem_cons.2 ⟨hincoming, hutc.2.2⟩⟩

variable {estimator : Nat}

/-- **One call.** -/
theorem SeriesInv.step {data : HistorySeries Percent} (h : SeriesInv data)
    {call : SeriesCall Percent} (hdated : call.Dated) (hclear : call.Clear data) :
    SeriesInv (call.run estimator data) := by
  cases call with
  | upsertQuotaPoint incoming => exact h.upsertQuota hdated hclear
  | upsertWeeklyLocalPoint incoming => exact h.upsertWeekly estimator hdated hclear
  | retain since => exact h.retain since

/-- Every call of a run is clear where it is made. -/
def ClearRun (estimator : Nat) : HistorySeries Percent → List (SeriesCall Percent) → Prop
  | _, [] => True
  | data, call :: calls => call.Clear data ∧ ClearRun estimator (call.run estimator data) calls

theorem SeriesInv.run {data : HistorySeries Percent} {calls : List (SeriesCall Percent)}
    (h : SeriesInv data) (hdated : ∀ call ∈ calls, call.Dated)
    (hclear : ClearRun estimator data calls) : SeriesInv (runSeries estimator data calls) := by
  induction calls generalizing data with
  | nil => exact h
  | cons call calls ih =>
    obtain ⟨hfirst, hrest⟩ := List.forall_mem_cons.1 hdated
    exact ih (h.step hfirst hclear.1) hrest hclear.2

theorem SeriesInv.upsertQuota_again {data : HistorySeries Percent} (h : SeriesInv data)
    (hirrefl : ∀ x : Percent, ¬ x < x) {point : QuotaPoint Percent}
    (hpoint : point ∈ data.quotaPoints) :
    upsertQuotaPoint data.quotaPoints point = (data.quotaPoints, false) := by
  unfold upsertQuotaPoint
  rw [KeptApart.mergeFirst_self resetDrift_nonneg h.quota hpoint
    (fun other hother => sameQuotaSlot_iff (h.quotaUtc point hpoint) (h.quotaUtc other hother))
    (mergeQuotaPoint_self hirrefl point), Option.getD_some]

end

theorem sortHistoryData_sorted {Percent : Type} (data : HistorySeries Percent) :
    (sortHistoryData data).quotaPoints.Pairwise quotaPointLe ∧
      (sortHistoryData data).weeklyLocalPoints.Pairwise
        (fun left right => left.observedAt ≤ right.observedAt) := by
  have : Std.Total (@quotaPointLe Percent) := ⟨fun _ _ => le_total _ _⟩
  have : IsTrans _ (@quotaPointLe Percent) := ⟨fun _ _ _ => le_trans⟩
  have : Std.Total fun left right : WeeklyLocalPoint => left.observedAt ≤ right.observedAt :=
    ⟨fun _ _ => le_total _ _⟩
  have : IsTrans _ fun left right : WeeklyLocalPoint => left.observedAt ≤ right.observedAt :=
    ⟨fun _ _ _ => le_trans⟩
  exact ⟨List.pairwise_insertionSort _ _, List.pairwise_insertionSort _ _⟩

/-- **One stored point per slot.** Where no upsert of a run stores a reset that is near to another
one of its slot, no two quota points of a limit, a duration and a slot, and no two weekly points of
a slot, have resets within the drift of each other, and upserting a stored point again changes
nothing. The series are sorted when they have been retained and sorted. -/
theorem series_one_per_slot {Percent : Type} [BEq Percent] [LT Percent] [DecidableLT Percent]
    (hirrefl : ∀ x : Percent, ¬ x < x) {estimator : Nat} {calls : List (SeriesCall Percent)}
    (hdated : ∀ call ∈ calls, call.Dated) (hclear : ClearRun estimator {} calls) :
    OnePerSlot (runSeries estimator {} calls) ∧
      (∀ point ∈ (runSeries estimator {} calls).quotaPoints,
        upsertQuotaPoint (runSeries estimator {} calls).quotaPoints point =
          ((runSeries estimator {} calls).quotaPoints, false)) ∧
      (∀ point ∈ (runSeries estimator {} calls).weeklyLocalPoints,
        upsertWeeklyLocalPoint estimator (runSeries estimator {} calls).weeklyLocalPoints point =
          ((runSeries estimator {} calls).weeklyLocalPoints, false)) ∧
      ∀ since, (runSeries estimator {} (calls ++ [.retain since])).quotaPoints.Pairwise
          quotaPointLe ∧
        (runSeries estimator {} (calls ++ [.retain since])).weeklyLocalPoints.Pairwise
          fun left right => left.observedAt ≤ right.observedAt := by
  have hinv := seriesInv_empty.run hdated hclear
  refine ⟨hinv.toOnePerSlot, fun point hpoint => hinv.upsertQuota_again hirrefl hpoint,
    fun point hpoint => hinv.upsertWeekly_again estimator hpoint, fun since => ?_⟩
  unfold runSeries
  rw [List.foldl_append]
  exact sortHistoryData_sorted _

namespace Sample

def slotReset : DateTime := seconds 1700604800

/-- A point of the slot that begins at the observation, some seconds into it. -/
def quotaPoint (limitId : String) (second drift : Int) (used : ℚ) : QuotaPoint ℚ where
  observedAt := seconds (1700000100 + second)
  limitId := limitId
  durationMins := 10080
  resetsAt := slotReset + seconds drift
  usedPercent := used
  remainingPercent := 100 - used

def weeklyPoint (second : Int) (calls : Nat) : WeeklyLocalPoint where
  observedAt := seconds (1700001000 + second)
  resetsAt := slotReset
  estimatorRevision := 1
  callCount := calls

/-- Two windows four minutes apart, and a reset between them. -/
def bridged : List (SeriesCall ℚ) := [
  .upsertQuotaPoint (quotaPoint "Codex" 0 0 10), .upsertQuotaPoint (quotaPoint "codex" 10 240 20),
  .upsertQuotaPoint (quotaPoint "CODEX" 5 120 30)]

/-- A window that drifts, another one, and a weekly sample. -/
def drifted : List (SeriesCall ℚ) := [
  .upsertQuotaPoint (quotaPoint "Codex" 0 0 10), .upsertQuotaPoint (quotaPoint "codex" 5 120 20),
  .upsertQuotaPoint (quotaPoint "codex" 10 300 30), .upsertWeeklyLocalPoint (weeklyPoint 0 1)]

/-- A sample at an exact half hour, and one of the same five minutes. -/
def halfHour : List (SeriesCall ℚ) := [
  .upsertWeeklyLocalPoint (weeklyPoint 0 1), .upsertWeeklyLocalPoint (weeklyPoint 1 2)]

/-- An observation that comes in late. -/
def late : List (SeriesCall ℚ) := [
  .upsertQuotaPoint (quotaPoint "codex" 300 0 20), .upsertQuotaPoint (quotaPoint "codex" 0 0 10)]

end Sample

/-- A reset between two stored ones moves the first of them to the second, which then changes the
first when it is upserted again. A sample at an exact half hour is stored beside one of its slot. An
upsert does not sort. -/
theorem bridged_resets_share_slot :
    (∃ a b, (runSeries 1 {} Sample.bridged).quotaPoints = [a, b] ∧ NearQuota a b ∧
      upsertQuotaPoint [a, b] b = ([b, b], true)) ∧
    (∃ a b, (runSeries 1 {} Sample.halfHour).weeklyLocalPoints = [a, b] ∧
      (weeklyKey a).1 = (weeklyKey b).1 ∧ a.resetsAt = b.resetsAt) ∧
    ¬ (runSeries 1 {} Sample.late).quotaPoints.Pairwise quotaPointLe := by
  refine ⟨⟨Sample.quotaPoint "CODEX" 5 120 30, Sample.quotaPoint "codex" 10 240 20, ?_,
    ⟨?_, ?_⟩, ?_⟩, ⟨Sample.weeklyPoint 0 1, Sample.weeklyPoint 1 2, ?_, ?_, rfl⟩, ?_⟩ <;>
      decide +kernel

theorem series_one_per_slot_sample :
    OnePerSlot (runSeries 1 ({} : HistorySeries ℚ) Sample.drifted) := by
  refine (series_one_per_slot (fun x => lt_irrefl x) (fun call hcall => ?_) ?_).1
  · have hutc : Utc Sample.slotReset ∧ Utc (Sample.slotReset + seconds 120) ∧
        Utc (Sample.slotReset + seconds 300) := by
      unfold Utc
      decide +kernel
    simp only [Sample.drifted, List.mem_cons, List.not_mem_nil, or_false] at hcall
    rcases hcall with rfl | rfl | rfl | rfl
    · exact hutc.1
    · exact hutc.2.1
    · exact hutc.2.2
    · exact hutc.1
  · refine ⟨?_, ?_, ?_, ⟨?_, fun latest hlatest => ?_⟩, trivial⟩
    · unfold SeriesCall.Clear
      decide +kernel
    · unfold SeriesCall.Clear
      decide +kernel
    · unfold SeriesCall.Clear
      decide +kernel
    · decide +kernel
    · cases hlatest

end History
