import UsageMonit.History.Weekly
import UsageMonit.Lib.Tolerance

/-!
# Upserting a quota point (`history.rs`)

The use of a limit is sampled in slots of five minutes. `upsertQuotaPoint` merges a point into the
first one of its limit, its duration, its slot and its reset, or appends it; resets that are two
minutes apart are of one window. The points of a history are sorted where an observation is merged
into it, not by the upserts.

A percentage is a parameter: the code compares percentages and passes them on.
-/

namespace History

open Time Usage Tolerance
open Text (eqIgnoreAsciiCase)

structure QuotaPoint (Percent : Type) where
  observedAt : DateTime
  limitId : String
  durationMins : Int
  resetsAt : DateTime
  usedPercent : Percent
  remainingPercent : Percent
  provenance : Provenance := .serverSnapshot
deriving DecidableEq

section
variable {Percent : Type} [BEq Percent] [LT Percent] [DecidableLT Percent]

def quotaPointPayloadEq (left right : QuotaPoint Percent) : Bool :=
  eqIgnoreAsciiCase left.limitId right.limitId && decide (left.durationMins = right.durationMins) &&
    decide (left.resetsAt = right.resetsAt) && left.usedPercent == right.usedPercent &&
    left.remainingPercent == right.remainingPercent && decide (left.provenance = right.provenance)

/-- The stored point is of the limit, the duration, the slot and the reset of the incoming one. -/
def sameQuotaSlot (incoming point : QuotaPoint Percent) : Bool :=
  decide (point.durationMins = incoming.durationMins) &&
    eqIgnoreAsciiCase point.limitId incoming.limitId &&
    decide (timestampSecs point.observedAt / quotaSampleSecs =
      timestampSecs incoming.observedAt / quotaSampleSecs) &&
    timestampsWithin point.resetsAt incoming.resetsAt (seconds resetDriftSecs)

/-- A later point, or one of the same instant with more use: `(used, -remaining)` is greater. -/
def shouldReplaceQuotaPoint (incoming existing : QuotaPoint Percent) : Bool :=
  decide (existing.observedAt < incoming.observedAt) ||
    decide (incoming.observedAt = existing.observedAt) &&
      (decide (existing.usedPercent < incoming.usedPercent) ||
        incoming.usedPercent == existing.usedPercent &&
          decide (incoming.remainingPercent < existing.remainingPercent))

/-- The stored point after a point of its slot, and whether it changed. -/
def mergeQuotaPoint (incoming existing : QuotaPoint Percent) : QuotaPoint Percent × Bool :=
  if quotaPointPayloadEq incoming existing then (existing, false)
  else if shouldReplaceQuotaPoint incoming existing then (incoming, true)
  else (existing, false)

def upsertQuotaPoint (points : List (QuotaPoint Percent)) (incoming : QuotaPoint Percent) :
    List (QuotaPoint Percent) × Bool :=
  (mergeFirst (sameQuotaSlot incoming) (mergeQuotaPoint incoming) points).getD
    (points ++ [incoming], true)

end

/-! ## The series of a history -/

/-- The series of `HistoryData` that hold sampled points. -/
structure HistorySeries (Percent : Type) where
  quotaPoints : List (QuotaPoint Percent) := []
  weeklyLocalPoints : List WeeklyLocalPoint := []
deriving DecidableEq

/-- The order of quota points: by observation, then duration, then reset. -/
def quotaPointLe {Percent : Type} (left right : QuotaPoint Percent) : Prop :=
  toLex (left.observedAt, toLex (left.durationMins, left.resetsAt)) ≤
    toLex (right.observedAt, toLex (right.durationMins, right.resetsAt))

instance {Percent : Type} : DecidableRel (@quotaPointLe Percent) :=
  fun _ _ => inferInstanceAs (Decidable (_ ≤ _))

def sortHistoryData {Percent : Type} (data : HistorySeries Percent) : HistorySeries Percent where
  quotaPoints := data.quotaPoints.insertionSort quotaPointLe
  weeklyLocalPoints := data.weeklyLocalPoints.insertionSort
    fun left right => left.observedAt ≤ right.observedAt

/-- The end of `merge_observation_into_history`. -/
def retainSince {Percent : Type} (since : DateTime) (data : HistorySeries Percent) :
    HistorySeries Percent :=
  sortHistoryData
    { quotaPoints := data.quotaPoints.filter fun point => decide (since ≤ point.observedAt)
      weeklyLocalPoints :=
        data.weeklyLocalPoints.filter fun point => decide (since ≤ point.observedAt) }

/-- What callers do to the series. -/
inductive SeriesCall (Percent : Type)
  | upsertQuotaPoint (incoming : QuotaPoint Percent)
  | upsertWeeklyLocalPoint (incoming : WeeklyLocalPoint)
  | retain (since : DateTime)

section
variable {Percent : Type} [BEq Percent] [LT Percent] [DecidableLT Percent] (estimator : Nat)

def SeriesCall.run (data : HistorySeries Percent) : SeriesCall Percent → HistorySeries Percent
  | upsertQuotaPoint incoming =>
    { data with quotaPoints := (History.upsertQuotaPoint data.quotaPoints incoming).1 }
  | upsertWeeklyLocalPoint incoming =>
    { data with weeklyLocalPoints :=
        (History.upsertWeeklyLocalPoint estimator data.weeklyLocalPoints incoming).1 }
  | retain since => retainSince since data

def runSeries (data : HistorySeries Percent) (calls : List (SeriesCall Percent)) :
    HistorySeries Percent :=
  calls.foldl (SeriesCall.run estimator) data

end

end History
