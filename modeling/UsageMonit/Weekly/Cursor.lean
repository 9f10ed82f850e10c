import UsageMonit.Lib.Sweep
import UsageMonit.Weekly.Plan

/-!
# The cursor of a source in a weekly cycle (`history_query/aggregation.rs`)

`WeeklySourceCursor.advanceTo` gives what a source used in a cycle until an instant: its latest
weekly point, and the buckets since. The instants come in order, and the cursor keeps its positions
in the points, the buckets and the buckets that cover the cycle.
-/

namespace Weekly

open Fallible Time Usage History Sweep
open Facts (SourceKind)

/-! ## Accumulators -/

structure WeeklyAccumulator where
  present : Bool := false
  tokenUsage : TokenUsage := default
  estimatedCostUnits : Nat := 0
  apiLongContextExtraCostUnits : Option Nat := none
  longContextUsageUnknown : Bool := false
  estimatorRevisions : Finset Nat := ∅
  callCount : Nat := 0
  partialReasons : Finset String := ∅
deriving DecidableEq

namespace WeeklyAccumulator

def addValues (a : WeeklyAccumulator) (tokenUsage : TokenUsage) (estimatedCostUnits : Nat)
    (apiLongContextExtraCostUnits : Option Nat) (longContextUsageUnknown : Bool)
    (estimatorRevision callCount : Nat) (partialReasons : List String) : WeeklyAccumulator where
  present := true
  tokenUsage := a.tokenUsage.addAssign tokenUsage
  estimatedCostUnits := saturatingAdd 128 a.estimatedCostUnits estimatedCostUnits
  apiLongContextExtraCostUnits := addOptionalUnits
    (if a.present then a.apiLongContextExtraCostUnits else some 0) apiLongContextExtraCostUnits
  longContextUsageUnknown := a.longContextUsageUnknown || longContextUsageUnknown
  estimatorRevisions := insert estimatorRevision a.estimatorRevisions
  callCount := saturatingAdd 64 a.callCount callCount
  partialReasons := a.partialReasons ∪ partialReasons.toFinset

def addWeekly (a : WeeklyAccumulator) (point : WeeklyLocalPoint) : WeeklyAccumulator :=
  a.addValues point.tokenUsage point.estimatedCostUnits point.apiLongContextExtraCostUnits
    point.longContextUsageUnknown point.estimatorRevision point.callCount point.partialReasons

def addBucket (a : WeeklyAccumulator) (bucket : LocalHalfHourBucket) : WeeklyAccumulator :=
  a.addValues bucket.tokenUsage bucket.estimatedCostUnits bucket.apiLongContextExtraCostUnits
    bucket.longContextUsageUnknown bucket.estimatorRevision bucket.callCount bucket.partialReasons

def addReason (a : WeeklyAccumulator) (reason : String) : WeeklyAccumulator :=
  { a with partialReasons := insert reason a.partialReasons }

end WeeklyAccumulator

def fromWeekly (point : WeeklyLocalPoint) : WeeklyAccumulator :=
  let aggregate := WeeklyAccumulator.addWeekly {} point
  if timestampSecs point.observedAt % localBucketSecs ≠ 0 then
    aggregate.addReason "weekly_source_boundary_excludes_partial_bucket"
  else aggregate

/-! ## The cursor -/

structure WeeklySourceCursor where
  sourceKind : SourceKind
  cycleStartsAt : DateTime
  weekly : List WeeklyLocalPoint
  buckets : List LocalHalfHourBucket
  coverageBuckets : List LocalHalfHourBucket
  weeklyIndex : Nat
  bucketIndex : Nat
  coverageIndex : Nat
  baseObservedAt : Option DateTime
  aggregate : WeeklyAccumulator
  coverageThrough : DateTime
  coverageGap : Bool

namespace WeeklySourceCursor

def fromPartitioned (sourceKind : SourceKind) (cycleStartsAt : DateTime)
    (input : WeeklyCycleSourceInput) : WeeklySourceCursor where
  sourceKind := sourceKind
  cycleStartsAt := cycleStartsAt
  weekly := input.weekly
  buckets := input.buckets
  coverageBuckets := input.coverageBuckets
  weeklyIndex := 0
  bucketIndex := 0
  coverageIndex := 0
  baseObservedAt := none
  aggregate := {}
  coverageThrough := cycleStartsAt
  coverageGap := false

/-- An instant without the whole seconds since the last quarter of an hour. -/
def coverageTarget (observedAt : DateTime) : DateTime :=
  observedAt - seconds (timestampSecs observedAt % localBucketSecs)

def extendCoverage (s : DateTime × Bool) (bucket : LocalHalfHourBucket) : DateTime × Bool :=
  if s.2 then s
  else if s.1 < bucket.startsAt then (s.1, true)
  else if s.1 < bucket.endsAt then (bucket.endsAt, false)
  else s

def coverageCompleteThrough (c : WeeklySourceCursor) (observedAt : DateTime) :
    Bool × WeeklySourceCursor :=
  let target := coverageTarget observedAt
  if target ≤ c.cycleStartsAt then
    (target = c.cycleStartsAt, c)
  else
    let (coverageIndex, coverageThrough, coverageGap) :=
      sweep (fun bucket : LocalHalfHourBucket => bucket.startsAt < target) extendCoverage
        c.coverageBuckets (c.coverageIndex, c.coverageThrough, c.coverageGap)
    (!coverageGap && decide (target ≤ coverageThrough),
      { c with coverageIndex, coverageThrough, coverageGap })

/-- The loop over the weekly points: the last one that it passes is the new base. -/
def advanceWeekly (c : WeeklySourceCursor) (observedAt : DateTime) : WeeklySourceCursor :=
  let (weeklyIndex, aggregate, baseObservedAt) :=
    sweep (fun point : WeeklyLocalPoint => point.observedAt ≤ observedAt)
      (fun _ point => (fromWeekly point, some point.observedAt)) c.weekly
      (c.weeklyIndex, c.aggregate, c.baseObservedAt)
  { c with weeklyIndex, aggregate, baseObservedAt }

def bucketCutoff (c : WeeklySourceCursor) : DateTime := c.baseObservedAt.getD c.cycleStartsAt

/-- The loop over the buckets. -/
def advanceBuckets (c : WeeklySourceCursor) (observedAt : DateTime) : WeeklySourceCursor :=
  let (bucketIndex, aggregate) :=
    sweep (fun bucket : LocalHalfHourBucket => bucket.endsAt ≤ observedAt)
      (fun aggregate bucket =>
        if c.bucketCutoff ≤ bucket.startsAt then aggregate.addBucket bucket else aggregate)
      c.buckets (c.bucketIndex, c.aggregate)
  { c with bucketIndex, aggregate }

def advanceTo (c : WeeklySourceCursor) (observedAt : DateTime) :
    Option WeeklyAccumulator × WeeklySourceCursor :=
  let c := (c.advanceWeekly observedAt).advanceBuckets observedAt
  let aggregate := c.aggregate
  if !aggregate.present then (none, c)
  else if c.baseObservedAt.isSome then (some aggregate, c)
  else
    match c.sourceKind with
    | .ssh => (some (aggregate.addReason "remote_weekly_from_buckets_lower_bound"), c)
    | .local =>
      let (complete, c) := c.coverageCompleteThrough observedAt
      (some (if complete then aggregate
        else aggregate.addReason "local_weekly_from_buckets_lower_bound"), c)

/-- The aggregate at an instant, and whether the cycle is covered until then. -/
def answer (c : WeeklySourceCursor) (observedAt : DateTime) :
    (Option WeeklyAccumulator × Bool) × WeeklySourceCursor :=
  let (aggregate, c) := c.advanceTo observedAt
  let (complete, c) := c.coverageCompleteThrough observedAt
  ((aggregate, complete), c)

def answers (c : WeeklySourceCursor) : List DateTime → List (Option WeeklyAccumulator × Bool)
  | [] => []
  | observedAt :: rest =>
    let (answer, c) := c.answer observedAt
    answer :: c.answers rest

end WeeklySourceCursor

end Weekly
