import UsageMonit.Weekly.Resets

/-!
# Planning the weekly cycles (`history_query/aggregation.rs`)

`weeklyCyclePlans` hands every weekly point to the cycle of its reset and every bucket to the cycles
it lies in or overlaps, which binary searches in the canonical resets find. Each membership is
charged to a bounded budget.
-/

namespace Weekly

open Fallible Time History PartitionPoint

structure WeeklyCycleSourceInput where
  weekly : List WeeklyLocalPoint := []
  buckets : List LocalHalfHourBucket := []
  coverageBuckets : List LocalHalfHourBucket := []

structure WeeklyCyclePlan where
  startsAt : DateTime
  resetsAt : DateTime
  timeline : List DateTime
  sourceInputs : List WeeklyCycleSourceInput

def newPlan (sourceCount : Nat) (resetsAt : DateTime) : WeeklyCyclePlan where
  startsAt := (checkedSubSigned resetsAt weeklyWindow).getD minUtc
  resetsAt := resetsAt
  timeline := []
  sourceInputs := List.replicate sourceCount {}

/-! ## Memberships -/

namespace WeeklyCyclePlan

def modifyInput (sourceIndex : Nat) (f : WeeklyCycleSourceInput → WeeklyCycleSourceInput)
    (plan : WeeklyCyclePlan) : WeeklyCyclePlan :=
  { plan with sourceInputs := plan.sourceInputs.modify sourceIndex f }

def pushWeekly (sourceIndex : Nat) (point : WeeklyLocalPoint) (plan : WeeklyCyclePlan) :
    WeeklyCyclePlan :=
  { plan.modifyInput sourceIndex fun input => { input with weekly := input.weekly ++ [point] } with
    timeline := plan.timeline ++ [point.observedAt] }

def pushBucket (sourceIndex : Nat) (bucket : LocalHalfHourBucket) (plan : WeeklyCyclePlan) :
    WeeklyCyclePlan :=
  { plan.modifyInput sourceIndex fun input => { input with buckets := input.buckets ++ [bucket] }
    with timeline := plan.timeline ++ [bucket.endsAt] }

def pushCoverage (sourceIndex : Nat) (bucket : LocalHalfHourBucket) (plan : WeeklyCyclePlan) :
    WeeklyCyclePlan :=
  plan.modifyInput sourceIndex fun input =>
    { input with coverageBuckets := input.coverageBuckets ++ [bucket] }

end WeeklyCyclePlan

section
variable (limit : Nat)

/-- `reserve_weekly_membership`, for several memberships one after the other. -/
def reserveWeeklyMemberships (used : Nat) : Nat → Except String Nat
  | 0 => .ok used
  | count + 1 => do
    let used ← consume limit used 1 "indexed memberships"
    reserveWeeklyMemberships used count

variable (resets : List DateTime) (sourceIndex : Nat)

/-- The cycle of a point's reset, if the point was observed in the cycle. The search in the resets,
which have no repetitions, finds the only position. -/
def addWeeklyPoint (s : List WeeklyCyclePlan × Nat) (point : WeeklyLocalPoint) :
    Except String (List WeeklyCyclePlan × Nat) :=
  match assignedCanonicalReset point.resetsAt resets with
  | none => .ok s
  | some resetsAt => do
    let cycleIndex ← okOr (resets.findIdx? fun reset => reset = resetsAt)
      (weeklyProjectionLimitError "assigned reset is missing from the canonical index")
    let plan ← okOr s.1[cycleIndex]? "index out of bounds"
    if point.observedAt < plan.startsAt ∨ plan.resetsAt ≤ point.observedAt then
      .ok s
    else do
      let used ← reserveWeeklyMemberships limit s.2 2
      .ok (s.1.modify cycleIndex (·.pushWeekly sourceIndex point), used)

/-- The cycles that hold a bucket, and those that it overlaps. -/
def addWeeklyBucket (s : List WeeklyCyclePlan × Nat) (bucket : LocalHalfHourBucket) :
    Except String (List WeeklyCyclePlan × Nat) := do
  let completeStart := partitionPoint (fun reset => decide (reset < bucket.endsAt)) resets
  let completeEnd := (checkedAddSigned bucket.startsAt weeklyWindow).elim resets.length
    fun latestReset => partitionPoint (fun reset => decide (reset ≤ latestReset)) resets
  let used ← reserveWeeklyMemberships limit s.2 (2 * (completeEnd - completeStart))
  let plans := modifyRange completeStart completeEnd (·.pushBucket sourceIndex bucket) s.1
  let coverageStart := partitionPoint (fun reset => decide (reset ≤ bucket.startsAt)) resets
  let coverageEnd := (checkedAddSigned bucket.endsAt weeklyWindow).elim resets.length
    fun latestReset => partitionPoint (fun reset => decide (reset < latestReset)) resets
  let used ← reserveWeeklyMemberships limit used (coverageEnd - coverageStart)
  return (modifyRange coverageStart coverageEnd (·.pushCoverage sourceIndex bucket) plans, used)

end

def addWeeklySource (limit : Nat) (resets : List DateTime) (s : List WeeklyCyclePlan × Nat)
    (source : SourceSlice × Nat) : Except String (List WeeklyCyclePlan × Nat) := do
  let s ← source.1.weeklyLocalPoints.foldlM (addWeeklyPoint limit resets source.2) s
  source.1.buckets.foldlM (addWeeklyBucket limit resets source.2) s

/-! ## Sorting -/

def WeeklyCycleSourceInput.sort (input : WeeklyCycleSourceInput) : WeeklyCycleSourceInput where
  weekly := input.weekly.insertionSort fun a b => a.observedAt ≤ b.observedAt
  buckets := input.buckets.insertionSort fun a b =>
    toLex (a.endsAt, a.startsAt) ≤ toLex (b.endsAt, b.startsAt)
  coverageBuckets := input.coverageBuckets.insertionSort fun a b =>
    toLex (a.startsAt, a.endsAt) ≤ toLex (b.startsAt, b.endsAt)

def WeeklyCyclePlan.sort (plan : WeeklyCyclePlan) : WeeklyCyclePlan :=
  { plan with
    timeline := (plan.timeline.insertionSort (· ≤ ·)).dedup
    sourceInputs := plan.sourceInputs.map (·.sort) }

/-- The plans, and the units used. -/
def weeklyCyclePlans (limit used : Nat) (sources : List SourceSlice) (resets : List DateTime) :
    Except String (List WeeklyCyclePlan × Nat) := do
  let planCells ← okOr (checkedMul 64 resets.length (sources.length + 1))
    (weeklyProjectionLimitError "cycle/source plan count overflowed")
  let used ← consume limit used planCells "cycle/source plans"
  let s ← sources.zipIdx.foldlM (addWeeklySource limit resets)
    (resets.map (newPlan sources.length), used)
  return (s.1.map (·.sort), s.2)

end Weekly
