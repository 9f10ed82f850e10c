import Mathlib.Data.Finset.Card
import UsageMonit.History.Bucket

/-!
# How far a digest's day is covered (`source_export.rs`)

`digestCoverage` walks over the quarter-hour buckets of a day from its start: over a bucket without
hard reasons to its end, in the bucket that is open at the target to its sample time. It stops at a
gap. The loop is given a number of iterations; it has no result when they do not suffice.
-/

namespace SourceExport

open Time History

def coverageGapReason : String := "session_range_coverage_gap"
def incompleteScanReason : String := "rollout_scan_incomplete"
def openRangeReason : String := "session_range_open"
def maxExportedPartialReasons : Nat := 128

def isHardCoverageReason (reason : String) : Bool :=
  ["rollout_local_coverage_unverified", "coverage_starts_within_local_bucket",
    "rollout_scan_incomplete", "rollout_scan_truncated", "rollout_unreadable",
    "rollout_lines_skipped", "ambiguous_token_reset"].contains reason

def validMachineCode (value : String) : Prop :=
  value ≠ "" ∧ value.utf8ByteSize ≤ 160 ∧
    value.toList.all (fun c => c.isLower || c.isDigit || c == '_' || c == '-' || c == '.' ||
      c == ':') = true

instance (value : String) : Decidable (validMachineCode value) :=
  inferInstanceAs (Decidable (_ ∧ _))

def normalizedPartialReasons (reasons : List String) : Finset String :=
  reasons.foldl (fun normalized reason =>
    if normalized.card = maxExportedPartialReasons then normalized
    else if validMachineCode reason then insert reason normalized
    else insert "invalid_source_partial_reason" normalized) ∅

structure DigestCoverage where
  coveredThrough : DateTime
  complete : Bool
  partialReasons : Finset String
deriving DecidableEq

section
variable (rangeStart rangeEnd : DateTime) (buckets : List LocalHalfHourBucket)
  (observedAt : DateTime)

def coverageTarget : DateTime := min (max observedAt rangeStart) rangeEnd

/-- `by_start`: the last bucket of a start in the range. -/
def bucketByStart (startsAt : DateTime) : Option LocalHalfHourBucket :=
  if rangeStart ≤ startsAt ∧ startsAt < coverageTarget rangeStart rangeEnd observedAt then
    buckets.reverse.find? fun bucket => bucket.startsAt = startsAt
  else none

/-- One iteration of the loop: the next time that is covered through, or the reasons it ends with. -/
def coverageStep (coveredThrough : DateTime) : DateTime ⊕ Finset String :=
  let target := coverageTarget rangeStart rangeEnd observedAt
  match bucketByStart rangeStart rangeEnd buckets observedAt coveredThrough with
  | none => .inr {coverageGapReason}
  | some bucket =>
    if bucket.partialReasons.any isHardCoverageReason then
      .inr (insert coverageGapReason (normalizedPartialReasons bucket.partialReasons))
    else
      let intervalEnd := min bucket.endsAt target
      if intervalEnd ≤ coveredThrough then .inr {coverageGapReason}
      else if target < bucket.endsAt then
        .inl (min (max bucket.sampledAt bucket.startsAt) intervalEnd)
      else .inl intervalEnd

/-- The loop, from a time that is covered through. -/
def coverageLoop : Nat → DateTime → Option (DateTime × Finset String)
  | fuel, coveredThrough =>
    if coveredThrough < coverageTarget rangeStart rangeEnd observedAt then
      match fuel with
      | 0 => none
      | fuel + 1 =>
        match coverageStep rangeStart rangeEnd buckets observedAt coveredThrough with
        | .inl next => coverageLoop fuel next
        | .inr reasons => some (coveredThrough, reasons)
    else some (coveredThrough, ∅)

def digestCoverage (scanComplete : Bool) (fuel : Nat) : Option DigestCoverage :=
  (coverageLoop rangeStart rangeEnd buckets observedAt fuel rangeStart).map fun result =>
    let reasons := if scanComplete then result.2 else insert incompleteScanReason result.2
    let reasons := if observedAt < rangeEnd then insert openRangeReason reasons else reasons
    { coveredThrough := result.1
      complete := scanComplete &&
        decide (coverageTarget rangeStart rangeEnd observedAt = rangeEnd ∧ result.1 = rangeEnd ∧
          reasons = ∅)
      partialReasons := reasons }

end

end SourceExport
