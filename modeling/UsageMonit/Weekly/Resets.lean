import Mathlib.Data.List.Destutter
import UsageMonit.Facts.Record
import UsageMonit.History.Quota
import UsageMonit.Lib.PartitionPoint
import UsageMonit.Replica.Buckets

/-!
# The resets of the weekly cycles (`history_query/aggregation.rs`)

The quota points of the account and the weekly points of the sources report when a weekly window
resets. `canonicalWeeklyResets` clusters these reports, first those of the account, then those of
the sources that match none of them, and `assignedCanonicalReset` gives a report its cluster. A
reset of an unused window moves along with the clock (`RollingResetEvidence`).
-/

namespace Weekly

open Fallible Time History PartitionPoint
open Facts (SourceKind)
open Replica (duplicateSessionWeeklyRebuiltFromBuckets)
open Text (trim eqIgnoreAsciiCase)

def weeklyWindowMinutes : Int := 7 * 24 * 60

def weeklyWindow : Duration := minutes weeklyWindowMinutes

structure SourceSlice where
  kind : SourceKind
  buckets : List LocalHalfHourBucket := []
  weeklyLocalPoints : List WeeklyLocalPoint := []

/-! ## The work of a projection -/

def weeklyProjectionLimitError (detail : String) : String :=
  "weekly history projection exceeds its resource bound: " ++ detail

/-- `WeeklyProjectionBudget::consume`: the units used then. -/
def consume (limit used units : Nat) (phase : String) : Except String Nat :=
  match checkedAdd 64 used units with
  | none => .error (weeklyProjectionLimitError "projection work count overflowed")
  | some used =>
    if limit < used then
      .error (weeklyProjectionLimitError
        ("more than " ++ toString limit ++ " projection work units (" ++ phase ++ ")"))
    else .ok used

/-! ## Clusters of resets -/

def resetMatches (left right : DateTime) : Bool :=
  (numSeconds (left - right)).natAbs ≤ resetDriftSecs.natAbs

/-- The candidates that start a cluster, after a cluster that started at `last`. -/
def clusterFrom (last : Option DateTime) : List DateTime → List DateTime
  | [] => []
  | candidate :: candidates =>
    if last.any fun existing => resetMatches existing candidate then clusterFrom last candidates
    else candidate :: clusterFrom (some candidate) candidates

def clusterSortedWeeklyResets (candidates : List DateTime) : List DateTime :=
  clusterFrom none candidates

/-- The first of the candidates with the least key. -/
def minByKey {α κ : Type} [LT κ] [DecidableLT κ] (key : α → κ) : List α → Option α
  | [] => none
  | a :: as => some (as.foldl (fun best b => if key b < key best then b else best) a)

/-- Only the two neighbours of a reported reset can be the nearest one. -/
def assignedCanonicalReset (reported : DateTime) (canonical : List DateTime) : Option DateTime :=
  let insertion := partitionPoint (fun candidate => decide (candidate < reported)) canonical
  let earlier := if 1 ≤ insertion then canonical[insertion - 1]? else none
  let later := canonical[insertion]?
  minByKey (fun candidate =>
      toLex ((numSeconds (reported - candidate)).natAbs, candidate))
    ((earlier.toList ++ later.toList).filter (resetMatches reported))

/-! ## Which points establish a cycle -/

section
variable {Percent : Type} [OfNat Percent 0] [OfNat Percent 100] [LT Percent] [DecidableLT Percent]

def quotaPointEstablishesWeeklyCycle (point : QuotaPoint Percent) : Bool :=
  decide (0 < point.usedPercent) || decide (point.remainingPercent < 100)

def isWeeklyCodex (point : QuotaPoint Percent) : Bool :=
  decide (point.durationMins = weeklyWindowMinutes) &&
    eqIgnoreAsciiCase (trim point.limitId) "codex"

/-- A quota point whose reset is that of a cycle. -/
def isAccountAnchor (point : QuotaPoint Percent) : Bool :=
  isWeeklyCodex point && quotaPointEstablishesWeeklyCycle point

/-- A quota point of an unused weekly window. -/
def isAccountIdle (point : QuotaPoint Percent) : Bool :=
  isWeeklyCodex point && !quotaPointEstablishesWeeklyCycle point

def weeklyPointEstablishesCycle (point : WeeklyLocalPoint) : Bool :=
  !decide point.tokenUsage.isZero || decide (0 < point.estimatedCostUnits) ||
    decide (0 < point.callCount) ||
    point.partialReasons.contains duplicateSessionWeeklyRebuiltFromBuckets

/-- `RollingResetEvidence`: the resets that are a week after their observation, each with the first
of its observations. -/
def rollingResetEvidence (accountQuota : List (QuotaPoint Percent)) : List (DateTime × DateTime) :=
  let observations := accountQuota.filterMap fun point =>
    if isAccountIdle point &&
        (checkedAddSigned point.observedAt weeklyWindow).any
          fun rolling => resetMatches rolling point.resetsAt then
      some (point.resetsAt, point.observedAt)
    else none
  (observations.insertionSort fun a b => toLex a ≤ toLex b).destutter fun a b => a.1 ≠ b.1

/-- `RollingResetEvidence::was_superseded`. -/
def wasSuperseded (observations : List (DateTime × DateTime)) (point : WeeklyLocalPoint)
    (accountResets : List DateTime) : Bool :=
  match observations.find? fun observation => observation.1 = point.resetsAt with
  | none => false
  | some (_, rollingObservedAt) =>
    if point.observedAt < rollingObservedAt then false
    else
      let replacement :=
        partitionPoint (fun reset => decide (reset ≤ point.resetsAt)) accountResets
      (accountResets[replacement]?.bind (checkedSubSigned · weeklyWindow)).any fun startsAt =>
        decide (rollingObservedAt ≤ startsAt) && decide (startsAt ≤ point.observedAt)

/-! ## The canonical resets -/

/-- The last of the elements with the greatest key. -/
def maxByKey {α κ : Type} [LT κ] [DecidableLT κ] (key : α → κ) (as : List α) : Option α :=
  as.foldl (fun best a =>
    match best with
    | none => some a
    | some b => if key a < key b then some b else some a) none

/-- What the points of the sources leave: the latest observation of a cycle, the resets that match
none of the account, and the latest observation of no cycle. -/
structure SourceEvidence where
  latestAnchoredObservation : Option DateTime
  latestUnanchored : Option (DateTime × Bool × DateTime)
  sourceCandidates : List DateTime := []

/-- Whether a weekly point of a source is of a cycle. -/
def isSourceAnchor (observations : List (DateTime × DateTime)) (accountResets : List DateTime)
    (point : WeeklyLocalPoint) : Bool :=
  weeklyPointEstablishesCycle point &&
    ((assignedCanonicalReset point.resetsAt accountResets).isSome ||
      point.partialReasons.contains duplicateSessionWeeklyRebuiltFromBuckets ||
      !wasSuperseded observations point accountResets)

def addSourcePoint (observations : List (DateTime × DateTime)) (accountResets : List DateTime)
    (evidence : SourceEvidence) (point : WeeklyLocalPoint) : SourceEvidence :=
  if isSourceAnchor observations accountResets point then
    { evidence with
      latestAnchoredObservation := some (evidence.latestAnchoredObservation.elim point.observedAt
        fun latest => max latest point.observedAt)
      sourceCandidates :=
        if (assignedCanonicalReset point.resetsAt accountResets).isNone then
          evidence.sourceCandidates ++ [point.resetsAt]
        else evidence.sourceCandidates }
  else
    -- An account point, the one with `true`, is preferred at the same instant.
    match evidence.latestUnanchored with
    | none => { evidence with latestUnanchored := some (point.observedAt, false, point.resetsAt) }
    | some latest =>
      if toLex (latest.1, latest.2.1) < toLex (point.observedAt, false) then
        { evidence with latestUnanchored := some (point.observedAt, false, point.resetsAt) }
      else evidence

/-- The reset of the newest idle window, if nothing newer is of a cycle. -/
def insertIdle (evidence : SourceEvidence) (resets : List DateTime) : List DateTime :=
  match evidence.latestUnanchored with
  | none => resets
  | some (observedAt, _, candidate) =>
    if (evidence.latestAnchoredObservation.all fun anchored => decide (anchored < observedAt)) &&
        (assignedCanonicalReset candidate resets).isNone then
      resets.insertIdx (partitionPoint (fun reset => decide (reset < candidate)) resets) candidate
    else resets

def accountResetsOf (accountQuota : List (QuotaPoint Percent)) : List DateTime :=
  clusterSortedWeeklyResets
    (((accountQuota.filter isAccountAnchor).map (·.resetsAt)).insertionSort (· ≤ ·))

def sourceEvidence (sources : List SourceSlice) (accountQuota : List (QuotaPoint Percent)) :
    SourceEvidence :=
  (sources.flatMap (·.weeklyLocalPoints)).foldl
    (addSourcePoint (rollingResetEvidence accountQuota) (accountResetsOf accountQuota))
    { latestAnchoredObservation :=
        ((accountQuota.filter isAccountAnchor).map (·.observedAt)).max?
      latestUnanchored := maxByKey (fun candidate => toLex (candidate.1, candidate.2.1))
        ((accountQuota.filter isAccountIdle).map fun point =>
          (point.observedAt, true, point.resetsAt)) }

def canonicalWeeklyResets (limit : Nat) (sources : List SourceSlice)
    (accountQuota : List (QuotaPoint Percent)) : Except String (List DateTime) := do
  let used ← consume limit 0 accountQuota.length "account reset candidates"
  let _ ← consume limit used (sources.map (·.weeklyLocalPoints.length)).sum
    "source reset candidates"
  let evidence := sourceEvidence sources accountQuota
  let sourceResets :=
    clusterSortedWeeklyResets (evidence.sourceCandidates.insertionSort (· ≤ ·))
  let resets := (accountResetsOf accountQuota ++ sourceResets).insertionSort (· ≤ ·)
  return insertIdle evidence resets

end

end Weekly
