import UsageMonit.History.Upsert

/-!
# Upserting a weekly point (`history.rs`)

The local usage of a weekly cycle is sampled in slots of five minutes; a sample at an exact half
hour has a slot of its own. `upsertWeeklyLocalPoint` merges a point into the first one of its slot
and cycle, or appends it unless the latest point of the cycle makes it superfluous. Resets that are
two minutes apart are of one cycle.
-/

namespace History

open Time Usage

def quotaSampleSecs : Int := 5 * 60

def weeklySampleSecs : Int := 30 * 60

def resetDriftSecs : Int := 120

def timestampsWithin (timestamp reference : DateTime) (tolerance : Duration) : Bool :=
  datetimeSaturatingSub reference tolerance ≤ timestamp ∧
    timestamp ≤ datetimeSaturatingAdd reference tolerance

def isExactWeeklySampleBoundary (timestamp : DateTime) : Bool :=
  timestampSecs timestamp % weeklySampleSecs = 0 ∧ timestamp % 1000000000 = 0

/-! ## Evidence of a point -/

def weeklyLocalPointEvidenceEq (left right : WeeklyLocalPoint) : Bool :=
  left.resetsAt = right.resetsAt ∧ left.tokenUsage = right.tokenUsage ∧
    left.estimatedCostUnits = right.estimatedCostUnits ∧
    left.apiLongContextExtraCostUnits = right.apiLongContextExtraCostUnits ∧
    left.longContextUsageUnknown = right.longContextUsageUnknown ∧
    left.estimatorRevision = right.estimatorRevision ∧ left.callCount = right.callCount

def weeklyLocalPointPayloadEq (left right : WeeklyLocalPoint) : Bool :=
  weeklyLocalPointEvidenceEq left right && left.partialReasons == right.partialReasons

def weeklyUnweightedEvidenceDominates (candidate other : WeeklyLocalPoint) : Bool :=
  unweightedEvidenceDominates candidate.callCount other.callCount candidate.tokenUsage
    other.tokenUsage

def weeklyEvidenceDominates (candidate other : WeeklyLocalPoint) : Bool :=
  weeklyUnweightedEvidenceDominates candidate other &&
    decide (other.estimatedCostUnits ≤ candidate.estimatedCostUnits)

def weeklyEvidenceKey (point : WeeklyLocalPoint) : List Nat :=
  [point.tokenUsage.totalTokens, point.estimatedCostUnits, point.callCount,
    point.tokenUsage.inputTokens, point.tokenUsage.cachedInputTokens,
    point.tokenUsage.cacheWriteInputTokens, point.tokenUsage.outputTokens,
    point.tokenUsage.reasoningOutputTokens]

section
variable (estimator : Nat)

def shouldReplaceWeeklyLocalPoint (incoming existing : WeeklyLocalPoint) : Bool :=
  if weeklyLocalPointEvidenceEq incoming existing &&
      coverageIssueStateDiffers incoming.partialReasons existing.partialReasons &&
      decide (incoming.observedAt ≠ existing.observedAt) then
    existing.observedAt < incoming.observedAt
  else if incoming.estimatorRevision ≠ existing.estimatorRevision then
    revisionIsPreferred incoming.estimatorRevision existing.estimatorRevision estimator &&
      weeklyUnweightedEvidenceDominates incoming existing &&
      decide (collectionIssueCount incoming.partialReasons ≤
        collectionIssueCount existing.partialReasons) &&
      decide (existing.observedAt ≤ incoming.observedAt)
  else if weeklyEvidenceDominates incoming existing ≠ weeklyEvidenceDominates existing incoming then
    weeklyEvidenceDominates incoming existing
  else if collectionIssueCount incoming.partialReasons ≠
      collectionIssueCount existing.partialReasons then
    collectionIssueCount incoming.partialReasons < collectionIssueCount existing.partialReasons
  else if incoming.observedAt ≠ existing.observedAt then
    existing.observedAt < incoming.observedAt
  else weeklyEvidenceKey existing < weeklyEvidenceKey incoming

/-- The latest point already says what a later one would. -/
def weeklyPointCanSuppressLater (candidate later : WeeklyLocalPoint) : Bool :=
  if candidate.estimatorRevision = later.estimatorRevision then
    weeklyEvidenceDominates candidate later
  else if revisionIsPreferred candidate.estimatorRevision later.estimatorRevision estimator then
    weeklyUnweightedEvidenceDominates candidate later
  else if revisionIsPreferred later.estimatorRevision candidate.estimatorRevision estimator then
    false
  else weeklyUnweightedEvidenceDominates candidate later &&
    !weeklyUnweightedEvidenceDominates later candidate

/-- A point that the stored one dominates, but that was observed later and shows a gap in the
coverage. -/
def weeklyRevealsCoverageGap (existing incoming : WeeklyLocalPoint) : Bool :=
  (weeklyEvidenceDominates existing incoming && !weeklyEvidenceDominates incoming existing) &&
    decide (existing.observedAt < incoming.observedAt) &&
    hasCoverageIssue incoming.partialReasons &&
    coverageIssueStateDiffers incoming.partialReasons existing.partialReasons

def mergeWeeklyGap (existing incoming : WeeklyLocalPoint) : WeeklyLocalPoint :=
  { existing with
    observedAt := incoming.observedAt
    partialReasons := mergeCoverageIssues existing.partialReasons incoming.partialReasons }

/-- The stored point after a point of its slot, and whether it changed. -/
def mergeWeeklyPoint (existing incoming : WeeklyLocalPoint) : WeeklyLocalPoint × Bool :=
  if weeklyLocalPointPayloadEq incoming existing then (existing, false)
  else if weeklyRevealsCoverageGap existing incoming then
    (mergeWeeklyGap existing incoming, true)
  else if shouldReplaceWeeklyLocalPoint estimator incoming existing then (incoming, true)
  else (existing, false)

/-! ## The list of points -/

def sameCycle (incoming point : WeeklyLocalPoint) : Bool :=
  timestampsWithin point.resetsAt incoming.resetsAt (seconds resetDriftSecs)

def sameSlot (incoming point : WeeklyLocalPoint) : Bool :=
  sameCycle incoming point &&
    decide (timestampSecs point.observedAt / quotaSampleSecs =
      timestampSecs incoming.observedAt / quotaSampleSecs) &&
    isExactWeeklySampleBoundary point.observedAt == isExactWeeklySampleBoundary incoming.observedAt

/-- The point merged into the first one of its slot, if there is one. -/
def mergeIntoSlot (incoming : WeeklyLocalPoint) :
    List WeeklyLocalPoint → Option (List WeeklyLocalPoint × Bool)
  | [] => none
  | point :: points =>
    if sameSlot incoming point then
      some ((mergeWeeklyPoint estimator point incoming).1 :: points,
        (mergeWeeklyPoint estimator point incoming).2)
    else (mergeIntoSlot incoming points).map fun merged => (point :: merged.1, merged.2)

/-- The last one of the points that were observed last. -/
def latestPoint (points : List WeeklyLocalPoint) : Option WeeklyLocalPoint :=
  points.foldl (fun latest point =>
    if latest.all fun latest => latest.observedAt ≤ point.observedAt then some point else latest)
    none

/-- A point of a new slot after the latest point of its cycle. -/
def appendWeeklyPoint (points : List WeeklyLocalPoint) (incoming : WeeklyLocalPoint) :
    List WeeklyLocalPoint × Bool :=
  match latestPoint (points.filter (sameCycle incoming)) with
  | none => (points ++ [incoming], true)
  | some latest =>
    if weeklyLocalPointPayloadEq incoming latest then
      if isExactWeeklySampleBoundary incoming.observedAt then (points ++ [incoming], true)
      else (points, false)
    else if weeklyRevealsCoverageGap latest incoming then
      (points ++ [mergeWeeklyGap latest incoming], true)
    else if decide (latest.observedAt < incoming.observedAt) &&
        weeklyPointCanSuppressLater estimator latest incoming &&
        !(weeklyLocalPointEvidenceEq latest incoming &&
          coverageIssueStateDiffers latest.partialReasons incoming.partialReasons) &&
        decide (collectionIssueCount latest.partialReasons ≤
          collectionIssueCount incoming.partialReasons) then (points, false)
    else (points ++ [incoming], true)

def upsertWeeklyLocalPoint (points : List WeeklyLocalPoint) (incoming : WeeklyLocalPoint) :
    List WeeklyLocalPoint × Bool :=
  (mergeIntoSlot estimator incoming points).getD (appendWeeklyPoint estimator points incoming)

end

end History
