import UsageMonit.History.Quota

/-!
# Merging the quota points of an account (`quota_merge.rs`)

The points of all sources are sorted, their resets are clustered from the earliest one on, and the
newest point of each limit, duration, reset and slot of five minutes is kept. Percentages are
compared with `total_cmp`, a linear order.
-/

namespace History.QuotaMerge

open Time Usage KeyedMerge

variable {Percent : Type} [LinearOrder Percent]

def asciiLowercase (text : String) : String := String.ofList (text.toList.map Char.toLower)

def provenanceRank : Provenance → Nat
  | .unknown => 0
  | .estimated => 1
  | .inferred => 2
  | .stale => 3
  | .localExact => 4
  | .serverSnapshot => 5
  | .live => 6

/-- What makes a point newer than one of the same cycle, in the order in which it is compared. -/
abbrev Freshness (Percent : Type) :=
  DateTime ×ₗ Percent ×ₗ Percentᵒᵈ ×ₗ String ×ₗ Nat

def freshness (point : QuotaPoint Percent) : Freshness Percent :=
  toLex (point.observedAt, toLex (point.usedPercent,
    toLex (OrderDual.toDual point.remainingPercent,
      toLex (point.limitId, provenanceRank point.provenance))))

/-- A limit, in lower case, and a duration. -/
abbrev LimitKey := String ×ₗ Int

def limitKey (point : QuotaPoint Percent) : LimitKey :=
  toLex (asciiLowercase point.limitId, point.durationMins)

def cycleKey (point : QuotaPoint Percent) : LimitKey ×ₗ DateTime :=
  toLex (limitKey point, point.resetsAt)

/-- The order of the points: by cycle, the newest one last. -/
def pointLe (a b : QuotaPoint Percent) : Prop :=
  toLex (cycleKey a, freshness a) ≤ toLex (cycleKey b, freshness b)

instance : DecidableRel (@pointLe Percent _) := fun _ _ => inferInstanceAs (Decidable (_ ≤ _))

/-! ## Clusters of resets -/

structure Cycle where
  limit : LimitKey
  reset : DateTime
deriving DecidableEq

/-- The cycle of a point: the current one, unless the point starts a new one. -/
def cycleOf (cycle : Option Cycle) (point : QuotaPoint Percent) : Cycle :=
  match cycle with
  | some current =>
    if current.limit = limitKey point ∧
        numSeconds (point.resetsAt - current.reset) ≤ resetDriftSecs then
      current
    else ⟨limitKey point, point.resetsAt⟩
  | none => ⟨limitKey point, point.resetsAt⟩

/-- The points, each with the reset of its cycle. -/
def anchorPoints : Option Cycle → List (QuotaPoint Percent) → List (QuotaPoint Percent)
  | _, [] => []
  | cycle, point :: points =>
    let own := cycleOf cycle point
    { point with resetsAt := own.reset } :: anchorPoints (some own) points

/-! ## The newest point of a slot -/

/-- The limit, the duration, the reset and the slot of a point. -/
abbrev SlotKey := (LimitKey ×ₗ DateTime) ×ₗ Int

def slotKey (point : QuotaPoint Percent) : SlotKey :=
  toLex (cycleKey point, timestampSecs point.observedAt / quotaSampleSecs)

def keepNewer (old point : QuotaPoint Percent) : QuotaPoint Percent :=
  if freshness old < freshness point then point else old

def resultLe (a b : QuotaPoint Percent) : Prop :=
  toLex (a.observedAt, toLex (a.durationMins, toLex (a.limitId, a.resetsAt))) ≤
    toLex (b.observedAt, toLex (b.durationMins, toLex (b.limitId, b.resetsAt)))

instance : DecidableRel (@resultLe Percent) := fun _ _ => inferInstanceAs (Decidable (_ ≤ _))

def mergeQuotaPoints (points : List (QuotaPoint Percent)) : List (QuotaPoint Percent) :=
  let points := points.insertionSort pointLe
  let merged := collect slotKey keepNewer (anchorPoints none points)
  merged.insertionSort resultLe

end History.QuotaMerge
