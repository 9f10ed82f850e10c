import Mathlib.Data.Int.ConditionallyCompleteOrder

/-!
# Timestamps

`chrono::DateTime<Utc>` as the number of nanoseconds since the Unix epoch. The type admits the
instants between `minUtc` and `maxUtc`; the checked operations fail outside of them.
-/

namespace Time

/-- `DateTime<Utc>`: nanoseconds since the Unix epoch. -/
abbrev DateTime := Int

/-- A signed `chrono::Duration`, in nanoseconds. -/
abbrev Duration := Int

def seconds (n : Int) : Duration := n * 1000000000

def minutes (n : Int) : Duration := seconds (n * 60)

def hours (n : Int) : Duration := seconds (n * 3600)

def days (n : Int) : Duration := seconds (n * 86400)

/-- `num_seconds`: the whole seconds of a duration. -/
def numSeconds (duration : Duration) : Int := Int.tdiv duration 1000000000

/-- `DateTime::<Utc>::MIN_UTC`: the first nanosecond of the year -262143. -/
def minUtc : DateTime := seconds (-8334601228800)

/-- `DateTime::<Utc>::MAX_UTC`: the last nanosecond of the year 262142. -/
def maxUtc : DateTime := seconds 8210266876799 + 999999999

def checkedAddSigned (t : DateTime) (d : Duration) : Option DateTime :=
  if minUtc ≤ t + d ∧ t + d ≤ maxUtc then some (t + d) else none

def checkedSubSigned (t : DateTime) (d : Duration) : Option DateTime :=
  checkedAddSigned t (-d)

end Time
