import Mathlib.Data.Prod.Lex
import Mathlib.Data.String.Basic
import Mathlib.Order.WithBot
import UsageMonit.History.Bucket
import UsageMonit.Rollout.Event

/-!
# Samples of a summary (`summary.rs`)

A sample is the usage of one emitting thread at one instant, with what is known about its project,
its session and its turn. Local times are wall clocks, in nanoseconds since midnight of the first of
January 1970; a local date is the number of days since then.

A path is a parameter: the summary reads its text and its last component.
-/

namespace Summary

open Fallible Time Usage
open History (ApiCostAmount)

def unknownProjectKey : String := "unknown"
def unknownProjectLabel : String := "Unknown project"

/-- What `std::path::Path` shows of itself. -/
class PathText (Path : Type) where
  toStringLossy : Path → String
  /-- `file_name` as Unicode. -/
  fileName : Path → Option String

/-- Paths of Unix: the last component, unless it leads back. -/
instance : PathText String where
  toStringLossy path := path
  fileName path :=
    ((path.splitOn "/").filter fun component => component ≠ "" ∧ component ≠ ".").getLast?.filter
      fun component => component ≠ ".."

/-! ## Wall clocks -/

/-- `NaiveDateTime`: nanoseconds on a wall clock. -/
abbrev NaiveDateTime := Int

/-- `NaiveDate`: days on a wall clock. -/
abbrev NaiveDate := Int

/-- `NaiveDate::MAX`, the last day of the year 262142. -/
def naiveDateMax : NaiveDate := 95026236

def dateOf (value : NaiveDateTime) : NaiveDate := value / days 1

/-- The start of the hour a wall clock shows. -/
def localHourStart (value : NaiveDateTime) : NaiveDateTime := value / hours 1 * hours 1

def succOpt (date : NaiveDate) : Option NaiveDate :=
  if date < naiveDateMax then some (date + 1) else none

/-! ## Samples -/

structure SummaryWindow where
  startsAt : DateTime
  endsAt : DateTime
deriving DecidableEq

def SummaryWindow.contains (window : SummaryWindow) (timestamp : DateTime) : Bool :=
  window.startsAt ≤ timestamp ∧ timestamp < window.endsAt

structure SummaryMetrics where
  tokenUsage : TokenUsage := default
  estimatedCostUnits : Nat := 0
  apiLongContextExtraCostUnits : Nat := 0
  apiEquivalentCost : ApiCostAmount := {}
  callCount : Nat := 0
deriving DecidableEq, Inhabited

def SummaryMetrics.addAssign (m other : SummaryMetrics) : SummaryMetrics where
  tokenUsage := m.tokenUsage.addAssign other.tokenUsage
  estimatedCostUnits := saturatingAdd 128 m.estimatedCostUnits other.estimatedCostUnits
  apiLongContextExtraCostUnits :=
    saturatingAdd 128 m.apiLongContextExtraCostUnits other.apiLongContextExtraCostUnits
  apiEquivalentCost := m.apiEquivalentCost.addAssign other.apiEquivalentCost
  callCount := saturatingAdd 64 m.callCount other.callCount

structure SummarySample (Path : Type) where
  timestamp : DateTime
  threadId : String
  parentThreadId : Option String := none
  turnId : Option String := none
  sessionThreadId : Option String := none
  sessionTurnId : Option String := none
  messagePreview : Option String := none
  turnStartedAt : Option DateTime := none
  projectKey : Option String := none
  projectLabel : Option String := none
  cwd : Option Path := none
  title : Option String := none
  source : Option String := none
  tokenUsage : TokenUsage := default
  estimatedCostUnits : Nat := 0
  apiLongContextExtraCostUnits : Nat := 0
  apiEquivalentCost : ApiCostAmount := {}
  callCount : Nat := 0
deriving DecidableEq

namespace SummarySample

variable {Path : Type}

def metrics (sample : SummarySample Path) : SummaryMetrics where
  tokenUsage := sample.tokenUsage
  estimatedCostUnits := sample.estimatedCostUnits
  apiLongContextExtraCostUnits := sample.apiLongContextExtraCostUnits
  apiEquivalentCost := sample.apiEquivalentCost
  callCount := sample.callCount

def hasUsage (sample : SummarySample Path) : Bool :=
  ¬ sample.tokenUsage.isZero ∨ 0 < sample.estimatedCostUnits ∨
    0 < sample.apiLongContextExtraCostUnits ∨ 0 < sample.apiEquivalentCost.observedSamples ∨
    0 < sample.apiEquivalentCost.observedTokens ∨ 0 < sample.callCount

/-- The project that the sample names. -/
def explicitProjectKey (sample : SummarySample Path) : Option String :=
  sample.projectKey.filter fun key => key ≠ ""

end SummarySample

/-! ## Turns -/

inductive SummaryTurnKey
  /-- A turn of the root session. -/
  | exact (turnId : String)
  /-- Usage of the root session without a turn. -/
  | unassignedSession
  /-- Delegated usage without a turn. -/
  | unassignedDelegated
deriving DecidableEq

/-- The derived order: by variant, then by turn. -/
def SummaryTurnKey.rank : SummaryTurnKey → ℕ ×ₗ String
  | exact turnId => toLex (0, turnId)
  | unassignedSession => toLex (1, "")
  | unassignedDelegated => toLex (2, "")

theorem SummaryTurnKey.rank_injective : Function.Injective SummaryTurnKey.rank := by
  intro a b h
  have hpair := toLex.injective h
  cases a <;> cases b <;> simp_all

instance : LinearOrder SummaryTurnKey :=
  LinearOrder.lift' SummaryTurnKey.rank SummaryTurnKey.rank_injective

end Summary
