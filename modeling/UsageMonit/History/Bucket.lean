import UsageMonit.Domain.Usage

/-!
# Local usage buckets (`history.rs`, `domain.rs`)

A bucket is the usage of one fixed interval: totals, one group for a model and service tier, and
one group for an emitting thread and turn with its attribution to a project. Cost units are 128-bit
counters, the counts 64-bit ones; sums saturate.
-/

namespace History

open Fallible Time Usage

/-- `ApiCostAmount`: the bounds of a price with the coverage they were computed from. -/
structure ApiCostAmount where
  minimumPicoUsd : Nat := 0
  maximumPicoUsd : Nat := 0
  observedSamples : Nat := 0
  pricedSamples : Nat := 0
  observedTokens : Nat := 0
  pricedTokens : Nat := 0
deriving DecidableEq, Inhabited

def ApiCostAmount.addAssign (a other : ApiCostAmount) : ApiCostAmount where
  minimumPicoUsd := saturatingAdd 128 a.minimumPicoUsd other.minimumPicoUsd
  maximumPicoUsd := saturatingAdd 128 a.maximumPicoUsd other.maximumPicoUsd
  observedSamples := saturatingAdd 64 a.observedSamples other.observedSamples
  pricedSamples := saturatingAdd 64 a.pricedSamples other.pricedSamples
  observedTokens := saturatingAdd 64 a.observedTokens other.observedTokens
  pricedTokens := saturatingAdd 64 a.pricedTokens other.pricedTokens

/-- `LocalUsageGroup`: the usage of one model and service tier in a bucket. -/
structure LocalUsageGroup where
  model : Option String := none
  serviceTier : Option String := none
  tokenUsage : TokenUsage := default
  estimatedCostUnits : Nat := 0
  apiLongContextExtraCostUnits : Option Nat := none
  callCount : Nat := 0
  usedModelFallback : Bool := false
  usedTokenBreakdownFallback : Bool := false
  usedLongContextPricing : Bool := false
  usedLongContextDetectionFallback : Bool := false
  apiEquivalentCost : ApiCostAmount := {}
  apiEquivalentCostComplete : Bool := false
deriving DecidableEq

/-- `LocalProjectUsageGroup`: the usage of one emitting thread and turn in a bucket. -/
structure LocalProjectUsageGroup where
  threadId : String := ""
  turnId : Option String := none
  parentThreadId : Option String := none
  sessionThreadId : Option String := none
  sessionTurnId : Option String := none
  messagePreview : Option String := none
  turnStartedAt : Option DateTime := none
  projectId : Option String := none
  projectLabel : Option String := none
  title : Option String := none
  source : Option String := none
  tokenUsage : TokenUsage := default
  estimatedCostUnits : Nat := 0
  apiLongContextExtraCostUnits : Option Nat := none
  apiEquivalentCost : ApiCostAmount := {}
  callCount : Nat := 0
deriving DecidableEq

structure LocalHalfHourBucket where
  startsAt : DateTime
  endsAt : DateTime
  sampledAt : DateTime
  tokenUsage : TokenUsage := default
  estimatedCostUnits : Nat := 0
  apiLongContextExtraCostUnits : Option Nat := none
  longContextUsageUnknown : Bool := false
  estimatorRevision : Nat
  projectBreakdownRevision : Nat := 0
  apiPricingCatalogRevision : Nat := 0
  callCount : Nat := 0
  groups : List LocalUsageGroup := []
  projectGroups : List LocalProjectUsageGroup := []
  partialReasons : List String := []
deriving DecidableEq

/-- `WeeklyLocalPoint`: the usage of a weekly cycle until an instant. -/
structure WeeklyLocalPoint where
  observedAt : DateTime
  resetsAt : DateTime
  tokenUsage : TokenUsage := default
  estimatedCostUnits : Nat := 0
  apiLongContextExtraCostUnits : Option Nat := none
  longContextUsageUnknown : Bool := false
  estimatorRevision : Nat
  callCount : Nat := 0
  partialReasons : List String := []
deriving DecidableEq

/-- `add_optional_units`: unknown as soon as one side is. -/
def addOptionalUnits (left right : Option Nat) : Option Nat :=
  left.bind fun left => right.map fun right => saturatingAdd 128 left right

end History
