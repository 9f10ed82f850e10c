import Mathlib.Algebra.Order.Ring.Rat
import UsageMonit.Pricing.Rates

/-!
# Who used a quota window (`attribution.rs`)

The calls of a window are weighed (`estimateCallWeight`) and added up for the whole window, for the
threads, the turns and the models. Each of these gets its share of the window's percentage. A
percentage is a rational number; the code has a float.
-/

namespace Attribution

open Fallible Time Usage History Tally Pricing

def fiveHoursMins : Int := 300

def weekMins : Int := 10080

structure LimitWindow where
  usedPercent : ℚ
  windowDurationMins : Option Int
  resetsAt : Option DateTime
deriving DecidableEq

def LimitWindow.label (window : LimitWindow) : String :=
  match window.windowDurationMins with
  | some minutes =>
    if minutes = fiveHoursMins then "5h"
    else if minutes = weekMins then "week"
    else toString minutes ++ "m"
  | none => "window"

structure LimitBucket where
  limitId : String
  provenance : Provenance
deriving DecidableEq

structure SelectedWindow where
  bucket : LimitBucket
  window : LimitWindow
  startsAt : DateTime
  endsAt : DateTime
  durationMins : Int
  has_duration : window.windowDurationMins = some durationMins

/-! ## Weights -/

structure UsageAccumulator where
  tokens : TokenUsage := .zero
  estimatedCostUnits : Nat := 0
  apiLongContextExtraCostUnits : Nat := 0
deriving DecidableEq

namespace UsageAccumulator

def addCall (usage : UsageAccumulator) (call : UsageCall) (estimated : EstimatedUsageWeight) :
    UsageAccumulator where
  tokens := usage.tokens.addAssign call.tokens
  estimatedCostUnits := saturatingAdd 128 usage.estimatedCostUnits estimated.units
  apiLongContextExtraCostUnits :=
    saturatingAdd 128 usage.apiLongContextExtraCostUnits estimated.apiLongContextExtraUnits

def projectedCostUnits (usage : UsageAccumulator) (apiLongContext : Bool) : Nat :=
  if apiLongContext then
    saturatingAdd 128 usage.estimatedCostUnits usage.apiLongContextExtraCostUnits
  else usage.estimatedCostUnits

end UsageAccumulator

structure WindowAggregation where
  localUsage : UsageAccumulator := {}
  taskUsage : List (String × UsageAccumulator) := []
  turnUsage : List ((String ×ₗ String) × UsageAccumulator) := []
  modelUsage : List (String × UsageAccumulator) := []
  usedModelFallback : Bool := false
  usedTokenBreakdownFallback : Bool := false
  usedLongContextDetectionFallback : Bool := false
  apiCost : ApiCostAggregation := {}
deriving DecidableEq

namespace WindowAggregation

def turnEntry (call : UsageCall) (update : UsageAccumulator → UsageAccumulator)
    (turns : List ((String ×ₗ String) × UsageAccumulator)) :
    List ((String ×ₗ String) × UsageAccumulator) :=
  match call.turnId with
  | some turnId => entry {} (toLex (call.threadId, turnId)) update turns
  | none => turns

/-- The body of the loop of `analyze_selected_window`. -/
def addCall (catalog : ModelCatalog) (aggregation : WindowAggregation) (call : UsageCall) :
    WindowAggregation :=
  let apiCost := aggregation.apiCost.addCall catalog call
  if isSparkModel call.model then
    { aggregation with
      taskUsage := entry {} call.threadId id aggregation.taskUsage
      turnUsage := turnEntry call id aggregation.turnUsage
      apiCost := apiCost }
  else
    let estimated := estimateCallWeight catalog call
    { localUsage := aggregation.localUsage.addCall call estimated
      taskUsage := entry {} call.threadId (·.addCall call estimated) aggregation.taskUsage
      turnUsage := turnEntry call (·.addCall call estimated) aggregation.turnUsage
      modelUsage := entry {} (modelName call) (·.addCall call estimated) aggregation.modelUsage
      usedModelFallback := aggregation.usedModelFallback || estimated.usedModelFallback
      usedTokenBreakdownFallback :=
        aggregation.usedTokenBreakdownFallback || estimated.usedTokenBreakdownFallback
      usedLongContextDetectionFallback :=
        aggregation.usedLongContextDetectionFallback || estimated.usedLongContextDetectionFallback
      apiCost := apiCost }

def addCalls (catalog : ModelCatalog) (calls : List UsageCall) : WindowAggregation :=
  calls.foldl (addCall catalog) {}

end WindowAggregation

/-! ## Shares -/

def tokenShare (tokens : TokenUsage) (totalTokens : Nat) : ℚ :=
  if totalTokens = 0 then 0 else (tokens.totalTokens : ℚ) / totalTokens * 100

def costShare (estimatedCostUnits totalEstimatedCostUnits : Nat) : ℚ :=
  if totalEstimatedCostUnits = 0 then 0
  else (estimatedCostUnits : ℚ) / totalEstimatedCostUnits * 100

structure WindowUsage where
  tokenUsage : TokenUsage
  localTokenSharePercent : ℚ
  estimatedQuotaPercent : ℚ
  quotaConfidence : Confidence
  apiEquivalentCost : ApiCostAmount
deriving DecidableEq

structure ThreadWindowUsage where
  threadId : String
  usage : WindowUsage
deriving DecidableEq

structure TurnWindowUsage where
  threadId : String
  turnId : String
  usage : WindowUsage
deriving DecidableEq

structure ModelUsage where
  model : String
  tokenUsage : TokenUsage
  localTokenSharePercent : ℚ
  estimatedQuotaPercent : ℚ
  quotaConfidence : Confidence
  apiEquivalentCost : ApiCostAmount
deriving DecidableEq

structure WindowDescriptor where
  limitId : String
  label : String
  startsAt : DateTime
  endsAt : DateTime
  usedPercent : ℚ
deriving DecidableEq

structure AttributionSummary where
  window : Option WindowDescriptor
  localTokenUsage : TokenUsage
  observedDeltaPercent : ℚ
  estimatedAssignedPercent : ℚ
  proxyProjectedPercent : ℚ
  unattributedPercent : ℚ
  attributionCoveragePercent : ℚ
  externalActivityPossible : Bool
  confidence : Confidence
  method : String
  settled : Bool
deriving DecidableEq

structure WindowAnalysis where
  durationMins : Int
  attribution : AttributionSummary
  isPartial : Bool
  partialReasons : List String
  threads : List ThreadWindowUsage
  turns : List TurnWindowUsage
  models : List ModelUsage
  apiEquivalentCost : ApiEquivalentCost
  /-- The same window with the long-context rates of the API. -/
  apiLongContext : Option WindowAnalysis

/-- `buildWindowAnalysis`. The metadata of the price catalog (`pricing_metadata`) is left out. -/
def buildWindowAnalysis (selected : SelectedWindow) (settled apiLongContext : Bool)
    (aggregation : WindowAggregation) (quotaWindowStale : Bool) : WindowAnalysis :=
  let localTokenUsage := aggregation.localUsage.tokens
  let totalTokens := localTokenUsage.totalTokens
  let totalEstimatedCostUnits := aggregation.localUsage.projectedCostUnits apiLongContext
  let usedPercent := max 0 (min selected.window.usedPercent 100)
  let confidence := if totalTokens = 0 then Confidence.unknown else .low
  let quotaPercent := fun (usage : UsageAccumulator) =>
    usedPercent * costShare (usage.projectedCostUnits apiLongContext) totalEstimatedCostUnits / 100
  let usageFor := fun (usage : UsageAccumulator) (apiEquivalentCost : ApiCostAmount) =>
    ({ tokenUsage := usage.tokens
       localTokenSharePercent := tokenShare usage.tokens totalTokens
       estimatedQuotaPercent := quotaPercent usage
       quotaConfidence := if usage.tokens.isZero then .unknown else confidence
       apiEquivalentCost := apiEquivalentCost } : WindowUsage)
  let partialReasons :=
    (if quotaWindowStale then ["quota_window_stale"] else []) ++
    (if aggregation.usedModelFallback then ["unpriced_model_rate_fallback"] else []) ++
    (if aggregation.usedTokenBreakdownFallback then ["token_breakdown_missing"] else []) ++
    (if apiLongContext && aggregation.usedLongContextDetectionFallback then
      ["long_context_usage_unknown"] else [])
  { durationMins := selected.durationMins
    attribution :=
      { window := some ⟨selected.bucket.limitId, selected.window.label, selected.startsAt,
          selected.endsAt, usedPercent⟩
        localTokenUsage := localTokenUsage
        observedDeltaPercent := 0
        estimatedAssignedPercent := 0
        proxyProjectedPercent := if totalTokens = 0 then 0 else usedPercent
        unattributedPercent := usedPercent
        attributionCoveragePercent := 0
        externalActivityPossible := true
        confidence := confidence
        method := if totalTokens = 0 then "codex_gauge_without_local_tokens"
          else "current_codex_gauge_credit_rate_weighted_proxy"
        settled := settled }
    isPartial := !partialReasons.isEmpty
    partialReasons := partialReasons
    threads := aggregation.taskUsage.map fun e =>
      ⟨e.1, usageFor e.2 (aggregation.apiCost.thread e.1)⟩
    turns := aggregation.turnUsage.map fun e =>
      ⟨(ofLex e.1).1, (ofLex e.1).2,
        usageFor e.2 (aggregation.apiCost.turn (ofLex e.1).1 (ofLex e.1).2)⟩
    models := aggregation.modelUsage.map fun e =>
      ⟨e.1, e.2.tokens, tokenShare e.2.tokens totalTokens, quotaPercent e.2, confidence,
        aggregation.apiCost.model e.1⟩
    apiEquivalentCost := aggregation.apiCost.summary
    apiLongContext := none }

def windowCalls (calls : List UsageCall) (selected : SelectedWindow) (now : DateTime) :
    List UsageCall :=
  calls.filter fun call => decide (selected.startsAt ≤ call.timestamp) &&
    decide (call.timestamp ≤ now) && decide (call.timestamp ≤ selected.endsAt)

def analyzeSelectedWindow (catalog : ModelCatalog) (calls : List UsageCall)
    (selected : SelectedWindow) (now : DateTime) (settled : Bool) : WindowAnalysis :=
  let quotaWindowStale :=
    selected.bucket.provenance = .stale || selected.bucket.provenance = .unknown
  let aggregation := WindowAggregation.addCalls catalog (windowCalls calls selected now)
  let apiLongContext := buildWindowAnalysis selected settled true aggregation quotaWindowStale
  let base := buildWindowAnalysis selected settled false aggregation quotaWindowStale
  { base with apiLongContext := some apiLongContext }

end Attribution
