import Mathlib.Data.Finset.Option
import Mathlib.Data.Prod.Lex
import Mathlib.Data.String.Basic
import UsageMonit.History.Bucket
import UsageMonit.Lib.Tally
import UsageMonit.Rollout.Event

/-!
# What a call costs (`model_catalog.rs`, `attribution.rs`, `api_cost.rs`)

The credit weight of a call (`estimateCallWeight`) and its equivalent price at the API
(`priceCall`), from the rates of a model catalog. Rates and costs are 128-bit integers that
saturate. Every call goes into the books: the total and the accumulators of its thread, of its
turn if it has one, and of its model.
-/

namespace Pricing

open Fallible Usage History Tally
open Text (trim eqIgnoreAsciiCase)

def saturatingMul (w a b : Nat) : Nat := min (a * b) (2 ^ w - 1)

/-! ## The catalog -/

structure CreditTokenRates where
  input : Nat
  cachedInput : Nat
  output : Nat
deriving DecidableEq, Inhabited

def CreditTokenRates.longContext (rates : CreditTokenRates) : CreditTokenRates where
  input := saturatingMul 128 rates.input 2
  cachedInput := saturatingMul 128 rates.cachedInput 2
  output := saturatingMul 128 rates.output 3 / 2

structure CreditModelRates where
  standard : CreditTokenRates
  fast : Option CreditTokenRates
  longContextPricing : Bool
deriving DecidableEq

structure ApiTokenRates where
  input : Nat
  cachedInput : Nat
  cacheWrite : Option Nat
  output : Nat
deriving DecidableEq

inductive ApiLongContextRates
  | published (rates : ApiTokenRates)
  | flat
  | unavailable
deriving DecidableEq

structure ApiTierRates where
  short : ApiTokenRates
  long : ApiLongContextRates
deriving DecidableEq

structure ApiModelRates where
  standard : ApiTierRates
  fast : Option ApiTierRates
deriving DecidableEq

structure ModelEntry where
  credit : Option CreditModelRates
  api : Option ApiModelRates
deriving DecidableEq

/-- A validated catalog: the credit fallback has rates for both tiers. -/
structure ModelCatalog where
  estimatorRevision : Nat
  apiPricingCatalogRevision : Nat
  longContextInputThreshold : Nat
  creditFallbackModel : String
  models : String → Option ModelEntry
  creditFallback : CreditModelRates
  fastCreditFallback : CreditTokenRates
  fallback_available : (models creditFallbackModel).bind (·.credit) = some creditFallback ∧
    creditFallback.fast = some fastCreditFallback

def normalizeModelName (value : String) : String :=
  String.ofList ((trim value).toList.map Char.toLower)

section
variable (catalog : ModelCatalog)

def lookup (model : Option String) : Option ModelEntry :=
  model.bind fun model =>
    let normalized := normalizeModelName model
    if normalized = "" then none else catalog.models normalized

def creditRates (model : Option String) (fast : Bool) : Option CreditTokenRates :=
  ((lookup catalog model).bind (·.credit)).bind fun rates =>
    if fast then rates.fast else some rates.standard

def fallbackCreditRates (fast : Bool) : CreditTokenRates :=
  if fast then catalog.fastCreditFallback else catalog.creditFallback.standard

def modelSupportsCreditLongContext (model : Option String) : Bool :=
  ((lookup catalog model).bind (·.credit)).any (·.longContextPricing)

def apiModelRates (model : Option String) : Option ApiModelRates :=
  (lookup catalog model).bind (·.api)

/-! ## Credits -/

def sparkModel : String := "gpt-5.3-codex-spark"

def isSparkModel (model : Option String) : Bool :=
  model.any fun model => eqIgnoreAsciiCase (trim model) sparkModel

def isFastServiceTier (serviceTier : Option String) : Bool :=
  serviceTier.any fun tier =>
    eqIgnoreAsciiCase (trim tier) "fast" || eqIgnoreAsciiCase (trim tier) "priority"

structure EstimatedUsageWeight where
  units : Nat
  apiLongContextExtraUnits : Nat
  usedModelFallback : Bool
  usedTokenBreakdownFallback : Bool
  usedLongContextPricing : Bool
  usedLongContextDetectionFallback : Bool
deriving DecidableEq

/-- The units of regular input, cached input and output at some rates. -/
def weightedUnits (input cachedInput output : Nat) (rates : CreditTokenRates) : Nat :=
  saturatingAdd 128
    (saturatingAdd 128 (saturatingMul 128 input rates.input)
      (saturatingMul 128 cachedInput rates.cachedInput))
    (saturatingMul 128 output rates.output)

/-- `(used_long_context_pricing, used_long_context_detection_fallback)`. -/
def longContextUse (call : UsageCall) : Bool × Bool :=
  let tokens := call.tokens
  let breakdownFallback := decide (0 < tokens.unclassified)
  let fast := isFastServiceTier call.serviceTier
  let supported := (creditRates catalog call.model fast).isSome &&
    modelSupportsCreditLongContext catalog call.model
  let upperBound := if breakdownFallback then tokens.totalTokens else tokens.inputTokens
  if !supported || decide tokens.isZero then (false, false)
  else if call.requestUsageExact && !breakdownFallback then
    (decide (catalog.longContextInputThreshold < tokens.inputTokens), false)
  else if upperBound ≤ catalog.longContextInputThreshold then (false, false)
  else (false, true)

def estimateCallWeight (call : UsageCall) : EstimatedUsageWeight :=
  let tokens := call.tokens
  let fast := isFastServiceTier call.serviceTier
  let publishedRates := creditRates catalog call.model fast
  let baseRates := publishedRates.getD (fallbackCreditRates catalog fast)
  let cachedInput := min tokens.cachedInputTokens tokens.inputTokens
  let input := saturatingAdd 64 (tokens.inputTokens - cachedInput) tokens.unclassified
  let longContext := longContextUse catalog call
  let longContextRates := if longContext.1 then baseRates.longContext else baseRates
  let units := weightedUnits input cachedInput tokens.outputTokens baseRates
  { units := units
    apiLongContextExtraUnits :=
      weightedUnits input cachedInput tokens.outputTokens longContextRates - units
    usedModelFallback := publishedRates.isNone && !decide tokens.isZero
    usedTokenBreakdownFallback := decide (0 < tokens.unclassified)
    usedLongContextPricing := longContext.1
    usedLongContextDetectionFallback := longContext.2 }

/-! ## API prices -/

structure CallCost where
  minimumPicoUsd : Nat
  maximumPicoUsd : Nat
  observedTokens : Nat
  priced : Bool
  partialReason : Option String
  assumptionReason : Option String
deriving DecidableEq

def priced (observedTokens minimumPicoUsd maximumPicoUsd : Nat) (partialReason : Option String) :
    CallCost where
  minimumPicoUsd := minimumPicoUsd
  maximumPicoUsd := maximumPicoUsd
  observedTokens := observedTokens
  priced := true
  partialReason := partialReason
  assumptionReason := none

def unpriced (observedTokens : Nat) (partialReason : String) : CallCost where
  minimumPicoUsd := 0
  maximumPicoUsd := 0
  observedTokens := observedTokens
  priced := false
  partialReason := some partialReason
  assumptionReason := none

def coverageTokens (tokens : TokenUsage) : Nat :=
  max (saturatingAdd 64 tokens.inputTokens tokens.outputTokens) tokens.totalTokens

def priceTokens (input cachedInput cacheWrite output : Nat) (rates : ApiTokenRates) : Option Nat :=
  let cacheWriteCost :=
    if cacheWrite = 0 then some 0
    else rates.cacheWrite.map fun rate => saturatingMul 128 cacheWrite rate
  cacheWriteCost.map fun cacheWriteCost =>
    saturatingAdd 128
      (saturatingAdd 128
        (saturatingAdd 128 (saturatingMul 128 input rates.input)
          (saturatingMul 128 cachedInput rates.cachedInput))
        cacheWriteCost)
      (saturatingMul 128 output rates.output)

def isCodexAutoReview (model : Option String) : Bool :=
  model.any fun model => eqIgnoreAsciiCase (trim model) "codex-auto-review"

inductive ServiceTier
  | standard
  | fast
deriving DecidableEq

/-- A text without surrounding blanks, if anything is left of it. -/
def trimmed (value : Option String) : Option String :=
  (value.map trim).filter (· ≠ "")

def serviceTier (value : Option String) : Option ServiceTier :=
  (trimmed value).bind fun value =>
    if eqIgnoreAsciiCase value "default" || eqIgnoreAsciiCase value "standard" then some .standard
    else if eqIgnoreAsciiCase value "fast" || eqIgnoreAsciiCase value "priority" then some .fast
    else none

def serviceTierForCall (call : UsageCall) : Option ServiceTier :=
  match trimmed call.serviceTier with
  | none =>
    if isCodexAutoReview call.model then some .standard else serviceTier none
  | some recorded => serviceTier (some recorded)

def tierRates (rates : ApiModelRates) : ServiceTier → Option ApiTierRates
  | .standard => some rates.standard
  | .fast => rates.fast

/-- The price of a call whose tokens are broken down, at the rates of its tier. -/
def priceAtRates (tokens : TokenUsage) (requestUsageExact : Bool) (rates : ApiTierRates) :
    CallCost :=
  let observed := coverageTokens tokens
  if tokens.inputTokens < tokens.cachedInputTokens ∨
      tokens.inputTokens - tokens.cachedInputTokens < tokens.cacheWriteInputTokens then
    unpriced observed "api_price_token_breakdown_inconsistent"
  else
    let regular := tokens.inputTokens - tokens.cachedInputTokens - tokens.cacheWriteInputTokens
    let price := priceTokens regular tokens.cachedInputTokens tokens.cacheWriteInputTokens
      tokens.outputTokens
    match price rates.short with
    | none => unpriced observed "api_price_cache_write_rate_unavailable"
    | some short =>
      if tokens.inputTokens ≤ catalog.longContextInputThreshold then
        priced observed short short none
      else
        match rates.long with
        | .flat => priced observed short short none
        | .unavailable => unpriced observed "api_price_long_context_unavailable"
        | .published longRates =>
          match price longRates with
          | none => unpriced observed "api_price_cache_write_rate_unavailable"
          | some long =>
            if requestUsageExact then priced observed long long none
            else priced observed (min short long) (max short long)
              (some "api_price_long_context_ambiguous")

def priceCallInner (call : UsageCall) : CallCost :=
  let tokens := call.tokens
  let observed := coverageTokens tokens
  match apiModelRates catalog call.model with
  | none => unpriced observed "api_price_model_unknown"
  | some modelRates =>
    match serviceTierForCall call with
    | none => unpriced observed "api_price_service_tier_unknown"
    | some tier =>
      match tierRates modelRates tier with
      | none => unpriced observed "api_price_service_tier_unavailable"
      | some rates =>
        if 0 < tokens.unclassified then
          unpriced observed "api_price_token_breakdown_missing"
        else if 0 < tokens.totalTokens ∧
            tokens.totalTokens ≠ saturatingAdd 64 tokens.inputTokens tokens.outputTokens then
          unpriced observed "api_price_token_breakdown_inconsistent"
        else priceAtRates catalog tokens call.requestUsageExact rates

def autoReviewUsesLunaApiRates (model : Option String) : Bool :=
  isCodexAutoReview model &&
    (apiModelRates catalog (some "codex-auto-review")).isSome &&
    apiModelRates catalog (some "codex-auto-review") = apiModelRates catalog (some "gpt-5.6-luna")

def priceCall (call : UsageCall) : CallCost :=
  let cost := priceCallInner catalog call
  if autoReviewUsesLunaApiRates catalog call.model then
    { cost with assumptionReason := some "api_price_codex_auto_review_luna_proxy" }
  else cost

end

/-- `ApiCostAccumulator`: the amount and the reasons of the calls so far. -/
structure ApiCostAccumulator where
  amount : ApiCostAmount := {}
  partialReasons : Finset String := ∅
deriving DecidableEq

def ApiCostAccumulator.add (costs : ApiCostAccumulator) (cost : CallCost) : ApiCostAccumulator where
  amount :=
    let observed := { costs.amount with
      observedSamples := saturatingAdd 64 costs.amount.observedSamples 1
      observedTokens := saturatingAdd 64 costs.amount.observedTokens cost.observedTokens }
    if cost.priced then
      { observed with
        pricedSamples := saturatingAdd 64 costs.amount.pricedSamples 1
        pricedTokens := saturatingAdd 64 costs.amount.pricedTokens cost.observedTokens
        minimumPicoUsd := saturatingAdd 128 costs.amount.minimumPicoUsd cost.minimumPicoUsd
        maximumPicoUsd := saturatingAdd 128 costs.amount.maximumPicoUsd cost.maximumPicoUsd }
    else observed
  partialReasons :=
    costs.partialReasons ∪ cost.partialReason.toFinset ∪ cost.assumptionReason.toFinset

def ApiCostAccumulator.addCall (catalog : ModelCatalog) (costs : ApiCostAccumulator)
    (call : UsageCall) : ApiCostAccumulator :=
  costs.add (priceCall catalog call)

/-! ## Books -/

structure ApiCostAggregation where
  total : ApiCostAccumulator := {}
  threads : List (String × ApiCostAccumulator) := []
  turns : List ((String ×ₗ String) × ApiCostAccumulator) := []
  models : List (String × ApiCostAccumulator) := []
deriving DecidableEq

structure ApiModelCost where
  model : String
  amount : ApiCostAmount
deriving DecidableEq

structure ApiEquivalentCost where
  amount : ApiCostAmount
  partialReasons : Finset String
  modelBreakdown : List ApiModelCost
deriving DecidableEq

def modelName (call : UsageCall) : String := (trimmed call.model).getD "unknown"

namespace ApiCostAggregation

def addCall (catalog : ModelCatalog) (books : ApiCostAggregation) (call : UsageCall) :
    ApiCostAggregation :=
  let cost := priceCall catalog call
  { total := books.total.add cost
    threads := entry {} call.threadId (·.add cost) books.threads
    turns := match call.turnId with
      | some turnId => entry {} (toLex (call.threadId, turnId)) (·.add cost) books.turns
      | none => books.turns
    models := entry {} (modelName call) (·.add cost) books.models }

def addCalls (catalog : ModelCatalog) (calls : List UsageCall) : ApiCostAggregation :=
  calls.foldl (addCall catalog) {}

def accumulators (books : ApiCostAggregation) : List ApiCostAccumulator :=
  books.total :: (books.threads.map Prod.snd ++ books.turns.map Prod.snd ++
    books.models.map Prod.snd)

/-- `total()`: the total, with the amounts of the models. -/
def summary (books : ApiCostAggregation) : ApiEquivalentCost where
  amount := books.total.amount
  partialReasons := books.total.partialReasons
  modelBreakdown := books.models.map fun e => ⟨e.1, e.2.amount⟩

def thread (books : ApiCostAggregation) (threadId : String) : ApiCostAmount :=
  ((valueOf threadId books.threads).map (·.amount)).getD {}

def turn (books : ApiCostAggregation) (threadId turnId : String) : ApiCostAmount :=
  ((valueOf (toLex (threadId, turnId)) books.turns).map (·.amount)).getD {}

def model (books : ApiCostAggregation) (model : String) : ApiCostAmount :=
  ((valueOf model books.models).map (·.amount)).getD {}

end ApiCostAggregation

end Pricing
