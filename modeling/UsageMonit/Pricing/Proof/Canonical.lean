import UsageMonit.Pricing.Rates

/-!
# Calls that cost the same

Prices see the texts of a call without surrounding blanks, and its tokens by their classified detail
(`CostsSame`): such calls have one weight (`CostsSame.estimateCallWeight`) and one API price
(`CostsSame.priceCall`). The reasons of an API price are a fixed list (`priceCall_reasons`).
-/

namespace Pricing

open Usage
open Text (trim eqIgnoreAsciiCase)

structure CostsSame (a b : UsageCall) : Prop where
  model : trimmed a.model = trimmed b.model
  serviceTier : trimmed a.serviceTier = trimmed b.serviceTier
  input : a.tokens.inputTokens = b.tokens.inputTokens
  cachedInput : a.tokens.cachedInputTokens = b.tokens.cachedInputTokens
  cacheWriteInput : a.tokens.cacheWriteInputTokens = b.tokens.cacheWriteInputTokens
  output : a.tokens.outputTokens = b.tokens.outputTokens
  reasoningOutput : a.tokens.reasoningOutputTokens = b.tokens.reasoningOutputTokens
  unclassified : a.tokens.unclassified = b.tokens.unclassified
  total : a.tokens.totalTokens = b.tokens.totalTokens
  requestUsageExact : a.requestUsageExact = b.requestUsageExact

/-! ## Texts -/

theorem trimmed_blank {text : String} (h : trim text = "") : trimmed (some text) = none := by
  simp [trimmed, h, Option.filter]

theorem trimmed_text {text : String} (h : trim text ≠ "") :
    trimmed (some text) = some (trim text) := by
  simp [trimmed, h, Option.filter]

theorem any_trimmed {p : String → Bool} (hp : p "" = false) (value : Option String) :
    (value.any fun text => p (trim text)) = (trimmed value).any p := by
  cases value with
  | none => rfl
  | some text =>
    by_cases htext : trim text = ""
    · rw [trimmed_blank htext]
      simp [htext, hp]
    · rw [trimmed_text htext]
      rfl

theorem any_trim_congr {p : String → Bool} (hp : p "" = false) {value other : Option String}
    (h : trimmed value = trimmed other) :
    (value.any fun text => p (trim text)) = other.any fun text => p (trim text) := by
  rw [any_trimmed hp, any_trimmed hp, h]

theorem normalizeModelName_eq_empty {model : String} :
    normalizeModelName model = "" ↔ trim model = "" := by
  unfold normalizeModelName
  generalize trim model = text
  rw [← String.toList_inj, ← String.toList_inj, String.toList_ofList]
  exact List.map_eq_nil_iff

theorem lookup_trimmed (catalog : ModelCatalog) (model : Option String) :
    lookup catalog model = (trimmed model).bind fun text =>
      catalog.models (String.ofList (text.toList.map Char.toLower)) := by
  cases model with
  | none => simp [lookup, trimmed]
  | some text =>
    by_cases htext : trim text = ""
    · rw [trimmed_blank htext]
      simp [lookup, normalizeModelName_eq_empty.2 htext]
    · have hname : normalizeModelName text ≠ "" := fun h =>
        htext (normalizeModelName_eq_empty.1 h)
      rw [trimmed_text htext]
      simp only [lookup, Option.bind_some]
      rw [if_neg hname, normalizeModelName]

namespace CostsSame

variable {a b : UsageCall} (h : CostsSame a b) (catalog : ModelCatalog)
include h

theorem lookup_eq : lookup catalog a.model = lookup catalog b.model := by
  rw [lookup_trimmed, lookup_trimmed, h.model]

theorem isSparkModel_eq : isSparkModel a.model = isSparkModel b.model := by
  have htest : eqIgnoreAsciiCase "" sparkModel = false := by decide
  exact any_trim_congr (p := fun text => eqIgnoreAsciiCase text sparkModel) htest h.model

theorem isCodexAutoReview_eq : isCodexAutoReview a.model = isCodexAutoReview b.model := by
  have htest : eqIgnoreAsciiCase "" "codex-auto-review" = false := by decide
  exact any_trim_congr (p := fun text => eqIgnoreAsciiCase text "codex-auto-review") htest h.model

theorem isFastServiceTier_eq : isFastServiceTier a.serviceTier = isFastServiceTier b.serviceTier := by
  have htest : (eqIgnoreAsciiCase "" "fast" || eqIgnoreAsciiCase "" "priority") = false := by decide
  exact any_trim_congr (p := fun tier => eqIgnoreAsciiCase tier "fast" ||
    eqIgnoreAsciiCase tier "priority") htest h.serviceTier

theorem serviceTierForCall_eq : serviceTierForCall a = serviceTierForCall b := by
  unfold serviceTierForCall
  rw [h.serviceTier, h.isCodexAutoReview_eq]

theorem isZero_iff : a.tokens.isZero ↔ b.tokens.isZero := by
  have hunclassified := h.unclassified
  unfold TokenUsage.unclassified at hunclassified
  rw [h.input, h.output, h.total] at hunclassified
  unfold TokenUsage.isZero
  rw [h.total, h.input, h.cachedInput, h.cacheWriteInput, h.output, h.reasoningOutput]
  split at hunclassified <;> split at hunclassified <;> omega

theorem creditRates_eq (fast : Bool) :
    creditRates catalog a.model fast = creditRates catalog b.model fast := by
  unfold creditRates
  rw [h.lookup_eq]

theorem longContextUse_eq : longContextUse catalog a = longContextUse catalog b := by
  unfold longContextUse modelSupportsCreditLongContext
  simp only [h.isFastServiceTier_eq, h.creditRates_eq, h.lookup_eq, h.isZero_iff, h.unclassified,
    h.total, h.input, h.requestUsageExact]

/-- **One weight.** -/
theorem estimateCallWeight_eq : estimateCallWeight catalog a = estimateCallWeight catalog b := by
  unfold estimateCallWeight
  simp only [h.isFastServiceTier_eq, h.creditRates_eq, h.longContextUse_eq, h.isZero_iff,
    h.unclassified, h.input, h.cachedInput, h.output]

theorem priceAtRates_eq (rates : ApiTierRates) :
    priceAtRates catalog a.tokens a.requestUsageExact rates =
      priceAtRates catalog b.tokens b.requestUsageExact rates := by
  unfold priceAtRates coverageTokens
  simp only [h.input, h.cachedInput, h.cacheWriteInput, h.output, h.total, h.requestUsageExact]

/-- **One API price.** -/
theorem priceCall_eq : priceCall catalog a = priceCall catalog b := by
  have hinner : priceCallInner catalog a = priceCallInner catalog b := by
    unfold priceCallInner apiModelRates coverageTokens
    simp only [h.lookup_eq, h.serviceTierForCall_eq, h.priceAtRates_eq, h.unclassified, h.total,
      h.input, h.output]
  unfold priceCall autoReviewUsesLunaApiRates
  rw [hinner, h.isCodexAutoReview_eq]

theorem addCall_eq (costs : ApiCostAccumulator) : costs.addCall catalog a = costs.addCall catalog b := by
  unfold ApiCostAccumulator.addCall
  rw [h.priceCall_eq]

end CostsSame

/-! ## The reasons of a price -/

/-- The reasons a call is not priced, or priced with a range or at other rates. -/
def priceReasons : List String :=
  ["api_price_model_unknown", "api_price_codex_auto_review_luna_proxy",
    "api_price_service_tier_unknown", "api_price_service_tier_unavailable",
    "api_price_token_breakdown_missing", "api_price_token_breakdown_inconsistent",
    "api_price_cache_write_rate_unavailable", "api_price_long_context_unavailable",
    "api_price_long_context_ambiguous"]

theorem priceAtRates_reasons (catalog : ModelCatalog) (tokens : TokenUsage) (exact : Bool)
    (rates : ApiTierRates) :
    (∀ reason ∈ (priceAtRates catalog tokens exact rates).partialReason, reason ∈ priceReasons) ∧
      (priceAtRates catalog tokens exact rates).assumptionReason = none := by
  unfold priceAtRates
  dsimp only
  split
  · simp [unpriced, priceReasons]
  split
  · simp [unpriced, priceReasons]
  split
  · simp [priced]
  split
  · simp [priced]
  · simp [unpriced, priceReasons]
  split
  · simp [unpriced, priceReasons]
  split
  · simp [priced]
  · simp [priced, priceReasons]

theorem priceCallInner_reasons (catalog : ModelCatalog) (call : UsageCall) :
    (∀ reason ∈ (priceCallInner catalog call).partialReason, reason ∈ priceReasons) ∧
      (priceCallInner catalog call).assumptionReason = none := by
  unfold priceCallInner
  dsimp only
  split
  · simp [unpriced, priceReasons]
  split
  · simp [unpriced, priceReasons]
  split
  · simp [unpriced, priceReasons]
  split
  · simp [unpriced, priceReasons]
  split
  · simp [unpriced, priceReasons]
  · exact priceAtRates_reasons catalog call.tokens call.requestUsageExact _

/-- **The reasons of a call's price** are two at most, of a fixed list. -/
theorem priceCall_reasons (catalog : ModelCatalog) (call : UsageCall) :
    ∀ reason ∈ (ApiCostAccumulator.addCall catalog {} call).partialReasons,
      reason ∈ priceReasons := by
  obtain ⟨hreasons, hassumption⟩ := priceCallInner_reasons catalog call
  intro reason hreason
  simp only [ApiCostAccumulator.addCall, ApiCostAccumulator.add, Finset.empty_union,
    Finset.mem_union, Option.mem_toFinset] at hreason
  unfold priceCall at hreason
  split at hreason
  · rcases hreason with hreason | hreason
    · exact hreasons reason hreason
    · simp only [Option.mem_def, Option.some_inj] at hreason
      simp [← hreason, priceReasons]
  · rw [hassumption] at hreason
    exact hreasons reason (by simpa using hreason)

theorem priceCall_reasons_card (catalog : ModelCatalog) (call : UsageCall) :
    (ApiCostAccumulator.addCall catalog {} call).partialReasons.card ≤ 2 := by
  simp only [ApiCostAccumulator.addCall, ApiCostAccumulator.add, Finset.empty_union]
  refine (Finset.card_union_le _ _).trans ?_
  have hone : ∀ reason : Option String, reason.toFinset.card ≤ 1 := by
    intro reason
    cases reason <;> simp
  have hfirst := hone (priceCall catalog call).partialReason
  have hsecond := hone (priceCall catalog call).assumptionReason
  omega

end Pricing
