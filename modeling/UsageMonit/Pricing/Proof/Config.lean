import UsageMonit.Pricing.Proof.Decimal

/-!
# Configured rates never saturate

A configured rate is at most `maxConfiguredRateUnits`, so that six components of the largest counter
and the largest rate fit 128 bits (`six_components`). Hence no operation saturates in the price of a
call at rates that were configured (`price_exact`), nor in its credit weight (`weight_exact`).
-/

namespace Pricing

open Fallible Decimal Usage

/-! ## Configured rates -/

variable {rates : CreditTokenRates} {catalog : ModelCatalog}

theorem validateRateBounds_ok {field : String} {rates : List (String × Nat)}
    (h : validateRateBounds field rates = .ok ()) :
    ∀ rate ∈ rates, rate.2 ≤ maxConfiguredRateUnits := by
  unfold validateRateBounds at h
  split at h
  · cases h
  · rename_i hnone
    intro rate hrate
    simpa using List.find?_eq_none.1 hnone rate hrate

/-- Rates that a configuration may have. -/
structure CreditTokenRates.Bounded (rates : CreditTokenRates) : Prop where
  input : rates.input ≤ maxConfiguredRateUnits
  cachedInput : rates.cachedInput ≤ maxConfiguredRateUnits
  output : rates.output ≤ maxConfiguredRateUnits

structure ApiTokenRates.Bounded (rates : ApiTokenRates) : Prop where
  input : rates.input ≤ maxConfiguredRateUnits
  cachedInput : rates.cachedInput ≤ maxConfiguredRateUnits
  cacheWrite : rates.cacheWrite.getD 0 ≤ maxConfiguredRateUnits
  output : rates.output ≤ maxConfiguredRateUnits

def ApiTierRates.all (tier : ApiTierRates) : List ApiTokenRates :=
  match tier.long with
  | .published rates => [tier.short, rates]
  | _ => [tier.short]

def ApiModelRates.all (rates : ApiModelRates) : List ApiTokenRates :=
  rates.standard.all ++ (rates.fast.map (·.all)).getD []

def CreditModelRates.all (rates : CreditModelRates) : List CreditTokenRates :=
  rates.standard :: rates.fast.toList

theorem creditTokenRates_bounded {config : CreditTokenRatesConfig} {field : String}
    (h : CreditTokenRates.fromConfig config field = .ok rates) : rates.Bounded := by
  obtain ⟨input, -, h⟩ := bind_ok h
  obtain ⟨cachedInput, -, h⟩ := bind_ok h
  obtain ⟨output, -, h⟩ := bind_ok h
  obtain ⟨_, -, h⟩ := bind_ok h
  obtain ⟨_, hbounds, h⟩ := bind_ok h
  cases h
  have hall := validateRateBounds_ok hbounds
  simp only [List.forall_mem_cons] at hall
  exact ⟨hall.1, hall.2.1, hall.2.2.1⟩

theorem apiTokenRates_bounded {config : ApiTokenRatesConfig} {field : String}
    {rates : ApiTokenRates} (h : ApiTokenRates.fromConfig config field = .ok rates) :
    rates.Bounded := by
  obtain ⟨input, -, h⟩ := bind_ok h
  obtain ⟨cachedInput, -, h⟩ := bind_ok h
  obtain ⟨cacheWrite, -, h⟩ := bind_ok h
  obtain ⟨output, -, h⟩ := bind_ok h
  obtain ⟨_, -, h⟩ := bind_ok h
  obtain ⟨_, hbounds, h⟩ := bind_ok h
  cases h
  have hall := validateRateBounds_ok hbounds
  simp only [List.forall_mem_cons] at hall
  exact ⟨hall.1, hall.2.1, hall.2.2.1, hall.2.2.2.1⟩

theorem mapOption_ok {α β : Type} {o : Option α} {f : α → Except String β} {r : Option β}
    (h : mapOption o f = .ok r) : ∀ b ∈ r, ∃ a, f a = .ok b := by
  unfold mapOption at h
  split at h
  · obtain ⟨b, hb, rfl⟩ := map_ok h
    intro c hc
    cases hc
    exact ⟨_, hb⟩
  · cases h
    simp

/-- **The credit rates of a configured model**: all within the bound, and even output rates if the
model has a long-context price. -/
theorem creditModelRates_bounded {config : CreditModelConfig} {rates : CreditModelRates}
    (h : CreditModelRates.fromConfig config = .ok rates) :
    (∀ r ∈ rates.all, r.Bounded) ∧
      (rates.longContextPricing = true → ∀ r ∈ rates.all, r.output % 2 = 0) := by
  obtain ⟨standard, hstandard, h⟩ := bind_ok h
  obtain ⟨fast, hfast, h⟩ := bind_ok h
  obtain ⟨_, heven, h⟩ := bind_ok h
  cases h
  have heven := ensure_ok.1 heven
  constructor
  · simp only [CreditModelRates.all, List.forall_mem_cons, Option.mem_toList]
    refine ⟨creditTokenRates_bounded hstandard, fun r hr => ?_⟩
    obtain ⟨_, hr⟩ := mapOption_ok hfast r hr
    exact creditTokenRates_bounded hr
  · intro hlong
    simp only [CreditModelRates.all, List.forall_mem_cons, Option.mem_toList]
    refine ⟨?_, fun r hr => ?_⟩
    · by_contra hodd
      exact heven ⟨hlong, .inl hodd⟩
    · by_contra hodd
      exact heven ⟨hlong, .inr ⟨r, hr, hodd⟩⟩

theorem apiTierRates_bounded {config : ApiTierConfig} {field : String} {tier : ApiTierRates}
    (h : ApiTierRates.fromConfig config field = .ok tier) : ∀ r ∈ tier.all, r.Bounded := by
  obtain ⟨short, hshort, h⟩ := bind_ok h
  have hbounded := apiTokenRates_bounded hshort
  cases hlong : config.long with
  | published rates =>
    rw [hlong] at h
    obtain ⟨long, hpublished, h⟩ := bind_ok h
    obtain ⟨rates', hrates, rfl⟩ := map_ok hpublished
    cases h
    simp only [ApiTierRates.all, List.forall_mem_cons]
    exact ⟨hbounded, apiTokenRates_bounded hrates, by simp⟩
  | flat =>
    rw [hlong] at h
    cases h
    simpa [ApiTierRates.all] using hbounded
  | unavailable =>
    rw [hlong] at h
    cases h
    simpa [ApiTierRates.all] using hbounded

/-- **The API rates of a configured model** are within the bound. -/
theorem apiModelRates_bounded {config : ApiModelConfig} {rates : ApiModelRates}
    (h : ApiModelRates.fromConfig config = .ok rates) : ∀ r ∈ rates.all, r.Bounded := by
  obtain ⟨standard, hstandard, h⟩ := bind_ok h
  obtain ⟨fast, hfast, h⟩ := bind_ok h
  cases h
  intro r hr
  rcases List.mem_append.1 hr with hr | hr
  · exact apiTierRates_bounded hstandard r hr
  · cases hfast' : fast with
    | none => simp [hfast'] at hr
    | some tier =>
      obtain ⟨_, htier⟩ := mapOption_ok hfast tier hfast'
      simp only [hfast', Option.map_some, Option.getD_some] at hr
      exact apiTierRates_bounded htier r hr

/-! ## Prices and weights -/

theorem six_components : 6 * ((2 ^ 64 - 1) * maxConfiguredRateUnits) < 2 ^ 128 := by decide

theorem component_le {count rate bound : Nat} (hcount : count < 2 ^ 64) (hrate : rate ≤ bound) :
    count * rate ≤ (2 ^ 64 - 1) * bound :=
  Nat.mul_le_mul (by omega) hrate

theorem saturatingMul_le (a b : Nat) : saturatingMul 128 a b ≤ a * b := min_le_left _ _

theorem saturatingAdd_le (a b : Nat) : saturatingAdd 128 a b ≤ a + b := min_le_left _ _

/-- No operation of `weightedUnits` saturates. -/
structure UnitsExact (input cachedInput output : Nat) (rates : CreditTokenRates) : Prop where
  inputUnits : input * rates.input < 2 ^ 128
  cachedUnits : cachedInput * rates.cachedInput < 2 ^ 128
  outputUnits : output * rates.output < 2 ^ 128
  inputs : saturatingMul 128 input rates.input +
    saturatingMul 128 cachedInput rates.cachedInput < 2 ^ 128
  total : saturatingAdd 128 (saturatingMul 128 input rates.input)
      (saturatingMul 128 cachedInput rates.cachedInput) +
    saturatingMul 128 output rates.output < 2 ^ 128

/-- No operation of `CreditTokenRates.longContext` saturates. -/
structure LongContextExact (rates : CreditTokenRates) : Prop where
  input : rates.input * 2 < 2 ^ 128
  cachedInput : rates.cachedInput * 2 < 2 ^ 128
  output : rates.output * 3 < 2 ^ 128

/-- The cost of the cache writes in `priceTokens`. -/
def cacheWriteCost (cacheWrite : Nat) (rates : ApiTokenRates) : Option Nat :=
  if cacheWrite = 0 then some 0
  else rates.cacheWrite.map fun rate => saturatingMul 128 cacheWrite rate

/-- No operation of `priceTokens` saturates. -/
structure PriceExact (input cachedInput cacheWrite output : Nat) (rates : ApiTokenRates) :
    Prop where
  inputUnits : input * rates.input < 2 ^ 128
  cachedUnits : cachedInput * rates.cachedInput < 2 ^ 128
  writeUnits : ∀ rate ∈ rates.cacheWrite, cacheWrite * rate < 2 ^ 128
  outputUnits : output * rates.output < 2 ^ 128
  inputs : saturatingMul 128 input rates.input +
    saturatingMul 128 cachedInput rates.cachedInput < 2 ^ 128
  writes : ∀ cost ∈ cacheWriteCost cacheWrite rates,
    saturatingAdd 128 (saturatingMul 128 input rates.input)
      (saturatingMul 128 cachedInput rates.cachedInput) + cost < 2 ^ 128
  total : ∀ cost ∈ cacheWriteCost cacheWrite rates,
    saturatingAdd 128 (saturatingAdd 128 (saturatingMul 128 input rates.input)
      (saturatingMul 128 cachedInput rates.cachedInput)) cost +
    saturatingMul 128 output rates.output < 2 ^ 128

/-- **Units at bounded rates**, and at twice as much. -/
theorem units_exact {input cachedInput output : Nat} (hinput : input < 2 ^ 64)
    (hcached : cachedInput < 2 ^ 64) (houtput : output < 2 ^ 64)
    (hin : rates.input ≤ 2 * maxConfiguredRateUnits)
    (hca : rates.cachedInput ≤ 2 * maxConfiguredRateUnits)
    (hout : rates.output ≤ 2 * maxConfiguredRateUnits) :
    UnitsExact input cachedInput output rates := by
  have hsix := six_components
  have h1 := component_le hinput hin
  have h2 := component_le hcached hca
  have h3 := component_le houtput hout
  have m1 := saturatingMul_le input rates.input
  have m2 := saturatingMul_le cachedInput rates.cachedInput
  have m3 := saturatingMul_le output rates.output
  have a1 := saturatingAdd_le (saturatingMul 128 input rates.input)
    (saturatingMul 128 cachedInput rates.cachedInput)
  rw [Nat.mul_left_comm] at h1 h2 h3
  constructor <;> omega

/-- **Prices at bounded rates.** -/
theorem price_exact {input cachedInput cacheWrite output : Nat} {rates : ApiTokenRates}
    (hinput : input < 2 ^ 64) (hcached : cachedInput < 2 ^ 64) (hwrite : cacheWrite < 2 ^ 64)
    (houtput : output < 2 ^ 64) (h : rates.Bounded) :
    PriceExact input cachedInput cacheWrite output rates := by
  have hsix := six_components
  have h1 := component_le hinput h.input
  have h2 := component_le hcached h.cachedInput
  have h3 := component_le hwrite h.cacheWrite
  have h4 := component_le houtput h.output
  have m1 := saturatingMul_le input rates.input
  have m2 := saturatingMul_le cachedInput rates.cachedInput
  have m4 := saturatingMul_le output rates.output
  have a1 := saturatingAdd_le (saturatingMul 128 input rates.input)
    (saturatingMul 128 cachedInput rates.cachedInput)
  have hcost : ∀ cost ∈ cacheWriteCost cacheWrite rates,
      cost ≤ (2 ^ 64 - 1) * maxConfiguredRateUnits := by
    intro cost hcost
    unfold cacheWriteCost at hcost
    split at hcost
    · cases hcost
      omega
    · obtain ⟨rate, hrate, rfl⟩ := Option.map_eq_some_iff.1 hcost
      simp only [hrate, Option.getD_some] at h3
      exact (saturatingMul_le _ _).trans h3
  refine ⟨by omega, by omega, fun rate hrate => ?_, by omega, by omega, fun cost hc => ?_,
    fun cost hc => ?_⟩
  · rw [Option.mem_def.1 hrate, Option.getD_some] at h3
    omega
  · have := hcost cost hc
    omega
  · have := hcost cost hc
    have a2 := saturatingAdd_le (saturatingAdd 128 (saturatingMul 128 input rates.input)
      (saturatingMul 128 cachedInput rates.cachedInput)) cost
    omega

theorem longContext_exact (h : rates.Bounded) : LongContextExact rates := by
  have hmax : maxConfiguredRateUnits * 3 < 2 ^ 128 := by decide
  have h1 := h.input
  have h2 := h.cachedInput
  have h3 := h.output
  constructor <;> omega

theorem longContext_eq (h : LongContextExact rates) :
    rates.longContext = ⟨rates.input * 2, rates.cachedInput * 2, rates.output * 3 / 2⟩ := by
  have h1 := h.input
  have h2 := h.cachedInput
  have h3 := h.output
  simp only [CreditTokenRates.longContext, saturatingMul, CreditTokenRates.mk.injEq]
  omega

theorem longContext_le (h : rates.Bounded) :
    rates.longContext.input ≤ 2 * maxConfiguredRateUnits ∧
      rates.longContext.cachedInput ≤ 2 * maxConfiguredRateUnits ∧
      rates.longContext.output ≤ 2 * maxConfiguredRateUnits := by
  have h1 := h.input
  have h2 := h.cachedInput
  have h3 := h.output
  rw [longContext_eq (longContext_exact h)]
  dsimp only
  omega

theorem weightedUnits_eq {input cachedInput output : Nat}
    (h : UnitsExact input cachedInput output rates) :
    weightedUnits input cachedInput output rates =
      input * rates.input + cachedInput * rates.cachedInput + output * rates.output := by
  have m1 : saturatingMul 128 input rates.input = input * rates.input :=
    min_eq_left (by have := h.inputUnits; omega)
  have m2 : saturatingMul 128 cachedInput rates.cachedInput = cachedInput * rates.cachedInput :=
    min_eq_left (by have := h.cachedUnits; omega)
  have m3 : saturatingMul 128 output rates.output = output * rates.output :=
    min_eq_left (by have := h.outputUnits; omega)
  have hinputs := h.inputs
  have htotal := h.total
  have a1 : saturatingAdd 128 (saturatingMul 128 input rates.input)
      (saturatingMul 128 cachedInput rates.cachedInput) =
        input * rates.input + cachedInput * rates.cachedInput := by
    rw [m1, m2] at hinputs ⊢
    exact min_eq_left (by omega)
  rw [a1, m3] at htotal
  unfold weightedUnits
  rw [a1, m3]
  exact min_eq_left (by omega)

/-! ## Configured catalogs -/

/-- Rates that were read from a configuration. -/
structure ModelEntry.Configured (entry : ModelEntry) : Prop where
  credit : ∀ rates ∈ entry.credit, ∃ config, CreditModelRates.fromConfig config = .ok rates
  api : ∀ rates ∈ entry.api, ∃ config, ApiModelRates.fromConfig config = .ok rates

def ModelMap.Configured (models : ModelMap) : Prop :=
  ∀ name, ∀ entry ∈ models name, entry.Configured

def ModelCatalog.Configured (catalog : ModelCatalog) : Prop := ModelMap.Configured catalog.models

section
variable {debug : String → String}

theorem insertName_configured {models models' : ModelMap} {name : String} {entry : ModelEntry}
    (h : insertName debug models name entry = .ok models') (hentry : entry.Configured)
    (hmodels : models.Configured) : models'.Configured := by
  unfold insertName at h
  dsimp only at h
  split at h
  · cases h
  · obtain rfl := Except.ok.inj h
    intro other found hfound
    by_cases hname : other = normalizeModelName name
    · subst hname
      rw [Option.mem_def, Function.update_self] at hfound
      cases hfound
      exact hentry
    · rw [Option.mem_def, Function.update_of_ne hname] at hfound
      exact hmodels other found hfound

theorem insertAliases_configured {entry : ModelEntry} (hentry : entry.Configured) :
    ∀ {names : List String} {models models' : ModelMap},
      insertAliases debug entry names models = .ok models' → models.Configured → models'.Configured
  | [], models, models', h, hmodels => by
    cases h
    exact hmodels
  | name :: rest, models, models', h, hmodels => by
    obtain ⟨_, -, h⟩ := bind_ok h
    obtain ⟨inserted, hinserted, h⟩ := bind_ok h
    exact insertAliases_configured hentry h (insertName_configured hinserted hentry hmodels)

theorem insertConfigured_configured {model : ModelConfig} {models models' : ModelMap}
    (h : insertConfigured debug models model = .ok models') (hmodels : models.Configured) :
    models'.Configured := by
  iterate 3 obtain ⟨_, -, h⟩ := bind_ok h
  obtain ⟨credit, hcredit, h⟩ := bind_ok h
  obtain ⟨api, hapi, h⟩ := bind_ok h
  obtain ⟨inserted, hinserted, h⟩ := bind_ok h
  have hentry : ModelEntry.Configured ⟨credit, api⟩ :=
    ⟨fun rates hrates => mapOption_ok hcredit rates hrates,
      fun rates hrates => mapOption_ok hapi rates hrates⟩
  exact insertAliases_configured hentry h (insertName_configured hinserted hentry hmodels)

/-- **An accepted catalog** has configured rates only. -/
theorem fromConfig_configured {config : CatalogConfig}
    (h : ModelCatalog.fromConfig debug config = .ok catalog) : catalog.Configured := by
  iterate 8 obtain ⟨_, -, h⟩ := bind_ok h
  obtain ⟨models, hmodels, h⟩ := bind_ok h
  have hempty : ModelMap.Configured fun _ => none := by
    intro name entry hnone
    cases hnone
  have hconfigured : models.Configured :=
    foldlM_ok (R := fun before after => ModelMap.Configured before → ModelMap.Configured after)
      (fun _ h => h) (fun _ _ _ h h' hbefore => h' (h hbefore))
      (fun _ _ _ _ hstep => insertConfigured_configured hstep) hmodels hempty
  clear hmodels
  dsimp only at h
  split at h
  · cases h
  · split at h
    · cases h
    · cases h
      exact hconfigured

end

theorem entry_configured (h : catalog.Configured) {model : Option String} {entry : ModelEntry}
    (hentry : lookup catalog model = some entry) : entry.Configured := by
  obtain ⟨name, -, hentry⟩ := Option.bind_eq_some_iff.1 hentry
  dsimp only at hentry
  split at hentry
  · cases hentry
  · exact h _ entry hentry

theorem credit_configured (h : catalog.Configured) {model : Option String}
    {rates : CreditModelRates} (hrates : (lookup catalog model).bind (·.credit) = some rates) :
    ∃ config, CreditModelRates.fromConfig config = .ok rates := by
  obtain ⟨entry, hentry, hrates⟩ := Option.bind_eq_some_iff.1 hrates
  exact (entry_configured h hentry).credit rates hrates

theorem creditRates_mem {model : Option String} {fast : Bool}
    (h : creditRates catalog model fast = some rates) :
    ∃ modelRates, (lookup catalog model).bind (·.credit) = some modelRates ∧
      rates ∈ modelRates.all := by
  obtain ⟨modelRates, hmodel, h⟩ := Option.bind_eq_some_iff.1 h
  refine ⟨modelRates, hmodel, ?_⟩
  cases fast with
  | true => simp [CreditModelRates.all, show modelRates.fast = some rates from h]
  | false =>
    cases h
    exact List.mem_cons_self

theorem fallbackCreditRates_mem (catalog : ModelCatalog) (fast : Bool) :
    fallbackCreditRates catalog fast ∈ catalog.creditFallback.all := by
  unfold fallbackCreditRates CreditModelRates.all
  split
  · simp [catalog.fallback_available.2]
  · exact List.mem_cons_self

theorem fallback_configured (h : catalog.Configured) :
    ∃ config, CreditModelRates.fromConfig config = .ok catalog.creditFallback := by
  obtain ⟨entry, hentry, hrates⟩ := Option.bind_eq_some_iff.1 catalog.fallback_available.1
  exact (h _ entry hentry).credit _ hrates

/-! ## The weight of a call -/

/-- The regular and the cached input that a call is weighed by, and its two rates. -/
def callCachedInput (call : UsageCall) : Nat :=
  min call.tokens.cachedInputTokens call.tokens.inputTokens

def callInput (call : UsageCall) : Nat :=
  saturatingAdd 64 (call.tokens.inputTokens - callCachedInput call) call.tokens.unclassified

def baseRates (catalog : ModelCatalog) (call : UsageCall) : CreditTokenRates :=
  (creditRates catalog call.model (isFastServiceTier call.serviceTier)).getD
    (fallbackCreditRates catalog (isFastServiceTier call.serviceTier))

def longContextRates (catalog : ModelCatalog) (call : UsageCall) : CreditTokenRates :=
  if (longContextUse catalog call).1 then (baseRates catalog call).longContext
  else baseRates catalog call

def callUnits (call : UsageCall) (rates : CreditTokenRates) : Nat :=
  weightedUnits (callInput call) (callCachedInput call) call.tokens.outputTokens rates

theorem estimateCallWeight_units (catalog : ModelCatalog) (call : UsageCall) :
    (estimateCallWeight catalog call).units = callUnits call (baseRates catalog call) ∧
      (estimateCallWeight catalog call).apiLongContextExtraUnits =
        callUnits call (longContextRates catalog call) - callUnits call (baseRates catalog call) :=
  ⟨rfl, rfl⟩

/-- No operation of `estimateCallWeight` saturates, and its difference is exact. -/
structure WeightExact (catalog : ModelCatalog) (call : UsageCall) : Prop where
  base : UnitsExact (callInput call) (callCachedInput call) call.tokens.outputTokens
    (baseRates catalog call)
  long : UnitsExact (callInput call) (callCachedInput call) call.tokens.outputTokens
    (longContextRates catalog call)
  multiplied : (longContextUse catalog call).1 = true →
    LongContextExact (baseRates catalog call) ∧
      2 * (baseRates catalog call).longContext.output = 3 * (baseRates catalog call).output
  ordered : callUnits call (baseRates catalog call) ≤ callUnits call (longContextRates catalog call)
  difference : (estimateCallWeight catalog call).units +
      (estimateCallWeight catalog call).apiLongContextExtraUnits =
    callUnits call (longContextRates catalog call)

theorem longContextUse_supported {call : UsageCall} (h : (longContextUse catalog call).1 = true) :
    (creditRates catalog call.model (isFastServiceTier call.serviceTier)).isSome = true ∧
      modelSupportsCreditLongContext catalog call.model = true := by
  unfold longContextUse at h
  dsimp only at h
  split at h
  · cases h
  · rename_i hsupported
    simp only [Bool.or_eq_true, Bool.not_eq_true', Bool.and_eq_false_iff, not_or] at hsupported
    simpa [Option.isSome_iff_ne_none] using hsupported.1

/-- **A rate and a half** is exact for the models whose long contexts cost more. -/
theorem longContext_output (h : rates.Bounded) (heven : rates.output % 2 = 0) :
    2 * rates.longContext.output = 3 * rates.output := by
  rw [longContext_eq (longContext_exact h)]
  dsimp only
  omega

section

variable (h : catalog.Configured)

include h

theorem baseRates_bounded (call : UsageCall) : (baseRates catalog call).Bounded := by
  unfold baseRates
  cases hrates : creditRates catalog call.model (isFastServiceTier call.serviceTier) with
  | none =>
    obtain ⟨_, hfallback⟩ := fallback_configured h
    exact (creditModelRates_bounded hfallback).1 _ (fallbackCreditRates_mem catalog _)
  | some rates =>
    obtain ⟨modelRates, hmodel, hmem⟩ := creditRates_mem hrates
    obtain ⟨_, hconfigured⟩ := credit_configured h hmodel
    exact (creditModelRates_bounded hconfigured).1 _ hmem

theorem baseRates_even {call : UsageCall}
    (hlong : (longContextUse catalog call).1 = true) : (baseRates catalog call).output % 2 = 0 := by
  obtain ⟨hpublished, hsupported⟩ := longContextUse_supported hlong
  obtain ⟨rates, hrates⟩ := Option.isSome_iff_exists.1 hpublished
  obtain ⟨modelRates, hmodel, hmem⟩ := creditRates_mem hrates
  obtain ⟨_, hconfigured⟩ := credit_configured h hmodel
  have hpricing : modelRates.longContextPricing = true := by
    simpa [modelSupportsCreditLongContext, hmodel] using hsupported
  unfold baseRates
  rw [hrates]
  exact (creditModelRates_bounded hconfigured).2 hpricing rates hmem

theorem longContextRates_cases (call : UsageCall) :
    (baseRates catalog call).input ≤ (longContextRates catalog call).input ∧
      (baseRates catalog call).cachedInput ≤ (longContextRates catalog call).cachedInput ∧
      (baseRates catalog call).output ≤ (longContextRates catalog call).output ∧
      (longContextRates catalog call).input ≤ 2 * maxConfiguredRateUnits ∧
      (longContextRates catalog call).cachedInput ≤ 2 * maxConfiguredRateUnits ∧
      (longContextRates catalog call).output ≤ 2 * maxConfiguredRateUnits := by
  have hbounded := baseRates_bounded h call
  have h1 := hbounded.input
  have h2 := hbounded.cachedInput
  have h3 := hbounded.output
  unfold longContextRates
  split
  · have hle := longContext_le hbounded
    rw [longContext_eq (longContext_exact hbounded)] at hle ⊢
    dsimp only at hle ⊢
    omega
  · omega

/-- **The weight of a call is exact** in a configured catalog. -/
theorem weight_exact {call : UsageCall}
    (hinput : call.tokens.inputTokens < 2 ^ 64) (houtput : call.tokens.outputTokens < 2 ^ 64) :
    WeightExact catalog call := by
  have hbounded := baseRates_bounded h call
  obtain ⟨le1, le2, le3, hl1, hl2, hl3⟩ := longContextRates_cases h call
  have hregular : callInput call < 2 ^ 64 := by
    unfold callInput saturatingAdd
    omega
  have hcached : callCachedInput call < 2 ^ 64 := by
    unfold callCachedInput
    omega
  have hbase : UnitsExact (callInput call) (callCachedInput call) call.tokens.outputTokens
      (baseRates catalog call) :=
    units_exact hregular hcached houtput (by omega) (by omega) (by omega)
  have hlong : UnitsExact (callInput call) (callCachedInput call) call.tokens.outputTokens
      (longContextRates catalog call) := units_exact hregular hcached houtput hl1 hl2 hl3
  have hordered : callUnits call (baseRates catalog call) ≤
      callUnits call (longContextRates catalog call) := by
    unfold callUnits
    rw [weightedUnits_eq hbase, weightedUnits_eq hlong]
    have := Nat.mul_le_mul_left (callInput call) le1
    have := Nat.mul_le_mul_left (callCachedInput call) le2
    have := Nat.mul_le_mul_left call.tokens.outputTokens le3
    omega
  refine ⟨hbase, hlong, fun huse => ?_, hordered, ?_⟩
  · exact ⟨longContext_exact hbounded, longContext_output hbounded (baseRates_even h huse)⟩
  · rw [(estimateCallWeight_units catalog call).1, (estimateCallWeight_units catalog call).2]
    omega

theorem api_configured {model : Option String} {rates : ApiModelRates}
    (hrates : apiModelRates catalog model = some rates) : ∀ r ∈ rates.all, r.Bounded := by
  obtain ⟨entry, hentry, hrates⟩ := Option.bind_eq_some_iff.1 hrates
  obtain ⟨_, hconfigured⟩ := (entry_configured h hentry).api rates hrates
  exact apiModelRates_bounded hconfigured

end

/-! ## The whole configuration -/

/-- **Configured rates are read exactly and never saturate a price.** A rate is the decimal that is
written, and a plain decimal is rejected only if it is no whole number of units or the arithmetic
has no room for it. At the rates of an accepted configuration no operation of a price, of a
long-context rate or of a weight saturates, for counters of 64 bits. -/
theorem configured_rates_exact :
    (∀ (value : DecimalValue) (scale : Nat) (field : String), 0 < scale →
      (∀ r, parseScaledDecimal value scale field = .ok r →
        ∃ n : Numeral, Writes value n ∧ (r : ℚ) = n.value * scale) ∧
      ∀ n : Numeral, ∀ e, Writes value n → parseScaledDecimal value scale field = .error e →
        (∀ r : Nat, (r : ℚ) ≠ n.value * scale) ∨ 38 < n.fraction.length ∨
          2 ^ 128 ≤ n.digits * scale) ∧
    (∀ debug config catalog, ModelCatalog.fromConfig debug config = .ok catalog →
      catalog.Configured) ∧
    ∀ catalog : ModelCatalog, catalog.Configured →
      (∀ call : UsageCall, call.tokens.inputTokens < 2 ^ 64 → call.tokens.outputTokens < 2 ^ 64 →
        WeightExact catalog call) ∧
      (∀ model rates, (lookup catalog model).bind (·.credit) = some rates →
        ∀ r ∈ rates.all, LongContextExact r ∧
          (rates.longContextPricing = true → 2 * r.longContext.output = 3 * r.output)) ∧
      ∀ model rates, apiModelRates catalog model = some rates → ∀ r ∈ rates.all,
        ∀ input cachedInput cacheWrite output, input < 2 ^ 64 → cachedInput < 2 ^ 64 →
          cacheWrite < 2 ^ 64 → output < 2 ^ 64 →
            PriceExact input cachedInput cacheWrite output r := by
  refine ⟨fun value scale field hscale => ⟨fun r hr => ?_, fun n e hn herror => ?_⟩,
    fun debug config catalog h => fromConfig_configured h, fun catalog hcatalog => ⟨?_, ?_, ?_⟩⟩
  · obtain ⟨n, hn, -, -, hvalue⟩ := (parseScaledDecimal_iff hscale).1 hr
    exact ⟨n, hn, hvalue⟩
  · by_contra hnone
    simp only [not_or, not_forall, not_not, not_lt, not_le] at hnone
    obtain ⟨⟨r, hvalue⟩, hlength, hroom⟩ := hnone
    rw [(parseScaledDecimal_iff hscale).2 ⟨n, hn, hlength, hroom, hvalue⟩] at herror
    cases herror
  · intro call hinput houtput
    exact weight_exact hcatalog hinput houtput
  · intro model rates hrates r hr
    obtain ⟨_, hconfigured⟩ := credit_configured hcatalog hrates
    obtain ⟨hbounded, heven⟩ := creditModelRates_bounded hconfigured
    exact ⟨longContext_exact (hbounded r hr),
      fun hlong => longContext_output (hbounded r hr) (heven hlong r hr)⟩
  · intro model rates hrates r hr input cachedInput cacheWrite output hinput hcached hwrite houtput
    exact price_exact hinput hcached hwrite houtput (api_configured hcatalog hrates r hr)

def sampleConfig : CatalogConfig where
  version := 1
  estimatorRevision := 9
  apiPricingCatalogRevision := 6
  ratesAsOf := "2026-01-01"
  sourceUrl := "https://example.invalid/rates"
  longContextInputThreshold := 272000
  creditFallbackModel := "gpt"
  models := [{
    id := "gpt"
    credit := some {
      standard := ⟨.string "1.5", .string "0.125", .number "12"⟩
      fast := some ⟨.string "3", .string "0.25", .string "24"⟩
      longContextPricing := true }
    api := some {
      standard := {
        short := ⟨.string "1.25", .string "0.125", some (.string "1.5"), .string "10"⟩
        long := .published ⟨.string "2.5", .string "0.25", some (.string "3"), .string "15"⟩ } } }]

/-- A call of the sample model with the largest counters. -/
def largestCall : UsageCall where
  timestamp := default
  threadId := "thread"
  turnId := none
  usageEventId := none
  usageEventIdentityExact := false
  model := some "gpt"
  serviceTier := none
  tokens := ⟨2 ^ 64 - 1, 0, 0, 2 ^ 64 - 1, 0, 0, 2 ^ 64 - 1⟩
  requestUsageExact := true

theorem configured_rates_sample :
    (∃ n : Numeral, Writes (.string "1.5") n ∧ ((12 : Nat) : ℚ) = n.value * 8) ∧
      ∃ catalog, ModelCatalog.fromConfig String.quote sampleConfig = .ok catalog ∧
        WeightExact catalog largestCall := by
  obtain ⟨hdecimal, haccepted, hexact⟩ := configured_rates_exact
  refine ⟨(hdecimal (.string "1.5") 8 "rate" (by decide)).1 12 (by decide +kernel), ?_⟩
  have hok : (ModelCatalog.fromConfig String.quote sampleConfig).isOk = true := by decide +kernel
  cases hcatalog : ModelCatalog.fromConfig String.quote sampleConfig with
  | error e =>
    rw [hcatalog] at hok
    cases hok
  | ok catalog =>
    exact ⟨catalog, rfl, (hexact catalog (haccepted _ _ _ hcatalog)).1 largestCall (by decide)
      (by decide)⟩

end Pricing
