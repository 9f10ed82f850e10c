import UsageMonit.Lib.Numerals
import UsageMonit.Pricing.Rates

/-!
# The configured catalog (`model_catalog.rs`)

How a model catalog is read from its configuration: the decimal rates in units of 1/8 credit and of
1/1000000 dollar (`parseScaledDecimal`), the rates of a model, and the catalog, whose names are
distinct and whose credit fallback has rates for both tiers. A `serde_json::Number` is the text it
prints.
-/

namespace Pricing

open Fallible Decimal Text

def modelCatalogVersion : Nat := 1
def bundledEstimatorRevision : Nat := 8
def bundledApiPricingCatalogRevision : Nat := 5
def maxModels : Nat := 256
def maxAliasesPerModel : Nat := 64
def maxModelNameBytes : Nat := 128
def maxMetadataBytes : Nat := 2048
def creditUnitsPerCredit : Nat := 8
def microUsdPerUsd : Nat := 1000000
def maxConfiguredRateUnits : Nat := (2 ^ 128 - 1) / (2 ^ 64 - 1) / 6

/-! ## Configuration -/

inductive DecimalValue
  | string (value : String)
  | number (display : String)
deriving DecidableEq

def DecimalValue.toPlainString : DecimalValue → String
  | string value => value
  | number display => display

structure CreditTokenRatesConfig where
  input : DecimalValue
  cachedInput : DecimalValue
  output : DecimalValue
deriving DecidableEq

structure CreditModelConfig where
  standard : CreditTokenRatesConfig
  fast : Option CreditTokenRatesConfig := none
  longContextPricing : Bool := false
deriving DecidableEq

structure ApiTokenRatesConfig where
  input : DecimalValue
  cachedInput : DecimalValue
  cacheWrite : Option DecimalValue := none
  output : DecimalValue
deriving DecidableEq

inductive ApiLongContextConfig
  | published (rates : ApiTokenRatesConfig)
  | flat
  | unavailable
deriving DecidableEq

structure ApiTierConfig where
  short : ApiTokenRatesConfig
  long : ApiLongContextConfig
deriving DecidableEq

structure ApiModelConfig where
  standard : ApiTierConfig
  fast : Option ApiTierConfig := none
deriving DecidableEq

structure ModelConfig where
  id : String
  aliases : List String := []
  credit : Option CreditModelConfig := none
  api : Option ApiModelConfig := none
deriving DecidableEq

structure CatalogConfig where
  version : Nat
  estimatorRevision : Nat
  apiPricingCatalogRevision : Nat
  ratesAsOf : String
  sourceUrl : String
  longContextInputThreshold : Nat
  creditFallbackModel : String
  models : List ModelConfig
deriving DecidableEq

/-! ## Rates -/

/-- `checked_pow` of an unsigned type of `w` bits. -/
def checkedPow (w a n : Nat) : Option Nat := if a ^ n < 2 ^ w then some (a ^ n) else none

/-- `str::parse::<u128>` of a text of digits. -/
def parseU128 (digits : List Char) : Option Nat :=
  if digitsValue digits < 2 ^ 128 then some (digitsValue digits) else none

/-- The digits after the point, and the power of ten they are over. -/
def parseFraction (field : String) : Option (List Char) → Except String (Nat × Nat)
  | some part => do
    let denominator ← okOr (checkedPow 128 10 (min part.length (2 ^ 32 - 1)))
      (field ++ " has too many decimal places")
    let fraction ← okOr (parseU128 part) (field ++ " is too large")
    pure (fraction, denominator)
  | none => .ok (0, 1)

/-- The end of `parse_scaled_decimal`: the digits before and after the point, scaled. -/
def scaleDigits (whole : List Char) (fraction : Option (List Char)) (scale : Nat)
    (field : String) : Except String Nat := do
  let whole ← okOr (parseU128 whole) (field ++ " is too large")
  let fractional ← parseFraction field fraction
  let numerator ← okOr (((checkedMul 128 whole fractional.2).bind fun n =>
      checkedAdd 128 n fractional.1).bind fun n => checkedMul 128 n scale)
    (field ++ " is too large")
  ensure (numerator % fractional.2 = 0)
    (field ++ " cannot be represented exactly at the supported precision")
  pure (numerator / fractional.2)

def parseScaledDecimal (value : DecimalValue) (scale : Nat) (field : String) :
    Except String Nat := do
  let raw := (trim value.toPlainString).toList
  ensure (¬ (raw = [] ∨ raw.head? = some '-' ∨ raw.head? = some '+'))
    (field ++ " must be a non-negative plain decimal")
  let pieces := raw.splitOn '.'
  let whole := pieces.head?.getD []
  let fraction := pieces[1]?
  ensure (pieces[2]? = none ∧ whole ≠ [] ∧ whole.all Char.isDigit ∧
      ∀ part ∈ fraction, part ≠ [] ∧ part.all Char.isDigit)
    (field ++ " must be a non-negative plain decimal")
  scaleDigits whole fraction scale field

def validateRequiredRates (field : String) (input _cachedInput output : Nat) :
    Except String Unit :=
  ensure (¬ (input = 0 ∨ output = 0))
    (field ++ " input and output rates must be greater than zero")

def validateRateBounds (field : String) (rates : List (String × Nat)) : Except String Unit :=
  match rates.find? fun rate => maxConfiguredRateUnits < rate.2 with
  | some (component, _) =>
    .error (field ++ "." ++ component ++ " exceeds the maximum safe configured rate")
  | none => .ok ()

def CreditTokenRates.fromConfig (config : CreditTokenRatesConfig) (field : String) :
    Except String CreditTokenRates := do
  let input ← parseScaledDecimal config.input creditUnitsPerCredit (field ++ ".input")
  let cachedInput ←
    parseScaledDecimal config.cachedInput creditUnitsPerCredit (field ++ ".cachedInput")
  let output ← parseScaledDecimal config.output creditUnitsPerCredit (field ++ ".output")
  validateRequiredRates field input cachedInput output
  validateRateBounds field [("input", input), ("cachedInput", cachedInput), ("output", output)]
  pure { input, cachedInput, output }

/-- `Option::map` of a fallible step, transposed. -/
def mapOption {α β : Type} (o : Option α) (f : α → Except String β) : Except String (Option β) :=
  match o with
  | some a => some <$> f a
  | none => .ok none

def CreditModelRates.fromConfig (config : CreditModelConfig) : Except String CreditModelRates := do
  let standard ← CreditTokenRates.fromConfig config.standard "credit.standard"
  let fast ← mapOption config.fast fun rates => CreditTokenRates.fromConfig rates "credit.fast"
  ensure (¬ (config.longContextPricing ∧
      (standard.output % 2 ≠ 0 ∨ ∃ rates ∈ fast, rates.output % 2 ≠ 0)))
    "credit long-context output rates must support an exact 1.5x multiplier"
  pure { standard, fast, longContextPricing := config.longContextPricing }

def ApiTokenRates.fromConfig (config : ApiTokenRatesConfig) (field : String) :
    Except String ApiTokenRates := do
  let input ← parseScaledDecimal config.input microUsdPerUsd (field ++ ".input")
  let cachedInput ← parseScaledDecimal config.cachedInput microUsdPerUsd (field ++ ".cachedInput")
  let cacheWrite ← mapOption config.cacheWrite fun value =>
    parseScaledDecimal value microUsdPerUsd (field ++ ".cacheWrite")
  let output ← parseScaledDecimal config.output microUsdPerUsd (field ++ ".output")
  validateRequiredRates field input cachedInput output
  validateRateBounds field [("input", input), ("cachedInput", cachedInput),
    ("cacheWrite", cacheWrite.getD 0), ("output", output)]
  pure { input, cachedInput, cacheWrite, output }

def ApiTierRates.fromConfig (config : ApiTierConfig) (field : String) :
    Except String ApiTierRates := do
  let short ← ApiTokenRates.fromConfig config.short (field ++ ".short")
  let long ← match config.long with
    | .published rates =>
      ApiLongContextRates.published <$> ApiTokenRates.fromConfig rates (field ++ ".long.rates")
    | .flat => pure .flat
    | .unavailable => pure .unavailable
  pure { short, long }

def ApiModelRates.fromConfig (config : ApiModelConfig) : Except String ApiModelRates := do
  let standard ← ApiTierRates.fromConfig config.standard "api.standard"
  let fast ← mapOption config.fast fun tier => ApiTierRates.fromConfig tier "api.fast"
  pure { standard, fast }

/-! ## The catalog -/

def validateModelName (field value : String) : Except String Unit := do
  let trimmed := trim value
  ensure (¬ (trimmed = "" ∨ maxModelNameBytes < trimmed.utf8ByteSize))
    (field ++ " must contain 1 to " ++ toString maxModelNameBytes ++ " bytes")
  ensure (trimmed.toList.any isControl = false) (field ++ " must not contain control characters")

def validateMetadata (field value : String) : Except String Unit := do
  ensure (¬ (trim value = "" ∨ maxMetadataBytes < value.utf8ByteSize))
    (field ++ " must contain 1 to " ++ toString maxMetadataBytes ++ " bytes")
  ensure (value.toList.any isControl = false) (field ++ " must not contain control characters")

/-- The entries of a catalog by normalized name. -/
abbrev ModelMap := String → Option ModelEntry

section
-- the text that `{:?}` gives for a string
variable (debug : String → String)

def insertName (models : ModelMap) (name : String) (entry : ModelEntry) : Except String ModelMap :=
  let normalized := normalizeModelName name
  if (models normalized).isSome then
    .error ("duplicate model id or alias " ++ debug normalized)
  else .ok (Function.update models normalized (some entry))

def insertAliases (entry : ModelEntry) : List String → ModelMap → Except String ModelMap
  | [], models => .ok models
  | name :: rest, models => do
    validateModelName "model alias" name
    let models ← insertName debug models name entry
    insertAliases entry rest models

def insertConfigured (models : ModelMap) (model : ModelConfig) : Except String ModelMap := do
  validateModelName "model id" model.id
  ensure (¬ maxAliasesPerModel < model.aliases.length)
    ("model " ++ model.id ++ " has more than " ++ toString maxAliasesPerModel ++ " aliases")
  ensure (¬ (model.credit = none ∧ model.api = none))
    ("model " ++ model.id ++ " must define credit, api, or both")
  let credit ← mapOption model.credit CreditModelRates.fromConfig
  let api ← mapOption model.api ApiModelRates.fromConfig
  let models ← insertName debug models model.id ⟨credit, api⟩
  insertAliases debug ⟨credit, api⟩ model.aliases models

def ModelCatalog.fromConfig (config : CatalogConfig) : Except String ModelCatalog := do
  ensure (config.version = modelCatalogVersion)
    ("unsupported model catalog version " ++ toString config.version ++ "; expected " ++
      toString modelCatalogVersion)
  ensure (¬ config.estimatorRevision ≤ bundledEstimatorRevision)
    ("estimatorRevision must be greater than the bundled revision " ++
      toString bundledEstimatorRevision)
  ensure (¬ config.apiPricingCatalogRevision ≤ bundledApiPricingCatalogRevision)
    ("apiPricingCatalogRevision must be greater than the bundled revision " ++
      toString bundledApiPricingCatalogRevision)
  validateMetadata "ratesAsOf" config.ratesAsOf
  validateMetadata "sourceUrl" config.sourceUrl
  ensure (config.longContextInputThreshold ≠ 0)
    "longContextInputThreshold must be greater than zero"
  validateModelName "creditFallbackModel" config.creditFallbackModel
  ensure (¬ (config.models = [] ∨ maxModels < config.models.length))
    ("models must contain between 1 and " ++ toString maxModels ++ " entries")
  let models ← config.models.foldlM (insertConfigured debug) fun _ => none
  let name := normalizeModelName config.creditFallbackModel
  match hcredit : (models name).bind (·.credit) with
  | none => .error "creditFallbackModel must reference a model with credit rates"
  | some creditFallback =>
    match hfast : creditFallback.fast with
    | none =>
      .error "creditFallbackModel must define both Standard and Fast credit rates"
    | some fastCreditFallback =>
      pure {
        estimatorRevision := config.estimatorRevision
        apiPricingCatalogRevision := config.apiPricingCatalogRevision
        longContextInputThreshold := config.longContextInputThreshold
        creditFallbackModel := name
        models, creditFallback, fastCreditFallback
        fallback_available := ⟨hcredit, hfast⟩ }

end

end Pricing
