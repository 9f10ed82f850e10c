import UsageMonit.Lib.Numerals
import UsageMonit.Pricing.Config

/-!
# The fingerprint of a catalog (`model_catalog.rs`)

The bytes that `catalog_fingerprint` feeds to SHA-256, and the text of the digest. Every field is
fed by `fingerprintBytes`: its label and its value, each after its length. Here a catalog has the
texts that pricing does not read, and its models are the entries of a `BTreeMap` in order. The
digest is a parameter.
-/

namespace CatalogFingerprint

open Pricing

abbrev Bytes := List UInt8

/-- `as_bytes`, and a byte string literal. -/
def asBytes (text : String) : Bytes := text.toUTF8.data.toList

def catalogFingerprintDomain : Bytes := asBytes "codex-usage-monit/model-catalog/v1\x00"
def modelCatalogFingerprintPrefix : String := "model-catalog-sha256-v1-"

/-! ## The catalog as it is stored -/

structure CatalogFields where
  estimatorRevision : Nat
  apiPricingCatalogRevision : Nat
  ratesAsOf : String
  sourceUrl : String
  longContextInputThreshold : Nat
  creditFallbackModel : String
  models : List (String × ModelEntry)
deriving DecidableEq

/-! The rates are `u128`. -/

structure CreditRatesFit (rates : CreditTokenRates) : Prop where
  input : rates.input < 2 ^ 128
  cachedInput : rates.cachedInput < 2 ^ 128
  output : rates.output < 2 ^ 128

structure CreditModelFits (rates : CreditModelRates) : Prop where
  standard : CreditRatesFit rates.standard
  fast : ∀ fast ∈ rates.fast, CreditRatesFit fast

structure ApiRatesFit (rates : ApiTokenRates) : Prop where
  input : rates.input < 2 ^ 128
  cachedInput : rates.cachedInput < 2 ^ 128
  cacheWrite : ∀ rate ∈ rates.cacheWrite, rate < 2 ^ 128
  output : rates.output < 2 ^ 128

structure ApiTierFits (rates : ApiTierRates) : Prop where
  short : ApiRatesFit rates.short
  long : ∀ long, rates.long = .published long → ApiRatesFit long

structure ApiModelFits (rates : ApiModelRates) : Prop where
  standard : ApiTierFits rates.standard
  fast : ∀ fast ∈ rates.fast, ApiTierFits fast

structure EntryFits (model : String × ModelEntry) : Prop where
  name : model.1.utf8ByteSize < 2 ^ 64
  credit : ∀ rates ∈ model.2.credit, CreditModelFits rates
  api : ∀ rates ∈ model.2.api, ApiModelFits rates

/-- Every number is one of its type, and every length is a `u64`. -/
structure CatalogFields.Fit (catalog : CatalogFields) : Prop where
  estimatorRevision : catalog.estimatorRevision < 2 ^ 32
  apiPricingCatalogRevision : catalog.apiPricingCatalogRevision < 2 ^ 32
  ratesAsOf : catalog.ratesAsOf.utf8ByteSize < 2 ^ 64
  sourceUrl : catalog.sourceUrl.utf8ByteSize < 2 ^ 64
  longContextInputThreshold : catalog.longContextInputThreshold < 2 ^ 64
  creditFallbackModel : catalog.creditFallbackModel.utf8ByteSize < 2 ^ 64
  modelCount : catalog.models.length < 2 ^ 64
  models : ∀ model ∈ catalog.models, EntryFits model

structure ModelCatalog extends CatalogFields where
  fit : toCatalogFields.Fit
  sorted : models.Pairwise fun a b => a.1 < b.1

/-! ## The bytes of a field -/

/-- `to_be_bytes` of a number of `width` bytes. -/
def toBeBytes : Nat → Nat → Bytes
  | 0, _ => []
  | width + 1, n => toBeBytes width (n / 256) ++ [UInt8.ofNat n]

def fingerprintBytes (label value : Bytes) : Bytes :=
  toBeBytes 8 label.length ++ label ++ (toBeBytes 8 value.length ++ value)

def fingerprintBool (label : Bytes) (value : Bool) : Bytes :=
  fingerprintBytes label [if value then 1 else 0]

def fingerprintU32 (label : Bytes) (value : Nat) : Bytes :=
  fingerprintBytes label (toBeBytes 4 value)

def fingerprintU64 (label : Bytes) (value : Nat) : Bytes :=
  fingerprintBytes label (toBeBytes 8 value)

def fingerprintU128 (label : Bytes) (value : Nat) : Bytes :=
  fingerprintBytes label (toBeBytes 16 value)

/-- Whether a part is there, and the part. -/
def fingerprintOption {α : Type} (label : Bytes) (part : α → Bytes) (value : Option α) : Bytes :=
  fingerprintBool label value.isSome ++ value.elim [] part

/-! ## The bytes of a model -/

def fingerprintCreditRates (label : Bytes) (rates : CreditTokenRates) : Bytes :=
  fingerprintBytes label [] ++
    (fingerprintU128 (asBytes "credit-input") rates.input ++
      (fingerprintU128 (asBytes "credit-cached-input") rates.cachedInput ++
        fingerprintU128 (asBytes "credit-output") rates.output))

/-- `fingerprint_credit_model` of rates that are there. -/
def fingerprintCreditModelRates (rates : CreditModelRates) : Bytes :=
  fingerprintCreditRates (asBytes "credit-standard") rates.standard ++
    (fingerprintOption (asBytes "credit-fast-present")
        (fingerprintCreditRates (asBytes "credit-fast")) rates.fast ++
      fingerprintBool (asBytes "credit-long-context-pricing") rates.longContextPricing)

def fingerprintCreditModel (rates : Option CreditModelRates) : Bytes :=
  fingerprintOption (asBytes "credit-present") fingerprintCreditModelRates rates

def fingerprintApiRates (label : Bytes) (rates : ApiTokenRates) : Bytes :=
  fingerprintBytes label [] ++
    (fingerprintU128 (asBytes "api-input") rates.input ++
      (fingerprintU128 (asBytes "api-cached-input") rates.cachedInput ++
        (fingerprintOption (asBytes "api-cache-write-present")
            (fingerprintU128 (asBytes "api-cache-write")) rates.cacheWrite ++
          fingerprintU128 (asBytes "api-output") rates.output)))

def fingerprintApiLong (rates : ApiLongContextRates) : Bytes :=
  match rates with
  | .published long =>
    fingerprintBytes (asBytes "api-long-mode") (asBytes "published") ++
      fingerprintApiRates (asBytes "api-long") long
  | .flat => fingerprintBytes (asBytes "api-long-mode") (asBytes "flat")
  | .unavailable => fingerprintBytes (asBytes "api-long-mode") (asBytes "unavailable")

def fingerprintApiTier (label : Bytes) (rates : ApiTierRates) : Bytes :=
  fingerprintBytes label [] ++
    (fingerprintApiRates (asBytes "api-short") rates.short ++ fingerprintApiLong rates.long)

/-- `fingerprint_api_model` of rates that are there. -/
def fingerprintApiModelRates (rates : ApiModelRates) : Bytes :=
  fingerprintApiTier (asBytes "api-standard") rates.standard ++
    fingerprintOption (asBytes "api-fast-present") (fingerprintApiTier (asBytes "api-fast"))
      rates.fast

def fingerprintApiModel (rates : Option ApiModelRates) : Bytes :=
  fingerprintOption (asBytes "api-present") fingerprintApiModelRates rates

/-- One round of the loop over the models. -/
def fingerprintModel (model : String × ModelEntry) : Bytes :=
  fingerprintBytes (asBytes "model-name") (asBytes model.1) ++
    (fingerprintCreditModel model.2.credit ++ fingerprintApiModel model.2.api)

/-! ## The fingerprint -/

/-- What `catalog_fingerprint` feeds to the hash. -/
def preimage (catalog : CatalogFields) : Bytes :=
  catalogFingerprintDomain ++
    (fingerprintU32 (asBytes "catalog-version") modelCatalogVersion ++
    (fingerprintU32 (asBytes "estimator-revision") catalog.estimatorRevision ++
    (fingerprintU32 (asBytes "api-pricing-catalog-revision") catalog.apiPricingCatalogRevision ++
    (fingerprintBytes (asBytes "rates-as-of") (asBytes catalog.ratesAsOf) ++
    (fingerprintBytes (asBytes "source-url") (asBytes catalog.sourceUrl) ++
    (fingerprintU64 (asBytes "long-context-input-threshold") catalog.longContextInputThreshold ++
    (fingerprintBytes (asBytes "credit-fallback-model") (asBytes catalog.creditFallbackModel) ++
    (fingerprintU64 (asBytes "model-name-count") catalog.models.length ++
      catalog.models.flatMap fingerprintModel))))))))

/-- Two lower-case hexadecimal digits. -/
def hexByte (byte : UInt8) : List Char := Hex.toHex 2 byte.toNat

/-- `catalog_fingerprint`: the digest as hexadecimal text. -/
def catalogFingerprint (sha256 : Bytes → Fin 32 → UInt8) (catalog : CatalogFields) : String :=
  modelCatalogFingerprintPrefix ++
    String.ofList ((List.ofFn (sha256 (preimage catalog))).flatMap hexByte)

end CatalogFingerprint
