import Mathlib.Data.List.OfFn
import UsageMonit.Lib.PrefixFree
import UsageMonit.Pricing.Fingerprint

/-!
# The fingerprint identifies the catalog

Every part of the fingerprint's bytes is prefix-free for a given label: a number, a text, the rates
of a model and the models after their count. So the bytes are those of one catalog only
(`preimage_injective`), and two catalogs share a fingerprint only by a collision of SHA-256
(`fingerprint_identifies`).
-/

namespace CatalogFingerprint

open Pricing

variable {label : Bytes}

/-! ## Fields -/

@[simp] theorem toBeBytes_length (width n : Nat) : (toBeBytes width n).length = width := by
  induction width generalizing n with
  | zero => rfl
  | succ width ih => simp [toBeBytes, ih]

theorem toBeBytes_injOn (width : Nat) : Set.InjOn (toBeBytes width) {n | n < 256 ^ width} := by
  induction width with
  | zero =>
    intro n hn m hm _
    simp only [pow_zero, Set.mem_ofPred_eq] at hn hm
    omega
  | succ width ih =>
    intro n hn m hm h
    simp only [Set.mem_ofPred_eq, pow_succ] at hn hm
    obtain ⟨hhigh, hlow⟩ := List.append_inj' h rfl
    have hdiv : n / 256 = m / 256 := by
      apply ih _ _ hhigh
      · show n / 256 < 256 ^ width
        omega
      · show m / 256 < 256 ^ width
        omega
    have hmod : n % 256 = m % 256 := by
      have hbyte : UInt8.ofNat n = UInt8.ofNat m := by simpa using hlow
      simpa using congrArg UInt8.toNat hbyte
    omega

theorem prefixFree_toBeBytes (width : Nat) : PrefixFree (· < 256 ^ width) (toBeBytes width) :=
  prefixFree_of_length (fun n _ => toBeBytes_length width n) (toBeBytes_injOn width)

/-- **A field** of a given label: its value's length comes before the value. -/
theorem prefixFree_bytes (label : Bytes) :
    PrefixFree (fun value => value.length < 2 ^ 64) (fingerprintBytes label) := by
  have hcounted : PrefixFree (fun value : Bytes => value.length < 256 ^ 8) fun value =>
      toBeBytes 8 value.length ++ value := (prefixFree_toBeBytes 8).counted
  exact hcounted.after (toBeBytes 8 label.length ++ label)

theorem prefixFree_bool (label : Bytes) :
    PrefixFree (fun _ => True) (fingerprintBool label) := by
  intro a b xs ys _ _ h
  obtain ⟨hbyte, hrest⟩ := prefixFree_bytes label (by simp) (by simp) h
  refine ⟨?_, hrest⟩
  cases a <;> cases b <;> simp at hbyte ⊢

theorem prefixFree_number (label : Bytes) {width : Nat} (hwidth : width < 2 ^ 64) :
    PrefixFree (· < 256 ^ width) fun n => fingerprintBytes label (toBeBytes width n) := by
  intro n m xs ys hn hm h
  obtain ⟨hbytes, hrest⟩ := prefixFree_bytes label (by simpa using hwidth) (by simpa using hwidth) h
  exact ⟨toBeBytes_injOn width hn hm hbytes, hrest⟩

theorem prefixFree_u32 (label : Bytes) : PrefixFree (· < 2 ^ 32) (fingerprintU32 label) :=
  prefixFree_number label (by decide : 4 < 2 ^ 64)

theorem prefixFree_u64 (label : Bytes) : PrefixFree (· < 2 ^ 64) (fingerprintU64 label) :=
  prefixFree_number label (by decide : 8 < 2 ^ 64)

theorem prefixFree_u128 (label : Bytes) : PrefixFree (· < 2 ^ 128) (fingerprintU128 label) :=
  prefixFree_number label (by decide : 16 < 2 ^ 64)

theorem asBytes_length (text : String) : (asBytes text).length = text.utf8ByteSize := by
  simp [asBytes]

theorem asBytes_injective : Function.Injective asBytes := by
  intro a b h
  have hdata : a.toUTF8.data = b.toUTF8.data := Array.toList_inj.1 h
  exact String.toByteArray_inj.1 (ByteArray.ext hdata)

theorem prefixFree_text (label : Bytes) :
    PrefixFree (fun text : String => text.utf8ByteSize < 2 ^ 64) fun text =>
      fingerprintBytes label (asBytes text) := by
  intro a b xs ys ha hb h
  have hfits : ∀ text : String, text.utf8ByteSize < 2 ^ 64 → (asBytes text).length < 2 ^ 64 :=
    fun text hfit => by rwa [asBytes_length]
  obtain ⟨hbytes, hrest⟩ := prefixFree_bytes label (hfits a ha) (hfits b hb) h
  exact ⟨asBytes_injective hbytes, hrest⟩

/-! ## Models -/

theorem prefixFree_option {α : Type} {P : α → Prop} {part : α → Bytes} (label : Bytes)
    (hpart : PrefixFree P part) :
    PrefixFree (fun value : Option α => ∀ a ∈ value, P a) (fingerprintOption label part) :=
  (prefixFree_bool label).option hpart

attribute [ext] CreditTokenRates CreditModelRates ApiTokenRates ApiTierRates ApiModelRates
  ModelEntry CatalogFields Pricing.ModelCatalog

theorem prefixFree_creditRates (label : Bytes) :
    PrefixFree CreditRatesFit (fingerprintCreditRates label) := by
  intro a b xs ys ha hb h
  simp only [fingerprintCreditRates, List.append_assoc, List.append_cancel_left_eq] at h
  obtain ⟨hinput, h⟩ := prefixFree_u128 _ ha.input hb.input h
  obtain ⟨hcached, h⟩ := prefixFree_u128 _ ha.cachedInput hb.cachedInput h
  obtain ⟨houtput, h⟩ := prefixFree_u128 _ ha.output hb.output h
  exact ⟨CreditTokenRates.ext hinput hcached houtput, h⟩

theorem prefixFree_creditModelRates :
    PrefixFree CreditModelFits fingerprintCreditModelRates := by
  intro a b xs ys ha hb h
  simp only [fingerprintCreditModelRates, List.append_assoc] at h
  obtain ⟨hstandard, h⟩ := prefixFree_creditRates _ ha.standard hb.standard h
  obtain ⟨hfast, h⟩ := prefixFree_option _ (prefixFree_creditRates _) ha.fast hb.fast h
  obtain ⟨hlong, h⟩ := prefixFree_bool _ trivial trivial h
  exact ⟨CreditModelRates.ext hstandard hfast hlong, h⟩

theorem prefixFree_apiRates (label : Bytes) :
    PrefixFree ApiRatesFit (fingerprintApiRates label) := by
  intro a b xs ys ha hb h
  simp only [fingerprintApiRates, List.append_assoc, List.append_cancel_left_eq] at h
  obtain ⟨hinput, h⟩ := prefixFree_u128 _ ha.input hb.input h
  obtain ⟨hcached, h⟩ := prefixFree_u128 _ ha.cachedInput hb.cachedInput h
  obtain ⟨hwrite, h⟩ := prefixFree_option _ (prefixFree_u128 _) ha.cacheWrite hb.cacheWrite h
  obtain ⟨houtput, h⟩ := prefixFree_u128 _ ha.output hb.output h
  exact ⟨ApiTokenRates.ext hinput hcached hwrite houtput, h⟩

/-- The name of the mode that is fed first. -/
def longMode (rates : ApiLongContextRates) : String :=
  match rates with
  | .published _ => "published"
  | .flat => "flat"
  | .unavailable => "unavailable"

/-- **The long-context rates** are told apart by their mode. -/
theorem prefixFree_apiLong :
    PrefixFree (fun rates => ∀ long, rates = .published long → ApiRatesFit long)
      fingerprintApiLong := by
  intro a b xs ys ha hb h
  have hmode : longMode a = longMode b := by
    have hfits : ∀ rates, (longMode rates).utf8ByteSize < 2 ^ 64 := by
      intro rates
      cases rates with
      | published long =>
        show "published".utf8ByteSize < 2 ^ 64
        decide
      | flat => decide
      | unavailable => decide
    have hfirst : ∀ rates, ∃ rest, fingerprintApiLong rates =
        fingerprintBytes (asBytes "api-long-mode") (asBytes (longMode rates)) ++ rest := by
      intro rates
      cases rates with
      | published long => exact ⟨_, rfl⟩
      | flat => exact ⟨[], (List.append_nil _).symm⟩
      | unavailable => exact ⟨[], (List.append_nil _).symm⟩
    obtain ⟨rest, hrest⟩ := hfirst a
    obtain ⟨rest', hrest'⟩ := hfirst b
    rw [hrest, hrest', List.append_assoc, List.append_assoc] at h
    exact (prefixFree_text _ (hfits a) (hfits b) h).1
  cases a <;> cases b <;>
    simp only [longMode, String.reduceEq] at hmode
  case published.published long long' =>
    simp only [fingerprintApiLong, List.append_assoc, List.append_cancel_left_eq] at h
    obtain ⟨hlong, h⟩ := prefixFree_apiRates _ (ha long rfl) (hb long' rfl) h
    exact ⟨congrArg _ hlong, h⟩
  case flat.flat => exact ⟨rfl, List.append_cancel_left h⟩
  case unavailable.unavailable => exact ⟨rfl, List.append_cancel_left h⟩

theorem prefixFree_apiTier (label : Bytes) :
    PrefixFree ApiTierFits (fingerprintApiTier label) := by
  intro a b xs ys ha hb h
  simp only [fingerprintApiTier, List.append_assoc, List.append_cancel_left_eq] at h
  obtain ⟨hshort, h⟩ := prefixFree_apiRates _ ha.short hb.short h
  obtain ⟨hlong, h⟩ := prefixFree_apiLong ha.long hb.long h
  exact ⟨ApiTierRates.ext hshort hlong, h⟩

theorem prefixFree_apiModelRates : PrefixFree ApiModelFits fingerprintApiModelRates := by
  intro a b xs ys ha hb h
  simp only [fingerprintApiModelRates, List.append_assoc] at h
  obtain ⟨hstandard, h⟩ := prefixFree_apiTier _ ha.standard hb.standard h
  obtain ⟨hfast, h⟩ := prefixFree_option _ (prefixFree_apiTier _) ha.fast hb.fast h
  exact ⟨ApiModelRates.ext hstandard hfast, h⟩

/-- **One model**: its name, and the rates that are there. -/
theorem prefixFree_model : PrefixFree EntryFits fingerprintModel := by
  rintro ⟨name, entry⟩ ⟨name', entry'⟩ xs ys ha hb h
  simp only [fingerprintModel, List.append_assoc] at h
  obtain ⟨hname, h⟩ := prefixFree_text _ ha.name hb.name h
  obtain ⟨hcredit, h⟩ := prefixFree_option _ prefixFree_creditModelRates ha.credit hb.credit h
  obtain ⟨hapi, h⟩ := prefixFree_option _ prefixFree_apiModelRates ha.api hb.api h
  exact ⟨Prod.ext hname (ModelEntry.ext hcredit hapi), h⟩

/-! ## The catalog -/

/-- **The bytes** that are fed to the hash are those of one catalog only. -/
theorem preimage_injOn : Set.InjOn preimage {catalog | catalog.Fit} := by
  intro a ha b hb h
  simp only [preimage, List.append_cancel_left_eq] at h
  obtain ⟨hestimator, h⟩ := prefixFree_u32 _ ha.estimatorRevision hb.estimatorRevision h
  obtain ⟨hrevision, h⟩ :=
    prefixFree_u32 _ ha.apiPricingCatalogRevision hb.apiPricingCatalogRevision h
  obtain ⟨hrates, h⟩ := prefixFree_text _ ha.ratesAsOf hb.ratesAsOf h
  obtain ⟨hsource, h⟩ := prefixFree_text _ ha.sourceUrl hb.sourceUrl h
  obtain ⟨hthreshold, h⟩ :=
    prefixFree_u64 _ ha.longContextInputThreshold hb.longContextInputThreshold h
  obtain ⟨hfallback, h⟩ := prefixFree_text _ ha.creditFallbackModel hb.creditFallbackModel h
  have hmodels : a.models = b.models :=
    ((prefixFree_u64 _).list prefixFree_model).injOn ⟨ha.modelCount, ha.models⟩
      ⟨hb.modelCount, hb.models⟩ h
  exact CatalogFields.ext hestimator hrevision hrates hsource hthreshold hfallback hmodels

theorem preimage_eq_iff {a b : ModelCatalog} :
    preimage a.toCatalogFields = preimage b.toCatalogFields ↔ a = b := by
  refine ⟨fun h => ?_, fun h => by rw [h]⟩
  obtain ⟨fields, hfit, hsorted⟩ := a
  obtain ⟨fields', hfit', hsorted'⟩ := b
  obtain rfl : fields = fields' := preimage_injOn hfit hfit' h
  rfl

theorem hexByte_injective : Function.Injective hexByte := by
  intro a b h
  have hread : Hex.ofHex (hexByte a) = Hex.ofHex (hexByte b) := by rw [h]
  unfold hexByte at hread
  rw [Hex.ofHex_toHex (by decide) (UInt8.toNat_lt_size a),
    Hex.ofHex_toHex (by decide) (UInt8.toNat_lt_size b)] at hread
  exact UInt8.toNat_inj.1 (Option.some.inj hread)

theorem catalogFingerprint_eq_iff {sha256 : Bytes → Fin 32 → UInt8} {a b : CatalogFields} :
    catalogFingerprint sha256 a = catalogFingerprint sha256 b ↔
      sha256 (preimage a) = sha256 (preimage b) := by
  refine ⟨fun h => ?_, fun h => by rw [catalogFingerprint, catalogFingerprint, h]⟩
  have hcode : PrefixFree (fun _ => True) hexByte :=
    prefixFree_of_length (fun byte _ => Hex.toHex_length 2 byte.toNat) hexByte_injective.injOn
  have htext := String.ofList_injective (String.append_right_inj _ |>.1 h)
  have hbytes := hcode.flatMap (fun _ _ => trivial) (fun _ _ => trivial) (by simp)
    (congrArg (· ++ []) htext)
  exact List.ofFn_injective hbytes.1

/-- **The fingerprint identifies the catalog.** Two catalogs feed the same bytes to the hash only if
they are equal, and share a fingerprint only if they are equal or their bytes are different texts
with one digest. -/
theorem fingerprint_identifies (a b : ModelCatalog) (sha256 : Bytes → Fin 32 → UInt8) :
    (preimage a.toCatalogFields = preimage b.toCatalogFields ↔ a = b) ∧
      (catalogFingerprint sha256 a.toCatalogFields = catalogFingerprint sha256 b.toCatalogFields ↔
        a = b ∨ preimage a.toCatalogFields ≠ preimage b.toCatalogFields ∧
          sha256 (preimage a.toCatalogFields) = sha256 (preimage b.toCatalogFields)) := by
  have hbytes := preimage_eq_iff (a := a) (b := b)
  refine ⟨hbytes, ?_⟩
  rw [catalogFingerprint_eq_iff]
  by_cases h : a = b
  · simp [h]
  · simp [h, hbytes]

end CatalogFingerprint
