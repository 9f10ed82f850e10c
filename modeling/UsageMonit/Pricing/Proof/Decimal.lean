import UsageMonit.Pricing.Config

/-!
# Rates are read exactly

`parseScaledDecimal` accepts the plain decimals that its arithmetic has room for and that are a
whole number of units, and reads them exactly (`parseScaledDecimal_iff`).
-/

namespace Pricing

open Fallible Decimal
open Text (trim)

/-! ## Decimals -/

/-- A plain decimal as the configuration writes it, between blanks. -/
def Writes (value : DecimalValue) (n : Numeral) : Prop :=
  (trim value.toPlainString).toList = n.text

theorem pow_fits_iff {n : Nat} : 10 ^ n < 2 ^ 128 ↔ n ≤ 38 := by
  constructor
  · intro h
    by_contra hlarge
    have hle : 10 ^ 39 ≤ 10 ^ n := Nat.pow_le_pow_right (by decide) (by omega)
    exact absurd (hle.trans_lt h) (by decide)
  · intro h
    have hle : 10 ^ n ≤ 10 ^ 38 := Nat.pow_le_pow_right (by decide) h
    exact hle.trans_lt (by decide)

theorem checkedPow_fits {n : Nat} (h : n ≤ 38) :
    checkedPow 128 10 (min n (2 ^ 32 - 1)) = some (10 ^ n) := by
  have hmin : min n (2 ^ 32 - 1) = n := by omega
  unfold checkedPow
  rw [hmin, if_pos (pow_fits_iff.2 h)]

theorem checkedPow_some {n denominator : Nat}
    (h : checkedPow 128 10 (min n (2 ^ 32 - 1)) = some denominator) :
    n ≤ 38 ∧ denominator = 10 ^ n := by
  have hn : n ≤ 38 := by
    unfold checkedPow at h
    split at h
    · rename_i hfits
      have hmin := pow_fits_iff.1 hfits
      omega
    · cases h
  rw [checkedPow_fits hn] at h
  exact ⟨hn, (Option.some.inj h).symm⟩

theorem checkedMul_eq_some {w a b c : Nat} (h : checkedMul w a b = some c) :
    c = a * b ∧ a * b < 2 ^ w := by
  unfold checkedMul at h
  split at h
  · exact ⟨(Option.some.inj h).symm, by assumption⟩
  · cases h

theorem parseU128_eq_some {digits : List Char} {n : Nat} (h : parseU128 digits = some n) :
    n = digitsValue digits := by
  unfold parseU128 at h
  split at h
  · exact (Option.some.inj h).symm
  · cases h

/-- The arithmetic of a decimal: its digits, times the scale, over its power of ten. -/
theorem numerator_ok {whole denominator fraction scale n : Nat}
    (h : ((checkedMul 128 whole denominator).bind fun n =>
      checkedAdd 128 n fraction).bind (fun n => checkedMul 128 n scale) = some n) :
    n = (whole * denominator + fraction) * scale ∧
      (whole * denominator + fraction) * scale < 2 ^ 128 := by
  obtain ⟨b, hb, hn⟩ := Option.bind_eq_some_iff.1 h
  obtain ⟨a, ha, hb⟩ := Option.bind_eq_some_iff.1 hb
  obtain ⟨rfl, -⟩ := checkedMul_eq_some ha
  obtain ⟨rfl, -⟩ := checkedAdd_eq_some hb
  obtain ⟨rfl, hfits⟩ := checkedMul_eq_some hn
  exact ⟨rfl, hfits⟩

theorem numerator_fits {whole denominator fraction scale : Nat} (hscale : 0 < scale)
    (h : (whole * denominator + fraction) * scale < 2 ^ 128) :
    ((checkedMul 128 whole denominator).bind fun n =>
      checkedAdd 128 n fraction).bind (fun n => checkedMul 128 n scale) =
        some ((whole * denominator + fraction) * scale) := by
  have hsum : whole * denominator + fraction < 2 ^ 128 :=
    (Nat.le_mul_of_pos_right _ hscale).trans_lt h
  have hproduct : whole * denominator < 2 ^ 128 := (Nat.le_add_right _ _).trans_lt hsum
  have hmul : checkedMul 128 whole denominator = some (whole * denominator) := if_pos hproduct
  have hadd : checkedAdd 128 (whole * denominator) fraction =
      some (whole * denominator + fraction) := if_pos hsum
  rw [hmul, Option.bind_some, hadd, Option.bind_some]
  exact if_pos h

/-- The digits of a numeral, before and after the point. -/
def parts (n : Numeral) : Option (List Char) := if n.fraction = [] then none else some n.fraction

theorem parseFraction_ok {n : Numeral} {field : String} {fractional : Nat × Nat}
    (h : parseFraction field (parts n) = .ok fractional) :
    n.fraction.length ≤ 38 ∧ fractional = (digitsValue n.fraction, 10 ^ n.fraction.length) := by
  unfold parts at h
  split at h
  · rename_i hnil
    cases h
    simp [hnil, digitsValue]
  · obtain ⟨denominator, hdenominator, h⟩ := bind_ok h
    obtain ⟨fraction, hfraction, h⟩ := bind_ok h
    cases h
    obtain ⟨hlength, rfl⟩ := checkedPow_some (okOr_ok.1 hdenominator)
    obtain rfl := parseU128_eq_some (okOr_ok.1 hfraction)
    exact ⟨hlength, rfl⟩

theorem parseFraction_fits {n : Numeral} (field : String) (h : n.fraction.length ≤ 38) :
    parseFraction field (parts n) = .ok (digitsValue n.fraction, 10 ^ n.fraction.length) := by
  have hpart : parseU128 n.fraction = some (digitsValue n.fraction) :=
    if_pos ((digitsValue_lt n.fraction_digits).trans (pow_fits_iff.2 h))
  unfold parts
  split
  · rename_i hnil
    simp [hnil, parseFraction, digitsValue]
  · simp only [parseFraction, checkedPow_fits h, hpart, okOr, ok_bind]
    rfl

/-- **The digits of a numeral, scaled**: a whole number of units, if there is room for it. -/
theorem scaleDigits_iff {n : Numeral} {scale r : Nat} {field : String} (hscale : 0 < scale) :
    scaleDigits n.whole (parts n) scale field = .ok r ↔
      n.fraction.length ≤ 38 ∧ n.digits * scale < 2 ^ 128 ∧ (r : ℚ) = n.value * scale := by
  rw [Numeral.scaled_iff, n.digits_eq]
  have hpow : 0 < 10 ^ n.fraction.length := Nat.pow_pos (by decide)
  constructor
  · intro h
    obtain ⟨_, hwhole, h⟩ := bind_ok h
    obtain ⟨fractional, hfractional, h⟩ := bind_ok h
    obtain ⟨numerator, hnumerator, h⟩ := bind_ok h
    obtain ⟨_, hexact, h⟩ := bind_ok h
    obtain rfl := parseU128_eq_some (okOr_ok.1 hwhole)
    obtain ⟨hlength, rfl⟩ := parseFraction_ok hfractional
    obtain ⟨rfl, hfits⟩ := numerator_ok (okOr_ok.1 hnumerator)
    obtain rfl := Except.ok.inj h
    have hdvd := Nat.dvd_of_mod_eq_zero (ensure_ok.1 hexact)
    exact ⟨hlength, hfits, (Nat.div_mul_cancel hdvd).symm⟩
  · rintro ⟨hlength, hfits, hexact⟩
    have hdigits : digitsValue n.whole * 10 ^ n.fraction.length + digitsValue n.fraction < 2 ^ 128 :=
      (Nat.le_mul_of_pos_right _ hscale).trans_lt hfits
    have hwhole : parseU128 n.whole = some (digitsValue n.whole) :=
      if_pos ((Nat.le_mul_of_pos_right _ hpow).trans_lt ((Nat.le_add_right _ _).trans_lt hdigits))
    unfold scaleDigits
    rw [hwhole, parseFraction_fits field hlength]
    simp only [okOr, ok_bind, numerator_fits hscale hfits]
    rw [hexact, ensure_of (Nat.mul_mod_left _ _), ok_bind, Nat.mul_div_cancel _ hpow]
    rfl

theorem parseScaledDecimal_writes {value : DecimalValue} {n : Numeral} (h : Writes value n)
    (scale : Nat) (field : String) :
    parseScaledDecimal value scale field = scaleDigits n.whole (parts n) scale field := by
  obtain ⟨c, hc, hdigit⟩ := n.text_head
  rw [Option.mem_def] at hc
  have hsign : ¬ (n.text = [] ∨ n.text.head? = some '-' ∨ n.text.head? = some '+') := by
    rw [hc]
    rintro (hnil | hminus | hplus)
    · simp [hnil] at hc
    · cases hminus
      simp [Char.isDigit] at hdigit
    · cases hplus
      simp [Char.isDigit] at hdigit
  unfold parseScaledDecimal parts
  simp only [show (trim value.toPlainString).toList = n.text from h, n.split_text]
  rw [ensure_of hsign, ok_bind]
  split
  · rw [ensure_of, ok_bind]
    · rfl
    · simpa using ⟨n.whole_ne, n.whole_digits⟩
  · rename_i hne
    rw [ensure_of, ok_bind]
    · rfl
    · simpa using ⟨n.whole_ne, n.whole_digits, hne, n.fraction_digits⟩

/-- **What is accepted** is a plain decimal. -/
theorem writes_of_parse {value : DecimalValue} {scale r : Nat} {field : String}
    (h : parseScaledDecimal value scale field = .ok r) : ∃ n : Numeral, Writes value n := by
  have htext : ['.'].intercalate ((trim value.toPlainString).toList.splitOn '.') =
      (trim value.toPlainString).toList := List.intercalate_splitOn '.'
  obtain ⟨_, -, h⟩ := bind_ok h
  obtain ⟨_, hpieces, -⟩ := bind_ok h
  obtain ⟨hthird, hne, hdigits, hpart⟩ := ensure_ok.1 hpieces
  unfold Writes
  generalize (trim value.toPlainString).toList.splitOn '.' = pieces at *
  rcases pieces with - | ⟨w, - | ⟨f, - | ⟨g, rest⟩⟩⟩
  · exact absurd rfl hne
  · refine ⟨⟨w, [], hne, List.all_eq_true.1 hdigits, by simp⟩, ?_⟩
    simpa [Numeral.text] using htext.symm
  · obtain ⟨hfne, hfdigits⟩ := hpart f rfl
    refine ⟨⟨w, f, hne, List.all_eq_true.1 hdigits, List.all_eq_true.1 hfdigits⟩, ?_⟩
    simpa [Numeral.text, hfne] using htext.symm
  · simp at hthird

/-- **A rate is read exactly**, or it is no plain decimal, or its arithmetic has no room, or it is
no whole number of units. -/
theorem parseScaledDecimal_iff {value : DecimalValue} {scale r : Nat} {field : String}
    (hscale : 0 < scale) :
    parseScaledDecimal value scale field = .ok r ↔
      ∃ n : Numeral, Writes value n ∧ n.fraction.length ≤ 38 ∧ n.digits * scale < 2 ^ 128 ∧
        (r : ℚ) = n.value * scale := by
  constructor
  · intro h
    obtain ⟨n, hn⟩ := writes_of_parse h
    rw [parseScaledDecimal_writes hn, scaleDigits_iff hscale] at h
    exact ⟨n, hn, h⟩
  · rintro ⟨n, hn, h⟩
    rw [parseScaledDecimal_writes hn, scaleDigits_iff hscale]
    exact h

end Pricing
