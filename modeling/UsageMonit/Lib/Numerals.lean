import Mathlib.Data.List.SplitBy
import Mathlib.Data.Nat.Digits.Defs
import Mathlib.Tactic.FieldSimp
import Mathlib.Tactic.IntervalCases

/-!
# Numbers as text

Numbers as lower-case hexadecimal text of a fixed width (`toHex`), and the reading of such text
(`ofHex`). `ofHex_toHex` is the round trip.

Decimal digits as a number (`digitsValue`) and plain decimals: digits, and after a point more digits
(`Numeral`). The text of a numeral splits at its point into its two parts (`Numeral.split_text`),
and its value is its digits read as a number, over a power of ten (`Numeral.value`). A multiple of
the value is a natural number exactly if that power divides it (`Numeral.scaled_iff`).
-/

namespace Hex

/-- The value of a hexadecimal digit, in either case. -/
def digitValue (c : Char) : Option Nat :=
  if '0' ≤ c ∧ c ≤ '9' then some (c.toNat - '0'.toNat)
  else if 'a' ≤ c ∧ c ≤ 'f' then some (c.toNat - 'a'.toNat + 10)
  else if 'A' ≤ c ∧ c ≤ 'F' then some (c.toNat - 'A'.toNat + 10)
  else none

/-- Reads digits after the value `n`. -/
def ofHexFrom (n : Nat) : List Char → Option Nat
  | [] => some n
  | c :: cs => (digitValue c).bind fun d => ofHexFrom (16 * n + d) cs

/-- Reads one digit at least. -/
def ofHex (cs : List Char) : Option Nat :=
  if cs = [] then none else ofHexFrom 0 cs

def toHex : Nat → Nat → List Char
  | 0, _ => []
  | width + 1, n => toHex width (n / 16) ++ [Nat.digitChar (n % 16)]

theorem digitValue_digitChar {d : Nat} (h : d < 16) : digitValue (Nat.digitChar d) = some d := by
  interval_cases d <;> decide

@[simp] theorem toHex_length (width n : Nat) : (toHex width n).length = width := by
  induction width generalizing n with
  | zero => rfl
  | succ width ih => simp [toHex, ih]

theorem ofHexFrom_append (n : Nat) (cs ds : List Char) :
    ofHexFrom n (cs ++ ds) = (ofHexFrom n cs).bind fun m => ofHexFrom m ds := by
  induction cs generalizing n with
  | nil => rfl
  | cons c cs ih =>
    simp only [List.cons_append, ofHexFrom]
    cases digitValue c with
    | none => rfl
    | some d => exact ih _

theorem ofHexFrom_toHex (width n m : Nat) (h : n < 16 ^ width) :
    ofHexFrom m (toHex width n) = some (16 ^ width * m + n) := by
  induction width generalizing n with
  | zero =>
    have hn : n = 0 := by simpa using h
    simp [toHex, ofHexFrom, hn]
  | succ width ih =>
    have hdiv : n / 16 < 16 ^ width := by
      rw [Nat.pow_succ, Nat.mul_comm] at h
      exact Nat.div_lt_of_lt_mul h
    have hmod : n % 16 < 16 := Nat.mod_lt _ (by decide)
    rw [toHex, ofHexFrom_append, ih _ hdiv, Option.bind_some]
    simp only [ofHexFrom, digitValue_digitChar hmod, Option.bind_some, Option.some.injEq]
    rw [Nat.pow_succ, Nat.mul_add, ← Nat.mul_assoc, Nat.mul_comm 16 (16 ^ width)]
    omega

/-- **Round trip.** -/
theorem ofHex_toHex {width n : Nat} (hw : 0 < width) (h : n < 16 ^ width) :
    ofHex (toHex width n) = some n := by
  have hne : toHex width n ≠ [] := by
    rw [← List.length_pos_iff, toHex_length]
    exact hw
  rw [ofHex, if_neg hne, ofHexFrom_toHex width n 0 h, Nat.mul_zero, Nat.zero_add]

theorem mem_toHex {width n : Nat} {c : Char} (h : c ∈ toHex width n) :
    ∃ d, d < 16 ∧ c = Nat.digitChar d := by
  induction width generalizing n with
  | zero => cases h
  | succ width ih =>
    rcases List.mem_append.1 h with h | h
    · exact ih h
    · exact ⟨n % 16, Nat.mod_lt _ (by decide), List.mem_singleton.1 h⟩

end Hex

namespace Decimal

/-- The value of a decimal digit. -/
def digitValue (c : Char) : Nat := c.toNat - '0'.toNat

/-- Digits read as a number. -/
def digitsValue (cs : List Char) : Nat := Nat.ofDigits 10 (cs.reverse.map digitValue)

theorem digitsValue_append (as bs : List Char) :
    digitsValue (as ++ bs) = digitsValue as * 10 ^ bs.length + digitsValue bs := by
  simp [digitsValue, Nat.ofDigits_append, Nat.mul_comm, Nat.add_comm]

theorem digitValue_lt {c : Char} (h : c.isDigit) : digitValue c < 10 := by
  simp only [Char.isDigit, ge_iff_le, Bool.and_eq_true, decide_eq_true_eq, UInt32.le_iff_toNat_le]
    at h
  have hzero : '0'.val.toNat = 48 := rfl
  have hnine : '9'.val.toNat = 57 := rfl
  simp only [digitValue, Char.toNat]
  omega

theorem digitsValue_lt {cs : List Char} (h : ∀ c ∈ cs, c.isDigit) :
    digitsValue cs < 10 ^ cs.length := by
  have hdigits : ∀ n ∈ cs.reverse.map digitValue, n < 10 := by
    intro n hn
    obtain ⟨c, hc, rfl⟩ := List.mem_map.1 hn
    exact digitValue_lt (h c (List.mem_reverse.1 hc))
  simpa [digitsValue] using Nat.ofDigits_lt_base_pow_length (by decide) hdigits

/-- A plain decimal: digits, and after a point the digits of a fraction if there is one. -/
structure Numeral where
  whole : List Char
  fraction : List Char
  whole_ne : whole ≠ []
  whole_digits : ∀ c ∈ whole, c.isDigit
  fraction_digits : ∀ c ∈ fraction, c.isDigit

namespace Numeral

variable (n : Numeral)

def text : List Char := if n.fraction = [] then n.whole else n.whole ++ '.' :: n.fraction

/-- The digits without the point, as a number. -/
def digits : Nat := digitsValue (n.whole ++ n.fraction)

/-- The number that the numeral writes. -/
def value : ℚ := n.digits / 10 ^ n.fraction.length

theorem point_notMem {cs : List Char} (h : ∀ c ∈ cs, c.isDigit) : '.' ∉ cs := by
  intro hmem
  have hdigit := h '.' hmem
  simp [Char.isDigit] at hdigit

/-- **The text of a numeral splits** at the point. -/
theorem split_text :
    n.text.splitOn '.' = if n.fraction = [] then [n.whole] else [n.whole, n.fraction] := by
  have hwhole := point_notMem n.whole_digits
  have hfraction := point_notMem n.fraction_digits
  unfold text
  split
  · exact List.splitOn_eq_singleton hwhole
  · rw [List.splitOn_append_cons_self_of_not_mem hwhole, List.splitOn_eq_singleton hfraction]

theorem text_head : ∃ c ∈ n.text.head?, c.isDigit := by
  obtain ⟨c, cs, hcs⟩ := List.exists_cons_of_ne_nil n.whole_ne
  refine ⟨c, ?_, n.whole_digits c (by simp [hcs])⟩
  unfold text
  split <;> simp [hcs]

theorem digits_eq :
    n.digits = digitsValue n.whole * 10 ^ n.fraction.length + digitsValue n.fraction :=
  digitsValue_append _ _

theorem scaled_iff (scale r : Nat) :
    (r : ℚ) = n.value * scale ↔ n.digits * scale = r * 10 ^ n.fraction.length := by
  have hpow : (10 : ℚ) ^ n.fraction.length ≠ 0 := by positivity
  unfold value
  rw [div_mul_eq_mul_div, eq_div_iff hpow]
  norm_cast
  exact eq_comm

end Numeral

end Decimal
