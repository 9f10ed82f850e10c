import Mathlib.Data.List.Basic

/-!
# Texts

Classes of characters and what is made of them (`Text`), and slices of a text between byte offsets
(`Utf8`). A slice fails when an offset falls inside of a character, so the offsets of a program
must be boundaries: an ASCII byte is a character of its own (`isBoundary_of_ascii`), and an
occurrence of a text begins and ends at boundaries (`isBoundary_of_rfind`).
-/

namespace Text

/-- The general category Cc. -/
def isControl (c : Char) : Bool := c.toNat < 0x20 || (0x7f ≤ c.toNat && c.toNat ≤ 0x9f)

/-- The property White_Space. -/
def isWhitespace (c : Char) : Bool :=
  (0x09 ≤ c.toNat && c.toNat ≤ 0x0d) || (0x2000 ≤ c.toNat && c.toNat ≤ 0x200a) ||
    [0x20, 0x85, 0xa0, 0x1680, 0x2028, 0x2029, 0x202f, 0x205f, 0x3000].contains c.toNat

def isAsciiHexdigit (c : Char) : Bool :=
  c.isDigit || ('a' ≤ c && c ≤ 'f') || ('A' ≤ c && c ≤ 'F')

def trimChars (text : List Char) : List Char :=
  ((text.dropWhile isWhitespace).reverse.dropWhile isWhitespace).reverse

def trim (text : String) : String := String.ofList (trimChars text.toList)

def splitWhitespace (text : String) : List String :=
  ((text.toList.splitOnP isWhitespace).filter (· ≠ [])).map String.ofList

def eqIgnoreAsciiCase (a b : String) : Bool :=
  a.toList.map Char.toLower == b.toList.map Char.toLower

end Text

namespace Utf8

/-- Whether a byte offset of a text falls between two characters. -/
abbrev IsBoundary (text : String) (n : Nat) : Prop := String.Pos.Raw.IsValid text ⟨n⟩

/-- The byte at an offset. -/
def byte? (text : String) (n : Nat) : Option UInt8 :=
  if h : (⟨n⟩ : String.Pos.Raw) < text.rawEndPos then some (text.getUTF8Byte ⟨n⟩ h) else none

/-- The text between two byte offsets, which must be boundaries in order. -/
def slice? (text : String) (start stop : Nat) : Option String :=
  if h : IsBoundary text start ∧ IsBoundary text stop ∧ start ≤ stop then
    some (String.extract (s := text) ⟨⟨start⟩, h.1⟩ ⟨⟨stop⟩, h.2.1⟩)
  else none

/-- The byte offset of a number of characters. -/
def offset (text : String) (n : Nat) : Nat := (String.ofList (text.toList.take n)).utf8ByteSize

/-- The byte offset of the last occurrence of a text. -/
def rfind (text pattern : String) : Option Nat :=
  ((List.range (text.toList.length + 1)).reverse.find? fun n =>
    pattern.toList.isPrefixOf (text.toList.drop n)).map (offset text)

variable {text pattern : String} {n start stop : Nat}

theorem slice?_eq_some (hstart : IsBoundary text start) (hstop : IsBoundary text stop)
    (hle : start ≤ stop) : ∃ part, slice? text start stop = some part :=
  ⟨_, dif_pos ⟨hstart, hstop, hle⟩⟩

/-! ## Boundaries -/

theorem isBoundary_zero : IsBoundary text 0 := String.Pos.Raw.isValid_zero

theorem isBoundary_size : IsBoundary text text.utf8ByteSize := String.Pos.Raw.isValid_rawEndPos

theorem isBoundary_iff : IsBoundary text n ↔ ∃ before after, text = before ++ after ∧
    n = before.utf8ByteSize := by
  simp [String.Pos.Raw.isValid_iff_exists_append, String.Pos.Raw.ext_iff]

theorem mask_of_ascii {b : UInt8} (hb : b < 0x80) : b &&& 0x80 = 0 := by
  have hmask : ∀ k < 128, k &&& 128 = 0 := by decide
  have hlt : b.toNat < 128 := UInt8.lt_iff_toNat_lt.1 hb
  apply UInt8.toNat_inj.1
  simpa using hmask b.toNat hlt

/-- **An ASCII byte** is a character of its own. -/
theorem isBoundary_of_ascii {b : UInt8} (h : byte? text n = some b) (hb : b < 0x80) :
    IsBoundary text n ∧ IsBoundary text (n + 1) := by
  have hmask := mask_of_ascii hb
  unfold byte? at h
  split at h
  next hlt =>
    have hbyte : text.getUTF8Byte ⟨n⟩ hlt = b := Option.some.inj h
    have hstart : IsBoundary text n := by
      refine String.Pos.Raw.isValid_iff_isUTF8FirstByte.2 (Or.inr ⟨hlt, ?_⟩)
      rw [hbyte]
      exact Or.inl hmask
    let pos : text.Pos := ⟨⟨n⟩, hstart⟩
    have hpos : pos ≠ text.endPos := by
      intro hend
      have heq : n = text.utf8ByteSize := congrArg (fun q : text.Pos => q.offset.byteIdx) hend
      simp [heq, String.Pos.Raw.lt_iff] at hlt
    have hget : pos.byte hpos = b := by
      rw [← hbyte]
      unfold String.Pos.byte String.Slice.Pos.byte String.Slice.getUTF8Byte
      simp [pos]
    have hsize : (pos.get hpos).utf8Size = 1 := by
      rw [← String.Pos.utf8ByteSize_byte (h := hpos)]
      simp [UInt8.utf8ByteSize, hget, hmask]
    have hnext : (pos.next hpos).offset.byteIdx = n + 1 := by
      simp [hsize, pos]
    refine ⟨hstart, ?_⟩
    rw [IsBoundary, ← hnext]
    exact (pos.next hpos).isValid
  next => cases h

/-! ## Occurrences -/

theorem isBoundary_of_rfind (h : rfind text pattern = some n) :
    IsBoundary text n ∧ IsBoundary text (n + pattern.utf8ByteSize) := by
  obtain ⟨k, hk, rfl⟩ := Option.map_eq_some_iff.1 h
  have hprefix : pattern.toList <+: text.toList.drop k := by
    simpa using List.find?_some hk
  obtain ⟨rest, hrest⟩ := hprefix
  have htext : text = String.ofList (text.toList.take k) ++ (pattern ++ String.ofList rest) := by
    apply String.toList_injective
    simp [hrest]
  refine ⟨isBoundary_iff.2 ⟨_, _, htext, rfl⟩, isBoundary_iff.2 ⟨
    String.ofList (text.toList.take k) ++ pattern, String.ofList rest, ?_, ?_⟩⟩
  · rw [String.append_assoc]
    exact htext
  · rw [String.utf8ByteSize_append, offset]

end Utf8
