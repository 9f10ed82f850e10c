import UsageMonit.FactExport.Batch

/-!
# Page tokens and change ids

A page token reads back as the position it was made from (`parsePageToken_value`), and it is a
valid token on the wire. The change ids of a batch are valid and distinct (`entryChangeId_inj`).
-/

namespace FactExport

open Fallible

/-! ## ASCII text -/

theorem utf8ByteSize_ofList {cs : List Char} (h : ∀ c ∈ cs, c.utf8Size = 1) :
    (String.ofList cs).utf8ByteSize = cs.length := by
  induction cs with
  | nil => rfl
  | cons c cs ih =>
    rw [← List.singleton_append, String.ofList_append, String.utf8ByteSize_append,
      ← String.singleton_eq_ofList, String.utf8ByteSize_singleton, h c (by simp),
      ih fun d hd => h d (by simp [hd]), List.length_append, List.length_singleton]

theorem utf8Size_digitChar {d : Nat} (h : d < 16) : (Nat.digitChar d).utf8Size = 1 := by
  interval_cases d <;> decide

theorem isAlphanum_digitChar {d : Nat} (h : d < 16) : (Nat.digitChar d).isAlphanum = true := by
  interval_cases d <;> decide

theorem digitChar_ne_sign {d : Nat} (h : d < 16) :
    Nat.digitChar d ≠ '-' ∧ Nat.digitChar d ≠ '+' := by
  interval_cases d <;> decide

theorem utf8Size_toHex {width n : Nat} : ∀ c ∈ Hex.toHex width n, c.utf8Size = 1 := by
  intro c hc
  obtain ⟨d, hd, rfl⟩ := Hex.mem_toHex hc
  exact utf8Size_digitChar hd

/-! ## Page tokens -/

theorem fromStrRadix16_toHex {n : Nat} (h : n < 2 ^ 64) :
    fromStrRadix16 (Hex.toHex 16 n) = some n := by
  have hsign : (Hex.toHex 16 n).head? ≠ some '+' := by
    intro hhead
    obtain ⟨d, hd, hc⟩ := Hex.mem_toHex (List.mem_of_mem_head? hhead)
    exact (digitChar_ne_sign hd).2 hc.symm
  rw [fromStrRadix16, if_neg hsign, Hex.ofHex_toHex (by decide) (by simpa using h)]
  simpa [Option.filter] using h

/-- **A token reads back.** -/
theorem parsePageToken_value {generation sequence : Nat} (hpos : generation ≠ 0)
    (hg : generation < 2 ^ 64) (hs : sequence < 2 ^ 64) :
    parsePageToken (pageTokenValue generation sequence) = .ok ⟨generation, sequence⟩ := by
  have htake : (Hex.toHex 16 generation ++ '-' :: Hex.toHex 16 sequence).takeWhile (· ≠ '-') =
      Hex.toHex 16 generation := by
    rw [List.takeWhile_append_of_pos, List.takeWhile_cons_of_neg (by simp), List.append_nil]
    intro c hc
    obtain ⟨d, hd, rfl⟩ := Hex.mem_toHex hc
    simp [(digitChar_ne_sign hd).1]
  have hdrop : (Hex.toHex 16 generation ++ '-' :: Hex.toHex 16 sequence).drop
      ((Hex.toHex 16 generation).length + 1) = Hex.toHex 16 sequence := by
    rw [← List.drop_drop, List.drop_left]
    rfl
  have hsize : ∀ n, (String.ofList (Hex.toHex 16 n)).utf8ByteSize = 16 := fun n => by
    rw [utf8ByteSize_ofList utf8Size_toHex, Hex.toHex_length]
  have hlist : (pageTokenValue generation sequence).toList = "fact-page-".toList ++
      (Hex.toHex 16 generation ++ '-' :: Hex.toHex 16 sequence) := String.toList_ofList
  unfold parsePageToken
  rw [hlist]
  simp only [List.take_left', List.drop_left', htake, hdrop, hsize, fromStrRadix16_toHex hg,
    fromStrRadix16_toHex hs]
  simp [ensure_of, okOr, Option.filter, hpos, pure, Except.pure]

theorem opaqueFromStr_token (label : String) (generation sequence : Nat) :
    opaqueFromStr label (pageTokenValue generation sequence) =
      .ok (pageTokenValue generation sequence) := by
  have hprefixed : ∀ c ∈ "fact-page-".toList,
      c.utf8Size = 1 ∧ (c.isAlphanum || c == '-') = true := by
    have hlist : "fact-page-".toList = ['f', 'a', 'c', 't', '-', 'p', 'a', 'g', 'e', '-'] := by
      decide
    intro c hc
    rw [hlist] at hc
    simp only [List.mem_cons, List.not_mem_nil, or_false] at hc
    rcases hc with rfl | rfl | rfl | rfl | rfl | rfl | rfl | rfl | rfl | rfl <;> decide
  have hchars : ∀ c ∈ "fact-page-".toList ++ (Hex.toHex 16 generation ++
      '-' :: Hex.toHex 16 sequence), c.utf8Size = 1 ∧ (c.isAlphanum || c == '-') = true := by
    have hhex : ∀ n, ∀ c ∈ Hex.toHex 16 n, c.utf8Size = 1 ∧ (c.isAlphanum || c == '-') = true := by
      intro n c hc
      obtain ⟨d, hd, rfl⟩ := Hex.mem_toHex hc
      exact ⟨utf8Size_digitChar hd, by rw [isAlphanum_digitChar hd]; rfl⟩
    intro c hc
    rcases List.mem_append.1 hc with hc | hc
    · exact hprefixed c hc
    rcases List.mem_append.1 hc with hc | hc
    · exact hhex _ c hc
    rcases List.mem_cons.1 hc with rfl | hc
    · decide
    · exact hhex _ c hc
  have hlist : (pageTokenValue generation sequence).toList = "fact-page-".toList ++
      (Hex.toHex 16 generation ++ '-' :: Hex.toHex 16 sequence) := String.toList_ofList
  have hlength : ("fact-page-".toList ++ (Hex.toHex 16 generation ++
      '-' :: Hex.toHex 16 sequence)).length = 43 := by simp
  have hsize : (pageTokenValue generation sequence).utf8ByteSize = 43 :=
    (utf8ByteSize_ofList fun c hc => (hchars c hc).1).trans hlength
  unfold opaqueFromStr
  rw [ensure_of]
  · rfl
  refine ⟨fun hempty => ?_, by rw [hsize]; decide, ?_⟩
  · rw [hempty] at hsize
    exact absurd hsize (by decide)
  · rw [hlist, List.all_eq_true]
    intro c hc
    rw [(hchars c hc).2]
    rfl

theorem snapshotPageToken_ok (generation sequence : Nat) :
    snapshotPageToken generation sequence = .ok (pageTokenValue generation sequence) :=
  opaqueFromStr_token _ _ _

theorem deltaPageToken_ok (generation sequence : Nat) :
    deltaPageToken generation sequence = .ok (pageTokenValue generation sequence) :=
  opaqueFromStr_token _ _ _

theorem opaqueFromStr_identity {label identity : String}
    (h : validateBatchIdentity identity = .ok ()) : opaqueFromStr label identity = .ok identity := by
  obtain ⟨hne, hsize, hall⟩ := ensure_ok.1 h
  unfold opaqueFromStr
  rw [ensure_of]
  · rfl
  refine ⟨hne, hsize.trans (by decide), List.all_eq_true.2 fun c hc => ?_⟩
  rw [List.all_eq_true.1 hall c hc]
  rfl

/-! ## Change ids -/

theorem entryChangeId_toList (index : Nat) : (entryChangeId index).toList =
    "entry-".toList ++ (List.replicate (20 - (toString index).length) '0' ++
      Nat.toDigits 10 index) := by
  have hrepr : toString index = String.ofList (Nat.toDigits 10 index) :=
    Nat.repr_eq_ofList_toDigits
  simp only [entryChangeId, String.toList_append, String.toList_ofList, List.append_assoc]
  rw [hrepr]
  simp only [String.toList_ofList]

theorem entryChangeId_inj {i j : Nat} (h : entryChangeId i = entryChangeId j) : i = j := by
  have hlist := congrArg String.toList h
  rw [entryChangeId_toList, entryChangeId_toList, List.append_cancel_left_eq] at hlist
  have hvalue := congrArg (Nat.ofDigitChars 10 · 0) hlist
  simpa [Nat.ofDigitChars_append] using hvalue

theorem entryChangeId_ne_header (i : Nat) : entryChangeId i ≠ "header" := by
  intro h
  have hlist := congrArg String.toList h
  rw [entryChangeId_toList] at hlist
  have hhead := congrArg List.head? hlist
  exact absurd hhead (by simp)

end FactExport
