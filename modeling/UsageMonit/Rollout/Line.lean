import UsageMonit.Lib.Fallible

/-!
# Bounded lines (`bounded_io.rs`)

A reader yields bytes and may then fail. `readBoundedLine` takes one line off it; a line over the
limit is dropped up to its end. The carriage return of a CRLF pair is no part of the line, so one
is kept pending until the next byte is known.
-/

namespace Rollout

/-- What a reader still yields: bytes, and an error after them if one occurs. -/
structure Reader where
  bytes : List UInt8
  failure : Option String
deriving DecidableEq

inductive BoundedLine
  | eof
  | line (output : List UInt8)
  | tooLong
deriving DecidableEq

structure LineState where
  output : List UInt8
  sawBytes : Bool
  tooLong : Bool
  pendingCr : Bool
deriving DecidableEq

def LineState.new : LineState where
  output := []
  sawBytes := false
  tooLong := false
  pendingCr := false

def newline : UInt8 := 10

def carriageReturn : UInt8 := 13

/-- A byte of the line, unless the line is over the limit. -/
def LineState.push (maxBytes : Nat) (state : LineState) (byte : UInt8) : LineState :=
  if state.tooLong then state
  else if state.output.length < maxBytes then { state with output := state.output ++ [byte] }
  else { state with output := [], tooLong := true }

/-- A pending carriage return belongs to the line after all. -/
def LineState.commitCr (maxBytes : Nat) (state : LineState) : LineState :=
  if state.pendingCr then { state.push maxBytes carriageReturn with pendingCr := false } else state

def LineState.ended (state : LineState) : BoundedLine :=
  if state.tooLong then .tooLong else .line state.output

/-- Reads on in a line. What is left of the bytes is returned with the line. -/
def readLineFrom (maxBytes : Nat) (failure : Option String) :
    LineState → List UInt8 → Except String (BoundedLine × List UInt8)
  | state, [] =>
    match failure with
    | some error => .error error
    | none => .ok (if state.sawBytes then (state.commitCr maxBytes).ended else .eof, [])
  | state, byte :: rest =>
    let state := { state with sawBytes := true }
    if byte = newline then .ok (state.ended, rest)
    else
      let state := state.commitCr maxBytes
      if byte = carriageReturn then
        readLineFrom maxBytes failure { state with pendingCr := true } rest
      else readLineFrom maxBytes failure (state.push maxBytes byte) rest

def readBoundedLine (reader : Reader) (maxBytes : Nat) :
    Except String (BoundedLine × Reader) :=
  match readLineFrom maxBytes reader.failure .new reader.bytes with
  | .error error => .error error
  | .ok (line, rest) => .ok (line, { reader with bytes := rest })

/-! ## Whole readers -/

theorem readLineFrom_length {maxBytes : Nat} {failure : Option String} {state : LineState}
    {bytes rest : List UInt8} {line : BoundedLine}
    (h : readLineFrom maxBytes failure state bytes = .ok (line, rest)) (hne : bytes ≠ []) :
    rest.length < bytes.length := by
  have hle : rest.length ≤ bytes.length - 1 := by
    clear hne
    induction bytes generalizing state with
    | nil =>
      cases failure with
      | none => simp_all [readLineFrom]
      | some error => simp [readLineFrom] at h
    | cons byte bytes ih =>
      rw [readLineFrom] at h
      rw [List.length_cons, Nat.add_sub_cancel]
      split at h
      · obtain ⟨-, rfl⟩ := Prod.mk.inj (Except.ok.inj h)
        exact Nat.le_refl _
      · split at h
        · exact Nat.le_trans (ih h) (Nat.sub_le _ _)
        · exact Nat.le_trans (ih h) (Nat.sub_le _ _)
  have hpos : 0 < bytes.length := List.length_pos_iff.2 hne
  omega

theorem readBoundedLine_length {reader reader' : Reader} {maxBytes : Nat} {line : BoundedLine}
    (h : readBoundedLine reader maxBytes = .ok (line, reader')) (hline : line ≠ .eof) :
    reader'.bytes.length < reader.bytes.length := by
  unfold readBoundedLine at h
  split at h
  · cases h
  next line' rest hread =>
    obtain ⟨rfl, rfl⟩ := Prod.mk.inj (Except.ok.inj h)
    apply readLineFrom_length hread
    intro hnil
    rw [hnil] at hread
    cases hfailure : reader.failure with
    | none => simp_all [readLineFrom, LineState.new]
    | some error => simp [hfailure, readLineFrom] at hread

def readLines (maxBytes : Nat) (reader : Reader) : List (Except String BoundedLine) :=
  match _h : readBoundedLine reader maxBytes with
  | .error error => [.error error]
  | .ok (.eof, _) => []
  | .ok (.line output, reader') => .ok (.line output) :: readLines maxBytes reader'
  | .ok (.tooLong, reader') => .ok .tooLong :: readLines maxBytes reader'
termination_by reader.bytes.length
decreasing_by
  all_goals exact readBoundedLine_length _h (by simp)

theorem readLines_line {maxBytes : Nat} {reader reader' : Reader} {output : List UInt8}
    (h : readBoundedLine reader maxBytes = .ok (.line output, reader')) :
    readLines maxBytes reader = .ok (.line output) :: readLines maxBytes reader' := by
  rw [readLines]
  split <;> simp_all

theorem readLines_eof {maxBytes : Nat} {reader reader' : Reader}
    (h : readBoundedLine reader maxBytes = .ok (.eof, reader')) :
    readLines maxBytes reader = [] := by
  rw [readLines]
  split <;> simp_all

end Rollout
