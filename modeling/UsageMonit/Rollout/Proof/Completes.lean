import UsageMonit.Rollout.Proof.Parse

/-!
# Files that are parsed and replayed without a panic

A parse completes exactly along the runs in which the tolerance fits wherever it is subtracted, and
what a parse returns is replayed to the end. A session that claims to be created at the first
instant of the date range, in a file that embeds a history, panics at the first dated start.
-/

namespace Rollout

open Fallible Time Usage ParsedRollout

/-! ## Runs -/

section
variable {env : ParseEnv} {file : RolloutSource} {config : CollectConfig} {maxLineBytes : Nat}

theorem indexed_parseLine {before after : ParsedRollout} {read : Except String BoundedLine}
    (h : before.Indexed) (hok : parseLine env file config maxLineBytes before read = .ok after) :
    after.Indexed := by
  have hstep := yields_parseLine env file config maxLineBytes before h read
  rw [hok] at hstep
  exact hstep.2

theorem indexed_foldlM {reads : List (Except String BoundedLine)} {parsed parsed' : ParsedRollout}
    (h : parsed.Indexed)
    (hrun : reads.foldlM (parseLine env file config maxLineBytes) parsed = .ok parsed') :
    parsed'.Indexed :=
  foldlM_ok (R := fun before after : ParsedRollout => before.Indexed → after.Indexed)
    (fun _ => id) (fun _ _ _ hab hbc ha => hbc (hab ha))
    (fun _ _ _ _ hok hbefore => indexed_parseLine hbefore hok) hrun h

theorem foldlM_completes_iff {reads : List (Except String BoundedLine)} {parsed : ParsedRollout}
    (h : parsed.Indexed) :
    (∃ parsed', reads.foldlM (parseLine env file config maxLineBytes) parsed = .ok parsed') ↔
      Along (parseLine env file config maxLineBytes) (StartFits env) parsed reads :=
  completes_iff_along (I := ParsedRollout.Indexed)
    (fun _ _ _ hbefore hok => indexed_parseLine hbefore hok)
    (fun before read hbefore =>
      (yields_parseLine env file config maxLineBytes before hbefore read).returns_iff) h

end

theorem replayParsed_completes (env : ReplayEnv) (path : Path) {parsed : ParsedRollout}
    (h : parsed.Indexed) (config : CollectConfig) (threads : Map ThreadBuilder)
    (dataset : RolloutDataset) (asOf : Option DateTime) (incompleteCounterBoundary : Bool) :
    replayParsed env path parsed config threads dataset asOf incompleteCounterBoundary =
      .ok (replayRolloutFile env path (parsed.toParsedFile parsed.events.toList) config threads
        dataset asOf incompleteCounterBoundary) := by
  have hiter : parsed.events.iter = .ok parsed.events.toList := by
    obtain ⟨events, hevents, rfl⟩ | ⟨_, _, hfalse⟩ :=
      (ParsedEvents.WellFormed.iter (D := fun _ => False) h).cases
    · exact hevents
    · exact hfalse.elim
  rw [replayParsed, hiter]
  rfl

/-! ## Table lookups -/

theorem hexAt_eq {nibble : Nat} (h : nibble < 16) : hexAt nibble = .ok (hexDigit nibble) := by
  have hlen : "0123456789abcdef".toList.length = 16 := by decide
  have hlt : nibble < "0123456789abcdef".toList.length := by omega
  rw [hexAt, hexDigit, List.getD_eq_getElem?_getD, List.getElem?_eq_getElem hlt]
  rfl

theorem lookupDigits_eq (digest : List UInt8) : lookupDigits digest = .ok (lowerHex digest) := by
  have hpair : (fun byte : UInt8 => do
      let high ← hexAt (byte.toNat / 16)
      let low ← hexAt (byte.toNat % 16)
      pure [high, low]) = fun byte => (pure [hexDigit (byte.toNat / 16), hexDigit (byte.toNat % 16)]
        : Except Panic (List Char)) := by
    funext byte
    have hbyte : byte.toNat < 256 := byte.toNat_lt
    rw [hexAt_eq (by omega), hexAt_eq (by omega)]
    rfl
  rw [lookupDigits, hpair, List.mapM_pure, lowerHex, List.flatMap_def]
  rfl

/-! ## A session created at the first instant -/

namespace Sample

def asciiBytes (text : String) : List UInt8 := text.toList.map fun c => c.toNat.toUInt8

/-- A forked session that was created at the first millisecond of the date range. -/
def oldestSessionLine : List UInt8 :=
  asciiBytes ("\x7b\"type\":\"session_meta\",\"payload\":\x7b\"id\":\"a\"," ++
    "\"timestamp\":-8334601228800000,\"parent_thread_id\":\"p\"\x7d\x7d")

def oldestSession : Json :=
  .object [("payload", .object [("id", .str "a"), ("parent_thread_id", .str "p"),
    ("timestamp", .int (-8334601228800000))]), ("type", .str "session_meta")]

def epochTaskLine : List UInt8 :=
  asciiBytes ("\x7b\"type\":\"event_msg\",\"payload\":\x7b\"type\":\"task_started\"," ++
    "\"started_at\":0\x7d\x7d")

def epochTask : Json :=
  .object [("payload", .object [("started_at", .int 0), ("type", .str "task_started")]),
    ("type", .str "event_msg")]

/-- The parser of the two lines, none of which holds a date as text or a float. -/
def parseEnv : ParseEnv where
  fromSlice line :=
    if line = oldestSessionLine then .ok oldestSession
    else if line = epochTaskLine then .ok epochTask
    else .error "expected value at line 1 column 1"
  parseFromRfc3339 _ := none
  floatOfInt _ := 0
  parseFloat _ := none
  timestampOfFloat _ := none
  remainingPercent _ := 0

def source : RolloutSource := ⟨["", "sessions", "rollout.jsonl"], ⟨0, by decide⟩⟩

def collectConfig : CollectConfig := ⟨["", "codex"], false, 0⟩

def replayEnv : ReplayEnv where
  sha256 _ := []
  parseTimestamp value := (parseTimestamp parseEnv value).map Subtype.val

end Sample

open Sample

/-! ## Completion -/

/-- **Completion**: a file is parsed and replayed without a panic exactly if no dated start is met
in foreign history with an owner created in the first two seconds of the date range. No identity
is cut inside of a character, and no digit is looked up outside of the table. -/
theorem parseAndReplay_completes_iff (env : ParseEnv) (replayEnv : ReplayEnv) (file : RolloutSource)
    (config : CollectConfig) (parsed : ParsedRollout) (hparsed : parsed.events.WellFormed)
    (reader : Reader) (maxLineBytes : Nat) (threads : Map ThreadBuilder) (dataset : RolloutDataset)
    (asOf : Option DateTime) (incompleteCounterBoundary : Bool) :
    ((∃ result, parseAndReplay env replayEnv file config parsed reader maxLineBytes threads dataset
        asOf incompleteCounterBoundary = .ok result) ↔
      Along (parseLine env file config maxLineBytes) (StartFits env) parsed
        (readLines maxLineBytes reader)) ∧
      (∀ value, ∃ timestamp, uuidV7TimestampMs value = .ok timestamp) ∧
      ∀ digest, lookupDigits digest = .ok (lowerHex digest) := by
  refine ⟨?_, fun value => ?_, lookupDigits_eq⟩
  · rw [← foldlM_completes_iff hparsed]
    constructor
    · rintro ⟨result, hresult⟩
      obtain ⟨ended, hended, -⟩ := bind_ok hresult
      obtain ⟨final, hfinal, -⟩ := bind_ok hended
      exact ⟨final, hfinal⟩
    · rintro ⟨final, hfinal⟩
      have hindexed : final.Indexed := indexed_foldlM hparsed hfinal
      rw [parseAndReplay, parseRolloutReaderWithLimit, hfinal, ok_bind]
      exact ⟨_, replayParsed_completes replayEnv file.path hindexed config threads dataset asOf
        incompleteCounterBoundary⟩
  · obtain ⟨timestamp, htimestamp, -⟩ | ⟨_, -, hfalse⟩ :=
      (yields_uuidV7TimestampMs (D := fun _ => False) value).cases
    · exact ⟨timestamp, htimestamp⟩
    · exact hfalse.elim

theorem oldest_session_completes : ∃ result,
    parseAndReplay parseEnv replayEnv source collectConfig .new
      ⟨oldestSessionLine, none⟩ rolloutMaxLineBytes ∅ default none false = .ok result := by
  refine (parseAndReplay_completes_iff parseEnv replayEnv source
    collectConfig .new ParsedEvents.wellFormed_new ⟨oldestSessionLine, none⟩
    rolloutMaxLineBytes ∅ default none false).1.2 ?_
  have hline : readBoundedLine ⟨oldestSessionLine, none⟩ rolloutMaxLineBytes =
      .ok (.line oldestSessionLine, ⟨[], none⟩) := by
    decide +kernel
  rw [readLines_line hline, readLines_eof rfl]
  exact ⟨fun _ _ _ hforeign => absurd hforeign (by decide), fun _ _ => trivial⟩

theorem dated_start_panics :
    parseRolloutReader parseEnv source collectConfig .new
      ⟨oldestSessionLine ++ newline :: epochTaskLine, none⟩ = .error .dateOverflow := by
  have hfirst : readBoundedLine ⟨oldestSessionLine ++ newline :: epochTaskLine, none⟩
      rolloutMaxLineBytes = .ok (.line oldestSessionLine, ⟨epochTaskLine, none⟩) := by
    decide +kernel
  have hsecond : readBoundedLine ⟨epochTaskLine, none⟩ rolloutMaxLineBytes =
      .ok (.line epochTaskLine, ⟨[], none⟩) := by
    decide +kernel
  have hlines : readLines rolloutMaxLineBytes
      ⟨oldestSessionLine ++ newline :: epochTaskLine, none⟩ =
        [.ok (.line oldestSessionLine), .ok (.line epochTaskLine)] := by
    rw [readLines_line hfirst, readLines_line hsecond, readLines_eof rfl]
  rw [parseRolloutReader, parseRolloutReaderWithLimit, hlines]
  rfl

end Rollout
