import UsageMonit.Rollout.Proof.Completes
import UsageMonit.Rollout.Tail

/-!
# Parsing on from a cut

A file is cut after a newline and parsed in two goes. The lines of the whole are those of the two
parts (`readLines_append`), a step neither reads nor changes whether the parse is complete
(`parseLine_withComplete`), and a record with a timestamp of its own does not depend on the time of
the file (`parseLine_congr`). So the second go continues the first.

For a file that only grows, every scan therefore caches what a fresh parse gives.
-/

namespace Rollout

open Fallible ParsedRollout

/-! ## Lines of a cut file -/

variable {maxBytes : Nat} {bytes : List UInt8}

/-- A place between two lines. -/
def AtLineStart (bytes : List UInt8) : Prop := ∀ last ∈ bytes.getLast?, last = newline

theorem readLines_read {reader reader' : Reader} {line : BoundedLine}
    (h : readBoundedLine reader maxBytes = .ok (line, reader')) (hne : line ≠ .eof) :
    readLines maxBytes reader = .ok line :: readLines maxBytes reader' := by
  rw [readLines]
  split <;> simp_all

theorem ended_ne_eof (state : LineState) : state.ended ≠ .eof := by
  unfold LineState.ended
  split <;> simp

theorem readLineFrom_append (state : LineState) (hmem : newline ∈ bytes) :
    ∃ line rest, line ≠ .eof ∧ rest <:+ bytes ∧ rest.length < bytes.length ∧
      ∀ failure suffix, readLineFrom maxBytes failure state (bytes ++ suffix) =
        .ok (line, rest ++ suffix) := by
  induction bytes generalizing state with
  | nil => cases hmem
  | cons byte bytes ih =>
    by_cases hbyte : byte = newline
    · refine ⟨{ state with sawBytes := true }.ended, bytes, ended_ne_eof _,
        List.suffix_cons _ _, by simp, fun failure suffix => ?_⟩
      rw [List.cons_append, readLineFrom, if_pos hbyte]
    · have hmem : newline ∈ bytes := (List.mem_cons.1 hmem).resolve_left (Ne.symm hbyte)
      have hnext : ∀ next : LineState, ∃ line rest, line ≠ .eof ∧ rest <:+ byte :: bytes ∧
          rest.length < (byte :: bytes).length ∧
          ∀ failure suffix, readLineFrom maxBytes failure next (bytes ++ suffix) =
            .ok (line, rest ++ suffix) := by
        intro next
        obtain ⟨line, rest, hne, hsuffix, hlt, hread⟩ := ih next hmem
        exact ⟨line, rest, hne, hsuffix.trans (List.suffix_cons _ _),
          Nat.lt_succ_of_lt hlt, hread⟩
      simp only [List.cons_append, readLineFrom, if_neg hbyte]
      by_cases hcr : byte = carriageReturn
      · simp only [if_pos hcr]
        exact hnext _
      · simp only [if_neg hcr]
        exact hnext _

theorem AtLineStart.mem (h : AtLineStart bytes) (hne : bytes ≠ []) : newline ∈ bytes := by
  have hlast := List.getLast?_eq_some_getLast hne
  rw [← h _ hlast]
  exact List.getLast_mem hne

theorem AtLineStart.suffix {rest : List UInt8} (h : AtLineStart bytes) (hrest : rest <:+ bytes) :
    AtLineStart rest := by
  obtain ⟨read, rfl⟩ := hrest
  intro last hlast
  apply h last
  rw [List.getLast?_append, hlast]
  rfl

/-- **The lines of a cut file** are those of its two parts. -/
theorem readLines_append (maxBytes : Nat) (hcut : AtLineStart bytes) (suffix : List UInt8)
    (failure : Option String) :
    readLines maxBytes ⟨bytes ++ suffix, failure⟩ =
      readLines maxBytes ⟨bytes, none⟩ ++ readLines maxBytes ⟨suffix, failure⟩ := by
  induction hlen : bytes.length using Nat.strong_induction_on generalizing bytes with
  | _ n ih =>
    by_cases hnil : bytes = []
    · subst hnil
      rw [show readLines maxBytes ⟨[], none⟩ = [] from readLines_eof rfl]
      rfl
    · obtain ⟨line, rest, hne, hsuffix, hlt, hread⟩ :=
        @readLineFrom_append maxBytes _ .new (hcut.mem hnil)
      have hwhole : readBoundedLine ⟨bytes ++ suffix, failure⟩ maxBytes =
          .ok (line, ⟨rest ++ suffix, failure⟩) := by
        rw [readBoundedLine, hread]
      have hpart : readBoundedLine ⟨bytes, none⟩ maxBytes = .ok (line, ⟨rest, none⟩) := by
        have := hread none []
        rw [List.append_nil, List.append_nil] at this
        rw [readBoundedLine, this]
      rw [readLines_read hwhole hne, readLines_read hpart hne, List.cons_append,
        ih rest.length (hlen ▸ hlt) (hcut.suffix hsuffix) rfl]

theorem readLineFrom_isOk (state : LineState) (bytes : List UInt8) :
    ∃ read, readLineFrom maxBytes none state bytes = .ok read := by
  induction bytes generalizing state with
  | nil => exact ⟨_, rfl⟩
  | cons byte bytes ih =>
    rw [readLineFrom]
    split
    · exact ⟨_, rfl⟩
    · split
      · exact ih _
      · exact ih _

theorem any_readLines (maxBytes : Nat) (bytes : List UInt8) :
    (readLines maxBytes ⟨bytes, none⟩).any isReadFailure = false := by
  induction hlen : bytes.length using Nat.strong_induction_on generalizing bytes with
  | _ n ih =>
    obtain ⟨⟨line, rest⟩, hread⟩ := @readLineFrom_isOk maxBytes .new bytes
    have hline : readBoundedLine ⟨bytes, none⟩ maxBytes = .ok (line, ⟨rest, none⟩) := by
      rw [readBoundedLine, hread]
    by_cases heof : line = .eof
    · rw [readLines_eof (heof ▸ hline)]
      rfl
    · rw [readLines_read hline heof, List.any_cons,
        ih rest.length (hlen ▸ readBoundedLine_length hline heof) rest rfl]
      rfl

/-! ## Whether a parse is complete -/

def ParsedRollout.withComplete (complete : Bool) (parsed : ParsedRollout) : ParsedRollout :=
  { parsed with complete := complete }

section
variable {env : ParseEnv} {file : RolloutSource} {config : CollectConfig} (complete : Bool)
  (parsed : ParsedRollout) (record : RolloutRecord)

@[simp] theorem withComplete_events :
    (parsed.withComplete complete).events = parsed.events := rfl

@[simp] theorem withComplete_warnings :
    (parsed.withComplete complete).warnings = parsed.warnings := rfl

@[simp] theorem withComplete_ownerThreadId :
    (parsed.withComplete complete).ownerThreadId = parsed.ownerThreadId := rfl

@[simp] theorem withComplete_owningCreatedAt :
    (parsed.withComplete complete).owningCreatedAt = parsed.owningCreatedAt := rfl

@[simp] theorem withComplete_replayingForeignHistory :
    (parsed.withComplete complete).replayingForeignHistory = parsed.replayingForeignHistory := rfl

@[simp] theorem withComplete_inheritForeignThreadSettings :
    (parsed.withComplete complete).inheritForeignThreadSettings =
      parsed.inheritForeignThreadSettings := rfl

theorem pushWarning_withComplete (warning : String) :
    (parsed.withComplete complete).pushWarning warning =
      (parsed.pushWarning warning).withComplete complete := by
  unfold ParsedRollout.pushWarning
  rw [withComplete_warnings]
  split_ifs <;> rfl

theorem skipLine_withComplete (warning : String) :
    (parsed.withComplete complete).skipLine warning =
      (parsed.skipLine warning).withComplete complete :=
  pushWarning_withComplete complete { parsed with skippedLines := parsed.skippedLines + 1 } warning

theorem pushEvent_withComplete (event : ParsedEvent) :
    (parsed.withComplete complete).pushEvent event =
      withComplete complete <$> parsed.pushEvent event := by
  unfold ParsedRollout.pushEvent
  rw [withComplete_events]
  cases parsed.events.push event <;> rfl

theorem pushSessionMeta_withComplete (payload : Json)
    (explicitTimestamp payloadTimestamp : Option Instant) :
    pushSessionMeta file (parsed.withComplete complete) payload explicitTimestamp
        payloadTimestamp =
      withComplete complete <$> pushSessionMeta file parsed payload explicitTimestamp
        payloadTimestamp := by
  unfold pushSessionMeta
  rw [← pushEvent_withComplete]
  cases explicitTimestamp.or payloadTimestamp <;> rfl

theorem parseSessionMeta_withComplete :
    parseSessionMeta env file (parsed.withComplete complete) record =
      withComplete complete <$> parseSessionMeta env file parsed record := by
  unfold parseSessionMeta
  cases record.payload with
  | none => rfl
  | some payload =>
    dsimp only
    cases stringFieldIn payload ["id"] with
    | none => exact congrArg Except.ok (pushWarning_withComplete complete parsed _)
    | some threadId =>
      rw [withComplete_ownerThreadId]
      cases parsed.ownerThreadId with
      | none =>
        exact pushSessionMeta_withComplete complete { parsed with
          owningCreatedAt := ((payload.get "timestamp").bind (parseTimestamp env)).or
            (some record.timestamp)
          ownerThreadId := some threadId
          replayingForeignHistory := isForkedSession payload
          inheritForeignThreadSettings := inheritsPlainThreadSpawnSettings payload threadId }
          payload _ _
      | some owner =>
        dsimp only
        split_ifs
        · exact pushSessionMeta_withComplete complete { parsed with
            ownerThreadId := some owner
            replayingForeignHistory := false } payload _ _
        · rfl

theorem retainForeignRecord_withComplete :
    retainForeignRecord (parsed.withComplete complete) record =
      withComplete complete <$> retainForeignRecord parsed record := by
  unfold retainForeignRecord
  rw [withComplete_events, withComplete_inheritForeignThreadSettings]
  split
  · rfl
  · cases record.payload with
    | none => rfl
    | some payload =>
      dsimp only
      split
      · cases totalTokenUsage payload with
        | none => rfl
        | some totalUsage =>
          dsimp only
          cases retainLatestForeignBaseline parsed.events record.timestamp.1 totalUsage <;> rfl
      · split_ifs
        · exact pushEvent_withComplete complete parsed _
        · rfl
      · rfl

theorem parseEventMessage_withComplete (payload : Json) (record : RolloutRecord) :
    parseEventMessage env config (parsed.withComplete complete) payload record =
      withComplete complete <$> parseEventMessage env config parsed payload record := by
  unfold parseEventMessage
  split
  · cases userMessagePreview config payload with
    | error panic => rfl
    | ok title =>
      cases title with
      | none => rfl
      | some title => exact pushEvent_withComplete complete parsed _
  · exact pushEvent_withComplete complete parsed _
  · cases subagentActivity payload with
    | some activity => exact pushEvent_withComplete complete parsed _
    | none =>
      unfold cacheEventMessage
      cases cachedEvent env payload record.timestamp.1 record.lineNumber with
      | none => rfl
      | some event => exact pushEvent_withComplete complete parsed event

theorem pushAgentCall_withComplete (payload : Json) (record : RolloutRecord) :
    pushAgentCall (parsed.withComplete complete) payload record =
      withComplete complete <$> pushAgentCall parsed payload record := by
  unfold pushAgentCall
  cases responseItemAgentCall payload with
  | none => rfl
  | some call => exact pushEvent_withComplete complete parsed _

theorem parseResponseItem_withComplete (payload : Json) (record : RolloutRecord) :
    parseResponseItem config (parsed.withComplete complete) payload record =
      withComplete complete <$> parseResponseItem config parsed payload record := by
  unfold parseResponseItem
  rw [pushAgentCall_withComplete]
  cases pushAgentCall parsed payload record with
  | error panic => rfl
  | ok parsed =>
    split
    · rfl
    · cases responseItemUserMessage payload with
      | error panic => rfl
      | ok message =>
        cases message with
        | none => rfl
        | some message => exact pushEvent_withComplete complete parsed _

theorem parseTypedRecord_withComplete :
    parseTypedRecord env file config (parsed.withComplete complete) record =
      withComplete complete <$> parseTypedRecord env file config parsed record := by
  unfold parseTypedRecord
  cases record.payload with
  | none => rfl
  | some payload =>
    dsimp only
    split
    · unfold parseUsageRecord
      cases requestUsage payload record.timestamp.1 with
      | some request => exact pushEvent_withComplete complete parsed _
      | none => exact congrArg Except.ok (skipLine_withComplete complete parsed _)
    · exact pushEvent_withComplete complete parsed _
    · exact parseEventMessage_withComplete complete parsed payload record
    · exact parseResponseItem_withComplete complete parsed payload record
    · rfl

theorem seeRecord_withComplete :
    seeRecord (parsed.withComplete complete) record =
      (seeRecord parsed record).withComplete complete := by
  unfold seeRecord
  cases record.explicitTimestamp with
  | some timestamp => rfl
  | none =>
    dsimp only
    split <;> rfl

theorem parseOwnRecord_withComplete (threadId : String) (record : RolloutRecord) :
    parseOwnRecord env file config threadId (parsed.withComplete complete) record =
      withComplete complete <$> parseOwnRecord env file config threadId parsed record := by
  unfold parseOwnRecord
  dsimp only
  rw [seeRecord_withComplete, parseTypedRecord_withComplete]
  split
  · rfl
  · cases parseTypedRecord env file config (seeRecord parsed record) record with
    | error panic => rfl
    | ok typed =>
      dsimp only [Functor.map, Except.map, bind, Except.bind]
      have hsame : (typed.withComplete complete).events.len =
          ((seeRecord parsed record).withComplete complete).events.len ↔
            typed.events.len = (seeRecord parsed record).events.len := Iff.rfl
      by_cases hlen : typed.events.len = (seeRecord parsed record).events.len
      · rw [if_pos hlen, if_pos (hsame.2 hlen)]
        exact pushEvent_withComplete complete typed _
      · rw [if_neg hlen, if_neg (mt hsame.1 hlen)]
        rfl

theorem parseRecord_withComplete :
    parseRecord env file config (parsed.withComplete complete) record =
      withComplete complete <$> parseRecord env file config parsed record := by
  unfold parseRecord
  split
  · exact parseSessionMeta_withComplete complete parsed record
  · rw [withComplete_ownerThreadId, withComplete_replayingForeignHistory,
      withComplete_owningCreatedAt]
    cases howner : parsed.ownerThreadId with
    | none => rfl
    | some threadId =>
      dsimp only
      split_ifs
      · exact parseOwnRecord_withComplete complete
          { parsed with
            ownerThreadId := some threadId
            replayingForeignHistory := false } threadId record
      · cases startsOwningSegment env record.recordType record.payload threadId
            parsed.owningCreatedAt with
        | error panic => rfl
        | ok starts =>
          dsimp only [bind, Except.bind]
          split_ifs
          · exact parseOwnRecord_withComplete complete
              { parsed with
                ownerThreadId := some threadId
                replayingForeignHistory := false } threadId record
          · exact retainForeignRecord_withComplete complete parsed record
      · exact parseOwnRecord_withComplete complete parsed threadId record

/-- **A step** neither reads nor changes whether the parse is complete. -/
theorem parseLine_withComplete (maxLineBytes : Nat) (read : Except String BoundedLine) :
    parseLine env file config maxLineBytes (parsed.withComplete complete) read =
      withComplete complete <$> parseLine env file config maxLineBytes parsed read := by
  unfold parseLine
  split
  · exact congrArg Except.ok (skipLine_withComplete complete
      { parsed with unreadableFiles := parsed.unreadableFiles + 1 } _)
  · rfl
  · exact congrArg Except.ok (skipLine_withComplete complete
      { parsed with sourceLines := parsed.sourceLines + 1 } _)
  next line =>
    unfold parseJsonLine
    cases env.fromSlice line with
    | error error => exact congrArg Except.ok (skipLine_withComplete complete
        { parsed with sourceLines := parsed.sourceLines + 1 } _)
    | ok value =>
      dsimp only
      cases value.asObject with
      | none => exact congrArg Except.ok (skipLine_withComplete complete
          { parsed with sourceLines := parsed.sourceLines + 1 } _)
      | some value =>
        exact parseRecord_withComplete complete
          { parsed with
            sourceLines := parsed.sourceLines + 1
            parsedLines := parsed.parsedLines + 1 } _

theorem foldlM_withComplete (maxLineBytes : Nat) (reads : List (Except String BoundedLine)) :
    reads.foldlM (parseLine env file config maxLineBytes) (parsed.withComplete complete) =
      withComplete complete <$> reads.foldlM (parseLine env file config maxLineBytes) parsed := by
  induction reads generalizing parsed with
  | nil => rfl
  | cons read reads ih =>
    rw [List.foldlM_cons, List.foldlM_cons, parseLine_withComplete]
    cases parseLine env file config maxLineBytes parsed read with
    | error panic => rfl
    | ok next => exact ih next

end

/-! ## The time of the file -/

/-- The record of a line, if it has one, carries a timestamp of its own. -/
def Stamped (env : ParseEnv) (read : Except String BoundedLine) : Prop :=
  ∀ value ∈ lineRecord env read, ((value.get "timestamp").bind (parseTimestamp env)).isSome

section
variable {env : ParseEnv} {file file' : RolloutSource} {config : CollectConfig}

theorem parseRecord_congr (path : Path) (time time' : Instant) (parsed : ParsedRollout)
    {record : RolloutRecord} (hexplicit : record.explicitTimestamp.isSome) :
    parseRecord env ⟨path, time⟩ config parsed record =
      parseRecord env ⟨path, time'⟩ config parsed record := by
  obtain ⟨timestamp, htimestamp⟩ := Option.isSome_iff_exists.1 hexplicit
  have hpush : ∀ (parsed : ParsedRollout) (payload : Json) (payloadTimestamp : Option Instant),
      pushSessionMeta ⟨path, time⟩ parsed payload record.explicitTimestamp payloadTimestamp =
        pushSessionMeta ⟨path, time'⟩ parsed payload record.explicitTimestamp payloadTimestamp := by
    intro parsed payload payloadTimestamp
    rw [htimestamp]
    cases payloadTimestamp <;> rfl
  unfold parseRecord parseSessionMeta
  simp only [hpush]
  rfl

theorem parseLine_congr (path : Path) (time time' : Instant) (maxLineBytes : Nat)
    (parsed : ParsedRollout) {read : Except String BoundedLine} (hstamped : Stamped env read) :
    parseLine env ⟨path, time⟩ config maxLineBytes parsed read =
      parseLine env ⟨path, time'⟩ config maxLineBytes parsed read := by
  unfold parseLine
  split
  · rfl
  · rfl
  · rfl
  next line =>
    unfold parseJsonLine
    cases hslice : env.fromSlice line with
    | error error => rfl
    | ok value =>
      dsimp only
      cases hobject : value.asObject with
      | none => rfl
      | some value =>
        have hsome := hstamped value (by simp [lineRecord, hslice, hobject])
        obtain ⟨timestamp, htimestamp⟩ := Option.isSome_iff_exists.1 hsome
        have hrecord : rolloutRecord env ⟨path, time⟩ (parsed.sourceLines + 1) value =
            rolloutRecord env ⟨path, time'⟩ (parsed.sourceLines + 1) value := by
          simp only [rolloutRecord, htimestamp, Option.getD_some]
        dsimp only
        rw [hrecord]
        exact parseRecord_congr path time time' _ hsome

theorem foldlM_congr (hpath : file.path = file'.path) (maxLineBytes : Nat)
    {reads : List (Except String BoundedLine)} (hstamped : ∀ read ∈ reads, Stamped env read)
    (parsed : ParsedRollout) :
    reads.foldlM (parseLine env file config maxLineBytes) parsed =
      reads.foldlM (parseLine env file' config maxLineBytes) parsed := by
  obtain ⟨path, time⟩ := file
  obtain ⟨_, time'⟩ := file'
  obtain rfl : path = _ := hpath
  induction reads generalizing parsed with
  | nil => rfl
  | cons read reads ih =>
    rw [List.foldlM_cons, List.foldlM_cons,
      parseLine_congr path time time' maxLineBytes parsed (hstamped read List.mem_cons_self)]
    cases parseLine env ⟨path, time'⟩ config maxLineBytes parsed read with
    | error panic => rfl
    | ok next => exact ih (fun read hread => hstamped read (List.mem_cons_of_mem _ hread)) next

/-! ## Two goes -/

theorem parseRolloutReader_eq (parsed : ParsedRollout) (reader : Reader) :
    parseRolloutReader env file config parsed reader =
      withComplete (!(readLines rolloutMaxLineBytes reader).any isReadFailure) <$>
        (readLines rolloutMaxLineBytes reader).foldlM
          (parseLine env file config rolloutMaxLineBytes) parsed := rfl

/-- Where a parse goes on, it does not matter whether it was complete. -/
theorem parseRolloutReader_withComplete (complete : Bool) (parsed : ParsedRollout)
    (reader : Reader) :
    parseRolloutReader env file config (parsed.withComplete complete) reader =
      parseRolloutReader env file config parsed reader := by
  rw [parseRolloutReader_eq, parseRolloutReader_eq, foldlM_withComplete]
  cases (readLines rolloutMaxLineBytes reader).foldlM
    (parseLine env file config rolloutMaxLineBytes) parsed <;> rfl

theorem parseRolloutReader_congr (hpath : file.path = file'.path) (parsed : ParsedRollout)
    {reader : Reader} (hstamped : ∀ read ∈ readLines rolloutMaxLineBytes reader, Stamped env read) :
    parseRolloutReader env file config parsed reader =
      parseRolloutReader env file' config parsed reader := by
  rw [parseRolloutReader_eq, parseRolloutReader_eq, foldlM_congr hpath _ hstamped]

/-- **A file that is cut after a line** is parsed in two goes as it is in one. -/
theorem parseRolloutReader_append (parsed : ParsedRollout) (hcut : AtLineStart bytes)
    (suffix : List UInt8) (failure : Option String) :
    (parseRolloutReader env file config parsed ⟨bytes, none⟩ >>= fun parsed =>
        parseRolloutReader env file config parsed ⟨suffix, failure⟩) =
      parseRolloutReader env file config parsed ⟨bytes ++ suffix, failure⟩ := by
  rw [parseRolloutReader_eq parsed, parseRolloutReader_eq parsed, readLines_append _ hcut,
    List.any_append, any_readLines, Bool.false_or, List.foldlM_append]
  cases (readLines rolloutMaxLineBytes ⟨bytes, none⟩).foldlM
    (parseLine env file config rolloutMaxLineBytes) parsed with
  | error panic => rfl
  | ok middle => exact parseRolloutReader_withComplete _ middle _

end

/-! ## Files that only grow -/

/-- What a file that grows to `content` holds when it is inspected. -/
def InspectedFile.shown (content : List UInt8) (file : InspectedFile) : List UInt8 :=
  content.take file.fingerprint.len

/-- A scan of a file that grows to `content`, and not while it is read. -/
structure FileScan.Rests (content : List UInt8) (path : Path) (scan : FileScan) : Prop where
  path_eq : scan.file.path = path
  len_le : scan.file.fingerprint.len ≤ content.length
  tail : ∀ reader ∈ scan.first.tailOpened, reader = ⟨scan.file.shown content, none⟩
  opened : scan.first.opened = .ok ⟨scan.file.shown content, none⟩
  after : scan.first.after = .ok scan.file
  guarded : scan.first.guardOpened = .ok ⟨scan.file.shown content, none⟩
  final : ∀ file ∈ scan.first.final, file = scan.file

/-- The records of the file carry timestamps when it is scanned. -/
def FileScan.Stamped (env : ParseEnv) (content : List UInt8) (scan : FileScan) : Prop :=
  ∀ read ∈ readLines rolloutMaxLineBytes ⟨scan.file.shown content, none⟩, Rollout.Stamped env read

/-- A cached parse is that of the file, as long as it was then. -/
structure CachedRollout.Faithful (env : ParseEnv) (config : CollectConfig) (content : List UInt8)
    (path : Path) (cached : CachedRollout) : Prop where
  parsed : ∀ file : RolloutSource, file.path = path →
    parseRolloutReader env file config .new ⟨content.take cached.fingerprint.len, none⟩ =
      .ok cached.parsed.toParsedRollout
  line : cached.parsed.endsWithNewline = true →
    AtLineStart (content.take cached.fingerprint.len)

section
variable {env : ParseEnv} {config : CollectConfig} {content : List UInt8} {path : Path}
  {scan : FileScan} {cached : Option CachedRollout}

theorem FileScan.Rests.length (h : scan.Rests content path) :
    (scan.file.shown content).length = scan.file.fingerprint.len := by
  rw [InspectedFile.shown, List.length_take]
  have hlen := h.len_le
  omega

/-! ## A parse of a candidate -/

def FileScan.parse (env : ParseEnv) (config : CollectConfig) (content : List UInt8)
    (scan : FileScan) : Except Panic ParsedRollout :=
  parseRolloutReader env scan.file.toRolloutSource config .new ⟨scan.file.shown content, none⟩

theorem toParsedRollout_parse (file : InspectedFile) (parsed : GuardedRollout) (reader : Reader) :
    GuardedRollout.toParsedRollout <$> parsed.parse env file config reader =
      parseRolloutReader env file.toRolloutSource config parsed.toParsedRollout reader := by
  unfold GuardedRollout.parse
  cases parseRolloutReader env file.toRolloutSource config parsed.toParsedRollout reader <;> rfl

theorem toParsedRollout_parseRolloutFile (h : scan.Rests content path) :
    GuardedRollout.toParsedRollout <$> parseRolloutFile env scan.file config scan.first.opened =
      scan.parse env config content := by
  rw [h.opened]
  exact toParsedRollout_parse _ _ _

theorem toParsedRollout_parseTail (h : scan.Rests content path) {previous : CachedRollout}
    (hprevious : previous.Faithful env config content path)
    (hcan : canTailParse scan.file previous = true) :
    GuardedRollout.toParsedRollout <$>
        GuardedRollout.parse env scan.file config { previous.parsed with complete := false }
          ⟨(scan.file.shown content).drop previous.fingerprint.len, none⟩ =
      scan.parse env config content := by
  simp only [canTailParse, Bool.and_eq_true, decide_eq_true_eq] at hcan
  obtain ⟨⟨⟨⟨-, hline⟩, hlt⟩, -⟩, -⟩ := hcan
  have hprefix : (scan.file.shown content).take previous.fingerprint.len =
      content.take previous.fingerprint.len := by
    rw [InspectedFile.shown, List.take_take, Nat.min_eq_left hlt.le]
  have hwhole := @parseRolloutReader_append _ env scan.file.toRolloutSource config .new
    (hprevious.line hline)
    ((scan.file.shown content).drop previous.fingerprint.len) none
  rw [hprevious.parsed _ h.path_eq, ok_bind, ← hprefix, List.take_append_drop] at hwhole
  rw [toParsedRollout_parse]
  exact (parseRolloutReader_withComplete false _ _).trans hwhole

/-- **A candidate** is parsed to what a fresh parse gives. -/
theorem toParsedRollout_parseRolloutCandidate (h : scan.Rests content path)
    (hcached : ∀ kept ∈ cached, kept.Faithful env config content path) :
    GuardedRollout.toParsedRollout <$> parseRolloutCandidate env scan.file config cached scan.first =
      scan.parse env config content := by
  unfold parseRolloutCandidate
  split
  · exact toParsedRollout_parseRolloutFile h
  next previous hfilter =>
    obtain ⟨hsome, hcan⟩ := Option.filter_eq_some_iff.1 hfilter
    unfold parseRolloutTail
    dsimp only
    split
    · exact toParsedRollout_parseRolloutFile h
    next reader hreader =>
      obtain rfl := h.tail reader (Option.filter_eq_some_iff.1 hreader).1
      rw [← toParsedRollout_parseTail h (hcached previous hsome) hcan]
      cases GuardedRollout.parse env scan.file config { previous.parsed with complete := false }
        ⟨(scan.file.shown content).drop previous.fingerprint.len, none⟩ <;> rfl

/-! ## Guards -/

theorem getLast?_bytesBefore {len : Nat} (hpos : 0 < len) (hle : len ≤ bytes.length) :
    (bytesBefore bytes bytes.length len).getLast? = bytes.getLast? := by
  have hguard : (bytesBefore bytes bytes.length len).length = len := by
    rw [bytesBefore, List.length_take, List.length_drop]
    omega
  rw [List.getLast?_eq_getElem?, List.getLast?_eq_getElem?, hguard, bytesBefore,
    List.getElem?_take_of_lt (by omega), List.getElem?_drop]
  congr 1
  omega

/-- A guard of the whole file tells whether it ends a line. -/
theorem updateTailGuard_whole (parsed : GuardedRollout) (bytes : List UInt8) :
    ∃ guarded, updateTailGuard parsed bytes.length (.ok ⟨bytes, none⟩) = .ok guarded ∧
      guarded.toParsedRollout = parsed.toParsedRollout ∧
      (guarded.endsWithNewline = true → AtLineStart bytes) := by
  unfold updateTailGuard
  split
  next hzero => exact ⟨_, rfl, rfl, fun hline => by cases hline⟩
  next hpos =>
    dsimp only
    rw [if_neg (Nat.lt_irrefl _)]
    refine ⟨_, rfl, rfl, fun hline last hlast => ?_⟩
    have hguard : (bytesBefore bytes bytes.length (min bytes.length tailGuardBytes)).getLast? =
        some newline := of_decide_eq_true hline
    have hbytes : 0 < tailGuardBytes := by decide
    rw [getLast?_bytesBefore (by omega) (by omega)] at hguard
    exact Option.some.inj (hlast.symm.trans hguard)

theorem parse_complete {file : RolloutSource} {parsed parsed' : ParsedRollout}
    (h : parseRolloutReader env file config parsed ⟨bytes, none⟩ = .ok parsed') :
    parsed'.complete = true := by
  rw [parseRolloutReader_eq, any_readLines] at h
  obtain ⟨folded, -, rfl⟩ := map_ok h
  rfl

/-! ## Scans -/

/-- **A refresh** of a file at rest: a fresh parse, under the fingerprint of the file. -/
theorem refresh_rests (h : scan.Rests content path)
    (hcached : ∀ kept ∈ cached, kept.Faithful env config content path) :
    (∃ panic, refreshStableRolloutFile env config scan.file cached scan.first scan.second =
        .error panic ∧ scan.parse env config content = .error panic) ∨
      ∃ kept, refreshStableRolloutFile env config scan.file cached scan.first scan.second =
          .ok kept ∧ scan.parse env config content = .ok kept.parsed.toParsedRollout ∧
        kept.fingerprint = scan.file.fingerprint ∧
        (kept.parsed.endsWithNewline = true → AtLineStart (scan.file.shown content)) := by
  have hparse := toParsedRollout_parseRolloutCandidate h hcached
  unfold refreshStableRolloutFile attemptParse
  cases hcandidate : parseRolloutCandidate env scan.file config cached scan.first with
  | error panic =>
    rw [hcandidate] at hparse
    exact .inl ⟨panic, rfl, hparse.symm⟩
  | ok parsed =>
    rw [hcandidate] at hparse
    have hcomplete : parsed.complete = true := parse_complete hparse.symm
    obtain ⟨guarded, hguarded, hsame, hline⟩ :=
      updateTailGuard_whole parsed (scan.file.shown content)
    have hguard : guardTail scan.file parsed scan.file.fingerprint.len scan.first.guardOpened =
        guarded := by
      unfold guardTail
      rw [if_pos hcomplete, h.guarded, ← h.length, hguarded]
    have hfinal : scan.first.final.getD scan.file = scan.file := by
      cases hlast : scan.first.final with
      | none => rfl
      | some file => exact h.final file hlast
    refine .inr ⟨⟨scan.file.fingerprint, guarded⟩, ?_, hsame ▸ hparse.symm, rfl, hline⟩
    rw [ok_bind, h.after]
    dsimp only
    rw [if_pos rfl, hguard, hfinal, if_pos rfl]
    rfl

/-- **A scan** keeps a fresh parse of the file, under its fingerprint. -/
theorem scanFile_rests (h : scan.Rests content path) (hstamped : scan.Stamped env content)
    (hcached : ∀ kept ∈ cached, kept.Faithful env config content path) :
    (∃ panic, scanFile env config cached scan = .error panic ∧
        scan.parse env config content = .error panic) ∨
      ∃ kept, scanFile env config cached scan = .ok (some kept) ∧
        scan.parse env config content = .ok kept.parsed.toParsedRollout ∧
        kept.fingerprint = scan.file.fingerprint ∧ kept.Faithful env config content path := by
  unfold scanFile
  split
  next kept hkept =>
    obtain ⟨hsome, hsame⟩ := Option.filter_eq_some_iff.1 hkept
    simp only [Bool.and_eq_true, decide_eq_true_eq] at hsame
    have hfaithful := hcached kept hsome
    have hparse := hfaithful.parsed scan.file.toRolloutSource h.path_eq
    rw [hsame.1] at hparse
    exact .inr ⟨kept, rfl, hparse, hsame.1, hfaithful⟩
  · obtain ⟨panic, hrefresh, hparse⟩ | ⟨kept, hrefresh, hparse, hfingerprint, hline⟩ :=
      refresh_rests h hcached
    · exact .inl ⟨panic, by rw [hrefresh]; rfl, hparse⟩
    · refine .inr ⟨kept, by rw [hrefresh]; rfl, hparse, hfingerprint, fun file hfile => ?_, ?_⟩
      · rw [hfingerprint, ← hparse]
        exact (parseRolloutReader_congr (h.path_eq.trans hfile.symm) .new hstamped).symm
      · rw [hfingerprint]
        exact hline

/-- **A run of scans** of a growing file keeps faithful parses only. -/
theorem scans_faithful {scans : List FileScan} (hrests : ∀ scan ∈ scans, scan.Rests content path)
    (hstamped : ∀ scan ∈ scans, scan.Stamped env content)
    (hcached : ∀ kept ∈ cached, kept.Faithful env config content path)
    {cached' : Option CachedRollout} (h : scans.foldlM (scanFile env config) cached = .ok cached') :
    ∀ kept ∈ cached', kept.Faithful env config content path := by
  induction scans generalizing cached with
  | nil =>
    cases h
    exact hcached
  | cons scan scans ih =>
    rw [List.foldlM_cons] at h
    obtain ⟨next, hscan, h⟩ := bind_ok h
    refine ih (fun scan hscan => hrests scan (List.mem_cons_of_mem _ hscan))
      (fun scan hscan => hstamped scan (List.mem_cons_of_mem _ hscan)) (fun kept hkept => ?_) h
    obtain ⟨panic, herror, -⟩ | ⟨kept', hok, -, -, hfaithful⟩ := scanFile_rests
      (hrests scan List.mem_cons_self) (hstamped scan List.mem_cons_self) hcached
    · rw [hscan] at herror
      cases herror
    · obtain rfl : next = some kept' := Except.ok.inj (hscan.symm.trans hok)
      exact Option.some.inj hkept ▸ hfaithful

end

/-! ## A session with a turn -/

namespace Sample

def stampedSessionLine : List UInt8 :=
  asciiBytes "\x7b\"type\":\"session_meta\",\"timestamp\":0,\"payload\":\x7b\"id\":\"a\"\x7d\x7d"

def stampedSession : Json :=
  .object [("payload", .object [("id", .str "a")]), ("timestamp", .int 0),
    ("type", .str "session_meta")]

def stampedTurnLine : List UInt8 :=
  asciiBytes ("\x7b\"type\":\"turn_context\",\"timestamp\":1000," ++
    "\"payload\":\x7b\"turn_id\":\"t\"\x7d\x7d")

def stampedTurn : Json :=
  .object [("payload", .object [("turn_id", .str "t")]), ("timestamp", .int 1000),
    ("type", .str "turn_context")]

def stampedEnv : ParseEnv :=
  { parseEnv with
    fromSlice := fun line =>
      if line = stampedSessionLine then .ok stampedSession
      else if line = stampedTurnLine then .ok stampedTurn
      else .error "expected value at line 1 column 1" }

def stampedLog : List UInt8 := stampedSessionLine ++ newline :: stampedTurnLine

/-- The file after a second. -/
def touched : RolloutSource := { source with modifiedAt := ⟨1000, by decide⟩ }

def loggedFile (len : Nat) : InspectedFile := ⟨source, ⟨len, 0, 0, 0, 0, 0⟩⟩

/-- The file rests when it holds so many bytes. -/
def restingAttempt (len : Nat) : Attempt :=
  let reader : Reader := ⟨stampedLog.take len, none⟩
  ⟨some reader, .ok reader, .ok (loggedFile len), .ok reader, some (loggedFile len)⟩

def restingScan (len : Nat) : FileScan := ⟨loggedFile len, restingAttempt len, restingAttempt len⟩

def halfScan : FileScan := restingScan (stampedSessionLine.length + 1)

def wholeScan : FileScan := restingScan stampedLog.length

theorem restingScan_rests {len : Nat} (hlen : len ≤ stampedLog.length) :
    (restingScan len).Rests stampedLog source.path := by
  refine ⟨rfl, hlen, ?_, rfl, rfl, rfl, ?_⟩
  · intro reader hreader
    cases hreader
    rfl
  · intro file hfile
    cases hfile
    rfl

theorem stamped_sessionLine : Stamped stampedEnv (.ok (.line stampedSessionLine)) := by
  unfold Stamped
  decide +kernel

theorem stamped_turnLine : Stamped stampedEnv (.ok (.line stampedTurnLine)) := by
  unfold Stamped
  decide +kernel

theorem stamped_half :
    ∀ read ∈ readLines rolloutMaxLineBytes ⟨stampedSessionLine ++ [newline], none⟩,
      Stamped stampedEnv read := by
  have hline : readBoundedLine ⟨stampedSessionLine ++ [newline], none⟩ rolloutMaxLineBytes =
      .ok (.line stampedSessionLine, ⟨[], none⟩) := by
    decide +kernel
  rw [readLines_line hline, readLines_eof rfl]
  intro read hread
  obtain rfl := List.mem_singleton.1 hread
  exact stamped_sessionLine

theorem halfScan_stamped : halfScan.Stamped stampedEnv stampedLog := by
  have hbytes : halfScan.file.shown stampedLog = stampedSessionLine ++ [newline] := by
    decide +kernel
  rw [FileScan.Stamped, hbytes]
  exact stamped_half

theorem wholeScan_stamped : wholeScan.Stamped stampedEnv stampedLog := by
  have hbytes : wholeScan.file.shown stampedLog = stampedLog := List.take_length
  have hfirst : readBoundedLine ⟨stampedLog, none⟩ rolloutMaxLineBytes =
      .ok (.line stampedSessionLine, ⟨stampedTurnLine, none⟩) := by
    decide +kernel
  have hsecond : readBoundedLine ⟨stampedTurnLine, none⟩ rolloutMaxLineBytes =
      .ok (.line stampedTurnLine, ⟨[], none⟩) := by
    decide +kernel
  rw [FileScan.Stamped, hbytes, readLines_line hfirst, readLines_line hsecond, readLines_eof rfl]
  intro read hread
  rcases List.mem_pair.1 hread with rfl | rfl
  · exact stamped_sessionLine
  · exact stamped_turnLine

end Sample

open Sample


/-! ## Tails -/

/-- **Tail parsing is full parsing.** A file whose records carry their timestamps, cut after a
newline, is parsed in two goes as it is in one, whenever it was modified. So after any scans of a
file that only grows, the next one caches exactly what a fresh parse of the file gives, or panics
where it does. -/
theorem tail_parse_is_full_parse (env : ParseEnv) (config : CollectConfig) :
    (∀ (file file' : RolloutSource) (parsed : ParsedRollout) (body suffix : List UInt8)
        (failure : Option String), file.path = file'.path →
      (∀ read ∈ readLines rolloutMaxLineBytes ⟨body ++ [newline], none⟩, Stamped env read) →
      (parseRolloutReader env file config parsed ⟨body ++ [newline], none⟩ >>= fun parsed =>
          parseRolloutReader env file' config parsed ⟨suffix, failure⟩) =
        parseRolloutReader env file' config parsed ⟨body ++ newline :: suffix, failure⟩) ∧
    ∀ (content : List UInt8) (path : Path) (scans : List FileScan) (last : FileScan),
      (∀ scan ∈ scans ++ [last], scan.Rests content path) →
      (∀ scan ∈ scans ++ [last], scan.Stamped env content) →
      (Option.map fun kept => (kept.fingerprint, kept.parsed.toParsedRollout)) <$>
          (scans ++ [last]).foldlM (scanFile env config) none =
        scans.foldlM (scanFile env config) none >>= fun _ =>
          (fun parsed => some (last.file.fingerprint, parsed)) <$> last.parse env config content := by
  refine ⟨fun file file' parsed body suffix failure hpath hstamped => ?_,
    fun content path scans last hrests hstamped => ?_⟩
  · have hcut : AtLineStart (body ++ [newline]) := by
      intro byte hbyte
      rw [List.getLast?_concat] at hbyte
      exact (Option.some.inj hbyte).symm
    rw [parseRolloutReader_congr hpath parsed hstamped, parseRolloutReader_append parsed hcut,
      List.append_assoc]
    rfl
  · rw [List.foldlM_append]
    cases hscans : scans.foldlM (scanFile env config) none with
    | error panic => rfl
    | ok cached =>
      have hlast : last ∈ scans ++ [last] := List.mem_append_right _ List.mem_cons_self
      have hcached := scans_faithful
        (fun scan hscan => hrests scan (List.mem_append_left _ hscan))
        (fun scan hscan => hstamped scan (List.mem_append_left _ hscan))
        (fun _ hnone => by cases hnone) hscans
      rw [ok_bind, ok_bind, List.foldlM_cons]
      obtain ⟨panic, hscan, hparse⟩ | ⟨kept, hscan, hparse, hfingerprint, -⟩ :=
        scanFile_rests (hrests last hlast) (hstamped last hlast) hcached
      · rw [hscan, hparse]
        rfl
      · rw [hscan, hparse, ← hfingerprint]
        rfl

theorem tail_parse_sample :
    ((parseRolloutReader stampedEnv source collectConfig .new
        ⟨stampedSessionLine ++ [newline], none⟩ >>= fun parsed =>
          parseRolloutReader stampedEnv touched collectConfig parsed ⟨stampedTurnLine, none⟩) =
      parseRolloutReader stampedEnv touched collectConfig .new ⟨stampedLog, none⟩) ∧
    (Option.map fun kept => (kept.fingerprint, kept.parsed.toParsedRollout)) <$>
        ([halfScan] ++ [wholeScan]).foldlM (scanFile stampedEnv collectConfig) none =
      [halfScan].foldlM (scanFile stampedEnv collectConfig) none >>= fun _ =>
        (fun parsed => some (wholeScan.file.fingerprint, parsed)) <$>
          wholeScan.parse stampedEnv collectConfig stampedLog := by
  refine ⟨(tail_parse_is_full_parse stampedEnv collectConfig).1 source touched .new
    stampedSessionLine stampedTurnLine none rfl stamped_half,
    (tail_parse_is_full_parse stampedEnv collectConfig).2 stampedLog source.path [halfScan]
      wholeScan ?_ ?_⟩
  · intro scan hscan
    rcases List.mem_pair.1 hscan with rfl | rfl
    · exact restingScan_rests (by decide +kernel)
    · exact restingScan_rests le_rfl
  · intro scan hscan
    rcases List.mem_pair.1 hscan with rfl | rfl
    · exact halfScan_stamped
    · exact wholeScan_stamped

end Rollout
