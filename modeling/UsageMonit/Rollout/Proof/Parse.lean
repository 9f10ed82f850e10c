import UsageMonit.Lib.Outcome
import UsageMonit.Rollout.Parse

/-!
# What the parser of a rollout file can panic on

A step of the parse keeps the events well formed, so that no index leaves the chunks, and slices
texts at boundaries only. It panics exactly when a record is measured against a creation time from
which the tolerance cannot be subtracted (`yields_parseLine`); a whole parse completes exactly when
no step does (`completes_iff_along`), and the replay of what it returns always completes.
-/

namespace Rollout

open Fallible Text Time Usage Utf8

variable {D : Panic → Prop} {parsed : ParsedRollout} (env : ParseEnv) (file : RolloutSource)
  (config : CollectConfig)

/-! ## Slices -/

theorem yields_slice {value : String} {start stop : Nat} (hstart : IsBoundary value start)
    (hstop : IsBoundary value stop) (hle : start ≤ stop) :
    Yields (slice value start stop) D fun _ => True := by
  obtain ⟨part, hpart⟩ := slice?_eq_some hstart hstop hle
  rw [slice, hpart]
  exact yields_ok trivial

theorem yields_uuidV7TimestampMs (value : String) :
    Yields (uuidV7TimestampMs value) D fun _ => True := by
  unfold uuidV7TimestampMs
  dsimp only
  split
  next hvalid =>
    obtain ⟨-, h8, h13, -⟩ := hvalid
    obtain ⟨hbefore, hafter⟩ := isBoundary_of_ascii h8 (by decide)
    obtain ⟨hend, -⟩ := isBoundary_of_ascii h13 (by decide)
    refine (yields_slice isBoundary_zero hbefore (by omega)).bind fun high _ => ?_
    refine (yields_slice hafter hend (by omega)).bind fun low _ => ?_
    exact yields_pure trivial
  next => exact yields_ok trivial

theorem mem_of_foldl_laterMarker {found : List (Nat × String)} {best : Option (Nat × String)}
    {marker : Nat × String} (h : found.foldl laterMarker best = some marker) :
    marker ∈ found ∨ best = some marker := by
  induction found generalizing best with
  | nil => exact Or.inr h
  | cons next found ih =>
    rcases ih h with hmem | hbest
    · exact Or.inl (List.mem_cons_of_mem _ hmem)
    · cases best with
      | none =>
        obtain rfl : next = marker := Option.some.inj hbest
        exact Or.inl List.mem_cons_self
      | some best =>
        have hlater : (if next.1 ≥ best.1 then next else best) = marker := Option.some.inj hbest
        split at hlater
        · exact Or.inl (hlater ▸ List.mem_cons_self)
        · exact Or.inr (congrArg some hlater)

theorem rfind_lastMarker {value marker : String} {index : Nat}
    (h : lastMarker value = some (index, marker)) : rfind value marker = some index := by
  rcases mem_of_foldl_laterMarker h with hmem | hnone
  · obtain ⟨marker', -, hfind⟩ := List.mem_filterMap.1 hmem
    obtain ⟨n, hn, heq⟩ := Option.map_eq_some_iff.1 hfind
    obtain ⟨rfl, rfl⟩ := Prod.mk.inj heq
    exact hn
  · cases hnone

theorem yields_userAuthoredInputText (text : String) :
    Yields (userAuthoredInputText text) D fun _ => True := by
  unfold userAuthoredInputText
  dsimp only
  split
  · exact yields_ok trivial
  · split
    · exact yields_ok trivial
    next index marker hmarker =>
      obtain ⟨-, hafter⟩ := isBoundary_of_rfind (rfind_lastMarker hmarker)
      have hle : index + marker.utf8ByteSize ≤ (trim text).utf8ByteSize := hafter.le_utf8ByteSize
      refine (yields_slice hafter isBoundary_size hle).bind fun rest _ => ?_
      exact yields_pure trivial

/-! ## Events -/

namespace ParsedRollout

/-- The events of the file are well formed. -/
def Indexed (parsed : ParsedRollout) : Prop := parsed.events.WellFormed

@[simp] theorem pushWarning_events (parsed : ParsedRollout) (warning : String) :
    (parsed.pushWarning warning).events = parsed.events := by
  unfold pushWarning
  split <;> rfl

@[simp] theorem skipLine_events (parsed : ParsedRollout) (warning : String) :
    (parsed.skipLine warning).events = parsed.events := by
  simp [skipLine]

theorem Indexed.pushEvent (h : parsed.Indexed) (event : ParsedEvent) :
    Yields (parsed.pushEvent event) D Indexed := by
  refine (ParsedEvents.WellFormed.push h event).bind fun events hevents => ?_
  exact yields_pure hevents

end ParsedRollout

open ParsedRollout

theorem seeRecord_events (parsed : ParsedRollout) (record : RolloutRecord) :
    (seeRecord parsed record).events = parsed.events := by
  unfold seeRecord
  split
  · rfl
  · split <;> rfl

/-! ## Foreign history -/

theorem yields_locateBaseline {events : ParsedEvents} (h : events.WellFormed) {n : Nat}
    (hn : n ≤ events.len) :
    Yields (locateBaseline events n) D fun found => ∀ i ∈ found, i < events.len ∧
      ∃ timestamp usage, events.index i = .ok (.foreignCounterBaseline timestamp usage) := by
  induction n with
  | zero => exact yields_ok (by simp)
  | succ n ih =>
    refine (h.index (by omega)).with_eq.bind fun event hevent => ?_
    split
    · refine yields_pure fun i hi => ?_
      obtain rfl : n = i := Option.some.inj hi
      exact ⟨by omega, _, _, hevent.1⟩
    · exact ih (by omega)
    · exact ih (by omega)
    · exact yields_pure (by simp)

theorem yields_retainLatestForeignBaseline {events : ParsedEvents} (h : events.WellFormed)
    (timestamp : DateTime) (totalUsage : TokenUsage) :
    Yields (retainLatestForeignBaseline events timestamp totalUsage) D fun retained =>
      retained.1.WellFormed := by
  refine (yields_locateBaseline h le_rfl).bind fun found hfound => ?_
  cases found with
  | none => exact (h.push _).bind fun events' hevents' => yields_pure hevents'
  | some i =>
    obtain ⟨hlt, previous, usage, hindex⟩ := hfound i rfl
    refine (h.getMut hlt).bind fun event ⟨e, hevent, hread⟩ => ?_
    obtain rfl : .foreignCounterBaseline previous usage = e :=
      Except.ok.inj (hindex.symm.trans hread)
    subst hevent
    exact yields_pure (h.write i _)

theorem yields_retainForeignRecord (h : parsed.Indexed) (record : RolloutRecord) :
    Yields (retainForeignRecord parsed record) D Indexed := by
  unfold retainForeignRecord
  split
  · exact yields_ok h
  · split
    · exact yields_ok h
    · split
      · split
        · exact yields_ok h
        · refine (yields_retainLatestForeignBaseline h _ _).bind fun retained hretained => ?_
          exact yields_pure hretained
      · split
        · exact h.pushEvent _
        · exact yields_ok h
      · exact yields_ok h

/-! ## Records of the owner -/

theorem yields_responseItemUserMessage (payload : Json) :
    Yields (responseItemUserMessage payload) D fun _ => True := by
  unfold responseItemUserMessage
  split
  · exact yields_ok trivial
  · split
    · exact yields_ok trivial
    · refine (yields_mapM (R := fun _ _ => True) fun text _ => yields_userAuthoredInputText text).bind
        fun authored _ => ?_
      exact yields_pure trivial

theorem yields_userMessagePreview (payload : Json) :
    Yields (userMessagePreview config payload) D fun _ => True := by
  unfold userMessagePreview
  split
  · exact yields_ok trivial
  · split
    · exact yields_ok trivial
    · refine (yields_userAuthoredInputText _).bind fun authored _ => ?_
      exact yields_pure trivial

theorem yields_parseEventMessage (h : parsed.Indexed) (payload : Json) (record : RolloutRecord) :
    Yields (parseEventMessage env config parsed payload record) D Indexed := by
  unfold parseEventMessage
  split
  · refine (yields_userMessagePreview config payload).bind fun title _ => ?_
    cases title with
    | none => exact yields_pure h
    | some title => exact h.pushEvent _
  · exact h.pushEvent _
  · split
    · exact h.pushEvent _
    · unfold cacheEventMessage
      split
      · exact yields_ok h
      · exact h.pushEvent _

theorem yields_parseResponseItem (h : parsed.Indexed) (payload : Json) (record : RolloutRecord) :
    Yields (parseResponseItem config parsed payload record) D Indexed := by
  have hcall : Yields (pushAgentCall parsed payload record) D Indexed := by
    unfold pushAgentCall
    split
    · exact yields_ok h
    · exact h.pushEvent _
  refine hcall.bind fun parsed h => ?_
  split
  · exact yields_pure h
  · refine (yields_responseItemUserMessage payload).bind fun message _ => ?_
    cases message with
    | none => exact yields_pure h
    | some message => exact h.pushEvent _

theorem yields_parseTypedRecord (h : parsed.Indexed) (record : RolloutRecord) :
    Yields (parseTypedRecord env file config parsed record) D Indexed := by
  unfold parseTypedRecord
  split
  · exact yields_ok h
  · split
    · unfold parseUsageRecord
      split
      · exact h.pushEvent _
      · refine yields_ok ?_
        rw [Indexed, skipLine_events]
        exact h
    · exact h.pushEvent _
    · exact yields_parseEventMessage env config h _ record
    · exact yields_parseResponseItem config h _ record
    · exact yields_ok h

theorem yields_parseOwnRecord (threadId : String) (h : parsed.Indexed) (record : RolloutRecord) :
    Yields (parseOwnRecord env file config threadId parsed record) D Indexed := by
  have hseen : (seeRecord parsed record).Indexed := by
    rw [Indexed, seeRecord_events]
    exact h
  unfold parseOwnRecord
  split
  · exact yields_ok hseen
  · refine (yields_parseTypedRecord env file config hseen record).bind fun typed htyped => ?_
    split
    · exact htyped.pushEvent _
    · exact yields_pure htyped

/-! ## The tolerance for the start of the owner -/

/-- A `task_started` record of which the start can be read. -/
def isDatedStart (env : ParseEnv) (value : Json) : Bool :=
  stringFieldIn value ["type"] = some "event_msg" &&
    ((value.get "payload").bind Json.asObject).any fun payload =>
      stringFieldIn payload ["type"] = some "task_started" &&
        (timestampFieldIn env payload "started_at" "startedAt").isSome

/-- The record of a line, if it has one. -/
def lineRecord (env : ParseEnv) (read : Except String BoundedLine) : Option Json :=
  match read with
  | .ok (.line line) =>
    match env.fromSlice line with
    | .ok value => value.asObject
    | .error _ => none
  | _ => none

/-- The tolerance of two seconds can be subtracted from the creation time of the owner. -/
def ToleranceFits (owningCreatedAt : Option Instant) : Prop :=
  ∀ createdAt ∈ owningCreatedAt, minUtc + seconds 2 ≤ createdAt.1

/-- Where a dated start is met in foreign history, the tolerance fits the owner. -/
def RecordFits (env : ParseEnv) (parsed : ParsedRollout) (value : Json) : Prop :=
  isDatedStart env value = true → parsed.replayingForeignHistory = true →
    parsed.ownerThreadId.isSome = true → ToleranceFits parsed.owningCreatedAt

def StartFits (env : ParseEnv) (parsed : ParsedRollout) (read : Except String BoundedLine) : Prop :=
  ∀ value ∈ lineRecord env read, RecordFits env parsed value

theorem yields_startedWithinTolerance (startedAt owningCreatedAt : Option Instant) :
    Yields (startedWithinTolerance startedAt owningCreatedAt)
      (fun _ => ¬(startedAt.isSome = true → ToleranceFits owningCreatedAt))
      fun _ => startedAt.isSome = true → ToleranceFits owningCreatedAt := by
  unfold startedWithinTolerance
  split
  next startedAt createdAt =>
    have hmax : createdAt.1 + -seconds 2 ≤ maxUtc := by
      have hneg : -seconds 2 ≤ (0 : Int) := by decide
      exact (add_le_of_nonpos_right hneg).trans createdAt.2.2
    have hfits : ToleranceFits (some createdAt) ↔ minUtc ≤ createdAt.1 + -seconds 2 := by
      rw [← sub_eq_add_neg, le_sub_iff_add_le]
      simp [ToleranceFits]
    refine (yields_okOr ?_).bind fun earliest hearliest => yields_pure fun _ => ?_
    · rw [checkedSubSigned, checkedAddSigned]
      by_cases hmin : minUtc ≤ createdAt.1 + -seconds 2
      · simp [hmin, hmax]
      · exact Or.inr fun h => hmin (hfits.1 (h rfl))
    · rw [checkedSubSigned, checkedAddSigned] at hearliest
      split at hearliest
      next hrange => exact hfits.2 hrange.1
      next => cases hearliest
  next hnone =>
    refine yields_ok fun hstarted createdAt hcreated => ?_
    obtain ⟨startedAt, rfl⟩ := Option.isSome_iff_exists.1 hstarted
    exact (hnone startedAt createdAt rfl hcreated).elim

theorem yields_startsOwningSegment (value : Json) (threadId : String)
    (owningCreatedAt : Option Instant) :
    Yields (startsOwningSegment env (stringFieldIn value ["type"])
        ((value.get "payload").bind Json.asObject) threadId owningCreatedAt)
      (fun _ => ¬(isDatedStart env value = true → ToleranceFits owningCreatedAt))
      fun _ => isDatedStart env value = true → ToleranceFits owningCreatedAt := by
  unfold startsOwningSegment
  split
  next htype => exact yields_ok fun hstart => by simp [isDatedStart, htype] at hstart
  next htype =>
    split
    next hpayload => exact yields_ok fun hstart => by simp [isDatedStart, hpayload] at hstart
    next payload hpayload =>
      split
      next hkind =>
        exact yields_ok fun hstart => by simp [isDatedStart, hpayload, hkind] at hstart
      next hkind =>
        have hdated : isDatedStart env value = true ↔
            (timestampFieldIn env payload "started_at" "startedAt").isSome = true := by
          simp [isDatedStart, hpayload, not_not.1 htype, not_not.1 hkind]
        rw [hdated]
        refine Yields.bind (P := fun _ => True) ?_ fun turnTimestamp _ => ?_
        · unfold turnTimestampMs
          split
          · exact yields_ok trivial
          · exact yields_uuidV7TimestampMs _
        refine (yields_uuidV7TimestampMs threadId).bind fun ownerTimestamp _ => ?_
        exact (yields_startedWithinTolerance _ _).bind fun _ hfits => yields_pure hfits

theorem yields_parseSessionMeta (h : parsed.Indexed) (record : RolloutRecord) :
    Yields (parseSessionMeta env file parsed record) D Indexed := by
  have hpush : ∀ parsed : ParsedRollout, parsed.Indexed → ∀ payload explicit payloadTimestamp,
      Yields (pushSessionMeta file parsed payload explicit payloadTimestamp) D Indexed := by
    intro parsed h payload explicit payloadTimestamp
    apply Indexed.pushEvent
    split
    · exact h
    · exact h
  unfold parseSessionMeta
  split
  · exact yields_ok h
  · split
    · refine yields_ok ?_
      rw [Indexed, pushWarning_events]
      exact h
    · split
      · exact hpush _ (by exact h) _ _ _
      · split
        · exact hpush _ (by exact h) _ _ _
        · exact yields_ok h

/-! ## Lines and files -/

theorem yields_parseRecord (lineNumber : Nat) (value : Json) (parsed : ParsedRollout)
    (h : parsed.Indexed) :
    Yields (parseRecord env file config parsed (rolloutRecord env file lineNumber value))
      (fun _ => ¬RecordFits env parsed value)
      fun parsed' => RecordFits env parsed value ∧ parsed'.Indexed := by
  have hfits : ∀ {x : Except Panic ParsedRollout}, RecordFits env parsed value →
      Yields x (fun _ => ¬RecordFits env parsed value) Indexed →
      Yields x (fun _ => ¬RecordFits env parsed value)
        fun parsed' => RecordFits env parsed value ∧ parsed'.Indexed :=
    fun hfits hx => hx.mono (fun _ => id) fun _ hindexed => ⟨hfits, hindexed⟩
  unfold parseRecord
  split
  next htype =>
    refine hfits (fun hdated => ?_) (yields_parseSessionMeta env file h _)
    have htype : stringFieldIn value ["type"] = some "session_meta" := htype
    simp [isDatedStart, htype] at hdated
  next =>
    split
    next howner => exact hfits (fun _ _ hsome => by simp [howner] at hsome) (yields_ok h)
    next threadId howner =>
      split
      next hforeign =>
        split
        next hnames =>
          refine hfits (fun hdated => ?_) (yields_parseOwnRecord env file config _ (by exact h) _)
          simp only [namesThread, Bool.and_eq_true, decide_eq_true_eq] at hnames
          have htype : stringFieldIn value ["type"] = some "token_usage_record" := hnames.1
          simp [isDatedStart, htype] at hdated
        next =>
          have hsegment := yields_startsOwningSegment env value threadId parsed.owningCreatedAt
          have hiff : RecordFits env parsed value ↔
              (isDatedStart env value = true → ToleranceFits parsed.owningCreatedAt) := by
            simp [RecordFits, hforeign, howner]
          rw [← hiff] at hsegment
          refine hsegment.bind fun starts hrecord => hfits hrecord ?_
          split
          · exact yields_parseOwnRecord env file config _ (by exact h) _
          · exact yields_retainForeignRecord h _
      next hforeign =>
        exact hfits (fun _ hreplaying => absurd hreplaying hforeign)
          (yields_parseOwnRecord env file config _ h _)

theorem yields_parseJsonLine (parsed : ParsedRollout) (h : parsed.Indexed) (line : List UInt8) :
    Yields (parseJsonLine env file config parsed line)
      (fun _ => ¬StartFits env parsed (.ok (.line line)))
      fun parsed' => StartFits env parsed (.ok (.line line)) ∧ parsed'.Indexed := by
  have hskip : ∀ warning, (parsed.skipLine warning).Indexed := by
    intro warning
    rw [Indexed, skipLine_events]
    exact h
  unfold parseJsonLine
  split
  next error hslice =>
    refine yields_ok ⟨fun value hvalue => ?_, hskip _⟩
    simp [lineRecord, hslice] at hvalue
  next value hslice =>
    split
    next hobject =>
      refine yields_ok ⟨fun value hvalue => ?_, hskip _⟩
      simp [lineRecord, hslice, hobject] at hvalue
    next value hobject =>
      have hiff : StartFits env parsed (.ok (.line line)) ↔ RecordFits env parsed value := by
        simp [StartFits, lineRecord, hslice, hobject]
      rw [hiff]
      exact yields_parseRecord env file config _ value
        { parsed with parsedLines := parsed.parsedLines + 1 } h

/-- **A step of the parse** panics exactly where the tolerance does not fit. -/
theorem yields_parseLine (maxLineBytes : Nat) (parsed : ParsedRollout) (h : parsed.Indexed)
    (read : Except String BoundedLine) :
    Yields (parseLine env file config maxLineBytes parsed read)
      (fun _ => ¬StartFits env parsed read)
      fun parsed' => StartFits env parsed read ∧ parsed'.Indexed := by
  have hskip : ∀ {counted : ParsedRollout} (warning : String), counted.events = parsed.events →
      (counted.skipLine warning).Indexed := by
    intro counted warning hevents
    rw [Indexed, skipLine_events, hevents]
    exact h
  unfold parseLine
  split
  · exact yields_ok ⟨by simp [StartFits, lineRecord], hskip _ rfl⟩
  · exact yields_ok ⟨by simp [StartFits, lineRecord], h⟩
  · exact yields_ok ⟨by simp [StartFits, lineRecord], hskip _ rfl⟩
  next line =>
    exact yields_parseJsonLine env file config
      { parsed with sourceLines := parsed.sourceLines + 1 } h line

end Rollout
