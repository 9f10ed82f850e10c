import UsageMonit.Rollout.Proof.Owned
import UsageMonit.Rollout.Proof.Requests

/-!
# Replays beside each other

Two replays of the same events, the builders of which differ in their activity time and in a flag
that is not read while there is a baseline, and the datasets in rate observations that one of them
has more. Every event keeps them so.

* `counterEffect`: what a counter does follows from the baseline
* `Beside.event`: two replays stay beside each other
* `Ahead.event`: a replay that counted more stays ahead
-/

namespace Rollout

open Time Usage

/-! ## Builders -/

variable {before after : ThreadBuilder}

/-- A builder with another activity time and boundary flag. -/
def ThreadBuilder.aside (thread : ThreadBuilder) (updatedAt : Option DateTime)
    (incompleteCounterBoundary : Bool) : ThreadBuilder :=
  { thread with
    updatedAt := updatedAt
    incompleteCounterBoundary := incompleteCounterBoundary }

/-- The same builder, apart from its activity time: the boundary flag is only read while there is
no baseline. -/
def SameBuilder (before after : ThreadBuilder) : Prop :=
  ∃ updatedAt incomplete,
    (before.previousCumulative = none → incomplete = before.incompleteCounterBoundary) ∧
      after = before.aside updatedAt incomplete

section aside

variable (thread : ThreadBuilder) (updatedAt : Option DateTime) (incomplete : Bool)

theorem activateTurn_aside (turnId : String) (startedAt : DateTime) :
    activateTurn (thread.aside updatedAt incomplete) turnId startedAt =
      (activateTurn thread turnId startedAt).aside updatedAt incomplete := by
  have hturn : ((ensureTurn (thread.aside updatedAt incomplete) turnId).turns[turnId]?.getD
      (.new turnId)) = (ensureTurn thread turnId).turns[turnId]?.getD (.new turnId) := rfl
  unfold activateTurn
  dsimp only
  rw [hturn]
  split <;> rfl

theorem applyTurnContext_aside (payload : Json) (timestamp : DateTime) :
    applyTurnContext (thread.aside updatedAt incomplete) payload timestamp =
      (applyTurnContext thread payload timestamp).aside updatedAt incomplete := by
  unfold applyTurnContext
  cases stringFieldIn payload ["turn_id", "turnId"] with
  | none => rfl
  | some turnId =>
    dsimp only
    have hactive : (if (thread.aside updatedAt incomplete).activeTurnIds.contains turnId then
        thread.aside updatedAt incomplete
        else activateTurn (thread.aside updatedAt incomplete) turnId timestamp) =
        (if thread.activeTurnIds.contains turnId then thread
          else activateTurn thread turnId timestamp).aside updatedAt incomplete := by
      rw [activateTurn_aside]
      show (if thread.activeTurnIds.contains turnId then _ else _) = _
      split <;> rfl
    rw [hactive]
    cases stringFieldIn payload ["model"] <;>
      cases stringFieldIn payload ["effort", "reasoning_effort", "reasoningEffort"] <;> rfl

theorem replaceTitle_aside (message : String) (turnId : Option String)
    (source : UserMessageSource) :
    replaceTitle (thread.aside updatedAt incomplete) message turnId source =
      (replaceTitle thread message turnId source).aside updatedAt incomplete := by
  unfold replaceTitle
  show (if thread.title.isNone || (thread.titleTurnId = turnId &&
    thread.titleSource.any fun current => source.rank > current.rank) then _ else _) = _
  split <;> rfl

theorem applyUserMessage_aside (message : String) (turnId : Option String)
    (source : UserMessageSource) :
    applyUserMessage (thread.aside updatedAt incomplete) message turnId source =
      (applyUserMessage thread message turnId source).aside updatedAt incomplete := by
  have hturn : ∀ preview, messageTurn (thread.aside updatedAt incomplete) preview turnId source =
      messageTurn thread preview turnId source := fun _ => rfl
  unfold applyUserMessage
  dsimp only
  rw [hturn, replaceTitle_aside]
  split <;> rfl

theorem addUsage_aside (delta : TokenUsage) :
    (thread.aside updatedAt incomplete).addUsage delta =
      (thread.addUsage delta).aside updatedAt incomplete := by
  have hturn : (thread.aside updatedAt incomplete).openTurn = thread.openTurn := rfl
  unfold ThreadBuilder.addUsage
  rw [hturn]
  split <;> rfl

end aside

/-! ## The same baseline -/

/-- The same baseline; the flag is only read while there is none. -/
def SameBaseline (before after : Option TokenUsage × Bool) : Prop :=
  after.1 = before.1 ∧ (before.1 = none → after.2 = before.2)

theorem SameBaseline.event {before after : Option TokenUsage × Bool}
    (h : SameBaseline before after) (event : ParsedEvent) :
    SameBaseline (baselineAfterEvent before event) (baselineAfterEvent after event) := by
  cases event with
  | sessionMeta timestamp payload =>
    refine ⟨h.1, fun hnone => ?_⟩
    show (if isSubagentSession payload && after.1.isNone then true else after.2) =
      if isSubagentSession payload && before.1.isNone then true else before.2
    rw [h.1, h.2 hnone]
  | foreignCounterBaseline timestamp totalUsage => exact ⟨rfl, fun _ => rfl⟩
  | _ => exact h

theorem SameBuilder.refl (thread : ThreadBuilder) : SameBuilder thread thread :=
  ⟨thread.updatedAt, thread.incompleteCounterBoundary, fun _ => rfl, rfl⟩

theorem SameBuilder.baseline (h : SameBuilder before after) :
    SameBaseline before.baseline after.baseline := by
  obtain ⟨updatedAt, incomplete, hflag, rfl⟩ := h
  exact ⟨rfl, hflag⟩

theorem SameBuilder.of_aside
    (h : ∃ updatedAt incomplete, after = before.aside updatedAt incomplete)
    (hbaseline : SameBaseline before.baseline after.baseline) : SameBuilder before after := by
  obtain ⟨updatedAt, incomplete, rfl⟩ := h
  exact ⟨updatedAt, incomplete, hbaseline.2, rfl⟩

/-- **An event without usage** keeps builders the same. -/
theorem SameBuilder.applyEvent (env : ReplayEnv) (h : SameBuilder before after)
    (event : ParsedEvent) :
    SameBuilder (applyEvent env before event) (applyEvent env after event) := by
  refine .of_aside ?_ ?_
  · obtain ⟨updatedAt, incomplete, -, rfl⟩ := h
    cases event with
    | sessionMeta timestamp payload =>
      exact ⟨setMaxTimestamp updatedAt timestamp, if isSubagentSession payload &&
        before.previousCumulative.isNone then true else incomplete, rfl⟩
    | foreignCounterBaseline timestamp totalUsage => exact ⟨updatedAt, false, rfl⟩
    | userMessage timestamp preview turnId source =>
      exact ⟨updatedAt, incomplete, applyUserMessage_aside ..⟩
    | turnContext timestamp payload => exact ⟨updatedAt, incomplete, applyTurnContext_aside ..⟩
    | taskStarted timestamp turnId startedAt =>
      exact ⟨updatedAt, incomplete, activateTurn_aside ..⟩
    | _ => exact ⟨updatedAt, incomplete, rfl⟩
  · rw [applyEvent_baseline, applyEvent_baseline]
    exact h.baseline.event event

/-! ## Counters -/

/-- What a counter with a total does to a replay: a warning, the baseline after it and the usage
that is counted. -/
structure CounterEffect where
  warning : Option String
  previous : Option TokenUsage
  incomplete : Bool
  delta : Option TokenUsage

/-- The effect of a counter on a thread with a baseline. -/
def counterEffect (threadId : String) (baseline : Option TokenUsage × Bool)
    (totalUsage : TokenUsage) (last : Option TokenUsage) (path : Path) (lineNumber : Nat) :
    CounterEffect :=
  if !totalUsage.hasValidBreakdown || last.any fun last => !last.hasValidBreakdown then
    ⟨some (invalidBreakdownWarning threadId path lineNumber), none, true, none⟩
  else
    match baseline.1 with
    | none =>
      if baseline.2 then
        if last = some totalUsage then ⟨none, some totalUsage, false, some totalUsage⟩
        else
          ⟨some (outsideBoundaryWarning threadId path lineNumber), some totalUsage, false,
            explicitLast ⟨some totalUsage, last⟩ totalUsage⟩
      else ⟨none, some totalUsage, baseline.2, some totalUsage⟩
    | some previous =>
      if previous = totalUsage then ⟨none, some previous, baseline.2, none⟩
      else if last = some totalUsage then ⟨none, some totalUsage, baseline.2, some totalUsage⟩
      else
        match totalUsage.deltaFrom previous with
        | some delta => ⟨none, some totalUsage, baseline.2, some delta⟩
        | none =>
          ⟨some (counterResetWarning threadId path lineNumber), some totalUsage, baseline.2, none⟩

def Replay.take (env : ReplayEnv) (state : Replay) (totalUsage : TokenUsage)
    (last : Option TokenUsage) (timestamp : DateTime) (effect : CounterEffect) : Replay :=
  let warned := effect.warning.elim state state.ambiguousReset
  let based := warned.setBaseline effect.previous effect.incomplete
  effect.delta.elim based (based.countDelta env totalUsage last timestamp)

/-- **What a counter does** follows from the baseline before it. -/
theorem applyTokenCount_effect (env : ReplayEnv) (state : Replay) (totalUsage : TokenUsage)
    (last : Option TokenUsage) (rateLimits : Option CachedRateLimits) (timestamp : DateTime)
    (path : Path) (lineNumber : Nat) :
    applyTokenCount env state ⟨some totalUsage, last⟩ rateLimits timestamp path lineNumber =
      (state.recordRateLimits rateLimits timestamp).take env totalUsage last timestamp
        (counterEffect state.thread.threadId state.thread.baseline totalUsage last path
          lineNumber) := by
  have hthread := recordRateLimits_thread state rateLimits timestamp
  unfold applyTokenCount counterEffect ThreadBuilder.baseline
  dsimp only
  rw [← hthread]
  generalize state.recordRateLimits rateLimits timestamp = state
  split
  · rfl
  · cases hprevious : state.thread.previousCumulative with
    | none =>
      dsimp only
      split
      · split
        · rfl
        · cases explicitLast ⟨some totalUsage, last⟩ totalUsage <;> rfl
      · rfl
    | some previous =>
      dsimp only
      split
      · unfold Replay.take Replay.setBaseline
        dsimp only [Option.elim]
        rw [← hprevious]
      · split
        · rfl
        · cases totalUsage.deltaFrom previous <;> rfl

theorem counterEffect_same {before after : Option TokenUsage × Bool}
    (h : SameBaseline before after) (threadId : String) (totalUsage : TokenUsage)
    (last : Option TokenUsage) (path : Path) (lineNumber : Nat) :
    ∃ incomplete,
      counterEffect threadId after totalUsage last path lineNumber =
        { counterEffect threadId before totalUsage last path lineNumber with
          incomplete := incomplete } ∧
      ((counterEffect threadId before totalUsage last path lineNumber).previous = none →
        incomplete =
          (counterEffect threadId before totalUsage last path lineNumber).incomplete) := by
  obtain ⟨_, flag⟩ := before
  obtain ⟨previous, flag'⟩ := after
  obtain ⟨rfl, hflag⟩ := h
  unfold counterEffect
  dsimp only at hflag ⊢
  split
  · exact ⟨_, rfl, fun _ => rfl⟩
  · cases previous with
    | none =>
      rw [hflag rfl]
      exact ⟨_, rfl, fun _ => rfl⟩
    | some previous =>
      dsimp only
      split
      · exact ⟨_, rfl, fun hnone => nomatch hnone⟩
      · split
        · exact ⟨_, rfl, fun hnone => nomatch hnone⟩
        · cases totalUsage.deltaFrom previous <;>
            exact ⟨_, rfl, fun hnone => nomatch hnone⟩

/-! ## Replays beside each other -/

/-- The same replay, apart from observations that the second one has more. -/
structure Beside (added : List RateObservation) (s t : Replay) : Prop where
  thread : SameBuilder s.thread t.thread
  dataset : ∃ front back, s.dataset.rateObservations = front ++ back ∧
    t.dataset = { s.dataset with rateObservations := front ++ added ++ back }

section beside

variable {added : List RateObservation} {s t : Replay}

theorem Beside.withThread (h : Beside added s t) (hsame : SameBuilder before after) :
    Beside added { s with thread := before } { t with thread := after } := ⟨hsame, h.dataset⟩

theorem Beside.recordRateLimits (h : Beside added s t) (rateLimits : Option CachedRateLimits)
    (timestamp : DateTime) :
    Beside added (s.recordRateLimits rateLimits timestamp)
      (t.recordRateLimits rateLimits timestamp) := by
  cases rateLimits with
  | none => exact h
  | some limits =>
    refine ⟨h.thread, ?_⟩
    obtain ⟨front, back, hfront, hdataset⟩ := h.dataset
    obtain ⟨updatedAt, incomplete, -, hthread⟩ := h.thread
    unfold Replay.recordRateLimits
    rw [hdataset, hthread, hfront]
    refine ⟨front, back ++ [_], (List.append_assoc ..), ?_⟩
    dsimp only
    rw [List.append_assoc (front ++ added)]
    rfl

theorem pushReplayWarning_observations (dataset : RolloutDataset) (warning : String)
    (observations : List RateObservation) :
    pushReplayWarning { dataset with rateObservations := observations } warning =
      { pushReplayWarning dataset warning with rateObservations := observations } := by
  unfold pushReplayWarning
  split <;> rfl

theorem pushReplayWarning_keeps (dataset : RolloutDataset) (warning : String) :
    (pushReplayWarning dataset warning).rateObservations = dataset.rateObservations ∧
      (pushReplayWarning dataset warning).calls = dataset.calls ∧
      (pushReplayWarning dataset warning).stats = dataset.stats := by
  unfold pushReplayWarning
  split <;> exact ⟨rfl, rfl, rfl⟩

theorem Beside.ambiguousReset (h : Beside added s t) (warning : String) :
    Beside added (s.ambiguousReset warning) (t.ambiguousReset warning) := by
  refine ⟨h.thread, ?_⟩
  obtain ⟨front, back, hfront, hdataset⟩ := h.dataset
  refine ⟨front, back, ?_, ?_⟩
  · exact (pushReplayWarning_keeps s.dataset warning).1.trans hfront
  · unfold Replay.ambiguousReset
    rw [hdataset, pushReplayWarning_observations]

theorem Beside.setBaseline (h : Beside added s t) (previous : Option TokenUsage)
    {before after : Bool} (hflag : previous = none → after = before) :
    Beside added (s.setBaseline previous before) (t.setBaseline previous after) := by
  refine h.withThread ?_
  obtain ⟨updatedAt, incomplete, -, hthread⟩ := h.thread
  refine ⟨updatedAt, after, hflag, ?_⟩
  rw [hthread]
  rfl

theorem Beside.addCall (h : Beside added s t) (call : UsageCall)
    (hsame : SameBuilder before after) :
    Beside added
      { thread := before
        dataset := { s.dataset with calls := s.dataset.calls ++ [call] } }
      { thread := after
        dataset := { t.dataset with calls := t.dataset.calls ++ [call] } } := by
  refine ⟨hsame, ?_⟩
  obtain ⟨front, back, hfront, hdataset⟩ := h.dataset
  refine ⟨front, back, hfront, ?_⟩
  rw [hdataset]

theorem Beside.countDelta (env : ReplayEnv) (h : Beside added s t) (totalUsage : TokenUsage)
    (last : Option TokenUsage) (timestamp : DateTime) (delta : TokenUsage) :
    Beside added (s.countDelta env totalUsage last timestamp delta)
      (t.countDelta env totalUsage last timestamp delta) := by
  obtain ⟨updatedAt, incomplete, -, hthread⟩ := h.thread
  have hbase : SameBuilder { s.thread with previousCumulative := some totalUsage }
      { t.thread with previousCumulative := some totalUsage } := by
    refine ⟨updatedAt, incomplete, ?_, ?_⟩
    · show some totalUsage = none → _
      exact fun hnone => nomatch hnone
    · rw [hthread]
      rfl
  have hcall : counterCall env { t.thread with previousCumulative := some totalUsage } totalUsage
      last timestamp delta = counterCall env
        { s.thread with previousCumulative := some totalUsage } totalUsage last timestamp delta := by
    rw [hthread]
    rfl
  unfold Replay.countDelta
  dsimp only
  split
  · exact h.withThread hbase
  · rw [hcall]
    refine h.addCall _ (.of_aside ⟨updatedAt, incomplete, ?_⟩ ?_)
    · rw [hthread]
      exact addUsage_aside { s.thread with previousCumulative := some totalUsage } updatedAt
        incomplete delta
    · rw [addUsage_baseline, addUsage_baseline]
      exact hbase.baseline

theorem Beside.take (env : ReplayEnv) (h : Beside added s t) (totalUsage : TokenUsage)
    (last : Option TokenUsage) (timestamp : DateTime) (effect : CounterEffect) {incomplete : Bool}
    (hflag : effect.previous = none → incomplete = effect.incomplete) :
    Beside added (s.take env totalUsage last timestamp effect)
      (t.take env totalUsage last timestamp { effect with incomplete := incomplete }) := by
  unfold Replay.take
  have hwarned : Beside added (effect.warning.elim s s.ambiguousReset)
      (effect.warning.elim t t.ambiguousReset) := by
    cases effect.warning with
    | none => exact h
    | some warning => exact h.ambiguousReset warning
  have hbased := hwarned.setBaseline effect.previous hflag
  cases effect.delta with
  | none => exact hbased
  | some delta => exact hbased.countDelta env totalUsage last timestamp delta

theorem Beside.applyTokenCount (env : ReplayEnv) (h : Beside added s t)
    (usage : TokenCounterSample) (rateLimits : Option CachedRateLimits) (timestamp : DateTime)
    (path : Path) (lineNumber : Nat) :
    Beside added (applyTokenCount env s usage rateLimits timestamp path lineNumber)
      (applyTokenCount env t usage rateLimits timestamp path lineNumber) := by
  obtain ⟨total, last⟩ := usage
  cases total with
  | none => exact h.recordRateLimits rateLimits timestamp
  | some totalUsage =>
    rw [applyTokenCount_effect, applyTokenCount_effect]
    have hid : t.thread.threadId = s.thread.threadId := by
      obtain ⟨updatedAt, incomplete, -, hthread⟩ := h.thread
      rw [hthread]
      rfl
    rw [hid]
    obtain ⟨incomplete, heffect, hflag⟩ := counterEffect_same h.thread.baseline s.thread.threadId
      totalUsage last path lineNumber
    rw [heffect]
    exact (h.recordRateLimits rateLimits timestamp).take env totalUsage last timestamp _ hflag

theorem Beside.countRequest (env : ReplayEnv) (h : Beside added s t) (threadId : String)
    (request : RequestUsageEvent) :
    Beside added (s.countRequest env threadId request) (t.countRequest env threadId request) := by
  obtain ⟨updatedAt, incomplete, hflag, hthread⟩ := h.thread
  unfold Replay.countRequest
  rw [hthread]
  exact h.addCall _ ⟨updatedAt, incomplete, hflag, rfl⟩

theorem sawActivity_aside (asOf : Option DateTime) (event : ParsedEvent) (state : Replay) :
    ∃ updatedAt, state.sawActivity asOf event =
      ⟨state.thread.aside updatedAt state.thread.incompleteCounterBoundary, state.dataset⟩ := by
  unfold Replay.sawActivity
  split
  · split
    · exact ⟨_, rfl⟩
    · exact ⟨state.thread.updatedAt, rfl⟩
  · exact ⟨state.thread.updatedAt, rfl⟩

theorem Beside.sawActivity (asOf : Option DateTime) (event : ParsedEvent)
    (h : Beside added s t) :
    Beside added (s.sawActivity asOf event) (t.sawActivity asOf event) := by
  obtain ⟨updatedAt, incomplete, hflag, hthread⟩ := h.thread
  obtain ⟨seen, hs⟩ := sawActivity_aside asOf event s
  obtain ⟨seen', ht⟩ := sawActivity_aside asOf event t
  rw [hs, ht]
  refine h.withThread ⟨seen', incomplete, hflag, ?_⟩
  rw [hthread]
  rfl

/-- **One event** keeps two replays beside each other. -/
theorem Beside.event (env : ReplayEnv) (path : Path) (threadId : String)
    (asOf : Option DateTime) (covered : List Nat) (h : Beside added s t)
    (entry : ParsedEvent × Nat) :
    Beside added (replayEvent env path threadId asOf covered s entry)
      (replayEvent env path threadId asOf covered t entry) :=
  replayEvent_lift env path threadId asOf covered (fun event h => h.sawActivity asOf event)
    (fun event h => h.withThread (h.thread.applyEvent env event))
    (fun request h => h.countRequest env threadId request)
    (fun _ _ _ _ h => h.applyTokenCount env _ _ _ _ _)
    (fun previous _ h => h.setBaseline previous fun _ => rfl) h entry

end beside

/-! ## A replay that counted more -/

/-- The calls and the resets of a replay; neither is ever taken back. -/
def Replay.counted (state : Replay) : Nat :=
  state.dataset.calls.length + state.dataset.stats.ambiguousTokenResets

/-- What an effect adds to the calls and the resets. -/
def CounterEffect.counts (effect : CounterEffect) : Nat :=
  (if effect.warning.isSome then 1 else 0) +
    if effect.delta.any fun delta => !delta.isZero then 1 else 0

section counted

variable (env : ReplayEnv) (state : Replay) (totalUsage : TokenUsage) (last : Option TokenUsage)
  (timestamp : DateTime)

theorem recordRateLimits_counted (rateLimits : Option CachedRateLimits) (timestamp : DateTime) :
    (state.recordRateLimits rateLimits timestamp).counted = state.counted := by
  cases rateLimits <;> rfl

theorem ambiguousReset_counted (warning : String) :
    (state.ambiguousReset warning).counted = state.counted + 1 := by
  obtain ⟨-, hcalls, hstats⟩ := pushReplayWarning_keeps state.dataset warning
  unfold Replay.counted Replay.ambiguousReset
  dsimp only
  rw [hcalls, hstats, Nat.add_assoc]

theorem countDelta_counted_add (delta : TokenUsage) :
    (state.countDelta env totalUsage last timestamp delta).counted =
      state.counted + if delta.isZero then 0 else 1 := by
  unfold Replay.countDelta Replay.counted
  split
  · rfl
  · rw [List.length_append, List.length_singleton, Nat.add_right_comm]

theorem countDelta_baseline (delta : TokenUsage) :
    (state.countDelta env totalUsage last timestamp delta).thread.baseline =
      (some totalUsage, state.thread.incompleteCounterBoundary) := by
  unfold Replay.countDelta
  split
  · rfl
  · exact addUsage_baseline _ delta

theorem take_baseline (effect : CounterEffect) :
    (state.take env totalUsage last timestamp effect).thread.baseline =
      (if effect.delta.isSome then some totalUsage else effect.previous, effect.incomplete) := by
  unfold Replay.take
  cases effect.delta with
  | none => rfl
  | some delta => exact countDelta_baseline env _ totalUsage last timestamp delta

theorem take_counted (effect : CounterEffect) :
    (state.take env totalUsage last timestamp effect).counted = state.counted + effect.counts := by
  have hbased : ((effect.warning.elim state state.ambiguousReset).setBaseline effect.previous
      effect.incomplete).counted = state.counted + if effect.warning.isSome then 1 else 0 := by
    cases effect.warning with
    | none => rfl
    | some warning => exact ambiguousReset_counted state warning
  unfold Replay.take CounterEffect.counts
  cases effect.delta with
  | none => exact hbased
  | some delta =>
    show (Replay.countDelta ..).counted = _
    rw [countDelta_counted_add, hbased, Nat.add_assoc]
    by_cases hzero : delta.isZero <;> simp [hzero]

end counted

/-- The id of a thread is in the warnings of a counter only. -/
theorem counterEffect_threadId (threadId threadId' : String) (baseline : Option TokenUsage × Bool)
    (totalUsage : TokenUsage) (last : Option TokenUsage) (path : Path) (lineNumber : Nat) :
    let effect := counterEffect threadId baseline totalUsage last path lineNumber
    let effect' := counterEffect threadId' baseline totalUsage last path lineNumber
    effect'.counts = effect.counts ∧ effect'.previous = effect.previous ∧
      effect'.incomplete = effect.incomplete ∧ effect'.delta = effect.delta := by
  unfold counterEffect CounterEffect.counts
  split
  · exact ⟨rfl, rfl, rfl, rfl⟩
  · cases baseline.1 with
    | none =>
      dsimp only
      split
      · split <;> exact ⟨rfl, rfl, rfl, rfl⟩
      · exact ⟨rfl, rfl, rfl, rfl⟩
    | some previous =>
      dsimp only
      split
      · exact ⟨rfl, rfl, rfl, rfl⟩
      · split
        · exact ⟨rfl, rfl, rfl, rfl⟩
        · cases totalUsage.deltaFrom previous <;> exact ⟨rfl, rfl, rfl, rfl⟩

/-- The same baseline, and more calls or resets in the second replay. -/
structure Ahead (s t : Replay) : Prop where
  baseline : SameBaseline s.thread.baseline t.thread.baseline
  more : s.counted < t.counted

section ahead

variable {s t : Replay}

theorem Ahead.applyTokenCount (env : ReplayEnv) (h : Ahead s t) (usage : TokenCounterSample)
    (rateLimits : Option CachedRateLimits) (timestamp : DateTime) (path : Path)
    (lineNumber : Nat) :
    Ahead (applyTokenCount env s usage rateLimits timestamp path lineNumber)
      (applyTokenCount env t usage rateLimits timestamp path lineNumber) := by
  obtain ⟨total, last⟩ := usage
  have hmore := h.more
  cases total with
  | none =>
    refine ⟨?_, ?_⟩
    · show SameBaseline (s.recordRateLimits ..).thread.baseline
        (t.recordRateLimits ..).thread.baseline
      rw [recordRateLimits_thread, recordRateLimits_thread]
      exact h.baseline
    · show (s.recordRateLimits ..).counted < (t.recordRateLimits ..).counted
      rwa [recordRateLimits_counted, recordRateLimits_counted]
  | some totalUsage =>
    obtain ⟨incomplete, heffect, hflag⟩ := counterEffect_same h.baseline t.thread.threadId
      totalUsage last path lineNumber
    obtain ⟨hcounts, hprevious, hincomplete, hdelta⟩ := counterEffect_threadId s.thread.threadId
      t.thread.threadId s.thread.baseline totalUsage last path lineNumber
    rw [applyTokenCount_effect, applyTokenCount_effect, heffect]
    refine ⟨?_, ?_⟩
    · rw [take_baseline, take_baseline]
      rw [hdelta, hprevious]
      refine ⟨rfl, fun hnone => ?_⟩
      dsimp only at hnone ⊢
      split at hnone
      · cases hnone
      · rw [hflag (hprevious.trans hnone), hincomplete]
    · rw [take_counted, take_counted, recordRateLimits_counted, recordRateLimits_counted]
      have hsame : CounterEffect.counts { counterEffect t.thread.threadId s.thread.baseline
          totalUsage last path lineNumber with incomplete := incomplete } =
          (counterEffect s.thread.threadId s.thread.baseline totalUsage last path
            lineNumber).counts := hcounts
      omega

theorem Ahead.setBaseline (h : Ahead s t) (previous : Option TokenUsage) (incomplete : Bool) :
    Ahead (s.setBaseline previous incomplete) (t.setBaseline previous incomplete) :=
  ⟨⟨rfl, fun _ => rfl⟩, h.more⟩

/-- **One event** keeps a replay ahead. -/
theorem Ahead.event (env : ReplayEnv) (path : Path) (threadId : String)
    (asOf : Option DateTime) (covered : List Nat) (h : Ahead s t)
    (entry : ParsedEvent × Nat) :
    Ahead (replayEvent env path threadId asOf covered s entry)
      (replayEvent env path threadId asOf covered t entry) := by
  refine replayEvent_lift env path threadId asOf covered (fun {s t} event h => ?_)
    (fun event h => ⟨?_, h.more⟩) (fun request h => ⟨h.baseline, ?_⟩)
    (fun _ _ _ _ h => h.applyTokenCount env _ _ _ _ _)
    (fun previous incomplete h => h.setBaseline previous incomplete) h entry
  · obtain ⟨seen, hs⟩ := sawActivity_aside asOf event s
    obtain ⟨seen', ht⟩ := sawActivity_aside asOf event t
    rw [hs, ht]
    exact ⟨h.baseline, h.more⟩
  · rw [applyEvent_baseline, applyEvent_baseline]
    exact h.baseline.event event
  · have hmore := h.more
    unfold Replay.countRequest Replay.counted at *
    dsimp only at *
    rw [List.length_append, List.length_append, List.length_singleton, List.length_singleton]
    omega

end ahead

end Rollout
