import UsageMonit.Rollout.Proof.Coverage

/-!
# The replay of an aligned log

The replay of a request log: its builder follows the turns of the log (`Tracks`), its baseline is
the sum of the requests so far, and the calls of each turn add up to the turn's requests.

* `applyEvent_tracks`: the turns of the builder are the turns of the log
* `applyTokenCount_counted`: a counter above its baseline is the request that was added
* `replayInv_log`: on an aligned log the calls of each turn are its requests, part by part
-/

namespace Rollout

open Time Usage

/-! ## Turns of the builder -/

variable {thread : ThreadBuilder} {turns : OpenTurns} {request : LoggedRequest} {replay : Replay}

def ThreadBuilder.statusOf (thread : ThreadBuilder) (turnId : String) : TurnStatus :=
  (thread.turns[turnId]?.getD (.new turnId)).status

/-- The builder has the same open and finished turns. -/
structure Tracks (thread : ThreadBuilder) (turns : OpenTurns) : Prop where
  active : thread.activeTurnIds = turns.active
  last : thread.lastTurnId = turns.last
  finished : ∀ turn, TurnStatus.finished (thread.statusOf turn) ↔ turn ∈ turns.finished

theorem Tracks.current (h : Tracks thread turns) : thread.openTurn = turns.current := by
  unfold ThreadBuilder.openTurn OpenTurns.current
  rw [h.active, h.last]

/-- What the turns of a builder look like from outside is unchanged. -/
structure SameTurns (before after : ThreadBuilder) : Prop where
  active : after.activeTurnIds = before.activeTurnIds
  last : after.lastTurnId = before.lastTurnId
  status : ∀ turn, after.statusOf turn = before.statusOf turn

theorem SameTurns.refl (thread : ThreadBuilder) : SameTurns thread thread :=
  ⟨rfl, rfl, fun _ => rfl⟩

theorem SameTurns.trans {a b c : ThreadBuilder} (h : SameTurns a b) (h' : SameTurns b c) :
    SameTurns a c :=
  ⟨h'.active.trans h.active, h'.last.trans h.last, fun t => (h'.status t).trans (h.status t)⟩

theorem Tracks.same {before after : ThreadBuilder} (h : Tracks before turns)
    (hsame : SameTurns before after) : Tracks after turns where
  active := hsame.active.trans h.active
  last := hsame.last.trans h.last
  finished turn := by rw [hsame.status]; exact h.finished turn

theorem turn_of_compare {a b : String} (h : compare a b = .eq) : a = b :=
  Std.LawfulEqOrd.eq_of_compare h

theorem withTurn_statusOf (thread : ThreadBuilder) (turnId turn : String)
    (change : TurnBuilder → TurnBuilder) :
    (thread.withTurn turnId change).statusOf turn =
      if turnId = turn then (change (thread.turns[turnId]?.getD (.new turnId))).status
      else thread.statusOf turn := by
  unfold ThreadBuilder.withTurn ThreadBuilder.statusOf
  rw [Std.ExtTreeMap.getElem?_insert]
  simp only [Std.compare_eq_iff_eq]
  split <;> rfl

theorem withTurn_same (thread : ThreadBuilder) (turnId : String)
    {change : TurnBuilder → TurnBuilder} (h : ∀ turn, (change turn).status = turn.status) :
    SameTurns thread (thread.withTurn turnId change) where
  active := rfl
  last := rfl
  status turn := by
    rw [withTurn_statusOf]
    split
    · rename_i heq
      subst heq
      exact h _
    · rfl

theorem ensureTurn_same (thread : ThreadBuilder) (turnId : String) :
    SameTurns thread (ensureTurn thread turnId) := withTurn_same thread turnId fun _ => rfl

theorem activateTurn_tracks (h : Tracks thread turns) (turnId : String) (startedAt : DateTime) :
    Tracks (activateTurn thread turnId startedAt) (turns.start turnId) := by
  have hensured := h.same (ensureTurn_same thread turnId)
  unfold activateTurn OpenTurns.start
  have hfinished := hensured.finished turnId
  unfold ThreadBuilder.statusOf at hfinished
  by_cases hdone : turnId ∈ turns.finished
  · rw [if_pos hdone, if_pos (hfinished.2 hdone)]
    exact hensured
  · rw [if_neg hdone, if_neg fun hf => hdone (hfinished.1 hf)]
    refine ⟨?_, rfl, fun turn => ?_⟩
    · show List.filter _ _ ++ _ = _
      rw [hensured.active]
    · rw [← hensured.finished turn]
      show TurnStatus.finished (((ensureTurn thread turnId).withTurn turnId
        (TurnBuilder.start thread.serviceTier startedAt)).statusOf turn) ↔ _
      rw [withTurn_statusOf]
      split
      · rename_i heq
        subst heq
        unfold ThreadBuilder.statusOf TurnBuilder.start
        cases (((ensureTurn thread turnId).turns[turnId]?.getD (.new turnId)).status) <;>
          exact Iff.rfl
      · exact Iff.rfl

theorem finishTurn_tracks (h : Tracks thread turns) (turnId : String) (completedAt : DateTime)
    (durationMs : Option Nat) {status : TurnStatus} (hstatus : TurnStatus.finished status) :
    Tracks (finishTurn thread turnId completedAt durationMs status) (turns.finish turnId) := by
  refine ⟨?_, rfl, fun turn => ?_⟩
  · show List.filter _ _ = _
    rw [h.active]
    rfl
  · show TurnStatus.finished ((thread.withTurn turnId
      (TurnBuilder.finish completedAt durationMs status)).statusOf turn) ↔ turn ∈ turnId :: _
    rw [withTurn_statusOf, List.mem_cons]
    split
    · rename_i heq
      exact ⟨fun _ => .inl heq.symm, fun _ => hstatus⟩
    · rename_i hne
      rw [h.finished turn]
      exact ⟨.inr, fun hor => hor.resolve_left (Ne.symm hne)⟩

theorem applyTurnContext_tracks (h : Tracks thread turns) (payload : Json) (timestamp : DateTime) :
    Tracks (applyTurnContext thread payload timestamp)
      (turns.after (.turnContext timestamp payload)) := by
  unfold applyTurnContext OpenTurns.after
  dsimp only
  cases stringFieldIn payload ["turn_id", "turnId"] with
  | none => exact h
  | some turnId =>
    have hactive : Tracks
        (if thread.activeTurnIds.contains turnId then thread
          else activateTurn thread turnId timestamp)
        (if turnId ∈ turns.active then turns else turns.start turnId) := by
      by_cases hmem : turnId ∈ turns.active
      · rw [if_pos hmem, if_pos (by simpa [h.active] using hmem)]
        exact h
      · rw [if_neg hmem, if_neg (by simpa [h.active] using hmem)]
        exact activateTurn_tracks h turnId timestamp
    refine hactive.same (SameTurns.trans (ensureTurn_same _ turnId) ?_)
    have hkeep : ∀ (thread : ThreadBuilder) {change : TurnBuilder → TurnBuilder},
        (∀ turn, (change turn).status = turn.status) →
        SameTurns thread (thread.withTurn turnId change) := fun thread _ hc =>
      withTurn_same thread turnId hc
    cases stringFieldIn payload ["model"] <;>
      cases stringFieldIn payload ["effort", "reasoning_effort", "reasoningEffort"] <;> dsimp only
    · exact SameTurns.refl _
    · exact hkeep _ fun _ => rfl
    · exact hkeep _ fun _ => rfl
    · refine SameTurns.trans ?_ (hkeep _ fun _ => rfl)
      exact hkeep _ fun _ => rfl

theorem applyThreadSettings_same (thread : ThreadBuilder) (serviceTier : Option String) :
    SameTurns thread (applyThreadSettings thread serviceTier) where
  active := rfl
  last := rfl
  status turn := by
    have hfold : ∀ {step : Map TurnBuilder → String → Map TurnBuilder},
        (∀ turns id, ((step turns id)[turn]?.getD (.new turn)).status =
          (turns[turn]?.getD (.new turn)).status) → ∀ (ids : List String) (turns : Map TurnBuilder),
        ((ids.foldl step turns)[turn]?.getD (.new turn)).status =
          (turns[turn]?.getD (.new turn)).status := by
      intro step hstep ids
      induction ids with
      | nil => exact fun _ => rfl
      | cons first rest ih =>
        intro turns
        rw [List.foldl_cons, ih, hstep]
    refine hfold (fun turns id => ?_) thread.activeTurnIds thread.turns
    cases hget : turns[id]? with
    | none => rfl
    | some builder =>
      rw [Std.ExtTreeMap.getElem?_insert]
      split
      · rename_i heq
        obtain rfl := turn_of_compare heq
        rw [hget]
        rfl
      · rfl

theorem applyUserMessage_same (thread : ThreadBuilder) (message : String)
    (turnId : Option String) (source : UserMessageSource) :
    SameTurns thread (applyUserMessage thread message turnId source) := by
  have htitle : ∀ turn, SameTurns thread (replaceTitle thread message turn source) := by
    intro turn
    unfold replaceTitle
    split
    · exact ⟨rfl, rfl, fun _ => rfl⟩
    · exact SameTurns.refl _
  unfold applyUserMessage
  dsimp only
  split
  · exact htitle _
  · refine SameTurns.trans (htitle _) (withTurn_same _ _ fun turn => ?_)
    unfold TurnBuilder.preview
    split <;> rfl

/-- **The turns of the builder** after an event without usage are those of the log. -/
theorem applyEvent_tracks (env : ReplayEnv) (h : Tracks thread turns) (event : ParsedEvent) :
    Tracks (applyEvent env thread event) (turns.after event) := by
  cases event with
  | sessionMeta timestamp payload => exact h.same ⟨rfl, rfl, fun _ => rfl⟩
  | foreignCounterBaseline timestamp totalUsage => exact h.same ⟨rfl, rfl, fun _ => rfl⟩
  | foreignThreadSettingsBaseline timestamp model serviceTier =>
    exact h.same ⟨rfl, rfl, fun _ => rfl⟩
  | userMessage timestamp preview turnId source => exact h.same (applyUserMessage_same _ _ _ _)
  | agentCall requestedAt callId parentTurnId kind => exact h.same ⟨rfl, rfl, fun _ => rfl⟩
  | agentActivity recordedAt occurredAt callId childThreadId kind =>
    exact h.same ⟨rfl, rfl, fun _ => rfl⟩
  | threadSettingsApplied timestamp serviceTier => exact h.same (applyThreadSettings_same _ _)
  | activity timestamp => exact h
  | turnContext timestamp payload => exact applyTurnContext_tracks h payload timestamp
  | taskStarted timestamp turnId startedAt => exact activateTurn_tracks h turnId _
  | taskComplete timestamp turnId completedAt durationMs => exact finishTurn_tracks h turnId _ _ rfl
  | turnAborted timestamp turnId completedAt durationMs failed =>
    refine finishTurn_tracks h turnId _ _ ?_
    cases failed <;> rfl
  | requestUsage request => exact h
  | tokenCount counter => exact h

/-! ## Baselines -/

/-- What decides how the next counter is counted. -/
def ThreadBuilder.baseline (thread : ThreadBuilder) : Option TokenUsage × Bool :=
  (thread.previousCumulative, thread.incompleteCounterBoundary)

theorem activateTurn_baseline (thread : ThreadBuilder) (turnId : String) (startedAt : DateTime) :
    (activateTurn thread turnId startedAt).baseline = thread.baseline := by
  unfold activateTurn
  dsimp only
  split <;> rfl

theorem applyTurnContext_baseline (thread : ThreadBuilder) (payload : Json)
    (timestamp : DateTime) :
    (applyTurnContext thread payload timestamp).baseline = thread.baseline := by
  unfold applyTurnContext
  cases stringFieldIn payload ["turn_id", "turnId"] with
  | none => rfl
  | some turnId =>
    have hactive : (if thread.activeTurnIds.contains turnId then thread
        else activateTurn thread turnId timestamp).baseline = thread.baseline := by
      split
      · rfl
      · exact activateTurn_baseline thread turnId timestamp
    cases stringFieldIn payload ["model"] <;>
      cases stringFieldIn payload ["effort", "reasoning_effort", "reasoningEffort"] <;>
      exact hactive

theorem applyUserMessage_baseline (thread : ThreadBuilder) (message : String)
    (turnId : Option String) (source : UserMessageSource) :
    (applyUserMessage thread message turnId source).baseline = thread.baseline := by
  have htitle : ∀ turn, (replaceTitle thread message turn source).baseline = thread.baseline := by
    intro turn
    unfold replaceTitle
    split <;> rfl
  unfold applyUserMessage
  dsimp only
  split <;> exact htitle _

/-- The baseline after an event that is no counter. -/
def baselineAfterEvent (baseline : Option TokenUsage × Bool) (event : ParsedEvent) :
    Option TokenUsage × Bool :=
  match event with
  | .sessionMeta _ payload =>
    (baseline.1, if isSubagentSession payload && baseline.1.isNone then true else baseline.2)
  | .foreignCounterBaseline _ totalUsage => (some totalUsage, false)
  | _ => baseline

theorem applyEvent_baseline (env : ReplayEnv) (thread : ThreadBuilder) (event : ParsedEvent) :
    (applyEvent env thread event).baseline = baselineAfterEvent thread.baseline event := by
  cases event with
  | userMessage timestamp preview turnId source =>
    exact applyUserMessage_baseline thread preview turnId source
  | turnContext timestamp payload => exact applyTurnContext_baseline thread payload timestamp
  | taskStarted timestamp turnId startedAt => exact activateTurn_baseline thread turnId _
  | _ => rfl

theorem addUsage_baseline (thread : ThreadBuilder) (delta : TokenUsage) :
    (thread.addUsage delta).baseline = thread.baseline := by
  unfold ThreadBuilder.addUsage
  split <;> rfl

theorem applyEvent_previousCumulative (env : ReplayEnv) (thread : ThreadBuilder)
    {event : ParsedEvent} (h : carriesUsage event = false) :
    (applyEvent env thread event).previousCumulative = thread.previousCumulative := by
  have hbaseline := congrArg Prod.fst (applyEvent_baseline env thread event)
  cases event with
  | foreignCounterBaseline timestamp totalUsage => cases h
  | _ => exact hbaseline

theorem recordRateLimits_thread (state : Replay) (rateLimits : Option CachedRateLimits)
    (timestamp : DateTime) :
    (state.recordRateLimits rateLimits timestamp).thread = state.thread := by
  cases rateLimits <;> rfl

theorem recordRateLimits_calls (state : Replay) (rateLimits : Option CachedRateLimits)
    (timestamp : DateTime) :
    (state.recordRateLimits rateLimits timestamp).dataset.calls = state.dataset.calls := by
  cases rateLimits <;> rfl

/-- What counting `usage` up to the total `total` does to a replay. -/
structure Counted (before after : Replay) (total usage : TokenUsage) : Prop where
  turns : SameTurns before.thread after.thread
  baseline : after.thread.previousCumulative = some total
  calls : (after.dataset.calls = before.dataset.calls ∧ usage.totalTokens = 0) ∨
    ∃ call : UsageCall, after.dataset.calls = before.dataset.calls ++ [call] ∧
      call.turnId = before.thread.openTurn ∧ call.tokens.Same usage

theorem addUsage_same (thread : ThreadBuilder) (delta : TokenUsage) :
    SameTurns thread (thread.addUsage delta) := by
  unfold ThreadBuilder.addUsage
  split
  · exact ⟨rfl, rfl, fun _ => rfl⟩
  · refine SameTurns.trans ?_ (withTurn_same _ _ fun _ => rfl)
    exact ⟨rfl, rfl, fun _ => rfl⟩

theorem countDelta_counted (env : ReplayEnv) (state : Replay) (total : TokenUsage)
    (last : Option TokenUsage) (timestamp : DateTime) {delta usage : TokenUsage}
    (hsame : delta.Same usage) :
    Counted state (state.countDelta env total last timestamp delta) total usage := by
  have hset : SameTurns state.thread { state.thread with previousCumulative := some total } :=
    ⟨rfl, rfl, fun _ => rfl⟩
  unfold Replay.countDelta
  by_cases hzero : delta.isZero
  · rw [if_pos hzero]
    exact ⟨hset, rfl, .inl ⟨rfl, hsame.2.2.2.2.2.2 ▸ hzero.1⟩⟩
  · rw [if_neg hzero]
    exact ⟨hset.trans (addUsage_same _ delta), congrArg Prod.fst (addUsage_baseline _ delta),
      .inr ⟨_, rfl, rfl, hsame⟩⟩

theorem ambiguousReset_calls (state : Replay) (warning : String) :
    (state.ambiguousReset warning).dataset.calls = state.dataset.calls := by
  unfold Replay.ambiguousReset pushReplayWarning
  split <;> rfl

/-- The baseline before a counter is the sum of the requests before it, if there are any. -/
def BaselineIs (previous : Option TokenUsage) (before : List TokenUsage) : Prop :=
  (previous = none ∧ before = []) ∨ previous = some (TokenUsage.sum before)

/-- **A counter of the running sum** counts the request that was added to it. -/
theorem applyTokenCount_counted (env : ReplayEnv) (state : Replay) {before : List TokenUsage}
    {usage : TokenUsage} (rateLimits : Option CachedRateLimits) (timestamp : DateTime)
    (path : Path) (lineNumber : Nat)
    (hvalid : ∀ u ∈ before ++ [usage], u.hasValidBreakdown)
    (hfits : ((before ++ [usage]).map TokenUsage.totalTokens).sum < 2 ^ 64)
    (hbaseline : BaselineIs state.thread.previousCumulative before) :
    Counted state (applyTokenCount env state ⟨some (TokenUsage.sum (before ++ [usage])), some usage⟩
      rateLimits timestamp path lineNumber) (TokenUsage.sum (before ++ [usage])) usage := by
  have husage := hvalid usage (List.mem_append_right _ (List.mem_singleton_self _))
  obtain ⟨htotal, hcount⟩ := sum_of_valid hvalid hfits
  rw [List.map_append, List.sum_append, List.map_singleton, List.sum_singleton] at hcount hfits
  have hfront := sum_of_valid (fun u hu => hvalid u (List.mem_append_left _ hu)) (by omega)
  rw [sum_append_singleton] at *
  have hrates : ∀ {after : Replay}, Counted (state.recordRateLimits rateLimits timestamp) after
      ((TokenUsage.sum before).addAssign usage) usage →
      Counted state after ((TokenUsage.sum before).addAssign usage) usage := by
    intro after h
    refine ⟨recordRateLimits_thread state .. ▸ h.turns, h.baseline, ?_⟩
    rw [← recordRateLimits_calls state rateLimits timestamp,
      ← recordRateLimits_thread state rateLimits timestamp]
    exact h.calls
  refine hrates ?_
  rw [← recordRateLimits_thread state rateLimits timestamp] at hbaseline
  unfold applyTokenCount
  dsimp only
  generalize state.recordRateLimits rateLimits timestamp = state at hbaseline ⊢
  rw [if_neg (by simp [htotal, husage])]
  rcases hbaseline with ⟨hnone, rfl⟩ | hsome
  · -- the first request: the total is the request itself
    have hfirst := TokenUsage.default_addAssign husage
    rw [hnone]
    dsimp only
    split
    · have hset : ∀ {after : Replay} {total : TokenUsage},
          Counted (state.setBaseline (some total) false) after
            ((TokenUsage.sum []).addAssign usage) usage →
          Counted state after ((TokenUsage.sum []).addAssign usage) usage :=
        fun h => ⟨⟨h.turns.active, h.turns.last, h.turns.status⟩, h.baseline, h.calls⟩
      split
      · exact hset (countDelta_counted env _ _ _ _ hfirst)
      · have hlast : explicitLast ⟨some ((TokenUsage.sum []).addAssign usage), some usage⟩
            ((TokenUsage.sum []).addAssign usage) = some usage := by
          have hdelta : (((TokenUsage.sum []).addAssign usage).deltaFrom usage).isSome := by
            obtain ⟨h1, h2, h3, h4, h5, h6, h7⟩ := hfirst
            unfold TokenUsage.deltaFrom
            rw [if_neg (by simp only [TokenUsage.sum, List.foldl_nil]; omega)]
            rfl
          have hle : usage.totalTokens ≤ ((TokenUsage.sum []).addAssign usage).totalTokens :=
            Nat.le_of_eq hfirst.2.2.2.2.2.2.symm
          simp [explicitLast, hdelta, hle]
        rw [hlast]
        have h := countDelta_counted env ((state.setBaseline
          (some ((TokenUsage.sum []).addAssign usage)) false).ambiguousReset
          (outsideBoundaryWarning state.thread.threadId path lineNumber))
          ((TokenUsage.sum []).addAssign usage) (some usage) timestamp (TokenUsage.Same.refl usage)
        refine ⟨⟨h.turns.active, h.turns.last, h.turns.status⟩, h.baseline, ?_⟩
        have hcalls := h.calls
        rw [ambiguousReset_calls] at hcalls
        exact hcalls
    · exact countDelta_counted env _ _ _ _ hfirst
  · rw [hsome]
    dsimp only
    split
    · rename_i hsame
      refine ⟨SameTurns.refl _, hsame ▸ hsome, .inl ⟨rfl, ?_⟩⟩
      rw [← hsame] at hcount
      omega
    · split
      · rename_i hlast
        refine countDelta_counted env _ _ _ _ ?_
        rw [← Option.some.inj hlast]
        exact TokenUsage.Same.refl _
      · obtain ⟨delta, hdelta, hsame⟩ :=
          TokenUsage.deltaFrom_addAssign hfront.1 husage (by omega)
        rw [hdelta]
        exact countDelta_counted env _ _ _ _ hsame

/-! ## The replay of a log -/

/-- The tokens of the calls of a turn, or of those outside of all turns. -/
def callTokens (calls : List UsageCall) (turn : Option String) : List TokenUsage :=
  (calls.filter fun call => call.turnId = turn).map UsageCall.tokens

structure ReplayInv (state : LogState) (replay : Replay) : Prop where
  tracks : Tracks replay.thread state.turns
  baseline : BaselineIs replay.thread.previousCumulative state.usages
  calls : ∀ turn,
    TokenUsage.sum (callTokens replay.dataset.calls turn) = TokenUsage.sum (state.usagesOf turn)

theorem usagesOf_request (state : LogState) (request : LoggedRequest) (turn : Option String) :
    (state.next (.request request)).usagesOf turn =
      if (state.entryOf request).turn = turn then state.usagesOf turn ++ [request.usage]
      else state.usagesOf turn := by
  unfold LogState.usagesOf
  rw [next_entries, List.filter_append, List.map_append]
  by_cases h : (state.entryOf request).turn = turn
  · rw [if_pos h, List.filter_cons_of_pos (by simpa using h)]
    rfl
  · rw [if_neg h, List.filter_cons_of_neg (by simpa using h), List.filter_nil, List.map_nil,
      List.append_nil]

theorem callTokens_append (calls : List UsageCall) (call : UsageCall) (turn : Option String) :
    callTokens (calls ++ [call]) turn =
      if call.turnId = turn then callTokens calls turn ++ [call.tokens]
      else callTokens calls turn := by
  unfold callTokens
  rw [List.filter_append, List.map_append]
  by_cases h : call.turnId = turn
  · rw [if_pos h, List.filter_cons_of_pos (by simpa using h)]
    rfl
  · rw [if_neg h, List.filter_cons_of_neg (by simpa using h), List.filter_nil, List.map_nil,
      List.append_nil]

theorem calls_counted {state : LogState} {calls : List UsageCall} {call : UsageCall}
    (h : ∀ turn, TokenUsage.sum (callTokens calls turn) = TokenUsage.sum (state.usagesOf turn))
    (hturn : call.turnId = (state.entryOf request).turn) (hsame : call.tokens.Same request.usage)
    (turn : Option String) :
    TokenUsage.sum (callTokens (calls ++ [call]) turn) =
      TokenUsage.sum ((state.next (.request request)).usagesOf turn) := by
  rw [callTokens_append, usagesOf_request, hturn]
  split
  · rw [sum_append_singleton, sum_append_singleton, h turn]
    exact TokenUsage.addAssign_same _ hsame
  · exact h turn

theorem calls_skipped {log : List LogItem} {calls : List UsageCall}
    (hwf : WellFormed (log ++ [.request request])) (h : ∀ turn,
      TokenUsage.sum (callTokens calls turn) = TokenUsage.sum ((logState log).usagesOf turn))
    (hzero : request.usage.totalTokens = 0) (turn : Option String) :
    TokenUsage.sum (callTokens calls turn) =
      TokenUsage.sum (((logState log).next (.request request)).usagesOf turn) := by
  rw [usagesOf_request, h turn]
  split
  · rw [sum_append_singleton]
    have hsublist := usagesOf_sublist (logState log) turn
    have hvalid := sum_of_valid (fun u hu => hwf.left.usage_valid u (hsublist.subset hu))
      (Nat.lt_of_le_of_lt ((hsublist.map _).sum_le_sum fun _ _ => Nat.zero_le _) hwf.left.fits)
    exact (TokenUsage.addAssign_empty hvalid.1
      (hwf.valid request (List.mem_append_right _ (List.mem_singleton_self _)))
      (sum_normal _) hzero).symm
  · rfl

section steps

variable (env : ReplayEnv) (path : Path) (threadId : String) (asOf : Option DateTime)
  (covered : List Nat)

theorem replayEvent_visible (replay : Replay) {event : ParsedEvent} (index : Nat)
    (hvisible : eventIsVisible asOf event) : ∃ updatedAt,
      replayEvent env path threadId asOf covered replay (event, index) =
        applyVisible env path threadId covered
          { replay with thread := { replay.thread with updatedAt := updatedAt } }
          (event, index) := by
  unfold replayEvent
  rw [if_neg (by simp [hvisible])]
  split
  · split
    · exact ⟨_, rfl⟩
    · exact ⟨replay.thread.updatedAt, rfl⟩
  · exact ⟨replay.thread.updatedAt, rfl⟩

theorem ReplayInv.touch {state : LogState} (h : ReplayInv state replay)
    (updatedAt : Option DateTime) :
    ReplayInv state { replay with thread := { replay.thread with updatedAt := updatedAt } } :=
  ⟨h.tracks.same ⟨rfl, rfl, fun _ => rfl⟩, h.baseline, h.calls⟩

theorem applyVisible_other (replay : Replay) {event : ParsedEvent} (index : Nat)
    (hother : carriesUsage event = false) :
    (∀ turns, Tracks replay.thread turns →
      Tracks (applyVisible env path threadId covered replay (event, index)).thread
        (turns.after event)) ∧
    (applyVisible env path threadId covered replay (event, index)).thread.previousCumulative =
      replay.thread.previousCumulative ∧
    (applyVisible env path threadId covered replay (event, index)).dataset.calls =
      replay.dataset.calls := by
  -- every event but a counter without a total goes to the builder only
  have hbuilder : (∀ turns, Tracks replay.thread turns →
      Tracks (applyEvent env replay.thread event) (turns.after event)) ∧
      (applyEvent env replay.thread event).previousCumulative =
        replay.thread.previousCumulative ∧ replay.dataset.calls = replay.dataset.calls :=
    ⟨fun turns h => applyEvent_tracks env h event,
      applyEvent_previousCumulative env replay.thread hother, rfl⟩
  cases event with
  | requestUsage request => cases hother
  | tokenCount counter =>
    have htotal : counter.totalUsage = none := by
      simpa [carriesUsage] using hother
    have happly : ∀ last, applyTokenCount env replay ⟨none, last⟩ counter.rateLimits
        counter.timestamp path counter.lineNumber =
        replay.recordRateLimits counter.rateLimits counter.timestamp := fun _ => rfl
    have hrates : applyVisible env path threadId covered replay (.tokenCount counter, index) =
        replay.recordRateLimits counter.rateLimits counter.timestamp := by
      unfold applyVisible
      dsimp only
      rw [htotal]
      split <;> exact happly _
    rw [hrates, recordRateLimits_thread, recordRateLimits_calls]
    exact ⟨fun _ h => h, rfl, rfl⟩
  | sessionMeta timestamp payload => exact hbuilder
  | foreignCounterBaseline timestamp totalUsage => exact hbuilder
  | foreignThreadSettingsBaseline timestamp model serviceTier => exact hbuilder
  | userMessage timestamp preview turnId source => exact hbuilder
  | agentCall requestedAt callId parentTurnId kind => exact hbuilder
  | agentActivity recordedAt occurredAt callId childThreadId kind => exact hbuilder
  | threadSettingsApplied timestamp serviceTier => exact hbuilder
  | activity timestamp => exact hbuilder
  | turnContext timestamp payload => exact hbuilder
  | taskStarted timestamp turnId startedAt => exact hbuilder
  | taskComplete timestamp turnId completedAt durationMs => exact hbuilder
  | turnAborted timestamp turnId completedAt durationMs failed => exact hbuilder

theorem replayInv_event {state : LogState} {event : ParsedEvent}
    (hother : carriesUsage event = false) (h : ReplayInv state replay) :
    ReplayInv (state.next (.event event))
      (applyVisible env path threadId covered replay (event, state.length)) := by
  obtain ⟨htracks, hbaseline, hcalls⟩ :=
    applyVisible_other env path threadId covered replay state.length hother
  refine ⟨htracks _ h.tracks, ?_, ?_⟩
  · rw [hbaseline]
    exact h.baseline
  · rw [hcalls]
    exact h.calls

theorem usages_request (state : LogState) (request : LoggedRequest) :
    (state.next (.request request)).usages = state.usages ++ [request.usage] := by
  unfold LogState.usages
  rw [next_entries, List.map_append]
  rfl

theorem applyVisible_covered {before : List TokenUsage} {index : Nat} (hcovered : index ∈ covered) :
    applyVisible env path threadId covered replay
        (.tokenCount (counterEvent before request), index) =
      (replay.recordRateLimits request.rateLimits request.timestamp).setBaseline
        (some (TokenUsage.sum (before ++ [request.usage]))) false := by
  unfold applyVisible
  dsimp only
  rw [if_pos (List.contains_iff_mem.2 hcovered)]
  rfl

theorem applyVisible_counted {log : List LogItem} (replay : Replay) {index : Nat}
    (hwf : WellFormed (log ++ [.request request])) (hcovered : index ∉ covered)
    (hbaseline : BaselineIs replay.thread.previousCumulative (logState log).usages) :
    Counted replay
      (applyVisible env path threadId covered replay
        (.tokenCount (counterEvent (logState log).usages request), index))
      (TokenUsage.sum ((logState log).usages ++ [request.usage])) request.usage := by
  have happly : applyVisible env path threadId covered replay
      (.tokenCount (counterEvent (logState log).usages request), index) =
      applyTokenCount env replay
        ⟨some (TokenUsage.sum ((logState log).usages ++ [request.usage])), some request.usage⟩
        request.rateLimits request.timestamp path request.lineNumber := by
    unfold applyVisible
    dsimp only
    rw [if_neg (fun hc => hcovered (List.contains_iff_mem.1 hc))]
    rfl
  have hvalid := hwf.usage_valid
  have hfits := hwf.fits
  rw [logState_append_singleton, usages_request] at hvalid hfits
  rw [happly]
  exact applyTokenCount_counted env replay request.rateLimits request.timestamp path
    request.lineNumber hvalid hfits hbaseline

theorem recorded_tracks (h : Tracks replay.thread turns) (rateLimits : Option CachedRateLimits)
    (timestamp : DateTime) (previous : Option TokenUsage) (incomplete : Bool) :
    Tracks ((replay.recordRateLimits rateLimits timestamp).setBaseline previous incomplete).thread
      turns :=
  h.same (recordRateLimits_thread replay rateLimits timestamp ▸ ⟨rfl, rfl, fun _ => rfl⟩)

theorem replayInv_counter {log : List LogItem} (hwf : WellFormed (log ++ [.request request]))
    (hrecord : request.record = none)
    (hcovered : (logState log).length ∈ covered → request.usage.totalTokens = 0)
    (h : ReplayInv (logState log) replay) :
    ReplayInv ((logState log).next (.request request))
      (applyVisible env path threadId covered replay
        (.tokenCount (counterEvent (logState log).usages request), (logState log).length)) := by
  by_cases hmem : (logState log).length ∈ covered
  · rw [applyVisible_covered env path threadId covered hmem]
    refine ⟨recorded_tracks h.tracks _ _ _ _, .inr ?_, ?_⟩
    · rw [usages_request]
      rfl
    · have hcalls := recordRateLimits_calls replay request.rateLimits request.timestamp
      exact fun turn => hcalls ▸ calls_skipped hwf h.calls (hcovered hmem) turn
  · have hcounted := applyVisible_counted env path threadId covered replay hwf hmem h.baseline
    refine ⟨h.tracks.same hcounted.turns, .inr ?_, ?_⟩
    · rw [usages_request]
      exact hcounted.baseline
    · rcases hcounted.calls with ⟨hcalls, hzero⟩ | ⟨call, hcalls, hturn, hsame⟩
      · rw [hcalls]
        exact calls_skipped hwf h.calls hzero
      · rw [hcalls]
        refine calls_counted h.calls ?_ hsame
        rw [hturn, h.tracks.current]
        unfold LogState.entryOf
        rw [hrecord]
        rfl

theorem replayInv_native {log : List LogItem} {record : NativeRecord}
    (updatedAt : Option DateTime) (hrecord : request.record = some record)
    (hcovered : (logState log).length + 1 ∈ covered) (h : ReplayInv (logState log) replay) :
    let requested := applyVisible env path threadId covered replay
      (.requestUsage (requestEvent request.usage record), (logState log).length)
    ReplayInv ((logState log).next (.request request))
      (applyVisible env path threadId covered
        { requested with thread := { requested.thread with updatedAt := updatedAt } }
        (.tokenCount (counterEvent (logState log).usages request),
          (logState log).length + 1)) := by
  intro requested
  have hrequested : requested = replay.countRequest env threadId
    (requestEvent request.usage record) := rfl
  rw [applyVisible_covered env path threadId covered hcovered, hrequested]
  refine ⟨recorded_tracks ?_ _ _ _ _, .inr ?_, ?_⟩
  · exact (h.tracks.same (ensureTurn_same _ record.turnId)).same ⟨rfl, rfl, fun _ => rfl⟩
  · rw [usages_request]
    rfl
  · show ∀ turn, TokenUsage.sum (callTokens (Replay.recordRateLimits _ _ _).dataset.calls turn) = _
    rw [recordRateLimits_calls]
    refine calls_counted h.calls ?_ (TokenUsage.Same.refl _)
    unfold LogState.entryOf
    rw [hrecord]
    rfl

end steps

/-! ## The whole log -/

/-- A replay with another activity time. -/
def Replay.touch (replay : Replay) (updatedAt : Option DateTime) : Replay :=
  { replay with thread := { replay.thread with updatedAt := updatedAt } }

section whole

variable {env : ReplayEnv} {path : Path} {threadId : String} {asOf : Option DateTime}
  {log : List LogItem} (hvisible : ∀ event ∈ writtenEvents log, eventIsVisible asOf event)

theorem item_visible {asOf : Option DateTime} {front back : List LogItem} {item : LogItem}
    (hvisible : ∀ event ∈ writtenEvents (front ++ item :: back), eventIsVisible asOf event) :
    ∀ event ∈ (logState front).write item, eventIsVisible asOf event := by
  intro event hevent
  refine hvisible event ?_
  unfold writtenEvents
  rw [writtenFrom_append]
  exact List.mem_append_right _ (List.mem_append_left _ hevent)

include hvisible in
theorem replay_induction {covered : List Nat} {start : Replay} {Inv : LogState → Replay → Prop}
    (hstart : Inv .start start)
    (htouch : ∀ state replay updatedAt, Inv state replay → Inv state (replay.touch updatedAt))
    (hevent : ∀ front back event replay, log = front ++ .event event :: back →
      Inv (logState front) replay → Inv ((logState front).next (.event event))
        (applyVisible env path threadId covered replay (event, (logState front).length)))
    (hcounter : ∀ front back request replay, log = front ++ .request request :: back →
      request.record = none → Inv (logState front) replay →
      Inv ((logState front).next (.request request))
        (applyVisible env path threadId covered replay
          (.tokenCount (counterEvent (logState front).usages request), (logState front).length)))
    (hnative : ∀ front back request record replay updatedAt,
      log = front ++ .request request :: back → request.record = some record →
      Inv (logState front) replay → Inv ((logState front).next (.request request))
        (applyVisible env path threadId covered
          ((applyVisible env path threadId covered replay
            (.requestUsage (requestEvent request.usage record), (logState front).length)).touch
            updatedAt)
          (.tokenCount (counterEvent (logState front).usages request),
            (logState front).length + 1))) :
    Inv (logState log)
      ((writtenEvents log).zipIdx.foldl (replayEvent env path threadId asOf covered) start) := by
  suffices h : ∀ front back, log = front ++ back → Inv (logState front)
      ((writtenEvents front).zipIdx.foldl (replayEvent env path threadId asOf covered) start) from
    h log [] (List.append_nil log).symm
  intro front
  induction front using List.reverseRecOn with
  | nil => exact fun _ _ => hstart
  | append_singleton front item ih =>
    intro back hlog
    rw [List.append_assoc] at hlog
    have hprior := ih (item :: back) hlog
    have hitem : ∀ event ∈ (logState front).write item, eventIsVisible asOf event :=
      item_visible (hlog ▸ hvisible)
    rw [writtenEvents_append_singleton, List.zipIdx_append, List.foldl_append, Nat.zero_add,
      writtenEvents_length, logState_append_singleton]
    generalize List.foldl _ start (writtenEvents front).zipIdx = replay at hprior ⊢
    have hstep : ∀ (replay : Replay) {event : ParsedEvent} (index : Nat),
        event ∈ (logState front).write item → ∃ updatedAt,
          replayEvent env path threadId asOf covered replay (event, index) =
            applyVisible env path threadId covered (replay.touch updatedAt) (event, index) :=
      fun replay event index hmem =>
        replayEvent_visible env path threadId asOf covered replay index (hitem event hmem)
    cases item with
    | event event =>
      obtain ⟨updatedAt, heq⟩ :=
        hstep replay (logState front).length (List.mem_singleton_self event)
      show Inv _ (replayEvent _ _ _ _ _ _ _)
      rw [heq]
      exact hevent front back event _ hlog (htouch _ _ updatedAt hprior)
    | request request =>
      cases hrecord : request.record with
      | none =>
        rw [write_counter _ hrecord] at hstep ⊢
        obtain ⟨updatedAt, heq⟩ :=
          hstep replay (logState front).length (List.mem_singleton_self _)
        show Inv _ (replayEvent _ _ _ _ _ _ _)
        rw [heq]
        exact hcounter front back request _ hlog hrecord (htouch _ _ updatedAt hprior)
      | some record =>
        rw [write_native _ hrecord] at hstep ⊢
        rw [List.zipIdx_cons, List.zipIdx_cons, List.zipIdx_nil, List.foldl_cons, List.foldl_cons,
          List.foldl_nil]
        obtain ⟨updatedAt, heq⟩ := hstep replay (logState front).length (List.mem_cons_self ..)
        rw [heq]
        obtain ⟨updatedAt', heq'⟩ := hstep _ ((logState front).length + 1)
          (List.mem_cons_of_mem _ (List.mem_singleton_self _))
        rw [heq']
        exact hnative front back request record _ updatedAt' hlog hrecord
          (htouch _ _ updatedAt hprior)

variable (hwf : WellFormed log) (haligned : Aligned log)

theorem WellFormed.upTo {front back : List LogItem} {item : LogItem}
    (h : WellFormed (front ++ item :: back)) : WellFormed (front ++ [item]) := by
  rw [← List.singleton_append, ← List.append_assoc] at h
  exact h.left

theorem entryOf_mem (front back : List LogItem) (request : LoggedRequest) :
    (logState front).entryOf request ∈ (logState (front ++ .request request :: back)).entries := by
  have hprefix := entries_extend (front ++ [.request request]) back
  rw [logState_append_singleton, next_entries, List.append_assoc] at hprefix
  exact hprefix.subset (List.mem_append_right _ (List.mem_singleton_self _))

theorem entryOf_counter_index (state : LogState) (h : request.record = none) :
    (state.entryOf request).index = state.length := by
  unfold LogState.entryOf
  rw [h]
  rfl

theorem entryOf_native_index (state : LogState) {record : NativeRecord}
    (h : request.record = some record) : (state.entryOf request).index = state.length + 1 := by
  unfold LogState.entryOf
  rw [h]
  rfl

include hvisible hwf haligned in
/-- **The calls of each turn of an aligned log** are its requests. -/
theorem replayInv_log {start : Replay} (hstart : ReplayInv .start start) :
    ReplayInv (logState log)
      ((writtenEvents log).zipIdx.foldl
        (replayEvent env path threadId asOf (requestCoveredCounters (writtenEvents log) asOf))
        start) := by
  refine replay_induction hvisible hstart (fun _ _ updatedAt h => h.touch updatedAt) ?_ ?_ ?_
  · intro front back event replay hlog h
    subst hlog
    exact replayInv_event _ _ _ _
      (hwf.others event (List.mem_append_right _ (List.mem_cons_self ..))) h
  · intro front back request replay hlog hrecord h
    subst hlog
    refine replayInv_counter _ _ _ _ hwf.upTo hrecord (fun hmem => ?_) h
    refine counter_covered hwf haligned hvisible (entryOf_mem front back request) hrecord ?_
    rwa [entryOf_counter_index _ hrecord]
  · intro front back request record replay updatedAt hlog hrecord h
    subst hlog
    refine replayInv_native _ _ _ _ updatedAt hrecord ?_ h
    rw [← entryOf_native_index _ hrecord]
    exact native_covered hwf haligned hvisible (entryOf_mem front back request)
      (by simp [LogState.entryOf, hrecord])

end whole

end Rollout
