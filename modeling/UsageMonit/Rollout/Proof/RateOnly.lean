import UsageMonit.Rollout.Proof.Aside
import UsageMonit.Rollout.Proof.Inserted

/-!
# Counters without usage

A counter that carries rate limits only is inserted into the events of a file. Its replay gains the
observation and nothing else, unless a native record was waiting for its mirror at that place: the
inserted counter ends the wait, and the mirror is counted on top of the record.

* `replayEvent_baseline`: the baseline follows from the events
* `counts_zero_iff`: when a mirror that is not covered counts nothing
* `rateOnly_adds_iff`: exactly when only the observation is added
* `rateOnly_counts_mirror`: a request counted twice
-/

namespace Rollout

open Time Usage

/-! ## The baseline after some events -/

variable {usage : TokenUsage}

/-- The baseline after an event: the total of the last counter, unless it is unknown. -/
def baselineStep (asOf : Option DateTime) (covered : List Nat) (previous : Option TokenUsage)
    (entry : ParsedEvent × Nat) : Option TokenUsage :=
  if !eventIsVisible asOf entry.1 then if hidesCounter entry.1 then none else previous
  else
    match entry.1 with
    | .foreignCounterBaseline _ totalUsage => some totalUsage
    | .tokenCount counter =>
      match counter.totalUsage with
      | none => previous
      | some totalUsage =>
        if !covered.contains entry.2 && (!totalUsage.hasValidBreakdown ||
            counter.lastUsage.any fun last => !last.hasValidBreakdown) then none
        else some totalUsage
    | _ => previous

def baselineAfter (asOf : Option DateTime) (covered : List Nat) (start : Option TokenUsage)
    (events : List ParsedEvent) : Option TokenUsage :=
  events.zipIdx.foldl (baselineStep asOf covered) start

theorem counterEffect_previous (threadId : String) (baseline : Option TokenUsage × Bool)
    (totalUsage : TokenUsage) (last : Option TokenUsage) (path : Path) (lineNumber : Nat) :
    let effect := counterEffect threadId baseline totalUsage last path lineNumber
    (if effect.delta.isSome then some totalUsage else effect.previous) =
      if !totalUsage.hasValidBreakdown || last.any fun last => !last.hasValidBreakdown then none
      else some totalUsage := by
  unfold counterEffect
  split
  · rfl
  · cases baseline.1 with
    | none =>
      dsimp only
      split
      · split
        · rfl
        · split <;> rfl
      · rfl
    | some previous =>
      dsimp only
      split
      · rename_i heq
        rw [heq]
        rfl
      · split
        · rfl
        · cases totalUsage.deltaFrom previous <;> rfl

theorem sawActivity_baseline (asOf : Option DateTime) (event : ParsedEvent) (state : Replay) :
    (state.sawActivity asOf event).thread.baseline = state.thread.baseline := by
  obtain ⟨updatedAt, heq⟩ := sawActivity_aside asOf event state
  rw [heq]
  rfl

/-- **The baseline of a replay** follows from the events alone. -/
theorem replayEvent_baseline (env : ReplayEnv) (path : Path) (threadId : String)
    (asOf : Option DateTime) (covered : List Nat) (state : Replay) (entry : ParsedEvent × Nat) :
    (replayEvent env path threadId asOf covered state entry).thread.baseline.1 =
      baselineStep asOf covered state.thread.baseline.1 entry := by
  obtain ⟨event, index⟩ := entry
  unfold baselineStep
  by_cases hvisible : eventIsVisible asOf event
  · rw [replayEvent_seen env path threadId covered state index hvisible,
      if_neg (by simp [hvisible])]
    have hsaw := sawActivity_baseline asOf event state
    generalize state.sawActivity asOf event = saw at hsaw ⊢
    have hother : ∀ event : ParsedEvent, (applyEvent env saw.thread event).baseline.1 =
        (baselineAfterEvent state.thread.baseline event).1 := by
      intro event
      rw [applyEvent_baseline, hsaw]
    cases event with
    | requestUsage request => exact congrArg Prod.fst hsaw
    | tokenCount counter =>
      unfold applyVisible
      dsimp only
      cases htotal : counter.totalUsage with
      | none =>
        have hnone : ∀ usage : TokenCounterSample, usage.total = none →
            (applyTokenCount env saw usage counter.rateLimits counter.timestamp path
              counter.lineNumber).thread.baseline.1 = state.thread.baseline.1 := by
          intro usage hnone
          unfold applyTokenCount
          rw [hnone]
          rw [recordRateLimits_thread, hsaw]
        split <;> exact hnone _ rfl
      | some totalUsage =>
        dsimp only
        split
        · rename_i hcovered
          rw [hcovered, Bool.not_true, Bool.false_and, if_neg Bool.false_ne_true]
          rfl
        · rename_i hcovered
          rw [applyTokenCount_effect, take_baseline]
          rw [counterEffect_previous, Bool.eq_false_iff.2 hcovered, Bool.not_false, Bool.true_and]
    | sessionMeta timestamp payload => exact hother (.sessionMeta timestamp payload)
    | foreignCounterBaseline timestamp totalUsage =>
      exact hother (.foreignCounterBaseline timestamp totalUsage)
    | foreignThreadSettingsBaseline timestamp model serviceTier =>
      exact hother (.foreignThreadSettingsBaseline timestamp model serviceTier)
    | userMessage timestamp preview turnId source =>
      exact hother (.userMessage timestamp preview turnId source)
    | agentCall requestedAt callId parentTurnId kind =>
      exact hother (.agentCall requestedAt callId parentTurnId kind)
    | agentActivity recordedAt occurredAt callId childThreadId kind =>
      exact hother (.agentActivity recordedAt occurredAt callId childThreadId kind)
    | threadSettingsApplied timestamp serviceTier =>
      exact hother (.threadSettingsApplied timestamp serviceTier)
    | activity timestamp => exact hother (.activity timestamp)
    | turnContext timestamp payload => exact hother (.turnContext timestamp payload)
    | taskStarted timestamp turnId startedAt =>
      exact hother (.taskStarted timestamp turnId startedAt)
    | taskComplete timestamp turnId completedAt durationMs =>
      exact hother (.taskComplete timestamp turnId completedAt durationMs)
    | turnAborted timestamp turnId completedAt durationMs failed =>
      exact hother (.turnAborted timestamp turnId completedAt durationMs failed)
  · have hhidden : (!eventIsVisible asOf event) = true := by simp [hvisible]
    rw [replayEvent_hidden env path threadId covered state index hvisible, if_pos hhidden]
    split <;> rfl

/-! ## A mirror that is not covered -/

/-- What a counter adds to the baseline, if that is known. -/
def increase (previous : Option TokenUsage) (totalUsage : TokenUsage)
    (last : Option TokenUsage) : Option TokenUsage :=
  if previous = some totalUsage then some default
  else if last = some totalUsage then some totalUsage
  else previous.bind totalUsage.deltaFrom

theorem eq_default_of_isZero (h : usage.isZero) : usage = default := by
  obtain ⟨input, cached, write, output, reasoning, unclassified, total⟩ := usage
  obtain ⟨rfl, rfl, rfl, rfl, rfl, rfl, rfl⟩ := h
  rfl

theorem isZero_of_totalTokens (hvalid : usage.hasValidBreakdown) (htotal : usage.totalTokens = 0) :
    usage.isZero := by
  obtain ⟨hcached, hwrite, hreasoning, hsum, -⟩ := (TokenUsage.hasValidBreakdown_iff usage).1 hvalid
  have hunclassified : usage.unclassifiedTokens = 0 := by
    unfold TokenUsage.unclassified at hsum
    split at hsum <;> omega
  unfold TokenUsage.isZero
  omega

/-- **A mirror that is not covered** counts nothing and warns about nothing exactly when it does not
rise above the baseline. -/
theorem counts_zero_iff (threadId : String) (baseline : Option TokenUsage × Bool)
    {totalUsage : TokenUsage} (path : Path) (lineNumber : Nat)
    (hvalid : totalUsage.hasValidBreakdown) (husage : usage.hasValidBreakdown)
    (hle : usage.totalTokens ≤ totalUsage.totalTokens) :
    (counterEffect threadId baseline totalUsage (some usage) path lineNumber).counts = 0 ↔
      ∃ delta, increase baseline.1 totalUsage (some usage) = some delta ∧ delta.isZero := by
  obtain ⟨previous, flag⟩ := baseline
  have hkind : ¬ (!totalUsage.hasValidBreakdown || (some usage).any fun last =>
      !last.hasValidBreakdown) = true := by simp [hvalid, husage]
  unfold counterEffect
  rw [if_neg hkind]
  cases previous with
  | none =>
    by_cases hlast : usage = totalUsage
    · subst hlast
      cases flag <;> simp [CounterEffect.counts, increase]
    · have hzero : ¬ totalUsage.isZero := by
        intro hzero
        have hsame := eq_default_of_isZero hzero
        have hzero' := isZero_of_totalTokens husage (by rw [hsame] at hle; exact Nat.le_zero.1 hle)
        exact hlast ((eq_default_of_isZero hzero').trans hsame.symm)
      cases flag <;> simp [CounterEffect.counts, increase, hlast, hzero]
  | some previous =>
    by_cases hsame : previous = totalUsage
    · have hzero : (default : TokenUsage).isZero := by decide
      simp [CounterEffect.counts, increase, hsame, hzero]
    · by_cases hlast : usage = totalUsage
      · subst hlast
        simp [CounterEffect.counts, increase, hsame]
      · cases hdelta : totalUsage.deltaFrom previous <;>
          simp [CounterEffect.counts, increase, hsame, hlast, hdelta]

theorem take_quiet (env : ReplayEnv) (state : Replay) (totalUsage : TokenUsage)
    (last : Option TokenUsage) (timestamp : DateTime) {effect : CounterEffect}
    (h : effect.counts = 0) :
    state.take env totalUsage last timestamp effect =
      state.setBaseline (if effect.delta.isSome then some totalUsage else effect.previous)
        effect.incomplete := by
  obtain ⟨warning, previous, incomplete, delta⟩ := effect
  unfold CounterEffect.counts at h
  cases warning with
  | some warning => simp at h
  | none =>
    cases delta with
    | none => rfl
    | some delta =>
      have hzero : delta.isZero := by simpa using h
      show Replay.countDelta .. = _
      unfold Replay.countDelta
      rw [if_pos hzero]
      rfl

/-! ## Two replays of the events -/

section replays

variable (env : ReplayEnv) (path : Path) (threadId : String) (asOf : Option DateTime)
  {covered covered' : List Nat} {added : List RateObservation}

theorem replayEvent_congr {i j : Nat} (h : i ∈ covered ↔ j ∈ covered') (state : Replay)
    (event : ParsedEvent) :
    replayEvent env path threadId asOf covered state (event, i) =
      replayEvent env path threadId asOf covered' state (event, j) := by
  have hcontains : covered.contains i = covered'.contains j := by
    rw [Bool.eq_iff_iff, List.contains_iff_mem, List.contains_iff_mem, h]
  unfold replayEvent applyVisible
  rw [hcontains]

theorem replay_congr (events : List ParsedEvent) (i : Nat)
    (h : ∀ j, j < i + events.length → (j ∈ covered ↔ j ∈ covered')) (state : Replay) :
    (events.zipIdx i).foldl (replayEvent env path threadId asOf covered) state =
      (events.zipIdx i).foldl (replayEvent env path threadId asOf covered') state := by
  induction events generalizing i state with
  | nil => rfl
  | cons event rest ih =>
    rw [List.length_cons] at h
    rw [List.zipIdx_cons, List.foldl_cons, List.foldl_cons,
      replayEvent_congr env path threadId asOf (h i (by omega)) state event]
    exact ih (i + 1) (fun j hj => h j (by omega)) _

theorem shifted_replay {R : Replay → Replay → Prop}
    (hkeep : ∀ s t entry, R s t → R (replayEvent env path threadId asOf covered s entry)
      (replayEvent env path threadId asOf covered t entry))
    (events : List ParsedEvent) (i : Nat)
    (h : ∀ j, i ≤ j → j < i + events.length → (j ∈ covered ↔ j + 1 ∈ covered')) {s t : Replay}
    (hstart : R s t) :
    R ((events.zipIdx i).foldl (replayEvent env path threadId asOf covered) s)
      ((events.zipIdx (i + 1)).foldl (replayEvent env path threadId asOf covered') t) := by
  induction events generalizing i s t with
  | nil => exact hstart
  | cons event rest ih =>
    rw [List.length_cons] at h
    rw [List.zipIdx_cons, List.zipIdx_cons, List.foldl_cons, List.foldl_cons,
      ← replayEvent_congr env path threadId asOf (h i (Nat.le_refl i) (by omega)) t event]
    exact ih (i + 1) (fun j hij hj => h j (by omega) (by omega)) (hkeep s t _ hstart)

theorem replay_lost_mirror {s t : Replay} (h : Beside added s t) {i : Nat}
    {counter : TokenCountEvent} {totalUsage : TokenUsage}
    (hvisible : eventIsVisible asOf (.tokenCount counter)) (hin : i ∈ covered)
    (hout : i + 1 ∉ covered') (htotal : counter.totalUsage = some totalUsage)
    (hlast : counter.lastUsage = some usage) (hvalid : totalUsage.hasValidBreakdown)
    (husage : usage.hasValidBreakdown) (hle : usage.totalTokens ≤ totalUsage.totalTokens) :
    let s' := replayEvent env path threadId asOf covered s (.tokenCount counter, i)
    let t' := replayEvent env path threadId asOf covered' t (.tokenCount counter, i + 1)
    ((∃ delta, increase s.thread.baseline.1 totalUsage (some usage) = some delta ∧
        delta.isZero) → Beside added s' t') ∧
      ((¬ ∃ delta, increase s.thread.baseline.1 totalUsage (some usage) = some delta ∧
        delta.isZero) → Ahead s' t') := by
  have hsaw := h.sawActivity asOf (.tokenCount counter)
  have hbase := sawActivity_baseline asOf (.tokenCount counter) t
  have hcount : (t.sawActivity asOf (.tokenCount counter)).counted = s.counted := by
    obtain ⟨updatedAt, heq⟩ := sawActivity_aside asOf (.tokenCount counter) t
    obtain ⟨front, back, -, hdataset⟩ := h.dataset
    rw [heq]
    unfold Replay.counted
    rw [hdataset]
  have hcount' : (s.sawActivity asOf (.tokenCount counter)).counted = s.counted := by
    obtain ⟨updatedAt, heq⟩ := sawActivity_aside asOf (.tokenCount counter) s
    rw [heq]
    rfl
  have hs : replayEvent env path threadId asOf covered s (.tokenCount counter, i) =
      ((s.sawActivity asOf (.tokenCount counter)).recordRateLimits counter.rateLimits
        counter.timestamp).setBaseline (some totalUsage) false := by
    rw [replayEvent_seen env path threadId covered s i hvisible]
    unfold applyVisible
    dsimp only
    rw [if_pos (List.contains_iff_mem.2 hin), htotal]
    rfl
  have ht : replayEvent env path threadId asOf covered' t (.tokenCount counter, i + 1) =
      ((t.sawActivity asOf (.tokenCount counter)).recordRateLimits counter.rateLimits
        counter.timestamp).take env totalUsage (some usage) counter.timestamp
          (counterEffect (t.sawActivity asOf (.tokenCount counter)).thread.threadId
            t.thread.baseline totalUsage (some usage) path counter.lineNumber) := by
    rw [replayEvent_seen env path threadId covered' t (i + 1) hvisible]
    unfold applyVisible
    dsimp only
    rw [if_neg (fun hc => hout (List.contains_iff_mem.1 hc)), htotal, hlast,
      applyTokenCount_effect, hbase]
  have hrates := hsaw.recordRateLimits counter.rateLimits counter.timestamp
  have hprevious := counterEffect_previous (t.sawActivity asOf (.tokenCount counter)).thread.threadId
    t.thread.baseline totalUsage (some usage) path counter.lineNumber
  have hzero := counts_zero_iff (t.sawActivity asOf (.tokenCount counter)).thread.threadId
    t.thread.baseline path counter.lineNumber hvalid husage hle
  have hkind : ¬ (!totalUsage.hasValidBreakdown || (some usage).any fun last =>
      !last.hasValidBreakdown) = true := by simp [hvalid, husage]
  rw [if_neg hkind] at hprevious
  rw [h.thread.baseline.1] at hzero
  rw [hs, ht]
  refine ⟨fun hquiet => ?_, fun hloud => ?_⟩
  · rw [take_quiet env _ totalUsage _ _ (hzero.2 hquiet), hprevious]
    exact hrates.setBaseline _ fun hnone => nomatch hnone
  · refine ⟨?_, ?_⟩
    · rw [take_baseline, hprevious]
      exact ⟨rfl, fun hnone => nomatch hnone⟩
    · have hpositive := Nat.pos_of_ne_zero fun heq => hloud (hzero.1 heq)
      rw [take_counted, recordRateLimits_counted, hcount]
      show (Replay.recordRateLimits ..).counted < _
      rw [recordRateLimits_counted, hcount']
      omega

end replays

/-! ## Inserting the counter -/

/-- The observation of a counter in a file with an owner, once the counter can be seen. -/
def shownObservation (owner : Option String) (asOf : Option DateTime) (counter : TokenCountEvent)
    (threadId : String) (turnId : Option String) : List RateObservation :=
  if owner.isSome && eventIsVisible asOf (.tokenCount counter) then
    counter.rateLimits.toList.map fun limits =>
      { timestamp := counter.timestamp
        threadId := threadId
        turnId := turnId
        limitId := limits.limitId
        primary := limits.primary
        secondary := limits.secondary
        provenance := .localExact }
  else []

/-- What a replay yields has one observation more, and the threads are the same if the file was
replayed at all. -/
structure OnlyAdds (observation : String → Option String → List RateObservation) (replayed : Bool)
    (before after : Map ThreadBuilder × RolloutDataset) : Prop where
  dataset : ∃ threadId turnId front back, before.2.rateObservations = front ++ back ∧
    after.2 = { before.2 with
      rateObservations := front ++ observation threadId turnId ++ back }
  threads : replayed → ∀ id : String, Option.Rel SameBuilder before.1[id]? after.1[id]?

/-- A native record waits at the end of `front` for its mirror in `back`, the totals of its turn do
not prove the mirror, and the mirror rises above the baseline. -/
def CountsMirror (asOf : Option DateTime) (start : Option TokenUsage)
    (front back : List ParsedEvent) : Prop :=
  ∃ passed counter rest totalUsage, back = passed ++ .tokenCount counter :: rest ∧
    PendingMirror asOf front passed (.tokenCount counter) ∧
    front.length + passed.length ∉ (coverageOf asOf (front ++ back)).proven ∧
    counter.totalUsage = some totalUsage ∧
    ¬ ∃ delta, increase (baselineAfter asOf (requestCoveredCounters (front ++ back) asOf) start
      (front ++ passed)) totalUsage counter.lastUsage = some delta ∧ delta.isZero

theorem pending_mem {asOf : Option DateTime} {events : List ParsedEvent} {turn : String}
    (h : (coverageOf asOf events).pendingRequest = some (turn, usage)) :
    ∃ request, .requestUsage request ∈ events ∧ request.usage = usage := by
  have hrun : ∀ turn usage, (coverageOf asOf events).pendingRequest = some (turn, usage) →
      ∃ request, .requestUsage request ∈ events ∧ request.usage = usage := by
    refine List.foldlRecOn events.zipIdx _ (motive := fun state : Coverage => ∀ turn usage,
      state.pendingRequest = some (turn, usage) →
        ∃ request, .requestUsage request ∈ events ∧ request.usage = usage)
      (fun turn usage hnone => ?_) fun state hstate entry hmem => ?_
    · cases hnone
    obtain ⟨event, index⟩ := entry
    have hevent : event ∈ events := List.fst_mem_of_mem_zipIdx hmem
    intro turn usage hpending
    unfold Coverage.step at hpending
    dsimp only at hpending
    split at hpending
    · cases hpending
    · cases event with
      | taskStarted timestamp turnId startedAt => cases hpending
      | turnContext timestamp payload =>
        dsimp only at hpending
        split at hpending
        · exact hstate turn usage hpending
        · split at hpending
          · cases hpending
          · exact hstate turn usage hpending
      | requestUsage request =>
        cases hpending
        exact ⟨request, hevent, rfl⟩
      | tokenCount counter =>
        dsimp only at hpending
        split at hpending
        · exact hstate turn usage hpending
        · cases hpending
      | _ => exact hstate turn usage hpending
  exact hrun turn usage h

theorem mirror_usage {asOf : Option DateTime} {turn : Option String}
    {pending : Option (String × TokenUsage)} {counter : TokenCountEvent}
    (h : isMirror asOf turn pending (.tokenCount counter)) :
    eventIsVisible asOf (.tokenCount counter) ∧ ∃ requestTurn usage totalUsage,
      pending = some (requestTurn, usage) ∧ counter.lastUsage = some usage ∧
      counter.totalUsage = some totalUsage ∧ totalUsage.hasValidBreakdown ∧
      usage.totalTokens ≤ totalUsage.totalTokens := by
  obtain ⟨hvisible, hpair⟩ := Bool.and_eq_true_iff.1 h
  obtain ⟨current, -, hpair⟩ := (Option.any_eq_true _ _).1 hpair
  obtain ⟨⟨requestTurn, usage⟩, hpending, hpair⟩ := (Option.any_eq_true _ _).1 hpair
  obtain ⟨hturn, htotal⟩ := Bool.and_eq_true_iff.1 hpair
  obtain ⟨-, hlast⟩ := Bool.and_eq_true_iff.1 hturn
  obtain ⟨totalUsage, hget, hkind⟩ := (Option.any_eq_true _ _).1 htotal
  obtain ⟨hvalid, hle⟩ := Bool.and_eq_true_iff.1 hkind
  exact ⟨hvisible, requestTurn, usage, totalUsage, hpending, of_decide_eq_true hlast, hget,
    of_decide_eq_true hvalid, of_decide_eq_true hle⟩

section insertion

variable (env : ReplayEnv) (path : Path) (threadId : String) (asOf : Option DateTime)
  {front back : List ParsedEvent} {counter : TokenCountEvent}
  (htotal : counter.totalUsage = none) (hlast : counter.lastUsage = none)

include htotal in
theorem replay_usageFree (covered : List Nat) (state : Replay) (i : Nat) :
    Beside (shownObservation (some threadId) asOf counter state.thread.threadId
        state.thread.openTurn) state
      (replayEvent env path threadId asOf covered state (.tokenCount counter, i)) := by
  unfold shownObservation
  by_cases hvisible : eventIsVisible asOf (.tokenCount counter)
  · obtain ⟨updatedAt, hsaw⟩ := sawActivity_aside asOf (.tokenCount counter) state
    have hstep : replayEvent env path threadId asOf covered state (.tokenCount counter, i) =
        Replay.recordRateLimits
          ⟨state.thread.aside updatedAt state.thread.incompleteCounterBoundary, state.dataset⟩
          counter.rateLimits counter.timestamp := by
      rw [replayEvent_seen env path threadId covered state i hvisible, hsaw]
      unfold applyVisible
      dsimp only
      rw [htotal]
      split <;> rfl
    rw [hstep, if_pos (by simp [hvisible])]
    have hthread : SameBuilder state.thread
        (state.thread.aside updatedAt state.thread.incompleteCounterBoundary) :=
      ⟨updatedAt, state.thread.incompleteCounterBoundary, fun _ => rfl, rfl⟩
    cases counter.rateLimits with
    | none => exact ⟨hthread, state.dataset.rateObservations, [], by simp, by
        simp [Replay.recordRateLimits]⟩
    | some limits =>
      refine ⟨hthread, state.dataset.rateObservations, [], (List.append_nil _).symm, ?_⟩
      rw [List.append_nil]
      rfl
  · have hkeep : ¬ hidesCounter (.tokenCount counter) = true := by
      unfold hidesCounter
      simp [htotal]
    rw [replayEvent_hidden env path threadId covered state i hvisible, if_neg hkeep,
      if_neg (by simp [hvisible])]
    refine ⟨.refl _, state.dataset.rateObservations, [], (List.append_nil _).symm, ?_⟩
    rw [List.append_nil, List.append_nil]

theorem mem_requestCovered {lost : Option Nat}
    (h : Shifted front.length lost (coverageOf asOf (front ++ back))
      (coverageOf asOf (front ++ .tokenCount counter :: back)))
    {i : Nat} (hi : lost ≠ some i) :
    i ∈ requestCoveredCounters (front ++ back) asOf ↔ shift front.length i ∈
      requestCoveredCounters (front ++ .tokenCount counter :: back) asOf := by
  rw [requestCoveredCounters_eq, requestCoveredCounters_eq]
  exact h.mem_covered hi

theorem replay_baseline (covered : List Nat) (events : List (ParsedEvent × Nat))
    (state : Replay) :
    (events.foldl (replayEvent env path threadId asOf covered) state).thread.baseline.1 =
      events.foldl (baselineStep asOf covered) state.thread.baseline.1 := by
  induction events generalizing state with
  | nil => rfl
  | cons entry rest ih => rw [List.foldl_cons, List.foldl_cons, ih, replayEvent_baseline]

include htotal in
theorem replay_past_insertion {covered covered' : List Nat} {passed : List ParsedEvent}
    (h : ∀ j, j < front.length + passed.length →
      (j ∈ covered ↔ shift front.length j ∈ covered')) (start : Replay) :
    ∃ threadId' turnId,
      Beside (shownObservation (some threadId) asOf counter threadId' turnId)
        ((passed.zipIdx front.length).foldl (replayEvent env path threadId asOf covered)
          (front.zipIdx.foldl (replayEvent env path threadId asOf covered) start))
        ((passed.zipIdx (front.length + 1)).foldl (replayEvent env path threadId asOf covered')
          (replayEvent env path threadId asOf covered'
            (front.zipIdx.foldl (replayEvent env path threadId asOf covered') start)
            (.tokenCount counter, front.length))) := by
  have hfront : front.zipIdx.foldl (replayEvent env path threadId asOf covered) start =
      front.zipIdx.foldl (replayEvent env path threadId asOf covered') start := by
    refine replay_congr env path threadId asOf front 0 (fun j hj => ?_) start
    rw [h j (by omega), shift_of_lt (by omega)]
  rw [← hfront]
  refine ⟨_, _, shifted_replay env path threadId asOf
    (fun s t entry hst => hst.event env path threadId asOf covered entry) passed front.length
    (fun j hle hj => ?_) (replay_usageFree env path threadId asOf htotal covered' _ front.length)⟩
  rw [h j (by omega), shift_of_le hle]

theorem replay_cut (covered : List Nat) (start : Replay) (front back : List ParsedEvent)
    (event : ParsedEvent) :
    (front ++ event :: back).zipIdx.foldl (replayEvent env path threadId asOf covered) start =
      (back.zipIdx (front.length + 1)).foldl (replayEvent env path threadId asOf covered)
        (replayEvent env path threadId asOf covered
          (front.zipIdx.foldl (replayEvent env path threadId asOf covered) start)
          (event, front.length)) := by
  rw [List.zipIdx_append, List.foldl_append, Nat.zero_add, List.zipIdx_cons, List.foldl_cons]

theorem replay_front (covered : List Nat) (start : Replay) (front back : List ParsedEvent) :
    (front ++ back).zipIdx.foldl (replayEvent env path threadId asOf covered) start =
      (back.zipIdx front.length).foldl (replayEvent env path threadId asOf covered)
        (front.zipIdx.foldl (replayEvent env path threadId asOf covered) start) := by
  rw [List.zipIdx_append, List.foldl_append, Nat.zero_add]

theorem replay_split (covered : List Nat) (start : Replay) (i : Nat) (passed rest : List ParsedEvent)
    (event : ParsedEvent) :
    ((passed ++ event :: rest).zipIdx i).foldl (replayEvent env path threadId asOf covered) start =
      (rest.zipIdx (i + passed.length + 1)).foldl (replayEvent env path threadId asOf covered)
        (replayEvent env path threadId asOf covered
          ((passed.zipIdx i).foldl (replayEvent env path threadId asOf covered) start)
          (event, i + passed.length)) := by
  rw [List.zipIdx_append, List.foldl_append, List.zipIdx_cons, List.foldl_cons]

include htotal in
/-- No mirror is lost: the replays stay beside each other. -/
theorem replay_beside
    (h : ∀ i, i ∈ requestCoveredCounters (front ++ back) asOf ↔ shift front.length i ∈
      requestCoveredCounters (front ++ .tokenCount counter :: back) asOf) (start : Replay) :
    ∃ threadId' turnId,
      Beside (shownObservation (some threadId) asOf counter threadId' turnId)
        ((front ++ back).zipIdx.foldl (replayEvent env path threadId asOf
          (requestCoveredCounters (front ++ back) asOf)) start)
        ((front ++ .tokenCount counter :: back).zipIdx.foldl (replayEvent env path threadId asOf
          (requestCoveredCounters (front ++ .tokenCount counter :: back) asOf)) start) := by
  rw [replay_front, replay_cut]
  exact replay_past_insertion env path threadId asOf htotal (fun j _ => h j) start

include htotal hlast in
/-- A mirror is lost: the replays stay beside each other when it does not rise above the baseline;
otherwise the second one has counted more. -/
theorem replay_lost {passed rest : List ParsedEvent} {mirror : TokenCountEvent}
    {totalUsage : TokenUsage} (hback : back = passed ++ .tokenCount mirror :: rest)
    (hvalid : ∀ request, .requestUsage request ∈ front → request.usage.hasValidBreakdown)
    (hpending : PendingMirror asOf front passed (.tokenCount mirror))
    (hproven : front.length + passed.length ∉ (coverageOf asOf (front ++ back)).proven)
    (hmirror : mirror.totalUsage = some totalUsage) (start : Replay) :
    let quiet := ∃ delta, increase (baselineAfter asOf
      (requestCoveredCounters (front ++ back) asOf) start.thread.baseline.1 (front ++ passed))
      totalUsage mirror.lastUsage = some delta ∧ delta.isZero
    let first := (front ++ back).zipIdx.foldl (replayEvent env path threadId asOf
      (requestCoveredCounters (front ++ back) asOf)) start
    let second := (front ++ .tokenCount counter :: back).zipIdx.foldl
      (replayEvent env path threadId asOf
        (requestCoveredCounters (front ++ .tokenCount counter :: back) asOf)) start
    (quiet → ∃ threadId' turnId,
      Beside (shownObservation (some threadId) asOf counter threadId' turnId) first second) ∧
    (¬ quiet → Ahead first second) := by
  have hshifted := inserted_mirror hlast rest hpending
  rw [← hback] at hshifted
  obtain ⟨hin, hout⟩ := hshifted.mem_lost
  rw [← requestCoveredCounters_eq] at hin hout
  rw [shift_of_le (by omega)] at hout
  have hcovered : ∀ i, i ≠ front.length + passed.length →
      (i ∈ requestCoveredCounters (front ++ back) asOf ↔ shift front.length i ∈
        requestCoveredCounters (front ++ .tokenCount counter :: back) asOf) := fun i hne =>
    mem_requestCovered asOf hshifted fun heq => hne (Option.some.inj heq).symm
  generalize requestCoveredCounters (front ++ back) asOf = covered at hin hcovered ⊢
  generalize requestCoveredCounters (front ++ .tokenCount counter :: back) asOf = covered'
    at hout hcovered ⊢
  obtain ⟨hvisible, requestTurn, usage, totalUsage', hrecord, hlastUsage, htotalUsage, hbreakdown,
    hle⟩ := mirror_usage hpending.mirrors
  obtain ⟨request, hrequest, rfl⟩ := pending_mem hrecord
  obtain rfl := Option.some.inj (hmirror.symm.trans htotalUsage)
  have hpast : ∀ j, j < front.length + passed.length →
      (j ∈ covered ↔ shift front.length j ∈ covered') := fun j hj => hcovered j (by omega)
  obtain ⟨threadId', turnId, hbeside⟩ :=
    replay_past_insertion env path threadId asOf htotal hpast start
  have hrest : ∀ j, front.length + passed.length + 1 ≤ j →
      j < front.length + passed.length + 1 + rest.length → (j ∈ covered ↔ j + 1 ∈ covered') := by
    intro j hj _
    rw [hcovered j (by omega), shift_of_le (by omega)]
  obtain ⟨hquiet, hloud⟩ := replay_lost_mirror env path threadId asOf hbeside hvisible hin
    (fun hmem => hproven (hout.1 hmem)) htotalUsage hlastUsage hbreakdown (hvalid request hrequest)
    hle
  rw [replay_baseline, replay_baseline, ← List.foldl_append] at hquiet hloud
  have hbaseline : baselineAfter asOf covered start.thread.baseline.1 (front ++ passed) =
      (front.zipIdx ++ passed.zipIdx front.length).foldl (baselineStep asOf covered)
        start.thread.baseline.1 := by
    unfold baselineAfter
    rw [List.zipIdx_append, Nat.zero_add]
  rw [hbaseline, hlastUsage, replay_front, replay_cut, hback, replay_split, replay_split,
    Nat.add_right_comm front.length 1]
  refine ⟨fun h => ⟨threadId', turnId, ?_⟩, fun h => ?_⟩
  · exact shifted_replay env path threadId asOf
      (fun s t entry hst => hst.event env path threadId asOf covered entry) rest _ hrest (hquiet h)
  · exact shifted_replay env path threadId asOf
      (fun s t entry hst => hst.event env path threadId asOf covered entry) rest _ hrest (hloud h)

include htotal hlast in
/-- **Two replays** of the events with and without the counter. -/
theorem replay_inserted
    (hvalid : ∀ request, .requestUsage request ∈ front ++ back → request.usage.hasValidBreakdown)
    (start : Replay) :
    let first := (front ++ back).zipIdx.foldl (replayEvent env path threadId asOf
      (requestCoveredCounters (front ++ back) asOf)) start
    let second := (front ++ .tokenCount counter :: back).zipIdx.foldl
      (replayEvent env path threadId asOf
        (requestCoveredCounters (front ++ .tokenCount counter :: back) asOf)) start
    (¬ CountsMirror asOf start.thread.baseline.1 front back → ∃ threadId' turnId,
      Beside (shownObservation (some threadId) asOf counter threadId' turnId) first second) ∧
    (CountsMirror asOf start.thread.baseline.1 front back → Ahead first second) := by
  have hfront : ∀ request, .requestUsage request ∈ front → request.usage.hasValidBreakdown :=
    fun request hmem => hvalid request (List.mem_append_left back hmem)
  refine ⟨fun hkeep => ?_, fun hlost => ?_⟩
  · by_cases hpending : ∃ passed mirror rest, back = passed ++ mirror :: rest ∧
        PendingMirror asOf front passed mirror
    · obtain ⟨passed, mirror, rest, hback, hmirror⟩ := hpending
      obtain ⟨event, rfl⟩ : ∃ event, mirror = .tokenCount event := by
        have hkind := hmirror.mirrors
        unfold isMirror at hkind
        cases mirror with
        | tokenCount event => exact ⟨event, rfl⟩
        | _ => simp at hkind
      by_cases hproven : front.length + passed.length ∈ (coverageOf asOf (front ++ back)).proven
      · refine replay_beside env path threadId asOf htotal (fun i => ?_) start
        have hshifted := inserted_mirror hlast rest hmirror
        rw [← hback] at hshifted
        by_cases hi : i = front.length + passed.length
        · subst hi
          obtain ⟨hin, hout⟩ := hshifted.mem_lost
          rw [requestCoveredCounters_eq, requestCoveredCounters_eq]
          exact iff_of_true hin (hout.2 hproven)
        · exact mem_requestCovered asOf hshifted fun heq => hi (Option.some.inj heq).symm
      · obtain ⟨-, -, -, totalUsage, -, -, hget, -, -⟩ := mirror_usage hmirror.mirrors
        refine (replay_lost env path threadId asOf htotal hlast hback hfront hmirror hproven hget
          start).1 ?_
        by_contra hloud
        exact hkeep ⟨passed, event, rest, totalUsage, hback, hmirror, hproven, hget, hloud⟩
    · refine replay_beside env path threadId asOf htotal (fun i => ?_) start
      refine mem_requestCovered asOf (inserted_shifted hlast fun passed mirror rest hback hmirror =>
        hpending ⟨passed, mirror, rest, hback, hmirror⟩) fun heq => nomatch heq
  · obtain ⟨passed, event, rest, totalUsage, hback, hmirror, hproven, hget, hloud⟩ := hlost
    exact (replay_lost env path threadId asOf htotal hlast hback hfront hmirror hproven hget
      start).2 hloud

end insertion

/-! ## Files -/

section file

variable (env : ReplayEnv) (path : Path) (parsed : ParsedFile) (config : CollectConfig)
  (threads : Map ThreadBuilder) (dataset : RolloutDataset) (asOf : Option DateTime)
  (incomplete : Bool) {front back : List ParsedEvent} {counter : TokenCountEvent}

theorem startFile_inserted (front back : List ParsedEvent) (counter : TokenCountEvent)
    (thread : ThreadBuilder) :
    startFile path { parsed with events := front ++ .tokenCount counter :: back } config asOf
        thread =
      startFile path { parsed with events := front ++ back } config asOf thread := by
  unfold startFile
  rw [List.any_append, List.any_cons, List.any_append]
  rfl

theorem startFile_baseline (events : List ParsedEvent) (thread : ThreadBuilder) :
    (startFile path { parsed with events := events } config asOf thread).baseline =
      thread.baseline := by
  unfold startFile markFileSeen
  dsimp only
  split
  · split <;> rfl
  · rfl

theorem SameBuilder.finishFile {before after : ThreadBuilder} (h : SameBuilder before after)
    (events events' : List ParsedEvent) :
    SameBuilder (finishFile { parsed with events := events } asOf before)
      (finishFile { parsed with events := events' } asOf after) := by
  obtain ⟨updatedAt, flag, hflag, rfl⟩ := h
  unfold Rollout.finishFile
  dsimp only
  split
  · exact ⟨_, flag, hflag, rfl⟩
  · exact ⟨updatedAt, flag, hflag, rfl⟩

theorem hidden_dataset (threadId : String) (covered : List Nat) {events : List ParsedEvent}
    (h : ∀ event ∈ events, ¬ eventIsVisible asOf event) (i : Nat) (state : Replay) :
    ((events.zipIdx i).foldl (replayEvent env path threadId asOf covered) state).dataset =
      state.dataset := by
  induction events generalizing i state with
  | nil => rfl
  | cons event rest ih =>
    rw [List.zipIdx_cons, List.foldl_cons,
      ih (fun event hmem => h event (List.mem_cons_of_mem _ hmem)),
      replayEvent_hidden env path threadId covered state i (h event List.mem_cons_self)]
    split <;> rfl

theorem optionRel_refl (threads : Map ThreadBuilder) (id : String) :
    Option.Rel SameBuilder threads[id]? threads[id]? := by
  cases threads[id]? with
  | none => exact .none
  | some thread => exact .some (.refl thread)

theorem replayRolloutFile_owned {file : ParsedFile} {threadId : String}
    (howner : file.ownerThreadId = some threadId) :
    replayRolloutFile env path file config threads dataset asOf incomplete =
      if file.events.any (eventIsVisible asOf) then
        let state := replayThread env path file config threadId
          (threads[threadId]?.getD (.new threadId incomplete)) dataset asOf
        (threads.insert threadId state.thread, state.dataset)
      else (threads, dataset) := by
  unfold replayRolloutFile
  rw [howner]

/-- **A counter without usage only adds its observation**, unless a native record waits for its
mirror where it is inserted, the totals do not prove the mirror and it rises above the baseline. -/
theorem rateOnly_adds_iff (htotal : counter.totalUsage = none) (hlast : counter.lastUsage = none)
    (hvalid : ∀ request, .requestUsage request ∈ front ++ back →
      request.usage.hasValidBreakdown) :
    OnlyAdds (shownObservation parsed.ownerThreadId asOf counter)
      ((front ++ back).any (eventIsVisible asOf))
      (replayRolloutFile env path { parsed with events := front ++ back } config threads dataset
        asOf incomplete)
      (replayRolloutFile env path { parsed with events := front ++ .tokenCount counter :: back }
        config threads dataset asOf incomplete) ↔
      ¬ ∃ threadId, parsed.ownerThreadId = some threadId ∧ CountsMirror asOf
        (threads[threadId]?.bind ThreadBuilder.previousCumulative) front back := by
  obtain howner | ⟨threadId, howner⟩ := Option.eq_none_or_eq_some parsed.ownerThreadId
  · have hnone : ∀ events, replayRolloutFile env path { parsed with events := events } config
        threads dataset asOf incomplete = (threads, dataset) := by
      intro events
      unfold replayRolloutFile
      dsimp only
      rw [howner]
    rw [hnone, hnone, howner]
    refine iff_of_true ⟨⟨"", none, dataset.rateObservations, [], (List.append_nil _).symm, ?_⟩,
      fun _ id => optionRel_refl threads id⟩ fun hlost => nomatch hlost.choose_spec.1
    simp [shownObservation]
  · have hreplay : ∀ events, replayRolloutFile env path { parsed with events := events } config
        threads dataset asOf incomplete =
        if events.any (eventIsVisible asOf) then
          let state := replayThread env path { parsed with events := events } config threadId
            (threads[threadId]?.getD (.new threadId incomplete)) dataset asOf
          (threads.insert threadId state.thread, state.dataset)
        else (threads, dataset) := fun events =>
      replayRolloutFile_owned env path config threads dataset asOf incomplete howner
    have hshown : shownObservation parsed.ownerThreadId asOf counter =
        shownObservation (some threadId) asOf counter := by rw [howner]
    rw [hreplay, hreplay, hshown]
    have hstart : ∀ events, (startFile path { parsed with events := events } config asOf
        (threads[threadId]?.getD (.new threadId incomplete))).baseline.1 =
        threads[threadId]?.bind ThreadBuilder.previousCumulative := by
      intro events
      rw [startFile_baseline]
      cases threads[threadId]? <;> rfl
    have hcond : (∃ id, parsed.ownerThreadId = some id ∧ CountsMirror asOf
        (threads[id]?.bind ThreadBuilder.previousCumulative) front back) ↔ CountsMirror asOf
        (threads[threadId]?.bind ThreadBuilder.previousCumulative) front back :=
      ⟨fun ⟨id, heq, h⟩ => Option.some.inj (howner.symm.trans heq) ▸ h,
        fun h => ⟨threadId, howner, h⟩⟩
    rw [hcond]
    by_cases hvisible : (front ++ back).any (eventIsVisible asOf)
    · have hvisible' : (front ++ .tokenCount counter :: back).any (eventIsVisible asOf) := by
        rw [List.any_append] at hvisible ⊢
        rw [List.any_cons]
        rcases Bool.or_eq_true_iff.1 hvisible with hf | hb
        · simp [hf]
        · simp [hb]
      rw [if_pos hvisible, if_pos hvisible', hvisible]
      unfold replayThread
      dsimp only
      rw [startFile_inserted]
      obtain ⟨hbeside, hahead⟩ := replay_inserted env path threadId asOf htotal hlast hvalid
        ⟨startFile path { parsed with events := front ++ back } config asOf
          (threads[threadId]?.getD (.new threadId incomplete)), dataset⟩
      dsimp only at hbeside hahead
      rw [hstart] at hbeside hahead
      refine ⟨fun hadds hlost => ?_, fun hkeep => ?_⟩
      · obtain ⟨id, turnId, first, last, -, hdataset⟩ := hadds.dataset
        have hmore := (hahead hlost).more
        unfold Replay.counted at hmore
        dsimp only at hdataset
        rw [hdataset] at hmore
        exact absurd hmore (lt_irrefl _)
      · obtain ⟨id, turnId, h⟩ := hbeside hkeep
        refine ⟨⟨id, turnId, h.dataset⟩, fun _ other => ?_⟩
        rw [Std.ExtTreeMap.getElem?_insert, Std.ExtTreeMap.getElem?_insert]
        split
        · exact .some (h.thread.finishFile parsed asOf _ _)
        · exact optionRel_refl threads other
    · have hhidden : ∀ event ∈ front ++ back, ¬ eventIsVisible asOf event := fun event hmem h =>
        hvisible (List.any_eq_true.2 ⟨event, hmem, h⟩)
      rw [if_neg hvisible, Bool.eq_false_iff.2 hvisible]
      refine iff_of_true ⟨?_, fun hreplayed => nomatch hreplayed⟩ ?_
      · by_cases hcounter : eventIsVisible asOf (.tokenCount counter)
        · rw [if_pos (by simp [hcounter])]
          unfold replayThread
          dsimp only
          rw [replay_cut, hidden_dataset env path asOf threadId _
            fun event hmem => hhidden event (List.mem_append_right front hmem)]
          generalize requestCoveredCounters _ _ = covered
          have hmid := hidden_dataset env path asOf threadId covered
            (fun event hmem => hhidden event (List.mem_append_left back hmem)) 0
            ⟨startFile path { parsed with events := front ++ .tokenCount counter :: back } config
              asOf (threads[threadId]?.getD (.new threadId incomplete)), dataset⟩
          obtain ⟨first, last, hfirst, hdataset⟩ :=
            (replay_usageFree env path threadId asOf htotal covered _ front.length).dataset
          rw [hmid] at hfirst hdataset
          exact ⟨_, _, first, last, hfirst, hdataset⟩
        · have hnone : ¬ (front ++ .tokenCount counter :: back).any (eventIsVisible asOf) := by
            rw [List.any_append, List.any_cons, Bool.eq_false_iff.2 hcounter, Bool.false_or,
              ← List.any_append]
            exact hvisible
          rw [if_neg hnone]
          refine ⟨"", none, dataset.rateObservations, [], (List.append_nil _).symm, ?_⟩
          simp [shownObservation, hcounter]
      · rintro ⟨passed, event, rest, totalUsage, rfl, hmirror, -⟩
        exact hhidden _ (by simp) (mirror_usage hmirror.mirrors).1

end file

namespace Sample

def rateOnlyEnv : ReplayEnv := ⟨fun _ => [], fun _ => none⟩

def tenTokens : TokenUsage := ⟨10, 0, 0, 0, 0, 0, 10⟩

def rateOnlyParsed : ParsedFile where
  ownerThreadId := some "thread"
  activityUpdatedAt := none
  events := []
  parsedLines := 0
  skippedLines := 0
  unreadableFiles := 0
  warnings := []
  suppressedWarnings := 0
  complete := true
  replayStartedAt := none
  replayUpdatedAt := none
  replayTimestampsComplete := true

/-- A native record of a turn that has started. -/
def recorded : List ParsedEvent :=
  [.taskStarted 0 "turn" none, .requestUsage ⟨1, "turn", "response", tenTokens, none⟩]

def mirrored : List ParsedEvent := [.tokenCount ⟨3, 3, some tenTokens, some tenTokens, none⟩]

def rateLimits : TokenCountEvent := ⟨2, 2, none, none, some ⟨"codex", none, none⟩⟩

def replayed (events : List ParsedEvent) : Map ThreadBuilder × RolloutDataset :=
  replayRolloutFile rateOnlyEnv ["rollout.jsonl"] { rateOnlyParsed with events := events }
    ⟨["codex"], false, 0⟩ ∅ default none false

theorem recorded_valid : ∀ request, .requestUsage request ∈ recorded ++ mirrored →
    request.usage.hasValidBreakdown := by
  intro request hmem
  simp only [recorded, mirrored, List.cons_append, List.nil_append, List.mem_cons,
    List.not_mem_nil, or_false, reduceCtorEq, false_or, ParsedEvent.requestUsage.injEq] at hmem
  rw [hmem]
  decide

end Sample

/-- After the mirror the counter only adds its observation. -/
theorem rateOnly_after_mirror :
    OnlyAdds (shownObservation (some "thread") none Sample.rateLimits)
      ((Sample.recorded ++ Sample.mirrored ++ []).any (eventIsVisible none))
      (Sample.replayed (Sample.recorded ++ Sample.mirrored ++ []))
      (Sample.replayed (Sample.recorded ++ Sample.mirrored ++ [.tokenCount Sample.rateLimits])) := by
  refine (rateOnly_adds_iff Sample.rateOnlyEnv ["rollout.jsonl"] Sample.rateOnlyParsed
    ⟨["codex"], false, 0⟩ ∅ default none false
    (show Sample.rateLimits.totalUsage = none from rfl)
    (show Sample.rateLimits.lastUsage = none from rfl) ?_).2 ?_
  · rw [List.append_nil]
    exact Sample.recorded_valid
  · rintro ⟨threadId, -, passed, counter, rest, totalUsage, hback, -⟩
    exact absurd hback (by simp)

/-- Between a native record and its mirror the counter makes the request count twice. -/
theorem rateOnly_counts_mirror :
    (Sample.replayed (Sample.recorded ++ Sample.mirrored)).2.calls.map UsageCall.tokens =
        [Sample.tenTokens] ∧
      (Sample.replayed (Sample.recorded ++ .tokenCount Sample.rateLimits ::
        Sample.mirrored)).2.calls.map UsageCall.tokens = [Sample.tenTokens, Sample.tenTokens] := by
  decide +kernel

end Rollout
