import UsageMonit.Rollout.Materialize

/-!
# Reduced states own their calls

A reduced state holds each thread under its own id and each turn under its own id, and every call
belongs to one of its threads. A replay only adds to the thread of its file, so this holds of
every state that reductions from nothing and incremental ones can reach.

* `replayEvent_lift`: what an event keeps follows from what its parts keep
* `replayFileIntoReduced_wellReduced`: so does a file
* `Reduced.wellReduced`: every reduced state owns its calls
-/

namespace Rollout

open Time Usage

/-! ## Values of a map -/

variable {reduced : ReducedRollouts} {thread : ThreadBuilder}

theorem values_eq_foldr {α : Type} (m : Map α) :
    m.values = m.foldr (fun _ value rest => value :: rest) [] := by
  rcases m with ⟨inner⟩
  rcases inner with ⟨q⟩
  induction q using Quotient.inductionOn
  rfl

theorem values_eq_map {α : Type} (m : Map α) : m.values = m.toList.map Prod.snd := by
  rw [values_eq_foldr, Std.ExtTreeMap.foldr_eq_foldr_toList]
  induction m.toList with
  | nil => rfl
  | cons entry rest ih => simp [ih]

theorem mem_values {α : Type} {m : Map α} {value : α} :
    value ∈ m.values ↔ ∃ key : String, m[key]? = some value := by
  rw [values_eq_map, List.mem_map]
  constructor
  · rintro ⟨⟨key, value⟩, hmem, rfl⟩
    exact ⟨key, Std.ExtTreeMap.mem_toList_iff_getElem?_eq_some.1 hmem⟩
  · rintro ⟨key, hget⟩
    exact ⟨(key, value), Std.ExtTreeMap.mem_toList_iff_getElem?_eq_some.2 hget, rfl⟩

theorem getElem?_insert_cases {α : Type} {m : Map α} {key key' : String} {value value' : α}
    (h : (m.insert key value)[key']? = some value') :
    (key' = key ∧ value' = value) ∨ m[key']? = some value' := by
  rw [Std.ExtTreeMap.getElem?_insert] at h
  simp only [Std.compare_eq_iff_eq] at h
  split at h
  · rename_i heq
    exact .inl ⟨heq.symm, (Option.some.inj h).symm⟩
  · exact .inr h

/-! ## Builders -/

/-- A builder kept under its own id, with its turns under theirs. -/
structure Owned (threadId : String) (thread : ThreadBuilder) : Prop where
  threadId_eq : thread.threadId = threadId
  turns : ∀ (key : String) turn, thread.turns[key]? = some turn → turn.turnId = key

theorem owned_new (threadId : String) (incompleteCounterBoundary : Bool) :
    Owned threadId (.new threadId incompleteCounterBoundary) where
  threadId_eq := rfl
  turns key turn h := by
    rw [show (ThreadBuilder.new threadId incompleteCounterBoundary).turns[key]? = none from
      Std.ExtTreeMap.getElem?_empty] at h
    cases h

section builder

variable {threadId : String}

section

variable (h : Owned threadId thread)

include h

theorem Owned.of_eq {after : ThreadBuilder}
    (hid : after.threadId = thread.threadId) (hturns : after.turns = thread.turns) :
    Owned threadId after where
  threadId_eq := hid.trans h.threadId_eq
  turns := by
    rw [hturns]
    exact h.turns

theorem Owned.turn_id (turnId : String) :
    (thread.turns[turnId]?.getD (.new turnId)).turnId = turnId := by
  cases hget : thread.turns[turnId]? with
  | none => rfl
  | some turn => exact h.turns turnId turn hget

theorem Owned.withTurn (turnId : String)
    {change : TurnBuilder → TurnBuilder} (hchange : ∀ turn, (change turn).turnId = turn.turnId) :
    Owned threadId (thread.withTurn turnId change) where
  threadId_eq := h.threadId_eq
  turns key turn hget := by
    rcases getElem?_insert_cases hget with ⟨rfl, rfl⟩ | hold
    · rw [hchange]
      exact h.turn_id key
    · exact h.turns key turn hold

theorem Owned.ensureTurn (turnId : String) :
    Owned threadId (ensureTurn thread turnId) := h.withTurn turnId fun _ => rfl

theorem Owned.activateTurn (turnId : String) (startedAt : DateTime) :
    Owned threadId (activateTurn thread turnId startedAt) := by
  unfold Rollout.activateTurn
  dsimp only
  split
  · exact h.ensureTurn turnId
  · have hstarted : Owned threadId ((Rollout.ensureTurn thread turnId).withTurn turnId
        (TurnBuilder.start thread.serviceTier startedAt)) :=
      (h.ensureTurn turnId).withTurn turnId fun _ => rfl
    exact hstarted.of_eq rfl rfl

theorem Owned.finishTurn (turnId : String) (completedAt : DateTime)
    (durationMs : Option Nat) (status : TurnStatus) :
    Owned threadId (finishTurn thread turnId completedAt durationMs status) := by
  have hfinished : Owned threadId
      (thread.withTurn turnId (TurnBuilder.finish completedAt durationMs status)) :=
    h.withTurn turnId fun _ => rfl
  exact hfinished.of_eq rfl rfl

theorem Owned.applyTurnContext (payload : Json)
    (timestamp : DateTime) : Owned threadId (applyTurnContext thread payload timestamp) := by
  unfold Rollout.applyTurnContext
  cases stringFieldIn payload ["turn_id", "turnId"] with
  | none => exact h
  | some turnId =>
    have hactive : Owned threadId (if thread.activeTurnIds.contains turnId then thread
        else Rollout.activateTurn thread turnId timestamp) := by
      split
      · exact h
      · exact h.activateTurn turnId timestamp
    have hensured := hactive.ensureTurn turnId
    cases stringFieldIn payload ["model"] <;>
      cases stringFieldIn payload ["effort", "reasoning_effort", "reasoningEffort"] <;> dsimp only
    · exact hensured
    · exact hensured.withTurn turnId fun _ => rfl
    · exact hensured.withTurn turnId fun _ => rfl
    · refine Owned.withTurn ?_ turnId fun _ => rfl
      exact hensured.withTurn turnId fun _ => rfl

theorem Owned.applyThreadSettings (serviceTier : Option String) :
    Owned threadId (applyThreadSettings thread serviceTier) where
  threadId_eq := h.threadId_eq
  turns := by
    refine List.foldlRecOn thread.activeTurnIds _
      (motive := fun turns : Map TurnBuilder => ∀ (key : String) turn,
        turns[key]? = some turn → turn.turnId = key) h.turns fun turns hturns turnId _ => ?_
    cases hget : turns[turnId]? with
    | none => exact hturns
    | some builder =>
      intro key turn hkey
      rcases getElem?_insert_cases hkey with ⟨rfl, rfl⟩ | hold
      · exact hturns key builder hget
      · exact hturns key turn hold

theorem Owned.applyUserMessage (message : String)
    (turnId : Option String) (source : UserMessageSource) :
    Owned threadId (applyUserMessage thread message turnId source) := by
  have htitle : ∀ turn, Owned threadId (replaceTitle thread message turn source) := by
    intro turn
    unfold replaceTitle
    split
    · exact h.of_eq rfl rfl
    · exact h
  unfold Rollout.applyUserMessage
  dsimp only
  split
  · exact htitle _
  · refine (htitle _).withTurn _ fun turn => ?_
    unfold TurnBuilder.preview
    split <;> rfl

end

theorem Owned.applyEvent (env : ReplayEnv) (h : Owned threadId thread) (event : ParsedEvent) :
    Owned threadId (applyEvent env thread event) := by
  cases event with
  | userMessage timestamp preview turnId source => exact h.applyUserMessage _ _ _
  | threadSettingsApplied timestamp serviceTier => exact h.applyThreadSettings _
  | turnContext timestamp payload => exact h.applyTurnContext payload timestamp
  | taskStarted timestamp turnId startedAt => exact h.activateTurn turnId _
  | taskComplete timestamp turnId completedAt durationMs => exact h.finishTurn turnId _ _ _
  | turnAborted timestamp turnId completedAt durationMs failed => exact h.finishTurn turnId _ _ _
  | sessionMeta timestamp payload => exact h.of_eq rfl rfl
  | foreignCounterBaseline timestamp totalUsage => exact h.of_eq rfl rfl
  | foreignThreadSettingsBaseline timestamp model serviceTier => exact h.of_eq rfl rfl
  | agentCall requestedAt callId parentTurnId kind => exact h.of_eq rfl rfl
  | agentActivity recordedAt occurredAt callId childThreadId kind => exact h.of_eq rfl rfl
  | activity timestamp => exact h
  | requestUsage request => exact h
  | tokenCount counter => exact h

theorem Owned.addUsage (h : Owned threadId thread) (delta : TokenUsage) :
    Owned threadId (thread.addUsage delta) := by
  have hcounted : Owned threadId
      { thread with tokenUsage := thread.tokenUsage.addAssign delta } := h.of_eq rfl rfl
  unfold ThreadBuilder.addUsage
  split
  · exact hcounted
  · exact hcounted.withTurn _ fun _ => rfl

end builder

/-! ## Replays -/

/-- The activity that an event seen as of a moment leaves. -/
def Replay.sawActivity (asOf : Option DateTime) (event : ParsedEvent) (state : Replay) : Replay :=
  if asOf.isSome then
    match parsedEventAvailableAt event with
    | some activityAt =>
      { state with thread := { state.thread with
          updatedAt := setMaxTimestamp state.thread.updatedAt activityAt } }
    | none => state
  else state

theorem replayEvent_seen (env : ReplayEnv) (path : Path) (threadId : String)
    {asOf : Option DateTime} (covered : List Nat) (state : Replay) {event : ParsedEvent}
    (index : Nat) (hvisible : eventIsVisible asOf event) :
    replayEvent env path threadId asOf covered state (event, index) =
      applyVisible env path threadId covered (state.sawActivity asOf event) (event, index) := by
  unfold replayEvent
  rw [if_neg (by simp [hvisible])]
  rfl

theorem replayEvent_hidden (env : ReplayEnv) (path : Path) (threadId : String)
    {asOf : Option DateTime} (covered : List Nat) (state : Replay) {event : ParsedEvent}
    (index : Nat) (hvisible : ¬ eventIsVisible asOf event) :
    replayEvent env path threadId asOf covered state (event, index) =
      if hidesCounter event then state.setBaseline none true else state := by
  unfold replayEvent
  rw [if_pos (by simp [hvisible])]

/-- **What an event keeps** follows from what its parts keep. -/
theorem replayEvent_lift {R : Replay → Replay → Prop} (env : ReplayEnv) (path : Path)
    (threadId : String) (asOf : Option DateTime) (covered : List Nat)
    (hactivity : ∀ {s t} event, R s t → R (s.sawActivity asOf event) (t.sawActivity asOf event))
    (hevent : ∀ {s t} event, R s t → R { s with thread := applyEvent env s.thread event }
      { t with thread := applyEvent env t.thread event })
    (hrequest : ∀ {s t} request, R s t →
      R (s.countRequest env threadId request) (t.countRequest env threadId request))
    (hcount : ∀ {s t} usage rateLimits timestamp lineNumber, R s t →
      R (applyTokenCount env s usage rateLimits timestamp path lineNumber)
        (applyTokenCount env t usage rateLimits timestamp path lineNumber))
    (hbaseline : ∀ {s t} previous incomplete, R s t →
      R (s.setBaseline previous incomplete) (t.setBaseline previous incomplete))
    {s t : Replay} (h : R s t) (entry : ParsedEvent × Nat) :
    R (replayEvent env path threadId asOf covered s entry)
      (replayEvent env path threadId asOf covered t entry) := by
  obtain ⟨event, index⟩ := entry
  by_cases hvisible : eventIsVisible asOf event
  · rw [replayEvent_seen env path threadId covered s index hvisible,
      replayEvent_seen env path threadId covered t index hvisible]
    have hseen := hactivity event h
    have hother := hevent event hseen
    cases event with
    | requestUsage request => exact hrequest request hseen
    | tokenCount counter =>
      have hcounted := hcount ⟨none, counter.lastUsage⟩ counter.rateLimits counter.timestamp
        counter.lineNumber hseen
      unfold applyVisible
      dsimp only
      split
      · split
        · exact hcounted
        · exact hbaseline _ _ hcounted
      · exact hcount _ _ _ _ hseen
    | _ => exact hother
  · rw [replayEvent_hidden env path threadId covered s index hvisible,
      replayEvent_hidden env path threadId covered t index hvisible]
    split
    · exact hbaseline none true h
    · exact h

/-- A replay of a thread's file: the builder is the thread's and so are the calls. -/
structure OwnReplay (threadId : String) (state : Replay) : Prop where
  thread : Owned threadId state.thread
  calls : ∀ call ∈ state.dataset.calls, call.threadId = threadId

section replay

variable {threadId : String} {state : Replay}

section

variable (h : OwnReplay threadId state)

include h

theorem OwnReplay.withThread (hthread : Owned threadId thread) :
    OwnReplay threadId { state with thread := thread } :=
  ⟨hthread, h.calls⟩

theorem OwnReplay.setBaseline (previous : Option TokenUsage)
    (incomplete : Bool) : OwnReplay threadId (state.setBaseline previous incomplete) :=
  h.withThread (h.thread.of_eq rfl rfl)

theorem OwnReplay.recordRateLimits (rateLimits : Option CachedRateLimits) (timestamp : DateTime) :
    OwnReplay threadId (state.recordRateLimits rateLimits timestamp) := by
  cases rateLimits with
  | none => exact h
  | some limits => exact ⟨h.thread, h.calls⟩

theorem OwnReplay.ambiguousReset (warning : String) :
    OwnReplay threadId (state.ambiguousReset warning) := by
  refine ⟨h.thread, ?_⟩
  unfold Replay.ambiguousReset pushReplayWarning
  split <;> exact h.calls

theorem OwnReplay.addCall {call : UsageCall}
    (hthread : Owned threadId thread) (hcall : call.threadId = threadId) :
    OwnReplay threadId
      { thread := thread
        dataset := { state.dataset with calls := state.dataset.calls ++ [call] } } where
  thread := hthread
  calls other hmem := by
    rcases List.mem_append.1 hmem with hold | hnew
    · exact h.calls other hold
    · rw [List.mem_singleton.1 hnew, hcall]

end

theorem OwnReplay.countDelta (env : ReplayEnv) (h : OwnReplay threadId state)
    (totalUsage : TokenUsage) (last : Option TokenUsage) (timestamp : DateTime)
    (delta : TokenUsage) :
    OwnReplay threadId (state.countDelta env totalUsage last timestamp delta) := by
  have hbase : Owned threadId { state.thread with previousCumulative := some totalUsage } :=
    h.thread.of_eq rfl rfl
  unfold Replay.countDelta
  split
  · exact h.withThread hbase
  · exact h.addCall (hbase.addUsage delta) h.thread.threadId_eq

theorem OwnReplay.applyTokenCount (env : ReplayEnv) (h : OwnReplay threadId state)
    (usage : TokenCounterSample) (rateLimits : Option CachedRateLimits) (timestamp : DateTime)
    (path : Path) (lineNumber : Nat) :
    OwnReplay threadId
      (applyTokenCount env state usage rateLimits timestamp path lineNumber) := by
  have hrates := h.recordRateLimits rateLimits timestamp
  unfold Rollout.applyTokenCount
  generalize state.recordRateLimits rateLimits timestamp = state at hrates ⊢
  cases usage.total with
  | none => exact hrates
  | some totalUsage =>
    dsimp only
    split
    · exact (hrates.ambiguousReset _).setBaseline _ _
    · split
      · split
        · have hset := hrates.setBaseline (some totalUsage) false
          split
          · exact hset.countDelta env _ _ _ _
          · split
            · exact hset.ambiguousReset _
            · exact (hset.ambiguousReset _).countDelta env _ _ _ _
        · exact hrates.countDelta env _ _ _ _
      · split
        · exact hrates
        · split
          · exact hrates.countDelta env _ _ _ _
          · split
            · exact hrates.countDelta env _ _ _ _
            · exact (hrates.ambiguousReset _).setBaseline _ _

theorem OwnReplay.countRequest (env : ReplayEnv) (h : OwnReplay threadId state)
    (request : RequestUsageEvent) :
    OwnReplay threadId (state.countRequest env threadId request) :=
  h.addCall (h.thread.ensureTurn request.turnId) rfl

/-- **An event of a thread's file** keeps the builder the thread's and adds its calls only. -/
theorem OwnReplay.replayEvent (env : ReplayEnv) (path : Path) (asOf : Option DateTime)
    (covered : List Nat) (h : OwnReplay threadId state) (entry : ParsedEvent × Nat) :
    OwnReplay threadId (replayEvent env path threadId asOf covered state entry) := by
  refine @replayEvent_lift (fun s _ => OwnReplay threadId s) env path threadId asOf covered
    (fun {s _} event h => ?_) (fun event h => h.withThread (h.thread.applyEvent env event))
    (fun request h => h.countRequest env request)
    (fun _ _ _ _ h => h.applyTokenCount env _ _ _ _ _)
    (fun previous incomplete h => h.setBaseline previous incomplete) state state h entry
  unfold Replay.sawActivity
  split
  · split
    · exact h.withThread (h.thread.of_eq rfl rfl)
    · exact h
  · exact h

end replay

theorem startFile_owned {threadId : String} (path : Path) (parsed : ParsedFile)
    (config : CollectConfig) (asOf : Option DateTime) (h : Owned threadId thread) :
    Owned threadId (startFile path parsed config asOf thread) := by
  unfold startFile markFileSeen
  dsimp only
  split
  · split <;> exact h.of_eq rfl rfl
  · exact h

theorem finishFile_owned {threadId : String} (parsed : ParsedFile) (asOf : Option DateTime)
    (h : Owned threadId thread) : Owned threadId (finishFile parsed asOf thread) := by
  unfold finishFile
  split
  · exact h.of_eq rfl rfl
  · exact h

theorem replayThread_own (env : ReplayEnv) (path : Path) (parsed : ParsedFile)
    (config : CollectConfig) {threadId : String} {dataset : RolloutDataset}
    (asOf : Option DateTime) (h : OwnReplay threadId ⟨thread, dataset⟩) :
    OwnReplay threadId (replayThread env path parsed config threadId thread dataset asOf) := by
  have hrun : OwnReplay threadId (parsed.events.zipIdx.foldl
      (replayEvent env path threadId asOf (requestCoveredCounters parsed.events asOf))
      ⟨startFile path parsed config asOf thread, dataset⟩) := by
    refine List.foldlRecOn parsed.events.zipIdx _ ?_ fun state hstate entry _ =>
      hstate.replayEvent env path asOf _ entry
    exact ⟨startFile_owned path parsed config asOf h.thread, h.calls⟩
  exact hrun.withThread (finishFile_owned parsed asOf hrun.thread)

/-! ## Reduced states -/

/-- Threads under their own ids, and a thread for every call. -/
structure WellReduced (reduced : ReducedRollouts) : Prop where
  threads : ∀ (threadId : String) thread, reduced.threads[threadId]? = some thread → Owned threadId thread
  calls : ∀ call ∈ reduced.dataset.calls, call.threadId ∈ reduced.threads

theorem replayFileIntoReduced_wellReduced (env : ReplayEnv) (file : RolloutFile)
    (parsed : ParsedFile) (config : CollectConfig) (asOf : Option DateTime)
    (h : WellReduced reduced) :
    WellReduced (replayFileIntoReduced env reduced file parsed config asOf) := by
  have hkeep : WellReduced { reduced with
      dataset := { reduced.dataset with calls := reduced.dataset.calls ++ [] } } :=
    ⟨h.threads, fun call hmem => h.calls call (by simpa using hmem)⟩
  unfold replayFileIntoReduced replayRolloutFile
  cases parsed.ownerThreadId with
  | none => exact ⟨hkeep.threads, hkeep.calls⟩
  | some threadId =>
    dsimp only
    split
    · generalize Option.any _ (some threadId) = incomplete
      have hthread : Owned threadId
          (reduced.threads[threadId]?.getD (.new threadId incomplete)) := by
        cases hget : reduced.threads[threadId]? with
        | none => exact owned_new threadId incomplete
        | some thread => exact h.threads threadId thread hget
      have hstart : OwnReplay threadId
          ⟨reduced.threads[threadId]?.getD (.new threadId incomplete), default⟩ :=
        ⟨hthread, fun call hmem => absurd hmem List.not_mem_nil⟩
      have hown := replayThread_own env file.path parsed config asOf hstart
      refine ⟨fun threadId' thread hget => ?_, fun call hmem => ?_⟩
      · rcases getElem?_insert_cases hget with ⟨rfl, rfl⟩ | hold
        · exact hown.thread
        · exact h.threads threadId' thread hold
      · rw [Std.ExtTreeMap.mem_insert]
        rcases List.mem_append.1 hmem with hold | hnew
        · exact .inr (h.calls call hold)
        · exact .inl (Std.compare_eq_iff_eq.2 (hown.calls call hnew).symm)
    · exact ⟨hkeep.threads, hkeep.calls⟩

theorem rebuildReducedMetadata_wellReduced (files : List RolloutFile) (cache : FileCache)
    (h : WellReduced reduced) :
    WellReduced (rebuildReducedMetadata reduced files cache) := ⟨h.threads, h.calls⟩

theorem new_wellReduced (plan : ReplayPlan) : WellReduced (.new plan) where
  threads threadId thread h := by
    rw [show (ReducedRollouts.new plan).threads[threadId]? = none from
      Std.ExtTreeMap.getElem?_empty] at h
    cases h
  calls call hmem := absurd hmem List.not_mem_nil

theorem reduceCachedFilesInner_wellReduced (env : ReplayEnv) (files : List RolloutFile)
    (cache : FileCache) (config : CollectConfig) (plan : ReplayPlan) (asOf : Option DateTime) :
    WellReduced (reduceCachedFilesInner env files cache config plan asOf) := by
  refine rebuildReducedMetadata_wellReduced files cache ?_
  refine List.foldlRecOn files _ (new_wellReduced plan) fun reduced hreduced file _ => ?_
  unfold reduceFile
  split
  · exact hreduced
  · split
    · exact hreduced
    · exact replayFileIntoReduced_wellReduced env file _ config asOf hreduced

theorem WellReduced.withoutChanged (h : WellReduced reduced) (changedThreadIds : TextSet)
    (changedPaths : List Path) (files : List RolloutFile) (cache : FileCache) (plan : ReplayPlan) :
    WellReduced (reduced.withoutChanged changedThreadIds changedPaths files cache plan) where
  threads threadId thread hget := by
    refine h.threads threadId thread ?_
    have hfilter : (reduced.threads.filter fun threadId _ =>
        !changedThreadIds.contains threadId)[threadId]? = some thread := hget
    rw [Std.ExtTreeMap.getElem?_filter'] at hfilter
    exact (Option.filter_eq_some_iff.1 hfilter).1
  calls call hmem := by
    obtain ⟨hold, hkept⟩ := List.mem_filter.1 hmem
    obtain ⟨thread, hget⟩ := Option.isSome_iff_exists.1
      (Std.ExtTreeMap.isSome_getElem?_iff_mem.2 (h.calls call hold))
    refine Std.ExtTreeMap.isSome_getElem?_iff_mem.1 ?_
    show ((reduced.threads.filter fun threadId _ =>
      !changedThreadIds.contains threadId)[call.threadId]?).isSome
    rw [Std.ExtTreeMap.getElem?_filter', hget, Option.filter_some, if_pos hkept]
    rfl

theorem incrementallyReduceCachedFiles_wellReduced (env : ReplayEnv) (changedThreadIds : TextSet)
    (changedPaths : List Path) (files : List RolloutFile) (cache : FileCache)
    (config : CollectConfig) (plan : ReplayPlan) (h : WellReduced reduced) :
    WellReduced (incrementallyReduceCachedFiles env reduced changedThreadIds changedPaths files
      cache config plan) := by
  refine rebuildReducedMetadata_wellReduced files cache ?_
  refine List.foldlRecOn files _ (h.withoutChanged changedThreadIds changedPaths files cache plan)
    fun reduced hreduced file _ => ?_
  unfold reduceChangedFile
  split
  · exact hreduced
  · dsimp only
    split
    · exact hreduced
    · exact replayFileIntoReduced_wellReduced env file _ config none hreduced

/-- The states that scans reach, one reduction after another, whatever they find. -/
inductive Reduced (env : ReplayEnv) : ReducedRollouts → Prop
  | full (files : List RolloutFile) (cache : FileCache) (config : CollectConfig)
      (plan : ReplayPlan) (asOf : Option DateTime) :
      Reduced env (reduceCachedFilesInner env files cache config plan asOf)
  | incremental (reduced : ReducedRollouts) (changedThreadIds : TextSet)
      (changedPaths : List Path) (files : List RolloutFile) (cache : FileCache)
      (config : CollectConfig) (plan : ReplayPlan) (h : Reduced env reduced) :
      Reduced env (incrementallyReduceCachedFiles env reduced changedThreadIds changedPaths files
        cache config plan)

/-- **Every reduced state** holds each thread under its id and a thread for every call. -/
theorem Reduced.wellReduced {env : ReplayEnv} (h : Reduced env reduced) : WellReduced reduced := by
  induction h with
  | full files cache config plan asOf =>
    exact reduceCachedFilesInner_wellReduced env files cache config plan asOf
  | incremental reduced changedThreadIds changedPaths files cache config plan _ ih =>
    exact incrementallyReduceCachedFiles_wellReduced env changedThreadIds changedPaths files cache
      config plan ih

end Rollout
