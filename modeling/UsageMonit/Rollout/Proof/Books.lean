import Mathlib.Data.List.Induction
import UsageMonit.Rollout.Proof.Owned

/-!
# The books of a materialised dataset

A dataset materialised at a moment shows nothing dated later, and its books balance: tasks and
turns have the usage of their calls, every call has its task, and a turn that a call names is in
the list. Calls are filtered first, threads and turns are shown by the calls left, and turns that
are not shown are taken out of the calls last.

* `visibleThreads_call`: a thread with a call is shown
* `hideTurn_usage`: the calls of a shown turn are those that name it in the end
* `materializeDataset_balances`: the books of every reduced state balance at every moment
* `request_of_unstarted_turn`: the turn a native record names may never have started
-/

namespace Rollout

open Time Usage

/-! ## Calls that are kept -/

variable {dataset : RolloutDataset} {call : UsageCall}

theorem retainNative_subset (conflicts : TextSet) (calls : List UsageCall)
    (state : List UsageCall × TextSet) :
    ∀ call ∈ (calls.foldl (retainNative conflicts) state).1, call ∈ state.1 ∨ call ∈ calls := by
  induction calls generalizing state with
  | nil => exact fun call hmem => .inl hmem
  | cons first rest ih =>
    intro call hmem
    have hstep : ∀ call ∈ (retainNative conflicts state first).1,
        call ∈ state.1 ∨ call = first := by
      intro call hmem
      unfold retainNative at hmem
      split at hmem
      · simpa using hmem
      · split at hmem
        · exact .inl hmem
        · simpa using hmem
    rcases ih _ call hmem with hkept | hrest
    · rcases hstep call hkept with hold | rfl
      · exact .inl hold
      · exact .inr List.mem_cons_self
    · exact .inr (List.mem_cons_of_mem first hrest)

theorem reportIdentityConflict_calls (dataset : RolloutDataset) (ids : List String) :
    (ids.foldl reportIdentityConflict dataset).calls = dataset.calls := by
  refine List.foldlRecOn ids _ (motive := fun result : RolloutDataset =>
    result.calls = dataset.calls) rfl fun result hresult id _ => ?_
  rw [← hresult]
  unfold reportIdentityConflict pushReplayWarning
  split <;> rfl

theorem completeNativeCall_keeps (threads : Map ThreadBuilder) (call : UsageCall) :
    (completeNativeCall threads call).threadId = call.threadId ∧
      (completeNativeCall threads call).timestamp = call.timestamp := by
  unfold completeNativeCall
  split
  · split <;> exact ⟨rfl, rfl⟩
  · exact ⟨rfl, rfl⟩

theorem deduplicateNativeCalls_mem {threads : Map ThreadBuilder}
    (h : call ∈ (deduplicateNativeCalls dataset threads).calls) :
    ∃ original ∈ dataset.calls, call.threadId = original.threadId ∧
      call.timestamp = original.timestamp := by
  obtain ⟨original, hkept, rfl⟩ := List.mem_map.1 h
  refine ⟨original, ?_, completeNativeCall_keeps threads original⟩
  rcases retainNative_subset _ _ _ original hkept with hnil | hmem
  · exact absurd hnil List.not_mem_nil
  · rwa [reportIdentityConflict_calls] at hmem

theorem deduplicateNativeCalls_observations (dataset : RolloutDataset)
    (threads : Map ThreadBuilder) :
    (deduplicateNativeCalls dataset threads).rateObservations = dataset.rateObservations ∧
      (deduplicateNativeCalls dataset threads).turns = dataset.turns ∧
      (deduplicateNativeCalls dataset threads).tasks = dataset.tasks := by
  have hreport : ∀ ids : List String,
      (ids.foldl reportIdentityConflict dataset).rateObservations = dataset.rateObservations ∧
        (ids.foldl reportIdentityConflict dataset).turns = dataset.turns ∧
        (ids.foldl reportIdentityConflict dataset).tasks = dataset.tasks := by
    intro ids
    refine List.foldlRecOn ids _ (motive := fun result : RolloutDataset =>
      result.rateObservations = dataset.rateObservations ∧ result.turns = dataset.turns ∧
        result.tasks = dataset.tasks) ⟨rfl, rfl, rfl⟩ fun result hresult id _ => ?_
    rw [← hresult.1, ← hresult.2.1, ← hresult.2.2]
    unfold reportIdentityConflict pushReplayWarning
    split <;> exact ⟨rfl, rfl, rfl⟩
  exact hreport _

/-! ## Threads that are shown -/

theorem setMaxOption_isSome_left {slot value : Option DateTime} (h : slot.isSome) :
    (setMaxOption slot value).isSome := by
  cases value with
  | none => exact h
  | some value =>
    show (setMaxTimestamp slot value).isSome
    unfold setMaxTimestamp
    split
    · rfl
    · exact h

theorem setMaxOption_isSome_right (slot : Option DateTime) (value : DateTime) :
    (setMaxOption slot (some value)).isSome := by
  show (setMaxTimestamp slot value).isSome
  unfold setMaxTimestamp
  cases slot with
  | none => rfl
  | some current => split <;> rfl

theorem materializedUpdatedAt_isSome (visible : ThreadBuilder) (latest : DateTime) :
    (materializedUpdatedAt visible (some latest)).isSome := by
  refine List.foldlRecOn _ _ (motive := fun slot : Option DateTime => slot.isSome) ?_
    fun slot hslot _ _ => setMaxOption_isSome_left hslot
  refine List.foldlRecOn _ _ (motive := fun slot : Option DateTime => slot.isSome) ?_
    fun slot hslot _ _ => setMaxOption_isSome_left hslot
  refine List.foldlRecOn _ _ (motive := fun slot : Option DateTime => slot.isSome) ?_
    fun slot hslot _ _ => setMaxOption_isSome_left (setMaxOption_isSome_left hslot)
  exact setMaxOption_isSome_right _ latest

theorem latestCallOf_isSome {calls : List UsageCall} (h : call ∈ calls) :
    (latestCallOf calls call.threadId).isSome := by
  unfold latestCallOf
  have hmem : call ∈ calls.filter fun other => other.threadId = call.threadId :=
    List.mem_filter.2 ⟨h, by simp⟩
  generalize calls.filter (fun other => other.threadId = call.threadId) = own at hmem
  induction own using List.reverseRecOn with
  | nil => exact absurd hmem List.not_mem_nil
  | append_singleton front last _ =>
    rw [List.foldl_append, List.foldl_cons, List.foldl_nil]
    rfl

theorem materializeMetadata_keeps (now : DateTime) (thread : ThreadBuilder) :
    (materializeMetadata now thread).threadId = thread.threadId := by
  unfold materializeMetadata
  split <;> rfl

section thread

variable {thread visible : ThreadBuilder} {now : DateTime} {tokenUsage : TokenUsage}
  {usageByTurn : String → Option TokenUsage} {latestCall : Option DateTime}

theorem materializeThreadAsOf_keeps
    (h : materializeThreadAsOf thread now tokenUsage usageByTurn latestCall = some visible) :
    visible.threadId = thread.threadId ∧ visible.tokenUsage = tokenUsage ∧
      visible.turns = thread.turns.filterMap fun _ turn => materializeTurn now usageByTurn turn := by
  unfold materializeThreadAsOf at h
  dsimp only at h
  split at h
  · rw [← Option.some.inj h]
    exact ⟨materializeMetadata_keeps now thread, rfl, rfl⟩
  · cases h

theorem materializeThreadAsOf_isSome (latest : DateTime) :
    (materializeThreadAsOf thread now tokenUsage usageByTurn (some latest)).isSome := by
  unfold materializeThreadAsOf
  rw [if_pos]
  · rfl
  · simp [materializedUpdatedAt_isSome]

theorem materializeTurn_shows {turn shown : TurnBuilder}
    (h : materializeTurn now usageByTurn turn = some shown) :
    shown.turnId = turn.turnId ∧ shown.tokenUsage = (usageByTurn turn.turnId).getD default ∧
      notAfter now shown.startedAt := by
  unfold materializeTurn at h
  split at h
  · rename_i hpast
    rw [← Option.some.inj h]
    have hstart : notAfter now turn.startedAt := (Bool.and_eq_true_iff.1 hpast).1
    split <;> exact ⟨rfl, rfl, hstart⟩
  · cases h

end thread

section visible

variable {threads : Map ThreadBuilder} {now : DateTime} {calls : List UsageCall}
  (howned : ∀ (threadId : String) thread, threads[threadId]? = some thread → Owned threadId thread)

theorem visibleThreadsOf_get {threadId : String} {visible : ThreadBuilder}
    (h : (visibleThreadsOf threads now calls)[threadId]? = some visible) :
    ∃ thread, threads[threadId]? = some thread ∧
      materializeThreadAsOf thread now (threadUsageOf calls threadId)
        (turnUsageOf calls thread.threadId) (latestCallOf calls threadId) = some visible := by
  unfold visibleThreadsOf at h
  rw [Std.ExtTreeMap.getElem?_filterMap'] at h
  exact Option.bind_eq_some_iff.1 h

/-- **A thread with a call is shown.** -/
theorem visibleThreads_call {call : UsageCall} (hthread : call.threadId ∈ threads)
    (hcall : call ∈ calls) :
    ∃ visible, (visibleThreadsOf threads now calls)[call.threadId]? = some visible := by
  obtain ⟨thread, hget⟩ := Option.isSome_iff_exists.1
    (Std.ExtTreeMap.isSome_getElem?_iff_mem.2 hthread)
  obtain ⟨latest, hlatest⟩ := Option.isSome_iff_exists.1 (latestCallOf_isSome hcall)
  refine Option.isSome_iff_exists.1 ?_
  unfold visibleThreadsOf
  rw [Std.ExtTreeMap.getElem?_filterMap', hget, Option.bind_some, hlatest]
  exact materializeThreadAsOf_isSome latest

include howned in
theorem visibleThreadsOf_threadId {threadId : String} {visible : ThreadBuilder}
    (h : (visibleThreadsOf threads now calls)[threadId]? = some visible) :
    visible.threadId = threadId ∧ visible.tokenUsage = threadUsageOf calls threadId := by
  obtain ⟨thread, hget, hmaterialized⟩ := visibleThreadsOf_get h
  obtain ⟨hid, husage, -⟩ := materializeThreadAsOf_keeps hmaterialized
  exact ⟨hid.trans (howned threadId thread hget).threadId_eq, husage⟩

include howned in
theorem visibleThreadsOf_turn {threadId turnId : String} {visible : ThreadBuilder}
    {turn : TurnBuilder} (h : (visibleThreadsOf threads now calls)[threadId]? = some visible)
    (hturn : visible.turns[turnId]? = some turn) :
    turn.turnId = turnId ∧ turn.tokenUsage = (turnUsageOf calls threadId turnId).getD default ∧
      notAfter now turn.startedAt := by
  obtain ⟨thread, hget, hmaterialized⟩ := visibleThreadsOf_get h
  obtain ⟨-, -, hturns⟩ := materializeThreadAsOf_keeps hmaterialized
  have hown := howned threadId thread hget
  rw [hturns, Std.ExtTreeMap.getElem?_filterMap'] at hturn
  obtain ⟨original, horiginal, hshown⟩ := Option.bind_eq_some_iff.1 hturn
  obtain ⟨hid, husage, hstart⟩ := materializeTurn_shows hshown
  have hkey := hown.turns turnId original horiginal
  refine ⟨hid.trans hkey, ?_, hstart⟩
  rw [husage, hown.threadId_eq, hkey]

end visible

/-! ## Turns taken out of the calls -/

theorem hideTurn_keeps (visible : Map ThreadBuilder) (call : UsageCall) :
    (hideTurn visible call).threadId = call.threadId ∧
      (hideTurn visible call).timestamp = call.timestamp ∧
      (hideTurn visible call).tokens = call.tokens := by
  unfold hideTurn
  split <;> exact ⟨rfl, rfl, rfl⟩

theorem hideTurn_turn {visible : Map ThreadBuilder} {turnId : String}
    (h : (hideTurn visible call).turnId = some turnId) :
    hideTurn visible call = call ∧ ∃ thread, visible[call.threadId]? = some thread ∧
      turnId ∈ thread.turns := by
  unfold hideTurn at h ⊢
  split at h
  · rename_i hvisible
    rw [if_pos hvisible]
    refine ⟨rfl, ?_⟩
    unfold turnIsVisible at hvisible
    rw [h, Option.all_some, Option.any_eq_true] at hvisible
    obtain ⟨thread, hthread, hcontains⟩ := hvisible
    exact ⟨thread, hthread, Std.ExtTreeMap.contains_iff_mem.1 hcontains⟩
  · cases h

theorem hideTurn_shown {visible : Map ThreadBuilder} {turnId : String} {thread : ThreadBuilder}
    (hturn : call.turnId = some turnId) (hthread : visible[call.threadId]? = some thread)
    (hmem : turnId ∈ thread.turns) : hideTurn visible call = call := by
  unfold hideTurn
  rw [if_pos]
  unfold turnIsVisible
  rw [hturn, hthread]
  exact Std.ExtTreeMap.contains_iff_mem.2 hmem

/-- The calls in the order of the dataset. -/
def shownCalls (visible : Map ThreadBuilder) (calls : List UsageCall) : List UsageCall :=
  (calls.map (hideTurn visible)).insertionSort fun a b => callLe a b

theorem mem_shownCalls {visible : Map ThreadBuilder} {calls : List UsageCall} :
    call ∈ shownCalls visible calls ↔ ∃ original ∈ calls, hideTurn visible original = call := by
  unfold shownCalls
  rw [List.mem_insertionSort, List.mem_map]

theorem shownCalls_sum (visible : Map ThreadBuilder) (calls : List UsageCall)
    {own : UsageCall → Bool} (h : ∀ call, own (hideTurn visible call) = own call) :
    TokenUsage.sum (((shownCalls visible calls).filter own).map UsageCall.tokens) =
      TokenUsage.sum ((calls.filter own).map UsageCall.tokens) := by
  have hsorted : (shownCalls visible calls).Perm (calls.map (hideTurn visible)) :=
    List.perm_insertionSort _ _
  refine (TokenUsage.sum_perm ((hsorted.filter own).map UsageCall.tokens)).trans ?_
  congr 1
  induction calls with
  | nil => rfl
  | cons call rest ih =>
    have ih := ih (List.perm_insertionSort _ _)
    rw [List.map_cons, List.filter_cons, List.filter_cons, h]
    split
    · rw [List.map_cons, List.map_cons, ih, (hideTurn_keeps visible call).2.2]
    · exact ih

theorem shownCalls_threadUsage (visible : Map ThreadBuilder) (calls : List UsageCall)
    (threadId : String) :
    threadUsageOf (shownCalls visible calls) threadId = threadUsageOf calls threadId :=
  shownCalls_sum visible calls fun call => by rw [(hideTurn_keeps visible call).1]

/-- The usage of the calls that name a turn. -/
def callsUsageOf (calls : List UsageCall) (threadId turnId : String) : TokenUsage :=
  TokenUsage.sum ((calls.filter fun call =>
    call.threadId = threadId && call.turnId = some turnId).map UsageCall.tokens)

theorem turnUsageOf_getD (calls : List UsageCall) (threadId turnId : String) :
    (turnUsageOf calls threadId turnId).getD default = callsUsageOf calls threadId turnId := by
  unfold turnUsageOf callsUsageOf
  dsimp only
  split
  · rename_i hempty
    rw [List.isEmpty_iff.1 hempty]
    rfl
  · rfl

/-- **The calls of a turn that is shown** still name it. -/
theorem hideTurn_usage {visible : Map ThreadBuilder} (calls : List UsageCall)
    {threadId turnId : String} {thread : ThreadBuilder}
    (hthread : visible[threadId]? = some thread) (hmem : turnId ∈ thread.turns) :
    callsUsageOf (shownCalls visible calls) threadId turnId =
      callsUsageOf calls threadId turnId := by
  refine shownCalls_sum visible calls fun call => Bool.eq_iff_iff.2 ?_
  simp only [Bool.and_eq_true, decide_eq_true_eq, (hideTurn_keeps visible call).1]
  constructor
  · rintro ⟨hid, hturn⟩
    exact ⟨hid, (hideTurn_turn hturn).1 ▸ hturn⟩
  · rintro ⟨hid, hturn⟩
    rw [hideTurn_shown hturn (hid ▸ hthread) hmem]
    exact ⟨hid, hturn⟩

/-! ## The books -/

/-- What a dataset at a moment promises about its dates, its sums and its references. -/
structure BooksBalance (now : DateTime) (dataset : RolloutDataset) : Prop where
  calls_past : ∀ call ∈ dataset.calls, call.timestamp ≤ now
  observations_past : ∀ observation ∈ dataset.rateObservations, observation.timestamp ≤ now
  interactions_past : ∀ interaction ∈ dataset.agentInteractions,
    notAfter now interaction.requestedAt ∧ notAfter now interaction.occurredAt
  task_usage : ∀ task ∈ dataset.tasks, task.tokenUsage = threadUsageOf dataset.calls task.threadId
  turn_usage : ∀ turn ∈ dataset.turns,
    turn.tokenUsage = callsUsageOf dataset.calls turn.threadId turn.turnId
  call_task : ∀ call ∈ dataset.calls, ∃ task ∈ dataset.tasks, task.threadId = call.threadId
  /-- A turn that never started has no start to compare. -/
  call_turn : ∀ call ∈ dataset.calls, ∀ turnId, call.turnId = some turnId →
    ∃ turn ∈ dataset.turns, turn.threadId = call.threadId ∧ turn.turnId = turnId ∧
      notAfter now turn.startedAt

/-- Every turn that a call names has started by the moment. -/
def NamedTurnsStarted (now : DateTime) (dataset : RolloutDataset) : Prop :=
  ∀ call ∈ dataset.calls, ∀ turnId, call.turnId = some turnId →
    ∃ turn ∈ dataset.turns, turn.threadId = call.threadId ∧ turn.turnId = turnId ∧
      ∃ startedAt, turn.startedAt = some startedAt ∧ startedAt ≤ now

section finish

variable {threads : Map ThreadBuilder} {now : DateTime} {config : CollectConfig}
  {titles : Map String}

def countedCalls (threads : Map ThreadBuilder) (now : DateTime) (dataset : RolloutDataset) :
    List UsageCall :=
  (deduplicateNativeCalls
    { dataset with calls := dataset.calls.filter fun call => call.timestamp ≤ now } threads).calls

theorem mem_countedCalls (h : call ∈ countedCalls threads now dataset) :
    call.timestamp ≤ now ∧ ∃ original ∈ dataset.calls, call.threadId = original.threadId := by
  obtain ⟨original, hmem, hid, htime⟩ := deduplicateNativeCalls_mem h
  obtain ⟨horiginal, hpast⟩ := List.mem_filter.1 hmem
  exact ⟨htime ▸ of_decide_eq_true hpast, original, horiginal, hid⟩

theorem finishDataset_calls (dataset : RolloutDataset) :
    (finishDataset config now threads titles dataset).calls =
      shownCalls (visibleThreadsOf threads now (countedCalls threads now dataset))
        (countedCalls threads now dataset) := rfl

theorem finishDataset_tasks (hnone : dataset.tasks = []) :
    (finishDataset config now threads titles dataset).tasks =
      ((visibleThreadsOf threads now (countedCalls threads now dataset)).values.map
        (taskRecord config now titles)).insertionSort fun a b => taskLe a b := by
  have hkept := (deduplicateNativeCalls_observations
    { dataset with calls := dataset.calls.filter fun call => call.timestamp ≤ now } threads).2.2
  exact congrArg (fun tasks : List TaskRecord => (tasks ++
    (visibleThreadsOf threads now (countedCalls threads now dataset)).values.map
      (taskRecord config now titles)).insertionSort fun a b => taskLe a b) (hkept.trans hnone)

theorem finishDataset_turns (hnone : dataset.turns = []) :
    (finishDataset config now threads titles dataset).turns =
      ((visibleThreadsOf threads now (countedCalls threads now dataset)).values.flatMap
        fun thread => thread.turns.values.map
          (turnRecord thread (activeIsFresh config now thread))).insertionSort
            fun a b => turnLe a b := by
  have hkept := (deduplicateNativeCalls_observations
    { dataset with calls := dataset.calls.filter fun call => call.timestamp ≤ now } threads).2.1
  exact congrArg (fun turns : List TurnRecord => (turns ++
    (visibleThreadsOf threads now (countedCalls threads now dataset)).values.flatMap fun thread =>
      thread.turns.values.map (turnRecord thread (activeIsFresh config now thread))).insertionSort
        fun a b => turnLe a b) (hkept.trans hnone)

theorem mem_finishDataset_tasks {task : TaskRecord} (hnone : dataset.tasks = []) :
    task ∈ (finishDataset config now threads titles dataset).tasks ↔
      ∃ (threadId : String) (thread : ThreadBuilder),
        (visibleThreadsOf threads now (countedCalls threads now dataset))[threadId]? =
          some thread ∧ taskRecord config now titles thread = task := by
  rw [finishDataset_tasks hnone, List.mem_insertionSort, List.mem_map]
  generalize visibleThreadsOf threads now (countedCalls threads now dataset) = visible
  constructor
  · rintro ⟨thread, hmem, rfl⟩
    obtain ⟨threadId, hget⟩ := mem_values.1 hmem
    exact ⟨threadId, thread, hget, rfl⟩
  · rintro ⟨threadId, thread, hget, rfl⟩
    exact ⟨thread, mem_values.2 ⟨threadId, hget⟩, rfl⟩

theorem mem_finishDataset_turns {turn : TurnRecord} (hnone : dataset.turns = []) :
    turn ∈ (finishDataset config now threads titles dataset).turns ↔
      ∃ (threadId turnId : String) (thread : ThreadBuilder) (builder : TurnBuilder),
        (visibleThreadsOf threads now (countedCalls threads now dataset))[threadId]? =
          some thread ∧ thread.turns[turnId]? = some builder ∧
        turnRecord thread (activeIsFresh config now thread) builder = turn := by
  rw [finishDataset_turns hnone, List.mem_insertionSort, List.mem_flatMap]
  generalize visibleThreadsOf threads now (countedCalls threads now dataset) = visible
  constructor
  · rintro ⟨thread, hmem, hturn⟩
    obtain ⟨builder, hbuilder, rfl⟩ := List.mem_map.1 hturn
    obtain ⟨threadId, hget⟩ := mem_values.1 hmem
    obtain ⟨turnId, hget'⟩ := mem_values.1 hbuilder
    exact ⟨threadId, turnId, thread, builder, hget, hget', rfl⟩
  · rintro ⟨threadId, turnId, thread, builder, hget, hget', rfl⟩
    exact ⟨thread, mem_values.2 ⟨threadId, hget⟩,
      List.mem_map_of_mem (mem_values.2 ⟨turnId, hget'⟩)⟩

theorem finishDataset_observations (dataset : RolloutDataset) :
    ∀ observation ∈ (finishDataset config now threads titles dataset).rateObservations,
      observation.timestamp ≤ now := by
  intro observation hmem
  obtain ⟨original, horiginal, rfl⟩ := List.mem_map.1 (List.mem_insertionSort _ |>.1 hmem)
  have hpast := of_decide_eq_true (List.mem_filter.1 horiginal).2
  unfold hideObservationTurn
  split <;> exact hpast

theorem finishDataset_interactions (dataset : RolloutDataset) :
    ∀ interaction ∈ (finishDataset config now threads titles dataset).agentInteractions,
      notAfter now interaction.requestedAt ∧ notAfter now interaction.occurredAt := by
  intro interaction hmem
  exact Bool.and_eq_true_iff.1 (List.mem_filter.1 (List.mem_insertionSort _ |>.1 hmem)).2

theorem finishDataset_balances (dataset : RolloutDataset)
    (howned : ∀ (threadId : String) thread, threads[threadId]? = some thread →
      Owned threadId thread)
    (hcalls : ∀ call ∈ dataset.calls, call.threadId ∈ threads) (htasks : dataset.tasks = [])
    (hturns : dataset.turns = []) :
    BooksBalance now (finishDataset config now threads titles dataset) := by
  refine ⟨?_, finishDataset_observations dataset, finishDataset_interactions dataset,
    ?_, ?_, ?_, ?_⟩
  · intro call hmem
    obtain ⟨original, horiginal, rfl⟩ := mem_shownCalls.1 hmem
    rw [(hideTurn_keeps _ original).2.1]
    exact (mem_countedCalls horiginal).1
  · intro task hmem
    obtain ⟨threadId, thread, hget, rfl⟩ := (mem_finishDataset_tasks htasks).1 hmem
    obtain ⟨hid, husage⟩ := visibleThreadsOf_threadId howned hget
    show thread.tokenUsage = threadUsageOf _ thread.threadId
    rw [finishDataset_calls, shownCalls_threadUsage, husage, hid]
  · intro turn hmem
    obtain ⟨threadId, turnId, thread, builder, hget, hbuilder, rfl⟩ :=
      (mem_finishDataset_turns hturns).1 hmem
    obtain ⟨hid, -⟩ := visibleThreadsOf_threadId howned hget
    obtain ⟨hturn, husage, -⟩ := visibleThreadsOf_turn howned hget hbuilder
    show builder.tokenUsage = callsUsageOf _ thread.threadId builder.turnId
    have hshown : turnId ∈ thread.turns :=
      Std.ExtTreeMap.isSome_getElem?_iff_mem.1 (by rw [hbuilder]; rfl)
    rw [finishDataset_calls, hid, hturn, hideTurn_usage _ hget hshown, husage, turnUsageOf_getD]
  · intro call hmem
    obtain ⟨original, horiginal, rfl⟩ := mem_shownCalls.1 hmem
    obtain ⟨-, first, hfirst, hid⟩ := mem_countedCalls horiginal
    obtain ⟨visible, hget⟩ :=
      @visibleThreads_call threads now _ _ (hid ▸ hcalls first hfirst) horiginal
    refine ⟨_, (mem_finishDataset_tasks htasks).2 ⟨_, visible, hget, rfl⟩, ?_⟩
    rw [(hideTurn_keeps _ original).1]
    exact (visibleThreadsOf_threadId howned hget).1
  · intro call hmem turnId hturn
    obtain ⟨original, horiginal, rfl⟩ := mem_shownCalls.1 hmem
    obtain ⟨heq, visible, hget, hshown⟩ := hideTurn_turn hturn
    obtain ⟨builder, hbuilder⟩ := Option.isSome_iff_exists.1
      (Std.ExtTreeMap.isSome_getElem?_iff_mem.2 hshown)
    obtain ⟨hid, -, hstart⟩ := visibleThreadsOf_turn howned hget hbuilder
    refine ⟨_, (mem_finishDataset_turns hturns).2 ⟨_, turnId, visible, builder, hget, hbuilder,
      rfl⟩, ?_, hid, hstart⟩
    rw [heq]
    exact (visibleThreadsOf_threadId howned hget).1

end finish

/-- **The books of every reduced state balance**, whatever the moment it is shown at. -/
theorem materializeDataset_balances (env : ReplayEnv) {reduced : ReducedRollouts}
    (h : Reduced env reduced) (discovery : DiscoveryState) (config : CollectConfig)
    (now : DateTime) (titles : Map String) :
    BooksBalance now (materializeDataset reduced discovery config now titles) :=
  finishDataset_balances _ h.wellReduced.threads h.wellReduced.calls rfl rfl

namespace Sample

def unstartedEnv : ReplayEnv := ⟨fun bytes => bytes, fun _ => none⟩

def unstartedPath : Path := ["", "codex", "sessions", "rollout.jsonl"]

def unstartedConfig : CollectConfig := ⟨["", "codex"], false, 0⟩

/-- A native record of 10 tokens, in a turn that nothing in the log starts. -/
def unstartedRequest : RequestUsageEvent where
  timestamp := 0
  turnId := "turn"
  responseId := "response"
  usage := ⟨10, 0, 0, 0, 0, 0, 10⟩
  turnUsage := none

def unstartedParsed : ParsedFile where
  ownerThreadId := some "thread"
  activityUpdatedAt := none
  events := [.requestUsage unstartedRequest,
    .requestUsage { unstartedRequest with responseId := "second", usage := ⟨5, 0, 0, 2, 0, 0, 7⟩ }]
  parsedLines := 2
  skippedLines := 0
  unreadableFiles := 0
  warnings := []
  suppressedWarnings := 0
  complete := true
  replayStartedAt := none
  replayUpdatedAt := none
  replayTimestampsComplete := true

def unstartedFile : RolloutFile := ⟨unstartedPath, 0, ⟨0, 0, 0, 0, 0, 0⟩⟩

def unstartedReduced : ReducedRollouts :=
  reduceCachedFilesInner unstartedEnv [unstartedFile]
    ((∅ : FileCache).insert unstartedPath ⟨⟨0, 0, 0, 0, 0, 0⟩, unstartedParsed⟩) unstartedConfig
    .new none

def unstartedDataset : RolloutDataset :=
  materializeDataset unstartedReduced ⟨default, [], 0⟩ unstartedConfig 0 ∅

end Sample

theorem unstartedDataset_balances : BooksBalance 0 Sample.unstartedDataset :=
  materializeDataset_balances Sample.unstartedEnv (.full _ _ _ _ _) ⟨default, [], 0⟩
    Sample.unstartedConfig 0 ∅

/-- A native record names a turn that never started: the turn is in the list without a start. -/
theorem request_of_unstarted_turn :
    Reduced Sample.unstartedEnv Sample.unstartedReduced ∧
      ¬ NamedTurnsStarted 0 Sample.unstartedDataset := by
  refine ⟨.full _ _ _ _ _, fun h => ?_⟩
  have hcalls : Sample.unstartedDataset.calls.map UsageCall.turnId =
      [some "turn", some "turn"] := by decide +kernel
  have hturns : Sample.unstartedDataset.turns.map TurnRecord.startedAt = [none] := by
    decide +kernel
  obtain ⟨call, hmem, hturn⟩ := List.mem_map.1 (hcalls ▸ List.mem_cons_self (a := some "turn"))
  obtain ⟨turn, hshown, -, -, startedAt, hstart, -⟩ := h call hmem "turn" hturn
  have hnone : turn.startedAt ∈ Sample.unstartedDataset.turns.map TurnRecord.startedAt :=
    List.mem_map_of_mem hshown
  rw [hturns, List.mem_singleton, hstart] at hnone
  cases hnone

end Rollout
