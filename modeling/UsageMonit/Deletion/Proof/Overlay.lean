import UsageMonit.Deletion.Overlay
import UsageMonit.Deletion.Proof.Ledger

/-!
# The overlay counts every event once

* `overlayCalls_spec`: what the loop over saved calls leaves (`CallsOverlaid`), from an index of
  the live calls
* `rebuildTotals_eq`: the accumulated totals are sums over the calls
* `overlay_events`, `overlay_totals`: the overlaid dataset has one call for each event and the
  sums of its calls as totals
* `overlay_overlay`: overlaying once more repeats the conflict reports only
-/

namespace Deletion

open Fallible Time Usage

variable {env : LedgerEnv} {records : List DeletedSessionRecord} {asOf : DateTime}
  {dataset : RolloutDataset} (rs : List DeletedSessionRecord)

/-! ## The loop over saved calls -/

@[simp] theorem from_toCall (saved : DeletedUsageCall) :
    DeletedUsageCall.from saved.toCall = saved := rfl

@[simp] theorem callIdentity_toCall (saved : DeletedUsageCall) :
    callIdentity env saved.toCall = saved.identity env := rfl

/-- The index finds exactly the dataset's calls, one for each identity. -/
structure Indexed (env : LedgerEnv) (state : OverlayState) : Prop where
  distinct : (state.dataset.calls.map (callIdentity env)).Nodup
  lookup : ∀ id c, state.calls.lookup id = some c ↔
    c ∈ state.dataset.calls ∧ callIdentity env c = id

theorem lookup_indexFold : ∀ (calls : List UsageCall) (index : AList fun _ : EventIdentity => UsageCall),
    (calls.map (callIdentity env)).Nodup → ∀ id c,
    (calls.foldl (fun index call => index.insert (callIdentity env call) call) index).lookup id =
      some c ↔ (c ∈ calls ∧ callIdentity env c = id) ∨
        (id ∉ calls.map (callIdentity env) ∧ index.lookup id = some c) := by
  intro calls
  induction calls with
  | nil =>
    intro index _ id c
    simp
  | cons call calls ih =>
    intro index hnodup id c
    rw [List.map_cons, List.nodup_cons] at hnodup
    rw [List.foldl_cons, ih _ hnodup.2]
    by_cases hid : id = callIdentity env call
    · subst hid
      rw [AList.lookup_insert]
      constructor
      · intro h
        rcases h with ⟨hmem, heq⟩ | ⟨-, h⟩
        · exact absurd (heq ▸ List.mem_map_of_mem hmem) hnodup.1
        · cases h
          exact .inl ⟨List.mem_cons_self, rfl⟩
      · intro h
        rcases h with ⟨hmem, heq⟩ | ⟨h, -⟩
        · rcases List.mem_cons.1 hmem with rfl | hmem
          · exact .inr ⟨hnodup.1, rfl⟩
          · exact absurd (heq ▸ List.mem_map_of_mem hmem) hnodup.1
        · exact absurd (by simp) h
    · rw [AList.lookup_insert_ne hid, List.map_cons]
      simp only [List.mem_cons, not_or]
      constructor
      · intro h
        rcases h with ⟨hmem, heq⟩ | ⟨hout, h⟩
        · exact .inl ⟨.inr hmem, heq⟩
        · exact .inr ⟨⟨hid, hout⟩, h⟩
      · intro h
        rcases h with ⟨rfl | hmem, heq⟩ | ⟨⟨-, hout⟩, h⟩
        · exact absurd heq.symm hid
        · exact .inl ⟨hmem, heq⟩
        · exact .inr ⟨hout, h⟩

theorem indexCalls_indexed (hnodup : (dataset.calls.map (callIdentity env)).Nodup) :
    Indexed env ⟨dataset, indexCalls env dataset.calls⟩ := by
  refine ⟨hnodup, ?_⟩
  intro id c
  unfold indexCalls
  rw [lookup_indexFold _ _ hnodup, AList.lookup_empty]
  simp

/-- The conflicts that the saved calls have with the calls of an index. -/
def conflicts (env : LedgerEnv) (index : AList fun _ : EventIdentity => UsageCall)
    (saved : List (String × DeletedUsageCall)) : List String :=
  saved.flatMap fun p =>
    match index.lookup (p.2.identity env) with
    | some live => if DeletedUsageCall.from live ≠ p.2 then [conflictWarning p.1] else []
    | none => []

def skipLines (stats : CollectionStats) (reported : List String) : CollectionStats :=
  reported.foldl (fun stats _ =>
    { stats with skippedLines := saturatingAdd 64 stats.skippedLines 1 }) stats

/-- The saved calls one after another, each from a record of the thread beside it. -/
def overlayCalls (env : LedgerEnv) (saved : List (String × DeletedUsageCall))
    (state : OverlayState) : OverlayState :=
  saved.foldl (fun state p => overlayCall env p.1 state p.2) state

/-- What overlaying saved calls leaves. -/
structure CallsOverlaid (env : LedgerEnv) (before : OverlayState)
    (saved : List (String × DeletedUsageCall)) (after : OverlayState) : Prop where
  indexed : Indexed env after
  added : ∃ added, after.dataset.calls = before.dataset.calls ++ added ∧
    ∀ c ∈ added, ∃ p ∈ saved, c = p.2.toCall ∧
      p.2.identity env ∉ before.dataset.calls.map (callIdentity env)
  covered : ∀ p ∈ saved, p.2.identity env ∈ after.dataset.calls.map (callIdentity env)
  extends' : ∀ id c, before.calls.lookup id = some c → after.calls.lookup id = some c
  warnings : after.dataset.warnings =
    before.dataset.warnings ++ conflicts env after.calls saved
  stats : after.dataset.stats = skipLines before.dataset.stats (conflicts env after.calls saved)

theorem Indexed.identity_mem {state : OverlayState} (h : Indexed env state) {id : EventIdentity}
    {c : UsageCall} (hc : state.calls.lookup id = some c) :
    id ∈ state.dataset.calls.map (callIdentity env) := by
  obtain ⟨hmem, rfl⟩ := (h.lookup id c).1 hc
  exact List.mem_map_of_mem hmem

theorem Indexed.identity_notMem {state : OverlayState} (h : Indexed env state)
    {id : EventIdentity} (hnone : state.calls.lookup id = none) :
    id ∉ state.dataset.calls.map (callIdentity env) := by
  intro hmem
  obtain ⟨c, hc, hid⟩ := List.mem_map.1 hmem
  rw [(h.lookup id c).2 ⟨hc, hid⟩] at hnone
  cases hnone

theorem Indexed.push {state : OverlayState} (h : Indexed env state) {saved : DeletedUsageCall}
    (hnone : state.calls.lookup (saved.identity env) = none) :
    Indexed env ⟨{ state.dataset with calls := state.dataset.calls ++ [saved.toCall] },
      state.calls.insert (saved.identity env) saved.toCall⟩ := by
  have hfresh := h.identity_notMem hnone
  refine ⟨?_, ?_⟩
  · rw [List.map_append, List.nodup_append]
    refine ⟨h.distinct, by simp, ?_⟩
    intro a ha b hb heq
    rw [List.map_singleton, List.mem_singleton] at hb
    subst hb heq
    exact hfresh ha
  · intro id c
    rw [List.mem_append, List.mem_singleton]
    by_cases hid : id = saved.identity env
    · subst hid
      rw [AList.lookup_insert]
      constructor
      · intro hc
        cases hc
        exact ⟨.inr rfl, rfl⟩
      · intro hc
        obtain ⟨hmem | rfl, heq⟩ := hc
        · exact absurd (heq ▸ List.mem_map_of_mem hmem) hfresh
        · rfl
    · rw [AList.lookup_insert_ne hid, h.lookup]
      constructor
      · intro hc
        exact ⟨.inl hc.1, hc.2⟩
      · intro hc
        obtain ⟨hmem | rfl, heq⟩ := hc
        · exact ⟨hmem, heq⟩
        · exact absurd heq.symm hid

theorem conflicts_cons (index : AList fun _ : EventIdentity => UsageCall) (threadId : String)
    (call : DeletedUsageCall) (saved : List (String × DeletedUsageCall)) :
    conflicts env index ((threadId, call) :: saved) =
      conflicts env index [(threadId, call)] ++ conflicts env index saved := by
  unfold conflicts
  rw [List.flatMap_cons, List.flatMap_singleton]

theorem conflicts_of_lookup {index : AList fun _ : EventIdentity => UsageCall} {threadId : String}
    {call : DeletedUsageCall} {live : UsageCall}
    (h : index.lookup (call.identity env) = some live) :
    conflicts env index [(threadId, call)] =
      if DeletedUsageCall.from live ≠ call then [conflictWarning threadId] else [] := by
  unfold conflicts
  rw [List.flatMap_singleton]
  simp only [h]

theorem overlayCall_spec {state : OverlayState} (h : Indexed env state) (threadId : String)
    (call : DeletedUsageCall) :
    CallsOverlaid env state [(threadId, call)] (overlayCall env threadId state call) := by
  unfold overlayCall
  cases hlookup : state.calls.lookup (call.identity env) with
  | some live =>
    have hcovered : ∀ p ∈ [(threadId, call)],
        p.2.identity env ∈ state.dataset.calls.map (callIdentity env) := by
      intro p hp
      rw [List.mem_singleton] at hp
      subst hp
      exact h.identity_mem hlookup
    have hconf : conflicts env state.calls [(threadId, call)] =
        if DeletedUsageCall.from live ≠ call then [conflictWarning threadId] else [] :=
      conflicts_of_lookup hlookup
    dsimp only
    split
    · rename_i hne
      rw [if_pos hne] at hconf
      exact {
        indexed := ⟨h.distinct, h.lookup⟩
        added := ⟨[], by simp [reportConflict], by simp⟩
        covered := hcovered
        extends' := fun _ _ hc => hc
        warnings := by rw [hconf]; rfl
        stats := by rw [hconf]; rfl }
    · rename_i heq
      rw [if_neg heq] at hconf
      exact {
        indexed := h
        added := ⟨[], by simp, by simp⟩
        covered := hcovered
        extends' := fun _ _ hc => hc
        warnings := by rw [hconf, List.append_nil]
        stats := by rw [hconf]; rfl }
  | none =>
    have hself : (state.calls.insert (call.identity env) call.toCall).lookup (call.identity env) =
        some call.toCall := AList.lookup_insert _
    have hconf : conflicts env (state.calls.insert (call.identity env) call.toCall)
        [(threadId, call)] = [] := by
      rw [conflicts_of_lookup hself, from_toCall, if_neg (by simp)]
    exact {
      indexed := h.push hlookup
      added := ⟨[call.toCall], rfl, by simpa using List.mem_map.not.1 (h.identity_notMem hlookup)⟩
      covered := by simp
      extends' := by
        intro id c hc
        refine (AList.lookup_insert_ne ?_).trans hc
        rintro rfl
        rw [hlookup] at hc
        cases hc
      warnings := by rw [hconf, List.append_nil]
      stats := by rw [hconf]; rfl }

theorem CallsOverlaid.calls_subset {before after : OverlayState}
    {saved : List (String × DeletedUsageCall)} (h : CallsOverlaid env before saved after) :
    before.dataset.calls ⊆ after.dataset.calls := by
  obtain ⟨added, hadded, -⟩ := h.added
  rw [hadded]
  exact List.subset_append_left _ _

/-- **The loop over saved calls**, by induction on them. A conflict seen at a call is one with the
final index too: the index is only extended, and a call that was added is its own entry. -/
theorem overlayCalls_spec : ∀ (saved : List (String × DeletedUsageCall)) {state : OverlayState},
    Indexed env state → CallsOverlaid env state saved (overlayCalls env saved state) := by
  intro saved
  induction saved with
  | nil =>
    intro state h
    exact ⟨h, ⟨[], (List.append_nil _).symm, by simp⟩, by simp, fun _ _ hc => hc,
      (List.append_nil _).symm, rfl⟩
  | cons p saved ih =>
    intro state h
    obtain ⟨threadId, call⟩ := p
    have one := overlayCall_spec h threadId call
    have rest := ih one.indexed
    rw [overlayCalls, List.foldl_cons, ← overlayCalls]
    generalize overlayCall env threadId state call = mid at one rest
    generalize overlayCalls env saved mid = last at rest
    -- the entry of this call does not change afterwards
    have hentry : ∃ live, mid.calls.lookup (call.identity env) = some live := by
      obtain ⟨c, hc, hid⟩ := List.mem_map.1 (one.covered (threadId, call) (by simp))
      exact ⟨c, (one.indexed.lookup _ c).2 ⟨hc, hid⟩⟩
    obtain ⟨live, hlive⟩ := hentry
    have hconf : conflicts env last.calls [(threadId, call)] =
        conflicts env mid.calls [(threadId, call)] := by
      rw [conflicts_of_lookup hlive, conflicts_of_lookup (rest.extends' _ _ hlive)]
    refine ⟨rest.indexed, ?_, ?_, fun id c hc => rest.extends' id c (one.extends' id c hc), ?_, ?_⟩
    · obtain ⟨a₁, h₁, f₁⟩ := one.added
      obtain ⟨a₂, h₂, f₂⟩ := rest.added
      refine ⟨a₁ ++ a₂, by rw [h₂, h₁, List.append_assoc], ?_⟩
      intro c hc
      rcases List.mem_append.1 hc with hc | hc
      · obtain ⟨q, hq, hcq, hout⟩ := f₁ c hc
        rw [List.mem_singleton] at hq
        subst hq
        exact ⟨_, List.mem_cons_self, hcq, hout⟩
      · obtain ⟨q, hq, hcq, hout⟩ := f₂ c hc
        refine ⟨q, List.mem_cons_of_mem _ hq, hcq, fun hin => hout ?_⟩
        obtain ⟨c', hc', hid⟩ := List.mem_map.1 hin
        exact hid ▸ List.mem_map_of_mem (one.calls_subset hc')
    · intro q hq
      rcases List.mem_cons.1 hq with rfl | hq
      · obtain ⟨c, hc, hid⟩ := List.mem_map.1 (one.covered (threadId, call) (by simp))
        exact hid ▸ List.mem_map_of_mem (rest.calls_subset hc)
      · exact rest.covered q hq
    · rw [rest.warnings, one.warnings, ← hconf, List.append_assoc, ← conflicts_cons]
    · rw [rest.stats, one.stats, ← hconf, conflicts_cons last.calls threadId call saved]
      exact List.foldl_append.symm

/-! ## The loop over records -/

/-- The saved calls that an overlay as of `asOf` reads, each with the thread of its record. -/
def overlaidCalls (asOf : DateTime) (records : List DeletedSessionRecord) :
    List (String × DeletedUsageCall) :=
  records.flatMap fun record =>
    (record.calls.filter fun call => call.timestamp ≤ asOf).map fun call => (record.threadId, call)

/-- A dataset with other tasks, turns and interactions. -/
def OverlayState.setRecords (state : OverlayState) (tasks : List TaskRecord)
    (turns : List TurnRecord) (edges : List AgentInteraction) : OverlayState :=
  { state with
    dataset := { state.dataset with tasks := tasks, turns := turns, agentInteractions := edges } }

theorem overlayCall_setRecords (threadId : String) (state : OverlayState) (call : DeletedUsageCall)
    (tasks : List TaskRecord) (turns : List TurnRecord) (edges : List AgentInteraction) :
    overlayCall env threadId (state.setRecords tasks turns edges) call =
      (overlayCall env threadId state call).setRecords tasks turns edges := by
  unfold overlayCall OverlayState.setRecords
  cases state.calls.lookup (call.identity env) with
  | some live =>
    dsimp only
    split <;> rfl
  | none => rfl

theorem overlayCalls_setRecords (saved : List (String × DeletedUsageCall)) (tasks : List TaskRecord)
    (turns : List TurnRecord) (edges : List AgentInteraction) : ∀ state : OverlayState,
    overlayCalls env saved (state.setRecords tasks turns edges) =
      (overlayCalls env saved state).setRecords tasks turns edges := by
  induction saved with
  | nil => exact fun _ => rfl
  | cons p saved ih =>
    intro state
    unfold overlayCalls at ih ⊢
    rw [List.foldl_cons, overlayCall_setRecords, ih]
    rfl

/-- The saved calls leave the tasks, turns, interactions and rate observations alone. -/
structure SameRecords (before after : RolloutDataset) : Prop where
  tasks : after.tasks = before.tasks
  turns : after.turns = before.turns
  agentInteractions : after.agentInteractions = before.agentInteractions
  rateObservations : after.rateObservations = before.rateObservations

theorem overlayCall_sameRecords (env : LedgerEnv) (threadId : String) (state : OverlayState)
    (call : DeletedUsageCall) :
    SameRecords state.dataset (overlayCall env threadId state call).dataset := by
  unfold overlayCall
  cases state.calls.lookup (call.identity env) with
  | some live =>
    dsimp only
    split <;> exact ⟨rfl, rfl, rfl, rfl⟩
  | none => exact ⟨rfl, rfl, rfl, rfl⟩

theorem overlayCalls_sameRecords (env : LedgerEnv) (saved : List (String × DeletedUsageCall)) :
    ∀ state : OverlayState, SameRecords state.dataset (overlayCalls env saved state).dataset := by
  induction saved with
  | nil => exact fun _ => ⟨rfl, rfl, rfl, rfl⟩
  | cons p saved ih =>
    intro state
    have rest := ih (overlayCall env p.1 state p.2)
    have one := overlayCall_sameRecords env p.1 state p.2
    exact ⟨rest.tasks.trans one.tasks, rest.turns.trans one.turns,
      rest.agentInteractions.trans one.agentInteractions,
      rest.rateObservations.trans one.rateObservations⟩

def overlayTurns (turns : List TurnRecord) (record : DeletedSessionRecord) : List TurnRecord :=
  record.turns.foldl (overlayTurn record.threadId) turns

theorem overlayRecord_eq (state : OverlayState) (record : DeletedSessionRecord) :
    overlayRecord env asOf state record =
      (overlayCalls env (overlaidCalls asOf [record]) state).setRecords
        (overlayTask state.dataset.tasks record) (overlayTurns state.dataset.turns record)
        (mergeEdges state.dataset.agentInteractions record.agentInteractions) := by
  have hfold : (record.calls.filter fun call => call.timestamp ≤ asOf).foldl
      (overlayCall env record.threadId) state =
      overlayCalls env (overlaidCalls asOf [record]) state := by
    rw [overlaidCalls, List.flatMap_singleton, overlayCalls, List.foldl_map]
  have same := overlayCalls_sameRecords env (overlaidCalls asOf [record]) state
  unfold overlayRecord
  rw [hfold]
  dsimp only
  rw [same.tasks, same.turns, same.agentInteractions]
  rfl

theorem overlayRecords_eq : ∀ (records : List DeletedSessionRecord) (state : OverlayState),
    records.foldl (overlayRecord env asOf) state =
      (overlayCalls env (overlaidCalls asOf records) state).setRecords
        (records.foldl overlayTask state.dataset.tasks)
        (records.foldl overlayTurns state.dataset.turns)
        (records.foldl (fun edges record => mergeEdges edges record.agentInteractions)
          state.dataset.agentInteractions) := by
  intro records
  induction records with
  | nil => exact fun _ => rfl
  | cons record records ih =>
    intro state
    have happend : overlaidCalls asOf (record :: records) =
        overlaidCalls asOf [record] ++ overlaidCalls asOf records := by
      unfold overlaidCalls
      rw [List.flatMap_cons, List.flatMap_singleton]
    rw [List.foldl_cons, ih, overlayRecord_eq, overlayCalls_setRecords, happend]
    unfold overlayCalls
    rw [List.foldl_append]
    rfl

/-! ## Totals -/

def threadUsage (calls : List UsageCall) (threadId : String) : TokenUsage :=
  TokenUsage.sum ((calls.filter fun call => call.threadId = threadId).map (·.tokens))

def turnUsage (calls : List UsageCall) (threadId turnId : String) : TokenUsage :=
  TokenUsage.sum ((calls.filter fun call =>
    call.threadId = threadId ∧ call.turnId = some turnId).map (·.tokens))

theorem threadUsage_perm {calls calls' : List UsageCall} (h : calls.Perm calls')
    (threadId : String) : threadUsage calls threadId = threadUsage calls' threadId :=
  TokenUsage.sum_perm ((h.filter _).map _)

theorem turnUsage_perm {calls calls' : List UsageCall} (h : calls.Perm calls')
    (threadId turnId : String) : turnUsage calls threadId turnId = turnUsage calls' threadId turnId :=
  TokenUsage.sum_perm ((h.filter _).map _)

theorem lookup_addTotal {κ : Type} [DecidableEq κ] (totals : AList fun _ : κ => TokenUsage)
    (key k : κ) (tokens : TokenUsage) :
    ((addTotal totals key tokens).lookup k).getD default =
      if k = key then ((totals.lookup k).getD default).addAssign tokens
      else (totals.lookup k).getD default := by
  unfold addTotal
  by_cases hk : k = key
  · subst hk
    rw [AList.lookup_insert, if_pos rfl]
    rfl
  · rw [AList.lookup_insert_ne hk, if_neg hk]

theorem lookup_threadTotals (threadId : String) : ∀ (calls : List UsageCall) (totals : Totals),
    ((calls.foldl addCallTotals totals).threads.lookup threadId).getD default =
      ((calls.filter fun call => call.threadId = threadId).map (·.tokens)).foldl
        TokenUsage.addAssign ((totals.threads.lookup threadId).getD default) := by
  intro calls
  induction calls with
  | nil => exact fun _ => rfl
  | cons call calls ih =>
    intro totals
    rw [List.foldl_cons, ih, addCallTotals, lookup_addTotal, List.filter_cons]
    by_cases h : call.threadId = threadId
    · rw [if_pos h.symm, if_pos (by simpa using h)]
      rfl
    · rw [if_neg (fun heq => h heq.symm), if_neg (by simpa using h)]

theorem lookup_turnTotals (threadId turnId : String) :
    ∀ (calls : List UsageCall) (totals : Totals),
    ((calls.foldl addCallTotals totals).turns.lookup (threadId, turnId)).getD default =
      ((calls.filter fun call => call.threadId = threadId ∧ call.turnId = some turnId).map
        (·.tokens)).foldl TokenUsage.addAssign
        ((totals.turns.lookup (threadId, turnId)).getD default) := by
  intro calls
  induction calls with
  | nil => exact fun _ => rfl
  | cons call calls ih =>
    intro totals
    rw [List.foldl_cons, ih, addCallTotals, List.filter_cons]
    cases hturn : call.turnId with
    | none => rw [if_neg (by simp)]
    | some turn =>
      rw [lookup_addTotal]
      by_cases h : call.threadId = threadId ∧ turn = turnId
      · rw [if_pos (by rw [h.1, h.2]), if_pos (by simpa using h)]
        rfl
      · rw [if_neg (by simpa [eq_comm] using h), if_neg (by simpa using h)]

/-- A task of a touched thread gets the sum of its calls. -/
def retotalTask (touched : List String) (calls : List UsageCall) (task : TaskRecord) :
    TaskRecord :=
  if task.threadId ∈ touched then { task with tokenUsage := threadUsage calls task.threadId }
  else task

def retotalTurn (touched : List String) (calls : List UsageCall) (turn : TurnRecord) :
    TurnRecord :=
  if turn.threadId ∈ touched then
    { turn with tokenUsage := turnUsage calls turn.threadId turn.turnId }
  else turn

theorem rebuildTotals_eq (touched : List String) (dataset : RolloutDataset) :
    rebuildTotals touched dataset = { dataset with
      tasks := dataset.tasks.map (retotalTask touched dataset.calls)
      turns := dataset.turns.map (retotalTurn touched dataset.calls) } := by
  unfold rebuildTotals
  dsimp only
  congr 1
  · refine List.map_congr_left ?_
    intro task _
    unfold retotalTask
    by_cases h : task.threadId ∈ touched
    · rw [if_pos h, if_pos h, lookup_threadTotals, List.filter_filter]
      have hfilter : (dataset.calls.filter fun call =>
          decide (call.threadId = task.threadId) && decide (call.threadId ∈ touched)) =
          dataset.calls.filter fun call => call.threadId = task.threadId := by
        refine List.filter_congr ?_
        intro call _
        by_cases heq : call.threadId = task.threadId
        · simp [heq, h]
        · simp [heq]
      rw [hfilter]
      rfl
    · rw [if_neg h, if_neg h]
  · refine List.map_congr_left ?_
    intro turn _
    unfold retotalTurn
    by_cases h : turn.threadId ∈ touched
    · rw [if_pos h, if_pos h, lookup_turnTotals, List.filter_filter]
      have hfilter : (dataset.calls.filter fun call =>
          decide (call.threadId = turn.threadId ∧ call.turnId = some turn.turnId) &&
            decide (call.threadId ∈ touched)) =
          dataset.calls.filter fun call =>
            call.threadId = turn.threadId ∧ call.turnId = some turn.turnId := by
        refine List.filter_congr ?_
        intro call _
        by_cases heq : call.threadId = turn.threadId
        · simp [heq, h]
        · simp [heq]
      rw [hfilter]
      rfl
    · rw [if_neg h, if_neg h]

@[simp] theorem retotalTask_threadId (touched : List String) (calls : List UsageCall)
    (task : TaskRecord) : (retotalTask touched calls task).threadId = task.threadId := by
  unfold retotalTask
  split <;> rfl

@[simp] theorem retotalTurn_threadId (touched : List String) (calls : List UsageCall)
    (turn : TurnRecord) : (retotalTurn touched calls turn).threadId = turn.threadId := by
  unfold retotalTurn
  split <;> rfl

@[simp] theorem retotalTurn_turnId (touched : List String) (calls : List UsageCall)
    (turn : TurnRecord) : (retotalTurn touched calls turn).turnId = turn.turnId := by
  unfold retotalTurn
  split <;> rfl

/-! ## The overlaid dataset -/

section overlaid

variable (env) (dataset : RolloutDataset) (records : List DeletedSessionRecord) (asOf : DateTime)

/-- The saved calls at or before `asOf` of the records captured at or before it. -/
def visibleCalls (records : List DeletedSessionRecord) (asOf : DateTime) :
    List (String × DeletedUsageCall) :=
  overlaidCalls asOf (visibleRecords records asOf)

def touchedThreads (records : List DeletedSessionRecord) (asOf : DateTime) : List String :=
  (visibleRecords records asOf).map (·.threadId)

def afterCalls : OverlayState :=
  overlayCalls env (visibleCalls records asOf) ⟨dataset, indexCalls env dataset.calls⟩

theorem overlay_eq : overlayDeletedSessions env dataset records asOf = {
    tasks := ((visibleRecords records asOf).foldl overlayTask dataset.tasks).map
      (retotalTask (touchedThreads records asOf) (afterCalls env dataset records asOf).dataset.calls)
    turns := ((visibleRecords records asOf).foldl overlayTurns dataset.turns).map
      (retotalTurn (touchedThreads records asOf) (afterCalls env dataset records asOf).dataset.calls)
    agentInteractions := (visibleRecords records asOf).foldl
      (fun edges record => mergeEdges edges record.agentInteractions) dataset.agentInteractions
    calls := (afterCalls env dataset records asOf).dataset.calls.insertionSort
      fun left right => usageCallLe left right
    rateObservations := dataset.rateObservations
    stats := (afterCalls env dataset records asOf).dataset.stats
    warnings := (afterCalls env dataset records asOf).dataset.warnings } := by
  have same := overlayCalls_sameRecords env (visibleCalls records asOf)
    ⟨dataset, indexCalls env dataset.calls⟩
  unfold overlayDeletedSessions
  dsimp only
  rw [overlayRecords_eq]
  rw [rebuildTotals_eq]
  unfold OverlayState.setRecords
  rw [show (overlayCalls env (overlaidCalls asOf (visibleRecords records asOf))
    ⟨dataset, indexCalls env dataset.calls⟩).dataset.rateObservations =
      dataset.rateObservations from same.rateObservations]
  rfl

end overlaid

theorem afterCalls_spec (hnodup : (dataset.calls.map (callIdentity env)).Nodup) :
    CallsOverlaid env ⟨dataset, indexCalls env dataset.calls⟩ (visibleCalls records asOf)
      (afterCalls env dataset records asOf) :=
  overlayCalls_spec _ (indexCalls_indexed hnodup)

theorem overlay_calls_perm (dataset : RolloutDataset) :
    (overlayDeletedSessions env dataset records asOf).calls.Perm
      (afterCalls env dataset records asOf).dataset.calls := by
  rw [overlay_eq]
  exact List.perm_insertionSort _ _

theorem mem_visibleCalls {threadId : String} {saved : DeletedUsageCall} :
    (threadId, saved) ∈ visibleCalls records asOf ↔ ∃ record ∈ records,
      record.capturedAt ≤ asOf ∧ saved ∈ record.calls ∧ saved.timestamp ≤ asOf ∧
        record.threadId = threadId := by
  simp [visibleCalls, overlaidCalls, visibleRecords, and_assoc]

/-- **One call for each event**: the live calls and, for the events that have none, a saved one. -/
structure OneCallPerEvent (env : LedgerEnv) (dataset : RolloutDataset)
    (records : List DeletedSessionRecord) (asOf : DateTime) (overlaid : RolloutDataset) :
    Prop where
  distinct : (overlaid.calls.map (callIdentity env)).Nodup
  identities : ∀ id, id ∈ overlaid.calls.map (callIdentity env) ↔
    id ∈ dataset.calls.map (callIdentity env) ∨
      ∃ record ∈ records, record.capturedAt ≤ asOf ∧
        ∃ saved ∈ record.calls, saved.timestamp ≤ asOf ∧ saved.identity env = id
  live : ∀ call ∈ dataset.calls, call ∈ overlaid.calls
  origin : ∀ call ∈ overlaid.calls, call ∈ dataset.calls ∨
    (callIdentity env call ∉ dataset.calls.map (callIdentity env) ∧
      ∃ record ∈ records, record.capturedAt ≤ asOf ∧
        ∃ saved ∈ record.calls, saved.timestamp ≤ asOf ∧ call = saved.toCall)

theorem overlay_events (hnodup : (dataset.calls.map (callIdentity env)).Nodup) :
    OneCallPerEvent env dataset records asOf
      (overlayDeletedSessions env dataset records asOf) := by
  have spec : CallsOverlaid env ⟨dataset, indexCalls env dataset.calls⟩
    (visibleCalls records asOf) (afterCalls env dataset records asOf) := afterCalls_spec hnodup
  have hperm : (overlayDeletedSessions env dataset records asOf).calls.Perm
    (afterCalls env dataset records asOf).dataset.calls := overlay_calls_perm dataset
  have horigin : ∀ call ∈ (afterCalls env dataset records asOf).dataset.calls,
      call ∈ dataset.calls ∨ (callIdentity env call ∉ dataset.calls.map (callIdentity env) ∧
        ∃ record ∈ records, record.capturedAt ≤ asOf ∧
          ∃ saved ∈ record.calls, saved.timestamp ≤ asOf ∧ call = saved.toCall) := by
    intro call hcall
    obtain ⟨added, heq, hadded⟩ := spec.added
    rw [heq, List.mem_append] at hcall
    rcases hcall with hcall | hcall
    · exact .inl hcall
    · obtain ⟨⟨threadId, saved⟩, hsaved, rfl, hout⟩ := hadded call hcall
      obtain ⟨record, hrecord, hcaptured, hmem, htime, -⟩ := mem_visibleCalls.1 hsaved
      exact .inr ⟨hout, record, hrecord, hcaptured, saved, hmem, htime, rfl⟩
  refine ⟨?_, ?_, ?_, ?_⟩
  · exact (hperm.map _).nodup_iff.2 spec.indexed.distinct
  · intro id
    rw [(hperm.map _).mem_iff]
    constructor
    · intro hid
      obtain ⟨call, hcall, rfl⟩ := List.mem_map.1 hid
      rcases horigin call hcall with hlive | ⟨-, record, hr, hcap, saved, hs, ht, rfl⟩
      · exact .inl (List.mem_map_of_mem hlive)
      · exact .inr ⟨record, hr, hcap, saved, hs, ht, rfl⟩
    · intro hid
      rcases hid with hid | ⟨record, hr, hcap, saved, hs, ht, rfl⟩
      · obtain ⟨call, hcall, rfl⟩ := List.mem_map.1 hid
        exact List.mem_map_of_mem (spec.calls_subset hcall)
      · exact spec.covered (record.threadId, saved)
          (mem_visibleCalls.2 ⟨record, hr, hcap, hs, ht, rfl⟩)
  · intro call hcall
    exact hperm.mem_iff.2 (spec.calls_subset hcall)
  · intro call hcall
    exact horigin call (hperm.mem_iff.1 hcall)

/-! ### Tasks and turns -/

section pushMissing

variable {α β : Type} (stands : β → α → Bool) (make : α → β)

/-- The loop keeps the list and adds what stands for each item that has nothing yet. -/
theorem foldl_pushMissing (hmake : ∀ x, stands (make x) x = true) : ∀ (xs : List α) (list : List β),
    (∃ added, xs.foldl (pushMissing stands make) list = list ++ added ∧
      ∀ b ∈ added, ∃ x ∈ xs, b = make x) ∧
    ∀ x ∈ xs, ∃ b ∈ xs.foldl (pushMissing stands make) list, stands b x = true := by
  intro xs
  induction xs with
  | nil => exact fun list => ⟨⟨[], by simp⟩, by simp⟩
  | cons x xs ih =>
    intro list
    have step : (∃ added, pushMissing stands make list x = list ++ added ∧
        ∀ b ∈ added, b = make x) ∧ ∃ b ∈ pushMissing stands make list x, stands b x = true := by
      unfold pushMissing
      split
      · rename_i h
        obtain ⟨b, hb, hs⟩ := List.any_eq_true.1 h
        exact ⟨⟨[], by simp⟩, b, hb, hs⟩
      · exact ⟨⟨[make x], rfl, by simp⟩, make x, by simp, hmake x⟩
    obtain ⟨⟨a₁, h₁, f₁⟩, b, hb, hs⟩ := step
    obtain ⟨⟨a₂, h₂, f₂⟩, hcover⟩ := ih (pushMissing stands make list x)
    rw [List.foldl_cons]
    refine ⟨⟨a₁ ++ a₂, by rw [h₂, h₁, List.append_assoc], ?_⟩, ?_⟩
    · intro c hc
      rcases List.mem_append.1 hc with hc | hc
      · exact ⟨x, List.mem_cons_self, f₁ c hc⟩
      · obtain ⟨y, hy, heq⟩ := f₂ c hc
        exact ⟨y, List.mem_cons_of_mem _ hy, heq⟩
    · intro y hy
      rcases List.mem_cons.1 hy with rfl | hy
      · exact ⟨b, by rw [h₂]; exact List.mem_append_left _ hb, hs⟩
      · exact hcover y hy

theorem foldl_pushMissing_eq {list : List β} : ∀ {xs : List α},
    (∀ x ∈ xs, ∃ b ∈ list, stands b x = true) → xs.foldl (pushMissing stands make) list = list := by
  intro xs
  induction xs with
  | nil => exact fun _ => rfl
  | cons x xs ih =>
    intro h
    obtain ⟨b, hb, hs⟩ := h x List.mem_cons_self
    have hx : pushMissing stands make list x = list :=
      if_pos (List.any_eq_true.2 ⟨b, hb, hs⟩)
    rw [List.foldl_cons, hx]
    exact ih fun y hy => h y (List.mem_cons_of_mem _ hy)

end pushMissing

/-- The saved turns of records, each with its thread. -/
def savedTurns (rs : List DeletedSessionRecord) : List (String × DeletedTurn) :=
  rs.flatMap fun record => record.turns.map fun turn => (record.threadId, turn)

theorem overlayTurns_eq (turns : List TurnRecord) :
    rs.foldl overlayTurns turns = (savedTurns rs).foldl
      (pushMissing (fun existing p => existing.threadId = p.1 ∧ existing.turnId = p.2.turnId)
        fun p => p.2.toTurn p.1) turns := by
  rw [savedTurns, List.foldl_flatMap]
  simp only [List.foldl_map]
  rfl

theorem overlayEdges_eq (edges : List AgentInteraction) :
    rs.foldl (fun edges record => mergeEdges edges record.agentInteractions) edges =
      (rs.flatMap (·.agentInteractions)).foldl
        (pushMissing (fun current edge => current = edge) id) edges := by
  rw [List.foldl_flatMap]
  rfl

theorem overlaidTasks_spec (tasks : List TaskRecord) :
    (∃ added, rs.foldl overlayTask tasks = tasks ++ added ∧
      ∀ task ∈ added, ∃ record ∈ rs, task = record.toTask) ∧
    ∀ record ∈ rs, ∃ task ∈ rs.foldl overlayTask tasks, task.threadId = record.threadId := by
  have h := foldl_pushMissing
    (fun (task : TaskRecord) (record : DeletedSessionRecord) =>
      decide (task.threadId = record.threadId))
    DeletedSessionRecord.toTask (fun _ => decide_eq_true rfl) rs tasks
  unfold overlayTask
  simpa only [decide_eq_true_eq] using h

theorem overlaidTasks_eq {rs : List DeletedSessionRecord} {tasks : List TaskRecord}
    (h : ∀ record ∈ rs, ∃ task ∈ tasks, task.threadId = record.threadId) :
    rs.foldl overlayTask tasks = tasks :=
  foldl_pushMissing_eq _ _ (by simpa only [decide_eq_true_eq] using h)

theorem mem_savedTurns {rs : List DeletedSessionRecord} {record : DeletedSessionRecord}
    {saved : DeletedTurn} (hrecord : record ∈ rs) (hsaved : saved ∈ record.turns) :
    (record.threadId, saved) ∈ savedTurns rs :=
  List.mem_flatMap.2 ⟨record, hrecord, List.mem_map_of_mem hsaved⟩

theorem overlaidTurns_spec (turns : List TurnRecord) :
    (∃ added, rs.foldl overlayTurns turns = turns ++ added ∧
      ∀ turn ∈ added, ∃ record ∈ rs, ∃ saved : DeletedTurn,
        turn = saved.toTurn record.threadId) ∧
    ∀ record ∈ rs, ∀ saved ∈ record.turns, ∃ turn ∈ rs.foldl overlayTurns turns,
      turn.threadId = record.threadId ∧ turn.turnId = saved.turnId := by
  rw [overlayTurns_eq]
  obtain ⟨⟨added, hadded, hnew⟩, hcover⟩ := foldl_pushMissing
    (fun (existing : TurnRecord) (p : String × DeletedTurn) =>
      decide (existing.threadId = p.1 ∧ existing.turnId = p.2.turnId))
    (fun p => p.2.toTurn p.1) (fun _ => decide_eq_true ⟨rfl, rfl⟩) (savedTurns rs) turns
  refine ⟨⟨added, hadded, ?_⟩, ?_⟩
  · intro turn hturn
    obtain ⟨p, hp, rfl⟩ := hnew turn hturn
    obtain ⟨record, hrecord, hmem⟩ := List.mem_flatMap.1 hp
    obtain ⟨saved, -, rfl⟩ := List.mem_map.1 hmem
    exact ⟨record, hrecord, saved, rfl⟩
  · intro record hrecord saved hsaved
    obtain ⟨turn, hturn, heq⟩ := hcover _ (mem_savedTurns hrecord hsaved)
    exact ⟨turn, hturn, of_decide_eq_true heq⟩

theorem overlaidTurns_eq {rs : List DeletedSessionRecord} {turns : List TurnRecord}
    (h : ∀ record ∈ rs, ∀ saved ∈ record.turns, ∃ turn ∈ turns,
      turn.threadId = record.threadId ∧ turn.turnId = saved.turnId) :
    rs.foldl overlayTurns turns = turns := by
  rw [overlayTurns_eq]
  refine foldl_pushMissing_eq _ _ ?_
  intro p hp
  obtain ⟨record, hrecord, hmem⟩ := List.mem_flatMap.1 hp
  obtain ⟨saved, hsaved, rfl⟩ := List.mem_map.1 hmem
  obtain ⟨turn, hturn, heq⟩ := h record hrecord saved hsaved
  exact ⟨turn, hturn, decide_eq_true heq⟩

theorem overlaidEdges_again (edges : List AgentInteraction) :
    rs.foldl (fun edges record => mergeEdges edges record.agentInteractions)
        (rs.foldl (fun edges record => mergeEdges edges record.agentInteractions) edges) =
      rs.foldl (fun edges record => mergeEdges edges record.agentInteractions) edges := by
  rw [overlayEdges_eq, overlayEdges_eq]
  exact foldl_pushMissing_eq _ _ (foldl_pushMissing
    (fun current edge : AgentInteraction => decide (current = edge)) id
    (fun _ => decide_eq_true rfl) _ edges).2

/-- **Totals are the sums of the calls** for the threads of the overlaid records, each of which has
its task and its turns; other threads keep theirs. -/
structure RebuiltTotals (dataset : RolloutDataset) (records : List DeletedSessionRecord)
    (asOf : DateTime) (overlaid : RolloutDataset) : Prop where
  tasks : ∀ task ∈ overlaid.tasks, task.threadId ∈ touchedThreads records asOf →
    task.tokenUsage = threadUsage overlaid.calls task.threadId
  turns : ∀ turn ∈ overlaid.turns, turn.threadId ∈ touchedThreads records asOf →
    turn.tokenUsage = turnUsage overlaid.calls turn.threadId turn.turnId
  hasTask : ∀ t ∈ touchedThreads records asOf, ∃ task ∈ overlaid.tasks, task.threadId = t
  hasTurn : ∀ record ∈ visibleRecords records asOf, ∀ saved ∈ record.turns,
    ∃ turn ∈ overlaid.turns, turn.threadId = record.threadId ∧ turn.turnId = saved.turnId
  otherTasks : (overlaid.tasks.filter fun task => task.threadId ∉ touchedThreads records asOf) =
    dataset.tasks.filter fun task => task.threadId ∉ touchedThreads records asOf
  otherTurns : (overlaid.turns.filter fun turn => turn.threadId ∉ touchedThreads records asOf) =
    dataset.turns.filter fun turn => turn.threadId ∉ touchedThreads records asOf

theorem filter_retotal {α : Type} (f : α → α) (touched : α → Bool)
    (hsame : ∀ x, touched x = false → f x = x) (htouched : ∀ x, touched (f x) = touched x) :
    ∀ l : List α, ((l.map f).filter fun x => !touched x) = l.filter fun x => !touched x := by
  intro l
  induction l with
  | nil => rfl
  | cons x l ih =>
    rw [List.map_cons, List.filter_cons, List.filter_cons, ih, htouched]
    cases h : touched x with
    | false => rw [hsame x h]
    | true => rfl

theorem overlay_tasks (dataset : RolloutDataset) :
    (∀ task ∈ (overlayDeletedSessions env dataset records asOf).tasks,
      task.threadId ∈ touchedThreads records asOf → task.tokenUsage =
        threadUsage (overlayDeletedSessions env dataset records asOf).calls task.threadId) ∧
    (∀ turn ∈ (overlayDeletedSessions env dataset records asOf).turns,
      turn.threadId ∈ touchedThreads records asOf → turn.tokenUsage =
        turnUsage (overlayDeletedSessions env dataset records asOf).calls turn.threadId
          turn.turnId) := by
  have hperm : (overlayDeletedSessions env dataset records asOf).calls.Perm
    (afterCalls env dataset records asOf).dataset.calls := overlay_calls_perm dataset
  constructor
  · intro task htask hthread
    rw [threadUsage_perm hperm]
    rw [overlay_eq] at htask
    obtain ⟨old, -, rfl⟩ := List.mem_map.1 htask
    rw [retotalTask_threadId] at hthread ⊢
    rw [retotalTask, if_pos hthread]
  · intro turn hturn hthread
    rw [turnUsage_perm hperm]
    rw [overlay_eq] at hturn
    obtain ⟨old, -, rfl⟩ := List.mem_map.1 hturn
    rw [retotalTurn_threadId] at hthread ⊢
    rw [retotalTurn_turnId, retotalTurn, if_pos hthread]

theorem overlay_totals (dataset : RolloutDataset) :
    RebuiltTotals dataset records asOf (overlayDeletedSessions env dataset records asOf) := by
  have htotals : (∀ task ∈ (overlayDeletedSessions env dataset records asOf).tasks,
      task.threadId ∈ touchedThreads records asOf → task.tokenUsage =
        threadUsage (overlayDeletedSessions env dataset records asOf).calls task.threadId) ∧ _ :=
    overlay_tasks dataset
  obtain ⟨⟨newTasks, hnewTasks, hfreshTasks⟩, hcoverTasks⟩ :=
    overlaidTasks_spec (visibleRecords records asOf) dataset.tasks
  obtain ⟨⟨newTurns, hnewTurns, hfreshTurns⟩, hcoverTurns⟩ :=
    overlaidTurns_spec (visibleRecords records asOf) dataset.turns
  refine ⟨htotals.1, htotals.2, ?_, ?_, ?_, ?_⟩
  · intro t ht
    obtain ⟨record, hrecord, rfl⟩ := List.mem_map.1 ht
    obtain ⟨task, htask, heq⟩ := hcoverTasks record hrecord
    rw [overlay_eq]
    exact ⟨_, List.mem_map_of_mem htask, by rw [retotalTask_threadId, heq]⟩
  · intro record hrecord saved hsaved
    obtain ⟨turn, hturn, heq⟩ := hcoverTurns record hrecord saved hsaved
    rw [overlay_eq]
    exact ⟨_, List.mem_map_of_mem hturn, by rw [retotalTurn_threadId, retotalTurn_turnId]; exact heq⟩
  · rw [overlay_eq]
    have hfilter := filter_retotal (retotalTask (touchedThreads records asOf)
        (afterCalls env dataset records asOf).dataset.calls)
      (fun task => decide (task.threadId ∈ touchedThreads records asOf))
      (fun task h => if_neg (of_decide_eq_false h)) (fun task => by rw [retotalTask_threadId])
      ((visibleRecords records asOf).foldl overlayTask dataset.tasks)
    simp only [decide_not]
    rw [hfilter, hnewTasks, List.filter_append, List.append_right_eq_self, List.filter_eq_nil_iff]
    intro task htask
    obtain ⟨record, hrecord, rfl⟩ := hfreshTasks task htask
    have htouched : record.toTask.threadId ∈ touchedThreads records asOf :=
      List.mem_map_of_mem hrecord
    simp [htouched]
  · rw [overlay_eq]
    have hfilter := filter_retotal (retotalTurn (touchedThreads records asOf)
        (afterCalls env dataset records asOf).dataset.calls)
      (fun turn => decide (turn.threadId ∈ touchedThreads records asOf))
      (fun turn h => if_neg (of_decide_eq_false h)) (fun turn => by rw [retotalTurn_threadId])
      ((visibleRecords records asOf).foldl overlayTurns dataset.turns)
    simp only [decide_not]
    rw [hfilter, hnewTurns, List.filter_append, List.append_right_eq_self, List.filter_eq_nil_iff]
    intro turn hturn
    obtain ⟨record, hrecord, saved, rfl⟩ := hfreshTurns turn hturn
    have htouched : (saved.toTurn record.threadId).threadId ∈ touchedThreads records asOf :=
      List.mem_map_of_mem hrecord
    simp [htouched]

/-! ### Overlaying once more -/

instance usageCallLe_trans : IsTrans UsageCall fun a b => usageCallLe a b where
  trans a b c hab hbc := by
    simp only [usageCallLe, Bool.or_eq_true, Bool.and_eq_true, decide_eq_true_eq] at hab hbc ⊢
    rcases hab with hab | ⟨hab, hab'⟩ <;> rcases hbc with hbc | ⟨hbc, hbc'⟩
    · exact .inl (Int.lt_trans hab hbc)
    · exact .inl (hbc ▸ hab)
    · exact .inl (hab ▸ hbc)
    · exact .inr ⟨hab.trans hbc, String.le_trans hab' hbc'⟩

instance usageCallLe_total : Std.Total fun a b : UsageCall => usageCallLe a b = true where
  total a b := by
    simp only [usageCallLe, Bool.or_eq_true, Bool.and_eq_true, decide_eq_true_eq]
    rcases Int.lt_trichotomy a.timestamp b.timestamp with h | h | h
    · exact .inl (.inl h)
    · rcases String.le_total a.threadId b.threadId with ht | ht
      · exact .inl (.inr ⟨h, ht⟩)
      · exact .inr (.inr ⟨h.symm, ht⟩)
    · exact .inr (.inl h)

theorem overlay_calls_sorted (dataset : RolloutDataset) :
    ((overlayDeletedSessions env dataset records asOf).calls.insertionSort
        fun left right => usageCallLe left right) =
      (overlayDeletedSessions env dataset records asOf).calls := by
  rw [overlay_eq]
  exact (List.pairwise_insertionSort _ _).insertionSort_eq

theorem Indexed.lookup_eq {s s' : OverlayState} (h : Indexed env s) (h' : Indexed env s')
    (hperm : s.dataset.calls.Perm s'.dataset.calls) (id : EventIdentity) :
    s.calls.lookup id = s'.calls.lookup id := by
  refine Option.ext ?_
  intro c
  rw [h.lookup, h'.lookup, hperm.mem_iff]

theorem conflicts_congr {index index' : AList fun _ : EventIdentity => UsageCall}
    (h : ∀ id, index.lookup id = index'.lookup id) (saved : List (String × DeletedUsageCall)) :
    conflicts env index saved = conflicts env index' saved := by
  unfold conflicts
  simp only [h]

/-- The reports of an overlay of records: one for each saved call that is not the call which the
overlaid dataset has for its event. -/
def conflictReports (env : LedgerEnv) (overlaid : RolloutDataset)
    (records : List DeletedSessionRecord) (asOf : DateTime) : List String :=
  conflicts env (indexCalls env overlaid.calls) (visibleCalls records asOf)

/-- The saved calls of an overlaid dataset are all there: the loop only reports the conflicts
again. -/
theorem afterCalls_again (hnodup : (dataset.calls.map (callIdentity env)).Nodup) :
    let overlaid := overlayDeletedSessions env dataset records asOf
    let again := (afterCalls env overlaid records asOf).dataset
    let reported := conflictReports env overlaid records asOf
    again.calls = overlaid.calls ∧ overlaid.warnings = dataset.warnings ++ reported ∧
      again.warnings = overlaid.warnings ++ reported ∧
      again.stats = skipLines overlaid.stats reported := by
  intro overlaid again reported
  have spec : CallsOverlaid env ⟨dataset, indexCalls env dataset.calls⟩
    (visibleCalls records asOf) (afterCalls env dataset records asOf) := afterCalls_spec hnodup
  have events : OneCallPerEvent env dataset records asOf overlaid := overlay_events hnodup
  have hperm : overlaid.calls.Perm (afterCalls env dataset records asOf).dataset.calls :=
    overlay_calls_perm dataset
  have spec' : CallsOverlaid env ⟨overlaid, indexCalls env overlaid.calls⟩
    (visibleCalls records asOf) (afterCalls env overlaid records asOf) :=
    afterCalls_spec events.distinct
  have hcalls : again.calls = overlaid.calls := by
    obtain ⟨added, heq, hadded⟩ := spec'.added
    have hnone : added = [] := by
      rw [List.eq_nil_iff_forall_not_mem]
      intro c hc
      obtain ⟨p, hp, -, hout⟩ := hadded c hc
      exact hout ((hperm.map _).mem_iff.2 (spec.covered p hp))
    rw [hnone, List.append_nil] at heq
    exact heq
  have hindexed := indexCalls_indexed events.distinct
  refine ⟨hcalls, ?_, ?_, ?_⟩
  · have hwarnings : overlaid.warnings = (afterCalls env dataset records asOf).dataset.warnings :=
      by rw [show overlaid = _ from overlay_eq env dataset records asOf]
    rw [hwarnings, spec.warnings, conflicts_congr (spec.indexed.lookup_eq hindexed hperm.symm)]
    rfl
  all_goals
    have hindex := spec'.indexed.lookup_eq hindexed
      (show again.calls.Perm overlaid.calls from hcalls ▸ List.Perm.refl _)
    rw [show reported = _ from (conflicts_congr hindex _).symm]
  · exact spec'.warnings
  · exact spec'.stats

/-- **Overlaying once more changes nothing** except that the conflicts are reported again. -/
theorem overlay_overlay (hnodup : (dataset.calls.map (callIdentity env)).Nodup) :
    let overlaid := overlayDeletedSessions env dataset records asOf
    let reported := conflictReports env overlaid records asOf
    overlaid.warnings = dataset.warnings ++ reported ∧
      overlayDeletedSessions env overlaid records asOf =
        { overlaid with
          stats := skipLines overlaid.stats reported
          warnings := overlaid.warnings ++ reported } := by
  intro overlaid reported
  obtain ⟨hcalls, hreported, hagain, hstats⟩ := afterCalls_again hnodup
  have totals : RebuiltTotals dataset records asOf overlaid := overlay_totals dataset
  have htasks : ((visibleRecords records asOf).foldl overlayTask overlaid.tasks).map
      (retotalTask (touchedThreads records asOf) overlaid.calls) = overlaid.tasks := by
    rw [overlaidTasks_eq fun record hrecord =>
      totals.hasTask record.threadId (List.mem_map_of_mem hrecord)]
    refine (List.map_congr_left ?_).trans (List.map_id _)
    intro task htask
    unfold retotalTask
    split
    · rw [← totals.tasks task htask ‹_›]
      rfl
    · rfl
  have hturns : ((visibleRecords records asOf).foldl overlayTurns overlaid.turns).map
      (retotalTurn (touchedThreads records asOf) overlaid.calls) = overlaid.turns := by
    rw [overlaidTurns_eq totals.hasTurn]
    refine (List.map_congr_left ?_).trans (List.map_id _)
    intro turn hturn
    unfold retotalTurn
    split
    · rw [← totals.turns turn hturn ‹_›]
      rfl
    · rfl
  have hedges : (visibleRecords records asOf).foldl
      (fun edges record => mergeEdges edges record.agentInteractions)
      overlaid.agentInteractions = overlaid.agentInteractions := by
    rw [show overlaid = _ from overlay_eq env dataset records asOf]
    exact overlaidEdges_again _ _
  refine ⟨hreported, ?_⟩
  rw [overlay_eq env overlaid records asOf, hcalls, htasks, hturns, hedges, overlay_calls_sorted,
    hagain, hstats]

end Deletion
