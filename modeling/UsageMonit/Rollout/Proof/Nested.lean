import Mathlib.Algebra.BigOperators.Group.Finset.Piecewise
import UsageMonit.Rollout.Proof.Requests

/-!
# Requests counted once, and twice

A native record whose turn is not the last turn named has a counter that is not recognised as its
mirror, so the request is counted twice. `CountedOnce` says that the calls of every turn add up to
the turn's requests; an aligned log is counted once, and among the logs whose records state no
turn totals only the aligned ones are.

* `covered_aligned`: without turn totals only the mirrors of aligned records are covered
* `tokens_counted`: every misaligned request adds its tokens again
* `requests_counted_once`: the two directions
* `nested_turn_counted_twice`: a request of an outer turn after a nested turn
-/

namespace Rollout

open Time Usage

/-! ## Coverage without turn totals -/

variable {log : List LogItem}

/-- No record states a turn total, every request has tokens, and they are fewer than a counter
can hold. -/
structure Plain (log : List LogItem) : Prop where
  totals : ∀ request record, .request request ∈ log → request.record = some record →
    record.turnUsage = none
  tokens : ∀ request, .request request ∈ log → request.usage.totalTokens ≠ 0
  fits : ((logState log).usages.map TokenUsage.totalTokens).sum < 2 ^ 64 - 1

/-- A native request in the turn named last. -/
def Entry.isAligned (entry : Entry) : Bool :=
  entry.request.record.any fun record => entry.named = some record.turnId

structure PlainCover (state : LogState) (coverage : Coverage) : Prop where
  named : coverage.currentTurn = state.named
  pending : coverage.pendingRequest = none ∨ coverage.currentTurn = none
  through : ∀ (turn : String) (requests : TurnRequests),
    coverage.turns[turn]? = some requests → requests.coveredThrough = none
  covered : ∀ index ∈ coverage.covered,
    ∃ entry ∈ state.entries, entry.isAligned ∧ entry.index = index

theorem step_event_pending {asOf : Option DateTime} {event : ParsedEvent} (index : Nat)
    {coverage : Coverage} (hvisible : eventIsVisible asOf event)
    (hother : ∀ request, event ≠ .requestUsage request)
    (hpending : coverage.pendingRequest = none ∨ coverage.currentTurn = none) :
    (coverage.step asOf (event, index)).turns = coverage.turns ∧
      (coverage.step asOf (event, index)).covered = coverage.covered ∧
      (coverage.step asOf (event, index)).currentTurn = (namedBy event).or coverage.currentTurn ∧
      ((coverage.step asOf (event, index)).pendingRequest = none ∨
        (coverage.step asOf (event, index)).currentTurn = none) := by
  rcases hpending with hpending | hcurrent
  · have h := step_event index hvisible hother hpending
    exact ⟨h.turns, h.covered, h.named, .inl h.pending⟩
  · -- outside of all turns only a start or a context of a turn changes anything
    simp only [Coverage.step, hvisible, Bool.not_true, Bool.false_eq_true, if_false]
    cases event with
    | requestUsage request => exact (hother request rfl).elim
    | taskStarted timestamp turn startedAt => exact ⟨rfl, rfl, rfl, .inl rfl⟩
    | turnContext timestamp payload =>
      dsimp only
      cases hturn : stringFieldIn payload ["turn_id", "turnId"] with
      | none => exact ⟨rfl, rfl, by simp [namedBy, hturn], .inr hcurrent⟩
      | some turn => exact ⟨rfl, rfl, by simp [namedBy, hturn], .inl (by simp [hcurrent])⟩
    | tokenCount counter =>
      rw [hcurrent]
      exact ⟨rfl, rfl, hcurrent, .inr hcurrent⟩
    | sessionMeta timestamp payload => exact ⟨rfl, rfl, rfl, .inr hcurrent⟩
    | foreignCounterBaseline timestamp totalUsage => exact ⟨rfl, rfl, rfl, .inr hcurrent⟩
    | foreignThreadSettingsBaseline timestamp model serviceTier =>
      exact ⟨rfl, rfl, rfl, .inr hcurrent⟩
    | userMessage timestamp preview turnId source => exact ⟨rfl, rfl, rfl, .inr hcurrent⟩
    | agentCall requestedAt callId parentTurnId kind => exact ⟨rfl, rfl, rfl, .inr hcurrent⟩
    | agentActivity recordedAt occurredAt callId childThreadId kind =>
      exact ⟨rfl, rfl, rfl, .inr hcurrent⟩
    | threadSettingsApplied timestamp serviceTier => exact ⟨rfl, rfl, rfl, .inr hcurrent⟩
    | activity timestamp => exact ⟨rfl, rfl, rfl, .inr hcurrent⟩
    | taskComplete timestamp turnId completedAt durationMs =>
      exact ⟨rfl, rfl, rfl, .inr hcurrent⟩
    | turnAborted timestamp turnId completedAt durationMs failed =>
      exact ⟨rfl, rfl, rfl, .inr hcurrent⟩

theorem record_coveredThrough_none {state : TurnRequests} {request : RequestUsageEvent}
    (index : Nat) (hstate : state.coveredThrough = none) (htotal : request.turnUsage = none) :
    (state.record index request).coveredThrough = none := by
  cases h : (state.record index request).coveredThrough with
  | none => rfl
  | some through =>
    rcases record_coveredThrough _ _ _ h with hprev | ⟨-, hstated⟩
    · rw [hstate] at hprev
      cases hprev
    · rw [htotal] at hstated
      cases hstated

theorem plainCover_native {asOf : Option DateTime} {request : LoggedRequest}
    {record : NativeRecord} {coverage : Coverage}
    (hvisible : ∀ event ∈ (logState log).write (.request request), eventIsVisible asOf event)
    (hrecord : request.record = some record) (htotal : record.turnUsage = none)
    (h : PlainCover (logState log) coverage) :
    PlainCover ((logState log).next (.request request))
      ((((logState log).write (.request request)).zipIdx (logState log).length).foldl
        (Coverage.step asOf) coverage) := by
  have hindex : ((logState log).entryOf request).index = (logState log).length + 1 := by
    unfold LogState.entryOf
    rw [hrecord]
    rfl
  have hentries : ((logState log).next (.request request)).entries =
      (logState log).entries ++ [(logState log).entryOf request] := rfl
  rw [write_native _ hrecord] at hvisible ⊢
  rw [List.zipIdx_cons, List.zipIdx_cons, List.zipIdx_nil, List.foldl_cons, List.foldl_cons,
    List.foldl_nil]
  have hrequest := hvisible _ (List.mem_cons_self ..)
  have hcounter := hvisible _ (List.mem_cons_of_mem _ (List.mem_singleton_self _))
  have hthrough : ∀ (turn : String) (requests : TurnRequests), (coverage.turns.insert record.turnId
      ((coverage.turns[record.turnId]?.getD .new).record (logState log).length
        (requestEvent request.usage record)))[turn]? = some requests →
      requests.coveredThrough = none := by
    intro turn requests hget
    rw [Std.ExtTreeMap.getElem?_insert] at hget
    split at hget
    · obtain rfl := Option.some.inj hget
      refine record_coveredThrough_none _ ?_ htotal
      cases hold : coverage.turns[record.turnId]? with
      | none => rfl
      | some requests => exact h.through _ _ hold
    · exact h.through _ _ hget
  have hold : ∀ index ∈ coverage.covered,
      ∃ entry ∈ (logState log).entries ++ [(logState log).entryOf request],
        entry.isAligned ∧ entry.index = index := by
    intro index hmem
    obtain ⟨entry, hentry, haligned⟩ := h.covered index hmem
    exact ⟨entry, List.mem_append_left _ hentry, haligned⟩
  simp only [Coverage.step, hrequest, hcounter, Bool.not_true, Bool.false_eq_true, if_false]
  cases hcurrent : coverage.currentTurn with
  | none => exact ⟨hcurrent.symm.trans h.named, .inr rfl, hthrough, hold⟩
  | some turn =>
    have hnamed : (logState log).named = some turn := h.named ▸ hcurrent
    refine ⟨hnamed.symm, .inl rfl, hthrough, fun index hmem => ?_⟩
    rw [hentries]
    dsimp only at hmem
    split at hmem
    · rename_i hmirror
      rcases List.mem_append.1 hmem with hmem | hmem
      · exact hold index hmem
      · obtain rfl := List.mem_singleton.1 hmem
        refine ⟨_, List.mem_append_right _ (List.mem_singleton_self _), ?_, hindex⟩
        have hturn : record.turnId = turn := by
          simp only [mirrorsPending, requestEvent, Option.any_some, Bool.and_eq_true,
            decide_eq_true_eq] at hmirror
          exact hmirror.1.1
        simp [Entry.isAligned, LogState.entryOf, hrecord, hnamed, hturn]
    · exact hold index hmem

theorem plainCover_log {asOf : Option DateTime} (hwf : WellFormed log)
    (htotals : ∀ request record, .request request ∈ log → request.record = some record →
      record.turnUsage = none) (hvisible : ∀ event ∈ writtenEvents log, eventIsVisible asOf event) :
    PlainCover (logState log) (coverageAfter asOf log) := by
  induction log using List.reverseRecOn with
  | nil =>
    refine ⟨rfl, .inl rfl, fun turn requests hget => ?_, fun _ hmem => ?_⟩
    · simp [coverageAfter, writtenEvents, writtenFrom, Coverage.new] at hget
    · cases hmem
  | append_singleton front item ih =>
    rw [writtenEvents_append_singleton] at hvisible
    have hfront := ih hwf.left (fun request record hmem =>
      htotals request record (List.mem_append_left _ hmem)) fun event hmem =>
      hvisible event (List.mem_append_left _ hmem)
    have hitem : ∀ event ∈ (logState front).write item, eventIsVisible asOf event :=
      fun event hmem => hvisible event (List.mem_append_right _ hmem)
    have hlast : item ∈ front ++ [item] := List.mem_append_right _ (List.mem_singleton_self _)
    rw [logState_append_singleton, coverageAfter_append_singleton]
    -- an event that is no native record changes the named turn only
    have hother : ∀ {event : ParsedEvent}, (logState front).write item = [event] →
        (∀ request, event ≠ .requestUsage request) →
        ((logState front).next item).named = (namedBy event).or (logState front).named →
        PlainCover ((logState front).next item)
          ((((logState front).write item).zipIdx (logState front).length).foldl
            (Coverage.step asOf) (coverageAfter asOf front)) := by
      intro event hwrite hnative hnamed
      rw [hwrite] at hitem ⊢
      rw [List.zipIdx_cons, List.zipIdx_nil, List.foldl_cons, List.foldl_nil]
      obtain ⟨hturns, hcovered, hcurrent, hpending⟩ := step_event_pending
        (logState front).length (hitem event (List.mem_singleton_self _)) hnative hfront.pending
      refine ⟨?_, hpending, ?_, ?_⟩
      · exact hcurrent.trans (by rw [hnamed, hfront.named])
      · rw [hturns]
        exact hfront.through
      · rw [hcovered, next_entries]
        intro index hmem
        obtain ⟨entry, hentry, haligned⟩ := hfront.covered index hmem
        exact ⟨entry, List.mem_append_left _ hentry, haligned⟩
    cases item with
    | event event =>
      refine hother rfl ?_ rfl
      rintro request rfl
      cases hwf.others _ hlast
    | request request =>
      cases hrecord : request.record with
      | some record =>
        exact plainCover_native hitem hrecord (htotals request record hlast hrecord) hfront
      | none => exact hother (write_counter _ hrecord) (fun _ => by simp) rfl

/-- Without turn totals only the mirrors of aligned records are covered. -/
theorem covered_aligned {asOf : Option DateTime} (hwf : WellFormed log) (hplain : Plain log)
    (hvisible : ∀ event ∈ writtenEvents log, eventIsVisible asOf event) {entry : Entry}
    (hentry : entry ∈ (logState log).entries)
    (hcovered : entry.index ∈ requestCoveredCounters (writtenEvents log) asOf) :
    entry.isAligned := by
  have h := plainCover_log hwf hplain.totals hvisible
  rcases List.mem_append.1 hcovered with hmirror | hproved
  · obtain ⟨native, hnative, haligned, hindex⟩ := h.covered _ hmirror
    obtain rfl := entry_unique hnative hentry hindex
    exact haligned
  · obtain ⟨counter, hcounter, -⟩ := List.mem_map.1 hproved
    obtain ⟨requests, hget, hcover⟩ := (Option.any_eq_true _ _).1 (List.mem_filter.1 hcounter).2
    rw [h.through _ _ hget] at hcover
    simp at hcover

/-! ## Tokens of a replay -/

def Entry.isTwice (entry : Entry) : Bool := entry.request.record.isSome && !entry.isAligned

/-- The tokens of the requests, those of misaligned records twice. -/
def entryTokens (entries : List Entry) : Nat :=
  (entries.map Entry.tokens).sum + ((entries.filter Entry.isTwice).map Entry.tokens).sum

theorem entryTokens_append (entries : List Entry) (entry : Entry) :
    entryTokens (entries ++ [entry]) =
      entryTokens entries + entry.tokens + if entry.isTwice then entry.tokens else 0 := by
  unfold entryTokens
  rw [List.map_append, List.sum_append, List.filter_append, List.map_append, List.sum_append]
  split
  · rename_i h
    rw [List.filter_cons_of_pos h]
    simp only [List.map_cons, List.map_nil, List.filter_nil, List.sum_cons, List.sum_nil]
    omega
  · rename_i h
    rw [List.filter_cons_of_neg h]
    simp only [List.map_cons, List.map_nil, List.filter_nil, List.sum_cons, List.sum_nil]
    omega

def tokensOf (calls : List UsageCall) : Nat :=
  (calls.map fun call => call.tokens.totalTokens).sum

theorem tokensOf_append (calls : List UsageCall) (call : UsageCall) :
    tokensOf (calls ++ [call]) = tokensOf calls + call.tokens.totalTokens := by
  unfold tokensOf
  rw [List.map_append, List.sum_append, List.map_singleton, List.sum_singleton]

theorem Counted.tokens {before after : Replay} {total usage : TokenUsage}
    (h : Counted before after total usage) :
    tokensOf after.dataset.calls = tokensOf before.dataset.calls + usage.totalTokens := by
  rcases h.calls with ⟨hcalls, hzero⟩ | ⟨call, hcalls, -, hsame⟩
  · rw [hcalls, hzero, Nat.add_zero]
  · rw [hcalls, tokensOf_append, hsame.2.2.2.2.2.2]

structure TokenInv (state : LogState) (replay : Replay) : Prop where
  baseline : BaselineIs replay.thread.previousCumulative state.usages
  tokens : entryTokens state.entries ≤ tokensOf replay.dataset.calls

section counted

variable {env : ReplayEnv} {path : Path} {threadId : String} {asOf : Option DateTime}
  (hvisible : ∀ event ∈ writtenEvents log, eventIsVisible asOf event) (hwf : WellFormed log)
  (hplain : Plain log)
include hvisible hwf hplain

/-- **A misaligned request** adds its tokens twice. -/
theorem tokens_counted {start : Replay} (hstart : TokenInv .start start) :
    TokenInv (logState log)
      ((writtenEvents log).zipIdx.foldl
        (replayEvent env path threadId asOf (requestCoveredCounters (writtenEvents log) asOf))
        start) := by
  refine replay_induction hvisible hstart (fun _ _ updatedAt h => ⟨h.baseline, h.tokens⟩) ?_ ?_ ?_
  · intro front back event replay hlog h
    subst hlog
    obtain ⟨-, hbaseline, hcalls⟩ := applyVisible_other env path threadId
      (requestCoveredCounters (writtenEvents (front ++ .event event :: back)) asOf) replay
      (logState front).length
      (hwf.others event (List.mem_append_right _ (List.mem_cons_self ..)))
    exact ⟨hbaseline ▸ h.baseline, hcalls ▸ h.tokens⟩
  · intro front back request replay hlog hrecord h
    subst hlog
    have hmem : (logState front).length ∉ requestCoveredCounters
        (writtenEvents (front ++ .request request :: back)) asOf := by
      intro hmem
      rw [← entryOf_counter_index _ hrecord] at hmem
      have haligned := covered_aligned hwf hplain hvisible (entryOf_mem front back request) hmem
      simp [Entry.isAligned, LogState.entryOf, hrecord] at haligned
    have hcounted := applyVisible_counted env path threadId _ replay hwf.upTo hmem h.baseline
    refine ⟨.inr ?_, ?_⟩
    · rw [usages_request]
      exact hcounted.baseline
    · rw [hcounted.tokens, next_entries, entryTokens_append,
        if_neg (by simp [Entry.isTwice, LogState.entryOf, hrecord])]
      exact Nat.add_le_add_right h.tokens _
  · intro front back request record replay updatedAt hlog hrecord h
    subst hlog
    have hentry := entryOf_mem front back request
    generalize hcover : requestCoveredCounters
      (writtenEvents (front ++ .request request :: back)) asOf = covered
    let requested := (applyVisible env path threadId covered replay
      (.requestUsage (requestEvent request.usage record), (logState front).length)).touch updatedAt
    have hrequested : tokensOf requested.dataset.calls =
        tokensOf replay.dataset.calls + request.usage.totalTokens := tokensOf_append _ _
    by_cases hmem : (logState front).length + 1 ∈ covered
    · have haligned : ((logState front).entryOf request).isAligned := by
        refine covered_aligned hwf hplain hvisible hentry ?_
        rw [entryOf_native_index _ hrecord, hcover]
        exact hmem
      rw [applyVisible_covered env path threadId covered hmem]
      refine ⟨.inr ?_, ?_⟩
      · rw [usages_request]
        rfl
      · show _ ≤ tokensOf (Replay.recordRateLimits requested _ _).dataset.calls
        rw [recordRateLimits_calls, hrequested, next_entries, entryTokens_append,
          if_neg (by simp [Entry.isTwice, haligned])]
        exact Nat.add_le_add_right h.tokens _
    · have hcounted := applyVisible_counted env path threadId covered requested hwf.upTo hmem
        h.baseline
      refine ⟨.inr ?_, ?_⟩
      · rw [usages_request]
        exact hcounted.baseline
      · rw [hcounted.tokens, hrequested, next_entries, entryTokens_append]
        have := h.tokens
        have htokens : ((logState front).entryOf request).tokens = request.usage.totalTokens := rfl
        split <;> omega

end counted

/-! ## Sums over the turns -/

theorem sum_totalTokens (usages : List TokenUsage) : (TokenUsage.sum usages).totalTokens =
    min (usages.map TokenUsage.totalTokens).sum (2 ^ 64 - 1) := by
  induction usages using List.reverseRecOn with
  | nil => rfl
  | append_singleton usages usage ih =>
    rw [sum_append_singleton, List.map_append, List.sum_append, List.map_singleton,
      List.sum_singleton]
    show Fallible.saturatingAdd 64 _ _ = _
    rw [ih]
    unfold Fallible.saturatingAdd
    omega

theorem sum_by_key {α κ : Type} [DecidableEq κ] (key : α → κ) (value : α → Nat) (xs : List α)
    (keys : Finset κ) (hkeys : ∀ x ∈ xs, key x ∈ keys) :
    (xs.map value).sum = ∑ k ∈ keys, ((xs.filter fun x => key x = k).map value).sum := by
  induction xs with
  | nil => simp
  | cons x xs ih =>
    have hsplit : ∀ k, (((x :: xs).filter fun x => key x = k).map value).sum =
        (if key x = k then value x else 0) + ((xs.filter fun x => key x = k).map value).sum := by
      intro k
      by_cases h : key x = k
      · rw [if_pos h, List.filter_cons_of_pos (by simpa using h), List.map_cons, List.sum_cons]
      · rw [if_neg h, List.filter_cons_of_neg (by simpa using h), Nat.zero_add]
    rw [List.map_cons, List.sum_cons, ih fun y hy => hkeys y (List.mem_cons_of_mem _ hy)]
    simp only [hsplit, Finset.sum_add_distrib, Finset.sum_ite_eq]
    rw [if_pos (hkeys x (List.mem_cons_self ..))]

/-! ## Counted once -/

/-- The calls of every turn add up to the requests of the turn. -/
def CountedOnce (log : List LogItem) (calls : List UsageCall) : Prop :=
  ∀ turn, TokenUsage.sum (callTokens calls turn) = TokenUsage.sum ((logState log).usagesOf turn)

theorem CountedOnce.tokens {calls : List UsageCall} (hplain : Plain log)
    (h : CountedOnce log calls) :
    tokensOf calls = ((logState log).entries.map Entry.tokens).sum := by
  have hturn : ∀ turn : Option String,
      ((calls.filter fun call => call.turnId = turn).map fun call => call.tokens.totalTokens).sum =
        (((logState log).entries.filter fun entry => entry.turn = turn).map Entry.tokens).sum := by
    intro turn
    have hsum := congrArg TokenUsage.totalTokens (h turn)
    rw [sum_totalTokens, sum_totalTokens] at hsum
    unfold callTokens LogState.usagesOf at hsum
    rw [List.map_map, List.map_map] at hsum
    have hle : (((logState log).entries.filter fun entry => entry.turn = turn).map
        Entry.tokens).sum ≤ ((logState log).usages.map TokenUsage.totalTokens).sum := by
      unfold LogState.usages
      rw [List.map_map]
      exact List.Sublist.sum_le_sum (List.filter_sublist.map _) fun _ _ => Nat.zero_le _
    have hfits := hplain.fits
    have hentries : (((logState log).entries.filter fun entry => entry.turn = turn).map
        (TokenUsage.totalTokens ∘ fun entry => entry.request.usage)).sum =
        (((logState log).entries.filter fun entry => entry.turn = turn).map Entry.tokens).sum := rfl
    have hcalls : ((calls.filter fun call => call.turnId = turn).map
        (TokenUsage.totalTokens ∘ UsageCall.tokens)).sum =
        ((calls.filter fun call => call.turnId = turn).map
          fun call => call.tokens.totalTokens).sum := rfl
    omega
  let keys := (calls.map UsageCall.turnId).toFinset ∪
    ((logState log).entries.map Entry.turn).toFinset
  calc tokensOf calls
      = ∑ turn ∈ keys, ((calls.filter fun call => call.turnId = turn).map
          fun call => call.tokens.totalTokens).sum :=
        sum_by_key UsageCall.turnId _ calls keys fun _ hcall =>
          Finset.mem_union_left _ (List.mem_toFinset.2 (List.mem_map_of_mem hcall))
    _ = ∑ turn ∈ keys, (((logState log).entries.filter fun entry => entry.turn = turn).map
          Entry.tokens).sum := Finset.sum_congr rfl fun turn _ => hturn turn
    _ = ((logState log).entries.map Entry.tokens).sum :=
        (sum_by_key Entry.turn _ (logState log).entries keys fun _ hentry =>
          Finset.mem_union_right _ (List.mem_toFinset.2 (List.mem_map_of_mem hentry))).symm

/-- A log whose requests were not counted twice is aligned. -/
theorem aligned_of_tokens (hplain : Plain log)
    (h : entryTokens (logState log).entries ≤ ((logState log).entries.map Entry.tokens).sum) :
    Aligned log := by
  intro before request after hlog
  cases hrecord : request.record with
  | none =>
    refine .inr fun turn _ item hitem => ?_
    cases item with
    | event event => rfl
    | request later =>
      have hmem : .request later ∈ log := hlog ▸
        List.mem_append_right _ (List.mem_cons_of_mem _ hitem)
      cases hlater : later.record with
      | none => simp [LogItem.statesTotalOf, hlater]
      | some record => simp [LogItem.statesTotalOf, hlater, hplain.totals later record hmem hlater]
  | some record =>
    by_contra hnamed
    have hentry := entryOf_mem before after request
    rw [← hlog] at hentry
    have htwice : ((logState before).entryOf request).isTwice := by
      have hne : (logState before).named ≠ some record.turnId := hnamed
      simp [Entry.isTwice, Entry.isAligned, LogState.entryOf, hrecord, hne]
    have hzero : (((logState log).entries.filter Entry.isTwice).map Entry.tokens).sum = 0 := by
      unfold entryTokens at h
      omega
    have hmem : ((logState before).entryOf request).tokens ∈
        ((logState log).entries.filter Entry.isTwice).map Entry.tokens :=
      List.mem_map_of_mem (List.mem_filter.2 ⟨hentry, htwice⟩)
    have hle := List.single_le_sum (fun _ _ => Nat.zero_le _) _ hmem
    have htokens := hplain.tokens request (hlog ▸ List.mem_append_right _ (List.mem_cons_self ..))
    have : ((logState before).entryOf request).tokens = request.usage.totalTokens := rfl
    omega

section file

variable {env : ReplayEnv} {path : Path} {parsed : ParsedFile} {config : CollectConfig}
  {threads : Map ThreadBuilder} {threadId : String} {asOf : Option DateTime} {incomplete : Bool}

theorem replayRolloutFile_calls (howner : parsed.ownerThreadId = some threadId)
    (hevents : parsed.events = writtenEvents log) (hnew : threads[threadId]? = none)
    (hvisible : ∀ event ∈ writtenEvents log, eventIsVisible asOf event) :
    (replayRolloutFile env path parsed config threads default asOf incomplete).2.calls =
      ((writtenEvents log).zipIdx.foldl
        (replayEvent env path threadId asOf (requestCoveredCounters (writtenEvents log) asOf))
        ⟨startFile path parsed config asOf (.new threadId incomplete), default⟩).dataset.calls := by
  unfold replayRolloutFile
  rw [howner]
  dsimp only
  by_cases hany : parsed.events.any (eventIsVisible asOf)
  · rw [if_pos hany, hnew]
    unfold replayThread
    rw [hevents]
    rfl
  · rw [if_neg hany]
    have hnil : writtenEvents log = [] := by
      cases hlog : writtenEvents log with
      | nil => rfl
      | cons event rest =>
        refine (hany ?_).elim
        rw [hevents, List.any_eq_true]
        exact ⟨event, hlog ▸ List.mem_cons_self .., hvisible event (hlog ▸ List.mem_cons_self ..)⟩
    rw [hnil]
    rfl

theorem startFile_new : Tracks (startFile path parsed config asOf (.new threadId incomplete))
      LogState.start.turns ∧
    (startFile path parsed config asOf (.new threadId incomplete)).previousCumulative = none := by
  have hnew : Tracks (.new threadId incomplete) LogState.start.turns := by
    refine ⟨rfl, rfl, fun turn => ?_⟩
    unfold ThreadBuilder.statusOf
    simp [ThreadBuilder.new, TurnBuilder.new, TurnStatus.finished, LogState.start]
  unfold startFile markFileSeen
  dsimp only
  split
  · split
    · exact ⟨hnew.same ⟨rfl, rfl, fun _ => rfl⟩, rfl⟩
    · exact ⟨hnew.same ⟨rfl, rfl, fun _ => rfl⟩, rfl⟩
  · exact ⟨hnew, rfl⟩

/-- **Requests counted once.** The replay of a well-formed log counts every request once when each
request is written in the turn named last; among the logs whose records state no turn totals, only
then. -/
theorem requests_counted_once (howner : parsed.ownerThreadId = some threadId)
    (hevents : parsed.events = writtenEvents log) (hnew : threads[threadId]? = none)
    (hvisible : ∀ event ∈ writtenEvents log, eventIsVisible asOf event) (hwf : WellFormed log) :
    (Aligned log → CountedOnce log
      (replayRolloutFile env path parsed config threads default asOf incomplete).2.calls) ∧
    (Plain log → CountedOnce log
      (replayRolloutFile env path parsed config threads default asOf incomplete).2.calls →
      Aligned log) := by
  obtain ⟨htracks, hprevious⟩ : Tracks (startFile path parsed config asOf _) _ ∧ _ :=
    startFile_new
  rw [replayRolloutFile_calls howner hevents hnew hvisible]
  constructor
  · intro haligned
    have hstart : ReplayInv .start
        ⟨startFile path parsed config asOf (.new threadId incomplete), default⟩ :=
      ⟨htracks, .inl ⟨hprevious, rfl⟩, fun _ => rfl⟩
    exact (replayInv_log hvisible hwf haligned hstart).calls
  · intro hplain hcounted
    have hstart : TokenInv .start
        ⟨startFile path parsed config asOf (.new threadId incomplete), default⟩ :=
      ⟨.inl ⟨hprevious, rfl⟩, Nat.zero_le _⟩
    refine aligned_of_tokens hplain ?_
    rw [← hcounted.tokens hplain]
    exact (tokens_counted hvisible hwf hplain hstart).tokens

end file

/-! ## Two logs -/

namespace Sample

def env : ReplayEnv := ⟨fun bytes => bytes.take 4, fun _ => none⟩

def config : CollectConfig := ⟨["", "home", "codex"], false, minutes 5⟩

def path : Path := ["", "home", "codex", "sessions", "rollout.jsonl"]

def file (log : List LogItem) : ParsedFile where
  ownerThreadId := some "thread"
  activityUpdatedAt := some (seconds 9)
  events := writtenEvents log
  parsedLines := (writtenEvents log).length
  skippedLines := 0
  unreadableFiles := 0
  warnings := []
  suppressedWarnings := 0
  complete := true
  replayStartedAt := some (seconds 0)
  replayUpdatedAt := some (seconds 9)
  replayTimestampsComplete := true

def calls (log : List LogItem) : List UsageCall :=
  (replayRolloutFile env path (file log) config ∅ default none false).2.calls

def usage (input output : Nat) : TokenUsage := ⟨input, 0, 0, output, 0, 0, input + output⟩

/-- A request as a counter, after a native record of the turn when there is one. -/
def request (at' : Int) (usage : TokenUsage) (turn : Option String) : LogItem :=
  .request {
    usage := usage
    record := turn.map fun turn => ⟨seconds at', turn, "response-" ++ toString at', none⟩
    timestamp := seconds at'
    lineNumber := at'.toNat
    rateLimits := none }

/-- Two turns, one after the other, in both forms. -/
def mixedLog : List LogItem :=
  [.event (.taskStarted (seconds 0) "one" none), request 1 (usage 100 10) (some "one"),
    request 2 (usage 50 5) none, .event (.taskComplete (seconds 3) "one" none none),
    .event (.taskStarted (seconds 4) "two" none), request 5 (usage 70 7) none,
    request 6 (usage 30 3) (some "two")]

/-- A turn inside another one, and a native record of the outer turn after it. -/
def nestedLog : List LogItem :=
  [.event (.taskStarted (seconds 0) "outer" none), .event (.taskStarted (seconds 1) "inner" none),
    .event (.taskComplete (seconds 2) "inner" none none), request 3 (usage 100 10) (some "outer")]

theorem plain_of_mem (log : List LogItem)
    (h : log.all fun item => match item with
      | .event event => !carriesUsage event
      | .request request => request.usage.hasValidBreakdown &&
        request.record.all (fun record => record.turnUsage.isNone) &&
        request.usage.totalTokens ≠ 0)
    (hfits : ((logState log).usages.map TokenUsage.totalTokens).sum < 2 ^ 64 - 1) :
    WellFormed log ∧ Plain log := by
  rw [List.all_eq_true] at h
  have htotals : ∀ request record, .request request ∈ log → request.record = some record →
      record.turnUsage = none := by
    intro request record hmem hrecord
    have := h _ hmem
    simp only [hrecord, Option.all_some, Bool.and_eq_true, Option.isNone_iff_eq_none] at this
    exact this.1.2
  refine ⟨⟨fun event hmem => ?_, fun request hmem => ?_, by omega, ?_⟩, htotals, ?_, hfits⟩
  · simpa using h _ hmem
  · have := h _ hmem
    simp only [Bool.and_eq_true, decide_eq_true_eq] at this
    exact this.1.1
  · rintro before request record total after rfl hrecord htotal
    rw [htotals request record (List.mem_append_right _ (List.mem_cons_self ..)) hrecord] at htotal
    cases htotal
  · intro request hmem
    have := h _ hmem
    simp only [Bool.and_eq_true, decide_eq_true_eq] at this
    exact this.2

end Sample

theorem requests_counted_once_sample :
    WellFormed Sample.mixedLog ∧ Aligned Sample.mixedLog ∧
      CountedOnce Sample.mixedLog (Sample.calls Sample.mixedLog) := by
  obtain ⟨hwf, hplain⟩ := Sample.plain_of_mem Sample.mixedLog (by decide) (by decide)
  have haligned := aligned_of_tokens hplain (by decide)
  exact ⟨hwf, haligned,
    (requests_counted_once rfl rfl (by simp) (fun _ _ => rfl) hwf).1 haligned⟩

/-- **The request of an outer turn** after a nested turn is counted twice. -/
theorem nested_turn_counted_twice :
    WellFormed Sample.nestedLog ∧
      ¬ CountedOnce Sample.nestedLog (Sample.calls Sample.nestedLog) := by
  refine ⟨(Sample.plain_of_mem Sample.nestedLog (by decide) (by decide)).1, fun h => ?_⟩
  have houter := congrArg TokenUsage.totalTokens (h (some "outer"))
  exact absurd houter (by decide +kernel)

end Rollout
