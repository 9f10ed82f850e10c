import UsageMonit.Rollout.Proof.RequestLog

/-!
# Which counters native records cover

On an aligned log, the counter after a native record is always covered, and a counter without a
record is covered only when it adds nothing: a turn total that equals the sum of the turn's
native records leaves no tokens for the turn's other requests.

* `CoverInv`: what the fold over the events knows after a part of the log
* `native_covered`, `counter_covered`: the two facts about the whole log
-/

namespace Rollout

open Time Usage

/-! ## Native records of a turn -/

variable {asOf : Option DateTime} {log : List LogItem}

/-- A usage of at most `bound` tokens. -/
def WithinTokens (usage : TokenUsage) (bound : Nat) : Prop :=
  usage.hasValidBreakdown ∧ usage.totalTokens ≤ bound

section record

variable (state : TurnRequests) (index : Nat) (request : RequestUsageEvent)

theorem record_sum : (state.record index request).sum =
    (state.insert request.responseId request.usage).sum := by
  unfold TurnRequests.record
  cases request.turnUsage with
  | none => rfl
  | some total =>
    dsimp only
    split <;> rfl

theorem record_within {bound : Nat} (hsum : WithinTokens state.sum bound)
    (hvalid : request.usage.hasValidBreakdown)
    (hfits : bound + request.usage.totalTokens < 2 ^ 64) :
    WithinTokens (state.record index request).sum (bound + request.usage.totalTokens) := by
  obtain ⟨hsumvalid, hbound⟩ := hsum
  rw [record_sum, TurnRequests.insert]
  split
  · exact ⟨hsumvalid, by dsimp only; omega⟩
  · refine ⟨TokenUsage.valid_addAssign hsumvalid hvalid (by omega), ?_⟩
    rw [TokenUsage.addAssign_of_valid hsumvalid hvalid (by omega)]
    exact Nat.add_le_add_right hbound _

/-- Coverage moves forward only to a record whose turn total is the sum of the records. -/
theorem record_coveredThrough {through : Nat}
    (h : (state.record index request).coveredThrough = some through) :
    state.coveredThrough = some through ∨
      through = index ∧ request.turnUsage = some (state.record index request).sum := by
  rw [record_sum]
  unfold TurnRequests.record at h
  have hinsert : (state.insert request.responseId request.usage).coveredThrough =
      state.coveredThrough := by
    unfold TurnRequests.insert
    split <;> rfl
  cases htotal : request.turnUsage with
  | none =>
    rw [htotal] at h
    exact .inl (hinsert ▸ h)
  | some total =>
    rw [htotal] at h
    dsimp only at h
    split at h
    · rename_i hsame
      simp only [Bool.and_eq_true, decide_eq_true_eq] at hsame
      exact .inr ⟨(Option.some.inj h).symm, congrArg some hsame.1⟩
    · exact .inl (hinsert ▸ h)

end record

/-! ## Tokens of the two kinds of requests -/

def Entry.tokens (entry : Entry) : Nat := entry.request.usage.totalTokens

def Entry.isNativeOf (turn : String) (entry : Entry) : Bool :=
  entry.turn = some turn && entry.request.record.isSome

/-- The tokens of the native records of a turn. -/
def nativeTokens (entries : List Entry) (turn : String) : Nat :=
  ((entries.filter (Entry.isNativeOf turn)).map Entry.tokens).sum

theorem nativeTokens_append (a b : List Entry) (turn : String) :
    nativeTokens (a ++ b) turn = nativeTokens a turn + nativeTokens b turn := by
  unfold nativeTokens
  rw [List.filter_append, List.map_append, List.sum_append]

theorem usagesOf_tokens (state : LogState) (turn : String) :
    ((state.usagesOf (some turn)).map TokenUsage.totalTokens).sum =
      ((state.entries.filter fun entry => entry.turn = some turn).map Entry.tokens).sum := by
  unfold LogState.usagesOf
  rw [List.map_map]
  rfl

/-- A counter of a turn has no tokens once the native records account for all of the turn's. -/
theorem counter_tokens_zero {entries : List Entry} {turn : String}
    (h : ((entries.filter fun entry => entry.turn = some turn).map Entry.tokens).sum ≤
      nativeTokens entries turn) {entry : Entry} (hmem : entry ∈ entries)
    (hturn : entry.turn = some turn) (hrecord : entry.request.record = none) :
    entry.tokens = 0 := by
  have hsplit : ∀ l : List Entry, entry ∈ l →
      nativeTokens l turn + entry.tokens ≤
        ((l.filter fun entry => entry.turn = some turn).map Entry.tokens).sum := by
    have hle : ∀ l : List Entry, nativeTokens l turn ≤
        ((l.filter fun entry => entry.turn = some turn).map Entry.tokens).sum := by
      intro l
      refine List.Sublist.sum_le_sum (List.Sublist.map _ ?_) fun _ _ => Nat.zero_le _
      refine List.monotone_filter_right l fun e he => ?_
      exact (Bool.and_eq_true _ _ ▸ he).1
    intro l hl
    obtain ⟨front, back, rfl⟩ := List.append_of_mem hl
    rw [nativeTokens_append, List.filter_append, List.map_append, List.sum_append]
    have hfront := hle front
    have hback := hle back
    have hnative : nativeTokens (entry :: back) turn = nativeTokens back turn := by
      unfold nativeTokens
      rw [List.filter_cons_of_neg (by simp [Entry.isNativeOf, hrecord])]
    rw [hnative, List.filter_cons_of_pos (by simp [hturn]), List.map_cons, List.sum_cons]
    omega
  have := hsplit entries hmem
  omega

/-! ## The invariant of the fold -/

def coverageAfter (asOf : Option DateTime) (log : List LogItem) : Coverage :=
  (writtenEvents log).zipIdx.foldl (Coverage.step asOf) .new

theorem coverageAfter_append_singleton (asOf : Option DateTime) (log : List LogItem)
    (item : LogItem) : coverageAfter asOf (log ++ [item]) =
      (((logState log).write item).zipIdx (logState log).length).foldl (Coverage.step asOf)
        (coverageAfter asOf log) := by
  unfold coverageAfter
  rw [writtenEvents_append_singleton, List.zipIdx_append, List.foldl_append, Nat.zero_add,
    writtenEvents_length]

structure CoverInv (state : LogState) (coverage : Coverage) : Prop where
  named : coverage.currentTurn = state.named
  pending : coverage.pendingRequest = none
  mirrors : ∀ entry ∈ state.entries, entry.request.record.isSome → entry.index ∈ coverage.covered
  onlyMirrors : ∀ index ∈ coverage.covered,
    ∃ entry ∈ state.entries, entry.request.record.isSome ∧ entry.index = index
  counted : ∀ counter ∈ coverage.counters, counter.1 < state.length
  labels : ∀ counter ∈ coverage.counters,
    ∀ entry ∈ state.entries, entry.index = counter.1 → entry.named = some counter.2
  sums : ∀ turn requests, coverage.turns[turn]? = some requests →
    WithinTokens requests.sum (nativeTokens state.entries turn)
  /-- A counter in a covered part of its turn adds nothing. -/
  through : ∀ turn requests through, coverage.turns[turn]? = some requests →
    requests.coveredThrough = some through →
    through < state.length ∧ ∀ entry ∈ state.entries, entry.request.record = none →
      entry.named = some turn → entry.index ≤ through → entry.tokens = 0

theorem coverInv_start : CoverInv .start .new where
  named := rfl
  pending := rfl
  mirrors _ h := nomatch h
  onlyMirrors _ h := nomatch h
  counted _ h := nomatch h
  labels _ h := nomatch h
  sums turn requests h := by simp [Coverage.new] at h
  through turn requests through h := by simp [Coverage.new] at h

/-- What an event other than a native record does when no record is pending. -/
structure NamesOnly (event : ParsedEvent) (index : Nat) (before after : Coverage) : Prop where
  turns : after.turns = before.turns
  covered : after.covered = before.covered
  pending : after.pendingRequest = none
  named : after.currentTurn = (namedBy event).or before.currentTurn
  counters : ∀ counter ∈ after.counters, counter ∈ before.counters ∨
    counter.1 = index ∧ before.currentTurn = some counter.2

theorem step_event {event : ParsedEvent} (index : Nat) {coverage : Coverage}
    (hvisible : eventIsVisible asOf event) (hother : ∀ request, event ≠ .requestUsage request)
    (hpending : coverage.pendingRequest = none) :
    NamesOnly event index coverage (coverage.step asOf (event, index)) := by
  have hkeep : ∀ (named : namedBy event = none), NamesOnly event index coverage coverage :=
    fun hnamed => ⟨rfl, rfl, hpending, by rw [hnamed]; rfl, fun _ h => .inl h⟩
  simp only [Coverage.step, hvisible, Bool.not_true, Bool.false_eq_true, if_false]
  cases event with
  | requestUsage request => exact (hother request rfl).elim
  | taskStarted timestamp turn startedAt => exact ⟨rfl, rfl, rfl, rfl, fun _ h => .inl h⟩
  | turnContext timestamp payload =>
    dsimp only
    cases hturn : stringFieldIn payload ["turn_id", "turnId"] with
    | none => exact hkeep hturn
    | some turn =>
      refine ⟨rfl, rfl, ?_, by simp only [namedBy, hturn]; rfl, fun _ h => .inl h⟩
      simp [hpending]
  | tokenCount counter =>
    cases hcurrent : coverage.currentTurn with
    | none => exact hkeep rfl
    | some turn =>
      refine ⟨rfl, ?_, rfl, hcurrent.symm, ?_⟩
      · simp [hpending, mirrorsPending]
      · intro counter hcounter
        rcases List.mem_append.1 hcounter with h | h
        · exact .inl h
        · obtain rfl := List.mem_singleton.1 h
          exact .inr ⟨rfl, hcurrent⟩
  | sessionMeta timestamp payload => exact hkeep rfl
  | foreignCounterBaseline timestamp totalUsage => exact hkeep rfl
  | foreignThreadSettingsBaseline timestamp model serviceTier => exact hkeep rfl
  | userMessage timestamp preview turnId source => exact hkeep rfl
  | agentCall requestedAt callId parentTurnId kind => exact hkeep rfl
  | agentActivity recordedAt occurredAt callId childThreadId kind => exact hkeep rfl
  | threadSettingsApplied timestamp serviceTier => exact hkeep rfl
  | activity timestamp => exact hkeep rfl
  | taskComplete timestamp turnId completedAt durationMs => exact hkeep rfl
  | turnAborted timestamp turnId completedAt durationMs failed => exact hkeep rfl

theorem coverInv_event {event : ParsedEvent} (hvisible : eventIsVisible asOf event)
    (hother : carriesUsage event = false) (h : CoverInv (logState log) (coverageAfter asOf log)) :
    CoverInv ((logState log).next (.event event))
      ((coverageAfter asOf log).step asOf (event, (logState log).length)) := by
  have hnative : ∀ request, event ≠ .requestUsage request := by
    rintro request rfl
    cases hother
  have hstep := step_event (logState log).length hvisible hnative h.pending
  constructor
  case named => rw [hstep.named, h.named]; rfl
  case pending => exact hstep.pending
  case mirrors => rw [hstep.covered]; exact h.mirrors
  case onlyMirrors => rw [hstep.covered]; exact h.onlyMirrors
  case counted =>
    intro counter hcounter
    show _ < _ + 1
    rcases hstep.counters counter hcounter with hold | ⟨hnew, -⟩
    · exact Nat.lt_succ_of_lt (h.counted counter hold)
    · omega
  case labels =>
    intro counter hcounter entry hentry hindex
    rcases hstep.counters counter hcounter with hold | ⟨hnew, -⟩
    · exact h.labels counter hold entry hentry hindex
    · have := entry_index_lt hentry
      omega
  case sums => rw [hstep.turns]; exact h.sums
  case through =>
    rw [hstep.turns]
    intro turn requests through hturn hthrough
    obtain ⟨hlt, hzero⟩ := h.through turn requests through hturn hthrough
    exact ⟨Nat.lt_succ_of_lt hlt, hzero⟩

theorem coverInv_counter {request : LoggedRequest}
    (hvisible : eventIsVisible asOf (.tokenCount (counterEvent (logState log).usages request)))
    (hrecord : request.record = none) (h : CoverInv (logState log) (coverageAfter asOf log)) :
    CoverInv ((logState log).next (.request request))
      ((coverageAfter asOf log).step asOf
        (.tokenCount (counterEvent (logState log).usages request), (logState log).length)) := by
  have hentries : ((logState log).next (.request request)).entries =
      (logState log).entries ++ [(logState log).entryOf request] := rfl
  have hlength : ((logState log).next (.request request)).length = (logState log).length + 1 := by
    rw [next_length, write_counter _ hrecord]
    rfl
  have hindex : ((logState log).entryOf request).index = (logState log).length := by
    unfold LogState.entryOf
    rw [hrecord]
    rfl
  have hnative : ∀ turn, nativeTokens [(logState log).entryOf request] turn = 0 := by
    intro turn
    unfold nativeTokens
    rw [List.filter_cons_of_neg (by simp [Entry.isNativeOf, LogState.entryOf, hrecord])]
    rfl
  have hstep := step_event (logState log).length hvisible (fun _ heq => nomatch heq)
    h.pending
  constructor
  case named => rw [hstep.named, h.named]; rfl
  case pending => exact hstep.pending
  case mirrors =>
    intro entry hentry hsome
    rw [hstep.covered]
    rcases List.mem_append.1 (hentries ▸ hentry) with hold | hnew
    · exact h.mirrors entry hold hsome
    · obtain rfl := List.mem_singleton.1 hnew
      simp [LogState.entryOf, hrecord] at hsome
  case onlyMirrors =>
    intro index hmem
    rw [hstep.covered] at hmem
    obtain ⟨entry, hentry, hsome⟩ := h.onlyMirrors index hmem
    exact ⟨entry, hentries ▸ List.mem_append_left _ hentry, hsome⟩
  case counted =>
    intro counter hcounter
    rw [hlength]
    rcases hstep.counters counter hcounter with hold | ⟨hnew, -⟩
    · exact Nat.lt_succ_of_lt (h.counted counter hold)
    · omega
  case labels =>
    intro counter hcounter entry hentry heq
    rcases hstep.counters counter hcounter with hold | ⟨hnew, hnamed⟩ <;>
      rcases List.mem_append.1 (hentries ▸ hentry) with holdEntry | hnewEntry
    · exact h.labels counter hold entry holdEntry heq
    · obtain rfl := List.mem_singleton.1 hnewEntry
      have := h.counted counter hold
      omega
    · have := entry_index_lt holdEntry
      omega
    · obtain rfl := List.mem_singleton.1 hnewEntry
      exact h.named.symm.trans hnamed
  case sums =>
    rw [hstep.turns, hentries]
    intro turn requests hturn
    rw [nativeTokens_append, hnative]
    exact h.sums turn requests hturn
  case through =>
    rw [hstep.turns]
    intro turn requests through hturn hthrough
    obtain ⟨hlt, hzero⟩ := h.through turn requests through hturn hthrough
    refine ⟨by rw [hlength]; omega, fun entry hentry hnone hnamed hle => ?_⟩
    rcases List.mem_append.1 (hentries ▸ hentry) with hold | hnew
    · exact hzero entry hold hnone hnamed hle
    · obtain rfl := List.mem_singleton.1 hnew
      omega

theorem step_native {request : RequestUsageEvent} {counter : TokenCountEvent} (index : Nat)
    {coverage : Coverage} (hrequest : eventIsVisible asOf (.requestUsage request))
    (hcounter : eventIsVisible asOf (.tokenCount counter))
    (hcurrent : coverage.currentTurn = some request.turnId)
    (hmirror : mirrorsPending (some (request.turnId, request.usage)) request.turnId counter) :
    (coverage.step asOf (.requestUsage request, index)).step asOf (.tokenCount counter, index + 1) =
      { coverage with
        turns := coverage.turns.insert request.turnId
          ((coverage.turns[request.turnId]?.getD .new).record index request)
        counters := coverage.counters ++ [(index + 1, request.turnId)]
        pendingRequest := none
        covered := coverage.covered ++ [index + 1] } := by
  simp only [Coverage.step, hrequest, hcounter, hcurrent, hmirror, Bool.not_true,
    Bool.false_eq_true, if_false, if_true]

theorem counter_mirrors {request : LoggedRequest} {record : NativeRecord}
    (hwf : WellFormed (log ++ [.request request])) :
    mirrorsPending (some (record.turnId, request.usage)) record.turnId
      (counterEvent (logState log).usages request) := by
  have hvalid := hwf.usage_valid
  have hfits := hwf.fits
  have husages : (logState (log ++ [.request request])).usages =
      (logState log).usages ++ [request.usage] := by
    unfold LogState.usages
    rw [logState_append_singleton, next_entries, List.map_append]
    rfl
  rw [husages] at hvalid hfits
  obtain ⟨hsum, htotal⟩ := sum_of_valid hvalid hfits
  rw [List.map_append, List.sum_append, List.map_singleton, List.sum_singleton] at htotal
  simp only [mirrorsPending, counterEvent, Option.any_some, decide_true, Bool.and_true,
    Bool.true_and, Bool.and_eq_true, decide_eq_true_eq]
  exact ⟨hsum, by omega⟩

/-- When a record's turn total is the sum of the turn's records, the counters of the turn have no
tokens of their own. -/
theorem covered_counters_empty {request : LoggedRequest} {record : NativeRecord}
    {sum : TokenUsage} (hwf : WellFormed (log ++ [.request request]))
    (haligned : Aligned (log ++ [.request request])) (hrecord : request.record = some record)
    (htotal : record.turnUsage = some sum) (hsum : sum.totalTokens ≤
      nativeTokens (logState log).entries record.turnId + request.usage.totalTokens)
    {entry : Entry} (hentry : entry ∈ (logState log).entries)
    (hnone : entry.request.record = none) (hnamed : entry.named = some record.turnId) :
    entry.tokens = 0 := by
  have hturn : entry.turn = some record.turnId := by
    obtain ⟨before, counter, after, rfl, rfl⟩ := entry_split hentry
    have hlone := haligned before counter (after ++ [.request request]) (by simp)
    have hcounter : counter.record = none := hnone
    have hcurrent : (LogState.entryOf (logState before) counter).turn =
        (logState before).turns.current := by
      unfold LogState.entryOf
      rw [hcounter]
      rfl
    rw [hcounter] at hlone
    rcases hlone with hsame | hlater
    · rw [hcurrent, ← hsame]
      exact hnamed
    · have := hlater record.turnId hnamed (.request request)
        (List.mem_append_right _ (List.mem_singleton_self _))
      simp [LogItem.statesTotalOf, hrecord, htotal] at this
  have hstated := hwf.totals log request record sum [] rfl hrecord htotal
  have hvalid : ∀ u ∈ (logState log).usagesOf (some record.turnId) ++ [request.usage],
      u.hasValidBreakdown := by
    intro u hu
    rcases List.mem_append.1 hu with hu | hu
    · exact hwf.left.usage_valid u ((usagesOf_sublist _ _).subset hu)
    · obtain rfl := List.mem_singleton.1 hu
      exact hwf.valid request (List.mem_append_right _ (List.mem_singleton_self _))
  have hfits : (((logState log).usagesOf (some record.turnId) ++ [request.usage]).map
      TokenUsage.totalTokens).sum < 2 ^ 64 := by
    refine Nat.lt_of_le_of_lt ?_ hwf.fits
    refine List.Sublist.sum_le_sum (List.Sublist.map _ ?_) fun _ _ => Nat.zero_le _
    rw [logState_append_singleton]
    unfold LogState.usages
    rw [next_entries, List.map_append]
    exact (usagesOf_sublist _ _).append (List.Sublist.refl _)
  have hcount := (sum_of_valid hvalid hfits).2
  rw [← hstated, List.map_append, List.sum_append, List.map_singleton, List.sum_singleton,
    usagesOf_tokens] at hcount
  exact counter_tokens_zero (by omega) hentry hturn hnone

theorem coverInv_native {request : LoggedRequest} {record : NativeRecord}
    (hwf : WellFormed (log ++ [.request request]))
    (haligned : Aligned (log ++ [.request request]))
    (hvisible : ∀ event ∈ (logState log).write (.request request), eventIsVisible asOf event)
    (hrecord : request.record = some record)
    (h : CoverInv (logState log) (coverageAfter asOf log)) :
    CoverInv ((logState log).next (.request request))
      ((((logState log).write (.request request)).zipIdx (logState log).length).foldl
        (Coverage.step asOf) (coverageAfter asOf log)) := by
  have hentries : ((logState log).next (.request request)).entries =
      (logState log).entries ++ [(logState log).entryOf request] := rfl
  have hlength : ((logState log).next (.request request)).length = (logState log).length + 2 := by
    rw [next_length, write_native _ hrecord]
    rfl
  have hindex : ((logState log).entryOf request).index = (logState log).length + 1 := by
    unfold LogState.entryOf
    rw [hrecord]
    rfl
  have hturn : ((logState log).entryOf request).turn = some record.turnId := by
    unfold LogState.entryOf
    rw [hrecord]
    rfl
  have hnamed : (logState log).named = some record.turnId := by
    have := haligned log request [] rfl
    rwa [hrecord] at this
  have hvalid : request.usage.hasValidBreakdown :=
    hwf.valid request (List.mem_append_right _ (List.mem_singleton_self _))
  rw [write_native _ hrecord] at hvisible ⊢
  have hstep := step_native (logState log).length (hvisible _ (List.mem_cons_self ..))
    (hvisible _ (List.mem_cons_of_mem _ (List.mem_singleton_self _))) (h.named.trans hnamed)
    (counter_mirrors hwf)
  rw [List.zipIdx_cons, List.zipIdx_cons, List.zipIdx_nil, List.foldl_cons, List.foldl_cons,
    List.foldl_nil, hstep]
  -- the tokens of the turn's native records grow by the request
  have hown : nativeTokens ((logState log).entries ++ [(logState log).entryOf request])
      record.turnId = nativeTokens (logState log).entries record.turnId +
        request.usage.totalTokens := by
    rw [nativeTokens_append]
    unfold nativeTokens
    rw [List.filter_cons_of_pos (by simp [Entry.isNativeOf, LogState.entryOf, hrecord])]
    rfl
  have hother : ∀ turn, turn ≠ record.turnId →
      nativeTokens ((logState log).entries ++ [(logState log).entryOf request]) turn =
        nativeTokens (logState log).entries turn := by
    intro turn hne
    rw [nativeTokens_append]
    unfold nativeTokens
    rw [List.filter_cons_of_neg (by simp [Entry.isNativeOf, hturn, Ne.symm hne])]
    rfl
  have hbound : nativeTokens (logState log).entries record.turnId + request.usage.totalTokens <
      2 ^ 64 := by
    refine Nat.lt_of_le_of_lt ?_ hwf.fits
    rw [← hown, logState_append_singleton]
    unfold LogState.usages nativeTokens
    rw [List.map_map, ← hentries]
    exact List.Sublist.sum_le_sum (List.filter_sublist.map _) fun _ _ => Nat.zero_le _
  have hprior : WithinTokens ((coverageAfter asOf log).turns[record.turnId]?.getD .new).sum
      (nativeTokens (logState log).entries record.turnId) := by
    cases hget : (coverageAfter asOf log).turns[record.turnId]? with
    | none => exact ⟨TokenUsage.default_valid, Nat.zero_le _⟩
    | some requests => exact h.sums _ _ hget
  have hwithin := record_within _ (logState log).length (requestEvent request.usage record) hprior
    hvalid hbound
  constructor
  case named => exact h.named
  case pending => rfl
  case mirrors =>
    intro entry hentry hsome
    rcases List.mem_append.1 (hentries ▸ hentry) with hold | hnew
    · exact List.mem_append_left _ (h.mirrors entry hold hsome)
    · obtain rfl := List.mem_singleton.1 hnew
      rw [hindex]
      exact List.mem_append_right _ (List.mem_singleton_self _)
  case onlyMirrors =>
    intro index hmem
    rw [hentries]
    rcases List.mem_append.1 hmem with hold | hnew
    · obtain ⟨entry, hentry, hsome⟩ := h.onlyMirrors index hold
      exact ⟨entry, List.mem_append_left _ hentry, hsome⟩
    · obtain rfl := List.mem_singleton.1 hnew
      refine ⟨_, List.mem_append_right _ (List.mem_singleton_self _), ?_, hindex⟩
      simp [LogState.entryOf, hrecord]
  case counted =>
    intro counter hcounter
    rw [hlength]
    rcases List.mem_append.1 hcounter with hold | hnew
    · have := h.counted counter hold
      omega
    · obtain rfl := List.mem_singleton.1 hnew
      show _ + 1 < _
      omega
  case labels =>
    intro counter hcounter entry hentry heq
    rcases List.mem_append.1 hcounter with hold | hnew <;>
      rcases List.mem_append.1 (hentries ▸ hentry) with holdEntry | hnewEntry
    · exact h.labels counter hold entry holdEntry heq
    · obtain rfl := List.mem_singleton.1 hnewEntry
      have := h.counted counter hold
      omega
    · obtain rfl := List.mem_singleton.1 hnew
      have := entry_index_lt holdEntry
      omega
    · obtain rfl := List.mem_singleton.1 hnew
      obtain rfl := List.mem_singleton.1 hnewEntry
      exact hnamed
  case sums =>
    intro turn requests hget
    rw [Std.ExtTreeMap.getElem?_insert] at hget
    rw [hentries]
    split at hget
    · rename_i heq
      obtain rfl : record.turnId = turn := Std.LawfulEqOrd.eq_of_compare heq
      obtain rfl := Option.some.inj hget
      rw [hown]
      exact hwithin
    · rename_i hne
      rw [hother turn fun heq => hne (by rw [heq]; exact Std.ReflOrd.compare_self)]
      exact h.sums turn requests hget
  case through =>
    intro turn requests through hget hthrough
    rw [hlength]
    -- a new counter has a record; an old one was before the record
    have hmono : ∀ {k : Nat}, (k < (logState log).length ∧
        ∀ entry ∈ (logState log).entries, entry.request.record = none →
          entry.named = some turn → entry.index ≤ k → entry.tokens = 0) →
        k < (logState log).length + 2 ∧
        ∀ entry ∈ ((logState log).next (.request request)).entries,
          entry.request.record = none → entry.named = some turn → entry.index ≤ k →
          entry.tokens = 0 := by
      rintro k ⟨hlt, hzero⟩
      refine ⟨by omega, fun entry hentry hnone hname hle => ?_⟩
      rcases List.mem_append.1 (hentries ▸ hentry) with hold | hnew
      · exact hzero entry hold hnone hname hle
      · obtain rfl := List.mem_singleton.1 hnew
        omega
    rw [Std.ExtTreeMap.getElem?_insert] at hget
    split at hget
    · rename_i heq
      obtain rfl : record.turnId = turn := Std.LawfulEqOrd.eq_of_compare heq
      obtain rfl := Option.some.inj hget
      rcases record_coveredThrough _ _ _ hthrough with hprev | ⟨rfl, htotal⟩
      · cases hold : (coverageAfter asOf log).turns[record.turnId]? with
        | none =>
          rw [show (requestEvent request.usage record).turnId = record.turnId from rfl, hold]
            at hprev
          cases hprev
        | some requests =>
          rw [show (requestEvent request.usage record).turnId = record.turnId from rfl, hold]
            at hprev
          exact hmono (h.through _ _ _ hold hprev)
      · refine ⟨by omega, fun entry hentry hnone hname _ => ?_⟩
        rcases List.mem_append.1 (hentries ▸ hentry) with hold | hnew
        · exact covered_counters_empty hwf haligned hrecord htotal hwithin.2 hold hnone hname
        · obtain rfl := List.mem_singleton.1 hnew
          rw [show ((logState log).entryOf request).request.record = request.record from rfl,
            hrecord] at hnone
          cases hnone
    · exact hmono (h.through _ _ _ hget hthrough)

/-! ## The whole log -/

theorem coverInv_log (hwf : WellFormed log) (haligned : Aligned log)
    (hvisible : ∀ event ∈ writtenEvents log, eventIsVisible asOf event) :
    CoverInv (logState log) (coverageAfter asOf log) := by
  induction log using List.reverseRecOn with
  | nil => exact coverInv_start
  | append_singleton front item ih =>
    rw [writtenEvents_append_singleton] at hvisible
    have hfront := ih hwf.left haligned.left fun event h =>
      hvisible event (List.mem_append_left _ h)
    have hitem : ∀ event ∈ (logState front).write item, eventIsVisible asOf event :=
      fun event h => hvisible event (List.mem_append_right _ h)
    rw [logState_append_singleton, coverageAfter_append_singleton]
    cases item with
    | event event =>
      exact coverInv_event (hitem event (List.mem_singleton_self _))
        (hwf.others event (List.mem_append_right _ (List.mem_singleton_self _))) hfront
    | request request =>
      cases hrecord : request.record with
      | some record => exact coverInv_native hwf haligned hitem hrecord hfront
      | none =>
        rw [write_counter _ hrecord] at hitem ⊢
        exact coverInv_counter (hitem _ (List.mem_singleton_self _)) hrecord hfront

section whole

variable (hwf : WellFormed log) (haligned : Aligned log)
  (hvisible : ∀ event ∈ writtenEvents log, eventIsVisible asOf event)
include hwf haligned hvisible

/-- **The counter of a native record** is covered. -/
theorem native_covered {entry : Entry} (hentry : entry ∈ (logState log).entries)
    (hrecord : entry.request.record.isSome) :
    entry.index ∈ requestCoveredCounters (writtenEvents log) asOf :=
  List.mem_append_left _ ((coverInv_log hwf haligned hvisible).mirrors entry hentry hrecord)

/-- **A counter without a record** is covered only when it adds nothing. -/
theorem counter_covered {entry : Entry} (hentry : entry ∈ (logState log).entries)
    (hrecord : entry.request.record = none)
    (hcovered : entry.index ∈ requestCoveredCounters (writtenEvents log) asOf) :
    entry.tokens = 0 := by
  have h := coverInv_log hwf haligned hvisible
  rcases List.mem_append.1 hcovered with hmirror | hproved
  · obtain ⟨native, hnative, hsome, hindex⟩ := h.onlyMirrors _ hmirror
    obtain rfl := entry_unique hnative hentry hindex
    rw [hrecord] at hsome
    cases hsome
  · obtain ⟨counter, hcounter, hindex⟩ := List.mem_map.1 hproved
    obtain ⟨hmem, hproves⟩ := List.mem_filter.1 hcounter
    have hnamed := h.labels counter hmem entry hentry hindex.symm
    obtain ⟨requests, hget, hcover⟩ := (Option.any_eq_true _ _).1 hproves
    obtain ⟨through, hthrough, hle⟩ :=
      (Option.any_eq_true _ _).1 (Bool.and_eq_true _ _ ▸ hcover).2
    rw [decide_eq_true_eq, hindex] at hle
    exact (h.through _ _ _ hget hthrough).2 entry hentry hrecord hnamed hle

end whole

end Rollout
