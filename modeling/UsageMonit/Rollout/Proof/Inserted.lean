import UsageMonit.Rollout.Proof.Coverage

/-!
# Coverage with one more event

A counter without usage is inserted into the events of a file. The later events move by one, and
the same counters are covered, with one exception: the inserted counter ends the wait of a pending
native record for its mirror, so a mirror after it is covered only when the turn's totals prove it.

* `Shifted.step`: the two folds stay beside each other
* `inserted_shifted`, `inserted_mirror`: whether a record was waiting for its mirror
* `Shifted.mem_covered`, `Shifted.mem_lost`: which counters are covered before and after
-/

namespace Rollout

open Time Usage

/-! ## Places after an insertion -/

/-- The place of an event once another was inserted at `n`. -/
def shift (n i : Nat) : Nat := if i < n then i else i + 1

theorem shift_of_lt {n i : Nat} (h : i < n) : shift n i = i := if_pos h

theorem shift_of_le {n i : Nat} (h : n ≤ i) : shift n i = i + 1 := if_neg (by omega)

theorem shift_le_iff (n i j : Nat) : shift n i ≤ shift n j ↔ i ≤ j := by
  unfold shift
  split <;> split <;> omega

theorem shift_inj {n i j : Nat} (h : shift n i = shift n j) : i = j := by
  have hij := (shift_le_iff n i j).1 (by omega)
  have hji := (shift_le_iff n j i).1 (by omega)
  omega

theorem shift_ne (n i : Nat) : shift n i ≠ n := by
  unfold shift
  split <;> omega

/-! ## What the fold knows -/

def coverageOf (asOf : Option DateTime) (events : List ParsedEvent) : Coverage :=
  events.zipIdx.foldl (Coverage.step asOf) .new

/-- The counters that the records of their turns prove. -/
def Coverage.proven (state : Coverage) : List Nat :=
  (state.counters.filter state.proves).map Prod.fst

theorem requestCoveredCounters_eq (events : List ParsedEvent) (asOf : Option DateTime) :
    requestCoveredCounters events asOf =
      (coverageOf asOf events).covered ++ (coverageOf asOf events).proven := rfl

theorem mem_proven {state : Coverage} {i : Nat} :
    i ∈ state.proven ↔ ∃ turn, (i, turn) ∈ state.counters ∧ state.proves (i, turn) := by
  unfold Coverage.proven
  simp [List.mem_map, List.mem_filter]

/-! ## One step -/

def TurnRequests.shifted (n : Nat) (state : TurnRequests) : TurnRequests :=
  { state with coveredThrough := state.coveredThrough.map (shift n) }

theorem record_shifted (n i : Nat) (state : TurnRequests) (request : RequestUsageEvent) :
    (state.shifted n).record (shift n i) request = (state.record i request).shifted n := by
  unfold TurnRequests.record
  have hinsert : (state.shifted n).insert request.responseId request.usage =
      (state.insert request.responseId request.usage).shifted n := by
    unfold TurnRequests.insert
    dsimp only [TurnRequests.shifted]
    split <;> rfl
  rw [hinsert]
  cases request.turnUsage with
  | none => rfl
  | some total =>
    dsimp only [TurnRequests.shifted]
    split <;> rfl

/-- Two folds at the same event, before and after the insertion at `n`. The mirror `lost` is covered
before only. -/
structure Shifted (n : Nat) (lost : Option Nat) (c d : Coverage) : Prop where
  turns : ∀ turn : String, d.turns[turn]? = (c.turns[turn]?).map (TurnRequests.shifted n)
  counters : ∀ i turn, (i, turn) ∈ c.counters ↔ (shift n i, turn) ∈ d.counters
  covered : ∀ i, lost ≠ some i → (i ∈ c.covered ↔ shift n i ∈ d.covered)
  lost_covered : ∀ i, lost = some i → i ∈ c.covered ∧ shift n i ∉ d.covered
  currentTurn : d.currentTurn = c.currentTurn

section step

variable {asOf : Option DateTime} {n i : Nat} {lost : Option Nat} {c d : Coverage}

/-- Only the turns, the counters and the covered ones matter. -/
theorem Shifted.of_eq (h : Shifted n lost c d) {c' d' : Coverage} (hc : c'.turns = c.turns)
    (hd : d'.turns = d.turns) (hc' : c'.counters = c.counters) (hd' : d'.counters = d.counters)
    (hc'' : c'.covered = c.covered) (hd'' : d'.covered = d.covered)
    (hturn : d'.currentTurn = c'.currentTurn) : Shifted n lost c' d' where
  turns := by rw [hc, hd]; exact h.turns
  counters := by rw [hc', hd']; exact h.counters
  covered := by rw [hc'', hd'']; exact h.covered
  lost_covered := by rw [hc'', hd'']; exact h.lost_covered
  currentTurn := hturn

theorem Shifted.request (h : Shifted n lost c d) (hi : n ≤ i) (request : RequestUsageEvent)
    (pending : Option (String × TokenUsage)) :
    Shifted n lost
      { c with
        turns := c.turns.insert request.turnId
          ((c.turns[request.turnId]?.getD .new).record i request)
        pendingRequest := pending }
      { d with
        turns := d.turns.insert request.turnId
          ((d.turns[request.turnId]?.getD .new).record (i + 1) request)
        pendingRequest := pending } where
  turns turn := by
    have hstate : d.turns[request.turnId]?.getD .new =
        (c.turns[request.turnId]?.getD .new).shifted n := by
      rw [h.turns]
      cases c.turns[request.turnId]? <;> rfl
    rw [Std.ExtTreeMap.getElem?_insert, Std.ExtTreeMap.getElem?_insert, hstate,
      ← shift_of_le hi, record_shifted, h.turns]
    split <;> rfl
  counters := h.counters
  covered := h.covered
  lost_covered := h.lost_covered
  currentTurn := h.currentTurn

theorem Shifted.counter (h : Shifted n lost c d) (hi : n ≤ i) (hlost : lost ≠ some i)
    (turn : String) (current : Option String) (mirror : Bool) :
    Shifted n lost
      { c with
        counters := c.counters ++ [(i, turn)]
        currentTurn := current
        pendingRequest := none
        covered := if mirror then c.covered ++ [i] else c.covered }
      { d with
        counters := d.counters ++ [(i + 1, turn)]
        currentTurn := current
        pendingRequest := none
        covered := if mirror then d.covered ++ [i + 1] else d.covered } where
  turns := h.turns
  counters j turn' := by
    have heq : shift n j = i + 1 ↔ j = i := by
      rw [← shift_of_le hi]
      exact ⟨shift_inj, fun hj => hj ▸ rfl⟩
    simp [h.counters, heq]
  covered j hj := by
    have heq : shift n j = i + 1 ↔ j = i := by
      rw [← shift_of_le hi]
      exact ⟨shift_inj, fun hj => hj ▸ rfl⟩
    split
    · simp [h.covered j hj, heq]
    · exact h.covered j hj
  lost_covered j hj := by
    obtain ⟨hin, hout⟩ := h.lost_covered j hj
    have hne : shift n j ≠ i + 1 := by
      rw [← shift_of_le hi]
      exact fun heq => hlost (shift_inj heq ▸ hj)
    split
    · simp [hin, hout, hne]
    · exact ⟨hin, hout⟩
  currentTurn := rfl

/-- **One event** keeps the folds beside each other. -/
theorem Shifted.step (asOf : Option DateTime) (h : Shifted n lost c d) (hpending : d.pendingRequest = c.pendingRequest)
    (hi : n ≤ i) (hlost : lost ≠ some i) (event : ParsedEvent) :
    Shifted n lost (Coverage.step asOf c (event, i)) (Coverage.step asOf d (event, i + 1)) ∧
      (Coverage.step asOf d (event, i + 1)).pendingRequest =
        (Coverage.step asOf c (event, i)).pendingRequest := by
  unfold Coverage.step
  dsimp only
  split
  · exact ⟨h.of_eq rfl rfl rfl rfl rfl rfl h.currentTurn, rfl⟩
  · cases event with
    | taskStarted timestamp turnId startedAt =>
      exact ⟨h.of_eq rfl rfl rfl rfl rfl rfl rfl, rfl⟩
    | turnContext timestamp payload =>
      dsimp only
      cases stringFieldIn payload ["turn_id", "turnId"] with
      | none => exact ⟨h, hpending⟩
      | some turn =>
        refine ⟨h.of_eq rfl rfl rfl rfl rfl rfl rfl, ?_⟩
        rw [h.currentTurn, hpending]
    | requestUsage request => exact ⟨h.request hi request _, rfl⟩
    | tokenCount counter =>
      rw [h.currentTurn, hpending]
      cases c.currentTurn with
      | none => exact ⟨h, hpending⟩
      | some turn => exact ⟨h.counter hi hlost turn (some turn) _, rfl⟩
    | _ => exact ⟨h, hpending⟩

theorem Shifted.fold (events : List ParsedEvent) (h : Shifted n lost c d)
    (hpending : d.pendingRequest = c.pendingRequest) (hi : n ≤ i)
    (hlost : ∀ j, lost = some j → j < i) :
    Shifted n lost ((events.zipIdx i).foldl (Coverage.step asOf) c)
      ((events.zipIdx (i + 1)).foldl (Coverage.step asOf) d) := by
  induction events generalizing c d i with
  | nil => exact h
  | cons event rest ih =>
    rw [List.zipIdx_cons, List.zipIdx_cons, List.foldl_cons, List.foldl_cons]
    have hne : lost ≠ some i := fun heq => absurd (hlost i heq) (by omega)
    obtain ⟨hstep, hpending'⟩ := h.step asOf hpending hi hne event
    exact ih hstep hpending' (by omega) fun j hj => Nat.lt_succ_of_lt (hlost j hj)

end step

/-! ## The wait for a mirror -/

/-- The events that end the wait of a pending record while a turn, or none, is current. -/
def endsPending (asOf : Option DateTime) (turn : Option String) (event : ParsedEvent) : Bool :=
  !eventIsVisible asOf event ||
    match event with
    | .taskStarted _ _ _ => true
    | .turnContext _ payload =>
      (stringFieldIn payload ["turn_id", "turnId"]).any fun named => turn ≠ some named
    | .requestUsage _ => true
    | .tokenCount _ => turn.isSome
    | _ => false

section wait

variable {asOf : Option DateTime} {n i : Nat} {c d : Coverage} {turn : Option String}

/-- The folds while a record is pending before the insertion only. -/
structure Waiting (n : Nat) (turn : Option String) (c d : Coverage) : Prop where
  shifted : Shifted n none c d
  turn : c.currentTurn = turn
  pending : d.pendingRequest = none

theorem Waiting.step (h : Waiting n turn c d) {event : ParsedEvent}
    (hbetween : endsPending asOf turn event = false) :
    Waiting n turn (Coverage.step asOf c (event, i)) (Coverage.step asOf d (event, i + 1)) ∧
      (Coverage.step asOf c (event, i)).pendingRequest = c.pendingRequest := by
  unfold endsPending at hbetween
  rw [Bool.or_eq_false_iff] at hbetween
  obtain ⟨hvisible, hkind⟩ := hbetween
  unfold Coverage.step
  dsimp only
  rw [if_neg (by rw [hvisible]; exact Bool.false_ne_true),
    if_neg (by rw [hvisible]; exact Bool.false_ne_true)]
  cases event with
  | taskStarted timestamp turnId startedAt => cases hkind
  | requestUsage request => cases hkind
  | tokenCount counter =>
    obtain rfl : turn = none := Option.isSome_eq_false_iff.1 hkind |> Option.isNone_iff_eq_none.1
    rw [h.shifted.currentTurn, h.turn]
    exact ⟨h, rfl⟩
  | turnContext timestamp payload =>
    dsimp only at hkind ⊢
    cases hname : stringFieldIn payload ["turn_id", "turnId"] with
    | none => exact ⟨h, rfl⟩
    | some named =>
      rw [hname] at hkind
      obtain rfl : turn = some named := by simpa using hkind
      dsimp only
      rw [h.turn, h.shifted.currentTurn, h.turn, if_neg (by simp), if_neg (by simp)]
      exact ⟨⟨h.shifted.of_eq rfl rfl rfl rfl rfl rfl rfl, rfl, h.pending⟩, rfl⟩
  | _ => exact ⟨h, rfl⟩

theorem Waiting.fold {events : List ParsedEvent} (h : Waiting n turn c d)
    (hbetween : ∀ event ∈ events, endsPending asOf turn event = false) :
    Waiting n turn ((events.zipIdx i).foldl (Coverage.step asOf) c)
        ((events.zipIdx (i + 1)).foldl (Coverage.step asOf) d) ∧
      ((events.zipIdx i).foldl (Coverage.step asOf) c).pendingRequest = c.pendingRequest := by
  induction events generalizing c d i with
  | nil => exact ⟨h, rfl⟩
  | cons event rest ih =>
    rw [List.zipIdx_cons, List.zipIdx_cons, List.foldl_cons, List.foldl_cons]
    obtain ⟨hstep, hpending⟩ := h.step (i := i) (hbetween event List.mem_cons_self)
    obtain ⟨hrest, hpending'⟩ := ih hstep fun event hmem =>
      hbetween event (List.mem_cons_of_mem _ hmem)
    exact ⟨hrest, hpending'.trans hpending⟩

def isMirror (asOf : Option DateTime) (turn : Option String)
    (pending : Option (String × TokenUsage)) (event : ParsedEvent) : Bool :=
  eventIsVisible asOf event &&
    match event with
    | .tokenCount counter => turn.any fun turn => mirrorsPending pending turn counter
    | _ => false

/-- An event that ends the wait without being the mirror. -/
theorem Waiting.ends (h : Waiting n turn c d) (hi : n ≤ i) {event : ParsedEvent}
    (hends : endsPending asOf turn event = true)
    (hmirror : isMirror asOf turn c.pendingRequest event = false) :
    Shifted n none (Coverage.step asOf c (event, i)) (Coverage.step asOf d (event, i + 1)) ∧
      (Coverage.step asOf d (event, i + 1)).pendingRequest =
        (Coverage.step asOf c (event, i)).pendingRequest := by
  have hs := h.shifted
  unfold endsPending at hends
  unfold isMirror at hmirror
  unfold Coverage.step
  dsimp only
  by_cases hvisible : eventIsVisible asOf event
  · rw [hvisible, Bool.not_true, Bool.false_or] at hends
    rw [hvisible, Bool.true_and] at hmirror
    rw [hvisible, if_neg (by simp), if_neg (by simp)]
    cases event with
    | taskStarted timestamp turnId startedAt =>
      exact ⟨hs.of_eq rfl rfl rfl rfl rfl rfl rfl, rfl⟩
    | turnContext timestamp payload =>
      dsimp only at hends ⊢
      cases hname : stringFieldIn payload ["turn_id", "turnId"] with
      | none =>
        rw [hname] at hends
        cases hends
      | some named =>
        rw [hname] at hends
        have hne : turn ≠ some named := by simpa using hends
        dsimp only
        rw [hs.currentTurn, h.turn, if_pos hne, if_pos hne]
        exact ⟨hs.of_eq rfl rfl rfl rfl rfl rfl rfl, rfl⟩
    | requestUsage request => exact ⟨hs.request hi request _, rfl⟩
    | tokenCount counter =>
      dsimp only at hends hmirror ⊢
      obtain ⟨current, rfl⟩ := Option.isSome_iff_exists.1 hends
      rw [Option.any_some] at hmirror
      rw [hs.currentTurn, h.turn, h.pending]
      dsimp only
      rw [hmirror]
      exact ⟨hs.counter hi (by simp) current (some current) false, rfl⟩
    | _ => cases hends
  · rw [if_pos (by simp [hvisible]), if_pos (by simp [hvisible])]
    exact ⟨hs.of_eq rfl rfl rfl rfl rfl rfl hs.currentTurn, rfl⟩

theorem Waiting.mirror (h : Waiting n turn c d) (hi : n ≤ i) {event : ParsedEvent}
    (hmirror : isMirror asOf turn c.pendingRequest event) (hfresh : i ∉ c.covered) :
    Shifted n (some i) (Coverage.step asOf c (event, i)) (Coverage.step asOf d (event, i + 1)) ∧
      (Coverage.step asOf d (event, i + 1)).pendingRequest =
        (Coverage.step asOf c (event, i)).pendingRequest := by
  have hs := h.shifted
  obtain ⟨hvisible, hkind⟩ := Bool.and_eq_true_iff.1 hmirror
  unfold Coverage.step
  dsimp only
  rw [hvisible, if_neg (by simp), if_neg (by simp)]
  cases event with
  | tokenCount counter =>
    obtain ⟨current, rfl, hpair⟩ := (Option.any_eq_true _ _).1 hkind
    rw [hs.currentTurn, h.turn, h.pending]
    dsimp only
    rw [if_pos hpair, if_neg (show ¬ mirrorsPending none current counter = true from
      Bool.false_ne_true)]
    have hcounter := hs.counter hi (by simp) current (some current) false
    refine ⟨⟨hs.turns, hcounter.counters, fun j hj => ?_, fun j hj => ?_, rfl⟩, rfl⟩
    · have hne : j ≠ i := fun heq => hj (heq ▸ rfl)
      simp [hs.covered j (by simp), hne]
    · obtain rfl := Option.some.inj hj
      exact ⟨by simp, fun hmem => hfresh ((hs.covered i (by simp)).2 hmem)⟩
  | _ => cases hkind

end wait

/-! ## Places seen so far -/

/-- Everything that was noted lies before place `n`. -/
structure Below (n : Nat) (state : Coverage) : Prop where
  counters : ∀ i turn, (i, turn) ∈ state.counters → i < n
  covered : ∀ i ∈ state.covered, i < n
  through : ∀ (turn : String) requests, state.turns[turn]? = some requests →
    ∀ through, requests.coveredThrough = some through → through < n

section below

variable {asOf : Option DateTime} {i : Nat} {state : Coverage}

theorem Below.mono {n m : Nat} (h : Below n state) (hle : n ≤ m) : Below m state where
  counters i turn hmem := Nat.lt_of_lt_of_le (h.counters i turn hmem) hle
  covered i hmem := Nat.lt_of_lt_of_le (h.covered i hmem) hle
  through turn requests hget through hthrough :=
    Nat.lt_of_lt_of_le (h.through turn requests hget through hthrough) hle

theorem below_new (n : Nat) : Below n .new where
  counters i turn hmem := absurd hmem List.not_mem_nil
  covered i hmem := absurd hmem List.not_mem_nil
  through turn requests hget := by
    rw [show Coverage.new.turns[turn]? = none from Std.ExtTreeMap.getElem?_empty] at hget
    cases hget

theorem Below.step (h : Below i state) (event : ParsedEvent) :
    Below (i + 1) (Coverage.step asOf state (event, i)) := by
  have hnext := h.mono (Nat.le_succ i)
  unfold Coverage.step
  dsimp only
  split
  · exact ⟨hnext.counters, hnext.covered, hnext.through⟩
  · cases event with
    | taskStarted timestamp turnId startedAt =>
      exact ⟨hnext.counters, hnext.covered, hnext.through⟩
    | turnContext timestamp payload =>
      dsimp only
      split
      · exact hnext
      · exact ⟨hnext.counters, hnext.covered, hnext.through⟩
    | requestUsage request =>
      refine ⟨hnext.counters, hnext.covered, fun turn requests hget through hthrough => ?_⟩
      rw [Std.ExtTreeMap.getElem?_insert] at hget
      split at hget
      · obtain rfl := Option.some.inj hget
        rcases record_coveredThrough _ i request hthrough with hold | ⟨rfl, -⟩
        · cases hrequests : state.turns[request.turnId]? with
          | none =>
            rw [hrequests] at hold
            cases hold
          | some requests =>
            rw [hrequests] at hold
            exact hnext.through request.turnId requests hrequests through hold
        · exact Nat.lt_succ_self _
      · exact hnext.through turn requests hget through hthrough
    | tokenCount counter =>
      dsimp only
      split
      · exact hnext
      · refine ⟨fun j turn hmem => ?_, fun j hmem => ?_, hnext.through⟩
        · rcases List.mem_append.1 hmem with hold | hnew
          · exact hnext.counters j turn hold
          · have heq := List.mem_singleton.1 hnew
            simp only [Prod.mk.injEq] at heq
            omega
        · split at hmem
          · rcases List.mem_append.1 hmem with hold | hnew
            · exact hnext.covered j hold
            · have heq := List.mem_singleton.1 hnew
              omega
          · exact hnext.covered j hmem
    | _ => exact hnext

theorem Below.fold (asOf : Option DateTime) (h : Below i state) (events : List ParsedEvent) :
    Below (i + events.length) ((events.zipIdx i).foldl (Coverage.step asOf) state) := by
  induction events generalizing state i with
  | nil => exact h
  | cons event rest ih =>
    rw [List.zipIdx_cons, List.foldl_cons, List.length_cons, Nat.add_comm rest.length,
      ← Nat.add_assoc]
    exact ih (h.step event)

theorem coverageOf_below (asOf : Option DateTime) (events : List ParsedEvent) :
    Below events.length (coverageOf asOf events) := by
  have h := (below_new 0).fold asOf events
  rwa [Nat.zero_add] at h

end below

/-! ## The insertion -/

section insertion

variable {c : Coverage}

theorem insertion_shifted (asOf : Option DateTime) {n : Nat} (h : Below n c) {counter : TokenCountEvent}
    (hlast : counter.lastUsage = none) :
    Shifted n none c (Coverage.step asOf c (.tokenCount counter, n)) ∧
      ((Coverage.step asOf c (.tokenCount counter, n)).pendingRequest = none ∨
        (Coverage.step asOf c (.tokenCount counter, n)).pendingRequest = c.pendingRequest ∧
          c.currentTurn = none) := by
  have hturns : ∀ turn : String,
      c.turns[turn]? = (c.turns[turn]?).map (TurnRequests.shifted n) := by
    intro turn
    cases hget : c.turns[turn]? with
    | none => rfl
    | some requests =>
      have hthrough : requests.coveredThrough = requests.coveredThrough.map (shift n) := by
        cases hcase : requests.coveredThrough with
        | none => rfl
        | some through =>
          rw [Option.map_some, shift_of_lt (h.through turn requests hget through hcase)]
      rw [Option.map_some]
      unfold TurnRequests.shifted
      rw [← hthrough]
  have hcovered : ∀ i, i ∈ c.covered ↔ shift n i ∈ c.covered := by
    intro i
    rcases Nat.lt_or_ge i n with hlt | hge
    · rw [shift_of_lt hlt]
    · have hout : i ∉ c.covered := fun hmem => absurd (h.covered i hmem) (by omega)
      have hout' : i + 1 ∉ c.covered := fun hmem => absurd (h.covered _ hmem) (by omega)
      rw [shift_of_le hge]
      exact iff_of_false hout hout'
  have hcounters : ∀ i turn, (i, turn) ∈ c.counters ↔ (shift n i, turn) ∈ c.counters := by
    intro i turn
    rcases Nat.lt_or_ge i n with hlt | hge
    · rw [shift_of_lt hlt]
    · have hout : (i, turn) ∉ c.counters := fun hmem => absurd (h.counters i turn hmem) (by omega)
      have hout' : (i + 1, turn) ∉ c.counters := fun hmem =>
        absurd (h.counters _ turn hmem) (by omega)
      rw [shift_of_le hge]
      exact iff_of_false hout hout'
  have hsame : Shifted n none c c :=
    ⟨hturns, hcounters, fun i _ => hcovered i, fun i hi => (nomatch hi), rfl⟩
  unfold Coverage.step
  dsimp only
  split
  · exact ⟨hsame.of_eq rfl rfl rfl rfl rfl rfl rfl, .inl rfl⟩
  · cases hturn : c.currentTurn with
    | none => exact ⟨hsame, .inr ⟨rfl, rfl⟩⟩
    | some turn =>
      dsimp only
      have hnone : mirrorsPending c.pendingRequest turn counter = false := by
        unfold mirrorsPending
        rw [hlast]
        cases c.pendingRequest <;> simp
      rw [hnone]
      refine ⟨⟨hturns, fun i turn' => ?_, fun i _ => hcovered i, fun i hi => (nomatch hi), ?_⟩,
        .inl rfl⟩
      · simp [← hcounters, shift_ne]
      · exact hturn.symm

end insertion

/-! ## Whole logs -/

theorem coverageOf_append (asOf : Option DateTime) (front back : List ParsedEvent) :
    coverageOf asOf (front ++ back) =
      (back.zipIdx front.length).foldl (Coverage.step asOf) (coverageOf asOf front) := by
  unfold coverageOf
  rw [List.zipIdx_append, List.foldl_append, Nat.zero_add]

/-- `mirror` is the counter that the record pending after `front` waits for. -/
structure PendingMirror (asOf : Option DateTime) (front passed : List ParsedEvent)
    (mirror : ParsedEvent) : Prop where
  between : ∀ event ∈ passed,
    endsPending asOf (coverageOf asOf front).currentTurn event = false
  mirrors : isMirror asOf (coverageOf asOf front).currentTurn
    (coverageOf asOf front).pendingRequest mirror

section whole

variable {asOf : Option DateTime} {front back passed : List ParsedEvent}
  {counter : TokenCountEvent} {mirror : ParsedEvent} (hlast : counter.lastUsage = none)

theorem coverageOf_inserted (asOf : Option DateTime) (front back : List ParsedEvent)
    (event : ParsedEvent) :
    coverageOf asOf (front ++ event :: back) =
      (back.zipIdx (front.length + 1)).foldl (Coverage.step asOf)
        (Coverage.step asOf (coverageOf asOf front) (event, front.length)) := by
  rw [coverageOf_append, List.zipIdx_cons, List.foldl_cons]

include hlast in
theorem waiting_start (hturn : (coverageOf asOf front).currentTurn ≠ none) :
    Waiting front.length (coverageOf asOf front).currentTurn (coverageOf asOf front)
      (Coverage.step asOf (coverageOf asOf front) (.tokenCount counter, front.length)) := by
  obtain ⟨hshifted, hpending⟩ :=
    insertion_shifted asOf (coverageOf_below asOf front) hlast
  refine ⟨hshifted, rfl, ?_⟩
  rcases hpending with hnone | ⟨-, hnone⟩
  · exact hnone
  · exact absurd hnone hturn

theorem first_end (asOf : Option DateTime) (turn : Option String) (events : List ParsedEvent) :
    (∀ event ∈ events, endsPending asOf turn event = false) ∨
      ∃ passed event rest, events = passed ++ event :: rest ∧
        (∀ event ∈ passed, endsPending asOf turn event = false) ∧
        endsPending asOf turn event = true := by
  induction events with
  | nil => exact .inl fun event hmem => absurd hmem List.not_mem_nil
  | cons first rest ih =>
    cases hfirst : endsPending asOf turn first with
    | true => exact .inr ⟨[], first, rest, rfl, fun _ hmem => absurd hmem List.not_mem_nil, hfirst⟩
    | false =>
      rcases ih with hnone | ⟨passed, event, rest', rfl, hpassed, hends⟩
      · exact .inl fun event hmem => by
          rcases List.mem_cons.1 hmem with rfl | hrest
          · exact hfirst
          · exact hnone event hrest
      · refine .inr ⟨first :: passed, event, rest', rfl, fun event hmem => ?_, hends⟩
        rcases List.mem_cons.1 hmem with rfl | hrest
        · exact hfirst
        · exact hpassed event hrest

include hlast in
/-- Nothing waits for a mirror: the same counters are covered. -/
theorem inserted_shifted
    (hnone : ∀ passed mirror rest, back = passed ++ mirror :: rest →
      ¬ PendingMirror asOf front passed mirror) :
    Shifted front.length none (coverageOf asOf (front ++ back))
      (coverageOf asOf (front ++ .tokenCount counter :: back)) := by
  rw [coverageOf_append, coverageOf_inserted]
  obtain ⟨hshifted, hpending⟩ :=
    insertion_shifted asOf (coverageOf_below asOf front) hlast
  rcases hpending with hend | ⟨hsame, -⟩
  · have hwait : Waiting front.length (coverageOf asOf front).currentTurn (coverageOf asOf front)
        (Coverage.step asOf (coverageOf asOf front) (.tokenCount counter, front.length)) :=
      ⟨hshifted, rfl, hend⟩
    rcases first_end asOf (coverageOf asOf front).currentTurn back with
      hall | ⟨passed, event, rest, rfl, hpassed, hends⟩
    · exact (hwait.fold hall).1.shifted
    · obtain ⟨hpast, hrecord⟩ := hwait.fold (i := front.length) hpassed
      have hmirror : isMirror asOf (coverageOf asOf front).currentTurn
          (coverageOf asOf front).pendingRequest event = false := by
        by_contra hmirror
        exact hnone passed event rest rfl ⟨hpassed, by simpa using hmirror⟩
      rw [List.zipIdx_append, List.zipIdx_append, List.foldl_append, List.foldl_append,
        List.zipIdx_cons, List.zipIdx_cons, List.foldl_cons, List.foldl_cons,
        Nat.add_right_comm front.length 1]
      obtain ⟨hstep, hequal⟩ := hpast.ends (i := front.length + passed.length) (by omega) hends
        (hrecord ▸ hmirror)
      exact hstep.fold rest hequal (by omega) fun j hj => (nomatch hj)
  · exact hshifted.fold back hsame (Nat.le_refl _) fun j hj => (nomatch hj)

include hlast in
/-- The mirror that a record waits for is lost. -/
theorem inserted_mirror (rest : List ParsedEvent) (h : PendingMirror asOf front passed mirror) :
    Shifted front.length (some (front.length + passed.length))
      (coverageOf asOf (front ++ (passed ++ mirror :: rest)))
      (coverageOf asOf (front ++ .tokenCount counter :: (passed ++ mirror :: rest))) := by
  rw [coverageOf_append, coverageOf_inserted]
  have hturn : (coverageOf asOf front).currentTurn ≠ none := by
    intro hnone
    have hmirror := h.mirrors
    unfold isMirror at hmirror
    rw [hnone] at hmirror
    cases mirror <;> simp at hmirror
  have hwait := waiting_start hlast hturn
  obtain ⟨hpast, hrecord⟩ := hwait.fold (i := front.length) h.between
  have hbelow : Below (front.length + passed.length)
      ((passed.zipIdx front.length).foldl (Coverage.step asOf) (coverageOf asOf front)) :=
    (coverageOf_below asOf front).fold asOf passed
  rw [List.zipIdx_append, List.zipIdx_append, List.foldl_append, List.foldl_append,
    List.zipIdx_cons, List.zipIdx_cons, List.foldl_cons, List.foldl_cons,
    Nat.add_right_comm front.length 1]
  obtain ⟨hstep, hequal⟩ := hpast.mirror (i := front.length + passed.length) (by omega)
    (hrecord ▸ h.mirrors) fun hmem => absurd (hbelow.covered _ hmem) (by omega)
  refine hstep.fold rest hequal (by omega) fun j hj => ?_
  have heq := Option.some.inj hj
  omega

end whole

/-! ## Covered counters -/

section covered

variable {n i : Nat} {lost : Option Nat} {c d : Coverage}

theorem Shifted.proves (h : Shifted n lost c d) (i : Nat) (turn : String) :
    d.proves (shift n i, turn) = c.proves (i, turn) := by
  unfold Coverage.proves
  rw [h.turns]
  cases c.turns[turn]? with
  | none => rfl
  | some requests =>
    rw [Option.map_some, Option.any_some, Option.any_some]
    unfold TurnRequests.shifted
    cases requests.coveredThrough with
    | none => rfl
    | some through =>
      rw [Option.map_some, Option.any_some, Option.any_some]
      simp only [shift_le_iff]

theorem Shifted.mem_proven (h : Shifted n lost c d) : i ∈ c.proven ↔ shift n i ∈ d.proven := by
  rw [Rollout.mem_proven, Rollout.mem_proven]
  simp only [h.counters, h.proves]

/-- **The same counters** are covered, apart from a lost mirror. -/
theorem Shifted.mem_covered (h : Shifted n lost c d) (hi : lost ≠ some i) :
    i ∈ c.covered ++ c.proven ↔ shift n i ∈ d.covered ++ d.proven := by
  rw [List.mem_append, List.mem_append, h.covered i hi, h.mem_proven]

/-- **A lost mirror** is covered before, and after only when totals prove it. -/
theorem Shifted.mem_lost (h : Shifted n (some i) c d) :
    i ∈ c.covered ++ c.proven ∧ (shift n i ∈ d.covered ++ d.proven ↔ i ∈ c.proven) := by
  obtain ⟨hin, hout⟩ := h.lost_covered i rfl
  refine ⟨List.mem_append_left _ hin, ?_⟩
  rw [List.mem_append, h.mem_proven]
  exact ⟨fun hor => hor.resolve_left hout, .inr⟩

end covered

end Rollout
