import Mathlib.Data.List.Induction
import UsageMonit.Deletion.Proof.Reconcile
import UsageMonit.Deletion.Proof.SavedUsage

/-!
# Deletion is safe against every client

Over every run of executions and reconciliations, each stopped anywhere (`Reaches`): the request
is sent at most once for an operation, and only when the ledger holds its members; a member is
recorded as deleted only on evidence; and every other member stays in the pending receipts, unless
it failed before any request.

* `execution_segment`, `reconciliation_segment`: what one activity adds to a run (`SegmentOk`)
* `RunInv.step`, `reaches_inv`: the invariant of runs
* `deletion_safe`: the statement
-/

namespace Deletion

open Effects Text Time Usage

section safety

variable {env : LedgerEnv}

def Segment.operation (segment : Segment) : Option String :=
  match segment.activity with
  | .execute _ prepared => some prepared.operationId
  | .reconcile _ _ => none

def Segment.requests (operationId : String) (segment : Segment) : Nat :=
  if segment.operation = some operationId then
    (segment.events.filter fun event => event.op.isDelete).length
  else 0

def requestCount (operationId : String) (segments : List Segment) : Nat :=
  (segments.map (·.requests operationId)).sum

/-- The segment saved a record of the thread under the operation. -/
def Segment.Saves (segment : Segment) (operationId threadId : String) : Prop :=
  ∃ event ∈ segment.events, ∃ records, SavesRecords event operationId records ∧
    threadId ∈ records.map (·.threadId)

/-- The evidence that an activity needs to record a member as deleted. -/
def Activity.Evidence (activity : Activity) (id : String) (past : Events) : Prop :=
  match activity with
  | .execute _ prepared => ExecutionEvidence prepared id past
  | .reconcile roots _ => ReconciliationEvidence roots id past

/-- A request is an execution's, with every member held; a deletion is recorded on evidence. -/
structure SegmentSafe (segment : Segment) : Prop where
  request : ∀ event ∈ segment.events, event.op.isDelete = true →
    ∃ redactContent prepared, segment.activity = .execute redactContent prepared ∧
      event.op = .deleteThread prepared.rootThreadId prepared.threadIds ∧
      ∀ id ∈ prepared.threadIds, HoldsCaptured prepared event.before id
  confirmed : ∀ earlier event later, segment.events = earlier ++ event :: later →
    ∀ operationId id, RecordsOutcome event operationId id .deleted →
      segment.activity.Evidence id earlier

structure SegmentOk (env : LedgerEnv) (start : Ledger) (segment : Segment) (last : Ledger) :
    Prop where
  safe : SegmentSafe segment
  consistent : Consistent env last
  readable : Readable env last
  operations : ∀ operationId ∈ start.operations, operationId ∈ last.operations
  once : ∀ operationId, segment.requests operationId ≤ 1
  fresh : ∀ operationId, 0 < segment.requests operationId →
    operationId ∉ start.operations ∧ operationId ∈ last.operations
  failed : ∀ t row, last.sessions.lookup t = some row → row.record.status = .failed →
    start.sessions.lookup t = some row ∨
      (row.operationId ∉ start.operations ∧ segment.requests row.operationId = 0)
  kept : ∀ t row, start.sessions.lookup t = some row → (∀ op, ¬ segment.Saves op t) →
    ∃ row', last.sessions.lookup t = some row' ∧ row'.operationId = row.operationId
  saved : ∀ op t, segment.Saves op t →
    ∃ row, last.sessions.lookup t = some row ∧ row.operationId = op

theorem length_filter_le_one {α : Type} {p : α → Bool} : ∀ {l : List α},
    (∀ earlier x later, l = earlier ++ x :: later → p x = true → ∀ y ∈ earlier, p y = false) →
    (l.filter p).length ≤ 1 := by
  intro l
  induction l using List.reverseRecOn with
  | nil => exact fun _ => Nat.zero_le _
  | append_singleton l x ih =>
    intro h
    rw [List.filter_append, List.length_append]
    cases hx : p x with
    | false =>
      have hl := ih fun earlier y later heq => h earlier y (later ++ [x]) (by rw [heq]; simp)
      simpa [List.filter, hx] using hl
    | true =>
      have hnone : l.filter p = [] := by
        rw [List.filter_eq_nil_iff]
        intro y hy
        rw [h l x [] rfl hx y hy]
        exact Bool.false_ne_true
      simp [List.filter, hx, hnone]

section execute

variable {start : Ledger} {prepared : PreparedSessionDeletion} {redactContent : Bool}
  (choose : Nat → (op : Op) → (handler env).Choice op) (n : Nat)

theorem execution_event (hc : Consistent env start) (hr : Readable env start)
    (hid : noControl prepared.operationId = true) {earlier later : Events}
    {event : Event Op Op.Answer Ledger}
    (heq : ((executeWithClient env redactContent prepared).run (handler env) choose n start).events =
      earlier ++ event :: later) : ExecutionOk env start prepared earlier event :=
  (execution_ok redactContent hc hr hid).events choose n heq

theorem execution_state (redactContent : Bool) (hc : Consistent env start) (hr : Readable env start)
    (hid : noControl prepared.operationId = true) :
    ExecutionState env start prepared
      ((executeWithClient env redactContent prepared).run (handler env) choose n start).events
      ((executeWithClient env redactContent prepared).run (handler env) choose n start).state := by
  rcases run_state choose n (executeWithClient env redactContent prepared) start with
    ⟨hevents, hstate⟩ | ⟨earlier, event, hevents, hstate⟩
  · rw [hevents, hstate]
    exact .inl ⟨rfl, nofun, nofun⟩
  · have hok := execution_event choose n hc hr hid hevents
    rw [hevents, hstate]
    exact hok.state

theorem noRequest_of_count {events : Events}
    (h : 0 < (events.filter fun event => event.op.isDelete).length) : ¬ NoRequest events := by
  intro hnone
  obtain ⟨event, hevent⟩ := List.exists_mem_of_length_pos h
  obtain ⟨hmem, hdelete⟩ := List.mem_filter.1 hevent
  rw [hnone event hmem] at hdelete
  cases hdelete

/-- **An execution in a run.** -/
theorem execution_segment (redactContent : Bool) (hc : Consistent env start)
    (hr : Readable env start) (hid : noControl prepared.operationId = true) :
    SegmentOk env start
      ⟨.execute redactContent prepared,
        ((executeWithClient env redactContent prepared).run (handler env) choose n start).events⟩
      ((executeWithClient env redactContent prepared).run (handler env) choose n start).state := by
  have hevent : ∀ earlier event later, ((executeWithClient env redactContent prepared).run
      (handler env) choose n start).events = earlier ++ event :: later →
      ExecutionOk env start prepared earlier event :=
    fun _ _ _ heq => execution_event choose n hc hr hid heq
  have hstate := execution_state choose n redactContent hc hr hid
  generalize ((executeWithClient env redactContent prepared).run (handler env) choose n
    start).events = events at hevent hstate ⊢
  generalize ((executeWithClient env redactContent prepared).run (handler env) choose n
    start).state = last at hstate ⊢
  have hmem : ∀ event ∈ events, ∃ earlier, ExecutionOk env start prepared earlier event := by
    intro event hin
    obtain ⟨earlier, later, heq⟩ := List.append_of_mem hin
    exact ⟨earlier, hevent earlier event later heq⟩
  have hsaves : ∀ op t, Segment.Saves ⟨.execute redactContent prepared, events⟩ op t →
      op = prepared.operationId ∧ t ∈ prepared.threadIds ∧ ¬ Untouched events := by
    intro op t hsaved
    obtain ⟨event, hin, records, hrecords, ht⟩ := hsaved
    obtain ⟨earlier, hok⟩ := hmem event hin
    obtain ⟨rfl, hthreads⟩ := hok.saves op records hrecords
    exact ⟨rfl, hthreads ▸ ht, fun huntouched => huntouched.2 event hin _ _ hrecords⟩
  have hrequests : ∀ op, 0 < Segment.requests op ⟨.execute redactContent prepared, events⟩ →
      op = prepared.operationId ∧ ¬ NoRequest events := by
    intro op hpos
    change 0 < if some prepared.operationId = some op then
      (events.filter fun event => event.op.isDelete).length else 0 at hpos
    split at hpos
    · rename_i heq
      exact ⟨(Option.some.inj heq).symm, noRequest_of_count hpos⟩
    · cases hpos
  refine {
    safe := ⟨?_, fun earlier event later heq op id hrecords =>
      ((hevent earlier event later heq).confirmed op id hrecords).2⟩
    consistent := ?_, readable := ?_, operations := ?_, once := ?_, fresh := ?_, failed := ?_,
    kept := ?_, saved := ?_ }
  · intro event hin hdelete
    obtain ⟨earlier, hok⟩ := hmem event hin
    obtain ⟨-, hop, -, hheld⟩ := hok.request hdelete
    exact ⟨redactContent, prepared, rfl, hop, hheld⟩
  · rcases hstate with ⟨rfl, -⟩ | ⟨pending, hstage⟩
    · exact hc
    · exact hstage.consistent
  · rcases hstate with ⟨rfl, -⟩ | ⟨pending, hstage⟩
    · exact hr
    · exact hstage.readable
  · rcases hstate with ⟨rfl, -⟩ | ⟨pending, hstage⟩
    · exact fun _ h => h
    · rw [hstage.operations]
      exact fun _ h => List.mem_cons_of_mem _ h
  · intro op
    unfold Segment.requests
    split
    · refine length_filter_le_one ?_
      intro earlier event later heq hdelete
      exact ((hevent earlier event later heq).request hdelete).1
    · exact Nat.zero_le _
  · intro op hpos
    obtain ⟨rfl, hsent⟩ := hrequests op hpos
    rcases hstate with ⟨rfl, huntouched⟩ | ⟨pending, hstage⟩
    · exact absurd huntouched.1 hsent
    · rw [hstage.operations]
      exact ⟨hstage.fresh, List.mem_cons_self⟩
  · intro t row hrow hfailed
    rcases hstate with ⟨rfl, -⟩ | ⟨pending, hstage⟩
    · exact .inl hrow
    · by_cases ht : t ∈ prepared.threadIds
      · obtain ⟨row', hrow', hop, hnone⟩ := hstage.members t ht
        rw [hrow'] at hrow
        cases hrow
        refine .inr ⟨hop ▸ hstage.fresh, ?_⟩
        by_contra hne
        exact (hrequests _ (Nat.pos_of_ne_zero hne)).2 (hnone hfailed)
      · exact .inl (hstage.frame t ht ▸ hrow)
  · intro t row hrow hnot
    rcases hstate with ⟨rfl, -⟩ | ⟨pending, hstage⟩
    · exact ⟨row, hrow, rfl⟩
    · by_cases ht : t ∈ prepared.threadIds
      · obtain ⟨event, hin, records, hrecords, hthreads⟩ := hstage.saved
        exact absurd ⟨event, hin, records, hrecords, hthreads ▸ ht⟩ (hnot prepared.operationId)
      · exact ⟨row, (hstage.frame t ht).trans hrow, rfl⟩
  · intro op t hsaved
    obtain ⟨rfl, ht, htouched⟩ := hsaves op t hsaved
    rcases hstate with ⟨rfl, huntouched⟩ | ⟨pending, hstage⟩
    · exact absurd huntouched htouched
    · obtain ⟨row, hrow, hop, -⟩ := hstage.members t ht
      exact ⟨row, hrow, hop⟩

end execute

/-- **A reconciliation in a run.** -/
theorem reconciliation_segment {start : Ledger} {roots : SessionCaptureRoots}
    (receipts : List PendingDeletionReceipt)
    (choose : Nat → (op : Op) → (handler env).Choice op) (n : Nat) (hc : Consistent env start)
    (hr : Readable env start) :
    SegmentOk env start
      ⟨.reconcile roots receipts,
        ((reconcileWithClient roots receipts).run (handler env) choose n start).events⟩
      ((reconcileWithClient roots receipts).run (handler env) choose n start).state := by
  have hevent : ∀ earlier event later, ((reconcileWithClient roots receipts).run (handler env)
      choose n start).events = earlier ++ event :: later →
      ReconcileOk env start roots earlier event :=
    fun _ _ _ heq => (reconcile_ok receipts hc hr).events choose n heq
  have hstate : ReconcileState env start
      ((reconcileWithClient roots receipts).run (handler env) choose n start).state := by
    rcases run_state choose n (reconcileWithClient roots receipts) start with
      ⟨-, hstate⟩ | ⟨earlier, event, hevents, hstate⟩
    · rw [hstate]
      exact ⟨hc, hr, rfl, fun _ => .inl rfl⟩
    · rw [hstate]
      exact (hevent earlier event [] hevents).state
  generalize ((reconcileWithClient roots receipts).run (handler env) choose n start).events =
    events at hevent ⊢
  generalize ((reconcileWithClient roots receipts).run (handler env) choose n start).state =
    last at hstate ⊢
  have hmem : ∀ event ∈ events, ∃ earlier, ReconcileOk env start roots earlier event := by
    intro event hin
    obtain ⟨earlier, later, heq⟩ := List.append_of_mem hin
    exact ⟨earlier, hevent earlier event later heq⟩
  have hnone : ∀ op, Segment.requests op ⟨.reconcile roots receipts, events⟩ = 0 :=
    fun op => if_neg nofun
  refine {
    safe := ⟨?_, fun earlier event later heq op id hrecords =>
      (hevent earlier event later heq).confirmed op id hrecords⟩
    consistent := hstate.consistent
    readable := hstate.readable
    operations := fun op h => hstate.operations ▸ h
    once := fun op => (hnone op).le.trans (Nat.zero_le _)
    fresh := fun op hpos => absurd (hnone op) (Nat.ne_of_gt hpos)
    failed := ?_, kept := ?_, saved := ?_ }
  · intro event hin hdelete
    obtain ⟨earlier, hok⟩ := hmem event hin
    rw [hok.noRequest] at hdelete
    cases hdelete
  · intro t row hrow hfailed
    left
    rcases hstate.rows t with hsame | ⟨first, second, -, hsecond, -, hdeleted⟩
    · exact hsame ▸ hrow
    · rw [hsecond] at hrow
      cases hrow
      rw [hdeleted] at hfailed
      cases hfailed
  · intro t row hrow _
    rcases hstate.rows t with hsame | ⟨first, second, hfirst, hsecond, hop, -⟩
    · exact ⟨row, hsame.trans hrow, rfl⟩
    · rw [hfirst] at hrow
      cases hrow
      exact ⟨second, hsecond, hop⟩
  · intro op t hsaved
    obtain ⟨event, hin, records, hrecords, -⟩ := hsaved
    obtain ⟨earlier, hok⟩ := hmem event hin
    exact absurd hrecords (hok.noSaves op records)

/-! ## Runs -/

theorem requestCount_append (operationId : String) (segments : List Segment) (segment : Segment) :
    requestCount operationId (segments ++ [segment]) =
      requestCount operationId segments + segment.requests operationId := by
  unfold requestCount
  rw [List.map_append, List.sum_append, List.map_singleton, List.sum_singleton]

/-- The invariant of runs. -/
structure RunInv (env : LedgerEnv) (segments : List Segment) (ledger : Ledger) : Prop where
  consistent : Consistent env ledger
  readable : Readable env ledger
  once : ∀ operationId, requestCount operationId segments ≤ 1
  known : ∀ operationId, 0 < requestCount operationId segments → operationId ∈ ledger.operations
  failed : ∀ t row, ledger.sessions.lookup t = some row → row.record.status = .failed →
    requestCount row.operationId segments = 0
  safe : ∀ segment ∈ segments, SegmentSafe segment
  /-- A member that was not saved again has its row. -/
  latest : ∀ earlier segment later op t, segments = earlier ++ segment :: later →
    segment.Saves op t → (∀ next ∈ later, ∀ op', ¬ next.Saves op' t) →
    ∃ row, ledger.sessions.lookup t = some row ∧ row.operationId = op

theorem RunInv.empty : RunInv env [] Ledger.empty where
  consistent := Consistent.empty
  readable := Readable.empty
  once _ := Nat.zero_le _
  known _ h := absurd h (Nat.lt_irrefl 0)
  failed _ _ _ _ := rfl
  safe := nofun
  latest earlier segment later op t h := by
    cases earlier <;> cases h

theorem RunInv.step {segments : List Segment} {ledger last : Ledger} {segment : Segment}
    (h : RunInv env segments ledger) (hok : SegmentOk env ledger segment last) :
    RunInv env (segments ++ [segment]) last := by
  -- an operation that is requested now was not known before, so not requested before
  have hfresh : ∀ op, op ∉ ledger.operations → requestCount op segments = 0 := by
    intro op hop
    by_contra hne
    exact hop (h.known op (Nat.pos_of_ne_zero hne))
  refine ⟨hok.consistent, hok.readable, ?_, ?_, ?_, ?_, ?_⟩
  · intro op
    rw [requestCount_append]
    by_cases hnew : 0 < segment.requests op
    · rw [hfresh op (hok.fresh op hnew).1, Nat.zero_add]
      exact hok.once op
    · have hold := h.once op
      omega
  · intro op hpos
    rw [requestCount_append] at hpos
    by_cases hnew : 0 < segment.requests op
    · exact (hok.fresh op hnew).2
    · exact hok.operations op (h.known op (by omega))
  · intro t row hrow hfailed
    rw [requestCount_append]
    rcases hok.failed t row hrow hfailed with hold | ⟨hop, hnone⟩
    · have hknown := h.consistent.operation t row hold
      have hnone : ¬ 0 < segment.requests row.operationId :=
        fun hpos => (hok.fresh _ hpos).1 hknown
      rw [h.failed t row hold hfailed]
      omega
    · rw [hfresh _ hop, hnone]
  · intro sg hsg
    rcases List.mem_append.1 hsg with hsg | hsg
    · exact h.safe sg hsg
    · rw [List.mem_singleton] at hsg
      exact hsg ▸ hok.safe
  · intro earlier sg later op t heq hsaved hlater
    rcases List.eq_nil_or_concat later with rfl | ⟨later, x, rfl⟩
    · obtain ⟨-, hlast⟩ := List.append_inj' heq rfl
      cases hlast
      exact hok.saved op t hsaved
    · have hsplit : segments ++ [segment] = (earlier ++ sg :: later) ++ [x] := by
        rw [heq]
        simp
      obtain ⟨hsegments, hlast⟩ := List.append_inj' hsplit rfl
      cases hlast
      have hnot : ∀ op', ¬ segment.Saves op' t := hlater segment (by simp)
      obtain ⟨row, hrow, hop⟩ := h.latest earlier sg later op t hsegments hsaved
        fun next hnext => hlater next (by simp [hnext])
      obtain ⟨row', hrow', hop'⟩ := hok.kept t row hrow hnot
      exact ⟨row', hrow', hop'.trans hop⟩

/-! ## The statement -/

theorem hexDigit_noControl (k : Nat) (h : k < 16) : isControl (hexDigit k) = false := by
  have hall : ∀ k : Fin 16, isControl (hexDigit k) = false := by decide
  exact hall ⟨k, h⟩

theorem operationIdOf_noControl (random : List UInt8) :
    noControl (operationIdOf random) = true := by
  unfold noControl operationIdOf
  rw [String.toList_ofList, Bool.not_eq_true', List.any_eq_false]
  intro c hc
  obtain ⟨byte, -, hmem⟩ := List.mem_flatMap.1 hc
  have hlt : byte.toNat < 256 := byte.toNat_lt
  rw [List.mem_cons, List.mem_singleton] at hmem
  rcases hmem with rfl | rfl
  · rw [hexDigit_noControl _ (by omega)]
    exact Bool.false_ne_true
  · rw [hexDigit_noControl _ (by omega)]
    exact Bool.false_ne_true

theorem reaches_inv {segments : List Segment} {ledger : Ledger}
    (h : Reaches env segments ledger) : RunInv env segments ledger := by
  induction h with
  | start => exact RunInv.empty
  | step activity choose n _ hwell ih =>
    refine ih.step ?_
    cases activity with
    | execute redactContent prepared =>
      obtain ⟨random, -, hid⟩ := hwell
      exact execution_segment choose n redactContent ih.consistent ih.readable
        (hid ▸ operationIdOf_noControl random)
    | reconcile roots receipts =>
      exact reconciliation_segment receipts choose n ih.consistent ih.readable

/-- **Session deletion is safe against every client behaviour.** -/
theorem deletion_safe {segments : List Segment} {ledger : Ledger}
    (h : Reaches env segments ledger) :
    (∀ operationId, requestCount operationId segments ≤ 1) ∧
    (∀ segment ∈ segments, SegmentSafe segment) ∧
    ∃ receipts, pendingDeletionReceipts env ledger = .ok receipts ∧
      ∀ earlier segment later operationId id, segments = earlier ++ segment :: later →
        segment.Saves operationId id → (∀ next ∈ later, ∀ op, ¬ next.Saves op id) →
        ∃ row, ledger.sessions.lookup id = some row ∧ row.operationId = operationId ∧
          (row.record.status = .deleted ∨ ⟨operationId, id⟩ ∈ receipts ∨
            (row.record.status = .failed ∧ requestCount operationId segments = 0)) := by
  have inv := reaches_inv h
  obtain ⟨receipts, hreceipts, hmem⟩ := receipts_ok inv.consistent inv.readable
  refine ⟨inv.once, inv.safe, receipts, hreceipts, ?_⟩
  intro earlier segment later operationId id heq hsaved hlater
  obtain ⟨row, hrow, rfl⟩ := inv.latest earlier segment later operationId id heq hsaved hlater
  refine ⟨row, hrow, rfl, ?_⟩
  cases hstatus : row.record.status with
  | deleted => exact .inl rfl
  | failed => exact .inr (.inr ⟨rfl, inv.failed id row hrow hstatus⟩)
  | pending => exact .inr (.inl ((hmem _ _).2 ⟨row, hrow, rfl, by rw [hstatus]; rfl⟩))
  | unknown => exact .inr (.inl ((hmem _ _).2 ⟨row, hrow, rfl, by rw [hstatus]; rfl⟩))
  | partially => exact .inr (.inl ((hmem _ _).2 ⟨row, hrow, rfl, by rw [hstatus]; rfl⟩))

end safety

/-- A read that reports its thread missing. -/
def readsMissing (event : Event Op Op.Answer Ledger) : Bool :=
  match event with
  | ⟨_, .readThread id, answer, _⟩ =>
    match (answer : Except ManagementError ManagedThread) with
    | .error error => isMissingThread error id
    | .ok _ => false
  | _ => false

namespace Sample

def threadId : String := "00000000-0000-0000-0000-00000000000a"

def thread : ManagedThread := ⟨threadId, none, "/sessions/a.jsonl", none, "notLoaded", false⟩

def capture : SessionUsageCapture where
  dataset := dataset [{ task threadId default with status := .completed }] [call threadId "e" 7]
  roots := ⟨"/home"⟩
  targets := [threadId]
  files := [(⟨"/sessions/a.jsonl", 0, "f"⟩, threadId)]

/-- A prepared deletion of the thread, whose identity repeats one byte. -/
def prepared (byte : UInt8) : PreparedSessionDeletion where
  rootThreadId := threadId
  threadIds := [threadId]
  capturedAt := seconds 20
  totalTokens := TokenUsage.sum [tokens 7]
  selectedRoot := threadId
  captureBoundary := seconds 20
  sessionRoots := ⟨"/home"⟩
  threads := [thread]
  capture := capture
  operationId := operationIdOf (List.replicate 16 byte)

/-- Surroundings with an answer to the request; in the last `final` steps the thread is not loaded
and its file is gone. -/
def surroundings (request : Except ManagementError Unit) (final : Nat) :
    Nat → (op : Op) → (handler env).Choice op
  | n, .readThread _ =>
    if n < final then
      (Except.error (.rpc (some (-32600)) ("thread not loaded: " ++ threadId)) :
        Except ManagementError ManagedThread)
    else (Except.ok thread : Except ManagementError ManagedThread)
  | _, .descendants _ => (Except.ok [] : Except ManagementError (List ManagedThread))
  | _, .deleteThread _ _ => request
  | _, .persistedThreads _ => (Except.ok [] : Except ManagementError (List String))
  | _, .rootsUnchanged _ => (Except.ok () : Except ManagementError Unit)
  | _, .validateLogPath _ _ => (Except.ok () : Except ManagementError Unit)
  | n, .discoverFiles _ _ => (Except.ok (if n < final then [] else capture.files) :
      Except ManagementError (List (RolloutFile × String)))
  | _, .canonicalize path => (Except.ok path : Except ManagementError String)
  | _, .symlinkMetadata _ => PathStatus.notFound
  | _, .prepareDelete _ _ _ => true
  | _, .setDeletionOutcome _ _ _ => (true, seconds 30)

def executionRun (byte : UInt8) (request : Except ManagementError Unit) (final : Nat)
    (ledger : Ledger) : Run Op Op.Answer Ledger ManagementError (List String) :=
  (executeWithClient env false (prepared byte)).run (handler env) (surroundings request final) 100
    ledger

/-- The request succeeds, and the thread is not loaded from then on. -/
def confirmed : Run Op Op.Answer Ledger ManagementError (List String) :=
  executionRun 0 (.ok ()) 83 Ledger.empty

def timedOut : Run Op Op.Answer Ledger ManagementError (List String) :=
  executionRun 0 (.error (.other "timeout")) 83 Ledger.empty

/-- A second operation on the same thread, whose files change before the request. -/
def abandoned : Run Op Op.Answer Ledger ManagementError (List String) :=
  executionRun 1 (.ok ()) 91 timedOut.state

theorem reaches_execution {segments : List Segment} {ledger : Ledger} (byte : UInt8)
    (request : Except ManagementError Unit) (final : Nat) (h : Reaches env segments ledger) :
    Reaches env
      (segments ++ [⟨.execute false (prepared byte), (executionRun byte request final ledger).events⟩])
      (executionRun byte request final ledger).state :=
  Reaches.step (.execute false (prepared byte)) (surroundings request final) 100 h
    ⟨List.replicate 16 byte, by simp, rfl⟩

theorem reaches_confirmed : Reaches env
    [⟨.execute false (prepared 0), confirmed.events⟩] confirmed.state :=
  reaches_execution 0 (.ok ()) 83 Reaches.start

theorem reaches_abandoned : Reaches env
    [⟨.execute false (prepared 0), timedOut.events⟩,
      ⟨.execute false (prepared 1), abandoned.events⟩] abandoned.state :=
  reaches_execution 1 (.ok ()) 91 (reaches_execution 0 (.error (.other "timeout")) 83 Reaches.start)

end Sample

theorem deletion_safe_sample :
    Reaches Sample.env [⟨.execute false (Sample.prepared 0), Sample.confirmed.events⟩]
        Sample.confirmed.state ∧
      requestCount (Sample.prepared 0).operationId
        [⟨.execute false (Sample.prepared 0), Sample.confirmed.events⟩] ≤ 1 :=
  ⟨Sample.reaches_confirmed, (deletion_safe Sample.reaches_confirmed).1 _⟩

/-- An execution records a member as deleted although no read reported it missing: it was not
loaded. And a member whose outcome is unknown after its request leaves the receipts once its thread
is prepared again and that operation fails before its own request. -/
theorem deletion_limits :
    (Reaches Sample.env [⟨.execute false (Sample.prepared 0), Sample.confirmed.events⟩]
        Sample.confirmed.state ∧
      (Sample.confirmed.state.sessions.lookup Sample.threadId).map (·.record.status) =
        some .deleted ∧
      ∀ event ∈ Sample.confirmed.events, readsMissing event = false) ∧
    (Reaches Sample.env [⟨.execute false (Sample.prepared 0), Sample.timedOut.events⟩,
        ⟨.execute false (Sample.prepared 1), Sample.abandoned.events⟩] Sample.abandoned.state ∧
      Sample.abandoned.state.outcomes.lookup
        ((Sample.prepared 0).operationId, Sample.threadId) = some .unknown ∧
      requestCount (Sample.prepared 0).operationId
        [⟨.execute false (Sample.prepared 0), Sample.timedOut.events⟩] = 1 ∧
      (pendingDeletionReceipts Sample.env Sample.abandoned.state).toOption = some []) := by
  refine ⟨⟨Sample.reaches_confirmed, ?_, ?_⟩, Sample.reaches_abandoned, ?_, ?_, ?_⟩ <;>
    decide +kernel

end Deletion
