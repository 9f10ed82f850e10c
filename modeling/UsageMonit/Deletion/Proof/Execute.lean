import UsageMonit.Deletion.Execute
import UsageMonit.Deletion.Proof.Receipts

/-!
# One execution of a deletion

What each event of `executeWithClient` satisfies, given the events before it (`ExecutionOk`):
the request comes once, when the ledger holds every member with its captured calls; a member is
recorded as deleted on the evidence of the events after the request; the ledger stays consistent
and readable (`ExecutionState`).

* `only_freshTree`, `only_validateCapture`, ...: the observing parts of the program
* `execution_ok`: the whole program
-/

namespace Deletion

open Effects Fallible Time

abbrev Events := List (Event Op Op.Answer Ledger)

/-! ## Events -/

variable {base : Events}

def Op.isDelete : Op → Bool
  | .deleteThread _ _ => true
  | _ => false

/-- The operations that neither send the request nor write the ledger. -/
def Op.Observes : Op → Prop
  | .deleteThread _ _ | .prepareDelete _ _ _ | .setDeletionOutcome _ _ _ => False
  | _ => True

def NoRequest (events : Events) : Prop := ∀ event ∈ events, event.op.isDelete = false

def SavesRecords (event : Event Op Op.Answer Ledger) (operationId : String)
    (records : List DeletedSessionRecord) : Prop :=
  ∃ (redactContent : Bool) (s s' : Ledger),
    event = ⟨s, .prepareDelete redactContent operationId records,
      (Except.ok () : Except ManagementError Unit), s'⟩

def RecordsOutcome (event : Event Op Op.Answer Ledger) (operationId threadId : String)
    (status : DeletionStatus) : Prop :=
  ∃ s s' : Ledger, event = ⟨s, .setDeletionOutcome operationId threadId status,
    (Except.ok () : Except ManagementError Unit), s'⟩

def Untouched (events : Events) : Prop :=
  NoRequest events ∧
    ∀ event ∈ events, ∀ operationId records, ¬ SavesRecords event operationId records

/-- An operation was answered so among the events after `base`. -/
def ObservedSince (base past : Events) (op : Op) (answer : op.Answer) : Prop :=
  ∃ later, past = base ++ later ∧ ∃ s s', ⟨s, op, answer, s'⟩ ∈ later

theorem ObservedSince.append {base past : Events} {op : Op} {answer : op.Answer}
    (h : ObservedSince base past op answer) (more : Events) :
    ObservedSince base (past ++ more) op answer := by
  obtain ⟨later, rfl, s, s', hmem⟩ := h
  exact ⟨later ++ more, List.append_assoc _ _ _, s, s', List.mem_append_left _ hmem⟩

theorem ObservedSince.mono {past past' : Events} {op : Op} {answer : op.Answer}
    (h : ObservedSince base past op answer) (hpre : past <+: past') :
    ObservedSince base past' op answer := by
  obtain ⟨more, rfl⟩ := hpre
  exact h.append more

theorem observedSince_last {past : Events} (h : base <+: past) (op : Op) (answer : op.Answer)
    (s s' : Ledger) : ObservedSince base (past ++ [⟨s, op, answer, s'⟩]) op answer := by
  obtain ⟨later, rfl⟩ := h
  exact ⟨later ++ [⟨s, op, answer, s'⟩], List.append_assoc _ _ _, s, s', by simp⟩

theorem NoRequest.append {past : Events} {event : Event Op Op.Answer Ledger}
    (h : NoRequest past) (hevent : event.op.isDelete = false) : NoRequest (past ++ [event]) := by
  intro e he
  rcases List.mem_append.1 he with he | he
  · exact h e he
  · rw [List.mem_singleton] at he
    exact he ▸ hevent

theorem observes_frame {env : LedgerEnv} : ∀ op : Op, op.Observes →
    ∀ (choice : (handler env).Choice op) (s : Ledger), ((handler env).answer op choice s).2 = s := by
  intro op hop choice s
  cases op <;> first | rfl | cases hop

theorem Op.Observes.notDelete {op : Op} (h : op.Observes) : op.isDelete = false := by
  cases op <;> first | rfl | cases h

theorem Op.Observes.notSaves {op : Op} (h : op.Observes) {answer : op.Answer} {s s' : Ledger}
    (operationId : String) (records : List DeletedSessionRecord) :
    ¬ SavesRecords ⟨s, op, answer, s'⟩ operationId records := by
  intro hsaves
  obtain ⟨redactContent, t, t', heq⟩ := hsaves
  cases heq
  cases h

theorem Op.Observes.notRecords {op : Op} (h : op.Observes) {answer : op.Answer} {s s' : Ledger}
    (operationId threadId : String) (status : DeletionStatus) :
    ¬ RecordsOutcome ⟨s, op, answer, s'⟩ operationId threadId status := by
  intro hrecords
  obtain ⟨t, t', heq⟩ := hrecords
  cases heq
  cases h

theorem Untouched.append {past : Events} {event : Event Op Op.Answer Ledger} (h : Untouched past)
    (hrequest : event.op.isDelete = false)
    (hsaves : ∀ operationId records, ¬ SavesRecords event operationId records) :
    Untouched (past ++ [event]) := by
  refine ⟨h.1.append hrequest, ?_⟩
  intro e he
  rcases List.mem_append.1 he with he | he
  · exact h.2 e he
  · rw [List.mem_singleton] at he
    exact he ▸ hsaves

theorem commit_cases (ledger : Ledger) (available : Bool) (transaction : Except String Ledger) :
    (transaction = .ok (commit ledger available transaction).2 ∧
      (commit ledger available transaction).1 = .ok ()) ∨
    ((commit ledger available transaction).2 = ledger ∧
      ∃ e, (commit ledger available transaction).1 = .error e) := by
  unfold commit
  split
  · exact .inl ⟨rfl, rfl⟩
  · exact .inr ⟨rfl, _, rfl⟩
  · exact .inr ⟨rfl, _, rfl⟩

/-! ## The observing parts -/

theorem only_require (c : Prop) [Decidable c] (message : String) :
    (require c message).Only Op.Observes := only_lift _

theorem only_ask {α : Type} {answer : Session (Except ManagementError α)}
    (h : answer.Only Op.Observes) : (ask answer).Only Op.Observes :=
  only_bind h fun _ => only_lift _

theorem only_readDescendants (root : String) : ∀ (listed members : List ManagedThread),
    (readDescendants root members listed).Only Op.Observes := by
  intro listed
  induction listed with
  | nil => exact fun _ => trivial
  | cons listed rest ih =>
    intro members
    refine only_bind (only_require _ _) fun _ => ?_
    refine only_bind (only_require _ _) fun _ => ?_
    refine only_bind (only_ask (only_perform trivial)) fun fresh => ?_
    exact only_bind (only_require _ _) fun _ => ih _

theorem only_validateMembers (roots : SessionCaptureRoots) (root : String)
    (members : List ManagedThread) : ∀ threads : List ManagedThread,
    (validateMembers roots root members threads).Only Op.Observes := by
  intro threads
  induction threads with
  | nil => trivial
  | cons thread threads ih =>
    refine only_bind ?_ fun _ => ih
    refine only_bind (only_require _ _) fun _ => ?_
    refine only_bind (only_require _ _) fun _ => ?_
    refine only_bind (only_require _ _) fun _ => ?_
    exact only_bind (only_ask (only_perform trivial)) fun _ => only_lift _

theorem only_freshTree (root : String) (roots : SessionCaptureRoots) :
    (freshTree root roots).Only Op.Observes := by
  refine only_bind (only_require _ _) fun _ => ?_
  refine only_bind (only_ask (only_perform trivial)) fun _ => ?_
  refine only_bind (only_ask (only_perform trivial)) fun rootThread => ?_
  refine only_bind (only_require _ _) fun _ => ?_
  refine only_bind (only_ask (only_perform trivial)) fun listed => ?_
  refine only_bind (only_readDescendants _ _ _) fun members => ?_
  refine only_bind (only_validateMembers _ _ _ _) fun _ => ?_
  exact only_bind (only_ask (only_perform trivial)) fun _ => trivial

theorem only_validateUnchanged (capture : SessionUsageCapture) :
    capture.validateUnchanged.Only Op.Observes :=
  only_bind (only_ask (only_perform trivial)) fun _ => only_require _ _

theorem only_anyCanonical (canonical : String) : ∀ paths : List String,
    (anyCanonical canonical paths).Only Op.Observes := by
  intro paths
  induction paths with
  | nil => trivial
  | cons path paths ih =>
    refine only_bind (only_perform trivial) fun resolved => ?_
    split
    · trivial
    · exact ih

theorem only_validateCapture (threads : List ManagedThread) (capture : SessionUsageCapture) :
    (validateCapture threads capture).Only Op.Observes := by
  refine only_bind (only_require _ _) fun _ => ?_
  induction threads with
  | nil => trivial
  | cons thread threads ih =>
    refine only_bind ?_ fun _ => ih
    refine only_bind (only_lift _) fun task => ?_
    refine only_bind (only_require _ _) fun _ => ?_
    refine only_bind (only_require _ _) fun _ => ?_
    refine only_bind (only_ask (only_perform trivial)) fun canonical => ?_
    exact only_bind (only_anyCanonical _ _) fun _ => only_require _ _

theorem only_finalValidation (prepared : PreparedSessionDeletion) :
    (finalValidation prepared).Only Op.Observes := by
  refine only_bind (only_validateUnchanged _) fun _ => ?_
  refine only_bind (only_freshTree _ _) fun tree => ?_
  refine only_bind (only_require _ _) fun _ => ?_
  exact only_validateUnchanged _

/-! ## The records of the members -/

theorem memberRecord_ok {env : LedgerEnv} {prepared : PreparedSessionDeletion}
    {thread : ManagedThread} {record : DeletedSessionRecord}
    (h : memberRecord env prepared thread = .ok record) :
    record.threadId = thread.id ∧ ∀ call ∈ prepared.capture.dataset.calls,
      call.threadId = thread.id → DeletedUsageCall.from call ∈ record.calls := by
  obtain ⟨task, -, h⟩ := bind_ok h
  obtain ⟨captured, hcaptured, h⟩ := bind_ok h
  cases h
  obtain ⟨task', -, hcaptured⟩ := bind_ok hcaptured
  obtain ⟨_, -, hcaptured⟩ := bind_ok hcaptured
  cases hcaptured
  refine ⟨rfl, ?_⟩
  intro call hcall hthread
  exact List.mem_map_of_mem (List.mem_filter.2 ⟨hcall, decide_eq_true hthread⟩)

theorem memberRecords_ok {env : LedgerEnv} {prepared : PreparedSessionDeletion} :
    ∀ {threads : List ManagedThread} {records : List DeletedSessionRecord},
      memberRecords env prepared threads = .ok records →
      records.map (·.threadId) = threads.map (·.id) ∧
        ∀ record ∈ records, ∀ call ∈ prepared.capture.dataset.calls,
          call.threadId = record.threadId → DeletedUsageCall.from call ∈ record.calls := by
  intro threads
  induction threads with
  | nil =>
    intro records h
    cases h
    simp
  | cons thread threads ih =>
    intro records h
    obtain ⟨record, hrecord, h⟩ := bind_ok h
    obtain ⟨rest, hrest, h⟩ := bind_ok h
    cases h
    obtain ⟨hthread, hcalls⟩ := memberRecord_ok hrecord
    obtain ⟨hthreads, hrests⟩ := ih hrest
    refine ⟨by rw [List.map_cons, List.map_cons, hthread, hthreads], ?_⟩
    intro r hr
    rcases List.mem_cons.1 hr with rfl | hr
    · rw [hthread]
      exact hcalls
    · exact hrests r hr

/-! ## What an execution keeps -/

/-- The ledger holds the member pending under the operation, with its captured calls. -/
def HoldsCaptured (prepared : PreparedSessionDeletion) (ledger : Ledger) (id : String) : Prop :=
  ∃ row, ledger.sessions.lookup id = some row ∧ row.operationId = prepared.operationId ∧
    row.record.status = .pending ∧ ∀ call ∈ prepared.capture.dataset.calls,
      call.threadId = id → DeletedUsageCall.from call ∈ row.record.calls

/-- After the request succeeded, a read reported the thread missing or not loaded, the scan of
owned files did not find it and each of its captured paths was gone. -/
def ExecutionEvidence (prepared : PreparedSessionDeletion) (id : String) (past : Events) : Prop :=
  ∃ (earlier : Events) (s s' : Ledger),
    let base := earlier ++ [⟨s, .deleteThread prepared.rootThreadId prepared.threadIds,
      (Except.ok () : Except ManagementError Unit), s'⟩]
    (∃ error, ObservedSince base past (.readThread id)
        (Except.error error : Except ManagementError ManagedThread) ∧
      (isMissingThread error id = true ∨ isThreadNotLoaded error id = true)) ∧
    (∃ files : List (RolloutFile × String), ObservedSince base past
        (.discoverFiles prepared.capture.roots prepared.capture.targets)
        (Except.ok files : Except ManagementError _) ∧ id ∉ files.map (·.2)) ∧
    prepared.capture.pathsForThread id ≠ [] ∧
    ∀ path ∈ prepared.capture.pathsForThread id,
      ObservedSince base past (.symlinkMetadata path) PathStatus.notFound

section execution

variable (env : LedgerEnv) (start : Ledger) (prepared : PreparedSessionDeletion)

/-- The ledger after the operation was saved; the members of `pending` have no outcome yet. -/
structure Stage (pending : List String) (past : Events) (s : Ledger) : Prop where
  consistent : Consistent env s
  readable : Readable env s
  fresh : prepared.operationId ∉ start.operations
  operations : s.operations = prepared.operationId :: start.operations
  frame : ∀ t, t ∉ prepared.threadIds → s.sessions.lookup t = start.sessions.lookup t
  members : ∀ t ∈ prepared.threadIds, ∃ row, s.sessions.lookup t = some row ∧
    row.operationId = prepared.operationId ∧ (row.record.status = .failed → NoRequest past)
  pending : ∀ t ∈ pending, HoldsCaptured prepared s t
  saved : ∃ event ∈ past, ∃ records, SavesRecords event prepared.operationId records ∧
    records.map (·.threadId) = prepared.threadIds

/-- The ledger in an execution: untouched, or after the operation was saved. -/
def ExecutionState (past : Events) (s : Ledger) : Prop :=
  (s = start ∧ Untouched past) ∨ ∃ pending, Stage env start prepared pending past s

/-- An event of an execution, given the events before it. -/
structure ExecutionOk (past : Events) (event : Event Op Op.Answer Ledger) : Prop where
  request : event.op.isDelete = true → NoRequest past ∧
    event.op = .deleteThread prepared.rootThreadId prepared.threadIds ∧
    prepared.operationId ∉ start.operations ∧
    ∀ id ∈ prepared.threadIds, HoldsCaptured prepared event.before id
  confirmed : ∀ operationId id, RecordsOutcome event operationId id .deleted →
    operationId = prepared.operationId ∧ ExecutionEvidence prepared id past
  saves : ∀ operationId records, SavesRecords event operationId records →
    operationId = prepared.operationId ∧ records.map (·.threadId) = prepared.threadIds
  state : ExecutionState env start prepared (past ++ [event]) event.after

variable {env start prepared} {past : Events} {s : Ledger} {pending : List String}

theorem Stage.append {event : Event Op Op.Answer Ledger}
    (h : Stage env start prepared pending past s) (hevent : event.op.isDelete = false) :
    Stage env start prepared pending (past ++ [event]) s := by
  refine { h with members := ?_, saved := ?_ }
  · intro t ht
    obtain ⟨row, hrow, hop, hfailed⟩ := h.members t ht
    exact ⟨row, hrow, hop, fun hstatus => (hfailed hstatus).append hevent⟩
  · obtain ⟨e, he, hsaved⟩ := h.saved
    exact ⟨e, List.mem_append_left _ he, hsaved⟩

theorem ExecutionState.observe {op : Op} (hop : op.Observes) (answer : op.Answer)
    (h : ExecutionState env start prepared past s) :
    ExecutionState env start prepared (past ++ [⟨s, op, answer, s⟩]) s := by
  rcases h with ⟨rfl, huntouched⟩ | ⟨pending, hstage⟩
  · exact .inl ⟨rfl, huntouched.append hop.notDelete hop.notSaves⟩
  · exact .inr ⟨pending, hstage.append hop.notDelete⟩

theorem ExecutionOk.observe {op : Op} (hop : op.Observes) (answer : op.Answer)
    (h : ExecutionState env start prepared past s) :
    ExecutionOk env start prepared past ⟨s, op, answer, s⟩ where
  request hdelete := by
    have hnot : op.isDelete = false := hop.notDelete
    rw [show op.isDelete = true from hdelete] at hnot
    cases hnot
  confirmed operationId id hrecords := absurd hrecords (hop.notRecords _ _ _)
  saves operationId records hsaves := absurd hsaves (hop.notSaves _ _)
  state := h.observe hop answer

theorem observe_then {α β : Type} {p : Session α} {f : α → Session β} {J : Events → Prop}
    (hp : p.Only Op.Observes)
    (hstate : ∀ past, J past → ExecutionState env start prepared past s)
    (hJ : ∀ past op answer, op.Observes → J past → J (past ++ [⟨s, op, answer, s⟩]))
    (hpast : J past)
    (hf : ∀ a past', J past' → (f a).Always (handler env) (ExecutionOk env start prepared)
      (fun _ _ _ => True) past' s) :
    (p >>= f).Always (handler env) (ExecutionOk env start prepared) (fun _ _ _ => True) past s := by
  exact always_observe observes_frame
    (fun past op answer hop h => ⟨ExecutionOk.observe hop answer (hstate past h),
      hJ past op answer hop h⟩) hp hpast (fun a past' h _ => hf a past' h) fun _ _ _ => trivial

/-! ## Outcomes -/

theorem Stage.record {event : Event Op Op.Answer Ledger} {id : String} {status : DeletionStatus}
    {time : DateTime} {s' : Ledger} {rest : List String}
    (h : Stage env start prepared pending past s) (hid : id ∈ prepared.threadIds)
    (hfailed : status = .failed → NoRequest past)
    (hopen : status.unresolved = true → HoldsCaptured prepared s id)
    (hrest : ∀ t ∈ rest, t ∈ pending ∧ t ≠ id) (hevent : event.op.isDelete = false)
    (hset : setDeletionOutcome env ledgerReadBudget s prepared.operationId id status time = .ok s') :
    Stage env start prepared rest (past ++ [event]) s' := by
  have hconsistent := h.consistent.setDeletionOutcome hset
  have hreadable : Readable env s' := by
    refine h.readable.setDeletionOutcome ?_ hset
    intro hstatus row hrow
    obtain ⟨row', hrow', -, hpending, -⟩ := hopen hstatus
    rw [hrow'] at hrow
    cases hrow
    rw [hpending]
    rfl
  obtain ⟨row, hrow, hop, -, rfl, -⟩ := setDeletionOutcome_ok hset
  have hlookup := updateOutcome_lookup s prepared.operationId id
  obtain ⟨e, he, hsaved⟩ := h.saved
  refine ⟨hconsistent, hreadable, h.fresh, h.operations, ?_, ?_, ?_,
    ⟨e, List.mem_append_left _ he, hsaved⟩⟩
  · intro t ht
    rw [hlookup, if_neg (fun heq : t = id => ht (heq ▸ hid))]
    exact h.frame t ht
  · intro t ht
    rw [hlookup]
    split
    · exact ⟨_, rfl, rfl, fun hstatus => (hfailed hstatus).append hevent⟩
    · obtain ⟨r, hr, hrop, hrfailed⟩ := h.members t ht
      exact ⟨r, hr, hrop, fun hstatus => (hrfailed hstatus).append hevent⟩
  · intro t ht
    obtain ⟨hmem, hne⟩ := hrest t ht
    obtain ⟨r, hr, hheld⟩ := h.pending t hmem
    exact ⟨r, by rw [hlookup, if_neg hne]; exact hr, hheld⟩

theorem notSaves_outcome {s s' : Ledger} {operationId threadId : String} {status : DeletionStatus}
    {answer : Except ManagementError Unit} (op' : String) (records : List DeletedSessionRecord) :
    ¬ SavesRecords ⟨s, .setDeletionOutcome operationId threadId status, answer, s'⟩ op' records := by
  intro h
  obtain ⟨redactContent, t, t', heq⟩ := h
  cases heq

theorem recordOutcome_ok {β : Type} {f : Unit → Session β} {id : String}
    {status : DeletionStatus} (rest : List String)
    (h : Stage env start prepared pending past s) (hid : id ∈ prepared.threadIds)
    (hfailed : status = .failed → NoRequest past)
    (hopen : status.unresolved = true → HoldsCaptured prepared s id)
    (hrest : ∀ t ∈ rest, t ∈ pending ∧ t ≠ id)
    (hdeleted : status = .deleted → ExecutionEvidence prepared id past)
    (hf : ∀ event s', event.op.isDelete = false →
      Stage env start prepared rest (past ++ [event]) s' →
      (f ()).Always (handler env) (ExecutionOk env start prepared) (fun _ _ _ => True)
        (past ++ [event]) s') :
    (ask (recordOutcome prepared.operationId id status) >>= f).Always (handler env)
      (ExecutionOk env start prepared) (fun _ _ _ => True) past s := by
  refine always_answer ?_
  intro choice
  obtain ⟨available, time⟩ := choice
  rcases hcommit : commit s available
    (setDeletionOutcome env ledgerReadBudget s prepared.operationId id status time) with ⟨answer, s'⟩
  have hcases := commit_cases s available
    (setDeletionOutcome env ledgerReadBudget s prepared.operationId id status time)
  have hconfirmed : ∀ operationId id', RecordsOutcome ⟨s, .setDeletionOutcome
      prepared.operationId id status, answer, s'⟩ operationId id' .deleted →
      operationId = prepared.operationId ∧ ExecutionEvidence prepared id' past := by
    intro operationId id' hrecords
    obtain ⟨t, t', heq⟩ := hrecords
    cases heq
    exact ⟨rfl, hdeleted rfl⟩
  rw [hcommit] at hcases
  rw [show (handler env).answer (Op.setDeletionOutcome prepared.operationId id status)
    (available, time) s = (answer, s') from hcommit]
  rcases hcases with ⟨hset, rfl⟩ | ⟨rfl, e, rfl⟩
  · have hstage : Stage env start prepared rest (past ++ [⟨s, .setDeletionOutcome
        prepared.operationId id status, (Except.ok () : Except ManagementError Unit), s'⟩]) s' :=
      h.record hid hfailed hopen hrest rfl hset
    exact ⟨⟨nofun, hconfirmed, fun _ _ hsaves => absurd hsaves (notSaves_outcome _ _),
      .inr ⟨rest, hstage⟩⟩, hf _ s' rfl hstage⟩
  · exact ⟨⟨nofun, hconfirmed, fun _ _ hsaves => absurd hsaves (notSaves_outcome _ _),
      .inr ⟨pending, h.append rfl⟩⟩, trivial⟩

theorem recordFailed_ok : ∀ (ids : List String) {past : Events} {s : Ledger},
    Stage env start prepared [] past s → NoRequest past → (∀ id ∈ ids, id ∈ prepared.threadIds) →
    (recordFailed prepared.operationId ids).Always (handler env) (ExecutionOk env start prepared)
      (fun _ _ _ => True) past s := by
  intro ids
  induction ids with
  | nil => exact fun _ _ _ => trivial
  | cons id ids ih =>
    intro past s h hrequest hids
    refine recordOutcome_ok [] h (hids id List.mem_cons_self) (fun _ => hrequest) nofun
      (by simp) nofun ?_
    intro event s' hevent hstage
    exact ih hstage (hrequest.append hevent) fun t ht => hids t (List.mem_cons_of_mem _ ht)

/-! ## After the request -/

theorem allNotFound_ok {J : Events → Prop}
    (hstate : ∀ past, J past → ExecutionState env start prepared past s)
    (hJ : ∀ past op answer, op.Observes → J past → J (past ++ [⟨s, op, answer, s⟩])) :
    ∀ (paths : List String) {past : Events}, J past → base <+: past →
      (allNotFound paths).Always (handler env) (ExecutionOk env start prepared)
        (fun r past' s' => s' = s ∧ J past' ∧ past <+: past' ∧ (r = .ok true →
          ∀ path ∈ paths, ObservedSince base past' (.symlinkMetadata path) PathStatus.notFound))
        past s := by
  intro paths
  induction paths with
  | nil => exact fun h _ => ⟨rfl, h, List.prefix_refl _, by simp⟩
  | cons path paths ih =>
    intro past hpast hbase
    have hobserves : (Op.symlinkMetadata path).Observes := trivial
    refine always_perform fun (status : PathStatus) =>
      ⟨ExecutionOk.observe hobserves _ (hstate past hpast), ?_⟩
    have hnext := hJ past (.symlinkMetadata path) status hobserves hpast
    have hmore : past <+: past ++ [⟨s, .symlinkMetadata path, status, s⟩] := List.prefix_append _ _
    change (if status = PathStatus.notFound then allNotFound paths else Prog.ret false).Always _ _ _
      (past ++ [⟨s, .symlinkMetadata path, status, s⟩]) s
    split
    · rename_i hstatus
      refine always_mono ?_ (ih hnext (hbase.trans hmore))
      intro r past' s' hpost
      refine ⟨hpost.1, hpost.2.1, hmore.trans hpost.2.2.1, ?_⟩
      intro hr path' hpath'
      rcases List.mem_cons.1 hpath' with rfl | hpath'
      · rw [← hstatus]
        exact (observedSince_last hbase _ _ s s).mono hpost.2.2.1
      · exact hpost.2.2.2 hr path' hpath'
    · exact ⟨rfl, hnext, hmore, nofun⟩

/-- Absence is reported only when the scan does not find the thread and every path is gone. -/
def AbsenceEvidence (prepared : PreparedSessionDeletion) (base past : Events)
    (remainingOwned : Except ManagementError (List String)) (id : String) : Prop :=
  (∃ owners, remainingOwned = .ok owners ∧ id ∉ owners) ∧
    prepared.capture.pathsForThread id ≠ [] ∧
    ∀ path ∈ prepared.capture.pathsForThread id,
      ObservedSince base past (.symlinkMetadata path) PathStatus.notFound

theorem filesAbsent_ok {J : Events → Prop}
    (hstate : ∀ past, J past → ExecutionState env start prepared past s)
    (hJ : ∀ past op answer, op.Observes → J past → J (past ++ [⟨s, op, answer, s⟩]))
    (remainingOwned : Except ManagementError (List String)) (id : String) (hpast : J past)
    (hbase : base <+: past) :
    (filesAbsent prepared.capture remainingOwned id).Always (handler env)
      (ExecutionOk env start prepared)
      (fun r past' s' => s' = s ∧ J past' ∧ past <+: past' ∧ (r = .ok true →
        AbsenceEvidence prepared base past' remainingOwned id)) past s := by
  unfold filesAbsent
  cases remainingOwned with
  | error e => exact ⟨rfl, hpast, List.prefix_refl _, nofun⟩
  | ok owners =>
    dsimp only
    split
    · exact ⟨rfl, hpast, List.prefix_refl _, nofun⟩
    · rename_i habsent
      rw [not_or] at habsent
      refine always_mono ?_ (allNotFound_ok hstate hJ _ hpast hbase)
      intro r past' s' hpost
      exact ⟨hpost.1, hpost.2.1, hpost.2.2.1, fun hr =>
        ⟨⟨owners, rfl, habsent.1⟩, habsent.2, hpost.2.2.2 hr⟩⟩

def OwnedScan (prepared : PreparedSessionDeletion) (base past : Events)
    (remainingOwned : Except ManagementError (List String)) : Prop :=
  ∀ owners, remainingOwned = .ok owners → ∃ files : List (RolloutFile × String),
    ObservedSince base past (.discoverFiles prepared.capture.roots prepared.capture.targets)
      (Except.ok files : Except ManagementError _) ∧ owners = files.map (·.2)

theorem OwnedScan.mono {past past' : Events}
    {remainingOwned : Except ManagementError (List String)}
    (h : OwnedScan prepared base past remainingOwned) (hpre : past <+: past') :
    OwnedScan prepared base past' remainingOwned := by
  intro owners howners
  obtain ⟨files, hfiles, heq⟩ := h owners howners
  exact ⟨files, hfiles.mono hpre, heq⟩

/-- A member gets the status of a deletion only on the whole evidence. -/
theorem memberStatus_deleted {deletionResult : Except ManagementError Unit}
    {observation : Except ManagementError ManagedThread} {absent : Bool} {id : String}
    (h : memberStatus deletionResult observation absent id = .deleted) :
    deletionResult = .ok () ∧ absent = true ∧ ∃ error, observation = .error error ∧
      (isMissingThread error id = true ∨ isThreadNotLoaded error id = true) := by
  unfold memberStatus at h
  split at h
  · rename_i hall
    simp only [Bool.and_eq_true] at hall
    obtain ⟨⟨hok, hmissing⟩, habsent⟩ := hall
    refine ⟨?_, habsent, ?_⟩
    · cases deletionResult with
      | ok u => rfl
      | error e => cases hok
    · cases observation with
      | ok thread => cases hmissing
      | error error =>
        refine ⟨error, rfl, ?_⟩
        simp only [reportsMissing, Bool.or_eq_true, Bool.and_eq_true] at hmissing
        exact hmissing.imp (fun h => h) And.right
  · split at h <;> cases h

theorem memberStatus_ne_failed (deletionResult : Except ManagementError Unit)
    (observation : Except ManagementError ManagedThread) (absent : Bool) (id : String) :
    memberStatus deletionResult observation absent id ≠ .failed := by
  unfold memberStatus
  split
  · nofun
  · split <;> nofun

/-- **The loop over the members**: each gets one outcome, deleted only on the evidence gathered
since the request. -/
theorem confirmMembers_ok {earlier : Events} {s₀ s₁ : Ledger}
    {deletionResult : Except ManagementError Unit}
    {remainingOwned : Except ManagementError (List String)} (hbase : base = earlier ++
      [⟨s₀, .deleteThread prepared.rootThreadId prepared.threadIds, deletionResult, s₁⟩]) :
    ∀ (ids deleted unresolved : List String) {past : Events} {s : Ledger},
      Stage env start prepared ids past s → ids.Nodup → (∀ id ∈ ids, id ∈ prepared.threadIds) →
      base <+: past → OwnedScan prepared base past remainingOwned →
      (confirmMembers prepared deletionResult remainingOwned deleted unresolved ids).Always
        (handler env) (ExecutionOk env start prepared) (fun _ _ _ => True) past s := by
  intro ids
  induction ids with
  | nil => exact fun _ _ _ _ _ _ _ _ _ => trivial
  | cons id ids ih =>
    intro deleted unresolved past s h hnodup hids hpast hscan
    rw [List.nodup_cons] at hnodup
    have hobserves : (Op.readThread id).Observes := trivial
    refine always_perform fun (observation : Except ManagementError ManagedThread) =>
      ⟨ExecutionOk.observe hobserves _ (.inr ⟨_, h⟩), ?_⟩
    have hread := observedSince_last hpast (.readThread id) observation s s
    have hpast' : past <+: past ++ [⟨s, .readThread id, observation, s⟩] := List.prefix_append _ _
    refine always_bind (always_mono ?_ (filesAbsent_ok
      (J := fun past => Stage env start prepared (id :: ids) past s)
      (fun past h => .inr ⟨_, h⟩) (fun past op answer hop h => h.append hop.notDelete)
      remainingOwned id (h.append rfl) (hpast.trans hpast')))
    intro r past₁ s' hpost
    obtain ⟨rfl, hstage, hpre, habsent⟩ := hpost
    cases r with
    | error e => trivial
    | ok absent =>
      refine recordOutcome_ok ids hstage (hids id List.mem_cons_self)
        (fun hfailed => absurd hfailed (memberStatus_ne_failed _ _ _ _))
        (fun _ => hstage.pending id List.mem_cons_self)
        (fun t ht => ⟨List.mem_cons_of_mem _ ht, fun heq => hnodup.1 (heq ▸ ht)⟩) ?_ ?_
      · intro hdeleted
        obtain ⟨rfl, rfl, error, rfl, hmissing⟩ := memberStatus_deleted hdeleted
        obtain ⟨⟨owners, howners, hout⟩, hpaths, hgone⟩ := habsent rfl
        obtain ⟨files, hfiles, rfl⟩ := (hscan.mono (hpast'.trans hpre)) owners howners
        exact ⟨earlier, s₀, s₁, ⟨error, hbase ▸ hread.mono hpre, hmissing⟩,
          ⟨files, hbase ▸ hfiles, hout⟩, hpaths, fun path hpath => hbase ▸ hgone path hpath⟩
      · intro event s' hevent hnext
        have hlast : past <+: past₁ ++ [event] :=
          (hpast'.trans hpre).trans (List.prefix_append _ _)
        have hrest : ∀ t ∈ ids, t ∈ prepared.threadIds :=
          fun t ht => hids t (List.mem_cons_of_mem _ ht)
        split
        · exact ih _ _ hnext hnodup.2 hrest (hpast.trans hlast) (hscan.mono hlast)
        · exact ih _ _ hnext hnodup.2 hrest (hpast.trans hlast) (hscan.mono hlast)

theorem remainingOwnedThreads_ok (h : Stage env start prepared pending past s)
    (hbase : base <+: past) :
    (remainingOwnedThreads prepared.capture.roots prepared.capture.targets).Always (handler env)
      (ExecutionOk env start prepared) (fun r past' s' => s' = s ∧
        Stage env start prepared pending past' s ∧ base <+: past' ∧
        OwnedScan prepared base past' r) past s := by
  refine always_lift (fun _ _ => ?_) (fun e _ => ⟨rfl, h, hbase, nofun⟩)
  refine always_answer ?_
  have hobserves : (Op.discoverFiles prepared.capture.roots prepared.capture.targets).Observes :=
    trivial
  intro (answer : Except ManagementError (List (RolloutFile × String)))
  refine ⟨ExecutionOk.observe hobserves answer (.inr ⟨_, h⟩), ?_⟩
  have hscan := observedSince_last hbase
    (.discoverFiles prepared.capture.roots prepared.capture.targets) answer s s
  have hpre : base <+: past ++ [⟨s, .discoverFiles prepared.capture.roots prepared.capture.targets,
    answer, s⟩] := hbase.trans (List.prefix_append _ _)
  cases answer with
  | error e => exact ⟨rfl, h.append rfl, hpre, nofun⟩
  | ok files =>
    refine ⟨rfl, h.append rfl, hpre, ?_⟩
    intro owners howners
    cases howners
    exact ⟨files, hscan, rfl⟩

/-- **The request**, sent once, when every member is held. -/
theorem requestDeletion_ok (h : Stage env start prepared prepared.threadIds past s)
    (hrequest : NoRequest past) (hnodup : prepared.threadIds.Nodup) :
    (requestDeletion prepared).Always (handler env) (ExecutionOk env start prepared)
      (fun _ _ _ => True) past s := by
  refine always_perform fun (deletionResult : Except ManagementError Unit) => ?_
  -- the members are pending, so none has failed
  have hstage : Stage env start prepared prepared.threadIds (past ++ [⟨s,
      .deleteThread prepared.rootThreadId prepared.threadIds, deletionResult, s⟩]) s := by
    obtain ⟨e, he, hsaved⟩ := h.saved
    refine { h with members := ?_, saved := ⟨e, List.mem_append_left _ he, hsaved⟩ }
    intro t ht
    obtain ⟨row, hrow, hop, hpending, -⟩ := h.pending t ht
    refine ⟨row, hrow, hop, ?_⟩
    intro hfailed
    rw [hpending] at hfailed
    cases hfailed
  refine ⟨⟨fun _ => ⟨hrequest, rfl, h.fresh, h.pending⟩, ?_, ?_, .inr ⟨_, hstage⟩⟩, ?_⟩
  · intro operationId id hrecords
    obtain ⟨t, t', heq⟩ := hrecords
    cases heq
  · intro operationId records hsaves
    obtain ⟨redactContent, t, t', heq⟩ := hsaves
    cases heq
  · refine always_bind (always_attempt (always_mono ?_
      (remainingOwnedThreads_ok hstage (List.prefix_refl _))))
    intro remainingOwned past' s' hpost
    obtain ⟨rfl, hstage', hpre, hscan⟩ := hpost
    refine always_bind (always_mono ?_ (confirmMembers_ok rfl prepared.threadIds [] [] hstage'
      hnodup (fun _ h => h) hpre hscan))
    intro r past'' s'' _
    cases r with
    | error e => trivial
    | ok members =>
      refine always_lift (fun _ _ => ?_) (fun _ _ => trivial)
      exact always_lift (fun _ _ => trivial) (fun _ _ => trivial)

/-! ## The whole execution -/

section
variable {records : List DeletedSessionRecord} (hid : noControl prepared.operationId = true)
  (hthreads : records.map (·.threadId) = prepared.threadIds)
  (hcalls : ∀ record ∈ records, ∀ call ∈ prepared.capture.dataset.calls,
    call.threadId = record.threadId → DeletedUsageCall.from call ∈ record.calls)
include hid hthreads hcalls

theorem Published.stage {ledger' : Ledger}
    {event : Event Op Op.Answer Ledger} (hr : Readable env start) (hc : Consistent env start)
    (hrequest : NoRequest past) (hevent : event.op.isDelete = false)
    (hsaves : SavesRecords event prepared.operationId records)
    (published : Published env ledgerReadBudget start ledger' prepared.operationId records) :
    Stage env start prepared prepared.threadIds (past ++ [event]) ledger' := by
  have hholds : ∀ t ∈ prepared.threadIds, HoldsCaptured prepared ledger' t := by
    intro t ht
    rw [← hthreads] at ht
    obtain ⟨record, hrecord, rfl⟩ := List.mem_map.1 ht
    obtain ⟨row, hrow, hop, hpending, hmem⟩ := published.members record hrecord
    exact ⟨row, hrow, hop, hpending, fun call hcall hthread =>
      (hmem _).2 (.inr (hcalls record hrecord call hcall hthread))⟩
  exact {
    consistent := published.consistent
    readable := hr.prepareDelete hc hid published
    fresh := published.fresh
    operations := published.operations
    frame := fun t ht => published.frame t (by rwa [hthreads])
    members := fun t ht => by
      obtain ⟨row, hrow, hop, -⟩ := hholds t ht
      exact ⟨row, hrow, hop, fun _ => hrequest.append hevent⟩
    pending := hholds
    saved := ⟨event, List.mem_append_right _ List.mem_cons_self, records, hsaves, hthreads⟩ }

theorem saveAndRequest_ok {redactContent : Bool}
    (hc : Consistent env start) (hr : Readable env start)
    (h : Untouched past) :
    (saveThenRequest redactContent prepared records).Always (handler env)
      (ExecutionOk env start prepared) (fun _ _ _ => True) past start := by
  refine always_answer ?_
  intro (available : Bool)
  rcases hcommit : commit start available (prepareDelete env redactContent ledgerReadBudget start
    prepared.operationId records) with ⟨answer, s'⟩
  have hcases := commit_cases start available (prepareDelete env redactContent ledgerReadBudget
    start prepared.operationId records)
  have hconfirmed : ∀ operationId id, RecordsOutcome ⟨start, .prepareDelete redactContent
      prepared.operationId records, answer, s'⟩ operationId id .deleted →
      operationId = prepared.operationId ∧ ExecutionEvidence prepared id past := by
    intro operationId id hrecords
    obtain ⟨t, t', heq⟩ := hrecords
    cases heq
  rw [hcommit] at hcases
  rw [show (handler env).answer (Op.prepareDelete redactContent prepared.operationId records)
    available start = (answer, s') from hcommit]
  rcases hcases with ⟨hprepare, rfl⟩ | ⟨rfl, e, rfl⟩
  · have published := prepareDelete_ok hc hprepare
    have hstage : Stage env start prepared prepared.threadIds (past ++ [⟨start, .prepareDelete
        redactContent prepared.operationId records,
        (Except.ok () : Except ManagementError Unit), s'⟩]) s' :=
      published.stage hid hthreads hcalls hr hc h.1 rfl ⟨redactContent, start, s', rfl⟩
    refine ⟨⟨nofun, hconfirmed, ?_, .inr ⟨_, hstage⟩⟩, ?_⟩
    · intro operationId rs hsaves
      obtain ⟨redact, t, t', heq⟩ := hsaves
      cases heq
      exact ⟨rfl, hthreads⟩
    · refine observe_then (J := fun past => Stage env start prepared prepared.threadIds past s' ∧
          NoRequest past) (only_attempt (only_finalValidation _)) (fun past h => .inr ⟨_, h.1⟩)
        (fun past op answer hop h => ⟨h.1.append hop.notDelete, h.2.append hop.notDelete⟩)
        ⟨hstage, h.1.append rfl⟩ fun validation past h => ?_
      cases validation with
      | error e =>
        refine always_bind (always_mono ?_ (recordFailed_ok prepared.threadIds
          { h.1 with pending := nofun } h.2 fun _ h => h))
        intro r past s _
        cases r <;> trivial
      | ok u => exact requestDeletion_ok h.1 h.2 (hthreads ▸ published.distinct)
  · refine ⟨⟨nofun, hconfirmed, ?_, .inl ⟨rfl, h.append rfl ?_⟩⟩, trivial⟩
    all_goals
      intro operationId rs hsaves
      obtain ⟨redact, t, t', heq⟩ := hsaves
      cases heq

end

/-- **Every event of an execution**, against any client, files and storage. -/
theorem execution_ok (redactContent : Bool) (hc : Consistent env start) (hr : Readable env start)
    (hid : noControl prepared.operationId = true) :
    (executeWithClient env redactContent prepared).Always (handler env)
      (ExecutionOk env start prepared) (fun _ _ _ => True) [] start := by
  -- until the records are saved, the events are observations
  have hstate : ∀ past, Untouched past → ExecutionState env start prepared past start :=
    fun past h => .inl ⟨rfl, h⟩
  have hkeep : ∀ past (op : Op) (answer : op.Answer), op.Observes → Untouched past →
      Untouched (past ++ [⟨start, op, answer, start⟩]) :=
    fun past op answer hop h => h.append hop.notDelete hop.notSaves
  refine always_lift (fun _ hsummary => ?_) (fun _ _ => trivial)
  rw [ensure_ok] at hsummary
  refine observe_then (only_freshTree _ _) hstate hkeep ⟨nofun, nofun⟩ fun tree past h => ?_
  refine always_lift (fun _ _ => ?_) (fun _ _ => trivial)
  refine observe_then (only_validateUnchanged _) hstate hkeep h fun _ past h => ?_
  refine observe_then (only_validateCapture _ _) hstate hkeep h fun _ past h => ?_
  refine always_lift (fun records hrecords => ?_) (fun _ _ => trivial)
  have hmembers : memberRecords env prepared prepared.threads = .ok records := by
    cases hresult : memberRecords env prepared prepared.threads with
    | error e =>
      rw [hresult] at hrecords
      cases hrecords
    | ok rs =>
      rw [hresult] at hrecords
      cases hrecords
      rfl
  obtain ⟨hthreads, hcalls⟩ := memberRecords_ok hmembers
  rw [← hsummary.2.1] at hthreads
  exact saveAndRequest_ok hid hthreads hcalls hc hr h

end execution

end Deletion
