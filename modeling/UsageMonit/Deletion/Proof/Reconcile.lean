import UsageMonit.Deletion.Proof.Execute

/-!
# One reconciliation

What each event of `reconcileWithClient` satisfies (`ReconcileOk`): it sends no request and saves
no records, and it records a member as deleted only when the inventory lacks it, a read after that
reports it missing or not loaded and the owner scan does not find it.

* `collectCandidates_ok`: what is known of a candidate
* `reconcile_ok`: the whole program
-/

namespace Deletion

open Effects Time

/-- The inventory of the targets, after which the other observations are made. -/
def Inventory (targets persisted : List String) (base : Events) : Prop :=
  ∃ (earlier : Events) (s s' : Ledger), base = earlier ++ [⟨s, .persistedThreads targets,
    (Except.ok persisted : Except ManagementError (List String)), s'⟩]

/-- The inventory lacks the thread and a read since reports it missing or not loaded. -/
def ReportedAbsent (targets persisted : List String) (base past : Events) (id : String) : Prop :=
  id ∈ targets ∧ id ∉ persisted ∧ ∃ error, ObservedSince base past (.readThread id)
      (Except.error error : Except ManagementError ManagedThread) ∧
    (isMissingThread error id = true ∨ isThreadNotLoaded error id = true)

def ReconciliationEvidence (roots : SessionCaptureRoots) (id : String) (past : Events) : Prop :=
  ∃ targets persisted base, Inventory targets persisted base ∧
    ReportedAbsent targets persisted base past id ∧
    ∃ files : List (RolloutFile × String), ObservedSince base past (.discoverFiles roots targets)
      (Except.ok files : Except ManagementError _) ∧ id ∉ files.map (·.2)

theorem ReportedAbsent.mono {targets persisted : List String} {base past past' : Events}
    {id : String} (h : ReportedAbsent targets persisted base past id) (hpre : past <+: past') :
    ReportedAbsent targets persisted base past' id := by
  obtain ⟨htarget, hpersisted, error, hread, hmissing⟩ := h
  exact ⟨htarget, hpersisted, error, hread.mono hpre, hmissing⟩

section reconciliation

variable (env : LedgerEnv) (start : Ledger) (roots : SessionCaptureRoots)

/-- The ledger in a reconciliation: some members have become deleted. -/
structure ReconcileState (s : Ledger) : Prop where
  consistent : Consistent env s
  readable : Readable env s
  operations : s.operations = start.operations
  rows : ∀ t, s.sessions.lookup t = start.sessions.lookup t ∨
    ∃ row row', start.sessions.lookup t = some row ∧ s.sessions.lookup t = some row' ∧
      row'.operationId = row.operationId ∧ row'.record.status = .deleted

structure ReconcileOk (past : Events) (event : Event Op Op.Answer Ledger) : Prop where
  noRequest : event.op.isDelete = false
  noSaves : ∀ operationId records, ¬ SavesRecords event operationId records
  confirmed : ∀ operationId id, RecordsOutcome event operationId id .deleted →
    ReconciliationEvidence roots id past
  state : ReconcileState env start event.after

variable {env start roots} {past : Events} {s : Ledger}

theorem ReconcileOk.observe {op : Op} (hop : op.Observes) (answer : op.Answer)
    (h : ReconcileState env start s) : ReconcileOk env start roots past ⟨s, op, answer, s⟩ where
  noRequest := hop.notDelete
  noSaves := hop.notSaves
  confirmed _ _ hrecords := absurd hrecords (hop.notRecords _ _ _)
  state := h

theorem reconcile_observe {α β : Type} {p : Session α} {f : α → Session β}
    (h : ReconcileState env start s) (hp : p.Only Op.Observes)
    (hf : ∀ a past', past <+: past' → (f a).Always (handler env) (ReconcileOk env start roots)
      (fun _ _ _ => True) past' s) :
    (p >>= f).Always (handler env) (ReconcileOk env start roots) (fun _ _ _ => True) past s :=
  always_observe (J := fun _ => True) observes_frame
    (fun _ _ answer hop _ => ⟨ReconcileOk.observe hop answer h, trivial⟩) hp trivial
    (fun a past' _ hpre => hf a past' hpre) fun _ _ _ => trivial

theorem readsAbsent_true {observation : Except ManagementError ManagedThread} {id : String}
    (h : readsAbsent observation id = true) : ∃ error, observation = .error error ∧
      (isMissingThread error id = true ∨ isThreadNotLoaded error id = true) := by
  cases observation with
  | ok thread => cases h
  | error error =>
    rw [readsAbsent, Bool.or_eq_true] at h
    exact ⟨error, rfl, h⟩

/-- **Candidates** are targets that the inventory lacks and a read reports absent. -/
theorem collectCandidates_ok {targets persisted : List String} {base : Events}
    (h : ReconcileState env start s) : ∀ (ids candidates : List String) {past : Events},
    (∀ id ∈ ids, id ∈ targets) → base <+: past →
    (∀ id ∈ candidates, ReportedAbsent targets persisted base past id) →
    (collectCandidates persisted candidates ids).Always (handler env)
      (ReconcileOk env start roots) (fun r past' s' => s' = s ∧ past <+: past' ∧
        ∀ found, r = .ok found → ∀ id ∈ found, ReportedAbsent targets persisted base past' id)
      past s := by
  intro ids
  induction ids with
  | nil =>
    intro candidates past _ _ hcandidates
    refine ⟨rfl, List.prefix_refl _, ?_⟩
    intro found hfound
    cases hfound
    exact hcandidates
  | cons id ids ih =>
    intro candidates past hids hbase hcandidates
    have hrest : ∀ t ∈ ids, t ∈ targets := fun t ht => hids t (List.mem_cons_of_mem _ ht)
    unfold collectCandidates
    split
    · exact ih candidates hrest hbase hcandidates
    · rename_i hpersisted
      have hobserves : (Op.readThread id).Observes := trivial
      refine always_perform fun (observation : Except ManagementError ManagedThread) =>
        ⟨ReconcileOk.observe hobserves _ h, ?_⟩
      have hmore : past <+: past ++ [⟨s, .readThread id, observation, s⟩] :=
        List.prefix_append _ _
      have hkept : ∀ t ∈ candidates, ReportedAbsent targets persisted base
          (past ++ [⟨s, .readThread id, observation, s⟩]) t :=
        fun t ht => (hcandidates t ht).mono hmore
      change (if readsAbsent observation id = true then
          collectCandidates persisted (candidates ++ [id]) ids
        else collectCandidates persisted candidates ids).Always _ _ _
          (past ++ [⟨s, .readThread id, observation, s⟩]) s
      have hread := observedSince_last hbase (.readThread id) observation s s
      split
      · rename_i habsent
        obtain ⟨error, rfl, hmissing⟩ := readsAbsent_true habsent
        refine always_mono ?_ (ih (candidates ++ [id]) hrest (hbase.trans hmore) ?_)
        · exact fun r past' s' hpost => ⟨hpost.1, hmore.trans hpost.2.1, hpost.2.2⟩
        · intro t ht
          rcases List.mem_append.1 ht with ht | ht
          · exact hkept t ht
          · rw [List.mem_singleton] at ht
            subst ht
            exact ⟨hids t List.mem_cons_self, hpersisted, error, hread, hmissing⟩
      · refine always_mono ?_ (ih candidates hrest (hbase.trans hmore) hkept)
        exact fun r past' s' hpost => ⟨hpost.1, hmore.trans hpost.2.1, hpost.2.2⟩

theorem ReconcileState.record {operationId id : String} {time : DateTime} {s' : Ledger}
    (h : ReconcileState env start s)
    (hset : setDeletionOutcome env ledgerReadBudget s operationId id .deleted time = .ok s') :
    ReconcileState env start s' := by
  have hconsistent := h.consistent.setDeletionOutcome hset
  have hreadable : Readable env s' := h.readable.setDeletionOutcome (fun hopen => by cases hopen) hset
  obtain ⟨row, hrow, rfl, -, rfl, -⟩ := setDeletionOutcome_ok hset
  refine ⟨hconsistent, hreadable, h.operations, ?_⟩
  intro t
  rw [updateOutcome_lookup]
  split
  · rename_i heq
    subst heq
    right
    rcases h.rows t with hsame | ⟨first, second, hfirst, hsecond, hop, -⟩
    · exact ⟨row, _, hsame ▸ hrow, rfl, rfl, rfl⟩
    · rw [hrow] at hsecond
      cases hsecond
      exact ⟨first, _, hfirst, rfl, hop, rfl⟩
  · exact h.rows t

theorem confirmReceipts_ok {candidates owners : List String} :
    ∀ (receipts : List PendingDeletionReceipt) (confirmed : List String) {past : Events}
      {s : Ledger}, ReconcileState env start s →
      (∀ past' id, past <+: past' → id ∈ candidates → id ∉ owners →
        ReconciliationEvidence roots id past') →
      (confirmReceipts candidates owners confirmed receipts).Always (handler env)
        (ReconcileOk env start roots) (fun _ _ _ => True) past s := by
  intro receipts
  induction receipts with
  | nil => exact fun _ _ _ _ _ => trivial
  | cons receipt receipts ih =>
    intro confirmed past s h hevidence
    unfold confirmReceipts
    split
    · rename_i hcandidate
      refine always_answer ?_
      intro choice
      obtain ⟨available, time⟩ := choice
      rcases hcommit : commit s available (setDeletionOutcome env ledgerReadBudget s
        receipt.operationId receipt.threadId .deleted time) with ⟨answer, s'⟩
      have hcases := commit_cases s available (setDeletionOutcome env ledgerReadBudget s
        receipt.operationId receipt.threadId .deleted time)
      rw [hcommit] at hcases
      rw [show (handler env).answer (Op.setDeletionOutcome receipt.operationId receipt.threadId
        .deleted) (available, time) s = (answer, s') from hcommit]
      have hstate : ReconcileState env start s' := by
        rcases hcases with ⟨hset, -⟩ | ⟨rfl, -⟩
        · exact h.record hset
        · exact h
      refine ⟨⟨rfl, notSaves_outcome, ?_, hstate⟩, ?_⟩
      · intro operationId id hrecords
        obtain ⟨t, t', heq⟩ := hrecords
        cases heq
        exact hevidence past _ (List.prefix_refl _) hcandidate.1 hcandidate.2
      · cases answer with
        | error e => trivial
        | ok u =>
          exact ih _ hstate fun past' id hpre hin hout =>
            hevidence past' id ((List.prefix_append _ _).trans hpre) hin hout
    · exact ih _ h hevidence

theorem only_validateReceipts : ∀ (receipts : List PendingDeletionReceipt) (targets : List String),
    (validateReceipts targets receipts).Only Op.Observes := by
  intro receipts
  induction receipts with
  | nil => exact fun _ => trivial
  | cons receipt receipts ih =>
    intro targets
    refine only_bind (only_require _ _) fun _ => ?_
    exact only_bind (only_require _ _) fun _ => ih _

/-- **Every event of a reconciliation**, against any client, files and storage. -/
theorem reconcile_ok (receipts : List PendingDeletionReceipt) (hc : Consistent env start)
    (hr : Readable env start) :
    (reconcileWithClient roots receipts).Always (handler env) (ReconcileOk env start roots)
      (fun _ _ _ => True) [] start := by
  have h : ReconcileState env start start := ⟨hc, hr, rfl, fun _ => .inl rfl⟩
  refine reconcile_observe h (only_validateReceipts _ _) fun targets past _ => ?_
  refine always_lift (fun _ _ => ?_) (fun _ _ => trivial)
  refine reconcile_observe h (only_ask (only_perform trivial)) fun _ past _ => ?_
  refine always_answer ?_
  have hobserves : (Op.persistedThreads targets).Observes := trivial
  intro (answer : Except ManagementError (List String))
  refine ⟨ReconcileOk.observe hobserves answer h, ?_⟩
  cases answer with
  | error e => trivial
  | ok persisted =>
    have hinventory : Inventory targets persisted (past ++ [⟨start, .persistedThreads targets,
      (Except.ok persisted : Except ManagementError (List String)), start⟩]) :=
      ⟨past, start, start, rfl⟩
    refine always_bind (always_mono ?_ (collectCandidates_ok h targets [] (fun _ h => h)
      (List.prefix_refl _) nofun))
    intro r past₁ s' hpost
    obtain ⟨rfl, hpre, hfound⟩ := hpost
    cases r with
    | error e => trivial
    | ok candidates =>
      have hcandidates := hfound candidates rfl
      change (if candidates = [] then Prog.ret [] else _).Always _ _ _ past₁ s'
      split
      · trivial
      · refine always_bind (always_lift (fun _ _ => ?_) (fun _ _ => trivial))
        refine always_answer ?_
        have hscans : (Op.discoverFiles roots targets).Observes := trivial
        intro (answer : Except ManagementError (List (RolloutFile × String)))
        refine ⟨ReconcileOk.observe hscans answer h, ?_⟩
        have hscan := observedSince_last hpre (.discoverFiles roots targets) answer s' s'
        cases answer with
        | error e => trivial
        | ok files =>
          refine confirmReceipts_ok receipts [] h ?_
          intro past' id hpre' hin hout
          exact ⟨targets, persisted, _, hinventory,
            (hcandidates id hin).mono ((List.prefix_append _ _).trans hpre'),
            files, hscan.mono hpre', hout⟩

end reconciliation

end Deletion
