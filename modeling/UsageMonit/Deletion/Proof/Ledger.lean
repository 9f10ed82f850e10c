import UsageMonit.Deletion.Ledger

/-!
# The transactions of the deletion ledger

One spec lemma for each function of the ledger, down to the two transactions:

* `validate_ok`: what a valid record is
* `mergeCalls_ok`, `mergeSavedRecord_ok`: a merged record holds the calls of both records
* `prepareDelete_ok`: what a committed `prepareDelete` has published (`Published`)
* `setDeletionOutcome_ok`: what a committed `setDeletionOutcome` has changed
* `Consistent.prepareDelete`, `Consistent.setDeletionOutcome`: every row is a valid record of its
  thread, under a known operation whose outcome agrees with the record's status
-/

namespace Deletion

open Fallible Time

variable {env : LedgerEnv} {budget : LedgerReadBudget} {ledger ledger' : Ledger}
  {redactContent : Bool} {operationId threadId : String} {records : List DeletedSessionRecord}
  {record : DeletedSessionRecord}

/-! ## Records -/

structure ValidCalls (env : LedgerEnv) (record : DeletedSessionRecord) (keys : List String)
    (calls : List DeletedUsageCall) : Prop where
  owner : ∀ call ∈ calls, call.threadId = record.threadId ∧ call.timestamp ≤ record.capturedAt
  fresh : ∀ call ∈ calls, call.key env ∉ keys
  distinct : (calls.map (·.key env)).Nodup
  texts : ∀ call ∈ calls, ∀ text ∈ call.texts, text.utf8ByteSize ≤ 4096 ∧ noControl text = true

theorem validateCalls_ok {calls : List DeletedUsageCall} :
    ∀ {keys : List String}, record.validateCalls env keys calls = .ok () →
      ValidCalls env record keys calls := by
  induction calls with
  | nil =>
    intro keys _
    exact ⟨by simp, by simp, by simp, by simp⟩
  | cons call calls ih =>
    intro keys h
    rw [DeletedSessionRecord.validateCalls] at h
    obtain ⟨_, howner, h⟩ := bind_ok h
    obtain ⟨_, hfresh, h⟩ := bind_ok h
    obtain ⟨_, htexts, h⟩ := bind_ok h
    rw [ensure_ok] at howner hfresh htexts
    have rest := ih h
    refine ⟨?_, ?_, ?_, ?_⟩
    · simpa using ⟨howner, rest.owner⟩
    · intro c hc
      rcases List.mem_cons.1 hc with rfl | hc
      · exact hfresh
      · exact fun hk => rest.fresh c hc (List.mem_cons_of_mem _ hk)
    · rw [List.map_cons, List.nodup_cons]
      refine ⟨?_, rest.distinct⟩
      intro hmem
      obtain ⟨c, hc, hkey⟩ := List.mem_map.1 hmem
      exact rest.fresh c hc (by rw [hkey]; exact List.mem_cons_self)
    · simpa using ⟨htexts, rest.texts⟩

theorem validate_ok (h : record.validate env = .ok ()) : ValidCalls env record [] record.calls := by
  iterate 4 obtain ⟨_, -, h⟩ := bind_ok h
  exact validateCalls_ok h

theorem mergeCalls_ok {calls : List DeletedUsageCall} :
    ∀ {saved merged : List DeletedUsageCall}, mergeCalls env saved calls = .ok merged →
      ∀ c, c ∈ merged ↔ c ∈ saved ∨ c ∈ calls := by
  induction calls with
  | nil =>
    intro saved merged h c
    cases h
    simp
  | cons call calls ih =>
    intro saved merged h c
    rw [mergeCalls] at h
    split at h
    · rename_i previous hfind
      obtain ⟨_, heq, hrest⟩ := bind_ok h
      rw [ensure_ok] at heq
      subst heq
      have hsaved : previous ∈ saved := List.mem_of_find?_eq_some hfind
      rw [ih hrest c, List.mem_cons]
      constructor
      · intro hc
        exact hc.imp id Or.inr
      · intro hc
        rcases hc with hc | rfl | hc
        · exact .inl hc
        · exact .inl hsaved
        · exact .inr hc
    · rw [ih h c, List.mem_append, List.mem_singleton, List.mem_cons, or_assoc]

theorem mergeSavedRecord_ok {previous incoming merged : DeletedSessionRecord} {seed : String}
    (h : mergeSavedRecord env seed previous incoming = .ok merged) :
    merged.threadId = incoming.threadId ∧ merged.status = incoming.status ∧
      merged.validate env = .ok () ∧
      ∀ c, c ∈ merged.calls ↔ c ∈ previous.calls ∨ c ∈ incoming.calls := by
  iterate 3 obtain ⟨_, -, h⟩ := bind_ok h
  obtain ⟨calls, hcalls, h⟩ := bind_ok h
  obtain ⟨_, hvalid, h⟩ := bind_ok h
  cases h
  refine ⟨rfl, rfl, hvalid, ?_⟩
  intro c
  rw [← mergeCalls_ok hcalls c]
  exact (List.mem_insertionSort _).trans (env.intoValues_perm seed calls).mem_iff

/-! ## Rows -/

def Ledger.savedCalls (ledger : Ledger) (threadId : String) : List DeletedUsageCall :=
  match ledger.sessions.lookup threadId with
  | none => []
  | some row => row.record.calls

theorem savedCalls_of_lookup {row : SessionRow} (h : ledger.sessions.lookup threadId = some row) :
    ledger.savedCalls threadId = row.record.calls := by
  unfold Ledger.savedCalls
  rw [h]

theorem savedCalls_congr (h : ledger'.sessions.lookup threadId = ledger.sessions.lookup threadId) :
    ledger'.savedCalls threadId = ledger.savedCalls threadId := by
  unfold Ledger.savedCalls
  rw [h]

theorem mem_rows {row : SessionRow} :
    (threadId, row) ∈ ledger.rows ↔ ledger.sessions.lookup threadId = some row := by
  unfold Ledger.rows
  rw [List.mem_insertionSort, List.mem_map, ← Option.mem_def, AList.mem_lookup_iff]
  constructor
  · intro h
    obtain ⟨⟨t, r⟩, hmem, heq⟩ := h
    cases heq
    exact hmem
  · intro h
    exact ⟨⟨threadId, row⟩, h, rfl⟩

/-- Every row is a valid record of its thread, under a known operation whose outcome agrees with
the record's status. -/
structure Consistent (env : LedgerEnv) (ledger : Ledger) : Prop where
  thread : ∀ t row, ledger.sessions.lookup t = some row → row.record.threadId = t
  valid : ∀ t row, ledger.sessions.lookup t = some row → row.record.validate env = .ok ()
  operation : ∀ t row, ledger.sessions.lookup t = some row → row.operationId ∈ ledger.operations
  outcome : ∀ t row, ledger.sessions.lookup t = some row →
    ledger.outcomes.lookup (row.operationId, t) = some row.record.status

theorem Consistent.empty : Consistent env Ledger.empty := by
  have none : ∀ t row, Ledger.empty.sessions.lookup t ≠ some row := by
    intro t row h
    rw [Ledger.empty, AList.lookup_empty] at h
    cases h
  exact ⟨fun t row h => absurd h (none t row), fun t row h => absurd h (none t row),
    fun t row h => absurd h (none t row), fun t row h => absurd h (none t row)⟩

/-! ## Publishing the members of an operation -/

theorem mergePrevious_ok {merged : DeletedSessionRecord} {seed : String}
    (h : mergePrevious env seed ledger record = .ok merged)
    (hvalid : record.validate env = .ok ()) :
    merged.threadId = record.threadId ∧ merged.status = record.status ∧
      merged.validate env = .ok () ∧
      ∀ c, c ∈ merged.calls ↔ c ∈ ledger.savedCalls record.threadId ∨ c ∈ record.calls := by
  unfold mergePrevious at h
  cases hsaved : ledger.sessions.lookup record.threadId with
  | none =>
    rw [hsaved] at h
    rw [Ledger.savedCalls, hsaved]
    cases h
    exact ⟨rfl, rfl, hvalid, by simp⟩
  | some previous =>
    rw [hsaved] at h
    obtain ⟨_, -, h⟩ := bind_ok h
    rw [savedCalls_of_lookup hsaved]
    exact mergeSavedRecord_ok h

/-- What the ledger holds of a member: a pending row under the operation with the calls that were
saved before and the captured ones. -/
def HoldsPending (before after : Ledger) (operationId : String) (record : DeletedSessionRecord) :
    Prop :=
  ∃ row, after.sessions.lookup record.threadId = some row ∧ row.operationId = operationId ∧
    row.record.status = .pending ∧
    ∀ c, c ∈ row.record.calls ↔ c ∈ before.savedCalls record.threadId ∨ c ∈ record.calls

theorem publishRecord_ok (h : publishRecord env operationId ledger record = .ok ledger')
    (hvalid : record.validate env = .ok ()) (hpending : record.status = .pending) :
    (∃ merged, ledger' = ledger.publish operationId merged ∧
      merged.threadId = record.threadId ∧ merged.status = .pending ∧
      merged.validate env = .ok ()) ∧ HoldsPending ledger ledger' operationId record := by
  obtain ⟨merged, hmerged, h⟩ := bind_ok h
  obtain ⟨_, -, h⟩ := bind_ok h
  obtain ⟨_, -, h⟩ := bind_ok h
  cases h
  obtain ⟨hthread, hstatus, hval, hcalls⟩ := mergePrevious_ok hmerged hvalid
  refine ⟨⟨merged, rfl, hthread, hstatus.trans hpending, hval⟩, ⟨operationId, merged⟩, ?_, rfl,
    hstatus.trans hpending, hcalls⟩
  unfold Ledger.publish
  rw [hthread]
  exact AList.lookup_insert _

theorem publish_lookup_ne (hne : threadId ≠ record.threadId) :
    (ledger.publish operationId record).sessions.lookup threadId =
      ledger.sessions.lookup threadId := AList.lookup_insert_ne hne

theorem Consistent.publish {record : DeletedSessionRecord} (hc : Consistent env ledger)
    (hop : operationId ∈ ledger.operations) (hvalid : record.validate env = .ok ())
    (hpending : record.status = .pending) :
    Consistent env (ledger.publish operationId record) := by
  -- a row is the published one or an older one
  have rows : ∀ t row, (ledger.publish operationId record).sessions.lookup t = some row →
      (t = record.threadId ∧ row = ⟨operationId, record⟩) ∨
        (t ≠ record.threadId ∧ ledger.sessions.lookup t = some row) := by
    intro t row h
    by_cases ht : t = record.threadId
    · subst ht
      left
      have hself : (ledger.publish operationId record).sessions.lookup record.threadId =
        some ⟨operationId, record⟩ := AList.lookup_insert _
      rw [hself] at h
      exact ⟨rfl, (Option.some.inj h).symm⟩
    · rw [publish_lookup_ne ht] at h
      exact .inr ⟨ht, h⟩
  refine ⟨?_, ?_, ?_, ?_⟩ <;> intro t row h
  · rcases rows t row h with ⟨rfl, rfl⟩ | ⟨-, h⟩
    · rfl
    · exact hc.thread t row h
  · rcases rows t row h with ⟨rfl, rfl⟩ | ⟨-, h⟩
    · exact hvalid
    · exact hc.valid t row h
  · rcases rows t row h with ⟨rfl, rfl⟩ | ⟨-, h⟩
    · exact hop
    · exact hc.operation t row h
  · rcases rows t row h with ⟨rfl, rfl⟩ | ⟨hne, h⟩
    · rw [hpending]
      exact AList.lookup_insert _
    · have hkey : (row.operationId, t) ≠ (operationId, record.threadId) := by
        intro heq
        exact hne (Prod.mk.inj heq).2
      exact (AList.lookup_insert_ne hkey).trans (hc.outcome t row h)

/-- **The members of an operation are published one after another**, each beside what the others
left. -/
theorem publishRecords_ok : ∀ {records : List DeletedSessionRecord} {ledger : Ledger},
    publishRecords env operationId ledger records = .ok ledger' →
    Consistent env ledger → operationId ∈ ledger.operations →
    (∀ record ∈ records, record.validate env = .ok () ∧ record.status = .pending) →
    (records.map (·.threadId)).Nodup →
    Consistent env ledger' ∧ ledger'.operations = ledger.operations ∧
      (∀ t, t ∉ records.map (·.threadId) →
        ledger'.sessions.lookup t = ledger.sessions.lookup t) ∧
      ∀ record ∈ records, HoldsPending ledger ledger' operationId record := by
  intro records
  induction records with
  | nil =>
    intro ledger h hc _ _ _
    cases h
    exact ⟨hc, rfl, fun _ _ => rfl, by simp⟩
  | cons record records ih =>
    intro ledger h hc hop hrecords hnodup
    obtain ⟨next, hnext, h⟩ := bind_ok h
    obtain ⟨hvalid, hpending⟩ := hrecords record List.mem_cons_self
    obtain ⟨⟨merged, rfl, hthread, hstatus, hval⟩, hholds⟩ :=
      publishRecord_ok hnext hvalid hpending
    rw [List.map_cons, List.nodup_cons] at hnodup
    obtain ⟨hc', hops, hframe, hrest⟩ := ih h (hc.publish hop hval hstatus) hop
      (fun r hr => hrecords r (List.mem_cons_of_mem _ hr)) hnodup.2
    have hold : ∀ t, t ≠ record.threadId →
        (ledger.publish operationId merged).sessions.lookup t = ledger.sessions.lookup t := by
      intro t ht
      exact publish_lookup_ne (by rwa [hthread])
    refine ⟨hc', hops, ?_, ?_⟩
    · intro t ht
      rw [List.map_cons, List.mem_cons, not_or] at ht
      exact (hframe t ht.2).trans (hold t ht.1)
    · intro r hr
      rcases List.mem_cons.1 hr with rfl | hr
      · -- the later members leave this row alone
        obtain ⟨row, hrow, hholds⟩ := hholds
        exact ⟨row, (hframe _ hnodup.1).trans hrow, hholds⟩
      · obtain ⟨row, hrow, hrop, hrs, hcalls⟩ := hrest r hr
        have hne : r.threadId ≠ record.threadId := by
          intro heq
          exact hnodup.1 (heq ▸ List.mem_map_of_mem hr)
        rw [savedCalls_congr (hold _ hne)] at hcalls
        exact ⟨row, hrow, hrop, hrs, hcalls⟩

theorem preparePayloads_ok : ∀ {records : List DeletedSessionRecord} {ids : List String}
    {bytes : Nat} {payloads : List DeletedSessionRecord},
    preparePayloads env redactContent ids bytes records = .ok payloads →
    payloads = records.map (pendingRecord env redactContent) ∧
      (∀ payload ∈ payloads, payload.validate env = .ok ()) ∧
      (∀ record ∈ records, record.threadId ∉ ids) ∧ (records.map (·.threadId)).Nodup := by
  intro records
  induction records with
  | nil =>
    intro ids bytes payloads h
    cases h
    simp
  | cons record records ih =>
    intro ids bytes payloads h
    obtain ⟨_, hfresh, h⟩ := bind_ok h
    obtain ⟨_, hvalid, h⟩ := bind_ok h
    obtain ⟨_, -, h⟩ := bind_ok h
    obtain ⟨rest, hrest, h⟩ := bind_ok h
    cases h
    rw [ensure_ok] at hfresh
    obtain ⟨rfl, hvalids, hfreshs, hnodup⟩ := ih hrest
    refine ⟨rfl, ?_, ?_, ?_⟩
    · simpa using ⟨hvalid, by simpa using hvalids⟩
    · intro r hr
      rcases List.mem_cons.1 hr with rfl | hr
      · exact hfresh
      · exact fun hk => hfreshs r hr (List.mem_cons_of_mem _ hk)
    · rw [List.map_cons, List.nodup_cons]
      refine ⟨?_, hnodup⟩
      intro hmem
      obtain ⟨r, hr, heq⟩ := List.mem_map.1 hmem
      exact hfreshs r hr (by rw [heq]; exact List.mem_cons_self)

/-! ## The transactions -/

/-- The size checks that a committed transaction has passed. -/
structure WithinBudget (env : LedgerEnv) (budget : LedgerReadBudget) (ledger : Ledger) :
    Prop where
  records : ledger.rows.length ≤ budget.records
  recordBytes : ∀ row ∈ ledger.rows, env.encodedLength row.2.record ≤ budget.recordBytes
  totalBytes : (ledger.rows.map fun row => env.encodedLength row.2.record).sum ≤ budget.totalBytes

theorem validateLedgerReadBudget_ok
    (h : validateLedgerReadBudget env ledger budget = .ok ()) :
    WithinBudget env budget ledger := by
  obtain ⟨_, hrecords, h⟩ := bind_ok h
  obtain ⟨_, hrecord, h⟩ := bind_ok h
  rw [ensure_ok] at hrecords hrecord h
  exact ⟨by simpa using hrecords, fun row hrow => hrecord _ (List.mem_map_of_mem hrow), h⟩

/-- What a committed `prepareDelete` has published. -/
structure Published (env : LedgerEnv) (budget : LedgerReadBudget) (before after : Ledger)
    (operationId : String) (records : List DeletedSessionRecord) : Prop where
  nonempty : records ≠ []
  idLength : operationId ≠ "" ∧ operationId.utf8ByteSize ≤ 256
  fresh : operationId ∉ before.operations
  operations : after.operations = operationId :: before.operations
  distinct : (records.map (·.threadId)).Nodup
  frame : ∀ t, t ∉ records.map (·.threadId) →
    after.sessions.lookup t = before.sessions.lookup t
  members : ∀ record ∈ records, HoldsPending before after operationId record
  unresolved : ∃ receipts, pendingDeletionReceipts env before = .ok receipts ∧
    (receipts.map (·.threadId) ++ records.map (·.threadId)).dedup.length ≤ maxPendingReceipts
  consistent : Consistent env after
  withinBudget : WithinBudget env budget after

theorem Consistent.addOperation (hc : Consistent env ledger) (operationId : String) :
    Consistent env { ledger with operations := operationId :: ledger.operations } :=
  ⟨hc.thread, hc.valid, fun t row h => List.mem_cons_of_mem _ (hc.operation t row h), hc.outcome⟩

theorem prepareDelete_ok (hc : Consistent env ledger)
    (h : prepareDelete env redactContent budget ledger operationId records = .ok ledger') :
    Published env budget ledger ledger' operationId records := by
  obtain ⟨_, hargs, h⟩ := bind_ok h
  obtain ⟨payloads, hpayloads, h⟩ := bind_ok h
  obtain ⟨receipts, hreceipts, h⟩ := bind_ok h
  obtain ⟨_, hpending, h⟩ := bind_ok h
  obtain ⟨_, hfresh, h⟩ := bind_ok h
  obtain ⟨next, hnext, h⟩ := bind_ok h
  obtain ⟨_, hbudget, h⟩ := bind_ok h
  cases h
  rw [ensure_ok] at hargs hpending hfresh
  obtain ⟨rfl, hvalids, -, hnodup⟩ := preparePayloads_ok hpayloads
  have hthreads : (records.map (pendingRecord env redactContent)).map (·.threadId) =
      records.map (·.threadId) := by
    rw [List.map_map]
    rfl
  rw [hthreads] at hpending
  obtain ⟨hcons, hops, hframe, hmembers⟩ := publishRecords_ok hnext (hc.addOperation operationId)
    List.mem_cons_self
    (fun record hrecord => ⟨hvalids record hrecord, by
      obtain ⟨r, -, rfl⟩ := List.mem_map.1 hrecord
      rfl⟩)
    (by rwa [hthreads])
  exact {
    nonempty := hargs.2.2
    idLength := ⟨hargs.1, hargs.2.1⟩
    fresh := hfresh
    operations := hops
    distinct := hnodup
    frame := fun t ht => hframe t (by rwa [hthreads])
    members := fun record hrecord =>
      hmembers (pendingRecord env redactContent record) (List.mem_map_of_mem hrecord)
    unresolved := ⟨receipts, hreceipts, hpending⟩
    consistent := hcons
    withinBudget := validateLedgerReadBudget_ok hbudget }

theorem memberRow_eq_some {row : SessionRow} :
    ledger.memberRow operationId threadId = some row ↔
      ledger.sessions.lookup threadId = some row ∧ row.operationId = operationId := by
  unfold Ledger.memberRow
  rw [Option.filter_eq_some_iff, decide_eq_true_eq]

theorem setDeletionOutcome_ok {status : DeletionStatus} {time : DateTime}
    (h : setDeletionOutcome env budget ledger operationId threadId status time = .ok ledger') :
    ∃ row, ledger.sessions.lookup threadId = some row ∧ row.operationId = operationId ∧
      (row.record.withOutcome status time).validate env = .ok () ∧
      ledger' = ledger.updateOutcome operationId threadId (row.record.withOutcome status time) ∧
      WithinBudget env budget ledger' := by
  obtain ⟨row, hrow, h⟩ := bind_ok h
  obtain ⟨_, -, h⟩ := bind_ok h
  obtain ⟨_, hvalid, h⟩ := bind_ok h
  obtain ⟨_, hbudget, h⟩ := bind_ok h
  cases h
  rw [okOr_ok, memberRow_eq_some] at hrow
  exact ⟨row, hrow.1, hrow.2, hvalid, rfl, validateLedgerReadBudget_ok hbudget⟩

theorem updateOutcome_lookup (ledger : Ledger) (operationId threadId t : String)
    (record : DeletedSessionRecord) :
    (ledger.updateOutcome operationId threadId record).sessions.lookup t =
      if t = threadId then some ⟨operationId, record⟩ else ledger.sessions.lookup t := by
  by_cases ht : t = threadId
  · subst ht
    rw [if_pos rfl]
    exact AList.lookup_insert _
  · rw [if_neg ht]
    exact AList.lookup_insert_ne ht

theorem Consistent.setDeletionOutcome {status : DeletionStatus} {time : DateTime}
    (hc : Consistent env ledger)
    (h : setDeletionOutcome env budget ledger operationId threadId status time = .ok ledger') :
    Consistent env ledger' := by
  obtain ⟨row, hrow, rfl, hvalid, rfl, -⟩ := setDeletionOutcome_ok h
  have rows : ∀ t r, (ledger.updateOutcome row.operationId threadId
      (row.record.withOutcome status time)).sessions.lookup t = some r →
      (t = threadId ∧ r = ⟨row.operationId, row.record.withOutcome status time⟩) ∨
        (t ≠ threadId ∧ ledger.sessions.lookup t = some r) := by
    intro t r h
    rw [updateOutcome_lookup] at h
    split at h
    · exact .inl ⟨‹_›, (Option.some.inj h).symm⟩
    · exact .inr ⟨‹_›, h⟩
  have hmem : (row.operationId, threadId) ∈ ledger.outcomes := by
    rw [← AList.lookup_isSome, hc.outcome threadId row hrow]
    rfl
  refine ⟨?_, ?_, ?_, ?_⟩ <;> intro t r h
  · rcases rows t r h with ⟨rfl, rfl⟩ | ⟨-, h⟩
    · exact hc.thread t row hrow
    · exact hc.thread t r h
  · rcases rows t r h with ⟨rfl, rfl⟩ | ⟨-, h⟩
    · exact hvalid
    · exact hc.valid t r h
  · rcases rows t r h with ⟨rfl, rfl⟩ | ⟨-, h⟩
    · exact hc.operation t row hrow
    · exact hc.operation t r h
  · unfold Ledger.updateOutcome
    rw [if_pos hmem]
    rcases rows t r h with ⟨rfl, rfl⟩ | ⟨hne, h⟩
    · exact AList.lookup_insert _
    · have hkey : (r.operationId, t) ≠ (row.operationId, threadId) := by
        intro heq
        exact hne (Prod.mk.inj heq).2
      exact (AList.lookup_insert_ne hkey).trans (hc.outcome t r h)

/-! ## Runs -/

theorem Consistent.transaction {call : LedgerCall} (hc : Consistent env ledger)
    (h : call.transaction env budget ledger = .ok ledger') : Consistent env ledger' := by
  cases call with
  | prepareDelete redactContent operationId records => exact (prepareDelete_ok hc h).consistent
  | setDeletionOutcome operationId threadId status time => exact hc.setDeletionOutcome h

theorem transaction_savedCalls {call : LedgerCall} (hc : Consistent env ledger)
    (h : call.transaction env budget ledger = .ok ledger') (t : String) :
    ledger.savedCalls t ⊆ ledger'.savedCalls t := by
  cases call with
  | prepareDelete redactContent operationId records =>
    have published := prepareDelete_ok hc h
    by_cases ht : t ∈ records.map (·.threadId)
    · obtain ⟨record, hrecord, rfl⟩ := List.mem_map.1 ht
      obtain ⟨row, hrow, -, -, hcalls⟩ := published.members record hrecord
      rw [savedCalls_of_lookup hrow]
      exact fun c hc => (hcalls c).2 (.inl hc)
    · rw [savedCalls_congr (published.frame t ht)]
      exact List.Subset.refl _
  | setDeletionOutcome operationId threadId status time =>
    obtain ⟨row, hrow, rfl, -, rfl, -⟩ := setDeletionOutcome_ok h
    unfold Ledger.savedCalls
    rw [updateOutcome_lookup]
    by_cases ht : t = threadId
    · subst ht
      rw [if_pos rfl, hrow]
      exact List.Subset.refl _
    · rw [if_neg ht]
      exact List.Subset.refl _

theorem step_cases (env : LedgerEnv) (budget : LedgerReadBudget) (ledger : Ledger)
    (call : LedgerCall × Bool) :
    call.1.transaction env budget ledger = .ok (ledger.step env budget call) ∨
      ledger.step env budget call = ledger := by
  unfold Ledger.step
  split
  · left
    assumption
  · right
    rfl

theorem Consistent.run (calls : List (LedgerCall × Bool)) :
    ∀ {ledger : Ledger}, Consistent env ledger → Consistent env (ledger.run env budget calls) := by
  induction calls with
  | nil => exact fun h => h
  | cons call calls ih =>
    intro ledger hc
    refine ih ?_
    rcases step_cases env budget ledger call with h | h
    · exact hc.transaction h
    · rw [h]
      exact hc

theorem run_savedCalls (t : String) (calls : List (LedgerCall × Bool)) :
    ∀ {ledger : Ledger}, Consistent env ledger →
      ledger.savedCalls t ⊆ (ledger.run env budget calls).savedCalls t := by
  induction calls with
  | nil => exact fun _ => List.Subset.refl _
  | cons call calls ih =>
    intro ledger hc
    rcases step_cases env budget ledger call with h | h
    · exact List.Subset.trans (transaction_savedCalls hc h t) (ih (hc.transaction h))
    · have hrun : ledger.run env budget (call :: calls) = ledger.run env budget calls := by
        unfold Ledger.run
        rw [List.foldl_cons, h]
      rw [hrun]
      exact ih hc

theorem Consistent.distinct (hc : Consistent env ledger) (t : String) :
    ((ledger.savedCalls t).map (·.key env)).Nodup := by
  unfold Ledger.savedCalls
  cases h : ledger.sessions.lookup t with
  | none => exact List.nodup_nil
  | some row => exact (validate_ok (hc.valid t row h)).distinct

end Deletion
