import Mathlib.Data.List.Dedup
import Mathlib.Data.List.Perm.Subperm
import UsageMonit.Deletion.Proof.Ledger

/-!
# The pending receipts

`receipts_ok`: a consistent ledger within its limits (`Readable`) has its pending receipts, and
they are exactly the unresolved members. `Readable.prepareDelete` and
`Readable.setDeletionOutcome`: the transactions stay within the limits, as long as an outcome does
not reopen a member.
-/

namespace Deletion

open Fallible Time

variable {env : LedgerEnv} {ledger ledger' : Ledger} {redactContent : Bool}
  {operationId threadId : String} {records : List DeletedSessionRecord}

/-- The threads whose current member is unresolved. -/
def Ledger.unresolvedThreads (ledger : Ledger) : List String :=
  (ledger.rows.filter fun row => row.2.record.status.unresolved).map (·.1)

def ValidOperationId (operationId : String) : Prop :=
  operationId ≠ "" ∧ operationId.utf8ByteSize ≤ 256 ∧ noControl operationId = true

/-- A ledger that `pendingDeletionReceipts` can read. -/
structure Readable (env : LedgerEnv) (ledger : Ledger) : Prop where
  operationIds : ∀ t row, ledger.sessions.lookup t = some row → ValidOperationId row.operationId
  withinBudget : WithinBudget env ledgerReadBudget ledger
  unresolved : ledger.unresolvedThreads.length ≤ maxPendingReceipts

theorem rows_empty : Ledger.empty.rows = [] := rfl

theorem Readable.empty : Readable env Ledger.empty := by
  refine ⟨?_, ⟨?_, ?_, ?_⟩, ?_⟩
  · intro t row h
    rw [Ledger.empty, AList.lookup_empty] at h
    cases h
  · rw [rows_empty]
    exact Nat.zero_le _
  · rw [rows_empty]
    exact fun row h => absurd h List.not_mem_nil
  · rw [rows_empty]
    exact Nat.zero_le _
  · rw [Ledger.unresolvedThreads, rows_empty]
    exact Nat.zero_le _

theorem mem_unresolvedThreads {t : String} : t ∈ ledger.unresolvedThreads ↔
    ∃ row, ledger.sessions.lookup t = some row ∧ row.record.status.unresolved = true := by
  unfold Ledger.unresolvedThreads
  rw [List.mem_map]
  constructor
  · intro h
    obtain ⟨⟨t', row⟩, hmem, rfl⟩ := h
    obtain ⟨hrow, hstatus⟩ := List.mem_filter.1 hmem
    exact ⟨row, mem_rows.1 hrow, hstatus⟩
  · intro h
    obtain ⟨row, hrow, hstatus⟩ := h
    exact ⟨(t, row), List.mem_filter.2 ⟨mem_rows.2 hrow, hstatus⟩, rfl⟩

theorem rows_threads_nodup (ledger : Ledger) : (ledger.rows.map (·.1)).Nodup := by
  have hperm : (ledger.rows.map (·.1)).Perm ledger.sessions.keys := by
    refine ((List.perm_insertionSort _ _).map _).trans ?_
    rw [List.map_map]
    exact List.Perm.refl _
  exact hperm.nodup_iff.2 ledger.sessions.nodupKeys

theorem unresolvedThreads_nodup (ledger : Ledger) : ledger.unresolvedThreads.Nodup :=
  (rows_threads_nodup ledger).sublist (List.filter_sublist.map _)

theorem unresolvedThreads_length_le {threads : List String}
    (h : ∀ t ∈ ledger.unresolvedThreads, t ∈ threads) :
    ledger.unresolvedThreads.length ≤ threads.length :=
  (List.subperm_of_subset (unresolvedThreads_nodup ledger) h).length_le

/-! ## Reading the receipts -/

def memberReceipt (row : String × SessionRow) : Option PendingDeletionReceipt :=
  if row.2.record.status.unresolved then some ⟨row.2.operationId, row.1⟩ else none

theorem rowReceipt_ok {row : SessionRow} (hc : Consistent env ledger) (hr : Readable env ledger)
    (h : ledger.sessions.lookup threadId = some row) :
    rowReceipt env ledger threadId row = .ok (memberReceipt (threadId, row)) := by
  have hid : row.operationId ≠ "" ∧ row.operationId.utf8ByteSize ≤ 256 ∧
    noControl row.operationId = true := hr.operationIds threadId row h
  unfold rowReceipt
  rw [ensure_of hid, ok_bind,
    ensure_of (hc.operation threadId row h), ok_bind, hc.valid threadId row h, ok_bind,
    ensure_of (hc.thread threadId row h), ok_bind, hc.outcome threadId row h]
  have hstatus : ensure (row.record.status = row.record.status)
    "current deletion member status disagrees with saved usage evidence" = .ok () := ensure_of rfl
  change (ensure (row.record.status = row.record.status) _ >>= _) = _
  rw [hstatus]
  rfl

theorem collectReceipts_ok (hc : Consistent env ledger) (hr : Readable env ledger) :
    ∀ (rows : List (String × SessionRow)) (bytes count : Nat)
      (receipts : List PendingDeletionReceipt), rows ⊆ ledger.rows →
      bytes + (rows.map fun row => env.encodedLength row.2.record).sum ≤ maxReadBytes →
      count + rows.length ≤ maxRecords →
      receipts.length + (rows.filterMap memberReceipt).length ≤ maxPendingReceipts →
      collectReceipts env ledger bytes count receipts rows =
        .ok (receipts ++ rows.filterMap memberReceipt) := by
  intro rows
  induction rows with
  | nil =>
    intro bytes count receipts _ _ _ _
    rw [collectReceipts, List.filterMap_nil, List.append_nil]
  | cons row rows ih =>
    intro bytes count receipts hrows hbytes hcount hreceipts
    obtain ⟨t, row⟩ := row
    have hmem : (t, row) ∈ ledger.rows := hrows List.mem_cons_self
    have hlength : env.encodedLength row.record ≤ maxRecordBytes :=
      hr.withinBudget.recordBytes (t, row) hmem
    rw [List.map_cons, List.sum_cons] at hbytes
    dsimp only at hbytes
    rw [List.length_cons] at hcount
    have hsaturating : saturatingAdd 64 bytes (env.encodedLength row.record) =
        bytes + env.encodedLength row.record := by
      unfold saturatingAdd maxReadBytes at *
      omega
    have hsplit : ((t, row) :: rows).filterMap memberReceipt =
        (memberReceipt (t, row)).toList ++ rows.filterMap memberReceipt := by
      rw [List.filterMap_cons]
      cases memberReceipt (t, row) <;> rfl
    rw [hsplit, List.length_append] at hreceipts
    have hroom : memberReceipt (t, row) = none ∨ receipts.length < maxPendingReceipts := by
      cases hreceipt : memberReceipt (t, row) with
      | none => exact .inl rfl
      | some receipt =>
        right
        rw [hreceipt] at hreceipts
        simp only [Option.toList_some, List.length_singleton] at hreceipts
        omega
    rw [collectReceipts, hsaturating]
    rw [ensure_of ⟨hlength, by omega, by omega⟩, ok_bind, rowReceipt_ok hc hr (mem_rows.1 hmem),
      ok_bind, ensure_of hroom, ok_bind, ih _ _ _ (fun r h => hrows (List.mem_cons_of_mem _ h))
        (by omega) (by omega) (by rw [List.length_append]; omega), hsplit, List.append_assoc]

/-- **The pending receipts are the unresolved members.** -/
theorem receipts_ok (hc : Consistent env ledger) (hr : Readable env ledger) :
    ∃ receipts, pendingDeletionReceipts env ledger = .ok receipts ∧
      ∀ operationId threadId, ⟨operationId, threadId⟩ ∈ receipts ↔
        ∃ row, ledger.sessions.lookup threadId = some row ∧ row.operationId = operationId ∧
          row.record.status.unresolved = true := by
  have hfilter : ∀ rows : List (String × SessionRow), (rows.filterMap memberReceipt).length =
      (rows.filter fun row => row.2.record.status.unresolved).length := by
    intro rows
    induction rows with
    | nil => rfl
    | cons row rows ih =>
      rw [List.filterMap_cons, List.filter_cons]
      cases hstatus : row.2.record.status.unresolved with
      | true => simpa [memberReceipt, hstatus] using ih
      | false => simpa [memberReceipt, hstatus] using ih
  have hcount := hr.unresolved
  unfold Ledger.unresolvedThreads at hcount
  rw [List.length_map] at hcount
  refine ⟨ledger.rows.filterMap memberReceipt, ?_, ?_⟩
  · have hbytes : 0 + (ledger.rows.map fun row => env.encodedLength row.2.record).sum ≤
        maxReadBytes := by
      rw [Nat.zero_add]
      exact hr.withinBudget.totalBytes
    have hrecords : 0 + ledger.rows.length ≤ maxRecords := by
      rw [Nat.zero_add]
      exact hr.withinBudget.records
    have hread := collectReceipts_ok hc hr ledger.rows 0 0 [] (List.Subset.refl _) hbytes hrecords
      (by rwa [List.length_nil, Nat.zero_add, hfilter])
    rwa [List.nil_append] at hread
  · intro operationId threadId
    rw [List.mem_filterMap]
    constructor
    · intro h
      obtain ⟨⟨t, row⟩, hmem, hreceipt⟩ := h
      unfold memberReceipt at hreceipt
      split at hreceipt
      · cases hreceipt
        exact ⟨row, mem_rows.1 hmem, rfl, by assumption⟩
      · cases hreceipt
    · intro h
      obtain ⟨row, hrow, rfl, hstatus⟩ := h
      exact ⟨(threadId, row), mem_rows.2 hrow, if_pos hstatus⟩

/-! ## The transactions -/

theorem Readable.prepareDelete (hr : Readable env ledger) (hc : Consistent env ledger)
    (hid : noControl operationId = true)
    (published : Published env ledgerReadBudget ledger ledger' operationId records) :
    Readable env ledger' := by
  refine ⟨?_, published.withinBudget, ?_⟩
  · intro t row h
    by_cases ht : t ∈ records.map (·.threadId)
    · obtain ⟨record, hrecord, rfl⟩ := List.mem_map.1 ht
      obtain ⟨row', hrow', rfl, -, -⟩ := published.members record hrecord
      rw [hrow'] at h
      cases h
      exact ⟨published.idLength.1, published.idLength.2, hid⟩
    · rw [published.frame t ht] at h
      exact hr.operationIds t row h
  · obtain ⟨receipts, hreceipts, hlength⟩ := published.unresolved
    obtain ⟨receipts', hreceipts', hmem⟩ := receipts_ok hc hr
    rw [hreceipts] at hreceipts'
    cases hreceipts'
    refine Nat.le_trans (unresolvedThreads_length_le ?_) hlength
    intro t ht
    rw [List.mem_dedup, List.mem_append]
    by_cases hrecord : t ∈ records.map (·.threadId)
    · exact .inr hrecord
    · left
      obtain ⟨row, hrow, hstatus⟩ := mem_unresolvedThreads.1 ht
      rw [published.frame t hrecord] at hrow
      exact List.mem_map.2 ⟨⟨row.operationId, t⟩, (hmem _ _).2 ⟨row, hrow, rfl, hstatus⟩, rfl⟩

theorem Readable.setDeletionOutcome {status : DeletionStatus} {time : DateTime}
    (hr : Readable env ledger)
    (hopen : status.unresolved = true → ∀ row, ledger.sessions.lookup threadId = some row →
      row.record.status.unresolved = true)
    (h : setDeletionOutcome env ledgerReadBudget ledger operationId threadId status time =
      .ok ledger') : Readable env ledger' := by
  obtain ⟨row, hrow, rfl, -, rfl, hbudget⟩ := setDeletionOutcome_ok h
  refine ⟨?_, hbudget, ?_⟩
  · intro t r hlookup
    rw [updateOutcome_lookup] at hlookup
    split at hlookup
    · cases hlookup
      exact hr.operationIds threadId row hrow
    · exact hr.operationIds t r hlookup
  · refine Nat.le_trans (unresolvedThreads_length_le ?_) hr.unresolved
    intro t ht
    obtain ⟨r, hlookup, hstatus⟩ := mem_unresolvedThreads.1 ht
    rw [updateOutcome_lookup] at hlookup
    split at hlookup
    · cases hlookup
      subst_vars
      exact mem_unresolvedThreads.2 ⟨row, hrow, hopen hstatus row hrow⟩
    · exact mem_unresolvedThreads.2 ⟨r, hlookup, hstatus⟩

end Deletion
