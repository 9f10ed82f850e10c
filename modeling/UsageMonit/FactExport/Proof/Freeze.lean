import UsageMonit.Export.Proof.Append
import UsageMonit.FactExport.Proof.Token

/-!
# Freezing

A batch that `frozen_batch_changes` accepts fits a journal (`frozenBatchChanges_ok`), and freezing
it gives the journal with its header and its records in order (`freezeBatch_ok`).
-/

namespace FactExport

open Fallible Time Export

section
variable {φ : Type} (codec : FactCodec φ)

/-- The changes of the records, numbered from `index`. -/
def entryChanges : Nat → List (FrozenFactRecord φ) → List RemoteExportChange
  | _, [] => []
  | index, record :: records =>
    ⟨entryChangeId index, codec.encodeEntry (.record record)⟩ :: entryChanges (index + 1) records

def batchChanges (header : FrozenBatchHeader) (records : List (FrozenFactRecord φ)) :
    List RemoteExportChange :=
  ⟨"header", codec.encodeEntry (.header header)⟩ :: entryChanges codec 0 records

variable {codec}

theorem entryChanges_length : ∀ (index : Nat) (records : List (FrozenFactRecord φ)),
    (entryChanges codec index records).length = records.length
  | _, [] => rfl
  | index, record :: records => by simp [entryChanges, entryChanges_length (index + 1) records]

theorem batchChanges_length (header : FrozenBatchHeader) (records : List (FrozenFactRecord φ)) :
    (batchChanges codec header records).length = records.length + 1 := by
  rw [batchChanges, List.length_cons, entryChanges_length]

theorem mem_entryChanges : ∀ {index : Nat} {records : List (FrozenFactRecord φ)}
    {c : RemoteExportChange}, c ∈ entryChanges codec index records →
    ∃ i, index ≤ i ∧ c.changeId = entryChangeId i
  | _, [], _, h => by cases h
  | index, record :: records, c, h => by
    rcases List.mem_cons.1 h with rfl | h
    · exact ⟨index, le_refl _, rfl⟩
    · obtain ⟨i, hi, hc⟩ := mem_entryChanges h
      exact ⟨i, by omega, hc⟩

theorem entryChanges_ids : ∀ (index : Nat) (records : List (FrozenFactRecord φ)),
    ((entryChanges codec index records).map (·.changeId)).Nodup
  | _, [] => List.nodup_nil
  | index, record :: records => by
    rw [entryChanges, List.map_cons, List.nodup_cons]
    refine ⟨fun hmem => ?_, entryChanges_ids (index + 1) records⟩
    obtain ⟨c, hc, hid⟩ := List.mem_map.1 hmem
    obtain ⟨i, hi, hci⟩ := mem_entryChanges hc
    have := entryChangeId_inj (hci.symm.trans hid)
    omega

theorem batchChanges_ids (header : FrozenBatchHeader) (records : List (FrozenFactRecord φ)) :
    ((batchChanges codec header records).map (·.changeId)).Nodup := by
  rw [batchChanges, List.map_cons, List.nodup_cons]
  refine ⟨fun hmem => ?_, entryChanges_ids 0 records⟩
  obtain ⟨c, hc, hid⟩ := List.mem_map.1 hmem
  obtain ⟨i, -, hci⟩ := mem_entryChanges hc
  exact entryChangeId_ne_header i (hci.symm.trans hid)

@[simp] theorem internal_ok {α : Type} {x : Except String α} {a : α} :
    internal x = .ok a ↔ x = .ok a := by
  cases x <;> simp [internal, Except.mapError]

theorem checked_ok {changeId : String} {payload : List UInt8} {c : RemoteExportChange}
    (h : RemoteExportChange.checked changeId payload = .ok c) :
    c = ⟨changeId, payload⟩ ∧ c.validate = .ok () := by
  obtain ⟨_, hv, h⟩ := bind_ok h
  cases h
  exact ⟨rfl, hv⟩

theorem addSerializedBatchBytes_ok {current incoming total : Nat}
    (h : addSerializedBatchBytes current incoming = .ok total) :
    total = current + incoming ∧ total ≤ maxCompleteFactBatchSerializedBytes := by
  obtain ⟨sum, hsum, h⟩ := bind_ok h
  obtain ⟨_, hle, h⟩ := bind_ok h
  cases h
  exact ⟨(checkedAdd_eq_some (okOr_ok.1 hsum)).1, not_lt.1 (ensure_ok.1 hle)⟩

theorem frozenRecordChanges_ok : ∀ {records : List (FrozenFactRecord φ)} {index bytes : Nat}
    {changes : List RemoteExportChange}, bytes ≤ maxCompleteFactBatchSerializedBytes →
    frozenRecordChanges codec records index bytes = .ok changes →
    changes = entryChanges codec index records ∧ (∀ c ∈ changes, c.validate = .ok ()) ∧
      bytes + (changes.map (·.payload.length)).sum ≤ maxCompleteFactBatchSerializedBytes
  | [], _, _, _, hb, h => by
    cases h
    exact ⟨rfl, by simp, by simpa using hb⟩
  | record :: records, index, bytes, changes, _, h => by
    obtain ⟨-, -, h⟩ := bind_ok h
    obtain ⟨total, htotal, h⟩ := bind_ok h
    obtain ⟨c, hc, h⟩ := bind_ok h
    obtain ⟨rest, hrest, h⟩ := bind_ok h
    obtain ⟨rfl, hle⟩ := addSerializedBatchBytes_ok htotal
    obtain ⟨rfl, hv⟩ := checked_ok (internal_ok.1 hc)
    obtain ⟨rfl, hvalid, hbytes⟩ := frozenRecordChanges_ok hle hrest
    cases h
    refine ⟨rfl, ?_, ?_⟩
    · rintro d hd
      rcases List.mem_cons.1 hd with rfl | hd
      · exact hv
      · exact hvalid d hd
    · rw [List.map_cons, List.sum_cons, ← Nat.add_assoc]
      exact hbytes

/-- **An accepted batch fits a journal.** -/
theorem frozenBatchChanges_ok {header : FrozenBatchHeader} {records : List (FrozenFactRecord φ)}
    {changes : List RemoteExportChange}
    (h : frozenBatchChanges codec header records = .ok changes) :
    changes = batchChanges codec header records ∧ Appendable changes ∧
      records.length ≤ maxCompleteFactBatchRecords := by
  obtain ⟨_, hcount, h⟩ := bind_ok h
  obtain ⟨bytes, hbytes, h⟩ := bind_ok h
  obtain ⟨first, hfirst, h⟩ := bind_ok h
  obtain ⟨rest, hrest, h⟩ := bind_ok h
  obtain ⟨rfl, hle⟩ := addSerializedBatchBytes_ok hbytes
  obtain ⟨rfl, hv⟩ := checked_ok (internal_ok.1 hfirst)
  obtain ⟨rfl, hvalid, hsum⟩ := frozenRecordChanges_ok hle hrest
  cases h
  have hcount : records.length ≤ maxCompleteFactBatchRecords := not_lt.1 (ensure_ok.1 hcount)
  refine ⟨rfl, ⟨?_, batchChanges_ids header records, ?_, ?_⟩, hcount⟩
  · rintro d hd
    rcases List.mem_cons.1 hd with rfl | hd
    · exact hv
    · exact hvalid d hd
  · rw [List.length_cons, entryChanges_length]
    exact Nat.succ_le_succ hcount
  · rw [List.map_cons, List.sum_cons]
    rw [Nat.zero_add] at hsum
    exact hsum

section
variable {store : RemoteExportStateStore} {generation : Nat} {now : DateTime}

theorem appendChunks_plain (hlimits : store.limits = {}) (hjson : JsonBounds store)
    (hnow : minUtc ≤ now) : ∀ {fuel : Nat} {cs ds : List RemoteExportChange},
    ds.length ≤ fuel → Appendable (cs ++ ds) →
    appendChunks store now fuel (plainState store generation now cs) ds =
      .ok (plainState store generation now (cs ++ ds))
  | fuel, cs, [], _, _ => by
    rw [List.append_nil]
    cases fuel <;> rfl
  | 0, cs, d :: ds, hf, _ => absurd hf (by simp)
  | fuel + 1, cs, d :: ds, hf, h => by
    have hsplit : cs ++ d :: ds = (cs ++ (d :: ds).take maxDurablePageEntries) ++
        (d :: ds).drop maxDurablePageEntries := by
      rw [List.append_assoc, List.take_append_drop]
    rw [hsplit] at h ⊢
    obtain ⟨report, happend⟩ : ∃ report, appendChanges store (plainState store generation now cs)
        now ((d :: ds).take maxDurablePageEntries) = .ok (plainState store generation now
          (cs ++ (d :: ds).take maxDurablePageEntries), report) :=
      appendChanges_plain hlimits hjson hnow (List.length_take_le _ _) h.of_append
    simp only [appendChunks, happend, ok_bind]
    refine appendChunks_plain hlimits hjson hnow ?_ h
    rw [List.length_drop]
    rw [List.length_cons] at hf ⊢
    have : 0 < maxDurablePageEntries := by decide
    omega

/-- **Freezing** an accepted batch gives the journal of its changes. -/
theorem freezeBatch_ok (hlimits : store.limits = {}) (hjson : JsonBounds store)
    (hnow : minUtc ≤ now) {header : FrozenBatchHeader} {records : List (FrozenFactRecord φ)}
    {changes : List RemoteExportChange}
    (h : frozenBatchChanges codec header records = .ok changes)
    (hcount : header.recordCount = records.length) :
    freezeBatch codec store header records generation now =
      .ok (plainState store generation now (batchChanges codec header records)) := by
  obtain ⟨rfl, happ, hle⟩ := frozenBatchChanges_ok h
  have hchunks : appendChunks store now (batchChanges codec header records).length
      (plainState store generation now []) (batchChanges codec header records) =
        .ok (plainState store generation now ([] ++ batchChanges codec header records)) :=
    appendChunks_plain hlimits hjson hnow (le_refl _) happ
  have hlen : (batchChanges codec header records).length = records.length + 1 :=
    batchChanges_length header records
  unfold freezeBatch
  rw [h, ok_bind]
  change (internal (appendChunks store now _ (plainState store generation now []) _) >>= _) = _
  rw [hchunks, List.nil_append]
  show (ensure _ _ >>= _) = _
  rw [ensure_of]
  · rfl
  · show (plainState store generation now _).currentSequence = _
    rw [plainState_current, hlen, hcount]
    have : maxCompleteFactBatchRecords < 2 ^ 32 := by decide
    unfold saturatingAdd
    omega

end

end

end FactExport
