import UsageMonit.Export.Proof.Pages
import UsageMonit.FactExport.Exporter
import UsageMonit.FactExport.Proof.Freeze

/-!
# Loading a frozen batch

The journal of a batch gives back its header (`readBatchHeader_ok`) and, from any page token, the
records from there to the end (`loadFrozenPageWithSession_ok`), however the journal cuts them into
pages. `continueFrozenPage_ok` is the answer to a continuation, while the batch is in its place.
-/

namespace FactExport

open Fallible Time Protocol Export

variable {observedAt : DateTime}

section
variable {φ : Type} {codec : FactCodec φ}

/-! ## The entries of a batch -/

theorem numbered_drop (t : DateTime) : ∀ (n k : Nat) (cs : List RemoteExportChange),
    (numbered t n cs).drop k = numbered t (n + k) (cs.drop k)
  | _, 0, _ => rfl
  | _, _ + 1, [] => rfl
  | n, k + 1, c :: cs => by
    rw [numbered, List.drop_succ_cons, numbered_drop t (n + 1) k cs, List.drop_succ_cons,
      show n + 1 + k = n + (k + 1) by omega]

theorem numbered_take (t : DateTime) : ∀ (n k : Nat) (cs : List RemoteExportChange),
    (numbered t n cs).take k = numbered t n (cs.take k)
  | _, 0, _ => by simp [numbered]
  | _, _ + 1, [] => rfl
  | n, k + 1, c :: cs => by
    rw [numbered, List.take_succ_cons, numbered_take t (n + 1) k cs, List.take_succ_cons, numbered]

theorem entryChanges_drop : ∀ (index k : Nat) (records : List (FrozenFactRecord φ)),
    (entryChanges codec index records).drop k = entryChanges codec (index + k) (records.drop k)
  | _, 0, _ => rfl
  | _, _ + 1, [] => rfl
  | index, k + 1, record :: records => by
    rw [entryChanges, List.drop_succ_cons, entryChanges_drop (index + 1) k records,
      List.drop_succ_cons, show index + 1 + k = index + (k + 1) by omega]

theorem entryChanges_take : ∀ (index k : Nat) (records : List (FrozenFactRecord φ)),
    (entryChanges codec index records).take k = entryChanges codec index (records.take k)
  | _, 0, _ => by simp [entryChanges]
  | _, _ + 1, [] => rfl
  | index, k + 1, record :: records => by
    rw [entryChanges, List.take_succ_cons, entryChanges_take (index + 1) k records,
      List.take_succ_cons, entryChanges]

theorem decode_entries (t : DateTime) : ∀ (n index : Nat) (records : List (FrozenFactRecord φ)),
    (numbered t n (entryChanges codec index records)).mapM (decodeFrozenRecord codec) = .ok records
  | _, _, [] => rfl
  | n, index, record :: records => by
    have hfirst : decodeFrozenRecord codec ⟨n + 1, t, ⟨entryChangeId index,
        codec.encodeEntry (.record record)⟩⟩ = .ok record := by
      unfold decodeFrozenRecord
      rw [codec.decode_encodeEntry]
      rfl
    rw [entryChanges, numbered, List.mapM_cons, hfirst, ok_bind,
      decode_entries t (n + 1) (index + 1) records]
    rfl

theorem decode_page (t : DateTime) (header : FrozenBatchHeader)
    (records : List (FrozenFactRecord φ)) {q : Nat} (hq : 1 ≤ q) (k : Nat) :
    ((numbered t 0 (batchChanges codec header records)).drop q |>.take k).mapM
      (decodeFrozenRecord codec) = .ok ((records.drop (q - 1)).take k) := by
  obtain ⟨p, rfl⟩ : ∃ p, q = p + 1 := ⟨q - 1, by omega⟩
  rw [numbered_drop, numbered_take, batchChanges, List.drop_succ_cons, entryChanges_drop,
    entryChanges_take, decode_entries, Nat.add_sub_cancel]

end

/-! ## A batch in its place -/

section
variable {φ : Type}

/-- What the exporter relies on: the default limits, and the sizes of the encoding. -/
structure ExporterEnv.Sound (env : ExporterEnv φ) : Prop where
  limits : env.store.limits = {}
  json : JsonBounds env.store

theorem identity_of_validate {header : FrozenBatchHeader} (h : header.validate = .ok ()) :
    validateBatchIdentity header.batchIdentity = .ok () := by
  obtain ⟨-, -, hid⟩ := bind_ok h
  exact hid

def frozenState (env : ExporterEnv φ) (header : FrozenBatchHeader)
    (records : List (FrozenFactRecord φ)) (generation : Nat) (frozenAt : DateTime) :
    StoredExportState :=
  plainState env.store generation frozenAt (batchChanges env.codec header records)

structure Frozen (env : ExporterEnv φ) (request : SessionFactsRequest) (header : FrozenBatchHeader)
    (records : List (FrozenFactRecord φ)) : Prop extends
    HeaderFor env.store request header records where
  appendable : Appendable (batchChanges env.codec header records)
  bounded : records.length ≤ maxCompleteFactBatchRecords

variable {env : ExporterEnv φ} {request : SessionFactsRequest} {header : FrozenBatchHeader}
  {records : List (FrozenFactRecord φ)} {generation : Nat} {frozenAt : DateTime}

theorem frozenState_contiguous :
    Contiguous (frozenState env header records generation frozenAt) := plainState_contiguous

theorem frozenState_entries : (frozenState env header records generation frozenAt).entries =
    numbered frozenAt 0 (batchChanges env.codec header records) := rfl

theorem frozenState_cursor : (frozenState env header records generation frozenAt).cursor =
    ⟨generation, records.length + 1⟩ := by
  unfold StoredExportState.cursor frozenState
  rw [plainState_current, batchChanges_length]
  rfl

theorem frozenState_current :
    (frozenState env header records generation frozenAt).currentSequence = records.length + 1 :=
  congrArg DeltaCursor.sequence frozenState_cursor

theorem frozenState_page (generation : Nat) (frozenAt : DateTime) (hsound : env.Sound)
    (happ : Appendable (batchChanges env.codec header records)) {q m : Nat}
    (hq : q ≤ records.length + 1) (hm : 0 < m) (hmax : m ≤ maxPageEntries) :
    ∃ page k, readPage env.store (frozenState env header records generation frozenAt)
        ⟨generation, q⟩ m maxDurablePageBytes = .ok (.page page) ∧
      PageAt (frozenState env header records generation frozenAt) q k page := by
  have hl := happ.length
  rw [batchChanges_length] at hl
  have hcontiguous : Contiguous (frozenState env header records generation frozenAt) :=
    frozenState_contiguous
  have hcurrent : (frozenState env header records generation frozenAt).currentSequence =
    records.length + 1 := frozenState_current
  have hsmall : q + 1 < 2 ^ 64 := by omega
  obtain ⟨page, hpage⟩ := readPage_total hsound.json hsound.limits hcontiguous
    (fun e he => happ.valid _ (mem_numbered he).2) hsmall (Nat.zero_le _)
    (hq.trans_eq hcurrent.symm) hm hmax
  obtain ⟨k, hk⟩ := readPage_ok hcontiguous hsmall hpage
  exact ⟨page, k, hpage, hk⟩

/-- **The header reads back.** -/
theorem readBatchHeader_ok (hsound : env.Sound) (h : Frozen env request header records) :
    readBatchHeader env.codec env.store (frozenState env header records generation frozenAt) =
      .ok header := by
  obtain ⟨page, k, hpage, hk⟩ := frozenState_page generation frozenAt hsound h.appendable
    (Nat.zero_le _) (show 0 < 1 by decide) (by decide)
  have hpos : 0 < k := hk.progress (by rw [frozenState_current]; omega)
  have hentries : page.entries.head? = some ⟨1, frozenAt, ⟨"header",
      env.codec.encodeEntry (.header header)⟩⟩ := by
    obtain ⟨j, rfl⟩ : ∃ j, k = j + 1 := ⟨k - 1, by omega⟩
    rw [hk.entries]
    rfl
  unfold readBatchHeader
  rw [show (frozenState env header records generation frozenAt).deltaGeneration = generation from
    rfl, hpage, ok_bind]
  simp only [hentries, okOr, ok_bind, env.codec.decode_encodeEntry, h.valid]
  rfl

theorem loadRecords_ok (hsound : env.Sound) (h : Frozen env request header records) :
    ∀ {fuel q : Nat} {taken : List (FrozenFactRecord φ)}, 1 ≤ q → q ≤ records.length + 1 →
      records.length + 1 ≤ q + fuel → taken.length + 1 ≤ q →
      loadRecords env.codec env.store (frozenState env header records generation frozenAt) fuel
        ⟨generation, q⟩ taken = .ok (taken ++ records.drop (q - 1))
  | fuel, q, taken, hq, hle, hfuel, htaken => by
    unfold loadRecords
    rw [frozenState_cursor]
    split
    · rename_i hend
      rw [List.drop_eq_nil_of_le (by simp only at hend; omega), List.append_nil]
    · rename_i hmore
      simp only [not_le] at hmore
      match fuel with
      | 0 => omega
      | fuel + 1 =>
        obtain ⟨page, k, hpage, hk⟩ := frozenState_page generation frozenAt hsound h.appendable
          hle (show 0 < maxDurablePageEntries by decide) (le_refl _)
        have hcurrent : (frozenState env header records generation frozenAt).currentSequence =
          records.length + 1 := frozenState_current
        have hpos : 0 < k := hk.progress (by omega)
        have hwithin := hk.within
        have hbounded := h.bounded
        have hentries : page.entries =
            ((numbered frozenAt 0 (batchChanges env.codec header records)).drop q).take k :=
          hk.entries
        have hne : page.entries ≠ [] := by
          rw [hentries, ← List.length_pos_iff, List.length_take, List.length_drop, numbered_length,
            batchChanges_length]
          omega
        have hdecoded : page.entries.mapM (decodeFrozenRecord env.codec) =
            .ok ((records.drop (q - 1)).take k) := by
          rw [hentries]
          exact decode_page frozenAt header records hq k
        have hlength : (taken ++ (records.drop (q - 1)).take k).length + 1 ≤ q + k := by
          rw [List.length_append, List.length_take]
          omega
        simp only [hpage, internal, Except.mapError, ok_bind]
        rw [ensure_of ⟨hne, by rw [hk.next]; show q < q + k; omega⟩, ok_bind, hdecoded]
        simp only [ok_bind]
        rw [ensure_of (by omega), ok_bind, hk.next]
        rw [show (frozenState env header records generation frozenAt).deltaGeneration = generation
          from rfl, loadRecords_ok hsound h (by omega) (by omega) (by omega) hlength,
          List.append_assoc, show q + k - 1 = q - 1 + k by omega, ← List.drop_drop,
          List.take_append_drop]

theorem validateHeaderForRequest_ok (h : Frozen env request header records)
    {position : SessionFactsPosition} (hkind : kindFits header.kind position = true) :
    validateHeaderForRequest header { request with position } = .ok () := by
  unfold validateHeaderForRequest
  rw [h.valid]
  show (ensure _ _ >>= _) = _
  rw [ensure_of ⟨h.threadId, h.retentionDays, h.expectedDigests⟩, ok_bind, ensure_of hkind]

/-- The page of a batch from its entry `q` on. -/
def pageFrom (header : FrozenBatchHeader) (records : List (FrozenFactRecord φ))
    (generation q : Nat) (observedAt : DateTime) : PreparedRemoteFactPage φ :=
  ⟨observedAt, header, generation, q, false, records.drop (q - 1)⟩

/-- **Every token within the batch** gives the records from there on. -/
theorem loadFrozenPageWithSession_ok (hsound : env.Sound) (h : Frozen env request header records)
    {position : SessionFactsPosition} (hkind : kindFits header.kind position = true)
    {token : Option BatchPageToken} {q : Nat}
    (htoken : token.getD ⟨generation, 1⟩ = ⟨generation, q⟩) (hq : 1 ≤ q)
    (hle : q ≤ records.length + 1) :
    loadFrozenPageWithSession env.codec env.store
        (frozenState env header records generation frozenAt) { request with position } observedAt
        header token =
      .ok (pageFrom header records generation q observedAt) := by
  have hbounded := h.bounded
  have hfuel : records.length + 1 ≤
      q + (frozenState env header records generation frozenAt).entries.length := by
    rw [frozenState_entries, numbered_length, batchChanges_length]
    omega
  have hload : loadRecords env.codec env.store
      (frozenState env header records generation frozenAt)
      (frozenState env header records generation frozenAt).entries.length ⟨generation, q⟩ [] =
        .ok ([] ++ records.drop (q - 1)) := loadRecords_ok hsound h hq hle hfuel (by simpa using hq)
  unfold loadFrozenPageWithSession
  simp only [frozenState_cursor, htoken]
  rw [ensure_of ⟨trivial, by omega⟩, ok_bind,
    ensure_of ⟨by rw [h.recordCount]; omega, by omega, by omega⟩, ok_bind, hload, ok_bind,
    List.nil_append, ensure_of (by rw [List.length_drop]; omega), ok_bind,
    validateHeaderForRequest_ok h hkind, ok_bind]
  rfl

/-- The continuation of a batch behind its entry `q - 1`. -/
def continuationAt (header : FrozenBatchHeader) (generation q : Nat) : SessionFactsPosition :=
  match header.originalCursor with
  | none => .snapshotContinue header.batchIdentity header.factGeneration header.watermark
      (pageTokenValue generation q)
  | some cursor => .deltaContinue cursor header.batchIdentity header.watermark
      (pageTokenValue generation q)

section
variable (hsound : env.Sound) (h : Frozen env request header records)
  (hgeneration : generation ≠ 0) (hsmall : generation < 2 ^ 64) {q : Nat} (hq : 1 ≤ q)
  (hle : q ≤ records.length + 1) {batches : FrozenBatches} (hlookup : batches.lookup header.key =
    some (frozenState env header records generation frozenAt))
include hsound h hgeneration hsmall hq hle hlookup

theorem loadFrozenPage_ok {position : SessionFactsPosition}
    (hfits : kindFits header.kind position = true) :
    loadFrozenPage env.codec env.store batches { request with position } observedAt header.kind
        header.batchIdentity header.factGeneration header.watermark (pageTokenValue generation q)
        header.originalCursor =
      .ok (pageFrom header records generation q observedAt) := by
  have hbounded := h.bounded
  have hmax : maxCompleteFactBatchRecords = 32767 := rfl
  have htoken : parsePageToken (pageTokenValue generation q) = .ok ⟨generation, q⟩ :=
    parsePageToken_value hgeneration hsmall (by omega)
  have hidentity := identity_of_validate h.valid
  have hkey : batches.lookup ⟨request.threadId, request.retentionDays, header.kind,
      header.batchIdentity⟩ = some (frozenState env header records generation frozenAt) := by
    rw [← h.threadId, ← h.retentionDays]
    exact hlookup
  unfold loadFrozenPage
  rw [htoken, ok_bind, hidentity]
  show (okOr _ _ >>= _) = _
  rw [hkey]
  show (internal _ >>= _) = _
  rw [readBatchHeader_ok hsound h]
  show (ensure _ _ >>= _) = _
  rw [ensure_of ⟨rfl, rfl, h.source, h.redactionProfile, h.threadId, h.retentionDays,
    h.expectedDigests, rfl, rfl, rfl⟩, ok_bind]
  exact loadFrozenPageWithSession_ok hsound h hfits rfl hq hle

/-- **While the batch is in its place, every continuation is answered from it.** -/
theorem continueFrozenPage_ok {start : SessionFactsPosition}
    (hshape : BatchRecords header start records) :
    continueFrozenPage env batches
        { request with position := continuationAt header generation q } observedAt =
      .ok (pageFrom header records generation q observedAt) := by
  have hload : ∀ {position : SessionFactsPosition}, kindFits header.kind position = true →
      loadFrozenPage env.codec env.store batches { request with position } observedAt header.kind
          header.batchIdentity header.factGeneration header.watermark
          (pageTokenValue generation q) header.originalCursor =
        .ok (pageFrom header records generation q observedAt) :=
    fun hfits => loadFrozenPage_ok hsound h hgeneration hsmall hq hle hlookup hfits
  unfold continueFrozenPage continuationAt
  cases hshape with
  | snapshot rs hkind hcursor =>
    rw [hkind, hcursor] at hload
    rw [hcursor]
    exact hload rfl
  | delta cursor changes hkind hcursor =>
    have hcursorGeneration : cursor.factGeneration = header.factGeneration := by
      obtain ⟨_, hvalid, -⟩ := bind_ok h.valid
      exact (ensure_ok.1 hvalid).2.2.2.2.2.2.2.2.1 cursor hcursor
    rw [hkind, hcursor, ← hcursorGeneration] at hload
    rw [hcursor]
    exact hload rfl

end

theorem continueFrozenPage_gone (h : HeaderFor env.store request header records)
    {start : SessionFactsPosition} (hshape : BatchRecords header start records)
    (hgeneration : generation ≠ 0) (hsmall : generation < 2 ^ 64) {q : Nat} (hq : q < 2 ^ 64)
    {batches : FrozenBatches} (hlookup : batches.lookup header.key = none) :
    continueFrozenPage env batches
        { request with position := continuationAt header generation q } observedAt =
      .error .factCursorExpired := by
  have htoken : parsePageToken (pageTokenValue generation q) = .ok ⟨generation, q⟩ :=
    parsePageToken_value hgeneration hsmall hq
  have hidentity := identity_of_validate h.valid
  have hload : ∀ position factGeneration cursor, loadFrozenPage env.codec env.store batches
      { request with position } observedAt header.kind header.batchIdentity factGeneration
        header.watermark (pageTokenValue generation q) cursor =
      .error .factCursorExpired := by
    intro position factGeneration cursor
    unfold loadFrozenPage
    rw [htoken, ok_bind, hidentity]
    show (okOr (batches.lookup _) _ >>= _) = _
    rw [← h.threadId, ← h.retentionDays]
    show (okOr (batches.lookup header.key) _ >>= _) = _
    rw [hlookup]
    rfl
  unfold continueFrozenPage continuationAt
  cases hshape with
  | snapshot rs hkind hcursor =>
    rw [hkind] at hload
    rw [hcursor]
    exact hload _ _ _
  | delta cursor changes hkind hcursor =>
    rw [hkind] at hload
    rw [hcursor]
    exact hload _ _ _

end

end FactExport
