import UsageMonit.FactExport.Proof.Load

/-!
# A batch is delivered whole or not at all

`decodePrefix_ok` says what a page of a batch carries, `receivePage_ok` that the center accepts it
behind the pages before it. `syncPages_from` follows a run from any page on; while it lasts the
batch is in its place or gone (`InPlaceOrGone`), and a batch that is gone ends the run.
-/

namespace FactExport

open Fallible Time Export Facts

section
variable {φ : Type}

/-! ## The source -/

/-- The batch at `key` is as it was frozen, or swept; nothing takes its place. -/
def InPlaceOrGone (key : BatchKey) (batch : StoredExportState) (w : FactSource) : Prop :=
  key ∈ w.identities ∧ (w.batches.lookup key = some batch ∨ w.batches.lookup key = none)

theorem InPlaceOrGone.step {key : BatchKey} {batch : StoredExportState} {w w' : FactSource}
    (h : InPlaceOrGone key batch w) (hstep : SourceStep w w') : InPlaceOrGone key batch w' := by
  obtain ⟨hkey, hbatch⟩ := h
  cases hstep with
  | reconcile => exact ⟨hkey, hbatch⟩
  | sweepIndex => exact ⟨hkey, hbatch⟩
  | freeze other frozen hnew =>
    have hne : key ≠ other := fun he => hnew (he ▸ hkey)
    refine ⟨List.mem_cons_of_mem _ hkey, ?_⟩
    rw [AList.lookup_insert_ne hne]
    exact hbatch
  | sweepBatch other =>
    refine ⟨hkey, ?_⟩
    by_cases heq : key = other
    · subst heq
      exact Or.inr (AList.lookup_erase key _)
    · rw [AList.lookup_erase_ne heq]
      exact hbatch

theorem InPlaceOrGone.steps {key : BatchKey} {batch : StoredExportState} {w w' : FactSource}
    (h : InPlaceOrGone key batch w) (hsteps : SourceSteps w w') : InPlaceOrGone key batch w' := by
  induction hsteps with
  | refl => exact h
  | tail _ hstep ih => exact ih.step hstep

/-! ## The center -/

def accumulatorOf (records : List (FrozenFactRecord φ)) : PageAccumulator φ :=
  let snapshots := records.filterMap fun
    | .snapshot record => some record
    | .delta _ => none
  let changes := records.filterMap fun
    | .delta change => some change
    | .snapshot _ => none
  { snapshotRecords := snapshots
    deltaRecords := changes.map (·.record)
    lastSnapshotEventId := snapshots.getLast?.map (·.eventId)
    lastDeltaSequence := changes.getLast?.map (·.sequence) }

theorem accumulatorOf_snapshot (records : List (RemoteUsageEventFactRecord φ)) :
    accumulatorOf (records.map .snapshot) =
      { snapshotRecords := records
        lastSnapshotEventId := records.getLast?.map (·.eventId) } := by
  have hsnapshots : (records.map FrozenFactRecord.snapshot).filterMap (fun
      | .snapshot record => some record
      | .delta _ => none) = records := by
    rw [List.filterMap_map]
    exact List.filterMap_some
  have hchanges : (records.map FrozenFactRecord.snapshot).filterMap (fun
      | .delta change => some change
      | .snapshot _ => none) = [] := by
    rw [List.filterMap_map]
    exact List.filterMap_none records
  unfold accumulatorOf
  rw [hsnapshots, hchanges]
  rfl

theorem accumulatorOf_delta (changes : List (RemoteUsageEventFactDeltaChange φ)) :
    accumulatorOf (changes.map .delta) =
      { deltaRecords := changes.map (·.record)
        lastDeltaSequence := changes.getLast?.map (·.sequence) } := by
  have hsnapshots : (changes.map FrozenFactRecord.delta).filterMap (fun
      | .snapshot record => some record
      | .delta _ => none) = [] := by
    rw [List.filterMap_map]
    exact List.filterMap_none changes
  have hchanges : (changes.map FrozenFactRecord.delta).filterMap (fun
      | .delta change => some change
      | .snapshot _ => none) = changes := by
    rw [List.filterMap_map]
    exact List.filterMap_some
  unfold accumulatorOf
  rw [hsnapshots, hchanges]
  rfl

theorem ensureRecordCapacity_ok {current incoming : Nat}
    (h : current + incoming ≤ maxCompleteFactBatchRecords) :
    ensureRecordCapacity current incoming = .ok () := by
  have hmax : maxCompleteFactBatchRecords = 32767 := rfl
  have hadd : checkedAdd 64 current incoming = some (current + incoming) := if_pos (by omega)
  unfold ensureRecordCapacity
  rw [hadd]
  exact ensure_of ⟨_, rfl, not_lt.2 h⟩

theorem pushSnapshotRecords_ok : ∀ {rs ss : List (RemoteUsageEventFactRecord φ)},
    ((rs ++ ss).map (·.eventId)).Pairwise (· < ·) →
    pushSnapshotRecords (accumulatorOf (rs.map .snapshot)) ss =
      .ok (accumulatorOf ((rs ++ ss).map .snapshot))
  | rs, [], _ => by rw [List.append_nil]; rfl
  | rs, r :: ss, h => by
    have hlast : ∀ last ∈ rs.getLast?.map (·.eventId), last < r.eventId := by
      intro last hlast
      obtain ⟨l, hl, rfl⟩ := Option.map_eq_some_iff.1 hlast
      rw [List.map_append, List.pairwise_append] at h
      exact h.2.2 _ (List.mem_map_of_mem (List.mem_of_getLast? hl)) _ (by simp)
    have hnext : pushSnapshotRecords (accumulatorOf ((rs ++ [r]).map .snapshot)) ss =
        .ok (accumulatorOf ((rs ++ [r] ++ ss).map .snapshot)) :=
      pushSnapshotRecords_ok (by simpa using h)
    rw [List.append_assoc, List.singleton_append, accumulatorOf_snapshot (rs ++ [r])] at hnext
    unfold pushSnapshotRecords
    rw [accumulatorOf_snapshot rs, ensure_of, ok_bind]
    · simpa using hnext
    · rintro ⟨last, hmem, hle⟩
      exact absurd (hlast last hmem) (not_lt.2 hle)

section
variable {base : FactCursor} {cs : List (RemoteUsageEventFactDeltaChange φ)}

section

variable (h : cs.map (·.sequence) = List.range' (base.throughSequence + 1) cs.length)

include h

theorem sequence_of_range {i : Nat} {c : RemoteUsageEventFactDeltaChange φ} (hc : cs[i]? = some c) :
    c.sequence = base.throughSequence + 1 + i := by
  have hi := congrArg (·[i]?) h
  simp only [List.getElem?_map, hc, Option.map_some] at hi
  obtain ⟨_, hget⟩ := List.getElem?_eq_some_iff.1 hi.symm
  rw [List.getElem_range'] at hget
  omega

theorem reached_of_range :
    (cs.getLast?.map (·.sequence)).getD base.throughSequence = base.throughSequence + cs.length := by
  cases hc : cs.getLast? with
  | none => rw [List.getLast?_eq_none_iff.1 hc]; rfl
  | some c =>
    have hpos := List.length_pos_of_mem (List.mem_of_getLast? hc)
    rw [List.getLast?_eq_getElem?] at hc
    simp only [Option.map_some, Option.getD_some, sequence_of_range h hc]
    omega

theorem take_range (k : Nat) : (cs.take k).map (·.sequence) =
      List.range' (base.throughSequence + 1) (cs.take k).length := by
  refine List.ext_getElem? fun i => ?_
  by_cases hi : i < (cs.take k).length
  · have hc : (cs.take k)[i]? = some (cs.take k)[i] := List.getElem?_eq_getElem hi
    have hcs : cs[i]? = some (cs.take k)[i] := by
      rw [List.getElem?_take] at hc
      split at hc
      · exact hc
      · cases hc
    rw [List.getElem?_map, hc, Option.map_some, sequence_of_range h hcs, List.getElem?_range' hi]
    simp
  · have hle := not_lt.1 hi
    rw [List.getElem?_eq_none (by rwa [List.length_map]),
      List.getElem?_eq_none (by rwa [List.length_range'])]

end

end

theorem pushDeltaChanges_ok {base : FactCursor} :
    ∀ {cs ds : List (RemoteUsageEventFactDeltaChange φ)},
    (cs ++ ds).map (·.sequence) = List.range' (base.throughSequence + 1) (cs ++ ds).length →
    base.throughSequence + (cs ++ ds).length < 2 ^ 64 →
    pushDeltaChanges base (accumulatorOf (cs.map .delta)) ds =
      .ok (accumulatorOf ((cs ++ ds).map .delta))
  | cs, [], _, _ => by rw [List.append_nil]; rfl
  | cs, d :: ds, h, hlt => by
    have hprevious : (cs.getLast?.map (·.sequence)).getD base.throughSequence =
        base.throughSequence + cs.length := by
      have htake := take_range h cs.length
      rw [List.take_left] at htake
      exact reached_of_range htake
    have hd : d.sequence = base.throughSequence + cs.length + 1 := by
      have := sequence_of_range h (show (cs ++ d :: ds)[cs.length]? = some d by simp)
      omega
    have hlen : (cs ++ d :: ds).length = cs.length + (ds.length + 1) := by simp
    have hadd : checkedAdd 64 (base.throughSequence + cs.length) 1 =
        some (base.throughSequence + cs.length + 1) := if_pos (by omega)
    have hnext : pushDeltaChanges base (accumulatorOf ((cs ++ [d]).map .delta)) ds =
        .ok (accumulatorOf ((cs ++ [d] ++ ds).map .delta)) :=
      pushDeltaChanges_ok (by simpa using h) (by simpa using hlt)
    rw [List.append_assoc, List.singleton_append, accumulatorOf_delta (cs ++ [d])] at hnext
    unfold pushDeltaChanges
    rw [accumulatorOf_delta cs]
    simp only [hprevious, hadd, okOr, ok_bind]
    rw [ensure_of hd, ok_bind]
    simpa using hnext

/-! ## One round -/

theorem mapM_asSnapshot : ∀ records : List (RemoteUsageEventFactRecord φ),
    (records.map .snapshot).mapM asSnapshot = .ok records
  | [] => rfl
  | record :: records => by
    rw [List.map_cons, List.mapM_cons, mapM_asSnapshot records]
    rfl

theorem mapM_asDelta : ∀ changes : List (RemoteUsageEventFactDeltaChange φ),
    (changes.map .delta).mapM asDelta = .ok changes
  | [] => rfl
  | change :: changes => by
    rw [List.map_cons, List.mapM_cons, mapM_asDelta changes]
    rfl

def pageThrough (header : FrozenBatchHeader) (count generation through : Nat) : FactPage where
  threadId := header.threadId
  identity := header.batchIdentity
  factGeneration := header.factGeneration
  watermark := header.watermark
  nextPageToken :=
    if through < count then some (pageTokenValue generation (through + 1)) else none
  activateFactCursor := if through < count then none else some header.activation
  hasMore := decide (through < count)

section
variable {request : SessionFactsRequest} {start : SessionFactsPosition}
  {header : FrozenBatchHeader} {records : List (FrozenFactRecord φ)} {generation : Nat}
  {observedAt : DateTime}

/-- The records of a page, and the fields that the kind of the batch does not decide. -/
theorem decodePrefix_eq (hbounded : records.length ≤ maxCompleteFactBatchRecords)
    (hidentity : validateBatchIdentity header.batchIdentity = .ok ()) {i n : Nat}
    (hn : i + n ≤ records.length) (hpos : i < records.length → 0 < n) :
    (pageFrom header records generation (i + 1) observedAt).decodePrefix n =
      (match header.kind with
        | .snapshot => do
          let rs ← ((records.drop i).take n).mapM asSnapshot
          pure (pageThrough header records.length generation (i + n), .snapshot rs)
        | .delta => do
          let cs ← ((records.drop i).take n).mapM asDelta
          pure (pageThrough header records.length generation (i + n), .delta cs)) := by
  have hmax : maxCompleteFactBatchRecords = 32767 := rfl
  have hrest : (pageFrom header records generation (i + 1) observedAt).records =
    records.drop i := rfl
  have hadd : checkedAdd 64 (pageFrom header records generation (i + 1) observedAt).startSequence
      n = some (i + 1 + n) := if_pos (by show i + 1 + n < 2 ^ 64; omega)
  have hmore : ((pageFrom header records generation (i + 1) observedAt).batchHasMore ||
      decide (n < (records.drop i).length)) = decide (i + n < records.length) := by
    show (false || _) = _
    rw [Bool.false_or, List.length_drop]
    exact decide_eq_decide.2 (by omega)
  have hguard : ∀ {α : Type} (rest : Except String α), (if records.drop i = [] then do
        ensure (n = 0) "empty remote fact page requires a zero entry limit"
        rest
      else do
        ensure (n ≠ 0 ∧ n ≤ (records.drop i).length)
          "remote fact page prefix is outside its durable bounds"
        rest) = rest := by
    intro α rest
    split
    · rename_i hnil
      rw [List.drop_eq_nil_iff] at hnil
      rw [ensure_of (by omega), ok_bind]
    · rename_i hne
      rw [List.drop_eq_nil_iff, not_le] at hne
      rw [List.length_drop, ensure_of (by omega), ok_bind]
  unfold PreparedRemoteFactPage.decodePrefix
  simp only [hrest, hadd, okOr, ok_bind, hmore]
  rw [show (pageFrom header records generation (i + 1) observedAt).header = header from rfl,
    show (pageFrom header records generation (i + 1) observedAt).batchCursorGeneration =
      generation from rfl, show i + 1 + n = i + n + 1 by omega, hguard]
  cases header.kind with
  | snapshot =>
    simp only [opaqueFromStr_identity hidentity, ok_bind]
    by_cases hlt : i + n < records.length
    · simp only [hlt, decide_true, if_true, snapshotPageToken_ok, pageThrough]
      rfl
    · simp only [hlt, decide_false, if_false, pageThrough, Bool.false_eq_true]
      rfl
  | delta =>
    simp only [opaqueFromStr_identity hidentity, ok_bind]
    by_cases hlt : i + n < records.length
    · simp only [hlt, decide_true, if_true, deltaPageToken_ok, pageThrough]
      rfl
    · simp only [hlt, decide_false, if_false, pageThrough, Bool.false_eq_true]
      rfl

/-- **One round**: the page behind `i` records is decoded, and the center accepts it. -/
theorem round_ok (generation : Nat) (observedAt : DateTime)
    (h : HeaderFor store request header records) (hshape : BatchRecords header start records)
    (hbounded : records.length ≤ maxCompleteFactBatchRecords)
    (hwatermark : header.watermark < 2 ^ 64)
    {initialCursor : Option FactCursor}
    (hcursor : ∀ cursor, header.originalCursor = some cursor → initialCursor = some cursor)
    {i n : Nat} (hn : i + n ≤ records.length) (hpos : i < records.length → 0 < n) :
    ∃ payload, (pageFrom header records generation (i + 1) observedAt).decodePrefix n =
        .ok (pageThrough header records.length generation (i + n), payload) ∧
      payload.frozen = (records.drop i).take n ∧
      receivePage initialCursor (accumulatorOf (records.take i))
          (pageThrough header records.length generation (i + n)) payload =
        .ok (if i + n < records.length then
          .next (accumulatorOf (records.take (i + n)))
            (continuationAt header generation (i + n + 1))
          else .complete header.kind header.activation (records.map (·.wire))) := by
  have hidentity := identity_of_validate h.valid
  rw [decodePrefix_eq hbounded hidentity hn hpos]
  cases hshape with
  | snapshot rs hkind horiginal hsorted =>
    rw [List.length_map] at hn hbounded hpos ⊢
    refine ⟨.snapshot ((rs.drop i).take n), ?_, ?_, ?_⟩
    · rw [hkind, ← List.map_drop, ← List.map_take, mapM_asSnapshot]
      rfl
    · simp [RemoteSessionFactPayload.frozen]
    · have hsplit : rs.take i ++ (rs.drop i).take n = rs.take (i + n) := (List.take_add ..).symm
      have hpush : pushSnapshotRecords (accumulatorOf ((rs.map .snapshot).take i))
          ((rs.drop i).take n) = .ok (accumulatorOf ((rs.map .snapshot).take (i + n))) := by
        rw [← List.map_take, ← List.map_take, ← hsplit]
        refine pushSnapshotRecords_ok ?_
        rw [hsplit, List.map_take]
        exact hsorted.sublist (List.take_sublist _ _)
      have hcapacity : ensureRecordCapacity
          (accumulatorOf ((rs.map FrozenFactRecord.snapshot).take i)).snapshotRecords.length
          ((rs.drop i).take n).length = .ok () := by
        refine ensureRecordCapacity_ok ?_
        rw [← List.map_take, accumulatorOf_snapshot, ← List.length_append, hsplit, List.length_take]
        omega
      unfold receivePage appendSnapshotPage
      simp only [hcapacity, ok_bind, hpush, pageThrough, decide_eq_true_eq]
      by_cases hlt : i + n < rs.length
      · simp only [hlt, if_true, snapshotContinuation, okOr, ok_bind, continuationAt, horiginal]
        rfl
      · simp only [hlt, if_false, okOr, ok_bind, hkind]
        rw [show i + n = rs.length by omega, ← List.map_take, List.take_length,
          accumulatorOf_snapshot, List.map_map]
        simp [FrozenFactRecord.wire, Function.comp_def, pure, Except.pure]
  | delta base cs hkind horiginal hsequence hreach =>
    rw [List.length_map] at hn hbounded hpos ⊢
    refine ⟨.delta ((cs.drop i).take n), ?_, ?_, ?_⟩
    · rw [hkind, ← List.map_drop, ← List.map_take, mapM_asDelta]
      rfl
    · simp [RemoteSessionFactPayload.frozen]
    · have hsplit : cs.take i ++ (cs.drop i).take n = cs.take (i + n) := (List.take_add ..).symm
      have hpush : pushDeltaChanges base (accumulatorOf ((cs.map .delta).take i))
          ((cs.drop i).take n) = .ok (accumulatorOf ((cs.map .delta).take (i + n))) := by
        rw [← List.map_take, ← List.map_take, ← hsplit]
        refine pushDeltaChanges_ok ?_ ?_
        · rw [hsplit]
          exact take_range hsequence _
        · rw [hsplit, List.length_take]
          omega
      have hcapacity : ensureRecordCapacity
          (accumulatorOf ((cs.map FrozenFactRecord.delta).take i)).deltaRecords.length
          ((cs.drop i).take n).length = .ok () := by
        refine ensureRecordCapacity_ok ?_
        rw [← List.map_take, accumulatorOf_delta, List.length_map, ← List.length_append, hsplit,
          List.length_take]
        omega
      unfold receivePage appendDeltaPage
      simp only [hcursor base horiginal, okOr, hcapacity, ok_bind, hpush, pageThrough,
        decide_eq_true_eq]
      by_cases hlt : i + n < cs.length
      · have hne : (cs.drop i).take n ≠ [] := by
          rw [← List.length_pos_iff, List.length_take, List.length_drop]
          have := hpos (by omega)
          omega
        simp only [hlt, if_true, deltaContinuation, okOr, ok_bind, continuationAt, horiginal]
        rw [ensure_of hne]
        rfl
      · have hreached : ensureDeltaReachesWatermark
            (accumulatorOf ((cs.map FrozenFactRecord.delta).take (i + n))) base header.activation =
            .ok () := by
          refine ensure_of ?_
          rw [← List.map_take, accumulatorOf_delta, List.take_of_length_le (by omega),
            reached_of_range hsequence, hreach]
          rfl
        simp only [hlt, if_false, ok_bind, hkind, hreached]
        rw [show i + n = cs.length by omega, ← List.map_take, List.take_length,
          accumulatorOf_delta, List.map_map]
        simp [FrozenFactRecord.wire, Function.comp_def, pure, Except.pure]

/-! ## The run -/

/-- What a run has delivered from the record `i` on. -/
structure DeliveredFrom (header : FrozenBatchHeader) (records : List (FrozenFactRecord φ)) (i : Nat)
    (delivered : Delivered φ) : Prop where
  concatenation : (delivered.pages.map (·.2.frozen)).flatten = records.drop i
  before : ∀ page ∈ delivered.pages.dropLast, page.2.frozen ≠ [] ∧ page.1.hasMore = true ∧
    page.1.nextPageToken.isSome = true ∧ page.1.activateFactCursor = none
  last : ∃ page, delivered.pages.getLast? = some page ∧ page.1.hasMore = false ∧
    page.1.nextPageToken = none ∧ page.1.activateFactCursor = some header.activation
  kind : delivered.kind = header.kind
  cursor : delivered.cursor = header.activation
  records : delivered.records = records.map (·.wire)

theorem DeliveredFrom.whole {delivered : Delivered φ}
    (h : DeliveredFrom header records 0 delivered) : DeliveredWhole header records delivered :=
  ⟨h.concatenation, h.before, h.last, h.kind, h.cursor, h.records⟩

theorem deliveredFrom_last {i n : Nat} (hend : i + n = records.length)
    {payload : RemoteSessionFactPayload φ} (hpayload : payload.frozen = (records.drop i).take n) :
    DeliveredFrom header records i
      ⟨[(pageThrough header records.length generation (i + n), payload)], header.kind,
        header.activation, records.map (·.wire)⟩ := by
  have hmore : ¬ i + n < records.length := by omega
  refine ⟨?_, by simp, ⟨_, rfl, ?_, ?_, ?_⟩, rfl, rfl, rfl⟩
  · rw [List.map_singleton, List.flatten_singleton, hpayload,
      List.take_of_length_le (by rw [List.length_drop]; omega)]
  · simpa [pageThrough] using hmore
  · exact if_neg hmore
  · exact if_neg hmore

theorem DeliveredFrom.cons {i n : Nat} {delivered : Delivered φ}
    (h : DeliveredFrom header records (i + n) delivered) (hlt : i + n < records.length)
    (hpos : 0 < n) {payload : RemoteSessionFactPayload φ}
    (hpayload : payload.frozen = (records.drop i).take n) :
    DeliveredFrom header records i { delivered with
      pages := (pageThrough header records.length generation (i + n), payload) ::
        delivered.pages } := by
  obtain ⟨last, hlast, hfields⟩ := h.last
  have hne : delivered.pages ≠ [] := by
    intro hnil
    rw [hnil] at hlast
    cases hlast
  refine ⟨?_, ?_, ⟨last, ?_, hfields⟩, h.kind, h.cursor, h.records⟩
  · show (_ :: _).flatten = _
    rw [List.flatten_cons, h.concatenation]
    show payload.frozen ++ _ = _
    rw [hpayload, ← List.drop_drop, List.take_append_drop]
  · show ∀ page ∈ (_ :: delivered.pages).dropLast, _
    rw [List.dropLast_cons_of_ne_nil hne]
    intro page hpage
    rcases List.mem_cons.1 hpage with rfl | hpage
    · refine ⟨?_, by simpa [pageThrough] using hlt, ?_, if_pos hlt⟩
      · rw [hpayload, ← List.length_pos_iff, List.length_take, List.length_drop]
        omega
      · simp [pageThrough, hlt]
    · exact h.before page hpage
  · show (_ :: delivered.pages).getLast? = _
    rw [List.getLast?_cons, hlast]
    rfl

variable {env : ExporterEnv φ} {frozenAt : DateTime} {initialCursor : Option FactCursor}
  {sources : Nat → FactSource} {times : Nat → DateTime} {cuts : Nat → Nat}
  (hsound : env.Sound) (h : Frozen env request header records)
  (hshape : BatchRecords header start records) (hwatermark : header.watermark < 2 ^ 64)
  (hcursor : ∀ cursor, header.originalCursor = some cursor → initialCursor = some cursor)
  (hgeneration : records ≠ [] → generation ≠ 0 ∧ generation < 2 ^ 64)
  (hplace : records ≠ [] → ∀ j, InPlaceOrGone header.key
    (frozenState env header records generation frozenAt) (sources j))
  (hcuts : ∀ j, cuts j ≠ 0)
include hsound h hshape hwatermark hcursor hgeneration hplace hcuts

/-- **A run from any page on** ends with an expired batch, or has delivered the rest of it. -/
theorem syncPages_from : ∀ {fuel i j : Nat} {observedAt : DateTime},
    i ≤ records.length → records.length < i + fuel →
    syncPages env request initialCursor sources times cuts fuel j (accumulatorOf (records.take i))
        (pageFrom header records generation (i + 1) observedAt) =
      .error (.remote .factCursorExpired) ∨
    ∃ delivered, syncPages env request initialCursor sources times cuts fuel j
        (accumulatorOf (records.take i))
        (pageFrom header records generation (i + 1) observedAt) = .ok delivered ∧
      DeliveredFrom header records i delivered
  | 0, i, j, observedAt, hle, hfuel => absurd hfuel (by omega)
  | fuel + 1, i, j, observedAt, hle, hfuel => by
    have hbounded := h.bounded
    have hmax : maxCompleteFactBatchRecords = 32767 := rfl
    obtain ⟨n, hn⟩ : ∃ n, n = min (cuts j)
        (pageFrom header records generation (i + 1) observedAt).records.length := ⟨_, rfl⟩
    have hlength : (pageFrom header records generation (i + 1) observedAt).records.length =
        records.length - i := List.length_drop
    have hcut := hcuts j
    obtain ⟨payload, hdecode, hpayload, hreceive⟩ := round_ok generation observedAt h.toHeaderFor
      hshape hbounded hwatermark hcursor (show i + n ≤ records.length by omega)
      (show i < records.length → 0 < n by omega)
    simp only [syncPages, ← hn, hdecode, internal, Except.mapError, ok_bind, hreceive]
    by_cases hlt : i + n < records.length
    · rw [if_pos hlt]
      have hne : records ≠ [] := fun hnil => by simp [hnil] at hlt
      have hanswer : continueFrozenPage env (sources (j + 1)).batches
            { request with position := continuationAt header generation (i + n + 1) }
            (times (j + 1)) = .error .factCursorExpired ∨
          continueFrozenPage env (sources (j + 1)).batches
            { request with position := continuationAt header generation (i + n + 1) }
            (times (j + 1)) =
            .ok (pageFrom header records generation (i + n + 1) (times (j + 1))) := by
        rcases (hplace hne (j + 1)).2 with hin | hgone
        · exact Or.inr (continueFrozenPage_ok hsound h (hgeneration hne).1 (hgeneration hne).2
            (by omega) (by omega) hin hshape)
        · exact Or.inl (continueFrozenPage_gone h.toHeaderFor hshape (hgeneration hne).1
            (hgeneration hne).2 (by omega) hgone)
      rcases hanswer with hanswer | hanswer
      · left
        simp only [hanswer]
        rfl
      · simp only [hanswer, ok_bind]
        have hrun : syncPages env request initialCursor sources times cuts fuel (j + 1)
              (accumulatorOf (records.take (i + n)))
              (pageFrom header records generation (i + n + 1) (times (j + 1))) = _ ∨ _ :=
          syncPages_from hlt.le (by omega)
        rcases hrun with hexpired | ⟨delivered, hdelivered, hrest⟩
        · left
          rw [hexpired]
          rfl
        · right
          rw [hdelivered]
          exact ⟨_, rfl, hrest.cons hlt (by omega) hpayload⟩
    · rw [if_neg hlt]
      exact Or.inr ⟨_, rfl, deliveredFrom_last (by omega) hpayload⟩

theorem syncPages_whole {fuel : Nat} (hfuel : records.length < fuel) :
    syncPages env request initialCursor sources times cuts fuel 0 {}
        (pageFrom header records generation 1 observedAt) = .error (.remote .factCursorExpired) ∨
    ∃ delivered, syncPages env request initialCursor sources times cuts fuel 0 {}
        (pageFrom header records generation 1 observedAt) = .ok delivered ∧
      DeliveredWhole header records delivered := by
  have hrun : syncPages env request initialCursor sources times cuts fuel 0
      (accumulatorOf (records.take 0)) (pageFrom header records generation (0 + 1) observedAt) =
        _ ∨ _ :=
    syncPages_from hsound h hshape hwatermark hcursor hgeneration hplace hcuts (Nat.zero_le _)
      (by omega)
  rcases hrun with hexpired | ⟨delivered, hdelivered, hwhole⟩
  · exact Or.inl hexpired
  · exact Or.inr ⟨delivered, hdelivered, hwhole.whole⟩

end

end

end FactExport
