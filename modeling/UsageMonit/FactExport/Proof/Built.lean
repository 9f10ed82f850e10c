import Mathlib.Data.List.TakeWhile
import UsageMonit.Export.Proof.Bootstrap
import UsageMonit.Export.Proof.Pages
import UsageMonit.FactExport.Exporter
import UsageMonit.FactExport.Proof.Freeze

/-!
# The batches a source builds

The index of a thread is an export state whose changes are facts (`factDecode`). On every index a
source can have (`ReachableIndex`), the snapshot has one record for every event, sorted
(`snapshotRecords_sorted`), and a delta has the journal from its cursor to the watermark
(`readDeltaRecords_range`). So what `prepare_new_frozen_page` builds answers its request
(`prepareNewBatch_batchFor`).
-/

namespace FactExport

open Fallible Time Protocol Export

variable {retentionDays : Nat} {s : StoredExportState}

section
variable {φ : Type} (env : ExporterEnv φ)

/-- A change of the index names the logical key of its fact. -/
def factDecode (c : RemoteExportChange) : Option (String × MaterializedChangeRole) :=
  match env.codec.decodeMutation c.payload with
  | .ok (.upsert fact) => some (logicalKey env fact.eventId, .upsert)
  | .ok (.tombstone eventId _) => some (logicalKey env eventId, .tombstone)
  | .error _ => none

/-- The indexes of a source: the empty one, and what a complete scan reconciles it to. -/
inductive ReachableIndex (retentionDays : Nat) : StoredExportState → Prop
  | new (generation : Nat) (observedAt : DateTime) :
      ReachableIndex retentionDays (StoredExportState.new env.store.source
        env.store.redactionProfile generation observedAt)
  | reconcile {s s' : StoredExportState} (facts : List (RemoteUsageEventFact φ))
      (observedAt : DateTime) {desired : List RemoteExportDesiredRecord} :
      ReachableIndex retentionDays s →
      desiredFactRecords env facts retentionDays = .ok desired →
      reconcileMaterializedRecords env.store s observedAt desired .authoritative = .ok s' →
      ReachableIndex retentionDays s'

/-- The invariant of an index. -/
structure FactIndex (s : StoredExportState) : Prop where
  linked : ∃ upserts, Linked (factDecode env) ⟨s, upserts⟩
  sorted : SortedOld s.materializedRecords

variable {env}

/-! ## The index -/

theorem desiredFactRecord_coherent {fact : RemoteUsageEventFact φ}
    {record : RemoteExportDesiredRecord}
    (h : desiredFactRecord env retentionDays fact = .ok record) :
    record.Coherent (factDecode env) := by
  obtain ⟨upsert, hupsert, h⟩ := bind_ok h
  obtain ⟨tombstone, htombstone, h⟩ := bind_ok h
  obtain ⟨-, -, h⟩ := bind_ok h
  obtain ⟨rfl, -⟩ := checked_ok hupsert
  obtain ⟨rfl, -⟩ := checked_ok htombstone
  cases h
  constructor
  · simp only [factDecode, env.codec.decode_encodeMutation]
  · simp only [factDecode, env.codec.decode_encodeMutation]

theorem desiredFactRecords_coherent {facts : List (RemoteUsageEventFact φ)}
    {desired : List RemoteExportDesiredRecord}
    (h : desiredFactRecords env facts retentionDays = .ok desired) :
    ∀ record ∈ desired, record.Coherent (factDecode env) := by
  obtain ⟨unsorted, hmap, h⟩ := bind_ok h
  obtain ⟨-, -, h⟩ := bind_ok h
  cases h
  intro record hrecord
  rw [List.mem_insertionSort] at hrecord
  obtain ⟨fact, -, hfact⟩ := mapM_ok_mem hmap hrecord
  exact desiredFactRecord_coherent hfact

theorem FactIndex.reconcile {s s' : StoredExportState} (h : FactIndex env s) {now : DateTime}
    {desired : List RemoteExportDesiredRecord}
    (hcoherent : ∀ record ∈ desired, record.Coherent (factDecode env))
    (hr : reconcileMaterializedRecords env.store s now desired .authoritative = .ok s') :
    FactIndex env s' := by
  obtain ⟨_, hdesired, hr⟩ := bind_ok hr
  obtain ⟨current, -, hr⟩ := bind_ok hr
  split at hr
  · cases hr
    exact h
  · obtain ⟨reconciled, hreconciled, hr⟩ := bind_ok hr
    cases hr
    obtain ⟨upserts, hlinked⟩ := h.linked
    have hadvance : Advance (factDecode env) ⟨s, upserts⟩ ∅
        ⟨reconciled.1, latestUpserts reconciled.1⟩ :=
      advance_reconcile hlinked hdesired hcoherent hreconciled
    exact ⟨⟨_, hadvance.1⟩, (validate_ok (reconcile_validates hreconciled)).1⟩

theorem ReachableIndex.factIndex (h : ReachableIndex env retentionDays s) : FactIndex env s := by
  induction h with
  | new generation observedAt =>
    exact ⟨⟨_, linked_empty _ _ _ _⟩, List.Pairwise.nil⟩
  | reconcile facts observedAt _ hdesired hr ih =>
    exact ih.reconcile (desiredFactRecords_coherent hdesired) hr

/-! ## Snapshots -/

theorem snapshotRecord_key {upsert : RemoteExportMaterializedUpsert}
    {record : RemoteUsageEventFactRecord φ} (h : snapshotRecord env upsert = .ok record) {key : String}
    (hkey : factDecode env upsert.change = some (key, .upsert)) :
    logicalKey env record.eventId = key := by
  obtain ⟨mutation, hmutation, h⟩ := bind_ok h
  unfold factDecode at hkey
  rw [hmutation] at hkey
  cases mutation with
  | tombstone => cases h
  | upsert fact =>
    obtain ⟨-, -, h⟩ := bind_ok h
    cases h
    cases hkey
    rfl

theorem materializedUpserts_ok (h : FactIndex env s)
    {upserts : List RemoteExportMaterializedUpsert} (hu : materializedUpserts s = .ok upserts) :
    upserts.map (·.logicalKey) = s.materializedRecords.map (·.logicalKey) ∧
      ∀ upsert ∈ upserts, factDecode env upsert.change = some (upsert.logicalKey, .upsert) := by
  obtain ⟨current, hlinked⟩ := h.linked
  obtain ⟨captured, hcaptured, hu⟩ := bind_ok hu
  have hlookup := hlinked.capture hcaptured
  have hentry : ∀ record ∈ s.materializedRecords, ∀ upsert, (do
      let change ← okOr (captured.lookup record.logicalKey)
        "remote materialized upsert disappeared from its journal"
      let revision ← okOr (s.latestRevision record.currentChangeId)
        "remote materialized upsert has no journal revision"
      pure (⟨record.logicalKey, record.expiresAt, revision, change⟩ :
        RemoteExportMaterializedUpsert)) = .ok upsert →
      upsert.logicalKey = record.logicalKey ∧
        factDecode env upsert.change = some (upsert.logicalKey, .upsert) := by
    intro record hrecord upsert hupsert
    obtain ⟨change, hchange, hupsert⟩ := bind_ok hupsert
    obtain ⟨revision, -, hupsert⟩ := bind_ok hupsert
    cases hupsert
    obtain ⟨c, hc, hof⟩ := hlinked.current record hrecord
    have heq : some change = some c := by rw [← okOr_ok.1 hchange, hlookup, hc]
    cases heq
    exact ⟨rfl, hof.upsert⟩
  refine ⟨mapM_ok_map hu fun record hrecord upsert hok => (hentry record hrecord upsert hok).1,
    fun upsert hupsert => ?_⟩
  obtain ⟨record, hrecord, hok⟩ := mapM_ok_mem hu hupsert
  exact (hentry record hrecord upsert hok).2

/-- **One record for every event, sorted.** -/
theorem snapshotRecords_sorted (h : FactIndex env s)
    {records : List (RemoteUsageEventFactRecord φ)} (hr : snapshotRecords env s = .ok records) :
    (records.map (·.eventId)).Pairwise (· < ·) := by
  obtain ⟨upserts, hupserts, hr⟩ := bind_ok hr
  obtain ⟨unsorted, hunsorted, hr⟩ := bind_ok hr
  cases hr
  obtain ⟨hkeys, hdecode⟩ := materializedUpserts_ok h hupserts
  have hkeyed : unsorted.map (fun record => logicalKey env record.eventId) =
      s.materializedRecords.map (·.logicalKey) := by
    rw [← hkeys]
    exact mapM_ok_map hunsorted fun upsert hupsert record hok =>
      snapshotRecord_key hok (hdecode upsert hupsert)
  have hnodup : (unsorted.map (·.eventId)).Nodup := by
    refine List.Nodup.of_map (logicalKey env) ?_
    rw [List.map_map]
    show (unsorted.map fun record => logicalKey env record.eventId).Nodup
    rw [hkeyed]
    exact List.pairwise_map.2 (h.sorted.imp fun hlt => ne_of_lt hlt)
  have hdistinct : ((unsorted.insertionSort fun a b => a.eventId ≤ b.eventId).map
      (·.eventId)).Nodup := ((List.perm_insertionSort _ unsorted).map _).nodup_iff.2 hnodup
  have hle : (unsorted.insertionSort fun a b => a.eventId ≤ b.eventId).Pairwise
      fun a b => a.eventId ≤ b.eventId := by
    have : Std.Total fun a b : RemoteUsageEventFactRecord φ => a.eventId ≤ b.eventId :=
      ⟨fun a b => le_total a.eventId b.eventId⟩
    have : IsTrans (RemoteUsageEventFactRecord φ) fun a b => a.eventId ≤ b.eventId :=
      ⟨fun a b c hab hbc => le_trans hab hbc⟩
    exact List.pairwise_insertionSort _ _
  rw [List.pairwise_map]
  exact (hle.and (List.pairwise_map.1 hdistinct)).imp fun hab => lt_of_le_of_ne hab.1 hab.2

/-! ## Deltas -/

theorem deltaChangeFromEntry_sequence {entry : RemoteExportJournalEntry}
    {change : RemoteUsageEventFactDeltaChange φ}
    (h : deltaChangeFromEntry env entry = .ok change) : change.sequence = entry.sequence := by
  obtain ⟨-, -, h⟩ := bind_ok h
  obtain ⟨mutation, -, h⟩ := bind_ok h
  cases mutation with
  | upsert => cases h; rfl
  | tombstone => cases h; rfl

/-- **A delta is the journal** from its cursor to the watermark. -/
theorem readDeltaRecords_range (hs : Contiguous s) (hsmall : s.currentSequence + 1 < 2 ^ 64) :
    ∀ {fuel : Nat} {next : DeltaCursor}
    {taken records : List (FrozenFactRecord φ)},
    readDeltaRecords env s s.cursor fuel next taken = .ok records →
    next.generation = s.deltaGeneration ∧ next.sequence ≤ s.currentSequence ∧ ∃ changes : List (RemoteUsageEventFactDeltaChange φ),
      records = taken ++ changes.map .delta ∧
      changes.map (·.sequence) = List.range' (next.sequence + 1) (s.currentSequence - next.sequence)
  | fuel, next, taken, records, h => by
    unfold readDeltaRecords at h
    obtain ⟨read, hread, h⟩ := bind_ok h
    cases read with
    | cursorExpired => cases h
    | page page =>
      obtain ⟨changes, hchanges, h⟩ := bind_ok h
      obtain ⟨_, -, h⟩ := bind_ok h
      obtain ⟨hgeneration, hfloor, hle⟩ := readPage_retained (internal_ok.1 hread)
      obtain ⟨k, hk⟩ := readPage_ok hs (by omega) (internal_ok.1 hread)
      have hlength := hs.length
      have hwithin := hk.within
      have hentry : ∀ (i : Nat) e, page.entries[i]? = some e →
          e.sequence = next.sequence + 1 + i := by
        intro i e he
        rw [hk.entries, List.getElem?_take] at he
        split at he
        · rw [List.getElem?_drop] at he
          rw [hs.number _ _ he]
          omega
        · cases he
      have hall : (page.entries.takeWhile fun entry => entry.sequence ≤ s.cursor.sequence) =
          page.entries := by
        refine List.takeWhile_eq_self_iff.2 fun e he => ?_
        obtain ⟨i, hi⟩ := List.mem_iff_getElem?.1 he
        have hlt := (List.getElem?_eq_some_iff.1 hi).1
        rw [hk.entries, List.length_take] at hlt
        have hseq := hentry i e hi
        show decide (e.sequence ≤ s.currentSequence) = true
        exact decide_eq_true (by omega)
      rw [hall] at hchanges
      have hcount : page.entries.length = k := by
        rw [hk.entries, List.length_take, List.length_drop]
        omega
      have hsequences : changes.map (·.sequence) = List.range' (next.sequence + 1) k := by
        rw [mapM_ok_map (internal_ok.1 hchanges) fun _ _ _ hok => deltaChangeFromEntry_sequence hok]
        refine List.ext_getElem (by simpa using hcount) fun i hi hi' => ?_
        rw [List.length_map] at hi
        rw [List.getElem_map, List.getElem_range', Nat.one_mul]
        exact hentry i _ (List.getElem?_eq_getElem hi)
      rw [hk.through] at h
      refine ⟨hgeneration, hle, ?_⟩
      split at h
      · rename_i hend
        cases h
        have hend : s.currentSequence ≤ next.sequence + k := hend
        refine ⟨changes, rfl, ?_⟩
        rw [hsequences, show s.currentSequence - next.sequence = k by omega]
      · rename_i hmore
        obtain ⟨_, -, h⟩ := bind_ok h
        cases fuel with
        | zero => cases h
        | succ fuel =>
          rw [hk.next] at h
          obtain ⟨-, -, rest, rfl, hrest⟩ := readDeltaRecords_range hs hsmall h
          refine ⟨changes ++ rest, by simp, ?_⟩
          rw [List.map_append, hsequences, hrest,
            show s.currentSequence - next.sequence = k + (s.currentSequence - (next.sequence + k))
              by omega, ← List.range'_append_1]
          rw [show next.sequence + k + 1 = next.sequence + 1 + k by omega]

/-! ## A new batch -/

/-- `generate_batch_identity`, from sixteen random bytes. -/
def generateBatchIdentity (kind : FrozenBatchKind) (random : Nat) : String :=
  match kind with
  | .snapshot => "fact-snapshot-" ++ String.ofList (Hex.toHex 32 random)
  | .delta => "fact-delta-" ++ String.ofList (Hex.toHex 32 random)

theorem validateBatchIdentity_hex {stem : String} (hsize : stem.utf8ByteSize ≤ 96)
    (hstem : (stem.toList.all fun c => c.isAlphanum || c == '-' || c == '_') = true)
    (random : Nat) :
    validateBatchIdentity (stem ++ String.ofList (Hex.toHex 32 random)) = .ok () := by
  have hhex : (String.ofList (Hex.toHex 32 random)).utf8ByteSize = 32 := by
    rw [utf8ByteSize_ofList utf8Size_toHex, Hex.toHex_length]
  refine ensure_of ⟨fun hempty => ?_, ?_, ?_⟩
  · have hbytes := congrArg String.utf8ByteSize hempty
    rw [String.utf8ByteSize_append, hhex] at hbytes
    exact absurd hbytes (by simp)
  · rw [String.utf8ByteSize_append, hhex]
    omega
  · rw [String.toList_append, List.all_append, hstem, Bool.true_and, String.toList_ofList,
      List.all_eq_true]
    intro c hc
    obtain ⟨d, hd, rfl⟩ := Hex.mem_toHex hc
    rw [isAlphanum_digitChar hd]
    rfl

theorem generateBatchIdentity_valid (kind : FrozenBatchKind) (random : Nat) :
    validateBatchIdentity (generateBatchIdentity kind random) = .ok () := by
  cases kind with
  | snapshot => exact validateBatchIdentity_hex (by decide) (by decide) random
  | delta => exact validateBatchIdentity_hex (by decide) (by decide) random

/-- The position of a request that asks for a new batch. -/
def SessionFactsPosition.startKind : SessionFactsPosition → Option FrozenBatchKind
  | .snapshotStart => some .snapshot
  | .deltaStart _ => some .delta
  | _ => none

/-- **What a source builds answers its request.** -/
theorem prepareNewBatch_batchFor {s' : StoredExportState}
    (hindex : ReachableIndex env retentionDays s) {facts : List (RemoteUsageEventFact φ)}
    {request : SessionFactsRequest} (hrequest : request.validate = .ok ())
    {kind : FrozenBatchKind} (hkind : request.position.startKind = some kind)
    {observedAt : DateTime} {random : Nat} {header : FrozenBatchHeader}
    {records : List (FrozenFactRecord φ)}
    (h : prepareNewBatch env s facts request observedAt (generateBatchIdentity kind random) =
      .ok (s', header, records)) (hbounded : records.length ≤ maxCompleteFactBatchRecords)
    (hsmall : s'.currentSequence + 1 < 2 ^ 64) : BatchFor env.store request header records := by
  obtain ⟨desired, hdesired, h⟩ := bind_ok h
  obtain ⟨preflight, -, h⟩ := bind_ok h
  obtain ⟨reconciled, hreconciled, h⟩ := bind_ok h
  obtain ⟨-, -, h⟩ := bind_ok h
  obtain ⟨⟨batchKind, original, batch⟩, hbatch, h⟩ := bind_ok h
  cases h
  have hfacts : FactIndex env s' := hindex.factIndex.reconcile
    (desiredFactRecords_coherent (internal_ok.1 hdesired)) (internal_ok.1 hreconciled)
  obtain ⟨upserts, hlinked⟩ := hfacts.linked
  have hcontiguous : Contiguous s' := hlinked.contiguous
  obtain ⟨_, hretention, hrest⟩ := bind_ok hrequest
  obtain ⟨_, hcount, hrest⟩ := bind_ok hrest
  obtain ⟨_, hvalid, hrest⟩ := bind_ok hrest
  have hretention := ensure_ok.1 hretention
  have hcount := ensure_ok.1 hcount
  have hvalid := ensure_ok.1 hvalid
  have hsorted := ensure_ok.1 hrest
  have hidentity := generateBatchIdentity_valid kind random
  cases hposition : request.position with
  | snapshotContinue => rw [hposition] at hkind; cases hkind
  | deltaContinue => rw [hposition] at hkind; cases hkind
  | snapshotStart =>
    rw [hposition] at hbatch
    obtain ⟨rs, hrs, hbatch⟩ := bind_ok hbatch
    cases hbatch
    refine ⟨⟨?_, rfl, rfl, rfl, rfl, rfl, rfl⟩, by show s'.currentSequence < _; omega, ?_⟩
    · unfold FrozenBatchHeader.validate
      rw [ensure_of ⟨rfl, hretention.1, hretention.2, hcount.1, hcount.2, hsorted, hvalid, hbounded,
        by simp, by simp, by simp⟩, ok_bind]
      exact hidentity
    · rw [hposition]
      exact .snapshot rs rfl rfl (snapshotRecords_sorted hfacts (internal_ok.1 hrs))
  | deltaStart cursor =>
    rw [hposition] at hbatch
    obtain ⟨rs, hrs, hbatch⟩ := bind_ok hbatch
    cases hbatch
    obtain ⟨hgeneration, hle, changes, rfl, hsequence⟩ := readDeltaRecords_range hcontiguous hsmall hrs
    rw [List.nil_append] at hbounded ⊢
    have hlength : changes.length = s'.currentSequence - cursor.throughSequence := by
      simpa using congrArg List.length hsequence
    refine ⟨⟨?_, rfl, rfl, rfl, rfl, rfl, rfl⟩, by show s'.currentSequence < _; omega, ?_⟩
    · unfold FrozenBatchHeader.validate
      rw [ensure_of ⟨rfl, hretention.1, hretention.2, hcount.1, hcount.2, hsorted, hvalid, hbounded,
        fun c hc => by cases hc; exact hgeneration, by simp, by simp⟩, ok_bind]
      exact hidentity
    · rw [hposition]
      refine .delta cursor changes rfl rfl ?_ ?_
      · rw [hlength]
        exact hsequence
      · show _ = s'.currentSequence
        have : cursor.throughSequence ≤ s'.currentSequence := hle
        omega

end

end FactExport
