import Mathlib.Data.Countable.Basic
import Mathlib.Logic.Equiv.List
import Mathlib.Tactic.DeriveCountable
import UsageMonit.FactExport.Proof.Built
import UsageMonit.FactExport.Proof.Delivery

/-!
# Fact batches, from the index to the center

`frozen_batch_delivered_whole_or_expired`: what `prepare_new_frozen_page` builds, and every batch
of that form, reaches the center whole or not at all. `unsorted_batch_is_not_delivered` is a batch
of another form that `frozen_batch_changes` accepts as well.
-/

namespace FactExport

open Fallible Time Protocol Export Facts

section
variable {φ : Type} {env : ExporterEnv φ} {request : SessionFactsRequest}
  {header : FrozenBatchHeader} {records : List (FrozenFactRecord φ)}

theorem kindFits_start {position : SessionFactsPosition}
    (h : BatchRecords header position records) : kindFits header.kind position = true := by
  cases h with
  | snapshot _ hkind => rw [hkind]; rfl
  | delta _ _ hkind => rw [hkind]; rfl

theorem startFrozenPage_ok (hsound : env.Sound) (h : Frozen env request header records)
    (hfits : kindFits header.kind request.position = true) (hne : records ≠ [])
    {changes : List RemoteExportChange}
    (hchanges : frozenBatchChanges env.codec header records = .ok changes) {generation : Nat}
    {now : DateTime} (hnow : minUtc ≤ now) (w : FactSource) :
    startFrozenPage env w request now header records generation = .ok ({ w with
        batches := w.batches.insert header.key (frozenState env header records generation now)
        identities := header.key :: w.identities },
      pageFrom header records generation 1 now) := by
  have hfreeze : freezeBatch env.codec env.store header records generation now =
      .ok (frozenState env header records generation now) :=
    freezeBatch_ok hsound.limits hsound.json hnow hchanges h.recordCount
  have hload : loadFrozenPageWithSession env.codec env.store
      (frozenState env header records generation now) request now header none =
        .ok (pageFrom header records generation 1 now) :=
    loadFrozenPageWithSession_ok hsound h hfits rfl (le_refl 1) (by omega)
  unfold startFrozenPage
  rw [if_neg hne, hfreeze, ok_bind, hload]
  rfl

theorem BatchFor.frozen (h : BatchFor env.store request header records)
    {changes : List RemoteExportChange}
    (hchanges : frozenBatchChanges env.codec header records = .ok changes) :
    Frozen env request header records := by
  obtain ⟨rfl, happ, hle⟩ := frozenBatchChanges_ok hchanges
  exact ⟨h.toHeaderFor, happ, hle⟩

theorem BatchFor.delivers (hsound : env.Sound) (h : BatchFor env.store request header records) :
    DeliversWhole env request header records := by
  intro changes hchanges generation hpos hlt now hnow w
  have hfrozen : Frozen env request header records := h.frozen hchanges
  by_cases hne : records = []
  · subst hne
    refine ⟨w, pageFrom header [] header.factGeneration 1 now, if_pos rfl, ?_⟩
    intro initialCursor hcursor sources times cuts _ _ hcuts fuel hfuel
    have hplace : ([] : List (FrozenFactRecord φ)) ≠ [] → ∀ j, InPlaceOrGone header.key
        (frozenState env header [] header.factGeneration now) (sources j) :=
      fun hne => absurd rfl hne
    exact syncPages_whole hsound hfrozen h.shape h.watermark hcursor (fun hne => absurd rfl hne)
      hplace hcuts hfuel
  · refine ⟨_, _, startFrozenPage_ok hsound hfrozen (kindFits_start h.shape) hne
      hchanges hnow w, ?_⟩
    intro initialCursor hcursor sources times cuts hfirst hsteps hcuts fuel hfuel
    have hplace : ∀ j, InPlaceOrGone header.key (frozenState env header records generation now)
        (sources j) := by
      intro j
      induction j with
      | zero =>
        rw [hfirst]
        exact ⟨List.mem_cons_self, Or.inl (AList.lookup_insert _)⟩
      | succ j ih => exact ih.steps (hsteps j)
    exact syncPages_whole hsound hfrozen h.shape h.watermark hcursor (fun _ => ⟨hpos, hlt⟩)
      (fun _ => hplace) hcuts hfuel

/-- **Whole or not at all.** Every batch for its request is delivered whole unless it expires, and
every batch that a source builds is one. -/
theorem frozen_batch_delivered_whole_or_expired (env : ExporterEnv φ) (hsound : env.Sound) :
    (∀ request header (records : List (FrozenFactRecord φ)),
      BatchFor env.store request header records → DeliversWhole env request header records) ∧
    ∀ retentionDays s, ReachableIndex env retentionDays s →
      ∀ facts (request : SessionFactsRequest), request.validate = .ok () →
      ∀ kind, request.position.startKind = some kind →
      ∀ observedAt random s' header (records : List (FrozenFactRecord φ)),
      prepareNewBatch env s facts request observedAt (generateBatchIdentity kind random) =
        .ok (s', header, records) →
      s'.currentSequence + 1 < 2 ^ 64 →
      DeliversWhole env request header records := by
  refine ⟨fun request header records h => h.delivers hsound, ?_⟩
  intro retentionDays s hindex facts request hrequest kind hkind observedAt random s' header records
    hbuilt hsmall changes hchanges
  obtain ⟨-, -, hle⟩ := frozenBatchChanges_ok hchanges
  have hbatch : BatchFor env.store request header records :=
    prepareNewBatch_batchFor hindex hrequest hkind hbuilt hle hsmall
  exact hbatch.delivers hsound changes hchanges

end

/-! ## Samples -/

namespace Sample

instance countableString : Countable String := by
  have hchar : Countable Char := Function.Injective.countable fun a b h => Char.toNat_inj.1 h
  exact Function.Injective.countable fun a b h => String.toList_inj.1 h

deriving instance Countable for SourceGeneration
deriving instance Countable for RedactionProfile
deriving instance Countable for FactCursor
deriving instance Countable for SessionFactsDigestBinding
deriving instance Countable for FrozenBatchKind
deriving instance Countable for FrozenBatchHeader
deriving instance Countable for RemoteUsageEventFact
deriving instance Countable for RemoteUsageEventFactMutation
deriving instance Countable for RemoteUsageEventFactRecord
deriving instance Countable for RemoteUsageEventFactDeltaChange
deriving instance Countable for FrozenFactRecord
deriving instance Countable for FrozenBatchEntry
deriving instance Countable for StoredFactMutation

section
variable {α : Type} [Countable α] [DecidableEq α]

/-- A number for every value, small ones for the values of the table. -/
noncomputable def number (table : List α) (a : α) : Nat :=
  if a ∈ table then table.idxOf a
  else table.length + Classical.choose (exists_injective_nat α) a

theorem number_injective (table : List α) : Function.Injective (number table) := by
  intro a b h
  unfold number at h
  split at h <;> rename_i ha <;> split at h <;> rename_i hb
  · exact (List.idxOf_inj ha).1 h
  · have := List.idxOf_lt_length_of_mem ha
    omega
  · have := List.idxOf_lt_length_of_mem hb
    omega
  · exact Classical.choose_spec (exists_injective_nat α) (Nat.add_left_cancel h)

/-- As many bytes as the number says. -/
noncomputable def encode (table : List α) (a : α) : List UInt8 :=
  List.replicate (number table a) 0

open Classical in
noncomputable def decode (table : List α) (bytes : List UInt8) : Except String α :=
  if h : ∃ a, encode table a = bytes then .ok h.choose else .error "invalid"

theorem decode_encode (table : List α) (a : α) : decode table (encode table a) = .ok a := by
  have hex : ∃ b, encode table b = encode table a := ⟨a, rfl⟩
  have hlength := congrArg List.length hex.choose_spec
  simp only [encode, List.length_replicate] at hlength
  unfold decode
  rw [dif_pos hex]
  exact congrArg Except.ok (number_injective table hlength)

end

def digest : SessionFactsDigestBinding :=
  ⟨0, days 1, days 1, true, "f", "p", 1, 1, 1, 1, 1⟩

def request : SessionFactsRequest := ⟨"thread", 35, [digest], .snapshotStart⟩

def header : FrozenBatchHeader where
  formatVersion := batchFormatVersion
  kind := .snapshot
  batchIdentity := "fact-snapshot-01"
  source := ⟨"node", 1⟩
  redactionProfile := .redacted
  threadId := "thread"
  retentionDays := 35
  expectedDigests := [digest]
  factGeneration := 1
  watermark := 2
  originalCursor := none
  recordCount := 2
  createdAt := 0

def recordA : RemoteUsageEventFactRecord Unit := ⟨"a", 0, 1, .upsert ⟨"a", 0, ()⟩⟩
def recordB : RemoteUsageEventFactRecord Unit := ⟨"b", 0, 2, .upsert ⟨"b", 0, ()⟩⟩

def sorted : List (FrozenFactRecord Unit) := [recordA, recordB].map .snapshot
def unsorted : List (FrozenFactRecord Unit) := [recordB, recordA].map .snapshot

def entries : List (FrozenBatchEntry Unit) :=
  [.header header, .record (.snapshot recordA), .record (.snapshot recordB)]

noncomputable def env : ExporterEnv Unit where
  codec := {
    encodeEntry := encode entries
    decodeEntry := decode entries
    decode_encodeEntry := decode_encode entries
    encodeMutation := encode []
    decodeMutation := decode []
    decode_encodeMutation := decode_encode [] }
  store := {
    source := ⟨"node", 1⟩
    redactionProfile := .redacted
    limits := {}
    encodedStateJsonSize := fun s =>
      .ok (400 + (s.entries.map fun e => 4 * e.change.payload.length + 513).sum)
    encodedEntryJsonSize := fun e => .ok (4 * e.change.payload.length + 300)
    validateLive := fun _ _ => .ok () }
  domainHash := fun _ bytes => toString bytes.length

theorem sound : env.Sound :=
  ⟨rfl, fun e _ => ⟨_, rfl, by omega⟩, fun s _ _ _ _ => ⟨_, rfl, by omega⟩⟩

theorem encode_entries : env.codec.encodeEntry (.header header) = [] ∧
    env.codec.encodeEntry (.record (.snapshot recordA)) = [0] ∧
    env.codec.encodeEntry (.record (.snapshot recordB)) = [0, 0] := by
  have hnumber : number entries (.header header) = 0 ∧
      number entries (.record (.snapshot recordA)) = 1 ∧
      number entries (.record (.snapshot recordB)) = 2 := by
    refine ⟨?_, ?_, ?_⟩ <;>
    · unfold number
      rw [if_pos (by decide)]
      decide
  obtain ⟨h0, h1, h2⟩ := hnumber
  refine ⟨?_, ?_, ?_⟩
  · show List.replicate (number entries _) 0 = _
    rw [h0]
    rfl
  · show List.replicate (number entries _) 0 = _
    rw [h1]
    rfl
  · show List.replicate (number entries _) 0 = _
    rw [h2]
    rfl

theorem sorted_accepted : ∃ changes, frozenBatchChanges env.codec header sorted = .ok changes := by
  obtain ⟨h0, h1, h2⟩ := encode_entries
  exact ⟨_, rfl⟩

theorem unsorted_accepted :
    ∃ changes, frozenBatchChanges env.codec header unsorted = .ok changes := by
  obtain ⟨h0, h1, h2⟩ := encode_entries
  exact ⟨_, rfl⟩

theorem headerFor {records : List (FrozenFactRecord Unit)} (h : records.length = 2) :
    HeaderFor env.store request header records :=
  ⟨by decide, rfl, rfl, rfl, rfl, rfl, h.symm⟩

theorem batchFor : BatchFor env.store request header sorted :=
  ⟨headerFor rfl, by decide, .snapshot [recordA, recordB] rfl rfl (by decide)⟩

end Sample

/-- The sorted batch is delivered whole, and so is what a scan without facts builds. -/
theorem frozen_batch_delivered_whole_or_expired_sample :
    (∃ changes, frozenBatchChanges Sample.env.codec Sample.header Sample.sorted = .ok changes) ∧
    DeliversWhole Sample.env Sample.request Sample.header Sample.sorted ∧
    ∃ s' header, prepareNewBatch Sample.env (StoredExportState.new Sample.env.store.source
        Sample.env.store.redactionProfile 7 0) [] Sample.request 0
        (generateBatchIdentity .snapshot 1) = .ok (s', header, []) ∧
      DeliversWhole Sample.env Sample.request header [] := by
  refine ⟨Sample.sorted_accepted,
    (frozen_batch_delivered_whole_or_expired Sample.env Sample.sound).1 _ _ _ Sample.batchFor,
    _, _, rfl, ?_⟩
  exact (frozen_batch_delivered_whole_or_expired Sample.env Sample.sound).2 35 _ (.new 7 0) []
    Sample.request rfl .snapshot rfl 0 1 _ _ [] rfl (by decide)

/-- Records out of order: the batch is frozen, the center refuses its only page. -/
theorem unsorted_batch_is_not_delivered :
    (∃ changes, frozenBatchChanges Sample.env.codec Sample.header Sample.unsorted = .ok changes) ∧
    ¬ DeliversWhole Sample.env Sample.request Sample.header Sample.unsorted := by
  refine ⟨Sample.unsorted_accepted, fun h => ?_⟩
  obtain ⟨changes, hchanges⟩ := Sample.unsorted_accepted
  obtain ⟨rfl, happ, hle⟩ := frozenBatchChanges_ok hchanges
  have hfrozen : Frozen Sample.env Sample.request Sample.header Sample.unsorted :=
    ⟨Sample.headerFor rfl, happ, hle⟩
  obtain ⟨w', first, hstart, hrun⟩ := h _ hchanges 1 (by decide) (by decide) 0 (by decide)
    ⟨∅, ∅, []⟩
  rw [startFrozenPage_ok Sample.sound hfrozen rfl (by decide) hchanges (by decide)] at hstart
  cases hstart
  have hrefused : ∀ w, syncPages Sample.env Sample.request none (fun _ => w) (fun _ => 0)
      (fun _ => 2) 3 0 {} (pageFrom Sample.header Sample.unsorted 1 1 0) =
        .error (.center (.pageContinuity
          "snapshot event IDs are not globally sorted and unique")) := fun _ => rfl
  rcases hrun none (by decide) (fun _ => _) (fun _ => 0) (fun _ => 2) rfl
    (fun _ => Relation.ReflTransGen.refl) (fun _ => by decide) 3 (by decide) with hexpired | ⟨_, hok, -⟩
  · rw [hrefused] at hexpired
    cases hexpired
  · rw [hrefused] at hok
    cases hok

end FactExport
