import Mathlib.Data.List.Dedup
import UsageMonit.Export.Proof.Merge

/-!
# The materialized set follows the journal

`ExportRun` is an export state with the latest upsert of every current key: the map every mutation
captures before it prunes the journal. `Linked` is the invariant between the two. Each operation of
the journal keeps it and changes the map exactly as replaying what it appended (`Advance`):
`advance_discard`, `advance_clock` and, for every batch, `advance_extend`; from these
`advance_expire`, `advance_refresh`, `advance_append` and `advance_reconcile`.
-/

namespace Export

open Fallible Time WindowedLog

variable {decode : RemoteExportChange → Option (String × MaterializedChangeRole)}
  {store : RemoteExportStateStore} {s s' : StoredExportState}
  {U : String → Option RemoteExportChange} {upserts : ChangeMap}

/-! ## What validation says -/

theorem validateMaterializedRecord_ok {ids : AList fun _ : String => List UInt8}
    {prev : Option String} {owners owners' : IdOwners} {r : StoredMaterializedRecord}
    (h : validateMaterializedRecord s ids prev owners r = .ok owners') :
    (∀ key ∈ prev, key < r.logicalKey) ∧
      ∃ e, s.entryAtSequence r.lastUpsertSequence = some e := by
  obtain ⟨-, -, h⟩ := bind_ok h
  obtain ⟨-, -, h⟩ := bind_ok h
  obtain ⟨-, -, h⟩ := bind_ok h
  obtain ⟨_, hprev, h⟩ := bind_ok h
  obtain ⟨-, -, h⟩ := bind_ok h
  obtain ⟨_, -, h⟩ := bind_ok h
  obtain ⟨_, -, h⟩ := bind_ok h
  obtain ⟨-, -, h⟩ := bind_ok h
  obtain ⟨e, he, h⟩ := bind_ok h
  exact ⟨ensure_ok.1 hprev, e, okOr_ok.1 he⟩

theorem validateMaterializedRecords_ok {ids : AList fun _ : String => List UInt8} :
    ∀ {rs : List StoredMaterializedRecord}
    {prev : Option String} {owners : IdOwners},
    validateMaterializedRecords s ids rs prev owners = .ok () →
    SortedOld rs ∧ (∀ key ∈ prev, ∀ r ∈ rs, key < r.logicalKey) ∧
      ∀ r ∈ rs, ∃ e, s.entryAtSequence r.lastUpsertSequence = some e
  | [], _, _, _ => ⟨List.Pairwise.nil, by simp, by simp⟩
  | r :: rs, prev, owners, h => by
    obtain ⟨owners', hr, h⟩ := bind_ok h
    obtain ⟨hprev, he⟩ := validateMaterializedRecord_ok hr
    obtain ⟨hs, hk, hes⟩ := validateMaterializedRecords_ok h
    have hlt := hk r.logicalKey rfl
    refine ⟨List.pairwise_cons.2 ⟨hlt, hs⟩, fun key hkey q hq => ?_, fun q hq => ?_⟩
    · rcases List.mem_cons.1 hq with rfl | hq
      · exact hprev key hkey
      · exact lt_trans (hprev key hkey) (hlt q hq)
    · rcases List.mem_cons.1 hq with rfl | hq
      · exact he
      · exact hes q hq

theorem validateJournal_ok (h : s.validateJournal = .ok ()) :
    SortedOld s.materializedRecords ∧
      ∀ r ∈ s.materializedRecords, ∃ e, s.entryAtSequence r.lastUpsertSequence = some e := by
  unfold StoredExportState.validateJournal at h
  split at h
  · rw [(ensure_ok.1 h).2]
    exact ⟨List.Pairwise.nil, by simp⟩
  · obtain ⟨_, -, h⟩ := bind_ok h
    obtain ⟨_, -, h⟩ := bind_ok h
    obtain ⟨_, -, h⟩ := bind_ok h
    obtain ⟨hs, -, he⟩ := validateMaterializedRecords_ok h
    exact ⟨hs, he⟩

theorem validate_ok (h : s.validate store = .ok ()) :
    SortedOld s.materializedRecords ∧
      ∀ r ∈ s.materializedRecords, ∃ e, s.entryAtSequence r.lastUpsertSequence = some e := by
  iterate 5 obtain ⟨_, -, h⟩ := bind_ok h
  exact validateJournal_ok h

theorem validateDesiredRecordsLoop_ok : ∀ {rs : List RemoteExportDesiredRecord}
    {prev : Option String} {owners : IdOwners},
    validateDesiredRecordsLoop rs prev owners = .ok () →
    SortedDesired rs ∧ ∀ key ∈ prev, ∀ r ∈ rs, key < r.logicalKey
  | [], _, _, _ => ⟨List.Pairwise.nil, by simp⟩
  | r :: rs, prev, owners, h => by
    obtain ⟨_, -, h⟩ := bind_ok h
    obtain ⟨_, hprev, h⟩ := bind_ok h
    obtain ⟨_, -, h⟩ := bind_ok h
    obtain ⟨_, -, h⟩ := bind_ok h
    have hprev := ensure_ok.1 hprev
    obtain ⟨hs, hk⟩ := validateDesiredRecordsLoop_ok h
    have hlt := hk r.logicalKey rfl
    refine ⟨List.pairwise_cons.2 ⟨hlt, hs⟩, fun key hkey q hq => ?_⟩
    rcases List.mem_cons.1 hq with rfl | hq
    · exact hprev key hkey
    · exact lt_trans (hprev key hkey) (hlt q hq)

theorem validateDesiredRecords_ok {rs : List RemoteExportDesiredRecord}
    (h : validateDesiredRecords rs = .ok ()) : SortedDesired rs := by
  obtain ⟨_, -, h⟩ := bind_ok h
  exact (validateDesiredRecordsLoop_ok h).1

/-! ## Runs and their invariant -/

/-- An export state with the latest upsert of every current key. -/
structure ExportRun where
  state : StoredExportState
  upserts : String → Option RemoteExportChange

/-- The upserts of the current records, read from the journal. -/
def latestUpserts (s : StoredExportState) (key : String) : Option RemoteExportChange :=
  (s.materializedRecords.find? (·.logicalKey = key)).bind fun r =>
    (s.entryAtSequence r.lastUpsertSequence).map (·.change)

/-- The map has exactly the current keys, and what the journal retains of a current record's
upsert is the map's value. -/
structure Linked (decode : RemoteExportChange → Option (String × MaterializedChangeRole))
    (x : ExportRun) : Prop where
  contiguous : Contiguous x.state
  current : ∀ r ∈ x.state.materializedRecords,
    ∃ c, x.upserts r.logicalKey = some c ∧ RecordOf decode x.state r c
  absent : ∀ k, (∀ r ∈ x.state.materializedRecords, r.logicalKey ≠ k) → x.upserts k = none

/-- When the upserts of all records are retained, the map can be read from the journal. -/
theorem Linked.latest_of_retained {x : ExportRun} (h : Linked decode x)
    (hret : ∀ r ∈ x.state.materializedRecords,
      ∃ e, x.state.entryAtSequence r.lastUpsertSequence = some e) :
    latestUpserts x.state = x.upserts := by
  funext k
  unfold latestUpserts
  cases hf : x.state.materializedRecords.find? (·.logicalKey = k) with
  | none =>
    rw [List.find?_eq_none] at hf
    exact (h.absent k fun r hr hk => hf r hr (by simpa using hk)).symm
  | some r =>
    have hr := List.mem_of_find?_eq_some hf
    have hk : r.logicalKey = k := by simpa using List.find?_some hf
    obtain ⟨e, he⟩ := hret r hr
    obtain ⟨c, hc, hrec⟩ := h.current r hr
    rw [Option.bind_some, he, Option.map_some, hrec.entry e he, ← hk, hc]

theorem Linked.latest {x : ExportRun} (h : Linked decode x) (hv : x.state.validate store = .ok ()) :
    latestUpserts x.state = x.upserts :=
  h.latest_of_retained (validate_ok hv).2

theorem capture_lookup :
    ∀ {rs : List StoredMaterializedRecord} {acc upserts : ChangeMap},
      (∀ r ∈ rs, ∀ e, s.entryAtSequence r.lastUpsertSequence = some e →
        U r.logicalKey = some e.change) →
      captureMaterializedUpserts s rs acc = .ok upserts → ∀ k,
      ((∃ r ∈ rs, r.logicalKey = k) → upserts.lookup k = U k) ∧
        ((∀ r ∈ rs, r.logicalKey ≠ k) → upserts.lookup k = acc.lookup k)
  | [], acc, upserts, _, h, k => by
    cases h
    simp
  | r :: rs, acc, upserts, hU, h, k => by
    obtain ⟨e, he, h⟩ := bind_ok h
    obtain ⟨_, -, h⟩ := bind_ok h
    have he := hU r List.mem_cons_self e (okOr_ok.1 he)
    have ih := capture_lookup (fun q hq => hU q (List.mem_cons_of_mem _ hq)) h k
    by_cases hrest : ∃ q ∈ rs, q.logicalKey = k
    · refine ⟨fun _ => ih.1 hrest, fun hne => ?_⟩
      obtain ⟨q, hq, hk⟩ := hrest
      exact absurd hk (hne q (List.mem_cons_of_mem _ hq))
    · have hacc := ih.2 fun q hq hk => hrest ⟨q, hq, hk⟩
      rw [hacc]
      constructor
      · rintro ⟨q, hq, rfl⟩
        rcases List.mem_cons.1 hq with rfl | hq
        · rw [AList.lookup_insert, he]
        · exact absurd ⟨q, hq, rfl⟩ hrest
      · intro hne
        exact AList.lookup_insert_ne fun hk => hne r List.mem_cons_self hk.symm

theorem Linked.capture {x : ExportRun} (h : Linked decode x)
    (hc : captureMaterializedUpserts x.state x.state.materializedRecords ∅ = .ok upserts)
    (k : String) : upserts.lookup k = x.upserts k := by
  have hU : ∀ r ∈ x.state.materializedRecords, ∀ e,
      x.state.entryAtSequence r.lastUpsertSequence = some e →
      x.upserts r.logicalKey = some e.change := fun r hr e he => by
    obtain ⟨c, hc, hrec⟩ := h.current r hr
    rw [hc, hrec.entry e he]
  have hk := capture_lookup hU hc k
  by_cases hex : ∃ r ∈ x.state.materializedRecords, r.logicalKey = k
  · exact hk.1 hex
  · have hne : ∀ r ∈ x.state.materializedRecords, r.logicalKey ≠ k := fun r hr he => hex ⟨r, hr, he⟩
    rw [hk.2 hne, h.absent k hne]
    rfl

/-! ## Advancing -/

/-- What a journal entry does to the consumer's map. -/
def entryEffect (decode : RemoteExportChange → Option (String × MaterializedChangeRole))
    (e : RemoteExportJournalEntry) : Effect String RemoteExportChange :=
  changeEffect decode e.change

def ExportRun.window (x : ExportRun) : Window RemoteExportJournalEntry := x.state.window

/-- The invariant holds after the step, and the map changed as the journal says, except at the
keys `T`. -/
def Advance (decode : RemoteExportChange → Option (String × MaterializedChangeRole))
    (x : ExportRun) (T : Set String) (y : ExportRun) : Prop :=
  Linked decode y ∧ Follows (entryEffect decode) ExportRun.window ExportRun.upserts x T y

theorem Advance.trans {x y z : ExportRun} {T U : Set String} (h₁ : Advance decode x T y)
    (h₂ : Advance decode y U z) : Advance decode x (T ∪ U) z :=
  ⟨h₂.1, h₁.2.trans h₂.2⟩

theorem Advance.andThen {x y z : ExportRun} {T : Set String} (h₁ : Advance decode x T y)
    (h₂ : Advance decode y ∅ z) : Advance decode x T z := by
  simpa using h₁.trans h₂

section

variable (h : Linked decode ⟨s, U⟩)

include h

theorem advance_discard {d : Nat} (hd : d ≤ s.entries.length) :
    Advance decode ⟨s, U⟩ ∅ ⟨s.discard d, U⟩ := by
  refine ⟨⟨h.contiguous.discard hd, fun r hr => ?_, h.absent⟩,
    [], discard_extends hd, fun _ _ => rfl⟩
  obtain ⟨c, hc, hrec⟩ := h.current r hr
  exact ⟨c, hc, hrec.discard h.contiguous hd⟩

theorem advance_clock (clock : RetentionClock) :
    Advance decode ⟨s, U⟩ ∅ ⟨{ s with retentionClock := clock }, U⟩ := by
  refine ⟨⟨h.contiguous.of_window rfl rfl, fun r hr => ?_, h.absent⟩,
    [], Extends.refl _, fun _ _ => rfl⟩
  obtain ⟨c, hc, hrec⟩ := h.current r hr
  exact ⟨c, hc, hrec.of_window rfl rfl⟩

/-- **Every batch.** Appending changes whose replay gives the new map, for new records that point
to their upserts. -/
theorem advance_extend {U' : String → Option RemoteExportChange}
    (t : DateTime) (cs : List RemoteExportChange) {rs : List StoredMaterializedRecord}
    {T : Set String} (hreplay : ∀ k, k ∉ T → replay (changeEffect decode) U cs k = U' k)
    (hcur : ∀ r ∈ rs, ∃ c, U' r.logicalKey = some c ∧ RecordOf decode (s.extend t cs) r c)
    (habs : ∀ k, (∀ r ∈ rs, r.logicalKey ≠ k) → U' k = none) :
    Advance decode ⟨s, U⟩ T ⟨{ s.extend t cs with materializedRecords := rs }, U'⟩ := by
  refine ⟨⟨(h.contiguous.extend t cs).of_window rfl rfl, fun r hr => ?_, habs⟩,
    numbered t s.currentSequence cs, extend_extends s t cs, fun k hk => ?_⟩
  · obtain ⟨c, hc, hrec⟩ := hcur r hr
    exact ⟨c, hc, hrec.of_window rfl rfl⟩
  · show replay (fun e : RemoteExportJournalEntry => changeEffect decode e.change) U _ k = U' k
    rw [replay_map, numbered_change]
    exact hreplay k hk

theorem advance_compact (hc : compactToLimits store s = .ok s') :
    Advance decode ⟨s, U⟩ ∅ ⟨s', U⟩ := by
  obtain ⟨d, hd, rfl⟩ := compactToLimits_ok h.contiguous hc
  exact advance_discard h hd

theorem advance_prune {now : DateTime} {retentionDays : Int} {n : Nat} {deferred : Bool}
    (hp : advanceRetentionAndPruneAge s now retentionDays = .ok (s', n, deferred)) :
    Advance decode ⟨s, U⟩ ∅ ⟨s', U⟩ ∧ s'.materializedRecords = s.materializedRecords := by
  obtain ⟨clock, d, hd, hs⟩ := advanceRetention_ok h.contiguous hp
  subst hs
  exact ⟨(advance_discard h hd).andThen (advance_clock (advance_discard h hd).1 clock), rfl⟩

end

/-! ## Expiry -/

theorem replay_tombstones {U : String → Option RemoteExportChange} :
    ∀ {rs : List StoredMaterializedRecord},
      (∀ r ∈ rs, decode r.tombstone = some (r.logicalKey, .tombstone)) → ∀ k,
      replay (changeEffect decode) U (rs.map (·.tombstone)) k =
        if k ∈ rs.map (·.logicalKey) then none else U k
  | [], _, k => by simp
  | r :: rs, h, k => by
    have hr := changeEffect_tombstone (h r List.mem_cons_self)
    rw [List.map_cons, replay_cons, hr,
      replay_tombstones fun q hq => h q (List.mem_cons_of_mem _ hq)]
    simp only [Effect.apply, List.map_cons, List.mem_cons]
    by_cases hk : k = r.logicalKey <;> simp [hk]

theorem advance_expire {now trustedAt : DateTime} {upserts' : ChangeMap} {n : Nat}
    (h : Linked decode ⟨s, U⟩) (hup : ∀ k, upserts.lookup k = U k)
    (he : expireMaterializedRecords s now trustedAt upserts = .ok (s', n, upserts')) :
    Advance decode ⟨s, U⟩ ∅ ⟨s', upserts'.lookup⟩ := by
  unfold expireMaterializedRecords at he
  dsimp only at he
  split at he
  · cases he
    obtain rfl : upserts.lookup = U := funext hup
    exact ⟨h, Follows.refl _⟩
  · obtain ⟨⟨s1, append⟩, hb, he⟩ := bind_ok he
    obtain ⟨t, sub, hs1, -, hsub, -⟩ := appendChangeBatch_ok hb
    obtain ⟨_, -, he⟩ := bind_ok he
    obtain ⟨_, -, he⟩ := bind_ok he
    obtain rfl := hsub rfl
    subst hs1
    cases he
    set expired := s.materializedRecords.filter fun record => record.expiresAt ≤ trustedAt
    have hmap : ∀ k, ((expired.map (·.logicalKey)).dedup.foldl
        (fun upserts key => upserts.erase key) upserts).lookup k =
        if k ∈ expired.map (·.logicalKey) then none else U k := fun k => by
      rw [lookup_eraseAll, hup]
      simp only [List.mem_dedup]
    refine advance_extend h t _ (fun k _ => ?_) (fun r hr => ?_) fun k hk => ?_
    · rw [hmap, replay_tombstones]
      intro r hr
      obtain ⟨c, -, hrec⟩ := h.current r (List.mem_of_mem_filter hr)
      exact hrec.tombstone
    · rw [List.mem_filter, decide_eq_true_eq, List.mem_dedup] at hr
      obtain ⟨c, hc, hrec⟩ := h.current r hr.1
      refine ⟨c, ?_, hrec.extend h.contiguous t _⟩
      have hne : r.logicalKey ∉ expired.map (·.logicalKey) := hr.2
      rw [hmap, if_neg hne]
      exact hc
    · rw [hmap]
      split
      · rfl
      · rename_i hne
        refine h.absent k fun r hr hrk => hk r ?_ hrk
        rw [extend_records, List.mem_filter]
        exact ⟨hr, by rw [decide_eq_true_eq, List.mem_dedup, hrk]; exact hne⟩

/-! ## Bootstrap refresh -/

theorem bootstrapChanges_ok : ∀ {rs : List StoredMaterializedRecord}
    {cs : List RemoteExportChange}, bootstrapChanges upserts rs = .ok cs →
    cs.map some = rs.map fun r => upserts.lookup r.logicalKey
  | [], cs, h => by
    cases h
    rfl
  | r :: rs, cs, h => by
    obtain ⟨c, hc, h⟩ := bind_ok h
    obtain ⟨_, -, h⟩ := bind_ok h
    obtain ⟨cs', hcs, h⟩ := bind_ok h
    cases h
    rw [List.map_cons, List.map_cons, bootstrapChanges_ok hcs, okOr_ok.1 hc]

/-- Re-appending current upserts changes nothing for the consumer. -/
theorem replay_current : ∀ {cs : List RemoteExportChange},
    (∀ c ∈ cs, ∃ k, decode c = some (k, .upsert) ∧ U k = some c) →
    replay (changeEffect decode) U cs = U
  | [], _ => rfl
  | c :: cs, h => by
    obtain ⟨k, hk, hU⟩ := h c List.mem_cons_self
    have hid : (changeEffect decode c).apply U = U := by
      rw [changeEffect_upsert hk, Effect.apply, ← hU, Function.update_eq_self]
    rw [replay_cons, hid]
    exact replay_current fun d hd => h d (List.mem_cons_of_mem _ hd)

/-- Re-appending the upserts of all current records, each record pointing to its new entry. -/
theorem advance_reappend (h : Linked decode ⟨s, U⟩) (t : DateTime) {cs : List RemoteExportChange}
    (hcs : cs.map some = s.materializedRecords.map fun r => U r.logicalKey) :
    Advance decode ⟨s, U⟩ ∅ ⟨{ s.extend t cs with
      materializedRecords := s.materializedRecords.zipWith
        (fun record sequence => { record with lastUpsertSequence := sequence })
        (List.range' (s.currentSequence + 1) cs.length) }, U⟩ := by
  -- the change re-appended for the `i`-th record is the latest upsert of its key
  have hget : ∀ (i : Nat) r, s.materializedRecords[i]? = some r →
      ∃ c, cs[i]? = some c ∧ U r.logicalKey = some c ∧ RecordOf decode s r c := fun i r hi => by
    have hmap := congrArg (·[i]?) hcs
    simp only [List.getElem?_map, hi, Option.map_some, Option.map_eq_some_iff] at hmap
    obtain ⟨c, hc, hU⟩ := hmap
    obtain ⟨c', hc', hrec⟩ := h.current r (List.mem_of_getElem? hi)
    obtain rfl : c' = c := Option.some.inj (hc'.symm.trans hU.symm)
    exact ⟨c', hc, hc', hrec⟩
  have hseq : ∀ (i : Nat) c, cs[i]? = some c →
      (List.range' (s.currentSequence + 1) cs.length)[i]? = some (s.currentSequence + i + 1) :=
    fun i c hc => by
      rw [List.getElem?_range' (List.getElem?_eq_some_iff.1 hc).1, Option.some.injEq]
      omega
  refine advance_extend h t cs (fun k _ => ?_) (fun r hr => ?_) fun k hk => ?_
  · rw [replay_current]
    intro c hc
    obtain ⟨i, hi⟩ := List.mem_iff_getElem?.1 hc
    have hmap := congrArg (·[i]?) hcs
    simp only [List.getElem?_map, hi, Option.map_some] at hmap
    obtain ⟨r, hri, hrc⟩ := Option.map_eq_some_iff.1 hmap.symm
    obtain ⟨c', hc', -, hrec⟩ := hget i r hri
    obtain rfl : c' = c := Option.some.inj (hc'.symm.trans hi)
    exact ⟨r.logicalKey, hrec.upsert, hrc⟩
  · obtain ⟨i, hi⟩ := List.mem_iff_getElem?.1 hr
    rw [List.getElem?_zipWith_eq_some] at hi
    obtain ⟨q, n, hq, hn, rfl⟩ := hi
    obtain ⟨c, hc, hU, hrec⟩ := hget i q hq
    obtain rfl : s.currentSequence + i + 1 = n := Option.some.inj ((hseq i c hc).symm.trans hn)
    refine ⟨c, hU, hrec.id, hrec.upsert, hrec.tombstone, ?_, fun e he => ?_⟩
    · have := (List.getElem?_eq_some_iff.1 hc).1
      rw [extend_current]
      show s.currentSequence + i + 1 ≤ s.currentSequence + cs.length
      omega
    · rw [entryAt_extend_new h.contiguous, hc] at he
      cases he
      rfl
  · refine h.absent k fun r hr hrk => ?_
    obtain ⟨i, hi⟩ := List.mem_iff_getElem?.1 hr
    obtain ⟨c, hc, -, -⟩ := hget i r hi
    refine hk { r with lastUpsertSequence := s.currentSequence + i + 1 } ?_ hrk
    exact List.mem_of_getElem? (i := i)
      (List.getElem?_zipWith_eq_some.2 ⟨r, _, hi, hseq i c hc, rfl⟩)

theorem advance_refresh {now : DateTime} {pruned m p : Nat} (h : Linked decode ⟨s, U⟩)
    (hup : ∀ k, upserts.lookup k = U k)
    (hr : refreshMaterializedBootstrapIfNeeded store s now upserts pruned = .ok (s', m, p)) :
    Advance decode ⟨s, U⟩ ∅ ⟨s', U⟩ := by
  unfold refreshMaterializedBootstrapIfNeeded at hr
  split at hr
  · cases hr
    exact ⟨h, Follows.refl _⟩
  · obtain ⟨_, -, hr⟩ := bind_ok hr
    obtain ⟨cs, hcs, hr⟩ := bind_ok hr
    obtain ⟨⟨s1, append⟩, hb, hr⟩ := bind_ok hr
    obtain ⟨t, sub, hs1, -, hsub, hseq⟩ := appendChangeBatch_ok hb
    obtain rfl := hsub rfl
    subst hs1
    obtain ⟨_, -, hr⟩ := bind_ok hr
    obtain ⟨s2, hcompact, hr⟩ := bind_ok hr
    obtain ⟨_, -, hr⟩ := bind_ok hr
    obtain ⟨_, -, hr⟩ := bind_ok hr
    cases hr
    rw [hseq] at hcompact
    have hlook := bootstrapChanges_ok hcs
    simp only [hup] at hlook
    have hadv := advance_reappend h t hlook
    exact hadv.andThen (advance_compact hadv.1 hcompact)

/-! ## The two mutations -/

/-- **A direct append** changes the map only by expiry; the keys its own changes name are
disclaimed. -/
theorem advance_append {now : DateTime} {changes : List RemoteExportChange}
    {report : RemoteExportAppendReport} (h : Linked decode ⟨s, U⟩)
    (ha : appendAndCompact store s now changes = .ok (s', report)) :
    Advance decode ⟨s, U⟩ (namedKeys decode changes) ⟨s', latestUpserts s'⟩ := by
  obtain ⟨_, -, ha⟩ := bind_ok ha
  obtain ⟨upserts, hcap, ha⟩ := bind_ok ha
  obtain ⟨⟨s1, append⟩, hb, ha⟩ := bind_ok ha
  obtain ⟨⟨s2, ageCount, deferred⟩, hprune, ha⟩ := bind_ok ha
  obtain ⟨⟨s3, expired, upserts'⟩, hexp, ha⟩ := bind_ok ha
  obtain ⟨s4, hcompact, ha⟩ := bind_ok ha
  obtain ⟨⟨s5, refreshes, pruned⟩, hrefresh, ha⟩ := bind_ok ha
  obtain ⟨_, hvalid, ha⟩ := bind_ok ha
  obtain ⟨_, -, ha⟩ := bind_ok ha
  cases ha
  obtain ⟨t, sub, hs1, hsub, -, -⟩ := appendChangeBatch_ok hb
  subst hs1
  have h1 : Advance decode ⟨s, U⟩ (namedKeys decode changes) ⟨s.extend t sub, U⟩ := by
    refine advance_extend h t sub (fun k hk => ?_) (fun r hr => ?_) h.absent
    · refine replay_of_not_mem fun hn => hk ?_
      obtain ⟨c, hc, hrole⟩ := hn
      exact ⟨c, hsub c hc, hrole⟩
    · obtain ⟨c, hc, hrec⟩ := h.current r hr
      exact ⟨c, hc, hrec.extend h.contiguous t sub⟩
  have h2 := h1.andThen (advance_prune h1.1 hprune).1
  have h3 := h2.andThen (advance_expire h2.1 (h.capture hcap) hexp)
  have h4 := h3.andThen (advance_compact h3.1 hcompact)
  have h5 := h4.andThen (advance_refresh h4.1 (fun _ => rfl) hrefresh)
  rw [h5.1.latest hvalid]
  exact h5

theorem validateChangeOwnership_ok {old : List StoredMaterializedRecord}
    {record : RemoteExportDesiredRecord}
    (h : validateChangeOwnership old upserts record record.upsert .upsert = .ok ())
    {r : StoredMaterializedRecord} (hr : r ∈ old)
    (hid : r.currentChangeId = record.upsert.changeId) :
    upserts.lookup record.logicalKey = some record.upsert := by
  unfold validateChangeOwnership at h
  split at h
  · -- `r` itself owns the id
    rename_i hnone
    rw [changeOwner, List.findSome?_eq_none_iff] at hnone
    have := hnone r (List.mem_reverse.2 hr)
    simp only [hid, if_true] at this
    split at this <;> cases this
  · obtain ⟨_, howner, h⟩ := bind_ok h
    obtain ⟨hkey, -⟩ := ensure_ok.1 howner
    obtain ⟨change, hchange, h⟩ := bind_ok h
    rw [← hkey, okOr_ok.1 hchange, ensure_ok.1 h]

theorem validateReconcileChangeOwnership_ok {old : List StoredMaterializedRecord} :
    ∀ {desired : List RemoteExportDesiredRecord},
    validateReconcileChangeOwnership old upserts desired = .ok () →
    ∀ r ∈ old, ∀ next ∈ desired, r.currentChangeId = next.upsert.changeId →
      upserts.lookup next.logicalKey = some next.upsert
  | [], _, _, _, _, hn, _ => by simp at hn
  | d :: ds, h, r, hr, next, hn, hid => by
    obtain ⟨_, -, h⟩ := bind_ok h
    obtain ⟨_, hd, h⟩ := bind_ok h
    obtain ⟨_, -, h⟩ := bind_ok h
    rcases List.mem_cons.1 hn with rfl | hn
    · exact validateChangeOwnership_ok hd hr hid
    · exact validateReconcileChangeOwnership_ok h r hr next hn hid

theorem lookup_pending {F : String → Option RemoteExportChange} :
    ∀ {ps : List PendingMaterializedRecord} (acc : ChangeMap),
      (∀ p ∈ ps, F p.stored.logicalKey = some p.upsert) → ∀ k,
      ((∃ p ∈ ps, p.stored.logicalKey = k) →
        (ps.foldl (fun upserts p => upserts.insert p.stored.logicalKey p.upsert) acc).lookup k =
          F k) ∧
      ((∀ p ∈ ps, p.stored.logicalKey ≠ k) →
        (ps.foldl (fun upserts p => upserts.insert p.stored.logicalKey p.upsert) acc).lookup k =
          acc.lookup k)
  | [], acc, _, k => by simp
  | p :: ps, acc, hF, k => by
    rw [List.foldl_cons]
    have ih := lookup_pending (acc.insert p.stored.logicalKey p.upsert)
      (fun q hq => hF q (List.mem_cons_of_mem _ hq)) k
    by_cases hrest : ∃ q ∈ ps, q.stored.logicalKey = k
    · refine ⟨fun _ => ih.1 hrest, fun hne => ?_⟩
      obtain ⟨q, hq, hk⟩ := hrest
      exact absurd hk (hne q (List.mem_cons_of_mem _ hq))
    · rw [ih.2 fun q hq hk => hrest ⟨q, hq, hk⟩]
      constructor
      · rintro ⟨q, hq, rfl⟩
        rcases List.mem_cons.1 hq with rfl | hq
        · rw [AList.lookup_insert, hF q List.mem_cons_self]
        · exact absurd ⟨q, hq, rfl⟩ hrest
      · intro hne
        exact AList.lookup_insert_ne fun hk => hne p List.mem_cons_self hk.symm

theorem advance_merge (h : Linked decode ⟨s, U⟩) (t : DateTime) {keys : Set String}
    {ts : List RemoteExportChange} {ps : List PendingMaterializedRecord}
    (ho : Outcome decode s U 0 keys ts ps)
    (hkeys : ∀ r ∈ s.materializedRecords, r.logicalKey ∈ keys) :
    Advance decode ⟨s, U⟩ ∅ ⟨{ s.extend t ts with
        materializedRecords :=
          ps.map (·.commit (List.range' (s.currentSequence + 1) ts.length)) },
      (ps.foldl (fun upserts p => upserts.insert p.stored.logicalKey p.upsert)
        (∅ : ChangeMap)).lookup⟩ := by
  have hcommit : ∀ (seqs : List Nat) (p : PendingMaterializedRecord),
      (p.commit seqs).logicalKey = p.stored.logicalKey := fun seqs p => by
    unfold PendingMaterializedRecord.commit
    split <;> rfl
  have hmap := lookup_pending ∅ ho.sets
  refine advance_extend h t ts (fun k _ => ?_) (fun r hr => ?_) fun k hk => ?_
  · by_cases hex : ∃ p ∈ ps, p.stored.logicalKey = k
    · rw [(hmap k).1 hex]
    · have hne : ∀ p ∈ ps, p.stored.logicalKey ≠ k := fun p hp hk => hex ⟨p, hp, hk⟩
      rw [(hmap k).2 hne]
      by_cases hk : k ∈ keys
      · exact ho.clears k hk hne
      · rw [replay_of_not_mem fun hn => hk (ho.named hn)]
        exact h.absent k fun r hr hrk => hk (hrk ▸ hkeys r hr)
  · obtain ⟨p, hp, rfl⟩ := List.mem_map.1 hr
    rw [hcommit]
    refine ⟨p.upsert, by rw [(hmap _).1 ⟨p, hp, rfl⟩, ho.sets p hp], ?_⟩
    have hpend := ho.pending p hp
    unfold PendingMaterializedRecord.commit
    cases hi : p.upsertTransition with
    | none => exact (hpend.kept hi).extend h.contiguous t ts
    | some i =>
      obtain ⟨j, hj, hts⟩ := hpend.transition i hi
      obtain rfl : i = j := by omega
      have hlen := (List.getElem?_eq_some_iff.1 hts).1
      have hseq : (List.range' (s.currentSequence + 1) ts.length).getD i 0 =
          s.currentSequence + i + 1 := by
        rw [List.getD_eq_getElem?_getD, List.getElem?_range' hlen, Option.getD_some]
        omega
      simp only [hseq]
      refine ⟨hpend.id, hpend.upsert, hpend.tombstone, ?_, fun e he => ?_⟩
      · rw [extend_current]
        show s.currentSequence + i + 1 ≤ s.currentSequence + ts.length
        omega
      · rw [entryAt_extend_new h.contiguous, hts] at he
        cases he
        rfl
  · rw [(hmap k).2]
    · rfl
    · intro p hp hpk
      exact hk _ (List.mem_map_of_mem hp) (by rw [hcommit, hpk])

/-- **A reconcile** changes the map exactly as the journal says. -/
theorem advance_reconcile {now : DateTime} {desired : List RemoteExportDesiredRecord}
    {mode : RemoteExportReconcileMode} {report : RemoteExportReconcileReport}
    (h : Linked decode ⟨s, U⟩) (hdesired : validateDesiredRecords desired = .ok ())
    (hcoherent : ∀ next ∈ desired, next.Coherent decode)
    (hr : reconcileAndCompact store s now desired mode = .ok (s', report)) :
    Advance decode ⟨s, U⟩ ∅ ⟨s', latestUpserts s'⟩ := by
  obtain ⟨_, hvalid, hr⟩ := bind_ok hr
  obtain ⟨upserts, hcap, hr⟩ := bind_ok hr
  obtain ⟨_, howners, hr⟩ := bind_ok hr
  obtain ⟨⟨s1, ageCount, deferred⟩, hprune, hr⟩ := bind_ok hr
  obtain ⟨m, hmerge, hr⟩ := bind_ok hr
  obtain ⟨⟨s2, append⟩, hb, hr⟩ := bind_ok hr
  obtain ⟨_, -, hr⟩ := bind_ok hr
  obtain ⟨s3, hcompact, hr⟩ := bind_ok hr
  obtain ⟨⟨s4, refreshed, pruned⟩, hrefresh, hr⟩ := bind_ok hr
  obtain ⟨_, -, hr⟩ := bind_ok hr
  obtain ⟨_, -, hr⟩ := bind_ok hr
  obtain ⟨_, hvalid', hr⟩ := bind_ok hr
  cases hr
  obtain ⟨h1, hrecords⟩ := advance_prune h hprune
  have hlook := h.capture hcap
  have hout := mergeRecords_outcome hlook (Nat.le_refl _)
    (by rw [hrecords]; exact (validate_ok hvalid).1) (validateDesiredRecords_ok hdesired)
    h1.1.current hcoherent
    (fun next _ hne => h1.1.absent _ hne)
    (fun r hr next hn hkey hid => by
      rw [hkey, ← hlook]
      exact validateReconcileChangeOwnership_ok howners r (hrecords ▸ hr) next hn hid) hmerge
  obtain ⟨ts, ps, ⟨hts, hps⟩, ho⟩ := hout
  obtain ⟨t, sub, hs2, -, hsub, hseq⟩ := appendChangeBatch_ok hb
  simp only at hs2 hseq
  rw [hsub rfl, hts] at hs2 hseq
  subst hs2
  have h2 := h1.andThen (advance_merge h1.1 t ho fun r hr => .inl ⟨r, hr, rfl⟩)
  rw [hps, hseq] at hcompact
  have h3 := h2.andThen (advance_compact h2.1 hcompact)
  rw [hps] at hrefresh
  have h4 := h3.andThen (advance_refresh h3.1 (fun _ => rfl) hrefresh)
  rw [h4.1.latest hvalid']
  exact h4

end Export
