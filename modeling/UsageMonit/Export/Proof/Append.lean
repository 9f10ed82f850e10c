import UsageMonit.Export.Session
import UsageMonit.Export.Proof.Journal

/-!
# Appending to a journal without records

A journal that is only appended to (`plainState`): no materialized records, every entry committed
at the time the journal was made. Appending valid changes with new ids adds exactly them
(`appendChanges_plain`) as long as the state stays within the limits; what `serde_json` writes is
bounded by `JsonBounds`.
-/

namespace Export

open Fallible Time

/-- The sizes that `serde_json` gives: a byte of a payload takes at most four characters, and the
rest of an entry and of a state without records is bounded. -/
structure JsonBounds (store : RemoteExportStateStore) : Prop where
  entry : ∀ e : RemoteExportJournalEntry, e.change.validate = .ok () →
    ∃ n, store.encodedEntryJsonSize e = .ok n ∧ n ≤ 4 * e.change.payload.length + 512
  state : ∀ s : StoredExportState, s.source = store.source → s.materializedRecords = [] →
    s.live = none → (∀ e ∈ s.entries, e.change.validate = .ok ()) →
    ∃ n, store.encodedStateJsonSize s = .ok n ∧
      n ≤ 4096 + (s.entries.map fun e => 4 * e.change.payload.length + 513).sum

/-- The new journal with these changes appended to it. -/
def plainState (store : RemoteExportStateStore) (generation : Nat) (now : DateTime)
    (cs : List RemoteExportChange) : StoredExportState :=
  (StoredExportState.new store.source store.redactionProfile generation now).extend now cs

/-- Changes that fit a journal: valid, with distinct ids, and bounded as a whole. -/
structure Appendable (cs : List RemoteExportChange) : Prop where
  valid : ∀ c ∈ cs, c.validate = .ok ()
  ids : (cs.map (·.changeId)).Nodup
  length : cs.length ≤ 32768
  bytes : (cs.map (·.payload.length)).sum ≤ 8 * 1024 * 1024

theorem Appendable.of_append {cs ds : List RemoteExportChange} (h : Appendable (cs ++ ds)) :
    Appendable cs := by
  have hl := h.length
  have hb := h.bytes
  have hn := h.ids
  rw [List.length_append] at hl
  rw [List.map_append, List.sum_append] at hb
  rw [List.map_append] at hn
  exact ⟨fun c hc => h.valid c (List.mem_append_left _ hc), hn.of_append_left, by omega, by omega⟩

section
variable {store : RemoteExportStateStore} {generation : Nat} {now : DateTime}
  {cs ds : List RemoteExportChange}

/-! ## The entries of the journal -/

theorem numbered_append (t : DateTime) : ∀ (n : Nat) (cs ds : List RemoteExportChange),
    numbered t n (cs ++ ds) = numbered t n cs ++ numbered t (n + cs.length) ds
  | _, [], _ => rfl
  | n, c :: cs, ds => by
    simp only [List.cons_append, numbered, numbered_append t (n + 1) cs ds, List.length_cons,
      show n + 1 + cs.length = n + (cs.length + 1) by omega]

theorem mem_numbered {t : DateTime} {n : Nat} {cs : List RemoteExportChange}
    {e : RemoteExportJournalEntry} (h : e ∈ numbered t n cs) :
    e.committedAt = t ∧ e.change ∈ cs := by
  obtain ⟨i, hi⟩ := List.mem_iff_getElem?.1 h
  rw [numbered_getElem?, Option.map_eq_some_iff] at hi
  obtain ⟨c, hc, rfl⟩ := hi
  exact ⟨rfl, List.mem_of_getElem? hc⟩

theorem plainState_entries : (plainState store generation now cs).entries = numbered now 0 cs :=
  rfl

@[simp] theorem plainState_current :
    (plainState store generation now cs).currentSequence = cs.length := by
  simp [plainState, StoredExportState.new]

theorem plainState_extend : (plainState store generation now cs).extend now ds =
    plainState store generation now (cs ++ ds) := by
  simp [plainState, StoredExportState.extend, StoredExportState.new, numbered_append]

theorem plainState_contiguous : Contiguous (plainState store generation now cs) :=
  (contiguous_new _ _ _ _).extend now cs

/-! ## Validation -/

theorem validateEntries_numbered {t : DateTime} : ∀ {cs : List RemoteExportChange} {n : Nat}
    {previous : DateTime} {ids : AList fun _ : String => List UInt8},
    previous ≤ t → (∀ c ∈ cs, c.validate = .ok ()) → (cs.map (·.changeId)).Nodup →
    (∀ c ∈ cs, c.changeId ∉ ids) → n + cs.length < 2 ^ 64 →
    ∃ ids', validateEntries (numbered t n cs) n previous ids = .ok ids'
  | [], _, _, ids, _, _, _, _, _ => ⟨ids, rfl⟩
  | c :: cs, n, previous, ids, hp, hv, hn, hnew, hlen => by
    rw [List.map_cons, List.nodup_cons] at hn
    rw [List.length_cons] at hlen
    have hadd : checkedAdd 64 n 1 = some (n + 1) := if_pos (by omega)
    have hlookup : ids.lookup c.changeId = none :=
      AList.lookup_eq_none.2 (hnew c List.mem_cons_self)
    simp only [numbered, validateEntries, hv c List.mem_cons_self, hadd, okOr, ok_bind, hlookup]
    rw [ensure_of ⟨trivial, hp⟩, ok_bind, ensure_of (by simp), ok_bind]
    refine validateEntries_numbered (le_refl t) (fun d hd => hv d (List.mem_cons_of_mem c hd)) hn.2
      (fun d hd => ?_) (by omega)
    rw [AList.mem_insert, not_or]
    exact ⟨fun he => hn.1 (he ▸ List.mem_map_of_mem hd), hnew d (List.mem_cons_of_mem c hd)⟩

theorem validate_plain (hlimits : store.limits = {}) (hnow : minUtc ≤ now) (h : Appendable cs) :
    (plainState store generation now cs).validate store = .ok () := by
  have hl := h.length
  have hjournal : (plainState store generation now cs).validateJournal = .ok () := by
    unfold StoredExportState.validateJournal
    split
    · rename_i he
      have hnil : cs = [] := by
        rw [plainState_entries] at he
        simpa using congrArg List.length he
      subst hnil
      exact ensure_of ⟨rfl, rfl⟩
    · rename_i first rest he
      have hfirst : first.sequence = 1 ∧
          ((first :: rest).getLast (by simp)).sequence = cs.length := by
        have hc : Contiguous (plainState store generation now cs) := plainState_contiguous
        have hlen : (first :: rest).length = cs.length := by
          rw [← he, plainState_entries, numbered_length]
        refine ⟨hc.number 0 first (by rw [he]; rfl), ?_⟩
        have hlast := hc.number ((first :: rest).length - 1)
          ((first :: rest).getLast (by simp)) (by rw [he, ← List.getLast?_eq_getElem?,
            List.getLast?_eq_some_getLast (by simp)])
        rw [hlast]
        show 0 + _ + 1 = _
        rw [← hlen, List.length_cons]
        omega
      obtain ⟨ids, hids⟩ : ∃ ids, validateEntries (numbered now 0 cs) 0 minUtc ∅ = .ok ids :=
        validateEntries_numbered hnow h.valid h.ids (fun c _ => AList.notMem_empty _) (by omega)
      rw [plainState_entries] at he
      rw [he] at hids
      show (okOr (checkedAdd 64 0 1) _ >>= _) = _
      rw [show checkedAdd 64 0 1 = some 1 from rfl]
      simp only [okOr, ok_bind, plainState_current]
      rw [ensure_of hfirst, ok_bind]
      show (validateEntries (first :: rest) 0 minUtc ∅ >>= _) = _
      rw [hids]
      rfl
  have hformat : (plainState store generation now cs).formatVersion = stateFormatVersion := rfl
  have hbinding : (plainState store generation now cs).source = store.source ∧
      (plainState store generation now cs).redactionProfile = store.redactionProfile := ⟨rfl, rfl⟩
  have hclock : (plainState store generation now cs).retentionClock.validate = .ok () := rfl
  have hlive : (plainState store generation now cs).validateLive store = .ok () := rfl
  have hbounds : (plainState store generation now cs).retentionFloor ≤
        (plainState store generation now cs).currentSequence ∧
      (plainState store generation now cs).entries.length ≤ store.limits.maximumEntries ∧
      (plainState store generation now cs).materializedRecords.length ≤ maxMaterializedRecords := by
    refine ⟨Nat.zero_le _, ?_, Nat.zero_le _⟩
    rw [plainState_entries, numbered_length, hlimits]
    exact hl.trans (by decide)
  unfold StoredExportState.validate
  rw [ensure_of hformat, ok_bind, ensure_of hbinding, ok_bind, hclock, ok_bind, hlive, ok_bind,
    ensure_of hbounds, ok_bind, hjournal]

/-! ## Appending -/

theorem retainedChanges_numbered {t : DateTime} : ∀ {cs : List RemoteExportChange} {n : Nat}
    {retained : ChangeMap}, (cs.map (·.changeId)).Nodup → (∀ c ∈ cs, c.changeId ∉ retained) →
    ∃ retained', retainedChanges (numbered t n cs) retained = .ok retained' ∧
      ∀ id, id ∉ cs.map (·.changeId) → id ∉ retained → id ∉ retained'
  | [], _, retained, _, _ => ⟨retained, rfl, fun _ _ h => h⟩
  | c :: cs, n, retained, hn, hnew => by
    rw [List.map_cons, List.nodup_cons] at hn
    have hlookup : retained.lookup c.changeId = none :=
      AList.lookup_eq_none.2 (hnew c List.mem_cons_self)
    obtain ⟨retained', hr, hout⟩ := retainedChanges_numbered (t := t) (n := n + 1)
      hn.2 (fun d hd => show d.changeId ∉ retained.insert c.changeId c by
        rw [AList.mem_insert, not_or]
        exact ⟨fun he => hn.1 (he ▸ List.mem_map_of_mem hd), hnew d (List.mem_cons_of_mem c hd)⟩)
    refine ⟨retained', ?_, fun id hid hr => ?_⟩
    · simp only [numbered, retainedChanges, hlookup]
      rw [ensure_of (by simp), ok_bind]
      exact hr
    · rw [List.map_cons, List.mem_cons, not_or] at hid
      exact hout id hid.2 (by rw [AList.mem_insert, not_or]; exact ⟨hid.1, hr⟩)

theorem selectChanges_new {retained : ChangeMap} : ∀ {cs : List RemoteExportChange}
    {batch : ChangeMap} {selected : List RemoteExportChange} {n : Nat},
    (∀ c ∈ cs, c.validate = .ok ()) → (cs.map (·.changeId)).Nodup →
    (∀ c ∈ cs, c.changeId ∉ retained) → (∀ c ∈ cs, c.changeId ∉ batch) →
    selectChanges .skip retained cs batch selected n = .ok (selected ++ cs, n)
  | [], _, selected, n, _, _, _, _ => by simp [selectChanges]
  | c :: cs, batch, selected, n, hv, hn, hret, hbatch => by
    rw [List.map_cons, List.nodup_cons] at hn
    have hr : retained.lookup c.changeId = none :=
      AList.lookup_eq_none.2 (hret c List.mem_cons_self)
    have hb : batch.lookup c.changeId = none :=
      AList.lookup_eq_none.2 (hbatch c List.mem_cons_self)
    simp only [selectChanges, hv c List.mem_cons_self, ok_bind, hr, hb]
    rw [ensure_of (by simp), ok_bind, if_neg (by simp),
      selectChanges_new (fun d hd => hv d (List.mem_cons_of_mem c hd)) hn.2
        (fun d hd => hret d (List.mem_cons_of_mem c hd))
        fun d hd => by
          rw [AList.mem_insert, not_or]
          exact ⟨fun he => hn.1 (he ▸ List.mem_map_of_mem hd),
            hbatch d (List.mem_cons_of_mem c hd)⟩,
      List.append_assoc, List.singleton_append]

theorem pushChanges_total {t : DateTime} : ∀ {cs : List RemoteExportChange} {s : StoredExportState}
    {sequences : List Nat}, s.currentSequence + cs.length < 2 ^ 64 →
    ∃ r, pushChanges t cs s sequences = .ok r
  | [], s, sequences, _ => ⟨(s, sequences), rfl⟩
  | c :: cs, s, sequences, h => by
    rw [List.length_cons] at h
    have hadd : checkedAdd 64 s.currentSequence 1 = some (s.currentSequence + 1) :=
      if_pos (by omega)
    simp only [pushChanges, hadd, okOr, ok_bind]
    rw [ensure_of (Nat.succ_ne_zero _), ok_bind]
    exact pushChanges_total (by show s.currentSequence + 1 + cs.length < _; omega)

theorem appendChangeBatch_plain (h : Appendable (cs ++ ds)) :
    ∃ result, appendChangeBatch (plainState store generation now cs) now ds .skip =
      .ok (plainState store generation now (cs ++ ds), result) ∧
      result.sequences.length = ds.length := by
  have hl := h.length
  have hids := h.ids
  rw [List.length_append] at hl
  rw [List.map_append, List.nodup_append] at hids
  obtain ⟨hcs, hds, hdisjoint⟩ := hids
  obtain ⟨retained, hret, hout⟩ := retainedChanges_numbered (t := now) (n := 0) hcs
    fun c _ => AList.notMem_empty c.changeId
  have hselect : selectChanges .skip retained ds ∅ [] 0 = .ok ([] ++ ds, 0) :=
    selectChanges_new (fun c hc => h.valid c (List.mem_append_right _ hc)) hds
      (fun c hc => hout _ (fun hmem => hdisjoint _ hmem _ (List.mem_map_of_mem hc) rfl)
        (AList.notMem_empty _))
      fun c _ => AList.notMem_empty _
  have hadd : checkedAdd 64 cs.length ds.length = some (cs.length + ds.length) :=
    if_pos (by omega)
  have hclock : (plainState store generation now cs).retentionClock.trustedAt = now := rfl
  obtain ⟨r, hpush⟩ : ∃ r, pushChanges now ds (plainState store generation now cs) [] = .ok r :=
    pushChanges_total (by rw [plainState_current]; omega)
  have hr := pushChanges_ok hpush
  rw [plainState_extend] at hr
  refine ⟨⟨r.2, 0⟩, ?_, by rw [hr]; simp⟩
  unfold appendChangeBatch
  rw [plainState_entries, hret, ok_bind, hselect]
  -- every entry was committed at `now`, so the next ones are
  cases he : (numbered now 0 cs).getLast? with
  | none =>
    simp only [List.nil_append, ok_bind, plainState_current, hadd, okOr, hclock, max_self, hpush]
    rw [hr]
    rfl
  | some entry =>
    simp only [List.nil_append, ok_bind, plainState_current, hadd, okOr, hclock,
      (mem_numbered (List.mem_of_getLast? he)).1, max_self, hpush]
    rw [hr]
    rfl

theorem advanceRetention_plain {retentionDays : Int} (hpos : 0 ≤ retentionDays)
    (hnow : minUtc ≤ now) :
    advanceRetentionAndPruneAge (plainState store generation now cs) now retentionDays =
      .ok (plainState store generation now cs, 0, false) := by
  have hclock : nextRetentionClock (plainState store generation now cs).retentionClock now =
      (RetentionClock.current now, false) := if_pos (le_refl now)
  have hcutoff : (checkedSubSigned now (days retentionDays)).getD minUtc ≤ now := by
    unfold checkedSubSigned checkedAddSigned
    split
    · show now + -days retentionDays ≤ now
      have hdays : 0 ≤ days retentionDays :=
        Int.mul_nonneg (Int.mul_nonneg hpos (by decide)) (by decide)
      exact Int.add_le_of_le_sub_left (by simpa using hdays)
    · exact hnow
  have hnone : ((numbered now 0 cs).takeWhile fun entry =>
      entry.committedAt < (checkedSubSigned now (days retentionDays)).getD minUtc) = [] := by
    cases cs with
    | nil => rfl
    | cons c cs => exact List.takeWhile_cons_of_neg (by simpa [numbered] using hcutoff)
  unfold advanceRetentionAndPruneAge
  simp only [hclock, plainState_entries, show (RetentionClock.current now).trustedAt = now from rfl,
    hnone]
  rfl

theorem sum_entry_bytes (t : DateTime) : ∀ (n : Nat) (cs : List RemoteExportChange),
    ((numbered t n cs).map fun e => 4 * e.change.payload.length + 513).sum =
      4 * (cs.map (·.payload.length)).sum + 513 * cs.length
  | _, [] => rfl
  | n, c :: cs => by
    simp only [numbered, List.map_cons, List.sum_cons, sum_entry_bytes t (n + 1) cs,
      List.length_cons]
    omega

theorem compactToLimits_plain (hlimits : store.limits = {}) (hjson : JsonBounds store)
    (h : Appendable cs) : compactToLimits store (plainState store generation now cs) =
      .ok (plainState store generation now cs) := by
  have hl := h.length
  have hb := h.bytes
  obtain ⟨size, hsize, hle⟩ := hjson.state (plainState store generation now cs) rfl rfl rfl
    fun e he => h.valid _ (mem_numbered he).2
  rw [plainState_entries, sum_entry_bytes] at hle
  have hdrop : (plainState store generation now cs).entries.length -
      store.limits.maximumEntries = 0 := by
    rw [plainState_entries, numbered_length, hlimits]
    show cs.length - 262144 = 0
    omega
  have hadd : checkedAdd 64 size 1 = some (size + 1) := if_pos (by omega)
  have hfits : size + 1 ≤ store.limits.maximumStateBytes := by
    rw [hlimits]
    show size + 1 ≤ 128 * 1024 * 1024
    omega
  unfold compactToLimits
  rw [hdrop, show dropOldestEntries (plainState store generation now cs) 0 =
    .ok (plainState store generation now cs) from rfl, ok_bind]
  unfold compactLoop encodedStateSize
  rw [hsize, ok_bind, hadd]
  show (if size + 1 ≤ _ then _ else _) = _
  rw [if_pos hfits]
  rfl

/-- **Appending new changes adds exactly them.** -/
theorem appendChanges_plain (hlimits : store.limits = {}) (hjson : JsonBounds store)
    (hnow : minUtc ≤ now) (hlen : ds.length ≤ maxAppendBatchEntries) (h : Appendable (cs ++ ds)) :
    ∃ report, appendChanges store (plainState store generation now cs) now ds =
      .ok (plainState store generation now (cs ++ ds), report) := by
  have hl := h.length
  rw [List.length_append] at hl
  obtain ⟨result, happend, hresult⟩ : ∃ result, appendChangeBatch
      (plainState store generation now cs) now ds .skip =
        .ok (plainState store generation now (cs ++ ds), result) ∧
      result.sequences.length = ds.length := appendChangeBatch_plain h
  have hforM : ds.forM (·.validate) = .ok () :=
    forM_ok fun c hc => h.valid c (List.mem_append_right _ hc)
  have hadvance : advanceRetentionAndPruneAge (plainState store generation now (cs ++ ds)) now
      store.limits.retentionDays = .ok (plainState store generation now (cs ++ ds), 0, false) :=
    advanceRetention_plain (by rw [hlimits]; decide) hnow
  have hcapture : captureMaterializedUpserts (plainState store generation now cs)
      (plainState store generation now cs).materializedRecords ∅ = .ok ∅ := rfl
  have hexpire : expireMaterializedRecords (plainState store generation now (cs ++ ds)) now
      (plainState store generation now (cs ++ ds)).retentionClock.trustedAt ∅ =
      .ok (plainState store generation now (cs ++ ds), 0, ∅) := rfl
  have hrefresh : ∀ n, refreshMaterializedBootstrapIfNeeded store
      (plainState store generation now (cs ++ ds)) now ∅ n =
      .ok (plainState store generation now (cs ++ ds), 0, n) := fun n =>
    if_pos (fun record hrecord => absurd hrecord List.not_mem_nil)
  have hadd : checkedAdd 64 result.sequences.length 0 = some (result.sequences.length + 0) :=
    if_pos (by omega)
  unfold appendChanges
  rw [ensure_of hlen, ok_bind, hforM, ok_bind]
  unfold appendAndCompact
  rw [validate_plain hlimits hnow h.of_append, ok_bind, hcapture, ok_bind, happend]
  simp only [ok_bind, hadvance, hexpire, compactToLimits_plain hlimits hjson h, hrefresh,
    validate_plain hlimits hnow h, hadd, okOr]
  exact ⟨_, rfl⟩

end

end Export
