import UsageMonit.Export.Proof.Compaction

/-!
# Expiring and refreshing the records of a valid state

`Holds` says that a captured map has the upsert of every current record and nothing else. Capturing
gives such a map (`capture_holds`), expiring records keeps it (`expireMaterializedRecords_yields`),
and with it the refresh of the bootstrap leaves every record pointing to a retained upsert
(`refresh_yields`). From these, a direct append to a valid state leaves a sound one
(`appendAndCompact_yields`).
-/

namespace Export

open Fallible Time

variable {store : RemoteExportStateStore} {s : StoredExportState}
  {rs : List StoredMaterializedRecord}

/-! ## Captured upserts -/

/-- The map holds a valid upsert of every record, and nothing else. -/
structure Holds (upserts : ChangeMap) (rs : List StoredMaterializedRecord) : Prop where
  upsert : ∀ r ∈ rs, ∃ c, upserts.lookup r.logicalKey = some c ∧ c.changeId = r.currentChangeId ∧
    c.validate = .ok ()
  only : ∀ k ∈ upserts, ∃ r ∈ rs, r.logicalKey = k

theorem Holds.length {upserts : ChangeMap} (h : Holds upserts rs)
    (hkeys : (rs.map (·.logicalKey)).Nodup) : upserts.entries.length = rs.length := by
  have hperm : upserts.keys.Perm (rs.map (·.logicalKey)) := by
    refine (List.perm_ext_iff_of_nodup upserts.keys_nodup hkeys).2 fun k => ?_
    rw [← AList.mem_keys, List.mem_map]
    refine ⟨h.only k, ?_⟩
    rintro ⟨r, hr, rfl⟩
    obtain ⟨c, hc, -⟩ := h.upsert r hr
    rw [← AList.lookup_isSome, hc]
    rfl
  have hlen := hperm.length_eq
  rwa [AList.keys, List.keys, List.length_map, List.length_map] at hlen

theorem captureMaterializedUpserts_total : ∀ {rs : List StoredMaterializedRecord}
    {upserts : ChangeMap}, (rs.map (·.logicalKey)).Nodup →
    (∀ r ∈ rs, ∃ e ∈ s.entryAtSequence r.lastUpsertSequence,
      e.change.changeId = r.currentChangeId) →
    ∃ upserts', captureMaterializedUpserts s rs upserts = .ok upserts' ∧
      (∀ r ∈ rs, ∃ e, s.entryAtSequence r.lastUpsertSequence = some e ∧
        e.change.changeId = r.currentChangeId ∧
        upserts'.lookup r.logicalKey = some e.change) ∧
      (∀ k, (∀ r ∈ rs, r.logicalKey ≠ k) → upserts'.lookup k = upserts.lookup k)
  | [], upserts, _, _ => ⟨upserts, rfl, by simp, by simp⟩
  | r :: rs, upserts, hkeys, hpoints => by
    rw [List.map_cons, List.nodup_cons] at hkeys
    obtain ⟨⟨e, he, hid⟩, hpoints⟩ := List.forall_mem_cons.1 hpoints
    obtain ⟨upserts', hcapture, hin, hout⟩ := captureMaterializedUpserts_total hkeys.2 hpoints
    refine ⟨upserts', ?_, List.forall_mem_cons.2 ⟨⟨e, he, hid, ?_⟩, hin⟩, fun k hk => ?_⟩
    · simp only [captureMaterializedUpserts, Option.mem_def.1 he, okOr, ok_bind]
      rw [ensure_of hid, ok_bind]
      exact hcapture
    · have hnew : ∀ q ∈ rs, q.logicalKey ≠ r.logicalKey := fun q hq hkey =>
        hkeys.1 (hkey ▸ List.mem_map_of_mem hq)
      rw [hout _ hnew, AList.lookup_insert]
    · rw [hout k fun q hq => hk q (List.mem_cons_of_mem r hq),
        AList.lookup_insert_ne fun h => hk r List.mem_cons_self h.symm]

theorem capture_holds (h : Sound store s) :
    ∃ upserts, captureMaterializedUpserts s s.materializedRecords ∅ = .ok upserts ∧
      Holds upserts s.materializedRecords := by
  obtain ⟨upserts, hcapture, hin, hout⟩ :
      ∃ upserts, captureMaterializedUpserts s s.materializedRecords ∅ = .ok upserts ∧ _ ∧ _ :=
    captureMaterializedUpserts_total h.records.keys fun r hr => (h.complete r hr).2.1
  refine ⟨upserts, hcapture, fun r hr => ?_, fun k hk => ?_⟩
  · obtain ⟨e, he, hid, hlookup⟩ := hin r hr
    exact ⟨e.change, hlookup, hid, h.journal.changes e (entryAtSequence_mem he)⟩
  · by_contra hne
    rw [← AList.lookup_isSome, hout k fun r hr hkey => hne ⟨r, hr, hkey⟩] at hk
    cases hk

/-! ## Expiry -/

theorem tombstone_ids_nodup (h : (ownedIds rs).Nodup) :
    ((rs.map (·.tombstone)).map (·.changeId)).Nodup := by
  have hsub : ∀ rs : List StoredMaterializedRecord,
      ((rs.map (·.tombstone)).map (·.changeId)).Sublist (ownedIds rs) := by
    intro rs
    induction rs with
    | nil => exact .slnil
    | cons r rs ih => exact (ih.cons_cons _).cons _
  exact h.sublist (hsub rs)

theorem current_ids_nodup (h : (ownedIds rs).Nodup) : (rs.map (·.currentChangeId)).Nodup := by
  have hsub : ∀ rs : List StoredMaterializedRecord,
      (rs.map (·.currentChangeId)).Sublist (ownedIds rs) := by
    intro rs
    induction rs with
    | nil => exact .slnil
    | cons r rs ih => exact (ih.cons _).cons_cons _
  exact h.sublist (hsub rs)

/-- **Expiring** the records of a valid state appends their tombstones. -/
theorem expireMaterializedRecords_yields (hjournal : JournalOk s)
    (hrecords : RecordsOk s.materializedRecords) {upserts : ChangeMap}
    (hholds : Holds upserts s.materializedRecords) {now : DateTime} (hnow : minUtc ≤ now)
    (trustedAt : DateTime) :
    Yields (expireMaterializedRecords s now trustedAt upserts) (Declared store) fun r =>
      ∃ t cs rs, r.1 = { s.extend t cs with materializedRecords := rs } ∧
        JournalOk (s.extend t cs) ∧ RecordsOk rs ∧ Holds r.2.2 rs ∧ r.2.1 ≤ cs.length ∧
        rs.length ≤ s.materializedRecords.length := by
  unfold expireMaterializedRecords
  set expired := s.materializedRecords.filter fun record => record.expiresAt ≤ trustedAt
    with hexpired
  have hsub : expired.Sublist s.materializedRecords := List.filter_sublist
  simp only
  split
  · exact yields_pure ⟨trustedAt, [], s.materializedRecords, by simp [StoredExportState.extend, numbered],
      by simpa [StoredExportState.extend, numbered] using hjournal, hrecords, hholds,
      Nat.le_refl _, Nat.le_refl _⟩
  · refine Yields.bind (appendChangeBatch_yields hjournal hnow (fun c hc => ?_)
      fun _ => tombstone_ids_nodup (hrecords.sublist hsub).ids) fun r hr => ?_
    · obtain ⟨record, hrecord, rfl⟩ := List.mem_map.1 hc
      exact (hrecords.each record (hsub.subset hrecord)).tombstone
    obtain ⟨t, sub, hr, hextend, hlen, hall⟩ := hr
    obtain ⟨s1, append⟩ := r
    obtain ⟨rfl, hduplicates⟩ := hall rfl
    subst hr
    refine Yields.bind (yields_ensure (.inl ⟨by rw [hlen, List.length_map], hduplicates⟩))
      fun _ _ => Yields.bind (yields_ensure (.inl ?_)) fun _ _ => ?_
    · intro key hkey
      obtain ⟨record, hrecord, rfl⟩ := List.mem_map.1 (List.mem_dedup.1 hkey)
      obtain ⟨c, hc, -⟩ := hholds.upsert record (hsub.subset hrecord)
      rw [← AList.lookup_isSome, hc]
      rfl
    refine yields_pure ⟨t, _, _, rfl, hextend, hrecords.sublist List.filter_sublist,
      ⟨fun record hrecord => ?_, fun k hk => ?_⟩, ?_, ?_⟩
    · obtain ⟨hrecord, hkept⟩ := List.mem_filter.1 hrecord
      obtain ⟨c, hc, hcid⟩ := hholds.upsert record hrecord
      refine ⟨c, ?_, hcid⟩
      rw [lookup_eraseAll, if_neg (by simpa using hkept), hc]
    · rw [← AList.lookup_isSome, lookup_eraseAll] at hk
      split at hk
      · cases hk
      · rename_i hkept
        rw [AList.lookup_isSome] at hk
        obtain ⟨record, hrecord, rfl⟩ := hholds.only k hk
        exact ⟨record, List.mem_filter.2 ⟨hrecord, by simpa using hkept⟩, rfl⟩
    · rw [List.length_map]
      exact ((List.dedup_sublist _).length_le).trans (by rw [List.length_map])
    · exact List.filter_sublist.length_le

/-! ## Refreshing the bootstrap -/

theorem bootstrapChanges_total {upserts : ChangeMap} : ∀ {rs : List StoredMaterializedRecord},
    (∀ r ∈ rs, ∃ c, upserts.lookup r.logicalKey = some c ∧ c.changeId = r.currentChangeId ∧
      c.validate = .ok ()) →
    ∃ cs, bootstrapChanges upserts rs = .ok cs ∧
      cs.map (·.changeId) = rs.map (·.currentChangeId) ∧ ∀ c ∈ cs, c.validate = .ok ()
  | [], _ => ⟨[], rfl, rfl, by simp⟩
  | r :: rs, h => by
    obtain ⟨⟨c, hc, hid, hvalid⟩, h⟩ := List.forall_mem_cons.1 h
    obtain ⟨cs, hcs, hids, hall⟩ := bootstrapChanges_total h
    refine ⟨c :: cs, ?_, by rw [List.map_cons, List.map_cons, hids, hid],
      List.forall_mem_cons.2 ⟨hvalid, hall⟩⟩
    simp only [bootstrapChanges, hc, okOr, ok_bind, hcs]
    rw [ensure_of hid]
    rfl

theorem RecordsOk.zipWith (h : RecordsOk rs) {sequences : List Nat}
    (hlen : sequences.length = rs.length) :
    RecordsOk (rs.zipWith (fun record sequence => { record with lastUpsertSequence := sequence })
      sequences) := by
  have hmap : ∀ {β : Type} (f : StoredMaterializedRecord → β),
      (∀ r n, f { r with lastUpsertSequence := n } = f r) →
      (rs.zipWith (fun record sequence => { record with lastUpsertSequence := sequence })
        sequences).map f = rs.map f := by
    intro β f hf
    clear h
    induction rs generalizing sequences with
    | nil => simp
    | cons r rs ih =>
      cases sequences with
      | nil => simp at hlen
      | cons n sequences =>
        rw [List.zipWith_cons_cons, List.map_cons, List.map_cons, hf,
          ih (by simpa using hlen)]
  refine ⟨fun r hr => ?_, ?_, ?_⟩
  · obtain ⟨i, hi⟩ := List.mem_iff_getElem?.1 hr
    rw [List.getElem?_zipWith] at hi
    split at hi
    · rename_i q n hq hn
      cases hi
      have hq := h.each q (List.mem_of_getElem? hq)
      exact ⟨hq.key, hq.current, hq.tombstone⟩
    · cases hi
  · have hsorted := h.sorted
    unfold SortedOld at hsorted ⊢
    rw [← List.pairwise_map] at hsorted ⊢
    rw [hmap (·.logicalKey) fun _ _ => rfl]
    exact hsorted
  · have hids := hmap (fun r => [r.currentChangeId, r.tombstone.changeId]) fun _ _ => rfl
    rw [ownedIds, List.flatMap, hids]
    exact h.ids

/-- What a mutation leaves of a state beside its journal and records. -/
structure SameFields (s s' : StoredExportState) : Prop where
  format : s'.formatVersion = s.formatVersion
  source : s'.source = s.source
  profile : s'.redactionProfile = s.redactionProfile
  generation : s'.deltaGeneration = s.deltaGeneration
  clock : s'.retentionClock = s.retentionClock
  live : s'.live = s.live

theorem SameFields.refl (s : StoredExportState) : SameFields s s := ⟨rfl, rfl, rfl, rfl, rfl, rfl⟩

theorem FieldsOk.of_same {s s' : StoredExportState} (h : FieldsOk store s) (hsame : SameFields s s') :
    FieldsOk store s' := by
  refine ⟨hsame.format.trans h.format, ?_, ?_, ?_⟩
  · rw [hsame.source, hsame.profile]
    exact h.binding
  · rw [hsame.clock]
    exact h.clock
  · have hlive := h.live
    unfold StoredExportState.validateLive at hlive ⊢
    rwa [hsame.live, hsame.profile]

/-- **The refresh of the bootstrap** leaves a sound state. The counts are those of the report. -/
theorem refresh_yields (hfields : FieldsOk store s) (hjournal : JournalOk s)
    (hrecords : RecordsOk s.materializedRecords)
    (hentries : s.entries.length ≤ store.limits.maximumEntries) (hbytes : WithinBytes store s)
    {upserts : ChangeMap} (hholds : Holds upserts s.materializedRecords) {now : DateTime}
    (hnow : minUtc ≤ now) {pruned : Nat} (hpruned : pruned ≤ s.retentionFloor) :
    Yields (refreshMaterializedBootstrapIfNeeded store s now upserts pruned) (Declared store)
      fun r => Sound store r.1 ∧ WithinBytes store r.1 ∧
        r.1.materializedRecords.length = s.materializedRecords.length ∧
        s.currentSequence + r.2.1 ≤ r.1.currentSequence ∧ s.retentionFloor ≤ r.1.retentionFloor ∧
        SameFields s r.1 := by
  unfold refreshMaterializedBootstrapIfNeeded
  split
  · rename_i hcomplete
    exact yields_pure ⟨⟨hfields, hjournal, hentries, hrecords, hcomplete⟩, hbytes, rfl,
      Nat.le_refl _, Nat.le_refl _, SameFields.refl s⟩
  · refine Yields.bind (yields_ensure (.inl (hholds.length hrecords.keys))) fun _ _ => ?_
    obtain ⟨changes, hchanges, hids, hvalid⟩ := bootstrapChanges_total hholds.upsert
    have hlength : changes.length = s.materializedRecords.length := by
      simpa using congrArg List.length hids
    rw [hchanges, ok_bind]
    refine Yields.bind (appendChangeBatch_yields hjournal hnow hvalid fun _ => by
      rw [hids]
      exact current_ids_nodup hrecords.ids) fun r hr => ?_
    obtain ⟨t, sub, hr, hextend, hlen, hall⟩ := hr
    obtain ⟨s1, append⟩ := r
    obtain ⟨rfl, hduplicates⟩ := hall rfl
    subst hr
    have hsequences : append.sequences.length = s.materializedRecords.length := hlen.trans hlength
    refine Yields.bind (yields_ensure (.inl ⟨hsequences, hduplicates⟩)) fun _ _ => ?_
    set s2 : StoredExportState := { s.extend t sub with
      materializedRecords := (s.extend t sub).materializedRecords.zipWith
        (fun record sequence => { record with lastUpsertSequence := sequence }) append.sequences }
      with hs2
    have hjournal2 : JournalOk s2 := hextend.of_window rfl rfl
    have hrecords2 : RecordsOk s2.materializedRecords := hrecords.zipWith hsequences
    refine Yields.bind (compactToLimits_yields hjournal2.contiguous) fun s3 hs3 => ?_
    obtain ⟨d, hd, rfl, hbytes3, hentries3⟩ := hs3
    have hl := hjournal2.contiguous.length
    have hb := hjournal2.bounded
    have hfloor : s2.retentionFloor = s.retentionFloor := rfl
    have hcount : s2.entries.length - (s2.discard d).entries.length = d := by
      simp only [StoredExportState.discard, List.length_drop]
      omega
    refine Yields.bind (yields_okOr (.inl ?_)) fun _ _ =>
      Yields.bind (yields_ensure (.inr .retention)) fun _ hcomplete => ?_
    · rw [hcount, checkedAdd, if_pos (by omega)]
      rfl
    refine yields_pure ⟨⟨hfields.of_same ⟨rfl, rfl, rfl, rfl, rfl, rfl⟩, hjournal2.discard hd,
      hentries3, hrecords2, hcomplete⟩, hbytes3, ?_, ?_, Nat.le_add_right _ _,
      ⟨rfl, rfl, rfl, rfl, rfl, rfl⟩⟩
    · rw [discard_records, hs2]
      simp [hsequences]
    · rw [discard_current, hlen]
      exact Nat.le_refl _

/-! ## Direct appends -/

/-- The fields of a state are in the range of their machine types. -/
structure InRange (s : StoredExportState) : Prop where
  sequence : s.currentSequence < 2 ^ 64
  clock : Representable s.retentionClock.trustedAt

/-- What a mutation that succeeds returns. -/
structure Mutated (store : RemoteExportStateStore) (s s' : StoredExportState) : Prop where
  valid : s'.validate store = .ok ()
  bytes : WithinBytes store s'
  range : InRange s'
  generation : s'.deltaGeneration = s.deltaGeneration
  floor : s.retentionFloor ≤ s'.retentionFloor

theorem records_le_of_validate (h : s.validate store = .ok ()) :
    s.materializedRecords.length ≤ maxMaterializedRecords := by
  iterate 4 obtain ⟨_, -, h⟩ := bind_ok h
  obtain ⟨_, hbounds, h⟩ := bind_ok h
  exact (ensure_ok.1 hbounds).2.2

theorem FieldsOk.next (h : FieldsOk store s) {now : DateTime}
    (hclock : Representable s.retentionClock.trustedAt) (hnow : Representable now) {d : Nat} :
    FieldsOk store
      { s.discard d with retentionClock := (nextRetentionClock s.retentionClock now).1 } :=
  ⟨h.format, h.binding, validate_next hclock hnow h.clock, h.live⟩

/-- **A direct append** to a valid state fails for a declared reason, or in the last check of the
closing validation. -/
theorem appendAndCompact_yields (hvalid : s.validate store = .ok ()) (hrange : InRange s)
    {now : DateTime} (hnow : Representable now) {changes : List RemoteExportChange}
    (hchanges : ∀ c ∈ changes, c.validate = .ok ()) :
    Yields (appendAndCompact store s now changes)
      (fun e => Declared store e ∨ e = tombstoneConflict) fun r => Mutated store s r.1 := by
  have hsound := sound_of_validate hvalid hrange.sequence
  have hdeclared : ∀ e, Declared store e → Declared store e ∨ e = tombstoneConflict :=
    fun e => .inl
  obtain ⟨upserts, hcapture, hholds⟩ := capture_holds hsound
  unfold appendAndCompact
  rw [hvalid, ok_bind, hcapture, ok_bind]
  refine Yields.bind ((appendChangeBatch_yields hsound.journal hnow.1 hchanges
    fun hp => by cases hp).mono hdeclared fun _ h => h) fun r hr => ?_
  obtain ⟨t, sub, hr, hjournal1, hlen, -⟩ := hr
  obtain ⟨s1, append⟩ := r
  dsimp only at hr hlen ⊢
  subst hr
  obtain ⟨d, hd, hadvance⟩ := advanceRetention_total hjournal1.contiguous now
    store.limits.retentionDays
  rw [hadvance, ok_bind]
  have hfields1 : FieldsOk store (s.extend t sub) :=
    hsound.fields.of_same ⟨rfl, rfl, rfl, rfl, rfl, rfl⟩
  have hfields2 := hfields1.next hrange.clock hnow (d := d)
  have hjournal2 : JournalOk { (s.extend t sub).discard d with
      retentionClock := (nextRetentionClock (s.extend t sub).retentionClock now).1 } :=
    (hjournal1.discard hd).of_window rfl rfl
  refine Yields.bind ((expireMaterializedRecords_yields hjournal2 hsound.records hholds hnow.1
    _).mono hdeclared fun _ h => h) fun r hr => ?_
  obtain ⟨t', cs, rs, hr, hjournal3, hrecords3, hholds3, hcount, hle⟩ := hr
  obtain ⟨s3, expired, upserts3⟩ := r
  dsimp only at hr hholds3 hcount ⊢
  subst hr
  set s2 : StoredExportState := { (s.extend t sub).discard d with
      retentionClock := (nextRetentionClock (s.extend t sub).retentionClock now).1 } with hs2
  set s3 : StoredExportState := { s2.extend t' cs with materializedRecords := rs } with hs3
  have hjournal3 : JournalOk s3 := hjournal3.of_window rfl rfl
  refine Yields.bind ((compactToLimits_yields hjournal3.contiguous).mono hdeclared fun _ h => h)
    fun s4 hs4 => ?_
  obtain ⟨d', hd', rfl, hbytes4, hentries4⟩ := hs4
  have hfields4 : FieldsOk store (s3.discard d') :=
    hfields2.of_same ⟨rfl, rfl, rfl, rfl, rfl, rfl⟩
  refine Yields.bind ((refresh_yields hfields4 (hjournal3.discard hd') hrecords3 hentries4 hbytes4
    hholds3 hnow.1 (discard_pruned _ _)).mono hdeclared fun _ h => h) fun r hr => ?_
  obtain ⟨s5, refreshed, pruned⟩ := r
  obtain ⟨hsound5, hbytes5, hrecords5, hcurrent5, hfloor5, hsame⟩ := hr
  dsimp only at hsound5 hbytes5 hrecords5 hcurrent5 hfloor5 hsame ⊢
  have hfew : s5.materializedRecords.length ≤ maxMaterializedRecords := by
    rw [hrecords5]
    have hmax := records_le_of_validate hvalid
    exact Nat.le_trans hle hmax
  refine Yields.bind (hsound5.validate.with_eq.mono (fun e he => .inr ?_) fun _ h => h)
    fun _ hvalid5 => ?_
  · exact he.resolve_right fun h => absurd h.2 (Nat.not_lt.2 hfew)
  have hb := hsound5.journal.bounded
  have hfloor : s.retentionFloor ≤ (s3.discard d').retentionFloor := by
    simp only [hs3, hs2, StoredExportState.discard, StoredExportState.extend]
    omega
  have hsum : s.currentSequence + sub.length + cs.length + refreshed ≤ s5.currentSequence := hcurrent5
  refine Yields.bind (yields_okOr (.inl ?_)) fun _ _ => yields_pure
    ⟨hvalid5.1, hbytes5, ⟨hb, ?_⟩, hsame.generation, hfloor.trans hfloor5⟩
  · rw [checkedAdd, if_pos (by omega)]
    rfl
  · rw [hsame.clock]
    exact representable_next hrange.clock hnow

end Export
