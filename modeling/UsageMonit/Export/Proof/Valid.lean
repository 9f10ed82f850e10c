import UsageMonit.Lib.Outcome
import UsageMonit.Export.Proof.Clock
import UsageMonit.Export.Proof.Bootstrap

/-!
# What validation says of an export state

`Sound` collects what `StoredExportState::validate` checks of the journal (`JournalOk`), of the
materialized records (`RecordsOk`) and of the fields beside them, except for two checks: the bound
on the number of records, and that the tombstone of a record agrees with the journal. A valid state
is sound (`sound_of_validate`), and the validation of a sound state can fail in these two checks
only (`Sound.validate`).
-/

namespace Export

open Fallible Time

/-! ## The entries of the journal -/

/-- What `validateEntries` checks of entries that follow sequence `n` and instant `t`. -/
structure EntriesOk (es : List RemoteExportJournalEntry) (n : Nat) (t : DateTime)
    (ids : AList fun _ : String => List UInt8) : Prop where
  changes : ∀ e ∈ es, e.change.validate = .ok ()
  number : ∀ (i : Nat) e, es[i]? = some e → e.sequence = n + i + 1
  bounded : es ≠ [] → n + es.length < 2 ^ 64
  after : ∀ e ∈ es, t ≤ e.committedAt
  ordered : es.Pairwise fun a b => a.committedAt ≤ b.committedAt
  agree : ∀ a ∈ es, ∀ b ∈ es, a.change.changeId = b.change.changeId → a.change = b.change
  known : ∀ e ∈ es, ∀ payload ∈ ids.lookup e.change.changeId, payload = e.change.payload

theorem change_ext {a b : RemoteExportChange} (hid : a.changeId = b.changeId)
    (hpayload : a.payload = b.payload) : a = b := by
  cases a
  cases b
  simp_all

section
variable {e : RemoteExportJournalEntry} {es : List RemoteExportJournalEntry} {n : Nat}
  {t : DateTime} {ids : AList fun _ : String => List UInt8}

theorem EntriesOk.nil : EntriesOk [] n t ids :=
  ⟨by simp, by simp, by simp, by simp, .nil, by simp, by simp⟩

theorem EntriesOk.of_cons (h : EntriesOk (e :: es) n t ids) :
    e.change.validate = .ok () ∧ n + 1 < 2 ^ 64 ∧ e.sequence = n + 1 ∧ t ≤ e.committedAt ∧
      (∀ payload ∈ ids.lookup e.change.changeId, payload = e.change.payload) ∧
      EntriesOk es e.sequence e.committedAt
        (ids.insert e.change.changeId e.change.payload) := by
  have hbound := h.bounded (by simp)
  rw [List.length_cons] at hbound
  have hseq : e.sequence = n + 1 := by simpa using h.number 0 e rfl
  obtain ⟨hle, hordered⟩ := List.pairwise_cons.1 h.ordered
  refine ⟨h.changes e List.mem_cons_self, by omega, hseq, h.after e List.mem_cons_self,
    h.known e List.mem_cons_self, fun d hd => h.changes d (List.mem_cons_of_mem e hd),
    fun i d hd => ?_, fun _ => by omega, hle, hordered,
    fun a ha b hb => h.agree a (List.mem_cons_of_mem e ha) b (List.mem_cons_of_mem e hb),
    fun d hd payload hp => ?_⟩
  · rw [h.number (i + 1) d (by simpa using hd)]
    omega
  · by_cases hid : d.change.changeId = e.change.changeId
    · rw [h.agree d (List.mem_cons_of_mem e hd) e List.mem_cons_self hid, AList.lookup_insert] at hp
      cases hp
      rw [h.agree d (List.mem_cons_of_mem e hd) e List.mem_cons_self hid]
    · rw [AList.lookup_insert_ne hid] at hp
      exact h.known d (List.mem_cons_of_mem e hd) payload hp

theorem EntriesOk.cons (hchange : e.change.validate = .ok ()) (hbound : n + 1 < 2 ^ 64)
    (hseq : e.sequence = n + 1) (hle : t ≤ e.committedAt)
    (hknown : ∀ payload ∈ ids.lookup e.change.changeId, payload = e.change.payload)
    (h : EntriesOk es e.sequence e.committedAt (ids.insert e.change.changeId e.change.payload)) :
    EntriesOk (e :: es) n t ids := by
  have hhead : ∀ d ∈ es, d.change.changeId = e.change.changeId → d.change = e.change := by
    intro d hd hid
    refine change_ext hid (h.known d hd e.change.payload ?_).symm
    rw [hid, AList.lookup_insert]
    rfl
  refine ⟨List.forall_mem_cons.2 ⟨hchange, h.changes⟩, fun i d hd => ?_, fun _ => ?_,
    List.forall_mem_cons.2 ⟨hle, fun d hd => hle.trans (h.after d hd)⟩,
    List.pairwise_cons.2 ⟨h.after, h.ordered⟩, ?_, List.forall_mem_cons.2 ⟨hknown, ?_⟩⟩
  · cases i with
    | zero =>
      cases hd
      exact hseq
    | succ i =>
      rw [h.number i d (by simpa using hd), hseq]
      omega
  · by_cases hnil : es = []
    · simpa [hnil] using hbound
    · have := h.bounded hnil
      rw [List.length_cons]
      omega
  · intro a ha b hb hid
    rcases List.mem_cons.1 ha with rfl | ha' <;> rcases List.mem_cons.1 hb with rfl | hb'
    · rfl
    · exact (hhead b hb' hid.symm).symm
    · exact hhead a ha' hid
    · exact h.agree a ha' b hb' hid
  · intro d hd payload hp
    by_cases hid : d.change.changeId = e.change.changeId
    · rw [hid] at hp
      rw [hknown payload hp, hhead d hd hid]
    · exact h.known d hd payload (by rwa [AList.lookup_insert_ne hid])

end

theorem entriesOk_of_validate : ∀ {es : List RemoteExportJournalEntry} {n : Nat} {t : DateTime}
    {ids ids' : AList fun _ : String => List UInt8}, validateEntries es n t ids = .ok ids' →
    EntriesOk es n t ids
  | [], _, _, _, _, _ => EntriesOk.nil
  | e :: es, n, t, ids, ids', h => by
    obtain ⟨_, hchange, h⟩ := bind_ok h
    obtain ⟨_, hnext, h⟩ := bind_ok h
    obtain ⟨rfl, hbound⟩ := checkedAdd_eq_some (okOr_ok.1 hnext)
    obtain ⟨_, horder, h⟩ := bind_ok h
    obtain ⟨_, hknown, h⟩ := bind_ok h
    obtain ⟨hseq, hle⟩ := ensure_ok.1 horder
    exact EntriesOk.cons hchange hbound hseq hle (ensure_ok.1 hknown) (entriesOk_of_validate h)

theorem EntriesOk.validate : ∀ {es : List RemoteExportJournalEntry} {n : Nat} {t : DateTime}
    {ids : AList fun _ : String => List UInt8}, EntriesOk es n t ids →
    ∃ ids', validateEntries es n t ids = .ok ids'
  | [], _, _, ids, _ => ⟨ids, rfl⟩
  | e :: es, n, t, ids, h => by
    obtain ⟨hchange, hbound, hseq, hle, hknown, h⟩ := h.of_cons
    obtain ⟨ids', hids⟩ := EntriesOk.validate h
    have hnext : checkedAdd 64 n 1 = some (n + 1) := if_pos hbound
    refine ⟨ids', ?_⟩
    simp only [validateEntries, hchange, hnext, okOr, ok_bind, ensure_of (And.intro hseq hle),
      ensure_of hknown, hids]

/-! ## The journal -/

structure JournalOk (s : StoredExportState) : Prop where
  contiguous : Contiguous s
  bounded : s.currentSequence < 2 ^ 64
  changes : ∀ e ∈ s.entries, e.change.validate = .ok ()
  after : ∀ e ∈ s.entries, minUtc ≤ e.committedAt
  ordered : s.entries.Pairwise fun a b => a.committedAt ≤ b.committedAt
  agree : ∀ a ∈ s.entries, ∀ b ∈ s.entries, a.change.changeId = b.change.changeId →
    a.change = b.change

theorem JournalOk.entriesOk {s : StoredExportState} (h : JournalOk s) :
    EntriesOk s.entries s.retentionFloor minUtc ∅ := by
  have hl := h.contiguous.length
  have hb := h.bounded
  exact ⟨h.changes, h.contiguous.number, fun _ => by omega, h.after, h.ordered, h.agree,
    by simp⟩

theorem JournalOk.discard {s : StoredExportState} (h : JournalOk s) {d : Nat}
    (hd : d ≤ s.entries.length) : JournalOk (s.discard d) := by
  have hsub : ∀ e ∈ (s.discard d).entries, e ∈ s.entries := fun e he => List.mem_of_mem_drop he
  exact ⟨h.contiguous.discard hd, h.bounded, fun e he => h.changes e (hsub e he),
    fun e he => h.after e (hsub e he), h.ordered.sublist (List.drop_sublist d s.entries),
    fun a ha b hb => h.agree a (hsub a ha) b (hsub b hb)⟩

theorem JournalOk.of_window {s s' : StoredExportState} (h : JournalOk s)
    (hw : s'.window = s.window) (hc : s'.currentSequence = s.currentSequence) : JournalOk s' := by
  have he : s'.entries = s.entries := congrArg WindowedLog.Window.items hw
  refine ⟨h.contiguous.of_window hw hc, hc ▸ h.bounded, ?_, ?_, ?_, ?_⟩
  · rw [he]
    exact h.changes
  · rw [he]
    exact h.after
  · rw [he]
    exact h.ordered
  · rw [he]
    exact h.agree

/-! ## The materialized records -/

structure RecordOk (r : StoredMaterializedRecord) : Prop where
  key : validateMaterializedKey r.logicalKey = .ok ()
  current : validateChangeId r.currentChangeId = .ok ()
  tombstone : r.tombstone.validate = .ok ()

def ownedIds (rs : List StoredMaterializedRecord) : List String :=
  rs.flatMap fun r => [r.currentChangeId, r.tombstone.changeId]

@[simp] theorem ownedIds_nil : ownedIds [] = [] := rfl

@[simp] theorem ownedIds_cons (r : StoredMaterializedRecord) (rs : List StoredMaterializedRecord) :
    ownedIds (r :: rs) = r.currentChangeId :: r.tombstone.changeId :: ownedIds rs := rfl

/-- The records of a valid state, without what they say of the journal. -/
structure RecordsOk (rs : List StoredMaterializedRecord) : Prop where
  each : ∀ r ∈ rs, RecordOk r
  sorted : SortedOld rs
  ids : (ownedIds rs).Nodup

theorem ownedIds_sublist {rs qs : List StoredMaterializedRecord} (h : rs.Sublist qs) :
    (ownedIds rs).Sublist (ownedIds qs) := by
  induction h with
  | slnil => exact .slnil
  | cons r _ ih => exact (ih.cons _).cons _
  | cons_cons r _ ih => exact (ih.cons_cons _).cons_cons _

theorem RecordsOk.sublist {rs qs : List StoredMaterializedRecord} (h : RecordsOk qs)
    (hsub : rs.Sublist qs) : RecordsOk rs :=
  ⟨fun r hr => h.each r (hsub.subset hr), h.sorted.sublist hsub,
    h.ids.sublist (ownedIds_sublist hsub)⟩

theorem RecordsOk.keys {rs : List StoredMaterializedRecord} (h : RecordsOk rs) :
    (rs.map (·.logicalKey)).Nodup := by
  rw [List.Nodup, List.pairwise_map]
  exact h.sorted.imp fun hlt => ne_of_lt hlt

theorem validateMaterializedIdOwner_ok {owners owners' : IdOwners} {id key role : String}
    (h : validateMaterializedIdOwner owners id key role = .ok owners') :
    id ∉ owners ∧ ∀ other, other ∈ owners' ↔ other = id ∨ other ∈ owners := by
  unfold validateMaterializedIdOwner at h
  split at h
  · cases h
  · cases h
    exact ⟨by rwa [← AList.lookup_eq_none], fun other => AList.mem_insert owners⟩

theorem validateMaterializedIdOwner_free {owners : IdOwners} {id : String} (key role : String)
    (h : id ∉ owners) : ∃ owners', validateMaterializedIdOwner owners id key role = .ok owners' ∧
      ∀ other, other ∈ owners' ↔ other = id ∨ other ∈ owners := by
  unfold validateMaterializedIdOwner
  rw [AList.lookup_eq_none.2 h]
  exact ⟨_, rfl, fun other => AList.mem_insert owners⟩

section
variable {s : StoredExportState} {ids : AList fun _ : String => List UInt8}

theorem validateMaterializedRecord_checks {previousKey : Option String} {owners owners' : IdOwners}
    {r : StoredMaterializedRecord}
    (h : validateMaterializedRecord s ids previousKey owners r = .ok owners') :
    RecordOk r ∧ s.retentionFloor < r.lastUpsertSequence ∧ r.currentChangeId ∉ owners ∧
      r.tombstone.changeId ∉ owners ∧ r.currentChangeId ≠ r.tombstone.changeId ∧
      ∀ other, other ∈ owners' ↔
        other = r.currentChangeId ∨ other = r.tombstone.changeId ∨ other ∈ owners := by
  obtain ⟨_, hkey, h⟩ := bind_ok h
  obtain ⟨_, hcurrent, h⟩ := bind_ok h
  obtain ⟨_, htombstone, h⟩ := bind_ok h
  obtain ⟨_, -, h⟩ := bind_ok h
  obtain ⟨_, hne, h⟩ := bind_ok h
  obtain ⟨owners1, howner, h⟩ := bind_ok h
  obtain ⟨owners2, howner', h⟩ := bind_ok h
  obtain ⟨_, hfloor, h⟩ := bind_ok h
  iterate 4 obtain ⟨_, -, h⟩ := bind_ok h
  cases h
  obtain ⟨hfree, hmem⟩ := validateMaterializedIdOwner_ok howner
  obtain ⟨hfree', hmem'⟩ := validateMaterializedIdOwner_ok howner'
  refine ⟨⟨hkey, hcurrent, htombstone⟩, ensure_ok.1 hfloor, hfree,
    fun hin => hfree' ((hmem _).2 (.inr hin)), ensure_ok.1 hne, fun other => ?_⟩
  rw [hmem', hmem]
  tauto

theorem validateMaterializedRecords_checks : ∀ {rs : List StoredMaterializedRecord}
    {previousKey : Option String} {owners : IdOwners},
    validateMaterializedRecords s ids rs previousKey owners = .ok () →
    (∀ r ∈ rs, RecordOk r ∧ s.retentionFloor < r.lastUpsertSequence) ∧ (ownedIds rs).Nodup ∧
      ∀ id ∈ ownedIds rs, id ∉ owners
  | [], _, _, _ => ⟨by simp, by simp, by simp⟩
  | r :: rs, previousKey, owners, h => by
    obtain ⟨owners', hr, h⟩ := bind_ok h
    obtain ⟨hrecord, hfloor, hcurrent, htombstone, hne, hmem⟩ := validateMaterializedRecord_checks hr
    obtain ⟨hrest, hnodup, hfree⟩ := validateMaterializedRecords_checks h
    refine ⟨List.forall_mem_cons.2 ⟨⟨hrecord, hfloor⟩, hrest⟩, ?_, ?_⟩
    · rw [ownedIds_cons, List.nodup_cons, List.nodup_cons, List.mem_cons, not_or]
      exact ⟨⟨hne, fun hin => hfree _ hin ((hmem _).2 (.inl rfl))⟩,
        fun hin => hfree _ hin ((hmem _).2 (.inr (.inl rfl))), hnodup⟩
    · rw [ownedIds_cons]
      exact List.forall_mem_cons.2 ⟨hcurrent, List.forall_mem_cons.2 ⟨htombstone,
        fun id hid hin => hfree id hid ((hmem id).2 (.inr (.inr hin)))⟩⟩

def tombstoneConflict : String :=
  "remote materialized tombstone change ID conflicts with journal content"

/-- The check of a record that its own part and the journal satisfy can fail at its end only. -/
theorem validateMaterializedRecord_yields {previousKey : Option String} {owners : IdOwners}
    {r : StoredMaterializedRecord} (hr : RecordOk r) (hkey : ∀ key ∈ previousKey, key < r.logicalKey)
    (hcurrent : r.currentChangeId ∉ owners) (htombstone : r.tombstone.changeId ∉ owners)
    (hne : r.currentChangeId ≠ r.tombstone.changeId)
    (hfloor : s.retentionFloor < r.lastUpsertSequence) (hpoints : PointsToUpsert s r) :
    Yields (validateMaterializedRecord s ids previousKey owners r) (· = tombstoneConflict)
      fun owners' => ∀ other, other ∈ owners' ↔
        other = r.currentChangeId ∨ other = r.tombstone.changeId ∨ other ∈ owners := by
  obtain ⟨⟨e, he, hid⟩, hlater⟩ := hpoints
  obtain ⟨owners1, h1, hmem⟩ := validateMaterializedIdOwner_free r.logicalKey "upsert" hcurrent
  have hfree : r.tombstone.changeId ∉ owners1 := fun hin =>
    ((hmem _).1 hin).elim (fun h => hne h.symm) htombstone
  obtain ⟨owners2, h2, hmem'⟩ := validateMaterializedIdOwner_free r.logicalKey "tombstone" hfree
  unfold validateMaterializedRecord
  rw [hr.key, ok_bind, hr.current, ok_bind, hr.tombstone, ok_bind, ensure_of hkey, ok_bind,
    ensure_of hne, ok_bind, h1, ok_bind, h2, ok_bind, ensure_of hfloor, ok_bind, he]
  simp only [okOr, ok_bind]
  rw [ensure_of hid, ok_bind, ensure_of hlater, ok_bind]
  refine Yields.bind (yields_ensure (.inr rfl)) fun _ _ => yields_pure ?_
  intro other
  rw [hmem', hmem]
  tauto

theorem validateMaterializedRecords_yields : ∀ {rs : List StoredMaterializedRecord}
    {previousKey : Option String} {owners : IdOwners},
    (∀ r ∈ rs, RecordOk r) → SortedOld rs → (∀ key ∈ previousKey, ∀ r ∈ rs, key < r.logicalKey) →
    (ownedIds rs).Nodup → (∀ id ∈ ownedIds rs, id ∉ owners) →
    (∀ r ∈ rs, s.retentionFloor < r.lastUpsertSequence ∧ PointsToUpsert s r) →
    Yields (validateMaterializedRecords s ids rs previousKey owners) (· = tombstoneConflict)
      fun _ => True
  | [], _, _, _, _, _, _, _, _ => yields_ok trivial
  | r :: rs, previousKey, owners, hrecords, hsorted, hprev, hnodup, hfree, hpoints => by
    rw [ownedIds_cons, List.nodup_cons, List.nodup_cons, List.mem_cons, not_or] at hnodup
    rw [ownedIds_cons, List.forall_mem_cons, List.forall_mem_cons] at hfree
    obtain ⟨⟨hne, hcurrent⟩, htombstone, hnodup⟩ := hnodup
    obtain ⟨hcurrent', htombstone', hfree⟩ := hfree
    obtain ⟨hlt, hsorted⟩ := List.pairwise_cons.1 hsorted
    obtain ⟨⟨hfloor, hhead⟩, hpoints⟩ := List.forall_mem_cons.1 hpoints
    obtain ⟨hrecord, hrecords⟩ := List.forall_mem_cons.1 hrecords
    refine (validateMaterializedRecord_yields hrecord
      (fun key hkey => hprev key hkey r List.mem_cons_self) hcurrent' htombstone' hne hfloor
      hhead).bind fun owners' hmem => ?_
    refine validateMaterializedRecords_yields hrecords hsorted (fun key hkey q hq => ?_) hnodup
      (fun id hid hin => ?_) hpoints
    · cases hkey
      exact hlt q hq
    · rcases (hmem id).1 hin with rfl | rfl | hin
      · exact hcurrent hid
      · exact htombstone hid
      · exact hfree id hid hin

end

/-! ## The whole state -/

section
variable {store : RemoteExportStateStore} {s : StoredExportState}

/-- The current records point to retained upserts that their tombstones do not follow. -/
theorem bootstrapIsComplete_iff : materializedBootstrapIsComplete s ↔
    ∀ r ∈ s.materializedRecords, s.retentionFloor < r.lastUpsertSequence ∧ PointsToUpsert s r :=
  ⟨fun h r hr => ⟨(h r hr).1, (h r hr).2.1, (h r hr).2.2⟩,
    fun h r hr => ⟨(h r hr).1, (h r hr).2.1, (h r hr).2.2⟩⟩

/-- The fields of a state beside its journal and its records. -/
structure FieldsOk (store : RemoteExportStateStore) (s : StoredExportState) : Prop where
  format : s.formatVersion = stateFormatVersion
  binding : s.source = store.source ∧ s.redactionProfile = store.redactionProfile
  clock : s.retentionClock.validate = .ok ()
  live : s.validateLive store = .ok ()

/-- What `validate` checks, except for the number of records and for their tombstones in the
journal. -/
structure Sound (store : RemoteExportStateStore) (s : StoredExportState) : Prop where
  fields : FieldsOk store s
  journal : JournalOk s
  entries : s.entries.length ≤ store.limits.maximumEntries
  records : RecordsOk s.materializedRecords
  complete : materializedBootstrapIsComplete s

def boundsInvalid : String := "remote export journal bounds are invalid"

theorem journalOk_of_entries {first : RemoteExportJournalEntry}
    {rest : List RemoteExportJournalEntry} (hentries : s.entries = first :: rest)
    (hlast : ((first :: rest).getLast (by simp)).sequence = s.currentSequence)
    (h : EntriesOk (first :: rest) s.retentionFloor minUtc ∅) : JournalOk s := by
  have hlen : s.retentionFloor + s.entries.length = s.currentSequence := by
    rw [← hlast, hentries, h.number rest.length _ (by
      rw [List.getLast_eq_getElem]
      simp), List.length_cons]
    omega
  have hbound := h.bounded (by simp)
  rw [← hentries] at h hbound
  exact ⟨⟨hlen, h.number⟩, hlen ▸ hbound, h.changes, h.after, h.ordered, h.agree⟩

theorem validateJournal_checks (h : s.validateJournal = .ok ())
    (hbounded : s.currentSequence < 2 ^ 64) :
    JournalOk s ∧ RecordsOk s.materializedRecords ∧ materializedBootstrapIsComplete s := by
  unfold StoredExportState.validateJournal at h
  split at h
  · rename_i hnil
    obtain ⟨hfloor, hrecords⟩ := ensure_ok.1 h
    refine ⟨⟨⟨?_, ?_⟩, hbounded, ?_, ?_, ?_, ?_⟩, ?_, ?_⟩
    · show s.retentionFloor + s.entries.length = s.currentSequence
      rw [hnil, hfloor]
      rfl
    all_goals simp [hnil, hrecords, materializedBootstrapIsComplete]
    exact ⟨by simp, List.Pairwise.nil, by simp⟩
  · rename_i first rest hentries
    obtain ⟨_, -, h⟩ := bind_ok h
    obtain ⟨_, hrange, h⟩ := bind_ok h
    obtain ⟨ids, hids, h⟩ := bind_ok h
    obtain ⟨hchecks, hnodup, -⟩ := validateMaterializedRecords_checks h
    have hpoints := validateMaterializedRecords_points h
    refine ⟨journalOk_of_entries hentries (ensure_ok.1 hrange).2 (entriesOk_of_validate hids),
      ⟨fun r hr => (hchecks r hr).1, (validateMaterializedRecords_ok h).1, hnodup⟩,
      bootstrapIsComplete_iff.2 fun r hr => ⟨(hchecks r hr).2, hpoints r hr⟩⟩

/-- **A valid state is sound.** -/
theorem sound_of_validate (h : s.validate store = .ok ()) (hbounded : s.currentSequence < 2 ^ 64) :
    Sound store s := by
  obtain ⟨_, hformat, h⟩ := bind_ok h
  obtain ⟨_, hbinding, h⟩ := bind_ok h
  obtain ⟨_, hclock, h⟩ := bind_ok h
  obtain ⟨_, hlive, h⟩ := bind_ok h
  obtain ⟨_, hbounds, h⟩ := bind_ok h
  obtain ⟨hjournal, hrecords, hcomplete⟩ := validateJournal_checks h hbounded
  exact ⟨⟨ensure_ok.1 hformat, ensure_ok.1 hbinding, hclock, hlive⟩, hjournal,
    (ensure_ok.1 hbounds).2.1, hrecords, hcomplete⟩

theorem Sound.validateJournal (h : Sound store s) :
    Yields s.validateJournal (· = tombstoneConflict) fun _ => True := by
  have hl := h.journal.contiguous.length
  unfold StoredExportState.validateJournal
  split
  · rename_i hnil
    have hrecords : s.materializedRecords = [] := by
      rw [List.eq_nil_iff_forall_not_mem]
      intro r hr
      obtain ⟨-, ⟨e, he, -⟩, -⟩ := h.complete r hr
      rw [Option.mem_def, entryAtSequence_eq h.journal.contiguous, hnil] at he
      simp at he
    refine (yields_ensure (.inl ⟨?_, hrecords⟩)).mono (fun _ h => h) fun _ _ => trivial
    rw [hnil] at hl
    simpa using hl
  · rename_i first rest hentries
    have hok := h.journal.entriesOk
    rw [hentries] at hok
    obtain ⟨ids, hids⟩ := EntriesOk.validate hok
    have hb := h.journal.bounded
    rw [hentries, List.length_cons] at hl
    have hnext : checkedAdd 64 s.retentionFloor 1 = some (s.retentionFloor + 1) := if_pos (by omega)
    have hrange : first.sequence = s.retentionFloor + 1 ∧
        ((first :: rest).getLast (by simp)).sequence = s.currentSequence := by
      refine ⟨by simpa using hok.number 0 first rfl, ?_⟩
      rw [hok.number rest.length _ (by
        rw [List.getLast_eq_getElem]
        simp)]
      omega
    simp only [hnext, okOr, ok_bind, ensure_of hrange, hids]
    refine validateMaterializedRecords_yields h.records.each h.records.sorted (by simp)
      h.records.ids (by simp) (bootstrapIsComplete_iff.1 h.complete)

/-- **The validation of a sound state** fails in two checks only. -/
theorem Sound.validate (h : Sound store s) :
    Yields (s.validate store)
      (fun e => e = tombstoneConflict ∨
        e = boundsInvalid ∧ maxMaterializedRecords < s.materializedRecords.length)
      fun _ => True := by
  have hl := h.journal.contiguous.length
  unfold StoredExportState.validate
  rw [ensure_of h.fields.format, ok_bind, ensure_of h.fields.binding, ok_bind, h.fields.clock,
    ok_bind, h.fields.live, ok_bind]
  refine (yields_ensure ?_).bind fun _ _ =>
    h.validateJournal.mono (fun e he => .inl he) fun _ _ => trivial
  by_cases hcount : s.materializedRecords.length ≤ maxMaterializedRecords
  · exact .inl ⟨by omega, h.entries, hcount⟩
  · exact .inr (.inr ⟨rfl, by omega⟩)

end

end Export
