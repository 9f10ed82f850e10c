import UsageMonit.Bandwidth.Proof.Admission
import Mathlib.Data.String.Basic

/-!
# Every operation hands a well-formed ledger to `mutate`

`WellFormed` is what `StoredRemoteBandwidthLedger::validate` accepts (`validate_iff`). The parts of
the operations keep it: pruning (`wellFormed_advance`), merging minute buckets
(`wellFormed_merge`), a new reservation (`wellFormed_reserve`) and taking an attempt out
(`wellFormed_settle`).
-/

namespace Bandwidth

open Fallible Time StoredRemoteBandwidthLedger

/-! ## What `validate` accepts -/

variable {l l' : StoredRemoteBandwidthLedger}

/-- The strict order of the ledger file. -/
def LedgerEntry.Precedes (a b : LedgerEntry) : Prop :=
  a.recordedAt < b.recordedAt ∨ a.recordedAt = b.recordedAt ∧ a.id < b.id

def LedgerEntry.storageKey (e : LedgerEntry) : String := sourceStorageKey e.hostId e.nodeId

/-- What `validate` checks of the entries, whatever their order. -/
structure EntriesOk (entries : List LedgerEntry) : Prop where
  valid : ∀ e ∈ entries, e.validate = .ok ()
  distinct : (entries.map (·.id)).Nodup
  sources : ∀ key, (entries.map (·.storageKey)).count key ≤ maxEntriesPerSource

/-- A ledger that only has to be sorted. -/
structure Sortable (l : StoredRemoteBandwidthLedger) : Prop where
  version : l.schemaVersion = remoteBandwidthBudgetSchemaVersion
  bounded : l.entries.length ≤ maxLedgerEntries
  entriesOk : EntriesOk l.entries
  observedAll : ∀ t, l.lastObservedAt = some t → ∀ e ∈ l.entries, e.recordedAt ≤ t

structure WellFormed (l : StoredRemoteBandwidthLedger) : Prop extends Sortable l where
  sorted : l.entries.Pairwise LedgerEntry.Precedes

theorem LedgerEntry.Precedes.trans {a b c : LedgerEntry} (hab : a.Precedes b)
    (hbc : b.Precedes c) : a.Precedes c := by
  rcases hab with hab | ⟨hab, hid⟩
  · rcases hbc with hbc | ⟨hbc, -⟩
    · exact .inl (hab.trans hbc)
    · exact .inl (hbc ▸ hab)
  · rcases hbc with hbc | ⟨hbc, hid'⟩
    · exact .inl (hab ▸ hbc)
    · exact .inr ⟨hab.trans hbc, hid.trans hid'⟩

theorem LedgerEntry.Precedes.recordedAt_le {a b : LedgerEntry} (h : a.Precedes b) :
    a.recordedAt ≤ b.recordedAt := by
  rcases h with h | ⟨h, -⟩
  · exact le_of_lt h
  · exact le_of_eq h

instance : IsTrans LedgerEntry LedgerEntry.Precedes := ⟨fun _ _ _ h h' => h.trans h'⟩

theorem validateEntries_iff (entries : List LedgerEntry) :
    ∀ (ids sources : List String) (previous : Option LedgerEntry),
      (∀ key, sources.count key ≤ maxEntriesPerSource) →
      (validateEntries entries ids sources (previous.map fun p => (p.recordedAt, p.id)) = .ok () ↔
        (∀ e ∈ entries, e.validate = .ok ()) ∧
        ((entries.map (·.id)).Nodup ∧ ∀ e ∈ entries, e.id ∉ ids) ∧
        (∀ key, (entries.map (·.storageKey)).count key + sources.count key ≤
          maxEntriesPerSource) ∧
        (previous.toList ++ entries).Pairwise LedgerEntry.Precedes) := by
  induction entries with
  | nil =>
    intro ids sources previous hs
    cases previous <;> simpa [validateEntries] using hs
  | cons e rest ih =>
    intro ids sources previous hs
    unfold validateEntries
    constructor
    · intro h
      obtain ⟨_, hvalid, h⟩ := bind_ok h
      obtain ⟨_, hid, h⟩ := bind_ok h
      obtain ⟨_, hkey, h⟩ := bind_ok h
      obtain ⟨_, hprev, h⟩ := bind_ok h
      have hvalid : e.validate = .ok () := hvalid
      have hid := ensure_ok.1 hid
      have hkey := ensure_ok.1 hkey
      have hprev := ensure_ok.1 hprev
      have hs' : ∀ key, (sourceStorageKey e.hostId e.nodeId :: sources).count key ≤
          maxEntriesPerSource := by
        intro key
        rw [List.count_cons]
        split
        · rename_i heq
          rw [← beq_iff_eq.1 heq]
          exact hkey
        · simpa using hs key
      obtain ⟨hall, ⟨hnodup, hfresh⟩, hcount, hsorted⟩ := (ih _ _ (some e) hs').1 h
      have hsorted : (e :: rest).Pairwise LedgerEntry.Precedes := hsorted
      refine ⟨?_, ⟨?_, ?_⟩, fun key => ?_, ?_⟩
      · simpa [hvalid] using hall
      · rw [List.map_cons, List.nodup_cons]
        refine ⟨fun hmem => ?_, hnodup⟩
        obtain ⟨x, hx, hxe⟩ := List.mem_map.1 hmem
        exact hfresh x hx (by simp [hxe])
      · intro x hx
        rcases List.mem_cons.1 hx with rfl | hx
        · exact hid
        · exact fun hmem => hfresh x hx (List.mem_cons_of_mem _ hmem)
      · have := hcount key
        rw [List.count_cons] at this
        rw [List.map_cons, List.count_cons]
        unfold LedgerEntry.storageKey at *
        omega
      · cases previous with
        | none => exact hsorted
        | some p =>
          have hpe : p.Precedes e := hprev _ rfl
          refine List.pairwise_cons.2 ⟨fun x hx => ?_, hsorted⟩
          rcases List.mem_cons.1 hx with rfl | hx
          · exact hpe
          · exact hpe.trans (List.rel_of_pairwise_cons hsorted hx)
    · rintro ⟨hall, ⟨hnodup, hfresh⟩, hcount, hsorted⟩
      have htail : (e :: rest).Pairwise LedgerEntry.Precedes :=
        hsorted.sublist (List.sublist_append_right _ _)
      rw [List.map_cons, List.nodup_cons] at hnodup
      have hkey : sources.count (sourceStorageKey e.hostId e.nodeId) + 1 ≤
          maxEntriesPerSource := by
        have := hcount e.storageKey
        rw [List.map_cons, List.count_cons_self] at this
        unfold LedgerEntry.storageKey at this
        omega
      simp only
      rw [hall e List.mem_cons_self, ok_bind, ensure_of (hfresh e List.mem_cons_self), ok_bind,
        ensure_of hkey, ok_bind, ensure_of, ok_bind]
      · refine (ih _ _ (some e) fun key => ?_).2 ⟨fun x hx => hall x (List.mem_cons_of_mem _ hx),
          ⟨hnodup.2, fun x hx hmem => ?_⟩, fun key => ?_, htail⟩
        · rw [List.count_cons]
          split
          · rename_i heq
            rw [← beq_iff_eq.1 heq]
            exact hkey
          · simpa using hs key
        · rcases List.mem_cons.1 hmem with heq | hmem
          · exact hnodup.1 (List.mem_map.2 ⟨x, hx, heq⟩)
          · exact hfresh x (List.mem_cons_of_mem _ hx) hmem
        · have := hcount key
          rw [List.map_cons, List.count_cons] at this
          rw [List.count_cons]
          unfold LedgerEntry.storageKey at *
          omega
      · intro p hp
        obtain ⟨q, hq, rfl⟩ := Option.map_eq_some_iff.1 hp
        cases hq
        exact List.rel_of_pairwise_cons hsorted List.mem_cons_self

theorem validate_iff (l : StoredRemoteBandwidthLedger) : l.validate = .ok () ↔ WellFormed l := by
  have hentries := validateEntries_iff l.entries [] [] none fun _ => Nat.zero_le _
  simp only [Option.map_none, List.not_mem_nil, not_false_eq_true, implies_true, and_true,
    List.count_nil, Nat.add_zero, Option.toList_none, List.nil_append] at hentries
  -- the last entry is the latest one of a sorted list
  have hlast : l.entries.Pairwise LedgerEntry.Precedes → ∀ last, l.entries.getLast? = some last →
      ∀ t, last.recordedAt ≤ t ↔ ∀ e ∈ l.entries, e.recordedAt ≤ t := by
    intro hsorted last hlast t
    obtain ⟨init, hconcat⟩ := List.getLast?_eq_some_iff.1 hlast
    rw [hconcat] at hsorted ⊢
    constructor
    · intro h e he
      rcases List.mem_append.1 he with he | he
      · have hpre := (List.pairwise_append.1 hsorted).2.2 e he last List.mem_cons_self
        exact hpre.recordedAt_le.trans h
      · obtain rfl := List.mem_singleton.1 he
        exact h
    · exact fun h => h last (List.mem_append_right _ List.mem_cons_self)
  unfold StoredRemoteBandwidthLedger.validate
  by_cases hversion : l.schemaVersion = remoteBandwidthBudgetSchemaVersion
  · simp only [hversion, ne_eq, not_true_eq_false, if_false]
    constructor
    · intro h
      obtain ⟨_, hlen, h⟩ := bind_ok h
      obtain ⟨_, hes, h⟩ := bind_ok h
      obtain ⟨hvalid, hnodup, hcount, hsorted⟩ := hentries.1 hes
      refine ⟨⟨hversion, ensure_ok.1 hlen, ⟨hvalid, hnodup, hcount⟩, fun t ht e he => ?_⟩, hsorted⟩
      have hsome := List.getLast?_eq_some_getLast (List.ne_nil_of_mem he)
      rw [ht, hsome] at h
      exact (hlast hsorted _ hsome t).1 (ensure_ok.1 h) e he
    · rintro ⟨⟨-, hlen, ⟨hvalid, hnodup, hcount⟩, hobs⟩, hsorted⟩
      rw [ensure_of hlen, ok_bind, hentries.2 ⟨hvalid, hnodup, hcount, hsorted⟩, ok_bind]
      cases ht : l.lastObservedAt with
      | none => rfl
      | some t =>
        cases hsome : l.entries.getLast? with
        | none => rfl
        | some last => exact ensure_of ((hlast hsorted last hsome t).2 (hobs t ht))
  · simp only [ne_eq, hversion, not_false_eq_true, if_true, error_bind, reduceCtorEq, false_iff]
    exact fun h => hversion h.version

/-! ## Sorting -/

instance : IsTrans LedgerEntry fun a b => a.before b = true where
  trans a b c hab hbc := by
    simp only [LedgerEntry.before, decide_eq_true_eq] at *
    rcases hab with hab | ⟨hab, hid⟩
    · rcases hbc with hbc | ⟨hbc, -⟩
      · exact .inl (hab.trans hbc)
      · exact .inl (hbc ▸ hab)
    · rcases hbc with hbc | ⟨hbc, hid'⟩
      · exact .inl (hab ▸ hbc)
      · exact .inr ⟨hab.trans hbc, hid.trans hid'⟩

instance : Std.Total fun a b : LedgerEntry => a.before b = true where
  total a b := by
    simp only [LedgerEntry.before, decide_eq_true_eq]
    rcases lt_trichotomy a.recordedAt b.recordedAt with h | h | h
    · exact .inl (.inl h)
    · rcases le_total a.id b.id with hid | hid
      · exact .inl (.inr ⟨h, hid⟩)
      · exact .inr (.inr ⟨h.symm, hid⟩)
    · exact .inr (.inl h)

theorem EntriesOk.perm {a b : List LedgerEntry} (h : EntriesOk a) (hp : b.Perm a) :
    EntriesOk b where
  valid e he := h.valid e (hp.subset he)
  distinct := (hp.map _).nodup_iff.2 h.distinct
  sources key := by
    rw [(hp.map _).count_eq]
    exact h.sources key

theorem EntriesOk.shrink {a b : List LedgerEntry} (h : EntriesOk a)
    (hs : (b.map fun e => (e.id, e.storageKey)).Sublist (a.map fun e => (e.id, e.storageKey)))
    (hvalid : ∀ e ∈ b, e.validate = .ok ()) : EntriesOk b where
  valid := hvalid
  distinct := by
    have hids := hs.map Prod.fst
    simp only [List.map_map] at hids
    exact h.distinct.sublist hids
  sources key := by
    have hkeys := hs.map Prod.snd
    simp only [List.map_map] at hkeys
    exact (hkeys.count_le key).trans (h.sources key)

theorem Sortable.sort (h : Sortable l) : WellFormed l.sortEntries := by
  have hperm := perm_sortEntries l
  refine ⟨⟨h.version, hperm.length_eq ▸ h.bounded, h.entriesOk.perm hperm,
    fun t ht e he => h.observedAll t ht e (hperm.subset he)⟩, ?_⟩
  have hsorted : l.sortEntries.entries.Pairwise fun a b => a.before b = true :=
    List.pairwise_insertionSort _ _
  have hdistinct := (h.entriesOk.perm hperm).distinct
  rw [List.Nodup, List.pairwise_map] at hdistinct
  refine (hsorted.and hdistinct).imp fun {a b} hab => ?_
  obtain ⟨hle, hne⟩ := hab
  simp only [LedgerEntry.before, decide_eq_true_eq] at hle
  exact hle.imp_right fun hid => ⟨hid.1, lt_of_le_of_ne hid.2 hne⟩

/-! ## Merging minute buckets -/

theorem expiresAt_ok {e : LedgerEntry} :
    (∃ t, e.expiresAt = .ok t) ↔
      minUtc ≤ e.recordedAt + windowDuration ∧ e.recordedAt + windowDuration ≤ maxUtc := by
  unfold LedgerEntry.expiresAt checkedAddSigned
  split <;> simp_all [okOr]

theorem LedgerEntry.validate_iff (e : LedgerEntry) : e.validate = .ok () ↔
    hostIdHasValidShape e.hostId = true ∧ validateEntryId e.id = .ok () ∧
      (0 < e.bytes ∧ e.bytes ≤ maxBytesPerEntry) ∧
      minUtc ≤ e.recordedAt + windowDuration ∧ e.recordedAt + windowDuration ≤ maxUtc := by
  rw [← expiresAt_ok]
  unfold LedgerEntry.validate validateStoredHostId
  constructor
  · intro h
    obtain ⟨_, hhost, h⟩ := bind_ok h
    obtain ⟨_, hid, h⟩ := bind_ok h
    obtain ⟨_, hbytes, h⟩ := bind_ok h
    obtain ⟨t, ht, -⟩ := bind_ok h
    have hbytes := ensure_ok.1 hbytes
    exact ⟨ensure_ok.1 hhost, hid, by omega, t, ht⟩
  · rintro ⟨hhost, hid, hbytes, t, ht⟩
    rw [ensure_of hhost, ok_bind, hid, ok_bind, ensure_of (by omega), ok_bind, ht, ok_bind]
    rfl

theorem absorb_valid {entry previous : LedgerEntry} (hp : previous.validate = .ok ())
    (he : entry.validate = .ok ()) (hmax : previous.bytes + entry.bytes ≤ maxBytesPerEntry) :
    (absorb entry previous).validate = .ok () := by
  rw [LedgerEntry.validate_iff] at *
  obtain ⟨hhost, hid, hbytes, hmin, hle⟩ := hp
  obtain ⟨-, -, hbytes', hmin', hle'⟩ := he
  refine ⟨hhost, hid, ⟨Nat.add_pos_left hbytes.1 _, hmax⟩, ?_⟩
  change minUtc ≤ max previous.recordedAt entry.recordedAt + windowDuration ∧
    max previous.recordedAt entry.recordedAt + windowDuration ≤ maxUtc
  rcases le_total previous.recordedAt entry.recordedAt with h | h
  · rw [max_eq_right h]
    exact ⟨hmin', hle'⟩
  · rw [max_eq_left h]
    exact ⟨hmin, hle⟩

section
variable (P : LedgerEntry → Prop)

theorem compactEntry_keeps {c c' : Compaction} {entry : LedgerEntry}
    (habsorb : ∀ p, P p → p.bytes + entry.bytes ≤ maxBytesPerEntry → P (absorb entry p))
    (hentry : P entry) (hc : ∀ e ∈ c.compacted, P e) (h : compactEntry c entry = .ok c') :
    (∀ e ∈ c'.compacted, P e) ∧
      (c'.compacted.map fun e => (e.id, e.storageKey)).Sublist
        ((c.compacted.map fun e => (e.id, e.storageKey)) ++ [(entry.id, entry.storageKey)]) := by
  have hkept : (∀ e ∈ c.compacted ++ [entry], P e) ∧
      ((c.compacted ++ [entry]).map fun e => (e.id, e.storageKey)).Sublist
        ((c.compacted.map fun e => (e.id, e.storageKey)) ++ [(entry.id, entry.storageKey)]) := by
    refine ⟨fun e he => ?_, by simp⟩
    rcases List.mem_append.1 he with he | he
    · exact hc e he
    · exact List.mem_singleton.1 he ▸ hentry
  unfold compactEntry at h
  split at h
  · cases h
    exact hkept
  · split at h
    · cases h
      exact hkept
    · rename_i index hlook
      obtain ⟨previous, hprev, h⟩ := bind_ok h
      obtain ⟨combined, hsum, h⟩ := bind_ok h
      have hprev := okOr_ok.1 hprev
      have hsum := (checkedAdd_eq_some (okOr_ok.1 hsum)).1
      split at h
      · rename_i hle
        cases h
        refine ⟨fun e he => ?_, ?_⟩
        · obtain ⟨i, hi⟩ := List.mem_iff_getElem?.1 he
          rw [List.getElem?_modify] at hi
          by_cases hidx : index = i
          · subst hidx
            simp [hprev] at hi
            exact hi ▸ habsorb previous (hc previous (List.mem_of_getElem? hprev)) (hsum ▸ hle)
          · simp [hidx] at hi
            exact hc e (List.mem_of_getElem? hi)
        · -- the bin keeps its id and its source
          have hsame : (c.compacted.modify index (absorb entry)).map
              (fun e => (e.id, e.storageKey)) = c.compacted.map fun e => (e.id, e.storageKey) := by
            apply List.ext_getElem?
            intro i
            rw [List.getElem?_map, List.getElem?_modify, List.getElem?_map]
            by_cases hidx : index = i
            · cases c.compacted[i]? <;> simp [hidx, absorb, LedgerEntry.storageKey]
            · simp [hidx]
          simp only [hsame]
          exact List.sublist_append_left _ _
      · cases h
        exact hkept

theorem compactEntries_keep {es : List LedgerEntry}
    (habsorb : ∀ p, P p → ∀ e ∈ es, p.bytes + e.bytes ≤ maxBytesPerEntry → P (absorb e p)) :
    ∀ {c c' : Compaction}, (∀ e ∈ es, P e) → (∀ e ∈ c.compacted, P e) →
      es.foldlM compactEntry c = .ok c' →
      (∀ e ∈ c'.compacted, P e) ∧
        (c'.compacted.map fun e => (e.id, e.storageKey)).Sublist
          ((c.compacted ++ es).map fun e => (e.id, e.storageKey)) := by
  induction es with
  | nil =>
    intro c c' _ hc h
    cases h
    exact ⟨hc, by simp⟩
  | cons e es ih =>
    intro c c' hes hc h
    rw [List.foldlM_cons] at h
    obtain ⟨c₁, h₁, h⟩ := bind_ok h
    obtain ⟨hc₁, hs₁⟩ := compactEntry_keeps P (fun p hp => habsorb p hp e List.mem_cons_self)
      (hes e List.mem_cons_self) hc h₁
    obtain ⟨hc', hs'⟩ := ih (fun p hp x hx => habsorb p hp x (List.mem_cons_of_mem _ hx))
      (fun x hx => hes x (List.mem_cons_of_mem _ hx)) hc₁ h
    refine ⟨hc', hs'.trans ?_⟩
    rw [List.map_append, List.map_append, List.map_cons]
    exact (hs₁.append_right _).trans (by simp)

end

/-- **Merging** makes a well-formed ledger of one that only has to be sorted. -/
theorem wellFormed_merge (hl : Sortable l) (h : l.mergeCommittedMinuteBuckets = .ok l') :
    WellFormed l' := by
  obtain ⟨c, hfold, h⟩ := bind_ok h
  cases h
  have hs := hl.sort
  obtain ⟨hvalid, hsub⟩ := compactEntries_keep (fun e => e.validate = .ok ())
    (fun p hp e he hmax => absorb_valid hp (hs.entriesOk.valid e he) hmax) hs.entriesOk.valid
    (fun e he => by cases he) hfold
  rw [List.nil_append] at hsub
  refine Sortable.sort ⟨hl.version, ?_, hs.entriesOk.shrink hsub hvalid, fun t ht => ?_⟩
  · have hlen := hsub.length_le
    rw [List.length_map, List.length_map] at hlen
    exact hlen.trans hs.bounded
  · have hle := hs.observedAll t ht
    exact (compactEntries_keep (fun e => e.recordedAt ≤ t)
      (fun p hp e he _ => max_le hp (hle e he)) hle (fun e he => by cases he) hfold).1

/-! ## Advancing the clock -/

theorem recordedAt_le_of_no_anomaly {now : DateTime} (h : l.clockAnomalyAt now = none) :
    ∀ e ∈ l.entries, e.recordedAt ≤ now := by
  intro e he
  unfold clockAnomalyAt at h
  rw [List.max?_eq_none_iff, List.filter_eq_nil_iff] at h
  have := h e.recordedAt (List.mem_append_right _ (List.mem_map_of_mem he))
  simpa using this

theorem WellFormed.sublist (h : WellFormed l) {entries : List LedgerEntry}
    {observedAt : Option DateTime} (hs : entries.Sublist l.entries)
    (hobs : ∀ t, observedAt = some t → ∀ e ∈ entries, e.recordedAt ≤ t) :
    WellFormed { l with entries, lastObservedAt := observedAt } where
  version := h.version
  bounded := hs.length_le.trans h.bounded
  entriesOk := h.entriesOk.shrink (hs.map _) fun e he => h.entriesOk.valid e (hs.subset he)
  observedAll := hobs
  sorted := h.sorted.sublist hs

theorem wellFormed_advance {now : DateTime} (hl : WellFormed l)
    (h : l.advanceClockAndPrune now = .ok l') : WellFormed l' := by
  obtain ⟨_, hclock, h⟩ := bind_ok h
  obtain ⟨cutoff, -, h⟩ := bind_ok h
  cases h
  have hle := recordedAt_le_of_no_anomaly (ensure_ok.1 hclock)
  refine hl.sublist (List.filter_sublist ..) fun t ht e he => ?_
  cases ht
  exact hle e (List.mem_of_mem_filter he)

/-! ## A new reservation -/

theorem validateEntryId_allocated {random : List (Fin (2 ^ 128))} {entries : List LedgerEntry}
    {id : String} (h : allocateEntryId (random.map entryIdText) entries = .ok id) :
    validateEntryId id = .ok () ∧ id ∉ entries.map (·.id) := by
  have hfind := okOr_ok.1 h
  have hmem := List.mem_of_mem_take (List.mem_of_find?_eq_some hfind)
  obtain ⟨n, -, rfl⟩ := List.mem_map.1 hmem
  have hgood := List.find?_some hfind
  simp only [Bool.and_eq_true, Bool.not_eq_true', List.any_eq_false, beq_iff_eq] at hgood
  have hchars : ∀ c ∈ Hex.toHex entryIdHexBytes n.val,
      (c.isDigit || ('a' ≤ c && c ≤ 'f')) = true := by
    intro c hc
    obtain ⟨d, hd, rfl⟩ := Hex.mem_toHex hc
    interval_cases d <;> decide
  refine ⟨ensure_of ⟨?_, ?_, ?_⟩, fun hmem => ?_⟩
  · simp [entryIdText]
  · simpa [entryIdText, List.all_eq_true] using hchars
  · simp [hgood.1]
  · obtain ⟨e, he, heq⟩ := List.mem_map.1 hmem
    exact hgood.2 e he heq

theorem storageKey_eq_iff {e : LedgerEntry} {hostId : String} {nodeId : Option NodeId} :
    e.storageKey = sourceStorageKey hostId nodeId ↔ e.matchesSource hostId nodeId = true := by
  constructor
  · intro h
    obtain ⟨hn, hh⟩ := sourceStorageKey_inj h
    cases nodeId with
    | none => simpa [LedgerEntry.matchesSource, hn] using hh hn
    | some n => simpa [LedgerEntry.matchesSource] using hn
  · intro h
    cases nodeId with
    | none =>
      have h : e.nodeId = none ∧ e.hostId = hostId := by
        simpa [LedgerEntry.matchesSource] using h
      simp [LedgerEntry.storageKey, sourceStorageKey, h]
    | some n =>
      have h : e.nodeId = some n := by simpa [LedgerEntry.matchesSource] using h
      simp [LedgerEntry.storageKey, sourceStorageKey, h]

theorem count_storageKey (l : StoredRemoteBandwidthLedger) (hostId : String)
    (nodeId : Option NodeId) :
    (l.entries.map (·.storageKey)).count (sourceStorageKey hostId nodeId) =
      l.sourceEntryCount hostId nodeId := by
  rw [List.count_eq_countP, List.countP_map, List.countP_eq_length_filter]
  congr 1
  refine List.filter_congr fun e _ => ?_
  simp only [Function.comp_apply]
  rw [Bool.eq_iff_iff, beq_iff_eq]
  exact storageKey_eq_iff

theorem Sortable.push (h : Sortable l) {e : LedgerEntry}
    (hroom : l.entries.length < maxLedgerEntries) (hvalid : e.validate = .ok ())
    (hfresh : e.id ∉ l.entries.map (·.id))
    (hsource : (l.entries.map (·.storageKey)).count e.storageKey < maxEntriesPerSource)
    (hobs : ∀ t, l.lastObservedAt = some t → e.recordedAt ≤ t) :
    Sortable { l with entries := l.entries ++ [e] } where
  version := h.version
  bounded := by
    rw [List.length_append, List.length_singleton]
    exact hroom
  entriesOk := by
    refine ⟨fun x hx => ?_, ?_, fun key => ?_⟩
    · rcases List.mem_append.1 hx with hx | hx
      · exact h.entriesOk.valid x hx
      · exact List.mem_singleton.1 hx ▸ hvalid
    · simpa [List.nodup_append, h.entriesOk.distinct] using hfresh
    · have hold := h.entriesOk.sources key
      rw [List.map_append, List.count_append, List.map_singleton, List.count_singleton]
      split
      · rename_i heq
        rw [← beq_iff_eq.1 heq]
        omega
      · simpa using hold
  observedAll t ht x hx := by
    rcases List.mem_append.1 hx with hx | hx
    · exact h.observedAll t ht x hx
    · exact List.mem_singleton.1 hx ▸ hobs t ht

/-- The instant a window after `t` can be represented. -/
def ExpiryRepresentable (t : DateTime) : Prop :=
  minUtc ≤ t + windowDuration ∧ t + windowDuration ≤ maxUtc

theorem grantedBytes_le_requested (kind : RemoteBandwidthTransferKind) (requested rolling : Nat) :
    grantedBytes kind requested rolling ≤ requested := by
  unfold grantedBytes
  simp only
  split <;> split <;> omega

theorem wellFormed_reserve {hostId : String} {nodeId : Option NodeId} {now : DateTime}
    {kind : RemoteBandwidthTransferKind} {bytes : ReservationByteRequest}
    {random : List (Fin (2 ^ 128))} {admission : RemoteBandwidthAdmission} (hl : WellFormed l)
    (hobs : l.lastObservedAt = some now) (hhost : validateHostId hostId = .ok ())
    (hbytes : checkByteRequest kind bytes = .ok ()) (hexpiry : ExpiryRepresentable now)
    (h : admitAttempt l hostId nodeId now kind bytes (random.map entryIdText) =
      .ok (l', admission)) : WellFormed l' := by
  rcases admitAttempt_ok h with ⟨rfl, -⟩ | ⟨r, -, -, rfl, rfl, rfl, rfl, hgrant, -, -, hroom,
    hsource, hmin, hid⟩
  · exact hl
  · obtain ⟨hidOk, hfresh⟩ := validateEntryId_allocated hid
    obtain ⟨_, hrange, -⟩ := bind_ok hbytes
    have hrange := ensure_ok.1 hrange
    have hle : r.reservedBytes ≤ bytes.requestedTotalBytes := hgrant ▸ grantedBytes_le_requested ..
    refine Sortable.sort (hl.toSortable.push hroom ?_ hfresh ?_ fun t ht => ?_)
    · refine (LedgerEntry.validate_iff _).2 ⟨ensure_ok.1 hhost, hidOk, ?_, hexpiry⟩
      change 0 < r.reservedBytes ∧ r.reservedBytes ≤ maxBytesPerEntry
      omega
    · exact (count_storageKey l r.hostId r.nodeId).trans_lt hsource
    · rw [hobs] at ht
      cases ht
      exact le_rfl

/-! ## Settling an attempt -/

/-- A ledger without a marker holds nothing later than `t`. -/
def MarkerCovers (l : StoredRemoteBandwidthLedger) (t : DateTime) : Prop :=
  l.lastObservedAt = none → ∀ e ∈ l.entries, e.recordedAt ≤ t

theorem observed_covers {at' t : DateTime} (hl : WellFormed l) (hmarker : MarkerCovers l at')
    (ht : observed l at' = some t) : at' ≤ t ∧ ∀ e ∈ l.entries, e.recordedAt ≤ t := by
  unfold observed at ht
  cases hlast : l.lastObservedAt with
  | none =>
    rw [hlast] at ht
    cases ht
    exact ⟨le_rfl, hmarker hlast⟩
  | some last =>
    rw [hlast] at ht
    cases ht
    exact ⟨le_max_right _ _, fun e he => (hl.observedAll last hlast e he).trans (le_max_left _ _)⟩

section
variable {r : RemoteBandwidthReservation} {i : Nat} {at' : DateTime}

theorem wellFormed_cancel (hl : WellFormed l) (hmarker : MarkerCovers l at') :
    WellFormed { l with
      entries := l.entries.eraseIdx i
      lastObservedAt := observed l at' } := by
  have hsub := List.eraseIdx_sublist l.entries i
  exact hl.sublist hsub fun t ht e he => (observed_covers hl hmarker ht).2 e (hsub.subset he)

theorem sortable_settle (hl : WellFormed l) (hi : l.entries[i]? = some r.entry)
    (hmarker : MarkerCovers l at') (hexpiry : ExpiryRepresentable at') {total : Nat}
    (hpos : 0 < total) (hmax : total ≤ maxBytesPerEntry) :
    Sortable { l with
      entries := l.entries.eraseIdx i ++
        [⟨r.id, r.hostId, r.nodeId, at', total, .committed⟩]
      lastObservedAt := observed l at' } := by
  obtain ⟨hlt, hget⟩ := List.getElem?_eq_some_iff.1 hi
  have hperm : l.entries.Perm (r.entry :: l.entries.eraseIdx i) := by
    rw [← hget]
    exact (List.getElem_cons_eraseIdx_perm hlt).symm
  have hold : EntriesOk (r.entry :: l.entries.eraseIdx i) := hl.entriesOk.perm hperm.symm
  have hcancel := wellFormed_cancel (i := i) hl hmarker
  refine hcancel.toSortable.push ?_ ?_ ?_ ?_ fun t ht => (observed_covers hl hmarker ht).1
  · have hlen := hperm.length_eq
    have := hl.bounded
    simp only [List.length_cons] at hlen
    change (l.entries.eraseIdx i).length < _
    omega
  · obtain ⟨hhost, hid, -⟩ := (LedgerEntry.validate_iff _).1 (hold.valid r.entry List.mem_cons_self)
    exact (LedgerEntry.validate_iff _).2 ⟨hhost, hid, ⟨hpos, hmax⟩, hexpiry⟩
  · have hdistinct := hold.distinct
    rw [List.map_cons, List.nodup_cons] at hdistinct
    exact hdistinct.1
  · have hsource := hold.sources r.entry.storageKey
    rw [List.map_cons, List.count_cons_self] at hsource
    exact hsource

end

/-! ## The operations -/

namespace LedgerOperation

/-- The arithmetic of an operation on instants stays in range: an entry it adds has an expiry that
can be represented, and on a ledger without a marker nothing is later than the instant of a
settlement. -/
def InRange (l : StoredRemoteBandwidthLedger) : LedgerOperation → Prop
  | begin _ _ now _ _ _ => ExpiryRepresentable now
  | complete _ completedAt total =>
    (0 < total → ExpiryRepresentable completedAt) ∧ MarkerCovers l completedAt
  | cancel _ cancelledAt => MarkerCovers l cancelledAt
  | usage _ _ _ => True
  | check _ _ _ _ => True

theorem body_wellFormed {op : LedgerOperation} (hl : WellFormed l) (hrange : op.InRange l)
    (hargs : op.checkArguments = .ok ()) (h : op.body l = .ok l') : WellFormed l' := by
  cases op with
  | begin hostId nodeId now kind bytes random =>
    obtain ⟨_, hhost, hbytes⟩ := bind_ok hargs
    simp only [body] at h
    split at h
    · cases h
      exact hl
    · obtain ⟨l₁, h₁, h⟩ := bind_ok h
      obtain ⟨l₂, h₂, h⟩ := bind_ok h
      obtain ⟨⟨l₃, admission⟩, h₃, h⟩ := bind_ok h
      cases h
      have hobs : l₂.lastObservedAt = some now := (merge_ok h₂).1.trans (advance_ok h₁).2.1
      have hmerged := wellFormed_merge (wellFormed_advance hl h₁).toSortable h₂
      exact wellFormed_reserve hmerged hobs hhost hbytes hrange h₃
  | complete reservation completedAt total =>
    obtain ⟨hexpiry, hmarker⟩ := hrange
    obtain ⟨_, -, h⟩ := bind_ok h
    obtain ⟨index, hindex, h⟩ := bind_ok h
    refine wellFormed_merge ?_ h
    split
    · rename_i hpos
      exact sortable_settle hl (findReservation_ok hindex) hmarker (hexpiry hpos) hpos
        (ensure_ok.1 hargs)
    · exact (wellFormed_cancel hl hmarker).toSortable
  | cancel reservation cancelledAt =>
    obtain ⟨_, -, h⟩ := bind_ok h
    obtain ⟨index, -, h⟩ := bind_ok h
    cases h
    exact wellFormed_cancel hl hrange
  | usage hostId nodeId now =>
    simp only [body] at h
    split at h
    · cases h
      exact hl
    · exact wellFormed_advance hl h
  | check hostId nodeId now kind =>
    simp only [body] at h
    split at h
    · cases h
      exact hl
    · exact wellFormed_advance hl h

theorem fst_mutate {α : Type} (fits : FileBound) (l : StoredRemoteBandwidthLedger)
    (operation : StoredRemoteBandwidthLedger → Except String (StoredRemoteBandwidthLedger × α)) :
    Prod.fst <$> mutate fits l operation = (do
      l.validate
      let next ← Prod.fst <$> operation l
      next.validate
      ensure (fits next = true) "remote bandwidth ledger file is too large"
      pure next) := by
  unfold mutate
  cases l.validate with
  | error e => rfl
  | ok _ =>
    cases operation l with
    | error e => rfl
    | ok p =>
      change Prod.fst <$> (p.1.validate >>= _) = (p.1.validate >>= _)
      cases p.1.validate with
      | error e => rfl
      | ok _ =>
        change Prod.fst <$> (ensure (fits p.1 = true) _ >>= _) =
          (ensure (fits p.1 = true) _ >>= _)
        cases ensure (ε := String) (fits p.1 = true) "remote bandwidth ledger file is too large" <;>
          rfl

theorem map_bind_fst {α β : Type} (x : Except String α) (f : α → Except String (β × γ)) :
    Prod.fst <$> (x >>= f) = x >>= fun a => Prod.fst <$> f a := by
  cases x <;> rfl

theorem run_eq (fits : FileBound) (l : StoredRemoteBandwidthLedger) (op : LedgerOperation) :
    op.run fits l = (do
      op.checkArguments
      l.validate
      let next ← op.body l
      next.validate
      ensure (fits next = true) "remote bandwidth ledger file is too large"
      pure next) := by
  cases op with
  | begin hostId nodeId now kind bytes random =>
    simp only [run, beginAttemptInner, checkArguments, map_bind_fst, fst_mutate, bind_assoc, body]
    congr! 5
    cases l.clockAnomalyAt now with
    | some resumeAt => rfl
    | none =>
      simp only [map_bind_fst]
      rfl
  | complete reservation completedAt total =>
    simp only [run, completeAttempt, checkArguments, map_bind_fst, fst_mutate, body]
    congr! 9
    generalize (_ : StoredRemoteBandwidthLedger).mergeCommittedMinuteBuckets = merged
    cases merged <;> rfl
  | cancel reservation cancelledAt =>
    simp only [run, cancelAttempt, checkArguments, map_bind_fst, fst_mutate, ok_bind, body]
    rfl
  | usage hostId nodeId now =>
    simp only [run, usageAt, checkArguments, map_bind_fst, fst_mutate, body]
    congr! 5
    cases l.clockAnomalyAt now with
    | some resumeAt => rfl
    | none => cases l.advanceClockAndPrune now <;> rfl
  | check hostId nodeId now kind =>
    simp only [run, Bandwidth.check, checkArguments, map_bind_fst, fst_mutate, body]
    congr! 5
    cases l.clockAnomalyAt now with
    | some resumeAt => rfl
    | none => cases l.advanceClockAndPrune now <;> rfl

/-- A ledger with entries has a marker, as every ledger that the store writes. -/
def Marked (l : StoredRemoteBandwidthLedger) : Prop := l.lastObservedAt = none → l.entries = []

theorem body_marked {op : LedgerOperation} (hl : Marked l) (h : op.body l = .ok l') :
    Marked l' := by
  have hsome : ∀ {t : DateTime}, l'.lastObservedAt = some t → Marked l' := by
    intro t ht hnone
    rw [ht] at hnone
    cases hnone
  cases op with
  | begin hostId nodeId now kind bytes random =>
    simp only [body] at h
    split at h
    · cases h
      exact hl
    · obtain ⟨l₁, h₁, h⟩ := bind_ok h
      obtain ⟨l₂, h₂, h⟩ := bind_ok h
      obtain ⟨⟨l₃, admission⟩, h₃, h⟩ := bind_ok h
      cases h
      have hobs : l₂.lastObservedAt = some now := (merge_ok h₂).1.trans (advance_ok h₁).2.1
      rcases admitAttempt_ok h₃ with ⟨rfl, -⟩ | ⟨r, -, -, rfl, -⟩
      · exact hsome hobs
      · exact hsome hobs
  | complete reservation completedAt total =>
    obtain ⟨_, -, h⟩ := bind_ok h
    obtain ⟨index, -, h⟩ := bind_ok h
    exact hsome (merge_ok h).1
  | cancel reservation cancelledAt =>
    obtain ⟨_, -, h⟩ := bind_ok h
    obtain ⟨index, -, h⟩ := bind_ok h
    cases h
    exact hsome rfl
  | usage hostId nodeId now | check hostId nodeId now kind =>
    simp only [body] at h
    split at h
    · cases h
      exact hl
    · exact hsome (advance_ok h).2.1

end LedgerOperation

/-- **Every operation keeps the ledger well formed.** On every ledger that `validate` accepts, the
ledger that an operation hands to `mutate` is accepted again, so that apart from the size of the
file nothing is rejected once the closure has run. Every marked ledger stays marked. -/
theorem operation_hands_valid_ledger (fits : FileBound) {l : StoredRemoteBandwidthLedger}
    (hl : l.validate = .ok ()) (op : LedgerOperation) (hrange : op.InRange l) :
    (∀ next, (do op.checkArguments; op.body l) = .ok next →
      next.validate = .ok () ∧
        (LedgerOperation.Marked l → LedgerOperation.Marked next)) ∧
    op.run fits l = (do
      op.checkArguments
      let next ← op.body l
      ensure (fits next = true) "remote bandwidth ledger file is too large"
      pure next) := by
  have hwell := (validate_iff l).1 hl
  refine ⟨fun next h => ?_, ?_⟩
  · obtain ⟨_, hargs, h⟩ := bind_ok h
    have hnext := LedgerOperation.body_wellFormed hwell hrange hargs h
    exact ⟨(validate_iff next).2 hnext, fun hm => LedgerOperation.body_marked hm h⟩
  · rw [LedgerOperation.run_eq, hl]
    cases hargs : op.checkArguments with
    | error e => rfl
    | ok _ =>
      cases hbody : op.body l with
      | error e => rfl
      | ok next =>
        have hnext := LedgerOperation.body_wellFormed hwell hrange hargs hbody
        simp only [ok_bind, (validate_iff next).2 hnext]

namespace Sample

/-- A ledger with one attempt that is out, read at noon of the first day. -/
def attemptLedger : StoredRemoteBandwidthLedger where
  schemaVersion := 1
  lastObservedAt := some (hours 12)
  entries := [⟨"0123456789abcdef0123456789abcdef", "desk", none, hours 12, 1000, .reserved⟩]

def attempt : RemoteBandwidthReservation :=
  ⟨"0123456789abcdef0123456789abcdef", "desk", none, hours 12, 1000, 0, .manual⟩

/-- The same attempt in a ledger without a marker, beside a later one. -/
def unmarkedLedger : StoredRemoteBandwidthLedger where
  schemaVersion := 1
  lastObservedAt := none
  entries := attemptLedger.entries ++
    [⟨"fedcba9876543210fedcba9876543210", "desk", none, hours 14, 1000, .reserved⟩]

end Sample

theorem operation_hands_valid_ledger_sample :
    (LedgerOperation.complete Sample.attempt (hours 13) 500).run (fun _ => true)
        Sample.attemptLedger =
      .ok ⟨1, some (hours 13),
        [⟨"0123456789abcdef0123456789abcdef", "desk", none, hours 13, 500, .committed⟩]⟩ := by
  have hvalid : Sample.attemptLedger.validate = .ok () := by decide +kernel
  have hrange : (LedgerOperation.complete Sample.attempt (hours 13) 500).InRange
      Sample.attemptLedger :=
    ⟨fun _ => by unfold ExpiryRepresentable; decide, fun h => by cases h⟩
  rw [(operation_hands_valid_ledger (fun _ => true) hvalid _ hrange).2]
  decide +kernel

/-- An attempt that begins at the last instant there is, and a cancellation on a ledger whose file
has no marker: the closure runs, and its ledger is rejected. -/
theorem closing_validation_rejects :
    (StoredRemoteBandwidthLedger.default.validate = .ok () ∧
      ∃ next, (LedgerOperation.begin "desk" none maxUtc .manual ⟨1000, 0, 1⟩ [1]).body .default =
          .ok next ∧
        next.validate = .error "remote bandwidth expiry timestamp overflows") ∧
    (Sample.unmarkedLedger.validate = .ok () ∧
      ∃ next, (LedgerOperation.cancel Sample.attempt (hours 13)).body Sample.unmarkedLedger =
          .ok next ∧
        next.validate = .error "remote bandwidth last-observed time precedes a ledger entry") := by
  refine ⟨⟨by decide +kernel, ⟨1, some maxUtc,
    [⟨"00000000000000000000000000000001", "desk", none, maxUtc, 1000, .reserved⟩]⟩, ?_, ?_⟩,
    by decide +kernel, ⟨1, some (hours 13),
    [⟨"fedcba9876543210fedcba9876543210", "desk", none, hours 14, 1000, .reserved⟩]⟩, ?_, ?_⟩
  all_goals decide +kernel

end Bandwidth
