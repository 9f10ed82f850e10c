import UsageMonit.Bandwidth.Store
import UsageMonit.Lib.RollingSum

/-!
# Admissions respect the limits under any interleaving

`Covers` relates the ledger to what really happened: after every instant that can still matter it
charges at least what was settled, and it holds the entry of every attempt that is out, unless the
window has passed over it. Merging minute buckets (`merge_covers`), pruning, settling and
cancelling keep the relation (`step_covers`), so that the rolling sum that an admission checks is
never below the true one.
-/

namespace Bandwidth

open Fallible Time RollingSum StoredRemoteBandwidthLedger

/-! ## Sources -/

variable {kind : RemoteBandwidthTransferKind} {hostId : String} {nodeId : Option NodeId}
  {l l' : StoredRemoteBandwidthLedger} {fits : FileBound} {admission : RemoteBandwidthAdmission}

theorem sourceStorageKey_inj {h h' : String} {n n' : Option NodeId}
    (heq : sourceStorageKey h n = sourceStorageKey h' n') :
    n = n' ∧ (n = none → h = h') := by
  have hlist := congrArg String.toList heq
  cases n with
  | none =>
    cases n' with
    | none =>
      refine ⟨rfl, fun _ => String.toList_injective ?_⟩
      simpa [sourceStorageKey] using hlist
    | some n' => simp [sourceStorageKey] at hlist
  | some n =>
    cases n' with
    | none => simp [sourceStorageKey] at hlist
    | some n' =>
      refine ⟨congrArg some (String.toList_injective ?_), fun h => by cases h⟩
      simpa [sourceStorageKey] using hlist

theorem matchesSource_congr {a b : LedgerEntry}
    (h : sourceStorageKey a.hostId a.nodeId = sourceStorageKey b.hostId b.nodeId)
    (hostId : String) (nodeId : Option NodeId) :
    a.matchesSource hostId nodeId = b.matchesSource hostId nodeId := by
  obtain ⟨hn, hh⟩ := sourceStorageKey_inj h
  cases nodeId with
  | some n => simp only [LedgerEntry.matchesSource, hn]
  | none =>
    simp only [LedgerEntry.matchesSource, hn]
    by_cases hb : b.nodeId = none
    · rw [hh (hn.trans hb)]
    · simp [hb]

/-! ## Weights -/

/-- What an entry of a kind charges to a source. -/
def charge (kind : LedgerEntryKind) (hostId : String) (nodeId : Option NodeId) (e : LedgerEntry) :
    Nat :=
  if e.kind = kind ∧ e.matchesSource hostId nodeId = true then e.bytes else 0

def Settlement.cost (hostId : String) (nodeId : Option NodeId) (t : Settlement) : Nat :=
  if (⟨"", t.hostId, t.nodeId, t.completedAt, t.bytes, .committed⟩ :
      LedgerEntry).matchesSource hostId nodeId = true then t.bytes else 0

def chargedAfter (kind : LedgerEntryKind) (hostId : String) (nodeId : Option NodeId) (c : DateTime)
    (entries : List LedgerEntry) : Nat :=
  massAfter LedgerEntry.recordedAt (charge kind hostId nodeId) c entries

theorem chargedAfter_perm {kind : LedgerEntryKind} {c : DateTime} {a b : List LedgerEntry}
    (h : a.Perm b) :
    chargedAfter kind hostId nodeId c a = chargedAfter kind hostId nodeId c b := massAfter_perm h

def settledAfter (hostId : String) (nodeId : Option NodeId) (c : DateTime)
    (settled : List Settlement) : Nat :=
  massAfter Settlement.completedAt (Settlement.cost hostId nodeId) c settled

/-- The true rolling total of a source: settled transfers and attempts that are out, of the last
24 hours. -/
def windowTotal (s : StoreState) (hostId : String) (nodeId : Option NodeId) (now : DateTime) :
    Nat :=
  settledAfter hostId nodeId (now - windowDuration) s.settled +
    chargedAfter .reserved hostId nodeId (now - windowDuration) s.outstanding

/-! ## The usage of the ledger -/

theorem saturatingAdd_min (a b x : Nat) :
    saturatingAdd 64 (min a (2 ^ 64 - 1)) b + x = min (a + b) (2 ^ 64 - 1) + x := by
  unfold saturatingAdd
  omega

theorem addUsage_bytes (u : RemoteBandwidthUsage) (e : LedgerEntry) :
    (addUsage u e).committedBytes = (if e.kind = .committed
        then saturatingAdd 64 u.committedBytes e.bytes else u.committedBytes) ∧
      (addUsage u e).reservedBytes = (if e.kind = .reserved
        then saturatingAdd 64 u.reservedBytes e.bytes else u.reservedBytes) := by
  unfold addUsage
  cases hk : e.kind with
  | committed =>
    simp only
    split <;> simp
  | reserved =>
    simp only
    split <;> simp

theorem usage_foldl (hostId : String) (nodeId : Option NodeId) (es : List LedgerEntry) :
    ∀ (u : RemoteBandwidthUsage) (a b : Nat), u.committedBytes = min a (2 ^ 64 - 1) →
      u.reservedBytes = min b (2 ^ 64 - 1) →
      ((es.filter fun e => e.matchesSource hostId nodeId).foldl addUsage u).committedBytes =
          min (a + (es.map (charge .committed hostId nodeId)).sum) (2 ^ 64 - 1) ∧
        ((es.filter fun e => e.matchesSource hostId nodeId).foldl addUsage u).reservedBytes =
          min (b + (es.map (charge .reserved hostId nodeId)).sum) (2 ^ 64 - 1) := by
  induction es with
  | nil =>
    intro u a b ha hb
    exact ⟨ha, hb⟩
  | cons e es ih =>
    intro u a b ha hb
    rw [List.map_cons, List.sum_cons, List.map_cons, List.sum_cons]
    by_cases hm : e.matchesSource hostId nodeId = true
    · obtain ⟨hc, hr⟩ := addUsage_bytes u e
      have hkeep : (e :: es).filter (fun e => e.matchesSource hostId nodeId) =
          e :: es.filter (fun e => e.matchesSource hostId nodeId) := List.filter_cons_of_pos hm
      rw [hkeep, List.foldl_cons]
      cases hk : e.kind with
      | committed =>
        have hcharge : charge .committed hostId nodeId e = e.bytes ∧
            charge .reserved hostId nodeId e = 0 := by simp [charge, hk, hm]
        rw [hk] at hc hr
        rw [hcharge.1, hcharge.2, ← Nat.add_assoc, Nat.zero_add]
        refine ih _ _ _ ?_ (hr.trans hb)
        rw [hc, ha]
        simpa using saturatingAdd_min a e.bytes 0
      | reserved =>
        have hcharge : charge .committed hostId nodeId e = 0 ∧
            charge .reserved hostId nodeId e = e.bytes := by simp [charge, hk, hm]
        rw [hk] at hc hr
        rw [hcharge.1, hcharge.2, ← Nat.add_assoc b, Nat.zero_add]
        refine ih _ _ _ (hc.trans ha) ?_
        rw [hr, hb]
        simpa using saturatingAdd_min b e.bytes 0
    · have hzero : ∀ k, charge k hostId nodeId e = 0 := fun k => by simp [charge, hm]
      have hdrop : (e :: es).filter (fun e => e.matchesSource hostId nodeId) =
          es.filter (fun e => e.matchesSource hostId nodeId) := List.filter_cons_of_neg hm
      rw [hdrop, hzero, hzero, Nat.zero_add, Nat.zero_add]
      exact ih u a b ha hb

def totalCharge (hostId : String) (nodeId : Option NodeId) (entries : List LedgerEntry) : Nat :=
  (entries.map (charge .committed hostId nodeId)).sum +
    (entries.map (charge .reserved hostId nodeId)).sum

theorem totalCharge_perm {a b : List LedgerEntry} (h : a.Perm b) :
    totalCharge hostId nodeId a = totalCharge hostId nodeId b := by
  unfold totalCharge
  rw [(h.map _).sum_eq, (h.map _).sum_eq]

/-- The rolling bytes of a source: what its entries charge, up to the top of the type. -/
theorem rollingBytes_eq (l : StoredRemoteBandwidthLedger) (hostId : String)
    (nodeId : Option NodeId) :
    (l.usage hostId nodeId).rollingBytes =
      min (totalCharge hostId nodeId l.entries) (2 ^ 64 - 1) := by
  obtain ⟨hc, hr⟩ := usage_foldl hostId nodeId l.entries ⟨hostId, nodeId, 0, 0, none⟩ 0 0 rfl rfl
  unfold RemoteBandwidthUsage.rollingBytes StoredRemoteBandwidthLedger.usage sourceEntries
  rw [hc, hr]
  unfold saturatingAdd totalCharge
  omega

/-! ## Merging minute buckets -/

def reservedEntries (entries : List LedgerEntry) : List LedgerEntry :=
  entries.filter fun e => decide (e.kind = .reserved)

@[simp] theorem reservedEntries_append (a b : List LedgerEntry) :
    reservedEntries (a ++ b) = reservedEntries a ++ reservedEntries b := List.filter_append ..

theorem reservedEntries_perm {a b : List LedgerEntry} (h : a.Perm b) :
    (reservedEntries a).Perm (reservedEntries b) := h.filter _

/-- Every open bin is a committed entry of the source it is filed under. -/
def BinsOk (c : Compaction) : Prop :=
  ∀ key index, c.committedGroups.lookup key = some index → ∃ e, c.compacted[index]? = some e ∧
    e.kind = .committed ∧ sourceStorageKey e.hostId e.nodeId = key.1

theorem reservedEntries_modify {entry e : LedgerEntry} {l : List LedgerEntry} {i : Nat}
    (hi : l[i]? = some e) (hk : e.kind = .committed) :
    reservedEntries (l.modify i (absorb entry)) = reservedEntries l := by
  induction l generalizing i with
  | nil => cases hi
  | cons x l ih =>
    cases i with
    | zero =>
      cases hi
      have ha : (absorb entry e).kind = .committed := hk
      simp [reservedEntries, hk, ha]
    | succ i =>
      have := ih (i := i) (by simpa using hi)
      unfold reservedEntries at this ⊢
      rw [List.modify_succ_cons, List.filter_cons, List.filter_cons, this]

theorem binsOk_open {c : Compaction} {entry : LedgerEntry} (hc : BinsOk c)
    (hk : entry.kind = .committed) : BinsOk (openBin c entry) := by
  intro key index hlook
  simp only [openBin, List.lookup_cons] at hlook
  split at hlook
  · rename_i heq
    cases hlook
    refine ⟨entry, by simp [openBin], hk, ?_⟩
    have hkey : key = bucketKey entry := by simpa using heq
    rw [hkey]
    rfl
  · obtain ⟨e, he, hek, hes⟩ := hc key index hlook
    refine ⟨e, ?_, hek, hes⟩
    have hlt := (List.getElem?_eq_some_iff.1 he).1
    simp only [openBin]
    rw [List.getElem?_append_left hlt]
    exact he

/-- One entry: a bin absorbs it or it is kept, so nothing is charged less or earlier. -/
theorem compactEntry_ok {c c' : Compaction} {entry : LedgerEntry} (hc : BinsOk c)
    (h : compactEntry c entry = .ok c') :
    BinsOk c' ∧
      reservedEntries c'.compacted = reservedEntries c.compacted ++ reservedEntries [entry] ∧
      ∀ hostId nodeId t, chargedAfter .committed hostId nodeId t c.compacted +
          massOf LedgerEntry.recordedAt (charge .committed hostId nodeId) t entry ≤
        chargedAfter .committed hostId nodeId t c'.compacted := by
  have hkept : ∀ hostId nodeId t, chargedAfter .committed hostId nodeId t c.compacted +
      massOf LedgerEntry.recordedAt (charge .committed hostId nodeId) t entry ≤
        chargedAfter .committed hostId nodeId t (c.compacted ++ [entry]) := by
    intro hostId nodeId t
    simp [chargedAfter]
  unfold compactEntry at h
  split at h
  · cases h
    refine ⟨fun key index hlook => ?_, reservedEntries_append _ _, hkept⟩
    obtain ⟨e, he, hek, hes⟩ := hc key index hlook
    have hlt := (List.getElem?_eq_some_iff.1 he).1
    refine ⟨e, ?_, hek, hes⟩
    rw [List.getElem?_append_left hlt]
    exact he
  · rename_i hk
    have hcommitted : entry.kind = .committed := by
      cases hkind : entry.kind with
      | committed => rfl
      | reserved => exact absurd hkind hk
    split at h
    · cases h
      exact ⟨binsOk_open hc hcommitted, reservedEntries_append _ _, hkept⟩
    · rename_i index hlook
      obtain ⟨previous, hprev, h⟩ := bind_ok h
      obtain ⟨combined, -, h⟩ := bind_ok h
      have hprev := okOr_ok.1 hprev
      obtain ⟨e, he, hek, hes⟩ := hc _ _ hlook
      rw [hprev] at he
      cases he
      split at h
      · cases h
        refine ⟨fun key index' hlook' => ?_, ?_, fun hostId nodeId t => ?_⟩
        · obtain ⟨e', he', hek', hes'⟩ := hc key index' hlook'
          by_cases hidx : index' = index
          · subst hidx
            rw [hprev] at he'
            cases he'
            exact ⟨absorb entry previous, by rw [List.getElem?_modify, hprev]; simp, hek', hes'⟩
          · exact ⟨e', by rw [List.getElem?_modify, he']; simp [Ne.symm hidx], hek', hes'⟩
        · have hnone : reservedEntries [entry] = [] := by
            simp [reservedEntries, hcommitted]
          rw [hnone, List.append_nil]
          exact reservedEntries_modify hprev hek
        · refine massAfter_modify_le hprev ?_ ?_ ?_
          · have hsame : previous.matchesSource hostId nodeId = entry.matchesSource hostId nodeId :=
              matchesSource_congr hes hostId nodeId
            have habs : (absorb entry previous).matchesSource hostId nodeId =
                previous.matchesSource hostId nodeId := matchesSource_congr rfl hostId nodeId
            have hkabs : (absorb entry previous).kind = .committed := hek
            unfold charge
            rw [habs, hsame, hkabs, hek, hcommitted]
            split <;> rfl
          · exact le_max_left _ _
          · exact le_max_right _ _
      · cases h
        exact ⟨binsOk_open hc hcommitted, reservedEntries_append _ _, hkept⟩

theorem compact_foldlM : ∀ {es : List LedgerEntry} {c c' : Compaction}, BinsOk c →
    es.foldlM compactEntry c = .ok c' →
    reservedEntries c'.compacted = reservedEntries c.compacted ++ reservedEntries es ∧
      ∀ hostId nodeId t, chargedAfter .committed hostId nodeId t c.compacted +
          chargedAfter .committed hostId nodeId t es ≤
        chargedAfter .committed hostId nodeId t c'.compacted
  | [], c, c', _, h => by
    cases h
    exact ⟨(List.append_nil _).symm, fun _ _ _ => le_of_eq (Nat.add_zero _)⟩
  | e :: es, c, c', hc, h => by
    rw [List.foldlM_cons] at h
    obtain ⟨c₁, h₁, h⟩ := bind_ok h
    obtain ⟨hc₁, hres₁, hmass₁⟩ := compactEntry_ok hc h₁
    obtain ⟨hres, hmass⟩ := compact_foldlM hc₁ h
    refine ⟨?_, fun hostId nodeId t => ?_⟩
    · rw [hres, hres₁, List.append_assoc, ← reservedEntries_append]
      rfl
    · have h₁ := hmass₁ hostId nodeId t
      have h₂ := hmass hostId nodeId t
      unfold chargedAfter at h₁ h₂ ⊢
      rw [massAfter_cons]
      omega

theorem perm_sortEntries (l : StoredRemoteBandwidthLedger) :
    l.sortEntries.entries.Perm l.entries := List.perm_insertionSort _ _

/-- **Merging** keeps the reservations and charges nothing less or earlier. -/
theorem merge_ok (h : l.mergeCommittedMinuteBuckets = .ok l') :
    l'.lastObservedAt = l.lastObservedAt ∧
      (reservedEntries l'.entries).Perm (reservedEntries l.entries) ∧
      ∀ hostId nodeId t, chargedAfter .committed hostId nodeId t l.entries ≤
        chargedAfter .committed hostId nodeId t l'.entries := by
  obtain ⟨c, hfold, h⟩ := bind_ok h
  cases h
  obtain ⟨hres, hmass⟩ := compact_foldlM (fun key index hl => by cases hl) hfold
  refine ⟨rfl, ?_, fun hostId nodeId t => ?_⟩
  · refine (reservedEntries_perm (perm_sortEntries _)).trans ?_
    simp only [hres]
    exact reservedEntries_perm (perm_sortEntries l)
  · have hle := hmass hostId nodeId t
    rw [chargedAfter_perm (perm_sortEntries { l.sortEntries with entries := c.compacted }),
      ← chargedAfter_perm (perm_sortEntries l)]
    simpa [chargedAfter] using hle

/-! ## The ledger covers what happened -/

/-- Nothing later than `c` was dropped from the ledger. -/
def StillCounts (l : StoredRemoteBandwidthLedger) (c : DateTime) : Prop :=
  ∀ t, l.lastObservedAt = some t → t - windowDuration ≤ c

structure Covers (s : StoreState) : Prop where
  settled : ∀ hostId nodeId c, StillCounts s.ledger c →
    settledAfter hostId nodeId c s.settled ≤
      chargedAfter .committed hostId nodeId c s.ledger.entries
  outstanding : ∃ expired, s.outstanding.Perm (reservedEntries s.ledger.entries ++ expired) ∧
    ∀ e ∈ expired, ∃ t, s.ledger.lastObservedAt = some t ∧ e.recordedAt ≤ t - windowDuration

theorem covers_init : Covers .init :=
  ⟨fun _ _ _ _ => Nat.zero_le _, [], .nil, fun e he => by cases he⟩

theorem mutate_ok {α : Type} {r : α}
    {operation : StoredRemoteBandwidthLedger → Except String (StoredRemoteBandwidthLedger × α)}
    (h : mutate fits l operation = .ok (l', r)) : operation l = .ok (l', r) := by
  obtain ⟨_, -, h⟩ := bind_ok h
  obtain ⟨⟨next, result⟩, hop, h⟩ := bind_ok h
  obtain ⟨_, -, h⟩ := bind_ok h
  obtain ⟨_, -, h⟩ := bind_ok h
  cases h
  exact hop

theorem le_of_no_anomaly {now : DateTime} (h : l.clockAnomalyAt now = none) :
    ∀ t, l.lastObservedAt = some t → t ≤ now := by
  intro t ht
  unfold clockAnomalyAt at h
  rw [List.max?_eq_none_iff, List.filter_eq_nil_iff] at h
  have := h t (List.mem_append_left _ (by simp [ht]))
  simpa using this

theorem advance_ok {now : DateTime} (h : l.advanceClockAndPrune now = .ok l') :
    (∀ t, l.lastObservedAt = some t → t ≤ now) ∧ l'.lastObservedAt = some now ∧
      l'.entries = l.entries.filter fun e => decide (now - windowDuration < e.recordedAt) := by
  obtain ⟨_, hclock, h⟩ := bind_ok h
  obtain ⟨cutoff, hcut, h⟩ := bind_ok h
  cases h
  have hcut := okOr_ok.1 hcut
  unfold checkedSubSigned checkedAddSigned at hcut
  split at hcut
  · cases hcut
    exact ⟨le_of_no_anomaly (ensure_ok.1 hclock), rfl, by simp only [Int.sub_eq_add_neg]⟩
  · cases hcut

section
variable {s : StoreState} (hs : Covers s)
include hs

theorem covers_advance {now : DateTime} (h : s.ledger.advanceClockAndPrune now = .ok l) :
    Covers { s with ledger := l } := by
  obtain ⟨hle, hlast, hentries⟩ := advance_ok h
  obtain ⟨expired, hperm, hexp⟩ := hs.outstanding
  refine ⟨fun hostId nodeId c hc => ?_, ?_⟩
  · have hnow : now - windowDuration ≤ c := hc now hlast
    have hold : StillCounts s.ledger c := fun t ht =>
      (Int.sub_le_sub_right (hle t ht) _).trans hnow
    simp only [hentries]
    unfold chargedAfter
    rw [massAfter_dropUntil hnow]
    exact hs.settled hostId nodeId c hold
  · refine ⟨(reservedEntries s.ledger.entries).filter
        (fun e => !decide (now - windowDuration < e.recordedAt)) ++ expired, ?_, fun e he => ?_⟩
    · simp only [hentries]
      refine hperm.trans ?_
      rw [← List.append_assoc]
      refine List.Perm.append_right expired ?_
      have hsplit := List.filter_append_perm
        (fun e : LedgerEntry => decide (now - windowDuration < e.recordedAt))
        (reservedEntries s.ledger.entries)
      have hcomm : reservedEntries (s.ledger.entries.filter
            fun e => decide (now - windowDuration < e.recordedAt)) =
          (reservedEntries s.ledger.entries).filter
            fun e => decide (now - windowDuration < e.recordedAt) := by
        unfold reservedEntries
        rw [List.filter_filter, List.filter_filter]
        exact List.filter_congr fun e _ => Bool.and_comm ..
      rw [hcomm]
      exact hsplit.symm
    · refine ⟨now, hlast, ?_⟩
      rcases List.mem_append.1 he with he | he
      · have := (List.mem_filter.1 he).2
        simpa using this
      · obtain ⟨t, ht, hle'⟩ := hexp e he
        exact hle'.trans (Int.sub_le_sub_right (hle t ht) _)

theorem covers_merge {l : StoredRemoteBandwidthLedger}
    (h : s.ledger.mergeCommittedMinuteBuckets = .ok l) : Covers { s with ledger := l } := by
  obtain ⟨hlast, hres, hmass⟩ := merge_ok h
  obtain ⟨expired, hperm, hexp⟩ := hs.outstanding
  refine ⟨fun hostId nodeId c hc => ?_, expired, ?_, ?_⟩
  · have hold : StillCounts s.ledger c := by
      intro t ht
      exact hc t (hlast.trans ht)
    exact (hs.settled hostId nodeId c hold).trans (hmass hostId nodeId c)
  · exact hperm.trans (hres.symm.append_right expired)
  · simp only [hlast]
    exact hexp

theorem covers_reserve {entry : LedgerEntry} (hk : entry.kind = .reserved) :
    Covers { s with
      ledger := ({ s.ledger with entries := s.ledger.entries ++ [entry] } :
        StoredRemoteBandwidthLedger).sortEntries
      outstanding := entry :: s.outstanding } := by
  obtain ⟨expired, hperm, hexp⟩ := hs.outstanding
  have hsort := perm_sortEntries { s.ledger with entries := s.ledger.entries ++ [entry] }
  refine ⟨fun hostId nodeId c hc => ?_, expired, ?_, hexp⟩
  · rw [chargedAfter_perm hsort]
    refine (hs.settled hostId nodeId c hc).trans ?_
    simp [chargedAfter]
  · have hone : reservedEntries [entry] = [entry] := by simp [reservedEntries, hk]
    refine (hperm.cons entry).trans ?_
    refine List.Perm.trans ?_ ((reservedEntries_perm hsort).symm.append_right expired)
    rw [reservedEntries_append, hone, List.append_assoc]
    exact List.perm_middle.symm

/-- Taking an attempt's entry out of the ledger and out of the outstanding attempts, with a charge
for what it transferred. -/
theorem covers_settle {e : LedgerEntry} {i : Nat} {at' : DateTime} {charges : List LedgerEntry}
    (transfers : List Settlement) (hk : e.kind = .reserved) (hi : s.ledger.entries[i]? = some e)
    (hcharges : ∀ x ∈ charges, x.kind = .committed)
    (hcost : ∀ hostId nodeId c, settledAfter hostId nodeId c transfers ≤
      chargedAfter .committed hostId nodeId c charges) :
    Covers ⟨{ s.ledger with
        entries := s.ledger.entries.eraseIdx i ++ charges
        lastObservedAt := observed s.ledger at' }, transfers ++ s.settled,
      s.outstanding.erase e⟩ := by
  obtain ⟨expired, hperm, hexp⟩ := hs.outstanding
  obtain ⟨hlt, hget⟩ := List.getElem?_eq_some_iff.1 hi
  have herase : s.ledger.entries.Perm (e :: s.ledger.entries.eraseIdx i) := by
    rw [← hget]
    exact (List.getElem_cons_eraseIdx_perm hlt).symm
  have hnone : reservedEntries charges = [] := by
    unfold reservedEntries
    rw [List.filter_eq_nil_iff]
    intro x hx
    simp [hcharges x hx]
  -- the marker only moves forward
  have hobserved : ∀ t, s.ledger.lastObservedAt = some t →
      ∃ t', observed s.ledger at' = some t' ∧ t ≤ t' := by
    intro t ht
    refine ⟨max t at', ?_, le_max_left _ _⟩
    simp [observed, ht]
  refine ⟨fun hostId nodeId c hc => ?_, expired, ?_, fun x hx => ?_⟩
  · have hold : StillCounts s.ledger c := by
      intro t ht
      obtain ⟨t', ht', hle⟩ := hobserved t ht
      exact (Int.sub_le_sub_right hle _).trans (hc t' ht')
    have hbefore := hs.settled hostId nodeId c hold
    have hnew := hcost hostId nodeId c
    rw [chargedAfter_perm herase] at hbefore
    have hzero : massOf LedgerEntry.recordedAt (charge .committed hostId nodeId) c e = 0 := by
      simp [massOf, charge, hk]
    unfold settledAfter chargedAfter at hbefore hnew ⊢
    rw [massAfter_cons, hzero] at hbefore
    rw [massAfter_append, massAfter_append]
    omega
  · simp only [reservedEntries_append, hnone, List.append_nil]
    have hout : s.outstanding.Perm
        (e :: (reservedEntries (s.ledger.entries.eraseIdx i) ++ expired)) := by
      refine hperm.trans ?_
      have hres := reservedEntries_perm herase
      have hcons : reservedEntries (e :: s.ledger.entries.eraseIdx i) =
          e :: reservedEntries (s.ledger.entries.eraseIdx i) := by simp [reservedEntries, hk]
      rw [hcons] at hres
      exact hres.append_right expired
    have := hout.erase e
    rwa [List.erase_cons_head] at this
  · obtain ⟨t, ht, hle⟩ := hexp x hx
    obtain ⟨t', ht', hle'⟩ := hobserved t ht
    exact ⟨t', ht', hle.trans (Int.sub_le_sub_right hle' _)⟩

end

/-! ## Admissions -/

theorem admitAttempt_ok {now : DateTime} {bytes : ReservationByteRequest} {random : List String}
    (h : admitAttempt l hostId nodeId now kind bytes random = .ok (l', admission)) :
    (l' = l ∧ ∃ p, admission = .paused p) ∨
      ∃ r, admission = .granted r ∧ r.entry.kind = .reserved ∧
        l' = ({ l with entries := l.entries ++ [r.entry] } :
          StoredRemoteBandwidthLedger).sortEntries ∧
        r.hostId = hostId ∧ r.nodeId = nodeId ∧ r.startedAt = now ∧
        r.reservedBytes =
          grantedBytes kind bytes.requestedTotalBytes (l.usage hostId nodeId).rollingBytes ∧
        (overrideHard kind = false →
          (l.usage hostId nodeId).rollingBytes < remoteBandwidthHardLimitBytes) ∧
        (kind = .automaticBulk →
          (l.usage hostId nodeId).rollingBytes < remoteBandwidthSoftLimitBytes) ∧
        l.entries.length < maxLedgerEntries ∧
        l.sourceEntryCount hostId nodeId < maxEntriesPerSource ∧
        bytes.minimumGrantBytes ≤ r.reservedBytes ∧
        allocateEntryId random l.entries = .ok r.id := by
  unfold admitAttempt at h
  simp only at h
  split at h
  · cases h
    exact .inl ⟨rfl, _, rfl⟩
  · rename_i hhard
    split at h
    · cases h
      exact .inl ⟨rfl, _, rfl⟩
    · rename_i hsoft
      split at h
      · cases h
        exact .inl ⟨rfl, _, rfl⟩
      · rename_i hcapacity
        simp only [Bool.or_eq_true, decide_eq_true_eq, not_or, Nat.not_le] at hcapacity
        split at h
        · cases h
          exact .inl ⟨rfl, _, rfl⟩
        · rename_i hmin
          obtain ⟨id, hid, h⟩ := bind_ok h
          cases h
          refine .inr ⟨_, rfl, rfl, rfl, rfl, rfl, rfl, rfl, fun hk => ?_, fun hk => ?_,
            hcapacity.1, hcapacity.2, Nat.le_of_not_lt hmin, hid⟩
          · exact Nat.lt_of_not_le fun hle => hhard ⟨hk, hle⟩
          · exact Nat.lt_of_not_le fun hle => hsoft ⟨hk, hle⟩

theorem beginAttemptInner_ok {now : DateTime} {bytes : ReservationByteRequest}
    {random : List String}
    (h : beginAttemptInner fits l hostId nodeId now kind bytes random = .ok (l', admission)) :
    (l' = l ∧ ∃ p, admission = .paused p) ∨
      ∃ l₁ l₂, l.advanceClockAndPrune now = .ok l₁ ∧ l₁.mergeCommittedMinuteBuckets = .ok l₂ ∧
        admitAttempt l₂ hostId nodeId now kind bytes random = .ok (l', admission) := by
  obtain ⟨_, -, h⟩ := bind_ok h
  obtain ⟨_, -, h⟩ := bind_ok h
  have h := mutate_ok h
  split at h
  · cases h
    exact .inl ⟨rfl, _, rfl⟩
  · obtain ⟨l₁, h₁, h⟩ := bind_ok h
    obtain ⟨l₂, h₂, h⟩ := bind_ok h
    exact .inr ⟨l₁, l₂, h₁, h₂, h⟩

theorem Admits.inner {now : DateTime} (h : Admits fits l hostId nodeId now kind l' admission) :
    ∃ bytes random,
      beginAttemptInner fits l hostId nodeId now kind bytes random = .ok (l', admission) := by
  cases h with
  | attempt requested random h => exact ⟨_, random, h⟩
  | sync requested maxExchanges random h =>
    iterate 4 obtain ⟨_, -, h⟩ := bind_ok h
    exact ⟨_, random, h⟩
  | probe random h => exact ⟨_, random, h⟩

theorem findReservation_ok {r : RemoteBandwidthReservation} {i : Nat}
    (h : findReservation l r = .ok i) : l.entries[i]? = some r.entry := by
  have hfind := okOr_ok.1 h
  obtain ⟨hlt, heq, -⟩ := List.findIdx?_eq_some_iff_getElem.1 hfind
  rw [List.getElem?_eq_some_iff]
  exact ⟨hlt, by simpa using heq⟩

/-- **Every step keeps the ledger covering what happened.** -/
theorem step_covers {s s' : StoreState} (hs : Covers s) (h : StoreStep fits s s') : Covers s' := by
  cases h with
  | grant ha =>
    obtain ⟨bytes, random, ha⟩ := ha.inner
    rcases beginAttemptInner_ok ha with ⟨-, p, hp⟩ | ⟨l₁, l₂, h₁, h₂, ha⟩
    · cases hp
    · rcases admitAttempt_ok ha with ⟨-, p, hp⟩ | ⟨r, hr, hk, rfl, -⟩
      · cases hp
      · cases hr
        exact covers_reserve (covers_merge (covers_advance hs h₁) h₂) hk
  | pause ha =>
    obtain ⟨bytes, random, ha⟩ := ha.inner
    rcases beginAttemptInner_ok ha with ⟨rfl, -⟩ | ⟨l₁, l₂, h₁, h₂, ha⟩
    · exact hs
    · rcases admitAttempt_ok ha with ⟨rfl, -⟩ | ⟨r, hr, -⟩
      · exact covers_merge (covers_advance hs h₁) h₂
      · cases hr
  | complete r completedAt total h =>
    obtain ⟨_, -, h⟩ := bind_ok h
    have h := mutate_ok h
    obtain ⟨_, -, h⟩ := bind_ok h
    obtain ⟨i, hi, h⟩ := bind_ok h
    obtain ⟨l, hmerge, h⟩ := bind_ok h
    cases h
    have hi := findReservation_ok hi
    refine covers_merge (s := ⟨_, ⟨r.hostId, r.nodeId, completedAt, total⟩ :: s.settled,
      s.outstanding.erase r.entry⟩) ?_ hmerge
    by_cases htotal : 0 < total
    · rw [if_pos htotal]
      refine covers_settle hs [⟨r.hostId, r.nodeId, completedAt, total⟩] rfl hi
        (fun x hx => ?_) fun hostId nodeId c => ?_
      · rw [List.mem_singleton.1 hx]
      · refine le_of_eq ?_
        simp only [settledAfter, chargedAfter, massAfter_cons, massAfter_nil, massOf,
          Settlement.cost, charge]
        congr 1
        split
        · have hmatch := matchesSource_congr (a := ⟨"", r.hostId, r.nodeId, completedAt, total,
            .committed⟩) (b := ⟨r.id, r.hostId, r.nodeId, completedAt, total, .committed⟩) rfl
            hostId nodeId
          rw [hmatch]
          simp
        · rfl
    · rw [if_neg htotal, ← List.append_nil (s.ledger.entries.eraseIdx i)]
      have hzero : total = 0 := by omega
      refine covers_settle hs [⟨r.hostId, r.nodeId, completedAt, total⟩] rfl hi
        (fun x hx => by cases hx) fun hostId nodeId c => ?_
      simp [settledAfter, massOf, Settlement.cost, hzero]
  | cancel r cancelledAt h =>
    have h := mutate_ok h
    obtain ⟨_, -, h⟩ := bind_ok h
    obtain ⟨i, hi, h⟩ := bind_ok h
    cases h
    rw [← List.append_nil (s.ledger.entries.eraseIdx i)]
    exact covers_settle hs [] rfl (findReservation_ok hi)
      (fun x hx => by cases hx) fun _ _ _ => le_refl _
  | usage hostId nodeId now h =>
    obtain ⟨_, -, h⟩ := bind_ok h
    have h := mutate_ok h
    split at h
    · cases h
      exact hs
    · obtain ⟨l, hadv, h⟩ := bind_ok h
      cases h
      exact covers_advance hs hadv
  | check hostId nodeId now kind h =>
    obtain ⟨_, -, h⟩ := bind_ok h
    have h := mutate_ok h
    split at h
    · cases h
      exact hs
    · obtain ⟨l, hadv, h⟩ := bind_ok h
      cases h
      exact covers_advance hs hadv
  | fail => exact hs

theorem reachable_covers {s : StoreState} (h : StoreReachable fits s) : Covers s := by
  induction h with
  | init => exact covers_init
  | step _ hs ih => exact step_covers ih hs

/-! ## The limits -/

theorem grantedBytes_le {requested rolling : Nat} (hk : overrideHard kind = false)
    (hhard : rolling < remoteBandwidthHardLimitBytes) :
    rolling + grantedBytes kind requested rolling ≤ remoteBandwidthHardLimitBytes := by
  unfold grantedBytes
  simp only [hk, Bool.false_eq_true, if_false]
  split <;> omega

theorem grantedBytes_bulk_le {requested rolling : Nat}
    (hsoft : rolling < remoteBandwidthSoftLimitBytes) :
    rolling + grantedBytes .automaticBulk requested rolling ≤ remoteBandwidthSoftLimitBytes := by
  unfold grantedBytes
  simp only [if_true]
  omega

theorem totalCharge_reserve {entries : List LedgerEntry} {e : LedgerEntry}
    (hk : e.kind = .reserved) (hm : e.matchesSource hostId nodeId = true) :
    totalCharge hostId nodeId (entries ++ [e]) = totalCharge hostId nodeId entries + e.bytes := by
  unfold totalCharge
  simp [charge, hk, hm]
  omega

/-- Right after the clock was advanced, the ledger charges at least the true rolling total, and it
holds the entry of every attempt that is out within the window. -/
theorem Covers.window {s : StoreState} (hs : Covers s) {now : DateTime}
    (hnow : s.ledger.lastObservedAt = some now) (hostId : String) (nodeId : Option NodeId) :
    windowTotal s hostId nodeId now ≤ totalCharge hostId nodeId s.ledger.entries ∧
      (s.outstanding.filter fun e => decide (now - windowDuration < e.recordedAt)).Subperm
        s.ledger.entries := by
  obtain ⟨expired, hperm, hexp⟩ := hs.outstanding
  have hexpired : ∀ e ∈ expired, e.recordedAt ≤ now - windowDuration := by
    intro e he
    obtain ⟨t, ht, hle⟩ := hexp e he
    rw [hnow] at ht
    cases ht
    exact hle
  have hcounts : StillCounts s.ledger (now - windowDuration) := by
    intro t ht
    rw [hnow] at ht
    cases ht
    exact le_refl _
  constructor
  · have hsettled := hs.settled hostId nodeId _ hcounts
    have hle : massAfter LedgerEntry.recordedAt (charge .committed hostId nodeId)
        (now - windowDuration) s.ledger.entries ≤
          (s.ledger.entries.map (charge .committed hostId nodeId)).sum := massAfter_le_sum
    have hout : chargedAfter .reserved hostId nodeId (now - windowDuration) s.outstanding ≤
        (s.ledger.entries.map (charge .reserved hostId nodeId)).sum := by
      rw [chargedAfter_perm hperm]
      unfold chargedAfter
      rw [massAfter_append, massAfter_eq_zero hexpired, Nat.add_zero]
      refine massAfter_le_sum.trans ?_
      exact List.Sublist.sum_le_sum (List.filter_sublist.map _) fun _ _ => Nat.zero_le _
    unfold windowTotal totalCharge
    unfold chargedAfter at hsettled
    omega
  · refine (hperm.filter _).subperm.trans ?_
    have hnone : (expired.filter fun e => decide (now - windowDuration < e.recordedAt)) = [] := by
      rw [List.filter_eq_nil_iff]
      intro e he
      simpa using hexpired e he
    rw [List.filter_append, hnone, List.append_nil]
    exact (List.filter_sublist.trans List.filter_sublist).subperm

/-- **Admission is safe.** After every granted admission that is not an override, in any run, the
rolling total of the source that the ledger counts is at most the hard limit, and the soft one for
bulk work; the true total of the window is at most that; and every attempt that is out within the
window has an entry of its own. -/
theorem admission_within_limits {fits : FileBound} {s : StoreState}
    (hs : StoreReachable fits s) {hostId : String} {nodeId : Option NodeId} {now : DateTime}
    {kind : RemoteBandwidthTransferKind} {ledger : StoredRemoteBandwidthLedger}
    {r : RemoteBandwidthReservation}
    (ha : Admits fits s.ledger hostId nodeId now kind ledger (.granted r))
    (hk : overrideHard kind = false) :
    (ledger.usage hostId nodeId).rollingBytes ≤ remoteBandwidthHardLimitBytes ∧
      (kind = .automaticBulk →
        (ledger.usage hostId nodeId).rollingBytes ≤ remoteBandwidthSoftLimitBytes) ∧
      windowTotal { s with ledger, outstanding := r.entry :: s.outstanding } hostId nodeId now ≤
        (ledger.usage hostId nodeId).rollingBytes ∧
      ((r.entry :: s.outstanding).filter fun e =>
        decide (now - windowDuration < e.recordedAt)).Subperm ledger.entries := by
  have hcovers := step_covers (reachable_covers hs) (.grant ha)
  obtain ⟨bytes, random, ha⟩ := ha.inner
  rcases beginAttemptInner_ok ha with ⟨-, p, hp⟩ | ⟨l₁, l₂, h₁, h₂, ha⟩
  · cases hp
  rcases admitAttempt_ok ha with ⟨-, p, hp⟩ | ⟨r', hr, hkind, rfl, hhost, hnode, -, hbytes,
    hhard, hsoft, -⟩
  · cases hp
  cases hr
  have hhard := hhard hk
  have hmatch : r.entry.matchesSource hostId nodeId = true := by
    rw [← hhost, ← hnode]
    unfold RemoteBandwidthReservation.entry LedgerEntry.matchesSource
    split <;> simp_all
  have hobserved : l₂.lastObservedAt = some now :=
    (merge_ok h₂).1.trans (advance_ok h₁).2.1
  obtain ⟨hwindow, hentries⟩ := hcovers.window hobserved hostId nodeId
  -- the sum before the grant is below the limit, so it was not saturated
  have hbefore := rollingBytes_eq l₂ hostId nodeId
  have hafter := rollingBytes_eq
    ({ l₂ with entries := l₂.entries ++ [r.entry] } : StoredRemoteBandwidthLedger).sortEntries
    hostId nodeId
  have hsum : totalCharge hostId nodeId ({ l₂ with entries := l₂.entries ++ [r.entry] } :
      StoredRemoteBandwidthLedger).sortEntries.entries =
        totalCharge hostId nodeId l₂.entries + r.entry.bytes :=
    (totalCharge_perm (perm_sortEntries _)).trans (totalCharge_reserve hkind hmatch)
  have hgrant : r.entry.bytes = grantedBytes kind bytes.requestedTotalBytes
      (l₂.usage hostId nodeId).rollingBytes := hbytes
  have hle : (l₂.usage hostId nodeId).rollingBytes + r.entry.bytes ≤
      remoteBandwidthHardLimitBytes := by
    rw [hgrant]
    exact grantedBytes_le hk hhard
  have hbulk : kind = .automaticBulk → (l₂.usage hostId nodeId).rollingBytes + r.entry.bytes ≤
      remoteBandwidthSoftLimitBytes := by
    intro hkb
    have := hsoft hkb
    rw [hgrant, hkb]
    exact grantedBytes_bulk_le this
  have hlimits : remoteBandwidthHardLimitBytes < 2 ^ 64 - 1 := by decide
  have heq : (l₂.usage hostId nodeId).rollingBytes + r.entry.bytes =
      (({ l₂ with entries := l₂.entries ++ [r.entry] } :
        StoredRemoteBandwidthLedger).sortEntries.usage hostId nodeId).rollingBytes := by
    rw [hafter, hsum]
    omega
  refine ⟨heq ▸ hle, fun hkb => heq ▸ hbulk hkb, hwindow.trans ((le_of_eq hsum).trans ?_), hentries⟩
  rw [← heq]
  omega

/-! ## An admission after another one -/

namespace Sample

def anyFile : FileBound := fun _ => true
def now : DateTime := seconds 1700000000
def firstId : String := "0123456789abcdef0123456789abcdef"
def secondId : String := "fedcba9876543210fedcba9876543210"

/-- A first attempt reserved 149 of the 150 MiB of the soft limit. -/
def first : RemoteBandwidthReservation :=
  ⟨firstId, "host-1", none, now, 149 * 1024 * 1024, 0, .manual⟩

def ledger : StoredRemoteBandwidthLedger := ⟨1, some now, [first.entry]⟩

/-- Asked for two, a bulk attempt is granted the one MiB that is left. -/
def second : RemoteBandwidthReservation :=
  ⟨secondId, "host-1", none, now, 1024 * 1024, 0, .automaticBulk⟩

theorem first_granted : Admits anyFile .default "host-1" none now .manual ledger
    (.granted first) := by
  refine .attempt (149 * 1024 * 1024) [firstId] ?_
  decide +kernel

theorem second_granted : Admits anyFile ledger "host-1" none now .automaticBulk
    ⟨1, some now, [first.entry, second.entry]⟩ (.granted second) := by
  refine .attempt (2 * 1024 * 1024) [secondId] ?_
  decide +kernel

theorem reachable : StoreReachable anyFile ⟨ledger, [], [first.entry]⟩ :=
  .step .init (.grant first_granted)

end Sample

/-- Two attempts that are out at once share the soft limit. -/
theorem admission_within_limits_sample :
    windowTotal ⟨⟨1, some Sample.now, [Sample.first.entry, Sample.second.entry]⟩, [],
      [Sample.second.entry, Sample.first.entry]⟩ "host-1" none Sample.now ≤
        remoteBandwidthSoftLimitBytes := by
  obtain ⟨-, hsoft, hwindow, -⟩ :=
    admission_within_limits Sample.reachable Sample.second_granted rfl
  exact hwindow.trans (hsoft rfl)

end Bandwidth
