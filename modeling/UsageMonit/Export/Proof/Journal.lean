import UsageMonit.Export.Reconcile
import UsageMonit.Lib.WindowedLog

/-!
# The journal of the export state as a windowed log

Every mutation of the journal is an `extend` (appending numbered entries) or a `discard` (dropping
the oldest ones): `appendChangeBatch_ok`, `dropOldestEntries_ok`, `advanceRetention_ok`,
`compactToLimits_ok`. Both keep the journal contiguous (`Contiguous`), and both are extensions of
the windowed log `StoredExportState.window`. An entry is found under its own sequence number
(`entryAtSequence_eq`), so it is never replaced: `entryAt_extend`, `entryAt_discard`.
-/

namespace Export

open Fallible Time Protocol WindowedLog

/-! ## Contiguity -/

variable {s : StoredExportState} {store : RemoteExportStateStore}

/-- The journal as a windowed log. -/
def StoredExportState.window (s : StoredExportState) : Window RemoteExportJournalEntry :=
  ⟨s.retentionFloor, s.entries⟩

/-- The entries are numbered `floor + 1` up to `current_sequence`. -/
structure Contiguous (s : StoredExportState) : Prop where
  next : s.window.next = s.currentSequence
  number : ∀ (i : Nat) e, s.entries[i]? = some e → e.sequence = s.retentionFloor + i + 1

theorem Contiguous.length (h : Contiguous s) :
    s.retentionFloor + s.entries.length = s.currentSequence := h.next

theorem contiguous_new (source : SourceGeneration) (profile : RedactionProfile) (g : Nat)
    (t : DateTime) : Contiguous (StoredExportState.new source profile g t) :=
  ⟨rfl, by simp [StoredExportState.new]⟩

theorem entryAtSequence_eq (h : Contiguous s) (n : Nat) :
    s.entryAtSequence n =
      if s.retentionFloor < n then s.entries[n - s.retentionFloor - 1]? else none := by
  unfold StoredExportState.entryAtSequence
  by_cases hn : s.retentionFloor < n
  · rw [if_pos (show s.retentionFloor + 1 ≤ n from hn), if_pos hn]
    cases he : s.entries[n - s.retentionFloor - 1]? with
    | none => rfl
    | some e =>
      have := h.number _ e he
      simp only [Option.filter_eq_some_iff, beq_iff_eq, true_and]
      omega
  · rw [if_neg (show ¬ s.retentionFloor + 1 ≤ n from hn), if_neg hn]

/-! ## Extending and discarding -/

def numbered (committedAt : DateTime) : Nat → List RemoteExportChange →
    List RemoteExportJournalEntry
  | _, [] => []
  | n, change :: rest => ⟨n + 1, committedAt, change⟩ :: numbered committedAt (n + 1) rest

@[simp] theorem numbered_length (t : DateTime) : ∀ (n : Nat) (cs : List RemoteExportChange),
    (numbered t n cs).length = cs.length
  | _, [] => rfl
  | n, _ :: cs => by simp [numbered, numbered_length t (n + 1) cs]

@[simp] theorem numbered_change (t : DateTime) : ∀ (n : Nat) (cs : List RemoteExportChange),
    (numbered t n cs).map (·.change) = cs
  | _, [] => rfl
  | n, _ :: cs => by simp [numbered, numbered_change t (n + 1) cs]

theorem numbered_getElem? (t : DateTime) : ∀ (n : Nat) (cs : List RemoteExportChange) (i : Nat),
    (numbered t n cs)[i]? = cs[i]?.map fun c => ⟨n + i + 1, t, c⟩
  | _, [], _ => by simp [numbered]
  | n, c :: cs, 0 => rfl
  | n, c :: cs, i + 1 => by
    simp only [numbered, List.getElem?_cons_succ, numbered_getElem? t (n + 1) cs i,
      show n + 1 + i + 1 = n + (i + 1) + 1 by omega]

def StoredExportState.extend (s : StoredExportState) (t : DateTime)
    (cs : List RemoteExportChange) : StoredExportState :=
  { s with
    entries := s.entries ++ numbered t s.currentSequence cs
    currentSequence := s.currentSequence + cs.length }

def StoredExportState.discard (s : StoredExportState) (d : Nat) : StoredExportState :=
  { s with retentionFloor := s.retentionFloor + d, entries := s.entries.drop d }

@[simp] theorem extend_records (s : StoredExportState) (t : DateTime)
    (cs : List RemoteExportChange) :
    (s.extend t cs).materializedRecords = s.materializedRecords := rfl

@[simp] theorem extend_current (s : StoredExportState) (t : DateTime)
    (cs : List RemoteExportChange) :
    (s.extend t cs).currentSequence = s.currentSequence + cs.length := rfl

@[simp] theorem discard_records (s : StoredExportState) (d : Nat) :
    (s.discard d).materializedRecords = s.materializedRecords := rfl

@[simp] theorem discard_current (s : StoredExportState) (d : Nat) :
    (s.discard d).currentSequence = s.currentSequence := rfl

theorem discard_pruned (s : StoredExportState) (d : Nat) :
    s.entries.length - (s.discard d).entries.length ≤ (s.discard d).retentionFloor := by
  simp only [StoredExportState.discard, List.length_drop]
  omega

@[simp] theorem discard_zero (s : StoredExportState) : s.discard 0 = s := by
  simp [StoredExportState.discard]

theorem extend_extends (s : StoredExportState) (t : DateTime) (cs : List RemoteExportChange) :
    Extends s.window (s.extend t cs).window (numbered t s.currentSequence cs) :=
  Extends.append _ _

theorem discard_extends {d : Nat} (hd : d ≤ s.entries.length) :
    Extends s.window (s.discard d).window [] :=
  Extends.discard _ hd

theorem Contiguous.extend (h : Contiguous s) (t : DateTime) (cs : List RemoteExportChange) :
    Contiguous (s.extend t cs) := by
  have hl := h.length
  refine ⟨?_, fun i e he => ?_⟩
  · show s.retentionFloor + (s.entries ++ numbered t s.currentSequence cs).length = _
    rw [List.length_append, numbered_length, extend_current]
    omega
  · change (s.entries ++ numbered t s.currentSequence cs)[i]? = some e at he
    rcases Nat.lt_or_ge i s.entries.length with hi | hi
    · rw [List.getElem?_append_left hi] at he
      exact h.number i e he
    · rw [List.getElem?_append_right hi, numbered_getElem?, Option.map_eq_some_iff] at he
      obtain ⟨c, -, rfl⟩ := he
      show s.currentSequence + (i - s.entries.length) + 1 = s.retentionFloor + i + 1
      omega

theorem Contiguous.discard (h : Contiguous s) {d : Nat} (hd : d ≤ s.entries.length) :
    Contiguous (s.discard d) := by
  have hl := h.length
  refine ⟨?_, fun i e he => ?_⟩
  · show s.retentionFloor + d + (s.entries.drop d).length = s.currentSequence
    rw [List.length_drop]
    omega
  · change (s.entries.drop d)[i]? = some e at he
    rw [List.getElem?_drop] at he
    show e.sequence = s.retentionFloor + d + i + 1
    rw [h.number _ e he]
    omega

theorem Contiguous.of_window {s' : StoredExportState} (h : Contiguous s)
    (hw : s'.window = s.window) (hc : s'.currentSequence = s.currentSequence) : Contiguous s' := by
  have hf : s'.retentionFloor = s.retentionFloor := congrArg Window.floor hw
  have he : s'.entries = s.entries := congrArg Window.items hw
  refine ⟨by rw [hw, hc]; exact h.next, fun i e hi => ?_⟩
  rw [hf]
  exact h.number i e (by rwa [he] at hi)

/-! ## Entries are never replaced -/

theorem entryAt_of_window {s' : StoredExportState} (hw : s'.window = s.window) (n : Nat) :
    s'.entryAtSequence n = s.entryAtSequence n := by
  have hf : s'.retentionFloor = s.retentionFloor := congrArg Window.floor hw
  have he : s'.entries = s.entries := congrArg Window.items hw
  simp [StoredExportState.entryAtSequence, hf, he]

theorem entryAt_extend (h : Contiguous s) (t : DateTime) (cs : List RemoteExportChange) {n : Nat}
    (hn : n ≤ s.currentSequence) : (s.extend t cs).entryAtSequence n = s.entryAtSequence n := by
  have hl := h.length
  rw [entryAtSequence_eq (h.extend t cs), entryAtSequence_eq h]
  show (if s.retentionFloor < n then
    (s.entries ++ numbered t s.currentSequence cs)[n - s.retentionFloor - 1]? else none) = _
  split
  · rw [List.getElem?_append_left (by omega)]
  · rfl

theorem entryAt_extend_new (h : Contiguous s) (t : DateTime) (cs : List RemoteExportChange)
    (i : Nat) :
    (s.extend t cs).entryAtSequence (s.currentSequence + i + 1) =
      cs[i]?.map fun c => ⟨s.currentSequence + i + 1, t, c⟩ := by
  have hl := h.length
  rw [entryAtSequence_eq (h.extend t cs)]
  show (if s.retentionFloor < s.currentSequence + i + 1 then
    (s.entries ++ numbered t s.currentSequence cs)[s.currentSequence + i + 1 -
      s.retentionFloor - 1]? else none) = _
  rw [if_pos (by omega), List.getElem?_append_right (by omega),
    show s.currentSequence + i + 1 - s.retentionFloor - 1 - s.entries.length = i by omega,
    numbered_getElem?]

theorem entryAt_discard (h : Contiguous s) {d n : Nat} (hd : d ≤ s.entries.length)
    {e : RemoteExportJournalEntry} (he : (s.discard d).entryAtSequence n = some e) :
    s.entryAtSequence n = some e := by
  rw [entryAtSequence_eq (h.discard hd)] at he
  rw [entryAtSequence_eq h]
  change (if s.retentionFloor + d < n then
    (s.entries.drop d)[n - (s.retentionFloor + d) - 1]? else none) = some e at he
  split at he
  · rw [List.getElem?_drop,
      show d + (n - (s.retentionFloor + d) - 1) = n - s.retentionFloor - 1 by omega] at he
    rw [if_pos (by omega), he]
  · cases he

/-! ## The operations -/

theorem pushChanges_ok {t : DateTime} : ∀ {cs : List RemoteExportChange} {s : StoredExportState}
    {seqs : List Nat} {r : StoredExportState × List Nat}, pushChanges t cs s seqs = .ok r →
    r = (s.extend t cs, seqs ++ List.range' (s.currentSequence + 1) cs.length)
  | [], s, seqs, r, h => by
    cases h
    simp [StoredExportState.extend, numbered]
  | c :: cs, s, seqs, r, h => by
    obtain ⟨n, hn, h⟩ := bind_ok h
    obtain ⟨rfl, -⟩ := checkedAdd_eq_some (okOr_ok.1 hn)
    obtain ⟨-, -, h⟩ := bind_ok h
    rw [pushChanges_ok h]
    simp only [StoredExportState.extend, numbered, List.append_assoc, List.cons_append,
      List.nil_append, List.length_cons, List.range'_succ, Prod.mk.injEq]
    exact ⟨by rw [show s.currentSequence + 1 + cs.length = s.currentSequence + (cs.length + 1) by
      omega], trivial⟩

theorem selectChanges_ok {policy : RetainedDuplicatePolicy} {retained : ChangeMap} :
    ∀ {cs : List RemoteExportChange} {batch : ChangeMap} {selected : List RemoteExportChange}
      {n : Nat} {r : List RemoteExportChange × Nat},
      selectChanges policy retained cs batch selected n = .ok r →
      ∃ sub, r.1 = selected ++ sub ∧ (∀ c ∈ sub, c ∈ cs) ∧
        (policy = .append → sub = cs ∧ r.2 = n)
  | [], batch, selected, n, r, h => by
    cases h
    exact ⟨[], by simp⟩
  | c :: cs, batch, selected, n, r, h => by
    obtain ⟨-, -, h⟩ := bind_ok h
    obtain ⟨-, -, h⟩ := bind_ok h
    split at h
    · rename_i hc
      obtain ⟨sub, hr, hsub, -⟩ := selectChanges_ok h
      exact ⟨sub, hr, fun c hc => List.mem_cons_of_mem _ (hsub c hc), fun hp => by simp [hp] at hc⟩
    · split at h
      · obtain ⟨-, -, h⟩ := bind_ok h
        obtain ⟨_, hp, h⟩ := bind_ok h
        obtain ⟨sub, hr, hsub, -⟩ := selectChanges_ok h
        refine ⟨sub, hr, fun c hc => List.mem_cons_of_mem _ (hsub c hc), fun hp' => ?_⟩
        rw [ensure_ok.1 hp] at hp'
        cases hp'
      · obtain ⟨sub, hr, hsub, happ⟩ := selectChanges_ok h
        refine ⟨c :: sub, by simp [hr], fun d hd => ?_, fun hp => ?_⟩
        · rcases List.mem_cons.1 hd with rfl | hd
          · exact List.mem_cons_self
          · exact List.mem_cons_of_mem _ (hsub d hd)
        · obtain ⟨rfl, hn⟩ := happ hp
          exact ⟨rfl, hn⟩

/-- **A batch extends the journal** with some of the offered changes, in order; under the append
policy with all of them, at consecutive sequence numbers. -/
theorem appendChangeBatch_ok {now : DateTime} {cs : List RemoteExportChange}
    {policy : RetainedDuplicatePolicy} {r : StoredExportState × AppendBatchResult}
    (h : appendChangeBatch s now cs policy = .ok r) :
    ∃ t sub, r.1 = s.extend t sub ∧ (∀ c ∈ sub, c ∈ cs) ∧ (policy = .append → sub = cs) ∧
      r.2.sequences = List.range' (s.currentSequence + 1) sub.length := by
  obtain ⟨retained, -, h⟩ := bind_ok h
  obtain ⟨⟨selected, dups⟩, hsel, h⟩ := bind_ok h
  obtain ⟨-, -, h⟩ := bind_ok h
  obtain ⟨⟨s', seqs⟩, hpush, h⟩ := bind_ok h
  obtain ⟨sub, hr, hsub, happ⟩ := selectChanges_ok hsel
  subst hr
  have hp := pushChanges_ok hpush
  obtain ⟨rfl, rfl⟩ := hp
  cases h
  exact ⟨_, _, rfl, hsub, fun hp => (happ hp).1, rfl⟩

theorem dropOldestEntries_ok {s' : StoredExportState} (hs : Contiguous s) {n : Nat}
    (h : dropOldestEntries s n = .ok s') : n ≤ s.entries.length ∧ s' = s.discard n := by
  unfold dropOldestEntries at h
  split at h
  · cases h
    simp_all
  · obtain ⟨last, hlast, h⟩ := bind_ok h
    have hlast := okOr_ok.1 hlast
    have hn := (List.getElem?_eq_some_iff.1 hlast).1
    have hseq := hs.number _ _ hlast
    have hl := hs.length
    refine ⟨by omega, ?_⟩
    cases h
    simp only [StoredExportState.discard, StoredExportState.mk.injEq, true_and, and_true]
    split
    · rename_i he
      rw [List.isEmpty_iff, List.drop_eq_nil_iff] at he
      omega
    · omega

theorem compactLoop_ok : ∀ {fuel : Nat} {s s' : StoredExportState},
    Contiguous s → compactLoop store fuel s = .ok s' →
    ∃ d, d ≤ s.entries.length ∧ s' = s.discard d
  | 0, s, s', _, h => by cases h
  | fuel + 1, s, s', hs, h => by
    obtain ⟨size, -, h⟩ := bind_ok h
    split at h
    · cases h
      exact ⟨0, Nat.zero_le _, (discard_zero s).symm⟩
    · split at h
      · cases h
      · obtain ⟨count, -, h⟩ := bind_ok h
        obtain ⟨s1, h1, h⟩ := bind_ok h
        obtain ⟨hc, rfl⟩ := dropOldestEntries_ok hs h1
        obtain ⟨d, hd, rfl⟩ := compactLoop_ok (hs.discard hc) h
        have hlen : (s.discard count).entries.length = s.entries.length - count := by
          simp [StoredExportState.discard]
        refine ⟨count + d, by omega, ?_⟩
        simp [StoredExportState.discard, List.drop_drop, Nat.add_assoc]

theorem compactToLimits_ok {s' : StoredExportState} (hs : Contiguous s)
    (h : compactToLimits store s = .ok s') : ∃ d, d ≤ s.entries.length ∧ s' = s.discard d := by
  obtain ⟨s1, h1, h⟩ := bind_ok h
  obtain ⟨hn, rfl⟩ := dropOldestEntries_ok hs h1
  obtain ⟨d, hd, rfl⟩ := compactLoop_ok (hs.discard hn) h
  have hlen : (s.discard (s.entries.length - store.limits.maximumEntries)).entries.length =
      s.entries.length - (s.entries.length - store.limits.maximumEntries) := by
    simp [StoredExportState.discard]
  refine ⟨s.entries.length - store.limits.maximumEntries + d, by omega, ?_⟩
  simp [StoredExportState.discard, List.drop_drop, Nat.add_assoc]

theorem reclaimedEntries_pos {excess : Nat} :
    ∀ {es : List RemoteExportJournalEntry} {reclaimed count n : Nat},
      reclaimedEntries store excess es reclaimed count = .ok n → es ≠ [] → count < n
  | [], _, _, _, _, hne => absurd rfl hne
  | e :: es, reclaimed, count, n, h, _ => by
    obtain ⟨size, -, h⟩ := bind_ok h
    obtain ⟨r, -, h⟩ := bind_ok h
    split at h
    · cases h
      omega
    · cases es with
      | nil => cases h; omega
      | cons e' es =>
        have := reclaimedEntries_pos h (by simp)
        omega

theorem advanceRetention_ok {now : DateTime} {retentionDays : Int}
    {r : StoredExportState × Nat × Bool} (hs : Contiguous s)
    (h : advanceRetentionAndPruneAge s now retentionDays = .ok r) :
    ∃ clock d, d ≤ s.entries.length ∧ r.1 = { s.discard d with retentionClock := clock } := by
  obtain ⟨s1, h1, h⟩ := bind_ok h
  have hs' : Contiguous { s with retentionClock := (nextRetentionClock s.retentionClock now).1 } :=
    hs.of_window rfl rfl
  obtain ⟨hn, rfl⟩ := dropOldestEntries_ok hs' h1
  cases h
  exact ⟨_, _, hn, rfl⟩

end Export
