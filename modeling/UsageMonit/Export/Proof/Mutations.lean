import UsageMonit.Export.Proof.Transitions

/-!
# Mutations of a valid state

A direct append (`appendAndCompact_yields`) and a reconcile (`reconcileAndCompact_yields`) of a
valid state either return a valid state or fail for a declared reason or in one of two checks of
the closing validation. A session whose state is that of its file (`RemoteExportSession.Open`) stays
so: a mutation that fails leaves it as it was (`mutate_error`), one that succeeds writes out a valid
state (`mutate_ok`).
-/

namespace Export

open Fallible Time

variable {store : RemoteExportStateStore} {s : StoredExportState}

/-! ## The next set -/

@[simp] theorem commit_key (sequences : List Nat) (p : PendingMaterializedRecord) :
    (p.commit sequences).logicalKey = p.stored.logicalKey := by
  unfold PendingMaterializedRecord.commit
  split <;> rfl

@[simp] theorem commit_current (sequences : List Nat) (p : PendingMaterializedRecord) :
    (p.commit sequences).currentChangeId = p.stored.currentChangeId := by
  unfold PendingMaterializedRecord.commit
  split <;> rfl

@[simp] theorem commit_tombstone (sequences : List Nat) (p : PendingMaterializedRecord) :
    (p.commit sequences).tombstone = p.stored.tombstone := by
  unfold PendingMaterializedRecord.commit
  split <;> rfl

section
variable {own : OwnerOf} {m : Merge}

theorem MergeOk.transition_ids (h : MergeOk own m) :
    ((m.transitions.map (·.change)).map (·.changeId)).Nodup := by
  rw [List.map_map, List.Nodup, List.pairwise_map]
  refine h.transitions.imp fun {a b} hlt heq => ?_
  rw [show a.change.changeId = b.change.changeId from heq] at hlt
  exact lt_irrefl _ hlt

theorem MergeOk.records (h : MergeOk own m) (sequences : List Nat) :
    RecordsOk (m.pending.map (·.commit sequences)) := by
  have hsorted : SortedOld (m.pending.map (·.commit sequences)) := by
    unfold SortedOld
    rw [List.pairwise_map]
    simpa using h.pending
  have howned : ∀ r ∈ m.pending.map (·.commit sequences), Owned own r := by
    intro r hr
    obtain ⟨p, hp, rfl⟩ := List.mem_map.1 hr
    have howned := (h.each p hp).owned
    exact ⟨by simpa using howned.current, by simpa using howned.tombstone⟩
  refine ⟨fun r hr => ?_, hsorted, ownedIds_nodup howned hsorted⟩
  obtain ⟨p, hp, rfl⟩ := List.mem_map.1 hr
  have hrecord := (h.each p hp).record
  exact ⟨by simpa using hrecord.key, by simpa using hrecord.current,
    by simpa using hrecord.tombstone⟩

theorem MergeOk.holds (h : MergeOk own m) (sequences : List Nat) :
    Holds (m.pending.foldl (fun upserts p => upserts.insert p.stored.logicalKey p.upsert)
      (∅ : ChangeMap)) (m.pending.map (·.commit sequences)) := by
  have hF : ∀ p ∈ m.pending, ((m.pending.find? (·.stored.logicalKey = p.stored.logicalKey)).map
      (·.upsert)) = some p.upsert := by
    intro p hp
    cases hfind : m.pending.find? (·.stored.logicalKey = p.stored.logicalKey) with
    | none => simpa using List.find?_eq_none.1 hfind p hp
    | some q =>
      have hq := List.mem_of_find?_eq_some hfind
      have hkey : q.stored.logicalKey = p.stored.logicalKey := by
        simpa using List.find?_some hfind
      have hnodup : (m.pending.map (·.stored.logicalKey)).Nodup := by
        rw [List.Nodup, List.pairwise_map]
        exact h.pending.imp fun hlt => ne_of_lt hlt
      rw [List.inj_on_of_nodup_map hnodup hq hp hkey]
      rfl
  have hlookup := fun k => lookup_pending
    (F := fun k => (m.pending.find? (·.stored.logicalKey = k)).map (·.upsert)) ∅ hF k
  refine ⟨fun r hr => ?_, fun k hk => ?_⟩
  · obtain ⟨p, hp, rfl⟩ := List.mem_map.1 hr
    have hok := h.each p hp
    refine ⟨p.upsert, ?_, by simpa using hok.id, hok.valid⟩
    rw [commit_key, (hlookup _).1 ⟨p, hp, rfl⟩]
    exact hF p hp
  · by_contra hne
    rw [← AList.lookup_isSome, (hlookup k).2 fun p hp hkey =>
      hne ⟨p.commit sequences, List.mem_map_of_mem hp, by simpa using hkey⟩] at hk
    cases hk

end

/-! ## Reconciling -/

/-- **A reconcile** of a valid state fails for a declared reason, or in one of two checks of the
closing validation: that of the tombstones, or that of the number of records when the set keeps
the records it does not name. -/
theorem reconcileAndCompact_yields (hvalid : s.validate store = .ok ()) (hrange : InRange s)
    {now : DateTime} (hnow : Representable now) {desired : List RemoteExportDesiredRecord}
    (hdesired : validateDesiredRecords desired = .ok ()) (mode : RemoteExportReconcileMode) :
    Yields (reconcileAndCompact store s now desired mode)
      (fun e => Declared store e ∨ e = tombstoneConflict ∨
        e = boundsInvalid ∧ maxMaterializedRecords < keptRecords mode s.materializedRecords desired)
      fun r => Mutated store s r.1 := by
  have hsound := sound_of_validate hvalid hrange.sequence
  have hds := desiredOk_of_validate hdesired
  have hdeclared : ∀ e, Declared store e → Declared store e ∨ e = tombstoneConflict ∨
      e = boundsInvalid ∧ maxMaterializedRecords < keptRecords mode s.materializedRecords desired :=
    fun e => .inl
  obtain ⟨upserts, hcapture, hholds⟩ := capture_holds hsound
  unfold reconcileAndCompact
  rw [hvalid, ok_bind, hcapture, ok_bind]
  refine Yields.bind ((validateReconcileChangeOwnership_yields hholds).with_eq.mono hdeclared
    fun _ h => h) fun _ howners => ?_
  obtain ⟨own, hold, hown⟩ := exists_owner hsound.records.ids hds.ids howners.1
  obtain ⟨d, hd, hadvance⟩ := advanceRetention_total hsound.journal.contiguous now
    store.limits.retentionDays
  rw [hadvance, ok_bind]
  dsimp only
  set s1 : StoredExportState := { s.discard d with
    retentionClock := (nextRetentionClock s.retentionClock now).1 } with hs1
  have hfields1 : FieldsOk store s1 := hsound.fields.next hrange.clock hnow
  have hjournal1 : JournalOk s1 := (hsound.journal.discard hd).of_window rfl rfl
  refine Yields.bind (mergeRecords_yields hsound.records.sorted hds.sorted
    (fun r hr => ⟨hsound.records.each r hr, hold r hr, hholds.upsert r hr⟩)
    (fun d hd => ⟨hds.each d hd, hown d hd⟩) MergeOk.empty (fun _ _ => Before.empty)
    fun _ _ => Before.empty) fun m hm => ?_
  obtain ⟨hm, hcount⟩ := hm
  refine Yields.bind ((appendChangeBatch_yields hjournal1 hnow.1 (fun c hc => ?_)
    fun _ => hm.transition_ids).mono hdeclared fun _ h => h) fun r hr => ?_
  · obtain ⟨t, ht, rfl⟩ := List.mem_map.1 hc
    exact hm.changes t ht
  obtain ⟨t, sub, hr, hjournal2, hlen, hall⟩ := hr
  obtain ⟨s2, append⟩ := r
  obtain ⟨rfl, hduplicates⟩ := hall rfl
  rw [List.length_map] at hlen
  subst hr
  refine Yields.bind (yields_ensure (.inl ⟨hlen, hduplicates⟩)) fun _ _ => ?_
  set s3 : StoredExportState := { s1.extend t (m.transitions.map (·.change)) with
    materializedRecords := m.pending.map (·.commit append.sequences) } with hs3
  have hjournal3 : JournalOk s3 := hjournal2.of_window rfl rfl
  refine Yields.bind ((compactToLimits_yields hjournal3.contiguous).mono hdeclared fun _ h => h)
    fun s4 hs4 => ?_
  obtain ⟨d', hd', rfl, hbytes4, hentries4⟩ := hs4
  have hfields4 : FieldsOk store (s3.discard d') :=
    hfields1.of_same ⟨rfl, rfl, rfl, rfl, rfl, rfl⟩
  refine Yields.bind ((refresh_yields hfields4 (hjournal3.discard hd') (hm.records _) hentries4
    hbytes4 (hm.holds _) hnow.1 (discard_pruned _ _)).mono hdeclared fun _ h => h) fun r hr => ?_
  obtain ⟨s5, refreshed, pruned⟩ := r
  obtain ⟨hsound5, hbytes5, hrecords5, hcurrent5, hfloor5, hsame⟩ := hr
  dsimp only at hsound5 hbytes5 hrecords5 hcurrent5 hfloor5 hsame ⊢
  have hb := hsound5.journal.bounded
  have hfloor : s.retentionFloor ≤ (s3.discard d').retentionFloor := by
    simp only [hs3, hs1, StoredExportState.discard, StoredExportState.extend]
    omega
  have hsum : s.currentSequence + (m.transitions.map (·.change)).length + refreshed ≤
      s5.currentSequence := hcurrent5
  rw [List.length_map] at hsum
  have hupserts : m.transitions.countP (·.kind = .upsert) ≤ m.transitions.length :=
    List.countP_le_length
  have hbootstrap : m.transitions.countP (·.bootstrap) ≤ m.transitions.length :=
    List.countP_le_length
  refine Yields.bind (yields_okOr (.inl ?_)) fun _ _ =>
    Yields.bind (yields_okOr (.inl ?_)) fun _ _ => ?_
  · rw [checkedAdd, if_pos (by omega)]
    rfl
  · rw [checkedAdd, if_pos (by omega)]
    rfl
  have hrecords : s5.materializedRecords.length ≤
      keptRecords mode s.materializedRecords desired := by
    rw [hrecords5]
    simpa [hs3] using hcount
  refine Yields.bind (hsound5.validate.with_eq.mono (fun e he => .inr ?_) fun _ h => h)
    fun _ hvalid5 => yields_pure
      ⟨hvalid5.1, hbytes5, ⟨hb, ?_⟩, hsame.generation, hfloor.trans hfloor5⟩
  · rcases he with he | ⟨he, hmany⟩
    · exact .inl he
    · exact .inr ⟨he, hmany.trans_le hrecords⟩
  · rw [hsame.clock]
    exact representable_next hrange.clock hnow

/-! ## Sessions -/

/-- A session with a valid state in memory that is the one in the file. -/
structure RemoteExportSession.Open (store : RemoteExportStateStore) (session : RemoteExportSession)
    (s : StoredExportState) : Prop where
  file : session.file = s
  state : session.state = some s
  valid : s.validate store = .ok ()
  encoded : ∃ size, encodedStateSize store s = .ok size
  range : InRange s

section
variable {session : RemoteExportSession} {α : Type}

theorem RemoteExportSession.Open.eq (h : session.Open store s) : session = ⟨s, some s⟩ := by
  obtain ⟨file, state⟩ := session
  rw [show file = s from h.file, show state = some s from h.state]

theorem fail_restores (h : session.Open store s) (error : String) :
    ({ session with state := none }.fail store error : Except String α × RemoteExportSession) =
      (.error error, session) := by
  obtain ⟨size, hsize⟩ := h.encoded
  have hread : readState store s = .ok s := by
    unfold readState
    rw [h.valid, ok_bind]
    rfl
  unfold RemoteExportSession.fail RemoteExportSession.restoreAfterFailedMutation
  simp only [h.file, hread, hsize]
  rw [h.eq]

/-- **A failed mutation leaves the session as it was**, file and memory. -/
theorem mutate_error (h : session.Open store s)
    {operation : StoredExportState → Except String (StoredExportState × α)} {error : String}
    (herror : (session.mutate store operation).1 = .error error) :
    (session.mutate store operation).2 = session := by
  unfold RemoteExportSession.mutate at herror ⊢
  rw [h.state] at herror ⊢
  dsimp only at herror ⊢
  split at herror
  · rw [fail_restores h]
  · split at herror
    · rw [fail_restores h]
    · cases herror

theorem mutate_ok (h : session.Open store s)
    {operation : StoredExportState → Except String (StoredExportState × α)}
    {s' : StoredExportState} {report : α} (hoperation : operation s = .ok (s', report))
    (hmutated : Mutated store s s') : session.mutate store operation = (.ok report, ⟨s', some s'⟩) ∧
      (⟨s', some s'⟩ : RemoteExportSession).Open store s' := by
  obtain ⟨size, hsize, hle⟩ := hmutated.bytes
  refine ⟨?_, rfl, rfl, hmutated.valid, ⟨size, hsize⟩, hmutated.range⟩
  unfold RemoteExportSession.mutate
  simp only [h.state, hoperation, writeState, hmutated.valid, ok_bind, hsize, ensure_of hle]

end

/-- A mutation of the journal with its input. -/
inductive JournalOperation
  | append (changes : List RemoteExportChange)
  | reconcile (desired : List RemoteExportDesiredRecord) (mode : RemoteExportReconcileMode)
deriving DecidableEq

namespace JournalOperation

/-- The input passed the checks that the session makes before it takes the state. -/
def Validated : JournalOperation → Prop
  | append changes =>
    changes.length ≤ maxAppendBatchEntries ∧ ∀ c ∈ changes, c.validate = .ok ()
  | reconcile desired _ => validateDesiredRecords desired = .ok ()

def apply (store : RemoteExportStateStore) (now : DateTime) :
    JournalOperation → StoredExportState → Except String (StoredExportState × Unit)
  | append changes, s => do
    let appended ← appendAndCompact store s now changes
    pure (appended.1, ())
  | reconcile desired mode, s => do
    let reconciled ← reconcileAndCompact store s now desired mode
    pure (reconciled.1, ())

/-- The number of records the operation can leave in the materialized set. -/
def records (s : StoredExportState) : JournalOperation → Nat
  | append _ => s.materializedRecords.length
  | reconcile desired mode => keptRecords mode s.materializedRecords desired

/-- The two checks in which the closing validation can fail. -/
def ClosingFails (op : JournalOperation) (s : StoredExportState) (e : String) : Prop :=
  e = tombstoneConflict ∨ e = boundsInvalid ∧ maxMaterializedRecords < op.records s

end JournalOperation

/-- **Mutations keep a valid journal valid.** On a valid state and a validated input a mutation
returns a valid state, which the session writes out, or it fails: for a declared reason, or because
the closing validation finds a tombstone id in the journal with other content or too many records.
A failure leaves the session as it was. -/
theorem mutation_keeps_validity {session : RemoteExportSession} (h : session.Open store s)
    {now : DateTime} (hnow : Representable now) {op : JournalOperation} (hop : op.Validated) :
    (∃ s', op.apply store now s = .ok (s', ()) ∧ s'.validate store = .ok () ∧
        session.mutate store (op.apply store now) = (.ok (), ⟨s', some s'⟩)) ∨
      ∃ e, op.apply store now s = .error e ∧ (Declared store e ∨ op.ClosingFails s e) ∧
        session.mutate store (op.apply store now) = (.error e, session) := by
  have hyields : Yields (op.apply store now s) (fun e => Declared store e ∨ op.ClosingFails s e)
      fun r => Mutated store s r.1 := by
    cases op with
    | append changes =>
      refine Yields.bind ((appendAndCompact_yields h.valid h.range hnow hop.2).mono
        (fun e he => ?_) fun _ h => h) fun _ h => yields_pure h
      exact he.imp_right .inl
    | reconcile desired mode =>
      exact Yields.bind (reconcileAndCompact_yields h.valid h.range hnow hop mode)
        fun _ h => yields_pure h
  rcases hyields.cases with ⟨⟨s', _⟩, hs', hmutated⟩ | ⟨e, he, hreason⟩
  · exact .inl ⟨s', hs', hmutated.valid, (mutate_ok h hs' hmutated).1⟩
  · refine .inr ⟨e, he, hreason, ?_⟩
    unfold RemoteExportSession.mutate
    simp only [h.state, he]
    exact fail_restores h e

namespace Sample

/-- A record whose tombstone has the id of the change in the journal, with another payload. -/
def desiredB : RemoteExportDesiredRecord := ⟨"b", days 5, ⟨"upsert-b", [2]⟩, ⟨"upsert-a", [9]⟩⟩

theorem appended_open :
    (⟨appended, some appended⟩ : RemoteExportSession).Open Sample.store appended :=
  ⟨rfl, rfl, rfl, ⟨601, rfl⟩, by decide, by decide, by decide⟩

end Sample

theorem mutation_keeps_validity_sample :
    Sample.appended.validate Sample.store = .ok () ∧
      (⟨Sample.appended, some Sample.appended⟩ : RemoteExportSession).mutate Sample.store
        (JournalOperation.apply Sample.store 2 (.append [Sample.tombstoneA])) =
        (.ok (), ⟨Sample.emptied, some Sample.emptied⟩) := by
  refine ⟨rfl, ?_⟩
  have hnow : Representable 2 := ⟨by decide, by decide⟩
  have hop : (JournalOperation.append [Sample.tombstoneA]).Validated := ⟨by decide, by decide⟩
  rcases mutation_keeps_validity Sample.appended_open hnow hop with ⟨s', hs', -, h⟩ | ⟨e, he, -⟩
  · rw [h]
    cases hs'
    rfl
  · cases he

/-- The closing validation rejects a desired record whose tombstone id the journal has. -/
theorem closing_validation_fails :
    ¬ ∀ (store : RemoteExportStateStore) (s : StoredExportState), s.validate store = .ok () →
      InRange s → ∀ (now : DateTime), Representable now → ∀ op : JournalOperation, op.Validated →
      (∃ s', op.apply store now s = .ok (s', ()) ∧ s'.validate store = .ok ()) ∨
        ∃ e, op.apply store now s = .error e ∧ Declared store e := by
  intro h
  have hrejects : JournalOperation.apply Sample.store 2
      (.reconcile [Sample.desiredB] .authoritative) Sample.appended = .error tombstoneConflict := rfl
  have hundeclared : ∀ e, Declared Sample.store e → e ≠ tombstoneConflict := by
    intro e he heq
    cases he with
    | stateSize s hs => cases hs
    | entrySize entry hs => cases hs
    | reused id =>
      have hchar := congrArg (fun text : String => text.toList[7]?) heq
      simp [tombstoneConflict] at hchar
    | reusedInBatch id =>
      have hchar := congrArg (fun text : String => text.toList[7]?) heq
      simp [tombstoneConflict] at hchar
    | _ => exact absurd heq (by decide)
  rcases h Sample.store Sample.appended rfl Sample.appended_open.range 2 ⟨by decide, by decide⟩
    (.reconcile [Sample.desiredB] .authoritative) rfl with ⟨s', hs', -⟩ | ⟨e, he, hdeclared⟩
  · rw [hrejects] at hs'
    cases hs'
  · rw [hrejects] at he
    cases he
    exact hundeclared _ hdeclared rfl

end Export
