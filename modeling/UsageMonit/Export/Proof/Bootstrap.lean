import UsageMonit.Export.Proof.Replay

/-!
# Bootstrapping from the retention floor

A consumer that starts from nothing has only the retained entries. `StoreOperation` is one
operation of the store that is written out; each leaves a valid state, so every current record
points to a retained upsert, and what the journal retains of a key that no retained direct append
names tells the record of the key (`bootstrap_self_contained`). A direct append of an upsert
survives the replay although the materialized set does not have it (`direct_append_survives`).
-/

namespace Export

open Fallible Time Protocol WindowedLog

variable {s : StoredExportState}

/-- One operation of the store that is written out; a failed one leaves the state as it was. The
label holds the keys that a direct append names. -/
inductive StoreOperation (store : RemoteExportStateStore)
    (decode : RemoteExportChange → Option (String × MaterializedChangeRole)) :
    ExportRun → Set String → ExportRun → Prop
  | reconcile {x : ExportRun} (now : DateTime) {desired : List RemoteExportDesiredRecord}
      (mode : RemoteExportReconcileMode) {s : StoredExportState}
      {report : RemoteExportReconcileReport} :
      validateDesiredRecords desired = .ok () → (∀ next ∈ desired, next.Coherent decode) →
      reconcileAndCompact store x.state now desired mode = .ok (s, report) →
      StoreOperation store decode x ∅ ⟨s, latestUpserts s⟩
  | append {x : ExportRun} (now : DateTime) {changes : List RemoteExportChange}
      {s : StoredExportState} {report : RemoteExportAppendReport} :
      appendAndCompact store x.state now changes = .ok (s, report) →
      StoreOperation store decode x (namedKeys decode changes) ⟨s, latestUpserts s⟩
  | live {x : ExportRun} {live : StoredLiveState} :
      { x.state with live := some live }.validate store = .ok () →
      StoreOperation store decode x ∅ ⟨{ x.state with live := some live }, x.upserts⟩

/-- A run of the store from the empty state, with the sequence up to which the direct appends of a
key went. -/
abbrev StoreRun (store : RemoteExportStateStore)
    (decode : RemoteExportChange → Option (String × MaterializedChangeRole)) (x₀ : ExportRun) :
    ExportRun → (String → Nat) → Prop :=
  Journalled ExportRun.window (StoreOperation store decode) x₀

section
variable {decode : RemoteExportChange → Option (String × MaterializedChangeRole)}
  {store : RemoteExportStateStore}

/-! ## Valid states -/

theorem reconcile_validates {s' : StoredExportState} {now : DateTime}
    {desired : List RemoteExportDesiredRecord} {mode : RemoteExportReconcileMode}
    {report : RemoteExportReconcileReport}
    (h : reconcileAndCompact store s now desired mode = .ok (s', report)) :
    s'.validate store = .ok () := by
  iterate 11 obtain ⟨_, -, h⟩ := bind_ok h
  obtain ⟨_, hvalid, h⟩ := bind_ok h
  cases h
  exact hvalid

theorem append_validates {s' : StoredExportState} {now : DateTime}
    {changes : List RemoteExportChange} {report : RemoteExportAppendReport}
    (h : appendAndCompact store s now changes = .ok (s', report)) : s'.validate store = .ok () := by
  iterate 7 obtain ⟨_, -, h⟩ := bind_ok h
  obtain ⟨_, hvalid, h⟩ := bind_ok h
  obtain ⟨_, -, h⟩ := bind_ok h
  cases h
  exact hvalid

/-- The check of one record: its upsert is retained and its tombstone does not follow it. -/
structure PointsToUpsert (s : StoredExportState) (r : StoredMaterializedRecord) : Prop where
  retained : ∃ e, s.entryAtSequence r.lastUpsertSequence = some e ∧
    e.change.changeId = r.currentChangeId
  notRemoved : ¬ ∃ e ∈ s.entries, r.lastUpsertSequence < e.sequence ∧
    e.change.changeId = r.tombstone.changeId

theorem validateMaterializedRecord_points {ids : AList fun _ : String => List UInt8}
    {previousKey : Option String} {owners owners' : IdOwners} {r : StoredMaterializedRecord}
    (h : validateMaterializedRecord s ids previousKey owners r = .ok owners') :
    PointsToUpsert s r := by
  iterate 8 obtain ⟨_, -, h⟩ := bind_ok h
  obtain ⟨e, he, h⟩ := bind_ok h
  obtain ⟨_, hid, h⟩ := bind_ok h
  obtain ⟨_, hlater, h⟩ := bind_ok h
  exact ⟨⟨e, okOr_ok.1 he, ensure_ok.1 hid⟩, ensure_ok.1 hlater⟩

theorem validateMaterializedRecords_points {ids : AList fun _ : String => List UInt8} :
    ∀ {rs : List StoredMaterializedRecord} {previousKey : Option String} {owners : IdOwners},
      validateMaterializedRecords s ids rs previousKey owners = .ok () →
      ∀ r ∈ rs, PointsToUpsert s r
  | [], _, _, _, r, hr => by cases hr
  | r :: rs, _, _, h, q, hq => by
    obtain ⟨_, hr, h⟩ := bind_ok h
    rcases List.mem_cons.1 hq with rfl | hq
    · exact validateMaterializedRecord_points hr
    · exact validateMaterializedRecords_points h q hq

theorem validate_points (h : s.validate store = .ok ()) :
    ∀ r ∈ s.materializedRecords, PointsToUpsert s r := by
  iterate 5 obtain ⟨_, -, h⟩ := bind_ok h
  unfold StoredExportState.validateJournal at h
  split at h
  · intro r hr
    rw [(ensure_ok.1 h).2] at hr
    cases hr
  · obtain ⟨_, -, h⟩ := bind_ok h
    obtain ⟨_, -, h⟩ := bind_ok h
    obtain ⟨_, -, h⟩ := bind_ok h
    exact validateMaterializedRecords_points h

/-! ## Runs of the store -/

theorem advance_live {x : ExportRun} (h : Linked decode x) (live : StoredLiveState) :
    Advance decode x ∅ ⟨{ x.state with live := some live }, x.upserts⟩ := by
  refine ⟨⟨h.contiguous.of_window rfl rfl, fun r hr => ?_, h.absent⟩,
    [], Extends.refl _, fun _ _ => rfl⟩
  obtain ⟨c, hc, hrec⟩ := h.current r hr
  exact ⟨c, hc, hrec.of_window rfl rfl⟩

/-- The invariant of the states that are written out. -/
structure Stored (decode : RemoteExportChange → Option (String × MaterializedChangeRole))
    (x : ExportRun) : Prop where
  linked : Linked decode x
  points : ∀ r ∈ x.state.materializedRecords, PointsToUpsert x.state r

theorem storeOperation_advance {x y : ExportRun} {T : Set String} (h : Stored decode x)
    (hs : StoreOperation store decode x T y) :
    Stored decode y ∧ Follows (entryEffect decode) ExportRun.window ExportRun.upserts x T y := by
  cases hs with
  | reconcile _ _ hd hc hr =>
    obtain ⟨hl, hf⟩ := advance_reconcile h.linked hd hc hr
    exact ⟨⟨hl, validate_points (reconcile_validates hr)⟩, hf⟩
  | append _ ha =>
    obtain ⟨hl, hf⟩ := advance_append h.linked ha
    exact ⟨⟨hl, validate_points (append_validates ha)⟩, hf⟩
  | live hv =>
    obtain ⟨hl, hf⟩ := advance_live h.linked _
    exact ⟨⟨hl, validate_points hv⟩, hf⟩

theorem Stored.latest {x : ExportRun} (h : Stored decode x) :
    latestUpserts x.state = x.upserts :=
  h.linked.latest_of_retained fun r hr => by
    obtain ⟨e, he, -⟩ := (h.points r hr).retained
    exact ⟨e, he⟩

theorem entryAtSequence_mem {n : Nat} {e : RemoteExportJournalEntry}
    (h : s.entryAtSequence n = some e) : e ∈ s.entries := by
  unfold StoredExportState.entryAtSequence at h
  split at h
  · exact List.mem_of_getElem? (Option.filter_eq_some_iff.1 h).1
  · cases h

/-- At a key whose direct appends are no longer retained, the retained entries tell the map. -/
theorem Stored.replay_retained {x : ExportRun} (h : Stored decode x) {k : String} {d : Nat}
    (hs : SettledAt (entryEffect decode) ExportRun.window ExportRun.upserts x k d)
    (hd : d ≤ x.state.retentionFloor) :
    replay (entryEffect decode) (fun _ => none) x.state.entries k = x.upserts k := by
  have hafter : x.window.after d = x.state.entries := by
    unfold Window.after
    rw [show d - x.window.floor = 0 from Nat.sub_eq_zero_of_le hd, List.drop_zero]
    rfl
  have hsettled := hs.2
  rw [hafter] at hsettled
  by_cases hnamed : ∃ e ∈ x.state.entries, (entryEffect decode e).key? = some k
  · exact hsettled hnamed
  · -- a current record would still have its upsert
    rw [replay_of_not_named _ fun e he hk => hnamed ⟨e, he, hk⟩]
    refine (h.linked.absent k fun r hr hrk => hnamed ?_).symm
    obtain ⟨e, he, -⟩ := (h.points r hr).retained
    obtain ⟨c, -, hrec⟩ := h.linked.current r hr
    refine ⟨e, entryAtSequence_mem he, ?_⟩
    rw [entryEffect, hrec.entry e he, changeEffect_upsert hrec.upsert, ← hrk]
    rfl

theorem changeEffect_set {c v : RemoteExportChange} {k : String}
    (h : changeEffect decode c = .set k v) : c = v ∧ decode c = some (k, .upsert) := by
  unfold changeEffect at h
  split at h <;> cases h
  exact ⟨rfl, by assumption⟩

theorem changeEffect_names {c : RemoteExportChange} {k : String} {role : MaterializedChangeRole}
    (h : decode c = some (k, role)) : (changeEffect decode c).key? = some k := by
  cases role with
  | upsert => rw [changeEffect_upsert h]; rfl
  | tombstone => rw [changeEffect_tombstone h]; rfl

theorem Contiguous.mem_of_sequence_lt (h : Contiguous s)
    {pre post : List RemoteExportJournalEntry} {e e' : RemoteExportJournalEntry}
    (hsplit : s.entries = pre ++ e :: post) (he : e' ∈ s.entries) (hlt : e.sequence < e'.sequence) :
    e' ∈ post := by
  obtain ⟨i, hi⟩ := List.mem_iff_getElem?.1 he
  have hnum := h.number i e' hi
  have hnum' := h.number pre.length e (by rw [hsplit]; simp)
  rw [hsplit, List.getElem?_append_right (by omega),
    show i - pre.length = (i - pre.length - 1) + 1 by omega, List.getElem?_cons_succ] at hi
  exact List.mem_of_getElem? hi

/-- **Bootstrap.** In every state of a run of the store, every current record points to its
retained upsert, which its tombstone does not follow. Replaying only the retained entries gives
exactly the materialized set at every key that no direct append names whose operation is still
retained: a current key has a retained upsert with its content and nothing about the key after it,
and a key that is not current does not survive. -/
theorem bootstrap_self_contained {source : SourceGeneration} {redactionProfile : RedactionProfile}
    {deltaGeneration : Nat} {observedAt : DateTime} {x : ExportRun} {direct : String → Nat}
    (h : StoreRun store decode
      (ExportRun.empty source redactionProfile deltaGeneration observedAt) x direct) :
    (∀ r ∈ x.state.materializedRecords, PointsToUpsert x.state r) ∧
      ∀ k, direct k ≤ x.state.retentionFloor →
        replay (entryEffect decode) (fun _ => none) x.state.entries k = latestUpserts x.state k ∧
        (∀ r ∈ x.state.materializedRecords, r.logicalKey = k →
          ∃ e ∈ x.state.entries, decode e.change = some (k, .upsert) ∧
            e.change.changeId = r.currentChangeId ∧
            ∀ e' ∈ x.state.entries, e.sequence < e'.sequence →
              ∀ role, decode e'.change ≠ some (k, role)) ∧
        ((∀ r ∈ x.state.materializedRecords, r.logicalKey ≠ k) →
          replay (entryEffect decode) (fun _ => none) x.state.entries k = none) := by
  obtain ⟨hstored, hsettled⟩ := h.settled (fun x T y hx hs => storeOperation_advance hx hs)
    ⟨linked_empty _ _ _ _, by simp [ExportRun.empty, StoredExportState.new]⟩ rfl
  refine ⟨hstored.points, fun k hk => ?_⟩
  have hreplay := hstored.replay_retained (hsettled k) hk
  refine ⟨by rw [hreplay, hstored.latest], fun r hr hrk => ?_, fun habsent => ?_⟩
  · obtain ⟨c, hc, hrec⟩ := hstored.linked.current r hr
    rw [hrk] at hc
    rw [hc] at hreplay
    obtain ⟨pre, e, post, hsplit, hset, hpost⟩ := replay_eq_some _ rfl hreplay
    obtain ⟨rfl, hup⟩ := changeEffect_set hset
    refine ⟨e, by rw [hsplit]; simp, hup, hrec.id, fun e' he' hlt role hrole => ?_⟩
    exact hpost e' (hstored.linked.contiguous.mem_of_sequence_lt hsplit he' hlt)
      (changeEffect_names hrole)
  · rw [hreplay]
    exact hstored.linked.absent k habsent

end

/-! ## A concrete store -/

/-- The store that reconciles `a` and then the empty set: a newcomer replays an upsert and its
tombstone and is left with nothing, as the materialized set is. -/
theorem bootstrap_self_contained_sample :
    Sample.emptied.entries.length = 2 ∧
      replay (entryEffect Sample.decode) (fun _ => none) Sample.emptied.entries "a" = none := by
  have h1 : reconcileAndCompact Sample.store Sample.empty.state 1 [Sample.desiredA]
      .authoritative = .ok (Sample.reconciled, ⟨1, 1, 0, 0, 0, 1, 0, 0, 0, false⟩) := rfl
  have h2 : reconcileAndCompact Sample.store Sample.reconciled 2 [] .authoritative =
      .ok (Sample.emptied, ⟨2, 0, 1, 0, 0, 0, 0, 0, 0, false⟩) := rfl
  have hs1 := StoreOperation.reconcile (x := Sample.empty) 1 .authoritative rfl
    Sample.desiredA_coherent h1
  have hs2 : StoreOperation Sample.store Sample.decode
      ⟨Sample.reconciled, latestUpserts Sample.reconciled⟩ ∅
      ⟨Sample.emptied, latestUpserts Sample.emptied⟩ :=
    .reconcile 2 .authoritative rfl (by simp) h2
  have hrun : StoreRun Sample.store Sample.decode Sample.empty _ _ := .step (.step .start hs1) hs2
  have h := (bootstrap_self_contained hrun).2 "a" (by simp)
  exact ⟨rfl, h.2.2 (by decide)⟩

/-- A direct append of an upsert survives the replay of the retained entries, and no record has
its key. -/
theorem direct_append_survives :
    ¬ ∀ (store : RemoteExportStateStore)
      (decode : RemoteExportChange → Option (String × MaterializedChangeRole))
      (source : SourceGeneration) (redactionProfile : RedactionProfile) (deltaGeneration : Nat)
      (observedAt : DateTime) (x : ExportRun) (direct : String → Nat),
      StoreRun store decode (ExportRun.empty source redactionProfile deltaGeneration observedAt) x
        direct →
      ∀ k, (∀ r ∈ x.state.materializedRecords, r.logicalKey ≠ k) →
        replay (entryEffect decode) (fun _ => none) x.state.entries k = none := by
  intro h
  have ha : appendAndCompact Sample.store Sample.empty.state 1 [Sample.upsertA] =
      .ok (Sample.appended, ⟨1, 1, 0, 0, 0, 0, 0, 0, false⟩) := rfl
  have happ : StoreOperation Sample.store Sample.decode Sample.empty
      (namedKeys Sample.decode [Sample.upsertA])
      ⟨Sample.appended, latestUpserts Sample.appended⟩ := .append 1 ha
  have := h _ _ _ _ _ _ _ _ (Journalled.step Journalled.start happ) "a" (by decide)
  revert this
  decide

end Export
