import UsageMonit.Export.Proof.Materialized

/-!
# Replaying the export journal

`ExportStep` is one operation on the export state; its label holds the keys that a direct append
names. In every session of an exporter and a consumer, from the empty state, a consumer whose
position is still retained converges to the current materialized set by replaying the entries
above it (`consumer_converges`). The label is needed: a direct append may carry an upsert
of a key the materialized set does not have (`direct_append_diverges`).
-/

namespace Export

open Time Protocol WindowedLog

/-- One operation on the export state. A failed one leaves the state as it was. -/
inductive ExportStep (store : RemoteExportStateStore)
    (decode : RemoteExportChange → Option (String × MaterializedChangeRole)) :
    ExportRun → Set String → ExportRun → Prop
  | reconcile {x : ExportRun} (now : DateTime) {desired : List RemoteExportDesiredRecord}
      (mode : RemoteExportReconcileMode) {s : StoredExportState}
      {report : RemoteExportReconcileReport} :
      validateDesiredRecords desired = .ok () → (∀ next ∈ desired, next.Coherent decode) →
      reconcileAndCompact store x.state now desired mode = .ok (s, report) →
      ExportStep store decode x ∅ ⟨s, latestUpserts s⟩
  | append {x : ExportRun} (now : DateTime) {changes : List RemoteExportChange}
      {s : StoredExportState} {report : RemoteExportAppendReport} :
      appendAndCompact store x.state now changes = .ok (s, report) →
      ExportStep store decode x (namedKeys decode changes) ⟨s, latestUpserts s⟩
  | observe {x : ExportRun} (now : DateTime) :
      ExportStep store decode x ∅ ⟨{ x.state with
        retentionClock := (nextRetentionClock x.state.retentionClock now).1 }, x.upserts⟩
  | prune {x : ExportRun} {now : DateTime} {s : StoredExportState} {n : Nat} {deferred : Bool} :
      advanceRetentionAndPruneAge x.state now store.limits.retentionDays = .ok (s, n, deferred) →
      ExportStep store decode x ∅ ⟨s, x.upserts⟩
  | compact {x : ExportRun} {s : StoredExportState} : compactToLimits store x.state = .ok s →
      ExportStep store decode x ∅ ⟨s, x.upserts⟩
  | refresh {x : ExportRun} {now : DateTime} {upserts : ChangeMap} {pruned n p : Nat}
      {s : StoredExportState} : (∀ k, upserts.lookup k = x.upserts k) →
      refreshMaterializedBootstrapIfNeeded store x.state now upserts pruned = .ok (s, n, p) →
      ExportStep store decode x ∅ ⟨s, x.upserts⟩

def ExportRun.empty (source : SourceGeneration) (redactionProfile : RedactionProfile)
    (deltaGeneration : Nat) (observedAt : DateTime) : ExportRun :=
  ⟨StoredExportState.new source redactionProfile deltaGeneration observedAt, fun _ => none⟩

/-- Exporter and consumer from the empty state on, in any interleaving. -/
abbrev ExportSession (store : RemoteExportStateStore)
    (decode : RemoteExportChange → Option (String × MaterializedChangeRole)) (x₀ : ExportRun) :
    ExportRun → Reader String RemoteExportChange → Set String → Prop :=
  Session (entryEffect decode) ExportRun.window ExportRun.upserts (ExportStep store decode) x₀

def StoredExportState.entriesAfter (s : StoredExportState) (cursor : Nat) :
    List RemoteExportJournalEntry :=
  s.entries.filter fun entry => cursor < entry.sequence

section
variable {decode : RemoteExportChange → Option (String × MaterializedChangeRole)}
  {store : RemoteExportStateStore}

theorem linked_empty (source : SourceGeneration) (redactionProfile : RedactionProfile)
    (deltaGeneration : Nat) (observedAt : DateTime) :
    Linked decode (ExportRun.empty source redactionProfile deltaGeneration observedAt) :=
  ⟨contiguous_new _ _ _ _, by simp [ExportRun.empty, StoredExportState.new], fun _ _ => rfl⟩

theorem exportStep_advance {x y : ExportRun} {T : Set String} (h : Linked decode x)
    (hs : ExportStep store decode x T y) : Advance decode x T y := by
  cases hs with
  | reconcile _ _ hd hc hr => exact advance_reconcile h hd hc hr
  | append _ ha => exact advance_append h ha
  | observe now => exact advance_clock h _
  | prune hp => exact (advance_prune h hp).1
  | compact hc => exact advance_compact h hc
  | refresh hup hr => exact advance_refresh h hup hr

/-- In a list numbered from `f + 1`, dropping the first `c - f` is keeping the numbers above
`c`. -/
theorem drop_eq_filter_sequence (c : Nat) : ∀ {es : List RemoteExportJournalEntry} {f : Nat},
    (∀ (i : Nat) e, es[i]? = some e → e.sequence = f + i + 1) →
    es.drop (c - f) = es.filter fun entry => c < entry.sequence
  | [], _, _ => by simp
  | e :: es, f, h => by
    have he : e.sequence = f + 1 := h 0 e rfl
    have hrest := drop_eq_filter_sequence c (f := f + 1) (fun i e' hi => by
      rw [h (i + 1) e' (by simpa using hi)]
      omega : ∀ (i : Nat) e', es[i]? = some e' → _)
    rw [List.filter_cons, ← hrest]
    rcases Nat.lt_or_ge c (f + 1) with hc | hc
    · rw [if_pos (by simpa [he] using hc), show c - f = 0 by omega,
        show c - (f + 1) = 0 by omega, List.drop_zero, List.drop_zero]
    · rw [if_neg (by simpa [he] using hc), show c - f = c - (f + 1) + 1 by omega,
        List.drop_succ_cons]

theorem Contiguous.after {s : StoredExportState} (h : Contiguous s) (c : Nat) :
    s.window.after c = s.entriesAfter c :=
  drop_eq_filter_sequence c h.number

/-- **Replay.** A consumer at cursor `r.position`, still at or above the retention floor, gets the
current materialized set by replaying the retained entries above its cursor, at every key that no
direct append has named since its last snapshot. -/
theorem consumer_converges {source : SourceGeneration} {redactionProfile : RedactionProfile}
    {deltaGeneration : Nat} {observedAt : DateTime} {x : ExportRun}
    {r : Reader String RemoteExportChange} {T : Set String}
    (h : ExportSession store decode
      (ExportRun.empty source redactionProfile deltaGeneration observedAt) x r T) :
    Linked decode x ∧ (x.state.validate store = .ok () → x.upserts = latestUpserts x.state) ∧
      r.position ≤ x.state.currentSequence ∧
      (x.state.retentionFloor ≤ r.position → ∀ k, k ∉ T →
        replay (entryEffect decode) r.map (x.state.entriesAfter r.position) k = x.upserts k) := by
  obtain ⟨hl, hpos, hsync⟩ := h.synced (fun x T y hx hs => exportStep_advance hx hs)
    (linked_empty _ _ _ _)
  refine ⟨hl, fun hv => (hl.latest hv).symm, ?_, fun hf k hk => ?_⟩
  · rw [← hl.contiguous.next]
    exact hpos
  · rw [← hl.contiguous.after]
    exact hsync hf k hk

end

/-! ## A concrete exporter -/

namespace Sample

def source : SourceGeneration := ⟨"node-0123456789abcdef0123456789abcdef", 1⟩

/-- The default limits; sizes are estimates far below the byte cap, as the real ones are here. -/
def store : RemoteExportStateStore where
  source := source
  redactionProfile := .redacted
  limits := {}
  encodedStateJsonSize s :=
    .ok (400 + 200 * s.entries.length + 300 * s.materializedRecords.length)
  encodedEntryJsonSize _ := .ok 200
  validateLive _ _ := .ok ()

def upsertA : RemoteExportChange := ⟨"upsert-a", [1]⟩
def tombstoneA : RemoteExportChange := ⟨"tombstone-a", [0]⟩
def desiredA : RemoteExportDesiredRecord := ⟨"a", days 5, upsertA, tombstoneA⟩

def decode (c : RemoteExportChange) : Option (String × MaterializedChangeRole) :=
  if c = upsertA then some ("a", .upsert)
  else if c = tombstoneA then some ("a", .tombstone)
  else none

def empty : ExportRun := ExportRun.empty source .redacted 7 0

def appended : StoredExportState := { empty.state with
  currentSequence := 1
  retentionClock := RetentionClock.current 1
  entries := [⟨1, 1, upsertA⟩] }

def reconciled : StoredExportState := { appended with
  materializedRecords := [⟨"a", days 5, "upsert-a", 1, tombstoneA⟩] }

def emptied : StoredExportState := { appended with
  currentSequence := 2
  retentionClock := RetentionClock.current 2
  entries := [⟨1, 1, upsertA⟩, ⟨2, 2, tombstoneA⟩] }

theorem desiredA_coherent : ∀ next ∈ [desiredA], next.Coherent decode := by
  intro next hn
  rw [List.mem_singleton.1 hn]
  exact ⟨by decide, by decide⟩

/-- A consumer that reads the upsert of `a` and then falls behind its removal. -/
theorem session : ExportSession store decode empty ⟨emptied, latestUpserts emptied⟩
    ((Reader.snapshot ExportRun.window ExportRun.upserts empty).read (entryEffect decode)
      reconciled.window 1) (∅ ∪ ∅ ∪ ∅) := by
  have h1 : reconcileAndCompact store empty.state 1 [desiredA] .authoritative =
      .ok (reconciled, ⟨1, 1, 0, 0, 0, 1, 0, 0, 0, false⟩) := rfl
  have h2 : reconcileAndCompact store reconciled 2 [] .authoritative =
      .ok (emptied, ⟨2, 0, 1, 0, 0, 0, 0, 0, 0, false⟩) := rfl
  have hs1 := ExportStep.reconcile (x := empty) 1 .authoritative rfl desiredA_coherent h1
  have hs2 : ExportStep store decode ⟨reconciled, latestUpserts reconciled⟩ ∅
      ⟨emptied, latestUpserts emptied⟩ := .reconcile 2 .authoritative rfl (by simp) h2
  exact .step (.read 1 (.step .start hs1) (by decide)) hs2

end Sample

/-- The consumer above: it holds the upsert of `a` at cursor 1, and what is left of the journal
removes it. -/
theorem consumer_converges_sample :
    ((Reader.snapshot ExportRun.window ExportRun.upserts Sample.empty).read
        (entryEffect Sample.decode) Sample.reconciled.window 1).map "a" = some Sample.upsertA ∧
      replay (entryEffect Sample.decode)
        ((Reader.snapshot ExportRun.window ExportRun.upserts Sample.empty).read
          (entryEffect Sample.decode) Sample.reconciled.window 1).map
        (Sample.emptied.entriesAfter 1) "a" = none := by
  refine ⟨by decide, ?_⟩
  have h := (consumer_converges Sample.session).2.2.2 (by decide) "a" (by simp)
  exact h.trans (by decide)

/-- A direct append of an upsert reaches the consumer and not the materialized set. -/
theorem direct_append_diverges :
    ¬ ∀ (store : RemoteExportStateStore)
      (decode : RemoteExportChange → Option (String × MaterializedChangeRole))
      (source : SourceGeneration) (redactionProfile : RedactionProfile) (deltaGeneration : Nat)
      (observedAt : DateTime) (x : ExportRun) (r : Reader String RemoteExportChange)
      (T : Set String), ExportSession store decode
        (ExportRun.empty source redactionProfile deltaGeneration observedAt) x r T →
      x.state.retentionFloor ≤ r.position → ∀ k,
        replay (entryEffect decode) r.map (x.state.entriesAfter r.position) k = x.upserts k := by
  intro h
  have ha : appendAndCompact Sample.store Sample.empty.state 1 [Sample.upsertA] =
      .ok (Sample.appended, ⟨1, 1, 0, 0, 0, 0, 0, 0, false⟩) := rfl
  have happ : ExportStep Sample.store Sample.decode Sample.empty
      (namedKeys Sample.decode [Sample.upsertA])
      ⟨Sample.appended, latestUpserts Sample.appended⟩ := .append 1 ha
  have := h _ _ _ _ _ _ _ _ _ (Session.step Session.start happ) (by decide) "a"
  revert this
  decide

end Export
