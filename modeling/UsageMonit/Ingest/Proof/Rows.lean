import UsageMonit.Ingest.Collect
import UsageMonit.Ingest.Proof.ExactlyOnce

/-!
# The rows of a source stay consistent

`StoreInv` is what every transaction keeps of the rows: each state is valid under its own key, the
manifest names a generation row with the same binding, and both tables respect their bounds. The
first part says what each operation does to the generation rows and the manifest, the second that
`StoreInv` holds in every world that steps of the ingest and the collector reach
(`collectorReachable_rows`).
-/

namespace Ingest

open Fallible Time Protocol

variable {π ρ δ : Type} {env : IngestEnv π ρ δ} {g : RemoteHistoryGenerationId}
  {b : RemoteDeltaIngestBinding} {outcome : RemoteHistoryGenerationGcOutcome}
  {s : StoredRemoteDeltaIngestState π} {h h' : HistoryStore π δ}

/-! ## What the operations do to the generation rows and the manifest -/

theorem remoteActive_ok {active : Option RemoteActiveManifest} (ha : h.remoteActive = .ok active) :
    active = h.manifest := by
  obtain ⟨_, -, ha⟩ := bind_ok ha
  cases ha
  rfl

theorem ensureRemoteGeneration_rows {b : SourceHistoryRemoteBinding}
    (he : h.ensureRemoteGeneration g b = .ok h') :
    (h' = h ∧ h.generations.lookup g = some b) ∨
      (h.generations.lookup g = none ∧
        h.generations.entries.length < maxRemoteHistoryGenerations ∧
        h' = { h with generations := h.generations.insert g b }) := by
  obtain ⟨_, hcap, he⟩ := bind_ok he
  split at he
  · rename_i existing hlook
    obtain ⟨_, hsame, he⟩ := bind_ok he
    cases he
    rw [ensure_ok.1 hsame] at hlook
    exact .inl ⟨rfl, hlook⟩
  · rename_i hlook
    cases he
    refine .inr ⟨hlook, ?_, rfl⟩
    rcases ensure_ok.1 hcap with hlt | hmem
    · exact hlt
    · exact absurd hmem (AList.lookup_eq_none.1 hlook)

/-- Applying a page keeps what the manifest refers to; it may bring the row of a staging
generation into being. -/
theorem applyRemoteDeltaRecords_rows {session : RemoteDeltaIngestSession π}
    {page : PreparedRemoteDeltaPage ρ} {t : DateTime}
    (ha : applyRemoteDeltaRecords env h session page t = .ok h') :
    h'.manifest.map (·.ref) = h.manifest.map (·.ref) ∧
      (h'.generations = h.generations ∨
        ∃ g h₁, page.target = .staging g ∧
          h.ensureRemoteGeneration g (sourceHistoryBinding session.binding) = .ok h₁ ∧
          h'.generations = h₁.generations) := by
  unfold applyRemoteDeltaRecords at ha
  split at ha
  · obtain ⟨active, hactive, ha⟩ := bind_ok ha
    obtain ⟨manifest, hm, ha⟩ := bind_ok ha
    obtain ⟨_, -, ha⟩ := bind_ok ha
    obtain ⟨_, -, ha⟩ := bind_ok ha
    obtain ⟨h₁, hr, ha⟩ := bind_ok ha
    obtain ⟨d, -, hr⟩ := bind_ok hr
    cases hr
    cases ha
    refine ⟨?_, .inl rfl⟩
    rw [← remoteActive_ok hactive, okOr_ok.1 hm]
    rfl
  · rename_i g htarget
    obtain ⟨_, -, ha⟩ := bind_ok ha
    obtain ⟨_, -, ha⟩ := bind_ok ha
    obtain ⟨h₁, he, ha⟩ := bind_ok ha
    have hmanifest : h₁.manifest = h.manifest := by
      rcases ensureRemoteGeneration_rows he with ⟨rfl, -⟩ | ⟨-, -, rfl⟩
      · rfl
      · rfl
    iterate 4 obtain ⟨_, -, ha⟩ := bind_ok ha
    obtain ⟨d, -, ha⟩ := bind_ok ha
    cases ha
    exact ⟨by rw [hmanifest], .inr ⟨g, h₁, htarget, he, rfl⟩⟩

theorem activateRemoteGeneration_rows {expected : Option SourceHistoryRemoteActiveRef}
    {candidate : RemoteHistoryGenerationId} {b : SourceHistoryRemoteBinding} {t : DateTime}
    (ha : h.activateRemoteGeneration expected candidate b t = .ok h') :
    h'.states = h.states ∧ h'.generations = h.generations ∧
      h.generations.lookup candidate = some b ∧
      h'.manifest.map (·.ref) = some ⟨candidate, b⟩ ∧
      (h.manifest.map (·.ref) = some ⟨candidate, b⟩ ∨ h.manifest.map (·.ref) = expected) := by
  obtain ⟨value, hvalue, ha⟩ := bind_ok ha
  obtain ⟨_, hsame, ha⟩ := bind_ok ha
  obtain ⟨active, hactive, ha⟩ := bind_ok ha
  have hrow : h.generations.lookup candidate = some b := by
    rw [okOr_ok.1 hvalue, ensure_ok.1 hsame]
  rw [remoteActive_ok hactive] at ha
  split at ha
  · rename_i hcur
    cases ha
    exact ⟨rfl, rfl, hrow, hcur, .inl hcur⟩
  · obtain ⟨_, hexp, ha⟩ := bind_ok ha
    obtain ⟨_, -, ha⟩ := bind_ok ha
    cases ha
    exact ⟨rfl, rfl, hrow, rfl, .inr (ensure_ok.1 hexp)⟩

theorem gcRemoteGeneration_rows {protectedIds : List RemoteHistoryGenerationId}
    (hg : h.gcRemoteGeneration env g protectedIds = .ok (h', outcome)) :
    (outcome = .deleted ∧ h.manifest.map (·.activeGeneration) ≠ some g ∧ g ∉ protectedIds ∧
        h' = { h with
          generations := h.generations.erase g
          data := Function.update h.data g env.emptyData }) ∨
      (outcome ≠ .deleted ∧ h' = h) := by
  obtain ⟨active, hactive, hg⟩ := bind_ok hg
  rw [remoteActive_ok hactive] at hg
  split at hg
  · cases hg
    exact .inr ⟨by decide, rfl⟩
  · rename_i hne
    split at hg
    · cases hg
      exact .inr ⟨by decide, rfl⟩
    · rename_i hprot
      split at hg
      · cases hg
        exact .inr ⟨by decide, rfl⟩
      · cases hg
        exact .inl ⟨rfl, hne, hprot, rfl⟩

/-! ## Valid states -/

theorem validate_binding (h : s.validate env b = .ok ()) : s.binding = b := by
  obtain ⟨_, hb, -⟩ := bind_ok h
  exact (ensure_ok.1 hb).2

theorem validate_active (h : s.validate env b = .ok ()) {a : StoredActiveGeneration}
    (ha : s.active = some a) : validateGenerationId a.generation = .ok () := by
  obtain ⟨_, -, h⟩ := bind_ok h
  obtain ⟨_, -, h⟩ := bind_ok h
  obtain ⟨_, hactive, -⟩ := bind_ok h
  have hv := checkSome_ok hactive ha
  obtain ⟨_, hid, -⟩ := bind_ok hv
  exact hid

theorem validate_header (h : s.validate env b = .ok ()) :
    s.formatVersion = ingestStateFormatVersion ∧ b.validate = .ok () := by
  have hb := validate_binding h
  obtain ⟨_, hformat, h⟩ := bind_ok h
  obtain ⟨_, hbv, -⟩ := bind_ok h
  rw [hb] at hbv
  exact ⟨(ensure_ok.1 hformat).1, hbv⟩

theorem validate_bootstrap (h : s.validate env b = .ok ()) {x : StoredBootstrap}
    (hx : s.bootstrap = some x) : validateGenerationId x.generation = .ok () := by
  have hv := checkSome_ok (validate_parts h).1 hx
  obtain ⟨_, hxv, -⟩ := bind_ok hv
  obtain ⟨_, hid, -⟩ := bind_ok hxv
  exact hid

theorem validate_serialized (h : s.validate env b = .ok ()) :
    ({ s with pending := none } : StoredRemoteDeltaIngestState π).validate env b = .ok () := by
  unfold StoredRemoteDeltaIngestState.validate at h ⊢
  obtain ⟨_, hb, h⟩ := bind_ok h
  obtain ⟨_, hbv, h⟩ := bind_ok h
  obtain ⟨_, ha, h⟩ := bind_ok h
  obtain ⟨_, hx, h⟩ := bind_ok h
  obtain ⟨_, -, h⟩ := bind_ok h
  have hx : ({ s with pending := none } : StoredRemoteDeltaIngestState π).validateBootstrap =
      .ok () := hx
  rw [hb, ok_bind, hbv, ok_bind, ha, ok_bind, hx, ok_bind]
  exact h

/-! ## The invariant of the rows -/

structure StoreInv (env : IngestEnv π ρ δ) (h : HistoryStore π δ) : Prop where
  namespaces : h.states.entries.length ≤ maxBindingNamespacesPerSource
  states : ∀ b s, h.states.lookup b = some s → s.validate env b = .ok () ∧ s.pending = none
  manifest : ∀ m, h.manifest = some m → h.generations.lookup m.activeGeneration = some m.binding
  capacity : h.generations.entries.length ≤ maxRemoteHistoryGenerations

/-- The invariant of a world: the session's binding has a row, and its copy is valid. -/
structure RowsInv (env : IngestEnv π ρ δ) (w : World π ρ δ) : Prop where
  store : StoreInv env w.store
  session : ∀ σ, w.session = some σ →
    σ.state.validate env σ.binding = .ok () ∧ σ.binding ∈ w.store.states

theorem StoreInv.remoteActive (hi : StoreInv env h) : h.remoteActive = .ok h.manifest := by
  unfold HistoryStore.remoteActive
  cases hm : h.manifest with
  | none => rfl
  | some m =>
    simp only [checkSome, hi.manifest m hm]
    simp [okOr, ensure, pure, Except.pure]

theorem length_insert_of_mem {α : Type} {β : α → Type} [DecidableEq α] {a : α} {b : β a}
    {l : AList β} (h : a ∈ l) : (l.insert a b).entries.length = l.entries.length := by
  have hlen : (l.insert a b).keys.length = l.keys.length := by
    have hpos : 0 < l.keys.length := List.length_pos_of_mem h
    rw [AList.keys_insert, List.length_cons, List.length_erase_of_mem h]
    change l.keys.length - 1 + 1 = l.keys.length
    omega
  simpa [AList.keys, List.keys] using hlen

theorem length_insert_of_notMem {α : Type} {β : α → Type} [DecidableEq α] {a : α} {b : β a}
    {l : AList β} (h : a ∉ l) : (l.insert a b).entries.length = l.entries.length + 1 := by
  rw [AList.entries_insert_of_notMem h, List.length_cons]

/-- The manifest's row is a fact about what the manifest refers to. -/
theorem manifest_row_of_ref (href : h'.manifest.map (·.ref) = h.manifest.map (·.ref))
    (hrow : ∀ m, h.manifest = some m → h'.generations.lookup m.activeGeneration = some m.binding) :
    ∀ m, h'.manifest = some m → h'.generations.lookup m.activeGeneration = some m.binding := by
  intro m hm
  rw [hm] at href
  obtain ⟨m₀, hm₀, heq⟩ := Option.map_eq_some_iff.1 href.symm
  have hgen : m₀.activeGeneration = m.activeGeneration :=
    congrArg SourceHistoryRemoteActiveRef.generation heq
  have hbind : m₀.binding = m.binding := congrArg SourceHistoryRemoteActiveRef.binding heq
  rw [← hgen, ← hbind]
  exact hrow m₀ hm₀

section
variable (hi : StoreInv env h)
include hi

theorem StoreInv.writeState (hb : b ∈ h.states) (hw : writeState env h b s = .ok h') :
    StoreInv env h' := by
  obtain ⟨hv, rfl⟩ := writeState_ok hw
  refine ⟨?_, fun b' s' hs' => ?_, hi.manifest, hi.capacity⟩
  · rw [length_insert_of_mem hb]
    exact hi.namespaces
  · rcases lookup_insert_cases hs' with ⟨rfl, rfl⟩ | ⟨-, hs'⟩
    · exact ⟨validate_serialized hv, rfl⟩
    · exact hi.states b' s' hs'

theorem StoreInv.ensure {b : SourceHistoryRemoteBinding}
    (he : h.ensureRemoteGeneration g b = .ok h') : StoreInv env h' := by
  rcases ensureRemoteGeneration_rows he with ⟨rfl, -⟩ | ⟨hnone, hlt, rfl⟩
  · exact hi
  · have hmem := AList.lookup_eq_none.1 hnone
    refine ⟨hi.namespaces, hi.states, fun m hm => ?_, ?_⟩
    · have hrow := hi.manifest m hm
      have hne : m.activeGeneration ≠ g := by
        rintro rfl
        rw [hnone] at hrow
        cases hrow
      rw [AList.lookup_insert_ne hne]
      exact hrow
    · rw [length_insert_of_notMem hmem]
      exact hlt

theorem StoreInv.gc {protectedIds : List RemoteHistoryGenerationId}
    (hg : h.gcRemoteGeneration env g protectedIds = .ok (h', outcome)) : StoreInv env h' := by
  rcases gcRemoteGeneration_rows hg with ⟨-, hne, -, rfl⟩ | ⟨-, rfl⟩
  · refine ⟨hi.namespaces, hi.states, fun m hm => ?_, ?_⟩
    · have hm : h.manifest = some m := hm
      have hne' : m.activeGeneration ≠ g := by
        rintro rfl
        rw [hm] at hne
        exact hne rfl
      rw [AList.lookup_erase_ne hne']
      exact hi.manifest m hm
    · exact (List.Sublist.length_le (List.kerase_sublist g _)).trans hi.capacity
  · exact hi

theorem StoreInv.applyRecords {session : RemoteDeltaIngestSession π}
    {page : PreparedRemoteDeltaPage ρ} {t : DateTime}
    (ha : applyRemoteDeltaRecords env h session page t = .ok h') : StoreInv env h' := by
  obtain ⟨href, hgens⟩ := applyRemoteDeltaRecords_rows ha
  have hstates := (applyRemoteDeltaRecords_ok ha).1
  refine ⟨?_, ?_, ?_, ?_⟩
  · rw [hstates]
    exact hi.namespaces
  · rw [hstates]
    exact hi.states
  · refine manifest_row_of_ref href fun m hm => ?_
    rcases hgens with hgens | ⟨g, h₁, -, he, hgens⟩
    · rw [hgens]
      exact hi.manifest m hm
    · rw [hgens]
      have hm₁ : h₁.manifest = some m := by
        rcases ensureRemoteGeneration_rows he with ⟨rfl, -⟩ | ⟨-, -, rfl⟩
        · exact hm
        · exact hm
      exact (hi.ensure he).manifest m hm₁
  · rcases hgens with hgens | ⟨g, h₁, -, he, hgens⟩
    · rw [hgens]
      exact hi.capacity
    · rw [hgens]
      exact (hi.ensure he).capacity

theorem StoreInv.activate {expected : Option SourceHistoryRemoteActiveRef}
    {candidate : RemoteHistoryGenerationId} {b : SourceHistoryRemoteBinding} {t : DateTime}
    (ha : h.activateRemoteGeneration expected candidate b t = .ok h') : StoreInv env h' := by
  obtain ⟨hstates, hgens, hrow, href, -⟩ := activateRemoteGeneration_rows ha
  refine ⟨by rw [hstates]; exact hi.namespaces, by rw [hstates]; exact hi.states,
    fun m hm => ?_, by rw [hgens]; exact hi.capacity⟩
  rw [hm] at href
  have heq : m.ref = ⟨candidate, b⟩ := Option.some.inj href
  have hgen : m.activeGeneration = candidate := congrArg (·.generation) heq
  have hbind : m.binding = b := congrArg (·.binding) heq
  rw [hgens, hgen, hbind]
  exact hrow

end

/-! ## Runs -/

theorem rows_init : RowsInv env (World.init env) := by
  refine ⟨⟨Nat.zero_le _, fun b s hs => ?_, fun m hm => ?_, Nat.zero_le _⟩, fun σ hσ => ?_⟩
  · cases hs
  · cases hm
  · cases hσ

section
variable {w : World π ρ δ} (hw : RowsInv env w)
include hw

theorem rows_begin (hl : loadOrCreateState env w.store b = .ok (h, s)) :
    RowsInv env { w with store := h, session := some ⟨b, s⟩ } := by
  unfold loadOrCreateState at hl
  split at hl
  · rename_i state hs
    obtain ⟨_, hv, hl⟩ := bind_ok hl
    cases hl
    refine ⟨hw.store, fun σ hσ => ?_⟩
    cases hσ
    exact ⟨hv, AList.lookup_isSome.1 (by rw [hs]; rfl)⟩
  · rename_i hs
    obtain ⟨_, hlen, hl⟩ := bind_ok hl
    obtain ⟨_, hv, hl⟩ := bind_ok hl
    cases hl
    refine ⟨⟨?_, fun b' s' hs' => ?_, hw.store.manifest, hw.store.capacity⟩, fun σ hσ => ?_⟩
    · rw [length_insert_of_notMem (AList.lookup_eq_none.1 hs)]
      exact ensure_ok.1 hlen
    · rcases lookup_insert_cases hs' with ⟨rfl, rfl⟩ | ⟨-, hs'⟩
      · exact ⟨hv, rfl⟩
      · exact hw.store.states b' s' hs'
    · cases hσ
      exact ⟨hv, AList.mem_insert _ |>.2 (.inl rfl)⟩

theorem rows_publish {σ σ' : RemoteDeltaIngestSession π} {next : StoredRemoteDeltaIngestState π}
    (hσ : w.session = some σ) (hi : StoreInv env h) (hstates : h.states = w.store.states)
    (hwrite : writeState env h σ.binding next = .ok h') (hb : σ'.binding = σ.binding)
    (hs : σ'.state = next ∨ σ'.state = σ.state)
    (applied : RemoteHistoryGenerationId → List (AppliedPage ρ))
    (issued : RemoteHistoryGenerationId → Option RemoteDeltaIngestBinding) :
    RowsInv env ⟨h', some σ', applied, issued⟩ := by
  obtain ⟨hv, hmem⟩ := hw.session σ hσ
  have hmem' : σ.binding ∈ h.states := by rwa [hstates]
  refine ⟨hi.writeState hmem' hwrite, fun τ hτ => ?_⟩
  cases hτ
  obtain ⟨hnext, rfl⟩ := writeState_ok hwrite
  rw [hb]
  refine ⟨?_, AList.mem_insert _ |>.2 (.inl rfl)⟩
  rcases hs with hs | hs
  · rw [hs]
    exact hnext
  · rw [hs]
    exact hv

theorem rows_store (hi : StoreInv env h) (hstates : h.states = w.store.states)
    (applied : RemoteHistoryGenerationId → List (AppliedPage ρ))
    (issued : RemoteHistoryGenerationId → Option RemoteDeltaIngestBinding) :
    RowsInv env ⟨h, w.session, applied, issued⟩ := by
  refine ⟨hi, fun σ hσ => ?_⟩
  rw [hstates]
  exact hw.session σ hσ

theorem rows_collect {σ : RemoteDeltaIngestSession π}
    (hc : collectRetiredGeneration env w.store σ g = .ok (h, outcome)) :
    StoreInv env h ∧ h.states = w.store.states := by
  have hstates := (collect_ok hc).2.1
  obtain ⟨_, -, hc⟩ := bind_ok hc
  exact ⟨hw.store.gc hc, hstates⟩

end

theorem afterPublish_state (fence : Bool) (σ : RemoteDeltaIngestSession π)
    (next : StoredRemoteDeltaIngestState π) :
    (afterPublish fence σ next).state = next ∨ (afterPublish fence σ next).state = σ.state := by
  cases fence with
  | true => exact .inl rfl
  | false => exact .inr rfl

@[simp] theorem afterPublish_binding (fence : Bool) (σ : RemoteDeltaIngestSession π)
    (next : StoredRemoteDeltaIngestState π) :
    (afterPublish fence σ next).binding = σ.binding := by
  cases fence <;> rfl

theorem preparePage_ok {σ σ' : RemoteDeltaIngestSession π} {request : RemoteExportRequest}
    {response : RemoteDeltaResponse π} {t : DateTime} {page : PreparedRemoteDeltaPage ρ}
    (hp : preparePage env σ request response t = .ok (σ', page)) :
    σ'.binding = σ.binding ∧ σ'.state.validate env σ.binding = .ok () := by
  obtain ⟨_, -, hp⟩ := bind_ok hp
  obtain ⟨_, -, hp⟩ := bind_ok hp
  obtain ⟨delta, -, hp⟩ := bind_ok hp
  iterate 5 obtain ⟨_, -, hp⟩ := bind_ok hp
  obtain ⟨_, hv, hp⟩ := bind_ok hp
  cases hp
  exact ⟨rfl, hv⟩

theorem step_rows [DecidableEq ρ] {w w' : World π ρ δ} (hw : RowsInv env w)
    (hs : Step env w w') : RowsInv env w' := by
  cases hs with
  | begin _ _ hl => exact rows_begin hw hl
  | crash =>
    refine ⟨hw.store, fun σ hσ => ?_⟩
    cases hσ
  | fail => exact hw
  | prepare _ _ _ hσ hp =>
    obtain ⟨hb, hv⟩ := preparePage_ok hp
    refine ⟨hw.store, fun τ hτ => ?_⟩
    cases hτ
    rw [hb]
    exact ⟨hv, (hw.session _ hσ).2⟩
  | apply page _ hσ ha hp hr hd =>
    obtain ⟨_, h₁, next, -, hrec, -, hwrite, rfl⟩ := applyAndCommit_steps ha
    refine rows_publish hw hσ (hw.store.applyRecords hrec) (applyRemoteDeltaRecords_ok hrec).1
      hwrite ?_ (.inl ?_) _ _
    · rfl
    · rfl
  | activate _ hσ ha =>
    unfold activateRemoteDeltaBootstrap at ha
    split at ha
    · cases ha
    · obtain ⟨h₁, hact, ha⟩ := bind_ok ha
      obtain ⟨next, -, ha⟩ := bind_ok ha
      obtain ⟨h₂, hwrite, ha⟩ := bind_ok ha
      cases ha
      refine rows_publish hw hσ (hw.store.activate hact) (activateRemoteGeneration_rows hact).1
        hwrite ?_ (.inl ?_) _ _
      · rfl
      · rfl
  | bootstrapInterrupted _ _ _ _ _ he =>
    exact rows_store hw (hw.store.ensure he) (ensureRemoteGeneration_ok he).1 _ _
  | bootstrap _ _ fence hσ _ _ he hwrite =>
    exact rows_publish hw hσ (hw.store.ensure he) (ensureRemoteGeneration_ok he).1 hwrite
      (afterPublish_binding ..) (afterPublish_state ..) _ _
  | collectInterrupted _ _ _ hc =>
    obtain ⟨hi, hstates⟩ := rows_collect hw hc
    exact rows_store hw hi hstates _ _
  | collect _ _ fence hσ hc _ hwrite =>
    obtain ⟨hi, hstates⟩ := rows_collect hw hc
    exact rows_publish hw hσ hi hstates hwrite (afterPublish_binding ..)
      (afterPublish_state ..) _ _

end Ingest
