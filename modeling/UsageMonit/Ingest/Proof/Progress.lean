import UsageMonit.Ingest.Proof.Switch

/-!
# Progress after switching between bindings

`Progress` is what a binding needs to go on. A binding without an active generation can always
bootstrap (`canBootstrap`); one whose recorded generation is no longer the manifest's can not
(`selected_of_canBootstrap`). `Steady` runs move the manifest only while no other binding records
an active generation, and keep every recorded generation selected (`steady_selected`).
-/

namespace Ingest

open Fallible Time Protocol

variable {b : RemoteDeltaIngestBinding}

section
variable {π ρ δ : Type} {env : IngestEnv π ρ δ} {w : World π ρ δ}
  {s : StoredRemoteDeltaIngestState π}

/-! ## Progress -/

/-- The recorded active generation is the one the manifest selects. -/
def Selected (h : HistoryStore π δ) (b : RemoteDeltaIngestBinding)
    (s : StoredRemoteDeltaIngestState π) : Prop :=
  ∃ a, s.active = some a ∧
    h.manifest.map (·.ref) = some ⟨a.generation, sourceHistoryBinding b⟩

/-- `create_fresh_bootstrap` succeeds for the binding, whichever fresh id is generated. -/
def CanBootstrap (env : IngestEnv π ρ δ) (w : World π ρ δ) (b : RemoteDeltaIngestBinding)
    (s : StoredRemoteDeltaIngestState π) : Prop :=
  ∃ expected, freshBootstrapExpectedActive w.store ⟨b, s⟩ = .ok expected ∧
    ∀ generation, validateGenerationId generation = .ok () → w.issued generation = none →
      ∃ h h', w.store.ensureRemoteGeneration generation (sourceHistoryBinding b) = .ok h ∧
        writeState env h b (freshBootstrapState s generation expected) = .ok h'

/-- Active pages can be applied, or a fresh bootstrap can be created. -/
def Progress (env : IngestEnv π ρ δ) (w : World π ρ δ) (b : RemoteDeltaIngestBinding)
    (s : StoredRemoteDeltaIngestState π) : Prop :=
  Selected w.store b s ∨ CanBootstrap env w b s

/-- The catalogue has a free row, and one more bootstrap keeps the state below its size bound. -/
structure HasRoom (env : IngestEnv π ρ δ) (w : World π ρ δ) : Prop where
  catalogue : w.store.generations.entries.length < maxRemoteHistoryGenerations
  size : ∀ b s, w.store.states.lookup b = some s → ∀ generation expected,
    env.encodedLength (freshBootstrapState s generation expected) ≤ maxIngestStateBytes

/-! ## Bootstrapping -/

theorem validateRetired_of {live : List RemoteHistoryGenerationId} :
    ∀ {gs seen : List RemoteHistoryGenerationId}, gs.Nodup →
      (∀ g ∈ gs, validateGenerationId g = .ok () ∧ g ∉ seen ∧ g ∉ live) →
      StoredRemoteDeltaIngestState.validateRetired live gs seen = .ok ()
  | [], _, _, _ => rfl
  | g :: gs, seen, hnd, h => by
    obtain ⟨hg, hnd⟩ := List.nodup_cons.1 hnd
    obtain ⟨hv, hseen, hlive⟩ := h g List.mem_cons_self
    simp only [StoredRemoteDeltaIngestState.validateRetired]
    rw [hv, ok_bind, ensure_of hseen, ok_bind, ensure_of hlive, ok_bind]
    refine validateRetired_of hnd fun g' hg' => ?_
    obtain ⟨hv', hseen', hlive'⟩ := h g' (List.mem_cons_of_mem _ hg')
    refine ⟨hv', ?_, hlive'⟩
    rintro (_ | ⟨_, hmem⟩)
    · exact hg hg'
    · exact hseen' hmem

theorem validateRetired_parts {live : List RemoteHistoryGenerationId} :
    ∀ {gs seen : List RemoteHistoryGenerationId},
      StoredRemoteDeltaIngestState.validateRetired live gs seen = .ok () →
      gs.Nodup ∧ ∀ g ∈ gs, validateGenerationId g = .ok () ∧ g ∉ seen
  | [], _, _ => ⟨List.nodup_nil, fun g hg => by cases hg⟩
  | g :: gs, seen, h => by
    obtain ⟨_, hv, h⟩ := bind_ok h
    obtain ⟨_, hseen, h⟩ := bind_ok h
    obtain ⟨_, -, h⟩ := bind_ok h
    obtain ⟨hnd, hrest⟩ := validateRetired_parts h
    refine ⟨List.nodup_cons.2 ⟨fun hg => (hrest g hg).2 List.mem_cons_self, hnd⟩, ?_⟩
    intro g' hg'
    rcases List.mem_cons.1 hg' with rfl | hg'
    · exact ⟨hv, ensure_ok.1 hseen⟩
    · obtain ⟨hv', hseen'⟩ := hrest g' hg'
      exact ⟨hv', fun hmem => hseen' (List.mem_cons_of_mem _ hmem)⟩

theorem nodup_queueRetired {r : Option RemoteHistoryGenerationId} (h : s.retiredGenerations.Nodup) :
    (queueRetired s r).retiredGenerations.Nodup := by
  cases r with
  | none => exact h
  | some r =>
    simp only [queueRetired, queueRetiredGeneration]
    split
    · exact h
    · rename_i hr
      rw [← List.concat_eq_append]
      exact h.concat hr

/-! A fresh bootstrap is valid when its id and the generation it expects are not among those the
state already names. -/

section
variable {g : RemoteHistoryGenerationId} {expected : Option StoredRemoteHistoryActiveRef}

theorem freshBootstrap_validate (hg : validateGenerationId g = .ok ())
    (hexp : ∀ e ∈ expected, validateGenerationId e.generation = .ok () ∧ e.generation ≠ g) :
    (⟨g, expected, none, none, false⟩ : StoredBootstrap).validate = .ok () := by
  unfold StoredBootstrap.validate
  cases expected with
  | none =>
    simp only [hg, ok_bind, checkSome]
    rfl
  | some e =>
    obtain ⟨hid, hne⟩ := hexp e rfl
    simp only [hg, hid, ok_bind, checkSome, ensure_of hne]
    rfl

section
variable (hv : s.validate env b = .ok ()) (hnone : s.active = none)
  (hret : ∀ r ∈ s.retiredGenerations, r ≠ g ∧ ∀ e ∈ expected, e.generation ≠ r)
  (hboot : ∀ x, s.bootstrap = some x →
    x.generation ≠ g ∧ ∀ e ∈ expected, e.generation ≠ x.generation)
include hv hnone hret hboot

theorem freshBootstrapState_retired :
    StoredRemoteDeltaIngestState.validateRetired
      (freshBootstrapState s g expected).liveGenerations
      (freshBootstrapState s g expected).retiredGenerations [] = .ok () := by
  have hlive : ∀ r, r ∈ (freshBootstrapState s g expected).liveGenerations →
      r = g ∨ ∃ e ∈ expected, e.generation = r := by
    intro r hr
    rcases mem_liveGenerations.1 hr with ⟨a, ha, -⟩ | ⟨x, hx, hx'⟩
    · simp [freshBootstrapState, hnone] at ha
    · simp only [freshBootstrapState, queueRetired_bootstrap, Option.some.injEq] at hx
      subst hx
      rcases hx' with rfl | he
      · exact .inl rfl
      · exact .inr he
  obtain ⟨hnd, hids⟩ := validateRetired_parts (validate_parts hv).2.2
  refine validateRetired_of (nodup_queueRetired hnd) fun r hr => ?_
  rcases mem_queueRetired.1 hr with hr | hr
  · refine ⟨(hids r hr).1, List.not_mem_nil, fun hl => ?_⟩
    rcases hlive r hl with rfl | ⟨e, he, hgen⟩
    · exact (hret r hr).1 rfl
    · exact (hret r hr).2 e he hgen
  · obtain ⟨x, hx, rfl⟩ := Option.map_eq_some_iff.1 hr
    refine ⟨validate_bootstrap hv hx, List.not_mem_nil, fun hl => ?_⟩
    rcases hlive _ hl with heq | ⟨e, he, hgen⟩
    · exact (hboot x hx).1 heq
    · exact (hboot x hx).2 e he hgen

theorem freshBootstrapState_validate (hpending : s.pending = none)
    (hg : validateGenerationId g = .ok ())
    (hexp : ∀ e ∈ expected, validateGenerationId e.generation = .ok () ∧ e.generation ≠ g)
    (hnode : ∀ e ∈ expected, e.source.nodeId = b.source.nodeId) :
    (freshBootstrapState s g expected).validate env b = .ok () := by
  obtain ⟨hformat, hbv⟩ := validate_header hv
  have hheader : (freshBootstrapState s g expected).formatVersion = ingestStateFormatVersion ∧
      (freshBootstrapState s g expected).binding = b := by
    simp only [freshBootstrapState, queueRetired_formatVersion, queueRetired_binding]
    exact ⟨hformat, validate_binding hv⟩
  have hbinding : (freshBootstrapState s g expected).binding.validate = .ok () := by
    rw [hheader.2]
    exact hbv
  have hactive : (freshBootstrapState s g expected).active = none := by
    simp only [freshBootstrapState, queueRetired_active]
    exact hnone
  have hpend : (freshBootstrapState s g expected).pending = none := by
    simp only [freshBootstrapState, queueRetired_pending]
    exact hpending
  have hx : (freshBootstrapState s g expected).bootstrap =
      some ⟨g, expected, none, none, false⟩ := by
    simp only [freshBootstrapState, queueRetired_bootstrap]
  have hbootstrap : (freshBootstrapState s g expected).validateBootstrap = .ok () := by
    unfold StoredRemoteDeltaIngestState.validateBootstrap
    rw [hx, hactive, hheader.2]
    simp only [checkSome, freshBootstrap_validate hg hexp, ok_bind, ensure_of hnode]
  have hpending : (freshBootstrapState s g expected).validatePending env b = .ok () := by
    unfold StoredRemoteDeltaIngestState.validatePending
    rw [hpend]
    rfl
  unfold StoredRemoteDeltaIngestState.validate
  rw [ensure_of hheader, ok_bind, hbinding, ok_bind, hactive, hbootstrap, hpending]
  exact freshBootstrapState_retired hv hnone hret hboot

end

end

theorem writeState_eq {h : HistoryStore π δ} (hv : s.validate env b = .ok ())
    (hsize : env.encodedLength s ≤ maxIngestStateBytes) :
    writeState env h b s =
      .ok { h with states := h.states.insert b { s with pending := none } } := by
  unfold writeState
  rw [hv, ok_bind, ensure_of hsize, ok_bind]
  rfl

/-- What a fresh bootstrap will expect to be active. -/
def manifestActiveRef (h : HistoryStore π δ) : Option StoredRemoteHistoryActiveRef :=
  (h.manifest.map (·.ref)).map storedActiveRefFromHistory

theorem mem_manifestActiveRef {h : HistoryStore π δ} {e : StoredRemoteHistoryActiveRef}
    (he : e ∈ manifestActiveRef h) :
    ∃ m, h.manifest = some m ∧ e = storedActiveRefFromHistory m.ref := by
  obtain ⟨ref, href, rfl⟩ := Option.map_eq_some_iff.1 he
  obtain ⟨m, hm, rfl⟩ := Option.map_eq_some_iff.1 href
  exact ⟨m, hm, rfl⟩

/-- **A binding without an active generation can bootstrap**, over whichever generation the
manifest selects. -/
theorem canBootstrap (hrows : RowsInv env w) (hw : SwitchInv w)
    (hsource : ∀ b₁ ∈ w.store.states, ∀ b₂ ∈ w.store.states, b₁.source.nodeId = b₂.source.nodeId)
    (hroom : HasRoom env w) (hs : w.store.states.lookup b = some s) (hnone : s.active = none) :
    CanBootstrap env w b s := by
  obtain ⟨hv, hpending⟩ := hrows.store.states b s hs
  have hown := hw.copies b s (.inl hs)
  have hmem : b ∈ w.store.states := AList.lookup_isSome.1 (by rw [hs]; rfl)
  refine ⟨manifestActiveRef w.store, ?_, fun g hg hfresh => ?_⟩
  · unfold freshBootstrapExpectedActive HistoryStore.activeRemoteHistoryRef
    simp only [hpending, hnone, checkSome, hrows.store.remoteActive, ok_bind]
    rfl
  · have hnotin : g ∉ w.store.generations := fun hin => hw.rows g hin hfresh
    have hensure : w.store.ensureRemoteGeneration g (sourceHistoryBinding b) =
        .ok { w.store with
          generations := w.store.generations.insert g (sourceHistoryBinding b) } := by
      unfold HistoryStore.ensureRemoteGeneration
      rw [ensure_of (.inl hroom.catalogue), ok_bind, AList.lookup_eq_none.2 hnotin]
      rfl
    have hvalid : (freshBootstrapState s g (manifestActiveRef w.store)).validate env b =
        .ok () := by
      refine freshBootstrapState_validate hv hnone ?_ ?_ hpending hg ?_ ?_
      · intro r hr
        refine ⟨?_, fun e he heq => ?_⟩
        · rintro rfl
          exact hown.retired r hr hfresh
        · obtain ⟨m, hm, rfl⟩ := mem_manifestActiveRef he
          rw [← heq] at hr
          exact (hown.manifest m hm).1 hr
      · intro x hx
        refine ⟨?_, fun e he heq => ?_⟩
        · rintro rfl
          rw [hown.bootstrap x hx] at hfresh
          cases hfresh
        · obtain ⟨m, hm, rfl⟩ := mem_manifestActiveRef he
          exact (hown.manifest m hm).2 x hx heq.symm
      · intro e he
        obtain ⟨m, hm, rfl⟩ := mem_manifestActiveRef he
        obtain ⟨hi, hvm, -⟩ := hw.manifest m hm
        refine ⟨hvm, ?_⟩
        rintro rfl
        exact hi hfresh
      · intro e he
        obtain ⟨m, hm, rfl⟩ := mem_manifestActiveRef he
        obtain ⟨-, -, b', hb', hbind⟩ := hw.manifest m hm
        simp only [storedActiveRefFromHistory, RemoteActiveManifest.ref, hbind,
          sourceHistoryBinding]
        exact hsource b' hb' b hmem
    exact ⟨_, _, hensure, writeState_eq hvalid (hroom.size b s hs g _)⟩

/-! ## Steady runs -/

/-- A step that moves the manifest finds no other binding with a recorded active generation. -/
def Steady (w w' : World π ρ δ) : Prop :=
  w'.store.manifest.map (·.ref) ≠ w.store.manifest.map (·.ref) →
    ∀ σ, w.session = some σ → ∀ b s, b ≠ σ.binding → w.store.states.lookup b = some s →
      s.active = none

inductive SteadyReachable [DecidableEq ρ] (env : IngestEnv π ρ δ) : World π ρ δ → Prop
  | init : SteadyReachable env (World.init env)
  | step {w w' : World π ρ δ} : SteadyReachable env w → CollectorStep env w w' → Steady w w' →
      SteadyReachable env w'

/-- Every recorded active generation is the manifest's. -/
def AllSelected (w : World π ρ δ) : Prop :=
  ∀ b s, Copy w b s → ∀ a, s.active = some a →
    w.store.manifest.map (·.ref) = some ⟨a.generation, sourceHistoryBinding b⟩

/-- The active generations of the copies all come from copies before. -/
def ActiveFrom (w w' : World π ρ δ) : Prop :=
  ∀ b s, Copy w' b s → ∀ a, s.active = some a →
    ∃ s₀ a₀, Copy w b s₀ ∧ s₀.active = some a₀ ∧ a₀.generation = a.generation

theorem activeFrom_write {σ σ' : RemoteDeltaIngestSession π} {h : HistoryStore π δ}
    {next : StoredRemoteDeltaIngestState π}
    {applied : RemoteHistoryGenerationId → List (AppliedPage ρ)}
    {issued : RemoteHistoryGenerationId → Option RemoteDeltaIngestBinding}
    (hσ : w.session = some σ)
    (hstates : h.states = w.store.states.insert σ.binding { next with pending := none })
    (hb : σ'.binding = σ.binding) (hs : σ'.state = next ∨ σ'.state = σ.state)
    (hnext : ∀ a, next.active = some a →
      ∃ a₀, σ.state.active = some a₀ ∧ a₀.generation = a.generation) :
    ActiveFrom w ⟨h, some σ', applied, issued⟩ := by
  intro b s hc a ha
  rcases copy_written hstates hb hc with ⟨rfl, rfl | rfl⟩ | ⟨-, hc⟩
  · obtain ⟨a₀, ha₀, hgen⟩ := hnext a ha
    exact ⟨σ.state, a₀, .inr hσ, ha₀, hgen⟩
  · rcases hs with hs | hs
    · rw [hs] at ha
      obtain ⟨a₀, ha₀, hgen⟩ := hnext a ha
      exact ⟨σ.state, a₀, .inr hσ, ha₀, hgen⟩
    · rw [hs] at ha
      exact ⟨σ.state, a, .inr hσ, ha, rfl⟩
  · exact ⟨s, a, .inl hc, ha, rfl⟩

theorem activeFrom_store {h : HistoryStore π δ}
    {applied : RemoteHistoryGenerationId → List (AppliedPage ρ)}
    {issued : RemoteHistoryGenerationId → Option RemoteDeltaIngestBinding}
    (hstates : h.states = w.store.states) : ActiveFrom w ⟨h, w.session, applied, issued⟩ := by
  intro b s hc a ha
  refine ⟨s, a, ?_, ha, rfl⟩
  rcases hc with hc | hc
  · simp only [hstates] at hc
    exact .inl hc
  · exact .inr hc

/-- Only an activation moves the manifest or records another active generation. -/
def Moves (w w' : World π ρ δ) : Prop :=
  (w'.store.manifest.map (·.ref) = w.store.manifest.map (·.ref) ∧ ActiveFrom w w') ∨
    ∃ σ g, w.session = some σ ∧
      w'.store.manifest.map (·.ref) = some ⟨g, sourceHistoryBinding σ.binding⟩ ∧
      ∀ b s, Copy w' b s → ∀ a, s.active = some a →
        (b = σ.binding ∧ a.generation = g) ∨
          (b ≠ σ.binding ∧ w.store.states.lookup b = some s)

theorem step_active [DecidableEq ρ] {w' : World π ρ δ} (hs : Step env w w') : Moves w w' := by
  cases hs with
  | begin b _ hl =>
    left
    unfold loadOrCreateState at hl
    split at hl
    · rename_i state hlook
      obtain ⟨_, -, hl⟩ := bind_ok hl
      cases hl
      refine ⟨rfl, fun b' s' hc a ha => ⟨s', a, ?_, ha, rfl⟩⟩
      rcases hc with hc | hc
      · exact .inl hc
      · cases hc
        exact .inl hlook
    · obtain ⟨_, -, hl⟩ := bind_ok hl
      obtain ⟨_, -, hl⟩ := bind_ok hl
      cases hl
      refine ⟨rfl, fun b' s' hc a ha => ?_⟩
      rcases hc with hc | hc
      · rcases lookup_insert_cases hc with ⟨rfl, rfl⟩ | ⟨-, hc⟩
        · cases ha
        · exact ⟨s', a, .inl hc, ha, rfl⟩
      · cases hc
        cases ha
  | crash =>
    refine .inl ⟨rfl, fun b s hc a ha => ⟨s, a, ?_, ha, rfl⟩⟩
    rcases hc with hc | hc
    · exact .inl hc
    · cases hc
  | fail => exact .inl ⟨rfl, fun b s hc a ha => ⟨s, a, hc, ha, rfl⟩⟩
  | prepare _ _ _ hσ hp =>
    refine .inl ⟨rfl, fun b s hc a ha => ?_⟩
    rcases hc with hc | hc
    · exact ⟨s, a, .inl hc, ha, rfl⟩
    · cases hc
      have hb := (preparePage_ok hp).1
      subst hb
      obtain ⟨a₀, ha₀, hgen⟩ := (preparePage_within hp).active a ha
      exact ⟨_, a₀, .inr hσ, ha₀, hgen⟩
  | apply page _ hσ ha hp hr hd =>
    obtain ⟨htarget, hb, hmark, -, hstates, -⟩ := applyAndCommit_ok hp ha
    obtain ⟨_, h₁, next, -, hrec, -, hwrite, rfl⟩ := applyAndCommit_steps ha
    obtain ⟨-, rfl⟩ := writeState_ok hwrite
    exact .inl ⟨(applyRemoteDeltaRecords_rows hrec).1,
      activeFrom_write hσ hstates rfl (.inl rfl) (markedState_within hmark).active⟩
  | activate _ hσ ha =>
    obtain ⟨hb, -, hstates, -, -⟩ := activate_ok ha
    obtain ⟨x, c, -, -, hactive, -, -, hafter, -⟩ := activate_names ha
    refine .inr ⟨_, x.generation, hσ, hafter, fun b s hc a ha => ?_⟩
    rcases copy_written hstates hb hc with ⟨rfl, rfl | rfl⟩ | hc
    · rw [hactive] at ha
      cases ha
      exact .inl ⟨rfl, rfl⟩
    · rw [hactive] at ha
      cases ha
      exact .inl ⟨rfl, rfl⟩
    · exact .inr hc
  | bootstrapInterrupted _ _ _ _ _ he =>
    refine .inl ⟨?_, activeFrom_store (ensureRemoteGeneration_ok he).1⟩
    rcases ensureRemoteGeneration_rows he with ⟨rfl, -⟩ | ⟨-, -, rfl⟩
    · rfl
    · rfl
  | bootstrap σ r fence hσ _ _ he hwrite =>
    obtain ⟨-, rfl⟩ := writeState_ok hwrite
    refine .inl ⟨?_, activeFrom_write hσ ?_ (afterPublish_binding ..) (afterPublish_state ..)
      fun a ha => ?_⟩
    · rcases ensureRemoteGeneration_rows he with ⟨rfl, -⟩ | ⟨-, -, rfl⟩
      · rfl
      · rfl
    · simp only [(ensureRemoteGeneration_ok he).1]
    · simp only [freshBootstrapState, queueRetired_active] at ha
      exact ⟨a, ha, rfl⟩
  | collectInterrupted _ _ _ hc =>
    have hstates := (collect_ok hc).2.1
    obtain ⟨_, -, hc⟩ := bind_ok hc
    refine .inl ⟨?_, activeFrom_store hstates⟩
    rcases gcRemoteGeneration_rows hc with ⟨-, -, -, rfl⟩ | ⟨-, rfl⟩
    · rfl
    · rfl
  | collect σ candidate fence hσ hc _ hwrite =>
    have hstates := (collect_ok hc).2.1
    obtain ⟨_, -, hc⟩ := bind_ok hc
    obtain ⟨-, rfl⟩ := writeState_ok hwrite
    refine .inl ⟨?_, activeFrom_write hσ ?_ (afterPublish_binding ..) (afterPublish_state ..)
      fun a ha => ⟨a, ha, rfl⟩⟩
    · rcases gcRemoteGeneration_rows hc with ⟨-, -, -, rfl⟩ | ⟨-, rfl⟩
      · rfl
      · rfl
    · simp only [hstates]

theorem collectorStep_active [DecidableEq ρ] {w' : World π ρ δ} (hrows : RowsInv env w)
    (hs : CollectorStep env w w') : Moves w w' := by
  cases hs with
  | ingest hs => exact step_active hs
  | sweep _ _ hsweep =>
    rw [sweep_eq hrows.store] at hsweep
    cases hsweep
    refine .inl ⟨?_, activeFrom_store (deleteGenerations_states _ _)⟩
    simp only [deleteGenerations_manifest]
  | garbageCollect _ _ _ hgc =>
    obtain ⟨_, -, hgc⟩ := bind_ok hgc
    rcases gcRemoteGeneration_rows hgc with ⟨-, -, -, rfl⟩ | ⟨-, rfl⟩
    · exact .inl ⟨rfl, activeFrom_store rfl⟩
    · exact .inl ⟨rfl, activeFrom_store rfl⟩

/-- **A steady step keeps every recorded generation selected.** -/
theorem steady_selected [DecidableEq ρ] {w' : World π ρ δ} (hrows : RowsInv env w)
    (hw : AllSelected w) (hs : CollectorStep env w w') (hsteady : Steady w w') :
    AllSelected w' := by
  intro b s hc a ha
  rcases collectorStep_active hrows hs with ⟨href, hfrom⟩ | ⟨σ, g, hσ, href, hactive⟩
  · obtain ⟨s₀, a₀, hc₀, ha₀, hgen⟩ := hfrom b s hc a ha
    rw [href, ← hgen]
    exact hw b s₀ hc₀ a₀ ha₀
  · rcases hactive b s hc a ha with ⟨rfl, rfl⟩ | ⟨hne, hlook⟩
    · exact href
    · by_cases hmoved : w'.store.manifest.map (·.ref) = w.store.manifest.map (·.ref)
      · rw [hmoved]
        exact hw b s (.inl hlook) a ha
      · rw [hsteady hmoved σ hσ b s hne hlook] at ha
        cases ha

theorem SteadyReachable.collector [DecidableEq ρ] (h : SteadyReachable env w) :
    CollectorReachable env w := by
  induction h with
  | init => exact .init
  | step _ hs _ ih => exact .step ih hs

theorem steadyReachable_selected [DecidableEq ρ] (h : SteadyReachable env w) : AllSelected w := by
  induction h with
  | init =>
    rintro b s (hc | hc)
    · cases hc
    · cases hc
  | step hr hs hsteady ih =>
    exact steady_selected (collectorReachable_rows hr.collector) ih hs hsteady

/-- A recorded active generation that the manifest no longer selects stops the bootstrap. -/
theorem selected_of_canBootstrap (h : CanBootstrap env w b s) {a : StoredActiveGeneration}
    (ha : s.active = some a) : Selected w.store b s := by
  obtain ⟨expected, hexp, -⟩ := h
  obtain ⟨_, -, hexp⟩ := bind_ok hexp
  obtain ⟨ref, href, hexp⟩ := bind_ok hexp
  obtain ⟨active, hactive, href⟩ := bind_ok href
  cases href
  rw [remoteActive_ok hactive, ha] at hexp
  obtain ⟨_, hcheck, -⟩ := bind_ok hexp
  obtain ⟨e, he, hcheck⟩ := bind_ok hcheck
  obtain ⟨ref, href, rfl⟩ := Option.map_eq_some_iff.1 (okOr_ok.1 he)
  obtain ⟨hgen, hsource, hrev⟩ := ensure_ok.1 hcheck
  refine ⟨a, ha, href.trans (congrArg some ?_)⟩
  obtain ⟨generation, source, revisions⟩ := ref
  simp only [storedActiveRefFromHistory] at hgen hsource hrev
  rw [hgen, hsource, hrev]
  rfl

/-- **Progress of the bindings of one source.** With room in the catalogue, a binding can go on
exactly when it records no active generation or the one the manifest selects; and in a run where
the manifest moves only while no other binding records an active generation, every binding can. -/
theorem progress_of_steady [DecidableEq ρ] {w : World π ρ δ} (hw : CollectorReachable env w)
    (hsource : ∀ b₁ ∈ w.store.states, ∀ b₂ ∈ w.store.states, b₁.source.nodeId = b₂.source.nodeId)
    (hroom : HasRoom env w) :
    (∀ b s, w.store.states.lookup b = some s →
        (Progress env w b s ↔ s.active = none ∨ Selected w.store b s)) ∧
      (SteadyReachable env w → ∀ b s, w.store.states.lookup b = some s → Progress env w b s) := by
  have hrows := collectorReachable_rows hw
  have hswitch := collectorReachable_switch hw
  refine ⟨fun b s hs => ⟨fun hp => ?_, fun hp => ?_⟩, fun hsteady b s hs => ?_⟩
  · rcases hp with hp | hp
    · exact .inr hp
    · cases ha : s.active with
      | none => exact .inl rfl
      | some a => exact .inr (selected_of_canBootstrap hp ha)
  · rcases hp with hp | hp
    · exact .inr (canBootstrap hrows hswitch hsource hroom hs hp)
    · exact .inl hp
  · cases ha : s.active with
    | none => exact .inr (canBootstrap hrows hswitch hsource hroom hs ha)
    | some a => exact .inl ⟨a, ha, steadyReachable_selected hsteady b s (.inl hs) a ha⟩

end

/-! ## Returning to a binding after another one activated -/

namespace Sample

def active : StoredRemoteDeltaIngestState (List Nat) :=
  { opened with active := some ⟨generation, ⟨7, 2⟩, none⟩ }

/-- The first binding activated its generation, and its session is closed. -/
def activated : World (List Nat) (List Nat) (List Nat) := { committed with
  store := { committed.store with
    states := committed.store.states.insert binding active
    manifest := some ⟨generation, sourceHistoryBinding binding, 0⟩ }
  session := none }

/-- The same source and revisions, with a wider window. -/
def widerBinding : RemoteDeltaIngestBinding := { binding with rangePolicy := ⟨120, 0, false⟩ }

def widerGeneration : RemoteHistoryGenerationId := "ingest-gen-fedcba9876543210fedcba9876543210"

def widerRequest : DeltaRequest := ⟨none, ⟨0, minutes 120⟩, 0, false, none⟩

def widerPending : StoredPendingPage (List Nat) where
  id := pending.id
  target := .staging widerGeneration
  request := ⟨4, some binding.source, .redacted, .delta widerRequest⟩
  response := ⟨binding.source, .redacted, binding.revisions, 0, .delta deltaPage [10, 20]⟩
  receivedAt := 0

def widerPage : PreparedRemoteDeltaPage (List Nat) :=
  ⟨widerPending.id, widerPending.target, [10, 20], ⟨7, 2⟩, false⟩

def widerOpened : StoredRemoteDeltaIngestState (List Nat) := .new widerBinding
def replaced : Option StoredRemoteHistoryActiveRef :=
  some ⟨generation, binding.source, binding.revisions⟩
def widerStaged : StoredRemoteDeltaIngestState (List Nat) :=
  { widerOpened with bootstrap := some ⟨widerGeneration, replaced, none, none, false⟩ }
def widerPrepared : StoredRemoteDeltaIngestState (List Nat) :=
  { widerOpened with
    bootstrap := some ⟨widerGeneration, replaced, some widerRequest.range, none, false⟩
    pending := some widerPending }
def widerMarked : StoredRemoteDeltaIngestState (List Nat) :=
  { widerOpened with
    bootstrap := some ⟨widerGeneration, replaced, some widerRequest.range, some ⟨7, 2⟩, true⟩ }
def widerActive : StoredRemoteDeltaIngestState (List Nat) :=
  { widerOpened with
    active := some ⟨widerGeneration, ⟨7, 2⟩, none⟩
    retiredGenerations := [generation] }

def widerBegun : World (List Nat) (List Nat) (List Nat) := { activated with
  store := { activated.store with
    states := activated.store.states.insert widerBinding widerOpened }
  session := some ⟨widerBinding, widerOpened⟩ }

def widerBootstrapped : World (List Nat) (List Nat) (List Nat) := { widerBegun with
  store := { widerBegun.store with
    states := widerBegun.store.states.insert widerBinding widerStaged
    generations := widerBegun.store.generations.insert widerGeneration
      (sourceHistoryBinding widerBinding) }
  session := some ⟨widerBinding, widerStaged⟩
  issued := Function.update widerBegun.issued widerGeneration (some widerBinding) }

def widerCommitted : World (List Nat) (List Nat) (List Nat) := { widerBootstrapped with
  store := { widerBootstrapped.store with
    states := widerBootstrapped.store.states.insert widerBinding widerMarked
    data := Function.update widerBootstrapped.store.data widerGeneration [10, 20] }
  session := some ⟨widerBinding, widerMarked⟩
  applied := Function.update widerBootstrapped.applied widerGeneration
    [⟨widerRequest, deltaPage, [10, 20]⟩] }

def widerActivated : World (List Nat) (List Nat) (List Nat) := { widerCommitted with
  store := { widerCommitted.store with
    states := widerCommitted.store.states.insert widerBinding widerActive
    manifest := some ⟨widerGeneration, sourceHistoryBinding widerBinding, 0⟩ }
  session := some ⟨widerBinding, widerActive⟩ }

theorem step_activated : Step env committed { activated with session := some ⟨binding, active⟩ } :=
  .activate 0 rfl rfl

theorem activated_reachable : Reachable env activated :=
  .step (.step reachable step_activated) (.crash _)

theorem wider_reachable : Reachable env widerActivated := by
  have h1 : Step env activated widerBegun := .begin widerBinding rfl rfl
  have h2 : Step env widerBegun widerBootstrapped :=
    .bootstrap ⟨widerBinding, widerOpened⟩ widerGeneration true rfl rfl rfl rfl rfl
  have hp : preparePage env ⟨widerBinding, widerStaged⟩ widerPending.request
      widerPending.response 0 = .ok (⟨widerBinding, widerPrepared⟩, widerPage) := rfl
  have h3 : Step env widerBootstrapped
      { widerBootstrapped with session := some ⟨widerBinding, widerPrepared⟩ } :=
    .prepare widerPending.request widerPending.response 0 rfl hp
  have h4 : Step env { widerBootstrapped with session := some ⟨widerBinding, widerPrepared⟩ }
      widerCommitted := .apply widerPage 0 rfl rfl rfl rfl rfl
  have h5 : Step env widerCommitted widerActivated := .activate 0 rfl rfl
  exact .step (.step (.step (.step (.step activated_reachable h1) h2) h3) h4) h5

theorem activated_steady : SteadyReachable env activated := by
  have hsteady : Steady committed { activated with session := some ⟨binding, active⟩ } := by
    intro _ σ hσ b s hne hs
    cases hσ
    -- the only state is the session's own
    have hkeys : committed.store.states.keys = [binding] := rfl
    have hmem : b ∈ committed.store.states.keys := AList.lookup_isSome.1 (by rw [hs]; rfl)
    rw [hkeys] at hmem
    exact absurd (List.mem_singleton.1 hmem) hne
  have hstay : ∀ {w w' : World (List Nat) (List Nat) (List Nat)},
      w'.store.manifest = w.store.manifest → Steady w w' :=
    fun heq hne => absurd (congrArg _ heq) hne
  exact .step (.step (.step (.step (.step (.step (.step .init (.ingest step_begun) (hstay rfl))
    (.ingest step_interrupted) (hstay rfl)) (.ingest step_bootstrapped) (hstay rfl))
    (.ingest step_prepared) (hstay rfl)) (.ingest step_committed) (hstay rfl))
    (.ingest step_activated) hsteady) (.ingest (.crash _)) (hstay rfl)

theorem activated_states (hb : b ∈ activated.store.states) : b = binding := by
  have hkeys : activated.store.states.keys = [binding] := rfl
  have hb : b ∈ activated.store.states.keys := hb
  rw [hkeys] at hb
  exact List.mem_singleton.1 hb

end Sample

/-- The activated binding of the sample run records what the manifest selects. -/
theorem progress_of_steady_sample :
    Progress Sample.env Sample.activated Sample.binding Sample.active := by
  have hsource : ∀ b₁ ∈ Sample.activated.store.states, ∀ b₂ ∈ Sample.activated.store.states,
      b₁.source.nodeId = b₂.source.nodeId := by
    intro b₁ h₁ b₂ h₂
    rw [Sample.activated_states h₁, Sample.activated_states h₂]
  have hroom : HasRoom Sample.env Sample.activated := by
    refine ⟨by decide, fun b s _ g e => ?_⟩
    change 4096 ≤ 64 * 1024 * 1024
    omega
  exact (progress_of_steady Sample.activated_steady.collector hsource hroom).2
    Sample.activated_steady _ _ (AList.lookup_insert _)

/-- After a second binding of the same source and revisions activated its generation, the first
one, whose state still records its own, can neither apply active pages nor bootstrap, although the
catalogue has room and no revision would roll back. -/
theorem returning_binding_is_wedged :
    CollectorReachable Sample.env Sample.widerActivated ∧
      HasRoom Sample.env Sample.widerActivated ∧
      HistoryStore.validateBindingDoesNotRollBack (sourceHistoryBinding Sample.widerBinding)
        (sourceHistoryBinding Sample.binding) = .ok () ∧
      Sample.widerActivated.store.states.lookup Sample.binding = some Sample.active ∧
      ¬ Progress Sample.env Sample.widerActivated Sample.binding Sample.active := by
  refine ⟨Sample.wider_reachable.collector, ⟨by decide, fun b s _ g e => ?_⟩, rfl, rfl, ?_⟩
  · change 4096 ≤ 64 * 1024 * 1024
    omega
  · rintro (⟨a, ha, href⟩ | ⟨expected, hexp, -⟩)
    · cases ha
      revert href
      decide
    · cases hexp

end Ingest
