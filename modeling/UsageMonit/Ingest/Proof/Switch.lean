import UsageMonit.Ingest.Proof.Collect

/-!
# The generations of the bindings of one source stay apart

Each binding names generations of its own while the manifest is shared. `SwitchInv` says that what
one binding stages is never what another one retired, and that what the manifest selects is neither
staged nor retired anywhere. `SwitchInv.frame` covers the steps that only forget names; a bootstrap
and an activation have lemmas of their own.
-/

namespace Ingest

open Fallible Time Protocol

section
variable {π ρ δ : Type} {env : IngestEnv π ρ δ} {s : StoredRemoteDeltaIngestState π}
  {σ σ' : RemoteDeltaIngestSession π} {h : HistoryStore π δ}
  {applied : RemoteHistoryGenerationId → List (AppliedPage ρ)} {w : World π ρ δ}

/-! ## The invariant -/

/-- A state of a binding: its row, or the copy of the session. -/
def Copy (w : World π ρ δ) (b : RemoteDeltaIngestBinding)
    (s : StoredRemoteDeltaIngestState π) : Prop :=
  w.store.states.lookup b = some s ∨ w.session = some ⟨b, s⟩

/-- The generations a state of `b` names, against the ids issued so far and the manifest. -/
structure Apart (w : World π ρ δ) (b : RemoteDeltaIngestBinding)
    (s : StoredRemoteDeltaIngestState π) : Prop where
  active : ∀ a, s.active = some a → w.issued a.generation = some b
  bootstrap : ∀ x, s.bootstrap = some x → w.issued x.generation = some b
  retired : ∀ g ∈ s.retiredGenerations, w.issued g ≠ none
  manifest : ∀ m, w.store.manifest = some m → m.activeGeneration ∉ s.retiredGenerations ∧
    ∀ x, s.bootstrap = some x → x.generation ≠ m.activeGeneration

structure SwitchInv (w : World π ρ δ) : Prop where
  rows : ∀ g ∈ w.store.generations, w.issued g ≠ none
  manifest : ∀ m, w.store.manifest = some m → w.issued m.activeGeneration ≠ none ∧
    validateGenerationId m.activeGeneration = .ok () ∧
    ∃ b ∈ w.store.states, m.binding = sourceHistoryBinding b
  copies : ∀ b s, Copy w b s → Apart w b s
  others : ∀ b s b' s', Copy w b s → Copy w b' s' → b ≠ b' →
    ∀ x, s.bootstrap = some x → x.generation ∉ s'.retiredGenerations

theorem switch_init : SwitchInv (World.init env) := by
  refine ⟨fun g hg => ?_, fun m hm => ?_, fun b s hc => ?_, fun b s b' s' hc => ?_⟩
  · cases hg
  · cases hm
  · rcases hc with hc | hc <;> cases hc
  · rcases hc with hc | hc <;> cases hc

/-- A state that names at most the generations of another one. -/
structure Within (s s₀ : StoredRemoteDeltaIngestState π) : Prop where
  active : ∀ a, s.active = some a → ∃ a₀, s₀.active = some a₀ ∧ a₀.generation = a.generation
  bootstrap : ∀ x, s.bootstrap = some x →
    ∃ x₀, s₀.bootstrap = some x₀ ∧ x₀.generation = x.generation
  retired : s.retiredGenerations ⊆ s₀.retiredGenerations

theorem Within.refl (s : StoredRemoteDeltaIngestState π) : Within s s :=
  ⟨fun a ha => ⟨a, ha, rfl⟩, fun x hx => ⟨x, hx, rfl⟩, fun _ hg => hg⟩

theorem Apart.within {b : RemoteDeltaIngestBinding} {s₀ : StoredRemoteDeltaIngestState π}
    (h : Apart w b s₀) (hs : Within s s₀) : Apart w b s := by
  refine ⟨fun a ha => ?_, fun x hx => ?_, fun g hg => h.retired g (hs.retired hg), fun m hm => ?_⟩
  · obtain ⟨a₀, ha₀, hgen⟩ := hs.active a ha
    rw [← hgen]
    exact h.active a₀ ha₀
  · obtain ⟨x₀, hx₀, hgen⟩ := hs.bootstrap x hx
    rw [← hgen]
    exact h.bootstrap x₀ hx₀
  · obtain ⟨hret, hboot⟩ := h.manifest m hm
    refine ⟨fun hg => hret (hs.retired hg), fun x hx => ?_⟩
    obtain ⟨x₀, hx₀, hgen⟩ := hs.bootstrap x hx
    rw [← hgen]
    exact hboot x₀ hx₀

/-- A step that keeps what the manifest refers to, where every copy names at most what a copy of
the same binding named before. -/
theorem SwitchInv.frame {w' : World π ρ δ} (hw : SwitchInv w) (hissued : w'.issued = w.issued)
    (hrows : ∀ g ∈ w'.store.generations, w.issued g ≠ none)
    (href : w'.store.manifest.map (·.ref) = w.store.manifest.map (·.ref))
    (hkeys : ∀ b ∈ w.store.states, b ∈ w'.store.states) (hcopies : ∀ b s, Copy w' b s →
      s = StoredRemoteDeltaIngestState.new b ∨ ∃ s₀, Copy w b s₀ ∧ Within s s₀) : SwitchInv w' := by
  have hmanifest : ∀ m, w'.store.manifest = some m →
      ∃ m₀, w.store.manifest = some m₀ ∧ m₀.activeGeneration = m.activeGeneration ∧
        m₀.binding = m.binding := by
    intro m hm
    rw [hm] at href
    obtain ⟨m₀, hm₀, heq⟩ := Option.map_eq_some_iff.1 href.symm
    exact ⟨m₀, hm₀, congrArg SourceHistoryRemoteActiveRef.generation heq,
      congrArg SourceHistoryRemoteActiveRef.binding heq⟩
  refine ⟨fun g hg => ?_, fun m hm => ?_, fun b s hc => ?_, fun b s b' s' hc hc' hne x hx => ?_⟩
  · rw [hissued]
    exact hrows g hg
  · obtain ⟨m₀, hm₀, hgen, hbind⟩ := hmanifest m hm
    obtain ⟨hi, hv, b, hb, heq⟩ := hw.manifest m₀ hm₀
    rw [hissued, ← hgen, ← hbind]
    exact ⟨hi, hv, b, hkeys b hb, heq⟩
  · have hapart : Apart w b s := by
      rcases hcopies b s hc with rfl | ⟨s₀, hc₀, hwithin⟩
      · refine ⟨fun a ha => ?_, fun x hx => ?_, fun g hg => ?_, fun m _ => ⟨?_, fun x hx => ?_⟩⟩
        · cases ha
        · cases hx
        · cases hg
        · exact List.not_mem_nil
        · cases hx
      · exact (hw.copies b s₀ hc₀).within hwithin
    refine ⟨?_, ?_, ?_, fun m hm => ?_⟩
    · rw [hissued]
      exact hapart.active
    · rw [hissued]
      exact hapart.bootstrap
    · rw [hissued]
      exact hapart.retired
    · obtain ⟨m₀, hm₀, hgen, -⟩ := hmanifest m hm
      rw [← hgen]
      exact hapart.manifest m₀ hm₀
  · rcases hcopies b s hc with rfl | ⟨s₀, hc₀, hwithin⟩
    · cases hx
    · obtain ⟨x₀, hx₀, hgen⟩ := hwithin.bootstrap x hx
      rcases hcopies b' s' hc' with rfl | ⟨s₀', hc₀', hwithin'⟩
      · exact List.not_mem_nil
      · rw [← hgen]
        exact fun hg => hw.others b s₀ b' s₀' hc₀ hc₀' hne x₀ hx₀ (hwithin'.retired hg)

/-! ## What the operations do to the generations a state names -/

theorem markedState_within {s' : StoredRemoteDeltaIngestState π} {id : String}
    (h : markedState s id = .ok s') : Within s' s := by
  obtain ⟨p, -, h⟩ := bind_ok h
  obtain ⟨_, -, h⟩ := bind_ok h
  obtain ⟨delta, -, h⟩ := bind_ok h
  obtain ⟨⟨page, _⟩, -, h⟩ := bind_ok h
  simp only at h
  split at h
  · obtain ⟨active, hactive, h⟩ := bind_ok h
    obtain ⟨_, -, h⟩ := bind_ok h
    cases h
    refine ⟨fun a ha => ?_, fun x hx => ⟨x, hx, rfl⟩, fun _ hg => hg⟩
    cases ha
    exact ⟨active, okOr_ok.1 hactive, rfl⟩
  · obtain ⟨bootstrap, hbootstrap, h⟩ := bind_ok h
    obtain ⟨_, -, h⟩ := bind_ok h
    cases h
    refine ⟨fun a ha => ⟨a, ha, rfl⟩, fun x hx => ?_, fun _ hg => hg⟩
    cases hx
    exact ⟨bootstrap, okOr_ok.1 hbootstrap, rfl⟩

theorem markedState_staging {s' : StoredRemoteDeltaIngestState π} {id : String}
    {p : StoredPendingPage π} {g : RemoteHistoryGenerationId} (hp : s.pending = some p)
    (ht : p.target = .staging g) (h : markedState s id = .ok s') :
    ∃ x, s.bootstrap = some x ∧ x.generation = g := by
  unfold markedState at h
  rw [hp] at h
  obtain ⟨p', hp', h⟩ := bind_ok h
  cases hp'
  obtain ⟨_, -, h⟩ := bind_ok h
  obtain ⟨delta, -, h⟩ := bind_ok h
  obtain ⟨⟨page, _⟩, -, h⟩ := bind_ok h
  simp only [ht] at h
  obtain ⟨bootstrap, hbootstrap, h⟩ := bind_ok h
  obtain ⟨_, hgen, -⟩ := bind_ok h
  exact ⟨bootstrap, okOr_ok.1 hbootstrap, ensure_ok.1 hgen⟩

theorem preparePage_within {request : RemoteExportRequest} {response : RemoteDeltaResponse π}
    {t : DateTime} {page : PreparedRemoteDeltaPage ρ}
    (hp : preparePage env σ request response t = .ok (σ', page)) : Within σ'.state σ.state := by
  obtain ⟨_, -, hp⟩ := bind_ok hp
  obtain ⟨_, -, hp⟩ := bind_ok hp
  obtain ⟨delta, -, hp⟩ := bind_ok hp
  iterate 6 obtain ⟨_, -, hp⟩ := bind_ok hp
  cases hp
  refine ⟨fun a ha => ⟨a, ha, rfl⟩, fun x hx => ?_, fun _ hg => hg⟩
  obtain ⟨x₀, hx₀, rfl⟩ := Option.map_eq_some_iff.1 hx
  exact ⟨x₀, hx₀, rfl⟩

theorem mem_queueRetired {r : Option RemoteHistoryGenerationId} {g : RemoteHistoryGenerationId} :
    g ∈ (queueRetired s r).retiredGenerations ↔ g ∈ s.retiredGenerations ∨ r = some g := by
  cases r with
  | none => simp [queueRetired]
  | some r =>
    simp only [queueRetired, queueRetiredGeneration, Option.some.injEq]
    split
    · constructor
      · exact .inl
      · rintro (h | rfl)
        · exact h
        · assumption
    · simp [eq_comm]

theorem activatedState_names {s' : StoredRemoteDeltaIngestState π}
    {activation : RemoteBootstrapActivation} (h : activatedState s activation = .ok s') :
    s'.bootstrap = none ∧ s'.active = some ⟨activation.generation, activation.cursor, none⟩ ∧
      ∃ x, s.bootstrap = some x ∧ x.generation = activation.generation ∧
        ∀ g, g ∈ s'.retiredGenerations ↔
          g ∈ s.retiredGenerations ∨ x.expectedActive.map (·.generation) = some g := by
  obtain ⟨_, -, h⟩ := bind_ok h
  obtain ⟨x, hx, h⟩ := bind_ok h
  obtain ⟨_, hready, h⟩ := bind_ok h
  cases h
  refine ⟨rfl, ?_, x, okOr_ok.1 hx, (ensure_ok.1 hready).2.2, fun g => mem_queueRetired⟩
  simp only [queueRetired_active]

theorem activate_names {h' : HistoryStore π δ} {t : DateTime}
    (ha : activateRemoteDeltaBootstrap env h σ t = .ok (some (h', σ'))) :
    ∃ x c, σ.state.bootstrap = some x ∧ σ'.state.bootstrap = none ∧
      σ'.state.active = some ⟨x.generation, c, none⟩ ∧
      (∀ g, g ∈ σ'.state.retiredGenerations ↔
        g ∈ σ.state.retiredGenerations ∨ x.expectedActive.map (·.generation) = some g) ∧
      h'.generations = h.generations ∧
      h'.manifest.map (·.ref) = some ⟨x.generation, sourceHistoryBinding σ.binding⟩ ∧
      (h.manifest.map (·.ref) = some ⟨x.generation, sourceHistoryBinding σ.binding⟩ ∨
        h.manifest.map (·.ref) = x.expectedActive.map sourceHistoryActiveRef) := by
  unfold activateRemoteDeltaBootstrap at ha
  split at ha
  · cases ha
  · obtain ⟨h₁, hact, ha⟩ := bind_ok ha
    obtain ⟨next, hnext, ha⟩ := bind_ok ha
    obtain ⟨h₂, hwrite, ha⟩ := bind_ok ha
    cases ha
    obtain ⟨-, rfl⟩ := writeState_ok hwrite
    obtain ⟨hnone, hactive, x, hx, hgen, hret⟩ := activatedState_names hnext
    obtain ⟨-, hgens, -, hafter, hbefore⟩ := activateRemoteGeneration_rows hact
    rw [hx] at hbefore
    rw [← hgen] at hactive hafter hbefore
    exact ⟨x, _, hx, hnone, hactive, hret, hgens, hafter, hbefore⟩

/-! ## Steps -/

section
theorem copy_written {next : StoredRemoteDeltaIngestState π}
    {issued : RemoteHistoryGenerationId → Option RemoteDeltaIngestBinding}
    (hstates : h.states = w.store.states.insert σ.binding { next with pending := none })
    (hb : σ'.binding = σ.binding) {b : RemoteDeltaIngestBinding}
    (hc : Copy ⟨h, some σ', applied, issued⟩ b s) :
    (b = σ.binding ∧ (s = { next with pending := none } ∨ s = σ'.state)) ∨
      (b ≠ σ.binding ∧ w.store.states.lookup b = some s) := by
  rcases hc with hc | hc
  · simp only [hstates] at hc
    rcases lookup_insert_cases hc with ⟨rfl, rfl⟩ | ⟨hne, hc⟩
    · exact .inl ⟨rfl, .inl rfl⟩
    · exact .inr ⟨hne, hc⟩
  · cases hc
    exact .inl ⟨hb, .inr rfl⟩

variable (hw : SwitchInv w)
include hw

theorem switch_write {next : StoredRemoteDeltaIngestState π} (hσ : w.session = some σ)
    (hrows : ∀ g ∈ h.generations, w.issued g ≠ none)
    (href : h.manifest.map (·.ref) = w.store.manifest.map (·.ref))
    (hstates : h.states = w.store.states.insert σ.binding { next with pending := none })
    (hb : σ'.binding = σ.binding) (hs : σ'.state = next ∨ σ'.state = σ.state)
    (hnext : Within next σ.state) : SwitchInv ⟨h, some σ', applied, w.issued⟩ := by
  refine hw.frame rfl hrows href (fun b hb => ?_) fun b s hc => ?_
  · rw [hstates]
    exact AList.mem_insert _ |>.2 (.inr hb)
  · rcases copy_written hstates hb hc with ⟨rfl, rfl | rfl⟩ | ⟨-, hc⟩
    · exact .inr ⟨σ.state, .inr hσ, ⟨hnext.active, hnext.bootstrap, hnext.retired⟩⟩
    · rcases hs with hs | hs
      · rw [hs]
        exact .inr ⟨σ.state, .inr hσ, hnext⟩
      · rw [hs]
        exact .inr ⟨σ.state, .inr hσ, .refl _⟩
    · exact .inr ⟨s, .inl hc, .refl s⟩

theorem switch_store (hstates : h.states = w.store.states)
    (hmanifest : h.manifest = w.store.manifest)
    (hrows : ∀ g ∈ h.generations, g ∈ w.store.generations) :
    SwitchInv ⟨h, w.session, applied, w.issued⟩ := by
  refine hw.frame rfl (fun g hg => hw.rows g (hrows g hg)) ?_ (fun b hb => ?_) fun b s hc => ?_
  · rw [hmanifest]
  · rw [hstates]
    exact hb
  · refine .inr ⟨s, ?_, .refl s⟩
    rcases hc with hc | hc
    · simp only [hstates] at hc
      exact .inl hc
    · exact .inr hc

theorem switch_issue {b : RemoteDeltaIngestBinding} {r : RemoteHistoryGenerationId}
    (hfresh : w.issued r = none)
    (he : w.store.ensureRemoteGeneration r (sourceHistoryBinding b) = .ok h) :
    SwitchInv { w with store := h, issued := Function.update w.issued r (some b) } := by
  have hstates := (ensureRemoteGeneration_ok he).1
  have hmanifest : h.manifest = w.store.manifest := by
    rcases ensureRemoteGeneration_rows he with ⟨rfl, -⟩ | ⟨-, -, rfl⟩
    · rfl
    · rfl
  have hkeep : ∀ g, w.issued g ≠ none → Function.update w.issued r (some b) g = w.issued g := by
    intro g hg
    refine Function.update_of_ne ?_ _ _
    rintro rfl
    exact hg hfresh
  have hkeep' : ∀ g b', w.issued g = some b' →
      Function.update w.issued r (some b) g = some b' := by
    intro g b' hg
    rw [hkeep g (by rw [hg]; exact Option.some_ne_none _), hg]
  have hcopy : ∀ b' s, Copy { w with
      store := h, issued := Function.update w.issued r (some b) } b' s → Copy w b' s := by
    rintro b' s (hc | hc)
    · simp only [hstates] at hc
      exact .inl hc
    · exact .inr hc
  refine ⟨fun g hg => ?_, fun m hm => ?_, fun b' s hc => ?_, fun b₁ s₁ b₂ s₂ hc₁ hc₂ => ?_⟩
  · by_cases hr : g = r
    · subst hr
      simp
    · have hold : g ∈ w.store.generations := by
        rcases ensureRemoteGeneration_rows he with ⟨rfl, -⟩ | ⟨-, -, rfl⟩
        · exact hg
        · exact (AList.mem_insert _ |>.1 hg).resolve_left hr
      simp only [hkeep g (hw.rows g hold)]
      exact hw.rows g hold
  · simp only [hmanifest] at hm
    obtain ⟨hi, hv, b', hb', heq⟩ := hw.manifest m hm
    simp only [hkeep _ hi, hstates]
    exact ⟨hi, hv, b', hb', heq⟩
  · obtain ⟨ha, hx, hret, hm⟩ := hw.copies b' s (hcopy b' s hc)
    refine ⟨fun a h => hkeep' _ _ (ha a h), fun x h => hkeep' _ _ (hx x h), fun g hg => ?_, ?_⟩
    · simp only [hkeep g (hret g hg)]
      exact hret g hg
    · simp only [hmanifest]
      exact hm
  · exact hw.others b₁ s₁ b₂ s₂ (hcopy b₁ s₁ hc₁) (hcopy b₂ s₂ hc₂)

theorem switch_bootstrap {r : RemoteHistoryGenerationId} {e : Option StoredRemoteHistoryActiveRef}
    (hσ : w.session = some σ) (hissued : w.issued r = some σ.binding)
    (hret : ∀ b s, Copy w b s → r ∉ s.retiredGenerations)
    (hman : ∀ m, w.store.manifest = some m → r ≠ m.activeGeneration)
    (hwrite : writeState env w.store σ.binding (freshBootstrapState σ.state r e) = .ok h)
    (hb : σ'.binding = σ.binding)
    (hs : σ'.state = freshBootstrapState σ.state r e ∨ σ'.state = σ.state) :
    SwitchInv { w with store := h, session := some σ' } := by
  obtain ⟨-, rfl⟩ := writeState_ok hwrite
  have hown := hw.copies σ.binding σ.state (.inr hσ)
  -- what the published state names
  have hactive : ∀ a, (freshBootstrapState σ.state r e).active = some a →
      σ.state.active = some a := by
    intro a ha
    simpa [freshBootstrapState] using ha
  have hboot : ∀ x, (freshBootstrapState σ.state r e).bootstrap = some x →
      x.generation = r := by
    intro x hx
    simp only [freshBootstrapState, queueRetired_bootstrap, Option.some.injEq] at hx
    rw [← hx]
  have hretired : ∀ g, g ∈ (freshBootstrapState σ.state r e).retiredGenerations →
      g ∈ σ.state.retiredGenerations ∨ ∃ x, σ.state.bootstrap = some x ∧ x.generation = g := by
    intro g hg
    rcases mem_queueRetired.1 hg with hg | hg
    · exact .inl hg
    · exact .inr (Option.map_eq_some_iff.1 hg)
  have hnext : Apart w σ.binding (freshBootstrapState σ.state r e) := by
    refine ⟨fun a ha => hown.active a (hactive a ha), fun x hx => ?_, fun g hg => ?_,
      fun m hm => ⟨fun hg => ?_, fun x hx => ?_⟩⟩
    · rw [hboot x hx]
      exact hissued
    · rcases hretired g hg with hg | ⟨x, hx, rfl⟩
      · exact hown.retired g hg
      · rw [hown.bootstrap x hx]
        exact Option.some_ne_none _
    · rcases hretired _ hg with hg | ⟨x, hx, hgen⟩
      · exact (hown.manifest m hm).1 hg
      · exact (hown.manifest m hm).2 x hx hgen
    · rw [hboot x hx]
      exact hman m hm
  have hcopies : ∀ b s, Copy { w with
        store := { w.store with
          states := w.store.states.insert σ.binding
            { freshBootstrapState σ.state r e with pending := none } }
        session := some σ' } b s →
      (b = σ.binding ∧ (s = { freshBootstrapState σ.state r e with pending := none } ∨
          s = freshBootstrapState σ.state r e)) ∨ Copy w b s := by
    intro b s hc
    rcases copy_written (w := w) (σ := σ) rfl hb hc with ⟨rfl, rfl | rfl⟩ | ⟨-, hc⟩
    · exact .inl ⟨rfl, .inl rfl⟩
    · rcases hs with hs | hs
      · exact .inl ⟨rfl, .inr hs⟩
      · refine .inr (.inr ?_)
        rw [hσ, hs]
    · exact .inr (.inl hc)
  refine ⟨hw.rows, fun m hm => ?_, fun b s hc => ?_, fun b s b' s' hc hc' hne x hx hg => ?_⟩
  · obtain ⟨hi, hv, b, hmem, heq⟩ := hw.manifest m hm
    exact ⟨hi, hv, b, AList.mem_insert _ |>.2 (.inr hmem), heq⟩
  · have hapart : Apart w b s := by
      rcases hcopies b s hc with ⟨rfl, rfl | rfl⟩ | hc
      · exact ⟨hnext.active, hnext.bootstrap, hnext.retired, hnext.manifest⟩
      · exact hnext
      · exact hw.copies b s hc
    exact ⟨hapart.active, hapart.bootstrap, hapart.retired, hapart.manifest⟩
  · have hother : ∀ b s, Copy w b s → b ≠ σ.binding → ∀ x, s.bootstrap = some x →
        x.generation ∉ (freshBootstrapState σ.state r e).retiredGenerations := by
      intro b s hc hne x hx hg
      rcases hretired _ hg with hg | ⟨y, hy, hgen⟩
      · exact hw.others b s _ _ hc (.inr hσ) hne x hx hg
      · have hi := (hw.copies b s hc).bootstrap x hx
        rw [← hgen, hown.bootstrap y hy] at hi
        exact hne (Option.some.inj hi).symm
    rcases hcopies b s hc with ⟨rfl, hs₁⟩ | hc₁
    · have hx : x.generation = r := by
        rcases hs₁ with rfl | rfl
        · exact hboot x hx
        · exact hboot x hx
      rw [hx] at hg
      rcases hcopies b' s' hc' with ⟨rfl, -⟩ | hc₂
      · exact hne rfl
      · exact hret b' s' hc₂ hg
    · rcases hcopies b' s' hc' with ⟨rfl, hs₂⟩ | hc₂
      · rcases hs₂ with rfl | rfl
        · exact hother b s hc₁ hne x hx hg
        · exact hother b s hc₁ hne x hx hg
      · exact hw.others b s b' s' hc₁ hc₂ hne x hx hg

/-- Activating the session's bootstrap. The generation it replaces is the manifest's, which no
other binding has as its bootstrap. -/
theorem switch_activate {t : DateTime} (hσ : w.session = some σ)
    (ha : activateRemoteDeltaBootstrap env w.store σ t = .ok (some (h, σ'))) :
    SwitchInv { w with store := h, session := some σ' } := by
  obtain ⟨hb, hv, hstates, -, -⟩ := activate_ok ha
  obtain ⟨x, c, hx, hnone, hactive, hret, hgens, hafter, hbefore⟩ := activate_names ha
  have hown := hw.copies σ.binding σ.state (.inr hσ)
  have hexpected : w.store.manifest.map (·.ref) = x.expectedActive.map sourceHistoryActiveRef := by
    refine hbefore.resolve_left fun hcur => ?_
    obtain ⟨m, hm, heq⟩ := Option.map_eq_some_iff.1 hcur
    exact (hown.manifest m hm).2 x hx (congrArg SourceHistoryRemoteActiveRef.generation heq).symm
  -- what was retired by this activation was the manifest's generation
  have hretired : ∀ g, g ∈ σ'.state.retiredGenerations → g ∈ σ.state.retiredGenerations ∨
      ∃ m, w.store.manifest = some m ∧ m.activeGeneration = g := by
    intro g hg
    refine ((hret g).1 hg).imp_right fun hexp => ?_
    obtain ⟨e, he, rfl⟩ := Option.map_eq_some_iff.1 hexp
    rw [he] at hexpected
    obtain ⟨m, hm, heq⟩ := Option.map_eq_some_iff.1 hexpected
    exact ⟨m, hm, congrArg SourceHistoryRemoteActiveRef.generation heq⟩
  have hmanifest : ∀ m, h.manifest = some m → m.activeGeneration = x.generation ∧
      m.binding = sourceHistoryBinding σ.binding := by
    intro m hm
    rw [hm] at hafter
    have heq : m.ref = ⟨x.generation, sourceHistoryBinding σ.binding⟩ := Option.some.inj hafter
    exact ⟨congrArg SourceHistoryRemoteActiveRef.generation heq,
      congrArg SourceHistoryRemoteActiveRef.binding heq⟩
  have hissued := hown.bootstrap x hx
  have hfresh : x.generation ∉ σ'.state.retiredGenerations := fun hg =>
    not_commits_of_retired hv hg _ (.inl ⟨_, hactive, rfl, rfl⟩)
  have hcopies : ∀ b s, Copy { w with store := h, session := some σ' } b s →
      (b = σ.binding ∧ s.bootstrap = none ∧ s.active = σ'.state.active ∧
          s.retiredGenerations = σ'.state.retiredGenerations) ∨
        (b ≠ σ.binding ∧ Copy w b s) := by
    intro b s hc
    rcases copy_written hstates hb hc with ⟨rfl, rfl | rfl⟩ | ⟨hne, hc⟩
    · exact .inl ⟨rfl, hnone, rfl, rfl⟩
    · exact .inl ⟨rfl, hnone, rfl, rfl⟩
    · exact .inr ⟨hne, .inl hc⟩
  refine ⟨fun g hg => ?_, fun m hm => ?_, fun b s hc => ?_, fun b s b' s' hc hc' hne y hy hg => ?_⟩
  · simp only [hgens] at hg
    exact hw.rows g hg
  · obtain ⟨hgen, hbind⟩ := hmanifest m hm
    refine ⟨?_, ?_, σ.binding, ?_, hbind⟩
    · simp only [hgen, hissued]
      exact Option.some_ne_none _
    · rw [hgen]
      exact (validate_active hv hactive)
    · simp only [hstates]
      exact AList.mem_insert _ |>.2 (.inl rfl)
  · rcases hcopies b s hc with ⟨rfl, hbnone, hact, hretEq⟩ | ⟨hne, hc⟩
    · refine ⟨fun a ha' => ?_, fun y hy => ?_, fun g hg => ?_, fun m hm => ⟨?_, fun y hy => ?_⟩⟩
      · rw [hact, hactive] at ha'
        cases ha'
        exact hissued
      · rw [hbnone] at hy
        cases hy
      · rw [hretEq] at hg
        rcases hretired g hg with hg | ⟨m, hm, rfl⟩
        · exact hown.retired g hg
        · exact (hw.manifest m hm).1
      · rw [(hmanifest m hm).1, hretEq]
        exact hfresh
      · rw [hbnone] at hy
        cases hy
    · obtain ⟨hact, hboot, hretd, -⟩ := hw.copies b s hc
      refine ⟨hact, hboot, hretd, fun m hm => ?_⟩
      rw [(hmanifest m hm).1]
      refine ⟨hw.others _ _ b s (.inr hσ) hc hne.symm x hx, fun y hy heq => ?_⟩
      have hi := hboot y hy
      rw [heq, hissued] at hi
      exact hne (Option.some.inj hi).symm
  · rcases hcopies b s hc with ⟨rfl, hbnone, -, -⟩ | ⟨hneb, hcb⟩
    · rw [hbnone] at hy
      cases hy
    · rcases hcopies b' s' hc' with ⟨rfl, -, -, hretEq⟩ | ⟨-, hcb'⟩
      · rw [hretEq] at hg
        rcases hretired _ hg with hg | ⟨m, hm, heq⟩
        · exact hw.others b s _ _ hcb (.inr hσ) hneb y hy hg
        · exact ((hw.copies b s hcb).manifest m hm).2 y hy heq.symm
      · exact hw.others b s b' s' hcb hcb' hne y hy hg

end

theorem step_switch [DecidableEq ρ] {w' : World π ρ δ} (hw : SwitchInv w) (hs : Step env w w') :
    SwitchInv w' := by
  cases hs with
  | begin b _ hl =>
    unfold loadOrCreateState at hl
    split at hl
    · rename_i state hlook
      obtain ⟨_, -, hl⟩ := bind_ok hl
      cases hl
      refine hw.frame rfl hw.rows rfl (fun _ hb => hb) fun b' s' hc => ?_
      rcases hc with hc | hc
      · exact .inr ⟨s', .inl hc, .refl s'⟩
      · cases hc
        exact .inr ⟨_, .inl hlook, .refl _⟩
    · obtain ⟨_, -, hl⟩ := bind_ok hl
      obtain ⟨_, -, hl⟩ := bind_ok hl
      cases hl
      refine hw.frame rfl hw.rows rfl (fun _ hb => AList.mem_insert _ |>.2 (.inr hb))
        fun b' s' hc => ?_
      rcases hc with hc | hc
      · rcases lookup_insert_cases hc with ⟨rfl, rfl⟩ | ⟨-, hc⟩
        · exact .inl rfl
        · exact .inr ⟨s', .inl hc, .refl s'⟩
      · cases hc
        exact .inl rfl
  | crash =>
    refine hw.frame rfl hw.rows rfl (fun _ hb => hb) fun b s hc => ?_
    rcases hc with hc | hc
    · exact .inr ⟨s, .inl hc, .refl s⟩
    · cases hc
  | fail => exact hw
  | prepare _ _ _ hσ hp =>
    refine hw.frame rfl hw.rows rfl (fun _ hb => hb) fun b s hc => ?_
    rcases hc with hc | hc
    · exact .inr ⟨s, .inl hc, .refl s⟩
    · cases hc
      have hb := (preparePage_ok hp).1
      subst hb
      exact .inr ⟨_, .inr hσ, preparePage_within hp⟩
  | apply page _ hσ ha hp hr hd =>
    obtain ⟨htarget, hb, hmark, -, hstates, -⟩ := applyAndCommit_ok hp ha
    obtain ⟨_, h₁, next, -, hrec, -, hwrite, rfl⟩ := applyAndCommit_steps ha
    obtain ⟨-, rfl⟩ := writeState_ok hwrite
    obtain ⟨href, hgens⟩ := applyRemoteDeltaRecords_rows hrec
    refine switch_write hw hσ (fun g hg => ?_) href hstates rfl (.inl rfl)
      (markedState_within hmark)
    rcases hgens with hgens | ⟨g', h', ht, he, hgens⟩
    · simp only [hgens] at hg
      exact hw.rows g hg
    · simp only [hgens] at hg
      rcases ensureRemoteGeneration_rows he with ⟨rfl, -⟩ | ⟨-, -, rfl⟩
      · exact hw.rows g hg
      · rcases AList.mem_insert _ |>.1 hg with rfl | hg
        · -- the row of the bootstrap was missing and is created again
          obtain ⟨x, hx, rfl⟩ := markedState_staging hp (htarget.symm.trans ht) hmark
          rw [(hw.copies _ _ (.inr hσ)).bootstrap x hx]
          exact Option.some_ne_none _
        · exact hw.rows g hg
  | activate _ hσ ha => exact switch_activate hw hσ ha
  | bootstrapInterrupted _ _ _ _ hfresh he => exact switch_issue hw hfresh he
  | bootstrap σ r fence hσ _ hfresh he hwrite =>
    have hissue := switch_issue hw hfresh he
    have hmanifest : ∀ {h : HistoryStore π δ},
        w.store.ensureRemoteGeneration r (sourceHistoryBinding σ.binding) = .ok h →
        h.manifest = w.store.manifest := by
      intro h he
      rcases ensureRemoteGeneration_rows he with ⟨rfl, -⟩ | ⟨-, -, rfl⟩
      · rfl
      · rfl
    refine switch_bootstrap hissue hσ (Function.update_self _ _ _) (fun b s hc hg => ?_)
      (fun m hm heq => ?_) hwrite (afterPublish_binding ..) (afterPublish_state ..)
    · have hc : Copy w b s := by
        rcases hc with hc | hc
        · simp only [(ensureRemoteGeneration_ok he).1] at hc
          exact .inl hc
        · exact .inr hc
      exact (hw.copies b s hc).retired r hg hfresh
    · simp only [hmanifest he] at hm
      rw [heq] at hfresh
      exact (hw.manifest m hm).1 hfresh
  | collectInterrupted _ _ _ hc =>
    obtain ⟨_, -, hc⟩ := bind_ok hc
    rcases gcRemoteGeneration_rows hc with ⟨-, -, -, rfl⟩ | ⟨-, rfl⟩
    · exact switch_store hw rfl rfl fun g hg => (AList.mem_erase.1 hg).2
    · exact switch_store hw rfl rfl fun g hg => hg
  | collect σ candidate fence hσ hc _ hwrite =>
    obtain ⟨_, -, hc⟩ := bind_ok hc
    obtain ⟨-, rfl⟩ := writeState_ok hwrite
    have hwithin : Within (collectedState σ.state candidate) σ.state :=
      ⟨fun a ha => ⟨a, ha, rfl⟩, fun x hx => ⟨x, hx, rfl⟩, fun g hg => (List.mem_filter.1 hg).1⟩
    rcases gcRemoteGeneration_rows hc with ⟨-, -, -, rfl⟩ | ⟨-, rfl⟩
    · exact switch_write hw hσ (fun g hg => hw.rows g (AList.mem_erase.1 hg).2) rfl rfl
        (afterPublish_binding ..) (afterPublish_state ..) hwithin
    · exact switch_write hw hσ hw.rows rfl rfl
        (afterPublish_binding ..) (afterPublish_state ..) hwithin

theorem collectorStep_switch [DecidableEq ρ] {w' : World π ρ δ} (hrows : RowsInv env w)
    (hw : SwitchInv w) (hs : CollectorStep env w w') : SwitchInv w' := by
  cases hs with
  | ingest hs => exact step_switch hw hs
  | sweep _ _ hsweep =>
    rw [sweep_eq hrows.store] at hsweep
    cases hsweep
    exact switch_store hw (deleteGenerations_states _ _) (deleteGenerations_manifest _ _)
      fun g hg => ((mem_deleteGenerations _ _).1 hg).1
  | garbageCollect _ _ _ hgc =>
    obtain ⟨_, -, hgc⟩ := bind_ok hgc
    rcases gcRemoteGeneration_rows hgc with ⟨-, -, -, rfl⟩ | ⟨-, rfl⟩
    · exact switch_store hw rfl rfl fun g hg => (AList.mem_erase.1 hg).2
    · exact switch_store hw rfl rfl fun g hg => hg

theorem collectorReachable_switch [DecidableEq ρ] (h : CollectorReachable env w) : SwitchInv w := by
  induction h with
  | init => exact switch_init
  | step hr hs ih => exact collectorStep_switch (collectorReachable_rows hr) ih hs

end

end Ingest
