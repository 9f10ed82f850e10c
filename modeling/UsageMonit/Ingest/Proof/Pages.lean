import UsageMonit.Ingest.Proof.Validate

/-!
# Every page exactly once, in order

`Chained` says that a list of pages leads from one cursor to another, each page continuing where
the one before it ended. `Inv` is the invariant of runs: a generation's data is the fold of the
pages applied to it, and for every generation that an ingest state refers to, these pages lead
from the start to the committed cursor. Each operation has one lemma that says what it does to the
rows (`applyAndCommit_ok`, `activate_ok`, `collect_ok`, ...); `step_inv` puts them together.
-/

namespace Ingest

open Fallible Time Protocol

variable {π ρ δ : Type} {env : IngestEnv π ρ δ} {h h' : HistoryStore π δ}
  {g : RemoteHistoryGenerationId} {session : RemoteDeltaIngestSession π}
  {s : StoredRemoteDeltaIngestState π}

/-! ## Chains of pages -/

/-- The pages lead from cursor `c` to cursor `c'`. -/
def Chained : Option DeltaCursor → List (AppliedPage ρ) → Option DeltaCursor → Prop
  | c, [], c' => c' = c
  | c, p :: ps, c' => p.request.deltaCursor = c ∧ p.page.validate = .ok () ∧
      validateDeltaPageForRequest p.request p.page = .ok () ∧
      Chained (some p.page.nextDeltaCursor) ps c'

theorem Chained.append {p : AppliedPage ρ} (hpage : p.page.validate = .ok ())
    (hreq : validateDeltaPageForRequest p.request p.page = .ok ()) :
    ∀ {ps : List (AppliedPage ρ)} {c : Option DeltaCursor},
      Chained c ps p.request.deltaCursor → Chained c (ps ++ [p]) (some p.page.nextDeltaCursor)
  | [], _, h => ⟨h, hpage, hreq, rfl⟩
  | _ :: _, _, h => ⟨h.1, h.2.1, h.2.2.1, Chained.append hpage hreq h.2.2.2⟩

theorem Chained.unique : ∀ {ps : List (AppliedPage ρ)} {c c₁ c₂ : Option DeltaCursor},
    Chained c ps c₁ → Chained c ps c₂ → c₁ = c₂
  | [], _, _, _, h₁, h₂ => h₁.trans h₂.symm
  | _ :: _, _, _, _, h₁, h₂ => Chained.unique h₁.2.2.2 h₂.2.2.2

theorem Chained.split {p : AppliedPage ρ} : ∀ {ps : List (AppliedPage ρ)}
    {c c' : Option DeltaCursor}, Chained c (ps ++ [p]) c' →
    Chained c ps p.request.deltaCursor ∧ c' = some p.page.nextDeltaCursor
  | [], _, _, h => ⟨h.1, h.2.2.2⟩
  | q :: ps, c, c', h => by
    obtain ⟨hq, hv, hr, h⟩ := h
    obtain ⟨hps, hc⟩ := Chained.split h
    exact ⟨⟨hq, hv, hr, hps⟩, hc⟩

/-- The pages' sequence ranges tile the numbers `n + 1, …, m`; a page may also be empty. -/
def Tiles : Nat → List (AppliedPage ρ) → Nat → Prop
  | n, [], m => m = n
  | n, p :: ps, m =>
    ((p.page.fromSequence = n + 1 ∧ n < p.page.throughSequence) ∨
        (p.page.fromSequence = n ∧ p.page.throughSequence = n)) ∧
      Tiles p.page.throughSequence ps m

theorem validate_next {page : DeltaPage} (h : page.validate = .ok ()) :
    page.nextDeltaCursor.generation = page.generation ∧
      page.nextDeltaCursor.sequence = page.throughSequence := by
  obtain ⟨_, -, h⟩ := bind_ok h
  obtain ⟨_, -, h⟩ := bind_ok h
  exact ensure_ok.1 h

theorem page_after_cursor {request : DeltaRequest} {page : DeltaPage} {c : DeltaCursor}
    (h : validateDeltaPageForRequest request page = .ok ()) (hc : request.deltaCursor = some c) :
    page.generation = c.generation ∧
      ((page.fromSequence = c.sequence + 1 ∧ c.sequence < page.throughSequence) ∨
        (page.fromSequence = c.sequence ∧ page.throughSequence = c.sequence)) := by
  unfold validateDeltaPageForRequest at h
  rw [hc] at h
  obtain ⟨_, hgen, h⟩ := bind_ok h
  obtain ⟨hgen, hle⟩ := ensure_ok.1 hgen
  refine ⟨hgen, ?_⟩
  split at h
  · rename_i hthrough
    exact .inr ⟨(ensure_ok.1 h).1, hthrough⟩
  · obtain ⟨n, hn, h⟩ := bind_ok h
    obtain ⟨rfl, -⟩ := checkedAdd_eq_some (okOr_ok.1 hn)
    refine .inl ⟨ensure_ok.1 h, ?_⟩
    omega

/-- Pages that lead from a cursor to another tile the sequence numbers between them. -/
theorem Chained.tiles : ∀ {ps : List (AppliedPage ρ)} {c : DeltaCursor} {c' : Option DeltaCursor},
    Chained (some c) ps c' →
    ∃ d, c' = some d ∧ d.generation = c.generation ∧ Tiles c.sequence ps d.sequence
  | [], c, _, h => ⟨c, h, rfl, rfl⟩
  | p :: ps, c, c', h => by
    obtain ⟨hreq, hv, hpage, h⟩ := h
    obtain ⟨d, hd, hgen, htiles⟩ := Chained.tiles h
    obtain ⟨hgen', hrange⟩ := page_after_cursor hpage hreq
    obtain ⟨hng, hns⟩ := validate_next hv
    rw [hns] at htiles
    exact ⟨d, hd, by rw [hgen, hng, hgen'], hrange, htiles⟩

/-- The data that writing the records of the pages, in order, gives. -/
def foldRecords (env : IngestEnv π ρ δ) (ps : List (AppliedPage ρ)) : Except String δ :=
  ps.foldlM (fun data p => env.recordChanges data p.records) env.emptyData

theorem foldRecords_append {ps : List (AppliedPage ρ)} {p : AppliedPage ρ} {d d' : δ}
    (h : foldRecords env ps = .ok d) (hp : env.recordChanges d p.records = .ok d') :
    foldRecords env (ps ++ [p]) = .ok d' := by
  unfold foldRecords at h ⊢
  rw [List.foldlM_append, h, ok_bind]
  simp only [List.foldlM_cons, List.foldlM_nil, hp, ok_bind]
  rfl

/-! ## What the operations do to the rows -/

theorem writeState_ok {b : RemoteDeltaIngestBinding} (hw : writeState env h b s = .ok h') :
    s.validate env b = .ok () ∧
      h' = { h with states := h.states.insert b { s with pending := none } } := by
  obtain ⟨_, hv, hw⟩ := bind_ok hw
  obtain ⟨_, -, hw⟩ := bind_ok hw
  cases hw
  exact ⟨hv, rfl⟩

theorem ensureRemoteGeneration_ok {b : SourceHistoryRemoteBinding}
    (he : h.ensureRemoteGeneration g b = .ok h') : h'.states = h.states ∧ h'.data = h.data := by
  obtain ⟨_, -, he⟩ := bind_ok he
  split at he
  · obtain ⟨_, -, he⟩ := bind_ok he
    cases he
    exact ⟨rfl, rfl⟩
  · cases he
    exact ⟨rfl, rfl⟩

theorem recordChanges_ok {r : ρ} (hr : h.recordChanges env g r = .ok h') :
    h'.states = h.states ∧ ∃ d, env.recordChanges (h.data g) r = .ok d ∧
      h'.data = Function.update h.data g d := by
  obtain ⟨d, hd, hr⟩ := bind_ok hr
  cases hr
  exact ⟨rfl, d, hd, rfl⟩

theorem applyRemoteDeltaRecords_ok {page : PreparedRemoteDeltaPage ρ} {t : DateTime}
    (ha : applyRemoteDeltaRecords env h session page t = .ok h') :
    h'.states = h.states ∧
      ∃ d, env.recordChanges (h.data page.target.resultingGeneration) page.records = .ok d ∧
        h'.data = Function.update h.data page.target.resultingGeneration d := by
  unfold applyRemoteDeltaRecords at ha
  split at ha
  · rename_i g htarget
    iterate 4 obtain ⟨_, -, ha⟩ := bind_ok ha
    obtain ⟨h1, hr, ha⟩ := bind_ok ha
    cases ha
    obtain ⟨hs, d, hd, hdata⟩ := recordChanges_ok hr
    rw [htarget]
    exact ⟨hs, d, hd, hdata⟩
  · rename_i g htarget
    obtain ⟨_, -, ha⟩ := bind_ok ha
    obtain ⟨_, -, ha⟩ := bind_ok ha
    obtain ⟨h1, he, ha⟩ := bind_ok ha
    obtain ⟨hs, hd⟩ := ensureRemoteGeneration_ok he
    iterate 4 obtain ⟨_, -, ha⟩ := bind_ok ha
    rw [htarget, ← hs, ← hd]
    exact recordChanges_ok ha

theorem markedState_ok {s' : StoredRemoteDeltaIngestState π} {b : RemoteDeltaIngestBinding}
    {p : StoredPendingPage π} {page : DeltaPage} {payload : π} {id : String}
    (hv : s.validate env b = .ok ()) (hp : s.pending = some p)
    (hpage : deltaResponsePage p.response = .ok (page, payload)) (hm : markedState s id = .ok s') :
    ∀ g c, Commits s' g c →
      (g = p.target.resultingGeneration ∧ c = some page.nextDeltaCursor) ∨
        (g ≠ p.target.resultingGeneration ∧ Commits s g c) := by
  unfold markedState at hm
  rw [hp] at hm
  obtain ⟨p', hp', hm⟩ := bind_ok hm
  cases hp'
  obtain ⟨_, -, hm⟩ := bind_ok hm
  obtain ⟨delta, hd, hm⟩ := bind_ok hm
  obtain ⟨⟨page', payload'⟩, hpage', hm⟩ := bind_ok hm
  rw [hpage] at hpage'
  cases hpage'
  have hnone := (pending_continues hv hp hd hpage).2.2.2
  intro g c hc
  cases ht : p.target with
  | active gen =>
    simp only [ht] at hm
    obtain ⟨a, ha, hm⟩ := bind_ok hm
    obtain ⟨_, hgen, hm⟩ := bind_ok hm
    cases hm
    rcases hc with ⟨a', ha', rfl, rfl⟩ | ⟨x, hx, rfl, rfl⟩
    · cases ha'
      exact .inl ⟨ensure_ok.1 hgen, rfl⟩
    · -- an active page is prepared without a bootstrap only
      simp only [hnone gen ht] at hx
      cases hx
  | staging gen =>
    simp only [ht] at hm
    obtain ⟨x, hx, hm⟩ := bind_ok hm
    obtain ⟨_, hgen, hm⟩ := bind_ok hm
    cases hm
    rcases hc with ⟨a, ha, rfl, rfl⟩ | ⟨x', hx', rfl, rfl⟩
    · refine .inr ⟨?_, .inl ⟨a, ha, rfl, rfl⟩⟩
      have hne := generation_ne hv ha (okOr_ok.1 hx)
      rwa [ensure_ok.1 hgen] at hne
    · cases hx'
      exact .inl ⟨ensure_ok.1 hgen, rfl⟩

theorem applyAndCommit_steps [DecidableEq ρ] {session' : RemoteDeltaIngestSession π}
    {page : PreparedRemoteDeltaPage ρ} {t : DateTime}
    (ha : applyAndCommitRemoteDeltaPage env h session page t = .ok (h', session')) :
    ∃ p h₁ next, validatePendingPage env session page = .ok p ∧
      applyRemoteDeltaRecords env h session page t = .ok h₁ ∧
      markedState session.state page.id = .ok next ∧
      writeState env h₁ session.binding next = .ok h' ∧
      session' = { session with state := next } := by
  obtain ⟨p, hpend, ha⟩ := bind_ok ha
  obtain ⟨h₁, hrec, ha⟩ := bind_ok ha
  obtain ⟨_, -, ha⟩ := bind_ok ha
  obtain ⟨next, hmark, ha⟩ := bind_ok ha
  obtain ⟨h₂, hwrite, ha⟩ := bind_ok ha
  cases ha
  exact ⟨p, h₁, next, hpend, hrec, hmark, hwrite, rfl⟩

/-- **One transaction** writes the page's records and publishes the marked state. -/
theorem applyAndCommit_ok [DecidableEq ρ] {session' : RemoteDeltaIngestSession π}
    {page : PreparedRemoteDeltaPage ρ} {t : DateTime} {p : StoredPendingPage π}
    (hp : session.state.pending = some p)
    (ha : applyAndCommitRemoteDeltaPage env h session page t = .ok (h', session')) :
    page.target = p.target ∧ session'.binding = session.binding ∧
      markedState session.state page.id = .ok session'.state ∧
      session'.state.validate env session.binding = .ok () ∧
      h'.states = h.states.insert session.binding { session'.state with pending := none } ∧
      ∃ d, env.recordChanges (h.data page.target.resultingGeneration) page.records = .ok d ∧
        h'.data = Function.update h.data page.target.resultingGeneration d := by
  obtain ⟨_, _, next, hpend, hrec, hmark, hwrite, rfl⟩ := applyAndCommit_steps ha
  obtain ⟨hv, rfl⟩ := writeState_ok hwrite
  obtain ⟨hs, hd⟩ := applyRemoteDeltaRecords_ok hrec
  have htarget : page.target = p.target := by
    unfold validatePendingPage at hpend
    rw [hp] at hpend
    obtain ⟨_, hp', hpend⟩ := bind_ok hpend
    cases hp'
    obtain ⟨expected, hexp, hpend⟩ := bind_ok hpend
    obtain ⟨_, heq, -⟩ := bind_ok hpend
    obtain ⟨_, -, hexp⟩ := bind_ok hexp
    obtain ⟨_, -, hexp⟩ := bind_ok hexp
    cases hexp
    rw [← ensure_ok.1 heq]
  exact ⟨htarget, rfl, hmark, hv, by rw [hs], hd⟩

@[simp] theorem queueRetired_active (s : StoredRemoteDeltaIngestState π)
    (r : Option RemoteHistoryGenerationId) : (queueRetired s r).active = s.active := by
  cases r with
  | none => rfl
  | some r =>
    simp only [queueRetired, queueRetiredGeneration]
    split <;> rfl

@[simp] theorem queueRetired_bootstrap (s : StoredRemoteDeltaIngestState π)
    (r : Option RemoteHistoryGenerationId) : (queueRetired s r).bootstrap = s.bootstrap := by
  cases r with
  | none => rfl
  | some r =>
    simp only [queueRetired, queueRetiredGeneration]
    split <;> rfl

section
variable (s : StoredRemoteDeltaIngestState π) (r : Option RemoteHistoryGenerationId)

@[simp] theorem queueRetired_formatVersion :
    (queueRetired s r).formatVersion = s.formatVersion := by
  cases r with
  | none => rfl
  | some r =>
    simp only [queueRetired, queueRetiredGeneration]
    split <;> rfl

@[simp] theorem queueRetired_binding : (queueRetired s r).binding = s.binding := by
  cases r with
  | none => rfl
  | some r =>
    simp only [queueRetired, queueRetiredGeneration]
    split <;> rfl

@[simp] theorem queueRetired_pending : (queueRetired s r).pending = s.pending := by
  cases r with
  | none => rfl
  | some r =>
    simp only [queueRetired, queueRetiredGeneration]
    split <;> rfl

end

theorem activatedState_ok {s' : StoredRemoteDeltaIngestState π} {a : RemoteBootstrapActivation}
    (ha : activatedState s a = .ok s') : ∀ g c, Commits s' g c → Commits s g c := by
  obtain ⟨_, -, ha⟩ := bind_ok ha
  obtain ⟨x, hx, ha⟩ := bind_ok ha
  obtain ⟨_, hready, ha⟩ := bind_ok ha
  obtain ⟨-, hcursor, hgen⟩ := ensure_ok.1 hready
  cases ha
  intro g c hc
  rcases hc with ⟨b, hb, rfl, rfl⟩ | ⟨y, hy, -, -⟩
  · simp only [queueRetired_active, Option.some.injEq] at hb
    subst hb
    exact .inr ⟨x, okOr_ok.1 hx, hgen, hcursor.symm⟩
  · cases hy

theorem activate_ok {session' : RemoteDeltaIngestSession π} {t : DateTime}
    (ha : activateRemoteDeltaBootstrap env h session t = .ok (some (h', session'))) :
    session'.binding = session.binding ∧
      session'.state.validate env session.binding = .ok () ∧
      h'.states = h.states.insert session.binding { session'.state with pending := none } ∧
      h'.data = h.data ∧ ∀ g c, Commits session'.state g c → Commits session.state g c := by
  unfold activateRemoteDeltaBootstrap at ha
  split at ha
  · cases ha
  · obtain ⟨h1, hact, ha⟩ := bind_ok ha
    obtain ⟨next, hnext, ha⟩ := bind_ok ha
    obtain ⟨h2, hwrite, ha⟩ := bind_ok ha
    cases ha
    obtain ⟨hv, rfl⟩ := writeState_ok hwrite
    have hrows : h1.states = h.states ∧ h1.data = h.data := by
      iterate 3 obtain ⟨_, -, hact⟩ := bind_ok hact
      split at hact
      · cases hact
        exact ⟨rfl, rfl⟩
      · obtain ⟨_, -, hact⟩ := bind_ok hact
        obtain ⟨_, -, hact⟩ := bind_ok hact
        cases hact
        exact ⟨rfl, rfl⟩
    exact ⟨rfl, hv, by rw [hrows.1], hrows.2, activatedState_ok hnext⟩

theorem freshBootstrapState_commits {r : RemoteHistoryGenerationId}
    {e : Option StoredRemoteHistoryActiveRef} :
    ∀ g c, Commits (freshBootstrapState s r e) g c → (g = r ∧ c = none) ∨ Commits s g c := by
  intro g c hc
  rcases hc with ⟨a, ha, rfl, rfl⟩ | ⟨x, hx, rfl, rfl⟩
  · simp only [freshBootstrapState, queueRetired_active] at ha
    exact .inr (.inl ⟨a, ha, rfl, rfl⟩)
  · simp only [freshBootstrapState, queueRetired_bootstrap, Option.some.injEq] at hx
    subst hx
    exact .inl ⟨rfl, rfl⟩

theorem collect_ok {outcome : RemoteHistoryGenerationGcOutcome}
    (hc : collectRetiredGeneration env h session g = .ok (h', outcome)) :
    g ∈ session.state.retiredGenerations ∧ h'.states = h.states ∧
      ((outcome = .deleted ∧ g ∉ protectedHistoryGenerations h ∧
          h'.data = Function.update h.data g env.emptyData) ∨
        (outcome ≠ .deleted ∧ h'.data = h.data)) := by
  obtain ⟨_, hret, hc⟩ := bind_ok hc
  refine ⟨ensure_ok.1 hret, ?_⟩
  obtain ⟨_, -, hc⟩ := bind_ok hc
  split at hc
  · cases hc
    exact ⟨rfl, .inr ⟨by decide, rfl⟩⟩
  · split at hc
    · cases hc
      exact ⟨rfl, .inr ⟨by decide, rfl⟩⟩
    · rename_i hprot
      split at hc
      · cases hc
        exact ⟨rfl, .inr ⟨by decide, rfl⟩⟩
      · cases hc
        exact ⟨rfl, .inl ⟨rfl, hprot, rfl⟩⟩

theorem not_commits_of_not_protected (hg : g ∉ protectedHistoryGenerations h)
    {b : RemoteDeltaIngestBinding} (hs : h.states.lookup b = some s) (c : Option DeltaCursor) :
    ¬ Commits s g c := by
  intro hc
  refine hg (List.mem_flatMap.2 ⟨⟨b, s⟩, ?_, hc.live⟩)
  exact AList.mem_lookup_iff.1 hs

end Ingest
