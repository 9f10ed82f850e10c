import UsageMonit.Ingest.Proof.Pages

/-!
# The ingest applies every page exactly once

`Inv` is the invariant of runs and `step_inv` its preservation. `step_effect` says what one step
does to a generation: nothing, one more page with its records, or its deletion while no state
refers to it.
-/

namespace Ingest

open Fallible Time Protocol

variable {b : RemoteDeltaIngestBinding}

section
variable {π ρ δ : Type} {env : IngestEnv π ρ δ} {s : StoredRemoteDeltaIngestState π}
  {h : HistoryStore π δ} {σ : RemoteDeltaIngestSession π} {w : World π ρ δ}

/-- Every generation the state refers to was generated by its binding, and the pages applied to it
lead from the start to its committed cursor. -/
def Links (w : World π ρ δ) (b : RemoteDeltaIngestBinding)
    (s : StoredRemoteDeltaIngestState π) : Prop :=
  ∀ g c, Commits s g c → w.issued g = some b ∧ Chained none (w.applied g) c

structure Inv (env : IngestEnv π ρ δ) (w : World π ρ δ) : Prop where
  fold : ∀ g, foldRecords env (w.applied g) = .ok (w.store.data g)
  fresh : ∀ g, w.issued g = none → w.applied g = []
  states : ∀ b s, w.store.states.lookup b = some s → Links w b s
  session : ∀ σ, w.session = some σ →
    σ.state.validate env σ.binding = .ok () ∧ Links w σ.binding σ.state

theorem Links.frame {w' : World π ρ δ} (h : Links w b s)
    (hf : ∀ g c, Commits s g c → w.issued g = some b →
      w'.issued g = w.issued g ∧ w'.applied g = w.applied g) : Links w' b s := by
  intro g c hc
  obtain ⟨hi, hch⟩ := h g c hc
  obtain ⟨hi', ha'⟩ := hf g c hc hi
  rw [hi', ha']
  exact ⟨hi, hch⟩

theorem Links.pending (h : Links w b s) : Links w b { s with pending := none } := h

theorem lookup_insert_cases
    {states : AList fun _ : RemoteDeltaIngestBinding => StoredRemoteDeltaIngestState π}
    {b' : RemoteDeltaIngestBinding} {s' : StoredRemoteDeltaIngestState π}
    (h : (states.insert b s).lookup b' = some s') :
    (b' = b ∧ s' = s) ∨ (b' ≠ b ∧ states.lookup b' = some s') := by
  by_cases hb : b' = b
  · subst hb
    rw [AList.lookup_insert] at h
    exact .inl ⟨rfl, (Option.some.inj h).symm⟩
  · rw [AList.lookup_insert_ne hb] at h
    exact .inr ⟨hb, h⟩

theorem inv_init : Inv env (World.init env) := by
  refine ⟨fun g => rfl, fun g _ => rfl, fun b s h => ?_, fun σ h => ?_⟩
  · cases h
  · cases h

/-! ## One lemma per step -/

section
variable (hw : Inv env w)
include hw

theorem inv_begin (hl : loadOrCreateState env w.store b = .ok (h, s)) :
    Inv env { w with store := h, session := some ⟨b, s⟩ } := by
  unfold loadOrCreateState at hl
  split at hl
  · rename_i state hs
    obtain ⟨_, hv, hl⟩ := bind_ok hl
    cases hl
    refine ⟨hw.fold, hw.fresh, hw.states, fun σ hσ => ?_⟩
    cases hσ
    exact ⟨hv, hw.states b s hs⟩
  · obtain ⟨_, -, hl⟩ := bind_ok hl
    obtain ⟨_, hv, hl⟩ := bind_ok hl
    cases hl
    have hnew : Links w b (StoredRemoteDeltaIngestState.new b) := by
      rintro g c (⟨a, ha, -⟩ | ⟨x, hx, -⟩)
      · cases ha
      · cases hx
    refine ⟨hw.fold, hw.fresh, fun b' s' hs' => ?_, fun σ hσ => ?_⟩
    · rcases lookup_insert_cases hs' with ⟨rfl, rfl⟩ | ⟨-, hs'⟩
      · exact hnew
      · exact hw.states b' s' hs'
    · cases hσ
      exact ⟨hv, hnew⟩

theorem inv_prepare {σ' : RemoteDeltaIngestSession π} {request : RemoteExportRequest}
    {response : RemoteDeltaResponse π} {t : DateTime} {page : PreparedRemoteDeltaPage ρ}
    (hσ : w.session = some σ) (hp : preparePage env σ request response t = .ok (σ', page)) :
    Inv env { w with session := some σ' } := by
  obtain ⟨_, -, hp⟩ := bind_ok hp
  obtain ⟨_, -, hp⟩ := bind_ok hp
  obtain ⟨delta, -, hp⟩ := bind_ok hp
  iterate 5 obtain ⟨_, -, hp⟩ := bind_ok hp
  obtain ⟨_, hv, hp⟩ := bind_ok hp
  cases hp
  refine ⟨hw.fold, hw.fresh, hw.states, fun τ hτ => ?_⟩
  cases hτ
  refine ⟨hv, ?_⟩
  intro g c hc
  refine (hw.session σ hσ).2 g c ?_
  rcases hc with ⟨a, ha, hg, hcur⟩ | ⟨x, hx, hg, hcur⟩
  · exact .inl ⟨a, ha, hg, hcur⟩
  · -- only the exact range of the bootstrap changed
    obtain ⟨x', hx', rfl⟩ := Option.map_eq_some_iff.1 hx
    exact .inr ⟨x', hx', hg, hcur⟩

theorem inv_apply [DecidableEq ρ] {σ' : RemoteDeltaIngestSession π}
    {page : PreparedRemoteDeltaPage ρ} {t : DateTime} {p : StoredPendingPage π}
    {request : DeltaRequest} {deltaPage : DeltaPage} {payload : π} (hσ : w.session = some σ)
    (ha : applyAndCommitRemoteDeltaPage env w.store σ page t = .ok (h, σ'))
    (hp : σ.state.pending = some p) (hr : deltaRequest p.request = .ok request)
    (hd : deltaResponsePage p.response = .ok (deltaPage, payload)) :
    Inv env { w with
      store := h
      session := some σ'
      applied := Function.update w.applied page.target.resultingGeneration
        (w.applied page.target.resultingGeneration ++ [⟨request, deltaPage, page.records⟩]) } := by
  obtain ⟨hv, hlinks⟩ := hw.session σ hσ
  obtain ⟨htarget, hb, hmark, hv', hstates, d, hrec, hdata⟩ := applyAndCommit_ok hp ha
  obtain ⟨hpage, hreq, hcom, -⟩ := pending_continues hv hp hr hd
  have hcommits := markedState_ok hv hp hd hmark
  rw [← htarget] at hcom hcommits
  generalize page.target.resultingGeneration = gen at *
  obtain ⟨hissued, hchain⟩ := hlinks gen _ hcom
  have hnext : Links { w with
      store := h
      session := some σ'
      applied := Function.update w.applied gen
        (w.applied gen ++ [⟨request, deltaPage, page.records⟩]) } σ.binding σ'.state := by
    intro g c hc
    rcases hcommits g c hc with ⟨rfl, rfl⟩ | ⟨hne, hc⟩
    · simp only [Function.update_self]
      exact ⟨hissued, hchain.append hpage hreq⟩
    · simp only [Function.update_of_ne hne]
      exact hlinks g c hc
  refine ⟨fun g => ?_, fun g hg => ?_, fun b s hs => ?_, fun τ hτ => ?_⟩
  · simp only [hdata]
    by_cases hg : g = gen
    · subst hg
      simp only [Function.update_self]
      exact foldRecords_append (hw.fold g) hrec
    · simp only [Function.update_of_ne hg]
      exact hw.fold g
  · have hne : g ≠ gen := by
      rintro rfl
      rw [hissued] at hg
      cases hg
    simp only [Function.update_of_ne hne]
    exact hw.fresh g hg
  · simp only [hstates] at hs
    rcases lookup_insert_cases hs with ⟨rfl, rfl⟩ | ⟨hb', hs⟩
    · exact hnext.pending
    · -- another binding refers to its own generations only
      refine (hw.states b s hs).frame fun g c hc hi => ⟨rfl, ?_⟩
      refine Function.update_of_ne ?_ _ _
      rintro rfl
      rw [hissued] at hi
      exact hb' (Option.some.inj hi).symm
  · cases hτ
    rw [hb]
    exact ⟨hv', hnext⟩

theorem inv_activate {σ' : RemoteDeltaIngestSession π} {t : DateTime} (hσ : w.session = some σ)
    (ha : activateRemoteDeltaBootstrap env w.store σ t = .ok (some (h, σ'))) :
    Inv env { w with store := h, session := some σ' } := by
  obtain ⟨hb, hv, hstates, hdata, hcommits⟩ := activate_ok ha
  have hlinks : Links w σ.binding σ'.state := by
    intro g c hc
    exact (hw.session σ hσ).2 g c (hcommits g c hc)
  refine ⟨fun g => ?_, hw.fresh, fun b s hs => ?_, fun τ hτ => ?_⟩
  · simp only [hdata]
    exact hw.fold g
  · simp only [hstates] at hs
    rcases lookup_insert_cases hs with ⟨rfl, rfl⟩ | ⟨-, hs⟩
    · exact hlinks.pending
    · exact hw.states b s hs
  · cases hτ
    rw [hb]
    exact ⟨hv, hlinks⟩

theorem inv_issue {r : RemoteHistoryGenerationId} (hfresh : w.issued r = none)
    (he : w.store.ensureRemoteGeneration r (sourceHistoryBinding b) = .ok h) :
    Inv env { w with store := h, issued := Function.update w.issued r (some b) } := by
  obtain ⟨hstates, hdata⟩ := ensureRemoteGeneration_ok he
  have hframe : ∀ b' s, Links w b' s →
      Links { w with store := h, issued := Function.update w.issued r (some b) } b' s := by
    intro b' s hl
    refine hl.frame fun g c _ hi => ⟨Function.update_of_ne ?_ _ _, rfl⟩
    rintro rfl
    rw [hfresh] at hi
    cases hi
  refine ⟨fun g => ?_, fun g hg => ?_, fun b' s hs => ?_, fun τ hτ => ?_⟩
  · simp only [hdata]
    exact hw.fold g
  · by_cases hne : g = r
    · subst hne
      exact hw.fresh g hfresh
    · simp only [Function.update_of_ne hne] at hg
      exact hw.fresh g hg
  · simp only [hstates] at hs
    exact hframe b' s (hw.states b' s hs)
  · exact ⟨(hw.session τ hτ).1, hframe _ _ (hw.session τ hτ).2⟩

theorem inv_publish {next : StoredRemoteDeltaIngestState π} (fenceHolds : Bool)
    (hσ : w.session = some σ) (hwrite : writeState env w.store σ.binding next = .ok h)
    (hlinks : Links w σ.binding next) :
    Inv env { w with store := h, session := some (afterPublish fenceHolds σ next) } := by
  obtain ⟨hv, rfl⟩ := writeState_ok hwrite
  refine ⟨hw.fold, hw.fresh, fun b s hs => ?_, fun τ hτ => ?_⟩
  · rcases lookup_insert_cases hs with ⟨rfl, rfl⟩ | ⟨-, hs⟩
    · exact hlinks.pending
    · exact hw.states b s hs
  · cases hτ
    cases fenceHolds with
    | true => exact ⟨hv, hlinks⟩
    | false => exact hw.session σ hσ

theorem inv_collect {r : RemoteHistoryGenerationId} {outcome : RemoteHistoryGenerationGcOutcome}
    (hσ : w.session = some σ) (hc : collectRetiredGeneration env w.store σ r = .ok (h, outcome)) :
    Inv env { w with
      store := h
      applied := if outcome = .deleted then Function.update w.applied r [] else w.applied } := by
  obtain ⟨hret, hstates, ⟨rfl, hprot, hdata⟩ | ⟨hne, hdata⟩⟩ := collect_ok hc
  · simp only [if_true]
    refine ⟨fun g => ?_, fun g hg => ?_, fun b s hs => ?_, fun τ hτ => ?_⟩
    · simp only [hdata]
      by_cases hg : g = r
      · subst hg
        simp only [Function.update_self]
        rfl
      · simp only [Function.update_of_ne hg]
        exact hw.fold g
    · by_cases hne : g = r
      · subst hne
        simp only [Function.update_self]
      · simp only [Function.update_of_ne hne]
        exact hw.fresh g hg
    · simp only [hstates] at hs
      refine (hw.states b s hs).frame fun g c hcom _ => ⟨rfl, Function.update_of_ne ?_ _ _⟩
      rintro rfl
      exact not_commits_of_not_protected hprot hs c hcom
    · -- the session retired the generation, so its own state does not refer to it
      have hτ : w.session = some τ := hτ
      obtain rfl : σ = τ := Option.some.inj (hσ.symm.trans hτ)
      obtain ⟨hv, hl⟩ := hw.session σ hσ
      refine ⟨hv, hl.frame fun g c hcom _ => ⟨rfl, Function.update_of_ne ?_ _ _⟩⟩
      rintro rfl
      exact not_commits_of_retired hv hret c hcom
  · simp only [if_neg hne]
    refine ⟨fun g => ?_, hw.fresh, fun b s hs => ?_, hw.session⟩
    · simp only [hdata]
      exact hw.fold g
    · simp only [hstates] at hs
      exact hw.states b s hs

end

/-! ## Runs -/

/-- **Every step keeps the invariant.** -/
theorem step_inv [DecidableEq ρ] {w' : World π ρ δ} (hw : Inv env w) (hs : Step env w w') :
    Inv env w' := by
  cases hs with
  | begin _ _ hl => exact inv_begin hw hl
  | crash =>
    refine ⟨hw.fold, hw.fresh, hw.states, fun σ hσ => ?_⟩
    cases hσ
  | fail => exact hw
  | prepare _ _ _ hσ hp => exact inv_prepare hw hσ hp
  | apply _ _ hσ ha hp hr hd => exact inv_apply hw hσ ha hp hr hd
  | activate _ hσ ha => exact inv_activate hw hσ ha
  | bootstrapInterrupted _ _ _ _ hfresh he => exact inv_issue hw hfresh he
  | bootstrap _ _ fence hσ _ hfresh he hwrite =>
    have hissued := inv_issue hw hfresh he
    refine inv_publish hissued fence hσ hwrite ?_
    intro g c hc
    rcases freshBootstrapState_commits g c hc with ⟨rfl, rfl⟩ | hc
    · refine ⟨Function.update_self _ _ _, ?_⟩
      rw [hw.fresh g hfresh]
      rfl
    · exact (hissued.session _ hσ).2 g c hc
  | collectInterrupted _ _ hσ hc => exact inv_collect hw hσ hc
  | collect _ _ fence hσ hc _ hwrite =>
    have hcollected := inv_collect hw hσ hc
    exact inv_publish hcollected fence hσ hwrite (hcollected.session _ hσ).2

theorem reachable_inv [DecidableEq ρ] (h : Reachable env w) : Inv env w := by
  induction h with
  | init => exact inv_init
  | step _ hs ih => exact step_inv ih hs

/-! ## What a step does to one generation -/

/-- A step leaves a generation alone, or applies one page to it, or deletes it while no durable
state refers to it. -/
theorem step_effect [DecidableEq ρ] {w' : World π ρ δ} (hs : Step env w w')
    (g : RemoteHistoryGenerationId) :
    (w'.applied g = w.applied g ∧ w'.store.data g = w.store.data g) ∨
      (∃ p, w'.applied g = w.applied g ++ [p] ∧
        env.recordChanges (w.store.data g) p.records = .ok (w'.store.data g)) ∨
      ∀ b s c, w.store.states.lookup b = some s → ¬ Commits s g c := by
  have hcollect : ∀ {σ : RemoteDeltaIngestSession π} {r : RemoteHistoryGenerationId}
      {h : HistoryStore π δ} {outcome : RemoteHistoryGenerationGcOutcome},
      collectRetiredGeneration env w.store σ r = .ok (h, outcome) →
      ((if outcome = .deleted then Function.update w.applied r [] else w.applied) g =
          w.applied g ∧ h.data g = w.store.data g) ∨
        ∀ b s c, w.store.states.lookup b = some s → ¬ Commits s g c := by
    intro σ r h outcome hc
    obtain ⟨-, -, ⟨rfl, hprot, hdata⟩ | ⟨hne, hdata⟩⟩ := collect_ok hc
    · by_cases hg : g = r
      · subst hg
        exact .inr fun b s c hs => not_commits_of_not_protected hprot hs c
      · rw [if_pos rfl, hdata, Function.update_of_ne hg, Function.update_of_ne hg]
        exact .inl ⟨rfl, rfl⟩
    · rw [if_neg hne, hdata]
      exact .inl ⟨rfl, rfl⟩
  cases hs with
  | begin _ _ hl =>
    unfold loadOrCreateState at hl
    split at hl
    · obtain ⟨_, -, hl⟩ := bind_ok hl
      cases hl
      exact .inl ⟨rfl, rfl⟩
    · obtain ⟨_, -, hl⟩ := bind_ok hl
      obtain ⟨_, -, hl⟩ := bind_ok hl
      cases hl
      exact .inl ⟨rfl, rfl⟩
  | crash => exact .inl ⟨rfl, rfl⟩
  | fail => exact .inl ⟨rfl, rfl⟩
  | prepare => exact .inl ⟨rfl, rfl⟩
  | apply page _ hσ ha hp hr hd =>
    obtain ⟨-, -, -, -, -, d, hrec, hdata⟩ := applyAndCommit_ok hp ha
    by_cases hg : g = page.target.resultingGeneration
    · subst hg
      refine .inr (.inl ⟨_, Function.update_self _ _ _, ?_⟩)
      rw [hdata, Function.update_self]
      exact hrec
    · refine .inl ⟨Function.update_of_ne hg _ _, ?_⟩
      rw [hdata, Function.update_of_ne hg]
  | activate _ _ ha =>
    refine .inl ⟨rfl, ?_⟩
    rw [(activate_ok ha).2.2.2.1]
  | bootstrapInterrupted _ _ _ _ _ he =>
    refine .inl ⟨rfl, ?_⟩
    rw [(ensureRemoteGeneration_ok he).2]
  | bootstrap _ _ _ _ _ _ he hwrite =>
    obtain ⟨-, rfl⟩ := writeState_ok hwrite
    refine .inl ⟨rfl, ?_⟩
    rw [(ensureRemoteGeneration_ok he).2]
  | collectInterrupted _ _ _ hc =>
    rcases hcollect hc with h | h
    · exact .inl h
    · exact .inr (.inr h)
  | collect _ _ _ _ hc _ hwrite =>
    obtain ⟨-, rfl⟩ := writeState_ok hwrite
    rcases hcollect hc with h | h
    · exact .inl h
    · exact .inr (.inr h)

/-- **Exactly once, in order.** In every reachable world, the data of every generation that a
binding's state refers to is the fold of the pages that lead from its start to its committed
cursor; the ranges of these pages tile the journal from the first page on; and in one step the
cursor moves exactly with the records of one page. -/
theorem pages_applied_exactly_once [DecidableEq ρ] {w : World π ρ δ} (h : Reachable env w) :
    (∀ b s g c, w.store.states.lookup b = some s → Commits s g c →
      foldRecords env (w.applied g) = .ok (w.store.data g) ∧ Chained none (w.applied g) c ∧
        ∀ first rest, w.applied g = first :: rest → ∃ d, c = some d ∧
          d.generation = first.page.generation ∧ Tiles first.page.throughSequence rest d.sequence) ∧
      ∀ w', Step env w w' → ∀ b s s' g c c', w.store.states.lookup b = some s →
        w'.store.states.lookup b = some s' → Commits s g c → Commits s' g c' →
        (c' = c ∧ w'.applied g = w.applied g ∧ w'.store.data g = w.store.data g) ∨
          ∃ p : AppliedPage ρ, p.request.deltaCursor = c ∧ c' = some p.page.nextDeltaCursor ∧
            w'.applied g = w.applied g ++ [p] ∧
            env.recordChanges (w.store.data g) p.records = .ok (w'.store.data g) := by
  have hw := reachable_inv h
  refine ⟨fun b s g c hs hc => ?_, fun w' hstep b s s' g c c' hs hs' hc hc' => ?_⟩
  · have hchain := (hw.states b s hs g c hc).2
    refine ⟨hw.fold g, hchain, fun first rest heq => ?_⟩
    rw [heq] at hchain
    obtain ⟨-, hv, -, hrest⟩ := hchain
    obtain ⟨d, hd, hgen, htiles⟩ := hrest.tiles
    obtain ⟨hng, hns⟩ := validate_next hv
    exact ⟨d, hd, by rw [hgen, hng], by rwa [hns] at htiles⟩
  · have hchain := (hw.states b s hs g c hc).2
    have hchain' := ((step_inv hw hstep).states b s' hs' g c' hc').2
    rcases step_effect hstep g with ⟨happ, hdata⟩ | ⟨p, happ, hrec⟩ | hnone
    · rw [happ] at hchain'
      exact .inl ⟨hchain'.unique hchain, happ, hdata⟩
    · rw [happ] at hchain'
      obtain ⟨hps, hc'⟩ := hchain'.split
      exact .inr ⟨p, hps.unique hchain, hc', happ, hrec⟩
    · exact absurd hc (hnone b s c hs)

end

/-! ## A bootstrap of one page -/

namespace Sample

def env : IngestEnv (List Nat) (List Nat) (List Nat) where
  validateRequest _ := .ok ()
  validateResponse _ := .ok ()
  acceptsRevisions _ _ := true
  validatePayload _ _ _ _ := .ok ()
  historyRecordsFromPayload payload := .ok payload
  pendingPageId _ _ _ _ := .ok
    "page-sha256-0123456789abcdef0123456789abcdef0123456789abcdef0123456789abcdef"
  encodedLength _ := 4096
  applyRemoteLiveState _ := .ok ()
  emptyData := []
  recordChanges data records := .ok (data ++ records)

def binding : RemoteDeltaIngestBinding where
  protocolVersion := 4
  profileId := "0123456789abcdef"
  source := ⟨"node-0123456789abcdef0123456789abcdef", 1⟩
  redactionProfile := .redacted
  revisions := ⟨1, 5, 1, 1, 1, "catalog"⟩
  rangePolicy := ⟨60, 0, false⟩

def generation : RemoteHistoryGenerationId := "ingest-gen-0123456789abcdef0123456789abcdef"
def orphan : RemoteHistoryGenerationId := "ingest-gen-00112233445566778899aabbccddeeff"

def request : DeltaRequest := ⟨none, ⟨0, minutes 60⟩, 0, false, none⟩

/-- Entries 1 and 2 of journal 7, and nothing more. -/
def deltaPage : DeltaPage := ⟨7, 1, 2, ⟨7, 2⟩, false⟩

def pending : StoredPendingPage (List Nat) where
  id := "page-sha256-0123456789abcdef0123456789abcdef0123456789abcdef0123456789abcdef"
  target := .staging generation
  request := ⟨4, some binding.source, .redacted, .delta request⟩
  response := ⟨binding.source, .redacted, binding.revisions, 0, .delta deltaPage [10, 20]⟩
  receivedAt := 0

def opened : StoredRemoteDeltaIngestState (List Nat) := .new binding
def staged : StoredRemoteDeltaIngestState (List Nat) :=
  { opened with bootstrap := some ⟨generation, none, none, none, false⟩ }
def prepared : StoredRemoteDeltaIngestState (List Nat) :=
  { opened with
    bootstrap := some ⟨generation, none, some request.range, none, false⟩
    pending := some pending }
def marked : StoredRemoteDeltaIngestState (List Nat) :=
  { opened with
    bootstrap := some ⟨generation, none, some request.range, some ⟨7, 2⟩, true⟩ }

def page : PreparedRemoteDeltaPage (List Nat) :=
  ⟨pending.id, pending.target, [10, 20], ⟨7, 2⟩, false⟩

def begun : World (List Nat) (List Nat) (List Nat) := { World.init env with
  store := { (World.init env).store with states := AList.insert binding opened ∅ }
  session := some ⟨binding, opened⟩ }

/-- A bootstrap that left its generation behind. -/
def interrupted : World (List Nat) (List Nat) (List Nat) := { begun with
  store := { begun.store with
    generations := AList.insert orphan (sourceHistoryBinding binding) ∅ }
  issued := Function.update (fun _ => none) orphan (some binding) }

def bootstrapped : World (List Nat) (List Nat) (List Nat) := { interrupted with
  store := { interrupted.store with
    states := begun.store.states.insert binding staged
    generations := interrupted.store.generations.insert generation
      (sourceHistoryBinding binding) }
  session := some ⟨binding, staged⟩
  issued := Function.update interrupted.issued generation (some binding) }

def committed : World (List Nat) (List Nat) (List Nat) := { bootstrapped with
  store := { bootstrapped.store with
    states := bootstrapped.store.states.insert binding marked
    data := Function.update (fun _ => []) generation [10, 20] }
  session := some ⟨binding, marked⟩
  applied := Function.update (fun _ => []) generation [⟨request, deltaPage, [10, 20]⟩] }

theorem step_begun : Step env (World.init env) begun := .begin binding rfl rfl

theorem step_interrupted : Step env begun interrupted :=
  .bootstrapInterrupted ⟨binding, opened⟩ orphan rfl rfl rfl rfl

theorem step_bootstrapped : Step env interrupted bootstrapped :=
  .bootstrap ⟨binding, opened⟩ generation true rfl rfl rfl rfl rfl

theorem step_prepared :
    Step env bootstrapped { bootstrapped with session := some ⟨binding, prepared⟩ } := by
  have hp : preparePage env ⟨binding, staged⟩ pending.request pending.response 0 =
      .ok (⟨binding, prepared⟩, page) := rfl
  exact .prepare pending.request pending.response 0 rfl hp

theorem step_committed :
    Step env { bootstrapped with session := some ⟨binding, prepared⟩ } committed :=
  .apply page 0 rfl rfl rfl rfl rfl

theorem reachable : Reachable env committed :=
  .step (.step (.step (.step (.step .init step_begun) step_interrupted) step_bootstrapped)
    step_prepared) step_committed

end Sample

/-- After one bootstrap page the staging generation holds that page's records, at its cursor. -/
theorem pages_applied_exactly_once_sample :
    Commits Sample.marked Sample.generation (some ⟨7, 2⟩) ∧
      foldRecords Sample.env (Sample.committed.applied Sample.generation) = .ok [10, 20] ∧
      Chained none (Sample.committed.applied Sample.generation) (some ⟨7, 2⟩) := by
  have hc : Commits Sample.marked Sample.generation (some ⟨7, 2⟩) := .inr ⟨_, rfl, rfl, rfl⟩
  obtain ⟨hfold, hchain, -⟩ := (pages_applied_exactly_once Sample.reachable).1 Sample.binding
    Sample.marked Sample.generation (some ⟨7, 2⟩) (AList.lookup_insert _) hc
  exact ⟨hc, hfold, hchain⟩

end Ingest
