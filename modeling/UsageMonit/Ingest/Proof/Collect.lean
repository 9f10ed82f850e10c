import Mathlib.Data.List.Perm.Subperm
import UsageMonit.Ingest.Proof.Rows

/-!
# The collector deletes what nothing refers to, and only that

`Referenced` is what must survive. The trace succeeds in every reachable world and finds exactly
the generations the states refer to (`tracedGenerations_eq`); a step keeps every referenced row
(`collectorStep_keeps`); a sweep deletes the first unreferenced rows up to its work limit
(`sweep_eq`), so passes repeated over a full catalogue delete all of them (`sweepPasses_eq`).
-/

namespace Ingest

open Fallible

variable {π ρ δ : Type} {env : IngestEnv π ρ δ} {g : RemoteHistoryGenerationId} {w : World π ρ δ}
  {h : HistoryStore π δ}

/-! ## References -/

/-- A state refers to a generation as active, bootstrap or expected-active one. -/
def RefersTo (s : StoredRemoteDeltaIngestState π) (g : RemoteHistoryGenerationId) : Prop :=
  (∃ a, s.active = some a ∧ a.generation = g) ∨
    ∃ x, s.bootstrap = some x ∧
      (x.generation = g ∨ ∃ e, x.expectedActive = some e ∧ e.generation = g)

/-- The manifest's active generation, and what the states of the source refer to. -/
def Referenced (h : HistoryStore π δ) (g : RemoteHistoryGenerationId) : Prop :=
  (∃ m, h.manifest = some m ∧ m.activeGeneration = g) ∨
    ∃ b s, h.states.lookup b = some s ∧ RefersTo s g

theorem mem_liveGenerations {s : StoredRemoteDeltaIngestState π} :
    g ∈ s.liveGenerations ↔ RefersTo s g := by
  unfold StoredRemoteDeltaIngestState.liveGenerations RefersTo
  cases hx : s.bootstrap with
  | none => simp
  | some x => simp [eq_comm]

theorem mem_protected :
    g ∈ protectedHistoryGenerations h ↔ ∃ b s, h.states.lookup b = some s ∧ RefersTo s g := by
  unfold protectedHistoryGenerations
  rw [List.mem_flatMap]
  constructor
  · rintro ⟨⟨b, s⟩, hmem, hg⟩
    exact ⟨b, s, AList.mem_lookup_iff.2 hmem, mem_liveGenerations.1 hg⟩
  · rintro ⟨b, s, hs, hg⟩
    exact ⟨⟨b, s⟩, AList.mem_lookup_iff.1 hs, mem_liveGenerations.2 hg⟩

theorem referenced_iff :
    Referenced h g ↔
      h.manifest.map (·.activeGeneration) = some g ∨ g ∈ protectedHistoryGenerations h := by
  unfold Referenced
  rw [mem_protected, Option.map_eq_some_iff]

/-! ## The trace -/

/-- **The trace never fails closed** on rows that the transactions wrote. -/
theorem tracedGenerations_eq (hi : StoreInv env h) :
    tracedGenerations env h = .ok (protectedHistoryGenerations h) := by
  have hrows : h.states.entries.forM (traceState env) = .ok () := by
    refine forM_ok ?_
    rintro ⟨b, s⟩ hmem
    have hv := (hi.states b s (AList.mem_lookup_iff.2 hmem)).1
    have hb := validate_binding hv
    unfold traceState
    simp only [hb, hv, ok_bind, ensure_ok]
  unfold tracedGenerations
  rw [ensure_of hi.namespaces, ok_bind, hrows, ok_bind]
  rfl

/-! ## Deleting -/

/-- The rows after deleting one generation. -/
def HistoryStore.deleteGeneration (env : IngestEnv π ρ δ) (h : HistoryStore π δ)
    (g : RemoteHistoryGenerationId) : HistoryStore π δ :=
  { h with
    generations := h.generations.erase g
    data := Function.update h.data g env.emptyData }

theorem gcRemoteGeneration_unreferenced {protectedIds : List RemoteHistoryGenerationId}
    (hi : StoreInv env h) (hm : h.manifest.map (·.activeGeneration) ≠ some g)
    (hp : g ∉ protectedIds) :
    h.gcRemoteGeneration env g protectedIds =
      if g ∈ h.generations then .ok (h.deleteGeneration env g, .deleted)
      else .ok (h, .notFound) := by
  unfold HistoryStore.gcRemoteGeneration
  rw [hi.remoteActive, ok_bind, if_neg hm, if_neg hp]
  cases hrow : h.generations.lookup g with
  | none =>
    rw [if_neg (AList.lookup_eq_none.1 hrow)]
    rfl
  | some b =>
    rw [if_pos (AList.lookup_isSome.1 (by rw [hrow]; rfl))]
    rfl

theorem StoreInv.deleteGeneration (hi : StoreInv env h)
    (hm : h.manifest.map (·.activeGeneration) ≠ some g) :
    StoreInv env (h.deleteGeneration env g) := by
  by_cases hg : g ∈ h.generations
  · have hgc := gcRemoteGeneration_unreferenced hi hm (List.not_mem_nil (a := g))
    rw [if_pos hg] at hgc
    exact hi.gc hgc
  · refine ⟨hi.namespaces, hi.states, fun m hm' => ?_, ?_⟩
    · have hrow := hi.manifest m hm'
      have hne : m.activeGeneration ≠ g := by
        rintro rfl
        rw [AList.lookup_eq_none.2 hg] at hrow
        cases hrow
      simp only [HistoryStore.deleteGeneration]
      rw [AList.lookup_erase_ne hne]
      exact hrow
    · exact (List.Sublist.length_le (List.kerase_sublist g _)).trans hi.capacity

/-! ## The sweep -/

/-- What the sweep tests of a candidate. -/
def collectable (protectedIds : List RemoteHistoryGenerationId)
    (active : Option RemoteActiveManifest) (g : RemoteHistoryGenerationId) : Bool :=
  decide (¬ (g ∈ protectedIds ∨ active.map (·.activeGeneration) = some g))

/-- The rows that a sweep may delete, in the order it visits them. -/
def unreferencedGenerations (h : HistoryStore π δ) : List RemoteHistoryGenerationId :=
  (h.generations.keys.insertionSort (· ≤ ·)).filter
    (collectable (protectedHistoryGenerations h) h.manifest)

theorem mem_unreferencedGenerations :
    g ∈ unreferencedGenerations h ↔ g ∈ h.generations ∧ ¬ Referenced h g := by
  unfold unreferencedGenerations collectable
  rw [List.mem_filter, List.mem_insertionSort, decide_eq_true_iff, referenced_iff, or_comm]
  rfl

def HistoryStore.deleteGenerations (env : IngestEnv π ρ δ) (h : HistoryStore π δ)
    (gs : List RemoteHistoryGenerationId) : HistoryStore π δ :=
  gs.foldl (HistoryStore.deleteGeneration env) h

section
variable (h : HistoryStore π δ) (gs : List RemoteHistoryGenerationId)

@[simp] theorem deleteGenerations_states : (h.deleteGenerations env gs).states = h.states := by
  induction gs generalizing h with
  | nil => rfl
  | cons g gs ih => exact ih (h.deleteGeneration env g)

@[simp] theorem deleteGenerations_manifest :
    (h.deleteGenerations env gs).manifest = h.manifest := by
  induction gs generalizing h with
  | nil => rfl
  | cons g gs ih => exact ih (h.deleteGeneration env g)

theorem mem_deleteGenerations :
    g ∈ (h.deleteGenerations env gs).generations ↔ g ∈ h.generations ∧ g ∉ gs := by
  induction gs generalizing h with
  | nil => simp [HistoryStore.deleteGenerations]
  | cons g' gs ih =>
    have hstep := ih (h.deleteGeneration env g')
    have hmem : g ∈ (h.deleteGeneration env g').generations ↔ g ≠ g' ∧ g ∈ h.generations :=
      AList.mem_erase
    rw [hmem] at hstep
    rw [List.mem_cons, not_or]
    exact hstep.trans (by tauto)

theorem deleteGenerations_of_notMem {g : RemoteHistoryGenerationId} (hg : g ∉ gs) :
    (h.deleteGenerations env gs).generations.lookup g = h.generations.lookup g ∧
      (h.deleteGenerations env gs).data g = h.data g := by
  induction gs generalizing h with
  | nil => exact ⟨rfl, rfl⟩
  | cons g' gs ih =>
    obtain ⟨hne, hgs⟩ := not_or.1 (mt List.mem_cons.2 hg)
    obtain ⟨hrow, hdata⟩ := ih (h.deleteGeneration env g') hgs
    refine ⟨hrow.trans ?_, hdata.trans ?_⟩
    · exact AList.lookup_erase_ne hne
    · exact Function.update_of_ne hne _ _

end

/-- The loop of the sweep, from a report on: it deletes the first candidates that the work limit
leaves room for and counts the others. -/
theorem sweep_loop {P : List RemoteHistoryGenerationId} {k : Nat} :
    ∀ {cs : List RemoteHistoryGenerationId} {h : HistoryStore π δ}
      {r : RemoteHistoryGenerationSweepReport}, StoreInv env h → cs.Nodup →
      (∀ c ∈ cs, c ∈ h.generations) →
      cs.foldlM (HistoryStore.sweepGeneration env P k h.manifest) (h, r) =
        .ok (h.deleteGenerations env
            ((cs.filter (collectable P h.manifest)).take (k - r.deleted)),
          ⟨r.deleted + min (k - r.deleted) (cs.filter (collectable P h.manifest)).length,
            r.skipped + (cs.length - (cs.filter (collectable P h.manifest)).length),
            r.remaining +
              ((cs.filter (collectable P h.manifest)).length - (k - r.deleted))⟩)
  | [], h, r, _, _, _ => by simp [HistoryStore.deleteGenerations, pure, Except.pure]
  | c :: cs, h, r, hi, hnd, hrows => by
    obtain ⟨hc, hnd⟩ := List.nodup_cons.1 hnd
    have hrest : ∀ c ∈ cs, c ∈ h.generations := fun c hc => hrows c (List.mem_cons_of_mem _ hc)
    have hlen := List.length_filter_le (collectable P h.manifest) cs
    rw [List.foldlM_cons]
    by_cases hskip : c ∈ P ∨ h.manifest.map (·.activeGeneration) = some c
    · -- skipped
      have hcol : collectable P h.manifest c = false := decide_eq_false (not_not.2 hskip)
      have hfilter : (c :: cs).filter (collectable P h.manifest) =
          cs.filter (collectable P h.manifest) := List.filter_cons_of_neg (by simp [hcol])
      have hbody : HistoryStore.sweepGeneration env P k h.manifest (h, r) c =
          .ok (h, { r with skipped := r.skipped + 1 }) := by
        simp only [HistoryStore.sweepGeneration, if_pos hskip]
        rfl
      rw [hbody, ok_bind, sweep_loop hi hnd hrest, hfilter, List.length_cons]
      congr 3
      simp only
      omega
    · have hfilter : (c :: cs).filter (collectable P h.manifest) =
          c :: cs.filter (collectable P h.manifest) :=
        List.filter_cons_of_pos (decide_eq_true hskip)
      rw [hfilter]
      by_cases hfull : k ≤ r.deleted
      · -- no work left
        have hbody : HistoryStore.sweepGeneration env P k h.manifest (h, r) c =
            .ok (h, { r with remaining := r.remaining + 1 }) := by
          simp only [HistoryStore.sweepGeneration, if_neg hskip, if_pos hfull]
          rfl
        have hzero : k - r.deleted = 0 := by omega
        rw [hbody, ok_bind, sweep_loop hi hnd hrest]
        simp only [hzero, List.take_zero, Nat.sub_zero, List.length_cons, Nat.zero_min]
        congr 3 <;> omega
      · -- deleted
        have hactive := (not_or.1 hskip).2
        have hgc := gcRemoteGeneration_unreferenced hi hactive (not_or.1 hskip).1
        rw [if_pos (hrows c List.mem_cons_self)] at hgc
        have hbody : HistoryStore.sweepGeneration env P k h.manifest (h, r) c =
            .ok (h.deleteGeneration env c, { r with deleted := r.deleted + 1 }) := by
          simp only [HistoryStore.sweepGeneration, if_neg hskip, if_neg hfull, hgc, ok_bind]
          rfl
        have hrest' : ∀ c' ∈ cs, c' ∈ (h.deleteGeneration env c).generations := by
          intro c' hc'
          refine AList.mem_erase.2 ⟨?_, hrest c' hc'⟩
          rintro rfl
          exact hc hc'
        have ih := sweep_loop (P := P) (k := k) (r := { r with deleted := r.deleted + 1 })
          (hi.deleteGeneration hactive) hnd hrest'
        have hmanifest : (h.deleteGeneration env c).manifest = h.manifest := rfl
        rw [hmanifest] at ih
        have hwork : k - r.deleted = (k - (r.deleted + 1)) + 1 := by omega
        rw [hbody, ok_bind, ih]
        simp only [hwork, List.length_cons, List.take_succ_cons]
        simp only [HistoryStore.deleteGenerations, List.foldl_cons]
        congr 3 <;> omega

/-- **A sweep** deletes the first eight unreferenced rows and counts all the others. -/
theorem sweep_eq {h : HistoryStore π δ} (hi : StoreInv env h) :
    sweepUnreferencedRemoteHistoryGenerations env h =
      .ok (h.deleteGenerations env
          ((unreferencedGenerations h).take remoteGenerationSweepWorkLimit),
        ⟨min remoteGenerationSweepWorkLimit (unreferencedGenerations h).length,
          h.generations.keys.length - (unreferencedGenerations h).length,
          (unreferencedGenerations h).length - remoteGenerationSweepWorkLimit⟩) := by
  have hnodup : (h.generations.keys.insertionSort (· ≤ ·)).Nodup :=
    (List.perm_insertionSort _ _).nodup_iff.2 (AList.keys_nodup _)
  have hloop := sweep_loop (P := protectedHistoryGenerations h)
    (k := remoteGenerationSweepWorkLimit) (r := ⟨0, 0, 0⟩) hi hnodup
    (fun c hc => (List.mem_insertionSort _).1 hc)
  unfold sweepUnreferencedRemoteHistoryGenerations
  rw [tracedGenerations_eq hi, ok_bind]
  unfold HistoryStore.sweepRemoteHistoryGenerations HistoryStore.remoteCatalog
  rw [ensure_of hi.capacity, hi.remoteActive]
  refine Eq.trans hloop ?_
  simp only [unreferencedGenerations, Nat.sub_zero, Nat.zero_add, List.length_insertionSort]

/-! ## Passes -/

/-- Sweeps one after another, as successive recoveries of the source run them. -/
def sweepPasses (env : IngestEnv π ρ δ) : Nat → HistoryStore π δ → Except String (HistoryStore π δ)
  | 0, h => .ok h
  | n + 1, h => do
    let (h, _) ← sweepUnreferencedRemoteHistoryGenerations env h
    sweepPasses env n h

theorem StoreInv.deleteGenerations {gs : List RemoteHistoryGenerationId} (hi : StoreInv env h)
    (hm : ∀ g ∈ gs, h.manifest.map (·.activeGeneration) ≠ some g) :
    StoreInv env (h.deleteGenerations env gs) := by
  induction gs generalizing h with
  | nil => exact hi
  | cons g gs ih =>
    exact ih (hi.deleteGeneration (hm g List.mem_cons_self))
      fun g' hg' => hm g' (List.mem_cons_of_mem _ hg')

theorem referenced_deleteGenerations {gs : List RemoteHistoryGenerationId} :
    Referenced (h.deleteGenerations env gs) g ↔ Referenced h g := by
  unfold Referenced
  rw [deleteGenerations_states, deleteGenerations_manifest]

/-- Passes delete unreferenced rows only, and enough of them delete all. -/
theorem sweepPasses_eq (n : Nat) : ∀ {h : HistoryStore π δ}, StoreInv env h →
    ∃ gs, sweepPasses env n h = .ok (h.deleteGenerations env gs) ∧
      (∀ g ∈ gs, ¬ Referenced h g) ∧
      ((unreferencedGenerations h).length ≤ n * remoteGenerationSweepWorkLimit →
        ∀ g ∈ h.generations, ¬ Referenced h g → g ∈ gs) := by
  induction n with
  | zero =>
    intro h hi
    refine ⟨[], rfl, fun g hg => ?_, fun hlen g hg hr => ?_⟩
    · cases hg
    · have hmem := mem_unreferencedGenerations.2 ⟨hg, hr⟩
      have := List.length_pos_of_mem hmem
      omega
  | succ n ih =>
    intro h hi
    let first := (unreferencedGenerations h).take remoteGenerationSweepWorkLimit
    have hfirst : ∀ g ∈ first, ¬ Referenced h g := fun g hg =>
      (mem_unreferencedGenerations.1 (List.mem_of_mem_take hg)).2
    have hi' : StoreInv env (h.deleteGenerations env first) :=
      hi.deleteGenerations fun g hg hm => hfirst g hg (referenced_iff.2 (.inl hm))
    obtain ⟨gs, hgs, hunref, hall⟩ := ih hi'
    refine ⟨first ++ gs, ?_, fun g hg => ?_, fun hlen g hg hr => ?_⟩
    · unfold sweepPasses
      rw [sweep_eq hi, ok_bind]
      refine hgs.trans ?_
      unfold HistoryStore.deleteGenerations
      rw [List.foldl_append]
    · rcases List.mem_append.1 hg with hg | hg
      · exact hfirst g hg
      · exact mt referenced_deleteGenerations.2 (hunref g hg)
    · by_cases hin : g ∈ first
      · exact List.mem_append_left _ hin
      · refine List.mem_append_right _ (hall ?_ g ?_ (mt referenced_deleteGenerations.1 hr))
        · -- the rows left over are those after the first ones
          have hsub : unreferencedGenerations (h.deleteGenerations env first) ⊆
              (unreferencedGenerations h).drop remoteGenerationSweepWorkLimit := by
            intro g' hg'
            obtain ⟨hrow, hr'⟩ := mem_unreferencedGenerations.1 hg'
            obtain ⟨hrow, hnot⟩ := (mem_deleteGenerations _ _).1 hrow
            have hmem := mem_unreferencedGenerations.2
              ⟨hrow, mt referenced_deleteGenerations.2 hr'⟩
            rw [← List.take_append_drop remoteGenerationSweepWorkLimit
              (unreferencedGenerations h)] at hmem
            exact (List.mem_append.1 hmem).resolve_left hnot
          have hnodup' : (unreferencedGenerations (h.deleteGenerations env first)).Nodup :=
            ((List.perm_insertionSort _ _).nodup_iff.2 (AList.keys_nodup _)).filter _
          have hle := (List.subperm_of_subset hnodup' hsub).length_le
          rw [List.length_drop] at hle
          rw [Nat.succ_mul] at hlen
          omega
        · exact (mem_deleteGenerations _ _).2 ⟨hg, hin⟩

/-! ## What a step deletes -/

/-- The row of a generation is untouched, and its data at most extended. -/
def Kept (env : IngestEnv π ρ δ) (h h' : HistoryStore π δ) (g : RemoteHistoryGenerationId) :
    Prop :=
  h'.generations.lookup g = h.generations.lookup g ∧
    (h'.data g = h.data g ∨ ∃ records, env.recordChanges (h.data g) records = .ok (h'.data g))

theorem Kept.of_eq {h' : HistoryStore π δ} (hg : h'.generations = h.generations)
    (hd : h'.data = h.data) : Kept env h h' g := by
  refine ⟨?_, .inl ?_⟩
  · rw [hg]
  · rw [hd]

theorem lookup_ensure {h' : HistoryStore π δ} {g' : RemoteHistoryGenerationId}
    {b : SourceHistoryRemoteBinding} (he : h.ensureRemoteGeneration g' b = .ok h')
    (hg : g ∈ h.generations) : h'.generations.lookup g = h.generations.lookup g := by
  rcases ensureRemoteGeneration_rows he with ⟨rfl, -⟩ | ⟨hnone, -, rfl⟩
  · rfl
  · refine AList.lookup_insert_ne ?_
    rintro rfl
    exact AList.lookup_eq_none.1 hnone hg

theorem kept_gc {h' : HistoryStore π δ} {g' : RemoteHistoryGenerationId}
    {outcome : RemoteHistoryGenerationGcOutcome}
    (hgc : h.gcRemoteGeneration env g' (protectedHistoryGenerations h) = .ok (h', outcome))
    (hr : Referenced h g) : Kept env h h' g := by
  rcases gcRemoteGeneration_rows hgc with ⟨-, hm, hp, rfl⟩ | ⟨-, rfl⟩
  · have hne : g ≠ g' := by
      rintro rfl
      rcases referenced_iff.1 hr with h | h
      · exact hm h
      · exact hp h
    exact ⟨AList.lookup_erase_ne hne, .inl (Function.update_of_ne hne _ _)⟩
  · exact .of_eq rfl rfl

theorem step_keeps [DecidableEq ρ] {w' : World π ρ δ} (hs : Step env w w')
    (hg : g ∈ w.store.generations) (hr : Referenced w.store g) : Kept env w.store w'.store g := by
  cases hs with
  | begin _ _ hl =>
    unfold loadOrCreateState at hl
    split at hl
    · obtain ⟨_, -, hl⟩ := bind_ok hl
      cases hl
      exact .of_eq rfl rfl
    · obtain ⟨_, -, hl⟩ := bind_ok hl
      obtain ⟨_, -, hl⟩ := bind_ok hl
      cases hl
      exact .of_eq rfl rfl
  | crash => exact .of_eq rfl rfl
  | fail => exact .of_eq rfl rfl
  | prepare => exact .of_eq rfl rfl
  | apply page _ hσ ha hp hr hd =>
    obtain ⟨_, h₁, next, -, hrec, -, hwrite, rfl⟩ := applyAndCommit_steps ha
    obtain ⟨-, rfl⟩ := writeState_ok hwrite
    obtain ⟨-, d, hd, hdata⟩ := applyRemoteDeltaRecords_ok hrec
    refine ⟨?_, ?_⟩
    · rcases (applyRemoteDeltaRecords_rows hrec).2 with hgens | ⟨g', h', -, he, hgens⟩
      · exact congrArg _ hgens
      · exact (congrArg _ hgens).trans (lookup_ensure he hg)
    · simp only [hdata]
      by_cases hne : g = page.target.resultingGeneration
      · subst hne
        refine .inr ⟨_, hd.trans ?_⟩
        rw [Function.update_self]
      · exact .inl (Function.update_of_ne hne _ _)
  | activate _ hσ ha =>
    have hdata := (activate_ok ha).2.2.2.1
    unfold activateRemoteDeltaBootstrap at ha
    split at ha
    · cases ha
    · obtain ⟨h₁, hact, ha⟩ := bind_ok ha
      obtain ⟨next, -, ha⟩ := bind_ok ha
      obtain ⟨h₂, hwrite, ha⟩ := bind_ok ha
      cases ha
      obtain ⟨-, rfl⟩ := writeState_ok hwrite
      exact .of_eq (activateRemoteGeneration_rows hact).2.1 hdata
  | bootstrapInterrupted _ _ _ _ _ he =>
    exact ⟨lookup_ensure he hg, .inl (by rw [(ensureRemoteGeneration_ok he).2])⟩
  | bootstrap _ _ _ _ _ _ he hwrite =>
    obtain ⟨-, rfl⟩ := writeState_ok hwrite
    have hrow := lookup_ensure he hg
    exact ⟨hrow, .inl (by rw [(ensureRemoteGeneration_ok he).2])⟩
  | collectInterrupted _ _ _ hc =>
    obtain ⟨_, -, hc⟩ := bind_ok hc
    exact kept_gc hc hr
  | collect _ _ _ _ hc _ hwrite =>
    obtain ⟨_, -, hc⟩ := bind_ok hc
    obtain ⟨-, rfl⟩ := writeState_ok hwrite
    have hkept := kept_gc hc hr
    exact hkept

/-- **A step keeps every referenced row.** -/
theorem collectorStep_keeps [DecidableEq ρ] {w' : World π ρ δ} (hw : RowsInv env w)
    (hs : CollectorStep env w w') (hg : g ∈ w.store.generations) (hr : Referenced w.store g) :
    Kept env w.store w'.store g := by
  cases hs with
  | ingest hs => exact step_keeps hs hg hr
  | sweep _ _ hsweep =>
    rw [sweep_eq hw.store] at hsweep
    cases hsweep
    have hnot : g ∉ (unreferencedGenerations w.store).take remoteGenerationSweepWorkLimit := by
      intro hmem
      exact (mem_unreferencedGenerations.1 (List.mem_of_mem_take hmem)).2 hr
    obtain ⟨hrow, hdata⟩ := @deleteGenerations_of_notMem π ρ δ env w.store _ g hnot
    exact ⟨hrow, .inl hdata⟩
  | garbageCollect _ _ _ hgc =>
    unfold garbageCollectRemoteHistoryGeneration at hgc
    rw [tracedGenerations_eq hw.store, ok_bind] at hgc
    exact kept_gc hgc hr

theorem collectorStep_rows [DecidableEq ρ] {w' : World π ρ δ} (hw : RowsInv env w)
    (hs : CollectorStep env w w') : RowsInv env w' := by
  cases hs with
  | ingest hs => exact step_rows hw hs
  | sweep _ _ hsweep =>
    rw [sweep_eq hw.store] at hsweep
    cases hsweep
    refine rows_store hw (hw.store.deleteGenerations fun g hg hm => ?_)
      (deleteGenerations_states _ _) _ _
    exact (mem_unreferencedGenerations.1 (List.mem_of_mem_take hg)).2 (referenced_iff.2 (.inl hm))
  | garbageCollect _ _ _ hgc =>
    unfold garbageCollectRemoteHistoryGeneration at hgc
    rw [tracedGenerations_eq hw.store, ok_bind] at hgc
    refine rows_store hw (hw.store.gc hgc) ?_ _ _
    rcases gcRemoteGeneration_rows hgc with ⟨-, -, -, rfl⟩ | ⟨-, rfl⟩
    · rfl
    · rfl

theorem collectorReachable_rows [DecidableEq ρ] (h : CollectorReachable env w) : RowsInv env w := by
  induction h with
  | init => exact rows_init
  | step _ hs ih => exact collectorStep_rows ih hs

theorem Reachable.collector [DecidableEq ρ] (h : Reachable env w) : CollectorReachable env w := by
  induction h with
  | init => exact .init
  | step _ hs ih => exact .step ih (.ingest hs)

/-- **The collector.** In every reachable world the trace succeeds and finds what the states refer
to; no step deletes a referenced generation; a candidate that is not referenced is gone after its
collection; a sweep leaves exactly the rows that are referenced or lie beyond its work limit, and
four sweeps leave the referenced ones only. -/
theorem collection_deletes_exactly_unreferenced [DecidableEq ρ] {w : World π ρ δ}
    (hw : CollectorReachable env w) :
    (∃ traced, tracedGenerations env w.store = .ok traced ∧
        ∀ g, g ∈ traced ↔ ∃ b s, w.store.states.lookup b = some s ∧ RefersTo s g) ∧
      (∀ w', CollectorStep env w w' → ∀ g, g ∈ w.store.generations → Referenced w.store g →
        Kept env w.store w'.store g) ∧
      (∀ candidate, ¬ Referenced w.store candidate → ∃ h outcome,
        garbageCollectRemoteHistoryGeneration env w.store candidate = .ok (h, outcome) ∧
          (outcome = if candidate ∈ w.store.generations then .deleted else .notFound) ∧
          ∀ g, g ∈ h.generations ↔ g ∈ w.store.generations ∧ g ≠ candidate) ∧
      (∃ h report, sweepUnreferencedRemoteHistoryGenerations env w.store = .ok (h, report) ∧
        report.deleted = min remoteGenerationSweepWorkLimit
          (unreferencedGenerations w.store).length ∧
        report.deleted + report.remaining = (unreferencedGenerations w.store).length ∧
        ∀ g, g ∈ h.generations ↔ g ∈ w.store.generations ∧
          g ∉ (unreferencedGenerations w.store).take remoteGenerationSweepWorkLimit) ∧
      ∃ h, sweepPasses env 4 w.store = .ok h ∧
        ∀ g, g ∈ h.generations ↔ g ∈ w.store.generations ∧ Referenced w.store g := by
  have hi := collectorReachable_rows hw
  refine ⟨⟨_, tracedGenerations_eq hi.store, fun g => mem_protected⟩,
    fun w' hs g hg hr => collectorStep_keeps hi hs hg hr, fun c hc => ?_, ?_, ?_⟩
  · obtain ⟨hm, hp⟩ := not_or.1 (mt referenced_iff.2 hc)
    have hgc := gcRemoteGeneration_unreferenced hi.store hm hp
    unfold garbageCollectRemoteHistoryGeneration
    rw [tracedGenerations_eq hi.store, ok_bind, hgc]
    by_cases hmem : c ∈ w.store.generations
    · rw [if_pos hmem, if_pos hmem]
      refine ⟨_, _, rfl, rfl, fun g => ?_⟩
      exact AList.mem_erase.trans and_comm
    · rw [if_neg hmem, if_neg hmem]
      refine ⟨_, _, rfl, rfl, fun g => ⟨fun hg => ⟨hg, ?_⟩, fun hg => hg.1⟩⟩
      rintro rfl
      exact hmem hg
  · refine ⟨_, _, sweep_eq hi.store, rfl, ?_, fun g => mem_deleteGenerations _ _⟩
    simp only
    omega
  · obtain ⟨gs, hgs, hunref, hall⟩ := sweepPasses_eq 4 hi.store
    refine ⟨_, hgs, fun g => (mem_deleteGenerations _ _).trans ?_⟩
    have hlen : (unreferencedGenerations w.store).length ≤ 4 * remoteGenerationSweepWorkLimit := by
      have hcap : w.store.generations.keys.length ≤ maxRemoteHistoryGenerations := by
        have := hi.store.capacity
        rwa [AList.keys, List.keys, List.length_map]
      refine (List.length_filter_le _ _).trans ?_
      rw [List.length_insertionSort]
      exact hcap
    constructor
    · rintro ⟨hg, hnot⟩
      refine ⟨hg, ?_⟩
      by_contra hr
      exact hnot (hall hlen g hg hr)
    · rintro ⟨hg, hr⟩
      exact ⟨hg, fun hmem => hunref g hmem hr⟩

/-- The sweeps keep the bootstrap of the sample run's binding, and delete what was left behind. -/
theorem collection_deletes_exactly_unreferenced_sample :
    Sample.orphan ∈ Sample.committed.store.generations ∧
      ∃ h, sweepPasses Sample.env 4 Sample.committed.store = .ok h ∧
        Sample.generation ∈ h.generations ∧ Sample.orphan ∉ h.generations := by
  have hreach : CollectorReachable Sample.env Sample.committed := Sample.reachable.collector
  have href : Referenced Sample.committed.store Sample.generation := referenced_iff.2 (by decide)
  have hunref : ¬ Referenced Sample.committed.store Sample.orphan := mt referenced_iff.1 (by decide)
  obtain ⟨h, hsweep, hrows⟩ := (collection_deletes_exactly_unreferenced hreach).2.2.2.2
  exact ⟨by decide, h, hsweep, (hrows _).2 ⟨by decide, href⟩, fun hmem => hunref ((hrows _).1 hmem).2⟩

end Ingest
