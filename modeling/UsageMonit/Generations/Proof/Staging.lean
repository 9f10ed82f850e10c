import UsageMonit.Generations.Proof.Frame

/-!
# Staging is invisible, and activations are monotone

One lemma for each operation: a staged page, a new generation and a collection leave what readers
see alone, a page of the active generation keeps the reference, and an activation that switches the
reference did so from the expected one to a binding that does not roll back.
-/

namespace Generations

open Fallible Time Ingest HistoryTables

variable {ρ : Type} {env : GenerationEnv ρ} {scope : HistoryScope} {t t' : HistoryTables ρ}
  {g : RemoteHistoryGenerationId} {protectedIds : List RemoteHistoryGenerationId}

/-! ## What readers see -/

def SameRows (scope : HistoryScope) (t t' : HistoryTables ρ) (g : RemoteHistoryGenerationId) :
    Prop :=
  (∀ key ∈ generationKeys scope g, t'.states.lookup key = t.states.lookup key) ∧
    ∀ ns ∈ familyNamespaces scope g, t'.record ns = t.record ns

/-- The rows that readers of a selected generation resolve. -/
structure SameView (scope : HistoryScope) (t t' : HistoryTables ρ) : Prop where
  active : t'.states.lookup scope.activeKey = t.states.lookup scope.activeKey
  selected : ∀ m, manifest scope t = some m → SameRows scope t t' m.activeGeneration

theorem SameView.refl : SameView scope t t := ⟨rfl, fun _ _ => ⟨fun _ _ => rfl, fun _ _ => rfl⟩⟩

theorem SameView.trans {t'' : HistoryTables ρ} (h : SameView scope t t')
    (h' : SameView scope t' t'') : SameView scope t t'' := by
  refine ⟨h'.active.trans h.active, fun m hm => ?_⟩
  obtain ⟨hkeys, hrecords⟩ := h.selected m hm
  obtain ⟨hkeys', hrecords'⟩ := h'.selected m ((manifest_congr h.active).trans hm)
  exact ⟨fun key hkey => (hkeys' key hkey).trans (hkeys key hkey),
    fun ns hns => (hrecords' ns hns).trans (hrecords ns hns)⟩

theorem SameView.snapshot (h : SameView scope t t') {s : RemoteHistorySnapshot ρ}
    (hs : loadRemoteHistorySnapshot env scope t = .ok s) :
    loadRemoteHistorySnapshot env scope t' = .ok s := by
  rw [← hs]
  unfold loadRemoteHistorySnapshot at hs ⊢
  obtain ⟨active, hactive, hs⟩ := bind_ok hs
  obtain ⟨hm, -⟩ := remoteActive_ok hactive
  have hactive' : remoteActive env scope t' = .ok active := by
    rw [← hactive]
    unfold remoteActive activeState
    rw [readState_congr h.active]
    cases hread : t.readState scope.activeKey _ with
    | error e => rfl
    | ok stored =>
      cases stored with
      | none => rfl
      | some m =>
        have hstored : manifest scope t = some m := by
          have hsome : active = some m := by
            unfold remoteActive activeState at hactive
            rw [hread, ok_bind] at hactive
            obtain ⟨_, -, hactive⟩ := bind_ok hactive
            cases hactive
            rfl
          rw [← hm, hsome]
        have hg := (h.selected m hstored).1 _ List.mem_cons_self
        simp only [ok_bind, checkSome, checkActive, remoteGeneration_congr hg]
  rw [hactive', hactive, ok_bind, ok_bind]
  cases active with
  | none => rfl
  | some m =>
    obtain ⟨hkeys, hrecords⟩ := h.selected m hm.symm
    simp only [remoteGeneration_congr (hkeys _ List.mem_cons_self)]
    cases hvalue : remoteGeneration env scope t m.activeGeneration with
    | error e => rfl
    | ok value =>
      have hname : remoteDataGeneration value = m.activeGeneration := remoteGeneration_ok hvalue
      simp only [ok_bind, hname, hrecords _ List.mem_cons_self,
        hrecords _ (List.mem_cons_of_mem _ List.mem_cons_self)]

theorem sameView_of_writes
    (hw : WritesIn (generationKeys scope g) (familyNamespaces scope g) t t')
    (hne : ∀ m, manifest scope t = some m → m.activeGeneration ≠ g) : SameView scope t t' := by
  refine ⟨hw.states _ ?_, fun m hm => ⟨fun key hkey => hw.states _ ?_, fun ns hns =>
    hw.records _ ?_⟩⟩
  · simp [generationKeys, active_ne_generation, active_ne_quota]
  · exact generationKeys_disjoint (hne m hm) hkey
  · exact familyNamespaces_disjoint (hne m hm) hns

/-! ## The operations -/

/-- **A staged page is invisible.** -/
theorem applyRemoteGenerationPage_view [DecidableEq ρ] {binding : SourceHistoryRemoteBinding}
    {page : HistoryPage ρ} (h : applyRemoteGenerationPage env scope t g binding page = .ok t') :
    SameView scope t t' := by
  iterate 3 obtain ⟨_, -, h⟩ := bind_ok h
  obtain ⟨active, hactive, h⟩ := bind_ok h
  obtain ⟨_, hother, h⟩ := bind_ok h
  obtain ⟨value, hvalue, h⟩ := bind_ok h
  obtain ⟨_, -, h⟩ := bind_ok h
  obtain ⟨⟨t₁, changed⟩, hpage, h⟩ := bind_ok h
  cases h
  have hname : remoteDataGeneration value = g := remoteGeneration_ok hvalue
  rw [hname] at hpage
  have hw := (writePage_writes hpage).mono (List.subset_cons_self (scope.generationKey g) _)
    (List.Subset.refl _)
  refine sameView_of_writes hw fun m hm => ?_
  exact ensure_ok.1 hother m ((remoteActive_ok hactive).1.trans hm)

theorem advanceProjectionRevision_writes
    (h : advanceProjectionRevision scope t = .ok t') :
    WritesIn [scope.publicationRevisionKey] [] t t' := by
  obtain ⟨stored, -, h⟩ := bind_ok h
  obtain ⟨next, -, h⟩ := bind_ok h
  cases h
  exact setState_writes _ _ List.mem_cons_self

theorem applyRemoteActivePage_ref [DecidableEq ρ] {expected : SourceHistoryRemoteActiveRef}
    {binding : SourceHistoryRemoteBinding} {page : HistoryPage ρ} {activatedAt : DateTime}
    (h : applyRemoteActivePage env scope t expected binding page activatedAt = .ok t') :
    (manifest scope t').map (·.ref) = (manifest scope t).map (·.ref) := by
  iterate 3 obtain ⟨_, -, h⟩ := bind_ok h
  obtain ⟨active, hactive, h⟩ := bind_ok h
  obtain ⟨m, hm, h⟩ := bind_ok h
  obtain ⟨actual, -, h⟩ := bind_ok h
  obtain ⟨_, -, h⟩ := bind_ok h
  obtain ⟨_, -, h⟩ := bind_ok h
  obtain ⟨generation, -, h⟩ := bind_ok h
  obtain ⟨⟨t₁, changed⟩, -, h⟩ := bind_ok h
  obtain ⟨t₂, -, h⟩ := bind_ok h
  cases h
  rw [← (remoteActive_ok hactive).1, okOr_ok.1 hm]
  unfold manifest setState
  simp only [AList.lookup_insert]
  rfl

theorem ensureRemoteGeneration_view {binding : SourceHistoryRemoteBinding}
    (h : ensureRemoteGeneration env scope t g binding = .ok t') :
    t'.states.lookup scope.activeKey = t.states.lookup scope.activeKey ∧
      (remoteActive env scope t = .ok (manifest scope t) → SameView scope t t') := by
  iterate 4 obtain ⟨_, -, h⟩ := bind_ok h
  obtain ⟨stored, hstored, h⟩ := bind_ok h
  cases stored with
  | some existing =>
    iterate 3 obtain ⟨_, -, h⟩ := bind_ok h
    cases h
    exact ⟨rfl, fun _ => .refl⟩
  | none =>
    cases h
    have hw : WritesIn (generationKeys scope g) (familyNamespaces scope g) t
        (t.setState (scope.generationKey g) (.generation ⟨remoteGenerationFormatVersion,
          scope.profileId, scope.sourceId, scope.redactionProfile, g, binding⟩)) :=
      setState_writes _ _ List.mem_cons_self
    refine ⟨hw.states _ (by simp [generationKeys, active_ne_generation, active_ne_quota]), fun hactive => ?_⟩
    refine sameView_of_writes hw fun m hm heq => ?_
    -- a manifest selects a generation that has a row
    have hcheck := (remoteActive_ok hactive).2 m hm
    obtain ⟨_, -, hcheck⟩ := bind_ok hcheck
    obtain ⟨value, hvalue, -⟩ := bind_ok hcheck
    obtain ⟨row, hrow, hvalue⟩ := bind_ok hvalue
    obtain ⟨_, hsome, -⟩ := bind_ok hvalue
    rw [heq, hstored] at hrow
    cases hrow
    cases hsome

theorem deleteGenerationData_writes : WritesIn (generationKeys scope g) (familyNamespaces scope g)
    t (deleteGenerationData scope t g) := by
  refine (deleteNamespace_writes _ ?_).trans ((deleteNamespace_writes _ ?_).trans
    ((deleteState_writes _ ?_).trans (deleteNamespace_writes _ ?_)))
  all_goals simp [generationKeys, familyNamespaces]

theorem gc_view {outcome : RemoteHistoryGenerationGcOutcome}
    (h : gcRemoteGeneration env scope t g protectedIds = .ok (t', outcome)) :
    SameView scope t t' := by
  obtain ⟨_, -, h⟩ := bind_ok h
  obtain ⟨active, hactive, h⟩ := bind_ok h
  split at h
  · cases h
    exact .refl
  · rename_i hother
    split at h
    · cases h
      exact .refl
    · obtain ⟨stored, -, h⟩ := bind_ok h
      have hne : ∀ m, manifest scope t = some m → m.activeGeneration ≠ g := by
        intro m hm heq
        rw [(remoteActive_ok hactive).1, hm] at hother
        exact hother (congrArg some heq)
      cases stored with
      | none =>
        cases h
        exact .refl
      | some value =>
        obtain ⟨_, hvalid, h⟩ := bind_ok h
        obtain ⟨_, -, h⟩ := bind_ok h
        obtain ⟨catalog, -, h⟩ := bind_ok h
        have hname : remoteDataGeneration value = g := by
          obtain ⟨_, -, hvalid⟩ := bind_ok hvalid
          obtain ⟨_, -, hvalid⟩ := bind_ok hvalid
          exact (ensure_ok.1 hvalid).2.2.2.2
        have hrow : WritesIn (generationKeys scope g) (familyNamespaces scope g)
            t (t.deleteState (scope.generationKey g)) := deleteState_writes _ List.mem_cons_self
        split at h
        · cases h
          exact sameView_of_writes hrow hne
        · cases h
          rw [hname]
          exact sameView_of_writes (hrow.trans deleteGenerationData_writes) hne

/-- What every collection does to the tables, a sweep does. -/
theorem sweep_related {R : HistoryTables ρ → HistoryTables ρ → Prop} (hrefl : ∀ t, R t t)
    (htrans : ∀ t t' t'', R t t' → R t' t'' → R t t'')
    (hgc : ∀ t t' g outcome, gcRemoteGeneration env scope t g protectedIds = .ok (t', outcome) →
      R t t') {maxWork deleted : Nat}
    (h : sweepRemoteGenerations env scope t protectedIds maxWork = .ok (t', deleted)) : R t t' := by
  iterate 3 obtain ⟨_, -, h⟩ := bind_ok h
  refine foldlM_ok (R := fun acc acc' : HistoryTables ρ × Nat => R acc.1 acc'.1)
    (fun acc => hrefl acc.1) (fun a b c => htrans a.1 b.1 c.1) (fun row _ acc acc' hstep => ?_) h
  unfold sweepGeneration at hstep
  dsimp only at hstep
  split at hstep
  · cases hstep
    exact hrefl _
  · split at hstep
    · cases hstep
      exact hrefl _
    · obtain ⟨⟨t₁, outcome⟩, hcollected, hstep⟩ := bind_ok hstep
      cases hstep
      exact hgc _ _ _ _ hcollected

/-! ## Activations -/

/-- No component of a binding goes back. -/
structure BindingLe (a b : SourceHistoryRemoteBinding) : Prop where
  node : b.source.nodeId = a.source.nodeId
  generation : a.source.generation ≤ b.source.generation
  historyFormat : a.revisions.historyFormat ≤ b.revisions.historyFormat
  metric : a.revisions.metric ≤ b.revisions.metric
  estimator : a.revisions.estimator ≤ b.revisions.estimator
  projectBreakdown : a.revisions.projectBreakdown ≤ b.revisions.projectBreakdown
  apiPricingCatalog : a.revisions.apiPricingCatalog ≤ b.revisions.apiPricingCatalog

theorem BindingLe.refl (a : SourceHistoryRemoteBinding) : BindingLe a a := by
  constructor <;> rfl

theorem BindingLe.trans {a b c : SourceHistoryRemoteBinding} (h : BindingLe a b)
    (h' : BindingLe b c) : BindingLe a c where
  node := h'.node.trans h.node
  generation := h.generation.trans h'.generation
  historyFormat := h.historyFormat.trans h'.historyFormat
  metric := h.metric.trans h'.metric
  estimator := h.estimator.trans h'.estimator
  projectBreakdown := h.projectBreakdown.trans h'.projectBreakdown
  apiPricingCatalog := h.apiPricingCatalog.trans h'.apiPricingCatalog

theorem validateBindingDoesNotRollBack_ok {a b : SourceHistoryRemoteBinding}
    (h : validateBindingDoesNotRollBack env a b = .ok ()) : BindingLe a b := by
  obtain ⟨_, -, h⟩ := bind_ok h
  obtain ⟨_, -, h⟩ := bind_ok h
  obtain ⟨_, hnode, h⟩ := bind_ok h
  obtain ⟨h₁, h₂, h₃, h₄, h₅, h₆⟩ := ensure_ok.1 h
  exact ⟨ensure_ok.1 hnode, h₁, h₂, h₃, h₄, h₅, h₆⟩

/-- An activation that changed the manifest: it found the expected one, and both families of the
new generation are what readers see. -/
structure Switched (env : GenerationEnv ρ) (scope : HistoryScope) (t t' : HistoryTables ρ)
    (expected : Option SourceHistoryRemoteActiveRef) (candidate : RemoteHistoryGenerationId)
    (binding : SourceHistoryRemoteBinding) : Prop where
  matched : (manifest scope t).map (·.ref) = expected
  forward : ∀ m, manifest scope t = some m → BindingLe m.binding binding
  selected : (manifest scope t').map (·.ref) = some ⟨candidate, binding⟩
  snapshot : loadRemoteHistorySnapshot env scope t' = .ok ⟨some ⟨candidate, binding⟩,
    t.record (scope.bucketsNamespace candidate), t.record (scope.digestsNamespace candidate)⟩
  records : t'.records = t.records

theorem activateRemoteGeneration_ok [DecidableEq ρ]
    {expected : Option SourceHistoryRemoteActiveRef} {candidate : RemoteHistoryGenerationId}
    {binding : SourceHistoryRemoteBinding} {activatedAt : DateTime}
    (h : activateRemoteGeneration env scope t expected candidate binding activatedAt = .ok t') :
    t' = t ∨ Switched env scope t t' expected candidate binding := by
  obtain ⟨_, hcandidate, h⟩ := bind_ok h
  obtain ⟨_, hbinding, h⟩ := bind_ok h
  obtain ⟨_, -, h⟩ := bind_ok h
  obtain ⟨_, -, h⟩ := bind_ok h
  obtain ⟨value, hvalue, h⟩ := bind_ok h
  obtain ⟨_, hbound, h⟩ := bind_ok h
  obtain ⟨active, hactive, h⟩ := bind_ok h
  obtain ⟨wanted, -, h⟩ := bind_ok h
  split at h
  · cases h
    exact .inl rfl
  · obtain ⟨_, hexpected, h⟩ := bind_ok h
    obtain ⟨_, hforward, h⟩ := bind_ok h
    have hm := (remoteActive_ok hactive).1
    have hrev := advanceProjectionRevision_writes h
    have hrecords : t'.records = t.records := by
      obtain ⟨_, -, h⟩ := bind_ok h
      obtain ⟨_, -, h⟩ := bind_ok h
      cases h
      rfl
    have hrow : t'.states.lookup scope.activeKey = some (.active
        ⟨remoteActiveManifestFormatVersion, scope.profileId, scope.sourceId,
          scope.redactionProfile, candidate, binding, activatedAt⟩) := by
      rw [hrev.states _ (by simp [active_ne_revision])]
      exact AList.lookup_insert _
    have hgeneration : t'.states.lookup (scope.generationKey candidate) =
        t.states.lookup (scope.generationKey candidate) := by
      rw [hrev.states _ (by simp [generation_ne_revision])]
      exact AList.lookup_insert_ne (Ne.symm (active_ne_generation scope))
    have hvalue' : remoteGeneration env scope t' candidate = .ok value :=
      (remoteGeneration_congr hgeneration).trans hvalue
    refine .inr ⟨hm ▸ ensure_ok.1 hexpected, fun m hm' => ?_, ?_, ?_, hrecords⟩
    · have hcheck := checkSome_ok hforward (hm.trans hm')
      exact validateBindingDoesNotRollBack_ok hcheck
    · unfold manifest
      rw [hrow]
      rfl
    · have hread : remoteActive env scope t' = .ok (some
          ⟨remoteActiveManifestFormatVersion, scope.profileId, scope.sourceId,
            scope.redactionProfile, candidate, binding, activatedAt⟩) := by
        unfold remoteActive activeState readState
        rw [hrow]
        simp only [okOr, ok_bind, pure, Except.pure, checkSome, checkActive,
          RemoteActiveManifest.validate, hvalue']
        rw [show validateGeneration candidate = .ok () from hcandidate,
          show validateBindingNamespace env scope binding = .ok () from hbinding]
        simp [ensure, ensure_ok.1 hbound]
      have hname : remoteDataGeneration value = candidate := remoteGeneration_ok hvalue
      have hsame : t'.record = t.record := by
        unfold record
        rw [hrecords]
      unfold loadRemoteHistorySnapshot
      rw [hread]
      simp only [ok_bind, hvalue', hname, hsame]
      rfl

/-! ## Runs -/

namespace HistoryOperation
variable [DecidableEq ρ]

theorem collect_view {candidate : RemoteHistoryGenerationId}
    (h : (collect candidate protectedIds).apply env scope t = .ok t') : SameView scope t t' := by
  obtain ⟨⟨t₁, outcome⟩, hgc, rfl⟩ := map_ok h
  obtain ⟨_, -, hgc⟩ := bind_ok hgc
  obtain ⟨_, -, hgc⟩ := bind_ok hgc
  exact gc_view hgc

theorem sweep_view {maxWork : Nat} (h : (sweep protectedIds maxWork).apply env scope t = .ok t') :
    SameView scope t t' := by
  obtain ⟨acc, hsweep, rfl⟩ := map_ok h
  exact sweep_related (fun _ => .refl) (fun _ _ _ => .trans) (fun _ _ _ _ => gc_view) hsweep

theorem apply_ref {op : HistoryOperation ρ} (h : op.apply env scope t = .ok t') :
    (manifest scope t').map (·.ref) = (manifest scope t).map (·.ref) ∨
      ∃ expected candidate binding activatedAt,
        op = .activate expected candidate binding activatedAt ∧
          Switched env scope t t' expected candidate binding := by
  cases op with
  | ensure g binding =>
    exact .inl (congrArg _ (manifest_congr (ensureRemoteGeneration_view h).1))
  | stagePage g binding page =>
    exact .inl (congrArg _ (manifest_congr (applyRemoteGenerationPage_view h).active))
  | activePage expected binding page activatedAt => exact .inl (applyRemoteActivePage_ref h)
  | activate expected candidate binding activatedAt =>
    rcases activateRemoteGeneration_ok h with rfl | hswitch
    · exact .inl rfl
    · exact .inr ⟨expected, candidate, binding, activatedAt, rfl, hswitch⟩
  | collect candidate protectedIds =>
    exact .inl (congrArg _ (manifest_congr (collect_view h).active))
  | sweep protectedIds maxWork =>
    exact .inl (congrArg _ (manifest_congr (sweep_view h).active))

/-- The operations that are made to change what readers see. -/
def visible : HistoryOperation ρ → Bool
  | activePage _ _ _ _ => true
  | activate _ _ _ _ => true
  | _ => false

theorem apply_view {op : HistoryOperation ρ} (hop : op.visible = false)
    (hactive : remoteActive env scope t = .ok (manifest scope t))
    (h : op.apply env scope t = .ok t') : SameView scope t t' := by
  cases op with
  | ensure g binding => exact (ensureRemoteGeneration_view h).2 hactive
  | stagePage g binding page => exact applyRemoteGenerationPage_view h
  | activePage expected binding page activatedAt => cases hop
  | activate expected candidate binding activatedAt => cases hop
  | collect candidate protectedIds => exact collect_view h
  | sweep protectedIds maxWork => exact sweep_view h

theorem step_cases (env : GenerationEnv ρ) (scope : HistoryScope) (t : HistoryTables ρ)
    (op : HistoryOperation ρ) :
    op.step env scope t = t ∨ op.apply env scope t = .ok (op.step env scope t) := by
  unfold step
  cases op.apply env scope t with
  | error e => exact .inl rfl
  | ok t' => exact .inr rfl

theorem step_binding (op : HistoryOperation ρ) {m : RemoteActiveManifest}
    (hm : manifest scope t = some m) :
    ∃ m', manifest scope (op.step env scope t) = some m' ∧ BindingLe m.binding m'.binding := by
  rcases step_cases env scope t op with heq | h
  · rw [heq]
    exact ⟨m, hm, .refl _⟩
  · rcases apply_ref h with hkept | ⟨expected, candidate, binding, at', -, hswitch⟩
    · rw [hm] at hkept
      obtain ⟨m', hm', href⟩ := Option.map_eq_some_iff.1 hkept
      have hbinding : m'.binding = m.binding := congrArg SourceHistoryRemoteActiveRef.binding href
      exact ⟨m', hm', hbinding ▸ .refl _⟩
    · obtain ⟨m', hm', href⟩ := Option.map_eq_some_iff.1 hswitch.selected
      have hbinding : m'.binding = binding := congrArg SourceHistoryRemoteActiveRef.binding href
      exact ⟨m', hm', hbinding ▸ hswitch.forward m hm⟩

/-- **Bindings only move forward**, along every run. -/
theorem run_binding (ops : List (HistoryOperation ρ)) : ∀ {t : HistoryTables ρ}
    {m : RemoteActiveManifest}, manifest scope t = some m →
      ∃ m', manifest scope (run env scope t ops) = some m' ∧ BindingLe m.binding m'.binding := by
  induction ops with
  | nil => exact fun {t m} hm => ⟨m, hm, .refl _⟩
  | cons op ops ih =>
    intro t m hm
    obtain ⟨m₁, hm₁, hle⟩ : ∃ m₁, manifest scope (op.step env scope t) = some m₁ ∧
        BindingLe m.binding m₁.binding := op.step_binding hm
    obtain ⟨m', hm', hle'⟩ := ih hm₁
    exact ⟨m', hm', hle.trans hle'⟩

end HistoryOperation

/-- **Staging is invisible and activation is monotone.** At every point of every run: a staged page
changes neither the manifest nor a row of the active generation, and readers of a readable history
see the same; the reference changes only by an activation that found the expected one, and with it
both families; and the bindings of the manifests of a run never go back. -/
theorem staging_invisible_activation_monotone [DecidableEq ρ] (env : GenerationEnv ρ)
    (scope : HistoryScope) (t₀ : HistoryTables ρ) (ops : List (HistoryOperation ρ)) :
    (∀ pre op post, ops = pre ++ op :: post →
      let t := HistoryOperation.run env scope t₀ pre
      let t' := op.step env scope t
      (∀ generation binding page, op = .stagePage generation binding page →
        manifest scope t' = manifest scope t ∧
        ∀ m, manifest scope t = some m → SameRows scope t t' m.activeGeneration) ∧
      (op.visible = false → ∀ s, loadRemoteHistorySnapshot env scope t = .ok s →
        loadRemoteHistorySnapshot env scope t' = .ok s) ∧
      ((manifest scope t').map (·.ref) ≠ (manifest scope t).map (·.ref) →
        ∃ expected candidate binding activatedAt,
          op = .activate expected candidate binding activatedAt ∧
          op.apply env scope t = .ok t' ∧ (manifest scope t).map (·.ref) = expected ∧
          t'.records = t.records ∧
          loadRemoteHistorySnapshot env scope t' = .ok ⟨some ⟨candidate, binding⟩,
            t.record (scope.bucketsNamespace candidate),
            t.record (scope.digestsNamespace candidate)⟩)) ∧
    ∀ pre mid post, ops = pre ++ (mid ++ post) →
      ∀ m, manifest scope (HistoryOperation.run env scope t₀ pre) = some m →
        ∃ m', manifest scope (HistoryOperation.run env scope t₀ (pre ++ mid)) = some m' ∧
          BindingLe m.binding m'.binding := by
  refine ⟨fun pre op post _ => ?_, fun pre mid post _ m hm => ?_⟩
  · intro t t'
    rcases HistoryOperation.step_cases env scope t op with heq | happly
    · have heq : t' = t := heq
      rw [heq]
      exact ⟨fun _ _ _ _ => ⟨rfl, fun _ _ => ⟨fun _ _ => rfl, fun _ _ => rfl⟩⟩, fun _ _ hs => hs,
        fun hne => absurd rfl hne⟩
    · refine ⟨fun generation binding page hop => ?_, fun hop s hs => ?_, fun hne => ?_⟩
      · subst hop
        have hview : SameView scope t t' := applyRemoteGenerationPage_view happly
        exact ⟨manifest_congr hview.active, hview.selected⟩
      · obtain ⟨active, hactive, -⟩ := bind_ok hs
        rw [(remoteActive_ok hactive).1] at hactive
        exact (HistoryOperation.apply_view hop hactive happly).snapshot hs
      · rcases HistoryOperation.apply_ref happly with hkept | ⟨expected, candidate, binding,
          activatedAt, hop, hswitch⟩
        · exact absurd hkept hne
        · exact ⟨expected, candidate, binding, activatedAt, hop, happly, hswitch.matched,
            hswitch.records, hswitch.snapshot⟩
  · have hrun : HistoryOperation.run env scope t₀ (pre ++ mid) =
        HistoryOperation.run env scope (HistoryOperation.run env scope t₀ pre) mid :=
      List.foldl_append
    rw [hrun]
    exact HistoryOperation.run_binding mid hm

end Generations
