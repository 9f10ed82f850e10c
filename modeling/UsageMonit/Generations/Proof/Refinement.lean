import UsageMonit.Generations.Proof.Staging

/-!
# The store of the ingest sessions

The ingest sessions see the rows of a source as a `HistoryStore`: the bindings and the data of the
generations by id, and the manifest. `Represents` reads such a store from the tables. An operation
on the tables does what the operations of the store do (`apply_refines`), and so does a run
(`run_refines`): what is proved of sessions on the store holds of the tables.
-/

namespace Generations

open Fallible Time Ingest HistoryTables

variable {π ρ : Type} {env : GenerationEnv ρ} {scope : HistoryScope} {t t' : HistoryTables ρ}
  {g : RemoteHistoryGenerationId}

/-! ## The store of the tables -/

structure GenerationData (ρ : Type) where
  buckets : String → Option ρ := fun _ => none
  digests : String → Option ρ := fun _ => none
  quotas : String → Option ρ := fun _ => none
  quotaHeader : Option (StateValue ρ) := none

def generationData (scope : HistoryScope) (t : HistoryTables ρ) (g : RemoteHistoryGenerationId) :
    GenerationData ρ where
  buckets := t.record (scope.bucketsNamespace g)
  digests := t.record (scope.digestsNamespace g)
  quotas := t.record (scope.quotaKey g)
  quotaHeader := t.states.lookup (scope.quotaKey g)

def generationRow (scope : HistoryScope) (t : HistoryTables ρ) (g : RemoteHistoryGenerationId) :
    Option RemoteGenerationMetadata :=
  (t.states.lookup (scope.generationKey g)).bind fun
    | .generation metadata => some metadata
    | _ => none

/-- A manifest without the fields that name its scope. -/
def RemoteActiveManifest.unscoped (m : RemoteActiveManifest) : Ingest.RemoteActiveManifest :=
  ⟨m.activeGeneration, m.binding, m.activatedAt⟩

abbrev SessionStore (π ρ : Type) := HistoryStore π (GenerationData ρ)

abbrev SessionEnv (π ρ : Type) := IngestEnv π (HistoryPage ρ) (GenerationData ρ)

structure Represents (scope : HistoryScope) (t : HistoryTables ρ) (h : SessionStore π ρ) :
    Prop where
  active : h.manifest = (manifest scope t).map (·.unscoped)
  rows : ∀ g, h.generations.lookup g = (generationRow scope t g).map (·.binding)
  data : ∀ g, h.data g = generationData scope t g

/-- The environment of the sessions writes a page as the tables do. -/
structure WritesPages [DecidableEq ρ] (env : GenerationEnv ρ) (scope : HistoryScope)
    (sessions : SessionEnv π ρ) : Prop where
  recordChanges : ∀ {t t' g page changed}, writePage env scope t g page = .ok (t', changed) →
    sessions.recordChanges (generationData scope t g) page = .ok (generationData scope t' g)
  emptyData : sessions.emptyData = {}

inductive StoreStep (sessions : SessionEnv π ρ) (h : SessionStore π ρ) : SessionStore π ρ → Prop
  | ensure {h'} (g binding) : h.ensureRemoteGeneration g binding = .ok h' → StoreStep sessions h h'
  | stagePage {h'} (g binding page) :
      h.applyRemoteGenerationPage sessions g binding page = .ok h' → StoreStep sessions h h'
  | activePage {h'} (expected binding page activatedAt) :
      h.applyRemoteActivePage sessions expected binding page activatedAt = .ok h' →
      StoreStep sessions h h'
  | activate {h'} (expected candidate binding activatedAt) :
      h.activateRemoteGeneration expected candidate binding activatedAt = .ok h' →
      StoreStep sessions h h'
  | collect {h' outcome} (candidate protectedIds) :
      h.gcRemoteGeneration sessions candidate protectedIds = .ok (h', outcome) →
      StoreStep sessions h h'

/-! ## Rows read back -/

theorem generationState_ok {stored : Option RemoteGenerationMetadata}
    (h : t.generationState (scope.generationKey g) = .ok stored) :
    stored = generationRow scope t g := by
  unfold generationState readState at h
  unfold generationRow
  cases hrow : t.states.lookup (scope.generationKey g) with
  | none =>
    rw [hrow] at h
    cases h
    rfl
  | some value =>
    rw [hrow] at h
    obtain ⟨decoded, hdecode, h⟩ := bind_ok h
    cases h
    exact (okOr_ok.1 hdecode).symm

theorem remoteGeneration_row {value : RemoteGenerationMetadata}
    (h : remoteGeneration env scope t g = .ok value) : generationRow scope t g = some value := by
  obtain ⟨stored, hread, h⟩ := bind_ok h
  obtain ⟨metadata, hsome, h⟩ := bind_ok h
  iterate 2 obtain ⟨_, -, h⟩ := bind_ok h
  cases h
  rw [← generationState_ok hread]
  exact okOr_ok.1 hsome

theorem generationRow_congr
    (h : t'.states.lookup (scope.generationKey g) = t.states.lookup (scope.generationKey g)) :
    generationRow scope t' g = generationRow scope t g := by
  unfold generationRow
  rw [h]

theorem generationData_congr {keys namespaces : List String} (h : WritesIn keys namespaces t t')
    (hkey : scope.quotaKey g ∉ keys) (hns : ∀ ns ∈ familyNamespaces scope g, ns ∉ namespaces) :
    generationData scope t' g = generationData scope t g := by
  have hb := h.records _ (hns (scope.bucketsNamespace g) (by simp [familyNamespaces]))
  have hd := h.records _ (hns (scope.digestsNamespace g) (by simp [familyNamespaces]))
  have hq := h.records _ (hns (scope.quotaKey g) (by simp [familyNamespaces]))
  simp only [generationData, h.states _ hkey, hb, hd, hq]

section
variable {sessions : SessionEnv π ρ} {h : SessionStore π ρ} (hr : Represents scope t h)
include hr

theorem Represents.lookup {value : RemoteGenerationMetadata}
    (hvalue : remoteGeneration env scope t g = .ok value) :
    h.generations.lookup g = some value.binding := by
  rw [hr.rows, remoteGeneration_row hvalue, Option.map_some]

theorem Represents.remoteActive {active : Option RemoteActiveManifest}
    (hactive : Generations.remoteActive env scope t = .ok active) :
    h.remoteActive = .ok (active.map (·.unscoped)) := by
  obtain ⟨rfl, hcheck⟩ := remoteActive_ok hactive
  unfold HistoryStore.remoteActive
  rw [hr.active]
  cases hm : manifest scope t with
  | none => rfl
  | some m =>
    obtain ⟨_, -, hc⟩ := bind_ok (hcheck m hm)
    obtain ⟨value, hvalue, hc⟩ := bind_ok hc
    have hlookup := hr.lookup hvalue
    rw [ensure_ok.1 hc] at hlookup
    simp only [Option.map_some, checkSome, RemoteActiveManifest.unscoped, hlookup, okOr, ok_bind]
    rfl

theorem Represents.setActive (m : RemoteActiveManifest) :
    Represents scope (t.setState scope.activeKey (.active m))
      { h with manifest := some m.unscoped } where
  active := by
    unfold manifest setState
    simp only [AList.lookup_insert, Option.map_some]
  rows g := by
    rw [generationRow_congr (AList.lookup_insert_ne (Ne.symm (active_ne_generation scope)))]
    exact hr.rows g
  data g := by
    have hw : WritesIn [scope.activeKey] [] t (t.setState scope.activeKey (.active m)) :=
      setState_writes _ _ List.mem_cons_self
    rw [generationData_congr hw (by simp [(active_ne_quota scope).symm]) (by simp)]
    exact hr.data g

theorem Represents.advanced (hok : advanceProjectionRevision scope t = .ok t') :
    Represents scope t' h where
  active := by
    have hw := advanceProjectionRevision_writes hok
    rw [manifest_congr (hw.states _ (by simp [active_ne_revision]))]
    exact hr.active
  rows g := by
    have hw := advanceProjectionRevision_writes hok
    rw [generationRow_congr (hw.states _ (by simp [generation_ne_revision]))]
    exact hr.rows g
  data g := by
    have hw := advanceProjectionRevision_writes hok
    rw [generationData_congr hw (by simp [quota_ne_revision]) (by simp)]
    exact hr.data g

/-- Only rows of one generation are written. -/
theorem Represents.written {h' : SessionStore π ρ}
    (hw : WritesIn (generationKeys scope g) (familyNamespaces scope g) t t')
    (hmanifest : h'.manifest = h.manifest)
    (hrow : h'.generations.lookup g = (generationRow scope t' g).map (·.binding))
    (hrows : ∀ g', g' ≠ g → h'.generations.lookup g' = h.generations.lookup g')
    (hdata : h'.data g = generationData scope t' g)
    (hothers : ∀ g', g' ≠ g → h'.data g' = h.data g') : Represents scope t' h' where
  active := by
    have hkey : scope.activeKey ∉ generationKeys scope g := by
      simp [generationKeys, active_ne_generation, active_ne_quota]
    rw [hmanifest, manifest_congr (hw.states _ hkey)]
    exact hr.active
  rows g' := by
    by_cases hg : g' = g
    · exact hg ▸ hrow
    · rw [hrows g' hg, generationRow_congr (hw.states _ (generationKeys_disjoint hg
        List.mem_cons_self))]
      exact hr.rows g'
  data g' := by
    by_cases hg : g' = g
    · exact hg ▸ hdata
    · rw [hothers g' hg, generationData_congr hw
        (generationKeys_disjoint hg (by simp [generationKeys]))
        fun ns => familyNamespaces_disjoint hg]
      exact hr.data g'

theorem Represents.pageWritten [DecidableEq ρ]
    (hsessions : WritesPages env scope sessions) {page : HistoryPage ρ} {changed : Bool}
    (hok : writePage env scope t g page = .ok (t', changed)) :
    ∃ h', h.recordChanges sessions g page = .ok h' ∧ Represents scope t' h' := by
  have hw := (writePage_writes hok).mono (List.subset_cons_self (scope.generationKey g) _)
    (List.Subset.refl _)
  refine ⟨{ h with data := Function.update h.data g (generationData scope t' g) }, ?_,
    hr.written hw rfl ?_ (fun _ _ => rfl) (Function.update_self ..)
      fun g' hg => Function.update_of_ne hg ..⟩
  · unfold HistoryStore.recordChanges
    rw [hr.data, hsessions.recordChanges hok, ok_bind]
    rfl
  · rw [generationRow_congr ((writePage_writes hok).states _ (by simp [generation_ne_quota]))]
    exact hr.rows g

/-! ## The operations -/

variable {binding : SourceHistoryRemoteBinding}

theorem Represents.staged [DecidableEq ρ]
    (hsessions : WritesPages env scope sessions) {page : HistoryPage ρ}
    (hok : applyRemoteGenerationPage env scope t g binding page = .ok t') :
    ∃ h', h.applyRemoteGenerationPage sessions g binding page = .ok h' ∧
      Represents scope t' h' := by
  iterate 3 obtain ⟨_, -, hok⟩ := bind_ok hok
  obtain ⟨active, hactive, hok⟩ := bind_ok hok
  obtain ⟨_, hother, hok⟩ := bind_ok hok
  obtain ⟨value, hvalue, hok⟩ := bind_ok hok
  obtain ⟨_, hbound, hok⟩ := bind_ok hok
  obtain ⟨⟨t₁, changed⟩, hpage, hok⟩ := bind_ok hok
  cases hok
  have hname : remoteDataGeneration value = g := remoteGeneration_ok hvalue
  rw [hname] at hpage
  obtain ⟨h', hrecorded, hr'⟩ := hr.pageWritten hsessions hpage
  refine ⟨h', ?_, hr'⟩
  have hother' : ∀ m ∈ active.map (·.unscoped), m.activeGeneration ≠ g := by
    intro _ hmem
    obtain ⟨m, hm, rfl⟩ := Option.map_eq_some_iff.1 hmem
    exact ensure_ok.1 hother m hm
  unfold HistoryStore.applyRemoteGenerationPage
  rw [hr.remoteActive hactive, ok_bind, ensure_of hother', ok_bind, hr.lookup hvalue,
    ensure_ok.1 hbound]
  simp only [okOr, ok_bind]
  rw [ensure_of trivial, ok_bind]
  exact hrecorded

theorem Represents.paged [DecidableEq ρ]
    (hsessions : WritesPages env scope sessions) {expected : SourceHistoryRemoteActiveRef}
    {page : HistoryPage ρ} {activatedAt : DateTime}
    (hok : applyRemoteActivePage env scope t expected binding page activatedAt = .ok t') :
    ∃ h', h.applyRemoteActivePage sessions expected binding page activatedAt = .ok h' ∧
      Represents scope t' h' := by
  iterate 3 obtain ⟨_, -, hok⟩ := bind_ok hok
  obtain ⟨active, hactive, hok⟩ := bind_ok hok
  obtain ⟨m, hm, hok⟩ := bind_ok hok
  obtain ⟨actual, hactual, hok⟩ := bind_ok hok
  obtain ⟨_, hexpected, hok⟩ := bind_ok hok
  obtain ⟨_, hbinding, hok⟩ := bind_ok hok
  obtain ⟨value, hvalue, hok⟩ := bind_ok hok
  obtain ⟨⟨t₁, changed⟩, hpage, hok⟩ := bind_ok hok
  obtain ⟨t₂, hpublished, hok⟩ := bind_ok hok
  cases hok
  iterate 2 obtain ⟨_, -, hactual⟩ := bind_ok hactual
  cases hactual
  obtain rfl := ensure_ok.1 hexpected
  have hname : remoteDataGeneration value = m.activeGeneration := remoteGeneration_ok hvalue
  rw [hname] at hpage
  obtain ⟨h', hrecorded, hr'⟩ := hr.pageWritten hsessions hpage
  have hr₂ : Represents scope t₂ h' := by
    unfold publishChange at hpublished
    split at hpublished
    · exact hr'.advanced hpublished
    · cases hpublished
      exact hr'
  refine ⟨_, ?_, hr₂.setActive { m with activatedAt }⟩
  unfold HistoryStore.applyRemoteActivePage
  rw [hr.remoteActive hactive, okOr_ok.1 hm]
  simp only [ok_bind, Option.map_some, okOr, Ingest.RemoteActiveManifest.ref,
    RemoteActiveManifest.unscoped, hrecorded]
  rw [ensure_of trivial, ok_bind, ensure_of (ensure_ok.1 hbinding)]
  rfl

omit hr in
theorem remoteCatalog_ok {catalog : List (String × RemoteGenerationMetadata)}
    (hok : remoteCatalog env scope t = .ok catalog) :
    catalog.length = (catalogKeys scope t).length ∧
      ∀ row ∈ catalog, generationRow scope t row.2.generation = some row.2 := by
  obtain ⟨_, -, hok⟩ := bind_ok hok
  obtain ⟨values, hvalues, hok⟩ := bind_ok hok
  obtain ⟨_, hchecked, hok⟩ := bind_ok hok
  cases hok
  obtain ⟨hlen, hget⟩ := mapM_ok hvalues
  refine ⟨by rw [List.length_zip, ← hlen, min_self], fun row hrow => ?_⟩
  obtain ⟨_, -, hkey⟩ := bind_ok (forall_of_forM_ok hchecked row hrow)
  obtain ⟨_, -, hkey⟩ := bind_ok hkey
  obtain ⟨i, hi, rfl⟩ := List.mem_iff_getElem.1 hrow
  rw [List.length_zip] at hi
  rw [List.getElem_zip] at hkey ⊢
  dsimp only at hkey ⊢
  obtain ⟨stored, hstored, hsome⟩ := bind_ok (hget i (by omega) (by omega))
  rw [ensure_ok.1 hkey] at hstored
  rw [← generationState_ok hstored]
  exact okOr_ok.1 hsome

omit hr in
theorem generationKey_mem_catalogKeys {metadata : RemoteGenerationMetadata}
    (hrow : generationRow scope t g = some metadata) :
    scope.generationKey g ∈ catalogKeys scope t := by
  unfold catalogKeys
  rw [List.mem_insertionSort, List.mem_filter]
  obtain ⟨value, hvalue, -⟩ := Option.bind_eq_some_iff.1 hrow
  refine ⟨AList.lookup_isSome.1 (by rw [hvalue]; rfl), ?_⟩
  rw [Bool.and_eq_true, List.isPrefixOf_iff_prefix, List.isSuffixOf_iff_suffix]
  refine ⟨⟨g.toList ++ "/generation.json".toList, ?_⟩, (scope.generationDirectory g).toList, ?_⟩
  all_goals simp only [HistoryScope.generationKey, HistoryScope.generationDirectory,
    String.toList_append, List.append_assoc]

/-- The store has no more generations than the catalog. -/
theorem Represents.capacity (hok : remoteCapacity env scope t g = .ok ()) :
    h.generations.entries.length < maxRemoteHistoryGenerations ∨ g ∈ h.generations := by
  obtain ⟨catalog, hcatalog, hok⟩ := bind_ok hok
  obtain ⟨hlen, hrows⟩ := remoteCatalog_ok hcatalog
  rcases ensure_ok.1 hok with hroom | ⟨row, hrow, rfl⟩
  · refine .inl (lt_of_le_of_lt ?_ hroom)
    have hnodup : (h.generations.keys.map scope.generationKey).Nodup :=
      h.generations.nodupKeys.map fun _ _ => generationKey_inj scope
    have hsubset : h.generations.keys.map scope.generationKey ⊆ catalogKeys scope t := by
      intro key hkey
      obtain ⟨g', hg', rfl⟩ := List.mem_map.1 hkey
      have hsome := AList.lookup_isSome.2 (show g' ∈ h.generations from hg')
      rw [hr.rows, Option.isSome_map] at hsome
      exact generationKey_mem_catalogKeys (Option.some_get hsome).symm
    have hle := (List.subperm_of_subset hnodup hsubset).length_le
    rw [List.length_map, ← hlen] at hle
    simpa [AList.keys, List.keys] using hle
  · refine .inr (AList.lookup_isSome.1 ?_)
    rw [hr.rows, hrows row hrow]
    rfl

theorem Represents.ensured
    (hok : ensureRemoteGeneration env scope t g binding = .ok t') :
    ∃ h', h.ensureRemoteGeneration g binding = .ok h' ∧ Represents scope t' h' := by
  iterate 3 obtain ⟨_, -, hok⟩ := bind_ok hok
  obtain ⟨_, hcapacity, hok⟩ := bind_ok hok
  obtain ⟨stored, hstored, hok⟩ := bind_ok hok
  have hlookup := hr.rows g
  rw [← generationState_ok hstored] at hlookup
  unfold HistoryStore.ensureRemoteGeneration
  rw [ensure_of (hr.capacity hcapacity), ok_bind, hlookup]
  cases stored with
  | some existing =>
    obtain ⟨_, -, hok⟩ := bind_ok hok
    obtain ⟨_, hbound, hok⟩ := bind_ok hok
    obtain ⟨_, -, hok⟩ := bind_ok hok
    cases hok
    refine ⟨h, ?_, hr⟩
    simp only [Option.map_some, ensure_of (ensure_ok.1 hbound), ok_bind]
    rfl
  | none =>
    cases hok
    refine ⟨_, rfl, hr.written (setState_writes _ _ List.mem_cons_self) rfl ?_
      (fun g' hg => AList.lookup_insert_ne hg) ?_ fun _ _ => rfl⟩
    · simp only [generationRow, setState, AList.lookup_insert]
      rfl
    · have hw : ∀ value, WritesIn [scope.generationKey g] [] t
          (t.setState (scope.generationKey g) value) :=
        fun value => setState_writes _ _ List.mem_cons_self
      rw [generationData_congr (hw _) (by simp [(generation_ne_quota scope).symm]) (by simp)]
      exact hr.data g

theorem Represents.activated [DecidableEq ρ]
    {expected : Option SourceHistoryRemoteActiveRef} {activatedAt : DateTime}
    (hok : activateRemoteGeneration env scope t expected g binding activatedAt = .ok t') :
    ∃ h', h.activateRemoteGeneration expected g binding activatedAt = .ok h' ∧
      Represents scope t' h' := by
  iterate 4 obtain ⟨_, -, hok⟩ := bind_ok hok
  obtain ⟨value, hvalue, hok⟩ := bind_ok hok
  obtain ⟨_, hbound, hok⟩ := bind_ok hok
  obtain ⟨active, hactive, hok⟩ := bind_ok hok
  obtain ⟨wanted, hwanted, hok⟩ := bind_ok hok
  iterate 2 obtain ⟨_, -, hwanted⟩ := bind_ok hwanted
  cases hwanted
  have href : (active.map (·.unscoped)).map (·.ref) = active.map (·.ref) := by
    rw [Option.map_map]
    rfl
  unfold HistoryStore.activateRemoteGeneration
  rw [hr.lookup hvalue, ensure_ok.1 hbound]
  simp only [okOr, ok_bind]
  rw [ensure_of trivial, ok_bind, hr.remoteActive hactive, ok_bind, href]
  split at hok
  · rename_i hsame
    cases hok
    exact ⟨h, if_pos hsame, hr⟩
  · rename_i hother
    obtain ⟨_, hexpected, hok⟩ := bind_ok hok
    obtain ⟨_, hforward, hok⟩ := bind_ok hok
    refine ⟨_, ?_, (hr.setActive _).advanced hok⟩
    rw [if_neg hother, ensure_of (ensure_ok.1 hexpected), ok_bind]
    cases active with
    | none => rfl
    | some m =>
      iterate 2 obtain ⟨_, -, hforward⟩ := bind_ok hforward
      exact congrArg (· >>= fun _ => _) hforward

omit hr in
theorem record_deleteNamespace (t : HistoryTables ρ) (ns : String) :
    (t.deleteNamespace ns).record ns = fun _ => none := by
  funext key
  refine (lookup_eraseAll _ t.records _).trans ?_
  split
  · rfl
  · rename_i hkept
    rw [AList.lookup_eq_none]
    exact fun hmem => hkept (List.mem_filter.2 ⟨hmem, beq_self_eq_true ns⟩)

omit hr in
theorem generationData_deleted :
    generationData scope (deleteGenerationData scope t g) g = {} := by
  have hother : ∀ {ns ns' : String} (t : HistoryTables ρ), ns ≠ ns' →
      (t.deleteNamespace ns').record ns = t.record ns := by
    intro ns ns' t hne
    have hw : WritesIn [] [ns'] t (t.deleteNamespace ns') :=
      deleteNamespace_writes t (List.mem_singleton_self ns')
    exact hw.records ns (by simpa using hne)
  unfold generationData deleteGenerationData
  rw [hother _ (buckets_ne_quota scope), hother _ (digests_ne_quota scope), record_deleteNamespace]
  congr 1
  · exact (hother _ (buckets_ne_digests scope)).trans (record_deleteNamespace ..)
  · exact record_deleteNamespace ..
  · exact AList.lookup_erase ..

/-- A generation has one row, so its data go with it. -/
theorem Represents.collected (hempty : sessions.emptyData = {})
    {protectedIds : List RemoteHistoryGenerationId}
    {outcome : RemoteHistoryGenerationGcOutcome}
    (hok : gcRemoteGeneration env scope t g protectedIds = .ok (t', outcome)) :
    ∃ h', h.gcRemoteGeneration sessions g protectedIds = .ok (h', outcome) ∧
      Represents scope t' h' := by
  obtain ⟨_, -, hok⟩ := bind_ok hok
  obtain ⟨active, hactive, hok⟩ := bind_ok hok
  have hselected : (active.map (·.unscoped)).map (·.activeGeneration) =
      active.map (·.activeGeneration) := by
    rw [Option.map_map]
    rfl
  unfold HistoryStore.gcRemoteGeneration
  rw [hr.remoteActive hactive, ok_bind, hselected]
  split at hok
  · rename_i hactive
    cases hok
    exact ⟨h, if_pos hactive, hr⟩
  · rename_i hother
    rw [if_neg hother]
    split at hok
    · rename_i hprotected
      cases hok
      exact ⟨h, if_pos hprotected, hr⟩
    · rename_i hfree
      rw [if_neg hfree]
      obtain ⟨stored, hstored, hok⟩ := bind_ok hok
      rw [hr.rows, ← generationState_ok hstored]
      cases stored with
      | none =>
        cases hok
        exact ⟨h, rfl, hr⟩
      | some value =>
        obtain ⟨_, hvalid, hok⟩ := bind_ok hok
        obtain ⟨_, -, hok⟩ := bind_ok hok
        obtain ⟨catalog, hcatalog, hok⟩ := bind_ok hok
        have hname : value.generation = g := by
          iterate 2 obtain ⟨_, -, hvalid⟩ := bind_ok hvalid
          exact (ensure_ok.1 hvalid).2.2.2.2
        have hgone : generationRow scope (t.deleteState (scope.generationKey g)) g = none := by
          unfold generationRow deleteState
          rw [AList.lookup_erase]
          rfl
        have hnone : ¬ ∃ row ∈ catalog, row.2.generation = value.generation := by
          rintro ⟨row, hrow, heq⟩
          have hstill := (remoteCatalog_ok hcatalog).2 row hrow
          rw [heq, hname, hgone] at hstill
          cases hstill
        rw [if_neg hnone] at hok
        cases hok
        rw [show remoteDataGeneration value = g from hname]
        have hrow : WritesIn (generationKeys scope g) (familyNamespaces scope g) t
            (t.deleteState (scope.generationKey g)) := deleteState_writes _ List.mem_cons_self
        have hkept : generationRow scope (deleteGenerationData scope
            (t.deleteState (scope.generationKey g)) g) g = none :=
          (generationRow_congr (AList.lookup_erase_ne (generation_ne_quota scope))).trans hgone
        refine ⟨_, rfl, hr.written (hrow.trans deleteGenerationData_writes) rfl ?_
          (fun g' hg => AList.lookup_erase_ne hg) ?_ fun g' hg => Function.update_of_ne hg ..⟩
        · rw [hkept]
          exact AList.lookup_erase ..
        · rw [generationData_deleted]
          exact (Function.update_self ..).trans hempty

end

/-! ## Runs -/

section
variable [DecidableEq ρ] {sessions : SessionEnv π ρ} {h : SessionStore π ρ}

/-- **What an operation does to the tables**, operations of the store do; a sweep is many. -/
theorem apply_refines (hsessions : WritesPages env scope sessions) (hr : Represents scope t h)
    {op : HistoryOperation ρ} (hok : op.apply env scope t = .ok t') :
    ∃ h', Relation.ReflTransGen (StoreStep sessions) h h' ∧ Represents scope t' h' := by
  cases op with
  | ensure g binding =>
    obtain ⟨h', hstep, hr'⟩ := hr.ensured hok
    exact ⟨h', .single (.ensure g binding hstep), hr'⟩
  | stagePage g binding page =>
    obtain ⟨h', hstep, hr'⟩ := hr.staged hsessions hok
    exact ⟨h', .single (.stagePage g binding page hstep), hr'⟩
  | activePage expected binding page activatedAt =>
    obtain ⟨h', hstep, hr'⟩ := hr.paged hsessions hok
    exact ⟨h', .single (.activePage expected binding page activatedAt hstep), hr'⟩
  | activate expected candidate binding activatedAt =>
    obtain ⟨h', hstep, hr'⟩ := hr.activated hok
    exact ⟨h', .single (.activate expected candidate binding activatedAt hstep), hr'⟩
  | collect candidate protectedIds =>
    obtain ⟨⟨t₁, outcome⟩, hgc, rfl⟩ := map_ok hok
    iterate 2 obtain ⟨_, -, hgc⟩ := bind_ok hgc
    obtain ⟨h', hstep, hr'⟩ := hr.collected hsessions.emptyData hgc
    exact ⟨h', .single (.collect candidate protectedIds hstep), hr'⟩
  | sweep protectedIds maxWork =>
    obtain ⟨⟨t₁, deleted⟩, hsweep, rfl⟩ := map_ok hok
    refine sweep_related (R := fun t t' => ∀ h, Represents scope t h →
        ∃ h', Relation.ReflTransGen (StoreStep sessions) h h' ∧ Represents scope t' h')
      (fun t h hr => ⟨h, .refl, hr⟩) (fun t t' t'' hfirst hrest h hr => ?_)
      (fun t t' g outcome hgc h hr => ?_) hsweep h hr
    · obtain ⟨h', hsteps, hr'⟩ := hfirst h hr
      obtain ⟨h'', hsteps', hr''⟩ := hrest h' hr'
      exact ⟨h'', hsteps.trans hsteps', hr''⟩
    · obtain ⟨h', hstep, hr'⟩ := hr.collected hsessions.emptyData hgc
      exact ⟨h', .single (.collect g protectedIds hstep), hr'⟩

/-- **Runs on the tables are runs of the store.** A failed operation changes neither. -/
theorem run_refines (hsessions : WritesPages env scope sessions) (ops : List (HistoryOperation ρ))
    (hr : Represents scope t h) :
    ∃ h', Relation.ReflTransGen (StoreStep sessions) h h' ∧
      Represents scope (HistoryOperation.run env scope t ops) h' := by
  induction ops generalizing t h with
  | nil => exact ⟨h, .refl, hr⟩
  | cons op ops ih =>
    have hstep : ∃ h', Relation.ReflTransGen (StoreStep sessions) h h' ∧
        Represents scope (op.step env scope t) h' := by
      rcases HistoryOperation.step_cases env scope t op with heq | hok
      · rw [heq]
        exact ⟨h, .refl, hr⟩
      · exact apply_refines hsessions hr hok
    obtain ⟨h₁, hsteps, hr₁⟩ := hstep
    obtain ⟨h', hsteps', hr'⟩ := ih hr₁
    exact ⟨h', hsteps.trans hsteps', hr'⟩

omit [DecidableEq ρ] in
theorem represents_empty : Represents scope (⟨∅, ∅⟩ : HistoryTables ρ)
    (⟨∅, ∅, fun _ => {}, none⟩ : SessionStore π ρ) :=
  ⟨rfl, fun _ => rfl, fun _ => rfl⟩

end

end Generations
