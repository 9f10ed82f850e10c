import UsageMonit.Facts.Proof.Pages

/-!
# What a unit of the collector is

`UnitCase` lists the units that `prepareGcEvidenceUnit` makes (`prepareGcEvidenceUnit_ok`), and
`deleteRows_ok` and `insertRows_ok` say what committing their rows does.
-/

namespace Facts

open Fallible Time

variable {φ β : Type}

/-! ## Rows -/

section
variable {db db' : FactDatabase φ β}

theorem rows_filter_sublist (db : FactDatabase φ β) (p : HistoryRow φ → Bool) (ns : FactNamespace) :
    (({ db with records := db.records.filter p } : FactDatabase φ β).rows ns).Sublist
      (db.rows ns) :=
  (List.filter_sublist.filter _).map _

theorem deleteRows_ok [DecidableEq φ] {rows : List (HistoryRow φ)} (h : db.deleteRows rows = .ok db') :
    (∃ records, db' = { db with records }) ∧ (∀ ns, (db'.rows ns).Sublist (db.rows ns)) ∧
      ∀ ns, (∀ row ∈ rows, row.nspace ≠ ns) → db'.rows ns = db.rows ns := by
  induction rows generalizing db with
  | nil =>
    cases h
    exact ⟨⟨_, rfl⟩, fun ns => List.Sublist.refl _, fun ns _ => rfl⟩
  | cons row rows ih =>
    obtain ⟨_, -, h⟩ := bind_ok h
    obtain ⟨⟨records, rfl⟩, hsub, hrest⟩ := ih h
    refine ⟨⟨records, rfl⟩, fun ns => (hsub ns).trans (rows_filter_sublist db _ ns),
      fun ns hne => ?_⟩
    rw [hrest ns fun r hr => hne r (List.mem_cons_of_mem _ hr)]
    unfold FactDatabase.rows
    rw [rows_filter fun r _ hr => ?_]
    refine decide_eq_true fun heq => hne row (List.mem_cons_self ..) ?_
    rw [← heq, hr]

theorem insertRows_ok {ns : FactNamespace} {records : List (UsageEventFactRecord φ)}
    (h : db.insertRows ns records = .ok db') :
    (∃ records, db' = { db with records }) ∧ db'.rows ns = db.rows ns ++ records ∧
      ∀ ns', ns' ≠ ns → db'.rows ns' = db.rows ns' := by
  induction records generalizing db with
  | nil =>
    cases h
    exact ⟨⟨_, rfl⟩, (List.append_nil _).symm, fun _ _ => rfl⟩
  | cons record records ih =>
    obtain ⟨_, -, h⟩ := bind_ok h
    obtain ⟨⟨table, rfl⟩, hself, hother⟩ := ih h
    refine ⟨⟨table, rfl⟩, ?_, fun ns' hne => ?_⟩
    · rw [hself]
      simp [FactDatabase.rows]
    · rw [hother ns' hne]
      simp [FactDatabase.rows, hne.symm]

end

/-! ## Units -/

/-- An action that touches neither rows nor manifests. -/
def Action.Idle (action : Action φ β) : Prop :=
  action = .none ∨ action = .delete [] ∨
    ∃ batchId descriptor stagedAt publication,
      action = .deleteStates batchId descriptor stagedAt publication

/-- A unit made from the progress `p`, with the identifier `id` and the manifest of its job read
from `read` and its rows from `db`. -/
inductive UnitCase (env : StoreEnv φ β) (read db : FactDatabase φ β) (id : FactBatchId)
    (p : Progress β) : Progress β → Action φ β → Option (References β) → Prop
  | idle {next : Progress β} {action : Action φ β} {references : Option (References β)} :
      (p.phase = .facts → p.job = none) → next.job = p.job → action.Idle →
      UnitCase env read db id p next action references
  | sweep {next : Progress β} {ns : FactNamespace} {rows : List (UsageEventFactRecord φ)}
      {active : Option (ActiveFactManifest β)} {staged : Option (StagedFactBatch β)} :
      p.phase = .orphans → next.job = p.job →
      active.map (·.activeGeneration) ≠ some ns.generation →
      staged.map (·.threadShardKey) ≠ some ns.shardKey →
      UnitCase env read db id p next (.delete (rows.map fun record => ⟨ns, record⟩))
        (some ⟨ns.shardKey, active, ns.generation, staged⟩)
  | create {key : ThreadShardKey} {m : ActiveFactManifest β} :
      p.phase = .facts → p.job = none → db.manifests.lookup key = some m →
      m.threadShardKey = key →
      ¬ m.retainedSince.any (fun floor => decide (p.cutoff ≤ floor)) = true →
      UnitCase env read db id p { p with job := some (FactJob.new key m id) } .none none
  | retire {next : Progress β} {job : FactJob β} {ns : FactNamespace}
      {rows : List (UsageEventFactRecord φ)} :
      p.phase = .facts → p.job = some job → job.retireNamespace = some ns →
      next.phase = p.phase → next.cutoff = p.cutoff → (next.job = none ∨ next.job = some job) →
      UnitCase env read db id p next (.delete (rows.map fun record => ⟨ns, record⟩)) none
  | cancel {job : FactJob β} :
      p.phase = .facts → p.job = some job → job.retireNamespace = none →
      UnitCase env read db id p
        { p with job := some { job with retireNamespace := some job.candidate, cancelled := true } }
        .none none
  | page {job job' : FactJob β} {action : Action φ β} {budget : Nat} :
      p.phase = .facts → p.job = some job → job.retireNamespace = none →
      read.manifests.lookup job.key = some job.expected →
      job.page env p.cutoff (db.readRows job.original job.cursor budget).1
        (db.readRows job.original job.cursor budget).2 = .ok (job', action) →
      UnitCase env read db id p { p with job := some job' } action none

/-- The progress that a unit starts from: the persisted one, or a new one. -/
def StartsFrom (expected : Option (Progress β)) (p : Progress β) : Prop :=
  expected = some p ∨ (expected = none ∧ p.phase = .digests ∧ p.job = none)

section
variable [DecidableEq β] {env : StoreEnv φ β} {reads : Nat → FactDatabase φ β}
  {db : FactDatabase φ β} {p : Progress β} {id : FactBatchId} {budget : Nat}

theorem prepareFacts_ok {unit : Progress β × Action φ β} (hphase : p.phase = .facts)
    (h : prepareFacts env reads db p id budget = .ok unit) :
    UnitCase env (reads 2) db id p unit.1 unit.2 none := by
  unfold prepareFacts at h
  cases hjob : p.job with
  | none =>
    rw [hjob] at h
    cases hkey : nextKey db.manifests.keys p.stateCursor with
    | none =>
      rw [hkey] at h
      cases h
      exact .idle (fun _ => hjob) hjob.symm (.inl rfl)
    | some key =>
      rw [hkey] at h
      obtain ⟨m, hm, h⟩ := bind_ok h
      obtain ⟨_, -, h⟩ := bind_ok h
      obtain ⟨_, hshard, h⟩ := bind_ok h
      split at h
      next =>
        cases h
        exact .idle (fun _ => hjob) hjob.symm (.inl rfl)
      next hfloor =>
        cases h
        exact .create hphase hjob (okOr_ok.1 hm) (ensure_ok.1 hshard).symm hfloor
  | some job =>
    rw [hjob] at h
    cases hretire : job.retireNamespace with
    | some ns =>
      simp only [hretire] at h
      split at h
      · cases h
        exact .retire hphase hjob hretire rfl rfl (.inl rfl)
      · cases h
        exact .retire hphase hjob hretire rfl rfl (.inr hjob)
    | none =>
      simp only [hretire] at h
      split at h
      next =>
        cases h
        exact .cancel hphase hjob hretire
      next hactive =>
        obtain ⟨worked, hpage, h⟩ := bind_ok h
        cases h
        exact .page hphase hjob hretire (not_not.1 hactive) hpage

theorem prepareStaging_ok {unit : Progress β × Action φ β} (hphase : p.phase = .staging)
    (h : prepareStaging env reads db p = .ok unit) :
    UnitCase env (reads 2) db id p unit.1 unit.2 none := by
  have hfacts : p.phase = .facts → p.job = none := fun hf => by simp [hphase] at hf
  unfold prepareStaging at h
  split at h
  · cases h
    exact .idle hfacts rfl (.inl rfl)
  · obtain ⟨descriptor, -, h⟩ := bind_ok h
    obtain ⟨_, -, h⟩ := bind_ok h
    obtain ⟨timestamp, -, h⟩ := bind_ok h
    cases h
    refine .idle hfacts rfl ?_
    split
    · exact .inr (.inr ⟨_, _, _, _, rfl⟩)
    · exact .inl rfl

theorem prepareOrphans_ok {unit : Progress β × Action φ β × Option (References β)}
    (hphase : p.phase = .orphans) (h : prepareOrphans env reads db p budget = .ok unit) :
    UnitCase env (reads 2) db id p unit.1 unit.2.1 unit.2.2 := by
  have hfacts : p.phase = .facts → p.job = none := fun hf => by simp [hphase] at hf
  unfold prepareOrphans at h
  dsimp only at h
  split at h
  · cases h
    exact .idle hfacts rfl (.inl rfl)
  · obtain ⟨_, -, h⟩ := bind_ok h
    obtain ⟨_, -, h⟩ := bind_ok h
    split at h
    next =>
      cases h
      exact .idle hfacts rfl (.inl rfl)
    next hnone =>
      cases h
      obtain ⟨hactive, hstaged⟩ := not_or.1 hnone
      exact .sweep hphase rfl hactive hstaged

/-- **Every unit is one of the cases.** -/
theorem prepareGcEvidenceUnit_ok {cutoff trustedAt : DateTime} {scan : DigestScan}
    {unit : PreparedEvidenceGc φ β}
    (h : prepareGcEvidenceUnit env reads db cutoff trustedAt id scan budget = .ok unit) :
    ∃ p, StartsFrom unit.expected p ∧
      UnitCase env (reads 2) db id p unit.next unit.action unit.references := by
  obtain ⟨source, -, h⟩ := bind_ok h
  obtain ⟨_, -, h⟩ := bind_ok h
  obtain ⟨_, -, h⟩ := bind_ok h
  generalize hp : (reads 1).progress.getD ⟨cutoff, trustedAt, .digests, none, "", none⟩ = p at h
  have hstart : StartsFrom (reads 1).progress p := by
    subst hp
    cases (reads 1).progress with
    | none => exact .inr ⟨rfl, rfl, rfl⟩
    | some q => exact .inl rfl
  cases hphase : p.phase with
  | digests =>
    simp only [hphase] at h
    cases h
    refine ⟨p, hstart, .idle (fun hf => by simp [hphase] at hf) ?_ (.inr (.inl rfl))⟩
    split <;> rfl
  | facts =>
    simp only [hphase] at h
    obtain ⟨unit, hunit, h⟩ := bind_ok h
    cases h
    exact ⟨p, hstart, prepareFacts_ok hphase hunit⟩
  | staging =>
    simp only [hphase] at h
    obtain ⟨unit, hunit, h⟩ := bind_ok h
    cases h
    exact ⟨p, hstart, prepareStaging_ok hphase hunit⟩
  | orphans =>
    simp only [hphase] at h
    obtain ⟨unit, hunit, h⟩ := bind_ok h
    cases h
    exact ⟨p, hstart, prepareOrphans_ok hphase hunit⟩
  | done =>
    simp only [hphase] at h
    cases h
    exact ⟨p, hstart, .idle (fun hf => by simp [hphase] at hf) rfl (.inl rfl)⟩

end

end Facts
