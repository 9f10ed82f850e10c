import UsageMonit.Facts.Proof.Frame
import UsageMonit.Facts.Proof.Units

/-!
# One commit of the collector

A unit is committed only if nothing that it rests on has changed: its progress, the manifest of its
job, the references of an orphan. `CollectInv` is what holds of the job in progress and of the
prepared units, and `publish_collected` what a commit does (`Collected`), case by case of the unit.
-/

namespace Facts

open Fallible Time

variable {cutoff : DateTime} {ns : FactNamespace}

section
variable {φ β : Type} {env : StoreEnv φ β} {batches : Batches φ β} {w w' : World φ β}
  {db : FactDatabase φ β} {db₁ : FactDatabase φ β} {rows : List (UsageEventFactRecord φ)}

/-! ## The job and the units -/

/-- A generation that is not active and never will be. -/
def Dead (batches : Batches φ β) (w : World φ β) (ns : FactNamespace) : Prop :=
  (∀ m, w.db.manifests.lookup ns.shardKey = some m → m.activeGeneration ≠ ns.generation) ∧
    (Fresh batches w ns.generation ∨ Activated w ns.shardKey ns.generation)

/-- What holds of the job in progress. -/
structure JobInv (batches : Batches φ β) (w : World φ β) (cutoff : DateTime) (job : FactJob β) :
    Prop where
  key : job.expected.threadShardKey = job.key
  known : ∃ old ∈ w.past, old.manifests.lookup job.key = some job.expected
  copying : job.retireNamespace = none → Fresh batches w job.replacement ∧
    floorLt job.expected.retainedSince (some cutoff) ∧
    (w.db.manifests.lookup job.key = some job.expected →
      Copied cutoff job (w.db.readRecords job.original) (w.db.rows job.candidate))
  retiring : ∀ ns, job.retireNamespace = some ns → Dead batches w ns

/-- A prepared unit: what it read of a set that is still active is still there, and nothing uses
its identifier. -/
structure Ready (env : StoreEnv φ β) (batches : Batches φ β) (w : World φ β) (id : FactBatchId)
    (unit : PreparedEvidenceGc φ β) : Prop where
  made : ∃ read db p, read ∈ w.past ∧ db ∈ w.past ∧ StartsFrom unit.expected p ∧
    UnitCase env read db id p unit.next unit.action unit.references ∧
    ∀ key m, read.manifests.lookup key = some m → w.db.manifests.lookup key = some m →
      db.rows ⟨key, m.activeGeneration⟩ = w.db.rows ⟨key, m.activeGeneration⟩
  fresh : Fresh batches w id
  blank : ∀ key, w.db.rows ⟨key, id⟩ = []

/-- The job in progress copies to this generation. -/
def Replacing (w : World φ β) (id : FactBatchId) : Prop :=
  ∃ p job, w.db.progress = some p ∧ p.job = some job ∧ job.replacement = id

structure CollectInv (env : StoreEnv φ β) (batches : Batches φ β) (w : World φ β) : Prop where
  jobless : ∀ p, w.db.progress = some p → p.phase ≠ .facts → p.job = none
  job : ∀ p job, w.db.progress = some p → p.job = some job → JobInv batches w p.cutoff job
  units : ∀ id unit, (id, unit) ∈ w.units → Ready env batches w id unit ∧ id ∈ w.generated
  used : ∀ id, Replacing w id → id ∈ w.generated ∧ ∀ prepared ∈ w.units, prepared.1 ≠ id

theorem JobInv.congr {job : FactJob β} (h : JobInv batches w cutoff job) (hdb : w'.db = w.db)
    (hpast : w'.past = w.past) : JobInv batches w' cutoff job := by
  obtain ⟨_, _, publications, activated, units, generated⟩ := w'
  cases hdb
  cases hpast
  exact ⟨h.key, h.known, h.copying, h.retiring⟩

theorem Ready.congr {id : FactBatchId} {unit : PreparedEvidenceGc φ β}
    (h : Ready env batches w id unit) (hdb : w'.db = w.db) (hpast : w'.past = w.past) :
    Ready env batches w' id unit := by
  obtain ⟨_, _, publications, activated, units, generated⟩ := w'
  cases hdb
  cases hpast
  exact ⟨h.made, h.fresh, h.blank⟩

theorem Inv.congr (h : Inv env batches w) (hdb : w'.db = w.db) (hpast : w'.past = w.past)
    (hp : w'.publications = w.publications) (ha : w'.activated = w.activated) :
    Inv env batches w' := by
  obtain ⟨_, _, _, _, units, generated⟩ := w'
  cases hdb
  cases hpast
  cases hp
  cases ha
  exact ⟨h.current, h.keyed, h.described, h.based, h.floors, h.active, h.staged, h.publications,
    h.activated, h.distinct⟩

theorem Dead.commit (h : Dead batches w ns) (hf : Frame w db)
    (hfresh : Fresh batches w ns.generation → Fresh batches (w.commit db) ns.generation) :
    Dead batches (w.commit db) ns := by
  obtain ⟨hcurrent, hfr | ha⟩ := h
  · refine ⟨fun m hm heq => ?_, .inl (hfresh hfr)⟩
    exact (hfresh hfr).2 ns.shardKey ⟨db, List.mem_cons_self .., m, hm, heq⟩
  · exact ⟨hf.dead _ _ ha hcurrent, .inr ha.commit⟩

theorem JobInv.commit {job : FactJob β} (h : JobInv batches w cutoff job)
    (hf : FactFrame batches w db) : JobInv batches (w.commit db) cutoff job := by
  obtain ⟨old, hold, hlookup⟩ := h.known
  refine ⟨h.key, ⟨old, List.mem_cons_of_mem _ hold, hlookup⟩, fun hretire => ?_, fun ns hns => ?_⟩
  · obtain ⟨hfresh, hfloor, hcopied⟩ := h.copying hretire
    obtain ⟨hfresh', hrows⟩ := hf.fresh _ hfresh
    refine ⟨hfresh', hfloor, fun hactive => ?_⟩
    have hactive' := hf.steady hold hlookup hactive
    have horiginal : db.rows job.original = w.db.rows job.original := by
      rw [FactJob.original, h.key]
      exact hf.active _ _ hactive' hactive
    have hcandidate : db.rows job.candidate = w.db.rows job.candidate := hrows _
    change Copied cutoff job (db.readRecords _) (db.rows _)
    rw [FactDatabase.readRecords, horiginal, hcandidate]
    exact hcopied hactive'
  · exact (h.retiring ns hns).commit hf.toFrame fun hfr => (hf.fresh _ hfr).1

theorem Ready.commit {id : FactBatchId} {unit : PreparedEvidenceGc φ β}
    (h : Ready env batches w id unit) (hf : Frame w db)
    (hfresh : Fresh batches (w.commit db) id) (hblank : ∀ key, db.rows ⟨key, id⟩ = []) :
    Ready env batches (w.commit db) id unit := by
  obtain ⟨read, prepared, p, hread, hprepared, hstart, hcase, hrows⟩ := h.made
  refine ⟨⟨read, prepared, p, List.mem_cons_of_mem _ hread, List.mem_cons_of_mem _ hprepared,
    hstart, hcase, fun key m hm hm' => ?_⟩, hfresh, hblank⟩
  have hbefore := hf.steady hread hm hm'
  rw [hrows key m hm hbefore]
  exact (hf.active key m hbefore hm').symm

/-! ## Commits that keep the manifests -/

/-- A generation whose rows may be deleted: it is not active, and a descriptor of it is of a batch
that was activated before. -/
def Spare (w : World φ β) (ns : FactNamespace) : Prop :=
  (∀ m, w.db.manifests.lookup ns.shardKey = some m → m.activeGeneration ≠ ns.generation) ∧
    ∀ d, w.db.staged.lookup ns.generation = some d → d.threadShardKey = ns.shardKey →
      Activated w ns.shardKey ns.generation

theorem Dead.spare (h : Dead batches w ns) (hinv : Inv env batches w) : Spare w ns := by
  refine ⟨h.1, fun d hd _ => ?_⟩
  rcases h.2 with hfresh | ha
  · obtain ⟨b, hb, -⟩ := hinv.described _ hinv.current _ _ hd
    rw [hfresh.1] at hb
    cases hb
  · exact ha

theorem Fresh.dead {id : FactBatchId} (h : Fresh batches w id) (hinv : Inv env batches w)
    (key : ThreadShardKey) : Dead batches w ⟨key, id⟩ :=
  ⟨fun _ hm => h.inactive hinv hm, .inl h⟩

structure Kept (w : World φ β) (db : FactDatabase φ β) : Prop where
  manifests : db.manifests = w.db.manifests
  staged : ∀ id d, db.staged.lookup id = some d → w.db.staged.lookup id = some d
  rows : ∀ ns, db.rows ns = w.db.rows ns ∨ Spare w ns

theorem Kept.active_rows (h : Kept w db) {key : ThreadShardKey} {m : ActiveFactManifest β}
    (hm : w.db.manifests.lookup key = some m) :
    db.rows ⟨key, m.activeGeneration⟩ = w.db.rows ⟨key, m.activeGeneration⟩ :=
  (h.rows _).resolve_right fun hspare => hspare.1 m hm rfl

theorem Kept.inv (hk : Kept w db) (h : Inv env batches w) : Inv env batches (w.commit db) := by
  refine h.commit hk.manifests (fun key m hm => hk.active_rows hm) fun id d hd => ?_
  have hd := hk.staged id d hd
  refine ⟨h.described _ h.current id d hd, ?_⟩
  rcases hk.rows ⟨d.threadShardKey, id⟩ with hrows | hspare
  · rw [hrows]
    exact h.staged id d hd
  · exact .inl (hspare.2 d hd rfl)

theorem Kept.frame (hk : Kept w db) : Frame w db :=
  .of_same hk.manifests fun _ _ hm => hk.active_rows hm

/-! ## What a commit does -/

/-- The manifest of a set after retention: its records are those that are retained. -/
structure Retained (w : World φ β) (db : FactDatabase φ β) (key : ThreadShardKey)
    (m m' : ActiveFactManifest β) : Prop where
  before : w.db.manifests.lookup key = some m
  after : db.manifests.lookup key = some m'
  cutoff : ∃ p, w.db.progress = some p ∧ m'.retainedSince = some p.cutoff ∧
    (db.rows ⟨key, m'.activeGeneration⟩).Perm
      (retainedRows p.cutoff (w.db.rows ⟨key, m.activeGeneration⟩))
  floor : floorLt m.retainedSince m'.retainedSince
  cursor : m'.cursor = m.cursor
  remoteBinding : m'.remoteBinding = m.remoteBinding
  validatedDigests : m'.validatedDigests = m.validatedDigests

structure Collected (env : StoreEnv φ β) (batches : Batches φ β) (w : World φ β)
    (id : FactBatchId) (db : FactDatabase φ β) : Prop where
  inv : Inv env batches (w.commit db)
  frame : Frame w db
  jobless : ∀ p, db.progress = some p → p.phase ≠ .facts → p.job = none
  job : ∀ p job, db.progress = some p → p.job = some job →
    JobInv batches (w.commit db) p.cutoff job ∧
      (job.replacement = id ∨ Replacing w job.replacement)
  blank : ∀ id', ¬ Replacing w id' → Fresh batches w id' → (∀ key, w.db.rows ⟨key, id'⟩ = []) →
    Fresh batches (w.commit db) id' ∧ ∀ key, db.rows ⟨key, id'⟩ = []
  manifests : ∀ key, db.manifests.lookup key = w.db.manifests.lookup key ∨
    ∃ m m', Retained w db key m m'
  rows : ∀ ns, db.rows ns = w.db.rows ns ∨ Spare w ns

theorem Kept.collected {id : FactBatchId} (hk : Kept w db) (h : Inv env batches w)
    (hblank : ∀ id' key, ¬ Replacing w id' → w.db.rows ⟨key, id'⟩ = [] → db.rows ⟨key, id'⟩ = [])
    (hjobless : ∀ p, db.progress = some p → p.phase ≠ .facts → p.job = none)
    (hjob : ∀ p job, db.progress = some p → p.job = some job →
      JobInv batches (w.commit db) p.cutoff job ∧
        (job.replacement = id ∨ Replacing w job.replacement)) :
    Collected env batches w id db where
  inv := hk.inv h
  frame := hk.frame
  jobless := hjobless
  job := hjob
  blank id' hnot hfresh hrows :=
    ⟨fresh_commit_of_same hfresh h hk.manifests, fun key => hblank id' key hnot (hrows key)⟩
  manifests key := .inl (by rw [hk.manifests])
  rows := hk.rows

/-- The progress after a unit. -/
def PreparedEvidenceGc.committed (unit : PreparedEvidenceGc φ β) : Option (Progress β) :=
  if unit.next.phase = .done then none else some unit.next

theorem committed_some {unit : PreparedEvidenceGc φ β} {p : Progress β}
    (h : unit.committed = some p) : p = unit.next := by
  unfold PreparedEvidenceGc.committed at h
  split at h
  · cases h
  · exact (Option.some.inj h).symm

variable {unit : PreparedEvidenceGc φ β} {id : FactBatchId} {p : Progress β}

/-- What a commit checks. -/
structure Admitted (unit : PreparedEvidenceGc φ β) (db : FactDatabase φ β) : Prop where
  progress : db.progress = unit.expected
  references : ∀ references, unit.references = some references →
    db.manifests.lookup references.shardKey = references.manifest ∧
      db.staged.lookup references.generation = references.descriptor
  active : ∀ job, activeJob unit.expected = some job →
    db.manifests.lookup job.key = some job.expected ∨ unit.action = .none

theorem publish_ok [DecidableEq φ] [DecidableEq β] {db' : FactDatabase φ β}
    (h : unit.publish db = .ok db') :
    Admitted unit db ∧ ∃ db₁, unit.apply db = .ok db₁ ∧
      db' = { db₁ with progress := unit.committed } := by
  obtain ⟨_, hprogress, h⟩ := bind_ok h
  obtain ⟨_, -, h⟩ := bind_ok h
  obtain ⟨_, hreferences, h⟩ := bind_ok h
  obtain ⟨_, hactive, h⟩ := bind_ok h
  obtain ⟨db₁, happly, h⟩ := bind_ok h
  cases h
  refine ⟨⟨ensure_ok.1 hprogress, fun r hr => ?_, fun job hjob => ?_⟩, db₁, happly, rfl⟩
  · have hcheck := checkSome_ok hreferences hr
    exact ensure_ok.1 hcheck
  · have hcheck := checkSome_ok hactive hjob
    exact ensure_ok.1 hcheck

theorem apply_idle [DecidableEq φ] [DecidableEq β] {db' : FactDatabase φ β}
    (hidle : unit.action.Idle)
    (h : unit.apply db = .ok db') : db'.manifests = db.manifests ∧ db'.records = db.records ∧
      ∀ id d, db'.staged.lookup id = some d → db.staged.lookup id = some d := by
  unfold PreparedEvidenceGc.apply at h
  rcases hidle with hnone | hdelete | ⟨batchId, descriptor, stagedAt, publication, hstates⟩
  · rw [hnone] at h
    cases h
    exact ⟨rfl, rfl, fun _ _ hd => hd⟩
  · rw [hdelete] at h
    cases h
    exact ⟨rfl, rfl, fun _ _ hd => hd⟩
  · rw [hstates] at h
    obtain ⟨_, -, h⟩ := bind_ok h
    cases h
    refine ⟨rfl, rfl, fun id d hd => ?_⟩
    by_cases hid : id = batchId
    · subst hid
      rw [AList.lookup_erase] at hd
      cases hd
    · rwa [AList.lookup_erase_ne hid] at hd

theorem StartsFrom.job (h : StartsFrom unit.expected p) (ha : Admitted unit w.db)
    {job : FactJob β} (hjob : p.job = some job) : w.db.progress = some p := by
  rcases h with hsome | ⟨-, -, hnone⟩
  · rw [ha.progress, hsome]
  · rw [hnone] at hjob
    cases hjob

theorem StartsFrom.jobless (h : StartsFrom unit.expected p) (ha : Admitted unit w.db)
    (hc : CollectInv env batches w) (hphase : p.phase ≠ .facts) : p.job = none := by
  rcases h with hsome | ⟨-, -, hnone⟩
  · exact hc.jobless p (ha.progress.trans hsome) hphase
  · exact hnone

theorem collected_idle (h : Inv env batches w) (hk : Kept w db₁)
    (hrows : ∀ ns, (db₁.rows ns).Sublist (w.db.rows ns)) (hjob : unit.next.job = none) :
    Collected env batches w id { db₁ with progress := unit.committed } := by
  have hkept : Kept w { db₁ with progress := unit.committed } := ⟨hk.manifests, hk.staged, hk.rows⟩
  refine hkept.collected h (fun id' key _ hnil => ?_) (fun p hp _ => ?_) fun p job hp hj => ?_
  · exact List.sublist_nil.1 (hnil ▸ hrows ⟨key, id'⟩)
  · rw [committed_some hp, hjob]
  · rw [committed_some hp, hjob] at hj
    cases hj

theorem kept_delete [DecidableEq φ]
    (h : w.db.deleteRows (rows.map fun record => ⟨ns, record⟩) = .ok db₁) (hspare : Spare w ns) :
    Kept w db₁ ∧ ∀ ns, (db₁.rows ns).Sublist (w.db.rows ns) := by
  obtain ⟨⟨records, rfl⟩, hsub, hother⟩ := deleteRows_ok h
  refine ⟨⟨rfl, fun _ _ hd => hd, fun ns' => ?_⟩, hsub⟩
  by_cases hne : ns' = ns
  · exact .inr (hne ▸ hspare)
  · refine .inl (hother ns' fun row hrow => ?_)
    obtain ⟨record, -, rfl⟩ := List.mem_map.1 hrow
    exact Ne.symm hne

theorem collected_sweep [DecidableEq φ] {active : Option (ActiveFactManifest β)}
    {staged : Option (StagedFactBatch β)} (h : Inv env batches w) (ha : Admitted unit w.db)
    (hjob : unit.next.job = none)
    (hreferences : unit.references = some ⟨ns.shardKey, active, ns.generation, staged⟩)
    (hactive : active.map (·.activeGeneration) ≠ some ns.generation)
    (hstaged : staged.map (·.threadShardKey) ≠ some ns.shardKey)
    (hdelete : w.db.deleteRows (rows.map fun record => ⟨ns, record⟩) = .ok db₁) :
    Collected env batches w id { db₁ with progress := unit.committed } := by
  obtain ⟨hm, hd⟩ := ha.references _ hreferences
  dsimp only at hm hd
  have hspare : Spare w ns := by
    refine ⟨fun m hlookup heq => hactive ?_, fun d hlookup heq => absurd ?_ hstaged⟩
    · rw [← hm, hlookup, ← heq]
      rfl
    · rw [← hd, hlookup, ← heq]
      rfl
  obtain ⟨hk, hsub⟩ := kept_delete hdelete hspare
  exact collected_idle h hk hsub hjob

theorem collected_create {prepared : FactDatabase φ β} {key : ThreadShardKey}
    {m : ActiveFactManifest β} (h : Inv env batches w) (hr : Ready env batches w id unit)
    (hprepared : prepared ∈ w.past) (hphase : p.phase = .facts)
    (hm : prepared.manifests.lookup key = some m) (hkey : m.threadShardKey = key)
    (hfloor : ¬ m.retainedSince.any (fun floor => decide (p.cutoff ≤ floor)) = true)
    (hnext : unit.next = { p with job := some (FactJob.new key m id) }) :
    Collected env batches w id { w.db with progress := unit.committed } := by
  have hk : Kept w { w.db with progress := unit.committed } :=
    ⟨rfl, fun _ _ hd => hd, fun _ => .inl rfl⟩
  refine hk.collected h (fun _ _ _ hnil => hnil) (fun q hq hne => ?_) fun q job hq hj => ?_
  · rw [committed_some hq, hnext] at hne
    exact absurd hphase hne
  · rw [committed_some hq, hnext] at hj ⊢
    cases hj
    refine ⟨⟨hkey, ⟨prepared, List.mem_cons_of_mem _ hprepared, hm⟩, fun _ => ?_,
      fun ns hns => by cases hns⟩, .inl rfl⟩
    refine ⟨fresh_commit_of_same hr.fresh h rfl, ?_, fun _ => ?_⟩
    · constructor
      · intro floor hsome
        change m.retainedSince = some floor at hsome
        rw [hsome] at hfloor
        exact ⟨_, rfl, Int.le_of_not_le fun hle => hfloor (decide_eq_true hle)⟩
      · intro hle
        obtain ⟨floor, hsome, hle⟩ := hle _ rfl
        change m.retainedSince = some floor at hsome
        rw [hsome] at hfloor
        exact hfloor (decide_eq_true hle)
    · have hblank : w.db.rows (FactJob.new key m id).candidate = [] := hr.blank _
      change Copied p.cutoff _ _ (w.db.rows _)
      rw [hblank]
      exact copied_new

section
variable {job : FactJob β} (h : Inv env batches w) (hp : w.db.progress = some p)
  (hj : JobInv batches w p.cutoff job) (hphase : p.phase = .facts) (hjob : p.job = some job)
include h hp hj hphase hjob

theorem collected_retire [DecidableEq φ] (hretire : job.retireNamespace = some ns)
    (hnextphase : unit.next.phase = p.phase) (hnextcutoff : unit.next.cutoff = p.cutoff)
    (hnextjob : unit.next.job = none ∨ unit.next.job = some job)
    (hdelete : w.db.deleteRows (rows.map fun record => ⟨ns, record⟩) = .ok db₁) :
    Collected env batches w id { db₁ with progress := unit.committed } := by
  have hdead := hj.retiring ns hretire
  obtain ⟨hk, hsub⟩ := kept_delete hdelete (hdead.spare h)
  rcases hnextjob with hnone | hsome
  · exact collected_idle h hk hsub hnone
  · have hkept : Kept w { db₁ with progress := unit.committed } :=
      ⟨hk.manifests, hk.staged, hk.rows⟩
    refine hkept.collected h (fun id' key _ hnil => ?_) (fun q hq hne => ?_) fun q job' hq hj' => ?_
    · exact List.sublist_nil.1 (hnil ▸ hsub ⟨key, id'⟩)
    · rw [committed_some hq, hnextphase] at hne
      exact absurd hphase hne
    · rw [committed_some hq, hsome] at hj'
      cases hj'
      rw [committed_some hq, hnextcutoff]
      refine ⟨⟨hj.key, ?_, fun hnone => ?_, fun ns' hns' => ?_⟩, .inr ⟨p, job, hp, hjob, rfl⟩⟩
      · obtain ⟨old, hold, hlookup⟩ := hj.known
        exact ⟨old, List.mem_cons_of_mem _ hold, hlookup⟩
      · rw [hretire] at hnone
        cases hnone
      · exact (hj.retiring ns' hns').commit hkept.frame fun hf =>
          fresh_commit_of_same hf h hkept.manifests

theorem collected_cancel (hretire : job.retireNamespace = none)
    (hnext : unit.next = { p with
      job := some { job with retireNamespace := some job.candidate, cancelled := true } }) :
    Collected env batches w id { w.db with progress := unit.committed } := by
  have hk : Kept w { w.db with progress := unit.committed } :=
    ⟨rfl, fun _ _ hd => hd, fun _ => .inl rfl⟩
  refine hk.collected h (fun _ _ _ hnil => hnil) (fun q hq hne => ?_) fun q job' hq hj' => ?_
  · rw [committed_some hq, hnext] at hne
    exact absurd hphase hne
  · rw [committed_some hq, hnext] at hj' ⊢
    cases hj'
    refine ⟨⟨hj.key, ?_, nofun, fun ns hns => ?_⟩,
      .inr ⟨p, job, hp, hjob, rfl⟩⟩
    · obtain ⟨old, hold, hlookup⟩ := hj.known
      exact ⟨old, List.mem_cons_of_mem _ hold, hlookup⟩
    · cases hns
      have hfresh : Fresh batches w job.candidate.generation := (hj.copying hretire).1
      exact (hfresh.dead h job.candidate.shardKey).commit hk.frame fun hf =>
        fresh_commit_of_same hf h rfl

end

/-! ## Pages -/

theorem SameJob.original {job job' : FactJob β} (h : SameJob job job') :
    job'.original = job.original := by
  rw [FactJob.original, FactJob.original, h.expected]

theorem SameJob.candidate {job job' : FactJob β} (h : SameJob job job') :
    job'.candidate = job.candidate := by
  rw [FactJob.candidate, FactJob.candidate, h.expected, h.replacement]

theorem Inv.original_matches {job : FactJob β} (h : Inv env batches w)
    (hkey : job.expected.threadShardKey = job.key)
    (hactive : w.db.manifests.lookup job.key = some job.expected) :
    Matches (w.db.rows job.original) job.expected.recordCount job.expected.shardDays := by
  rw [FactJob.original, hkey]
  exact h.active _ _ hactive

theorem retainedRows_perm {rs rs' : List (UsageEventFactRecord φ)} (h : rs.Perm rs') :
    (retainedRows cutoff rs).Perm (retainedRows cutoff rs') :=
  h.filter _

section
variable {job counted : FactJob β} (hkey : job.expected.threadShardKey = job.key)
  (hsame : SameJob job counted) (hcounts : Counts cutoff counted (w.db.readRecords job.original))
  (hcandidate : w.db.rows job.candidate = retainedRows cutoff (w.db.readRecords job.original))
include hkey hsame hcounts hcandidate

theorem replacement_rows :
    (w.db.rows ⟨job.key, (counted.replacementManifest cutoff).activeGeneration⟩).Perm
      (retainedRows cutoff (w.db.readRecords job.original)) := by
  rw [← hkey]
  cases hchanged : counted.changed with
  | true =>
    have hrows : w.db.rows ⟨job.expected.threadShardKey,
        (counted.replacementManifest cutoff).activeGeneration⟩ = w.db.rows job.candidate := by
      rw [FactJob.replacementManifest, if_pos hchanged, hsame.replacement]
      rfl
    rw [hrows, hcandidate]
  | false =>
    have hrows : w.db.rows ⟨job.expected.threadShardKey,
        (counted.replacementManifest cutoff).activeGeneration⟩ = w.db.rows job.original := by
      simp only [FactJob.replacementManifest, hchanged, Bool.false_eq_true, if_false,
        hsame.expected]
      rfl
    -- nothing was expired, so the set stays as it is
    have hall : retainedRows cutoff (w.db.readRecords job.original) =
        w.db.readRecords job.original := by
      refine List.filter_sublist.eq_of_length ?_
      have hcount : counted.retainedCount = counted.seenCount := by
        simpa [FactJob.changed] using hchanged
      rw [← hcounts.seenCount, ← hcount, hcounts.retainedCount]
      rfl
    rw [hrows, hall]
    exact (readRecords_perm _ _).symm

theorem replacement_matches (h : Inv env batches w)
    (hactive : w.db.manifests.lookup job.key = some job.expected) :
    Matches (w.db.rows ⟨job.key, (counted.replacementManifest cutoff).activeGeneration⟩)
      (counted.replacementManifest cutoff).recordCount
      (counted.replacementManifest cutoff).shardDays := by
  have hold := (h.original_matches hkey hactive).perm (readRecords_perm _ _).symm
  refine Matches.perm ⟨hcounts.retainedCount.symm, ?_, ?_⟩
    (replacement_rows hkey hsame hcounts hcandidate).symm
  · rw [recordDays, ← hcounts.retainedDays]
    rfl
  · exact hold.2.2.sublist (List.filter_sublist.map _)

end

theorem replacement_replaces {job counted : FactJob β}
    (hactive : w.db.manifests.lookup job.key = some job.expected) (hsame : SameJob job counted)
    (hfresh : Fresh batches w job.replacement)
    (hfloor : floorLt job.expected.retainedSince (some cutoff)) :
    Replaces batches w job.key (counted.replacementManifest cutoff) := by
  cases hchanged : counted.changed with
  | true =>
    refine .inl ?_
    rw [FactJob.replacementManifest, if_pos hchanged, hsame.replacement]
    refine ⟨hfresh.2 _, fun b hb => ?_⟩
    rw [hfresh.1] at hb
    cases hb
  | false =>
    refine .inr ⟨job.expected, hactive, ?_, hfloor⟩
    simp [FactJob.replacementManifest, hchanged, hsame.expected]

section
variable {job job' : FactJob β} (h : Inv env batches w) (hp : w.db.progress = some p)
  (hj : JobInv batches w p.cutoff job) (hphase : p.phase = .facts) (hjob : p.job = some job)
  (hretire : job.retireNamespace = none)
  (hactive : w.db.manifests.lookup job.key = some job.expected) (hsame : SameJob job job')
include h hp hj hphase hjob hretire hactive hsame

theorem collected_copy (hretire' : job'.retireNamespace = job.retireNamespace)
    (hcopied : Copied p.cutoff job' (w.db.readRecords job.original)
      (w.db.rows job.candidate ++ rows)) (hnext : unit.next = { p with job := some job' })
    (hinsert : w.db.insertRows job.candidate rows = .ok db₁) :
    Collected env batches w id { db₁ with progress := unit.committed } := by
  obtain ⟨⟨records, rfl⟩, hself, hother⟩ := insertRows_ok hinsert
  obtain ⟨hfresh, hfloor, -⟩ := hj.copying hretire
  have hspare : Spare w job.candidate := (hfresh.dead h _).spare h
  have hk : Kept w { w.db with records, progress := unit.committed } := by
    refine ⟨rfl, fun _ _ hd => hd, fun ns => ?_⟩
    by_cases hne : ns = job.candidate
    · exact .inr (hne ▸ hspare)
    · exact .inl (hother ns hne)
  refine hk.collected h (fun id' key hnot hnil => ?_) (fun q hq hne => ?_) fun q job'' hq hj' => ?_
  · refine (hother _ fun heq => hnot ⟨p, job, hp, hjob, ?_⟩).trans hnil
    exact (FactNamespace.mk.inj heq).2.symm
  · rw [committed_some hq, hnext] at hne
    exact absurd hphase hne
  · rw [committed_some hq, hnext] at hj' ⊢
    cases hj'
    have hne : job.original ≠ job.candidate := fun heq =>
      hfresh.inactive h hactive (FactNamespace.mk.inj heq).2
    refine ⟨⟨?_, ?_, fun _ => ⟨?_, ?_, fun _ => ?_⟩, fun ns hns => ?_⟩,
      .inr ⟨p, job, hp, hjob, hsame.replacement.symm⟩⟩
    · rw [hsame.expected, hsame.key, hj.key]
    · rw [hsame.expected, hsame.key]
      exact ⟨w.db, List.mem_cons_of_mem _ h.current, hactive⟩
    · rw [hsame.replacement]
      exact fresh_commit_of_same hfresh h rfl
    · rw [hsame.expected]
      exact hfloor
    · rw [hsame.original, hsame.candidate]
      have hrecords : FactDatabase.readRecords { w.db with records } job.original =
          w.db.readRecords job.original := by
        rw [FactDatabase.readRecords, FactDatabase.readRecords, hother _ hne]
      change Copied p.cutoff job' (FactDatabase.readRecords { w.db with records } job.original)
        (FactDatabase.rows { w.db with records } job.candidate)
      rw [hrecords, hself]
      exact hcopied
    · rw [hretire', hretire] at hns
      cases hns

theorem collected_publish {counted : FactJob β} (hcounted : SameJob job counted)
    (hcounts : Counts p.cutoff counted (w.db.readRecords job.original))
    (hcandidate : w.db.rows job.candidate =
      retainedRows p.cutoff (w.db.readRecords job.original))
    (hretire' : job'.retireNamespace =
      some (if counted.changed then job.original else job.candidate))
    (hnext : unit.next = { p with job := some job' })
    (hm : db.manifests =
      w.db.manifests.insert job.key (counted.replacementManifest p.cutoff))
    (hrecords : db.records = w.db.records) (hstaged : db.staged = w.db.staged)
    (hprogress : db.progress = unit.committed) : Collected env batches w id db := by
  obtain ⟨hfresh, hfloor, -⟩ := hj.copying hretire
  have hself : db.manifests.lookup job.key = some (counted.replacementManifest p.cutoff) := by
    rw [hm, AList.lookup_insert]
  have hrows (ns : FactNamespace) : db.rows ns = w.db.rows ns := by
    rw [FactDatabase.rows, FactDatabase.rows, hrecords]
  have hgeneration : (counted.replacementManifest p.cutoff).activeGeneration =
      if counted.changed then job.replacement else job.expected.activeGeneration := by
    rw [FactJob.replacementManifest, hcounted.replacement, hcounted.expected]
  have hkey : (counted.replacementManifest p.cutoff).threadShardKey = job.key := by
    rw [FactJob.replacementManifest, hcounted.expected]
    exact hj.key
  have hreplaces := replacement_replaces hactive hcounted hfresh hfloor
  have hinv := h.swap hm hrecords hstaged hkey hreplaces
    (replacement_matches hj.key hcounted hcounts hcandidate h hactive)
  -- other identifiers that nothing uses stay unused
  have hother {id' : FactBatchId} (hfresh' : Fresh batches w id')
      (hne : counted.changed = true → id' ≠ job.replacement) : Fresh batches (w.commit db) id' := by
    refine fresh_commit hfresh' fun key m hlookup heq => ?_
    by_cases hk : key = job.key
    · subst hk
      rw [hself] at hlookup
      cases hlookup
      rw [hgeneration] at heq
      split at heq
      next hchanged => exact hne hchanged heq.symm
      next => exact hfresh'.inactive h hactive heq
    · rw [hm, AList.lookup_insert_ne hk] at hlookup
      exact hfresh'.inactive h hlookup heq
  have hdead : Dead batches (w.commit db)
      (if counted.changed then job.original else job.candidate) := by
    split
    next hchanged =>
      rw [FactJob.original, hj.key]
      refine ⟨fun m hlookup heq => ?_, .inr (h.activated_of_active hactive).commit⟩
      cases hself.symm.trans hlookup
      rw [hgeneration, if_pos hchanged] at heq
      exact hfresh.inactive h hactive heq.symm
    next hkept => exact (hother hfresh fun hchanged => absurd hchanged hkept).dead hinv _
  refine ⟨hinv, .of_swap h hm hrecords hreplaces, fun q hq hne => ?_, fun q job'' hq hj' => ?_,
    fun id' hnot hfresh' hblank => ⟨hother hfresh' fun _ => ?_, fun key => ?_⟩, fun key => ?_,
    fun ns => .inl (hrows ns)⟩
  · rw [committed_some (hprogress.symm.trans hq), hnext] at hne
    exact absurd hphase hne
  · rw [committed_some (hprogress.symm.trans hq), hnext] at hj' ⊢
    cases hj'
    refine ⟨⟨?_, ?_, fun hnone => ?_, fun ns hns => ?_⟩,
      .inr ⟨p, job, hp, hjob, hsame.replacement.symm⟩⟩
    · rw [hsame.expected, hsame.key, hj.key]
    · rw [hsame.expected, hsame.key]
      exact ⟨w.db, List.mem_cons_of_mem _ h.current, hactive⟩
    · rw [hretire'] at hnone
      cases hnone
    · rw [hretire'] at hns
      cases hns
      exact hdead
  · rintro rfl
    exact hnot ⟨p, job, hp, hjob, rfl⟩
  · rw [hrows, hblank key]
  · by_cases hk : key = job.key
    · subst hk
      refine .inr ⟨job.expected, _, hactive, hself, ⟨p, hp, rfl, ?_⟩, hfloor, ?_, ?_, ?_⟩
      · rw [hrows]
        refine (replacement_rows hj.key hcounted hcounts hcandidate).trans (retainedRows_perm ?_)
        rw [← hj.key]
        exact readRecords_perm _ _
      · rw [FactJob.replacementManifest, hcounted.expected]
      · rw [FactJob.replacementManifest, hcounted.expected]
      · rw [FactJob.replacementManifest, hcounted.expected]
    · exact .inl (versionOf_insert_of_ne hm hk)

end

/-- **What a commit of the collector does.** -/
theorem publish_collected [DecidableEq φ] [DecidableEq β] {db' : FactDatabase φ β}
    (h : Inv env batches w) (hc : CollectInv env batches w) (hr : Ready env batches w id unit)
    (hpublish : unit.publish w.db = .ok db') : Collected env batches w id db' := by
  obtain ⟨ha, db₁, happly, rfl⟩ := publish_ok hpublish
  obtain ⟨read, prepared, p, hread, hprepared, hstart, hcase, hrows⟩ := hr.made
  generalize hnext : unit.next = next at hcase
  generalize haction : unit.action = action at hcase
  generalize hreferences : unit.references = references at hcase
  cases hcase with
  | idle hfacts hjob hidle =>
    have hnone : p.job = none := by
      by_cases hphase : p.phase = .facts
      · exact hfacts hphase
      · exact hstart.jobless ha hc hphase
    obtain ⟨hm, hrecords, hstaged⟩ := apply_idle (haction ▸ hidle) happly
    have hsame (ns : FactNamespace) : db₁.rows ns = w.db.rows ns := by
      rw [FactDatabase.rows, FactDatabase.rows, hrecords]
    refine collected_idle h ⟨hm, hstaged, fun ns => .inl (hsame ns)⟩ (fun ns => ?_) ?_
    · rw [hsame]
    · rw [hnext, hjob, hnone]
  | sweep hphase hjob hactive hstaged =>
    have hnone : p.job = none := hstart.jobless ha hc (by simp [hphase])
    rw [PreparedEvidenceGc.apply, haction] at happly
    exact collected_sweep h ha (by rw [hnext, hjob, hnone]) hreferences hactive hstaged happly
  | create hphase hnone hm hkey hfloor =>
    rw [PreparedEvidenceGc.apply, haction] at happly
    cases happly
    exact collected_create h hr hprepared hphase hm hkey hfloor hnext
  | retire hphase hjob hretire hnextphase hnextcutoff hnextjob =>
    have hp := hstart.job ha hjob
    rw [PreparedEvidenceGc.apply, haction] at happly
    subst hnext
    exact collected_retire h hp (hc.job p _ hp hjob) hphase hjob hretire hnextphase hnextcutoff
      hnextjob happly
  | cancel hphase hjob hretire =>
    have hp := hstart.job ha hjob
    rw [PreparedEvidenceGc.apply, haction] at happly
    cases happly
    exact collected_cancel h hp (hc.job p _ hp hjob) hphase hjob hretire hnext
  | @page job job' action budget hphase hjob hretire hlookup hpage =>
    have hp := hstart.job ha hjob
    have hj := hc.job p _ hp hjob
    have hexpected : unit.expected = some p := ha.progress.symm.trans hp
    have hcopying : activeJob unit.expected = some job := by
      simp [activeJob, hexpected, hjob, hretire]
    have hactive : w.db.manifests.lookup job.key = some job.expected :=
      (ha.active job hcopying).resolve_right (haction ▸ page_action hpage)
    have horiginal : prepared.rows job.original = w.db.rows job.original := by
      rw [FactJob.original, hj.key]
      exact hrows _ _ hlookup hactive
    have hrecords : prepared.readRecords job.original = w.db.readRecords job.original := by
      rw [FactDatabase.readRecords, FactDatabase.readRecords, horiginal]
    have hmatches := h.original_matches hj.key hactive
    simp only [FactDatabase.readRows, hrecords] at hpage
    obtain ⟨hsame, ⟨rfl, hretire', hcopied⟩ | ⟨counted, hcounted, hcounts, hcandidate, rfl,
        hretire'⟩⟩ := page_ok ((hj.copying hretire).2.2 hactive) (readRecords_strict hmatches.2.2)
      ((readRecords_perm _ _).length_eq.trans hmatches.1) rfl hpage
    · rw [PreparedEvidenceGc.apply, haction] at happly
      exact collected_copy h hp hj hphase hjob hretire hactive hsame hretire' hcopied hnext happly
    · rw [PreparedEvidenceGc.apply, haction] at happly
      obtain ⟨_, -, happly⟩ := bind_ok happly
      cases happly
      exact collected_publish h hp hj hphase hjob hretire hactive hsame hcounted hcounts hcandidate
        hretire' hnext rfl rfl rfl rfl

end

end Facts
