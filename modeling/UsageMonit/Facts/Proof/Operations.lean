import UsageMonit.Facts.Proof.Rows

/-!
# What the operations of a publication do

One lemma for each operation, read off its definition: `stageFactBatch_ok`,
`prevalidateFactBatch_ok`, `publishFactBatch_ok` and `cleanupFactPublication_ok`.
-/

namespace Facts

open Fallible Time

variable {φ β : Type} {env : StoreEnv φ β} {db db' : FactDatabase φ β}
  {current : Option (ActiveFactManifest β)} {batch : CompleteFactBatch φ β}
  {p : PrevalidatedFactPublication β}

def versionOf (db : FactDatabase φ β) (key : ThreadShardKey) : Option (ActiveFactVersion β) :=
  (db.manifests.lookup key).map (·.version)

theorem readFactManifest_ok {replica : SessionReplicaKey} {key : ThreadShardKey}
    (h : readFactManifest env db replica key = .ok current) :
    current = db.manifests.lookup key := by
  unfold readFactManifest at h
  cases hlookup : db.manifests.lookup key with
  | none =>
    rw [hlookup] at h
    cases h
    rfl
  | some manifest =>
    rw [hlookup] at h
    obtain ⟨_, -, h⟩ := bind_ok h
    cases h
    rfl

theorem readDescriptor_ok [DecidableEq β] {id : FactBatchId} {d : StagedFactBatch β}
    (h : readDescriptor env db id = .ok d) : db.staged.lookup id = some d ∧ d.batchId = id := by
  obtain ⟨d', hd, h⟩ := bind_ok h
  obtain ⟨_, hv, h⟩ := bind_ok h
  cases h
  obtain ⟨_, henvelope, -⟩ := bind_ok hv
  exact ⟨okOr_ok.1 hd, (ensure_ok.1 henvelope).1⟩

/-! ## Staging -/

structure Describes (env : StoreEnv φ β) (batch : CompleteFactBatch φ β) (d : StagedFactBatch β) :
    Prop where
  batchId : d.batchId = batch.batchId
  shardKey : d.threadShardKey = env.fromReplica batch.replica
  expected : d.expectedActiveVersion = batch.expectedActiveVersion

theorem readStageBase_nodup [DecidableEq β]
    {base : SourceKind × Option (ActiveFactManifest β) × List (UsageEventFactRecord φ)}
    (h : readStageBase env db batch = .ok base) : (base.2.2.map (·.eventId)).Nodup := by
  iterate 4 obtain ⟨_, -, h⟩ := bind_ok h
  split at h
  · obtain ⟨records, hread, h⟩ := bind_ok h
    cases h
    exact readFactGeneration_nodup hread
  · cases h
    exact List.nodup_nil

theorem stageCandidate_ok [DecidableEq φ] {records : List (UsageEventFactRecord φ)}
    {candidate : StagedFactBatch β × List (UsageEventFactRecord φ)}
    (h : stageCandidate env batch current records = .ok candidate)
    (hnodup : (records.map (·.eventId)).Nodup) :
    Describes env batch candidate.1 ∧
      Matches candidate.2 candidate.1.recordCount candidate.1.shardDays := by
  obtain ⟨applied, happly, h⟩ := bind_ok h
  iterate 3 obtain ⟨_, -, h⟩ := bind_ok h
  cases h
  refine ⟨⟨rfl, rfl, rfl⟩, rfl, rfl, ?_⟩
  exact ((sortFactRecords_perm _).map _).nodup_iff.2 (applyFactChanges_nodup happly hnodup)

structure Staged (env : StoreEnv φ β) (batch : CompleteFactBatch φ β) (d : StagedFactBatch β)
    (db db' : FactDatabase φ β) : Prop where
  describes : Describes env batch d
  version : versionOf db d.threadShardKey = d.expectedActiveVersion
  free : db.staged.lookup d.batchId = none
  inactive : (db.manifests.lookup d.threadShardKey).map (·.activeGeneration) ≠ some d.batchId
  matched : Matches (db'.rows ⟨d.threadShardKey, d.batchId⟩) d.recordCount d.shardDays
  others : ∀ ns, ns ≠ ⟨d.threadShardKey, d.batchId⟩ → db'.rows ns = db.rows ns
  manifests : db'.manifests = db.manifests
  staged : db'.staged = db.staged.insert d.batchId d
  progress : db'.progress = db.progress

theorem writeStage_ok [DecidableEq β] {source : SourceKind} {d : StagedFactBatch β}
    {records : List (UsageEventFactRecord φ)} {now : DateTime}
    (h : writeStage env db batch source d records now = .ok db') (hd : Describes env batch d)
    (hm : Matches records d.recordCount d.shardDays) : Staged env batch d db db' := by
  obtain ⟨_, -, h⟩ := bind_ok h
  obtain ⟨_, -, h⟩ := bind_ok h
  obtain ⟨latest, hlatest, h⟩ := bind_ok h
  obtain ⟨_, hversion, h⟩ := bind_ok h
  obtain ⟨_, hfree, h⟩ := bind_ok h
  obtain ⟨_, hempty, h⟩ := bind_ok h
  obtain ⟨_, -, h⟩ := bind_ok h
  cases h
  have hlatest := readFactManifest_ok hlatest
  subst hlatest
  have hversion := ensure_ok.1 hversion
  have hfree := ensure_ok.1 hfree
  obtain ⟨hempty, hinactive⟩ := ensure_ok.1 hempty
  rw [← hd.shardKey, ← hd.batchId] at hempty hinactive
  rw [← hd.batchId] at hfree
  refine ⟨hd, ?_, hfree, hinactive, ?_, ?_, ?_, ?_, ?_⟩
  · rw [hd.expected, hd.shardKey]
    exact hversion
  · have hrows : (db.putRecords ⟨d.threadShardKey, d.batchId⟩ records).rows
        ⟨d.threadShardKey, d.batchId⟩ = records := by
      rw [rows_putRecords, hempty, List.nil_append]
      rw [hempty]
      exact hm.2.2
    rw [← hd.shardKey, ← hd.batchId]
    exact (congrArg (Matches · _ _) hrows).mpr hm
  · intro ns hns
    rw [← hd.shardKey, ← hd.batchId]
    exact rows_putRecords_of_ne db hns records
  · exact (putRecords_states db).1
  · rw [← hd.batchId]
    exact congrArg (AList.insert d.batchId d) ((putRecords_states db).2.1)
  · exact (putRecords_states db).2.2

theorem stageFactBatch_ok [DecidableEq φ] [DecidableEq β] {read : FactDatabase φ β}
    {now : DateTime} (h : stageFactBatch env read db batch now = .ok db') :
    ∃ d, Staged env batch d db db' := by
  obtain ⟨_, -, h⟩ := bind_ok h
  obtain ⟨_, -, h⟩ := bind_ok h
  obtain ⟨base, hbase, h⟩ := bind_ok h
  obtain ⟨candidate, hcandidate, h⟩ := bind_ok h
  obtain ⟨hd, hm⟩ := stageCandidate_ok hcandidate (readStageBase_nodup hbase)
  exact ⟨candidate.1, writeStage_ok h hd hm⟩

/-! ## Prevalidation -/

variable [DecidableEq β]

/-- A publication of a staged batch: it activates exactly what the descriptor says, in the place of
the version that the batch was made from. -/
structure Prevalidated (p : PrevalidatedFactPublication β) : Prop where
  manifest : ∀ manifest previous, p.mode = .publish manifest previous →
    manifest = candidateManifest p.descriptor ∧
      previous = p.descriptor.expectedActiveVersion.map (·.activeGeneration)

theorem readPrevalidation_ok {id : FactBatchId}
    {checked : StagedFactBatch β × Option (ActiveFactManifest β) × Option (ActiveFactManifest β)}
    (h : readPrevalidation env db id = .ok checked) :
    db.staged.lookup id = some checked.1 ∧ checked.1.batchId = id ∧
      ∀ manifest, checked.2.2 = some manifest → manifest = candidateManifest checked.1 ∧
        checked.2.1.map (·.version) = checked.1.expectedActiveVersion := by
  obtain ⟨_, -, h⟩ := bind_ok h
  obtain ⟨d, hd, h⟩ := bind_ok h
  obtain ⟨_, -, h⟩ := bind_ok h
  obtain ⟨current, hcurrent, h⟩ := bind_ok h
  obtain ⟨hstaged, hid⟩ := readDescriptor_ok hd
  split at h
  · cases h
    exact ⟨hstaged, hid, fun _ hn => by cases hn⟩
  · obtain ⟨_, hversion, h⟩ := bind_ok h
    split at h
    · cases h
      exact ⟨hstaged, hid, fun _ hn => by cases hn⟩
    · obtain ⟨_, -, h⟩ := bind_ok h
      obtain ⟨_, -, h⟩ := bind_ok h
      cases h
      refine ⟨hstaged, hid, fun manifest hm => ?_⟩
      cases hm
      exact ⟨rfl, ensure_ok.1 hversion⟩

theorem prevalidateFactBatch_ok {read : FactDatabase φ β} {id : FactBatchId}
    (h : prevalidateFactBatch env read db id = .ok (p, db')) :
    read.staged.lookup id = some p.descriptor ∧ p.descriptor.batchId = id ∧ Prevalidated p ∧
      ∃ publications, db' = { db with publications } := by
  obtain ⟨checked, hchecked, h⟩ := bind_ok h
  obtain ⟨hstaged, hid, hmanifest⟩ := readPrevalidation_ok hchecked
  split at h
  · cases h
    exact ⟨hstaged, hid, ⟨fun _ _ hmode => by cases hmode⟩, db.publications, rfl⟩
  next manifest hsome =>
    iterate 4 obtain ⟨_, -, h⟩ := bind_ok h
    cases h
    obtain ⟨hm, hversion⟩ := hmanifest manifest hsome
    refine ⟨hstaged, hid, ⟨fun m previous hmode => ?_⟩, _, rfl⟩
    cases hmode
    refine ⟨hm, ?_⟩
    rw [← hversion, Option.map_map]
    rfl

/-! ## Publication -/

/-- What a publication that activates its batch commits. -/
structure Swapped (env : StoreEnv φ β) (d : StagedFactBatch β) (manifest : ActiveFactManifest β)
    (db db' : FactDatabase φ β) : Prop where
  staged : db.staged.lookup d.batchId = some d
  version : versionOf db d.threadShardKey = d.expectedActiveVersion
  result : ∃ publications, db' = { db with
    manifests := db.manifests.insert d.threadShardKey manifest
    publications }

theorem publishFactBatch_ok {report : FactActivationReport}
    (h : publishFactBatch env db p = .ok (report, db')) :
    (report.activated = false ∧ db' = db) ∨
    report.activated = true ∧ ∃ manifest previous, p.mode = .publish manifest previous ∧
      Swapped env p.descriptor manifest db db' := by
  obtain ⟨_, -, h⟩ := bind_ok h
  obtain ⟨_, -, h⟩ := bind_ok h
  obtain ⟨persisted, hpersisted, h⟩ := bind_ok h
  obtain ⟨_, hsame, h⟩ := bind_ok h
  obtain ⟨current, hcurrent, h⟩ := bind_ok h
  have hcurrent := readFactManifest_ok hcurrent
  have hstaged := (readDescriptor_ok hpersisted).1
  rw [ensure_ok.1 hsame] at hstaged
  split at h
  · obtain ⟨_, -, h⟩ := bind_ok h
    cases h
    exact .inl ⟨rfl, rfl⟩
  next manifest previous hmode =>
    obtain ⟨_, hversion, h⟩ := bind_ok h
    obtain ⟨candidate, -, h⟩ := bind_ok h
    obtain ⟨_, -, h⟩ := bind_ok h
    obtain ⟨_, heq, h⟩ := bind_ok h
    cases h
    have heq := ensure_ok.1 heq
    subst heq
    refine .inr ⟨rfl, candidate, previous, hmode, hstaged, ?_, _, rfl⟩
    have hversion := ensure_ok.1 hversion
    rwa [hcurrent] at hversion

/-! ## Cleanup -/

structure Cleaned (p : PrevalidatedFactPublication β) (db db' : FactDatabase φ β) : Prop where
  manifests : db'.manifests = db.manifests
  staged : db'.staged = db.staged.erase p.descriptor.batchId
  progress : db'.progress = db.progress
  rows : ∀ ns, db'.rows ns = db.rows ns ∨
    ∃ generation, ns = ⟨p.descriptor.threadShardKey, generation⟩ ∧
      cleanupGeneration p (db.manifests.lookup p.descriptor.threadShardKey) = some generation

omit [DecidableEq β] in
theorem cleanupFactPublication_ok (h : cleanupFactPublication env db p = .ok db') :
    Cleaned p db db' := by
  obtain ⟨current, hcurrent, h⟩ := bind_ok h
  obtain ⟨_, -, h⟩ := bind_ok h
  cases h
  have hcurrent := readFactManifest_ok hcurrent
  subst hcurrent
  cases hgen : cleanupGeneration p (db.manifests.lookup p.descriptor.threadShardKey) with
  | none => exact ⟨rfl, rfl, rfl, fun ns => .inl rfl⟩
  | some generation =>
    refine ⟨rfl, rfl, rfl, fun ns => ?_⟩
    by_cases hns : ns = ⟨p.descriptor.threadShardKey, generation⟩
    · exact .inr ⟨generation, hns, hgen⟩
    · exact .inl (rows_deleteNamespace_of_ne db hns)

omit [DecidableEq β] in
/-- A cleanup deletes no active generation: its own only if it is not active, and the one that its
batch replaced only if its batch is. -/
theorem cleanupGeneration_some {generation : FactBatchId}
    (h : cleanupGeneration p current = some generation) :
    (generation = p.descriptor.batchId ∧
      current.map (·.activeGeneration) ≠ some p.descriptor.batchId) ∨
    (generation ≠ p.descriptor.batchId ∧
      current.map (·.activeGeneration) = some p.descriptor.batchId ∧
      ∃ manifest, p.mode = .publish manifest (some generation)) := by
  unfold cleanupGeneration at h
  split at h
  next hactive =>
    split at h
    next manifest previous hmode =>
      split at h
      next hne =>
        cases h
        exact .inr ⟨hne, hactive, manifest, hmode⟩
      next => cases h
    next => cases h
  next hactive =>
    cases h
    exact .inl ⟨rfl, hactive⟩

omit [DecidableEq β] in
theorem cleanupGeneration_inactive {generation : FactBatchId}
    (h : cleanupGeneration p current = some generation) :
    current.map (·.activeGeneration) ≠ some generation := by
  rcases cleanupGeneration_some h with ⟨rfl, hne⟩ | ⟨hne, hactive, -⟩
  · exact hne
  · rw [hactive]
    exact fun heq => hne (Option.some.inj heq).symm

end Facts
