import UsageMonit.Facts.Proof.Versions

/-!
# Fact publication is atomic

`factStep_inv` is the invariant of the publishers, one case for each operation. From it: the active
manifest of a thread changes only in a publication made from the version that is active, at most
one batch of those made from a version is ever activated, an active set always has its rows, and
a cleanup never deletes them (`fact_publication_is_atomic`).
-/

namespace Facts

open Fallible Time

section
variable {φ β : Type} {env : StoreEnv φ β} {batches : Batches φ β} {w w' : World φ β}
  {db : FactDatabase φ β} {p : PrevalidatedFactPublication β}

theorem Staged.inv {b : CompleteFactBatch φ β} {d : StagedFactBatch β} {id : FactBatchId}
    (h : Inv env batches w) (hb : batches.batch id = some b) (hs : Staged env b d w.db db) :
    Inv env batches (w.commit db) := by
  have hid : d.batchId = id := hs.describes.batchId.trans (batches.batchId_eq hb)
  refine h.commit hs.manifests (fun key m hm => hs.others _ fun heq => hs.inactive ?_) ?_
  · obtain ⟨rfl, hgen⟩ := FactNamespace.mk.inj heq
    rw [hm, ← hgen]
    rfl
  · intro id' d' hd'
    rw [hs.staged] at hd'
    by_cases heq : id' = d.batchId
    · subst heq
      rw [AList.lookup_insert] at hd'
      cases hd'
      exact ⟨⟨b, hid ▸ hb, hs.describes⟩, .inr hs.matched⟩
    · rw [AList.lookup_insert_ne heq] at hd'
      refine ⟨h.described _ h.current id' d' hd', ?_⟩
      rw [hs.others _ fun hns => heq (FactNamespace.mk.inj hns).2]
      exact h.staged id' d' hd'

theorem Swapped.replaces {m : ActiveFactManifest β} {previous : Option FactBatchId}
    (h : Inv env batches w) (hp : p ∈ w.publications) (hmode : p.mode = .publish m previous)
    (hs : Swapped env p.descriptor m w.db db) :
    ¬ Activated w p.descriptor.threadShardKey p.descriptor.batchId ∧
      Replaces batches w p.descriptor.threadShardKey m := by
  obtain ⟨hpre, b, hb, hd⟩ := h.publications p hp
  obtain ⟨rfl, -⟩ := hpre.manifest m previous hmode
  have hnew : ¬ Activated w p.descriptor.threadShardKey p.descriptor.batchId := by
    intro ha
    exact (h.based _ _ b hb ha).2 (hs.version.trans hd.expected)
  refine ⟨hnew, .inl ⟨hnew, fun b' hb' => ?_⟩⟩
  rw [show batches.batch p.descriptor.batchId = some b' from hb'] at hb
  cases hb
  exact hs.version.trans hd.expected

theorem Swapped.inv {m : ActiveFactManifest β} {previous : Option FactBatchId}
    (h : Inv env batches w) (hp : p ∈ w.publications) (hmode : p.mode = .publish m previous)
    (hs : Swapped env p.descriptor m w.db db) : Inv env batches (w.commit db) := by
  obtain ⟨hnew, hr⟩ := hs.replaces h hp hmode
  obtain ⟨rfl, -⟩ := (h.publications p hp).1.manifest m previous hmode
  obtain ⟨publications, rfl⟩ := hs.result
  refine h.swap rfl rfl rfl rfl hr ?_
  exact (h.staged _ _ hs.staged).resolve_left hnew

theorem cleanupGeneration_known {generation : FactBatchId} (h : Inv env batches w)
    (hp : p ∈ w.publications)
    (hgen : cleanupGeneration p (w.db.manifests.lookup p.descriptor.threadShardKey) =
      some generation) :
    generation = p.descriptor.batchId ∨ Activated w p.descriptor.threadShardKey generation := by
  obtain ⟨hpre, b, hb, hd⟩ := h.publications p hp
  rcases cleanupGeneration_some hgen with ⟨rfl, -⟩ | ⟨-, hactive, m, hmode⟩
  · exact .inl rfl
  · -- the generation that the active batch replaced was active itself
    obtain ⟨active, hlookup, hactive⟩ := Option.map_eq_some_iff.1 hactive
    have hprevious := (hpre.manifest m _ hmode).2
    rw [hd.expected] at hprevious
    have hbase := h.based _ _ b hb (hactive ▸ h.activated_of_active hlookup)
    obtain ⟨old, hold, hversion⟩ := hbase.1
    rw [← hversion] at hprevious
    obtain ⟨v, hv, rfl⟩ := Option.map_eq_some_iff.1 hprevious.symm
    obtain ⟨m', hm', rfl⟩ := Option.map_eq_some_iff.1 hv
    exact .inr ⟨old, hold, m', hm', rfl⟩

theorem Cleaned.active_rows {db' : FactDatabase φ β} (hc : Cleaned p db db')
    {key : ThreadShardKey} {m : ActiveFactManifest β} (hm : db.manifests.lookup key = some m) :
    db'.rows ⟨key, m.activeGeneration⟩ = db.rows ⟨key, m.activeGeneration⟩ := by
  rcases hc.rows ⟨key, m.activeGeneration⟩ with hrows | ⟨generation, heq, hgen⟩
  · exact hrows
  · obtain ⟨rfl, rfl⟩ := FactNamespace.mk.inj heq
    rw [hm] at hgen
    exact absurd rfl (cleanupGeneration_inactive hgen)

theorem Cleaned.inv (h : Inv env batches w) (hp : p ∈ w.publications) (hc : Cleaned p w.db db) :
    Inv env batches (w.commit db) := by
  refine h.commit hc.manifests (fun key m hm => hc.active_rows hm) fun id d hdesc => ?_
  rw [hc.staged] at hdesc
  have hne : id ≠ p.descriptor.batchId := by
    rintro rfl
    rw [AList.lookup_erase] at hdesc
    cases hdesc
  rw [AList.lookup_erase_ne hne] at hdesc
  refine ⟨h.described _ h.current id d hdesc, ?_⟩
  rcases hc.rows ⟨d.threadShardKey, id⟩ with hrows | ⟨generation, heq, hgen⟩
  · rw [hrows]
    exact h.staged id d hdesc
  · obtain ⟨hkey, rfl⟩ := FactNamespace.mk.inj heq
    rcases cleanupGeneration_known h hp hgen with rfl | ha
    · exact absurd rfl hne
    · exact .inl (hkey ▸ ha)

variable [DecidableEq φ] [DecidableEq β]

/-- **A publisher's step keeps the invariant.** -/
theorem factStep_inv (h : Inv env batches w) (hs : FactStep env batches w w') :
    Inv env batches w' := by
  cases hs with
  | stage hb hread hstage =>
    obtain ⟨d, hstaged⟩ := stageFactBatch_ok hstage
    exact hstaged.inv h hb
  | prevalidate hread hpre =>
    obtain ⟨hlookup, hid, hprevalidated, publications, rfl⟩ := prevalidateFactBatch_ok hpre
    have hcommit : Inv env batches (w.commit { w.db with publications }) :=
      h.commit rfl (fun _ _ _ => rfl) fun id d hd =>
        ⟨h.described _ h.current id d hd, h.staged id d hd⟩
    refine ⟨hcommit.current, hcommit.keyed, hcommit.described, hcommit.based, hcommit.floors,
      hcommit.active, hcommit.staged, ?_, hcommit.activated, hcommit.distinct⟩
    intro p hp
    rcases List.mem_cons.1 hp with rfl | hp
    · obtain ⟨b, hb, hd⟩ := h.described _ hread _ _ hlookup
      exact ⟨hprevalidated, b, hid ▸ hb, hd⟩
    · exact h.publications p hp
  | publish hp hpublish =>
    rcases publishFactBatch_ok hpublish with ⟨hreport, rfl⟩ | ⟨hreport, m, previous, hmode, hswap⟩
    · have hcommit : Inv env batches (w.commit w.db) :=
        h.commit rfl (fun _ _ _ => rfl) fun id d hd =>
          ⟨h.described _ h.current id d hd, h.staged id d hd⟩
      simp only [hreport, Bool.false_eq_true, if_false]
      exact ⟨hcommit.current, hcommit.keyed, hcommit.described, hcommit.based, hcommit.floors,
        hcommit.active, hcommit.staged, hcommit.publications, hcommit.activated, hcommit.distinct⟩
    · have hcommit := hswap.inv h hp hmode
      simp only [hreport, if_true]
      obtain ⟨hpre, b, hb, hd⟩ := h.publications _ hp
      refine ⟨hcommit.current, hcommit.keyed, hcommit.described, hcommit.based, hcommit.floors,
        hcommit.active, hcommit.staged, hcommit.publications, ?_, ?_⟩
      · intro id hid
        rcases List.mem_cons.1 hid with rfl | hid
        · refine ⟨b, hb, activated_commit.2 (.inr ⟨m, ?_, ?_⟩)⟩
          · obtain ⟨publications, rfl⟩ := hswap.result
            rw [← hd.shardKey]
            exact AList.lookup_insert _
          · rw [(hpre.manifest m previous hmode).1]
            rfl
        · exact hcommit.activated id hid
      · refine List.Pairwise.cons ?_ h.distinct
        intro id hid b₁ b₂ hb₁ hb₂ hkey heq
        rw [hb] at hb₁
        cases hb₁
        obtain ⟨b₂', hb₂', ha⟩ := h.activated id hid
        rw [hb₂] at hb₂'
        cases hb₂'
        have hbase := h.based _ id b₂ hb₂ ha
        refine hbase.2 (Eq.trans ?_ heq)
        rw [← hkey, ← hd.shardKey, ← hd.expected]
        exact hswap.version
  | cleanup hp hclean => exact (cleanupFactPublication_ok hclean).inv h hp

theorem factReachable_inv (h : FactReachable env batches w) : Inv env batches w := by
  induction h with
  | init h => exact initial_inv h
  | step _ hs ih => exact factStep_inv ih hs

theorem factStep_manifest (h : Inv env batches w) (hs : FactStep env batches w w')
    {key : ThreadShardKey} (hne : w'.db.manifests.lookup key ≠ w.db.manifests.lookup key) :
    ∃ p ∈ w.publications, ∃ report, publishFactBatch env w.db p = .ok (report, w'.db) ∧
      report.activated = true ∧ p.descriptor.threadShardKey = key ∧
      versionOf w.db key = p.descriptor.expectedActiveVersion ∧
      w'.db.manifests.lookup key = some (candidateManifest p.descriptor) := by
  cases hs with
  | stage hb hread hstage =>
    obtain ⟨d, hstaged⟩ := stageFactBatch_ok hstage
    exact absurd (congrArg (AList.lookup key) hstaged.manifests) hne
  | prevalidate hread hpre =>
    obtain ⟨-, -, -, publications, rfl⟩ := prevalidateFactBatch_ok hpre
    exact absurd rfl hne
  | @publish p report db hp hpublish =>
    rcases publishFactBatch_ok hpublish with ⟨-, rfl⟩ | ⟨hreport, m, previous, hmode, hswap⟩
    · exact absurd rfl hne
    · have hm := ((h.publications p hp).1.manifest m previous hmode).1
      subst hm
      have hmanifests : db.manifests =
          w.db.manifests.insert p.descriptor.threadShardKey (candidateManifest p.descriptor) := by
        obtain ⟨publications, rfl⟩ := hswap.result
        rfl
      have hkey : p.descriptor.threadShardKey = key := by
        by_contra hk
        refine hne ?_
        change db.manifests.lookup key = _
        rw [hmanifests, AList.lookup_insert_ne (Ne.symm hk)]
      subst hkey
      refine ⟨p, hp, report, hpublish, hreport, rfl, hswap.version, ?_⟩
      change db.manifests.lookup _ = _
      rw [hmanifests, AList.lookup_insert]
  | cleanup hp hclean =>
    exact absurd (congrArg (AList.lookup key) (cleanupFactPublication_ok hclean).manifests) hne

/-- **Fact publication is atomic and never loses a newer set**, under every interleaving of the
publishers of a source. -/
theorem fact_publication_is_atomic (h : FactReachable env batches w) :
    -- the active manifest changes only in a publication from the version that is active
    (∀ w', FactStep env batches w w' → ∀ key,
      w'.db.manifests.lookup key ≠ w.db.manifests.lookup key →
      ∃ p ∈ w.publications, ∃ report, publishFactBatch env w.db p = .ok (report, w'.db) ∧
        report.activated = true ∧ p.descriptor.threadShardKey = key ∧
        versionOf w.db key = p.descriptor.expectedActiveVersion ∧
        w'.db.manifests.lookup key = some (candidateManifest p.descriptor)) ∧
    -- of the batches of a thread made from one version at most one is ever activated
    (w.activated.Nodup ∧ ∀ id ∈ w.activated, ∀ id' ∈ w.activated, ∀ b b',
      batches.batch id = some b → batches.batch id' = some b' → b.replica = b'.replica →
      b.expectedActiveVersion = b'.expectedActiveVersion → id = id') ∧
    -- the active generation has all its rows
    (∀ key m, w.db.manifests.lookup key = some m →
      (w.db.rows ⟨key, m.activeGeneration⟩).length = m.recordCount ∧
      recordDays (w.db.rows ⟨key, m.activeGeneration⟩) = m.shardDays) ∧
    -- and no cleanup deletes them
    (∀ p ∈ w.publications, ∀ db, cleanupFactPublication env w.db p = .ok db →
      db.manifests = w.db.manifests ∧ ∀ key m, w.db.manifests.lookup key = some m →
        db.rows ⟨key, m.activeGeneration⟩ = w.db.rows ⟨key, m.activeGeneration⟩) := by
  have hinv := factReachable_inv h
  refine ⟨fun w' hs key => factStep_manifest hinv hs, ⟨?_, ?_⟩, ?_, ?_⟩
  · refine hinv.distinct.imp_of_mem fun {id id'} hid _ hne heq => ?_
    subst heq
    obtain ⟨b, hb, -⟩ := hinv.activated id hid
    exact hne b b hb hb rfl rfl
  · intro id hid id' hid' b b' hb hb' hreplica heq
    by_contra hne
    exact hinv.distinct.forall hid hid' hne b b' hb hb' (congrArg env.fromReplica hreplica) heq
  · exact fun key m hm => ⟨(hinv.active key m hm).1, (hinv.active key m hm).2.1⟩
  · intro p hp db hclean
    have hc := cleanupFactPublication_ok hclean
    exact ⟨hc.manifests, fun key m hm => hc.active_rows hm⟩

end

namespace Sample

def env : StoreEnv Nat Nat where
  sourceId := "node"
  fromReplica replica := replica.threadId
  validateFact _ := .ok ()
  validateFactDigestBindings _ := .ok ()
  validateProof _ _ _ _ := .ok ()
  encodeDescriptor _ := .ok ()
  encodeManifest _ := .ok ()
  chargeRecords _ := .ok ()
  ensureSqlFactCap _ := .ok ()

def replica : SessionReplicaKey := ⟨"node", "thread"⟩

/-- A fact of the thread, so many seconds after the epoch. -/
def record (id : UsageEventId) (second : Int) : UsageEventFactRecord Nat :=
  ⟨id, seconds second, 1, .upsert ⟨replica, id, seconds second, 7⟩⟩

def batch : CompleteFactBatch Nat Nat where
  batchId := "fact-batch-1"
  kind := .snapshot
  replica := replica
  expectedActiveVersion := none
  remoteBinding := none
  validatedDigests := []
  activateCursor := ⟨1, 3⟩
  completedAt := 0
  changes := [record "b" 5, record "a" 9]

def batches : Batches Nat Nat where
  batch id := if id = batch.batchId then some batch else none
  batchId_eq := by
    intro id b h
    split at h
    · cases h
      simp [*]
    · cases h

def start : World Nat Nat where
  db := ⟨some .local, [], ∅, ∅, ∅, ∅, none⟩
  past := [⟨some .local, [], ∅, ∅, ∅, ∅, none⟩]
  publications := []
  activated := []
  units := []
  generated := []

def run : Except String (World Nat Nat) := do
  let db ← stageFactBatch env start.db start.db batch 0
  let prevalidated ← prevalidateFactBatch env db db batch.batchId
  let published ← publishFactBatch env prevalidated.2 prevalidated.1
  let w := { (start.commit db).commit prevalidated.2 with publications := [prevalidated.1] }
  pure { w.commit published.2 with
    activated := if published.1.activated then [prevalidated.1.descriptor.batchId] else [] }

theorem start_initial : Initial batches start where
  past := rfl
  staged := rfl
  publications := rfl
  activated := rfl
  units := rfl
  progress := rfl
  active key manifest h := by
    rw [show start.db.manifests = ∅ from rfl, AList.lookup_empty] at h
    cases h

theorem run_reachable {w : World Nat Nat} (h : run = .ok w) : FactReachable env batches w := by
  obtain ⟨db, hstage, h⟩ := bind_ok h
  obtain ⟨⟨p, db'⟩, hprevalidate, h⟩ := bind_ok h
  obtain ⟨⟨report, db''⟩, hpublish, h⟩ := bind_ok h
  cases h
  have hstaged : FactReachable env batches (start.commit db) :=
    .step (.init start_initial)
      (.stage (show batches.batch batch.batchId = some batch from rfl)
        (List.mem_singleton.2 rfl) hstage)
  have hprevalidated := FactReachable.step hstaged
    (.prevalidate (List.mem_cons_self ..) hprevalidate)
  exact .step hprevalidated (.publish (List.mem_singleton.2 rfl) hpublish)

end Sample

/-- A batch of two facts is published on an empty store, and its rows are there. -/
theorem fact_publication_is_atomic_sample : ∃ w m, FactReachable Sample.env Sample.batches w ∧
    w.activated = ["fact-batch-1"] ∧ w.db.manifests.lookup "thread" = some m ∧
    (w.db.rows ⟨"thread", m.activeGeneration⟩).length = m.recordCount ∧ m.recordCount = 2 := by
  have hrun : Sample.run.toOption.map (fun w => (w.activated,
      (w.db.manifests.lookup "thread").map (·.recordCount))) = some (["fact-batch-1"], some 2) := by
    decide +kernel
  cases hw : Sample.run with
  | error e =>
    rw [hw] at hrun
    cases hrun
  | ok w =>
    rw [hw] at hrun
    simp only [Except.toOption, Option.map_some, Option.some.injEq, Prod.mk.injEq,
      Option.map_eq_some_iff] at hrun
    obtain ⟨hactivated, m, hm, hcount⟩ := hrun
    have hreach := Sample.run_reachable hw
    exact ⟨w, m, hreach, hactivated, hm,
      ((fact_publication_is_atomic hreach).2.2.1 "thread" m hm).1, hcount⟩

end Facts
