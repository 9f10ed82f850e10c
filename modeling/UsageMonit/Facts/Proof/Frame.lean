import UsageMonit.Facts.Proof.Publication

/-!
# What the steps of a source leave as it is

A worker that prepared something at an earlier moment relies on what other workers cannot have
changed since. `Frame` collects it: a manifest that is replaced does not come back, the rows of a
set that stays active stay, and a generation that is not active any more is never active again.
Steps of publishers leave more (`FactFrame`, `factStep_frame`): generations that no batch has, and
the progress of the collector.
-/

namespace Facts

section
variable {φ β : Type} {env : StoreEnv φ β} {batches : Batches φ β} {w w' : World φ β}
  {db : FactDatabase φ β} {m : ActiveFactManifest β}

/-! ## Frames -/

/-- A generation that no batch has and that was never active. -/
def Fresh (batches : Batches φ β) (w : World φ β) (id : FactBatchId) : Prop :=
  batches.batch id = none ∧ ∀ key, ¬ Activated w key id

structure Frame (w : World φ β) (db : FactDatabase φ β) : Prop where
  versions : ∀ key, db.manifests.lookup key = w.db.manifests.lookup key ∨
    ¬ Was w key (versionOf db key)
  active : ∀ key m, w.db.manifests.lookup key = some m → db.manifests.lookup key = some m →
    db.rows ⟨key, m.activeGeneration⟩ = w.db.rows ⟨key, m.activeGeneration⟩
  dead : ∀ key id, Activated w key id →
    (∀ m, w.db.manifests.lookup key = some m → m.activeGeneration ≠ id) →
    ∀ m, db.manifests.lookup key = some m → m.activeGeneration ≠ id

/-- A manifest of the past that is active after the step was active before it. -/
theorem Frame.steady (h : Frame w db) {old : FactDatabase φ β} (hold : old ∈ w.past)
    {key : ThreadShardKey} (hlookup : old.manifests.lookup key = some m)
    (hlookup' : db.manifests.lookup key = some m) : w.db.manifests.lookup key = some m := by
  rcases h.versions key with hsame | hnew
  · rw [← hsame]
    exact hlookup'
  · refine absurd ⟨old, hold, ?_⟩ hnew
    rw [versionOf, versionOf, hlookup, hlookup']

theorem Frame.of_same (hm : db.manifests = w.db.manifests)
    (hrows : ∀ key m, w.db.manifests.lookup key = some m →
      db.rows ⟨key, m.activeGeneration⟩ = w.db.rows ⟨key, m.activeGeneration⟩) : Frame w db where
  versions key := .inl (by rw [hm])
  active key m hlookup _ := hrows key m hlookup
  dead key id _ hcurrent m hlookup := hcurrent m (hm ▸ hlookup)

theorem Frame.of_swap (h : Inv env batches w) {key : ThreadShardKey}
    (hm : db.manifests = w.db.manifests.insert key m) (hrecords : db.records = w.db.records)
    (hr : Replaces batches w key m) : Frame w db := by
  have hself : db.manifests.lookup key = some m := by rw [hm, AList.lookup_insert]
  have hother {key' : ThreadShardKey} (hne : key' ≠ key) :
      db.manifests.lookup key' = w.db.manifests.lookup key' := versionOf_insert_of_ne hm hne
  refine ⟨fun key' => ?_, fun key' m' _ _ => ?_, fun key' id ha hcurrent m' hlookup => ?_⟩
  · by_cases hne : key' = key
    · subst hne
      rw [versionOf, hself]
      exact .inr (hr.version_new h)
    · exact .inl (hother hne)
  · rw [FactDatabase.rows, FactDatabase.rows, hrecords]
  · by_cases hne : key' = key
    · subst hne
      rw [hself] at hlookup
      cases hlookup
      rcases hr with ⟨hnot, -⟩ | ⟨old, hold, hsame, -⟩
      · exact fun heq => hnot (heq ▸ ha)
      · exact hsame ▸ hcurrent old hold
    · exact hcurrent m' (hother hne ▸ hlookup)

theorem fresh_commit {id : FactBatchId} (h : Fresh batches w id)
    (hdb : ∀ key m, db.manifests.lookup key = some m → m.activeGeneration ≠ id) :
    Fresh batches (w.commit db) id := by
  refine ⟨h.1, fun key ha => ?_⟩
  rcases activated_commit.1 ha with ha | ⟨m, hm, heq⟩
  · exact h.2 key ha
  · exact hdb key m hm heq

theorem fresh_commit_of_same {id : FactBatchId} (h : Fresh batches w id) (hinv : Inv env batches w)
    (hm : db.manifests = w.db.manifests) : Fresh batches (w.commit db) id := by
  refine fresh_commit h fun key m hlookup heq => h.2 key ?_
  rw [hm] at hlookup
  exact heq ▸ hinv.activated_of_active hlookup

theorem Fresh.inactive {id : FactBatchId} (h : Fresh batches w id) (hinv : Inv env batches w)
    {key : ThreadShardKey} (hm : w.db.manifests.lookup key = some m) : m.activeGeneration ≠ id :=
  fun heq => h.2 key (heq ▸ hinv.activated_of_active hm)

/-! ## Steps of the publishers -/

structure FactFrame (batches : Batches φ β) (w : World φ β) (db : FactDatabase φ β) : Prop
    extends Frame w db where
  fresh : ∀ id, Fresh batches w id → Fresh batches (w.commit db) id ∧
    ∀ key, db.rows ⟨key, id⟩ = w.db.rows ⟨key, id⟩
  progress : db.progress = w.db.progress

theorem Staged.frame {b : CompleteFactBatch φ β} {d : StagedFactBatch β} {id : FactBatchId}
    (h : Inv env batches w) (hb : batches.batch id = some b) (hs : Staged env b d w.db db) :
    FactFrame batches w db := by
  have hid : d.batchId = id := hs.describes.batchId.trans (batches.batchId_eq hb)
  refine ⟨.of_same hs.manifests fun key m hm => hs.others _ fun heq => hs.inactive ?_,
    fun g hg => ⟨fresh_commit_of_same hg h hs.manifests, fun key => hs.others _ fun heq => ?_⟩,
    hs.progress⟩
  · obtain ⟨rfl, hgen⟩ := FactNamespace.mk.inj heq
    rw [hm, ← hgen]
    rfl
  · rw [(FactNamespace.mk.inj heq).2, hid] at hg
    rw [hg.1] at hb
    cases hb

theorem Swapped.frame {p : PrevalidatedFactPublication β} {previous : Option FactBatchId}
    (h : Inv env batches w) (hp : p ∈ w.publications) (hmode : p.mode = .publish m previous)
    (hs : Swapped env p.descriptor m w.db db) : FactFrame batches w db := by
  obtain ⟨-, hr⟩ := hs.replaces h hp hmode
  obtain ⟨hpre, b, hb, -⟩ := h.publications p hp
  obtain ⟨rfl, -⟩ := hpre.manifest m previous hmode
  obtain ⟨publications, hresult⟩ := hs.result
  have hm : db.manifests = w.db.manifests.insert p.descriptor.threadShardKey _ :=
    congrArg FactDatabase.manifests hresult
  have hrecords : db.records = w.db.records := by rw [hresult]
  refine ⟨.of_swap h hm hrecords hr, fun g hg => ⟨fresh_commit hg fun key m' hlookup heq => ?_,
    fun key => ?_⟩, by rw [hresult]⟩
  · by_cases hne : key = p.descriptor.threadShardKey
    · subst hne
      rw [hm, AList.lookup_insert] at hlookup
      cases hlookup
      rw [← heq] at hg
      exact absurd (hg.1.symm.trans hb) (by simp)
    · rw [versionOf_insert_of_ne hm hne] at hlookup
      exact hg.inactive h hlookup heq
  · rw [FactDatabase.rows, FactDatabase.rows, hrecords]

theorem Cleaned.frame {p : PrevalidatedFactPublication β} (h : Inv env batches w)
    (hp : p ∈ w.publications) (hc : Cleaned p w.db db) : FactFrame batches w db := by
  obtain ⟨-, b, hb, -⟩ := h.publications p hp
  refine ⟨.of_same hc.manifests fun key m hm => hc.active_rows hm,
    fun g hg => ⟨fresh_commit_of_same hg h hc.manifests, fun key => ?_⟩, hc.progress⟩
  rcases hc.rows ⟨key, g⟩ with hrows | ⟨generation, heq, hgen⟩
  · exact hrows
  · obtain ⟨rfl, rfl⟩ := FactNamespace.mk.inj heq
    rcases cleanupGeneration_known h hp hgen with rfl | ha
    · rw [hg.1] at hb
      cases hb
    · exact absurd ha (hg.2 _)

theorem FactFrame.of_states (h : Inv env batches w) (hm : db.manifests = w.db.manifests)
    (hrecords : db.records = w.db.records) (hprogress : db.progress = w.db.progress) :
    FactFrame batches w db := by
  have hrows (ns : FactNamespace) : db.rows ns = w.db.rows ns := by
    rw [FactDatabase.rows, FactDatabase.rows, hrecords]
  exact ⟨.of_same hm fun key m _ => hrows _,
    fun g hg => ⟨fresh_commit_of_same hg h hm, fun key => hrows _⟩, hprogress⟩

variable [DecidableEq φ] [DecidableEq β]

/-- **What a step of a publisher leaves as it is.** -/
theorem factStep_frame (h : Inv env batches w) (hs : FactStep env batches w w') :
    FactFrame batches w w'.db ∧ w'.past = w'.db :: w.past ∧ w'.units = w.units ∧
      w'.generated = w.generated := by
  cases hs with
  | stage hb hread hstage =>
    obtain ⟨d, hstaged⟩ := stageFactBatch_ok hstage
    exact ⟨hstaged.frame h hb, rfl, rfl, rfl⟩
  | prevalidate hread hpre =>
    obtain ⟨-, -, -, publications, rfl⟩ := prevalidateFactBatch_ok hpre
    exact ⟨.of_states h rfl rfl rfl, rfl, rfl, rfl⟩
  | publish hp hpublish =>
    rcases publishFactBatch_ok hpublish with ⟨-, rfl⟩ | ⟨-, m, previous, hmode, hswap⟩
    · exact ⟨.of_states h rfl rfl rfl, rfl, rfl, rfl⟩
    · exact ⟨hswap.frame h hp hmode, rfl, rfl, rfl⟩
  | cleanup hp hclean => exact ⟨(cleanupFactPublication_ok hclean).frame h hp, rfl, rfl, rfl⟩

end

end Facts
