import UsageMonit.Facts.Proof.Operations

/-!
# Versions never come back

The argument behind every guarantee of the fact store: a version that was active for a thread and
is not any more never becomes active again. A batch activates its own generation, and only from the
version that it was made from; the collector activates a generation of its own or raises the
retention floor of the active one. So a new version is always new to the run
(`Replaces.version_new`), a batch whose generation was active once cannot be published again, and
the rows of such a generation may be deleted.

`Inv` is the invariant of a run. Steps that keep the manifests keep it by `Inv.commit`, steps that
replace one by `Inv.swap`; `factStep_inv` is the case of the publishers.
-/

namespace Facts

open Time

variable {φ β : Type} {env : StoreEnv φ β} {batches : Batches φ β} {key : ThreadShardKey}
  {m : ActiveFactManifest β}

/-- A version that was active for a thread in the run. -/
def Was (w : World φ β) (key : ThreadShardKey) (version : Option (ActiveFactVersion β)) : Prop :=
  ∃ db ∈ w.past, versionOf db key = version

def Activated (w : World φ β) (key : ThreadShardKey) (generation : FactBatchId) : Prop :=
  ∃ db ∈ w.past, ∃ manifest, db.manifests.lookup key = some manifest ∧
    manifest.activeGeneration = generation

/-- Order of retention floors; no floor is the lowest. -/
def floorLe (a b : Option DateTime) : Prop := ∀ x, a = some x → ∃ y, b = some y ∧ x ≤ y

theorem floorLe_refl (a : Option DateTime) : floorLe a a := fun x h => ⟨x, h, Int.le_refl x⟩

theorem floorLe_trans {a b c : Option DateTime} (hab : floorLe a b) (hbc : floorLe b c) :
    floorLe a c := by
  intro x hx
  obtain ⟨y, hy, hxy⟩ := hab x hx
  obtain ⟨z, hz, hyz⟩ := hbc y hy
  exact ⟨z, hz, Int.le_trans hxy hyz⟩

/-- A floor above another one. -/
def floorLt (a b : Option DateTime) : Prop := floorLe a b ∧ ¬ floorLe b a

/-- If two batches are of one thread, they were made from different versions. -/
def FromDifferentVersions (env : StoreEnv φ β) (batches : Batches φ β) (id id' : FactBatchId) :
    Prop :=
  ∀ b b', batches.batch id = some b → batches.batch id' = some b' →
    env.fromReplica b.replica = env.fromReplica b'.replica →
    b.expectedActiveVersion ≠ b'.expectedActiveVersion

instance : Std.Symm (FromDifferentVersions env batches) :=
  ⟨fun _ _ h b b' hb hb' hkey => (h b' b hb' hb hkey.symm).symm⟩

structure Inv (env : StoreEnv φ β) (batches : Batches φ β) (w : World φ β) : Prop where
  current : w.db ∈ w.past
  keyed : ∀ key manifest, w.db.manifests.lookup key = some manifest →
    manifest.threadShardKey = key
  described : ∀ db ∈ w.past, ∀ id d, db.staged.lookup id = some d →
    ∃ b, batches.batch id = some b ∧ Describes env b d
  /-- A batch that was activated was made from a version that is gone. -/
  based : ∀ key id b, batches.batch id = some b → Activated w key id →
    Was w key b.expectedActiveVersion ∧ versionOf w.db key ≠ b.expectedActiveVersion
  floors : ∀ db ∈ w.past, ∀ key m m', db.manifests.lookup key = some m →
    w.db.manifests.lookup key = some m' → m.activeGeneration = m'.activeGeneration →
    floorLe m.retainedSince m'.retainedSince
  active : ∀ key manifest, w.db.manifests.lookup key = some manifest →
    Matches (w.db.rows ⟨key, manifest.activeGeneration⟩) manifest.recordCount manifest.shardDays
  /-- A staged batch has its rows, unless it was activated. -/
  staged : ∀ id d, w.db.staged.lookup id = some d → Activated w d.threadShardKey id ∨
    Matches (w.db.rows ⟨d.threadShardKey, id⟩) d.recordCount d.shardDays
  publications : ∀ p ∈ w.publications, Prevalidated p ∧
    ∃ b, batches.batch p.descriptor.batchId = some b ∧ Describes env b p.descriptor
  activated : ∀ id ∈ w.activated, ∃ b, batches.batch id = some b ∧
    Activated w (env.fromReplica b.replica) id
  /-- Batches activated for one thread were made from different versions. -/
  distinct : w.activated.Pairwise (FromDifferentVersions env batches)

section
variable {w : World φ β} {db : FactDatabase φ β}

theorem Was.commit {v : Option (ActiveFactVersion β)} (h : Was w key v) :
    Was (w.commit db) key v := by
  obtain ⟨old, hmem, hv⟩ := h
  exact ⟨old, List.mem_cons_of_mem _ hmem, hv⟩

theorem Activated.commit {id : FactBatchId} (h : Activated w key id) :
    Activated (w.commit db) key id := by
  obtain ⟨old, hmem, hv⟩ := h
  exact ⟨old, List.mem_cons_of_mem _ hmem, hv⟩

theorem activated_commit {id : FactBatchId} :
    Activated (w.commit db) key id ↔ Activated w key id ∨
      ∃ m, db.manifests.lookup key = some m ∧ m.activeGeneration = id := by
  constructor
  · rintro ⟨old, hmem, hm⟩
    rcases List.mem_cons.1 hmem with rfl | hmem
    · exact .inr hm
    · exact .inl ⟨old, hmem, hm⟩
  · rintro (h | hm)
    · exact h.commit
    · exact ⟨db, List.mem_cons_self .., hm⟩

theorem Inv.activated_of_active (h : Inv env batches w) (hm : w.db.manifests.lookup key = some m) :
    Activated w key m.activeGeneration :=
  ⟨w.db, h.current, m, hm, rfl⟩

/-- **Steps that keep the manifests.** -/
theorem Inv.commit (h : Inv env batches w) (hm : db.manifests = w.db.manifests)
    (hrows : ∀ key m, w.db.manifests.lookup key = some m →
      db.rows ⟨key, m.activeGeneration⟩ = w.db.rows ⟨key, m.activeGeneration⟩)
    (hstaged : ∀ id d, db.staged.lookup id = some d →
      (∃ b, batches.batch id = some b ∧ Describes env b d) ∧
      (Activated w d.threadShardKey id ∨
        Matches (db.rows ⟨d.threadShardKey, id⟩) d.recordCount d.shardDays)) :
    Inv env batches (w.commit db) := by
  have hver (key : ThreadShardKey) : versionOf db key = versionOf w.db key := by
    rw [versionOf, versionOf, hm]
  have hact {key : ThreadShardKey} {id : FactBatchId}
      (ha : Activated (w.commit db) key id) : Activated w key id := by
    rcases activated_commit.1 ha with ha | ⟨m, hlookup, rfl⟩
    · exact ha
    · rw [hm] at hlookup
      exact h.activated_of_active hlookup
  refine ⟨List.mem_cons_self .., ?_, ?_, ?_, ?_, ?_, ?_, h.publications, ?_, h.distinct⟩
  · intro key m hlookup
    exact h.keyed key m (hm ▸ hlookup)
  · intro old hold id d hd
    rcases List.mem_cons.1 hold with rfl | hold
    · exact (hstaged id d hd).1
    · exact h.described old hold id d hd
  · intro key id b hb ha
    obtain ⟨hwas, hne⟩ := h.based key id b hb (hact ha)
    exact ⟨hwas.commit, by rwa [← hver] at hne⟩
  · intro old hold key m m' hlookup hlookup' heq
    change db.manifests.lookup key = some m' at hlookup'
    rw [hm] at hlookup'
    rcases List.mem_cons.1 hold with rfl | hold
    · rw [hm, hlookup'] at hlookup
      cases hlookup
      exact floorLe_refl _
    · exact h.floors old hold key m m' hlookup hlookup' heq
  · intro key m hlookup
    change db.manifests.lookup key = some m at hlookup
    rw [hm] at hlookup
    change Matches (db.rows _) _ _
    rw [hrows key m hlookup]
    exact h.active key m hlookup
  · intro id d hd
    exact (hstaged id d hd).2.imp_left Activated.commit
  · intro id hid
    obtain ⟨b, hb, ha⟩ := h.activated id hid
    exact ⟨b, hb, ha.commit⟩

/-- A manifest that may take the place of the active one: of a generation that was never active,
or of the active generation with a higher floor. -/
def Replaces (batches : Batches φ β) (w : World φ β) (key : ThreadShardKey)
    (m : ActiveFactManifest β) : Prop :=
  (¬ Activated w key m.activeGeneration ∧ ∀ b, batches.batch m.activeGeneration = some b →
    versionOf w.db key = b.expectedActiveVersion) ∨
  ∃ old, w.db.manifests.lookup key = some old ∧ old.activeGeneration = m.activeGeneration ∧
    floorLt old.retainedSince m.retainedSince

/-- **Versions never come back.** -/
theorem Replaces.version_new (h : Inv env batches w) (hr : Replaces batches w key m) :
    ¬ Was w key (some m.version) := by
  rintro ⟨old, hold, hversion⟩
  obtain ⟨m', hm', hv⟩ := Option.map_eq_some_iff.1 hversion
  have hgen : m'.activeGeneration = m.activeGeneration :=
    congrArg ActiveFactVersion.activeGeneration hv
  rcases hr with ⟨hnot, -⟩ | ⟨active, hactive, hsame, -, hlt⟩
  · exact hnot ⟨old, hold, m', hm', hgen⟩
  · have hle := h.floors old hold key m' active hm' hactive (hgen.trans hsame.symm)
    have hfloor : m'.retainedSince = m.retainedSince :=
      congrArg ActiveFactVersion.retainedSince hv
    exact hlt (hfloor ▸ hle)

theorem versionOf_insert_of_ne {manifests : AList fun _ : ThreadShardKey => ActiveFactManifest β}
    {key' : ThreadShardKey} (hm : db.manifests = manifests.insert key m) (h : key' ≠ key) :
    db.manifests.lookup key' = manifests.lookup key' := by
  rw [hm, AList.lookup_insert_ne h]

/-- **Steps that replace a manifest.** -/
theorem Inv.swap (h : Inv env batches w) (hm : db.manifests = w.db.manifests.insert key m)
    (hrecords : db.records = w.db.records) (hstaged : db.staged = w.db.staged)
    (hkey : m.threadShardKey = key) (hr : Replaces batches w key m)
    (hmatches : Matches (w.db.rows ⟨key, m.activeGeneration⟩) m.recordCount m.shardDays) :
    Inv env batches (w.commit db) := by
  have hself : db.manifests.lookup key = some m := by rw [hm, AList.lookup_insert]
  have hother {key' : ThreadShardKey} (hne : key' ≠ key) :
      db.manifests.lookup key' = w.db.manifests.lookup key' := versionOf_insert_of_ne hm hne
  have hrows (ns : FactNamespace) : db.rows ns = w.db.rows ns := by
    rw [FactDatabase.rows, FactDatabase.rows, hrecords]
  have hact {key' : ThreadShardKey} {id : FactBatchId} (ha : Activated (w.commit db) key' id) :
      Activated w key' id ∨ (key' = key ∧ id = m.activeGeneration) := by
    rcases activated_commit.1 ha with ha | ⟨m', hlookup, rfl⟩
    · exact .inl ha
    · by_cases hne : key' = key
      · subst hne
        rw [hself] at hlookup
        cases hlookup
        exact .inr ⟨rfl, rfl⟩
      · rw [hother hne] at hlookup
        exact .inl (h.activated_of_active hlookup)
  have hversion : versionOf db key = some m.version := by rw [versionOf, hself]; rfl
  refine ⟨List.mem_cons_self .., ?_, ?_, ?_, ?_, ?_, ?_, h.publications, ?_, h.distinct⟩
  · intro key' m' hlookup
    change db.manifests.lookup key' = some m' at hlookup
    by_cases hne : key' = key
    · subst hne
      rw [hself] at hlookup
      cases hlookup
      exact hkey
    · exact h.keyed key' m' (hother hne ▸ hlookup)
  · intro old hold id d hd
    rcases List.mem_cons.1 hold with rfl | hold
    · rw [hstaged] at hd
      exact h.described _ h.current id d hd
    · exact h.described old hold id d hd
  · intro key' id b hb ha
    change _ ∧ versionOf db key' ≠ _
    by_cases hne : key' = key
    · subst hne
      rw [hversion]
      -- the base of a batch that was activated before is an old version, the new one is not
      have hold (hbase : Was w key' b.expectedActiveVersion) :
          some m.version ≠ b.expectedActiveVersion := fun heq =>
        hr.version_new h (heq ▸ hbase)
      rcases hact ha with ha | ⟨-, rfl⟩
      · obtain ⟨hwas, -⟩ := h.based key' id b hb ha
        exact ⟨hwas.commit, hold hwas⟩
      · have hwas : Was w key' b.expectedActiveVersion := by
          rcases hr with ⟨-, hbase⟩ | ⟨active, hactive, hsame, -⟩
          · exact ⟨w.db, h.current, hbase b hb⟩
          · exact (h.based key' _ b hb (hsame ▸ h.activated_of_active hactive)).1
        exact ⟨hwas.commit, hold hwas⟩
    · rcases hact ha with ha | ⟨heq, -⟩
      · obtain ⟨hwas, hcur⟩ := h.based key' id b hb ha
        refine ⟨hwas.commit, ?_⟩
        rwa [versionOf, hother hne]
      · exact absurd heq hne
  · intro old hold key' m₁ m₂ h₁ h₂ heq
    change db.manifests.lookup key' = some m₂ at h₂
    by_cases hne : key' = key
    · subst hne
      rw [hself] at h₂
      cases h₂
      rcases List.mem_cons.1 hold with rfl | hold
      · rw [hself] at h₁
        cases h₁
        exact floorLe_refl _
      · rcases hr with ⟨hnot, -⟩ | ⟨active, hactive, hsame, hle, -⟩
        · exact absurd ⟨old, hold, m₁, h₁, heq⟩ hnot
        · exact floorLe_trans
            (h.floors old hold key' m₁ active h₁ hactive (heq.trans hsame.symm)) hle
    · rw [hother hne] at h₂
      rcases List.mem_cons.1 hold with rfl | hold
      · rw [hother hne, h₂] at h₁
        cases h₁
        exact floorLe_refl _
      · exact h.floors old hold key' m₁ m₂ h₁ h₂ heq
  · intro key' m' hlookup
    change db.manifests.lookup key' = some m' at hlookup
    change Matches (db.rows _) _ _
    rw [hrows]
    by_cases hne : key' = key
    · subst hne
      rw [hself] at hlookup
      cases hlookup
      exact hmatches
    · exact h.active key' m' (hother hne ▸ hlookup)
  · intro id d hd
    change db.staged.lookup id = some d at hd
    change _ ∨ Matches (db.rows _) _ _
    rw [hstaged] at hd
    rw [hrows]
    exact (h.staged id d hd).imp_left Activated.commit
  · intro id hid
    obtain ⟨b, hb, ha⟩ := h.activated id hid
    exact ⟨b, hb, ha.commit⟩

theorem initial_inv (h : Initial batches w) : Inv env batches w := by
  have hpast {old : FactDatabase φ β} (hold : old ∈ w.past) : old = w.db := by
    rw [h.past] at hold
    exact List.mem_singleton.1 hold
  have hstaged (id : FactBatchId) : w.db.staged.lookup id = none := by
    rw [h.staged, AList.lookup_empty]
  refine ⟨by rw [h.past]; exact List.mem_singleton.2 rfl, ?_, ?_, ?_, ?_, ?_, ?_, ?_, ?_, ?_⟩
  · exact fun key m hm => (h.active key m hm).1
  · intro old hold id d hd
    rw [hpast hold, hstaged id] at hd
    cases hd
  · rintro key id b hb ⟨old, hold, m, hm, rfl⟩
    rw [hpast hold] at hm
    rw [(h.active key m hm).2.1] at hb
    cases hb
  · intro old hold key m m' hm hm' _
    rw [hpast hold, hm'] at hm
    cases hm
    exact floorLe_refl _
  · exact fun key m hm => (h.active key m hm).2.2
  · intro id d hd
    rw [hstaged id] at hd
    cases hd
  · rw [h.publications]
    simp
  · rw [h.activated]
    simp
  · rw [h.activated]
    exact List.Pairwise.nil

end

end Facts
