import UsageMonit.Facts.Proof.Collect

/-!
# Retention keeps exactly the retained records

Publishers and collectors act on one store in any order. `sourceStep_ok` is one step of a source:
it keeps the invariants of the store and of the collector, and whatever `Frame` says. From it
`fact_retention_keeps_retained_records`: an active set always has its rows, a set that the collector
replaces keeps exactly the retained ones, and no commit of it takes a row from an active set or from
a batch that is staged and was not activated.
-/

namespace Facts

open Fallible Time

variable {id : FactBatchId}

section
variable {φ β : Type} {env : StoreEnv φ β} {batches : Batches φ β} {w w' : World φ β}

/-! ## The collector between steps -/

theorem collectInv_initial (h : Initial batches w) : CollectInv env batches w := by
  have hnone {p : Progress β} (hp : w.db.progress = some p) : False := by
    rw [h.progress] at hp
    cases hp
  refine ⟨fun p hp => (hnone hp).elim, fun p job hp => (hnone hp).elim, fun id unit hmem => ?_,
    fun id ⟨p, job, hp, _⟩ => (hnone hp).elim⟩
  rw [h.units] at hmem
  cases hmem

theorem CollectInv.fact (hc : CollectInv env batches w) (hf : FactFrame batches w w'.db)
    (hpast : w'.past = w'.db :: w.past) (hunits : w'.units = w.units)
    (hgenerated : w'.generated = w.generated) : CollectInv env batches w' := by
  have hprogress {p : Progress β} (hp : w'.db.progress = some p) : w.db.progress = some p :=
    hf.progress ▸ hp
  refine ⟨fun p hp => hc.jobless p (hprogress hp), fun p job hp hjob => ?_,
    fun id unit hmem => ?_, fun id ⟨p, job, hp, hjob⟩ => ?_⟩
  · exact ((hc.job p job (hprogress hp) hjob).commit hf).congr rfl hpast
  · rw [hunits] at hmem
    obtain ⟨hready, hmem⟩ := hc.units id unit hmem
    obtain ⟨hfresh, hrows⟩ := hf.fresh id hready.fresh
    refine ⟨(hready.commit hf.toFrame hfresh fun key => ?_).congr rfl hpast, hgenerated ▸ hmem⟩
    rw [hrows, hready.blank]
  · rw [hgenerated, hunits]
    exact hc.used id ⟨p, job, hprogress hp, hjob⟩

theorem CollectInv.collect {db : FactDatabase φ β} {unit : PreparedEvidenceGc φ β}
    (hc : CollectInv env batches w) (hmem : (id, unit) ∈ w.units)
    (hd : Collected env batches w id db) :
    CollectInv env batches
      { w.commit db with units := w.units.filter fun prepared => prepared.1 ≠ id } := by
  have hkept {prepared : FactBatchId × PreparedEvidenceGc φ β}
      (h : prepared ∈ w.units.filter fun prepared => prepared.1 ≠ id) :
      prepared ∈ w.units ∧ prepared.1 ≠ id :=
    ⟨(List.mem_filter.1 h).1, of_decide_eq_true (List.mem_filter.1 h).2⟩
  refine ⟨hd.jobless, fun p job hp hjob => (hd.job p job hp hjob).1.congr rfl rfl,
    fun id' unit' hmem' => ?_, fun id' ⟨p, job, hp, hjob, hid⟩ => ?_⟩
  · obtain ⟨hready, hgenerated⟩ := hc.units id' unit' (hkept hmem').1
    obtain ⟨hfresh, hblank⟩ := hd.blank id'
      (fun hr => (hc.used id' hr).2 _ (hkept hmem').1 rfl) hready.fresh hready.blank
    exact ⟨(hready.commit hd.frame hfresh hblank).congr rfl rfl, hgenerated⟩
  · subst hid
    rcases (hd.job p job hp hjob).2 with hid | hr
    · exact ⟨hid ▸ (hc.units id unit hmem).2, fun prepared hp => hid ▸ (hkept hp).2⟩
    · exact ⟨(hc.used _ hr).1, fun prepared hp => (hc.used _ hr).2 _ (hkept hp).1⟩

theorem CollectInv.abandon (hc : CollectInv env batches w) :
    CollectInv env batches
      { w with units := w.units.filter fun prepared => prepared.1 ≠ id } := by
  refine ⟨hc.jobless, fun p job hp hjob => (hc.job p job hp hjob).congr rfl rfl,
    fun id' unit hmem => ?_, fun id' hr => ⟨(hc.used id' hr).1, fun prepared hp => ?_⟩⟩
  · obtain ⟨hready, hgenerated⟩ := hc.units id' unit (List.mem_filter.1 hmem).1
    exact ⟨hready.congr rfl rfl, hgenerated⟩
  · exact (hc.used id' hr).2 prepared (List.mem_filter.1 hp).1

theorem World.Unused.blank (h : w.Unused batches id) (hinv : Inv env batches w) :
    Fresh batches w id ∧ ∀ key, w.db.rows ⟨key, id⟩ = [] := by
  refine ⟨⟨h.1, fun key => ?_⟩, fun key => ?_⟩
  · rintro ⟨old, hold, m, hm, heq⟩
    exact (h.2.2 old hold).2 key m hm heq
  · rw [FactDatabase.rows, List.map_eq_nil_iff, List.filter_eq_nil_iff]
    intro row hrow heq
    refine (h.2.2 _ hinv.current).1 row hrow ?_
    rw [of_decide_eq_true heq]

/-! ## Versions that are gone -/

/-- A version that was active and is not any more. -/
def Gone (w : World φ β) (key : ThreadShardKey) (version : Option (ActiveFactVersion β)) : Prop :=
  Was w key version ∧ versionOf w.db key ≠ version

theorem gone_step {key : ThreadShardKey} {version : Option (ActiveFactVersion β)}
    (hg : Gone w key version) (hs : (w'.db = w.db ∧ w'.past = w.past) ∨
      (Frame w w'.db ∧ w'.past = w'.db :: w.past)) : Gone w' key version := by
  obtain ⟨⟨old, hold, hversion⟩, hne⟩ := hg
  rcases hs with ⟨hdb, hpast⟩ | ⟨hf, hpast⟩
  · exact ⟨⟨old, hpast ▸ hold, hversion⟩, hdb ▸ hne⟩
  · refine ⟨⟨old, hpast ▸ List.mem_cons_of_mem _ hold, hversion⟩, fun heq => ?_⟩
    rcases hf.versions key with hsame | hnew
    · exact hne (by rw [← heq, versionOf, versionOf, hsame])
    · exact hnew ⟨old, hold, hversion.trans heq.symm⟩

/-! ## Steps of a source -/

variable [DecidableEq β]

theorem CollectInv.prepare {reads : Nat → FactDatabase φ β} {cutoff trustedAt : DateTime}
    {scan : DigestScan} {budget : Nat} {unit : PreparedEvidenceGc φ β}
    (hc : CollectInv env batches w) (h : Inv env batches w) (hreads : ∀ i, reads i ∈ w.past)
    (hunused : w.Unused batches id)
    (hprepare : prepareGcEvidenceUnit env reads w.db cutoff trustedAt id scan budget = .ok unit) :
    CollectInv env batches
      { w with units := (id, unit) :: w.units, generated := id :: w.generated } := by
  refine ⟨hc.jobless, fun p job hp hjob => (hc.job p job hp hjob).congr rfl rfl,
    fun id' unit' hmem => ?_, fun id' hr => ⟨List.mem_cons_of_mem _ (hc.used id' hr).1, ?_⟩⟩
  · rcases List.mem_cons.1 hmem with heq | hmem
    · obtain ⟨rfl, rfl⟩ := Prod.mk.inj heq
      obtain ⟨p, hstart, hcase⟩ := prepareGcEvidenceUnit_ok hprepare
      obtain ⟨hfresh, hblank⟩ := hunused.blank h
      exact ⟨⟨⟨_, _, p, hreads 2, h.current, hstart, hcase, fun _ _ _ _ => rfl⟩, hfresh, hblank⟩,
        List.mem_cons_self ..⟩
    · obtain ⟨hready, hgenerated⟩ := hc.units id' unit' hmem
      exact ⟨hready.congr rfl rfl, List.mem_cons_of_mem _ hgenerated⟩
  · intro prepared hp heq
    rcases List.mem_cons.1 hp with rfl | hp
    · have hid : id = id' := heq
      exact hunused.2.1 (hid ▸ (hc.used id' hr).1)
    · exact (hc.used id' hr).2 prepared hp heq

variable [DecidableEq φ]

/-- **One step of a source.** -/
theorem sourceStep_ok (h : Inv env batches w) (hc : CollectInv env batches w)
    (hs : SourceStep env batches w w') : Inv env batches w' ∧ CollectInv env batches w' ∧
      ((w'.db = w.db ∧ w'.past = w.past) ∨ (Frame w w'.db ∧ w'.past = w'.db :: w.past)) := by
  cases hs with
  | fact hs =>
    obtain ⟨hf, hpast, hunits, hgenerated⟩ := factStep_frame h hs
    exact ⟨factStep_inv h hs, hc.fact hf hpast hunits hgenerated, .inr ⟨hf.toFrame, hpast⟩⟩
  | prepare hreads hunused hprepare =>
    exact ⟨h.congr rfl rfl rfl rfl, hc.prepare h hreads hunused hprepare, .inl ⟨rfl, rfl⟩⟩
  | collect hmem hpublish =>
    have hd := publish_collected h hc (hc.units _ _ hmem).1 hpublish
    exact ⟨hd.inv.congr rfl rfl rfl rfl, hc.collect hmem hd, .inr ⟨hd.frame, rfl⟩⟩
  | abandon => exact ⟨h.congr rfl rfl rfl rfl, hc.abandon, .inl ⟨rfl, rfl⟩⟩

theorem sourceReachable_inv (h : SourceReachable env batches w) :
    Inv env batches w ∧ CollectInv env batches w := by
  induction h with
  | init h => exact ⟨initial_inv h, collectInv_initial h⟩
  | step _ hs ih => exact ⟨(sourceStep_ok ih.1 ih.2 hs).1, (sourceStep_ok ih.1 ih.2 hs).2.1⟩

theorem gone_steps {key : ThreadShardKey} {version : Option (ActiveFactVersion β)}
    (h : Inv env batches w) (hc : CollectInv env batches w) (hg : Gone w key version)
    (hs : Relation.ReflTransGen (SourceStep env batches) w w') : Gone w' key version := by
  suffices Inv env batches w' ∧ CollectInv env batches w' ∧ Gone w' key version from this.2.2
  induction hs with
  | refl => exact ⟨h, hc, hg⟩
  | tail _ hs ih =>
    obtain ⟨h', hc', hg'⟩ := ih
    obtain ⟨hinv, hcollect, hframe⟩ := sourceStep_ok h' hc' hs
    exact ⟨hinv, hcollect, gone_step hg' hframe⟩

/-- **Retention keeps exactly the retained records**, under every interleaving of publishers and
collectors, whatever their pages and whichever units are abandoned. -/
theorem fact_retention_keeps_retained_records (h : SourceReachable env batches w) :
    -- the active generation has all its rows
    (∀ key m, w.db.manifests.lookup key = some m →
      (w.db.rows ⟨key, m.activeGeneration⟩).length = m.recordCount ∧
      recordDays (w.db.rows ⟨key, m.activeGeneration⟩) = m.shardDays) ∧
    ∀ id unit db, (id, unit) ∈ w.units → unit.publish w.db = .ok db →
      -- a manifest that the collector replaces
      (∀ key, db.manifests.lookup key ≠ w.db.manifests.lookup key → ∃ m m' p,
        w.db.manifests.lookup key = some m ∧ db.manifests.lookup key = some m' ∧
        w.db.progress = some p ∧ m'.retainedSince = some p.cutoff ∧
        (db.rows ⟨key, m'.activeGeneration⟩).Perm
          ((w.db.rows ⟨key, m.activeGeneration⟩).filter fun record =>
            decide (p.cutoff ≤ record.occurredAt)) ∧
        m'.cursor = m.cursor ∧ m'.remoteBinding = m.remoteBinding ∧
        m'.validatedDigests = m.validatedDigests ∧
        -- is not the base of a publication any more
        ∀ w', Relation.ReflTransGen (SourceStep env batches)
            { w.commit db with units := w.units.filter fun prepared => prepared.1 ≠ id } w' →
          ∀ publication report db', publication.descriptor.threadShardKey = key →
            publication.descriptor.expectedActiveVersion = some m.version →
            publishFactBatch env w'.db publication = .ok (report, db') →
            report.activated = false ∧ db' = w'.db) ∧
      -- no row of an active set, or of a staged batch that was not activated, is deleted
      (∀ key m, w.db.manifests.lookup key = some m →
        db.rows ⟨key, m.activeGeneration⟩ = w.db.rows ⟨key, m.activeGeneration⟩) ∧
      ∀ batchId d, w.db.staged.lookup batchId = some d →
        ¬ Activated w d.threadShardKey batchId →
        db.rows ⟨d.threadShardKey, batchId⟩ = w.db.rows ⟨d.threadShardKey, batchId⟩ := by
  obtain ⟨hinv, hc⟩ := sourceReachable_inv h
  refine ⟨fun key m hm => ⟨(hinv.active key m hm).1, (hinv.active key m hm).2.1⟩, ?_⟩
  intro id unit db hmem hpublish
  have hd := publish_collected hinv hc (hc.units _ _ hmem).1 hpublish
  refine ⟨fun key hne => ?_, fun key m hm => ?_, fun batchId d hlookup hnot => ?_⟩
  · obtain ⟨m, m', hr⟩ := (hd.manifests key).resolve_left hne
    obtain ⟨p, hp, hfloor, hrows⟩ := hr.cutoff
    refine ⟨m, m', p, hr.before, hr.after, hp, hfloor, hrows, hr.cursor, hr.remoteBinding,
      hr.validatedDigests, fun w' hsteps publication report db' hkey hversion hok => ?_⟩
    have hgone : Gone { w.commit db with units := w.units.filter fun prepared => prepared.1 ≠ id }
        key (some m.version) := by
      refine ⟨⟨w.db, List.mem_cons_of_mem _ hinv.current, ?_⟩, fun heq => hr.floor.2 ?_⟩
      · rw [versionOf, hr.before]
        rfl
      · -- the floor of the new version is above the old one
        change (db.manifests.lookup key).map _ = _ at heq
        rw [hr.after] at heq
        have hfloor' := congrArg ActiveFactVersion.retainedSince (Option.some.inj heq)
        rw [show m'.retainedSince = m.retainedSince from hfloor']
        exact floorLe_refl _
    have hstep := sourceStep_ok hinv hc (.collect hmem hpublish)
    have hgone' := gone_steps hstep.1 hstep.2.1 hgone hsteps
    rcases publishFactBatch_ok hok with hidle | ⟨-, manifest, previous, -, hswap⟩
    · exact hidle
    · exact absurd (hkey ▸ hswap.version.trans hversion) hgone'.2
  · exact (hd.rows _).resolve_right fun hspare => hspare.1 m hm rfl
  · exact (hd.rows _).resolve_right fun hspare => hnot (hspare.2 d hlookup rfl)

end

namespace Sample

/-- The check of `World.Unused`. -/
def unused (w : World Nat Nat) (id : FactBatchId) : Bool :=
  decide (batches.batch id = none ∧ id ∉ w.generated) && w.past.all fun db =>
    (db.records.all fun row => decide (row.nspace.generation ≠ id)) &&
      db.manifests.entries.all fun entry => decide (entry.2.activeGeneration ≠ id)

/-- Prepares a unit that keeps what is not older than seven seconds. -/
def prepareUnit (w : World Nat Nat) (id : FactBatchId) : Except String (World Nat Nat) := do
  ensure (unused w id = true) "identifier is in use"
  let unit ← prepareGcEvidenceUnit env (fun _ => w.db) w.db (seconds 7) 0 id ⟨none, true⟩ 10
  pure { w with units := (id, unit) :: w.units, generated := id :: w.generated }

def commitUnit (w : World Nat Nat) : Except String (World Nat Nat) :=
  match w.units with
  | [] => .error "no unit"
  | (id, unit) :: _ => do
    let db ← unit.publish w.db
    pure { w.commit db with units := w.units.filter fun prepared => prepared.1 ≠ id }

/-- Publishes the batch and collects with these identifiers; the last unit is only prepared. -/
def collecting (ids : List FactBatchId) (last : FactBatchId) : Except String (World Nat Nat) := do
  let w ← run
  let w ← ids.foldlM (fun w id => do
    let w ← prepareUnit w id
    commitUnit w) w
  prepareUnit w last

theorem unused_ok {w : World Nat Nat} (h : unused w id = true) : w.Unused batches id := by
  obtain ⟨hnew, hpast⟩ := Bool.and_eq_true_iff.1 h
  obtain ⟨hbatch, hgenerated⟩ := of_decide_eq_true hnew
  refine ⟨hbatch, hgenerated, fun db hdb => ?_⟩
  obtain ⟨hrows, hmanifests⟩ := Bool.and_eq_true_iff.1 (List.all_eq_true.1 hpast db hdb)
  refine ⟨fun row hrow => of_decide_eq_true (List.all_eq_true.1 hrows row hrow), fun key m hm => ?_⟩
  exact of_decide_eq_true (List.all_eq_true.1 hmanifests _ (AList.mem_lookup_iff.1 hm))

theorem run_source {w : World Nat Nat} (h : FactReachable env batches w) :
    SourceReachable env batches w := by
  induction h with
  | init h => exact .init h
  | step _ hs ih => exact .step ih (.fact hs)

theorem prepareUnit_reachable {w w' : World Nat Nat} (hr : SourceReachable env batches w)
    (h : prepareUnit w id = .ok w') : SourceReachable env batches w' := by
  obtain ⟨_, hunused, h⟩ := bind_ok h
  obtain ⟨unit, hunit, h⟩ := bind_ok h
  cases h
  exact .step hr (.prepare (fun _ => (sourceReachable_inv hr).1.current)
    (unused_ok (ensure_ok.1 hunused)) hunit)

theorem commitUnit_reachable {w w' : World Nat Nat} (hr : SourceReachable env batches w)
    (h : commitUnit w = .ok w') : SourceReachable env batches w' := by
  unfold commitUnit at h
  split at h
  · cases h
  next id unit rest hunits =>
    obtain ⟨db, hpublish, h⟩ := bind_ok h
    cases h
    exact .step hr (.collect (by rw [hunits]; exact List.mem_cons_self ..) hpublish)

theorem commitUnits_reachable {ids : List FactBatchId} {w w' : World Nat Nat}
    (hr : SourceReachable env batches w)
    (h : ids.foldlM (fun w id => do
      let w ← prepareUnit w id
      commitUnit w) w = .ok w') : SourceReachable env batches w' := by
  induction ids generalizing w with
  | nil =>
    cases h
    exact hr
  | cons id ids ih =>
    rw [List.foldlM_cons] at h
    obtain ⟨w₂, hstep, h⟩ := bind_ok h
    obtain ⟨w₃, hprepare, hcommit⟩ := bind_ok hstep
    exact ih (commitUnit_reachable (prepareUnit_reachable hr hprepare) hcommit) h

/-- A property of the last unit, the database that it is committed to and the one after it. -/
def lastUnit (w : World Nat Nat)
    (p : FactDatabase Nat Nat → FactDatabase Nat Nat → Bool) : Bool :=
  match w.units with
  | [] => false
  | (_, unit) :: _ => (unit.publish w.db).toOption.any (p w.db)

theorem collecting_last {ids : List FactBatchId} {last : FactBatchId}
    {p : FactDatabase Nat Nat → FactDatabase Nat Nat → Bool}
    (h : (collecting ids last).toOption.any (lastUnit · p) = true) :
    ∃ w id unit db, SourceReachable env batches w ∧ (id, unit) ∈ w.units ∧
      unit.publish w.db = .ok db ∧ p w.db db = true := by
  cases hw : collecting ids last with
  | error e =>
    rw [hw] at h
    cases h
  | ok w =>
    rw [hw] at h
    change lastUnit w p = true at h
    have hr : SourceReachable env batches w := by
      obtain ⟨w₀, hrun, hw⟩ := bind_ok hw
      obtain ⟨w₁, hfold, hw⟩ := bind_ok hw
      exact prepareUnit_reachable
        (commitUnits_reachable (run_source (run_reachable hrun)) hfold) hw
    unfold lastUnit at h
    split at h
    · cases h
    next id unit rest hunits =>
      cases hdb : unit.publish w.db with
      | error e =>
        rw [hdb] at h
        cases h
      | ok db =>
        rw [hdb] at h
        exact ⟨w, id, unit, db, hr, by rw [hunits]; exact List.mem_cons_self .., hdb, h⟩

end Sample

/-- The collector replaces the published set of two facts by one of the fact that is retained. -/
theorem fact_retention_keeps_retained_records_sample : ∃ w id unit db m m' p,
    SourceReachable Sample.env Sample.batches w ∧ (id, unit) ∈ w.units ∧
    unit.publish w.db = .ok db ∧ w.db.manifests.lookup "thread" = some m ∧
    db.manifests.lookup "thread" = some m' ∧ w.db.progress = some p ∧
    m'.retainedSince = some p.cutoff ∧
    (db.rows ⟨"thread", m'.activeGeneration⟩).Perm
      ((w.db.rows ⟨"thread", m.activeGeneration⟩).filter fun record =>
        decide (p.cutoff ≤ record.occurredAt)) := by
  obtain ⟨w, id, unit, db, hr, hmem, hpublish, hne⟩ := Sample.collecting_last
    (p := fun before after => decide (after.manifests.lookup "thread" ≠
      before.manifests.lookup "thread"))
    (show (Sample.collecting ["gc-1", "gc-2", "gc-3"] "gc-4").toOption.any _ = true by
      decide +kernel)
  obtain ⟨m, m', p, hm, hm', hp, hfloor, hrows, -⟩ :=
    ((fact_retention_keeps_retained_records hr).2 id unit db hmem hpublish).1 "thread"
      (of_decide_eq_true hne)
  exact ⟨w, id, unit, db, m, m', p, hr, hmem, hpublish, hm, hm', hp, hfloor, hrows⟩

/-- The batch is published and not cleaned up, so its descriptor is still there when the collector
has replaced its set and retires its generation. -/
theorem collector_deletes_rows_of_staged_batch : ∃ w id unit db d record,
    SourceReachable Sample.env Sample.batches w ∧ (id, unit) ∈ w.units ∧
    unit.publish w.db = .ok db ∧ w.db.staged.lookup "fact-batch-1" = some d ∧
    record ∈ w.db.rows ⟨d.threadShardKey, "fact-batch-1"⟩ ∧
    record ∉ db.rows ⟨d.threadShardKey, "fact-batch-1"⟩ := by
  obtain ⟨w, id, unit, db, hr, hmem, hpublish, hdeleted⟩ := Sample.collecting_last
    (p := fun before after => (before.staged.lookup "fact-batch-1").any fun d =>
      decide (Sample.record "b" 5 ∈ before.rows ⟨d.threadShardKey, "fact-batch-1"⟩ ∧
        Sample.record "b" 5 ∉ after.rows ⟨d.threadShardKey, "fact-batch-1"⟩))
    (show (Sample.collecting ["gc-1", "gc-2", "gc-3", "gc-4"] "gc-5").toOption.any _ = true by
      decide +kernel)
  obtain ⟨d, hd, hdeleted⟩ := (Option.any_eq_true _ _).1 hdeleted
  obtain ⟨hbefore, hafter⟩ := of_decide_eq_true hdeleted
  exact ⟨w, id, unit, db, d, Sample.record "b" 5, hr, hmem, hpublish, hd, hbefore, hafter⟩

end Facts
