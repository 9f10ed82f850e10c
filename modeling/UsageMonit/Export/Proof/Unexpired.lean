import UsageMonit.Export.Proof.Mutations

/-!
# No current record is past its expiry

`Reachable` are the states that a session comes to from a new one, by direct appends, reconciles
and new live snapshots. Both mutations of the journal expire records by the clock they have just
advanced, so that in every reachable state a current record expires after the trusted instant
(`reachable_current`).
-/

namespace Export

open Fallible Time

/-- The states of sessions, from a new one on; an operation that fails leaves the state it had. -/
inductive Reachable (store : RemoteExportStateStore) : StoredExportState → Prop
  | new (deltaGeneration : Nat) {observedAt : DateTime} : Representable observedAt →
      Reachable store (.new store.source store.redactionProfile deltaGeneration observedAt)
  | append {s s' : StoredExportState} {now : DateTime} {changes : List RemoteExportChange}
      {report : RemoteExportAppendReport} : Reachable store s → Representable now →
      appendChanges store s now changes = .ok (s', report) → Reachable store s'
  | reconcile {s s' : StoredExportState} {now : DateTime} {desired : List RemoteExportDesiredRecord}
      {mode : RemoteExportReconcileMode} {report : RemoteExportReconcileReport} :
      Reachable store s → Representable now → validateDesiredRecords desired = .ok () →
      reconcileAndCompact store s now desired mode = .ok (s', report) → Reachable store s'
  | live {s : StoredExportState} {live : StoredLiveState} : Reachable store s →
      { s with live := some live }.validate store = .ok () →
      Reachable store { s with live := some live }

/-- A valid state whose records expire after the trusted instant. -/
structure Current (store : RemoteExportStateStore) (s : StoredExportState) : Prop where
  valid : s.validate store = .ok ()
  range : InRange s
  unexpired : ∀ r ∈ s.materializedRecords, s.retentionClock.trustedAt < r.expiresAt

/-- A record without the sequence of its upsert. -/
def StoredMaterializedRecord.content (r : StoredMaterializedRecord) :
    String × DateTime × String × RemoteExportChange :=
  (r.logicalKey, r.expiresAt, r.currentChangeId, r.tombstone)

variable {store : RemoteExportStateStore} {s s' : StoredExportState}

/-! ## The parts of a mutation -/

theorem content_zipWith : ∀ {rs : List StoredMaterializedRecord} {sequences : List Nat},
    sequences.length = rs.length →
    (rs.zipWith (fun record sequence => { record with lastUpsertSequence := sequence })
      sequences).map (·.content) = rs.map (·.content)
  | [], [], _ => rfl
  | r :: rs, n :: sequences, h => by
    rw [List.zipWith_cons_cons, List.map_cons, List.map_cons, content_zipWith (by simpa using h)]
    rfl

theorem refresh_keeps {now : DateTime} {upserts : ChangeMap} {pruned refreshed total : Nat}
    (h : Contiguous s)
    (hr : refreshMaterializedBootstrapIfNeeded store s now upserts pruned =
      .ok (s', refreshed, total)) :
    s'.retentionClock = s.retentionClock ∧
      s'.materializedRecords.map (·.content) = s.materializedRecords.map (·.content) ∧
      ∃ added, WindowedLog.Extends s.window s'.window added ∧ ∀ e ∈ added,
        ∃ r ∈ s.materializedRecords, upserts.lookup r.logicalKey = some e.change := by
  unfold refreshMaterializedBootstrapIfNeeded at hr
  split at hr
  · cases hr
    exact ⟨rfl, rfl, [], WindowedLog.Extends.refl _, by simp⟩
  · obtain ⟨_, -, hr⟩ := bind_ok hr
    obtain ⟨cs, hcs, hr⟩ := bind_ok hr
    obtain ⟨⟨s1, append⟩, hb, hr⟩ := bind_ok hr
    obtain ⟨t, sub, hs1, -, hsub, -⟩ := appendChangeBatch_ok hb
    obtain rfl := hsub rfl
    subst hs1
    obtain ⟨_, hcount, hr⟩ := bind_ok hr
    obtain ⟨s2, hcompact, hr⟩ := bind_ok hr
    obtain ⟨_, -, hr⟩ := bind_ok hr
    obtain ⟨_, -, hr⟩ := bind_ok hr
    cases hr
    have hextend : Contiguous { s.extend t sub with
        materializedRecords := s.materializedRecords.zipWith
          (fun record sequence => { record with lastUpsertSequence := sequence })
          append.sequences } := (h.extend t sub).of_window rfl rfl
    obtain ⟨d, hd, rfl⟩ := compactToLimits_ok hextend hcompact
    refine ⟨rfl, content_zipWith (ensure_ok.1 hcount).1, numbered t s.currentSequence sub ++ [],
      (extend_extends s t sub).trans (discard_extends hd), fun e he => ?_⟩
    rw [List.append_nil] at he
    have hchange : e.change ∈ sub := by
      rw [← numbered_change t s.currentSequence sub]
      exact List.mem_map_of_mem he
    have hlookup : some e.change ∈ s.materializedRecords.map fun r =>
        upserts.lookup r.logicalKey := by
      rw [← bootstrapChanges_ok hcs]
      exact List.mem_map_of_mem hchange
    obtain ⟨r, hr, hkey⟩ := List.mem_map.1 hlookup
    exact ⟨r, hr, hkey⟩

theorem expire_unexpired {now trustedAt : DateTime} {upserts upserts' : ChangeMap} {n : Nat}
    (h : Contiguous s) (he : expireMaterializedRecords s now trustedAt upserts =
      .ok (s', n, upserts')) :
    Contiguous s' ∧ s'.retentionClock = s.retentionClock ∧
      ∀ r ∈ s'.materializedRecords, trustedAt < r.expiresAt := by
  unfold expireMaterializedRecords at he
  simp only at he
  split at he
  · rename_i hnone
    cases he
    refine ⟨h, rfl, fun r hr => ?_⟩
    simpa using List.filter_eq_nil_iff.1 hnone r hr
  · obtain ⟨⟨s1, append⟩, hb, he⟩ := bind_ok he
    obtain ⟨t, sub, hs1, -⟩ := appendChangeBatch_ok hb
    subst hs1
    obtain ⟨_, -, he⟩ := bind_ok he
    obtain ⟨_, -, he⟩ := bind_ok he
    cases he
    refine ⟨(h.extend t sub).of_window rfl rfl, rfl, fun r hr => ?_⟩
    obtain ⟨hr, hkept⟩ := List.mem_filter.1 hr
    by_contra hexpired
    rw [decide_eq_true_iff, List.mem_dedup] at hkept
    refine hkept (List.mem_map_of_mem (List.mem_filter.2 ⟨hr, ?_⟩))
    simpa using hexpired

theorem unexpired_of_content {rs rs' : List StoredMaterializedRecord} {t : DateTime}
    (hcontent : rs'.map (·.content) = rs.map (·.content)) (h : ∀ r ∈ rs, t < r.expiresAt) :
    ∀ r ∈ rs', t < r.expiresAt := by
  intro r hr
  have hmem : r.content ∈ rs.map (·.content) := hcontent ▸ List.mem_map_of_mem hr
  obtain ⟨q, hq, hqr⟩ := List.mem_map.1 hmem
  have hexpires : q.expiresAt = r.expiresAt := congrArg (·.2.1) hqr
  exact hexpires ▸ h q hq

/-! ## The merge -/

theorem ownership_expiry {old : List StoredMaterializedRecord} {upserts : ChangeMap}
    (hkeys : (old.map (·.logicalKey)).Nodup) : ∀ {ds : List RemoteExportDesiredRecord},
    validateReconcileChangeOwnership old upserts ds = .ok () → ∀ r ∈ old, ∀ d ∈ ds,
      r.logicalKey = d.logicalKey → r.expiresAt = d.expiresAt
  | [], _, _, _, _, hd, _ => by cases hd
  | next :: ds, h, r, hr, d, hd, hkey => by
    obtain ⟨_, hexpiry, h⟩ := bind_ok h
    obtain ⟨_, -, h⟩ := bind_ok h
    obtain ⟨_, -, h⟩ := bind_ok h
    rcases List.mem_cons.1 hd with rfl | hd
    · refine ensure_ok.1 hexpiry r ?_
      cases hfind : old.find? fun candidate => candidate.logicalKey == d.logicalKey with
      | none => simpa [hkey] using List.find?_eq_none.1 hfind r hr
      | some q =>
        have hq : q.logicalKey = d.logicalKey := by simpa using List.find?_some hfind
        rw [List.inj_on_of_nodup_map hkeys (List.mem_of_find?_eq_some hfind) hr
          (hq.trans hkey.symm)]
        rfl
    · exact ownership_expiry hkeys h r hr d hd hkey

section
variable {previousUpserts : ChangeMap} {mode : RemoteExportReconcileMode} {trustedAt : DateTime}

/-- The records the merge has kept expire after the instant. -/
def Merge.Unexpired (trustedAt : DateTime) (m : Merge) : Prop :=
  ∀ p ∈ m.pending, trustedAt < p.stored.expiresAt

theorem unexpired_push {m m' : Merge} {p : PendingMaterializedRecord} (h : m.Unexpired trustedAt)
    (hm' : m'.pending = m.pending ++ [p]) (hp : trustedAt < p.stored.expiresAt) :
    m'.Unexpired trustedAt := by
  intro q hq
  rw [hm', List.mem_append, List.mem_singleton] at hq
  rcases hq with hq | rfl
  · exact h q hq
  · exact hp

theorem mergeDesiredRecord_unexpired {old : Option StoredMaterializedRecord}
    {next : RemoteExportDesiredRecord} {m : Merge} (h : m.Unexpired trustedAt)
    (hnext : trustedAt < next.expiresAt) : (mergeDesiredRecord old next s m).Unexpired trustedAt := by
  unfold mergeDesiredRecord
  simp only
  split
  · exact unexpired_push h rfl hnext
  · exact unexpired_push h rfl hnext

theorem mergeOldRecord_unexpired {old : StoredMaterializedRecord} {m m' : Merge}
    (h : m.Unexpired trustedAt)
    (hm : mergeOldRecord s previousUpserts mode trustedAt old m = .ok m') :
    m'.Unexpired trustedAt := by
  unfold mergeOldRecord at hm
  split at hm
  · cases hm
    exact h
  · rename_i hexpires
    unfold mergeOmittedOldRecord at hm
    split at hm
    · cases hm
      exact h
    · obtain ⟨c, -, hm⟩ := bind_ok hm
      split at hm
      · cases hm
        exact unexpired_push h rfl (not_le.1 hexpires)
      · cases hm
        exact unexpired_push h rfl (not_le.1 hexpires)

theorem mergeNewRecord_unexpired {next : RemoteExportDesiredRecord} {m : Merge}
    (h : m.Unexpired trustedAt) : (mergeNewRecord s trustedAt next m).Unexpired trustedAt := by
  unfold mergeNewRecord
  split
  · rename_i hnext
    exact mergeDesiredRecord_unexpired h hnext
  · exact h

theorem mergeBothRecords_unexpired {old : StoredMaterializedRecord}
    {next : RemoteExportDesiredRecord} {m : Merge} (h : m.Unexpired trustedAt)
    (hexpiry : old.expiresAt = next.expiresAt) :
    (mergeBothRecords s trustedAt old next m).Unexpired trustedAt := by
  unfold mergeBothRecords
  split
  · exact h
  · rename_i hexpires
    exact mergeDesiredRecord_unexpired h (hexpiry ▸ not_le.1 hexpires)

/-- **The merge** keeps no record past its expiry. -/
theorem mergeRecords_unexpired : ∀ {fuel : Nat} {olds : List StoredMaterializedRecord}
    {nexts : List RemoteExportDesiredRecord} {m m' : Merge},
    (∀ r ∈ olds, ∀ d ∈ nexts, r.logicalKey = d.logicalKey → r.expiresAt = d.expiresAt) →
    m.Unexpired trustedAt →
    mergeRecords s previousUpserts mode trustedAt fuel olds nexts m = .ok m' →
    m'.Unexpired trustedAt
  | 0, _, _, _, _, _, hm, h => by
    cases h
    exact hm
  | _ + 1, [], [], _, _, _, hm, h => by
    cases h
    exact hm
  | fuel + 1, old :: olds, [], m, m', _, hm, h => by
    obtain ⟨m1, h1, h⟩ := bind_ok h
    exact mergeRecords_unexpired (by simp) (mergeOldRecord_unexpired hm h1) h
  | fuel + 1, [], next :: nexts, m, m', _, hm, h => by
    exact mergeRecords_unexpired (by simp) (mergeNewRecord_unexpired hm) h
  | fuel + 1, old :: olds, next :: nexts, m, m', hexpiry, hm, h => by
    simp only [mergeRecords] at h
    split at h
    · obtain ⟨m1, h1, h⟩ := bind_ok h
      exact mergeRecords_unexpired (fun r hr => hexpiry r (List.mem_cons_of_mem _ hr))
        (mergeOldRecord_unexpired hm h1) h
    · rename_i heq
      exact mergeRecords_unexpired
        (fun r hr d hd => hexpiry r (List.mem_cons_of_mem _ hr) d (List.mem_cons_of_mem _ hd))
        (mergeBothRecords_unexpired hm (hexpiry old List.mem_cons_self next List.mem_cons_self
          (compare_eq_iff_eq.1 heq))) h
    · exact mergeRecords_unexpired
        (fun r hr d hd => hexpiry r hr d (List.mem_cons_of_mem _ hd)) (mergeNewRecord_unexpired hm) h

end

@[simp] theorem commit_expires (sequences : List Nat) (p : PendingMaterializedRecord) :
    (p.commit sequences).expiresAt = p.stored.expiresAt := by
  unfold PendingMaterializedRecord.commit
  split <;> rfl

theorem commit_content (sequences : List Nat) (p : PendingMaterializedRecord) :
    (p.commit sequences).content = p.stored.content := by
  simp [StoredMaterializedRecord.content]

/-! ## The mutations -/

theorem append_unexpired {now : DateTime} {changes : List RemoteExportChange}
    {report : RemoteExportAppendReport} (h : Contiguous s)
    (ha : appendAndCompact store s now changes = .ok (s', report)) :
    ∀ r ∈ s'.materializedRecords, s'.retentionClock.trustedAt < r.expiresAt := by
  obtain ⟨_, -, ha⟩ := bind_ok ha
  obtain ⟨upserts, -, ha⟩ := bind_ok ha
  obtain ⟨⟨s1, append⟩, hb, ha⟩ := bind_ok ha
  obtain ⟨⟨s2, ageCount, deferred⟩, hprune, ha⟩ := bind_ok ha
  obtain ⟨⟨s3, expired, upserts'⟩, hexpire, ha⟩ := bind_ok ha
  obtain ⟨s4, hcompact, ha⟩ := bind_ok ha
  obtain ⟨⟨s5, refreshes, pruned⟩, hrefresh, ha⟩ := bind_ok ha
  obtain ⟨_, -, ha⟩ := bind_ok ha
  obtain ⟨_, -, ha⟩ := bind_ok ha
  cases ha
  obtain ⟨t, sub, hs1, -⟩ := appendChangeBatch_ok hb
  subst hs1
  obtain ⟨clock, d, hd, hs2⟩ := advanceRetention_ok (h.extend t sub) hprune
  dsimp only at hs2
  obtain ⟨h3, hclock3, hfresh⟩ := expire_unexpired
    (hs2 ▸ ((h.extend t sub).discard hd).of_window rfl rfl) hexpire
  obtain ⟨d', hd', rfl⟩ := compactToLimits_ok h3 hcompact
  obtain ⟨hclock5, hcontent, -⟩ := refresh_keeps (h3.discard hd') hrefresh
  have hclock : s'.retentionClock.trustedAt = s2.retentionClock.trustedAt := by
    rw [hclock5, ← hclock3]
    rfl
  rw [hclock]
  exact unexpired_of_content hcontent hfresh

theorem reconcile_unexpired {now : DateTime} {desired : List RemoteExportDesiredRecord}
    {mode : RemoteExportReconcileMode} {report : RemoteExportReconcileReport} (h : Sound store s)
    (hr : reconcileAndCompact store s now desired mode = .ok (s', report)) :
    ∀ r ∈ s'.materializedRecords, s'.retentionClock.trustedAt < r.expiresAt := by
  obtain ⟨_, -, hr⟩ := bind_ok hr
  obtain ⟨upserts, -, hr⟩ := bind_ok hr
  obtain ⟨_, howners, hr⟩ := bind_ok hr
  obtain ⟨⟨s1, ageCount, deferred⟩, hprune, hr⟩ := bind_ok hr
  obtain ⟨m, hmerge, hr⟩ := bind_ok hr
  obtain ⟨⟨s2, append⟩, hb, hr⟩ := bind_ok hr
  obtain ⟨_, -, hr⟩ := bind_ok hr
  obtain ⟨s3, hcompact, hr⟩ := bind_ok hr
  obtain ⟨⟨s4, refreshed, pruned⟩, hrefresh, hr⟩ := bind_ok hr
  iterate 3 obtain ⟨_, -, hr⟩ := bind_ok hr
  cases hr
  obtain ⟨clock, d, hd, hs1⟩ := advanceRetention_ok h.journal.contiguous hprune
  dsimp only at hs1
  have h1 : Contiguous s1 := hs1 ▸ (h.journal.contiguous.discard hd).of_window rfl rfl
  have hrecords1 : s1.materializedRecords = s.materializedRecords := by rw [hs1]; rfl
  obtain ⟨t, sub, hs2, -⟩ := appendChangeBatch_ok hb
  subst hs2
  have h2 : Contiguous { s1.extend t sub with
      materializedRecords := m.pending.map (·.commit append.sequences) } :=
    (h1.extend t sub).of_window rfl rfl
  obtain ⟨d', hd', rfl⟩ := compactToLimits_ok h2 hcompact
  obtain ⟨hclock, hcontent, -⟩ := refresh_keeps (h2.discard hd') hrefresh
  have hfresh : m.Unexpired s1.retentionClock.trustedAt := by
    refine mergeRecords_unexpired ?_ (fun p hp => by cases hp) hmerge
    rw [hrecords1]
    exact ownership_expiry h.records.keys howners
  rw [hclock]
  refine unexpired_of_content hcontent fun r hr => ?_
  obtain ⟨p, hp, rfl⟩ := List.mem_map.1 hr
  rw [commit_expires]
  exact hfresh p hp

theorem validate_new (store : RemoteExportStateStore) (deltaGeneration : Nat)
    (observedAt : DateTime) :
    (StoredExportState.new store.source store.redactionProfile deltaGeneration
      observedAt).validate store = .ok () := by
  simp [StoredExportState.validate, StoredExportState.new, StoredExportState.validateLive,
    StoredExportState.validateJournal, RetentionClock.validate, RetentionClock.current, ensure]

/-- **Reachable states are current.** -/
theorem reachable_current (h : Reachable store s) : Current store s := by
  induction h with
  | new deltaGeneration hobserved =>
    exact ⟨validate_new store _ _, ⟨by simp [StoredExportState.new], hobserved⟩,
      by simp [StoredExportState.new]⟩
  | @append s s' now changes report _ hnow h ih =>
    obtain ⟨_, -, h⟩ := bind_ok h
    obtain ⟨_, hchanges, h⟩ := bind_ok h
    have hsound := sound_of_validate ih.valid ih.range.sequence
    have hvalid : ∀ c ∈ changes, c.validate = .ok () := forall_of_forM_ok hchanges
    have hyields := appendAndCompact_yields ih.valid ih.range hnow hvalid
    rw [h] at hyields
    exact ⟨hyields.valid, hyields.range, append_unexpired hsound.journal.contiguous h⟩
  | @reconcile s s' now desired mode report _ hnow hdesired h ih =>
    have hsound := sound_of_validate ih.valid ih.range.sequence
    have hyields := reconcileAndCompact_yields ih.valid ih.range hnow hdesired mode
    rw [h] at hyields
    exact ⟨hyields.valid, hyields.range, reconcile_unexpired hsound h⟩
  | live _ hvalid ih => exact ⟨hvalid, ⟨ih.range.sequence, ih.range.clock⟩, ih.unexpired⟩

end Export
