import UsageMonit.Export.Proof.Unexpired

/-!
# The fast path of a reconcile

A reconcile writes nothing when the set is current (`materializedSetMatches`) and no maintenance is
due (`reconcileMaintenanceDue`). Without a pending clock jump this is what the full reconcile comes
to: its clock stays before the expiry of every record (`clock_of_not_due`), its merge keeps every
record and re-appends at most upserts that the journal no longer has (`mergeRecords_same`), and so
does its refresh (`refresh_keeps`).
-/

namespace Export

open Fallible Time

variable {store : RemoteExportStateStore} {s s' : StoredExportState} {upserts : ChangeMap}

/-- A change is the upsert that the journal retains for a current record. -/
def CurrentUpsert (s : StoredExportState) (c : RemoteExportChange) : Prop :=
  ∃ r ∈ s.materializedRecords, ∃ e ∈ s.entryAtSequence r.lastUpsertSequence, e.change = c

/-- A reconcile that left the set as it was: the records but for the sequences of their upserts,
and nothing appended but upserts of them. -/
structure SetUnchanged (s s' : StoredExportState) (report : RemoteExportReconcileReport) :
    Prop where
  records : s'.materializedRecords.map (·.content) = s.materializedRecords.map (·.content)
  tombstones : report.tombstonesAppended = 0
  expired : report.expiredRecords = 0
  upserts : report.upsertsAppended = report.bootstrapUpsertsAppended
  appended : ∃ added, WindowedLog.Extends s.window s'.window added ∧
    ∀ e ∈ added, CurrentUpsert s e.change

/-! ## The clock -/

/-- **No maintenance is due**: the clock moves to a trusted reading, and no record is past it. -/
theorem clock_of_not_due {now : DateTime} (h : Current store s) (hnow : Representable now)
    (hpending : s.retentionClock.pendingLastAt = none)
    (hdue : reconcileMaintenanceDue store s now = false) :
    ∀ r ∈ s.materializedRecords,
      (nextRetentionClock s.retentionClock now).1.trustedAt < r.expiresAt := by
  have hclock := h.range.clock
  have hpositive : (0 : Int) ≤ hours reconcileMaintenanceIntervalHours := by decide
  have hhours : (hours reconcileMaintenanceIntervalHours : Int) ≤
      hours retentionClockMaxUnconfirmedForwardHours := by decide
  unfold reconcileMaintenanceDue at hdue
  simp only [hpending, Option.getD_none, Option.isSome_none, Bool.false_eq_true, false_and,
    if_false] at hdue
  split at hdue
  · cases hdue
  split at hdue
  · cases hdue
  rename_i hexpired
  have hnear : ¬ Beyond s.retentionClock.trustedAt now := by
    intro hbeyond
    have hle : s.retentionClock.trustedAt + hours reconcileMaintenanceIntervalHours ≤ now :=
      (Int.add_le_add_left hhours _).trans hbeyond.le
    have hfits : checkedAddSigned s.retentionClock.trustedAt
        (hours reconcileMaintenanceIntervalHours) =
          some (s.retentionClock.trustedAt + hours reconcileMaintenanceIntervalHours) :=
      if_pos ⟨hclock.1.trans (Int.le_add_of_nonneg_right hpositive), hle.trans hnow.2⟩
    rw [hfits, Option.any_some, decide_eq_false_iff_not] at hdue
    exact hdue hle
  rw [nextRetentionClock_near hclock hnow hnear]
  intro r hr
  have hpast : ¬ r.expiresAt ≤ now := fun hle =>
    hexpired ⟨(le_maximum_iff hclock hnow).2 hnear, r, hr, hle⟩
  have htrusted := h.unexpired r hr
  exact max_lt htrusted (not_le.1 hpast)

/-! ## The set -/

/-- A desired record is the current record of its key. -/
structure SameRecord (upserts : ChangeMap) (r : StoredMaterializedRecord)
    (d : RemoteExportDesiredRecord) : Prop where
  key : r.logicalKey = d.logicalKey
  expiry : r.expiresAt = d.expiresAt
  current : r.currentChangeId = d.upsert.changeId
  tombstone : r.tombstone = d.tombstone
  upsert : upserts.lookup r.logicalKey = some d.upsert

theorem materializedSetMatches_ok {desired : List RemoteExportDesiredRecord}
    (hcapture : captureMaterializedUpserts s s.materializedRecords ∅ = .ok upserts)
    (h : materializedSetMatches s desired = .ok true) :
    List.Forall₂ (SameRecord upserts) s.materializedRecords desired := by
  unfold materializedSetMatches at h
  split at h
  · cases h
  · rename_i hlength
    rw [hcapture, ok_bind] at h
    have hall := Except.ok.inj h
    rw [List.all_eq_true] at hall
    refine List.forall₂_iff_zip.2 ⟨not_not.1 hlength, fun {r d} hmem => ?_⟩
    have hpair := hall (r, d) hmem
    simp only [decide_eq_true_eq] at hpair
    obtain ⟨hkey, hexpiry, hcurrent, htombstone, hupsert⟩ := hpair
    exact ⟨hkey, hexpiry, hcurrent, htombstone, hupsert⟩

theorem currentUpsert_of_capture (h : Sound store s)
    (hcapture : captureMaterializedUpserts s s.materializedRecords ∅ = .ok upserts)
    {r : StoredMaterializedRecord} (hr : r ∈ s.materializedRecords) {c : RemoteExportChange}
    (hc : upserts.lookup r.logicalKey = some c) : CurrentUpsert s c := by
  obtain ⟨upserts', hcapture', hin, -⟩ : ∃ upserts',
      captureMaterializedUpserts s s.materializedRecords ∅ = .ok upserts' ∧ _ ∧ _ :=
    captureMaterializedUpserts_total h.records.keys fun r hr => (h.complete r hr).2.1
  rw [hcapture] at hcapture'
  cases hcapture'
  obtain ⟨e, he, -, hlookup⟩ := hin r hr
  rw [hc] at hlookup
  cases hlookup
  exact ⟨r, hr, e, he, rfl⟩

/-! ## The merge -/

/-- A transition that appends again what a key has. -/
def Reappends (upserts : ChangeMap) (rs : List StoredMaterializedRecord)
    (t : ReconcileTransition) : Prop :=
  t.kind = .upsert ∧ t.bootstrap = true ∧
    ∃ r ∈ rs, upserts.lookup r.logicalKey = some t.change

theorem Reappends.of_cons {r : StoredMaterializedRecord} {rs : List StoredMaterializedRecord}
    {t : ReconcileTransition} (h : Reappends upserts rs t) : Reappends upserts (r :: rs) t := by
  obtain ⟨hkind, hbootstrap, q, hq, hlookup⟩ := h
  exact ⟨hkind, hbootstrap, q, List.mem_cons_of_mem r hq, hlookup⟩

theorem mergeDesiredRecord_same {r : StoredMaterializedRecord} {d : RemoteExportDesiredRecord}
    (h : SameRecord upserts r d) (m : Merge) :
    ∃ ts p, mergeDesiredRecord (some r) d s m = ⟨m.transitions ++ ts, m.pending ++ [p]⟩ ∧
      (∀ t ∈ ts, Reappends upserts [r] t) ∧ p.stored.content = r.content ∧
      upserts.lookup p.stored.logicalKey = some p.upsert := by
  have hunchanged : (r.currentChangeId == d.upsert.changeId) = true := by simp [h.current]
  have hcontent : (d.logicalKey, d.expiresAt, d.upsert.changeId, d.tombstone) = r.content := by
    simp [StoredMaterializedRecord.content, h.key, h.expiry, h.current, h.tombstone]
  have hlookup : upserts.lookup d.logicalKey = some d.upsert := h.key ▸ h.upsert
  unfold mergeDesiredRecord
  simp only [Option.any_some, hunchanged, Bool.true_and, Option.map_some, Option.getD_some]
  split
  · refine ⟨[], ⟨⟨d.logicalKey, d.expiresAt, d.upsert.changeId, r.lastUpsertSequence,
      d.tombstone⟩, d.upsert, none⟩, ?_, ?_, hcontent, hlookup⟩
    · simp
    · simp
  · refine ⟨[⟨.upsert, true, d.upsert⟩], _, rfl, ?_, hcontent, hlookup⟩
    simpa [Reappends] using h.upsert

/-- **The merge of a set with itself** keeps every record. -/
theorem mergeRecords_same {mode : RemoteExportReconcileMode} {trustedAt : DateTime} :
    ∀ {fuel : Nat} {rs : List StoredMaterializedRecord}
    {ds : List RemoteExportDesiredRecord} {m m' : Merge},
    List.Forall₂ (SameRecord upserts) rs ds → (∀ r ∈ rs, trustedAt < r.expiresAt) →
    rs.length ≤ fuel → mergeRecords s upserts mode trustedAt fuel rs ds m = .ok m' →
    ∃ ts ps, m' = ⟨m.transitions ++ ts, m.pending ++ ps⟩ ∧
      (∀ t ∈ ts, Reappends upserts rs t) ∧
      ps.map (·.stored.content) = rs.map (·.content) ∧
      ∀ p ∈ ps, upserts.lookup p.stored.logicalKey = some p.upsert
  | 0, [], _, m, _, _, _, _, h => by
    cases h
    exact ⟨[], [], by simp, by simp, rfl, by simp⟩
  | fuel + 1, [], [], m, _, _, _, _, h => by
    cases h
    exact ⟨[], [], by simp, by simp, rfl, by simp⟩
  | fuel + 1, r :: rs, d :: ds, m, m', hsame, hfresh, hfuel, h => by
    obtain ⟨hhead, hsame⟩ := List.forall₂_cons.1 hsame
    obtain ⟨hexpires, hfresh⟩ := List.forall_mem_cons.1 hfresh
    have hcompare : compare r.logicalKey d.logicalKey = .eq := compare_eq_iff_eq.2 hhead.key
    have hboth : mergeBothRecords s trustedAt r d m = mergeDesiredRecord (some r) d s m :=
      if_neg (not_le.2 hexpires)
    simp only [mergeRecords, hcompare, hboth] at h
    obtain ⟨ts1, p, hmerge, hts1, hcontent, hlookup⟩ := mergeDesiredRecord_same (s := s) hhead m
    rw [hmerge] at h
    obtain ⟨ts, ps, rfl, hts, hps, hlookups⟩ :=
      mergeRecords_same hsame hfresh (by simpa using hfuel) h
    refine ⟨ts1 ++ ts, p :: ps, by simp, fun t ht => ?_, ?_, ?_⟩
    · rcases List.mem_append.1 ht with ht | ht
      · obtain ⟨hkind, hbootstrap, q, hq, hq'⟩ := hts1 t ht
        obtain rfl := List.mem_singleton.1 hq
        exact ⟨hkind, hbootstrap, q, List.mem_cons_self, hq'⟩
      · exact (hts t ht).of_cons
    · rw [List.map_cons, List.map_cons, hcontent, hps]
    · exact List.forall_mem_cons.2 ⟨hlookup, hlookups⟩

theorem countP_reappends {rs : List StoredMaterializedRecord} {ts : List ReconcileTransition}
    (h : ∀ t ∈ ts, Reappends upserts rs t) :
    ts.countP (·.kind = .upsert) = ts.length ∧ ts.countP (·.kind = .expiryTombstone) = 0 ∧
      ts.countP (·.bootstrap) = ts.length := by
  refine ⟨List.countP_eq_length.2 fun t ht => ?_, List.countP_eq_zero.2 fun t ht => ?_,
    List.countP_eq_length.2 fun t ht => (h t ht).2.1⟩
  · simp [(h t ht).1]
  · simp [(h t ht).1]

theorem lookup_active {ps : List PendingMaterializedRecord}
    (hlookups : ∀ p ∈ ps, upserts.lookup p.stored.logicalKey = some p.upsert)
    {p : PendingMaterializedRecord} (hp : p ∈ ps) :
    (ps.foldl (fun upserts p => upserts.insert p.stored.logicalKey p.upsert)
      (∅ : ChangeMap)).lookup p.stored.logicalKey = upserts.lookup p.stored.logicalKey :=
  (lookup_pending (F := upserts.lookup) ∅ hlookups _).1 ⟨p, hp, rfl⟩

/-! ## The reconcile -/

/-- **A full reconcile on the fast path** leaves the set as it was. -/
theorem reconcile_unchanged {now : DateTime} {desired : List RemoteExportDesiredRecord}
    {mode : RemoteExportReconcileMode} {report : RemoteExportReconcileReport}
    (h : Current store s) (hnow : Representable now)
    (hpending : s.retentionClock.pendingLastAt = none)
    (hmatches : materializedSetMatches s desired = .ok true)
    (hdue : reconcileMaintenanceDue store s now = false)
    (hr : reconcileAndCompact store s now desired mode = .ok (s', report)) :
    SetUnchanged s s' report := by
  have hsound := sound_of_validate h.valid h.range.sequence
  have hfresh := clock_of_not_due h hnow hpending hdue
  obtain ⟨d, hd, hadvance⟩ := advanceRetention_total hsound.journal.contiguous now
    store.limits.retentionDays
  obtain ⟨_, -, hr⟩ := bind_ok hr
  obtain ⟨upserts, hcapture, hr⟩ := bind_ok hr
  obtain ⟨_, -, hr⟩ := bind_ok hr
  rw [hadvance, ok_bind] at hr
  set s1 : StoredExportState := { s.discard d with
    retentionClock := (nextRetentionClock s.retentionClock now).1 } with hs1
  have h1 : Contiguous s1 := (hsound.journal.contiguous.discard hd).of_window rfl rfl
  obtain ⟨m, hmerge, hr⟩ := bind_ok hr
  obtain ⟨⟨s2, append⟩, hb, hr⟩ := bind_ok hr
  obtain ⟨_, -, hr⟩ := bind_ok hr
  obtain ⟨s3, hcompact, hr⟩ := bind_ok hr
  obtain ⟨⟨s4, refreshed, pruned⟩, hrefresh, hr⟩ := bind_ok hr
  obtain ⟨upsertsAppended, hupserts, hr⟩ := bind_ok hr
  obtain ⟨bootstrapAppended, hbootstrap, hr⟩ := bind_ok hr
  obtain ⟨_, -, hr⟩ := bind_ok hr
  cases hr
  obtain ⟨ts, ps, rfl, hts, hps, hlookups⟩ := mergeRecords_same
    (materializedSetMatches_ok hcapture hmatches) hfresh (Nat.le_add_right _ _) hmerge
  simp only [List.nil_append] at hb hcompact hrefresh hupserts hbootstrap ⊢
  obtain ⟨hkinds, hexpiries, hflags⟩ := countP_reappends hts
  obtain ⟨t, sub, hs2, -, hsub, -⟩ := appendChangeBatch_ok hb
  obtain rfl := hsub rfl
  subst hs2
  have h2 : Contiguous { s1.extend t (ts.map (·.change)) with
      materializedRecords := ps.map (·.commit append.sequences) } :=
    (h1.extend t _).of_window rfl rfl
  obtain ⟨d', hd', rfl⟩ := compactToLimits_ok h2 hcompact
  obtain ⟨-, hcontent, added, hadded, hcurrent⟩ := refresh_keeps (h2.discard hd') hrefresh
  have hextends := (((discard_extends hd).trans (extend_extends s1 t (ts.map (·.change)))).trans
    (discard_extends hd')).trans hadded
  refine ⟨?_, by rw [hkinds, Nat.sub_self], hexpiries, ?_, _, hextends, fun e he => ?_⟩
  · rw [hcontent, ← hps]
    simp [commit_content]
  · obtain ⟨rfl, -⟩ := checkedAdd_eq_some (okOr_ok.1 hupserts)
    obtain ⟨rfl, -⟩ := checkedAdd_eq_some (okOr_ok.1 hbootstrap)
    rw [hkinds, hflags]
  · simp only [List.nil_append, List.append_nil, List.mem_append] at he
    rcases he with he | he
    · have hchange : e.change ∈ ts.map (·.change) := by
        rw [← numbered_change t s1.currentSequence (ts.map (·.change))]
        exact List.mem_map_of_mem he
      obtain ⟨transition, htransition, heq⟩ := List.mem_map.1 hchange
      obtain ⟨-, -, r, hr, hlookup⟩ := hts transition htransition
      exact currentUpsert_of_capture hsound hcapture hr (heq ▸ hlookup)
    · obtain ⟨r, hr, hlookup⟩ := hcurrent e he
      obtain ⟨p, hp, rfl⟩ := List.mem_map.1 hr
      rw [commit_key, lookup_active hlookups hp] at hlookup
      have hmem : p.stored.content ∈ s.materializedRecords.map (·.content) :=
        hps ▸ List.mem_map_of_mem hp
      obtain ⟨q, hq, hqp⟩ := List.mem_map.1 hmem
      have hkey : q.logicalKey = p.stored.logicalKey := congrArg (·.1) hqp
      exact currentUpsert_of_capture hsound hcapture hq (hkey ▸ hlookup)

/-- **The fast path agrees with the full reconcile**, which leaves the set as it was, or fails and
leaves the session as it was. -/
theorem fast_path_agrees (h : Reachable store s)
    (hjump : s.retentionClock.pendingStartedAt = none) {now : DateTime} (hnow : Representable now)
    {desired : List RemoteExportDesiredRecord} (mode : RemoteExportReconcileMode)
    (hmatches : materializedSetMatches s desired = .ok true)
    (hdue : reconcileMaintenanceDue store s now = false) :
    (∀ s' report, reconcileAndCompact store s now desired mode = .ok (s', report) →
      SetUnchanged s s' report) ∧
    ∀ session : RemoteExportSession, session.Open store s → ∀ error,
      (session.mutate store fun s => reconcileAndCompact store s now desired mode).1 =
        .error error →
      (session.mutate store fun s => reconcileAndCompact store s now desired mode).2 = session := by
  have hcurrent := reachable_current h
  have hclock := (sound_of_validate hcurrent.valid hcurrent.range.sequence).fields.clock
  have hpending : s.retentionClock.pendingLastAt = none := by
    rcases (RetentionClock.validate_iff _).1 hclock with ⟨-, hlast, -⟩ | ⟨_, _, hstarted, -⟩
    · exact hlast
    · rw [hjump] at hstarted
      cases hstarted
  exact ⟨fun s' report hr => reconcile_unchanged hcurrent hnow hpending hmatches hdue hr,
    fun session hopen error herror => mutate_error hopen herror⟩

namespace Sample

theorem reconciled_reachable : Reachable Sample.store reconciled := by
  have h : reconcileAndCompact Sample.store empty.state 1 [desiredA] .authoritative =
      .ok (reconciled, ⟨1, 1, 0, 0, 0, 1, 0, 0, 0, false⟩) := rfl
  exact .reconcile (.new 7 ⟨by decide, by decide⟩) ⟨by decide, by decide⟩ rfl h

end Sample

theorem fast_path_sample :
    ∃ s' report, reconcileAndCompact Sample.store Sample.reconciled 2 [Sample.desiredA]
      .authoritative = .ok (s', report) ∧ SetUnchanged Sample.reconciled s' report := by
  have hrun : reconcileAndCompact Sample.store Sample.reconciled 2 [Sample.desiredA]
      .authoritative = .ok ({ Sample.reconciled with retentionClock := RetentionClock.current 2 },
        ⟨1, 0, 0, 0, 0, 1, 0, 0, 0, false⟩) := rfl
  exact ⟨_, _, hrun, (fast_path_agrees Sample.reconciled_reachable rfl ⟨by decide, by decide⟩
    .authoritative rfl (by decide)).1 _ _ hrun⟩

end Export
