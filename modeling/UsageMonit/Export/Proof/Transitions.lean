import UsageMonit.Export.Proof.Refresh

/-!
# The transitions of a reconcile

Between the current records and a desired set that passed the ownership check, every change id has
one owner: a logical key and a role (`exists_owner`). The merge adds at most one transition and one
record for each key in order, so the ids of its transitions are distinct and its records are those
of a valid state (`mergeRecords_yields`).
-/

namespace Export

open Fallible Time

variable {store : RemoteExportStateStore} {s : StoredExportState} {d : RemoteExportDesiredRecord}
  {old : List StoredMaterializedRecord} {upserts : ChangeMap}

/-! ## Desired records -/

def desiredIds (ds : List RemoteExportDesiredRecord) : List String :=
  ds.flatMap fun d => [d.upsert.changeId, d.tombstone.changeId]

@[simp] theorem desiredIds_cons (d : RemoteExportDesiredRecord)
    (ds : List RemoteExportDesiredRecord) :
    desiredIds (d :: ds) = d.upsert.changeId :: d.tombstone.changeId :: desiredIds ds := rfl

theorem RemoteExportDesiredRecord.validate_ok (h : d.validate = .ok ()) :
    validateMaterializedKey d.logicalKey = .ok () ∧
      d.upsert.validate = .ok () ∧ d.tombstone.validate = .ok () ∧
      d.upsert.changeId ≠ d.tombstone.changeId := by
  obtain ⟨_, hkey, h⟩ := bind_ok h
  obtain ⟨_, hupsert, h⟩ := bind_ok h
  obtain ⟨_, htombstone, h⟩ := bind_ok h
  exact ⟨hkey, hupsert, htombstone, ensure_ok.1 h⟩

theorem validateDesiredRecordsLoop_checks : ∀ {ds : List RemoteExportDesiredRecord}
    {previousKey : Option String} {owners : IdOwners},
    validateDesiredRecordsLoop ds previousKey owners = .ok () →
    (∀ d ∈ ds, d.validate = .ok ()) ∧ (desiredIds ds).Nodup ∧ ∀ id ∈ desiredIds ds, id ∉ owners
  | [], _, _, _ => ⟨by simp, List.nodup_nil, by simp [desiredIds]⟩
  | d :: ds, previousKey, owners, h => by
    obtain ⟨_, hvalid, h⟩ := bind_ok h
    obtain ⟨_, -, h⟩ := bind_ok h
    obtain ⟨owners1, howner, h⟩ := bind_ok h
    obtain ⟨owners2, howner', h⟩ := bind_ok h
    obtain ⟨hfree, hmem⟩ := validateMaterializedIdOwner_ok howner
    obtain ⟨hfree', hmem'⟩ := validateMaterializedIdOwner_ok howner'
    obtain ⟨hrest, hnodup, hout⟩ := validateDesiredRecordsLoop_checks h
    have hnew : ∀ id ∈ desiredIds ds, id ≠ d.tombstone.changeId ∧ id ≠ d.upsert.changeId ∧
        id ∉ owners := by
      intro id hid
      have hid := hout id hid
      rw [hmem', hmem, not_or, not_or] at hid
      exact hid
    refine ⟨List.forall_mem_cons.2 ⟨hvalid, hrest⟩, ?_, ?_⟩
    · rw [desiredIds_cons, List.nodup_cons, List.nodup_cons, List.mem_cons, not_or]
      exact ⟨⟨(RemoteExportDesiredRecord.validate_ok hvalid).2.2.2, fun hin => (hnew _ hin).2.1 rfl⟩,
        fun hin => (hnew _ hin).1 rfl, hnodup⟩
    · rw [desiredIds_cons]
      exact List.forall_mem_cons.2 ⟨hfree, List.forall_mem_cons.2
        ⟨fun hin => hfree' ((hmem _).2 (.inr hin)), fun id hid => (hnew id hid).2.2⟩⟩

/-- A desired set that `validateDesiredRecords` accepts. -/
structure DesiredOk (ds : List RemoteExportDesiredRecord) : Prop where
  each : ∀ d ∈ ds, d.validate = .ok ()
  sorted : SortedDesired ds
  ids : (desiredIds ds).Nodup
  length : ds.length ≤ maxMaterializedRecords

theorem desiredOk_of_validate {ds : List RemoteExportDesiredRecord}
    (h : validateDesiredRecords ds = .ok ()) : DesiredOk ds := by
  have hsorted := validateDesiredRecords_ok h
  obtain ⟨_, hlength, h⟩ := bind_ok h
  obtain ⟨heach, hids, -⟩ := validateDesiredRecordsLoop_checks h
  exact ⟨heach, hsorted, hids, ensure_ok.1 hlength⟩

/-! ## Owners of change ids -/

/-- The owner of every change id: a logical key and a role. -/
abbrev OwnerOf := String → String × MaterializedChangeRole

structure Owned (own : OwnerOf) (r : StoredMaterializedRecord) : Prop where
  current : own r.currentChangeId = (r.logicalKey, .upsert)
  tombstone : own r.tombstone.changeId = (r.logicalKey, .tombstone)

structure OwnedDesired (own : OwnerOf) (d : RemoteExportDesiredRecord) : Prop where
  upsert : own d.upsert.changeId = (d.logicalKey, .upsert)
  tombstone : own d.tombstone.changeId = (d.logicalKey, .tombstone)

theorem ownedIds_nodup {own : OwnerOf} : ∀ {rs : List StoredMaterializedRecord},
    (∀ r ∈ rs, Owned own r) → SortedOld rs → (ownedIds rs).Nodup
  | [], _, _ => List.nodup_nil
  | r :: rs, howned, hsorted => by
    obtain ⟨hr, howned⟩ := List.forall_mem_cons.1 howned
    obtain ⟨hlt, hsorted⟩ := List.pairwise_cons.1 hsorted
    have hother : ∀ id ∈ ownedIds rs, (own id).1 ≠ r.logicalKey := by
      intro id hid
      obtain ⟨q, hq, hid⟩ := List.mem_flatMap.1 hid
      have hkey : (own id).1 = q.logicalKey := by
        rcases List.mem_pair.1 hid with rfl | rfl
        · rw [(howned q hq).current]
        · rw [(howned q hq).tombstone]
      rw [hkey]
      exact ne_of_gt (hlt q hq)
    rw [ownedIds_cons, List.nodup_cons, List.nodup_cons, List.mem_cons, not_or]
    refine ⟨⟨fun heq => ?_, fun hin => hother _ hin (by rw [hr.current])⟩,
      fun hin => hother _ hin (by rw [hr.tombstone]), ownedIds_nodup howned hsorted⟩
    have := hr.current
    rw [heq, hr.tombstone] at this
    cases this

def ownerClaims (rs : List StoredMaterializedRecord) :
    List (String × String × MaterializedChangeRole) :=
  rs.flatMap fun r => [(r.currentChangeId, r.logicalKey, .upsert),
    (r.tombstone.changeId, r.logicalKey, .tombstone)]

def desiredClaims (ds : List RemoteExportDesiredRecord) :
    List (String × String × MaterializedChangeRole) :=
  ds.flatMap fun d => [(d.upsert.changeId, d.logicalKey, .upsert),
    (d.tombstone.changeId, d.logicalKey, .tombstone)]

theorem ownerClaims_ids (rs : List StoredMaterializedRecord) :
    (ownerClaims rs).map (·.1) = ownedIds rs := by
  simp [ownerClaims, ownedIds, List.map_flatMap]

theorem desiredClaims_ids (ds : List RemoteExportDesiredRecord) :
    (desiredClaims ds).map (·.1) = desiredIds ds := by
  simp [desiredClaims, desiredIds, List.map_flatMap]

/-- Claims that agree on every id come from an owner function. -/
theorem exists_function_of_claims {cs : List (String × String × MaterializedChangeRole)}
    (h : ∀ a ∈ cs, ∀ b ∈ cs, a.1 = b.1 → a.2 = b.2) : ∃ own : OwnerOf, ∀ a ∈ cs, own a.1 = a.2 := by
  refine ⟨fun id => ((cs.find? (·.1 = id)).map (·.2)).getD ("", .upsert), fun a ha => ?_⟩
  dsimp only
  cases hfind : cs.find? (·.1 = a.1) with
  | none => simpa using List.find?_eq_none.1 hfind a ha
  | some b =>
    have hb := List.mem_of_find?_eq_some hfind
    have hid : b.1 = a.1 := by simpa using List.find?_some hfind
    exact h b hb a ha hid

theorem changeOwner_some {id : String} {r : StoredMaterializedRecord}
    {role : MaterializedChangeRole} (h : changeOwner old id = some (r, role)) :
    r ∈ old ∧ (id, r.logicalKey, role) ∈ ownerClaims old := by
  obtain ⟨q, hq, h⟩ := List.exists_of_findSome?_eq_some h
  rw [List.mem_reverse] at hq
  split at h
  · rename_i hid
    cases h
    exact ⟨hq, List.mem_flatMap.2 ⟨r, hq, by simp [hid]⟩⟩
  · split at h
    · rename_i hid
      cases h
      exact ⟨hq, List.mem_flatMap.2 ⟨r, hq, by simp [hid]⟩⟩
    · cases h

theorem changeOwner_none {id : String} (h : changeOwner old id = none) : id ∉ ownedIds old := by
  intro hid
  obtain ⟨r, hr, hid⟩ := List.mem_flatMap.1 hid
  rw [changeOwner, List.findSome?_eq_none_iff] at h
  have := h r (List.mem_reverse.2 hr)
  rcases List.mem_pair.1 hid with rfl | rfl
  · by_cases heq : r.tombstone.changeId = r.currentChangeId <;> simp [heq] at this
  · simp at this

/-- The check of one change: who owns its id owns it as the desired record wants it. -/
theorem validateChangeOwnership_claims (hids : (ownedIds old).Nodup) {c : RemoteExportChange}
    {role : MaterializedChangeRole} (h : validateChangeOwnership old upserts d c role = .ok ())
    {claim : String × String × MaterializedChangeRole} (hclaim : claim ∈ ownerClaims old)
    (hid : claim.1 = c.changeId) : claim.2 = (d.logicalKey, role) := by
  unfold validateChangeOwnership at h
  split at h
  · rename_i hnone
    refine absurd ?_ (changeOwner_none hnone)
    rw [← ownerClaims_ids, ← hid]
    exact List.mem_map_of_mem hclaim
  · rename_i r role' hsome
    obtain ⟨_, howner, -⟩ := bind_ok h
    obtain ⟨hkey, hrole⟩ := ensure_ok.1 howner
    obtain ⟨-, hmem⟩ := changeOwner_some hsome
    rw [← ownerClaims_ids] at hids
    rw [List.inj_on_of_nodup_map hids hclaim hmem hid, hkey, hrole]

theorem validateReconcileChangeOwnership_each : ∀ {ds : List RemoteExportDesiredRecord},
    validateReconcileChangeOwnership old upserts ds = .ok () → ∀ d ∈ ds,
      validateChangeOwnership old upserts d d.upsert .upsert = .ok () ∧
        validateChangeOwnership old upserts d d.tombstone .tombstone = .ok ()
  | [], _, _, hd => by cases hd
  | d :: ds, h, q, hq => by
    obtain ⟨_, -, h⟩ := bind_ok h
    obtain ⟨_, hupsert, h⟩ := bind_ok h
    obtain ⟨_, htombstone, h⟩ := bind_ok h
    rcases List.mem_cons.1 hq with rfl | hq
    · exact ⟨hupsert, htombstone⟩
    · exact validateReconcileChangeOwnership_each h q hq

/-- **Every change id has one owner** among the current and the desired records. -/
theorem exists_owner {ds : List RemoteExportDesiredRecord} (hold : (ownedIds old).Nodup)
    (hds : (desiredIds ds).Nodup) (h : validateReconcileChangeOwnership old upserts ds = .ok ()) :
    ∃ own, (∀ r ∈ old, Owned own r) ∧ ∀ d ∈ ds, OwnedDesired own d := by
  have hcross : ∀ a ∈ ownerClaims old, ∀ b ∈ desiredClaims ds, a.1 = b.1 → a.2 = b.2 := by
    intro a ha b hb hid
    obtain ⟨d, hd, hb⟩ := List.mem_flatMap.1 hb
    obtain ⟨hupsert, htombstone⟩ := validateReconcileChangeOwnership_each h d hd
    rcases List.mem_pair.1 hb with rfl | rfl
    · exact validateChangeOwnership_claims hold hupsert ha hid
    · exact validateChangeOwnership_claims hold htombstone ha hid
  rw [← ownerClaims_ids] at hold
  rw [← desiredClaims_ids] at hds
  obtain ⟨own, hown⟩ : ∃ own : OwnerOf, ∀ a ∈ ownerClaims old ++ desiredClaims ds, own a.1 = a.2 := by
    refine exists_function_of_claims fun a ha b hb hid => ?_
    rcases List.mem_append.1 ha with ha | ha <;> rcases List.mem_append.1 hb with hb | hb
    · rw [List.inj_on_of_nodup_map hold ha hb hid]
    · exact hcross a ha b hb hid
    · exact (hcross b hb a ha hid.symm).symm
    · rw [List.inj_on_of_nodup_map hds ha hb hid]
  refine ⟨own, fun r hr => ⟨?_, ?_⟩, fun d hd => ⟨?_, ?_⟩⟩
  · exact hown (r.currentChangeId, r.logicalKey, .upsert)
      (List.mem_append_left _ (List.mem_flatMap.2 ⟨r, hr, by simp⟩))
  · exact hown (r.tombstone.changeId, r.logicalKey, .tombstone)
      (List.mem_append_left _ (List.mem_flatMap.2 ⟨r, hr, by simp⟩))
  · exact hown (d.upsert.changeId, d.logicalKey, .upsert)
      (List.mem_append_right _ (List.mem_flatMap.2 ⟨d, hd, by simp⟩))
  · exact hown (d.tombstone.changeId, d.logicalKey, .tombstone)
      (List.mem_append_right _ (List.mem_flatMap.2 ⟨d, hd, by simp⟩))

theorem validateChangeOwnership_yields (h : Holds upserts old) (d : RemoteExportDesiredRecord)
    (c : RemoteExportChange) (role : MaterializedChangeRole) :
    Yields (validateChangeOwnership old upserts d c role) (Declared store) fun _ => True := by
  unfold validateChangeOwnership
  split
  · exact yields_ok trivial
  · rename_i r role' hsome
    refine Yields.bind (yields_ensure (.inr .owner)) fun _ _ => ?_
    cases role with
    | upsert =>
      obtain ⟨upsert, hupsert, -⟩ := h.upsert r (changeOwner_some hsome).1
      simp only [hupsert, okOr, ok_bind]
      exact (yields_ensure (.inr .reusedByOwner)).mono (fun _ h => h) fun _ _ => trivial
    | tombstone =>
      exact (yields_ensure (.inr .reusedByOwner)).mono (fun _ h => h) fun _ _ => trivial

/-- **The ownership check** of a valid state fails for declared reasons only. -/
theorem validateReconcileChangeOwnership_yields (h : Holds upserts old) :
    ∀ {ds : List RemoteExportDesiredRecord},
    Yields (validateReconcileChangeOwnership old upserts ds) (Declared store) fun _ => True
  | [] => yields_ok trivial
  | d :: ds => by
    exact Yields.bind (yields_ensure (.inr .expiry)) fun _ _ =>
      Yields.bind (validateChangeOwnership_yields h d _ _) fun _ _ =>
      Yields.bind (validateChangeOwnership_yields h d _ _) fun _ _ =>
      validateReconcileChangeOwnership_yields h

/-! ## The merge -/

/-- A record of the next set, with the upsert the merge keeps for it. -/
structure PendingOk (own : OwnerOf) (p : PendingMaterializedRecord) : Prop where
  record : RecordOk p.stored
  owned : Owned own p.stored
  id : p.upsert.changeId = p.stored.currentChangeId
  valid : p.upsert.validate = .ok ()

/-- The accumulators of the merge: one transition and one record for a key, in order. -/
structure MergeOk (own : OwnerOf) (m : Merge) : Prop where
  transitions : m.transitions.Pairwise fun a b =>
    (own a.change.changeId).1 < (own b.change.changeId).1
  changes : ∀ t ∈ m.transitions, t.change.validate = .ok ()
  pending : m.pending.Pairwise fun p q => p.stored.logicalKey < q.stored.logicalKey
  each : ∀ p ∈ m.pending, PendingOk own p

/-- The merge has come to keys below `k`. -/
structure Before (own : OwnerOf) (m : Merge) (k : String) : Prop where
  transitions : ∀ t ∈ m.transitions, (own t.change.changeId).1 < k
  pending : ∀ p ∈ m.pending, p.stored.logicalKey < k

section
variable {own : OwnerOf} {m : Merge} {k k' : String}

theorem MergeOk.empty : MergeOk own {} := ⟨.nil, by simp, .nil, by simp⟩

theorem Before.empty : Before own {} k := ⟨by simp, by simp⟩

theorem MergeOk.add (h : MergeOk own m) (hbefore : Before own m k) {ts : List ReconcileTransition}
    {ps : List PendingMaterializedRecord} (hts : ts.length ≤ 1) (hps : ps.length ≤ 1)
    (ht : ∀ t ∈ ts, (own t.change.changeId).1 = k ∧ t.change.validate = .ok ())
    (hp : ∀ p ∈ ps, p.stored.logicalKey = k ∧ PendingOk own p) :
    MergeOk own ⟨m.transitions ++ ts, m.pending ++ ps⟩ := by
  have hshort : ∀ {α : Type} (R : α → α → Prop) (l : List α), l.length ≤ 1 → l.Pairwise R := by
    intro α R l hl
    match l, hl with
    | [], _ => exact .nil
    | [a], _ => exact List.pairwise_singleton R a
  refine ⟨?_, fun t hmem => ?_, ?_, fun p hmem => ?_⟩
  · rw [List.pairwise_append]
    refine ⟨h.transitions, hshort _ ts hts, fun a ha b hb => ?_⟩
    rw [(ht b hb).1]
    exact hbefore.transitions a ha
  · rcases List.mem_append.1 hmem with hmem | hmem
    · exact h.changes t hmem
    · exact (ht t hmem).2
  · rw [List.pairwise_append]
    refine ⟨h.pending, hshort _ ps hps, fun p hpm q hq => ?_⟩
    rw [(hp q hq).1]
    exact hbefore.pending p hpm
  · rcases List.mem_append.1 hmem with hmem | hmem
    · exact h.each p hmem
    · exact (hp p hmem).2

theorem Before.add (h : Before own m k) (hlt : k < k') {ts : List ReconcileTransition}
    {ps : List PendingMaterializedRecord} (ht : ∀ t ∈ ts, (own t.change.changeId).1 = k)
    (hp : ∀ p ∈ ps, p.stored.logicalKey = k) :
    Before own ⟨m.transitions ++ ts, m.pending ++ ps⟩ k' := by
  refine ⟨fun t hmem => ?_, fun p hmem => ?_⟩
  · rcases List.mem_append.1 hmem with hmem | hmem
    · exact (h.transitions t hmem).trans hlt
    · rw [ht t hmem]
      exact hlt
  · rcases List.mem_append.1 hmem with hmem | hmem
    · exact (h.pending p hmem).trans hlt
    · rw [hp p hmem]
      exact hlt

/-- What the merge of key `k` does: at most one transition and one record of that key. -/
structure Adds (own : OwnerOf) (k : String) (n : Nat) (m m' : Merge) : Prop where
  merged : ∃ ts ps, m' = ⟨m.transitions ++ ts, m.pending ++ ps⟩ ∧ ts.length ≤ 1 ∧ ps.length ≤ n ∧
    (∀ t ∈ ts, (own t.change.changeId).1 = k ∧ t.change.validate = .ok ()) ∧
    ∀ p ∈ ps, p.stored.logicalKey = k ∧ PendingOk own p
  few : n ≤ 1

theorem Adds.mergeOk {n : Nat} {m' : Merge} (h : Adds own k n m m') (hm : MergeOk own m)
    (hbefore : Before own m k) : MergeOk own m' := by
  obtain ⟨ts, ps, rfl, hts, hps, ht, hp⟩ := h.merged
  exact hm.add hbefore hts (hps.trans h.few) ht hp

theorem Adds.before {n : Nat} {m' : Merge} (h : Adds own k n m m') (hbefore : Before own m k)
    (hlt : k < k') : Before own m' k' := by
  obtain ⟨ts, ps, rfl, -, -, ht, hp⟩ := h.merged
  exact hbefore.add hlt (fun t hmem => (ht t hmem).1) fun p hmem => (hp p hmem).1

theorem Adds.length {n : Nat} {m' : Merge} (h : Adds own k n m m') :
    m'.pending.length ≤ m.pending.length + n := by
  obtain ⟨ts, ps, rfl, -, hps, -⟩ := h.merged
  rw [List.length_append]
  omega

end

section
variable {own : OwnerOf} {previousUpserts : ChangeMap} {mode : RemoteExportReconcileMode}
  {trustedAt : DateTime}

theorem adds_nothing {k : String} {n : Nat} (hn : n ≤ 1) (m : Merge) : Adds own k n m m :=
  ⟨⟨[], [], by simp, by simp, by simp, by simp, by simp⟩, hn⟩

theorem adds_tombstone {old : StoredMaterializedRecord} (hrecord : RecordOk old)
    (howned : Owned own old) {n : Nat} (hn : n ≤ 1) (kind : ReconcileTransitionKind) (m : Merge) :
    Adds own old.logicalKey n m
      { m with transitions := m.transitions ++ [⟨kind, false, old.tombstone⟩] } := by
  refine ⟨⟨[⟨kind, false, old.tombstone⟩], [], by simp, by simp, by simp, ?_, by simp⟩, hn⟩
  simp [howned.tombstone, hrecord.tombstone]

theorem adds_record {p : PendingMaterializedRecord} (hp : PendingOk own p) (m : Merge)
    {ts : List ReconcileTransition} (hts : ts.length ≤ 1) (ht : ∀ t ∈ ts, t.change = p.upsert) :
    Adds own p.stored.logicalKey 1 m ⟨m.transitions ++ ts, m.pending ++ [p]⟩ := by
  refine ⟨⟨ts, [p], rfl, hts, by simp, fun t hmem => ?_, by simp [hp]⟩, Nat.le_refl 1⟩
  rw [ht t hmem, hp.id, hp.owned.current]
  exact ⟨rfl, hp.valid⟩

/-- The records of omitted keys that a mode keeps. -/
def kept (mode : RemoteExportReconcileMode) : Nat :=
  match mode with
  | .upsertOnly => 1
  | .authoritative => 0

/-- A current record whose upsert was captured. -/
structure Carried (own : OwnerOf) (previousUpserts : ChangeMap) (old : StoredMaterializedRecord) :
    Prop where
  record : RecordOk old
  owned : Owned own old
  upsert : ∃ c, previousUpserts.lookup old.logicalKey = some c ∧
    c.changeId = old.currentChangeId ∧ c.validate = .ok ()

theorem mergeOldRecord_yields {old : StoredMaterializedRecord} (h : Carried own previousUpserts old)
    (m : Merge) {D : String → Prop} :
    Yields (mergeOldRecord s previousUpserts mode trustedAt old m) D
      (Adds own old.logicalKey (kept mode) m) := by
  have hkept : kept mode ≤ 1 := by cases mode <;> simp [kept]
  unfold mergeOldRecord mergeExpiredOldRecord mergeOmittedOldRecord
  split
  · exact yields_ok (adds_tombstone h.record h.owned hkept _ m)
  · split
    · exact yields_ok (adds_tombstone h.record h.owned hkept _ m)
    · have hone : kept mode = 1 := by cases mode <;> simp_all [kept]
      obtain ⟨c, hc, hid, hvalid⟩ := h.upsert
      rw [hone, hc]
      have hp : ∀ transition, PendingOk own ⟨old, c, transition⟩ :=
        fun _ => ⟨h.record, h.owned, hid, hvalid⟩
      split
      · have := adds_record (hp none) m (show ([] : List ReconcileTransition).length ≤ 1 by simp)
          (by simp)
        exact yields_pure (by simpa using this)
      · exact yields_pure (adds_record (hp _) m (Nat.le_refl 1) (by simp))

theorem mergeDesiredRecord_adds (hvalid : d.validate = .ok ()) (howned : OwnedDesired own d)
    (old : Option StoredMaterializedRecord) (m : Merge) :
    Adds own d.logicalKey 1 m (mergeDesiredRecord old d s m) := by
  obtain ⟨hkey, hupsert, htombstone, -⟩ := RemoteExportDesiredRecord.validate_ok hvalid
  have hid : validateChangeId d.upsert.changeId = .ok () := by
    obtain ⟨_, hid, -⟩ := bind_ok hupsert
    exact hid
  have hp : ∀ n transition, PendingOk own ⟨⟨d.logicalKey, d.expiresAt, d.upsert.changeId, n,
      d.tombstone⟩, d.upsert, transition⟩ := fun _ _ =>
    ⟨⟨hkey, hid, htombstone⟩, ⟨howned.upsert, howned.tombstone⟩, rfl, hupsert⟩
  unfold mergeDesiredRecord
  simp only
  split
  · have := adds_record (hp ((old.map (·.lastUpsertSequence)).getD 1) none) m
      (show ([] : List ReconcileTransition).length ≤ 1 by simp) (by simp)
    simpa using this
  · exact adds_record (hp _ _) m (Nat.le_refl 1) (by simp)

theorem mergeNewRecord_adds (hvalid : d.validate = .ok ()) (howned : OwnedDesired own d)
    (m : Merge) : Adds own d.logicalKey 1 m (mergeNewRecord s trustedAt d m) := by
  unfold mergeNewRecord
  split
  · exact mergeDesiredRecord_adds hvalid howned none m
  · exact adds_nothing (Nat.le_refl 1) m

theorem mergeBothRecords_adds {old : StoredMaterializedRecord} (hrecord : RecordOk old)
    (hold : Owned own old) (hvalid : d.validate = .ok ()) (howned : OwnedDesired own d)
    (hkey : old.logicalKey = d.logicalKey) (m : Merge) :
    Adds own d.logicalKey 1 m (mergeBothRecords s trustedAt old d m) := by
  unfold mergeBothRecords mergeExpiredOldRecord
  split
  · rw [← hkey]
    exact adds_tombstone hrecord hold (Nat.le_refl 1) _ m
  · exact mergeDesiredRecord_adds hvalid howned (some old) m

/-- The number of records the merge of these lists can leave. -/
def keptRecords (mode : RemoteExportReconcileMode) (olds : List StoredMaterializedRecord)
    (nexts : List RemoteExportDesiredRecord) : Nat :=
  kept mode * olds.length + nexts.length

/-- **The merge** never fails and leaves its accumulators in order. -/
theorem mergeRecords_yields {D : String → Prop} : ∀ {fuel : Nat}
    {olds : List StoredMaterializedRecord} {nexts : List RemoteExportDesiredRecord} {m : Merge},
    SortedOld olds → SortedDesired nexts → (∀ r ∈ olds, Carried own previousUpserts r) →
    (∀ d ∈ nexts, d.validate = .ok () ∧ OwnedDesired own d) → MergeOk own m →
    (∀ r ∈ olds, Before own m r.logicalKey) → (∀ d ∈ nexts, Before own m d.logicalKey) →
    Yields (mergeRecords s previousUpserts mode trustedAt fuel olds nexts m) D fun m' =>
      MergeOk own m' ∧ m'.pending.length ≤ m.pending.length + keptRecords mode olds nexts
  | 0, _, _, m, _, _, _, _, hm, _, _ => yields_ok ⟨hm, Nat.le_add_right _ _⟩
  | _ + 1, [], [], m, _, _, _, _, hm, _, _ => yields_ok ⟨hm, Nat.le_add_right _ _⟩
  | fuel + 1, old :: olds, [], m, hsorted, hds, holds, hdesired, hm, hbefore, _ => by
    obtain ⟨hlt, hsorted⟩ := List.pairwise_cons.1 hsorted
    obtain ⟨hold, holds⟩ := List.forall_mem_cons.1 holds
    obtain ⟨hhead, hbefore⟩ := List.forall_mem_cons.1 hbefore
    refine Yields.bind (mergeOldRecord_yields hold m) fun m1 h1 => ?_
    refine (mergeRecords_yields hsorted hds holds hdesired (h1.mergeOk hm hhead)
      (fun r hr => h1.before hhead (hlt r hr)) (by simp)).mono (fun _ h => h) fun m' h' => ?_
    have := h1.length
    refine ⟨h'.1, h'.2.trans ?_⟩
    simp only [keptRecords, List.length_cons, Nat.mul_add]
    omega
  | fuel + 1, [], d :: nexts, m, hsorted, hds, holds, hdesired, hm, _, hbefore => by
    obtain ⟨hlt, hds⟩ := List.pairwise_cons.1 hds
    obtain ⟨hd, hdesired⟩ := List.forall_mem_cons.1 hdesired
    obtain ⟨hhead, hbefore⟩ := List.forall_mem_cons.1 hbefore
    have h1 : Adds own d.logicalKey 1 m (mergeNewRecord s trustedAt d m) :=
      mergeNewRecord_adds hd.1 hd.2 m
    refine (mergeRecords_yields hsorted hds holds hdesired (h1.mergeOk hm hhead) (by simp)
      (fun q hq => h1.before hhead (hlt q hq))).mono (fun _ h => h) fun m' h' => ?_
    have := h1.length
    refine ⟨h'.1, h'.2.trans ?_⟩
    simp only [keptRecords, List.length_cons]
    omega
  | fuel + 1, old :: olds, d :: nexts, m, hsorted, hds, holds, hdesired, hm, hbefore, hbefore' => by
    obtain ⟨hlt, hsorted'⟩ := List.pairwise_cons.1 hsorted
    obtain ⟨hlt', hds'⟩ := List.pairwise_cons.1 hds
    obtain ⟨hold, holds'⟩ := List.forall_mem_cons.1 holds
    obtain ⟨hd, hdesired'⟩ := List.forall_mem_cons.1 hdesired
    have hhead := hbefore old List.mem_cons_self
    have hhead' := hbefore' d List.mem_cons_self
    simp only [mergeRecords]
    split
    · rename_i hcmp
      have hkeys : old.logicalKey < d.logicalKey := compare_lt_iff_lt.1 hcmp
      refine Yields.bind (mergeOldRecord_yields hold m) fun m1 h1 => ?_
      refine (mergeRecords_yields hsorted' hds holds' hdesired (h1.mergeOk hm hhead)
        (fun r hr => h1.before hhead (hlt r hr))
        (List.forall_mem_cons.2 ⟨h1.before hhead hkeys,
          fun q hq => h1.before hhead (hkeys.trans (hlt' q hq))⟩)).mono (fun _ h => h)
        fun m' h' => ?_
      have := h1.length
      refine ⟨h'.1, h'.2.trans ?_⟩
      simp only [keptRecords, List.length_cons, Nat.mul_add]
      omega
    · rename_i hcmp
      have hkeys : old.logicalKey = d.logicalKey := compare_eq_iff_eq.1 hcmp
      have h1 : Adds own d.logicalKey 1 m (mergeBothRecords s trustedAt old d m) :=
        mergeBothRecords_adds hold.record hold.owned hd.1 hd.2 hkeys m
      refine (mergeRecords_yields hsorted' hds' holds' hdesired' (h1.mergeOk hm hhead')
        (fun r hr => h1.before hhead' (hkeys ▸ hlt r hr))
        (fun q hq => h1.before hhead' (hlt' q hq))).mono (fun _ h => h) fun m' h' => ?_
      have := h1.length
      refine ⟨h'.1, h'.2.trans ?_⟩
      simp only [keptRecords, List.length_cons, Nat.mul_add]
      omega
    · rename_i hcmp
      have hkeys : d.logicalKey < old.logicalKey := compare_gt_iff_gt.1 hcmp
      have h1 : Adds own d.logicalKey 1 m (mergeNewRecord s trustedAt d m) :=
        mergeNewRecord_adds hd.1 hd.2 m
      refine (mergeRecords_yields hsorted hds' holds hdesired' (h1.mergeOk hm hhead')
        (List.forall_mem_cons.2 ⟨h1.before hhead' hkeys,
          fun r hr => h1.before hhead' (hkeys.trans (hlt r hr))⟩)
        (fun q hq => h1.before hhead' (hlt' q hq))).mono (fun _ h => h) fun m' h' => ?_
      have := h1.length
      refine ⟨h'.1, h'.2.trans ?_⟩
      simp only [keptRecords, List.length_cons]
      omega

end

end Export
