import UsageMonit.Replica.DigestRecords

/-!
# Replaying digest records

The records of a key are a register (`joinRecord`), and `applyDigestRecord` is the register of the
delivered key (`apply_join`). Deliveries of the same records in any order and with repetition succeed
and give the same records exactly when the horizon of a key does not shrink with the revision
(`digest_records_replayable`).
-/

namespace Replica

open Fallible Time

variable {r : SourceSessionDigestRecord} {delivered : Set SourceSessionDigestRecord}

/-- What a delivery makes of the record of its key; nothing is a conflict. -/
def joinRecord (existing : Option SourceSessionDigestRecord)
    (incoming : SourceSessionDigestRecord) : Option SourceSessionDigestRecord :=
  match existing with
  | none => some incoming
  | some existing =>
    if existing.revision < incoming.revision then
      some { incoming with
        retentionThrough := max incoming.retentionThrough existing.retentionThrough }
    else if incoming.revision < existing.revision then some existing
    else if incoming = existing then some existing
    else none

namespace DigestRecords

/-- The index has the position of each record, under its key. -/
def Indexed (s : DigestRecords) : Prop :=
  ∀ key i, s.recordIndex key = some i ↔ ∃ r, s.records[i]? = some r ∧ r.key = key

def lookup (s : DigestRecords) (key : DigestRecordKey) : Option SourceSessionDigestRecord :=
  (s.recordIndex key).bind fun i => s.records[i]?

theorem indexed_empty : Indexed {} := by
  intro key i
  simp

variable {s : DigestRecords}

theorem Indexed.lookup_eq_some (h : Indexed s) {key : DigestRecordKey} :
    s.lookup key = some r ↔ r ∈ s.records ∧ r.key = key := by
  constructor
  · intro hr
    obtain ⟨i, hi, hr⟩ := Option.bind_eq_some_iff.1 hr
    obtain ⟨r', hr', hkey⟩ := (h key i).1 hi
    obtain rfl : r' = r := Option.some.inj (hr'.symm.trans hr)
    exact ⟨List.mem_of_getElem? hr, hkey⟩
  · rintro ⟨hr, hkey⟩
    obtain ⟨i, hi⟩ := List.getElem?_of_mem hr
    rw [lookup, (h key i).2 ⟨r, hi, hkey⟩]
    exact hi

theorem Indexed.lookup_eq_none (h : Indexed s) {key : DigestRecordKey} :
    s.lookup key = none ↔ s.recordIndex key = none := by
  constructor
  · intro hnone
    cases hi : s.recordIndex key with
    | none => rfl
    | some i =>
      obtain ⟨r, hr, -⟩ := (h key i).1 hi
      rw [lookup, hi, Option.bind_some, hr] at hnone
      cases hnone
  · intro hnone
    rw [lookup, hnone]
    rfl

theorem Indexed.nodup (h : Indexed s) :
    (s.records.map SourceSessionDigestRecord.key).Nodup := by
  rw [List.nodup_iff_getElem?_ne_getElem?]
  intro i j hij hj heq
  rw [List.length_map] at hj
  have hi : i < s.records.length := hij.trans hj
  rw [List.getElem?_map, List.getElem?_map, List.getElem?_eq_getElem hi,
    List.getElem?_eq_getElem hj] at heq
  have hkeys : s.records[i].key = s.records[j].key := Option.some.inj heq
  have hposition := (h _ i).2 ⟨_, List.getElem?_eq_getElem hi, rfl⟩
  rw [hkeys, (h _ j).2 ⟨_, List.getElem?_eq_getElem hj, rfl⟩] at hposition
  have := Option.some.inj hposition
  omega

theorem Indexed.push (h : Indexed s) (hnew : s.recordIndex r.key = none) :
    Indexed {
      records := s.records ++ [r]
      recordIndex := Function.update s.recordIndex r.key (some s.records.length) } := by
  intro key i
  dsimp only
  by_cases hkey : key = r.key
  · subst hkey
    rw [Function.update_self, Option.some.injEq]
    constructor
    · rintro rfl
      exact ⟨r, by simp, rfl⟩
    · rintro ⟨r', hr', hkey⟩
      by_contra hi
      rw [List.getElem?_append] at hr'
      split at hr'
      · rw [(h r.key i).2 ⟨r', hr', hkey⟩] at hnew
        cases hnew
      · rw [List.getElem?_eq_none (by simp; omega)] at hr'
        cases hr'
  · rw [Function.update_of_ne hkey, h]
    constructor
    · rintro ⟨r', hr', hkey'⟩
      exact ⟨r', by rw [List.getElem?_append_left (List.getElem?_eq_some_iff.1 hr').1, hr'], hkey'⟩
    · rintro ⟨r', hr', hkey'⟩
      rw [List.getElem?_append] at hr'
      split at hr'
      · exact ⟨r', hr', hkey'⟩
      · exact absurd (List.mem_singleton.1 (List.mem_of_getElem? hr')) fun heq =>
          hkey (by rw [← hkey', heq])

theorem Indexed.set (h : Indexed s) {i : Nat} (hi : s.recordIndex r.key = some i) :
    Indexed { s with records := s.records.set i r } := by
  obtain ⟨old, hold, hkey⟩ := (h r.key i).1 hi
  have hlt := (List.getElem?_eq_some_iff.1 hold).1
  intro key j
  rw [h, List.getElem?_set]
  by_cases hij : i = j
  · subst hij
    rw [if_pos rfl, if_pos hlt, hold]
    simp [hkey]
  · rw [if_neg hij]

theorem Indexed.lookup_set (h : Indexed s) {i : Nat} (hi : s.recordIndex r.key = some i) :
    lookup { s with records := s.records.set i r } = Function.update s.lookup r.key (some r) := by
  obtain ⟨old, hold, -⟩ := (h r.key i).1 hi
  have hlt := (List.getElem?_eq_some_iff.1 hold).1
  funext key
  rw [Function.update_apply, lookup, lookup]
  split
  · rename_i hkey
    rw [hkey, hi, Option.bind_some, List.getElem?_set_self hlt]
  · rename_i hkey
    cases hj : s.recordIndex key with
    | none => rfl
    | some j =>
      have hij : i ≠ j := by
        rintro rfl
        obtain ⟨other, hother, hkeys⟩ := (h key i).1 hj
        obtain ⟨same, hsame, hkeys'⟩ := (h r.key i).1 hi
        obtain rfl := Option.some.inj (hother.symm.trans hsame)
        exact hkey (hkeys.symm.trans hkeys')
      rw [Option.bind_some, Option.bind_some, List.getElem?_set_ne hij]

theorem Indexed.lookup_ext {s' : DigestRecords} (h' : Indexed s')
    {f : DigestRecordKey → Option SourceSessionDigestRecord}
    (hf : ∀ key r, (r ∈ s'.records ∧ r.key = key) ↔ f key = some r) : s'.lookup = f := by
  refine funext fun key => Option.ext fun r => ?_
  rw [h'.lookup_eq_some]
  exact hf key r

end DigestRecords

open DigestRecords

section
variable (toRfc3339 : DateTime → String) {s : DigestRecords}
  {incoming : SourceSessionDigestRecord}

/-- **A delivery is the register of its key.** -/
theorem apply_join (hs : s.Indexed) (hvalid : incoming.validate = .ok ()) :
    match joinRecord (s.lookup incoming.key) incoming with
    | none => ∃ e, applyDigestRecord toRfc3339 s incoming = .error e
    | some joined => ∃ s' changed, applyDigestRecord toRfc3339 s incoming = .ok (s', changed) ∧
        s'.Indexed ∧ s'.lookup = Function.update s.lookup incoming.key (some joined) := by
  unfold applyDigestRecord
  rw [hvalid, ok_bind]
  cases hindex : s.recordIndex incoming.key with
  | none =>
    rw [hs.lookup_eq_none.2 hindex]
    have hpush := hs.push hindex
    refine ⟨_, _, rfl, hpush, hpush.lookup_ext fun key r => ?_⟩
    rw [List.mem_append, List.mem_singleton, Function.update_apply]
    split
    · rename_i hkey
      subst hkey
      constructor
      · rintro ⟨hr | rfl, hkey⟩
        · have hnone := hs.lookup_eq_none.2 hindex
          rw [hs.lookup_eq_some.2 ⟨hr, hkey⟩] at hnone
          cases hnone
        · rfl
      · intro hr
        obtain rfl := Option.some.inj hr
        exact ⟨.inr rfl, rfl⟩
    · rename_i hkey
      rw [hs.lookup_eq_some]
      constructor
      · rintro ⟨hr | rfl, hkey'⟩
        · exact ⟨hr, hkey'⟩
        · exact absurd hkey'.symm hkey
      · rintro ⟨hr, hkey'⟩
        exact ⟨.inl hr, hkey'⟩
  | some i =>
    obtain ⟨existing, hexisting, hkey⟩ := (hs _ i).1 hindex
    have hlookup : s.lookup incoming.key = some existing := by
      rw [lookup, hindex]
      exact hexisting
    have hunchanged : s.lookup = Function.update s.lookup incoming.key (some existing) := by
      rw [← hlookup, Function.update_eq_self]
    rw [hlookup, joinRecord]
    simp only [hexisting, okOr, ok_bind]
    split_ifs with hnewer holder hsame
    · have hset := hs.set (r := { incoming with
        retentionThrough := max incoming.retentionThrough existing.retentionThrough }) hindex
      exact ⟨_, _, rfl, hset, hs.lookup_set (r := { incoming with
        retentionThrough := max incoming.retentionThrough existing.retentionThrough }) hindex⟩
    · exact ⟨s, false, rfl, hs, hunchanged⟩
    · rw [ensure_of hsame]
      exact ⟨s, false, rfl, hs, hunchanged⟩
    · rw [ensure, if_neg hsame]
      exact ⟨_, rfl⟩

end

/-! ## Any order of deliveries -/

/-- Two records of one key and revision are the same. -/
def Consistent (S : Set SourceSessionDigestRecord) : Prop :=
  ∀ d ∈ S, ∀ d' ∈ S, d.key = d'.key → d.revision = d'.revision → d = d'

/-- The horizon of a key does not shrink with the revision. -/
def RetentionGrows (S : Set SourceSessionDigestRecord) : Prop :=
  ∀ d ∈ S, ∀ d' ∈ S, d.key = d'.key → d.revision < d'.revision →
    d.retentionThrough ≤ d'.retentionThrough

/-- The record of the highest revision among those delivered under a key. -/
def Latest (delivered : Set SourceSessionDigestRecord) (key : DigestRecordKey) :
    Option SourceSessionDigestRecord → Prop
  | none => ∀ d ∈ delivered, d.key ≠ key
  | some r => r ∈ delivered ∧ r.key = key ∧ ∀ d ∈ delivered, d.key = key → d.revision ≤ r.revision

theorem joinRecord_latest {S : Set SourceSessionDigestRecord}
    {existing : Option SourceSessionDigestRecord} {incoming : SourceSessionDigestRecord}
    (hconsistent : Consistent S) (hgrows : RetentionGrows S) (hsub : delivered ⊆ S)
    (hmem : incoming ∈ S) (hlatest : Latest delivered incoming.key existing) :
    ∃ joined, joinRecord existing incoming = some joined ∧
      Latest (insert incoming delivered) incoming.key (some joined) := by
  cases existing with
  | none =>
    refine ⟨incoming, rfl, Set.mem_insert _ _, rfl, fun d hd hkey => ?_⟩
    rcases hd with rfl | hd
    · exact le_rfl
    · exact absurd hkey (hlatest d hd)
  | some existing =>
    obtain ⟨hexisting, hkey, hmax⟩ := hlatest
    rw [joinRecord]
    split_ifs with hnewer holder hsame
    · have hretention := hgrows existing (hsub hexisting) incoming hmem hkey hnewer
      rw [max_eq_left hretention]
      refine ⟨incoming, rfl, Set.mem_insert _ _, rfl, fun d hd hdkey => ?_⟩
      rcases hd with rfl | hd
      · exact le_rfl
      · exact (hmax d hd hdkey).trans hnewer.le
    · refine ⟨existing, rfl, Set.mem_insert_of_mem _ hexisting, hkey, fun d hd hdkey => ?_⟩
      rcases hd with rfl | hd
      · exact holder.le
      · exact hmax d hd hdkey
    · refine ⟨existing, rfl, Set.mem_insert_of_mem _ hexisting, hkey, fun d hd hdkey => ?_⟩
      rcases hd with rfl | hd
      · exact (congrArg SourceSessionDigestRecord.revision hsame).le
      · exact hmax d hd hdkey
    · exact absurd (hconsistent incoming hmem existing (hsub hexisting) hkey.symm (by omega)) hsame

theorem Latest.insert_other {key : DigestRecordKey} {o : Option SourceSessionDigestRecord}
    {incoming : SourceSessionDigestRecord} (h : Latest delivered key o)
    (hkey : key ≠ incoming.key) : Latest (insert incoming delivered) key o := by
  cases o with
  | none =>
    rintro d (rfl | hd)
    · exact hkey.symm
    · exact h d hd
  | some r =>
    obtain ⟨hr, hrkey, hmax⟩ := h
    refine ⟨Set.mem_insert_of_mem _ hr, hrkey, ?_⟩
    rintro d (rfl | hd) hdkey
    · exact absurd hdkey.symm hkey
    · exact hmax d hd hdkey

section
variable (toRfc3339 : DateTime → String) {S : Set SourceSessionDigestRecord}

/-- **A run of deliveries** whose horizons grow has the latest record of each key. -/
theorem applyDigestRecords_latest (hvalid : ∀ d ∈ S, d.validate = .ok ())
    (hconsistent : Consistent S) (hgrows : RetentionGrows S)
    {deliveries : List SourceSessionDigestRecord} (hmem : ∀ d ∈ deliveries, d ∈ S)
    {s : DigestRecords} (hs : s.Indexed) (hsub : delivered ⊆ S)
    (hlatest : ∀ key, Latest delivered key (s.lookup key)) :
    ∃ s', applyDigestRecords toRfc3339 s deliveries = .ok s' ∧ s'.Indexed ∧
      ∀ key, Latest (delivered ∪ {d | d ∈ deliveries}) key (s'.lookup key) := by
  induction deliveries generalizing s delivered with
  | nil =>
    refine ⟨s, rfl, hs, fun key => ?_⟩
    simpa using hlatest key
  | cons incoming deliveries ih =>
    have hincoming := hmem incoming List.mem_cons_self
    obtain ⟨joined, hjoined, hnext⟩ :=
      joinRecord_latest hconsistent hgrows hsub hincoming (hlatest incoming.key)
    have hstep := apply_join toRfc3339 hs (hvalid incoming hincoming)
    rw [hjoined] at hstep
    obtain ⟨s₁, changed, happly, hs₁, hlookup⟩ := hstep
    obtain ⟨s', hrun, hs', hlatest'⟩ := ih (fun d hd => hmem d (List.mem_cons_of_mem _ hd)) hs₁
      (Set.insert_subset hincoming hsub) fun key => by
        rw [hlookup, Function.update_apply]
        split
        · rename_i hkey
          exact hkey ▸ hnext
        · rename_i hkey
          exact (hlatest key).insert_other hkey
    refine ⟨s', ?_, hs', fun key => ?_⟩
    · rw [applyDigestRecords, List.foldlM_cons, happly]
      exact hrun
    · have hset : delivered ∪ {d | d ∈ incoming :: deliveries} =
          insert incoming delivered ∪ {d | d ∈ deliveries} := by
        ext d
        simp only [Set.mem_union, Set.mem_insert_iff, Set.mem_ofPred_eq, List.mem_cons]
        tauto
      rw [hset]
      exact hlatest' key

/-- The records of a replay: for each key the record of the highest revision, with the latest
horizon of the key. -/
structure IsReplayed (S : Set SourceSessionDigestRecord)
    (records : List SourceSessionDigestRecord) : Prop where
  nodup : (records.map SourceSessionDigestRecord.key).Nodup
  latest : ∀ r, r ∈ records ↔ ∃ d ∈ S, (∀ d' ∈ S, d'.key = d.key → d'.revision ≤ d.revision) ∧
    r = { d with retentionThrough := r.retentionThrough } ∧
    IsGreatest {t | ∃ d' ∈ S, d'.key = d.key ∧ d'.retentionThrough = t} r.retentionThrough

theorem isReplayed_of_latest (hconsistent : Consistent S) (hgrows : RetentionGrows S)
    {s : DigestRecords} (hs : s.Indexed) (hlatest : ∀ key, Latest S key (s.lookup key)) :
    IsReplayed S s.records := by
  -- the horizon of the highest revision is the latest one
  have hgreatest : ∀ d ∈ S, (∀ d' ∈ S, d'.key = d.key → d'.revision ≤ d.revision) →
      IsGreatest {t | ∃ d' ∈ S, d'.key = d.key ∧ d'.retentionThrough = t} d.retentionThrough := by
    intro d hd hmax
    refine ⟨⟨d, hd, rfl, rfl⟩, ?_⟩
    rintro _ ⟨d', hd', hkey, rfl⟩
    rcases (hmax d' hd' hkey).lt_or_eq with hlt | heq
    · exact hgrows d' hd' d hd hkey hlt
    · exact (congrArg SourceSessionDigestRecord.retentionThrough
        (hconsistent d' hd' d hd hkey heq)).le
  refine ⟨hs.nodup, fun r => ⟨fun hr => ?_, ?_⟩⟩
  · have hkey := hlatest r.key
    rw [hs.lookup_eq_some.2 ⟨hr, rfl⟩] at hkey
    obtain ⟨hmem, -, hmax⟩ := hkey
    exact ⟨r, hmem, hmax, rfl, hgreatest r hmem hmax⟩
  · rintro ⟨d, hd, hmax, hr, hbound⟩
    obtain rfl : r = d := by
      rw [hr, hbound.unique (hgreatest d hd hmax)]
    have hkey := hlatest r.key
    cases hlookup : s.lookup r.key with
    | none =>
      rw [hlookup] at hkey
      exact absurd rfl (hkey r hd)
    | some r' =>
      rw [hlookup] at hkey
      obtain ⟨hmem, hrkey, hmax'⟩ := hkey
      obtain rfl : r' = r := hconsistent r' hmem r hd hrkey
        (le_antisymm (hmax r' hmem hrkey) (hmax' r hd rfl))
      exact (hs.lookup_eq_some.1 hlookup).1

/-- A record, a newer one with an earlier horizon, and the newer one again. -/
theorem apply_shrinking {d d' : SourceSessionDigestRecord} (hd : d.validate = .ok ())
    (hd' : d'.validate = .ok ()) (hkey : d.key = d'.key) (hrevision : d.revision < d'.revision)
    (hretention : d'.retentionThrough < d.retentionThrough)
    (rest : List SourceSessionDigestRecord) :
    ∃ e, applyDigestRecords toRfc3339 {} (d :: d' :: d' :: rest) = .error e := by
  have hfirst := apply_join toRfc3339 indexed_empty hd
  obtain ⟨s₁, _, happly₁, hs₁, hlookup₁⟩ := hfirst
  have hsecond := apply_join toRfc3339 hs₁ hd'
  have hold : s₁.lookup d'.key = some d := by
    rw [hlookup₁, ← hkey, Function.update_self]
  have hraised : joinRecord (some d) d' =
      some { d' with retentionThrough := d.retentionThrough } := by
    rw [joinRecord, if_pos hrevision, max_eq_right hretention.le]
  rw [hold, hraised] at hsecond
  obtain ⟨s₂, _, happly₂, hs₂, hlookup₂⟩ := hsecond
  have hthird := apply_join toRfc3339 hs₂ hd'
  have hconflict : joinRecord (some { d' with retentionThrough := d.retentionThrough }) d' =
      none := by
    have hne : d' ≠ { d' with retentionThrough := d.retentionThrough } := by
      intro heq
      have hsame := congrArg SourceSessionDigestRecord.retentionThrough heq
      exact hretention.ne hsame
    rw [joinRecord, if_neg (lt_irrefl _), if_neg (lt_irrefl _), if_neg hne]
  rw [hlookup₂, Function.update_self, hconflict] at hthird
  obtain ⟨e, happly₃⟩ := hthird
  refine ⟨e, ?_⟩
  simp only [applyDigestRecords, List.foldlM_cons, happly₁, happly₂, happly₃, Functor.map,
    Except.map, ok_bind, error_bind]

end

/-- **When digest records can be replayed**: deliveries of consistent records in any order and with
repetition succeed and give the highest revision of each key with its latest horizon exactly when the
horizon of a key does not shrink with the revision. -/
theorem digest_records_replayable {toRfc3339 : DateTime → String}
    {records : List SourceSessionDigestRecord} (hvalid : ∀ d ∈ records, d.validate = .ok ())
    (hconsistent : Consistent {d | d ∈ records}) :
    (∀ deliveries : List SourceSessionDigestRecord, (∀ d, d ∈ deliveries ↔ d ∈ records) →
      ∃ s, applyDigestRecords toRfc3339 {} deliveries = .ok s ∧
        IsReplayed {d | d ∈ records} s.records) ↔ RetentionGrows {d | d ∈ records} := by
  constructor
  · intro hreplay d hd d' hd' hkey hrevision
    by_contra hretention
    obtain ⟨e, herror⟩ := apply_shrinking toRfc3339 (hvalid d hd) (hvalid d' hd')
      hkey hrevision (not_le.1 hretention) records
    obtain ⟨s, hok, -⟩ := hreplay (d :: d' :: d' :: records) fun x => by
      simp only [List.mem_cons]
      constructor
      · rintro (rfl | rfl | rfl | hx)
        · exact hd
        · exact hd'
        · exact hd'
        · exact hx
      · exact fun hx => .inr (.inr (.inr hx))
    rw [herror] at hok
    cases hok
  · intro hgrows deliveries hsame
    obtain ⟨s, hrun, hs, hlatest⟩ := applyDigestRecords_latest toRfc3339
      (S := {d | d ∈ records}) hvalid hconsistent hgrows (fun d hd => (hsame d).1 hd) indexed_empty
      (Set.empty_subset _) fun key d hd => absurd hd (Set.notMem_empty d)
    have hset : (∅ : Set SourceSessionDigestRecord) ∪ {d | d ∈ deliveries} = {d | d ∈ records} := by
      ext d
      simp [hsame]
    rw [hset] at hlatest
    exact ⟨s, hrun, isReplayed_of_latest hconsistent hgrows hs hlatest⟩

namespace Sample

/-- A tombstone of one day. -/
def tombstone (retention revision : Nat) : SourceSessionDigestRecord where
  threadId := "t"
  rangeStart := 0
  rangeEnd := days 1
  changedAt := 0
  retentionThrough := days retention
  revision
  change := .tombstone

end Sample

theorem digest_records_replayed_sample :
    ∃ s, applyDigestRecords (fun _ => "") {} [Sample.tombstone 2 2, Sample.tombstone 1 1,
      Sample.tombstone 2 2] = .ok s ∧
      IsReplayed {d | d ∈ [Sample.tombstone 1 1, Sample.tombstone 2 2]} s.records := by
  have hgrows : RetentionGrows {d | d ∈ [Sample.tombstone 1 1, Sample.tombstone 2 2]} := by
    simp only [RetentionGrows, Set.mem_ofPred_eq]
    decide
  refine (digest_records_replayable (by decide) ?_).2 hgrows _ ?_
  · simp only [Consistent, Set.mem_ofPred_eq]
    decide
  · simp [or_comm]

/-- A newer tombstone with an earlier horizon is refused when it is delivered again, and without
that the horizon depends on the order. -/
theorem redelivered_digest_refused :
    (∃ e, applyDigestRecords (fun _ => "") {} [Sample.tombstone 3 1, Sample.tombstone 1 2,
      Sample.tombstone 1 2] = .error e) ∧
    (applyDigestRecords (fun _ => "") {} [Sample.tombstone 3 1, Sample.tombstone 1 2]).map
      (·.records) = .ok [Sample.tombstone 3 2] ∧
    (applyDigestRecords (fun _ => "") {} [Sample.tombstone 1 2, Sample.tombstone 3 1]).map
      (·.records) = .ok [Sample.tombstone 1 2] := by
  refine ⟨@apply_shrinking (fun _ => "") (Sample.tombstone 3 1) (Sample.tombstone 1 2) (by decide)
    (by decide) rfl (by decide) (by decide) [], ?_, ?_⟩
  · rfl
  · rfl

end Replica
