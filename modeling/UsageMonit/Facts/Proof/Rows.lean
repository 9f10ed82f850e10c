import UsageMonit.Facts.Run

/-!
# Rows of generations

The records that staging writes have one row for each event (`stageCandidate_matches`), and a
write to one namespace leaves the rows of the others as they were.
-/

namespace Facts

open Fallible Time

variable {φ β : Type} {records : List (UsageEventFactRecord φ)}

/-! ## The table -/

section
variable (db : FactDatabase φ β) {ns ns' : FactNamespace}

theorem rows_filter {records : List (HistoryRow φ)} {p : HistoryRow φ → Bool}
    (h : ∀ row ∈ records, row.nspace = ns → p row = true) :
    (records.filter p).filter (fun row => decide (row.nspace = ns)) =
      records.filter fun row => decide (row.nspace = ns) := by
  rw [List.filter_filter]
  refine List.filter_congr fun row hrow => ?_
  by_cases hns : row.nspace = ns
  · rw [h row hrow hns, Bool.and_true]
  · simp [hns]

theorem rows_putRecord_of_ne (h : ns' ≠ ns) (record : UsageEventFactRecord φ) :
    (db.putRecord ns record).rows ns' = db.rows ns' := by
  unfold FactDatabase.rows FactDatabase.putRecord
  rw [List.filter_append, rows_filter fun row _ hrow => by simp [hrow, h]]
  simp [h.symm]

theorem rows_putRecord_of_fresh {record : UsageEventFactRecord φ}
    (h : record.eventId ∉ (db.rows ns).map (·.eventId)) :
    (db.putRecord ns record).rows ns = db.rows ns ++ [record] := by
  unfold FactDatabase.rows FactDatabase.putRecord
  rw [List.filter_append, rows_filter fun row hrow hns => ?_]
  · simp
  · refine decide_eq_true fun heq => h ?_
    refine List.mem_map.2 ⟨row.record, ?_, heq.2⟩
    exact List.mem_map_of_mem (List.mem_filter.2 ⟨hrow, decide_eq_true hns⟩)

theorem rows_putRecords_of_ne (h : ns' ≠ ns) (records : List (UsageEventFactRecord φ)) :
    (db.putRecords ns records).rows ns' = db.rows ns' := by
  induction records generalizing db with
  | nil => rfl
  | cons record records ih =>
    rw [FactDatabase.putRecords, ih, rows_putRecord_of_ne db h]

theorem rows_putRecords (h : ((db.rows ns ++ records).map (·.eventId)).Nodup) :
    (db.putRecords ns records).rows ns = db.rows ns ++ records := by
  induction records generalizing db with
  | nil => simp [FactDatabase.putRecords]
  | cons record records ih =>
    have hfresh : record.eventId ∉ (db.rows ns).map (·.eventId) := by
      rw [List.map_append, List.nodup_append] at h
      intro hmem
      exact h.2.2 _ hmem _ (by simp) rfl
    rw [FactDatabase.putRecords, ih, rows_putRecord_of_fresh db hfresh]
    · simp
    · rw [rows_putRecord_of_fresh db hfresh]
      simpa using h

@[simp] theorem putRecords_states : (db.putRecords ns records).manifests = db.manifests ∧
    (db.putRecords ns records).staged = db.staged ∧
      (db.putRecords ns records).progress = db.progress := by
  induction records generalizing db with
  | nil => exact ⟨rfl, rfl, rfl⟩
  | cons record records ih => exact ih _

theorem rows_deleteNamespace_of_ne (h : ns' ≠ ns) :
    (db.deleteNamespace ns).rows ns' = db.rows ns' := by
  unfold FactDatabase.rows FactDatabase.deleteNamespace
  rw [rows_filter fun row _ hrow => by simp [hrow, h]]

end

/-! ## Records -/

theorem recordDays_perm {rs rs' : List (UsageEventFactRecord φ)} (h : rs.Perm rs') :
    recordDays rs = recordDays rs' := by
  have hset : recordDaySet rs = recordDaySet rs' := List.toFinset_eq_of_perm _ _ (h.map _)
  rw [recordDays, recordDays, hset]

theorem sortFactRecords_perm (rs : List (UsageEventFactRecord φ)) : (sortFactRecords rs).Perm rs :=
  List.perm_insertionSort _ _

theorem readRecords_perm (db : FactDatabase φ β) (ns : FactNamespace) :
    (db.readRecords ns).Perm (db.rows ns) :=
  List.perm_insertionSort _ _

theorem Matches.perm {rs rs' : List (UsageEventFactRecord φ)} {count : Nat}
    {shardDays : List NaiveDate} (h : Matches rs count shardDays) (hp : rs.Perm rs') :
    Matches rs' count shardDays := by
  refine ⟨hp.length_eq.symm.trans h.1, (recordDays_perm hp).symm.trans h.2.1, ?_⟩
  exact (hp.map _).nodup_iff.1 h.2.2

section
variable {env : StoreEnv φ β}

theorem checkGenerationRecords_nodup {manifest : ActiveFactManifest β} {ids : List UsageEventId}
    (h : checkGenerationRecords env manifest ids records = .ok ()) :
    (records.map (·.eventId)).Nodup ∧ ∀ record ∈ records, record.eventId ∉ ids := by
  induction records generalizing ids with
  | nil => simp
  | cons record records ih =>
    obtain ⟨_, -, h⟩ := bind_ok h
    obtain ⟨_, hid, h⟩ := bind_ok h
    obtain ⟨_, -, h⟩ := bind_ok h
    have hid := ensure_ok.1 hid
    obtain ⟨hnodup, hrest⟩ := ih h
    refine ⟨?_, ?_⟩
    · rw [List.map_cons, List.nodup_cons]
      refine ⟨fun hmem => ?_, hnodup⟩
      obtain ⟨r, hr, heq⟩ := List.mem_map.1 hmem
      exact hrest r hr (by rw [heq]; exact List.mem_cons_self ..)
    · intro r hr
      rcases List.mem_cons.1 hr with rfl | hr
      · exact hid
      · exact fun hmem => hrest r hr (List.mem_cons_of_mem _ hmem)

theorem readFactGeneration_nodup {db : FactDatabase φ β} {manifest : ActiveFactManifest β}
    (h : readFactGeneration env db manifest = .ok records) : (records.map (·.eventId)).Nodup := by
  obtain ⟨_, -, h⟩ := bind_ok h
  obtain ⟨_, hcheck, h⟩ := bind_ok h
  obtain ⟨_, -, h⟩ := bind_ok h
  obtain ⟨_, -, h⟩ := bind_ok h
  cases h
  exact ((sortFactRecords_perm _).map _).nodup_iff.2 (checkGenerationRecords_nodup hcheck).1

variable [DecidableEq φ] {e : FactEnv φ β}

theorem applyFactRecord_nodup {incoming : UsageEventFactRecord φ}
    {applied : List (UsageEventFactRecord φ) × Bool}
    (h : applyFactRecord e records incoming = .ok applied)
    (hnodup : (records.map (·.eventId)).Nodup) : (applied.1.map (·.eventId)).Nodup := by
  obtain ⟨_, -, h⟩ := bind_ok h
  cases hfind : records.find? (fun record => record.eventId == incoming.eventId) with
  | none =>
    rw [hfind] at h
    cases h
    rw [List.map_append, List.nodup_append]
    refine ⟨hnodup, by simp, fun id hid id' hid' heq => ?_⟩
    obtain ⟨r, hr, hrid⟩ := List.mem_map.1 hid
    have hne := List.find?_eq_none.1 hfind r hr
    have hsame : id' = incoming.eventId := by simpa using hid'
    simp [hrid, heq, hsame] at hne
  | some existing =>
    rw [hfind] at h
    obtain ⟨_, -, h⟩ := bind_ok h
    split at h
    · cases h
      have hsame : (records.map fun record =>
          if record.eventId = incoming.eventId then incoming else record).map (·.eventId) =
            records.map (·.eventId) := by
        rw [List.map_map]
        refine List.map_congr_left fun record _ => ?_
        simp only [Function.comp_apply]
        split
        next heq => exact heq.symm
        next => rfl
      exact hsame ▸ hnodup
    · split at h
      · cases h
        exact hnodup
      · obtain ⟨_, -, h⟩ := bind_ok h
        cases h
        exact hnodup

theorem applyFactChanges_nodup {replica : SessionReplicaKey} {retainedSince : Option DateTime}
    {changes applied : List (UsageEventFactRecord φ)}
    (h : applyFactChanges e replica retainedSince records changes = .ok applied)
    (hnodup : (records.map (·.eventId)).Nodup) : (applied.map (·.eventId)).Nodup := by
  induction changes generalizing records with
  | nil =>
    cases h
    exact hnodup
  | cons change changes ih =>
    obtain ⟨_, -, h⟩ := bind_ok h
    split at h
    · exact ih h hnodup
    · obtain ⟨applied', happly, h⟩ := bind_ok h
      exact ih h (applyFactRecord_nodup happly hnodup)

end

end Facts
