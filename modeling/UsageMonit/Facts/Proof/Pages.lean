import UsageMonit.Facts.Proof.Rows

/-!
# Copying a generation page by page

The rows of a generation are read in the order of the index, which is strict because a generation
has one row for each event (`readRecords_strict`); so the rows after the last row of a page are
the rest (`rowsAfter_cursorAt`). `Copied` says how far a job got: what it has seen, what of it is in
the candidate generation, and what is left. `page_ok` is one page of it.
-/

namespace Facts

open Fallible Time

variable {φ β : Type} {b : UsageEventFactRecord φ} {rows records : List (UsageEventFactRecord φ)}

/-! ## The order of rows -/

def rowLt (a b : UsageEventFactRecord φ) : Prop :=
  timestampMillis a.occurredAt < timestampMillis b.occurredAt ∨
    (timestampMillis a.occurredAt = timestampMillis b.occurredAt ∧ a.eventId < b.eventId)

theorem rowLe_iff {a : UsageEventFactRecord φ} : rowLe a b = true ↔
    timestampMillis a.occurredAt < timestampMillis b.occurredAt ∨
      (timestampMillis a.occurredAt = timestampMillis b.occurredAt ∧ a.eventId ≤ b.eventId) := by
  simp [rowLe]

instance : Std.Total fun a b : UsageEventFactRecord φ => rowLe a b = true where
  total a b := by
    rw [rowLe_iff, rowLe_iff]
    rcases Int.lt_trichotomy (timestampMillis a.occurredAt) (timestampMillis b.occurredAt) with
      h | h | h
    · exact .inl (.inl h)
    · rcases le_total a.eventId b.eventId with hid | hid
      · exact .inl (.inr ⟨h, hid⟩)
      · exact .inr (.inr ⟨h.symm, hid⟩)
    · exact .inr (.inl h)

instance : IsTrans (UsageEventFactRecord φ) fun a b => rowLe a b = true where
  trans a b c hab hbc := by
    rw [rowLe_iff] at *
    rcases hab with hab | ⟨hab, hid⟩
    · rcases hbc with hbc | ⟨hbc, -⟩
      · exact .inl (Int.lt_trans hab hbc)
      · exact .inl (hbc ▸ hab)
    · rcases hbc with hbc | ⟨hbc, hid'⟩
      · exact .inl (hab ▸ hbc)
      · exact .inr ⟨hab.trans hbc, le_trans hid hid'⟩

theorem readRecords_strict {db : FactDatabase φ β} {ns : FactNamespace}
    (h : ((db.rows ns).map (·.eventId)).Nodup) : (db.readRecords ns).Pairwise rowLt := by
  have hsorted : (db.readRecords ns).Pairwise fun a b => rowLe a b = true :=
    List.pairwise_insertionSort _ _
  have hids : (db.readRecords ns).Pairwise fun a b => a.eventId ≠ b.eventId :=
    List.pairwise_map.1 (((readRecords_perm db ns).map _).nodup_iff.2 h)
  refine hsorted.imp₂ (fun a b hle hne => ?_) hids
  rcases rowLe_iff.1 hle with hlt | ⟨heq, hid⟩
  · exact .inl hlt
  · exact .inr ⟨heq, lt_of_le_of_ne hid hne⟩

theorem before_iff {cursor : RowCursor} : cursor.before b = true ↔
    cursor.sortTime < timestampMillis b.occurredAt ∨
      (cursor.sortTime = timestampMillis b.occurredAt ∧ cursor.key < b.eventId) := by
  simp only [RowCursor.before, Bool.or_eq_true, Bool.and_eq_true, decide_eq_true_eq]

theorem cursorAt_before {ns : FactNamespace} {a : UsageEventFactRecord φ} :
    (cursorAt ns a).before b = true ↔ rowLt a b :=
  before_iff

theorem rowLt_asymm {a : UsageEventFactRecord φ} (h : rowLt a b) : ¬ rowLt b a := by
  rcases h with h | ⟨h, hid⟩
  · rintro (h' | ⟨h', -⟩) <;> omega
  · rintro (h' | ⟨-, hid'⟩)
    · omega
    · exact lt_asymm hid hid'

theorem rowsAfter_cursorAt {ns : FactNamespace} {front rest : List (UsageEventFactRecord φ)}
    {x : UsageEventFactRecord φ} (h : (front ++ x :: rest).Pairwise rowLt) :
    rowsAfter (some (cursorAt ns x)) (front ++ x :: rest) = rest := by
  obtain ⟨-, hxrest, hfront⟩ := List.pairwise_append.1 h
  obtain ⟨hx, -⟩ := List.pairwise_cons.1 hxrest
  have hbefore : front.filter (cursorAt ns x).before = [] := by
    refine List.filter_eq_nil_iff.2 fun y hy hyx => ?_
    exact rowLt_asymm (hfront y hy x (List.mem_cons_self ..)) (cursorAt_before.1 hyx)
  have hself : ¬ (cursorAt ns x).before x = true := fun hxx =>
    rowLt_asymm (cursorAt_before.1 hxx) (cursorAt_before.1 hxx)
  have hafter : rest.filter (cursorAt ns x).before = rest :=
    List.filter_eq_self.2 fun y hy => cursorAt_before.2 (hx y hy)
  simp only [rowsAfter, List.filter_append, hbefore, List.nil_append,
    List.filter_cons_of_neg hself, hafter]

/-! ## Jobs -/

theorem retainedRows_append (cutoff : DateTime) (rs rs' : List (UsageEventFactRecord φ)) :
    retainedRows cutoff (rs ++ rs') = retainedRows cutoff rs ++ retainedRows cutoff rs' :=
  List.filter_append ..

theorem recordDaySet_append (rs rs' : List (UsageEventFactRecord φ)) :
    recordDaySet (rs ++ rs') = recordDaySet rs ∪ recordDaySet rs' := by
  simp [recordDaySet]

/-- The counters of a job that has seen these rows. -/
structure Counts (cutoff : DateTime) (job : FactJob β) (seen : List (UsageEventFactRecord φ)) :
    Prop where
  seenCount : job.seenCount = seen.length
  seenDays : job.seenDays = recordDaySet seen
  retainedCount : job.retainedCount = (retainedRows cutoff seen).length
  retainedDays : job.retainedDays = recordDaySet (retainedRows cutoff seen)

/-- The parts of a job that a page does not change. -/
structure SameJob (job job' : FactJob β) : Prop where
  key : job'.key = job.key
  expected : job'.expected = job.expected
  replacement : job'.replacement = job.replacement

theorem SameJob.refl (job : FactJob β) : SameJob job job := ⟨rfl, rfl, rfl⟩

theorem SameJob.trans {a b c : FactJob β} (h : SameJob a b) (h' : SameJob b c) : SameJob a c :=
  ⟨h'.key.trans h.key, h'.expected.trans h.expected, h'.replacement.trans h.replacement⟩

section
variable {env : StoreEnv φ β} {cutoff : DateTime} {job job' : FactJob β}

theorem see_ok {record : UsageEventFactRecord φ} {seen : List (UsageEventFactRecord φ)}
    (h : job.see env cutoff record = .ok job') (hc : Counts cutoff job seen) :
    Counts cutoff job' (seen ++ [record]) ∧ SameJob job job' ∧ job'.cursor = job.cursor ∧
      job'.retireNamespace = job.retireNamespace ∧
      job'.seenCount ≤ job'.expected.recordCount := by
  have hdays : insert (dateNaive record.occurredAt) (recordDaySet seen) =
      recordDaySet (seen ++ [record]) := by
    rw [recordDaySet_append]
    simp [recordDaySet]
  obtain ⟨_, -, h⟩ := bind_ok h
  obtain ⟨_, -, h⟩ := bind_ok h
  obtain ⟨_, hcount, h⟩ := bind_ok h
  have hcount := (ensure_ok.1 hcount).2
  split at h
  next hretained =>
    cases h
    refine ⟨⟨?_, ?_, ?_, ?_⟩, ⟨rfl, rfl, rfl⟩, rfl, rfl, hcount⟩
    · simp [hc.seenCount]
    · rw [← hdays, ← hc.seenDays]
    · simp [hc.retainedCount, retainedRows, hretained]
    · have hkeep : retainedRows cutoff (seen ++ [record]) =
          retainedRows cutoff seen ++ [record] := by simp [retainedRows, hretained]
      rw [hkeep, recordDaySet_append, ← hc.retainedDays]
      simp [recordDaySet]
  next hexpired =>
    cases h
    have hdrop : retainedRows cutoff (seen ++ [record]) = retainedRows cutoff seen := by
      rw [retainedRows_append]
      simp [retainedRows, hexpired]
    refine ⟨⟨?_, ?_, ?_, ?_⟩, ⟨rfl, rfl, rfl⟩, rfl, rfl, hcount⟩
    · simp [hc.seenCount]
    · rw [← hdays, ← hc.seenDays]
    · rw [hdrop, ← hc.retainedCount]
    · rw [hdrop, ← hc.retainedDays]

theorem see_foldlM {seen : List (UsageEventFactRecord φ)}
    (h : rows.foldlM (FactJob.see env cutoff) job = .ok job') (hc : Counts cutoff job seen) :
    Counts cutoff job' (seen ++ rows) ∧ SameJob job job' ∧ job'.cursor = job.cursor ∧
      job'.retireNamespace = job.retireNamespace ∧
      (rows ≠ [] → job'.seenCount ≤ job'.expected.recordCount) := by
  induction rows generalizing job seen with
  | nil =>
    cases h
    rw [List.append_nil]
    exact ⟨hc, .refl _, rfl, rfl, fun hn => absurd rfl hn⟩
  | cons record rows ih =>
    rw [List.foldlM_cons] at h
    obtain ⟨job₁, hsee, h⟩ := bind_ok h
    obtain ⟨hc₁, hsame, hcursor, hretire, hle⟩ := see_ok hsee hc
    obtain ⟨hc', hsame', hcursor', hretire', hle'⟩ := ih h hc₁
    rw [List.append_assoc] at hc'
    refine ⟨hc', hsame.trans hsame', hcursor'.trans hcursor, hretire'.trans hretire, fun _ => ?_⟩
    by_cases hnil : rows = []
    · subst hnil
      cases h
      exact hle
    · exact hle' hnil

/-- How far a job got with the rows of a generation: what it has seen comes before its cursor, and
the candidate holds what is retained of it. After the last page nothing is left, wherever the
cursor stands. -/
def Copied (cutoff : DateTime) (job : FactJob β)
    (records candidate : List (UsageEventFactRecord φ)) : Prop :=
  ∃ seen rest, records = seen ++ rest ∧ (rest = rowsAfter job.cursor records ∨ rest = []) ∧
    Counts cutoff job seen ∧ candidate = retainedRows cutoff seen

theorem copied_new {key : ThreadShardKey} {m : ActiveFactManifest β} {id : FactBatchId} :
    Copied cutoff (FactJob.new key m id) records [] :=
  ⟨[], records, rfl, .inl rfl, ⟨rfl, rfl, rfl, rfl⟩, rfl⟩

theorem copied_page {candidate : List (UsageEventFactRecord φ)} {n : Nat}
    (hc : Copied cutoff job records candidate) (hsorted : records.Pairwise rowLt)
    (hcount : records.length = job.expected.recordCount)
    (hrows : rows = (rowsAfter job.cursor records).take n) (h : rows.foldlM (FactJob.see env cutoff)
      { job with cursor := advance job.original job.cursor rows } = .ok job') :
    SameJob job job' ∧ job'.retireNamespace = job.retireNamespace ∧
      Copied cutoff job' records (candidate ++ retainedRows cutoff rows) ∧
      ((rowsAfter job.cursor records).length ≤ n →
        Counts cutoff job' records ∧
          candidate ++ retainedRows cutoff rows = retainedRows cutoff records) := by
  obtain ⟨seen, rest, hsplit, hrest, hcounts, hcandidate⟩ := hc
  obtain ⟨hcounts', hsame, hcursor, hretire, hle⟩ := see_foldlM h
    (⟨hcounts.seenCount, hcounts.seenDays, hcounts.retainedCount, hcounts.retainedDays⟩ :
      Counts cutoff { job with cursor := advance job.original job.cursor rows } seen)
  have hsame : SameJob job job' := ⟨hsame.key, hsame.expected, hsame.replacement⟩
  -- when nothing is left, another row would be one too many
  have hend : rest = [] → rows = [] := by
    intro hnil
    by_contra hne
    have hmax := hle hne
    have hlen : seen.length = records.length := by rw [hsplit, hnil, List.append_nil]
    rw [hcounts'.seenCount, hsame.expected, ← hcount, List.length_append, hlen] at hmax
    have := List.length_pos_iff.2 hne
    omega
  have hnew : ∃ rest', rest = rows ++ rest' ∧
      (rest' = rowsAfter job'.cursor records ∨ rest' = []) ∧
      ((rowsAfter job.cursor records).length ≤ n → rest' = []) := by
    rcases hrest with hrest | hnil
    · refine ⟨rest.drop n, ?_, ?_, fun hn => ?_⟩
      · rw [hrows, ← hrest, List.take_append_drop]
      · rw [hcursor]
        cases hlast : rows.getLast? with
        | none =>
          have hrows' : rows = [] := List.getLast?_eq_none_iff.1 hlast
          have htake : rest.take n = [] := by rw [hrest, ← hrows, hrows']
          have hdrop : rest.drop n = rest := by
            rw [← List.take_append_drop n rest, htake, List.nil_append, List.drop_drop]
            rcases List.take_eq_nil_iff.1 htake with rfl | hn
            · simp
            · simp [hn]
          simp only [advance, hlast]
          exact .inl (hdrop.trans hrest)
        | some x =>
          obtain ⟨front, hfront⟩ := List.getLast?_eq_some_iff.1 hlast
          have hparts : rest = front ++ x :: rest.drop n := by
            have htake : rest.take n = front ++ [x] := by rw [hrest, ← hrows, hfront]
            conv_lhs => rw [← List.take_append_drop n rest, htake]
            simp
          have hrecords : records = (seen ++ front) ++ x :: rest.drop n := by
            rw [List.append_assoc, ← hparts]
            exact hsplit
          simp only [advance, hlast]
          rw [hrecords] at hsorted ⊢
          exact .inl (rowsAfter_cursorAt hsorted).symm
      · exact List.drop_eq_nil_of_le (hrest ▸ hn)
    · exact ⟨[], by rw [hnil, hend hnil]; rfl, .inr rfl, fun _ => rfl⟩
  obtain ⟨rest', hrest', hcursor', hdone⟩ := hnew
  have hrecords : records = (seen ++ rows) ++ rest' := by rw [hsplit, hrest', List.append_assoc]
  have hcand : candidate ++ retainedRows cutoff rows = retainedRows cutoff (seen ++ rows) := by
    rw [hcandidate, retainedRows_append]
  refine ⟨hsame, hretire, ⟨seen ++ rows, rest', hrecords, hcursor', hcounts', hcand⟩, fun hn => ?_⟩
  have hall : seen ++ rows = records := by rw [hrecords, hdone hn, List.append_nil]
  rw [← hall]
  exact ⟨hcounts', hcand⟩

theorem page_action {complete : Bool} {action : Action φ β}
    (h : job.page env cutoff rows complete = .ok (job', action)) : action ≠ .none := by
  obtain ⟨counted, -, h⟩ := bind_ok h
  split at h
  · obtain ⟨_, -, h⟩ := bind_ok h
    split at h
    · cases h
      simp
    · cases h
      simp
  · cases h
    simp

/-- **One page of a job**: it copies the retained rows of the page, or, when there are no more,
replaces the manifest by one of the retained records. -/
theorem page_ok {candidate : List (UsageEventFactRecord φ)} {n : Nat} {action : Action φ β}
    (hc : Copied cutoff job records candidate) (hsorted : records.Pairwise rowLt)
    (hcount : records.length = job.expected.recordCount)
    (hrows : rows = (rowsAfter job.cursor records).take n)
    (h : job.page env cutoff rows (decide ((rowsAfter job.cursor records).length ≤ n)) =
      .ok (job', action)) :
    SameJob job job' ∧
      ((action = .copy job.candidate (retainedRows cutoff rows) ∧
          job'.retireNamespace = job.retireNamespace ∧
          Copied cutoff job' records (candidate ++ retainedRows cutoff rows)) ∨
        ∃ counted : FactJob β, SameJob job counted ∧ Counts cutoff counted records ∧
          candidate = retainedRows cutoff records ∧
          action = .publish job.key job.expected (counted.replacementManifest cutoff) ∧
          job'.retireNamespace =
            some (if counted.changed then job.original else job.candidate)) := by
  obtain ⟨counted, hfold, h⟩ := bind_ok h
  obtain ⟨hsame, hretire, hcopied, hdone⟩ := copied_page hc hsorted hcount hrows hfold
  have hcandidate : counted.candidate = job.candidate := by
    rw [FactJob.candidate, FactJob.candidate, hsame.expected, hsame.replacement]
  have horiginal : counted.original = job.original := by
    rw [FactJob.original, FactJob.original, hsame.expected]
  split at h
  next hcomplete =>
    obtain ⟨hcounts, hall⟩ := hdone (of_decide_eq_true hcomplete)
    obtain ⟨_, -, h⟩ := bind_ok h
    split at h
    next hne =>
      cases h
      refine ⟨⟨hsame.key, hsame.expected, hsame.replacement⟩, .inl ⟨?_, hretire, ?_⟩⟩
      · rw [hcandidate]
      · exact ⟨records, [], (List.append_nil _).symm, .inr rfl,
          ⟨hcounts.seenCount, hcounts.seenDays, hcounts.retainedCount, hcounts.retainedDays⟩, hall⟩
    next hnil =>
      have hnil : retainedRows cutoff rows = [] := not_not.1 hnil
      cases h
      rw [hnil, List.append_nil] at hall
      refine ⟨⟨hsame.key, hsame.expected, hsame.replacement⟩,
        .inr ⟨counted, hsame, hcounts, hall, ?_, ?_⟩⟩
      · rw [hsame.key, hsame.expected]
      · rw [hcandidate, horiginal]
  next =>
    cases h
    exact ⟨hsame, .inl ⟨by rw [hcandidate], hretire, hcopied⟩⟩

end

end Facts
