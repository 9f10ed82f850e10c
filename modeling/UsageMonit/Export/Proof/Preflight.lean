import UsageMonit.Export.Proof.Mutations
import UsageMonit.Export.Proof.Pages

/-!
# The preflight predicts the export

`Paged` reads pages from a cursor until none is left. What it reads is exactly what the journal has
above the cursor (`paged_iff`), and the preflight counts the same entries of the state that the
reconcile would leave (`previewState_iff`). So a preflight is ready exactly when the reconcile and
the pages after it give that cursor and that many entries, within the limits of the preflight
(`preflight_predicts`).
-/

namespace Export

open Fallible Time Protocol

variable {store : RemoteExportStateStore} {s : StoredExportState}
  {es : List RemoteExportJournalEntry}

/-! ## Reading to the end -/

section
variable (store) (s)

/-- Reading pages from `cursor` to the end gives the cursor `q` and the entries `es`. -/
inductive Paged (pageEntries pageBytes : Nat) :
    DeltaCursor → DeltaCursor → List RemoteExportJournalEntry → Prop
  | last {cursor : DeltaCursor} {page : RemoteExportDeltaPage} :
      readPage store s cursor pageEntries pageBytes = .ok (.page page) → page.hasMore = false →
      Paged pageEntries pageBytes cursor page.nextCursor page.entries
  | more {cursor q : DeltaCursor} {page : RemoteExportDeltaPage}
      {es : List RemoteExportJournalEntry} :
      readPage store s cursor pageEntries pageBytes = .ok (.page page) → page.hasMore = true →
      Paged pageEntries pageBytes page.nextCursor q es →
      Paged pageEntries pageBytes cursor q (page.entries ++ es)

/-- The journal retains what follows the cursor. -/
structure Retains (s : StoredExportState) (cursor : DeltaCursor) : Prop where
  generation : cursor.generation = s.deltaGeneration
  floor : s.retentionFloor ≤ cursor.sequence
  current : cursor.sequence ≤ s.currentSequence

end

section
variable {pageEntries pageBytes : Nat}

theorem paged_ok (h : JournalOk s) {cursor q : DeltaCursor}
    (hp : Paged store s pageEntries pageBytes cursor q es) (hsmall : cursor.sequence + 1 < 2 ^ 64) :
    Retains s cursor ∧ q = s.cursor ∧
      es = s.entries.drop (cursor.sequence - s.retentionFloor) := by
  have hl := h.contiguous.length
  have hb := h.bounded
  induction hp with
  | @last cursor page hread hmore =>
    obtain ⟨hgeneration, hfloor, hle⟩ := readPage_retained hread
    obtain ⟨k, hk⟩ := readPage_ok h.contiguous hsmall hread
    have hwithin := hk.within
    rw [readPage_hasMore hread, decide_eq_false_iff_not, hk.through] at hmore
    have hend : cursor.sequence + k = s.currentSequence := by omega
    refine ⟨⟨hgeneration, hfloor, hle⟩, by rw [hk.next, hend]; rfl, ?_⟩
    rw [hk.entries, List.take_of_length_le]
    rw [List.length_drop]
    omega
  | @more cursor q page es hread hmore hrest ih =>
    obtain ⟨hgeneration, hfloor, hle⟩ := readPage_retained hread
    obtain ⟨k, hk⟩ := readPage_ok h.contiguous hsmall hread
    rw [readPage_hasMore hread, decide_eq_true_iff, hk.through] at hmore
    rw [hk.next] at ih
    obtain ⟨-, hq, hes⟩ := ih (by dsimp only; omega)
    refine ⟨⟨hgeneration, hfloor, hle⟩, hq, ?_⟩
    rw [hes, hk.entries, show cursor.sequence + k - s.retentionFloor =
        cursor.sequence - s.retentionFloor + k by omega, ← List.drop_drop, List.take_append_drop]

theorem paged_total (h : JournalOk s) (hjson : JsonBounds store) (hlimits : store.limits = {})
    (hpos : 0 < pageEntries) (hmax : pageEntries ≤ maxPageEntries) {n : Nat} :
    ∀ {cursor : DeltaCursor}, Retains s cursor → cursor.sequence + 1 < 2 ^ 64 →
      s.currentSequence - cursor.sequence = n →
      ∃ q es, Paged store s pageEntries maxPageBytes cursor q es := by
  have hb := h.bounded
  -- every page that is not the last one brings the cursor closer to the end
  induction n using Nat.strong_induction_on with
  | _ n ih =>
    intro cursor hretains hsmall hn
    obtain ⟨page, hread⟩ := readPage_total hjson hlimits h.contiguous h.changes hsmall
      hretains.floor hretains.current hpos hmax
    rw [← hretains.generation] at hread
    obtain ⟨k, hk⟩ := readPage_ok h.contiguous hsmall hread
    have hwithin := hk.within
    cases hmore : page.hasMore with
    | false => exact ⟨_, _, Paged.last hread hmore⟩
    | true =>
      have hlt := hmore
      rw [readPage_hasMore hread, decide_eq_true_iff, hk.through] at hlt
      have hprogress := hk.progress (by omega)
      have hfloor := hretains.floor
      have hnext : Retains s page.nextCursor := by
        rw [hk.next]
        exact ⟨rfl, by dsimp only; omega, hwithin⟩
      obtain ⟨q, es, hrest⟩ := ih (s.currentSequence - (cursor.sequence + k)) (by omega) hnext
        (by rw [hk.next]; dsimp only; omega) (by rw [hk.next])
      exact ⟨q, _, Paged.more hread hmore hrest⟩

/-- **Reading to the end** gives the watermark and what the journal has above the cursor. -/
theorem paged_iff (h : JournalOk s) (hjson : JsonBounds store) (hlimits : store.limits = {})
    (hpos : 0 < pageEntries) (hmax : pageEntries ≤ maxPageEntries) {cursor q : DeltaCursor}
    (hsmall : cursor.sequence + 1 < 2 ^ 64) :
    Paged store s pageEntries maxPageBytes cursor q es ↔
      Retains s cursor ∧ q = s.cursor ∧
        es = s.entries.drop (cursor.sequence - s.retentionFloor) := by
  refine ⟨fun hp => paged_ok h hp hsmall, ?_⟩
  rintro ⟨hretains, rfl, rfl⟩
  obtain ⟨q, es, hp⟩ := paged_total h hjson hlimits hpos hmax hretains hsmall rfl
  obtain ⟨-, rfl, rfl⟩ := paged_ok h hp hsmall
  exact hp

end

/-! ## Counting the delta -/

/-- A delta within the limits of a preflight; `bytes` is its serialized size. -/
structure Fits (limits : PreflightLimits)
    (serializedRecordBytes : RemoteExportJournalEntry → Except String Nat)
    (es : List RemoteExportJournalEntry) (bytes : Nat) : Prop where
  count : es.length ≤ limits.maximumEntries
  sizes : ∃ sizes, List.Forall₂ (fun e size => serializedRecordBytes e = .ok size) es sizes ∧
    (∀ size ∈ sizes, size ≤ limits.maximumRecordSerializedBytes) ∧
    bytes = limits.initialSerializedBytes + sizes.sum
  total : bytes ≤ limits.maximumSerializedBytes

section
variable {limits : PreflightLimits}
  {serializedRecordBytes : RemoteExportJournalEntry → Except String Nat}
  (hentries : limits.maximumEntries < 2 ^ 64) (hbytes : limits.maximumSerializedBytes < 2 ^ 64)
include hentries hbytes

theorem countDelta_cons {e : RemoteExportJournalEntry} {n b : Nat} {r : Nat × Nat} :
    countDelta limits serializedRecordBytes (e :: es) n b = .ok (some r) ↔
      n + 1 ≤ limits.maximumEntries ∧ ∃ size, serializedRecordBytes e = .ok size ∧
        size ≤ limits.maximumRecordSerializedBytes ∧ b + size ≤ limits.maximumSerializedBytes ∧
        countDelta limits serializedRecordBytes es (n + 1) (b + size) = .ok (some r) := by
  by_cases hfull : n + 1 < 2 ^ 64
  swap
  · simp only [countDelta, checkedAdd, if_neg hfull, okOr, error_bind]
    constructor
    · intro h
      cases h
    · rintro ⟨hle, -⟩
      omega
  have hnext : checkedAdd 64 n 1 = some (n + 1) := if_pos hfull
  simp only [countDelta, hnext, okOr, ok_bind]
  split
  · constructor
    · intro h
      cases h
    · rintro ⟨hle, -⟩
      omega
  · cases hsize : serializedRecordBytes e with
    | error error => simp
    | ok size =>
      simp only [ok_bind, Except.ok.injEq, exists_eq_left']
      split
      · constructor
        · intro h
          cases h
        · rintro ⟨-, hle, -⟩
          omega
      · by_cases htotal : b + size ≤ limits.maximumSerializedBytes
        · have hadd : checkedAdd 64 b size = some (b + size) := if_pos (by omega)
          simp only [hadd, htotal, if_true]
          exact ⟨fun h => ⟨by omega, by omega, trivial, h⟩, fun h => h.2.2.2⟩
        · constructor
          · intro h
            split at h
            · rename_i total hadd
              obtain ⟨rfl, -⟩ := checkedAdd_eq_some hadd
              rw [if_neg htotal] at h
              cases h
            · cases h
          · rintro ⟨-, -, hle, -⟩
            exact absurd hle htotal

theorem countDelta_iff : ∀ {es : List RemoteExportJournalEntry} {n b n' b' : Nat},
    n ≤ limits.maximumEntries → b ≤ limits.maximumSerializedBytes →
    (countDelta limits serializedRecordBytes es n b = .ok (some (n', b')) ↔
      n' = n + es.length ∧ n' ≤ limits.maximumEntries ∧
        (∃ sizes, List.Forall₂ (fun e size => serializedRecordBytes e = .ok size) es sizes ∧
          (∀ size ∈ sizes, size ≤ limits.maximumRecordSerializedBytes) ∧ b' = b + sizes.sum) ∧
        b' ≤ limits.maximumSerializedBytes)
  | [], n, b, n', b', hn, hb => by
    simp only [countDelta, Except.ok.injEq, Option.some.injEq, Prod.mk.injEq, List.length_nil,
      Nat.add_zero, List.forall₂_nil_left_iff, exists_eq_left, List.sum_nil, List.not_mem_nil,
      false_implies, implies_true, true_and]
    constructor
    · rintro ⟨rfl, rfl⟩
      exact ⟨rfl, hn, rfl, hb⟩
    · rintro ⟨rfl, -, rfl, -⟩
      exact ⟨rfl, rfl⟩
  | e :: es, n, b, n', b', hn, hb => by
    rw [countDelta_cons hentries hbytes]
    constructor
    · rintro ⟨hcount, size, hsize, hrecord, htotal, h⟩
      obtain ⟨rfl, hle, ⟨sizes, hsizes, hall, rfl⟩, hle'⟩ :=
        (countDelta_iff hcount htotal).1 h
      refine ⟨by rw [List.length_cons]; omega, hle, ⟨size :: sizes, .cons hsize hsizes,
        List.forall_mem_cons.2 ⟨hrecord, hall⟩, by rw [List.sum_cons]; omega⟩, hle'⟩
    · rintro ⟨rfl, hle, ⟨sizes, hsizes, hall, rfl⟩, hle'⟩
      rw [List.length_cons] at hle
      obtain ⟨size, rest, hsize, hrest, rfl⟩ := List.forall₂_cons_left_iff.1 hsizes
      obtain ⟨hrecord, hall⟩ := List.forall_mem_cons.1 hall
      rw [List.sum_cons] at hle'
      refine ⟨by omega, size, hsize, hrecord, by omega, ?_⟩
      rw [countDelta_iff (by omega) (by omega)]
      exact ⟨by rw [List.length_cons]; omega, by rw [List.length_cons]; omega,
        ⟨rest, hrest, hall, by rw [List.sum_cons]; omega⟩, by rw [List.sum_cons]; omega⟩

theorem countDelta_fits {n bytes : Nat}
    (hinitial : limits.initialSerializedBytes ≤ limits.maximumSerializedBytes) :
    countDelta limits serializedRecordBytes es 0 limits.initialSerializedBytes =
        .ok (some (n, bytes)) ↔ n = es.length ∧ Fits limits serializedRecordBytes es bytes := by
  rw [countDelta_iff hentries hbytes (Nat.zero_le _) hinitial, Nat.zero_add]
  constructor
  · rintro ⟨rfl, hcount, hsizes, htotal⟩
    exact ⟨rfl, hcount, hsizes, htotal⟩
  · rintro ⟨rfl, hfits⟩
    exact ⟨rfl, hfits.count, hfits.sizes, hfits.total⟩

end

/-! ## The preview -/

theorem expiry_eq_none_iff {cursor : DeltaCursor} : s.expiry cursor = none ↔
    cursor.generation = s.deltaGeneration ∧ s.retentionFloor ≤ cursor.sequence := by
  refine ⟨expiry_none, fun ⟨hgeneration, hfloor⟩ => ?_⟩
  unfold StoredExportState.expiry
  rw [if_neg (not_not.2 hgeneration), if_neg (not_lt.2 hfloor)]

theorem dropWhile_upTo (h : Contiguous s) (cursor : Nat) :
    (s.entries.dropWhile fun entry => entry.sequence ≤ cursor) =
      s.entries.drop (cursor - s.retentionFloor) := by
  rw [← dropWhile_below h cursor]
  simp only [Nat.lt_succ_iff]

theorem previewDelta_ready (h : JournalOk s) {limits : PreflightLimits}
    {serializedRecordBytes : RemoteExportJournalEntry → Except String Nat}
    (hentries : limits.maximumEntries < 2 ^ 64) (hbytes : limits.maximumSerializedBytes < 2 ^ 64)
    (hinitial : limits.initialSerializedBytes ≤ limits.maximumSerializedBytes)
    {cursor q : DeltaCursor} {n bytes : Nat} :
    previewDelta limits serializedRecordBytes s cursor = .ok (.ready q n bytes) ↔
      Retains s cursor ∧ q = s.cursor ∧
        n = (s.entries.drop (cursor.sequence - s.retentionFloor)).length ∧
        Fits limits serializedRecordBytes
          (s.entries.drop (cursor.sequence - s.retentionFloor)) bytes := by
  unfold previewDelta
  split
  · rename_i expired hexpired
    constructor
    · intro hready
      cases hready
    · rintro ⟨hretains, -⟩
      rw [expiry_eq_none_iff.2 ⟨hretains.generation, hretains.floor⟩] at hexpired
      cases hexpired
  · rename_i hexpiry
    obtain ⟨hgeneration, hfloor⟩ := expiry_eq_none_iff.1 hexpiry
    rw [dropWhile_upTo h.contiguous]
    constructor
    · intro hready
      obtain ⟨_, hahead, hready⟩ := bind_ok hready
      obtain ⟨counted, hcounted, hready⟩ := bind_ok hready
      cases counted with
      | none => cases hready
      | some r =>
        cases hready
        exact ⟨⟨hgeneration, hfloor, not_lt.1 (ensure_ok.1 hahead)⟩, rfl,
          (countDelta_fits hentries hbytes hinitial).1 hcounted⟩
    · rintro ⟨hretains, rfl, hfits⟩
      rw [ensure_of (not_lt.2 hretains.current), ok_bind,
        (countDelta_fits hentries hbytes hinitial).2 hfits]
      rfl

section
variable {session : RemoteExportSession} {now : DateTime}
  {desired : List RemoteExportDesiredRecord} {mode : RemoteExportReconcileMode}

/-- **The preview is what the reconcile leaves.** -/
theorem previewState_iff (h : session.Open store s) (hnow : Representable now)
    (hdesired : validateDesiredRecords desired = .ok ()) {s' : StoredExportState} :
    previewState store s now desired mode = .ok s' ↔
      ∃ report, session.reconcileMaterializedRecords store now desired mode =
        (.ok report, ⟨s', some s'⟩) := by
  unfold previewState
  cases hmatch : materializedSetMatches s desired with
  | error error =>
    simp [RemoteExportSession.reconcileMaterializedRecords, hdesired, h.state, hmatch]
  | ok current =>
    have hreconcile : session.reconcileMaterializedRecords store now desired mode =
        if current ∧ reconcileMaintenanceDue store s now = false then
          (.ok (unchangedReport s), session)
        else session.mutate store fun s => reconcileAndCompact store s now desired mode := by
      simp [RemoteExportSession.reconcileMaterializedRecords, hdesired, h.state, hmatch]
    rw [hreconcile]
    simp only [ok_bind]
    by_cases hcurrent : current = true ∧ reconcileMaintenanceDue store s now = false
    · rw [if_neg (by simp [hcurrent]), if_pos hcurrent, h.eq]
      constructor
      · intro hs
        cases hs
        exact ⟨_, rfl⟩
      · rintro ⟨report, hs⟩
        cases hs
        rfl
    · have hdue : current = false ∨ reconcileMaintenanceDue store s now = true := by
        cases current <;> cases hm : reconcileMaintenanceDue store s now <;> simp_all
      rw [if_pos hdue, if_neg hcurrent]
      constructor
      · intro hs
        obtain ⟨⟨s1, report⟩, hs1, hs⟩ := bind_ok hs
        cases hs
        have hmutated := reconcileAndCompact_yields h.valid h.range hnow hdesired mode
        rw [hs1] at hmutated
        exact ⟨report, (mutate_ok h hs1 hmutated).1⟩
      · rintro ⟨report, hs⟩
        unfold RemoteExportSession.mutate at hs
        rw [h.state] at hs
        dsimp only at hs
        split at hs
        · rw [fail_restores h] at hs
          cases hs
        · rename_i s1 report' hs1
          split at hs
          · rw [fail_restores h] at hs
            cases hs
          · cases hs
            rw [hs1]
            rfl

theorem preview_sound (h : session.Open store s) (hnow : Representable now)
    (hdesired : validateDesiredRecords desired = .ok ()) {s' : StoredExportState}
    (hs : previewState store s now desired mode = .ok s') :
    JournalOk s' ∧ s'.deltaGeneration = s.deltaGeneration ∧
      s.retentionFloor ≤ s'.retentionFloor := by
  obtain ⟨matched, -, hs⟩ := bind_ok hs
  split at hs
  · obtain ⟨⟨s1, report⟩, hs1, hs⟩ := bind_ok hs
    cases hs
    have hmutated : Mutated store s s1 := by
      have hyields := reconcileAndCompact_yields h.valid h.range hnow hdesired mode
      rwa [hs1] at hyields
    exact ⟨(sound_of_validate hmutated.valid hmutated.range.sequence).journal,
      hmutated.generation, hmutated.floor⟩
  · cases hs
    exact ⟨(sound_of_validate h.valid h.range.sequence).journal, rfl, Nat.le_refl _⟩

/-- **The preflight predicts the export**, and leaves the session as it is. It is ready with `q`
and `n` exactly when its limits are sensible, its cursor is not ahead of the stored journal, and
reconciling the same set and paging from the same cursor gives `q` and `n` entries that fit the
limits. -/
theorem preflight_predicts (h : session.Open store s) (hlimits : store.limits = {})
    (hjson : JsonBounds store) (hnow : Representable now) {limits : PreflightLimits}
    (hentries : limits.maximumEntries < 2 ^ 64) (hbytes : limits.maximumSerializedBytes < 2 ^ 64)
    (serializedRecordBytes : RemoteExportJournalEntry → Except String Nat) {pageEntries : Nat}
    (hpos : 0 < pageEntries) (hmax : pageEntries ≤ maxPageEntries) {cursor : DeltaCursor}
    (hsmall : cursor.sequence + 1 < 2 ^ 64) (q : DeltaCursor) (n bytes : Nat) :
    ((session.preflightReconciledDelta store now desired mode cursor limits
        serializedRecordBytes).1 = .ok (.ready q n bytes) ↔
      (limits.maximumEntries ≠ 0 ∧ limits.maximumRecordSerializedBytes ≠ 0 ∧
        limits.maximumSerializedBytes ≠ 0 ∧
        limits.initialSerializedBytes ≤ limits.maximumSerializedBytes) ∧
      cursor.sequence ≤ s.currentSequence ∧
      ∃ report s' es, session.reconcileMaterializedRecords store now desired mode =
          (.ok report, ⟨s', some s'⟩) ∧
        Paged store s' pageEntries maxPageBytes cursor q es ∧ es.length = n ∧
        Fits limits serializedRecordBytes es bytes) ∧
    (session.preflightReconciledDelta store now desired mode cursor limits
      serializedRecordBytes).2 = session := by
  refine ⟨?_, rfl⟩
  cases hdesired : validateDesiredRecords desired with
  | error error =>
    simp [RemoteExportSession.preflightReconciledDelta,
      RemoteExportSession.reconcileMaterializedRecords, hdesired]
  | ok _ =>
    unfold RemoteExportSession.preflightReconciledDelta
    simp only [hdesired, ok_bind, h.state, okOr]
    constructor
    · intro hready
      obtain ⟨_, hvalid, hready⟩ := bind_ok hready
      have hvalid := ensure_ok.1 hvalid
      split at hready
      · cases hready
      · obtain ⟨_, hahead, hready⟩ := bind_ok hready
        obtain ⟨s', hs', hready⟩ := bind_ok hready
        obtain ⟨hjournal, -⟩ := preview_sound h hnow hdesired hs'
        obtain ⟨report, hreport⟩ := (previewState_iff h hnow hdesired).1 hs'
        obtain ⟨hretains, rfl, rfl, hfits⟩ :=
          (previewDelta_ready hjournal hentries hbytes hvalid.2.2.2).1 hready
        exact ⟨hvalid, not_lt.1 (ensure_ok.1 hahead), report, s', _, hreport,
          (paged_iff hjournal hjson hlimits hpos hmax hsmall).2 ⟨hretains, rfl, rfl⟩, rfl, hfits⟩
    · rintro ⟨hvalid, hle, report, s', es, hreport, hpaged, rfl, hfits⟩
      have hs' := (previewState_iff h hnow hdesired).2 ⟨report, hreport⟩
      obtain ⟨hjournal, hgeneration, hfloor⟩ := preview_sound h hnow hdesired hs'
      obtain ⟨hretains, rfl, rfl⟩ := paged_ok hjournal hpaged hsmall
      have hexpiry : s.expiry cursor = none :=
        expiry_eq_none_iff.2 ⟨hretains.generation.trans hgeneration, hfloor.trans hretains.floor⟩
      rw [ensure_of hvalid, ok_bind, hexpiry]
      dsimp only
      rw [ensure_of (not_lt.2 hle), ok_bind, hs', ok_bind]
      exact (previewDelta_ready hjournal hentries hbytes hvalid.2.2.2).2 ⟨hretains, rfl, rfl, hfits⟩

end

namespace Sample

theorem json : JsonBounds Sample.store := by
  refine ⟨fun e _ => ⟨200, rfl, by omega⟩, fun s _ hrecords _ _ => ⟨_, rfl, ?_⟩⟩
  have hsum : ∀ es : List RemoteExportJournalEntry,
      200 * es.length ≤ (es.map fun e => 4 * e.change.payload.length + 513).sum := by
    intro es
    induction es with
    | nil => simp
    | cons e es ih =>
      rw [List.length_cons, List.map_cons, List.sum_cons]
      omega
  have := hsum s.entries
  rw [hrecords, List.length_nil]
  omega

/-- Ten bytes for every record. -/
def recordBytes (_ : RemoteExportJournalEntry) : Except String Nat := .ok 10

def openSession : RemoteExportSession := ⟨appended, some appended⟩

def upsertB : RemoteExportChange := ⟨"upsert-b", [2]⟩

def added : RemoteExportDesiredRecord := ⟨"b", days 5, upsertB, ⟨"tombstone-b", [0]⟩⟩

/-- The journal with the upsert of the added record. -/
def grown : StoredExportState := { appended with
  currentSequence := 2
  retentionClock := RetentionClock.current 2
  materializedRecords := [⟨"b", days 5, "upsert-b", 2, ⟨"tombstone-b", [0]⟩⟩]
  entries := [⟨1, 1, upsertA⟩, ⟨2, 2, upsertB⟩] }

theorem reconciles : openSession.reconcileMaterializedRecords Sample.store 2 [added]
    .authoritative = (.ok ⟨2, 1, 0, 0, 0, 1, 0, 0, 0, false⟩, ⟨grown, some grown⟩) := rfl

theorem pages (limit : Nat) (h : limit = 16 ∨ limit = maxPageEntries) :
    Paged Sample.store grown limit maxPageBytes ⟨7, 0⟩ ⟨7, 2⟩ grown.entries := by
  have hread : readPage Sample.store grown ⟨7, 0⟩ limit maxPageBytes =
      .ok (.page ⟨7, 1, 2, ⟨7, 2⟩, false, grown.entries⟩) := by
    rcases h with rfl | rfl <;> rfl
  exact Paged.last hread rfl

end Sample

theorem preflight_predicts_sample :
    (Sample.openSession.preflightReconciledDelta Sample.store 2 [Sample.added] .authoritative
      ⟨7, 0⟩ ⟨5, 20, 100, 1000⟩ Sample.recordBytes).1 = .ok (.ready ⟨7, 2⟩ 2 40) := by
  refine (preflight_predicts Sample.appended_open rfl Sample.json ⟨by decide, by decide⟩
    (by decide) (by decide) Sample.recordBytes (show 0 < 16 by decide) (by decide) (by decide)
    ⟨7, 2⟩ 2 40).1.2
      ⟨by decide, by decide, _, _, _, Sample.reconciles, Sample.pages 16 (.inl rfl), rfl, ?_⟩
  exact ⟨by decide, ⟨[10, 10], .cons rfl (.cons rfl .nil), by decide, rfl⟩, by decide⟩

/-- The delta of the export is over the limits of the preflight. -/
theorem preflight_stops_at_limits :
    ¬ ∀ (store : RemoteExportStateStore) (session : RemoteExportSession) (s : StoredExportState),
      session.Open store s → store.limits = {} → JsonBounds store →
      ∀ (now : DateTime) (desired : List RemoteExportDesiredRecord)
        (mode : RemoteExportReconcileMode), Representable now →
      ∀ (cursor : DeltaCursor) (limits : PreflightLimits)
        (serializedRecordBytes : RemoteExportJournalEntry → Except String Nat) (q : DeltaCursor)
        (n : Nat),
      (∃ bytes, (session.preflightReconciledDelta store now desired mode cursor limits
        serializedRecordBytes).1 = .ok (.ready q n bytes)) ↔
      ∃ report s' es, session.reconcileMaterializedRecords store now desired mode =
          (.ok report, ⟨s', some s'⟩) ∧
        Paged store s' maxPageEntries maxPageBytes cursor q es ∧ es.length = n := by
  intro h
  obtain ⟨bytes, hready⟩ := (h Sample.store Sample.openSession Sample.appended Sample.appended_open rfl
    Sample.json 2 [Sample.added] .authoritative ⟨by decide, by decide⟩ ⟨7, 0⟩ ⟨5, 20, 100, 25⟩
    Sample.recordBytes ⟨7, 2⟩ 2).2
      ⟨_, _, _, Sample.reconciles, Sample.pages maxPageEntries (.inr rfl), rfl⟩
  have hlimit : (Sample.openSession.preflightReconciledDelta Sample.store 2 [Sample.added]
      .authoritative ⟨7, 0⟩ ⟨5, 20, 100, 25⟩ Sample.recordBytes).1 = .ok .limitExceeded := rfl
  rw [hlimit] at hready
  cases hready

end Export
