import UsageMonit.Export.Proof.Append
import UsageMonit.Lib.Outcome

/-!
# Pages of the journal

A page is a part of the entries after its cursor, without a gap (`readPage_ok`), and not an empty
part when entries remain. A journal of valid changes always has a next page (`readPage_total`).
-/

namespace Export

open Fallible Protocol

variable {maximumEntries maximumBytes : Nat}

section
variable {store : RemoteExportStateStore} {s : StoredExportState}

theorem takeEntries_ok :
    ∀ {es taken : List RemoteExportJournalEntry} {bytes : Nat} {r : List RemoteExportJournalEntry},
    takeEntries store maximumEntries maximumBytes es taken bytes = .ok r →
    ∃ k, k ≤ es.length ∧ r = taken ++ es.take k ∧
      (taken = [] → es ≠ [] → 0 < maximumEntries → 0 < k)
  | [], taken, _, _, h => by
    cases h
    exact ⟨0, le_refl _, by simp, fun _ hne => absurd rfl hne⟩
  | e :: es, taken, bytes, r, h => by
    simp only [takeEntries] at h
    split at h
    · rename_i hfull
      cases h
      refine ⟨0, Nat.zero_le _, by simp, fun hnil _ hpos => ?_⟩
      rw [hnil] at hfull
      exact absurd hfull (by simpa using hpos.ne)
    · obtain ⟨size, -, h⟩ := bind_ok h
      obtain ⟨next, -, h⟩ := bind_ok h
      split at h
      · split at h
        · cases h
        · rename_i hne
          cases h
          exact ⟨0, Nat.zero_le _, by simp, fun hnil => absurd hnil hne⟩
      · obtain ⟨k, hk, hr, -⟩ := takeEntries_ok h
        refine ⟨k + 1, Nat.succ_le_succ hk, ?_, fun _ _ _ => Nat.succ_pos k⟩
        rw [hr, List.append_assoc, List.take_succ_cons, List.singleton_append]

section
variable (hsizes : ∀ e : RemoteExportJournalEntry, e.change.validate = .ok () →
  ∃ n, store.encodedEntryJsonSize e = .ok n ∧ n ≤ 4 * e.change.payload.length + 512)
include hsizes

theorem encodedEntrySize_le {e : RemoteExportJournalEntry} (hvalid : e.change.validate = .ok ()) :
    ∃ n, store.encodedEntryJsonSize e = .ok n ∧ n ≤ 4 * maxChangePayloadBytes + 512 := by
  obtain ⟨n, hn, hle⟩ := hsizes e hvalid
  have hpayload : e.change.payload.length ≤ maxChangePayloadBytes := by
    obtain ⟨-, -, h⟩ := bind_ok hvalid
    exact ensure_ok.1 h
  exact ⟨n, hn, hle.trans (by omega)⟩

/-- The page loop stops at an entry that is too large for an empty page, and nowhere else. -/
theorem takeEntries_yields (hmax : maximumBytes ≤ maxPageBytes) :
    ∀ {es taken : List RemoteExportJournalEntry} {bytes : Nat},
    (∀ e ∈ es, e.change.validate = .ok ()) → bytes ≤ maximumBytes →
    Yields (takeEntries store maximumEntries maximumBytes es taken bytes)
      (fun error => error = "remote export page byte limit is smaller than its next change" ∧
        taken = [] ∧ maximumBytes < bytes + (4 * maxChangePayloadBytes + 512)) fun _ => True
  | [], _, _, _, _ => yields_ok trivial
  | e :: es, taken, bytes, hvalid, hbytes => by
    obtain ⟨size, hsize, hle⟩ := encodedEntrySize_le hsizes (hvalid e List.mem_cons_self)
    have hpage : maxPageBytes = 8 * 1024 * 1024 := rfl
    have hpayload : maxChangePayloadBytes = 1024 * 1024 := rfl
    have hadd : ((checkedAdd 64 bytes size).bind fun total =>
        checkedAdd 64 total (if taken = [] then 0 else 1)) =
          some (bytes + size + if taken = [] then 0 else 1) := by
      unfold checkedAdd
      rw [if_pos (by omega), Option.bind_some, if_pos]
      split <;> omega
    simp only [takeEntries]
    split
    · exact yields_ok trivial
    · simp only [hsize, ok_bind, hadd, okOr]
      by_cases hfits : maximumBytes < bytes + size + if taken = [] then 0 else 1
      · rw [if_pos hfits]
        by_cases hempty : taken = []
        · rw [if_pos hempty] at hfits ⊢
          exact yields_error ⟨rfl, hempty, hfits.trans_le (Nat.add_le_add_left hle bytes)⟩
        · rw [if_neg hempty]
          exact yields_pure trivial
      · rw [if_neg hfits]
        refine (takeEntries_yields hmax (fun d hd => hvalid d (List.mem_cons_of_mem e hd))
          (not_lt.1 hfits)).mono ?_ fun _ h => h
        rintro error ⟨-, hnil, -⟩
        exact absurd hnil (by simp)

end

theorem dropWhile_below (h : Contiguous s) (cursor : Nat) :
    (s.entries.dropWhile fun entry => entry.sequence < cursor + 1) =
      s.entries.drop (cursor - s.retentionFloor) := by
  have hnumber := h.number
  generalize s.retentionFloor = floor at hnumber
  generalize s.entries = es at hnumber
  induction es generalizing floor with
  | nil => simp
  | cons e es ih =>
    have hfirst : e.sequence = floor + 1 := by simpa using hnumber 0 e rfl
    have hrest : ∀ (i : Nat) e', es[i]? = some e' → e'.sequence = floor + 1 + i + 1 := by
      intro i e' he'
      rw [hnumber (i + 1) e' (by simpa using he')]
      omega
    by_cases hlt : e.sequence < cursor + 1
    · rw [List.dropWhile_cons_of_pos (by simpa using hlt), ih (floor + 1) hrest,
        show cursor - floor = (cursor - (floor + 1)) + 1 by omega, List.drop_succ_cons]
    · rw [List.dropWhile_cons_of_neg (by simpa using hlt), show cursor - floor = 0 by omega,
        List.drop_zero]

/-- A page from `cursor` with `k` entries. -/
structure PageAt (s : StoredExportState) (cursor k : Nat) (page : RemoteExportDeltaPage) :
    Prop where
  entries : page.entries = (s.entries.drop (cursor - s.retentionFloor)).take k
  within : cursor + k ≤ s.currentSequence
  through : page.throughSequence = cursor + k
  next : page.nextCursor = ⟨s.deltaGeneration, cursor + k⟩
  progress : cursor < s.currentSequence → 0 < k

theorem pageAt_of_take (h : Contiguous s) {cursor : Nat} (hfloor : s.retentionFloor ≤ cursor)
    (hle : cursor ≤ s.currentSequence) (hpos : 0 < maximumEntries)
    {r : List RemoteExportJournalEntry} (hr : takeEntries store maximumEntries maximumBytes
      (s.entries.drop (cursor - s.retentionFloor)) [] 0 = .ok r) {fromSequence : Nat}
    {more : Bool} :
    ∃ k, PageAt s cursor k
      ⟨s.deltaGeneration, fromSequence, (r.getLast?.map (·.sequence)).getD cursor,
        ⟨s.deltaGeneration, (r.getLast?.map (·.sequence)).getD cursor⟩, more, r⟩ := by
  have hl := h.length
  obtain ⟨k, hk, rfl, hprogress⟩ := takeEntries_ok hr
  rw [List.nil_append]
  rw [List.length_drop] at hk
  have hthrough : ((((s.entries.drop (cursor - s.retentionFloor)).take k).getLast?).map
      (·.sequence)).getD cursor = cursor + k := by
    by_cases hzero : k = 0
    · subst hzero
      simp
    · have hlast : ((s.entries.drop (cursor - s.retentionFloor)).take k).getLast? =
          s.entries[cursor - s.retentionFloor + (k - 1)]? := by
        rw [List.getLast?_eq_getElem?, List.length_take, List.length_drop,
          min_eq_left (by omega), List.getElem?_take_of_lt (by omega), List.getElem?_drop]
      obtain ⟨e, he⟩ : ∃ e, s.entries[cursor - s.retentionFloor + (k - 1)]? = some e :=
        ⟨_, List.getElem?_eq_getElem (by omega)⟩
      rw [hlast, he, Option.map_some, Option.getD_some, h.number _ _ he]
      omega
  refine ⟨k, rfl, by omega, hthrough, by rw [hthrough], fun hlt => hprogress rfl ?_ hpos⟩
  rw [← List.length_pos_iff, List.length_drop]
  omega

theorem expiry_none {cursor : DeltaCursor} (h : s.expiry cursor = none) :
    cursor.generation = s.deltaGeneration ∧ s.retentionFloor ≤ cursor.sequence := by
  unfold StoredExportState.expiry at h
  split at h
  · cases h
  · rename_i hgeneration
    split at h
    · cases h
    · rename_i hfloor
      exact ⟨not_not.1 hgeneration, not_lt.1 hfloor⟩

theorem readPage_retained {cursor : DeltaCursor} {page : RemoteExportDeltaPage}
    (hr : readPage store s cursor maximumEntries maximumBytes = .ok (.page page)) :
    cursor.generation = s.deltaGeneration ∧ s.retentionFloor ≤ cursor.sequence ∧
      cursor.sequence ≤ s.currentSequence := by
  unfold readPage at hr
  split at hr
  · cases hr
  · rename_i hexpiry
    obtain ⟨_, hahead, -⟩ := bind_ok hr
    obtain ⟨hgeneration, hfloor⟩ := expiry_none hexpiry
    exact ⟨hgeneration, hfloor, not_lt.1 (ensure_ok.1 hahead)⟩

/-- **A page continues at its cursor.** -/
theorem readPage_ok (h : Contiguous s) {cursor : DeltaCursor}
    (hsmall : cursor.sequence + 1 < 2 ^ 64) {page : RemoteExportDeltaPage}
    (hr : readPage store s cursor maximumEntries maximumBytes = .ok (.page page)) :
    ∃ k, PageAt s cursor.sequence k page := by
  obtain ⟨-, hfloor, hle⟩ := readPage_retained hr
  unfold readPage at hr
  split at hr
  · cases hr
  · obtain ⟨-, -, hr⟩ := bind_ok hr
    obtain ⟨_, hbounds, hr⟩ := bind_ok hr
    obtain ⟨entries, htake, hr⟩ := bind_ok hr
    have hsat : saturatingAdd 64 cursor.sequence 1 = cursor.sequence + 1 := by
      unfold saturatingAdd
      omega
    rw [hsat, dropWhile_below h] at htake
    cases hr
    exact pageAt_of_take h hfloor hle (ensure_ok.1 hbounds).1 htake

theorem readPage_hasMore {cursor : DeltaCursor} {page : RemoteExportDeltaPage}
    (hr : readPage store s cursor maximumEntries maximumBytes = .ok (.page page)) :
    page.hasMore = decide (page.throughSequence < s.currentSequence) := by
  unfold readPage at hr
  split at hr
  · cases hr
  · obtain ⟨_, -, hr⟩ := bind_ok hr
    obtain ⟨_, -, hr⟩ := bind_ok hr
    obtain ⟨_, -, hr⟩ := bind_ok hr
    cases hr
    rfl

/-- **There is a next page** in a journal of valid changes. -/
theorem readPage_total (hjson : JsonBounds store) (hlimits : store.limits = {}) (h : Contiguous s)
    (hvalid : ∀ e ∈ s.entries, e.change.validate = .ok ()) {cursor : Nat}
    (hsmall : cursor + 1 < 2 ^ 64) (hfloor : s.retentionFloor ≤ cursor)
    (hle : cursor ≤ s.currentSequence) (hpos : 0 < maximumEntries)
    (hmax : maximumEntries ≤ maxPageEntries) :
    ∃ page, readPage store s ⟨s.deltaGeneration, cursor⟩ maximumEntries maxPageBytes =
      .ok (.page page) := by
  have hexpiry : s.expiry ⟨s.deltaGeneration, cursor⟩ = none := by
    unfold StoredExportState.expiry
    rw [if_neg (by simp), if_neg (not_lt.2 hfloor)]
  have hsat : saturatingAdd 64 cursor 1 = cursor + 1 := by
    unfold saturatingAdd
    omega
  obtain ⟨r, hr⟩ : ∃ r, takeEntries store maximumEntries maxPageBytes
      (s.entries.drop (cursor - s.retentionFloor)) [] 0 = .ok r := by
    obtain ⟨r, hr, -⟩ | ⟨_, -, -, -, hlt⟩ := (takeEntries_yields hjson.entry le_rfl
      (fun e he => hvalid e (List.mem_of_mem_drop he)) (Nat.zero_le _)).cases
    · exact ⟨r, hr⟩
    · exact absurd hlt (by decide)
  unfold readPage
  rw [hexpiry]
  dsimp only
  rw [ensure_of (not_lt.2 hle), ok_bind, ensure_of, ok_bind, hsat, dropWhile_below h, hr]
  · exact ⟨_, rfl⟩
  · rw [hlimits]
    exact ⟨hpos, hmax, by decide, le_refl _⟩

end

end Export
