import UsageMonit.Export.Proof.Pages
import UsageMonit.Export.Proof.Valid

/-!
# Reading the journal page by page

A reader asks for the page after its cursor, then for the page after the next cursor of that page,
until a page has no more (`readPages`); it chooses the limits of every page anew. Such a run ends:
a page with more is not empty. It ends with an entry that the limit of a page is too small for, or
with exactly the entries above the cursor (`ExactPaging`).

The sequence of the first entry of a page saturates. A cursor at the largest sequence has nothing
above it, but its page is the last entry again (`RepeatsLast`), and that is the only way to go
wrong (`readPages_exact_iff`).
-/

namespace Export

open Fallible Protocol

variable {e : RemoteExportJournalEntry}

structure PageLimits where
  maximumEntries : Nat
  maximumBytes : Nat
deriving DecidableEq

inductive PagingEnd
  | noMore
  | expired (expired : RemoteDeltaCursorExpired)
  | failed (error : String)
deriving DecidableEq

/-- The pages that a reader got, and why there are no others. -/
structure Paging where
  pages : List RemoteExportDeltaPage
  ending : PagingEnd
deriving DecidableEq

def Paging.entries (p : Paging) : List RemoteExportJournalEntry := p.pages.flatMap (·.entries)

/-- The message of a page that its byte limit leaves without its first entry. -/
def entryTooLarge : String := "remote export page byte limit is smaller than its next change"

section
variable (store : RemoteExportStateStore) (s : StoredExportState)

def PageLimits.Supported (limits : PageLimits) : Prop :=
  0 < limits.maximumEntries ∧ limits.maximumEntries ≤ store.limits.maximumPageEntries ∧
    0 < limits.maximumBytes ∧ limits.maximumBytes ≤ store.limits.maximumPageBytes

/-- The iteration of `readPage`: page `i` has the limits `limits i`. `none` is a run that `fuel`
pages did not end. -/
def readPages : Nat → (Nat → PageLimits) → DeltaCursor → Option Paging
  | 0, _, _ => none
  | fuel + 1, limits, cursor =>
    match readPage store s cursor (limits 0).maximumEntries (limits 0).maximumBytes with
    | .error error => some ⟨[], .failed error⟩
    | .ok (.cursorExpired expired) => some ⟨[], .expired expired⟩
    | .ok (.page page) =>
      if page.hasMore then
        (readPages fuel (fun i => limits (i + 1)) page.nextCursor).map fun rest =>
          ⟨page :: rest.pages, rest.ending⟩
      else some ⟨[page], .noMore⟩

/-- A run from sequence `c` that tells the reader what there is above `c`, or that an entry does
not fit in a page. -/
structure ExactPaging (c : Nat) (p : Paging) : Prop where
  progress : ∀ page ∈ p.pages, page.hasMore → page.entries ≠ []
  ending : p.ending = .failed entryTooLarge ∨
    p.ending = .noMore ∧ p.entries = (s.entries.filter fun e => c < e.sequence) ∧
      p.entries.map (·.sequence) = List.range' (c + 1) (s.currentSequence - c)

/-- However many pages the reader is ready to read, from enough of them on, the run is over and
exact. -/
def PagesExactly (c : Nat) (limits : Nat → PageLimits) : Prop :=
  ∃ p, (∀ fuel, s.currentSequence - c < fuel →
    readPages store s fuel limits ⟨s.deltaGeneration, c⟩ = some p) ∧ ExactPaging s c p

/-- A cursor at the largest sequence, and a last entry within the limit of the first page. -/
def RepeatsLast (c : Nat) (limits : PageLimits) : Prop :=
  c = 2 ^ 64 - 1 ∧ ∃ e ∈ s.entries.getLast?, ∃ size, store.encodedEntryJsonSize e = .ok size ∧
    size ≤ limits.maximumBytes

/-- The encoded size of an entry with a valid change. -/
def EntryBounds : Prop :=
  ∀ e : RemoteExportJournalEntry, e.change.validate = .ok () →
    ∃ n, store.encodedEntryJsonSize e = .ok n ∧ n ≤ 4 * e.change.payload.length + 512

end

variable {store : RemoteExportStateStore} {s : StoredExportState}

/-! ## One page -/

theorem readPage_within {c maximumEntries maximumBytes : Nat} (hfloor : s.retentionFloor ≤ c)
    (hle : c ≤ s.currentSequence)
    (hlimits : (⟨maximumEntries, maximumBytes⟩ : PageLimits).Supported store) :
    readPage store s ⟨s.deltaGeneration, c⟩ maximumEntries maximumBytes = (do
      let entries ← takeEntries store maximumEntries maximumBytes
        (s.entries.dropWhile fun entry => entry.sequence < saturatingAdd 64 c 1) [] 0
      let throughSequence := (entries.getLast?.map (·.sequence)).getD c
      pure (.page {
        generation := s.deltaGeneration
        fromSequence := (entries.head?.map (·.sequence)).getD c
        throughSequence
        nextCursor := ⟨s.deltaGeneration, throughSequence⟩
        hasMore := throughSequence < s.currentSequence
        entries })) := by
  have hexpiry : s.expiry ⟨s.deltaGeneration, c⟩ = none := by
    unfold StoredExportState.expiry
    rw [if_neg (by simp), if_neg (not_lt.2 hfloor)]
  unfold readPage
  rw [hexpiry]
  rw [ensure_of (not_lt.2 hle), ok_bind, ensure_of (by exact hlimits), ok_bind]

theorem saturatingAdd_one {c : Nat} (h : c + 1 < 2 ^ 64) : saturatingAdd 64 c 1 = c + 1 := by
  unfold saturatingAdd
  omega

theorem readPage_yields (hsizes : EntryBounds store) (hstore : store.limits = {}) (h : JournalOk s)
    {c : Nat} (hsmall : c + 1 < 2 ^ 64) (hfloor : s.retentionFloor ≤ c)
    (hle : c ≤ s.currentSequence) {limits : PageLimits} (hlimits : limits.Supported store) :
    Yields (readPage store s ⟨s.deltaGeneration, c⟩ limits.maximumEntries limits.maximumBytes)
      (· = entryTooLarge) fun r => ∃ page k, r = .page page ∧ PageAt s c k page ∧
        page.hasMore = decide (c + k < s.currentSequence) := by
  have hmax : limits.maximumBytes ≤ maxPageBytes := by
    have hbytes := hlimits.2.2.2
    rwa [hstore] at hbytes
  have hentries : ∀ e ∈ s.entries.drop (c - s.retentionFloor), e.change.validate = .ok () :=
    fun e he => h.changes e (List.mem_of_mem_drop he)
  rw [readPage_within hfloor hle hlimits, saturatingAdd_one hsmall, dropWhile_below h.contiguous]
  refine (takeEntries_yields hsizes hmax hentries (Nat.zero_le _)).with_eq.mono
    (fun _ he => he.1) (fun _ he => he.1) |>.bind fun entries htake => yields_pure ?_
  obtain ⟨k, hk⟩ := pageAt_of_take h.contiguous hfloor hle hlimits.1 htake
  have hthrough : (entries.getLast?.map (·.sequence)).getD c = c + k := hk.through
  exact ⟨_, k, rfl, hk, by rw [hthrough]⟩

/-! ## The run -/

theorem entries_above (h : Contiguous s) {c : Nat} (hfloor : s.retentionFloor ≤ c) :
    (s.entries.filter fun e => c < e.sequence) = s.entries.drop (c - s.retentionFloor) := by
  have hbelow : ((s.entries.take (c - s.retentionFloor)).filter fun e => c < e.sequence) = [] := by
    rw [List.filter_eq_nil_iff]
    intro e he
    obtain ⟨i, hi, rfl⟩ := List.mem_take_iff_getElem.1 he
    have hnumber := h.number i _ (List.getElem?_eq_getElem (by omega))
    simp only [decide_eq_true_eq]
    omega
  have habove : ∀ e ∈ s.entries.drop (c - s.retentionFloor), decide (c < e.sequence) = true := by
    intro e he
    obtain ⟨i, hi⟩ := List.mem_iff_getElem?.1 he
    rw [List.getElem?_drop] at hi
    rw [decide_eq_true_iff, h.number _ e hi]
    omega
  rw [← List.take_append_drop (c - s.retentionFloor) s.entries, List.filter_append, hbelow,
    List.filter_eq_self.2 habove, List.nil_append, List.take_append_drop]

theorem sequences_above (h : Contiguous s) {c : Nat} (hfloor : s.retentionFloor ≤ c) :
    (s.entries.drop (c - s.retentionFloor)).map (·.sequence) =
      List.range' (c + 1) (s.currentSequence - c) := by
  have hl := h.length
  refine List.ext_getElem? fun i => ?_
  rw [List.getElem?_map, List.getElem?_drop]
  by_cases hi : i < s.currentSequence - c
  · have hlt : c - s.retentionFloor + i < s.entries.length := by omega
    rw [List.getElem?_range' hi, List.getElem?_eq_getElem hlt, Option.map_some,
      h.number _ _ (List.getElem?_eq_getElem hlt)]
    congr 1
    omega
  · rw [List.getElem?_eq_none (by omega), List.getElem?_eq_none (by
      rw [List.length_range']
      omega)]
    rfl

/-- **A run from a cursor below the largest sequence is over and exact.** -/
theorem readPages_exact (hsizes : EntryBounds store) (hstore : store.limits = {})
    (h : JournalOk s) {n : Nat} : ∀ (c : Nat) (limits : Nat → PageLimits), c + 1 < 2 ^ 64 →
      s.retentionFloor ≤ c → c ≤ s.currentSequence → (∀ i, (limits i).Supported store) →
      s.currentSequence - c = n → PagesExactly store s c limits := by
  have hl := h.contiguous.length
  have hb := h.bounded
  -- every page with more brings the cursor closer to the end
  induction n using Nat.strong_induction_on with
  | _ n ih =>
    intro c limits hsmall hfloor hle hlimits hn
    rcases (readPage_yields hsizes hstore h hsmall hfloor hle (hlimits 0)).cases with
      ⟨_, hread, page, k, rfl, hk, hmore⟩ | ⟨error, hread, rfl⟩
    swap
    · refine ⟨⟨[], .failed entryTooLarge⟩, fun fuel hfuel => ?_, by simp, .inl rfl⟩
      obtain ⟨fuel, rfl⟩ := Nat.exists_eq_add_of_lt hfuel
      simp only [readPages, hread]
    have hwithin := hk.within
    by_cases hend : c + k = s.currentSequence
    · have hnone : page.hasMore = false := by
        rw [hmore, hend]
        simp
      have hentries : page.entries = s.entries.drop (c - s.retentionFloor) := by
        rw [hk.entries, List.take_of_length_le]
        rw [List.length_drop]
        omega
      refine ⟨⟨[page], .noMore⟩, fun fuel hfuel => ?_, by simp [hnone], .inr ⟨rfl, ?_, ?_⟩⟩
      · obtain ⟨fuel, rfl⟩ := Nat.exists_eq_add_of_lt hfuel
        simp only [readPages, hread, hnone, Bool.false_eq_true, if_false]
      · rw [entries_above h.contiguous hfloor, ← hentries]
        simp [Paging.entries]
      · rw [← sequences_above h.contiguous hfloor, ← hentries]
        simp [Paging.entries]
    · have hlt : c + k < s.currentSequence := by omega
      have hsome : page.hasMore = true := by rw [hmore, decide_eq_true_iff.2 hlt]
      have hpos := hk.progress (by omega)
      obtain ⟨p, hp, hexact⟩ := ih (s.currentSequence - (c + k)) (by omega) (c + k)
        (fun i => limits (i + 1)) (by omega) (by omega) (by omega) (fun i => hlimits (i + 1)) rfl
      have hnonempty : page.entries ≠ [] := by
        rw [hk.entries, ← List.length_pos_iff, List.length_take, List.length_drop]
        omega
      have hjoin : page.entries ++ s.entries.drop (c + k - s.retentionFloor) =
          s.entries.drop (c - s.retentionFloor) := by
        rw [hk.entries, show c + k - s.retentionFloor = c - s.retentionFloor + k by omega,
          ← List.drop_drop, List.take_append_drop]
      refine ⟨⟨page :: p.pages, p.ending⟩, fun fuel hfuel => ?_, ?_, ?_⟩
      · obtain ⟨fuel, rfl⟩ := Nat.exists_eq_add_of_lt hfuel
        simp only [readPages, hread, hsome, if_true, hk.next]
        rw [hp _ (by omega), Option.map_some]
      · exact List.forall_mem_cons.2 ⟨fun _ => hnonempty, hexact.progress⟩
      · refine hexact.ending.imp id ?_
        rintro ⟨hending, hentries, -⟩
        refine ⟨hending, ?_⟩
        have hall : Paging.entries ⟨page :: p.pages, p.ending⟩ =
            s.entries.drop (c - s.retentionFloor) := by
          rw [← hjoin, ← entries_above h.contiguous (show s.retentionFloor ≤ c + k by omega),
            ← hentries]
          rfl
        rw [hall, entries_above h.contiguous hfloor, sequences_above h.contiguous hfloor]
        exact ⟨rfl, rfl⟩

/-! ## The largest sequence -/

theorem Contiguous.getLast (h : Contiguous s) (he : s.entries.getLast? = some e) :
    e.sequence = s.currentSequence := by
  have hl := h.length
  rw [List.getLast?_eq_getElem?] at he
  have hpos : 0 < s.entries.length := by
    by_contra hzero
    rw [List.getElem?_eq_none (by omega)] at he
    cases he
  rw [h.number _ e he]
  omega

section
variable {c : Nat} (hc : c = 2 ^ 64 - 1)

include hc in
theorem dropWhile_largest (h : Contiguous s) (hcurrent : s.currentSequence = c) :
    (s.entries.dropWhile fun entry => entry.sequence < saturatingAdd 64 c 1) =
      s.entries.getLast?.toList := by
  have hl := h.length
  have hsat : saturatingAdd 64 c 1 = c - 1 + 1 := by
    unfold saturatingAdd
    omega
  rw [hsat, dropWhile_below h]
  rcases List.eq_nil_or_concat s.entries with hnil | ⟨es, e, hes⟩
  · simp [hnil]
  · have hlen : s.entries.length = es.length + 1 := by simp [hes]
    rw [show c - 1 - s.retentionFloor = es.length by omega, hes]
    simp

theorem takeEntries_single {size maximumEntries maximumBytes : Nat} (hpos : 0 < maximumEntries)
    (hsize : store.encodedEntryJsonSize e = .ok size) (hsmall : size < 2 ^ 64) :
    takeEntries store maximumEntries maximumBytes [e] [] 0 =
      if maximumBytes < size then .error entryTooLarge else .ok [e] := by
  have hadd : ((checkedAdd 64 0 size).bind fun total => checkedAdd 64 total 0) = some size := by
    simp only [checkedAdd, Nat.zero_add, Nat.add_zero, if_pos hsmall, Option.bind_some]
  have hroom : ¬ ([] : List RemoteExportJournalEntry).length = maximumEntries := by
    simpa using hpos.ne
  simp only [takeEntries, if_neg hroom, hsize, ok_bind, if_true, hadd, okOr]
  rfl

theorem readPages_nil (h : Contiguous s) (hcurrent : s.currentSequence = c)
    (hnil : s.entries = []) {limits : Nat → PageLimits} (hlimits : (limits 0).Supported store) :
    PagesExactly store s c limits := by
  have hl := h.length
  rw [hnil, List.length_nil] at hl
  have hread := readPage_within (show s.retentionFloor ≤ c by omega) hcurrent.ge hlimits
  rw [hnil] at hread
  refine ⟨⟨[⟨s.deltaGeneration, c, c, ⟨s.deltaGeneration, c⟩, false, []⟩], .noMore⟩,
    fun fuel hfuel => ?_, by simp, .inr ⟨rfl, ?_, ?_⟩⟩
  · obtain ⟨fuel, rfl⟩ := Nat.exists_eq_add_of_lt hfuel
    simp only [readPages, hread, List.dropWhile_nil, takeEntries, ok_bind, hcurrent,
      List.getLast?_nil, List.head?_nil, Option.map_none, Option.getD_none, lt_irrefl,
      decide_false, pure, Except.pure, Bool.false_eq_true, if_false]
  · rw [hnil, List.filter_nil]
    rfl
  · rw [hcurrent, Nat.sub_self, List.range'_zero]
    rfl

include hc in
theorem readPages_largest (h : Contiguous s) (hcurrent : s.currentSequence = c)
    (hlast : s.entries.getLast? = some e) {size : Nat}
    (hsize : store.encodedEntryJsonSize e = .ok size) (hsmall : size < 2 ^ 64)
    {limits : Nat → PageLimits} (hlimits : (limits 0).Supported store) :
    PagesExactly store s c limits ↔ (limits 0).maximumBytes < size := by
  have hl := h.length
  have hfloor : s.retentionFloor ≤ c := by omega
  have habove : (s.entries.filter fun e => c < e.sequence) = [] := by
    rw [entries_above h hfloor, List.drop_eq_nil_iff]
    omega
  have hread := readPage_within hfloor hcurrent.ge hlimits
  rw [dropWhile_largest hc h hcurrent, hlast, Option.toList_some,
    takeEntries_single hlimits.1 hsize hsmall] at hread
  constructor
  · rintro ⟨p, hp, hexact⟩
    by_contra hfits
    rw [if_neg hfits, ok_bind] at hread
    have hrun := hp 1 (by omega)
    simp only [readPages, hread, List.getLast?_singleton, Option.map_some, Option.getD_some,
      h.getLast hlast, hcurrent, pure, Except.pure, lt_irrefl, decide_false, Bool.false_eq_true,
      if_false, Option.some.injEq] at hrun
    subst hrun
    rcases hexact.ending with hfailed | ⟨-, hentries, -⟩
    · cases hfailed
    · rw [habove] at hentries
      cases hentries
  · intro hlarge
    rw [if_pos hlarge, error_bind] at hread
    refine ⟨⟨[], .failed entryTooLarge⟩, fun fuel hfuel => ?_, by simp, .inl rfl⟩
    obtain ⟨fuel, rfl⟩ := Nat.exists_eq_add_of_lt hfuel
    simp only [readPages, hread]

end

/-- **Paging is exact** unless the run starts at the largest sequence and the first page has room
for the last entry. -/
theorem readPages_exact_iff (hvalid : s.validate store = .ok ())
    (hbounded : s.currentSequence < 2 ^ 64) (hstore : store.limits = {})
    (hsizes : EntryBounds store) {c : Nat} (hfloor : s.retentionFloor ≤ c)
    (hcurrent : c ≤ s.currentSequence) {limits : Nat → PageLimits}
    (hlimits : ∀ i, (limits i).Supported store) :
    PagesExactly store s c limits ↔ ¬ RepeatsLast store s c (limits 0) := by
  have h := (sound_of_validate hvalid hbounded).journal
  by_cases hsmall : c + 1 < 2 ^ 64
  · refine iff_of_true (readPages_exact hsizes hstore h c limits hsmall hfloor hcurrent hlimits rfl)
      ?_
    rintro ⟨hlargest, -⟩
    omega
  · have hlargest : s.currentSequence = c := by omega
    cases hlast : s.entries.getLast? with
    | none =>
      refine iff_of_true (readPages_nil h.contiguous hlargest
        (List.getLast?_eq_none_iff.1 hlast) (hlimits 0)) ?_
      rintro ⟨-, e, he, -⟩
      rw [hlast] at he
      cases he
    | some e =>
      obtain ⟨size, hsize, hle⟩ := encodedEntrySize_le hsizes (h.changes e (List.mem_of_getLast? hlast))
      have hpayload : maxChangePayloadBytes = 1024 * 1024 := rfl
      rw [readPages_largest (by omega) h.contiguous hlargest hlast hsize (by omega) (hlimits 0),
        ← not_le, not_iff_not]
      constructor
      · exact fun hfits => ⟨by omega, e, hlast, size, hsize, hfits⟩
      · rintro ⟨-, d, hd, n, hn, hfits⟩
        rw [hlast] at hd
        cases hd
        rw [hsize] at hn
        cases hn
        exact hfits

namespace Sample

/-- A journal whose one entry has the largest sequence. -/
def full : StoredExportState := { appended with
  currentSequence := 2 ^ 64 - 1
  retentionFloor := 2 ^ 64 - 2
  entries := [⟨2 ^ 64 - 1, 1, upsertA⟩] }

theorem entryBounds : EntryBounds Sample.store := fun _ _ => ⟨200, rfl, by omega⟩

def pageLimits (_ : Nat) : PageLimits := ⟨2, 4096⟩

theorem pageLimits_supported (i : Nat) : (pageLimits i).Supported Sample.store := by
  refine ⟨?_, ?_, ?_, ?_⟩ <;> simp only [pageLimits] <;> decide

end Sample

theorem readPages_exact_sample : PagesExactly Sample.store Sample.appended 0 Sample.pageLimits := by
  refine (readPages_exact_iff rfl (by decide) rfl Sample.entryBounds (by decide) (by decide)
    Sample.pageLimits_supported).2 ?_
  rintro ⟨h, -⟩
  exact absurd h (by decide)

/-- The reader that has everything up to the largest sequence gets the last entry again. -/
theorem last_entry_repeats :
    ¬ ∀ (store : RemoteExportStateStore) (s : StoredExportState), s.validate store = .ok () →
      s.currentSequence < 2 ^ 64 → store.limits = {} → EntryBounds store →
      ∀ c, s.retentionFloor ≤ c → c ≤ s.currentSequence → ∀ limits : Nat → PageLimits,
      (∀ i, (limits i).Supported store) → PagesExactly store s c limits := by
  intro h
  obtain ⟨p, hp, hexact⟩ := h Sample.store Sample.full rfl (by decide) rfl Sample.entryBounds
    (2 ^ 64 - 1) (by decide) (by decide) Sample.pageLimits Sample.pageLimits_supported
  have hrun : readPages Sample.store Sample.full 1 Sample.pageLimits ⟨7, 2 ^ 64 - 1⟩ =
      some ⟨[⟨7, 2 ^ 64 - 1, 2 ^ 64 - 1, ⟨7, 2 ^ 64 - 1⟩, false,
        [⟨2 ^ 64 - 1, 1, Sample.upsertA⟩]⟩], .noMore⟩ := rfl
  have hp1 := hp 1 (by decide)
  rw [show (⟨Sample.full.deltaGeneration, 2 ^ 64 - 1⟩ : DeltaCursor) = ⟨7, 2 ^ 64 - 1⟩ from rfl,
    hrun, Option.some.injEq] at hp1
  subst hp1
  rcases hexact.ending with hfailed | ⟨-, hentries, -⟩
  · cases hfailed
  · cases hentries

end Export
