import Mathlib.Data.List.Perm.Lattice
import UsageMonit.Bandwidth.Proof.WellFormed

/-!
# Minute buckets are safe

Merging the minute buckets of a ledger groups its entries: every entry of the result stands for
entries of one source, one kind and one minute, and is as large as they are together and as late as
the latest of them (`Coarsens`, `merge_coarsens`). A second merge changes the result unless no
committed entry fits in with the one before it of its source and minute (`merge_again_iff`).
-/

namespace Bandwidth

open Fallible Time StoredRemoteBandwidthLedger

/-! ## What an entry stands for -/

variable {parts : List LedgerEntry} {l : StoredRemoteBandwidthLedger}

/-- An entry stands for some entries. -/
structure Coarsens (whole : LedgerEntry) (parts : List LedgerEntry) : Prop where
  bytes : whole.bytes = (parts.map (·.bytes)).sum
  source : ∀ p ∈ parts, p.storageKey = whole.storageKey
  kind : ∀ p ∈ parts, p.kind = whole.kind
  minute : ∀ p ∈ parts, utcMinuteKey p.recordedAt = utcMinuteKey whole.recordedAt
  later : ∀ p ∈ parts, p.recordedAt ≤ whole.recordedAt
  reserved : whole.kind = .reserved → parts = [whole]

theorem coarsens_self (e : LedgerEntry) : Coarsens e [e] where
  bytes := by simp
  source := by simp
  kind := by simp
  minute := by simp
  later := by simp
  reserved _ := rfl

theorem utcMinuteKey_max {a b : DateTime} (h : utcMinuteKey a = utcMinuteKey b) :
    utcMinuteKey (max a b) = utcMinuteKey a := by
  rcases max_choice a b with hmax | hmax
  · rw [hmax]
  · rw [hmax, h]

theorem lt_of_utcMinuteKey {a b : Int} (h : utcMinuteKey a = utcMinuteKey b) :
    a < b + seconds 60 := by
  unfold utcMinuteKey at h
  unfold seconds
  omega

theorem Coarsens.absorb {whole entry : LedgerEntry} (h : Coarsens whole parts)
    (hwhole : whole.kind = .committed) (hentry : entry.kind = .committed)
    (hkey : bucketKey entry = bucketKey whole) :
    Coarsens (absorb entry whole) (parts ++ [entry]) := by
  obtain ⟨hsource, hminute⟩ := Prod.ext_iff.1 hkey
  have hmax : utcMinuteKey (max whole.recordedAt entry.recordedAt) =
      utcMinuteKey whole.recordedAt := utcMinuteKey_max hminute.symm
  refine ⟨?_, ?_, ?_, ?_, ?_, ?_⟩
  · simp [StoredRemoteBandwidthLedger.absorb, h.bytes]
  · rw [List.forall_mem_append, List.forall_mem_singleton]
    exact ⟨h.source, hsource⟩
  · rw [List.forall_mem_append, List.forall_mem_singleton]
    exact ⟨h.kind, hentry.trans hwhole.symm⟩
  · rw [List.forall_mem_append, List.forall_mem_singleton]
    exact ⟨fun p hp => (h.minute p hp).trans hmax.symm, hminute.trans hmax.symm⟩
  · rw [List.forall_mem_append, List.forall_mem_singleton]
    exact ⟨fun p hp => (h.later p hp).trans (le_max_left _ _), le_max_right _ _⟩
  · intro hreserved
    cases hwhole.symm.trans hreserved

/-- What an entry charges is what the entries it stands for charge. -/
theorem Coarsens.charge {whole : LedgerEntry} (h : Coarsens whole parts) (kind : LedgerEntryKind)
    (hostId : String) (nodeId : Option NodeId) :
    charge kind hostId nodeId whole = (parts.map (charge kind hostId nodeId)).sum := by
  have hsame : ∀ p ∈ parts, Bandwidth.charge kind hostId nodeId p =
      if whole.kind = kind ∧ whole.matchesSource hostId nodeId = true then p.bytes else 0 := by
    intro p hp
    unfold Bandwidth.charge
    rw [h.kind p hp, matchesSource_congr (h.source p hp)]
  rw [List.map_congr_left hsame]
  unfold Bandwidth.charge
  split
  · exact h.bytes
  · simp

/-- An entry expires with the last of the entries it stands for, less than a minute later than any
of them. -/
theorem Coarsens.within_minute {whole : LedgerEntry} (h : Coarsens whole parts) {p : LedgerEntry}
    (hp : p ∈ parts) :
    whole.recordedAt < p.recordedAt + seconds 60 := lt_of_utcMinuteKey (h.minute p hp).symm

theorem sum_charge_coarsens {wholes : List LedgerEntry} {parts : List (List LedgerEntry)}
    (h : List.Forall₂ Coarsens wholes parts) (kind : LedgerEntryKind) (hostId : String)
    (nodeId : Option NodeId) :
    (wholes.map (charge kind hostId nodeId)).sum =
      (parts.flatten.map (charge kind hostId nodeId)).sum := by
  induction h with
  | nil => rfl
  | cons hhead _ ih => simp [hhead.charge, ih]

/-! ## The groups of a compaction -/

theorem forall₂_modify {α β : Type} {R : α → β → Prop} {f : α → α} {g : β → β} {l : List α}
    {l' : List β} (h : List.Forall₂ R l l') {i : Nat} {a : α} (hi : l[i]? = some a)
    (hR : ∀ b, R a b → R (f a) (g b)) : List.Forall₂ R (l.modify i f) (l'.modify i g) := by
  induction h generalizing i with
  | nil => cases hi
  | cons hhead htail ih =>
    cases i with
    | zero =>
      cases hi
      exact .cons (hR _ hhead) htail
    | succ i => exact .cons hhead (ih (by simpa using hi))

theorem flatten_modify {α : Type} {a : α} {l : List (List α)} {i : Nat} (hi : i < l.length) :
    (l.modify i (· ++ [a])).flatten.Perm (l.flatten ++ [a]) := by
  induction l generalizing i with
  | nil => cases hi
  | cons x l ih =>
    cases i with
    | zero =>
      rw [List.modify_zero_cons, List.flatten_cons, List.flatten_cons, List.append_assoc,
        List.append_assoc]
      exact (List.perm_append_comm).append_left x
    | succ i =>
      rw [List.modify_succ_cons, List.flatten_cons, List.flatten_cons, List.append_assoc]
      exact (ih (by simpa using hi)).append_left x

/-- A compaction groups the entries it has seen, and files its bins by source and minute. -/
structure Groups (c : Compaction) (seen : List LedgerEntry) : Prop where
  grouped : ∃ parts, List.Forall₂ Coarsens c.compacted parts ∧ parts.flatten.Perm seen
  bins : ∀ key index, c.committedGroups.lookup key = some index → ∃ e,
    c.compacted[index]? = some e ∧ e.kind = .committed ∧ bucketKey e = key

theorem committed_of_not_reserved {entry : LedgerEntry} (h : ¬ entry.kind = .reserved) :
    entry.kind = .committed := by
  cases hkind : entry.kind with
  | committed => rfl
  | reserved => exact absurd hkind h

section
variable {c c' : Compaction} {entry : LedgerEntry} {seen : List LedgerEntry}

section

variable (h : Groups c seen)

include h

theorem Groups.push (groups : List ((String × Int) × Nat))
    (hbins : ∀ key index, groups.lookup key = some index → ∃ e,
      (c.compacted ++ [entry])[index]? = some e ∧ e.kind = .committed ∧ bucketKey e = key) :
    Groups ⟨c.compacted ++ [entry], groups⟩ (seen ++ [entry]) := by
  obtain ⟨parts, hparts, hperm⟩ := h.grouped
  refine ⟨⟨parts ++ [[entry]], ?_, ?_⟩, hbins⟩
  · exact List.rel_append hparts (.cons (coarsens_self entry) .nil)
  · rw [List.flatten_append, List.flatten_singleton]
    exact hperm.append_right _

theorem Groups.kept {key : String × Int} {index : Nat}
    (hlook : c.committedGroups.lookup key = some index) : ∃ e,
      (c.compacted ++ [entry])[index]? = some e ∧ e.kind = .committed ∧ bucketKey e = key := by
  obtain ⟨e, he, hbin⟩ := h.bins key index hlook
  refine ⟨e, ?_, hbin⟩
  rw [List.getElem?_append_left (List.getElem?_eq_some_iff.1 he).1]
  exact he

theorem Groups.openBin (hk : entry.kind = .committed) :
    Groups (openBin c entry) (seen ++ [entry]) := by
  refine h.push _ fun key index hlook => ?_
  rw [List.lookup_cons] at hlook
  split at hlook
  · rename_i hkey
    cases hlook
    exact ⟨entry, by simp, hk, (by simpa using hkey : key = bucketKey entry).symm⟩
  · exact h.kept hlook

/-- **One entry** joins a bin of its source and minute or stands for itself. -/
theorem Groups.step (hc : compactEntry c entry = .ok c') : Groups c' (seen ++ [entry]) := by
  unfold compactEntry at hc
  split at hc
  · cases hc
    exact h.push _ fun key index hlook => h.kept hlook
  · rename_i hk
    have hcommitted := committed_of_not_reserved hk
    split at hc
    · cases hc
      exact h.openBin hcommitted
    · rename_i index hlook
      obtain ⟨previous, hprevious, hc⟩ := bind_ok hc
      obtain ⟨combined, -, hc⟩ := bind_ok hc
      have hprevious := okOr_ok.1 hprevious
      obtain ⟨e, he, hkind, hkey⟩ := h.bins _ _ hlook
      obtain rfl := Option.some.inj (hprevious.symm.trans he)
      split at hc
      · cases hc
        obtain ⟨parts, hparts, hperm⟩ := h.grouped
        have hlt : index < parts.length :=
          hparts.length_eq ▸ (List.getElem?_eq_some_iff.1 hprevious).1
        refine ⟨⟨parts.modify index (· ++ [entry]), ?_, ?_⟩, fun key i hi => ?_⟩
        · exact forall₂_modify hparts hprevious fun ps hps => hps.absorb hkind hcommitted hkey.symm
        · exact (flatten_modify hlt).trans (hperm.append_right _)
        · obtain ⟨bin, hbin, hbinKind, hbinKey⟩ := h.bins key i hi
          by_cases hidx : i = index
          · subst hidx
            obtain rfl := Option.some.inj (hprevious.symm.trans hbin)
            refine ⟨absorb entry previous, ?_, hkind, ?_⟩
            · simp [hprevious]
            · rw [← hbinKey]
              exact Prod.ext_iff.2 ⟨rfl, utcMinuteKey_max (congrArg Prod.snd hkey)⟩
          · exact ⟨bin, by simp [hbin, Ne.symm hidx], hbinKind, hbinKey⟩
      · cases hc
        exact h.openBin hcommitted

theorem groups_foldlM {es : List LedgerEntry}
    (hfold : es.foldlM compactEntry c = .ok c') : Groups c' (seen ++ es) := by
  induction es generalizing c seen with
  | nil =>
    cases hfold
    simpa using h
  | cons e es ih =>
    rw [List.foldlM_cons] at hfold
    obtain ⟨c₁, h₁, hfold⟩ := bind_ok hfold
    simpa using ih (h.step h₁) hfold

/-- Entries within the bound of an entry leave no step without a result. -/
theorem compactEntry_total (hc : ∀ e ∈ c.compacted, e.bytes ≤ maxBytesPerEntry)
    (he : entry.bytes ≤ maxBytesPerEntry) : ∃ c', compactEntry c entry = .ok c' := by
  unfold compactEntry
  split
  · exact ⟨_, rfl⟩
  · split
    · exact ⟨_, rfl⟩
    · rename_i index hlook
      obtain ⟨previous, hprevious, -⟩ := h.bins _ _ hlook
      have hle := hc previous (List.mem_of_getElem? hprevious)
      have hfits : checkedAdd 64 previous.bytes entry.bytes = some (previous.bytes + entry.bytes) := by
        unfold checkedAdd
        rw [if_pos]
        unfold maxBytesPerEntry at hle he
        omega
      simp only [okOr_ok.2 hprevious, okOr_ok.2 hfits, ok_bind]
      split
      · exact ⟨_, rfl⟩
      · exact ⟨_, rfl⟩

theorem compact_total {es : List LedgerEntry} (hc : ∀ e ∈ c.compacted, e.bytes ≤ maxBytesPerEntry)
    (hes : ∀ e ∈ es, e.bytes ≤ maxBytesPerEntry) : ∃ c', es.foldlM compactEntry c = .ok c' := by
  induction es generalizing c seen with
  | nil => exact ⟨c, rfl⟩
  | cons e es ih =>
    obtain ⟨he, hes⟩ := List.forall_mem_cons.1 hes
    obtain ⟨c₁, h₁⟩ := compactEntry_total h hc he
    have hc₁ := (compactEntry_keeps (fun e => e.bytes ≤ maxBytesPerEntry)
      (fun p _ hle => hle) he hc h₁).1
    obtain ⟨c', hc'⟩ := ih (h.step h₁) hc₁ hes
    exact ⟨c', by rw [List.foldlM_cons, h₁, ok_bind, hc']⟩

end

end

theorem groups_nil : Groups ⟨[], []⟩ [] := ⟨⟨[], .nil, .nil⟩, fun _ _ hlook => by cases hlook⟩

theorem bytes_le_of_valid {e : LedgerEntry} (h : e.validate = .ok ()) :
    e.bytes ≤ maxBytesPerEntry := ((LedgerEntry.validate_iff e).1 h).2.2.1.2

/-- **Merging groups the entries** of a ledger that only has to be sorted. -/
theorem merge_coarsens (hl : Sortable l) :
    ∃ l', l.mergeCommittedMinuteBuckets = .ok l' ∧
      ∃ parts, List.Forall₂ Coarsens l'.entries parts ∧ parts.flatten.Perm l.entries := by
  have hbytes : ∀ e ∈ l.sortEntries.entries, e.bytes ≤ maxBytesPerEntry :=
    fun e he => bytes_le_of_valid (hl.sort.entriesOk.valid e he)
  obtain ⟨c, hc⟩ := compact_total groups_nil (by simp) hbytes
  refine ⟨_, by rw [mergeCommittedMinuteBuckets, hc, ok_bind]; rfl, ?_⟩
  obtain ⟨parts, hparts, hperm⟩ := (groups_foldlM groups_nil hc).grouped
  have hsorted := perm_sortEntries { l.sortEntries with entries := c.compacted }
  obtain ⟨parts', hparts', hperm'⟩ : Relation.Comp (List.Forall₂ Coarsens) List.Perm
      ({ l.sortEntries with entries := c.compacted } :
        StoredRemoteBandwidthLedger).sortEntries.entries parts :=
    List.perm_comp_forall₂ hsorted hparts
  exact ⟨parts', hparts', hperm'.flatten.trans (hperm.trans (perm_sortEntries l))⟩

theorem merge_charge {l' : StoredRemoteBandwidthLedger} (hl : Sortable l)
    (h : l.mergeCommittedMinuteBuckets = .ok l') (kind : LedgerEntryKind) (hostId : String)
    (nodeId : Option NodeId) : (l'.entries.map (charge kind hostId nodeId)).sum =
      (l.entries.map (charge kind hostId nodeId)).sum := by
  obtain ⟨l₁, h₁, parts, hparts, hperm⟩ := merge_coarsens hl
  obtain rfl := Except.ok.inj (h.symm.trans h₁)
  rw [sum_charge_coarsens hparts]
  exact (hperm.map _).sum_eq

/-! ## Merging again -/

/-- The last committed entry of a source and minute. -/
def lastBin (key : String × Int) (entries : List LedgerEntry) : Option LedgerEntry :=
  entries.reverse.find? fun e => decide (e.kind = .committed ∧ bucketKey e = key)

/-- A committed entry does not fit in with the last one before it of its source and minute. -/
def Apart (before : List LedgerEntry) (entry : LedgerEntry) : Prop :=
  entry.kind = .committed → ∀ last, lastBin (bucketKey entry) before = some last →
    maxBytesPerEntry < last.bytes + entry.bytes

/-- A compaction that has merged nothing yet. -/
structure Untouched (c : Compaction) (seen : List LedgerEntry) : Prop where
  compacted : c.compacted = seen
  bin : ∀ key index, c.committedGroups.lookup key = some index →
    lastBin key seen = seen[index]? ∧ index < seen.length
  noBin : ∀ key, c.committedGroups.lookup key = none → lastBin key seen = none

section
variable {c c' : Compaction} {entry : LedgerEntry} {seen : List LedgerEntry} {key : String × Int}

theorem lastBin_append : lastBin key (seen ++ [entry]) =
    if entry.kind = .committed ∧ bucketKey entry = key then some entry else lastBin key seen := by
  unfold lastBin
  rw [List.reverse_append, List.reverse_singleton, List.singleton_append, List.find?_cons]
  by_cases h : entry.kind = .committed ∧ bucketKey entry = key
  · simp [h]
  · simp [h]

theorem Untouched.reserved (h : Untouched c seen) (hk : entry.kind = .reserved) :
    Untouched { c with compacted := c.compacted ++ [entry] } (seen ++ [entry]) := by
  have hsame (key : String × Int) : lastBin key (seen ++ [entry]) = lastBin key seen := by
    rw [lastBin_append, if_neg (by simp [hk])]
  refine ⟨by simp [h.compacted], fun key index hlook => ?_, fun key hlook => ?_⟩
  · obtain ⟨hbin, hlt⟩ := h.bin key index hlook
    rw [hsame, hbin, List.getElem?_append_left hlt, List.length_append]
    exact ⟨rfl, by omega⟩
  · rw [hsame]
    exact h.noBin key hlook

theorem Untouched.openBin (h : Untouched c seen) (hk : entry.kind = .committed) :
    Untouched (openBin c entry) (seen ++ [entry]) := by
  refine ⟨by simp [StoredRemoteBandwidthLedger.openBin, h.compacted], fun key index hlook => ?_,
    fun key hlook => ?_⟩
  · simp only [StoredRemoteBandwidthLedger.openBin, List.lookup_cons, h.compacted] at hlook
    rw [lastBin_append]
    split at hlook
    · rename_i hkey
      cases hlook
      rw [if_pos ⟨hk, (by simpa using hkey : key = bucketKey entry).symm⟩]
      simp
    · rename_i hkey
      obtain ⟨hbin, hlt⟩ := h.bin key index hlook
      rw [if_neg (by rintro ⟨-, rfl⟩; simp at hkey), hbin, List.getElem?_append_left hlt,
        List.length_append]
      exact ⟨rfl, by omega⟩
  · simp only [StoredRemoteBandwidthLedger.openBin, List.lookup_cons] at hlook
    rw [lastBin_append]
    split at hlook
    · cases hlook
    · rename_i hkey
      rw [if_neg (by rintro ⟨-, rfl⟩; simp at hkey)]
      exact h.noBin key hlook

/-- **One entry of a second merge** is left alone exactly if it is apart. -/
theorem Untouched.step (h : Untouched c seen) (hc : compactEntry c entry = .ok c') :
    (Apart seen entry → Untouched c' (seen ++ [entry])) ∧
      (¬ Apart seen entry → c'.compacted.length = seen.length) := by
  unfold compactEntry at hc
  split at hc
  · rename_i hk
    cases hc
    refine ⟨fun _ => h.reserved hk, fun hnot => ?_⟩
    exact absurd (fun hcommitted => by cases hk.symm.trans hcommitted) hnot
  · rename_i hk
    have hcommitted := committed_of_not_reserved hk
    split at hc
    · rename_i hlook
      cases hc
      refine ⟨fun _ => h.openBin hcommitted, fun hnot => ?_⟩
      refine absurd (fun _ last hlast => ?_) hnot
      rw [h.noBin _ hlook] at hlast
      cases hlast
    · rename_i index hlook
      obtain ⟨previous, hprevious, hc⟩ := bind_ok hc
      obtain ⟨combined, hcombined, hc⟩ := bind_ok hc
      have hprevious := okOr_ok.1 hprevious
      obtain ⟨rfl, -⟩ := checkedAdd_eq_some (okOr_ok.1 hcombined)
      obtain ⟨hbin, -⟩ := h.bin _ _ hlook
      rw [h.compacted] at hprevious
      rw [hprevious] at hbin
      split at hc
      · rename_i hle
        cases hc
        refine ⟨fun hapart => ?_, fun _ => by simp [h.compacted]⟩
        exact absurd (hapart hcommitted previous hbin) (Nat.not_lt.2 hle)
      · rename_i hgt
        cases hc
        refine ⟨fun _ => h.openBin hcommitted, fun hnot => ?_⟩
        refine absurd (fun _ last hlast => ?_) hnot
        obtain rfl := Option.some.inj (hbin.symm.trans hlast)
        exact Nat.not_le.1 hgt

theorem compact_length {es : List LedgerEntry} (h : es.foldlM compactEntry c = .ok c') :
    c'.compacted.length ≤ c.compacted.length + es.length := by
  have hkeeps := (compactEntries_keep (fun _ => True) (fun _ _ _ _ _ => trivial)
    (fun _ _ => trivial) (fun _ _ => trivial) h).2.length_le
  simpa using hkeeps

/-- The entries of a second merge: either each of them is apart and nothing changes, or there are
fewer of them. -/
theorem untouched_foldlM {es : List LedgerEntry} (h : Untouched c seen)
    (hfold : es.foldlM compactEntry c = .ok c') :
    ((∀ pre e post, es = pre ++ e :: post → Apart (seen ++ pre) e) ∧ c'.compacted = seen ++ es) ∨
      (∃ pre e post, es = pre ++ e :: post ∧ ¬ Apart (seen ++ pre) e) ∧
        c'.compacted.length < seen.length + es.length := by
  induction es generalizing c seen with
  | nil =>
    cases hfold
    refine .inl ⟨fun pre e post hnil => ?_, by simp [h.compacted]⟩
    simp at hnil
  | cons first es ih =>
    rw [List.foldlM_cons] at hfold
    obtain ⟨c₁, h₁, hfold⟩ := bind_ok hfold
    obtain ⟨hleft, hjoined⟩ := h.step h₁
    by_cases hfirst : Apart seen first
    · rcases ih (hleft hfirst) hfold with ⟨hall, hsame⟩ | ⟨⟨pre, e, post, rfl, hnot⟩, hlt⟩
      · refine .inl ⟨fun pre e post heq => ?_, by simpa using hsame⟩
        cases pre with
        | nil =>
          obtain ⟨rfl, -⟩ := List.cons.inj heq
          simpa using hfirst
        | cons x pre =>
          obtain ⟨rfl, hrest⟩ := List.cons.inj heq
          simpa using hall pre e post hrest
      · refine .inr ⟨⟨first :: pre, e, post, rfl, by simpa using hnot⟩, ?_⟩
        simp only [List.length_append, List.length_cons, List.length_nil] at hlt ⊢
        omega
    · refine .inr ⟨⟨[], first, es, rfl, by simpa using hfirst⟩, ?_⟩
      have hlen := compact_length hfold
      have hsame := hjoined hfirst
      simp only [List.length_cons]
      omega

end

theorem sortEntries_of_wellFormed (h : WellFormed l) : l.sortEntries = l := by
  have hsorted : l.entries.Pairwise fun a b => a.before b = true := by
    refine h.sorted.imp fun {a b} hab => ?_
    exact decide_eq_true (hab.imp_right fun hid => ⟨hid.1, le_of_lt hid.2⟩)
  unfold sortEntries
  rw [hsorted.insertionSort_eq]

/-- **A second merge** changes nothing exactly if every entry is apart from the one before it. -/
theorem merge_again_iff (hl : WellFormed l) :
    l.mergeCommittedMinuteBuckets = .ok l ↔
      ∀ pre e post, l.entries = pre ++ e :: post → Apart pre e := by
  obtain ⟨l', hmerge, -⟩ := merge_coarsens hl.toSortable
  have hmerge' := hmerge
  unfold mergeCommittedMinuteBuckets at hmerge'
  simp only [sortEntries_of_wellFormed hl] at hmerge'
  obtain ⟨c, hfold, hl'⟩ := bind_ok hmerge'
  have huntouched : Untouched ⟨[], []⟩ [] :=
    ⟨rfl, fun _ _ hlook => (by cases hlook), fun _ _ => rfl⟩
  have hcases := untouched_foldlM huntouched hfold
  simp only [List.nil_append, List.length_nil, Nat.zero_add] at hcases
  rw [hmerge]
  constructor
  · intro hsame
    obtain rfl := Except.ok.inj hsame
    rcases hcases with ⟨hall, -⟩ | ⟨-, hlt⟩
    · exact hall
    · have hlen := (perm_sortEntries { l' with entries := c.compacted }).length_eq
      rw [Except.ok.inj hl'] at hlen
      simp only at hlen
      omega
  · intro hall
    rcases hcases with ⟨-, hsame⟩ | ⟨⟨pre, e, post, heq, hnot⟩, -⟩
    · rw [← Except.ok.inj hl', hsame]
      exact congrArg Except.ok (sortEntries_of_wellFormed hl)
    · exact absurd (hall pre e post heq) hnot

/-! ## Coarsening -/

theorem reservedEntries_sorted {a b : List LedgerEntry} (ha : a.Pairwise LedgerEntry.Precedes)
    (hb : b.Pairwise LedgerEntry.Precedes) (hperm : (reservedEntries a).Perm (reservedEntries b)) :
    reservedEntries a = reservedEntries b := by
  refine hperm.eq_of_pairwise (fun x y _ _ hxy hyx => ?_) (ha.filter _) (hb.filter _)
  rcases hxy.trans hyx with hlt | ⟨-, hlt⟩
  · exact absurd hlt (lt_irrefl _)
  · exact absurd hlt (lt_irrefl _)

/-- The charge of a part expires with its whole, not earlier and less than a minute later. -/
def ExpiresWith (whole part : LedgerEntry) : Prop :=
  ∃ early late, part.expiresAt = .ok early ∧ whole.expiresAt = .ok late ∧ early ≤ late ∧
    late < early + seconds 60

theorem expiresAt_eq {e : LedgerEntry} (h : e.validate = .ok ()) :
    e.expiresAt = .ok (e.recordedAt + windowDuration) := by
  obtain ⟨-, -, -, hrange⟩ := (LedgerEntry.validate_iff e).1 h
  unfold LedgerEntry.expiresAt checkedAddSigned
  rw [if_pos hrange]
  rfl

theorem expiresWith {whole part : LedgerEntry} (h : Coarsens whole parts)
    (hwhole : whole.validate = .ok ()) (hp : part ∈ parts) (hpart : part.validate = .ok ()) :
    ExpiresWith whole part := by
  refine ⟨_, _, expiresAt_eq hpart, expiresAt_eq hwhole, ?_, ?_⟩
  · exact Int.add_le_add_right (h.later part hp) _
  · rw [Int.add_right_comm]
    exact Int.add_lt_add_right (h.within_minute hp) _

/-- **Minute coarsening is safe.** A valid ledger can be coarsened. Its entries are grouped by
source and minute, so that every source is charged as much, no charge expires earlier or a minute
later, and every reservation stays. The result is valid, and coarsening it again changes nothing
exactly if none of its entries fits in with the one before it of its source and minute. -/
theorem coarsening_safe (l : StoredRemoteBandwidthLedger) (hl : l.validate = .ok ()) :
    ∃ l', l.mergeCommittedMinuteBuckets = .ok l' ∧
      (∀ hostId nodeId, (l'.entries.map (charge .committed hostId nodeId)).sum =
        (l.entries.map (charge .committed hostId nodeId)).sum) ∧
      reservedEntries l'.entries = reservedEntries l.entries ∧
      (∃ parts, List.Forall₂ Coarsens l'.entries parts ∧ parts.flatten.Perm l.entries ∧
        List.Forall₂ (fun whole parts => ∀ part ∈ parts, ExpiresWith whole part) l'.entries parts) ∧
      l'.entries.Pairwise LedgerEntry.Precedes ∧
      (∀ e ∈ l'.entries, 0 < e.bytes ∧ e.bytes ≤ maxBytesPerEntry) ∧ l'.validate = .ok () ∧
      (l'.mergeCommittedMinuteBuckets = .ok l' ↔
        ∀ pre e post, l'.entries = pre ++ e :: post → Apart pre e) := by
  have hformed := (validate_iff l).1 hl
  obtain ⟨l', hmerge, parts, hparts, hperm⟩ := merge_coarsens hformed.toSortable
  have hformed' := wellFormed_merge hformed.toSortable hmerge
  refine ⟨l', hmerge, merge_charge hformed.toSortable hmerge .committed, ?_,
    ⟨parts, hparts, hperm, ?_⟩, hformed'.sorted, fun e he => ?_, (validate_iff l').2 hformed',
    merge_again_iff hformed'⟩
  · exact reservedEntries_sorted hformed'.sorted hformed.sorted (merge_ok hmerge).2.1
  · have hvalid : ∀ ps ∈ parts, ∀ p ∈ ps, p.validate = .ok () := fun ps hps p hp =>
      hformed.entriesOk.valid p (hperm.subset (List.mem_flatten.2 ⟨ps, hps, hp⟩))
    have hwhole : ∀ e ∈ l'.entries, e.validate = .ok () := hformed'.entriesOk.valid
    generalize l'.entries = wholes at hparts hwhole
    clear hperm
    induction hparts with
    | nil => exact .nil
    | cons hhead _ ih =>
      obtain ⟨hfirst, hrest⟩ := List.forall_mem_cons.1 hvalid
      obtain ⟨hfirst', hrest'⟩ := List.forall_mem_cons.1 hwhole
      exact .cons (fun p hp => expiresWith hhead hfirst' hp (hfirst p hp)) (ih hrest hrest')
  · exact ((LedgerEntry.validate_iff e).1 (hformed'.entriesOk.valid e he)).2.2.1

namespace Sample

def bin (id : String) (at' : DateTime) (mebibytes : Nat) : LedgerEntry :=
  ⟨id, "host-1", none, at', mebibytes * 1024 * 1024, .committed⟩

/-- A bin that takes a later entry and is passed by two others. -/
def crowded : StoredRemoteBandwidthLedger := ⟨1, some (now + 1), [
  bin "ffffffffffffffffffffffffffffffff" now 50,
  bin "aaaaaaaaaaaaaaaaaaaaaaaaaaaaaaaa" (now + 1) 50,
  bin "bbbbbbbbbbbbbbbbbbbbbbbbbbbbbbbb" (now + 1) 500,
  bin "cccccccccccccccccccccccccccccccc" (now + 1) 100]⟩

end Sample

/-- The bin of the first entry moves to the instant of the last, behind it in the order of the
ledger, and a second merge puts the two together. -/
theorem coarsening_twice_differs :
    Sample.crowded.validate = .ok () ∧
    Sample.crowded.mergeCommittedMinuteBuckets = .ok ⟨1, some (Sample.now + 1), [
      Sample.bin "bbbbbbbbbbbbbbbbbbbbbbbbbbbbbbbb" (Sample.now + 1) 500,
      Sample.bin "cccccccccccccccccccccccccccccccc" (Sample.now + 1) 100,
      Sample.bin "ffffffffffffffffffffffffffffffff" (Sample.now + 1) 100]⟩ ∧
    (⟨1, some (Sample.now + 1), [
      Sample.bin "bbbbbbbbbbbbbbbbbbbbbbbbbbbbbbbb" (Sample.now + 1) 500,
      Sample.bin "cccccccccccccccccccccccccccccccc" (Sample.now + 1) 100,
      Sample.bin "ffffffffffffffffffffffffffffffff" (Sample.now + 1) 100]⟩ :
        StoredRemoteBandwidthLedger).mergeCommittedMinuteBuckets = .ok ⟨1, some (Sample.now + 1), [
      Sample.bin "bbbbbbbbbbbbbbbbbbbbbbbbbbbbbbbb" (Sample.now + 1) 500,
      Sample.bin "cccccccccccccccccccccccccccccccc" (Sample.now + 1) 200]⟩ := by
  refine ⟨?_, ?_, ?_⟩ <;> decide +kernel

theorem coarsening_safe_sample :
    ∃ l', Sample.crowded.mergeCommittedMinuteBuckets = .ok l' ∧ l'.validate = .ok () := by
  obtain ⟨l', hmerge, -, -, -, -, -, hvalid, -⟩ :=
    coarsening_safe Sample.crowded (by decide +kernel)
  exact ⟨l', hmerge, hvalid⟩

end Bandwidth
