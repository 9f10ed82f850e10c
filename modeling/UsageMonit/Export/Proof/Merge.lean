import UsageMonit.Export.Proof.Journal

/-!
# The merge of the current and the desired set

`decode` is the consumer's reading of a change: the logical key it is about and whether it sets or
removes it. `Outcome` says what a part of the merge gives: its transitions are about the keys it
handled, replaying them sets exactly the pending records of these keys, and every pending record
knows the journal entry of its upsert. Outcomes over disjoint keys append (`Outcome.append`), each
single record gives one (`outcome_old`, `outcome_new`, `outcome_both`), so the merge of two lists
sorted by key does (`mergeRecords_outcome`).
-/

namespace Export

open Fallible Time WindowedLog

variable (decode : RemoteExportChange → Option (String × MaterializedChangeRole))
  {c : RemoteExportChange} {k : String} {ts : List RemoteExportChange}
  {p : PendingMaterializedRecord} {s : StoredExportState}

/-- What a change does to the consumer's map from keys to latest upserts. -/
def changeEffect (c : RemoteExportChange) : Effect String RemoteExportChange :=
  match decode c with
  | some (key, .upsert) => .set key c
  | some (key, .tombstone) => .remove key
  | none => .keep

def namedKeys (cs : List RemoteExportChange) : Set String :=
  { k | ∃ c ∈ cs, ∃ role, decode c = some (k, role) }

variable {decode}

theorem changeEffect_upsert (h : decode c = some (k, .upsert)) :
    changeEffect decode c = .set k c := by
  simp [changeEffect, h]

theorem changeEffect_tombstone (h : decode c = some (k, .tombstone)) :
    changeEffect decode c = .remove k := by
  simp [changeEffect, h]

theorem changeEffect_key (h : (changeEffect decode c).key? = some k) :
    ∃ role, decode c = some (k, role) := by
  unfold changeEffect at h
  split at h <;> cases h
  · exact ⟨_, by assumption⟩
  · exact ⟨_, by assumption⟩

theorem replay_of_not_mem {m : String → Option RemoteExportChange} {cs : List RemoteExportChange}
    (h : k ∉ namedKeys decode cs) : replay (changeEffect decode) m cs k = m k := by
  refine replay_of_not_named _ fun c hc hk => h ?_
  obtain ⟨role, hr⟩ := changeEffect_key hk
  exact ⟨c, hc, role, hr⟩

theorem namedKeys_append (as bs : List RemoteExportChange) :
    namedKeys decode (as ++ bs) = namedKeys decode as ∪ namedKeys decode bs := by
  ext k
  simp only [namedKeys, List.mem_append, Set.mem_ofPred_eq, Set.mem_union]
  constructor
  · rintro ⟨c, hc | hc, h⟩
    · exact .inl ⟨c, hc, h⟩
    · exact .inr ⟨c, hc, h⟩
  · rintro (⟨c, hc, h⟩ | ⟨c, hc, h⟩)
    · exact ⟨c, .inl hc, h⟩
    · exact ⟨c, .inr hc, h⟩

/-! ## Records and their upserts -/

/-- The desired record's changes are an upsert and a tombstone of its own key. -/
def RemoteExportDesiredRecord.Coherent
    (decode : RemoteExportChange → Option (String × MaterializedChangeRole))
    (r : RemoteExportDesiredRecord) : Prop :=
  decode r.upsert = some (r.logicalKey, .upsert) ∧
    decode r.tombstone = some (r.logicalKey, .tombstone)

/-- A current record whose latest upsert is `c`: as long as the journal retains the entry the
record points to, that entry is `c`. -/
structure RecordOf (decode : RemoteExportChange → Option (String × MaterializedChangeRole))
    (s : StoredExportState) (r : StoredMaterializedRecord) (c : RemoteExportChange) : Prop where
  id : c.changeId = r.currentChangeId
  upsert : decode c = some (r.logicalKey, .upsert)
  tombstone : decode r.tombstone = some (r.logicalKey, .tombstone)
  last : r.lastUpsertSequence ≤ s.currentSequence
  entry : ∀ e, s.entryAtSequence r.lastUpsertSequence = some e → e.change = c

theorem RecordOf.extend {r : StoredMaterializedRecord} (h : RecordOf decode s r c)
    (hs : Contiguous s) (t : DateTime) (cs : List RemoteExportChange) :
    RecordOf decode (s.extend t cs) r c := by
  refine ⟨h.id, h.upsert, h.tombstone, ?_, fun e he => h.entry e ?_⟩
  · rw [extend_current]
    exact Nat.le_add_right_of_le h.last
  · rwa [entryAt_extend hs t cs h.last] at he

theorem RecordOf.discard {r : StoredMaterializedRecord} (h : RecordOf decode s r c)
    (hs : Contiguous s) {d : Nat} (hd : d ≤ s.entries.length) : RecordOf decode (s.discard d) r c :=
  ⟨h.id, h.upsert, h.tombstone, h.last, fun e he => h.entry e (entryAt_discard hs hd he)⟩

theorem RecordOf.of_window {s' : StoredExportState} {r : StoredMaterializedRecord}
    (h : RecordOf decode s r c) (hw : s'.window = s.window)
    (hc : s'.currentSequence = s.currentSequence) : RecordOf decode s' r c :=
  ⟨h.id, h.upsert, h.tombstone, by rw [hc]; exact h.last,
    fun e he => h.entry e (by rwa [entryAt_of_window hw] at he)⟩

/-- A pending record after `n` earlier transitions: its upsert is the change of its transition, or
the entry it already points to. -/
structure PendingOf (decode : RemoteExportChange → Option (String × MaterializedChangeRole))
    (s : StoredExportState) (n : Nat) (ts : List RemoteExportChange)
    (p : PendingMaterializedRecord) : Prop where
  id : p.upsert.changeId = p.stored.currentChangeId
  upsert : decode p.upsert = some (p.stored.logicalKey, .upsert)
  tombstone : decode p.stored.tombstone = some (p.stored.logicalKey, .tombstone)
  transition : ∀ i, p.upsertTransition = some i → ∃ j, i = n + j ∧ ts[j]? = some p.upsert
  kept : p.upsertTransition = none → RecordOf decode s p.stored p.upsert

theorem PendingOf.left {n : Nat} {ts' : List RemoteExportChange} (h : PendingOf decode s n ts p) :
    PendingOf decode s n (ts ++ ts') p := by
  refine ⟨h.id, h.upsert, h.tombstone, fun i hi => ?_, h.kept⟩
  obtain ⟨j, rfl, hj⟩ := h.transition i hi
  exact ⟨j, rfl, by rw [List.getElem?_append_left (List.getElem?_eq_some_iff.1 hj).1, hj]⟩

theorem PendingOf.right {n : Nat} {ts' : List RemoteExportChange}
    (h : PendingOf decode s (n + ts.length) ts' p) : PendingOf decode s n (ts ++ ts') p := by
  refine ⟨h.id, h.upsert, h.tombstone, fun i hi => ?_, h.kept⟩
  obtain ⟨j, rfl, hj⟩ := h.transition i hi
  exact ⟨ts.length + j, by omega, by rw [List.getElem?_append_right (by omega)]; simpa using hj⟩

/-! ## Outcomes -/

/-- What merging the keys `keys` gives, from the map `U` and after `n` earlier transitions. -/
structure Outcome (decode : RemoteExportChange → Option (String × MaterializedChangeRole))
    (s : StoredExportState) (U : String → Option RemoteExportChange) (n : Nat)
    (keys : Set String) (ts : List RemoteExportChange) (ps : List PendingMaterializedRecord) :
    Prop where
  named : namedKeys decode ts ⊆ keys
  pendingKeys : ∀ p ∈ ps, p.stored.logicalKey ∈ keys
  sets : ∀ p ∈ ps, replay (changeEffect decode) U ts p.stored.logicalKey = some p.upsert
  clears : ∀ k ∈ keys, (∀ p ∈ ps, p.stored.logicalKey ≠ k) →
    replay (changeEffect decode) U ts k = none
  pending : ∀ p ∈ ps, PendingOf decode s n ts p

section
variable {U : String → Option RemoteExportChange}

theorem Outcome.empty (n : Nat) : Outcome decode s U n ∅ [] [] :=
  ⟨by simp [namedKeys], by simp, by simp, by simp, by simp⟩

theorem Outcome.append {n : Nat} {A B : Set String} {ts ts' : List RemoteExportChange}
    {ps ps' : List PendingMaterializedRecord} (h : Outcome decode s U n A ts ps)
    (h' : Outcome decode s U (n + ts.length) B ts' ps') (hd : ∀ k ∈ A, k ∉ B) :
    Outcome decode s U n (A ∪ B) (ts ++ ts') (ps ++ ps') := by
  -- replaying both lists at a key of `A` is replaying the first, at a key of `B` the second
  have hA : ∀ k ∈ A, replay (changeEffect decode) U (ts ++ ts') k =
      replay (changeEffect decode) U ts k := fun k hk => by
    rw [replay_append]
    exact replay_of_not_mem fun hn => hd k hk (h'.named hn)
  have hB : ∀ k ∈ B, replay (changeEffect decode) U (ts ++ ts') k =
      replay (changeEffect decode) U ts' k := fun k hk => by
    rw [replay_append]
    exact replay_congr _ (replay_of_not_mem fun hn => hd k (h.named hn) hk) ts'
  refine ⟨?_, fun p hp => ?_, fun p hp => ?_, fun k hk hne => ?_, fun p hp => ?_⟩
  · rw [namedKeys_append]
    exact Set.union_subset_union h.named h'.named
  · rcases List.mem_append.1 hp with hp | hp
    · exact .inl (h.pendingKeys p hp)
    · exact .inr (h'.pendingKeys p hp)
  · rcases List.mem_append.1 hp with hp | hp
    · rw [hA _ (h.pendingKeys p hp), h.sets p hp]
    · rw [hB _ (h'.pendingKeys p hp), h'.sets p hp]
  · rcases hk with hk | hk
    · rw [hA k hk]
      exact h.clears k hk fun p hp => hne p (List.mem_append_left _ hp)
    · rw [hB k hk]
      exact h'.clears k hk fun p hp => hne p (List.mem_append_right _ hp)
  · rcases List.mem_append.1 hp with hp | hp
    · exact (h.pending p hp).left
    · exact (h'.pending p hp).right

theorem Outcome.tombstone {n : Nat} (h : decode c = some (k, .tombstone)) :
    Outcome decode s U n {k} [c] [] := by
  refine ⟨?_, by simp, by simp, ?_, by simp⟩
  · rintro l ⟨d, hd, role, hr⟩
    rw [List.mem_singleton.1 hd, h] at hr
    cases hr
    rfl
  · rintro l rfl -
    simp [changeEffect_tombstone h, Effect.apply]

theorem Outcome.upsert {n : Nat} (hk : p.stored.logicalKey = k) (hc : p.upsert = c)
    (hid : p.upsert.changeId = p.stored.currentChangeId)
    (hu : decode p.upsert = some (p.stored.logicalKey, .upsert))
    (ht : decode p.stored.tombstone = some (p.stored.logicalKey, .tombstone))
    (hi : p.upsertTransition = some n) : Outcome decode s U n {k} [c] [p] := by
  subst hk hc
  refine ⟨?_, by simp, ?_, by simp, ?_⟩
  · rintro l ⟨d, hd, role, hr⟩
    rw [List.mem_singleton.1 hd, hu] at hr
    cases hr
    rfl
  · intro q hq
    rw [List.mem_singleton.1 hq]
    simp [changeEffect_upsert hu, Effect.apply]
  · intro q hq
    rw [List.mem_singleton.1 hq]
    refine ⟨hid, hu, ht, fun i h => ⟨0, ?_, rfl⟩, fun h => ?_⟩
    · rw [hi] at h
      cases h
      rfl
    · rw [hi] at h
      cases h

theorem Outcome.kept {n : Nat} (hk : p.stored.logicalKey = k) (hU : U k = some p.upsert)
    (hr : RecordOf decode s p.stored p.upsert) (hi : p.upsertTransition = none) :
    Outcome decode s U n {k} [] [p] := by
  subst hk
  refine ⟨by simp [namedKeys], by simp, ?_, by simp, ?_⟩
  · intro q hq
    rw [List.mem_singleton.1 hq]
    exact hU
  · intro q hq
    rw [List.mem_singleton.1 hq]
    exact ⟨hr.id, hr.upsert, hr.tombstone, fun i h => (by rw [hi] at h; cases h),
      fun _ => hr⟩

theorem Outcome.absent {n : Nat} (h : U k = none) : Outcome decode s U n {k} [] [] :=
  ⟨by simp [namedKeys], by simp, by simp, by rintro l rfl -; exact h, by simp⟩

end

/-! ## One record -/

section
variable {U : String → Option RemoteExportChange} {previousUpserts : ChangeMap}
  {mode : RemoteExportReconcileMode} {trustedAt : DateTime}

/-- `m'` continues `m` with the transitions `ts` and the pending records `ps`. -/
def Merge.Continues (m m' : Merge) (ts : List RemoteExportChange)
    (ps : List PendingMaterializedRecord) : Prop :=
  m'.transitions.map (·.change) = m.transitions.map (·.change) ++ ts ∧
    m'.pending = m.pending ++ ps

theorem Merge.Continues.trans {m m' m'' : Merge} {ts' : List RemoteExportChange}
    {ps ps' : List PendingMaterializedRecord} (h : m.Continues m' ts ps)
    (h' : m'.Continues m'' ts' ps') : m.Continues m'' (ts ++ ts') (ps ++ ps') :=
  ⟨by rw [h'.1, h.1, List.append_assoc], by rw [h'.2, h.2, List.append_assoc]⟩

theorem Merge.Continues.length {m m' : Merge} {ps : List PendingMaterializedRecord}
    (h : m.Continues m' ts ps) : m'.transitions.length = m.transitions.length + ts.length := by
  have := congrArg List.length h.1
  simpa using this

/-- One merge step with its outcome at the key `k`. -/
def StepOutcome (decode : RemoteExportChange → Option (String × MaterializedChangeRole))
    (s : StoredExportState) (U : String → Option RemoteExportChange) (m m' : Merge)
    (keys : Set String) : Prop :=
  ∃ ts ps, m.Continues m' ts ps ∧ Outcome decode s U m.transitions.length keys ts ps

theorem outcome_expired {old : StoredMaterializedRecord} {m : Merge}
    (hr : RecordOf decode s old c) :
    StepOutcome decode s U m (mergeExpiredOldRecord old m) {old.logicalKey} :=
  ⟨[old.tombstone], [], ⟨by simp [mergeExpiredOldRecord], by simp [mergeExpiredOldRecord]⟩,
    Outcome.tombstone hr.tombstone⟩

theorem outcome_old {old : StoredMaterializedRecord} {m m' : Merge} (hr : RecordOf decode s old c)
    (hU : U old.logicalKey = some c) (hp : ∀ k, previousUpserts.lookup k = U k)
    (h : mergeOldRecord s previousUpserts mode trustedAt old m = .ok m') :
    StepOutcome decode s U m m' {old.logicalKey} := by
  unfold mergeOldRecord at h
  split at h
  · cases h
    exact outcome_expired hr
  · unfold mergeOmittedOldRecord at h
    split at h
    · cases h
      exact ⟨[old.tombstone], [], ⟨by simp, by simp⟩, Outcome.tombstone hr.tombstone⟩
    · obtain ⟨upsert, hu, h⟩ := bind_ok h
      have hu := okOr_ok.1 hu
      rw [hp, hU] at hu
      cases hu
      split at h
      · cases h
        exact ⟨[], [⟨old, c, none⟩], ⟨by simp, by simp⟩, Outcome.kept rfl hU hr rfl⟩
      · cases h
        exact ⟨[c], [⟨old, c, some m.transitions.length⟩], ⟨by simp, by simp⟩,
          Outcome.upsert rfl rfl hr.id hr.upsert hr.tombstone rfl⟩

theorem outcome_new (trustedAt : DateTime) {next : RemoteExportDesiredRecord} (m : Merge) (hc : next.Coherent decode)
    (hU : U next.logicalKey = none) :
    StepOutcome decode s U m (mergeNewRecord s trustedAt next m) {next.logicalKey} := by
  unfold mergeNewRecord
  split
  · simp only [mergeDesiredRecord, Option.any_none, Bool.false_and, Bool.false_eq_true, if_false]
    refine ⟨[next.upsert], [_], ⟨by simp, rfl⟩, ?_⟩
    exact Outcome.upsert rfl rfl rfl hc.1 hc.2 rfl
  · exact ⟨[], [], ⟨by simp, by simp⟩, Outcome.absent hU⟩

/-- A key in both sets. The owner check makes an unchanged change id an unchanged change. -/
theorem outcome_both {old : StoredMaterializedRecord} {next : RemoteExportDesiredRecord}
    {m : Merge} (hr : RecordOf decode s old c) (hU : U old.logicalKey = some c)
    (hc : next.Coherent decode) (hk : next.logicalKey = old.logicalKey)
    (hsame : old.currentChangeId = next.upsert.changeId → c = next.upsert) :
    StepOutcome decode s U m (mergeBothRecords s trustedAt old next m) {old.logicalKey} := by
  unfold mergeBothRecords
  split
  · exact outcome_expired hr
  · simp only [mergeDesiredRecord, Option.any_some]
    split
    · rename_i hu
      simp only [Bool.and_eq_true, beq_iff_eq] at hu
      obtain rfl := hsame hu.1
      refine ⟨[], [_], ⟨by simp, rfl⟩, ?_⟩
      exact Outcome.kept hk hU ⟨rfl, hc.1, hc.2, hr.last, hr.entry⟩ rfl
    · refine ⟨[next.upsert], [_], ⟨by simp, rfl⟩, ?_⟩
      exact Outcome.upsert hk rfl rfl hc.1 hc.2 rfl

end

/-! ## The whole merge -/

/-- The keys of the current records. -/
def oldKeys (olds : List StoredMaterializedRecord) : Set String :=
  { k | ∃ r ∈ olds, r.logicalKey = k }

def desiredKeys (nexts : List RemoteExportDesiredRecord) : Set String :=
  { k | ∃ r ∈ nexts, r.logicalKey = k }

@[simp] theorem oldKeys_nil : oldKeys [] = ∅ := by simp [oldKeys]

@[simp] theorem desiredKeys_nil : desiredKeys [] = ∅ := by simp [desiredKeys]

theorem oldKeys_cons (r : StoredMaterializedRecord) (rs : List StoredMaterializedRecord) :
    oldKeys (r :: rs) = {r.logicalKey} ∪ oldKeys rs := by
  ext k
  simp only [oldKeys, List.mem_cons, exists_eq_or_imp, Set.mem_ofPred_eq, Set.mem_union,
    Set.mem_singleton_iff]
  rw [eq_comm]

theorem desiredKeys_cons (r : RemoteExportDesiredRecord) (rs : List RemoteExportDesiredRecord) :
    desiredKeys (r :: rs) = {r.logicalKey} ∪ desiredKeys rs := by
  ext k
  simp only [desiredKeys, List.mem_cons, exists_eq_or_imp, Set.mem_ofPred_eq, Set.mem_union,
    Set.mem_singleton_iff]
  rw [eq_comm]

def SortedOld (olds : List StoredMaterializedRecord) : Prop :=
  olds.Pairwise fun a b => a.logicalKey < b.logicalKey

def SortedDesired (nexts : List RemoteExportDesiredRecord) : Prop :=
  nexts.Pairwise fun a b => a.logicalKey < b.logicalKey

theorem StepOutcome.append {s : StoredExportState} {U : String → Option RemoteExportChange}
    {m m' m'' : Merge} {A B : Set String} (h : StepOutcome decode s U m m' A)
    (h' : StepOutcome decode s U m' m'' B) (hd : ∀ k ∈ A, k ∉ B) :
    StepOutcome decode s U m m'' (A ∪ B) := by
  obtain ⟨ts, ps, hc, ho⟩ := h
  obtain ⟨ts', ps', hc', ho'⟩ := h'
  exact ⟨ts ++ ts', ps ++ ps', hc.trans hc', ho.append (by rw [← hc.length]; exact ho') hd⟩

section
variable {U : String → Option RemoteExportChange} {previousUpserts : ChangeMap}
  {mode : RemoteExportReconcileMode} {trustedAt : DateTime}

/-- **The merge handles every key of both lists.** -/
theorem mergeRecords_outcome (hp : ∀ k, previousUpserts.lookup k = U k) :
    ∀ {fuel : Nat} {olds : List StoredMaterializedRecord} {nexts : List RemoteExportDesiredRecord}
      {m m' : Merge}, olds.length + nexts.length ≤ fuel → SortedOld olds → SortedDesired nexts →
      (∀ old ∈ olds, ∃ c, U old.logicalKey = some c ∧ RecordOf decode s old c) →
      (∀ next ∈ nexts, next.Coherent decode) →
      (∀ next ∈ nexts, (∀ old ∈ olds, old.logicalKey ≠ next.logicalKey) →
        U next.logicalKey = none) →
      (∀ old ∈ olds, ∀ next ∈ nexts, old.logicalKey = next.logicalKey →
        old.currentChangeId = next.upsert.changeId → U old.logicalKey = some next.upsert) →
      mergeRecords s previousUpserts mode trustedAt fuel olds nexts m = .ok m' →
      StepOutcome decode s U m m' (oldKeys olds ∪ desiredKeys nexts)
  | 0, [], [], m, m', _, _, _, _, _, _, _, h => by
    cases h
    exact ⟨[], [], ⟨by simp, by simp⟩, by simpa using Outcome.empty _⟩
  | 0, _ :: _, _, _, _, hf, _, _, _, _, _, _, _ => by simp at hf
  | 0, [], _ :: _, _, _, hf, _, _, _, _, _, _, _ => by simp at hf
  | _ + 1, [], [], m, m', _, _, _, _, _, _, _, h => by
    cases h
    exact ⟨[], [], ⟨by simp, by simp⟩, by simpa using Outcome.empty _⟩
  | fuel + 1, old :: olds, [], m, m', hf, ho, hd, hr, hc, hn, hs, h => by
    obtain ⟨m1, h1, h⟩ := bind_ok h
    obtain ⟨c, hU, hrec⟩ := hr old List.mem_cons_self
    have ho' := List.pairwise_cons.1 ho
    have hrest := mergeRecords_outcome hp (by simp at hf ⊢; omega) ho'.2 hd
      (fun r hr' => hr r (List.mem_cons_of_mem _ hr')) hc (by simp) (by simp) h
    rw [oldKeys_cons, Set.union_assoc]
    refine (outcome_old hrec hU hp h1).append hrest ?_
    rintro k rfl (⟨r, hr', hk⟩ | ⟨r, hr', -⟩)
    · exact absurd (ho'.1 r hr') (by rw [hk]; exact lt_irrefl _)
    · simp at hr'
  | fuel + 1, [], next :: nexts, m, m', hf, ho, hd, hr, hc, hn, hs, h => by
    have hd' := List.pairwise_cons.1 hd
    have hrest := mergeRecords_outcome hp (by simp at hf ⊢; omega) ho hd'.2 (by simp)
      (fun r hr' => hc r (List.mem_cons_of_mem _ hr'))
      (fun r hr' => hn r (List.mem_cons_of_mem _ hr')) (by simp) h
    have hone := outcome_new (s := s) trustedAt m
      (hc next List.mem_cons_self) (hn next List.mem_cons_self (by simp))
    rw [desiredKeys_cons, Set.union_left_comm]
    refine hone.append hrest ?_
    rintro k rfl (⟨r, hr', -⟩ | ⟨r, hr', hk⟩)
    · simp at hr'
    · exact absurd (hd'.1 r hr') (by rw [hk]; exact lt_irrefl _)
  | fuel + 1, old :: olds, next :: nexts, m, m', hf, ho, hd, hr, hc, hn, hs, h => by
    simp only [mergeRecords] at h
    have ho' := List.pairwise_cons.1 ho
    have hd' := List.pairwise_cons.1 hd
    obtain ⟨c, hU, hrec⟩ := hr old List.mem_cons_self
    split at h
    · -- the current key comes first
      rename_i hlt
      have hlt : old.logicalKey < next.logicalKey := compare_lt_iff_lt.1 hlt
      obtain ⟨m1, h1, h⟩ := bind_ok h
      have hrest := mergeRecords_outcome hp (by simp at hf ⊢; omega) ho'.2 hd
        (fun r hr' => hr r (List.mem_cons_of_mem _ hr')) hc
        (fun r hr' hne => hn r hr' fun o ho => by
          rcases List.mem_cons.1 ho with rfl | ho
          · rcases List.mem_cons.1 hr' with rfl | hr'
            · exact ne_of_lt hlt
            · exact ne_of_lt (lt_trans hlt (hd'.1 r hr'))
          · exact hne o ho)
        (fun o ho => hs o (List.mem_cons_of_mem _ ho)) h
      rw [oldKeys_cons, Set.union_assoc]
      refine (outcome_old hrec hU hp h1).append hrest ?_
      rintro k rfl (⟨r, hr', hk⟩ | ⟨r, hr', hk⟩)
      · exact absurd (ho'.1 r hr') (by rw [hk]; exact lt_irrefl _)
      · rcases List.mem_cons.1 hr' with rfl | hr'
        · exact absurd hlt (by rw [hk]; exact lt_irrefl _)
        · exact absurd (lt_trans hlt (hd'.1 r hr')) (by rw [hk]; exact lt_irrefl _)
    · -- the key is in both sets
      rename_i heq
      have heq : old.logicalKey = next.logicalKey := compare_eq_iff_eq.1 heq
      have hsame : old.currentChangeId = next.upsert.changeId → c = next.upsert := fun hid => by
        have := hs old List.mem_cons_self next List.mem_cons_self heq hid
        rw [hU] at this
        exact Option.some.inj this
      have hrest := mergeRecords_outcome hp (by simp at hf ⊢; omega) ho'.2 hd'.2
        (fun r hr' => hr r (List.mem_cons_of_mem _ hr'))
        (fun r hr' => hc r (List.mem_cons_of_mem _ hr'))
        (fun r hr' hne => hn r (List.mem_cons_of_mem _ hr') fun o ho => by
          rcases List.mem_cons.1 ho with rfl | ho
          · rw [heq]
            exact ne_of_lt (hd'.1 r hr')
          · exact hne o ho)
        (fun o ho r hr' => hs o (List.mem_cons_of_mem _ ho) r (List.mem_cons_of_mem _ hr')) h
      have hkeys : oldKeys (old :: olds) ∪ desiredKeys (next :: nexts) =
          {old.logicalKey} ∪ (oldKeys olds ∪ desiredKeys nexts) := by
        rw [oldKeys_cons, desiredKeys_cons, ← heq]
        ext k
        simp only [Set.mem_union, Set.mem_singleton_iff]
        tauto
      rw [hkeys]
      refine (outcome_both hrec hU (hc next List.mem_cons_self) heq.symm hsame).append hrest ?_
      rintro k rfl (⟨r, hr', hk⟩ | ⟨r, hr', hk⟩)
      · exact absurd (ho'.1 r hr') (by rw [hk]; exact lt_irrefl _)
      · exact absurd (hd'.1 r hr') (by rw [hk, heq]; exact lt_irrefl _)
    · -- the desired key comes first
      rename_i hgt
      have hgt : next.logicalKey < old.logicalKey := compare_gt_iff_gt.1 hgt
      have hne : ∀ o ∈ old :: olds, next.logicalKey < o.logicalKey := fun o ho => by
        rcases List.mem_cons.1 ho with rfl | ho
        · exact hgt
        · exact lt_trans hgt (ho'.1 o ho)
      have hrest := mergeRecords_outcome hp (by simp at hf ⊢; omega) ho hd'.2 hr
        (fun r hr' => hc r (List.mem_cons_of_mem _ hr'))
        (fun r hr' => hn r (List.mem_cons_of_mem _ hr'))
        (fun o ho r hr' => hs o ho r (List.mem_cons_of_mem _ hr')) h
      have hone := outcome_new (s := s) trustedAt m
        (hc next List.mem_cons_self)
        (hn next List.mem_cons_self fun o ho => (ne_of_lt (hne o ho)).symm)
      rw [desiredKeys_cons, Set.union_left_comm]
      refine hone.append hrest ?_
      rintro k rfl (⟨r, hr', hk⟩ | ⟨r, hr', hk⟩)
      · exact absurd (hne r hr') (by rw [hk]; exact lt_irrefl _)
      · exact absurd (hd'.1 r hr') (by rw [hk]; exact lt_irrefl _)

end

end Export
