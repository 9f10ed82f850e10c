import UsageMonit.Export.Proof.Append
import UsageMonit.Export.Proof.Valid

/-!
# Appending to and compacting a valid journal

`Declared` lists the reasons for which a mutation of a valid journal fails: a change id used for
other content, a sequence number or a size that overflows, a set that does not fit the limits.
Appending a batch (`appendChangeBatch_yields`), pruning by age (`advanceRetention_yields`) and
compacting (`compactToLimits_yields`) of a valid journal fail for these reasons only and leave a
valid journal.
-/

namespace Export

open Fallible Time

/-- The reasons for which a mutation of a valid journal fails. -/
inductive Declared (store : RemoteExportStateStore) : String → Prop
  | reused (changeId : String) :
      Declared store ("remote export change ID " ++ changeId ++ " was reused with different payload")
  | reusedInBatch (changeId : String) :
      Declared store ("remote export append batch reused change ID " ++ changeId ++
        " with different payload")
  | owner : Declared store "remote desired change ID conflicts with a different current key or role"
  | reusedByOwner : Declared store "remote desired change ID was reused with different payload"
  | expiry :
      Declared store "remote materialized record expiry changed for an existing logical key"
  | sequence : Declared store "remote export sequence overflowed"
  | envelope : Declared store "remote export state envelope exceeds its hard byte cap"
  | retention :
      Declared store "remote materialized current set cannot fit inside export retention limits"
  | stateSize {e : String} (s : StoredExportState) : store.encodedStateJsonSize s = .error e →
      Declared store e
  | stateSizeOverflow : Declared store "serialized remote export state size overflowed"
  | entrySize {e : String} (entry : RemoteExportJournalEntry) :
      store.encodedEntryJsonSize entry = .error e → Declared store e
  | entrySizeOverflow : Declared store "remote export compaction size overflowed"

variable {store : RemoteExportStateStore} {s : StoredExportState}

/-! ## Appending -/

theorem retainedChanges_total : ∀ {es : List RemoteExportJournalEntry} {retained : ChangeMap},
    (∀ a ∈ es, ∀ b ∈ es, a.change.changeId = b.change.changeId → a.change = b.change) →
    (∀ e ∈ es, ∀ c ∈ retained.lookup e.change.changeId, c = e.change) →
    ∃ retained', retainedChanges es retained = .ok retained' ∧
      (∀ e ∈ es, retained'.lookup e.change.changeId = some e.change) ∧
      ∀ id, (∀ e ∈ es, e.change.changeId ≠ id) → retained'.lookup id = retained.lookup id
  | [], retained, _, _ => ⟨retained, rfl, by simp, by simp⟩
  | e :: es, retained, hagree, hknown => by
    have hnext : ∀ d ∈ es, ∀ c ∈ (retained.insert e.change.changeId e.change).lookup
        d.change.changeId, c = d.change := by
      intro d hd c hc
      by_cases hid : d.change.changeId = e.change.changeId
      · rw [hid, AList.lookup_insert] at hc
        cases hc
        exact hagree e List.mem_cons_self d (List.mem_cons_of_mem e hd) hid.symm
      · rw [AList.lookup_insert_ne hid] at hc
        exact hknown d (List.mem_cons_of_mem e hd) c hc
    obtain ⟨retained', hr, hin, hout⟩ := retainedChanges_total
      (fun a ha b hb => hagree a (List.mem_cons_of_mem e ha) b (List.mem_cons_of_mem e hb)) hnext
    refine ⟨retained', ?_, List.forall_mem_cons.2 ⟨?_, hin⟩, fun id hid => ?_⟩
    · simp only [retainedChanges]
      rw [ensure_of (hknown e List.mem_cons_self), ok_bind]
      exact hr
    · by_cases hrest : ∃ d ∈ es, d.change.changeId = e.change.changeId
      · obtain ⟨d, hd, hid⟩ := hrest
        rw [← hid, hin d hd, hagree d (List.mem_cons_of_mem e hd) e List.mem_cons_self hid]
      · rw [hout _ fun d hd hid => hrest ⟨d, hd, hid⟩, AList.lookup_insert]
    · rw [hout id fun d hd => hid d (List.mem_cons_of_mem e hd),
        AList.lookup_insert_ne fun h => hid e List.mem_cons_self h.symm]

/-- The selection fails on a reused id only; what it selects has distinct ids that agree with the
retained changes. -/
theorem selectChanges_yields {policy : RetainedDuplicatePolicy} {retained : ChangeMap} :
    ∀ {cs : List RemoteExportChange} {batch : ChangeMap} {selected : List RemoteExportChange}
      {n : Nat}, (∀ c ∈ cs, c.validate = .ok ()) →
    (policy = .append → (cs.map (·.changeId)).Nodup ∧ ∀ c ∈ cs, c.changeId ∉ batch) →
    (∀ c ∈ selected, c.changeId ∈ batch) → (selected.map (·.changeId)).Nodup →
    (∀ c ∈ selected, ∀ d ∈ retained.lookup c.changeId, d = c) →
    Yields (selectChanges policy retained cs batch selected n) (Declared store) fun r =>
      (r.1.map (·.changeId)).Nodup ∧ ∀ c ∈ r.1, ∀ d ∈ retained.lookup c.changeId, d = c
  | [], _, selected, _, _, _, _, hnodup, hagree => yields_ok ⟨hnodup, hagree⟩
  | c :: cs, batch, selected, n, hvalid, happend, hbatch, hnodup, hagree => by
    obtain ⟨hvalidHead, hvalid⟩ := List.forall_mem_cons.1 hvalid
    have hrest : policy = .append → (cs.map (·.changeId)).Nodup ∧
        ∀ d ∈ cs, d.changeId ∉ batch ∧ d.changeId ≠ c.changeId := by
      intro hp
      obtain ⟨hids, hfree⟩ := happend hp
      rw [List.map_cons, List.nodup_cons] at hids
      exact ⟨hids.2, fun d hd => ⟨hfree d (List.mem_cons_of_mem c hd),
        fun he => hids.1 (he ▸ List.mem_map_of_mem hd)⟩⟩
    have hrest' : policy = .append → (cs.map (·.changeId)).Nodup ∧
        ∀ d ∈ cs, d.changeId ∉ batch.insert c.changeId c := fun hp =>
      ⟨(hrest hp).1, fun d hd => by
        rw [AList.mem_insert, not_or]
        exact ⟨((hrest hp).2 d hd).2, ((hrest hp).2 d hd).1⟩⟩
    simp only [selectChanges, hvalidHead, ok_bind]
    refine Yields.bind (yields_ensure (.inr (.reused _))) fun _ hknown => ?_
    split
    · rename_i hskip
      exact selectChanges_yields hvalid (fun hp => absurd (hp.symm.trans hskip.2) (by decide))
        hbatch hnodup hagree
    · split
      · rename_i existing hexisting
        refine Yields.bind (yields_ensure (.inr (.reusedInBatch _))) fun _ _ =>
          Yields.bind (yields_ensure (.inl ?_)) fun _ _ => ?_
        · by_contra hp
          have happ : policy = .append := by cases policy <;> simp_all
          refine (happend happ).2 c List.mem_cons_self ?_
          rw [← AList.lookup_isSome, hexisting]
          rfl
        · exact selectChanges_yields hvalid hrest' (fun d hd => by
            rw [AList.mem_insert]
            exact .inr (hbatch d hd)) hnodup hagree
      · rename_i hfree
        refine selectChanges_yields hvalid hrest' (fun d hd => ?_) ?_ fun d hd => ?_
        · rw [AList.mem_insert]
          rcases List.mem_append.1 hd with hd | hd
          · exact .inr (hbatch d hd)
          · exact .inl (by rw [List.mem_singleton.1 hd])
        · rw [List.map_append, List.nodup_append]
          refine ⟨hnodup, by simp, fun id hid other hother => ?_⟩
          rintro rfl
          obtain ⟨d, hd, hdid⟩ := List.mem_map.1 hid
          rw [List.map_singleton, List.mem_singleton] at hother
          rw [AList.lookup_eq_none] at hfree
          exact hfree (hother ▸ hdid ▸ hbatch d hd)
        · rcases List.mem_append.1 hd with hd | hd
          · exact hagree d hd
          · rw [List.mem_singleton.1 hd]
            exact hknown

theorem JournalOk.extend (h : JournalOk s) {t : DateTime} {cs : List RemoteExportChange}
    (hbounded : s.currentSequence + cs.length < 2 ^ 64) (hvalid : ∀ c ∈ cs, c.validate = .ok ())
    (hmin : minUtc ≤ t) (ht : ∀ e ∈ s.entries, e.committedAt ≤ t)
    (hids : (cs.map (·.changeId)).Nodup)
    (hagree : ∀ e ∈ s.entries, ∀ c ∈ cs, e.change.changeId = c.changeId → e.change = c) :
    JournalOk (s.extend t cs) := by
  have hsame : ∀ c ∈ cs, ∀ d ∈ cs, c.changeId = d.changeId → c = d :=
    fun c hc d hd hid => List.inj_on_of_nodup_map hids hc hd hid
  have hnew : ∀ e ∈ numbered t s.currentSequence cs, e.committedAt = t ∧ e.change ∈ cs :=
    fun e he => mem_numbered he
  have hentries : (s.extend t cs).entries = s.entries ++ numbered t s.currentSequence cs := rfl
  refine ⟨h.contiguous.extend t cs, hbounded, fun e he => ?_, fun e he => ?_, ?_,
    fun a ha b hb hid => ?_⟩
  · rcases List.mem_append.1 he with he | he
    · exact h.changes e he
    · exact hvalid _ (hnew e he).2
  · rcases List.mem_append.1 he with he | he
    · exact h.after e he
    · rw [(hnew e he).1]
      exact hmin
  · rw [hentries, List.pairwise_append]
    refine ⟨h.ordered, ?_, fun a ha b hb => ?_⟩
    · refine List.pairwise_of_forall_mem_list fun a ha b hb => ?_
      rw [(hnew a ha).1, (hnew b hb).1]
    · rw [(hnew b hb).1]
      exact ht a ha
  · rcases List.mem_append.1 ha with ha | ha <;> rcases List.mem_append.1 hb with hb | hb
    · exact h.agree a ha b hb hid
    · exact hagree a ha _ (hnew b hb).2 hid
    · exact (hagree b hb _ (hnew a ha).2 hid.symm).symm
    · exact hsame _ (hnew a ha).2 _ (hnew b hb).2 hid

theorem JournalOk.le_last (h : JournalOk s) {last : RemoteExportJournalEntry}
    (hlast : s.entries.getLast? = some last) : ∀ e ∈ s.entries, e.committedAt ≤ last.committedAt := by
  intro e he
  obtain ⟨init, hinit⟩ := List.getLast?_eq_some_iff.1 hlast
  have hordered := h.ordered
  rw [hinit, List.pairwise_append] at hordered
  rw [hinit] at he
  rcases List.mem_append.1 he with he | he
  · exact hordered.2.2 e he last (by simp)
  · rw [List.mem_singleton.1 he]

theorem pushChanges_yields {t : DateTime} {cs : List RemoteExportChange} {D : String → Prop}
    (h : s.currentSequence + cs.length < 2 ^ 64) :
    Yields (pushChanges t cs s []) D
      (· = (s.extend t cs, List.range' (s.currentSequence + 1) cs.length)) := by
  obtain ⟨r, hr⟩ := (pushChanges_total h : ∃ r, pushChanges t cs s [] = .ok r)
  exact Yields.of_eq hr (by simpa using pushChanges_ok hr)

/-- **Appending a batch** to a valid journal. -/
theorem appendChangeBatch_yields (h : JournalOk s) {now : DateTime} (hnow : minUtc ≤ now)
    {cs : List RemoteExportChange} {policy : RetainedDuplicatePolicy}
    (hvalid : ∀ c ∈ cs, c.validate = .ok ())
    (happend : policy = .append → (cs.map (·.changeId)).Nodup) :
    Yields (appendChangeBatch s now cs policy) (Declared store) fun r =>
      ∃ t sub, r.1 = s.extend t sub ∧ JournalOk (s.extend t sub) ∧
        r.2.sequences.length = sub.length ∧
        (policy = .append → sub = cs ∧ r.2.duplicates = 0) := by
  obtain ⟨retained, hretained, hknown, -⟩ := (retainedChanges_total h.agree (by simp) :
    ∃ retained, retainedChanges s.entries ∅ = .ok retained ∧ _ ∧ _)
  unfold appendChangeBatch
  rw [hretained, ok_bind]
  refine Yields.bind (selectChanges_yields hvalid
    (fun hp => ⟨happend hp, fun c _ => AList.notMem_empty c.changeId⟩)
    (by simp) (by simp) (by simp)).with_eq fun r hr => ?_
  obtain ⟨hselect, hids, hagree⟩ := hr
  obtain ⟨sub, hsub, hmem, hall⟩ := selectChanges_ok hselect
  obtain ⟨selected, duplicates⟩ := r
  rw [List.nil_append] at hsub
  subst hsub
  refine Yields.bind (yields_okOr (.inr .sequence)) fun _ hsequence => ?_
  obtain ⟨-, hbounded⟩ := checkedAdd_eq_some hsequence
  refine Yields.bind (pushChanges_yields hbounded) fun r hr => ?_
  subst hr
  refine yields_pure ⟨_, selected, rfl, h.extend hbounded (fun c hc => hvalid c (hmem c hc)) ?_
    (fun e he => ?_) hids fun e he c hc hid => ?_, by simp, fun hp => hall hp⟩
  · refine le_max_of_le_left ?_
    split
    · exact le_max_of_le_right hnow
    · exact hnow
  · refine le_max_of_le_left ?_
    split
    · rename_i last hlast
      exact le_max_of_le_left (h.le_last hlast e he)
    · rename_i hnil
      rw [List.getLast?_eq_none_iff.1 hnil] at he
      cases he
  · exact hagree c hc e.change (by rw [← hid, hknown e he]; rfl)

/-! ## Pruning and compacting -/

theorem dropOldestEntries_total (h : Contiguous s) {n : Nat} (hn : n ≤ s.entries.length) :
    dropOldestEntries s n = .ok (s.discard n) := by
  obtain ⟨s', hs'⟩ : ∃ s', dropOldestEntries s n = .ok s' := by
    unfold dropOldestEntries
    split
    · exact ⟨s, rfl⟩
    · rw [List.getElem?_eq_getElem (by omega)]
      exact ⟨_, rfl⟩
  rw [hs', (dropOldestEntries_ok h hs').2]

/-- **Pruning by age** never fails. -/
theorem advanceRetention_total (h : Contiguous s) (now : DateTime) (retentionDays : Int) :
    ∃ d, d ≤ s.entries.length ∧ advanceRetentionAndPruneAge s now retentionDays =
      .ok ({ s.discard d with retentionClock := (nextRetentionClock s.retentionClock now).1 }, d,
        (nextRetentionClock s.retentionClock now).2) := by
  unfold advanceRetentionAndPruneAge
  simp only
  have hlen := (List.takeWhile_sublist
    (fun entry : RemoteExportJournalEntry => decide (entry.committedAt <
      (checkedSubSigned (nextRetentionClock s.retentionClock now).1.trustedAt
        (days retentionDays)).getD minUtc)) (l := s.entries)).length_le
  have hs : Contiguous { s with retentionClock := (nextRetentionClock s.retentionClock now).1 } :=
    h.of_window rfl rfl
  exact ⟨_, hlen, by rw [dropOldestEntries_total hs hlen]; rfl⟩

theorem reclaimedEntries_yields {excess : Nat} : ∀ {es : List RemoteExportJournalEntry}
    {reclaimed count : Nat}, Yields (reclaimedEntries store excess es reclaimed count)
      (Declared store) (· ≤ count + es.length)
  | [], _, _ => yields_ok (Nat.le_refl _)
  | e :: es, reclaimed, count => by
    simp only [reclaimedEntries]
    cases hsize : store.encodedEntryJsonSize e with
    | error message => exact Declared.entrySize e hsize
    | ok size =>
      rw [ok_bind]
      refine Yields.bind (yields_okOr (.inr .entrySizeOverflow)) fun _ _ => ?_
      split
      · exact yields_pure (by simp)
      · refine reclaimedEntries_yields.mono (fun _ h => h) fun n hn => ?_
        rw [List.length_cons]
        omega

/-- The byte cap holds of the encoded state. -/
def WithinBytes (store : RemoteExportStateStore) (s : StoredExportState) : Prop :=
  ∃ size, encodedStateSize store s = .ok size ∧ size ≤ store.limits.maximumStateBytes

theorem encodedStateSize_yields : Yields (encodedStateSize store s) (Declared store) fun _ => True := by
  unfold encodedStateSize
  cases hsize : store.encodedStateJsonSize s with
  | error message => exact Declared.stateSize s hsize
  | ok size =>
    rw [ok_bind]
    exact (yields_okOr (.inr .stateSizeOverflow)).mono (fun _ h => h) fun _ _ => trivial

theorem compactLoop_yields : ∀ {fuel : Nat} {s : StoredExportState}, Contiguous s →
    s.entries.length < fuel → Yields (compactLoop store fuel s) (Declared store) fun s' =>
      ∃ d, d ≤ s.entries.length ∧ s' = s.discard d ∧ WithinBytes store s'
  | 0, _, _, hf => absurd hf (Nat.not_lt_zero _)
  | fuel + 1, s, hs, hf => by
    refine Yields.bind encodedStateSize_yields.with_eq fun size hsize => ?_
    split
    · rename_i hle
      exact yields_pure ⟨0, Nat.zero_le _, (discard_zero s).symm, size, hsize.1, hle⟩
    · split
      · exact yields_error .envelope
      · rename_i hne
        refine Yields.bind reclaimedEntries_yields.with_eq fun count hcount => ?_
        have hpos := reclaimedEntries_pos hcount.1 hne
        have hle : count ≤ s.entries.length := by simpa using hcount.2
        rw [dropOldestEntries_total hs hle, ok_bind]
        have hlen : (s.discard count).entries.length = s.entries.length - count := by
          simp [StoredExportState.discard]
        refine (compactLoop_yields (hs.discard hle) (by omega)).mono (fun _ h => h) ?_
        rintro s' ⟨d, hd, rfl, hbytes⟩
        have hdrop : (s.discard count).discard d = s.discard (count + d) := by
          simp [StoredExportState.discard, List.drop_drop, Nat.add_assoc]
        exact ⟨count + d, by omega, hdrop, hbytes⟩

/-- **Compacting** fails at the byte cap only and leaves the state within the limits. -/
theorem compactToLimits_yields (h : Contiguous s) :
    Yields (compactToLimits store s) (Declared store) fun s' =>
      ∃ d, d ≤ s.entries.length ∧ s' = s.discard d ∧ WithinBytes store s' ∧
        s'.entries.length ≤ store.limits.maximumEntries := by
  unfold compactToLimits
  set n := s.entries.length - store.limits.maximumEntries with hn
  have hle : n ≤ s.entries.length := by omega
  rw [dropOldestEntries_total h hle, ok_bind]
  refine (compactLoop_yields (h.discard hle) (Nat.lt_succ_self _)).mono (fun _ h => h) ?_
  rintro s' ⟨d, hd, rfl, hbytes⟩
  have hlen : (s.discard n).entries.length = s.entries.length - n := by
    simp [StoredExportState.discard]
  have hdrop : (s.discard n).discard d = s.discard (n + d) := by
    simp [StoredExportState.discard, List.drop_drop, Nat.add_assoc]
  refine ⟨n + d, by omega, hdrop, hbytes, ?_⟩
  rw [hdrop]
  simp only [StoredExportState.discard, List.length_drop]
  omega

end Export
