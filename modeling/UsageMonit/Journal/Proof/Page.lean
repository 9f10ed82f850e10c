import UsageMonit.Journal.Page
import UsageMonit.Journal.Proof.Codec
import UsageMonit.Lib.Outcome

/-!
# A decoded page loses nothing

* `Collected`: what the loop over the entries has collected of those it has passed
* `PageError`: why a page is not decoded, and which of these errors ask for fewer entries
* `page_decoded_whole`: a page either fails for such a reason, or every entry is in the payload
  once, in the list of its family and in order
-/

namespace Journal

open Fallible Time Export Protocol KeyedMerge

/-! ## What a page holds -/

variable {entries : List RemoteExportJournalEntry}

section
variable {γ π : Type} (env : PageEnv γ π)

/-- The record of an entry, if it can be decoded. -/
def decoded? (entry : RemoteExportJournalEntry) : Option (RemoteDeltaJournalRecordV1 γ π) :=
  (decodeRemoteDeltaJournalChange env.toJournalEnv entry.change).toOption

def quotaChange (entry : RemoteExportJournalEntry) : Option (RemoteQuotaChange π) :=
  match decoded? env entry with
  | some ⟨.quotaDay quota, _⟩ => some ⟨entry.sequence, quota⟩
  | _ => none

def bucketChange (entry : RemoteExportJournalEntry) : Option (RemoteUsageBucketChange γ) :=
  match decoded? env entry with
  | some ⟨.usageBucket startsAt mutation, _⟩ =>
    some ⟨entry.sequence, startsAt, entry.sequence, mutation⟩
  | _ => none

def digestChange (entry : RemoteExportJournalEntry) : Option (RemoteSessionDigestChange γ) :=
  match decoded? env entry with
  | some ⟨.sessionDigest threadId rangeStart rangeEnd changedAt retentionThrough mutation, _⟩ =>
    some ⟨entry.sequence, threadId, rangeStart, rangeEnd, changedAt, retentionThrough,
      entry.sequence, mutation⟩
  | _ => none

/-- The changes of entries, family by family. -/
def changesOf (entries : List RemoteExportJournalEntry) : Changes γ π where
  quota := entries.filterMap (quotaChange env)
  buckets := entries.filterMap (bucketChange env)
  digests := entries.filterMap (digestChange env)

def descriptorsOf (entries : List RemoteExportJournalEntry) : List RemoteProjectDescriptor :=
  entries.flatMap fun entry => (decoded? env entry).elim [] (·.projectDescriptors)

variable {env} {entry : RemoteExportJournalEntry} {decoded : RemoteDeltaJournalRecordV1 γ π}

theorem decoded?_eq (h : decodeRemoteDeltaJournalChange env.toJournalEnv entry.change = .ok decoded) :
    decoded? env entry = some decoded := by
  unfold decoded?
  rw [h]
  rfl

theorem changesOf_concat (h : decoded? env entry = some decoded)
    (entries : List RemoteExportJournalEntry) :
    changesOf env (entries ++ [entry]) =
      (changesOf env entries).push entry.sequence decoded.record := by
  obtain ⟨record, descriptors⟩ := decoded
  unfold changesOf Changes.push
  cases record <;>
    simp [List.filterMap_append, quotaChange, bucketChange, digestChange, h]

theorem descriptorsOf_concat (h : decoded? env entry = some decoded)
    (entries : List RemoteExportJournalEntry) :
    descriptorsOf env (entries ++ [entry]) =
      descriptorsOf env entries ++ decoded.projectDescriptors := by
  simp [descriptorsOf, h]

theorem changesOf_length (h : ∀ entry ∈ entries, (decoded? env entry).isSome) :
    (changesOf env entries).quota.length + (changesOf env entries).buckets.length +
      (changesOf env entries).digests.length = entries.length := by
  induction entries using List.reverseRecOn with
  | nil => rfl
  | append_singleton entries entry ih =>
    obtain ⟨decoded, hdecoded⟩ := Option.isSome_iff_exists.1 (h entry (by simp))
    have hrest := ih fun e he => h e (List.mem_append_left _ he)
    rw [changesOf_concat hdecoded, List.length_append, List.length_singleton, ← hrest]
    obtain ⟨record, descriptors⟩ := decoded
    cases record <;> simp [Changes.push] <;> omega

theorem descriptors_of_quota
    (h : decodeRemoteDeltaJournalChange env.toJournalEnv entry.change = .ok decoded)
    (hquota : decoded.record.isQuota = true) : decoded.projectDescriptors = [] := by
  obtain ⟨-, -, -, -, -, -, hcovers, -, -⟩ := decode_ok.1 h
  have hkeys := hcovers.keys
  obtain ⟨record, descriptors⟩ := decoded
  cases record with
  | quotaDay quota =>
    have hnil := (List.toFinset_eq_empty_iff _).1 hkeys.symm
    exact List.map_eq_nil_iff.1 hnil
  | usageBucket startsAt mutation => cases hquota
  | sessionDigest threadId rangeStart rangeEnd changedAt retentionThrough mutation => cases hquota

end

/-- Nothing of the page is lost in the payload. -/
structure Whole {γ π : Type} (env : PageEnv γ π) (inputs : RemoteDeltaJournalPageInputs γ)
    (page : RemoteExportDeltaPage) (out : DeltaPage × DeltaPayload γ π) : Prop where
  decoded : ∀ entry ∈ page.entries, (decoded? env entry).isSome
  /-- Every family in the order of the entries, and every entry in one family. -/
  quota : out.2.quotaChanges = page.entries.filterMap (quotaChange env)
  buckets : out.2.bucketChanges = page.entries.filterMap (bucketChange env)
  digests : out.2.sessionDigestChanges = page.entries.filterMap (digestChange env)
  once : out.2.quotaChanges.length + out.2.bucketChanges.length +
    out.2.sessionDigestChanges.length = page.entries.length
  ascending : (page.entries.map (·.sequence)).Pairwise (· < ·)
  bucket_revision : ∀ change ∈ out.2.bucketChanges, change.revision = change.sequence
  digest_revision : ∀ change ∈ out.2.sessionDigestChanges, change.revision = change.sequence
  page_eq : out.1 =
    ⟨page.generation, page.fromSequence, page.throughSequence, page.nextCursor, page.hasMore⟩
  cursor : out.1.nextDeltaCursor = ⟨page.generation, out.1.throughSequence⟩
  through : page.entries.getLast?.elim page.fromSequence (·.sequence) = out.1.throughSequence
  descriptors_ordered :
    Ordered RemoteProjectDescriptor.observedProjectKey out.2.projectDescriptors
  descriptors : ∀ d, d ∈ out.2.projectDescriptors ↔
    d ∈ descriptorsOf env page.entries ∨ d ∈ inputs.liveProjectDescriptors
  stats : out.2.stats = { inputs.stats with
    journalRecordsScanned := page.entries.length
    quotaChangesEmitted := out.2.quotaChanges.length
    projectDescriptorsEmitted := out.2.projectDescriptors.length
    bucketChangesEmitted := out.2.bucketChanges.length
    sessionDigestChangesEmitted := out.2.sessionDigestChanges.length
    liveTasksEmitted := (inputs.live.bind (·.snapshot)).elim 0 (·.tasks.length)
    liveTurnsEmitted := (inputs.live.bind (·.snapshot)).elim 0 (·.turns.length) }
  rest : out.2.coverage = inputs.coverage ∧ out.2.live = inputs.live ∧
    out.2.warnings = inputs.warnings

/-! ## Errors -/

/-- Descriptors that cannot go on one page: the caller may try fewer entries, if there are more. -/
inductive DescriptorError (all : List RemoteProjectDescriptor) (maximum pageEntryCount : Nat) :
    RemoteDeltaPageDecodeError → Prop
  | conflict (message : String) {d d' : RemoteProjectDescriptor} : d ∈ all → d' ∈ all →
      d.observedProjectKey = d'.observedProjectKey → d ≠ d' →
      DescriptorError all maximum pageEntryCount (pageDescriptorError pageEntryCount message)
  | crowded (message : String) {crowd : List RemoteProjectDescriptor} :
      Ordered RemoteProjectDescriptor.observedProjectKey crowd → (∀ d ∈ crowd, d ∈ all) →
      maximum < crowd.length →
      DescriptorError all maximum pageEntryCount (pageDescriptorError pageEntryCount message)

section
variable {γ π : Type} (env : PageEnv γ π) (inputs : RemoteDeltaJournalPageInputs γ)
  (page : RemoteExportDeltaPage) (descriptorUnionLimit : Nat)

/-- Why a page is not decoded. -/
inductive PageError : RemoteDeltaPageDecodeError → Prop
  | durable {e : String} : validateDurablePage page = .error e → PageError (.fatal e)
  | live {e : String} :
      canonicalizeDescriptors inputs.liveProjectDescriptors maxDescriptorsPerPage
        "remote delta live state" = .error e → PageError (.fatal e)
  | liveBound (message : String) : maxDescriptorsPerPage < inputs.liveProjectDescriptors.length →
      PageError (.fatal message)
  | bytes (message : String) :
      maxJournalPageBytes < (page.entries.map (·.change.payload.length)).sum →
      PageError (.fatal message)
  | collision (message : String) {entry entry' : RemoteExportJournalEntry} :
      entry ∈ page.entries → entry' ∈ page.entries →
      entry.change.changeId = entry'.change.changeId →
      entry.change.payload ≠ entry'.change.payload → PageError (.fatal message)
  | entry {entry : RemoteExportJournalEntry} {e : String} : entry ∈ page.entries →
      decodeRemoteDeltaJournalChange env.toJournalEnv entry.change = .error e →
      PageError (.fatal e)
  | record {entry : RemoteExportJournalEntry} {decoded : RemoteDeltaJournalRecordV1 γ π}
      {e : String} : entry ∈ page.entries → decoded? env entry = some decoded →
      validateDecodedRecord env inputs decoded entry.sequence page.generation = .error e →
      PageError (.fatal e)
  | descriptors {e : RemoteDeltaPageDecodeError} :
      DescriptorError (descriptorsOf env page.entries ++ inputs.liveProjectDescriptors)
        descriptorUnionLimit page.entries.length e → PageError e
  | references (message : String) :
      pageProjectKeys (changesOf env page.entries) inputs.live ≠
        ((descriptorsOf env page.entries ++ inputs.liveProjectDescriptors).map
          (·.observedProjectKey)).toFinset → PageError (.fatal message)
  | payload {out : DeltaPage × DeltaPayload γ π} {e : String} : Whole env inputs page out →
      env.validateRemoteDeltaPayload (inputs.context out.1) out.2 = .error e →
      PageError (.fatal ("invalid remote delta journal page: " ++ e))

/-- **Fewer entries** are asked for only if there is more than one. -/
theorem PageError.splits {env : PageEnv γ π} {inputs : RemoteDeltaJournalPageInputs γ}
    {page : RemoteExportDeltaPage} {descriptorUnionLimit : Nat} {message : String}
    (h : PageError env inputs page descriptorUnionLimit (.splittable message)) :
    1 < page.entries.length := by
  cases h with
  | descriptors h =>
    generalize he : RemoteDeltaPageDecodeError.splittable message = e at h
    have hmessage : ∃ message', e = pageDescriptorError page.entries.length message' := by
      cases h with
      | conflict message' => exact ⟨message', rfl⟩
      | crowded message' => exact ⟨message', rfl⟩
    obtain ⟨message', rfl⟩ := hmessage
    unfold pageDescriptorError at he
    split at he
    · assumption
    · cases he

end

section
variable {α : Type} {x : Except String α} {D : RemoteDeltaPageDecodeError → Prop} {P : α → Prop}

theorem orFatal_of (h : Yields x (fun e => D (.fatal e)) P) : Yields (orFatal x) D P := by
  cases x with
  | ok a => exact h
  | error e => exact h

theorem yields_mapError {f : String → String} :
    Yields (x.mapError f) (fun e => ∃ e', x = .error e' ∧ e = f e') fun a => x = .ok a := by
  cases x with
  | ok a => exact rfl
  | error e => exact ⟨e, rfl, rfl⟩

theorem yields_orFatal (h : ∀ e, x = .error e → D (.fatal e)) :
    Yields (orFatal x) D fun a => x = .ok a := by
  cases x with
  | ok a => exact rfl
  | error e => exact h e rfl

end

/-! ## The union of descriptors -/

section
variable {subject : String} {maximum pageEntryCount : Nat}
  {all target descriptors : List RemoteProjectDescriptor}

theorem yields_mergePageDescriptor
    (hordered : Ordered RemoteProjectDescriptor.observedProjectKey target)
    (htarget : ∀ d ∈ target, d ∈ all) {descriptor : RemoteProjectDescriptor}
    (hdescriptor : descriptor ∈ all) :
    Yields (mergePageDescriptor subject maximum pageEntryCount target descriptor)
      (DescriptorError all maximum pageEntryCount) fun result =>
        Ordered RemoteProjectDescriptor.observedProjectKey result ∧
          ∀ d, d ∈ result ↔ d ∈ target ∨ d = descriptor := by
  unfold mergePageDescriptor
  split
  · rename_i existing hexisting
    obtain ⟨hmem, hkey⟩ := valueAt_key hexisting
    refine (yields_ensure ?_).bind fun _ hsame => yields_pure ⟨hordered, fun d => ?_⟩
    · exact or_iff_not_imp_left.2 fun hne =>
        .conflict _ (htarget existing hmem) hdescriptor hkey hne
    · refine ⟨.inl, ?_⟩
      rintro (hd | rfl)
      · exact hd
      · exact hsame ▸ hmem
  · rename_i hnone
    have hresult : ∀ d, d ∈ upsert RemoteProjectDescriptor.observedProjectKey
        (fun existing _ => existing) descriptor target ↔ d ∈ target ∨ d = descriptor := by
      intro d
      rw [mem_upsert_of_new (valueAt_eq_none.1 hnone), or_comm]
    have hordered' : Ordered RemoteProjectDescriptor.observedProjectKey
        (upsert RemoteProjectDescriptor.observedProjectKey (fun existing _ => existing) descriptor
          target) := hordered.upsert fun _ _ _ => rfl
    refine (yields_ensure ?_).bind fun _ _ => yields_pure ⟨hordered', hresult⟩
    refine or_iff_not_imp_left.2 fun hcrowd =>
      .crowded _ hordered' (fun d hd => ?_) (Nat.lt_of_not_le hcrowd)
    rcases (hresult d).1 hd with hd | rfl
    · exact htarget d hd
    · exact hdescriptor

theorem yields_mergePageDescriptors
    (hordered : Ordered RemoteProjectDescriptor.observedProjectKey target)
    (htarget : ∀ d ∈ target, d ∈ all) (hdescriptors : ∀ d ∈ descriptors, d ∈ all) :
    Yields (mergePageDescriptors target descriptors subject maximum pageEntryCount)
      (DescriptorError all maximum pageEntryCount) fun result =>
        Ordered RemoteProjectDescriptor.observedProjectKey result ∧
          ∀ d, d ∈ result ↔ d ∈ target ∨ d ∈ descriptors := by
  unfold mergePageDescriptors
  induction descriptors generalizing target with
  | nil => exact ⟨hordered, by simp⟩
  | cons descriptor descriptors ih =>
    rw [List.foldlM_cons]
    have hhead := hdescriptors descriptor List.mem_cons_self
    refine (yields_mergePageDescriptor hordered htarget hhead).bind fun next hnext => ?_
    have htarget' : ∀ d ∈ next, d ∈ all := by
      intro d hd
      rcases (hnext.2 d).1 hd with hd | rfl
      · exact htarget d hd
      · exact hhead
    refine (ih hnext.1 htarget' fun d hd => hdescriptors d (List.mem_cons_of_mem _ hd)).mono
      (fun _ he => he) fun result hresult => ⟨hresult.1, fun d => ?_⟩
    rw [hresult.2, hnext.2, List.mem_cons, or_assoc]

end

/-! ## The loop over the entries -/

section
variable {γ π : Type} {env : PageEnv γ π} {inputs : RemoteDeltaJournalPageInputs γ}
  {page : RemoteExportDeltaPage} {descriptorUnionLimit : Nat}
  {done rest : List RemoteExportJournalEntry} {s : PageState γ π}

/-- What is collected of the entries that are passed. -/
structure Collected (env : PageEnv γ π) (done : List RemoteExportJournalEntry)
    (s : PageState γ π) : Prop where
  decoded : ∀ entry ∈ done, (decoded? env entry).isSome
  bytes : s.payloadBytes = (done.map (·.change.payload.length)).sum
  ids : ∀ change ∈ s.contentIds, ∃ entry ∈ done, entry.change = change
  ordered : Ordered RemoteProjectDescriptor.observedProjectKey s.descriptors
  mem : ∀ d, d ∈ s.descriptors ↔ d ∈ descriptorsOf env done
  changes : s.changes = changesOf env done

theorem collected_empty : Collected env [] ({} : PageState γ π) where
  decoded := by simp
  bytes := rfl
  ids := by simp
  ordered := .nil
  mem _ := Iff.rfl
  changes := rfl

theorem yields_rememberContentId {contentIds : List RemoteExportChange}
    {change : RemoteExportChange} :
    Yields (rememberContentId contentIds change)
      (fun _ => ∃ known ∈ contentIds, known.changeId = change.changeId ∧
        known.payload ≠ change.payload)
      fun result => ∀ c ∈ result, c ∈ contentIds ∨ c = change := by
  unfold rememberContentId
  split
  · rename_i existing hfind
    have hid : existing.changeId = change.changeId := by simpa using List.find?_some hfind
    refine (yields_ensure (or_iff_not_imp_left.2 fun hne => ?_)).bind fun _ _ => yields_pure fun c hc =>
      .inl hc
    exact ⟨existing, List.mem_of_find?_eq_some hfind, hid, hne⟩
  · exact yields_pure fun c hc => (List.mem_cons.1 hc).symm

theorem yields_mergeEntryDescriptors {entry : RemoteExportJournalEntry}
    {decoded : RemoteDeltaJournalRecordV1 γ π} {all target : List RemoteProjectDescriptor}
    {maximum pageEntryCount : Nat}
    (hdecoded : decodeRemoteDeltaJournalChange env.toJournalEnv entry.change = .ok decoded)
    (hordered : Ordered RemoteProjectDescriptor.observedProjectKey target)
    (htarget : ∀ d ∈ target, d ∈ all) (hall : ∀ d ∈ decoded.projectDescriptors, d ∈ all) :
    Yields (mergeEntryDescriptors target decoded maximum pageEntryCount)
      (DescriptorError all maximum pageEntryCount) fun result =>
        Ordered RemoteProjectDescriptor.observedProjectKey result ∧
          ∀ d, d ∈ result ↔ d ∈ target ∨ d ∈ decoded.projectDescriptors := by
  unfold mergeEntryDescriptors
  split
  · rename_i hquota
    exact yields_pure ⟨hordered, by simp [descriptors_of_quota hdecoded hquota]⟩
  · exact yields_mergePageDescriptors hordered htarget hall

theorem mem_descriptorsOf {entry : RemoteExportJournalEntry} (hentry : entry ∈ entries)
    {decoded : RemoteDeltaJournalRecordV1 γ π} (hdecoded : decoded? env entry = some decoded)
    {d : RemoteProjectDescriptor} (hd : d ∈ decoded.projectDescriptors) :
    d ∈ descriptorsOf env entries :=
  List.mem_flatMap.2 ⟨entry, hentry, by rw [hdecoded]; exact hd⟩

/-- **An entry** is counted, decoded, and goes to its family. -/
theorem yields_decodeEntry {entry : RemoteExportJournalEntry}
    (hsplit : done ++ entry :: rest = page.entries) (hsequence : entry.sequence ≠ 0)
    (h : Collected env done s) :
    Yields (decodeEntry env inputs page.generation descriptorUnionLimit page.entries.length s entry)
      (PageError env inputs page descriptorUnionLimit) (Collected env (done ++ [entry])) := by
  have hmem : entry ∈ page.entries := hsplit ▸ by simp
  have hpassed : ∀ e ∈ done, e ∈ page.entries := fun e he => hsplit ▸ List.mem_append_left _ he
  have hbytes : s.payloadBytes + entry.change.payload.length ≤
      (page.entries.map (·.change.payload.length)).sum := by
    rw [h.bytes, ← hsplit]
    simp
  refine (orFatal_of (yields_okOr (or_iff_not_imp_left.2 fun hover => ?_))).bind fun bytes hadd => ?_
  · refine .bytes _ (lt_of_lt_of_le ?_ hbytes)
    unfold checkedAdd at hover
    split at hover
    · simp at hover
    · simp only [maxJournalPageBytes]
      omega
  obtain ⟨rfl, -⟩ := checkedAdd_eq_some hadd
  refine (orFatal_of (yields_ensure (or_iff_not_imp_left.2 fun hover =>
    .bytes _ (lt_of_lt_of_le (Nat.lt_of_not_le hover) hbytes)))).bind fun _ _ => ?_
  refine (orFatal_of (yields_rememberContentId.mono (fun e he => ?_) fun _ hids => hids)).bind
    fun contentIds hids => ?_
  · obtain ⟨known, hknown, hid, hne⟩ := he
    obtain ⟨known, hentry, rfl⟩ := h.ids known hknown
    exact .collision e (hpassed known hentry) hmem hid hne
  refine (yields_orFatal fun e he => .entry hmem he).bind fun decoded hok => ?_
  have hdecoded := decoded?_eq hok
  refine (orFatal_of (yields_ensure (.inl hsequence))).bind fun _ _ => ?_
  refine (yields_orFatal fun e he => .record hmem hdecoded he).bind fun _ _ => ?_
  have htarget : ∀ d ∈ s.descriptors,
      d ∈ descriptorsOf env page.entries ++ inputs.liveProjectDescriptors := by
    intro d hd
    obtain ⟨e, he, hd⟩ := List.mem_flatMap.1 ((h.mem d).1 hd)
    exact List.mem_append_left _ (List.mem_flatMap.2 ⟨e, hpassed e he, hd⟩)
  have hall : ∀ d ∈ decoded.projectDescriptors,
      d ∈ descriptorsOf env page.entries ++ inputs.liveProjectDescriptors :=
    fun d hd => List.mem_append_left _ (mem_descriptorsOf hmem hdecoded hd)
  refine ((yields_mergeEntryDescriptors hok h.ordered htarget hall).mono (fun _ he =>
    PageError.descriptors he) fun _ hd => hd).bind fun descriptors hdescriptors => yields_pure ?_
  exact {
    decoded := by
      intro e he
      rcases List.mem_append.1 he with he | he
      · exact h.decoded e he
      · rw [List.mem_singleton.1 he, hdecoded]
        rfl
    bytes := by simp [h.bytes]
    ids := by
      intro c hc
      rcases hids c hc with hc | rfl
      · obtain ⟨e, he, hchange⟩ := h.ids c hc
        exact ⟨e, List.mem_append_left _ he, hchange⟩
      · exact ⟨entry, by simp, rfl⟩
    ordered := hdescriptors.1
    mem := fun d => by
      rw [hdescriptors.2, h.mem, descriptorsOf_concat hdecoded, List.mem_append]
    changes := by rw [h.changes, changesOf_concat hdecoded] }

theorem yields_decodeEntries (hsplit : done ++ rest = page.entries)
    (hsequence : ∀ entry ∈ rest, entry.sequence ≠ 0) (h : Collected env done s) :
    Yields (rest.foldlM (decodeEntry env inputs page.generation descriptorUnionLimit
      page.entries.length) s) (PageError env inputs page descriptorUnionLimit)
      (Collected env page.entries) := by
  induction rest generalizing done s with
  | nil =>
    rw [List.append_nil] at hsplit
    exact yields_pure (hsplit ▸ h)
  | cons entry rest ih =>
    rw [List.foldlM_cons]
    refine (yields_decodeEntry hsplit (hsequence entry List.mem_cons_self) h).bind fun s' h' => ?_
    exact ih (by simpa using hsplit) (fun e he => hsequence e (List.mem_cons_of_mem _ he)) h'

end

/-! ## The page -/

theorem validateSequences_ok {previous : Nat} (h : validateSequences previous entries = .ok ()) :
    entries.map (·.sequence) = List.range' (previous + 1) entries.length := by
  induction entries generalizing previous with
  | nil => rfl
  | cons entry entries ih =>
    obtain ⟨expected, hexpected, h⟩ := bind_ok h
    obtain ⟨rfl, -⟩ := checkedAdd_eq_some (okOr_ok.1 hexpected)
    obtain ⟨_, hsequence, h⟩ := bind_ok h
    rw [List.map_cons, ih h, ensure_ok.1 hsequence, List.length_cons, List.range'_succ]

theorem validateDurablePage_ok {page : RemoteExportDeltaPage}
    (h : validateDurablePage page = .ok ()) :
    page.entries.length ≤ maxJournalPageEntries ∧
      page.nextCursor = ⟨page.generation, page.throughSequence⟩ ∧
      (page.entries = [] → page.fromSequence = page.throughSequence) ∧
      (page.entries ≠ [] → page.fromSequence ≠ 0 ∧
        page.throughSequence + 1 = page.fromSequence + page.entries.length ∧
        page.entries.map (·.sequence) = List.range' page.fromSequence page.entries.length) := by
  obtain ⟨_, hcount, h⟩ := bind_ok h
  obtain ⟨_, hcursor, h⟩ := bind_ok h
  obtain ⟨hgeneration, hsequence⟩ := ensure_ok.1 hcursor
  refine ⟨ensure_ok.1 hcount, by rw [← hgeneration, ← hsequence], ?_⟩
  split at h
  · rename_i hnil
    exact ⟨fun _ => (ensure_ok.1 h).1, fun hne => absurd hnil hne⟩
  · rename_i hne
    refine ⟨fun hnil => absurd hnil hne, fun _ => ?_⟩
    obtain ⟨_, hbounds, h⟩ := bind_ok h
    obtain ⟨hpos, -, hlast⟩ := ensure_ok.1 hbounds
    have hrange := validateSequences_ok h
    rw [Nat.sub_add_cancel (Nat.pos_of_ne_zero hpos)] at hrange
    refine ⟨hpos, ?_, hrange⟩
    rw [← List.getLast?_map, hrange, List.getLast?_range'] at hlast
    simp only [List.length_eq_zero_iff, hne, if_false, Option.some.injEq] at hlast
    omega

section
variable {γ π : Type} {env : PageEnv γ π}

theorem bucketChange_revision {entry : RemoteExportJournalEntry}
    {change : RemoteUsageBucketChange γ} (h : bucketChange env entry = some change) :
    change.revision = change.sequence := by
  unfold bucketChange at h
  split at h
  · obtain rfl := Option.some.inj h
    rfl
  · cases h

theorem digestChange_revision {entry : RemoteExportJournalEntry}
    {change : RemoteSessionDigestChange γ} (h : digestChange env entry = some change) :
    change.revision = change.sequence := by
  unfold digestChange at h
  split at h
  · obtain rfl := Option.some.inj h
    rfl
  · cases h

variable {inputs : RemoteDeltaJournalPageInputs γ} {page : RemoteExportDeltaPage}

theorem scannedRecords_of (h : validateDurablePage page = .ok ()) :
    scannedRecords page = .ok page.entries.length := by
  obtain ⟨hcount, -, -, hentries⟩ := validateDurablePage_ok h
  unfold scannedRecords
  split
  · rename_i hnil
    rw [hnil]
    rfl
  · rename_i hne
    obtain ⟨hpos, hthrough, -⟩ := hentries hne
    have hlen := List.length_pos_iff.2 hne
    have hscanned : page.throughSequence - page.fromSequence + 1 = page.entries.length := by omega
    rw [ensure_of (by omega), ok_bind]
    unfold checkedAdd maxJournalPageEntries at *
    rw [if_pos (by omega), hscanned]
    rfl

theorem ascending_of (h : validateDurablePage page = .ok ()) :
    (∀ entry ∈ page.entries, entry.sequence ≠ 0) ∧
      (page.entries.map (·.sequence)).Pairwise (· < ·) ∧
      page.entries.getLast?.elim page.fromSequence (·.sequence) = page.throughSequence := by
  obtain ⟨-, -, hnone, hentries⟩ := validateDurablePage_ok h
  by_cases hnil : page.entries = []
  · rw [hnil]
    exact ⟨by simp, by simp, hnone hnil⟩
  · obtain ⟨hpos, hthrough, hrange⟩ := hentries hnil
    refine ⟨fun entry hentry => ?_, ?_, ?_⟩
    · have hmem : entry.sequence ∈ page.entries.map (·.sequence) := List.mem_map_of_mem hentry
      rw [hrange, List.mem_range'_1] at hmem
      omega
    · rw [hrange]
      exact List.pairwise_lt_range'
    · have hlast : (page.entries.map (·.sequence)).getLast? = some page.throughSequence := by
        rw [hrange, List.getLast?_range']
        simp [hnil]
        omega
      rw [List.getLast?_map] at hlast
      obtain ⟨last, hsome, hsequence⟩ := Option.map_eq_some_iff.1 hlast
      rw [hsome]
      exact hsequence

/-- **A decoded page loses nothing.** The decoder fails for one of the reasons of `PageError`, or
its payload holds the whole page. It asks for fewer entries only if there is more than one. -/
theorem page_decoded_whole (env : PageEnv γ π) (inputs : RemoteDeltaJournalPageInputs γ)
    (page : RemoteExportDeltaPage) :
    Yields (decodeRemoteDeltaJournalPageClassified env inputs page)
      (fun e => PageError env inputs page maxDescriptorsPerPage e ∧
        ∀ message, e = .splittable message → 1 < page.entries.length)
      (Whole env inputs page) := by
  suffices h : Yields (decodeRemoteDeltaJournalPageClassified env inputs page)
      (PageError env inputs page maxDescriptorsPerPage) (Whole env inputs page) from
    h.mono (fun e he => ⟨he, fun message hsplit => (hsplit ▸ he).splits⟩) fun _ hwhole => hwhole
  unfold decodeRemoteDeltaJournalPageClassified decodeRemoteDeltaJournalPageWithDescriptorLimit
  refine (yields_orFatal fun e he => .durable he).bind fun _ hdurable => ?_
  obtain ⟨hsequences, hascending, hthrough⟩ := ascending_of hdurable
  refine (orFatal_of (yields_ensure (or_iff_not_imp_left.2 fun hover =>
    .liveBound _ (Nat.lt_of_not_le hover)))).bind fun _ _ => ?_
  refine (yields_decodeEntries (List.nil_append _) hsequences collected_empty).bind fun s h => ?_
  refine (yields_orFatal fun e he => .live he).bind fun live hlive => ?_
  have hcanonical := (canonicalize_ok hlive).2.2
  refine ((yields_mergePageDescriptors h.ordered
    (fun d hd => List.mem_append_left _ ((h.mem d).1 hd))
    (fun d hd => List.mem_append_right _ ((hcanonical.mem d).1 hd))).mono
      (fun _ he => PageError.descriptors he) fun _ hd => hd).bind fun descriptors hdescriptors => ?_
  have hmem : ∀ d, d ∈ descriptors ↔
      d ∈ descriptorsOf env page.entries ∨ d ∈ inputs.liveProjectDescriptors := by
    intro d
    rw [hdescriptors.2, h.mem, hcanonical.mem]
  have hkeys : (descriptors.map (·.observedProjectKey)).toFinset =
      ((descriptorsOf env page.entries ++ inputs.liveProjectDescriptors).map
        (·.observedProjectKey)).toFinset := by
    ext key
    simp only [List.mem_toFinset, List.mem_map, List.mem_append, hmem]
  refine (orFatal_of (yields_ensure (or_iff_not_imp_left.2 fun hne =>
    .references _ (h.changes ▸ hkeys ▸ hne)))).bind fun _ _ => ?_
  rw [scannedRecords_of hdurable]
  refine (yields_orFatal fun e he => nomatch he).bind fun scanned hscanned => ?_
  obtain rfl := Except.ok.inj hscanned
  have hwhole : Whole env inputs page (
      ⟨page.generation, page.fromSequence, page.throughSequence, page.nextCursor, page.hasMore⟩,
      { quotaChanges := s.changes.quota
        coverage := inputs.coverage
        projectDescriptors := descriptors
        bucketChanges := s.changes.buckets
        sessionDigestChanges := s.changes.digests
        live := inputs.live
        stats := { inputs.stats with
          journalRecordsScanned := page.entries.length
          quotaChangesEmitted := s.changes.quota.length
          projectDescriptorsEmitted := descriptors.length
          bucketChangesEmitted := s.changes.buckets.length
          sessionDigestChangesEmitted := s.changes.digests.length
          liveTasksEmitted := (inputs.live.bind (·.snapshot)).elim 0 (·.tasks.length)
          liveTurnsEmitted := (inputs.live.bind (·.snapshot)).elim 0 (·.turns.length) }
        warnings := inputs.warnings }) := {
    decoded := h.decoded
    quota := congrArg Changes.quota h.changes
    buckets := congrArg Changes.buckets h.changes
    digests := congrArg Changes.digests h.changes
    once := by
      dsimp only
      rw [h.changes]
      exact changesOf_length h.decoded
    ascending := hascending
    bucket_revision := by
      dsimp only
      rw [h.changes]
      intro change hchange
      obtain ⟨entry, -, hentry⟩ := List.mem_filterMap.1 hchange
      exact bucketChange_revision hentry
    digest_revision := by
      dsimp only
      rw [h.changes]
      intro change hchange
      obtain ⟨entry, -, hentry⟩ := List.mem_filterMap.1 hchange
      exact digestChange_revision hentry
    page_eq := rfl
    cursor := (validateDurablePage_ok hdurable).2.1
    through := hthrough
    descriptors_ordered := hdescriptors.1
    descriptors := hmem
    stats := rfl
    rest := ⟨rfl, rfl, rfl⟩ }
  refine (orFatal_of (yields_mapError.mono (fun e he => ?_) fun _ hok => hok)).bind
    fun _ _ => yields_pure hwhole
  obtain ⟨e, he, rfl⟩ := he
  exact .payload hwhole he

end

namespace Sample

/-- The sample serialization, with a protocol that accepts every payload. -/
def pageEnv : PageEnv Unit Unit where
  toJournalEnv := env
  validateRemoteDeltaPayload := fun _ _ => .ok ()

def inputs : RemoteDeltaJournalPageInputs Unit where
  source := ⟨"source", 1⟩
  redactionProfile := .redacted
  revisions := ⟨1, 1, 1, 1, 1, ""⟩
  observedAt := days 1
  coverage := ⟨⟨0, days 1⟩, none, false, []⟩
  live := none
  stats := {}
  warnings := []
  liveProjectDescriptors := []

def page (change : RemoteExportChange) : RemoteExportDeltaPage where
  generation := 1
  fromSequence := 7
  throughSequence := 7
  nextCursor := ⟨1, 7⟩
  hasMore := false
  entries := [⟨7, 0, change⟩]

end Sample

open Journal.Sample in
example : (decodeRemoteDeltaJournalPageClassified pageEnv inputs
    (page (changeOf env (.v1 entry)))).toOption.map (fun out => out.2.bucketChanges) =
      some [⟨7, 0, 7, .tombstone⟩] := by decide +kernel

open Journal.Sample in
/-- A durable page whose change does not have the identifier of its content is not decoded. -/
theorem durable_page_not_decoded :
    validateDurablePage (page ⟨"unnamed", bytes "v1"⟩) = .ok () ∧
      decodeRemoteDeltaJournalPageClassified pageEnv inputs (page ⟨"unnamed", bytes "v1"⟩) =
        .error (.fatal "remote delta journal record content hash does not match its change ID") := by
  constructor <;> decide +kernel

end Journal
