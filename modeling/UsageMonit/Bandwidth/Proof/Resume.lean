import Mathlib.Algebra.Group.Action.Defs
import UsageMonit.Bandwidth.Proof.Coarsen

/-!
# When a paused attempt may resume

`resumeBelow` is the first expiry that takes a source below a threshold (`resumeBelow_first`). An
attempt is granted at an instant only if the charges of its source that have not expired leave room
for the minimum grant within the limit of its kind (`admitted_room`), and then it is
(`admitted_of_room`). The instant that a pause announces compares the charges with a threshold only,
so it is exact only if the expiry makes that room as well (`resume_exact_iff`).
-/

namespace Bandwidth

open Fallible Time RollingSum StoredRemoteBandwidthLedger

/-! ## Charges that have not expired -/

def usedAfter (l : StoredRemoteBandwidthLedger) (hostId : String) (nodeId : Option NodeId)
    (c : DateTime) : Nat :=
  massAfter LedgerEntry.recordedAt LedgerEntry.bytes c (l.sourceEntries hostId nodeId)

section
variable {l l' : StoredRemoteBandwidthLedger} {hostId : String} {nodeId : Option NodeId}
  {now : DateTime}

theorem totalCharge_source (entries : List LedgerEntry) :
    totalCharge hostId nodeId entries =
      ((entries.filter fun e => e.matchesSource hostId nodeId).map (·.bytes)).sum := by
  unfold totalCharge
  induction entries with
  | nil => rfl
  | cons e entries ih =>
    rw [List.filter_cons]
    cases hm : e.matchesSource hostId nodeId with
    | false => simpa [charge, hm] using ih
    | true => cases hk : e.kind <;> simp [charge, hm, hk] at ih ⊢ <;> omega

theorem sourceTotal_lt (hl : WellFormed l) (hostId : String) (nodeId : Option NodeId) :
    ((l.sourceEntries hostId nodeId).map (·.bytes)).sum < 2 ^ 64 := by
  have hbytes : ∀ b ∈ (l.sourceEntries hostId nodeId).map (·.bytes), b ≤ maxBytesPerEntry := by
    intro b hb
    obtain ⟨e, he, rfl⟩ := List.mem_map.1 hb
    exact bytes_le_of_valid (hl.entriesOk.valid e (List.mem_of_mem_filter he))
  have hcount := hl.entriesOk.sources (sourceStorageKey hostId nodeId)
  rw [count_storageKey] at hcount
  unfold sourceEntryCount at hcount
  have hsum := List.sum_le_card_nsmul _ _ hbytes
  rw [List.length_map, smul_eq_mul] at hsum
  unfold maxEntriesPerSource at hcount
  unfold maxBytesPerEntry at hsum
  omega

theorem rollingBytes_source (hl : WellFormed l) : (l.usage hostId nodeId).rollingBytes =
    ((l.sourceEntries hostId nodeId).map (·.bytes)).sum := by
  have hlt := sourceTotal_lt hl hostId nodeId
  rw [rollingBytes_eq, totalCharge_source]
  unfold sourceEntries at hlt ⊢
  omega

/-- The ledger that an attempt is admitted against. -/
def windowed (l : StoredRemoteBandwidthLedger) (now : DateTime) :
    Except String StoredRemoteBandwidthLedger := do
  let ledger ← l.advanceClockAndPrune now
  ledger.mergeCommittedMinuteBuckets

theorem wellFormed_windowed (hl : WellFormed l) (h : windowed l now = .ok l') : WellFormed l' := by
  obtain ⟨l₁, h₁, h₂⟩ := bind_ok h
  exact wellFormed_merge (wellFormed_advance hl h₁).toSortable h₂

theorem rollingBytes_windowed (hl : WellFormed l) (h : windowed l now = .ok l') :
    (l'.usage hostId nodeId).rollingBytes = usedAfter l hostId nodeId (now - windowDuration) := by
  have hl' := wellFormed_windowed hl h
  obtain ⟨l₁, h₁, h₂⟩ := bind_ok h
  have hcharge := merge_charge (wellFormed_advance hl h₁).toSortable h₂
  obtain ⟨-, -, hentries⟩ := advance_ok h₁
  have hsame : totalCharge hostId nodeId l'.entries = totalCharge hostId nodeId l₁.entries := by
    unfold totalCharge
    rw [hcharge, hcharge]
  rw [rollingBytes_source hl']
  unfold sourceEntries
  rw [← totalCharge_source, hsame, totalCharge_source, hentries]
  unfold usedAfter massAfter sourceEntries
  rw [List.filter_filter, List.filter_filter]
  simp only [Bool.and_comm]

theorem windowed_lastObserved (h : windowed l now = .ok l') : l'.lastObservedAt = some now := by
  obtain ⟨l₁, h₁, h₂⟩ := bind_ok h
  rw [(merge_ok h₂).1, (advance_ok h₁).2.1]

end

/-! ## The first expiry below a threshold -/

theorem checkedAddSigned_eq_some {a t : DateTime} {d : Duration}
    (h : checkedAddSigned a d = some t) : (minUtc ≤ t ∧ t ≤ maxUtc) ∧ a + d = t := by
  unfold checkedAddSigned at h
  split at h
  · rename_i hrange
    cases h
    exact ⟨hrange, rfl⟩
  · cases h

theorem windowDuration_nonneg : 0 ≤ windowDuration := by decide

theorem massAfter_all {α : Type} {time : α → Int} {weight : α → Nat} {c : Int} {l : List α}
    (h : ∀ a ∈ l, c < time a) : massAfter time weight c l = (l.map weight).sum := by
  unfold massAfter
  rw [List.filter_eq_self.2 fun a ha => decide_eq_true (h a ha)]

theorem massAfter_skip {α : Type} {time : α → Int} {weight : α → Nat} {c : Int} {a : α}
    {l : List α} (h : time a ≤ c) :
    massAfter time weight c (a :: l) = massAfter time weight c l := by
  rw [massAfter_cons, massOf, if_neg (not_lt.2 h), Nat.zero_add]

/-- **The loop of `resume_below`** on entries in the order of their instants: the result is the
expiry of an entry behind which less than the threshold is left, and before it the charges that are
left after any expiry reach the threshold. -/
theorem resumeBelowLoop_first {threshold : Nat} {t : DateTime} : ∀ {es : List LedgerEntry},
    es.Pairwise (fun a b => a.recordedAt ≤ b.recordedAt) →
    resumeBelowLoop threshold (es.map (·.bytes)).sum es = some t →
    ∃ e ∈ es, checkedAddSigned e.recordedAt windowDuration = some t ∧
      massAfter LedgerEntry.recordedAt LedgerEntry.bytes e.recordedAt es < threshold ∧
      ∀ c < e.recordedAt, (∃ a ∈ es, a.recordedAt ≤ c) →
        threshold ≤ massAfter LedgerEntry.recordedAt LedgerEntry.bytes c es
  | [], _, h => by cases h
  | entry :: rest, hsorted, h => by
    obtain ⟨hfirst, hrest⟩ := List.pairwise_cons.1 hsorted
    have hremaining : ((entry :: rest).map (·.bytes)).sum - entry.bytes =
        (rest.map (·.bytes)).sum := by simp
    unfold resumeBelowLoop at h
    simp only [hremaining] at h
    -- what the rest of the loop finds, when the threshold is not reached behind `entry` alone
    have hlater (hloop : resumeBelowLoop threshold (rest.map (·.bytes)).sum rest = some t)
        (hnone : ∀ c, entry.recordedAt ≤ c → (∀ a ∈ rest, c < a.recordedAt) →
          threshold ≤ (rest.map (·.bytes)).sum) :
        ∃ e ∈ entry :: rest, checkedAddSigned e.recordedAt windowDuration = some t ∧
          massAfter LedgerEntry.recordedAt LedgerEntry.bytes e.recordedAt (entry :: rest) <
            threshold ∧
          ∀ c < e.recordedAt, (∃ a ∈ entry :: rest, a.recordedAt ≤ c) →
            threshold ≤ massAfter LedgerEntry.recordedAt LedgerEntry.bytes c (entry :: rest) := by
      obtain ⟨e, he, ht, hbelow, hbefore⟩ := resumeBelowLoop_first hrest hloop
      refine ⟨e, List.mem_cons_of_mem _ he, ht, ?_, fun c hc hsome => ?_⟩
      · rwa [massAfter_skip (hfirst e he)]
      · have hentry : entry.recordedAt ≤ c := by
          obtain ⟨a, ha, hac⟩ := hsome
          rcases List.mem_cons.1 ha with rfl | ha
          · exact hac
          · exact (hfirst a ha).trans hac
        rw [massAfter_skip hentry]
        by_cases hexpired : ∃ a ∈ rest, a.recordedAt ≤ c
        · exact hbefore c hc hexpired
        · have hall : ∀ a ∈ rest, c < a.recordedAt := fun a ha =>
            not_le.1 fun hle => hexpired ⟨a, ha, hle⟩
          rw [massAfter_all hall]
          exact hnone c hentry hall
    split at h
    · rename_i hsame
      obtain ⟨head, hhead, heq⟩ := Option.map_eq_some_iff.1 hsame
      refine hlater h fun c hentry hall => ?_
      have hlt := hall head (List.mem_of_head? hhead)
      rw [heq] at hlt
      exact absurd hentry (not_le.2 hlt)
    · split at h
      · rename_i hbelow
        refine ⟨entry, List.mem_cons_self, h, ?_, fun c hc hsome => ?_⟩
        · rw [massAfter_skip le_rfl]
          exact massAfter_le_sum.trans_lt hbelow
        · obtain ⟨a, ha, hac⟩ := hsome
          rcases List.mem_cons.1 ha with rfl | ha
          · exact absurd hac (not_le.2 hc)
          · exact absurd hac (not_le.2 (hc.trans_le (hfirst a ha)))
      · rename_i hreached
        exact hlater h fun _ _ _ => Nat.not_lt.1 hreached

/-- The first charge whose expiry takes its source below a threshold. -/
structure FirstBelow (l : StoredRemoteBandwidthLedger) (hostId : String) (nodeId : Option NodeId)
    (threshold : Nat) (e : LedgerEntry) : Prop where
  mem : e ∈ l.sourceEntries hostId nodeId
  below : usedAfter l hostId nodeId e.recordedAt < threshold
  first : ∀ e' ∈ l.sourceEntries hostId nodeId, e'.recordedAt < e.recordedAt →
    threshold ≤ usedAfter l hostId nodeId e'.recordedAt

theorem FirstBelow.unique {l : StoredRemoteBandwidthLedger} {hostId : String}
    {nodeId : Option NodeId} {threshold : Nat} {e e' : LedgerEntry}
    (h : FirstBelow l hostId nodeId threshold e) (h' : FirstBelow l hostId nodeId threshold e') :
    e.recordedAt = e'.recordedAt := by
  rcases lt_trichotomy e.recordedAt e'.recordedAt with hlt | heq | hlt
  · exact absurd h.below (Nat.not_lt.2 (h'.first e h.mem hlt))
  · exact heq
  · exact absurd h'.below (Nat.not_lt.2 (h.first e' h'.mem hlt))

/-- **The announced instant** is the expiry of the first charge behind which the source is below the
threshold; until then, once a charge has expired, it is not. -/
theorem resumeBelow_first {l : StoredRemoteBandwidthLedger} {hostId : String}
    {nodeId : Option NodeId} {threshold : Nat} {t : DateTime} (hl : WellFormed l)
    (h : l.resumeBelow hostId nodeId threshold = some t) :
    ∃ e, FirstBelow l hostId nodeId threshold e ∧
      checkedAddSigned e.recordedAt windowDuration = some t ∧
      ∀ c < e.recordedAt, (∃ a ∈ l.sourceEntries hostId nodeId, a.recordedAt ≤ c) →
        threshold ≤ usedAfter l hostId nodeId c := by
  unfold resumeBelow at h
  rw [rollingBytes_source hl] at h
  have hperm : ((l.sourceEntries hostId nodeId).insertionSort
      fun a b => a.recordedAt ≤ b.recordedAt).Perm (l.sourceEntries hostId nodeId) :=
    List.perm_insertionSort _ _
  rw [← (hperm.map _).sum_eq] at h
  have hmass (c : DateTime) : massAfter LedgerEntry.recordedAt LedgerEntry.bytes c
      ((l.sourceEntries hostId nodeId).insertionSort fun a b => a.recordedAt ≤ b.recordedAt) =
      usedAfter l hostId nodeId c := massAfter_perm hperm
  obtain ⟨e, he, ht, hbelow, hbefore⟩ :=
    resumeBelowLoop_first (List.pairwise_insertionSort _ _) h
  simp only [hmass] at hbelow hbefore
  have hbefore' : ∀ c < e.recordedAt, (∃ a ∈ l.sourceEntries hostId nodeId, a.recordedAt ≤ c) →
      threshold ≤ usedAfter l hostId nodeId c := by
    rintro c hc ⟨a, ha, hac⟩
    exact hbefore c hc ⟨a, hperm.mem_iff.2 ha, hac⟩
  refine ⟨e, ⟨hperm.mem_iff.1 he, hbelow, fun e' he' hlt => ?_⟩, ht, hbefore'⟩
  exact hbefore' _ hlt ⟨e', he', le_rfl⟩

/-! ## Room for an attempt -/

/-- The limit of the rolling bytes that a kind of attempt keeps to. -/
def limitBytes (kind : RemoteBandwidthTransferKind) : Nat :=
  if kind = .automaticBulk then remoteBandwidthSoftLimitBytes else remoteBandwidthHardLimitBytes

/-- The threshold that the announced instant of a pause is computed from. -/
def pauseThreshold (kind : RemoteBandwidthTransferKind) (rolling : Nat) : Nat :=
  if kind = .automaticBulk ∧ rolling < remoteBandwidthHardLimitBytes
  then remoteBandwidthSoftLimitBytes else remoteBandwidthHardLimitBytes

theorem soft_le_hard : remoteBandwidthSoftLimitBytes ≤ remoteBandwidthHardLimitBytes := by decide

theorem limit_le_threshold (kind : RemoteBandwidthTransferKind) (rolling : Nat) :
    limitBytes kind ≤ pauseThreshold kind rolling := by
  have hle := soft_le_hard
  unfold limitBytes pauseThreshold
  split <;> split <;> simp_all

theorem minimum_le_granted {kind : RemoteBandwidthTransferKind} {requested minimum rolling : Nat}
    (hkind : overrideHard kind = false) (hle : minimum ≤ requested) (hpos : 0 < minimum) :
    minimum ≤ grantedBytes kind requested rolling ↔ rolling + minimum ≤ limitBytes kind := by
  have hlimits := soft_le_hard
  unfold grantedBytes limitBytes
  simp only [hkind, Bool.false_eq_true, if_false]
  split <;> omega

section
variable {fits : FileBound} {l l' : StoredRemoteBandwidthLedger} {hostId : String}
  {nodeId : Option NodeId} {now : DateTime} {kind : RemoteBandwidthTransferKind}
  {bytes : ReservationByteRequest} {random : List String}

theorem checkByteRequest_minimum (h : checkByteRequest kind bytes = .ok ()) :
    0 < bytes.minimumGrantBytes ∧ bytes.minimumGrantBytes ≤ bytes.requestedTotalBytes := by
  obtain ⟨_, hrange, -⟩ := bind_ok h
  have hrange := ensure_ok.1 hrange
  omega

/-- **A pause at a limit**: the charges leave no room for the minimum grant, and the instant comes
from the threshold of the pause. -/
theorem admitAttempt_limitReached {pause : RemoteBandwidthBudgetPause}
    (hbytes : checkByteRequest kind bytes = .ok ())
    (h : admitAttempt l hostId nodeId now kind bytes random = .ok (l', .paused pause))
    (hreason : pause.reason = .limitReached) :
    l' = l ∧ overrideHard kind = false ∧
      limitBytes kind < (l.usage hostId nodeId).rollingBytes + bytes.minimumGrantBytes ∧
      pause.resumeAt = l.resumeBelow hostId nodeId
        (pauseThreshold kind (l.usage hostId nodeId).rollingBytes) := by
  obtain ⟨hpos, hle⟩ := checkByteRequest_minimum hbytes
  have hlimits := soft_le_hard
  unfold admitAttempt at h
  simp only at h
  split at h
  · rename_i hhard
    cases h
    refine ⟨rfl, hhard.1, ?_, ?_⟩
    · unfold limitBytes
      split <;> omega
    · rw [pauseThreshold, if_neg fun hbulk => Nat.not_le.2 hbulk.2 hhard.2]
  · rename_i hhard
    split at h
    · rename_i hsoft
      cases h
      obtain ⟨rfl, hsoft⟩ := hsoft
      have hbelow : (l.usage hostId nodeId).rollingBytes < remoteBandwidthHardLimitBytes :=
        Nat.lt_of_not_le fun hle => hhard ⟨rfl, hle⟩
      refine ⟨rfl, rfl, ?_, ?_⟩
      · rw [limitBytes, if_pos rfl]
        omega
      · rw [pauseThreshold, if_pos ⟨rfl, hbelow⟩]
    · rename_i hsoft
      split at h
      · cases h
        cases hreason
      · split at h
        · rename_i hgranted
          have hkind : overrideHard kind = false := by
            by_contra hoverride
            rw [Bool.not_eq_false] at hoverride
            have hall : grantedBytes kind bytes.requestedTotalBytes
                (l.usage hostId nodeId).rollingBytes = bytes.requestedTotalBytes := by
              unfold grantedBytes
              cases kind <;> simp_all [overrideHard]
            omega
          have hroom : ¬ (l.usage hostId nodeId).rollingBytes + bytes.minimumGrantBytes ≤
              limitBytes kind := fun hroom =>
            Nat.not_le.2 hgranted ((minimum_le_granted hkind hle hpos).2 hroom)
          split at h
          next hbulk =>
            cases h
            subst hbulk
            have hbelow : (l.usage hostId nodeId).rollingBytes < remoteBandwidthSoftLimitBytes :=
              Nat.lt_of_not_le fun hle => hsoft ⟨rfl, hle⟩
            refine ⟨rfl, hkind, Nat.not_le.1 hroom, ?_⟩
            rw [pauseThreshold, if_pos ⟨rfl, hbelow.trans_le hlimits⟩]
          next hbulk =>
            cases h
            refine ⟨rfl, hkind, Nat.not_le.1 hroom, ?_⟩
            rw [pauseThreshold, if_neg fun h => hbulk h.1]
        · obtain ⟨id, -, h⟩ := bind_ok h
          cases h

/-- **An attempt with room** is granted. -/
theorem admitAttempt_grants (now : DateTime) (hbytes : checkByteRequest kind bytes = .ok ())
    (hkind : overrideHard kind = false)
    (hroom : (l.usage hostId nodeId).rollingBytes + bytes.minimumGrantBytes ≤ limitBytes kind)
    (hentries : l.entries.length < maxLedgerEntries)
    (hsource : l.sourceEntryCount hostId nodeId < maxEntriesPerSource)
    (hid : ∃ id, allocateEntryId random l.entries = .ok id) :
    ∃ next reservation,
      admitAttempt l hostId nodeId now kind bytes random = .ok (next, .granted reservation) := by
  obtain ⟨hpos, hle⟩ := checkByteRequest_minimum hbytes
  obtain ⟨id, hid⟩ := hid
  have hlimits := soft_le_hard
  have hhard : ¬ (overrideHard kind = false ∧
      remoteBandwidthHardLimitBytes ≤ (l.usage hostId nodeId).rollingBytes) := by
    unfold limitBytes at hroom
    split at hroom <;> omega
  have hsoft : ¬ (kind = .automaticBulk ∧
      remoteBandwidthSoftLimitBytes ≤ (l.usage hostId nodeId).rollingBytes) := by
    rintro ⟨rfl, hreached⟩
    rw [limitBytes, if_pos rfl] at hroom
    omega
  have hcapacity : ¬ (decide (maxLedgerEntries ≤ l.entries.length) ||
      decide (maxEntriesPerSource ≤ l.sourceEntryCount hostId nodeId)) = true := by
    simp only [Bool.or_eq_true, decide_eq_true_eq]
    omega
  have hgranted : ¬ grantedBytes kind bytes.requestedTotalBytes
      (l.usage hostId nodeId).rollingBytes < bytes.minimumGrantBytes :=
    Nat.not_lt.2 ((minimum_le_granted hkind hle hpos).2 hroom)
  unfold admitAttempt
  simp only [if_neg hhard, if_neg hsoft, if_neg hcapacity, if_neg hgranted, hid, ok_bind]
  exact ⟨_, _, rfl⟩

end

/-! ## Repeating a request -/

/-- A request is granted at an instant. -/
def Admitted (fits : FileBound) (l : StoredRemoteBandwidthLedger) (hostId : String)
    (nodeId : Option NodeId) (now : DateTime) (kind : RemoteBandwidthTransferKind)
    (bytes : ReservationByteRequest) (random : List (Fin (2 ^ 128))) : Prop :=
  ∃ next reservation, beginAttemptInner fits l hostId nodeId now kind bytes
    (random.map entryIdText) = .ok (next, .granted reservation)

section
variable {fits : FileBound} {l l' : StoredRemoteBandwidthLedger} {hostId : String}
  {nodeId : Option NodeId} {now t : DateTime} {kind : RemoteBandwidthTransferKind}
  {bytes : ReservationByteRequest} {random : List (Fin (2 ^ 128))}
  {admission : RemoteBandwidthAdmission}

theorem mutate_valid {α : Type} {r : α}
    {operation : StoredRemoteBandwidthLedger → Except String (StoredRemoteBandwidthLedger × α)}
    (h : mutate fits l operation = .ok (l', r)) :
    l.validate = .ok () ∧ operation l = .ok (l', r) ∧ l'.validate = .ok () := by
  have hop := mutate_ok h
  obtain ⟨_, hl, h⟩ := bind_ok h
  obtain ⟨⟨next, result⟩, -, h⟩ := bind_ok h
  obtain ⟨_, hnext, h⟩ := bind_ok h
  obtain ⟨_, -, h⟩ := bind_ok h
  cases h
  exact ⟨hl, hop, hnext⟩

theorem beginAttemptInner_steps
    (h : beginAttemptInner fits l hostId nodeId now kind bytes (random.map entryIdText) =
      .ok (l', admission)) :
    validateHostId hostId = .ok () ∧ checkByteRequest kind bytes = .ok () ∧ WellFormed l ∧
      WellFormed l' ∧
      ((∃ pause, admission = .paused pause ∧ pause.reason = .clockAnomaly) ∨
        l.clockAnomalyAt now = none ∧ ∃ l₂, windowed l now = .ok l₂ ∧
          admitAttempt l₂ hostId nodeId now kind bytes (random.map entryIdText) =
            .ok (l', admission)) := by
  obtain ⟨_, hhost, h⟩ := bind_ok h
  obtain ⟨_, hbytes, h⟩ := bind_ok h
  obtain ⟨hvalid, h, hnext⟩ := mutate_valid h
  refine ⟨hhost, hbytes, (validate_iff l).1 hvalid, (validate_iff l').1 hnext, ?_⟩
  split at h
  · cases h
    exact .inl ⟨_, rfl, rfl⟩
  · rename_i hclock
    obtain ⟨l₁, h₁, h⟩ := bind_ok h
    obtain ⟨l₂, h₂, h⟩ := bind_ok h
    exact .inr ⟨hclock, l₂, by rw [windowed, h₁, ok_bind, h₂], h⟩

/-- **What a granted request says**: the charges that have not expired leave room for the minimum
grant, and the expiry of the new charge is representable. -/
theorem admitted_room (hkind : overrideHard kind = false)
    (h : Admitted fits l hostId nodeId t kind bytes random) :
    (∀ observed, l.lastObservedAt = some observed → observed ≤ t) ∧
      usedAfter l hostId nodeId (t - windowDuration) + bytes.minimumGrantBytes ≤ limitBytes kind ∧
      ExpiryRepresentable t := by
  obtain ⟨next, reservation, h⟩ := h
  obtain ⟨-, hbytes, hl, hnext, ⟨pause, hpause, -⟩ | ⟨hclock, l₂, h₂, h⟩⟩ :=
    beginAttemptInner_steps h
  · cases hpause
  obtain ⟨hpos, hle⟩ := checkByteRequest_minimum hbytes
  rcases admitAttempt_ok h with ⟨-, pause, hpause⟩ | ⟨r, hr, -, rfl, -, -, rfl, hgrant, -, -, -, -,
    hmin, -⟩
  · cases hpause
  refine ⟨le_of_no_anomaly hclock, ?_, ?_⟩
  · rw [hgrant] at hmin
    rw [← rollingBytes_windowed hl h₂]
    exact (minimum_le_granted hkind hle hpos).1 hmin
  · have hmem : r.entry ∈ ({ l₂ with entries := l₂.entries ++ [r.entry] } :
        StoredRemoteBandwidthLedger).sortEntries.entries :=
      (perm_sortEntries _).mem_iff.2 (by simp)
    exact ((LedgerEntry.validate_iff _).1 (hnext.entriesOk.valid _ hmem)).2.2.2

theorem merge_subperm (h : l.mergeCommittedMinuteBuckets = .ok l') :
    (l'.entries.map fun e => (e.id, e.storageKey)).Subperm
      (l.entries.map fun e => (e.id, e.storageKey)) := by
  obtain ⟨c, hfold, h⟩ := bind_ok h
  cases h
  have hsub := (compactEntries_keep (fun _ => True) (fun _ _ _ _ _ => trivial)
    (fun _ _ => trivial) (fun _ _ => trivial) hfold).2
  rw [List.nil_append] at hsub
  have hbefore := (perm_sortEntries l).map fun e => (e.id, e.storageKey)
  have hafter := (perm_sortEntries { l.sortEntries with entries := c.compacted }).map
    fun e => (e.id, e.storageKey)
  exact hafter.subperm.trans (hsub.subperm.trans hbefore.subperm)

theorem windowed_room (hl : WellFormed l) (h : windowed l t = .ok l') {e : LedgerEntry}
    (he : e ∈ l.sourceEntries hostId nodeId) (hexpired : e.recordedAt ≤ t - windowDuration) :
    l'.entries.length < maxLedgerEntries ∧ l'.sourceEntryCount hostId nodeId < maxEntriesPerSource ∧
      ∀ id ∈ l'.entries.map (·.id), id ∈ l.entries.map (·.id) := by
  obtain ⟨l₁, h₁, h₂⟩ := bind_ok h
  obtain ⟨-, -, hentries⟩ := advance_ok h₁
  have hmerged := merge_subperm h₂
  have hmem := List.mem_of_mem_filter he
  have hdropped : e ∉ l₁.entries := by
    rw [hentries, List.mem_filter]
    rintro ⟨-, hlate⟩
    exact absurd hexpired (not_le.2 (of_decide_eq_true hlate))
  have hsub : l₁.entries.Sublist l.entries := hentries ▸ List.filter_sublist
  have hids := hmerged.subset
  refine ⟨?_, ?_, fun id hid => ?_⟩
  · have hlen := hmerged.length_le
    rw [List.length_map, List.length_map] at hlen
    have hlt : l₁.entries.length < l.entries.length := by
      refine lt_of_le_of_ne hsub.length_le fun heq => hdropped ?_
      rw [hsub.eq_of_length heq]
      exact hmem
    have hbound := hl.bounded
    omega
  · obtain ⟨part, hpart, hsublist⟩ := hmerged
    have hkeys : ((l'.entries.map fun e => (e.id, e.storageKey)).map Prod.snd).count
        (sourceStorageKey hostId nodeId) ≤
        ((l₁.entries.map fun e => (e.id, e.storageKey)).map Prod.snd).count
          (sourceStorageKey hostId nodeId) := by
      rw [← (hpart.map Prod.snd).count_eq]
      exact (hsublist.map Prod.snd).count_le _
    rw [List.map_map, List.map_map] at hkeys
    have hcount (ledger : StoredRemoteBandwidthLedger) :
        (ledger.entries.map (Prod.snd ∘ fun e => (e.id, e.storageKey))).count
          (sourceStorageKey hostId nodeId) = ledger.sourceEntryCount hostId nodeId :=
      count_storageKey ledger hostId nodeId
    rw [hcount, hcount] at hkeys
    have hsource := hl.entriesOk.sources (sourceStorageKey hostId nodeId)
    rw [count_storageKey] at hsource
    have hlt : l₁.sourceEntryCount hostId nodeId < l.sourceEntryCount hostId nodeId := by
      have hfilter : (l₁.sourceEntries hostId nodeId).Sublist (l.sourceEntries hostId nodeId) :=
        hsub.filter _
      refine lt_of_le_of_ne hfilter.length_le fun heq => hdropped ?_
      have hsame := hfilter.eq_of_length heq
      rw [← hsame] at he
      exact List.mem_of_mem_filter he
    omega
  · obtain ⟨x, hx, rfl⟩ := List.mem_map.1 hid
    have hpair := hids (List.mem_map.2 ⟨x, hx, rfl⟩)
    obtain ⟨y, hy, heq⟩ := List.mem_map.1 hpair
    exact List.mem_map.2 ⟨y, hsub.subset hy, congrArg Prod.fst heq⟩

theorem allocateEntryId_mono {texts : List String} {entries entries' : List LedgerEntry}
    (hsub : ∀ id ∈ entries'.map (·.id), id ∈ entries.map (·.id))
    (h : ∃ id, allocateEntryId texts entries = .ok id) :
    ∃ id, allocateEntryId texts entries' = .ok id := by
  obtain ⟨id, h⟩ := h
  have hfind := okOr_ok.1 h
  have hmem := List.mem_of_find?_eq_some hfind
  have hfree := List.find?_some hfind
  simp only [Bool.and_eq_true, Bool.not_eq_true', List.any_eq_false, beq_iff_eq] at hfree
  have hsome : ((texts.take entryIdAttempts).find? fun id =>
      !id.toList.all (· == '0') && !entries'.any fun entry => entry.id == id).isSome = true := by
    rw [List.find?_isSome]
    refine ⟨id, hmem, ?_⟩
    simp only [Bool.and_eq_true, Bool.not_eq_true', List.any_eq_false, beq_iff_eq]
    refine ⟨hfree.1, fun e he heq => ?_⟩
    obtain ⟨x, hx, hxid⟩ := List.mem_map.1 (hsub id (List.mem_map.2 ⟨e, he, heq⟩))
    exact hfree.2 x hx hxid
  obtain ⟨id', hid'⟩ := Option.isSome_iff_exists.1 hsome
  exact ⟨id', okOr_ok.2 hid'⟩

theorem clockAnomalyAt_none (hl : WellFormed l) {observed : DateTime}
    (hobs : l.lastObservedAt = some observed) (hle : observed ≤ t) : l.clockAnomalyAt t = none := by
  unfold clockAnomalyAt
  rw [List.max?_eq_none_iff, List.filter_eq_nil_iff]
  intro x hx
  rw [decide_eq_true_eq, not_lt]
  rcases List.mem_append.1 hx with hx | hx
  · rw [hobs] at hx
    rw [List.mem_singleton.1 hx]
    exact hle
  · obtain ⟨e, he, rfl⟩ := List.mem_map.1 hx
    exact (hl.observedAll observed hobs e he).trans hle

/-- **A request with room** is granted, once a charge of its source has expired. -/
theorem admitted_of_room (hfits : ∀ ledger, ledger.validate = .ok () → fits ledger = true)
    (hl : WellFormed l) (hhost : validateHostId hostId = .ok ())
    (hbytes : checkByteRequest kind bytes = .ok ()) (hkind : overrideHard kind = false)
    {observed : DateTime} (hobs : l.lastObservedAt = some observed) (hle : observed ≤ t)
    {e : LedgerEntry} (he : e ∈ l.sourceEntries hostId nodeId)
    (hexpired : e.recordedAt ≤ t - windowDuration)
    (hcutoff : minUtc ≤ t - windowDuration ∧ t - windowDuration ≤ maxUtc)
    (hroom : usedAfter l hostId nodeId (t - windowDuration) + bytes.minimumGrantBytes ≤
      limitBytes kind)
    (hexpiry : ExpiryRepresentable t)
    (hid : ∃ id, allocateEntryId (random.map entryIdText) l.entries = .ok id) :
    Admitted fits l hostId nodeId t kind bytes random := by
  have hclock := clockAnomalyAt_none hl hobs hle
  obtain ⟨l₁, h₁⟩ : ∃ l₁, l.advanceClockAndPrune t = .ok l₁ := by
    have hsub : checkedSubSigned t windowDuration = some (t - windowDuration) := if_pos hcutoff
    unfold advanceClockAndPrune
    rw [ensure_of hclock, ok_bind, hsub]
    exact ⟨_, rfl⟩
  have hl₁ := wellFormed_advance hl h₁
  obtain ⟨l₂, h₂, -⟩ := merge_coarsens hl₁.toSortable
  have hwindowed : windowed l t = .ok l₂ := by rw [windowed, h₁, ok_bind, h₂]
  have hl₂ := wellFormed_windowed hl hwindowed
  obtain ⟨hentries, hsource, hids⟩ := windowed_room hl hwindowed he hexpired
  rw [← rollingBytes_windowed hl hwindowed] at hroom
  obtain ⟨next, reservation, hgrant⟩ := admitAttempt_grants t hbytes hkind hroom hentries hsource
    (allocateEntryId_mono hids hid)
  have hnext := wellFormed_reserve hl₂ (windowed_lastObserved hwindowed) hhost hbytes hexpiry hgrant
  refine ⟨next, reservation, ?_⟩
  unfold beginAttemptInner mutate
  rw [hhost, ok_bind, hbytes, ok_bind, (validate_iff l).2 hl, ok_bind]
  simp only [hclock, h₁, ok_bind, h₂, hgrant, (validate_iff next).2 hnext,
    hfits next ((validate_iff next).2 hnext)]
  rfl

theorem windowed_later (h : windowed l now = .ok l') :
    minUtc ≤ now - windowDuration ∧ ∀ e ∈ l'.entries, now - windowDuration < e.recordedAt := by
  obtain ⟨l₁, h₁, h₂⟩ := bind_ok h
  have hlater : ∀ e ∈ l₁.entries, now - windowDuration < e.recordedAt := by
    intro e he
    rw [(advance_ok h₁).2.2, List.mem_filter] at he
    exact of_decide_eq_true he.2
  refine ⟨?_, fun e he => ?_⟩
  · obtain ⟨_, -, h₁⟩ := bind_ok h₁
    obtain ⟨cutoff, hcut, -⟩ := bind_ok h₁
    have hcut := okOr_ok.1 hcut
    unfold checkedSubSigned checkedAddSigned at hcut
    split at hcut
    · rename_i hrange
      exact hrange.1
    · cases hcut
  · obtain ⟨c, hfold, h₂⟩ := bind_ok h₂
    cases h₂
    refine (compactEntries_keep (fun e => now - windowDuration < e.recordedAt)
      (fun p hp _ _ _ => lt_max_of_lt_left hp) (fun e he => ?_) (by simp) hfold).1 e ?_
    · exact hlater e ((perm_sortEntries l₁).mem_iff.1 he)
    · exact (perm_sortEntries _).mem_iff.1 he

end

/-- The expiry that a pause announces makes room: behind the first charge that takes the source below
the threshold of the pause, the minimum grant fits within the limit of the request. -/
def RoomAtResume (l : StoredRemoteBandwidthLedger) (hostId : String) (nodeId : Option NodeId)
    (kind : RemoteBandwidthTransferKind) (bytes : ReservationByteRequest) : Prop :=
  ∀ e, FirstBelow l hostId nodeId
      (pauseThreshold kind (l.usage hostId nodeId).rollingBytes) e →
    usedAfter l hostId nodeId e.recordedAt + bytes.minimumGrantBytes ≤ limitBytes kind ∧
      ExpiryRepresentable (e.recordedAt + windowDuration)

/-- **When the announced instant is exact.** After a pause at a limit, the request is not granted
before the announced instant. It is granted at that instant exactly if the expiry that the instant
was computed from makes room for it. -/
theorem resume_exact_iff {fits : FileBound} {l l' : StoredRemoteBandwidthLedger} {hostId : String}
    {nodeId : Option NodeId} {now t : DateTime} {kind : RemoteBandwidthTransferKind}
    {bytes : ReservationByteRequest} {random again : List (Fin (2 ^ 128))}
    {pause : RemoteBandwidthBudgetPause}
    (hfits : ∀ ledger, ledger.validate = .ok () → fits ledger = true)
    (hpause : beginAttemptInner fits l hostId nodeId now kind bytes (random.map entryIdText) =
      .ok (l', .paused pause))
    (hreason : pause.reason = .limitReached) (hresume : pause.resumeAt = some t)
    (hid : ∃ id, allocateEntryId (again.map entryIdText) l'.entries = .ok id) :
    ((∀ t' < t, ∀ random', ¬ Admitted fits l' hostId nodeId t' kind bytes random') ∧
        Admitted fits l' hostId nodeId t kind bytes again) ↔
      ∀ l₂, windowed l now = .ok l₂ → RoomAtResume l₂ hostId nodeId kind bytes := by
  obtain ⟨hhost, hbytes, -, hl', ⟨_, hsame, hclock⟩ | ⟨-, l₂, h₂, hadmit⟩⟩ :=
    beginAttemptInner_steps hpause
  · cases hsame
    cases hreason.symm.trans hclock
  obtain ⟨rfl, hkind, hfull, hbelow⟩ := admitAttempt_limitReached hbytes hadmit hreason
  have hpos := (checkByteRequest_minimum hbytes).1
  have hobserved := windowed_lastObserved h₂
  obtain ⟨hcutoff, hlater⟩ := windowed_later h₂
  obtain ⟨e, hfirst, hexpiry, hbefore⟩ := resumeBelow_first hl' (hbelow.symm.trans hresume)
  obtain ⟨hrange, rfl⟩ := checkedAddSigned_eq_some hexpiry
  have hcancel : e.recordedAt + windowDuration - windowDuration = e.recordedAt :=
    Int.add_sub_cancel _ _
  have hearly : ∀ t' < e.recordedAt + windowDuration, ∀ random',
      ¬ Admitted fits l' hostId nodeId t' kind bytes random' := by
    intro t' ht' random' hadmitted
    obtain ⟨-, hroom, -⟩ := admitted_room hkind hadmitted
    by_cases hexpired : ∃ a ∈ l'.sourceEntries hostId nodeId, a.recordedAt ≤ t' - windowDuration
    · have hthreshold := hbefore _ (Int.sub_right_lt_of_lt_add ht') hexpired
      have hlimit := limit_le_threshold kind (l'.usage hostId nodeId).rollingBytes
      omega
    · have hall : ∀ a ∈ l'.sourceEntries hostId nodeId, t' - windowDuration < a.recordedAt :=
        fun a ha => not_le.1 fun hle => hexpired ⟨a, ha, hle⟩
      rw [usedAfter, massAfter_all hall, ← rollingBytes_source hl'] at hroom
      exact absurd hfull (Nat.not_lt.2 hroom)
  constructor
  · rintro ⟨-, hadmitted⟩ l₂ hl₂ e' hfirst'
    obtain rfl := Except.ok.inj (h₂.symm.trans hl₂)
    obtain ⟨-, hroom, hrepresentable⟩ := admitted_room hkind hadmitted
    rw [hcancel] at hroom
    rw [hfirst'.unique hfirst]
    exact ⟨hroom, hrepresentable⟩
  · intro hroom
    obtain ⟨hroom, hrepresentable⟩ := hroom l' h₂ e hfirst
    have hmem := hlater e (List.mem_of_mem_filter hfirst.mem)
    refine ⟨hearly, admitted_of_room hfits hl' hhost hbytes hkind hobserved
      (Int.le_add_of_sub_right_le hmem.le) hfirst.mem hcancel.ge ?_ ?_ hrepresentable hid⟩
    · rw [hcancel]
      refine ⟨hcutoff.trans hmem.le, le_trans ?_ hrange.2⟩
      exact Int.le_add_of_nonneg_right windowDuration_nonneg
    · rwa [hcancel]

namespace Sample

/-- 100 MiB and, a minute later, as much as the soft limit: together the hard limit. -/
def full : StoredRemoteBandwidthLedger := ⟨1, some (now + minutes 1), [
  bin "aaaaaaaaaaaaaaaaaaaaaaaaaaaaaaaa" now 100,
  bin "bbbbbbbbbbbbbbbbbbbbbbbbbbbbbbbb" (now + minutes 1) 150]⟩

/-- As much as the soft limit and, a minute later, 20 MiB. -/
def half : StoredRemoteBandwidthLedger := ⟨1, some (now + minutes 1), [
  bin "aaaaaaaaaaaaaaaaaaaaaaaaaaaaaaaa" now 150,
  bin "bbbbbbbbbbbbbbbbbbbbbbbbbbbbbbbb" (now + minutes 1) 20]⟩

end Sample

/-- A bulk attempt at the hard limit is told to come back when the first entry expires. The rest is
as much as the soft limit, and the attempt is paused again. -/
theorem resume_too_early :
    (beginAttempt Sample.anyFile Sample.full "host-1" none (Sample.now + minutes 1) .automaticBulk
        1024 [Sample.firstId]).map Prod.snd = .ok (.paused
      ⟨⟨"host-1", none, 250 * 1024 * 1024, 0, some (Sample.now + days 1)⟩, .hard, .limitReached,
        remoteBandwidthHardLimitBytes, some (Sample.now + days 1)⟩) ∧
    (beginAttempt Sample.anyFile Sample.full "host-1" none (Sample.now + minutes 1) .automaticBulk
        1024 [Sample.firstId]).map Prod.fst = .ok Sample.full ∧
    (beginAttempt Sample.anyFile Sample.full "host-1" none (Sample.now + days 1) .automaticBulk
        1024 [Sample.firstId]).map Prod.snd = .ok (.paused
      ⟨⟨"host-1", none, 150 * 1024 * 1024, 0, some (Sample.now + minutes 1 + days 1)⟩, .soft,
        .limitReached, remoteBandwidthSoftLimitBytes, some (Sample.now + minutes 1 + days 1)⟩) := by
  refine ⟨?_, ?_, ?_⟩ <;> decide +kernel

theorem resume_exact_sample : Admitted Sample.anyFile Sample.half "host-1" none
    (Sample.now + windowDuration) .automaticBulk ⟨1024, 0, 1⟩ [1] := by
  have hpause : beginAttemptInner Sample.anyFile Sample.half "host-1" none
      (Sample.now + minutes 1) .automaticBulk ⟨1024, 0, 1⟩ (List.map entryIdText [1]) =
      .ok (Sample.half, .paused
        ⟨⟨"host-1", none, 170 * 1024 * 1024, 0, some (Sample.now + windowDuration)⟩, .soft,
          .limitReached, remoteBandwidthSoftLimitBytes, some (Sample.now + windowDuration)⟩) := by
    decide +kernel
  have hid : ∃ id, allocateEntryId (List.map entryIdText [1]) Sample.half.entries = .ok id :=
    ⟨"00000000000000000000000000000001", by decide +kernel⟩
  refine ((resume_exact_iff (fun _ _ => rfl) hpause rfl rfl hid).2 fun l₂ h₂ e he => ?_).2
  have hwindowed : windowed Sample.half (Sample.now + minutes 1) = .ok Sample.half := by
    decide +kernel
  obtain rfl := Except.ok.inj (hwindowed.symm.trans h₂)
  have hmem : ∀ e ∈ Sample.half.sourceEntries "host-1" none,
      usedAfter Sample.half "host-1" none e.recordedAt + 1 ≤ limitBytes .automaticBulk ∧
        minUtc ≤ e.recordedAt + windowDuration + windowDuration ∧
        e.recordedAt + windowDuration + windowDuration ≤ maxUtc := by
    decide +kernel
  exact hmem e he.mem

end Bandwidth
