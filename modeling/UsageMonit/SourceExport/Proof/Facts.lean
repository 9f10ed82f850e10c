import UsageMonit.SourceExport.Proof.SameEvent

/-!
# The facts of a thread in any order of its calls

The inventory of a materialization is the map of the facts by identity under `mergeHashed`
(`Tracks`), with the running total of their sizes. So the fact of an identity is that of a call with
its least hash, marked if there is another hash (`mergeAll_winner`); of several such calls it is the
first one (`mergeAll_first`). `session_facts_order_independent` says when that does not matter.
-/

namespace SourceExport

open Fallible Time Usage History Pricing KeyedMerge

/-! ## The winner of an identity -/

variable {state' : MaterializeState} {id : String} {state : MaterializeState}
  {calls calls' : List UsageCall}

abbrev HashedFact := Nat × RemoteUsageEventFact

variable {ms : List HashedFact}

def hashedId (m : HashedFact) : String := m.2.eventId

/-- A fact enters under an identity that has one. -/
def mergeHashed (m n : HashedFact) : HashedFact :=
  if m.1 = n.1 then m
  else if n.1 < m.1 then (n.1, markConflict n.2) else (m.1, markConflict m.2)

@[simp] theorem markConflict_eventId (fact : RemoteUsageEventFact) :
    (markConflict fact).eventId = fact.eventId := rfl

@[simp] theorem markConflict_exact (fact : RemoteUsageEventFact) :
    (markConflict fact).exactEventIdentity = false := rfl

theorem hashedId_mergeHashed (m n : HashedFact) (h : hashedId m = hashedId n) :
    hashedId (mergeHashed m n) = hashedId m := by
  unfold mergeHashed
  split
  · rfl
  · split
    · exact h.symm
    · rfl

/-- The fact of the winner among some facts of its identity. -/
def wonFact (w : HashedFact) (ms : List HashedFact) : RemoteUsageEventFact :=
  if ∀ m ∈ ms, m.1 = w.1 then w.2 else markConflict w.2

theorem mergeHashed_won {w a : HashedFact} (hw : Exported w.2) (hle : w.1 ≤ a.1) :
    mergeHashed (w.1, wonFact w ms) a = (w.1, wonFact w (ms ++ [a])) := by
  unfold mergeHashed
  rcases hle.eq_or_lt with heq | hlt
  · have hall : (∀ m ∈ ms ++ [a], m.1 = w.1) ↔ ∀ m ∈ ms, m.1 = w.1 := by
      simp [or_imp, forall_and, heq.symm]
    rw [if_pos heq]
    simp only [wonFact, hall]
  · have hall : ¬ ∀ m ∈ ms ++ [a], m.1 = w.1 := fun h => hlt.ne' (h a (by simp))
    rw [if_neg hlt.ne, if_neg (not_lt.2 hle)]
    simp only [wonFact, if_neg hall]
    split
    · rfl
    · rw [markConflict_twice hw]

/-- **The winner** has the least hash. -/
theorem mergeAll_winner (hexported : ∀ m ∈ ms, Exported m.2) (hne : ms ≠ []) :
    ∃ w ∈ ms, (∀ m ∈ ms, w.1 ≤ m.1) ∧ mergeAll mergeHashed ms = some (w.1, wonFact w ms) := by
  induction ms using List.reverseRecOn with
  | nil => exact absurd rfl hne
  | append_singleton ms a ih =>
    rw [mergeAll_concat]
    rcases eq_or_ne ms [] with rfl | hms
    · exact ⟨a, by simp, by simp, by simp [mergeAll, wonFact]⟩
    · obtain ⟨w, hw, hleast, hall⟩ := ih (fun m hm => hexported m (by simp [hm])) hms
      rw [hall]
      rcases lt_or_ge a.1 w.1 with hlt | hle
      · refine ⟨a, by simp, fun m hm => ?_, ?_⟩
        · rcases List.mem_append.1 hm with hm | hm
          · exact hlt.le.trans (hleast m hm)
          · rw [List.mem_singleton.1 hm]
        · have hother : ¬ ∀ m ∈ ms ++ [a], m.1 = a.1 := fun h => hlt.ne' (h w (by simp [hw]))
          simp only [mergeHashed, if_neg hlt.ne', if_pos hlt, wonFact, if_neg hother]
      · refine ⟨w, by simp [hw], fun m hm => ?_, ?_⟩
        · rcases List.mem_append.1 hm with hm | hm
          · exact hleast m hm
          · rwa [List.mem_singleton.1 hm]
        · exact congrArg some (mergeHashed_won (hexported w (by simp [hw])) hle)

theorem mergeAll_first {a : HashedFact} (ha : Exported a.2) (hleast : ∀ m ∈ ms, a.1 ≤ m.1) :
    mergeAll mergeHashed (a :: ms) = some (a.1, wonFact a ms) := by
  induction ms using List.reverseRecOn with
  | nil => simp [mergeAll, wonFact]
  | append_singleton ms b ih =>
    rw [← List.cons_append, mergeAll_concat, ih fun m hm => hleast m (by simp [hm])]
    simp only [mergeHashed_won ha (hleast b (by simp))]

/-! ## The inventory -/

def Candidate.hashed (candidate : Candidate) : HashedFact :=
  (candidate.semanticHash, candidate.fact)

def MaterializeState.facts (state : MaterializeState) : List RemoteUsageEventFact :=
  state.candidates.map (·.fact)

section
variable {limits : SessionFactMaterializationLimits}
  {serializedFactBytes : RemoteUsageEventFact → Except String Nat}

/-- The inventory is the map of some facts, of the sizes that the total counts. -/
structure Tracks (limits : SessionFactMaterializationLimits)
    (serializedFactBytes : RemoteUsageEventFact → Except String Nat) (state : MaterializeState)
    (ms : List HashedFact) : Prop where
  ordered : Ordered Candidate.eventId state.candidates
  candidates : state.candidates.map Candidate.hashed = collect hashedId mergeHashed ms
  sized : ∀ c ∈ state.candidates, serializedFactBytes c.fact = .ok c.serializedBytes
  total : state.inventorySerializedBytes =
    limits.initialSerializedBytes + (state.candidates.map Candidate.serializedBytes).sum
  bounded : state.inventorySerializedBytes ≤ limits.maximumSerializedBytes

theorem replaceBytes_ok {total existing bytes result : Nat}
    (h : replaceBytes limits total existing bytes = .ok result) :
    result + existing = total + bytes ∧ result ≤ limits.maximumSerializedBytes := by
  unfold replaceBytes at h
  rw [okOr_ok, Option.filter_eq_some_iff] at h
  obtain ⟨hsum, hmax⟩ := h
  split at hsum
  · rw [Option.bind_some] at hsum
    have hadd := (checkedAdd_eq_some hsum).1
    exact ⟨by omega, by simpa using hmax⟩
  · cases hsum

theorem hashed_upsert (c : Candidate) (l : List Candidate) :
    (upsert Candidate.eventId (fun _ candidate => candidate) c l).map Candidate.hashed =
      upsert hashedId (fun _ m => m) c.hashed (l.map Candidate.hashed) := by
  have hmap : upsert hashedId (fun _ m => m) c.hashed (l.map Candidate.hashed) =
      (upsert Candidate.eventId (fun _ candidate => candidate) c l).map Candidate.hashed :=
    upsert_map (fun _ => rfl) (fun _ _ => rfl) c l
  exact hmap.symm

theorem valueAt_hashed (k : String) (l : List Candidate) :
    valueAt hashedId k (l.map Candidate.hashed) = (valueAt Candidate.eventId k l).map
      Candidate.hashed :=
  valueAt_map (fun _ => rfl) k l

theorem Tracks.put {m : HashedFact} (h : Tracks limits serializedFactBytes state ms)
    {winner : Candidate} {total : Nat}
    (hhashed : upsert hashedId (fun _ m => m) winner.hashed (state.candidates.map Candidate.hashed) =
      upsert hashedId mergeHashed m (state.candidates.map Candidate.hashed))
    (hsized : serializedFactBytes winner.fact = .ok winner.serializedBytes)
    (htotal : total = limits.initialSerializedBytes +
      ((upsert Candidate.eventId (fun _ candidate => candidate) winner state.candidates).map
        Candidate.serializedBytes).sum) (hbounded : total ≤ limits.maximumSerializedBytes)
    (missing conflicting : Nat) :
    Tracks limits serializedFactBytes
      { candidates := upsert Candidate.eventId (fun _ candidate => candidate) winner
          state.candidates
        inventorySerializedBytes := total
        missingEventIdentities := missing
        conflictingEventIdentities := conflicting } (ms ++ [m]) where
  ordered := Ordered.upsert (fun _ _ h => h.symm) h.ordered
  candidates := by
    rw [hashed_upsert, hhashed, h.candidates, collect_concat]
  sized := by
    exact upsert_of (P := fun c : Candidate => serializedFactBytes c.fact = .ok c.serializedBytes)
      (fun _ _ _ h => h) hsized h.sized
  total := htotal
  bounded := hbounded

/-- **A fact enters the inventory.** -/
theorem Tracks.admit (h : Tracks limits serializedFactBytes state ms) {hash : Nat}
    {fact : RemoteUsageEventFact}
    (hfits : admitFact limits serializedFactBytes state hash fact = .ok state') :
    Tracks limits serializedFactBytes state' (ms ++ [(hash, fact)]) := by
  unfold admitFact at hfits
  have hordered : Ordered hashedId (state.candidates.map Candidate.hashed) := by
    rw [h.candidates]
    exact Ordered.collect hashedId_mergeHashed ms
  have hvalue := valueAt_hashed fact.eventId state.candidates
  cases hat : valueAt Candidate.eventId fact.eventId state.candidates with
  | some existing =>
    obtain ⟨hmem, hid⟩ := valueAt_key hat
    rw [hat] at hfits hvalue
    have hkey : hashedId (mergeHashed existing.hashed (hash, fact)) = hashedId (hash, fact) :=
      (hashedId_mergeHashed existing.hashed (hash, fact) hid).trans hid
    have hmerge := upsert_of_some hkey hordered hvalue
    dsimp only at hfits
    split at hfits
    · rename_i hsame
      obtain rfl := Except.ok.inj hfits
      refine ⟨h.ordered, ?_, h.sized, h.total, h.bounded⟩
      have hkept : mergeHashed existing.hashed (hash, fact) = existing.hashed := if_pos hsame
      rw [collect_concat, ← h.candidates, hmerge, hkept]
      exact (upsert_self hordered (List.mem_map_of_mem hmem)).symm
    · rename_i hdiffers
      obtain ⟨bytes, hbytes, hfits⟩ := bind_ok hfits
      obtain ⟨_, -, hfits⟩ := bind_ok hfits
      obtain ⟨total, htotal, hfits⟩ := bind_ok hfits
      obtain rfl := Except.ok.inj hfits
      obtain ⟨hsum, hmax⟩ := replaceBytes_ok htotal
      refine h.put (m := (hash, fact)) ?_ hbytes ?_ hmax _ _
      · rw [hmerge]
        congr 1
        unfold mergeHashed Candidate.hashed
        rw [if_neg hdiffers]
        split <;> rfl
      · have hwinner : Candidate.eventId
            ⟨if hash < existing.semanticHash then hash else existing.semanticHash,
              markConflict (if hash < existing.semanticHash then fact else existing.fact),
              bytes⟩ = fact.eventId := by
          unfold Candidate.eventId
          rw [markConflict_eventId]
          split
          · rfl
          · exact hid
        have hreplaced := sum_upsert_of_some Candidate.serializedBytes h.ordered (hwinner ▸ hat)
        have hold := h.total
        dsimp only at hreplaced
        omega
  | none =>
    rw [hat] at hfits hvalue
    obtain ⟨_, -, hfits⟩ := bind_ok hfits
    obtain ⟨bytes, hbytes, hfits⟩ := bind_ok hfits
    obtain ⟨_, -, hfits⟩ := bind_ok hfits
    obtain ⟨total, htotal, hfits⟩ := bind_ok hfits
    obtain rfl := Except.ok.inj hfits
    obtain ⟨hsum, hmax⟩ := replaceBytes_ok htotal
    refine h.put (m := (hash, fact)) ?_ hbytes ?_ hmax _ _
    · exact upsert_of_none hvalue
    · have hnew := sum_upsert_of_none Candidate.serializedBytes
        (a := (⟨hash, fact, bytes⟩ : Candidate)) hat
      have hold := h.total
      dsimp only at hnew
      omega

end

/-! ## A run over the calls -/

section
variable {env : FactEnv} {request : FactRequest} {limits : SessionFactMaterializationLimits}
  {serializedFactBytes : RemoteUsageEventFact → Except String Nat}
  {groups : List (FactGroupKey × LocalProjectUsageGroup)}

/-- The fact of a call with its semantic hash. -/
def IsHashed (env : FactEnv) (request : FactRequest)
    (groups : List (FactGroupKey × LocalProjectUsageGroup)) (call : UsageCall) (m : HashedFact) :
    Prop :=
  m.1 = env.semanticHash call ∧
    sessionFact env request.thread groups request.collectionPartialReasons call = .ok m.2

theorem IsHashed.id_eq {call : UsageCall} {m : HashedFact}
    (h : IsHashed env request groups call m) : hashedId m = (eventIdentity env call).eventId :=
  (sessionFact_identity h.2).1

theorem IsHashed.exported {call : UsageCall} {m : HashedFact}
    (h : IsHashed env request groups call m) : Exported m.2 :=
  sessionFact_exported h.2

theorem materializeCall_tracks (h : Tracks limits serializedFactBytes state ms) {call : UsageCall}
    (hrun : materializeCall env request limits serializedFactBytes groups state call = .ok state') :
    ∃ m, IsHashed env request groups call m ∧
      Tracks limits serializedFactBytes state' (ms ++ [m]) := by
  obtain ⟨fact, hfact, hrun⟩ := bind_ok hrun
  refine ⟨(env.semanticHash call, fact), ⟨rfl, hfact⟩, ?_⟩
  split at hrun
  · have hcounted : Tracks limits serializedFactBytes
        { state with
          missingEventIdentities := saturatingAdd 64 state.missingEventIdentities 1 } ms :=
      ⟨h.ordered, h.candidates, h.sized, h.total, h.bounded⟩
    exact hcounted.admit hrun
  · exact h.admit hrun

theorem foldlM_tracks (h : Tracks limits serializedFactBytes state ms)
    (hrun : calls.foldlM (materializeCall env request limits serializedFactBytes groups) state =
      .ok state') :
    ∃ ns, List.Forall₂ (IsHashed env request groups) calls ns ∧
      Tracks limits serializedFactBytes state' (ms ++ ns) := by
  induction calls generalizing state ms with
  | nil => exact ⟨[], .nil, by rwa [List.append_nil, ← Except.ok.inj hrun]⟩
  | cons call calls ih =>
    rw [List.foldlM_cons] at hrun
    obtain ⟨next, hstep, hrun⟩ := bind_ok hrun
    obtain ⟨m, hm, hnext⟩ := materializeCall_tracks h hstep
    obtain ⟨ns, hns, hlast⟩ := ih hnext hrun
    exact ⟨m :: ns, .cons hm hns, by rwa [List.append_assoc] at hlast⟩

theorem materializeCalls_tracks
    (h : materializeCalls env request limits serializedFactBytes calls = .ok state) :
    request.observation.observedAt = request.observedAt ∧
      ∃ groups ms, factGroups request.thread request.observation.halfHourBuckets = .ok groups ∧
        List.Forall₂ (IsHashed env request groups) (calls.filter request.inWindow) ms ∧
        Tracks limits serializedFactBytes state ms := by
  obtain ⟨_, hlimits, h⟩ := bind_ok h
  obtain ⟨_, htime, h⟩ := bind_ok h
  obtain ⟨groups, hgroups, h⟩ := bind_ok h
  have hinitial : Tracks limits serializedFactBytes
      { inventorySerializedBytes := limits.initialSerializedBytes } [] := by
    refine ⟨.nil, rfl, by simp, by simp, ?_⟩
    have hvalid := ensure_ok.1 hlimits
    exact not_lt.1 fun hlt => hvalid (.inr (.inr (.inr hlt)))
  obtain ⟨ms, hms, htracks⟩ := foldlM_tracks hinitial h
  exact ⟨ensure_ok.1 htime, groups, ms, hgroups, hms, htracks⟩

theorem Tracks.facts_ordered (h : Tracks limits serializedFactBytes state ms) :
    Ordered RemoteUsageEventFact.eventId state.facts :=
  List.pairwise_map.2 h.ordered

theorem Tracks.factAt (h : Tracks limits serializedFactBytes state ms) (id : String) :
    valueAt RemoteUsageEventFact.eventId id state.facts =
      (mergeAll mergeHashed (ms.filter fun m => hashedId m = id)).map (·.2) := by
  have hvalue : valueAt RemoteUsageEventFact.eventId id (state.candidates.map (·.fact)) =
      (valueAt Candidate.eventId id state.candidates).map (·.fact) :=
    valueAt_map (fun _ => rfl) id state.candidates
  have hhashed := valueAt_hashed id state.candidates
  rw [h.candidates, valueAt_collect hashedId_mergeHashed] at hhashed
  rw [MaterializeState.facts, hvalue, hhashed, Option.map_map]
  rfl

/-! ## The fact of an identity -/

def OfIdentity (env : FactEnv) (calls : List UsageCall) (id : String) (call : UsageCall) : Prop :=
  call ∈ calls ∧ (eventIdentity env call).eventId = id

/-- A call with the least hash of its identity. -/
structure Wins (env : FactEnv) (calls : List UsageCall) (id : String) (call : UsageCall) :
    Prop where
  ofIdentity : OfIdentity env calls id call
  least : ∀ other, OfIdentity env calls id other → env.semanticHash call ≤ env.semanticHash other

/-- An identity of one semantic hash. -/
def Unshared (env : FactEnv) (calls : List UsageCall) (id : String) (hash : Nat) : Prop :=
  ∀ other, OfIdentity env calls id other → env.semanticHash other = hash

theorem exists_hashed (h : List.Forall₂ (IsHashed env request groups) calls ms) {call : UsageCall}
    (hcall : call ∈ calls) : ∃ m ∈ ms, IsHashed env request groups call m := by
  induction h with
  | nil => cases hcall
  | cons hm _ ih =>
    rcases List.mem_cons.1 hcall with rfl | hcall
    · exact ⟨_, List.mem_cons_self, hm⟩
    · obtain ⟨m, hmem, hm⟩ := ih hcall
      exact ⟨m, List.mem_cons_of_mem _ hmem, hm⟩

theorem exists_call (h : List.Forall₂ (IsHashed env request groups) calls ms) {m : HashedFact}
    (hm : m ∈ ms) : ∃ call ∈ calls, IsHashed env request groups call m := by
  induction h with
  | nil => cases hm
  | cons hcall _ ih =>
    rcases List.mem_cons.1 hm with rfl | hm
    · exact ⟨_, List.mem_cons_self, hcall⟩
    · obtain ⟨call, hmem, hcall⟩ := ih hm
      exact ⟨call, List.mem_cons_of_mem _ hmem, hcall⟩

section
variable (h : List.Forall₂ (IsHashed env request groups) calls ms)
include h

theorem forall_hashed (P : Nat → Prop) (id : String) :
    (∀ m ∈ ms.filter (fun m => hashedId m = id), P m.1) ↔
      ∀ call, OfIdentity env calls id call → P (env.semanticHash call) := by
  constructor
  · rintro hall call ⟨hcall, hid⟩
    obtain ⟨m, hm, hhashed⟩ := exists_hashed h hcall
    rw [← hhashed.1]
    exact hall m (List.mem_filter.2 ⟨hm, by simpa using hhashed.id_eq.trans hid⟩)
  · intro hall m hm
    obtain ⟨hm, hid⟩ := List.mem_filter.1 hm
    obtain ⟨call, hcall, hhashed⟩ := exists_call h hm
    rw [hhashed.1]
    exact hall call ⟨hcall, hhashed.id_eq.symm.trans (by simpa using hid)⟩

theorem wonFact_eq {hash : Nat} [Decidable (Unshared env calls id hash)] {w : HashedFact}
    (hw : w.1 = hash) :
    wonFact w (ms.filter fun m => hashedId m = id) =
      if Unshared env calls id hash then w.2 else markConflict w.2 := by
  have hiff : (∀ m ∈ ms.filter (fun m => hashedId m = id), m.1 = w.1) ↔
      Unshared env calls id hash := by
    rw [hw]
    exact forall_hashed h (fun n => n = hash) id
  simp only [wonFact, hiff]

variable (ht : Tracks limits serializedFactBytes state ms)
include ht

open Classical in
/-- **The fact of an identity** is that of a call with its least hash. -/
theorem factAt_won (hsome : ∃ call, OfIdentity env calls id call) :
    ∃ call fact, Wins env calls id call ∧
      sessionFact env request.thread groups request.collectionPartialReasons call = .ok fact ∧
      valueAt RemoteUsageEventFact.eventId id state.facts =
        some (if Unshared env calls id (env.semanticHash call) then fact else markConflict fact) := by
  have hne : ms.filter (fun m => hashedId m = id) ≠ [] := by
    obtain ⟨call, hcall, hid⟩ := hsome
    obtain ⟨m, hm, hhashed⟩ := exists_hashed h hcall
    exact List.ne_nil_of_mem (List.mem_filter.2 ⟨hm, by simpa using hhashed.id_eq.trans hid⟩)
  have hexported : ∀ m ∈ ms.filter (fun m => hashedId m = id), Exported m.2 := by
    intro m hm
    obtain ⟨call, -, hhashed⟩ := exists_call h (List.mem_filter.1 hm).1
    exact hhashed.exported
  obtain ⟨w, hw, hleast, hwon⟩ := mergeAll_winner hexported hne
  obtain ⟨hmem, hid⟩ := List.mem_filter.1 hw
  obtain ⟨call, hcall, hhash, hfact⟩ := exists_call h hmem
  refine ⟨call, w.2, ⟨⟨hcall, ?_⟩, ?_⟩, hfact, ?_⟩
  · exact (sessionFact_identity hfact).1.symm.trans (of_decide_eq_true hid)
  · rw [← hhash]
    exact (forall_hashed h (fun n => w.1 ≤ n) id).1 hleast
  · rw [ht.factAt, hwon, ← hhash, Option.map_some]
    exact congrArg some (wonFact_eq h rfl)

theorem factAt_none (hnone : ∀ call, ¬ OfIdentity env calls id call) :
    valueAt RemoteUsageEventFact.eventId id state.facts = none := by
  have hnil : ms.filter (fun m => hashedId m = id) = [] := by
    rw [List.filter_eq_nil_iff]
    intro m hm hid
    obtain ⟨call, hcall, hhashed⟩ := exists_call h hm
    exact hnone call ⟨hcall, hhashed.id_eq.symm.trans (by simpa using hid)⟩
  rw [ht.factAt, hnil]
  rfl

end

end

/-! ## What a materialization returns -/

/-- The facts returned for the calls of a window. -/
structure Described (env : FactEnv) (request : FactRequest) (calls : List UsageCall)
    (facts : List RemoteUsageEventFact) : Prop where
  /-- One fact for an identity. -/
  ordered : Ordered RemoteUsageEventFact.eventId facts
  complete : ∀ call ∈ calls, ∃ fact ∈ facts, fact.eventId = (eventIdentity env call).eventId
  /-- The fact of a call with the least hash, but for its exactness and its reasons. -/
  least : ∃ groups, factGroups request.thread request.observation.halfHourBuckets = .ok groups ∧
    ∀ fact ∈ facts, ∃ call base, Wins env calls fact.eventId call ∧
      sessionFact env request.thread groups request.collectionPartialReasons call = .ok base ∧
      fact = { base with
        exactEventIdentity := fact.exactEventIdentity
        metrics := { base.metrics with partialReasons := fact.metrics.partialReasons } }
  exact : ∀ fact ∈ facts, fact.exactEventIdentity = true ↔
    ∀ call, OfIdentity env calls fact.eventId call →
      (eventIdentity env call).exact = true ∧
        Unshared env calls fact.eventId (env.semanticHash call)

/-- The running total is the initial bytes and the sizes of the facts, within the limit. -/
structure Accounted (limits : SessionFactMaterializationLimits)
    (serializedFactBytes : RemoteUsageEventFact → Except String Nat) (state : MaterializeState) :
    Prop where
  total : ∃ sizes, List.Forall₂ (fun fact size => serializedFactBytes fact = .ok size) state.facts
    sizes ∧ state.inventorySerializedBytes = limits.initialSerializedBytes + sizes.sum
  bounded : state.inventorySerializedBytes ≤ limits.maximumSerializedBytes

theorem Tracks.accounted {limits : SessionFactMaterializationLimits}
    {serializedFactBytes : RemoteUsageEventFact → Except String Nat}
    (h : Tracks limits serializedFactBytes state ms) :
    Accounted limits serializedFactBytes state := by
  refine ⟨⟨state.candidates.map Candidate.serializedBytes, ?_, h.total⟩, h.bounded⟩
  rw [MaterializeState.facts, List.forall₂_map_left_iff, List.forall₂_map_right_iff,
    List.forall₂_same]
  exact h.sized

/-- The calls of one identity with its least hash leave the same on its fact. -/
def IdentitiesAgree (env : FactEnv) (calls : List UsageCall) : Prop :=
  ∀ id a b, Wins env calls id a → Wins env calls id b → eventIdentity env a = eventIdentity env b

section
variable {env : FactEnv} {request : FactRequest} {limits : SessionFactMaterializationLimits}
  {serializedFactBytes : RemoteUsageEventFact → Except String Nat}
  {groups : List (FactGroupKey × LocalProjectUsageGroup)}

theorem OfIdentity.perm (hmem : ∀ call, call ∈ calls ↔ call ∈ calls') {call : UsageCall} :
    OfIdentity env calls id call ↔ OfIdentity env calls' id call := by
  unfold OfIdentity
  rw [hmem]

theorem Wins.hash_eq {a b : UsageCall} (ha : Wins env calls id a) (hb : Wins env calls id b) :
    env.semanticHash a = env.semanticHash b :=
  le_antisymm (ha.least b hb.ofIdentity) (hb.least a ha.ofIdentity)

theorem Wins.of_hash_eq {a b : UsageCall} (ha : Wins env calls id a)
    (hb : OfIdentity env calls id b) (h : env.semanticHash b = env.semanticHash a) :
    Wins env calls id b :=
  ⟨hb, fun other hother => h.le.trans (ha.least other hother)⟩

section
variable (hagree : IdentitiesAgree env calls)
  (h : List.Forall₂ (IsHashed env request groups) calls ms)
  (ht : Tracks limits serializedFactBytes state ms)
include hagree h ht

/-- Where the calls agree, what is returned is as described. -/
theorem Tracks.described
    (hgroups : factGroups request.thread request.observation.halfHourBuckets = .ok groups) :
    Described env request calls state.facts := by
  classical
  have hwon : ∀ fact ∈ state.facts, ∃ call base, Wins env calls fact.eventId call ∧
      sessionFact env request.thread groups request.collectionPartialReasons call = .ok base ∧
      fact = if Unshared env calls fact.eventId (env.semanticHash call) then base
        else markConflict base := by
    intro fact hfact
    have hat := ht.facts_ordered.valueAt_self hfact
    have hsome : ∃ call, OfIdentity env calls fact.eventId call := by
      by_contra hnone
      rw [factAt_none h ht (not_exists.1 hnone)] at hat
      cases hat
    obtain ⟨call, base, hwins, hbase, hvalue⟩ := factAt_won h ht hsome
    exact ⟨call, base, hwins, hbase, Option.some_inj.1 (hat.symm.trans hvalue)⟩
  refine ⟨ht.facts_ordered, fun call hcall => ?_, ⟨groups, hgroups, fun fact hfact => ?_⟩,
    fun fact hfact => ?_⟩
  · obtain ⟨_, _, -, -, hvalue⟩ := factAt_won h ht ⟨call, hcall, rfl⟩
    exact ⟨_, valueAt_key hvalue⟩
  · obtain ⟨call, base, hwins, hbase, heq⟩ := hwon fact hfact
    refine ⟨call, base, hwins, hbase, ?_⟩
    rw [heq]
    split <;> rfl
  · obtain ⟨call, base, hwins, hbase, heq⟩ := hwon fact hfact
    have hexact := (sessionFact_identity hbase).2.1
    constructor
    · intro hmarked
      have hunshared : Unshared env calls fact.eventId (env.semanticHash call) := by
        by_contra hshared
        rw [if_neg hshared] at heq
        rw [heq, markConflict_exact] at hmarked
        cases hmarked
      rw [if_pos hunshared] at heq
      intro other hother
      have hsame := hagree fact.eventId call other hwins
        (hwins.of_hash_eq hother (hunshared other hother))
      rw [hunshared other hother, ← hsame, ← hexact, ← heq]
      exact ⟨hmarked, hunshared⟩
    · intro hall
      obtain ⟨hcall, hunshared⟩ := hall call hwins.ofIdentity
      rw [if_pos hunshared] at heq
      rw [heq, hexact, hcall]

end

theorem facts_same (hagree : IdentitiesAgree env calls)
    (hsha : ∀ a ∈ calls, ∀ b ∈ calls, env.semanticHash a = env.semanticHash b →
      digestEventFields a = digestEventFields b) (hmem : ∀ call, call ∈ calls' ↔ call ∈ calls)
    {ms' : List HashedFact} (h : List.Forall₂ (IsHashed env request groups) calls ms)
    (ht : Tracks limits serializedFactBytes state ms)
    (h' : List.Forall₂ (IsHashed env request groups) calls' ms')
    (ht' : Tracks limits serializedFactBytes state' ms') : state.facts = state'.facts := by
  classical
  refine ht.facts_ordered.eq_of_valueAt ht'.facts_ordered fun id => ?_
  have hof : ∀ call, OfIdentity env calls' id call ↔ OfIdentity env calls id call :=
    fun call => OfIdentity.perm hmem
  by_cases hsome : ∃ call, OfIdentity env calls id call
  · obtain ⟨call, hcall⟩ := hsome
    obtain ⟨a, x, ha, hx, hvalue⟩ := factAt_won h ht ⟨call, hcall⟩
    obtain ⟨b, y, hb, hy, hvalue'⟩ := factAt_won h' ht' ⟨call, (hof call).2 hcall⟩
    have hb' : Wins env calls id b :=
      ⟨(hof b).1 hb.ofIdentity, fun other hother => hb.least other ((hof other).2 hother)⟩
    have hhash := ha.hash_eq hb'
    have hxy : x = y := sessionFact_same
      (hsha a ha.ofIdentity.1 b hb'.ofIdentity.1 hhash) (hagree id a b ha hb') hx hy
    have hunshared : Unshared env calls' id (env.semanticHash b) ↔
        Unshared env calls id (env.semanticHash a) := by
      unfold Unshared
      simp only [hof, hhash]
    rw [hvalue, hvalue', hxy]
    simp only [hunshared]
  · have hnone := not_exists.1 hsome
    rw [factAt_none h ht hnone, factAt_none h' ht' fun call hcall => hnone call ((hof call).1 hcall)]

end

/-! ## Runs that succeed -/

/-- The limits a run over some calls does not reach, when facts have no size. -/
def roomyLimits (calls : List UsageCall) : SessionFactMaterializationLimits where
  maximumRecords := calls.length + 1
  initialSerializedBytes := 0
  maximumRecordSerializedBytes := 1
  maximumSerializedBytes := 1

structure Weightless (state : MaterializeState) (n : Nat) : Prop where
  sizes : ∀ c ∈ state.candidates, c.serializedBytes = 0
  total : state.inventorySerializedBytes = 0
  length : state.candidates.length ≤ n

section
variable {env : FactEnv} {request : FactRequest}
  {groups : List (FactGroupKey × LocalProjectUsageGroup)}

theorem Weightless.admit {n : Nat} (h : Weightless state n) (hn : n ≤ calls.length) (hash : Nat)
    (fact : RemoteUsageEventFact) :
    ∃ state', admitFact (roomyLimits calls) (fun _ => .ok 0) state hash fact = .ok state' ∧
      Weightless state' (n + 1) := by
  have hput : ∀ c : Candidate, c.serializedBytes = 0 →
      ∀ d ∈ upsert Candidate.eventId (fun _ candidate => candidate) c state.candidates,
        d.serializedBytes = 0 := fun c hc =>
    upsert_of (P := fun d : Candidate => d.serializedBytes = 0) (fun _ _ _ h => h) hc h.sizes
  have hlength : ∀ c : Candidate, (upsert Candidate.eventId (fun _ candidate => candidate) c
      state.candidates).length ≤ n + 1 := fun c =>
    (upsert_length_le state.candidates).trans (Nat.succ_le_succ h.length)
  have hreplace : replaceBytes (roomyLimits calls) 0 0 0 = .ok 0 := rfl
  unfold admitFact
  split
  · rename_i existing hat
    split
    · exact ⟨state, rfl, h.sizes, h.total, Nat.le_succ_of_le h.length⟩
    · rw [h.total, h.sizes existing (valueAt_key hat).1, ok_bind, ensure_of (by simp [roomyLimits]),
        ok_bind, hreplace]
      exact ⟨_, rfl, hput _ rfl, rfl, hlength _⟩
  · rw [ensure_of (by simpa [roomyLimits] using Nat.lt_succ_of_le (h.length.trans hn)), ok_bind,
      ok_bind, ensure_of (by simp [roomyLimits]), ok_bind, h.total, hreplace]
    exact ⟨_, rfl, hput _ rfl, rfl, hlength _⟩

theorem Weightless.run {rest : List UsageCall}
    (haccepted : ∀ call ∈ rest, ∃ fact, sessionFact env request.thread groups
      request.collectionPartialReasons call = .ok fact) {state : MaterializeState} {n : Nat}
    (h : Weightless state n) (hn : n + rest.length ≤ calls.length + 1) :
    ∃ state', rest.foldlM (materializeCall env request (roomyLimits calls) (fun _ => .ok 0) groups)
      state = .ok state' := by
  induction rest generalizing state n with
  | nil => exact ⟨state, rfl⟩
  | cons call rest ih =>
    rw [List.length_cons] at hn
    obtain ⟨fact, hfact⟩ := haccepted call List.mem_cons_self
    have hstep : ∃ next, materializeCall env request (roomyLimits calls) (fun _ => .ok 0) groups
        state call = .ok next ∧ Weightless next (n + 1) := by
      unfold materializeCall
      rw [hfact, ok_bind]
      have hn' : n ≤ calls.length := by omega
      split
      · have hcounted : Weightless
            { state with
              missingEventIdentities := saturatingAdd 64 state.missingEventIdentities 1 } n :=
          ⟨h.sizes, h.total, h.length⟩
        exact hcounted.admit hn' _ _
      · exact h.admit hn' _ _
    obtain ⟨next, hnext, hweightless⟩ := hstep
    rw [List.foldlM_cons, hnext]
    exact ih (fun other hother => haccepted other (List.mem_cons_of_mem _ hother)) hweightless
      (by omega)

end

/-- The observation and the calls of the window have facts. -/
def Accepted (env : FactEnv) (request : FactRequest) (calls : List UsageCall) : Prop :=
  request.observation.observedAt = request.observedAt ∧
    ∃ groups, factGroups request.thread request.observation.halfHourBuckets = .ok groups ∧
      ∀ call ∈ calls, ∃ fact, sessionFact env request.thread groups [] call = .ok fact

/-- The same request with other reasons of the collection. -/
def FactRequest.withReasons (request : FactRequest) (reasons : List String) : FactRequest :=
  { request with collectionPartialReasons := reasons }

/-- **Materialization does not depend on the order of the calls**: any two runs over permutations of
them that succeed, under any reasons, limits and sizes, return the same facts, as described, and
account for their sizes. -/
def OrderIndependent (env : FactEnv) (request : FactRequest) (calls : List UsageCall) : Prop :=
  ∀ reasons limits serializedFactBytes (calls₁ calls₂ : List UsageCall) (s₁ s₂ : MaterializeState),
    calls₁.Perm calls → calls₂.Perm calls →
    materializeCalls env (request.withReasons reasons) limits serializedFactBytes calls₁ = .ok s₁ →
    materializeCalls env (request.withReasons reasons) limits serializedFactBytes calls₂ = .ok s₂ →
      s₁.facts = s₂.facts ∧
        Described env (request.withReasons reasons) (calls.filter request.inWindow) s₁.facts ∧
        Accounted limits serializedFactBytes s₁

section
variable {env : FactEnv} {request : FactRequest}

open Classical in
/-- A run over calls that have facts, one of those with the least hash of its identity first. -/
theorem exists_run_from (haccepted : Accepted env request (calls.filter request.inWindow))
    {a : UsageCall} (ha : Wins env (calls.filter request.inWindow) id a) :
    ∃ rest state groups fact, (a :: rest).Perm calls ∧
      materializeCalls env (request.withReasons []) (roomyLimits calls) (fun _ => .ok 0)
        (a :: rest) = .ok state ∧
      factGroups request.thread request.observation.halfHourBuckets = .ok groups ∧
      sessionFact env request.thread groups [] a = .ok fact ∧
      valueAt RemoteUsageEventFact.eventId id state.facts =
        some (if Unshared env (calls.filter request.inWindow) id (env.semanticHash a) then fact
          else markConflict fact) := by
  obtain ⟨htime, groups, hgroups, hfacts⟩ := haccepted
  obtain ⟨hcall, hwindow⟩ := List.mem_filter.1 ha.ofIdentity.1
  have hperm : (a :: calls.erase a).Perm calls := (List.perm_cons_erase hcall).symm
  have hmem : ∀ call, call ∈ (a :: calls.erase a).filter request.inWindow ↔
      call ∈ calls.filter request.inWindow := fun call => (hperm.filter _).mem_iff
  have hrun : ∃ state, materializeCalls env (request.withReasons []) (roomyLimits calls)
      (fun _ => .ok 0) (a :: calls.erase a) = .ok state := by
    have hlength : 0 + ((a :: calls.erase a).filter request.inWindow).length ≤
        calls.length + 1 := by
      have hfilter := List.length_filter_le request.inWindow (a :: calls.erase a)
      have heq := hperm.length_eq
      omega
    have hinitial : Weightless { inventorySerializedBytes := 0 } 0 :=
      ⟨fun c hc => absurd hc List.not_mem_nil, rfl, le_rfl⟩
    obtain ⟨state, hstate⟩ := @Weightless.run calls env (request.withReasons []) groups _
      (fun call hcall => hfacts call ((hmem call).1 hcall)) _ _ hinitial hlength
    have hlimits : (roomyLimits calls).validate = .ok () :=
      ensure_of (by simp [roomyLimits])
    have hgroups' : factGroups (request.withReasons []).thread
        (request.withReasons []).observation.halfHourBuckets = .ok groups := hgroups
    refine ⟨state, ?_⟩
    unfold materializeCalls
    rw [hlimits, ok_bind, ensure_of (by exact htime), ok_bind, hgroups', ok_bind]
    exact hstate
  obtain ⟨state, hstate⟩ := hrun
  obtain ⟨-, groups', ms, hgroups', hms, htracks⟩ := materializeCalls_tracks hstate
  obtain rfl : groups = groups' := Except.ok.inj (hgroups.symm.trans hgroups')
  have hcons : (a :: calls.erase a).filter (request.withReasons []).inWindow =
      a :: (calls.erase a).filter request.inWindow := List.filter_cons_of_pos hwindow
  rw [hcons] at hms
  obtain ⟨m, ms, hm, hrest, rfl⟩ := List.forall₂_cons_left_iff.1 hms
  have hall : List.Forall₂ (IsHashed env (request.withReasons []) groups)
      ((a :: calls.erase a).filter request.inWindow) (m :: ms) := by
    rw [List.filter_cons_of_pos hwindow]
    exact .cons hm hrest
  have hid : hashedId m = id := hm.id_eq.trans ha.ofIdentity.2
  have hleast : ∀ n ∈ ms.filter (fun n => hashedId n = id), m.1 ≤ n.1 := by
    rw [hm.1]
    intro n hn
    have hof := (forall_hashed hall (fun k => env.semanticHash a ≤ k) id).2
      fun call hcall => ha.least call ((OfIdentity.perm hmem).1 hcall)
    exact hof n (List.mem_filter.2 ⟨List.mem_cons_of_mem m (List.mem_filter.1 hn).1,
      (List.mem_filter.1 hn).2⟩)
  refine ⟨calls.erase a, state, groups, m.2, hperm, hstate, hgroups, hm.2, ?_⟩
  rw [htracks.factAt, List.filter_cons_of_pos (by simpa using hid),
    mergeAll_first hm.exported hleast, Option.map_some, Option.some_inj]
  have hunshared : (∀ n ∈ ms.filter (fun n => hashedId n = id), n.1 = m.1) ↔
      Unshared env (calls.filter request.inWindow) id (env.semanticHash a) := by
    have hforall := forall_hashed hall (fun k => k = m.1) id
    rw [List.filter_cons_of_pos (by simpa using hid), List.forall_mem_cons] at hforall
    rw [and_iff_right rfl, hm.1] at hforall
    rw [hm.1, hforall]
    unfold Unshared
    simp only [OfIdentity.perm hmem]
  simp only [wonFact, hunshared]

/-- Two calls with the least hash of an identity are told apart by what is returned. -/
theorem identities_agree (hindependent : OrderIndependent env request calls)
    (haccepted : Accepted env request (calls.filter request.inWindow))
    (hsha : ∀ a ∈ calls, ∀ b ∈ calls, env.semanticHash a = env.semanticHash b →
      digestEventFields a = digestEventFields b) :
    IdentitiesAgree env (calls.filter request.inWindow) := by
  classical
  intro id a b ha hb
  have hhash := ha.hash_eq hb
  have hfields := hsha a (List.mem_filter.1 ha.ofIdentity.1).1 b
    (List.mem_filter.1 hb.ofIdentity.1).1 hhash
  obtain ⟨restA, stateA, groups, x, hpermA, hrunA, hgroups, hx, hvalueA⟩ :=
    exists_run_from haccepted ha
  obtain ⟨restB, stateB, groups', y, hpermB, hrunB, hgroups', hy, hvalueB⟩ :=
    exists_run_from haccepted hb
  obtain rfl : groups = groups' := Except.ok.inj (hgroups.symm.trans hgroups')
  have hsame := (hindependent [] _ _ _ _ _ _ hpermA hpermB hrunA hrunB).1
  rw [hsame, hvalueB, Option.some_inj, hhash] at hvalueA
  obtain ⟨-, -, attributionA, hattributionA, hreasonsA⟩ := sessionFact_identity hx
  obtain ⟨-, -, attributionB, hattributionB, hreasonsB⟩ := sessionFact_identity hy
  obtain rfl := factAttribution_same hfields hattributionA hattributionB
  have hcommon : commonReasons env [] a attributionA.subagentUnattributed =
      commonReasons env [] b attributionA.subagentUnattributed :=
    commonReasons_same (costsSame_of_fields hfields) _
  have hleft : (eventIdentity env a).exact = (eventIdentity env b).exact ∧
      (eventIdentity env a).missing = (eventIdentity env b).missing := by
    split at hvalueA
    · have hreasons : y.metrics.partialReasons = x.metrics.partialReasons := by rw [hvalueA]
      rw [hreasonsA, hreasonsB] at hreasons
      refine identity_of_reasons ∅ (Finset.empty_subset _) hcommon ?_
      rw [Finset.union_empty, Finset.union_empty]
      exact hreasons.symm
    · have hreasons := congrArg (fun fact => fact.metrics.partialReasons) hvalueA
      change pushConflict _ = pushConflict _ at hreasons
      rw [hreasonsA, hreasonsB, pushConflict_exported, pushConflict_exported,
        Finset.insert_eq, Finset.insert_eq, Finset.union_comm, Finset.union_comm {_}] at hreasons
      exact identity_of_reasons _ subset_rfl hcommon hreasons.symm
  have hid := ha.ofIdentity.2.trans hb.ofIdentity.2.symm
  cases hA : eventIdentity env a
  cases hB : eventIdentity env b
  rw [hA, hB] at hid hleft
  obtain ⟨rfl, rfl⟩ := hleft
  obtain rfl := hid
  rfl

theorem Wins.perm (hmem : ∀ call, call ∈ calls ↔ call ∈ calls') {call : UsageCall}
    (h : Wins env calls id call) : Wins env calls' id call :=
  ⟨(OfIdentity.perm hmem).1 h.ofIdentity,
    fun other hother => h.least other ((OfIdentity.perm hmem).2 hother)⟩

theorem IdentitiesAgree.perm (hmem : ∀ call, call ∈ calls ↔ call ∈ calls')
    (h : IdentitiesAgree env calls) : IdentitiesAgree env calls' := fun id a b ha hb =>
  h id a b (ha.perm fun call => (hmem call).symm) (hb.perm fun call => (hmem call).symm)

theorem Described.perm (hmem : ∀ call, call ∈ calls ↔ call ∈ calls')
    {facts : List RemoteUsageEventFact} (h : Described env request calls facts) :
    Described env request calls' facts := by
  obtain ⟨groups, hgroups, hleast⟩ := h.least
  refine ⟨h.ordered, fun call hcall => h.complete call ((hmem call).2 hcall),
    ⟨groups, hgroups, fun fact hfact => ?_⟩, fun fact hfact => ?_⟩
  · obtain ⟨call, base, hwins, hrest⟩ := hleast fact hfact
    exact ⟨call, base, hwins.perm hmem, hrest⟩
  · rw [h.exact fact hfact]
    unfold Unshared
    simp only [OfIdentity.perm hmem]

theorem accepted_of_run {limits : SessionFactMaterializationLimits}
    {serializedFactBytes : RemoteUsageEventFact → Except String Nat} {reasons : List String}
    (hperm : calls'.Perm calls)
    (h : materializeCalls env (request.withReasons reasons) limits serializedFactBytes calls' =
      .ok state) : Accepted env request (calls.filter request.inWindow) := by
  obtain ⟨htime, groups, ms, hgroups, hms, -⟩ := materializeCalls_tracks h
  refine ⟨htime, groups, hgroups, fun call hcall => ?_⟩
  obtain ⟨m, -, hm⟩ := exists_hashed hms ((hperm.filter _).mem_iff.2 hcall)
  exact sessionFact_accepted hm.2 []

end

/-- **When materialization does not depend on the order of the calls**: exactly when the calls of one
identity that have its least semantic hash agree on how exact the identity is and on whether it is
missing, if all of the window's calls have facts. -/
theorem session_facts_order_independent (env : FactEnv) (request : FactRequest)
    (calls : List UsageCall)
    (hsha : ∀ a ∈ calls, ∀ b ∈ calls, env.semanticHash a = env.semanticHash b →
      digestEventFields a = digestEventFields b) :
    OrderIndependent env request calls ↔
      (Accepted env request (calls.filter request.inWindow) →
        IdentitiesAgree env (calls.filter request.inWindow)) := by
  constructor
  · exact fun hindependent haccepted => identities_agree hindependent haccepted hsha
  · intro hagree reasons limits serializedFactBytes calls₁ calls₂ s₁ s₂ hperm₁ hperm₂ hrun₁ hrun₂
    have hmem₁ : ∀ call, call ∈ calls₁.filter request.inWindow ↔
        call ∈ calls.filter request.inWindow := fun call => (hperm₁.filter _).mem_iff
    have hmem₂ : ∀ call, call ∈ calls₂.filter request.inWindow ↔
        call ∈ calls₁.filter request.inWindow := fun call =>
      ((hperm₂.trans hperm₁.symm).filter _).mem_iff
    have hagree₁ : IdentitiesAgree env (calls₁.filter request.inWindow) :=
      (hagree (accepted_of_run hperm₁ hrun₁)).perm fun call => (hmem₁ call).symm
    obtain ⟨-, groups, ms₁, hgroups, hms₁, ht₁⟩ := materializeCalls_tracks hrun₁
    obtain ⟨-, groups', ms₂, hgroups', hms₂, ht₂⟩ := materializeCalls_tracks hrun₂
    obtain rfl : groups = groups' := Except.ok.inj (hgroups.symm.trans hgroups')
    have hsha₁ : ∀ a ∈ calls₁.filter request.inWindow, ∀ b ∈ calls₁.filter request.inWindow,
        env.semanticHash a = env.semanticHash b → digestEventFields a = digestEventFields b :=
      fun a ha b hb => hsha a (List.mem_filter.1 ((hmem₁ a).1 ha)).1 b
        (List.mem_filter.1 ((hmem₁ b).1 hb)).1
    exact ⟨facts_same hagree₁ hsha₁ hmem₂ hms₁ ht₁ hms₂ ht₂,
      (ht₁.described hagree₁ hms₁ hgroups).perm hmem₁, ht₁.accounted⟩

namespace Sample

def rates : CreditTokenRates := ⟨1, 1, 1⟩

def catalog : ModelCatalog where
  estimatorRevision := 1
  apiPricingCatalogRevision := 1
  longContextInputThreshold := 272000
  creditFallbackModel := "gpt-5.5"
  models := fun _ => some ⟨some ⟨rates, some rates, false⟩, none⟩
  creditFallback := ⟨rates, some rates, false⟩
  fastCreditFallback := rates
  fallback_available := ⟨rfl, rfl⟩

/-- A call of a turn, five minutes into the bucket. -/
def call (exact : Bool) : UsageCall where
  timestamp := minutes 5
  threadId := "root"
  turnId := some "turn"
  usageEventId := some "event-1"
  usageEventIdentityExact := exact
  model := some "gpt-5.5"
  serviceTier := none
  tokens := ⟨10, 0, 0, 2, 0, 0, 12⟩
  requestUsageExact := true

def laterCall : UsageCall :=
  { call true with timestamp := minutes 6, usageEventId := some "event-2" }

def env : FactEnv where
  catalog := catalog
  revisions := ⟨1, 1, 1, 1, 1, ""⟩
  sha256 := fun fields =>
    if fields.timestamp = minutes 5 then
      0x18bd4c8fde250a87be96e9714aef5179e1d6ba1d7943b076302d4b3d30a97aaa
    else 0x53e3f11e7b6506ffd6b5eba9c9b530b3fc15f271f46698ef15f0ca9e4eb320f6

def request : FactRequest where
  thread := "root"
  retentionDays := 35
  observedAt := minutes 10
  observation := ⟨minutes 10, [{
    startsAt := 0
    endsAt := minutes 15
    sampledAt := minutes 10
    estimatorRevision := 1
    projectGroups := [{
      threadId := "root"
      turnId := some "turn"
      projectId := some
        "opk-hmac-sha256-v1-0000000000000000000000000000000000000000000000000000000000000001"
      callCount := 1 }] }]⟩
  collectionPartialReasons := []

/-- What a materialization says of the exactness of its facts. -/
def exactness (calls : List UsageCall) : Except String (List Bool) :=
  (materializeSessionFacts env request .unbounded (fun _ => .ok 0) calls).map fun result =>
    result.facts.map (·.exactEventIdentity)

end Sample

open SourceExport.Sample in
/-- Two events, one of them twice, in any order. -/
theorem session_facts_sample :
    OrderIndependent env request [call true, laterCall, call true] := by
  have hfields : ∀ a ∈ [call true, laterCall, call true], ∀ b ∈ [call true, laterCall, call true],
      env.semanticHash a = env.semanticHash b → digestEventFields a = digestEventFields b := by
    decide +kernel
  have hone : ∀ a ∈ [call true, laterCall, call true], ∀ b ∈ [call true, laterCall, call true],
      (eventIdentity env a).eventId = (eventIdentity env b).eventId →
        eventIdentity env a = eventIdentity env b := by
    decide +kernel
  refine (session_facts_order_independent env request _ hfields).2 fun _ id a b ha hb => ?_
  exact hone a (List.mem_filter.1 ha.ofIdentity.1).1 b (List.mem_filter.1 hb.ofIdentity.1).1
    (ha.ofIdentity.2.trans hb.ofIdentity.2.symm)

open SourceExport.Sample in
/-- An event that is exact in one call and not in another one is as exact as the first of them. -/
theorem exactness_depends_on_order :
    exactness [call true, call false] = .ok [true] ∧
      exactness [call false, call true] = .ok [false] :=
  ⟨rfl, rfl⟩

end SourceExport
