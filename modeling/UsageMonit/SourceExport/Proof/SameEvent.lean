import UsageMonit.Pricing.Proof.Canonical
import UsageMonit.SourceExport.Facts

/-!
# Calls of one event

Exported reasons are the first of a set, and marking a conflict adds its reason to the set
(`pushConflict_exported`). The fact of a call is determined by the fields of its semantic hash and by
its identity (`sessionFact_same`): what its identity leaves on it are the exactness flag and two
reasons (`SameButIdentity`).
-/

namespace SourceExport

open Fallible Usage History Pricing

/-! ## The first of a set -/

variable {fact : RemoteUsageEventFact} {a b : UsageCall}

section
variable {α : Type*} [LinearOrder α]

theorem take_orderedInsert_take (n : Nat) (a : α) (l : List α) :
    ((l.take n).orderedInsert (· ≤ ·) a).take n = (l.orderedInsert (· ≤ ·) a).take n := by
  induction n generalizing l with
  | zero => rfl
  | succ n ih =>
    cases l with
    | nil => rfl
    | cons b l =>
      simp only [List.take_succ_cons, List.orderedInsert_cons]
      split
      · cases n with
        | zero => rfl
        | succ n => simp [List.take_take]
      · rw [List.take_succ_cons, List.take_succ_cons, ih]

theorem insertionSort_append_singleton {l : List α} (h : l.Pairwise (· ≤ ·)) (a : α) :
    (l ++ [a]).insertionSort (· ≤ ·) = l.orderedInsert (· ≤ ·) a := by
  refine List.Perm.eq_of_pairwise' (r := (· ≤ ·)) (List.pairwise_insertionSort _ _)
    (h.orderedInsert a l) ?_
  exact (List.perm_insertionSort _ _).trans
    ((List.perm_append_singleton a l).trans (List.perm_orderedInsert _ a l).symm)

theorem take_insertionSort_append (n : Nat) (s : Finset α) {a : α}
    (ha : a ∉ (s.sort (· ≤ ·)).take n) :
    (((s.sort (· ≤ ·)).take n ++ [a]).insertionSort (· ≤ ·)).take n =
      ((insert a s).sort (· ≤ ·)).take n := by
  have hsorted : (s.sort (· ≤ ·)).Pairwise (· ≤ ·) := Finset.pairwise_sort _ _
  by_cases hmem : a ∈ s
  · -- it is in the set behind the first ones, which stay
    rw [Finset.insert_eq_self.2 hmem]
    have hdrop : a ∈ (s.sort (· ≤ ·)).drop n := by
      have hall : a ∈ (s.sort (· ≤ ·)).take n ++ (s.sort (· ≤ ·)).drop n := by
        rw [List.take_append_drop]
        exact (Finset.mem_sort _).2 hmem
      exact (List.mem_append.1 hall).resolve_left ha
    have hlength : ((s.sort (· ≤ ·)).take n).length = n := by
      have hpos := List.length_pos_of_mem hdrop
      rw [List.length_drop] at hpos
      rw [List.length_take]
      omega
    have hbefore : ∀ b ∈ (s.sort (· ≤ ·)).take n, b ≤ a := by
      rw [← List.take_append_drop n (s.sort (· ≤ ·))] at hsorted
      exact fun b hb => (List.pairwise_append.1 hsorted).2.2 b hb a hdrop
    have hwhole : ((s.sort (· ≤ ·)).take n ++ [a]).Pairwise (· ≤ ·) := by
      refine List.pairwise_append.2 ⟨hsorted.take, List.pairwise_singleton _ _, fun b hb c hc => ?_⟩
      rw [List.mem_singleton.1 hc]
      exact hbefore b hb
    rw [hwhole.insertionSort_eq, List.take_left' hlength]
  · have hinsert : (insert a s).sort (· ≤ ·) = (s.sort (· ≤ ·)).orderedInsert (· ≤ ·) a := by
      refine List.Perm.eq_of_pairwise' (Finset.pairwise_sort _ _) (hsorted.orderedInsert a _) ?_
      refine (List.perm_ext_iff_of_nodup (Finset.sort_nodup _ _) ?_).2 fun b => ?_
      · refine (List.perm_orderedInsert _ a _).nodup_iff.2 (List.nodup_cons.2 ⟨?_, ?_⟩)
        · simpa using hmem
        · exact Finset.sort_nodup _ _
      · simp
    rw [insertionSort_append_singleton hsorted.take, take_orderedInsert_take, hinsert]

end

theorem pushConflict_exported (reasons : Finset String) :
    pushConflict (exportedReasons reasons) =
      exportedReasons (insert conflictingEventReason reasons) := by
  unfold pushConflict
  split
  · rename_i hmem
    have hreason : conflictingEventReason ∈ reasons :=
      (Finset.mem_sort _).1 (List.mem_of_mem_take hmem)
    rw [Finset.insert_eq_self.2 hreason]
  · exact take_insertionSort_append maxExportedPartialReasons reasons ‹_›

theorem mem_exportedReasons {reasons : Finset String} (h : reasons.card ≤ maxExportedPartialReasons)
    {reason : String} : reason ∈ exportedReasons reasons ↔ reason ∈ reasons := by
  unfold exportedReasons
  rw [List.take_of_length_le (by rwa [Finset.length_sort]), Finset.mem_sort]

/-- The reasons of a fact are the first of a set. -/
def Exported (fact : RemoteUsageEventFact) : Prop :=
  ∃ reasons, fact.metrics.partialReasons = exportedReasons reasons

theorem markConflict_twice (h : Exported fact) :
    markConflict (markConflict fact) = markConflict fact := by
  obtain ⟨reasons, hreasons⟩ := h
  have htwice : pushConflict (pushConflict fact.metrics.partialReasons) =
      pushConflict fact.metrics.partialReasons := by
    rw [hreasons, pushConflict_exported, pushConflict_exported, Finset.insert_idem]
  unfold markConflict
  simp only [htwice]

/-! ## One event, one fact -/

theorem costsSame_of_fields (h : digestEventFields a = digestEventFields b) : CostsSame a b := by
  simp only [digestEventFields, DigestEventFields.mk.injEq] at h
  obtain ⟨-, -, -, hmodel, htier, hinput, hcached, hwrite, houtput, hreasoning, hunclassified,
    htotal, hexact⟩ := h
  exact ⟨hmodel, htier, hinput, hcached, hwrite, houtput, hreasoning, hunclassified, htotal, hexact⟩

theorem strictOptionalProtocolText_ok {value : Option String} {maximum : Nat} {subject : String}
    {text : Option String} (h : strictOptionalProtocolText value maximum subject = .ok text) :
    text = trimmed value := by
  cases value with
  | none => exact (Except.ok.inj h).symm.trans (by simp [trimmed])
  | some value =>
    obtain ⟨_, hbounded, h⟩ := bind_ok h
    rw [← Except.ok.inj h, trimmed_text (ensure_ok.1 hbounded).1]

theorem ensure_congr {c d : Prop} [Decidable c] [Decidable d] (h : c ↔ d) (e : String) :
    ensure c e = ensure d e := by
  simp only [ensure, h]

theorem remoteTokenUsage_eq (h : CostsSame a b) :
    remoteTokenUsage a.tokens = remoteTokenUsage b.tokens := by
  have hbreakdown : a.tokens.hasValidBreakdown ↔ b.tokens.hasValidBreakdown := by
    unfold TokenUsage.hasValidBreakdown
    simp only [h.input, h.cachedInput, h.cacheWriteInput, h.output, h.reasoningOutput,
      h.unclassified, h.total]
  unfold remoteTokenUsage
  simp only [h.input, h.cachedInput, h.cacheWriteInput, h.output, h.reasoningOutput, h.unclassified,
    h.total, ensure_congr hbreakdown]

section
variable {env : FactEnv} {thread : ThreadId}
  {groups : List (FactGroupKey × LocalProjectUsageGroup)} {collectionReasons : List String}

theorem factAttribution_same (h : digestEventFields a = digestEventFields b)
    {x y : FactAttribution} (hx : factAttribution thread groups a = .ok x)
    (hy : factAttribution thread groups b = .ok y) : x = y := by
  simp only [digestEventFields, DigestEventFields.mk.injEq] at h
  obtain ⟨hthread, htime, hturn, -⟩ := h
  have hstart : bucketStart a.timestamp = bucketStart b.timestamp := by rw [htime]
  obtain ⟨start, hstartA, hx⟩ := bind_ok hx
  obtain ⟨start', hstartB, hy⟩ := bind_ok hy
  obtain rfl : start = start' := by
    rw [okOr_ok] at hstartA hstartB
    rw [hstart, hstartB] at hstartA
    exact (Option.some_inj.1 hstartA).symm
  obtain ⟨group, hgroupA, hx⟩ := bind_ok hx
  obtain ⟨group', hgroupB, hy⟩ := bind_ok hy
  obtain rfl : group = group' := by
    rw [okOr_ok] at hgroupA hgroupB
    rw [hthread, hturn, hgroupB] at hgroupA
    exact (Option.some_inj.1 hgroupA).symm
  obtain ⟨key, hkeyA, hx⟩ := bind_ok hx
  obtain ⟨key', hkeyB, hy⟩ := bind_ok hy
  obtain rfl : key = key' := Except.ok.inj (hkeyA.symm.trans hkeyB)
  obtain ⟨turn, hturnA, hx⟩ := bind_ok hx
  obtain ⟨turn', hturnB, hy⟩ := bind_ok hy
  obtain rfl : turn = turn' := by
    rw [strictOptionalProtocolText_ok hturnA, strictOptionalProtocolText_ok hturnB, hturn]
  exact Except.ok.inj (hx.symm.trans hy)

theorem metricUsage_same (h : CostsSame a b) :
    remoteTokenUsage (if isSparkModel a.model then default else a.tokens) =
      remoteTokenUsage (if isSparkModel b.model then default else b.tokens) := by
  rw [h.isSparkModel_eq]
  split
  · rfl
  · exact remoteTokenUsage_eq h

theorem weightReasons_same (h : CostsSame a b) (catalog : ModelCatalog) :
    weightReasons catalog a = weightReasons catalog b := by
  unfold weightReasons
  rw [h.isSparkModel_eq, h.estimateCallWeight_eq]

theorem commonReasons_same (h : CostsSame a b) (unattributed : Bool) :
    commonReasons env collectionReasons a unattributed =
      commonReasons env collectionReasons b unattributed := by
  unfold commonReasons
  rw [h.requestUsageExact, h.addCall_eq, weightReasons_same h]

theorem sessionFact_identity {call : UsageCall}
    (h : sessionFact env thread groups collectionReasons call = .ok fact) :
    fact.eventId = (eventIdentity env call).eventId ∧
      fact.exactEventIdentity = (eventIdentity env call).exact ∧
      ∃ attribution, factAttribution thread groups call = .ok attribution ∧
        fact.metrics.partialReasons = exportedReasons
          (commonReasons env collectionReasons call attribution.subagentUnattributed ∪
            identityReasons (eventIdentity env call)) := by
  obtain ⟨attribution, hattribution, h⟩ := bind_ok h
  iterate 4 obtain ⟨_, -, h⟩ := bind_ok h
  obtain rfl := Except.ok.inj h
  exact ⟨rfl, rfl, attribution, hattribution, rfl⟩

theorem sessionFact_exported {call : UsageCall}
    (h : sessionFact env thread groups collectionReasons call = .ok fact) : Exported fact := by
  obtain ⟨-, -, attribution, -, hreasons⟩ := sessionFact_identity h
  exact ⟨_, hreasons⟩

theorem sessionFact_rest (hfields : digestEventFields a = digestEventFields b)
    {x y : RemoteUsageEventFact} (hx : sessionFact env thread groups collectionReasons a = .ok x)
    (hy : sessionFact env thread groups collectionReasons b = .ok y) :
    y = { x with
      eventId := y.eventId
      exactEventIdentity := y.exactEventIdentity
      metrics := { x.metrics with partialReasons := y.metrics.partialReasons } } := by
  have hcosts := costsSame_of_fields hfields
  have htime : a.timestamp = b.timestamp := by
    simp only [digestEventFields, DigestEventFields.mk.injEq] at hfields
    exact hfields.2.1
  obtain ⟨attribution, hattributionA, hx⟩ := bind_ok hx
  obtain ⟨attribution', hattributionB, hy⟩ := bind_ok hy
  obtain rfl := factAttribution_same hfields hattributionA hattributionB
  obtain ⟨model, hmodelA, hx⟩ := bind_ok hx
  obtain ⟨model', hmodelB, hy⟩ := bind_ok hy
  obtain rfl : model = model' := by
    rw [strictOptionalProtocolText_ok hmodelA, strictOptionalProtocolText_ok hmodelB, hcosts.model]
  obtain ⟨tier, htierA, hx⟩ := bind_ok hx
  obtain ⟨tier', htierB, hy⟩ := bind_ok hy
  obtain rfl : tier = tier' := by
    rw [strictOptionalProtocolText_ok htierA, strictOptionalProtocolText_ok htierB,
      hcosts.serviceTier]
  obtain ⟨usage, husageA, hx⟩ := bind_ok hx
  obtain ⟨usage', husageB, hy⟩ := bind_ok hy
  rw [remoteTokenUsage_eq hcosts] at husageA
  obtain rfl := Except.ok.inj (husageA.symm.trans husageB)
  obtain ⟨metric, hmetricA, hx⟩ := bind_ok hx
  obtain ⟨metric', hmetricB, hy⟩ := bind_ok hy
  rw [metricUsage_same hcosts] at hmetricA
  obtain rfl := Except.ok.inj (hmetricA.symm.trans hmetricB)
  obtain rfl := Except.ok.inj hx
  obtain rfl := Except.ok.inj hy
  simp only [htime, hcosts.requestUsageExact, hcosts.isSparkModel_eq,
    hcosts.estimateCallWeight_eq, hcosts.addCall_eq]

/-- **The calls of one event give one fact**, if their identities leave the same on it. -/
theorem sessionFact_same (hfields : digestEventFields a = digestEventFields b)
    (hidentity : eventIdentity env a = eventIdentity env b) {x y : RemoteUsageEventFact}
    (hx : sessionFact env thread groups collectionReasons a = .ok x)
    (hy : sessionFact env thread groups collectionReasons b = .ok y) : x = y := by
  have hrest := sessionFact_rest hfields hx hy
  obtain ⟨hidA, hexactA, attributionA, hattributionA, hreasonsA⟩ := sessionFact_identity hx
  obtain ⟨hidB, hexactB, attributionB, hattributionB, hreasonsB⟩ := sessionFact_identity hy
  obtain rfl := factAttribution_same hfields hattributionA hattributionB
  have hid : y.eventId = x.eventId := by rw [hidA, hidB, hidentity]
  have hexact : y.exactEventIdentity = x.exactEventIdentity := by rw [hexactA, hexactB, hidentity]
  have hreasons : y.metrics.partialReasons = x.metrics.partialReasons := by
    rw [hreasonsA, hreasonsB, hidentity, commonReasons_same (costsSame_of_fields hfields)]
  rw [hid, hexact, hreasons] at hrest
  exact hrest.symm

/-- The collection's reasons do not decide whether a call has a fact. -/
theorem sessionFact_accepted {call : UsageCall}
    (h : sessionFact env thread groups collectionReasons call = .ok fact) (others : List String) :
    ∃ fact, sessionFact env thread groups others call = .ok fact := by
  unfold sessionFact at h ⊢
  obtain ⟨attribution, hattribution, h⟩ := bind_ok h
  obtain ⟨model, hmodel, h⟩ := bind_ok h
  obtain ⟨tier, htier, h⟩ := bind_ok h
  obtain ⟨usage, husage, h⟩ := bind_ok h
  obtain ⟨metric, hmetric, -⟩ := bind_ok h
  rw [hattribution, ok_bind, hmodel, ok_bind, htier, ok_bind, husage, ok_bind]
  simp only [hmetric]
  exact ⟨_, rfl⟩

end

/-! ## What an identity leaves on a fact can be told from it -/

theorem card_reasonIf (applies : Bool) (reason : String) : (reasonIf applies reason).card ≤ 1 := by
  cases applies <;> simp [reasonIf]

theorem mem_reasonIf {applies : Bool} {reason other : String} :
    other ∈ reasonIf applies reason ↔ applies = true ∧ other = reason := by
  cases applies <;> simp [reasonIf]

section
variable (env : FactEnv)

theorem weightReasons_card (catalog : ModelCatalog) (call : UsageCall) :
    (weightReasons catalog call).card ≤ 3 := by
  unfold weightReasons
  split
  · simp
  · have hfirst := card_reasonIf (estimateCallWeight catalog call).usedModelFallback
      modelFallbackReason
    have hsecond := card_reasonIf (estimateCallWeight catalog call).usedTokenBreakdownFallback
      tokenBreakdownReason
    have hthird := card_reasonIf
      (estimateCallWeight catalog call).usedLongContextDetectionFallback longContextUnknownReason
    have hunion := Finset.card_union_le
      (reasonIf (estimateCallWeight catalog call).usedModelFallback modelFallbackReason ∪
        reasonIf (estimateCallWeight catalog call).usedTokenBreakdownFallback tokenBreakdownReason)
      (reasonIf (estimateCallWeight catalog call).usedLongContextDetectionFallback
        longContextUnknownReason)
    have hinner := Finset.card_union_le
      (reasonIf (estimateCallWeight catalog call).usedModelFallback modelFallbackReason)
      (reasonIf (estimateCallWeight catalog call).usedTokenBreakdownFallback tokenBreakdownReason)
    dsimp only
    omega

theorem commonReasons_card (call : UsageCall) (unattributed : Bool) :
    (commonReasons env [] call unattributed).card ≤ 7 := by
  unfold commonReasons normalizedPartialReasons
  rw [List.foldl_nil, Finset.empty_union]
  have hexact := card_reasonIf (!call.requestUsageExact) requestUsageInexactReason
  have hattributed := card_reasonIf unattributed subagentAttributionReason
  have hprice := priceCall_reasons_card env.catalog call
  have hweight := weightReasons_card env.catalog call
  refine (Finset.card_union_le _ _).trans ?_
  refine (Nat.add_le_add_right (Finset.card_union_le _ _) _).trans ?_
  refine (Nat.add_le_add_right (Nat.add_le_add_right (Finset.card_union_le _ _) _) _).trans ?_
  omega

theorem identityReasons_card (identity : EventIdentity) : (identityReasons identity).card ≤ 2 := by
  have hfirst := card_reasonIf (!identity.exact) fallbackEventReason
  have hsecond := card_reasonIf identity.missing missingEventReason
  exact (Finset.card_union_le _ _).trans (by omega)

/-- The reasons an identity gives are given by nothing else. -/
theorem commonReasons_notMem (call : UsageCall) (unattributed : Bool) {reason : String}
    (h : reason = fallbackEventReason ∨ reason = missingEventReason) :
    reason ∉ commonReasons env [] call unattributed := by
  have hprice : reason ∉ (ApiCostAccumulator.addCall env.catalog {} call).partialReasons := by
    intro hmem
    have hlist := priceCall_reasons env.catalog call reason hmem
    rcases h with rfl | rfl <;> exact absurd hlist (by decide)
  have hweight : reason ∉ weightReasons env.catalog call := by
    unfold weightReasons
    rcases h with rfl | rfl <;> split <;>
      simp [mem_reasonIf, fallbackEventReason, missingEventReason, modelFallbackReason,
        tokenBreakdownReason, longContextUnknownReason]
  unfold commonReasons normalizedPartialReasons
  rw [List.foldl_nil, Finset.empty_union]
  simp only [Finset.mem_union, mem_reasonIf, not_or]
  refine ⟨⟨⟨?_, ?_⟩, hprice⟩, hweight⟩ <;>
    rcases h with rfl | rfl <;>
    simp [fallbackEventReason, missingEventReason, requestUsageInexactReason,
      subagentAttributionReason]

/-- **What is left of an identity** can be told from the reasons, marked as a conflict or not. -/
theorem identity_of_reasons {env : FactEnv} {call other : UsageCall} {unattributed : Bool}
    (conflict : Finset String) (hconflict : conflict ⊆ {conflictingEventReason})
    {x y : EventIdentity}
    (hcommon : commonReasons env [] call unattributed = commonReasons env [] other unattributed)
    (h : exportedReasons (commonReasons env [] call unattributed ∪ identityReasons x ∪ conflict) =
      exportedReasons (commonReasons env [] other unattributed ∪ identityReasons y ∪ conflict)) :
    x.exact = y.exact ∧ x.missing = y.missing := by
  have hcard : ∀ identity, (commonReasons env [] call unattributed ∪ identityReasons identity ∪
      conflict).card ≤ maxExportedPartialReasons := by
    intro identity
    have hfirst := commonReasons_card env call unattributed
    have hsecond := identityReasons_card identity
    have hthird := Finset.card_le_card hconflict
    rw [Finset.card_singleton] at hthird
    refine (Finset.card_union_le _ _).trans ?_
    refine (Nat.add_le_add_right (Finset.card_union_le _ _) _).trans ?_
    unfold maxExportedPartialReasons
    omega
  rw [← hcommon] at h
  have hmem : ∀ reason, (reason = fallbackEventReason ∨ reason = missingEventReason) →
      (reason ∈ identityReasons x ↔ reason ∈ identityReasons y) := by
    intro reason hreason
    have hiff : reason ∈ commonReasons env [] call unattributed ∪ identityReasons x ∪ conflict ↔
        reason ∈ commonReasons env [] call unattributed ∪ identityReasons y ∪ conflict := by
      rw [← mem_exportedReasons (hcard x), h, mem_exportedReasons (hcard y)]
    have hnone := commonReasons_notMem env call unattributed hreason
    have hother : reason ∉ conflict := by
      intro hin
      have heq := Finset.mem_singleton.1 (hconflict hin)
      rcases hreason with rfl | rfl <;> exact absurd heq (by decide)
    simpa [hnone, hother] using hiff
  have hne : fallbackEventReason ≠ missingEventReason := by decide
  constructor
  · have hfallback := hmem fallbackEventReason (.inl rfl)
    simp only [identityReasons, Finset.mem_union, mem_reasonIf, hne, and_false, or_false,
      and_true, Bool.not_eq_true'] at hfallback
    exact Bool.eq_iff_iff.2 (by simpa using not_congr hfallback)
  · have hmissing := hmem missingEventReason (.inr rfl)
    simp only [identityReasons, Finset.mem_union, mem_reasonIf, hne.symm, and_false, false_or,
      and_true] at hmissing
    exact Bool.eq_iff_iff.2 hmissing

end

end SourceExport
