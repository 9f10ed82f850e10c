import Mathlib.Algebra.Order.Group.Multiset
import UsageMonit.History.Aggregation
import UsageMonit.Lib.GradedSum

/-!
# The content of a bucket

`Content` is what a bucket counts, without its slot and its revisions and up to the order of its
groups: a commutative semigroup under the additive part of a merge. The two masks are idempotent,
commute and, on the contents that buckets have (`Content.Ok`), distribute over the sum, so they
carry contents over the revisions (`carried`), which form a semilattice (`Grade`): the active
revision is on top, the sentinel below it, and all others below the sentinel.
-/

namespace History

open Fallible Time Usage KeyedMerge GradedSum

/-! ## Revisions -/

/-- A revision, ordered by what a merge makes of it. -/
structure Grade (current : Nat) where
  revision : Nat
deriving DecidableEq

namespace Grade

variable {current : Nat}

@[ext] theorem ext' {a b : Grade current} (h : a.revision = b.revision) : a = b := by
  cases a
  cases b
  simp_all

instance : Max (Grade current) where
  max a b := if a.revision = b.revision then a else ⟨mergedRevision current a.revision b.revision⟩

theorem max_revision (a b : Grade current) : (a ⊔ b).revision =
    if a.revision = b.revision then a.revision
    else mergedRevision current a.revision b.revision := by
  show (if a.revision = b.revision then a else _ : Grade current).revision = _
  split <;> rfl

instance : SemilatticeSup (Grade current) := by
  refine SemilatticeSup.mk' (fun a b => ?_) (fun a b c => ?_) (fun a => ?_)
  · apply ext'
    simp only [max_revision, mergedRevision]
    split_ifs <;> omega
  · apply ext'
    simp only [max_revision, mergedRevision]
    split_ifs <;> omega
  · apply ext'
    simp [max_revision]

end Grade

/-! ## Sums of tokens and costs -/

namespace Tokens

theorem addAssign_comm (u v : TokenUsage) : u.addAssign v = v.addAssign u := by
  simp only [TokenUsage.addAssign, saturatingAdd_comm 64 u.unclassified,
    saturatingAdd_comm 64 u.inputTokens, saturatingAdd_comm 64 u.cachedInputTokens,
    saturatingAdd_comm 64 u.cacheWriteInputTokens, saturatingAdd_comm 64 u.outputTokens,
    saturatingAdd_comm 64 u.reasoningOutputTokens, saturatingAdd_comm 64 u.totalTokens]

theorem addAssign_assoc (u v w : TokenUsage) :
    (u.addAssign v).addAssign w = u.addAssign (v.addAssign w) := by
  rw [addAssign_comm u (v.addAssign w), TokenUsage.addAssign_right_comm v w u, addAssign_comm v u]

theorem isZero_addAssign (u v : TokenUsage) :
    (u.addAssign v).isZero ↔ u.isZero ∧ v.isZero := by
  unfold TokenUsage.isZero TokenUsage.addAssign TokenUsage.unclassified saturatingAdd
  dsimp only
  split_ifs <;> omega

end Tokens

namespace ApiCostAmount

theorem addAssign_comm (a b : ApiCostAmount) : a.addAssign b = b.addAssign a := by
  simp only [addAssign, saturatingAdd_comm _ a.minimumPicoUsd,
    saturatingAdd_comm _ a.maximumPicoUsd, saturatingAdd_comm _ a.observedSamples,
    saturatingAdd_comm _ a.pricedSamples, saturatingAdd_comm _ a.observedTokens,
    saturatingAdd_comm _ a.pricedTokens]

theorem addAssign_assoc (a b c : ApiCostAmount) :
    (a.addAssign b).addAssign c = a.addAssign (b.addAssign c) := by
  simp only [addAssign, saturatingAdd_assoc]

end ApiCostAmount

theorem addOptionalUnits_comm (a b : Option Nat) : addOptionalUnits a b = addOptionalUnits b a := by
  cases a <;> cases b <;> simp [addOptionalUnits, saturatingAdd_comm]

theorem addOptionalUnits_assoc (a b c : Option Nat) :
    addOptionalUnits (addOptionalUnits a b) c = addOptionalUnits a (addOptionalUnits b c) := by
  cases a <;> cases b <;> cases c <;> simp [addOptionalUnits, saturatingAdd_assoc]

/-! ## Groups -/

/-- What a model group counts, without its key. -/
structure GroupValue where
  tokenUsage : TokenUsage
  estimatedCostUnits : Nat
  apiLongContextExtraCostUnits : Option Nat
  callCount : Nat
  usedModelFallback : Bool
  usedTokenBreakdownFallback : Bool
  usedLongContextPricing : Bool
  usedLongContextDetectionFallback : Bool
  apiEquivalentCost : ApiCostAmount
  apiEquivalentCostComplete : Bool

def LocalUsageGroup.value (g : LocalUsageGroup) : GroupValue where
  tokenUsage := g.tokenUsage
  estimatedCostUnits := g.estimatedCostUnits
  apiLongContextExtraCostUnits := g.apiLongContextExtraCostUnits
  callCount := g.callCount
  usedModelFallback := g.usedModelFallback
  usedTokenBreakdownFallback := g.usedTokenBreakdownFallback
  usedLongContextPricing := g.usedLongContextPricing
  usedLongContextDetectionFallback := g.usedLongContextDetectionFallback
  apiEquivalentCost := g.apiEquivalentCost
  apiEquivalentCostComplete := g.apiEquivalentCostComplete

namespace GroupValue

instance : Add GroupValue where
  add a b := {
    tokenUsage := a.tokenUsage.addAssign b.tokenUsage
    estimatedCostUnits := saturatingAdd 128 a.estimatedCostUnits b.estimatedCostUnits
    apiLongContextExtraCostUnits := addOptionalUnits a.apiLongContextExtraCostUnits
      b.apiLongContextExtraCostUnits
    callCount := saturatingAdd 64 a.callCount b.callCount
    usedModelFallback := a.usedModelFallback || b.usedModelFallback
    usedTokenBreakdownFallback := a.usedTokenBreakdownFallback || b.usedTokenBreakdownFallback
    usedLongContextPricing := a.usedLongContextPricing || b.usedLongContextPricing
    usedLongContextDetectionFallback :=
      a.usedLongContextDetectionFallback || b.usedLongContextDetectionFallback
    apiEquivalentCost := a.apiEquivalentCost.addAssign b.apiEquivalentCost
    apiEquivalentCostComplete := a.apiEquivalentCostComplete && b.apiEquivalentCostComplete }

theorem add_def (a b : GroupValue) : a + b = Add.add a b := rfl

instance : AddCommSemigroup GroupValue where
  add_comm a b := by
    simp only [add_def, Add.add, Tokens.addAssign_comm a.tokenUsage,
      saturatingAdd_comm _ a.estimatedCostUnits,
      addOptionalUnits_comm a.apiLongContextExtraCostUnits, saturatingAdd_comm _ a.callCount,
      ApiCostAmount.addAssign_comm a.apiEquivalentCost, Bool.or_comm, Bool.and_comm]
  add_assoc a b c := by
    simp only [add_def, Add.add, Tokens.addAssign_assoc, saturatingAdd_assoc, addOptionalUnits_assoc,
      ApiCostAmount.addAssign_assoc, Bool.or_assoc, Bool.and_assoc]

def maskEstimator (a : GroupValue) : GroupValue :=
  { a with estimatedCostUnits := 0, apiLongContextExtraCostUnits := some 0 }

def maskApi (a : GroupValue) : GroupValue :=
  { a with
    apiEquivalentCost :=
      maskApiCostProjection a.apiEquivalentCost a.tokenUsage.totalTokens a.callCount
    apiEquivalentCostComplete := false }

/-- The coverage of the API amount is within what the group counts. -/
def Covered (a : GroupValue) : Prop :=
  a.apiEquivalentCost.observedSamples ≤ a.callCount ∧
    a.apiEquivalentCost.observedTokens ≤ a.tokenUsage.totalTokens

theorem maskApi_idem (a : GroupValue) : a.maskApi.maskApi = a.maskApi := by
  simp [maskApi, maskApiCostProjection]

theorem maskEstimator_add (a b : GroupValue) :
    (a + b).maskEstimator = a.maskEstimator + b.maskEstimator := by
  simp [maskEstimator, add_def, Add.add, addOptionalUnits, saturatingAdd]

theorem saturatingAdd_mono {w a b a' b' : Nat} (h : a ≤ a') (h' : b ≤ b') :
    saturatingAdd w a b ≤ saturatingAdd w a' b' := by
  unfold saturatingAdd
  omega

theorem Covered.add {a b : GroupValue} (ha : a.Covered) (hb : b.Covered) : (a + b).Covered :=
  ⟨saturatingAdd_mono ha.1 hb.1, saturatingAdd_mono ha.2 hb.2⟩

theorem Covered.maskApi {a : GroupValue} (h : a.Covered) : a.maskApi.Covered :=
  ⟨max_le h.1 (le_refl _), max_le h.2 (le_refl _)⟩

/-- The coverage of a masked sum is the sum of the masked coverages. -/
theorem maskApi_add {a b : GroupValue} (ha : a.Covered) (hb : b.Covered) :
    (a + b).maskApi = a.maskApi + b.maskApi := by
  have hsum := ha.add hb
  obtain ⟨hsamples, htokens⟩ := hsum
  simp only [GroupValue.maskApi, maskApiCostProjection, max_eq_right hsamples,
    max_eq_right htokens, max_eq_right ha.1, max_eq_right ha.2, max_eq_right hb.1,
    max_eq_right hb.2]
  rfl

end GroupValue

theorem value_merge (a b : LocalUsageGroup) :
    (mergeUsageGroup a b).value = a.value + b.value := rfl

/-! ## Contents -/

abbrev GroupKey := WithBot String ×ₗ WithBot String

structure Content where
  endsAt : DateTime
  sampledAt : DateTime
  tokenUsage : TokenUsage
  estimatedCostUnits : Nat
  apiLongContextExtraCostUnits : Option Nat
  longContextUsageUnknown : Bool
  projectBreakdownRevision : Nat
  callCount : Nat
  groups : GroupKey → Option GroupValue
  projectGroups : Multiset LocalProjectUsageGroup
  partialReasons : Set String

namespace Content

/-- The bucket has usage that a mask of its estimates hides. -/
def HasUsage (x : Content) : Prop :=
  ¬ x.tokenUsage.isZero ∨ 0 < x.callCount ∨ 0 < x.estimatedCostUnits ∨
    ∃ value ∈ x.apiLongContextExtraCostUnits, 0 < value

instance (x : Content) : Decidable x.HasUsage := inferInstanceAs (Decidable (_ ∨ _ ∨ _ ∨ _))

instance : Add Content where
  add x y := {
    endsAt := min x.endsAt y.endsAt
    sampledAt := min x.sampledAt y.sampledAt
    tokenUsage := x.tokenUsage.addAssign y.tokenUsage
    estimatedCostUnits := saturatingAdd 128 x.estimatedCostUnits y.estimatedCostUnits
    apiLongContextExtraCostUnits := addOptionalUnits x.apiLongContextExtraCostUnits
      y.apiLongContextExtraCostUnits
    longContextUsageUnknown := x.longContextUsageUnknown || y.longContextUsageUnknown
    projectBreakdownRevision := min x.projectBreakdownRevision y.projectBreakdownRevision
    callCount := saturatingAdd 64 x.callCount y.callCount
    groups := fun k => mergeOption (· + ·) (x.groups k) (y.groups k)
    projectGroups := x.projectGroups + y.projectGroups
    partialReasons := x.partialReasons ∪ y.partialReasons }

theorem add_def (x y : Content) : x + y = Add.add x y := rfl

theorem mergeOption_comm (a b : Option GroupValue) :
    mergeOption (· + ·) a b = mergeOption (· + ·) b a := by
  cases a <;> cases b <;> simp [mergeOption, add_comm]

theorem mergeOption_assoc (a b c : Option GroupValue) :
    mergeOption (· + ·) (mergeOption (· + ·) a b) c =
      mergeOption (· + ·) a (mergeOption (· + ·) b c) := by
  cases a <;> cases b <;> cases c <;> simp [mergeOption, add_assoc]

instance : AddCommSemigroup Content where
  add_comm x y := by
    simp only [add_def, Add.add, min_comm x.endsAt, min_comm x.sampledAt,
      min_comm x.projectBreakdownRevision,
      Tokens.addAssign_comm x.tokenUsage, saturatingAdd_comm _ x.estimatedCostUnits,
      addOptionalUnits_comm x.apiLongContextExtraCostUnits, saturatingAdd_comm _ x.callCount,
      Bool.or_comm x.longContextUsageUnknown, fun k => mergeOption_comm (x.groups k),
      add_comm x.projectGroups, Set.union_comm x.partialReasons]
  add_assoc x y z := by
    simp only [add_def, Add.add, min_assoc, Tokens.addAssign_assoc, saturatingAdd_assoc,
      addOptionalUnits_assoc, Bool.or_assoc, mergeOption_assoc, add_assoc, Set.union_assoc]

def maskEstimator (x : Content) : Content :=
  { x with
    longContextUsageUnknown := x.longContextUsageUnknown || decide x.HasUsage
    estimatedCostUnits := 0
    apiLongContextExtraCostUnits := some 0
    groups := fun k => (x.groups k).map (·.maskEstimator)
    projectGroups := x.projectGroups.map (·.maskEstimator)
    partialReasons := x.partialReasons ∪ {"estimator_revision_changed"} }

def maskApi (x : Content) : Content :=
  { x with
    groups := fun k => (x.groups k).map (·.maskApi)
    projectGroups := x.projectGroups.map (·.maskApi)
    partialReasons := x.partialReasons ∪ {"api_pricing_catalog_changed"} }

/-- What the contents of consistent buckets satisfy. -/
structure Ok (x : Content) : Prop where
  covered : ∀ k v, x.groups k = some v → v.Covered
  extra : ∀ n, x.apiLongContextExtraCostUnits = some n → 0 < n →
    ¬ x.tokenUsage.isZero ∨ 0 < x.callCount ∨ 0 < x.estimatedCostUnits

theorem saturatingAdd_pos {w a b : Nat} (hw : 0 < w) :
    0 < saturatingAdd w a b ↔ 0 < a ∨ 0 < b := by
  have : 2 ≤ 2 ^ w := Nat.le_self_pow (by omega) 2
  unfold saturatingAdd
  omega

/-- Usage that does not need the extra units to show. -/
def HasCounts (x : Content) : Prop :=
  ¬ x.tokenUsage.isZero ∨ 0 < x.callCount ∨ 0 < x.estimatedCostUnits

theorem hasCounts_add (x y : Content) : (x + y).HasCounts ↔ x.HasCounts ∨ y.HasCounts := by
  change ¬ (x.tokenUsage.addAssign y.tokenUsage).isZero ∨
    0 < saturatingAdd 64 x.callCount y.callCount ∨
    0 < saturatingAdd 128 x.estimatedCostUnits y.estimatedCostUnits ↔ _
  unfold HasCounts
  rw [Tokens.isZero_addAssign, saturatingAdd_pos (by decide), saturatingAdd_pos (by decide)]
  tauto

theorem Ok.hasUsage_iff {x : Content} (h : x.Ok) : x.HasUsage ↔ x.HasCounts := by
  constructor
  · rintro (h' | h' | h' | ⟨n, hn, hpos⟩)
    · exact .inl h'
    · exact .inr (.inl h')
    · exact .inr (.inr h')
    · exact h.extra n hn hpos
  · rintro (h' | h' | h')
    · exact .inl h'
    · exact .inr (.inl h')
    · exact .inr (.inr (.inl h'))

theorem Ok.add {x y : Content} (hx : x.Ok) (hy : y.Ok) : (x + y).Ok := by
  refine ⟨fun k v hv => ?_, fun n hn hpos => ?_⟩
  · change mergeOption (· + ·) (x.groups k) (y.groups k) = some v at hv
    cases hxk : x.groups k with
    | none =>
      rw [hxk] at hv
      exact hy.covered k v hv
    | some a =>
      cases hyk : y.groups k with
      | none =>
        rw [hxk, hyk] at hv
        exact hx.covered k v (hxk.trans hv)
      | some b =>
        rw [hxk, hyk] at hv
        exact Option.some.inj hv ▸ (hx.covered k a hxk).add (hy.covered k b hyk)
  · change addOptionalUnits x.apiLongContextExtraCostUnits y.apiLongContextExtraCostUnits =
      some n at hn
    refine (hasCounts_add x y).2 ?_
    cases hxe : x.apiLongContextExtraCostUnits with
    | none => simp [hxe, addOptionalUnits] at hn
    | some a =>
      cases hye : y.apiLongContextExtraCostUnits with
      | none => simp [hxe, hye, addOptionalUnits] at hn
      | some b =>
        simp only [hxe, hye, addOptionalUnits, Option.bind_some, Option.map_some,
          Option.some.injEq] at hn
        rw [← hn, saturatingAdd_pos (by decide)] at hpos
        rcases hpos with hpos | hpos
        · exact .inl (hx.extra a hxe hpos)
        · exact .inr (hy.extra b hye hpos)

theorem Ok.maskEstimator {x : Content} (h : x.Ok) : x.maskEstimator.Ok := by
  refine ⟨fun k v hv => ?_, fun n hn hpos => ?_⟩
  · obtain ⟨a, ha, rfl⟩ := Option.map_eq_some_iff.1 hv
    exact h.covered k a ha
  · cases hn
    exact absurd hpos (lt_irrefl 0)

theorem Ok.maskApi {x : Content} (h : x.Ok) : x.maskApi.Ok := by
  refine ⟨fun k v hv => ?_, h.extra⟩
  obtain ⟨a, ha, rfl⟩ := Option.map_eq_some_iff.1 hv
  exact (h.covered k a ha).maskApi

/-! ## The masks -/

theorem maskEstimator_idem (x : Content) : x.maskEstimator.maskEstimator = x.maskEstimator := by
  have husage : x.maskEstimator.HasUsage → x.HasUsage := by
    rintro (h | h | h | ⟨n, hn, hpos⟩)
    · exact .inl h
    · exact .inr (.inl h)
    · exact absurd h (lt_irrefl 0)
    · cases hn
      exact absurd hpos (lt_irrefl 0)
  have hflag : (x.longContextUsageUnknown || decide x.HasUsage || decide x.maskEstimator.HasUsage) =
      (x.longContextUsageUnknown || decide x.HasUsage) := by
    by_cases h : x.HasUsage
    · simp [h]
    · simp [mt husage h]
  conv_lhs => rw [Content.maskEstimator]
  rw [show x.maskEstimator.longContextUsageUnknown =
    (x.longContextUsageUnknown || decide x.HasUsage) from rfl, hflag]
  simp only [Content.maskEstimator, Option.map_map, Multiset.map_map, Set.union_assoc,
    Set.union_self]
  rfl

theorem maskApi_idem (x : Content) : x.maskApi.maskApi = x.maskApi := by
  have hgroups : (GroupValue.maskApi ∘ GroupValue.maskApi) = GroupValue.maskApi :=
    funext GroupValue.maskApi_idem
  have hprojects : (LocalProjectUsageGroup.maskApi ∘ LocalProjectUsageGroup.maskApi) =
      LocalProjectUsageGroup.maskApi := by
    funext g
    simp [LocalProjectUsageGroup.maskApi, maskApiCostProjection]
  simp only [maskApi, Option.map_map, Multiset.map_map, Set.union_assoc, Set.union_self]
  simp only [hgroups, hprojects]

theorem mask_comm (x : Content) : x.maskEstimator.maskApi = x.maskApi.maskEstimator := by
  simp only [maskEstimator, maskApi, Option.map_map, Multiset.map_map, HasUsage, Set.union_right_comm]
  rfl

theorem mergeOption_map {f : GroupValue → GroupValue} {a b : Option GroupValue}
    (h : ∀ x y, a = some x → b = some y → f (x + y) = f x + f y) :
    (mergeOption (· + ·) a b).map f = mergeOption (· + ·) (a.map f) (b.map f) := by
  cases a with
  | none => cases b <;> rfl
  | some x =>
    cases b with
    | none => rfl
    | some y => exact congrArg some (h x y rfl rfl)

/-- **The estimator mask of a sum.** -/
theorem maskEstimator_add {x y : Content} (hx : x.Ok) (hy : y.Ok) :
    (x + y).maskEstimator = x.maskEstimator + y.maskEstimator := by
  have hflag : decide (x + y).HasUsage = (decide x.HasUsage || decide y.HasUsage) := by
    rw [← Bool.decide_or]
    refine decide_eq_decide.2 ?_
    rw [(hx.add hy).hasUsage_iff, hasCounts_add, hx.hasUsage_iff, hy.hasUsage_iff]
  have hgroups : ∀ k, (mergeOption (· + ·) (x.groups k) (y.groups k)).map
      GroupValue.maskEstimator = mergeOption (· + ·) ((x.groups k).map GroupValue.maskEstimator)
        ((y.groups k).map GroupValue.maskEstimator) :=
    fun k => mergeOption_map fun a b _ _ => GroupValue.maskEstimator_add a b
  rw [Content.maskEstimator, hflag]
  simp only [add_def, Add.add, Content.maskEstimator, hgroups, Multiset.map_add]
  congr 1
  · cases x.longContextUsageUnknown <;> cases y.longContextUsageUnknown <;> simp
  · ext reason
    simp only [Set.mem_union, Set.mem_singleton_iff]
    tauto

/-- **The API mask of a sum.** -/
theorem maskApi_add {x y : Content} (hx : x.Ok) (hy : y.Ok) :
    (x + y).maskApi = x.maskApi + y.maskApi := by
  have hgroups : ∀ k, (mergeOption (· + ·) (x.groups k) (y.groups k)).map
      GroupValue.maskApi = mergeOption (· + ·) ((x.groups k).map GroupValue.maskApi)
        ((y.groups k).map GroupValue.maskApi) :=
    fun k => mergeOption_map fun a b ha hb =>
      GroupValue.maskApi_add (hx.covered k a ha) (hy.covered k b hb)
  simp only [add_def, Add.add, Content.maskApi, hgroups, Multiset.map_add]
  congr 1
  ext reason
  simp only [Set.mem_union, Set.mem_singleton_iff]
  tauto

end Content

/-! ## Contents over revisions -/

/-- The contents of consistent buckets. -/
abbrev OkContent := { x : Content // x.Ok }

instance : Add OkContent := ⟨fun x y => ⟨x.1 + y.1, x.2.add y.2⟩⟩

instance : AddCommSemigroup OkContent where
  add_comm x y := Subtype.ext (add_comm x.1 y.1)
  add_assoc x y z := Subtype.ext (add_assoc x.1 y.1 z.1)

def OkContent.maskEstimator (x : OkContent) : OkContent := ⟨x.1.maskEstimator, x.2.maskEstimator⟩

def OkContent.maskApi (x : OkContent) : OkContent := ⟨x.1.maskApi, x.2.maskApi⟩

/-- The grades of a bucket: its two revisions. -/
abbrev Grades (current : Revisions) := Grade current.estimator × Grade current.apiCatalog

/-- **Contents are carried over revisions by the masks.** -/
def carried (current : Revisions) : Carry (Grades current) OkContent :=
  Carry.prod
    (Carry.ofMask OkContent.maskEstimator (fun x => Subtype.ext x.1.maskEstimator_idem)
      fun x y => Subtype.ext (Content.maskEstimator_add x.2 y.2))
    (Carry.ofMask OkContent.maskApi (fun x => Subtype.ext x.1.maskApi_idem)
      fun x y => Subtype.ext (Content.maskApi_add x.2 y.2))
    (by
      intro r s r' s' x
      simp only [Carry.ofMask]
      split_ifs
      · rfl
      · rfl
      · rfl
      · exact Subtype.ext x.1.mask_comm.symm)

end History
