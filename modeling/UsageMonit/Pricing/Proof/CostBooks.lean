import UsageMonit.Pricing.Rates

/-!
# The books of API costs balance

Each accumulator is what the calls of its key leave in an empty one (`addCalls_eq`). Without
overflow its counters are the sums of theirs (`counter_foldl`), so that the threads and the models
add up to the total. What a price promises (`Sensible`) holds of every accumulator.
-/

namespace Pricing

open Fallible Usage History Tally

variable {costs : ApiCostAccumulator}

inductive CostCounter
  | minimumPicoUsd
  | maximumPicoUsd
  | observedSamples
  | pricedSamples
  | observedTokens
  | pricedTokens
deriving DecidableEq

def CostCounter.bits : CostCounter → Nat
  | minimumPicoUsd => 128
  | maximumPicoUsd => 128
  | _ => 64

def amountCounter (amount : ApiCostAmount) : CostCounter → Nat
  | .minimumPicoUsd => amount.minimumPicoUsd
  | .maximumPicoUsd => amount.maximumPicoUsd
  | .observedSamples => amount.observedSamples
  | .pricedSamples => amount.pricedSamples
  | .observedTokens => amount.observedTokens
  | .pricedTokens => amount.pricedTokens

def ApiCostAccumulator.counter (costs : ApiCostAccumulator) (k : CostCounter) : Nat :=
  amountCounter costs.amount k

def CallCost.counter (cost : CallCost) : CostCounter → Nat
  | .minimumPicoUsd => if cost.priced then cost.minimumPicoUsd else 0
  | .maximumPicoUsd => if cost.priced then cost.maximumPicoUsd else 0
  | .observedSamples => 1
  | .pricedSamples => if cost.priced then 1 else 0
  | .observedTokens => cost.observedTokens
  | .pricedTokens => if cost.priced then cost.observedTokens else 0

section
variable {cost : CallCost} {k : CostCounter}

theorem counter_add (h : costs.counter k + cost.counter k < 2 ^ k.bits) :
    (costs.add cost).counter k = costs.counter k + cost.counter k := by
  unfold ApiCostAccumulator.counter at h ⊢
  unfold ApiCostAccumulator.add
  by_cases hpriced : cost.priced = true
  · cases k <;>
      simp only [amountCounter, CallCost.counter, CostCounter.bits, saturatingAdd, hpriced,
        if_true] at h ⊢ <;> omega
  · cases k <;>
      simp only [amountCounter, CallCost.counter, CostCounter.bits, saturatingAdd, hpriced,
        Bool.false_eq_true, if_false] at h ⊢ <;> omega

theorem ApiCostAccumulator.add_right_comm (costs : ApiCostAccumulator) (a b : CallCost) :
    (costs.add a).add b = (costs.add b).add a := by
  have hreasons : costs.partialReasons ∪ a.partialReason.toFinset ∪ a.assumptionReason.toFinset ∪
      b.partialReason.toFinset ∪ b.assumptionReason.toFinset =
      costs.partialReasons ∪ b.partialReason.toFinset ∪ b.assumptionReason.toFinset ∪
        a.partialReason.toFinset ∪ a.assumptionReason.toFinset := by
    ext reason
    simp only [Finset.mem_union]
    tauto
  unfold ApiCostAccumulator.add
  rw [hreasons]
  by_cases ha : a.priced = true <;> by_cases hb : b.priced = true <;>
    simp only [ha, hb, Bool.false_eq_true, if_true, if_false, TokenUsage.saturatingAdd_right_comm]

theorem ApiCostAccumulator.mem_reasons_add {reason : String} :
    reason ∈ (costs.add cost).partialReasons ↔
      reason ∈ costs.partialReasons ∨ cost.partialReason = some reason ∨
        cost.assumptionReason = some reason := by
  unfold ApiCostAccumulator.add
  simp only [Finset.mem_union, Option.mem_toFinset, Option.mem_def]
  tauto

end

/-! ## Prices -/

/-- The reason of a price that is a range. -/
def longContextAmbiguous : String := "api_price_long_context_ambiguous"

/-- A price is a range from a minimum to a maximum, and says so. -/
structure CallCost.Sensible (cost : CallCost) : Prop where
  minimum_le : cost.minimumPicoUsd ≤ cost.maximumPicoUsd
  ambiguous : cost.minimumPicoUsd ≠ cost.maximumPicoUsd →
    cost.partialReason = some longContextAmbiguous

section
variable (catalog : ModelCatalog) {observed price : Nat} {reason : String}
  {partialReason : Option String}

theorem sensible_unpriced : (unpriced observed reason).Sensible :=
  ⟨le_rfl, fun hne => absurd rfl hne⟩

theorem sensible_priced : (priced observed price price partialReason).Sensible :=
  ⟨le_rfl, fun hne => absurd rfl hne⟩

theorem sensible_priceAtRates (tokens : TokenUsage) (exact : Bool) (rates : ApiTierRates) :
    (priceAtRates catalog tokens exact rates).Sensible := by
  unfold priceAtRates
  dsimp only
  split
  · exact sensible_unpriced
  · cases priceTokens _ _ _ _ rates.short with
    | none => exact sensible_unpriced
    | some short =>
      dsimp only
      split
      · exact sensible_priced
      · cases rates.long with
        | flat => exact sensible_priced
        | unavailable => exact sensible_unpriced
        | published longRates =>
          dsimp only
          cases priceTokens _ _ _ _ longRates with
          | none => exact sensible_unpriced
          | some long =>
            dsimp only
            split
            · exact sensible_priced
            · exact ⟨le_trans (min_le_left _ _) (le_max_left _ _), fun _ => rfl⟩

theorem sensible_priceCallInner (call : UsageCall) : (priceCallInner catalog call).Sensible := by
  unfold priceCallInner
  cases apiModelRates catalog call.model with
  | none => exact sensible_unpriced
  | some modelRates =>
    cases serviceTierForCall call with
    | none => exact sensible_unpriced
    | some tier =>
      dsimp only
      cases tierRates modelRates tier with
      | none => exact sensible_unpriced
      | some rates =>
        split_ifs
        · exact sensible_unpriced
        · exact sensible_unpriced
        · exact sensible_priceAtRates catalog _ _ _

theorem sensible_priceCall (call : UsageCall) : (priceCall catalog call).Sensible := by
  have hinner := sensible_priceCallInner catalog call
  unfold priceCall
  split_ifs
  · exact ⟨hinner.minimum_le, hinner.ambiguous⟩
  · exact hinner

end

/-! ## Accumulators -/

/-- What an accumulator of prices promises. -/
structure ApiCostAccumulator.Sensible (costs : ApiCostAccumulator) : Prop where
  minimum_le : costs.amount.minimumPicoUsd ≤ costs.amount.maximumPicoUsd
  samples_le : costs.amount.pricedSamples ≤ costs.amount.observedSamples
  tokens_le : costs.amount.pricedTokens ≤ costs.amount.observedTokens
  samples_lt : costs.amount.observedSamples < 2 ^ 64
  tokens_lt : costs.amount.observedTokens < 2 ^ 64
  ambiguous : costs.amount.minimumPicoUsd ≠ costs.amount.maximumPicoUsd →
    longContextAmbiguous ∈ costs.partialReasons

section
variable {cost : CallCost}

theorem ApiCostAccumulator.sensible_empty : ApiCostAccumulator.Sensible {} :=
  ⟨le_rfl, le_rfl, le_rfl, Nat.two_pow_pos 64, Nat.two_pow_pos 64, fun hne => absurd rfl hne⟩

theorem ApiCostAccumulator.Sensible.add (h : costs.Sensible) (hcost : cost.Sensible) :
    (costs.add cost).Sensible := by
  obtain ⟨hmin, hsamples, htokens, hsamplesLt, htokensLt, hambiguous⟩ := h
  have hcostMin := hcost.minimum_le
  by_cases hpriced : cost.priced = true
  · refine ⟨?_, ?_, ?_, ?_, ?_, fun hne => ?_⟩
    iterate 5
      simp only [ApiCostAccumulator.add, saturatingAdd, hpriced, if_true]
      omega
    rw [ApiCostAccumulator.mem_reasons_add]
    simp only [ApiCostAccumulator.add, saturatingAdd, hpriced, if_true] at hne
    -- The sums differ, so the sums so far do or the two ends of the price do.
    by_cases heq : costs.amount.minimumPicoUsd = costs.amount.maximumPicoUsd
    · refine .inr (.inl (hcost.ambiguous fun hends => ?_))
      apply hne
      rw [heq, hends]
    · exact .inl (hambiguous heq)
  · refine ⟨?_, ?_, ?_, ?_, ?_, fun hne => ?_⟩
    iterate 5
      simp only [ApiCostAccumulator.add, saturatingAdd, hpriced, Bool.false_eq_true, if_false]
      omega
    rw [ApiCostAccumulator.mem_reasons_add]
    simp only [ApiCostAccumulator.add, hpriced, Bool.false_eq_true, if_false] at hne
    exact .inl (hambiguous hne)

theorem ApiCostAccumulator.Sensible.foldl {catalog : ModelCatalog} (h : costs.Sensible)
    (calls : List UsageCall) :
    (calls.foldl (ApiCostAccumulator.addCall catalog) costs).Sensible := by
  induction calls generalizing costs with
  | nil => exact h
  | cons call calls ih => exact ih (h.add (sensible_priceCall catalog call))

end

section
variable (catalog : ModelCatalog) (calls : List UsageCall)

def costSum (k : CostCounter) : Nat := (calls.map fun call => (priceCall catalog call).counter k).sum

variable {catalog calls}

/-- **Without overflow**, the calls add up. -/
theorem counter_foldl {k : CostCounter}
    (h : costs.counter k + costSum catalog calls k < 2 ^ k.bits) :
    (calls.foldl (ApiCostAccumulator.addCall catalog) costs).counter k =
      costs.counter k + costSum catalog calls k := by
  induction calls generalizing costs with
  | nil => rfl
  | cons call calls ih =>
    have hsum : costSum catalog (call :: calls) k =
        (priceCall catalog call).counter k + costSum catalog calls k := by
      simp [costSum]
    have hadd : (costs.addCall catalog call).counter k =
        costs.counter k + (priceCall catalog call).counter k := counter_add (by omega)
    rw [List.foldl_cons, ih (by omega), hadd]
    omega

theorem mem_reasons_foldl {reason : String} :
    reason ∈ (calls.foldl (ApiCostAccumulator.addCall catalog) costs).partialReasons ↔
      reason ∈ costs.partialReasons ∨ ∃ call ∈ calls,
        (priceCall catalog call).partialReason = some reason ∨
          (priceCall catalog call).assumptionReason = some reason := by
  induction calls generalizing costs with
  | nil => simp
  | cons call calls ih =>
    rw [List.foldl_cons, ih, ApiCostAccumulator.addCall, ApiCostAccumulator.mem_reasons_add,
      List.exists_mem_cons_iff, or_assoc]

end

/-! ## The books -/

namespace ApiCostAggregation

/-- The accumulators of the keys of the calls. -/
def accumulated {κ : Type} [LinearOrder κ] (catalog : ModelCatalog) (key : UsageCall → κ)
    (calls : List UsageCall) : List (κ × ApiCostAccumulator) :=
  tally {} key (ApiCostAccumulator.addCall catalog) [] calls

def turnKey (call : UsageCall) : String ×ₗ String := toLex (call.threadId, call.turnId.getD "")

section
variable {catalog : ModelCatalog} {calls : List UsageCall}

theorem foldl_addCall (books : ApiCostAggregation) :
    calls.foldl (addCall catalog) books =
      { total := calls.foldl (ApiCostAccumulator.addCall catalog) books.total
        threads := tally {} (·.threadId) (ApiCostAccumulator.addCall catalog) books.threads calls
        turns := tally {} turnKey (ApiCostAccumulator.addCall catalog) books.turns
          (calls.filter (·.turnId.isSome))
        models := tally {} modelName (ApiCostAccumulator.addCall catalog) books.models calls } := by
  induction calls generalizing books with
  | nil => rfl
  | cons call calls ih =>
    rw [List.foldl_cons, ih]
    have hturns : tally {} turnKey (ApiCostAccumulator.addCall catalog)
        (addCall catalog books call).turns (calls.filter (·.turnId.isSome)) =
        tally {} turnKey (ApiCostAccumulator.addCall catalog) books.turns
          ((call :: calls).filter (·.turnId.isSome)) := by
      cases hturn : call.turnId with
      | none =>
        simp [addCall, hturn]
      | some turnId =>
        simp [addCall, hturn, tally, turnKey, ApiCostAccumulator.addCall]
    rw [hturns]
    rfl

/-- **The books** keep the accumulators of the threads, the turns and the models of the calls. -/
theorem addCalls_eq (catalog : ModelCatalog) (calls : List UsageCall) : addCalls catalog calls =
    { total := calls.foldl (ApiCostAccumulator.addCall catalog) {}
      threads := accumulated catalog (·.threadId) calls
      turns := accumulated catalog turnKey (calls.filter (·.turnId.isSome))
      models := accumulated catalog modelName calls } := foldl_addCall {}

section
variable {κ : Type} [LinearOrder κ] {key : UsageCall → κ}

theorem keyed_accumulated : Keyed (accumulated catalog key calls) :=
  keyed_tally .nil _ _ _ _

theorem sensible_accumulated (h : costs ∈ (accumulated catalog key calls).map Prod.snd) :
    costs.Sensible := by
  obtain ⟨e, he, rfl⟩ := List.mem_map.1 h
  rw [value_tally .nil (fun _ hmem => absurd hmem List.not_mem_nil) he]
  exact ApiCostAccumulator.sensible_empty.foldl _

theorem sum_accumulated {k : CostCounter} (h : costSum catalog calls k < 2 ^ k.bits) :
    ((accumulated catalog key calls).map fun e => e.2.counter k).sum = costSum catalog calls k := by
  refine sum_tally (ApiCostAccumulator.counter · k) (fun call => (priceCall catalog call).counter k) .nil
    (fun _ hmem => absurd hmem List.not_mem_nil) fun key' => ?_
  have hle : costSum catalog (itemsOf key key' calls) k ≤ costSum catalog calls k :=
    sum_itemsOf_le key _ key' calls
  have hzero : ApiCostAccumulator.counter {} k = 0 := by cases k <;> rfl
  rw [counter_foldl (by omega), hzero, Nat.zero_add]
  rfl

theorem reasons_accumulated {reason : String} :
    (∃ e ∈ accumulated catalog key calls, reason ∈ e.2.partialReasons) ↔
      reason ∈ (calls.foldl (ApiCostAccumulator.addCall catalog) {}).partialReasons := by
  have hvalue : ∀ e ∈ accumulated catalog key calls,
      e.2 = (itemsOf key e.1 calls).foldl (ApiCostAccumulator.addCall catalog) {} := fun e he =>
    value_tally .nil (fun _ hmem => absurd hmem List.not_mem_nil) he
  rw [mem_reasons_foldl]
  constructor
  · rintro ⟨e, he, hreason⟩
    rw [hvalue e he, mem_reasons_foldl] at hreason
    refine hreason.imp id ?_
    rintro ⟨call, hcall, hreason⟩
    exact ⟨call, (mem_itemsOf.1 hcall).1, hreason⟩
  · rintro (hnone | ⟨call, hcall, hreason⟩)
    · exact absurd hnone (Finset.notMem_empty _)
    · have hkey : key call ∈ (accumulated catalog key calls).map Prod.fst :=
        mem_keys_tally.2 (.inr ⟨call, hcall, rfl⟩)
      obtain ⟨e, he, hkey⟩ := List.mem_map.1 hkey
      refine ⟨e, he, ?_⟩
      rw [hvalue e he, mem_reasons_foldl]
      exact .inr ⟨call, mem_itemsOf.2 ⟨hcall, hkey.symm⟩, hreason⟩

end

/-- The bounds of an amount. -/
def bounds (amount : ApiCostAmount) : Nat × Nat := (amount.minimumPicoUsd, amount.maximumPicoUsd)

theorem bounds_add {cost : CallCost} (h : cost.priced = false) :
    bounds (costs.add cost).amount = bounds costs.amount := by
  simp [bounds, ApiCostAccumulator.add, h]

theorem bounds_entry {κ : Type} [LinearOrder κ] {m : List (κ × ApiCostAccumulator)} (hm : Keyed m)
    {cost : CallCost} (h : cost.priced = false) (k k' : κ) :
    bounds (((valueOf k' (entry {} k (·.add cost) m)).map (·.amount)).getD {}) =
      bounds (((valueOf k' m).map (·.amount)).getD {}) := by
  rw [hm.valueOf_entry]
  split_ifs with hk
  · subst hk
    rw [Option.map_some, Option.getD_some, bounds_add h]
    cases valueOf k m <;> rfl
  · rfl

theorem addCalls_concat (call : UsageCall) :
    addCalls catalog (calls ++ [call]) = addCall catalog (addCalls catalog calls) call := by
  simp [addCalls]

end

theorem addCalls_perm {catalog : ModelCatalog} {calls calls' : List UsageCall}
    (hperm : calls.Perm calls') : addCalls catalog calls' = addCalls catalog calls := by
  have hcomm : ∀ (costs : ApiCostAccumulator) (a b : UsageCall),
      (costs.addCall catalog a).addCall catalog b = (costs.addCall catalog b).addCall catalog a :=
    fun costs a b => costs.add_right_comm _ _
  have hright : RightCommutative (ApiCostAccumulator.addCall catalog) := ⟨hcomm⟩
  rw [addCalls_eq, addCalls_eq, hperm.foldl_eq]
  unfold accumulated
  rw [tally_perm .nil hperm hcomm, tally_perm .nil hperm hcomm,
    tally_perm .nil (hperm.filter _) hcomm]

/-- **The books balance.** The models and the threads sum to the total, the turns to at most the
total, every accumulator is sensible, a call without a price costs nothing, and the order of the
calls does not matter. -/
theorem cost_books_balance (catalog : ModelCatalog) (calls : List UsageCall)
    (hroom : ∀ k, costSum catalog calls k < 2 ^ k.bits) :
    let books := addCalls catalog calls
    (∀ k, (books.models.map fun e => e.2.counter k).sum = books.total.counter k ∧
      (books.threads.map fun e => e.2.counter k).sum = books.total.counter k ∧
      (books.turns.map fun e => e.2.counter k).sum ≤ books.total.counter k) ∧
    (∀ reason, (reason ∈ books.total.partialReasons ↔
        ∃ e ∈ books.models, reason ∈ e.2.partialReasons) ∧
      (reason ∈ books.total.partialReasons ↔
        ∃ e ∈ books.threads, reason ∈ e.2.partialReasons)) ∧
    (∀ costs ∈ books.accumulators, costs.Sensible) ∧
    (∀ call, (priceCall catalog call).priced = false →
      let after := addCalls catalog (calls ++ [call])
      bounds after.total.amount = bounds books.total.amount ∧
      (∀ threadId, bounds (after.thread threadId) = bounds (books.thread threadId)) ∧
      (∀ threadId turnId,
        bounds (after.turn threadId turnId) = bounds (books.turn threadId turnId)) ∧
      ∀ name, bounds (after.model name) = bounds (books.model name)) ∧
    ∀ calls', calls.Perm calls' → addCalls catalog calls' = books := by
  intro books
  have hbooks : books = _ := addCalls_eq catalog calls
  have hzero : ∀ k, ApiCostAccumulator.counter {} k = 0 := fun k => by cases k <;> rfl
  have htotal : ∀ k, books.total.counter k = costSum catalog calls k := fun k => by
    rw [hbooks]
    dsimp only
    rw [counter_foldl (by rw [hzero, Nat.zero_add]; exact hroom k), hzero, Nat.zero_add]
  refine ⟨fun k => ⟨?_, ?_, ?_⟩, fun reason => ⟨?_, ?_⟩, fun costs hcosts => ?_, ?_, ?_⟩
  · rw [htotal, hbooks]
    exact sum_accumulated (hroom k)
  · rw [htotal, hbooks]
    exact sum_accumulated (hroom k)
  · -- The calls of the turns are some of the calls.
    have hle : costSum catalog (calls.filter (·.turnId.isSome)) k ≤ costSum catalog calls k :=
      (List.filter_sublist.map _).sum_le_sum fun _ _ => Nat.zero_le _
    rw [htotal, hbooks]
    dsimp only
    rw [sum_accumulated (lt_of_le_of_lt hle (hroom k))]
    exact hle
  · rw [hbooks]
    exact reasons_accumulated.symm
  · rw [hbooks]
    exact reasons_accumulated.symm
  · rw [hbooks] at hcosts
    simp only [accumulators, List.mem_cons, List.mem_append] at hcosts
    rcases hcosts with rfl | (hthread | hturn) | hmodel
    · exact ApiCostAccumulator.sensible_empty.foldl calls
    · exact sensible_accumulated hthread
    · exact sensible_accumulated hturn
    · exact sensible_accumulated hmodel
  · intro call hcall after
    have hafter : after = addCall catalog books call := addCalls_concat call
    have hkeyed : Keyed books.threads ∧ Keyed books.turns ∧ Keyed books.models := by
      rw [hbooks]
      exact ⟨keyed_accumulated, keyed_accumulated, keyed_accumulated⟩
    obtain ⟨hthreads, hturns, hmodels⟩ := hkeyed
    rw [hafter]
    refine ⟨bounds_add hcall, fun threadId => ?_, fun threadId turnId => ?_, fun name => ?_⟩
    · exact bounds_entry hthreads hcall _ _
    · unfold turn addCall
      dsimp only
      cases call.turnId with
      | none => rfl
      | some own => exact bounds_entry hturns hcall _ _
    · exact bounds_entry hmodels hcall _ _
  · exact fun _ hperm => addCalls_perm hperm

namespace Sample

def tier : ApiTierRates where
  short := ⟨2, 1, none, 8⟩
  long := .published ⟨4, 2, none, 12⟩

def catalog : ModelCatalog where
  estimatorRevision := 1
  apiPricingCatalogRevision := 1
  longContextInputThreshold := 100
  creditFallbackModel := "gpt-5.5"
  models := fun name =>
    if name = "gpt-5.5" then some ⟨some ⟨⟨1, 1, 1⟩, some ⟨2, 2, 2⟩, true⟩, some ⟨tier, none⟩⟩
    else none
  creditFallback := ⟨⟨1, 1, 1⟩, some ⟨2, 2, 2⟩, true⟩
  fastCreditFallback := ⟨2, 2, 2⟩
  fallback_available := ⟨rfl, rfl⟩

def call (turnId : Option String) (model : String) (input : Nat) : UsageCall where
  timestamp := 0
  threadId := "root"
  turnId := turnId
  usageEventId := none
  usageEventIdentityExact := false
  model := some model
  serviceTier := some "default"
  tokens := ⟨input, 0, 0, 10, 0, 0, input + 10⟩
  requestUsageExact := false

/-- A short call, a call that may be charged at either rate, and one of an unknown model. -/
def calls : List UsageCall :=
  [call (some "turn") "gpt-5.5" 50, call none "GPT-5.5 " 150, call (some "turn") "other" 20]

end Sample

open Pricing.ApiCostAggregation.Sample in
theorem cost_books_balance_sample :
    bounds (addCalls catalog calls).total.amount = (560, 900) ∧
      ((addCalls catalog calls).models.map fun e => e.2.counter .maximumPicoUsd).sum = 900 ∧
      (addCalls catalog calls).turns.map (bounds ·.2.amount) = [(180, 180)] ∧
      addCalls catalog calls.reverse = addCalls catalog calls := by
  have hroom : ∀ k, costSum catalog calls k < 2 ^ k.bits := by
    rintro (_ | _ | _ | _ | _ | _) <;> decide +kernel
  obtain ⟨hsums, -, -, -, horder⟩ := cost_books_balance catalog calls hroom
  refine ⟨by decide +kernel, ?_, by decide +kernel, horder _ (List.reverse_perm _).symm⟩
  rw [(hsums .maximumPicoUsd).1]
  decide +kernel

end ApiCostAggregation

end Pricing
