import Mathlib.Algebra.BigOperators.Ring.Finset
import UsageMonit.Attribution.Window
import UsageMonit.Pricing.Config
import UsageMonit.Pricing.Proof.CostBooks

/-!
# The shares of a window add up

The whole window and every thread, turn and model weigh their calls in the same way (`weigh`), a
Spark call not at all (`addCalls_eq`). Without overflow the threads and the models therefore sum to
the window (`sum_groups`), and their shares to its percentage (`sum_shares`).
-/

namespace Attribution

open Fallible Time Usage History Tally Pricing
open ApiCostAggregation (turnKey)

section
variable (catalog : ModelCatalog)

def weigh (usage : UsageAccumulator) (call : UsageCall) : UsageAccumulator :=
  if isSparkModel call.model then usage else usage.addCall call (estimateCallWeight catalog call)

theorem weigh_right_comm (usage : UsageAccumulator) (a b : UsageCall) :
    weigh catalog (weigh catalog usage a) b = weigh catalog (weigh catalog usage b) a := by
  unfold weigh
  split_ifs
  · rfl
  · rfl
  · rfl
  · unfold UsageAccumulator.addCall
    rw [TokenUsage.addAssign_right_comm]
    simp only [TokenUsage.saturatingAdd_right_comm]

namespace WindowAggregation

def weighed {κ : Type} [LinearOrder κ] (key : UsageCall → κ) (calls : List UsageCall) :
    List (κ × UsageAccumulator) :=
  tally {} key (weigh catalog) [] calls

/-- Whether some call that counts did something. -/
def anyCounted (used : EstimatedUsageWeight → Bool) (calls : List UsageCall) : Bool :=
  calls.any fun call => !isSparkModel call.model && used (estimateCallWeight catalog call)

theorem anyCounted_perm {calls calls' : List UsageCall} (hperm : calls.Perm calls')
    (used : EstimatedUsageWeight → Bool) :
    anyCounted catalog used calls = anyCounted catalog used calls' := by
  unfold anyCounted
  rw [Bool.eq_iff_iff, List.any_eq_true, List.any_eq_true]
  simp only [hperm.mem_iff]

theorem addCall_eq (aggregation : WindowAggregation) (call : UsageCall) :
    addCall catalog aggregation call =
      { localUsage := weigh catalog aggregation.localUsage call
        taskUsage := entry {} call.threadId (weigh catalog · call) aggregation.taskUsage
        turnUsage := turnEntry call (weigh catalog · call) aggregation.turnUsage
        modelUsage :=
          if isSparkModel call.model then aggregation.modelUsage
          else entry {} (modelName call) (weigh catalog · call) aggregation.modelUsage
        usedModelFallback :=
          aggregation.usedModelFallback || anyCounted catalog (·.usedModelFallback) [call]
        usedTokenBreakdownFallback := aggregation.usedTokenBreakdownFallback ||
          anyCounted catalog (·.usedTokenBreakdownFallback) [call]
        usedLongContextDetectionFallback := aggregation.usedLongContextDetectionFallback ||
          anyCounted catalog (·.usedLongContextDetectionFallback) [call]
        apiCost := aggregation.apiCost.addCall catalog call } := by
  unfold addCall weigh anyCounted
  by_cases hspark : isSparkModel call.model = true
  · simp only [hspark, if_true, List.any_cons, List.any_nil, Bool.not_true, Bool.false_and,
      Bool.or_false]
    rfl
  · simp only [hspark, Bool.false_eq_true, if_false, List.any_cons, List.any_nil, Bool.not_false,
      Bool.true_and, Bool.or_false]

theorem foldl_addCall (aggregation : WindowAggregation) (calls : List UsageCall) :
    calls.foldl (addCall catalog) aggregation =
      { localUsage := calls.foldl (weigh catalog) aggregation.localUsage
        taskUsage := tally {} (·.threadId) (weigh catalog) aggregation.taskUsage calls
        turnUsage := tally {} turnKey (weigh catalog) aggregation.turnUsage
          (calls.filter (·.turnId.isSome))
        modelUsage := tally {} modelName (weigh catalog) aggregation.modelUsage
          (calls.filter (!isSparkModel ·.model))
        usedModelFallback :=
          aggregation.usedModelFallback || anyCounted catalog (·.usedModelFallback) calls
        usedTokenBreakdownFallback := aggregation.usedTokenBreakdownFallback ||
          anyCounted catalog (·.usedTokenBreakdownFallback) calls
        usedLongContextDetectionFallback := aggregation.usedLongContextDetectionFallback ||
          anyCounted catalog (·.usedLongContextDetectionFallback) calls
        apiCost := calls.foldl (ApiCostAggregation.addCall catalog) aggregation.apiCost } := by
  induction calls generalizing aggregation with
  | nil => simp [anyCounted, tally]
  | cons call calls ih =>
    have hturns : tally {} turnKey (weigh catalog)
        (turnEntry call (weigh catalog · call) aggregation.turnUsage)
          (calls.filter (·.turnId.isSome)) =
        tally {} turnKey (weigh catalog) aggregation.turnUsage
          ((call :: calls).filter (·.turnId.isSome)) := by
      cases hturn : call.turnId with
      | none => simp [turnEntry, hturn]
      | some turnId => simp [turnEntry, hturn, tally, turnKey]
    have hmodels : tally {} modelName (weigh catalog)
        (if isSparkModel call.model then aggregation.modelUsage
          else entry {} (modelName call) (weigh catalog · call) aggregation.modelUsage)
          (calls.filter (!isSparkModel ·.model)) =
        tally {} modelName (weigh catalog) aggregation.modelUsage
          ((call :: calls).filter (!isSparkModel ·.model)) := by
      by_cases hspark : isSparkModel call.model = true <;> simp [hspark, tally]
    have hany : ∀ used, anyCounted catalog used (call :: calls) =
        (anyCounted catalog used [call] || anyCounted catalog used calls) := fun used => by
      simp [anyCounted]
    rw [List.foldl_cons, ih, addCall_eq]
    rw [hturns, hmodels, hany, hany, hany, Bool.or_assoc, Bool.or_assoc, Bool.or_assoc]
    rfl

/-- **A window** weighs its calls together and by thread, turn and model. -/
theorem addCalls_eq (calls : List UsageCall) : addCalls catalog calls =
    { localUsage := calls.foldl (weigh catalog) {}
      taskUsage := weighed catalog (·.threadId) calls
      turnUsage := weighed catalog turnKey (calls.filter (·.turnId.isSome))
      modelUsage := weighed catalog modelName (calls.filter (!isSparkModel ·.model))
      usedModelFallback := anyCounted catalog (·.usedModelFallback) calls
      usedTokenBreakdownFallback := anyCounted catalog (·.usedTokenBreakdownFallback) calls
      usedLongContextDetectionFallback :=
        anyCounted catalog (·.usedLongContextDetectionFallback) calls
      apiCost := ApiCostAggregation.addCalls catalog calls } := foldl_addCall catalog {} calls

end WindowAggregation

/-! ## Sums -/

inductive UsageCounter
  | totalTokens
  | estimatedCostUnits
  | apiLongContextExtraCostUnits
deriving DecidableEq

def UsageCounter.bits : UsageCounter → Nat
  | totalTokens => 64
  | _ => 128

def UsageAccumulator.counter (usage : UsageAccumulator) : UsageCounter → Nat
  | .totalTokens => usage.tokens.totalTokens
  | .estimatedCostUnits => usage.estimatedCostUnits
  | .apiLongContextExtraCostUnits => usage.apiLongContextExtraCostUnits

/-- What a call adds to a counter. -/
def callCounter (call : UsageCall) (k : UsageCounter) : Nat :=
  if isSparkModel call.model then 0
  else
    match k with
    | .totalTokens => call.tokens.totalTokens
    | .estimatedCostUnits => (estimateCallWeight catalog call).units
    | .apiLongContextExtraCostUnits => (estimateCallWeight catalog call).apiLongContextExtraUnits

def usageSum (calls : List UsageCall) (k : UsageCounter) : Nat :=
  (calls.map fun call => callCounter catalog call k).sum

variable {catalog} {calls : List UsageCall} {usage : UsageAccumulator} {k : UsageCounter}

theorem counter_weigh {call : UsageCall}
    (h : usage.counter k + callCounter catalog call k < 2 ^ k.bits) :
    (weigh catalog usage call).counter k = usage.counter k + callCounter catalog call k := by
  unfold weigh callCounter at *
  split_ifs at h ⊢
  · rfl
  · cases k <;>
      simp only [UsageAccumulator.counter, UsageAccumulator.addCall, TokenUsage.addAssign,
        UsageCounter.bits, saturatingAdd] at h ⊢ <;> omega

/-- **Without overflow**, the calls add up. -/
theorem counter_foldl_weigh (h : usage.counter k + usageSum catalog calls k < 2 ^ k.bits) :
    (calls.foldl (weigh catalog) usage).counter k =
      usage.counter k + usageSum catalog calls k := by
  induction calls generalizing usage with
  | nil => rfl
  | cons call calls ih =>
    have hsum : usageSum catalog (call :: calls) k =
        callCounter catalog call k + usageSum catalog calls k := by
      simp [usageSum]
    have hweigh : (weigh catalog usage call).counter k =
        usage.counter k + callCounter catalog call k := counter_weigh (by omega)
    rw [List.foldl_cons, ih (by omega), hweigh]
    omega

theorem units_foldl_weigh (h : usage.estimatedCostUnits < 2 ^ 128) :
    (calls.foldl (weigh catalog) usage).estimatedCostUnits < 2 ^ 128 := by
  induction calls generalizing usage with
  | nil => exact h
  | cons call calls ih =>
    refine ih ?_
    unfold weigh
    split_ifs
    · exact h
    · simp only [UsageAccumulator.addCall, saturatingAdd]
      omega

/-- The long-context rates only add units. -/
theorem units_le_projected (h : usage.estimatedCostUnits < 2 ^ 128) :
    usage.projectedCostUnits false ≤ usage.projectedCostUnits true := by
  simp only [UsageAccumulator.projectedCostUnits, Bool.false_eq_true, if_false, if_true,
    saturatingAdd]
  omega

theorem projected_eq {apiLongContext : Bool}
    (h : usage.counter .estimatedCostUnits + usage.counter .apiLongContextExtraCostUnits < 2 ^ 128) :
    usage.projectedCostUnits apiLongContext = usage.counter .estimatedCostUnits +
      if apiLongContext then usage.counter .apiLongContextExtraCostUnits else 0 := by
  simp only [UsageAccumulator.counter] at h ⊢
  cases apiLongContext <;>
    simp only [UsageAccumulator.projectedCostUnits, saturatingAdd, if_true, if_false,
      Bool.false_eq_true] <;> omega

/-- A window has room for its calls: no sum saturates. -/
structure Room (catalog : ModelCatalog) (calls : List UsageCall) : Prop where
  tokens : usageSum catalog calls .totalTokens < 2 ^ 64
  units : usageSum catalog calls .estimatedCostUnits +
    usageSum catalog calls .apiLongContextExtraCostUnits < 2 ^ 128

theorem Room.counter (h : Room catalog calls) (k : UsageCounter) :
    usageSum catalog calls k < 2 ^ k.bits := by
  obtain ⟨htokens, hunits⟩ := h
  cases k <;> simp only [UsageCounter.bits] <;> omega

theorem Room.mono {calls' : List UsageCall} (h : Room catalog calls')
    (hle : ∀ k, usageSum catalog calls k ≤ usageSum catalog calls' k) : Room catalog calls := by
  obtain ⟨htokens, hunits⟩ := h
  have h1 := hle .totalTokens
  have h2 := hle .estimatedCostUnits
  have h3 := hle .apiLongContextExtraCostUnits
  exact ⟨by omega, by omega⟩

theorem counter_empty (k : UsageCounter) : UsageAccumulator.counter {} k = 0 := by
  cases k <;> rfl

theorem Room.counter_foldl (h : Room catalog calls) (k : UsageCounter) :
    (calls.foldl (weigh catalog) {}).counter k = usageSum catalog calls k := by
  have hroom := h.counter k
  rw [counter_foldl_weigh (by rw [counter_empty]; omega), counter_empty, Nat.zero_add]

/-- What the calls add to the units of a projection. -/
def projectedSum (catalog : ModelCatalog) (calls : List UsageCall) (apiLongContext : Bool) : Nat :=
  usageSum catalog calls .estimatedCostUnits +
    if apiLongContext then usageSum catalog calls .apiLongContextExtraCostUnits else 0

theorem Room.projected_foldl (h : Room catalog calls) (apiLongContext : Bool) :
    (calls.foldl (weigh catalog) {}).projectedCostUnits apiLongContext =
      projectedSum catalog calls apiLongContext := by
  have hunits := h.units
  rw [projected_eq (by rw [h.counter_foldl, h.counter_foldl]; exact hunits), h.counter_foldl,
    h.counter_foldl]
  rfl

theorem projectedSum_eq_sum (apiLongContext : Bool) : projectedSum catalog calls apiLongContext =
    (calls.map fun call => callCounter catalog call .estimatedCostUnits +
      if apiLongContext then callCounter catalog call .apiLongContextExtraCostUnits else 0).sum := by
  unfold projectedSum usageSum
  rw [List.sum_map_add]
  cases apiLongContext <;> simp

section
variable {κ : Type} [LinearOrder κ] {key : UsageCall → κ}

theorem Room.itemsOf (h : Room catalog calls) (k : κ) : Room catalog (itemsOf key k calls) :=
  h.mono fun counter => sum_itemsOf_le key (callCounter catalog · counter) k calls

/-- **The groups sum to the window**, in tokens and in units. -/
theorem sum_groups (h : Room catalog calls) :
    ((WindowAggregation.weighed catalog key calls).map fun e => e.2.tokens.totalTokens).sum =
      usageSum catalog calls .totalTokens ∧
    ∀ apiLongContext,
      ((WindowAggregation.weighed catalog key calls).map fun e =>
        e.2.projectedCostUnits apiLongContext).sum = projectedSum catalog calls apiLongContext := by
  refine ⟨?_, fun apiLongContext => ?_⟩
  · refine sum_tally (UsageAccumulator.counter · .totalTokens) (callCounter catalog · .totalTokens) .nil
      (fun _ hmem => absurd hmem List.not_mem_nil) fun k => ?_
    exact (h.itemsOf k).counter_foldl .totalTokens
  · rw [projectedSum_eq_sum]
    refine sum_tally (UsageAccumulator.projectedCostUnits · apiLongContext) _ .nil
      (fun _ hmem => absurd hmem List.not_mem_nil) fun k => ?_
    rw [(h.itemsOf k).projected_foldl, projectedSum_eq_sum]

theorem units_weighed {usage : UsageAccumulator}
    (h : usage ∈ (WindowAggregation.weighed catalog key calls).map Prod.snd) :
    usage.estimatedCostUnits < 2 ^ 128 := by
  obtain ⟨e, he, rfl⟩ := List.mem_map.1 h
  rw [value_tally .nil (fun _ hmem => absurd hmem List.not_mem_nil) he]
  exact units_foldl_weigh (Nat.two_pow_pos 128)

end

theorem usageSum_counted :
    usageSum catalog (calls.filter (!isSparkModel ·.model)) k = usageSum catalog calls k := by
  unfold usageSum
  induction calls with
  | nil => rfl
  | cons call calls ih =>
    by_cases hspark : isSparkModel call.model = true
    · rw [List.filter_cons_of_neg (by simp [hspark]), ih, List.map_cons, List.sum_cons]
      simp [callCounter, hspark]
    · rw [List.filter_cons_of_pos (by simp [hspark]), List.map_cons, List.sum_cons, ih,
        List.map_cons, List.sum_cons]

/-! ## Shares -/

section
variable {γ : Type} {groups : List γ} {total : Nat}

theorem sum_scaled {part : γ → Nat} (hsum : (groups.map part).sum = total) (hpos : total ≠ 0)
    (scale : ℚ) : (groups.map fun g => scale * ((part g : ℚ) / total)).sum = scale := by
  have hne : (total : ℚ) ≠ 0 := Nat.cast_ne_zero.2 hpos
  have hcast : (groups.map fun g => (part g : ℚ)).sum = total := by
    rw [← hsum, Nat.cast_list_sum, List.map_map]
    rfl
  calc (groups.map fun g => scale * ((part g : ℚ) / total)).sum
      = (groups.map fun g => scale / total * (part g : ℚ)).sum := by
        refine congrArg List.sum (List.map_congr_left fun g _ => ?_)
        ring
    _ = scale / total * (groups.map fun g => (part g : ℚ)).sum := List.sum_map_mul_left _ _ _
    _ = scale := by rw [hcast, div_mul_cancel₀ _ hne]

theorem sum_costShare {units : γ → Nat} (hsum : (groups.map units).sum = total) (hpos : total ≠ 0)
    (usedPercent : ℚ) :
    (groups.map fun g => usedPercent * costShare (units g) total / 100).sum = usedPercent := by
  refine Eq.trans ?_ (sum_scaled hsum hpos usedPercent)
  refine congrArg List.sum (List.map_congr_left fun g _ => ?_)
  unfold costShare
  rw [if_neg hpos]
  ring

theorem sum_tokenShare {tokens : γ → TokenUsage}
    (hsum : (groups.map fun g => (tokens g).totalTokens).sum = total) (hpos : total ≠ 0) :
    (groups.map fun g => tokenShare (tokens g) total).sum = 100 := by
  refine Eq.trans ?_ (sum_scaled hsum hpos 100)
  refine congrArg List.sum (List.map_congr_left fun g _ => ?_)
  unfold tokenShare
  rw [if_neg hpos]
  ring

end

/-- The accumulators of a window. -/
def WindowAggregation.accumulators (aggregation : WindowAggregation) : List UsageAccumulator :=
  aggregation.localUsage :: (aggregation.taskUsage.map Prod.snd ++
    aggregation.turnUsage.map Prod.snd ++ aggregation.modelUsage.map Prod.snd)

def usageOf {κ : Type} [LinearOrder κ] (k : κ) (m : List (κ × UsageAccumulator)) :
    UsageAccumulator :=
  (valueOf k m).getD {}

/-- The groups of a window, the window and the two projections of their units. -/
structure Balanced (aggregation : WindowAggregation) : Prop where
  thread_tokens : (aggregation.taskUsage.map fun e => e.2.tokens.totalTokens).sum =
    aggregation.localUsage.tokens.totalTokens
  model_tokens : (aggregation.modelUsage.map fun e => e.2.tokens.totalTokens).sum =
    aggregation.localUsage.tokens.totalTokens
  thread_units : ∀ apiLongContext,
    (aggregation.taskUsage.map fun e => e.2.projectedCostUnits apiLongContext).sum =
      aggregation.localUsage.projectedCostUnits apiLongContext
  model_units : ∀ apiLongContext,
    (aggregation.modelUsage.map fun e => e.2.projectedCostUnits apiLongContext).sum =
      aggregation.localUsage.projectedCostUnits apiLongContext

/-- The shares of the threads and of the models sum up, unless there is nothing to share. -/
structure Shared (selected : SelectedWindow) (aggregation : WindowAggregation)
    (apiLongContext : Bool) (analysis : WindowAnalysis) : Prop where
  thread_quota : aggregation.localUsage.projectedCostUnits apiLongContext ≠ 0 →
    (analysis.threads.map (·.usage.estimatedQuotaPercent)).sum =
      max 0 (min selected.window.usedPercent 100)
  model_quota : aggregation.localUsage.projectedCostUnits apiLongContext ≠ 0 →
    (analysis.models.map (·.estimatedQuotaPercent)).sum =
      max 0 (min selected.window.usedPercent 100)
  thread_tokens : aggregation.localUsage.tokens.totalTokens ≠ 0 →
    (analysis.threads.map (·.usage.localTokenSharePercent)).sum = 100
  model_tokens : aggregation.localUsage.tokens.totalTokens ≠ 0 →
    (analysis.models.map (·.localTokenSharePercent)).sum = 100

theorem shared_buildWindowAnalysis {aggregation : WindowAggregation} (h : Balanced aggregation)
    (selected : SelectedWindow) (settled apiLongContext stale : Bool) :
    Shared selected aggregation apiLongContext
      (buildWindowAnalysis selected settled apiLongContext aggregation stale) := by
  refine ⟨fun hpos => ?_, fun hpos => ?_, fun hpos => ?_, fun hpos => ?_⟩
  · rw [buildWindowAnalysis, List.map_map]
    exact sum_costShare (h.thread_units apiLongContext) hpos _
  · rw [buildWindowAnalysis, List.map_map]
    exact sum_costShare (h.model_units apiLongContext) hpos _
  · rw [buildWindowAnalysis, List.map_map]
    exact sum_tokenShare h.thread_tokens hpos
  · rw [buildWindowAnalysis, List.map_map]
    exact sum_tokenShare h.model_tokens hpos

namespace WindowAggregation

theorem balanced_addCalls (h : Room catalog calls) : Balanced (addCalls catalog calls) := by
  have hcounted : Room catalog (calls.filter (!isSparkModel ·.model)) :=
    h.mono fun k => usageSum_counted.le
  have hprojected : ∀ apiLongContext,
      projectedSum catalog (calls.filter (!isSparkModel ·.model)) apiLongContext =
        projectedSum catalog calls apiLongContext := fun apiLongContext => by
    unfold projectedSum
    rw [usageSum_counted, usageSum_counted]
  rw [addCalls_eq]
  refine ⟨?_, ?_, fun apiLongContext => ?_, fun apiLongContext => ?_⟩
  · exact (sum_groups h).1.trans (h.counter_foldl .totalTokens).symm
  · rw [(sum_groups hcounted).1, usageSum_counted]
    exact (h.counter_foldl .totalTokens).symm
  · exact ((sum_groups h).2 apiLongContext).trans (h.projected_foldl apiLongContext).symm
  · rw [(sum_groups hcounted).2, hprojected]
    exact (h.projected_foldl apiLongContext).symm

theorem units_addCalls (calls : List UsageCall) :
    ∀ usage ∈ (addCalls catalog calls).accumulators, usage.estimatedCostUnits < 2 ^ 128 := by
  rw [addCalls_eq]
  intro usage husage
  simp only [accumulators, List.mem_cons, List.mem_append] at husage
  rcases husage with rfl | (hthread | hturn) | hmodel
  · exact units_foldl_weigh (Nat.two_pow_pos 128)
  · exact units_weighed hthread
  · exact units_weighed hturn
  · exact units_weighed hmodel

theorem addCalls_perm {calls' : List UsageCall} (hperm : calls.Perm calls') :
    addCalls catalog calls' = addCalls catalog calls := by
  have hcomm := weigh_right_comm catalog
  have hright : RightCommutative (weigh catalog) := ⟨hcomm⟩
  have hcosts : ApiCostAggregation.addCalls catalog calls' =
      ApiCostAggregation.addCalls catalog calls := ApiCostAggregation.addCalls_perm hperm
  rw [addCalls_eq, addCalls_eq, hcosts, hperm.foldl_eq, anyCounted_perm catalog hperm,
    anyCounted_perm catalog hperm, anyCounted_perm catalog hperm]
  unfold weighed
  rw [tally_perm .nil hperm hcomm, tally_perm .nil (hperm.filter _) hcomm,
    tally_perm .nil (hperm.filter _) hcomm]

/-- A Spark call costs at the API and weighs nothing. -/
structure WeighsNothing (catalog : ModelCatalog) (call : UsageCall)
    (aggregation after : WindowAggregation) : Prop where
  local_usage : after.localUsage = aggregation.localUsage
  threads : ∀ threadId, usageOf threadId after.taskUsage = usageOf threadId aggregation.taskUsage
  turns : ∀ turn, usageOf turn after.turnUsage = usageOf turn aggregation.turnUsage
  models : after.modelUsage = aggregation.modelUsage
  api_cost : after.apiCost = aggregation.apiCost.addCall catalog call

theorem usageOf_entry {κ : Type} [LinearOrder κ] {m : List (κ × UsageAccumulator)} (h : Keyed m)
    (k k' : κ) : usageOf k' (entry {} k id m) = usageOf k' m := by
  unfold usageOf
  rw [h.valueOf_entry]
  split_ifs with hk
  · subst hk
    rfl
  · rfl

theorem weighsNothing_of_spark {call : UsageCall} (hspark : isSparkModel call.model = true) :
    WeighsNothing catalog call (addCalls catalog calls) (addCalls catalog (calls ++ [call])) := by
  have hafter : addCalls catalog (calls ++ [call]) =
      addCall catalog (addCalls catalog calls) call := by
    simp [addCalls]
  have hkeyed : Keyed (addCalls catalog calls).taskUsage ∧
      Keyed (addCalls catalog calls).turnUsage := by
    rw [addCalls_eq]
    exact ⟨keyed_tally .nil _ _ _ _, keyed_tally .nil _ _ _ _⟩
  obtain ⟨htasks, hturns⟩ := hkeyed
  rw [hafter, addCall, if_pos hspark]
  refine ⟨rfl, fun threadId => usageOf_entry htasks _ _, fun turn => ?_, rfl, rfl⟩
  unfold turnEntry
  cases call.turnId with
  | none => rfl
  | some turnId => exact usageOf_entry hturns _ _

end WindowAggregation

end

/-- **The shares of a window add up**, as long as no sum saturates. -/
theorem attribution_shares_add_up (catalog : ModelCatalog) (calls : List UsageCall)
    (selected : SelectedWindow) (now : DateTime) (settled : Bool) :
    let aggregation := WindowAggregation.addCalls catalog (windowCalls calls selected now)
    let analysis := analyzeSelectedWindow catalog calls selected now settled
    (Room catalog (windowCalls calls selected now) → Balanced aggregation ∧
      Shared selected aggregation false analysis ∧
      ∃ projection, analysis.apiLongContext = some projection ∧
        Shared selected aggregation true projection) ∧
    (∀ usage ∈ aggregation.accumulators,
      usage.projectedCostUnits false ≤ usage.projectedCostUnits true) ∧
    (∀ call, isSparkModel call.model = true →
      WindowAggregation.WeighsNothing catalog call aggregation
        (WindowAggregation.addCalls catalog (windowCalls calls selected now ++ [call]))) ∧
    ∀ calls', calls.Perm calls' →
      analyzeSelectedWindow catalog calls' selected now settled = analysis := by
  intro aggregation analysis
  refine ⟨fun hroom => ?_, fun usage husage => ?_, fun call hspark => ?_, ?_⟩
  · have hbalanced : Balanced aggregation := WindowAggregation.balanced_addCalls hroom
    refine ⟨hbalanced, ?_, _, rfl, ?_⟩
    · have hshared := shared_buildWindowAnalysis hbalanced selected settled false
        (selected.bucket.provenance = .stale || selected.bucket.provenance = .unknown)
      exact ⟨hshared.thread_quota, hshared.model_quota, hshared.thread_tokens,
        hshared.model_tokens⟩
    · exact shared_buildWindowAnalysis hbalanced selected settled true _
  · exact units_le_projected (WindowAggregation.units_addCalls _ usage husage)
  · exact WindowAggregation.weighsNothing_of_spark hspark
  · intro calls' hperm
    have hwindow : (windowCalls calls selected now).Perm (windowCalls calls' selected now) :=
      hperm.filter _
    have hsame : WindowAggregation.addCalls catalog (windowCalls calls' selected now) =
        aggregation := WindowAggregation.addCalls_perm hwindow
    show analyzeSelectedWindow catalog calls' selected now settled =
      analyzeSelectedWindow catalog calls selected now settled
    unfold analyzeSelectedWindow
    rw [hsame]

namespace Sample

def catalog (rate : Nat) : ModelCatalog where
  estimatorRevision := 1
  apiPricingCatalogRevision := 1
  longContextInputThreshold := 20
  creditFallbackModel := "gpt-5.5"
  models := fun name =>
    if name = "gpt-5.5" then
      some ⟨some ⟨⟨rate, rate, rate⟩, some ⟨rate, rate, rate⟩, true⟩, none⟩
    else none
  creditFallback := ⟨⟨rate, rate, rate⟩, some ⟨rate, rate, rate⟩, true⟩
  fastCreditFallback := ⟨rate, rate, rate⟩
  fallback_available := ⟨rfl, rfl⟩

def selected : SelectedWindow where
  bucket := ⟨"codex", .live⟩
  window := ⟨40, some 300, some (hours 5)⟩
  startsAt := 0
  endsAt := hours 5
  durationMins := 300
  has_duration := rfl

def call (threadId model : String) (input : Nat) : UsageCall where
  timestamp := hours 1
  threadId := threadId
  turnId := some "turn"
  usageEventId := none
  usageEventIdentityExact := false
  model := some model
  serviceTier := none
  tokens := ⟨input, 0, 0, 0, 0, 0, input⟩
  requestUsageExact := true

/-- A long call, a short one, and one of a Spark model. -/
def calls : List UsageCall :=
  [call "a" "gpt-5.5" 30, call "b" "gpt-5.5" 10, call "c" "gpt-5.3-codex-spark" 5]

/-- The largest call of a configured catalog, four times in each of two threads. -/
def largeCalls : List UsageCall :=
  List.replicate 4 (call "a" "gpt-5.5" (2 ^ 64 - 1)) ++
    List.replicate 4 (call "b" "gpt-5.5" (2 ^ 64 - 1))

end Sample

open Attribution.Sample in
theorem attribution_shares_sample :
    ((analyzeSelectedWindow (catalog 1) calls selected (hours 2) true).threads.map
      (·.usage.estimatedQuotaPercent)).sum = 40 ∧
    (analyzeSelectedWindow (catalog 1) calls selected (hours 2) true).threads.map
      (·.usage.estimatedQuotaPercent) = [30, 10, 0] ∧
    ((analyzeSelectedWindow (catalog 1) calls.reverse selected (hours 2) true).apiLongContext.map
      fun projection => projection.threads.map (·.usage.estimatedQuotaPercent)) =
      some [240 / 7, 40 / 7, 0] := by
  have hroom : Room (catalog 1) (windowCalls calls selected (hours 2)) := by
    constructor <;> decide +kernel
  obtain ⟨hsums, -, -, horder⟩ :=
    attribution_shares_add_up (catalog 1) calls selected (hours 2) true
  obtain ⟨-, hshared, -⟩ := hsums hroom
  refine ⟨(hshared.thread_quota (by decide +kernel)).trans (by decide +kernel),
    by decide +kernel, ?_⟩
  rw [horder _ (List.reverse_perm _).symm]
  decide +kernel

open Attribution.Sample in
/-- The units of the window saturate before those of its threads do. -/
theorem threads_outweigh_window :
    let aggregation := WindowAggregation.addCalls (catalog maxConfiguredRateUnits)
      (windowCalls largeCalls selected (hours 2))
    (aggregation.taskUsage.map fun e => e.2.projectedCostUnits false).sum ≠
      aggregation.localUsage.projectedCostUnits false := by
  decide +kernel

end Attribution
