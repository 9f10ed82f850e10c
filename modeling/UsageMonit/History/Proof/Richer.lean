import UsageMonit.History.Proof.Upsert

/-!
# Enrichment is a strict order

A graft enriches a breakdown: it retains everything known and gains something. The comparisons it is
made of compose (`Retains`), so enrichment of project groups and of model groups is irreflexive and
transitive, and the breakdowns of a bucket are partially ordered by it (`Breakdown`): no sequence of
enrichments leads back.
-/

namespace History

/-- A comparison that composes: what is retained twice is retained, and what is gained first is
gained. -/
structure Retains {α : Type} (f : α → α → Option Bool) : Prop where
  trans : ∀ a b c, f a b ≠ none → f b c ≠ none → f a c ≠ none
  gain : ∀ a b c, f a b ≠ none → f b c = some true → f a c = some true

section
variable {α β : Type}

theorem strictlyRicher_ne_none {parts : List (Option Bool)} :
    strictlyRicher parts ≠ none ↔ ∀ part ∈ parts, part ≠ none := by
  induction parts with
  | nil => simp [strictlyRicher]
  | cons part parts ih =>
    cases part with
    | none => simp [strictlyRicher]
    | some gained => simpa [strictlyRicher] using ih

theorem strictlyRicher_eq_true {parts : List (Option Bool)} :
    strictlyRicher parts = some true ↔ (∀ part ∈ parts, part ≠ none) ∧ some true ∈ parts := by
  induction parts with
  | nil => simp [strictlyRicher]
  | cons part parts ih =>
    cases part with
    | none => simp [strictlyRicher]
    | some gained =>
      have hnone := @strictlyRicher_ne_none parts
      cases hparts : strictlyRicher parts with
      | none =>
        have : ¬ ∀ part ∈ parts, part ≠ none := fun h => hnone.2 h hparts
        simp [strictlyRicher, hparts, this]
      | some rest =>
        rw [hparts] at ih
        cases gained <;> cases rest <;> simp_all [strictlyRicher]

theorem Retains.comap {f : β → β → Option Bool} (h : Retains f) (g : α → β) :
    Retains fun a b => f (g a) (g b) :=
  ⟨fun a b c => h.trans (g a) (g b) (g c), fun a b c => h.gain (g a) (g b) (g c)⟩

theorem Retains.all {fs : List (α → α → Option Bool)} (h : ∀ f ∈ fs, Retains f) :
    Retains fun a b => strictlyRicher (fs.map fun f => f a b) := by
  have hnone (a b : α) : strictlyRicher (fs.map fun f => f a b) ≠ none ↔
      ∀ f ∈ fs, f a b ≠ none := by
    rw [strictlyRicher_ne_none]
    simp
  refine ⟨fun a b c hab hbc => ?_, fun a b c hab hbc => ?_⟩
  · rw [hnone] at hab hbc ⊢
    exact fun f hf => (h f hf).trans a b c (hab f hf) (hbc f hf)
  · rw [hnone] at hab
    rw [strictlyRicher_eq_true] at hbc ⊢
    obtain ⟨hall, hgain⟩ := hbc
    obtain ⟨f, hf, htrue⟩ := List.mem_map.1 hgain
    refine ⟨?_, List.mem_map.2 ⟨f, hf, (h f hf).gain a b c (hab f hf) htrue⟩⟩
    intro part hpart
    obtain ⟨g, hg, rfl⟩ := List.mem_map.1 hpart
    exact (h g hg).trans a b c (hab g hg) (hall _ (List.mem_map_of_mem hg))

theorem valueRetained_self [DecidableEq α] (value : Option α) :
    valueRetained value value = some false := by
  cases value <;> simp [valueRetained]

theorem countRetained_self (count : Nat) : countRetained count count = some false := by
  simp [countRetained]

theorem valueRetained_retains [DecidableEq α] : Retains (valueRetained (α := α)) := by
  constructor
  · rintro (_ | a) (_ | b) (_ | c)
    all_goals simp [valueRetained]
    grind
  · rintro (_ | a) (_ | b) (_ | c)
    all_goals simp [valueRetained]

theorem countRetained_ne_none {a b : Nat} : countRetained a b ≠ none ↔ b ≤ a := by
  simp [countRetained]

theorem countRetained_retains : Retains countRetained := by
  refine ⟨fun a b c => ?_, fun a b c hab hbc => ?_⟩
  · simp only [countRetained_ne_none]
    omega
  · rw [countRetained_ne_none] at hab
    simp only [countRetained] at hbc ⊢
    split_ifs at hbc ⊢ <;> simp at hbc ⊢ <;> omega

end

/-! ## Coverage of a price -/

def coverageComparisons : List (ApiCostAmount → ApiCostAmount → Option Bool) :=
  [fun a b => countRetained a.observedSamples b.observedSamples,
    fun a b => countRetained a.pricedSamples b.pricedSamples,
    fun a b => countRetained a.observedTokens b.observedTokens,
    fun a b => countRetained a.pricedTokens b.pricedTokens]

theorem apiCoverageRetained_eq (a b : ApiCostAmount) :
    apiCoverageRetained a b = coverageComparisons.map fun f => f a b := rfl

theorem coverageComparisons_retains : ∀ f ∈ coverageComparisons, Retains f := by
  simp only [coverageComparisons, List.forall_mem_cons, List.not_mem_nil, false_imp_iff,
    implies_true, and_true]
  exact ⟨countRetained_retains.comap ApiCostAmount.observedSamples,
    countRetained_retains.comap ApiCostAmount.pricedSamples,
    countRetained_retains.comap ApiCostAmount.observedTokens,
    countRetained_retains.comap ApiCostAmount.pricedTokens⟩

theorem apiCoverageRetained_retains : Retains fun a b => strictlyRicher (apiCoverageRetained a b) :=
  .all coverageComparisons_retains

theorem apiCoverageRetained_ne_none {a b : ApiCostAmount} :
    strictlyRicher (apiCoverageRetained a b) ≠ none ↔
      b.observedSamples ≤ a.observedSamples ∧ b.pricedSamples ≤ a.pricedSamples ∧
        b.observedTokens ≤ a.observedTokens ∧ b.pricedTokens ≤ a.pricedTokens := by
  rw [strictlyRicher_ne_none]
  simp [apiCoverageRetained, countRetained_ne_none]

/-! ## Project groups -/

def informationComparisons :
    List (LocalProjectUsageGroup → LocalProjectUsageGroup → Option Bool) :=
  [fun a b => valueRetained (informativeText a.parentThreadId) (informativeText b.parentThreadId),
    fun a b => valueRetained (informativeText a.sessionThreadId) (informativeText b.sessionThreadId),
    fun a b => valueRetained (informativeText a.sessionTurnId) (informativeText b.sessionTurnId),
    fun a b => valueRetained (informativeText a.projectId) (informativeText b.projectId),
    fun a b => valueRetained (informativeText a.projectLabel) (informativeText b.projectLabel),
    fun a b => valueRetained (informativeText a.source) (informativeText b.source),
    fun a b => valueRetained (informativeTitle a.title) (informativeTitle b.title),
    fun a b => valueRetained (informativeText a.messagePreview) (informativeText b.messagePreview),
    fun a b => valueRetained a.turnStartedAt b.turnStartedAt,
    fun a b => valueRetained a.apiLongContextExtraCostUnits b.apiLongContextExtraCostUnits] ++
    coverageComparisons.map fun f a b => f a.apiEquivalentCost b.apiEquivalentCost

theorem informationComparisons_retains : ∀ f ∈ informationComparisons, Retains f := by
  intro f hf
  rcases List.mem_append.1 hf with hf | hf
  · simp only [List.mem_cons, List.not_mem_nil, or_false] at hf
    rcases hf with rfl | rfl | rfl | rfl | rfl | rfl | rfl | rfl | rfl | rfl
    all_goals exact valueRetained_retains.comap _
  · obtain ⟨g, hg, rfl⟩ := List.mem_map.1 hf
    exact (coverageComparisons_retains g hg).comap LocalProjectUsageGroup.apiEquivalentCost

/-- Equal coverage at different amounts. -/
def AmountsConflict (a b : ApiCostAmount) : Prop :=
  (a.observedSamples = b.observedSamples ∧ a.pricedSamples = b.pricedSamples ∧
      a.observedTokens = b.observedTokens ∧ a.pricedTokens = b.pricedTokens) ∧
    (a.minimumPicoUsd ≠ b.minimumPicoUsd ∨ a.maximumPicoUsd ≠ b.maximumPicoUsd)

instance (a b : ApiCostAmount) : Decidable (AmountsConflict a b) :=
  inferInstanceAs (Decidable (_ ∧ _))

theorem AmountsConflict.not_trans {a b c : ApiCostAmount}
    (hab : strictlyRicher (apiCoverageRetained a b) ≠ none)
    (hbc : strictlyRicher (apiCoverageRetained b c) ≠ none) (hab' : ¬ AmountsConflict a b)
    (hbc' : ¬ AmountsConflict b c) : ¬ AmountsConflict a c := by
  rw [apiCoverageRetained_ne_none] at hab hbc
  unfold AmountsConflict at *
  omega

theorem projectGroupInformationDominates_eq (a b : LocalProjectUsageGroup) :
    projectGroupInformationDominates a b =
      if a.tokenUsage ≠ b.tokenUsage ∨ a.estimatedCostUnits ≠ b.estimatedCostUnits ∨
        a.callCount ≠ b.callCount then none
      else (strictlyRicher (informationComparisons.map fun f => f a b)).bind fun richer =>
        if AmountsConflict a.apiEquivalentCost b.apiEquivalentCost then none else some richer := rfl

theorem projectGroupInformationDominates_ne_none {a b : LocalProjectUsageGroup} :
    projectGroupInformationDominates a b ≠ none ↔
      (a.tokenUsage = b.tokenUsage ∧ a.estimatedCostUnits = b.estimatedCostUnits ∧
        a.callCount = b.callCount) ∧
      strictlyRicher (informationComparisons.map fun f => f a b) ≠ none ∧
      ¬ AmountsConflict a.apiEquivalentCost b.apiEquivalentCost := by
  rw [projectGroupInformationDominates_eq]
  cases strictlyRicher (informationComparisons.map fun f => f a b) with
  | none => simp
  | some richer =>
    split_ifs with hcounters <;> simp_all [Option.bind]
    intro h₁ h₂ h₃
    simp_all

theorem projectGroupInformationDominates_eq_true {a b : LocalProjectUsageGroup} :
    projectGroupInformationDominates a b = some true ↔
      projectGroupInformationDominates a b ≠ none ∧
      strictlyRicher (informationComparisons.map fun f => f a b) = some true := by
  rw [projectGroupInformationDominates_eq]
  cases strictlyRicher (informationComparisons.map fun f => f a b) with
  | none => simp
  | some richer =>
    split_ifs with hcounters <;> simp_all [Option.bind]

theorem coverage_of_information {a b : LocalProjectUsageGroup}
    (h : strictlyRicher (informationComparisons.map fun f => f a b) ≠ none) :
    strictlyRicher (apiCoverageRetained a.apiEquivalentCost b.apiEquivalentCost) ≠ none := by
  rw [strictlyRicher_ne_none] at h ⊢
  intro part hpart
  apply h
  simp only [informationComparisons, List.map_append, List.mem_append]
  exact .inr (by simpa [apiCoverageRetained_eq] using hpart)

theorem projectGroupInformationDominates_self (group : LocalProjectUsageGroup) :
    projectGroupInformationDominates group group = some false := by
  simp [projectGroupInformationDominates, apiCoverageRetained, valueRetained_self,
    countRetained_self, strictlyRicher]

theorem projectGroupInformationDominates_retains :
    Retains projectGroupInformationDominates := by
  have hparts := Retains.all informationComparisons_retains
  have htrans (a b c : LocalProjectUsageGroup)
      (hab : projectGroupInformationDominates a b ≠ none)
      (hbc : projectGroupInformationDominates b c ≠ none) :
      projectGroupInformationDominates a c ≠ none := by
    rw [projectGroupInformationDominates_ne_none] at *
    obtain ⟨⟨h₁, h₂, h₃⟩, hab, hab'⟩ := hab
    obtain ⟨⟨h₁', h₂', h₃'⟩, hbc, hbc'⟩ := hbc
    exact ⟨⟨h₁.trans h₁', h₂.trans h₂', h₃.trans h₃'⟩, hparts.trans a b c hab hbc,
      AmountsConflict.not_trans (coverage_of_information hab) (coverage_of_information hbc)
        hab' hbc'⟩
  refine ⟨htrans, fun a b c hab hbc => ?_⟩
  rw [projectGroupInformationDominates_eq_true] at hbc ⊢
  exact ⟨htrans a b c hab hbc.1,
    hparts.gain a b c (projectGroupInformationDominates_ne_none.1 hab).2.1 hbc.2⟩

/-! ## Lists of groups -/

section
variable {α κ : Type} {key : α → κ} {f : α → α → Option Bool} {as bs cs : List α}

/-- The first groups have distinct keys and retain each of the second ones. -/
def Covers (key : α → κ) (f : α → α → Option Bool) (as bs : List α) : Prop :=
  (as.map key).Nodup ∧ ∀ b ∈ bs, ∃ a ∈ as, key a = key b ∧ f a b ≠ none

/-- One of the first groups gains over the second one of its key. -/
def Gains (key : α → κ) (f : α → α → Option Bool) (as bs : List α) : Prop :=
  ∃ b ∈ bs, ∃ a ∈ as, key a = key b ∧ f a b = some true

theorem Covers.trans (hf : Retains f) (hab : Covers key f as bs) (hbc : Covers key f bs cs) :
    Covers key f as cs := by
  refine ⟨hab.1, fun c hc => ?_⟩
  obtain ⟨b, hb, hkey, hne⟩ := hbc.2 c hc
  obtain ⟨a, ha, hkey', hne'⟩ := hab.2 b hb
  exact ⟨a, ha, hkey'.trans hkey, hf.trans a b c hne' hne⟩

theorem Gains.trans (hf : Retains f) (hab : Covers key f as bs) (hbc : Gains key f bs cs) :
    Gains key f as cs := by
  obtain ⟨c, hc, b, hb, hkey, heq⟩ := hbc
  obtain ⟨a, ha, hkey', hne⟩ := hab.2 b hb
  exact ⟨c, hc, a, ha, hkey'.trans hkey, hf.gain a b c hne heq⟩

theorem Gains.irrefl (hself : ∀ a, f a a = some false) (h : (as.map key).Nodup) :
    ¬ Gains key f as as := by
  rintro ⟨b, hb, a, ha, hkey, heq⟩
  have hab : a = b := List.inj_on_of_nodup_map h ha hb hkey
  subst hab
  simp [hself] at heq

theorem Covers.length_le (hab : Covers key f as bs) (hb : (bs.map key).Nodup) :
    bs.length ≤ as.length := by
  have hsub : bs.map key ⊆ as.map key := by
    intro k hk
    obtain ⟨b, hmem, rfl⟩ := List.mem_map.1 hk
    obtain ⟨a, ha, hkey, -⟩ := hab.2 b hmem
    exact List.mem_map.2 ⟨a, ha, hkey⟩
  simpa using (List.subperm_of_subset hb hsub).length_le

variable [DecidableEq κ]

/-- The lookup of each second group among the first ones. -/
def lookups (key : α → κ) (f : α → α → Option Bool) (as bs : List α) : List (Option Bool) :=
  bs.map fun b => (as.find? fun a => key a = key b).bind fun a => f a b

/-- What holds of a lookup, and not of a failed one, holds of the group that is found. -/
theorem lookup_iff {P : Option Bool → Prop} (hnone : ¬ P none) (h : (as.map key).Nodup) {b : α} :
    P ((as.find? fun a => key a = key b).bind fun a => f a b) ↔
      ∃ a ∈ as, key a = key b ∧ P (f a b) := by
  constructor
  · intro hfound
    cases hfind : as.find? fun a => key a = key b with
    | none =>
      rw [hfind] at hfound
      exact absurd hfound hnone
    | some a =>
      rw [hfind] at hfound
      exact ⟨a, List.mem_of_find?_eq_some hfind, by simpa using List.find?_some hfind, hfound⟩
  · rintro ⟨a, hmem, hkey, ha⟩
    rw [← hkey, find?_of_nodup h hmem]
    exact ha

theorem strictlyRicher_lookups_ne_none (h : (as.map key).Nodup) :
    strictlyRicher (lookups key f as bs) ≠ none ↔ Covers key f as bs := by
  rw [strictlyRicher_ne_none, lookups, List.forall_mem_map, Covers, and_iff_right h]
  exact forall₂_congr fun _ _ => lookup_iff (P := (· ≠ none)) (by simp) h

theorem strictlyRicher_lookups_eq_true (h : (as.map key).Nodup) :
    strictlyRicher (lookups key f as bs) = some true ↔
      Covers key f as bs ∧ Gains key f as bs := by
  rw [strictlyRicher_eq_true, ← strictlyRicher_ne_none, strictlyRicher_lookups_ne_none h, lookups,
    List.mem_map]
  simp only [lookup_iff (P := (· = some true)) (by simp) h, Gains]

end

/-! ## Project breakdowns -/

theorem projectGroupsAreStrictlyRicher_iff {as bs : List LocalProjectUsageGroup} :
    projectGroupsAreStrictlyRicher as bs = true ↔
      Covers (·.turn) projectGroupInformationDominates as bs ∧
        (bs.length < as.length ∨ Gains (·.turn) projectGroupInformationDominates as bs) := by
  unfold projectGroupsAreStrictlyRicher projectGroupsRetained
  by_cases hnodup : (as.map (·.turn)).Nodup
  · rw [if_pos hnodup]
    have hcovers : strictlyRicher (lookups (·.turn) projectGroupInformationDominates as bs) ≠ none ↔
        Covers (·.turn) projectGroupInformationDominates as bs :=
      strictlyRicher_lookups_ne_none hnodup
    have hgains : strictlyRicher (lookups (·.turn) projectGroupInformationDominates as bs) =
        some true ↔ _ := strictlyRicher_lookups_eq_true hnodup
    change (Option.any _ (strictlyRicher (lookups _ _ as bs))) = true ↔ _
    cases hricher : strictlyRicher (lookups (·.turn) projectGroupInformationDominates as bs) with
    | none => simp [← hcovers, hricher]
    | some richer =>
      have hcovers' := hcovers.1 (by simp [hricher])
      rw [hricher] at hgains
      simp only [Option.some.injEq, hcovers', true_and] at hgains
      simp [hcovers', ← hgains]
  · rw [if_neg hnodup]
    simp [Covers, hnodup]

theorem projectGroupsAreStrictlyRicher_trans {as bs cs : List LocalProjectUsageGroup}
    (hab : projectGroupsAreStrictlyRicher as bs = true)
    (hbc : projectGroupsAreStrictlyRicher bs cs = true) :
    projectGroupsAreStrictlyRicher as cs = true := by
  rw [projectGroupsAreStrictlyRicher_iff] at *
  refine ⟨hab.1.trans projectGroupInformationDominates_retains hbc.1, ?_⟩
  rcases hbc.2 with hlt | hgains
  · exact .inl (hlt.trans_le (hab.1.length_le hbc.1.1))
  · exact .inr (.trans projectGroupInformationDominates_retains hab.1 hgains)

theorem projectGroupsAreStrictlyRicher_self (groups : List LocalProjectUsageGroup) :
    projectGroupsAreStrictlyRicher groups groups = false := by
  rw [← Bool.not_eq_true, projectGroupsAreStrictlyRicher_iff]
  rintro ⟨hcovers, h | h⟩
  · exact lt_irrefl _ h
  · exact h.irrefl projectGroupInformationDominates_self hcovers.1

/-! ## Model breakdowns -/

theorem apiCoverageRetained_eq_true {a b : ApiCostAmount} :
    strictlyRicher (apiCoverageRetained a b) = some true ↔
      strictlyRicher (apiCoverageRetained a b) ≠ none ∧
        (b.observedSamples < a.observedSamples ∨ b.pricedSamples < a.pricedSamples ∨
          b.observedTokens < a.observedTokens ∨ b.pricedTokens < a.pricedTokens) := by
  have hcount (m n : Nat) : countRetained m n = some true ↔ n < m := by
    simp only [countRetained]
    split_ifs <;> simp
    omega
  rw [strictlyRicher_eq_true, ← strictlyRicher_ne_none]
  simp only [apiCoverageRetained, List.mem_cons, List.not_mem_nil, or_false,
    eq_comm (a := some true), hcount]

/-- What a model group may gain besides its coverage. -/
def completes (candidate existing : LocalUsageGroup) : Prop :=
  candidate.apiEquivalentCostComplete = true ∧ existing.apiEquivalentCostComplete = false

theorem modelGroupApiCostInformationDominates_eq (a b : LocalUsageGroup) :
    modelGroupApiCostInformationDominates a b =
      if b.apiEquivalentCostComplete && !a.apiEquivalentCostComplete then none
      else if a.apiEquivalentCost.minimumPicoUsd < b.apiEquivalentCost.minimumPicoUsd ∨
          a.apiEquivalentCost.maximumPicoUsd < b.apiEquivalentCost.maximumPicoUsd then none
      else (strictlyRicher (apiCoverageRetained a.apiEquivalentCost b.apiEquivalentCost)).bind
        fun richer =>
          if decide (b.apiEquivalentCost.minimumPicoUsd < a.apiEquivalentCost.minimumPicoUsd ∨
              b.apiEquivalentCost.maximumPicoUsd < a.apiEquivalentCost.maximumPicoUsd) &&
            !richer && !(a.apiEquivalentCostComplete && !b.apiEquivalentCostComplete) then none
          else some (richer || (a.apiEquivalentCostComplete && !b.apiEquivalentCostComplete)) := rfl

theorem modelGroupApiCostInformationDominates_ne_none {a b : LocalUsageGroup} :
    modelGroupApiCostInformationDominates a b ≠ none ↔
      (b.apiEquivalentCostComplete = true → a.apiEquivalentCostComplete = true) ∧
      (b.apiEquivalentCost.minimumPicoUsd ≤ a.apiEquivalentCost.minimumPicoUsd ∧
        b.apiEquivalentCost.maximumPicoUsd ≤ a.apiEquivalentCost.maximumPicoUsd) ∧
      strictlyRicher (apiCoverageRetained a.apiEquivalentCost b.apiEquivalentCost) ≠ none ∧
      (b.apiEquivalentCost.minimumPicoUsd < a.apiEquivalentCost.minimumPicoUsd ∨
          b.apiEquivalentCost.maximumPicoUsd < a.apiEquivalentCost.maximumPicoUsd →
        strictlyRicher (apiCoverageRetained a.apiEquivalentCost b.apiEquivalentCost) = some true ∨
          completes a b) := by
  rw [modelGroupApiCostInformationDominates_eq]
  unfold completes
  generalize strictlyRicher (apiCoverageRetained a.apiEquivalentCost b.apiEquivalentCost) = coverage
  rcases coverage with _ | _ | _ <;> cases a.apiEquivalentCostComplete <;>
    cases b.apiEquivalentCostComplete <;> simp <;> omega

theorem modelGroupApiCostInformationDominates_eq_true {a b : LocalUsageGroup} :
    modelGroupApiCostInformationDominates a b = some true ↔
      modelGroupApiCostInformationDominates a b ≠ none ∧
      (strictlyRicher (apiCoverageRetained a.apiEquivalentCost b.apiEquivalentCost) = some true ∨
        completes a b) := by
  rw [modelGroupApiCostInformationDominates_eq]
  unfold completes
  generalize strictlyRicher (apiCoverageRetained a.apiEquivalentCost b.apiEquivalentCost) = coverage
  rcases coverage with _ | _ | _ <;> cases a.apiEquivalentCostComplete <;>
    cases b.apiEquivalentCostComplete <;> simp

theorem modelGroupApiCostInformationDominates_self (group : LocalUsageGroup) :
    modelGroupApiCostInformationDominates group group = some false := by
  simp [modelGroupApiCostInformationDominates, apiCoverageRetained, countRetained_self,
    strictlyRicher]

theorem completes_of_left {a b c : LocalUsageGroup} (hab : completes a b)
    (hbc : c.apiEquivalentCostComplete = true → b.apiEquivalentCostComplete = true) :
    completes a c := by
  refine ⟨hab.1, ?_⟩
  rw [← Bool.not_eq_true]
  exact fun hc => by simp [hbc hc, completes] at hab

theorem completes_of_right {a b c : LocalUsageGroup} (hbc : completes b c)
    (hab : b.apiEquivalentCostComplete = true → a.apiEquivalentCostComplete = true) :
    completes a c := ⟨hab hbc.1, hbc.2⟩

theorem modelGroupApiCostInformationDominates_retains :
    Retains modelGroupApiCostInformationDominates := by
  have hcoverage (a b c : LocalUsageGroup)
      (hab : strictlyRicher (apiCoverageRetained a.apiEquivalentCost b.apiEquivalentCost) = some true)
      (hbc : strictlyRicher (apiCoverageRetained b.apiEquivalentCost c.apiEquivalentCost) ≠ none) :
      strictlyRicher (apiCoverageRetained a.apiEquivalentCost c.apiEquivalentCost) = some true := by
    rw [apiCoverageRetained_eq_true] at hab ⊢
    refine ⟨apiCoverageRetained_retains.trans _ _ _ hab.1 hbc, ?_⟩
    rw [apiCoverageRetained_ne_none] at hbc
    omega
  have htrans (a b c : LocalUsageGroup)
      (hab : modelGroupApiCostInformationDominates a b ≠ none)
      (hbc : modelGroupApiCostInformationDominates b c ≠ none) :
      modelGroupApiCostInformationDominates a c ≠ none := by
    rw [modelGroupApiCostInformationDominates_ne_none] at *
    obtain ⟨hdone, hamount, hcov, hgain⟩ := hab
    obtain ⟨hdone', hamount', hcov', hgain'⟩ := hbc
    refine ⟨fun h => hdone (hdone' h), ⟨hamount'.1.trans hamount.1, hamount'.2.trans hamount.2⟩,
      apiCoverageRetained_retains.trans _ _ _ hcov hcov', fun hricher => ?_⟩
    -- the amount grew in one of the two steps, which brought coverage or completeness
    by_cases hfirst :
        b.apiEquivalentCost.minimumPicoUsd < a.apiEquivalentCost.minimumPicoUsd ∨
          b.apiEquivalentCost.maximumPicoUsd < a.apiEquivalentCost.maximumPicoUsd
    · exact (hgain hfirst).imp (hcoverage a b c · hcov') (completes_of_left · hdone')
    · have hsecond : c.apiEquivalentCost.minimumPicoUsd < b.apiEquivalentCost.minimumPicoUsd ∨
          c.apiEquivalentCost.maximumPicoUsd < b.apiEquivalentCost.maximumPicoUsd := by
        omega
      exact (hgain' hsecond).imp (apiCoverageRetained_retains.gain _ _ _ hcov ·)
        (completes_of_right · hdone)
  refine ⟨htrans, fun a b c hab hbc => ?_⟩
  rw [modelGroupApiCostInformationDominates_eq_true] at hbc ⊢
  refine ⟨htrans a b c hab hbc.1, ?_⟩
  rw [modelGroupApiCostInformationDominates_ne_none] at hab
  exact hbc.2.imp (apiCoverageRetained_retains.gain _ _ _ hab.2.2.1 ·)
    (completes_of_right · hab.1)

/-- The model groups of an upgrade. -/
def ModelGroupsRicher (as bs : List LocalUsageGroup) : Prop :=
  Covers (·.identity) modelGroupApiCostInformationDominates as bs ∧
    Gains (·.identity) modelGroupApiCostInformationDominates as bs

theorem ModelGroupsRicher.trans {as bs cs : List LocalUsageGroup} (hab : ModelGroupsRicher as bs)
    (hbc : ModelGroupsRicher bs cs) : ModelGroupsRicher as cs :=
  ⟨hab.1.trans modelGroupApiCostInformationDominates_retains hbc.1,
    .trans modelGroupApiCostInformationDominates_retains hab.1 hbc.2⟩

theorem ModelGroupsRicher.irrefl (as : List LocalUsageGroup) : ¬ ModelGroupsRicher as as :=
  fun h => h.2.irrefl modelGroupApiCostInformationDominates_self h.1.1

theorem upgrade_richer {candidate existing : LocalHalfHourBucket}
    (h : modelGroupApiCostCanUpgradeWithoutReplacing candidate existing = true) :
    ModelGroupsRicher candidate.groups existing.groups := by
  simp only [modelGroupApiCostCanUpgradeWithoutReplacing, modelGroupsByIdentity] at h
  split_ifs at h with hguard hnodup
  · have hricher : strictlyRicher (lookups (·.identity) modelGroupApiCostInformationDominates
        candidate.groups existing.groups) = some true := by
      simpa [lookups] using h
    exact (strictlyRicher_lookups_eq_true hnodup).1 hricher
  · simp at h

/-! ## The order of enrichment -/

/-- What a graft enriches, ordered by enrichment: the project groups and the model groups. -/
@[ext] structure Breakdown where
  projectGroups : List LocalProjectUsageGroup
  groups : List LocalUsageGroup

/-- Both breakdowns are the same or enriched. -/
instance : PartialOrder Breakdown where
  le a b := (a.projectGroups = b.projectGroups ∨
      projectGroupsAreStrictlyRicher b.projectGroups a.projectGroups = true) ∧
    (a.groups = b.groups ∨ ModelGroupsRicher b.groups a.groups)
  le_refl a := ⟨.inl rfl, .inl rfl⟩
  le_trans a b c hab hbc := by
    obtain ⟨hp, hm⟩ := hab
    obtain ⟨hp', hm'⟩ := hbc
    refine ⟨?_, ?_⟩
    · rcases hp with h | h <;> rcases hp' with h' | h'
      · exact .inl (h.trans h')
      · exact .inr (h ▸ h')
      · exact .inr (h' ▸ h)
      · exact .inr (projectGroupsAreStrictlyRicher_trans h' h)
    · rcases hm with h | h <;> rcases hm' with h' | h'
      · exact .inl (h.trans h')
      · exact .inr (h ▸ h')
      · exact .inr (h' ▸ h)
      · exact .inr (h'.trans h)
  le_antisymm a b hab hba := by
    obtain ⟨hp, hm⟩ := hab
    obtain ⟨hp', hm'⟩ := hba
    refine Breakdown.ext ?_ ?_
    · rcases hp with h | h
      · exact h
      · rcases hp' with h' | h'
        · exact h'.symm
        · have := projectGroupsAreStrictlyRicher_trans h h'
          simp [projectGroupsAreStrictlyRicher_self] at this
    · rcases hm with h | h
      · exact h
      · rcases hm' with h' | h'
        · exact h'.symm
        · exact absurd (h.trans h') (ModelGroupsRicher.irrefl _)

end History
