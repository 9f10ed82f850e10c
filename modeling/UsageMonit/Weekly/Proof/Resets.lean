import Mathlib.Order.WellFoundedSet
import Mathlib.Tactic.Linarith
import UsageMonit.Weekly.Resets

/-!
# The canonical resets are apart and complete

Two resets match if less than 121 seconds are between them (`resetMatches_iff`), so that a cluster's
first reset is 121 seconds after that of the one before it (`cluster_apart`) and near all reports of
the cluster (`cluster_complete`). A report of a source that becomes a candidate matches no reset of
the account (`canonical_apart`). Among resets that are apart only the two neighbours of a report can
match it (`mem_neighbours_iff`), and the nearer one is assigned (`assigned_spec`).
-/

namespace Weekly

open Fallible Time History PartitionPoint

variable {resets : List DateTime}

theorem natAbs_numSeconds_le (d : Int) : (numSeconds d).natAbs ≤ 120 ↔ |d| < 121000000000 := by
  have hwhole : (numSeconds d).natAbs = d.natAbs / 1000000000 := Int.natAbs_tdiv _ _
  rw [hwhole, abs_lt]
  omega

/-- The resets that match are less than 121 seconds apart: the drift is of whole seconds. -/
theorem resetMatches_iff {left right : DateTime} :
    resetMatches left right = true ↔ |left - right| < seconds 121 :=
  decide_eq_true_iff.trans (natAbs_numSeconds_le _)

theorem resetMatches_comm (left right : DateTime) :
    resetMatches left right = resetMatches right left := by
  rw [Bool.eq_iff_iff, resetMatches_iff, resetMatches_iff, abs_sub_comm]

theorem resetMatches_self (reset : DateTime) : resetMatches reset reset = true := by
  rw [resetMatches_iff, sub_self, abs_zero]
  decide

/-- In order, 121 seconds apart at least. -/
def Apart (resets : List DateTime) : Prop := resets.Pairwise fun a b => a + seconds 121 ≤ b

theorem Apart.sorted (h : Apart resets) : resets.Pairwise (· < ·) :=
  h.imp fun hab => lt_of_lt_of_le (lt_add_of_pos_right _ (by decide)) hab

theorem far_of_not_match {a b : DateTime} (hab : a ≤ b) (h : ¬ resetMatches a b = true) :
    a + seconds 121 ≤ b := by
  rw [resetMatches_iff, abs_sub_comm, abs_of_nonneg (sub_nonneg.2 hab)] at h
  linarith

theorem not_match_of_far {a b : DateTime} (h : a + seconds 121 ≤ b) :
    ¬ resetMatches a b = true := by
  rw [resetMatches_iff, abs_sub_comm, not_lt]
  exact le_trans (by linarith) (le_abs_self _)

/-! ## Clusters -/

section
variable {last : Option DateTime} {candidates : List DateTime}

theorem mem_clusterFrom {c : DateTime} (h : c ∈ clusterFrom last candidates) : c ∈ candidates := by
  induction candidates generalizing last with
  | nil => cases h
  | cons a candidates ih =>
    unfold clusterFrom at h
    split_ifs at h
    · exact List.mem_cons_of_mem a (ih h)
    · rcases List.mem_cons.1 h with rfl | h
      · exact List.mem_cons_self
      · exact List.mem_cons_of_mem a (ih h)

theorem clusterFrom_apart (hsorted : candidates.Pairwise (· ≤ ·))
    (hlast : ∀ e, last = some e → ∀ c ∈ candidates, e ≤ c) :
    Apart (clusterFrom last candidates) ∧
      ∀ e, last = some e → ∀ c ∈ clusterFrom last candidates, e + seconds 121 ≤ c := by
  induction candidates generalizing last with
  | nil => exact ⟨.nil, fun _ _ c hc => absurd hc List.not_mem_nil⟩
  | cons a candidates ih =>
    obtain ⟨ha, hrest⟩ := List.pairwise_cons.1 hsorted
    unfold clusterFrom
    split_ifs with hmatch
    · exact ih hrest fun e he c hc => hlast e he c (List.mem_cons_of_mem a hc)
    · have hfirst : ∀ e, some a = some e → ∀ c ∈ candidates, e ≤ c := fun e he c hc => by
        obtain rfl := Option.some.inj he
        exact ha c hc
      obtain ⟨hapart, hafter⟩ := ih hrest hfirst
      refine ⟨List.pairwise_cons.2 ⟨hafter a rfl, hapart⟩, fun e he c hc => ?_⟩
      have hea : e + seconds 121 ≤ a := by
        refine far_of_not_match (hlast e he a List.mem_cons_self) fun hm => hmatch ?_
        rw [he]
        exact hm
      rcases List.mem_cons.1 hc with rfl | hc
      · exact hea
      · have hac := hafter a rfl c hc
        have hpos : (0 : Int) < seconds 121 := by decide
        linarith

/-- Every candidate matches the first one of its cluster, which is not after it. -/
theorem clusterFrom_complete (hsorted : candidates.Pairwise (· ≤ ·))
    (hlast : ∀ e, last = some e → ∀ c ∈ candidates, e ≤ c) {c : DateTime} (hc : c ∈ candidates) :
    ∃ r, (last = some r ∨ r ∈ clusterFrom last candidates) ∧ r ≤ c ∧
      resetMatches r c = true := by
  induction candidates generalizing last with
  | nil => cases hc
  | cons a candidates ih =>
    obtain ⟨ha, hrest⟩ := List.pairwise_cons.1 hsorted
    unfold clusterFrom
    split_ifs with hmatch
    · rcases List.mem_cons.1 hc with rfl | hc
      · obtain ⟨e, he, hm⟩ := (Option.any_eq_true _ _).1 hmatch
        exact ⟨e, .inl he, hlast e he c List.mem_cons_self, hm⟩
      · exact ih hrest (fun e he b hb => hlast e he b (List.mem_cons_of_mem a hb)) hc
    · rcases List.mem_cons.1 hc with rfl | hc
      · exact ⟨c, .inr List.mem_cons_self, le_rfl, resetMatches_self c⟩
      · have hfirst : ∀ e, some a = some e → ∀ c ∈ candidates, e ≤ c := fun e he c hc => by
          obtain rfl := Option.some.inj he
          exact ha c hc
        obtain ⟨r, hr | hr, hm⟩ := ih hrest hfirst hc
        · obtain rfl := Option.some.inj hr
          exact ⟨a, .inr List.mem_cons_self, hm⟩
        · exact ⟨r, .inr (List.mem_cons_of_mem a hr), hm⟩

theorem cluster_apart (hsorted : candidates.Pairwise (· ≤ ·)) :
    Apart (clusterSortedWeeklyResets candidates) :=
  (clusterFrom_apart hsorted fun _ hnone => by cases hnone).1

theorem cluster_complete (hsorted : candidates.Pairwise (· ≤ ·)) {c : DateTime}
    (hc : c ∈ candidates) :
    ∃ r ∈ clusterSortedWeeklyResets candidates, r ≤ c ∧ resetMatches r c = true := by
  obtain ⟨r, hnone | hr, hm⟩ :=
    clusterFrom_complete hsorted (fun _ (hnone : none = some _) => by cases hnone) hc
  · cases hnone
  · exact ⟨r, hr, hm⟩

/-- Where clusters of reports start: every report is less than 121 seconds after one of the starts,
and these are 121 seconds apart at least. -/
structure ClusterStarts (reports starts : Set DateTime) : Prop where
  reported : ∀ a ∈ starts, a ∈ reports
  apart : ∀ a ∈ starts, ∀ b ∈ starts, a < b → a + seconds 121 ≤ b
  covered : ∀ x ∈ reports, ∃ a ∈ starts, a ≤ x ∧ x < a + seconds 121

/-- **The reports determine the starts** of their clusters. -/
theorem ClusterStarts.unique {reports s t : Set DateTime} (hfinite : reports.Finite)
    (hs : ClusterStarts reports s) (ht : ClusterStarts reports t) : s = t := by
  have hstart : ∀ {s t : Set DateTime}, ClusterStarts reports s → ClusterStarts reports t →
      ∀ x ∈ s, (∀ y ∈ reports, y < x → y ∈ t → y ∈ s) → x ∈ t := by
    intro s t hs ht x hx ih
    obtain ⟨a, ha, hax, hxa⟩ := ht.covered x (hs.reported x hx)
    rcases hax.lt_or_eq with hlt | rfl
    · have hfar := hs.apart a (ih a (ht.reported a ha) hlt ha) x hx hlt
      exact absurd hxa (not_lt.2 hfar)
    · exact ha
  -- By induction on the reports: a start is covered by itself, since the earlier ones are shared.
  have hstep : ∀ x ∈ reports, (∀ y ∈ reports, y < x → (y ∈ s ↔ y ∈ t)) → (x ∈ s ↔ x ∈ t) :=
    fun x _ ih => ⟨fun hx => hstart hs ht x hx fun y hy hlt => (ih y hy hlt).2,
      fun hx => hstart ht hs x hx fun y hy hlt => (ih y hy hlt).1⟩
  have hsame : ∀ x ∈ reports, (x ∈ s ↔ x ∈ t) := fun x hx =>
    hfinite.wellFoundedOn.induction hx hstep
  ext x
  exact ⟨fun hx => (hsame x (hs.reported x hx)).1 hx, fun hx => (hsame x (ht.reported x hx)).2 hx⟩

theorem Apart.far (h : Apart resets) {a b : DateTime} (ha : a ∈ resets) (hb : b ∈ resets)
    (hab : a < b) : a + seconds 121 ≤ b := by
  have hlater : resets.Pairwise fun a b => a < b → a + seconds 121 ≤ b := 
    h.imp fun {a b} (hfar : a + seconds 121 ≤ b) (_ : a < b) => hfar
  have hearlier : resets.Pairwise fun a b => b < a → b + seconds 121 ≤ a :=
    h.sorted.imp fun hlt hgt => absurd hgt hlt.asymm
  exact hlater.forall_of_forall_of_flip (fun x _ hlt => absurd hlt (lt_irrefl x)) hearlier ha hb hab

theorem cluster_starts (hsorted : candidates.Pairwise (· ≤ ·)) :
    ClusterStarts {x | x ∈ candidates} {r | r ∈ clusterSortedWeeklyResets candidates} where
  reported _ hr := mem_clusterFrom hr
  apart _ ha _ hb hab := (cluster_apart hsorted).far ha hb hab
  covered x hx := by
    obtain ⟨r, hr, hle, hmatch⟩ := cluster_complete hsorted hx
    refine ⟨r, hr, hle, not_le.1 fun hfar => not_match_of_far hfar hmatch⟩

end

/-! ## The assigned reset -/

theorem minByKey_spec {α κ : Type} [LinearOrder κ] {key : α → κ} {as : List α} {m : α}
    (h : minByKey key as = some m) : m ∈ as ∧ ∀ a ∈ as, key m ≤ key a := by
  cases as with
  | nil => cases h
  | cons b as =>
    obtain rfl := Option.some.inj h
    clear h
    induction as using List.reverseRecOn with
    | nil => simp
    | append_singleton as a ih =>
      obtain ⟨hmem, hle⟩ := ih
      rw [List.foldl_append, List.foldl_cons, List.foldl_nil, ← List.cons_append]
      split_ifs with hlt
      · refine ⟨by simp, fun c hc => ?_⟩
        rcases List.mem_append.1 hc with hc | hc
        · exact hlt.le.trans (hle c hc)
        · exact List.mem_singleton.1 hc ▸ le_rfl
      · refine ⟨List.mem_append_left _ hmem, fun c hc => ?_⟩
        rcases List.mem_append.1 hc with hc | hc
        · exact hle c hc
        · exact List.mem_singleton.1 hc ▸ not_lt.1 hlt

theorem minByKey_eq_none {α κ : Type} [LinearOrder κ] {key : α → κ} {as : List α} :
    minByKey key as = none ↔ as = [] := by
  cases as <;> simp [minByKey]

section
variable {canonical : List DateTime} {reported r : DateTime}

/-- **Only the neighbours** of a report can match it. -/
theorem mem_neighbours_iff (h : Apart canonical) :
    let insertion := partitionPoint (fun candidate => decide (candidate < reported)) canonical
    r ∈ ((if 1 ≤ insertion then canonical[insertion - 1]? else none).toList ++
        canonical[insertion]?.toList).filter (resetMatches reported) ↔
      r ∈ canonical ∧ resetMatches reported r = true := by
  intro insertion
  have hpart : Partitioned (fun candidate => decide (candidate < reported)) canonical :=
    partitioned_of_pairwise h.sorted fun a b hab hb => by
      simp only [decide_eq_true_eq] at hb ⊢
      exact lt_trans hab hb
  have hlength : insertion ≤ canonical.length := partitionPoint_le_length _ _
  have hlt : ∀ {i : ℕ} {a : DateTime}, canonical[i]? = some a → (i < insertion ↔ a < reported) :=
    fun ha => by simpa using lt_partitionPoint_iff hpart ha
  have hfar : ∀ {i j : ℕ} {a b : DateTime}, canonical[i]? = some a → canonical[j]? = some b → i < j →
      a + seconds 121 ≤ b := by
    intro i j a b ha hb hij
    obtain ⟨hi, rfl⟩ := List.getElem?_eq_some_iff.1 ha
    obtain ⟨hj, rfl⟩ := List.getElem?_eq_some_iff.1 hb
    exact List.pairwise_iff_getElem.1 h i j hi hj hij
  rw [List.mem_filter, List.mem_append, Option.mem_toList, Option.mem_toList]
  refine and_congr_left fun hmatch => ⟨?_, fun hmem => ?_⟩
  · rintro (hearlier | hlater)
    · split_ifs at hearlier
      · exact List.mem_of_getElem? hearlier
    · exact List.mem_of_getElem? hlater
  · obtain ⟨i, hi⟩ := List.mem_iff_getElem?.1 hmem
    rcases lt_trichotomy (i + 1) insertion with hbelow | heq | habove
    · -- The element before the insertion point is between this one and the report.
      exfalso
      have hlen : insertion - 1 < canonical.length := by omega
      have hnext : canonical[insertion - 1]? = some canonical[insertion - 1] :=
        List.getElem?_eq_getElem hlen
      have hle := hfar hi hnext (by omega)
      have hbefore := (hlt hnext).1 (by omega)
      rw [resetMatches_comm] at hmatch
      exact not_match_of_far (le_trans hle hbefore.le) hmatch
    · refine .inl ?_
      rw [if_pos (by omega), ← heq]
      exact hi
    · by_cases hat : i = insertion
      · exact .inr (hat ▸ hi)
      · exfalso
        have hlen : insertion < canonical.length := by
          obtain ⟨hlen, -⟩ := List.getElem?_eq_some_iff.1 hi
          omega
        have hnext : canonical[insertion]? = some canonical[insertion] :=
          List.getElem?_eq_getElem hlen
        have hle := hfar hnext hi (by omega)
        have hafter : reported ≤ canonical[insertion] :=
          not_lt.1 fun hltr => lt_irrefl _ ((hlt hnext).2 hltr)
        exact not_match_of_far (by linarith) hmatch

/-- The whole seconds between two instants. -/
def distance (a b : DateTime) : ℕ := (numSeconds (a - b)).natAbs

/-- A report's reset: one that matches, the nearest in whole seconds, the earlier one on a tie. -/
structure Assigned (reported : DateTime) (canonical : List DateTime) (r : DateTime) : Prop where
  mem : r ∈ canonical
  matches_report : resetMatches reported r = true
  nearest : ∀ r' ∈ canonical, resetMatches reported r' = true →
    distance reported r < distance reported r' ∨
      distance reported r = distance reported r' ∧ r ≤ r'

theorem assigned_spec (h : Apart canonical)
    (hr : assignedCanonicalReset reported canonical = some r) : Assigned reported canonical r := by
  obtain ⟨hmem, hmin⟩ := minByKey_spec hr
  obtain ⟨hcanonical, hmatch⟩ := (mem_neighbours_iff h).1 hmem
  refine ⟨hcanonical, hmatch, fun r' hr' hmatch' => ?_⟩
  exact Prod.Lex.toLex_le_toLex.1 (hmin r' ((mem_neighbours_iff h).2 ⟨hr', hmatch'⟩))

/-- A report is assigned to the nearest of the resets that match it, the earlier one on a tie. -/
def AssignedNearest (reported : DateTime) (canonical : List DateTime) : Prop :=
  ∃ r ∈ canonical, assignedCanonicalReset reported canonical = some r ∧
    resetMatches reported r = true ∧
    ∀ r' ∈ canonical, resetMatches reported r' = true →
      |reported - r| < |reported - r'| ∨ |reported - r| = |reported - r'| ∧ r ≤ r'

/-- A reset that matches a report is as many whole seconds away as a later one that is nearer. -/
def WholeSecondTie (canonical : Set DateTime) (reported : DateTime) : Prop :=
  ∃ a ∈ canonical, ∃ b ∈ canonical, a < b ∧ resetMatches reported a = true ∧
    distance reported a = distance reported b ∧ |reported - b| < |reported - a|

theorem assigned_isSome (h : Apart canonical) :
    (assignedCanonicalReset reported canonical).isSome ↔
      ∃ r ∈ canonical, resetMatches reported r = true := by
  constructor
  · intro hsome
    obtain ⟨r, hr⟩ := Option.isSome_iff_exists.1 hsome
    exact ⟨r, (assigned_spec h hr).mem, (assigned_spec h hr).matches_report⟩
  · rintro ⟨r, hr, hmatch⟩
    rw [← Option.ne_none_iff_isSome]
    intro hnone
    have hmem := (mem_neighbours_iff h).2 ⟨hr, hmatch⟩
    rw [minByKey_eq_none.1 hnone] at hmem
    cases hmem

theorem distance_mono {a b : DateTime} (h : |reported - a| ≤ |reported - b|) :
    distance reported a ≤ distance reported b := by
  have hwhole : ∀ r, distance reported r = (reported - r).natAbs / 1000000000 :=
    fun r => Int.natAbs_tdiv _ _
  rw [Int.abs_eq_natAbs, Int.abs_eq_natAbs] at h
  rw [hwhole, hwhole]
  exact Nat.div_le_div_right (Int.ofNat_le.1 h)

/-- Two resets match a report at most. -/
theorem eq_or_eq_of_match (h : Apart canonical) {a b : DateTime} (ha : a ∈ canonical)
    (hb : b ∈ canonical) (hr : r ∈ canonical) (hab : a < b) (hma : resetMatches reported a = true)
    (hmb : resetMatches reported b = true) (hmr : resetMatches reported r = true) :
    r = a ∨ r = b := by
  rw [resetMatches_iff, abs_lt] at hma hmb hmr
  have hfar := h.far ha hb hab
  rcases lt_trichotomy r a with hlt | rfl | hgt
  · have hbefore := h.far hr ha hlt
    linarith
  · exact .inl rfl
  · have hafter := h.far ha hr hgt
    rcases lt_trichotomy r b with hlt | rfl | hgt
    · have hbefore := h.far hr hb hlt
      linarith
    · exact .inr rfl
    · have hlast := h.far hb hr hgt
      linarith

/-- **The assigned reset is the nearest one** unless the whole seconds tie. -/
theorem assignedNearest_iff (h : Apart canonical)
    (hmatch : ∃ r ∈ canonical, resetMatches reported r = true) :
    AssignedNearest reported canonical ↔ ¬ WholeSecondTie {r | r ∈ canonical} reported := by
  obtain ⟨r, hr⟩ := Option.isSome_iff_exists.1 ((assigned_isSome h).2 hmatch)
  have hspec := assigned_spec h hr
  constructor
  · rintro ⟨r', -, hr', -, hnearest⟩ ⟨a, ha, b, hb, hab, hma, htie, hlt⟩
    obtain rfl := Option.some.inj (hr.symm.trans hr')
    have hmb : resetMatches reported b = true := by
      have hdrift : distance reported a ≤ resetDriftSecs.natAbs := of_decide_eq_true hma
      rw [htie] at hdrift
      exact decide_eq_true hdrift
    rcases eq_or_eq_of_match h ha hb hspec.mem hab hma hmb hspec.matches_report with rfl | rfl
    · rcases hnearest b hb hmb with hcloser | ⟨heq, -⟩
      · exact hlt.asymm hcloser
      · exact hlt.ne' heq
    · rcases hspec.nearest a ha hma with hcloser | ⟨-, hle⟩
      · exact hcloser.ne htie.symm
      · exact absurd hab (not_lt.2 hle)
  · intro hnotie
    refine ⟨r, hspec.mem, hr, hspec.matches_report, fun r' hr' hmatch' => ?_⟩
    rcases hspec.nearest r' hr' hmatch' with hcloser | ⟨heq, hle⟩
    · exact .inl (not_le.1 fun hfar => absurd hcloser (not_lt.2 (distance_mono hfar)))
    · have hnearer : |reported - r| ≤ |reported - r'| := not_lt.1 fun hlt => by
        have hne : r ≠ r' := fun heq => by
          rw [heq] at hlt
          exact lt_irrefl _ hlt
        exact hnotie ⟨r, hspec.mem, r', hr', lt_of_le_of_ne hle hne, hspec.matches_report, heq, hlt⟩
      exact hnearer.lt_or_eq.imp_right fun heq => ⟨heq, hle⟩

theorem isNone_assigned_iff (h : Apart canonical) :
    (assignedCanonicalReset reported canonical).isNone = true ↔
      ∀ r ∈ canonical, ¬ resetMatches reported r = true := by
  rw [← Option.not_isSome, Bool.not_eq_true', ← Bool.not_eq_true, assigned_isSome h]
  push Not
  rfl

end

/-! ## The canonical resets -/

section
variable {observations : List (DateTime × DateTime)} {accountResets : List DateTime}

/-- A point of a cycle that matches no reset of the account. -/
def isCandidate (observations : List (DateTime × DateTime)) (accountResets : List DateTime)
    (point : WeeklyLocalPoint) : Bool :=
  isSourceAnchor observations accountResets point &&
    (assignedCanonicalReset point.resetsAt accountResets).isNone

theorem sourceCandidates_addSourcePoint (evidence : SourceEvidence) (point : WeeklyLocalPoint) :
    (addSourcePoint observations accountResets evidence point).sourceCandidates =
      if isCandidate observations accountResets point then
        evidence.sourceCandidates ++ [point.resetsAt]
      else evidence.sourceCandidates := by
  unfold addSourcePoint isCandidate
  by_cases hanchor : isSourceAnchor observations accountResets point = true
  · rw [if_pos hanchor, hanchor, Bool.true_and]
  · rw [if_neg hanchor, if_neg (by simp [hanchor])]
    cases evidence.latestUnanchored with
    | none => rfl
    | some stored =>
      dsimp only
      split_ifs <;> rfl

theorem sourceCandidates_foldl (evidence : SourceEvidence) (points : List WeeklyLocalPoint) :
    (points.foldl (addSourcePoint observations accountResets) evidence).sourceCandidates =
      evidence.sourceCandidates ++
        (points.filter (isCandidate observations accountResets)).map (·.resetsAt) := by
  induction points generalizing evidence with
  | nil => simp
  | cons point points ih =>
    rw [List.foldl_cons, ih, sourceCandidates_addSourcePoint, List.filter_cons]
    split_ifs <;> simp

end

theorem maxByKey_cons {α κ : Type} [LinearOrder κ] (key : α → κ) (a : α) (as : List α) :
    maxByKey key (a :: as) =
      some ((maxByKey key as).elim a fun b => if key b < key a then a else b) := by
  induction as using List.reverseRecOn with
  | nil => rfl
  | append_singleton as c ih =>
    have hconcat : ∀ as : List α, maxByKey key (as ++ [c]) =
        some ((maxByKey key as).elim c fun b => if key c < key b then b else c) := fun as => by
      rw [maxByKey, List.foldl_append, ← maxByKey, List.foldl_cons, List.foldl_nil]
      cases maxByKey key as with
      | none => rfl
      | some b => exact (apply_ite some _ _ _).symm
    rw [← List.cons_append, hconcat, hconcat, ih]
    cases maxByKey key as with
    | none => rfl
    | some b =>
      simp only [Option.elim_some]
      by_cases hba : key b < key a
      · by_cases hcb : key c < key b
        · simp [hba, hcb, hcb.trans hba]
        · simp [hba, hcb]
      · have hca : key c < key a → key c < key b := fun hlt => hlt.trans_le (not_lt.1 hba)
        by_cases hcb : key c < key b
        · simp [hba, hcb]
        · simp [hba, hcb, mt hca hcb]

/-- What a point of a source without a cycle shows of its window. -/
def unusedWindow (point : WeeklyLocalPoint) : DateTime × Bool × DateTime :=
  (point.observedAt, false, point.resetsAt)

/-- The newest of the windows: the last one of the account, else the first one of the sources. -/
def newestOf (seen : List (DateTime × Bool × DateTime)) : Option (DateTime × Bool × DateTime) :=
  maxByKey (fun window => toLex (window.1, window.2.1)) seen

theorem latestUnanchored_foldl {evidence : SourceEvidence} {points : List WeeklyLocalPoint}
    {seen : List (DateTime × Bool × DateTime)} (h : evidence.latestUnanchored = newestOf seen) :
    (points.foldl (addSourcePoint observations accountResets) evidence).latestUnanchored =
      newestOf (((points.filter fun point =>
        !isSourceAnchor observations accountResets point).map unusedWindow).reverse ++ seen) := by
  induction points generalizing evidence seen with
  | nil => exact h
  | cons point points ih =>
    rw [List.foldl_cons, List.filter_cons]
    by_cases hanchor : isSourceAnchor observations accountResets point = true
    · rw [if_neg (by simp [hanchor])]
      refine ih ?_
      rw [addSourcePoint, if_pos hanchor]
      exact h
    · rw [if_pos (by simp [hanchor]), List.map_cons, List.reverse_cons, List.append_assoc]
      refine ih ?_
      rw [addSourcePoint, if_neg hanchor, List.singleton_append, newestOf, maxByKey_cons]
      change _ = some ((newestOf seen).elim _ _)
      rw [← h]
      cases hlatest : evidence.latestUnanchored with
      | none => rfl
      | some latest =>
        simp only [Option.elim_some]
        split_ifs with hlt hlt'
        · rfl
        · exact absurd hlt hlt'
        · exact absurd ‹_› hlt
        · exact hlatest

theorem latestAnchored_foldl (evidence : SourceEvidence) (points : List WeeklyLocalPoint)
    (t : DateTime) :
    ((points.foldl (addSourcePoint observations accountResets) evidence
      ).latestAnchoredObservation.all fun anchored => decide (anchored < t)) = true ↔
      (evidence.latestAnchoredObservation.all fun anchored => decide (anchored < t)) = true ∧
        ∀ point ∈ points, isSourceAnchor observations accountResets point = true →
          point.observedAt < t := by
  induction points generalizing evidence with
  | nil => simp
  | cons point points ih =>
    rw [List.foldl_cons, ih, List.forall_mem_cons, ← and_assoc]
    refine and_congr_left fun _ => ?_
    by_cases hanchor : isSourceAnchor observations accountResets point = true
    · rw [addSourcePoint, if_pos hanchor]
      cases evidence.latestAnchoredObservation <;> simp [hanchor]
    · rw [addSourcePoint, if_neg hanchor]
      cases evidence.latestUnanchored with
      | none => simp [hanchor]
      | some latest =>
        dsimp only
        split_ifs <;> simp [hanchor]

/-- Resets that are apart pairwise, in any order. -/
def Separated (resets : List DateTime) : Prop :=
  resets.Pairwise fun a b => ¬ resetMatches a b = true

theorem Apart.separated (h : Apart resets) : Separated resets :=
  h.imp not_match_of_far

theorem Separated.sort (h : Separated resets) : Apart (resets.insertionSort (· ≤ ·)) := by
  have hsymm : ∀ {a b : DateTime}, ¬ resetMatches a b = true → ¬ resetMatches b a = true :=
    fun hnot => by rwa [resetMatches_comm]
  have hperm := List.perm_insertionSort (· ≤ ·) resets
  have hseparated : Separated (resets.insertionSort (· ≤ ·)) := (hperm.pairwise_iff hsymm).2 h
  exact hseparated.imp₂ (fun a b hnot hle => far_of_not_match hle hnot)
    (List.pairwise_insertionSort _ _)

theorem Apart.insert (h : Apart resets) {candidate : DateTime}
    (hnot : ∀ r ∈ resets, ¬ resetMatches candidate r = true) :
    Apart (resets.insertIdx (partitionPoint (fun reset => decide (reset < candidate)) resets)
      candidate) := by
  have hpart : Partitioned (fun reset => decide (reset < candidate)) resets :=
    partitioned_of_pairwise h.sorted fun a b hab hb => by
      simp only [decide_eq_true_eq] at hb ⊢
      exact lt_trans hab hb
  rw [insertIdx_partitionPoint hpart]
  have hbefore : ∀ r ∈ resets.filter fun reset => decide (reset < candidate),
      r + seconds 121 ≤ candidate := by
    intro r hr
    obtain ⟨hmem, hlt⟩ := List.mem_filter.1 hr
    refine far_of_not_match (of_decide_eq_true hlt).le fun hm => hnot r hmem ?_
    rwa [resetMatches_comm]
  have hafter : ∀ r ∈ resets.filter fun reset => !decide (reset < candidate),
      candidate + seconds 121 ≤ r := by
    intro r hr
    obtain ⟨hmem, hle⟩ := List.mem_filter.1 hr
    exact far_of_not_match (by simpa using hle) (hnot r hmem)
  refine List.pairwise_append.2 ⟨h.filter _, List.pairwise_cons.2 ⟨hafter, h.filter _⟩, ?_⟩
  intro a ha b hb
  have hacandidate := hbefore a ha
  rcases List.mem_cons.1 hb with rfl | hb
  · exact hacandidate
  · have hcandidate := hafter b hb
    have hpos : (0 : Int) < seconds 121 := by decide
    linarith

theorem apart_insertIdle (h : Apart resets) (evidence : SourceEvidence) :
    Apart (insertIdle evidence resets) ∧ ∀ r ∈ resets, r ∈ insertIdle evidence resets := by
  unfold insertIdle
  cases evidence.latestUnanchored with
  | none => exact ⟨h, fun _ hr => hr⟩
  | some latest =>
    dsimp only
    split_ifs with hidle
    · rw [Bool.and_eq_true] at hidle
      refine ⟨h.insert ((isNone_assigned_iff h).1 hidle.2), fun r hr => ?_⟩
      rw [List.mem_insertIdx (partitionPoint_le_length _ _)]
      exact .inr hr
    · exact ⟨h, fun _ hr => hr⟩

section
variable {Percent : Type} [OfNat Percent 0] [OfNat Percent 100] [LT Percent] [DecidableLT Percent]
  (sources : List SourceSlice) (accountQuota : List (QuotaPoint Percent))

theorem apart_accountResets : Apart (accountResetsOf accountQuota) :=
  cluster_apart (List.pairwise_insertionSort _ _)

def clusteredResets : List DateTime :=
  (accountResetsOf accountQuota ++ clusterSortedWeeklyResets
    ((sourceEvidence sources accountQuota).sourceCandidates.insertionSort (· ≤ ·))).insertionSort
      (· ≤ ·)

/-- When a weekly point of a cycle was observed, and the reset it reports. -/
inductive AnchoredReport : DateTime → DateTime → Prop
  | account {point : QuotaPoint Percent} : point ∈ accountQuota → isAccountAnchor point = true →
      AnchoredReport point.observedAt point.resetsAt
  | source {source : SourceSlice} {point : WeeklyLocalPoint} : source ∈ sources →
      point ∈ source.weeklyLocalPoints →
      isSourceAnchor (rollingResetEvidence accountQuota) (accountResetsOf accountQuota) point =
        true → AnchoredReport point.observedAt point.resetsAt

theorem mem_sourceCandidates {c : DateTime} :
    c ∈ (sourceEvidence sources accountQuota).sourceCandidates ↔
      ∃ source ∈ sources, ∃ point ∈ source.weeklyLocalPoints, point.resetsAt = c ∧
        isSourceAnchor (rollingResetEvidence accountQuota) (accountResetsOf accountQuota) point =
          true ∧
        (assignedCanonicalReset point.resetsAt (accountResetsOf accountQuota)).isNone := by
  unfold sourceEvidence
  rw [sourceCandidates_foldl]
  simp only [isCandidate, List.nil_append, List.mem_map, List.mem_filter, List.mem_flatMap,
    Bool.and_eq_true]
  constructor
  · rintro ⟨point, ⟨⟨source, hsource, hpoint⟩, hanchor, hnone⟩, rfl⟩
    exact ⟨source, hsource, point, hpoint, rfl, hanchor, hnone⟩
  · rintro ⟨source, hsource, point, hpoint, rfl, hanchor, hnone⟩
    exact ⟨point, ⟨⟨source, hsource, hpoint⟩, hanchor, hnone⟩, rfl⟩

theorem apart_clusteredResets : Apart (clusteredResets sources accountQuota) := by
  have hsources : Apart (clusterSortedWeeklyResets
      ((sourceEvidence sources accountQuota).sourceCandidates.insertionSort (· ≤ ·))) :=
    cluster_apart (List.pairwise_insertionSort _ _)
  refine Separated.sort (List.pairwise_append.2
    ⟨(apart_accountResets accountQuota).separated, hsources.separated, fun a ha c hc => ?_⟩)
  -- The first report of a cluster is a candidate, which matches no reset of the account.
  have hcandidate := (List.mem_insertionSort _).1 (mem_clusterFrom hc)
  obtain ⟨source, -, point, -, rfl, -, hnone⟩ :=
    (mem_sourceCandidates sources accountQuota).1 hcandidate
  rw [resetMatches_comm]
  exact (isNone_assigned_iff (apart_accountResets accountQuota)).1 hnone a ha

theorem anchored_matches {observedAt reported : DateTime}
    (h : AnchoredReport sources accountQuota observedAt reported) :
    ∃ r ∈ clusteredResets sources accountQuota, resetMatches reported r = true := by
  have haccount : ∀ {r : DateTime}, r ∈ accountResetsOf accountQuota →
      r ∈ clusteredResets sources accountQuota := fun hr =>
    (List.mem_insertionSort _).2 (List.mem_append_left _ hr)
  cases h with
  | @account point hpoint hanchor =>
    have hmem : point.resetsAt ∈
        ((accountQuota.filter isAccountAnchor).map (·.resetsAt)).insertionSort (· ≤ ·) :=
      (List.mem_insertionSort _).2
        (List.mem_map_of_mem (List.mem_filter.2 ⟨hpoint, hanchor⟩))
    obtain ⟨r, hr, -, hmatch⟩ := cluster_complete (List.pairwise_insertionSort _ _) hmem
    exact ⟨r, haccount hr, by rwa [resetMatches_comm]⟩
  | @source source point hsource hpoint hanchor =>
    by_cases hsome :
        (assignedCanonicalReset point.resetsAt (accountResetsOf accountQuota)).isSome = true
    · obtain ⟨r, hr, hmatch⟩ := (assigned_isSome (apart_accountResets accountQuota)).1 hsome
      exact ⟨r, haccount hr, hmatch⟩
    · have hnone :
          (assignedCanonicalReset point.resetsAt (accountResetsOf accountQuota)).isNone = true := by
        simpa using hsome
      have hmem := (mem_sourceCandidates sources accountQuota).2
        ⟨source, hsource, point, hpoint, rfl, hanchor, hnone⟩
      obtain ⟨r, hr, -, hmatch⟩ := cluster_complete (List.pairwise_insertionSort _ _)
        ((List.mem_insertionSort (· ≤ ·)).2 hmem)
      exact ⟨r, (List.mem_insertionSort _).2 (List.mem_append_right _ hr),
        by rwa [resetMatches_comm]⟩

theorem consume_ok_iff {limit used units n : Nat} {phase : String} :
    consume limit used units phase = .ok n ↔
      used + units < 2 ^ 64 ∧ used + units ≤ limit ∧ used + units = n := by
  unfold consume checkedAdd
  split_ifs with hroom
  · dsimp only
    split_ifs with hlimit
    · simp [hlimit]
    · simp only [Except.ok.injEq, hroom, not_lt.1 hlimit, true_and]
  · simp only [hroom, false_and]

def WorkFits (limit : Nat) : Prop :=
  accountQuota.length + (sources.map (·.weeklyLocalPoints.length)).sum ≤ limit ∧
    accountQuota.length + (sources.map (·.weeklyLocalPoints.length)).sum < 2 ^ 64

theorem canonicalWeeklyResets_ok_iff {limit : Nat} :
    canonicalWeeklyResets limit sources accountQuota = .ok resets ↔
      WorkFits sources accountQuota limit ∧
        insertIdle (sourceEvidence sources accountQuota) (clusteredResets sources accountQuota) =
          resets := by
  unfold canonicalWeeklyResets
  constructor
  · intro h
    obtain ⟨used, hused, hrest⟩ := bind_ok h
    obtain ⟨used', hused', hresult⟩ := bind_ok hrest
    obtain ⟨-, -, heq⟩ := consume_ok_iff.1 hused
    rw [zero_add] at heq
    obtain ⟨hroom, hlimit, -⟩ := consume_ok_iff.1 (heq ▸ hused')
    exact ⟨⟨hlimit, hroom⟩, Except.ok.inj hresult⟩
  · rintro ⟨⟨hlimit, hroom⟩, rfl⟩
    rw [consume_ok_iff.2 ⟨by omega, by omega, zero_add _⟩, ok_bind,
      consume_ok_iff.2 ⟨hroom, hlimit, rfl⟩, ok_bind]
    rfl

/-! ## What the reports determine -/

/-- The windows that are unused so far, the sources' backwards. -/
def unusedWindows : List (DateTime × Bool × DateTime) :=
  (((sources.flatMap (·.weeklyLocalPoints)).filter fun point =>
    !isSourceAnchor (rollingResetEvidence accountQuota) (accountResetsOf accountQuota)
      point).map unusedWindow).reverse ++
  (accountQuota.filter isAccountIdle).map fun point => (point.observedAt, true, point.resetsAt)

/-- The resets of the cycles: where the clusters of the account start, where those of the sources'
other reports start, and that of the newest unused window, unless a cycle is observed since. -/
structure CycleResets (ofAccount ofSources ofIdle : Set DateTime) : Prop where
  account : ClusterStarts
    {r | ∃ point ∈ accountQuota, isAccountAnchor point = true ∧ point.resetsAt = r} ofAccount
  source : ClusterStarts
    {r | (∃ source ∈ sources, ∃ point ∈ source.weeklyLocalPoints, point.resetsAt = r ∧
        isSourceAnchor (rollingResetEvidence accountQuota) (accountResetsOf accountQuota) point =
          true) ∧ ∀ a ∈ ofAccount, ¬ resetMatches r a = true} ofSources
  idle : ∀ r, r ∈ ofIdle ↔ (∃ observedAt isAccount,
      newestOf (unusedWindows sources accountQuota) = some (observedAt, isAccount, r) ∧
      ∀ anchoredAt reported, AnchoredReport sources accountQuota anchoredAt reported →
        anchoredAt < observedAt) ∧
    ∀ a ∈ ofAccount ∪ ofSources, ¬ resetMatches r a = true

theorem mem_insertIdle {evidence : SourceEvidence} {r : DateTime} (h : Apart resets) :
    r ∈ insertIdle evidence resets ↔ r ∈ resets ∨
      (∃ observedAt isAccount, evidence.latestUnanchored = some (observedAt, isAccount, r) ∧
        (evidence.latestAnchoredObservation.all fun anchored => decide (anchored < observedAt)) =
          true) ∧ ∀ a ∈ resets, ¬ resetMatches r a = true := by
  unfold insertIdle
  cases evidence.latestUnanchored with
  | none => simp
  | some latest =>
    obtain ⟨observedAt, isAccount, c⟩ := latest
    dsimp only
    split_ifs with hidle
    · rw [Bool.and_eq_true, isNone_assigned_iff h] at hidle
      rw [List.mem_insertIdx (partitionPoint_le_length _ _), or_comm]
      refine or_congr_right ⟨?_, ?_⟩
      · rintro rfl
        exact ⟨⟨observedAt, isAccount, rfl, hidle.1⟩, hidle.2⟩
      · rintro ⟨⟨_, _, heq, -⟩, -⟩
        cases heq
        rfl
    · refine ⟨.inl, ?_⟩
      rintro (hmem | ⟨⟨_, _, heq, hlatest⟩, hfar⟩)
      · exact hmem
      · cases heq
        rw [Bool.and_eq_true, isNone_assigned_iff h] at hidle
        exact absurd ⟨hlatest, hfar⟩ hidle

theorem latestUnanchored_eq :
    (sourceEvidence sources accountQuota).latestUnanchored =
      newestOf (unusedWindows sources accountQuota) :=
  latestUnanchored_foldl rfl

theorem latestAnchored_iff {t : DateTime} :
    ((sourceEvidence sources accountQuota).latestAnchoredObservation.all fun anchored =>
        decide (anchored < t)) = true ↔
      ∀ anchoredAt reported, AnchoredReport sources accountQuota anchoredAt reported →
        anchoredAt < t := by
  have haccount : ∀ l : List DateTime,
      (l.max?.all fun anchored => decide (anchored < t)) = true ↔ ∀ a ∈ l, a < t := by
    intro l
    cases hmax : l.max? with
    | none => simp [List.max?_eq_none_iff.1 hmax]
    | some m =>
      simp only [Option.all_some, decide_eq_true_eq, ← Int.le_sub_one_iff]
      exact List.max?_le_iff hmax
  unfold sourceEvidence
  rw [latestAnchored_foldl, haccount]
  constructor
  · rintro ⟨haccount, hsource⟩ _ _ (⟨hpoint, hanchor⟩ | ⟨hsrc, hpoint, hanchor⟩)
    · exact haccount _ (List.mem_map_of_mem (List.mem_filter.2 ⟨hpoint, hanchor⟩))
    · exact hsource _ (List.mem_flatMap.2 ⟨_, hsrc, hpoint⟩) hanchor
  · intro h
    refine ⟨fun a ha => ?_, fun point hpoint hanchor => ?_⟩
    · obtain ⟨point, hpoint, rfl⟩ := List.mem_map.1 ha
      obtain ⟨hmem, hanchor⟩ := List.mem_filter.1 hpoint
      exact h _ _ (.account hmem hanchor)
    · obtain ⟨source, hsource, hmem⟩ := List.mem_flatMap.1 hpoint
      exact h _ _ (.source hsource hmem hanchor)

/-- **The canonical resets** are the cycles' resets that the reports determine. -/
theorem cycleResets_canonical :
    (∃ ofAccount ofSources ofIdle, CycleResets sources accountQuota ofAccount ofSources ofIdle) ∧
      ∀ {ofAccount ofSources ofIdle : Set DateTime},
        CycleResets sources accountQuota ofAccount ofSources ofIdle →
        {r | r ∈ insertIdle (sourceEvidence sources accountQuota)
          (clusteredResets sources accountQuota)} = ofAccount ∪ ofSources ∪ ofIdle := by
  have haccount : {r | ∃ point ∈ accountQuota, isAccountAnchor point = true ∧ point.resetsAt = r} =
      {r | r ∈ ((accountQuota.filter isAccountAnchor).map (·.resetsAt)).insertionSort (· ≤ ·)} := by
    ext r
    simp [and_assoc]
  have hsources : {r | (∃ source ∈ sources, ∃ point ∈ source.weeklyLocalPoints,
        point.resetsAt = r ∧ isSourceAnchor (rollingResetEvidence accountQuota)
          (accountResetsOf accountQuota) point = true) ∧
        ∀ a ∈ {r | r ∈ accountResetsOf accountQuota}, ¬ resetMatches r a = true} =
      {r | r ∈ (sourceEvidence sources accountQuota).sourceCandidates.insertionSort (· ≤ ·)} := by
    ext r
    rw [Set.mem_ofPred_eq, Set.mem_ofPred_eq, List.mem_insertionSort, mem_sourceCandidates]
    constructor
    · rintro ⟨⟨source, hsource, point, hpoint, rfl, hanchor⟩, hfar⟩
      exact ⟨source, hsource, point, hpoint, rfl, hanchor,
        (isNone_assigned_iff (apart_accountResets accountQuota)).2 hfar⟩
    · rintro ⟨source, hsource, point, hpoint, rfl, hanchor, hnone⟩
      exact ⟨⟨source, hsource, point, hpoint, rfl, hanchor⟩,
        (isNone_assigned_iff (apart_accountResets accountQuota)).1 hnone⟩
  have hfirst := cluster_starts (List.pairwise_insertionSort (· ≤ ·)
    ((accountQuota.filter isAccountAnchor).map (·.resetsAt)))
  have hsecond := cluster_starts (List.pairwise_insertionSort (· ≤ ·)
    (sourceEvidence sources accountQuota).sourceCandidates)
  rw [← haccount] at hfirst
  rw [← hsources] at hsecond
  refine ⟨⟨_, _, {r | _}, hfirst, hsecond, fun _ => Iff.rfl⟩, fun {a s i} h => ?_⟩
  obtain rfl := ClusterStarts.unique (haccount ▸ List.finite_toSet _) h.account hfirst
  obtain rfl := ClusterStarts.unique (hsources ▸ List.finite_toSet _) h.source hsecond
  ext r
  rw [Set.mem_ofPred_eq, mem_insertIdle (apart_clusteredResets sources accountQuota),
    latestUnanchored_eq, Set.mem_union, h.idle]
  simp only [latestAnchored_iff, clusteredResets, List.mem_insertionSort, List.mem_append]
  rfl

/-- **The canonical resets are apart and complete, and a report gets the nearest one**, exactly if
the work fits and no report of a cycle has a later reset that is nearer by less than a second. -/
theorem canonical_resets_nearest_iff (limit : Nat) :
    (∃ resets, canonicalWeeklyResets limit sources accountQuota = .ok resets ∧
      (resets.Pairwise fun a b => a + seconds 121 ≤ b) ∧
      ∀ observedAt reported, AnchoredReport sources accountQuota observedAt reported →
        AssignedNearest reported resets) ↔
    WorkFits sources accountQuota limit ∧
      ∀ ofAccount ofSources ofIdle, CycleResets sources accountQuota ofAccount ofSources ofIdle →
        ∀ observedAt reported, AnchoredReport sources accountQuota observedAt reported →
          ¬ WholeSecondTie (ofAccount ∪ ofSources ∪ ofIdle) reported := by
  obtain ⟨hapart, hmem⟩ := apart_insertIdle (apart_clusteredResets sources accountQuota)
    (sourceEvidence sources accountQuota)
  obtain ⟨⟨ofAccount, ofSources, ofIdle, hcycles⟩, heq⟩ := cycleResets_canonical sources accountQuota
  have hmatch : ∀ {observedAt reported : DateTime},
      AnchoredReport sources accountQuota observedAt reported → ∃ r ∈ insertIdle
        (sourceEvidence sources accountQuota) (clusteredResets sources accountQuota),
        resetMatches reported r = true := fun h => by
    obtain ⟨r, hr, hmatch⟩ := anchored_matches sources accountQuota h
    exact ⟨r, hmem r hr, hmatch⟩
  constructor
  · rintro ⟨resets, hresets, -, hassigned⟩
    obtain ⟨hfits, rfl⟩ := (canonicalWeeklyResets_ok_iff sources accountQuota).1 hresets
    refine ⟨hfits, fun _ _ _ hcycles observedAt reported hreport => ?_⟩
    rw [← heq hcycles]
    exact (assignedNearest_iff hapart (hmatch hreport)).1 (hassigned observedAt reported hreport)
  · rintro ⟨hfits, hnotie⟩
    refine ⟨_, (canonicalWeeklyResets_ok_iff sources accountQuota).2 ⟨hfits, rfl⟩, hapart,
      fun observedAt reported hreport => (assignedNearest_iff hapart (hmatch hreport)).2 ?_⟩
    rw [heq hcycles]
    exact hnotie _ _ _ hcycles observedAt reported hreport

end

namespace Sample

/-- A used weekly window of the account. -/
def quotaPoint (resetsAt : DateTime) : QuotaPoint Nat where
  observedAt := hours 1
  limitId := "codex"
  durationMins := weeklyWindowMinutes
  resetsAt := resetsAt
  usedPercent := 40
  remainingPercent := 60

/-- Two clusters, and a report between them that is nearer to the second one. -/
def reset : DateTime := days 7
def report : DateTime := reset + seconds 100 + 900000000
def nextReset : DateTime := reset + seconds 201

def accountQuota : List (QuotaPoint Nat) := [reset, report, nextReset].map quotaPoint

end Sample

open Weekly.Sample in
/-- Distances are compared in whole seconds: the earlier reset wins although the later is nearer. -/
theorem report_assigned_to_farther_reset :
    canonicalWeeklyResets 4000000 [] accountQuota = .ok [reset, nextReset] ∧
      AnchoredReport [] accountQuota (hours 1) report ∧
      assignedCanonicalReset report [reset, nextReset] = some reset ∧
      resetMatches report nextReset = true ∧ |report - nextReset| < |report - reset| := by
  refine ⟨by decide +kernel, ?_, by decide +kernel, by decide +kernel, by decide +kernel⟩
  have hpoint : quotaPoint report ∈ accountQuota := by decide +kernel
  exact .account hpoint (by decide +kernel)

end Weekly
