import Mathlib.Tactic.Linarith
import UsageMonit.History.QuotaMerge

/-!
# Merging quota points is canonical

The sort key tells points apart, so equal sets of points are sorted into the same list up to
repetitions (`dedup_sorted_eq`), and a repeated point changes nothing (`collect_anchored_dedup`).
The anchors of a limit are 121 seconds apart at least (`anchored_apart`): a merged point is its own
anchor when it is merged again (`anchorPoints_self`).
-/

namespace History.QuotaMerge

open Time Usage KeyedMerge

variable {Percent : Type} {cycle : Option Cycle} {e : QuotaPoint Percent × QuotaPoint Percent}

/-! ## The order of the points -/

theorem provenanceRank_inj {a b : Provenance} (h : provenanceRank a = provenanceRank b) : a = b := by
  cases a <;> cases b <;> first | rfl | cases h

theorem point_ext {a b : QuotaPoint Percent} (hcycle : cycleKey a = cycleKey b)
    (hfresh : freshness a = freshness b) : a = b := by
  obtain ⟨observed, limit, duration, resets, used, remaining, provenance⟩ := a
  obtain ⟨observed', limit', duration', resets', used', remaining', provenance'⟩ := b
  simp only [cycleKey, limitKey, freshness, toLex_inj, Prod.mk.injEq, OrderDual.toDual_inj]
    at hcycle hfresh
  obtain ⟨⟨-, rfl⟩, rfl⟩ := hcycle
  obtain ⟨rfl, rfl, rfl, rfl, hrank⟩ := hfresh
  rw [provenanceRank_inj hrank]

section
variable [LinearOrder Percent]

instance : Std.Total (@pointLe Percent _) := ⟨fun _ _ => le_total _ _⟩

instance : IsTrans (QuotaPoint Percent) pointLe := ⟨fun _ _ _ => le_trans⟩

instance : Std.Antisymm (@pointLe Percent _) := ⟨fun a b hab hba => by
  have heq := le_antisymm hab hba
  simp only [toLex_inj, Prod.mk.injEq] at heq
  exact point_ext heq.1 heq.2⟩

theorem cycleKey_le {a b : QuotaPoint Percent} (h : pointLe a b) : cycleKey a ≤ cycleKey b := by
  rcases Prod.Lex.toLex_le_toLex.1 h with hlt | ⟨heq, -⟩
  · exact hlt.le
  · exact heq.le

/-- **Equal sets of points** are sorted into the same list, up to repetitions. -/
theorem dedup_sorted_eq {points points' : List (QuotaPoint Percent)}
    (h : ∀ p, p ∈ points' ↔ p ∈ points) :
    (points'.insertionSort pointLe).dedup = (points.insertionSort pointLe).dedup := by
  have hsorted : ∀ l : List (QuotaPoint Percent),
      (l.insertionSort pointLe).dedup.Pairwise pointLe := fun l =>
    (List.pairwise_insertionSort pointLe l).sublist (List.dedup_sublist _)
  refine List.Perm.eq_of_pairwise (fun a b _ _ hab hba => antisymm hab hba) (hsorted points')
    (hsorted points) ?_
  refine (List.perm_ext_iff_of_nodup (List.nodup_dedup _) (List.nodup_dedup _)).2 fun p => ?_
  rw [List.mem_dedup, List.mem_dedup, List.mem_insertionSort, List.mem_insertionSort, h]

end

/-! ## Clusters -/

theorem numSeconds_le {duration : Duration} (h : 0 ≤ duration) :
    numSeconds duration ≤ resetDriftSecs ↔ duration < seconds 121 := by
  unfold numSeconds resetDriftSecs seconds
  rw [Int.tdiv_eq_ediv_of_nonneg h]
  simp only [Duration] at *
  omega

/-- What the anchor of a point has to do with the cycle before it. -/
structure Assigned (cycle : Option Cycle) (point : QuotaPoint Percent) (own : Cycle) : Prop where
  limit : own.limit = limitKey point
  reset_le : own.reset ≤ point.resetsAt
  near : point.resetsAt < own.reset + seconds 121
  of_cycle : own.reset = point.resetsAt ∨ cycle = some own
  apart : ∀ current, cycle = some current → current.limit = own.limit →
    own = current ∨ current.reset + seconds 121 ≤ own.reset

def Follows (cycle : Option Cycle) (points : List (QuotaPoint Percent)) : Prop :=
  ∀ current, cycle = some current → ∀ p ∈ points, toLex (current.limit, current.reset) ≤ cycleKey p

theorem reset_le_of_cycle_le {limit : LimitKey} {reset : DateTime} {p : QuotaPoint Percent}
    (h : toLex (limit, reset) ≤ cycleKey p) (hlimit : limit = limitKey p) : reset ≤ p.resetsAt := by
  rcases Prod.Lex.toLex_le_toLex.1 h with hlt | ⟨-, hle⟩
  · exact absurd hlimit hlt.ne
  · exact hle

theorem cycleOf_assigned {p : QuotaPoint Percent} {points : List (QuotaPoint Percent)}
    (h : Follows cycle (p :: points)) : Assigned cycle p (cycleOf cycle p) := by
  have hdrift : (0 : Int) < seconds 121 := by decide
  cases cycle with
  | none => exact ⟨rfl, le_rfl, lt_add_of_pos_right _ hdrift, .inl rfl, fun _ hnone => by cases hnone⟩
  | some current =>
    have hle := h current rfl p List.mem_cons_self
    unfold cycleOf
    dsimp only
    split_ifs with hreuse
    · obtain ⟨hlimit, hnear⟩ := hreuse
      have hreset := reset_le_of_cycle_le hle hlimit
      rw [numSeconds_le (sub_nonneg.2 hreset)] at hnear
      exact ⟨hlimit, hreset, by linarith, .inr rfl,
        fun other hother _ => .inl (Option.some.inj hother)⟩
    · refine ⟨rfl, le_rfl, lt_add_of_pos_right _ hdrift, .inl rfl, fun other hother hlimit => ?_⟩
      obtain rfl := Option.some.inj hother
      refine .inr ?_
      have hreset := reset_le_of_cycle_le hle hlimit
      have hfar : ¬ numSeconds (p.resetsAt - current.reset) ≤ resetDriftSecs :=
        fun hnear => hreuse ⟨hlimit, hnear⟩
      rw [numSeconds_le (sub_nonneg.2 hreset)] at hfar
      show current.reset + seconds 121 ≤ p.resetsAt
      linarith

def assigned (cycle : Option Cycle) (points : List (QuotaPoint Percent)) :
    List (QuotaPoint Percent × QuotaPoint Percent) :=
  points.zip (anchorPoints cycle points)

theorem assigned_cons (cycle : Option Cycle) (p : QuotaPoint Percent)
    (points : List (QuotaPoint Percent)) : assigned cycle (p :: points) =
      (p, { p with resetsAt := (cycleOf cycle p).reset }) ::
        assigned (some (cycleOf cycle p)) points := rfl

theorem anchorPoints_length (cycle : Option Cycle) (points : List (QuotaPoint Percent)) :
    (anchorPoints cycle points).length = points.length := by
  induction points generalizing cycle with
  | nil => rfl
  | cons p points ih => simp [anchorPoints, ih]

theorem map_fst_assigned (cycle : Option Cycle) (points : List (QuotaPoint Percent)) :
    (assigned cycle points).map Prod.fst = points :=
  List.map_fst_zip (anchorPoints_length cycle points).ge

theorem map_snd_assigned (cycle : Option Cycle) (points : List (QuotaPoint Percent)) :
    (assigned cycle points).map Prod.snd = anchorPoints cycle points :=
  List.map_snd_zip (anchorPoints_length cycle points).le

theorem follows_cons {p : QuotaPoint Percent} {points : List (QuotaPoint Percent)}
    (hown : Assigned cycle p (cycleOf cycle p)) (hsorted : ∀ q ∈ points, cycleKey p ≤ cycleKey q) :
    Follows (some (cycleOf cycle p)) points := by
  intro own hcycle q hq
  obtain rfl := Option.some.inj hcycle
  refine le_trans ?_ (hsorted q hq)
  exact Prod.Lex.toLex_le_toLex.2 (.inr ⟨hown.limit, hown.reset_le⟩)

/-- Two anchors of one limit are the same, or the second is 121 seconds later at least. -/
def Apart (a b : QuotaPoint Percent) : Prop :=
  limitKey a = limitKey b → a.resetsAt = b.resetsAt ∨ a.resetsAt + seconds 121 ≤ b.resetsAt

/-- What an anchored point has to do with its point. -/
structure Anchored (points : List (QuotaPoint Percent)) (cycle : Option Cycle)
    (p q : QuotaPoint Percent) : Prop where
  same : q = { p with resetsAt := q.resetsAt }
  reset_le : q.resetsAt ≤ p.resetsAt
  near : p.resetsAt < q.resetsAt + seconds 121
  of_points : cycle = some ⟨limitKey p, q.resetsAt⟩ ∨
    ∃ a ∈ points, limitKey a = limitKey p ∧ a.resetsAt = q.resetsAt
  apart : ∀ current, cycle = some current → current.limit = limitKey p →
    current.reset = q.resetsAt ∨ current.reset + seconds 121 ≤ q.resetsAt

theorem limitKey_anchor (p : QuotaPoint Percent) (reset : DateTime) :
    limitKey { p with resetsAt := reset } = limitKey p := rfl

theorem limitKey_of_anchored {points : List (QuotaPoint Percent)} {p q : QuotaPoint Percent}
    (h : Anchored points cycle p q) : limitKey q = limitKey p := by
  rw [h.same]
  rfl

theorem follows_none {points : List (QuotaPoint Percent)} : Follows none points :=
  fun _ hnone => by cases hnone

/-- **Clustering** sorted points: every anchor is near its point, the anchors are apart. -/
theorem assigned_spec {points : List (QuotaPoint Percent)}
    (hsorted : points.Pairwise fun a b => cycleKey a ≤ cycleKey b) (h : Follows cycle points) :
    (∀ e ∈ assigned cycle points, Anchored points cycle e.1 e.2) ∧
      (assigned cycle points).Pairwise fun a b => Apart a.2 b.2 := by
  induction points generalizing cycle with
  | nil => exact ⟨fun e he => absurd he List.not_mem_nil, .nil⟩
  | cons p points ih =>
    obtain ⟨hp, hpoints⟩ := List.pairwise_cons.1 hsorted
    have hown := cycleOf_assigned h
    obtain ⟨hall, hpairs⟩ := ih hpoints (follows_cons hown hp)
    rw [assigned_cons]
    refine ⟨List.forall_mem_cons.2 ⟨?_, fun e he => ?_⟩, List.pairwise_cons.2 ⟨fun e he => ?_, hpairs⟩⟩
    · refine ⟨rfl, hown.reset_le, hown.near, ?_, fun current hcurrent hlimit => ?_⟩
      · rcases hown.of_cycle with hreset | hcycle
        · exact .inr ⟨p, List.mem_cons_self, rfl, hreset.symm⟩
        · refine .inl (hcycle.trans ?_)
          rw [← hown.limit]
      · rcases hown.apart current hcurrent (hlimit.trans hown.limit.symm) with heq | hle
        · exact .inl (heq ▸ rfl)
        · exact .inr hle
    · have he' := hall e he
      refine ⟨he'.same, he'.reset_le, he'.near, ?_, fun current hcurrent hlimit => ?_⟩
      · rcases he'.of_points with hcycle | ⟨a, ha, hlimit, hreset⟩
        · -- The anchor is that of the cycle of the first point.
          have hcycle := Option.some.inj hcycle
          have hlimit : limitKey p = limitKey e.1 := by rw [← hown.limit, hcycle]
          rcases hown.of_cycle with hreset | hold
          · exact .inr ⟨p, List.mem_cons_self, hlimit, by rw [← hreset, hcycle]⟩
          · exact .inl (by rw [hold, hcycle])
        · exact .inr ⟨a, List.mem_cons_of_mem p ha, hlimit, hreset⟩
      · -- Between two points of one limit there is none of another limit.
        have hmem : e.1 ∈ points := map_fst_assigned _ points ▸ List.mem_map_of_mem he
        have hle := h current hcurrent p List.mem_cons_self
        have hle' := hp e.1 hmem
        have hpe : limitKey p = limitKey e.1 := by
          rcases Prod.Lex.toLex_le_toLex.1 hle with hlt | ⟨heq, -⟩
          · rcases Prod.Lex.toLex_le_toLex.1 hle' with hlt' | ⟨heq', -⟩
            · exact absurd hlimit (hlt.trans hlt').ne
            · exact heq'
          · exact heq.symm.trans hlimit
        have hfirst := hown.apart current hcurrent (hlimit.trans (hown.limit.trans hpe).symm)
        have hrest := he'.apart _ rfl (hown.limit.trans hpe)
        have hdrift : (0 : Int) < seconds 121 := by decide
        rcases hfirst with heq | hfar
        · exact heq ▸ hrest
        · rcases hrest with heq' | hfar'
          · exact .inr (heq' ▸ hfar)
          · exact .inr (by linarith)
    · intro hlimit
      refine (hall e he).apart _ rfl ?_
      rw [hown.limit, ← limitKey_anchor p, hlimit, (hall e he).same]
      rfl

theorem anchorPoints_self {points : List (QuotaPoint Percent)}
    (hsorted : points.Pairwise fun a b => cycleKey a ≤ cycleKey b)
    (hapart : points.Pairwise Apart)
    (h : ∀ current, cycle = some current → ∀ p ∈ points, current.limit = limitKey p →
      current.reset = p.resetsAt ∨ current.reset + seconds 121 ≤ p.resetsAt) :
    anchorPoints cycle points = points := by
  induction points generalizing cycle with
  | nil => rfl
  | cons p points ih =>
    obtain ⟨hp, hpoints⟩ := List.pairwise_cons.1 hsorted
    obtain ⟨hpapart, hrest⟩ := List.pairwise_cons.1 hapart
    have hown : cycleOf cycle p = ⟨limitKey p, p.resetsAt⟩ := by
      cases cycle with
      | none => rfl
      | some current =>
        unfold cycleOf
        dsimp only
        split_ifs with hreuse
        · obtain ⟨hlimit, hnear⟩ := hreuse
          rcases h current rfl p List.mem_cons_self hlimit with heq | hfar
          · rw [← hlimit, ← heq]
          · have hdrift : (0 : Int) < seconds 121 := by decide
            rw [numSeconds_le (by linarith)] at hnear
            exact absurd hnear (by linarith)
        · rfl
    unfold anchorPoints
    dsimp only
    rw [hown, ih hpoints hrest fun current hcurrent q hq hlimit => ?_]
    obtain rfl := Option.some.inj hcurrent
    exact hpapart q hq hlimit

theorem cycleOf_again (cycle : Option Cycle) (p : QuotaPoint Percent) :
    cycleOf (some (cycleOf cycle p)) p = cycleOf cycle p := by
  have hself : limitKey p = limitKey p ∧ numSeconds (p.resetsAt - p.resetsAt) ≤ resetDriftSecs := by
    rw [sub_self]
    exact ⟨rfl, by decide⟩
  cases cycle with
  | none => exact if_pos hself
  | some current =>
    by_cases hreuse : current.limit = limitKey p ∧
        numSeconds (p.resetsAt - current.reset) ≤ resetDriftSecs
    · have hown : cycleOf (some current) p = current := if_pos hreuse
      rw [hown, hown]
    · have hown : cycleOf (some current) p = ⟨limitKey p, p.resetsAt⟩ := if_neg hreuse
      rw [hown]
      exact if_pos hself

section
variable [LinearOrder Percent]

/-! ## The newest point of a slot -/

theorem slotKey_keepNewer (a b : QuotaPoint Percent) (h : slotKey a = slotKey b) :
    slotKey (keepNewer a b) = slotKey a := by
  unfold keepNewer
  split_ifs
  · exact h.symm
  · rfl

theorem mergeAll_keepNewer {points : List (QuotaPoint Percent)} {newest : QuotaPoint Percent}
    (h : mergeAll keepNewer points = some newest) :
    newest ∈ points ∧ ∀ p ∈ points, freshness p ≤ freshness newest := by
  induction points using List.reverseRecOn generalizing newest with
  | nil => cases h
  | append_singleton points p ih =>
    rw [mergeAll_concat] at h
    obtain rfl := Option.some.inj h
    cases hold : mergeAll keepNewer points with
    | none =>
      have hnil : points = [] := by
        cases points with
        | nil => rfl
        | cons a l => cases hold
      subst hnil
      simp
    | some old =>
      obtain ⟨hmem, hle⟩ := ih hold
      dsimp only
      unfold keepNewer
      split_ifs with hlt
      · refine ⟨by simp, fun q hq => ?_⟩
        rcases List.mem_append.1 hq with hq | hq
        · exact (hle q hq).trans hlt.le
        · exact List.mem_singleton.1 hq ▸ le_rfl
      · refine ⟨by simp [hmem], fun q hq => ?_⟩
        rcases List.mem_append.1 hq with hq | hq
        · exact hle q hq
        · exact List.mem_singleton.1 hq ▸ not_lt.1 hlt

theorem upsert_twice (p : QuotaPoint Percent) (merged : List (QuotaPoint Percent)) :
    upsert slotKey keepNewer p (upsert slotKey keepNewer p merged) =
      upsert slotKey keepNewer p merged := by
  refine upsert_upsert_self (by simp [keepNewer]) (fun old hkey => ⟨?_, ?_⟩) merged
  · unfold keepNewer
    split_ifs with hlt hself
    · exact absurd hself (lt_irrefl _)
    · rfl
    · rfl
  · exact slotKey_keepNewer old p hkey.symm

/-- **Repetitions** of sorted points change nothing. -/
theorem foldl_anchored_dedup {points : List (QuotaPoint Percent)} (hsorted : points.Pairwise pointLe)
    (cycle : Option Cycle) (merged : List (QuotaPoint Percent)) :
    (anchorPoints cycle points.dedup).foldl (fun l a => upsert slotKey keepNewer a l) merged =
      (anchorPoints cycle points).foldl (fun l a => upsert slotKey keepNewer a l) merged := by
  induction points generalizing cycle merged with
  | nil => rfl
  | cons p points ih =>
    obtain ⟨hp, hpoints⟩ := List.pairwise_cons.1 hsorted
    by_cases hmem : p ∈ points
    · rw [List.dedup_cons_of_mem hmem, ih hpoints]
      -- The repetition comes next, as the points are sorted.
      cases points with
      | nil => cases hmem
      | cons q points =>
        have hqp : q = p := by
          rcases List.mem_cons.1 hmem with heq | hrest
          · exact heq.symm
          · exact antisymm ((List.pairwise_cons.1 hpoints).1 p hrest) (hp q List.mem_cons_self)
        subst hqp
        simp only [anchorPoints, List.foldl_cons, cycleOf_again, upsert_twice]
    · rw [List.dedup_cons_of_notMem hmem]
      exact ih hpoints _ _

/-- **The merged points** are those of the set of points. -/
theorem mergeQuotaPoints_congr {points points' : List (QuotaPoint Percent)}
    (h : ∀ p, p ∈ points' ↔ p ∈ points) : mergeQuotaPoints points' = mergeQuotaPoints points := by
  have hcollect : ∀ l : List (QuotaPoint Percent),
      collect slotKey keepNewer (anchorPoints none (l.insertionSort pointLe)) =
        collect slotKey keepNewer (anchorPoints none (l.insertionSort pointLe).dedup) := fun l =>
    (foldl_anchored_dedup (List.pairwise_insertionSort pointLe l) none []).symm
  unfold mergeQuotaPoints
  dsimp only
  rw [hcollect points', hcollect points, dedup_sorted_eq h]

/-! ## The anchor of a point -/

/-- The anchored point of a point. -/
def anchoredPoint (points : List (QuotaPoint Percent)) (p : QuotaPoint Percent) :
    QuotaPoint Percent :=
  let sorted := points.insertionSort pointLe
  ((sorted.zip (anchorPoints none sorted)).find? fun e => e.1 = p).elim p Prod.snd

/-- Two anchors of one limit are the same or 121 seconds apart. -/
def Separated (a b : QuotaPoint Percent) : Prop :=
  limitKey a = limitKey b →
    a.resetsAt = b.resetsAt ∨ a.resetsAt + seconds 121 ≤ b.resetsAt ∨
      b.resetsAt + seconds 121 ≤ a.resetsAt

variable {points : List (QuotaPoint Percent)} {p q : QuotaPoint Percent}

theorem sorted_cycleKey (points : List (QuotaPoint Percent)) :
    (points.insertionSort pointLe).Pairwise fun a b => cycleKey a ≤ cycleKey b :=
  (List.pairwise_insertionSort pointLe points).imp cycleKey_le

section

variable (he : e ∈ assigned none (points.insertionSort pointLe))

include he

theorem mem_assigned_separated {e' : QuotaPoint Percent × QuotaPoint Percent}
    (he' : e' ∈ assigned none (points.insertionSort pointLe)) : Separated e.2 e'.2 := by
  have hpairs := (assigned_spec (sorted_cycleKey points) follows_none).2
  have hsymm : Std.Symm fun a b : QuotaPoint Percent × QuotaPoint Percent => Separated a.2 b.2 := by
    refine ⟨fun a b hab hlimit => ?_⟩
    rcases hab hlimit.symm with heq | hlt | hgt
    · exact .inl heq.symm
    · exact .inr (.inr hlt)
    · exact .inr (.inl hgt)
  have hseparated : (assigned none (points.insertionSort pointLe)).Pairwise
      fun a b => Separated a.2 b.2 := by
    refine hpairs.imp fun hapart hlimit => ?_
    rcases hapart hlimit with heq | hlt
    · exact .inl heq
    · exact .inr (.inl hlt)
  exact hseparated.forall_of_forall (fun _ _ _ => .inl rfl) he he'

theorem anchored_spec : Anchored (points.insertionSort pointLe) none e.1 e.2 :=
  (assigned_spec (sorted_cycleKey points) follows_none).1 e he

theorem anchoredPoint_eq : anchoredPoint points e.1 = e.2 := by
  have hsome : ((assigned none (points.insertionSort pointLe)).find? fun a => a.1 = e.1).isSome := by
    rw [List.find?_isSome]
    exact ⟨e, he, by simp⟩
  obtain ⟨e', hfind⟩ := Option.isSome_iff_exists.1 hsome
  have hmem := List.mem_of_find?_eq_some hfind
  have hfst : e'.1 = e.1 := by simpa using List.find?_some hfind
  have hvalue : anchoredPoint points e.1 = e'.2 := by
    unfold anchoredPoint
    dsimp only
    rw [← assigned, hfind]
    rfl
  have hspec := anchored_spec he
  have hspec' := anchored_spec hmem
  rw [hfst] at hspec'
  have hreset : e'.2.resetsAt = e.2.resetsAt := by
    have hlimit := (limitKey_of_anchored hspec').trans (limitKey_of_anchored hspec).symm
    have hnear := hspec.near
    have hnear' := hspec'.near
    have hle := hspec.reset_le
    have hle' := hspec'.reset_le
    rcases mem_assigned_separated hmem he hlimit with heq | hlt | hgt
    · exact heq
    · linarith
    · linarith
  rw [hvalue, hspec'.same, hreset, ← hspec.same]

end

theorem mem_assigned (hp : p ∈ points) :
    (p, anchoredPoint points p) ∈ assigned none (points.insertionSort pointLe) := by
  have hmem : p ∈ (assigned none (points.insertionSort pointLe)).map Prod.fst := by
    rw [map_fst_assigned]
    exact (List.mem_insertionSort pointLe).2 hp
  obtain ⟨e, he, rfl⟩ := List.mem_map.1 hmem
  rw [anchoredPoint_eq he]
  exact he

theorem mem_anchorPoints : q ∈ anchorPoints none (points.insertionSort pointLe) ↔
    ∃ p ∈ points, anchoredPoint points p = q := by
  rw [← map_snd_assigned]
  constructor
  · intro hq
    obtain ⟨e, he, rfl⟩ := List.mem_map.1 hq
    have hmem : e.1 ∈ (assigned none (points.insertionSort pointLe)).map Prod.fst :=
      List.mem_map_of_mem he
    rw [map_fst_assigned] at hmem
    exact ⟨e.1, (List.mem_insertionSort pointLe).1 hmem, anchoredPoint_eq he⟩
  · rintro ⟨p, hp, rfl⟩
    exact List.mem_map.2 ⟨_, mem_assigned hp, rfl⟩

theorem freshness_anchoredPoint (hp : p ∈ points) :
    freshness (anchoredPoint points p) = freshness p := by
  have hsame := congrArg freshness (anchored_spec (mem_assigned hp)).same
  exact hsame

/-! ## What is merged -/

/-- The newest points of the slots, before the last sort. -/
def merged (points : List (QuotaPoint Percent)) : List (QuotaPoint Percent) :=
  collect slotKey keepNewer (anchorPoints none (points.insertionSort pointLe))

theorem ordered_merged : Ordered slotKey (merged points) := Ordered.collect slotKey_keepNewer _

theorem mergeQuotaPoints_perm : (mergeQuotaPoints points).Perm (merged points) :=
  List.perm_insertionSort _ _

theorem nodup_slotKey : ((mergeQuotaPoints points).map slotKey).Nodup := by
  rw [(mergeQuotaPoints_perm.map slotKey).nodup_iff]
  exact List.pairwise_map.2 (ordered_merged.imp fun hlt => hlt.ne)

theorem of_mem_merged {r : QuotaPoint Percent} (hr : r ∈ mergeQuotaPoints points) :
    (∃ p ∈ points, anchoredPoint points p = r) ∧
      ∀ q ∈ points, slotKey (anchoredPoint points q) = slotKey r → freshness q ≤ freshness r := by
  have hvalue := ordered_merged.valueAt_self (mergeQuotaPoints_perm.mem_iff.1 hr)
  unfold merged at hvalue
  rw [valueAt_collect slotKey_keepNewer] at hvalue
  obtain ⟨hmem, hnewest⟩ := mergeAll_keepNewer hvalue
  refine ⟨mem_anchorPoints.1 (List.mem_of_mem_filter hmem), fun q hq hkey => ?_⟩
  rw [← freshness_anchoredPoint hq]
  exact hnewest _ (List.mem_filter.2 ⟨mem_anchorPoints.2 ⟨q, hq, rfl⟩, by simpa using hkey⟩)

theorem exists_merged (hp : p ∈ points) :
    ∃ r ∈ mergeQuotaPoints points, slotKey r = slotKey (anchoredPoint points p) := by
  cases hvalue : valueAt slotKey (slotKey (anchoredPoint points p)) (merged points) with
  | some r =>
    obtain ⟨hmem, hkey⟩ := valueAt_key hvalue
    exact ⟨r, mergeQuotaPoints_perm.mem_iff.2 hmem, hkey⟩
  | none =>
    unfold merged at hvalue
    rw [valueAt_collect slotKey_keepNewer] at hvalue
    have hmem : anchoredPoint points p ∈
        (anchorPoints none (points.insertionSort pointLe)).filter
          fun a => slotKey a = slotKey (anchoredPoint points p) :=
      List.mem_filter.2 ⟨mem_anchorPoints.2 ⟨p, hp, rfl⟩, by simp⟩
    cases hfilter : (anchorPoints none (points.insertionSort pointLe)).filter
        fun a => slotKey a = slotKey (anchoredPoint points p) with
    | nil =>
      rw [hfilter] at hmem
      cases hmem
    | cons a l =>
      rw [hfilter] at hvalue
      cases hvalue

/-- **Merging again** changes nothing. -/
theorem mergeQuotaPoints_idem (points : List (QuotaPoint Percent)) :
    mergeQuotaPoints (mergeQuotaPoints points) = mergeQuotaPoints points := by
  have hapart : ((mergeQuotaPoints points).insertionSort pointLe).Pairwise Apart := by
    refine List.Pairwise.imp_of_mem (fun {a b} ha hb hle hlimit => ?_) (sorted_cycleKey _)
    obtain ⟨p, hp, rfl⟩ := (of_mem_merged ((List.mem_insertionSort pointLe).1 ha)).1
    obtain ⟨q, hq, rfl⟩ := (of_mem_merged ((List.mem_insertionSort pointLe).1 hb)).1
    have hreset := reset_le_of_cycle_le hle hlimit
    rcases mem_assigned_separated (mem_assigned hp) (mem_assigned hq) hlimit with heq | hlt | hgt
    · exact .inl heq
    · exact .inr hlt
    · have hdrift : (0 : Int) < seconds 121 := by decide
      exact absurd hreset (by linarith)
  have hself : anchorPoints none ((mergeQuotaPoints points).insertionSort pointLe) =
      (mergeQuotaPoints points).insertionSort pointLe :=
    anchorPoints_self (sorted_cycleKey _) hapart fun _ hnone => by cases hnone
  have hperm : ((mergeQuotaPoints points).insertionSort pointLe).Perm (merged points) :=
    (List.perm_insertionSort _ _).trans mergeQuotaPoints_perm
  have hagain : merged (mergeQuotaPoints points) = merged points := by
    unfold merged
    rw [hself, collect_perm slotKey_keepNewer hperm
      ((hperm.map slotKey).nodup_iff.2 (List.pairwise_map.2 (ordered_merged.imp fun hlt => hlt.ne)))]
    exact ordered_merged.collect_self slotKey_keepNewer
  show (merged (mergeQuotaPoints points)).insertionSort resultLe =
    (merged points).insertionSort resultLe
  rw [hagain]

/-- **Merging quota points** is a canonical operation on sets of points. -/
theorem merge_quota_points_canonical (points : List (QuotaPoint Percent)) :
    (∀ points', (∀ p, p ∈ points' ↔ p ∈ points) →
      mergeQuotaPoints points' = mergeQuotaPoints points) ∧
    mergeQuotaPoints (mergeQuotaPoints points) = mergeQuotaPoints points ∧
    ((mergeQuotaPoints points).map slotKey).Nodup ∧
    (∀ p ∈ points,
      anchoredPoint points p = { p with resetsAt := (anchoredPoint points p).resetsAt } ∧
      (∃ a ∈ points, limitKey a = limitKey p ∧ a.resetsAt = (anchoredPoint points p).resetsAt) ∧
      ∀ q ∈ points, cycleKey (anchoredPoint points p) = cycleKey (anchoredPoint points q) →
        |p.resetsAt - q.resetsAt| < seconds 121) ∧
    (∀ p ∈ points, ∃ r ∈ mergeQuotaPoints points, slotKey r = slotKey (anchoredPoint points p) ∧
      ∀ q ∈ points, slotKey (anchoredPoint points q) = slotKey r → freshness q ≤ freshness r) ∧
    ∀ r ∈ mergeQuotaPoints points, ∃ p ∈ points, anchoredPoint points p = r := by
  refine ⟨fun points' h => mergeQuotaPoints_congr h, mergeQuotaPoints_idem points, nodup_slotKey,
    fun p hp => ⟨?_, ?_, fun q hq hcycle => ?_⟩, fun p hp => ?_, fun r hr => (of_mem_merged hr).1⟩
  · exact (anchored_spec (mem_assigned hp)).same
  · rcases (anchored_spec (mem_assigned hp)).of_points with hnone | ⟨a, ha, hlimit, hreset⟩
    · cases hnone
    · exact ⟨a, (List.mem_insertionSort pointLe).1 ha, hlimit, hreset⟩
  · have hp' := anchored_spec (mem_assigned hp)
    have hq' := anchored_spec (mem_assigned hq)
    have hreset : (anchoredPoint points p).resetsAt = (anchoredPoint points q).resetsAt :=
      congrArg (fun key => (ofLex key).2) hcycle
    have hnear := hp'.near
    have hnear' := hq'.near
    have hle := hp'.reset_le
    have hle' := hq'.reset_le
    rw [abs_lt]
    constructor <;> linarith
  · obtain ⟨r, hr, hkey⟩ := exists_merged hp
    exact ⟨r, hr, hkey, fun q hq => (of_mem_merged hr).2 q hq⟩

end

namespace Sample

/-- A point of a window that resets at some instant. -/
def point (resetsAt : DateTime) : QuotaPoint Nat where
  observedAt := seconds 60
  limitId := "codex"
  durationMins := 300
  resetsAt := resetsAt
  usedPercent := 40
  remainingPercent := 60

/-- Two resets, half a second more than the drift apart. -/
def points : List (QuotaPoint Nat) := [point (hours 5), point (hours 5 + seconds 120 + 500000000)]

end Sample

open History.QuotaMerge.Sample in
/-- The drift is counted in whole seconds: resets more than 120 seconds apart share an anchor. -/
theorem resets_past_drift_share_anchor :
    ∃ p ∈ points, ∃ q ∈ points,
      cycleKey (anchoredPoint points p) = cycleKey (anchoredPoint points q) ∧
        seconds 120 < |p.resetsAt - q.resetsAt| := by
  decide +kernel

end History.QuotaMerge
