import Mathlib.Dynamics.PeriodicPts.Defs

/-!
# Memoised walks

A value of a node may depend on the value of the next node: `walk` follows the nodes, remembers the
values it has found in a cache, and cuts off where it comes back to a node it is still visiting.

* Where no node leads back to itself, the walks agree with the recursive `Value`, whatever the order
  of the nodes (`walkAll_value`): the order is not seen.
* A walk that begins on a cycle ends in the cut-off of the node it began at, and leaves that in the
  cache of the nodes it came by (`walkAll_cycle`): the order is seen.
-/

namespace MemoWalk

variable {Node V : Type} {t : Node} {visiting : List Node} {cache : List (Node × V)}

/-- What a walk does at a node: the next node it asks, the value with and without an answer, and the
value where it cuts off. -/
structure Rules (Node V : Type) where
  next : Node → Option Node
  finish : Node → Option V → V
  cut : Node → V

/-- One node leads to another. -/
def Rules.Leads (r : Rules Node V) (a b : Node) : Prop := r.next a = some b

section
variable [DecidableEq Node] (r : Rules Node V)

/-- The value of a node and the cache behind it. -/
def walk : ℕ → List Node → List (Node × V) → Node → V × List (Node × V)
  | 0, _, cache, t => (r.cut t, cache)
  | fuel + 1, visiting, cache, t =>
    match cache.lookup t with
    | some v => (v, cache)
    | none =>
      if t ∈ visiting then (r.cut t, cache)
      else match r.next t with
        | none => (r.finish t none, (t, r.finish t none) :: cache)
        | some u =>
          let answer := walk fuel (t :: visiting) cache u
          (r.finish t (some answer.1), (t, r.finish t (some answer.1)) :: answer.2)

/-- The cache after walks from some nodes. -/
def walkAll (fuel : ℕ) (cache : List (Node × V)) (order : List Node) : List (Node × V) :=
  order.foldl (fun cache t => (walk r fuel [] cache t).2) cache

end

/-! ## Values -/

/-- The value of a node, without a cache and without cut-offs. -/
inductive Value (r : Rules Node V) : Node → V → Prop
  | own {t : Node} (h : r.next t = none) : Value r t (r.finish t none)
  | ofNext {t u : Node} {v : V} (h : r.next t = some u) (hv : Value r u v) :
    Value r t (r.finish t (some v))

theorem Value.unique {r : Rules Node V} {v v' : V} (h : Value r t v) (h' : Value r t v') :
    v = v' := by
  induction h generalizing v' with
  | own hnone =>
    cases h' with
    | own => rfl
    | ofNext hsome => cases hnone.symm.trans hsome
  | ofNext hsome _ ih =>
    cases h' with
    | own hnone => cases hsome.symm.trans hnone
    | ofNext hsome' hv =>
      obtain rfl := Option.some.inj (hsome.symm.trans hsome')
      rw [ih hv]

variable {r : Rules Node V} {nodes : List Node}

/-- The nodes that lead on are among the nodes of a list, which bounds the depth of the walks. -/
def Within (r : Rules Node V) (nodes : List Node) : Prop := ∀ t u, r.Leads t u → t ∈ nodes

/-- The nodes that are visited fit into the list, with fuel for the rest. -/
structure Enough (nodes visiting : List Node) (fuel : ℕ) : Prop where
  nodup : visiting.Nodup
  subset : visiting ⊆ nodes
  fuel : nodes.length < fuel + visiting.length

theorem enough_nil (nodes : List Node) : Enough nodes [] (nodes.length + 1) where
  nodup := .nil
  subset := List.nil_subset _
  fuel := by simp

theorem Enough.fuel_pos {fuel : ℕ} (h : Enough nodes visiting fuel) : fuel ≠ 0 := by
  rintro rfl
  have hle := (h.nodup.subperm h.subset).length_le
  have hlt := h.fuel
  omega

theorem Enough.visit {fuel : ℕ} (h : Enough nodes visiting (fuel + 1)) (ht : t ∉ visiting)
    (hmem : t ∈ nodes) :
    Enough nodes (t :: visiting) fuel where
  nodup := h.nodup.cons ht
  subset := List.cons_subset.2 ⟨hmem, h.subset⟩
  fuel := by
    have hlt := h.fuel
    rw [List.length_cons]
    omega

/-! ## Cycles -/

/-- The node that a walk without a cache comes back to. -/
inductive Returns (r : Rules Node V) : List Node → Node → Node → Prop
  | here {visiting : List Node} {t : Node} (h : t ∈ visiting) : Returns r visiting t t
  | step {visiting : List Node} {t u w : Node} (hnew : t ∉ visiting) (h : r.next t = some u)
    (hrest : Returns r (t :: visiting) u w) : Returns r visiting t w

/-- The next node, or the node itself. -/
def Rules.step (r : Rules Node V) (t : Node) : Node := (r.next t).getD t

theorem leads_step (h : Relation.TransGen r.Leads t t) :
    r.next t = some (r.step t) ∧ Relation.TransGen r.Leads (r.step t) (r.step t) := by
  obtain ⟨u, hu, hback⟩ := Relation.TransGen.head'_iff.1 h
  have hstep : r.step t = u := by
    unfold Rules.step
    rw [show r.next t = some u from hu, Option.getD_some]
  rw [hstep]
  exact ⟨hu, Relation.TransGen.tail' hback hu⟩

theorem leads_iterate (h : Relation.TransGen r.Leads t t) (i : ℕ) :
    r.next (r.step^[i] t) = some (r.step^[i + 1] t) := by
  have hcycle : Relation.TransGen r.Leads (r.step^[i] t) (r.step^[i] t) := by
    induction i with
    | zero => exact h
    | succ i ih =>
      rw [Function.iterate_succ_apply']
      exact (leads_step ih).2
  rw [Function.iterate_succ_apply']
  exact (leads_step hcycle).1

theorem periodic_of_leads {u : Node} (h : Relation.TransGen r.Leads t u) :
    ∃ n, 0 < n ∧ r.step^[n] t = u := by
  induction h with
  | single hu =>
    refine ⟨1, Nat.one_pos, ?_⟩
    unfold Rules.step
    rw [Function.iterate_one, show r.next t = some _ from hu, Option.getD_some]
  | tail _ hu ih =>
    obtain ⟨n, hn, rfl⟩ := ih
    refine ⟨n + 1, Nat.succ_pos n, ?_⟩
    rw [Function.iterate_succ_apply']
    unfold Rules.step at hu ⊢
    rw [show r.next _ = some _ from hu, Option.getD_some]

theorem returns_self (h : Relation.TransGen r.Leads t t) : Returns r [] t t := by
  obtain ⟨n, hn, hperiod⟩ := periodic_of_leads h
  have hpos : 0 < Function.minimalPeriod r.step t :=
    Function.IsPeriodicPt.minimalPeriod_pos hn hperiod
  -- the nodes before the `i`-th one, in the order in which they are visited
  have hwalk : ∀ k i, i + k = Function.minimalPeriod r.step t →
      Returns r ((List.range i).reverse.map (r.step^[·] t)) (r.step^[i] t) t := by
    intro k
    induction k with
    | zero =>
      intro i hi
      rw [Nat.add_zero] at hi
      subst hi
      rw [Function.iterate_minimalPeriod]
      refine .here ?_
      rw [List.mem_map]
      exact ⟨0, by simpa using hpos, rfl⟩
    | succ k ih =>
      intro i hi
      refine .step ?_ (leads_iterate h i) ?_
      · rw [List.mem_map]
        rintro ⟨j, hj, heq⟩
        rw [List.mem_reverse, List.mem_range] at hj
        have hinj := Function.iterate_injOn_Iio_minimalPeriod (f := r.step) (x := t)
        have hji := hinj (show j < _ by omega) (show i < _ by omega) heq
        omega
      · have hnext := ih (i + 1) (by omega)
        rw [List.range_succ, List.reverse_append, List.reverse_singleton, List.singleton_append,
          List.map_cons] at hnext
        exact hnext
  simpa using hwalk _ 0 (Nat.zero_add _)

/-! ## Walks without cycles -/

variable [DecidableEq Node]

def Sound (r : Rules Node V) (cache : List (Node × V)) : Prop :=
  ∀ t v, cache.lookup t = some v → Value r t v

/-- One cache holds what another does. -/
def Extends (cache cache' : List (Node × V)) : Prop :=
  ∀ t v, cache.lookup t = some v → cache'.lookup t = some v

theorem Extends.refl (cache : List (Node × V)) : Extends cache cache := fun _ _ h => h

theorem Extends.trans {a b c : List (Node × V)} (h : Extends a b) (h' : Extends b c) :
    Extends a c := fun t v hv => h' t v (h t v hv)

theorem lookup_cons_self {v : V} : ((t, v) :: cache).lookup t = some v := by simp

theorem lookup_cons_of_ne {u : Node} {v : V} (h : u ≠ t) :
    ((t, v) :: cache).lookup u = cache.lookup u := by
  rw [List.lookup_cons, beq_false_of_ne h]

theorem extends_cons {v : V} (h : cache.lookup t = none) : Extends cache ((t, v) :: cache) := by
  intro u w hw
  rw [lookup_cons_of_ne, hw]
  rintro rfl
  cases h.symm.trans hw

theorem Sound.cons {t : Node} {v : V} {cache : List (Node × V)} (h : Sound r cache)
    (hv : Value r t v) : Sound r ((t, v) :: cache) := by
  intro u w hw
  by_cases heq : u = t
  · subst heq
    rw [lookup_cons_self] at hw
    exact Option.some.inj hw ▸ hv
  · rw [lookup_cons_of_ne heq] at hw
    exact h u w hw

/-- **A walk without cycles** finds the value of its node and leaves it in a cache of values. -/
theorem walk_value (hacyclic : ∀ t, ¬ Relation.TransGen r.Leads t t) (hwithin : Within r nodes)
    {fuel : ℕ} (henough : Enough nodes visiting fuel) (hsound : Sound r cache)
    (hvisiting : ∀ u ∈ visiting, Relation.TransGen r.Leads u t) :
    Sound r (walk r fuel visiting cache t).2 ∧ Extends cache (walk r fuel visiting cache t).2 ∧
      (walk r fuel visiting cache t).2.lookup t = some (walk r fuel visiting cache t).1 := by
  induction fuel generalizing visiting cache t with
  | zero => exact absurd rfl henough.fuel_pos
  | succ fuel ih =>
    have hnot : t ∉ visiting := fun hmem => hacyclic t (hvisiting t hmem)
    unfold walk
    cases hlook : cache.lookup t with
    | some v => exact ⟨hsound, Extends.refl cache, hlook⟩
    | none =>
      simp only [if_neg hnot]
      cases hnext : r.next t with
      | none => exact ⟨hsound.cons (.own hnext), extends_cons hlook, lookup_cons_self⟩
      | some u =>
        have hleads : ∀ w ∈ t :: visiting, Relation.TransGen r.Leads w u :=
          List.forall_mem_cons.2 ⟨.single hnext, fun w hw => (hvisiting w hw).tail hnext⟩
        obtain ⟨hsound', hext, hu⟩ := ih (henough.visit hnot (hwithin t u hnext)) hsound hleads
        have hvalue := Value.ofNext hnext (hsound' u _ hu)
        refine ⟨hsound'.cons hvalue, ?_, lookup_cons_self⟩
        intro w x hx
        by_cases heq : w = t
        · subst heq
          cases hlook.symm.trans hx
        · exact (lookup_cons_of_ne heq).trans (hext w x hx)

/-- **Walks in any order** find the values of their nodes. -/
theorem walkAll_value (hacyclic : ∀ t, ¬ Relation.TransGen r.Leads t t) (hwithin : Within r nodes)
    (hsound : Sound r cache) (order : List Node) :
    Sound r (walkAll r (nodes.length + 1) cache order) ∧
      Extends cache (walkAll r (nodes.length + 1) cache order) ∧
      ∀ t ∈ order, ∃ v, (walkAll r (nodes.length + 1) cache order).lookup t = some v ∧
        Value r t v := by
  induction order generalizing cache with
  | nil => exact ⟨hsound, Extends.refl cache, by simp⟩
  | cons t order ih =>
    obtain ⟨hsound₁, hext₁, ht⟩ :=
      walk_value hacyclic hwithin (t := t) (enough_nil nodes) hsound (by simp)
    obtain ⟨hsound₂, hext₂, hrest⟩ := ih hsound₁
    refine ⟨hsound₂, hext₁.trans hext₂, List.forall_mem_cons.2 ⟨?_, hrest⟩⟩
    exact ⟨_, hext₂ t _ ht, hsound₁ t _ ht⟩

theorem sound_nil : Sound r [] := by
  intro t v h
  cases h

/-- **The order is not seen**: walks in two orders find the same values. -/
theorem walkAll_agree (hacyclic : ∀ t, ¬ Relation.TransGen r.Leads t t) (hwithin : Within r nodes)
    {order order' : List Node} (ht : t ∈ order) (ht' : t ∈ order') :
    (walkAll r (nodes.length + 1) [] order).lookup t =
      (walkAll r (nodes.length + 1) [] order').lookup t := by
  obtain ⟨v, hv, hvalue⟩ := (walkAll_value hacyclic hwithin sound_nil order).2.2 t ht
  obtain ⟨v', hv', hvalue'⟩ := (walkAll_value hacyclic hwithin sound_nil order').2.2 t ht'
  rw [hv, hv', hvalue.unique hvalue']

/-! ## Walks on a cycle -/

/-- **A walk that comes back** to a node ends in its cut-off, if answers are passed on, and leaves
that in the cache of its first node. -/
theorem walk_returns (hpass : ∀ t v, r.finish t (some v) = v) (hwithin : Within r nodes)
    {w : Node} (h : Returns r visiting t w) {fuel : ℕ} (henough : Enough nodes visiting fuel) :
    (walk r fuel visiting [] t).1 = r.cut w ∧
      (t ∉ visiting → (walk r fuel visiting [] t).2.lookup t = some (r.cut w)) := by
  induction h generalizing fuel with
  | here hmem =>
    obtain ⟨fuel, rfl⟩ := Nat.exists_eq_succ_of_ne_zero henough.fuel_pos
    refine ⟨?_, fun hnot => absurd hmem hnot⟩
    simp [walk, hmem]
  | step hnew hnext _ ih =>
    obtain ⟨fuel, rfl⟩ := Nat.exists_eq_succ_of_ne_zero henough.fuel_pos
    obtain ⟨hvalue, -⟩ := ih (henough.visit hnew (hwithin _ _ hnext))
    unfold walk
    simp only [List.lookup_nil, if_neg hnew, hnext, hpass, hvalue]
    exact ⟨trivial, fun _ => lookup_cons_self⟩

/-- **A walk that begins on a cycle** leaves the cut-off of its node there and at the next one. -/
theorem walk_cycle (hpass : ∀ t v, r.finish t (some v) = v) (hwithin : Within r nodes) {u : Node}
    (h : Relation.TransGen r.Leads t t) (hnext : r.next t = some u) (hne : u ≠ t) :
    (walk r (nodes.length + 1) [] [] t).2.lookup t = some (r.cut t) ∧
      (walk r (nodes.length + 1) [] [] t).2.lookup u = some (r.cut t) := by
  refine ⟨(walk_returns hpass hwithin (returns_self h) (enough_nil nodes)).2 (by simp), ?_⟩
  cases returns_self h with
  | here hmem => cases hmem
  | step hnew hnext' hrest =>
    obtain rfl := Option.some.inj (hnext.symm.trans hnext')
    have henough := (enough_nil nodes).visit hnew (hwithin _ _ hnext)
    have hlook := (walk_returns hpass hwithin hrest henough).2 (by simpa using hne)
    unfold walk
    simp only [List.lookup_nil, if_neg hnew, hnext]
    exact (lookup_cons_of_ne hne).trans hlook

theorem extends_walk {fuel : ℕ} : Extends cache (walk r fuel visiting cache t).2 := by
  induction fuel generalizing visiting cache t with
  | zero => exact Extends.refl cache
  | succ fuel ih =>
    unfold walk
    cases hlook : cache.lookup t with
    | some v => exact Extends.refl cache
    | none =>
      dsimp only
      split
      · exact Extends.refl cache
      · split
        · exact extends_cons hlook
        · intro w x hx
          by_cases heq : w = t
          · subst heq
            cases hlook.symm.trans hx
          · exact (lookup_cons_of_ne heq).trans (ih w x hx)

theorem extends_walkAll {fuel : ℕ} (order : List Node) :
    Extends cache (walkAll r fuel cache order) := by
  induction order generalizing cache with
  | nil => exact Extends.refl cache
  | cons t order ih => exact extends_walk.trans ih

/-- **Walks in an order that begins on a cycle.** -/
theorem walkAll_cycle (hpass : ∀ t v, r.finish t (some v) = v) (hwithin : Within r nodes)
    {u : Node} (h : Relation.TransGen r.Leads t t) (hnext : r.next t = some u) (hne : u ≠ t)
    (order : List Node) :
    (walkAll r (nodes.length + 1) [] (t :: order)).lookup t = some (r.cut t) ∧
      (walkAll r (nodes.length + 1) [] (t :: order)).lookup u = some (r.cut t) := by
  obtain ⟨ht, hu⟩ := walk_cycle hpass hwithin h hnext hne
  exact ⟨extends_walkAll order _ _ ht, extends_walkAll order _ _ hu⟩

end MemoWalk
