import Mathlib.Algebra.BigOperators.Group.Finset.Piecewise
import Mathlib.Algebra.GroupWithZero.Nat
import Mathlib.Algebra.Order.BigOperators.Group.List
import Mathlib.Algebra.Order.Group.Nat

/-!
# Tallies

An ordered map from keys to accumulators: `entry` updates the accumulator of a key, or an empty one
under a new key, and `tally` does so for the items of a list. What a key holds is what its items
leave in the accumulator (`valueOf_tally`), so a count that adds up over the items adds up over the
keys (`sum_tally`).
-/

namespace Tally

variable {κ ν σ : Type} [LinearOrder κ]

section
variable (empty : ν)

/-- Update the accumulator of a key, an empty one if the key is new. -/
def entry (k : κ) (update : ν → ν) : List (κ × ν) → List (κ × ν)
  | [] => [(k, update empty)]
  | e :: m =>
    if k < e.1 then (k, update empty) :: e :: m
    else if k = e.1 then (e.1, update e.2) :: m
    else e :: entry k update m

def valueOf (k : κ) (m : List (κ × ν)) : Option ν := (m.find? fun e => e.1 = k).map Prod.snd

/-- The entries of the items of a list, one after the other. -/
def tally (key : σ → κ) (update : ν → σ → ν) (m : List (κ × ν)) (items : List σ) : List (κ × ν) :=
  items.foldl (fun m item => entry empty (key item) (update · item) m) m

/-- The items of a key. -/
def itemsOf (key : σ → κ) (k : κ) (items : List σ) : List σ := items.filter fun item => key item = k

end

/-- In strict order of the keys. -/
def Keyed (m : List (κ × ν)) : Prop := m.Pairwise fun a b => a.1 < b.1

section
variable {empty : ν} {k k' : κ} {update : ν → ν} {m : List (κ × ν)} {v : ν}

theorem valueOf_nil : valueOf k ([] : List (κ × ν)) = none := rfl

theorem valueOf_cons (e : κ × ν) :
    valueOf k (e :: m) = if e.1 = k then some e.2 else valueOf k m := by
  unfold valueOf
  rw [List.find?_cons]
  split_ifs with h <;> simp [h]

theorem valueOf_of_lt (hk : ∀ e ∈ m, k < e.1) : valueOf k m = none := by
  unfold valueOf
  rw [Option.map_eq_none_iff, List.find?_eq_none]
  intro e he
  simpa using (hk e he).ne'

theorem mem_keys_of_valueOf (h : valueOf k m = some v) : k ∈ m.map Prod.fst := by
  obtain ⟨e, he, -⟩ := Option.map_eq_some_iff.1 h
  exact List.mem_map.2 ⟨e, List.mem_of_find?_eq_some he, by simpa using List.find?_some he⟩

theorem Keyed.mem_iff (h : Keyed m) : (k, v) ∈ m ↔ valueOf k m = some v := by
  induction m with
  | nil => simp [valueOf]
  | cons e m ih =>
    obtain ⟨hlt, hm⟩ := List.pairwise_cons.1 h
    rw [List.mem_cons, valueOf_cons]
    split_ifs with hk
    · subst hk
      constructor
      · rintro (heq | hmem)
        · rw [← heq]
        · exact absurd (hlt _ hmem) (lt_irrefl _)
      · rintro heq
        exact .inl (Prod.ext rfl (Option.some.inj heq).symm)
    · rw [ih hm]
      refine or_iff_right ?_
      rintro rfl
      exact hk rfl

theorem Keyed.nodup (h : Keyed m) : (m.map Prod.fst).Nodup :=
  List.pairwise_map.2 (h.imp fun hlt => ne_of_lt hlt)

theorem Keyed.ext {m' : List (κ × ν)} (h : Keyed m) (h' : Keyed m')
    (heq : ∀ k, valueOf k m = valueOf k m') : m = m' := by
  have hnodup : ∀ {m : List (κ × ν)}, Keyed m → m.Nodup := fun h =>
    List.Nodup.of_map _ h.nodup
  have hperm : m.Perm m' := (List.perm_ext_iff_of_nodup (hnodup h) (hnodup h')).2 fun e => by
    rw [← Prod.mk.eta (p := e), h.mem_iff, h'.mem_iff, heq]
  exact List.Perm.eq_of_pairwise (fun a b _ _ hab hba => absurd hba hab.not_gt) h h' hperm

/-- **An entry** changes the accumulator of its key only. -/
theorem Keyed.valueOf_entry (h : Keyed m) : valueOf k' (entry empty k update m) =
    if k = k' then some (update ((valueOf k m).getD empty)) else valueOf k' m := by
  induction m with
  | nil => rw [entry, valueOf_cons, valueOf_nil, valueOf_nil, Option.getD_none]
  | cons e m ih =>
    obtain ⟨hlt, hm⟩ := List.pairwise_cons.1 h
    unfold entry
    rcases lt_trichotomy k e.1 with hk | rfl | hk
    · have hnone : valueOf k (e :: m) = none :=
        valueOf_of_lt (List.forall_mem_cons.2 ⟨hk, fun a ha => hk.trans (hlt a ha)⟩)
      rw [if_pos hk, valueOf_cons, hnone, Option.getD_none]
    · rw [if_neg (lt_irrefl _), if_pos rfl, valueOf_cons, valueOf_cons, valueOf_cons, if_pos rfl,
        Option.getD_some]
      split_ifs <;> rfl
    · rw [if_neg hk.not_gt, if_neg hk.ne', valueOf_cons, valueOf_cons, valueOf_cons, ih hm,
        if_neg hk.ne]
      by_cases hkey : k = k'
      · subst hkey
        rw [if_neg hk.ne, if_pos rfl, if_pos rfl]
      · rw [if_neg hkey, if_neg hkey]

theorem mem_keys_entry {k' : κ} : k' ∈ (entry empty k update m).map Prod.fst ↔
    k' = k ∨ k' ∈ m.map Prod.fst := by
  induction m with
  | nil => simp [entry]
  | cons e m ih =>
    unfold entry
    split_ifs with hk heq
    · simp
    · simp [heq]
    · rw [List.map_cons, List.mem_cons, ih, List.map_cons, List.mem_cons]
      tauto

theorem keyed_entry (h : Keyed m) (empty : ν) (k : κ) (update : ν → ν) :
    Keyed (entry empty k update m) := by
  induction m with
  | nil => exact List.pairwise_singleton _ _
  | cons e m ih =>
    obtain ⟨hlt, hm⟩ := List.pairwise_cons.1 h
    unfold entry
    split_ifs with hk heq
    · exact List.pairwise_cons.2
        ⟨List.forall_mem_cons.2 ⟨hk, fun a ha => hk.trans (hlt a ha)⟩, h⟩
    · exact List.pairwise_cons.2 ⟨hlt, hm⟩
    · refine List.pairwise_cons.2 ⟨fun a ha => ?_, ih hm⟩
      rcases mem_keys_entry.1 (List.mem_map_of_mem ha) with hnew | hold
      · rw [hnew]
        exact lt_of_le_of_ne (not_lt.1 hk) (Ne.symm heq)
      · obtain ⟨b, hb, hba⟩ := List.mem_map.1 hold
        exact hba ▸ hlt b hb

end

/-! ## Tallies of items -/

section
variable {empty : ν} {key : σ → κ} {update : ν → σ → ν} {m : List (κ × ν)} {items : List σ} {k : κ}
  {v : ν}

theorem mem_itemsOf {item : σ} : item ∈ itemsOf key k items ↔ item ∈ items ∧ key item = k := by
  simp [itemsOf]

theorem itemsOf_comm {κ' : Type} [LinearOrder κ'] (key' : σ → κ') (k' : κ') :
    itemsOf key' k' (itemsOf key k items) = itemsOf key k (itemsOf key' k' items) := by
  unfold itemsOf
  rw [List.filter_filter, List.filter_filter]
  exact List.filter_congr fun item _ => Bool.and_comm _ _

theorem itemsOf_cons (item : σ) : itemsOf key k (item :: items) =
    if key item = k then item :: itemsOf key k items else itemsOf key k items := by
  unfold itemsOf
  rw [List.filter_cons]
  split_ifs <;> simp_all

theorem keyed_tally (h : Keyed m) (empty : ν) (key : σ → κ) (update : ν → σ → ν) (items : List σ) :
    Keyed (tally empty key update m items) := by
  induction items generalizing m with
  | nil => exact h
  | cons item items ih => exact ih (keyed_entry h empty _ _)

theorem mem_keys_tally : k ∈ (tally empty key update m items).map Prod.fst ↔
    k ∈ m.map Prod.fst ∨ ∃ item ∈ items, key item = k := by
  induction items generalizing m with
  | nil => simp [tally]
  | cons item items ih =>
    have hstep : tally empty key update m (item :: items) =
        tally empty key update (entry empty (key item) (update · item) m) items := rfl
    rw [hstep, ih, mem_keys_entry, List.exists_mem_cons_iff, eq_comm]
    tauto

/-- **What a key holds** is what its items leave in its accumulator. -/
theorem Keyed.valueOf_tally (h : Keyed m) : valueOf k (tally empty key update m items) =
    if itemsOf key k items = [] then valueOf k m
    else some ((itemsOf key k items).foldl update ((valueOf k m).getD empty)) := by
  induction items generalizing m with
  | nil => simp [tally, itemsOf]
  | cons item items ih =>
    have hstep : tally empty key update m (item :: items) =
        tally empty key update (entry empty (key item) (update · item) m) items := rfl
    rw [hstep, ih (keyed_entry h empty _ _), itemsOf_cons, h.valueOf_entry]
    by_cases hk : key item = k
    · subst hk
      rw [if_pos rfl, if_pos rfl, if_neg (List.cons_ne_nil _ _), List.foldl_cons, Option.getD_some]
      split_ifs with hnil
      · rw [hnil, List.foldl_nil]
      · rfl
    · rw [if_neg hk, if_neg hk]

theorem value_tally (h : Keyed m) (hempty : ∀ e ∈ m, e.2 = empty)
    (hmem : (k, v) ∈ tally empty key update m items) :
    v = (itemsOf key k items).foldl update empty := by
  have hget : (valueOf k m).getD empty = empty := by
    cases hv : valueOf k m with
    | none => rfl
    | some w => exact hempty _ (h.mem_iff.2 hv)
  have hv := (keyed_tally h empty key update items).mem_iff.1 hmem
  rw [h.valueOf_tally, hget] at hv
  split_ifs at hv with hnil
  · rw [hnil, List.foldl_nil]
    exact hempty _ (h.mem_iff.2 hv)
  · exact (Option.some.inj hv).symm

/-- **A tally does not see the order** of items whose updates commute. -/
theorem tally_perm (h : Keyed m) {items' : List σ} (hperm : items.Perm items')
    (hcomm : ∀ v a b, update (update v a) b = update (update v b) a) :
    tally empty key update m items = tally empty key update m items' := by
  have hright : RightCommutative update := ⟨hcomm⟩
  refine (keyed_tally h empty key update items).ext (keyed_tally h empty key update items')
    fun k => ?_
  have hitems : (itemsOf key k items).Perm (itemsOf key k items') := hperm.filter _
  rw [h.valueOf_tally, h.valueOf_tally, hitems.foldl_eq]
  simp only [← List.length_eq_zero_iff, hitems.length_eq]

theorem sum_itemsOf_le (key : σ → κ) (value : σ → ℕ) (k : κ) (items : List σ) :
    ((itemsOf key k items).map value).sum ≤ (items.map value).sum :=
  (List.filter_sublist.map _).sum_le_sum fun _ _ => Nat.zero_le _

theorem sum_by_key (key : σ → κ) (value : σ → ℕ) (items : List σ) (keys : Finset κ)
    (hkeys : ∀ item ∈ items, key item ∈ keys) :
    (items.map value).sum = ∑ k ∈ keys, ((itemsOf key k items).map value).sum := by
  induction items with
  | nil => simp [itemsOf]
  | cons item items ih =>
    have hsplit : ∀ k, ((itemsOf key k (item :: items)).map value).sum =
        (if key item = k then value item else 0) + ((itemsOf key k items).map value).sum := by
      intro k
      rw [itemsOf_cons]
      split_ifs
      · rw [List.map_cons, List.sum_cons]
      · rw [Nat.zero_add]
    rw [List.map_cons, List.sum_cons,
      ih fun other hother => hkeys other (List.mem_cons_of_mem _ hother)]
    simp only [hsplit, Finset.sum_add_distrib, Finset.sum_ite_eq]
    rw [if_pos (hkeys item List.mem_cons_self)]

theorem sum_keys {keys : List κ} (hnodup : keys.Nodup) (key : σ → κ) (value : σ → ℕ)
    (hkeys : ∀ item ∈ items, key item ∈ keys) :
    (keys.map fun k => ((itemsOf key k items).map value).sum).sum = (items.map value).sum := by
  rw [sum_by_key key value items keys.toFinset fun item hitem => by simpa using hkeys item hitem,
    List.sum_toFinset _ hnodup]

/-- **What adds up over the items** adds up over the keys. -/
theorem sum_tally (count : ν → ℕ) (value : σ → ℕ) (h : Keyed m) (hempty : ∀ e ∈ m, e.2 = empty)
    (hcount : ∀ k, count ((itemsOf key k items).foldl update empty) =
      ((itemsOf key k items).map value).sum) :
    ((tally empty key update m items).map fun e => count e.2).sum = (items.map value).sum := by
  have hvalues : (tally empty key update m items).map (fun e => count e.2) =
      ((tally empty key update m items).map Prod.fst).map
        fun k => ((itemsOf key k items).map value).sum := by
    rw [List.map_map]
    refine List.map_congr_left fun e he => ?_
    rw [value_tally h hempty he]
    exact hcount e.1
  rw [hvalues]
  refine sum_keys (keyed_tally h empty key update items).nodup key value fun item hitem => ?_
  exact mem_keys_tally.2 (.inr ⟨item, hitem, rfl⟩)

end

end Tally
