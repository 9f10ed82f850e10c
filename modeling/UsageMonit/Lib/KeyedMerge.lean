import Mathlib.Algebra.GroupWithZero.Nat
import Mathlib.Data.List.Induction
import Mathlib.Data.List.Perm.Basic
import Mathlib.Data.List.Sort

/-!
# Ordered maps that merge equal keys

A list kept in strict order of a key, with the entry operation of an ordered map: an element is
inserted under a new key and merged into the element of a key that is there (`upsert`). What a key
holds after a list of elements is the merge of the elements of that key in their order
(`valueAt_collect`), and such lists are compared key by key (`forall₂_of_valueAt`). A merge that is
commutative and associative does not see the order of its elements (`mergeAll_perm`).
-/

namespace KeyedMerge

variable {α κ : Type*} [LinearOrder κ] {l : List α} {a : α}

def mergeAll (merge : α → α → α) : List α → Option α
  | [] => none
  | a :: as => some (as.foldl merge a)

section
variable (key : α → κ) (merge : α → α → α)

/-- Insert an element, or merge it into the one of its key. -/
def upsert (a : α) : List α → List α
  | [] => [a]
  | b :: l =>
    if key a < key b then a :: b :: l
    else if key a = key b then merge b a :: l
    else b :: upsert a l

def collect (as : List α) : List α := as.foldl (fun l a => upsert key merge a l) []

def valueAt (k : κ) (l : List α) : Option α := l.find? fun a => key a = k

def Ordered (l : List α) : Prop := l.Pairwise fun a b => key a < key b

end

section
variable {key : α → κ} {merge : α → α → α}

theorem mergeAll_concat (as : List α) (a : α) :
    mergeAll merge (as ++ [a]) =
      some (match mergeAll merge as with
        | some b => merge b a
        | none => a) := by
  cases as with
  | nil => rfl
  | cons b as => simp [mergeAll]

theorem mergeAll_of {P : α → Prop} (hP : ∀ a b, P a → P b → P (merge a b)) {as : List α}
    (has : ∀ a ∈ as, P a) {b : α} (h : mergeAll merge as = some b) : P b := by
  induction as using List.reverseRecOn generalizing b with
  | nil => cases h
  | append_singleton as a ih =>
    rw [mergeAll_concat] at h
    have ha : P a := has a (by simp)
    cases hinit : mergeAll merge as with
    | none =>
      rw [hinit] at h
      exact Option.some.inj h ▸ ha
    | some c =>
      rw [hinit] at h
      exact Option.some.inj h ▸ hP c a (ih (fun d hd => has d (by simp [hd])) hinit) ha

theorem mergeAll_map_of {P : α → Prop} (hP : ∀ a b, P a → P b → P (merge a b)) {β : Type*}
    {merge' : β → β → β} {f : α → β}
    (hf : ∀ a b, P a → P b → f (merge a b) = merge' (f a) (f b)) {as : List α}
    (has : ∀ a ∈ as, P a) : mergeAll merge' (as.map f) = (mergeAll merge as).map f := by
  induction as using List.reverseRecOn with
  | nil => rfl
  | append_singleton as a ih =>
    have hinit : ∀ b ∈ as, P b := fun b hb => has b (by simp [hb])
    rw [List.map_append, List.map_singleton, mergeAll_concat, mergeAll_concat, ih hinit]
    cases hb : mergeAll merge as with
    | none => rfl
    | some b => simp [hf b a (mergeAll_of hP hinit hb) (has a (by simp))]

theorem mergeAll_map {β : Type*} {merge' : β → β → β} {f : α → β}
    (hf : ∀ a b, f (merge a b) = merge' (f a) (f b)) (as : List α) :
    mergeAll merge' (as.map f) = (mergeAll merge as).map f :=
  mergeAll_map_of (P := fun _ => True) (fun _ _ _ _ => trivial) (fun a b _ _ => hf a b)
    fun _ _ => trivial

def mergeOption (merge : α → α → α) : Option α → Option α → Option α
  | some a, some b => some (merge a b)
  | some a, none => some a
  | none, b => b

theorem mergeAll_append (hassoc : ∀ a b c, merge (merge a b) c = merge a (merge b c))
    (as bs : List α) :
    mergeAll merge (as ++ bs) = mergeOption merge (mergeAll merge as) (mergeAll merge bs) := by
  induction bs using List.reverseRecOn with
  | nil =>
    rw [List.append_nil]
    cases mergeAll merge as <;> rfl
  | append_singleton bs b ih =>
    rw [← List.append_assoc, mergeAll_concat, mergeAll_concat, ih]
    cases mergeAll merge as <;> cases mergeAll merge bs <;> simp [mergeOption, hassoc]

/-- **The order of the elements does not matter.** -/
theorem mergeAll_perm (hcomm : ∀ a b, merge a b = merge b a)
    (hassoc : ∀ a b c, merge (merge a b) c = merge a (merge b c)) {as bs : List α}
    (h : as.Perm bs) : mergeAll merge as = mergeAll merge bs := by
  have hright : RightCommutative merge :=
    ⟨fun a b c => by rw [hassoc, hcomm b c, ← hassoc]⟩
  induction h with
  | nil => rfl
  | cons a h => exact congrArg some (h.foldl_eq a)
  | swap a b l => simp only [mergeAll, List.foldl_cons, hcomm a b]
  | trans _ _ ih ih' => exact ih.trans ih'

theorem valueAt_key {k : κ} (h : valueAt key k l = some a) : a ∈ l ∧ key a = k :=
  ⟨List.mem_of_find?_eq_some h, by simpa using List.find?_some h⟩

theorem valueAt_eq_none {k : κ} : valueAt key k l = none ↔ ∀ a ∈ l, key a ≠ k := by
  simp [valueAt]

theorem valueAt_cons_of_eq {k : κ} (h : key a = k) : valueAt key k (a :: l) = some a := by
  simp [valueAt, h]

theorem valueAt_cons_of_ne {k : κ} (h : key a ≠ k) : valueAt key k (a :: l) = valueAt key k l := by
  simp [valueAt, h]

theorem Ordered.valueAt_self (h : Ordered key l) (ha : a ∈ l) : valueAt key (key a) l = some a := by
  induction l with
  | nil => cases ha
  | cons b l ih =>
    obtain ⟨hlt, h⟩ := List.pairwise_cons.1 h
    rcases List.mem_cons.1 ha with rfl | ha
    · exact valueAt_cons_of_eq rfl
    · rw [valueAt_cons_of_ne (ne_of_lt (hlt a ha)), ih h ha]

section
variable {P : α → Prop} (hP : ∀ a b, P a → P b → P (merge a b))
include hP

theorem upsert_of (ha : P a) : ∀ {l : List α}, (∀ b ∈ l, P b) →
    ∀ b ∈ upsert key merge a l, P b
  | [], _, b, hb => List.mem_singleton.1 hb ▸ ha
  | c :: l, hl, b, hb => by
    have hc : P c := hl c List.mem_cons_self
    have hrest : ∀ d ∈ l, P d := fun d hd => hl d (List.mem_cons_of_mem c hd)
    unfold upsert at hb
    split at hb
    · rcases List.mem_cons.1 hb with rfl | hb
      · exact ha
      · exact hl b hb
    · split at hb <;> rcases List.mem_cons.1 hb with rfl | hb
      · exact hP c a hc ha
      · exact hrest b hb
      · exact hc
      · exact upsert_of ha hrest b hb

theorem collect_of {as : List α} (has : ∀ a ∈ as, P a) : ∀ b ∈ collect key merge as, P b := by
  induction as using List.reverseRecOn with
  | nil => exact fun b hb => absurd hb List.not_mem_nil
  | append_singleton as a ih =>
    have hstep : collect key merge (as ++ [a]) = upsert key merge a (collect key merge as) := by
      simp [collect]
    rw [hstep]
    exact upsert_of hP (has a (by simp)) (ih fun b hb => has b (by simp [hb]))

end

theorem mem_upsert_of_new {b : α} : ∀ {l : List α}, (∀ c ∈ l, key c ≠ key a) →
    (b ∈ upsert key merge a l ↔ b = a ∨ b ∈ l)
  | [], _ => by simp [upsert]
  | c :: l, hnew => by
    have hrest : ∀ d ∈ l, key d ≠ key a := fun d hd => hnew d (List.mem_cons_of_mem c hd)
    unfold upsert
    split
    · simp
    · split
      · rename_i heq
        exact absurd heq.symm (hnew c List.mem_cons_self)
      · simp only [List.mem_cons, mem_upsert_of_new hrest]
        tauto

theorem Ordered.ext {l' : List α} (h : Ordered key l) (h' : Ordered key l')
    (hmem : ∀ a, a ∈ l ↔ a ∈ l') : l = l' := by
  have hnodup : ∀ {l : List α}, Ordered key l → l.Nodup := fun h =>
    List.Pairwise.imp (fun hlt => ne_of_apply_ne key (ne_of_lt hlt)) h
  exact List.Perm.eq_of_pairwise (fun a b _ _ hlt hgt => absurd hlt (lt_asymm hgt)) h h'
    ((List.perm_ext_iff_of_nodup (hnodup h) (hnodup h')).2 hmem)

section
variable (hkey : ∀ a b, key a = key b → key (merge a b) = key a)
include hkey

theorem upsert_keys : ∀ {l : List α} {b : α}, b ∈ upsert key merge a l →
    key b = key a ∨ ∃ c ∈ l, key b = key c
  | [], b, hb => .inl (by rw [List.mem_singleton.1 hb])
  | c :: l, b, hb => by
    unfold upsert at hb
    split at hb
    · rcases List.mem_cons.1 hb with rfl | hb
      · exact .inl rfl
      · exact .inr ⟨b, hb, rfl⟩
    · split at hb
      · rename_i heq
        rcases List.mem_cons.1 hb with rfl | hb
        · exact .inl (by rw [hkey c a heq.symm, heq])
        · exact .inr ⟨b, List.mem_cons_of_mem c hb, rfl⟩
      · rcases List.mem_cons.1 hb with rfl | hb
        · exact .inr ⟨b, List.mem_cons_self, rfl⟩
        · rcases upsert_keys hb with h | ⟨d, hd, h⟩
          · exact .inl h
          · exact .inr ⟨d, List.mem_cons_of_mem c hd, h⟩

theorem Ordered.upsert : ∀ {l : List α}, Ordered key l →
    Ordered key (upsert key merge a l)
  | [], _ => List.pairwise_singleton _ a
  | b :: l, h => by
    obtain ⟨hlt, hl⟩ := List.pairwise_cons.1 h
    unfold KeyedMerge.upsert
    split
    · rename_i hab
      refine List.pairwise_cons.2 ⟨fun c hc => ?_, h⟩
      rcases List.mem_cons.1 hc with rfl | hc
      · exact hab
      · exact hab.trans (hlt c hc)
    · rename_i hab
      split
      · rename_i heq
        refine List.pairwise_cons.2 ⟨fun c hc => ?_, hl⟩
        rw [hkey b a heq.symm]
        exact hlt c hc
      · rename_i hne
        have hba : key b < key a := lt_of_le_of_ne (not_lt.1 hab) (Ne.symm hne)
        refine List.pairwise_cons.2 ⟨fun c hc => ?_, Ordered.upsert hl⟩
        rcases upsert_keys hkey hc with h | ⟨d, hd, h⟩
        · rw [h]
          exact hba
        · rw [h]
          exact hlt d hd

theorem Ordered.collect (as : List α) : Ordered key (collect key merge as) := by
  have hfold : ∀ l : List α, Ordered key l →
      Ordered key (as.foldl (fun l a => KeyedMerge.upsert key merge a l) l) := by
    induction as with
    | nil => exact fun l h => h
    | cons a as ih => exact fun l h => ih _ (h.upsert hkey)
  exact hfold [] .nil

/-- What the entry operation does to the value of a key. -/
theorem valueAt_upsert (k : κ) : ∀ {l : List α}, Ordered key l →
    valueAt key k (upsert key merge a l) =
      if key a = k then some (match valueAt key k l with
        | some b => merge b a
        | none => a)
      else valueAt key k l
  | [], _ => by
    by_cases hk : key a = k <;> simp [upsert, valueAt, hk]
  | b :: l, h => by
    obtain ⟨hlt, hl⟩ := List.pairwise_cons.1 h
    unfold upsert
    split
    · rename_i hab
      by_cases hk : key a = k
      · have hnone : valueAt key k (b :: l) = none := by
          rw [valueAt_eq_none]
          intro c hc hck
          rcases List.mem_cons.1 hc with rfl | hc
          · exact absurd (hk.trans hck.symm) (ne_of_lt hab)
          · exact absurd (hk.trans hck.symm) (ne_of_lt (hab.trans (hlt c hc)))
        rw [valueAt_cons_of_eq hk, if_pos hk, hnone]
      · rw [valueAt_cons_of_ne hk, if_neg hk]
    · split
      · rename_i heq
        by_cases hk : key a = k
        · have hbk : key b = k := heq ▸ hk
          rw [valueAt_cons_of_eq ((hkey b a heq.symm).trans hbk), if_pos hk, valueAt_cons_of_eq hbk]
        · have hbk : key b ≠ k := heq ▸ hk
          rw [valueAt_cons_of_ne (by rwa [hkey b a heq.symm]), if_neg hk, valueAt_cons_of_ne hbk]
      · rename_i hne
        by_cases hbk : key b = k
        · have hk : key a ≠ k := fun hk => hne (hk.trans hbk.symm)
          rw [valueAt_cons_of_eq hbk, if_neg hk, valueAt_cons_of_eq hbk]
        · rw [valueAt_cons_of_ne hbk, valueAt_upsert k hl, valueAt_cons_of_ne hbk]

/-- **What a key holds**: its elements, merged in order. -/
theorem valueAt_collect (k : κ) (as : List α) :
    valueAt key k (collect key merge as) = mergeAll merge (as.filter fun a => key a = k) := by
  induction as using List.reverseRecOn with
  | nil => rfl
  | append_singleton as a ih =>
    have hstep : collect key merge (as ++ [a]) = upsert key merge a (collect key merge as) := by
      simp [collect]
    rw [hstep, valueAt_upsert hkey k (Ordered.collect hkey as), ih, List.filter_append]
    by_cases hk : key a = k
    · rw [if_pos hk, List.filter_cons_of_pos (by simpa using hk), List.filter_nil, mergeAll_concat]
    · rw [if_neg hk, List.filter_cons_of_neg (by simpa using hk), List.filter_nil, List.append_nil]

end

theorem Ordered.filter_key (h : Ordered key l) (k : κ) :
    (l.filter fun a => key a = k) = (valueAt key k l).toList := by
  induction l with
  | nil => rfl
  | cons a l ih =>
    obtain ⟨hlt, hl⟩ := List.pairwise_cons.1 h
    by_cases hk : key a = k
    · have hrest : (l.filter fun b => key b = k) = [] := by
        rw [List.filter_eq_nil_iff]
        intro b hb hbk
        exact absurd (hk.trans (by simpa using hbk : key b = k).symm) (ne_of_lt (hlt b hb))
      rw [List.filter_cons_of_pos (by simpa using hk), hrest, valueAt_cons_of_eq hk]
      rfl
    · rw [List.filter_cons_of_neg (by simpa using hk), ih hl, valueAt_cons_of_ne hk]

theorem upsert_map {β : Type*} {key' : β → κ} {merge' : β → β → β} {f : α → β}
    (hkey : ∀ a, key' (f a) = key a) (hmerge : ∀ a b, merge' (f a) (f b) = f (merge a b)) (a : α)
    (l : List α) : upsert key' merge' (f a) (l.map f) = (upsert key merge a l).map f := by
  induction l with
  | nil => rfl
  | cons b l ih =>
    simp only [List.map_cons, upsert, hkey]
    split_ifs
    · rfl
    · rw [List.map_cons, hmerge]
    · rw [List.map_cons, ih]

theorem valueAt_map {β : Type*} {key' : β → κ} {f : α → β} (hkey : ∀ a, key' (f a) = key a)
    (k : κ) (l : List α) : valueAt key' k (l.map f) = (valueAt key k l).map f := by
  have hcomp : (fun b => decide (key' b = k)) ∘ f = fun a => decide (key a = k) := by
    funext a
    simp [hkey]
  rw [valueAt, List.find?_map, hcomp, valueAt]

theorem forall₂_of_valueAt {R : α → α → Prop} (hR : ∀ a b, R a b → key a = key b) :
    ∀ {l l' : List α}, Ordered key l → Ordered key l' →
      (∀ k, Option.Rel R (valueAt key k l) (valueAt key k l')) → List.Forall₂ R l l'
  | [], [], _, _, _ => .nil
  | [], b :: l', _, _, h => by
    have hb := h (key b)
    rw [valueAt_cons_of_eq rfl] at hb
    cases hb
  | a :: l, [], _, _, h => by
    have ha := h (key a)
    rw [valueAt_cons_of_eq rfl] at ha
    cases ha
  | a :: l, b :: l', hl, hl', h => by
    obtain ⟨hlt, hl⟩ := List.pairwise_cons.1 hl
    obtain ⟨hlt', hl'⟩ := List.pairwise_cons.1 hl'
    have hhead : R a b := by
      have ha := h (key a)
      have hb := h (key b)
      rw [valueAt_cons_of_eq rfl] at ha hb
      cases hva : valueAt key (key a) (b :: l') with
      | none =>
        rw [hva] at ha
        cases ha
      | some c =>
        rw [hva] at ha
        cases ha with
        | some hac =>
          obtain ⟨hc, hkc⟩ := valueAt_key hva
          rcases List.mem_cons.1 hc with rfl | hc
          · exact hac
          · -- then the head of the first list is above that of the second, which it must hold
            have hba : key b < key a := hkc ▸ hlt' c hc
            cases hvb : valueAt key (key b) (a :: l) with
            | none =>
              rw [hvb] at hb
              cases hb
            | some d =>
              obtain ⟨hd, hkd⟩ := valueAt_key hvb
              rcases List.mem_cons.1 hd with rfl | hd
              · exact absurd hkd (ne_of_gt hba)
              · exact absurd (hkd ▸ hlt d hd) (not_lt_of_gt hba)
    refine .cons hhead (forall₂_of_valueAt hR hl hl' fun k => ?_)
    have hk := h k
    by_cases hak : key a = k
    · have hbk : key b = k := (hR a b hhead).symm.trans hak
      rw [valueAt_eq_none.2 fun c hc hck => absurd (hak.trans hck.symm) (ne_of_lt (hlt c hc)),
        valueAt_eq_none.2 fun c hc hck => absurd (hbk.trans hck.symm) (ne_of_lt (hlt' c hc))]
      exact .none
    · rw [valueAt_cons_of_ne hak, valueAt_cons_of_ne fun hbk => hak ((hR a b hhead).trans hbk)] at hk
      exact hk

theorem collect_perm (hkey : ∀ a b, key a = key b → key (merge a b) = key a) {as bs : List α}
    (hperm : as.Perm bs) (hnodup : (as.map key).Nodup) :
    collect key merge as = collect key merge bs := by
  have hone : ∀ {l : List α}, (l.map key).Nodup → ∀ k, (l.filter fun a => key a = k).length ≤ 1 := by
    intro l hl k
    have hcount : ((l.map key).filter fun k' => k' = k).length ≤ 1 := by
      rw [← List.countP_eq_length_filter]
      have := List.nodup_iff_count_le_one.1 hl k
      simpa [List.count, Bool.beq_eq_decide_eq] using this
    rw [List.filter_map, List.length_map] at hcount
    exact hcount
  refine List.forall₂_eq_eq_eq ▸ forall₂_of_valueAt (R := Eq) (fun _ _ h => h ▸ rfl)
    (Ordered.collect hkey as) (Ordered.collect hkey bs) fun k => ?_
  rw [valueAt_collect hkey, valueAt_collect hkey]
  have hfilter : (as.filter fun a => key a = k) = bs.filter fun a => key a = k := by
    have hp := hperm.filter fun a => decide (key a = k)
    have hlen := hone hnodup k
    match hl : as.filter fun a => decide (key a = k), hp, hlen with
    | [], hp, _ => exact (List.nil_perm.1 hp).symm
    | [a], hp, _ => exact (List.perm_singleton.1 hp.symm).symm
    | a :: b :: l, _, hlen => simp at hlen
  rw [hfilter]
  cases mergeAll merge (bs.filter fun a => key a = k) with
  | none => exact .none
  | some b => exact .some rfl

theorem valueAt_perm {l' : List α} (hperm : l.Perm l') (hnodup : (l.map key).Nodup) (k : κ) :
    valueAt key k l = valueAt key k l' := by
  cases h : valueAt key k l with
  | none =>
    rw [valueAt_eq_none] at h
    exact (valueAt_eq_none.2 fun a ha => h a (hperm.mem_iff.2 ha)).symm
  | some a =>
    obtain ⟨ha, hk⟩ := valueAt_key h
    cases h' : valueAt key k l' with
    | none => exact absurd hk (valueAt_eq_none.1 h' a (hperm.mem_iff.1 ha))
    | some b =>
      obtain ⟨hb, hk'⟩ := valueAt_key h'
      rw [List.inj_on_of_nodup_map hnodup ha (hperm.mem_iff.2 hb) (hk.trans hk'.symm)]

end

/-! ## Entries that are replaced -/

section
variable {key : α → κ} {merge : α → α → α}

theorem upsert_length_le : ∀ l : List α, (upsert key merge a l).length ≤ l.length + 1
  | [] => by simp [upsert]
  | b :: l => by
    have hrest : (upsert key merge a l).length ≤ l.length + 1 := upsert_length_le l
    unfold upsert
    split
    · simp
    · split <;> simp only [List.length_cons] <;> omega

theorem upsert_of_none {merge' : α → α → α} : ∀ {l : List α},
    valueAt key (key a) l = none → upsert key merge a l = upsert key merge' a l
  | [], _ => rfl
  | b :: l, h => by
    have hne : key b ≠ key a := valueAt_eq_none.1 h b List.mem_cons_self
    rw [valueAt_cons_of_ne hne] at h
    have hrest : upsert key merge a l = upsert key merge' a l := upsert_of_none h
    simp only [upsert, if_neg hne.symm, hrest]

theorem upsert_of_some {b : α} (hkey : key (merge b a) = key a) : ∀ {l : List α}, Ordered key l →
    valueAt key (key a) l = some b →
      upsert key merge a l = upsert key (fun _ c => c) (merge b a) l
  | [], _, h => by cases h
  | c :: l, hl, h => by
    obtain ⟨hlt, hl⟩ := List.pairwise_cons.1 hl
    simp only [upsert, hkey]
    by_cases hc : key c = key a
    · rw [valueAt_cons_of_eq hc, Option.some_inj] at h
      subst h
      simp [hc]
    · rw [valueAt_cons_of_ne hc] at h
      have hca : key c < key a := by
        rw [← (valueAt_key h).2]
        exact hlt b (valueAt_key h).1
      rw [if_neg (not_lt.2 hca.le), if_neg (Ne.symm hc), if_neg (not_lt.2 hca.le),
        if_neg (Ne.symm hc), upsert_of_some hkey hl h]

theorem upsert_self {b : α} : ∀ {l : List α}, Ordered key l → b ∈ l →
    upsert key (fun _ c => c) b l = l
  | [], _, h => by cases h
  | c :: l, hl, h => by
    obtain ⟨hlt, hl⟩ := List.pairwise_cons.1 hl
    rcases List.mem_cons.1 h with rfl | h
    · simp [upsert]
    · have hcb := hlt b h
      rw [upsert, if_neg (not_lt.2 hcb.le), if_neg hcb.ne', upsert_self hl h]

theorem sum_upsert_of_some (f : α → Nat) {b : α} : ∀ {l : List α}, Ordered key l →
    valueAt key (key a) l = some b →
      ((upsert key (fun _ c => c) a l).map f).sum + f b = (l.map f).sum + f a
  | [], _, h => by cases h
  | c :: l, hl, h => by
    obtain ⟨hlt, hl⟩ := List.pairwise_cons.1 hl
    by_cases hc : key c = key a
    · rw [valueAt_cons_of_eq hc, Option.some_inj] at h
      subst h
      simp only [upsert, hc, lt_irrefl, if_false, if_true, List.map_cons, List.sum_cons]
      omega
    · rw [valueAt_cons_of_ne hc] at h
      have hca : key c < key a := by
        rw [← (valueAt_key h).2]
        exact hlt b (valueAt_key h).1
      have hrest := sum_upsert_of_some f hl h
      rw [upsert, if_neg (not_lt.2 hca.le), if_neg (Ne.symm hc)]
      simp only [List.map_cons, List.sum_cons]
      omega

theorem sum_upsert_of_none (f : α → Nat) : ∀ {l : List α},
    valueAt key (key a) l = none →
      ((upsert key (fun _ c => c) a l).map f).sum = (l.map f).sum + f a
  | [], _ => by simp [upsert]
  | c :: l, h => by
    have hne : key c ≠ key a := valueAt_eq_none.1 h c List.mem_cons_self
    rw [valueAt_cons_of_ne hne] at h
    have hrest := sum_upsert_of_none f h
    rw [upsert, if_neg hne.symm]
    split <;> simp only [List.map_cons, List.sum_cons] <;> omega

theorem collect_concat (as : List α) (a : α) :
    collect key merge (as ++ [a]) = upsert key merge a (collect key merge as) := by
  simp [collect]

theorem Ordered.eq_of_valueAt {l' : List α} (h : Ordered key l) (h' : Ordered key l')
    (hvalue : ∀ k, valueAt key k l = valueAt key k l') : l = l' := by
  refine h.ext h' fun a => ⟨fun ha => ?_, fun ha => ?_⟩
  · have hat := h.valueAt_self ha
    rw [hvalue] at hat
    exact (valueAt_key hat).1
  · have hat := h'.valueAt_self ha
    rw [← hvalue] at hat
    exact (valueAt_key hat).1

theorem Ordered.collect_self (hkey : ∀ a b, key a = key b → key (merge a b) = key a)
    (h : Ordered key l) : KeyedMerge.collect key merge l = l := by
  refine (Ordered.collect hkey l).eq_of_valueAt h fun k => ?_
  rw [valueAt_collect hkey, h.filter_key]
  cases valueAt key k l <;> rfl

theorem upsert_upsert_self (hself : merge a a = a)
    (htwice : ∀ b, key a = key b → merge (merge b a) a = merge b a ∧ key (merge b a) = key b) :
    ∀ l, upsert key merge a (upsert key merge a l) = upsert key merge a l
  | [] => by simp [upsert, hself]
  | b :: l => by
    have hrest := upsert_upsert_self hself htwice l
    by_cases hlt : key a < key b
    · simp [upsert, hlt, hself]
    · by_cases heq : key a = key b
      · obtain ⟨hmerge, hkey⟩ := htwice b heq
        simp [upsert, heq, hkey, hmerge]
      · simp [upsert, hlt, heq, hrest]

end

end KeyedMerge
