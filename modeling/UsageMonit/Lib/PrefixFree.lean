import Mathlib.Data.List.Basic
import Mathlib.Data.Set.Function

/-!
# Prefix-free codes

A code is prefix-free on some values when a text that begins with the code of one of them tells
which value it is, and what comes after: `f a ++ xs = f b ++ ys` only for `a = b` and `xs = ys`.
Codes put one after the other are then read back from the left, part by part, whatever the parts
contain.
Codes of one length (`prefixFree_of_length`), a text after its length (`PrefixFree.counted`), an
optional part after its flag (`PrefixFree.option`) and a list after its length (`PrefixFree.list`)
are prefix-free.
-/

variable {α β σ : Type*} {P : α → Prop} {Q : β → Prop} {f : α → List σ}

def PrefixFree (P : α → Prop) (f : α → List σ) : Prop :=
  ∀ ⦃a b : α⦄ ⦃xs ys : List σ⦄, P a → P b → f a ++ xs = f b ++ ys → a = b ∧ xs = ys

theorem PrefixFree.injOn (hf : PrefixFree P f) : Set.InjOn f {a | P a} := by
  intro a ha b hb h
  have happend : f a ++ [] = f b ++ [] := by rw [h]
  exact (hf ha hb happend).1

theorem prefixFree_of_length {n : Nat} (hlength : ∀ a, P a → (f a).length = n)
    (hinj : Set.InjOn f {a | P a}) : PrefixFree P f := by
  intro a b xs ys ha hb h
  have hle : (f a).length = (f b).length := (hlength a ha).trans (hlength b hb).symm
  obtain ⟨hcode, hrest⟩ := List.append_inj h hle
  exact ⟨hinj ha hb hcode, hrest⟩

theorem PrefixFree.after (hf : PrefixFree P f) (start : List σ) :
    PrefixFree P fun a => start ++ f a := by
  intro a b xs ys ha hb h
  simp only [List.append_assoc, List.append_cancel_left_eq] at h
  exact hf ha hb h

/-- **A text after its length.** -/
theorem PrefixFree.counted {P : Nat → Prop} {count : Nat → List σ} (hcount : PrefixFree P count) :
    PrefixFree (fun text : List σ => P text.length) fun text => count text.length ++ text := by
  intro a b xs ys ha hb h
  simp only [List.append_assoc] at h
  obtain ⟨hlength, h⟩ := hcount ha hb h
  exact List.append_inj h hlength

/-- **An optional part after a flag** that says whether it is there. -/
theorem PrefixFree.option {flag : Bool → List σ} (hflag : PrefixFree (fun _ => True) flag)
    (hf : PrefixFree P f) :
    PrefixFree (fun o : Option α => ∀ a ∈ o, P a) fun o => flag o.isSome ++ o.elim [] f := by
  intro o o' xs ys ho ho' h
  simp only [List.append_assoc] at h
  obtain ⟨hsome, h⟩ := hflag trivial trivial h
  cases o with
  | none =>
    cases o' with
    | none => exact ⟨rfl, h⟩
    | some b => simp at hsome
  | some a =>
    cases o' with
    | none => simp at hsome
    | some b =>
      obtain ⟨rfl, hrest⟩ := hf (ho a rfl) (ho' b rfl) h
      exact ⟨rfl, hrest⟩

theorem PrefixFree.flatMap (hf : PrefixFree P f) {xs ys : List σ} {l l' : List α}
    (hl : ∀ a ∈ l, P a) (hl' : ∀ a ∈ l', P a) (hlength : l.length = l'.length)
    (h : l.flatMap f ++ xs = l'.flatMap f ++ ys) : l = l' ∧ xs = ys := by
  induction l generalizing l' with
  | nil =>
    obtain rfl := List.length_eq_zero_iff.1 hlength.symm
    exact ⟨rfl, h⟩
  | cons a l ih =>
    cases l' with
    | nil => simp at hlength
    | cons b l' =>
      simp only [List.flatMap_cons, List.append_assoc] at h
      obtain ⟨rfl, htail⟩ := hf (hl a List.mem_cons_self) (hl' b List.mem_cons_self) h
      obtain ⟨rfl, hrest⟩ := ih (fun a ha => hl a (List.mem_cons_of_mem _ ha))
        (fun a ha => hl' a (List.mem_cons_of_mem _ ha)) (Nat.succ.inj hlength) htail
      exact ⟨rfl, hrest⟩

/-- **A list after its length.** -/
theorem PrefixFree.list {R : Nat → Prop} {count : Nat → List σ} (hcount : PrefixFree R count)
    (hf : PrefixFree P f) :
    PrefixFree (fun l : List α => R l.length ∧ ∀ a ∈ l, P a)
      fun l => count l.length ++ l.flatMap f := by
  intro l l' xs ys hl hl' h
  simp only [List.append_assoc] at h
  obtain ⟨hlength, h⟩ := hcount hl.1 hl'.1 h
  exact hf.flatMap hl.2 hl'.2 hlength h
