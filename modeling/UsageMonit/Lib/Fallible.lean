import Mathlib.Algebra.GroupWithZero.Nat
import Mathlib.Data.List.AList

/-!
# Fallible code, machine integers and maps

The embedding of fallible Rust code: `Except` values, `ensure` for a guard that returns early,
`okOr` for `Option::ok_or`, and the checked and saturating operations of the unsigned machine
integers on `Nat`. `bind_ok`, `ensure_ok` and `okOr_ok` invert a successful run step by step.
Finite maps are `AList`s.
-/

namespace Fallible

variable {ε α β : Type}

/-- A guard: continue when `c` holds, fail with `e` otherwise. -/
def ensure (c : Prop) [Decidable c] (e : ε) : Except ε Unit :=
  if c then .ok () else .error e

/-- `Option::ok_or`. -/
def okOr (o : Option α) (e : ε) : Except ε α :=
  match o with
  | some a => .ok a
  | none => .error e

/-- A check of an optional value: nothing to check when it is absent. -/
def checkSome (o : Option α) (check : α → Except ε Unit) : Except ε Unit :=
  match o with
  | some a => check a
  | none => .ok ()

theorem bind_ok {x : Except ε α} {f : α → Except ε β} {r : β} (h : (x >>= f) = .ok r) :
    ∃ a, x = .ok a ∧ f a = .ok r := by
  cases x with
  | error e => cases h
  | ok a => exact ⟨a, rfl, h⟩

theorem map_ok {x : Except ε α} {f : α → β} {r : β} (h : f <$> x = .ok r) :
    ∃ a, x = .ok a ∧ f a = r := by
  cases x with
  | error e => cases h
  | ok a => exact ⟨a, rfl, Except.ok.inj h⟩

@[simp] theorem ok_bind (a : α) (f : α → Except ε β) : ((Except.ok a : Except ε α) >>= f) = f a :=
  rfl

@[simp] theorem error_bind (e : ε) (f : α → Except ε β) :
    ((Except.error e : Except ε α) >>= f) = .error e := rfl

@[simp] theorem ensure_ok {c : Prop} [Decidable c] {e : ε} {u : Unit} :
    ensure c e = .ok u ↔ c := by
  unfold ensure
  split <;> simp_all

theorem ensure_of {c : Prop} [Decidable c] {e : ε} (h : c) : ensure c e = .ok () := by
  simp [h]

@[simp] theorem okOr_ok {o : Option α} {e : ε} {a : α} : okOr o e = .ok a ↔ o = some a := by
  cases o <;> simp [okOr]

theorem checkSome_ok {o : Option α} {check : α → Except ε Unit} {a : α}
    (h : checkSome o check = .ok ()) (ha : o = some a) : check a = .ok () := by
  subst ha
  exact h

theorem forM_ok {f : α → Except ε Unit} :
    ∀ {l : List α}, (∀ a ∈ l, f a = .ok ()) → l.forM f = .ok ()
  | [], _ => rfl
  | a :: l, h => by
    change (f a >>= fun _ => l.forM f) = .ok ()
    rw [h a List.mem_cons_self, ok_bind]
    exact forM_ok fun b hb => h b (List.mem_cons_of_mem a hb)

theorem forall_of_forM_ok {f : α → Except ε Unit} :
    ∀ {l : List α}, l.forM f = .ok () → ∀ a ∈ l, f a = .ok ()
  | [], _, _, ha => by cases ha
  | b :: l, h, a, ha => by
    change (f b >>= fun _ => l.forM f) = .ok () at h
    obtain ⟨_, hb, h⟩ := bind_ok h
    rcases List.mem_cons.1 ha with rfl | ha
    · exact hb
    · exact forall_of_forM_ok h a ha

theorem mapM_ok {f : α → Except ε β} : ∀ {as : List α} {bs : List β}, as.mapM f = .ok bs →
    as.length = bs.length ∧ ∀ (i : Nat) (ha : i < as.length) (hb : i < bs.length),
      f as[i] = .ok bs[i]
  | [], bs, h => by
    cases h
    exact ⟨rfl, fun i ha => absurd ha (Nat.not_lt_zero i)⟩
  | a :: as, bs, h => by
    rw [List.mapM_cons] at h
    obtain ⟨b, hb, h⟩ := bind_ok h
    obtain ⟨rest, hrest, h⟩ := bind_ok h
    cases h
    obtain ⟨hlen, hget⟩ := mapM_ok hrest
    refine ⟨congrArg Nat.succ hlen, fun i ha hb' => ?_⟩
    cases i with
    | zero => exact hb
    | succ i => exact hget i (Nat.lt_of_succ_lt_succ ha) (Nat.lt_of_succ_lt_succ hb')

theorem mapM_ok_mem {f : α → Except ε β} {as : List α} {bs : List β} (h : as.mapM f = .ok bs)
    {b : β} (hb : b ∈ bs) : ∃ a ∈ as, f a = .ok b := by
  obtain ⟨i, hi, rfl⟩ := List.mem_iff_getElem.1 hb
  obtain ⟨hlen, hget⟩ := mapM_ok h
  exact ⟨as[i], List.getElem_mem _, hget i (by omega) hi⟩

theorem mapM_ok_map {γ : Type} {f : α → Except ε β} {g : β → γ} {g' : α → γ} {as : List α}
    {bs : List β} (h : as.mapM f = .ok bs) (hkey : ∀ a ∈ as, ∀ b, f a = .ok b → g b = g' a) :
    bs.map g = as.map g' := by
  obtain ⟨hlen, hget⟩ := mapM_ok h
  refine List.ext_getElem (by simpa using hlen.symm) fun i hi hi' => ?_
  rw [List.length_map] at hi hi'
  rw [List.getElem_map, List.getElem_map]
  exact hkey _ (List.getElem_mem _) _ (hget i hi' hi)

/-- What every step of a fallible fold relates, its whole run relates. -/
theorem foldlM_ok {R : β → β → Prop} (hrefl : ∀ b, R b b) (htrans : ∀ a b c, R a b → R b c → R a c)
    {f : β → α → Except ε β} {l : List α} (hstep : ∀ a ∈ l, ∀ b b', f b a = .ok b' → R b b')
    {b b' : β} (h : l.foldlM f b = .ok b') : R b b' := by
  induction l generalizing b with
  | nil => exact Except.ok.inj h ▸ hrefl b
  | cons a l ih =>
    rw [List.foldlM_cons] at h
    obtain ⟨c, hc, h⟩ := bind_ok h
    exact htrans b c b' (hstep a List.mem_cons_self b c hc)
      (ih (fun a ha => hstep a (List.mem_cons_of_mem _ ha)) h)

/-! ## Machine integers -/

/-- `checked_add` of an unsigned type of `w` bits. -/
def checkedAdd (w a b : Nat) : Option Nat := if a + b < 2 ^ w then some (a + b) else none

/-- `checked_mul` of an unsigned type of `w` bits. -/
def checkedMul (w a b : Nat) : Option Nat := if a * b < 2 ^ w then some (a * b) else none

/-- `saturating_add` of an unsigned type of `w` bits. -/
def saturatingAdd (w a b : Nat) : Nat := min (a + b) (2 ^ w - 1)

theorem saturatingAdd_comm (w a b : Nat) : saturatingAdd w a b = saturatingAdd w b a := by
  unfold saturatingAdd
  omega

theorem saturatingAdd_assoc (w a b c : Nat) :
    saturatingAdd w (saturatingAdd w a b) c = saturatingAdd w a (saturatingAdd w b c) := by
  unfold saturatingAdd
  omega

theorem checkedAdd_eq_some {w a b c : Nat} (h : checkedAdd w a b = some c) :
    c = a + b ∧ a + b < 2 ^ w := by
  unfold checkedAdd at h
  split at h
  · exact ⟨(Option.some.inj h).symm, by assumption⟩
  · cases h

/-! ## Maps -/

theorem lookup_eraseAll {β : α → Type} [DecidableEq α] (keys : List α) (m : AList β) (a : α) :
    (keys.foldl (fun m key => m.erase key) m).lookup a = if a ∈ keys then none else m.lookup a := by
  induction keys generalizing m with
  | nil => rfl
  | cons key keys ih =>
    rw [List.foldl_cons, ih]
    by_cases hkey : a = key
    · subst hkey
      simp
    · simp [hkey]

end Fallible
