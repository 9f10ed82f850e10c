import Mathlib.Data.Set.Basic
import Mathlib.Data.List.Basic

/-!
# Windowed logs

A log whose oldest items may be discarded: the window holds the items numbered `floor + 1` up to
`next`. A log *extends* another (`Extends`) when it appended items and discarded a prefix; the
items a reader at position `c` still has to see are `after c`, and as long as `floor ≤ c` nothing
appended since is missing (`Extends.after`).

Items act on a keyed map (`Effect`); `replay` folds them. `Follows` says that a system's map
changes exactly as replaying what it appended, except at a set of keys it disclaims. In any
interleaving of such a system with a reader (`Session`), a reader that resumes at a retained
position converges to the system's map (`Session.synced`).

A newcomer has nothing but the retained items. `Journalled` is a run of the system with, for each
key, the number of the last item of a step that disclaimed it; whatever the log retains of a key
above that number tells the system's value of the key (`Journalled.settled`).
-/

namespace WindowedLog

variable {α : Type*}

/-- The retained items; the first one has number `floor + 1`. -/
structure Window (α : Type*) where
  floor : Nat
  items : List α

namespace Window

def next (w : Window α) : Nat := w.floor + w.items.length

def after (w : Window α) (c : Nat) : List α := w.items.drop (c - w.floor)

@[simp] theorem after_next (w : Window α) : w.after w.next = [] := by
  simp [after, next]

theorem after_after {w : Window α} {c d : Nat} (hc : w.floor ≤ c) (h : c ≤ d) :
    w.after d = (w.after c).drop (d - c) := by
  rw [after, after, List.drop_drop]
  congr 1
  omega

end Window

/-- `w'` is `w` after appending `added` and discarding some of the oldest items. -/
def Extends (w w' : Window α) (added : List α) : Prop :=
  ∃ d, d ≤ w.items.length + added.length ∧ w'.floor = w.floor + d ∧
    w'.items = (w.items ++ added).drop d

namespace Extends

variable {w w₁ w₂ w₃ : Window α} {a b : List α}

theorem refl (w : Window α) : Extends w w [] := ⟨0, by simp⟩

theorem append (w : Window α) (a : List α) : Extends w ⟨w.floor, w.items ++ a⟩ a := ⟨0, by simp⟩

theorem discard (w : Window α) {d : Nat} (hd : d ≤ w.items.length) :
    Extends w ⟨w.floor + d, w.items.drop d⟩ [] := ⟨d, by simpa using hd, rfl, by simp⟩

theorem trans (h₁ : Extends w₁ w₂ a) (h₂ : Extends w₂ w₃ b) : Extends w₁ w₃ (a ++ b) := by
  obtain ⟨d, hd, hf, hi⟩ := h₁
  obtain ⟨e, he, hf', hi'⟩ := h₂
  rw [hi, List.length_drop, List.length_append] at he
  refine ⟨d + e, by simp; omega, by omega, ?_⟩
  have hdrop : (w₁.items ++ a).drop d ++ b = (w₁.items ++ a ++ b).drop d :=
    (List.drop_append_of_le_length (by simpa using hd)).symm
  rw [hi', hi, hdrop, List.drop_drop, List.append_assoc]

theorem next_eq (h : Extends w₁ w₂ a) : w₂.next = w₁.next + a.length := by
  obtain ⟨d, hd, hf, hi⟩ := h
  simp only [Window.next, hf, hi, List.length_drop, List.length_append]
  omega

theorem floor_le (h : Extends w₁ w₂ a) : w₁.floor ≤ w₂.floor := by
  obtain ⟨d, _, hf, _⟩ := h
  omega

/-- **Nothing above the floor is missing**: a reader of the old window at `c` finds what it had
still to see, followed by what was appended. -/
theorem after (h : Extends w₁ w₂ a) {c : Nat} (hf : w₂.floor ≤ c) (hn : c ≤ w₁.next) :
    w₂.after c = w₁.after c ++ a := by
  obtain ⟨d, hd, hf', hi⟩ := h
  unfold Window.after
  rw [hi, List.drop_drop, hf', show d + (c - (w₁.floor + d)) = c - w₁.floor by omega,
    List.drop_append_of_le_length]
  unfold Window.next at hn
  omega

/-- What a reader at `c` finds is the end of what it had still to see and of what was appended. -/
theorem after_suffix (h : Extends w₁ w₂ a) {c : Nat} (hn : c ≤ w₁.next) :
    w₂.after c <:+ w₁.after c ++ a := by
  rcases Nat.le_total w₂.floor c with hc | hc
  · have heq := h.after hc hn
    exact heq ▸ List.suffix_rfl
  · obtain ⟨d, hd, hf, hi⟩ := h
    have hlen : c - w₁.floor ≤ w₁.items.length := by
      unfold Window.next at hn
      omega
    unfold Window.after
    rw [show c - w₂.floor = 0 by omega, List.drop_zero, hi,
      ← List.drop_append_of_le_length hlen, show d = c - w₁.floor + (d - (c - w₁.floor)) by omega,
      ← List.drop_drop]
    exact List.drop_suffix _ _

end Extends

/-! ## Keyed effects -/

section Replay
variable {K V : Type*} [DecidableEq K]

/-- What an item does to a map from keys to values. -/
inductive Effect (K V : Type*)
  | set (k : K) (v : V)
  | remove (k : K)
  | keep

/-- The key an effect is about. -/
def Effect.key? : Effect K V → Option K
  | .set k _ => some k
  | .remove k => some k
  | .keep => none

def Effect.apply (m : K → Option V) : Effect K V → K → Option V
  | .set k v => Function.update m k (some v)
  | .remove k => Function.update m k none
  | .keep => m

theorem Effect.apply_of_ne {m : K → Option V} {e : Effect K V} {k : K} (h : e.key? ≠ some k) :
    e.apply m k = m k := by
  cases e with
  | keep => rfl
  | set l v => exact Function.update_of_ne (fun hk => h (by rw [hk]; rfl)) _ _
  | remove l => exact Function.update_of_ne (fun hk => h (by rw [hk]; rfl)) _ _

theorem Effect.apply_congr {m m' : K → Option V} {k : K} (h : m k = m' k) (e : Effect K V) :
    e.apply m k = e.apply m' k := by
  cases e with
  | keep => exact h
  | set l v => by_cases hk : k = l <;> simp [Effect.apply, hk, h]
  | remove l => by_cases hk : k = l <;> simp [Effect.apply, hk, h]

variable (effect : α → Effect K V)

/-- Folding the effects of a list of items, oldest first. -/
def replay (m : K → Option V) (items : List α) : K → Option V :=
  items.foldl (fun m item => (effect item).apply m) m

@[simp] theorem replay_nil (m : K → Option V) : replay effect m [] = m := rfl

@[simp] theorem replay_cons (m : K → Option V) (a : α) (as : List α) :
    replay effect m (a :: as) = replay effect ((effect a).apply m) as := rfl

theorem replay_append (m : K → Option V) (as bs : List α) :
    replay effect m (as ++ bs) = replay effect (replay effect m as) bs := by
  simp [replay]

theorem replay_congr {m m' : K → Option V} {k : K} (h : m k = m' k) :
    ∀ as : List α, replay effect m as k = replay effect m' as k
  | [] => h
  | a :: as => replay_congr (Effect.apply_congr h (effect a)) as

theorem replay_of_not_named {m : K → Option V} {k : K} :
    ∀ {as : List α}, (∀ a ∈ as, (effect a).key? ≠ some k) → replay effect m as k = m k
  | [], _ => rfl
  | a :: as, h => by
    rw [replay_cons, replay_of_not_named fun b hb => h b (List.mem_cons_of_mem _ hb)]
    exact Effect.apply_of_ne (h a List.mem_cons_self)

theorem Effect.apply_of_key {m m' : K → Option V} {e : Effect K V} {k : K}
    (h : e.key? = some k) : e.apply m k = e.apply m' k := by
  cases e with
  | keep => cases h
  | set l v =>
    obtain rfl : l = k := Option.some.inj h
    simp [Effect.apply]
  | remove l =>
    obtain rfl : l = k := Option.some.inj h
    simp [Effect.apply]

theorem replay_of_named {m m' : K → Option V} {k : K} :
    ∀ {as : List α}, (∃ a ∈ as, (effect a).key? = some k) →
      replay effect m as k = replay effect m' as k
  | [], h => by simp at h
  | a :: as, h => by
    rw [replay_cons, replay_cons]
    by_cases has : ∃ b ∈ as, (effect b).key? = some k
    · exact replay_of_named has
    · obtain ⟨b, hb, hk⟩ := h
      rcases List.mem_cons.1 hb with rfl | hb
      · exact replay_congr effect (Effect.apply_of_key hk) as
      · exact absurd ⟨b, hb, hk⟩ has

theorem replay_eq_some {k : K} {v : V} : ∀ {as : List α} {m : K → Option V}, m k = none →
    replay effect m as k = some v →
    ∃ pre a post, as = pre ++ a :: post ∧ effect a = .set k v ∧
      ∀ b ∈ post, (effect b).key? ≠ some k
  | [], m, hm, h => by
    rw [replay_nil, hm] at h
    cases h
  | a :: as, m, hm, h => by
    rw [replay_cons] at h
    by_cases has : ∃ b ∈ as, (effect b).key? = some k
    · rw [replay_of_named effect has] at h
      obtain ⟨pre, b, post, rfl, hb, hpost⟩ := replay_eq_some (m := fun _ => none) rfl h
      exact ⟨a :: pre, b, post, rfl, hb, hpost⟩
    · have hnone : ∀ b ∈ as, (effect b).key? ≠ some k := fun b hb hk => has ⟨b, hb, hk⟩
      rw [replay_of_not_named effect hnone] at h
      refine ⟨[], a, as, rfl, ?_, hnone⟩
      -- only setting the key can give it a value
      cases ha : effect a with
      | keep =>
        rw [ha, Effect.apply, hm] at h
        cases h
      | set l w =>
        rw [ha, Effect.apply] at h
        by_cases hl : k = l
        · subst hl
          rw [Function.update_self] at h
          rw [Option.some.inj h]
        · rw [Function.update_of_ne hl, hm] at h
          cases h
      | remove l =>
        rw [ha, Effect.apply] at h
        by_cases hl : k = l
        · subst hl
          rw [Function.update_self] at h
          cases h
        · rw [Function.update_of_ne hl, hm] at h
          cases h

theorem replay_map {β : Type*} (f : β → α) (m : K → Option V) :
    ∀ bs : List β, replay (fun b => effect (f b)) m bs = replay effect m (bs.map f)
  | [] => rfl
  | b :: bs => replay_map f ((effect (f b)).apply m) bs

/-! ## Systems that journal their changes -/

variable {σ : Type*} (win : σ → Window α) (view : σ → K → Option V)

/-- From `x` to `y` the system appended items whose replay takes `x`'s map to `y`'s, except at
the keys `T`. -/
def Follows (x : σ) (T : Set K) (y : σ) : Prop :=
  ∃ added, Extends (win x) (win y) added ∧
    ∀ k, k ∉ T → replay effect (view x) added k = view y k

variable {effect win view}

theorem Follows.refl (x : σ) : Follows effect win view x ∅ x :=
  ⟨[], Extends.refl _, fun _ _ => rfl⟩

theorem Follows.trans {x y z : σ} {T U : Set K} (h₁ : Follows effect win view x T y)
    (h₂ : Follows effect win view y U z) : Follows effect win view x (T ∪ U) z := by
  obtain ⟨a, ha, hx⟩ := h₁
  obtain ⟨b, hb, hy⟩ := h₂
  refine ⟨a ++ b, ha.trans hb, fun k hk => ?_⟩
  rw [Set.mem_union, not_or] at hk
  rw [replay_append, replay_congr effect (hx k hk.1) b]
  exact hy k hk.2

/-! ## Readers -/

/-- A reader of the log: the number of the last item it saw and the map it built. -/
structure Reader (K V : Type*) where
  position : Nat
  map : K → Option V

variable (effect win view)

/-- Reading the next `n` items of a window that still has them all. -/
def Reader.read (r : Reader K V) (w : Window α) (n : Nat) : Reader K V :=
  ⟨r.position + ((w.after r.position).take n).length,
    replay effect r.map ((w.after r.position).take n)⟩

/-- Taking the system's current map. -/
def Reader.snapshot (x : σ) : Reader K V := ⟨(win x).next, view x⟩

/-- A system and a reader, in any interleaving: system steps (labelled with the keys they
disclaim), reads of any length, and snapshots. The set holds the keys disclaimed since the last
snapshot. -/
inductive Session (step : σ → Set K → σ → Prop) (x₀ : σ) : σ → Reader K V → Set K → Prop
  | start : Session step x₀ x₀ (Reader.snapshot win view x₀) ∅
  | step {x y : σ} {r : Reader K V} {T U : Set K} : Session step x₀ x r T → step x U y →
      Session step x₀ y r (T ∪ U)
  | read {x : σ} {r : Reader K V} {T : Set K} (n : Nat) : Session step x₀ x r T →
      (win x).floor ≤ r.position → Session step x₀ x (r.read effect (win x) n) T
  | snapshot {x : σ} {r : Reader K V} {T : Set K} : Session step x₀ x r T →
      Session step x₀ x (Reader.snapshot win view x) ∅

/-- What the reader has still to read takes its map to the system's, as long as the log retains
all of it. -/
def Synced (x : σ) (r : Reader K V) (T : Set K) : Prop :=
  r.position ≤ (win x).next ∧ ((win x).floor ≤ r.position →
    ∀ k, k ∉ T → replay effect r.map ((win x).after r.position) k = view x k)

variable {effect win view}

theorem Synced.snapshot (x : σ) : Synced effect win view x (Reader.snapshot win view x) ∅ :=
  ⟨Nat.le_refl _, fun _ k _ => by simp [Reader.snapshot]⟩

theorem Synced.step {x y : σ} {r : Reader K V} {T U : Set K}
    (h : Synced effect win view x r T) (hf : Follows effect win view x U y) :
    Synced effect win view y r (T ∪ U) := by
  obtain ⟨added, he, hv⟩ := hf
  refine ⟨?_, fun hfl k hk => ?_⟩
  · rw [he.next_eq]
    exact Nat.le_add_right_of_le h.1
  · rw [Set.mem_union, not_or] at hk
    have hx := h.2 (he.floor_le.trans hfl) k hk.1
    rw [he.after hfl h.1, replay_append, replay_congr effect hx added]
    exact hv k hk.2

theorem Synced.read {x : σ} {r : Reader K V} {T : Set K} (h : Synced effect win view x r T)
    (hf : (win x).floor ≤ r.position) (n : Nat) :
    Synced effect win view x (r.read effect (win x) n) T := by
  have hlen : ((win x).after r.position).length = (win x).next - r.position := by
    simp only [Window.after, Window.next, List.length_drop]
    omega
  have hpos : r.position + (((win x).after r.position).take n).length ≤ (win x).next := by
    rw [List.length_take, hlen]
    have := h.1
    omega
  refine ⟨hpos, fun _ k hk => ?_⟩
  have hrest : (win x).after (r.read effect (win x) n).position =
      ((win x).after r.position).drop n := by
    rw [Reader.read, Window.after_after hf (Nat.le_add_right _ _), Nat.add_sub_cancel_left,
      List.length_take]
    rcases Nat.le_total n ((win x).after r.position).length with hn | hn
    · rw [Nat.min_eq_left hn]
    · rw [Nat.min_eq_right hn, List.drop_length, List.drop_eq_nil_of_le hn]
  rw [hrest, Reader.read, ← replay_append, List.take_append_drop]
  exact h.2 hf k hk

/-- **A resuming reader converges.** In any session of a system whose steps keep an invariant and
follow their journal, a reader whose position is still retained has only to read on. -/
theorem Session.synced {step : σ → Set K → σ → Prop} {P : σ → Prop}
    (hstep : ∀ x T y, P x → step x T y → P y ∧ Follows effect win view x T y) {x₀ x : σ}
    {r : Reader K V} {T : Set K} (hx₀ : P x₀)
    (h : Session effect win view step x₀ x r T) : P x ∧ Synced effect win view x r T := by
  induction h with
  | start => exact ⟨hx₀, Synced.snapshot x₀⟩
  | step _ hs ih =>
    obtain ⟨hp, hf⟩ := hstep _ _ _ ih.1 hs
    exact ⟨hp, ih.2.step hf⟩
  | read n _ hf ih => exact ⟨ih.1, ih.2.read hf n⟩
  | snapshot _ ih => exact ⟨ih.1, Synced.snapshot _⟩

/-! ## Newcomers -/

variable (effect win view)

open Classical in
/-- A run of the system, with the number of the last item of a step that disclaimed a key. -/
inductive Journalled (step : σ → Set K → σ → Prop) (x₀ : σ) : σ → (K → Nat) → Prop
  | start : Journalled step x₀ x₀ fun _ => 0
  | step {x y : σ} {d : K → Nat} {T : Set K} : Journalled step x₀ x d → step x T y →
      Journalled step x₀ y fun k => if k ∈ T then (win y).next else d k

/-- What the log retains of a key above the number `d` tells the system's value of it. -/
def SettledAt (x : σ) (k : K) (d : Nat) : Prop :=
  d ≤ (win x).next ∧ ((∃ a ∈ (win x).after d, (effect a).key? = some k) →
    replay effect (fun _ => none) ((win x).after d) k = view x k)

variable {effect win view}

theorem SettledAt.step {x y : σ} {k : K} {d : Nat} {T : Set K}
    (h : SettledAt effect win view x k d) (hf : Follows effect win view x T y) (hk : k ∉ T) :
    SettledAt effect win view y k d := by
  obtain ⟨added, he, hv⟩ := hf
  refine ⟨by rw [he.next_eq]; exact Nat.le_add_right_of_le h.1, fun hnamed => ?_⟩
  obtain ⟨pre, hpre⟩ := he.after_suffix h.1
  have hsame : replay effect (fun _ => none) ((win y).after d) k =
      replay effect (fun _ => none) ((win x).after d ++ added) k := by
    rw [← hpre, replay_append]
    exact replay_of_named effect hnamed
  rw [hsame, replay_append, ← hv k hk]
  by_cases hadded : ∃ a ∈ added, (effect a).key? = some k
  · exact replay_of_named effect hadded
  · refine replay_congr effect (h.2 ?_) added
    obtain ⟨a, ha, hak⟩ := hnamed
    have hmem : a ∈ (win x).after d ++ added := hpre ▸ List.mem_append_right _ ha
    rcases List.mem_append.1 hmem with hmem | hmem
    · exact ⟨a, hmem, hak⟩
    · exact absurd ⟨a, hmem, hak⟩ hadded

/-- **What a newcomer finds is current.** -/
theorem Journalled.settled {step : σ → Set K → σ → Prop} {P : σ → Prop}
    (hstep : ∀ x T y, P x → step x T y → P y ∧ Follows effect win view x T y) {x₀ x : σ}
    {d : K → Nat} (hx₀ : P x₀) (hempty : (win x₀).items = [])
    (h : Journalled win step x₀ x d) : P x ∧ ∀ k, SettledAt effect win view x k (d k) := by
  induction h with
  | start =>
    refine ⟨hx₀, fun k => ⟨Nat.zero_le _, ?_⟩⟩
    rintro ⟨a, ha, -⟩
    rw [Window.after, hempty, List.drop_nil] at ha
    cases ha
  | @step x y d T _ hs ih =>
    obtain ⟨hp, hf⟩ := hstep _ _ _ ih.1 hs
    refine ⟨hp, fun k => ?_⟩
    beta_reduce
    by_cases hk : k ∈ T
    · rw [if_pos hk]
      refine ⟨Nat.le_refl _, ?_⟩
      rintro ⟨a, ha, -⟩
      rw [Window.after_next] at ha
      cases ha
    · rw [if_neg hk]
      exact (ih.2 k).step hf hk

end Replay

end WindowedLog
