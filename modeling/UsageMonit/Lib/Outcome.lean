import UsageMonit.Lib.Fallible

/-!
# What fallible code yields

`Yields x D P`: the computation `x` fails only with an error in `D` and returns only values with
`P`. The rules follow the code: `Yields.bind` for a sequence, `yields_ensure` and `yields_okOr` for
the guards, `yields_foldlM` and `yields_mapM` for loops, `Yields.mono` to weaken. `Yields.cases`
reads the outcome off at the end.

A run is a fallible fold of a step. `Along step G s l` says that `G` holds at every state of the
run before its next input, and `trail` collects what the steps of a run leave behind.

* `foldlM_along`: an invariant that the steps with `G` keep holds at the end of a run along `G`;
  it may speak about the trail so far
* `yields_along`: such a run fails only as its steps do
* `completes_iff_along`: when a step goes through exactly under `G`, a run does exactly along `G`
* `along_iff`: `Along` by the prefixes of a run
-/

namespace Fallible

variable {ε α β : Type}

/-- `x` fails with an error in `D` or returns a value with `P`. -/
def Yields (x : Except ε α) (D : ε → Prop) (P : α → Prop) : Prop :=
  match x with
  | .ok a => P a
  | .error e => D e

section
variable {D D' : ε → Prop} {P P' : α → Prop} {Q : β → Prop} {x : Except ε α}

theorem yields_ok {a : α} (h : P a) : Yields (.ok a : Except ε α) D P := h

theorem yields_pure {a : α} (h : P a) : Yields (pure a : Except ε α) D P := h

theorem yields_error {e : ε} (h : D e) : Yields (.error e : Except ε α) D P := h

theorem Yields.of_eq {a : α} (hx : x = .ok a) (h : P a) : Yields x D P := by
  subst hx
  exact h

theorem Yields.mono (h : Yields x D P) (hD : ∀ e, D e → D' e) (hP : ∀ a, P a → P' a) :
    Yields x D' P' := by
  cases x with
  | ok a => exact hP a h
  | error e => exact hD e h

theorem Yields.bind {f : α → Except ε β} (h : Yields x D P) (hf : ∀ a, P a → Yields (f a) D Q) :
    Yields (x >>= f) D Q := by
  cases x with
  | ok a => exact hf a h
  | error e => exact h

/-- **A fallible fold** follows a fold over abstract states, step by step. -/
theorem yields_foldlM {σ τ : Type} {step : σ → β → Except ε σ} {spec : τ → β → τ}
    {R : σ → τ → Prop} {l : List β}
    (hstep : ∀ b ∈ l, ∀ s t, R s t → Yields (step s b) D fun s' => R s' (spec t b)) {s : σ} {t : τ}
    (h : R s t) : Yields (l.foldlM step s) D fun s' => R s' (l.foldl spec t) := by
  induction l generalizing s t with
  | nil => exact h
  | cons b l ih =>
    rw [List.foldlM_cons]
    refine (hstep b List.mem_cons_self s t h).bind fun s' hs' => ?_
    exact ih (fun c hc => hstep c (List.mem_cons_of_mem b hc)) hs'

/-- **A fallible map** relates every input to the output at its place. -/
theorem yields_mapM {f : β → Except ε α} {R : β → α → Prop} {l : List β}
    (h : ∀ b ∈ l, Yields (f b) D (R b)) : Yields (l.mapM f) D fun as => List.Forall₂ R l as := by
  induction l with
  | nil => exact .nil
  | cons b l ih =>
    rw [List.mapM_cons]
    refine (h b List.mem_cons_self).bind fun a ha => ?_
    refine (ih fun c hc => h c (List.mem_cons_of_mem b hc)).bind fun as has => ?_
    exact yields_pure (.cons ha has)

theorem yields_ensure {c : Prop} [Decidable c] {e : ε} (h : c ∨ D e) :
    Yields (ensure c e) D fun _ => c := by
  unfold ensure
  split
  · assumption
  · exact h.resolve_left (by assumption)

theorem yields_okOr {o : Option α} {e : ε} (h : o.isSome ∨ D e) :
    Yields (okOr o e) D fun a => o = some a := by
  cases o with
  | some a => exact rfl
  | none => exact h.resolve_left (by simp)

theorem Yields.with_eq (h : Yields x D P) : Yields x D fun a => x = .ok a ∧ P a := by
  cases x with
  | ok a => exact ⟨rfl, h⟩
  | error e => exact h

/-- A computation that fails only without `c` and returns only with it returns exactly under it. -/
theorem Yields.returns_iff {c : Prop} (h : Yields x (fun _ => ¬c) fun a => c ∧ P a) :
    (∃ a, x = .ok a) ↔ c := by
  cases x with
  | ok a => exact ⟨fun _ => h.1, fun _ => ⟨a, rfl⟩⟩
  | error e =>
    constructor
    · rintro ⟨_, hok⟩
      cases hok
    · exact fun hc => absurd hc h

theorem Yields.cases (h : Yields x D P) : (∃ a, x = .ok a ∧ P a) ∨ ∃ e, x = .error e ∧ D e := by
  cases x with
  | ok a => exact .inl ⟨a, rfl, h⟩
  | error e => exact .inr ⟨e, rfl, h⟩

end

/-! ## Runs -/

section
variable {σ γ : Type} (step : σ → β → Except ε σ) (G : σ → β → Prop) (mark : σ → β → List γ)

/-- `G` holds at every step of the run from a state. -/
def Along (s : σ) : List β → Prop
  | [] => True
  | b :: l => G s b ∧ ∀ s', step s b = .ok s' → Along s' l

/-- What the steps of the run from a state mark. -/
def trail (s : σ) : List β → List γ
  | [] => []
  | b :: l => mark s b ++ match step s b with
    | .ok s' => trail s' l
    | .error _ => []

variable {step G mark}

theorem foldlM_cons_ok {s s' : σ} {b : β} {l : List β} (h : (b :: l).foldlM step s = .ok s') :
    ∃ t, step s b = .ok t ∧ l.foldlM step t = .ok s' := by
  rw [List.foldlM_cons] at h
  exact bind_ok h

theorem foldlM_append_ok {l l' : List β} {s t s' : σ} (h : l.foldlM step s = .ok t)
    (h' : l'.foldlM step t = .ok s') : (l ++ l').foldlM step s = .ok s' := by
  rw [List.foldlM_append, h]
  exact h'

/-- **Invariants of a run**, with the trail of the run so far. -/
theorem foldlM_along {I : List γ → σ → Prop}
    (hstep : ∀ d s b s', I d s → G s b → step s b = .ok s' → I (d ++ mark s b) s') {l : List β}
    {d : List γ} {s s' : σ} (hI : I d s) (hG : Along step G s l) (h : l.foldlM step s = .ok s') :
    I (d ++ trail step mark s l) s' := by
  induction l generalizing d s with
  | nil =>
    obtain rfl : s = s' := Except.ok.inj h
    simpa [trail] using hI
  | cons b l ih =>
    obtain ⟨t, ht, h⟩ := foldlM_cons_ok h
    have hnext := ih (hstep d s b t hI hG.1 ht) (hG.2 t ht) h
    simpa [trail, ht] using hnext

/-- **What a run yields** when the steps with `G` keep an invariant. -/
theorem yields_along {D : ε → Prop} {I : σ → Prop}
    (hstep : ∀ s b, I s → G s b → Yields (step s b) D I) {l : List β} {s : σ} (hI : I s)
    (hG : Along step G s l) : Yields (l.foldlM step s) D I := by
  induction l generalizing s with
  | nil => exact hI
  | cons b l ih =>
    rw [List.foldlM_cons]
    refine (hstep s b hI hG.1).with_eq.bind fun t ht => ?_
    exact ih ht.2 (hG.2 t ht.1)

/-- **Completion of a run**: exactly when no step of it fails its condition. -/
theorem completes_iff_along {I : σ → Prop} (hkeep : ∀ s b s', I s → step s b = .ok s' → I s')
    (hiff : ∀ s b, I s → ((∃ s', step s b = .ok s') ↔ G s b)) {l : List β} {s : σ} (hI : I s) :
    (∃ s', l.foldlM step s = .ok s') ↔ Along step G s l := by
  induction l generalizing s with
  | nil => exact ⟨fun _ => trivial, fun _ => ⟨s, rfl⟩⟩
  | cons b l ih =>
    constructor
    · rintro ⟨s', h⟩
      obtain ⟨t, ht, h⟩ := foldlM_cons_ok h
      refine ⟨(hiff s b hI).1 ⟨t, ht⟩, fun u hu => ?_⟩
      obtain rfl : t = u := Except.ok.inj (ht.symm.trans hu)
      exact (ih (hkeep s b t hI ht)).1 ⟨s', h⟩
    · rintro ⟨hG, hrest⟩
      obtain ⟨t, ht⟩ := (hiff s b hI).2 hG
      obtain ⟨s', h⟩ := (ih (hkeep s b t hI ht)).2 (hrest t ht)
      refine ⟨s', ?_⟩
      rw [List.foldlM_cons, ht]
      exact h

theorem along_iff {l : List β} {s : σ} : Along step G s l ↔ ∀ before b after t,
    l = before ++ b :: after → before.foldlM step s = .ok t → G t b := by
  induction l generalizing s with
  | nil => exact ⟨fun _ before b after t hl => by simp at hl, fun _ => trivial⟩
  | cons c l ih =>
    constructor
    · rintro ⟨hG, hrest⟩ before b after t hl ht
      cases before with
      | nil =>
        obtain ⟨rfl, rfl⟩ := List.cons.inj hl
        obtain rfl : s = t := Except.ok.inj ht
        exact hG
      | cons d before =>
        obtain ⟨rfl, rfl⟩ := List.cons.inj hl
        obtain ⟨u, hu, ht⟩ := foldlM_cons_ok ht
        exact ih.1 (hrest u hu) before b after t rfl ht
    · intro h
      refine ⟨h [] c l s rfl rfl, fun u hu => ih.2 fun before b after t hl ht => ?_⟩
      refine h (c :: before) b after t (by rw [hl]; rfl) ?_
      rw [List.foldlM_cons, hu]
      exact ht

end

end Fallible
