/-!
# Programs over an interface

A program asks operations of an interface `E`, each with answers of its own type, and returns or
fails. A `Handler` says how an operation acts on the durable state once its surroundings have
chosen what they do; `run` executes a program against any choices for some number of steps, so a
crash after any step is a run too.

* `Prog.Always`: a property of each event, given the events before it, along every run
* `always_bind`, `always_answer`, `always_attempt`, `always_mono`: the rules
* `Always.events`, `Always.result`: what it says about a run
* `always_only`, `always_observe`: a program of observations keeps what each observation keeps
-/

namespace Effects

inductive Prog (E : Type) (A : E → Type) (ε α : Type)
  | ret (a : α)
  | fail (e : ε)
  | ask (op : E) (next : A op → Prog E A ε α)

namespace Prog

variable {E : Type} {A : E → Type} {ε α β : Type}

def bind (p : Prog E A ε α) (f : α → Prog E A ε β) : Prog E A ε β :=
  match p with
  | ret a => f a
  | fail e => fail e
  | ask op next => ask op fun answer => (next answer).bind f

instance : Monad (Prog E A ε) where
  pure := ret
  bind := bind

/-- One operation. -/
def perform (op : E) : Prog E A ε (A op) := ask op ret

/-- A result of the program itself: the `?` of fallible code. -/
def lift (x : Except ε α) : Prog E A ε α :=
  match x with
  | .ok a => ret a
  | .error e => fail e

/-- The result of a program as a value, a failure included. -/
def attempt (p : Prog E A ε α) : Prog E A ε (Except ε α) :=
  match p with
  | ret a => ret (.ok a)
  | fail e => ret (.error e)
  | ask op next => ask op fun answer => (next answer).attempt

end Prog

/-- What the surroundings may choose at an operation, and what then happens. -/
structure Handler (E : Type) (A : E → Type) (σ : Type) where
  Choice : E → Type
  answer : (op : E) → Choice op → σ → A op × σ

/-- An operation that took place. -/
structure Event (E : Type) (A : E → Type) (σ : Type) where
  before : σ
  op : E
  answer : A op
  after : σ

section run

variable {E : Type} {A : E → Type} {σ ε α β : Type}

structure Run (E : Type) (A : E → Type) (σ ε α : Type) where
  events : List (Event E A σ)
  state : σ
  /-- Absent when the program was stopped. -/
  result : Option (Except ε α)

/-- At most `n` steps of a program; `choose` is the surroundings. -/
def Prog.run (h : Handler E A σ) (choose : Nat → (op : E) → h.Choice op) :
    Nat → Prog E A ε α → σ → Run E A σ ε α
  | 0, _, s => ⟨[], s, none⟩
  | _ + 1, .ret a, s => ⟨[], s, some (.ok a)⟩
  | _ + 1, .fail e, s => ⟨[], s, some (.error e)⟩
  | n + 1, .ask op next, s =>
    let (answer, s') := h.answer op (choose n op) s
    let rest := Prog.run h choose n (next answer) s'
    ⟨⟨s, op, answer, s'⟩ :: rest.events, rest.state, rest.result⟩

/-- Along every run from `s` after the events `past`, each event satisfies `G` given those before
it, and a result satisfies `Post`. -/
def Prog.Always (h : Handler E A σ) (G : List (Event E A σ) → Event E A σ → Prop)
    (Post : Except ε α → List (Event E A σ) → σ → Prop) :
    Prog E A ε α → List (Event E A σ) → σ → Prop
  | .ret a, past, s => Post (.ok a) past s
  | .fail e, past, s => Post (.error e) past s
  | .ask op next, past, s => ∀ choice,
    G past ⟨s, op, (h.answer op choice s).1, (h.answer op choice s).2⟩ ∧
      (next (h.answer op choice s).1).Always h G Post
        (past ++ [⟨s, op, (h.answer op choice s).1, (h.answer op choice s).2⟩])
        (h.answer op choice s).2

variable {h : Handler E A σ} {G : List (Event E A σ) → Event E A σ → Prop}
  {Post Post' : Except ε α → List (Event E A σ) → σ → Prop} {past : List (Event E A σ)} {s : σ}

theorem always_mono {p : Prog E A ε α} (hpost : ∀ r past s, Post r past s → Post' r past s) :
    ∀ {past s}, p.Always h G Post past s → p.Always h G Post' past s := by
  induction p with
  | ret a => exact fun hp => hpost _ _ _ hp
  | fail e => exact fun hp => hpost _ _ _ hp
  | ask op next ih => exact fun hp choice => ⟨(hp choice).1, ih _ (hp choice).2⟩

/-- The rest of a program after a result. -/
def Continues (h : Handler E A σ) (G : List (Event E A σ) → Event E A σ → Prop)
    (f : α → Prog E A ε β) (Post : Except ε β → List (Event E A σ) → σ → Prop)
    (r : Except ε α) (past : List (Event E A σ)) (s : σ) : Prop :=
  match r with
  | .ok a => (f a).Always h G Post past s
  | .error e => Post (.error e) past s

theorem always_bind {p : Prog E A ε α} {f : α → Prog E A ε β}
    {Post : Except ε β → List (Event E A σ) → σ → Prop} :
    ∀ {past s}, p.Always h G (Continues h G f Post) past s → (p >>= f).Always h G Post past s := by
  induction p with
  | ret a => exact fun hp => hp
  | fail e => exact fun hp => hp
  | ask op next ih => exact fun hp choice => ⟨(hp choice).1, ih _ (hp choice).2⟩

theorem always_attempt {p : Prog E A ε α}
    {Post : Except ε (Except ε α) → List (Event E A σ) → σ → Prop} :
    ∀ {past s}, p.Always h G (fun r past s => Post (.ok r) past s) past s →
      p.attempt.Always h G Post past s := by
  induction p with
  | ret a => exact fun hp => hp
  | fail e => exact fun hp => hp
  | ask op next ih => exact fun hp choice => ⟨(hp choice).1, ih _ (hp choice).2⟩

theorem always_perform {op : E} {f : A op → Prog E A ε β}
    {Post : Except ε β → List (Event E A σ) → σ → Prop}
    (hp : ∀ choice,
      G past ⟨s, op, (h.answer op choice s).1, (h.answer op choice s).2⟩ ∧
        (f (h.answer op choice s).1).Always h G Post
          (past ++ [⟨s, op, (h.answer op choice s).1, (h.answer op choice s).2⟩])
          (h.answer op choice s).2) :
    (Prog.perform op >>= f).Always h G Post past s := hp

theorem always_lift {x : Except ε α} {f : α → Prog E A ε β}
    {Post : Except ε β → List (Event E A σ) → σ → Prop}
    (hok : ∀ a, x = .ok a → (f a).Always h G Post past s)
    (herror : ∀ e, x = .error e → Post (.error e) past s) :
    (Prog.lift x >>= f).Always h G Post past s := by
  cases x with
  | ok a => exact hok a rfl
  | error e => exact herror e rfl

/-- The rest of a program after a fallible answer. -/
def Answered (h : Handler E A σ) (G : List (Event E A σ) → Event E A σ → Prop)
    (f : α → Prog E A ε β) (Post : Except ε β → List (Event E A σ) → σ → Prop)
    (r : Except ε (Except ε α)) (past : List (Event E A σ)) (s : σ) : Prop :=
  match r with
  | .ok (.ok a) => (f a).Always h G Post past s
  | .ok (.error e) => Post (.error e) past s
  | .error e => Post (.error e) past s

theorem always_answer {p : Prog E A ε (Except ε α)} {f : α → Prog E A ε β}
    {Post : Except ε β → List (Event E A σ) → σ → Prop}
    (hp : p.Always h G (Answered h G f Post) past s) :
    ((p >>= Prog.lift) >>= f).Always h G Post past s := by
  refine always_bind (always_bind (always_mono ?_ hp))
  intro r past s hr
  cases r with
  | error e => exact hr
  | ok answer =>
    cases answer with
    | ok a => exact hr
    | error e => exact hr

theorem Prog.Always.events (choose : Nat → (op : E) → h.Choice op) (n : Nat) :
    ∀ {p : Prog E A ε α} {past s}, p.Always h G Post past s →
      ∀ {earlier later event}, (p.run h choose n s).events = earlier ++ event :: later →
        G (past ++ earlier) event := by
  induction n with
  | zero =>
    intro p past s _ earlier later event heq
    cases earlier <;> cases heq
  | succ n ih =>
    intro p past s hp earlier later event heq
    cases p with
    | ret a => cases earlier <;> cases heq
    | fail e => cases earlier <;> cases heq
    | ask op next =>
      obtain ⟨hfirst, hrest⟩ := hp (choose n op)
      cases earlier with
      | nil =>
        cases heq
        rw [List.append_nil]
        exact hfirst
      | cons first earlier =>
        obtain ⟨rfl, htail⟩ := List.cons.inj heq
        have hlater := ih hrest htail
        rwa [List.append_assoc] at hlater

theorem run_state (choose : Nat → (op : E) → h.Choice op) (n : Nat) :
    ∀ (p : Prog E A ε α) (s : σ),
      ((p.run h choose n s).events = [] ∧ (p.run h choose n s).state = s) ∨
      ∃ earlier event, (p.run h choose n s).events = earlier ++ [event] ∧
        (p.run h choose n s).state = event.after := by
  induction n with
  | zero => exact fun p s => .inl ⟨rfl, rfl⟩
  | succ n ih =>
    intro p s
    cases p with
    | ret a => exact .inl ⟨rfl, rfl⟩
    | fail e => exact .inl ⟨rfl, rfl⟩
    | ask op next =>
      right
      rcases ih (next (h.answer op (choose n op) s).1) (h.answer op (choose n op) s).2 with
        ⟨hevents, hstate⟩ | ⟨earlier, event, hevents, hstate⟩
      · exact ⟨[], _, congrArg (List.cons _) hevents, hstate⟩
      · exact ⟨_ :: earlier, event, congrArg (List.cons _) hevents, hstate⟩

/-! ## Programs that only observe -/

/-- Every operation of the program satisfies `P`. -/
def Prog.Only (P : E → Prop) : Prog E A ε α → Prop
  | .ret _ => True
  | .fail _ => True
  | .ask op next => P op ∧ ∀ answer, (next answer).Only P

theorem only_bind {P : E → Prop} {p : Prog E A ε α} {f : α → Prog E A ε β} (hp : p.Only P)
    (hf : ∀ a, (f a).Only P) : (p >>= f).Only P := by
  induction p with
  | ret a => exact hf a
  | fail e => trivial
  | ask op next ih => exact ⟨hp.1, fun answer => ih answer (hp.2 answer)⟩

theorem only_lift {P : E → Prop} (x : Except ε α) :
    (Prog.lift x : Prog E A ε α).Only P := by
  cases x <;> trivial

theorem only_attempt {P : E → Prop} {p : Prog E A ε α} (hp : p.Only P) : p.attempt.Only P := by
  induction p with
  | ret a => trivial
  | fail e => trivial
  | ask op next ih => exact ⟨hp.1, fun answer => ih answer (hp.2 answer)⟩

theorem only_perform {P : E → Prop} {op : E} (h : P op) :
    (Prog.perform op : Prog E A ε (A op)).Only P := ⟨h, fun _ => trivial⟩

/-- A program of observations leaves the state alone and keeps what every observation keeps. -/
theorem always_only {P : E → Prop} {J : List (Event E A σ) → Prop}
    (hframe : ∀ op, P op → ∀ choice s, (h.answer op choice s).2 = s)
    (hstep : ∀ past op answer, P op → J past →
      G past ⟨s, op, answer, s⟩ ∧ J (past ++ [⟨s, op, answer, s⟩])) :
    ∀ {p : Prog E A ε α} {past}, p.Only P → J past →
      p.Always h G (fun _ past' s' => s' = s ∧ J past' ∧ past <+: past') past s := by
  intro p
  induction p with
  | ret a => exact fun _ hJ => ⟨rfl, hJ, List.prefix_refl _⟩
  | fail e => exact fun _ hJ => ⟨rfl, hJ, List.prefix_refl _⟩
  | ask op next ih =>
    intro past hp hJ choice
    rw [hframe op hp.1]
    obtain ⟨hG, hJ'⟩ := hstep past op (h.answer op choice s).1 hp.1 hJ
    refine ⟨hG, always_mono ?_ (ih _ (hp.2 _) hJ')⟩
    intro r past' s' hpost
    exact ⟨hpost.1, hpost.2.1, (List.prefix_append _ _).trans hpost.2.2⟩

theorem always_observe {P : E → Prop} {J : List (Event E A σ) → Prop} {p : Prog E A ε α}
    {f : α → Prog E A ε β} {Post : Except ε β → List (Event E A σ) → σ → Prop}
    (hframe : ∀ op, P op → ∀ choice s, (h.answer op choice s).2 = s)
    (hstep : ∀ past op answer, P op → J past →
      G past ⟨s, op, answer, s⟩ ∧ J (past ++ [⟨s, op, answer, s⟩]))
    (hp : p.Only P) (hpast : J past)
    (hf : ∀ a past', J past' → past <+: past' → (f a).Always h G Post past' s)
    (herror : ∀ e past', J past' → Post (.error e) past' s) :
    (p >>= f).Always h G Post past s := by
  refine always_bind (always_mono ?_ (always_only hframe hstep hp hpast))
  intro r past' s' hpost
  obtain ⟨rfl, hpast', hpre⟩ := hpost
  cases r with
  | error e => exact herror e past' hpast'
  | ok a => exact hf a past' hpast' hpre

end run

end Effects
