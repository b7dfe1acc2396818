import Mathlib.Tactic

/-!
# Programs under interference

A program takes its operations one at a time, on a state that others change too. Before each
operation the environment acts on the state, and the operation may fail without doing anything.
`Triple` states what holds after a program, of its result or of its error, whatever the
environment does; each operation has to put up with what the environment does right before it.
-/

namespace Tokn

/-- What others do to the state before the `n`-th operation, and whether it fails. -/
structure Environment (σ ο ε : Type) where
  act : Nat → ο → σ → σ
  fail : Nat → ο → Option ε

/-- A state, and the number of operations so far. -/
structure Running (σ : Type) where
  state : σ
  time : Nat

/-- A program on a state, which may stop with an error. -/
abbrev Prog (σ ε α : Type) := ExceptT ε (StateM (Running σ)) α

namespace Prog

variable {σ ο ε ε' α β : Type}

/-- The result of a program, and the state it leaves. -/
def outcome (c : Prog σ ε α) (w : Running σ) : Except ε α × Running σ := c w

/-- One operation. -/
def op (env : Environment σ ο ε) (o : ο) (f : σ → Except ε α × σ) : Prog σ ε α := fun w =>
  let s := env.act w.time o w.state
  match env.fail w.time o with
  | some e => (.error e, ⟨s, w.time + 1⟩)
  | none => ((f s).1, ⟨(f s).2, w.time + 1⟩)

/-- One operation that leaves the state alone. -/
def read (env : Environment σ ο ε) (o : ο) (f : σ → Except ε α) : Prog σ ε α :=
  op env o fun s => (f s, s)

/-- A step on the part of the state that others do not see. -/
def own (f : σ → α × σ) : Prog σ ε α := fun w => (.ok (f w.state).1, ⟨(f w.state).2, w.time⟩)

/-- Continue after an error. -/
def catching (c : Prog σ ε α) (h : ε → Prog σ ε' α) : Prog σ ε' α := fun w =>
  match c.outcome w with
  | (.ok a, w) => (.ok a, w)
  | (.error e, w) => (h e).outcome w

/-- Stop with an error of another type. -/
def mapError (c : Prog σ ε α) (f : ε → ε') : Prog σ ε' α := c.catching fun e => throw (f e)

/-- Stop if a condition holds. -/
def rejectIf (p : Prop) [Decidable p] (e : ε) : Prog σ ε Unit := if p then throw e else pure ()

/-- After a program that starts with `P`, its result satisfies `Q`, or its error `E`. -/
def Triple (P : σ → Prop) (c : Prog σ ε α) (Q : α → σ → Prop) (E : ε → σ → Prop) : Prop :=
  ∀ w, P w.state →
    match c.outcome w with
    | (.ok a, w) => Q a w.state
    | (.error e, w) => E e w.state

namespace Triple

variable {P P' M : σ → Prop} {Q Q' : α → σ → Prop} {E E' : ε → σ → Prop} {R : β → σ → Prop}

variable {c : Prog σ ε α}

theorem mono (h : Triple P c Q E) (hP : ∀ s, P' s → P s) (hQ : ∀ a s, Q a s → Q' a s)
    (hE : ∀ e s, E e s → E' e s) : Triple P' c Q' E' := by
  intro w hw
  have hc := h w (hP w.state hw)
  split at hc
  · exact hQ _ _ hc
  · exact hE _ _ hc

theorem pure {a : α} (h : ∀ s, P s → Q a s) : Triple P (Pure.pure a : Prog σ ε α) Q E :=
  fun w hw => h w.state hw

theorem throw {e : ε} (h : ∀ s, P s → E e s) : Triple P (MonadExcept.throw e : Prog σ ε α) Q E :=
  fun w hw => h w.state hw

/-- What does not depend on the state. -/
theorem of_pre {φ : Prop} (h : φ → Triple P c Q E) :
    Triple (fun s => φ ∧ P s) c Q E := fun w hw => h hw.1 w hw.2

theorem bind {k : α → Prog σ ε β} (hc : Triple P c Q E) (hk : ∀ a, Triple (Q a) (k a) R E) :
    Triple P (c >>= k) R E := by
  intro w hw
  have h := hc w hw
  show match (c >>= k).outcome w with
    | (.ok b, w) => R b w.state
    | (.error e, w) => E e w.state
  have hbind : (c >>= k).outcome w = match c.outcome w with
      | (.ok a, w) => (k a).outcome w
      | (.error e, w) => (.error e, w) := by
    show (ExceptT.bindCont k (c.outcome w).1 : StateM (Running σ) _) (c.outcome w).2 = _
    cases c.outcome w with
    | mk r w' => cases r <;> rfl
  rw [hbind]
  split at h
  · exact hk _ _ h
  · exact h

theorem own {f : σ → α × σ} (h : ∀ s, P s → Q (f s).1 (f s).2) :
    Triple P (Prog.own f : Prog σ ε α) Q E :=
  fun w hw => h w.state hw

theorem rejectIf {p : Prop} [Decidable p] {e : ε} {Q : Unit → σ → Prop}
    (herr : p → ∀ s, P s → E e s) (hok : ¬ p → ∀ s, P s → Q () s) :
    Triple P (Prog.rejectIf p e) Q E := by
  rw [Prog.rejectIf]
  split_ifs with hp
  · exact throw (herr hp)
  · exact pure (hok hp)

theorem catching {h : ε → Prog σ ε' α} {E' : ε' → σ → Prop} (hc : Triple P c Q E)
    (hh : ∀ e, Triple (E e) (h e) Q E') : Triple P (c.catching h) Q E' := by
  intro w hw
  have hcw := hc w hw
  have hcatch : (c.catching h).outcome w = match c.outcome w with
      | (.ok a, w) => (.ok a, w)
      | (.error e, w) => (h e).outcome w := rfl
  rw [hcatch]
  split at hcw
  · exact hcw
  · exact hh _ _ hcw

theorem mapError {f : ε → ε'} {E' : ε' → σ → Prop} (hc : Triple P c Q E)
    (hE : ∀ e s, E e s → E' (f e) s) : Triple P (c.mapError f) Q E' :=
  hc.catching fun e => throw (hE e)

/-- An operation meets the state that the environment leaves to it. -/
theorem op {env : Environment σ ο ε} {o : ο} {f : σ → Except ε α × σ}
    (hact : ∀ t s, P s → M (env.act t o s))
    (hfail : ∀ t e s, M s → env.fail t o = some e → E e s)
    (hok : ∀ s a, M s → (f s).1 = .ok a → Q a (f s).2)
    (herr : ∀ s e, M s → (f s).1 = .error e → E e (f s).2) : Triple P (Prog.op env o f) Q E := by
  intro w hw
  have hs := hact w.time w.state hw
  rw [outcome, Prog.op]
  cases hf : env.fail w.time o with
  | some e => exact hfail w.time e _ hs hf
  | none =>
    cases hr : (f (env.act w.time o w.state)).1 with
    | ok a => exact hok _ a hs hr
    | error e => exact herr _ e hs hr

/-- An operation that reads. -/
theorem read {env : Environment σ ο ε} {o : ο} {f : σ → Except ε α}
    (hact : ∀ t s, P s → M (env.act t o s))
    (hfail : ∀ t e s, M s → env.fail t o = some e → E e s)
    (hok : ∀ s a, M s → f s = .ok a → Q a s) (herr : ∀ s e, M s → f s = .error e → E e s) :
    Triple P (Prog.read env o f) Q E :=
  op hact hfail hok herr

end Triple

end Prog

end Tokn
