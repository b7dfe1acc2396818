import Mathlib.Tactic

/-!
# Programs on a state that may fail

A program changes a state and gives a result or an error; what it changed before an error stays
changed. A sequence of programs succeeds when each of its parts does.
-/

namespace Tokn

/-- A program on a state, which may stop with an error. -/
abbrev Stateful (σ ε α : Type) := ExceptT ε (StateM σ) α

namespace Stateful

variable {σ ε α β ι : Type}

/-- The result of a program, and the state it leaves. -/
def outcome (c : Stateful σ ε α) (s : σ) : Except ε α × σ := c s

/-- A computation that leaves the state alone. -/
def reading (f : σ → Except ε α) : Stateful σ ε α := fun s => (f s, s)

/-- A change that does not fail. -/
def updating (f : σ → σ) : Stateful σ ε Unit := fun s => (.ok (), f s)

/-- A change that happens or fails. -/
def replacing (f : σ → Except ε σ) : Stateful σ ε Unit := fun s =>
  match f s with
  | .ok s' => (.ok (), s')
  | .error e => (.error e, s)

@[simp] theorem outcome_pure (a : α) (s : σ) :
    (pure a : Stateful σ ε α).outcome s = (.ok a, s) := rfl

@[simp] theorem outcome_throw (e : ε) (s : σ) :
    (throw e : Stateful σ ε α).outcome s = (.error e, s) := rfl

@[simp] theorem outcome_reading (f : σ → Except ε α) (s : σ) :
    (reading f).outcome s = (f s, s) := rfl

@[simp] theorem outcome_updating (f : σ → σ) (s : σ) :
    (updating f : Stateful σ ε Unit).outcome s = (.ok (), f s) := rfl

theorem replacing_outcome (f : σ → Except ε σ) (s : σ) :
    (replacing f).outcome s = match f s with
      | .ok s' => (.ok (), s')
      | .error e => (.error e, s) := rfl

theorem outcome_bind (c : Stateful σ ε α) (k : α → Stateful σ ε β) (s : σ) :
    (c >>= k).outcome s = match c.outcome s with
      | (.ok a, s) => (k a).outcome s
      | (.error e, s) => (.error e, s) := by
  show (ExceptT.bindCont k (c.outcome s).1 : StateM σ _) (c.outcome s).2 = _
  cases c.outcome s with
  | mk r s' => cases r <;> rfl

variable {s : σ} {c : Stateful σ ε α}

theorem bind_eq_ok {k : α → Stateful σ ε β} {s'' : σ} {b : β} :
    (c >>= k).outcome s = (.ok b, s'') ↔
      ∃ a s', c.outcome s = (.ok a, s') ∧ (k a).outcome s' = (.ok b, s'') := by
  rw [outcome_bind]
  cases c.outcome s with
  | mk r s' =>
    cases r with
    | error e => simp
    | ok a => simp

theorem reading_eq_ok {f : σ → Except ε α} {s' : σ} {a : α} :
    (reading f).outcome s = (.ok a, s') ↔ f s = .ok a ∧ s = s' := by
  rw [outcome_reading, Prod.mk.injEq]

theorem replacing_eq_ok {f : σ → Except ε σ} {s' : σ} {u : Unit} :
    (replacing f).outcome s = (.ok u, s') ↔ f s = .ok s' := by
  rw [outcome, replacing]
  cases f s with
  | error e => simp
  | ok t => simp

theorem bind_reading {f : σ → Except ε α} {k : α → Stateful σ ε β} {a : α} (h : f s = .ok a) :
    (reading f >>= k).outcome s = (k a).outcome s := by
  rw [outcome_bind, outcome_reading, h]

theorem bind_reading_error {f : σ → Except ε α} {k : α → Stateful σ ε β} {e : ε}
    (h : f s = .error e) : (reading f >>= k).outcome s = (.error e, s) := by
  rw [outcome_bind, outcome_reading, h]

/-- A program that starts with a computation on the state stops there, or goes on. -/
theorem bind_reading_cases {f : σ → Except ε α} {k : α → Stateful σ ε β} {r : Except ε β × σ}
    (h : (reading f >>= k).outcome s = r) :
    (∃ e, f s = .error e ∧ r = (.error e, s)) ∨ ∃ a, f s = .ok a ∧ (k a).outcome s = r := by
  rw [outcome_bind, outcome_reading] at h
  cases hf : f s with
  | error e =>
    rw [hf] at h
    exact Or.inl ⟨e, rfl, h.symm⟩
  | ok a =>
    rw [hf] at h
    exact Or.inr ⟨a, rfl, h⟩

theorem outcome_reading_bind_cases (f : σ → Except ε Unit) (k : Unit → Stateful σ ε β) (s : σ) :
    (∃ e, f s = .error e ∧ (reading f >>= k).outcome s = (.error e, s)) ∨
      (f s = .ok () ∧ (reading f >>= k).outcome s = (k ()).outcome s) := by
  cases hf : f s with
  | error e => exact .inl ⟨e, rfl, bind_reading_error hf⟩
  | ok a => exact .inr ⟨rfl, bind_reading hf⟩

/-- **The induction over a sequence of programs that succeeds**, from its end. -/
theorem forM_induction {f : ι → Stateful σ ε PUnit} (P : List ι → σ → σ → Prop)
    (nil : ∀ s, P [] s s)
    (cons : ∀ i is s t u, (f i).outcome s = (.ok ⟨⟩, t) → P is t u → P (i :: is) s u) {is : List ι}
    {u : σ} (h : (is.forM f).outcome s = (.ok ⟨⟩, u)) : P is s u := by
  induction is generalizing s with
  | nil =>
    cases h
    exact nil _
  | cons i is ih =>
    rw [List.forM.eq_2] at h
    obtain ⟨⟨⟩, t, hi, his⟩ := bind_eq_ok.mp h
    exact cons i is s t u hi (ih his)

theorem outcome_forM_append {f : ι → Stateful σ ε PUnit} {is js : List ι} {t : σ}
    (h : (is.forM f).outcome s = (.ok ⟨⟩, t)) :
    ((is ++ js).forM f).outcome s = (js.forM f).outcome t := by
  induction is generalizing s with
  | nil =>
    cases h
    rfl
  | cons i is ih =>
    rw [List.forM.eq_2] at h
    obtain ⟨⟨⟩, u, hi, his⟩ := bind_eq_ok.mp h
    rw [List.cons_append, List.forM.eq_2, outcome_bind, hi]
    exact ih his

/-- A sequence of programs that fails has stopped at one of them. -/
theorem forM_eq_error {f : ι → Stateful σ ε PUnit} {is : List ι} {s u : σ} {e : ε}
    (h : (is.forM f).outcome s = (.error e, u)) : ∃ done i rest t, is = done ++ i :: rest ∧
      (done.forM f).outcome s = (.ok ⟨⟩, t) ∧ (f i).outcome t = (.error e, u) := by
  induction is generalizing s with
  | nil => cases h
  | cons i is ih =>
    rw [List.forM.eq_2, outcome_bind] at h
    cases hi : (f i).outcome s with
    | mk r t =>
      rw [hi] at h
      cases r with
      | error e' =>
        cases h
        exact ⟨[], i, is, s, rfl, rfl, hi⟩
      | ok _ =>
        obtain ⟨done, j, rest, v, rfl, hdone, hj⟩ := ih h
        exact ⟨i :: done, j, rest, v, rfl, bind_eq_ok.mpr ⟨⟨⟩, t, hi, hdone⟩, hj⟩

/-! ## Failing -/

/-- A program fails on a state. -/
def Fails (c : Stateful σ ε α) (s : σ) : Prop := ∃ e s', c.outcome s = (.error e, s')

/-- A program leaves the state as it was if it fails on it. -/
def AtomicAt (c : Stateful σ ε α) (s : σ) : Prop :=
  ∀ e s', c.outcome s = (.error e, s') → s' = s

def Atomic (c : Stateful σ ε α) : Prop := ∀ s, c.AtomicAt s

/-- A program leaves what is seen of the state as it was. -/
def Keeps (view : σ → β) (c : Stateful σ ε α) : Prop := ∀ s, view (c.outcome s).2 = view s

@[simp] theorem not_fails_pure (a : α) (s : σ) : ¬ (pure a : Stateful σ ε α).Fails s := by
  simp [Fails]

@[simp] theorem not_fails_updating (f : σ → σ) (s : σ) :
    ¬ (updating f : Stateful σ ε Unit).Fails s := by
  simp [Fails]

/-- What comes after a computation on the state fails, or the computation does. -/
theorem fails_reading_bind {f : σ → Except ε Unit} {k : Unit → Stateful σ ε α} :
    (reading f >>= k).Fails s ↔ (∃ e, f s = .error e) ∨ (k ()).Fails s := by
  cases hf : f s with
  | error e =>
    refine iff_of_true ⟨e, s, bind_reading_error hf⟩ (.inl ⟨e, rfl⟩)
  | ok a =>
    rw [Fails, bind_reading hf]
    simp [Fails]

theorem atomicAt_of_ok {s' : σ} {a : α} (h : c.outcome s = (.ok a, s')) : c.AtomicAt s := by
  intro e s'' he
  rw [h] at he
  cases he

theorem atomicAt_iff_of_error {s' : σ} {e : ε} (h : c.outcome s = (.error e, s')) :
    c.AtomicAt s ↔ s' = s := by
  constructor
  · exact fun hat => hat e s' h
  · intro hs e' s'' he
    rw [h] at he
    cases he
    exact hs

theorem atomic_pure (a : α) : Atomic (pure a : Stateful σ ε α) := by
  intro s e s' h
  cases h

theorem atomic_reading (f : σ → Except ε α) : Atomic (reading f) := by
  intro s e s' h
  exact (Prod.mk.inj h).2.symm

theorem atomic_updating (f : σ → σ) : Atomic (updating f : Stateful σ ε Unit) := by
  intro s e s' h
  cases h

theorem atomic_reading_bind {f : σ → Except ε α} {k : α → Stateful σ ε β}
    (h : ∀ a, Atomic (k a)) : Atomic (reading f >>= k) := by
  intro s e s' hs
  rcases bind_reading_cases hs with ⟨_, -, hr⟩ | ⟨a, -, hk⟩
  · exact (Prod.mk.inj hr).2
  · exact h a s e s' hk

/-- An atomic program fails where it is, or succeeds. -/
theorem Atomic.outcome_cases {c : Stateful σ ε Unit} (h : Atomic c) (s : σ) :
    (c.Fails s ∧ ∃ e, c.outcome s = (.error e, s)) ∨
      (¬ c.Fails s ∧ ∃ s', c.outcome s = (.ok (), s')) := by
  cases hout : c.outcome s with
  | mk r s' =>
    cases r with
    | error e =>
      cases h s e s' hout
      exact .inl ⟨⟨e, s, hout⟩, e, rfl⟩
    | ok u => exact .inr ⟨by simp [Fails, hout], s', rfl⟩

theorem keeps_pure (view : σ → β) (a : α) : Keeps view (pure a : Stateful σ ε α) := fun _ => rfl

theorem keeps_reading (view : σ → β) (f : σ → Except ε α) : Keeps view (reading f) := fun _ => rfl

theorem keeps_updating {view : σ → β} {f : σ → σ} (h : ∀ s, view (f s) = view s) :
    Keeps view (updating f : Stateful σ ε Unit) := h

theorem Keeps.bind {γ : Type} {view : σ → γ} {k : α → Stateful σ ε β} (hc : Keeps view c)
    (hk : ∀ a, Keeps view (k a)) : Keeps view (c >>= k) := by
  intro s
  have hs := hc s
  rw [outcome_bind]
  cases hout : c.outcome s with
  | mk r s' =>
    rw [hout] at hs
    cases r with
    | error e => exact hs
    | ok a => exact (hk a s').trans hs

end Stateful

end Tokn
