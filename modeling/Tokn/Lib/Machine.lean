import Mathlib.Tactic

/-!
# Runs of a deterministic machine

A step takes a state and an input to the next state and an output. `run` collects the outputs of
a list of inputs; `run_induction` is the induction every invariant of a run goes through. Where a
step may be disabled, `exec` is the state after a list of inputs, and `exec_induction` the
induction.
-/

namespace Tokn.Machine

variable {σ ι ο : Type*} (step : σ → ι → σ × ο)

/-- The state after the inputs, and their outputs in order. -/
def run (s : σ) : List ι → σ × List ο
  | [] => (s, [])
  | i :: is => ((run (step s i).1 is).1, (step s i).2 :: (run (step s i).1 is).2)

@[simp] theorem run_nil (s : σ) : run step s [] = (s, []) := rfl

theorem run_cons (s : σ) (i : ι) (is : List ι) :
    run step s (i :: is) =
      ((run step (step s i).1 is).1, (step s i).2 :: (run step (step s i).1 is).2) := rfl

theorem run_append (s : σ) (is js : List ι) :
    run step s (is ++ js) =
      ((run step (run step s is).1 js).1,
        (run step s is).2 ++ (run step (run step s is).1 js).2) := by
  induction is generalizing s with
  | nil => rfl
  | cons i is ih => simp only [List.cons_append, run_cons, ih]

theorem run_concat (s : σ) (is : List ι) (i : ι) :
    run step s (is ++ [i]) =
      ((step (run step s is).1 i).1, (run step s is).2 ++ [(step (run step s is).1 i).2]) := by
  rw [run_append, run_cons, run_nil]

variable {step}

/-- **The run induction.** What holds of the empty run and is kept by one more step of a run holds
of every run. -/
theorem run_induction {s : σ} (P : List ι → σ → List ο → Prop) (nil : P [] s [])
    (concat : ∀ is i, P is (run step s is).1 (run step s is).2 →
      P (is ++ [i]) (step (run step s is).1 i).1
        ((run step s is).2 ++ [(step (run step s is).1 i).2]))
    (is : List ι) : P is (run step s is).1 (run step s is).2 := by
  induction is using List.reverseRecOn with
  | nil => exact nil
  | append_singleton is i ih =>
    rw [run_concat]
    exact concat is i ih

/-! ## Steps that may be disabled -/

section

variable {τ κ : Type*} (step : τ → κ → Option τ)

/-- The state after the inputs, when each is enabled in its turn. -/
def exec (s : τ) : List κ → Option τ
  | [] => some s
  | i :: is => (step s i).bind fun s' => exec s' is

theorem exec_append (s : τ) (is js : List κ) :
    exec step s (is ++ js) = (exec step s is).bind fun s' => exec step s' js := by
  induction is generalizing s with
  | nil => rfl
  | cons i is ih =>
    rw [List.cons_append, exec, exec]
    cases step s i with
    | none => rfl
    | some s' => exact ih s'

theorem exec_concat (s : τ) (is : List κ) (i : κ) :
    exec step s (is ++ [i]) = (exec step s is).bind fun s' => step s' i := by
  rw [exec_append]
  congr 1
  funext s'
  rw [exec]
  cases step s' i <;> rfl

/-- Every step of a run meets a condition on the state before it and its input. -/
def Along (P : τ → κ → Prop) (s : τ) : List κ → Prop
  | [] => True
  | i :: is => P s i ∧ ∀ s', step s i = some s' → Along P s' is

theorem along_cons_iff {P : τ → κ → Prop} {s : τ} {i : κ} {is : List κ} :
    Along step P s (i :: is) ↔ P s i ∧ (step s i).elim True fun s' => Along step P s' is := by
  rw [Along]
  cases step s i with
  | none => simp
  | some s' => simp

instance decidableAlong {P : τ → κ → Prop} [∀ s i, Decidable (P s i)] :
    ∀ s is, Decidable (Along step P s is)
  | _, [] => isTrue trivial
  | s, i :: is =>
    have : Decidable ((step s i).elim True fun s' => Along step P s' is) :=
      match step s i with
      | none => isTrue trivial
      | some s' => decidableAlong s' is
    decidable_of_iff _ (along_cons_iff step).symm

variable {step}

/-- **The run induction**, for steps that may be disabled. -/
theorem exec_induction {s : τ} (P : List κ → τ → Prop) (nil : P [] s)
    (concat : ∀ is i s' s'', exec step s is = some s' → P is s' → step s' i = some s'' →
      P (is ++ [i]) s'')
    {is : List κ} {t : τ} (h : exec step s is = some t) : P is t := by
  induction is using List.reverseRecOn generalizing t with
  | nil =>
    obtain rfl : s = t := Option.some.inj h
    exact nil
  | append_singleton is i ih =>
    rw [exec_concat] at h
    obtain ⟨s', hs', hstep⟩ := Option.bind_eq_some_iff.mp h
    exact concat is i s' t hs' (ih hs') hstep

/-- An invariant of the state alone. -/
theorem exec_invariant {s : τ} (I : τ → Prop) (init : I s)
    (keep : ∀ s' i s'', I s' → step s' i = some s'' → I s'') {is : List κ} {t : τ}
    (h : exec step s is = some t) : I t :=
  exec_induction (fun _ s' => I s') init (fun _ i s' s'' _ hs hstep => keep s' i s'' hs hstep) h

theorem along_concat {P : τ → κ → Prop} {s t : τ} {is : List κ} {i : κ}
    (h : exec step s is = some t) :
    Along step P s (is ++ [i]) ↔ Along step P s is ∧ P t i := by
  induction is generalizing s with
  | nil =>
    obtain rfl : s = t := Option.some.inj h
    simp [Along]
  | cons j is ih =>
    rw [exec] at h
    obtain ⟨s', hs', hrest⟩ := Option.bind_eq_some_iff.mp h
    simp only [List.cons_append, Along, hs', Option.some.injEq, forall_eq', ih hrest, and_assoc]

end

end Tokn.Machine
