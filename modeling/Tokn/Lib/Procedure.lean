import Tokn.Lib.Except
import Tokn.Lib.Stateful

/-!
# Procedures of atomic operations

A procedure is a list of operations, each of which changes the state at once or fails. `run` is
the state after all of them. The process may end between two operations, or an operation may
fail: what is left is then the state after the operations done so far, and `run_append` says what
the others make of it.

**The stop rule** (`stop_induction`). What holds at the start and is kept by each operation of the
procedure holds wherever the procedure stops.
-/

namespace Tokn.Procedure

variable {σ ε ι : Type} (act : ι → σ → Except ε σ)

/-- The state after the operations, in order. -/
def run (ops : List ι) (s : σ) : Except ε σ := ops.foldlM (fun s op => act op s) s

/-- The operations as a program, which keeps what it did before one of them failed. -/
def perform (ops : List ι) : Stateful σ ε Unit := ops.forM fun op => Stateful.replacing (act op)

/-! ## Equations -/

@[simp] theorem run_nil (s : σ) : run act [] s = .ok s := rfl

theorem run_cons (op : ι) (ops : List ι) (s : σ) :
    run act (op :: ops) s = act op s >>= run act ops := rfl

theorem run_append (ops ops' : List ι) (s : σ) :
    run act (ops ++ ops') s = run act ops s >>= run act ops' := List.foldlM_append

variable {act}

theorem run_cons_eq_ok {op : ι} {ops : List ι} {s u : σ} :
    run act (op :: ops) s = .ok u ↔ ∃ t, act op s = .ok t ∧ run act ops t = .ok u := by
  rw [run_cons, Except.bind_eq_ok]

theorem run_append_eq_ok {ops ops' : List ι} {s u : σ} :
    run act (ops ++ ops') s = .ok u ↔ ∃ t, run act ops s = .ok t ∧ run act ops' t = .ok u := by
  rw [run_append, Except.bind_eq_ok]

theorem perform_eq_ok {ops : List ι} {s t : σ} :
    (perform act ops).outcome s = (.ok (), t) ↔ run act ops s = .ok t := by
  induction ops generalizing s with
  | nil =>
    rw [run_nil, Except.ok.injEq]
    exact ⟨fun h => (Prod.mk.inj h).2, fun h => congrArg _ h⟩
  | cons op ops ih =>
    rw [run_cons_eq_ok, perform, List.forM.eq_2, Stateful.bind_eq_ok]
    constructor
    · rintro ⟨⟨⟩, s', hop, hops⟩
      exact ⟨s', Stateful.replacing_eq_ok.mp hop, ih.mp hops⟩
    · rintro ⟨s', hop, hops⟩
      exact ⟨⟨⟩, s', Stateful.replacing_eq_ok.mpr hop, ih.mpr hops⟩

/-- **The stop rule.** Wherever the procedure stops, what its operations keep still holds. -/
theorem stop_induction {ops : List ι} {s t : σ} (I : σ → Prop) (init : I s)
    (keep : ∀ op ∈ ops, ∀ s t, act op s = .ok t → I s → I t) (h : run act ops s = .ok t) : I t := by
  induction ops generalizing s with
  | nil =>
    cases h
    exact init
  | cons op ops ih =>
    obtain ⟨s', hop, hops⟩ := run_cons_eq_ok.mp h
    exact ih (keep op List.mem_cons_self s s' hop init)
      (fun op' hop' => keep op' (List.mem_cons_of_mem op hop')) hops

/-- A list of operations that cannot fail. -/
theorem exists_run {ops : List ι} (h : ∀ op ∈ ops, ∀ s, ∃ t, act op s = .ok t) (s : σ) :
    ∃ t, run act ops s = .ok t := by
  induction ops generalizing s with
  | nil => exact ⟨s, rfl⟩
  | cons op ops ih =>
    obtain ⟨s', hop⟩ := h op List.mem_cons_self s
    obtain ⟨t, hops⟩ := ih (fun op' hop' => h op' (List.mem_cons_of_mem op hop')) s'
    exact ⟨t, run_cons_eq_ok.mpr ⟨s', hop, hops⟩⟩

end Tokn.Procedure
