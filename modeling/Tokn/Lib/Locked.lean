import Tokn.Lib.Machine

/-!
# A cell that is replaced under a lock

A caller takes the lock, reads the cell, and then either replaces the value or fails, and gives the
lock back. Whoever reads the cell without the lock sees the value of some moment.

**Theorem (`exec_linear`).** However the steps interleave, the value and the answers are those of
one call after the other: a call that is answered made its proposal from the value it replaced.
-/

namespace Tokn.Locked

universe u

variable {α ρ β ε : Type u}

/-- What the caller that has the lock has done. -/
inductive Holder (α ρ : Type u) where
  | entered (request : ρ)
  | loaded (seen : α) (request : ρ)

/-- The cell, its lock and the answers given so far. -/
structure Cell (α ρ β ε : Type u) where
  current : α
  holder : Option (Holder α ρ) := none
  answers : List (Except ε β) := []

/-- What a caller does next: to take the lock, to read the cell, and to end the call. -/
inductive Action (ρ : Type u) where
  | enter (request : ρ)
  | load
  | conclude

/-- The answer of a call, and the new value if there is one. -/
def conclude (propose : α → ρ → Except ε (α × β)) (cell : Cell α ρ β ε) (seen : α) (request : ρ) :
    Cell α ρ β ε :=
  match propose seen request with
  | .ok (value, answer) =>
    { current := value, holder := none, answers := cell.answers ++ [.ok answer] }
  | .error e => { cell with holder := none, answers := cell.answers ++ [.error e] }

/-- One step of some caller. The lock has to be free to be taken. -/
def step (propose : α → ρ → Except ε (α × β)) (cell : Cell α ρ β ε) :
    Action ρ → Option (Cell α ρ β ε)
  | .enter request =>
    match cell.holder with
    | none => some { cell with holder := some (.entered request) }
    | some _ => none
  | .load =>
    match cell.holder with
    | some (.entered request) => some { cell with holder := some (.loaded cell.current request) }
    | _ => none
  | .conclude =>
    match cell.holder with
    | some (.loaded seen request) => some (conclude propose cell seen request)
    | _ => none

variable {propose : α → ρ → Except ε (α × β)}

/-- What a step can do to the value and to the answers. -/
inductive Effect (propose : α → ρ → Except ε (α × β)) (cell cell' : Cell α ρ β ε) : Prop where
  | silent (current : cell'.current = cell.current) (answers : cell'.answers = cell.answers)
  | refused (seen : α) (request : ρ) (e : ε) (holder : cell.holder = some (.loaded seen request))
      (proposal : propose seen request = .error e) (current : cell'.current = cell.current)
      (answers : cell'.answers = cell.answers ++ [.error e])
  | replaced (seen : α) (request : ρ) (answer : β)
      (holder : cell.holder = some (.loaded seen request))
      (proposal : propose seen request = .ok (cell'.current, answer))
      (answers : cell'.answers = cell.answers ++ [.ok answer])

theorem effect_of_step {cell cell' : Cell α ρ β ε} {action : Action ρ}
    (h : step propose cell action = some cell') : Effect propose cell cell' := by
  cases action with
  | enter request =>
    rw [step] at h
    split at h
    · cases h
      exact .silent rfl rfl
    · cases h
  | load =>
    rw [step] at h
    split at h
    · cases h
      exact .silent rfl rfl
    · cases h
  | conclude =>
    rw [step] at h
    split at h
    · rename_i seen request hholder
      cases h
      cases hproposal : propose seen request with
      | error e =>
        refine .refused seen request e hholder hproposal ?_ ?_ <;> rw [Locked.conclude, hproposal]
      | ok result =>
        refine .replaced seen request result.2 hholder ?_ ?_ <;> rw [Locked.conclude, hproposal]
    · cases h

/-- The caller that has the lock has seen the value there is. -/
def Fresh (cell : Cell α ρ β ε) : Prop :=
  ∀ seen request, cell.holder = some (.loaded seen request) → seen = cell.current

theorem Fresh.step {cell cell' : Cell α ρ β ε} {action : Action ρ}
    (h : step propose cell action = some cell') : Fresh cell' := by
  intro seen request hholder
  cases action with
  | enter request' =>
    rw [Locked.step] at h
    split at h
    · cases h
      cases hholder
    · cases h
  | load =>
    rw [Locked.step] at h
    split at h
    · cases h
      cases hholder
      rfl
    · cases h
  | conclude =>
    rw [Locked.step] at h
    split at h
    · cases h
      rw [Locked.conclude] at hholder
      split at hholder <;> cases hholder
    · cases h

/-- The runs of callers on a cell that no one has locked. -/
abbrev exec (propose : α → ρ → Except ε (α × β)) (first : α) (actions : List (Action ρ)) :
    Option (Cell α ρ β ε) :=
  Machine.exec (step propose) { current := first } actions

theorem fresh_of_exec {first : α} {actions : List (Action ρ)} {cell : Cell α ρ β ε}
    (h : exec propose first actions = some cell) : Fresh cell := by
  refine Machine.exec_induction (fun _ cell => Fresh cell) ?_ ?_ h
  · intro seen request hholder
    cases hholder
  · exact fun _ _ _ _ _ _ hstep => Fresh.step hstep

/-- **The runs are those of one call after the other.** What holds of the first value and no
answers, and is kept by a call that is refused and by one that replaces the value, holds of every
run. -/
theorem exec_linear {first : α} (P : α → List (Except ε β) → Prop) (init : P first [])
    (refused : ∀ current answers request e, P current answers →
      propose current request = .error e → P current (answers ++ [.error e]))
    (replaced : ∀ current answers request value answer, P current answers →
      propose current request = .ok (value, answer) → P value (answers ++ [.ok answer]))
    {actions : List (Action ρ)} {cell : Cell α ρ β ε}
    (h : exec propose first actions = some cell) : P cell.current cell.answers := by
  refine Machine.exec_induction (fun _ cell => P cell.current cell.answers) init ?_ h
  intro actions action cell cell' hexec hP hstep
  have hfresh := fresh_of_exec hexec
  cases effect_of_step hstep with
  | silent current answers =>
    rw [current, answers]
    exact hP
  | refused seen request e holder proposal current answers =>
    rw [hfresh seen request holder] at proposal
    rw [current, answers]
    exact refused _ _ request e hP proposal
  | replaced seen request answer holder proposal answers =>
    rw [hfresh seen request holder] at proposal
    rw [answers]
    exact replaced _ _ request _ answer hP proposal

end Tokn.Locked
