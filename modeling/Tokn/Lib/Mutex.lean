import Mathlib.Logic.Function.Basic

/-!
# Tasks and a lock

Each task is at some point of its program, and the lock has at most one owner. `Held` says that the
points in between taking and giving back the lock are those of the owner. Every move of a task keeps
it that takes the lock when it enters those points and gives it back when it leaves them.
-/

namespace Tokn.Mutex

variable {ι κ : Type*} {inside : κ → Prop} {owner : Option ι} {points : ι → κ}

/-- The task that is inside is the owner. -/
def Held (inside : κ → Prop) (owner : Option ι) (points : ι → κ) : Prop :=
  ∀ i, inside (points i) ↔ owner = some i

/-- **Mutual exclusion.** -/
theorem Held.unique (h : Held inside owner points) {i j : ι} (hi : inside (points i))
    (hj : inside (points j)) : i = j := by
  have howner := (h i).mp hi
  rw [(h j).mp hj] at howner
  exact (Option.some.inj howner).symm

theorem held_none (h : ∀ i, ¬ inside (points i)) : Held inside none points := by
  intro i
  simp [h i]

variable [DecidableEq ι]

/-- A task moves, and stays inside or outside. -/
theorem Held.move (h : Held inside owner points) {i : ι} {k : κ}
    (hk : inside k ↔ inside (points i)) : Held inside owner (Function.update points i k) := by
  intro j
  by_cases hj : j = i
  · subst hj
    rw [Function.update_self, hk, h j]
  · rw [Function.update_of_ne hj, h j]

/-- A task takes the lock. -/
theorem Held.acquire (h : Held inside none points) {i : ι} {k : κ} (hk : inside k) :
    Held inside (some i) (Function.update points i k) := by
  intro j
  by_cases hj : j = i
  · subst hj
    simp [hk]
  · have hout : ¬ inside (points j) := by simp [h j]
    rw [Function.update_of_ne hj, Option.some.injEq]
    exact iff_of_false hout (Ne.symm hj)

/-- A task gives the lock back. -/
theorem Held.release (h : Held inside owner points) {i : ι} {k : κ} (hi : inside (points i))
    (hk : ¬ inside k) : Held inside none (Function.update points i k) := by
  refine held_none ?_
  intro j
  by_cases hj : j = i
  · subst hj
    rwa [Function.update_self]
  · rw [Function.update_of_ne hj]
    intro hin
    exact hj (h.unique hin hi)

end Tokn.Mutex
