import Mathlib.Tactic

/-!
# Machine addition and subtraction

An addition of unsigned machine numbers that overflows panics in a build with overflow checks and
wraps in one without; so does a subtraction below zero. A computation that takes its addition as a
parameter can be compared with the one over the natural numbers, where nothing overflows.
-/

namespace Tokn

/-- An addition; `none` is a panic. -/
abbrev Addition := Nat → Nat → Option Nat

/-- The addition of natural numbers. -/
def exactAdd : Addition := fun a b => some (a + b)

inductive Build where
  | debug
  | release
  deriving DecidableEq

/-- The addition of a build, on numbers of some width. -/
def Build.add (build : Build) (bits : Nat) : Addition := fun a b =>
  match build with
  | .debug => if a + b < 2 ^ bits then some (a + b) else none
  | .release => some ((a + b) % 2 ^ bits)

/-- The subtraction of a build. -/
def Build.sub (build : Build) (bits a b : Nat) : Option Nat :=
  match build with
  | .debug => if b ≤ a then some (a - b) else none
  | .release => some ((a + 2 ^ bits - b) % 2 ^ bits)

namespace Build

variable {build : Build} {bits a b c : Nat}

theorem add_of_lt (h : a + b < 2 ^ bits) : build.add bits a b = some (a + b) := by
  cases build with
  | debug => exact if_pos h
  | release => exact congrArg some (Nat.mod_eq_of_lt h)

theorem add_eq_exactAdd_iff : build.add bits a b = exactAdd a b ↔ a + b < 2 ^ bits := by
  refine ⟨fun h => ?_, add_of_lt⟩
  cases build with
  | debug =>
    rw [add, exactAdd] at h
    split_ifs at h with hlt
    exact hlt
  | release =>
    rw [← Option.some.inj h]
    exact Nat.mod_lt _ (Nat.two_pow_pos bits)

/-- With overflow checks, a sum is exact. -/
theorem eq_of_add_debug (h : Build.debug.add bits a b = some c) : c = a + b := by
  rw [add] at h
  split_ifs at h
  exact (Option.some.inj h).symm

/-- With overflow checks, a difference is exact. -/
theorem eq_of_sub_debug (h : Build.debug.sub bits a b = some c) : c = a - b ∧ b ≤ a := by
  rw [sub] at h
  split_ifs at h with hle
  exact ⟨(Option.some.inj h).symm, hle⟩

theorem sub_of_le (h : b ≤ a) (ha : a < 2 ^ bits) : build.sub bits a b = some (a - b) := by
  cases build with
  | debug => exact if_pos h
  | release =>
    have hsub : a + 2 ^ bits - b = a - b + 2 ^ bits := by omega
    rw [sub, hsub, Nat.add_mod_right, Nat.mod_eq_of_lt (by omega)]

/-- Three summands. The partial sum overflows only if the sum does. -/
theorem add_add_eq_exactAdd_iff :
    ((build.add bits a b).bind fun ab => build.add bits ab c) =
      ((exactAdd a b).bind fun ab => exactAdd ab c) ↔ a + b + c < 2 ^ bits := by
  refine ⟨fun h => ?_, fun h => ?_⟩
  · cases build with
    | debug =>
      rw [add] at h
      split_ifs at h with hlt
      · have hsum : Build.debug.add bits (a + b) c = exactAdd (a + b) c := h
        exact add_eq_exactAdd_iff.mp hsum
      · cases h
    | release =>
      rw [← Option.some.inj h]
      exact Nat.mod_lt _ (Nat.two_pow_pos bits)
  · rw [add_of_lt (Nat.lt_of_le_of_lt (Nat.le_add_right _ c) h), Option.bind_some, add_of_lt h]
    rfl

end Build

end Tokn
