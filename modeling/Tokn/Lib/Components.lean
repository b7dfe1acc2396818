import Mathlib.Logic.Function.Basic
import Mathlib.Tactic.Basic

/-!
# Systems of components

The state of a system has a part for each component. A step acts on the one that owns it: it looks at no
other part and leaves the others as they are. What a run makes of a component is then what the steps of
the component make of it, in their order.
-/

namespace Tokn.Components

variable {ι σ α : Type*}

/-- A function on the state acts on one component. -/
structure ActsOn (f : (ι → σ) → ι → σ) (i : ι) : Prop where
  own : ∀ s s', s i = s' i → f s i = f s' i
  frame : ∀ s j, j ≠ i → f s j = s j

theorem ActsOn.id (i : ι) : ActsOn (fun s : ι → σ => s) i := ⟨fun _ _ h => h, fun _ _ _ => rfl⟩

/-- An update by what the component is. -/
theorem actsOn_update [DecidableEq ι] (i : ι) (f : σ → σ) :
    ActsOn (fun s : ι → σ => Function.update s i (f (s i))) i := by
  refine ⟨fun s s' h => ?_, fun s j hj => ?_⟩
  · rw [Function.update_self, Function.update_self, h]
  · rw [Function.update_of_ne hj]

section

variable {step : (ι → σ) → α → ι → σ} {owner : α → ι}

/-- What a run makes of a component depends on the component alone. -/
theorem foldl_congr (h : ∀ a, ActsOn (fun s => step s a) (owner a)) (l : List α) {s s' : ι → σ} {i : ι}
    (hs : s i = s' i) : l.foldl step s i = l.foldl step s' i := by
  induction l generalizing s s' with
  | nil => exact hs
  | cons a l ih =>
    refine ih ?_
    by_cases hi : i = owner a
    · subst hi
      exact (h a).own s s' hs
    · rw [(h a).frame s i hi, (h a).frame s' i hi, hs]

/-- **A run is the runs of its components**, side by side. -/
theorem foldl_filter [DecidableEq ι] (h : ∀ a, ActsOn (fun s => step s a) (owner a)) (l : List α)
    (s : ι → σ) (i : ι) : l.foldl step s i = (l.filter fun a => owner a = i).foldl step s i := by
  induction l generalizing s with
  | nil => rfl
  | cons a l ih =>
    rw [List.foldl_cons, List.filter_cons]
    by_cases hi : owner a = i
    · rw [if_pos (decide_eq_true hi), List.foldl_cons, ih]
    · rw [if_neg (by simpa using hi), ih]
      exact foldl_congr h _ ((h a).frame s i (Ne.symm hi))

end

end Tokn.Components
