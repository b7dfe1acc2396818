import Mathlib.Tactic

/-!
# Segments

A history is cut into segments as it grows: a segment ends with the first entry after which it
satisfies `closes`, and the next one starts behind it. `unfinished` is the segment that has not
ended.

**Theorem (`unfinished_eq_nil_iff`).** Nothing is unfinished exactly if the history is a
concatenation of segments.
-/

namespace Tokn.Segments

variable {α : Type*} (closes : List α → Bool)

/-- The entry `x` at the end of a segment. -/
def push (segment : List α) (x : α) : List α :=
  if closes (segment ++ [x]) then [] else segment ++ [x]

/-- The entries since the last segment has ended. -/
def unfinished (l : List α) : List α := l.foldl (push closes) []

/-- The last entry is the first to close the segment. -/
def IsSegment (segment : List α) : Prop :=
  ∃ before x, segment = before ++ [x] ∧ closes segment = true ∧
    ∀ p, p <+: before → p ≠ [] → closes p = false

@[simp] theorem unfinished_nil : unfinished closes [] = [] := rfl

theorem unfinished_concat (l : List α) (x : α) :
    unfinished closes (l ++ [x]) = push closes (unfinished closes l) x := List.foldl_concat ..

variable {closes}

/-- What is unfinished has not been closed. -/
theorem closes_prefix_unfinished (l : List α) {p : List α} (hp : p <+: unfinished closes l)
    (hne : p ≠ []) : closes p = false := by
  induction l using List.reverseRecOn generalizing p with
  | nil => exact absurd (List.prefix_nil.mp hp) hne
  | append_singleton l x ih =>
    rw [unfinished_concat, push] at hp
    split_ifs at hp with hclose
    · exact absurd (List.prefix_nil.mp hp) hne
    · rcases List.prefix_concat_iff.mp hp with heq | hp
      · rw [heq]
        exact Bool.eq_false_of_not_eq_true hclose
      · exact ih hp hne

/-- A history is some segments, and what is unfinished. -/
theorem exists_segments (l : List α) :
    ∃ segments : List (List α), l = segments.flatten ++ unfinished closes l ∧
      ∀ segment ∈ segments, IsSegment closes segment := by
  induction l using List.reverseRecOn with
  | nil => exact ⟨[], rfl, fun _ h => absurd h List.not_mem_nil⟩
  | append_singleton l x ih =>
    obtain ⟨segments, hl, hsegments⟩ := ih
    have happend : l ++ [x] = segments.flatten ++ (unfinished closes l ++ [x]) := by
      rw [← List.append_assoc, ← hl]
    rw [unfinished_concat, push]
    split_ifs with hclose
    · refine ⟨segments ++ [unfinished closes l ++ [x]], by simpa using happend, ?_⟩
      intro segment hmem
      rcases List.mem_append.mp hmem with hmem | hmem
      · exact hsegments segment hmem
      · rw [List.mem_singleton.mp hmem]
        exact ⟨_, x, rfl, hclose, fun p => closes_prefix_unfinished l⟩
    · exact ⟨segments, happend, hsegments⟩

/-- Entries that do not close a segment are added to it. -/
theorem foldl_push_of_forall {segment l : List α}
    (h : ∀ p, p <+: l → p ≠ [] → closes (segment ++ p) = false) :
    l.foldl (push closes) segment = segment ++ l := by
  induction l using List.reverseRecOn with
  | nil => exact (List.append_nil segment).symm
  | append_singleton l x ih =>
    have hl := ih fun p hp => h p (hp.trans (List.prefix_append l [x]))
    have hclose := h (l ++ [x]) List.prefix_rfl (by simp)
    rw [List.foldl_concat, hl, push, List.append_assoc, hclose]
    rfl

theorem IsSegment.foldl_push {segment : List α} (h : IsSegment closes segment) :
    segment.foldl (push closes) [] = [] := by
  obtain ⟨before, x, rfl, hclose, hbefore⟩ := h
  rw [List.foldl_concat, foldl_push_of_forall  hbefore, List.nil_append, push,
    if_pos hclose]

theorem unfinished_flatten {segments : List (List α)}
    (h : ∀ segment ∈ segments, IsSegment closes segment) :
    unfinished closes segments.flatten = [] := by
  induction segments with
  | nil => rfl
  | cons segment segments ih =>
    rw [List.flatten_cons, unfinished, List.foldl_append,
      (h segment List.mem_cons_self).foldl_push]
    exact ih fun s hs => h s (List.mem_cons_of_mem segment hs)

/-- **Nothing is unfinished exactly if the history is a concatenation of segments.** -/
theorem unfinished_eq_nil_iff {l : List α} :
    unfinished closes l = [] ↔
      ∃ segments : List (List α), l = segments.flatten ∧
        ∀ segment ∈ segments, IsSegment closes segment := by
  constructor
  · intro h
    obtain ⟨segments, hl, hsegments⟩ := @exists_segments α closes l
    rw [h, List.append_nil] at hl
    exact ⟨segments, hl, hsegments⟩
  · intro h
    obtain ⟨segments, rfl, hsegments⟩ := h
    exact unfinished_flatten hsegments

end Tokn.Segments
