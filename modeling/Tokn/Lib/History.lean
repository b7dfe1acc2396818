import Mathlib.Tactic

/-!
# Histories

A history is the list of what has happened, oldest first. `Each` states a property of every entry
together with the entries before it, and `Since` that something has happened with nothing of a
second kind after it. Both are computed at the end of the history, where it grows.
-/

namespace Tokn.History

variable {α : Type*}

/-- Every entry, with those before it. -/
def Each (P : List α → α → Prop) (l : List α) : Prop :=
  ∀ before x after, l = before ++ x :: after → P before x

/-- An entry that satisfies `p`, and none after it that satisfies `q`. -/
def Since (p q : α → Prop) (l : List α) : Prop :=
  ∃ before x after, l = before ++ x :: after ∧ p x ∧ ∀ y ∈ after, ¬ q y

/-- The two ways to split a history that has grown by one entry. -/
theorem concat_eq_append_cons {l before after : List α} {x y : α} :
    l ++ [y] = before ++ x :: after ↔
      before = l ∧ x = y ∧ after = [] ∨
        ∃ after', after = after' ++ [y] ∧ l = before ++ x :: after' := by
  constructor
  · intro h
    rcases List.eq_nil_or_concat after with hnil | ⟨after', z, hz⟩
    · subst hnil
      obtain ⟨hl, hy⟩ := List.append_inj' h rfl
      exact Or.inl ⟨hl.symm, (List.singleton_inj.mp hy).symm, rfl⟩
    · subst hz
      rw [List.concat_eq_append, ← List.cons_append, ← List.append_assoc] at h
      obtain ⟨hl, hy⟩ := List.append_inj' h rfl
      rw [List.concat_eq_append, List.singleton_inj.mp hy]
      exact Or.inr ⟨after', rfl, hl⟩
  · intro h
    rcases h with ⟨hl, hx, ha⟩ | ⟨after', ha, hl⟩
    · rw [hl, hx, ha]
    · rw [hl, ha, List.append_assoc, List.cons_append]

theorem each_nil (P : List α → α → Prop) : Each P [] := by
  intro before x after h
  cases before <;> cases h

theorem each_concat {P : List α → α → Prop} {l : List α} {y : α} :
    Each P (l ++ [y]) ↔ Each P l ∧ P l y := by
  constructor
  · intro h
    constructor
    · intro before x after hl
      exact h before x (after ++ [y]) (by rw [hl, List.append_assoc, List.cons_append])
    · exact h l y [] rfl
  · intro h before x after hl
    rcases concat_eq_append_cons.mp hl with ⟨hb, hx, -⟩ | ⟨after', -, hl⟩
    · rw [hb, hx]
      exact h.2
    · exact h.1 before x after' hl

theorem not_since_nil (p q : α → Prop) : ¬ Since p q [] := by
  intro h
  obtain ⟨before, x, after, h, -⟩ := h
  cases before <;> cases h

theorem since_concat {p q : α → Prop} {l : List α} {y : α} :
    Since p q (l ++ [y]) ↔ p y ∨ Since p q l ∧ ¬ q y := by
  constructor
  · intro h
    obtain ⟨before, x, after, hl, hp, hq⟩ := h
    rcases concat_eq_append_cons.mp hl with ⟨-, hx, -⟩ | ⟨after', ha, hl⟩
    · exact Or.inl (hx ▸ hp)
    · have hy : ¬ q y := hq y (by rw [ha]; exact List.mem_append_right _ List.mem_cons_self)
      refine Or.inr ⟨⟨before, x, after', hl, hp, ?_⟩, hy⟩
      exact fun z hz => hq z (by rw [ha]; exact List.mem_append_left _ hz)
  · intro h
    rcases h with hp | ⟨⟨before, x, after, hl, hp, hq⟩, hy⟩
    · exact ⟨l, y, [], rfl, hp, fun z hz => absurd hz List.not_mem_nil⟩
    · refine ⟨before, x, after ++ [y], by rw [hl, List.append_assoc, List.cons_append], hp, ?_⟩
      intro z hz
      rcases List.mem_append.mp hz with hz | hz
      · exact hq z hz
      · rw [List.mem_singleton.mp hz]
        exact hy

end Tokn.History
