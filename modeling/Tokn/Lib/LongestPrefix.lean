import Mathlib.Data.List.Infix
import Mathlib.Data.Set.Basic
import Mathlib.Data.List.TakeDrop
import Mathlib.Order.Basic
import Mathlib.Tactic.SplitIfs

/-!
# The conversation that another continues

A talk is an input and an output. Another talk comes before it that has said all of what a part at
the start of its input says, or, short of its whole input, has had that part as its own input. Its
parent is the one for the longest such part; all that was said counts before an input, and among
equals the last talk does.

**Theorem (`search_eq_some`, `search_eq_none`).** A search that takes one message after the other off
the end of the input finds the parent.
-/

namespace Tokn.LongestPrefix

variable {ν α β : Type*}

/-! ## The last of a list -/

/-- The last element that satisfies `p`. -/
def latest (p : β → Bool) (l : List β) : Option β := l.reverse.find? p

@[simp] theorem latest_nil (p : β → Bool) : latest p [] = none := rfl

theorem latest_concat (p : β → Bool) (l : List β) (x : β) :
    latest p (l ++ [x]) = if p x = true then some x else latest p l := by
  rw [latest, List.reverse_append, List.reverse_singleton, List.singleton_append, List.find?_cons]
  by_cases h : p x = true
  · rw [if_pos h, h]
  · rw [if_neg h, eq_false_of_ne_true h]
    rfl

theorem latest_eq_none {p : β → Bool} {l : List β} :
    latest p l = none ↔ ∀ x ∈ l, ¬ p x = true := by
  simp [latest]

/-- In a list that is sorted by `r`, it is the greatest. -/
theorem latest_eq_some {r : β → β → Prop} {p : β → Bool} {l : List β} (hl : l.Pairwise r) {x : β}
    (h : latest p l = some x) : x ∈ l ∧ p x = true ∧ ∀ y ∈ l, p y = true → y = x ∨ r y x := by
  induction l using List.reverseRecOn with
  | nil => cases h
  | append_singleton l z ih =>
    obtain ⟨hsorted, -, hlast⟩ := List.pairwise_append.mp hl
    rw [latest_concat] at h
    by_cases hz : p z = true
    · rw [if_pos hz] at h
      cases h
      refine ⟨List.mem_append_right l (List.mem_singleton_self x), hz, ?_⟩
      intro y hy _
      rcases List.mem_append.mp hy with hy | hy
      · exact Or.inr (hlast y hy x (List.mem_singleton_self x))
      · exact Or.inl (List.mem_singleton.mp hy)
    · rw [if_neg hz] at h
      obtain ⟨hx, hpx, hgreatest⟩ := ih hsorted h
      refine ⟨List.mem_append_left [z] hx, hpx, ?_⟩
      intro y hy hpy
      rcases List.mem_append.mp hy with hy | hy
      · exact hgreatest y hy hpy
      · rw [List.mem_singleton.mp hy] at hpy
        exact absurd hpy hz

/-! ## What two lists have in common -/

/-- How far two lists are the same. -/
def commonLength [DecidableEq α] : List α → List α → Nat
  | a :: l, b :: l' => if a = b then commonLength l l' + 1 else 0
  | _, _ => 0

theorem length_le_commonLength [DecidableEq α] {p l l' : List α} (h : p <+: l) (h' : p <+: l') :
    p.length ≤ commonLength l l' := by
  induction p generalizing l l' with
  | nil => exact Nat.zero_le _
  | cons a p ih =>
    obtain ⟨s, rfl⟩ := h
    obtain ⟨s', rfl⟩ := h'
    rw [List.cons_append, List.cons_append, commonLength, if_pos rfl]
    exact Nat.succ_le_succ (ih ⟨s, rfl⟩ ⟨s', rfl⟩)

/-! ## Talks -/

structure Talk (ν α : Type*) where
  node : ν
  input : List α
  output : List α
  deriving DecidableEq

namespace Talk

/-- All that is said. -/
def whole (t : Talk ν α) : List α := t.input ++ t.output

/-- What a talk has of the first `k` messages of `n`: all that it says, or its input. -/
def Has (n t : Talk ν α) (k : Nat) : Bool → Prop
  | true => t.whole = n.input.take k
  | false => k < n.input.length ∧ t.input = n.input.take k

instance [DecidableEq α] (n t : Talk ν α) (k : Nat) (said : Bool) : Decidable (Has n t k said) := by
  cases said
  · exact inferInstanceAs (Decidable (k < n.input.length ∧ t.input = n.input.take k))
  · exact inferInstanceAs (Decidable (t.whole = n.input.take k))

end Talk

/-- `t` comes before `n` and has its first `k` messages. -/
structure Match (before : Set (Talk ν α)) (n t : Talk ν α) (k : Nat) (said : Bool) : Prop where
  mem : t ∈ before
  pos : 0 < k
  le : k ≤ n.input.length
  has : n.Has t k said

/-- A match is longer than another one, or says all of it where the other has it as its input, or
is by the same talk or a later one. -/
def Beats (r : Talk ν α → Talk ν α → Prop) (t : Talk ν α) (k : Nat) (said : Bool) (t' : Talk ν α)
    (k' : Nat) (said' : Bool) : Prop :=
  k' < k ∨ k' = k ∧ (said = true ∧ said' = false ∨ said' = said ∧ (t' = t ∨ r t' t))

/-- `t` is the parent of `n`. -/
structure Parent (r : Talk ν α → Talk ν α → Prop) (before : Set (Talk ν α)) (n t : Talk ν α)
    (k : Nat) (said : Bool) : Prop extends Match before n t k said where
  best : ∀ t' k' said', Match before n t' k' said' → Beats r t k said t' k' said'

/-- There is one parent at most. -/
theorem Parent.unique {r : Talk ν α → Talk ν α → Prop} (hr : ∀ a b, r a b → ¬ r b a)
    {before : Set (Talk ν α)} {n t t' : Talk ν α} {k k' : Nat} {said said' : Bool}
    (h : Parent r before n t k said) (h' : Parent r before n t' k' said') :
    t' = t ∧ k' = k ∧ said' = said := by
  have hbest := h.best t' k' said' h'.toMatch
  have hbest' := h'.best t k said h.toMatch
  rcases hbest with hlt | ⟨rfl, hbest⟩
  · rcases hbest' with hlt' | ⟨heq, -⟩ <;> omega
  · rcases hbest' with hlt' | ⟨-, hbest'⟩
    · exact absurd hlt' (Nat.lt_irrefl k')
    · rcases hbest with ⟨rfl, rfl⟩ | ⟨rfl, heq | hlater⟩
      · simp at hbest'
      · exact ⟨heq, rfl, rfl⟩
      · rcases hbest' with ⟨htrue, hfalse⟩ | ⟨-, heq | hearlier⟩
        · rw [htrue] at hfalse
          cases hfalse
        · exact ⟨heq.symm, rfl, rfl⟩
        · exact absurd hearlier (hr _ _ hlater)

/-- What a talk has of another is at the start of both. -/
theorem Match.le_commonLength [DecidableEq α] {before : Set (Talk ν α)} {n t : Talk ν α} {k : Nat}
    {said : Bool} (h : Match before n t k said) : k ≤ commonLength n.whole t.whole := by
  have hlength : (n.input.take k).length = k := List.length_take_of_le h.le
  have htake := List.take_prefix k n.input
  have hn : n.input.take k <+: n.whole := htake.trans (List.prefix_append _ _)
  have ht : n.input.take k <+: t.whole := by
    have hhas := h.has
    cases said with
    | true =>
      have hwhole : t.whole = n.input.take k := hhas
      rw [hwhole]
    | false =>
      rw [← hhas.2]
      exact List.prefix_append _ _
  calc k = (n.input.take k).length := hlength.symm
    _ ≤ commonLength n.whole t.whole := length_le_commonLength hn ht

/-! ## The search -/

section

variable [DecidableEq α] (before : List (Talk ν α)) (n : Talk ν α)

/-- The last talk that has the first `k` messages. -/
def lookup (k : Nat) (said : Bool) : Option (Talk ν α) :=
  latest (fun t => decide (n.Has t k said)) before

/-- The search, from the first `k` messages on. -/
def search : Nat → Option (Talk ν α × Nat × Bool)
  | 0 => none
  | k + 1 =>
    match lookup before n (k + 1) true with
    | some t => some (t, k + 1, true)
    | none =>
      match lookup before n (k + 1) false with
      | some t => some (t, k + 1, false)
      | none => search k

variable {before n}

variable {t : Talk ν α} {said : Bool}

theorem Match.not_of_lookup {k : Nat} (hnone : lookup before n k said = none) :
    ¬ Match {t | t ∈ before} n t k said := by
  intro h
  have hno := latest_eq_none.mp hnone t h.mem
  exact hno (decide_eq_true h.has)

variable {r : Talk ν α → Talk ν α → Prop}

/-- What is looked up is the greatest with it. -/
theorem lookup_eq_some (hsorted : before.Pairwise r) {k : Nat}
    (h : lookup before n k said = some t) :
    t ∈ before ∧ n.Has t k said ∧ ∀ t', Match {t | t ∈ before} n t' k said → t' = t ∨ r t' t := by
  obtain ⟨hmem, hhas, hgreatest⟩ := latest_eq_some hsorted h
  refine ⟨hmem, of_decide_eq_true hhas, ?_⟩
  intro t' ht'
  exact hgreatest t' ht'.mem (decide_eq_true ht'.has)

/-- What the search finds is a match, and beats all matches that are not longer than `k`. -/
theorem search_beats (hsorted : before.Pairwise r) {k : Nat} (hk : k ≤ n.input.length) {j : Nat}
    (h : search before n k = some (t, j, said)) :
    Match {t | t ∈ before} n t j said ∧
      ∀ t' k' said', Match {t | t ∈ before} n t' k' said' → k' ≤ k → Beats r t j said t' k' said' := by
  induction k with
  | zero => cases h
  | succ k ih =>
    rw [search] at h
    cases htrue : lookup before n (k + 1) true with
    | some found =>
      rw [htrue] at h
      cases h
      obtain ⟨hmem, hhas, hgreatest⟩ := lookup_eq_some hsorted htrue
      refine ⟨⟨hmem, Nat.succ_pos k, hk, hhas⟩, ?_⟩
      intro t' k' said' hmatch hle
      rcases Nat.lt_or_eq_of_le hle with hlt | rfl
      · exact Or.inl hlt
      · refine Or.inr ⟨rfl, ?_⟩
        cases said' with
        | false => exact Or.inl ⟨rfl, rfl⟩
        | true => exact Or.inr ⟨rfl, hgreatest t' hmatch⟩
    | none =>
      rw [htrue] at h
      cases hfalse : lookup before n (k + 1) false with
      | some found =>
        rw [hfalse] at h
        cases h
        obtain ⟨hmem, hhas, hgreatest⟩ := lookup_eq_some hsorted hfalse
        refine ⟨⟨hmem, Nat.succ_pos k, hk, hhas⟩, ?_⟩
        intro t' k' said' hmatch hle
        rcases Nat.lt_or_eq_of_le hle with hlt | rfl
        · exact Or.inl hlt
        · refine Or.inr ⟨rfl, Or.inr ?_⟩
          cases said' with
          | true => exact absurd hmatch (Match.not_of_lookup htrue)
          | false => exact ⟨rfl, hgreatest t' hmatch⟩
      | none =>
        rw [hfalse] at h
        obtain ⟨hmatch, hbeats⟩ := ih (Nat.le_of_succ_le hk) h
        refine ⟨hmatch, ?_⟩
        intro t' k' said' hmatch' hle
        rcases Nat.lt_or_eq_of_le hle with hlt | rfl
        · exact hbeats t' k' said' hmatch' (Nat.le_of_lt_succ hlt)
        · cases said' with
          | true => exact absurd hmatch' (Match.not_of_lookup htrue)
          | false => exact absurd hmatch' (Match.not_of_lookup hfalse)

theorem not_match_of_search {k : Nat} (h : search before n k = none) {j : Nat} (hj : j ≤ k) :
    ¬ Match {t | t ∈ before} n t j said := by
  induction k with
  | zero =>
    intro hmatch
    exact absurd hmatch.pos (Nat.not_lt.mpr hj)
  | succ k ih =>
    rw [search] at h
    cases htrue : lookup before n (k + 1) true with
    | some found =>
      rw [htrue] at h
      cases h
    | none =>
      rw [htrue] at h
      cases hfalse : lookup before n (k + 1) false with
      | some found =>
        rw [hfalse] at h
        cases h
      | none =>
        rw [hfalse] at h
        rcases Nat.lt_or_eq_of_le hj with hlt | rfl
        · exact ih h (Nat.le_of_lt_succ hlt)
        · cases said with
          | true => exact Match.not_of_lookup htrue
          | false => exact Match.not_of_lookup hfalse

/-- **The search finds the parent.** -/
theorem search_eq_some (hsorted : before.Pairwise r) {k : Nat}
    (h : search before n n.input.length = some (t, k, said)) :
    Parent r {t | t ∈ before} n t k said := by
  obtain ⟨hmatch, hbeats⟩ := search_beats hsorted le_rfl h
  refine ⟨hmatch, ?_⟩
  intro t' k' said' hmatch'
  exact hbeats t' k' said' hmatch' hmatch'.le

/-- **It finds nothing where there is no match.** -/
theorem search_eq_none (h : search before n n.input.length = none) (t : Talk ν α) (k : Nat)
    (said : Bool) : ¬ Match {t | t ∈ before} n t k said := by
  intro hmatch
  exact not_match_of_search h hmatch.le hmatch

end

end Tokn.LongestPrefix
