import Mathlib.Tactic

/-!
# Matchers by dimensions

A matcher constrains a request in several dimensions. In each it lists alternatives, of which the
request has to meet one. A list without alternatives does not constrain the dimension.

Whether a list covers another one is decided by the alternatives alone. `admits_of_subsumes` and
`admits_of_subsumesAtom` say what the answer is worth: where one alternative covers another only
if it admits all that the other admits, a list that covers another one admits all that it admits.
A value that meets only what covers an atom is `Generic` for it, and tells what covers the atom from
what does not (`subsumesAtom_of_admits`).
-/

namespace Tokn.Dimension

variable {α β : Type*}

/-! ## Meeting a dimension -/

/-- The value meets an alternative, or there are none. -/
def admits (meets : α → β → Bool) (alternatives : List α) (x : β) : Bool :=
  alternatives.isEmpty || alternatives.any fun a => meets a x

/-- The atoms of a dimension: its alternatives, or the one that asks nothing. -/
def atoms (alternatives : List α) : List (Option α) :=
  if alternatives.isEmpty then [none] else alternatives.map some

/-- The value meets the atom. -/
def atomAdmits (meets : α → β → Bool) : Option α → β → Bool
  | none, _ => true
  | some a, x => meets a x

theorem admits_nil (meets : α → β → Bool) (x : β) : admits meets [] x = true := rfl

variable {alternatives covering : List α}

theorem admits_iff {meets : α → β → Bool} {x : β} :
    admits meets alternatives x = true ↔
      alternatives = [] ∨ ∃ a ∈ alternatives, meets a x = true := by
  rw [admits, Bool.or_eq_true, List.isEmpty_iff, List.any_eq_true]

theorem mem_atoms {atom : Option α} :
    atom ∈ atoms alternatives ↔
      match atom with
      | none => alternatives = []
      | some a => a ∈ alternatives := by
  rw [atoms]
  cases alternatives with
  | nil => cases atom <;> simp
  | cons b alternatives => cases atom <;> simp

/-- A value meets a dimension if it meets one of its atoms. -/
theorem admits_iff_exists_atom {meets : α → β → Bool} {x : β} :
    admits meets alternatives x = true ↔
      ∃ atom ∈ atoms alternatives, atomAdmits meets atom x = true := by
  rw [admits_iff]
  constructor
  · intro h
    cases h with
    | inl hnil => exact ⟨none, mem_atoms.mpr hnil, rfl⟩
    | inr hmeets =>
      obtain ⟨a, ha, hmeets⟩ := hmeets
      exact ⟨some a, mem_atoms.mpr ha, hmeets⟩
  · intro h
    obtain ⟨atom, hatom, hadmits⟩ := h
    cases atom with
    | none => exact Or.inl (mem_atoms.mp hatom)
    | some a => exact Or.inr ⟨a, mem_atoms.mp hatom, hadmits⟩

/-! ## Covering a dimension -/

/-- Each of the alternatives is covered by one of the covering ones. -/
def subsumes (covers : α → α → Bool) (covering covered : List α) : Bool :=
  covering.isEmpty ||
    (!covered.isEmpty &&
      covered.all fun candidate => covering.any fun alternative => covers alternative candidate)

/-- The atom is covered. -/
def subsumesAtom (covers : α → α → Bool) (covering : List α) : Option α → Bool
  | none => covering.isEmpty
  | some atom => covering.isEmpty || covering.any fun alternative => covers alternative atom

/-- The predicate holds of all atoms. -/
def allAtoms (alternatives : List α) (predicate : Option α → Bool) : Bool :=
  if alternatives.isEmpty then predicate none else alternatives.all fun atom => predicate (some atom)

theorem allAtoms_iff {predicate : Option α → Bool} :
    allAtoms alternatives predicate = true ↔ ∀ atom ∈ atoms alternatives, predicate atom = true := by
  rw [allAtoms, atoms]
  cases alternatives with
  | nil => simp
  | cons a alternatives => simp

/-- An alternative that covers another one admits all that it admits. -/
def Sound (covers : α → α → Bool) (meets : α → β → Bool) : Prop :=
  ∀ a b x, covers a b = true → meets b x = true → meets a x = true

variable {covers : α → α → Bool} {meets : α → β → Bool}

theorem Sound.of_eq [BEq α] [LawfulBEq α] (meets : α → β → Bool) : Sound (· == ·) meets := by
  intro a b x hab hb
  rw [eq_of_beq hab]
  exact hb

/-- **A dimension that covers an atom admits what the atom admits.** -/
theorem admits_of_subsumesAtom (hs : Sound covers meets) {atom : Option α} {x : β}
    (h : subsumesAtom covers covering atom = true) (hatom : atomAdmits meets atom x = true) :
    admits meets covering x = true := by
  rw [admits_iff]
  cases atom with
  | none => exact Or.inl (List.isEmpty_iff.mp h)
  | some b =>
    rw [subsumesAtom, Bool.or_eq_true, List.isEmpty_iff, List.any_eq_true] at h
    cases h with
    | inl hnil => exact Or.inl hnil
    | inr hcovers =>
      obtain ⟨a, ha, hab⟩ := hcovers
      exact Or.inr ⟨a, ha, hs a b x hab hatom⟩

/-- **A dimension that covers another one admits what the other one admits.** -/
theorem admits_of_subsumes (hs : Sound covers meets) {covered : List α} {x : β}
    (h : subsumes covers covering covered = true) (hx : admits meets covered x = true) :
    admits meets covering x = true := by
  rw [subsumes, Bool.or_eq_true, List.isEmpty_iff, Bool.and_eq_true] at h
  rw [admits_iff] at hx ⊢
  cases h with
  | inl hnil => exact Or.inl hnil
  | inr hall =>
    obtain ⟨hne, hall⟩ := hall
    cases hx with
    | inl hnil =>
      rw [hnil] at hne
      cases hne
    | inr hmeets =>
      obtain ⟨b, hb, hbx⟩ := hmeets
      obtain ⟨a, ha, hab⟩ := List.any_eq_true.mp (List.all_eq_true.mp hall b hb)
      exact Or.inr ⟨a, ha, hs a b x hab hbx⟩

/-! ## Generic values -/

/-- The value meets only alternatives that cover the atom. -/
def Generic (covers : α → α → Bool) (meets : α → β → Bool) (alternatives : List α)
    (atom : Option α) (x : β) : Prop :=
  ∀ a ∈ alternatives, meets a x = true → ∃ b, atom = some b ∧ covers a b = true

/-- **A dimension that admits a generic value of an atom covers the atom.** -/
theorem subsumesAtom_of_admits {atom : Option α} {x : β} (hx : Generic covers meets covering atom x)
    (h : admits meets covering x = true) : subsumesAtom covers covering atom = true := by
  rcases admits_iff.mp h with hnil | hmeets
  · rw [hnil]
    cases atom <;> rfl
  · obtain ⟨a, ha, hmeets⟩ := hmeets
    obtain ⟨b, rfl, hcovers⟩ := hx a ha hmeets
    rw [subsumesAtom, Bool.or_eq_true, List.any_eq_true]
    exact Or.inr ⟨a, ha, hcovers⟩

end Tokn.Dimension
