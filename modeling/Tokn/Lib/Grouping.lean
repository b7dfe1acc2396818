import Mathlib.Data.List.SplitBy
import Mathlib.Data.List.TakeWhile
import Mathlib.Tactic

/-!
# Gathering runs

A loop over a list gathers what neighbouring elements contribute and emits it as one when an element
comes that does not join in, or at the end. An element that joins in may contribute nothing at all,
which is not the same as an empty list.

**Theorem (`run_eq`).** The loop emits, for each maximal run of elements that join in, one bundle of
what they contribute, if any of them contributes, and for every other element what it stands for.
-/

namespace Tokn.Grouping

variable {α β μ : Type*}

/-- How elements are gathered. -/
structure Rule (α β μ : Type*) where
  /-- Whether an element joins the run before it. -/
  joins : α → Bool
  /-- What an element that joins in contributes. -/
  parts : α → Option (List β)
  bundle : List β → μ
  /-- What an element that does not join in stands for. -/
  single : α → List μ

/-- What is gathered and not emitted yet, and what has been emitted. -/
structure State (β μ : Type*) where
  pending : Option (List β) := none
  out : List μ := []

/-- Parts after those that are pending. -/
def append (pending parts : Option (List β)) : Option (List β) :=
  match parts with
  | none => pending
  | some parts => some (pending.getD [] ++ parts)

namespace Rule

variable (r : Rule α β μ)

def flush (s : State β μ) : State β μ where
  pending := none
  out := s.out ++ (s.pending.map r.bundle).toList

def step (s : State β μ) (a : α) : State β μ :=
  if r.joins a then { s with pending := append s.pending (r.parts a) }
  else { r.flush s with out := (r.flush s).out ++ r.single a }

/-- What the loop emits. -/
def run (items : List α) : List μ := (r.flush (items.foldl r.step {})).out

/-- The maximal runs of elements that join in, and each other element by itself. -/
def groups (items : List α) : List (List α) := items.splitBy fun a b => r.joins a && r.joins b

/-- What the elements of a run contribute. -/
def gathered (group : List α) : Option (List β) := group.foldl (fun p a => append p (r.parts a)) none

/-- What a group is emitted as. -/
def emitted (group : List α) : List μ :=
  if group.all r.joins then ((r.gathered group).map r.bundle).toList else group.flatMap r.single

/-! ## Groups -/

theorem groups_cons_of_not_joins {a : α} (h : r.joins a = false) (items : List α) :
    r.groups (a :: items) = [a] :: r.groups items := by
  have happend : ([a] ++ items).splitBy (fun a b => r.joins a && r.joins b) =
      [a].splitBy (fun a b => r.joins a && r.joins b) ++ r.groups items := by
    refine List.splitBy_append ?_
    intro x hx y _
    cases hx
    simp [h]
  exact happend

theorem groups_append_of_joins {run rest : List α} (hne : run ≠ []) (hrun : run.all r.joins = true)
    (hrest : ∀ a ∈ rest.head?, r.joins a = false) :
    r.groups (run ++ rest) = run :: r.groups rest := by
  have hchain : run.IsChain fun a b => (r.joins a && r.joins b) = true := by
    refine (List.pairwise_of_forall_mem_list fun a ha b hb => ?_).isChain
    rw [List.all_eq_true.mp hrun a ha, List.all_eq_true.mp hrun b hb]
    rfl
  have happend : (run ++ rest).splitBy (fun a b => r.joins a && r.joins b) =
      run.splitBy (fun a b => r.joins a && r.joins b) ++ r.groups rest := by
    refine List.splitBy_append ?_
    intro x _ y hy
    simp [hrest y hy]
  rw [groups, happend, List.splitBy_of_isChain hne hchain]
  rfl

/-- A group is a run of elements that join in, or an element that does not. -/
theorem of_mem_groups {items group : List α} (h : group ∈ r.groups items) :
    group.all r.joins = true ∨ ∃ a, group = [a] ∧ r.joins a = false := by
  cases hgroup : group with
  | nil => exact .inl rfl
  | cons a rest =>
    cases ha : r.joins a with
    | true =>
      refine .inl ?_
      rw [List.all_cons, ha, Bool.true_and, List.all_eq_true]
      have hchain := List.isChain_of_mem_splitBy h
      rw [hgroup] at hchain
      exact hchain.cons_induction (fun b => r.joins b = true) rest
        (fun _ _ hbc _ => (Bool.and_eq_true_iff.mp hbc).2) ha
    | false =>
      cases rest with
      | nil => exact .inr ⟨a, rfl, ha⟩
      | cons b rest =>
        have hchain := List.isChain_of_mem_splitBy h
        rw [hgroup, List.isChain_cons_cons, ha] at hchain
        cases hchain.1

/-! ## The loop -/

theorem foldl_step_of_joins {run : List α} (hrun : run.all r.joins = true) (s : State β μ) :
    run.foldl r.step s =
      { s with pending := run.foldl (fun p a => append p (r.parts a)) s.pending } := by
  induction run generalizing s with
  | nil => rfl
  | cons a run ih =>
    rw [List.all_cons, Bool.and_eq_true] at hrun
    rw [List.foldl_cons, ih hrun.2, step, if_pos hrun.1]
    rfl

theorem step_of_not_joins {a : α} (h : r.joins a = false) (s : State β μ) :
    r.step s a = { pending := none, out := (r.flush s).out ++ r.single a } := by
  rw [step, if_neg (by simp [h])]
  rfl

/-- The loop goes group by group: the elements that join in come first, then one that does not. -/
theorem flush_foldl_step (items : List α) (out : List μ) :
    (r.flush (items.foldl r.step { pending := none, out := out })).out =
      out ++ (r.groups items).flatMap r.emitted := by
  induction hn : items.length using Nat.strongRecOn generalizing items out with
  | ind n ih =>
    obtain ⟨run, rest, rfl, hrun, hrest⟩ : ∃ run rest, items = run ++ rest ∧
        run.all r.joins = true ∧ ∀ a ∈ rest.head?, r.joins a = false := by
      refine ⟨items.takeWhile r.joins, items.dropWhile r.joins,
        List.takeWhile_append_dropWhile.symm, List.all_takeWhile, ?_⟩
      intro a ha
      have hhead := List.head?_dropWhile_not r.joins items
      rw [Option.mem_def.mp ha] at hhead
      simpa using hhead
    have hemitted : (r.groups (run ++ rest)).flatMap r.emitted =
        ((r.gathered run).map r.bundle).toList ++ (r.groups rest).flatMap r.emitted := by
      by_cases hne : run = []
      · subst hne
        rfl
      · rw [r.groups_append_of_joins hne hrun hrest, List.flatMap_cons, emitted, if_pos hrun]
    rw [List.foldl_append, r.foldl_step_of_joins hrun, hemitted]
    cases rest with
    | nil => simp [flush, gathered, groups]
    | cons a rest =>
      have ha : r.joins a = false := hrest a rfl
      have hlt : rest.length < n := by
        rw [← hn, List.length_append, List.length_cons]
        omega
      have hsingle : r.emitted [a] = r.single a := by
        simp [emitted, ha]
      rw [List.foldl_cons, r.step_of_not_joins ha, ih _ hlt rest _ rfl,
        r.groups_cons_of_not_joins ha, List.flatMap_cons, hsingle]
      simp [flush, gathered]

/-- The loop emits the groups one after the other. -/
theorem run_eq (items : List α) : r.run items = (r.groups items).flatMap r.emitted :=
  (r.flush_foldl_step items []).trans (List.nil_append _)

/-- What a run contributes, if anything, is all that its elements do. -/
theorem gathered_eq (group : List α) :
    r.gathered group =
      if (group.filterMap r.parts) = [] then none else some (group.filterMap r.parts).flatten := by
  induction group using List.reverseRecOn with
  | nil => rfl
  | append_singleton group a ih =>
    rw [gathered, List.foldl_append, List.foldl_cons, List.foldl_nil, ← gathered, ih,
      List.filterMap_append]
    cases hparts : r.parts a with
    | none => simp [append, hparts]
    | some parts =>
      by_cases hnil : group.filterMap r.parts = [] <;> simp [append, hparts, hnil]

end Rule

end Tokn.Grouping
