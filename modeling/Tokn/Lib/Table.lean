import Tokn.Lib.BTreeMap

/-!
# Tables by primary key

A table of a relational database, as the list of its rows with their primary keys, and the three
ways of inserting that do not fail on a conflict: `INSERT OR IGNORE`, which leaves an existing row
alone, an upsert, which updates it, and `INSERT OR REPLACE`, which deletes it first. Where the
order of rows matters, a query sorts them.
-/

namespace Tokn

open BTreeMap (get_cons)

/-- The rows of a table, each after its primary key. -/
abbrev Table (κ ρ : Type*) := BTreeMap κ ρ

namespace Table

variable {κ ρ : Type*} [DecidableEq κ]

/-- `INSERT OR IGNORE`. -/
def insertOrIgnore (t : Table κ ρ) (k : κ) (row : ρ) : Table κ ρ :=
  if t.contains k then t else t ++ [(k, row)]

/-- `INSERT .. ON CONFLICT DO UPDATE`. -/
def upsert (t : Table κ ρ) (k : κ) (row : ρ) (update : ρ → ρ) : Table κ ρ :=
  match t with
  | [] => [(k, row)]
  | (k', old) :: t => if k = k' then (k', update old) :: t else (k', old) :: upsert t k row update

/-- `INSERT OR REPLACE`. -/
def insertOrReplace (t : Table κ ρ) (k : κ) (row : ρ) : Table κ ρ := BTreeMap.erase t k ++ [(k, row)]

/-- Write a row, whether there is one or not. -/
def set (t : Table κ ρ) (k : κ) (row : ρ) : Table κ ρ := upsert t k row fun _ => row

/-- `UPDATE .. WHERE`. -/
def updateWhere (t : Table κ ρ) (p : ρ → Bool) (update : ρ → ρ) : Table κ ρ :=
  t.map fun e => if p e.2 then (e.1, update e.2) else e

theorem get_insertOrIgnore (t : Table κ ρ) (k k' : κ) (row : ρ) :
    (insertOrIgnore t k row).get k' = if k' = k then some ((t.get k).getD row) else t.get k' := by
  rw [insertOrIgnore, BTreeMap.contains]
  cases h : t.get k with
  | none =>
    rw [Option.isSome_none, if_neg Bool.false_ne_true, BTreeMap.get_append, get_cons]
    split_ifs with hk
    · rw [hk, h]
      rfl
    · rw [BTreeMap.get_nil, Option.or_none]
  | some old =>
    rw [Option.isSome_some, if_pos rfl]
    split_ifs with hk
    · rw [hk, h]
      rfl
    · rfl

theorem get_upsert (t : Table κ ρ) (k k' : κ) (row : ρ) (update : ρ → ρ) :
    (upsert t k row update).get k' =
      if k' = k then some (((t.get k).map update).getD row) else t.get k' := by
  induction t with
  | nil => rfl
  | cons e t ih =>
    obtain ⟨l, old⟩ := e
    rw [upsert, get_cons, get_cons]
    by_cases hl : k = l
    · rw [if_pos hl, get_cons, ← hl, if_pos rfl]
      split_ifs <;> rfl
    · rw [if_neg hl, get_cons, if_neg hl, ih]
      by_cases hk : k' = k
      · have hkl : k' ≠ l := fun h => hl (hk.symm.trans h)
        rw [if_pos hk, if_neg hkl, if_pos hk]
      · rw [if_neg hk, if_neg hk]

theorem get_set (t : Table κ ρ) (k k' : κ) (row : ρ) :
    (set t k row).get k' = if k' = k then some row else t.get k' := by
  rw [set, get_upsert]
  cases t.get k <;> rfl

theorem get_updateWhere (t : Table κ ρ) (p : ρ → Bool) (update : ρ → ρ) (k : κ) :
    (updateWhere t p update).get k =
      (t.get k).map fun row => if p row then update row else row := by
  induction t with
  | nil => rfl
  | cons e t ih =>
    obtain ⟨l, row⟩ := e
    rw [get_cons, updateWhere, List.map_cons]
    by_cases hp : p row = true
    · rw [if_pos hp, get_cons]
      split_ifs
      · rw [Option.map_some, if_pos hp]
      · exact ih
    · rw [if_neg hp, get_cons]
      split_ifs
      · rw [Option.map_some, if_neg hp]
      · exact ih

variable {t : Table κ ρ}

omit [DecidableEq κ] in
theorem mem_updateWhere {p : ρ → Bool} {update : ρ → ρ} {e : κ × ρ}
    (h : e ∈ updateWhere t p update) :
    ∃ row, (e.1, row) ∈ t ∧ (e.2 = row ∨ p row = true ∧ e.2 = update row) := by
  obtain ⟨⟨k, row⟩, hmem, rfl⟩ := List.mem_map.mp h
  dsimp only
  split_ifs with hp
  · exact ⟨row, hmem, Or.inr ⟨hp, rfl⟩⟩
  · exact ⟨row, hmem, Or.inl rfl⟩

omit [DecidableEq κ] in
theorem map_fst_updateWhere (t : Table κ ρ) (p : ρ → Bool) (update : ρ → ρ) :
    (updateWhere t p update).map Prod.fst = t.map Prod.fst := by
  rw [updateWhere, List.map_map]
  refine List.map_congr_left fun e _ => ?_
  show (if p e.2 = true then (e.1, update e.2) else e).1 = e.1
  split_ifs <;> rfl

/-- Each primary key has one row. -/
def Keyed (t : Table κ ρ) : Prop := (t.map Prod.fst).Nodup

omit [DecidableEq κ] in
theorem keyed_nil : Keyed ([] : Table κ ρ) := List.nodup_nil

omit [DecidableEq κ] in
theorem Keyed.filter (h : Keyed t) (p : κ × ρ → Bool) : Keyed (t.filter p) :=
  h.sublist (List.filter_sublist.map Prod.fst)

theorem map_fst_upsert (t : Table κ ρ) (k : κ) (row : ρ) (update : ρ → ρ) :
    (upsert t k row update).map Prod.fst =
      if k ∈ t.map Prod.fst then t.map Prod.fst else t.map Prod.fst ++ [k] := by
  induction t with
  | nil => rfl
  | cons e t ih =>
    obtain ⟨l, old⟩ := e
    rw [upsert]
    by_cases hl : k = l
    · rw [if_pos hl, List.map_cons, List.map_cons, if_pos (by rw [hl]; exact List.mem_cons_self)]
    · rw [if_neg hl, List.map_cons, List.map_cons, ih]
      simp only [List.mem_cons, hl, false_or]
      split_ifs <;> rfl

theorem Keyed.upsert (h : Keyed t) (k : κ) (row : ρ) (update : ρ → ρ) :
    Keyed (upsert t k row update) := by
  rw [Keyed, map_fst_upsert]
  split_ifs with hk
  · exact h
  · rw [List.nodup_append]
    refine ⟨h, List.nodup_singleton k, ?_⟩
    intro a ha b hb
    rw [List.mem_singleton.mp hb]
    exact fun hab => hk (hab ▸ ha)

theorem Keyed.set (h : Keyed t) (k : κ) (row : ρ) : Keyed (set t k row) :=
  h.upsert k row _

theorem Keyed.erase (h : Keyed t) (k : κ) : Keyed (BTreeMap.erase t k) := by
  have hsub : ∀ t : Table κ ρ, List.Sublist (BTreeMap.erase t k) t := by
    intro t
    induction t with
    | nil => exact List.Sublist.slnil
    | cons e t ih =>
      obtain ⟨l, row⟩ := e
      rw [BTreeMap.erase]
      split_ifs
      · exact ih.cons _
      · exact ih.cons_cons _
  exact h.sublist ((hsub t).map Prod.fst)

theorem get_insertOrReplace (t : Table κ ρ) (k k' : κ) (row : ρ) :
    (insertOrReplace t k row).get k' = if k' = k then some row else t.get k' := by
  rw [insertOrReplace, BTreeMap.get_append, BTreeMap.get_erase, get_cons]
  by_cases hk : k' = k
  · rw [if_pos hk, if_pos hk, if_pos hk, Option.none_or]
  · rw [if_neg hk, if_neg hk, if_neg hk, BTreeMap.get_nil, Option.or_none]

theorem Keyed.insertOrReplace (h : Keyed t) (k : κ) (row : ρ) :
    Keyed (insertOrReplace t k row) := by
  have hk : k ∉ (BTreeMap.erase t k).map Prod.fst := by
    rw [← BTreeMap.get_eq_none_iff, BTreeMap.get_erase, if_pos rfl]
  rw [Keyed, Table.insertOrReplace, List.map_append, List.nodup_append]
  refine ⟨h.erase k, List.nodup_singleton k, ?_⟩
  intro a ha b hb hab
  rw [hab, List.mem_singleton.mp hb] at ha
  exact hk ha

/-- The rows with a primary key are one row, or none. -/
theorem Keyed.filter_key (h : Keyed t) (k : κ) :
    (t.filter fun e => e.1 = k) = ((t.get k).map fun row => (k, row)).toList := by
  induction t with
  | nil => rfl
  | cons e t ih =>
    obtain ⟨l, row⟩ := e
    obtain ⟨hl, ht⟩ := List.nodup_cons.mp h
    rw [get_cons, List.filter_cons, ih ht]
    by_cases hk : k = l
    · have hnone : BTreeMap.get t l = none := BTreeMap.get_eq_none_iff.mpr hl
      subst hk
      simp [hnone]
    · have hlk : ¬ l = k := fun h => hk h.symm
      simp [hk, hlk]

/-- What is left of a row when rows are removed by key and value. -/
theorem get_filter_entry (h : Keyed t) (p : κ × ρ → Bool) (k : κ) :
    BTreeMap.get (t.filter p) k = (t.get k).filter fun row => p (k, row) := by
  apply Option.ext
  intro row
  rw [BTreeMap.get_eq_some_iff (h.filter _), List.mem_filter, Option.filter_eq_some_iff,
    BTreeMap.get_eq_some_iff h]

/-- `DELETE .. WHERE NOT`. -/
theorem get_filter (h : Keyed t) (p : ρ → Bool) (k : κ) :
    BTreeMap.get (t.filter fun e => p e.2) k = (t.get k).filter p :=
  get_filter_entry h (fun e => p e.2) k

/-- Some rows with other values. -/
theorem get_filterMap {μ : Type*} (h : Keyed t) (f : ρ → Option μ) (k : κ) :
    BTreeMap.get (t.filterMap fun e => (f e.2).map fun v => (e.1, v)) k = (t.get k).bind f := by
  induction t with
  | nil => rfl
  | cons e t ih =>
    obtain ⟨l, row⟩ := e
    obtain ⟨hl, ht⟩ := List.nodup_cons.mp h
    have ht := ih ht
    rw [get_cons]
    by_cases hk : k = l
    · have hnone : BTreeMap.get t l = none := BTreeMap.get_eq_none_iff.mpr hl
      subst hk
      rw [hnone] at ht
      cases hf : f row <;> simp [hf, ht, get_cons]
    · cases hf : f row <;> simp [hf, ht, hk, get_cons]

end Table

end Tokn
