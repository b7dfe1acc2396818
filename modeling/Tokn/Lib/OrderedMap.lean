import Tokn.Lib.BTreeMap

/-!
# Ordered maps

A map together with the order of its keys. Two ordered maps with the same values are equal
(`OrderedMap.ext`), which the lists of `BTreeMap` alone are not.
-/

namespace Tokn

/-- A map whose entries are in the order of their keys. -/
structure OrderedMap (κ ν : Type*) [LT κ] where
  entries : BTreeMap κ ν
  sorted : BTreeMap.Sorted entries

namespace OrderedMap

variable {κ ν : Type*} [DecidableEq κ] [LT κ] [DecidableLT κ] [IsStrictTotalOrder κ (· < ·)]

def empty : OrderedMap κ ν := ⟨[], BTreeMap.sorted_nil⟩

def get (m : OrderedMap κ ν) (k : κ) : Option ν := m.entries.get k

def insert (m : OrderedMap κ ν) (k : κ) (v : ν) : OrderedMap κ ν :=
  ⟨m.entries.insert k v, m.sorted.insert k v⟩

omit [DecidableLT κ] [IsStrictTotalOrder κ (· < ·)] in
theorem sorted_erase {m : BTreeMap κ ν} (h : BTreeMap.Sorted m) (k : κ) :
    BTreeMap.Sorted (m.erase k) := by
  refine List.Pairwise.sublist ?_ h
  induction m with
  | nil => exact List.Sublist.slnil
  | cons e m ih =>
    obtain ⟨l, v⟩ := e
    have htail := ih (List.pairwise_cons.mp h).2
    rw [BTreeMap.erase]
    by_cases hl : k = l
    · rw [if_pos hl]
      exact htail.cons l
    · rw [if_neg hl]
      exact htail.cons_cons l

def erase (m : OrderedMap κ ν) (k : κ) : OrderedMap κ ν :=
  ⟨m.entries.erase k, sorted_erase m.sorted k⟩

omit [DecidableLT κ] [IsStrictTotalOrder κ (· < ·)] in
@[simp] theorem get_empty (k : κ) : (empty : OrderedMap κ ν).get k = none := rfl

theorem get_insert (m : OrderedMap κ ν) (k k' : κ) (v : ν) :
    (m.insert k v).get k' = if k' = k then some v else m.get k' := BTreeMap.get_insert ..

omit [DecidableLT κ] [IsStrictTotalOrder κ (· < ·)] in
theorem get_erase (m : OrderedMap κ ν) (k k' : κ) :
    (m.erase k).get k' = if k' = k then none else m.get k' := BTreeMap.get_erase ..

omit [DecidableLT κ] in
@[ext] theorem ext {m m' : OrderedMap κ ν} (h : ∀ k, m.get k = m'.get k) : m = m' := by
  obtain ⟨entries, sorted⟩ := m
  obtain ⟨entries', sorted'⟩ := m'
  have hentries : entries = entries' := sorted.ext sorted' h
  subst hentries
  rfl

omit [DecidableLT κ] in
theorem mem_entries {m : OrderedMap κ ν} {k : κ} {v : ν} :
    (k, v) ∈ m.entries ↔ m.get k = some v := (BTreeMap.get_eq_some_iff m.sorted.nodup).symm

omit [DecidableLT κ] in
/-- **The last key** of those whose entries satisfy `p`. -/
theorem find?_reverse_eq_some_iff {m : OrderedMap κ ν} {p : κ × ν → Bool} {k : κ} {v : ν} :
    m.entries.reverse.find? p = some (k, v) ↔ m.get k = some v ∧ p (k, v) = true ∧
      ∀ k' v', m.get k' = some v' → p (k', v') = true → k' ≠ k → k' < k := by
  rw [List.find?_eq_some_iff_append]
  constructor
  · rintro ⟨hp, before, after, hsplit, hbefore⟩
    have hentries : m.entries = after.reverse ++ (k, v) :: before.reverse := by
      rw [← List.reverse_reverse m.entries, hsplit]
      simp
    refine ⟨mem_entries.mp (by rw [hentries]; simp), hp, fun k' v' hget hp' hne => ?_⟩
    have hmem := mem_entries.mpr hget
    rw [hentries, List.mem_append, List.mem_cons] at hmem
    have hsorted := m.sorted
    rw [BTreeMap.Sorted, hentries, List.map_append, List.map_cons, List.pairwise_append] at hsorted
    rcases hmem with hmem | heq | hmem
    · exact hsorted.2.2 k' (List.mem_map_of_mem (f := Prod.fst) hmem) k List.mem_cons_self
    · exact absurd (congrArg Prod.fst heq) hne
    · have hnot := hbefore (k', v') (List.mem_reverse.mp hmem)
      rw [hp'] at hnot
      cases hnot
  · rintro ⟨hget, hp, hlast⟩
    obtain ⟨before, after, hsplit⟩ := List.append_of_mem (mem_entries.mpr hget)
    refine ⟨hp, after.reverse, before.reverse, by rw [hsplit]; simp, fun e he => ?_⟩
    have hsorted := m.sorted
    rw [BTreeMap.Sorted, hsplit, List.map_append, List.map_cons, List.pairwise_append,
      List.pairwise_cons] at hsorted
    have hlt := hsorted.2.1.1 e.1 (List.mem_map_of_mem (f := Prod.fst) (List.mem_reverse.mp he))
    by_contra hpe
    have hget' : m.get e.1 = some e.2 := mem_entries.mp (by
      rw [hsplit]
      exact List.mem_append_right _ (List.mem_cons_of_mem _ (List.mem_reverse.mp he)))
    have hgt := hlast e.1 e.2 hget' (by simpa using hpe) fun heq => irrefl k (heq ▸ hlt)
    exact asymm hlt hgt

omit [DecidableEq κ] [DecidableLT κ] in
theorem keyed (m : OrderedMap κ ν) : (m.entries.map Prod.fst).Nodup := m.sorted.nodup

omit [DecidableEq κ] [DecidableLT κ] [IsStrictTotalOrder κ (· < ·)] in
theorem sorted_map {m : BTreeMap κ ν} (h : BTreeMap.Sorted m) (f : κ → ν → ν) :
    BTreeMap.Sorted (m.map fun e => (e.1, f e.1 e.2)) := by
  rw [BTreeMap.Sorted, List.map_map]
  exact h

/-- The map with every value changed. -/
def mapWithKey (f : κ → ν → ν) (m : OrderedMap κ ν) : OrderedMap κ ν :=
  ⟨m.entries.map fun e => (e.1, f e.1 e.2), sorted_map m.sorted f⟩

omit [DecidableLT κ] [IsStrictTotalOrder κ (· < ·)] in
@[simp] theorem get_mapWithKey (f : κ → ν → ν) (m : OrderedMap κ ν) (k : κ) :
    (m.mapWithKey f).get k = (m.get k).map (f k) :=
  BTreeMap.get_map f m.entries k

end OrderedMap

end Tokn
