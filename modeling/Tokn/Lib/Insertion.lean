import Tokn.Lib.BTreeMap
import Tokn.Lib.Except

/-!
# Entries, one by one

A map that is filled entry by entry, and fails at a key that it has already: all the entries fit exactly
if their keys differ, and then the map has what they say, in whatever order they came. And a list of
entries from several sources, of which the first one with a key is kept.
-/

namespace Tokn.BTreeMap

universe u

variable {κ ν : Type u} {ε : Type*} [DecidableEq κ] [LT κ] [DecidableLT κ]

/-- One more entry, if its key is free. -/
def insertNew (conflict : κ → ν → ν → ε) (m : BTreeMap κ ν) (e : κ × ν) :
    Except ε (BTreeMap κ ν) :=
  match m.get e.1 with
  | some first => .error (conflict e.1 first e.2)
  | none => .ok (m.insert e.1 e.2)

variable {conflict : κ → ν → ν → ε} {es : List (κ × ν)}

/-- The entries fit if their keys differ. -/
theorem foldlM_insertNew {m : BTreeMap κ ν} :
    es.foldlM (insertNew conflict) [] = .ok m ↔ (es.map Prod.fst).Nodup ∧ m = extend [] es := by
  induction es using List.reverseRecOn generalizing m with
  | nil =>
    constructor
    · intro h
      exact ⟨List.nodup_nil, (Except.ok.inj h).symm⟩
    · rintro ⟨-, rfl⟩
      rfl
  | append_singleton es e ih =>
    have hkey : (extend [] es).get e.1 = none ↔ e.1 ∉ es.map Prod.fst := by
      rw [get_eq_none_iff, mem_keys_extend_nil]
    rw [Except.foldlM_concat, extend_concat, List.map_append, List.map_singleton,
      ← List.concat_eq_append, List.nodup_concat, ← hkey]
    constructor
    · rintro ⟨m', hm', hstep⟩
      obtain ⟨hnodup, rfl⟩ := ih.mp hm'
      rw [insertNew] at hstep
      cases hget : (extend [] es).get e.1 with
      | some first =>
        rw [hget] at hstep
        cases hstep
      | none =>
        rw [hget] at hstep
        exact ⟨⟨rfl, hnodup⟩, (Except.ok.inj hstep).symm⟩
    · rintro ⟨⟨hget, hnodup⟩, rfl⟩
      refine ⟨extend [] es, ih.mpr ⟨hnodup, rfl⟩, ?_⟩
      rw [insertNew, hget]

/-- Entries whose keys differ are what is then found. -/
theorem get_extend_nil_eq_some (h : (es.map Prod.fst).Nodup) {k : κ} {v : ν} :
    (extend [] es).get k = some v ↔ (k, v) ∈ es := by
  have hreverse : (es.reverse.map Prod.fst).Nodup := by
    rw [List.map_reverse]
    exact List.nodup_reverse.mpr h
  rw [get_extend, get_nil, Option.or_none, get_eq_some_iff hreverse, List.mem_reverse]

omit [DecidableEq κ] [LT κ] [DecidableLT κ] in
/-- A fold over the entries of several owners, owner by owner. -/
theorem foldlM_flatMap {ι : Type*} {α β : Type u} (entries : ι → List α) (f : β → α → Except ε β)
    (is : List ι) (b : β) :
    (is.flatMap entries).foldlM f b = is.foldlM (fun b i => (entries i).foldlM f b) b := by
  induction is generalizing b with
  | nil => rfl
  | cons i is ih =>
    rw [List.flatMap_cons, List.foldlM_append, List.foldlM_cons]
    refine bind_congr fun b' => ?_
    exact ih b'

end Tokn.BTreeMap

/-! ## The first entry of each key -/

namespace Tokn

universe u v

variable {κ : Type u} {ν : Type v} [DecidableEq κ]

/-- Keep an entry if its key is new. -/
def keepFirst (kept : List (κ × ν)) (entry : κ × ν) : List (κ × ν) :=
  if entry.1 ∈ kept.map Prod.fst then kept else kept ++ [entry]

/-- What is kept of the entries of a list. -/
def firstEntries (entries : List (κ × ν)) : List (κ × ν) := entries.foldl keepFirst []

theorem firstEntries_concat (entries : List (κ × ν)) (entry : κ × ν) :
    firstEntries (entries ++ [entry]) = keepFirst (firstEntries entries) entry := by
  rw [firstEntries, List.foldl_concat, firstEntries]

variable {entries : List (κ × ν)}

/-- **An entry is kept if it is the first one with its key.** -/
theorem mem_firstEntries {entry : κ × ν} :
    entry ∈ firstEntries entries ↔ BTreeMap.get entries entry.1 = some entry.2 := by
  induction entries using List.reverseRecOn generalizing entry with
  | nil => simp [firstEntries]
  | append_singleton entries last ih =>
    have hkeys : last.1 ∈ (firstEntries entries).map Prod.fst ↔
        (BTreeMap.get entries last.1).isSome = true := by
      rw [List.mem_map, Option.isSome_iff_exists]
      constructor
      · rintro ⟨e, he, hkey⟩
        exact ⟨e.2, hkey ▸ ih.mp he⟩
      · rintro ⟨v, hv⟩
        exact ⟨(last.1, v), ih.mpr hv, rfl⟩
    obtain ⟨k, v⟩ := entry
    obtain ⟨k', v'⟩ := last
    rw [firstEntries_concat, keepFirst, BTreeMap.get_append]
    dsimp only at hkeys ⊢
    by_cases hlast : k' ∈ (firstEntries entries).map Prod.fst
    · rw [if_pos hlast, ih]
      obtain ⟨w, hw⟩ := Option.isSome_iff_exists.mp (hkeys.mp hlast)
      by_cases hk : k = k'
      · simp [hk, hw]
      · simp [BTreeMap.get_cons, hk]
    · rw [if_neg hlast, List.mem_append, ih, List.mem_singleton]
      rw [hkeys, Option.not_isSome_iff_eq_none] at hlast
      by_cases hk : k = k'
      · simp [hk, hlast, BTreeMap.get_cons, eq_comm]
      · simp [BTreeMap.get_cons, hk]

theorem nodup_firstEntries (entries : List (κ × ν)) :
    ((firstEntries entries).map Prod.fst).Nodup := by
  induction entries using List.reverseRecOn with
  | nil => exact List.nodup_nil
  | append_singleton entries last ih =>
    rw [firstEntries_concat, keepFirst]
    by_cases hlast : last.1 ∈ (firstEntries entries).map Prod.fst
    · rw [if_pos hlast]
      exact ih
    · rw [if_neg hlast, List.map_append, List.map_singleton, List.nodup_append]
      refine ⟨ih, List.nodup_singleton _, fun key hkey other hother hsame => ?_⟩
      rw [List.mem_singleton] at hother
      rw [hsame, hother] at hkey
      exact hlast hkey

theorem mem_keys_firstEntries {key : κ} :
    key ∈ (firstEntries entries).map Prod.fst ↔ key ∈ entries.map Prod.fst := by
  constructor
  · intro h
    obtain ⟨entry, hentry, rfl⟩ := List.mem_map.mp h
    exact List.mem_map_of_mem (BTreeMap.mem_of_get (mem_firstEntries.mp hentry))
  · intro h
    have hget : BTreeMap.get entries key ≠ none := mt BTreeMap.get_eq_none_iff.mp (not_not_intro h)
    obtain ⟨v, hv⟩ := Option.ne_none_iff_exists'.mp hget
    exact List.mem_map.mpr ⟨(key, v), mem_firstEntries.mpr hv, rfl⟩

/-- Entries of new keys are kept on their own. -/
theorem firstEntries_append {more : List (κ × ν)}
    (h : ∀ key ∈ more.map Prod.fst, key ∉ entries.map Prod.fst) :
    firstEntries (entries ++ more) = firstEntries entries ++ firstEntries more := by
  induction more using List.reverseRecOn with
  | nil => rw [List.append_nil, firstEntries, firstEntries, List.foldl_nil, List.append_nil]
  | append_singleton more last ih =>
    have hmore : ∀ key ∈ more.map Prod.fst, key ∉ entries.map Prod.fst := fun key hkey =>
      h key (by rw [List.map_append]; exact List.mem_append_left _ hkey)
    have hlast : last.1 ∉ (firstEntries entries).map Prod.fst := by
      rw [mem_keys_firstEntries]
      exact h last.1 (by simp)
    rw [← List.append_assoc, firstEntries_concat, firstEntries_concat, ih hmore, keepFirst, keepFirst,
      List.map_append]
    by_cases hmem : last.1 ∈ (firstEntries more).map Prod.fst
    · rw [if_pos (List.mem_append_right _ hmem), if_pos hmem]
    · rw [if_neg (fun h => (List.mem_append.mp h).elim hlast hmem), if_neg hmem, List.append_assoc]

/-- Of entries of one key the first is kept. -/
theorem firstEntries_of_key {entry : κ × ν} (h : ∀ e ∈ entries, e.1 = entry.1) :
    firstEntries (entry :: entries) = [entry] := by
  induction entries using List.reverseRecOn with
  | nil => rfl
  | append_singleton entries last ih =>
    have hlast := h last (by simp)
    rw [← List.cons_append, firstEntries_concat, ih fun e he => h e (List.mem_append_left _ he),
      keepFirst, if_pos (by simp [hlast])]

end Tokn
