import Mathlib.Tactic

/-!
# Ordered maps as association lists

The ordered map of the Rust standard library, as the list of its entries in key order. `insert`
puts an entry where the order wants it and replaces the entry of an equal key, so a map built by
`insert` from the empty one has its keys in increasing order, each once. The equations for `get`
need no such invariant: the first entry of a key is the one that counts.
-/

namespace Tokn

/-- The entries of an ordered map. -/
abbrev BTreeMap (κ ν : Type*) := List (κ × ν)

namespace BTreeMap

variable {κ ν : Type*} [DecidableEq κ]

/-- `get`: the value of a key. -/
def get : BTreeMap κ ν → κ → Option ν
  | [], _ => none
  | (k', v) :: m, k => if k = k' then some v else get m k

/-- `contains_key`. -/
def contains (m : BTreeMap κ ν) (k : κ) : Bool := (get m k).isSome

/-- `remove`, as the map that is left. -/
def erase : BTreeMap κ ν → κ → BTreeMap κ ν
  | [], _ => []
  | (k', v) :: m, k => if k = k' then erase m k else (k', v) :: erase m k

@[simp] theorem get_nil (k : κ) : get ([] : BTreeMap κ ν) k = none := rfl

theorem get_cons (k' : κ) (v : ν) (m : BTreeMap κ ν) (k : κ) :
    get ((k', v) :: m) k = if k = k' then some v else get m k := rfl

theorem get_append (m m' : BTreeMap κ ν) (k : κ) :
    get (m ++ m') k = (get m k).or (get m' k) := by
  induction m with
  | nil => rfl
  | cons e m ih =>
    obtain ⟨k', v⟩ := e
    rw [List.cons_append, get_cons, get_cons, ih]
    split_ifs <;> rfl

variable {m : BTreeMap κ ν} {k : κ}

theorem mem_of_get {v : ν} (h : get m k = some v) : (k, v) ∈ m := by
  induction m with
  | nil => cases h
  | cons e m ih =>
    obtain ⟨k', v'⟩ := e
    rw [get_cons] at h
    split_ifs at h with hk
    · cases h; subst hk; exact List.mem_cons_self
    · exact List.mem_cons_of_mem _ (ih h)

theorem get_eq_none_iff : get m k = none ↔ k ∉ m.map Prod.fst := by
  induction m with
  | nil => simp
  | cons e m ih =>
    rw [get_cons, List.map_cons, List.mem_cons, not_or, ← ih]
    split_ifs with hk <;> simp [hk]

/-- Where each key has one entry, the entries are what `get` gives. -/
theorem get_eq_some_iff (h : (m.map Prod.fst).Nodup) {v : ν} : get m k = some v ↔ (k, v) ∈ m := by
  induction m with
  | nil => simp
  | cons e m ih =>
    rw [List.map_cons, List.nodup_cons] at h
    rw [get_cons, List.mem_cons]
    split_ifs with hk
    · have hnot : (k, v) ∉ m := fun hmem => h.1 (hk ▸ List.mem_map.mpr ⟨_, hmem, rfl⟩)
      rw [Option.some.injEq, or_iff_left hnot, Prod.ext_iff]
      exact ⟨fun hv => ⟨hk, hv.symm⟩, fun hv => hv.2.symm⟩
    · rw [ih h.2, or_iff_right]
      exact fun he => hk (congrArg Prod.fst he)

/-- `get` of a map with every value changed. -/
theorem get_map {μ : Type*} (f : κ → ν → μ) (m : BTreeMap κ ν) (k : κ) :
    get (m.map fun e => (e.1, f e.1 e.2)) k = (get m k).map (f k) := by
  induction m with
  | nil => rfl
  | cons e m ih =>
    rw [List.map_cons, get_cons, get_cons, ih]
    by_cases hk : k = e.1
    · rw [if_pos hk, if_pos hk, hk, Option.map_some]
    · rw [if_neg hk, if_neg hk]

theorem get_erase (m : BTreeMap κ ν) (k k' : κ) :
    get (erase m k) k' = if k' = k then none else get m k' := by
  induction m with
  | nil => simp [erase]
  | cons e m ih =>
    obtain ⟨l, v⟩ := e
    simp only [erase, get_cons]
    split_ifs with hl hk hk <;> grind [get_cons]

theorem get_filter (p : κ → Bool) (m : BTreeMap κ ν) (k : κ) :
    get (m.filter fun e => p e.1) k = if p k then get m k else none := by
  induction m with
  | nil => simp
  | cons e m ih =>
    rw [List.filter_cons]
    by_cases hk : k = e.1
    · subst hk
      split_ifs with hp
      · rw [get_cons, if_pos rfl, get_cons, if_pos rfl]
      · rw [ih, if_neg hp]
    · split_ifs with he hp hp
      · rw [get_cons, if_neg hk, ih, if_pos hp, get_cons, if_neg hk]
      · rw [get_cons, if_neg hk, ih, if_neg hp]
      · rw [ih, if_pos hp, get_cons, if_neg hk]
      · rw [ih, if_neg hp]

variable [LT κ] [DecidableLT κ]

/-- `insert`: before the first greater key, replacing the value of an equal one. -/
def insert : BTreeMap κ ν → κ → ν → BTreeMap κ ν
  | [], k, v => [(k, v)]
  | (k', v') :: m, k, v =>
    if k < k' then (k, v) :: (k', v') :: m
    else if k = k' then (k, v) :: m
    else (k', v') :: insert m k v

/-- `extend`: every entry of the second map inserted into the first. -/
def extend (m m' : BTreeMap κ ν) : BTreeMap κ ν := m'.foldl (fun m e => insert m e.1 e.2) m

/-- `entry(k).or_default()` followed by an update of the value. -/
def modify [Inhabited ν] (m : BTreeMap κ ν) (k : κ) (f : ν → ν) : BTreeMap κ ν :=
  insert m k (f ((get m k).getD default))

theorem get_insert (m : BTreeMap κ ν) (k k' : κ) (v : ν) :
    get (insert m k v) k' = if k' = k then some v else get m k' := by
  induction m with
  | nil => rfl
  | cons e m ih =>
    obtain ⟨l, w⟩ := e
    simp only [insert]
    split_ifs <;> grind [get_cons]

@[simp] theorem get_insert_self (m : BTreeMap κ ν) (k : κ) (v : ν) :
    get (insert m k v) k = some v := by simp [get_insert]

theorem get_insert_of_ne (m : BTreeMap κ ν) {k' : κ} (h : k' ≠ k) (v : ν) :
    get (insert m k v) k' = get m k' := by simp [get_insert, h]

theorem extend_concat (m m' : BTreeMap κ ν) (k : κ) (v : ν) :
    extend m (m' ++ [(k, v)]) = insert (extend m m') k v := by
  simp [extend]

/-- Extending looks in the second map first, from its end. -/
theorem get_extend (m m' : BTreeMap κ ν) (k : κ) :
    get (extend m m') k = (get m'.reverse k).or (get m k) := by
  induction m' using List.reverseRecOn with
  | nil => simp [extend]
  | append_singleton m' e ih =>
    rw [extend_concat, get_insert, ih, List.reverse_append, List.reverse_singleton,
      List.singleton_append, get_cons]
    split_ifs <;> rfl

/-- The keys of a map that was collected from entries. -/
theorem mem_keys_extend_nil (m : BTreeMap κ ν) (k : κ) :
    k ∈ (extend [] m).map Prod.fst ↔ k ∈ m.map Prod.fst := by
  have hkeys := not_congr (get_eq_none_iff (m := extend [] m) (k := k))
  rw [not_not] at hkeys
  rw [← hkeys, get_extend, get_nil, Option.or_none, get_eq_none_iff, not_not, List.map_reverse,
    List.mem_reverse]

/-- The entries of a map that was made by inserting. -/
theorem mem_insert {v : ν} {e : κ × ν} (h : e ∈ insert m k v) : e = (k, v) ∨ e ∈ m := by
  induction m with
  | nil => exact Or.inl (List.mem_singleton.mp h)
  | cons e' m ih =>
    obtain ⟨k', v'⟩ := e'
    rw [insert] at h
    split_ifs at h with hlt heq
    · exact List.mem_cons.mp h
    · cases List.mem_cons.mp h with
      | inl he => exact Or.inl he
      | inr hm => exact Or.inr (List.mem_cons_of_mem _ hm)
    · cases List.mem_cons.mp h with
      | inl he => exact Or.inr (he ▸ List.mem_cons_self)
      | inr hm => exact (ih hm).imp_right (List.mem_cons_of_mem _)

/-- The keys increase. -/
def Sorted (m : BTreeMap κ ν) : Prop := (m.map Prod.fst).Pairwise (· < ·)

omit [DecidableEq κ] [DecidableLT κ] in
theorem sorted_nil : Sorted ([] : BTreeMap κ ν) := List.Pairwise.nil

theorem Sorted.insert [IsStrictTotalOrder κ (· < ·)] (h : Sorted m) (k : κ) (v : ν) :
    Sorted (insert m k v) := by
  induction m with
  | nil => exact List.pairwise_singleton _ _
  | cons e m ih =>
    obtain ⟨k', v'⟩ := e
    obtain ⟨hfirst, hrest⟩ := List.pairwise_cons.mp h
    rw [BTreeMap.insert]
    split_ifs with hlt heq
    · refine List.pairwise_cons.mpr ⟨?_, h⟩
      intro l hl
      cases List.mem_cons.mp hl with
      | inl he => exact he ▸ hlt
      | inr hm => exact trans_of (· < ·) hlt (hfirst l hm)
    · exact List.pairwise_cons.mpr ⟨heq ▸ hfirst, hrest⟩
    · have hgt : k' < k := by
        rcases trichotomous_of (· < ·) k k' with hk | hk | hk
        · exact absurd hk hlt
        · exact absurd hk heq
        · exact hk
      refine List.pairwise_cons.mpr ⟨?_, ih hrest⟩
      intro l hl
      obtain ⟨e, he, rfl⟩ := List.mem_map.mp hl
      cases mem_insert he with
      | inl hnew => rw [hnew]; exact hgt
      | inr hm => exact hfirst _ (List.mem_map_of_mem hm)

omit [DecidableEq κ] [DecidableLT κ] in
theorem Sorted.nodup [IsStrictTotalOrder κ (· < ·)] (h : Sorted m) : (m.map Prod.fst).Nodup :=
  List.Pairwise.imp (fun hlt => ne_of_irrefl hlt) h

theorem insert_of_forall_lt [IsStrictTotalOrder κ (· < ·)] (h : ∀ e ∈ m, e.1 < k) (v : ν) :
    BTreeMap.insert m k v = m ++ [(k, v)] := by
  induction m with
  | nil => rfl
  | cons e m ih =>
    obtain ⟨k', v'⟩ := e
    have hlt : k' < k := h (k', v') List.mem_cons_self
    rw [BTreeMap.insert, if_neg (asymm_of (· < ·) hlt), if_neg (ne_of_irrefl' hlt),
      ih fun e he => h e (List.mem_cons_of_mem _ he), List.cons_append]

/-- Collecting the entries of a map in their order gives the map. -/
theorem extend_nil_of_sorted [IsStrictTotalOrder κ (· < ·)] (h : Sorted m) : extend [] m = m := by
  induction m using List.reverseRecOn with
  | nil => rfl
  | append_singleton m e ih =>
    rw [Sorted, List.map_append, List.pairwise_append] at h
    obtain ⟨hm, -, hlast⟩ := h
    rw [extend_concat, ih hm]
    refine insert_of_forall_lt ?_ e.2
    intro e' he'
    exact hlast e'.1 (List.mem_map_of_mem he') e.1 (List.mem_singleton_self e.1)

theorem Sorted.extend [IsStrictTotalOrder κ (· < ·)] (h : Sorted m) (m' : BTreeMap κ ν) :
    Sorted (BTreeMap.extend m m') := by
  induction m' using List.reverseRecOn with
  | nil => exact h
  | append_singleton m' e ih =>
    rw [extend_concat]
    exact ih.insert e.1 e.2

/-- Extending by a map looks in that map first. -/
theorem get_extend_of_sorted [IsStrictTotalOrder κ (· < ·)] (m : BTreeMap κ ν) {m' : BTreeMap κ ν}
    (h : Sorted m') (k : κ) : get (BTreeMap.extend m m') k = (get m' k).or (get m k) := by
  have hnodup := h.nodup
  have hreverse : (m'.reverse.map Prod.fst).Nodup := by
    rw [List.map_reverse]
    exact List.nodup_reverse.mpr hnodup
  have hget : get m'.reverse k = get m' k := by
    refine Option.ext fun v => ?_
    rw [get_eq_some_iff hreverse, get_eq_some_iff hnodup, List.mem_reverse]
  rw [get_extend, hget]

omit [DecidableEq κ] [DecidableLT κ] in
/-- Some entries of a map, each with its key. -/
theorem Sorted.filterMap {μ : Type*} (h : Sorted m) {f : κ × ν → Option (κ × μ)}
    (hf : ∀ e e', f e = some e' → e'.1 = e.1) : Sorted (List.filterMap f m) := by
  refine List.Pairwise.sublist ?_ h
  induction m with
  | nil => exact List.Sublist.slnil
  | cons e m ih =>
    rw [List.map_cons, List.filterMap_cons]
    cases hfe : f e with
    | none => exact (ih (List.pairwise_cons.mp h).2).cons _
    | some e' =>
      dsimp only
      rw [List.map_cons, hf e e' hfe]
      exact (ih (List.pairwise_cons.mp h).2).cons_cons _

omit [DecidableLT κ] in
/-- A map is determined by the values of its keys. -/
theorem Sorted.ext [IsStrictTotalOrder κ (· < ·)] {m' : BTreeMap κ ν} (h : Sorted m)
    (h' : Sorted m') (hget : ∀ k, get m k = get m' k) : m = m' := by
  have hmem : ∀ e, e ∈ m ↔ e ∈ m' := by
    rintro ⟨k, v⟩
    rw [← get_eq_some_iff h.nodup, ← get_eq_some_iff h'.nodup, hget]
  have hperm : m.Perm m' :=
    (List.perm_ext_iff_of_nodup h.nodup.of_map h'.nodup.of_map).mpr hmem
  have hasymm : ∀ e e' : κ × ν, e ∈ m → e' ∈ m' → e.1 < e'.1 → e'.1 < e.1 → e = e' :=
    fun e e' _ _ hlt hgt => absurd hgt (asymm_of (· < ·) hlt)
  exact List.Perm.eq_of_pairwise hasymm (List.pairwise_map.mp h) (List.pairwise_map.mp h') hperm

omit [LT κ] [DecidableLT κ] in
/-- Removing a key that is not there changes nothing. -/
theorem erase_eq_self_iff : erase m k = m ↔ get m k = none := by
  constructor
  · intro h
    rw [← h, get_erase, if_pos rfl]
  · intro h
    induction m with
    | nil => rfl
    | cons e m ih =>
      obtain ⟨k', v⟩ := e
      rw [get_cons] at h
      split_ifs at h with hk
      rw [erase, if_neg hk, ih h]

/-- Inserting the entry that is there changes nothing. -/
theorem Sorted.insert_eq_self_iff [IsStrictTotalOrder κ (· < ·)] (h : Sorted m) {v : ν} :
    BTreeMap.insert m k v = m ↔ get m k = some v := by
  constructor
  · intro hinsert
    rw [← hinsert, get_insert_self]
  · intro hget
    refine (h.insert k v).ext h fun k' => ?_
    rw [get_insert]
    split_ifs with hk
    · rw [hk, hget]
    · rfl

theorem get_modify [Inhabited ν] (m : BTreeMap κ ν) (k k' : κ) (f : ν → ν) :
    get (modify m k f) k' = if k' = k then some (f ((get m k).getD default)) else get m k' :=
  get_insert m k k' _

end BTreeMap

end Tokn
