import Tokn.Lib.Ascii
import Tokn.Lib.JsonRoundTrip
import Tokn.Lib.Multimap

/-!
# Header maps that keep order and case

`HeaderMap` is a vector of names and values. A name keeps the spelling it was given, and names are
compared in lower case.

**Theorem (`multimap_run`).** Any sequence of changes is the same sequence on a multimap of the
names in lower case.
-/

namespace Tokn.Headers

/-! ## Names -/

def toAsciiLowercase (s : String) : String := String.ofList (Ascii.lower s.toList)

/-- `as_lower` of a text, which is kept if no byte is upper case. -/
def asLower (s : String) : String :=
  if s.toList.all fun c => !c.isUpper then s else toAsciiLowercase s

theorem toLower_of_not_isUpper {c : Char} (h : c.isUpper = false) : c.toLower = c :=
  dif_neg (of_decide_eq_false h)

@[simp] theorem asLower_eq (s : String) : asLower s = toAsciiLowercase s := by
  rw [asLower]
  split_ifs with h
  · have hlower : Ascii.lower s.toList = s.toList := by
      refine (List.map_congr_left fun c hc => ?_).trans (List.map_id _)
      exact toLower_of_not_isUpper (by simpa using List.all_eq_true.mp h c hc)
    rw [toAsciiLowercase, hlower, String.ofList_toList]
  · rfl

/-- A name as it is spelled, and in lower case. -/
structure HeaderName where
  original : String
  lower : String
  lower_eq : lower = toAsciiLowercase original
  deriving DecidableEq

namespace HeaderName

def new (name : String) : HeaderName where
  original := name
  lower := if name.toList.all fun c => !c.isUpper then name else toAsciiLowercase name
  lower_eq := asLower_eq name

/-- Names are compared in lower case. -/
instance : BEq HeaderName := ⟨fun a b => a.lower == b.lower⟩

theorem beq_iff {a b : HeaderName} : (a == b) = true ↔ a.lower = b.lower :=
  beq_iff_eq (a := a.lower) (b := b.lower)

theorem ext_original {a b : HeaderName} (h : a.original = b.original) : a = b := by
  obtain ⟨original, lower, hlower⟩ := a
  obtain ⟨original', lower', hlower'⟩ := b
  cases h
  cases hlower
  cases hlower'
  rfl

@[simp] theorem lower_lower (name : HeaderName) : toAsciiLowercase name.lower = name.lower := by
  rw [name.lower_eq, toAsciiLowercase, toAsciiLowercase, String.toList_ofList, Ascii.lower_lower]

@[simp] theorem new_original (name : HeaderName) : new name.original = name := ext_original rfl

end HeaderName

/-! ## Maps -/

/-- The names and values, in the order they were added. -/
structure HeaderMap where
  entries : List (HeaderName × String)
  deriving DecidableEq

namespace HeaderMap

def new : HeaderMap := ⟨[]⟩

def append (m : HeaderMap) (name : HeaderName) (value : String) : HeaderMap :=
  ⟨m.entries ++ [(name, value)]⟩

/-- The loop of `insert`, which goes over the entries in place. -/
def insertLoop (name : HeaderName) (value : String) (first : Option Nat) (i : Nat)
    (entries : List (HeaderName × String)) : Option Nat × List (HeaderName × String) :=
  if h : i < entries.length then
    if entries[i].1 == name then
      if first.isNone then
        insertLoop name value (some i) (i + 1) (entries.set i (entries[i].1, value))
      else insertLoop name value first i (entries.eraseIdx i)
    else insertLoop name value first (i + 1) entries
  else (first, entries)
termination_by entries.length - i
decreasing_by
  · rw [List.length_set]
    omega
  · rw [List.length_eraseIdx_of_lt h]
    omega
  · omega

def insert (m : HeaderMap) (name : HeaderName) (value : String) : HeaderMap :=
  let r := insertLoop name value none 0 m.entries
  if r.1.isNone then ⟨r.2 ++ [(name, value)]⟩ else ⟨r.2⟩

/-- What is left, and the number of entries that are removed. -/
def remove (m : HeaderMap) (name : String) : HeaderMap × Nat :=
  let entries := m.entries.filter fun e => e.1.lower ≠ asLower name
  (⟨entries⟩, m.entries.length - entries.length)

def get (m : HeaderMap) (name : String) : Option String :=
  (m.entries.find? fun e => e.1.lower = asLower name).map Prod.snd

def getAll (m : HeaderMap) (name : String) : List String :=
  (m.entries.filter fun e => e.1.lower = asLower name).map Prod.snd

def containsKey (m : HeaderMap) (name : String) : Bool :=
  m.entries.any fun e => e.1.lower = asLower name

def extend (m other : HeaderMap) : HeaderMap := ⟨m.entries ++ other.entries⟩

def mergeReplacing (m other : HeaderMap) : HeaderMap :=
  let entries := other.entries.foldl
    (fun entries e => entries.filter fun o => !(o.1 == e.1)) m.entries
  ⟨entries ++ other.entries⟩

/-- A call that changes a map. -/
inductive Change where
  | insert (name : HeaderName) (value : String)
  | append (name : HeaderName) (value : String)
  | remove (name : String)
  | extend (other : HeaderMap)
  | mergeReplacing (other : HeaderMap)

def apply (m : HeaderMap) : Change → HeaderMap
  | .insert name value => m.insert name value
  | .append name value => m.append name value
  | .remove name => (m.remove name).1
  | .extend other => m.extend other
  | .mergeReplacing other => m.mergeReplacing other

def run (m : HeaderMap) (changes : List Change) : HeaderMap := changes.foldl apply m

/-! ## The multimap of a map -/

/-- The entry of a multimap that an entry stands for. -/
def toEntry (e : HeaderName × String) : Entry String String String :=
  ⟨e.1.lower, e.1.original, e.2⟩

def multimap (m : HeaderMap) : Multimap String String String := m.entries.map toEntry

def Change.multimap : Change → Multimap.Change String String String
  | .insert name value => .insert (toEntry (name, value))
  | .append name value => .append (toEntry (name, value))
  | .remove name => .remove (toAsciiLowercase name)
  | .extend other => .extend other.multimap
  | .mergeReplacing other => .mergeReplacing other.multimap

theorem filter_map_toEntry (entries : List (HeaderName × String)) (p : String → Bool) :
    (entries.map toEntry).filter (fun e => p e.key) =
      (entries.filter fun e => p e.1.lower).map toEntry := List.filter_map

/-! ### Lookups -/

variable (m : HeaderMap)

theorem entriesOf_multimap (k : String) :
    m.multimap.entriesOf k = (m.entries.filter fun e => e.1.lower = k).map toEntry :=
  filter_map_toEntry m.entries fun l => l = k

theorem getAll_eq (name : String) : m.getAll name = m.multimap.getAll (toAsciiLowercase name) := by
  rw [getAll, Multimap.getAll, entriesOf_multimap, List.map_map, asLower_eq]
  rfl

theorem get_eq (name : String) : m.get name = (m.getAll name).head? := by
  rw [get, getAll, List.head?_map, List.head?_filter]

theorem containsKey_eq (name : String) : m.containsKey name = (m.get name).isSome := by
  rw [containsKey, get, Option.isSome_map, List.isSome_find?]

theorem remove_snd (name : String) : (m.remove name).2 = (m.getAll name).length := by
  have hsum := List.length_eq_length_filter_add
    (l := m.entries) fun e => decide (e.1.lower = asLower name)
  simp only [remove, getAll, List.length_map, ne_eq, decide_not]
  omega

/-! ### Changes -/

theorem multimap_append (name : HeaderName) (value : String) :
    (m.append name value).multimap = m.multimap ++ [toEntry (name, value)] := List.map_append ..

theorem multimap_extend (m other : HeaderMap) :
    (m.extend other).multimap = m.multimap ++ other.multimap := List.map_append ..

theorem multimap_remove (name : String) :
    (m.remove name).1.multimap = m.multimap.remove (toAsciiLowercase name) := by
  rw [← asLower_eq]
  exact (filter_map_toEntry m.entries fun l => l ≠ asLower name).symm

theorem foldl_filter_beq (others entries : List (HeaderName × String)) :
    others.foldl (fun entries e => entries.filter fun o => !(o.1 == e.1)) entries =
      entries.filter fun o => o.1.lower ∉ others.map fun e => e.1.lower := by
  induction others generalizing entries with
  | nil => simp
  | cons e others ih =>
    rw [List.foldl_cons, ih, List.filter_filter]
    refine List.filter_congr fun o _ => ?_
    rw [Bool.eq_iff_iff, List.map_cons, Bool.and_eq_true, decide_eq_true_eq, decide_eq_true_eq,
      List.mem_cons, not_or, Bool.not_eq_true', Bool.eq_false_iff, ne_eq, HeaderName.beq_iff]
    exact And.comm

theorem multimap_mergeReplacing (m other : HeaderMap) :
    (m.mergeReplacing other).multimap = m.multimap.mergeReplacing other.multimap := by
  have hkeys : other.multimap.map Entry.key = other.entries.map fun e => e.1.lower := by
    rw [multimap, List.map_map]
    rfl
  have hfilter := filter_map_toEntry m.entries fun l => l ∉ other.entries.map fun e => e.1.lower
  rw [mergeReplacing, foldl_filter_beq, multimap, List.map_append, ← hfilter,
    Multimap.mergeReplacing, hkeys]
  rfl

/-- The loop goes past entries of other names. -/
theorem insertLoop_append {name : HeaderName} {value : String} {first : Option Nat}
    {before : List (HeaderName × String)} (h : ∀ e ∈ before, (e.1 == name) = false)
    (done todo : List (HeaderName × String)) :
    insertLoop name value first done.length (done ++ (before ++ todo)) =
      insertLoop name value first (done ++ before).length ((done ++ before) ++ todo) := by
  induction before generalizing done with
  | nil => rw [List.append_nil, List.nil_append]
  | cons e before ih =>
    obtain ⟨he, hbefore⟩ := List.forall_mem_cons.mp h
    have hnext := ih hbefore (done ++ [e])
    rw [List.length_append, List.length_singleton, List.append_assoc, List.append_assoc,
      List.singleton_append, List.singleton_append] at hnext
    rw [List.cons_append, insertLoop, dif_pos (by simp), List.getElem_of_append rfl rfl,
      if_neg (by simp [he])]
    exact hnext

/-- The loop after the first match removes every match. -/
theorem insertLoop_some (name : HeaderName) (value : String) (n : Nat)
    (done todo : List (HeaderName × String)) :
    insertLoop name value (some n) done.length (done ++ todo) =
      (some n, done ++ todo.filter fun e => !(e.1 == name)) := by
  induction todo generalizing done with
  | nil => rw [insertLoop, dif_neg (by simp), List.filter_nil]
  | cons e todo ih =>
    cases he : e.1 == name with
    | true =>
      rw [insertLoop, dif_pos (by simp), List.getElem_of_append rfl rfl, if_pos he, if_neg (by simp),
        List.filter_cons_of_neg (by simp [he]), List.eraseIdx_append_of_length_le le_rfl,
        Nat.sub_self, List.eraseIdx_cons_zero]
      exact ih done
    | false =>
      have hbefore : ∀ o ∈ [e], (o.1 == name) = false := by simpa using he
      have hskip : insertLoop name value (some n) done.length (done ++ ([e] ++ todo)) = _ :=
        insertLoop_append hbefore done todo
      rw [List.singleton_append] at hskip
      rw [hskip, ih, List.filter_cons_of_pos (by simp [he]), List.append_assoc,
        List.singleton_append]

theorem insert_of_forall_ne {m : HeaderMap} {name : HeaderName} (value : String)
    (h : ∀ e ∈ m.entries, (e.1 == name) = false) : m.insert name value = m.append name value := by
  have hloop : insertLoop name value none _ ([] ++ (m.entries ++ [])) = _ :=
    insertLoop_append h [] []
  rw [List.nil_append, List.append_nil, List.nil_append, List.append_nil, List.length_nil] at hloop
  have hend : insertLoop name value none m.entries.length m.entries = (none, m.entries) := by
    rw [insertLoop, dif_neg (lt_irrefl _)]
  rw [insert, hloop, hend]
  rfl

theorem insert_append_cons {before after : List (HeaderName × String)} {name : HeaderName}
    {first : HeaderName × String} (value : String) (h : ∀ e ∈ before, (e.1 == name) = false)
    (hfirst : (first.1 == name) = true) :
    (insert ⟨before ++ first :: after⟩ name value).entries =
      before ++ (first.1, value) :: after.filter fun e => !(e.1 == name) := by
  have hloop : insertLoop name value none _ ([] ++ (before ++ first :: after)) = _ :=
    insertLoop_append h [] (first :: after)
  have hset : (before ++ first :: after).set before.length (first.1, value) =
      (before ++ [(first.1, value)]) ++ after := by simp
  have hlen : before.length + 1 = (before ++ [(first.1, value)]).length := by simp
  have hmatch : insertLoop name value none before.length (before ++ first :: after) =
      (some before.length,
        (before ++ [(first.1, value)]) ++ after.filter fun e => !(e.1 == name)) := by
    rw [insertLoop, dif_pos (by simp), List.getElem_of_append rfl rfl, if_pos hfirst,
      if_pos Option.isNone_none, hset, hlen, insertLoop_some]
  rw [List.nil_append, List.nil_append, List.length_nil, hmatch] at hloop
  rw [insert, hloop]
  simp

theorem multimap_insert (name : HeaderName) (value : String) :
    (m.insert name value).multimap = m.multimap.insert (toEntry (name, value)) := by
  have hne {entries : List (HeaderName × String)}
      (h : ∀ o ∈ entries.map toEntry, o.key ≠ name.lower) :
      ∀ e ∈ entries, (e.1 == name) = false := by
    intro e he
    rw [Bool.eq_false_iff, ne_eq, HeaderName.beq_iff]
    exact h _ (List.mem_map_of_mem he)
  obtain h | ⟨before, first, after, hm, hbefore, hfirst⟩ :=
    m.multimap.forall_ne_or_exists_first name.lower
  · rw [insert_of_forall_ne value (hne h), multimap_append]
    exact (Multimap.insert_of_forall_ne h).symm
  · obtain ⟨before, rest, hentries, rfl, hrest⟩ := List.map_eq_append_iff.mp hm
    obtain ⟨first, after, rfl, rfl, rfl⟩ := List.map_eq_cons_iff.mp hrest
    have hinsert := @insert_append_cons _ after _ _ value (hne hbefore)
      (HeaderName.beq_iff.mpr hfirst)
    have hremove : (after.filter fun e => !(e.1 == name)).map toEntry =
        Multimap.remove (after.map toEntry) name.lower := by
      rw [Multimap.remove, filter_map_toEntry after fun l => l ≠ name.lower]
      refine congrArg (List.map toEntry) (List.filter_congr fun e _ => ?_)
      rw [Bool.eq_iff_iff, Bool.not_eq_true', Bool.eq_false_iff, ne_eq, HeaderName.beq_iff,
        decide_eq_true_eq]
    rw [← hentries] at hinsert
    rw [hm, multimap, hinsert, List.map_append, List.map_cons, hremove]
    exact (Multimap.insert_append_cons (e := toEntry (name, value)) hbefore hfirst).symm

theorem get_remove_of_ne {name k : String} (h : toAsciiLowercase name ≠ toAsciiLowercase k)
    (m : HeaderMap) : (m.remove name).1.get k = m.get k := by
  simp only [get, remove, asLower_eq, List.find?_filter]
  congr 2
  funext e
  by_cases he : e.1.lower = toAsciiLowercase k
  · simp [he, h.symm]
  · simp [he]

theorem get_insert (name : HeaderName) (value k : String) :
    (m.insert name value).get k =
      if name.lower = toAsciiLowercase k then some value else m.get k := by
  rw [get_eq, getAll_eq, multimap_insert, Multimap.getAll_insert, get_eq, getAll_eq]
  by_cases hk : name.lower = toAsciiLowercase k
  · simp [toEntry, hk]
  · simp [toEntry, hk]

theorem multimap_apply (change : Change) :
    (m.apply change).multimap = m.multimap.apply change.multimap := by
  cases change with
  | insert name value => exact multimap_insert m name value
  | append name value => exact multimap_append m name value
  | remove name => exact multimap_remove m name
  | extend other => exact multimap_extend m other
  | mergeReplacing other => exact multimap_mergeReplacing m other

/-- **Changes of a map.** -/
theorem multimap_run (changes : List Change) :
    (m.run changes).multimap = m.multimap.run (changes.map Change.multimap) := by
  induction changes generalizing m with
  | nil => rfl
  | cons change changes ih =>
    have hnext := ih (m.apply change)
    rw [multimap_apply] at hnext
    exact hnext

end HeaderMap

end Tokn.Headers
