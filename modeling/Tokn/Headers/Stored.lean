import Tokn.Headers.Map

/-!
# Header maps as JSON

A map is written as an object that has a field for each name, in the spelling of its first entry,
with the value, or with all values if there are some.

**Theorem (`header_map_multimap`).** A map agrees with a multimap, and what it is written as is read
back as a map with the same values and the same first spelling for every name.
-/

namespace Tokn.Headers

open Value JsonText

namespace HeaderMap

/-! ## Writing -/

/-- The groups with one more entry. -/
def pushGroup (n : HeaderName) (v : String) :
    List (HeaderName × List String) → List (HeaderName × List String)
  | [] => [(n, [v])]
  | (existing, vs) :: groups =>
    if existing == n then (existing, vs ++ [v]) :: groups
    else (existing, vs) :: pushGroup n v groups

/-- The values of each name. -/
def grouped (m : HeaderMap) : List (HeaderName × List String) :=
  m.entries.foldl (fun groups e => pushGroup e.1 e.2 groups) []

/-- The value of a field: one text, or an array. -/
def groupValue (vals : List String) : Value :=
  match vals with
  | [v] => .string v
  | vals => .array (vals.map .string)

/-- `serde_json::to_string`. -/
def serialize (m : HeaderMap) : String :=
  toText (.object (m.grouped.map fun g => (g.1.original, groupValue g.2)))

/-! ## Reading -/

def stringOrSeq : Value → Option (List String)
  | .string s => some [s]
  | .array xs => xs.mapM Value.asStr
  | _ => none

def visitMap : HeaderMap → List (String × Value) → Option HeaderMap
  | out, [] => some out
  | out, (name, v) :: fields =>
    (stringOrSeq v).bind fun values =>
      visitMap (values.foldl (fun out v => out.append (.new name) v) out) fields

/-- The fields of an object, in the order of the text. -/
def readObject (text : List Char) : Option (List (String × Value) × List Char) :=
  match skipSpace text with
  | [] => none
  | c :: text =>
    if c ≠ '\x7b' then none
    else if (skipSpace text).head? = some '\x7d' then some ([], (skipSpace text).tail)
    else readFields .verbatim (2 * text.length + 2) (MAX_DEPTH - 1) text

/-- `serde_json::from_str`. A field that is no text and no array of texts is refused, so it does not
matter how its numbers are read. -/
def deserialize (s : String) : Option HeaderMap :=
  (readObject s.toList).bind fun r => if skipSpace r.2 = [] then visitMap .new r.1 else none

/-! ## Groups -/

/-- The entries that groups stand for. -/
def ofGroups (groups : List (HeaderName × List String)) : HeaderMap :=
  ⟨groups.flatMap fun g => g.2.map fun v => (g.1, v)⟩

def groupOf (groups : List (HeaderName × List String)) (k : String) :
    Option (HeaderName × List String) := groups.find? fun g => g.1.lower = k

theorem groupOf_pushGroup (n : HeaderName) (v : String) (groups : List (HeaderName × List String))
    (k : String) :
    groupOf (pushGroup n v groups) k =
      if n.lower = k then
        some ((groupOf groups k).elim (n, [v]) fun g => (g.1, g.2 ++ [v]))
      else groupOf groups k := by
  induction groups with
  | nil =>
    rw [pushGroup, groupOf, List.find?_cons]
    by_cases hk : n.lower = k <;> simp [hk, groupOf]
  | cons g groups ih =>
    obtain ⟨existing, vs⟩ := g
    rw [groupOf] at ih ⊢
    rw [pushGroup, groupOf, List.find?_cons]
    by_cases hn : (existing == n) = true
    · have hlower := HeaderName.beq_iff.mp hn
      rw [if_pos hn, List.find?_cons, hlower]
      by_cases hk : n.lower = k <;> simp [hk]
    · have hlower : existing.lower ≠ n.lower := fun h => hn (HeaderName.beq_iff.mpr h)
      rw [if_neg hn, List.find?_cons, ih, groupOf]
      by_cases hk : existing.lower = k
      · have hne : n.lower ≠ k := fun h => hlower (hk.trans h.symm)
        simp [hk, hne]
      · simp [hk]

theorem keys_pushGroup (n : HeaderName) (v : String) (groups : List (HeaderName × List String)) :
    (pushGroup n v groups).map (fun g => g.1.lower) =
      if (groupOf groups n.lower).isSome then groups.map fun g => g.1.lower
      else (groups.map fun g => g.1.lower) ++ [n.lower] := by
  induction groups with
  | nil => rfl
  | cons g groups ih =>
    obtain ⟨existing, vs⟩ := g
    rw [groupOf] at ih
    rw [pushGroup, groupOf, List.find?_cons]
    by_cases hn : (existing == n) = true
    · rw [if_pos hn, decide_eq_true (HeaderName.beq_iff.mp hn)]
      rfl
    · have hlower : existing.lower ≠ n.lower := fun h => hn (HeaderName.beq_iff.mpr h)
      rw [if_neg hn, decide_eq_false hlower, List.map_cons, ih]
      split_ifs <;> rfl

/-- What the loop has grouped: no name twice, and under each name what its entries are. -/
structure Grouped (done : HeaderMap) (groups : List (HeaderName × List String)) : Prop where
  nodup : (groups.map fun g => g.1.lower).Nodup
  group : ∀ k, (groupOf groups k).map (fun g => (g.1.original, g.2)) =
    Multimap.gather (done.multimap.entriesOf k)

theorem Grouped.push {done : HeaderMap} {groups : List (HeaderName × List String)}
    (h : Grouped done groups) (n : HeaderName) (v : String) :
    Grouped (done.append n v) (pushGroup n v groups) where
  nodup := by
    rw [keys_pushGroup]
    split_ifs with hsome
    · exact h.nodup
    · rw [← List.concat_eq_append]
      refine h.nodup.concat fun hmem => hsome ?_
      obtain ⟨g, hg, hlower⟩ := List.mem_map.mp hmem
      rw [groupOf, List.find?_isSome]
      exact ⟨g, hg, decide_eq_true hlower⟩
  group k := by
    have hgroup := h.group k
    rw [groupOf_pushGroup, multimap_append, Multimap.entriesOf, List.filter_append,
      ← Multimap.entriesOf]
    by_cases hk : n.lower = k
    · rw [if_pos hk, List.filter_cons_of_pos (by simp [toEntry, hk]), List.filter_nil,
        Multimap.gather_append_singleton, ← hgroup]
      cases groupOf groups k <;> rfl
    · rw [if_neg hk, List.filter_cons_of_neg (by simp [toEntry, hk]), List.filter_nil,
        List.append_nil, hgroup]

variable (m : HeaderMap) (vals : List String)

theorem grouped_grouped : Grouped m m.grouped := by
  have hfold : ∀ (entries : List (HeaderName × String)) (done : HeaderMap)
      (groups : List (HeaderName × List String)), Grouped done groups →
      Grouped ⟨done.entries ++ entries⟩
        (entries.foldl (fun groups e => pushGroup e.1 e.2 groups) groups) := by
    intro entries
    induction entries with
    | nil =>
      intro done groups h
      rw [List.append_nil]
      exact h
    | cons e entries ih =>
      intro done groups h
      have hnext := ih _ _ (h.push e.1 e.2)
      rw [append, List.append_assoc] at hnext
      exact hnext
  exact hfold m.entries .new [] ⟨List.nodup_nil, fun _ => rfl⟩

/-- The entries of groups without a name twice. -/
theorem entriesOf_ofGroups {groups : List (HeaderName × List String)}
    (h : (groups.map fun g => g.1.lower).Nodup) (k : String) :
    (ofGroups groups).multimap.entriesOf k =
      ((groupOf groups k).elim [] fun g => g.2.map fun v => toEntry (g.1, v)) := by
  induction groups with
  | nil => rfl
  | cons g groups ih =>
    rw [List.map_cons, List.nodup_cons] at h
    have hrest := ih h.2
    rw [entriesOf_multimap, ofGroups] at hrest
    rw [entriesOf_multimap, ofGroups, List.flatMap_cons, List.filter_append, List.map_append, hrest,
      groupOf, groupOf, List.find?_cons, List.filter_map]
    by_cases hk : g.1.lower = k
    · have hnone : (groups.find? fun g => g.1.lower = k) = none := by
        rw [List.find?_eq_none]
        intro g' hg' hlower
        refine h.1 (List.mem_map.mpr ⟨g', hg', ?_⟩)
        exact (of_decide_eq_true hlower).trans hk.symm
      rw [hnone, decide_eq_true hk]
      simp [hk, Function.comp_def]
    · rw [decide_eq_false hk]
      simp [hk, Function.comp_def]

theorem gather_ofGroups (k : String) :
    Multimap.gather ((ofGroups m.grouped).multimap.entriesOf k) =
      Multimap.gather (m.multimap.entriesOf k) := by
  have hgrouped := grouped_grouped m
  have hgroup := hgrouped.group k
  rw [entriesOf_ofGroups hgrouped.nodup]
  cases hfound : groupOf m.grouped k with
  | none =>
    rw [hfound] at hgroup
    exact hgroup
  | some g =>
    -- The values of a group are those of entries, so there is one at least.
    rw [hfound] at hgroup
    cases hentries : m.multimap.entriesOf k with
    | nil =>
      rw [hentries] at hgroup
      cases hgroup
    | cons e entries =>
      rw [hentries, Multimap.gather, Option.map_some, Option.some_inj, Prod.mk.injEq] at hgroup
      obtain ⟨hspelling, hvalues⟩ := hgroup
      rw [Option.elim_some, hvalues, Multimap.gather, List.map_cons, Multimap.gather, ← hspelling]
      simp [toEntry]

/-! ## Texts -/

theorem mapM_asStr : (vals.map Value.string).mapM asStr = some vals := by
  induction vals with
  | nil => rfl
  | cons v vals ih => rw [List.map_cons, List.mapM_cons, ih]; rfl

theorem stringOrSeq_groupValue : stringOrSeq (groupValue vals) = some vals := by
  unfold groupValue
  split
  · rfl
  · exact mapM_asStr vals

theorem foldl_append (name : HeaderName) (vals : List String) (out : HeaderMap) :
    vals.foldl (fun out v => out.append name v) out =
      ⟨out.entries ++ vals.map fun v => (name, v)⟩ := by
  induction vals generalizing out with
  | nil => rw [List.map_nil, List.append_nil]; rfl
  | cons v vals ih => rw [List.foldl_cons, ih, append, List.append_assoc]; rfl

theorem visitMap_groups (groups : List (HeaderName × List String)) (out : HeaderMap) :
    visitMap out (groups.map fun g => (g.1.original, groupValue g.2)) =
      some (out.extend (ofGroups groups)) := by
  induction groups generalizing out with
  | nil => rw [List.map_nil, visitMap, extend, ofGroups, List.flatMap_nil, List.append_nil]
  | cons g groups ih =>
    rw [List.map_cons, visitMap, stringOrSeq_groupValue, Option.bind_some, HeaderName.new_original,
      foldl_append, ih, extend, extend, ofGroups, ofGroups, List.flatMap_cons, List.append_assoc]

/-- A text and an array of texts are read as they are. -/
theorem groupValue_stable :
    (groupValue vals).Valid ∧ (groupValue vals).depth ≤ MAX_DEPTH - 1 ∧
      Stable .verbatim (groupValue vals) := by
  have harray : ∀ vals : List String, ValidArray (vals.map Value.string) ∧
      depthArray (vals.map Value.string) = 0 ∧ StableArray .verbatim (vals.map Value.string) := by
    intro vals
    induction vals with
    | nil => exact ⟨trivial, rfl, trivial⟩
    | cons v vals ih =>
      obtain ⟨hvalid, hdepth, hstable⟩ := ih
      refine ⟨⟨trivial, hvalid⟩, ?_, trivial, hstable⟩
      rw [List.map_cons, depthArray, hdepth]
      rfl
  unfold groupValue
  split
  · exact ⟨trivial, Nat.zero_le _, trivial⟩
  · obtain ⟨hvalid, hdepth, hstable⟩ := harray vals
    refine ⟨hvalid, ?_, hstable⟩
    rw [Value.depth, hdepth]
    decide

theorem stableFields_iff {fields : List (String × Value)} :
    StableFields .verbatim fields ↔ ∀ e ∈ fields, Stable .verbatim e.2 := by
  induction fields with
  | nil => simp [StableFields]
  | cons e fields ih => simp [StableFields, ih]

/-- The fields of an object are read in the order they were written in. -/
theorem readObject_toText {fields : List (String × Value)} (hv : ValidFields fields)
    (hfields : rereadFields .verbatim (MAX_DEPTH - 1) fields = some fields) :
    readObject (toText (.object fields)).toList = some (fields, []) := by
  rw [toList_object, readObject, skipSpace_cons (by decide)]
  dsimp only
  rw [if_neg (not_not_intro rfl)]
  cases fields with
  | nil => rfl
  | cons e fields =>
    obtain ⟨text, htext⟩ := fieldsText_head e fields
    have hopen : (skipSpace (fieldsText (e :: fields) ++ ['\x7d'])).head? ≠ some '\x7d' := by
      rw [skipSpace_fieldsText, htext]
      exact fun he => absurd (Option.some.inj he) (by decide)
    have hfuel : 2 * (fieldsText (e :: fields)).length ≤
        2 * (fieldsText (e :: fields) ++ ['\x7d']).length + 1 := by
      rw [List.length_append]
      omega
    rw [if_neg hopen, readFields_text (e :: fields) _ _ _ (by simp) hv hfuel, hfields]
    rfl

/-- A map is read back with the entries of each name together. -/
theorem deserialize_serialize : deserialize m.serialize = some (ofGroups m.grouped) := by
  have hall : ∀ e ∈ m.grouped.map fun g => (g.1.original, groupValue g.2),
      e.2.Valid ∧ e.2.depth ≤ MAX_DEPTH - 1 ∧ Stable .verbatim e.2 := by
    intro e he
    obtain ⟨g, -, rfl⟩ := List.mem_map.mp he
    exact groupValue_stable g.2
  have hvalid := validFields_iff.mpr fun e he => (hall e he).1
  have hreread := (rereadFields_eq_some_iff _ _ hvalid).mpr
    ⟨depthFields_le_iff.mpr fun e he => (hall e he).2.1,
      stableFields_iff.mpr fun e he => (hall e he).2.2⟩
  rw [deserialize, serialize, readObject_toText hvalid hreread, Option.bind_some, visitMap_groups]
  rfl

/-! ## The multimap -/

/-- The spelling of the first entry of a name. -/
def spelling (m : HeaderMap) (name : String) : Option String :=
  (m.entries.find? fun e => e.1.lower = asLower name).map fun e => e.1.original

theorem spelling_eq (name : String) :
    m.spelling name = m.multimap.spelling (toAsciiLowercase name) := by
  rw [spelling, Multimap.spelling, entriesOf_multimap, List.head?_map, List.head?_filter, asLower_eq,
    Option.map_map]
  rfl

/-- A map agrees with its multimap, in all lookups and under every sequence of changes. -/
structure AgreesWithMultimap (m : HeaderMap) : Prop where
  run : ∀ changes, (m.run changes).multimap = m.multimap.run (changes.map Change.multimap)
  getAll : ∀ name, m.getAll name = m.multimap.getAll (toAsciiLowercase name)
  spelling : ∀ name, m.spelling name = m.multimap.spelling (toAsciiLowercase name)
  get : ∀ name, m.get name = (m.getAll name).head?
  containsKey : ∀ name, m.containsKey name = (m.get name).isSome
  removed : ∀ name, (m.remove name).2 = (m.getAll name).length

/-- What is in a map after an insertion: one entry of the name, in the place and the spelling of the
first one before, and all entries of other names as they were. -/
structure Inserted (m : HeaderMap) (name : HeaderName) (value : String) : Prop where
  once : (m.insert name value).multimap.entriesOf name.lower =
    [⟨name.lower, (m.spelling name.lower).getD name.original, value⟩]
  place : ((m.insert name value).multimap.takeWhile fun e => e.key ≠ name.lower) =
    m.multimap.takeWhile fun e => e.key ≠ name.lower
  others : (m.insert name value).multimap.remove name.lower = m.multimap.remove name.lower

theorem inserted (name : HeaderName) (value : String) : m.Inserted name value := by
  constructor
  · rw [multimap_insert, spelling_eq, name.lower_lower]
    exact Multimap.entriesOf_insert_self m.multimap (toEntry (name, value))
  · rw [multimap_insert]
    exact Multimap.takeWhile_insert m.multimap (toEntry (name, value))
  · rw [multimap_insert]
    exact Multimap.remove_insert m.multimap (toEntry (name, value))

/-- What is read back from the text of a map. -/
structure StoredAs (m stored : HeaderMap) : Prop where
  values : ∀ name, stored.getAll name = m.getAll name
  spelling : ∀ name, stored.spelling name = m.spelling name

theorem storedAs_ofGroups : m.StoredAs (ofGroups m.grouped) where
  values name := by
    rw [getAll_eq, getAll_eq, Multimap.getAll_eq_gather, Multimap.getAll_eq_gather, gather_ofGroups]
  spelling name := by
    rw [spelling_eq, spelling_eq, Multimap.spelling_eq_gather, Multimap.spelling_eq_gather,
      gather_ofGroups]

/-- **Header maps.** -/
theorem header_map_multimap (m : HeaderMap) :
    m.AgreesWithMultimap ∧ (∀ name value, m.Inserted name value) ∧
      (∀ other, (m.mergeReplacing other).entries =
        (m.entries.filter fun e => e.1.lower ∉ other.entries.map fun o => o.1.lower) ++
          other.entries) ∧
      ∃ stored, deserialize m.serialize = some stored ∧ m.StoredAs stored := by
  refine ⟨?_, inserted m, fun other => ?_, ofGroups m.grouped, deserialize_serialize m,
    storedAs_ofGroups m⟩
  · exact ⟨multimap_run m, getAll_eq m, spelling_eq m, get_eq m, containsKey_eq m, remove_snd m⟩
  · exact congrArg (· ++ other.entries) (foldl_filter_beq other.entries m.entries)

end HeaderMap

end Tokn.Headers
