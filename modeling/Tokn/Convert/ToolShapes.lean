import Tokn.Convert.Tools
import Tokn.Lib.JsonRead

/-!
# Tools between dialects

A tool that is rendered in the shape of a dialect and read back has what that shape has a place
for. The shape of Responses has the four fields of a function, the shape of Messages has no
`strict` and always a schema, and neither has a place for other fields of the tool.

**Theorem (`tool_shapes`).** Normalising is idempotent, and a normalised tool or tool choice comes
back from a dialect unchanged exactly if it fits into the shape.
-/

namespace Tokn.Convert.Tools

open Value
open BTreeMap (get_nil sorted_nil)

/-! ## Objects with few keys -/

theorem hasOnlyKeys_iff {o : BTreeMap String Value} {allowed : List String} :
    hasOnlyKeys o allowed = true ↔ ∀ k, k ∉ allowed → o.get k = none := by
  rw [hasOnlyKeys, List.all_eq_true]
  constructor
  · intro h k hk
    refine BTreeMap.get_eq_none_iff.mpr fun hmem => ?_
    obtain ⟨e, he, rfl⟩ := List.mem_map.mp hmem
    exact hk (List.contains_iff_mem.mp (h e he))
  · intro h e he
    refine List.contains_iff_mem.mpr ?_
    by_contra hk
    exact BTreeMap.get_eq_none_iff.mp (h e.1 hk) (List.mem_map_of_mem he)

theorem sorted_insertOpt {out : BTreeMap String Value} (h : BTreeMap.Sorted out) (key : String)
    (value : Option Value) : BTreeMap.Sorted (insertOpt out key value) := by
  cases value with
  | none => exact h
  | some value => exact h.insert key value

theorem get_insertStr (out : BTreeMap String Value) (key k : String) (src : Option Value) :
    (insertStr out key src).get k =
      if k = key then (src.bind asStr).map Value.string <|> out.get k
      else out.get k :=
  get_insertOpt out key k _

theorem eq_iff_get {m m' : BTreeMap String Value} (h : BTreeMap.Sorted m)
    (h' : BTreeMap.Sorted m') : m = m' ↔ ∀ k, m.get k = m'.get k :=
  ⟨fun heq k => by rw [heq], fun hget => h.ext h' hget⟩

/-- A field that is copied by `insert_str` keeps its value. -/
theorem copied_iff {value : Option Value} :
    (value.bind asStr).map Value.string = value ↔ ∀ v, value = some v → ∃ s, v = .string s := by
  cases value with
  | none => simp
  | some v => cases v <;> simp [asStr]

/-! ## The canonical shape -/

/-- A tool with a type and a function, and nothing else. -/
structure BareEnvelope (o : BTreeMap String Value) : Prop where
  type : o.get "type" = some (.string "function")
  only : hasOnlyKeys o ["type", "function"] = true

/-- A function with a name and with no other fields than those given. -/
structure HasShape (fields : List String) (f : BTreeMap String Value) : Prop where
  name : ∃ name, f.get "name" = some (.string name)
  description : ∀ v, f.get "description" = some v → ∃ s, v = .string s
  only : hasOnlyKeys f (["name", "description"] ++ fields) = true

theorem functionOf_eq_some {o f : BTreeMap String Value} :
    functionOf o = some f ↔ o.get "function" = some (.object f) := by
  rw [functionOf]
  cases o.get "function" with
  | none => simp
  | some v => cases v <;> simp [asObject]

theorem get_functionTool (inner : BTreeMap String Value) (k : String) :
    (functionTool inner).get k =
      if k = "function" then some (.object inner)
      else if k = "type" then some (.string "function") else none := by
  rw [functionTool, get_obj]
  rfl

theorem functionTool_eq_iff {o f inner : BTreeMap String Value} (ho : BTreeMap.Sorted o)
    (hf : functionOf o = some f) :
    functionTool inner = .object o ↔ BareEnvelope o ∧ inner = f := by
  rw [functionOf_eq_some] at hf
  have hsorted : BTreeMap.Sorted (BTreeMap.extend []
      [("type", Value.string "function"), ("function", .object inner)]) :=
    sorted_nil.extend _
  have hget := get_functionTool inner
  rw [functionTool, obj, Value.object.injEq, eq_iff_get hsorted ho]
  constructor
  · intro h
    have hk : ∀ k, (functionTool inner).get k = o.get k := h
    refine ⟨⟨?_, hasOnlyKeys_iff.mpr ?_⟩, ?_⟩
    · rw [← hk, hget]
      rfl
    · intro k hmem
      rw [← hk, hget, if_neg, if_neg] <;> grind
    · rw [← hk, hget, if_pos rfl] at hf
      cases hf
      rfl
  · rintro ⟨⟨htype, honly⟩, rfl⟩ k
    refine (hget k).trans ?_
    split_ifs with hfun ht
    · rw [hfun, hf]
    · rw [ht, htype]
    · exact (hasOnlyKeys_iff.mp honly k (by simp [hfun, ht])).symm

/-! ## What the renderers write -/

/-- The string of a field. -/
def strOf (f : BTreeMap String Value) (k : String) : Option Value :=
  ((f.get k).bind asStr).map Value.string

theorem strOf_eq_none_or (f : BTreeMap String Value) (k : String) :
    strOf f k = none ∨ ∃ s, strOf f k = some (.string s) ∧ f.get k = some (.string s) := by
  rw [strOf]
  cases f.get k with
  | none => exact Or.inl rfl
  | some v => cases v <;> simp [asStr]

theorem strOf_of_get {f r : BTreeMap String Value} {k : String}
    (h : r.get k = strOf f k) : strOf r k = strOf f k := by
  obtain hnone | ⟨s, hs, -⟩ := strOf_eq_none_or f k
  · rw [strOf, h, hnone]
    rfl
  · rw [strOf, h, hs]
    rfl

theorem toolToResponses_spec {t : Value} {f : BTreeMap String Value}
    (h : t.asObject.bind functionOf = some f) :
    ∃ r, toolToResponses t = .object r ∧ ∀ k, BTreeMap.get r k =
      if k = "strict" ∨ k = "parameters" then BTreeMap.get f k
      else if k = "description" ∨ k = "name" then strOf f k
      else if k = "type" then some (.string "function") else none := by
  refine ⟨_, by rw [toolToResponses, h], fun k => ?_⟩
  simp only [get_insertOpt, get_insertStr, BTreeMap.get_insert, get_nil]
  grind [strOf]

theorem toolToMessages_spec {t : Value} {f : BTreeMap String Value}
    (h : t.asObject.bind functionOf = some f) :
    ∃ r, toolToMessages t = .object r ∧ ∀ k, BTreeMap.get r k =
      if k = "input_schema" then some ((BTreeMap.get f "parameters").getD emptySchema)
      else if k = "description" ∨ k = "name" then strOf f k else none := by
  refine ⟨_, by rw [toolToMessages, h], fun k => ?_⟩
  simp only [get_insertStr, BTreeMap.get_insert, get_nil]
  grind [strOf]

theorem wrapFunction_spec (r : BTreeMap String Value) :
    ∃ inner, wrapFunction r = functionTool inner ∧ BTreeMap.Sorted inner ∧
      ∀ k, inner.get k =
        if k = "strict" ∨ k = "parameters" then r.get k
        else if k = "description" ∨ k = "name" then strOf r k else none := by
  refine ⟨_, rfl, ?_, fun k => ?_⟩
  · exact sorted_insertOpt (sorted_insertOpt (sorted_insertOpt
      (sorted_insertOpt sorted_nil _ _) _ _) _ _) _ _
  · simp only [get_insertOpt, get_insertStr, get_nil]
    grind [strOf]

/-! ## Reading tools back -/

/-- What `normalise_tool` makes of a tool in the shape of Messages. -/
theorem messagesFunction_spec (r : BTreeMap String Value) :
    let inner := insertStr (insertStr [] "name" (r.get "name")) "description"
      (r.get "description")
    BTreeMap.Sorted (insertOpt inner "parameters" (r.get "input_schema")) ∧
      ∀ k, (insertOpt inner "parameters" (BTreeMap.get r "input_schema")).get k =
        if k = "parameters" then r.get "input_schema"
        else if k = "description" ∨ k = "name" then strOf r k else none := by
  refine ⟨?_, fun k => ?_⟩
  · exact sorted_insertOpt (sorted_insertOpt (sorted_insertOpt sorted_nil _ _) _ _) _ _
  · simp only [get_insertOpt, get_insertStr, get_nil]
    grind [strOf]

theorem normaliseTool_of_functionOf {o f : BTreeMap String Value} (h : functionOf o = some f) :
    normaliseTool (.object o) = .object o := by
  rw [normaliseTool, if_pos (by rw [h]; rfl)]

/-- What a tool is normalised to: itself, or a function in the envelope. -/
theorem normaliseTool_cases (v : Value) :
    normaliseTool v = v ∨
      ∃ inner, normaliseTool v = functionTool inner ∧ BTreeMap.Sorted inner := by
  cases v with
  | object o =>
    obtain ⟨inner, hwrap, hsorted, -⟩ := wrapFunction_spec o
    rw [normaliseTool]
    split_ifs
    · exact Or.inl rfl
    · exact Or.inr ⟨inner, hwrap, hsorted⟩
    · exact Or.inr ⟨_, rfl, (messagesFunction_spec o).1⟩
    · exact Or.inr ⟨inner, hwrap, hsorted⟩
    · exact Or.inl rfl
  | null | bool _ | number _ | string _ | array _ => exact Or.inl rfl

theorem exists_functionTool (inner : BTreeMap String Value) :
    ∃ o, functionTool inner = .object o ∧ BTreeMap.Sorted o ∧ functionOf o = some inner := by
  refine ⟨_, rfl, sorted_nil.extend _, functionOf_eq_some.mpr ?_⟩
  exact get_functionTool inner "function"

theorem normaliseTool_normaliseTool (v : Value) :
    normaliseTool (normaliseTool v) = normaliseTool v := by
  obtain hsame | ⟨inner, hinner, -⟩ := normaliseTool_cases v
  · rw [hsame, hsame]
  · obtain ⟨o, ho, -, hfun⟩ := exists_functionTool inner
    rw [hinner, ho, normaliseTool_of_functionOf hfun]

theorem sorted_normaliseTool {v : Value} (hv : v.Valid) {o f : BTreeMap String Value}
    (ho : normaliseTool v = .object o) (hf : functionOf o = some f) :
    BTreeMap.Sorted o ∧ BTreeMap.Sorted f := by
  obtain hsame | ⟨inner, hinner, hsorted⟩ := normaliseTool_cases v
  · rw [hsame] at ho
    subst ho
    have hmem := BTreeMap.mem_of_get (functionOf_eq_some.mp hf)
    exact ⟨hv.1, (validFields_iff.mp hv.2 _ hmem).1⟩
  · obtain ⟨o', ho', hsorted', hfun⟩ := exists_functionTool inner
    rw [hinner, ho'] at ho
    cases ho
    rw [hfun] at hf
    cases hf
    exact ⟨hsorted', hsorted⟩

section

variable {o f : BTreeMap String Value}

/-- The fields of the two shapes, compared with those of a function. -/
theorem hasShape_iff {fields : List String} (hfields : "description" ∉ fields)
    {inner : BTreeMap String Value} (hinner : BTreeMap.Sorted inner) (hf : BTreeMap.Sorted f)
    {name : String} (hname : f.get "name" = some (.string name))
    (hget : ∀ k, inner.get k =
      if k ∈ fields then f.get k
      else if k = "description" ∨ k = "name" then strOf f k else none) :
    inner = f ↔ HasShape fields f := by
  rw [eq_iff_get hinner hf]
  constructor
  · intro h
    refine ⟨⟨name, hname⟩, copied_iff.mp ?_, hasOnlyKeys_iff.mpr fun k hk => ?_⟩
    · have hdescription := h "description"
      rw [hget, if_neg hfields, if_pos (Or.inl rfl)] at hdescription
      exact hdescription
    · rw [← h k, hget, if_neg, if_neg] <;> grind
  · intro h k
    rw [hget]
    split_ifs with hk hk'
    · rfl
    · obtain rfl | rfl := hk'
      · exact copied_iff.mpr h.description
      · exact copied_iff.mpr fun v hv => ⟨name, by grind⟩
    · exact (hasOnlyKeys_iff.mp h.only k (by grind)).symm

/-- **A tool through Responses.** -/
theorem responses_iff (ho : BTreeMap.Sorted o) (hf : BTreeMap.Sorted f)
    (hfun : functionOf o = some f) :
    normaliseTool (toolToResponses (.object o)) = .object o ↔
      BareEnvelope o ∧ HasShape ["parameters", "strict"] f := by
  obtain ⟨r, hr, hget⟩ := toolToResponses_spec (t := .object o) (f := f) hfun
  have hnofun : functionOf r = none := by
    rw [functionOf, hget]
    rfl
  have htype : (BTreeMap.get r "type").bind asStr = some "function" := by
    rw [hget]
    rfl
  rw [hr, normaliseTool, if_neg (by rw [hnofun]; decide)]
  obtain hnone | ⟨name, hstr, hname⟩ := strOf_eq_none_or f "name"
  · -- Without a name the tool is not read as one of Responses, nor as any other.
    have hnoname : BTreeMap.contains r "name" = false := by
      rw [BTreeMap.contains, hget]
      exact congrArg Option.isSome hnone
    simp only [hnoname, Bool.false_eq_true, and_false, false_and, if_false]
    constructor
    · intro h
      cases h
      rw [hfun] at hnofun
      cases hnofun
    · rintro ⟨-, ⟨name, hname⟩, -, -⟩
      rw [strOf, hname] at hnone
      cases hnone
  · have hhas : BTreeMap.contains r "name" = true := by
      rw [BTreeMap.contains, hget]
      exact congrArg Option.isSome hstr
    rw [if_pos ⟨htype, hhas⟩]
    obtain ⟨inner, hwrap, hinner, hget'⟩ := wrapFunction_spec r
    rw [hwrap, functionTool_eq_iff ho hfun]
    refine and_congr_right fun _ =>
      hasShape_iff (by decide) hinner hf hname fun k => ?_
    rw [hget']
    grind [strOf_of_get]

/-- **A tool through Messages.** -/
theorem messages_iff (ho : BTreeMap.Sorted o) (hf : BTreeMap.Sorted f)
    (hfun : functionOf o = some f) :
    normaliseTool (toolToMessages (.object o)) = .object o ↔
      BareEnvelope o ∧ HasShape ["parameters"] f ∧ BTreeMap.contains f "parameters" = true := by
  obtain ⟨r, hr, hget⟩ := toolToMessages_spec (t := .object o) (f := f) hfun
  have hnofun : functionOf r = none := by
    rw [functionOf, hget]
    rfl
  have htype : (BTreeMap.get r "type").bind asStr = none := by
    rw [hget]
    rfl
  have hschema : BTreeMap.contains r "input_schema" = true := by
    rw [BTreeMap.contains, hget]
    rfl
  rw [hr, normaliseTool, if_neg (by rw [hnofun]; decide), if_neg (by rw [htype]; simp)]
  obtain hnone | ⟨name, hstr, hname⟩ := strOf_eq_none_or f "name"
  · have hnoname : BTreeMap.contains r "name" = false := by
      rw [BTreeMap.contains, hget]
      exact congrArg Option.isSome hnone
    simp only [hnoname, Bool.false_eq_true, and_false, false_and, if_false]
    constructor
    · intro h
      cases h
      rw [hfun] at hnofun
      cases hnofun
    · rintro ⟨-, ⟨⟨name, hname⟩, -, -⟩, -⟩
      rw [strOf, hname] at hnone
      cases hnone
  · have hhas : BTreeMap.contains r "name" = true := by
      rw [BTreeMap.contains, hget]
      exact congrArg Option.isSome hstr
    rw [if_pos ⟨hschema, hhas⟩]
    obtain ⟨hinner, hget'⟩ := messagesFunction_spec r
    rw [functionTool_eq_iff ho hfun]
    refine and_congr_right fun _ => ?_
    by_cases hparams : f.contains "parameters" = true
    · obtain ⟨schema, hschema⟩ := Option.isSome_iff_exists.mp hparams
      rw [and_iff_left hparams]
      refine hasShape_iff (by decide) hinner hf hname fun k => ?_
      rw [hget']
      grind [strOf_of_get]
    · constructor
      · rintro rfl
        refine absurd ?_ hparams
        rw [BTreeMap.contains, hget', if_pos rfl, hget, if_pos rfl]
        rfl
      · rintro ⟨-, h⟩
        exact absurd h hparams

end

/-! ## Reading tool choices back -/

/-- A choice that names a function consists of that name. -/
def NamesPlainly (choice : Value) : Prop :=
  ∀ name, namedToolChoiceName choice = some name → choice = namedToolChoice name

theorem normaliseToolChoice_named (name : String) :
    normaliseToolChoice (namedToolChoice name) = namedToolChoice name := by
  obtain ⟨o, ho, -, hfun⟩ := exists_functionTool (BTreeMap.extend [] [("name", .string name)])
  have htype : BTreeMap.get o "type" = some (.string "function") := by
    rw [← Value.get, ← ho]
    exact get_functionTool _ "type"
  have hnamed : namedToolChoice name = .object o := ho
  rw [hnamed, normaliseToolChoice, htype]
  exact if_pos (by rw [hfun]; rfl)

/-- The choice of a function in the shape of Responses and in that of Messages. -/
theorem normaliseToolChoice_flat {mode : String} (hmode : mode = "function" ∨ mode = "tool")
    (name : String) :
    normaliseToolChoice (obj [("type", .string mode), ("name", .string name)]) =
      namedToolChoice name := by
  have hget : ∀ k, BTreeMap.get (BTreeMap.extend [] [("type", Value.string mode),
      ("name", .string name)]) k =
        if k = "name" then some (.string name) else if k = "type" then some (.string mode)
        else none := by
    intro k
    exact (get_obj [("type", Value.string mode), ("name", .string name)] k).trans rfl
  have honly : hasOnlyKeys (BTreeMap.extend [] [("type", Value.string mode),
      ("name", .string name)]) ["type", "name"] = true := by
    refine hasOnlyKeys_iff.mpr fun k hk => ?_
    rw [hget, if_neg, if_neg] <;> grind
  have hnamed (value : Value) : namedChoiceOf value (BTreeMap.extend []
      [("type", Value.string mode), ("name", .string name)]) = namedToolChoice name := by
    rw [namedChoiceOf, if_pos honly, hget]
    rfl
  rw [obj, normaliseToolChoice, hget "type", if_neg (by decide), if_pos rfl]
  obtain rfl | rfl := hmode
  · have hnofun : functionOf (BTreeMap.extend [] [("type", Value.string "function"),
        ("name", .string name)]) = none := by
      rw [functionOf, hget]
      rfl
    exact (if_neg (by rw [hnofun]; decide)).trans (hnamed _)
  · exact hnamed _

theorem namedChoiceOf_cases (value : Value) (o : BTreeMap String Value) :
    namedChoiceOf value o = value ∨ ∃ name, namedChoiceOf value o = namedToolChoice name := by
  rw [namedChoiceOf]
  split_ifs
  · cases (o.get "name").bind asStr with
    | none => exact Or.inl rfl
    | some name => exact Or.inr ⟨name, rfl⟩
  · exact Or.inl rfl

/-- What a choice is normalised to: itself, a mode, or the choice of a function by its name. -/
theorem normaliseToolChoice_cases (v : Value) :
    normaliseToolChoice v = v ∨ (∃ mode, normaliseToolChoice v = .string mode) ∨
      ∃ name, normaliseToolChoice v = namedToolChoice name := by
  cases v with
  | object o =>
    rw [normaliseToolChoice]
    split
    · split_ifs
      · exact Or.inr (Or.inl ⟨_, rfl⟩)
      · exact Or.inl rfl
    · split_ifs
      · exact Or.inr (Or.inl ⟨_, rfl⟩)
      · exact Or.inl rfl
    · split_ifs
      · exact Or.inr (Or.inl ⟨_, rfl⟩)
      · exact Or.inl rfl
    · split_ifs
      · exact Or.inr (Or.inl ⟨_, rfl⟩)
      · exact Or.inl rfl
    · exact (namedChoiceOf_cases _ o).imp_right Or.inr
    · split_ifs
      · exact Or.inl rfl
      · exact (namedChoiceOf_cases _ o).imp_right Or.inr
    · exact Or.inl rfl
  | null | bool _ | number _ | string _ | array _ => exact Or.inl rfl

theorem normaliseToolChoice_normaliseToolChoice (v : Value) :
    normaliseToolChoice (normaliseToolChoice v) = normaliseToolChoice v := by
  obtain hsame | ⟨mode, hmode⟩ | ⟨name, hname⟩ := normaliseToolChoice_cases v
  · rw [hsame, hsame]
  · rw [hmode]
    rfl
  · rw [hname, normaliseToolChoice_named]

theorem toolChoiceToResponses_iff {c : Value} (hc : normaliseToolChoice c = c) :
    normaliseToolChoice (toolChoiceToResponses c) = c ↔ NamesPlainly c := by
  unfold toolChoiceToResponses NamesPlainly
  simp only [hc]
  cases namedToolChoiceName c with
  | none => simp [hc]
  | some name =>
    simp [normaliseToolChoice_flat (Or.inl rfl), eq_comm]

theorem toolChoiceToMessages_iff {c : Value} (hc : normaliseToolChoice c = c) :
    normaliseToolChoice (toolChoiceToMessages c) = c ↔ NamesPlainly c := by
  unfold toolChoiceToMessages NamesPlainly
  simp only [hc]
  cases namedToolChoiceName c with
  | none =>
    refine iff_of_true ?_ (by simp)
    cases c with
    | string mode =>
      dsimp only [asStr]
      split
      · cases ‹some mode = some "auto"›
        rfl
      · cases ‹some mode = some "none"›
        rfl
      · cases ‹some mode = some "required"›
        rfl
      · exact hc
    | null | bool _ | number _ | array _ | object _ => exact hc
  | some name =>
    simp [normaliseToolChoice_flat (Or.inr rfl), eq_comm]

/-! ## Round trips -/

/-- **Tools and tool choices between dialects.** The Chat renderer leaves a tool as it is. -/
theorem tool_shapes {v : Value} (hv : v.Valid) :
    normaliseTool (normaliseTool v) = normaliseTool v ∧
      (∀ o f, normaliseTool v = .object o → functionOf o = some f →
        (normaliseTool (toolToResponses (normaliseTool v)) = normaliseTool v ↔
          BareEnvelope o ∧ HasShape ["parameters", "strict"] f) ∧
        (normaliseTool (toolToMessages (normaliseTool v)) = normaliseTool v ↔
          BareEnvelope o ∧ HasShape ["parameters"] f ∧
            f.contains "parameters" = true)) ∧
      normaliseToolChoice (toolChoiceToChat (normaliseToolChoice v)) = normaliseToolChoice v ∧
      (normaliseToolChoice (toolChoiceToResponses (normaliseToolChoice v)) =
        normaliseToolChoice v ↔ NamesPlainly (normaliseToolChoice v)) ∧
      (normaliseToolChoice (toolChoiceToMessages (normaliseToolChoice v)) =
        normaliseToolChoice v ↔ NamesPlainly (normaliseToolChoice v)) := by
  have hchoice := normaliseToolChoice_normaliseToolChoice v
  refine ⟨normaliseTool_normaliseTool v, fun o f ho hfun => ?_, ?_,
    toolChoiceToResponses_iff hchoice, toolChoiceToMessages_iff hchoice⟩
  · obtain ⟨hsorted, hf⟩ := sorted_normaliseTool hv ho hfun
    rw [ho]
    exact ⟨responses_iff hsorted hf hfun, messages_iff hsorted hf hfun⟩
  · rw [toolChoiceToChat, hchoice, hchoice]

/-- A tool that fits into all three shapes. -/
def lookupFunction : BTreeMap String Value :=
  [("description", .string "Look up"), ("name", .string "lookup"), ("parameters", .object [])]

def lookupTool : Value :=
  .object [("function", .object lookupFunction), ("type", .string "function")]

theorem tool_shapes_lookup : normaliseTool (toolToMessages lookupTool) = lookupTool := by
  have hv : lookupTool.Valid := by
    refine ⟨?_, ⟨?_, trivial, trivial, ⟨?_, trivial⟩, trivial⟩, trivial, trivial⟩ <;>
      unfold BTreeMap.Sorted <;> decide
  have hshape : HasShape ["parameters"] lookupFunction := by
    refine ⟨⟨"lookup", by decide⟩, ?_, by decide⟩
    intro v hv
    exact ⟨"Look up", (Option.some.inj hv).symm⟩
  exact ((tool_shapes hv).2.1 _ lookupFunction rfl rfl).2.mpr
    ⟨⟨by decide, by decide⟩, hshape, by decide⟩

/-- A strict function loses `strict` in Messages, and a choice its other fields in both. -/
theorem strict_tool_changes :
    let tool := functionTool [("name", .string "lookup"), ("parameters", .object []),
      ("strict", .bool true)]
    let choice := functionTool [("extension", .null), ("name", .string "lookup")]
    normaliseTool tool = tool ∧ normaliseTool (toolToMessages tool) ≠ tool ∧
      normaliseToolChoice choice = choice ∧
      normaliseToolChoice (toolChoiceToResponses choice) ≠ choice := by
  decide +kernel

end Tokn.Convert.Tools
