import Tokn.Lib.Json

/-!
# Tool definitions and tool choices

`crates/convert/src/tools.rs`: the tools of the three dialects are brought into the shape of Chat
Completions, and rendered from it. What is not a function tool passes through unchanged.
-/

namespace Tokn.Convert

open Value

/-- Insert a value that may be absent. -/
def insertOpt (out : BTreeMap String Value) (key : String) : Option Value → BTreeMap String Value
  | some value => out.insert key value
  | none => out

theorem get_insertOpt (out : BTreeMap String Value) (key k : String) (value : Option Value) :
    (insertOpt out key value).get k =
      if k = key then value <|> out.get k else out.get k := by
  cases value with
  | none => split_ifs <;> rfl
  | some value =>
    rw [insertOpt, BTreeMap.get_insert]
    split_ifs <;> rfl

namespace Tools

/-- `insert_str`: only a string is copied. -/
def insertStr (out : BTreeMap String Value) (key : String) (src : Option Value) :
    BTreeMap String Value :=
  insertOpt out key ((src.bind asStr).map Value.string)

/-- `{"type": "function", "function": ..}`. -/
def functionTool (inner : BTreeMap String Value) : Value :=
  obj [("type", .string "function"), ("function", .object inner)]

/-- The `function` of a tool, if it is an object. -/
def functionOf (o : BTreeMap String Value) : Option (BTreeMap String Value) :=
  (o.get "function").bind asObject

def wrapFunction (o : BTreeMap String Value) : Value :=
  let inner := insertStr [] "name" (o.get "name")
  let inner := insertStr inner "description" (o.get "description")
  let inner := insertOpt inner "parameters" (o.get "parameters")
  functionTool (insertOpt inner "strict" (o.get "strict"))

def normaliseTool (value : Value) : Value :=
  match value with
  | .object o =>
    if (functionOf o).isSome then value
    -- the shape of Responses
    else if (BTreeMap.get o "type").bind asStr = some "function" ∧ BTreeMap.contains o "name" then
      wrapFunction o
    -- the shape of Messages
    else if BTreeMap.contains o "input_schema" ∧ BTreeMap.contains o "name" then
      let inner := insertStr [] "name" (BTreeMap.get o "name")
      let inner := insertStr inner "description" (BTreeMap.get o "description")
      functionTool (insertOpt inner "parameters" (BTreeMap.get o "input_schema"))
    -- a definition without an envelope
    else if BTreeMap.contains o "name" ∧
        (BTreeMap.contains o "parameters" ∨ BTreeMap.contains o "description") then
      wrapFunction o
    else value
  | _ => value

def normaliseTools (tools : List Value) : List Value := tools.map normaliseTool

def hasOnlyKeys (o : BTreeMap String Value) (allowed : List String) : Bool :=
  o.all fun e => allowed.contains e.1

def namedToolChoice (name : String) : Value :=
  obj [("type", .string "function"), ("function", obj [("name", .string name)])]

/-- A choice of a tool by name, if that is all it is. -/
def namedChoiceOf (value : Value) (o : BTreeMap String Value) : Value :=
  if hasOnlyKeys o ["type", "name"] then
    (((o.get "name").bind asStr).map namedToolChoice).getD value
  else value

def normaliseToolChoice (value : Value) : Value :=
  match value with
  | .object o =>
    match (BTreeMap.get o "type").bind asStr with
    | some "auto" => if hasOnlyKeys o ["type"] then .string "auto" else value
    | some "none" => if hasOnlyKeys o ["type"] then .string "none" else value
    | some "any" | some "required" => if hasOnlyKeys o ["type"] then .string "required" else value
    | some "tool" => namedChoiceOf value o
    | some "function" => if (functionOf o).isSome then value else namedChoiceOf value o
    | _ => value
  | _ => value

def namedToolChoiceName (value : Value) : Option String :=
  (((value.get "function").bind asObject).bind fun f => f.get "name").bind asStr

def toolChoiceToChat (value : Value) : Value := normaliseToolChoice value

def toolChoiceToResponses (value : Value) : Value :=
  let choice := normaliseToolChoice value
  match namedToolChoiceName choice with
  | some name => obj [("type", .string "function"), ("name", .string name)]
  | none => choice

def toolChoiceToMessages (value : Value) : Value :=
  let choice := normaliseToolChoice value
  match namedToolChoiceName choice with
  | some name => obj [("type", .string "tool"), ("name", .string name)]
  | none =>
    match choice.asStr with
    | some "auto" => obj [("type", .string "auto")]
    | some "none" => obj [("type", .string "none")]
    | some "required" => obj [("type", .string "any")]
    | _ => choice

def toolToResponses (value : Value) : Value :=
  match value.asObject.bind functionOf with
  | none => value
  | some func =>
    let out := BTreeMap.insert [] "type" (.string "function")
    let out := insertStr out "name" (func.get "name")
    let out := insertStr out "description" (func.get "description")
    let out := insertOpt out "parameters" (func.get "parameters")
    .object (insertOpt out "strict" (func.get "strict"))

/-- The schema of a tool without parameters. -/
def emptySchema : Value := obj [("type", .string "object"), ("properties", obj [])]

def toolToMessages (value : Value) : Value :=
  match value.asObject.bind functionOf with
  | none => value
  | some func =>
    let out := insertStr [] "name" (func.get "name")
    let out := insertStr out "description" (func.get "description")
    .object (out.insert "input_schema" ((func.get "parameters").getD emptySchema))

end Tools

end Tokn.Convert
