import Tokn.Lib.Json
import Tokn.Lib.Str

/-!
# Server-sent events

`crates/convert/src/sse/event.rs`: an event name, the data of the event, and the JSON value the
data parses to when it is neither empty nor the `[DONE]` sentinel.
-/

namespace Tokn.Convert

structure SseEvent where
  event : Option String
  data : String
  json : Option Value
  deriving DecidableEq

namespace SseEvent

/-- `SseEvent::raw`, over the parser of `serde_json`. -/
def raw (fromStr : String → Option Value) (event : Option String) (data : String) : SseEvent :=
  let payload := Str.trim data
  { event := event
    data := data
    json := if payload = "" ∨ payload = "[DONE]" then none else fromStr payload }

/-- `SseEvent::json`. -/
def ofJson (event : Option String) (value : Value) : SseEvent where
  event := event
  data := value.toText
  json := some value

def done : SseEvent where
  event := none
  data := "[DONE]"
  json := none

def isDone (e : SseEvent) : Bool := Str.trim e.data = "[DONE]"

/-- A string field of an event's JSON value. -/
def str (e : SseEvent) (k : String) : Option String := e.json.bind fun v => v.str k

/-- An integer field of an event's JSON value. -/
def u64 (e : SseEvent) (k : String) : Option Nat := e.json.bind fun v => v.u64 k

@[simp] theorem isDone_done : isDone done = true := by decide

variable (event : Option String)

@[simp] theorem json_ofJson (v : Value) : (ofJson event v).json = some v := rfl

theorem str_ofJson (v : Value) (k : String) : (ofJson event v).str k = v.str k := rfl

theorem u64_ofJson (v : Value) (k : String) : (ofJson event v).u64 k = v.u64 k := rfl

/-- The text of an object starts with its brace. -/
theorem head?_trim_toText_obj (fields : List (String × Value)) :
    (Str.trimChars (Value.obj fields).toText.toList).head? = some '{' := by
  have : (Value.obj fields).toText.toList =
      '{' :: (",".intercalate (Value.textFields (BTreeMap.extend [] fields)) ++ "\x7d").toList := by
    rw [Value.obj, Value.toText, String.append_assoc, String.toList_append]
    rfl
  rw [this]
  exact Str.head?_trimChars (by decide)

/-- An object is never serialized to the sentinel, which starts with a bracket. -/
theorem isDone_ofJson_obj (fields : List (String × Value)) :
    isDone (ofJson event (.obj fields)) = false := by
  refine decide_eq_false fun h => ?_
  have := congrArg (fun s : String => s.toList.head?) h
  simp only [Str.trim, ofJson, String.toList_ofList, head?_trim_toText_obj] at this
  exact absurd this (by decide)

end SseEvent

end Tokn.Convert
