import Tokn.Convert.Arguments
import Tokn.Convert.Responses
import Tokn.Convert.Messages

/-!
# Reading responses

`response_from_value` of the three dialects (`crates/convert/src/value`): a buffered upstream
response to the endpoint-neutral one. Chat Completions and Responses deliver the arguments of a call
as a string and Messages delivers the value itself.
-/

namespace Tokn.Convert

open Value JsonText

/-- `get(k).and_then(Value::as_str).unwrap_or_default()`. -/
def strOrEmpty (v : Value) (k : String) : String := (v.str k).getD ""

/-- The elements of an array field, and none where it is not an array. -/
def elements (v : Value) (k : String) : List Value := ((v.get k).bind asArray).getD []

theorem elements_of_get {v : Value} {k : String} {xs : List Value}
    (h : v.get k = some (.array xs)) : elements v k = xs := by
  rw [elements, h]
  rfl

theorem str_of_get {v : Value} {k s : String} (h : v.get k = some (.string s)) :
    v.str k = some s := by
  rw [str, h]
  rfl

namespace Chat

def partFromChat (v : Value) : ContentPart :=
  if v.str "type" = some "text" then .text (strOrEmpty v "text") else .raw v

def contentFromChat : Option Value → List ContentPart
  | some (.string s) => [.text s]
  | some (.array parts) => parts.map partFromChat
  | some .null | none => []
  | some v => [.raw v]

/-- The arguments of a call as they are on the wire. -/
def wireArguments (call : Value) : Value :=
  ((call.get "function").bind fun f => f.get "arguments").getD .null

def toolCallFromChat (floats : FloatReader) (call : Value) : ToolCall where
  id := call.str "id"
  name := ((call.get "function").bind fun f => f.str "name").getD ""
  arguments := parseArgs floats (wireArguments call)

/-- The message of a choice, or its delta where it has none. -/
def choiceMessage (choice : Value) : Value :=
  (choice.get "message").getD ((choice.get "delta").getD .null)

/-- The reasoning of a message. -/
def reasoningContent (msg : Value) : List ContentPart :=
  ((msg.str "reasoning_content").map ContentPart.reasoning).toList

def responseFromValue (floats : FloatReader) (v : Value) : Except ConvertError IrResponse :=
  match firstChoice v with
  | none => .error (.missingField "choices")
  | some choice =>
    let msg := choiceMessage choice
    .ok {
      id := v.str "id"
      model := v.str "model"
      role := (msg.str "role").map Role.fromWire
      content := contentFromChat (msg.get "content") ++ reasoningContent msg
      toolCalls := (elements msg "tool_calls").map (toolCallFromChat floats)
      usage := usageFromOpenai v
      finishReason := choice.str "finish_reason" }

end Chat

namespace Responses

/-- One part of a message item. -/
def partFromResponses (part : Value) : ContentPart :=
  match part.str "type" with
  | some "output_text" | some "text" => .text (strOrEmpty part "text")
  | some "reasoning" =>
    .reasoning (((part.get "summary" <|> part.get "text").bind asStr).getD "")
  | _ => .raw part

/-- The content parts of an output item. -/
def contentOfItem (item : Value) : List ContentPart :=
  if item.str "type" = some "message" then (elements item "content").map partFromResponses else []

/-- The arguments of a call as they are on the wire. -/
def wireArguments (item : Value) : Value := (item.get "arguments").getD .null

/-- The call of a function call item. -/
def toolCallFromItem (floats : FloatReader) (item : Value) : ToolCall where
  id := (item.get "call_id" <|> item.get "id").bind asStr
  name := strOrEmpty item "name"
  arguments := (((item.get "arguments").bind asStr).bind (fromStr floats)).getD (wireArguments item)

/-- The calls of an output item. -/
def toolCallsOfItem (floats : FloatReader) (item : Value) : List ToolCall :=
  if item.str "type" = some "function_call" then [toolCallFromItem floats item] else []

/-- The finish reason of a response, from its status. -/
def finishReasonOf (v : Value) : Option String :=
  match v.str "status" with
  | some "incomplete" =>
    match (v.pointer ["incomplete_details", "reason"]).bind asStr with
    | some "max_output_tokens" => some "length"
    | some reason => some reason
    | none => some "incomplete"
  | some "completed" => some (completedFinishReason v)
  | status => status

/-- `response_from_value`, which never fails. -/
def responseFromValue (floats : FloatReader) (v : Value) : Except ConvertError IrResponse :=
  .ok {
    id := v.str "id"
    model := v.str "model"
    role := some .assistant
    content := ((v.str "output_text").map ContentPart.text).toList ++
      (elements v "output").flatMap contentOfItem
    toolCalls := (elements v "output").flatMap (toolCallsOfItem floats)
    usage := usageFromOpenai v
    finishReason := finishReasonOf v }

end Responses

namespace Messages

/-- The text of a thinking block. -/
def thinkingText (part : Value) : String :=
  ((part.get "thinking" <|> part.get "text").bind asStr).getD ""

/-- The call of a `tool_use` block. -/
def toolCallFromBlock (part : Value) : ToolCall where
  id := part.str "id"
  name := strOrEmpty part "name"
  arguments := (part.get "input").getD .null

/-- The content parts of a response block. A `tool_use` block is no part of the content. -/
def contentOfBlock (part : Value) : List ContentPart :=
  match part.str "type" with
  | some "text" => [.text (strOrEmpty part "text")]
  | some "thinking" | some "redacted_thinking" => [.reasoning (thinkingText part)]
  | some "tool_use" => []
  | _ => [.raw part]

/-- The calls of a response block. -/
def toolCallsOfBlock (part : Value) : List ToolCall :=
  if part.str "type" = some "tool_use" then [toolCallFromBlock part] else []

/-- The usage of a response. -/
def usageFromMessages (u : Value) : Usage where
  inputTokens := u.u64 "input_tokens"
  outputTokens := u.u64 "output_tokens"
  extras := usageExtras u ["input_tokens", "output_tokens"]

/-- `response_from_value`, which never fails. -/
def responseFromValue (v : Value) : Except ConvertError IrResponse :=
  .ok {
    id := v.str "id"
    model := v.str "model"
    role := (v.str "role").map Role.fromWire
    content := (elements v "content").flatMap contentOfBlock
    toolCalls := (elements v "content").flatMap toolCallsOfBlock
    usage := (v.get "usage").map usageFromMessages
    finishReason := (v.str "stop_reason").map finishReasonFromMessages }

end Messages

end Tokn.Convert
