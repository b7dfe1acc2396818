import Tokn.Convert.Chat

/-!
# Responses values

The response half of `crates/convert/src/value/responses.rs`: a stream event to deltas, and a
response to its wire form.
-/

namespace Tokn.Convert.Responses

open Value

/-- The item types that are tool calls. -/
def isToolCallType : Option String → Bool
  | some "function_call" | some "custom_tool_call" => true
  | _ => false

def responseHasToolCallOutput (response : Value) : Bool :=
  match (response.get "output").bind asArray with
  | some output => output.any fun item => isToolCallType (item.str "type")
  | none => false

def completedFinishReason (response : Value) : String :=
  if responseHasToolCallOutput response then "tool_calls" else "stop"

def deltaFromResponsesEvent (v : Value) : List IrDelta :=
  match v.str "type" with
  | some "response.output_text.delta" => ((v.str "delta").map IrDelta.text).toList
  | some "response.reasoning_summary_text.delta" | some "response.reasoning_text.delta" =>
    ((v.str "delta").map IrDelta.reasoning).toList
  | some "response.function_call_arguments.delta"
  | some "response.custom_tool_call_input.delta" =>
    [.toolCall ((v.u64 "output_index").getD 0)
      ((v.get "call_id" <|> v.get "item_id").bind asStr) none ((v.str "delta").getD "")]
  | some "response.completed" =>
    (((v.get "response").bind usageFromOpenai).map IrDelta.usage).toList ++
      [.finish (some (((v.get "response").map completedFinishReason).getD "stop"))]
  | _ => []

/-- The message item of a response, when it has text or reasoning. -/
def messageItem (id : String) (parts : List ContentPart) : List Value :=
  let text := textFromParts parts
  let content :=
    (if text = "" then [] else
      [obj [("type", .string "output_text"), ("text", .string text), ("annotations", .array [])]])
    ++ ((reasoningFromParts parts).map fun r =>
      obj [("type", .string "reasoning"), ("summary", .string r)]).toList
  if content = [] then []
  else [obj [("type", .string "message"), ("id", .string ("msg_" ++ id)),
    ("status", .string "completed"), ("role", .string "assistant"), ("content", .array content)]]

def functionCallItem (call : ToolCall) : Value :=
  obj [("type", .string "function_call"), ("id", .string (call.id.getD "fc_converted")),
    ("call_id", .string (call.id.getD "call_converted")), ("name", .string call.name),
    ("arguments", .string (Chat.argsToString call.arguments)), ("status", .string "completed")]

/-- `response_to_value`, which never fails. -/
def responseToValue (resp : IrResponse) : Except ConvertError Value :=
  let id := resp.id.getD "resp_converted"
  let status := responsesCompletionStatus resp.finishReason
  .ok (obj ([("id", .string id), ("object", .string "response"), ("status", .string status.1),
      ("model", .string (resp.model.getD "")),
      ("output", .array (messageItem id resp.content ++ resp.toolCalls.map functionCallItem)),
      ("output_text", .string (textFromParts resp.content))] ++
    (resp.usage.map fun u => ("usage", usageToIo u)).toList ++
    (status.2.map fun reason => ("incomplete_details", obj [("reason", .string reason)])).toList))

end Tokn.Convert.Responses
