import Tokn.Convert.Ir

/-!
# Chat Completions values

The response half of `crates/convert/src/value/chat.rs`: a stream chunk to deltas, deltas to
stream chunks, and a response to its wire form. Only the first choice of a chunk is decoded.
-/

namespace Tokn.Convert.Chat

open Value

def argsToString (args : Value) : String := args.asStr.getD args.toText

/-- The first choice of a chunk. -/
def firstChoice (v : Value) : Option Value := ((v.get "choices").bind asArray).bind List.head?

/-- One entry of `delta.tool_calls`. -/
def toolCallDelta (call : Value) : IrDelta :=
  .toolCall ((call.u64 "index").getD 0) (call.str "id")
    ((call.get "function").bind fun f => f.str "name")
    (((call.get "function").bind fun f => f.str "arguments").getD "")

/-- The deltas of a choice's `delta`. -/
def choiceDeltas (delta : Value) : List IrDelta :=
  ((delta.str "content").map IrDelta.text).toList ++
    ((delta.str "reasoning_content").map IrDelta.reasoning).toList ++
    (((delta.get "tool_calls").bind asArray).getD []).map toolCallDelta

/-- The finish delta of a choice whose `finish_reason` is not null. -/
def finishDelta (choice : Value) : List IrDelta :=
  match choice.get "finish_reason" with
  | some reason => if reason.isNull then [] else [.finish reason.asStr]
  | none => []

def deltaFromChatChunk (v : Value) : List IrDelta :=
  let usage := ((usageFromOpenai v).map IrDelta.usage).toList
  match firstChoice v with
  | none => usage
  | some choice =>
    ((choice.get "delta").map choiceDeltas).getD [] ++ finishDelta choice ++ usage

/-- The chunk with the given choices. -/
def chunk (respId model : String) (choices : List Value) : List (String × Value) :=
  [("id", .string respId), ("object", .string "chat.completion.chunk"),
    ("model", .string model), ("choices", .array choices)]

/-- The chunk whose only choice has the given delta and finish reason. -/
def choiceChunk (respId model : String) (delta finishReason : Value) : Value :=
  obj (chunk respId model
    [obj [("index", nat 0), ("delta", delta), ("finish_reason", finishReason)]])

def chunkFromDelta (respId model : String) : IrDelta → Value
  | .text text => choiceChunk respId model (obj [("content", .string text)]) .null
  | .reasoning text => choiceChunk respId model (obj [("reasoning_content", .string text)]) .null
  | .toolCall index id name argumentsDelta =>
    choiceChunk respId model
      (obj [("tool_calls", .array [obj [("index", nat index), ("id", optString id),
        ("type", .string "function"),
        ("function", obj [("name", optString name), ("arguments", .string argumentsDelta)])]])])
      .null
  | .usage usage => obj (chunk respId model [] ++ [("usage", usageToChat usage)])
  | .finish reason => choiceChunk respId model (obj []) (.string (reason.getD "stop"))

def chunkFromDeltas (respId model : String) (deltas : List IrDelta) (finish : Bool) : List Value :=
  deltas.map (chunkFromDelta respId model) ++
    if finish then [choiceChunk respId model (obj []) (.string "stop")] else []

def toolCallToChat (index : Nat) (call : ToolCall) : Value :=
  obj [("index", nat index), ("id", .string (call.id.getD s!"call_{index}")),
    ("type", .string "function"),
    ("function", obj [("name", .string call.name),
      ("arguments", .string (argsToString call.arguments))])]

/-- `response_to_value`, which never fails. -/
def responseToValue (resp : IrResponse) : Except ConvertError Value :=
  let msg := [("role", .string (resp.role.getD .assistant).asStr),
      ("content", .string (textFromParts resp.content))] ++
    ((reasoningFromParts resp.content).map fun r => ("reasoning_content", .string r)).toList ++
    if resp.toolCalls = [] then []
    else [("tool_calls", .array (resp.toolCalls.mapIdx toolCallToChat))]
  .ok (obj ([("id", .string (resp.id.getD "chatcmpl-converted")),
      ("object", .string "chat.completion"), ("model", .string (resp.model.getD "")),
      ("choices", .array [obj [("index", nat 0), ("message", obj msg),
        ("finish_reason", .string (resp.finishReason.getD "stop"))]])] ++
    (resp.usage.map fun u => ("usage", usageToChat u)).toList))

end Tokn.Convert.Chat
