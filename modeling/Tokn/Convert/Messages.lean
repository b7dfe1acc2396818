import Tokn.Convert.Ir

/-!
# Messages values

The response half of `crates/convert/src/value/messages.rs`: a stream event to deltas, deltas to
stream events, and a response to its wire form.
-/

namespace Tokn.Convert.Messages

open Value

def finishReasonFromMessages : String → String
  | "end_turn" | "stop_sequence" => "stop"
  | "max_tokens" => "length"
  | "tool_use" => "tool_calls"
  | other => other

def finishReasonToMessages : Option String → String
  | none | some "stop" | some "end_turn" | some "stop_sequence" => "end_turn"
  | some "length" | some "max_tokens" | some "max_output_tokens" => "max_tokens"
  | some "tool_calls" | some "tool_use" => "tool_use"
  | some other => other

def usageExtras (u : Value) (known : List String) : BTreeMap String Value :=
  (u.asObject.map fun o => extrasFromObject o known).getD []

/-- The arguments of a `tool_use` block: its input, unless that is an empty object. -/
def inputText (contentBlock : Value) : String :=
  match contentBlock.get "input" with
  | some (.object []) | none => ""
  | some input => input.toText

/-- The delta of a content block delta. -/
def contentDelta (v delta : Value) : List IrDelta :=
  match delta.str "type" with
  | some "text_delta" => ((delta.str "text").map IrDelta.text).toList
  | some "thinking_delta" => ((delta.str "thinking").map IrDelta.reasoning).toList
  | some "input_json_delta" =>
    [.toolCall ((v.u64 "index").getD 0) none none ((delta.str "partial_json").getD "")]
  | _ => []

def deltaFromMessagesEvent (v : Value) : List IrDelta :=
  match v.str "type" with
  | some "content_block_start" =>
    match v.get "content_block" with
    | some block =>
      if block.str "type" = some "tool_use" then
        [.toolCall ((v.u64 "index").getD 0) (block.str "id") (block.str "name") (inputText block)]
      else []
    | none => []
  | some "content_block_delta" => ((v.get "delta").map (contentDelta v)).getD []
  | some "message_delta" =>
    (((v.get "delta").bind fun d => d.str "stop_reason").map fun stop =>
      IrDelta.finish (some (finishReasonFromMessages stop))).toList ++
    ((v.get "usage").map fun u =>
      IrDelta.usage { outputTokens := u.u64 "output_tokens"
                      extras := usageExtras u ["output_tokens"] }).toList
  | some "message_start" =>
    (((v.get "message").bind fun m => m.get "usage").map fun u =>
      IrDelta.usage { inputTokens := u.u64 "input_tokens"
                      outputTokens := u.u64 "output_tokens"
                      extras := usageExtras u ["input_tokens", "output_tokens"] }).toList
  | _ => []

/-- A content block delta for the block of an index. -/
def blockDelta (index : Nat) (delta : List (String × Value)) : Value :=
  obj [("type", .string "content_block_delta"), ("index", nat index), ("delta", obj delta)]

def eventFromDelta : IrDelta → String × Value
  | .text text =>
    ("content_block_delta",
      blockDelta 0 [("type", .string "text_delta"), ("text", .string text)])
  | .reasoning text =>
    ("content_block_delta",
      blockDelta 0 [("type", .string "thinking_delta"), ("thinking", .string text)])
  | .toolCall index _ _ argumentsDelta =>
    ("content_block_delta",
      blockDelta index [("type", .string "input_json_delta"),
        ("partial_json", .string argumentsDelta)])
  | .usage usage =>
    ("message_delta",
      obj [("type", .string "message_delta"), ("delta", obj []),
        ("usage", .object ((BTreeMap.extend [] usage.extras).insert "output_tokens"
          (nat (usage.outputTokens.getD 0))))])
  | .finish reason =>
    ("message_delta",
      obj [("type", .string "message_delta"),
        ("delta", obj [("stop_reason", .string (finishReasonToMessages reason)),
          ("stop_sequence", .null)])])

/-- The body of the event that opens a message. -/
def messageStart (respId model : String) : Value :=
  obj [("type", .string "message_start"),
    ("message", obj [("id", .string respId), ("type", .string "message"),
      ("role", .string "assistant"), ("model", .string model), ("content", .array []),
      ("stop_reason", .null), ("stop_sequence", .null),
      ("usage", obj [("input_tokens", nat 0), ("output_tokens", nat 0)])])]

/-- The body of the event that closes a block. -/
def contentBlockStop (index : Nat) : Value :=
  obj [("type", .string "content_block_stop"), ("index", nat index)]

/-- The body of the event that closes a message. -/
def messageStop : Value := obj [("type", .string "message_stop")]

def eventsFromDeltas (respId model : String) (deltas : List IrDelta) (finish : Bool) :
    List (String × Value) :=
  if finish then
    ("message_start", messageStart respId model) :: deltas.map eventFromDelta ++
      [("content_block_stop", contentBlockStop 0), ("message_stop", messageStop)]
  else deltas.map eventFromDelta

/-- `response_to_value`, which never fails. -/
def responseToValue (resp : IrResponse) : Except ConvertError Value :=
  let text := textFromParts resp.content
  let content :=
    (if text = "" then [] else [obj [("type", .string "text"), ("text", .string text)]]) ++
    ((reasoningFromParts resp.content).map fun r =>
      obj [("type", .string "thinking"), ("thinking", .string r)]).toList ++
    resp.toolCalls.map fun call =>
      obj [("type", .string "tool_use"), ("id", .string (call.id.getD "toolu_converted")),
        ("name", .string call.name), ("input", call.arguments)]
  let usage := resp.usage.map fun u =>
    BTreeMap.insert (BTreeMap.insert (BTreeMap.extend [] u.extras) "input_tokens"
      (nat (u.inputTokens.getD 0))) "output_tokens" (nat (u.outputTokens.getD 0))
  .ok (obj ([("id", .string (resp.id.getD "msg_converted")), ("type", .string "message"),
      ("role", .string "assistant"), ("model", .string (resp.model.getD "")),
      ("content", .array content),
      ("stop_reason", .string (finishReasonToMessages resp.finishReason)),
      ("stop_sequence", .null)] ++
    (usage.map fun u => ("usage", Value.object u)).toList))

end Tokn.Convert.Messages
