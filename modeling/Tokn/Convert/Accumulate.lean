import Tokn.Convert.Responses
import Tokn.Convert.Messages
import Tokn.Convert.SseEvent

/-!
# The stream accumulator

`crates/convert/src/sse/accumulate.rs`: `SseAccumulator` decodes one upstream event at a time
into deltas, remembers what later events of the stream refer back to (the response id and model,
the output items of a Responses stream, the tool blocks of a Messages stream), and folds the
deltas into a buffered response.
-/

namespace Tokn.Convert

open Value

structure ResponseOutputItem where
  itemType : Option String := none
  id : Option String := none
  callId : Option String := none
  name : Option String := none
  status : Option String := none
  text : String := ""
  reasoningSummary : BTreeMap Nat String := []
  reasoningContent : BTreeMap Nat String := []
  arguments : String := ""
  deriving DecidableEq, Inhabited

structure ResponsesState where
  responseId : Option String := none
  model : Option String := none
  outputItems : BTreeMap Nat ResponseOutputItem := []
  deriving DecidableEq

structure MessagesState where
  toolArgumentsSeen : BTreeMap Nat Bool := []
  deriving DecidableEq

structure SseMetadata where
  responseId : Option String
  model : Option String
  deriving DecidableEq

structure SseAccumulator where
  endpoint : Endpoint
  response : IrResponse := {}
  responses : ResponsesState := {}
  messages : MessagesState := {}
  deriving DecidableEq

def ResponsesState.hasToolCall (s : ResponsesState) : Bool :=
  s.outputItems.any fun e => Responses.isToolCallType e.2.itemType

/-- Keep the first id and the first model seen. -/
def ResponsesState.observe (s : ResponsesState) (value : Value) : ResponsesState :=
  { s with responseId := s.responseId <|> value.str "id"
           model := s.model <|> value.str "model" }

namespace SseAccumulator

def new (endpoint : Endpoint) : SseAccumulator := { endpoint := endpoint }

def metadata (acc : SseAccumulator) : SseMetadata where
  responseId := acc.responses.responseId
  model := acc.responses.model

def responsesCompletedFinishReason (acc : SseAccumulator) (value : Option Value) : String :=
  if ((value.bind fun event => event.get "response").any Responses.responseHasToolCallOutput) ||
      acc.responses.hasToolCall then "tool_calls"
  else "stop"

/-! ## Chat Completions and Messages upstreams -/

def observeChatChunk (acc : SseAccumulator) (value : Value) : SseAccumulator :=
  { acc with responses := acc.responses.observe value }

def observeMessagesEvent (acc : SseAccumulator) (value : Value) : SseAccumulator :=
  if value.str "type" = some "message_start" then
    match value.get "message" with
    | some message => { acc with responses := acc.responses.observe message }
    | none => acc
  else acc

/-- Whether a decoded delta carries argument text. -/
def argumentsSeen (deltas : List IrDelta) : Bool :=
  deltas.any fun
    | .toolCall _ _ _ argumentsDelta => argumentsDelta != ""
    | _ => false

/-- `delta_from_messages_event` of the accumulator: a tool block that closes without ever having
had arguments gets the empty object. -/
def deltaFromMessagesEvent (acc : SseAccumulator) (value : Value) :
    SseAccumulator × List IrDelta :=
  let deltas := Messages.deltaFromMessagesEvent value
  let index := (value.u64 "index").getD 0
  let seen := acc.messages.toolArgumentsSeen
  let setSeen m := { acc with messages := { toolArgumentsSeen := m } }
  match value.str "type" with
  | some "content_block_start" =>
    if ((value.get "content_block").bind fun block => block.str "type") = some "tool_use" then
      (setSeen (seen.insert index (argumentsSeen deltas)), deltas)
    else (acc, deltas)
  | some "content_block_delta" =>
    if argumentsSeen deltas then (setSeen (seen.insert index true), deltas)
    else (acc, deltas)
  | some "content_block_stop" =>
    (setSeen (seen.erase index),
      if seen.get index = some false then deltas ++ [.toolCall index none none "\x7b\x7d"]
      else deltas)
  | _ => (acc, deltas)

/-! ## Responses upstreams -/

def observeResponsesResponse (acc : SseAccumulator) (value : Value) : SseAccumulator :=
  match value.get "response" with
  | none => acc
  | some response =>
    let acc := { acc with responses := acc.responses.observe response }
    match usageFromOpenai response with
    | some usage =>
      { acc with response :=
          { acc.response with usage := some (mergeUsage acc.response.usage usage) } }
    | none => acc

/-- An output item after an `added` or `done` event about it: fields already known are kept. -/
def ResponseOutputItem.observe (entry : ResponseOutputItem) (value item : Value) :
    ResponseOutputItem :=
  { entry with
    itemType := entry.itemType <|> item.str "type"
    status := entry.status <|> item.str "status"
    id := entry.id <|> (item.get "id" <|> value.get "item_id").bind asStr
    callId := entry.callId <|> item.str "call_id"
    name := entry.name <|> item.str "name"
    arguments := ((item.get "arguments" <|> item.get "input").bind asStr).getD entry.arguments }

def observeResponsesOutputItem (acc : SseAccumulator) (value : Value) : SseAccumulator :=
  if value.str "type" = some "response.output_item.added" ∨
      value.str "type" = some "response.output_item.done" then
    match value.u64 "output_index", value.get "item" with
    | some index, some item =>
      { acc with responses := { acc.responses with
          outputItems := acc.responses.outputItems.modify index fun entry =>
            ResponseOutputItem.observe entry value item } }
    | _, _ => acc
  else acc

/-- An output item after an event about one of its parts. -/
def ResponseOutputItem.observePart (entry : ResponseOutputItem) (value : Value) :
    ResponseOutputItem :=
  match value.str "type" with
  | some "response.output_text.done" => { entry with text := (value.str "text").getD entry.text }
  | some "response.reasoning_summary_text.done" =>
    match value.u64 "summary_index", value.str "text" with
    | some i, some text =>
      { entry with reasoningSummary := entry.reasoningSummary.insert i text }
    | _, _ => entry
  | some "response.function_call_arguments.done" | some "response.custom_tool_call_input.done" =>
    { entry with arguments :=
        ((value.get "arguments" <|> value.get "input").bind asStr).getD entry.arguments }
  | _ => entry

/-- `observe_responses_part`: only items already observed have parts. -/
def observeResponsesPart (acc : SseAccumulator) (value : Value) : SseAccumulator :=
  match value.u64 "output_index" with
  | none => acc
  | some index =>
    match acc.responses.outputItems.get index with
    | none => acc
    | some entry =>
      { acc with responses := { acc.responses with
          outputItems := acc.responses.outputItems.insert index
            (ResponseOutputItem.observePart entry value) } }

/-- An output item after one decoded delta of it. -/
def ResponseOutputItem.observeDelta (value : Value) (entry : ResponseOutputItem) :
    IrDelta → ResponseOutputItem
  | .text text => { entry with text := entry.text ++ text }
  | .reasoning text =>
    match value.str "type" with
    | some "response.reasoning_summary_text.delta" =>
      match value.u64 "summary_index" with
      | some i =>
        { entry with reasoningSummary :=
            entry.reasoningSummary.modify i fun buf => buf ++ text }
      | none => entry
    | some "response.reasoning_text.delta" =>
      match value.u64 "content_index" with
      | some i =>
        { entry with reasoningContent :=
            entry.reasoningContent.modify i fun buf => buf ++ text }
      | none => entry
    | _ => entry
  | .toolCall _ _ _ argumentsDelta => { entry with arguments := entry.arguments ++ argumentsDelta }
  | .usage _ | .finish _ => entry

def observeResponsesDeltas (acc : SseAccumulator) (value : Value) (deltas : List IrDelta) :
    SseAccumulator :=
  match value.u64 "output_index" with
  | none => acc
  | some index =>
    { acc with responses := { acc.responses with
        outputItems := acc.responses.outputItems.modify index fun entry =>
          deltas.foldl (ResponseOutputItem.observeDelta value) entry } }

/-- The finish reason of a completed response, from what the stream has shown so far. -/
def fillFinish (reason : String) : IrDelta → IrDelta
  | .finish _ => .finish (some reason)
  | delta => delta

/-- The id and name of a tool call delta, from the output item it belongs to. -/
def fillToolCall (items : BTreeMap Nat ResponseOutputItem) : IrDelta → IrDelta
  | .toolCall index id name argumentsDelta =>
    match items.get index with
    | some item =>
      .toolCall index (if item.callId.isSome then item.callId else id <|> item.id)
        (name <|> item.name) argumentsDelta
    | none => .toolCall index id name argumentsDelta
  | delta => delta

/-- `delta_from_responses_event` of the accumulator. -/
def deltaFromResponsesEvent (acc : SseAccumulator) (value : Value) :
    SseAccumulator × List IrDelta :=
  let acc := acc.observeResponsesResponse value
  let acc := acc.observeResponsesOutputItem value
  let acc := acc.observeResponsesPart value
  let deltas := Responses.deltaFromResponsesEvent value
  let acc := acc.observeResponsesDeltas value deltas
  let deltas :=
    if value.str "type" = some "response.completed" then
      deltas.map (fillFinish (acc.responsesCompletedFinishReason (some value)))
    else deltas
  (acc, deltas.map (fillToolCall acc.responses.outputItems))

/-! ## The accumulator -/

/-- The deltas of one event, before they are accumulated. -/
def decode (acc : SseAccumulator) (value : Value) : SseAccumulator × List IrDelta :=
  match acc.endpoint with
  | .chatCompletions => (acc.observeChatChunk value, Chat.deltaFromChatChunk value)
  | .responses => acc.deltaFromResponsesEvent value
  | .messages => (acc.observeMessagesEvent value).deltaFromMessagesEvent value

def pushValue (acc : SseAccumulator) (value : Value) : SseAccumulator × List IrDelta :=
  let (acc, deltas) := acc.decode value
  ({ acc with response := deltas.foldl IrResponse.pushDelta acc.response }, deltas)

def finish (acc : SseAccumulator) : IrResponse :=
  { acc.response with
    id := acc.response.id <|> acc.responses.responseId
    model := acc.response.model <|> acc.responses.model
    finishReason :=
      if acc.endpoint = .responses ∧ acc.response.finishReason = none ∧
          acc.responses.hasToolCall then some "tool_calls"
      else acc.response.finishReason }

end SseAccumulator

/-- The loop of `accumulate_bytes` over the events of a body: it stops at the sentinel and fails
at an event that is not JSON. -/
def accumulateFrom (acc : SseAccumulator) : List SseEvent → Except ConvertError IrResponse
  | [] => .ok acc.finish
  | event :: events =>
    if event.isDone then .ok acc.finish
    else match event.json with
      | none => .error (.sse "expected JSON SSE payload")
      | some value => accumulateFrom (acc.pushValue value).1 events

/-- `accumulate_bytes`, on the events its body is split into. -/
def accumulateEvents (endpoint : Endpoint) (events : List SseEvent) :
    Except ConvertError IrResponse :=
  accumulateFrom (.new endpoint) events

end Tokn.Convert
