import Tokn.Convert.Accumulate

/-!
# Generations of the SDK

`crates/sdk/src/generate`: what a caller of the SDK gets of a generation. `response.rs` reads a whole
response. `stream.rs` reads the events of a response as they come, through an `SseAccumulator`, and
ends at the first of them that ends it.

The splitter of server-sent events is a third-party one; its frames are an input, each the data of an
event or the text of an error. `fromStr` is the parser of `serde_json`, whose errors are not told apart.
-/

namespace Tokn.Sdk

open Tokn.Convert (Endpoint IrDelta SseAccumulator usageFromOpenai)
open Tokn.Convert.Responses (isToolCallType)

/-! ## Responses -/

structure Usage where
  inputTokens : Option Nat := none
  outputTokens : Option Nat := none
  totalTokens : Option Nat := none
  inputTokensDetails : Option Value := none
  outputTokensDetails : Option Value := none
  extras : BTreeMap String Value := []
  deriving DecidableEq

namespace Usage

/-- The keys with a field of their own. -/
def keys : List String :=
  ["input_tokens", "prompt_tokens", "output_tokens", "completion_tokens", "total_tokens",
    "input_tokens_details", "prompt_tokens_details", "output_tokens_details",
    "completion_tokens_details"]

def fromValue (value : Value) : Usage :=
  match value.asObject with
  | none => {}
  | some object =>
    { inputTokens :=
        (object.get "input_tokens" <|> object.get "prompt_tokens").bind Value.asU64
      outputTokens :=
        (object.get "output_tokens" <|>
          object.get "completion_tokens").bind Value.asU64
      totalTokens := (object.get "total_tokens").bind Value.asU64
      inputTokensDetails :=
        object.get "input_tokens_details" <|> object.get "prompt_tokens_details"
      outputTokensDetails :=
        BTreeMap.get object "output_tokens_details" <|>
          BTreeMap.get object "completion_tokens_details"
      extras := keys.foldl BTreeMap.erase object }

def fromIr (usage : Convert.Usage) : Usage where
  inputTokens := usage.inputTokens
  outputTokens := usage.outputTokens
  totalTokens := usage.totalTokens
  inputTokensDetails := usage.inputTokensDetails
  outputTokensDetails := usage.outputTokensDetails
  extras := usage.extras

end Usage

structure ToolCall where
  id : Option String
  name : String
  arguments : Value
  deriving DecidableEq

def outputItems (response : Value) : List Value := ((response.get "output").bind Value.asArray).getD []

def contentParts (item : Value) : List Value := ((item.get "content").bind Value.asArray).getD []

def outputText (response : Value) : String :=
  match (response.str "output_text").filter fun text => text ≠ "" with
  | some text => text
  | none =>
    let messages := (outputItems response).filter fun item => item.str "type" = some "message"
    String.join (((messages.flatMap contentParts).filter fun part =>
      part.str "type" = some "output_text" ∨ part.str "type" = some "text").filterMap
        fun part => part.str "text")

/-- The text of a part of reasoning. -/
def partText (part : Value) : Option String :=
  (part.get "text" <|> part.get "summary").bind Value.asStr

def collectReasoningParts : Option Value → List String
  | some (.array parts) => parts.filterMap partText
  | some (.object part) => (partText (.object part)).toList
  | some (.string text) => [text]
  | _ => []

/-- The reasoning of an output item. -/
def itemReasoning (item : Value) : List String :=
  match item.str "type" with
  | some "reasoning" =>
    collectReasoningParts (item.get "content") ++ collectReasoningParts (item.get "summary")
  | some "message" =>
    ((contentParts item).filter fun part => part.str "type" = some "reasoning").flatMap
      fun part => collectReasoningParts (some part)
  | _ => []

def outputReasoning (response : Value) : Option String :=
  let reasoning := String.join ((outputItems response).flatMap itemReasoning)
  if reasoning = "" then none else some reasoning

section

variable (fromStr : String → Option Value)

def decodeArguments : Value → Value
  | .string arguments => (fromStr arguments).getD (.string arguments)
  | value => value

/-- A call, as an output item shows it. -/
def itemToolCall (item : Value) : ToolCall where
  id := (item.get "call_id" <|> item.get "id").bind Value.asStr
  name := (item.str "name").getD ""
  arguments := decodeArguments fromStr ((item.get "arguments" <|> item.get "input").getD .null)

def outputToolCalls (response : Value) : List ToolCall :=
  ((outputItems response).filter fun item => isToolCallType (item.str "type")).map
    (itemToolCall fromStr)

end

/-- The reason of an incomplete response. -/
def incompleteReason : String → String
  | "max_output_tokens" => "length"
  | other => other

def finishReason (response : Value) (hasToolCalls : Bool) : Option String :=
  match response.str "finish_reason" with
  | some reason => some reason
  | none =>
    match response.str "status" with
    | some "incomplete" =>
      some ((((response.pointer ["incomplete_details", "reason"]).bind Value.asStr).map
        incompleteReason).getD "incomplete")
    | some "completed" => some (if hasToolCalls then "tool_calls" else "stop")
    | some "failed" => some "error"
    | some status => some status
    | none => if hasToolCalls then some "tool_calls" else none

/-- A `GenerateResponse`, without the HTTP status and the headers. -/
structure GenerateResponse where
  id : Option String
  model : Option String
  status : Option String
  finishReason : Option String
  text : String
  reasoning : Option String
  toolCalls : List ToolCall
  usage : Option Usage
  raw : Value
  deriving DecidableEq

def GenerateResponse.fromRaw (fromStr : String → Option Value) (raw : Value) : GenerateResponse :=
  let calls := outputToolCalls fromStr raw
  { id := raw.str "id"
    model := raw.str "model"
    status := raw.str "status"
    finishReason := Sdk.finishReason raw !calls.isEmpty
    text := outputText raw
    reasoning := outputReasoning raw
    toolCalls := calls
    usage := ((raw.get "usage").filter fun usage => usage.asObject.isSome).map Usage.fromValue
    raw := raw }

/-! ## Events -/

inductive GenerateEvent where
  | textDelta (text : String)
  | reasoningDelta (text : String)
  | toolCallDelta (index : Nat) (id name : Option String) (argumentsDelta : String)
  | usage (usage : Usage)
  | completed (finishReason : Option String)
  | other (kind : String) (data : Value)
  deriving DecidableEq

/-- The errors of a stream. -/
inductive Error where
  | deserializeStreamEvent
  | generateStream (message : String)
  deriving DecidableEq

def isTerminalValue (value : Value) : Bool :=
  match value.str "type" with
  | some "response.completed" | some "response.incomplete" | some "response.failed"
  | some "response.cancelled" | some "error" => true
  | _ => false

def toolCallStarted (value : Value) : Option GenerateEvent :=
  if value.str "type" = some "response.output_item.added" then
    ((value.get "item").filter fun item => isToolCallType (item.str "type")).map fun item =>
      .toolCallDelta ((value.u64 "output_index").getD 0)
        ((item.get "call_id" <|> item.get "id").bind Value.asStr) (item.str "name")
        (((item.get "arguments" <|> item.get "input").bind Value.asStr).getD "")
  else none

def streamErrorMessage (value : Value) : String :=
  ((value.pointer ["error", "message"] <|> value.pointer ["response", "error", "message"]).bind
    Value.asStr).getD value.toText

def responseHasToolCalls (response : Value) : Bool :=
  (outputItems response).any fun item => isToolCallType (item.str "type")

def eventFromDelta : IrDelta → GenerateEvent
  | .text text => .textDelta text
  | .reasoning text => .reasoningDelta text
  | .toolCall index id name argumentsDelta => .toolCallDelta index id name argumentsDelta
  | .usage usage => .usage (.fromIr usage)
  | .finish finishReason => .completed finishReason

/-- The event of a delta, with the reason that the response itself gives. -/
def completedEvent (completionReason : Option String) : IrDelta → GenerateEvent
  | .finish reason => .completed (if completionReason.isSome then completionReason else reason)
  | delta => eventFromDelta delta

/-- The kinds of event that end a response which is not failed. -/
def isCompletion (kind : String) : Bool :=
  kind = "response.completed" || kind = "response.incomplete" || kind = "response.cancelled"

/-- The results of a value whose deltas are known. -/
def resultsOf (value : Value) (deltas : List IrDelta) : List (Except Error GenerateEvent) :=
  let kind := (value.str "type").getD ""
  let completionReason :=
    (if isCompletion kind then value.get "response" else none).bind fun response =>
      finishReason response (responseHasToolCalls response)
  if kind = "response.failed" ∨ kind = "error" then
    [.error (.generateStream (streamErrorMessage value))]
  else if kind = "response.incomplete" ∨ kind = "response.cancelled" then
    (((value.get "response").bind usageFromOpenai).map fun usage =>
      .ok (.usage (.fromIr usage))).toList ++
      [.ok (.completed (completionReason <|> some ((Str.stripPrefix "response." kind.toList).elim
        kind String.ofList)))]
  else match toolCallStarted value with
    | some event => [.ok event]
    | none =>
      if deltas = [] then [.ok (.other kind value)]
      else deltas.map fun delta => .ok (completedEvent completionReason delta)

def resultsFromValue (accumulator : SseAccumulator) (value : Value) :
    SseAccumulator × List (Except Error GenerateEvent) :=
  let (accumulator, deltas) := accumulator.pushValue value
  (accumulator, resultsOf value deltas)

/-! ## The stream -/

/-- What the splitter gives: the data of an event, or the text of an error. -/
abbrev Frame := Except String String

structure EventParseState where
  events : List Frame
  accumulator : SseAccumulator := .new .responses
  pending : List (Except Error GenerateEvent) := []
  stopAfterPending : Bool := false

namespace EventParseState

def new (events : List Frame) : EventParseState := { events := events }

/-- The loop of `enqueue`: nothing is queued behind an error. -/
def pushResults (st : EventParseState) : List (Except Error GenerateEvent) → EventParseState
  | [] => st
  | .ok event :: results => pushResults { st with pending := st.pending ++ [.ok event] } results
  | .error e :: _ => { st with pending := st.pending ++ [.error e], stopAfterPending := true }

def enqueue (st : EventParseState) (results : List (Except Error GenerateEvent)) (terminal : Bool) :
    EventParseState :=
  { st with stopAfterPending := st.stopAfterPending || terminal }.pushResults results

def fail (st : EventParseState) (error : Error) : EventParseState := st.enqueue [.error error] true

variable (fromStr : String → Option Value)

/-- What the loop of `parse_events` does with what the splitter answers. -/
def receive (st : EventParseState) : Option Frame → EventParseState
  | some (.ok data) =>
    if Str.trim data = "" then st
    else if Str.trim data = "[DONE]" then { st with stopAfterPending := true }
    else match fromStr data with
      | some value =>
        let (accumulator, results) := resultsFromValue st.accumulator value
        { st with accumulator := accumulator }.enqueue results (isTerminalValue value)
      | none => st.fail .deserializeStreamEvent
  | some (.error message) => st.fail (.generateStream message)
  | none => st.fail (.generateStream "generation stream ended before a terminal event")

/-- The result in front of the queue. -/
def popFront (st : EventParseState) : Option (Except Error GenerateEvent × EventParseState) :=
  match st.pending with
  | [] => none
  | result :: pending => some (result, { st with pending := pending })

/-- The loop from an empty queue on, until there is a result or the stream is over. -/
def fill (st : EventParseState) : List Frame → EventParseState
  | [] => { st with events := [] }.receive fromStr none
  | frame :: events =>
    let st := { st with events := events }.receive fromStr (some frame)
    if st.pending = [] ∧ st.stopAfterPending = false then fill st events else st

/-- The closure of `parse_events`: the next item, unless the stream is over. -/
def next (st : EventParseState) : Option (Except Error GenerateEvent × EventParseState) :=
  match st.popFront with
  | some r => some r
  | none => if st.stopAfterPending then none else (st.fill fromStr st.events).popFront

/-- The items of the first `n` polls. -/
def take (st : EventParseState) : Nat → List (Except Error GenerateEvent)
  | 0 => []
  | n + 1 =>
    match st.next fromStr with
    | none => []
    | some (result, st) => result :: take st n

end EventParseState

/-- The items that `parse_events` has given after `n` polls. -/
def parseEvents (fromStr : String → Option Value) (events : List Frame) (n : Nat) :
    List (Except Error GenerateEvent) :=
  (EventParseState.new events).take fromStr n

/-- `text_only`: the texts, and the errors. -/
def textOnly (items : List (Except Error GenerateEvent)) : List (Except Error String) :=
  items.filterMap fun
    | .ok (.textDelta text) => some (.ok text)
    | .ok _ => none
    | .error e => some (.error e)

end Tokn.Sdk
