import Tokn.Convert.Ir
import Tokn.Convert.SseEvent

/-!
# The Responses emitter

`crates/convert/src/sse/responses_emit.rs`: the state machine that turns deltas into the
lifecycle of a Responses stream. At most one output item is open. A delta that does not belong
to the open item closes it and opens another.

A method that pushes events onto `out` is a function to the new state and the events it pushes.
-/

namespace Tokn.Convert

open Value

inductive OpenItem where
  | message (outputIndex : Nat) (itemId text : String) (partOpen : Bool)
  | functionCall (outputIndex chatIndex : Nat) (itemId callId name arguments : String)
  | reasoning (outputIndex : Nat) (itemId summary : String) (partOpen : Bool)
  deriving DecidableEq

structure ResponsesEmitter where
  id : String
  model : String
  createdAt : Nat
  sequence : Nat := 0
  nextOutputIndex : Nat := 0
  nextItemCounter : Nat := 0
  current : Option OpenItem := none
  closed : List Value := []
  createdEmitted : Bool := false
  inProgressEmitted : Bool := false
  finished : Bool := false
  usage : Option Usage := none
  finishReason : Option String := none
  deriving DecidableEq

/-! ## Event bodies

An event waiting for its sequence number. -/

/-- `SseEvent::json(Some(kind), json!({"type": kind, "sequence_number": seq, ..}))`. -/
def responsesEvent (kind : String) (fields : List (String × Value)) (seq : Nat) : SseEvent :=
  .ofJson (some kind) (obj ([("type", .string kind), ("sequence_number", nat seq)] ++ fields))

def outputItemAdded (outputIndex : Nat) (item : Value) : Nat → SseEvent :=
  responsesEvent "response.output_item.added"
    [("output_index", nat outputIndex), ("item", item)]

def outputItemDone (outputIndex : Nat) (item : Value) : Nat → SseEvent :=
  responsesEvent "response.output_item.done"
    [("output_index", nat outputIndex), ("item", item)]

/-- An event about the open item. -/
def itemEvent (kind itemId : String) (outputIndex : Nat) (fields : List (String × Value)) :
    Nat → SseEvent :=
  responsesEvent kind
    ([("item_id", .string itemId), ("output_index", nat outputIndex)] ++ fields)

/-- An event about the only content part of the open item. -/
def partEvent (kind itemId : String) (outputIndex : Nat) (fields : List (String × Value)) :
    Nat → SseEvent :=
  itemEvent kind itemId outputIndex ([("content_index", nat 0)] ++ fields)

/-- An `output_text` content part. -/
def outputTextPart (text : String) : Value :=
  obj [("type", .string "output_text"), ("text", .string text), ("annotations", .array [])]

def messageItemValue (itemId status : String) (content : List Value) : Value :=
  obj [("id", .string itemId), ("type", .string "message"), ("status", .string status),
    ("role", .string "assistant"), ("content", .array content)]

def reasoningItemValue (itemId status : String) (content : List Value) : Value :=
  obj [("id", .string itemId), ("type", .string "reasoning"), ("status", .string status),
    ("content", .array content), ("summary", .array [])]

def functionCallItemValue (itemId status callId name arguments : String) : Value :=
  obj [("id", .string itemId), ("type", .string "function_call"), ("status", .string status),
    ("call_id", .string callId), ("name", .string name), ("arguments", .string arguments)]

namespace ResponsesEmitter

def new (id model : String) (createdAt : Nat) : ResponsesEmitter :=
  { id := id, model := model, createdAt := createdAt }

def updateId (s : ResponsesEmitter) (id : String) : ResponsesEmitter := { s with id := id }

def updateModel (s : ResponsesEmitter) (model : String) : ResponsesEmitter :=
  { s with model := model }

/-- Push events, each with the next sequence number. -/
def pushAll (s : ResponsesEmitter) : List (Nat → SseEvent) → ResponsesEmitter × List SseEvent
  | [] => (s, [])
  | body :: bodies =>
    let (s', out) := pushAll { s with sequence := s.sequence + 1 } bodies
    (s', body s.sequence :: out)

/-- Run a second method after a first one. -/
def andThen (r : ResponsesEmitter × List SseEvent)
    (f : ResponsesEmitter → ResponsesEmitter × List SseEvent) :
    ResponsesEmitter × List SseEvent :=
  ((f r.1).1, r.2 ++ (f r.1).2)

def synthItemId (s : ResponsesEmitter) (pre : String) : ResponsesEmitter × String :=
  ({ s with nextItemCounter := s.nextItemCounter + 1 },
    pre ++ "_" ++ toString (s.nextItemCounter + 1))

def responseSnapshot (s : ResponsesEmitter) (status : String) (completed : Bool) : Value :=
  obj ([("id", .string s.id), ("object", .string "response"), ("created_at", nat s.createdAt),
      ("status", .string status), ("model", .string s.model),
      ("output", .array (if completed then s.closed else [])),
      ("usage", (s.usage.map usageToIo).getD .null)] ++
    if completed then
      ("completed_at", nat s.createdAt) ::
        ((responsesCompletionStatus s.finishReason).2.map fun reason =>
          ("incomplete_details", obj [("reason", .string reason)])).toList
    else [])

/-- One of the two opening events. -/
def startEvent (s : ResponsesEmitter) (kind : String) : Nat → SseEvent :=
  responsesEvent kind [("response", s.responseSnapshot "in_progress" false)]

def ensureStarted (s : ResponsesEmitter) : ResponsesEmitter × List SseEvent :=
  andThen
    (if s.createdEmitted then (s, [])
      else ({ s with createdEmitted := true }).pushAll [s.startEvent "response.created"])
    fun s =>
      if s.inProgressEmitted then (s, [])
      else ({ s with inProgressEmitted := true }).pushAll [s.startEvent "response.in_progress"]

/-! ## Closing the open item -/

def closeItem (s : ResponsesEmitter) : OpenItem → ResponsesEmitter × List SseEvent
  | .message outputIndex itemId text partOpen =>
    let finalItem := messageItemValue itemId "completed" [outputTextPart text]
    ({ s with closed := s.closed ++ [finalItem] }).pushAll
      ((if partOpen then
          [partEvent "response.output_text.done" itemId outputIndex [("text", .string text)],
            partEvent "response.content_part.done" itemId outputIndex
              [("part", outputTextPart text)]]
        else []) ++ [outputItemDone outputIndex finalItem])
  | .functionCall outputIndex _ itemId callId name arguments =>
    let arguments := if Str.trim arguments = "" then "\x7b\x7d" else arguments
    let finalItem := functionCallItemValue itemId "completed" callId name arguments
    ({ s with closed := s.closed ++ [finalItem] }).pushAll
      [itemEvent "response.function_call_arguments.done" itemId outputIndex
          [("arguments", .string arguments)],
        outputItemDone outputIndex finalItem]
  | .reasoning outputIndex itemId text partOpen =>
    let finalItem := reasoningItemValue itemId "completed"
      [obj [("type", .string "reasoning_text"), ("text", .string text)]]
    ({ s with closed := s.closed ++ [finalItem] }).pushAll
      ((if partOpen then
          [partEvent "response.reasoning_text.done" itemId outputIndex [("text", .string text)]]
        else []) ++ [outputItemDone outputIndex finalItem])

def closeCurrent (s : ResponsesEmitter) : ResponsesEmitter × List SseEvent :=
  match s.current with
  | some item => ({ s with current := none }).closeItem item
  | none => (s, [])

/-! ## Text -/

/-- Open a message item. -/
def openMessage (s : ResponsesEmitter) : ResponsesEmitter × List SseEvent :=
  let outputIndex := s.nextOutputIndex
  let (s, itemId) := ({ s with nextOutputIndex := s.nextOutputIndex + 1 }).synthItemId "msg"
  ({ s with current := some (.message outputIndex itemId "" true) }).pushAll
    [outputItemAdded outputIndex (messageItemValue itemId "in_progress" []),
      partEvent "response.content_part.added" itemId outputIndex [("part", outputTextPart "")]]

/-- Append to the open message. -/
def appendText (s : ResponsesEmitter) (text : String) : ResponsesEmitter × List SseEvent :=
  match s.current with
  | some (.message outputIndex itemId buf partOpen) =>
    ({ s with current := some (.message outputIndex itemId (buf ++ text) partOpen) }).pushAll
      [partEvent "response.output_text.delta" itemId outputIndex [("delta", .string text)]]
  | _ => (s, [])

/-- `matches!(self.current, Some(OpenItem::Message { .. }))`. -/
def messageOpen (s : ResponsesEmitter) : Bool :=
  match s.current with
  | some (.message ..) => true
  | _ => false

def handleText (s : ResponsesEmitter) (text : String) : ResponsesEmitter × List SseEvent :=
  if text = "" then (s, [])
  else if s.messageOpen then s.appendText text
  else andThen (andThen s.closeCurrent openMessage) fun s => s.appendText text

/-! ## Reasoning -/

/-- Open a reasoning item. -/
def openReasoning (s : ResponsesEmitter) : ResponsesEmitter × List SseEvent :=
  let outputIndex := s.nextOutputIndex
  let (s, itemId) := ({ s with nextOutputIndex := s.nextOutputIndex + 1 }).synthItemId "rs"
  ({ s with current := some (.reasoning outputIndex itemId "" true) }).pushAll
    [outputItemAdded outputIndex (reasoningItemValue itemId "in_progress" [])]

/-- Append to the open reasoning item. -/
def appendReasoning (s : ResponsesEmitter) (text : String) : ResponsesEmitter × List SseEvent :=
  match s.current with
  | some (.reasoning outputIndex itemId summary partOpen) =>
    ({ s with current := some (.reasoning outputIndex itemId (summary ++ text) partOpen) }).pushAll
      [partEvent "response.reasoning_text.delta" itemId outputIndex [("delta", .string text)]]
  | _ => (s, [])

def reasoningOpen (s : ResponsesEmitter) : Bool :=
  match s.current with
  | some (.reasoning ..) => true
  | _ => false

def handleReasoning (s : ResponsesEmitter) (text : String) : ResponsesEmitter × List SseEvent :=
  if text = "" then (s, [])
  else if s.reasoningOpen then s.appendReasoning text
  else andThen (andThen s.closeCurrent openReasoning) fun s => s.appendReasoning text

/-! ## Tool calls -/

/-- Open a function call item. Without an id hint the call is known by the id of the item. -/
def openFunctionCall (s : ResponsesEmitter) (chatIndex : Nat) (idHint nameHint : Option String) :
    ResponsesEmitter × List SseEvent :=
  let outputIndex := s.nextOutputIndex
  let (s, itemId) := ({ s with nextOutputIndex := s.nextOutputIndex + 1 }).synthItemId "fc"
  let callId := idHint.getD itemId
  let name := nameHint.getD ""
  ({ s with current := some (.functionCall outputIndex chatIndex itemId callId name "") }).pushAll
    [outputItemAdded outputIndex (functionCallItemValue itemId "in_progress" callId name "")]

/-- The name of a call after a hint: only an empty one is filled in. -/
def fillName (name : String) : Option String → String
  | some n => if name = "" then n else name
  | none => name

/-- The id of a call after a hint: only an empty one or that of the item is replaced. -/
def fillCallId (itemId callId : String) : Option String → String
  | some id => if callId = itemId ∨ callId = "" then id else callId
  | none => callId

/-- Append to the open call. -/
def appendArguments (s : ResponsesEmitter) (idHint nameHint : Option String) (argsDelta : String) :
    ResponsesEmitter × List SseEvent :=
  match s.current with
  | some (.functionCall outputIndex chatIndex itemId callId name arguments) =>
    ({ s with current := some (.functionCall outputIndex chatIndex itemId
        (fillCallId itemId callId idHint) (fillName name nameHint)
        (arguments ++ argsDelta)) }).pushAll
      (if argsDelta = "" then []
        else [itemEvent "response.function_call_arguments.delta" itemId outputIndex
          [("delta", .string argsDelta)]])
  | _ => (s, [])

/-- Whether the open item is the call of an upstream index. -/
def callOpen (s : ResponsesEmitter) (chatIndex : Nat) : Bool :=
  match s.current with
  | some (.functionCall _ ci _ _ _ _) => ci = chatIndex
  | _ => false

def handleToolCall (s : ResponsesEmitter) (chatIndex : Nat) (idHint nameHint : Option String)
    (argsDelta : String) : ResponsesEmitter × List SseEvent :=
  if s.callOpen chatIndex then s.appendArguments idHint nameHint argsDelta
  else andThen
    (andThen s.closeCurrent fun s => s.openFunctionCall chatIndex idHint nameHint)
    fun s => s.appendArguments idHint nameHint argsDelta

/-! ## The public methods -/

/-- The arm of `emit` for one delta. -/
def handle (s : ResponsesEmitter) : IrDelta → ResponsesEmitter × List SseEvent
  | .text text => s.handleText text
  | .reasoning text => s.handleReasoning text
  | .toolCall index id name argumentsDelta => s.handleToolCall index id name argumentsDelta
  | .usage usage => ({ s with usage := some (mergeUsage s.usage usage) }, [])
  | .finish reason => ({ s with finishReason := reason }, [])

/-- The loop of `emit`. -/
def handleAll (s : ResponsesEmitter) : List IrDelta → ResponsesEmitter × List SseEvent
  | [] => (s, [])
  | delta :: deltas => andThen (s.handle delta) fun s => s.handleAll deltas

def emit (s : ResponsesEmitter) (deltas : List IrDelta) : ResponsesEmitter × List SseEvent :=
  if deltas = [] then (s, []) else andThen s.ensureStarted fun s => s.handleAll deltas

/-- The name of the terminal event of a status. -/
def terminalType : String → String
  | "incomplete" => "response.incomplete"
  | "failed" => "response.failed"
  | "cancelled" => "response.cancelled"
  | _ => "response.completed"

/-- The terminal event. -/
def pushTerminal (s : ResponsesEmitter) : ResponsesEmitter × List SseEvent :=
  let status := (responsesCompletionStatus s.finishReason).1
  s.pushAll [responsesEvent (terminalType status)
    [("response", s.responseSnapshot status true)]]

def finish (s : ResponsesEmitter) : ResponsesEmitter × List SseEvent :=
  if s.finished then (s, [])
  else andThen (andThen ({ s with finished := true }).ensureStarted closeCurrent) pushTerminal

end ResponsesEmitter

end Tokn.Convert
