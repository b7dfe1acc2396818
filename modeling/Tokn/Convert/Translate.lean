import Tokn.Convert.Accumulate
import Tokn.Convert.ResponsesEmitter

/-!
# The endpoint translator

`crates/convert/src/sse/translate.rs`: `EndpointTranslator` decodes upstream events with an
accumulator, makes the first terminal one carry the only finish delta, and re-emits the deltas in
the protocol of another endpoint.

A method on `&mut self` that can fail returns the new state next to its result, since the state
is kept when it fails. The fields `from` and `to` are called `source` and `target`.
-/

namespace Tokn.Convert

open Value

/-! ## The emitter of the target endpoint -/

structure EmitState where
  target : Endpoint
  id : String
  model : String
  started : Bool := false
  finished : Bool := false
  responses : Option ResponsesEmitter
  deriving DecidableEq

namespace EmitState

/-- The id a stream has before upstream names one. -/
def defaultId : Endpoint → String
  | .chatCompletions => "chatcmpl-converted"
  | .responses => "resp_converted"
  | .messages => "msg_converted"

/-- `EmitState::new`, at a given clock reading. -/
def new (target : Endpoint) (createdAt : Nat) : EmitState where
  target := target
  id := defaultId target
  model := ""
  responses := if target = .responses then some (.new (defaultId target) "" createdAt) else none

/-- The id half of `update_metadata`. -/
def updateId (s : EmitState) : Option String → EmitState
  | some id => { s with id := id, responses := s.responses.map fun e => e.updateId id }
  | none => s

/-- The model half of `update_metadata`. -/
def updateModel (s : EmitState) : Option String → EmitState
  | some model =>
    { s with model := model, responses := s.responses.map fun e => e.updateModel model }
  | none => s

def updateMetadata (s : EmitState) (metadata : SseMetadata) : EmitState :=
  (s.updateId metadata.responseId).updateModel metadata.model

def start (s : EmitState) : List SseEvent :=
  match s.target with
  | .chatCompletions | .responses => []
  | .messages =>
    [.ofJson (some "message_start") (Messages.messageStart s.id s.model),
      .ofJson (some "content_block_start")
        (obj [("type", .string "content_block_start"), ("index", nat 0),
          ("content_block", obj [("type", .string "text"), ("text", .string "")])])]

/-- Emit the opening events once, for a target that has them. -/
def ensureStarted (s : EmitState) : EmitState × List SseEvent :=
  if s.started = false ∧ s.target ≠ .responses then ({ s with started := true }, s.start)
  else (s, [])

/-- The `match` of `emit`. -/
def emitDeltas (s : EmitState) (deltas : List IrDelta) : EmitState × List SseEvent :=
  match s.target with
  | .chatCompletions =>
    (s, (Chat.chunkFromDeltas s.id s.model deltas false).map (SseEvent.ofJson none))
  | .responses =>
    match s.responses with
    | some emitter =>
      ({ s with responses := some (emitter.emit deltas).1, started := true },
        (emitter.emit deltas).2)
    | none => (s, [])
  | .messages =>
    (s, (Messages.eventsFromDeltas s.id s.model deltas false).map fun e =>
      SseEvent.ofJson (some e.1) e.2)

def emit (s : EmitState) (deltas : List IrDelta) : EmitState × List SseEvent :=
  if deltas = [] then (s, [])
  else
    let (s, opening) := s.ensureStarted
    let (s, out) := s.emitDeltas deltas
    (s, opening ++ out)

/-- The `match` of `finish`. -/
def emitEnd (s : EmitState) : EmitState × List SseEvent :=
  match s.target with
  | .chatCompletions => (s, [.done])
  | .responses =>
    match s.responses with
    | some emitter => ({ s with responses := some emitter.finish.1 }, emitter.finish.2)
    | none => (s, [])
  | .messages =>
    (s, [.ofJson (some "content_block_stop") (Messages.contentBlockStop 0),
      .ofJson (some "message_stop") Messages.messageStop])

def finish (s : EmitState) : EmitState × List SseEvent :=
  if s.finished then (s, [])
  else
    let (s, opening) := ({ s with finished := true }).ensureStarted
    let (s, out) := s.emitEnd
    (s, opening ++ out)

end EmitState

/-! ## Terminal events -/

/-- The finish reason an incomplete response gives. -/
def incompleteReason (value : Value) : String :=
  match (value.pointer ["response", "incomplete_details", "reason"]).bind asStr with
  | some "max_output_tokens" => "length"
  | some other => other
  | none => "incomplete"

/-- `terminal_reason`: the finish reason of a terminal event, and `none` of any other event. -/
def terminalReason (endpoint : Endpoint) (value : Value) (acc : SseAccumulator)
    (deltas : List IrDelta) : Option (Option String) :=
  match endpoint with
  | .chatCompletions =>
    ((value.get "choices").bind asArray).bind fun choices =>
      choices.findSome? fun choice =>
        ((choice.get "finish_reason").filter fun reason => !reason.isNull).map asStr
  | .messages =>
    match value.str "type" with
    | some "message_stop" => some (some "stop")
    | some "message_delta" =>
      ((value.pointer ["delta", "stop_reason"]).filter fun reason => !reason.isNull).map
        fun reason =>
          (deltas.findSome? fun
            | .finish reason => some reason
            | _ => none).getD reason.asStr
    | _ => none
  | .responses =>
    match value.str "type" with
    | some "response.completed" => some (some (acc.responsesCompletedFinishReason (some value)))
    | some "response.incomplete" => some (some (incompleteReason value))
    | some "response.failed" | some "error" => some (some "failed")
    | some "response.cancelled" => some (some "cancelled")
    | _ => none

/-! ## The translator -/

structure EndpointTranslator where
  source : Endpoint
  acc : SseAccumulator
  emit : EmitState
  terminalSeen : Bool := false
  finished : Bool := false
  deriving DecidableEq

namespace EndpointTranslator

/-- `EndpointTranslator::new`, at a given clock reading. -/
def new (source target : Endpoint) (createdAt : Nat) : EndpointTranslator where
  source := source
  acc := .new source
  emit := .new target createdAt

def finishOnce (t : EndpointTranslator) :
    EndpointTranslator × Except ConvertError (List SseEvent) :=
  if t.finished then (t, .ok [])
  else if t.terminalSeen = false then
    ({ t with finished := true }, .error (.sse "upstream stream ended before a terminal event"))
  else
    let (emit, out) := (t.emit.updateMetadata t.acc.metadata).finish
    ({ t with finished := true, emit := emit }, .ok out)

/-- Overwrite the finish deltas of a terminal event with its reason, adding one if it has
none. -/
def setFinish (reason : Option String) (deltas : List IrDelta) : List IrDelta :=
  let deltas' := deltas.map fun delta => if delta.isFinish then .finish reason else delta
  if deltas.any IrDelta.isFinish then deltas' else deltas' ++ [.finish reason]

/-- The finish delta of a stream: the deltas of the first terminal event get its reason, and
those of later ones lose theirs. -/
def settle (terminalSeen : Bool) (terminal : Option (Option String)) (deltas : List IrDelta) :
    Bool × List IrDelta :=
  match terminal with
  | some reason =>
    if terminalSeen then (true, deltas.filter fun delta => !delta.isFinish)
    else (true, setFinish reason deltas)
  | none =>
    if deltas.any IrDelta.isFinish then
      if terminalSeen then (true, deltas.filter fun delta => !delta.isFinish)
      else (true, deltas)
    else (terminalSeen, deltas)

/-- The deltas of a JSON event that are emitted, and whether a terminal event has been seen. -/
def settled (t : EndpointTranslator) (value : Value) : Bool × List IrDelta :=
  let (acc, deltas) := t.acc.pushValue value
  settle t.terminalSeen (terminalReason t.source value acc deltas) deltas

/-- The JSON branch of `transform`. -/
def transformValue (t : EndpointTranslator) (value : Value) :
    EndpointTranslator × List SseEvent :=
  let acc := (t.acc.pushValue value).1
  let (terminalSeen, deltas) := t.settled value
  let (emit, out) := (t.emit.updateMetadata acc.metadata).emit deltas
  ({ t with acc := acc, emit := emit, terminalSeen := terminalSeen }, out)

def inferResponsesFinish (t : EndpointTranslator) : Bool :=
  !t.terminalSeen && t.source = .responses && t.acc.responses.hasToolCall

/-- The `[DONE]` branch of `transform`. A Responses upstream that ends so without a terminal
event is taken to have stopped for its tool calls, if it has any. -/
def transformDone (t : EndpointTranslator) :
    EndpointTranslator × Except ConvertError (List SseEvent) :=
  let (emit, out) :=
    if t.inferResponsesFinish then t.emit.emit [.finish (some "tool_calls")] else (t.emit, [])
  let (t, result) := { t with terminalSeen := true, emit := emit }.finishOnce
  (t, result.map fun events => out ++ events)

def transform (t : EndpointTranslator) (event : SseEvent) :
    EndpointTranslator × Except ConvertError (List SseEvent) :=
  if t.finished then (t, .ok [])
  else if event.isDone then t.transformDone
  else match event.json with
    | none => (t, .error (.sse "expected JSON SSE payload"))
    | some value => ((t.transformValue value).1, .ok (t.transformValue value).2)

def finish (t : EndpointTranslator) : EndpointTranslator × Except ConvertError (List SseEvent) :=
  t.finishOnce

end EndpointTranslator

end Tokn.Convert
