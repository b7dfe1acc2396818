import Tokn.Convert.Buffered

/-!
# The event pipeline

`crates/convert/src/sse/codec.rs` and `pipeline.rs`: the events of an upstream body go through a
transformer, if there is one, and are written out again. The pipeline stops at its first error.
-/

namespace Tokn.Convert

open EndpointTranslator

/-! ## Encoding -/

def encodeSse (event : Option String) (data : String) : String :=
  (event.map fun event => "event: " ++ event ++ "\n").getD "" ++
    if data = "" then "data:\n\n"
    else String.join ((Str.lines data.toList).map fun line =>
      "data: " ++ String.ofList line ++ "\n") ++ "\n"

def encodeEvent (event : SseEvent) : List UInt8 :=
  Str.utf8Bytes (if event.isDone then "data: [DONE]\n\n" else encodeSse event.event event.data)

/-- The text of an error. -/
def ConvertError.display : ConvertError → String
  | .missingField field => "missing required field `" ++ field ++ "`"
  | .badShape field message => "bad `" ++ field ++ "` shape: " ++ message
  | .sse message => "sse conversion failed: " ++ message

/-! ## The source of events -/

/-- The parser of `eventsource_stream`, fed with the chunks of a body: the name and the data of
the events each chunk completes, or an error. -/
structure EventSource where
  State : Type
  init : State
  push : State → List UInt8 → State × List (Except String (String × String))
  /-- What the end of the body completes. -/
  finish : State → List (Except String (String × String))
  /-- The text of an error of the body. -/
  transportError : String → String

/-- `SseEvent::from`. -/
def SseEvent.ofParsed (fromStr : String → Option Value) (parsed : String × String) : SseEvent :=
  .raw fromStr (if parsed.1 = "" then none else some parsed.1) parsed.2

/-! ## The pipeline -/

/-- The encodings that are queued for the client. -/
def encodeEvents (events : List SseEvent) : List (List UInt8) :=
  (events.map encodeEvent).filter fun encoded => !encoded.isEmpty

/-- `process_event`, with at most one transformer. -/
def processEvent (transformer : Option EndpointTranslator) (event : SseEvent) :
    Option EndpointTranslator × Except String (List (List UInt8)) :=
  match transformer with
  | none => (none, .ok (encodeEvents [event]))
  | some t =>
    let (t, result) := t.transform event
    (some t, (result.mapError ConvertError.display).map encodeEvents)

def finishTransformers (transformer : Option EndpointTranslator) :
    Except String (List (List UInt8)) :=
  match transformer with
  | none => .ok []
  | some t => (t.finish.2.mapError ConvertError.display).map encodeEvents

/-- The transformer that `convert_stream` attaches: none between equal endpoints. -/
def transformerFor (upstream inbound : Endpoint) (createdAt : Nat) : Option EndpointTranslator :=
  if upstream = inbound then none else some (.new upstream inbound createdAt)

/-- The sentinel ends a translator that is still running, without an error. -/
theorem processEvent_isDone {t : EndpointTranslator} {event : SseEvent} (hfin : t.finished = false)
    (hdone : event.isDone = true) :
    ∃ t' items, processEvent (some t) event = (some t', .ok items) ∧ t'.finished = true := by
  have htransform : t.transform event = t.transformDone := by simp [transform, hfin, hdone]
  obtain ⟨out, hout⟩ := transformDone_ok hfin
  refine ⟨t.transformDone.1, encodeEvents out, ?_, t.finished_transformDone⟩
  show (some (t.transform event).1,
    ((t.transform event).2.mapError ConvertError.display).map encodeEvents) = _
  rw [htransform, hout]
  rfl

theorem finishTransformers_of_finished {t : EndpointTranslator} (hfin : t.finished = true) :
    finishTransformers (some t) = .ok [] := by
  have hfinish : t.finish = (t, .ok []) := (call_of_finished hfin .finish).1
  rw [finishTransformers, hfinish]
  rfl

end Tokn.Convert
