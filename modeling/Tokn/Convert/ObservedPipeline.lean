import Tokn.Convert.Pipeline
import Tokn.Lib.Transducer

/-!
# The polled pipeline

`crates/convert/src/sse/pipeline.rs`: the pipeline as a stream that is polled, with any transformers
and an observer. What the source of events answers is an input: each time it is polled, the chunks of
the body that are read then, and an event, an error, the end or nothing yet. A run is the calls of a
consumer, who drops the stream in the end.
-/

namespace Tokn.Convert

abbrev EventTransformer := Transducer SseEvent ConvertError

/-! ## The stream -/

inductive ObserverMsg where
  | fromSource (bytes : List UInt8)
  | parsed (json : Option Value)
  | transformed (json : Option Value)
  | toClient (bytes : List UInt8)
  | done
  | error (message : String)
  deriving DecidableEq

structure TapKinds where
  source : Bool
  parsed : Bool
  transformed : Bool
  client : Bool

/-- What an item of the source is. -/
inductive SourceItem where
  | pending
  | event (event : SseEvent)
  | error (message : String)
  | ended

def SourceItem.event? : SourceItem → Option SseEvent
  | .event e => some e
  | _ => none

/-- An answer of the source: the chunks it reads from the body, and an item. -/
structure SourcePoll where
  chunks : List (List UInt8)
  item : SourceItem

/-- An item of the stream: encoded bytes, or an error. -/
abbrev Item := Except String (List UInt8)

/-- `PipelineStream`. The source is left out, and `sent` is what is in the channel of the tap. -/
structure PipelineStream where
  transformers : List EventTransformer
  tap : Bool
  tapKinds : TapKinds
  pending : List Item
  sourceDone : Bool
  sent : List ObserverMsg

namespace PipelineStream

def new (transformers : List EventTransformer) (tap : Bool) (tapKinds : TapKinds) :
    PipelineStream :=
  ⟨transformers, tap, tapKinds, [], false, []⟩

def sendTap (s : PipelineStream) (msg : ObserverMsg) : PipelineStream :=
  if s.tap then { s with sent := s.sent ++ [msg] } else s

/-- The messages of a kind that the tap may not want. -/
def sendTapKind (s : PipelineStream) (wanted : Bool) (msg : ObserverMsg) : PipelineStream :=
  if wanted then s.sendTap msg else s

def push (s : PipelineStream) (item : Item) : PipelineStream :=
  { s with pending := s.pending ++ [item] }

/-- What becomes of an event after the transformers. -/
def emitEvent (s : PipelineStream) (event : SseEvent) : PipelineStream :=
  let s := s.sendTapKind s.tapKinds.transformed (.transformed event.json)
  let encoded := encodeEvent event
  if encoded.isEmpty then s
  else (s.sendTapKind s.tapKinds.client (.toClient encoded)).push (.ok encoded)

def emit (s : PipelineStream) (events : List SseEvent) : PipelineStream :=
  events.foldl emitEvent s

/-- `process_event`, with the error if there is one. No transformer is called after an error, so
their states are not kept then. -/
def processEvent (s : PipelineStream) (event : SseEvent) : PipelineStream × Option String :=
  let s := s.sendTapKind s.tapKinds.parsed (.parsed event.json)
  match Transducer.passAll s.transformers [event] with
  | .error e => (s, some e.display)
  | .ok (transformers, out) => ({ s with transformers := transformers }.emit out, none)

/-- The loop of `finish_transformers`, over the transformers that are left. None of them is called
after it. -/
def finishFrom : Nat → PipelineStream → List EventTransformer → PipelineStream × Option String
  | 0, s, _ => (s, none)
  | _ + 1, s, [] => (s, none)
  | left + 1, s, t :: later =>
    match (t.finish t.state).2 with
    | .error e => (s, some e.display)
    | .ok events =>
      match Transducer.passAll later events with
      | .error e => (s, some e.display)
      | .ok (later, out) => finishFrom left (s.emit out) later

def finishTransformers (s : PipelineStream) : PipelineStream × Option String :=
  finishFrom s.transformers.length s s.transformers

/-- `signal_error`, and the error as an item. -/
def fail (s : PipelineStream) (message : String) : PipelineStream :=
  (s.sendTap (.error message)).push (.error message)

/-- The chunks that the source reads are sent first. -/
def teeChunks (s : PipelineStream) (chunks : List (List UInt8)) : PipelineStream :=
  chunks.foldl (fun s bytes => s.sendTapKind s.tapKinds.source (.fromSource bytes)) s

/-- The loop of `poll_next` from an answer of the source on, if it does not return. -/
def onItem (s : PipelineStream) (item : SourceItem) : PipelineStream :=
  match item with
  | .pending => s
  | .event event =>
    match s.processEvent event with
    | (s, some message) => { s.fail message with sourceDone := true }
    | (s, none) => s
  | .error message => { s.fail message with sourceDone := true }
  | .ended =>
    match s.finishTransformers with
    | (s, some message) => { s.fail message with sourceDone := true }
    | (s, none) => { s with sourceDone := true }

end PipelineStream

/-- What a poll answers. -/
inductive PollResult where
  | pending
  | ready (item : Option Item)

namespace PipelineStream

/-- `poll_next`, with the answers of the source. `none`: it asks the source more or less often. -/
def pollNext (s : PipelineStream) (polls : List SourcePoll) :
    Option (PipelineStream × PollResult) :=
  match s.pending with
  | item :: rest =>
    if polls.isEmpty then some ({ s with pending := rest }, .ready (some item)) else none
  | [] =>
    if s.sourceDone then if polls.isEmpty then some (s, .ready none) else none
    else
      match polls with
      | [] => none
      | poll :: polls =>
        let s := s.teeChunks poll.chunks
        match poll.item with
        | .pending => if polls.isEmpty then some (s, .pending) else none
        | item => pollNext (s.onItem item) polls

end PipelineStream

/-- `StreamWithFinalizer`, with the finalizer of the pipeline as long as it has not run. -/
structure StreamWithFinalizer where
  inner : PipelineStream
  fin : Bool

namespace StreamWithFinalizer

def new (inner : PipelineStream) : StreamWithFinalizer := ⟨inner, true⟩

/-- `finalize_tap`, if it has not run. -/
def finalize (s : StreamWithFinalizer) : StreamWithFinalizer :=
  if s.fin then ⟨s.inner.sendTap .done, false⟩ else s

def pollNext (s : StreamWithFinalizer) (polls : List SourcePoll) :
    Option (StreamWithFinalizer × PollResult) :=
  (s.inner.pollNext polls).map fun r =>
    match r.2 with
    | .ready none => ({ s with inner := r.1 }.finalize, r.2)
    | _ => ({ s with inner := r.1 }, r.2)

def drop (s : StreamWithFinalizer) : StreamWithFinalizer := s.finalize

/-- The polls of a consumer, each with the answers of the source. -/
def poll : StreamWithFinalizer → List (List SourcePoll) →
    Option (StreamWithFinalizer × List PollResult)
  | s, [] => some (s, [])
  | s, polls :: calls =>
    (s.pollNext polls).bind fun r => (poll r.1 calls).map fun q => (q.1, r.2 :: q.2)

end StreamWithFinalizer

/-- A whole run, up to where the consumer drops the stream: what the observer and the consumer
get. -/
def consume (transformers : List EventTransformer) (tap : Bool) (tapKinds : TapKinds)
    (calls : List (List SourcePoll)) : Option (List ObserverMsg × List PollResult) :=
  ((StreamWithFinalizer.new (.new transformers tap tapKinds)).poll calls).map fun r =>
    (r.1.drop.inner.sent, r.2)

end Tokn.Convert
