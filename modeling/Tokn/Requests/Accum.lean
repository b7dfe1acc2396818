import Tokn.Lib.Str
import Tokn.Requests.Event

/-!
# The accumulator of a streamed response

`crates/requests/src/pipeline/stages.rs`: `AccumHelper`, a task that collects what is read from
upstream and what is given to the client, and emits the end of the attempt when the last handle to
it finishes or is dropped; and `stream_terminal_error`, which cuts the bytes that were read from
upstream into frames. The first frame that is terminal in the protocol of an endpoint decides
whether the stream succeeded.
-/

namespace Tokn.Requests

open Tokn.Convert (Endpoint)

/-! ## The terminal frame of a body -/

/-- The fields of a frame: the last event name, and the data lines joined. -/
structure Frame where
  event : Option (List Char) := none
  data : List Char := []
  deriving DecidableEq

/-- One line of a frame. -/
def Frame.push (frame : Frame) (line : List Char) : Frame :=
  match Str.stripPrefix "event:" line with
  | some value => { frame with event := some (Str.trimChars value) }
  | none =>
    match Str.stripPrefix "data:" line with
    | some value =>
      { frame with
        data := frame.data ++ (if frame.data = [] then [] else ['\n']) ++ Str.trimStartChars value }
    | none => frame

def frames (body : Bytes) : List Frame :=
  (Str.splitBlank (Str.normalizeNewlines (Str.fromUtf8Lossy body))).map fun frame =>
    (Str.lines frame).foldl Frame.push {}

section

variable (fromStr : String → Option Value)

/-- The type of a frame: that of its JSON data, or its event name. -/
def Frame.eventType (frame : Frame) : Option String :=
  ((fromStr (String.ofList frame.data)).bind fun value => value.str "type") <|>
    frame.event.map String.ofList

/-- What the `match` on a frame returns: nothing, success, or the message of a failure. -/
def Frame.verdict (endpoint : Endpoint) (frame : Frame) : Option (Option String) :=
  match endpoint with
  | .chatCompletions =>
    if Str.trimChars frame.data = "[DONE]".toList then some none else none
  | .responses =>
    match frame.eventType fromStr with
    | some "response.completed" => some none
    | some "response.failed" =>
      some (some "upstream responses stream terminated with response.failed")
    | some "response.incomplete" =>
      some (some "upstream responses stream terminated with response.incomplete")
    | some "error" => some (some "upstream responses stream terminated with error")
    | _ => none
  | .messages =>
    match frame.eventType fromStr with
    | some "message_stop" => some none
    | some "error" => some (some "upstream messages stream terminated with error")
    | _ => none

/-- The message of a stream without a terminal frame. -/
def missingTerminal : Endpoint → String
  | .chatCompletions => "upstream chat completions stream ended without [DONE]"
  | .responses => "upstream responses stream ended without a terminal response event"
  | .messages => "upstream messages stream ended without message_stop"

/-- `stream_terminal_error`, over the parser of `serde_json`. -/
def streamTerminalError (endpoint : RequestEndpoint) (body : Bytes) : Option String :=
  match endpoint.resolved with
  | none => none
  | some endpoint =>
    ((frames body).findSome? (Frame.verdict fromStr endpoint)).getD
      (some (missingTerminal endpoint))

end

/-! ## The accumulator -/

inductive AccumMsg where
  | upstream (bytes : Bytes)
  | converted (bytes : Bytes)
  | upstreamError (err : String)
  | convertedError (err : String)
  | finish
  deriving DecidableEq

/-- The locals of the task. -/
structure Accum where
  upstream : Bytes := []
  converted : Bytes := []
  upstreamError : Option String := none
  convertedError : Option String := none
  bytesStreamed : Nat := 0
  chunks : Nat := 0
  deriving DecidableEq

namespace Accum

/-- A message other than `Finish`, which ends the loop. -/
def receive (acc : Accum) : AccumMsg → Accum
  | .upstream bytes => { acc with upstream := acc.upstream ++ bytes }
  | .converted bytes =>
    { acc with
      bytesStreamed := acc.bytesStreamed + bytes.length
      chunks := acc.chunks + 1
      converted := acc.converted ++ bytes }
  | .upstreamError err => { acc with upstreamError := some err }
  | .convertedError err => { acc with convertedError := some err }
  | .finish => acc

variable (fromStr : String → Option Value) (endpoint : RequestEndpoint)

def streamError (acc : Accum) : Option String :=
  acc.upstreamError <|> acc.convertedError <|> streamTerminalError fromStr endpoint acc.upstream

/-- What the task emits after its loop. -/
def finalPayloads (acc : Accum) (attempt : Nat) : List Payload :=
  let streamError := acc.streamError fromStr endpoint
  [.record (.upstreamBody acc.upstream acc.upstreamError),
    .record (.convertedBody acc.converted acc.convertedError)] ++
  (streamError.map fun message =>
    Payload.stage (.error .convertResponse message false false)).toList ++
  [.stage (.completed streamError.isNone (attemptsOf attempt))]

end Accum

/-- The task and its channel. -/
structure AccumTask where
  /-- What has been sent and not received. -/
  queue : List AccumMsg := []
  /-- `AccumInner::finished`. -/
  finished : Bool := false
  acc : Accum := {}
  ended : Bool := false
  deriving DecidableEq

end Tokn.Requests
