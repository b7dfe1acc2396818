import Tokn.Lib.Json
import Tokn.Lib.Str
import Tokn.Requests.Event

/-!
# The events that are persisted

`crates/core/src/request_event`, with what the two handlers of `crates/persistence` read of each
event. A header map is the list of its entries with their names in lower case.
-/

namespace Tokn.Persistence

open Tokn.Requests (Stage RequestEndpoint)
open Tokn.Convert (Endpoint)

abbrev Bytes := List UInt8

abbrev HeaderMap := List (String × String)

/-- `HeaderMap::get`, of a name in lower case. -/
def HeaderMap.get (headers : HeaderMap) (name : String) : Option String :=
  (headers.find? fun entry => entry.1 = name).map Prod.snd

/-- `RequestEndpoint::as_str`. -/
def endpointLabel : RequestEndpoint → String
  | .known .chatCompletions => "chat_completions"
  | .known .responses => "responses"
  | .known .messages => "messages"
  | .customPath label => label

/-- `Stage::as_str`. -/
def stageLabel : Stage → String
  | .extract => "extract"
  | .resolve => "resolve"
  | .buildHeaders => "build_headers"
  | .convertRequest => "convert_request"
  | .send => "send"
  | .convertResponse => "convert_response"

/-! ## Usage -/

inductive UsageType where
  | chat
  | responses
  | messages
  deriving DecidableEq

def UsageType.asStr : UsageType → String
  | .chat => "chat"
  | .responses => "responses"
  | .messages => "messages"

structure UsageDetails where
  cacheRead : Option Nat := none
  cacheWrite : Option Nat := none
  reasoning : Option Nat := none
  deriving DecidableEq

structure Usage where
  inputTokens : Option Nat := none
  outputTokens : Option Nat := none
  totalTokens : Option Nat := none
  usageType : Option UsageType := none
  details : UsageDetails := {}
  deriving DecidableEq

/-! ## Events -/

structure ExtractedSummary where
  model : String
  stream : Bool
  sessionId : Option String
  projectId : Option String := none
  initiator : Option String
  headers : HeaderMap
  rawBody : Bytes
  decodedBody : Bytes
  bodyJson : Value
  deriving DecidableEq

inductive StageEvent where
  | started (requestEndpoint : RequestEndpoint)
  | extract (summary : ExtractedSummary)
  | resolve (accountId providerId : String)
  | buildHeaders (headers : HeaderMap)
  | convertRequest (upstreamWireBody : Bytes)
  | send (status : UInt16) (headers : HeaderMap)
  | convertResponse (status : UInt16) (headers : HeaderMap) (body : Option Value)
  | error (stage : Stage) (message : String)
  | completed (success : Bool)
  deriving DecidableEq

inductive RecordEvent where
  | inboundConnection (user apiKeyId localAddr peerAddr : Option String)
      (mode method inboundMethod : String) (url : Option String)
  | upstreamReq (method url : String) (headers : HeaderMap) (body : Bytes)
  | upstreamResp (status : UInt16) (headers : HeaderMap)
  | upstreamBody (body : Bytes) (error : Option String)
  | convertedBody (body : Bytes) (error : Option String)
  | usage (usage : Usage)
  deriving DecidableEq

inductive Payload where
  | stage (event : StageEvent)
  | record (event : RecordEvent)
  | custom
  deriving DecidableEq

structure RequestEvent where
  requestId : String
  attempt : UInt32
  /-- In milliseconds. -/
  ts : Int
  payload : Payload
  deriving DecidableEq

def compositeRequestId (requestId : String) (attempt : UInt32) : String :=
  if attempt = 0 then requestId else requestId ++ ":" ++ toString attempt.toNat

/-- The row of an event. -/
def RequestEvent.id (e : RequestEvent) : String := compositeRequestId e.requestId e.attempt

def RequestEvent.starts (e : RequestEvent) : Bool :=
  match e.payload with
  | .stage (.started _) => true
  | _ => false

def RequestEvent.completes (e : RequestEvent) : Bool :=
  match e.payload with
  | .stage (.completed _) => true
  | _ => false

end Tokn.Persistence
