import Tokn.Convert.Ir

/-!
# The events of a request

`crates/core/src/request_event` and `crates/requests/src/pipeline/error.rs`: what the runner, the
stages and the accumulator of a streamed response emit about an attempt. The summaries that the
stage events carry are left out, and so are the request id and the time.
-/

namespace Tokn.Requests

open Tokn.Convert (Endpoint)

abbrev Bytes := List UInt8

inductive RequestEndpoint where
  | known (endpoint : Endpoint)
  | customPath (label : String)
  deriving DecidableEq

def RequestEndpoint.resolved : RequestEndpoint → Option Endpoint
  | .known endpoint => some endpoint
  | .customPath _ => none

inductive Stage where
  | extract
  | resolve
  | buildHeaders
  | convertRequest
  | send
  | convertResponse
  deriving DecidableEq

/-- An error with the text of its cause. -/
structure PipelineError where
  stage : Stage
  message : String
  recoverable : Bool
  stop : Bool
  deriving DecidableEq

inductive StageEvent where
  | started (requestEndpoint : RequestEndpoint)
  /-- The event of a stage that succeeded, `Extract(..)` to `ConvertResponse(..)`. -/
  | output (stage : Stage)
  | error (stage : Stage) (message : String) (recoverable stop : Bool)
  | completed (success : Bool) (attempts : Nat)
  deriving DecidableEq

inductive RecordEvent where
  | upstreamBody (body : Bytes) (error : Option String)
  | convertedBody (body : Bytes) (error : Option String)
  deriving DecidableEq

inductive Payload where
  | stage (event : StageEvent)
  | record (event : RecordEvent)
  /-- `StreamProgress`. -/
  | progress (bytesStreamed chunks : Nat)
  deriving DecidableEq

/-- `RequestEvent`. -/
structure Event where
  attempt : Nat
  payload : Payload
  deriving DecidableEq

def StageEvent.isStarted : StageEvent → Bool
  | .started _ => true
  | .output _ | .error .. | .completed .. => false

def StageEvent.isCompleted : StageEvent → Bool
  | .completed .. => true
  | .started _ | .output _ | .error .. => false

def StageEvent.isError : StageEvent → Bool
  | .error .. => true
  | .started _ | .output _ | .completed .. => false

def Payload.stage? : Payload → Option StageEvent
  | .stage event => some event
  | .record _ | .progress .. => none

/-- The stage event of an event of an attempt. -/
def Event.stageOf (attempt : Nat) (e : Event) : Option StageEvent :=
  if e.attempt = attempt then e.payload.stage? else none

/-- The stage events of an attempt, in order. -/
def stageEvents (attempt : Nat) (events : List Event) : List StageEvent :=
  events.filterMap (Event.stageOf attempt)

theorem stageEvents_append (attempt : Nat) (as bs : List Event) :
    stageEvents attempt (as ++ bs) = stageEvents attempt as ++ stageEvents attempt bs :=
  List.filterMap_append

/-- What is emitted for one attempt. -/
theorem stageEvents_map (attempt a : Nat) (payloads : List Payload) :
    stageEvents attempt (payloads.map (Event.mk a)) =
      if a = attempt then payloads.filterMap Payload.stage? else [] := by
  rw [stageEvents, List.filterMap_map]
  split_ifs with h
  · congr 1
    funext payload
    simp [Event.stageOf, h]
  · refine List.filterMap_eq_nil_iff.mpr fun payload _ => ?_
    simp [Event.stageOf, h]

/-- `ctx.attempt + 1`, on `u32`. -/
def attemptsOf (attempt : Nat) : Nat := (attempt + 1) % 2 ^ 32

end Tokn.Requests
