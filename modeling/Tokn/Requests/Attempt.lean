import Tokn.Lib.BTreeMap
import Tokn.Lib.Machine
import Tokn.Requests.Accum

/-!
# The attempts of a run

`PipelineRunner::run_with` of `crates/requests/src/pipeline/mod.rs` as a state machine. The runner
stands at one await point at a time; the accumulators it spawned run beside it. An action is what
the outside does next: a stage returns, the future is dropped, the body of a streamed response is
read or dropped, a task is scheduled.
-/

namespace Tokn.Requests

/-! ## The retry policy -/

inductive ReplaySafety where
  | buffered
  | safeMethods
  deriving DecidableEq

/-- Durations are in nanoseconds. -/
structure RetryPolicy where
  maxRetries : Nat := 0
  initialBackoff : Nat := 0
  replaySafety : ReplaySafety := .buffered
  deriving DecidableEq

/-- `Duration::MAX`. -/
def durationMax : Nat := (2 ^ 64 - 1) * 1000000000 + 999999999

namespace RetryPolicy

variable (policy : RetryPolicy) (requestMethod : Option String)

def requestIsReplayable : Bool :=
  match policy.replaySafety with
  | .buffered => true
  | .safeMethods => requestMethod.any fun method => ["GET", "HEAD", "OPTIONS", "TRACE"].contains method

def shouldRetry (attempt : Nat) (err : PipelineError) : Bool :=
  attempt < policy.maxRetries && err.stage = .send && err.recoverable && !err.stop &&
    policy.requestIsReplayable requestMethod

def backoffFor (attempt : Nat) : Nat :=
  if policy.initialBackoff = 0 then 0
  else min (policy.initialBackoff * 2 ^ min attempt 31) durationMax

end RetryPolicy

/-! ## States -/

inductive ConvertedBody where
  | buffered (bytes : Bytes)
  | stream
  deriving DecidableEq

/-- How `run_with` ended. -/
inductive Outcome where
  | ok (body : ConvertedBody)
  | err (err : PipelineError)
  | dropped
  deriving DecidableEq

/-- Where the runner is. -/
inductive Phase where
  /-- `run_with` has not been polled. -/
  | idle
  /-- Awaiting one of the stages up to `Send`. -/
  | running (stage : Stage)
  /-- Awaiting `convert_stream`. -/
  | streaming
  /-- Awaiting the bytes of the response. -/
  | reading
  /-- Awaiting `convert_buffered`. -/
  | buffering
  /-- Awaiting the backoff before the next attempt. -/
  | sleeping
  | returned (outcome : Outcome)
  deriving DecidableEq

/-- The stage of the guard, while there is an attempt to guard. -/
def Phase.guarded : Phase → Option Stage
  | .running stage => some stage
  | .streaming | .reading | .buffering => some .convertResponse
  | .idle | .sleeping | .returned _ => none

structure State where
  attempt : Nat := 0
  phase : Phase := .idle
  /-- The accumulator of each attempt that spawned one. -/
  accums : BTreeMap Nat AccumTask := []
  events : List Event := []
  deriving DecidableEq

/-- What does not change during a run: the retry policy, the method and the endpoint of the
request, and the parser of `serde_json`. -/
structure Pipeline where
  policy : RetryPolicy := {}
  requestMethod : Option String := none
  requestEndpoint : RequestEndpoint
  fromStr : String → Option Value

namespace State

def emit (s : State) (attempt : Nat) (payloads : List Payload) : State :=
  { s with events := s.events ++ payloads.map (Event.mk attempt) }

def setPhase (s : State) (phase : Phase) : State := { s with phase := phase }

def setAccum (s : State) (attempt : Nat) (task : AccumTask) : State :=
  { s with accums := BTreeMap.insert s.accums attempt task }

def accum (s : State) (attempt : Nat) : Option AccumTask := BTreeMap.get s.accums attempt

end State

/-! ## Steps -/

/-- The stage after another, up to `Send`. -/
def Stage.next : Stage → Option Stage
  | .extract => some .resolve
  | .resolve => some .buildHeaders
  | .buildHeaders => some .convertRequest
  | .convertRequest => some .send
  | .send | .convertResponse => none

inductive Action where
  /-- The future is polled for the first time. -/
  | start
  /-- A stage before `Send` succeeds. -/
  | stageOk
  /-- `Send` succeeds, and `is_sse_response` says whether its response is to be streamed. -/
  | sent (isSse : Bool)
  /-- The bytes of a response that is not streamed have been read. -/
  | bodyRead (bytes : Bytes)
  /-- `convert_stream` or `convert_buffered` succeeds. -/
  | converted (body : ConvertedBody)
  /-- The awaited stage fails. -/
  | failed (err : PipelineError)
  /-- The backoff is over. -/
  | wake
  /-- The future is dropped at an await point. -/
  | dropped
  /-- The body of the response is read: `note_upstream` or `note_converted`. -/
  | note (attempt : Nat) (msg : AccumMsg)
  /-- The body of the response has been drained, or the last handle to the accumulator is
  dropped. -/
  | finish (attempt : Nat)
  /-- The task of the accumulator receives a message. -/
  | receive (attempt : Nat)
  /-- The task of the accumulator reports its progress. -/
  | tick (attempt : Nat)
  deriving DecidableEq

namespace Pipeline

variable (p : Pipeline)

/-- The beginning of `run_attempt`. -/
def begin (s : State) (attempt : Nat) : State :=
  ({ s with attempt := attempt, phase := .running .extract }).emit attempt
    [.stage (.started p.requestEndpoint)]

/-- `fail`: what is emitted for an error that a stage returned. -/
def failPayloads (attempt : Nat) (err : PipelineError) : List Payload :=
  [.stage (.error err.stage err.message err.recoverable err.stop),
    .stage (.completed false (attemptsOf attempt))]

/-- What the guard of an attempt emits when it is dropped. -/
def guardPayloads (attempt : Nat) (stage : Stage) : List Payload :=
  [.stage (.error stage "pipeline attempt cancelled before completion" false false),
    .stage (.completed false (attemptsOf attempt))]

/-- The end of an attempt that converted its response. -/
def convertedPayloads (attempt : Nat) : ConvertedBody → List Payload
  | .buffered bytes =>
    [.stage (.output .convertResponse), .record (.convertedBody bytes none),
      .stage (.completed true (attemptsOf attempt))]
  | .stream => [.stage (.output .convertResponse)]

/-- The loop of `run_with` after an attempt that failed. -/
def retry (s : State) (err : PipelineError) : State :=
  if p.policy.shouldRetry p.requestMethod s.attempt err then
    if p.policy.backoffFor s.attempt = 0 then p.begin s (s.attempt + 1)
    else s.setPhase .sleeping
  else s.setPhase (.returned (.err err))

/-- The task of an accumulator receives the first message of its queue. -/
def receive (s : State) (attempt : Nat) (task : AccumTask) : Option State :=
  if task.ended then none
  else match task.queue with
    | [] => none
    | .finish :: queue =>
      some ((s.setAccum attempt { task with queue := queue, ended := true }).emit attempt
        (task.acc.finalPayloads p.fromStr p.requestEndpoint attempt))
    | msg :: queue =>
      some (s.setAccum attempt { task with queue := queue, acc := task.acc.receive msg })

/-- One step, when it is enabled. -/
def step (s : State) : Action → Option State
  | .start => if s.phase = .idle then some (p.begin s 0) else none
  | .stageOk =>
    match s.phase with
    | .running stage =>
      stage.next.map fun next =>
        (s.emit s.attempt [.stage (.output stage)]).setPhase (.running next)
    | _ => none
  | .sent isSse =>
    if s.phase = .running .send then
      let s := s.emit s.attempt [.stage (.output .send)]
      some (if isSse then (s.setAccum s.attempt {}).setPhase .streaming else s.setPhase .reading)
    else none
  | .bodyRead bytes =>
    if s.phase = .reading then
      some ((s.emit s.attempt [.record (.upstreamBody bytes none)]).setPhase .buffering)
    else none
  | .converted body =>
    if s.phase = .streaming ∨ s.phase = .buffering then
      some ((s.emit s.attempt (convertedPayloads s.attempt body)).setPhase (.returned (.ok body)))
    else none
  | .failed err =>
    if s.phase.guarded.isSome then
      some (p.retry (s.emit s.attempt (failPayloads s.attempt err)) err)
    else none
  | .wake => if s.phase = .sleeping then some (p.begin s (s.attempt + 1)) else none
  | .dropped =>
    match s.phase.guarded with
    | some stage =>
      some ((s.emit s.attempt (guardPayloads s.attempt stage)).setPhase (.returned .dropped))
    | none => if s.phase = .sleeping then some (s.setPhase (.returned .dropped)) else none
  | .note attempt msg =>
    if msg = .finish then none
    else (s.accum attempt).map fun task =>
      s.setAccum attempt { task with queue := task.queue ++ [msg] }
  | .finish attempt =>
    -- While `convert_stream` is awaited, `convert_response` holds a handle.
    if s.phase = .streaming ∧ s.attempt = attempt then none
    else (s.accum attempt).bind fun task =>
      if task.finished then none
      else some (s.setAccum attempt
        { task with queue := task.queue ++ [.finish], finished := true })
  | .receive attempt => (s.accum attempt).bind (p.receive s attempt)
  | .tick attempt =>
    (s.accum attempt).bind fun task =>
      if task.ended then none
      else some (s.emit attempt [.progress task.acc.bytesStreamed task.acc.chunks])

/-- The state after some actions, when each is enabled in its turn. -/
def run (actions : List Action) : Option State := Machine.exec p.step {} actions

end Pipeline

end Tokn.Requests
