import Tokn.Lib.Broadcast
import Tokn.Lib.Machine

/-!
# The event bus

`crates/core/src/event.rs`: emitters put events on a lossy broadcast channel, a dispatcher thread
takes them off and sends each to the queue of every handler, and a worker thread for each handler
handles its queue in order and flushes when the queue is closed. `shutdown` sends its request
through the same channel and waits for the reply. The threads take their steps in any order.
-/

namespace Tokn.EventBus

/-! ## The channel -/

/-- A broadcast channel keeps at least as many values as were asked for. -/
structure Channel where
  slots : Nat → Nat
  retains : ∀ n, n ≤ slots n

/-- The slots of a bus that is created with a capacity. -/
def slotsOf (channel : Channel) (capacity : Nat) : Nat := channel.slots (max capacity 1)

/-- What travels on the channel: the events of the emitters, and the shutdown request. -/
inductive Message (ε : Type) where
  | event (e : ε)
  | shutdown
  deriving DecidableEq

def Message.event? {ε : Type} : Message ε → Option ε
  | .event e => some e
  | .shutdown => none

/-! ## Handlers -/

/-- Where a worker thread stands. A panic in the handler ends it. -/
inductive Status (ε : Type) where
  | waiting
  | handling (e : ε)
  | flushing
  | exited
  | panicked
  deriving DecidableEq

/-- A worker: whether the dispatcher holds the sender of its queue, the queue, what its handler has
handled, and how often it was flushed. -/
structure Worker (ε : Type) where
  sender : Bool
  queue : List ε
  status : Status ε
  handled : List ε
  flushes : Nat
  deriving DecidableEq

/-- The thread has ended, and `join` returns. -/
def Status.Over {ε : Type} (s : Status ε) : Prop :=
  match s with
  | .exited => True
  | .panicked => True
  | _ => False

instance {ε : Type} (s : Status ε) : Decidable s.Over := by
  cases s <;> first | exact isTrue trivial | exact isFalse nofun

variable {ε : Type}

/-- `sender.send(event)`; it fails if the worker has ended, and the sender is dropped. -/
def Worker.send (w : Worker ε) (e : ε) : Worker ε :=
  if w.sender then
    if w.status.Over then { w with sender := false } else { w with queue := w.queue ++ [e] }
  else w

def Worker.dropSender (w : Worker ε) : Worker ε := { w with sender := false }

/-- The next step of a worker, unless it has to wait. A panic drops the queue. -/
def Worker.step (w : Worker ε) (panics : Bool) : Option (Worker ε) :=
  match w.status with
  | .waiting =>
    match w.queue with
    | e :: queue => some { w with status := .handling e, queue := queue }
    | [] => if w.sender then none else some { w with status := .flushing }
  | .handling e =>
    if panics then some { w with status := .panicked, queue := [] }
    else some { w with status := .waiting, handled := w.handled ++ [e] }
  | .flushing =>
    if panics then some { w with status := .panicked }
    else some { w with status := .exited, flushes := w.flushes + 1 }
  | .exited => none
  | .panicked => none

/-! ## The bus -/

/-- Where the dispatcher stands: in `blocking_recv`, on its way through the senders with an event,
or joining the workers. -/
inductive Dispatcher (ε : Type) where
  | receiving
  | dispatching (e : ε) (handlerIndex : Nat)
  | joining (handlerIndex : Nat)
  | finished
  deriving DecidableEq

/-- The receiver is gone. -/
def Dispatcher.isFinished {ε : Type} : Dispatcher ε → Bool
  | .finished => true
  | _ => false

/-- Where the call of `shutdown` stands. -/
inductive Caller where
  | idle
  | draining
  | waiting
  | returned
  deriving DecidableEq

/-- The sender of the reply: in the channel at a position, taken by the dispatcher, used, or dropped
with the message that carried it. -/
inductive Request where
  | none
  | queued (position : Nat)
  | taken
  | answered
  | dropped
  deriving DecidableEq

/-- The bus with `n` handlers. -/
structure Bus (ε : Type) (n : Nat) where
  channel : Broadcast (Message ε)
  warnings : List Nat
  dispatcher : Dispatcher ε
  workers : Fin n → Worker ε
  finalizers : Nat
  isOpen : Bool
  caller : Caller
  request : Request

def start (ε : Type) (n : Nat) : Bus ε n where
  channel := ⟨[], []⟩
  warnings := []
  dispatcher := .receiving
  workers _ := ⟨true, [], .waiting, [], 0⟩
  finalizers := 0
  isOpen := true
  caller := .idle
  request := .none

variable {n : Nat} (slots : Nat)

/-- Sending a message takes the slot of the oldest one, which is dropped. -/
def Request.afterSend (sent : Broadcast (Message ε)) : Request → Request
  | .queued position => if sent.Kept slots position then .queued position else .dropped
  | request => request

/-- `slot.take()`, when the dispatcher receives the message. -/
def Request.take : Request → Request
  | .queued _ => .taken
  | request => request

/-- `tx.send`; once the receiver is gone, it returns the message. -/
def Bus.send (b : Bus ε n) (m : Message ε) : Bus ε n :=
  if b.dispatcher.isFinished then b
  else
    let channel := b.channel.send m
    { b with channel := channel, request := b.request.afterSend slots channel }

/-- `tx.send(Event::Shutdown(..))`. -/
def Bus.sendShutdown (b : Bus ε n) : Bus ε n :=
  if b.dispatcher.isFinished then { b with caller := .waiting, request := .dropped }
  else
    { b with
      channel := b.channel.send .shutdown
      caller := .waiting
      request := .queued b.channel.sent.length }

/-- The next step of `shutdown`: it waits for the finalizers, and then for the reply or for the
reply's sender to be dropped. -/
def Bus.stepCaller (b : Bus ε n) : Option (Bus ε n) :=
  match b.caller with
  | .idle => if b.isOpen then some { b with caller := .draining } else none
  | .draining => if b.finalizers = 0 then some b.sendShutdown else none
  | .waiting =>
    match b.request with
    | .answered => some { b with caller := .returned }
    | .dropped => some { b with caller := .returned }
    | _ => none
  | .returned => none

/-- `drop(senders)` after the loop. -/
def Bus.leaveLoop (b : Bus ε n) : Bus ε n :=
  { b with dispatcher := .joining 0, workers := fun j => (b.workers j).dropSender }

/-- The next step of the dispatcher, unless it has to wait. -/
def Bus.stepDispatcher (b : Bus ε n) : Option (Bus ε n) :=
  match b.dispatcher with
  | .receiving =>
    match b.channel.recv slots with
    | (.value (.event e), channel) =>
      some { b with channel := channel, dispatcher := .dispatching e 0 }
    | (.value .shutdown, channel) =>
      some { b.leaveLoop with channel := channel, request := b.request.take }
    | (.lagged n, channel) => some { b with channel := channel, warnings := b.warnings ++ [n] }
    | (.empty, _) => if b.isOpen then none else some b.leaveLoop
  | .dispatching e i =>
    if h : i < n then
      some { b with
        dispatcher := .dispatching e (i + 1)
        workers := Function.update b.workers ⟨i, h⟩ ((b.workers ⟨i, h⟩).send e) }
    else some { b with dispatcher := .receiving }
  | .joining i =>
    if h : i < n then
      if (b.workers ⟨i, h⟩).status.Over then some { b with dispatcher := .joining (i + 1) } else none
    else
      some { b with
        dispatcher := .finished
        request := if b.request = .taken then .answered else b.request }
  | .finished => none

/-- Who takes the next step. `close` drops the last clone of the bus. -/
inductive Action (ε : Type) (n : Nat) where
  | emit (e : ε)
  | beginFinalizer
  | endFinalizer
  | shutdown
  | close
  | dispatcher
  | worker (j : Fin n) (panics : Bool)
  deriving DecidableEq

def step (b : Bus ε n) : Action ε n → Option (Bus ε n)
  | .emit e => if b.isOpen then some (b.send slots (.event e)) else none
  | .beginFinalizer => if b.isOpen then some { b with finalizers := b.finalizers + 1 } else none
  | .endFinalizer => if 0 < b.finalizers then some { b with finalizers := b.finalizers - 1 } else none
  | .shutdown => b.stepCaller
  | .close =>
    if b.caller = .idle ∨ b.caller = .returned then some { b with isOpen := false } else none
  | .dispatcher => b.stepDispatcher slots
  | .worker j panics =>
    ((b.workers j).step panics).map fun w => { b with workers := Function.update b.workers j w }

end Tokn.EventBus
