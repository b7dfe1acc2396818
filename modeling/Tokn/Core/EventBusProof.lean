import Tokn.Core.EventBus

/-!
# What an event bus keeps

**Theorem (`run_orderly`).** In every run of the bus each handler that does not panic handles the
events that were dispatched, in the order they were emitted, and every message the dispatcher has
passed over is one it has reported; flush runs once, after the last event. If no emission takes the
slot of a shutdown request that the dispatcher has not received, `shutdown` returns only when every
handler that did not panic has handled everything dispatched and was flushed.

An emission that takes that slot drops the sender of the reply with the request, and `shutdown`
returns at once (`shutdown_not_drained`).

The proof goes by one invariant of the bus, with one line for each status of a worker.
-/

namespace Tokn

theorem Broadcast.length_received {α : Type*} {c : Broadcast α} (h : c.Behind) :
    c.received.length + c.missed = c.fates.length := by
  obtain ⟨sent, fates⟩ := c
  show (zipReceived sent fates).length + fates.count false = fates.length
  have hlen : fates.length ≤ sent.length := h
  clear h
  induction sent generalizing fates with
  | nil =>
    have hf : fates = [] := List.length_eq_zero_iff.mp (Nat.le_zero.mp hlen)
    rw [hf]
    rfl
  | cons a sent ih =>
    cases fates with
    | nil => rfl
    | cons b fates =>
      have ih := ih fates (Nat.le_of_succ_le_succ hlen)
      cases b with
      | true =>
        show (zipReceived sent fates).length + 1 + List.count false (true :: fates) = _
        rw [List.count_cons_of_ne (by decide), List.length_cons]
        omega
      | false =>
        show (zipReceived sent fates).length + List.count false (false :: fates) = _
        rw [List.count_cons_self, List.length_cons]
        omega

namespace EventBus

open Machine

variable {ε : Type} {n : Nat} {slots : Nat}

/-! ## Workers -/

/-- The dispatcher is in its loop. -/
def Dispatcher.opened : Dispatcher ε → Bool
  | .receiving => true
  | .dispatching _ _ => true
  | .joining _ => false
  | .finished => false

/-- The event that is on its way to handler `j`. -/
def Dispatcher.due (d : Dispatcher ε) (j : Nat) : List ε :=
  match d with
  | .dispatching e i => if i ≤ j then [e] else []
  | _ => []

/-- What a worker has handled and what waits for it make up the dispatched events. -/
def Worker.Sound (opened : Bool) (due dispatched : List ε) (w : Worker ε) : Prop :=
  match w.status with
  | .waiting =>
    w.handled ++ w.queue ++ due = dispatched ∧ w.flushes = 0 ∧ w.sender = opened
  | .handling e =>
    w.handled ++ e :: w.queue ++ due = dispatched ∧ w.flushes = 0 ∧ w.sender = opened
  | .flushing => w.handled = dispatched ∧ w.flushes = 0 ∧ opened = false
  | .exited => w.handled = dispatched ∧ w.flushes = 1 ∧ opened = false
  | .panicked => True

section

variable {opened : Bool} {due dispatched : List ε} {w w' : Worker ε} {e : ε}

theorem Worker.Sound.step {panics : Bool} (hdue : opened = false → due = [])
    (hw : w.Sound opened due dispatched) (h : w.step panics = some w') :
    w'.Sound opened due dispatched := by
  obtain ⟨sender, queue, status, handled, flushes⟩ := w
  cases status with
  | waiting =>
    obtain ⟨hall, hflush, hsender⟩ := hw
    cases queue with
    | cons e queue =>
      obtain rfl := Option.some.inj h
      exact ⟨hall, hflush, hsender⟩
    | nil =>
      cases sender with
      | true => cases h
      | false =>
        obtain rfl := Option.some.inj h
        rw [hdue hsender.symm, List.append_nil, List.append_nil] at hall
        exact ⟨hall, hflush, hsender.symm⟩
  | handling e =>
    obtain ⟨hall, hflush, hsender⟩ := hw
    cases panics with
    | true =>
      obtain rfl := Option.some.inj h
      trivial
    | false =>
      obtain rfl := Option.some.inj h
      refine ⟨?_, hflush, hsender⟩
      show handled ++ [e] ++ queue ++ due = dispatched
      rw [List.append_assoc handled]
      exact hall
  | flushing =>
    obtain ⟨hall, hflush, hopened⟩ := hw
    cases panics with
    | true =>
      obtain rfl := Option.some.inj h
      trivial
    | false =>
      obtain rfl := Option.some.inj h
      exact ⟨hall, congrArg (· + 1) hflush, hopened⟩
  | exited => cases h
  | panicked => cases h

/-- One more event is dispatched. -/
theorem Worker.Sound.dispatch (hw : w.Sound true [] dispatched) (e : ε) :
    w.Sound true [e] (dispatched ++ [e]) := by
  obtain ⟨sender, queue, status, handled, flushes⟩ := w
  cases status with
  | waiting =>
    obtain ⟨hall, hrest⟩ := hw
    rw [List.append_nil] at hall
    exact ⟨congrArg (· ++ [e]) hall, hrest⟩
  | handling _ =>
    obtain ⟨hall, hrest⟩ := hw
    rw [List.append_nil] at hall
    exact ⟨congrArg (· ++ [e]) hall, hrest⟩
  | flushing => exact absurd hw.2.2 (by decide)
  | exited => exact absurd hw.2.2 (by decide)
  | panicked => trivial

/-- The event reaches the queue of a worker that has not panicked. -/
theorem Worker.Sound.send (hw : w.Sound true [e] dispatched) :
    (w.send e).Sound true [] dispatched := by
  obtain ⟨sender, queue, status, handled, flushes⟩ := w
  cases status with
  | waiting =>
    obtain ⟨hall, hflush, rfl⟩ := hw
    refine ⟨?_, hflush, rfl⟩
    show handled ++ (queue ++ [e]) ++ [] = dispatched
    rw [List.append_nil, ← List.append_assoc]
    exact hall
  | handling e' =>
    obtain ⟨hall, hflush, rfl⟩ := hw
    refine ⟨?_, hflush, rfl⟩
    show handled ++ e' :: (queue ++ [e]) ++ [] = dispatched
    rw [List.append_nil, ← List.cons_append, ← List.append_assoc]
    exact hall
  | flushing => exact absurd hw.2.2 (by decide)
  | exited => exact absurd hw.2.2 (by decide)
  | panicked => cases sender <;> trivial

theorem Worker.Sound.dropSender (hw : w.Sound true [] dispatched) :
    w.dropSender.Sound false [] dispatched := by
  obtain ⟨sender, queue, status, handled, flushes⟩ := w
  cases status with
  | waiting => exact ⟨hw.1, hw.2.1, rfl⟩
  | handling _ => exact ⟨hw.1, hw.2.1, rfl⟩
  | flushing => exact absurd hw.2.2 (by decide)
  | exited => exact absurd hw.2.2 (by decide)
  | panicked => trivial

theorem Worker.over_of_step {panics : Bool} (h : w.step panics = some w') : ¬ w.status.Over := by
  obtain ⟨sender, queue, status, handled, flushes⟩ := w
  cases status with
  | waiting => exact nofun
  | handling _ => exact nofun
  | flushing => exact nofun
  | exited => cases h
  | panicked => cases h

end

/-! ## The bus -/

/-- The events the dispatcher has received, in order. -/
def Bus.dispatched (b : Bus ε n) : List ε := b.channel.received.filterMap Message.event?

/-- The events that were emitted, in order. -/
def Bus.emitted (b : Bus ε n) : List ε := b.channel.sent.filterMap Message.event?

/-- The invariant of every run. -/
structure Bus.Sound (b : Bus ε n) : Prop where
  behind : b.channel.Behind
  warnings : b.warnings.sum = b.channel.missed
  worker : ∀ j : Fin n,
    (b.workers j).Sound b.dispatcher.opened (b.dispatcher.due j) b.dispatched
  joined : ∀ i, b.dispatcher = .joining i → ∀ j : Fin n, j < i → (b.workers j).status.Over
  finished : b.dispatcher = .finished → ∀ j, (b.workers j).status.Over
  answered : b.request = .answered → b.dispatcher = .finished
  returned : b.caller = .returned → b.request = .answered ∨ b.request = .dropped

theorem Bus.Sound.start : (start ε n).Sound where
  behind := le_rfl
  warnings := rfl
  worker := fun _ => ⟨rfl, rfl, rfl⟩
  joined := nofun
  finished := nofun
  answered := nofun
  returned := nofun

variable {b b' : Bus ε n}

/-- Nothing but the channel, the finalizers and the caller changes: a step of an emitter. -/
theorem Bus.Sound.of_send (hb : b.Sound)
    (hchannel : b'.channel = b.channel ∨ ∃ m, b'.channel = b.channel.send m)
    (hwarnings : b'.warnings = b.warnings) (hdispatcher : b'.dispatcher = b.dispatcher)
    (hworkers : b'.workers = b.workers) (hanswered : b'.request = .answered → b.request = .answered)
    (hreturned : b'.caller = .returned → b'.request = .answered ∨ b'.request = .dropped) :
    b'.Sound := by
  have hreceived : b'.channel.received = b.channel.received := by
    rcases hchannel with h | ⟨m, h⟩
    · rw [h]
    · rw [h, Broadcast.received_send hb.behind]
  exact {
    behind := by
      rcases hchannel with h | ⟨m, h⟩
      · exact h ▸ hb.behind
      · exact h ▸ hb.behind.send m
    warnings := by
      rw [hwarnings, hb.warnings]
      rcases hchannel with h | ⟨m, h⟩
      · rw [h]
      · rw [h, Broadcast.missed_send]
    worker := by
      rw [hdispatcher, hworkers, Bus.dispatched, hreceived]
      exact hb.worker
    joined := by
      rw [hdispatcher, hworkers]
      exact hb.joined
    finished := by
      rw [hdispatcher, hworkers]
      exact hb.finished
    answered := fun h => hdispatcher.trans (hb.answered (hanswered h))
    returned := hreturned }

theorem Request.afterSend_eq (slots : Nat) (request : Request) (sent : Broadcast (Message ε)) :
    request.afterSend slots sent = request ∨
      (∃ position, request = .queued position) ∧ request.afterSend slots sent = .dropped := by
  cases request with
  | queued position =>
    rw [Request.afterSend]
    split_ifs
    · exact Or.inl rfl
    · exact Or.inr ⟨⟨position, rfl⟩, rfl⟩
  | none => exact Or.inl rfl
  | taken => exact Or.inl rfl
  | answered => exact Or.inl rfl
  | dropped => exact Or.inl rfl

theorem Bus.Sound.send (hb : b.Sound) (m : Message ε) : (b.send slots m).Sound := by
  rw [Bus.send]
  split_ifs
  · exact hb
  · have hreq := Request.afterSend_eq slots b.request (b.channel.send m)
    refine hb.of_send (Or.inr ⟨m, rfl⟩) rfl rfl rfl (fun h => ?_) fun h => ?_
    · rcases hreq with hreq | ⟨-, hreq⟩
      · exact hreq ▸ h
      · exact nomatch hreq.symm.trans h
    · rcases hreq with hreq | ⟨-, hreq⟩
      · show b.request.afterSend slots _ = _ ∨ b.request.afterSend slots _ = _
        rw [hreq]
        exact hb.returned h
      · exact Or.inr hreq

theorem Bus.Sound.stepCaller (hb : b.Sound) (h : b.stepCaller = some b') : b'.Sound := by
  rw [Bus.stepCaller] at h
  split at h
  · split_ifs at h
    obtain rfl := Option.some.inj h
    exact hb.of_send (Or.inl rfl) rfl rfl rfl id nofun
  · split_ifs at h
    obtain rfl := Option.some.inj h
    rw [Bus.sendShutdown]
    split_ifs
    · exact hb.of_send (Or.inl rfl) rfl rfl rfl nofun nofun
    · exact hb.of_send (Or.inr ⟨_, rfl⟩) rfl rfl rfl nofun nofun
  · split at h
    · rename_i hreq
      obtain rfl := Option.some.inj h
      exact hb.of_send (Or.inl rfl) rfl rfl rfl id fun _ => Or.inl hreq
    · rename_i hreq
      obtain rfl := Option.some.inj h
      exact hb.of_send (Or.inl rfl) rfl rfl rfl id fun _ => Or.inr hreq
    · cases h
  · cases h

theorem Bus.Sound.stepWorker (hb : b.Sound) {j : Fin n} {panics : Bool} {w : Worker ε}
    (h : (b.workers j).step panics = some w) :
    ({ b with workers := Function.update b.workers j w } : Bus ε n).Sound := by
  have hover : ∀ i, (b.workers i).status.Over →
      (Function.update b.workers j w i).status.Over := by
    intro i hi
    by_cases hij : i = j
    · exact absurd (hij ▸ hi) (Worker.over_of_step h)
    · rw [Function.update_of_ne hij]
      exact hi
  exact {
    behind := hb.behind
    warnings := hb.warnings
    worker := by
      intro i
      show (Function.update b.workers j w i).Sound _ _ b.dispatched
      by_cases hij : i = j
      · rw [hij, Function.update_self]
        refine (hb.worker j).step (fun hopened => ?_) h
        cases hd : b.dispatcher with
        | receiving => rfl
        | dispatching _ _ => exact nomatch (hd ▸ hopened : (Dispatcher.dispatching _ _).opened = false)
        | joining _ => rfl
        | finished => rfl
      · rw [Function.update_of_ne hij]
        exact hb.worker i
    joined := fun i hi k hk => hover k (hb.joined i hi k hk)
    finished := fun hf k => hover k (hb.finished hf k)
    answered := hb.answered
    returned := hb.returned }

/-- The dispatcher leaves its loop, with or without a request to answer. -/
theorem Bus.Sound.leaveLoop (hb : b.Sound) (hd : b.dispatcher = .receiving)
    (hchannel : b'.channel.Behind ∧ b'.channel.missed = b.channel.missed ∧
      b'.dispatched = b.dispatched) (hwarnings : b'.warnings = b.warnings)
    (hdispatcher : b'.dispatcher = .joining 0)
    (hworkers : b'.workers = fun j => (b.workers j).dropSender) (hrequest : b'.request ≠ .answered)
    (hreturned : b'.caller = .returned → b'.request = .answered ∨ b'.request = .dropped) :
    b'.Sound where
  behind := hchannel.1
  warnings := by rw [hwarnings, hb.warnings, hchannel.2.1]
  worker := by
    intro j
    have hw := hb.worker j
    rw [hd] at hw
    rw [hdispatcher, hworkers, hchannel.2.2]
    exact hw.dropSender
  joined := by
    intro i hi j hj
    rw [hdispatcher] at hi
    obtain rfl := Dispatcher.joining.inj hi
    exact absurd hj (Nat.not_lt_zero _)
  finished := fun h => nomatch hdispatcher.symm.trans h
  answered := fun h => absurd h hrequest
  returned := hreturned

theorem Request.take_cases (request : Request) :
    request.take = .taken ∨ request.take = request := by
  cases request <;> simp [Request.take]

theorem Bus.Sound.receive (hb : b.Sound) (hd : b.dispatcher = .receiving)
    (h : b.stepDispatcher slots = some b') : b'.Sound := by
  rw [Bus.stepDispatcher, hd] at h
  have hnot : b.request ≠ .answered := fun ha => nomatch hd.symm.trans (hb.answered ha)
  obtain ⟨r, channel, hrecv⟩ : ∃ r channel, b.channel.recv slots = (r, channel) := ⟨_, _, rfl⟩
  obtain ⟨hsent, hbehind, hcases⟩ := Broadcast.recv_cases hb.behind hrecv
  simp only [hrecv] at h
  rcases hcases with ⟨m, rfl, hreceived, hmissed⟩ | ⟨k, rfl, hreceived, hmissed⟩ | ⟨rfl, rfl⟩
  · cases m with
    | event e =>
      obtain rfl := Option.some.inj h
      exact {
        behind := hbehind
        warnings := hb.warnings.trans hmissed.symm
        worker := by
          intro j
          have hw := hb.worker j
          rw [hd] at hw
          have hdisp : ({ b with channel := channel, dispatcher := .dispatching e 0 } :
              Bus ε n).dispatched = b.dispatched ++ [e] := by
            show channel.received.filterMap _ = _
            rw [hreceived, List.filterMap_append]
            rfl
          rw [hdisp]
          exact hw.dispatch e
        joined := nofun
        finished := nofun
        answered := fun ha => absurd ha hnot
        returned := hb.returned }
    | shutdown =>
      obtain rfl := Option.some.inj h
      have hdisp : channel.received.filterMap Message.event? = b.dispatched := by
        rw [hreceived, List.filterMap_append]
        exact List.append_nil _
      refine hb.leaveLoop hd ⟨hbehind, hmissed, hdisp⟩ rfl rfl rfl ?_ fun hr => ?_
      · show b.request.take ≠ .answered
        rcases b.request.take_cases with ht | ht
        · rw [ht]
          nofun
        · rw [ht]
          exact hnot
      · show b.request.take = _ ∨ b.request.take = _
        rcases hb.returned hr with hreq | hreq
        · exact absurd hreq hnot
        · rw [hreq]
          exact Or.inr rfl
  · obtain rfl := Option.some.inj h
    exact {
      behind := hbehind
      warnings := by
        show (b.warnings ++ [k]).sum = channel.missed
        rw [List.sum_append, hb.warnings, hmissed]
        rfl
      worker := by
        intro j
        have hw := hb.worker j
        rw [hd] at hw
        show (b.workers j).Sound true [] (channel.received.filterMap Message.event?)
        rw [hreceived]
        exact hw
      joined := nofun
      finished := nofun
      answered := fun ha => absurd ha hnot
      returned := hb.returned }
  · simp only at h
    split_ifs at h
    obtain rfl := Option.some.inj h
    exact hb.leaveLoop hd ⟨hb.behind, rfl, rfl⟩ rfl rfl rfl hnot hb.returned

/-- The dispatcher sends an event to one handler after the other. -/
theorem Bus.Sound.dispatch {e : ε} {i : Nat} (hb : b.Sound) (hd : b.dispatcher = .dispatching e i)
    (h : b.stepDispatcher slots = some b') : b'.Sound := by
  rw [Bus.stepDispatcher, hd] at h
  have hnot : b.request ≠ .answered := fun ha => nomatch hd.symm.trans (hb.answered ha)
  have hworker := hb.worker
  rw [hd] at hworker
  simp only at h
  split_ifs at h with hi
  · obtain rfl := Option.some.inj h
    exact {
      behind := hb.behind
      warnings := hb.warnings
      worker := by
        intro j
        show (Function.update b.workers ⟨i, hi⟩ _ j).Sound true
          (if i + 1 ≤ (j : Nat) then [e] else []) b.dispatched
        have hw : (b.workers j).Sound true (if i ≤ (j : Nat) then [e] else []) b.dispatched :=
          hworker j
        by_cases hij : j = ⟨i, hi⟩
        · subst hij
          rw [if_pos le_rfl] at hw
          rw [Function.update_self, if_neg (Nat.not_succ_le_self i)]
          exact hw.send
        · have hne : (j : Nat) ≠ i := fun h => hij (Fin.ext h)
          rw [Function.update_of_ne hij]
          by_cases hle : i ≤ (j : Nat)
          · rw [if_pos hle] at hw
            rw [if_pos (by omega)]
            exact hw
          · rw [if_neg hle] at hw
            rw [if_neg (by omega)]
            exact hw
      joined := nofun
      finished := nofun
      answered := fun ha => absurd ha hnot
      returned := hb.returned }
  · obtain rfl := Option.some.inj h
    exact {
      behind := hb.behind
      warnings := hb.warnings
      worker := by
        intro j
        have hw : (b.workers j).Sound true (if i ≤ (j : Nat) then [e] else []) b.dispatched :=
          hworker j
        rw [if_neg (by omega)] at hw
        exact hw
      joined := nofun
      finished := nofun
      answered := fun ha => absurd ha hnot
      returned := hb.returned }

/-- The dispatcher joins one worker after the other. -/
theorem Bus.Sound.join {i : Nat} (hb : b.Sound) (hd : b.dispatcher = .joining i)
    (h : b.stepDispatcher slots = some b') : b'.Sound := by
  rw [Bus.stepDispatcher, hd] at h
  have hnot : b.request ≠ .answered := fun ha => nomatch hd.symm.trans (hb.answered ha)
  have hworker := hb.worker
  rw [hd] at hworker
  have hjoined := hb.joined i hd
  simp only at h
  by_cases hi : i < n
  · rw [dif_pos hi] at h
    split_ifs at h with hover
    obtain rfl := Option.some.inj h
    exact {
      behind := hb.behind
      warnings := hb.warnings
      worker := hworker
      joined := by
        intro k hk j hj
        obtain rfl := Dispatcher.joining.inj hk
        rcases Nat.lt_succ_iff_lt_or_eq.mp hj with hlt | heq
        · exact hjoined j hlt
        · have hj' : j = ⟨i, hi⟩ := Fin.ext heq
          exact hj' ▸ hover
      finished := nofun
      answered := fun ha => absurd ha hnot
      returned := hb.returned }
  · rw [dif_neg hi] at h
    obtain rfl := Option.some.inj h
    have hlt : ∀ j : Fin n, (j : Nat) < i := fun j => by omega
    exact {
      behind := hb.behind
      warnings := hb.warnings
      worker := hworker
      joined := nofun
      finished := fun _ j => hjoined j (hlt j)
      answered := fun _ => rfl
      returned := by
        intro hr
        have hreq := (hb.returned hr).resolve_left hnot
        refine Or.inr ?_
        show (if b.request = .taken then .answered else b.request) = _
        rw [hreq, if_neg nofun] }

/-- **The step lemma.** -/
theorem Bus.Sound.step {a : Action ε n} (hb : b.Sound) (h : EventBus.step slots b a = some b') :
    b'.Sound := by
  cases a with
  | emit e =>
    rw [EventBus.step] at h
    split_ifs at h
    obtain rfl := Option.some.inj h
    exact hb.send (.event e)
  | beginFinalizer =>
    rw [EventBus.step] at h
    split_ifs at h
    obtain rfl := Option.some.inj h
    exact hb.of_send (Or.inl rfl) rfl rfl rfl id hb.returned
  | endFinalizer =>
    rw [EventBus.step] at h
    split_ifs at h
    obtain rfl := Option.some.inj h
    exact hb.of_send (Or.inl rfl) rfl rfl rfl id hb.returned
  | shutdown => exact hb.stepCaller h
  | close =>
    rw [EventBus.step] at h
    split_ifs at h
    obtain rfl := Option.some.inj h
    exact hb.of_send (Or.inl rfl) rfl rfl rfl id hb.returned
  | dispatcher =>
    rw [EventBus.step] at h
    cases hd : b.dispatcher with
    | receiving => exact hb.receive hd h
    | dispatching e i => exact hb.dispatch hd h
    | joining i => exact hb.join hd h
    | finished =>
      rw [Bus.stepDispatcher, hd] at h
      cases h
  | worker j panics =>
    obtain ⟨w, hw, rfl⟩ := Option.map_eq_some_iff.mp h
    exact hb.stepWorker hw

/-! ## The shutdown request -/

/-- An emission does not take the slot of a shutdown request that is still in the channel. -/
def NoOverrun (slots : Nat) (b : Bus ε n) : Action ε n → Prop
  | .emit e =>
    ∀ position, b.request = .queued position → (b.channel.send (.event e)).Kept slots position
  | _ => True

instance (b : Bus ε n) (a : Action ε n) : Decidable (NoOverrun slots b a) :=
  match a with
  | .emit e =>
    match hr : b.request with
    | .queued position =>
      decidable_of_iff ((b.channel.send (.event e)).Kept slots position)
        ⟨fun h _ hp => Request.queued.inj (hr.symm.trans hp) ▸ h, fun h => h position hr⟩
    | .none => isTrue fun _ hp => nomatch hr.symm.trans hp
    | .taken => isTrue fun _ hp => nomatch hr.symm.trans hp
    | .answered => isTrue fun _ hp => nomatch hr.symm.trans hp
    | .dropped => isTrue fun _ hp => nomatch hr.symm.trans hp
  | .beginFinalizer => isTrue trivial
  | .endFinalizer => isTrue trivial
  | .shutdown => isTrue trivial
  | .close => isTrue trivial
  | .dispatcher => isTrue trivial
  | .worker _ _ => isTrue trivial

/-- Where the shutdown request can be, as long as it is not overrun. -/
structure Bus.Requested (b : Bus ε n) : Prop where
  unsent : b.caller = .idle ∨ b.caller = .draining → b.request = .none
  calling : b.caller = .draining ∨ b.caller = .waiting → b.isOpen = true
  left : b.dispatcher.opened = false → b.request ≠ .none ∨ b.isOpen = false
  carried : .shutdown ∈ b.channel.sent → b.request ≠ .none
  kept : b.request ≠ .dropped

theorem Bus.Requested.start : (start ε n).Requested where
  unsent := fun _ => rfl
  calling := nofun
  left := nofun
  carried := nofun
  kept := nofun

theorem Bus.Requested.emit {e : ε} (hb : b.Requested) (hno : NoOverrun slots b (.emit e)) :
    (b.send slots (.event e)).Requested := by
  rw [Bus.send]
  split_ifs
  · exact hb
  · have hreq : b.request.afterSend slots (b.channel.send (.event e)) = b.request := by
      cases hr : b.request with
      | queued position => exact if_pos (hno position hr)
      | none => rfl
      | taken => rfl
      | answered => rfl
      | dropped => rfl
    exact {
      unsent := fun h => hreq.trans (hb.unsent h)
      calling := hb.calling
      left := fun h => (hb.left h).imp_left fun hne hnone => hne (hreq.symm.trans hnone)
      carried := by
        intro h
        show b.request.afterSend slots (b.channel.send (.event e)) ≠ .none
        rw [hreq]
        refine hb.carried ?_
        rcases List.mem_append.mp h with h | h
        · exact h
        · cases List.mem_singleton.mp h
      kept := fun h => hb.kept (hreq.symm.trans h) }

theorem Bus.Requested.stepCaller (hb : b.Requested) (h : b.stepCaller = some b') :
    b'.Requested := by
  rw [Bus.stepCaller] at h
  split at h
  · rename_i hcaller
    split_ifs at h with hopen
    obtain rfl := Option.some.inj h
    exact { hb with
      unsent := fun _ => hb.unsent (Or.inl hcaller)
      calling := fun _ => hopen }
  · rename_i hcaller
    split_ifs at h
    obtain rfl := Option.some.inj h
    have hnone := hb.unsent (Or.inr hcaller)
    have hopen := hb.calling (Or.inl hcaller)
    have hloop : b.dispatcher.opened = true := by
      cases hd : b.dispatcher.opened with
      | true => rfl
      | false =>
        rcases hb.left hd with hreq | hclosed
        · exact absurd hnone hreq
        · exact nomatch hopen.symm.trans hclosed
    have hfinished : ¬ b.dispatcher.isFinished := by
      cases hd : b.dispatcher with
      | finished => exact nomatch (hd ▸ hloop : (Dispatcher.finished : Dispatcher ε).opened = true)
      | receiving => exact nofun
      | dispatching _ _ => exact nofun
      | joining _ => exact nofun
    rw [Bus.sendShutdown, if_neg hfinished]
    exact {
      unsent := nofun
      calling := fun _ => hopen
      left := fun _ => Or.inl nofun
      carried := fun _ => nofun
      kept := nofun }
  · split at h
    · rename_i hreq
      obtain rfl := Option.some.inj h
      exact { hb with
        unsent := nofun
        calling := nofun }
    · rename_i hreq
      exact absurd hreq hb.kept
    · cases h
  · cases h

theorem Request.take_eq_none {request : Request} : request.take = .none ↔ request = .none := by
  cases request <;> simp [Request.take]

theorem Request.take_eq_dropped {request : Request} :
    request.take = .dropped ↔ request = .dropped := by
  cases request <;> simp [Request.take]

theorem Bus.Requested.stepDispatcher (hb : b.Requested) (hs : b.Sound)
    (h : b.stepDispatcher slots = some b') : b'.Requested := by
  rw [Bus.stepDispatcher] at h
  cases hd : b.dispatcher with
  | receiving =>
    rw [hd] at h
    obtain ⟨r, channel, hrecv⟩ : ∃ r channel, b.channel.recv slots = (r, channel) := ⟨_, _, rfl⟩
    obtain ⟨hsent, -, hcases⟩ := Broadcast.recv_cases hs.behind hrecv
    simp only [hrecv] at h
    rcases hcases with ⟨m, rfl, hreceived, -⟩ | ⟨k, rfl, -, -⟩ | ⟨rfl, rfl⟩
    · have hmem : m ∈ b.channel.sent := by
        rw [← hsent]
        refine channel.received_sublist.subset ?_
        rw [hreceived]
        exact List.mem_append_right _ List.mem_cons_self
      cases m with
      | event e =>
        obtain rfl := Option.some.inj h
        exact { hb with
          left := nofun
          carried := fun h => hb.carried (hsent ▸ h) }
      | shutdown =>
        obtain rfl := Option.some.inj h
        have hne := hb.carried hmem
        exact {
          unsent := fun h => absurd (hb.unsent h) hne
          calling := hb.calling
          left := fun _ => Or.inl fun h => hne (Request.take_eq_none.mp h)
          carried := fun _ h => hne (Request.take_eq_none.mp h)
          kept := fun h => hb.kept (Request.take_eq_dropped.mp h) }
    · obtain rfl := Option.some.inj h
      exact { hb with
        left := nofun
        carried := fun h => hb.carried (hsent ▸ h) }
    · simp only at h
      split_ifs at h with hopen
      obtain rfl := Option.some.inj h
      exact { hb with left := fun _ => Or.inr (Bool.eq_false_iff.mpr hopen) }
  | dispatching e i =>
    rw [hd] at h
    simp only at h
    split_ifs at h
    · obtain rfl := Option.some.inj h
      exact { hb with left := nofun }
    · obtain rfl := Option.some.inj h
      exact { hb with left := nofun }
  | joining i =>
    have hleft := hb.left (by rw [hd]; rfl)
    rw [hd] at h
    simp only at h
    by_cases hi : i < n
    · rw [dif_pos hi] at h
      split_ifs at h
      obtain rfl := Option.some.inj h
      exact { hb with left := fun _ => hleft }
    · rw [dif_neg hi] at h
      obtain rfl := Option.some.inj h
      by_cases ht : b.request = .taken
      · rw [if_pos ht]
        have hne : b.request ≠ .none := by rw [ht]; nofun
        exact {
          unsent := fun h => absurd (hb.unsent h) hne
          calling := hb.calling
          left := fun _ => Or.inl nofun
          carried := fun _ => nofun
          kept := nofun }
      · rw [if_neg ht]
        exact { hb with left := fun _ => hleft }
  | finished =>
    rw [hd] at h
    cases h

theorem Bus.Requested.step {a : Action ε n} (hb : b.Requested) (hs : b.Sound)
    (hno : NoOverrun slots b a) (h : EventBus.step slots b a = some b') : b'.Requested := by
  cases a with
  | emit e =>
    rw [EventBus.step] at h
    split_ifs at h
    obtain rfl := Option.some.inj h
    exact hb.emit hno
  | beginFinalizer =>
    rw [EventBus.step] at h
    split_ifs at h
    obtain rfl := Option.some.inj h
    exact { hb with }
  | endFinalizer =>
    rw [EventBus.step] at h
    split_ifs at h
    obtain rfl := Option.some.inj h
    exact { hb with }
  | shutdown => exact hb.stepCaller h
  | close =>
    rw [EventBus.step] at h
    split_ifs at h with hcaller
    obtain rfl := Option.some.inj h
    refine { hb with
      calling := fun hc => ?_
      left := fun _ => Or.inr rfl }
    rcases hcaller with hcaller | hcaller <;> rcases hc with hc | hc <;>
      exact nomatch hcaller.symm.trans hc
  | dispatcher => exact hb.stepDispatcher hs h
  | worker j panics =>
    obtain ⟨w, -, rfl⟩ := Option.map_eq_some_iff.mp h
    exact { hb with }

/-! ## Runs -/

/-- What holds in every state of every run. Handlers see the dispatched events in order, the
dispatcher has reported what it passed over, and flush comes last and once. -/
structure Bus.Orderly (b : Bus ε n) : Prop where
  ordered : b.dispatched.Sublist b.emitted
  reported : b.channel.received.length + b.warnings.sum = b.channel.fates.length
  handled : ∀ j, (b.workers j).status ≠ .panicked → (b.workers j).handled <+: b.dispatched
  flushed : ∀ j, (b.workers j).status ≠ .panicked →
    (b.workers j).flushes = 0 ∧ (b.workers j).status ≠ .exited ∨
      (b.workers j).flushes = 1 ∧ (b.workers j).status = .exited ∧
        (b.workers j).handled = b.dispatched

/-- Every handler that did not panic has handled every dispatched event, and was flushed. -/
def Bus.Drained (b : Bus ε n) : Prop :=
  ∀ j, (b.workers j).status ≠ .panicked →
    (b.workers j).handled = b.dispatched ∧ (b.workers j).flushes = 1

theorem Bus.Sound.orderly (hb : b.Sound) : b.Orderly where
  ordered := b.channel.received_sublist.filterMap Message.event?
  reported := by
    rw [hb.warnings]
    exact Broadcast.length_received hb.behind
  handled := by
    intro j hj
    have hw := hb.worker j
    rw [Worker.Sound] at hw
    split at hw
    · exact ⟨_, (List.append_assoc _ _ _).symm.trans hw.1⟩
    · exact ⟨_, (List.append_assoc _ _ _).symm.trans hw.1⟩
    · exact hw.1 ▸ List.prefix_rfl
    · exact hw.1 ▸ List.prefix_rfl
    · contradiction
  flushed := by
    intro j hj
    have hw := hb.worker j
    rw [Worker.Sound] at hw
    split at hw
    · rename_i hs
      exact Or.inl ⟨hw.2.1, hs ▸ nofun⟩
    · rename_i hs
      exact Or.inl ⟨hw.2.1, hs ▸ nofun⟩
    · rename_i hs
      exact Or.inl ⟨hw.2.1, hs ▸ nofun⟩
    · rename_i hs
      exact Or.inr ⟨hw.2.1, hs, hw.1⟩
    · contradiction

/-- Once the dispatcher has ended, everything is handled and flushed. -/
theorem Bus.Sound.drained (hb : b.Sound) (hd : b.dispatcher = .finished) : b.Drained := by
  intro j hj
  have hover := hb.finished hd j
  rcases hb.orderly.flushed j hj with ⟨-, hne⟩ | ⟨hflush, -, hall⟩
  · cases hs : (b.workers j).status with
    | exited => exact absurd hs hne
    | panicked => exact absurd hs hj
    | waiting => exact (hs ▸ hover : (Status.waiting : Status ε).Over).elim
    | handling e => exact (hs ▸ hover : (Status.handling e).Over).elim
    | flushing => exact (hs ▸ hover : (Status.flushing : Status ε).Over).elim
  · exact ⟨hall, hflush⟩

theorem sound_of_run {is : List (Action ε n)} (h : exec (step slots) (start ε n) is = some b) :
    b.Sound :=
  exec_invariant Bus.Sound Bus.Sound.start (fun _ _ _ hs hstep => hs.step hstep) h

theorem requested_of_run {is : List (Action ε n)} (h : exec (step slots) (start ε n) is = some b)
    (hno : Along (step slots) (NoOverrun slots) (start ε n) is) : b.Requested := by
  refine exec_induction
    (fun is b => Along (step slots) (NoOverrun slots) (start ε n) is → b.Requested)
    (fun _ => Bus.Requested.start) ?_ h hno
  intro is a b b' hrun hb hstep hno
  rw [along_concat hrun] at hno
  exact (hb hno.1).step (sound_of_run hrun) hno.2 hstep

/-- **Runs of the event bus**, in which no emission takes the slot of the shutdown request. -/
theorem run_orderly (channel : Channel) (capacity : Nat) (is : List (Action ε n)) (b : Bus ε n)
    (h : exec (step (slotsOf channel capacity)) (start ε n) is = some b)
    (hno : Along (step (slotsOf channel capacity)) (NoOverrun (slotsOf channel capacity))
      (start ε n) is) :
    b.Orderly ∧ (b.dispatcher = .finished → b.Drained) ∧ (b.caller = .returned → b.Drained) := by
  have hs := sound_of_run h
  refine ⟨hs.orderly, hs.drained, fun hret => hs.drained (hs.answered ?_)⟩
  exact (hs.returned hret).resolve_right (requested_of_run h hno).kept

/-! ## An overrun request -/

/-- A channel that keeps as many values as were asked for. -/
def exactChannel : Channel := ⟨id, fun _ => le_rfl⟩

/-- With two slots: an event reaches the queue of the one handler, `shutdown` sends its request, and
two more events are emitted before the dispatcher goes on. -/
def overrun : List (Action Nat 1) :=
  [.emit 0, .dispatcher, .dispatcher, .dispatcher, .shutdown, .shutdown, .emit 1, .emit 2, .shutdown]

/-- `shutdown` returns although the handler has neither handled the event nor been flushed. -/
theorem shutdown_not_drained :
    ∃ b, exec (step (slotsOf exactChannel 2)) (start Nat 1) overrun = some b ∧
      b.caller = .returned ∧ b.dispatched = [0] ∧ (b.workers 0).handled = [] ∧ ¬ b.Drained := by
  refine ⟨_, rfl, rfl, rfl, rfl, fun h => ?_⟩
  exact absurd (h 0 nofun).2 (by decide)

/-- With three slots the request is received, and the handler is drained first. -/
def answered : List (Action Nat 1) :=
  [.emit 0, .shutdown, .shutdown, .emit 1, .dispatcher, .dispatcher, .dispatcher, .dispatcher,
    .worker 0 false, .worker 0 false, .worker 0 false, .worker 0 false, .dispatcher, .dispatcher,
    .shutdown]

theorem run_orderly_answered :
    ∃ b, exec (step (slotsOf exactChannel 3)) (start Nat 1) answered = some b ∧
      b.caller = .returned ∧
      b.Orderly ∧ (b.dispatcher = .finished → b.Drained) ∧ (b.caller = .returned → b.Drained) := by
  have hcaller : (exec (step (slotsOf exactChannel 3)) (start Nat 1) answered).map (·.caller) =
      some .returned := by decide
  obtain ⟨b, hb, hret⟩ := Option.map_eq_some_iff.mp hcaller
  exact ⟨b, hb, hret, run_orderly exactChannel 3 answered b hb (by decide)⟩

end EventBus

end Tokn
