import Tokn.Requests.Completion

/-!
# What an accumulator reports

An accumulator receives what is sent to it in order, up to the first `Finish`, however its task is
scheduled.

**Theorem (`stageEvents_streamed`).** When a run that handed its body over as a stream is over, the
stage events of its last attempt are those of the stages, and then those the accumulator emits for
the messages it was sent.
-/

namespace Tokn.Requests

open State (accum_setAccum)

/-! ## What is sent -/

/-- What an action sends to the accumulator of an attempt. -/
def Action.sentTo (attempt : Nat) : Action → Option AccumMsg
  | .note a msg => if a = attempt then some msg else none
  | .finish a => if a = attempt then some .finish else none
  | _ => none

/-- What is sent to the accumulator of an attempt, in order. -/
def sentTo (attempt : Nat) (actions : List Action) : List AccumMsg :=
  actions.filterMap (Action.sentTo attempt)

theorem sentTo_concat (attempt : Nat) (actions : List Action) (action : Action) :
    sentTo attempt (actions ++ [action]) =
      sentTo attempt actions ++ (action.sentTo attempt).toList := by
  rw [sentTo, List.filterMap_append, sentTo]
  cases h : action.sentTo attempt <;> simp [h]

/-- A task has received a beginning of what was sent, and the rest is in its queue. -/
structure AccumTask.Follows (task : AccumTask) (sent : List AccumMsg) : Prop where
  exists_received : ∃ received, AccumMsg.finish ∉ received ∧
    task.acc = received.foldl Accum.receive {} ∧
    sent = received ++ (if task.ended then [.finish] else []) ++ task.queue

theorem AccumTask.Follows.send {task : AccumTask} {sent : List AccumMsg} (h : task.Follows sent)
    (msg : AccumMsg) (finished : Bool) :
    ({ task with queue := task.queue ++ [msg], finished := finished } : AccumTask).Follows
      (sent ++ [msg]) := by
  obtain ⟨received, hnot, hacc, hsent⟩ := h.exists_received
  exact ⟨received, hnot, hacc, by rw [hsent, List.append_assoc]⟩

/-- The stage events of an attempt before those of its accumulator, while it may still hand its
body over. -/
def prologue (endpoint : RequestEndpoint) : Phase → Option (List StageEvent)
  | .running .extract => some [.started endpoint]
  | .running .resolve => some [.started endpoint, .output .extract]
  | .running .buildHeaders => some [.started endpoint, .output .extract, .output .resolve]
  | .running .convertRequest =>
    some [.started endpoint, .output .extract, .output .resolve, .output .buildHeaders]
  | .running .send =>
    some [.started endpoint, .output .extract, .output .resolve, .output .buildHeaders,
      .output .convertRequest]
  | .streaming | .reading | .buffering =>
    some [.started endpoint, .output .extract, .output .resolve, .output .buildHeaders,
      .output .convertRequest, .output .send]
  | .returned (.ok .stream) =>
    some [.started endpoint, .output .extract, .output .resolve, .output .buildHeaders,
      .output .convertRequest, .output .send, .output .convertResponse]
  | .idle | .running .convertResponse | .sleeping | .returned _ => none

variable {p : Pipeline} {s : State} {actions : List Action}

/-- What the accumulator of an attempt has reported. -/
def report (p : Pipeline) (attempt : Nat) : Option AccumTask → List StageEvent
  | some task =>
    if task.ended then stagesOf (task.acc.finalPayloads p.fromStr p.requestEndpoint attempt) else []
  | none => []

/-- The invariant of a run: where its accumulators stand, and what its last attempt has emitted. -/
structure Story (p : Pipeline) (actions : List Action) (s : State) : Prop where
  unsent : ∀ a, s.accum a = none → sentTo a actions = []
  follows : ∀ a task, s.accum a = some task → task.Follows (sentTo a actions)
  held : s.phase = .streaming → AccumMsg.finish ∉ sentTo s.attempt actions
  events : ∀ pre, prologue p.requestEndpoint s.phase = some pre →
    stageEvents s.attempt s.events = pre ++ report p s.attempt (s.accum s.attempt)

variable {action : Action}

/-- A step of the runner that leaves the accumulators alone. -/
theorem Story.move (h : Story p actions s) {s' : State} (hquiet : ∀ a, action.sentTo a = none)
    (haccums : s'.accums = s.accums) (hphase : s'.phase ≠ .streaming)
    (hevents : ∀ pre, prologue p.requestEndpoint s'.phase = some pre →
      stageEvents s'.attempt s'.events = pre ++ report p s'.attempt (s.accum s'.attempt)) :
    Story p (actions ++ [action]) s' := by
  have hsent (a : Nat) : sentTo a (actions ++ [action]) = sentTo a actions := by
    rw [sentTo_concat, hquiet, Option.toList_none, List.append_nil]
  have haccum (a : Nat) : s'.accum a = s.accum a := by rw [State.accum, haccums]; rfl
  refine ⟨fun a => ?_, fun a task => ?_, fun h => absurd h hphase, fun pre hpre => ?_⟩
  · rw [haccum, hsent]
    exact h.unsent a
  · rw [haccum, hsent]
    exact h.follows a task
  · rw [haccum]
    exact hevents pre hpre

/-- No accumulator has reported while its attempt may still hand its body over. -/
theorem Story.report_nil (h : Story p actions s) (hledger : Ledger p s)
    (hphase : s.phase.early = true ∨ s.phase = .streaming) :
    report p s.attempt (s.accum s.attempt) = [] := by
  rcases hphase with hearly | hstreaming
  · rw [hledger.early hearly]
    rfl
  · cases htask : s.accum s.attempt with
    | none => rfl
    | some task =>
      obtain ⟨received, -, -, hsent⟩ := (h.follows _ _ htask).exists_received
      cases hended : task.ended with
      | false => simp [report, hended]
      | true =>
        refine absurd ?_ (h.held hstreaming)
        rw [hsent, hended]
        simp

/-- The next stage. -/
theorem Story.advance (h : Story p actions s) (hledger : Ledger p s)
    (hphase : s.phase.early = true ∨ s.phase = .streaming) (hquiet : ∀ a, action.sentTo a = none)
    {payloads : List Payload} {phase : Phase} (hnot : phase ≠ .streaming)
    (hprologue : ∀ pre, prologue p.requestEndpoint phase = some pre →
      ∃ pre', prologue p.requestEndpoint s.phase = some pre' ∧ pre = pre' ++ stagesOf payloads) :
    Story p (actions ++ [action]) ((s.emit s.attempt payloads).setPhase phase) := by
  refine h.move hquiet rfl hnot fun pre hpre => ?_
  obtain ⟨pre', hpre', rfl⟩ := hprologue pre hpre
  have hevents := h.events pre' hpre'
  have hnil := h.report_nil hledger hphase
  show stageEvents s.attempt (s.emit s.attempt payloads).events =
    _ ++ report p s.attempt (s.accum s.attempt)
  rw [stageEvents_emit, if_pos rfl, hevents, hnil, List.append_nil, List.append_nil]

/-- The next attempt begins. -/
theorem Story.begin (h : Story p actions s) (hledger : Ledger p s)
    (hquiet : ∀ a, action.sentTo a = none) {n : Nat} (hfresh : ¬ s.Started n) :
    Story p (actions ++ [action]) (p.begin s n) := by
  refine h.move hquiet rfl (by simp [Pipeline.begin, State.emit]) fun pre hpre => ?_
  obtain rfl := Option.some.inj hpre
  obtain ⟨hevents, haccum⟩ := hledger.fresh n hfresh
  show stageEvents n (State.emit _ n _).events = _ ++ report p n (s.accum n)
  rw [stageEvents_emit, if_pos rfl, haccum]
  show stageEvents n s.events ++ _ = _
  rw [hevents]
  rfl

/-- An accumulator is spawned for the present attempt. -/
theorem Story.spawn (h : Story p actions s) (hledger : Ledger p s)
    (hphase : s.phase = .running .send) :
    Story p (actions ++ [.sent true])
      (((s.emit s.attempt [.stage (.output .send)]).setAccum s.attempt {}).setPhase .streaming) := by
  have hnone : s.accum s.attempt = none := hledger.early (by rw [hphase]; rfl)
  have hsent (a : Nat) : sentTo a (actions ++ [.sent true]) = sentTo a actions := by
    rw [sentTo_concat]
    exact List.append_nil _
  have haccum (a : Nat) : (((s.emit s.attempt [.stage (.output .send)]).setAccum s.attempt
      {}).setPhase .streaming).accum a = if a = s.attempt then some {} else s.accum a :=
    accum_setAccum _ _ _ _
  refine ⟨fun a ha => ?_, fun a task ha => ?_, fun _ => ?_, fun pre hpre => ?_⟩
  · rw [haccum] at ha
    split_ifs at ha with hne
    rw [hsent]
    exact h.unsent a ha
  · rw [haccum] at ha
    rw [hsent]
    split_ifs at ha with hne
    · obtain rfl := Option.some.inj ha
      rw [hne, h.unsent _ hnone]
      exact ⟨[], by simp, rfl, rfl⟩
    · exact h.follows a task ha
  · rw [hsent]
    show AccumMsg.finish ∉ sentTo s.attempt actions
    rw [h.unsent _ hnone]
    simp
  · obtain rfl := Option.some.inj hpre
    have hevents := h.events _ (by rw [hphase]; rfl)
    rw [hnone] at hevents
    show stageEvents s.attempt (s.emit s.attempt _).events = _ ++ report p s.attempt _
    rw [stageEvents_emit, if_pos rfl, hevents]
    show _ = _ ++ report p s.attempt ((s.setAccum s.attempt {}).accum s.attempt)
    rw [accum_setAccum, if_pos rfl]
    rfl

/-- A message is sent to an accumulator. -/
theorem Story.send (h : Story p actions s) {a : Nat} {task : AccumTask}
    (htask : s.accum a = some task) {msg : AccumMsg}
    (haction : ∀ b, action.sentTo b = if a = b then some msg else none)
    (hheld : s.phase = .streaming ∧ s.attempt = a → msg ≠ .finish) (finished : Bool) :
    Story p (actions ++ [action])
      (s.setAccum a { task with queue := task.queue ++ [msg], finished := finished }) := by
  have hsent (b : Nat) : sentTo b (actions ++ [action]) =
      sentTo b actions ++ if a = b then [msg] else [] := by
    rw [sentTo_concat, haction]
    split_ifs <;> rfl
  refine ⟨fun b hb => ?_, fun b task' hb => ?_, fun hstreaming => ?_, fun pre hpre => ?_⟩
  · rw [accum_setAccum] at hb
    split_ifs at hb with hne
    rw [hsent, if_neg (Ne.symm hne), h.unsent b hb]
    rfl
  · rw [accum_setAccum] at hb
    rw [hsent]
    split_ifs at hb with hne
    · obtain rfl := Option.some.inj hb
      rw [if_pos hne.symm, hne]
      exact (h.follows a task htask).send msg finished
    · rw [if_neg (Ne.symm hne), List.append_nil]
      exact h.follows b task' hb
  · have hnot : AccumMsg.finish ∉ sentTo s.attempt actions := h.held hstreaming
    show AccumMsg.finish ∉ sentTo s.attempt (actions ++ [action])
    rw [hsent, List.mem_append, not_or]
    refine ⟨hnot, ?_⟩
    split_ifs with hne
    · rw [List.mem_singleton]
      exact fun hfinish => hheld ⟨hstreaming, hne.symm⟩ hfinish.symm
    · simp
  · have hevents : stageEvents s.attempt s.events =
        pre ++ report p s.attempt (s.accum s.attempt) := h.events pre hpre
    show stageEvents s.attempt s.events = pre ++ report p s.attempt ((s.setAccum a _).accum s.attempt)
    rw [hevents, accum_setAccum]
    split_ifs with hne
    · rw [hne, htask]
      rfl
    · rfl

/-- A task receives a message. -/
theorem Story.receive (h : Story p actions s) {a : Nat} {task : AccumTask}
    (htask : s.accum a = some task) {s' : State} (hstep : p.receive s a task = some s') :
    Story p (actions ++ [.receive a]) s' := by
  have hsent (b : Nat) : sentTo b (actions ++ [.receive a]) = sentTo b actions := by
    rw [sentTo_concat]
    exact List.append_nil _
  obtain ⟨received, hnot, hacc, hfollows⟩ := (h.follows a task htask).exists_received
  unfold Pipeline.receive at hstep
  split_ifs at hstep with hended
  have hgoes : task.ended = false := by simpa using hended
  rw [hgoes] at hfollows
  split at hstep
  · cases hstep
  · rename_i queue hqueue
    obtain rfl := Option.some.inj hstep
    refine ⟨fun b hb => ?_, fun b task' hb => ?_, fun hstreaming => ?_, fun pre hpre => ?_⟩
    · rw [State.accum_emit, accum_setAccum] at hb
      split_ifs at hb
      rw [hsent]
      exact h.unsent b hb
    · rw [State.accum_emit, accum_setAccum] at hb
      rw [hsent]
      split_ifs at hb with hne
      · obtain rfl := Option.some.inj hb
        rw [hne]
        exact ⟨received, hnot, hacc, by rw [hfollows, hqueue]; simp⟩
      · exact h.follows b task' hb
    · rw [hsent]
      exact h.held hstreaming
    · have hevents : stageEvents s.attempt s.events =
          pre ++ report p s.attempt (s.accum s.attempt) := h.events pre hpre
      show stageEvents s.attempt (State.emit _ a _).events =
        pre ++ report p s.attempt ((s.setAccum a _).accum s.attempt)
      rw [stageEvents_emit, accum_setAccum]
      show stageEvents s.attempt s.events ++ _ = _
      rw [hevents]
      by_cases hne : s.attempt = a
      · rw [if_pos hne.symm, if_pos hne, hne, htask, List.append_assoc]
        simp [report, hgoes]
      · rw [if_neg (Ne.symm hne), if_neg hne, List.append_nil]
  · rename_i msg queue hmsg hqueue
    obtain rfl := Option.some.inj hstep
    refine ⟨fun b hb => ?_, fun b task' hb => ?_, fun hstreaming => ?_, fun pre hpre => ?_⟩
    · rw [accum_setAccum] at hb
      split_ifs at hb
      rw [hsent]
      exact h.unsent b hb
    · rw [accum_setAccum] at hb
      rw [hsent]
      split_ifs at hb with hne
      · obtain rfl := Option.some.inj hb
        rw [hne]
        refine ⟨received ++ [msg], ?_, ?_, ?_⟩
        · rw [List.mem_append, List.mem_singleton, not_or]
          exact ⟨hnot, fun hfinish => hmsg hfinish.symm⟩
        · rw [List.foldl_append, ← hacc]
          rfl
        · rw [hfollows, hqueue, hgoes]
          simp
      · exact h.follows b task' hb
    · rw [hsent]
      exact h.held hstreaming
    · have hevents : stageEvents s.attempt s.events =
          pre ++ report p s.attempt (s.accum s.attempt) := h.events pre hpre
      show stageEvents s.attempt s.events =
        pre ++ report p s.attempt ((s.setAccum a _).accum s.attempt)
      rw [hevents, accum_setAccum]
      split_ifs with hne
      · rw [hne, htask]
        simp [report, hgoes]
      · rfl

/-- The stage that is awaited fails: the present attempt will not hand its body over. -/
theorem Story.failed (h : Story p actions s) (hledger : Ledger p s) (err : PipelineError) :
    Story p (actions ++ [.failed err])
      (p.retry (s.emit s.attempt (Pipeline.failPayloads s.attempt err)) err) := by
  have hnot : ¬ s.Started (s.attempt + 1) := by
    intro hs
    have hle : s.attempt + 1 ≤ s.attempt := hs.2
    omega
  refine h.move (fun _ => rfl) (accums_retry _ err) ?_ fun pre hpre => ?_
  · unfold Pipeline.retry
    split_ifs <;> simp [Pipeline.begin, State.emit, State.setPhase]
  · unfold Pipeline.retry at hpre ⊢
    split_ifs at hpre ⊢
    · obtain rfl := Option.some.inj hpre
      obtain ⟨hevents, haccum⟩ := hledger.fresh _ hnot
      show stageEvents (s.attempt + 1) (State.emit _ (s.attempt + 1) _).events =
        _ ++ report p (s.attempt + 1) (s.accum (s.attempt + 1))
      rw [stageEvents_emit, if_pos rfl, haccum]
      show stageEvents (s.attempt + 1) (s.emit s.attempt _).events ++ _ = _
      rw [stageEvents_emit, if_neg (by omega), hevents]
      rfl
    · cases hpre
    · cases hpre

/-- Something that is not a stage event is emitted. -/
theorem Story.emit (h : Story p actions s) (hquiet : ∀ a, action.sentTo a = none) (attempt : Nat)
    {payloads : List Payload} (hnone : stagesOf payloads = []) :
    Story p (actions ++ [action]) (s.emit attempt payloads) := by
  have hsent (a : Nat) : sentTo a (actions ++ [action]) = sentTo a actions := by
    rw [sentTo_concat, hquiet, Option.toList_none, List.append_nil]
  refine ⟨fun a ha => ?_, fun a task ha => ?_, fun hstreaming => ?_, fun pre hpre => ?_⟩
  · rw [hsent]
    exact h.unsent a ha
  · rw [hsent]
    exact h.follows a task ha
  · rw [hsent]
    exact h.held hstreaming
  · show stageEvents s.attempt (s.emit attempt payloads).events = _
    rw [stageEvents_emit, hnone, ite_self, List.append_nil]
    exact h.events pre hpre

theorem Story.init (p : Pipeline) : Story p [] {} where
  unsent _ _ := rfl
  follows _ _ h := by cases h
  held h := by cases h
  events _ h := by cases h

/-- **One step.** -/
theorem Story.step (h : Story p actions s) (hledger : Ledger p s) {s' : State}
    (hstep : p.step s action = some s') : Story p (actions ++ [action]) s' := by
  cases action with
  | start =>
    simp only [Pipeline.step] at hstep
    split_ifs at hstep with hphase
    obtain rfl := Option.some.inj hstep
    exact h.begin hledger (fun _ => rfl) fun hs => hs.1 hphase
  | stageOk =>
    simp only [Pipeline.step] at hstep
    split at hstep
    · rename_i stage hphase
      obtain ⟨next, hnext, rfl⟩ := Option.map_eq_some_iff.mp hstep
      refine h.advance hledger (Or.inl (by rw [hphase]; rfl)) (fun _ => rfl) (by simp) ?_
      intro pre hpre
      rw [hphase]
      cases stage <;> cases hnext <;> exact ⟨_, rfl, (Option.some.inj hpre).symm⟩
    · cases hstep
  | sent isSse =>
    simp only [Pipeline.step] at hstep
    split_ifs at hstep with hphase hsse
    · obtain rfl := Option.some.inj hstep
      rw [hsse]
      exact h.spawn hledger hphase
    · obtain rfl := Option.some.inj hstep
      refine h.advance hledger (Or.inl (by rw [hphase]; rfl)) (fun _ => rfl) (by simp) ?_
      intro pre hpre
      exact ⟨_, by rw [hphase]; rfl, (Option.some.inj hpre).symm⟩
  | bodyRead bytes =>
    simp only [Pipeline.step] at hstep
    split_ifs at hstep with hphase
    obtain rfl := Option.some.inj hstep
    refine h.advance hledger (Or.inl (by rw [hphase]; rfl)) (fun _ => rfl) (by simp) ?_
    intro pre hpre
    exact ⟨_, by rw [hphase]; rfl, (Option.some.inj hpre).symm⟩
  | converted body =>
    simp only [Pipeline.step] at hstep
    split_ifs at hstep with hphase
    obtain rfl := Option.some.inj hstep
    have hwhere : s.phase.early = true ∨ s.phase = .streaming :=
      hphase.symm.imp_left fun hp => by rw [hp]; rfl
    refine h.advance hledger hwhere (fun _ => rfl) (by simp) fun pre hpre => ?_
    cases body with
    | buffered bytes => cases hpre
    | stream =>
      rcases hphase with hp | hp <;> exact ⟨_, by rw [hp]; rfl, (Option.some.inj hpre).symm⟩
  | failed err =>
    simp only [Pipeline.step] at hstep
    split_ifs at hstep with hguarded
    obtain rfl := Option.some.inj hstep
    exact h.failed hledger err
  | wake =>
    simp only [Pipeline.step] at hstep
    split_ifs at hstep with hphase
    obtain rfl := Option.some.inj hstep
    refine h.begin hledger (fun _ => rfl) fun hs => ?_
    have hle : s.attempt + 1 ≤ s.attempt := hs.2
    omega
  | dropped =>
    simp only [Pipeline.step] at hstep
    split at hstep
    · obtain rfl := Option.some.inj hstep
      exact h.move (fun _ => rfl) rfl (by simp [State.setPhase]) fun pre hpre => by cases hpre
    · split_ifs at hstep with hphase
      obtain rfl := Option.some.inj hstep
      exact h.move (fun _ => rfl) rfl (by simp [State.setPhase]) fun pre hpre => by cases hpre
  | note attempt msg =>
    simp only [Pipeline.step] at hstep
    split_ifs at hstep with hmsg
    obtain ⟨task, htask, rfl⟩ := Option.map_eq_some_iff.mp hstep
    exact h.send htask (fun b => rfl) (fun _ => hmsg) task.finished
  | finish attempt =>
    simp only [Pipeline.step] at hstep
    split_ifs at hstep with hheld
    obtain ⟨task, htask, hfinish⟩ := Option.bind_eq_some_iff.mp hstep
    split_ifs at hfinish with hfinished
    obtain rfl := Option.some.inj hfinish
    exact h.send htask (fun b => rfl) (fun hstreaming => absurd hstreaming hheld) true
  | receive attempt =>
    obtain ⟨task, htask, hreceive⟩ := Option.bind_eq_some_iff.mp hstep
    exact h.receive htask hreceive
  | tick attempt =>
    obtain ⟨task, htask, htick⟩ := Option.bind_eq_some_iff.mp hstep
    split_ifs at htick with hended
    obtain rfl := Option.some.inj htick
    exact h.emit (fun _ => rfl) attempt rfl

theorem story_run (hrun : p.run actions = some s) : Story p actions s := by
  refine (Machine.exec_induction (fun actions s => p.run actions = some s ∧ Story p actions s)
    ⟨rfl, Story.init p⟩ ?_ hrun).2
  intro actions action s s' hs ih hstep
  refine ⟨?_, ih.2.step (ledger_run hs) hstep⟩
  rw [Pipeline.run, Machine.exec_concat, hs]
  exact hstep

/-- **What a streamed attempt emits.** Its stage events are those of the stages and those its
accumulator emits for what it was sent before it was finished. -/
theorem stageEvents_streamed (hrun : p.run actions = some s) (hover : s.Over)
    (hphase : s.phase = .returned (.ok .stream)) {messages : List AccumMsg}
    (hmessages : AccumMsg.finish ∉ messages)
    (hsent : sentTo s.attempt actions = messages ++ [.finish]) :
    stageEvents s.attempt s.events =
      [.started p.requestEndpoint, .output .extract, .output .resolve, .output .buildHeaders,
        .output .convertRequest, .output .send, .output .convertResponse] ++
      stagesOf ((messages.foldl Accum.receive {}).finalPayloads p.fromStr p.requestEndpoint
        s.attempt) := by
  have hstory := story_run hrun
  have hevents := hstory.events _ (by rw [hphase]; rfl)
  rw [hevents]
  congr 1
  cases htask : s.accum s.attempt with
  | none =>
    rw [hstory.unsent _ htask] at hsent
    simp at hsent
  | some task =>
    have hended := hover.2 _ _ htask
    obtain ⟨received, hnot, hacc, hfollows⟩ := (hstory.follows _ _ htask).exists_received
    rw [hended, if_pos rfl, hsent] at hfollows
    have hreceived : messages = received := by
      rw [List.append_assoc, List.singleton_append] at hfollows
      exact ((List.append_cons_inj_of_notMem hmessages (by simp)).mp hfollows).1
    rw [report, hended, if_pos rfl, hacc, hreceived]

end Tokn.Requests
