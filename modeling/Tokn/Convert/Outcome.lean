import Tokn.Convert.ToMessages

/-!
# The outcome a client is shown

A client learns how a generation ended from one place of its protocol: the finish reason of a
choice, the status of a response, or the stop reason of a message.

A translated stream that ended shows the outcomes of the finish reasons handed to its emitter.

**Theorem (`run_terminates`).** Over any calls on a translator, in any order, at most one finish
is handed to the emitter and shown to the client, the marker that ends the stream is the last
event returned, and the first `finish` fails exactly when no event that ends the upstream stream
came before it.
-/

namespace Tokn.Convert

open Value

/-! ## Outcomes -/

/-- What a client is shown for a finish reason. -/
def outcome (inbound : Endpoint) (reason : Option String) : String × Option String :=
  match inbound with
  | .chatCompletions => (reason.getD "stop", none)
  | .responses => responsesCompletionStatus reason
  | .messages => (Messages.finishReasonToMessages reason, none)

/-- Whether a finish reason is that of a complete generation, in the words of any endpoint. -/
def isComplete (reason : Option String) : Bool :=
  reason.all ["stop", "tool_calls", "function_call", "end_turn", "stop_sequence",
    "tool_use"].contains

/-- Whether an outcome is that of a complete generation. -/
def succeeded (inbound : Endpoint) (shown : String × Option String) : Bool :=
  match inbound with
  | .chatCompletions | .messages => isComplete (some shown.1)
  | .responses => shown.1 = "completed"

/-- The finish reason of the first choice of a chunk or a response. -/
def chatOutcome (value : Value) : Option (String × Option String) :=
  ((Chat.firstChoice value).bind fun choice => choice.str "finish_reason").map fun reason =>
    (reason, none)

/-- The stop reason of a message, or of the delta of one. -/
def messageOutcome (value : Value) : Option (String × Option String) :=
  (value.str "stop_reason").map fun reason => (reason, none)

/-- What a buffered response shows. -/
def shownOutcome (inbound : Endpoint) (value : Value) : Option (String × Option String) :=
  match inbound with
  | .chatCompletions => chatOutcome value
  | .responses => responseOutcome value
  | .messages => messageOutcome value

/-- What an event of a stream shows. -/
def eventOutcome (inbound : Endpoint) (e : SseEvent) : Option (String × Option String) :=
  match inbound with
  | .chatCompletions => e.json.bind chatOutcome
  | .responses =>
    if (e.str "type").any isTerminalKind then
      (e.json.bind fun value => value.get "response").bind responseOutcome
    else none
  | .messages =>
    if e.str "type" = some "message_delta" then
      (e.json.bind fun value => value.get "delta").bind messageOutcome
    else none

theorem isComplete_iff (reason : Option String) :
    isComplete reason = true ↔ reason = none ∨ reason = some "stop" ∨ reason = some "tool_calls" ∨
      reason = some "function_call" ∨ reason = some "end_turn" ∨ reason = some "stop_sequence" ∨
      reason = some "tool_use" := by
  cases reason <;> simp [isComplete]

/-- A client is never told that a complete generation was not. -/
theorem succeeded_outcome (inbound : Endpoint) {reason : Option String}
    (h : isComplete reason = true) : succeeded inbound (outcome inbound reason) = true := by
  rw [isComplete_iff] at h
  rcases h with rfl | rfl | rfl | rfl | rfl | rfl | rfl <;> cases inbound <;> decide

/-! ## Finish reasons -/

/-- The reason of a finish delta. -/
def IrDelta.reason? : IrDelta → Option (Option String)
  | .finish reason => some reason
  | .text _ | .reasoning _ | .toolCall .. | .usage _ => none

def finishReasons (deltas : List IrDelta) : List (Option String) :=
  deltas.filterMap IrDelta.reason?

/-- The last finish reason, where a delta without one keeps the reason before it. -/
def setReason (last : Option String) (delta : IrDelta) : Option String := delta.reason?.getD last

theorem finishReasons_append (as bs : List IrDelta) :
    finishReasons (as ++ bs) = finishReasons as ++ finishReasons bs := List.filterMap_append

theorem foldl_setReason (deltas : List IrDelta) (last : Option String) :
    deltas.foldl setReason last = (finishReasons deltas).getLastD last := by
  induction deltas generalizing last with
  | nil => rfl
  | cons delta deltas ih =>
    rw [List.foldl_cons, ih]
    cases delta with
    | finish reason =>
      have hcons : finishReasons (.finish reason :: deltas) = reason :: finishReasons deltas := rfl
      rw [hcons, List.getLastD_cons]
      rfl
    | _ => rfl

theorem isSome_reason? (delta : IrDelta) : delta.reason?.isSome = delta.isFinish := by
  cases delta <;> rfl

theorem finishReasons_of_countP {deltas : List IrDelta} (h : deltas.countP IrDelta.isFinish = 0) :
    finishReasons deltas = [] := by
  rw [List.countP_eq_zero] at h
  refine List.filterMap_eq_nil_iff.mpr fun delta hd => ?_
  rw [← Option.not_isSome_iff_eq_none, isSome_reason?]
  exact h delta hd

/-! ## Chat Completions targets -/

theorem eventOutcome_chunk (respId model : String) (delta : IrDelta) :
    eventOutcome .chatCompletions (.ofJson none (Chat.chunkFromDelta respId model delta)) =
      delta.reason?.map (outcome .chatCompletions) := by
  have hchoice (d r : Value) : chatOutcome (Chat.choiceChunk respId model d r) =
      r.asStr.map fun reason => (reason, none) := by
    have hfirst : Chat.firstChoice (Chat.choiceChunk respId model d r) =
        some (obj [("index", nat 0), ("delta", d), ("finish_reason", r)]) := by
      rw [Chat.firstChoice, Chat.choiceChunk, get_obj]
      rfl
    have hreason : (obj [("index", nat 0), ("delta", d), ("finish_reason", r)]).str
        "finish_reason" = r.asStr := (str_obj _ _).trans rfl
    rw [chatOutcome, hfirst, Option.bind_some, hreason]
  cases delta with
  | usage u =>
    have hchoices : (obj (Chat.chunk respId model [] ++ [("usage", usageToChat u)])).get
        "choices" = some (.array []) := (get_obj _ _).trans rfl
    simp [eventOutcome, Chat.chunkFromDelta, chatOutcome, Chat.firstChoice, hchoices,
      IrDelta.reason?, asArray]
  | _ => exact hchoice _ _

section

variable {s : EmitState} {out : List SseEvent} {deltas : List IrDelta}

/-- The outcomes shown so far by a Chat Completions target. -/
def ShowsChat (s : EmitState) (out : List SseEvent) (deltas : List IrDelta) : Prop :=
  s.target = .chatCompletions ∧
    out.filterMap (eventOutcome .chatCompletions) =
      (finishReasons deltas).map (outcome .chatCompletions)

theorem ShowsChat.opening (h : s.target = .chatCompletions) : s.ensureStarted.2 = [] := by
  unfold EmitState.ensureStarted
  split_ifs
  · simp [EmitState.start, h]
  · rfl

theorem ShowsChat.emit (h : ShowsChat s out deltas) (deltas' : List IrDelta) :
    ShowsChat (s.emit deltas').1 (out ++ (s.emit deltas').2) (deltas ++ deltas') := by
  obtain ⟨htarget, hout⟩ := h
  refine ⟨by simpa using htarget, ?_⟩
  rw [List.filterMap_append, finishReasons_append, List.map_append, hout]
  congr 1
  by_cases hd : deltas' = []
  · subst hd
    simp [EmitState.emit, finishReasons]
  · have hstarted : s.ensureStarted.1.target = .chatCompletions := by simpa using htarget
    have hshown (respId model : String) : (deltas'.map (Chat.chunkFromDelta respId model)).filterMap
        (eventOutcome .chatCompletions ∘ SseEvent.ofJson none) =
          (finishReasons deltas').map (outcome .chatCompletions) := by
      rw [List.filterMap_map, finishReasons, List.map_filterMap]
      congr 1
      funext delta
      exact eventOutcome_chunk respId model delta
    simp only [EmitState.emit, hd, if_false, ShowsChat.opening htarget, List.nil_append,
      EmitState.emitDeltas, hstarted, Chat.chunkFromDeltas, Bool.false_eq_true, List.append_nil,
      List.filterMap_map]
    rw [← hshown, List.filterMap_map]

theorem ShowsChat.finish (h : ShowsChat s out deltas) (hfin : s.finished = false) :
    (out ++ s.finish.2).filterMap (eventOutcome .chatCompletions) =
      (finishReasons deltas).map (outcome .chatCompletions) := by
  obtain ⟨htarget, hout⟩ := h
  have hstarted : ({ s with finished := true } : EmitState).ensureStarted.1.target =
      .chatCompletions := by simpa using htarget
  have hopening : ({ s with finished := true } : EmitState).ensureStarted.2 = [] :=
    ShowsChat.opening htarget
  have hend : s.finish.2 = [.done] := by
    simp only [EmitState.finish, hfin, Bool.false_eq_true, if_false, hopening, EmitState.emitEnd,
      hstarted, List.nil_append]
  rw [hend, List.filterMap_append, hout]
  exact List.append_nil _

/-- The account of a Chat Completions target: the outcomes it shows. -/
def chatAccount : Account .chatCompletions where
  Open s out deltas := s.finished = false ∧ ShowsChat s out deltas
  Closed out deltas := out.filterMap (eventOutcome .chatCompletions) =
    (finishReasons deltas).map (outcome .chatCompletions)
  new createdAt := ⟨rfl, rfl, rfl⟩
  updateMetadata := fun ⟨hfin, htarget, hout⟩ metadata =>
    ⟨by simpa using hfin, by simpa using htarget, hout⟩
  emit := fun ⟨hfin, h⟩ deltas' => ⟨by simpa using hfin, h.emit deltas'⟩
  finish := fun ⟨hfin, h⟩ => h.finish hfin

end

/-! ## Messages targets -/

theorem eventOutcome_messagesEvent (delta : IrDelta) :
    eventOutcome .messages (messagesEvent delta) = delta.reason?.map (outcome .messages) := by
  have htype : (messagesEvent delta).str "type" = some (Messages.eventFromDelta delta).1 := by
    rw [messagesEvent, SseEvent.str_ofJson, type_eventFromDelta]
  rw [eventOutcome, htype]
  cases delta with
  | finish reason =>
    have hdelta : (Messages.eventFromDelta (.finish reason)).2.get "delta" =
        some (obj [("stop_reason", .string (Messages.finishReasonToMessages reason)),
          ("stop_sequence", .null)]) := (get_obj _ _).trans rfl
    rw [if_pos (show some (Messages.eventFromDelta _).1 = some "message_delta" from rfl)]
    simp only [messagesEvent, SseEvent.json_ofJson, Option.bind_some, hdelta, messageOutcome]
    rw [str_obj]
    rfl
  | usage u =>
    have hdelta : (Messages.eventFromDelta (.usage u)).2.get "delta" = some (obj []) :=
      (get_obj _ _).trans rfl
    rw [if_pos (show some (Messages.eventFromDelta _).1 = some "message_delta" from rfl)]
    simp only [messagesEvent, SseEvent.json_ofJson, Option.bind_some, hdelta, messageOutcome]
    rfl
  | _ => rfl

theorem outcomes_messagesStream (id model : String) (deltas : List IrDelta) :
    (messagesStream id model deltas).filterMap (eventOutcome .messages) =
      (finishReasons deltas).map (outcome .messages) := by
  have hdeltas : (deltas.map messagesEvent).filterMap (eventOutcome .messages) =
      (finishReasons deltas).map (outcome .messages) := by
    rw [List.filterMap_map, finishReasons, List.map_filterMap]
    congr 1
    funext delta
    exact eventOutcome_messagesEvent delta
  have hfirst : eventOutcome .messages (messageStartEvent id model) = none := by
    have htype : (messageStartEvent id model).str "type" = some "message_start" :=
      (str_obj _ _).trans rfl
    simp [eventOutcome, htype]
  have hstart : eventOutcome .messages textBlockStart = none := by decide
  have hstop : eventOutcome .messages textBlockStop = none := by decide
  have hlast : eventOutcome .messages messageStopEvent = none := by decide
  simp [messagesStream, messageBody, hfirst, hstart, hdeltas, hstop, hlast]

/-! ## Responses targets -/

namespace ResponsesEmitter

variable (s : ResponsesEmitter)

@[simp] theorem finishReason_pushAll (bodies : List (Nat → SseEvent)) :
    (s.pushAll bodies).1.finishReason = s.finishReason := by rw [pushAll_eq]

@[simp] theorem finishReason_closeCurrent : s.closeCurrent.1.finishReason = s.finishReason := by
  unfold closeCurrent
  split
  · rename_i item _
    cases item <;> simp [closeItem]
  · rfl

@[simp] theorem finishReason_openMessage : s.openMessage.1.finishReason = s.finishReason := by
  simp [openMessage, synthItemId]

@[simp] theorem finishReason_openReasoning :
    s.openReasoning.1.finishReason = s.finishReason := by
  simp [openReasoning, synthItemId]

@[simp] theorem finishReason_openFunctionCall (chatIndex : Nat) (idHint nameHint : Option String) :
    (s.openFunctionCall chatIndex idHint nameHint).1.finishReason = s.finishReason := by
  simp [openFunctionCall, synthItemId]

@[simp] theorem finishReason_appendText (text : String) :
    (s.appendText text).1.finishReason = s.finishReason := by
  unfold appendText
  split <;> simp

@[simp] theorem finishReason_appendReasoning (text : String) :
    (s.appendReasoning text).1.finishReason = s.finishReason := by
  unfold appendReasoning
  split <;> simp

@[simp] theorem finishReason_appendArguments (idHint nameHint : Option String)
    (argsDelta : String) :
    (s.appendArguments idHint nameHint argsDelta).1.finishReason = s.finishReason := by
  unfold appendArguments
  split <;> simp

/-- Only a finish delta sets the finish reason. -/
theorem finishReason_handle (delta : IrDelta) :
    (s.handle delta).1.finishReason = setReason s.finishReason delta := by
  cases delta with
  | text text =>
    show (s.handleText text).1.finishReason = s.finishReason
    unfold handleText
    split_ifs <;> simp [andThen]
  | reasoning text =>
    show (s.handleReasoning text).1.finishReason = s.finishReason
    unfold handleReasoning
    split_ifs <;> simp [andThen]
  | toolCall index id name argumentsDelta =>
    show (s.handleToolCall index id name argumentsDelta).1.finishReason = s.finishReason
    unfold handleToolCall
    split_ifs <;> simp [andThen]
  | usage u => rfl
  | finish reason => rfl

theorem finishReason_handleAll (deltas : List IrDelta) :
    (s.handleAll deltas).1.finishReason = deltas.foldl setReason s.finishReason := by
  induction deltas generalizing s with
  | nil => rfl
  | cons delta deltas ih => rw [handleAll, andThen, ih, finishReason_handle, List.foldl_cons]

theorem finishReason_emit (deltas : List IrDelta) :
    (s.emit deltas).1.finishReason = deltas.foldl setReason s.finishReason := by
  by_cases h : deltas = []
  · simp [emit, h]
  · simp only [emit, h, if_false, andThen, finishReason_handleAll, ensureStarted_finishReason]

end ResponsesEmitter

/-- The state of a Responses target: its emitter, and the last finish reason it was handed. -/
def Keeps (s : EmitState) (out : List SseEvent) (deltas : List IrDelta) : Prop :=
  s.target = .responses ∧ (∃ items, s.Tracks out items) ∧
    ∀ emitter, s.responses = some emitter → emitter.finishReason = deltas.foldl setReason none

section

variable {s : EmitState} {out : List SseEvent} {deltas : List IrDelta}

theorem Keeps.updateMetadata (h : Keeps s out deltas) (metadata : SseMetadata) :
    Keeps (s.updateMetadata metadata) out deltas := by
  obtain ⟨htarget, ⟨items, htracks⟩, hreason⟩ := h
  refine ⟨by simpa using htarget, ⟨items, htracks.updateMetadata metadata⟩, ?_⟩
  intro emitter hs
  obtain ⟨emitter', hs', -⟩ := htracks
  obtain ⟨responseId, model⟩ := metadata
  rw [← hreason emitter' hs']
  cases responseId <;> cases model <;>
    simp only [EmitState.updateMetadata, EmitState.updateId, EmitState.updateModel, hs',
      Option.map_some, Option.some.injEq] at hs <;>
    subst hs <;> rfl

theorem Keeps.emit (h : Keeps s out deltas) (deltas' : List IrDelta) :
    Keeps (s.emit deltas').1 (out ++ (s.emit deltas').2) (deltas ++ deltas') := by
  obtain ⟨htarget, ⟨items, htracks⟩, hreason⟩ := h
  refine ⟨by simpa using htarget, ⟨_, htracks.emit htarget deltas'⟩, ?_⟩
  intro emitter hs
  obtain ⟨emitter', hs', -⟩ := htracks
  rw [List.foldl_append, ← hreason emitter' hs']
  by_cases hd : deltas' = []
  · subst hd
    obtain rfl : emitter' = emitter := by simpa [EmitState.emit, hs'] using hs
    rfl
  · simp only [EmitState.emit, hd, if_false, EmitState.ensureStarted_responses htarget,
      EmitState.emitDeltas, htarget, hs', Option.some.injEq] at hs
    rw [← hs, ResponsesEmitter.finishReason_emit]

theorem eventOutcome_of_not_isMarker {e : SseEvent} (h : isMarker .responses e = false) :
    eventOutcome .responses e = none := by
  rw [isMarker] at h
  rw [eventOutcome, h]
  rfl

/-- Only the terminal event shows an outcome. -/
theorem Keeps.finish (h : Keeps s out deltas) (hfin : s.finished = false) :
    (out ++ s.finish.2).filterMap (eventOutcome .responses) =
      [outcome .responses (deltas.foldl setReason none)] := by
  obtain ⟨htarget, ⟨items, htracks⟩, hreason⟩ := h
  obtain ⟨emitter, created, inProgress, response, hs, hout, -, hshown⟩ :=
    htracks.finish htarget hfin
  have hinner := isMarker_numbered (n := 0) (inner_lifecycle created inProgress items.all)
  have hnone : (numbered 0 (prologue created inProgress ++
      items.all.flatMap OutputItem.events)).filterMap (eventOutcome .responses) = [] := by
    refine List.filterMap_eq_nil_iff.mpr fun e he => ?_
    exact eventOutcome_of_not_isMarker (hinner e he)
  have hlast (n : Nat) : eventOutcome .responses
      (terminal (responsesCompletionStatus emitter.finishReason).1 response n) =
        some (outcome .responses (deltas.foldl setReason none)) := by
    have hresponse : (terminal (responsesCompletionStatus emitter.finishReason).1 response n).json.bind
        (fun value => value.get "response") = some response := (get_obj _ _).trans rfl
    rw [eventOutcome, (names_terminal _ response n).1, Option.any_some, isTerminalKind_terminalType,
      if_pos rfl, hresponse, Option.bind_some, hshown, hreason emitter hs]
    rfl
  rw [hout, numbered_append, List.filterMap_append, hnone, List.nil_append]
  simp [numbered, hlast]

/-- The account of a Responses target: the outcome of its terminal event. -/
def terminalAccount : Account .responses where
  Open s out deltas := s.finished = false ∧ Keeps s out deltas
  Closed out deltas := out.filterMap (eventOutcome .responses) =
    [outcome .responses (deltas.foldl setReason none)]
  new createdAt := ⟨rfl, rfl, ⟨_, EmitState.tracks_new createdAt⟩, fun emitter hs => by
    obtain rfl := Option.some.inj hs
    rfl⟩
  updateMetadata := fun ⟨hfin, h⟩ metadata => ⟨by simpa using hfin, h.updateMetadata metadata⟩
  emit := fun ⟨hfin, h⟩ deltas' => ⟨by simpa using hfin, h.emit deltas'⟩
  finish := fun ⟨hfin, h⟩ => h.finish hfin

end

/-! ## Any target -/

/-- The outcomes a stream shows for the deltas handed to its emitter. A Responses stream shows one
even where there is no finish delta. -/
def outcomesOf (target : Endpoint) (deltas : List IrDelta) : List (String × Option String) :=
  if target = .responses then [outcome .responses (deltas.foldl setReason none)]
  else (finishReasons deltas).map (outcome target)

/-- **The outcomes of a stream that ended.** -/
theorem EndpointTranslator.outcomes_of_ends (source target : Endpoint) (createdAt : Nat)
    (events : List SseEvent) (hends : Ends source (events.map .transform)) :
    ∃ tail, (run source target createdAt (events.map .transform)).1.finish.2 = .ok tail ∧
      (emitted (run source target createdAt (events.map .transform)).2 ++ tail).filterMap
          (eventOutcome target) =
        outcomesOf target ((new source target createdAt).handedAll (events.map .transform)) := by
  cases target with
  | chatCompletions => exact closed_of_ends chatAccount source createdAt events hends
  | responses => exact closed_of_ends terminalAccount source createdAt events hends
  | messages =>
    obtain ⟨tail, hok, id, model, hout⟩ := closed_of_ends messagesAccount source createdAt events hends
    refine ⟨tail, hok, ?_⟩
    rw [hout]
    exact outcomes_messagesStream id model _

/-! ## Streams that end once -/

theorem length_finishReasons (deltas : List IrDelta) :
    (finishReasons deltas).length = deltas.countP IrDelta.isFinish := by
  rw [finishReasons, List.length_filterMap_eq_countP]
  congr 1
  funext delta
  exact isSome_reason? delta

theorem length_outcomesOf {deltas : List IrDelta} (h : deltas.countP IrDelta.isFinish ≤ 1)
    (target : Endpoint) : (outcomesOf target deltas).length ≤ 1 := by
  rw [outcomesOf]
  split_ifs
  · exact le_rfl
  · rwa [List.length_map, length_finishReasons]

/-- The events of an open Messages stream show the reasons of the deltas so far. -/
theorem Writes.outcomes {s : EmitState} {out : List SseEvent} {deltas : List IrDelta}
    (h : Writes s out deltas) :
    (out.filterMap (eventOutcome .messages)).length ≤ (finishReasons deltas).length := by
  obtain ⟨-, ⟨-, rfl, -⟩ | ⟨-, id, model, rfl⟩⟩ := h
  · exact Nat.zero_le _
  · have hbefore : List.Sublist
        (messageStartEvent id model :: textBlockStart :: deltas.map messagesEvent)
        (messagesStream id model deltas) := by
      simp [messagesStream, messageBody]
    have hshown := (hbefore.filterMap (eventOutcome .messages)).length_le
    rwa [outcomes_messagesStream, List.length_map] at hshown

namespace EndpointTranslator

/-- What a stream that has not ended shows. -/
theorem outcomes_of_not_ends (source target : Endpoint) (createdAt : Nat)
    (events : List SseEvent) (hends : ¬ Ends source (events.map .transform)) :
    ((emitted (run source target createdAt (events.map .transform)).2).filterMap
      (eventOutcome target)).length ≤ 1 := by
  have hcount := countP_handedAll_le_one source target createdAt (events.map .transform)
  rw [← length_finishReasons] at hcount
  cases target with
  | chatCompletions =>
    obtain ⟨-, -, -, hout⟩ := open_of_not_ends chatAccount source createdAt events hends
    rwa [hout, List.length_map]
  | responses =>
    rcases running_or_ended source .responses createdAt (events.map .transform) with h | h
    · have hnone : (emitted (run source .responses createdAt (events.map .transform)).2).filterMap
          (eventOutcome .responses) = [] := by
        refine List.filterMap_eq_nil_iff.mpr fun e he => ?_
        exact eventOutcome_of_not_isMarker (h.target_eq ▸ h.live.noMarker e he)
      rw [hnone]
      exact Nat.zero_le _
    · exact absurd (h.ended.resolve_left (by simp)) hends
  | messages =>
    obtain ⟨-, -, hwrites⟩ := open_of_not_ends messagesAccount source createdAt events hends
    exact hwrites.outcomes.trans hcount

/-- Whatever is called, the client is shown at most one finish. -/
theorem outcomes_wholeStream (source target : Endpoint) (createdAt : Nat) (cs : List Call) :
    ((wholeStream source target createdAt cs).filterMap (eventOutcome target)).length ≤ 1 := by
  obtain ⟨events, heq⟩ := wholeStream_eq source target createdAt cs
  rw [heq, wholeStream]
  by_cases hends : Ends source (events.map .transform)
  · obtain ⟨tail, hok, hshown⟩ := outcomes_of_ends source target createdAt events hends
    have hcount := countP_handedAll_le_one source target createdAt (events.map .transform)
    rw [hok, Except.toOption, Option.getD_some, hshown]
    exact length_outcomesOf hcount target
  · have hfinish : (run source target createdAt (events.map .transform)).1.finish.2.toOption =
        none := by
      obtain ⟨error, herror⟩ := (finish_error_iff source target createdAt (by simp)).mpr hends
      rw [herror, Except.toOption]
    rw [hfinish, Option.getD_none, List.append_nil]
    exact outcomes_of_not_ends source target createdAt events hends

/-- **A translated stream ends once.** At most one finish delta is handed to the emitter, and
everything the calls and a `finish` after them return shows at most one; no event but the last
returned marks the end of the stream; after that event no event is translated; the first `finish`
fails exactly when no event ended the upstream stream; and later ones return nothing. -/
theorem run_terminates (source target : Endpoint) (createdAt : Nat) (cs : List Call) :
    let r := run source target createdAt cs
    ((new source target createdAt).handedAll cs).countP IrDelta.isFinish ≤ 1 ∧
    ((emitted r.2 ++ r.1.finish.2.toOption.getD []).filterMap (eventOutcome target)).length ≤ 1 ∧
    (∀ e ∈ (emitted r.2).dropLast, isMarker target e = false) ∧
    ((∃ e ∈ emitted r.2, isMarker target e = true) →
      ∀ event, (r.1.transform event).2 = .ok []) ∧
    (Call.finish ∉ cs →
      ((∃ error, r.1.finish.2 = .error error) ↔ ¬ Ends source cs)) ∧
    (Call.finish ∈ cs → r.1.finish.2 = .ok []) := by
  intro r
  refine ⟨countP_handedAll_le_one source target createdAt cs,
    outcomes_wholeStream source target createdAt cs,
    isMarker_dropLast_emitted source target createdAt cs, fun hmarker event => ?_,
    finish_error_iff source target createdAt, fun hmem => ?_⟩
  · have hfin := finished_of_isMarker source target createdAt cs hmarker
    exact congrArg Prod.snd (call_of_finished hfin (.transform event)).1
  · have hfin := finished_of_mem source target createdAt hmem
    exact congrArg Prod.snd (call_of_finished hfin .finish).1

end EndpointTranslator

end Tokn.Convert
