import Tokn.Convert.Outcome

/-!
# The buffered path against the streaming path

A client that asked for a buffered response gets the stream accumulated by `accumulate_bytes` and
written by `response_to_value`; one that asked for a stream gets it from the translator.

**Theorem (`buffered_agrees_iff`).** The two paths agree on how the generation ended exactly when
both refuse an event that is not JSON, or the stream ended and its first terminal event, if it has
the finish reason of an incomplete, failed or cancelled generation, is not of a Responses upstream,
has a reason that the client's endpoint can tell from a complete one, and tells the client the same
as the last finish delta of the stream.
-/

namespace Tokn.Convert

open Value

/-! ## The buffered path -/

/-- `response_to_value` of the inbound endpoint. -/
def responseToValue (inbound : Endpoint) (resp : IrResponse) : Except ConvertError Value :=
  match inbound with
  | .chatCompletions => Chat.responseToValue resp
  | .responses => Responses.responseToValue resp
  | .messages => Messages.responseToValue resp

/-- `convert_buffered_sse`, between two endpoints, on the events of the body. -/
def convertBufferedSse (inbound upstream : Endpoint) (events : List SseEvent) :
    Except ConvertError Value := do
  let accumulated ← accumulateEvents upstream events
  responseToValue inbound accumulated

/-- Whether an event before the sentinel is not JSON. -/
def refused (events : List SseEvent) : Bool :=
  (events.takeWhile fun e => !e.isDone).any fun e => e.json.isNone

/-- What a buffered response shows is the outcome of its finish reason. -/
theorem shownOutcome_responseToValue (inbound : Endpoint) (resp : IrResponse) :
    ∃ value, responseToValue inbound resp = .ok value ∧
      shownOutcome inbound value = some (outcome inbound resp.finishReason) := by
  cases inbound with
  | chatCompletions =>
    refine ⟨_, rfl, ?_⟩
    show chatOutcome _ = _
    have hreason (message : Value) : (obj [("index", nat 0), ("message", message),
        ("finish_reason", .string (resp.finishReason.getD "stop"))]).str "finish_reason" =
          some (resp.finishReason.getD "stop") := (str_obj _ _).trans rfl
    rw [chatOutcome, Chat.firstChoice, get_obj]
    cases resp.usage <;> exact congrArg (Option.map fun reason => (reason, none)) (hreason _)
  | responses =>
    refine ⟨_, rfl, ?_⟩
    show responseOutcome _ = some (responsesCompletionStatus resp.finishReason)
    rw [responseOutcome, str_obj, get_obj]
    obtain ⟨status, reason⟩ := responsesCompletionStatus resp.finishReason
    cases reason with
    | none => cases resp.usage <;> rfl
    | some reason =>
      have hreason : (obj [("reason", .string reason)]).str "reason" = some reason :=
        (str_obj _ _).trans rfl
      cases resp.usage <;> exact congrArg (fun r => some (status, r)) hreason
  | messages =>
    refine ⟨_, rfl, ?_⟩
    show messageOutcome _ = _
    rw [messageOutcome, str_obj]
    cases resp.usage <;> rfl

open EndpointTranslator

namespace SseAccumulator

/-- The accumulator after some values. -/
def pushValues (acc : SseAccumulator) (values : List Value) : SseAccumulator :=
  values.foldl (fun acc value => (acc.pushValue value).1) acc

theorem endpoint_pushValues (acc : SseAccumulator) (values : List Value) :
    (acc.pushValues values).endpoint = acc.endpoint := by
  induction values generalizing acc with
  | nil => rfl
  | cons value values ih => exact (ih _).trans (acc.endpoint_pushValue value)

end SseAccumulator

/-- The buffered path refuses an event that is not JSON, and accumulates the values otherwise. -/
theorem accumulateFrom_eq (acc : SseAccumulator) (events : List SseEvent) :
    accumulateFrom acc events =
      if refused events then .error (.sse "expected JSON SSE payload")
      else .ok (acc.pushValues (upstreamValues events)).finish := by
  induction events generalizing acc with
  | nil => rfl
  | cons event events ih =>
    cases hdone : event.isDone with
    | true => simp [accumulateFrom, hdone, refused, upstreamValues, SseAccumulator.pushValues]
    | false =>
      cases hjson : event.json with
      | none => simp [accumulateFrom, hdone, hjson, refused]
      | some value =>
        rw [accumulateFrom, hdone, hjson]
        simp only [Bool.false_eq_true, if_false]
        rw [ih]
        simp [refused, upstreamValues, hdone, hjson, SseAccumulator.pushValues]

/-! ## The finish reason of a buffered response -/

theorem finishReason_foldl_pushDelta (resp : IrResponse) (deltas : List IrDelta) :
    (deltas.foldl IrResponse.pushDelta resp).finishReason =
      deltas.foldl setReason resp.finishReason := by
  induction deltas generalizing resp with
  | nil => rfl
  | cons delta deltas ih =>
    rw [List.foldl_cons, List.foldl_cons, ih]
    cases delta <;> rfl

namespace SseAccumulator

theorem finishReason_observeResponsesResponse (acc : SseAccumulator) (value : Value) :
    (acc.observeResponsesResponse value).response.finishReason = acc.response.finishReason := by
  unfold observeResponsesResponse
  split
  · rfl
  · dsimp only
    split <;> rfl

theorem response_observeResponsesOutputItem (acc : SseAccumulator) (value : Value) :
    (acc.observeResponsesOutputItem value).response = acc.response := by
  unfold observeResponsesOutputItem
  split_ifs
  · split <;> rfl
  · rfl

theorem response_observeResponsesPart (acc : SseAccumulator) (value : Value) :
    (acc.observeResponsesPart value).response = acc.response := by
  unfold observeResponsesPart
  split
  · rfl
  · split <;> rfl

theorem response_observeResponsesDeltas (acc : SseAccumulator) (value : Value)
    (deltas : List IrDelta) :
    (acc.observeResponsesDeltas value deltas).response = acc.response := by
  unfold observeResponsesDeltas
  split <;> rfl

theorem response_observeMessagesEvent (acc : SseAccumulator) (value : Value) :
    (acc.observeMessagesEvent value).response = acc.response := by
  unfold observeMessagesEvent
  split_ifs
  · split <;> rfl
  · rfl

theorem response_deltaFromMessagesEvent (acc : SseAccumulator) (value : Value) :
    (acc.deltaFromMessagesEvent value).1.response = acc.response := by
  unfold deltaFromMessagesEvent
  dsimp only
  split
  · split_ifs <;> rfl
  · split_ifs <;> rfl
  · rfl
  · rfl

/-- Decoding an event leaves the finish reason to its deltas. -/
theorem finishReason_decode (acc : SseAccumulator) (value : Value) :
    (acc.decode value).1.response.finishReason = acc.response.finishReason := by
  cases h : acc.endpoint with
  | chatCompletions => simp only [decode, h, observeChatChunk]
  | responses =>
    simp only [decode, h, deltaFromResponsesEvent, response_observeResponsesDeltas,
      response_observeResponsesPart, response_observeResponsesOutputItem,
      finishReason_observeResponsesResponse]
  | messages =>
    simp only [decode, h, response_deltaFromMessagesEvent, response_observeMessagesEvent]

theorem finishReason_pushValue (acc : SseAccumulator) (value : Value) :
    (acc.pushValue value).1.response.finishReason =
      (acc.decode value).2.foldl setReason acc.response.finishReason := by
  rw [← finishReason_decode acc value]
  exact finishReason_foldl_pushDelta _ _

variable {acc : SseAccumulator}

/-- For a Chat Completions or a Messages upstream the finish deltas are those of the wire. -/
theorem finishReasons_decode (h : acc.endpoint ≠ .responses) (value : Value) :
    finishReasons (acc.decode value).2 = finishReasons (wireDeltas acc.endpoint value) := by
  cases hsource : acc.endpoint with
  | chatCompletions => simp only [decode, hsource, wireDeltas]
  | responses => exact absurd hsource h
  | messages =>
    obtain ⟨filled, hd, hfilled⟩ := decode_messages hsource value
    have hnone : finishReasons filled = [] := by rcases hfilled with rfl | rfl <;> rfl
    rw [hd, finishReasons_append, hnone, List.append_nil]
    rfl

theorem finishReason_pushValues {acc : SseAccumulator} (h : acc.endpoint ≠ .responses)
    (values : List Value) :
    (acc.pushValues values).response.finishReason =
      (values.flatMap (wireDeltas acc.endpoint)).foldl setReason acc.response.finishReason := by
  induction values generalizing acc with
  | nil => rfl
  | cons value values ih =>
    have hnext : (acc.pushValue value).1.endpoint = acc.endpoint := acc.endpoint_pushValue value
    have hrest := @ih (acc.pushValue value).1 (by rwa [hnext])
    rw [hnext, finishReason_pushValue] at hrest
    rw [List.flatMap_cons, List.foldl_append, foldl_setReason (wireDeltas _ _),
      ← finishReasons_decode h, ← foldl_setReason]
    exact hrest

theorem isComplete_fillFinish (acc : SseAccumulator) (value : Value) :
    isComplete (some (acc.responsesCompletedFinishReason (some value))) = true := by
  unfold responsesCompletedFinishReason
  split_ifs <;> decide

theorem reason?_fillToolCall (items : BTreeMap Nat ResponseOutputItem) (delta : IrDelta) :
    (fillToolCall items delta).reason? = delta.reason? := by
  cases delta with
  | toolCall index id name argumentsDelta =>
    unfold fillToolCall
    dsimp only
    split <;> rfl
  | _ => rfl

/-- A Responses upstream finishes with nothing but a completed response. -/
theorem isComplete_decode (h : acc.endpoint = .responses) (value : Value) :
    ∀ reason ∈ finishReasons (acc.decode value).2, isComplete reason = true := by
  intro reason hreason
  simp only [decode, h, deltaFromResponsesEvent, finishReasons, List.filterMap_map,
    Function.comp_def, reason?_fillToolCall] at hreason
  split_ifs at hreason with htype
  · obtain ⟨delta, hmem, hdelta⟩ := List.mem_filterMap.mp hreason
    obtain ⟨delta', -, rfl⟩ := List.mem_map.mp hmem
    cases delta' with
    | finish r =>
      obtain rfl := Option.some.inj hdelta
      exact isComplete_fillFinish _ value
    | _ => cases hdelta
  · have hzero : finishReasons (Responses.deltaFromResponsesEvent value) = [] := by
      unfold Responses.deltaFromResponsesEvent
      split
      · cases value.str "delta" <;> rfl
      · cases value.str "delta" <;> rfl
      · cases value.str "delta" <;> rfl
      · rfl
      · rfl
      · exact absurd ‹value.str "type" = some "response.completed"› htype
      · rfl
    rw [← finishReasons, hzero] at hreason
    cases hreason

theorem isComplete_pushValues {acc : SseAccumulator} (h : acc.endpoint = .responses)
    (hacc : isComplete acc.response.finishReason = true) (values : List Value) :
    isComplete (acc.pushValues values).response.finishReason = true := by
  induction values generalizing acc with
  | nil => exact hacc
  | cons value values ih =>
    refine @ih (acc.pushValue value).1 ((acc.endpoint_pushValue value).trans h) ?_
    rw [finishReason_pushValue, foldl_setReason, List.getLastD_eq_getLast?]
    cases hlast : (finishReasons (acc.decode value).2).getLast? with
    | none => exact hacc
    | some reason => exact isComplete_decode h value reason (List.mem_of_getLast? hlast)

theorem isComplete_finish (h : isComplete acc.response.finishReason = true) :
    isComplete acc.finish.finishReason = true := by
  simp only [finish]
  split_ifs
  · rfl
  · exact h

theorem finishReason_finish (h : acc.endpoint ≠ .responses) :
    acc.finish.finishReason = acc.response.finishReason := by
  simp [finish, h]

end SseAccumulator

/-- The last finish reason of a stream, as its protocol writes it. -/
def lastReason (source : Endpoint) (events : List SseEvent) : Option String :=
  ((upstreamValues events).flatMap (wireDeltas source)).foldl setReason none

/-- **The buffered path.** It fails at an event that is not JSON. Otherwise it shows a complete
generation for a Responses upstream, and the last finish reason for any other. -/
theorem convertBufferedSse_spec (inbound source : Endpoint) (events : List SseEvent) :
    (refused events = true →
      convertBufferedSse inbound source events = .error (.sse "expected JSON SSE payload")) ∧
    (refused events = false →
      ∃ value reason, convertBufferedSse inbound source events = .ok value ∧
        shownOutcome inbound value = some (outcome inbound reason) ∧
        (source = .responses → isComplete reason = true) ∧
        (source ≠ .responses → reason = lastReason source events)) := by
  have hacc : accumulateEvents source events = _ := accumulateFrom_eq (.new source) events
  constructor
  · intro h
    rw [h] at hacc
    simp [convertBufferedSse, hacc, bind, Except.bind]
  · intro h
    rw [h] at hacc
    obtain ⟨value, hvalue, hshown⟩ := shownOutcome_responseToValue inbound
      ((SseAccumulator.new source).pushValues (upstreamValues events)).finish
    refine ⟨value, _, ?_, hshown, ?_, ?_⟩
    · simpa [convertBufferedSse, hacc, bind, Except.bind] using hvalue
    · intro hsource
      refine SseAccumulator.isComplete_finish ?_
      exact SseAccumulator.isComplete_pushValues hsource rfl _
    · intro hsource
      have hnext : ((SseAccumulator.new source).pushValues (upstreamValues events)).endpoint =
          source := SseAccumulator.endpoint_pushValues _ _
      rw [SseAccumulator.finishReason_finish (by rwa [hnext])]
      exact @SseAccumulator.finishReason_pushValues (.new source) hsource _

/-! ## The first terminal event -/

/-- The event that ends a stream. -/
def firstTerminal (source : Endpoint) (events : List SseEvent) : Option Value :=
  (upstreamValues events).find? (isTerminal source)

/-- The finish reason of a terminal event. A completed response may also have stopped for its tool
calls. -/
def wireReason (source : Endpoint) (value : Value) : Option String :=
  match source with
  | .chatCompletions =>
    (((value.get "choices").bind asArray).bind fun choices =>
      choices.findSome? fun choice =>
        (choice.get "finish_reason").filter fun reason => !reason.isNull).bind asStr
  | .messages =>
    if value.str "type" = some "message_stop" then some "stop"
    else ((value.get "delta").bind fun delta => delta.str "stop_reason").map
      Messages.finishReasonFromMessages
  | .responses =>
    match value.str "type" with
    | some "response.incomplete" => some (incompleteReason value)
    | some "response.failed" | some "error" => some "failed"
    | some "response.cancelled" => some "cancelled"
    | _ => some "stop"

/-- The reasons a terminal event may be given. -/
def MayReport (source : Endpoint) (value : Value) (reason : Option String) : Prop :=
  reason = wireReason source value ∨
    wireReason source value = some "stop" ∧ reason = some "tool_calls"

/-- The finish reason of a `message_delta`. -/
theorem finishReasons_messageDelta {value : Value} (h : value.str "type" = some "message_delta") :
    finishReasons (Messages.deltaFromMessagesEvent value) =
      (((value.get "delta").bind fun delta => delta.str "stop_reason").map fun stop =>
        some (Messages.finishReasonFromMessages stop)).toList := by
  rw [Messages.deltaFromMessagesEvent, h]
  cases (value.get "delta").bind fun delta => delta.str "stop_reason" <;>
    cases value.get "usage" <;> rfl

/-- The reason of a `message_delta` is that of its first finish delta. -/
theorem terminalReason_messageDelta {value : Value} (h : value.str "type" = some "message_delta")
    (acc : SseAccumulator) (deltas : List IrDelta) :
    terminalReason .messages value acc deltas =
      ((value.pointer ["delta", "stop_reason"]).filter fun reason => !reason.isNull).map
        fun reason => (finishReasons deltas).head?.getD reason.asStr := by
  rw [finishReasons, List.head?_filterMap]
  simp only [terminalReason, h]
  congr 2
  funext reason
  congr 2
  funext delta
  cases delta <;> rfl

theorem mayReport_terminalReason {acc : SseAccumulator} (value : Value) {reason : Option String}
    (h : terminalReason acc.endpoint value (acc.pushValue value).1 (acc.pushValue value).2 =
      some reason) : MayReport acc.endpoint value reason := by
  cases hsource : acc.endpoint with
  | chatCompletions =>
    rw [hsource] at h
    left
    simp only [terminalReason, wireReason] at h ⊢
    cases hchoices : (value.get "choices").bind asArray with
    | none => simp [hchoices] at h
    | some choices =>
      rw [hchoices, Option.bind_some] at h
      rw [Option.bind_some]
      have hmap := List.map_findSome? (l := choices) (g := asStr) (f := fun choice : Value =>
        (choice.get "finish_reason").filter fun reason => !reason.isNull)
      rw [Function.comp_def] at hmap
      rw [← hmap] at h
      obtain ⟨found, hfound, rfl⟩ := Option.map_eq_some_iff.mp h
      rw [hfound, Option.bind_some]
  | messages =>
    rw [hsource] at h
    left
    rw [wireReason]
    by_cases hstop : value.str "type" = some "message_stop"
    · rw [if_pos hstop]
      rw [terminalReason, hstop] at h
      exact (Option.some.inj h).symm
    by_cases htype : value.str "type" = some "message_delta"
    · clear hstop
      rw [if_neg (by simp [htype])]
      have hpointer : value.pointer ["delta", "stop_reason"] =
          (value.get "delta").bind fun delta => delta.get "stop_reason" := rfl
      have hreasons := finishReasons_messageDelta htype
      rw [terminalReason_messageDelta htype, hpointer] at h
      rw [show (acc.pushValue value).2 = (acc.decode value).2 from rfl,
        SseAccumulator.finishReasons_decode (by simp [hsource]), hsource,
        show wireDeltas .messages value = Messages.deltaFromMessagesEvent value from rfl,
        hreasons] at h
      obtain ⟨found, hfound, rfl⟩ := Option.map_eq_some_iff.mp h
      have hget := (Option.filter_eq_some_iff.mp hfound).1
      have hstr : ((value.get "delta").bind fun delta => delta.str "stop_reason") = found.asStr := by
        obtain ⟨delta, hdelta, hstop⟩ := Option.bind_eq_some_iff.mp hget
        rw [hdelta, Option.bind_some, Value.str, hstop, Option.bind_some]
      rw [hstr]
      cases found.asStr <;> rfl
    · rw [terminalReason] at h
      split at h <;> simp_all
  | responses =>
    rw [hsource] at h
    simp only [terminalReason, MayReport, wireReason] at h ⊢
    split at h
    · rename_i htype
      unfold SseAccumulator.responsesCompletedFinishReason at h
      split_ifs at h
      · exact Or.inr ⟨by simp [htype], (Option.some.inj h).symm⟩
      · exact Or.inl (by simp [htype, ← Option.some.inj h])
    · simp_all
    · simp_all
    · simp_all
    · simp_all
    · cases h

namespace EndpointTranslator

variable {t : EndpointTranslator}

theorem finishReasons_setFinish (reason : Option String) {deltas : List IrDelta}
    (h : deltas.countP IrDelta.isFinish ≤ 1) :
    finishReasons (setFinish reason deltas) = [reason] := by
  have hmap (ds : List IrDelta) :
      finishReasons (ds.map fun delta => if delta.isFinish then .finish reason else delta) =
        List.replicate (ds.countP IrDelta.isFinish) reason := by
    induction ds with
    | nil => rfl
    | cons delta ds ih =>
      rw [List.map_cons, ← List.singleton_append, finishReasons_append, ih]
      cases delta with
      | finish r =>
        rw [List.countP_cons_of_pos rfl, List.replicate_succ]
        rfl
      | _ => rfl
  unfold setFinish
  rw [any_isFinish_eq_countP]
  by_cases hpos : 0 < deltas.countP IrDelta.isFinish
  · have hone : deltas.countP IrDelta.isFinish = 1 := by omega
    rw [decide_eq_true hpos, if_pos rfl, hmap, hone]
    rfl
  · have hzero : deltas.countP IrDelta.isFinish = 0 := by omega
    rw [decide_eq_false hpos, if_neg Bool.false_ne_true, finishReasons_append, hmap, hzero]
    rfl

/-- The finish reason a JSON event hands on: that of the first terminal event. -/
theorem finishReasons_settled (hsource : t.acc.endpoint = t.source) (value : Value) :
    if t.terminalSeen = false ∧ isTerminal t.source value = true then
      ∃ reason, MayReport t.source value reason ∧ finishReasons (t.settled value).2 = [reason]
    else finishReasons (t.settled value).2 = [] := by
  split_ifs with h
  · obtain ⟨hseen, hterminal⟩ := h
    have hsome := terminalReason_isSome t.source value (t.acc.pushValue value).1
      (t.acc.pushValue value).2
    rw [hterminal, Option.isSome_iff_exists] at hsome
    obtain ⟨reason, hreason⟩ := hsome
    have hmay : MayReport t.acc.endpoint value reason :=
      mayReport_terminalReason value (by rw [hsource]; exact hreason)
    have hcount : (t.acc.pushValue value).2.countP IrDelta.isFinish ≤ 1 :=
      (countP_isFinish_decode t.acc value).trans (Bool.toNat_le _)
    rw [hsource] at hmay
    refine ⟨reason, hmay, ?_⟩
    simp only [settled, settle, hreason, hseen, Bool.false_eq_true, if_false]
    exact finishReasons_setFinish reason hcount
  · refine finishReasons_of_countP ?_
    obtain ⟨hflag, hcount⟩ := settled_spec hsource value
    rw [hflag] at hcount
    cases hseen : t.terminalSeen <;> cases hterminal : isTerminal t.source value <;>
      simp_all

/-- The finish reasons of the deltas handed to the emitter, of a stream not yet ended. -/
theorem finishReasons_handedAll (hfin : t.finished = false) (hsource : t.acc.endpoint = t.source)
    (events : List SseEvent) :
    if t.terminalSeen then finishReasons (t.handedAll (events.map .transform)) = []
    else match firstTerminal t.source events with
      | some value => ∃ reason, MayReport t.source value reason ∧
          finishReasons (t.handedAll (events.map .transform)) = [reason]
      | none => finishReasons (t.handedAll (events.map .transform)) = [] ∨
          finishReasons (t.handedAll (events.map .transform)) = [some "tool_calls"] := by
  induction events generalizing t with
  | nil =>
    split_ifs
    · rfl
    · exact Or.inl rfl
  | cons event events ih =>
    rw [List.map_cons, handedAll, finishReasons_append]
    cases hdone : event.isDone with
    | true =>
      have hnext : (t.call (.transform event)).1.finished = true := by
        simp [call, transform, hfin, hdone, finished_transformDone]
      have hfirst : firstTerminal t.source (event :: events) = none := by
        simp [firstTerminal, upstreamValues, hdone]
      rw [handedAll_of_finished hnext, hfirst]
      simp only [handed, hfin, hdone, Bool.false_eq_true, if_false, if_true]
      cases hseen : t.terminalSeen <;> simp only [inferResponsesFinish, hseen] <;>
        split_ifs <;> simp_all [finishReasons, IrDelta.reason?]
    | false =>
      cases hjson : event.json with
      | none =>
        have hcall : (t.call (.transform event)).1 = t := by
          simp [call, transform, hfin, hdone, hjson]
        have hhanded : t.handed (.transform event) = [] := by simp [handed, hfin, hdone, hjson]
        have hfirst : firstTerminal t.source (event :: events) = firstTerminal t.source events := by
          simp [firstTerminal, upstreamValues, hdone, hjson]
        rw [hcall, hhanded, hfirst]
        exact ih hfin hsource
      | some value =>
        have hcall : (t.call (.transform event)).1 = (t.transformValue value).1 := by
          simp [call, transform, hfin, hdone, hjson]
        have hhanded : t.handed (.transform event) = (t.settled value).2 := by
          simp [handed, hfin, hdone, hjson]
        have hfirst : firstTerminal t.source (event :: events) =
            if isTerminal t.source value then some value else firstTerminal t.source events := by
          have hvalues : upstreamValues (event :: events) = value :: upstreamValues events := by
            simp [upstreamValues, hdone, hjson]
          rw [firstTerminal, hvalues, List.find?_cons]
          cases isTerminal t.source value <;> rfl
        have hnext : (t.transformValue value).1.acc.endpoint = (t.transformValue value).1.source :=
          (t.acc.endpoint_pushValue value).trans hsource
        have hrest := ih (t := (t.transformValue value).1) hfin hnext
        have hseen : (t.transformValue value).1.terminalSeen =
            (t.terminalSeen || isTerminal t.source value) := (settled_spec hsource value).1
        have hhere := finishReasons_settled hsource value
        rw [hcall, hhanded, hfirst]
        change if (t.transformValue value).1.terminalSeen = true then _ else match
          firstTerminal t.source events with | some _ => _ | none => _ at hrest
        rw [hseen] at hrest
        cases hflag : t.terminalSeen with
        | true =>
          simp only [hflag, Bool.true_or, if_true, Bool.true_eq_false, false_and,
            if_false] at hrest hhere ⊢
          rw [hrest, hhere, List.append_nil]
        | false =>
          cases hterminal : isTerminal t.source value with
          | true =>
            simp only [hflag, hterminal, Bool.or_true, if_true, true_and] at hrest hhere ⊢
            obtain ⟨reason, hmay, hreason⟩ := hhere
            rw [if_neg Bool.false_ne_true]
            exact ⟨reason, hmay, by rw [hrest, hreason, List.append_nil]⟩
          | false =>
            simp only [hflag, hterminal, Bool.or_false, Bool.false_eq_true, if_false,
              and_false] at hrest hhere ⊢
            rw [hhere, List.nil_append]
            exact hrest

/-! ## Refusals -/

theorem run_of_finished (h : t.finished = true) (cs : List Call) :
    ∀ result ∈ (Machine.run call t cs).2, result = .ok [] := by
  induction cs with
  | nil => simp
  | cons c cs ih =>
    rw [Machine.run_cons, (call_of_finished h c).1]
    simpa using ih

theorem transformDone_ok (hfin : t.finished = false) : ∃ out, t.transformDone.2 = .ok out := by
  unfold transformDone finishOnce
  simp only [hfin, Bool.false_eq_true, if_false, Bool.true_eq_false]
  exact ⟨_, rfl⟩

/-- The translator refuses what the buffered path refuses. -/
theorem error_mem_run_iff (hfin : t.finished = false) (events : List SseEvent) :
    (∃ error, .error error ∈ (Machine.run call t (events.map .transform)).2) ↔
      refused events = true := by
  induction events generalizing t with
  | nil => simp [refused]
  | cons event events ih =>
    rw [List.map_cons, Machine.run_cons]
    cases hdone : event.isDone with
    | true =>
      have hcall : t.call (.transform event) = t.transformDone := by
        simp [call, transform, hfin, hdone]
      obtain ⟨out, hout⟩ := transformDone_ok hfin
      have hrest := run_of_finished t.finished_transformDone (events.map .transform)
      have hrefused : refused (event :: events) = false := by simp [refused, hdone]
      rw [hcall, hout, hrefused]
      constructor
      · rintro ⟨error, hmem⟩
        rcases List.mem_cons.mp hmem with h | h
        · cases h
        · cases hrest _ h
      · intro h
        cases h
    | false =>
      cases hjson : event.json with
      | none =>
        have hcall : t.call (.transform event) = (t, .error (.sse "expected JSON SSE payload")) := by
          simp [call, transform, hfin, hdone, hjson]
        have hrefused : refused (event :: events) = true := by simp [refused, hdone, hjson]
        rw [hcall, hrefused]
        exact ⟨fun _ => rfl, fun _ => ⟨_, List.mem_cons_self⟩⟩
      | some value =>
        have hcall : t.call (.transform event) =
            ((t.transformValue value).1, .ok (t.transformValue value).2) := by
          simp [call, transform, hfin, hdone, hjson]
        have hrefused : refused (event :: events) = refused events := by
          simp [refused, hdone, hjson]
        rw [hcall, hrefused, ← ih (t := (t.transformValue value).1) hfin]
        simp

end EndpointTranslator

theorem refused_jsonEvents (os : List (Option String × List (String × Value))) :
    refused (os.map jsonEvent) = false := by
  rw [refused, List.any_eq_false]
  intro e he
  obtain ⟨o, -, rfl⟩ := List.mem_map.mp (List.takeWhile_subset _ he)
  simp [jsonEvent]

/-! ## Agreement -/

/-- A translated stream is refused, at an event that is not JSON or at its end. -/
def Rejects (source inbound : Endpoint) (createdAt : Nat) (events : List SseEvent) : Prop :=
  let r := run source inbound createdAt (events.map .transform)
  (∃ error, .error error ∈ r.2) ∨ ∃ error, r.1.finish.2 = .error error

/-- The finish reasons the translator hands to its emitter. -/
def mappedReasons (source inbound : Endpoint) (createdAt : Nat) (events : List SseEvent) :
    List (Option String) :=
  finishReasons ((new source inbound createdAt).handedAll (events.map .transform))

/-- The buffered path fails where the translator refuses the stream. Where the translator maps the
end of the stream to the finish of an incomplete, failed or cancelled generation, the client is
shown the same outcome by both, and not that of a complete generation. -/
def Agrees (source inbound : Endpoint) (createdAt : Nat) (events : List SseEvent) : Prop :=
  let r := run source inbound createdAt (events.map .transform)
  let buffered := convertBufferedSse inbound source events
  (Rejects source inbound createdAt events → ∃ error, buffered = .error error) ∧
  (¬ Rejects source inbound createdAt events → ∀ tail, r.1.finish.2 = .ok tail →
    ∀ reason ∈ mappedReasons source inbound createdAt events, isComplete reason = false →
      ∃ value shown, buffered = .ok value ∧ shownOutcome inbound value = some shown ∧
        (emitted r.2 ++ tail).filterMap (eventOutcome inbound) = [shown] ∧
        succeeded inbound shown = false)

/-- A first terminal event whose reason is not that of a complete generation is not of a Responses
upstream, its reason is shown as such by the client's endpoint, and the last finish reason of the
stream tells the client the same. -/
def KeepsOutcome (source inbound : Endpoint) (events : List SseEvent) : Prop :=
  ∀ value, firstTerminal source events = some value →
    isComplete (wireReason source value) = false →
      source ≠ .responses ∧
        succeeded inbound (outcome inbound (wireReason source value)) = false ∧
        outcome inbound (lastReason source events) = outcome inbound (wireReason source value)

theorem rejects_iff (source inbound : Endpoint) (createdAt : Nat) (events : List SseEvent) :
    Rejects source inbound createdAt events ↔
      refused events = true ∨ ¬ Ends source (events.map .transform) := by
  have hends := @finish_error_iff source inbound createdAt (events.map .transform) (by simp)
  have hrun := error_mem_run_iff (t := new source inbound createdAt) rfl events
  rw [← hends, ← hrun]
  rfl

/-- The translator maps a stream to a reason that is not that of a complete generation exactly when
its first terminal event has it, and then hands on no other. -/
theorem mappedReasons_spec {source inbound : Endpoint} (createdAt : Nat) {events : List SseEvent}
    {reason : Option String} (hreason : isComplete reason = false) :
    (reason ∈ mappedReasons source inbound createdAt events ↔
      ∃ value, firstTerminal source events = some value ∧ reason = wireReason source value) ∧
    (reason ∈ mappedReasons source inbound createdAt events →
      mappedReasons source inbound createdAt events = [reason]) := by
  have hreasons := finishReasons_handedAll (t := new source inbound createdAt) rfl rfl events
  change if false = true then _ else match firstTerminal source events with
    | some _ => _ | none => _ at hreasons
  rw [if_neg Bool.false_ne_true] at hreasons
  have hother {other : Option String} (h : isComplete other = true) : reason ≠ other := by
    rintro rfl
    rw [h] at hreason
    cases hreason
  cases hfirst : firstTerminal source events with
  | some value =>
    rw [hfirst] at hreasons
    obtain ⟨mapped, hmay, hmapped⟩ := hreasons
    rw [mappedReasons, hmapped]
    simp only [Option.some.injEq, exists_eq_left', List.mem_singleton, List.cons.injEq, and_true]
    refine ⟨?_, Eq.symm⟩
    rcases hmay with rfl | ⟨hwire, rfl⟩
    · exact Iff.rfl
    · rw [show wireReason source value = some "stop" from hwire]
      exact iff_of_false (hother rfl) (hother rfl)
  | none =>
    rw [hfirst] at hreasons
    have hnone : reason ∉ mappedReasons source inbound createdAt events := by
      rcases hreasons with h | h
      · simp [mappedReasons, h]
      · rw [mappedReasons, h, List.mem_singleton]
        exact hother rfl
    exact ⟨iff_of_false hnone (by simp), fun h => absurd h hnone⟩

/-- The outcome shown for the only finish reason. -/
theorem outcomesOf_mapped {inbound : Endpoint} {deltas : List IrDelta} {reason : Option String}
    (h : finishReasons deltas = [reason]) : outcomesOf inbound deltas = [outcome inbound reason] := by
  rw [outcomesOf, foldl_setReason, h]
  split_ifs with hinbound
  · rw [hinbound]
    rfl
  · rfl

variable {events : List SseEvent}

theorem agrees_of_refused (source inbound : Endpoint) (createdAt : Nat)
    (hrefused : refused events = true) : Agrees source inbound createdAt events := by
  have hr : Rejects source inbound createdAt events :=
    (rejects_iff source inbound createdAt events).mpr (Or.inl hrefused)
  exact ⟨fun _ => ⟨_, (convertBufferedSse_spec inbound source events).1 hrefused⟩,
    fun h => absurd hr h⟩

/-- A stream that was cut is refused by the translator only. -/
theorem not_agrees_of_not_ends (source inbound : Endpoint) (createdAt : Nat)
    (hrefused : refused events = false) (hends : ¬ Ends source (events.map .transform)) :
    ¬ Agrees source inbound createdAt events := by
  intro h
  have hr : Rejects source inbound createdAt events :=
    (rejects_iff source inbound createdAt events).mpr (Or.inr hends)
  obtain ⟨value, reason, hvalue, -⟩ := (convertBufferedSse_spec inbound source events).2 hrefused
  obtain ⟨error, herror⟩ := h.1 hr
  rw [hvalue] at herror
  cases herror

/-- A stream that ended: the outcomes decide. -/
theorem agrees_iff_of_ends (source inbound : Endpoint) (createdAt : Nat)
    (hrefused : refused events = false) (hends : Ends source (events.map .transform)) :
    Agrees source inbound createdAt events ↔ KeepsOutcome source inbound events := by
  obtain ⟨value, reason, hvalue, hshows, hresponses, hother⟩ :=
    (convertBufferedSse_spec inbound source events).2 hrefused
  have hr : ¬ Rejects source inbound createdAt events := by
    rw [rejects_iff, hrefused]
    simp [hends]
  obtain ⟨tail, hok, hlist⟩ := outcomes_of_ends source inbound createdAt events hends
  constructor
  · intro h terminal hfirst hincomplete
    obtain ⟨hiff, hsingle⟩ := @mappedReasons_spec source inbound createdAt events _ hincomplete
    have hmem := hiff.mpr ⟨terminal, hfirst, rfl⟩
    obtain ⟨value', shown, hvalue', hshows', hstream, hunsuccessful⟩ :=
      h.2 hr tail hok _ hmem hincomplete
    obtain rfl : value = value' := Except.ok.inj (hvalue.symm.trans hvalue')
    obtain rfl : outcome inbound reason = shown := Option.some.inj (hshows.symm.trans hshows')
    rw [hlist, outcomesOf_mapped (hsingle hmem), List.singleton_inj] at hstream
    have hsource : source ≠ .responses := by
      intro hsource
      rw [succeeded_outcome inbound (hresponses hsource)] at hunsuccessful
      cases hunsuccessful
    exact ⟨hsource, hstream ▸ hunsuccessful, by rw [← hother hsource, hstream]⟩
  · intro hkeeps
    refine ⟨fun h => absurd h hr, fun _ tail' hok' mapped hmem hincomplete => ?_⟩
    obtain rfl : tail = tail' := Except.ok.inj (hok.symm.trans hok')
    obtain ⟨hiff, hsingle⟩ := @mappedReasons_spec source inbound createdAt events _ hincomplete
    obtain ⟨terminal, hfirst, rfl⟩ := hiff.mp hmem
    obtain ⟨hsource, hunsuccessful, hsame⟩ := hkeeps terminal hfirst hincomplete
    refine ⟨value, _, hvalue, hshows, ?_, ?_⟩
    · rw [hlist, outcomesOf_mapped (hsingle hmem), hother hsource, hsame]
    · rw [hother hsource, hsame]
      exact hunsuccessful

/-- **Agreement of the two paths.** -/
theorem buffered_agrees_iff (source inbound : Endpoint) (createdAt : Nat)
    (events : List SseEvent) :
    Agrees source inbound createdAt events ↔
      refused events = true ∨
        Ends source (events.map .transform) ∧ KeepsOutcome source inbound events := by
  cases hrefused : refused events with
  | true => exact iff_of_true (agrees_of_refused source inbound createdAt hrefused) (Or.inl rfl)
  | false =>
    rw [or_iff_right Bool.false_ne_true]
    by_cases hends : Ends source (events.map .transform)
    · rw [agrees_iff_of_ends source inbound createdAt hrefused hends]
      exact (and_iff_right hends).symm
    · exact iff_of_false (not_agrees_of_not_ends source inbound createdAt hrefused hends)
        fun h => hends h.1

/-- A generation that failed, as a Responses upstream reports it. -/
def failedStream : List (Option String × List (String × Value)) :=
  [(none, [("type", .string "response.output_text.delta"), ("delta", .string "partial")]),
    (none, [("type", .string "response.failed"),
      ("response", obj [("id", .string "resp_1"), ("status", .string "failed")])])]

/-- A Chat Completions stream that was cut in the middle of its answer. -/
def cutStream : List (Option String × List (String × Value)) :=
  [chatChunk (obj [("content", .string "partial")]) .null]

/-- Both are buffered as complete answers. -/
theorem failedStream_cutStream_disagree :
    ¬ Agrees .responses .chatCompletions 0 (failedStream.map jsonEvent) ∧
      ¬ Agrees .chatCompletions .responses 0 (cutStream.map jsonEvent) := by
  constructor
  · rw [agrees_iff_of_ends _ _ _ (refused_jsonEvents failedStream)
      ((ends_jsonEvents .responses failedStream).mpr (by decide))]
    intro h
    have hfirst : firstTerminal .responses (failedStream.map jsonEvent) =
        some (obj [("type", .string "response.failed"),
          ("response", obj [("id", .string "resp_1"), ("status", .string "failed")])]) := by
      rw [firstTerminal, upstreamValues_jsonEvents]
      decide
    exact (h _ hfirst (by decide)).1 rfl
  · refine not_agrees_of_not_ends _ _ _ (refused_jsonEvents cutStream) ?_
    rw [ends_jsonEvents]
    decide

end Tokn.Convert
