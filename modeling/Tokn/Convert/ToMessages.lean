import Tokn.Convert.Upstream

/-!
# Translation to Messages

The emitter starts one text block and writes every delta as it comes, so reasoning lands in the
text block, the arguments of a tool call land in a block that was never started, and the id and
the name of the call are lost.

**Theorem (`messages_wellFormed_iff`).** A translated stream is a well-formed Messages stream that
shows every upstream call if and only if upstream sent neither reasoning nor a call.
-/

namespace Tokn.Convert

open Value

/-! ## Well-formed Messages streams -/

inductive BlockKind where
  | text
  | thinking
  | toolUse
  deriving DecidableEq

/-- The kind of block that a content block opens. -/
def BlockKind.ofBlock : String → Option BlockKind
  | "text" => some .text
  | "thinking" => some .thinking
  | "tool_use" => some .toolUse
  | _ => none

/-- The kind of block that a delta belongs to. -/
def BlockKind.ofDelta : String → Option BlockKind
  | "text_delta" => some .text
  | "thinking_delta" => some .thinking
  | "input_json_delta" => some .toolUse
  | _ => none

/-- A string field of an object that an event holds. -/
def strIn (e : SseEvent) (k l : String) : Option String :=
  (e.json.bind fun v => v.get k).bind fun v => v.str l

/-- The blocks that are open after an event, if it is one that may come now: a block is started
only when it is not open, and gets deltas of its kind until it is stopped. -/
def blockStep (blocks : BTreeMap Nat BlockKind) (e : SseEvent) :
    Option (BTreeMap Nat BlockKind) :=
  match e.str "type" with
  | some "content_block_start" =>
    match e.u64 "index", (strIn e "content_block" "type").bind BlockKind.ofBlock with
    | some index, some kind =>
      if blocks.contains index then none else some (blocks.insert index kind)
    | _, _ => none
  | some "content_block_delta" =>
    match e.u64 "index", (strIn e "delta" "type").bind BlockKind.ofDelta with
    | some index, some kind => if blocks.get index = some kind then some blocks else none
    | _, _ => none
  | some "content_block_stop" =>
    match e.u64 "index" with
    | some index =>
      if blocks.contains index then some (blocks.erase index) else none
    | none => none
  | some "message_start" | some "message_stop" => none
  | _ => some blocks

/-- A message that starts first and once, stops last and once, and has every block stopped. -/
def WellFormedMessage (out : List SseEvent) : Prop :=
  ∃ first inner last, out = first :: inner ++ [last] ∧
    first.str "type" = some "message_start" ∧ last.str "type" = some "message_stop" ∧
    inner.foldlM blockStep [] = some []

/-- The id and the name of the tool block an event starts. -/
def toolUseBlock (e : SseEvent) : Option (String × String) :=
  if e.str "type" = some "content_block_start" ∧ strIn e "content_block" "type" = some "tool_use"
  then
    match strIn e "content_block" "id", strIn e "content_block" "name" with
    | some id, some name => some (id, name)
    | _, _ => none
  else none

/-! ## Calls on the wire -/

/-- The id and the name of a Chat Completions call. -/
def chatCall (call : Value) : Option (String × String) :=
  match call.str "id", (call.get "function").bind fun f => f.str "name" with
  | some id, some name => some (id, name)
  | _, _ => none

/-- The id and the name of a Responses item, if it is a call. -/
def responsesCall (item : Value) : Option (String × String) :=
  if Responses.isToolCallType (item.str "type") then
    match item.str "call_id", item.str "name" with
    | some id, some name => some (id, name)
    | _, _ => none
  else none

/-- The calls an upstream event gives the id and the name of. -/
def announcedCalls (source : Endpoint) (value : Value) : List (String × String) :=
  match source with
  | .chatCompletions =>
    (((value.get "choices").bind asArray).getD []).flatMap fun choice =>
      ((((choice.get "delta").bind fun delta => delta.get "tool_calls").bind asArray).getD
        []).filterMap chatCall
  | .responses =>
    match value.str "type" with
    | some "response.output_item.added" | some "response.output_item.done" =>
      ((value.get "item").bind responsesCall).toList
    | some "response.completed" =>
      ((((value.get "response").bind fun r => r.get "output").bind asArray).getD []).filterMap
        responsesCall
    | _ => []
  | .messages => []

/-- A delta that goes to no block, or to the text block. -/
def IrDelta.isPlain : IrDelta → Bool
  | .text _ | .usage _ | .finish _ => true
  | .reasoning _ | .toolCall .. => false

/-- An event with neither reasoning nor any part of a call. -/
def isPlainEvent (source : Endpoint) (value : Value) : Bool :=
  (wireDeltas source value).all IrDelta.isPlain && (announcedCalls source value).isEmpty

/-! ## The events of a Messages target -/

def messagesEvent (delta : IrDelta) : SseEvent :=
  .ofJson (some (Messages.eventFromDelta delta).1) (Messages.eventFromDelta delta).2

/-- The blocks while the only block is open. -/
def textBlock : BTreeMap Nat BlockKind := [(0, .text)]

theorem blockStep_blockDelta (blocks : BTreeMap Nat BlockKind) (event : Option String) (index : Nat)
    (kind k : String) (v : Value) (hk : k ≠ "type") :
    blockStep blocks (.ofJson event (Messages.blockDelta index [("type", .string kind), (k, v)])) =
      (BlockKind.ofDelta kind).bind fun kind =>
        if blocks.get index = some kind then some blocks else none := by
  have htype : (Messages.blockDelta index [("type", .string kind), (k, v)]).str "type" =
      some "content_block_delta" := (str_obj _ _).trans rfl
  have hindex : (Messages.blockDelta index [("type", .string kind), (k, v)]).u64 "index" =
      some index := (u64_obj _ _).trans rfl
  have hdelta : (Messages.blockDelta index [("type", .string kind), (k, v)]).get "delta" =
      some (obj [("type", .string kind), (k, v)]) := (get_obj _ _).trans rfl
  have hkind : (obj [("type", .string kind), (k, v)]).str "type" = some kind := by
    rw [str_obj]
    simp [BTreeMap.get_cons, Ne.symm hk, asStr]
  simp only [blockStep, SseEvent.str_ofJson, htype, SseEvent.u64_ofJson, hindex, strIn,
    SseEvent.json_ofJson, Option.bind_some, hdelta, hkind]
  cases BlockKind.ofDelta kind <;> rfl

/-- **One delta.** Only a plain one may come while the text block is open. -/
theorem blockStep_messagesEvent (delta : IrDelta) :
    blockStep textBlock (messagesEvent delta) = if delta.isPlain then some textBlock else none := by
  cases delta with
  | text text => exact blockStep_blockDelta _ _ _ _ _ _ (by decide)
  | reasoning text => exact blockStep_blockDelta _ _ _ _ _ _ (by decide)
  | toolCall index id name argumentsDelta =>
    have hblock : textBlock.get index ≠ some .toolUse := by
      rw [textBlock, BTreeMap.get_cons]
      split_ifs <;> simp
    have hkind : BlockKind.ofDelta "input_json_delta" = some .toolUse := rfl
    refine (blockStep_blockDelta textBlock (some "content_block_delta") index "input_json_delta"
      "partial_json" (.string argumentsDelta) (by decide)).trans ?_
    rw [hkind, Option.bind_some, if_neg hblock]
    rfl
  | usage usage =>
    have htype : (messagesEvent (.usage usage)).str "type" = some "message_delta" :=
      type_eventFromDelta (.usage usage)
    rw [blockStep, htype]
    rfl
  | finish reason =>
    have htype : (messagesEvent (.finish reason)).str "type" = some "message_delta" :=
      type_eventFromDelta (.finish reason)
    rw [blockStep, htype]
    rfl

theorem foldlM_messagesEvent (deltas : List IrDelta) :
    (deltas.map messagesEvent).foldlM blockStep textBlock =
      if deltas.all IrDelta.isPlain then some textBlock else none := by
  induction deltas with
  | nil => rfl
  | cons delta deltas ih =>
    rw [List.map_cons, List.foldlM_cons, blockStep_messagesEvent]
    cases h : delta.isPlain
    · simp [h]
    · simpa [h] using ih

def messageStartEvent (id model : String) : SseEvent :=
  .ofJson (some "message_start") (Messages.messageStart id model)

def textBlockStart : SseEvent :=
  .ofJson (some "content_block_start") (obj [("type", .string "content_block_start"),
    ("index", nat 0), ("content_block", obj [("type", .string "text"), ("text", .string "")])])

def textBlockStop : SseEvent :=
  .ofJson (some "content_block_stop") (Messages.contentBlockStop 0)

def messageStopEvent : SseEvent := .ofJson (some "message_stop") Messages.messageStop

/-- The only block of a Messages target, and the events in it. -/
def messageBody (deltas : List IrDelta) : List SseEvent :=
  textBlockStart :: deltas.map messagesEvent ++ [textBlockStop]

/-- The whole stream of a Messages target. -/
def messagesStream (id model : String) (deltas : List IrDelta) : List SseEvent :=
  messageStartEvent id model :: messageBody deltas ++ [messageStopEvent]

theorem foldlM_messageBody (deltas : List IrDelta) :
    (messageBody deltas).foldlM blockStep [] =
      if deltas.all IrDelta.isPlain then some [] else none := by
  have hstart : blockStep [] textBlockStart = some textBlock := by decide
  have hstop : blockStep textBlock textBlockStop = some [] := by decide
  rw [messageBody, List.cons_append, List.foldlM_cons, hstart]
  simp only [Option.bind_eq_bind, Option.bind_some, List.foldlM_append, foldlM_messagesEvent]
  split_ifs
  · simp [hstop]
  · rfl

theorem wellFormedMessage_messagesStream (id model : String) (deltas : List IrDelta) :
    WellFormedMessage (messagesStream id model deltas) ↔ deltas.all IrDelta.isPlain = true := by
  constructor
  · rintro ⟨first, inner, last, hout, -, -, hfold⟩
    have hbody : messageBody deltas = inner := by
      have htail := (List.cons.inj hout).2
      exact (List.append_inj' htail rfl).1
    rw [← hbody, foldlM_messageBody] at hfold
    by_contra hplain
    rw [if_neg hplain] at hfold
    cases hfold
  · intro hplain
    refine ⟨_, _, _, rfl, ?_, ?_, (foldlM_messageBody deltas).trans (if_pos hplain)⟩
    · exact (str_obj _ _).trans rfl
    · decide

theorem toolUseBlock_messagesEvent (delta : IrDelta) : toolUseBlock (messagesEvent delta) = none := by
  have htype : (messagesEvent delta).str "type" ≠ some "content_block_start" := by
    rw [messagesEvent, SseEvent.str_ofJson, type_eventFromDelta]
    cases delta <;> simp [Messages.eventFromDelta]
  simp [toolUseBlock, htype]

/-- No tool block is ever started. -/
theorem toolUseBlock_messagesStream (id model : String) (deltas : List IrDelta) :
    (messagesStream id model deltas).filterMap toolUseBlock = [] := by
  have hdeltas : (deltas.map messagesEvent).filterMap toolUseBlock = [] := by
    rw [List.filterMap_map, List.filterMap_eq_nil_iff]
    exact fun delta _ => toolUseBlock_messagesEvent delta
  have hfirst : toolUseBlock (messageStartEvent id model) = none := by
    have htype : (messageStartEvent id model).str "type" = some "message_start" :=
      (str_obj _ _).trans rfl
    simp [toolUseBlock, htype]
  have hstart : toolUseBlock textBlockStart = none := by decide
  have hstop : toolUseBlock textBlockStop = none := by decide
  have hlast : toolUseBlock messageStopEvent = none := by decide
  simp [messagesStream, messageBody, hfirst, hstart, hdeltas, hstop, hlast]

/-! ## The account -/

/-- The state of a Messages target, and its events so far: none, or the opening ones and one for
each delta. -/
def Writes (s : EmitState) (out : List SseEvent) (deltas : List IrDelta) : Prop :=
  s.target = .messages ∧
    (s.started = false ∧ out = [] ∧ deltas = [] ∨
      s.started = true ∧ ∃ id model,
        out = messageStartEvent id model :: textBlockStart :: deltas.map messagesEvent)

variable {s : EmitState} {out : List SseEvent} {deltas : List IrDelta}

theorem emitDeltas_messages (h : s.target = .messages) (deltas : List IrDelta) :
    s.emitDeltas deltas = (s, deltas.map messagesEvent) := by
  have hevents : (Messages.eventsFromDeltas s.id s.model deltas false).map
      (fun e => SseEvent.ofJson (some e.1) e.2) = deltas.map messagesEvent := by
    rw [Messages.eventsFromDeltas, if_neg Bool.false_ne_true, List.map_map]
    rfl
  simp only [EmitState.emitDeltas, h, hevents]

theorem emitEnd_messages (h : s.target = .messages) :
    s.emitEnd.2 = [textBlockStop, messageStopEvent] := by
  simp [EmitState.emitEnd, h, textBlockStop, messageStopEvent]

/-- The opening events are written before anything else. -/
theorem Writes.ensureStarted (h : Writes s out deltas) :
    s.ensureStarted.1.target = .messages ∧ s.ensureStarted.1.started = true ∧
      ∃ id model, out ++ s.ensureStarted.2 =
        messageStartEvent id model :: textBlockStart :: deltas.map messagesEvent := by
  obtain ⟨htarget, ⟨hstarted, rfl, rfl⟩ | ⟨hstarted, hout⟩⟩ := h
  · have hstart : s.ensureStarted =
        ({ s with started := true }, [messageStartEvent s.id s.model, textBlockStart]) := by
      simp [EmitState.ensureStarted, hstarted, htarget, EmitState.start, messageStartEvent,
        textBlockStart]
    rw [hstart]
    exact ⟨htarget, rfl, s.id, s.model, rfl⟩
  · have hstart : s.ensureStarted = (s, []) := by simp [EmitState.ensureStarted, hstarted]
    rw [hstart, List.append_nil]
    exact ⟨htarget, hstarted, hout⟩

theorem Writes.emit (h : Writes s out deltas) (deltas' : List IrDelta) :
    Writes (s.emit deltas').1 (out ++ (s.emit deltas').2) (deltas ++ deltas') := by
  by_cases hd : deltas' = []
  · subst hd
    simpa [EmitState.emit] using h
  · obtain ⟨htarget, hstarted, id, model, hout⟩ := h.ensureStarted
    simp only [EmitState.emit, hd, if_false, emitDeltas_messages htarget]
    refine ⟨htarget, Or.inr ⟨hstarted, id, model, ?_⟩⟩
    rw [← List.append_assoc, hout, List.map_append]
    rfl

theorem Writes.finish (h : Writes s out deltas) (hfin : s.finished = false) :
    ∃ id model, out ++ s.finish.2 = messagesStream id model deltas := by
  have h' : Writes { s with finished := true } out deltas := h
  obtain ⟨htarget, -, id, model, hout⟩ := h'.ensureStarted
  refine ⟨id, model, ?_⟩
  simp only [EmitState.finish, hfin, Bool.false_eq_true, if_false]
  rw [emitEnd_messages htarget, ← List.append_assoc, hout]
  simp [messagesStream, messageBody]

/-- The account of a Messages target. -/
def messagesAccount : Account .messages where
  Open s out deltas := s.finished = false ∧ Writes s out deltas
  Closed out deltas := ∃ id model, out = messagesStream id model deltas
  new createdAt := ⟨rfl, rfl, Or.inl ⟨rfl, rfl, rfl⟩⟩
  updateMetadata := fun ⟨hfin, htarget, hwrites⟩ metadata =>
    ⟨by simpa using hfin, by simpa using htarget, by simpa using hwrites⟩
  emit := fun ⟨hfin, h⟩ deltas' => ⟨by simpa using hfin, h.emit deltas'⟩
  finish := fun ⟨hfin, h⟩ => h.finish hfin

/-! ## Plain streams -/

theorem isPlain_fillToolCall (items : BTreeMap Nat ResponseOutputItem) (delta : IrDelta) :
    (SseAccumulator.fillToolCall items delta).isPlain = delta.isPlain := by
  cases delta with
  | toolCall index id name argumentsDelta =>
    unfold SseAccumulator.fillToolCall
    dsimp only
    split <;> rfl
  | _ => rfl

theorem isPlain_fillFinish (reason : String) (delta : IrDelta) :
    (SseAccumulator.fillFinish reason delta).isPlain = delta.isPlain := by cases delta <;> rfl

/-- Decoding fills in what an event leaves out, but never the kind of a delta. -/
theorem isPlain_decode {acc : SseAccumulator} (h : acc.endpoint ≠ .messages) (value : Value) :
    (acc.decode value).2.all IrDelta.isPlain =
      (wireDeltas acc.endpoint value).all IrDelta.isPlain := by
  cases hsource : acc.endpoint with
  | chatCompletions => simp [SseAccumulator.decode, hsource, wireDeltas]
  | responses =>
    simp only [SseAccumulator.decode, hsource, SseAccumulator.deltaFromResponsesEvent, wireDeltas]
    split_ifs <;> simp [List.all_map, Function.comp_def, isPlain_fillToolCall, isPlain_fillFinish]
  | messages => exact absurd hsource h

namespace EndpointTranslator

theorem isPlain_handedAll {source : Endpoint} (hsource : source ≠ .messages) (target : Endpoint)
    (createdAt : Nat) (events : List SseEvent) :
    ((new source target createdAt).handedAll (events.map .transform)).all IrDelta.isPlain =
      (upstreamValues events).all fun value => (wireDeltas source value).all IrDelta.isPlain := by
  have hgathers : Gathers (fun deltas => deltas.all IrDelta.isPlain) (· && ·) :=
    ⟨fun as bs => List.all_append, fun x => Bool.true_and x, fun reason => rfl⟩
  have hfold (values : List Value) (p : Value → Bool) :
      (values.map p).foldr (· && ·) true = values.all p := by
    induction values with
    | nil => rfl
    | cons value values ih => rw [List.map_cons, List.foldr_cons, ih, List.all_cons]
  refine (hgathers.handedAll ?_ rfl rfl events).trans (hfold _ _)
  rintro acc rfl value
  exact isPlain_decode hsource value

/-- Every call that upstream announces is shown as one tool block. -/
def ShowsCalls (source : Endpoint) (events : List SseEvent) (out : List SseEvent) : Prop :=
  ∀ value ∈ upstreamValues events, ∀ call ∈ announcedCalls source value,
    (out.filterMap toolUseBlock).count call = 1

/-- **Messages streams.** A stream that ended is well formed and shows every upstream call if and
only if no upstream event has reasoning or any part of a call. -/
theorem messages_wellFormed_iff (source : Endpoint) (createdAt : Nat) (events : List SseEvent)
    (hsource : source ≠ .messages) (hends : Ends source (events.map .transform)) :
    let r := run source .messages createdAt (events.map .transform)
    (∃ tail, r.1.finish.2 = .ok tail ∧ WellFormedMessage (emitted r.2 ++ tail) ∧
        ShowsCalls source events (emitted r.2 ++ tail)) ↔
      ∀ value ∈ upstreamValues events, isPlainEvent source value = true := by
  intro r
  obtain ⟨tail, hok, id, model, hout⟩ := closed_of_ends messagesAccount source createdAt events hends
  have hshows : ShowsCalls source events (emitted r.2 ++ tail) ↔
      ∀ value ∈ upstreamValues events, announcedCalls source value = [] := by
    rw [ShowsCalls, hout, toolUseBlock_messagesStream]
    refine forall₂_congr fun value _ => ?_
    rw [List.eq_nil_iff_forall_not_mem]
    simp
  have hwellFormed : WellFormedMessage (emitted r.2 ++ tail) ↔
      ∀ value ∈ upstreamValues events, (wireDeltas source value).all IrDelta.isPlain = true := by
    rw [hout, wellFormedMessage_messagesStream, isPlain_handedAll hsource, List.all_eq_true]
  have hplain : (∀ value ∈ upstreamValues events, isPlainEvent source value = true) ↔
      WellFormedMessage (emitted r.2 ++ tail) ∧ ShowsCalls source events (emitted r.2 ++ tail) := by
    rw [hwellFormed, hshows]
    simp only [isPlainEvent, Bool.and_eq_true, List.isEmpty_iff]
    exact ⟨fun h => ⟨fun v hv => (h v hv).1, fun v hv => (h v hv).2⟩,
      fun h v hv => ⟨h.1 v hv, h.2 v hv⟩⟩
  rw [hplain]
  constructor
  · rintro ⟨tail', hok', h⟩
    obtain rfl : tail = tail' := Except.ok.inj (hok.symm.trans hok')
    exact h
  · exact fun h => ⟨tail, hok, h⟩

/-- A Chat Completions chunk with the given delta and finish reason. -/
def chatChunk (delta finishReason : Value) : Option String × List (String × Value) :=
  (none, [("choices", .array [obj [("index", nat 0), ("delta", delta),
    ("finish_reason", finishReason)]])])

/-- A stream of text. -/
def textStream : List (Option String × List (String × Value)) :=
  [chatChunk (obj [("content", .string "hi")]) .null, chatChunk (obj []) (.string "stop")]

theorem textStream_wellFormed :
    let events := textStream.map jsonEvent
    let r := run .chatCompletions .messages 0 (events.map .transform)
    ∃ tail, r.1.finish.2 = .ok tail ∧ WellFormedMessage (emitted r.2 ++ tail) ∧
      ShowsCalls .chatCompletions events (emitted r.2 ++ tail) := by
  intro events r
  have hvalues : upstreamValues events = textStream.map fun o => obj o.2 :=
    upstreamValues_jsonEvents textStream
  have hends : Ends .chatCompletions (events.map .transform) :=
    (ends_jsonEvents .chatCompletions textStream).mpr (by decide)
  refine (messages_wellFormed_iff .chatCompletions 0 events (by decide) hends).mpr ?_
  rw [hvalues]
  decide

/-- A stream of one tool call. -/
def toolCallStream : List (Option String × List (String × Value)) :=
  [chatChunk (obj [("tool_calls", .array [obj [("index", nat 0), ("id", .string "call_a"),
      ("function", obj [("name", .string "f"), ("arguments", .string "[1]")])]])]) .null,
    chatChunk (obj []) (.string "tool_calls")]

/-- The arguments of the call land in the text block, and no tool block shows its name. -/
theorem toolCallStream_malformed :
    let events := toolCallStream.map jsonEvent ++ [.done]
    let out := emitted (run .chatCompletions .messages 0 (events.map .transform)).2
    ¬ WellFormedMessage out ∧ ¬ ShowsCalls .chatCompletions events out := by
  intro events out
  have hcalls : events.map Call.transform =
      (toolCallStream.map fun o => .transform (jsonEvent o)) ++ [.transform .done] := by
    rw [List.map_append, List.map_map]
    rfl
  have hout : out = ((new .chatCompletions .messages 0).feed toolCallStream).2 ++
      emitted (Machine.run call ((new .chatCompletions .messages 0).feed toolCallStream).1
        [.transform .done]).2 := by
    show emitted (run _ _ _ _).2 = _
    rw [hcalls]
    exact (run_jsonEvents rfl toolCallStream [.transform .done]).2
  rw [hout]
  constructor
  · rintro ⟨first, inner, last, heq, -, -, hfold⟩
    have hinner := congrArg (fun l : List SseEvent => l.tail.dropLast.foldlM blockStep []) heq
    simp only [List.cons_append, List.tail_cons, List.dropLast_concat, hfold] at hinner
    revert hinner
    decide
  · intro hshows
    have hvalues : upstreamValues events = toolCallStream.map fun o => obj o.2 := by
      simp [events, toolCallStream, upstreamValues, jsonEvent, SseEvent.isDone_ofJson_obj]
    rw [ShowsCalls, hvalues] at hshows
    revert hshows
    decide

end EndpointTranslator

end Tokn.Convert
