import Tokn.Convert.Translate

/-!
# What an event says on the wire

Whether an upstream event is terminal, and what text it carries, can be read off its JSON value,
without the events before it. The decoder of each protocol agrees.
-/

namespace Tokn.Convert

open Value

/-! ## What an event says on the wire -/

/-- Whether an event ends the stream of a protocol. -/
def isTerminal (endpoint : Endpoint) (value : Value) : Bool :=
  match endpoint with
  | .chatCompletions =>
    (((value.get "choices").bind asArray).getD []).any fun choice =>
      (choice.get "finish_reason").any fun reason => !reason.isNull
  | .messages =>
    match value.str "type" with
    | some "message_stop" => true
    | some "message_delta" =>
      (value.pointer ["delta", "stop_reason"]).any fun reason => !reason.isNull
    | _ => false
  | .responses =>
    match value.str "type" with
    | some "response.completed" | some "response.incomplete" | some "response.failed"
    | some "error" | some "response.cancelled" => true
    | _ => false

/-- Whether an event ends a stream, as its last JSON event or as the sentinel. -/
def endsStream (endpoint : Endpoint) (event : SseEvent) : Bool :=
  event.isDone || event.json.any (isTerminal endpoint)

/-- The text an event carries. -/
def textDelta (endpoint : Endpoint) (value : Value) : String :=
  match endpoint with
  | .chatCompletions =>
    (((Chat.firstChoice value).bind fun choice => choice.get "delta").bind fun delta =>
      delta.str "content").getD ""
  | .responses =>
    if value.str "type" = some "response.output_text.delta" then (value.str "delta").getD "" else ""
  | .messages =>
    if value.str "type" = some "content_block_delta" ∧
        ((value.get "delta").bind fun delta => delta.str "type") = some "text_delta" then
      ((value.get "delta").bind fun delta => delta.str "text").getD ""
    else ""

/-- The deltas of an event as its protocol writes them. -/
def wireDeltas (source : Endpoint) (value : Value) : List IrDelta :=
  match source with
  | .chatCompletions => Chat.deltaFromChatChunk value
  | .responses => Responses.deltaFromResponsesEvent value
  | .messages => Messages.deltaFromMessagesEvent value

theorem terminalReason_isSome (endpoint : Endpoint) (value : Value) (acc : SseAccumulator)
    (deltas : List IrDelta) :
    (terminalReason endpoint value acc deltas).isSome = isTerminal endpoint value := by
  cases endpoint with
  | chatCompletions =>
    simp only [terminalReason, isTerminal]
    cases (value.get "choices").bind asArray with
    | none => rfl
    | some choices =>
      simp only [Option.bind_some, Option.getD_some, List.isSome_findSome?]
      congr 1
      funext choice
      cases choice.get "finish_reason" with
      | none => rfl
      | some reason => cases h : reason.isNull <;> simp [h]
  | responses =>
    simp only [terminalReason, isTerminal]
    split <;> simp_all
  | messages =>
    simp only [terminalReason, isTerminal]
    split <;> simp_all

/-! ## Decoding -/

namespace SseAccumulator

variable (acc : SseAccumulator)

@[simp] theorem endpoint_observeMessagesEvent (value : Value) :
    (acc.observeMessagesEvent value).endpoint = acc.endpoint := by
  unfold observeMessagesEvent
  split_ifs
  · split <;> rfl
  · rfl

@[simp] theorem endpoint_deltaFromMessagesEvent (value : Value) :
    (acc.deltaFromMessagesEvent value).1.endpoint = acc.endpoint := by
  unfold deltaFromMessagesEvent
  dsimp only
  split
  · split_ifs <;> rfl
  · split_ifs <;> rfl
  · rfl
  · rfl

@[simp] theorem endpoint_observeResponsesResponse (value : Value) :
    (acc.observeResponsesResponse value).endpoint = acc.endpoint := by
  unfold observeResponsesResponse
  split
  · rfl
  · dsimp only
    split <;> rfl

@[simp] theorem endpoint_observeResponsesOutputItem (value : Value) :
    (acc.observeResponsesOutputItem value).endpoint = acc.endpoint := by
  unfold observeResponsesOutputItem
  split_ifs
  · split <;> rfl
  · rfl

@[simp] theorem endpoint_observeResponsesPart (value : Value) :
    (acc.observeResponsesPart value).endpoint = acc.endpoint := by
  unfold observeResponsesPart
  split
  · rfl
  · split <;> rfl

@[simp] theorem endpoint_observeResponsesDeltas (value : Value) (deltas : List IrDelta) :
    (acc.observeResponsesDeltas value deltas).endpoint = acc.endpoint := by
  unfold observeResponsesDeltas
  split <;> rfl

theorem endpoint_decode (value : Value) : (acc.decode value).1.endpoint = acc.endpoint := by
  cases h : acc.endpoint <;> simp [decode, h, observeChatChunk, deltaFromResponsesEvent]

theorem endpoint_pushValue (value : Value) :
    (acc.pushValue value).1.endpoint = acc.endpoint := acc.endpoint_decode value

theorem isFinish_fillFinish (reason : String) (delta : IrDelta) :
    (fillFinish reason delta).isFinish = delta.isFinish := by cases delta <;> rfl

theorem textOf_fillFinish (reason : String) (delta : IrDelta) :
    (fillFinish reason delta).textOf = delta.textOf := by cases delta <;> rfl

theorem isFinish_fillToolCall (items : BTreeMap Nat ResponseOutputItem) (delta : IrDelta) :
    (fillToolCall items delta).isFinish = delta.isFinish := by
  cases delta with
  | toolCall index id name argumentsDelta =>
    unfold fillToolCall
    dsimp only
    split <;> rfl
  | _ => rfl

theorem textOf_fillToolCall (items : BTreeMap Nat ResponseOutputItem) (delta : IrDelta) :
    (fillToolCall items delta).textOf = delta.textOf := by
  cases delta with
  | toolCall index id name argumentsDelta =>
    unfold fillToolCall
    dsimp only
    split <;> rfl
  | _ => rfl

/-- The deltas of a Responses event are those of the wire, with finish reasons, ids and names
filled in. -/
theorem decode_responses {acc : SseAccumulator} (h : acc.endpoint = .responses) (value : Value) :
    ∃ fill : IrDelta → IrDelta, (acc.decode value).2 =
        (Responses.deltaFromResponsesEvent value).map fill ∧
      ∀ delta, (fill delta).isFinish = delta.isFinish ∧ (fill delta).textOf = delta.textOf := by
  simp only [decode, h, deltaFromResponsesEvent]
  split_ifs
  · rw [List.map_map]
    refine ⟨_, rfl, fun delta => ?_⟩
    simp [isFinish_fillToolCall, isFinish_fillFinish, textOf_fillToolCall, textOf_fillFinish]
  · exact ⟨_, rfl, fun delta => ⟨isFinish_fillToolCall _ _, textOf_fillToolCall _ _⟩⟩

/-- The deltas of a Messages event are those of the wire, after a tool block without arguments
followed by the empty object. -/
theorem decode_messages {acc : SseAccumulator} (h : acc.endpoint = .messages) (value : Value) :
    ∃ filled, (acc.decode value).2 = Messages.deltaFromMessagesEvent value ++ filled ∧
      (filled = [] ∨ filled = [.toolCall ((value.u64 "index").getD 0) none none "\x7b\x7d"]) := by
  simp only [decode, h, deltaFromMessagesEvent]
  split
  · split_ifs <;> exact ⟨[], by simp⟩
  · split_ifs <;> exact ⟨[], by simp⟩
  · split_ifs
    · exact ⟨_, rfl, Or.inr rfl⟩
    · exact ⟨[], by simp⟩
  · exact ⟨[], by simp⟩

end SseAccumulator

/-! ## The deltas of the wire -/

theorem countP_isFinish_choiceDeltas (delta : Value) :
    (Chat.choiceDeltas delta).countP IrDelta.isFinish = 0 := by
  rw [List.countP_eq_zero]
  intro d hd
  simp only [Chat.choiceDeltas, List.mem_append, Option.mem_toList, Option.map_eq_some_iff,
    List.mem_map] at hd
  rcases hd with (⟨_, _, rfl⟩ | ⟨_, _, rfl⟩) | ⟨_, _, rfl⟩ <;> simp [Chat.toolCallDelta]

theorem textOf_choiceDeltas (delta : Value) :
    String.join ((Chat.choiceDeltas delta).map IrDelta.textOf) = (delta.str "content").getD "" := by
  have hcalls (calls : List Value) :
      String.join (calls.map (IrDelta.textOf ∘ Chat.toolCallDelta)) = "" := by
    induction calls with
    | nil => rfl
    | cons call calls ih => simp [ih, Chat.toolCallDelta]
  simp only [Chat.choiceDeltas, List.map_append, List.map_map, String.join_append, hcalls,
    String.append_empty]
  cases delta.str "content" <;> cases delta.str "reasoning_content" <;> simp

variable (value : Value)

theorem countP_isFinish_chat :
    (Chat.deltaFromChatChunk value).countP IrDelta.isFinish ≤
      (isTerminal .chatCompletions value).toNat := by
  have husage : ((usageFromOpenai value).map IrDelta.usage).toList.countP IrDelta.isFinish = 0 := by
    cases usageFromOpenai value <;> rfl
  unfold Chat.deltaFromChatChunk Chat.firstChoice
  cases hc : (value.get "choices").bind asArray with
  | none => simp [husage]
  | some choices =>
    cases choices with
    | nil => simp [husage]
    | cons choice rest =>
      have hdelta : (((choice.get "delta").map Chat.choiceDeltas).getD []).countP
          IrDelta.isFinish = 0 := by
        cases choice.get "delta" <;> simp [countP_isFinish_choiceDeltas]
      simp only [isTerminal, hc, Option.bind_some, List.head?_cons, Option.getD_some, List.any_cons,
        List.countP_append, husage, hdelta]
      unfold Chat.finishDelta
      cases choice.get "finish_reason" with
      | none => simp
      | some reason => cases h : reason.isNull <;> simp [h]

theorem textOf_chat :
    String.join ((Chat.deltaFromChatChunk value).map IrDelta.textOf) =
      textDelta .chatCompletions value := by
  have husage : String.join (((usageFromOpenai value).map IrDelta.usage).toList.map
      IrDelta.textOf) = "" := by
    cases usageFromOpenai value <;> rfl
  unfold Chat.deltaFromChatChunk textDelta
  cases hc : Chat.firstChoice value with
  | none => simp [husage]
  | some choice =>
    simp only [List.map_append, String.join_append, husage, Option.bind_some]
    have hfinish : String.join ((Chat.finishDelta choice).map IrDelta.textOf) = "" := by
      unfold Chat.finishDelta
      split
      · split_ifs <;> rfl
      · rfl
    rw [hfinish]
    cases choice.get "delta" <;> simp [textOf_choiceDeltas]

theorem countP_isFinish_responses :
    (Responses.deltaFromResponsesEvent value).countP IrDelta.isFinish ≤
      (isTerminal .responses value).toNat := by
  unfold Responses.deltaFromResponsesEvent isTerminal
  split
  · cases value.str "delta" <;> simp
  · cases value.str "delta" <;> simp
  · cases value.str "delta" <;> simp
  · simp
  · simp
  · cases (value.get "response").bind usageFromOpenai <;> simp [*]
  · simp

theorem textOf_responses :
    String.join ((Responses.deltaFromResponsesEvent value).map IrDelta.textOf) =
      textDelta .responses value := by
  unfold Responses.deltaFromResponsesEvent textDelta
  split
  · cases value.str "delta" <;> simp [*]
  · cases value.str "delta" <;> simp [*]
  · cases value.str "delta" <;> simp [*]
  · simp [*]
  · simp [*]
  · cases (value.get "response").bind usageFromOpenai <;> simp [*]
  · rw [if_neg ‹_›]
    rfl

theorem countP_isFinish_contentDelta (value delta : Value) :
    (Messages.contentDelta value delta).countP IrDelta.isFinish = 0 := by
  unfold Messages.contentDelta
  split
  · cases delta.str "text" <;> rfl
  · cases delta.str "thinking" <;> rfl
  · rfl
  · rfl

theorem textOf_contentDelta (value delta : Value) :
    String.join ((Messages.contentDelta value delta).map IrDelta.textOf) =
      if delta.str "type" = some "text_delta" then (delta.str "text").getD "" else "" := by
  unfold Messages.contentDelta
  split
  · cases delta.str "text" <;> simp [*]
  · cases delta.str "thinking" <;> simp [*]
  · simp [*]
  · rw [if_neg ‹_›]
    rfl

theorem countP_isFinish_messages :
    (Messages.deltaFromMessagesEvent value).countP IrDelta.isFinish ≤
      (isTerminal .messages value).toNat := by
  unfold Messages.deltaFromMessagesEvent isTerminal
  split
  · split
    · split_ifs <;> simp
    · simp
  · cases value.get "delta" <;> simp [countP_isFinish_contentDelta]
  · have husage (u : Option Usage) : (u.map IrDelta.usage).toList.countP IrDelta.isFinish = 0 := by
      cases u <;> rfl
    have hpointer : value.pointer ["delta", "stop_reason"] =
        (value.get "delta").bind fun d => d.get "stop_reason" := rfl
    rw [List.countP_append, ‹value.str "type" = some "message_delta"›, hpointer]
    cases value.get "delta" with
    | none => cases value.get "usage" <;> simp
    | some delta =>
      simp only [Option.bind_some, Value.str]
      cases delta.get "stop_reason" with
      | none => cases value.get "usage" <;> simp
      | some reason =>
        cases reason <;> cases value.get "usage" <;> simp [asStr, isNull]
  · cases (value.get "message").bind fun m => m.get "usage" <;> simp
  · simp

theorem textOf_messages :
    String.join ((Messages.deltaFromMessagesEvent value).map IrDelta.textOf) =
      textDelta .messages value := by
  unfold Messages.deltaFromMessagesEvent textDelta
  dsimp only
  split
  · split
    · rename_i block hblock
      by_cases h : block.str "type" = some "tool_use" <;> simp [*]
    · simp [*]
  · cases value.get "delta" <;> simp [textOf_contentDelta, *]
  · rename_i htype
    simp only [htype, Option.some.injEq, String.reduceEq, false_and, if_false, List.map_append,
      String.join_append]
    cases (value.get "delta").bind fun d => d.str "stop_reason" <;>
      cases value.get "usage" <;> simp
  · cases (value.get "message").bind fun m => m.get "usage" <;> simp [*]
  · rename_i h _ _
    rw [if_neg fun ⟨htype, _⟩ => h htype]
    rfl

/-- One event decodes to at most one finish delta, and to one only when it is terminal. -/
theorem countP_isFinish_decode (acc : SseAccumulator) (value : Value) :
    (acc.decode value).2.countP IrDelta.isFinish ≤ (isTerminal acc.endpoint value).toNat := by
  cases h : acc.endpoint with
  | chatCompletions =>
    simp only [SseAccumulator.decode, h]
    exact countP_isFinish_chat value
  | responses =>
    obtain ⟨fill, hd, hfill⟩ := SseAccumulator.decode_responses h value
    rw [hd, List.countP_map]
    have : IrDelta.isFinish ∘ fill = IrDelta.isFinish := funext fun delta => (hfill delta).1
    rw [this]
    exact countP_isFinish_responses value
  | messages =>
    obtain ⟨filled, hd, hf⟩ := SseAccumulator.decode_messages h value
    have : filled.countP IrDelta.isFinish = 0 := by rcases hf with rfl | rfl <;> rfl
    rw [hd, List.countP_append, this]
    exact countP_isFinish_messages value

/-- The text an event decodes to is the text it carries. -/
theorem textOf_decode (acc : SseAccumulator) (value : Value) :
    String.join ((acc.decode value).2.map IrDelta.textOf) = textDelta acc.endpoint value := by
  cases h : acc.endpoint with
  | chatCompletions =>
    simp only [SseAccumulator.decode, h]
    exact textOf_chat value
  | responses =>
    obtain ⟨fill, hd, hfill⟩ := SseAccumulator.decode_responses h value
    have : IrDelta.textOf ∘ fill = IrDelta.textOf := funext fun delta => (hfill delta).2
    rw [hd, List.map_map, this]
    exact textOf_responses value
  | messages =>
    obtain ⟨filled, hd, hf⟩ := SseAccumulator.decode_messages h value
    have : String.join (filled.map IrDelta.textOf) = "" := by
      rcases hf with rfl | rfl <;> simp
    rw [hd, List.map_append, String.join_append, this, String.append_empty]
    exact textOf_messages value

end Tokn.Convert
