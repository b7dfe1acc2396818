import Tokn.Convert.Wire
import Tokn.Lib.Machine

/-!
# The tool calls of an upstream stream

What the events of a stream say of its tool calls, read off the wire alone. A mark is one thing that
an event says of a call: a fragment of its arguments, with what is known of the call by then, or, in a
Responses stream, that there is such a call. Its index is the one that the code reads: one that is
missing or is not an unsigned integer is zero.

**Theorem (`fragments_decoded`).** The tool call deltas that the accumulator decodes are the marks
with a fragment.
-/

namespace Tokn.Convert.WireCalls

open Value

/-! ## Marks -/

structure CallMark where
  index : Nat
  id : Option String
  name : Option String
  /-- The fragment of the arguments, if the event has one. -/
  fragment : Option String
  deriving DecidableEq

/-- What the item events of a Responses stream have said of an item. -/
structure KnownItem where
  callId : Option String := none
  id : Option String := none
  name : Option String := none
  deriving DecidableEq

/-- What later events of a stream are read with. -/
structure WireState where
  /-- The indices of the open tool blocks of a Messages stream that have no arguments yet. -/
  blank : Nat → Bool := fun _ => false
  /-- The items of a Responses stream. -/
  known : Nat → KnownItem := fun _ => {}

def indexOf (value : Value) (field : String) : Nat := (value.u64 field).getD 0

/-! ## Chat Completions -/

/-- An entry of `delta.tool_calls`. -/
def chatMark (call : Value) : CallMark where
  index := indexOf call "index"
  id := call.str "id"
  name := (call.get "function").bind fun f => f.str "name"
  fragment := some (((call.get "function").bind fun f => f.str "arguments").getD "")

/-- The entries of the first choice of a chunk. -/
def chatCalls (value : Value) : List Value :=
  (((Chat.firstChoice value).bind fun choice => choice.get "delta").bind fun delta =>
    (delta.get "tool_calls").bind asArray).getD []

def chatMarks (value : Value) : List CallMark := (chatCalls value).map chatMark

/-! ## Messages -/

/-- The marks of an event about content blocks. A tool block that closes without arguments has the
empty object for them. -/
def messagesMarks (blank : Nat → Bool) (value : Value) : (Nat → Bool) × List CallMark :=
  let index := indexOf value "index"
  match value.str "type", value.get "content_block", value.get "delta" with
  | some "content_block_start", some block, _ =>
    if block.str "type" = some "tool_use" then
      (Function.update blank index (Messages.inputText block = ""),
        [⟨index, block.str "id", block.str "name", some (Messages.inputText block)⟩])
    else (blank, [])
  | some "content_block_delta", _, some delta =>
    if delta.str "type" = some "input_json_delta" then
      let fragment := (delta.str "partial_json").getD ""
      (if fragment = "" then blank else Function.update blank index false,
        [⟨index, none, none, some fragment⟩])
    else (blank, [])
  | some "content_block_stop", _, _ =>
    (Function.update blank index false,
      if blank index then [⟨index, none, none, some "\x7b\x7d"⟩] else [])
  | _, _, _ => (blank, [])

/-! ## Responses -/

def isItemEvent (value : Value) : Bool :=
  value.str "type" = some "response.output_item.added" ||
    value.str "type" = some "response.output_item.done"

/-- An item after an event about it. What is known is kept. -/
def KnownItem.observe (known : KnownItem) (value item : Value) : KnownItem where
  callId := known.callId <|> item.str "call_id"
  id := known.id <|> (item.get "id" <|> value.get "item_id").bind asStr
  name := known.name <|> item.str "name"

def observeItem (known : Nat → KnownItem) (value : Value) : Nat → KnownItem :=
  if isItemEvent value then
    match value.u64 "output_index", value.get "item" with
    | some index, some item => Function.update known index ((known index).observe value item)
    | _, _ => known
  else known

/-- The item events of a tool call say that there is one. -/
def announcement (value : Value) : List CallMark :=
  if isItemEvent value then
    match value.get "item" with
    | some item =>
      if Responses.isToolCallType (item.str "type") then
        [⟨indexOf value "output_index", item.str "call_id", item.str "name", none⟩]
      else []
    | none => []
  else []

/-- A fragment goes with what is known of its item: the call id, or else the id it gives itself, or
that of the item. -/
def responsesFragment (known : Nat → KnownItem) (value : Value) : List CallMark :=
  if value.str "type" = some "response.function_call_arguments.delta" ∨
      value.str "type" = some "response.custom_tool_call_input.delta" then
    let item := known (indexOf value "output_index")
    [⟨indexOf value "output_index",
      item.callId <|> ((value.get "call_id" <|> value.get "item_id").bind asStr) <|> item.id,
      item.name, some ((value.str "delta").getD "")⟩]
  else []

/-! ## Streams -/

/-- The marks of an event. -/
def step (endpoint : Endpoint) (w : WireState) (value : Value) : WireState × List CallMark :=
  match endpoint with
  | .chatCompletions => (w, chatMarks value)
  | .messages =>
    let (blank, marks) := messagesMarks w.blank value
    ({ w with blank := blank }, marks)
  | .responses =>
    let known := observeItem w.known value
    ({ w with known := known }, announcement value ++ responsesFragment known value)

/-- The marks of a stream. -/
def marks (endpoint : Endpoint) (values : List Value) : List CallMark :=
  (Machine.run (step endpoint) {} values).2.flatten

/-! ## Decoding -/

/-- The mark of a tool call delta. -/
def ofDelta : IrDelta → Option CallMark
  | .toolCall index id name argumentsDelta => some ⟨index, id, name, some argumentsDelta⟩
  | _ => none

def fragments (marks : List CallMark) : List CallMark :=
  marks.filter fun mark => mark.fragment.isSome

/-- What an item shows of its identity. -/
def identity (item : ResponseOutputItem) : KnownItem := ⟨item.callId, item.id, item.name⟩

/-- What the accumulator remembers is what the wire has said. -/
structure Agree (acc : SseAccumulator) (w : WireState) : Prop where
  blank : ∀ i, w.blank i = true ↔ acc.messages.toolArgumentsSeen.get i = some false
  known : ∀ i, identity ((acc.responses.outputItems.get i).getD default) = w.known i

theorem agree_new (endpoint : Endpoint) : Agree (.new endpoint) {} :=
  ⟨fun _ => by simp [SseAccumulator.new], fun _ => rfl⟩

variable {acc : SseAccumulator} {w : WireState} {value : Value}
  {items : BTreeMap Nat ResponseOutputItem}

theorem Agree.of_eq {acc' : SseAccumulator} (h : Agree acc w)
    (hmessages : acc'.messages = acc.messages)
    (hitems : acc'.responses.outputItems = acc.responses.outputItems) : Agree acc' w := by
  refine ⟨fun i => ?_, fun i => ?_⟩
  · rw [hmessages]
    exact h.blank i
  · rw [hitems]
    exact h.known i

/-! ### Chat Completions -/

theorem ofDelta_usage (usage : Option Usage) :
    (usage.map IrDelta.usage).toList.filterMap ofDelta = [] := by
  cases usage <;> rfl

theorem ofDelta_finishDelta (choice : Value) : (Chat.finishDelta choice).filterMap ofDelta = [] := by
  rw [Chat.finishDelta]
  split
  · split_ifs <;> rfl
  · rfl

theorem filterMap_deltaFromChatChunk (value : Value) :
    (Chat.deltaFromChatChunk value).filterMap ofDelta = chatMarks value := by
  rw [Chat.deltaFromChatChunk, chatMarks, chatCalls]
  cases hchoice : Chat.firstChoice value with
  | none => exact ofDelta_usage _
  | some choice =>
    dsimp only
    rw [List.filterMap_append, List.filterMap_append, ofDelta_usage, ofDelta_finishDelta,
      List.append_nil, List.append_nil, Option.bind_some]
    cases choice.get "delta" with
    | none => rfl
    | some delta =>
      rw [Option.map_some, Option.getD_some, Chat.choiceDeltas, List.filterMap_append,
        List.filterMap_append, Option.bind_some, List.filterMap_map]
      have htext : ((delta.str "content").map IrDelta.text).toList.filterMap ofDelta = [] := by
        cases delta.str "content" <;> rfl
      have hreasoning : ((delta.str "reasoning_content").map
          IrDelta.reasoning).toList.filterMap ofDelta = [] := by
        cases delta.str "reasoning_content" <;> rfl
      rw [htext, hreasoning, List.nil_append, List.nil_append]
      exact congrFun List.filterMap_eq_map' _

theorem fragments_chatMarks (value : Value) : fragments (chatMarks value) = chatMarks value := by
  rw [fragments, List.filter_eq_self]
  intro mark hmark
  obtain ⟨call, -, rfl⟩ := List.mem_map.mp hmark
  rfl

/-! ### Messages -/

theorem agree_setSeen (h : Agree acc w) {blank : Nat → Bool} {seen : BTreeMap Nat Bool}
    (hseen : ∀ i, blank i = true ↔ seen.get i = some false) :
    Agree { acc with messages := { toolArgumentsSeen := seen } } { w with blank := blank } :=
  ⟨hseen, h.known⟩

theorem blank_insert (h : Agree acc w) (index : Nat) (seen : Bool) (i : Nat) :
    Function.update w.blank index (!seen) i = true ↔
      (BTreeMap.insert acc.messages.toolArgumentsSeen index seen).get i = some false := by
  rw [BTreeMap.get_insert]
  by_cases hi : i = index
  · subst hi
    rw [Function.update_self, if_pos rfl]
    cases seen <;> simp
  · rw [Function.update_of_ne hi, if_neg hi]
    exact h.blank i

theorem argumentsSeen_toolCall (index : Nat) (id name : Option String) (fragment : String) :
    SseAccumulator.argumentsSeen [.toolCall index id name fragment] = !decide (fragment = "") := by
  rw [SseAccumulator.argumentsSeen, List.any_cons, List.any_nil, Bool.or_false]
  rfl

theorem messages_start (h : Agree acc w) (htype : value.str "type" = some "content_block_start") :
    Agree (acc.deltaFromMessagesEvent value).1
        { w with blank := (messagesMarks w.blank value).1 } ∧
      (acc.deltaFromMessagesEvent value).2.filterMap ofDelta =
        fragments (messagesMarks w.blank value).2 := by
  cases hblock : value.get "content_block" with
  | none =>
    simp only [SseAccumulator.deltaFromMessagesEvent, Messages.deltaFromMessagesEvent, messagesMarks,
      htype, hblock]
    exact ⟨h, rfl⟩
  | some block =>
    by_cases htool : block.str "type" = some "tool_use"
    · simp only [SseAccumulator.deltaFromMessagesEvent, Messages.deltaFromMessagesEvent,
        messagesMarks, htype, hblock, Option.bind_some, if_pos htool, argumentsSeen_toolCall]
      refine ⟨agree_setSeen h fun i => ?_, rfl⟩
      have hinsert := blank_insert h (indexOf value "index")
        (!decide (Messages.inputText block = "")) i
      rwa [Bool.not_not] at hinsert
    · simp only [SseAccumulator.deltaFromMessagesEvent, Messages.deltaFromMessagesEvent,
        messagesMarks, htype, hblock, Option.bind_some, if_neg htool]
      exact ⟨h, rfl⟩

/-- Text and thinking have no fragments. -/
theorem contentDelta_of_ne (value : Value) {delta : Value}
    (h : delta.str "type" ≠ some "input_json_delta") :
    (Messages.contentDelta value delta).filterMap ofDelta = [] ∧
      SseAccumulator.argumentsSeen (Messages.contentDelta value delta) = false := by
  rw [Messages.contentDelta]
  split
  · cases delta.str "text" <;> exact ⟨rfl, rfl⟩
  · cases delta.str "thinking" <;> exact ⟨rfl, rfl⟩
  · rename_i htype
    exact absurd htype h
  · exact ⟨rfl, rfl⟩

theorem messages_delta (h : Agree acc w) (htype : value.str "type" = some "content_block_delta") :
    Agree (acc.deltaFromMessagesEvent value).1
        { w with blank := (messagesMarks w.blank value).1 } ∧
      (acc.deltaFromMessagesEvent value).2.filterMap ofDelta =
        fragments (messagesMarks w.blank value).2 := by
  cases hdelta : value.get "delta" with
  | none =>
    simp only [SseAccumulator.deltaFromMessagesEvent, Messages.deltaFromMessagesEvent, messagesMarks,
      htype, hdelta]
    exact ⟨h, rfl⟩
  | some delta =>
    by_cases hjson : delta.str "type" = some "input_json_delta"
    · simp only [SseAccumulator.deltaFromMessagesEvent, Messages.deltaFromMessagesEvent,
        messagesMarks, htype, hdelta, Option.map_some, Option.getD_some, Messages.contentDelta,
        hjson, if_true, argumentsSeen_toolCall]
      by_cases hempty : (delta.str "partial_json").getD "" = ""
      · simp only [hempty, if_true, decide_true, Bool.not_true, Bool.false_eq_true, if_false]
        exact ⟨h, rfl⟩
      · simp only [hempty, if_false, decide_false, Bool.not_false, if_true]
        exact ⟨agree_setSeen h fun i => blank_insert h (indexOf value "index") true i, rfl⟩
    · obtain ⟨hnone, hseen⟩ := contentDelta_of_ne value hjson
      simp only [SseAccumulator.deltaFromMessagesEvent, Messages.deltaFromMessagesEvent,
        messagesMarks, htype, hdelta, Option.map_some, Option.getD_some, hseen, if_neg hjson,
        Bool.false_eq_true, if_false]
      exact ⟨h, hnone⟩

theorem messages_stop (h : Agree acc w) (htype : value.str "type" = some "content_block_stop") :
    Agree (acc.deltaFromMessagesEvent value).1
        { w with blank := (messagesMarks w.blank value).1 } ∧
      (acc.deltaFromMessagesEvent value).2.filterMap ofDelta =
        fragments (messagesMarks w.blank value).2 := by
  simp only [SseAccumulator.deltaFromMessagesEvent, Messages.deltaFromMessagesEvent, messagesMarks,
    htype]
  refine ⟨agree_setSeen h fun i => ?_, ?_⟩
  · rw [BTreeMap.get_erase]
    by_cases hi : i = indexOf value "index"
    · subst hi
      rw [Function.update_self, ← indexOf, if_pos rfl]
      exact iff_of_false (by simp) (by simp)
    · rw [Function.update_of_ne hi, ← indexOf, if_neg hi]
      exact h.blank i
  · have hblank := h.blank (indexOf value "index")
    rw [← indexOf]
    by_cases hopen : w.blank (indexOf value "index") = true
    · rw [if_pos hopen, if_pos (hblank.mp hopen)]
      rfl
    · rw [if_neg hopen, if_neg fun hget => hopen (hblank.mpr hget)]
      rfl

theorem messages_other (h : Agree acc w) (hstart : value.str "type" ≠ some "content_block_start")
    (hdelta : value.str "type" ≠ some "content_block_delta")
    (hstop : value.str "type" ≠ some "content_block_stop") :
    Agree (acc.deltaFromMessagesEvent value).1
        { w with blank := (messagesMarks w.blank value).1 } ∧
      (acc.deltaFromMessagesEvent value).2.filterMap ofDelta =
        fragments (messagesMarks w.blank value).2 := by
  have hacc : acc.deltaFromMessagesEvent value = (acc, Messages.deltaFromMessagesEvent value) := by
    rw [SseAccumulator.deltaFromMessagesEvent]
    split
    · rename_i htype
      exact absurd htype hstart
    · rename_i htype
      exact absurd htype hdelta
    · rename_i htype
      exact absurd htype hstop
    · rfl
  have hmarks : messagesMarks w.blank value = (w.blank, []) := by
    rw [messagesMarks]
    split
    · rename_i htype _
      exact absurd htype hstart
    · rename_i htype _
      exact absurd htype hdelta
    · rename_i htype
      exact absurd htype hstop
    · rfl
  have hdeltas : (Messages.deltaFromMessagesEvent value).filterMap ofDelta = [] := by
    rw [Messages.deltaFromMessagesEvent]
    split
    · rename_i htype
      exact absurd htype hstart
    · rename_i htype
      exact absurd htype hdelta
    · rw [List.filterMap_append]
      cases (value.get "delta").bind fun d => d.str "stop_reason" <;>
        cases value.get "usage" <;> rfl
    · cases (value.get "message").bind fun m => m.get "usage" <;> rfl
    · rfl
  rw [hacc, hmarks]
  exact ⟨h, hdeltas⟩

/-- An event of a Messages stream. -/
theorem messages_step (h : Agree acc w) (value : Value) :
    Agree (acc.deltaFromMessagesEvent value).1
        { w with blank := (messagesMarks w.blank value).1 } ∧
      (acc.deltaFromMessagesEvent value).2.filterMap ofDelta =
        fragments (messagesMarks w.blank value).2 := by
  by_cases hstart : value.str "type" = some "content_block_start"
  · exact messages_start h hstart
  by_cases hdelta : value.str "type" = some "content_block_delta"
  · exact messages_delta h hdelta
  by_cases hstop : value.str "type" = some "content_block_stop"
  · exact messages_stop h hstop
  exact messages_other h hstart hdelta hstop

/-! ### Responses -/

/-- The items after one of them was changed. -/
theorem known_modify {known : Nat → KnownItem}
    (h : ∀ i, identity ((items.get i).getD default) = known i) (index : Nat)
    (f : ResponseOutputItem → ResponseOutputItem) {item : KnownItem}
    (hitem : identity (f ((items.get index).getD default)) = item) (i : Nat) :
    identity (((BTreeMap.modify items index f).get i).getD default) =
      Function.update known index item i := by
  rw [BTreeMap.get_modify]
  by_cases hi : i = index
  · rw [if_pos hi, Option.getD_some, hi, Function.update_self]
    exact hitem
  · rw [if_neg hi, Function.update_of_ne hi]
    exact h i

variable (item : ResponseOutputItem)

theorem identity_observePart (value : Value) :
    identity (SseAccumulator.ResponseOutputItem.observePart item value) = identity item := by
  rw [SseAccumulator.ResponseOutputItem.observePart]
  split
  · rfl
  · split <;> rfl
  · rfl
  · rfl
  · rfl

theorem identity_observeDelta (value : Value) (delta : IrDelta) :
    identity (SseAccumulator.ResponseOutputItem.observeDelta value item delta) = identity item := by
  cases delta with
  | reasoning text =>
    rw [SseAccumulator.ResponseOutputItem.observeDelta]
    split
    · split <;> rfl
    · split <;> rfl
    · rfl
  | _ => rfl

theorem identity_foldl_observeDelta (value : Value) (deltas : List IrDelta) :
    identity (deltas.foldl (SseAccumulator.ResponseOutputItem.observeDelta value) item) =
      identity item := by
  induction deltas generalizing item with
  | nil => rfl
  | cons delta deltas ih => rw [List.foldl_cons, ih, identity_observeDelta]

/-- The item events change what is known of the items. -/
theorem agree_outputItem (h : Agree acc w) (value : Value) :
    Agree (acc.observeResponsesOutputItem value) { w with known := observeItem w.known value } := by
  rw [SseAccumulator.observeResponsesOutputItem, observeItem, isItemEvent]
  by_cases hevent : value.str "type" = some "response.output_item.added" ∨
      value.str "type" = some "response.output_item.done"
  · rw [if_pos hevent, if_pos (by simpa using hevent)]
    cases hindex : value.u64 "output_index" with
    | none => exact h
    | some index =>
      cases hitem : value.get "item" with
      | none => exact h
      | some item =>
        dsimp only
        refine ⟨h.blank, fun i => ?_⟩
        dsimp only
        refine known_modify h.known index _ ?_ i
        rw [← h.known index]
        rfl
  · rw [if_neg hevent, if_neg (by simpa using hevent)]
    exact h

/-- The events about parts of items do not. -/
theorem agree_part (h : Agree acc w) (value : Value) :
    Agree (acc.observeResponsesPart value) w := by
  rw [SseAccumulator.observeResponsesPart]
  cases value.u64 "output_index" with
  | none => exact h
  | some index =>
    dsimp only
    cases hget : acc.responses.outputItems.get index with
    | none => exact h
    | some entry =>
      refine ⟨h.blank, fun i => ?_⟩
      dsimp only
      rw [BTreeMap.get_insert]
      by_cases hi : i = index
      · rw [if_pos hi, Option.getD_some, identity_observePart, hi, ← h.known index, hget]
        rfl
      · rw [if_neg hi]
        exact h.known i

theorem agree_deltas (h : Agree acc w) (value : Value) (deltas : List IrDelta) :
    Agree (acc.observeResponsesDeltas value deltas) w := by
  rw [SseAccumulator.observeResponsesDeltas]
  cases value.u64 "output_index" with
  | none => exact h
  | some index =>
    refine ⟨h.blank, fun i => ?_⟩
    dsimp only
    rw [known_modify h.known index _ ((identity_foldl_observeDelta _ _ _).trans (h.known index)),
      Function.update_eq_self]

theorem agree_response (h : Agree acc w) (value : Value) :
    Agree (acc.observeResponsesResponse value) w := by
  rw [SseAccumulator.observeResponsesResponse]
  split
  · exact h
  · dsimp only
    split <;> exact h.of_eq rfl rfl

/-- What is known of an item goes into its fragments. -/
theorem ofDelta_fillToolCall {known : Nat → KnownItem}
    (h : ∀ i, identity ((items.get i).getD default) = known i) (index : Nat)
    (id : Option String) (fragment : String) :
    ofDelta (SseAccumulator.fillToolCall items (.toolCall index id none fragment)) =
      some ⟨index, (known index).callId <|> id <|> (known index).id, (known index).name,
        some fragment⟩ := by
  rw [← h index, SseAccumulator.fillToolCall]
  cases items.get index with
  | none =>
    cases id <;> rfl
  | some item =>
    obtain ⟨itemType, itemId, callId, name, status, text, summary, content, arguments⟩ := item
    cases callId <;> rfl

theorem ofDelta_of_not_toolCall {delta : IrDelta} (h : ofDelta delta = none) :
    ofDelta (SseAccumulator.fillToolCall items delta) = none := by
  cases delta with
  | toolCall => cases h
  | _ => rfl

theorem ofDelta_fillFinish (reason : String) (delta : IrDelta) :
    ofDelta (SseAccumulator.fillFinish reason delta) = ofDelta delta := by
  cases delta <;> rfl

theorem fragments_announcement (value : Value) : fragments (announcement value) = [] := by
  rw [announcement]
  split_ifs
  · split
    · split_ifs <;> rfl
    · rfl
  · rfl

/-- Only the events about arguments are decoded into tool calls. -/
theorem deltas_of_not_arguments
    (h : ¬ (value.str "type" = some "response.function_call_arguments.delta" ∨
      value.str "type" = some "response.custom_tool_call_input.delta")) {delta : IrDelta}
    (hmem : delta ∈ Responses.deltaFromResponsesEvent value) : ofDelta delta = none := by
  rw [Responses.deltaFromResponsesEvent] at hmem
  split at hmem
  · obtain ⟨text, -, rfl⟩ := Option.map_eq_some_iff.mp (Option.mem_toList.mp hmem)
    rfl
  · obtain ⟨text, -, rfl⟩ := Option.map_eq_some_iff.mp (Option.mem_toList.mp hmem)
    rfl
  · obtain ⟨text, -, rfl⟩ := Option.map_eq_some_iff.mp (Option.mem_toList.mp hmem)
    rfl
  · rename_i htype
    exact absurd (Or.inl htype) h
  · rename_i htype
    exact absurd (Or.inr htype) h
  · rcases List.mem_append.mp hmem with husage | hfinish
    · obtain ⟨usage, -, rfl⟩ := Option.map_eq_some_iff.mp (Option.mem_toList.mp husage)
      rfl
    · rw [List.mem_singleton.mp hfinish]
      rfl
  · cases hmem

/-- The deltas of an event about arguments. -/
theorem deltas_arguments
    (h : value.str "type" = some "response.function_call_arguments.delta" ∨
      value.str "type" = some "response.custom_tool_call_input.delta") :
    Responses.deltaFromResponsesEvent value =
      [.toolCall (indexOf value "output_index")
        ((value.get "call_id" <|> value.get "item_id").bind asStr) none
        ((value.str "delta").getD "")] := by
  rcases h with h | h
  · simp only [Responses.deltaFromResponsesEvent, h, indexOf]
  · simp only [Responses.deltaFromResponsesEvent, h, indexOf]

/-- An event of a Responses stream. -/
theorem responses_step (h : Agree acc w) (value : Value) :
    Agree (acc.deltaFromResponsesEvent value).1 { w with known := observeItem w.known value } ∧
      (acc.deltaFromResponsesEvent value).2.filterMap ofDelta =
        fragments (announcement value ++ responsesFragment (observeItem w.known value) value) := by
  have hagree := agree_deltas (agree_part (agree_outputItem (agree_response h value) value) value)
    value (Responses.deltaFromResponsesEvent value)
  refine ⟨hagree, ?_⟩
  rw [fragments, List.filter_append, ← fragments, fragments_announcement, List.nil_append,
    responsesFragment, SseAccumulator.deltaFromResponsesEvent]
  dsimp only
  by_cases harguments : value.str "type" = some "response.function_call_arguments.delta" ∨
      value.str "type" = some "response.custom_tool_call_input.delta"
  · have hnot : value.str "type" ≠ some "response.completed" := by
      rcases harguments with htype | htype <;> rw [htype] <;> decide
    rw [deltas_arguments harguments] at hagree
    rw [if_pos harguments, if_neg hnot, deltas_arguments harguments, List.map_singleton,
      List.filterMap_cons, ofDelta_fillToolCall hagree.known]
    rfl
  · rw [if_neg harguments, List.filterMap_map]
    refine List.filterMap_eq_nil_iff.mpr fun delta hdelta => ?_
    refine ofDelta_of_not_toolCall ?_
    split_ifs at hdelta with hcompleted
    · obtain ⟨plain, hplain, rfl⟩ := List.mem_map.mp hdelta
      rw [ofDelta_fillFinish]
      exact deltas_of_not_arguments harguments hplain
    · exact deltas_of_not_arguments harguments hdelta

/-! ### Streams -/

/-- **An event is decoded into its marks with a fragment.** -/
theorem pushValue_step (h : Agree acc w) (value : Value) :
    Agree (acc.pushValue value).1 (step acc.endpoint w value).1 ∧
      (acc.pushValue value).2.filterMap ofDelta = fragments (step acc.endpoint w value).2 := by
  cases hendpoint : acc.endpoint with
  | chatCompletions =>
    rw [SseAccumulator.pushValue, SseAccumulator.decode, hendpoint]
    refine ⟨h.of_eq rfl rfl, ?_⟩
    exact (filterMap_deltaFromChatChunk value).trans (fragments_chatMarks value).symm
  | responses =>
    rw [SseAccumulator.pushValue, SseAccumulator.decode, hendpoint]
    obtain ⟨hagree, hdeltas⟩ := responses_step h value
    exact ⟨hagree.of_eq rfl rfl, hdeltas⟩
  | messages =>
    rw [SseAccumulator.pushValue, SseAccumulator.decode, hendpoint]
    have hobserved : Agree (acc.observeMessagesEvent value) w := by
      rw [SseAccumulator.observeMessagesEvent]
      split_ifs
      · split
        · exact h.of_eq rfl rfl
        · exact h
      · exact h
    obtain ⟨hagree, hdeltas⟩ := messages_step hobserved value
    exact ⟨hagree.of_eq rfl rfl, hdeltas⟩

/-- **The decoded fragments of a stream are those of its marks.** -/
theorem fragments_decoded (endpoint : Endpoint) (values : List Value) :
    (Machine.run SseAccumulator.pushValue (.new endpoint) values).2.flatten.filterMap ofDelta =
      fragments (marks endpoint values) := by
  suffices h : ∀ (acc : SseAccumulator) (w : WireState), Agree acc w →
      (Machine.run SseAccumulator.pushValue acc values).2.flatten.filterMap ofDelta =
        fragments (Machine.run (step acc.endpoint) w values).2.flatten from
    h (.new endpoint) {} (agree_new endpoint)
  induction values with
  | nil => exact fun _ _ _ => rfl
  | cons value values ih =>
    intro acc w h
    obtain ⟨hagree, hdeltas⟩ := pushValue_step h value
    have hrest := ih _ _ hagree
    rw [SseAccumulator.endpoint_pushValue] at hrest
    rw [Machine.run_cons, Machine.run_cons, List.flatten_cons, List.flatten_cons,
      List.filterMap_append, hdeltas, hrest, fragments, fragments, fragments, List.filter_append]

end Tokn.Convert.WireCalls
