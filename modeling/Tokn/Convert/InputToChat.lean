import Tokn.Convert.RequestValues
import Tokn.Lib.Grouping

/-!
# A Responses input as Chat Completions messages

The items of an input are gathered: neighbouring items of the assistant (reasoning, messages, calls)
become one message, and any other item ends it. System and developer items end it too, and their
text goes in front.

**Refinement (`inputToMessages_eq`).** The loop over the items is the gathering of
`Tokn.Lib.Grouping`.

**Theorem (`input_rendered`).** After the system message there is exactly one message for each
maximal run of assistant items that says anything, one for each output, with its call id, and one
for each other item, in order and with their text, calls and outputs.
-/

namespace Tokn.Convert.InputToChat

open Value JsonText Responses
open BTreeMap (get_cons get_insert)

variable {floats : FloatReader}

/-! ## Items -/

inductive ItemKind where
  | reasoning
  | call
  | output
  | instruction
  | assistant
  /-- A message of anyone else. -/
  | turn
  deriving DecidableEq

def kindOf (item : Value) : ItemKind :=
  match item.str "type" with
  | some "reasoning" => .reasoning
  | some "function_call" => .call
  | some "function_call_output" => .output
  | _ =>
    if Chat.roleOf item = "system" ∨ Chat.roleOf item = "developer" then .instruction
    else if Chat.roleOf item = "assistant" then .assistant
    else .turn

/-- Whether an item is on the side of the assistant. -/
def isAssistantSide (item : Value) : Bool :=
  kindOf item = .reasoning || kindOf item = .call || kindOf item = .assistant

/-- The maximal runs of assistant items, and each other item by itself. -/
def blocks (items : List Value) : List (List Value) :=
  items.splitBy fun a b => isAssistantSide a && isAssistantSide b

/-- Whether a block becomes a message. Reasoning without text says nothing, and instructions go in
front. -/
def speaks (block : List Value) : Bool :=
  block.any fun item => match kindOf item with
    | .reasoning => (reasoningTextFromInputItem item).isSome
    | .instruction => false
    | _ => true

def textOfPart (part : Value) : String :=
  match part.str "type" with
  | some "input_text" | some "output_text" | some "text" => strOrEmpty part "text"
  | _ => ""

def textOfContent : Option Value → String
  | some (.string s) => s
  | some (.array parts) => String.join (parts.map textOfPart)
  | some v => textOfPart v
  | none => ""

/-- The text of the message that an item is. -/
def textOfItem (item : Value) : String :=
  match kindOf item with
  | .assistant | .turn => textOfContent (item.get "content")
  | _ => ""

def reasoningOfItem (item : Value) : String :=
  if kindOf item = .reasoning then (reasoningTextFromInputItem item).getD "" else ""

/-- The texts of the system and developer items that have any. -/
def instructionTexts (items : List Value) : List String :=
  ((items.filter fun item => kindOf item = .instruction).map fun item =>
    textFromParts (contentFromInput (item.get "content"))).filter fun text => text ≠ ""

/-! ## Messages -/

/-- The text that the arguments of a call become: JSON of the same value, or the same string where
it is not JSON. Of a JSON string and of a double that does not read back it says nothing. -/
def ArgumentsRendered (floats : FloatReader) (args : Value) (text : String) : Prop :=
  match args with
  | .string s =>
    (fromStr floats s = none → text = s) ∧
    ∀ v, fromStr floats s = some v → (∀ t, v ≠ .string t) → Stable floats v →
      fromStr floats text = some v
  | args => text = toText args

/-- A call of a message, of the call item that comes at the index among those of its run. -/
structure CallRendered (floats : FloatReader) (item : Value × Nat) (call : Value) : Prop where
  id : call.str "id" = some ((item.1.str "call_id").getD s!"call_{item.2}")
  name : ((call.get "function").bind fun f => f.str "name") = some (strOrEmpty item.1 "name")
  arguments : ∃ text, ((call.get "function").bind fun f => f.str "arguments") = some text ∧
    ArgumentsRendered floats (wireArguments item.1) text

/-- The message of a run. -/
structure RunRendered (floats : FloatReader) (run : List Value) (msg : Value) : Prop where
  role : msg.str "role" = some "assistant"
  text : textOfContent (msg.get "content") = String.join (run.map textOfItem)
  reasoning : (msg.str "reasoning_content").getD "" = String.join (run.map reasoningOfItem)
  calls : List.Forall₂ (CallRendered floats)
    (run.filter fun item => kindOf item = .call).zipIdx (elements msg "tool_calls")

/-- The message of an output. -/
structure OutputRendered (item msg : Value) : Prop where
  role : msg.str "role" = some "tool"
  callId : msg.str "tool_call_id" = some ((item.str "call_id").getD "")
  content : msg.str "content" = some (Chat.toolResultText ((item.get "output").getD .null))

/-- The message of an item of anyone else. -/
structure TurnRendered (item msg : Value) : Prop where
  role : msg.str "role" = some (Chat.roleOf item)
  text : textOfContent (msg.get "content") = textOfItem item
  calls : elements msg "tool_calls" = []

/-- The message of a block. -/
def Rendered (floats : FloatReader) (block : List Value) (msg : Value) : Prop :=
  if block.all isAssistantSide then RunRendered floats block msg
  else ∃ item, block = [item] ∧
    if kindOf item = .output then OutputRendered item msg else TurnRendered item msg

/-! ## Gathering -/

/-- What an assistant item adds to its message. -/
def partsOfItem (floats : FloatReader) (item : Value) : Option (List ContentPart) :=
  match kindOf item with
  | .reasoning => (reasoningTextFromInputItem item).map fun text => [.reasoning text]
  | .call => some [.toolCall (callFromInput floats item)]
  | _ => some (contentFromInput (item.get "content"))

/-- The message of an item that is not one of the assistant. -/
def messagesOfItem (item : Value) : List IrMessage :=
  match kindOf item with
  | .output => [outputMessage item]
  | .instruction => []
  | _ => [inputItemToMessage item]

def rule (floats : FloatReader) : Grouping.Rule Value ContentPart IrMessage where
  joins := isAssistantSide
  parts := partsOfItem floats
  bundle := assistantMessage
  single := messagesOfItem

/-- The state of the loop that has gathered something. -/
def inputState (systemParts : List String) (s : Grouping.State ContentPart IrMessage) :
    InputState where
  systemParts := systemParts
  messages := s.out
  pendingAssistant := s.pending.map assistantMessage

/-- The system text that an item adds. -/
def instructionOfItem (item : Value) : List String :=
  if kindOf item = .instruction then
    [textFromParts (contentFromInput (item.get "content"))].filter fun text => text ≠ ""
  else []

theorem pushAssistantParts_eq (systemParts : List String)
    (s : Grouping.State ContentPart IrMessage) (parts : List ContentPart) :
    (inputState systemParts s).pushAssistantParts parts =
      inputState systemParts { s with pending := Grouping.append s.pending (some parts) } := by
  cases hpending : s.pending <;>
    simp [InputState.pushAssistantParts, inputState, hpending, Grouping.append, assistantMessage]

theorem flushPendingAssistant_eq (systemParts : List String)
    (s : Grouping.State ContentPart IrMessage) :
    (inputState systemParts s).flushPendingAssistant =
      inputState systemParts ((rule floats).flush s) := rfl

theorem rule_step_of_joins {item : Value} (h : isAssistantSide item = true)
    (s : Grouping.State ContentPart IrMessage) :
    (rule floats).step s item =
      { s with pending := Grouping.append s.pending (partsOfItem floats item) } := if_pos h

/-- One round of the loop is one step of the gathering. -/
theorem addItem_eq (systemParts : List String) (s : Grouping.State ContentPart IrMessage)
    (item : Value) :
    (inputState systemParts s).addItem floats item =
      inputState (systemParts ++ instructionOfItem item) ((rule floats).step s item) := by
  rw [InputState.addItem]
  split
  next htype =>
    have hkind : kindOf item = .reasoning := by simp [kindOf, htype]
    rw [rule_step_of_joins (by simp [isAssistantSide, hkind]), partsOfItem, hkind,
      instructionOfItem, hkind, if_neg (by decide), List.append_nil]
    cases reasoningTextFromInputItem item with
    | none => rfl
    | some text => exact pushAssistantParts_eq systemParts s [.reasoning text]
  next htype =>
    have hkind : kindOf item = .call := by simp [kindOf, htype]
    rw [rule_step_of_joins (by simp [isAssistantSide, hkind]), partsOfItem, hkind,
      instructionOfItem, hkind, if_neg (by decide), List.append_nil]
    exact pushAssistantParts_eq systemParts s _
  next htype =>
    have hkind : kindOf item = .output := by simp [kindOf, htype]
    have hjoins : (rule floats).joins item = false := by simp [rule, isAssistantSide, hkind]
    have hsingle : (rule floats).single item = [outputMessage item] := by
      simp [rule, messagesOfItem, hkind]
    rw [(rule floats).step_of_not_joins hjoins, hsingle, instructionOfItem, hkind,
      if_neg (by decide), List.append_nil, @flushPendingAssistant_eq floats]
    rfl
  next hreasoning hcall houtput =>
    have hkind : kindOf item =
        if Chat.roleOf item = "system" ∨ Chat.roleOf item = "developer" then .instruction
        else if Chat.roleOf item = "assistant" then .assistant else .turn := by
      unfold kindOf
      split
      · exact absurd ‹_› hreasoning
      · exact absurd ‹_› hcall
      · exact absurd ‹_› houtput
      · rfl
    dsimp only
    split_ifs at hkind ⊢ with hinstruction htext hassistant
    · have hjoins : (rule floats).joins item = false := by simp [rule, isAssistantSide, hkind]
      have hsingle : (rule floats).single item = [] := by simp [rule, messagesOfItem, hkind]
      have hnone : instructionOfItem item = [] := by
        have hempty : textFromParts (contentFromInput (item.get "content")) = "" := htext
        simp [instructionOfItem, hkind, hempty]
      rw [(rule floats).step_of_not_joins hjoins, hsingle, hnone, List.append_nil,
        List.append_nil, @flushPendingAssistant_eq floats]
      rfl
    · have hjoins : (rule floats).joins item = false := by simp [rule, isAssistantSide, hkind]
      have hsingle : (rule floats).single item = [] := by simp [rule, messagesOfItem, hkind]
      have hsome : instructionOfItem item =
          [textFromParts (inputItemToMessage item).content] := by
        have hne : textFromParts (contentFromInput (item.get "content")) ≠ "" := htext
        simp [instructionOfItem, hkind, hne, inputItemToMessage]
      rw [(rule floats).step_of_not_joins hjoins, hsingle, hsome, List.append_nil,
        @flushPendingAssistant_eq floats]
      rfl
    · rw [rule_step_of_joins (by simp [isAssistantSide, hkind]), partsOfItem, hkind,
        instructionOfItem, hkind, if_neg (by decide), List.append_nil]
      exact pushAssistantParts_eq systemParts s _
    · have hjoins : (rule floats).joins item = false := by simp [rule, isAssistantSide, hkind]
      have hsingle : (rule floats).single item = [inputItemToMessage item] := by
        simp [rule, messagesOfItem, hkind]
      rw [(rule floats).step_of_not_joins hjoins, hsingle, instructionOfItem, hkind,
        if_neg (by decide), List.append_nil, @flushPendingAssistant_eq floats]
      rfl

theorem foldl_addItem (items : List Value) (systemParts : List String)
    (s : Grouping.State ContentPart IrMessage) :
    items.foldl (InputState.addItem floats) (inputState systemParts s) =
      inputState (systemParts ++ instructionTexts items) (items.foldl (rule floats).step s) := by
  induction items generalizing systemParts s with
  | nil => simp [instructionTexts]
  | cons item items ih =>
    have htexts : instructionTexts (item :: items) =
        instructionOfItem item ++ instructionTexts items := by
      rw [instructionTexts, instructionTexts, instructionOfItem]
      by_cases hkind : kindOf item = .instruction <;>
        by_cases htext : textFromParts (contentFromInput (item.get "content")) = "" <;>
          simp [hkind, htext]
    rw [List.foldl_cons, addItem_eq, ih, htexts, List.append_assoc]
    rfl

/-- The loop over the items is the gathering of their blocks. -/
theorem inputToMessages_eq (items : List Value) :
    inputToMessages floats (.array items) =
      .ok (instructionTexts items, (blocks items).flatMap (rule floats).emitted) := by
  have hfold := @foldl_addItem floats items [] {}
  have hrun := (rule floats).run_eq items
  rw [List.nil_append] at hfold
  have hinit : inputState [] {} = ({} : InputState) := rfl
  rw [inputToMessages, ← hinit, hfold, @flushPendingAssistant_eq floats]
  exact congrArg (fun messages => Except.ok (instructionTexts items, messages)) hrun

/-! ## The message of some parts -/

section

variable (msg : IrMessage) (parts : List ContentPart)

theorem role_chatMessage : (Chat.chatMessage msg [] parts).str "role" = some msg.role.asStr := by
  refine str_of_get ?_
  rw [Chat.chatMessage, Value.get]
  split_ifs <;> simp_all [get_insertOpt, get_insert]

theorem content_chatMessage :
    (Chat.chatMessage msg [] parts).get "content" = some (Chat.contentToChat parts) := by
  rw [Chat.chatMessage, Value.get]
  split_ifs <;> simp_all [get_insertOpt, get_insert]

theorem toolCalls_chatMessage :
    elements (Chat.chatMessage msg [] parts) "tool_calls" =
      (Chat.callsOf parts).mapIdx Chat.toolCallToChat := by
  rw [Chat.chatMessage, elements, Value.get]
  split_ifs <;> simp_all [get_insertOpt, get_insert, asArray]

theorem reasoning_chatMessage :
    (Chat.chatMessage msg [] parts).str "reasoning_content" = reasoningFromParts parts := by
  rw [Chat.chatMessage, str, Value.get]
  cases reasoningFromParts parts <;> split_ifs <;>
    simp_all [get_insertOpt, get_insert, asStr]

end

/-- Without tool results there is one message. -/
theorem messageToChat_of_not_toolResult {msg : IrMessage}
    (h : ∀ part ∈ msg.content, Chat.isToolResult part = false) :
    Chat.messageToChat msg = [Chat.chatMessage msg [] msg.content] := by
  have hresults : msg.content.filterMap (Chat.toolMessage msg) = [] := by
    rw [List.filterMap_eq_nil_iff]
    intro part hpart
    have hfalse := h part hpart
    cases part <;> first | rfl | cases hfalse
  have hremaining : (msg.content.filter fun part => !Chat.isToolResult part) = msg.content := by
    rw [List.filter_eq_self]
    intro part hpart
    rw [h part hpart]
    rfl
  rw [Chat.messageToChat, hresults, hremaining]
  simp

/-- A content is made of texts and raw values. -/
theorem of_mem_contentFromInput {content : Option Value} {part : ContentPart}
    (h : part ∈ contentFromInput content) :
    (∃ text, part = .text text) ∨ ∃ value, part = .raw value := by
  unfold contentFromInput at h
  split at h
  · exact .inl ⟨_, List.mem_singleton.mp h⟩
  · obtain ⟨v, -, rfl⟩ := List.mem_map.mp h
    unfold partFromInput
    split <;> simp
  · exact .inr ⟨_, List.mem_singleton.mp h⟩
  · cases h

theorem isToolResult_contentFromInput {content : Option Value} {part : ContentPart}
    (h : part ∈ contentFromInput content) : Chat.isToolResult part = false := by
  obtain ⟨text, rfl⟩ | ⟨value, rfl⟩ := of_mem_contentFromInput h <;> rfl

variable (content : Option Value)

theorem callsOf_contentFromInput : Chat.callsOf (contentFromInput content) = [] := by
  rw [Chat.callsOf, List.filterMap_eq_nil_iff]
  intro part hpart
  obtain ⟨text, rfl⟩ | ⟨value, rfl⟩ := of_mem_contentFromInput hpart <;> rfl

/-! ## Texts -/

theorem join_flatMap {α : Type*} (l : List α) (f : α → List String) :
    String.join (l.flatMap f) = String.join (l.map fun a => String.join (f a)) := by
  induction l with
  | nil => rfl
  | cons a l ih => rw [List.flatMap_cons, String.join_append, ih, List.map_cons, String.join_cons]

/-- The text of a content part, as it is rendered. -/
def partText : ContentPart → String
  | .text text => text
  | .raw value => textOfPart value
  | _ => ""

def partReasoning : ContentPart → String
  | .reasoning text => text
  | _ => ""

theorem join_filterMap {α : Type*} (l : List α) (f : α → Option String) :
    String.join (l.filterMap f) = String.join (l.map fun a => (f a).getD "") := by
  induction l with
  | nil => rfl
  | cons a l ih => cases h : f a <;> simp [h, ih]

theorem textFromParts_eq {parts : List ContentPart} (h : parts.any Chat.isRaw = false) :
    textFromParts parts = String.join (parts.map partText) := by
  rw [textFromParts, join_filterMap]
  congr 1
  refine List.map_congr_left fun part hpart => ?_
  have hnot := List.any_eq_false.mp h part hpart
  cases part with
  | raw value => exact absurd rfl hnot
  | _ => rfl

theorem join_chatPart (parts : List ContentPart) :
    String.join ((parts.filterMap Chat.chatPart).map textOfPart) =
      String.join (parts.map partText) := by
  have hpart : ∀ part, ((Chat.chatPart part).map textOfPart).getD "" = partText part := by
    intro part
    cases part <;>
      simp [Chat.chatPart, partText, textOfPart, str, strOrEmpty, get_obj, get_cons, asStr]
  rw [List.map_filterMap, join_filterMap]
  exact congrArg String.join (List.map_congr_left fun part _ => hpart part)

/-- The content of a message holds the text of its parts. -/
theorem textOfContent_contentToChat (parts : List ContentPart) :
    textOfContent (some (Chat.contentToChat parts)) = String.join (parts.map partText) := by
  rw [Chat.contentToChat]
  split_ifs with hraw
  · exact join_chatPart parts
  · exact textFromParts_eq (by simpa using hraw)

theorem reasoningFromParts_getD (parts : List ContentPart) :
    (reasoningFromParts parts).getD "" = String.join (parts.map partReasoning) := by
  have hjoin : ∀ text : String, (if text = "" then none else some text).getD "" = text := by
    intro text
    split_ifs with hempty
    · exact hempty.symm
    · rfl
  rw [reasoningFromParts, hjoin, join_filterMap]
  congr 1
  refine List.map_congr_left fun part _ => ?_
  cases part <;> rfl

theorem partText_partFromInput (v : Value) : partText (partFromInput v) = textOfPart v := by
  unfold partFromInput
  split <;> rename_i htype
  · simp [partText, textOfPart, htype]
  · simp [partText, textOfPart, htype]
  · simp [partText, textOfPart, htype]
  · rfl

/-- The text of the parts of a content is the text of the content. -/
theorem join_contentFromInput :
    String.join ((contentFromInput content).map partText) = textOfContent content := by
  unfold contentFromInput
  split
  · simp [partText, textOfContent]
  · rw [List.map_map, textOfContent]
    congr 1
    exact List.map_congr_left fun v _ => partText_partFromInput v
  next v hstring harray =>
    cases v with
    | string s => exact absurd rfl (hstring s)
    | array parts => exact absurd rfl (harray parts)
    | _ => simp [partText, textOfContent]
  · rfl

theorem join_partReasoning_contentFromInput :
    String.join ((contentFromInput content).map partReasoning) = "" := by
  have hpart : ∀ part ∈ contentFromInput content, partReasoning part = "" := by
    intro part hpart
    obtain ⟨text, rfl⟩ | ⟨value, rfl⟩ := of_mem_contentFromInput hpart <;> rfl
  rw [List.map_congr_left hpart]
  generalize contentFromInput content = parts
  induction parts with
  | nil => rfl
  | cons part parts ih => rw [List.map_cons, String.join_cons, ih]; rfl

/-! ## The items of a run -/

section

variable {item : Value} (h : isAssistantSide item = true)

include h

theorem join_partText_partsOfItem :
    String.join (((partsOfItem floats item).getD []).map partText) = textOfItem item := by
  rw [partsOfItem, textOfItem]
  rw [isAssistantSide, Bool.or_eq_true, Bool.or_eq_true] at h
  simp only [decide_eq_true_eq] at h
  obtain (h | h) | h := h <;> rw [h]
  · cases reasoningTextFromInputItem item <;> simp [partText]
  · simp [partText]
  · exact join_contentFromInput _

theorem join_partReasoning_partsOfItem :
    String.join (((partsOfItem floats item).getD []).map partReasoning) =
      reasoningOfItem item := by
  rw [partsOfItem, reasoningOfItem]
  rw [isAssistantSide, Bool.or_eq_true, Bool.or_eq_true] at h
  simp only [decide_eq_true_eq] at h
  obtain (h | h) | h := h <;> rw [h]
  · cases reasoningTextFromInputItem item <;> simp [partReasoning]
  · simp [partReasoning]
  · simpa using join_partReasoning_contentFromInput _

end

theorem callsOf_partsOfItem (item : Value) :
    Chat.callsOf ((partsOfItem floats item).getD []) =
      if kindOf item = .call then [callFromInput floats item] else [] := by
  rw [partsOfItem]
  cases hkind : kindOf item with
  | reasoning => cases reasoningTextFromInputItem item <;> rfl
  | call => rfl
  | _ => exact callsOf_contentFromInput _

theorem isToolResult_partsOfItem {item : Value} {part : ContentPart}
    (h : part ∈ (partsOfItem floats item).getD []) : Chat.isToolResult part = false := by
  rw [partsOfItem] at h
  cases hkind : kindOf item with
  | reasoning =>
    rw [hkind] at h
    cases htext : reasoningTextFromInputItem item with
    | none => simp [htext] at h
    | some text =>
      simp only [htext, Option.map_some, Option.getD_some, List.mem_singleton] at h
      rw [h]
      rfl
  | call =>
    rw [hkind] at h
    cases List.mem_singleton.mp h
    rfl
  | _ =>
    rw [hkind] at h
    exact isToolResult_contentFromInput h

/-! ## The message of a run -/

/-- What the items of a run contribute. -/
def partsOfRun (floats : FloatReader) (run : List Value) : List ContentPart :=
  run.flatMap fun item => (partsOfItem floats item).getD []

theorem callsOf_partsOfRun (run : List Value) :
    Chat.callsOf (partsOfRun floats run) =
      (run.filter fun item => kindOf item = .call).map (callFromInput floats) := by
  induction run with
  | nil => rfl
  | cons item run ih =>
    have hcons : Chat.callsOf (partsOfRun floats (item :: run)) =
        Chat.callsOf ((partsOfItem floats item).getD []) ++
          Chat.callsOf (partsOfRun floats run) := List.filterMap_append
    rw [hcons, callsOf_partsOfItem, ih]
    by_cases hkind : kindOf item = .call <;> simp [hkind]

theorem argumentsRendered (args : Value) :
    ArgumentsRendered floats args (Chat.argsToString (Chat.parseArgs floats args)) := by
  cases args with
  | string s =>
    rw [Chat.parseArgs_string]
    cases hread : fromStr floats s with
    | none =>
      refine ⟨fun _ => rfl, fun v hv _ _ => ?_⟩
      cases hread.symm.trans hv
    | some v =>
      refine ⟨fun hnone => ?_, fun w hw hstring hstable => ?_⟩
      · cases hread.symm.trans hnone
      cases hread.symm.trans hw
      exact (Chat.fromStr_argsToString_iff hread).mpr ⟨hstring, hstable⟩
  | _ => rfl

theorem callRendered (item : Value) (index : Nat) :
    CallRendered floats (item, index)
      (Chat.toolCallToChat index (callFromInput floats item)) where
  id := by simp [Chat.toolCallToChat, callFromInput, str, get_obj, get_cons, asStr]
  name := by simp [Chat.toolCallToChat, callFromInput, str, get_obj, get_cons, asStr]
  arguments := ⟨_, by
    simp [Chat.toolCallToChat, callFromInput, str, get_obj, get_cons, asStr],
    argumentsRendered _⟩

/-- The message of a run of assistant items. -/
theorem runRendered {run : List Value} (hrun : run.all isAssistantSide = true) :
    RunRendered floats run
      (Chat.chatMessage (assistantMessage (partsOfRun floats run)) [] (partsOfRun floats run)) where
  role := role_chatMessage _ _
  text := by
    rw [content_chatMessage, textOfContent_contentToChat, partsOfRun, List.map_flatMap, join_flatMap]
    congr 1
    exact List.map_congr_left fun item hitem =>
      join_partText_partsOfItem (List.all_eq_true.mp hrun item hitem)
  reasoning := by
    rw [reasoning_chatMessage, reasoningFromParts_getD, partsOfRun, List.map_flatMap, join_flatMap]
    congr 1
    exact List.map_congr_left fun item hitem =>
      join_partReasoning_partsOfItem (List.all_eq_true.mp hrun item hitem)
  calls := by
    rw [toolCalls_chatMessage, callsOf_partsOfRun, List.mapIdx_eq_zipIdx_map, List.zipIdx_map,
      List.map_map, List.forall₂_map_right_iff, List.forall₂_same]
    intro call _
    exact callRendered call.1 call.2

theorem rule_emitted_run {run : List Value} (hrun : run.all isAssistantSide = true) :
    (rule floats).emitted run =
      if speaks run then [assistantMessage (partsOfRun floats run)] else [] := by
  have hspeaks : (run.filterMap (partsOfItem floats) = []) ↔ speaks run = false := by
    rw [List.filterMap_eq_nil_iff, speaks, List.any_eq_false]
    refine forall₂_congr fun item hitem => ?_
    have hside := List.all_eq_true.mp hrun item hitem
    rw [isAssistantSide, Bool.or_eq_true, Bool.or_eq_true] at hside
    simp only [decide_eq_true_eq] at hside
    rw [partsOfItem]
    obtain (h | h) | h := hside <;> simp [h]
  have hflatten : (run.filterMap (partsOfItem floats)).flatten = partsOfRun floats run := by
    rw [partsOfRun]
    clear hrun hspeaks
    induction run with
    | nil => rfl
    | cons item run ih => cases h : partsOfItem floats item <;> simp [h, ih]
  have hgathered := (rule floats).gathered_eq run
  rw [show (rule floats).parts = partsOfItem floats from rfl, hflatten] at hgathered
  rw [Grouping.Rule.emitted, show (rule floats).joins = isAssistantSide from rfl, if_pos hrun,
    hgathered]
  cases hs : speaks run with
  | false => rw [if_pos (hspeaks.mpr hs)]; rfl
  | true =>
    rw [if_neg fun hnil => by rw [hspeaks.mp hnil] at hs; cases hs]
    rfl

/-! ## The other messages -/

theorem outputRendered (item : Value) :
    ∃ msg, Chat.messageToChat (outputMessage item) = [msg] ∧ OutputRendered item msg := by
  refine ⟨obj [("role", .string "tool"),
    ("tool_call_id", .string ((item.str "call_id" <|> item.str "call_id").getD "")),
    ("content", .string (Chat.toolResultText ((item.get "output").getD .null)))], rfl, ?_⟩
  constructor <;> simp [str, get_obj, get_cons, asStr]

theorem turnRendered {item : Value} (hkind : kindOf item = .turn) :
    ∃ msg, Chat.messageToChat (inputItemToMessage item) = [msg] ∧ TurnRendered item msg := by
  refine ⟨_, messageToChat_of_not_toolResult fun part hpart => isToolResult_contentFromInput hpart,
    ?_, ?_, ?_⟩
  · rw [role_chatMessage, inputItemToMessage, asStr_fromWire]
  · rw [content_chatMessage, textOfContent_contentToChat, textOfItem, hkind]
    exact join_contentFromInput _
  · rw [toolCalls_chatMessage, inputItemToMessage, callsOf_contentFromInput]
    rfl

/-- Each block that speaks has one message, and the others have none. -/
theorem block_rendered {items block : List Value} (h : block ∈ blocks items) :
    if speaks block then ∃ msg,
        ((rule floats).emitted block).flatMap Chat.messageToChat = [msg] ∧ Rendered floats block msg
      else ((rule floats).emitted block).flatMap Chat.messageToChat = [] := by
  obtain hrun | ⟨item, rfl, hitem⟩ := (rule floats).of_mem_groups h
  · have hside : block.all isAssistantSide = true := hrun
    rw [rule_emitted_run hside]
    split_ifs with hspeaks
    · refine ⟨Chat.chatMessage (assistantMessage (partsOfRun floats block)) []
        (partsOfRun floats block), ?_, ?_⟩
      · rw [List.flatMap_singleton]
        refine messageToChat_of_not_toolResult fun part hpart => ?_
        obtain ⟨item, -, hmem⟩ := List.mem_flatMap.mp hpart
        exact isToolResult_partsOfItem hmem
      · rw [Rendered, if_pos hside]
        exact runRendered hside
    · rfl
  · have hside : isAssistantSide item = false := hitem
    have hall : ¬ [item].all isAssistantSide = true := by simp [hside]
    have hemitted : (rule floats).emitted [item] = messagesOfItem item := by
      rw [Grouping.Rule.emitted, show (rule floats).joins = isAssistantSide from rfl, if_neg hall]
      simp [rule]
    simp only [Rendered, if_neg hall]
    rw [hemitted, messagesOfItem]
    cases hkind : kindOf item with
    | reasoning => simp [isAssistantSide, hkind] at hside
    | call => simp [isAssistantSide, hkind] at hside
    | assistant => simp [isAssistantSide, hkind] at hside
    | instruction =>
      rw [if_neg (by simp [speaks, hkind])]
      rfl
    | output =>
      rw [if_pos (by simp [speaks, hkind])]
      obtain ⟨msg, hmsg, hrendered⟩ := outputRendered item
      exact ⟨msg, by rw [List.flatMap_singleton, hmsg], item, rfl, by rwa [if_pos hkind]⟩
    | turn =>
      rw [if_pos (by simp [speaks, hkind])]
      obtain ⟨msg, hmsg, hrendered⟩ := turnRendered hkind
      refine ⟨msg, by rw [List.flatMap_singleton, hmsg], item, rfl, ?_⟩
      rwa [if_neg (by simp [hkind])]

theorem forall₂_filter_flatMap {α β : Type*} {R : α → β → Prop} {p : α → Bool}
    {f : α → List β} {l : List α}
    (h : ∀ a ∈ l, if p a then ∃ b, f a = [b] ∧ R a b else f a = []) :
    List.Forall₂ R (l.filter p) (l.flatMap f) := by
  induction l with
  | nil => exact .nil
  | cons a l ih =>
    have hrest := ih fun a' ha' => h a' (List.mem_cons_of_mem a ha')
    have ha := h a List.mem_cons_self
    rw [List.filter_cons, List.flatMap_cons]
    split_ifs at ha ⊢ with hp
    · obtain ⟨b, hb, hR⟩ := ha
      rw [hb]
      exact .cons hR hrest
    · rw [ha]
      exact hrest

/-! ## The theorem -/

theorem elements_requestToValue {req : IrRequest} {out : Value}
    (h : Chat.requestToValue req = .ok out) :
    elements out "messages" =
      (req.system.map Chat.systemMessage).toList ++ req.messages.flatMap Chat.messageToChat := by
  cases h
  refine elements_of_get (get_fillExtras ?_)
  split_ifs <;> simp_all [insertOptF64, insertOptU64, get_insertOpt, get_insert]

theorem requestFromValue_of_input {body : Value} {items : List Value}
    (hinput : body.get "input" = some (.array items)) :
    ∃ req, Responses.requestFromValue floats body = .ok req ∧
      req.system = joinSystem (instructionsOf body ++ instructionTexts items) ∧
      req.messages = (blocks items).flatMap (rule floats).emitted := by
  cases body with
  | object o =>
    simp only [Responses.requestFromValue, bodyObject, hinput, inputToMessages_eq, Except.bind]
    exact ⟨_, rfl, rfl, rfl⟩
  | _ => cases hinput

/-- **The conversation.** After the system message come the messages of the blocks that speak, one
for each and in order. -/
theorem input_rendered {body : Value} {items : List Value}
    (hinput : body.get "input" = some (.array items)) :
    ∃ out messages, convertRequest floats .responses .chatCompletions body = .ok out ∧
      elements out "messages" =
        ((joinSystem (instructionsOf body ++ instructionTexts items)).map
          Chat.systemMessage).toList ++ messages ∧
      List.Forall₂ (Rendered floats) ((blocks items).filter speaks) messages := by
  obtain ⟨req, hreq, hsystem, hmessages⟩ := @requestFromValue_of_input floats _ _ hinput
  obtain ⟨out, hout⟩ : ∃ out, Chat.requestToValue req = .ok out := ⟨_, rfl⟩
  refine ⟨out, req.messages.flatMap Chat.messageToChat, ?_, ?_, ?_⟩
  · rw [convertRequest, if_neg (by decide), Convert.requestFromValue, hreq]
    exact hout
  · rw [elements_requestToValue hout, hsystem]
  · rw [hmessages, List.flatMap_assoc]
    exact forall₂_filter_flatMap fun block hblock => block_rendered hblock

/-- A question, a call with its reasoning, its output, and the answer. -/
def weatherItems : List Value :=
  [obj [("role", .string "user"), ("content", .string "Weather in Paris?")],
    obj [("type", .string "reasoning"),
      ("summary", .array [obj [("type", .string "summary_text"), ("text", .string "Look it up.")]])],
    obj [("type", .string "function_call"), ("call_id", .string "call_7"),
      ("name", .string "weather"), ("arguments", .string "{}")],
    obj [("type", .string "function_call_output"), ("call_id", .string "call_7"),
      ("output", .string "sunny")],
    obj [("role", .string "assistant"), ("content", .string "It is sunny.")]]

theorem weather_rendered :
    (blocks weatherItems).length = 4 ∧
      ∃ out messages, convertRequest .verbatim .responses .chatCompletions
          (obj [("input", .array weatherItems)]) = .ok out ∧
        elements out "messages" =
          ((joinSystem (instructionsOf (obj [("input", .array weatherItems)]) ++
            instructionTexts weatherItems)).map Chat.systemMessage).toList ++ messages ∧
        List.Forall₂ (Rendered .verbatim) ((blocks weatherItems).filter speaks) messages :=
  ⟨by decide +kernel, input_rendered (by decide +kernel)⟩

/-- Every run of assistant items has its message. -/
def OneMessagePerRun (floats : FloatReader) (body : Value) : Prop :=
  ∀ items out, body.get "input" = some (.array items) →
    convertRequest floats .responses .chatCompletions body = .ok out →
    ((elements out "messages").filter fun msg => msg.str "role" = some "assistant").length =
      ((blocks items).filter fun block => block.all isAssistantSide).length

/-- Reasoning that is encrypted only, with no text to show. -/
def encryptedReasoning : Value :=
  obj [("type", .string "reasoning"), ("summary", .array []),
    ("encrypted_content", .string "gAAAA")]

/-- A run of reasoning without text has no message. -/
theorem encrypted_run_dropped : ¬ ∀ floats body, OneMessagePerRun floats body := by
  intro h
  have hinput : (obj [("input", .array [encryptedReasoning])]).get "input" =
      some (.array [encryptedReasoning]) := by decide +kernel
  have hout : convertRequest .verbatim .responses .chatCompletions
      (obj [("input", .array [encryptedReasoning])]) =
        .ok (obj [("messages", .array []), ("model", .string "unknown")]) := by decide +kernel
  exact absurd (h .verbatim _ _ _ hinput hout) (by decide +kernel)

end Tokn.Convert.InputToChat
