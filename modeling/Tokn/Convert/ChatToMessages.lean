import Tokn.Convert.RequestValues

/-!
# A Chat Completions request as a Messages request

Messages knows two roles. System text has a field of its own there, and a tool result is a part of a
message of the user. `request_from_value` takes out the messages of the role `system` only, so a
`developer` message stays among the others and keeps its role.

**Theorem (`converted_iff`).** A request of the documented roles is converted to one of users and
assistants, with its system texts in front and its tool results addressed to their calls, iff it has
no developer message.
-/

namespace Tokn.Convert.ChatToMessages

open Value JsonText Chat Messages

variable {floats : FloatReader}

/-! ## What a conversion should keep -/

def documentedRoles : List String := ["system", "developer", "user", "assistant", "tool"]

/-- Whether a message holds text for the system field. -/
def isInstruction (msg : Value) : Bool := roleOf msg = "system" || roleOf msg = "developer"

/-- The text of a message. -/
def textOf (msg : Value) : String := textFromParts (contentFromChat (msg.get "content"))

/-- The system and developer texts of a request, in order. -/
def instructionTexts (body : Value) : List String :=
  (((elements body "messages").filter isInstruction).map textOf).filter fun text => text ≠ ""

/-- The tool results in a message. -/
def toolResults (msg : Value) : List Value :=
  (elements msg "content").filter fun part => part.str "type" = some "tool_result"

/-- A tool message becomes a tool result for the call it names. -/
def AddressesCall (msg msg' : Value) : Prop :=
  roleOf msg = "tool" → toolResults msg' =
    [obj [("type", .string "tool_result"), ("tool_use_id", optString (msg.str "tool_call_id")),
      ("content", (msg.get "content").getD .null)]]

/-- What a Messages request should be of a Chat Completions request. -/
structure IsConversion (body out : Value) : Prop where
  roles : ∀ msg ∈ elements out "messages",
    msg.str "role" = some "user" ∨ msg.str "role" = some "assistant"
  system : instructionTexts body ≠ [] →
    out.str "system" = some ("\n\n".intercalate (instructionTexts body))
  results : List.Forall₂ AddressesCall
    ((elements body "messages").filter fun msg => !isInstruction msg) (elements out "messages")

/-- Whatever the request is converted to is what it should be. -/
def Converted (floats : FloatReader) (body : Value) : Prop :=
  ∀ out, convertRequest floats .chatCompletions .messages body = .ok out → IsConversion body out

/-! ## The loop over the messages -/

theorem fromWire_eq_system_iff {role : String} : Role.fromWire role = .system ↔ role = "system" := by
  constructor
  · intro h
    unfold Role.fromWire at h
    split at h <;> first | rfl | cases h
  · rintro rfl
    rfl

theorem role_messageFromValue (msg : Value) (role : String) :
    (messageFromValue msg role).role = Role.fromWire role := rfl

theorem content_messageFromValue {msg : Value} {role : String} (h : role ≠ "tool") :
    (messageFromValue msg role).content = contentFromChat (msg.get "content") := if_neg h

/-- One round. -/
theorem addMessage_eq (acc : List String × List IrMessage) (msg : Value) :
    addMessage floats acc msg =
      (acc.1 ++ if roleOf msg = "system" ∧ textOf msg ≠ "" then [textOf msg] else [],
        acc.2 ++ if roleOf msg = "system" then [] else [conversationMessage floats msg]) := by
  have hrole := @fromWire_eq_system_iff (roleOf msg)
  simp only [addMessage, role_messageFromValue, hrole]
  by_cases hsystem : roleOf msg = "system"
  · have hcontent : (messageFromValue msg (roleOf msg)).content =
        contentFromChat (msg.get "content") := by
      rw [hsystem]
      exact content_messageFromValue (by decide)
    rw [if_pos hsystem, hcontent, if_pos hsystem, ← textOf]
    by_cases htext : textOf msg = "" <;> simp [hsystem, htext]
  · simp [hsystem]

/-- All rounds: system texts go one way and the other messages the other. -/
theorem foldl_addMessage (msgs : List Value) (acc : List String × List IrMessage) :
    msgs.foldl (addMessage floats) acc =
      (acc.1 ++ ((msgs.filter fun msg => roleOf msg = "system").map textOf).filter
          fun text => text ≠ "",
        acc.2 ++ (msgs.filter fun msg => roleOf msg ≠ "system").map
          (conversationMessage floats)) := by
  induction msgs generalizing acc with
  | nil => simp
  | cons msg msgs ih =>
    rw [List.foldl_cons, ih, addMessage_eq]
    by_cases hsystem : roleOf msg = "system" <;> by_cases htext : textOf msg = "" <;>
      simp [hsystem, htext]

/-! ## The rendered request -/

theorem get_requestToValue {req : IrRequest} {out : Value}
    (h : Messages.requestToValue req = .ok out) :
    elements out "messages" = req.messages.map messageToMessages ∧
      ∀ system, req.system = some system → out.str "system" = some system := by
  cases h
  constructor
  · refine elements_of_get (get_fillExtras ?_)
    split_ifs <;> simp_all [insertOptF64, get_insertOpt, BTreeMap.get_insert]
  · intro system hsystem
    refine str_of_get (get_fillExtras ?_)
    split_ifs <;> simp_all [insertOptF64, get_insertOpt, BTreeMap.get_insert]

/-- The messages that are not system messages, and the texts of those that are. -/
theorem messages_convertRequest {body out : Value}
    (h : convertRequest floats .chatCompletions .messages body = .ok out) :
    elements out "messages" = ((elements body "messages").filter fun msg =>
        roleOf msg ≠ "system").map (fun msg => messageToMessages (conversationMessage floats msg)) ∧
      ∀ system, joinSystem ((((elements body "messages").filter fun msg =>
          roleOf msg = "system").map textOf).filter fun text => text ≠ "") = some system →
        out.str "system" = some system := by
  cases body with
  | object o =>
    rw [convertRequest, if_neg (by decide), requestFromValue, Chat.requestFromValue, bodyObject] at h
    cases hmsgs : ((Value.object o).get "messages").bind asArray with
    | none =>
      simp only [hmsgs] at h
      cases h
    | some msgs =>
      simp only [hmsgs] at h
      have helements : elements (.object o) "messages" = msgs := by rw [elements, hmsgs]; rfl
      obtain ⟨hmessages, hsystem⟩ := get_requestToValue h
      rw [helements]
      rw [foldl_addMessage] at hmessages hsystem
      refine ⟨?_, ?_⟩
      · rw [hmessages]
        simp
      · intro system hjoin
        exact hsystem system (by simpa using hjoin)
  | _ => cases h

/-! ## Messages -/

theorem isToolResult_contentFromChat {content : Option Value} :
    (contentFromChat content).any isToolResult = false := by
  have hpart : ∀ v, isToolResult (partFromChat v) = false := by
    intro v
    rw [partFromChat]
    split_ifs <;> rfl
  unfold contentFromChat
  split
  · rfl
  · rw [List.any_map, List.any_eq_false]
    intro v _
    simp [hpart]
  · rfl
  · rfl
  · rfl

/-- Only tool messages hold tool results. -/
theorem any_isToolResult (msg : Value) :
    (conversationMessage floats msg).content.any isToolResult = decide (roleOf msg = "tool") := by
  have hcalls : (toolCallParts floats msg).any isToolResult = false := by
    rw [toolCallParts, List.any_map, List.any_eq_false]
    intro call _
    simp [isToolResult]
  have hreasoning : (reasoningContent msg).any isToolResult = false := by
    rw [reasoningContent]
    cases msg.str "reasoning_content" <;> rfl
  rw [conversationMessage]
  dsimp only
  rw [List.any_append, List.any_append, hcalls, hreasoning, Bool.or_false, Bool.or_false]
  by_cases htool : roleOf msg = "tool"
  · rw [decide_eq_true htool, htool, messageFromValue]
    rfl
  · rw [decide_eq_false htool, content_messageFromValue htool, isToolResult_contentFromChat]

theorem str_role (msg : IrMessage) :
    (messageToMessages msg).str "role" =
      some (if msg.content.any isToolResult then "user" else msg.role.asStr) := by
  simp [messageToMessages, str, get_obj, BTreeMap.get_cons, asStr]

theorem role_conversationMessage (msg : Value) :
    (messageToMessages (conversationMessage floats msg)).str "role" =
      some (if roleOf msg = "tool" then "user" else roleOf msg) := by
  have hrole : (conversationMessage floats msg).role.asStr = roleOf msg := asStr_fromWire _
  rw [str_role, any_isToolResult, hrole]
  by_cases htool : roleOf msg = "tool" <;> simp [htool]

/-- A tool message holds the result and nothing else that is one. -/
theorem addressesCall (msg : Value) :
    AddressesCall msg (messageToMessages (conversationMessage floats msg)) := by
  intro htool
  have hparts : elements (messageToMessages (conversationMessage floats msg)) "content" =
      (conversationMessage floats msg).content.map partToMessages := by
    simp [messageToMessages, elements, get_obj, BTreeMap.get_cons, asArray]
  have hcalls : ((toolCallParts floats msg).map partToMessages).filter
      (fun part => part.str "type" = some "tool_result") = [] := by
    rw [List.filter_eq_nil_iff]
    intro part hpart
    obtain ⟨_, hcall, rfl⟩ := List.mem_map.mp hpart
    obtain ⟨call, -, rfl⟩ := List.mem_map.mp hcall
    simp [partToMessages, str, get_obj, BTreeMap.get_cons, asStr]
  have hreasoning : ((reasoningContent msg).map partToMessages).filter
      (fun part => part.str "type" = some "tool_result") = [] := by
    rw [reasoningContent]
    cases msg.str "reasoning_content" <;>
      simp [partToMessages, str, get_obj, BTreeMap.get_cons, asStr]
  have hcontent : (conversationMessage floats msg).content =
      [.toolResult (msg.str "tool_call_id") ((msg.get "content").getD .null)] ++
        toolCallParts floats msg ++ reasoningContent msg := by
    rw [conversationMessage, htool]
    rfl
  rw [toolResults, hparts, hcontent, List.map_append, List.map_append, List.filter_append,
    List.filter_append, hcalls, hreasoning]
  simp [partToMessages, str, get_obj, BTreeMap.get_cons, asStr]

/-! ## The theorem -/

theorem exists_convertRequest {body msg : Value} (h : msg ∈ elements body "messages") :
    ∃ out, convertRequest floats .chatCompletions .messages body = .ok out := by
  rw [elements] at h
  cases hmsgs : (body.get "messages").bind asArray with
  | none =>
    rw [hmsgs] at h
    cases h
  | some msgs =>
    cases body with
    | object o =>
      rw [convertRequest, if_neg (by decide), requestFromValue, Chat.requestFromValue, bodyObject]
      simp only [hmsgs]
      exact ⟨_, rfl⟩
    | _ => cases hmsgs

theorem not_converted_of_developer {body msg : Value} (hmsg : msg ∈ elements body "messages")
    (hdeveloper : roleOf msg = "developer") : ¬ Converted floats body := by
  intro h
  obtain ⟨out, hout⟩ := @exists_convertRequest floats _ _ hmsg
  have hmem : messageToMessages (conversationMessage floats msg) ∈ elements out "messages" := by
    rw [(messages_convertRequest hout).1]
    refine List.mem_map_of_mem (List.mem_filter.mpr ⟨hmsg, ?_⟩)
    simp [hdeveloper]
  have hrole := (h out hout).roles _ hmem
  rw [role_conversationMessage, hdeveloper] at hrole
  revert hrole
  decide

theorem isConversion_of_not_developer {body out : Value}
    (hroles : ∀ msg ∈ elements body "messages", roleOf msg ∈ documentedRoles)
    (hdeveloper : ∀ msg ∈ elements body "messages", roleOf msg ≠ "developer")
    (hout : convertRequest floats .chatCompletions .messages body = .ok out) :
    IsConversion body out := by
  obtain ⟨hmessages, hsystem⟩ := messages_convertRequest hout
  have hinstruction : ∀ msg ∈ elements body "messages",
      isInstruction msg = decide (roleOf msg = "system") := by
    intro msg hmsg
    rw [isInstruction, decide_eq_false (hdeveloper msg hmsg), Bool.or_false]
  have hothers : ((elements body "messages").filter fun msg => !isInstruction msg) =
      (elements body "messages").filter fun msg => roleOf msg ≠ "system" := by
    refine List.filter_congr fun msg hmsg => ?_
    rw [hinstruction msg hmsg]
    simp
  constructor
  · intro msg' hmsg'
    rw [hmessages] at hmsg'
    obtain ⟨msg, hmsg, rfl⟩ := List.mem_map.mp hmsg'
    obtain ⟨hmem, hne⟩ := List.mem_filter.mp hmsg
    have hrole := hroles msg hmem
    have hnot := hdeveloper msg hmem
    rw [role_conversationMessage]
    simp only [documentedRoles, List.mem_cons, List.not_mem_nil, or_false] at hrole
    simp only [decide_eq_true_eq] at hne
    rcases hrole with hsys | hdev | huser | hassistant | htool
    · exact absurd hsys hne
    · exact absurd hdev hnot
    · simp [huser]
    · simp [hassistant]
    · simp [htool]
  · intro htexts
    have hfilter : ((elements body "messages").filter fun msg => roleOf msg = "system") =
        (elements body "messages").filter isInstruction := by
      refine List.filter_congr fun msg hmsg => ?_
      rw [hinstruction msg hmsg]
    refine hsystem _ ?_
    rw [hfilter, ← instructionTexts, joinSystem, if_neg htexts]
  · rw [hothers, hmessages, List.forall₂_map_right_iff, List.forall₂_same]
    exact fun msg _ => addressesCall msg

/-- **A Chat Completions request as a Messages request.** -/
theorem converted_iff {body : Value}
    (hroles : ∀ msg ∈ elements body "messages", roleOf msg ∈ documentedRoles) :
    Converted floats body ↔ ∀ msg ∈ elements body "messages", roleOf msg ≠ "developer" := by
  constructor
  · intro h msg hmsg hdeveloper
    exact not_converted_of_developer hmsg hdeveloper h
  · intro h out hout
    exact isConversion_of_not_developer hroles h hout

/-- A conversation with a tool result. -/
def toolConversation : Value :=
  obj [("messages", .array [
    obj [("role", .string "system"), ("content", .string "Be brief.")],
    obj [("role", .string "user"), ("content", .string "Look it up.")],
    obj [("role", .string "tool"), ("tool_call_id", .string "call_1"),
      ("content", .string "found")]])]

theorem toolConversation_converted : Converted .verbatim toolConversation := by
  refine (converted_iff ?_).mpr ?_ <;> decide +kernel

/-- A conversation that a developer message opens. -/
def developerConversation : Value :=
  obj [("messages", .array [
    obj [("role", .string "developer"), ("content", .string "Be brief.")],
    obj [("role", .string "user"), ("content", .string "Hello")]])]

/-- The developer message stays among the others. -/
theorem developer_message_kept : ¬ ∀ floats body,
    (∀ msg ∈ elements body "messages", roleOf msg ∈ documentedRoles) →
      Converted floats body := by
  intro h
  have hmem : obj [("role", .string "developer"), ("content", .string "Be brief.")] ∈
      elements developerConversation "messages" := by decide +kernel
  exact not_converted_of_developer hmem (by decide +kernel)
    (h .verbatim developerConversation (by decide +kernel))

end Tokn.Convert.ChatToMessages
