import Tokn.Convert.ResponseParsers

/-!
# A Responses response, written and read back

`response_to_value` writes the text of a response twice, as `output_text` and as a part of its
message item, and `response_from_value` reads both. A call without an id gets one.

**Theorem (`responseRoundTrips_iff`).** The text, the reasoning and the calls of a response come back
iff it has no text, all of its calls have ids, and their arguments read back.
-/

namespace Tokn.Convert.Responses

open Value JsonText

variable {floats : FloatReader}

/-- The text, the reasoning and the calls that are read back are those of the response. -/
def ComesBack (floats : FloatReader) (r : IrResponse) : Prop :=
  ∀ v r', responseToValue r = .ok v → responseFromValue floats v = .ok r' →
    textFromParts r'.content = textFromParts r.content ∧
    reasoningFromParts r'.content = reasoningFromParts r.content ∧ r'.toolCalls = r.toolCalls

/-! ## Items -/

theorem get_functionCallItem (call : ToolCall) (k : String) :
    (functionCallItem call).get k =
      BTreeMap.get [("status", .string "completed"),
        ("arguments", .string (Chat.argsToString call.arguments)), ("name", .string call.name),
        ("call_id", .string (call.id.getD "call_converted")),
        ("id", .string (call.id.getD "fc_converted")), ("type", .string "function_call")] k :=
  get_obj _ _

theorem contentOfItem_functionCallItem (call : ToolCall) :
    contentOfItem (functionCallItem call) = [] := by
  simp [contentOfItem, str, get_functionCallItem, BTreeMap.get_cons, asStr]

/-- A call after it has been written and read. -/
def rereadCall (floats : FloatReader) (call : ToolCall) : ToolCall where
  id := some (call.id.getD "call_converted")
  name := call.name
  arguments := Chat.parseArgs floats (.string (Chat.argsToString call.arguments))

theorem toolCallsOfItem_functionCallItem (call : ToolCall) :
    toolCallsOfItem floats (functionCallItem call) = [rereadCall floats call] := by
  simp [toolCallsOfItem, toolCallFromItem, str, strOrEmpty, wireArguments, get_functionCallItem,
    BTreeMap.get_cons, asStr, Chat.parseArgs_string, rereadCall]

theorem rereadCall_eq_self_iff {call : ToolCall} (h : call.arguments.Valid) :
    rereadCall floats call = call ↔
      call.id.isSome = true ∧ Chat.ReadsBack floats call.arguments := by
  rw [← Chat.parseArgs_argsToString_iff h]
  obtain ⟨id, name, arguments⟩ := call
  cases id <;> simp [rereadCall]

/-- The parts of the message item. -/
theorem contentOfItem_messageItem (id : String) (parts : List ContentPart) :
    (messageItem id parts).flatMap contentOfItem =
      (if textFromParts parts = "" then [] else [.text (textFromParts parts)]) ++
        ((reasoningFromParts parts).map ContentPart.reasoning).toList := by
  by_cases htext : textFromParts parts = "" <;> cases hreason : reasoningFromParts parts <;>
    simp [messageItem, htext, hreason, contentOfItem, elements, partFromResponses, strOrEmpty, str,
      get_obj, BTreeMap.get_cons, asStr, asArray]

theorem toolCallsOfItem_messageItem (id : String) (parts : List ContentPart) :
    (messageItem id parts).flatMap (toolCallsOfItem floats) = [] := by
  by_cases htext : textFromParts parts = "" <;> cases hreason : reasoningFromParts parts <;>
    simp [messageItem, htext, hreason, toolCallsOfItem, str, get_obj, BTreeMap.get_cons, asStr]

/-! ## The response -/

theorem get_responseToValue {r : IrResponse} {v : Value} (h : responseToValue r = .ok v) :
    v.str "output_text" = some (textFromParts r.content) ∧
    elements v "output" = messageItem (r.id.getD "resp_converted") r.content ++
      r.toolCalls.map functionCallItem := by
  cases h
  rw [str, elements, get_obj, get_obj]
  cases r.usage <;> cases (responsesCompletionStatus r.finishReason).2 <;>
    simp [BTreeMap.get_cons, asStr, asArray]

theorem reasoningFromParts_ne_empty {parts : List ContentPart} {s : String}
    (h : reasoningFromParts parts = some s) : s ≠ "" := by
  rw [reasoningFromParts] at h
  split_ifs at h with hne
  cases h
  exact hne

theorem append_self_eq_iff (s : String) : s ++ s = s ↔ s = "" := by
  constructor
  · intro h
    have hlen := congrArg String.length h
    rw [String.length_append] at hlen
    exact String.length_eq_zero_iff.mp (by omega)
  · rintro rfl
    rfl

/-- **A response, written and read back.** Any text comes back twice. -/
theorem responseRoundTrips_iff {r : IrResponse} (hvalid : ∀ call ∈ r.toolCalls, call.arguments.Valid) :
    ComesBack floats r ↔ textFromParts r.content = "" ∧
      ∀ call ∈ r.toolCalls, call.id.isSome = true ∧ Chat.ReadsBack floats call.arguments := by
  obtain ⟨v, hv⟩ : ∃ v, responseToValue r = .ok v := ⟨_, rfl⟩
  obtain ⟨r', hr'⟩ : ∃ r', responseFromValue floats v = .ok r' := ⟨_, rfl⟩
  obtain ⟨htext, houtput⟩ := get_responseToValue hv
  have hcontent : r'.content = .text (textFromParts r.content) ::
      ((if textFromParts r.content = "" then [] else [.text (textFromParts r.content)]) ++
        ((reasoningFromParts r.content).map ContentPart.reasoning).toList) := by
    cases hr'
    dsimp only
    rw [htext, houtput, List.flatMap_append, contentOfItem_messageItem, List.flatMap_map]
    simp [contentOfItem_functionCallItem]
  have hcalls : r'.toolCalls = r.toolCalls.map (rereadCall floats) := by
    cases hr'
    dsimp only
    rw [houtput, List.flatMap_append, toolCallsOfItem_messageItem, List.flatMap_map,
      List.nil_append, List.map_eq_flatMap]
    simp only [toolCallsOfItem_functionCallItem]
  have htwice : textFromParts r'.content = textFromParts r.content ++ textFromParts r.content := by
    rw [hcontent]
    generalize textFromParts r.content = text
    by_cases hempty : text = "" <;> cases reasoningFromParts r.content <;>
      simp [textFromParts, hempty]
  have hreasoning : reasoningFromParts r'.content = reasoningFromParts r.content := by
    rw [hcontent]
    cases hreason : reasoningFromParts r.content with
    | none => split_ifs <;> simp [reasoningFromParts]
    | some s =>
      have hne := reasoningFromParts_ne_empty hreason
      split_ifs <;> simp [reasoningFromParts, hne]
  have hsame : r'.toolCalls = r.toolCalls ↔
      ∀ call ∈ r.toolCalls, call.id.isSome = true ∧ Chat.ReadsBack floats call.arguments := by
    rw [hcalls, ← List.map_id r.toolCalls, List.map_map, List.map_eq_map_iff, List.map_id]
    refine forall₂_congr fun call hcall => ?_
    exact rereadCall_eq_self_iff (hvalid call hcall)
  rw [← hsame, ← append_self_eq_iff, ← htwice]
  constructor
  · intro h
    obtain ⟨h₁, -, h₂⟩ := h v r' hv hr'
    exact ⟨h₁, h₂⟩
  · rintro ⟨h₁, h₂⟩ w w' hw hw'
    rw [hv] at hw
    cases hw
    rw [hr'] at hw'
    cases hw'
    exact ⟨h₁, hreasoning, h₂⟩

/-- The response of a call without text. -/
def lookupResponse : IrResponse where
  toolCalls := [⟨some "call_1", "lookup", .object [("q", .string "rust")]⟩]

theorem lookupResponse_comesBack : ComesBack .verbatim lookupResponse := by
  refine (responseRoundTrips_iff ?_).mpr ?_
  · simp [lookupResponse, Valid, ValidFields, BTreeMap.Sorted]
  · simp [lookupResponse, textFromParts, Chat.ReadsBack, Stable, StableFields, depth, depthFields,
      MAX_DEPTH]

/-- A text comes back twice. -/
theorem text_doubled : ¬ ∀ floats r, ComesBack floats r := by
  intro h
  have htext := (h .verbatim { content := [.text "Hi"] } _ _ rfl rfl).1
  revert htext
  decide +kernel

end Tokn.Convert.Responses
