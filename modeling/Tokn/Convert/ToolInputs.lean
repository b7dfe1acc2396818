import Tokn.Convert.AccumulatedCalls
import Tokn.Convert.ResponseParsers

/-!
# The inputs of rendered tool calls

A Messages response holds the arguments of a call as a JSON value. They reach `response_to_value`
(`crates/convert/src/value/messages.rs`) from the parsers of the three dialects, of which two parse
the string that a call delivers, and from the accumulator of a stream, which leaves it a string.

**Theorem (`inputsDenoted_iff`).** Every input is the value that the arguments of its upstream call
denote iff the response was parsed from calls whose strings are JSON, or accumulated from a stream
without a fragment of a call.
-/

namespace Tokn.Convert.ToolInputs

open Value JsonText EndpointTranslator

variable {floats : FloatReader}

/-- The arguments of a call as the upstream delivers them. -/
inductive Arguments where
  /-- JSON text. -/
  | text (s : String)
  /-- The value itself. -/
  | value (v : Value)
  deriving DecidableEq

/-- The JSON value that the arguments denote. -/
def Arguments.denoted (floats : FloatReader) : Arguments → Option Value
  | .text s => fromStr floats s
  | .value v => some v

/-- Arguments that a dialect delivers as a string, or as the value if they are none. -/
def Arguments.ofWire : Value → Arguments
  | .string s => .text s
  | v => .value v

/-- What a response is built from. -/
inductive Source where
  | chat (body : Value)
  | responses (body : Value)
  | messages (body : Value)
  | sse (endpoint : Endpoint) (events : List SseEvent)

/-- The response that is built. -/
def Source.response (floats : FloatReader) : Source → Except ConvertError IrResponse
  | .chat body => Chat.responseFromValue floats body
  | .responses body => Responses.responseFromValue floats body
  | .messages body => Messages.responseFromValue body
  | .sse endpoint events => accumulateEvents endpoint events

def streamMarks (endpoint : Endpoint) (events : List SseEvent) : List WireCalls.CallMark :=
  WireCalls.fragments (WireCalls.marks endpoint (upstreamValues events))

/-- The fragments of the call of an index, put together. -/
def joined (marks : List WireCalls.CallMark) (index : Nat) : String :=
  String.join ((WireCalls.ofCall marks index).filterMap WireCalls.CallMark.fragment)

/-- The arguments of the upstream calls, in the order of their blocks. The calls of a stream come in
the order of their indices. -/
def Source.delivered : Source → List Arguments
  | .chat body =>
    (elements (((Chat.firstChoice body).map Chat.choiceMessage).getD .null) "tool_calls").map
      fun call => .ofWire (Chat.wireArguments call)
  | .responses body =>
    ((elements body "output").filter fun item => item.str "type" = some "function_call").map
      fun item => .ofWire (Responses.wireArguments item)
  | .messages body =>
    ((elements body "content").filter fun part => part.str "type" = some "tool_use").map
      fun part => .value ((part.get "input").getD .null)
  | .sse endpoint events =>
    (List.range (WireCalls.bound (streamMarks endpoint events))).map
      fun index => .text (joined (streamMarks endpoint events) index)

/-- The inputs of the `tool_use` blocks of a Messages response. -/
def toolInputs (rendered : Value) : List Value :=
  ((elements rendered "content").filter fun block => block.str "type" = some "tool_use").map
    fun block => (block.get "input").getD .null

/-- Every input is the value that the arguments of its call denote. -/
def InputsDenoted (floats : FloatReader) (source : Source) : Prop :=
  ∀ resp rendered, source.response floats = .ok resp → Messages.responseToValue resp = .ok rendered →
    (toolInputs rendered).map some = source.delivered.map (Arguments.denoted floats)

/-- Whether the arguments of all calls are parsed: the strings that a parser reads are JSON, and the
events that are accumulated have no fragment of a call. -/
def Parsed (floats : FloatReader) (source : Source) : Prop :=
  match source with
  | .chat _ | .responses _ | .messages _ => ∀ s, .text s ∈ source.delivered → fromStr floats s ≠ none
  | .sse endpoint events => refused events = false → streamMarks endpoint events = []

/-! ## The renderer -/

/-- The renderer takes the arguments as they are. -/
theorem toolInputs_responseToValue {resp : IrResponse} {rendered : Value}
    (h : Messages.responseToValue resp = .ok rendered) :
    toolInputs rendered = resp.toolCalls.map ToolCall.arguments := by
  have hblocks : ∀ calls : List ToolCall,
      ((calls.map fun call => obj [("type", .string "tool_use"),
        ("id", .string (call.id.getD "toolu_converted")), ("name", .string call.name),
        ("input", call.arguments)]).filter fun block => block.str "type" = some "tool_use").map
          (fun block => (block.get "input").getD .null) = calls.map ToolCall.arguments := by
    intro calls
    induction calls with
    | nil => rfl
    | cons call calls ih =>
      rw [List.map_cons, List.map_cons, ← ih]
      simp [str, get_obj, BTreeMap.get_cons, asStr]
  cases h
  rw [toolInputs, elements, get_obj]
  cases resp.usage <;> by_cases htext : textFromParts resp.content = "" <;>
    cases reasoningFromParts resp.content <;>
    simpa [htext, BTreeMap.get_cons, asArray, str, get_obj, asStr] using hblocks resp.toolCalls

/-! ## Parsers -/

/-- A parsed string is the value it denotes if it is JSON. -/
theorem some_parseArgs_iff (v : Value) :
    some (Chat.parseArgs floats v) = (Arguments.ofWire v).denoted floats ↔
      ∀ s, Arguments.ofWire v = .text s → fromStr floats s ≠ none := by
  cases v with
  | string s =>
    rw [Chat.parseArgs_string, Arguments.ofWire, Arguments.denoted]
    cases hread : fromStr floats s <;> simp [hread]
  | _ => simp [Chat.parseArgs, Arguments.ofWire, Arguments.denoted]

theorem arguments_toolCallFromItem (item : Value) :
    (Responses.toolCallFromItem floats item).arguments =
      Chat.parseArgs floats (Responses.wireArguments item) := by
  rw [Responses.toolCallFromItem, Responses.wireArguments]
  cases item.get "arguments" with
  | none => rfl
  | some v => cases v <;> rfl

/-- Parsed calls are those that were delivered, each with its own arguments. -/
theorem map_some_iff {calls : List Value} {wire : Value → Value} :
    (calls.map fun call => some (Chat.parseArgs floats (wire call))) =
        (calls.map fun call => Arguments.ofWire (wire call)).map (Arguments.denoted floats) ↔
      ∀ s, .text s ∈ (calls.map fun call => Arguments.ofWire (wire call)) →
        fromStr floats s ≠ none := by
  rw [List.map_map, List.map_eq_map_iff]
  simp only [Function.comp_apply, some_parseArgs_iff, List.mem_map]
  constructor
  · rintro h s ⟨call, hcall, htext⟩
    exact h call hcall s htext
  · intro h call hcall s htext
    exact h s ⟨call, hcall, htext⟩

theorem toolCallsOfItem_eq (items : List Value) :
    items.flatMap (Responses.toolCallsOfItem floats) =
      (items.filter fun item => item.str "type" = some "function_call").map
        (Responses.toolCallFromItem floats) := by
  induction items with
  | nil => rfl
  | cons item items ih =>
    rw [List.flatMap_cons, ih, Responses.toolCallsOfItem]
    by_cases htype : item.str "type" = some "function_call" <;> simp [htype]

theorem toolCallsOfBlock_eq (parts : List Value) :
    parts.flatMap Messages.toolCallsOfBlock =
      (parts.filter fun part => part.str "type" = some "tool_use").map
        Messages.toolCallFromBlock := by
  induction parts with
  | nil => rfl
  | cons part parts ih =>
    rw [List.flatMap_cons, ih, Messages.toolCallsOfBlock]
    by_cases htype : part.str "type" = some "tool_use" <;> simp [htype]

/-! ## Streams -/

/-- No accumulated input is the value that its fragments denote. -/
theorem not_denoted_of_mem {marks : List WireCalls.CallMark} {mark : WireCalls.CallMark}
    (hmark : mark ∈ marks) :
    some ((WireCalls.ofCall marks mark.index).foldl WireCalls.extend default).arguments ≠
      fromStr floats (joined marks mark.index) := by
  have hmem : mark ∈ WireCalls.ofCall marks mark.index := WireCalls.mem_ofCall.mpr ⟨hmark, rfl⟩
  rw [WireCalls.foldl_extend, if_neg (List.ne_nil_of_mem hmem)]
  exact (fromStr_ne_string _).symm

theorem sse_toolCalls (endpoint : Endpoint) (events : List SseEvent) {resp : IrResponse}
    (h : accumulateEvents endpoint events = .ok resp) :
    refused events = false ∧ resp.toolCalls =
      (List.range (WireCalls.bound (streamMarks endpoint events))).map fun k =>
        (WireCalls.ofCall (streamMarks endpoint events) k).foldl WireCalls.extend default := by
  rw [accumulateEvents, accumulateFrom_eq] at h
  split_ifs at h with hrefused
  cases h
  exact ⟨by simpa using hrefused, WireCalls.toolCalls_accumulated _ _⟩

/-! ## The theorem -/

/-- The renderer never fails, so only the calls of the response count. -/
theorem inputsDenoted_iff_of_ok {source : Source} {resp : IrResponse}
    (h : source.response floats = .ok resp) :
    InputsDenoted floats source ↔
      (resp.toolCalls.map fun call => some call.arguments) =
        source.delivered.map (Arguments.denoted floats) := by
  obtain ⟨rendered, hrendered⟩ : ∃ rendered, Messages.responseToValue resp = .ok rendered :=
    ⟨_, rfl⟩
  have hinputs : (toolInputs rendered).map some =
      resp.toolCalls.map fun call => some call.arguments := by
    rw [toolInputs_responseToValue hrendered, List.map_map]
    rfl
  rw [← hinputs]
  constructor
  · intro hdenoted
    exact hdenoted resp rendered h hrendered
  · intro hsame resp' rendered' h' hrendered'
    cases h.symm.trans h'
    cases hrendered.symm.trans hrendered'
    exact hsame

theorem chat_iff (body : Value) :
    InputsDenoted floats (.chat body) ↔ Parsed floats (.chat body) := by
  cases hchoice : Chat.firstChoice body with
  | none =>
    refine iff_of_true ?_ ?_
    · intro resp rendered h
      rw [Source.response, Chat.responseFromValue, hchoice] at h
      cases h
    · rw [Parsed, Source.delivered, hchoice]
      exact nofun
  | some choice =>
    have hdelivered : (Source.chat body).delivered =
        (elements (Chat.choiceMessage choice) "tool_calls").map
          fun call => .ofWire (Chat.wireArguments call) := by
      rw [Source.delivered, hchoice]
      rfl
    obtain ⟨resp, hresp, hcalls⟩ : ∃ resp, (Source.chat body).response floats = .ok resp ∧
        resp.toolCalls = (elements (Chat.choiceMessage choice) "tool_calls").map
          (Chat.toolCallFromChat floats) := by
      rw [Source.response, Chat.responseFromValue, hchoice]
      exact ⟨_, rfl, rfl⟩
    rw [inputsDenoted_iff_of_ok hresp, Parsed, hdelivered, hcalls, List.map_map]
    exact map_some_iff

theorem responses_iff (body : Value) :
    InputsDenoted floats (.responses body) ↔ Parsed floats (.responses body) := by
  obtain ⟨resp, hresp, hcalls⟩ : ∃ resp, (Source.responses body).response floats = .ok resp ∧
      resp.toolCalls = (elements body "output").flatMap (Responses.toolCallsOfItem floats) :=
    ⟨_, rfl, rfl⟩
  rw [inputsDenoted_iff_of_ok hresp, Parsed, Source.delivered, hcalls, toolCallsOfItem_eq,
    List.map_map]
  simp only [Function.comp_def, arguments_toolCallFromItem]
  exact map_some_iff

theorem messages_iff (body : Value) :
    InputsDenoted floats (.messages body) ↔ Parsed floats (.messages body) := by
  obtain ⟨resp, hresp, hcalls⟩ : ∃ resp, (Source.messages body).response floats = .ok resp ∧
      resp.toolCalls = (elements body "content").flatMap Messages.toolCallsOfBlock :=
    ⟨_, rfl, rfl⟩
  refine iff_of_true ?_ ?_
  · rw [inputsDenoted_iff_of_ok hresp, Source.delivered, hcalls, toolCallsOfBlock_eq, List.map_map,
      List.map_map]
    rfl
  · simp [Parsed, Source.delivered]

theorem sse_iff (endpoint : Endpoint) (events : List SseEvent) :
    InputsDenoted floats (.sse endpoint events) ↔ Parsed floats (.sse endpoint events) := by
  rw [Parsed]
  cases haccumulated : accumulateEvents endpoint events with
  | error e =>
    refine iff_of_true ?_ ?_
    · intro resp rendered h
      rw [Source.response, haccumulated] at h
      cases h
    · intro hrefused
      rw [accumulateEvents, accumulateFrom_eq, hrefused] at haccumulated
      cases haccumulated
  | ok resp =>
    obtain ⟨hrefused, hcalls⟩ := sse_toolCalls endpoint events haccumulated
    have hresp : (Source.sse endpoint events).response floats = .ok resp := haccumulated
    rw [inputsDenoted_iff_of_ok hresp, Source.delivered, hcalls, List.map_map, List.map_map,
      List.map_eq_map_iff]
    constructor
    · intro hdenoted _
      refine List.eq_nil_iff_forall_not_mem.mpr fun mark hmark => ?_
      have hindex := List.mem_range.mpr (WireCalls.lt_bound_of_mem hmark)
      exact not_denoted_of_mem hmark (hdenoted mark.index hindex)
    · intro hnil
      rw [hnil hrefused]
      exact nofun

/-- **The inputs of rendered calls.** -/
theorem inputsDenoted_iff (floats : FloatReader) (source : Source) :
    InputsDenoted floats source ↔ Parsed floats source := by
  cases source with
  | chat body => exact chat_iff body
  | responses body => exact responses_iff body
  | messages body => exact messages_iff body
  | sse endpoint events => exact sse_iff endpoint events

/-- A Messages stream of one call, whose arguments come in one fragment. -/
def lookupStream : List SseEvent :=
  [[("type", .string "content_block_start"), ("index", .nat 0),
      ("content_block", obj [("type", .string "tool_use"), ("id", .string "toolu_1"),
        ("name", .string "lookup")])],
    [("type", .string "content_block_delta"), ("index", .nat 0),
      ("delta", obj [("type", .string "input_json_delta"),
        ("partial_json", .string "\x7b\"q\":1\x7d")])]].map fun fields =>
    SseEvent.ofJson none (obj fields)

/-- The input of its block is the string of the arguments. -/
theorem accumulated_input_is_string : ¬ ∀ floats source, InputsDenoted floats source := by
  intro h
  have hmarks := (sse_iff .messages lookupStream).mp (h .verbatim _) (by decide +kernel)
  revert hmarks
  decide +kernel

end Tokn.Convert.ToolInputs
