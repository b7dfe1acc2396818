import Tokn.Convert.Request

/-!
# The requests of the three dialects

The request half of `crates/convert/src/value`: `request_from_value` and `request_to_value` of each
dialect, and `convert_request`. System texts are kept apart from the messages. The items of a
Responses input that an assistant turn is made of are gathered into one message.
-/

namespace Tokn.Convert

open Value JsonText

/-! ## Chat Completions -/

namespace Chat

def requestKeys : List String :=
  ["model", "messages", "tools", "tool_choice", "temperature", "top_p", "max_tokens",
    "max_completion_tokens", "stop", "n", "seed", "stream", "reasoning", "thinking"]

/-- The role of a message on the wire. -/
def roleOf (msg : Value) : String := (msg.str "role").getD "user"

/-- `message_from_value`, which never fails. -/
def messageFromValue (msg : Value) (role : String) : IrMessage where
  role := Role.fromWire role
  content :=
    if role = "tool" then [.toolResult (msg.str "tool_call_id") ((msg.get "content").getD .null)]
    else contentFromChat (msg.get "content")
  toolCallId := msg.str "tool_call_id"
  name := msg.str "name"

/-- The calls of a message. -/
def toolCallParts (floats : FloatReader) (msg : Value) : List ContentPart :=
  (elements msg "tool_calls").map fun call => .toolCall (toolCallFromChat floats call)

/-- A message of the conversation: its calls and its reasoning come after its content. -/
def conversationMessage (floats : FloatReader) (msg : Value) : IrMessage :=
  let ir := messageFromValue msg (roleOf msg)
  { ir with content := ir.content ++ toolCallParts floats msg ++ reasoningContent msg }

/-- One round of the loop over the messages. -/
def addMessage (floats : FloatReader) (acc : List String × List IrMessage) (msg : Value) :
    List String × List IrMessage :=
  let ir := messageFromValue msg (roleOf msg)
  if ir.role = .system then
    let text := textFromParts ir.content
    if text = "" then acc else (acc.1 ++ [text], acc.2)
  else (acc.1, acc.2 ++ [conversationMessage floats msg])

def samplingFromValue (floats : FloatReader) (v : Value) : Sampling where
  temperature := (v.get "temperature").bind (asF64 floats)
  topP := (v.get "top_p").bind (asF64 floats)
  maxOutputTokens := (v.get "max_completion_tokens" <|> v.get "max_tokens").bind asU64
  stop := v.get "stop"
  n := v.u64 "n"
  seed := (v.get "seed").bind asI64

def requestFromValue (floats : FloatReader) (v : Value) : Except ConvertError IrRequest :=
  (bodyObject v).bind fun o =>
    match (v.get "messages").bind asArray with
    | none => .error (.missingField "messages")
    | some msgs =>
      let acc := msgs.foldl (addMessage floats) ([], [])
      .ok {
        model := modelOf v
        system := joinSystem acc.1
        messages := acc.2
        tools := toolsOf v
        toolChoice := (v.get "tool_choice").map Tools.normaliseToolChoice
        sampling := samplingFromValue floats v
        reasoning := v.get "reasoning" <|> v.get "thinking"
        stream := ((v.get "stream").bind asBool).getD false
        extras := extrasFromObject o requestKeys }

def toolResultText (content : Value) : String := content.asStr.getD content.toText

/-- The `tool` message of a tool result. -/
def toolMessage (msg : IrMessage) : ContentPart → Option Value
  | .toolResult id content =>
    some (obj [("role", .string "tool"),
      ("tool_call_id", .string ((id <|> msg.toolCallId).getD "")),
      ("content", .string (toolResultText content))])
  | _ => none

def isToolResult : ContentPart → Bool
  | .toolResult .. => true
  | _ => false

def isRaw : ContentPart → Bool
  | .raw _ => true
  | _ => false

/-- The part of an array content. -/
def chatPart : ContentPart → Option Value
  | .text text => some (obj [("type", .string "text"), ("text", .string text)])
  | .raw value => some value
  | _ => none

/-- `content_to_chat`: one string, unless a part is not text. -/
def contentToChat (parts : List ContentPart) : Value :=
  if parts.any isRaw then .array (parts.filterMap chatPart) else .string (textFromParts parts)

/-- The calls among some parts. -/
def callsOf (parts : List ContentPart) : List ToolCall :=
  parts.filterMap fun
    | .toolCall call => some call
    | _ => none

/-- The message of the parts that are not tool results. After tool results it is one of the user. -/
def chatMessage (msg : IrMessage) (results : List Value) (remaining : List ContentPart) : Value :=
  let role := if results = [] then msg.role.asStr else Role.user.asStr
  let out := BTreeMap.insert [] "role" (.string role)
  let out := if role = Role.tool.asStr then
      insertOpt out "tool_call_id" (msg.toolCallId.map Value.string) else out
  let out := insertOpt out "name" (msg.name.map Value.string)
  let out := out.insert "content" (contentToChat remaining)
  let calls := (callsOf remaining).mapIdx toolCallToChat
  let out := if calls = [] then out else out.insert "tool_calls" (.array calls)
  .object (insertOpt out "reasoning_content" ((reasoningFromParts remaining).map Value.string))

def messageToChat (msg : IrMessage) : List Value :=
  let results := msg.content.filterMap (toolMessage msg)
  let remaining := msg.content.filter fun part => !isToolResult part
  if remaining = [] ∧ results ≠ [] then results
  else results ++ [chatMessage msg results remaining]

/-- The message of the system text. -/
def systemMessage (system : String) : Value :=
  obj [("role", .string "system"), ("content", .string system)]

/-- `request_to_value`, which never fails. Only function tools are kept. -/
def requestToValue (req : IrRequest) : Except ConvertError Value :=
  let out := BTreeMap.insert [] "model" (.string req.model)
  let out := out.insert "messages"
    (.array ((req.system.map systemMessage).toList ++ req.messages.flatMap messageToChat))
  let tools := req.tools.filter fun tool => ((tool.get "function").bind asObject).isSome
  let out := if tools = [] then out else out.insert "tools" (.array tools)
  let out := insertOpt out "tool_choice" (req.toolChoice.map Tools.toolChoiceToChat)
  let out := insertOptF64 out "temperature" req.sampling.temperature
  let out := insertOptF64 out "top_p" req.sampling.topP
  let out := insertOptU64 out "max_tokens" req.sampling.maxOutputTokens
  let out := insertOpt out "stop" req.sampling.stop
  let out := insertOptU64 out "n" req.sampling.n
  let out := insertOpt out "seed" (req.sampling.seed.map ofI64)
  let out := if req.stream then out.insert "stream" (.bool true) else out
  let out := insertOpt out "reasoning" req.reasoning
  .ok (.object (fillExtras out req.extras))

end Chat

/-! ## Messages -/

namespace Messages

def requestKeys : List String :=
  ["model", "system", "messages", "tools", "tool_choice", "temperature", "top_p", "max_tokens",
    "stop_sequences", "stream", "thinking", "metadata"]

def DEFAULT_MESSAGES_MAX_TOKENS : Nat := 32000

def partFromMessages (v : Value) : ContentPart :=
  match v.str "type" with
  | some "text" => .text (strOrEmpty v "text")
  | some "thinking" | some "redacted_thinking" => .reasoning (thinkingText v)
  | some "tool_use" => .toolCall (toolCallFromBlock v)
  | some "tool_result" => .toolResult (v.str "tool_use_id") ((v.get "content").getD .null)
  | _ => .raw v

def contentFromMessages : Option Value → List ContentPart
  | some (.string s) => [.text s]
  | some (.array parts) => parts.map partFromMessages
  | some v => [.raw v]
  | none => []

/-- `message_from_messages`, which never fails. -/
def messageFromMessages (v : Value) : IrMessage where
  role := Role.fromWire ((v.str "role").getD "user")
  content := contentFromMessages (v.get "content")

def systemToString : Option Value → Option String
  | some (.string s) => some s
  | some (.array parts) =>
    let text := "\n\n".intercalate (parts.filterMap fun part => part.str "text")
    if text = "" then none else some text
  | _ => none

/-- `messages_tool_choice_from_value`: the choice without `disable_parallel_tool_use`, and whether
parallel calls are allowed. -/
def toolChoiceFromValue : Option Value → Option Value × Option Bool
  | none => (none, none)
  | some (.object o) =>
    (some (Tools.normaliseToolChoice (.object (BTreeMap.erase o "disable_parallel_tool_use"))),
      ((BTreeMap.get o "disable_parallel_tool_use").bind asBool).map (!·))
  | some choice => (some (Tools.normaliseToolChoice choice), none)

def requestFromValue (floats : FloatReader) (v : Value) : Except ConvertError IrRequest :=
  (bodyObject v).bind fun o =>
    match (v.get "messages").bind asArray with
    | none => .error (.missingField "messages")
    | some msgs =>
      let choice := toolChoiceFromValue (v.get "tool_choice")
      .ok {
        model := modelOf v
        system := systemToString (v.get "system")
        messages := msgs.map messageFromMessages
        tools := toolsOf v
        toolChoice := choice.1
        sampling :=
          { temperature := (v.get "temperature").bind (asF64 floats)
            topP := (v.get "top_p").bind (asF64 floats)
            maxOutputTokens := v.u64 "max_tokens"
            stop := v.get "stop_sequences" }
        reasoning := v.get "thinking"
        stream := ((v.get "stream").bind asBool).getD false
        extras := insertOpt (extrasFromObject o requestKeys) "parallel_tool_calls"
          (choice.2.map Value.bool) }

def partToMessages : ContentPart → Value
  | .text text => obj [("type", .string "text"), ("text", .string text)]
  | .reasoning text => obj [("type", .string "thinking"), ("thinking", .string text)]
  | .toolCall call =>
    obj [("type", .string "tool_use"), ("id", .string (call.id.getD "toolu_converted")),
      ("name", .string call.name), ("input", call.arguments)]
  | .toolResult id content =>
    obj [("type", .string "tool_result"), ("tool_use_id", optString id), ("content", content)]
  | .raw value => value

/-- `message_to_messages`: a message with a tool result is one of the user. -/
def messageToMessages (msg : IrMessage) : Value :=
  obj [("role", .string (if msg.content.any Chat.isToolResult then "user" else msg.role.asStr)),
    ("content", .array (msg.content.map partToMessages))]

def stopSequencesToMessages : Value → Value
  | .string s => .array [.string s]
  | stop => stop

/-- The tool choice, with what the request says about parallel calls. -/
def toolChoiceOf (req : IrRequest) : Option Value :=
  let choice := req.toolChoice.map Tools.toolChoiceToMessages
  match (req.extras.get "parallel_tool_calls").bind asBool with
  | none => choice
  | some parallelToolCalls =>
    match choice.getD (obj [("type", .string "auto")]) with
    | .object o =>
      some (.object (BTreeMap.insert o "disable_parallel_tool_use" (.bool (!parallelToolCalls))))
    | choice => some choice

def functionTools (req : IrRequest) : List Value :=
  (req.tools.filter fun tool => ((tool.get "function").bind asObject).isSome).map
    Tools.toolToMessages

/-- `request_to_value`, which never fails. A tool choice needs tools. -/
def requestToValue (req : IrRequest) : Except ConvertError Value :=
  let out := BTreeMap.insert [] "model" (.string req.model)
  let out := insertOpt out "system" (req.system.map Value.string)
  let out := out.insert "messages" (.array (req.messages.map messageToMessages))
  let out := if functionTools req = [] then out else
    insertOpt (out.insert "tools" (.array (functionTools req))) "tool_choice"
      (toolChoiceOf req)
  let out := insertOptF64 out "temperature" req.sampling.temperature
  let out := insertOptF64 out "top_p" req.sampling.topP
  let out := out.insert "max_tokens"
    (nat (req.sampling.maxOutputTokens.getD DEFAULT_MESSAGES_MAX_TOKENS))
  let out := insertOpt out "stop_sequences" (req.sampling.stop.map stopSequencesToMessages)
  let out := insertOpt out "thinking" req.reasoning
  let out := if req.stream then out.insert "stream" (.bool true) else out
  .ok (.object (fillExtras out (req.extras.filter fun e => e.1 != "parallel_tool_calls")))

end Messages

/-! ## Responses -/

namespace Responses

def requestKeys : List String :=
  ["model", "input", "instructions", "tools", "tool_choice", "temperature", "top_p",
    "max_output_tokens", "max_tokens", "stop", "stream", "reasoning", "store", "metadata"]

def joinTexts (parts : List Value) (types : List String) : String :=
  String.join (parts.filterMap fun part =>
    if types.contains (strOrEmpty part "type") then part.str "text" else none)

/-- `reasoning_text_from_input_item`: the text of the content, or else that of the summary. -/
def reasoningTextFromInputItem (item : Value) : Option String :=
  let content := joinTexts (elements item "content") ["reasoning_text", "text"]
  let summary := joinTexts (elements item "summary") ["summary_text", "text"]
  if content ≠ "" then some content else if summary = "" then none else some summary

/-- `part_from_responses`, for the part of an input item. -/
def partFromInput (v : Value) : ContentPart :=
  match v.str "type" with
  | some "input_text" | some "output_text" | some "text" => .text (strOrEmpty v "text")
  | _ => .raw v

/-- The content of an input item. -/
def contentFromInput : Option Value → List ContentPart
  | some (.string s) => [.text s]
  | some (.array parts) => parts.map partFromInput
  | some v => [.raw v]
  | none => []

/-- `input_item_to_message`, which never fails. -/
def inputItemToMessage (item : Value) : IrMessage where
  role := Role.fromWire (Chat.roleOf item)
  content := contentFromInput (item.get "content")
  toolCallId := item.str "call_id"
  name := item.str "name"

/-- `empty_assistant_message`, with the parts that have been pushed. -/
def assistantMessage (content : List ContentPart) : IrMessage where
  role := .assistant
  content := content

/-- What the loop over the items has gathered. -/
structure InputState where
  systemParts : List String := []
  messages : List IrMessage := []
  pendingAssistant : Option IrMessage := none
  deriving DecidableEq

/-- Parts of the pending assistant message, which they open if there is none. -/
def InputState.pushAssistantParts (s : InputState) (parts : List ContentPart) : InputState :=
  let pending := s.pendingAssistant.getD (assistantMessage [])
  { s with pendingAssistant := some { pending with content := pending.content ++ parts } }

def InputState.flushPendingAssistant (s : InputState) : InputState :=
  { s with messages := s.messages ++ s.pendingAssistant.toList, pendingAssistant := none }

/-- The call of a function call item. -/
def callFromInput (floats : FloatReader) (item : Value) : ToolCall where
  id := item.str "call_id"
  name := strOrEmpty item "name"
  arguments := Chat.parseArgs floats (wireArguments item)

/-- The message of a function call output. -/
def outputMessage (item : Value) : IrMessage where
  role := .tool
  content := [.toolResult (item.str "call_id") ((item.get "output").getD .null)]
  toolCallId := item.str "call_id"

/-- One round of the loop over the items. -/
def InputState.addItem (floats : FloatReader) (s : InputState) (item : Value) : InputState :=
  match item.str "type" with
  | some "reasoning" =>
    match reasoningTextFromInputItem item with
    | some text => s.pushAssistantParts [.reasoning text]
    | none => s
  | some "function_call" => s.pushAssistantParts [.toolCall (callFromInput floats item)]
  | some "function_call_output" =>
    let s := s.flushPendingAssistant
    { s with messages := s.messages ++ [outputMessage item] }
  | _ =>
    let message := inputItemToMessage item
    let role := Chat.roleOf item
    if role = "system" ∨ role = "developer" then
      let s := s.flushPendingAssistant
      let text := textFromParts message.content
      if text = "" then s else { s with systemParts := s.systemParts ++ [text] }
    else if role = "assistant" then s.pushAssistantParts message.content
    else
      let s := s.flushPendingAssistant
      { s with messages := s.messages ++ [message] }

/-- `input_to_messages`: the system texts and the messages. -/
def inputToMessages (floats : FloatReader) (input : Value) :
    Except ConvertError (List String × List IrMessage) :=
  match input with
  | .string s => .ok ([], [{ role := .user, content := [.text s] }])
  | .array items =>
    let s := (items.foldl (InputState.addItem floats) {}).flushPendingAssistant
    .ok (s.systemParts, s.messages)
  | _ => .error (.badShape "input" "expected string or array")

/-- The instructions of a request, unless they are empty. -/
def instructionsOf (v : Value) : List String :=
  match v.str "instructions" with
  | some instructions => if instructions = "" then [] else [instructions]
  | none => []

def requestFromValue (floats : FloatReader) (v : Value) : Except ConvertError IrRequest :=
  (bodyObject v).bind fun o =>
    match v.get "input" with
    | none => .error (.missingField "input")
    | some input =>
      (inputToMessages floats input).bind fun read =>
        .ok {
          model := modelOf v
          system := joinSystem (instructionsOf v ++ read.1)
          messages := read.2
          tools := toolsOf v
          toolChoice := (v.get "tool_choice").map Tools.normaliseToolChoice
          sampling :=
            { temperature := (v.get "temperature").bind (asF64 floats)
              topP := (v.get "top_p").bind (asF64 floats)
              maxOutputTokens := (v.get "max_output_tokens" <|> v.get "max_tokens").bind asU64
              stop := v.get "stop" }
          reasoning := v.get "reasoning"
          stream := ((v.get "stream").bind asBool).getD false
          extras := extrasFromObject o requestKeys }

/-- The text or raw part of an input message. -/
def inputPart (textType : String) : ContentPart → Option Value
  | .text text => some (obj [("type", .string textType), ("text", .string text)])
  | .raw value => some value
  | _ => none

/-- The output item of a tool result. -/
def outputItem (msg : IrMessage) : ContentPart → Option Value
  | .toolResult id content =>
    some (obj [("type", .string "function_call_output"),
      ("call_id", .string ((id <|> msg.toolCallId).getD "")),
      ("output", .string (Chat.toolResultText content))])
  | _ => none

def callItem (call : ToolCall) : Value :=
  obj [("type", .string "function_call"), ("call_id", .string (call.id.getD "")),
    ("name", .string call.name), ("arguments", .string (Chat.argsToString call.arguments))]

def messageToResponsesInputItems (msg : IrMessage) : List Value :=
  let items := msg.content.filterMap (outputItem msg)
  if msg.role = .tool ∧ items = [] then
    [obj [("type", .string "function_call_output"), ("call_id", .string (msg.toolCallId.getD "")),
      ("output", .string (textFromParts msg.content))]]
  else
    let role := if items = [] then msg.role else .user
    let textType := if role = .assistant then "output_text" else "input_text"
    let parts := msg.content.filterMap (inputPart textType)
    let calls := (Chat.callsOf msg.content).map callItem
    let message :=
      if parts ≠ [] ∨ (items = [] ∧ calls = [] ∧ msg.role ≠ .assistant) then
        [obj [("role", .string role.asStr), ("content", .array parts)]]
      else []
    items ++ message ++ calls

def normalizeReasoning (reasoning : Option Value) (reasoningEffort : Option String) :
    Option Value :=
  match reasoningEffort with
  | none => reasoning
  | some effort =>
    match reasoning with
    | some (.object o) =>
      some (.object (if BTreeMap.contains o "effort" then o else
        BTreeMap.insert o "effort" (.string effort)))
    | some reasoning => some reasoning
    | none => some (obj [("effort", .string effort)])

def normalizeTextVerbosity (out : BTreeMap String Value) (verbosity : Option Value) :
    BTreeMap String Value :=
  match verbosity with
  | none => out
  | some verbosity =>
    match BTreeMap.get out "text" with
    | some (.object text) =>
      BTreeMap.insert out "text" (.object (if BTreeMap.contains text "verbosity" then text else
        BTreeMap.insert text "verbosity" verbosity))
    | some _ => out
    | none => out.insert "text" (obj [("verbosity", verbosity)])

/-- `request_to_value`, which never fails. -/
def requestToValue (req : IrRequest) : Except ConvertError Value :=
  let out := BTreeMap.insert [] "model" (.string req.model)
  let out := insertOpt out "instructions" (req.system.map Value.string)
  let out := out.insert "input"
    (.array (req.messages.flatMap messageToResponsesInputItems))
  let out := if req.tools = [] then out else
    out.insert "tools" (.array (req.tools.map Tools.toolToResponses))
  let out := insertOpt out "tool_choice" (req.toolChoice.map Tools.toolChoiceToResponses)
  let out := insertOptF64 out "temperature" req.sampling.temperature
  let out := insertOptF64 out "top_p" req.sampling.topP
  let out := insertOptU64 out "max_output_tokens" req.sampling.maxOutputTokens
  let out := insertOpt out "stop" req.sampling.stop
  let out := insertOpt out "reasoning" (normalizeReasoning req.reasoning
    ((req.extras.get "reasoning_effort").bind asStr))
  let out := out.insert "store" ((req.extras.get "store").getD (.bool false))
  let out := if req.stream then out.insert "stream" (.bool true) else out
  let out := fillExtras out
    (req.extras.filter fun e => e.1 != "reasoning_effort" && e.1 != "verbosity")
  .ok (.object (normalizeTextVerbosity out (req.extras.get "verbosity")))

end Responses

/-! ## Conversion -/

def requestFromValue (floats : FloatReader) (source : Endpoint) (body : Value) :
    Except ConvertError IrRequest :=
  match source with
  | .chatCompletions => Chat.requestFromValue floats body
  | .responses => Responses.requestFromValue floats body
  | .messages => Messages.requestFromValue floats body

def requestToValue (target : Endpoint) (req : IrRequest) : Except ConvertError Value :=
  match target with
  | .chatCompletions => Chat.requestToValue req
  | .responses => Responses.requestToValue req
  | .messages => Messages.requestToValue req

def convertRequest (floats : FloatReader) (source target : Endpoint) (body : Value) :
    Except ConvertError Value :=
  if source = target then .ok body
  else (requestFromValue floats source body).bind (requestToValue target)

end Tokn.Convert
