import Tokn.Persistence.Sessions

/-!
# The messages of a request and its response

`crates/persistence/src/sessions/semantic.rs`: the messages that a request body asks with, and those
that a response answers with, whether the response is one JSON value or a stream of events.
-/

namespace Tokn.Persistence

namespace Semantic

def valueBytes (value : Value) : Bytes := Str.utf8Bytes value.toText

def textPart (text : String) : PartRecord where
  partType := "text"
  content := Str.utf8Bytes text

def textMessage (role text : String) : MessageRecord where
  role := role
  status := none
  parts := [textPart text]

def jsonPart (value : Value) : PartRecord where
  partType := (value.str "type").getD "json"
  content := valueBytes value

def partFromValue (value : Value) : PartRecord :=
  match value.str "text" <|> value.str "input_text" <|> value.str "output_text" with
  | some text => textPart text
  | none => jsonPart value

def partsFromValue : Value → List PartRecord
  | .string text => [textPart text]
  | .array parts => parts.map partFromValue
  | .object fields => [partFromValue (.object fields)]
  | _ => []

def structuredMessagePart : Value → PartRecord
  | .object fields =>
    let fields := ((BTreeMap.erase fields "id").erase "status").erase "metadata"
    let emptyContent :=
      match BTreeMap.get fields "content" with
      | some .null => true
      | some (.array []) => true
      | _ => false
    jsonPart (.object (if emptyContent then fields.erase "content" else fields))
  | value => jsonPart value

def messageFromValueWithDefaultRole (value : Value) (defaultRole : String) : Option MessageRecord :=
  value.asObject.map fun fields =>
    let parts := ((fields.get "content").map partsFromValue).getD []
    { role := (value.str "role" <|> value.str "type").getD defaultRole
      status := none
      parts := if parts = [] then [structuredMessagePart value] else parts }

def messageFromValue (value : Value) : Option MessageRecord :=
  messageFromValueWithDefaultRole value "user"

def messageWithRole (role : String) : Value → Option MessageRecord
  | .string text => if text = "" then none else some (textMessage role text)
  | .array parts =>
    if parts = [] then none
    else some { role := role, status := none, parts := partsFromValue (.array parts) }
  | .object fields =>
    some { role := role, status := none, parts := partsFromValue (.object fields) }
  | _ => none

def inputMessages : Value → List MessageRecord
  | .string text => [textMessage "user" text]
  | .array items => items.filterMap messageFromValue
  | .object fields => (messageFromValue (.object fields)).toList
  | _ => []

/-- The messages that `extend_messages` adds. -/
def messagesOf (value : Option Value) : List MessageRecord :=
  ((value.bind Value.asArray).getD []).filterMap messageFromValue

def requestMessagesFromJson (endpoint : String) (value : Value) : List MessageRecord :=
  let instructions :=
    match value.str "instructions" with
    | some text => if text = "" then [] else [textMessage "system" text]
    | none => []
  if endpoint = "chat_completions" ∨ endpoint = "chat/completions" then
    instructions ++ messagesOf (value.get "messages")
  else if endpoint = "responses" then
    instructions ++ ((value.get "input").map inputMessages).getD []
  else if endpoint = "messages" then
    instructions ++ ((value.get "system").bind (messageWithRole "system")).toList ++
      messagesOf (value.get "messages")
  else instructions

/-! ## Responses -/

def assistantMessage (value : Value) : Option MessageRecord :=
  messageFromValueWithDefaultRole value "assistant"

def responseMessagesFromJson (value : Value) : List MessageRecord :=
  let output := (((value.get "output").bind Value.asArray).getD []).filterMap assistantMessage
  let choices := (((value.get "choices").bind Value.asArray).getD []).filterMap fun choice =>
    (choice.get "message" <|> choice.get "delta").bind assistantMessage
  if output ≠ [] then output
  else
    match value.str "output_text" with
    | some text => [textMessage "assistant" text]
    | none =>
      if choices ≠ [] then choices
      else if (value.get "content").isSome then (assistantMessage value).toList
      else []

/-- What the loop of `response_messages_from_sse` has collected. -/
structure SseCapture where
  completed : Option Value := none
  completedItems : BTreeMap Nat Value := []
  deltas : String := ""
  structuredDeltas : List PartRecord := []
  deriving DecidableEq

/-- `parse_sse_event`: the name and the data of an event. -/
def parseSseEvent (event : List Char) : String × String :=
  (Str.lines event).foldl
    (fun parsed line =>
      match Str.stripPrefix "event:" line, Str.stripPrefix "data:" line with
      | some value, _ => (String.ofList (Str.trimChars value), parsed.2)
      | none, some value =>
        (parsed.1, (if parsed.2 = "" then "" else parsed.2 ++ "\n") ++
          String.ofList (Str.trimChars value))
      | none, none => parsed)
    ("", "")

/-- The text and the part of a `delta`. -/
def collectDelta (eventType : String) (capture : SseCapture) (delta : Value) : SseCapture :=
  if eventType = "response.output_text.delta" then
    { capture with deltas := capture.deltas ++ delta.asStr.getD "" }
  else
    { capture with
      deltas := capture.deltas ++ (delta.str "text").getD ""
      structuredDeltas := capture.structuredDeltas ++
        ((delta.str "partial_json").map fun value =>
          ({ partType := "input_json_delta", content := Str.utf8Bytes value } : PartRecord)).toList }

/-- The text and the part of the `delta` of a choice. -/
def collectChoice (capture : SseCapture) (delta : Value) : SseCapture :=
  { capture with
    deltas := capture.deltas ++ (delta.str "content").getD ""
    structuredDeltas := capture.structuredDeltas ++
      if (delta.get "tool_calls").isSome ∨ (delta.get "function_call").isSome then [jsonPart delta]
      else [] }

def collectTextDelta (eventType : String) (capture : SseCapture) (value : Value) : SseCapture :=
  let capture := ((value.get "delta").map (collectDelta eventType capture)).getD capture
  let capture :=
    match value.get "content_block" with
    | some block =>
      if block.str "type" = some "text" then capture
      else { capture with structuredDeltas := capture.structuredDeltas ++ [jsonPart block] }
    | none => capture
  ((((value.get "choices").bind Value.asArray).getD []).filterMap fun choice =>
    choice.get "delta").foldl collectChoice capture

def messageFromDeltas (text : String) (structured : List PartRecord) : List MessageRecord :=
  if text = "" ∧ structured = [] then []
  else
    [{ role := "assistant"
       status := none
       parts := (if text = "" then [] else [textPart text]) ++ structured }]

section

variable (fromStr : String → Option Value)

/-- One event of the loop of `response_messages_from_sse`. -/
def captureEvent (capture : SseCapture) (event : List Char) : SseCapture :=
  let parsed := parseSseEvent event
  if parsed.2 = "" ∨ parsed.2 = "[DONE]" then capture
  else
    match fromStr parsed.2 with
    | none => capture
    | some value =>
      let eventType := (value.str "type").getD parsed.1
      if eventType = "response.completed" then
        { capture with completed := value.get "response" <|> some value }
      else if eventType = "response.output_item.done" then
        match value.get "item" with
        | some item =>
          let index := (value.u64 "output_index").getD capture.completedItems.length
          { capture with completedItems := capture.completedItems.insert index item }
        | none => capture
      else collectTextDelta eventType capture value

def responseMessagesFromSse (text : List Char) : List MessageRecord :=
  let capture := (Str.splitBlank text).foldl (captureEvent fromStr) {}
  let completed := (capture.completed.map responseMessagesFromJson).getD []
  let items := capture.completedItems.filterMap fun entry => assistantMessage entry.2
  if completed ≠ [] then completed
  else if items ≠ [] then items
  else messageFromDeltas capture.deltas capture.structuredDeltas

/-- `response_messages_from_body`; `fromSlice` is the parser for bytes. -/
def responseMessagesFromBody (fromSlice : Bytes → Option Value) (body : Bytes) :
    List MessageRecord :=
  if body = [] then []
  else
    match fromSlice body with
    | some value => responseMessagesFromJson value
    | none =>
      match String.fromUTF8? ⟨body.toArray⟩ with
      | some text => responseMessagesFromSse fromStr text.toList
      | none => []

end

example :
    requestMessagesFromJson "responses"
      (.obj [("instructions", .string "be concise"), ("input", .string "hello")]) =
      [textMessage "system" "be concise", textMessage "user" "hello"] := by
  decide +kernel

end Semantic

end Tokn.Persistence
