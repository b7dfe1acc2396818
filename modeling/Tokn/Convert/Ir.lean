import Tokn.Lib.Json

/-!
# The endpoint-neutral representation

`crates/convert/src/ir.rs`: the deltas every upstream stream is decoded into, the response they
accumulate to, and token usage. A buffered response is a fold of `IrResponse.pushDelta` over the
deltas of its stream; a streamed one hands the same deltas to an emitter.
-/

namespace Tokn.Convert

/-- The three wire protocols. -/
inductive Endpoint where
  | chatCompletions
  | responses
  | messages
  deriving DecidableEq

/-- `ConvertError`, without the variants that no modelled function returns. -/
inductive ConvertError where
  | missingField (field : String)
  | badShape (field message : String)
  | sse (message : String)
  deriving DecidableEq

inductive Role where
  | system
  | user
  | assistant
  | tool
  | other (name : String)
  deriving DecidableEq

/-- `Role::from_wire`. -/
def Role.fromWire : String → Role
  | "system" => .system
  | "user" => .user
  | "assistant" => .assistant
  | "tool" => .tool
  | name => .other name

def Role.asStr : Role → String
  | .system => "system"
  | .user => "user"
  | .assistant => "assistant"
  | .tool => "tool"
  | .other s => s

structure ToolCall where
  id : Option String
  name : String
  arguments : Value
  deriving DecidableEq

instance : Inhabited ToolCall := ⟨⟨none, "", .null⟩⟩

inductive ContentPart where
  | text (text : String)
  | reasoning (text : String)
  | toolCall (call : ToolCall)
  | toolResult (id : Option String) (content : Value)
  | raw (value : Value)
  deriving DecidableEq

/-! ## Usage -/

structure Usage where
  inputTokens : Option Nat := none
  outputTokens : Option Nat := none
  totalTokens : Option Nat := none
  inputTokensDetails : Option Value := none
  outputTokensDetails : Option Value := none
  extras : BTreeMap String Value := []
  deriving DecidableEq

/-- `Usage::merge`: the fields the update has replace those of the usage. -/
def Usage.merge (u update : Usage) : Usage where
  inputTokens := update.inputTokens <|> u.inputTokens
  outputTokens := update.outputTokens <|> u.outputTokens
  totalTokens := update.totalTokens <|> u.totalTokens
  inputTokensDetails := update.inputTokensDetails <|> u.inputTokensDetails
  outputTokensDetails := update.outputTokensDetails <|> u.outputTokensDetails
  extras := u.extras.extend update.extras

/-- Merge into a usage that may not have been seen yet. -/
def mergeUsage (current : Option Usage) (update : Usage) : Usage :=
  match current with
  | some u => u.merge update
  | none => update

/-- `extras_from_object`: the entries whose key is not a known one. -/
def extrasFromObject (o : BTreeMap String Value) (known : List String) : BTreeMap String Value :=
  o.filter fun e => !known.contains e.1

/-- The top-level usage keys that have a field of their own. -/
def openaiUsageKeys : List String :=
  ["prompt_tokens", "completion_tokens", "input_tokens", "output_tokens", "total_tokens",
    "prompt_tokens_details", "completion_tokens_details", "input_tokens_details",
    "output_tokens_details"]

/-- `usage_from_openai`. -/
def usageFromOpenai (v : Value) : Option Usage :=
  (v.get "usage").map fun u =>
    { inputTokens := (u.get "prompt_tokens" <|> u.get "input_tokens").bind Value.asU64
      outputTokens := (u.get "completion_tokens" <|> u.get "output_tokens").bind Value.asU64
      totalTokens := u.u64 "total_tokens"
      inputTokensDetails := u.get "input_tokens_details" <|> u.get "prompt_tokens_details"
      outputTokensDetails := u.get "output_tokens_details" <|> u.get "completion_tokens_details"
      extras := (u.asObject.map fun o => extrasFromObject o openaiUsageKeys).getD [] }

/-- `u64` addition, which wraps in a release build. -/
def u64Add (a b : Nat) : Nat := (a + b) % 2 ^ 64

/-- The common body of `usage_to_chat` and `usage_to_io`, which differ in their keys. -/
def usageToObject (input output inputDetails outputDetails : String) (u : Usage) : Value :=
  let v := BTreeMap.extend [] u.extras
  let v := v.insert input (.nat (u.inputTokens.getD 0))
  let v := v.insert output (.nat (u.outputTokens.getD 0))
  let v := v.insert "total_tokens"
    (.nat (u.totalTokens.getD (u64Add (u.inputTokens.getD 0) (u.outputTokens.getD 0))))
  let v := match u.inputTokensDetails with
    | some details => BTreeMap.insert v inputDetails details
    | none => v
  let v := match u.outputTokensDetails with
    | some details => BTreeMap.insert v outputDetails details
    | none => v
  .object v

def usageToChat (u : Usage) : Value :=
  usageToObject "prompt_tokens" "completion_tokens" "prompt_tokens_details"
    "completion_tokens_details" u

def usageToIo (u : Usage) : Value :=
  usageToObject "input_tokens" "output_tokens" "input_tokens_details" "output_tokens_details" u

/-! ## Deltas -/

/-- `responses_completion_status`: the Responses status of a finish reason, and the reason an
incomplete response gives. -/
def responsesCompletionStatus : Option String → String × Option String
  | some "length" | some "max_tokens" | some "max_output_tokens" =>
    ("incomplete", some "max_output_tokens")
  | some "content_filter" => ("incomplete", some "content_filter")
  | some "failed" | some "error" => ("failed", none)
  | some "cancelled" => ("cancelled", none)
  | _ => ("completed", none)

/-- The status and the reason that a response shows. -/
def responseOutcome (response : Value) : Option (String × Option String) :=
  (response.str "status").map fun status =>
    (status, (response.get "incomplete_details").bind fun details => details.str "reason")

inductive IrDelta where
  | text (text : String)
  | reasoning (text : String)
  | toolCall (index : Nat) (id name : Option String) (argumentsDelta : String)
  | usage (usage : Usage)
  | finish (reason : Option String)
  deriving DecidableEq

/-- `matches!(delta, IrDelta::Finish(_))`. -/
def IrDelta.isFinish : IrDelta → Bool
  | .finish _ => true
  | .text _ | .reasoning _ | .toolCall .. | .usage _ => false

/-- The text a delta carries. -/
def IrDelta.textOf : IrDelta → String
  | .text s => s
  | .reasoning _ | .toolCall .. | .usage _ | .finish _ => ""

section

variable (s : String) (index : Nat) (id name reason : Option String) (usage : Usage)

@[simp] theorem isFinish_text : (IrDelta.text s).isFinish = false := rfl
@[simp] theorem isFinish_reasoning : (IrDelta.reasoning s).isFinish = false := rfl
@[simp] theorem isFinish_toolCall : (IrDelta.toolCall index id name s).isFinish = false := rfl
@[simp] theorem isFinish_usage : (IrDelta.usage usage).isFinish = false := rfl
@[simp] theorem isFinish_finish : (IrDelta.finish reason).isFinish = true := rfl

@[simp] theorem textOf_text : (IrDelta.text s).textOf = s := rfl
@[simp] theorem textOf_reasoning : (IrDelta.reasoning s).textOf = "" := rfl
@[simp] theorem textOf_toolCall : (IrDelta.toolCall index id name s).textOf = "" := rfl
@[simp] theorem textOf_usage : (IrDelta.usage usage).textOf = "" := rfl
@[simp] theorem textOf_finish : (IrDelta.finish reason).textOf = "" := rfl

end

/-! ## Responses -/

structure IrResponse where
  id : Option String := none
  model : Option String := none
  role : Option Role := none
  content : List ContentPart := []
  toolCalls : List ToolCall := []
  usage : Option Usage := none
  finishReason : Option String := none
  extras : BTreeMap String Value := []
  deriving DecidableEq

/-- `push_text_part`: text goes into a last part that is text already. -/
def pushTextPart (parts : List ContentPart) (text : String) : List ContentPart :=
  if text = "" then parts
  else match parts.getLast? with
    | some (.text existing) => parts.dropLast ++ [.text (existing ++ text)]
    | _ => parts ++ [.text text]

/-- `push_reasoning_part`. -/
def pushReasoningPart (parts : List ContentPart) (text : String) : List ContentPart :=
  if text = "" then parts
  else match parts.getLast? with
    | some (.reasoning existing) => parts.dropLast ++ [.reasoning (existing ++ text)]
    | _ => parts ++ [.reasoning text]

/-- A call after one more fragment of it. -/
def ToolCall.push (call : ToolCall) (id name : Option String) (argumentsDelta : String) :
    ToolCall where
  id := id <|> call.id
  name := name.getD call.name
  arguments := .string (call.arguments.asStr.getD "" ++ argumentsDelta)

/-- `IrResponse::push_delta`. The calls are padded with default ones up to the index. -/
def IrResponse.pushDelta (r : IrResponse) : IrDelta → IrResponse
  | .text text => { r with content := pushTextPart r.content text }
  | .reasoning text => { r with content := pushReasoningPart r.content text }
  | .toolCall index id name argumentsDelta =>
    let calls := r.toolCalls ++ List.replicate (index + 1 - r.toolCalls.length) default
    { r with toolCalls := calls.modify index fun call => call.push id name argumentsDelta }
  | .usage u => { r with usage := some (mergeUsage r.usage u) }
  | .finish reason => { r with finishReason := reason }

/-- `text_from_parts`. -/
def textFromParts (parts : List ContentPart) : String :=
  String.join (parts.filterMap fun
    | .text s => some s
    | _ => none)

/-- `reasoning_from_parts`. -/
def reasoningFromParts (parts : List ContentPart) : Option String :=
  let text := String.join (parts.filterMap fun
    | .reasoning s => some s
    | _ => none)
  if text = "" then none else some text

end Tokn.Convert
