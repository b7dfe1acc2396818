import Tokn.Convert.Request
import Tokn.Lib.Stateful

/-!
# Lowering generation controls

The typed controls of a request (`crates/core/src/generation.rs`) and what becomes of them
(`crates/requests/src/stages/convert_request/generation.rs`). They are written into the body after
it has been converted, when the provider and its endpoint are known, and a control that has no place
there is an error.

The body is changed in place, so what was written before an error stays written.
-/

namespace Tokn.Requests.Generation

open Value JsonText
open Tokn.Convert (Endpoint insertOpt)
open Stateful (reading updating)

/-! ## Controls -/

inductive ReasoningMode where
  | enabled
  | disabled
  | adaptive
  deriving DecidableEq

inductive ReasoningEffort where
  | minimal
  | low
  | medium
  | high
  | xHigh
  | max
  | custom (value : String)
  deriving DecidableEq

def ReasoningEffort.asStr : ReasoningEffort → String
  | .minimal => "minimal"
  | .low => "low"
  | .medium => "medium"
  | .high => "high"
  | .xHigh => "xhigh"
  | .max => "max"
  | .custom value => value

inductive ReasoningSummary where
  | auto
  | concise
  | detailed
  | custom (value : String)
  deriving DecidableEq

def ReasoningSummary.asStr : ReasoningSummary → String
  | .auto => "auto"
  | .concise => "concise"
  | .detailed => "detailed"
  | .custom value => value

structure ReasoningOptions where
  mode : Option ReasoningMode := none
  effort : Option ReasoningEffort := none
  budgetTokens : Option Nat := none
  summary : Option ReasoningSummary := none
  deriving DecidableEq

def ReasoningOptions.isEmpty (r : ReasoningOptions) : Bool :=
  r.mode.isNone && r.effort.isNone && r.budgetTokens.isNone && r.summary.isNone

structure GenerationOptions where
  maxOutputTokens : Option Nat := none
  topK : Option Nat := none
  reasoning : Option ReasoningOptions := none
  deriving DecidableEq

def GenerationOptions.isEmpty (options : GenerationOptions) : Bool :=
  options.maxOutputTokens.isNone && options.topK.isNone && options.reasoning.isNone

inductive GenerationOptionsError where
  | invalidMaxOutputTokens
  | emptyReasoningOptions
  | invalidReasoningBudget
  | disabledReasoningControls
  | adaptiveReasoningBudget
  | blankReasoningEffort
  | blankReasoningSummary
  deriving DecidableEq

def ReasoningOptions.validate (r : ReasoningOptions) : Except GenerationOptionsError Unit :=
  if r.isEmpty then .error .emptyReasoningOptions
  else if r.budgetTokens = some 0 then .error .invalidReasoningBudget
  else if r.mode = some .disabled ∧
      (r.effort.isSome ∨ r.budgetTokens.isSome ∨ r.summary.isSome) then
    .error .disabledReasoningControls
  else if r.mode = some .adaptive ∧ r.budgetTokens.isSome then .error .adaptiveReasoningBudget
  else if r.effort.any fun
      | .custom value => Str.trim value = ""
      | _ => false then .error .blankReasoningEffort
  else if r.summary.any fun
      | .custom value => Str.trim value = ""
      | _ => false then .error .blankReasoningSummary
  else .ok ()

def GenerationOptions.validate (options : GenerationOptions) :
    Except GenerationOptionsError Unit :=
  if options.maxOutputTokens = some 0 then .error .invalidMaxOutputTokens
  else match options.reasoning with
    | some r => r.validate
    | none => .ok ()

/-! ## Errors -/

/-- `RequestsError::UnsupportedGenerationControl`. -/
structure Unsupported where
  control : String
  providerId : String
  endpoint : Endpoint
  reason : String
  deriving DecidableEq

def unsupported {α : Type} (control providerId : String) (endpoint : Endpoint) (reason : String) :
    Except Unsupported α :=
  .error ⟨control, providerId, endpoint, reason⟩

/-- A part of the lowering: it changes the fields of the body and may stop. -/
abbrev Lowering := Stateful (BTreeMap String Value) Unsupported Unit

def rejectIf (rejected : Bool) (control providerId : String) (endpoint : Endpoint)
    (reason : String) : Except Unsupported Unit :=
  if rejected then unsupported control providerId endpoint reason else .ok ()

def rejectMode (r : ReasoningOptions) (providerId : String) (endpoint : Endpoint)
    (rejected : List ReasoningMode) (reason : String) : Except Unsupported Unit :=
  rejectIf (r.mode.any (· ∈ rejected)) "reasoning.mode" providerId endpoint reason

def rejectPresent {α : Type} (value : Option α) (control providerId : String)
    (endpoint : Endpoint) (reason : String) : Except Unsupported Unit :=
  rejectIf value.isSome control providerId endpoint reason

/-! ## Fields -/

def removeFields (o : BTreeMap String Value) (fields : List String) : BTreeMap String Value :=
  fields.foldl BTreeMap.erase o

/-- `object_field`, and what becomes of the object. -/
def objectField (o : BTreeMap String Value) (field : String)
    (f : BTreeMap String Value → BTreeMap String Value) : BTreeMap String Value :=
  o.insert field (.object (f (((o.get field).bind asObject).getD [])))

def reasoningModeStr : ReasoningMode → String
  | .enabled => "enabled"
  | .disabled => "disabled"
  | .adaptive => "adaptive"

def effortValue (effort : ReasoningEffort) : Value := .string effort.asStr

/-! ## Providers -/

def ID_GITHUB_COPILOT : String := "github-copilot"
def ID_DEEPSEEK : String := "deepseek"
def ID_LLAMA_CPP : String := "llama-cpp"
def ID_OPENAI : String := "openai"
def ID_CODEX : String := "codex"

def ZAI_PROVIDERS : List String := ["zai-coding-plan", "zai", "zhipuai-coding-plan", "zhipuai"]

/-! ## Models -/

def normalizeClaudeModel (model : String) : String :=
  String.ofList ((Ascii.lower model.toList).map fun c => if c = '.' ∨ c = '_' then '-' else c)

def startsWith (s start : String) : Bool := start.toList.isPrefixOf s.toList

def containsStr (s part : String) : Bool := decide (part.toList <:+: s.toList)

def isClaudeModel (model : String) : Bool := startsWith (normalizeClaudeModel model) "claude-"

inductive ClaudeThinkingSupport where
  | manualOnly
  | adaptiveAndManual
  | adaptiveOnly
  | unknown
  deriving DecidableEq

def claudeThinkingSupport (model : String) : ClaudeThinkingSupport :=
  let model := normalizeClaudeModel model
  if ["mythos-preview", "-4-6"].any (containsStr model) then .adaptiveAndManual
  else if ["-4-7", "-4-8", "claude-sonnet-5", "claude-opus-5", "claude-fable-5",
      "claude-mythos-5"].any (containsStr model) then .adaptiveOnly
  else if ["-4-5", "-4-1", "-4-0", "claude-opus-41"].any (containsStr model) ||
      model == "claude-sonnet-4" || startsWith model "claude-sonnet-4-20" ||
      containsStr model "claude-3-7" then .manualOnly
  else .unknown

def claudeRejectsDisabledReasoning (model : String) : Bool :=
  ["claude-fable-5", "claude-mythos-5", "mythos-preview"].any
    (containsStr (normalizeClaudeModel model))

def claudeRejectsSamplingControls (model : String) : Bool :=
  ["claude-fable-5", "claude-mythos-5", "mythos-preview", "claude-opus-4-7", "claude-opus-4-8",
    "claude-opus-5", "claude-sonnet-5"].any (containsStr (normalizeClaudeModel model))

/-! ## The token limit -/

def usesMaxCompletionTokens (providerId model : String) : Bool :=
  providerId = ID_OPENAI || (providerId = ID_GITHUB_COPILOT &&
    ["gpt-5", "o1", "o3", "o4"].any fun start =>
      start.toList.isPrefixOf (Ascii.lower model.toList))

def lowerMaxOutputTokens (endpoint : Endpoint) (providerId model : String)
    (maxOutputTokens : Nat) : Lowering :=
  match endpoint with
  | .responses =>
    if providerId = ID_CODEX then
      reading fun _ => unsupported "max_output_tokens" providerId endpoint
        "the Codex Responses backend removes explicit output-token limits"
    else updating fun o =>
      BTreeMap.insert (removeFields o ["max_tokens", "max_completion_tokens"])
        "max_output_tokens" (nat maxOutputTokens)
  | .chatCompletions =>
    if usesMaxCompletionTokens providerId model then updating fun o =>
      BTreeMap.insert (removeFields o ["max_tokens", "max_output_tokens"])
        "max_completion_tokens" (nat maxOutputTokens)
    else updating fun o =>
      BTreeMap.insert (removeFields o ["max_output_tokens", "max_completion_tokens"])
        "max_tokens" (nat maxOutputTokens)
  | .messages => updating fun o =>
    BTreeMap.insert (removeFields o ["max_output_tokens", "max_completion_tokens"])
      "max_tokens" (nat maxOutputTokens)

/-! ## Sampling -/

def lowerTopK (endpoint : Endpoint) (providerId : String) (topK : Nat) : Lowering :=
  if providerId = ID_LLAMA_CPP ∧ endpoint = .chatCompletions then
    updating fun o => o.insert "top_k" (nat topK)
  else reading fun _ => unsupported "top_k" providerId endpoint
    "typed top_k is currently supported only for llama.cpp Chat Completions routes"

/-- The decimal that a literal denotes. -/
def decimal (l : Literal) : ℚ :=
  let places := l.fraction.length - 1
  let digits := Nat.ofDigitChars 10 (l.whole ++ l.fraction.drop 1) 0
  let exponent : Int := match l.exponent.drop 1 with
    | '-' :: ds => -(Nat.ofDigitChars 10 ds 0)
    | '+' :: ds => Nat.ofDigitChars 10 ds 0
    | ds => Nat.ofDigitChars 10 ds 0
  (if l.negative then -1 else 1) * digits * 10 ^ (exponent - places)

/-- `as_f64`, as the decimal that prints the double. Doubles are ordered as these decimals are, and
an integer that is rounded to a double does not pass 1. -/
def asF64 : Value → Option ℚ
  | .number (.posInt n) => some n
  | .number (.negInt n) => some n
  | .number (.float text) => (readLiteral text.toList).map fun l => decimal l.1
  | _ => none

/-- Whether a field is there and something other than 1. -/
def isNotOne (o : BTreeMap String Value) (field : String) : Bool :=
  (o.get field).any fun value => asF64 value ≠ some 1

/-- Whether `top_p` is there and not between 0.95 and 1. -/
def isTopPOutside (o : BTreeMap String Value) : Bool :=
  (o.get "top_p").any fun value =>
    (asF64 value).all fun topP => ¬ (95 / 100 ≤ topP ∧ topP ≤ 1)

def validateClaudeSampling (o : BTreeMap String Value) (endpoint : Endpoint)
    (providerId model : String) (thinkingEnabled : Bool) : Except Unsupported Unit :=
  if claudeRejectsSamplingControls model then
    if isNotOne o "temperature" then
      unsupported "temperature" providerId endpoint
        "this Claude model rejects non-default sampling controls"
    else if o.contains "top_p" then
      unsupported "top_p" providerId endpoint
        "this Claude model rejects non-default sampling controls"
    else .ok ()
  else if !thinkingEnabled then .ok ()
  else if isNotOne o "temperature" then
    unsupported "temperature" providerId endpoint
      "Claude requires temperature to be omitted or set to 1 while thinking is enabled"
  else if isTopPOutside o then
    unsupported "top_p" providerId endpoint
      "Claude requires top_p to be between 0.95 and 1 while thinking is enabled"
  else .ok ()

/-! ## Reasoning -/

/-- What is written for the Responses API. -/
def writeResponsesReasoning (r : ReasoningOptions) (o : BTreeMap String Value) :
    BTreeMap String Value :=
  if r.effort = none ∧ r.summary = none ∧ r.mode = none then o
  else objectField o "reasoning" fun target =>
    let target := removeFields target ["mode", "budget_tokens"]
    let target := insertOpt target "effort" (r.effort.map effortValue)
    let target := if r.mode = some .disabled then
        target.insert "effort" (.string "none") else target
    insertOpt target "summary" (r.summary.map fun summary => .string summary.asStr)

def lowerResponsesReasoning (providerId : String) (r : ReasoningOptions) : Lowering := do
  reading fun _ => rejectMode r providerId .responses [.enabled, .adaptive]
    "Responses reasoning is controlled by effort rather than an enabled or adaptive mode"
  reading fun _ => rejectPresent r.budgetTokens "reasoning.budget_tokens" providerId .responses
    "the Responses API does not accept an explicit reasoning token budget"
  updating (writeResponsesReasoning r)

def writeDeepseekReasoning (endpoint : Endpoint) (r : ReasoningOptions)
    (o : BTreeMap String Value) : BTreeMap String Value :=
  if r.mode = none ∧ r.effort = none then o
  else
    let o := objectField (o.erase "reasoning") "thinking" fun thinking =>
      let thinking := removeFields thinking ["mode", "budget_tokens", "summary"]
      let thinking := insertOpt thinking "type"
        (r.mode.map fun mode => .string (reasoningModeStr mode))
      insertOpt thinking "effort" (r.effort.map effortValue)
    match r.effort with
    | none => o
    | some effort =>
      if endpoint = .messages then objectField o "output_config" fun config =>
        config.insert "effort" (effortValue effort)
      else o.insert "reasoning_effort" (effortValue effort)

/-- Whether DeepSeek thinks, and ignores the sampling controls. -/
def deepseekThinkingEnabled (r : ReasoningOptions) : Bool :=
  r.mode ≠ some .disabled && (r.mode = some .enabled || r.effort.isSome)

def lowerDeepseekReasoning (endpoint : Endpoint) (providerId : String) (r : ReasoningOptions) :
    Lowering :=
  if endpoint = .responses then
    reading fun _ => unsupported "reasoning" providerId endpoint
      "DeepSeek reasoning lowering supports only Chat Completions and Messages"
  else do
    reading fun _ => rejectMode r providerId endpoint [.adaptive]
      "DeepSeek does not support adaptive reasoning"
    reading fun _ => rejectPresent r.budgetTokens "reasoning.budget_tokens" providerId endpoint
      "DeepSeek does not accept an explicit reasoning token budget"
    reading fun _ => rejectPresent r.summary "reasoning.summary" providerId endpoint
      "DeepSeek does not support reasoning summaries"
    reading fun o => if deepseekThinkingEnabled r then
        rejectPresent (o.get "temperature") "temperature" providerId endpoint
          "DeepSeek ignores temperature while thinking is enabled"
      else .ok ()
    reading fun o => if deepseekThinkingEnabled r then
        rejectPresent (o.get "top_p") "top_p" providerId endpoint
          "DeepSeek ignores top_p while thinking is enabled"
      else .ok ()
    updating (writeDeepseekReasoning endpoint r)

/-- What is written for Z.AI. -/
def writeZaiReasoning (r : ReasoningOptions) (o : BTreeMap String Value) : BTreeMap String Value :=
  match r.mode with
  | none => o
  | some mode =>
    objectField (o.erase "reasoning") "thinking" fun thinking =>
      let thinking := thinking.insert "type" (.string (reasoningModeStr mode))
      if mode = .enabled then thinking.insert "clear_thinking" (.bool false)
      else thinking.erase "clear_thinking"

def lowerZaiReasoning (providerId : String) (r : ReasoningOptions) : Lowering := do
  reading fun _ => rejectMode r providerId .chatCompletions [.adaptive]
    "Z.AI does not support adaptive reasoning"
  reading fun _ => rejectPresent r.effort "reasoning.effort" providerId .chatCompletions
    "Z.AI exposes an enabled or disabled thinking mode, not reasoning effort"
  reading fun _ => rejectPresent r.budgetTokens "reasoning.budget_tokens" providerId
    .chatCompletions "Z.AI does not accept an explicit reasoning token budget"
  reading fun _ => rejectPresent r.summary "reasoning.summary" providerId .chatCompletions
    "Z.AI does not support reasoning summaries"
  updating (writeZaiReasoning r)

/-- Whether the options ask for a token budget. -/
def isManual (r : ReasoningOptions) : Bool := r.mode = some .enabled || r.budgetTokens.isSome

/-- The part of `validate_claude_reasoning` for manual reasoning. -/
def validateClaudeBudget (o : BTreeMap String Value) (endpoint : Endpoint)
    (providerId model : String) (r : ReasoningOptions) : Except Unsupported Unit :=
  if !isManual r then .ok ()
  else match r.budgetTokens with
    | none =>
      unsupported "reasoning.budget_tokens" providerId endpoint
        "manual Claude reasoning requires an explicit token budget"
    | some budgetTokens =>
      if budgetTokens < 1024 then
        unsupported "reasoning.budget_tokens" providerId endpoint
          "manual Claude reasoning requires a budget of at least 1024 tokens"
      else if claudeThinkingSupport model = .adaptiveOnly then
        unsupported "reasoning.mode" providerId endpoint
          "this Claude model supports adaptive reasoning instead of manual token budgets"
      else match (o.get "max_tokens").bind asU64 with
        | none =>
          unsupported "max_output_tokens" providerId endpoint
            "manual Claude reasoning requires an explicit max_tokens limit"
        | some maxTokens =>
          rejectIf (maxTokens ≤ budgetTokens) "reasoning.budget_tokens" providerId endpoint
            "manual Claude reasoning requires budget_tokens to be less than max_tokens"

def validateClaudeReasoning (o : BTreeMap String Value) (endpoint : Endpoint)
    (providerId model : String) (r : ReasoningOptions) : Except Unsupported Unit := do
  rejectIf (r.mode = some .disabled && claudeRejectsDisabledReasoning model)
    "reasoning.mode" providerId endpoint
    "this Claude model has adaptive reasoning enabled by default and does not support disabling it"
  validateClaudeBudget o endpoint providerId model r
  rejectIf (r.mode = some .adaptive && claudeThinkingSupport model = .manualOnly)
    "reasoning.mode" providerId endpoint
    "this Claude model supports manual reasoning budgets, not adaptive reasoning"
  validateClaudeSampling o endpoint providerId model
    (isManual r || r.mode = some .adaptive)

/-- The fields of other dialects, which are taken out first. -/
def stripReasoning (r : ReasoningOptions) (o : BTreeMap String Value) : BTreeMap String Value :=
  let o := if r.isEmpty then o else o.erase "reasoning"
  match (o.get "thinking").bind asObject with
  | none => o
  | some thinking =>
    let thinking := removeFields thinking ["mode", "effort", "summary"]
    let thinking := if r.mode = some .adaptive ∨ r.mode = some .disabled then
        thinking.erase "budget_tokens" else thinking
    o.insert "thinking" (.object thinking)

/-- What is written after the mode: the effort. An empty `thinking` is taken out. -/
def finishReasoning (r : ReasoningOptions) (o : BTreeMap String Value) : BTreeMap String Value :=
  let o := match r.effort with
    | none => o
    | some effort => objectField o "output_config" fun config =>
      config.insert "effort" (effortValue effort)
  if (o.get "thinking").bind asObject = some [] then o.erase "thinking" else o

/-- The match on the mode. -/
def writeClaudeMode (endpoint : Endpoint) (providerId : String) (r : ReasoningOptions) :
    Lowering :=
  match r.mode with
  | some .enabled => updating fun o => objectField o "thinking" fun thinking =>
    insertOpt (thinking.insert "type" (.string "enabled")) "budget_tokens"
      (r.budgetTokens.map nat)
  | some .adaptive => do
    reading fun _ => rejectPresent r.budgetTokens "reasoning.budget_tokens" providerId endpoint
      "adaptive reasoning does not accept a fixed token budget"
    updating fun o => objectField o "thinking" fun thinking =>
      thinking.insert "type" (.string "adaptive")
  | some .disabled => do
    reading fun _ => rejectPresent r.budgetTokens "reasoning.budget_tokens" providerId endpoint
      "disabled reasoning cannot have a token budget"
    updating fun o => objectField o "thinking" fun thinking =>
      thinking.insert "type" (.string "disabled")
  | none =>
    match r.budgetTokens with
    | some budgetTokens => updating fun o => objectField o "thinking" fun thinking =>
      (BTreeMap.insert thinking "type" (.string "enabled")).insert "budget_tokens"
        (nat budgetTokens)
    | none => pure ()

def lowerClaudeReasoning (endpoint : Endpoint) (providerId model : String)
    (r : ReasoningOptions) : Lowering := do
  reading fun _ => rejectPresent r.summary "reasoning.summary" providerId endpoint
    "Claude-compatible reasoning does not support summaries"
  reading fun o => validateClaudeReasoning o endpoint providerId model r
  updating (stripReasoning r)
  writeClaudeMode endpoint providerId r
  updating (finishReasoning r)

/-- What is written for the other Chat Completions providers. -/
def writeChatReasoning (r : ReasoningOptions) (o : BTreeMap String Value) :
    BTreeMap String Value :=
  let o := if r.effort.isSome ∨ r.mode = some .disabled then
      removeFields o ["reasoning", "thinking"] else o
  let o := insertOpt o "reasoning_effort" (r.effort.map effortValue)
  if r.mode = some .disabled then o.insert "reasoning_effort" (.string "none") else o

def lowerChatReasoning (providerId model : String) (r : ReasoningOptions) : Lowering :=
  if providerId = ID_LLAMA_CPP then
    reading fun _ => unsupported "reasoning" providerId .chatCompletions
      "llama.cpp has no portable reasoning control"
  else if providerId = ID_DEEPSEEK then lowerDeepseekReasoning .chatCompletions providerId r
  else if providerId ∈ ZAI_PROVIDERS then lowerZaiReasoning providerId r
  else if providerId = ID_GITHUB_COPILOT ∧ isClaudeModel model then
    lowerClaudeReasoning .chatCompletions providerId model r
  else do
    reading fun _ => rejectMode r providerId .chatCompletions [.enabled, .adaptive]
      "Chat Completions accepts reasoning effort but not an enabled or adaptive mode"
    reading fun _ => rejectPresent r.budgetTokens "reasoning.budget_tokens" providerId
      .chatCompletions "Chat Completions does not accept an explicit reasoning token budget"
    reading fun _ => rejectPresent r.summary "reasoning.summary" providerId .chatCompletions
      "Chat Completions does not support reasoning summaries"
    updating (writeChatReasoning r)

def lowerMessagesReasoning (providerId model : String) (r : ReasoningOptions) : Lowering :=
  if providerId = ID_DEEPSEEK then lowerDeepseekReasoning .messages providerId r
  else lowerClaudeReasoning .messages providerId model r

def lowerReasoning (endpoint : Endpoint) (providerId model : String) (r : ReasoningOptions) :
    Lowering :=
  match endpoint with
  | .responses => lowerResponsesReasoning providerId r
  | .chatCompletions => lowerChatReasoning providerId model r
  | .messages => lowerMessagesReasoning providerId model r

/-! ## All controls -/

/-- The lowering of a control, if it is requested. -/
def whenSome {α : Type} (lower : α → Lowering) : Option α → Lowering
  | none => pure ()
  | some a => lower a

/-- The part of `lower_generation_options` that works on the fields of the body. -/
def lowerFields (endpoint : Endpoint) (providerId model : String) (options : GenerationOptions) :
    Lowering := do
  whenSome (lowerMaxOutputTokens endpoint providerId model) options.maxOutputTokens
  whenSome (lowerTopK endpoint providerId) options.topK
  whenSome (lowerReasoning endpoint providerId model) options.reasoning

/-- The control that is reported where the body is no object. -/
def firstControl (options : GenerationOptions) : String :=
  if options.maxOutputTokens.isSome then "max_output_tokens"
  else if options.topK.isSome then "top_k"
  else "reasoning"

/-- `lower_generation_options`: its result, and the body it leaves. -/
def lowerGenerationOptions (endpoint : Endpoint) (providerId model : String)
    (options : GenerationOptions) (body : Value) : Except Unsupported Unit × Value :=
  if options.isEmpty then (.ok (), body)
  else match body with
    | .object o =>
      let out := (lowerFields endpoint providerId model options).outcome o
      (out.1, .object out.2)
    | body =>
      (unsupported (firstControl options) providerId endpoint
        "typed generation controls require a JSON object request body", body)

end Tokn.Requests.Generation
