import Tokn.Requests.Generation
import Tokn.Lib.Except

/-!
# What a failed lowering leaves

The controls are lowered one after the other: the token limit, `top_k`, and reasoning. Each of them
rejects before it writes, but for a token budget next to a mode that has none, and what an earlier
one wrote stays when a later one rejects.

**Theorem (`keepsBody_iff`).** A lowering that fails leaves the body as it was iff none of its writes
before the failure changes anything.
-/

namespace Tokn.Requests.Generation

open Value JsonText
open Tokn.Convert (Endpoint insertOpt get_insertOpt)
open Stateful (reading updating Fails Atomic Keeps atomicAt_iff_of_error atomicAt_of_ok
  atomic_reading_bind atomic_updating fails_reading_bind outcome_bind)
open BTreeMap (get_erase get_insert)

variable {endpoint : Endpoint} {providerId model : String} {options : GenerationOptions}
  {r : ReasoningOptions} {o : BTreeMap String Value} {maxTokens : Option Nat}

/-! ## Rejections -/

@[simp] theorem exists_unsupported {α : Type} (control providerId : String) (endpoint : Endpoint)
    (reason : String) :
    ∃ e, (unsupported control providerId endpoint reason : Except Unsupported α) = .error e :=
  ⟨_, rfl⟩

@[simp] theorem rejectIf_eq_error (rejected : Bool) (control reason : String) :
    (∃ e, rejectIf rejected control providerId endpoint reason = .error e) ↔ rejected = true := by
  rw [rejectIf]
  split_ifs with h
  · exact iff_of_true (exists_unsupported _ _ _ _) h
  · exact iff_of_false (by simp) h

@[simp] theorem rejectMode_eq_error (rejected : List ReasoningMode) (reason : String) :
    (∃ e, rejectMode r providerId endpoint rejected reason = .error e) ↔
      ∃ mode ∈ rejected, r.mode = some mode := by
  rw [rejectMode, rejectIf_eq_error]
  cases r.mode <;> simp

@[simp] theorem rejectPresent_eq_error {α : Type} (value : Option α) (control reason : String) :
    (∃ e, rejectPresent value control providerId endpoint reason = .error e) ↔
      value.isSome = true :=
  rejectIf_eq_error _ _ _

/-! ## Fields -/

theorem get_removeFields (o : BTreeMap String Value) (fields : List String) (k : String) :
    (removeFields o fields).get k = if k ∈ fields then none else o.get k := by
  induction fields generalizing o with
  | nil => rfl
  | cons field fields ih =>
    rw [removeFields, List.foldl_cons, ← removeFields, ih, get_erase]
    by_cases hmem : k ∈ fields <;> by_cases hk : k = field <;> simp [hmem, hk]

theorem removeFields_eq_self_iff {o : BTreeMap String Value} {fields : List String} :
    removeFields o fields = o ↔ ∀ field ∈ fields, o.get field = none := by
  constructor
  · intro h field hfield
    rw [← h, get_removeFields, if_pos hfield]
  · intro h
    induction fields with
    | nil => rfl
    | cons field fields ih =>
      rw [removeFields, List.foldl_cons,
        BTreeMap.erase_eq_self_iff.mpr (h field List.mem_cons_self)]
      exact ih fun field' hfield' => h field' (List.mem_cons_of_mem field hfield')

theorem get_objectField (o : BTreeMap String Value) (field k : String)
    (f : BTreeMap String Value → BTreeMap String Value) :
    (objectField o field f).get k =
      if k = field then some (.object (f (((o.get field).bind asObject).getD [])))
      else o.get k :=
  get_insert _ _ _ _

/-! ## The token limit -/

/-- The key of the token limit, and the keys it is not under. -/
structure LimitKeys where
  key : String
  others : List String

def limitKeys (endpoint : Endpoint) (providerId model : String) : LimitKeys :=
  match endpoint with
  | .responses => ⟨"max_output_tokens", ["max_tokens", "max_completion_tokens"]⟩
  | .chatCompletions =>
    if usesMaxCompletionTokens providerId model then
      ⟨"max_completion_tokens", ["max_tokens", "max_output_tokens"]⟩
    else ⟨"max_tokens", ["max_output_tokens", "max_completion_tokens"]⟩
  | .messages => ⟨"max_tokens", ["max_output_tokens", "max_completion_tokens"]⟩

def tokenKeys : List String := ["max_tokens", "max_completion_tokens", "max_output_tokens"]

def RejectsLimit (endpoint : Endpoint) (providerId : String) : Prop :=
  endpoint = .responses ∧ providerId = ID_CODEX

/-- The limit is in the body, and no other one. -/
structure LimitInPlace (keys : LimitKeys) (limit : Nat) (o : BTreeMap String Value) : Prop where
  key : o.get keys.key = some (nat limit)
  others : ∀ k ∈ keys.others, o.get k = none

def writeLimit (keys : LimitKeys) (limit : Nat) (o : BTreeMap String Value) :
    BTreeMap String Value :=
  (removeFields o keys.others).insert keys.key (nat limit)

theorem lowerMaxOutputTokens_of_rejects (h : RejectsLimit endpoint providerId) (limit : Nat) :
    ∃ e, (lowerMaxOutputTokens endpoint providerId model limit).outcome o = (.error e, o) := by
  obtain ⟨rfl, rfl⟩ := h
  exact ⟨_, rfl⟩

theorem lowerMaxOutputTokens_of_not_rejects (h : ¬ RejectsLimit endpoint providerId)
    (limit : Nat) :
    lowerMaxOutputTokens endpoint providerId model limit =
      updating (writeLimit (limitKeys endpoint providerId model) limit) := by
  cases endpoint with
  | responses =>
    have hprovider : providerId ≠ ID_CODEX := fun hcodex => h ⟨rfl, hcodex⟩
    rw [lowerMaxOutputTokens, if_neg hprovider]
    rfl
  | chatCompletions =>
    rw [lowerMaxOutputTokens, limitKeys]
    split_ifs <;> rfl
  | messages => rfl

theorem mem_tokenKeys_iff {k : String} :
    k ∈ tokenKeys ↔ k = (limitKeys endpoint providerId model).key ∨
      k ∈ (limitKeys endpoint providerId model).others := by
  cases endpoint with
  | chatCompletions =>
    rw [limitKeys]
    split_ifs <;> simp [tokenKeys] <;> tauto
  | _ =>
    simp only [limitKeys, tokenKeys, List.mem_cons, List.not_mem_nil, or_false]
    tauto

theorem key_notMem_others :
    (limitKeys endpoint providerId model).key ∉ (limitKeys endpoint providerId model).others := by
  cases endpoint with
  | chatCompletions =>
    rw [limitKeys]
    split_ifs <;> decide
  | _ => simp [limitKeys]

theorem get_writeLimit (keys : LimitKeys) (limit : Nat) (k : String) :
    (writeLimit keys limit o).get k =
      if k = keys.key then some (nat limit)
      else if k ∈ keys.others then none else o.get k := by
  rw [writeLimit, get_insert, get_removeFields]

theorem get_writeLimit_of_notMem {limit : Nat} {k : String} (h : k ∉ tokenKeys) :
    (writeLimit (limitKeys endpoint providerId model) limit o).get k =
      o.get k := by
  rw [@mem_tokenKeys_iff endpoint providerId model, not_or] at h
  rw [get_writeLimit, if_neg h.1, if_neg h.2]

theorem limitInPlace_of_get {keys : LimitKeys} {limit : Nat} {o' : BTreeMap String Value}
    (hkey : keys.key ∉ keys.others) (h : ∀ k, k = keys.key ∨ k ∈ keys.others →
      o.get k = (writeLimit keys limit o').get k) :
    LimitInPlace keys limit o where
  key := by rw [h _ (.inl rfl), get_writeLimit, if_pos rfl]
  others k hk := by
    have hne : k ≠ keys.key := fun heq => hkey (heq ▸ hk)
    rw [h _ (.inr hk), get_writeLimit, if_neg hne, if_pos hk]

theorem writeLimit_of_inPlace {keys : LimitKeys} {limit : Nat} (hsorted : BTreeMap.Sorted o)
    (h : LimitInPlace keys limit o) : writeLimit keys limit o = o := by
  rw [writeLimit, removeFields_eq_self_iff.mpr h.others]
  exact hsorted.insert_eq_self_iff.mpr h.key

/-! ## What the dialects of reasoning reject -/

/-- How a provider and its endpoint take reasoning controls. -/
inductive Dialect where
  | responses
  | llamaCpp
  | deepseek
  | zai
  | claude
  | chat
  deriving DecidableEq

def dialectOf (endpoint : Endpoint) (providerId model : String) : Dialect :=
  match endpoint with
  | .responses => .responses
  | .chatCompletions =>
    if providerId = ID_LLAMA_CPP then .llamaCpp
    else if providerId = ID_DEEPSEEK then .deepseek
    else if providerId ∈ ZAI_PROVIDERS then .zai
    else if providerId = ID_GITHUB_COPILOT ∧ isClaudeModel model then .claude
    else .chat
  | .messages => if providerId = ID_DEEPSEEK then .deepseek else .claude

/-- A budget of at least 1024 tokens that is below the limit. -/
def BudgetFits (r : ReasoningOptions) (maxTokens : Option Nat) : Prop :=
  ∃ b m, r.budgetTokens = some b ∧ maxTokens = some m ∧ 1024 ≤ b ∧ b < m

/-- A token budget next to a mode that has none. -/
def HasSpareBudget (r : ReasoningOptions) : Prop :=
  (r.mode = some .adaptive ∨ r.mode = some .disabled) ∧ r.budgetTokens.isSome

def RejectsClaudeSampling (model : String) (o : BTreeMap String Value) (thinkingEnabled : Bool) :
    Prop :=
  if claudeRejectsSamplingControls model then
    isNotOne o "temperature" ∨ o.contains "top_p"
  else thinkingEnabled ∧ (isNotOne o "temperature" ∨ isTopPOutside o)

/-- What a dialect rejects before it writes, of a body with the token limit. -/
def Dialect.Rejects (model : String) (maxTokens : Option Nat) (o : BTreeMap String Value)
    (r : ReasoningOptions) : Dialect → Prop
  | .responses => r.mode = some .enabled ∨ r.mode = some .adaptive ∨ r.budgetTokens.isSome
  | .llamaCpp => True
  | .deepseek =>
    r.mode = some .adaptive ∨ r.budgetTokens.isSome ∨ r.summary.isSome ∨
      (deepseekThinkingEnabled r ∧
        (o.contains "temperature" ∨ o.contains "top_p"))
  | .zai =>
    r.mode = some .adaptive ∨ r.effort.isSome ∨ r.budgetTokens.isSome ∨ r.summary.isSome
  | .claude =>
    r.summary.isSome ∨ (r.mode = some .disabled ∧ claudeRejectsDisabledReasoning model) ∨
      (isManual r ∧ (¬ BudgetFits r maxTokens ∨ claudeThinkingSupport model = .adaptiveOnly)) ∨
      (r.mode = some .adaptive ∧ claudeThinkingSupport model = .manualOnly) ∨
      RejectsClaudeSampling model o (isManual r || r.mode = some .adaptive)
  | .chat =>
    r.mode = some .enabled ∨ r.mode = some .adaptive ∨ r.budgetTokens.isSome ∨ r.summary.isSome

/-- The token limit that is in the body after that of the options. -/
def effectiveMaxTokens (options : GenerationOptions) (o : BTreeMap String Value) : Option Nat :=
  options.maxOutputTokens <|> (o.get "max_tokens").bind asU64

theorem fails_lowerResponsesReasoning :
    (lowerResponsesReasoning providerId r).Fails o ↔ Dialect.responses.Rejects model maxTokens o r := by
  simp [lowerResponsesReasoning, fails_reading_bind, Dialect.Rejects, or_assoc]

theorem atomic_lowerResponsesReasoning : Atomic (lowerResponsesReasoning providerId r) :=
  atomic_reading_bind fun _ => atomic_reading_bind fun _ =>
    atomic_updating _

theorem fails_lowerDeepseekReasoning (hendpoint : endpoint ≠ .responses) :
    (lowerDeepseekReasoning endpoint providerId r).Fails o ↔
      Dialect.deepseek.Rejects model maxTokens o r := by
  rw [lowerDeepseekReasoning, if_neg hendpoint]
  cases hthinking : deepseekThinkingEnabled r <;>
    simp [fails_reading_bind, Dialect.Rejects, hthinking, BTreeMap.contains]

theorem atomic_lowerDeepseekReasoning (hendpoint : endpoint ≠ .responses) :
    Atomic (lowerDeepseekReasoning endpoint providerId r) := by
  rw [lowerDeepseekReasoning, if_neg hendpoint]
  exact atomic_reading_bind fun _ => atomic_reading_bind fun _ =>
    atomic_reading_bind fun _ => atomic_reading_bind fun _ =>
      atomic_reading_bind fun _ => atomic_updating _

theorem fails_lowerZaiReasoning :
    (lowerZaiReasoning providerId r).Fails o ↔ Dialect.zai.Rejects model maxTokens o r := by
  simp [lowerZaiReasoning, fails_reading_bind, Dialect.Rejects]

theorem atomic_lowerZaiReasoning : Atomic (lowerZaiReasoning providerId r) :=
  atomic_reading_bind fun _ => atomic_reading_bind fun _ =>
    atomic_reading_bind fun _ => atomic_reading_bind fun _ =>
      atomic_updating _

/-! ## Claude -/

theorem validateClaudeSampling_eq_error {thinkingEnabled : Bool} :
    (∃ e, validateClaudeSampling o endpoint providerId model thinkingEnabled = .error e) ↔
      RejectsClaudeSampling model o thinkingEnabled := by
  rw [validateClaudeSampling, RejectsClaudeSampling]
  cases claudeRejectsSamplingControls model <;> cases thinkingEnabled <;>
    cases isNotOne o "temperature" <;> cases o.contains "top_p" <;>
      cases isTopPOutside o <;> simp

theorem validateClaudeBudget_eq_error :
    (∃ e, validateClaudeBudget o endpoint providerId model r = .error e) ↔
      isManual r ∧ (¬ BudgetFits r ((o.get "max_tokens").bind asU64) ∨
        claudeThinkingSupport model = .adaptiveOnly) := by
  rw [validateClaudeBudget, BudgetFits]
  cases isManual r with
  | false => simp
  | true =>
    cases r.budgetTokens with
    | none => simp
    | some b =>
      simp only [Bool.not_true, Bool.false_eq_true, if_false]
      cases (o.get "max_tokens").bind asU64 with
      | none => split_ifs <;> simp
      | some m =>
        split_ifs with hlow hadaptive
        · simp [Nat.not_le_of_lt hlow]
        · simp [hadaptive]
        · simp only [rejectIf_eq_error, decide_eq_true_eq, Option.some.injEq, exists_and_left,
            exists_eq_left', hadaptive, or_false, true_and]
          omega

/-- What is rejected before anything is written. -/
theorem validateClaudeReasoning_eq_error :
    r.summary.isSome ∨ (∃ e, validateClaudeReasoning o endpoint providerId model r = .error e) ↔
      Dialect.claude.Rejects model ((o.get "max_tokens").bind asU64) o r := by
  simp only [validateClaudeReasoning, Except.exists_bind_eq_error, rejectIf_eq_error,
    validateClaudeBudget_eq_error, validateClaudeSampling_eq_error, Dialect.Rejects,
    Bool.and_eq_true, decide_eq_true_eq]

theorem fails_writeClaudeMode : (writeClaudeMode endpoint providerId r).Fails o ↔ HasSpareBudget r := by
  rw [writeClaudeMode, HasSpareBudget]
  cases r.mode with
  | none => cases r.budgetTokens <;> simp
  | some mode => cases mode <;> simp [fails_reading_bind]

theorem atomic_writeClaudeMode : Atomic (writeClaudeMode endpoint providerId r) := by
  rw [writeClaudeMode]
  cases r.mode with
  | none =>
    cases r.budgetTokens with
    | none => exact Stateful.atomic_pure _
    | some budget => exact atomic_updating _
  | some mode =>
    cases mode with
    | enabled => exact atomic_updating _
    | _ => exact atomic_reading_bind fun _ => atomic_updating _

/-- Reasoning for Claude is rejected before anything is written, or the rest goes on from the
stripped body. -/
theorem outcome_lowerClaudeReasoning (endpoint : Endpoint) (providerId model : String)
    (r : ReasoningOptions) (o : BTreeMap String Value) :
    (Dialect.claude.Rejects model ((o.get "max_tokens").bind asU64) o r ∧
        ∃ e, (lowerClaudeReasoning endpoint providerId model r).outcome o = (.error e, o)) ∨
      (¬ Dialect.claude.Rejects model ((o.get "max_tokens").bind asU64) o r ∧
        (lowerClaudeReasoning endpoint providerId model r).outcome o =
          (writeClaudeMode endpoint providerId r >>= fun _ =>
            updating (finishReasoning r)).outcome (stripReasoning r o)) := by
  rw [← @validateClaudeReasoning_eq_error endpoint providerId model,
    ← @rejectPresent_eq_error endpoint providerId _ r.summary "reasoning.summary"
      "Claude-compatible reasoning does not support summaries"]
  rcases Stateful.outcome_reading_bind_cases _ _ o with ⟨e, hsummary, hout⟩ | ⟨hsummary, hout⟩
  · exact .inl ⟨.inl ⟨e, hsummary⟩, e, hout⟩
  rcases Stateful.outcome_reading_bind_cases _ _ o with ⟨e, hvalidate, hout'⟩ | ⟨hvalidate, hout'⟩
  · exact .inl ⟨.inr ⟨e, hvalidate⟩, e, hout.trans hout'⟩
  · refine .inr ⟨?_, hout.trans hout'⟩
    rw [hsummary, hvalidate]
    simp

/-- How a lowering of reasoning ends: it rejects before it writes, or it finds a spare budget when the
body has been stripped, or it is done. -/
def Ends (c : Lowering) (r : ReasoningOptions) (o : BTreeMap String Value)
    (rejects spare : Prop) : Prop :=
  (rejects ∧ ∃ e, c.outcome o = (.error e, o)) ∨
    (¬ rejects ∧ spare ∧ ∃ e, c.outcome o = (.error e, stripReasoning r o)) ∨
    (¬ rejects ∧ ¬ spare ∧ ∃ o', c.outcome o = (.ok (), o'))

theorem ends_of_atomic {c : Lowering} {rejects spare : Prop} (hatomic : Atomic c)
    (hfails : c.Fails o ↔ rejects) (hspare : ¬ spare) : Ends c r o rejects spare := by
  rw [Ends, ← hfails]
  obtain h | ⟨hpasses, hdone⟩ := hatomic.outcome_cases o
  · exact .inl h
  · exact .inr (.inr ⟨hpasses, hspare, hdone⟩)

theorem ends_lowerClaudeReasoning (endpoint : Endpoint) (providerId model : String)
    (r : ReasoningOptions) (o : BTreeMap String Value) :
    Ends (lowerClaudeReasoning endpoint providerId model r) r o
      (Dialect.claude.Rejects model ((o.get "max_tokens").bind asU64) o r)
      (HasSpareBudget r) := by
  obtain hrejects | ⟨hpasses, hout⟩ := outcome_lowerClaudeReasoning endpoint providerId model r o
  · exact .inl hrejects
  rw [Ends, hout, outcome_bind]
  obtain ⟨hfails, e, he⟩ | ⟨hfails, o', ho'⟩ :=
    (@atomic_writeClaudeMode endpoint providerId r).outcome_cases (stripReasoning r o)
  · rw [he]
    exact .inr (.inl ⟨hpasses, fails_writeClaudeMode.mp hfails, e, rfl⟩)
  · rw [ho']
    exact .inr (.inr ⟨hpasses, fun hspare => hfails (fails_writeClaudeMode.mpr hspare), _, rfl⟩)

/-! ## Reasoning -/

theorem ends_lowerReasoning (endpoint : Endpoint) (providerId model : String)
    (r : ReasoningOptions) (o : BTreeMap String Value) :
    Ends (lowerReasoning endpoint providerId model r) r o
      ((dialectOf endpoint providerId model).Rejects model
        ((o.get "max_tokens").bind asU64) o r)
      (dialectOf endpoint providerId model = .claude ∧ HasSpareBudget r) := by
  cases endpoint with
  | responses =>
    exact ends_of_atomic atomic_lowerResponsesReasoning fails_lowerResponsesReasoning
      (by simp [dialectOf])
  | chatCompletions =>
    rw [lowerReasoning, lowerChatReasoning, dialectOf]
    split_ifs with hllama hdeepseek hzai hclaude
    · exact ends_of_atomic (Stateful.atomic_reading _) (iff_of_true ⟨_, _, rfl⟩ trivial) (by simp)
    · exact ends_of_atomic (atomic_lowerDeepseekReasoning (by decide))
        (fails_lowerDeepseekReasoning (by decide)) (by simp)
    · exact ends_of_atomic atomic_lowerZaiReasoning fails_lowerZaiReasoning (by simp)
    · simpa using ends_lowerClaudeReasoning .chatCompletions providerId model r o
    · refine ends_of_atomic ?_ ?_ (by simp)
      · exact atomic_reading_bind fun _ => atomic_reading_bind fun _ =>
          atomic_reading_bind fun _ => atomic_updating _
      · simp [fails_reading_bind, Dialect.Rejects, or_assoc]
  | messages =>
    rw [lowerReasoning, lowerMessagesReasoning, dialectOf]
    split_ifs with hdeepseek
    · exact ends_of_atomic (atomic_lowerDeepseekReasoning (by decide))
        (fails_lowerDeepseekReasoning (by decide)) (by simp)
    · simpa using ends_lowerClaudeReasoning .messages providerId model r o

/-! ## Stripping -/

/-- What is taken out of `thinking` for a mode without a budget. -/
def strippedFields : List String := ["mode", "effort", "summary", "budget_tokens"]

/-- A body without the fields that are stripped. -/
structure NothingToStrip (o : BTreeMap String Value) : Prop where
  reasoning : BTreeMap.get o "reasoning" = none
  thinking : ∀ thinking, BTreeMap.get o "thinking" = some (.object thinking) →
    ∀ field ∈ strippedFields, BTreeMap.get thinking field = none

/-- Stripping writes two fields only. -/
theorem get_stripReasoning {k : String} (hreasoning : k ≠ "reasoning") (hthinking : k ≠ "thinking") :
    (stripReasoning r o).get k = o.get k := by
  rw [stripReasoning]
  dsimp only
  split <;> split_ifs <;> simp [get_insert, get_erase, hreasoning, hthinking]

theorem stripReasoning_of_spare (hspare : HasSpareBudget r) :
    stripReasoning r o =
      match (o.get "thinking").bind asObject with
      | none => o.erase "reasoning"
      | some thinking => (BTreeMap.erase o "reasoning").insert "thinking"
          (.object (removeFields thinking strippedFields)) := by
  have hempty : r.isEmpty = false := by
    obtain ⟨hmode | hmode, -⟩ := hspare <;> simp [ReasoningOptions.isEmpty, hmode]
  rw [stripReasoning]
  dsimp only
  rw [hempty, if_neg Bool.false_ne_true, get_erase, if_neg (by decide)]
  simp only [if_pos hspare.1]
  rfl

theorem stripReasoning_eq_self_iff (hsorted : BTreeMap.Sorted o) (hspare : HasSpareBudget r) :
    stripReasoning r o = o ↔ NothingToStrip o := by
  rw [stripReasoning_of_spare hspare]
  cases hobject : (BTreeMap.get o "thinking").bind asObject with
  | none =>
    refine BTreeMap.erase_eq_self_iff.trans ⟨fun h => ⟨h, ?_⟩, fun h => h.reasoning⟩
    intro thinking hthinking
    rw [hthinking] at hobject
    cases hobject
  | some thinking =>
    have hthinking : o.get "thinking" = some (.object thinking) := by
      obtain ⟨v, hv, hv'⟩ := Option.bind_eq_some_iff.mp hobject
      cases v <;> cases hv'
      exact hv
    dsimp only
    constructor
    · intro h
      have hget : ∀ k, BTreeMap.get o k = _ := fun k => congrArg (BTreeMap.get · k) h.symm
      refine ⟨?_, ?_⟩
      · rw [hget, get_insert, get_erase, if_neg (by decide), if_pos rfl]
      · intro thinking' hthinking'
        have hsame := hget "thinking"
        rw [hthinking', BTreeMap.get_insert_self, Option.some.injEq, Value.object.injEq] at hsame
        rw [hthinking', Option.some.injEq, Value.object.injEq] at hthinking
        rw [hthinking] at hsame ⊢
        exact removeFields_eq_self_iff.mp hsame.symm
    · intro h
      rw [BTreeMap.erase_eq_self_iff.mpr h.reasoning,
        removeFields_eq_self_iff.mpr (h.thinking thinking hthinking)]
      exact hsorted.insert_eq_self_iff.mpr hthinking

/-! ## The steps one after the other -/

/-- The body after the token limit. -/
def limited (endpoint : Endpoint) (providerId model : String) (options : GenerationOptions)
    (o : BTreeMap String Value) : BTreeMap String Value :=
  match options.maxOutputTokens with
  | none => o
  | some limit => writeLimit (limitKeys endpoint providerId model) limit o

/-- `top_k` is taken by llama.cpp only. -/
def AcceptsTopK (endpoint : Endpoint) (providerId : String) : Prop :=
  providerId = ID_LLAMA_CPP ∧ endpoint = .chatCompletions

theorem get_limited {k : String} (h : k ∉ tokenKeys) :
    (limited endpoint providerId model options o).get k = o.get k := by
  rw [limited]
  cases options.maxOutputTokens with
  | none => rfl
  | some limit => exact get_writeLimit_of_notMem h

theorem limitInPlace_of_limited (h : ∀ k ∈ tokenKeys,
    o.get k = (limited endpoint providerId model options o).get k) {limit : Nat}
    (hlimit : options.maxOutputTokens = some limit) :
    LimitInPlace (limitKeys endpoint providerId model) limit o := by
  have hkeys : ∀ k ∈ tokenKeys, o.get k =
      (writeLimit (limitKeys endpoint providerId model) limit o).get k := by
    intro k hk
    rw [h k hk, limited, hlimit]
  exact limitInPlace_of_get key_notMem_others fun k hk => hkeys k (mem_tokenKeys_iff.mpr hk)

theorem limited_eq_self_iff (hsorted : BTreeMap.Sorted o) :
    limited endpoint providerId model options o = o ↔
      ∀ limit, options.maxOutputTokens = some limit →
        LimitInPlace (limitKeys endpoint providerId model) limit o := by
  constructor
  · intro h limit hlimit
    exact limitInPlace_of_limited (fun k _ => congrArg (BTreeMap.get · k) h.symm) hlimit
  · intro h
    rw [limited]
    cases hlimit : options.maxOutputTokens with
    | none => rfl
    | some limit => exact writeLimit_of_inPlace hsorted (h limit hlimit)

/-- A Claude model is none of those that count completion tokens. -/
theorem usesMaxCompletionTokens_of_claude (h : isClaudeModel model = true) :
    usesMaxCompletionTokens ID_GITHUB_COPILOT model = false := by
  have hclaude : "claude-".toList = ['c', 'l', 'a', 'u', 'd', 'e', '-'] := by decide
  rw [isClaudeModel, startsWith, hclaude, normalizeClaudeModel, String.toList_ofList] at h
  rw [usesMaxCompletionTokens]
  cases hlower : Ascii.lower model.toList with
  | nil => rw [hlower] at h; cases h
  | cons c text =>
    rw [hlower, List.map_cons] at h
    have hc : c = 'c' := by
      by_cases hdash : c = '.' ∨ c = '_'
      · rw [if_pos hdash] at h
        cases h
      · rw [if_neg hdash] at h
        exact (of_decide_eq_true (Bool.and_eq_true_iff.mp h).1).symm
    subst hc
    simp [List.isPrefixOf, ID_OPENAI, ID_GITHUB_COPILOT]

theorem key_of_claude (h : dialectOf endpoint providerId model = .claude) :
    (limitKeys endpoint providerId model).key = "max_tokens" := by
  cases endpoint with
  | responses => cases h
  | messages => rfl
  | chatCompletions =>
    rw [dialectOf] at h
    split_ifs at h with hllama hdeepseek hzai hclaude
    rw [limitKeys, hclaude.1, usesMaxCompletionTokens_of_claude hclaude.2]
    rfl

/-- What reasoning rejects does not change with the token limit, but for the limit itself. -/
theorem rejects_limited_iff :
    (dialectOf endpoint providerId model).Rejects model
        (((limited endpoint providerId model options o).get "max_tokens").bind asU64)
        (limited endpoint providerId model options o) r ↔
      (dialectOf endpoint providerId model).Rejects model (effectiveMaxTokens options o) o r := by
  have htemperature : (limited endpoint providerId model options o).get "temperature" =
      o.get "temperature" := get_limited (by decide)
  have htopP : (limited endpoint providerId model options o).get "top_p" =
      o.get "top_p" := get_limited (by decide)
  cases hdialect : dialectOf endpoint providerId model with
  | claude =>
    have hmax : ((limited endpoint providerId model options o).get "max_tokens").bind
        asU64 = effectiveMaxTokens options o := by
      rw [limited, effectiveMaxTokens]
      cases options.maxOutputTokens with
      | none => rfl
      | some limit =>
        dsimp only
        rw [get_writeLimit, if_pos (key_of_claude hdialect).symm]
        rfl
    rw [hmax]
    simp only [Dialect.Rejects, RejectsClaudeSampling, isNotOne, isTopPOutside, BTreeMap.contains,
      htemperature, htopP]
  | deepseek => simp only [Dialect.Rejects, BTreeMap.contains, htemperature, htopP]
  | _ => exact Iff.rfl

/-- Something after the token limit is rejected. -/
def RejectsRest (endpoint : Endpoint) (providerId model : String) (options : GenerationOptions)
    (o : BTreeMap String Value) : Prop :=
  (options.topK.isSome ∧ ¬ AcceptsTopK endpoint providerId) ∨
    ∃ r, options.reasoning = some r ∧
      ((dialectOf endpoint providerId model).Rejects model (effectiveMaxTokens options o) o r ∨
        (dialectOf endpoint providerId model = .claude ∧ HasSpareBudget r))

/-- None of the writes before a failure changes the body. -/
structure WritesNothingBeforeFailure (endpoint : Endpoint) (providerId model : String)
    (options : GenerationOptions) (o : BTreeMap String Value) : Prop where
  /-- A limit that can be written is there already, if anything after it is rejected. -/
  limit : ∀ limit, options.maxOutputTokens = some limit → ¬ RejectsLimit endpoint providerId →
    RejectsRest endpoint providerId model options o →
    LimitInPlace (limitKeys endpoint providerId model) limit o
  /-- `top_k` is there already, where it is accepted and reasoning is not. -/
  topK : ∀ topK r, options.topK = some topK → options.reasoning = some r →
    AcceptsTopK endpoint providerId → o.get "top_k" = some (nat topK)
  /-- Nothing is stripped before a spare budget is found. -/
  spare : ∀ r, options.topK = none → options.reasoning = some r →
    dialectOf endpoint providerId model = .claude → HasSpareBudget r →
    ¬ (dialectOf endpoint providerId model).Rejects model (effectiveMaxTokens options o) o r →
    NothingToStrip o

theorem outcome_lowerTopK_of_accepts (h : AcceptsTopK endpoint providerId) (topK : Nat) :
    (lowerTopK endpoint providerId topK).outcome o =
      (.ok (), o.insert "top_k" (nat topK)) := by
  rw [AcceptsTopK] at h
  rw [lowerTopK, if_pos h]
  rfl

theorem outcome_lowerTopK_of_not_accepts (h : ¬ AcceptsTopK endpoint providerId) (topK : Nat) :
    ∃ e, (lowerTopK endpoint providerId topK).outcome o = (.error e, o) := by
  rw [AcceptsTopK] at h
  rw [lowerTopK, if_neg h]
  exact ⟨_, rfl⟩

theorem dialect_of_acceptsTopK (h : AcceptsTopK endpoint providerId) :
    dialectOf endpoint providerId model = .llamaCpp := by
  obtain ⟨rfl, rfl⟩ := h
  rfl

theorem insert_limited_eq_self_iff (hsorted : BTreeMap.Sorted o) (topK : Nat) :
    (limited endpoint providerId model options o).insert "top_k" (nat topK) = o ↔
      limited endpoint providerId model options o = o ∧
        o.get "top_k" = some (nat topK) := by
  constructor
  · intro h
    have hget := fun k => congrArg (BTreeMap.get · k) h.symm
    have hlimit : limited endpoint providerId model options o = o := by
      refine (limited_eq_self_iff hsorted).mpr fun limit hlimit => ?_
      refine limitInPlace_of_limited (fun k hk => (hget k).trans ?_) hlimit
      refine BTreeMap.get_insert_of_ne _ ?_ _
      rintro rfl
      exact absurd hk (by decide)
    refine ⟨hlimit, (hget "top_k").trans (BTreeMap.get_insert_self _ _ _)⟩
  · rintro ⟨hlimit, hget⟩
    rw [hlimit]
    exact hsorted.insert_eq_self_iff.mpr hget

theorem strip_limited_eq_self_iff (hsorted : BTreeMap.Sorted o) (hspare : HasSpareBudget r) :
    stripReasoning r (limited endpoint providerId model options o) = o ↔
      limited endpoint providerId model options o = o ∧ NothingToStrip o := by
  constructor
  · intro h
    have hlimit : limited endpoint providerId model options o = o := by
      refine (limited_eq_self_iff hsorted).mpr fun limit hlimit => ?_
      refine limitInPlace_of_limited (fun k hk => ?_) hlimit
      have hget := congrArg (BTreeMap.get · k) h.symm
      refine hget.trans (get_stripReasoning ?_ ?_) <;>
        (rintro rfl; exact absurd hk (by decide))
    rw [hlimit] at h
    exact ⟨hlimit, (stripReasoning_eq_self_iff hsorted hspare).mp h⟩
  · rintro ⟨hlimit, hnothing⟩
    rw [hlimit]
    exact (stripReasoning_eq_self_iff hsorted hspare).mpr hnothing

/-! ## Failing -/

/-- The limit of the options has no place. -/
def LimitRejected (endpoint : Endpoint) (providerId : String) (options : GenerationOptions) : Prop :=
  options.maxOutputTokens.isSome ∧ RejectsLimit endpoint providerId

theorem outcome_of_limitRejected (h : LimitRejected endpoint providerId options) :
    ∃ e, (lowerFields endpoint providerId model options).outcome o = (.error e, o) := by
  obtain ⟨limit, hlimit⟩ := Option.isSome_iff_exists.mp h.1
  obtain ⟨e, he⟩ := @lowerMaxOutputTokens_of_rejects endpoint providerId model o h.2 limit
  refine ⟨e, ?_⟩
  rw [lowerFields, hlimit, whenSome, outcome_bind, he]

/-- After the limit come `top_k` and reasoning. -/
theorem outcome_of_not_limitRejected (h : ¬ LimitRejected endpoint providerId options) :
    (lowerFields endpoint providerId model options).outcome o =
      (whenSome (lowerTopK endpoint providerId) options.topK >>= fun _ =>
        whenSome (lowerReasoning endpoint providerId model) options.reasoning).outcome
          (limited endpoint providerId model options o) := by
  rw [lowerFields, limited]
  cases hlimit : options.maxOutputTokens with
  | none => rfl
  | some limit =>
    have hrejects : ¬ RejectsLimit endpoint providerId := fun hrejects => h ⟨by simp [hlimit], hrejects⟩
    rw [whenSome, lowerMaxOutputTokens_of_not_rejects hrejects]
    rfl

section

variable (hsorted : BTreeMap.Sorted o) (hlimit : ¬ LimitRejected endpoint providerId options)

include hsorted hlimit

/-- Where the rest is rejected, the limit has to be in place. -/
theorem limited_eq_self_iff_of_rejectsRest (h : RejectsRest endpoint providerId model options o) :
    limited endpoint providerId model options o = o ↔
      ∀ limit, options.maxOutputTokens = some limit → ¬ RejectsLimit endpoint providerId →
        RejectsRest endpoint providerId model options o →
        LimitInPlace (limitKeys endpoint providerId model) limit o := by
  rw [limited_eq_self_iff hsorted]
  refine forall₂_congr fun limit hsome => ⟨fun hplace _ _ => hplace, fun hplace => ?_⟩
  exact hplace (fun hrejects => hlimit ⟨by simp [hsome], hrejects⟩) h

theorem atomicAt_of_not_acceptsTopK {topK : Nat} (htopK : options.topK = some topK)
    (haccepts : ¬ AcceptsTopK endpoint providerId) :
    (lowerFields endpoint providerId model options).AtomicAt o ↔
      WritesNothingBeforeFailure endpoint providerId model options o := by
  have hrest : RejectsRest endpoint providerId model options o := .inl ⟨by simp [htopK], haccepts⟩
  have hout := @outcome_of_not_limitRejected endpoint providerId model options o hlimit
  obtain ⟨e, he⟩ := @outcome_lowerTopK_of_not_accepts endpoint providerId
    (limited endpoint providerId model options o) haccepts topK
  rw [htopK, whenSome, outcome_bind, he] at hout
  rw [atomicAt_iff_of_error hout,
    limited_eq_self_iff_of_rejectsRest hsorted hlimit hrest]
  refine ⟨fun h => ⟨h, ?_, ?_⟩, fun h => h.limit⟩
  · exact fun _ _ _ _ hyes => absurd hyes haccepts
  · exact fun _ hnone => nomatch htopK.symm.trans hnone

theorem atomicAt_of_acceptsTopK {topK : Nat} (htopK : options.topK = some topK)
    (haccepts : AcceptsTopK endpoint providerId) :
    (lowerFields endpoint providerId model options).AtomicAt o ↔
      WritesNothingBeforeFailure endpoint providerId model options o := by
  have hdialect : dialectOf endpoint providerId model = .llamaCpp :=
    dialect_of_acceptsTopK haccepts
  have hout := @outcome_of_not_limitRejected endpoint providerId model options o hlimit
  rw [htopK, whenSome, outcome_bind, outcome_lowerTopK_of_accepts haccepts] at hout
  cases hreasoning : options.reasoning with
  | none =>
    rw [hreasoning] at hout
    refine iff_of_true (atomicAt_of_ok hout) ⟨?_, ?_, ?_⟩
    · rintro _ _ _ (⟨-, hnot⟩ | ⟨_, hr, -⟩)
      · exact absurd haccepts hnot
      · exact nomatch hreasoning.symm.trans hr
    · exact fun _ _ _ hr => nomatch hreasoning.symm.trans hr
    · exact fun _ hnone => nomatch htopK.symm.trans hnone
  | some r =>
    have hrejects : (dialectOf endpoint providerId model).Rejects model
        (effectiveMaxTokens options o) o r := by
      rw [hdialect]
      trivial
    have hrest : RejectsRest endpoint providerId model options o :=
      .inr ⟨r, hreasoning, .inl hrejects⟩
    obtain ⟨e, he⟩ : ∃ e, (lowerReasoning endpoint providerId model r).outcome
        ((limited endpoint providerId model options o).insert "top_k" (nat topK)) =
          (.error e, (limited endpoint providerId model options o).insert "top_k"
            (nat topK)) := by
      obtain ⟨rfl, rfl⟩ := haccepts
      exact ⟨_, rfl⟩
    rw [hreasoning] at hout
    rw [atomicAt_iff_of_error (hout.trans he), insert_limited_eq_self_iff hsorted,
      limited_eq_self_iff_of_rejectsRest hsorted hlimit hrest]
    refine ⟨fun h => ⟨h.1, ?_, ?_⟩, fun h => ⟨h.limit, h.topK topK r htopK hreasoning haccepts⟩⟩
    · intro topK' _ htopK' _ _
      cases htopK.symm.trans htopK'
      exact h.2
    · exact fun _ hnone => nomatch htopK.symm.trans hnone

theorem atomicAt_of_no_topK (htopK : options.topK = none) :
    (lowerFields endpoint providerId model options).AtomicAt o ↔
      WritesNothingBeforeFailure endpoint providerId model options o := by
  have hout := @outcome_of_not_limitRejected endpoint providerId model options o hlimit
  rw [htopK] at hout
  cases hreasoning : options.reasoning with
  | none =>
    rw [hreasoning] at hout
    refine iff_of_true (atomicAt_of_ok hout) ⟨?_, ?_, ?_⟩
    · rintro _ _ _ (⟨hsome, -⟩ | ⟨_, hr, -⟩)
      · exact nomatch htopK ▸ hsome
      · exact nomatch hreasoning.symm.trans hr
    · exact fun _ _ hsome => nomatch htopK.symm.trans hsome
    · exact fun _ _ hr => nomatch hreasoning.symm.trans hr
  | some r =>
    rw [hreasoning] at hout
    have hends := ends_lowerReasoning endpoint providerId model r
      (limited endpoint providerId model options o)
    rw [rejects_limited_iff] at hends
    obtain ⟨hrejects, e, he⟩ | ⟨hpasses, hspare, e, he⟩ | ⟨hpasses, hspare, o', ho'⟩ := hends
    · rw [atomicAt_iff_of_error (hout.trans he),
        limited_eq_self_iff_of_rejectsRest hsorted hlimit (.inr ⟨r, hreasoning, .inl hrejects⟩)]
      refine ⟨fun h => ⟨h, ?_, ?_⟩, fun h => h.limit⟩
      · exact fun _ _ hsome => nomatch htopK.symm.trans hsome
      · intro r' _ hr' _ _ hnot
        cases hreasoning.symm.trans hr'
        exact absurd hrejects hnot
    · rw [atomicAt_iff_of_error (hout.trans he),
        strip_limited_eq_self_iff hsorted hspare.2,
        limited_eq_self_iff_of_rejectsRest hsorted hlimit (.inr ⟨r, hreasoning, .inr hspare⟩)]
      refine ⟨fun h => ⟨h.1, ?_, ?_⟩, fun h => ⟨h.limit, ?_⟩⟩
      · exact fun _ _ hsome => nomatch htopK.symm.trans hsome
      · exact fun _ _ _ _ _ _ => h.2
      · exact h.spare r htopK hreasoning hspare.1 hspare.2 hpasses
    · refine iff_of_true (atomicAt_of_ok (hout.trans ho')) ⟨?_, ?_, ?_⟩
      · rintro _ _ _ (⟨hsome, -⟩ | ⟨r', hr', hrejected⟩)
        · exact nomatch htopK ▸ hsome
        · cases hreasoning.symm.trans hr'
          exact absurd hrejected (not_or.mpr ⟨hpasses, hspare⟩)
      · exact fun _ _ hsome => nomatch htopK.symm.trans hsome
      · intro r' _ hr' hclaude hspare' _
        cases hreasoning.symm.trans hr'
        exact absurd ⟨hclaude, hspare'⟩ hspare

end

/-- The lowering of the fields is atomic exactly where its writes change nothing. -/
theorem atomicAt_lowerFields_iff (hsorted : BTreeMap.Sorted o) :
    (lowerFields endpoint providerId model options).AtomicAt o ↔
      WritesNothingBeforeFailure endpoint providerId model options o := by
  by_cases hlimit : LimitRejected endpoint providerId options
  · obtain ⟨e, he⟩ := @outcome_of_limitRejected endpoint providerId model options o hlimit
    refine iff_of_true ((atomicAt_iff_of_error he).mpr rfl) ⟨?_, ?_, ?_⟩
    · exact fun _ _ hnot => absurd hlimit.2 hnot
    · exact fun _ _ _ _ haccepts => nomatch hlimit.2.1.symm.trans haccepts.2
    · intro _ _ _ hclaude
      rw [hlimit.2.1] at hclaude
      cases hclaude
  · cases htopK : options.topK with
    | none => exact atomicAt_of_no_topK hsorted hlimit htopK
    | some topK =>
      by_cases haccepts : AcceptsTopK endpoint providerId
      · exact atomicAt_of_acceptsTopK hsorted hlimit htopK haccepts
      · exact atomicAt_of_not_acceptsTopK hsorted hlimit htopK haccepts

/-- A lowering that fails leaves the body as it was. -/
def KeepsBody (endpoint : Endpoint) (providerId model : String) (options : GenerationOptions)
    (body : Value) : Prop :=
  ∀ e body', lowerGenerationOptions endpoint providerId model options body = (.error e, body') →
    body' = body

theorem keepsBody_object_iff :
    KeepsBody endpoint providerId model options (.object o) ↔
      (lowerFields endpoint providerId model options).AtomicAt o := by
  rw [KeepsBody, lowerGenerationOptions]
  split_ifs with hempty
  · obtain ⟨limit, topK, reasoning⟩ := options
    simp only [GenerationOptions.isEmpty, Bool.and_eq_true, Option.isNone_iff_eq_none] at hempty
    obtain ⟨⟨rfl, rfl⟩, rfl⟩ := hempty
    exact iff_of_true (fun _ _ h => nomatch h) (atomicAt_of_ok rfl)
  · refine forall_congr' fun e => ⟨fun h o' hout => ?_, fun h body' hout => ?_⟩
    · have hobject := h (.object o') (by dsimp only; rw [hout])
      exact Value.object.inj hobject
    · obtain ⟨hresult, rfl⟩ := Prod.mk.inj hout
      exact congrArg Value.object (h _ (Prod.ext hresult rfl))

theorem keepsBody_of_not_object {body : Value} (h : ∀ o, body ≠ .object o) :
    KeepsBody endpoint providerId model options body := by
  intro e body' hout
  unfold lowerGenerationOptions at hout
  split_ifs at hout
  · cases hout
  · cases body with
    | object o => exact absurd rfl (h o)
    | _ => exact (Prod.mk.inj hout).2.symm

theorem not_hasSpareBudget_of_validate (h : r.validate = .ok ()) : ¬ HasSpareBudget r := by
  rw [ReasoningOptions.validate] at h
  split_ifs at h with _ _ hdisabled hadaptive
  rintro ⟨hmode | hmode, hbudget⟩
  · exact hadaptive ⟨hmode, hbudget⟩
  · exact hdisabled ⟨hmode, .inr (.inl hbudget)⟩

/-- The pipeline validates the options first. If they ask for reasoning only, a failure leaves the
body as it was. -/
theorem keepsBody_of_validate (hsorted : BTreeMap.Sorted o)
    (hvalid : options.validate = .ok ()) (hlimit : options.maxOutputTokens = none)
    (htopK : options.topK = none) :
    KeepsBody endpoint providerId model options (.object o) := by
  rw [keepsBody_object_iff, atomicAt_lowerFields_iff hsorted]
  refine ⟨?_, ?_, ?_⟩
  · exact fun _ hsome => nomatch hlimit.symm.trans hsome
  · exact fun _ _ hsome => nomatch htopK.symm.trans hsome
  · intro r _ hr _ hspare
    rw [GenerationOptions.validate, hlimit, if_neg (by simp), hr] at hvalid
    exact absurd hspare (not_hasSpareBudget_of_validate hvalid)

/-- **A failed lowering.** The body is as it was iff nothing is written before the failure, or what
is written is there already. -/
theorem keepsBody_iff {body : Value} (hsorted : ∀ o, body = .object o → BTreeMap.Sorted o) :
    KeepsBody endpoint providerId model options body ↔
      ∀ o, body = .object o → WritesNothingBeforeFailure endpoint providerId model options o := by
  cases body with
  | object o =>
    rw [keepsBody_object_iff, atomicAt_lowerFields_iff (hsorted o rfl)]
    constructor
    · intro h o' ho'
      cases ho'
      exact h
    · exact fun h => h o rfl
  | _ =>
    refine iff_of_true (keepsBody_of_not_object fun o ho => ?_) fun o ho => ?_ <;> cases ho

/-- Reasoning that is rejected before anything is written. -/
theorem enabledMode_keepsBody :
    KeepsBody .responses ID_OPENAI "gpt-5" { reasoning := some { mode := some .enabled } }
      (obj [("input", .string "hi")]) := by
  refine (keepsBody_iff ?_).mpr ?_
  · rintro o ho
    cases ho
    exact BTreeMap.sorted_nil.extend _
  · rintro o -
    refine ⟨?_, ?_, ?_⟩
    · exact fun _ h => nomatch h
    · exact fun _ _ h => nomatch h
    · exact fun _ _ _ h => nomatch h

/-- A token limit stays behind when `top_k` is rejected. -/
theorem limit_left_behind : ¬ ∀ endpoint providerId model options body,
    KeepsBody endpoint providerId model options body := by
  intro h
  have hbody := h .responses ID_OPENAI "gpt-5"
    { maxOutputTokens := some 512, topK := some 40 } (.object []) _ _ rfl
  exact absurd hbody (by decide)

end Tokn.Requests.Generation
