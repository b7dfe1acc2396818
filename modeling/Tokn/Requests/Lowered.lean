import Tokn.Requests.GenerationProof

/-!
# What a finished lowering leaves

**Theorem (`lowered_body`).** A lowering that succeeds leaves the requested limit as the only one, or
the limits of the body if none is requested. Manual reasoning for Claude leaves `thinking` enabled
with a budget between 1024 and the limit that is in the body then.
-/

namespace Tokn.Requests.Generation

open Value JsonText
open Tokn.Convert (Endpoint insertOpt get_insertOpt)
open Stateful (reading updating Keeps keeps_reading keeps_updating)

variable {endpoint : Endpoint} {providerId model : String} {options : GenerationOptions}
  {r : ReasoningOptions} {o o' : BTreeMap String Value}

/-! ## What stays -/

/-- The fields that reasoning is written to. -/
def reasoningKeys : List String := ["reasoning", "thinking", "reasoning_effort", "output_config"]

section

variable {k : String} (hk : k ∉ reasoningKeys)

include hk

theorem ne_of_notMem_reasoningKeys :
    k ≠ "reasoning" ∧ k ≠ "thinking" ∧ k ≠ "reasoning_effort" ∧ k ≠ "output_config" := by
  simpa [reasoningKeys] using hk

theorem get_writeResponsesReasoning :
    (writeResponsesReasoning r o).get k = o.get k := by
  obtain ⟨hreasoning, -, -, -⟩ := ne_of_notMem_reasoningKeys hk
  rw [writeResponsesReasoning]
  split_ifs <;> simp [get_objectField, hreasoning]

theorem get_writeDeepseekReasoning :
    (writeDeepseekReasoning endpoint r o).get k = o.get k := by
  obtain ⟨hreasoning, hthinking, heffort, hconfig⟩ := ne_of_notMem_reasoningKeys hk
  rw [writeDeepseekReasoning]
  cases r.effort <;> dsimp only <;> split_ifs <;>
    simp [get_objectField, BTreeMap.get_insert, BTreeMap.get_erase, *]

theorem get_writeZaiReasoning : (writeZaiReasoning r o).get k = o.get k := by
  obtain ⟨hreasoning, hthinking, -, -⟩ := ne_of_notMem_reasoningKeys hk
  rw [writeZaiReasoning]
  cases r.mode <;> simp [get_objectField, BTreeMap.get_erase, hreasoning, hthinking]

theorem get_writeChatReasoning : (writeChatReasoning r o).get k = o.get k := by
  obtain ⟨hreasoning, hthinking, heffort, -⟩ := ne_of_notMem_reasoningKeys hk
  rw [writeChatReasoning]
  split_ifs <;> simp [get_insertOpt, BTreeMap.get_insert, get_removeFields, *]

theorem get_finishReasoning : (finishReasoning r o).get k = o.get k := by
  obtain ⟨-, hthinking, -, hconfig⟩ := ne_of_notMem_reasoningKeys hk
  rw [finishReasoning]
  cases r.effort <;> dsimp only <;> split_ifs <;>
    simp [get_objectField, BTreeMap.get_erase, hthinking, hconfig]

theorem keeps_writeClaudeMode :
    Keeps (fun o => o.get k) (writeClaudeMode endpoint providerId r) := by
  obtain ⟨-, hthinking, -, -⟩ := ne_of_notMem_reasoningKeys hk
  have hobject : ∀ f, Keeps (fun o => o.get k)
      (updating fun o => objectField o "thinking" f : Lowering) := by
    intro f
    refine keeps_updating fun o => ?_
    rw [get_objectField, if_neg hthinking]
  rw [writeClaudeMode]
  cases r.mode with
  | none =>
    cases r.budgetTokens with
    | none => exact Stateful.keeps_pure _ _
    | some budget => exact hobject _
  | some mode =>
    cases mode with
    | enabled => exact hobject _
    | _ => exact (keeps_reading _ _).bind fun _ => hobject _

theorem keeps_lowerClaudeReasoning :
    Keeps (fun o => o.get k) (lowerClaudeReasoning endpoint providerId model r) := by
  obtain ⟨hreasoning, hthinking, -, -⟩ := ne_of_notMem_reasoningKeys hk
  refine (keeps_reading _ _).bind fun _ => (keeps_reading _ _).bind fun _ => ?_
  refine (keeps_updating fun o => get_stripReasoning hreasoning hthinking).bind fun _ => ?_
  exact (keeps_writeClaudeMode hk).bind fun _ =>
    keeps_updating fun o => get_finishReasoning hk

theorem keeps_lowerDeepseekReasoning :
    Keeps (fun o => o.get k) (lowerDeepseekReasoning endpoint providerId r) := by
  by_cases hendpoint : endpoint = .responses
  · rw [lowerDeepseekReasoning, if_pos hendpoint]
    exact keeps_reading _ _
  · rw [lowerDeepseekReasoning, if_neg hendpoint]
    iterate 5 refine (keeps_reading _ _).bind fun _ => ?_
    exact keeps_updating fun o => get_writeDeepseekReasoning hk

/-- Reasoning is written to its own fields only. -/
theorem keeps_lowerReasoning :
    Keeps (fun o => o.get k) (lowerReasoning endpoint providerId model r) := by
  cases endpoint with
  | responses =>
    refine (keeps_reading _ _).bind fun _ => (keeps_reading _ _).bind fun _ => ?_
    exact keeps_updating fun o => get_writeResponsesReasoning hk
  | chatCompletions =>
    rw [lowerReasoning, lowerChatReasoning]
    split_ifs
    · exact keeps_reading _ _
    · exact keeps_lowerDeepseekReasoning hk
    · iterate 4 refine (keeps_reading _ _).bind fun _ => ?_
      exact keeps_updating fun o => get_writeZaiReasoning hk
    · exact keeps_lowerClaudeReasoning hk
    · iterate 3 refine (keeps_reading _ _).bind fun _ => ?_
      exact keeps_updating fun o => get_writeChatReasoning hk
  | messages =>
    rw [lowerReasoning, lowerMessagesReasoning]
    split_ifs
    · exact keeps_lowerDeepseekReasoning hk
    · exact keeps_lowerClaudeReasoning hk

end

theorem keeps_lowerTopK {k : String} (hk : k ≠ "top_k") (topK : Nat) :
    Keeps (fun o => o.get k) (lowerTopK endpoint providerId topK) := by
  rw [lowerTopK]
  split_ifs
  · exact keeps_updating fun o => BTreeMap.get_insert_of_ne _ hk _
  · exact keeps_reading _ _

theorem keeps_whenSome {α β : Type} {view : BTreeMap String Value → β} {lower : α → Lowering}
    (h : ∀ a, Keeps view (lower a)) (a : Option α) : Keeps view (whenSome lower a) := by
  cases a with
  | none => exact Stateful.keeps_pure _ _
  | some a => exact h a

/-! ## Manual reasoning -/

theorem lowerReasoning_of_claude (h : dialectOf endpoint providerId model = .claude) :
    lowerReasoning endpoint providerId model r =
      lowerClaudeReasoning endpoint providerId model r := by
  cases endpoint with
  | responses => cases h
  | chatCompletions =>
    rw [dialectOf] at h
    split_ifs at h with hllama hdeepseek hzai hclaude
    rw [lowerReasoning, lowerChatReasoning, if_neg hllama, if_neg hdeepseek, if_neg hzai,
      if_pos hclaude]
  | messages =>
    rw [dialectOf] at h
    split_ifs at h with hdeepseek
    rw [lowerReasoning, lowerMessagesReasoning, if_neg hdeepseek]

/-- `thinking` is enabled with a budget. -/
def ThinkingEnabled (budget : Nat) (o : BTreeMap String Value) : Prop :=
  ∃ thinking, BTreeMap.get o "thinking" = some (.object thinking) ∧
    BTreeMap.get thinking "type" = some (.string "enabled") ∧
    BTreeMap.get thinking "budget_tokens" = some (nat budget)

theorem thinkingEnabled_of_writeClaudeMode {budget : Nat}
    (hbudget : r.budgetTokens = some budget)
    (h : (writeClaudeMode endpoint providerId r).outcome o = (.ok (), o')) :
    ThinkingEnabled budget o' := by
  rw [writeClaudeMode, hbudget] at h
  cases hmode : r.mode with
  | none =>
    rw [hmode] at h
    cases h
    exact ⟨_, BTreeMap.get_insert_self _ _ _, by simp [BTreeMap.get_insert], by simp⟩
  | some mode =>
    cases mode with
    | enabled =>
      rw [hmode] at h
      cases h
      exact ⟨_, BTreeMap.get_insert_self _ _ _, by simp [get_insertOpt],
        by simp [get_insertOpt]⟩
    | _ =>
      rw [hmode] at h
      cases h

theorem ThinkingEnabled.finishReasoning {budget : Nat} (h : ThinkingEnabled budget o) :
    ThinkingEnabled budget (finishReasoning r o) := by
  obtain ⟨thinking, hthinking, htype, hbudget⟩ := h
  refine ⟨thinking, ?_, htype, hbudget⟩
  have hne : thinking ≠ [] := by
    rintro rfl
    cases htype
  have hkept : ∀ o', o'.get "thinking" = some (.object thinking) →
      BTreeMap.get (if (BTreeMap.get o' "thinking").bind asObject = some [] then
        BTreeMap.erase o' "thinking" else o') "thinking" = some (.object thinking) := by
    intro o' ho'
    rw [ho', if_neg (by simpa [asObject] using hne), ho']
  rw [Generation.finishReasoning]
  cases r.effort with
  | none => exact hkept o hthinking
  | some effort =>
    refine hkept _ ?_
    rw [get_objectField, if_neg (by decide), hthinking]

/-- Manual reasoning for Claude leaves its budget, which fits the limit that was there. -/
theorem manual_of_lowerReasoning (hclaude : dialectOf endpoint providerId model = .claude)
    (hmanual : isManual r = true)
    (h : (lowerReasoning endpoint providerId model r).outcome o = (.ok (), o')) :
    BudgetFits r ((o.get "max_tokens").bind asU64) ∧
      ∀ budget, r.budgetTokens = some budget → ThinkingEnabled budget o' := by
  rw [lowerReasoning_of_claude hclaude] at h
  obtain ⟨-, e, he⟩ | ⟨hpasses, hout⟩ := outcome_lowerClaudeReasoning endpoint providerId model r o
  · cases he.symm.trans h
  refine ⟨?_, fun budget hbudget => ?_⟩
  · by_contra hfits
    exact hpasses (.inr (.inr (.inl ⟨hmanual, .inl hfits⟩)))
  · obtain ⟨⟨⟩, o'', hmode, hfinish⟩ := Stateful.bind_eq_ok.mp (hout.symm.trans h)
    cases hfinish
    exact (thinkingEnabled_of_writeClaudeMode hbudget hmode).finishReasoning

/-! ## The theorem -/

def tokenLimits (body : Value) : List (String × Value) :=
  tokenKeys.filterMap fun k => (body.get k).map fun v => (k, v)

theorem tokenLimits_congr (h : ∀ k ∈ tokenKeys, o.get k = o'.get k) :
    tokenLimits (.object o) = tokenLimits (.object o') := by
  refine List.filterMap_congr fun k hk => ?_
  rw [Value.get, Value.get, h k hk]

theorem tokenLimits_limited :
    tokenLimits (.object (limited endpoint providerId model options o)) =
      match options.maxOutputTokens with
      | none => tokenLimits (.object o)
      | some limit => [((limitKeys endpoint providerId model).key, nat limit)] := by
  rw [limited]
  cases options.maxOutputTokens with
  | none => rfl
  | some limit =>
    have hget : ∀ k, (Value.object (writeLimit (limitKeys endpoint providerId model) limit o)).get k
        = _ := fun k => get_writeLimit _ limit k
    simp only [tokenLimits, hget]
    cases endpoint with
    | chatCompletions =>
      rw [limitKeys]
      split_ifs <;> simp [tokenKeys]
    | _ => simp [limitKeys, tokenKeys]

/-- The limits that a lowering should leave, and the budget of manual reasoning. -/
structure Lowered (endpoint : Endpoint) (providerId model : String) (options : GenerationOptions)
    (body body' : Value) : Prop where
  limits : tokenLimits body' = match options.maxOutputTokens with
    | none => tokenLimits body
    | some limit => [((limitKeys endpoint providerId model).key, nat limit)]
  manual : ∀ r, options.reasoning = some r → dialectOf endpoint providerId model = .claude →
    isManual r = true → ∃ o' b m, body' = .object o' ∧ r.budgetTokens = some b ∧
      ThinkingEnabled b o' ∧ (BTreeMap.get o' "max_tokens").bind asU64 = some m ∧ 1024 ≤ b ∧ b < m

theorem lowered_of_lowerFields
    (h : (lowerFields endpoint providerId model options).outcome o = (.ok (), o')) :
    Lowered endpoint providerId model options (.object o) (.object o') := by
  have hlimit : ¬ LimitRejected endpoint providerId options := by
    intro hrejected
    obtain ⟨e, he⟩ := @outcome_of_limitRejected endpoint providerId model options o hrejected
    cases he.symm.trans h
  rw [outcome_of_not_limitRejected hlimit] at h
  obtain ⟨⟨⟩, o'', htopK, hreasoning⟩ := Stateful.bind_eq_ok.mp h
  have hkept : ∀ k ∉ reasoningKeys, o'.get k = o''.get k := by
    intro k hk
    have hkeeps := keeps_whenSome (fun r => @keeps_lowerReasoning endpoint providerId model r k hk)
      options.reasoning o''
    rw [hreasoning] at hkeeps
    exact hkeeps
  refine ⟨?_, fun r hr hclaude hmanual => ?_⟩
  · rw [← @tokenLimits_limited endpoint providerId model options o]
    refine tokenLimits_congr fun k hk => ?_
    have hplain : k ∉ reasoningKeys ∧ k ≠ "top_k" := by
      revert k
      decide
    have hkeeps := keeps_whenSome (@keeps_lowerTopK endpoint providerId k hplain.2) options.topK
      (limited endpoint providerId model options o)
    rw [htopK] at hkeeps
    exact (hkept k hplain.1).trans hkeeps
  · rw [hr] at hreasoning
    obtain ⟨⟨b, m, hb, hm, hlow, hhigh⟩, hthinking⟩ :=
      manual_of_lowerReasoning hclaude hmanual hreasoning
    refine ⟨o', b, m, rfl, hb, hthinking b hb, ?_, hlow, hhigh⟩
    rw [hkept "max_tokens" (by decide), hm]

/-- **A finished lowering.** The requested limit is the only one, or the limits are as they were, and
a manual Claude budget is at least 1024 and below the limit. -/
theorem lowered_body {body body' : Value}
    (h : lowerGenerationOptions endpoint providerId model options body = (.ok (), body')) :
    Lowered endpoint providerId model options body body' := by
  unfold lowerGenerationOptions at h
  split_ifs at h with hempty
  · cases h
    obtain ⟨limit, topK, reasoning⟩ := options
    simp only [GenerationOptions.isEmpty, Bool.and_eq_true, Option.isNone_iff_eq_none] at hempty
    obtain ⟨⟨rfl, rfl⟩, rfl⟩ := hempty
    refine ⟨rfl, fun r hr => ?_⟩
    cases hr
  · cases body with
    | object o =>
      obtain ⟨hresult, rfl⟩ := Prod.mk.inj h
      exact lowered_of_lowerFields (Prod.ext hresult rfl)
    | _ => cases h

theorem manualClaude_lowered :
    Lowered .messages "opencode-go" "claude-sonnet-4-5"
      { maxOutputTokens := some 4096,
        reasoning := some { mode := some .enabled, budgetTokens := some 2048 } }
      (obj [("max_completion_tokens", nat 100), ("max_tokens", nat 200)])
      (obj [("max_tokens", nat 4096), ("thinking", obj [("type", .string "enabled"),
        ("budget_tokens", nat 2048)])]) :=
  lowered_body (by decide +kernel)

/-- Where no limit is requested and none is there, none is left. -/
theorem no_limit_left : ¬ ∀ endpoint providerId model options body body',
    lowerGenerationOptions endpoint providerId model options body = (.ok (), body') →
      (tokenLimits body').length = 1 := by
  intro h
  have hone := h .responses ID_OPENAI "gpt-5" { reasoning := some { effort := some .low } }
    (.object []) _ rfl
  exact absurd hone (by decide)

end Tokn.Requests.Generation
