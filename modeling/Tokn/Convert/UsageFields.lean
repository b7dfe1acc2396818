import Tokn.Convert.Ir

/-!
# Usage, written and read back

`usage_to_chat` and `usage_to_io` write the same object under different names, and
`usage_from_openai` knows the names of both. What it reads of a written usage is that usage with
its counts filled in, if none of the extras has a name that it knows (`readUsage_written`).
-/

namespace Tokn.Convert

open Value

/-- The body of `usage_from_openai`. -/
def readUsage (u : Value) : Usage where
  inputTokens := (u.get "prompt_tokens" <|> u.get "input_tokens").bind asU64
  outputTokens := (u.get "completion_tokens" <|> u.get "output_tokens").bind asU64
  totalTokens := u.u64 "total_tokens"
  inputTokensDetails := u.get "input_tokens_details" <|> u.get "prompt_tokens_details"
  outputTokensDetails := u.get "output_tokens_details" <|> u.get "completion_tokens_details"
  extras := (u.asObject.map fun o => extrasFromObject o openaiUsageKeys).getD []

theorem usageFromOpenai_eq (v : Value) : usageFromOpenai v = (v.get "usage").map readUsage := rfl

/-- The names of the two dialects. -/
inductive UsageNames : String → String → String → String → Prop
  | chat : UsageNames "prompt_tokens" "completion_tokens" "prompt_tokens_details"
      "completion_tokens_details"
  | io : UsageNames "input_tokens" "output_tokens" "input_tokens_details" "output_tokens_details"

/-- A usage with its counts filled in. -/
def Usage.filled (u : Usage) : Usage :=
  { u with
    inputTokens := some (u.inputTokens.getD 0)
    outputTokens := some (u.outputTokens.getD 0)
    totalTokens :=
      some (u.totalTokens.getD (u64Add (u.inputTokens.getD 0) (u.outputTokens.getD 0))) }

/-- The keys of a usage that have no field of their own. -/
def isExtra (key : String) : Bool := !openaiUsageKeys.contains key

variable {input output inputDetails outputDetails : String}

/-- The entries of a written usage. -/
def usageEntries (input output inputDetails outputDetails : String) (u : Usage) :
    BTreeMap String Value :=
  ((usageToObject input output inputDetails outputDetails u).asObject).getD []

theorem sorted_usageEntries (u : Usage) :
    BTreeMap.Sorted (usageEntries input output inputDetails outputDetails u) := by
  have hcounts := ((((BTreeMap.sorted_nil (κ := String) (ν := Value)).extend u.extras).insert
    input (.nat (u.inputTokens.getD 0))).insert
    output (.nat (u.outputTokens.getD 0))).insert "total_tokens"
    (.nat (u.totalTokens.getD (u64Add (u.inputTokens.getD 0) (u.outputTokens.getD 0))))
  rw [usageEntries, usageToObject]
  cases u.inputTokensDetails <;> cases u.outputTokensDetails
  · exact hcounts
  · exact hcounts.insert ..
  · exact hcounts.insert ..
  · exact (hcounts.insert ..).insert ..

/-- A field of a written usage. -/
theorem get_usageToObject (u : Usage) (k : String) :
    (usageToObject input output inputDetails outputDetails u).get k =
      if k = outputDetails ∧ u.outputTokensDetails.isSome then u.outputTokensDetails
      else if k = inputDetails ∧ u.inputTokensDetails.isSome then u.inputTokensDetails
      else if k = "total_tokens" then
        some (nat (u.totalTokens.getD (u64Add (u.inputTokens.getD 0) (u.outputTokens.getD 0))))
      else if k = output then some (nat (u.outputTokens.getD 0))
      else if k = input then some (nat (u.inputTokens.getD 0))
      else (BTreeMap.extend [] u.extras).get k := by
  rw [usageToObject]
  cases u.inputTokensDetails <;> cases u.outputTokensDetails <;>
    simp [Value.get, BTreeMap.get_insert]

theorem sorted_extras_written (u : Usage) :
    BTreeMap.Sorted
      (readUsage (usageToObject input output inputDetails outputDetails u)).extras := by
  show BTreeMap.Sorted (extrasFromObject (usageEntries _ _ _ _ u) openaiUsageKeys)
  exact List.Pairwise.sublist ((List.filter_sublist (l := usageEntries _ _ _ _ u)).map Prod.fst)
    (sorted_usageEntries u)

theorem extras_written_known (u : Usage) :
    ∀ e ∈ (readUsage (usageToObject input output inputDetails outputDetails u)).extras,
      e.1 ∉ openaiUsageKeys := by
  intro e he
  have hmem : e ∈ (usageEntries input output inputDetails outputDetails u).filter
      fun e => isExtra e.1 := he
  simpa [isExtra] using (List.mem_filter.mp hmem).2

/-- **A usage without extras of a known name is read back with its counts filled in.** -/
theorem readUsage_written (names : UsageNames input output inputDetails outputDetails) {u : Usage}
    (hsorted : BTreeMap.Sorted u.extras) (hextras : ∀ e ∈ u.extras, e.1 ∉ openaiUsageKeys) :
    readUsage (usageToObject input output inputDetails outputDetails u) = u.filled := by
  have hnone : ∀ k ∈ openaiUsageKeys, (BTreeMap.extend [] u.extras).get k = none := by
    intro k hk
    rw [BTreeMap.extend_nil_of_sorted hsorted]
    refine BTreeMap.get_eq_none_iff.mpr fun hmem => ?_
    obtain ⟨e, he, rfl⟩ := List.mem_map.mp hmem
    exact hextras e he hk
  have hread : (readUsage (usageToObject input output inputDetails outputDetails u)).extras =
      u.extras := by
    refine (sorted_extras_written u).ext hsorted fun k => ?_
    show BTreeMap.get ((usageEntries _ _ _ _ u).filter fun e => isExtra e.1) k = _
    rw [BTreeMap.get_filter]
    by_cases hk : k ∈ openaiUsageKeys
    · rw [if_neg (by simpa [isExtra] using hk), ← hnone k hk, BTreeMap.extend_nil_of_sorted hsorted]
    · rw [if_pos (by simpa [isExtra] using hk)]
      refine (get_usageToObject u k).trans ?_
      simp only [openaiUsageKeys, List.mem_cons, List.not_mem_nil, or_false, not_or] at hk
      cases names <;> simp [hk, BTreeMap.extend_nil_of_sorted hsorted]
  simp only [openaiUsageKeys, List.forall_mem_cons, List.not_mem_nil, false_implies, implies_true,
    and_true] at hnone
  rw [Usage.filled, ← hread]
  cases names <;>
    cases hi : u.inputTokensDetails <;>
    cases ho : u.outputTokensDetails <;>
    simp [readUsage, u64, get_usageToObject, hnone, hi, ho, asU64, nat]

end Tokn.Convert
