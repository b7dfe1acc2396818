import Tokn.Accounts.AcquireOutcome
import Tokn.Router.Selector

/-!
# The first pass that has a binding

**Theorem (`select_managed_outcome`).** `select_managed` selects a binding that the route and the key
allow and that fits the first pass which has one that is not cooling. It denies the access if
bindings fit some pass, and the key allows none of them.
-/

namespace Tokn.Router

open Tokn.Accounts (Clock LinkedAccountPool PoolAcquire PoolRuntime ProviderBinding)
open Tokn.Accounts.Acquisition (Outcome Regular Usable)
open Tokn.Convert (Endpoint)
open Tokn.Policy (ManagedRoute)

variable {pool : LinkedAccountPool} {route : ManagedRoute} {allowed : Option (List String)}
  {st : PoolRuntime}

/-! ## Answers -/

/-- A binding of the pool is there for a pass: it fits, the key allows its provider, and it is not
cooling. -/
structure Available (pool : LinkedAccountPool) (route : ManagedRoute)
    (allowed : Option (List String)) (st : PoolRuntime) (now : Nat) (pass : Pass)
    (binding : ProviderBinding) : Prop where
  mem : binding ∈ pool.active ++ pool.fallback
  fits : pass.fits route binding = true
  allowed : providerAllowed binding.providerId allowed = true
  healthy : st.coolingUntil now binding.key = none

/-- No binding is there for the passes before the `i`-th. -/
def NoneBefore (pool : LinkedAccountPool) (route : ManagedRoute) (allowed : Option (List String))
    (st : PoolRuntime) (now : Nat → Nat) (ps : List Pass) (i : Nat) : Prop :=
  ∀ j pass, j < i → ps[j]? = some pass → ∀ binding,
    ¬ Available pool route allowed st (now j) pass binding

/-- What the loops answer. -/
structure Answers (pool : LinkedAccountPool) (route : ManagedRoute) (allowed : Option (List String))
    (st : PoolRuntime) (now : Nat → Nat) (ps : List Pass) (outcome : SelectorOutcome) : Prop where
  selected : ∀ accountId providerId endpoint model binding,
    outcome = .selected accountId providerId endpoint model binding →
      ∃ i pass, ps[i]? = some pass ∧
        outcome = selectedOutcome binding pass.operation pass.candidate.model ∧
        Available pool route allowed st (now i) pass binding ∧
        NoneBefore pool route allowed st now ps i
  unavailable : (∀ accountId providerId endpoint model binding,
    outcome ≠ .selected accountId providerId endpoint model binding) →
      NoneBefore pool route allowed st now ps ps.length
  denied : outcome = .providerAccessDenied ↔
    (∃ pass ∈ ps, ∃ binding ∈ pool.active ++ pool.fallback, pass.fits route binding = true) ∧
      ∀ pass ∈ ps, ∀ binding ∈ pool.active ++ pool.fallback, pass.fits route binding = true →
        providerAllowed binding.providerId allowed = false

/-! ## One pass -/

theorem usable_request_iff {now : Nat} {pass : Pass} {binding : ProviderBinding} :
    Usable st now (pass.request route allowed) binding ↔
      pass.fits route binding = true ∧ providerAllowed binding.providerId allowed = true ∧
        st.coolingUntil now binding.key = none := by
  rw [Usable, Pass.request, Bool.and_eq_true, and_assoc]

/-- Without a selection, there is nothing to select. -/
theorem not_usable_of_outcome {now : Nat} {request : Accounts.RequestClass}
    {sessionId : Option String} {reply : PoolAcquire} (h : Outcome pool st now request sessionId reply)
    (hreply : ∀ binding, reply ≠ .selected binding) {binding : ProviderBinding}
    (hmem : binding ∈ pool.active ++ pool.fallback) : ¬ Usable st now request binding := by
  rintro ⟨heligible, hhealthy⟩
  cases reply with
  | selected other => exact hreply other rfl
  | coolingDown retryAt =>
    have hcooling := ((h.coolingDown retryAt).mp rfl).2.1 binding hmem heligible
    rw [hhealthy] at hcooling
    cases hcooling
  | noEligible =>
    rw [h.noEligible.mp rfl binding hmem] at heligible
    cases heligible

/-- Health is a matter of cooldowns. -/
theorem available_congr {st' : PoolRuntime} (h : st'.cooldowns = st.cooldowns) {now : Nat}
    {pass : Pass} {binding : ProviderBinding} :
    Available pool route allowed st' now pass binding ↔
      Available pool route allowed st now pass binding := by
  have hhealth : st'.coolingUntil now binding.key = st.coolingUntil now binding.key := by
    rw [PoolRuntime.coolingUntil, PoolRuntime.coolingUntil, h]
  constructor
  · rintro ⟨hmem, hfits, hallowed, hhealthy⟩
    exact ⟨hmem, hfits, hallowed, hhealth ▸ hhealthy⟩
  · rintro ⟨hmem, hfits, hallowed, hhealthy⟩
    exact ⟨hmem, hfits, hallowed, hhealth.trans hhealthy⟩

/-! ## What the loops find -/

/-- What the loops find in all passes. -/
def observeAll (pool : LinkedAccountPool) (route : ManagedRoute) (allowed : Option (List String))
    (ps : List Pass) (found : Found) : Found :=
  ps.foldl (fun found pass =>
    (pool.active ++ pool.fallback).foldl (observeBinding route allowed pass) found) found

theorem observeBinding_foldl (pass : Pass) (bindings : List ProviderBinding) (found : Found) :
    ((bindings.foldl (observeBinding route allowed pass) found).matchingBindingExists = true ↔
      found.matchingBindingExists = true ∨ ∃ binding ∈ bindings, pass.fits route binding = true) ∧
    ((bindings.foldl (observeBinding route allowed pass) found).allowedMatchingBindingExists = true ↔
      found.allowedMatchingBindingExists = true ∨ ∃ binding ∈ bindings,
        pass.fits route binding = true ∧ providerAllowed binding.providerId allowed = true) := by
  induction bindings generalizing found with
  | nil => simp
  | cons binding bindings ih =>
    obtain ⟨hmatching, hallowed⟩ := ih (observeBinding route allowed pass found binding)
    rw [List.foldl_cons, hmatching, hallowed, observeBinding]
    by_cases hfits : pass.fits route binding = true
    · simp [hfits, or_assoc]
    · simp [hfits]

theorem observeAll_spec (ps : List Pass) (found : Found) :
    ((observeAll pool route allowed ps found).matchingBindingExists = true ↔
      found.matchingBindingExists = true ∨
        ∃ pass ∈ ps, ∃ binding ∈ pool.active ++ pool.fallback, pass.fits route binding = true) ∧
    ((observeAll pool route allowed ps found).allowedMatchingBindingExists = true ↔
      found.allowedMatchingBindingExists = true ∨
        ∃ pass ∈ ps, ∃ binding ∈ pool.active ++ pool.fallback,
          pass.fits route binding = true ∧ providerAllowed binding.providerId allowed = true) := by
  induction ps generalizing found with
  | nil => simp [observeAll]
  | cons pass ps ih =>
    obtain ⟨hone, honeAllowed⟩ := @observeBinding_foldl route allowed pass
      (pool.active ++ pool.fallback) found
    obtain ⟨hmatching, hallowed⟩ := ih
      ((pool.active ++ pool.fallback).foldl (observeBinding route allowed pass) found)
    rw [observeAll, List.foldl_cons, ← observeAll, hmatching, hallowed, hone, honeAllowed]
    simp only [List.exists_mem_cons_iff, or_assoc, and_self]

/-- The denial, by what is found. -/
theorem managedUnavailableOutcome_eq_denied (found : Found) :
    managedUnavailableOutcome found = .providerAccessDenied ↔
      found.matchingBindingExists = true ∧ ¬ found.allowedMatchingBindingExists = true := by
  rw [managedUnavailableOutcome]
  cases found.matchingBindingExists <;> cases found.allowedMatchingBindingExists <;> simp

/-! ## The loops -/

/-- **The loops end with the first pass that has a binding**, or with what they have found. -/
theorem selectPasses_spec (sessionId : Option String) (ps : List Pass) (now : Nat → Nat)
    (found : Found) (h : Regular st) :
    (∃ i pass binding, ps[i]? = some pass ∧
      (selectPasses pool route allowed sessionId now ps found st).1 =
        selectedOutcome binding pass.operation pass.candidate.model ∧
      Available pool route allowed st (now i) pass binding ∧
      NoneBefore pool route allowed st now ps i) ∨
    ((selectPasses pool route allowed sessionId now ps found st).1 =
        managedUnavailableOutcome (observeAll pool route allowed ps found) ∧
      NoneBefore pool route allowed st now ps ps.length) := by
  induction ps generalizing now found st with
  | nil => exact Or.inr ⟨rfl, fun j pass hj => absurd hj (Nat.not_lt_zero j)⟩
  | cons pass ps ih =>
    have hregular := h.step pool ⟨0⟩ (.acquire (now 0) sessionId (pass.request route allowed))
    obtain ⟨houtcome, hcooldowns, -⟩ :=
      Accounts.Acquisition.acquireRanked_spec h pool (now 0) sessionId (pass.request route allowed)
    rw [selectPasses]
    simp only [Accounts.Acquisition.step] at hregular
    generalize st.acquireRanked pool (now 0) sessionId (pass.request route allowed) = result
      at houtcome hcooldowns hregular
    obtain ⟨reply, next⟩ := result
    dsimp only at houtcome hcooldowns hregular ⊢
    -- Where this pass has no binding, the others are as in the state after it.
    have hrest (hreply : ∀ binding, reply ≠ .selected binding) {i : Nat}
        (hbefore : NoneBefore pool route allowed next (fun n => now (n + 1)) ps i) :
        NoneBefore pool route allowed st now (pass :: ps) (i + 1) := by
      intro j other hj hother binding havailable
      cases j with
      | zero =>
        cases hother
        exact not_usable_of_outcome houtcome hreply havailable.mem
          (usable_request_iff.mpr ⟨havailable.fits, havailable.allowed, havailable.healthy⟩)
      | succ j =>
        exact hbefore j other (Nat.lt_of_succ_lt_succ hj) hother binding
          ((available_congr hcooldowns).mpr havailable)
    have hnext (hreply : ∀ binding, reply ≠ .selected binding) :
        (∃ i other binding, (pass :: ps)[i]? = some other ∧
          (selectPasses pool route allowed sessionId (fun n => now (n + 1)) ps
            ((pool.active ++ pool.fallback).foldl (observeBinding route allowed pass) found)
            next).1 = selectedOutcome binding other.operation other.candidate.model ∧
          Available pool route allowed st (now i) other binding ∧
          NoneBefore pool route allowed st now (pass :: ps) i) ∨
        ((selectPasses pool route allowed sessionId (fun n => now (n + 1)) ps
            ((pool.active ++ pool.fallback).foldl (observeBinding route allowed pass) found)
            next).1 =
            managedUnavailableOutcome (observeAll pool route allowed (pass :: ps) found) ∧
          NoneBefore pool route allowed st now (pass :: ps) (pass :: ps).length) := by
      rcases ih (fun n => now (n + 1))
        ((pool.active ++ pool.fallback).foldl (observeBinding route allowed pass) found) hregular with
        ⟨i, other, binding, hother, hselected, havailable, hbefore⟩ | ⟨hunavailable, hbefore⟩
      · exact Or.inl ⟨i + 1, other, binding, hother, hselected,
          (available_congr hcooldowns).mp havailable, hrest hreply hbefore⟩
      · exact Or.inr ⟨hunavailable, hrest hreply hbefore⟩
    cases reply with
    | selected binding =>
      obtain ⟨hmem, husable, -⟩ := houtcome.selected binding rfl
      obtain ⟨hfits, hallowed, hhealthy⟩ := usable_request_iff.mp husable
      exact Or.inl ⟨0, pass, binding, rfl, rfl, ⟨hmem, hfits, hallowed, hhealthy⟩,
        fun j other hj => absurd hj (Nat.not_lt_zero j)⟩
    | coolingDown retryAt => exact hnext (by simp)
    | noEligible => exact hnext (by simp)

/-- **The loops answer right.** -/
theorem answers_selectPasses (sessionId : Option String) (ps : List Pass) (now : Nat → Nat)
    (h : Regular st) :
    Answers pool route allowed st now ps
      (selectPasses pool route allowed sessionId now ps {} st).1 := by
  rcases @selectPasses_spec pool route allowed st sessionId ps now {} h with
    ⟨i, pass, binding, hpass, hselected, havailable, hbefore⟩ | ⟨hunavailable, hbefore⟩
  · rw [hselected]
    refine ⟨?_, ?_, ?_⟩
    · intro accountId providerId endpoint model other heq
      have hother : binding = other := by
        cases heq
        rfl
      rw [← hother]
      exact ⟨i, pass, hpass, rfl, havailable, hbefore⟩
    · intro hno
      exact absurd rfl (hno _ _ _ _ binding)
    · refine iff_of_false (by simp [selectedOutcome]) ?_
      rintro ⟨-, hall⟩
      have hdenied := hall pass (List.mem_of_getElem? hpass) binding havailable.mem havailable.fits
      rw [havailable.allowed] at hdenied
      cases hdenied
  · obtain ⟨hmatching, hallowed⟩ := @observeAll_spec pool route allowed ps {}
    rw [hunavailable]
    refine ⟨?_, fun _ => hbefore, ?_⟩
    · intro accountId providerId endpoint model binding heq
      rw [managedUnavailableOutcome] at heq
      split_ifs at heq
    · rw [managedUnavailableOutcome_eq_denied, hmatching, hallowed]
      simp

/-- **Selection for a managed route**, in each state that the calls of a pool reach. -/
theorem select_managed_outcome (pool : LinkedAccountPool) (clock : Clock)
    (calls : List Accounts.Acquisition.Call) (route : ManagedRoute) (ctx : PipelineCtx)
    (extracted : Extracted) (now : Nat → Nat) :
    let st := calls.foldl (Accounts.Acquisition.step pool clock) pool.runtime
    let answer := (selectManaged pool route ctx extracted now st).1
    (∃ e, answer = .error e ∧ (resolvedEndpoint ctx = .error e ∨ allowedProviderIds ctx = .error e ∨
      modelCandidates route extracted.model = .error e)) ∨
    ∃ endpoint allowed candidates outcome, resolvedEndpoint ctx = .ok endpoint ∧
      allowedProviderIds ctx = .ok allowed ∧ modelCandidates route extracted.model = .ok candidates ∧
      answer = .ok outcome ∧ Answers pool route allowed st now
        (passes candidates (operationCandidates route.operation endpoint)) outcome := by
  intro st answer
  have hregular : Regular st := Accounts.Acquisition.regular_run pool clock calls
  have hanswer : answer = (selectManaged pool route ctx extracted now st).1 := rfl
  rw [selectManaged] at hanswer
  cases hendpoint : resolvedEndpoint ctx with
  | error e =>
    rw [hendpoint] at hanswer
    exact Or.inl ⟨e, hanswer, Or.inl rfl⟩
  | ok endpoint =>
    rw [hendpoint] at hanswer
    cases hallowed : allowedProviderIds ctx with
    | error e =>
      rw [hallowed] at hanswer
      exact Or.inl ⟨e, hanswer, Or.inr (Or.inl rfl)⟩
    | ok allowed =>
      rw [hallowed] at hanswer
      cases hcandidates : modelCandidates route extracted.model with
      | error e =>
        rw [hcandidates] at hanswer
        exact Or.inl ⟨e, hanswer, Or.inr (Or.inr rfl)⟩
      | ok candidates =>
        rw [hcandidates] at hanswer
        exact Or.inr ⟨endpoint, allowed, candidates, _, rfl, rfl, rfl, hanswer,
          answers_selectPasses extracted.sessionId _ now hregular⟩

end Tokn.Router
