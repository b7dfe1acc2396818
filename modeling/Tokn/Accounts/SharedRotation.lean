import Tokn.Accounts.Rotation

/-!
# The rotation of a pool, shared

Requests of several kinds move the same cursor, whatever candidates each finds.

**Theorem (`sharedRotation_reaches`).** The selections of one kind are what their places among all the
selections of the tier say, and they reach every candidate just when those places reach every
remainder. Where they do not, a candidate may wait for ever (`sharedRotation_starves`).
-/

namespace Tokn.Accounts

namespace RotationRun

variable {pool : LinkedAccountPool}

/-! ## Kinds of requests -/

/-- A call of the own kind or of the other. -/
structure MixedCall where
  own : Bool
  now : Nat
  sessionId : Option String

def MixedCall.call (own other : RequestClass) (mixed : MixedCall) : Call where
  now := mixed.now
  sessionId := mixed.sessionId
  request := if mixed.own then own else other

/-- The selections from a tier that calls of the own kind got. -/
def ownSelections (pool : LinkedAccountPool) (st : PoolRuntime) (tier : AccountTier)
    (own other : RequestClass) (pattern : List MixedCall) : List ProviderBindingKey :=
  (pattern.zip (Machine.run (step pool) st (pattern.map (MixedCall.call own other))).2).filterMap
    fun e => if e.1.own then selectedFrom pool tier e.2 else none

/-- The places of the own selections among the selections of the tier, for a cursor at `cursor`.
`sharing` says whether calls of the other kind get selections from the tier, too. -/
def ownPlaces (cursor : Nat) (sharing : Bool) (pattern : List MixedCall) : List Nat :=
  RoundRobin.places cursor (pattern.map fun mixed => (mixed.own, mixed.own || sharing))

/-- Without affinity, a tier is asked by every call. -/
theorem requests_eq_map {st : PoolRuntime} {tier : AccountTier} {calls : List Call}
    (h : ∀ turn ∈ (Machine.run (step pool) st calls).2, turn.sticky = false) :
    requests pool st tier calls = calls.map (offered pool st tier) := by
  induction calls generalizing st with
  | nil => rfl
  | cons call calls ih =>
    rw [Machine.run_cons] at h
    have hhead := h _ List.mem_cons_self
    have htail := ih fun turn hturn => h turn (List.mem_cons_of_mem _ hturn)
    rw [requests_cons, htail, List.map_cons, asked, hhead, if_neg Bool.false_ne_true,
      offered_congr (step_turn pool st tier call).2.2]

theorem affinity_step (st : PoolRuntime) (call : Call) :
    (step pool st call).1.affinity =
      (st.acquireSticky pool call.now call.sessionId call.request).2 := by
  rw [step, PoolRuntime.acquireRanked]
  obtain ⟨sticky, affinity⟩ := st.acquireSticky pool call.now call.sessionId call.request
  cases sticky with
  | some binding => rfl
  | none =>
    dsimp only
    obtain ⟨found, cursor, earliest⟩ := call.request.selectTier (st.coolingBindings call.now)
      pool.active st.activeCursor none
    cases found with
    | some binding => rfl
    | none =>
      dsimp only
      obtain ⟨found, cursor, earliest⟩ := call.request.selectTier (st.coolingBindings call.now)
        pool.fallback st.fallbackCursor earliest
      cases found with
      | some binding => rfl
      | none => cases earliest <;> rfl

/-- A pool without affinity answers no call by it. -/
theorem sticky_run {st : PoolRuntime} (h : st.affinity = none) (calls : List Call) :
    ∀ turn ∈ (Machine.run (step pool) st calls).2, turn.sticky = false := by
  induction calls generalizing st with
  | nil => nofun
  | cons call calls ih =>
    have hsticky : st.acquireSticky pool call.now call.sessionId call.request = (none, none) := by
      cases hsession : call.sessionId <;> simp only [PoolRuntime.acquireSticky, h]
    have hnext : (step pool st call).1.affinity = none := by
      rw [affinity_step, hsticky]
    have hfirst : (step pool st call).2.sticky = false := by
      rw [step, hsticky]
      rfl
    rw [Machine.run_cons]
    exact List.forall_mem_cons.mpr ⟨hfirst, ih hnext⟩

section

variable {st : PoolRuntime} {tier : AccountTier} {own other : RequestClass}
  {pattern : List MixedCall} {candidates : List ProviderBindingKey} {sharing : Bool}

theorem ownSelections_eq_ownTurns :
    ownSelections pool st tier own other pattern =
      RoundRobin.ownTurns
        (pattern.map fun mixed => (mixed.own, offered pool st tier (mixed.call own other)))
        ((Machine.run (step pool) st (pattern.map (MixedCall.call own other))).2.map
          (selectedFrom pool tier)) := by
  rw [RoundRobin.ownTurns, List.zip_map, List.filterMap_map]
  rfl

/-- **The own selections are those of the own places.** -/
theorem ownSelections_eq (h : 0 < candidates.length) (hcursor : st.cursor tier < usizeSize)
    (hown : ∀ mixed ∈ pattern, mixed.own = true →
      offered pool st tier (mixed.call own other) = some candidates)
    (hother : ∀ mixed ∈ pattern, mixed.own = false →
      (offered pool st tier (mixed.call own other)).isSome = sharing)
    (hsticky : ∀ turn ∈ (Machine.run (step pool) st (pattern.map (MixedCall.call own other))).2,
      turn.sticky = false) :
    ownSelections pool st tier own other pattern =
      (ownPlaces (st.cursor tier) sharing pattern).map fun place =>
        RoundRobin.cycle candidates h (place % usizeSize) := by
  have hrequests : requests pool st tier (pattern.map (MixedCall.call own other)) =
      (pattern.map fun mixed =>
        (mixed.own, offered pool st tier (mixed.call own other))).map Prod.snd := by
    rw [requests_eq_map hsticky, List.map_map, List.map_map]
    rfl
  have hplaces : ((pattern.map fun mixed =>
      (mixed.own, offered pool st tier (mixed.call own other))).map fun request =>
        (request.1, request.2.isSome)) =
      pattern.map fun mixed => (mixed.own, mixed.own || sharing) := by
    rw [List.map_map]
    refine List.map_congr_left fun mixed hmixed => ?_
    cases hkind : mixed.own with
    | true => simp [hkind, hown mixed hmixed hkind]
    | false => simp [hkind, hother mixed hmixed hkind]
  have hturns := RoundRobin.ownTurns_eq usizeSize h (pattern.map fun mixed =>
    (mixed.own, offered pool st tier (mixed.call own other))) (fun c hc => ?_) (st.cursor tier)
  · rw [ownSelections_eq_ownTurns, run_turns, hrequests, ownPlaces, ← hplaces, ← hturns,
      Nat.mod_eq_of_lt hcursor]
  · obtain ⟨mixed, hmixed, heq⟩ := List.mem_map.mp hc
    obtain ⟨hkind, hoffered⟩ := Prod.mk.inj heq
    rw [hown mixed hmixed hkind] at hoffered
    exact (Option.some.inj hoffered).symm

end

/-- Every `bound` own selections in a row reach each candidate. -/
def Reaches (pool : LinkedAccountPool) (st : PoolRuntime) (tier : AccountTier)
    (own other : RequestClass) (candidates : List ProviderBindingKey) (pattern : List MixedCall)
    (bound : Nat) : Prop :=
  RoundRobin.Covers bound id (ownSelections pool st tier own other pattern) (· ∈ candidates)

/-- **Requests of two kinds share one rotation.** The own selections are the candidates at the own
places, and any `bound` of them in a row reach every candidate just when their places reach every
remainder. -/
theorem sharedRotation_reaches (pool : LinkedAccountPool) (st : PoolRuntime) (tier : AccountTier)
    (own other : RequestClass) (pattern : List MixedCall) (candidates : List ProviderBindingKey)
    (sharing : Bool) (h : 0 < candidates.length) (hcursor : st.cursor tier < usizeSize)
    (hown : ∀ mixed ∈ pattern, mixed.own = true →
      offered pool st tier (mixed.call own other) = some candidates)
    (hother : ∀ mixed ∈ pattern, mixed.own = false →
      (offered pool st tier (mixed.call own other)).isSome = sharing)
    (hsticky : ∀ turn ∈ (Machine.run (step pool) st (pattern.map (MixedCall.call own other))).2,
      turn.sticky = false) :
    ownSelections pool st tier own other pattern =
        ((ownPlaces (st.cursor tier) sharing pattern).map fun place =>
          RoundRobin.cycle candidates h (place % usizeSize)) ∧
      ∀ bound, Reaches pool st tier own other candidates pattern bound ↔
        RoundRobin.Covers bound (fun place => place % usizeSize % candidates.length)
          (ownPlaces (st.cursor tier) sharing pattern) (· < candidates.length) := by
  have hselections := ownSelections_eq h hcursor hown hother hsticky
  refine ⟨hselections, fun bound => ?_⟩
  rw [Reaches, hselections]
  refine RoundRobin.covers_iff h fun hne => ?_
  obtain ⟨takes, hmem⟩ := RoundRobin.exists_own_of_places hne
  obtain ⟨mixed, hmixed, heq⟩ := List.mem_map.mp hmem
  exact (nodup_of_offered (hown mixed hmixed (Prod.mk.inj heq).1)).2

/-- Requests that only the second account can serve. -/
def homeOnly : RequestClass := ⟨fun binding => binding.key.accountId = "home", fun _ => 0⟩

/-- The two kinds take turns. -/
def alternating : Nat → List MixedCall
  | 0 => []
  | n + 1 => ⟨true, 0, none⟩ :: ⟨false, 0, none⟩ :: alternating n

theorem sharedRotation_alternating :
    Reaches twoAccounts twoAccounts.runtime .active eitherAccount homeOnly
        [⟨"openai", "work"⟩, ⟨"openai", "home"⟩] (alternating 2) 2 ↔
      RoundRobin.Covers 2 (fun place => place % usizeSize % 2) [0, 2] (· < 2) :=
  (sharedRotation_reaches twoAccounts twoAccounts.runtime .active eitherAccount homeOnly
    (alternating 2) [⟨"openai", "work"⟩, ⟨"openai", "home"⟩] true (by decide) (by decide)
    (by decide) (by decide) (by decide)).2 2

theorem mem_alternating {n : Nat} {mixed : MixedCall} (h : mixed ∈ alternating n) :
    mixed = ⟨true, 0, none⟩ ∨ mixed = ⟨false, 0, none⟩ := by
  induction n with
  | zero => cases h
  | succ n ih =>
    rw [alternating, List.mem_cons, List.mem_cons] at h
    rcases h with h | h | h
    · exact Or.inl h
    · exact Or.inr h
    · exact ih h

theorem ownPlaces_alternating (n place : Nat) :
    ownPlaces place true (alternating n) = (List.range n).map fun i => place + 2 * i := by
  induction n generalizing place with
  | zero => rfl
  | succ n ih =>
    rw [List.range_succ_eq_map, List.map_cons, List.map_map]
    refine congrArg (place :: ·) ((ih (place + 2)).trans ?_)
    refine List.map_congr_left fun i _ => ?_
    simp only [Function.comp_apply]
    omega

/-- **A kind of request can miss an account for ever**: where requests for one account and requests
for either alternate, those for either never reach the other account. -/
theorem sharedRotation_starves :
    ¬ ∃ bound, ∀ pattern, Reaches twoAccounts twoAccounts.runtime .active eitherAccount homeOnly
      [⟨"openai", "work"⟩, ⟨"openai", "home"⟩] pattern bound := by
  rintro ⟨bound, hreaches⟩
  have hreaches := hreaches (alternating bound)
  have hown : ownSelections twoAccounts twoAccounts.runtime .active eitherAccount homeOnly
      (alternating bound) = (ownPlaces 0 true (alternating bound)).map fun place =>
        RoundRobin.cycle [⟨"openai", "work"⟩, ⟨"openai", "home"⟩] (by decide)
          (place % usizeSize) := by
    refine ownSelections_eq (by decide) (by decide) ?_ ?_ (sticky_run rfl _)
    · intro mixed hmixed hkind
      rcases mem_alternating hmixed with rfl | rfl
      · rfl
      · cases hkind
    · intro mixed hmixed hkind
      rcases mem_alternating hmixed with rfl | rfl
      · cases hkind
      · rfl
  rw [Reaches, hown, ownPlaces_alternating, List.map_map] at hreaches
  obtain ⟨key, hkey, hhome⟩ := hreaches [] _ [] (List.append_nil _).symm (by simp)
    ⟨"openai", "home"⟩ (by decide)
  obtain ⟨i, -, rfl⟩ := List.mem_map.mp hkey
  have heven : (0 + 2 * i) % usizeSize % 2 = 0 := by
    rw [usizeSize]
    omega
  have hwork : RoundRobin.cycle [⟨"openai", "work"⟩, ⟨"openai", "home"⟩] (by decide)
      ((0 + 2 * i) % usizeSize) = (⟨"openai", "work"⟩ : ProviderBindingKey) := by
    rw [RoundRobin.cycle]
    simp only [List.length_cons, List.length_nil, heven]
    rfl
  exact absurd (hwork.symm.trans hhome) (by decide)

end RotationRun

end Tokn.Accounts
