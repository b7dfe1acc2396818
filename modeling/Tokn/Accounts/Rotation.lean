import Tokn.Accounts.Selection
import Tokn.Lib.Machine
import Tokn.Lib.RoundRobin

/-!
# The rotation of a pool

**Theorem (`rotation_fair`).** While a tier offers the same `n` candidates, any `n * k` selections
from it in a row, with whatever calls between them, are `k` of each candidate.

The scan of `selectTier` finds the healthy bindings with the highest rank (`candidates_foldl`), so a
call is a request of `Lib.RoundRobin` for each tier (`step_turn`), and a run is its `turns`
(`run_turns`).
-/

namespace Tokn.Accounts

/-! ## Candidates -/

namespace RequestClass

variable (request : RequestClass) (cooling : BTreeMap ProviderBindingKey Nat)

/-- The bindings that a request may use. -/
def able (accounts : List ProviderBinding) : List ProviderBinding :=
  accounts.filter fun binding => request.eligible binding && !cooling.contains binding.key

/-- Those of the highest rank. -/
def topRanked (accounts : List ProviderBinding) : List ProviderBinding :=
  (request.able cooling accounts).filter fun binding =>
    (request.able cooling accounts).all fun other => request.rank other ≤ request.rank binding

/-- What the scan knows of the accounts it has seen. -/
def Scanned (accounts : List ProviderBinding) (scan : TierScan) : Prop :=
  match scan.bestRank with
  | none => request.able cooling accounts = [] ∧ scan.candidates = []
  | some best =>
    (∃ binding ∈ request.able cooling accounts, request.rank binding = best) ∧
      (∀ binding ∈ request.able cooling accounts, request.rank binding ≤ best) ∧
      scan.candidates = (request.able cooling accounts).filter fun binding =>
        request.rank binding = best

variable {request cooling}

theorem able_concat (accounts : List ProviderBinding) (binding : ProviderBinding) :
    request.able cooling (accounts ++ [binding]) =
      request.able cooling accounts ++
        if request.eligible binding && !cooling.contains binding.key then [binding] else [] := by
  rw [able, List.filter_append, List.filter_singleton, ← able]
  cases request.eligible binding && !cooling.contains binding.key <;> rfl

/-- A binding that is not able changes at most the earliest end of a cooldown. -/
theorem Scanned.skip {accounts : List ProviderBinding} {scan : TierScan}
    (h : request.Scanned cooling accounts scan) {binding : ProviderBinding}
    (hnot : (request.eligible binding && !cooling.contains binding.key) = false)
    (earliestRetry : Option Nat) :
    request.Scanned cooling (accounts ++ [binding])
      { scan with earliestRetry := earliestRetry } := by
  rw [Scanned, able_concat, hnot, if_neg Bool.false_ne_true, List.append_nil]
  exact h

/-- An able binding of the best rank so far is the first candidate, or one more. -/
theorem filter_concat_of_le {able : List ProviderBinding} {binding : ProviderBinding}
    (h : ∀ other ∈ able, request.rank other < request.rank binding) :
    (able ++ [binding]).filter (fun other => request.rank other = request.rank binding) =
      [binding] := by
  have hnone : able.filter (fun other => request.rank other = request.rank binding) = [] := by
    rw [List.filter_eq_nil_iff]
    intro other hother
    have hlt := h other hother
    simp only [decide_eq_true_eq]
    omega
  rw [List.filter_append, hnone, List.nil_append, List.filter_singleton, decide_eq_true rfl,
    cond_true]

theorem Scanned.scanAccount {accounts : List ProviderBinding} {scan : TierScan}
    (h : request.Scanned cooling accounts scan) (binding : ProviderBinding) :
    request.Scanned cooling (accounts ++ [binding])
      (request.scanAccount cooling scan binding) := by
  rw [RequestClass.scanAccount]
  by_cases heligible : request.eligible binding = true
  · rw [if_neg (by simpa using heligible)]
    cases hcooling : cooling.get binding.key with
    | some retryAt => exact h.skip (by simp [BTreeMap.contains, hcooling]) _
    | none =>
      have hable : (request.eligible binding && !cooling.contains binding.key) = true := by
        simp [BTreeMap.contains, hcooling, heligible]
      have hmem : binding ∈ request.able cooling accounts ++ [binding] :=
        List.mem_append_right _ (List.mem_singleton_self _)
      -- The binding is the first of its rank, and the best.
      have hbest (hlt : ∀ other ∈ request.able cooling accounts,
          request.rank other < request.rank binding) :
          request.Scanned cooling (accounts ++ [binding])
            { scan with bestRank := some (request.rank binding), candidates := [binding] } := by
        rw [Scanned, able_concat, if_pos hable]
        refine ⟨⟨binding, hmem, rfl⟩, fun other hother => ?_, (filter_concat_of_le hlt).symm⟩
        rcases List.mem_append.mp hother with hold | hnew
        · exact (hlt other hold).le
        · rw [List.mem_singleton.mp hnew]
      cases hrank : scan.bestRank with
      | none =>
        rw [Scanned, hrank] at h
        refine hbest fun other hother => ?_
        rw [h.1] at hother
        exact absurd hother List.not_mem_nil
      | some current =>
        rw [Scanned, hrank] at h
        obtain ⟨⟨best, hbestMem, hbestRank⟩, hle, hcandidates⟩ := h
        dsimp only
        by_cases hlt : request.rank binding < current
        · rw [if_pos hlt, Scanned, hrank, able_concat, if_pos hable]
          refine ⟨⟨best, List.mem_append_left _ hbestMem, hbestRank⟩, fun other hother => ?_, ?_⟩
          · rcases List.mem_append.mp hother with hold | hnew
            · exact hle other hold
            · rw [List.mem_singleton.mp hnew]
              exact hlt.le
          · rw [hcandidates, List.filter_append, List.filter_singleton,
              decide_eq_false (by omega), cond_false, List.append_nil]
        · rw [if_neg hlt]
          by_cases heq : request.rank binding = current
          · rw [if_pos heq, Scanned]
            dsimp only
            rw [able_concat, if_pos hable]
            refine ⟨⟨binding, hmem, heq⟩, fun other hother => ?_, ?_⟩
            · rcases List.mem_append.mp hother with hold | hnew
              · exact hle other hold
              · rw [List.mem_singleton.mp hnew, heq]
            · rw [hcandidates, List.filter_append, List.filter_singleton, decide_eq_true heq,
                cond_true]
          · rw [if_neg heq]
            refine hbest fun other hother => ?_
            have hother := hle other hother
            omega
  · rw [if_pos (by simpa using heligible)]
    exact h.skip (by simp [heligible]) _

theorem scanned_foldl (request : RequestClass) (cooling : BTreeMap ProviderBindingKey Nat)
    (accounts : List ProviderBinding) (earliestRetry : Option Nat) :
    request.Scanned cooling accounts
      (accounts.foldl (request.scanAccount cooling) { earliestRetry := earliestRetry }) := by
  induction accounts using List.reverseRecOn with
  | nil => exact ⟨rfl, rfl⟩
  | append_singleton accounts binding ih =>
    rw [List.foldl_concat]
    exact ih.scanAccount binding

/-- **The candidates of a tier are its able bindings of the highest rank**, in the order of its
accounts. -/
theorem candidates_foldl (accounts : List ProviderBinding) (earliestRetry : Option Nat) :
    (accounts.foldl (request.scanAccount cooling) { earliestRetry := earliestRetry }).candidates =
      request.topRanked cooling accounts := by
  have hscanned := scanned_foldl request cooling accounts earliestRetry
  rw [Scanned] at hscanned
  rw [topRanked]
  split at hscanned
  · rw [hscanned.1, hscanned.2]
    rfl
  · obtain ⟨⟨best, hmem, hrank⟩, hle, hcandidates⟩ := hscanned
    rw [hcandidates]
    refine List.filter_congr fun binding hbinding => ?_
    rw [Bool.eq_iff_iff, decide_eq_true_eq, List.all_eq_true]
    refine ⟨fun heq other hother => decide_eq_true (heq ▸ hle other hother), fun hall => ?_⟩
    have hge := of_decide_eq_true (hall best hmem)
    have hle := hle binding hbinding
    omega

end RequestClass

/-! ## Calls -/

def PoolRuntime.cursor (st : PoolRuntime) : AccountTier → Nat
  | .active => st.activeCursor
  | .fallback => st.fallbackCursor

namespace RotationRun

variable (pool : LinkedAccountPool)

/-- A call of `acquire_ranked`. -/
structure Call where
  now : Nat
  sessionId : Option String
  request : RequestClass

/-- The answer of a call, and whether it came from the affinity of its session. -/
structure Turn where
  sticky : Bool
  reply : PoolAcquire

def step (st : PoolRuntime) (call : Call) : PoolRuntime × Turn :=
  let (reply, next) := st.acquireRanked pool call.now call.sessionId call.request
  (next, {
    sticky := (st.acquireSticky pool call.now call.sessionId call.request).1.isSome
    reply := reply })

def keys (bindings : List ProviderBinding) : List ProviderBindingKey :=
  bindings.map ProviderBinding.key

/-- The binding that a call selected from a tier. -/
def selectedFrom (tier : AccountTier) (turn : Turn) : Option ProviderBindingKey :=
  if turn.sticky then none
  else
    match turn.reply with
    | .selected binding => if binding.key ∈ keys (pool.tier tier) then some binding.key else none
    | _ => none

/-- The selections from a tier, in order. -/
def selections (tier : AccountTier) (turns : List Turn) : List ProviderBindingKey :=
  (turns.map (selectedFrom pool tier)).reduceOption

/-- The candidates of a call in a tier. -/
def candidates (st : PoolRuntime) (call : Call) (tier : AccountTier) : List ProviderBindingKey :=
  keys (call.request.topRanked (st.coolingBindings call.now) (pool.tier tier))

/-- The candidates that a tier offers to a call, if the call gets that far and finds any. -/
def offered (st : PoolRuntime) (tier : AccountTier) (call : Call) :
    Option (List ProviderBindingKey) :=
  if tier = .fallback ∧ candidates pool st call .active ≠ [] then none
  else if candidates pool st call tier = [] then none
  else some (candidates pool st call tier)

/-- What a tier offers to a call that its session's affinity does not answer. -/
def asked (st : PoolRuntime) (tier : AccountTier) (call : Call) (turn : Turn) :
    Option (List ProviderBindingKey) :=
  if turn.sticky then none else offered pool st tier call

variable {pool}

/-! ## One call -/

variable {accounts : List ProviderBinding} {tier : AccountTier} {st : PoolRuntime}

theorem selectTier_nil {request : RequestClass} {cooling : BTreeMap ProviderBindingKey Nat}
    (h : request.topRanked cooling accounts = []) (cursor : Nat) (earliestRetry : Option Nat) :
    ∃ earliest, request.selectTier cooling accounts cursor earliestRetry =
      (none, cursor, earliest) := by
  rw [RequestClass.selectTier, RequestClass.candidates_foldl, if_pos h]
  exact ⟨_, rfl⟩

theorem selectTier_pos {request : RequestClass} {cooling : BTreeMap ProviderBindingKey Nat}
    (h : 0 < (request.topRanked cooling accounts).length) (cursor : Nat)
    (earliestRetry : Option Nat) :
    ∃ earliest, request.selectTier cooling accounts cursor earliestRetry =
      (some (RoundRobin.cycle (request.topRanked cooling accounts) h cursor),
        (cursor + 1) % usizeSize, earliest) := by
  rw [RequestClass.selectTier, RequestClass.candidates_foldl, if_neg (List.length_pos_iff.mp h),
    RoundRobin.getElem?_mod h]
  exact ⟨_, rfl⟩

theorem eq_nil_or_length_pos {α : Type} (l : List α) : l = [] ∨ 0 < l.length :=
  (eq_or_ne l []).imp_right List.length_pos_iff.mpr

/-- What a call can do. -/
theorem step_cases (pool : LinkedAccountPool) (st : PoolRuntime) (call : Call) :
    (∃ binding affinity, step pool st call =
      ({ st with affinity := affinity }, ⟨true, .selected binding⟩)) ∨
    (∃ affinity, ∃ h : 0 < (call.request.topRanked (st.coolingBindings call.now)
        pool.active).length,
      step pool st call =
        ({ st with affinity := affinity, activeCursor := (st.activeCursor + 1) % usizeSize },
          ⟨false, .selected (RoundRobin.cycle _ h st.activeCursor)⟩)) ∨
    (call.request.topRanked (st.coolingBindings call.now) pool.active = [] ∧
      ∃ affinity, ∃ h : 0 < (call.request.topRanked (st.coolingBindings call.now)
          pool.fallback).length,
        step pool st call =
          ({ st with affinity := affinity, fallbackCursor := (st.fallbackCursor + 1) % usizeSize },
            ⟨false, .selected (RoundRobin.cycle _ h st.fallbackCursor)⟩)) ∨
    (call.request.topRanked (st.coolingBindings call.now) pool.active = [] ∧
      call.request.topRanked (st.coolingBindings call.now) pool.fallback = [] ∧
      ∃ affinity reply, (∀ binding, reply ≠ .selected binding) ∧
        step pool st call = ({ st with affinity := affinity }, ⟨false, reply⟩)) := by
  rw [step, PoolRuntime.acquireRanked]
  obtain ⟨sticky, affinity⟩ := st.acquireSticky pool call.now call.sessionId call.request
  cases sticky with
  | some binding => exact Or.inl ⟨binding, affinity, rfl⟩
  | none =>
    refine Or.inr ?_
    dsimp only
    rcases eq_nil_or_length_pos (call.request.topRanked (st.coolingBindings call.now)
      pool.active) with hactive | hactive
    · obtain ⟨earliest, hselect⟩ := selectTier_nil hactive st.activeCursor none
      refine Or.inr ?_
      rw [hselect]
      dsimp only
      rcases eq_nil_or_length_pos (call.request.topRanked (st.coolingBindings call.now)
        pool.fallback) with hfall | hfall
      · obtain ⟨earliest', hselect'⟩ := selectTier_nil hfall st.fallbackCursor earliest
        refine Or.inr ⟨hactive, hfall, affinity, ?_⟩
        rw [hselect']
        cases earliest' with
        | none => exact ⟨.noEligible, nofun, rfl⟩
        | some retryAt => exact ⟨.coolingDown retryAt, nofun, rfl⟩
      · obtain ⟨earliest', hselect'⟩ := selectTier_pos hfall st.fallbackCursor earliest
        refine Or.inl ⟨hactive, affinity, hfall, ?_⟩
        rw [hselect']
        rfl
    · obtain ⟨earliest, hselect⟩ := selectTier_pos hactive st.activeCursor none
      refine Or.inl ⟨affinity, hactive, ?_⟩
      rw [hselect]
      rfl

theorem topRanked_subset (request : RequestClass) (cooling : BTreeMap ProviderBindingKey Nat)
    (accounts : List ProviderBinding) : request.topRanked cooling accounts ⊆ accounts :=
  fun _ hmem => (List.mem_filter.mp (List.mem_filter.mp hmem).1).1

/-- An account is in one tier. -/
theorem not_mem_other_tier {other : AccountTier} (hne : tier ≠ other) {key : ProviderBindingKey}
    (h : key ∈ keys (pool.tier tier)) : key ∉ keys (pool.tier other) := by
  have hnodup := pool.nodup
  rw [List.map_append, List.nodup_append] at hnodup
  intro hother
  cases tier with
  | active =>
    cases other with
    | active => exact hne rfl
    | fallback => exact hnodup.2.2 key h key hother rfl
  | fallback =>
    cases other with
    | active => exact hnodup.2.2 key hother key h rfl
    | fallback => exact hne rfl

theorem turns_keys {bindings : List ProviderBinding} (h : 0 < bindings.length) (cursor : Nat) :
    RoundRobin.turns usizeSize cursor [some (keys bindings)] =
      [some (RoundRobin.cycle bindings h cursor).key] := by
  rw [RoundRobin.turns, keys, List.length_map, List.getElem?_map, RoundRobin.getElem?_mod h]
  rfl

theorem cycle_key_mem {request : RequestClass} {cooling : BTreeMap ProviderBindingKey Nat}
    (h : 0 < (request.topRanked cooling accounts).length) (cursor : Nat) :
    (RoundRobin.cycle _ h cursor).key ∈ keys accounts :=
  List.mem_map_of_mem (topRanked_subset _ _ _ (List.get_mem _ _))

theorem selectedFrom_of_mem {binding : ProviderBinding} (h : binding.key ∈ keys (pool.tier tier)) :
    selectedFrom pool tier ⟨false, .selected binding⟩ = some binding.key := if_pos h

theorem selectedFrom_of_mem_other (tier : AccountTier) {other : AccountTier} (hne : tier ≠ other)
    {binding : ProviderBinding} (h : binding.key ∈ keys (pool.tier tier)) :
    selectedFrom pool other ⟨false, .selected binding⟩ = none :=
  if_neg (not_mem_other_tier hne h)

theorem candidates_eq_nil {call : Call} (tier : AccountTier)
    (h : call.request.topRanked (st.coolingBindings call.now) (pool.tier tier) = []) :
    candidates pool st call tier = [] := by
  rw [candidates, h]
  rfl

theorem candidates_ne_nil {call : Call} (tier : AccountTier)
    (h : 0 < (call.request.topRanked (st.coolingBindings call.now) (pool.tier tier)).length) :
    candidates pool st call tier ≠ [] := by
  rw [candidates, keys, Ne, List.map_eq_nil_iff]
  exact List.length_pos_iff.mp h

/-- **What a call does to a tier**: its selection and the tier's cursor are those of one request of
the rotation, and the cooldowns stay. -/
theorem step_turn (pool : LinkedAccountPool) (st : PoolRuntime) (tier : AccountTier) (call : Call) :
    RoundRobin.turns usizeSize (st.cursor tier) [asked pool st tier call (step pool st call).2] =
        [selectedFrom pool tier (step pool st call).2] ∧
      (step pool st call).1.cursor tier =
        (if (asked pool st tier call (step pool st call).2).isSome then
          (st.cursor tier + 1) % usizeSize
        else st.cursor tier) ∧
      (step pool st call).1.cooldowns = st.cooldowns := by
  rcases step_cases pool st call with
    ⟨binding, affinity, hstep⟩ | ⟨affinity, h, hstep⟩ | ⟨hactive, affinity, h, hstep⟩ |
      ⟨hactive, hfall, affinity, reply, hreply, hstep⟩
  · rw [hstep]
    cases tier <;> exact ⟨rfl, rfl, rfl⟩
  · -- The active tier selects.
    have hne : candidates pool st call .active ≠ [] := candidates_ne_nil .active h
    rw [hstep, asked, if_neg Bool.false_ne_true, offered]
    cases tier with
    | active =>
      rw [if_neg (fun hand => nomatch hand.1), if_neg hne,
        selectedFrom_of_mem (cycle_key_mem h _)]
      exact ⟨turns_keys h _, rfl, rfl⟩
    | fallback =>
      rw [if_pos ⟨rfl, hne⟩, selectedFrom_of_mem_other .active (by decide) (cycle_key_mem h _)]
      exact ⟨rfl, rfl, rfl⟩
  · -- The active tier has no candidate, and the fallback tier selects.
    have hnil : candidates pool st call .active = [] := candidates_eq_nil .active hactive
    have hne : candidates pool st call .fallback ≠ [] := candidates_ne_nil .fallback h
    rw [hstep, asked, if_neg Bool.false_ne_true, offered]
    cases tier with
    | active =>
      rw [if_neg (fun hand => nomatch hand.1), if_pos hnil,
        selectedFrom_of_mem_other .fallback (by decide) (cycle_key_mem h _)]
      exact ⟨rfl, rfl, rfl⟩
    | fallback =>
      rw [if_neg (fun hand => hand.2 hnil), if_neg hne, selectedFrom_of_mem (cycle_key_mem h _)]
      exact ⟨turns_keys h _, rfl, rfl⟩
  · have hnil : candidates pool st call tier = [] := by
      cases tier with
      | active => exact candidates_eq_nil .active hactive
      | fallback => exact candidates_eq_nil .fallback hfall
    have hselected : selectedFrom pool tier ⟨false, reply⟩ = none := by
      rw [selectedFrom, if_neg Bool.false_ne_true]
      cases reply with
      | selected binding => exact absurd rfl (hreply binding)
      | coolingDown retryAt => rfl
      | noEligible => rfl
    rw [hstep, asked, if_neg Bool.false_ne_true, offered, if_pos hnil, ite_self, hselected]
    cases tier <;> exact ⟨rfl, rfl, rfl⟩

/-! ## Every run -/

/-- What a tier offers in a run. -/
def requests (pool : LinkedAccountPool) (st : PoolRuntime) (tier : AccountTier)
    (calls : List Call) : List (Option (List ProviderBindingKey)) :=
  List.zipWith (asked pool st tier) calls (Machine.run (step pool) st calls).2

/-- What a tier offers is a matter of the cooldowns alone. -/
theorem offered_congr {st' : PoolRuntime} (h : st.cooldowns = st'.cooldowns) :
    offered pool st = offered pool st' := by
  have hcooling : st.coolingBindings = st'.coolingBindings := by
    funext now
    rw [PoolRuntime.coolingBindings, PoolRuntime.coolingBindings, h]
  have hcandidates : candidates pool st = candidates pool st' := by
    funext call tier
    rw [candidates, candidates, hcooling]
  funext tier call
  rw [offered, offered, hcandidates]

theorem requests_cons (st : PoolRuntime) (tier : AccountTier) (call : Call) (calls : List Call) :
    requests pool st tier (call :: calls) =
      asked pool st tier call (step pool st call).2 ::
        requests pool (step pool st call).1 tier calls := by
  have hasked : asked pool (step pool st call).1 = asked pool st := by
    funext tier' call' turn
    rw [asked, asked, offered_congr (step_turn pool st tier call).2.2]
  rw [requests, Machine.run_cons, List.zipWith_cons_cons, requests, hasked]

/-- **The selections of a run are the turns of the rotation.** -/
theorem run_turns (st : PoolRuntime) (tier : AccountTier) (calls : List Call) :
    (Machine.run (step pool) st calls).2.map (selectedFrom pool tier) =
      RoundRobin.turns usizeSize (st.cursor tier) (requests pool st tier calls) := by
  induction calls generalizing st with
  | nil => rfl
  | cons call calls ih =>
    obtain ⟨hturn, hcursor, -⟩ := step_turn pool st tier call
    rw [requests_cons, Machine.run_cons, List.map_cons, ih, hcursor]
    cases hasked : asked pool st tier call (step pool st call).2 with
    | none =>
      rw [hasked] at hturn
      rw [RoundRobin.turns, ← List.head_eq_of_cons_eq hturn]
      rfl
    | some offered =>
      rw [hasked] at hturn
      rw [RoundRobin.turns, ← List.head_eq_of_cons_eq hturn]
      rfl

theorem cursor_run (st : PoolRuntime) (tier : AccountTier) (hcursor : st.cursor tier < usizeSize)
    (calls : List Call) :
    (Machine.run (step pool) st calls).1.cursor tier =
      (st.cursor tier + (requests pool st tier calls).reduceOption.length) % usizeSize := by
  induction calls generalizing st with
  | nil => exact (Nat.mod_eq_of_lt hcursor).symm
  | cons call calls ih =>
    obtain ⟨-, hnext, -⟩ := step_turn pool st tier call
    rw [requests_cons, Machine.run_cons]
    cases hasked : asked pool st tier call (step pool st call).2 with
    | none =>
      rw [hasked] at hnext
      rw [List.reduceOption_cons_of_none, ih _ (by rw [hnext]; exact hcursor), hnext]
      rfl
    | some offered =>
      rw [hasked, Option.isSome_some, if_pos rfl] at hnext
      rw [List.reduceOption_cons_of_some, List.length_cons,
        ih _ (by rw [hnext]; exact Nat.mod_lt _ (by decide)), hnext, Nat.mod_add_mod]
      congr 1
      omega

/-- What a tier offers in a run, it offers to a call of the run. -/
theorem mem_requests {calls : List Call} {candidates : List ProviderBindingKey}
    (h : some candidates ∈ requests pool st tier calls) :
    ∃ call ∈ calls, offered pool st tier call = some candidates := by
  induction calls generalizing st with
  | nil => cases h
  | cons call calls ih =>
    rw [requests_cons] at h
    rcases List.mem_cons.mp h with hhead | htail
    · refine ⟨call, List.mem_cons_self, ?_⟩
      rw [asked] at hhead
      split_ifs at hhead
      exact hhead.symm
    · obtain ⟨later, hmem, hoffered⟩ := ih htail
      rw [offered_congr (step_turn pool st tier call).2.2] at hoffered
      exact ⟨later, List.mem_cons_of_mem _ hmem, hoffered⟩

/-- A tier offers a binding once. -/
theorem nodup_of_offered {call : Call} {candidates : List ProviderBindingKey}
    (h : offered pool st tier call = some candidates) :
    0 < candidates.length ∧ candidates.Nodup := by
  rw [offered] at h
  split_ifs at h with hfirst hnil
  obtain rfl := Option.some.inj h
  refine ⟨List.length_pos_iff.mpr hnil, ?_⟩
  have hnodup := pool.nodup
  rw [List.map_append, List.nodup_append] at hnodup
  have htier : (keys (pool.tier tier)).Nodup := by
    cases tier with
    | active => exact hnodup.1
    | fallback => exact hnodup.2.1
  exact htier.sublist ((List.filter_sublist.trans List.filter_sublist).map _)

/-- Each request of a run that a tier offers something has a selection. -/
theorem length_selections (pool : LinkedAccountPool) (st : PoolRuntime) (tier : AccountTier)
    (calls : List Call) :
    (selections pool tier (Machine.run (step pool) st calls).2).length =
      (requests pool st tier calls).reduceOption.length := by
  rw [selections, run_turns]
  refine RoundRobin.length_reduceOption_turns usizeSize (fun c hc => ?_) _
  obtain ⟨call, -, hoffered⟩ := mem_requests hc
  exact (nodup_of_offered hoffered).1

/-- **The rotation is fair.** While the calls that a tier serves find the same candidates in it, any
`n * k` selections from the tier in a row are `k` of each, wherever the cursor starts, and the cursor
counts the selections from the tier and nothing else. -/
theorem rotation_fair (pool : LinkedAccountPool) (st : PoolRuntime) (tier : AccountTier)
    (calls : List Call) (candidates : List ProviderBindingKey)
    (hsteady : ∀ call ∈ calls, ∀ c, offered pool st tier call = some c → c = candidates)
    (hcursor : st.cursor tier < usizeSize)
    (hwrap : st.cursor tier + (selections pool tier (Machine.run (step pool) st calls).2).length ≤
      usizeSize) :
    (Machine.run (step pool) st calls).1.cursor tier =
        (st.cursor tier + (selections pool tier (Machine.run (step pool) st calls).2).length) %
          usizeSize ∧
      ∀ before window after k,
        selections pool tier (Machine.run (step pool) st calls).2 = before ++ window ++ after →
        window.length = candidates.length * k →
        ∀ candidate ∈ candidates, window.count candidate = k := by
  have hsame : ∀ c, some c ∈ requests pool st tier calls → c = candidates := by
    intro c hc
    obtain ⟨call, hmem, hoffered⟩ := mem_requests hc
    exact hsteady call hmem c hoffered
  rw [length_selections] at hwrap ⊢
  refine ⟨cursor_run st tier hcursor calls, ?_⟩
  intro before window after k hsplit hlength candidate hmem
  rcases List.eq_nil_or_concat' (requests pool st tier calls).reduceOption with
    hnone | ⟨served, c, hserved⟩
  · -- The tier serves no call.
    have hlen := length_selections pool st tier calls
    rw [hnone, hsplit, List.length_append, List.length_append, hlength, List.length_nil] at hlen
    have hpos := List.length_pos_of_mem hmem
    have hzero : k = 0 := by
      by_contra hk
      have := Nat.mul_pos hpos (Nat.pos_of_ne_zero hk)
      omega
    rw [hzero, Nat.mul_zero] at hlength
    rw [List.eq_nil_of_length_eq_zero hlength, hzero, List.count_nil]
  · have hmemc : some c ∈ requests pool st tier calls := by
      rw [← List.reduceOption_mem_iff, hserved]
      exact List.mem_append_right _ (List.mem_singleton_self c)
    obtain ⟨call, -, hoffered⟩ := mem_requests hmemc
    have hnodup := (nodup_of_offered hoffered).2
    rw [hsame c hmemc] at hnodup
    rw [selections, run_turns] at hsplit
    exact RoundRobin.count_window hnodup hsame hcursor hwrap hsplit hlength hmem

theorem nodup_workHome :
    [(⟨"openai", "work"⟩ : ProviderBindingKey), ⟨"openai", "home"⟩].Nodup := by decide

/-- A pool of two accounts, without affinity. -/
def twoAccounts : LinkedAccountPool where
  id := "default"
  failureCooldown := ⟨10 ^ 9, second_le_max⟩
  sessionAffinity := none
  active := [
    ⟨⟨"openai", "work"⟩, "openai", Provider.ofInfo ⟨"openai", [], [], {}⟩ none⟩,
    ⟨⟨"openai", "home"⟩, "openai", Provider.ofInfo ⟨"openai", [], [], {}⟩ none⟩]
  fallback := []
  nodup := nodup_workHome

/-- Requests that either account can serve. -/
def eitherAccount : RequestClass := ⟨fun _ => true, fun _ => 0⟩

theorem rotation_twoAccounts :
    (selections twoAccounts .active (Machine.run (step twoAccounts) twoAccounts.runtime
      (List.replicate 4 ⟨0, none, eitherAccount⟩)).2).count ⟨"openai", "home"⟩ = 2 :=
  (rotation_fair twoAccounts twoAccounts.runtime .active
    (List.replicate 4 ⟨0, none, eitherAccount⟩) [⟨"openai", "work"⟩, ⟨"openai", "home"⟩]
    (fun _ hcall _ hoffered => by
      rw [List.eq_of_mem_replicate hcall] at hoffered
      exact (Option.some.inj hoffered).symm)
    (by decide) (by decide)).2 [] _ [] 2 (List.append_nil _).symm (by decide) _ (by decide)

end RotationRun

end Tokn.Accounts
