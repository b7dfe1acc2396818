import Tokn.Accounts.Selection
import Tokn.Lib.Machine

/-!
# The cooldowns of a pool

**Theorem (`cooldowns_spec`).** In every run of failures and successes, the cooldown of a binding is
that of its own failures since its own last success: the `k`-th of them in a row ends
`2 ^ min (k - 1) 5` base cooldowns later, or at the last instant that there is. A call on another
binding changes neither it nor, unless it is a success, the affinity of the sessions, and a call on a
binding that the pool does not have changes nothing.
-/

namespace Tokn.Accounts

/-! ## Deadlines -/

theorem durationFromNanos_eq {nanos : Nat} (h : nanos ≤ DURATION_MAX) :
    durationFromNanos nanos = nanos := by
  rw [DURATION_MAX] at h
  have hsecs : nanos / 10 ^ 9 < 2 ^ 64 := by omega
  rw [durationFromNanos, Nat.mod_eq_of_lt hsecs]
  exact Nat.div_add_mod' nanos (10 ^ 9)

theorem isSome_checkedAdd {clock : Clock} {now nanos : Nat} :
    (clock.checkedAdd now nanos).isSome = true ↔ now + nanos ≤ clock.last := by
  rw [Clock.checkedAdd]
  by_cases h : now + nanos ≤ clock.last
  · rw [if_pos h]
    exact iff_of_true rfl h
  · rw [if_neg h]
    exact iff_of_false nofun h

/-- The search finds the longest time that can be added. -/
theorem searchNanos_eq (clock : Clock) (now lower upper : Nat)
    (hlower : now + lower ≤ clock.last) (hle : lower ≤ upper) (hupper : upper ≤ DURATION_MAX) :
    searchNanos clock now lower upper = min upper (clock.last - now) := by
  fun_induction searchNanos clock now lower upper with
  | case1 lower upper hlt midpoint hsome ih =>
    have hmid : midpoint ≤ DURATION_MAX := by omega
    rw [durationFromNanos_eq hmid, isSome_checkedAdd] at hsome
    exact ih hsome (by omega) hupper
  | case2 lower upper hlt midpoint hnone ih =>
    have hmid : midpoint ≤ DURATION_MAX := by omega
    rw [durationFromNanos_eq hmid, isSome_checkedAdd] at hnone
    rw [ih hlower (by omega) (by omega)]
    omega
  | case3 lower upper hge => omega

/-- A deadline is never later than the last instant, and nothing else is lost. -/
theorem saturatingInstantAdd_eq {clock : Clock} {now : Nat} (hnow : now ≤ clock.last)
    (duration : Duration) :
    saturatingInstantAdd clock now duration = min (now + duration.nanos) clock.last := by
  rw [saturatingInstantAdd, Clock.checkedAdd]
  by_cases h : now + duration.nanos ≤ clock.last
  · rw [if_pos h, min_eq_left h]
  · have hsearch := searchNanos_eq clock now 0 duration.nanos (by omega) (Nat.zero_le _)
      duration.le_max
    have hmin : min duration.nanos (clock.last - now) = clock.last - now := by omega
    have hmax := duration.le_max
    rw [if_neg h, hsearch, hmin]
    dsimp only
    rw [durationFromNanos_eq (by omega), Clock.checkedAdd, if_pos (by omega), Option.getD_some]
    omega

/-- The end of the cooldown of a failure, the `failures`-th in a row. -/
def deadline (pool : LinkedAccountPool) (clock : Clock) (failures now : Nat) : Nat :=
  min (now + min (pool.failureCooldown.nanos * 2 ^ min (failures - 1) MAX_COOLDOWN_EXPONENT)
    DURATION_MAX) clock.last

/-! ## Runs -/

namespace CooldownRun

variable {pool : LinkedAccountPool} {clock : Clock}

/-- A call, at an instant that the platform can represent. -/
inductive Call (clock : Clock) where
  | failure (now : Nat) (representable : now ≤ clock.last) (key : ProviderBindingKey)
  | success (now : Nat) (representable : now ≤ clock.last) (sessionId : Option String)
      (key : ProviderBindingKey)

def Call.key : Call clock → ProviderBindingKey
  | .failure _ _ key => key
  | .success _ _ _ key => key

inductive Reply where
  | failed (result : Except PoolRuntimeError Nat)
  | succeeded (result : Except PoolRuntimeError Unit)

def step (pool : LinkedAccountPool) (st : PoolRuntime) : Call clock → PoolRuntime × Reply
  | .failure now _ key =>
    let (result, st) := st.recordFailure pool clock now key
    (st, .failed result)
  | .success now _ sessionId key =>
    let (result, st) := st.recordSuccess pool now sessionId key
    (st, .succeeded result)

/-- The failures of a binding since its last success, and when the last of them was. -/
def streak (key : ProviderBindingKey) (calls : List (Call clock)) : Nat × Nat :=
  calls.foldl (fun failures call =>
    match call with
    | .failure now _ k => if k = key then (failures.1 + 1, now) else failures
    | .success _ _ _ k => if k = key then (0, 0) else failures) (0, 0)

/-- The cooldown that is left of some failures in a row. -/
def cooldownAfter (pool : LinkedAccountPool) (clock : Clock) (failures : Nat × Nat) :
    BindingCooldown :=
  if failures.1 = 0 then {}
  else
    { consecutiveFailures := min failures.1 U32_MAX
      retryAt := some (deadline pool clock failures.1 failures.2) }

/-- The reply to the last of some calls. -/
def replyTo (pool : LinkedAccountPool) (before : List (Call clock)) (call : Call clock) : Reply :=
  match call with
  | .failure now _ key =>
    .failed (if (pool.bindings.get key).isSome then
      .ok (deadline pool clock (streak key (before ++ [call])).1 now)
      else .error (unknownBinding pool key))
  | .success _ _ _ key =>
    .succeeded (if (pool.bindings.get key).isSome then .ok () else .error (unknownBinding pool key))

/-- What a call does to the affinity. -/
def recordedBy (pool : LinkedAccountPool) (affinity : Option (Affinity ProviderBindingKey)) :
    Call clock → Option (Affinity ProviderBindingKey)
  | .failure .. => affinity
  | .success _ _ none _ => affinity
  | .success now _ (some sessionId) key =>
    if (pool.bindings.get key).isSome then
      affinity.map fun affinity => affinity.record now sessionId key
    else affinity

/-- What the pool keeps after some calls. -/
structure After (pool : LinkedAccountPool) (calls : List (Call clock)) (st : PoolRuntime) : Prop where
  cooldowns : ∀ key, st.cooldowns.get key =
    if (pool.bindings.get key).isSome then some (cooldownAfter pool clock (streak key calls))
    else none
  affinity : st.affinity = calls.foldl (recordedBy pool) pool.runtime.affinity

variable (key : ProviderBindingKey)

theorem streak_concat (calls : List (Call clock)) (call : Call clock) :
    streak key (calls ++ [call]) =
      match call with
      | .failure now _ k =>
        if k = key then ((streak key calls).1 + 1, now) else streak key calls
      | .success _ _ _ k => if k = key then (0, 0) else streak key calls := by
  rw [streak, List.foldl_concat]
  rfl

/-- The failures of a binding since its last success are failures of that binding. -/
theorem streak_filter (calls : List (Call clock)) :
    streak key (calls.filter fun call => call.key = key) = streak key calls := by
  induction calls using List.reverseRecOn with
  | nil => rfl
  | append_singleton calls call ih =>
    rw [List.filter_append, List.filter_singleton]
    by_cases hkey : call.key = key
    · rw [decide_eq_true hkey, cond_true, streak_concat, streak_concat, ih]
    · rw [decide_eq_false hkey, cond_false, List.append_nil, ih, streak_concat]
      cases call with
      | failure now hnow k => exact (if_neg hkey).symm
      | success now hnow sessionId k => exact (if_neg hkey).symm

/-! ## One call -/

theorem get_runtime_cooldowns :
    pool.runtime.cooldowns.get key = (pool.bindings.get key).map fun _ => {} :=
  BTreeMap.get_map (fun _ _ => ({} : BindingCooldown)) pool.bindings key

theorem after_runtime : After pool ([] : List (Call clock)) pool.runtime := by
  refine ⟨fun key => ?_, rfl⟩
  rw [get_runtime_cooldowns]
  cases pool.bindings.get key <;> rfl

/-- The counter stops, and the deadline does not notice. -/
theorem deadline_min (failures now : Nat) :
    deadline pool clock (min failures U32_MAX) now = deadline pool clock failures now := by
  have hexp : min (min failures U32_MAX - 1) MAX_COOLDOWN_EXPONENT =
      min (failures - 1) MAX_COOLDOWN_EXPONENT := by
    rw [U32_MAX, MAX_COOLDOWN_EXPONENT]
    omega
  rw [deadline, deadline, hexp]

theorem saturatingInstantAdd_cooldownDuration {now : Nat} (hnow : now ≤ clock.last) (failures : Nat) :
    saturatingInstantAdd clock now (cooldownDuration pool.failureCooldown failures) =
      deadline pool clock failures now :=
  saturatingInstantAdd_eq hnow _

theorem consecutiveFailures_cooldownAfter (failures : Nat × Nat) :
    (cooldownAfter pool clock failures).consecutiveFailures = min failures.1 U32_MAX := by
  rw [cooldownAfter]
  split_ifs with hzero
  · rw [hzero]
    rfl
  · rfl

variable {st : PoolRuntime}

/-- A failure of a binding that has failed some times in a row. -/
theorem step_failure {key : ProviderBindingKey} {failures : Nat × Nat}
    (hget : st.cooldowns.get key = some (cooldownAfter pool clock failures)) {now : Nat}
    (hnow : now ≤ clock.last) :
    step pool st (.failure now hnow key) =
      ({ st with
        cooldowns := Table.set st.cooldowns key
          (cooldownAfter pool clock (failures.1 + 1, now)) },
        .failed (.ok (deadline pool clock (failures.1 + 1) now))) := by
  have hcount : min ((cooldownAfter pool clock failures).consecutiveFailures + 1) U32_MAX =
      min (failures.1 + 1) U32_MAX := by
    rw [consecutiveFailures_cooldownAfter]
    omega
  have hafter : cooldownAfter pool clock (failures.1 + 1, now) =
      { consecutiveFailures := min (failures.1 + 1) U32_MAX
        retryAt := some (deadline pool clock (failures.1 + 1) now) } :=
    if_neg (Nat.succ_ne_zero _)
  rw [step, PoolRuntime.recordFailure, hget, hafter]
  simp only [hcount, saturatingInstantAdd_cooldownDuration hnow, deadline_min]

theorem step_success {key : ProviderBindingKey} {cooldown : BindingCooldown}
    (hget : st.cooldowns.get key = some cooldown) {now : Nat} (hnow : now ≤ clock.last)
    (sessionId : Option String) (hknown : (pool.bindings.get key).isSome = true) :
    step pool st (.success now hnow sessionId key) =
      ({ st with
        cooldowns := Table.set st.cooldowns key {}
        affinity := recordedBy pool st.affinity (.success now hnow sessionId key) },
        .succeeded (.ok ())) := by
  rw [step]
  cases sessionId with
  | none => simp only [PoolRuntime.recordSuccess, hget, recordedBy]
  | some sessionId => simp only [PoolRuntime.recordSuccess, hget, recordedBy, if_pos hknown]

/-- A call on a binding that the pool does not have. -/
theorem step_unknown {call : Call clock} (hget : st.cooldowns.get call.key = none)
    (hunknown : ¬ (pool.bindings.get call.key).isSome = true) (before : List (Call clock)) :
    step pool st call = (st, replyTo pool before call) := by
  cases call with
  | failure now hnow key =>
    rw [Call.key] at hget hunknown
    simp only [step, PoolRuntime.recordFailure, hget, replyTo, if_neg hunknown]
  | success now hnow sessionId key =>
    rw [Call.key] at hget hunknown
    simp only [step, PoolRuntime.recordSuccess, hget, replyTo, if_neg hunknown]

/-- A known key written, for the cooldowns that some calls should leave. -/
theorem get_set_cooldowns {calls : List (Call clock)} (h : After pool calls st)
    {written : ProviderBindingKey} (hknown : (pool.bindings.get written).isSome = true)
    (failures : Nat × Nat) (key : ProviderBindingKey) :
    (Table.set st.cooldowns written (cooldownAfter pool clock failures)).get key =
      if (pool.bindings.get key).isSome then
        some (cooldownAfter pool clock (if written = key then failures else streak key calls))
      else none := by
  rw [Table.get_set, h.cooldowns key]
  by_cases hkey : written = key
  · rw [if_pos hkey.symm, if_pos hkey, ← hkey, if_pos hknown]
  · rw [if_neg (Ne.symm hkey), if_neg hkey]

theorem recordedBy_unknown {call : Call clock}
    (hunknown : ¬ (pool.bindings.get call.key).isSome = true)
    (affinity : Option (Affinity ProviderBindingKey)) :
    recordedBy pool affinity call = affinity := by
  cases call with
  | failure now hnow key => rfl
  | success now hnow sessionId key =>
    cases sessionId with
    | none => rfl
    | some sessionId => exact if_neg hunknown

/-- **What one call does** after some calls, and what it replies. -/
theorem After.step {calls : List (Call clock)} (h : After pool calls st) (call : Call clock) :
    After pool (calls ++ [call]) (CooldownRun.step pool st call).1 ∧
      (CooldownRun.step pool st call).2 = replyTo pool calls call := by
  have hget := h.cooldowns call.key
  by_cases hknown : (pool.bindings.get call.key).isSome = true
  · rw [if_pos hknown] at hget
    cases call with
    | failure now hnow written =>
      rw [Call.key] at hget hknown
      have hstreak : (streak written (calls ++ [.failure now hnow written])).1 =
          (streak written calls).1 + 1 := by
        rw [streak_concat]
        exact congrArg Prod.fst (if_pos rfl)
      rw [step_failure hget hnow, replyTo, if_pos hknown, hstreak]
      refine ⟨⟨fun key => ?_, ?_⟩, rfl⟩
      · rw [get_set_cooldowns h hknown, streak_concat]
        by_cases hkey : written = key
        · simp only [hkey]
        · simp only [if_neg hkey]
      · rw [List.foldl_concat, ← h.affinity, recordedBy]
    | success now hnow sessionId written =>
      rw [Call.key] at hget hknown
      rw [step_success hget hnow sessionId hknown, replyTo, if_pos hknown]
      refine ⟨⟨fun key => ?_, ?_⟩, rfl⟩
      · rw [streak_concat]
        exact get_set_cooldowns h hknown (0, 0) key
      · rw [List.foldl_concat, ← h.affinity]
  · rw [if_neg hknown] at hget
    rw [step_unknown hget hknown calls]
    refine ⟨⟨fun key => ?_, ?_⟩, rfl⟩
    · rw [h.cooldowns key, streak_concat]
      by_cases hkey : call.key = key
      · rw [← hkey, if_neg hknown, if_neg hknown]
      · cases call with
        | failure now hnow written => simp only [if_neg (show ¬ written = key from hkey)]
        | success now hnow sessionId written => simp only [if_neg (show ¬ written = key from hkey)]
    · rw [List.foldl_concat, recordedBy_unknown hknown, h.affinity]

/-! ## Every run -/

/-- The replies that the calls should have. -/
def repliesTo (pool : LinkedAccountPool) (before : List (Call clock)) :
    List (Call clock) → List Reply
  | [] => []
  | call :: calls => replyTo pool before call :: repliesTo pool (before ++ [call]) calls

theorem repliesTo_concat (before calls : List (Call clock)) (call : Call clock) :
    repliesTo pool before (calls ++ [call]) =
      repliesTo pool before calls ++ [replyTo pool (before ++ calls) call] := by
  induction calls generalizing before with
  | nil => rw [List.append_nil]; rfl
  | cons first calls ih =>
    rw [List.cons_append, repliesTo, repliesTo, ih, List.append_assoc, List.singleton_append,
      List.cons_append]

theorem after_run (pool : LinkedAccountPool) (calls : List (Call clock)) :
    After pool calls (Machine.run (step pool) pool.runtime calls).1 ∧
      (Machine.run (step pool) pool.runtime calls).2 = repliesTo pool [] calls := by
  refine Machine.run_induction (fun calls st replies =>
    After pool calls st ∧ replies = repliesTo pool [] calls) ⟨after_runtime, rfl⟩ ?_ calls
  intro calls call ⟨hafter, hreplies⟩
  obtain ⟨hstep, hreply⟩ := hafter.step call
  refine ⟨hstep, ?_⟩
  rw [hreplies, hreply, repliesTo_concat, List.nil_append]

/-- **The cooldown of a binding is that of its own calls**, in every run of failures and successes
of a pool: the state is `After` the calls, the replies are `repliesTo` them, a key's cooldown is what
its own calls alone would leave, and a call on an unknown binding changes nothing. -/
theorem cooldowns_spec (pool : LinkedAccountPool) (clock : Clock) (calls : List (Call clock)) :
    After pool calls (Machine.run (step pool) pool.runtime calls).1 ∧
      (Machine.run (step pool) pool.runtime calls).2 = repliesTo pool [] calls ∧
      (∀ key, (Machine.run (step pool) pool.runtime calls).1.cooldowns.get key =
        (Machine.run (step pool) pool.runtime
          (calls.filter fun call => call.key = key)).1.cooldowns.get key) ∧
      ∀ call, pool.bindings.get call.key = none →
        step pool (Machine.run (step pool) pool.runtime calls).1 call =
          ((Machine.run (step pool) pool.runtime calls).1, replyTo pool calls call) := by
  have hrun := after_run pool calls
  refine ⟨hrun.1, hrun.2, fun key => ?_, fun call hunknown => ?_⟩
  · rw [hrun.1.cooldowns key, (after_run pool _).1.cooldowns key, streak_filter]
  · have hnot : ¬ (pool.bindings.get call.key).isSome = true := by
      rw [hunknown]
      exact Bool.false_ne_true
    refine step_unknown ?_ hnot calls
    rw [hrun.1.cooldowns call.key, if_neg hnot]

/-- A pool of two accounts, which cools for a second and keeps a session with its account. -/
def samplePool : LinkedAccountPool where
  id := "default"
  failureCooldown := ⟨10 ^ 9, second_le_max⟩
  sessionAffinity := some ⟨60 * 10 ^ 9, 10 ^ 9⟩
  active := [
    ⟨⟨"openai", "work"⟩, "openai", Provider.ofInfo ⟨"openai", [], [], {}⟩ none⟩,
    ⟨⟨"openai", "home"⟩, "openai", Provider.ofInfo ⟨"openai", [], [], {}⟩ none⟩]
  fallback := []
  nodup := by decide

/-- A failure of an account that the pool does not have. -/
def strayFailure : Call ⟨10 ^ 12⟩ := .failure 5 (by decide) ⟨"openai", "gone"⟩

/-- Two failures of an account. Between them are a success of the other one in a session, a failure of
it, and a stray one. -/
def sampleCalls : List (Call ⟨10 ^ 12⟩) :=
  [.failure 0 (by decide) ⟨"openai", "work"⟩,
    .success 3 (by decide) (some "session") ⟨"openai", "home"⟩, strayFailure,
    .failure 6 (by decide) ⟨"openai", "home"⟩, .failure 7 (by decide) ⟨"openai", "work"⟩]

theorem cooldowns_sampleCalls :
    let st := (Machine.run (step samplePool) samplePool.runtime sampleCalls).1
    st.cooldowns.get ⟨"openai", "work"⟩ = some ⟨2, some (2 * 10 ^ 9 + 7)⟩ ∧
      st.cooldowns.get ⟨"openai", "home"⟩ = some ⟨1, some (10 ^ 9 + 6)⟩ ∧
      st.affinity = samplePool.runtime.affinity.map
        (fun affinity => affinity.record 3 "session" ⟨"openai", "home"⟩) ∧
      step samplePool st strayFailure = (st, replyTo samplePool sampleCalls strayFailure) := by
  obtain ⟨hafter, -, -, hstray⟩ := cooldowns_spec samplePool ⟨10 ^ 12⟩ sampleCalls
  refine ⟨?_, ?_, hafter.affinity.trans rfl, hstray strayFailure (by decide)⟩
  · rw [hafter.cooldowns]
    decide
  · rw [hafter.cooldowns]
    decide

end CooldownRun

end Tokn.Accounts
