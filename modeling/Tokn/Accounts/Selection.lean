import Tokn.Accounts.Affinity
import Tokn.Accounts.Pool

/-!
# Selection in a linked pool

`crates/accounts/src/link/selection.rs`: the state that requests of a pool share. A request takes the
binding that its session is bound to, or else one of the bindings with the highest rank, in turn,
first of the active accounts and then of the fallback ones. A binding that failed is left out for a
while.

Times are counted in nanoseconds. `Clock.last` is the last instant that the platform can represent.
-/

namespace Tokn.Accounts

/-! ## Pools -/

structure ProviderBindingKey where
  providerId : String
  accountId : String
  deriving DecidableEq

structure ProviderBinding where
  key : ProviderBindingKey
  driverId : String
  driver : Provider

def ProviderBinding.providerId (binding : ProviderBinding) : String := binding.key.providerId

/-- `Duration::MAX`. -/
def DURATION_MAX : Nat := 2 ^ 64 * 10 ^ 9 - 1

structure Duration where
  nanos : Nat
  le_max : nanos ≤ DURATION_MAX

theorem second_le_max : 10 ^ 9 ≤ DURATION_MAX := by decide

structure SessionAffinityPlan where
  ttl : Nat
  expiredRetention : Nat

/-- A `LinkedAccountPool`: the bindings of its active and of its fallback accounts. -/
structure LinkedAccountPool where
  id : String
  failureCooldown : Duration
  sessionAffinity : Option SessionAffinityPlan
  active : List ProviderBinding
  fallback : List ProviderBinding
  /-- An account has one binding. -/
  nodup : ((active ++ fallback).map ProviderBinding.key).Nodup

def LinkedAccountPool.tier (pool : LinkedAccountPool) : AccountTier → List ProviderBinding
  | .active => pool.active
  | .fallback => pool.fallback

/-! ## State -/

structure BindingCooldown where
  consecutiveFailures : Nat := 0
  retryAt : Option Nat := none
  deriving DecidableEq

/-- An `AccountPoolRuntime`, without the pool, which does not change. -/
structure PoolRuntime where
  activeCursor : Nat := 0
  fallbackCursor : Nat := 0
  cooldowns : Table ProviderBindingKey BindingCooldown
  affinity : Option (Affinity ProviderBindingKey)

namespace LinkedAccountPool

variable (pool : LinkedAccountPool)

/-- The bindings by key. Nothing asks for their order. -/
def bindings : Table ProviderBindingKey ProviderBinding :=
  (pool.active ++ pool.fallback).map fun binding => (binding.key, binding)

/-- `AccountPoolRuntime::new`. -/
def runtime : PoolRuntime where
  cooldowns := pool.bindings.map fun entry => (entry.1, {})
  affinity := pool.sessionAffinity.map fun plan =>
    Affinity.fromSessionPlan plan.ttl plan.expiredRetention

end LinkedAccountPool

/-! ## Cooldowns -/

structure Clock where
  last : Nat

def Clock.checkedAdd (clock : Clock) (now nanos : Nat) : Option Nat :=
  if now + nanos ≤ clock.last then some (now + nanos) else none

def MAX_COOLDOWN_EXPONENT : Nat := 5

/-- `u32::MAX`. -/
def U32_MAX : Nat := 2 ^ 32 - 1

def cooldownDuration (base : Duration) (consecutiveFailures : Nat) : Duration where
  nanos := min (base.nanos * 2 ^ min (consecutiveFailures - 1) MAX_COOLDOWN_EXPONENT) DURATION_MAX
  le_max := min_le_right _ _

/-- `duration_from_nanos`: the seconds are cast to `u64`. -/
def durationFromNanos (nanos : Nat) : Nat := nanos / 10 ^ 9 % 2 ^ 64 * 10 ^ 9 + nanos % 10 ^ 9

/-- The loop of `saturating_instant_add`. -/
def searchNanos (clock : Clock) (now lower upper : Nat) : Nat :=
  if lower < upper then
    let midpoint := lower + (upper - lower + 1) / 2
    if (clock.checkedAdd now (durationFromNanos midpoint)).isSome then
      searchNanos clock now midpoint upper
    else searchNanos clock now lower (midpoint - 1)
  else lower
termination_by upper - lower

def saturatingInstantAdd (clock : Clock) (now : Nat) (duration : Duration) : Nat :=
  match clock.checkedAdd now duration.nanos with
  | some deadline => deadline
  | none =>
    (clock.checkedAdd now (durationFromNanos (searchNanos clock now 0 duration.nanos))).getD now

inductive PoolRuntimeError where
  | unknownBinding (pool provider accountId : String)
  deriving DecidableEq

def unknownBinding (pool : LinkedAccountPool) (key : ProviderBindingKey) : PoolRuntimeError :=
  .unknownBinding pool.id key.providerId key.accountId

namespace PoolRuntime

def recordSuccess (pool : LinkedAccountPool) (now : Nat) (sessionId : Option String)
    (key : ProviderBindingKey) (st : PoolRuntime) : Except PoolRuntimeError Unit × PoolRuntime :=
  match st.cooldowns.get key with
  | none => (.error (unknownBinding pool key), st)
  | some _ =>
    (.ok (), { st with
      cooldowns := Table.set st.cooldowns key {}
      affinity :=
        match sessionId with
        | some sessionId => st.affinity.map fun affinity => affinity.record now sessionId key
        | none => st.affinity })

def recordFailure (pool : LinkedAccountPool) (clock : Clock) (now : Nat) (key : ProviderBindingKey)
    (st : PoolRuntime) : Except PoolRuntimeError Nat × PoolRuntime :=
  match st.cooldowns.get key with
  | none => (.error (unknownBinding pool key), st)
  | some cooldown =>
    let failures := min (cooldown.consecutiveFailures + 1) U32_MAX
    let retryAt :=
      saturatingInstantAdd clock now (cooldownDuration pool.failureCooldown failures)
    (.ok retryAt, { st with
      cooldowns := Table.set st.cooldowns key {
        consecutiveFailures := failures
        retryAt := some retryAt } })

/-- `cooling_bindings`: when the cooldowns end that have not yet. -/
def coolingBindings (st : PoolRuntime) (now : Nat) : BTreeMap ProviderBindingKey Nat :=
  st.cooldowns.filterMap fun entry =>
    (entry.2.retryAt.filter fun retryAt => now < retryAt).map fun retryAt => (entry.1, retryAt)

end PoolRuntime

/-! ## Tiers -/

def retainEarliest (earliest : Option Nat) (candidate : Nat) : Option Nat :=
  if earliest.all fun current => candidate < current then some candidate else earliest

/-- What the loop over the accounts of a tier has found so far. -/
structure TierScan where
  candidates : List ProviderBinding := []
  bestRank : Option Int := none
  earliestRetry : Option Nat

/-- What a request asks of a binding: whether it is eligible, and its rank. -/
structure RequestClass where
  eligible : ProviderBinding → Bool
  rank : ProviderBinding → Int

namespace RequestClass

variable (request : RequestClass) (cooling : BTreeMap ProviderBindingKey Nat)

/-- One account in the loop of `select_tier`. -/
def scanAccount (scan : TierScan) (binding : ProviderBinding) : TierScan :=
  if !request.eligible binding then scan
  else
    match cooling.get binding.key with
    | some retryAt => { scan with earliestRetry := retainEarliest scan.earliestRetry retryAt }
    | none =>
      let best : TierScan :=
        { scan with bestRank := some (request.rank binding), candidates := [binding] }
      match scan.bestRank with
      | some current =>
        if request.rank binding < current then scan
        else if request.rank binding = current then
          { scan with candidates := scan.candidates ++ [binding] }
        else best
      | none => best

/-- `select_tier`: the binding, the cursor and the earliest end of a cooldown. -/
def selectTier (accounts : List ProviderBinding) (cursor : Nat) (earliestRetry : Option Nat) :
    Option ProviderBinding × Nat × Option Nat :=
  let scan := accounts.foldl (request.scanAccount cooling) { earliestRetry := earliestRetry }
  if scan.candidates = [] then (none, cursor, scan.earliestRetry)
  else
    (scan.candidates[cursor % scan.candidates.length]?, (cursor + 1) % usizeSize,
      scan.earliestRetry)

end RequestClass

/-! ## Acquisition -/

inductive PoolAcquire where
  | selected (binding : ProviderBinding)
  | coolingDown (retryAt : Nat)
  | noEligible

namespace PoolRuntime

/-- The binding that the session is bound to, if it may be used, and the affinity. -/
def acquireSticky (pool : LinkedAccountPool) (now : Nat) (sessionId : Option String)
    (request : RequestClass) (st : PoolRuntime) :
    Option ProviderBinding × Option (Affinity ProviderBindingKey) :=
  match sessionId, st.affinity with
  | some sessionId, some affinity =>
    let (found, affinity) := affinity.lookup now sessionId
    match found with
    | .hit key =>
      (((pool.bindings.get key).filter fun binding =>
        request.eligible binding && !(st.coolingBindings now).contains key), some affinity)
    | _ => (none, some affinity)
  | _, affinity => (none, affinity)

/-- `acquire_ranked`. The affinity reads the clock when the cooldowns have been read. -/
def acquireRanked (pool : LinkedAccountPool) (now : Nat) (sessionId : Option String)
    (request : RequestClass) (st : PoolRuntime) : PoolAcquire × PoolRuntime :=
  let cooling := st.coolingBindings now
  let (sticky, affinity) := st.acquireSticky pool now sessionId request
  let st := { st with affinity := affinity }
  match sticky with
  | some binding => (.selected binding, st)
  | none =>
    let (found, cursor, earliest) :=
      request.selectTier cooling pool.active st.activeCursor none
    let st := { st with activeCursor := cursor }
    match found with
    | some binding => (.selected binding, st)
    | none =>
      let (found, cursor, earliest) :=
        request.selectTier cooling pool.fallback st.fallbackCursor earliest
      let st := { st with fallbackCursor := cursor }
      match found with
      | some binding => (.selected binding, st)
      | none =>
        match earliest with
        | some retryAt => (.coolingDown retryAt, st)
        | none => (.noEligible, st)

end PoolRuntime

end Tokn.Accounts
