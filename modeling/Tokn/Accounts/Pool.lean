import Mathlib.Data.List.MinMax
import Tokn.Accounts.Affinity
import Tokn.Accounts.Provider

/-!
# The account pool

A pool files its accounts in one bucket for each provider id. A bucket keeps the provider of its
first account, and asks that one for all of them; the accounts keep their own.

What changes while requests are served stands in `PoolState`: the cooldown of each account, behind
the address its handle holds, the two cursors of each bucket, and the affinity of the sessions. The
accounts and the buckets do not change.
-/

namespace Tokn.Accounts

open Tokn.Convert (Endpoint)

/-! ## Accounts -/

inductive AccountTier where
  | active
  | fallback
  deriving DecidableEq

structure AccountConfig where
  id : String
  tier : AccountTier
  deriving DecidableEq

/-- What an account's lock guards. -/
structure AccountInner where
  cooldownUntil : Option Nat := none
  consecutiveFailures : Nat := 0
  deriving DecidableEq

/-- An account: `inner` is the address of its `AccountInner`. -/
structure AccountHandle where
  config : AccountConfig
  provider : Provider
  inner : Nat

/-- The key of the account's bucket. -/
def AccountHandle.providerId (a : AccountHandle) : String := a.provider.info.id

/-- The size of `usize`. -/
def usizeSize : Nat := 2 ^ 64

/-- The accounts of a pool. Each has a lock of its own, and there are no more than a vector can
hold. -/
structure AccountPool where
  accounts : List AccountHandle
  inner_nodup : (accounts.map (·.inner)).Nodup
  length_lt : accounts.length < usizeSize

/-! ## Buckets -/

structure ProviderBucket where
  provider : Provider
  accounts : List AccountHandle := []
  fallbackAccounts : List AccountHandle := []

namespace ProviderBucket

/-- The account joins the list of its tier. -/
def push (b : ProviderBucket) (a : AccountHandle) : ProviderBucket :=
  match a.config.tier with
  | .active => { b with accounts := b.accounts ++ [a] }
  | .fallback => { b with fallbackAccounts := b.fallbackAccounts ++ [a] }

/-- The accounts of both tiers. -/
def members (b : ProviderBucket) : List AccountHandle := b.accounts ++ b.fallbackAccounts

end ProviderBucket

abbrev Buckets := BTreeMap String ProviderBucket

/-- File one account. -/
def addAccount (buckets : Buckets) (a : AccountHandle) : Buckets :=
  buckets.insert a.providerId
    (((buckets.get a.providerId).getD { provider := a.provider }).push a)

/-- The buckets `from_handles` builds. -/
def AccountPool.buckets (pool : AccountPool) : Buckets := pool.accounts.foldl addAccount []

/-- What the pool keeps while it runs. The cursors are those of the bucket with the key. -/
structure PoolState where
  inner : Nat → AccountInner
  cursor : String → Nat
  fallbackCursor : String → Nat
  affinity : Affinity String

namespace PoolState

variable (st : PoolState)

def isHealthy (now : Nat) (a : AccountHandle) : Bool :=
  match (st.inner a.inner).cooldownUntil with
  | none => true
  | some t => t ≤ now

/-- When the account's cooldown ends. An account without one comes before all others. -/
def cooldownUntil (a : AccountHandle) : WithBot Nat := (st.inner a.inner).cooldownUntil

/-- `mark_failure`: each failure in a row doubles the cooldown, up to the fifth. -/
def markFailure (now cooldownBase : Nat) (a : AccountHandle) : PoolState :=
  let failures := min ((st.inner a.inner).consecutiveFailures + 1) (2 ^ 32 - 1)
  { st with
    inner := Function.update st.inner a.inner
      { cooldownUntil := some (now + cooldownBase * 2 ^ (min failures 5 - 1))
        consecutiveFailures := failures } }

def markSuccess (a : AccountHandle) : PoolState :=
  { st with inner := Function.update st.inner a.inner {} }

/-- `pick_healthy_rr`: the first healthy account in turn from the cursor, which moves on by one. -/
def pickHealthyRr (now : Nat) (accounts : List AccountHandle) (cursor : Nat) :
    Option AccountHandle × Nat :=
  let n := accounts.length
  if n = 0 then (none, cursor)
  else
    ((List.range n).findSome? fun i =>
        (accounts[(cursor + i) % usizeSize % n]?).filter (st.isHealthy now),
      (cursor + 1) % usizeSize)

/-- `pick_healthy`: an active account, or else a fallback account. -/
def pickHealthy (now : Nat) (key : String) (b : ProviderBucket) :
    Option AccountHandle × PoolState :=
  let (picked, cursor) := st.pickHealthyRr now b.accounts (st.cursor key)
  let st := { st with cursor := Function.update st.cursor key cursor }
  match picked with
  | some a => (some a, st)
  | none =>
    let (picked, cursor) := st.pickHealthyRr now b.fallbackAccounts (st.fallbackCursor key)
    (picked, { st with fallbackCursor := Function.update st.fallbackCursor key cursor })

/-- `earliest_cooldown`: the first of the accounts whose cooldown ends first. -/
def earliestCooldown (accounts : List AccountHandle) : Option AccountHandle :=
  accounts.argmin st.cooldownUntil

def pickEarliestCooldown (b : ProviderBucket) : Option AccountHandle :=
  (st.earliestCooldown b.accounts).or (st.earliestCooldown b.fallbackAccounts)

/-- The healthy account of the first bucket that has one. -/
def pickFirstHealthy (now : Nat) : Buckets → PoolState → Option AccountHandle × PoolState
  | [], st => (none, st)
  | (key, b) :: candidates, st =>
    match st.pickHealthy now key b with
    | (some a, st) => (some a, st)
    | (none, st) => pickFirstHealthy now candidates st

/-- Of the accounts of the buckets, the first one whose cooldown ends first. -/
def pickFirstCooldown (candidates : Buckets) : Option AccountHandle :=
  st.earliestCooldown (candidates.filterMap fun e => st.pickEarliestCooldown e.2)

/-- The account that one attempt gives: a healthy one if there is any. -/
def acquireFromCandidates (now : Nat) (candidates : Buckets) : Option AccountHandle × PoolState :=
  match pickFirstHealthy now candidates st with
  | (some a, st) => (some a, st)
  | (none, st) => (st.pickFirstCooldown candidates, st)

end PoolState

/-! ## Acquisition -/

inductive EndpointAcquire where
  | account (acct : AccountHandle) (endpoint : Endpoint)
  | sessionExpired
  | none

/-- The evidence and the endpoints to try, in order. -/
def routeAttempts (route : RouteResolution) (requested : Endpoint) :
    List (RouteModelEvidence × Endpoint) :=
  (routeMatchOrder route).flatMap fun evidence =>
    (routeEndpointOrder route requested).map fun endpoint => (evidence, endpoint)

/-- The buckets whose provider is allowed and matches the route. -/
def routeCandidates (buckets : Buckets) (route : RouteResolution)
    (allowedProviders : Option (List String)) (evidence : RouteModelEvidence)
    (endpoint : Endpoint) : Buckets :=
  buckets.filter fun e =>
    providerIsAllowed e.1 allowedProviders &&
      providerMatchesRoute e.2.provider route evidence endpoint

namespace AccountPool

variable (pool : AccountPool)

def accountById (id : String) : Option AccountHandle := pool.accounts.find? (·.config.id == id)

def accountMatchingRouteEndpoint (acct : AccountHandle) (route : RouteResolution)
    (requested : Endpoint) : Option Endpoint :=
  (routeMatchOrder route).findSome? fun evidence =>
    (routeEndpointOrder route requested).find? fun endpoint =>
      providerMatchesRoute acct.provider route evidence endpoint

def hasRouteForProviders (route : RouteResolution) (requested : Endpoint)
    (allowedProviders : Option (List String)) : Bool :=
  (routeMatchOrder route).any fun evidence =>
    (routeEndpointOrder route requested).any fun endpoint =>
      pool.buckets.any fun e =>
        providerIsAllowed e.1 allowedProviders &&
          providerMatchesRoute e.2.provider route evidence endpoint

/-- The loops of `acquire_from_route`, over the attempts that are left. -/
def acquireFromAttempts (route : RouteResolution) (allowedProviders : Option (List String))
    (now : Nat) : List (RouteModelEvidence × Endpoint) → PoolState →
    Option (AccountHandle × Endpoint) × PoolState
  | [], st => (none, st)
  | (evidence, endpoint) :: attempts, st =>
    match st.acquireFromCandidates now
        (routeCandidates pool.buckets route allowedProviders evidence endpoint) with
    | (some a, st) => (some (a, endpoint), st)
    | (none, st) => acquireFromAttempts route allowedProviders now attempts st

def acquireFromRoute (st : PoolState) (now : Nat) (route : RouteResolution) (requested : Endpoint)
    (allowedProviders : Option (List String)) : Option (AccountHandle × Endpoint) × PoolState :=
  pool.acquireFromAttempts route allowedProviders now (routeAttempts route requested) st

/-- `record_session`, for a session that has an id. -/
def recordSession (st : PoolState) (now : Nat) (sessionId : Option String) (acct : AccountHandle) :
    PoolState :=
  match sessionId with
  | some id => { st with affinity := st.affinity.record now id acct.config.id }
  | none => st

/-- What the session is bound to. -/
def lookupSession (st : PoolState) (now : Nat) (sessionId : Option String) :
    Lookup String × PoolState :=
  match sessionId with
  | some id =>
    let (found, affinity) := st.affinity.lookup now id
    (found, { st with affinity := affinity })
  | none => (.unknown, st)

/-- The account the session stays with, and the endpoint it is used on: it has to be allowed and
healthy, and its own provider has to match the route. -/
def stickyAccount (st : PoolState) (now : Nat) (found : Lookup String) (route : RouteResolution)
    (requested : Endpoint) (allowedProviders : Option (List String)) :
    Option (AccountHandle × Endpoint) :=
  match found with
  | .hit accountId =>
    (pool.accountById accountId).bind fun acct =>
      if providerIsAllowed acct.providerId allowedProviders && st.isHealthy now acct then
        (accountMatchingRouteEndpoint acct route requested).map fun endpoint => (acct, endpoint)
      else none
  | .expired | .unknown => none

def acquireForRouteWithProviders (st : PoolState) (now : Nat) (sessionId : Option String)
    (route : RouteResolution) (requested : Endpoint) (allowedProviders : Option (List String)) :
    EndpointAcquire × PoolState :=
  let (found, st) := lookupSession st now sessionId
  match pool.stickyAccount st now found route requested allowedProviders with
  | some (acct, endpoint) => (.account acct endpoint, recordSession st now sessionId acct)
  | none =>
    match pool.acquireFromRoute st now route requested allowedProviders with
    | (some (acct, endpoint), st) => (.account acct endpoint, recordSession st now sessionId acct)
    | (none, st) => (.none, st)

end AccountPool

end Tokn.Accounts
