import Tokn.Router.AccountRelay
import Tokn.Router.ProfileRuntimes
import Tokn.Router.Selector

/-!
# Resolving requests

`crates/router/src/v2/selector.rs`: how the services of a profile find the account of a request, and
what they tell the pool once the request has been sent.

A gateway has a state for each pool, which the services of a profile share. Requests are resolved one
after the other, and what is sent may end at any time after that. The handle of an account is its
binding; a relay with the credentials of the client has a stub in its place.
-/

namespace Tokn.Router.Runtimes

open Tokn.Accounts (Clock LinkedAccountPool PoolAcquire PoolRuntime ProviderBinding RequestClass)
open Tokn.Config.Resources (CompiledResources)
open Tokn.Except (rejectIf)
open Tokn.Policy
open Tokn.Providers (RequestKind)
open Tokn.Requests (PipelineError ResolvedRoute SendOutcome)
open Tokn.Router.AccountRelay (V2_PROXY_ORIGIN_KEY)

/-! ## Errors -/

def providerAccessDenied : PipelineError :=
  resolveError "API key does not allow the requested provider"

def noAccountError (endpoint : Convert.Endpoint) (model : String) : PipelineError :=
  resolveError ("no account supports endpoint " ++ operationName endpoint ++ " for model " ++ model)

def noProviderAccount (providerId : String) : PipelineError :=
  resolveError ("no account configured for provider " ++ providerId)

def missingProxyConfig (key : String) : PipelineError :=
  resolveError ("proxy passthrough pipeline requires \x60" ++ key ++ "\x60 in RunConfig")

/-! ## Resolved requests -/

def ACCOUNT_ID_KEY : String := "proxy.account_id"

inductive ResolvedHandle where
  | bound (binding : ProviderBinding)
  | stub (accountId providerId : String)

/-- A `Resolved`, without the agent. -/
structure Resolved where
  model : String
  upstreamModel : String
  route : ResolvedRoute
  accountId : String
  providerId : String
  handle : ResolvedHandle

/-- `from_provider_path`. -/
def requestKindOfPath (path : String) : RequestKind :=
  let pathOnly := (path.toList.takeWhile fun c => c ≠ '?').rdropWhile fun c => c = '/'
  if "/models".toList.isSuffixOf pathOnly then .models else .opaqueKind

/-- The route of a request that is passed on as it is. -/
def passthroughRoute (ctx : PipelineCtx) : ResolvedRoute :=
  match ctx.requestEndpoint.resolved with
  | some endpoint => .operation endpoint endpoint
  | none =>
    .providerTraffic ((ctx.config.getStr Requests.PATH_KEY).elim .opaqueKind requestKindOfPath)

/-! ## Selection -/

/-- `acquire`: no binding ranks before another. -/
def acquire (pool : LinkedAccountPool) (now : Nat) (sessionId : Option String)
    (eligible : ProviderBinding → Bool) (st : PoolRuntime) : PoolAcquire × PoolRuntime :=
  st.acquireRanked pool now sessionId ⟨eligible, fun _ => 0⟩

section

variable (pool : LinkedAccountPool) (ctx : PipelineCtx) (extracted : Extracted)

def selectRelay (route : RelayRoute) (now : Nat) (st : PoolRuntime) :
    Except PipelineError SelectorOutcome × PoolRuntime :=
  match resolvedEndpoint ctx with
  | .error e => (.error e, st)
  | .ok endpoint =>
    match route.destination with
    | .original =>
      (.error (invalidRouteRequest "origin-based relay cannot run on an LLM API listener"), st)
    | .fixedProvider provider =>
      match allowedProviderIds ctx with
      | .error e => (.error e, st)
      | .ok allowed =>
        if !providerAllowed provider allowed then (.ok .providerAccessDenied, st)
        else
          let (reply, st) := acquire pool now extracted.sessionId
            (fun binding => binding.providerId = provider) st
          match reply with
          | .selected binding => (.ok (selectedOutcome binding endpoint extracted.model), st)
          | .coolingDown _ | .noEligible => (.ok .noAccount, st)

def select (plan : RoutePlan) (now : Nat → Nat) (st : PoolRuntime) :
    Except PipelineError SelectorOutcome × PoolRuntime :=
  match plan with
  | .managed route => selectManaged pool route ctx extracted now st
  | .relay route => selectRelay pool ctx extracted route (now 0) st

/-- `PoolResolve`, on what the selector answers. -/
def poolResolve (answer : Except PipelineError SelectorOutcome) : Except PipelineError Resolved := do
  match ← answer with
  | .selected accountId providerId upstreamEndpoint upstreamModel binding =>
    let endpoint ← resolvedEndpoint ctx
    return {
      model := extracted.model
      upstreamModel := upstreamModel
      route := .operation endpoint (upstreamEndpoint.getD endpoint)
      accountId := accountId
      providerId := providerId
      handle := .bound binding }
  | .noAccount =>
    let endpoint ← resolvedEndpoint ctx
    throw (noAccountError endpoint extracted.model)
  | .providerAccessDenied => throw providerAccessDenied

/-! ## Relays -/

def ProxyRelayTarget.provider : ProxyRelayTarget → Except PipelineError String
  | .fixed provider => .ok provider
  | .fromOrigin origins =>
    match ctx.config.getStr V2_PROXY_ORIGIN_KEY with
    | none => .error (invalidRouteRequest "origin relay requires an admitted proxy origin")
    | some origin =>
      match origins.get origin with
      | none => .error (invalidRouteRequest
          ("no configured provider owns proxy origin '" ++ origin ++ "'"))
      | some provider => .ok provider

/-- `V2ProxyResolve`. -/
def proxyResolve (target : ProxyRelayTarget) (now : Nat) (st : PoolRuntime) :
    Except PipelineError Resolved × PoolRuntime :=
  let permitted := do
    let provider ← target.provider ctx
    let allowed ← allowedProviderIds ctx
    rejectIf (!providerAllowed provider allowed) providerAccessDenied
    return provider
  match permitted with
  | .error e => (.error e, st)
  | .ok provider =>
    let (reply, st) := acquire pool now extracted.sessionId
      (fun binding => binding.providerId = provider) st
    match reply with
    | .selected binding =>
      (.ok {
        model := extracted.model
        upstreamModel := extracted.model
        route := passthroughRoute ctx
        accountId := binding.key.accountId
        providerId := binding.driver.info.id
        handle := .bound binding }, st)
    | .coolingDown _ | .noEligible => (.error (noProviderAccount provider), st)

/-- `ProxyResolve` of `crates/requests/src/stages/resolve/proxy.rs`. -/
def stubResolve : Except PipelineError Resolved :=
  match ctx.config.getStr Requests.HOST_KEY with
  | none => .error (missingProxyConfig Requests.HOST_KEY)
  | some host =>
    let providerId := (ctx.config.getStr Requests.PROVIDER_ID_KEY).getD host
    let accountId := (ctx.config.getStr ACCOUNT_ID_KEY).getD "proxy"
    .ok {
      model := extracted.model
      upstreamModel := extracted.model
      route := passthroughRoute ctx
      accountId := accountId
      providerId := providerId
      handle := .stub accountId providerId }

/-- The origin of the request is one of those that are allowed. -/
def checkOrigin : Option (BTreeMap String String) → Except PipelineError Unit
  | none => .ok ()
  | some origins => do
    let allowed ← allowedProviderIds ctx
    let provider := (ctx.config.getStr V2_PROXY_ORIGIN_KEY).bind origins.get
    rejectIf (!provider.any fun id => providerAllowed id allowed) providerAccessDenied

def checkFixedProvider : Option String → Except PipelineError Unit
  | none => .ok ()
  | some provider => do
    let allowed ← allowedProviderIds ctx
    rejectIf (!providerAllowed provider allowed) providerAccessDenied

/-- `V2ClientResolve`. -/
def clientResolve (fixedProvider : Option String)
    (allowedOrigins : Option (BTreeMap String String)) : Except PipelineError Resolved := do
  checkOrigin ctx allowedOrigins
  checkFixedProvider ctx fixedProvider
  let resolved ← stubResolve ctx extracted
  match fixedProvider with
  | none => return resolved
  | some provider =>
    rejectIf (resolved.providerId ≠ provider) (invalidRouteRequest
      ("fixed relay expected provider '" ++ provider ++ "', got '" ++ resolved.providerId ++ "'"))
    return resolved

end

/-! ## Services -/

/-- Where a request comes in. -/
inductive Transport where
  | api
  | proxy
  deriving DecidableEq

/-- The states of the pools. -/
abbrev PoolStates := String → PoolRuntime

def buildAccountPoolRuntimes (pools : BTreeMap String LinkedAccountPool) : PoolStates := fun id =>
  match pools.get id with
  | some pool => pool.runtime
  | none => { cooldowns := [], affinity := none }

/-- The resolving stage of a service. An origin relay has no service for an API. -/
def resolveWith (plan : RoutePlan) (service : ProfileService) (transport : Transport)
    (ctx : PipelineCtx) (extracted : Extracted) (now : Nat → Nat) (st : PoolStates) :
    Option (Except PipelineError Resolved) × PoolStates :=
  if transport = .api ∧ plan.destinationPolicy = .original then (none, st)
  else
    match service, transport with
    | .managed pool _, _ | .relay (.pool pool _) _, .api =>
      let (answer, state) := select pool ctx extracted plan now (st pool.id)
      (some (poolResolve ctx extracted answer), Function.update st pool.id state)
    | .relay (.pool pool target) _, .proxy =>
      let (reply, state) := proxyResolve pool ctx extracted target (now 0) (st pool.id)
      (some reply, Function.update st pool.id state)
    | .relay (.client fixedProvider _) _, .api =>
      (some (clientResolve ctx extracted fixedProvider none), st)
    | .relay (.client fixedProvider allowedOrigins) _, .proxy =>
      (some (clientResolve ctx extracted fixedProvider allowedOrigins), st)

/-! ## Ends of requests -/

def statusMarksBindingUnavailable (status : UInt16) : Bool :=
  status ∈ [401, 403, 408, 425, 429] || (500 ≤ status && status ≤ 599)

/-- What the end of a request says of its binding. -/
inductive Report where
  | success
  | failure
  deriving DecidableEq

/-- `PoolAwareSend` reports what was sent as a success, and `ProxyPoolAwareSend` looks at the status. -/
def reportOf (watchesStatus : Bool) : SendOutcome → Option Report
  | .sent status =>
    if watchesStatus && statusMarksBindingUnavailable status then some .failure else some .success
  | .failed error => if error.recoverable then some .failure else none
  | .panicked => none

/-- `record_success` or `record_failure`, on a binding that the pool has. -/
def recordReport (pool : LinkedAccountPool) (clock : Clock) (sessionId : Option String)
    (handle : ResolvedHandle) (report : Option Report) (now : Nat) (st : PoolRuntime) : PoolRuntime :=
  match handle, report with
  | .bound binding, some report =>
    if (pool.bindings.get binding.key).isSome then
      match report with
      | .success => (st.recordSuccess pool now sessionId binding.key).2
      | .failure => (st.recordFailure pool clock now binding.key).2
    else st
  | _, _ => st

/-- What the sending stage of a service records. -/
def recordWith (service : ProfileService) (transport : Transport) (clock : Clock)
    (sessionId : Option String) (handle : ResolvedHandle) (outcome : SendOutcome) (now : Nat)
    (st : PoolStates) : PoolStates :=
  match service, transport with
  | .managed pool _, _ | .relay (.pool pool _) _, .api =>
    Function.update st pool.id
      (recordReport pool clock sessionId handle (reportOf false outcome) now (st pool.id))
  | .relay (.pool pool _) _, .proxy =>
    Function.update st pool.id
      (recordReport pool clock sessionId handle (reportOf true outcome) now (st pool.id))
  | .relay (.client _ _) _, _ => st

/-! ## Gateways -/

/-- A gateway, as far as its profiles resolve requests. What its drivers know of the models of their
upstreams is held fixed: no step is a refresh of them. -/
structure Gateway (ρ τ ε : Type) where
  resources : CompiledResources
  runtimes : LinkedRuntimes ρ τ ε
  clock : Clock

/-- What happens to a gateway: a request of a profile is to be resolved, or has been sent. -/
inductive Step where
  | resolve (profileId : String) (transport : Transport) (ctx : PipelineCtx) (extracted : Extracted)
      (now : Nat → Nat)
  | sent (profileId : String) (transport : Transport) (sessionId : Option String)
      (handle : ResolvedHandle) (outcome : SendOutcome) (now : Nat)

def Step.profileId : Step → String
  | .resolve profileId _ _ _ _ => profileId
  | .sent profileId _ _ _ _ _ => profileId

namespace Gateway

variable {ρ τ ε : Type} (gateway : Gateway ρ τ ε)

def serviceOf (profileId : String) : Option (RoutePlan × ProfileService) := do
  let profile ← gateway.resources.profiles.get profileId
  let route ← gateway.resources.routes.get profile.route
  let runtime ← gateway.runtimes.profiles.get profileId
  return (route.plan, runtime.service)

/-- What a request resolves to; `none` where there is no service for it. -/
def resolve (st : PoolStates) (profileId : String) (transport : Transport) (ctx : PipelineCtx)
    (extracted : Extracted) (now : Nat → Nat) : Option (Except PipelineError Resolved) × PoolStates :=
  match gateway.serviceOf profileId with
  | none => (none, st)
  | some (plan, service) => resolveWith plan service transport ctx extracted now st

def step (st : PoolStates) : Step → PoolStates
  | .resolve profileId transport ctx extracted now =>
    (gateway.resolve st profileId transport ctx extracted now).2
  | .sent profileId transport sessionId handle outcome now =>
    match gateway.serviceOf profileId with
    | none => st
    | some (_, service) =>
      recordWith service transport gateway.clock sessionId handle outcome now st

/-- The states of the pools after the steps. -/
def run (steps : List Step) : PoolStates :=
  steps.foldl gateway.step (buildAccountPoolRuntimes gateway.runtimes.pools)

end Gateway

end Tokn.Router.Runtimes
