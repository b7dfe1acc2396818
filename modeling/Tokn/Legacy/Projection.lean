import Tokn.Accounts.Registry
import Tokn.Config.Listeners
import Tokn.Policy.ResourcePlan
import Tokn.Router.LegacyProxy

/-!
# Projecting the legacy proxy

`crates/legacy-config/src/v2`: the `[proxy_mode]` of a legacy configuration becomes a forward proxy
of the second generation, with a profile for each mode, a binding for the hosts of the providers that
have a mode, and a rule for the hosts that are intercepted. The document that comes out is compiled.

The part of the projection before the proxy (accounts, API profiles) is given by its results, and so
are the checks of compiled resources that decide nothing but whether a document passes.
-/

namespace Tokn.Legacy

open Tokn.Accounts (Registry UrlSyntax)
open Tokn.Config
open Tokn.Except (rejectIf)
open Tokn.Policy (Text CanonicalHost ConnectAction HttpAction ListenerPlan officialProviderPreset)
open Tokn.Router.LegacyProxy (RouteMode ProxyProviderMode)

/-! ## Legacy configuration -/

structure ProxyModeConfig where
  host : Text
  port : Nat
  caDir : Option String
  interceptHosts : List Text
  passthroughHosts : List Text
  providerModes : BTreeMap String ProxyProviderMode

structure PoolConfig where
  failureCooldownSecs : Nat
  sessionTtlSecs : Nat
  sessionTombstoneSecs : Nat

/-- A legacy configuration, as far as its proxy and the projection of its proxy read it. -/
structure LegacyConfig where
  proxyMode : ProxyModeConfig
  pool : PoolConfig
  apiKeyEnabled : Bool

def isProxyHost (text : Text) : Bool :=
  let trimmed := Str.trimChars text
  trimmed ≠ [] && trimmed.all fun c => Ascii.isAlphanumeric c || c = '.' || c = '-' || c = '*'

/-! ## The legacy proxy -/

def INTERCEPT_HOSTS : List Text :=
  ["api.openai.com".toList, "api.githubcopilot.com".toList, "api.z.ai".toList,
    "open.bigmodel.cn".toList, "chatgpt.com".toList, "api.deepseek.com".toList,
    "opencode.ai".toList]

def EXTRA_INTERCEPT_HOSTS : List Text := ["openrouter.ai".toList, "api.anthropic.com".toList]

/-- `proxy_default_intercept_hosts`. -/
def defaultInterceptHosts : List Text := INTERCEPT_HOSTS ++ EXTRA_INTERCEPT_HOSTS

/-- The hosts that `HostPolicy::new` keeps. -/
def hostPolicy (config : ProxyModeConfig) : List Text :=
  (defaultInterceptHosts ++ config.interceptHosts.map Ascii.lower).filter fun host =>
    !(config.passthroughHosts.map Ascii.lower).contains host

def shouldIntercept (config : ProxyModeConfig) (host : Text) : Bool :=
  (hostPolicy config).contains (Ascii.lower host)

/-- What the legacy proxy does with a CONNECT. -/
def legacyConnectAction (legacy : LegacyConfig) (host : CanonicalHost) (port : UInt16) :
    ConnectAction :=
  if port = 443 && shouldIntercept legacy.proxyMode host.value then .intercept else .tunnel

def LegacyConfig.appState (legacy : LegacyConfig) (url : UrlSyntax) (routeMode : RouteMode)
    (state : Router.LegacyProxy.AppState) : Router.LegacyProxy.AppState :=
  { state with
    providerIdForUrl := fun host pathAndQuery =>
      Registry.builtin.providerIdForUrl url ("https://".toList ++ host ++ pathAndQuery)
    proxyProviderModes := legacy.proxyMode.providerModes
    defaultMode := routeMode }

/-! ## Errors and warnings -/

inductive PolicyLocation where
  | default
  | profile (name : String)
  | forwardProxy
  deriving DecidableEq

inductive LegacyError where
  | proxyInterceptHost (host : Text)
  | proxyPassthroughHost (host : Text)
  deriving DecidableEq

inductive ProjectionError where
  | invalidLegacyConfig (source : LegacyError)
  | unsupportedRouteMode (policy : PolicyLocation) (mode : RouteMode)
  | unknownPolicyAccount (policy : PolicyLocation) (accountId : String)
  | unknownPolicyProvider (policy : PolicyLocation) (provider : String)
  | emptyPolicySelector (policy : PolicyLocation) (field : String)
  | unsupportedWildcardSelector (policy : PolicyLocation) (field : String)
  | missingDefaultProvider (policy : PolicyLocation)
  | unsupportedForwardProxyBindHost (host : Text)
  | unsupportedRemoteForwardProxyBind (bind : String)
  | unsupportedProxyHostPattern (host : String)
  | ambiguousProxyProviderHost (provider host : String) (owners : List String)
  | resolveForwardProxyCaDir
  | unsupportedSessionAffinity (sessionTombstoneSecs : Nat)
  | invalidGeneratedConfig (source : CompileError)
  /-- An error from before the proxy. -/
  | other
  deriving DecidableEq

/-- `V2BehaviorChange`. -/
inductive BehaviorChange where
  | requestModeOverrides
  | managedSelectionOrder
  | agentBindings
  | percentDecodedProfileAliases
  | httpRejectionBehavior
  | proxyRequestModeOverrides
  | proxyAuthentication
  | proxyLanBootstrap
  deriving DecidableEq

inductive ProjectionWarning where
  | behaviorChange (change : BehaviorChange)
  | remoteForwardProxyBindAllowed (bind : String)
  | unknownProxyProviderModeIgnored (provider : String)
  /-- A warning from before the proxy. -/
  | other
  deriving DecidableEq

/-- `validate`, for the hosts of the proxy. -/
def ProxyModeConfig.validate (config : ProxyModeConfig) : Except ProjectionError Unit := do
  config.interceptHosts.forM fun host =>
    rejectIf (!isProxyHost host) (.invalidLegacyConfig (.proxyInterceptHost host))
  config.passthroughHosts.forM fun host =>
    rejectIf (!isProxyHost host) (.invalidLegacyConfig (.proxyPassthroughHost host))

/-! ## Raw resources -/

inductive RawProviderSelector where
  | any
  | fixed (provider : String)
  deriving DecidableEq

inductive RawModelSelector where
  | capability
  | qualified
  | family (families : BTreeMap String (List String))
  deriving DecidableEq

inductive RawOperationPolicy where
  | preserve
  | translateCompatible
  deriving DecidableEq

inductive RawRouteRetry where
  | never
  | recoverable (policy : String)
  | buffered (policy : String)
  deriving DecidableEq

inductive RawRelayDestination where
  | original
  | fixedProvider (provider : String)
  deriving DecidableEq

inductive RawRelayCredentials where
  | client
  | accountPool
  deriving DecidableEq

inductive RawRoute where
  | managed (providers : Option (List String)) (provider : RawProviderSelector)
      (model : RawModelSelector) (operation : RawOperationPolicy) (retry : RawRouteRetry)
  | relay (providers : Option (List String)) (destination : RawRelayDestination)
      (credentials : RawRelayCredentials) (retry : RawRouteRetry)
  deriving DecidableEq

structure RawAccountPool where
  accounts : Option (List String)
  failureCooldownSecs : Nat
  sessionTtlSecs : Nat
  sessionExpiredRetentionSecs : Nat
  deriving DecidableEq

inductive RawWireIdentity where
  | auto
  | none
  | named (name : String)
  deriving DecidableEq

structure RawProfile where
  route : String
  wireIdentity : RawWireIdentity
  accountPool : Option RawAccountPool
  /-- The path of its API binding. -/
  binding : Option String
  deriving DecidableEq

/-! ## Policies -/

structure EffectivePolicy where
  location : PolicyLocation
  mode : RouteMode
  agentId : Option String
  defaultProviderId : Option String
  providers : Option (List String)
  accounts : Option (List String)
  modelFamilies : List (String × List String)

def LEGACY_RETRY_POLICY_ID : String := "legacy-recoverable"

def wireIdentity (policy : EffectivePolicy) : RawWireIdentity :=
  match policy.agentId with
  | some agentId => .named agentId
  | none => .auto

/-- `normalized_selector`: each value once. -/
def normalizedSelector (policy : EffectivePolicy) (field : String) :
    Option (List String) → Except ProjectionError (Option (List String))
  | none => .ok none
  | some values =>
    if values.isEmpty then .error (.emptyPolicySelector policy.location field)
    else if values.contains "*" then .error (.unsupportedWildcardSelector policy.location field)
    else .ok (some (values.foldl (fun seen value =>
      if seen.contains value then seen else seen ++ [value]) []))

def rawPoolForPolicy (legacy : LegacyConfig) (policy : EffectivePolicy) (accountIds : List String) :
    Except ProjectionError RawAccountPool := do
  let accounts ← normalizedSelector policy "accounts" policy.accounts
  (accounts.getD []).forM fun accountId =>
    rejectIf (!accountIds.contains accountId) (.unknownPolicyAccount policy.location accountId)
  rejectIf (legacy.pool.sessionTtlSecs = 0 && legacy.pool.sessionTombstoneSecs ≠ 0)
    (.unsupportedSessionAffinity legacy.pool.sessionTombstoneSecs)
  return {
    accounts := accounts
    failureCooldownSecs := legacy.pool.failureCooldownSecs
    sessionTtlSecs := legacy.pool.sessionTtlSecs
    sessionExpiredRetentionSecs :=
      if legacy.pool.sessionTtlSecs = 0 then 0
      else legacy.pool.sessionTombstoneSecs - legacy.pool.sessionTtlSecs }

def rawProvidersForPolicy (policy : EffectivePolicy) :
    Except ProjectionError (Option (List String)) := do
  let providers ← normalizedSelector policy "providers" policy.providers
  (providers.getD []).forM fun provider =>
    rejectIf (officialProviderPreset provider).isNone
      (.unknownPolicyProvider policy.location provider)
  return providers

def routeRecipe (policy : EffectivePolicy) (providers : Option (List String)) :
    Except ProjectionError RawRoute :=
  let managed (model : RawModelSelector) : RawRoute :=
    .managed providers .any model .translateCompatible (.recoverable LEGACY_RETRY_POLICY_ID)
  match policy.mode with
  | .route => .ok (managed .capability)
  | .exact => .ok (managed .qualified)
  | .fuzzy => .ok (managed (.family (BTreeMap.extend [] policy.modelFamilies)))
  | .switch =>
    match policy.defaultProviderId with
    | none => .error (.missingDefaultProvider policy.location)
    | some provider =>
      .ok (.relay providers (.fixedProvider provider) .accountPool
        (.buffered LEGACY_RETRY_POLICY_ID))
  | .passthrough => .error (.unsupportedRouteMode policy.location policy.mode)

def proxyRouteRecipe (policy : EffectivePolicy) (mode : RouteMode)
    (providers : Option (List String)) : Except ProjectionError RawRoute :=
  match mode with
  | .passthrough => .ok (.relay none .original .client .never)
  | .switch => .ok (.relay providers .original .accountPool .never)
  | mode => routeRecipe { policy with mode := mode } providers

/-! ## Identifiers -/

/-- `sanitized_identifier`. The bytes of a character that is not ASCII are all separators, as the
character is. -/
def sanitizedIdentifier (source : Text) : Text :=
  let output := (source.foldl (fun (state : Text × Bool) c =>
    if Ascii.isAlphanumeric c then (state.1 ++ [c.toLower], false)
    else if state.1 ≠ [] && !state.2 then (state.1 ++ ['-'], true)
    else state) ([], false)).1
  let output := (output.reverse.dropWhile (· = '-')).reverse
  if output = [] then "profile".toList else output

/-- The first of the suffixes that is not used, of as many as there are used ones. -/
def freshSuffix (used : List String) (base : String) : Nat → Nat → String
  | 0, suffix => base ++ "-" ++ toString suffix
  | fuel + 1, suffix =>
    if used.contains (base ++ "-" ++ toString suffix) then freshSuffix used base fuel (suffix + 1)
    else base ++ "-" ++ toString suffix

/-- `IdentifierAllocator::allocate`: the new identifier. -/
def allocate (used : List String) (source : String) : String :=
  let base := String.ofList (sanitizedIdentifier source.toList)
  if used.contains base then freshSuffix used base used.length 2 else base

/-! ## The forward proxy -/

/-- What the projection takes from the standard library and from the home directory. -/
structure ProjectionSyntax extends Syntax where
  socketAddr : Ipv4Addr ⊕ Ipv6Addr → Nat → SocketAddr
  /-- There is none without a home directory. -/
  defaultCaDir : Option String

structure ForwardProxyOptions where
  routeMode : RouteMode
  defaultInterceptHosts : List Text
  providerHosts : BTreeMap String (List Text)
  allowInsecurePublicListener : Bool

def FORWARD_PROXY_LISTENER_ID : String := "proxy"

def DEFAULT_FORWARD_PROXY_REQUEST_BODY_MAX_BYTES : Nat := 10 * 1024 * 1024

def canonicalProxyHost (host : Text) : Except ProjectionError String :=
  let host := Ascii.lower (Str.trimChars host)
  if host.contains '*' then .error (.unsupportedProxyHostPattern (String.ofList host))
  else .ok (String.ofList host)

def routeModeName (mode : RouteMode) : String := String.ofList mode.text

/-- The resources so far: the used identifiers, the profiles and the routes. -/
structure ProxyResources where
  used : List String
  profiles : BTreeMap String RawProfile := []
  routes : BTreeMap String RawRoute := []

/-- `insert_proxy_profile`: the id of the profile, and the resources. -/
def insertProxyProfile (policy : EffectivePolicy) (mode : RouteMode) (accountPool : RawAccountPool)
    (requestedId : String) (resources : ProxyResources) :
    Except ProjectionError (String × ProxyResources) := do
  let resourceId := allocate resources.used requestedId
  let route ← proxyRouteRecipe policy mode (← rawProvidersForPolicy policy)
  return (resourceId, {
    used := resources.used ++ [resourceId]
    profiles := resources.profiles.insert resourceId {
      route := resourceId
      wireIdentity := if mode = .passthrough then .none else wireIdentity policy
      accountPool := if mode = .passthrough then none else some accountPool
      binding := none }
    routes := resources.routes.insert resourceId route })

def providerHostOwners (providerHosts : BTreeMap String (List Text)) :
    Except ProjectionError (BTreeMap String (List String)) :=
  providerHosts.foldlM (fun owners entry =>
    entry.2.foldlM (fun owners host => do
      let host ← canonicalProxyHost host
      let current := (owners.get host).getD []
      return owners.insert host
        (if current.contains entry.1 then current else current ++ [entry.1])) owners) []

/-- The hosts with a mode, and the warnings. -/
abbrev HostAssignments := BTreeMap String (ProxyProviderMode × List String)

def assignHost (owners : BTreeMap String (List String)) (provider : String)
    (mode : ProxyProviderMode) (assignments : HostAssignments) (host : Text) :
    Except ProjectionError HostAssignments := do
  let host ← canonicalProxyHost host
  let hostOwners := (owners.get host).getD []
  rejectIf (1 < hostOwners.length) (.ambiguousProxyProviderHost provider host hostOwners)
  return assignments.insert host
    (match assignments.get host with
    | some (mode, providers) => (mode, providers ++ [provider])
    | none => (mode, [provider]))

/-- The loop over the modes of providers. -/
def hostAssignments (options : ForwardProxyOptions) (owners : BTreeMap String (List String))
    (providerModes : BTreeMap String ProxyProviderMode) :
    Except ProjectionError (HostAssignments × List ProjectionWarning) :=
  providerModes.foldlM (fun state entry =>
    match options.providerHosts.get entry.1 with
    | none => .ok (state.1, state.2 ++ [.unknownProxyProviderModeIgnored entry.1])
    | some hosts => do
      let assignments ← hosts.foldlM (assignHost owners entry.1 entry.2) state.1
      return (assignments, state.2)) ([], [])

/-- The bindings so far, the profiles of the modes so far, and the resources. -/
structure BindingState where
  bindings : List RawBinding := []
  modeProfiles : List (RouteMode × String)
  resources : ProxyResources

/-- The profile of a mode: one that there is, or a new one. -/
def modeProfile (policy : EffectivePolicy) (accountPool : RawAccountPool) (mode : RouteMode)
    (st : BindingState) : Except ProjectionError (String × BindingState) :=
  match st.modeProfiles.find? fun entry => entry.1 = mode with
  | some entry => .ok (entry.2, st)
  | none => do
    let (id, resources) ← insertProxyProfile policy mode accountPool
      ("proxy-" ++ routeModeName mode) st.resources
    return (id, { st with
      modeProfiles := st.modeProfiles ++ [(mode, id)]
      resources := resources })

/-- The binding of a mode, if it has hosts. -/
def bindMode (policy : EffectivePolicy) (accountPool : RawAccountPool)
    (assignments : HostAssignments) (st : BindingState) (mode : ProxyProviderMode) :
    Except ProjectionError BindingState := do
  let hosts := (assignments.filter fun entry => entry.2.1 = mode).map Prod.fst
  if hosts.isEmpty then return st
  let (profileId, st) ← modeProfile policy accountPool mode.asRouteMode st
  return { st with
    bindings := st.bindings ++ [{
      id := "proxy-provider-" ++ routeModeName mode.asRouteMode
      listener := FORWARD_PROXY_LISTENER_ID
      action := .route profileId
      hosts := hosts
      pathPrefixes := []
      methods := []
      operations := [] }] }

/-- The hosts to intercept, as a set. -/
def projectedInterceptHosts (options : ForwardProxyOptions) (config : ProxyModeConfig) :
    Except ProjectionError (List String) := do
  let hosts ← (options.defaultInterceptHosts ++ config.interceptHosts).mapM canonicalProxyHost
  let removed ← config.passthroughHosts.mapM canonicalProxyHost
  let set : BTreeMap String Unit := BTreeMap.extend [] (hosts.map fun host => (host, ()))
  return (set.map Prod.fst).filter fun host => !removed.contains host

/-- The rule for the hosts to intercept, if there are any. -/
def interceptRules (hosts : List String) : List RawConnectRule :=
  if hosts.isEmpty then []
  else
    [{ id := "proxy-intercept"
       listener := FORWARD_PROXY_LISTENER_ID
       action := .intercept
       hosts := hosts
       ports := [] }]

structure ProjectedForwardProxy where
  listener : RawListener
  bindings : List RawBinding
  connectRules : List RawConnectRule
  profiles : BTreeMap String RawProfile
  routes : BTreeMap String RawRoute
  warnings : List ProjectionWarning

def forwardProxyBind (env : ProjectionSyntax) (legacy : LegacyConfig) (allowInsecurePublic : Bool) :
    Except ProjectionError env.SocketAddr :=
  match env.parse legacy.proxyMode.host with
  | none => .error (.unsupportedForwardProxyBindHost legacy.proxyMode.host)
  | some ip =>
    let bind := env.socketAddr ip legacy.proxyMode.port
    if !env.isLoopback bind && !allowInsecurePublic then
      .error (.unsupportedRemoteForwardProxyBind (env.printSocketAddr bind))
    else .ok bind

def projectForwardProxy (env : ProjectionSyntax) (legacy : LegacyConfig)
    (options : ForwardProxyOptions) (defaultPolicy : EffectivePolicy) (accountIds used : List String) :
    Except ProjectionError ProjectedForwardProxy := do
  let bind ← forwardProxyBind env legacy options.allowInsecurePublicListener
  let remote := !env.isLoopback bind
  let policy := { defaultPolicy with location := .forwardProxy, mode := options.routeMode }
  let accountPool ← rawPoolForPolicy legacy policy accountIds
  let (defaultProfileId, resources) ← insertProxyProfile policy options.routeMode accountPool
    "proxy-default" { used := used }
  let owners ← providerHostOwners options.providerHosts
  let (assignments, ignored) ← hostAssignments options owners legacy.proxyMode.providerModes
  let st ← [ProxyProviderMode.passthrough, .switch].foldlM (bindMode policy accountPool assignments)
    { modeProfiles := [(options.routeMode, defaultProfileId)], resources := resources }
  let interceptHosts ← projectedInterceptHosts options legacy.proxyMode
  let caDir ← match legacy.proxyMode.caDir.or env.defaultCaDir with
    | some caDir => .ok caDir
    | none => .error .resolveForwardProxyCaDir
  return {
    listener := .forwardProxy (env.printSocketAddr bind)
      (if legacy.apiKeyEnabled then .localKeys else .none) options.allowInsecurePublicListener
      DEFAULT_FORWARD_PROXY_REQUEST_BODY_MAX_BYTES (.route defaultProfileId) .tunnel (some caDir)
    bindings := st.bindings
    connectRules := interceptRules interceptHosts
    profiles := st.resources.profiles
    routes := st.resources.routes
    warnings :=
      [.behaviorChange .proxyRequestModeOverrides] ++
        (if legacy.apiKeyEnabled then [.behaviorChange .proxyAuthentication] else []) ++
        (if remote then
          [.remoteForwardProxyBindAllowed (env.printSocketAddr bind),
            .behaviorChange .proxyLanBootstrap]
        else []) ++ ignored }

/-! ## The compiled document -/

/-- A compiled route, by what it does with the destination and with the credentials. -/
inductive RoutePlan where
  | managed
  | relay (destination : RawRelayDestination) (credentials : RawRelayCredentials)
  deriving DecidableEq

def RawRoute.plan : RawRoute → RoutePlan
  | .managed .. => .managed
  | .relay _ destination credentials _ => .relay destination credentials

/-- The checks of resources, which reject a document or let it pass. -/
structure ResourceChecks where
  route : String → RawRoute → Except CompileError Unit
  profile : String → RawProfile → RoutePlan → Except CompileError Unit
  others : Except CompileError Unit

def compileRoutes (checks : ResourceChecks) (routes : BTreeMap String RawRoute) :
    Except CompileError (BTreeMap String RoutePlan) :=
  routes.mapM fun entry => do
    let id ← parseId "route" "route id" entry.1
    checks.route id entry.2
    return (id, entry.2.plan)

/-- `compile_profiles`: the routes of the profiles. -/
def compileProfiles (checks : ResourceChecks) (routes : BTreeMap String RoutePlan)
    (profiles : BTreeMap String RawProfile) : Except CompileError (BTreeMap String String) :=
  profiles.mapM fun entry => do
    let id ← parseId "profile" "profile id" entry.1
    let routeId ← parseId "route" "profile route reference" entry.2.route
    match routes.get routeId with
    | none => throw (.unresolvedReference "profile" entry.1 "route" "route" entry.2.route)
    | some route =>
      checks.profile id entry.2 route
      return (id, routeId)

/-- What comes before the proxy. -/
structure ApiProjection where
  defaultPolicy : EffectivePolicy
  accountIds : List String
  used : List String
  listener : RawListener
  profiles : BTreeMap String RawProfile
  routes : BTreeMap String RawRoute
  warnings : List ProjectionWarning

/-- A projection that was compiled. -/
structure Projection (Addr : Type) where
  rawConfig : RawConfig
  profiles : BTreeMap String String
  routes : BTreeMap String RoutePlan
  listeners : BTreeMap String (ListenerPlan Addr)
  warnings : List ProjectionWarning

def GENERATED_SOURCE : String := "in-memory-v1-projection.toml"

/-- A compiler's result, as one of the projection. -/
def generated {α : Type} : Except CompileError α → Except ProjectionError α
  | .ok a => .ok a
  | .error source => .error (.invalidGeneratedConfig source)

/-- `project_v2_config`, with a forward proxy. -/
def projectV2Config (env : ProjectionSyntax) (checks : ResourceChecks)
    (api : Except ProjectionError ApiProjection) (legacy : LegacyConfig)
    (options : ForwardProxyOptions) : Except ProjectionError (Projection env.SocketAddr) := do
  legacy.proxyMode.validate
  let api ← api
  let proxy ← projectForwardProxy env legacy options api.defaultPolicy api.accountIds api.used
  let rawConfig : RawConfig := {
    listeners := BTreeMap.insert [("api", api.listener)] FORWARD_PROXY_LISTENER_ID proxy.listener
    bindings := proxy.bindings
    connectRules := proxy.connectRules }
  generated checks.others
  let routes ← generated (compileRoutes checks (api.routes.extend proxy.routes))
  let profiles ← generated (compileProfiles checks routes (api.profiles.extend proxy.profiles))
  let listeners ← generated
    (compileListeners env.toSyntax rawConfig GENERATED_SOURCE (profiles.map Prod.fst))
  return {
    rawConfig := rawConfig
    profiles := profiles
    routes := routes
    listeners := listeners
    warnings := api.warnings ++ proxy.warnings }

end Tokn.Legacy
