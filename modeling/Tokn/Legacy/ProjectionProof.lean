import Tokn.Legacy.Selection

/-!
# The projected proxy against the legacy one

**Theorem (`projection_agrees_iff`).** The projected listener and the legacy proxy do the same with a
CONNECT iff `ConnectAgrees`: on port 443, if no white space around a configured host matters; on
another port, if the host is not one of the intercepted. On an intercepted host they take the same
plan for a path iff `PathAgrees`: the provider of the host claims the path, or its mode is the
default.

`projection_differs` has a port that the projected listener starts to intercept, and a path whose
credentials it starts to replace.
-/

namespace Tokn.Legacy

open Tokn.Accounts (UrlSyntax host_normalizeTarget stripPrefix)
open Tokn.Config
open Tokn.Policy
open Tokn.Router
open Tokn.Router.LegacyProxy (RouteMode ProxyProviderMode hostMode MODE_HEADER modeHost
  resolveProxyRouteMode)
open Tokn.Except (bind_eq_ok)

/-! ## What the projection is made of -/

/-- The parts of a projected proxy. -/
structure ProjectedFrom (legacy : LegacyConfig) (options : ForwardProxyOptions)
    (proxy : ProjectedForwardProxy) where
  owners : BTreeMap String (List String)
  assignments : HostAssignments
  st : BindingState
  hosts : List String
  defaultId : String
  rawBind : String
  clientAuth : RawClientAuth
  caDir : String
  owners_ok : providerHostOwners options.providerHosts = .ok owners
  assigned : Assigned options.providerHosts owners legacy.proxyMode.providerModes assignments
  bound : BoundModes assignments [.passthrough, .switch] st
  default_holds : Holds st.resources defaultId options.routeMode
  hosts_ok : projectedInterceptHosts options legacy.proxyMode = .ok hosts
  listener : proxy.listener = .forwardProxy rawBind clientAuth options.allowInsecurePublicListener
    DEFAULT_FORWARD_PROXY_REQUEST_BODY_MAX_BYTES (.route defaultId) .tunnel (some caDir)
  bindings : proxy.bindings = st.bindings
  connectRules : proxy.connectRules = interceptRules hosts
  profiles : proxy.profiles = st.resources.profiles
  routes : proxy.routes = st.resources.routes

variable {env : ProjectionSyntax} {legacy : LegacyConfig} {options : ForwardProxyOptions}

theorem projectForwardProxy_ok {policy : EffectivePolicy} {accountIds used : List String}
    {proxy : ProjectedForwardProxy}
    (h : projectForwardProxy env legacy options policy accountIds used = .ok proxy) :
    Nonempty (ProjectedFrom legacy options proxy) := by
  obtain ⟨bind, -, h⟩ := bind_eq_ok.mp h
  obtain ⟨pool, -, h⟩ := bind_eq_ok.mp h
  obtain ⟨⟨defaultId, resources⟩, hdefault, h⟩ := bind_eq_ok.mp h
  obtain ⟨owners, howners, h⟩ := bind_eq_ok.mp h
  obtain ⟨⟨assignments, ignored⟩, hassigned, h⟩ := bind_eq_ok.mp h
  obtain ⟨st, hst, h⟩ := bind_eq_ok.mp h
  obtain ⟨hosts, hhosts, h⟩ := bind_eq_ok.mp h
  obtain ⟨hbound, hholds⟩ := boundModes_of_ok hdefault hst
  dsimp only at h
  split at h
  swap
  · cases h
  rename_i caDir hcaDir
  obtain rfl := Except.ok.inj h
  exact ⟨⟨owners, assignments, st, hosts, defaultId, _, _, caDir, howners, assigned_of_ok hassigned,
    hbound, hholds, hhosts, rfl, rfl, rfl, rfl, rfl⟩⟩

/-- The plan for a request that the projected listener intercepts. -/
def selectedPlan {Addr : Type} (projection : Projection Addr)
    (listener : ForwardProxyListenerPlan Addr) (host : CanonicalHost) (method path : Text) :
    Option RoutePlan :=
  match selectAction listener host method path with
  | .route profile => planOf projection.profiles projection.routes profile
  | .reject => none

/-- The parts of an accepted projection, with its listener. -/
structure Accepted (env : ProjectionSyntax) (legacy : LegacyConfig) (options : ForwardProxyOptions)
    (projection : Projection env.SocketAddr) where
  proxy : ProjectedForwardProxy
  parts : ProjectedFrom legacy options proxy
  listener : ForwardProxyListenerPlan env.SocketAddr
  valid : legacy.proxyMode.validate = .ok ()
  found : projection.listeners.get FORWARD_PROXY_LISTENER_ID = some (.forwardProxy listener)
  default_action : listener.defaultHttpAction = .route parts.defaultId
  default_connect : listener.defaultConnectAction = .tunnel
  bindings : ∃ ids, List.Forall₂ (BindingMade env.toSyntax ids) parts.st.bindings
    listener.httpBindings
  connectRules : List.Forall₂ (ConnectRuleMade env.toSyntax)
    ((interceptRules parts.hosts).filter fun rule => rule.listener = FORWARD_PROXY_LISTENER_ID)
    listener.connectRules
  plans : ∀ id mode, Holds parts.st.resources id mode →
    planOf projection.profiles projection.routes id = some (modePlan mode)

theorem generated_eq_ok {α : Type} {x : Except CompileError α} {a : α} :
    generated x = .ok a ↔ x = .ok a := by
  cases x with
  | ok b => rw [generated, Except.ok.injEq, Except.ok.injEq]
  | error e => exact iff_of_false nofun nofun

variable {projection : Projection env.SocketAddr}

theorem projectV2Config_ok {checks : ResourceChecks} {api : Except ProjectionError ApiProjection}
    (h : projectV2Config env checks api legacy options = .ok projection) :
    Nonempty (Accepted env legacy options projection) := by
  obtain ⟨_, hvalid, h⟩ := bind_eq_ok.mp h
  obtain ⟨api, -, h⟩ := bind_eq_ok.mp h
  obtain ⟨proxy, hproxy, h⟩ := bind_eq_ok.mp h
  obtain ⟨_, -, h⟩ := bind_eq_ok.mp h
  obtain ⟨routes, hroutes, h⟩ := bind_eq_ok.mp h
  obtain ⟨profiles, hprofiles, h⟩ := bind_eq_ok.mp h
  obtain ⟨listeners, hlisteners, h⟩ := bind_eq_ok.mp h
  obtain rfl := Except.ok.inj h
  obtain ⟨parts⟩ := projectForwardProxy_ok hproxy
  have hlast : BTreeMap.insert [("api", api.listener)] FORWARD_PROXY_LISTENER_ID proxy.listener =
      [("api", api.listener)] ++ [(FORWARD_PROXY_LISTENER_ID, proxy.listener)] := by
    rw [BTreeMap.insert, if_neg (by decide +kernel), if_neg (by decide +kernel)]
    rfl
  conv_rhs at hlast => rw [parts.listener]
  obtain ⟨listener, hfound, haction, hconnect, hbindings, hrules⟩ :=
    forwardProxy_of_compileListeners (generated_eq_ok.mp hlisteners) hlast
  have hown : proxy.bindings.filter (fun b => decide (b.listener = FORWARD_PROXY_LISTENER_ID)) =
      parts.st.bindings := by
    rw [parts.bindings]
    refine List.filter_eq_self.mpr fun binding hmem => ?_
    obtain ⟨mode, -, hfor⟩ := parts.bound.sound binding hmem
    exact decide_eq_true hfor.listener
  refine ⟨⟨proxy, parts, listener, hvalid, hfound, compileHttpAction_route haction, hconnect,
    ⟨_, hown ▸ hbindings⟩, parts.connectRules ▸ hrules, fun id mode hholds => ?_⟩⟩
  rw [parts.routes] at hroutes
  rw [parts.profiles] at hprofiles
  exact planOf_of_holds parts.bound.ordered hholds (generated_eq_ok.mp hroutes)
    (generated_eq_ok.mp hprofiles)

/-! ## When the two agree -/

/-- One of the two intercepts the host. -/
def Intercepted {Addr : Type} (legacy : LegacyConfig) (listener : ForwardProxyListenerPlan Addr)
    (host : CanonicalHost) (port : UInt16) : Prop :=
  connectAction listener host port = .intercept ∨ legacyConnectAction legacy host port = .intercept

theorem not_isIpv6_of_intercepted (hip : env.toIpSyntax.Lawful) {routeMode : RouteMode}
    {allow : Bool} (accepted : Accepted env legacy (forwardProxyOptions routeMode allow) projection)
    {raw : Text} {host : CanonicalHost}
    (hhost : CanonicalHost.fromStr env.toIpSyntax raw = .ok host) {port : UInt16}
    (h : Intercepted legacy accepted.listener host port) : host.isIpv6 = false := by
  rw [← Bool.not_eq_true]
  intro h6
  rcases h with hnew | hold
  · have hstar : ∀ name ∈ accepted.parts.hosts, '*' ∉ name.toList := by
      intro name hmem
      obtain ⟨⟨text, -, htext⟩, -⟩ :=
        (mem_projectedInterceptHosts accepted.parts.hosts_ok name).mp hmem
      exact (canonicalProxyHost_eq_ok.mp htext).2
    rcases connectAction_interceptRules accepted.connectRules accepted.default_connect hstar host
      port with ⟨-, hin⟩ | ⟨htunnel, -⟩
    · exact not_exists_fromStr_isIpv6 hip accepted.valid rfl accepted.parts.hosts_ok h6 hin
    · rw [htunnel] at hnew
      cases hnew
  · rcases legacyConnectAction_cases legacy host port with ⟨-, -, hon⟩ | ⟨htunnel, -⟩
    · rw [shouldIntercept_isIpv6 hip accepted.valid hhost h6] at hon
      cases hon
    · rw [htunnel] at hold
      cases hold

/-- The plan that the projected listener takes. -/
theorem selectedPlan_eq (hip : env.toIpSyntax.Lawful) (hv4 : env.toIpSyntax.DottedDecimal)
    (accepted : Accepted env legacy options projection) {raw : Text} {host : CanonicalHost}
    (hhost : CanonicalHost.fromStr env.toIpSyntax raw = .ok host) (h6 : host.isIpv6 = false)
    (method path : Text) :
    selectedPlan projection accepted.listener host method path =
      some (modePlan (projectedMode accepted.parts.assignments options.routeMode host)) := by
  obtain ⟨ids, hbindings⟩ := accepted.bindings
  have hall : ∀ mode : ProxyProviderMode, mode ∈ [ProxyProviderMode.passthrough, .switch] := by
    intro mode
    cases mode <;> decide
  rw [selectedPlan, projectedMode]
  rcases selectAction_spec hip hv4 accepted.parts.assigned hhost h6 hall accepted.parts.bound
    hbindings method path with ⟨mode, id, hmode, haction, hholds⟩ | ⟨hmode, haction⟩
  · rw [haction, hmode]
    exact accepted.plans id _ hholds
  · rw [haction, hmode, accepted.default_action]
    exact accepted.plans _ _ accepted.parts.default_holds

/-- The mode that the legacy proxy resolves for a request without a mode of its own. -/
theorem resolveProxyRouteMode_of_none {state : LegacyProxy.AppState} {headers : HeaderMap}
    {host pathAndQuery : Text} (hmode : headers.get MODE_HEADER = none)
    (hhost : modeHost headers host = host) :
    resolveProxyRouteMode state headers host pathAndQuery = .ok (hostMode state host pathAndQuery) := by
  rw [resolveProxyRouteMode, hmode, Option.bind_none, Option.none_or,
    LegacyProxy.defaultProxyProviderMode, hhost, hostMode]
  cases LegacyProxy.providerMode state host pathAndQuery with
  | none => rfl
  | some mode => exact LegacyProxy.parseRouteMode_text mode

/-- **The projected listener and the legacy proxy.** -/
theorem projection_agrees_iff {env : ProjectionSyntax} (hip : env.toIpSyntax.Lawful)
    (hv4 : env.toIpSyntax.DottedDecimal) {url : UrlSyntax} (hurl : url.KeepsHost env.toIpSyntax)
    {checks : ResourceChecks} {api : Except ProjectionError ApiProjection} {legacy : LegacyConfig}
    {routeMode : RouteMode} {allow : Bool} {projection : Projection env.SocketAddr}
    (h : projectV2Config env checks api legacy (forwardProxyOptions routeMode allow) =
      .ok projection) :
    ∃ listener, projection.listeners.get FORWARD_PROXY_LISTENER_ID = some (.forwardProxy listener) ∧
      ∀ raw host, CanonicalHost.fromStr env.toIpSyntax raw = .ok host → ∀ port,
        (connectAction listener host port = legacyConnectAction legacy host port ↔
          ConnectAgrees legacy.proxyMode host.value port) ∧
        (Intercepted legacy listener host port →
          ∀ state headers method path pathAndQuery, headers.get MODE_HEADER = none →
            modeHost headers host.value = host.value → pathAndQuery.head? = some '/' →
            ∃ target mode, targetOf url host pathAndQuery = some target ∧
              resolveProxyRouteMode (legacy.appState url routeMode state) headers host.value
                pathAndQuery = .ok mode ∧
              (selectedPlan projection listener host method path = some (modePlan mode) ↔
                PathAgrees legacy routeMode target)) := by
  obtain ⟨accepted⟩ := projectV2Config_ok h
  refine ⟨accepted.listener, accepted.found, fun raw host hhost port => ⟨?_, ?_⟩⟩
  · exact connectAction_eq_iff hip hv4 accepted.valid rfl accepted.parts.hosts_ok
      accepted.connectRules accepted.default_connect hhost port
  · intro hintercepted state headers method path pathAndQuery hmode hheader hslash
    have h6 := not_isIpv6_of_intercepted hip accepted hhost hintercepted
    obtain ⟨targetPath, htarget⟩ := host_normalizeTarget hip hv4 hurl hhost h6 hslash
    refine ⟨⟨host.value, targetPath⟩, _, htarget, resolveProxyRouteMode_of_none hmode hheader, ?_⟩
    rw [selectedPlan_eq hip hv4 accepted hhost h6, Option.some.injEq]
    exact modePlan_eq_iff accepted.parts.owners_ok accepted.parts.assigned htarget

/-! ## A proxy for one provider -/

/-- Two addresses, for the two listeners. -/
def localSyntax : ProjectionSyntax where
  toIpSyntax := loopbackSyntax
  SocketAddr := Nat
  parseSocketAddr raw :=
    if raw = "127.0.0.1:4141" then some 4141
    else if raw = "127.0.0.1:8080" then some 8080
    else none
  printSocketAddr port := if port = 4141 then "127.0.0.1:4141" else "127.0.0.1:8080"
  port := id
  isLoopback _ := true
  isUnspecified _ := false
  sameIp _ _ := true
  isAbsolute path := path.toList.head? = some '/'
  joinToParent _ path := path
  parseUrl _ := .error "relative URL without a base"
  socketAddr _ port := port
  defaultCaDir := some "/home/user/.tokn/ca"

theorem loopbackSyntax_dottedDecimal : loopbackSyntax.DottedDecimal where
  print_parseV4 text address h := (Option.ite_none_right_eq_some.mp h).1.symm
  last_parseV4 text address h := by
    rw [(Option.ite_none_right_eq_some.mp h).1]
    decide

/-- The host of an HTTPS URL, and its path. -/
def httpsUrl : UrlSyntax where
  parse raw := (stripPrefix "https://".toList raw).map fun rest =>
    (some (Ascii.lower (rest.takeWhile (· ≠ '/'))), rest.dropWhile (· ≠ '/'))

theorem httpsUrl_keepsHost : httpsUrl.KeepsHost loopbackSyntax where
  host raw host tail found path hhost h6 h := by
    have hplain := plainText_value loopbackSyntax_lawful loopbackSyntax_dottedDecimal hhost h6
    have hslash : ∀ c ∈ host.value, decide (c ≠ '/') = true := by
      intro c hc
      refine decide_eq_true ?_
      rintro rfl
      exact not_mem_of_plain hplain.chars rfl hc
    have hstrip : stripPrefix "https://".toList
        ("https://".toList ++ host.value ++ '/' :: tail) = some (host.value ++ '/' :: tail) := rfl
    have hauthority : (host.value ++ '/' :: tail).takeWhile (fun c => decide (c ≠ '/')) =
        host.value := by
      rw [List.takeWhile_append_of_pos hslash]
      exact List.append_nil _
    dsimp only [httpsUrl] at h
    rw [hstrip, Option.map_some, hauthority] at h
    obtain ⟨hfound, -⟩ := Prod.mk.inj (Option.some.inj h)
    rw [← Option.some.inj hfound, hplain.lower]

/-- One provider has a mode, and it is not the default. -/
def oneProvider : LegacyConfig where
  proxyMode := {
    host := "127.0.0.1".toList
    port := 8080
    caDir := none
    interceptHosts := []
    passthroughHosts := []
    providerModes := [("codex", .switch)] }
  pool := { failureCooldownSecs := 60, sessionTtlSecs := 0, sessionTombstoneSecs := 0 }
  apiKeyEnabled := false

def noChecks : ResourceChecks := ⟨fun _ _ => .ok (), fun _ _ _ => .ok (), .ok ()⟩

/-- The pool of the default policy, with the configured durations. -/
def defaultPool : RawAccountPool where
  accounts := none
  failureCooldownSecs := 60
  sessionTtlSecs := 0
  sessionExpiredRetentionSecs := 0

/-- The default policy alone, and one account. -/
def defaultApi : ApiProjection where
  defaultPolicy := {
    location := .default
    mode := .route
    agentId := none
    defaultProviderId := none
    providers := none
    accounts := none
    modelFamilies := [] }
  accountIds := ["main"]
  used := ["default"]
  listener := .llmApi "127.0.0.1:4141" .none ⟨false, false, []⟩ false
  profiles := [("default", ⟨"default", .auto, some defaultPool, none⟩)]
  routes := [("default", .managed none .any .capability .translateCompatible
    (.recoverable LEGACY_RETRY_POLICY_ID))]
  warnings := [.behaviorChange .requestModeOverrides, .behaviorChange .httpRejectionBehavior,
    .behaviorChange .managedSelectionOrder]

def chatgpt : CanonicalHost := ⟨"chatgpt.com".toList, .dns⟩

def projected : Except ProjectionError (Projection Nat) :=
  projectV2Config localSyntax noChecks (.ok defaultApi) oneProvider
    (forwardProxyOptions .passthrough false)

/-- What the configuration announces, and what changes: another port is intercepted, and on every path
of the host the credentials are those of an account. -/
def announcesLess (projection : Projection Nat) : Bool :=
  match projection.listeners.get FORWARD_PROXY_LISTENER_ID with
  | some (.forwardProxy listener) =>
    projection.warnings = defaultApi.warnings ++ [.behaviorChange .proxyRequestModeOverrides] &&
      connectAction listener chatgpt 8443 = .intercept &&
      connectAction listener chatgpt 443 = .intercept &&
      selectedPlan projection listener chatgpt "POST".toList "/backend-api/conversation".toList =
        some (.relay .original .accountPool)
  | _ => false

/-- The legacy proxy tunnels the port, and passes the path through. -/
theorem projection_differs :
    ∃ projection listener, projected = .ok projection ∧
      projection.listeners.get FORWARD_PROXY_LISTENER_ID = some (.forwardProxy listener) ∧
      projection.warnings =
        [.behaviorChange .requestModeOverrides, .behaviorChange .httpRejectionBehavior,
          .behaviorChange .managedSelectionOrder, .behaviorChange .proxyRequestModeOverrides] ∧
      connectAction listener chatgpt 8443 = .intercept ∧
      legacyConnectAction oneProvider chatgpt 8443 = .tunnel ∧
      connectAction listener chatgpt 443 = .intercept ∧
      legacyConnectAction oneProvider chatgpt 443 = .intercept ∧
      selectedPlan projection listener chatgpt "POST".toList "/backend-api/conversation".toList =
        some (.relay .original .accountPool) ∧
      resolveProxyRouteMode (oneProvider.appState httpsUrl .passthrough LegacyProxy.sampleState) []
        chatgpt.value "/backend-api/conversation".toList = .ok .passthrough := by
  have hnew : projected.toOption.any announcesLess = true := by decide +kernel
  obtain ⟨projection, hok⟩ := Except.exists_eq_ok (show projected.isOk = true by decide +kernel)
  have hless : announcesLess projection = true := by rwa [hok] at hnew
  rw [announcesLess] at hless
  split at hless
  · rename_i listener hlistener
    simp only [Bool.and_eq_true, decide_eq_true_eq] at hless
    obtain ⟨⟨⟨hwarnings, hport⟩, hhost⟩, hplan⟩ := hless
    exact ⟨projection, listener, hok, hlistener, hwarnings, hport, by decide +kernel, hhost,
      by decide +kernel, hplan, by decide +kernel⟩
  · cases hless

/-- On the paths of the provider the two agree. -/
theorem projection_agrees_oneProvider :
    ∃ projection listener target mode, projected = .ok projection ∧
      projection.listeners.get FORWARD_PROXY_LISTENER_ID = some (.forwardProxy listener) ∧
      (connectAction listener chatgpt 443 = legacyConnectAction oneProvider chatgpt 443 ↔
        ConnectAgrees oneProvider.proxyMode chatgpt.value 443) ∧
      targetOf httpsUrl chatgpt "/backend-api/codex/responses".toList = some target ∧
      resolveProxyRouteMode (oneProvider.appState httpsUrl .passthrough LegacyProxy.sampleState) []
        chatgpt.value "/backend-api/codex/responses".toList = .ok mode ∧
      (selectedPlan projection listener chatgpt "POST".toList
          "/backend-api/codex/responses".toList = some (modePlan mode) ↔
        PathAgrees oneProvider .passthrough target) := by
  obtain ⟨projection, hok⟩ := Except.exists_eq_ok (show projected.isOk = true by decide +kernel)
  obtain ⟨listener, hlistener, hagrees⟩ := projection_agrees_iff loopbackSyntax_lawful
    loopbackSyntax_dottedDecimal httpsUrl_keepsHost hok
  obtain ⟨hconnect, hpath⟩ := hagrees chatgpt.value chatgpt (by decide +kernel) 443
  have hintercepted : Intercepted oneProvider listener chatgpt 443 := Or.inr (by decide +kernel)
  obtain ⟨target, mode, htarget, hmode, hplan⟩ := hpath hintercepted LegacyProxy.sampleState []
    "POST".toList "/backend-api/codex/responses".toList "/backend-api/codex/responses".toList rfl rfl
    rfl
  exact ⟨projection, listener, target, mode, hok, hlistener, hconnect, htarget, hmode, hplan⟩

end Tokn.Legacy
