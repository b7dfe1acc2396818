import Tokn.Access.Keys
import Tokn.Lib.Ascii
import Tokn.Lib.HeaderMap
import Tokn.Policy.Topology
import Tokn.Router.Matching

/-!
# The intercepting proxy of the first generation

`crates/router/src/proxy/transport.rs` and `passthrough_pipeline.rs`: a request that comes in on an
intercepted connection is given a route mode, is authenticated if the mode asks for it, and is sent
to its host as it is, sent with the credentials of an account, or handed to the API of the gateway.

A URL is kept as its parts. The registry of providers reads its host and its path, and not its port.
-/

namespace Tokn.Router.LegacyProxy

open Tokn.Access (AccessContext AccessDb)
open Tokn.Policy

/-! ## Modes -/

inductive RouteMode where
  | passthrough
  | switch
  | exact
  | route
  | fuzzy
  deriving DecidableEq

def RouteMode.isVerbatim : RouteMode → Bool
  | .passthrough => true
  | .switch => true
  | _ => false

/-- `route_mode_as_str`. -/
def RouteMode.text : RouteMode → Text
  | .passthrough => "passthrough".toList
  | .switch => "switch".toList
  | .exact => "exact".toList
  | .route => "route".toList
  | .fuzzy => "fuzzy".toList

/-- `parse_route_mode`; the error is the mode that is not known. -/
def parseRouteMode (raw : Text) : Except Text RouteMode :=
  let mode := Ascii.lower (Str.trimChars raw)
  if mode = "passthrough".toList then .ok .passthrough
  else if mode = "switch".toList then .ok .switch
  else if mode = "exact".toList then .ok .exact
  else if mode = "route".toList then .ok .route
  else if mode = "fuzzy".toList then .ok .fuzzy
  else .error mode

inductive ProxyProviderMode where
  | passthrough
  | switch
  deriving DecidableEq

def ProxyProviderMode.asRouteMode : ProxyProviderMode → RouteMode
  | .passthrough => .passthrough
  | .switch => .switch

/-! ## States and requests -/

structure Url where
  scheme : String
  host : Text
  port : Option Nat
  pathAndQuery : Text
  deriving DecidableEq

/-- The state of the gateway, as far as the proxy reads it. `providerIdForUrl` is the registry of
providers, by host and path, and `identify` finds the account and the provider that a client's own
credentials belong to. -/
structure AppState where
  providerIdForUrl : Text → Text → Option String
  proxyProviderModes : BTreeMap String ProxyProviderMode
  defaultMode : RouteMode
  apiKeyEnabled : Bool
  access : AccessDb
  isDefaultInterceptHost : Text → Option Nat → Bool
  identify : HeaderMap → Option Url → Option String × Option String
  rewriteTarget : Text → Text → String → Option Text

def HOST : String := "host"

/-- `headers.get(HOST)`, as a text. -/
def hostHeader (headers : HeaderMap) : Option Text := (headers.get HOST).bind HeaderValue.toStr

/-- A request in origin form, or in absolute form with an authority. A header value has no white
space around it. -/
structure InnerRequest where
  method : String
  authority : Option (Text × Option Nat)
  path : Text
  pathAndQuery : Text
  headers : HeaderMap
  trimmed : ∀ text, hostHeader headers = some text → Str.trimChars text = text

/-- What the CONNECT has fixed. -/
structure Connection where
  interceptedHost : Text
  interceptedPort : Nat
  proxyRouteMode : Option HeaderValue
  localAddr : String

/-! ## The mode of a request -/

def MODE_HEADER : String := "x-route-mode"

/-- `s.split(':').next()`. -/
def beforeColon (text : Text) : Text := text.takeWhile (· ≠ ':')

/-- The host without a port, by the header. -/
def bareHost (connection : Connection) (headers : HeaderMap) : Text :=
  match (hostHeader headers).map beforeColon with
  | some host => if host = [] then connection.interceptedHost else host
  | none => connection.interceptedHost

/-- The host that `default_proxy_provider_mode` asks the registry for. -/
def modeHost (headers : HeaderMap) (interceptedHost : Text) : Text :=
  match (hostHeader headers).map fun text => Str.trimChars (beforeColon text) with
  | some host => if host = [] then interceptedHost else host
  | none => interceptedHost

/-- The mode that is configured for the provider of a host, if there is one. -/
def providerMode (state : AppState) (host pathAndQuery : Text) : Option RouteMode :=
  (state.providerIdForUrl host pathAndQuery).bind fun id =>
    (state.proxyProviderModes.get id).map ProxyProviderMode.asRouteMode

def defaultProxyProviderMode (state : AppState) (headers : HeaderMap)
    (interceptedHost pathAndQuery : Text) : Option RouteMode :=
  providerMode state (modeHost headers interceptedHost) pathAndQuery

def resolveMode (state : AppState) : Option Text → Except Text RouteMode
  | some raw => parseRouteMode raw
  | none => .ok state.defaultMode

def resolveProxyRouteMode (state : AppState) (headers : HeaderMap)
    (interceptedHost pathAndQuery : Text) : Except Text RouteMode :=
  resolveMode state
    (((headers.get MODE_HEADER).bind HeaderValue.toStr).or
      ((defaultProxyProviderMode state headers interceptedHost pathAndQuery).map RouteMode.text))

/-! ## The destination -/

/-- `rsplit_once(':')`. -/
def rsplitColon (text : Text) : Option (Text × Text) :=
  (Ascii.splitOnce ':' text.reverse).map fun parts => (parts.2.reverse, parts.1.reverse)

/-- `parse::<u16>()`. -/
def parsePort (text : Text) : Option Nat :=
  (Ascii.u64FromStrRadix text 10).filter fun port => decide (port < 65536)

/-- `strip_prefix(':')`, parsed. -/
def portAfter : Text → Option Nat
  | ':' :: digits => parsePort digits
  | _ => none

/-- `split_host_port`, of a text without a bracket that closes. -/
def splitPlain (text : Text) : Text × Option Nat :=
  match rsplitColon text with
  | some (host, port) =>
    if host ≠ [] ∧ port.all Char.isDigit then (host, parsePort port) else (text, none)
  | none => (text, none)

def splitHostPort (value : Text) : Text × Option Nat :=
  match Str.trimChars value with
  | '[' :: rest =>
    match Ascii.splitOnce ']' rest with
    | some (inner, after) => ('[' :: inner ++ [']'], portAfter after)
    | none => splitPlain ('[' :: rest)
  | text => splitPlain text

/-- `normalize_authority`, of HTTPS: the default port is dropped. -/
def normalizePort (port : Option Nat) : Option Nat := port.filter fun p => p ≠ 443

def resolveHostWithPort (connection : Connection) (authority : Option (Text × Option Nat))
    (headers : HeaderMap) : Text × Option Nat :=
  let (host, port) :=
    match authority with
    | some authority => authority
    | none =>
      match hostHeader headers with
      | some text => splitHostPort text
      | none => (connection.interceptedHost, some connection.interceptedPort)
  (host, normalizePort port)

/-! ## Authentication -/

def AUTHORIZATION : String := "authorization"

def X_API_KEY : String := "x-api-key"

def bearerToken (headers : HeaderMap) : Option Text :=
  ((headers.get AUTHORIZATION).bind HeaderValue.toStr).bind fun value =>
    match (Str.trimChars value).span fun c => !Str.isWhitespace c with
    | (scheme, _ :: token) =>
      if eqIgnoreAsciiCase scheme "bearer".toList ∧ Str.trimChars token ≠ [] then
        some (Str.trimChars token)
      else none
    | (_, []) => none

def apiKeyHeader (headers : HeaderMap) : Option Text :=
  (((headers.get X_API_KEY).bind HeaderValue.toStr).map Str.trimChars).filter fun token =>
    decide (token ≠ [])

/-- `authenticate_managed_request`: the access of the client, and the headers that are left. -/
def authenticateManaged (env : Access.Env) (state : AppState) (headers : HeaderMap) :
    Except Access.AuthenticationError (AccessContext × HeaderMap) :=
  let token := ((bearerToken headers).or (apiKeyHeader headers)).map String.ofList
  match Access.authenticate env token state.access with
  | .ok access => .ok (access, (headers.remove AUTHORIZATION).remove X_API_KEY)
  | .error error => .error error

def shouldAuthenticate (state : AppState) (mode : RouteMode) : Bool :=
  state.apiKeyEnabled && mode ≠ .passthrough

/-! ## Routing -/

inductive ProxyPipelineMode where
  | passthrough
  | switch
  deriving DecidableEq

/-- What is handed to a proxy pipeline. -/
structure Forward where
  url : Url
  method : String
  headers : HeaderMap
  providerId : String
  accountId : Option String
  injectAuth : Bool
  allowedProviders : Option (List String)

inductive Outcome where
  | websocket
  | badRequest
  | unauthorized (error : Access.AuthenticationError)
  | sent (mode : ProxyPipelineMode) (forward : Forward)
  | managed (pathAndQuery : Text) (headers : HeaderMap) (access : Option AccessContext)
  | notImplemented (path host : Text)

def isWebsocketUpgrade (headers : HeaderMap) : Bool :=
  let connection := ((headers.get "connection").bind HeaderValue.toStr).map fun value =>
    (value.splitOn ',').any fun part => eqIgnoreAsciiCase (Str.trimChars part) "upgrade".toList
  let upgrade := ((headers.get "upgrade").bind HeaderValue.toStr).map fun value =>
    eqIgnoreAsciiCase (Str.trimChars value) "websocket".toList
  connection.getD false && upgrade.getD false

/-- `headers.insert`: the value takes the place of all others. -/
def insertHeader (headers : HeaderMap) (name : String) (value : HeaderValue) : HeaderMap :=
  headers.remove name ++ [(name, value)]

def allowedProviders (access : Option AccessContext) : Option (List String) :=
  access.bind fun access =>
    match access.providers with
    | .all => none
    | .only providers => some providers.sort

def authorityText (host : Text) : Option Nat → Text
  | none => host
  | some port => host ++ ':' :: Nat.toDigits 10 port

/-- `proxy_via_pipeline_inner`, up to the pipeline. -/
def proxyViaPipeline (state : AppState) (connection : Connection) (request : InnerRequest)
    (headers : HeaderMap) (access : Option AccessContext) (mode : ProxyPipelineMode) : Outcome :=
  let (host, port) := resolveHostWithPort connection request.authority headers
  let headers := insertHeader headers HOST (.ofText (String.ofList (authorityText host port)))
  let url : Url := ⟨"https", host, port, request.pathAndQuery⟩
  match mode with
  | .passthrough =>
    let identity :=
      state.identify headers (if state.isDefaultInterceptHost host port then some url else none)
    .sent .passthrough {
      url := url
      method := request.method
      headers := headers
      providerId := identity.2.getD (String.ofList connection.interceptedHost)
      accountId := identity.1
      injectAuth := false
      allowedProviders := none }
  | .switch =>
    match state.providerIdForUrl host request.pathAndQuery with
    | none => .badRequest
    | some providerId =>
      .sent .switch {
        url := url
        method := request.method
        headers := headers
        providerId := providerId
        accountId := none
        injectAuth := true
        allowedProviders := allowedProviders access }

/-- The CONNECT can ask for a mode, for requests that do not. -/
def withRouteMode (connection : Connection) (headers : HeaderMap) : HeaderMap :=
  match connection.proxyRouteMode with
  | some mode => if headers.contains MODE_HEADER then headers else insertHeader headers MODE_HEADER mode
  | none => headers

/-- The authentication of a mode: the access, and the headers that are left. -/
def admitRequest (env : Access.Env) (state : AppState) (headers : HeaderMap) (mode : RouteMode) :
    Except Access.AuthenticationError (Option AccessContext × HeaderMap) :=
  if shouldAuthenticate state mode then
    (authenticateManaged env state headers).map fun r => (some r.1, r.2)
  else .ok (none, headers)

/-- What is done with an admitted request; `host` is its bare host. -/
def dispatch (state : AppState) (connection : Connection) (request : InnerRequest) (host : Text)
    (mode : RouteMode) (access : Option AccessContext) (headers : HeaderMap) : Outcome :=
  match mode with
  | .passthrough => proxyViaPipeline state connection request headers access .passthrough
  | .switch => proxyViaPipeline state connection request headers access .switch
  | _ =>
    match state.rewriteTarget host request.path request.method with
    | some path =>
      .managed (path ++ request.pathAndQuery.drop request.path.length)
        (insertHeader headers HOST (.ofText (String.ofList host)) ++
          [("x-tokn-router-local-addr", .ofText connection.localAddr)]) access
    | none => .notImplemented request.path host

def routeInterceptedRequest (env : Access.Env) (state : AppState) (connection : Connection)
    (request : InnerRequest) : Outcome :=
  if isWebsocketUpgrade request.headers then .websocket
  else
    let headers := withRouteMode connection request.headers
    let host := bareHost connection headers
    match resolveProxyRouteMode state headers host request.pathAndQuery with
    | .error _ => .badRequest
    | .ok mode =>
      match admitRequest env state headers mode with
      | .error error => .unauthorized error
      | .ok (access, headers) => dispatch state connection request host mode access headers

end Tokn.Router.LegacyProxy
