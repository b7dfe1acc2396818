import Tokn.Lib.BTreeMap
import Tokn.Providers.Credentials
import Tokn.Requests.SendErrors

/-!
# The send stage of a relay

`crates/requests/src/stages/send/proxy.rs`, up to the request that is handed to the client. Where it
goes is read from the `RunConfig` of the run. With `proxy.inject_auth`, the provider of the selected
account patches its credential into the headers, with a context that has no token.
-/

namespace Tokn.Requests

open Tokn.Convert (Endpoint)
open Tokn.Headers (HeaderName)
open Tokn.Providers (AgentId CopilotHeaders HeaderPatchCtx Provider ProviderError RequestKind
  TemplateVars getKey)
open Tokn.Providers.Keys

/-! ## Run configurations -/

def HOST_KEY : String := "proxy.host"
def PROVIDER_ID_KEY : String := "proxy.provider_id"
def METHOD_KEY : String := "proxy.method"
def PATH_KEY : String := "proxy.path"
def SCHEME_KEY : String := "proxy.scheme"
def INJECT_AUTH_KEY : String := "proxy.inject_auth"
def RUN_UPSTREAM_ENDPOINT_KEY : String := "run.upstream_endpoint"
def ACCESS_ALLOWED_PROVIDERS_KEY : String := "access.allowed_providers"

/-- The bag of a `RunConfig`. -/
abbrev RunConfig := BTreeMap String Value

namespace RunConfig

def getStr (cfg : RunConfig) (key : String) : Option String := (cfg.get key).bind Value.asStr

def withStr (cfg : RunConfig) (key value : String) : RunConfig := cfg.insert key (.string value)

theorem getStr_withStr_self (cfg : RunConfig) (key value : String) :
    (cfg.withStr key value).getStr key = some value := by
  simp [getStr, withStr, Value.asStr]

theorem get_withStr_of_ne {key k : String} (h : k ≠ key) (cfg : RunConfig) (value : String) :
    (cfg.withStr key value).get k = cfg.get k := BTreeMap.get_insert_of_ne cfg h _

theorem getStr_insert_of_ne {key k : String} (h : k ≠ key) (cfg : RunConfig) (value : Value) :
    getStr (cfg.insert key value) k = cfg.getStr k := by
  rw [getStr, BTreeMap.get_insert_of_ne cfg h, getStr]

theorem getStr_withStr_of_ne {key k : String} (h : k ≠ key) (cfg : RunConfig) (value : String) :
    (cfg.withStr key value).getStr k = cfg.getStr k := getStr_insert_of_ne h cfg _

end RunConfig

/-- `Method`: a token. -/
def Method : Type := { method : String // CopilotHeaders.isToken method = true }

def Method.fromBytes (method : String) : Option Method :=
  if h : CopilotHeaders.isToken method = true then some ⟨method, h⟩ else none

@[simp] theorem Method.fromBytes_val (method : Method) : fromBytes method.val = some method :=
  dif_pos method.property

/-! ## Routes -/

inductive ResolvedRoute where
  | operation (resolvedEndpoint upstreamEndpoint : Endpoint)
  | providerTraffic (requestKind : RequestKind)
  deriving DecidableEq

def parseEndpoint : String → Option Endpoint
  | "chat_completions" => some .chatCompletions
  | "chat" => some .chatCompletions
  | "chat-completions" => some .chatCompletions
  | "responses" => some .responses
  | "messages" => some .messages
  | _ => none

/-- The errors of the stage before there is a response. -/
inductive RelayError where
  | invalidConfiguredEndpoint (key value : String)
  | missingConfig (key : String)
  | invalidMethod (method : String)
  | provider (source : ProviderError)
  deriving DecidableEq

def configuredUpstreamEndpoint (cfg : RunConfig) : Except RelayError (Option Endpoint) :=
  match cfg.getStr RUN_UPSTREAM_ENDPOINT_KEY with
  | some value =>
    match parseEndpoint value with
    | some endpoint => .ok (some endpoint)
    | none => .error (.invalidConfiguredEndpoint RUN_UPSTREAM_ENDPOINT_KEY value)
  | none => .ok none

def ResolvedRoute.upstreamEndpoint : ResolvedRoute → Option Endpoint
  | .operation _ upstreamEndpoint => some upstreamEndpoint
  | .providerTraffic _ => none

def resolvedUpstreamEndpoint (cfg : RunConfig) (route : ResolvedRoute) :
    Except RelayError (Option Endpoint) := do
  return (← configuredUpstreamEndpoint cfg).or route.upstreamEndpoint

def providerRequestKind (cfg : RunConfig) : ResolvedRoute → Except RelayError RequestKind
  | .operation _ upstreamEndpoint => do
    return .operation ((← configuredUpstreamEndpoint cfg).getD upstreamEndpoint)
  | .providerTraffic requestKind => .ok requestKind

/-! ## Errors as texts -/

/-- `Display`, without the texts of further causes, which no patch has. -/
def displayProviderError : ProviderError → String
  | .missingCredential account what =>
    "account '" ++ account ++ "' missing required credential: " ++ what
  | .providerMismatch expected got =>
    "provider mismatch: " ++ expected ++ " expected, got '" ++ got ++ "'"
  | .headerName name => "invalid HTTP header name '" ++ name ++ "'"
  | .json what body => what ++ ": failed to parse JSON: " ++ body
  | .http what => what ++ ": HTTP request failed"
  | .profiles message => "profiles: " ++ message
  | .panic message => message

def RelayError.display : RelayError → String
  | invalidConfiguredEndpoint key value => "invalid `" ++ key ++ "` endpoint `" ++ value ++ "`"
  | missingConfig key => "proxy passthrough pipeline requires `" ++ key ++ "` in RunConfig"
  | invalidMethod method => "invalid proxy method `" ++ method ++ "`: invalid HTTP method"
  | provider source => displayProviderError source

/-- All of them are permanent. -/
def RelayError.toSendError (e : RelayError) : SendError where
  inner := .undispatched e.display
  recoverable := false

/-! ## The stage -/

/-- What the stage reads of `Extracted`. -/
structure Extracted where
  stream : Bool
  initiator : Option String

structure BuiltHeaders where
  headers : Headers.HeaderMap
  vars : TemplateVars
  agentId : AgentId

/-- What the stage reads of `ConvertedRequest`. -/
structure ConvertedRequest where
  upstreamWireBody : Bytes
  contentEncoding : Option String

/-- The request that is recorded as `UpstreamReq` and handed to the client, which is told the host
apart from the other headers. -/
structure UpstreamReq where
  method : Method
  url : String
  host : String
  headers : Headers.HeaderMap
  body : Bytes

/-- What the stages before this one have made of a request, and the provider of the account that has
been selected. -/
structure Relayed where
  route : ResolvedRoute
  provider : Provider
  extracted : Extracted
  headers : BuiltHeaders
  body : ConvertedRequest

namespace ProxySend

/-- The context of a patch. -/
def patchCtx (requestKind : RequestKind) (relayed : Relayed) : HeaderPatchCtx where
  requestKind := requestKind
  bearerToken := none
  contentEncoding := relayed.body.contentEncoding
  stream := relayed.extracted.stream
  initiator := relayed.extracted.initiator.getD "user"
  vars := relayed.headers.vars
  agentId := relayed.headers.agentId

/-- The outbound headers, which are patched if the credential is to be injected. -/
def outboundHeaders (routerUserAgent : String) (cfg : RunConfig) (relayed : Relayed) :
    Except RelayError Headers.HeaderMap :=
  if ((cfg.get INJECT_AUTH_KEY).bind Value.asBool).getD false then do
    let requestKind ← providerRequestKind cfg relayed.route
    (relayed.provider.patchHeaders routerUserAgent relayed.headers.headers
      (patchCtx requestKind relayed)).mapError .provider
  else .ok relayed.headers.headers

/-- `send`, up to the request that is handed to the client. -/
def dispatch (routerUserAgent : String) (cfg : RunConfig) (relayed : Relayed) :
    Except RelayError UpstreamReq := do
  let _ ← resolvedUpstreamEndpoint cfg relayed.route
  let host ← ((cfg.getStr HOST_KEY).elim (.error (.missingConfig HOST_KEY)) .ok)
  let path := (cfg.getStr PATH_KEY).getD "/"
  let methodStr := (cfg.getStr METHOD_KEY).getD "POST"
  let method ← (Method.fromBytes methodStr).elim (.error (.invalidMethod methodStr)) .ok
  let scheme := (cfg.getStr SCHEME_KEY).getD "https"
  let headers ← outboundHeaders routerUserAgent cfg relayed
  -- The host of the intercepted request is set apart, so that it is sent once.
  return {
    method := method
    url := scheme ++ "://" ++ host ++ path
    host := host
    headers := (headers.remove HOST.lower).1
    body := relayed.body.upstreamWireBody }

/-- `send`, with the response that the client has for a request. -/
def execute (http : UpstreamReq → Except SendError Response) (forwardServerErrors : Bool)
    (routerUserAgent : String) (cfg : RunConfig) (relayed : Relayed) :
    Option UpstreamReq × List RecordEvent × SendOutcome :=
  match dispatch routerUserAgent cfg relayed with
  | .error e => (none, [], .failed e.toSendError)
  | .ok request => (some request, send forwardServerErrors (http request))

end ProxySend

/-! ## Relays with the credential of an account -/

/-- A configuration that says where to send a request, and that the credential is to be injected. -/
structure InjectsAuth (cfg : RunConfig) (host path scheme : String) (method : Method) : Prop where
  host : cfg.getStr HOST_KEY = some host
  path : cfg.getStr PATH_KEY = some path
  scheme : cfg.getStr SCHEME_KEY = some scheme
  method : cfg.getStr METHOD_KEY = some method.val
  injectAuth : cfg.get INJECT_AUTH_KEY = some (.bool true)
  endpoint : cfg.get RUN_UPSTREAM_ENDPOINT_KEY = none

namespace InjectsAuth

variable {cfg : RunConfig} {host path scheme : String} {method : Method}

theorem configuredUpstreamEndpoint_eq (h : InjectsAuth cfg host path scheme method) :
    configuredUpstreamEndpoint cfg = .ok none := by
  simp [configuredUpstreamEndpoint, RunConfig.getStr, h.endpoint]

/-- The kind of the request is that of the route. -/
theorem exists_providerRequestKind (h : InjectsAuth cfg host path scheme method)
    (route : ResolvedRoute) : ∃ requestKind, providerRequestKind cfg route = .ok requestKind := by
  cases route with
  | operation resolvedEndpoint upstreamEndpoint =>
    refine ⟨.operation upstreamEndpoint, ?_⟩
    rw [providerRequestKind, h.configuredUpstreamEndpoint_eq]
    rfl
  | providerTraffic requestKind => exact ⟨requestKind, rfl⟩

/-- The headers are those of a patch without a token. -/
theorem exists_outboundHeaders (h : InjectsAuth cfg host path scheme method)
    (routerUserAgent : String) (relayed : Relayed) :
    ∃ ctx : HeaderPatchCtx, ctx.bearerToken = none ∧
      ProxySend.outboundHeaders routerUserAgent cfg relayed =
        (relayed.provider.patchHeaders routerUserAgent relayed.headers.headers ctx).mapError
          .provider := by
  obtain ⟨requestKind, hkind⟩ := h.exists_providerRequestKind relayed.route
  refine ⟨ProxySend.patchCtx requestKind relayed, rfl, ?_⟩
  rw [ProxySend.outboundHeaders, h.injectAuth, hkind]
  rfl

/-- Nothing but the headers can fail. -/
theorem dispatch_eq (h : InjectsAuth cfg host path scheme method) (routerUserAgent : String)
    (relayed : Relayed) :
    ProxySend.dispatch routerUserAgent cfg relayed =
      (ProxySend.outboundHeaders routerUserAgent cfg relayed).map fun headers =>
        { method := method
          url := scheme ++ "://" ++ host ++ path
          host := host
          headers := (headers.remove HOST.lower).1
          body := relayed.body.upstreamWireBody } := by
  rw [ProxySend.dispatch, resolvedUpstreamEndpoint, h.configuredUpstreamEndpoint_eq, h.host, h.path,
    h.scheme, h.method]
  simp only [Option.getD_some, Method.fromBytes_val]
  cases ProxySend.outboundHeaders routerUserAgent cfg relayed <;> rfl

end InjectsAuth

/-- Without the host, a credential is still there. -/
theorem carries_remove_host {headers : Headers.HeaderMap} {credential : String}
    (h : Providers.Carries headers credential) :
    Providers.Carries (headers.remove HOST.lower).1 credential := by
  have hbearer : getKey (headers.remove HOST.lower).1 AUTHORIZATION = getKey headers AUTHORIZATION :=
    Headers.HeaderMap.get_remove_of_ne (by decide +kernel) headers
  have hkey : getKey (headers.remove HOST.lower).1 X_API_KEY = getKey headers X_API_KEY :=
    Headers.HeaderMap.get_remove_of_ne (by decide +kernel) headers
  rw [Providers.Carries, hbearer, hkey]
  exact h

namespace InjectsAuth

variable {cfg : RunConfig} {host path scheme : String} {method : Method}

/-- A driver that holds its key has it sent. -/
theorem exists_dispatch_of_static (h : InjectsAuth cfg host path scheme method)
    (routerUserAgent : String) {relayed : Relayed}
    (hstatic : relayed.provider.driver ≠ .githubCopilot) :
    ∃ request, ProxySend.dispatch routerUserAgent cfg relayed = .ok request ∧
      request.url = scheme ++ "://" ++ host ++ path ∧
      ∀ apiToken credential, relayed.provider.credential apiToken = .ok (some credential) →
        Providers.Carries request.headers credential := by
  obtain ⟨ctx, -, hheaders⟩ := h.exists_outboundHeaders routerUserAgent relayed
  obtain ⟨headers, hpatch, hcarries⟩ := Providers.exists_patch_of_static routerUserAgent
    relayed.headers.headers ctx hstatic
  refine ⟨_, by rw [h.dispatch_eq, hheaders, hpatch]; rfl, rfl, ?_⟩
  intro apiToken credential hcredential
  exact carries_remove_host (hcarries apiToken credential hcredential)

/-- `CopilotProvider` has nothing to send. -/
theorem dispatch_githubCopilot (h : InjectsAuth cfg host path scheme method)
    (routerUserAgent : String) {relayed : Relayed}
    (hcopilot : relayed.provider.driver = .githubCopilot) :
    ProxySend.dispatch routerUserAgent cfg relayed =
      .error (.provider (.profiles "missing copilot bearer token for header patch")) := by
  obtain ⟨refreshToken, settings, hprovider⟩ := Provider.eq_of_driver_githubCopilot hcopilot
  obtain ⟨ctx, htoken, hheaders⟩ := h.exists_outboundHeaders routerUserAgent relayed
  rw [h.dispatch_eq, hheaders, hprovider, Providers.patchHeaders_githubCopilot_none _ _ htoken]
  rfl

end InjectsAuth

end Tokn.Requests
