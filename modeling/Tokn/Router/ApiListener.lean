import Tokn.Access.Keys
import Tokn.Lib.HeaderMap
import Tokn.Lib.Machine
import Tokn.Router.HexCase
import Tokn.Router.Reload

/-!
# The listener for API clients

`crates/router/src/v2/mounts.rs` and the middleware and handler of `crates/router/src/v2/mod.rs`. A
request passes the middleware `authenticate`, which puts the state of the running generation and the
access of the client into the extensions of the request, and then `dispatch`, which takes both from
there. A reload can replace the generation in between.

Reading and decoding the body is a parameter: it looks at the headers and does not change them.
-/

namespace Tokn.Router.Api

open Tokn.Access (AccessContext AccessDb AuthenticationError ProviderAccess)
open Tokn.Convert (Endpoint)
open Tokn.Policy

/-! ## Mounts -/

inductive ApiOperation where
  | generate (endpoint : Endpoint)
  | models
  | providers
  deriving DecidableEq

structure MountedEndpoint where
  profile : String
  operation : ApiOperation
  enabled : Bool
  deriving DecidableEq

/-- The mounted paths. -/
abbrev ApiMounts := BTreeMap Text MountedEndpoint

def ApiMounts.get (mounts : ApiMounts) (path : Text) : Option MountedEndpoint :=
  BTreeMap.get mounts (canonicalPath path)

/-! ## States -/

inductive RouteKind where
  | managed
  | relay
  deriving DecidableEq

inductive CredentialPolicy where
  | account
  | client
  deriving DecidableEq

/-- What an operation URL is taken apart into. -/
structure UrlDestination where
  scheme : String
  authority : String
  path : String
  deriving DecidableEq

/-- Where a relay profile sends to; the URL of an operation may not be there. -/
structure ProviderDestination where
  providerId : String
  operationUrl : Endpoint → Except String UrlDestination

structure ProfileRuntime where
  hasApiService : Bool
  routeKind : RouteKind
  credentialPolicy : CredentialPolicy
  agentId : Option String
  apiDestination : Option ProviderDestination

/-- The state of a listener in one generation. `access` names its access store. -/
structure AppState (Addr : Type) extends Router.AppState Addr where
  profiles : BTreeMap String ProfileRuntime
  mounts : ApiMounts
  access : String

inductive ApiError where
  | notFound (message : String)
  | unauthorized (message : String)
  | badRequest (message : String)
  | payloadTooLarge (message : String)
  | methodNotAllowed (allow : String)
  | internal (message : String)
  deriving DecidableEq

def pathNotExposed : ApiError := .notFound "API path is not exposed"

def endpointDisabled : ApiError := .notFound "generation endpoint is disabled for this profile"

variable {Addr : Type}

def AppState.selectProfile (state : AppState Addr) (path : Text) (endpoint : Endpoint) :
    Except ApiError ProfileRuntime :=
  match state.mounts.get path with
  | none => .error pathNotExposed
  | some entry =>
    if entry.enabled = false ∨ entry.operation ≠ .generate endpoint then .error endpointDisabled
    else
      match state.profiles.get entry.profile with
      | none => .error (.internal "API mount references a missing profile")
      | some runtime => .ok runtime

/-! ## Requests -/

/-- A request; `β` is the type of unread bodies. -/
structure Request (β : Type) where
  method : String
  path : Text
  query : Option Text
  headers : HeaderMap
  body : β

/-- A request with the extensions that the middleware has put in. -/
structure Admitted (Addr β : Type) where
  request : Request β
  state : AppState Addr
  access : AccessContext

/-! ## The middleware -/

def AUTHORIZATION : String := "authorization"

def X_API_KEY : String := "x-api-key"

/-- `split_once(char::is_whitespace)`. -/
def splitWhitespace (text : List Char) : Option (List Char × List Char) :=
  match text.span (fun c => !Str.isWhitespace c) with
  | (scheme, _ :: token) => some (scheme, token)
  | (_, []) => none

/-- The token of a bearer authorization, unless it is empty. -/
def bearerToken (value : HeaderValue) : Option (List Char) :=
  (value.toStr.bind splitWhitespace).bind fun (scheme, token) =>
    if eqIgnoreAsciiCase scheme "bearer".toList ∧ Str.trimChars token ≠ [] then
      some (Str.trimChars token)
    else none

/-- The token that a client presents. -/
def presentedToken (headers : HeaderMap) : Option String :=
  (((headers.get AUTHORIZATION).bind bearerToken).or
    ((headers.get X_API_KEY).bind HeaderValue.toStr)).map String.ofList

def AccessContext.unrestricted : AccessContext := ⟨none, none, .all⟩

/-- What the listener asks of its clients. -/
def clientContext (env : Access.Env) (clientAuth : ClientAuthPlan) (db : AccessDb)
    (headers : HeaderMap) : Except AuthenticationError AccessContext :=
  match clientAuth with
  | .none => .ok AccessContext.unrestricted
  | .localKeys => Access.authenticate env (presentedToken headers) db

/-- `authenticate`, up to `next.run`. `db` is what the access store of the state holds. -/
def authenticate {β : Type} (env : Access.Env) (state : AppState Addr) (db : AccessDb)
    (request : Request β) : Except ApiError (Admitted Addr β) :=
  match state.mounts.get request.path with
  | none => .error pathNotExposed
  | some entry =>
    if entry.enabled = false then .error endpointDisabled
    else
      let selected :=
        match entry.operation with
        | .generate endpoint => (state.selectProfile request.path endpoint).toOption
        | _ => none
      if (selected.map (·.credentialPolicy)) = some .client then
        .ok ⟨request, state, AccessContext.unrestricted⟩
      else
        match clientContext env state.listener.clientAuth db request.headers with
        | .ok context =>
          let headers :=
            if state.listener.clientAuth = .localKeys then
              (request.headers.remove AUTHORIZATION).remove X_API_KEY
            else request.headers
          .ok ⟨{ request with headers := headers }, state, context⟩
        | .error error => .error (.unauthorized (Access.authenticationMessage error))

/-! ## The handler -/

inductive BodyError where
  | lengthLimit
  | other
  deriving DecidableEq

/-- A body in its three forms; an opaque one has no JSON value. -/
structure Bodies (ι : Type) where
  rawBody : ByteArray
  decodedBody : ByteArray
  bodyJson : Option ι

/-- How bodies are read and decoded; `ι` is the type of JSON values. -/
structure Codec (β ι : Type) where
  toBytes : β → Nat → Except BodyError ByteArray
  decodeJsonRequest : HeaderMap → ByteArray → Nat → Except ApiError (Bodies ι)
  applyEndpointCompatDefaults : Endpoint → HeaderMap → Bodies ι → Except ApiError (Bodies ι)
  decodeOpaqueBody : HeaderMap → ByteArray → Nat → Except ApiError ByteArray

/-- What `RunConfig` tells the pipeline. -/
structure RunConfig where
  agentId : Option String
  providerId : Option String
  destination : Option UrlDestination
  allowedProviders : Option (List String)
  deriving DecidableEq

/-- What is handed to the generation pipeline of a profile. -/
structure Execution (ι : Type) where
  runtime : ProfileRuntime
  endpoint : Endpoint
  headers : HeaderMap
  bodies : Bodies ι
  requestId : Option (List Char)
  config : RunConfig
  method : String
  path : Text
  query : Option Text

def providerIds : ProviderAccess → Option (List String)
  | .all => none
  | .only providers => some providers.sort

def REQUEST_ID_HEADER : String := "x-request-id"

def requestId (headers : HeaderMap) : Option (List Char) :=
  (headers.get REQUEST_ID_HEADER).bind HeaderValue.toStr

section

variable {β ι : Type} (codec : Codec β ι)

def prepareBodies (state : AppState Addr) (runtime : ProfileRuntime) (endpoint : Endpoint)
    (headers : HeaderMap) (body : ByteArray) : Except ApiError (Bodies ι) :=
  match runtime.routeKind with
  | .managed => do
    let decoded ← codec.decodeJsonRequest headers body state.requestLimits.maxDecodedBytes
    codec.applyEndpointCompatDefaults endpoint headers decoded
  | .relay => do
    let decoded ← codec.decodeOpaqueBody headers body state.requestLimits.maxDecodedBytes
    return ⟨body, decoded, none⟩

def operationConfig (runtime : ProfileRuntime) (endpoint : Endpoint) (access : AccessContext) :
    Except ApiError RunConfig :=
  match runtime.apiDestination with
  | none => .ok ⟨runtime.agentId, none, none, providerIds access.providers⟩
  | some destination =>
    match destination.operationUrl endpoint with
    | .error error =>
      .error (.internal
        ("resolve operation URL for provider '" ++ destination.providerId ++ "': " ++ error))
    | .ok url =>
      .ok ⟨runtime.agentId, some destination.providerId, some url, providerIds access.providers⟩

/-- `handle`, up to the pipeline. -/
def handle (state : AppState Addr) (access : AccessContext) (request : Request β)
    (body : ByteArray) (endpoint : Endpoint) : Except ApiError (Execution ι) := do
  let runtime ← state.selectProfile request.path endpoint
  Except.rejectIf ((requestId request.headers).isNone)
    (.internal "request id missing after transport admission")
  let bodies ← prepareBodies codec state runtime endpoint request.headers body
  let config ← operationConfig runtime endpoint access
  Except.rejectIf (!runtime.hasApiService)
    (.internal "selected profile cannot run on an LLM API listener")
  return {
    runtime := runtime
    endpoint := endpoint
    headers := request.headers
    bodies := bodies
    requestId := requestId request.headers
    config := config
    method := request.method
    path := request.path
    query := request.query }

/-- What a request reaches. -/
inductive Target (ι : Type) where
  | generate (execution : Execution ι)
  | models (profile : String) (access : AccessContext)
  | providers (profile : String) (access : AccessContext)

def readBody (state : AppState Addr) (body : β) : Except ApiError ByteArray :=
  match codec.toBytes body state.requestLimits.maxWireBytes with
  | .ok bytes => .ok bytes
  | .error .lengthLimit => .error (.payloadTooLarge "request body exceeds the configured limit")
  | .error .other => .error (.badRequest "could not read request body")

/-- The method that an operation expects, with the `Allow` header of a refusal. -/
def expectedMethod : ApiOperation → String × String
  | .generate _ => ("POST", "POST")
  | _ => ("GET", "GET, HEAD")

def dispatch (admitted : Admitted Addr β) : Except ApiError (Target ι) :=
  match admitted.state.mounts.get admitted.request.path with
  | none => .error pathNotExposed
  | some entry => do
    Except.rejectIf (!entry.enabled) endpointDisabled
    let (expected, allow) := expectedMethod entry.operation
    Except.rejectIf
      (admitted.request.method ≠ expected ∧ ¬ (expected = "GET" ∧ admitted.request.method = "HEAD"))
      (.methodNotAllowed allow)
    match entry.operation with
    | .generate endpoint => do
      let body ← readBody codec admitted.state admitted.request.body
      let execution ← handle codec admitted.state admitted.access admitted.request body endpoint
      return .generate execution
    | .models => return .models entry.profile admitted.access
    | .providers => return .providers entry.profile admitted.access

/-! ## Runs -/

/-- A live listener: the state of the running generation, what the access stores hold, the requests
between the middleware and the handler, and what was reached so far. -/
structure Live (Addr β ι : Type) where
  current : AppState Addr
  databases : String → AccessDb
  waiting : List (Admitted Addr β)
  reached : List (Target ι)

/-- A reload replaces the state, if it is compatible. Keys are created and revoked. A request comes
in, and a waiting one is dispatched, in any order. -/
inductive Action (Addr β : Type) where
  | reload (replacement : AppState Addr)
  | write (access : String) (db : AccessDb)
  | receive (request : Request β)
  | dispatch (index : Nat)

/-- `ensure_reload_compatible`, of this listener. -/
def compatible [DecidableEq Addr] (current replacement : AppState Addr) : Bool :=
  (ensureApi [(current.listenerId, replacement.toAppState)]
    (current.listenerId, current.toAppState)).isOk

def step [DecidableEq Addr] (env : Access.Env) (live : Live Addr β ι) :
    Action Addr β → Option (Live Addr β ι)
  | .reload replacement =>
    if compatible live.current replacement then some { live with current := replacement } else none
  | .write access db => some { live with databases := Function.update live.databases access db }
  | .receive request =>
    match authenticate env live.current (live.databases live.current.access) request with
    | .ok admitted => some { live with waiting := live.waiting ++ [admitted] }
    | .error _ => some live
  | .dispatch index =>
    match live.waiting[index]? with
    | none => none
    | some admitted =>
      match dispatch codec admitted with
      | .ok target =>
        some { live with
          waiting := live.waiting.eraseIdx index
          reached := live.reached ++ [target] }
      | .error _ => some { live with waiting := live.waiting.eraseIdx index }

end

end Tokn.Router.Api
