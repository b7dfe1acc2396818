import Tokn.Convert.Ir
import Tokn.Headers.Map
import Tokn.Lib.JsonText

/-!
# The credentials of the drivers

What a driver checks of an account, what it keeps of it, and what it does to the headers of a
request: `inject_credentials` and then `normalize_headers`, by `patch_headers`. Most drivers inject a
key that they hold. `CopilotProvider` holds a refresh token, and injects the token of the context,
which its own requests have obtained before.
-/

namespace Tokn.Providers

open Tokn.Convert (Endpoint)
open Tokn.Headers (HeaderName)

/-! ## Header names -/

namespace Keys

def AUTHORIZATION : HeaderName := .new "Authorization"
def CONTENT_TYPE : HeaderName := .new "Content-Type"
def CONTENT_ENCODING : HeaderName := .new "Content-Encoding"
def ACCEPT : HeaderName := .new "Accept"
def USER_AGENT : HeaderName := .new "User-Agent"
def HOST : HeaderName := .new "Host"
def EDITOR_VERSION : HeaderName := .new "Editor-Version"
def EDITOR_PLUGIN_VERSION : HeaderName := .new "Editor-Plugin-Version"
def COPILOT_INTEGRATION_ID : HeaderName := .new "Copilot-Integration-Id"
def OPENAI_INTENT : HeaderName := .new "OpenAI-Intent"
def OPENAI_BETA : HeaderName := .new "OpenAI-Beta"
def CHATGPT_ACCOUNT_ID : HeaderName := .new "chatgpt-account-id"
def ANTHROPIC_VERSION : HeaderName := .new "Anthropic-Version"
def X_API_KEY : HeaderName := .new "X-Api-Key"
def X_SESSION_AFFINITY : HeaderName := .new "X-Session-Affinity"
def X_REQUEST_ID : HeaderName := .new "X-Request-Id"
def X_INITIATOR : HeaderName := .new "X-Initiator"
def X_OPENCODE_SESSION : HeaderName := .new "X-OpenCode-Session"
def ORIGINATOR : HeaderName := .new "originator"
def VERSION : HeaderName := .new "version"
def SESSION_ID_LOWER : HeaderName := .new "session_id"
def X_CODEX_TURN_METADATA : HeaderName := .new "x-codex-turn-metadata"
def X_CODEX_RESPONSES_LITE : HeaderName := .new "x-openai-internal-codex-responses-lite"

end Keys

open Keys

/-- `get` of a name. -/
def getKey (headers : Headers.HeaderMap) (name : HeaderName) : Option String :=
  headers.get name.lower

/-! ## Accounts -/

/-- `AccountConfig`, as far as drivers read and write it. The settings are a table. -/
structure AccountConfig where
  id : String
  provider : String
  headers : BTreeMap String String := []
  apiKey : Option String := none
  accessToken : Option String := none
  accessTokenExpiresAt : Option Int := none
  idToken : Option String := none
  refreshToken : Option String := none
  providerAccountId : Option String := none
  lastRefresh : Option Int := none
  settings : BTreeMap String Value := []

/-- The errors of the modelled functions; `panic` is an `expect`. -/
inductive ProviderError where
  | missingCredential (account what : String)
  | providerMismatch (expected got : String)
  | headerName (name : String)
  | json (what body : String)
  | http (what : String)
  | profiles (message : String)
  | panic (message : String)
  deriving DecidableEq

def expect {α : Type} (value : Option α) (message : String) : Except ProviderError α :=
  match value with
  | some value => .ok value
  | none => .error (.panic message)

/-- `filter(|s| !s.trim().is_empty())`. -/
def nonBlank (value : Option String) : Option String := value.filter fun s => Str.trim s ≠ ""

/-! ## Account ids in tokens -/

structure IdTokenClaims where
  chatgptAccountId : Option String := none
  openaiAuth : Option (Option String) := none
  organizations : Option (List String) := none

def extractAccountId (claims : IdTokenClaims) : Option String :=
  ((nonBlank claims.chatgptAccountId).or (nonBlank (claims.openaiAuth.bind id))).or
    (nonBlank (claims.organizations.bind List.head?))

/-- `jwt::account_id`. -/
def jwtAccountId (parseJwtClaims : String → Option IdTokenClaims) (a : AccountConfig) :
    Option String :=
  (nonBlank a.providerAccountId).or
    (([a.idToken, a.accessToken].filterMap id).filterMap parseJwtClaims |>.findSome?
      extractAccountId)

/-! ## The settings of Copilot -/

inductive InitiatorMode where
  | auto
  | alwaysUser
  | alwaysAgent
  deriving DecidableEq

structure CopilotHeaders where
  editorVersion : String
  editorPluginVersion : String
  userAgent : String
  copilotIntegrationId : String
  openaiIntent : String
  initiatorMode : InitiatorMode
  extraHeaders : BTreeMap String String
  deriving DecidableEq

namespace CopilotHeaders

/-- A field with a default. -/
def stringField (settings : BTreeMap String Value) (key fallback : String) : Option String :=
  match settings.get key with
  | some value => value.asStr
  | none => some fallback

def initiatorModeField (settings : BTreeMap String Value) : Option InitiatorMode :=
  match settings.get "initiator_mode" with
  | some (.string "auto") => some .auto
  | some (.string "always_user") => some .alwaysUser
  | some (.string "always_agent") => some .alwaysAgent
  | some _ => none
  | none => some .auto

def extraHeadersField (settings : BTreeMap String Value) : Option (BTreeMap String String) :=
  match settings.get "extra_headers" with
  | some (.object fields) =>
    fields.mapM fun field => field.2.asStr.map fun value => (field.1, value)
  | some _ => none
  | none => some []

/-- `from_value`, of a table. -/
def fromValue (settings : BTreeMap String Value) : Except ProviderError CopilotHeaders :=
  let headers := do
    let editorVersion ← stringField settings "editor_version" "vscode/1.95.0"
    let editorPluginVersion ← stringField settings "editor_plugin_version" "copilot-chat/0.20.0"
    let userAgent ← stringField settings "user_agent" "GitHubCopilotChat/0.20.0"
    let copilotIntegrationId ← stringField settings "copilot_integration_id" "vscode-chat"
    let openaiIntent ← stringField settings "openai_intent" "conversation-panel"
    let initiatorMode ← initiatorModeField settings
    let extraHeaders ← extraHeadersField settings
    return ⟨editorVersion, editorPluginVersion, userAgent, copilotIntegrationId, openaiIntent,
      initiatorMode, extraHeaders⟩
  match headers with
  | some headers => .ok headers
  | none => .error (.json "copilot headers config" (Value.object settings).toText)

def isToken (s : String) : Bool :=
  s ≠ "" && s.toList.all fun c => c.isAlphanum || "!#$%&'*+-.^_`|~".toList.contains c

def validate (headers : CopilotHeaders) : Except ProviderError Unit :=
  match headers.extraHeaders.find? fun header => !isToken header.1 with
  | some header => .error (.headerName header.1)
  | none => .ok ()

/-- `headers_from_settings`. -/
def fromSettings (a : AccountConfig) : Except ProviderError CopilotHeaders := do
  let headers ← fromValue a.settings
  return { headers with extraHeaders := headers.extraHeaders.extend a.headers }

end CopilotHeaders

/-! ## Drivers -/

inductive Driver where
  | llamaCpp
  | codex
  | openAi
  | openCodeGo
  | deepSeek
  | zai
  | githubCopilot
  deriving DecidableEq

/-- What a provider keeps of its account. -/
inductive Provider where
  | llamaCpp (apiKey : Option String)
  | codex (credential : String) (providerAccountId : Option String)
  | openAi (credential : String)
  | openCodeGo (apiKey : String)
  | deepSeek (apiKey : String)
  | zai (apiKey : String)
  | githubCopilot (refreshToken : String) (headers : CopilotHeaders)
  deriving DecidableEq

def Provider.driver : Provider → Driver
  | .llamaCpp _ => .llamaCpp
  | .codex _ _ => .codex
  | .openAi _ => .openAi
  | .openCodeGo _ => .openCodeGo
  | .deepSeek _ => .deepSeek
  | .zai _ => .zai
  | .githubCopilot _ _ => .githubCopilot

/-- The provider ids that a driver is for, and what it says that it expects. -/
def requireProvider (ids : List String) (expected : String) (a : AccountConfig) :
    Except ProviderError Unit :=
  if a.provider ∈ ids then .ok () else .error (.providerMismatch expected a.provider)

/-- A credential that is there and not blank. -/
def requireCredential (credential : Option String) (what : String) (a : AccountConfig) :
    Except ProviderError Unit :=
  match nonBlank credential with
  | some _ => .ok ()
  | none => .error (.missingCredential a.id what)

/-- What a driver that has a static key checks. -/
def validateApiKey (id : String) (a : AccountConfig) : Except ProviderError Unit := do
  requireProvider [id] id a
  requireCredential a.apiKey "api_key" a

/-- `validate_account`. -/
def Driver.validate (a : AccountConfig) : Driver → Except ProviderError Unit
  | .llamaCpp => do
    requireProvider ["llama-cpp"] "llama-cpp" a
    if a.apiKey.isSome then requireCredential a.apiKey "api_key" a else return
  | .codex => do
    requireProvider ["codex"] "codex" a
    requireCredential (a.accessToken.or a.apiKey) "access_token" a
  | .openAi => validateApiKey "openai" a
  | .openCodeGo => validateApiKey "opencode-go" a
  | .deepSeek => validateApiKey "deepseek" a
  | .zai => do
    requireProvider ["zai-coding-plan", "zai", "zhipuai-coding-plan", "zhipuai"]
      "zai|zai-coding-plan|zhipuai|zhipuai-coding-plan" a
    requireCredential a.apiKey "api_key" a
  | .githubCopilot => do
    if a.refreshToken.isNone then throw (.missingCredential a.id "refresh_token")
    let headers ← CopilotHeaders.fromSettings a
    headers.validate

/-- `from_account_at`, at a target that has been parsed. -/
def Driver.fromAccount (parseJwtClaims : String → Option IdTokenClaims) (a : AccountConfig)
    (driver : Driver) : Except ProviderError Provider := do
  driver.validate a
  match driver with
  | .llamaCpp => return .llamaCpp a.apiKey
  | .codex => do
    let credential ← expect (a.accessToken.or a.apiKey) "validated access token"
    return .codex credential (jwtAccountId parseJwtClaims a)
  | .openAi => return .openAi (← expect a.apiKey "validated api_key")
  | .openCodeGo => return .openCodeGo (← expect a.apiKey "validated api_key")
  | .deepSeek => return .deepSeek (← expect a.apiKey "validated api_key")
  | .zai => return .zai (← expect a.apiKey "validated api_key")
  | .githubCopilot => do
    let refreshToken ← expect a.refreshToken "validated refresh_token"
    let headers ← CopilotHeaders.fromSettings a
    return .githubCopilot refreshToken headers

/-! ## Header patches -/

inductive RequestKind where
  | operation (endpoint : Endpoint)
  | models
  | opaqueKind
  deriving DecidableEq

def RequestKind.endpoint : RequestKind → Option Endpoint
  | .operation endpoint => some endpoint
  | _ => none

inductive AgentId where
  | opencode
  | codexCli
  | claudeCode
  | cline
  | copilotCli
  | other (value : String)
  deriving DecidableEq

/-- `TemplateVars`, as far as drivers read it. -/
structure TemplateVars where
  sessionId : Option String := none
  requestId : Option String := none
  interactionId : Option String := none
  deriving DecidableEq

/-- `HeaderPatchCtx`, without the body and the inbound headers, which no driver's patch reads. -/
structure HeaderPatchCtx where
  requestKind : RequestKind
  bearerToken : Option String
  contentEncoding : Option String
  stream : Bool
  initiator : String
  vars : TemplateVars
  agentId : AgentId
  deriving DecidableEq

def insertSome (headers : Headers.HeaderMap) (name : HeaderName) (value : Option String) :
    Headers.HeaderMap :=
  match value with
  | some value => headers.insert name value
  | none => headers

def acceptValue (stream : Bool) : String := if stream then "text/event-stream" else "application/json"

def firstNonEmpty (headers : Headers.HeaderMap) (name : HeaderName) : Option String :=
  ((getKey headers name).map Str.trim).filter fun value => value ≠ ""

def preserveAllowed (src dst : Headers.HeaderMap) (name : HeaderName) : Headers.HeaderMap :=
  insertSome dst name (getKey src name)

def injectBearer (headers : Headers.HeaderMap) (token : String) : Headers.HeaderMap :=
  headers.insert AUTHORIZATION ("Bearer " ++ token)

/-- The `normalize_headers` of the drivers that keep the map. -/
def normalizeInPlace (headers : Headers.HeaderMap) (ctx : HeaderPatchCtx) : Headers.HeaderMap :=
  insertSome ((headers.insert ACCEPT (acceptValue ctx.stream)).insert CONTENT_TYPE "application/json")
    CONTENT_ENCODING ctx.contentEncoding

def normalizeOpenaiPlatformHeaders (headers : Headers.HeaderMap) (ctx : HeaderPatchCtx) :
    Headers.HeaderMap :=
  let out := insertSome .new AUTHORIZATION (getKey headers AUTHORIZATION)
  preserveAllowed headers (normalizeInPlace out ctx) USER_AGENT

def sessionId (headers : Headers.HeaderMap) (ctx : HeaderPatchCtx) : Option String :=
  (firstNonEmpty headers SESSION_ID_LOWER).or ctx.vars.sessionId

def sessionAffinity (headers : Headers.HeaderMap) (ctx : HeaderPatchCtx) (fallback : Option String) :
    Option String :=
  ((firstNonEmpty headers X_SESSION_AFFINITY).or ctx.vars.sessionId).or fallback

def CODEX_CLI_VERSION : String := "0.155.1"

def isCodexUserAgent (value : String) : Bool :=
  ["codex_cli_rs", "codex_exec", "codex-tui"].any fun agent =>
    value.toList.tails.any fun tail => agent.toList.isPrefixOf tail

/-- `CodexCliNormalizer`. -/
def normalizeCodexCli (headers : Headers.HeaderMap) (ctx : HeaderPatchCtx) : Headers.HeaderMap :=
  let userAgent := ((firstNonEmpty headers USER_AGENT).filter isCodexUserAgent).getD
    ("codex_cli_rs/" ++ CODEX_CLI_VERSION)
  let out := insertSome .new AUTHORIZATION (firstNonEmpty headers AUTHORIZATION)
  let out := out.insert ACCEPT (acceptValue ctx.stream)
  let out := out.insert CONTENT_TYPE "application/json"
  let out := out.insert OPENAI_BETA "responses=experimental"
  let out := out.insert ORIGINATOR ((firstNonEmpty headers ORIGINATOR).getD "codex_cli_rs")
  let out := out.insert VERSION CODEX_CLI_VERSION
  let out := out.insert USER_AGENT userAgent
  let out := preserveAllowed headers out X_CODEX_RESPONSES_LITE
  let out := insertSome out CHATGPT_ACCOUNT_ID (firstNonEmpty headers CHATGPT_ACCOUNT_ID)
  let out := insertSome out SESSION_ID_LOWER (sessionId headers ctx)
  let out := insertSome out X_CODEX_TURN_METADATA (firstNonEmpty headers X_CODEX_TURN_METADATA)
  insertSome out CONTENT_ENCODING ctx.contentEncoding

/-- `CodexOpencodeNormalizer`. -/
def normalizeCodexOpencode (headers : Headers.HeaderMap) (ctx : HeaderPatchCtx) : Headers.HeaderMap :=
  let session := sessionId headers ctx
  let out := insertSome .new AUTHORIZATION (firstNonEmpty headers AUTHORIZATION)
  let out := out.insert ACCEPT (acceptValue ctx.stream)
  let out := out.insert CONTENT_TYPE "application/json"
  let out := out.insert OPENAI_BETA "responses=experimental"
  let out := out.insert ORIGINATOR "opencode"
  let out := out.insert USER_AGENT
    "opencode/1.14.28 ai-sdk/provider-utils/4.0.23 runtime/bun/1.3.13"
  let out := insertSome out CHATGPT_ACCOUNT_ID (firstNonEmpty headers CHATGPT_ACCOUNT_ID)
  let out := insertSome out SESSION_ID_LOWER session
  let out := insertSome out X_SESSION_AFFINITY (sessionAffinity headers ctx session)
  insertSome out CONTENT_ENCODING ctx.contentEncoding

def normalizeCodexHeaders (headers : Headers.HeaderMap) (ctx : HeaderPatchCtx) : Headers.HeaderMap :=
  match ctx.agentId with
  | .codexCli => normalizeCodexCli headers ctx
  | .opencode => normalizeCodexOpencode headers ctx
  | _ =>
    if (firstNonEmpty headers X_CODEX_TURN_METADATA).isSome then normalizeCodexCli headers ctx
    else normalizeCodexOpencode headers ctx

/-- `normalize_headers` of OpenCode Go. -/
def normalizeOpenCodeGo (routerUserAgent : String) (headers : Headers.HeaderMap)
    (ctx : HeaderPatchCtx) : Headers.HeaderMap :=
  let messages := ctx.requestKind.endpoint = some .messages
  let session := (ctx.vars.sessionId.or ctx.vars.interactionId).or ctx.vars.requestId
  let out :=
    if messages then insertSome .new X_API_KEY (getKey headers X_API_KEY)
    else insertSome .new AUTHORIZATION (getKey headers AUTHORIZATION)
  let out := out.insert ACCEPT (acceptValue ctx.stream)
  let out := out.insert CONTENT_TYPE "application/json"
  let out := out.insert USER_AGENT routerUserAgent
  let out :=
    if messages then
      out.insert ANTHROPIC_VERSION ((getKey headers ANTHROPIC_VERSION).getD "2023-06-01")
    else out
  let out := insertSome out X_OPENCODE_SESSION session
  insertSome out CONTENT_ENCODING ctx.contentEncoding

namespace Provider

def injectCredentials (headers : Headers.HeaderMap) (ctx : HeaderPatchCtx) :
    Provider → Except ProviderError Headers.HeaderMap
  | .llamaCpp apiKey => .ok (apiKey.elim headers (injectBearer headers))
  | .codex credential providerAccountId =>
    .ok (insertSome (injectBearer headers credential) CHATGPT_ACCOUNT_ID
      (nonBlank providerAccountId))
  | .openAi credential => .ok (injectBearer headers credential)
  | .openCodeGo apiKey =>
    if ctx.requestKind.endpoint = some .messages then .ok (headers.insert X_API_KEY apiKey)
    else .ok (injectBearer headers apiKey)
  | .deepSeek apiKey => .ok (injectBearer headers apiKey)
  | .zai apiKey => .ok (injectBearer headers apiKey)
  | .githubCopilot _ _ =>
    match ctx.bearerToken with
    | some token => .ok (injectBearer headers token)
    | none => .error (.profiles "missing copilot bearer token for header patch")

def normalizeHeaders (routerUserAgent : String) (headers : Headers.HeaderMap)
    (ctx : HeaderPatchCtx) :
    Provider → Headers.HeaderMap
  | .llamaCpp _ => normalizeInPlace headers ctx
  | .codex _ _ => normalizeCodexHeaders headers ctx
  | .openAi _ => normalizeOpenaiPlatformHeaders headers ctx
  | .openCodeGo _ => normalizeOpenCodeGo routerUserAgent headers ctx
  | .deepSeek _ => normalizeInPlace headers ctx
  | .zai _ => normalizeInPlace headers ctx
  | .githubCopilot _ _ =>
    insertSome
      (((headers.insert ACCEPT (acceptValue ctx.stream)).insert CONTENT_TYPE "application/json").insert
        (.new "x-initiator") ctx.initiator)
      CONTENT_ENCODING ctx.contentEncoding

/-- `patch_headers`: the request id outlives the patch. -/
def patchHeaders (routerUserAgent : String) (headers : Headers.HeaderMap)
    (ctx : HeaderPatchCtx) (p : Provider) : Except ProviderError Headers.HeaderMap := do
  let requestId := getKey headers X_REQUEST_ID
  let headers ← p.injectCredentials headers ctx
  return insertSome (p.normalizeHeaders routerUserAgent headers ctx) X_REQUEST_ID requestId

end Provider

/-! ## A driver's own requests -/

def copilotRequestHeaders (apiToken : String) (h : CopilotHeaders) (streaming : Bool)
    (initiator : String) : Headers.HeaderMap :=
  let m := injectBearer .new apiToken
  let m := m.insert ACCEPT (acceptValue streaming)
  let m := m.insert USER_AGENT h.userAgent
  let m := m.insert EDITOR_VERSION h.editorVersion
  let m := m.insert EDITOR_PLUGIN_VERSION h.editorPluginVersion
  let m := m.insert COPILOT_INTEGRATION_ID h.copilotIntegrationId
  let m := m.insert OPENAI_INTENT h.openaiIntent
  let m := m.insert X_INITIATOR initiator
  h.extraHeaders.foldl (fun m header => m.insert (.new header.1) header.2) m

namespace Provider

/-- The headers of `upstream_post`, where `ensure_api_token` returns `apiToken` and `ctx.initiator` is
the resolved initiator. -/
def upstreamHeaders (routerUserAgent : String) (apiToken : Except ProviderError String)
    (clientHeaders : Option Headers.HeaderMap) (ctx : HeaderPatchCtx) :
    Provider → Except ProviderError Headers.HeaderMap
  | .githubCopilot refreshToken headers => do
    let token ← apiToken
    let h := clientHeaders.getD (copilotRequestHeaders token headers ctx.stream ctx.initiator)
    patchHeaders routerUserAgent h { ctx with bearerToken := some token }
      (.githubCopilot refreshToken headers)
  | p => p.patchHeaders routerUserAgent (clientHeaders.getD .new) { ctx with bearerToken := none }

end Provider

end Tokn.Providers
