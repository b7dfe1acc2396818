import Tokn.Lib.Except
import Tokn.Providers.Drivers

/-!
# What a patch injects

The headers of a driver's own requests, and of requests that are patched without a token. Both carry
the credential that the driver has of its account, except that `CopilotProvider` has none without a
token: its own requests obtain one before they patch, and a patch without one fails.
-/

namespace Tokn.Providers

open Tokn.Convert (Endpoint)
open Tokn.Headers (HeaderName)
open Keys

/-! ## Headers by name -/

theorem getKey_insert (headers : Headers.HeaderMap) (name k : HeaderName) (value : String) :
    getKey (headers.insert name value) k =
      if name.lower = k.lower then some value else getKey headers k := by
  rw [getKey, Headers.HeaderMap.get_insert, HeaderName.lower_lower, getKey]

@[simp] theorem getKey_insert_self (headers : Headers.HeaderMap) (name : HeaderName)
    (value : String) : getKey (headers.insert name value) name = some value := by
  rw [getKey_insert, if_pos rfl]

/-- The headers that are written next to a credential and hold none. -/
def PLAIN_KEYS : List HeaderName :=
  [ACCEPT, CONTENT_TYPE, CONTENT_ENCODING, USER_AGENT, OPENAI_BETA, ORIGINATOR, VERSION,
    X_CODEX_RESPONSES_LITE, CHATGPT_ACCOUNT_ID, SESSION_ID_LOWER, X_CODEX_TURN_METADATA,
    X_SESSION_AFFINITY, ANTHROPIC_VERSION, X_OPENCODE_SESSION, X_REQUEST_ID, .new "x-initiator"]

/-- The headers that hold a credential. -/
def CREDENTIAL_KEYS : List HeaderName := [AUTHORIZATION, X_API_KEY]

theorem lower_ne_of_plain : ∀ name ∈ PLAIN_KEYS, ∀ k ∈ CREDENTIAL_KEYS, name.lower ≠ k.lower := by
  decide +kernel

theorem getKey_insert_plain {name k : HeaderName} (h : name ∈ PLAIN_KEYS ∧ k ∈ CREDENTIAL_KEYS)
    (headers : Headers.HeaderMap) (value : String) :
    getKey (headers.insert name value) k = getKey headers k := by
  rw [getKey_insert, if_neg (lower_ne_of_plain name h.1 k h.2)]

theorem getKey_insertSome_plain {name k : HeaderName} (h : name ∈ PLAIN_KEYS ∧ k ∈ CREDENTIAL_KEYS)
    (headers : Headers.HeaderMap) (value : Option String) :
    getKey (insertSome headers name value) k = getKey headers k := by
  cases value with
  | none => rfl
  | some value => exact getKey_insert_plain h headers value

theorem getKey_insertSome_new (name : HeaderName) (value : Option String) :
    getKey (insertSome .new name value) name = value := by
  cases value with
  | none => rfl
  | some value => exact getKey_insert_self .new name value

/-! ## Normalized headers -/

theorem getKey_normalizeInPlace (headers : Headers.HeaderMap) (ctx : HeaderPatchCtx) :
    getKey (normalizeInPlace headers ctx) AUTHORIZATION = getKey headers AUTHORIZATION := by
  simp (disch := simp [PLAIN_KEYS, CREDENTIAL_KEYS]) only [normalizeInPlace,
    getKey_insertSome_plain, getKey_insert_plain]

theorem getKey_normalizeOpenaiPlatformHeaders (headers : Headers.HeaderMap) (ctx : HeaderPatchCtx) :
    getKey (normalizeOpenaiPlatformHeaders headers ctx) AUTHORIZATION =
      getKey headers AUTHORIZATION := by
  simp (disch := simp [PLAIN_KEYS, CREDENTIAL_KEYS]) only [normalizeOpenaiPlatformHeaders,
    preserveAllowed, getKey_insertSome_plain, getKey_normalizeInPlace, getKey_insertSome_new]

theorem getKey_normalizeCodexCli (headers : Headers.HeaderMap) (ctx : HeaderPatchCtx) :
    getKey (normalizeCodexCli headers ctx) AUTHORIZATION = firstNonEmpty headers AUTHORIZATION := by
  simp (disch := simp [PLAIN_KEYS, CREDENTIAL_KEYS]) only [normalizeCodexCli, preserveAllowed,
    getKey_insertSome_plain, getKey_insert_plain, getKey_insertSome_new]

theorem getKey_normalizeCodexOpencode (headers : Headers.HeaderMap) (ctx : HeaderPatchCtx) :
    getKey (normalizeCodexOpencode headers ctx) AUTHORIZATION =
      firstNonEmpty headers AUTHORIZATION := by
  simp (disch := simp [PLAIN_KEYS, CREDENTIAL_KEYS]) only [normalizeCodexOpencode,
    getKey_insertSome_plain, getKey_insert_plain, getKey_insertSome_new]

theorem getKey_normalizeCodexHeaders (headers : Headers.HeaderMap) (ctx : HeaderPatchCtx) :
    getKey (normalizeCodexHeaders headers ctx) AUTHORIZATION =
      firstNonEmpty headers AUTHORIZATION := by
  rw [normalizeCodexHeaders]
  split
  · exact getKey_normalizeCodexCli headers ctx
  · exact getKey_normalizeCodexOpencode headers ctx
  · split
    · exact getKey_normalizeCodexCli headers ctx
    · exact getKey_normalizeCodexOpencode headers ctx

variable (routerUserAgent : String)

/-- What OpenCode Go keeps of its key. -/
theorem getKey_normalizeOpenCodeGo (headers : Headers.HeaderMap) (ctx : HeaderPatchCtx) :
    (ctx.requestKind.endpoint = some .messages →
      getKey (normalizeOpenCodeGo routerUserAgent headers ctx) X_API_KEY =
        getKey headers X_API_KEY) ∧
    (ctx.requestKind.endpoint ≠ some .messages →
      getKey (normalizeOpenCodeGo routerUserAgent headers ctx) AUTHORIZATION =
        getKey headers AUTHORIZATION) := by
  constructor <;> intro h <;>
    simp (disch := simp [PLAIN_KEYS, CREDENTIAL_KEYS]) only [normalizeOpenCodeGo, h, if_true,
      if_false, getKey_insertSome_plain, getKey_insert_plain, getKey_insertSome_new]

/-! ## Credentials -/

/-- The credential that a driver's own requests have, where `ensure_api_token` returns
`apiToken`. A `llama.cpp` server may have none. -/
def Provider.credential (apiToken : Except ProviderError String) :
    Provider → Except ProviderError (Option String)
  | .llamaCpp apiKey => .ok apiKey
  | .codex credential _ => .ok (some credential)
  | .openAi credential => .ok (some credential)
  | .openCodeGo apiKey => .ok (some apiKey)
  | .deepSeek apiKey => .ok (some apiKey)
  | .zai apiKey => .ok (some apiKey)
  | .githubCopilot _ _ => apiToken.map some

/-- A credential is in the headers, up to white space around the value. -/
def Carries (headers : Headers.HeaderMap) (credential : String) : Prop :=
  (getKey headers AUTHORIZATION).map Str.trim = some (Str.trim ("Bearer " ++ credential)) ∨
    getKey headers X_API_KEY = some credential

variable {credential : String} {p : Provider} {ctx : HeaderPatchCtx} {injected : Headers.HeaderMap}

theorem carries_of_bearer {headers : Headers.HeaderMap}
    (h : getKey headers AUTHORIZATION = some ("Bearer " ++ credential)) :
    Carries headers credential := by
  rw [Carries, h]
  exact Or.inl rfl

theorem trim_bearer_ne (credential : String) : Str.trim ("Bearer " ++ credential) ≠ "" := by
  intro h
  have htrim := congrArg String.toList h
  have hlist : ("Bearer " ++ credential).toList = 'B' :: ("earer ".toList ++ credential.toList) := by
    simp
  have hhead := Str.head?_trimChars (l := "earer ".toList ++ credential.toList)
    (show Str.isWhitespace 'B' = false by decide)
  rw [Str.trim, String.toList_ofList, hlist] at htrim
  rw [htrim] at hhead
  cases hhead

theorem firstNonEmpty_of_bearer {headers : Headers.HeaderMap}
    (h : getKey headers AUTHORIZATION = some ("Bearer " ++ credential)) :
    firstNonEmpty headers AUTHORIZATION = some (Str.trim ("Bearer " ++ credential)) := by
  have hne := trim_bearer_ne credential
  simp [firstNonEmpty, h, hne]

theorem getKey_injectBearer (headers : Headers.HeaderMap) (token : String) :
    getKey (injectBearer headers token) AUTHORIZATION = some ("Bearer " ++ token) :=
  getKey_insert_self headers AUTHORIZATION _

/-- The request id is no credential. -/
theorem carries_insertSome_requestId {headers : Headers.HeaderMap} (h : Carries headers credential)
    (requestId : Option String) :
    Carries (insertSome headers X_REQUEST_ID requestId) credential := by
  have hplain : ∀ k ∈ CREDENTIAL_KEYS,
      getKey (insertSome headers X_REQUEST_ID requestId) k = getKey headers k :=
    fun k hk => getKey_insertSome_plain ⟨by simp [PLAIN_KEYS], hk⟩ headers requestId
  have hbearer := hplain AUTHORIZATION (by simp [CREDENTIAL_KEYS])
  have hkey := hplain X_API_KEY (by simp [CREDENTIAL_KEYS])
  rw [Carries, hbearer, hkey]
  exact h

/-! ## Patches -/

/-- What a patch makes of headers in which the credential has been injected. -/
theorem carries_normalizeHeaders {headers : Headers.HeaderMap} (ctx : HeaderPatchCtx)
    (hkind : ∀ key, p = .openCodeGo key → ctx.requestKind.endpoint ≠ some .messages)
    (h : getKey headers AUTHORIZATION = some ("Bearer " ++ credential)) :
    Carries (p.normalizeHeaders routerUserAgent headers ctx) credential := by
  cases p with
  | codex key accountId =>
    refine Or.inl ?_
    rw [Provider.normalizeHeaders, getKey_normalizeCodexHeaders, firstNonEmpty_of_bearer h,
      Option.map_some, Str.trim_trim]
  | openCodeGo key =>
    refine carries_of_bearer ?_
    rw [Provider.normalizeHeaders, (getKey_normalizeOpenCodeGo _ _ _).2 (hkind key rfl), h]
  | openAi key =>
    refine carries_of_bearer ?_
    rw [Provider.normalizeHeaders, getKey_normalizeOpenaiPlatformHeaders, h]
  | githubCopilot key settings =>
    refine carries_of_bearer ?_
    simp (disch := simp [PLAIN_KEYS, CREDENTIAL_KEYS]) only [Provider.normalizeHeaders,
      getKey_insertSome_plain, getKey_insert_plain, h]
  | llamaCpp key =>
    refine carries_of_bearer ?_
    rw [Provider.normalizeHeaders, getKey_normalizeInPlace, h]
  | deepSeek key =>
    refine carries_of_bearer ?_
    rw [Provider.normalizeHeaders, getKey_normalizeInPlace, h]
  | zai key =>
    refine carries_of_bearer ?_
    rw [Provider.normalizeHeaders, getKey_normalizeInPlace, h]

/-- A patch succeeds where the injection does. -/
theorem patchHeaders_of_inject {routerUserAgent : String} {headers : Headers.HeaderMap}
    (hinject : p.injectCredentials headers ctx = .ok injected) :
    p.patchHeaders routerUserAgent headers ctx =
      .ok (insertSome (p.normalizeHeaders routerUserAgent injected ctx) X_REQUEST_ID
        (getKey headers X_REQUEST_ID)) := by
  rw [Provider.patchHeaders, hinject]
  rfl

/-- A patch that injects a bearer token. -/
theorem exists_patch_of_bearer {headers : Headers.HeaderMap}
    (hinject : p.injectCredentials headers ctx = .ok injected)
    (hkind : ∀ key, p = .openCodeGo key → ctx.requestKind.endpoint ≠ some .messages)
    (h : getKey injected AUTHORIZATION = some ("Bearer " ++ credential)) :
    ∃ out, p.patchHeaders routerUserAgent headers ctx = .ok out ∧ Carries out credential :=
  ⟨_, patchHeaders_of_inject hinject,
    carries_insertSome_requestId (carries_normalizeHeaders routerUserAgent ctx hkind h) _⟩

/-- A patch that injects the key that a driver holds. -/
theorem exists_patch_of_key {headers : Headers.HeaderMap} {key : String}
    (hinject : p.injectCredentials headers ctx = .ok injected)
    (hkind : ∀ key, p = .openCodeGo key → ctx.requestKind.endpoint ≠ some .messages)
    (h : getKey injected AUTHORIZATION = some ("Bearer " ++ key))
    (hkey : ∀ apiToken, p.credential apiToken = .ok (some key)) :
    ∃ out, p.patchHeaders routerUserAgent headers ctx = .ok out ∧
      ∀ apiToken credential, p.credential apiToken = .ok (some credential) →
        Carries out credential := by
  obtain ⟨out, hout, hcarries⟩ := exists_patch_of_bearer routerUserAgent hinject hkind h
  refine ⟨out, hout, ?_⟩
  intro apiToken credential hcredential
  rw [hkey] at hcredential
  cases hcredential
  exact hcarries

/-- **A driver that holds a key injects it, with or without a token in the context.** -/
theorem exists_patch_of_static (headers : Headers.HeaderMap) (ctx : HeaderPatchCtx)
    (hp : p.driver ≠ .githubCopilot) :
    ∃ out, p.patchHeaders routerUserAgent headers ctx = .ok out ∧
      ∀ apiToken credential, p.credential apiToken = .ok (some credential) →
        Carries out credential := by
  have hbearer := getKey_injectBearer headers
  cases p with
  | githubCopilot key settings => exact absurd rfl hp
  | llamaCpp apiKey =>
    cases apiKey with
    | none => exact ⟨_, patchHeaders_of_inject rfl, by simp [Provider.credential]⟩
    | some key => exact exists_patch_of_key _ rfl (by simp) (hbearer key) fun _ => rfl
  | codex key accountId =>
    have hkept : getKey (insertSome (injectBearer headers key) CHATGPT_ACCOUNT_ID
        (nonBlank accountId)) AUTHORIZATION = some ("Bearer " ++ key) := by
      rw [getKey_insertSome_plain (by simp [PLAIN_KEYS, CREDENTIAL_KEYS]), hbearer]
    exact exists_patch_of_key _ rfl (by simp) hkept fun _ => rfl
  | openAi key => exact exists_patch_of_key _ rfl (by simp) (hbearer key) fun _ => rfl
  | deepSeek key => exact exists_patch_of_key _ rfl (by simp) (hbearer key) fun _ => rfl
  | zai key => exact exists_patch_of_key _ rfl (by simp) (hbearer key) fun _ => rfl
  | openCodeGo key =>
    by_cases hmessages : ctx.requestKind.endpoint = some .messages
    · -- the key is sent as it is
      have hinject : Provider.injectCredentials headers ctx (.openCodeGo key) =
          .ok (headers.insert X_API_KEY key) := if_pos hmessages
      have hcarries : Carries (Provider.normalizeHeaders routerUserAgent
          (headers.insert X_API_KEY key) ctx (.openCodeGo key)) key := by
        refine Or.inr ?_
        rw [Provider.normalizeHeaders, (getKey_normalizeOpenCodeGo _ _ _).1 hmessages,
          getKey_insert_self]
      refine ⟨_, patchHeaders_of_inject hinject, ?_⟩
      intro apiToken credential hcredential
      cases hcredential
      exact carries_insertSome_requestId hcarries _
    · have hinject : Provider.injectCredentials headers ctx (.openCodeGo key) =
          .ok (injectBearer headers key) := if_neg hmessages
      exact exists_patch_of_key _ hinject (fun _ _ => hmessages) (hbearer key) fun _ => rfl

/-- Copilot injects the token of the context. -/
theorem exists_patch_of_token (routerUserAgent : String) (headers : Headers.HeaderMap)
    {ctx : HeaderPatchCtx} {token : String} (htoken : ctx.bearerToken = some token)
    (refreshToken : String) (settings : CopilotHeaders) :
    ∃ out, (Provider.githubCopilot refreshToken settings).patchHeaders routerUserAgent headers ctx =
        .ok out ∧ Carries out token := by
  have hinject : (Provider.githubCopilot refreshToken settings).injectCredentials headers ctx =
      .ok (injectBearer headers token) := by simp [Provider.injectCredentials, htoken]
  exact exists_patch_of_bearer routerUserAgent hinject (by simp) (getKey_injectBearer headers token)

/-- Without a token in the context, Copilot has nothing to inject. -/
theorem patchHeaders_githubCopilot_none (headers : Headers.HeaderMap)
    (htoken : ctx.bearerToken = none) (refreshToken : String) (settings : CopilotHeaders) :
    (Provider.githubCopilot refreshToken settings).patchHeaders routerUserAgent headers ctx =
      .error (.profiles "missing copilot bearer token for header patch") := by
  rw [Provider.patchHeaders, Provider.injectCredentials, htoken]
  rfl

theorem Provider.eq_of_driver_githubCopilot (h : p.driver = .githubCopilot) :
    ∃ refreshToken settings, p = .githubCopilot refreshToken settings := by
  cases p with
  | githubCopilot refreshToken settings => exact ⟨refreshToken, settings, rfl⟩
  | llamaCpp => cases h
  | codex => cases h
  | openAi => cases h
  | openCodeGo => cases h
  | deepSeek => cases h
  | zai => cases h

/-- **The requests of a driver itself carry its credential, when there is one.** -/
theorem exists_upstreamHeaders {apiToken : Except ProviderError String}
    (clientHeaders : Option Headers.HeaderMap) (ctx : HeaderPatchCtx) {credential : Option String}
    (h : p.credential apiToken = .ok credential) :
    ∃ out, p.upstreamHeaders routerUserAgent apiToken clientHeaders ctx = .ok out ∧
      ∀ c, credential = some c → Carries out c := by
  by_cases hp : p.driver = .githubCopilot
  · obtain ⟨refreshToken, settings, rfl⟩ := Provider.eq_of_driver_githubCopilot hp
    cases apiToken with
    | error e => cases h
    | ok token =>
      cases h
      obtain ⟨out, hout, hcarries⟩ := @exists_patch_of_token routerUserAgent
        (clientHeaders.getD (copilotRequestHeaders token settings ctx.stream ctx.initiator))
        { ctx with bearerToken := some token } token rfl refreshToken settings
      refine ⟨out, hout, ?_⟩
      rintro c ⟨⟩
      exact hcarries
  · obtain ⟨out, hout, hcarries⟩ := exists_patch_of_static routerUserAgent (clientHeaders.getD .new)
      { ctx with bearerToken := none } hp
    refine ⟨out, ?_, ?_⟩
    · rw [← hout]
      cases p <;> first | rfl | exact absurd rfl hp
    · rintro c rfl
      exact hcarries apiToken c h

/-! ## Validated accounts -/

theorem isSome_of_requireCredential {credential : Option String} {what : String} {a : AccountConfig}
    (h : requireCredential credential what a = .ok ()) : ∃ key, credential = some key := by
  cases credential with
  | none => cases h
  | some key => exact ⟨key, rfl⟩

theorem exists_key_of_validateApiKey {id : String} {a : AccountConfig}
    (h : validateApiKey id a = .ok ()) : ∃ key, a.apiKey = some key := by
  obtain ⟨-, -, hkey⟩ := Except.bind_eq_ok.mp h
  exact isSome_of_requireCredential hkey

/-- A driver has a provider for every account that it accepts. -/
theorem exists_fromAccount (parseJwtClaims : String → Option IdTokenClaims) {a : AccountConfig}
    {driver : Driver} (h : driver.validate a = .ok ()) :
    ∃ p, driver.fromAccount parseJwtClaims a = .ok p ∧ p.driver = driver := by
  rw [Driver.fromAccount.eq_def, h]
  cases driver with
  | llamaCpp => exact ⟨.llamaCpp a.apiKey, rfl, rfl⟩
  | codex =>
    obtain ⟨-, -, hkey⟩ := Except.bind_eq_ok.mp h
    obtain ⟨key, hkey⟩ := isSome_of_requireCredential hkey
    exact ⟨.codex key (jwtAccountId parseJwtClaims a), by rw [hkey]; rfl, rfl⟩
  | openAi =>
    obtain ⟨key, hkey⟩ := exists_key_of_validateApiKey h
    exact ⟨.openAi key, by rw [hkey]; rfl, rfl⟩
  | openCodeGo =>
    obtain ⟨key, hkey⟩ := exists_key_of_validateApiKey h
    exact ⟨.openCodeGo key, by rw [hkey]; rfl, rfl⟩
  | deepSeek =>
    obtain ⟨key, hkey⟩ := exists_key_of_validateApiKey h
    exact ⟨.deepSeek key, by rw [hkey]; rfl, rfl⟩
  | zai =>
    obtain ⟨-, -, hkey⟩ := Except.bind_eq_ok.mp h
    obtain ⟨key, hkey⟩ := isSome_of_requireCredential hkey
    exact ⟨.zai key, by rw [hkey]; rfl, rfl⟩
  | githubCopilot =>
    cases hrefresh : a.refreshToken with
    | none =>
      rw [Driver.validate, hrefresh] at h
      cases h
    | some refreshToken =>
      rw [Driver.validate, hrefresh] at h
      obtain ⟨settings, hsettings, -⟩ := Except.bind_eq_ok.mp h
      exact ⟨.githubCopilot refreshToken settings, by rw [hsettings]; rfl, rfl⟩

/-- The credential of a driver, where `ensure_api_token` returns a token. -/
theorem exists_credential (p : Provider) (token : String) :
    ∃ credential, p.credential (.ok token) = .ok credential := by
  cases p <;> exact ⟨_, rfl⟩

end Tokn.Providers
