import Tokn.Requests.ProxySend

/-!
# Relays with the credential of an account

`crates/router/src/v2/mod.rs` and `crates/router/src/proxy/passthrough_pipeline.rs`: the proxies that
relay a request with the account that they have selected, and the `RunConfig` that each of them has
for it. A driver that holds its key has it sent, as it does itself. `CopilotProvider` obtains a token
for its own requests, and the relays obtain none, so that none of their requests is sent.

**Theorem (`relay_carries_iff`).** A relay sends the credential that the driver's own requests carry
exactly if the driver is not that of Copilot.
-/

namespace Tokn.Router.AccountRelay

open Tokn.Providers
open Tokn.Requests

/-! ## Configurations -/

def V2_PROXY_ORIGIN_KEY : String := "v2.proxy.origin"

/-- What `url_destination` takes a URL apart into. -/
structure UrlDestination where
  scheme : String
  authority : String
  path : String
  deriving DecidableEq

/-- `with(ACCESS_ALLOWED_PROVIDERS_KEY, ..)`, where the access is restricted. -/
def withAllowedProviders (cfg : RunConfig) : Option (List String) → RunConfig
  | some providers =>
    cfg.insert ACCESS_ALLOWED_PROVIDERS_KEY (.array (providers.map .string))
  | none => cfg

/-- A request of a v2 profile that has the credentials of an account. -/
structure V2Relay where
  destination : UrlDestination
  method : Method
  origin : String
  /-- The provider of a fixed destination. -/
  fixedProvider : Option String
  allowedProviders : Option (List String)

def V2Relay.config (relay : V2Relay) : RunConfig :=
  let config := RunConfig.withStr [] HOST_KEY relay.destination.authority
  let config := config.withStr PATH_KEY relay.destination.path
  let config := config.withStr METHOD_KEY relay.method.val
  let config := config.withStr SCHEME_KEY relay.destination.scheme
  let config := config.withStr V2_PROXY_ORIGIN_KEY relay.origin
  let config := config.withStr PROVIDER_ID_KEY (relay.fixedProvider.getD relay.origin)
  let config := config.insert INJECT_AUTH_KEY (.bool true)
  withAllowedProviders config relay.allowedProviders

/-- A request of the legacy proxy in switch mode, whose URL a provider is recognized by. -/
structure SwitchRelay where
  hostWithPort : String
  pathAndQuery : String
  method : Method
  scheme : String
  providerId : String
  allowedProviders : Option (List String)

def SwitchRelay.config (relay : SwitchRelay) : RunConfig :=
  let config := RunConfig.withStr [] HOST_KEY relay.hostWithPort
  let config := config.withStr PATH_KEY relay.pathAndQuery
  let config := config.withStr METHOD_KEY relay.method.val
  let config := config.withStr SCHEME_KEY relay.scheme
  let config := config.withStr PROVIDER_ID_KEY relay.providerId
  let config := config.insert INJECT_AUTH_KEY (.bool true)
  withAllowedProviders config relay.allowedProviders

inductive Relay where
  | v2 (relay : V2Relay)
  | switch (relay : SwitchRelay)

namespace Relay

def config : Relay → RunConfig
  | v2 relay => relay.config
  | switch relay => relay.config

/-- `ProxySend::forward_all_statuses` or `ProxySend::new`. -/
def forwardServerErrors : Relay → Bool
  | v2 _ => true
  | switch _ => false

/-- What a relay makes of a request, over a client. -/
def send (http : UpstreamReq → Except SendError Response) (routerUserAgent : String) (relay : Relay)
    (relayed : Relayed) : Option UpstreamReq × List RecordEvent × SendOutcome :=
  ProxySend.execute http relay.forwardServerErrors routerUserAgent relay.config relayed

end Relay

theorem get_withAllowedProviders {key : String} (h : key ≠ ACCESS_ALLOWED_PROVIDERS_KEY)
    (cfg : RunConfig) (providers : Option (List String)) :
    (withAllowedProviders cfg providers).get key = cfg.get key := by
  cases providers with
  | none => rfl
  | some providers => exact BTreeMap.get_insert_of_ne cfg h _

theorem getStr_withAllowedProviders {key : String} (h : key ≠ ACCESS_ALLOWED_PROVIDERS_KEY)
    (cfg : RunConfig) (providers : Option (List String)) :
    (withAllowedProviders cfg providers).getStr key = cfg.getStr key := by
  rw [RunConfig.getStr, get_withAllowedProviders h, RunConfig.getStr]

theorem injectsAuth_v2 (relay : V2Relay) :
    InjectsAuth relay.config relay.destination.authority relay.destination.path
      relay.destination.scheme relay.method := by
  constructor <;>
    simp (disch := decide +kernel) only [V2Relay.config, getStr_withAllowedProviders,
      get_withAllowedProviders, RunConfig.getStr_insert_of_ne, RunConfig.getStr_withStr_self,
      RunConfig.getStr_withStr_of_ne, RunConfig.get_withStr_of_ne, BTreeMap.get_insert_self,
      BTreeMap.get_insert_of_ne, BTreeMap.get_nil]

theorem injectsAuth_switch (relay : SwitchRelay) :
    InjectsAuth relay.config relay.hostWithPort relay.pathAndQuery relay.scheme relay.method := by
  constructor <;>
    simp (disch := decide +kernel) only [SwitchRelay.config, getStr_withAllowedProviders,
      get_withAllowedProviders, RunConfig.getStr_insert_of_ne, RunConfig.getStr_withStr_self,
      RunConfig.getStr_withStr_of_ne, RunConfig.get_withStr_of_ne, BTreeMap.get_insert_self,
      BTreeMap.get_insert_of_ne, BTreeMap.get_nil]

/-- Every relay has the credential injected. -/
theorem Relay.exists_injectsAuth (relay : Relay) :
    ∃ host path scheme method, InjectsAuth relay.config host path scheme method := by
  cases relay with
  | v2 relay => exact ⟨_, _, _, _, injectsAuth_v2 relay⟩
  | switch relay => exact ⟨_, _, _, _, injectsAuth_switch relay⟩

/-! ## Credentials -/

section

variable (http : UpstreamReq → Except SendError Response) (routerUserAgent : String)

/-- A relay sends the credential that the driver of the account has, where `ensure_api_token`
returns `token`. -/
def SendsCredential (relay : Relay) (relayed : Relayed) (token : String) : Prop :=
  ∃ request, (relay.send http routerUserAgent relayed).1 = some request ∧
    ∀ credential, relayed.provider.credential (.ok token) = .ok (some credential) →
      Providers.Carries request.headers credential

/-- The driver's own requests carry the credential. -/
def OwnRequestsCarry (p : Provider) (token : String) : Prop :=
  ∀ clientHeaders ctx, ∃ headers,
    p.upstreamHeaders routerUserAgent (.ok token) clientHeaders ctx = .ok headers ∧
      ∀ credential, p.credential (.ok token) = .ok (some credential) →
        Providers.Carries headers credential

variable {http routerUserAgent}

theorem ownRequestsCarry (p : Provider) (token : String) :
    OwnRequestsCarry routerUserAgent p token := by
  intro clientHeaders ctx
  obtain ⟨credential, hcredential⟩ := exists_credential p token
  obtain ⟨headers, hheaders, hcarries⟩ :=
    exists_upstreamHeaders routerUserAgent clientHeaders ctx hcredential
  refine ⟨headers, hheaders, ?_⟩
  intro c hc
  rw [hcredential] at hc
  exact hcarries c (Except.ok.inj hc)

variable {relayed : Relayed}

/-- What a relay hands to the client. -/
theorem send_of_dispatch {relay : Relay} {request : UpstreamReq}
    (h : ProxySend.dispatch routerUserAgent relay.config relayed = .ok request) :
    (relay.send http routerUserAgent relayed).1 = some request := by
  rw [Relay.send, ProxySend.execute, h]

theorem send_of_dispatch_error {relay : Relay} {e : RelayError}
    (h : ProxySend.dispatch routerUserAgent relay.config relayed = .error e) :
    relay.send http routerUserAgent relayed = (none, [], .failed e.toSendError) := by
  rw [Relay.send, ProxySend.execute, h]

/-- With Copilot, every relay fails before there is a request. -/
theorem send_githubCopilot (relay : Relay) (h : relayed.provider.driver = .githubCopilot) :
    relay.send http routerUserAgent relayed =
      (none, [], .failed ⟨.undispatched
        "profiles: missing copilot bearer token for header patch", false⟩) := by
  obtain ⟨host, path, scheme, method, hconfig⟩ := relay.exists_injectsAuth
  rw [send_of_dispatch_error (hconfig.dispatch_githubCopilot routerUserAgent h)]
  rfl

theorem sendsCredential_of_static (relay : Relay) (h : relayed.provider.driver ≠ .githubCopilot)
    (token : String) : SendsCredential http routerUserAgent relay relayed token := by
  obtain ⟨host, path, scheme, method, hconfig⟩ := relay.exists_injectsAuth
  obtain ⟨request, hrequest, -, hcarries⟩ := hconfig.exists_dispatch_of_static routerUserAgent h
  exact ⟨request, send_of_dispatch hrequest, hcarries (.ok token)⟩

theorem not_sendsCredential_githubCopilot (relay : Relay)
    (h : relayed.provider.driver = .githubCopilot) (token : String) :
    ¬ SendsCredential http routerUserAgent relay relayed token := by
  rintro ⟨request, hrequest, -⟩
  rw [send_githubCopilot relay h] at hrequest
  cases hrequest

/-- **Relays and the requests of the drivers.** The requests of a driver itself carry the credential
of every account that it accepts. Those that are relayed with the account carry it exactly if the
driver is not that of Copilot. -/
theorem relay_carries_iff (parseJwtClaims : String → Option IdTokenClaims) {driver : Driver}
    {a : AccountConfig} (h : driver.validate a = .ok ()) :
    ∃ p, driver.fromAccount parseJwtClaims a = .ok p ∧
      ∀ relay relayed token, relayed.provider = p →
        OwnRequestsCarry routerUserAgent p token ∧
          (SendsCredential http routerUserAgent relay relayed token ↔ driver ≠ .githubCopilot) := by
  obtain ⟨p, hp, hdriver⟩ := exists_fromAccount parseJwtClaims h
  refine ⟨p, hp, ?_⟩
  rintro relay relayed token rfl
  refine ⟨ownRequestsCarry relayed.provider token, ?_⟩
  rw [← hdriver]
  by_cases hcopilot : relayed.provider.driver = .githubCopilot
  · exact iff_of_false (not_sendsCredential_githubCopilot relay hcopilot token)
      (not_not_intro hcopilot)
  · exact iff_of_true (sendsCredential_of_static relay hcopilot token) hcopilot

end

/-! ### A relay to each kind of driver -/

/-- A relay that `https://api.githubcopilot.com` is intercepted for. -/
def chatRelay : Relay := .v2 {
  destination := ⟨"https", "api.githubcopilot.com", "/chat/completions"⟩
  method := ⟨"POST", by decide +kernel⟩
  origin := "https://api.githubcopilot.com"
  fixedProvider := none
  allowedProviders := none }

def chatRelayed (p : Provider) : Relayed where
  route := .operation .chatCompletions .chatCompletions
  provider := p
  extracted := ⟨false, none⟩
  headers := ⟨.new, {}, .opencode⟩
  body := ⟨[], none⟩

def openAiAccount : AccountConfig where
  id := "a"
  provider := "openai"
  apiKey := some "key"

theorem relay_carries_openAi :
    ∃ p, Driver.openAi.fromAccount (fun _ => none) openAiAccount = .ok p ∧
      SendsCredential (fun _ => .ok ⟨200, .ok ""⟩) "tokn" chatRelay (chatRelayed p) "token" := by
  obtain ⟨p, hp, hrelay⟩ := @relay_carries_iff (fun _ => .ok ⟨200, .ok ""⟩) "tokn" (fun _ => none)
    .openAi openAiAccount (by decide +kernel)
  exact ⟨p, hp, (hrelay chatRelay (chatRelayed p) "token" rfl).2.mpr (by decide)⟩

def copilotAccount : AccountConfig where
  id := "b"
  provider := "github-copilot"
  refreshToken := some "refresh"

/-- An account of Copilot that is accepted, whose own requests carry the token, and whose relays
send nothing. -/
theorem copilot_relay_sends_nothing :
    Driver.githubCopilot.validate copilotAccount = .ok () ∧
      ∃ p, Driver.githubCopilot.fromAccount (fun _ => none) copilotAccount = .ok p ∧
        p.credential (.ok "token") = .ok (some "token") ∧
        OwnRequestsCarry "tokn" p "token" ∧
        ¬ SendsCredential (fun _ => .ok ⟨200, .ok ""⟩) "tokn" chatRelay (chatRelayed p) "token" ∧
        (chatRelay.send (fun _ => .ok ⟨200, .ok ""⟩) "tokn" (chatRelayed p)).2.2 =
          .failed ⟨.undispatched "profiles: missing copilot bearer token for header patch",
            false⟩ := by
  have hvalid : Driver.githubCopilot.validate copilotAccount = .ok () := by decide +kernel
  obtain ⟨p, hp, hdriver⟩ := exists_fromAccount (fun _ => none) hvalid
  obtain ⟨refreshToken, settings, rfl⟩ := Provider.eq_of_driver_githubCopilot hdriver
  refine ⟨hvalid, _, hp, rfl, ownRequestsCarry _ _, ?_, ?_⟩
  · exact not_sendsCredential_githubCopilot chatRelay rfl "token"
  · rw [send_githubCopilot chatRelay rfl]

end Tokn.Router.AccountRelay
