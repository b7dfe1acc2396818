import Tokn.Config.Profiles
import Tokn.Policy.ResourcePlan

/-!
# Compiling resources

`crates/config/src/v2/compile/resources.rs`: the providers, the retry policies, the model scores and
the routes of a configuration, and of each profile the wire identity, the account pool and the
providers that are left to it.

The parser of URLs is a parameter. The raw enumerations whose values are those of the plans are the
enumerations of the plans.
-/

namespace Tokn.Config.Resources

open Tokn.Accounts (SessionAffinityPlan)
open Tokn.Config.Profiles
open Tokn.Except (rejectIf)
open Tokn.Policy

/-! ## Raw resources -/

def DEFAULT_SESSION_TTL_SECS : UInt64 := 18000

structure RawAccountPool where
  accounts : Option (List String) := none
  strategy : AccountSelectionStrategy := .roundRobin
  failureCooldownSecs : UInt64 := 60
  sessionTtlSecs : UInt64 := DEFAULT_SESSION_TTL_SECS
  sessionExpiredRetentionSecs : UInt64 := 0
  deriving DecidableEq

structure RawProvider where
  enable : Bool := true
  driver : Option String := none
  baseUrl : Option String := none
  origins : List String := []
  allowInsecureHttp : Bool := false
  deriving DecidableEq

structure RawRetryPolicy where
  maxRetries : UInt32
  initialBackoffMs : UInt64
  deriving DecidableEq

inductive RawModelSelector where
  | capability
  | qualified (ns : QualificationNamespace)
  | family (families : BTreeMap String (List String))
  deriving DecidableEq

inductive RawRoute where
  | managed (providers : Option (List String)) (provider : ProviderSelector)
      (model : RawModelSelector) (operation : OperationPolicy) (retry : RouteRetry)
  | relay (providers : Option (List String)) (destination : RelayDestination)
      (credentials : RelayCredentials) (retry : RouteRetry)
  deriving DecidableEq

inductive RawWireIdentity where
  | auto
  | none
  | providerDefault
  | named (id : String)
  deriving DecidableEq

/-- A raw configuration, as far as the resources come from it. -/
structure RawResources where
  providers : BTreeMap String RawProvider
  retryPolicies : BTreeMap String RawRetryPolicy
  modelScores : BTreeMap String (BTreeMap String Int)
  routes : BTreeMap String RawRoute
  profiles : BTreeMap String (RawProfile RawWireIdentity RawAccountPool)

/-! ## Plans -/

/-- A route, with the retry that its plan has. -/
structure CompiledRoute where
  plan : RoutePlan
  retry : RouteRetry
  deriving DecidableEq

structure CompiledResources where
  profiles : BTreeMap String (ProfilePlan WireIdentity)
  routes : BTreeMap String CompiledRoute
  retryPolicies : BTreeMap String RetryPolicyPlan
  accountPools : BTreeMap String AccountPoolPlan
  providers : BTreeMap String ProviderPlan

/-! ## Errors -/

inductive ResourceError where
  | profile (error : ProfileError)
  | invalidValue (location message : String)
  | duplicateOrigin (origin firstProvider secondProvider : String)
  deriving DecidableEq

/-- `parse_id`. -/
def parse (kind resource value : String) : Except ResourceError String :=
  match parseId kind resource value with
  | .ok id => .ok id
  | .error error => .error (.profile (.compile error))

def duplicateValue (location value : String) : ResourceError :=
  .invalidValue location ("contains duplicate value \x60" ++ value ++ "\x60")

def requireReference {ν : Type} (registry : BTreeMap String ν) (key ownerKind owner field targetKind
    rawTarget : String) : Except ResourceError Unit :=
  if registry.contains key then .ok ()
  else .error (.profile (.compile (.unresolvedReference ownerKind owner field targetKind rawTarget)))

def resolveProvider (ownerKind owner field rawProvider : String)
    (providers : BTreeMap String ProviderPlan) : Except ResourceError String := do
  let provider ← parse "provider" "provider reference" rawProvider
  requireReference providers provider ownerKind owner field "provider" rawProvider
  return provider

/-! ## Retry policies -/

def MAX_RETRIES : UInt32 := 10

def MAX_INITIAL_BACKOFF_MS : UInt64 := 60000

/-- One policy in `compile_retry_policies`. -/
def compileRetryPolicy (entry : String × RawRetryPolicy) :
    Except ResourceError (String × RetryPolicyPlan) := do
  let (rawId, raw) := entry
  let id ← parse "retry policy" "retry policy id" rawId
  rejectIf (raw.maxRetries = 0 || MAX_RETRIES < raw.maxRetries)
    (.invalidValue ("retry_policies." ++ rawId ++ ".max_retries")
      ("must be between 1 and " ++ toString MAX_RETRIES))
  rejectIf (MAX_INITIAL_BACKOFF_MS < raw.initialBackoffMs)
    (.invalidValue ("retry_policies." ++ rawId ++ ".initial_backoff_ms")
      ("must not exceed " ++ toString MAX_INITIAL_BACKOFF_MS))
  return (id, ⟨raw.maxRetries, durationFromMillis raw.initialBackoffMs⟩)

def compileRetryPolicies (raw : BTreeMap String RawRetryPolicy) :
    Except ResourceError (BTreeMap String RetryPolicyPlan) :=
  raw.mapM compileRetryPolicy

def resolveRetryPolicy (routeId rawPolicy : String) (policies : BTreeMap String RetryPolicyPlan) :
    Except ResourceError String := do
  let policy ← parse "retry policy" "retry policy reference" rawPolicy
  requireReference policies policy "route" routeId "retry.policy" "retry policy" rawPolicy
  return policy

def compileManagedRetry (routeId : String) (policies : BTreeMap String RetryPolicyPlan) :
    RouteRetry → Except ResourceError RouteRetry
  | .never => .ok .never
  | .recoverable policy => return .recoverable (← resolveRetryPolicy routeId policy policies)
  | .safeMethods _ | .buffered _ =>
    .error (.invalidValue ("routes." ++ routeId ++ ".retry.kind")
      ("managed routes use \x60recoverable\x60; replay safety is guaranteed by structured " ++
        "request buffering"))

def compileRelayRetry (routeId : String) (policies : BTreeMap String RetryPolicyPlan) :
    RouteRetry → Except ResourceError RouteRetry
  | .never => .ok .never
  | .safeMethods policy => return .safeMethods (← resolveRetryPolicy routeId policy policies)
  | .buffered policy => return .buffered (← resolveRetryPolicy routeId policy policies)
  | .recoverable _ =>
    .error (.invalidValue ("routes." ++ routeId ++ ".retry.kind")
      ("relay routes must choose \x60safe_methods\x60 or explicitly acknowledge buffered replay " ++
        "with \x60buffered\x60"))

/-! ## Providers -/

/-- What the compiler takes from the parser of URLs: the canonical text of a base URL with its
origin, and the canonical text of an origin. -/
structure UpstreamSyntax where
  baseUrl : String → CleartextHttpPolicy → Except String (String × String)
  origin : String → CleartextHttpPolicy → Except String String

section

variable (url : UpstreamSyntax)

/-- What the URL parser rejects is invalid at its location. -/
def atLocation {α : Type} (location : String) : Except String α → Except ResourceError α
  | .ok a => .ok a
  | .error message => .error (.invalidValue location message)

def claimOrigin (provider : String) (origins : List String) (origin : String) :
    Except ResourceError (List String) := do
  rejectIf (origins.contains origin)
    (.invalidValue ("providers." ++ provider ++ ".origins")
      ("contains duplicate canonical origin \x60" ++ origin ++ "\x60"))
  return origins ++ [origin]

/-- An official provider, before the configuration. -/
def presetPlan (preset : OfficialProviderPreset) : Except ResourceError (String × ProviderPlan) := do
  let id ← parse "provider" "provider id" preset.id
  let driver ← parse "driver" "provider driver" preset.driver
  return (id, ⟨driver, none, [], false⟩)

/-- The plan of a provider that is enabled. -/
def compileEnabledProvider (rawId : String) (raw : RawProvider) :
    Except ResourceError ProviderPlan := do
  let preset := officialProviderPreset rawId
  match raw.driver.or (preset.map OfficialProviderPreset.driver) with
  | none =>
    .error (.invalidValue ("providers." ++ rawId ++ ".driver")
      "custom providers must configure a driver")
  | some rawDriver => do
    let driver ← parse "driver" "provider driver" rawDriver
    let policy := cleartextPolicy raw.allowInsecureHttp
    let base ← raw.baseUrl.mapM fun value =>
      atLocation ("providers." ++ rawId ++ ".base_url") (url.baseUrl value policy)
    let baseOrigins ← (base.map Prod.snd).toList.foldlM (claimOrigin rawId) []
    let origins ← raw.origins.foldlM (fun origins rawOrigin => do
      let origin ← atLocation ("providers." ++ rawId ++ ".origins") (url.origin rawOrigin policy)
      claimOrigin rawId origins origin) baseOrigins
    return ⟨driver, base.map Prod.fst, origins, raw.allowInsecureHttp⟩

/-- One provider in the loop of `compile_providers`. -/
def compileProvider (plans : BTreeMap String ProviderPlan) (entry : String × RawProvider) :
    Except ResourceError (BTreeMap String ProviderPlan) := do
  let (rawId, raw) := entry
  let id ← parse "provider" "provider id" rawId
  if raw.enable then
    let plan ← compileEnabledProvider url rawId raw
    return plans.insert id plan
  else
    rejectIf (officialProviderPreset rawId).isNone
      (.invalidValue ("providers." ++ rawId ++ ".enable")
        "only an official provider preset may be disabled")
    return plans.erase id

def compileProviders (raw : BTreeMap String RawProvider) :
    Except ResourceError (BTreeMap String ProviderPlan) := do
  let presets ← OFFICIAL_PROVIDER_PRESETS.mapM presetPlan
  raw.foldlM (compileProvider url) (BTreeMap.extend [] presets)

end

/-! ## Routes -/

def modelScorePatternError (pattern : String) : Option String :=
  let wildcards := pattern.toList.count '*'
  if Str.trim pattern = "" ∨ Str.trim pattern ≠ pattern then
    some "model score patterns must be non-empty and have no surrounding whitespace"
  else if 1 < wildcards ∨ wildcards = 1 ∧ pattern.toList.getLast? ≠ some '*' then
    some "model score patterns may contain only one wildcard, at the end"
  else none

/-- The scores of one pattern in the loop of `compile_model_scores`. -/
def compileModelScore (providers : BTreeMap String ProviderPlan)
    (scores : BTreeMap String ProviderScores) (entry : String × BTreeMap String Int) :
    Except ResourceError (BTreeMap String ProviderScores) := do
  let (model, rawProviders) := entry
  match modelScorePatternError model with
  | some message => .error (.invalidValue ("model_scores." ++ model) message)
  | none => do
    rejectIf rawProviders.isEmpty
      (.invalidValue ("model_scores." ++ model) "provider score maps must not be empty")
    let providerScores ← rawProviders.foldlM (fun (found : ProviderScores) (score : String × Int) => do
      let provider ← resolveProvider "model score" model "provider" score.1 providers
      return found.insert provider score.2) []
    return scores.insert model providerScores

def compileModelScores (providers : BTreeMap String ProviderPlan)
    (raw : BTreeMap String (BTreeMap String Int)) :
    Except ResourceError (BTreeMap String ProviderScores) :=
  raw.foldlM (compileModelScore providers) []

def validateModelName (location model : String) : Except ResourceError Unit :=
  rejectIf (Str.trim model = "" || Str.trim model ≠ model)
    (.invalidValue location "model names must be non-empty and have no surrounding whitespace")

/-- One member in the loop of a family. -/
def compileMember (location : String) (aliases : List String) (seen : List String)
    (entry : String × Nat) : Except ResourceError (List String) := do
  let (member, index) := entry
  let location := location ++ "[" ++ toString index ++ "]"
  validateModelName location member
  rejectIf (aliases.contains member)
    (.invalidValue location
      ("model \x60" ++ member ++ "\x60 is also a family name; family names and concrete models " ++
        "must be distinct"))
  rejectIf (seen.contains member) (.invalidValue location "duplicates an earlier family member")
  return seen ++ [member]

/-- One family in the loop of `compile_model_selector`. -/
def compileFamily (routeId : String) (aliases : List String) (entry : String × List String) :
    Except ResourceError ModelFamily := do
  let (name, members) := entry
  let location := "routes." ++ routeId ++ ".model.families." ++ name
  validateModelName location name
  rejectIf members.isEmpty
    (.invalidValue location "model family must contain at least one member")
  let _ ← members.zipIdx.foldlM (compileMember location aliases) []
  return ⟨name, members⟩

def compileModelSelector (routeId : String) : RawModelSelector → Except ResourceError ModelSelector
  | .capability => .ok .capability
  | .qualified ns => .ok (.qualified ns)
  | .family families => do
    let compiled ← families.mapM (compileFamily routeId (families.map Prod.fst))
    return .family compiled

def validateSelectorShape (rawValues : List String) (location : String) :
    Except ResourceError Unit := do
  rejectIf rawValues.isEmpty
    (.invalidValue location
      "must not be empty; omit the field or use [\"*\"] for an unrestricted selector")
  rejectIf (rawValues.contains "*" && rawValues ≠ ["*"])
    (.invalidValue location "wildcard \x60*\x60 must be the only selector value")

def compileRouteProviders (routeId : String) (providers : BTreeMap String ProviderPlan) :
    Option (List String) → Except ResourceError (Option (List String))
  | none => .ok none
  | some values => do
    let location := "routes." ++ routeId ++ ".providers"
    validateSelectorShape values location
    if values = ["*"] then return none
    else
      let ids ← values.foldlM (fun ids value => do
        let id ← resolveProvider "route" routeId "providers" value providers
        rejectIf (ids.contains id) (duplicateValue location value)
        return ids ++ [id]) []
      return some ids

def fixedProvider : RoutePlan → Option String
  | .managed route =>
    match route.target.provider with
    | .fixed provider => some provider
    | .any => none
  | .relay route =>
    match route.destination with
    | .fixedProvider provider => some provider
    | .original => none

def withProviders (providers : Option (List String)) : RoutePlan → RoutePlan
  | .managed route => .managed { route with providers := providers }
  | .relay route => .relay { route with providers := providers }

section

variable (providers : BTreeMap String ProviderPlan) (policies : BTreeMap String RetryPolicyPlan)
  (scores : BTreeMap String ProviderScores)

/-- The provider of a managed route. -/
def compileProviderSelector (rawId : String) : ProviderSelector → Except ResourceError ProviderSelector
  | .any => .ok .any
  | .fixed provider =>
    return .fixed (← resolveProvider "route" rawId "provider" provider providers)

def compileDestination (rawId : String) : RelayDestination → Except ResourceError RelayDestination
  | .original => .ok .original
  | .fixedProvider provider =>
    return .fixedProvider
      (← resolveProvider "route" rawId "destination.provider" provider providers)

/-- The plan of a raw route, before its restriction. -/
def compileRouteKind (rawId : String) :
    RawRoute → Except ResourceError (Option (List String) × CompiledRoute)
  | .managed allowed provider model operation retry => do
    let selector ← compileProviderSelector providers rawId provider
    let model ← compileModelSelector rawId model
    let retry ← compileManagedRetry rawId policies retry
    let route : ManagedRoute := { target := ⟨selector, model⟩, operation := operation }
    return (allowed, ⟨.managed (route.withModelScores scores), retry⟩)
  | .relay allowed destination credentials retry => do
    let destination ← compileDestination providers rawId destination
    let retry ← compileRelayRetry rawId policies retry
    return (allowed, ⟨.relay { destination := destination, credentials := credentials }, retry⟩)

/-- One route in `compile_routes`. -/
def compileRoute (entry : String × RawRoute) : Except ResourceError (String × CompiledRoute) := do
  let (rawId, rawRoute) := entry
  let id ← parse "route" "route id" rawId
  let (rawAllowed, route) ← compileRouteKind providers policies scores rawId rawRoute
  let allowed ← compileRouteProviders rawId providers rawAllowed
  let plan := withProviders allowed route.plan
  rejectIf ((fixedProvider plan).any fun provider => !plan.allowsProvider provider)
    (.invalidValue ("routes." ++ rawId ++ ".providers")
      "the fixed destination is excluded by this route's provider restrictions")
  return (id, { route with plan := plan })

def compileRoutes (raw : BTreeMap String RawRoute) :
    Except ResourceError (BTreeMap String CompiledRoute) :=
  raw.mapM (compileRoute providers policies scores)

end

/-! ## Account pools -/

def MAX_FAILURE_COOLDOWN_SECS : UInt64 := 86400

def MAX_SESSION_DURATION_SECS : UInt64 := 31536000

def compileAccountFilter (location : String) :
    Option (List String) → Except ResourceError (Option (Finset String))
  | none => .ok none
  | some rawValues => do
    validateSelectorShape rawValues location
    if rawValues = ["*"] then return none
    else
      let values ← rawValues.foldlM (fun (values : Finset String) value => do
        rejectIf (Str.trim value = "" || Str.trim value ≠ value)
          (.invalidValue location "account ids must be non-empty and have no surrounding whitespace")
        rejectIf (decide (value ∈ values)) (duplicateValue location value)
        return insert value values) ∅
      return some values

/-- A duration of a pool is at most its maximum. -/
def checkPoolSecs (location field : String) (seconds maximum : UInt64) : Except ResourceError Unit :=
  rejectIf (maximum < seconds)
    (.invalidValue (location ++ "." ++ field) ("must not exceed " ++ toString maximum ++ " seconds"))

def compileAccountPool (profile : String) (raw : RawAccountPool) :
    Except ResourceError AccountPoolPlan := do
  let location := "profiles." ++ profile ++ ".account_pool"
  checkPoolSecs location "failure_cooldown_secs" raw.failureCooldownSecs MAX_FAILURE_COOLDOWN_SECS
  checkPoolSecs location "session_ttl_secs" raw.sessionTtlSecs MAX_SESSION_DURATION_SECS
  checkPoolSecs location "session_expired_retention_secs" raw.sessionExpiredRetentionSecs
    MAX_SESSION_DURATION_SECS
  let accounts ← compileAccountFilter (location ++ ".accounts") raw.accounts
  rejectIf (raw.sessionTtlSecs = 0 && raw.sessionExpiredRetentionSecs ≠ 0)
    (.invalidValue (location ++ ".session_expired_retention_secs")
      "must be zero when session_ttl_secs is zero")
  let affinity : SessionAffinityPlan :=
    ⟨(durationFromSecs raw.sessionTtlSecs).nanos,
      (durationFromSecs raw.sessionExpiredRetentionSecs).nanos⟩
  return {
    selector := ⟨none, accounts⟩
    strategy := raw.strategy
    failureCooldown := durationFromSecs raw.failureCooldownSecs
    sessionAffinity := if raw.sessionTtlSecs = 0 then none else some affinity }

/-! ## Profiles -/

def rejectClientCredentialsWireIdentity (route : RoutePlan) (location : String) :
    Except ResourceError Unit :=
  rejectIf (route.credentialPolicy = .client)
    (.invalidValue location
      "routes with client credentials preserve client identity; use \x60auto\x60 or \x60none\x60")

def compileWireIdentity (profileId : String) (raw : RawWireIdentity) (route : RoutePlan) :
    Except ResourceError WireIdentity :=
  let location := "profiles." ++ profileId ++ ".wire_identity"
  match raw with
  | .auto => .ok (if route.credentialPolicy = .client then .none else .providerDefault)
  | .none => .ok .none
  | .providerDefault => do
    rejectClientCredentialsWireIdentity route location
    return .providerDefault
  | .named rawId => do
    rejectClientCredentialsWireIdentity route location
    return .named (← parse "wire identity" "wire identity name" rawId)

/-- One provider in the loop of `ensure_origin_relay_viable`: the owners of the origins so far. -/
def ownOrigins (owners : BTreeMap String String) (entry : String × ProviderPlan) :
    Except ResourceError (BTreeMap String String) :=
  entry.2.origins.foldlM (fun owners origin =>
    match owners.get origin with
    | some first => .error (.duplicateOrigin origin first entry.1)
    | none => .ok (owners.insert origin entry.1)) owners

def ensureOriginRelayViable (profile : String) (providers : BTreeMap String ProviderPlan) :
    Except ResourceError Unit := do
  let _ ← providers.foldlM ownOrigins []
  rejectIf (!providers.any fun entry => entry.2.baseUrl.isNone || !entry.2.origins.isEmpty)
    (.invalidValue ("profiles." ++ profile ++ ".route")
      ("origin-based relay requires an allowed provider with a configured or driver-default " ++
        "origin"))

/-- The route leaves a provider to its profile. -/
def viable (route : RoutePlan) (providers : BTreeMap String ProviderPlan) : Bool :=
  match fixedProvider route with
  | some provider => route.allowsProvider provider
  | none => (providers.map Prod.fst).any route.allowsProvider

def validateProfileProviders (name : String) (route : RoutePlan)
    (providers : BTreeMap String ProviderPlan) : Except ResourceError Unit := do
  rejectIf (!viable route providers)
    (.invalidValue ("profiles." ++ name ++ ".route")
      "route provider restrictions allow no configured provider")
  if route.destinationPolicy = .original then
    ensureOriginRelayViable name (providers.filter fun entry => route.allowsProvider entry.1)

/-- What the loop of `compile_profiles` has made so far. -/
abbrev ProfileState := Profiles.ProfileState WireIdentity AccountPoolPlan

/-- The checks of a profile against the providers. -/
def profileChecks (providers : BTreeMap String ProviderPlan) :
    ProfileChecks ResourceError RawWireIdentity RawAccountPool WireIdentity AccountPoolPlan where
  error := .profile
  wireIdentity := compileWireIdentity
  accountPool name raw := compileAccountPool name (raw.getD {})
  profileProviders name route := validateProfileProviders name route providers

def routePlans (routes : BTreeMap String CompiledRoute) : BTreeMap String RoutePlan :=
  routes.map fun entry => (entry.1, entry.2.plan)

def compileResources (url : UpstreamSyntax) (raw : RawResources) :
    Except ResourceError CompiledResources := do
  let providers ← compileProviders url raw.providers
  let retryPolicies ← compileRetryPolicies raw.retryPolicies
  let modelScores ← compileModelScores providers raw.modelScores
  let routes ← compileRoutes providers retryPolicies modelScores raw.routes
  let st ← compileProfiles (profileChecks providers) (routePlans routes) [] raw.profiles
  return ⟨st.profiles, routes, retryPolicies, st.pools, providers⟩

end Tokn.Config.Resources
