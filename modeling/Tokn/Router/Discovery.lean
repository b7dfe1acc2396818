import Mathlib.Data.Prod.Lex
import Tokn.Access.Keys
import Tokn.Accounts.LinkedPools
import Tokn.Config.Resources
import Tokn.Lib.OrderedMap

/-!
# Discovery of models

`crates/router/src/v2/discovery.rs`: what the models of a profile are. Each account is asked for its
models, and the last list that it gave is kept; the accounts of a provider share a cache, which has
the models of all of them. What is listed are the models of the providers that a key allows, and
those of a catalogue, under the names that requests have for them.

The answers come in any order, and each is entered when it comes. Texts of a catalogue and of the
registry that are only handed on are parameters (`Descriptions`). The records of the catalogue are
as they are serialized, and a reasoning effort is its text.
-/

namespace Tokn.Router.Runtimes

open Tokn.Accounts.Link

/-! ## Errors of a build -/

inductive BuildError (ε : Type) where
  | link (error : LinkError ε ⊕ PoolLinkError)
  | missing (message : String)
  | originConflict (message : String)
  | mounts (message : String)
  deriving DecidableEq

/-- Two providers claim an origin. -/
def originConflict {ε : Type} (origin first second : String) : BuildError ε :=
  .originConflict ("proxy origin '" ++ origin ++ "' maps to both provider '" ++ first ++
    "' and provider '" ++ second ++ "'")

/-- What is not there is missing. -/
def expect {ε α : Type} (message : String) : Option α → Except (BuildError ε) α
  | some a => .ok a
  | none => .error (.missing message)

end Tokn.Router.Runtimes

namespace Tokn.Router.Discovery

open Tokn.Access (ProviderAccess)
open Tokn.Accounts (LinkedAccountPool ProviderBinding ProviderBindingKey)
open Tokn.Accounts.Link
open Tokn.Config.Profiles (ProfilePlan)
open Tokn.Config.Resources (CompiledResources CompiledRoute)
open Tokn.Policy
open Tokn.Router.Runtimes (BuildError expect)

/-! ## Keys -/

theorem bindingKey_injective :
    Function.Injective fun key : ProviderBindingKey => toLex (key.providerId, key.accountId) := by
  rintro ⟨provider, account⟩ ⟨provider', account'⟩ h
  obtain ⟨rfl, rfl⟩ := Prod.mk.inj (toLex.injective h)
  rfl

/-- By the provider, and then by the account. -/
instance : LinearOrder ProviderBindingKey := LinearOrder.lift' _ bindingKey_injective

/-! ## Records of models -/

/-- A `ModelInfo`, as it is serialized. -/
structure CatalogueModel where
  id : String
  name : String
  capabilities : BTreeMap String Value
  reasoningEfforts : Option (List String)
  cost : Option Value
  limit : Value
  releaseDate : Option String

/-- The id of a record that has one. -/
def modelId (model : Value) : Option String := (model.str "id").filter fun id => id ≠ ""

def upstreamReasoningEfforts (model : Value) : Option (List String) :=
  match model.pointer ["capabilities", "supports", "reasoning_effort"] with
  | some values => values.asArray.bind fun values => values.mapM Value.asStr
  | none =>
    match (model.get "supported_reasoning_levels").or
        (model.pointer ["x_codex", "supported_reasoning_levels"]) with
    | some values => values.asArray.bind fun values => values.mapM fun preset => preset.str "effort"
    | none => do
      let capability ← (model.pointer ["capabilities", "effort"]).bind Value.asObject
      if (capability.get "supported").bind Value.asBool = some false then return []
      let supports := capability.filterMap fun entry =>
        ((entry.2.get "supported").bind Value.asBool).map fun supported => (entry.1, supported)
      if supports.isEmpty then none
      else return (supports.filter fun support => support.2).map Prod.fst

/-! ## Caches -/

structure CachedModels where
  ids : Finset String := ∅
  reasoningEfforts : BTreeMap String (List String) := []

/-- A `ModelCache`, with the efforts. -/
@[ext] structure ModelCache where
  inner : Option CachedModels := none
  catalogue : Option (List CatalogueModel) := none

/-- One record in the loop of `set_models`. -/
def addModel (cached : CachedModels) (model : Value) : CachedModels :=
  match modelId model with
  | none => cached
  | some id =>
    { ids := insert id cached.ids
      reasoningEfforts :=
        match upstreamReasoningEfforts model with
        | some efforts => cached.reasoningEfforts.insert id efforts
        | none => cached.reasoningEfforts }

/-- What `set_models` makes of the records. -/
def cachedModels (models : List Value) : CachedModels := models.foldl addModel {}

namespace ModelCache

variable (cache : ModelCache)

def setModels (models : List Value) : ModelCache :=
  if (cachedModels models).ids = ∅ then cache else { cache with inner := some (cachedModels models) }

def setCatalogue (models : List CatalogueModel) : ModelCache := { cache with catalogue := some models }

def reasoningEfforts (model : String) : Option (List String) :=
  cache.inner.bind fun cached => cached.reasoningEfforts.get model

/-- `catalogue_model`: none before there is a catalogue. -/
def catalogueModel (id : String) : Option (Option CatalogueModel) :=
  cache.catalogue.map fun models => models.find? fun model => model.id = id

end ModelCache

/-! ## What there is to discover -/

structure ProviderMetadata where
  driverId : String
  displayName : String
  upstreamUrl : String
  authKind : Value
  endpoints : List String
  models : List CatalogueModel

structure ProfileProvider where
  bindings : OrderedMap ProviderBindingKey ProviderBinding := .empty
  plainModelIds : Bool := false
  qualifiedModelIds : Option QualificationNamespace := none

structure ProfileDiscovery where
  mode : String
  providers : BTreeMap String ProfileProvider

/-- A `DiscoveryRuntime`, without its state. -/
structure DiscoveryRuntime where
  metadata : BTreeMap String ProviderMetadata
  profiles : BTreeMap String ProfileDiscovery

/-- What is only handed on, and the catalogue. -/
structure Descriptions (ρ τ ε : Type) where
  displayName : ProviderDescriptor ρ τ ε → String
  endpoints : ProviderDescriptor ρ τ ε → List String
  upstreamUrl : τ → String
  authKind : Accounts.Provider → Value
  defaultModels : Accounts.Provider → List CatalogueModel
  /-- `catalogue_models`, of a provider and its driver. -/
  catalogueModels : String → String → List CatalogueModel

def requestRecordMode : RoutePlan → String
  | .managed route =>
    match route.target.model with
    | .capability => "route"
    | .qualified _ => "exact"
    | .family _ => "fuzzy"
  | .relay route =>
    match route.credentials with
    | .client => "passthrough"
    | .accountPool => "switch"

def addBinding (plainModelIds : Bool) (qualifiedModelIds : Option QualificationNamespace)
    (providers : BTreeMap String ProfileProvider) (binding : ProviderBinding) :
    BTreeMap String ProfileProvider :=
  let provider := (providers.get binding.providerId).getD {}
  providers.insert binding.providerId
    { bindings := provider.bindings.insert binding.key binding
      plainModelIds := provider.plainModelIds || plainModelIds
      qualifiedModelIds := qualifiedModelIds }

section

variable {ρ τ ε : Type} (resources : CompiledResources) (graph : ProviderGraph ρ τ ε)
  (pools : BTreeMap String LinkedAccountPool) (registry : Registry ρ τ ε)
  (descriptions : Descriptions ρ τ ε)

def providerMetadata (entry : String × ProviderDestination ρ τ ε) :
    Except (BuildError ε) (String × ProviderMetadata) := do
  let (providerId, destination) := entry
  let plan ← expect ("linked provider '" ++ providerId ++ "' is missing from the compiled plan")
    (resources.providers.get providerId)
  let descriptor ← expect
    ("linked provider '" ++ providerId ++ "' references missing driver '" ++ plan.driver ++ "'")
    (registry.resolveProviderDescriptor providerId plan.driver)
  let firstBinding := graph.bindings.find? fun entry => entry.1.providerId = providerId
  return (providerId, {
    driverId := plan.driver
    displayName := descriptions.displayName descriptor
    upstreamUrl := descriptions.upstreamUrl destination.target
    authKind := firstBinding.elim .null fun entry => descriptions.authKind entry.2.driver
    endpoints := descriptions.endpoints descriptor
    models := firstBinding.elim (descriptions.catalogueModels providerId plan.driver)
      fun entry => descriptions.defaultModels entry.2.driver })

/-- The pool of a profile whose requests carry credentials of accounts. -/
def profilePool (profileId : String) (profile : ProfilePlan WireIdentity) :
    Except (BuildError ε) LinkedAccountPool := do
  let poolId ← expect ("profile '" ++ profileId ++ "' has no account pool") profile.accountPool
  expect ("profile '" ++ profileId ++ "' references missing account pool '" ++ poolId ++ "'")
    (pools.get poolId)

def qualifiedModelIds (route : ManagedRoute) : Option QualificationNamespace :=
  match route.target.model with
  | .qualified ns => some ns
  | _ => none

/-- The bindings that a managed route may use. -/
def managedBinding (route : ManagedRoute) (binding : ProviderBinding) : Bool :=
  (RoutePlan.managed route).allowsProvider binding.providerId &&
    match route.target.provider with
    | .any => true
    | .fixed provider => decide (provider = binding.providerId)

def profileProviders (profileId : String) (profile : ProfilePlan WireIdentity) :
    RoutePlan → Except (BuildError ε) (BTreeMap String ProfileProvider)
  | .managed route => do
    let pool ← profilePool pools profileId profile
    let qualified := qualifiedModelIds route
    return ((pool.active ++ pool.fallback).filter (managedBinding route)).foldl
      (addBinding qualified.isNone qualified) []
  | .relay route =>
    match route.destination, route.credentials with
    | .original, _ => .ok []
    | .fixedProvider provider, .client => .ok [(provider, { plainModelIds := true })]
    | .fixedProvider provider, .accountPool => do
      let pool ← profilePool pools profileId profile
      return ((pool.active ++ pool.fallback).filter fun binding => binding.providerId = provider).foldl
        (addBinding true none) []

/-- One profile in the loop of `DiscoveryRuntime::new`. -/
def profileDiscovery (profileId : String) : Except (BuildError ε) (String × ProfileDiscovery) := do
  let profile ← expect
    ("reachable profile '" ++ profileId ++ "' is missing from the compiled plan")
    (resources.profiles.get profileId)
  let route ← expect
    ("reachable profile '" ++ profileId ++ "' references missing route '" ++ profile.route ++ "'")
    (resources.routes.get profile.route)
  let providers ← profileProviders pools profileId profile route.plan
  return (profileId, ⟨requestRecordMode route.plan, providers⟩)

def DiscoveryRuntime.new (reachable : Finset String) : Except (BuildError ε) DiscoveryRuntime := do
  let metadata ← graph.destinations.mapM (providerMetadata resources graph registry descriptions)
  let profiles ← (reachable.sort (· ≤ ·)).mapM (profileDiscovery resources pools)
  return ⟨metadata, profiles⟩

end

/-! ## Refreshes -/

/-- The lists that the accounts gave last, and the caches of the providers. -/
@[ext] structure DiscoveryState where
  upstream : OrderedMap ProviderBindingKey (List Value) := .empty
  caches : String → ModelCache := fun _ => {}

/-- `remote_models`, on the response. -/
def remoteModels (response : Value) : List Value :=
  (((response.get "data").bind Value.asArray).getD []).filter fun model => (modelId model).isSome

/-- What an account has answered, or why it has not: a list of models that is not empty. -/
def answerOf : Except String Value → Except String (List Value)
  | .error e => .error e
  | .ok response =>
    if remoteModels response = [] then .error "upstream returned no model IDs"
    else .ok (remoteModels response)

/-- The records of all accounts of a provider. -/
def providerModels (upstream : OrderedMap ProviderBindingKey (List Value)) (providerId : String) :
    List Value :=
  (upstream.entries.filter fun entry => entry.1.providerId = providerId).flatMap Prod.snd

namespace DiscoveryRuntime

variable (runtime : DiscoveryRuntime)

def publishUpstream (st : DiscoveryState) : DiscoveryState :=
  { st with
    caches := fun providerId =>
      let models := providerModels st.upstream providerId
      if (runtime.metadata.get providerId).isSome ∧ models ≠ [] then
        (st.caches providerId).setModels models
      else st.caches providerId }

def applyCatalogue (catalogueModels : String → String → List CatalogueModel) (st : DiscoveryState) :
    DiscoveryState :=
  { st with
    caches := fun providerId =>
      match runtime.metadata.get providerId with
      | some metadata =>
        (st.caches providerId).setCatalogue (catalogueModels providerId metadata.driverId)
      | none => st.caches providerId }

/-- The answer of an account comes in the loop of `refresh_bindings`, or the catalogue is replaced. -/
inductive Step where
  | answered (key : ProviderBindingKey) (response : Except String Value)
  | catalogue (catalogueModels : String → String → List CatalogueModel)

def step (st : DiscoveryState) : Step → DiscoveryState
  | .answered key response =>
    match answerOf response with
    | .ok models => runtime.publishUpstream { st with upstream := st.upstream.insert key models }
    | .error _ => st
  | .catalogue catalogueModels => runtime.applyCatalogue catalogueModels st

/-- The state of a new runtime. -/
def init (catalogueModels : String → String → List CatalogueModel) : DiscoveryState :=
  runtime.applyCatalogue catalogueModels {}

def run (catalogueModels : String → String → List CatalogueModel) (steps : List Step) :
    DiscoveryState := steps.foldl runtime.step (runtime.init catalogueModels)

end DiscoveryRuntime

/-! ## Lists -/

def allowedProviders (access : ProviderAccess) (profile : ProfileDiscovery) :
    BTreeMap String ProfileProvider :=
  profile.providers.filter fun entry => access.allows entry.1

def catalogueRecord (metadata : ProviderMetadata) (cache : ModelCache) (upstreamId : String) :
    Option CatalogueModel :=
  match cache.catalogueModel upstreamId with
  | some found => found
  | none => metadata.models.find? fun model => model.id = upstreamId

/-- The `x_tokn_router` of a model, but for the efforts. -/
def extensionFields (upstreamId renderedId providerId : String) (metadata : ProviderMetadata)
    (model : Option CatalogueModel) : List (String × Value) :=
  [("provider", .string providerId), ("provider_display_name", .string metadata.displayName),
    ("driver", .string metadata.driverId), ("upstream_id", .string upstreamId),
    ("model_id", .string renderedId), ("auth_kind", metadata.authKind)] ++
  match model with
  | none => []
  | some model =>
    [("name", .string model.name), ("capabilities", .object model.capabilities)] ++
      (model.cost.map fun cost => ("cost", cost)).toList ++ [("limit", model.limit)] ++
      (model.releaseDate.map fun date => ("release_date", .string date)).toList

def enrich (entry : Value) (upstreamId renderedId providerId : String) (metadata : ProviderMetadata)
    (cache : ModelCache) : Value :=
  let model := catalogueRecord metadata cache upstreamId
  let extension := BTreeMap.extend []
    (extensionFields upstreamId renderedId providerId metadata model)
  let efforts := ((upstreamReasoningEfforts entry).or (cache.reasoningEfforts upstreamId)).or
    (model.bind CatalogueModel.reasoningEfforts)
  let capabilities := ((extension.get "capabilities").bind Value.asObject).getD []
  let capabilities := capabilities.insert "reasoning_efforts"
    (efforts.elim .null fun efforts => .array (efforts.map .string))
  let extension := extension.insert "capabilities" (.object capabilities)
  match entry with
  | .object fields => .object (BTreeMap.insert fields "x_tokn_router" (.object extension))
  | _ => entry

/-- The qualifier of the models of a provider. -/
def qualifierOf (providerId : String) (metadata : ProviderMetadata) : QualificationNamespace → String
  | .provider => providerId
  | .driver => metadata.driverId

/-- The names that a model has. -/
def renderedIds (providerId : String) (metadata : ProviderMetadata) (provider : ProfileProvider)
    (upstreamId : String) : List String :=
  (if provider.plainModelIds then [upstreamId] else []) ++
    (provider.qualifiedModelIds.map fun ns =>
      qualifierOf providerId metadata ns ++ "/" ++ upstreamId).toList

/-- The record of a model under a name. -/
def renderModel (model : Value) (upstreamId renderedId providerId : String)
    (metadata : ProviderMetadata) (cache : ModelCache) : Value :=
  let rendered :=
    match model with
    | .object fields => .object (BTreeMap.insert fields "id" (.string renderedId))
    | _ => model
  enrich rendered upstreamId renderedId providerId metadata cache

/-- The list, and the names in it. -/
structure Merged where
  output : List Value := []
  seen : Finset String := ∅

/-- One name in the inner loop of `merge_models`. -/
def addRendered (model : Value) (upstreamId providerId : String) (metadata : ProviderMetadata)
    (cache : ModelCache) (merged : Merged) (renderedId : String) : Merged :=
  if renderedId ∈ merged.seen then merged
  else
    { output := merged.output ++
        [renderModel model upstreamId renderedId providerId metadata cache]
      seen := insert renderedId merged.seen }

def mergeModels (providerId : String) (metadata : ProviderMetadata) (cache : ModelCache)
    (provider : ProfileProvider) (merged : Merged) (models : List Value) : Merged :=
  models.foldl (fun merged model =>
    match modelId model with
    | none => merged
    | some upstreamId =>
      (renderedIds providerId metadata provider upstreamId).foldl
        (addRendered model upstreamId providerId metadata cache) merged) merged

/-- `local_models`, of the catalogue that there is. -/
def localModels (metadata : ProviderMetadata) (cache : ModelCache) : List Value :=
  (cache.catalogue.getD metadata.models).map fun model =>
    Value.obj [("id", .string model.id), ("object", .string "model")]

/-- What is known of the models of a provider: what its accounts have answered, then the catalogue. -/
def knownModels (metadata : ProviderMetadata) (st : DiscoveryState) (providerId : String)
    (provider : ProfileProvider) : List Value :=
  provider.bindings.entries.flatMap (fun entry => (st.upstream.get entry.1).getD []) ++
    localModels metadata (st.caches providerId)

def listResponse (mode : String) (data : List Value) : Value :=
  Value.obj [("object", .string "list"), ("route_mode", .string mode),
    ("route_modes", .array [.string mode]), ("data", .array data)]

inductive DiscoveryError where
  | internal (message : String)
  | badGateway (message : String)
  deriving DecidableEq

/-- How the refresh of a request for models ends: not at all, if another one is going on. -/
inductive Refresh where
  | skipped
  | finished (answers : List (ProviderBindingKey × Except String Value))
  | timedOut (answers : List (ProviderBindingKey × Except String Value)) (error : String)

namespace Refresh

def answers : Refresh → List (ProviderBindingKey × Except String Value)
  | skipped => []
  | finished answers => answers
  | timedOut answers _ => answers

/-- The error of the last answer that failed, or of the refresh as a whole. -/
def lastError : Refresh → Option String
  | skipped => none
  | finished answers => (answers.reverse.findSome? fun answer =>
      match answerOf answer.2 with
      | .error e => some e
      | .ok _ => none)
  | timedOut _ error => some error

end Refresh

namespace DiscoveryRuntime

variable (runtime : DiscoveryRuntime)

/-- One provider in the loop of `models`. -/
def mergeProvider (st : DiscoveryState) (merged : Merged) (entry : String × ProfileProvider) :
    Merged :=
  match runtime.metadata.get entry.1 with
  | none => merged
  | some metadata =>
    mergeModels entry.1 metadata (st.caches entry.1) entry.2 merged
      (knownModels metadata st entry.1 entry.2)

/-- The data of the list. -/
def listModels (st : DiscoveryState) (profile : ProfileDiscovery) (access : ProviderAccess) :
    List Value :=
  ((allowedProviders access profile).foldl (runtime.mergeProvider st) {}).output

def refresh (st : DiscoveryState) (refresh : Refresh) : DiscoveryState :=
  refresh.answers.foldl (fun st answer => runtime.step st (.answered answer.1 answer.2)) st

def models (st : DiscoveryState) (profileId : String) (access : ProviderAccess) (refresh : Refresh) :
    Except DiscoveryError Value × DiscoveryState :=
  match runtime.profiles.get profileId with
  | none => (.error (.internal "API mount references a missing discovery profile"), st)
  | some profile =>
    let st := runtime.refresh st refresh
    let data := runtime.listModels st profile access
    let queriedAccount := (allowedProviders access profile).any fun entry =>
      !entry.2.bindings.entries.isEmpty
    if data.isEmpty && queriedAccount then
      (.error (.badGateway (refresh.lastError.getD "no models available")), st)
    else (.ok (listResponse profile.mode data), st)

def providers (profileId : String) (access : ProviderAccess) : Except DiscoveryError Value :=
  match runtime.profiles.get profileId with
  | none => .error (.internal "API mount references a missing discovery profile")
  | some profile =>
    .ok (listResponse profile.mode ((allowedProviders access profile).filterMap fun entry =>
      (runtime.metadata.get entry.1).map fun metadata =>
        Value.obj [("id", .string entry.1), ("object", .string "provider"),
          ("display_name", .string metadata.displayName), ("driver", .string metadata.driverId),
          ("auth_kind", metadata.authKind), ("upstream_url", .string metadata.upstreamUrl),
          ("accounts", Value.nat entry.2.bindings.entries.length),
          ("endpoints", .array (metadata.endpoints.map .string)),
          ("route_modes", .array [.string profile.mode])]))

end DiscoveryRuntime

end Tokn.Router.Discovery
