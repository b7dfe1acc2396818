import Tokn.Core.Glob

/-!
# Providers and routes

What a pool asks of a provider: whether it knows a model, from its own list of models or from the
catalogue, and whether it serves a model on an endpoint. A provider may answer both in its own way;
the two ways the repository writes down most often are `Provider.ofInfo`, the default methods, and
`Provider.llamaCpp`.

A route says what a request is asking for, and `providerMatchesRoute` whether a provider can give
it that.
-/

namespace Tokn.Accounts

open Tokn.Convert (Endpoint)
open Tokn.Core (EndpointRule matchEndpointRule)

/-! ## Model knowledge -/

/-- A catalogue entry. -/
structure ModelInfo where
  id : String
  deriving DecidableEq

/-- The models of the last upstream list and of the last catalogue, `none` before the first. -/
structure ModelCache where
  inner : Option (List String) := none
  catalogue : Option (List ModelInfo) := none
  deriving DecidableEq

namespace ModelCache

def contains (c : ModelCache) (id : String) : Bool := (c.inner.map (·.contains id)).getD false

def isWarm (c : ModelCache) : Bool := c.inner.isSome

def catalogueContains (c : ModelCache) (id : String) : Option Bool :=
  c.catalogue.map fun models => models.any (·.id == id)

end ModelCache

structure ProviderInfo where
  id : String
  defaultModels : List ModelInfo
  defaultEndpoints : List Endpoint
  modelCache : ModelCache
  deriving DecidableEq

/-! ## Providers -/

/-- A provider, by the methods a pool calls. -/
structure Provider where
  info : ProviderInfo
  hasModel : String → Bool
  hasEndpoint : String → Endpoint → Bool

namespace Provider

/-- The default `has_model`. -/
def defaultHasModel (info : ProviderInfo) (model : String) : Bool :=
  model == "" ||
    (info.modelCache.contains model ||
      (info.modelCache.catalogueContains model).getD (info.defaultModels.any (·.id == model)))

/-- The default `has_endpoint`, for the rules of `endpoint_rules`. -/
def defaultHasEndpoint (info : ProviderInfo) (endpointRules : Option (List EndpointRule))
    (model : String) (endpoint : Endpoint) : Bool :=
  (endpointRules.bind (matchEndpointRule model endpoint)).getD
    (info.defaultEndpoints.contains endpoint)

/-- A provider that keeps the default methods. -/
def ofInfo (info : ProviderInfo) (endpointRules : Option (List EndpointRule)) : Provider where
  info := info
  hasModel := defaultHasModel info
  hasEndpoint := defaultHasEndpoint info endpointRules

/-- `LlamaCppProvider`: a server that has not been asked yet, and has no catalogue, may have any
model. -/
def llamaCpp (info : ProviderInfo) : Provider where
  info := info
  hasModel model :=
    let catalogue := info.modelCache.catalogue.getD info.defaultModels
    model == "" ||
      (info.modelCache.contains model || catalogue.any (·.id == model) ||
        (!info.modelCache.isWarm && catalogue.isEmpty))
  hasEndpoint := defaultHasEndpoint info (some [])

/-- `supports`, which no provider overrides. -/
def supports (p : Provider) (model : String) (endpoint : Endpoint) : Bool :=
  if model != "" && !p.hasModel model then false else p.hasEndpoint model endpoint

end Provider

/-! ## Routes -/

inductive RouteMode where
  | passthrough
  | switch
  | exact
  | route
  | fuzzy
  deriving DecidableEq

inductive RouteSelector where
  | any
  | provider (providerId : String)
  | model
  | fuzzy (candidates : List String)
  deriving DecidableEq

structure RouteResolution where
  mode : RouteMode
  requestedModel : String
  upstreamModel : String
  selector : RouteSelector
  deriving DecidableEq

inductive RouteModelEvidence where
  | required
  | ignored
  deriving DecidableEq

/-- The request is passed on as it came. -/
def RouteMode.verbatim (mode : RouteMode) : Bool := mode = .passthrough || mode = .switch

def routeMatchOrder (route : RouteResolution) : List RouteModelEvidence :=
  if route.mode.verbatim then [.ignored]
  else
    match route.selector with
    | .provider _ => [.ignored]
    | .any | .model => [.required, .ignored]
    | .fuzzy _ => [.required]

def fallbackOrder : Endpoint → List Endpoint
  | .chatCompletions => [.chatCompletions, .responses, .messages]
  | .responses => [.responses, .chatCompletions, .messages]
  | .messages => [.messages, .chatCompletions, .responses]

def routeEndpointOrder (route : RouteResolution) (requested : Endpoint) : List Endpoint :=
  if route.mode.verbatim then [requested] else fallbackOrder requested

def providerMatchesRoute (provider : Provider) (route : RouteResolution)
    (evidence : RouteModelEvidence) (endpoint : Endpoint) : Bool :=
  let supports := fun model =>
    match evidence with
    | .required => provider.supports model endpoint
    | .ignored => provider.hasEndpoint route.upstreamModel endpoint
  match route.selector with
  | .any => supports route.upstreamModel
  | .provider providerId => provider.info.id == providerId && supports route.upstreamModel
  | .model => supports route.upstreamModel
  | .fuzzy candidates => candidates.any supports

/-- `provider_is_allowed`: without a list, every provider is. -/
def providerIsAllowed (providerId : String) (allowedProviders : Option (List String)) : Bool :=
  (allowedProviders.map (·.contains providerId)).getD true

end Tokn.Accounts
