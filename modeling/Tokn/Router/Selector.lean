import Tokn.Accounts.Selection
import Tokn.Lib.Ascii
import Tokn.Policy.RoutePlan
import Tokn.Policy.Topology
import Tokn.Requests.ProxySend

/-!
# Selection for a managed route

`crates/router/src/v2/selector.rs`. The name of a model stands for candidates, each with a constraint
on the provider and with the evidence that it needs. A pass is a candidate with one kind of evidence
and one operation. The passes are tried in order until the pool has a binding for one.

The account handle of a selection is the binding itself. The pool reads the clock at each pass.
-/

namespace Tokn.Router

open Tokn.Accounts (LinkedAccountPool PoolAcquire PoolRuntime ProviderBinding RequestClass)
open Tokn.Convert (Endpoint)
open Tokn.Policy
open Tokn.Requests (ACCESS_ALLOWED_PROVIDERS_KEY PipelineError RequestEndpoint RunConfig)

/-! ## Errors -/

/-- `PipelineError::permanent(Stage::Resolve, ..)`, with the text of the error. -/
def resolveError (message : String) : PipelineError := ⟨.resolve, message, false, false⟩

def invalidRouteRequest (message : String) : PipelineError :=
  resolveError ("invalid routed request: " ++ message)

def invalidAccessPolicy : PipelineError := resolveError "invalid API-key provider policy"

def missingResolvedEndpoint (requestEndpoint : String) : PipelineError :=
  resolveError ("missing resolved endpoint for request endpoint \x60" ++ requestEndpoint ++ "\x60")

/-- The `Display` of `InvalidIdentifier`. -/
def invalidIdentifierText (e : InvalidIdentifier) : String :=
  "invalid " ++ e.kind ++ " identifier '" ++ e.value ++ "': expected lowercase ASCII letters or " ++
    "digits, optionally separated by '.', '-' or '_'"

/-! ## Candidates -/

inductive DiscoveryEvidence where
  | required
  | preferred
  | ignored
  deriving DecidableEq

def DiscoveryEvidence.order : DiscoveryEvidence → List DiscoveryEvidence
  | .required => [.required]
  | .preferred => [.required, .ignored]
  | .ignored => [.ignored]

inductive ProviderConstraint where
  | any
  | driver (driver : String)
  | provider (provider : String)
  deriving DecidableEq

/-- `matches`. -/
def ProviderConstraint.admits (binding : ProviderBinding) : ProviderConstraint → Bool
  | .any => true
  | .driver id => binding.driverId = id
  | .provider id => binding.providerId = id

structure ModelCandidate where
  model : String
  constraint : ProviderConstraint
  evidence : DiscoveryEvidence
  deriving DecidableEq

def qualificationName : QualificationNamespace → String
  | .driver => "driver"
  | .provider => "provider"

def qualifiedConstraint (ns : QualificationNamespace) (qualifier : String) :
    Except PipelineError ProviderConstraint :=
  match parseIdentifier (qualificationName ns) qualifier with
  | .error e => .error (invalidRouteRequest (invalidIdentifierText e))
  | .ok id =>
    match ns with
    | .driver => .ok (.driver id)
    | .provider => .ok (.provider id)

/-- A model that is taken by its own name. -/
def concreteCandidate (route : ManagedRoute) (model : String) : ModelCandidate where
  model := model
  constraint := .any
  evidence :=
    match route.target.provider with
    | .fixed _ => .ignored
    | .any => .preferred

def modelCandidates (route : ManagedRoute) (requestedModel : String) :
    Except PipelineError (List ModelCandidate) :=
  match route.target.model with
  | .capability => .ok [concreteCandidate route requestedModel]
  | .qualified ns =>
    match Ascii.splitOnce '/' requestedModel.toList with
    | none =>
      .error (invalidRouteRequest
        (qualificationName ns ++ "-qualified model must use '<qualifier>/<model>'"))
    | some (qualifier, model) =>
      if model = [] ∨ Str.trimChars model ≠ model then
        .error (invalidRouteRequest "qualified model name is empty or non-canonical")
      else do
        let constraint ← qualifiedConstraint ns (String.ofList qualifier)
        return [{ model := String.ofList model, constraint := constraint, evidence := .ignored }]
  | .family families =>
    match families.find? fun family => family.name = requestedModel with
    | none => .ok [concreteCandidate route requestedModel]
    | some family =>
      .ok (family.members.map fun model =>
        { model := model, constraint := .any, evidence := .required })

def BUILTIN_OPERATION_ORDER : List Endpoint := [.chatCompletions, .responses, .messages]

def operationCandidates (policy : OperationPolicy) (requested : Endpoint) : List Endpoint :=
  if policy = .preserve then [requested]
  else requested :: BUILTIN_OPERATION_ORDER.filter fun operation => operation ≠ requested

/-! ## Bindings -/

/-- `managed_binding_matches`. There is no pass for preferred evidence. -/
def managedBindingMatches (route : ManagedRoute) (candidate : ModelCandidate)
    (evidence : DiscoveryEvidence) (operation : Endpoint) (binding : ProviderBinding) : Bool :=
  (match route.target.provider with
    | .any => true
    | .fixed provider => binding.providerId = provider) &&
  candidate.constraint.admits binding &&
  match evidence with
  | .required => binding.driver.supports candidate.model operation
  | .preferred => false
  | .ignored => binding.driver.hasEndpoint candidate.model operation

def modelProviderScore (route : ManagedRoute) (candidate : ModelCandidate)
    (binding : ProviderBinding) : Int :=
  match route.target.model with
  | .qualified _ => 0
  | _ => route.providerScore candidate.model binding.providerId

def providerAllowed (providerId : String) (allowed : Option (List String)) : Bool :=
  allowed.all fun providers => providers.contains providerId

/-! ## Contexts -/

/-- What the selection reads of a `PipelineCtx`. -/
structure PipelineCtx where
  requestEndpoint : RequestEndpoint
  config : RunConfig

/-- What it reads of the `Extracted`. -/
structure Extracted where
  model : String
  sessionId : Option String

def allowedProviderIds (ctx : PipelineCtx) : Except PipelineError (Option (List String)) :=
  match ctx.config.get ACCESS_ALLOWED_PROVIDERS_KEY with
  | none => .ok none
  | some value =>
    match value.asArray with
    | none => .error invalidAccessPolicy
    | some values =>
      match values.mapM Value.asStr with
      | none => .error invalidAccessPolicy
      | some providers => .ok (some providers)

def resolvedEndpoint (ctx : PipelineCtx) : Except PipelineError Endpoint :=
  match ctx.requestEndpoint with
  | .known endpoint => .ok endpoint
  | .customPath label => .error (missingResolvedEndpoint label)

/-! ## Selection -/

inductive SelectorOutcome where
  | selected (accountId providerId : String) (upstreamEndpoint : Option Endpoint)
      (upstreamModel : String) (binding : ProviderBinding)
  | noAccount
  | providerAccessDenied

/-- `selected`. -/
def selectedOutcome (binding : ProviderBinding) (operation : Endpoint) (model : String) :
    SelectorOutcome :=
  .selected binding.key.accountId binding.driver.info.id (some operation) model binding

/-- A candidate with one kind of evidence and one operation. -/
structure Pass where
  candidate : ModelCandidate
  evidence : DiscoveryEvidence
  operation : Endpoint
  deriving DecidableEq

/-- The passes in the order of the three loops. -/
def passes (candidates : List ModelCandidate) (operations : List Endpoint) : List Pass :=
  candidates.flatMap fun candidate =>
    candidate.evidence.order.flatMap fun evidence =>
      operations.map fun operation => ⟨candidate, evidence, operation⟩

/-- What the loops have found so far. -/
structure Found where
  matchingBindingExists : Bool := false
  allowedMatchingBindingExists : Bool := false
  deriving DecidableEq

def managedUnavailableOutcome (found : Found) : SelectorOutcome :=
  if found.matchingBindingExists && !found.allowedMatchingBindingExists then .providerAccessDenied
  else .noAccount

section

variable (pool : LinkedAccountPool) (route : ManagedRoute) (allowed : Option (List String))

/-- The binding is one that the route allows and that matches a pass. -/
def Pass.fits (pass : Pass) (binding : ProviderBinding) : Bool :=
  (RoutePlan.managed route).allowsProvider binding.providerId &&
    managedBindingMatches route pass.candidate pass.evidence pass.operation binding

/-- What a pass asks the pool for. -/
def Pass.request (pass : Pass) : RequestClass where
  eligible binding := pass.fits route binding && providerAllowed binding.providerId allowed
  rank := modelProviderScore route pass.candidate

/-- One binding in the innermost loop. -/
def observeBinding (pass : Pass) (found : Found) (binding : ProviderBinding) : Found :=
  if pass.fits route binding then
    { matchingBindingExists := true
      allowedMatchingBindingExists :=
        found.allowedMatchingBindingExists || providerAllowed binding.providerId allowed }
  else found

/-- The loops of `select_managed`, with the readings of the clock. -/
def selectPasses (sessionId : Option String) :
    (Nat → Nat) → List Pass → Found → PoolRuntime → SelectorOutcome × PoolRuntime
  | _, [], found, st => (managedUnavailableOutcome found, st)
  | now, pass :: rest, found, st =>
    let found := (pool.active ++ pool.fallback).foldl (observeBinding route allowed pass) found
    let (reply, st) := st.acquireRanked pool (now 0) sessionId (pass.request route allowed)
    match reply with
    | .selected binding => (selectedOutcome binding pass.operation pass.candidate.model, st)
    | .coolingDown _ | .noEligible => selectPasses sessionId (fun n => now (n + 1)) rest found st

end

def selectManaged (pool : LinkedAccountPool) (route : ManagedRoute) (ctx : PipelineCtx)
    (extracted : Extracted) (now : Nat → Nat) (st : PoolRuntime) :
    Except PipelineError SelectorOutcome × PoolRuntime :=
  let arguments := do
    let endpoint ← resolvedEndpoint ctx
    let allowed ← allowedProviderIds ctx
    let candidates ← modelCandidates route extracted.model
    return (endpoint, allowed, candidates)
  match arguments with
  | .error e => (.error e, st)
  | .ok (endpoint, allowed, candidates) =>
    let (outcome, st) := selectPasses pool route allowed extracted.sessionId now
      (passes candidates (operationCandidates route.operation endpoint)) {} st
    (.ok outcome, st)

end Tokn.Router
