import Tokn.Accounts.LinkedPools
import Tokn.Config.Compiled
import Tokn.Config.Resources
import Tokn.Config.ResourcesProof
import Tokn.Config.Unreachable
import Tokn.Lib.Insertion
import Tokn.Requests.Attempt
import Tokn.Router.Discovery
import Tokn.Router.Mounts
import Tokn.Router.Reload

/-!
# The runtimes of profiles

`build_profile_runtimes` of `crates/router/src/v2/mod.rs`: the accounts are linked, and each profile
that a listener or an API binding reaches gets the services that its route asks for.

A service is what its stages were built from: the pool that its selector draws from, its retries, and,
of a relay, how it finds the provider of a request. The clients for HTTP and the recording of events are
left out, and so are header patches, which no configuration has. Every `bail!` about a reference that is
not there is `missing`, with its text; those of discovery are among them.
-/

namespace Tokn.Router.Runtimes

open Tokn.Accounts (LinkedAccountPool)
open Tokn.Accounts.Link
open Tokn.Config.Profiles (ProfilePlan)
open Tokn.Config.Resources (CompiledResources CompiledRoute fixedProvider)
open Tokn.Policy
open Tokn.Requests (RetryPolicy)

/-! ## Services -/

/-- `ProxyRelayTarget`: how a relay with the credentials of an account finds the provider. -/
inductive ProxyRelayTarget where
  | fixed (provider : String)
  | fromOrigin (origins : BTreeMap String String)
  deriving DecidableEq

/-- The resolving stage of a relay: a `V2ProxyResolve` or a `V2ClientResolve`. -/
inductive RelayResolve where
  | pool (pool : LinkedAccountPool) (target : ProxyRelayTarget)
  | client (fixedProvider : Option String) (allowedOrigins : Option (BTreeMap String String))

inductive ProfileService where
  | managed (pool : LinkedAccountPool) (retry : RetryPolicy)
  | relay (resolve : RelayResolve) (retry : RetryPolicy)

/-- A `ProfileRuntime`; `destination` is that of a relay to a fixed provider. -/
structure ProfileRuntime (ρ τ ε : Type) where
  service : ProfileService
  credentialPolicy : CredentialPolicy
  destination : Option (ProviderDestination ρ τ ε)

/-! ## Reachable profiles -/

section

variable {Addr : Type}

/-- `collect_profile`. -/
def actionProfile : HttpAction → List String
  | .route profile => [profile]
  | .reject => []

/-- The profiles that a listener may route to. -/
def listenerProfiles : ListenerPlan Addr → List String
  | .llmApi _ => []
  | .forwardProxy listener =>
    actionProfile listener.defaultHttpAction ++
      listener.httpBindings.flatMap fun binding => actionProfile binding.action

/-- The profiles that get a runtime. -/
def reachableProfiles (listeners : BTreeMap String (ListenerPlan Addr))
    (profiles : BTreeMap String (ProfilePlan WireIdentity)) : Finset String :=
  (listeners.flatMap fun entry => listenerProfiles entry.2).toFinset ∪
    ((profiles.filter fun entry => entry.2.apiBinding.isSome).map Prod.fst).toFinset

end

section

variable {ρ τ ε : Type} (resources : CompiledResources)

/-! ## Retries -/

def retryPolicy (policyId : String) (safeMethods : Bool) : Except (BuildError ε) RetryPolicy := do
  let policy ← expect ("route references missing retry policy '" ++ policyId ++ "'")
    (resources.retryPolicies.get policyId)
  return {
    maxRetries := policy.maxRetries.toNat
    initialBackoff := policy.initialBackoff.nanos
    replaySafety := if safeMethods then .safeMethods else .buffered }

/-- `managed_retry_policy` and `relay_retry_policy`: a route has a retry of its own kind. -/
def routeRetryPolicy : RouteRetry → Except (BuildError ε) RetryPolicy
  | .never => .ok {}
  | .recoverable policy => retryPolicy resources policy false
  | .safeMethods policy => retryPolicy resources policy true
  | .buffered policy => retryPolicy resources policy false

/-! ## Origins -/

section

variable (graph : ProviderGraph ρ τ ε) (originOf : τ → String)

/-- The origins that a provider claims: its own and that of its target, in their order. -/
def claimedOrigins (provider : ProviderPlan) (destination : ProviderDestination ρ τ ε) :
    List String :=
  (insert (originOf destination.target) provider.origins.toFinset).sort (· ≤ ·)

/-- One provider in the loop of `restricted_provider_origins`. -/
def claimProvider (origins : BTreeMap String String) (providerId : String) :
    Except (BuildError ε) (BTreeMap String String) := do
  let provider ← expect ("route references missing provider '" ++ providerId ++ "'")
    (resources.providers.get providerId)
  let destination ← expect ("route has no target for provider '" ++ providerId ++ "'")
    (graph.destinations.get providerId)
  ((claimedOrigins originOf provider destination).map fun origin => (origin, providerId)).foldlM
    (BTreeMap.insertNew originConflict) origins

def restrictedProviderOrigins (eligible : Finset String) :
    Except (BuildError ε) (BTreeMap String String) :=
  (eligible.sort (· ≤ ·)).foldlM (claimProvider resources graph originOf) []

/-- The providers of an origin relay: those that the route allows and the pool has accounts of. -/
def eligibleProviders (selector : AccountSelector) (pool : LinkedAccountPool) (route : RoutePlan) :
    Finset String :=
  ((resources.providers.map Prod.fst).filter fun id => route.allowsProvider id &&
    ((pool.active ++ pool.fallback).map fun binding => binding.providerId).contains id &&
    isNoneOrContains selector.providers id).toFinset

def providerOrigins (pools : BTreeMap String LinkedAccountPool) (poolId : String)
    (route : RoutePlan) : Except (BuildError ε) (BTreeMap String String) := do
  let pool ← expect ("origin relay references missing account-pool policy '" ++ poolId ++ "'")
    (resources.accountPools.get poolId)
  let linked ← expect ("origin relay references missing account pool '" ++ poolId ++ "'")
    (pools.get poolId)
  restrictedProviderOrigins resources graph originOf
    (eligibleProviders resources pool.selector linked route)

/-! ## Profiles -/

variable (pools : BTreeMap String LinkedAccountPool)

/-- `V2AccountSelector::new`, as the pool that it draws from. -/
def selectorPool (profileId : String) (profile : ProfilePlan WireIdentity) :
    Except (BuildError ε) LinkedAccountPool := do
  let poolId ← expect ("profile '" ++ profileId ++ "' does not use account-pool credentials")
    profile.accountPool
  expect ("route '" ++ profile.route ++ "' references missing account pool '" ++ poolId ++ "'")
    (pools.get poolId)

/-- How a relay with the credentials of an account finds the provider. -/
def buildRelayTarget (poolId : String) (plan : RoutePlan) :
    RelayDestination → Except (BuildError ε) ProxyRelayTarget
  | .fixedProvider provider => .ok (.fixed provider)
  | .original => do
    let origins ← providerOrigins resources graph originOf pools poolId plan
    return .fromOrigin origins

/-- The resolving stage of `build_proxy_relay_service`. -/
def buildRelayResolve (profileId : String) (profile : ProfilePlan WireIdentity)
    (plan : RoutePlan) (route : RelayRoute) : Except (BuildError ε) RelayResolve :=
  match route.credentials with
  | .accountPool => do
    let poolId ← expect ("profile '" ++ profileId ++ "' has no account pool") profile.accountPool
    let target ← buildRelayTarget resources graph originOf pools poolId plan route.destination
    let pool ← expect ("relay route references missing account pool '" ++ poolId ++ "'")
      (pools.get poolId)
    return .pool pool target
  | .client =>
    match route.destination with
    | .fixedProvider provider => .ok (.client (some provider) none)
    | .original => do
      let origins ← plan.providers.mapM fun ids =>
        restrictedProviderOrigins resources graph originOf ids.toFinset
      return .client none origins

/-- The destination of a relay to a fixed provider. -/
def linkedDestination (profileId : String) :
    RelayDestination → Except (BuildError ε) (Option (ProviderDestination ρ τ ε))
  | .original => .ok none
  | .fixedProvider provider => do
    let destination ←
      expect ("profile '" ++ profileId ++ "' references missing provider '" ++ provider ++ "'")
        (graph.destinations.get provider)
    return some destination

def buildProfile (profileId : String) (profile : ProfilePlan WireIdentity) (route : CompiledRoute) :
    Except (BuildError ε) (ProfileRuntime ρ τ ε) :=
  match route.plan with
  | .managed _ => do
    let retry ← routeRetryPolicy resources route.retry
    let pool ← selectorPool pools profileId profile
    return ⟨.managed pool retry, .account, none⟩
  | .relay relay => do
    let retry ← routeRetryPolicy resources route.retry
    let resolve ← buildRelayResolve resources graph originOf pools profileId profile route.plan relay
    let destination ← linkedDestination graph profileId relay.destination
    return ⟨.relay resolve retry, route.plan.credentialPolicy, destination⟩

/-- One profile in the loop of `build_profile_runtimes`. -/
def buildReachable (profileId : String) :
    Except (BuildError ε) (String × ProfileRuntime ρ τ ε) := do
  let profile ← expect ("listener references missing profile '" ++ profileId ++ "'")
    (resources.profiles.get profileId)
  let route ← expect
    ("profile '" ++ profileId ++ "' references missing route '" ++ profile.route ++ "'")
    (resources.routes.get profile.route)
  let runtime ← buildProfile resources graph originOf pools profileId profile route
  return (profileId, runtime)

end

structure LinkedRuntimes (ρ τ ε : Type) where
  graph : ProviderGraph ρ τ ε
  pools : BTreeMap String LinkedAccountPool
  profiles : BTreeMap String (ProfileRuntime ρ τ ε)
  discovery : Discovery.DiscoveryRuntime
  mounts : Api.ApiMounts

def buildProfileRuntimes (registry : Registry ρ τ ε) (parse : TargetSyntax τ) (originOf : τ → String)
    (descriptions : Discovery.Descriptions ρ τ ε) (accounts : List (AccountConfig ρ))
    (reachable : Finset String) : Except (BuildError ε) (LinkedRuntimes ρ τ ε) := do
  let (graph, pools) ←
    (linkAccounts registry parse resources.providers resources.accountPools accounts).mapError
      BuildError.link
  let discovery ←
    Discovery.DiscoveryRuntime.new resources graph pools registry descriptions reachable
  let profiles ← (reachable.sort (· ≤ ·)).mapM (buildReachable resources graph originOf pools)
  let mounts ← (Api.ApiMounts.new resources.profiles).mapError BuildError.mounts
  return ⟨graph, pools, profiles, discovery, mounts⟩

end

end Tokn.Router.Runtimes

/-!
## The runtimes of a compiled configuration

**Theorem (`buildProfileRuntimes_isOk_iff`).** The profiles of a configuration that compiles get their
runtimes exactly if the accounts link and no two providers that one origin relay chooses from claim the
same origin. Nothing that a profile refers to is ever missing.
-/

namespace Tokn.Router.Runtimes

open Tokn.Accounts (LinkedAccountPool)
open Tokn.Accounts.Link
open Tokn.Config.Profiles (ProfilePlan)
open Tokn.Config.Resources
open Tokn.Policy
open Tokn.Requests (RetryPolicy)

variable {ρ τ ε : Type}

/-! ### References -/

/-- The error is about a reference or a mount. -/
def BuildError.IsMissing : BuildError ε → Prop
  | .missing _ => True
  | .mounts _ => True
  | .link _ => False
  | .originConflict _ => False

/-- The computation fails over no reference. -/
abbrev Resolves {α : Type} (x : Except (BuildError ε) α) : Prop :=
  Except.Fails (fun e => ¬ e.IsMissing) x

theorem expect_eq_ok {α : Type} {message : String} {o : Option α} {a : α} :
    expect (ε := ε) message o = .ok a ↔ o = some a := by
  cases o with
  | none => simp [expect]
  | some b => simp [expect]

theorem expect_some {α : Type} (message : String) {o : Option α} {a : α} (h : o = some a) :
    expect (ε := ε) message o = .ok a := expect_eq_ok.mpr h

/-- What is there can be used. -/
theorem expect_bind {α β : Type} (message : String) {o : Option α} {a : α} (h : o = some a)
    (f : α → Except (BuildError ε) β) : (expect message o >>= f) = f a := by
  rw [h]
  rfl

/-- The computation fails over no reference, and succeeds where the condition holds. -/
structure SucceedsIff {α : Type} (x : Except (BuildError ε) α) (condition : Prop) : Prop where
  resolves : Resolves x
  exists_iff : (∃ a, x = .ok a) ↔ condition

theorem succeedsIff_ok {α : Type} (a : α) {condition : Prop} (h : condition) :
    SucceedsIff (.ok a : Except (BuildError ε) α) condition :=
  ⟨Except.fails_ok a, iff_of_true ⟨a, rfl⟩ h⟩

theorem SucceedsIff.bind {α β : Type} {x : Except (BuildError ε) α} {p q : Prop}
    {f : α → Except (BuildError ε) β} (hx : SucceedsIff x p)
    (hf : ∀ a, x = .ok a → SucceedsIff (f a) q) : SucceedsIff (x >>= f) (p ∧ q) := by
  refine ⟨hx.resolves.bind fun a ha => (hf a ha).resolves, ?_⟩
  constructor
  · rintro ⟨b, hb⟩
    obtain ⟨a, ha, hfa⟩ := Except.bind_eq_ok.mp hb
    exact ⟨hx.exists_iff.mp ⟨a, ha⟩, (hf a ha).exists_iff.mp ⟨b, hfa⟩⟩
  · rintro ⟨hp, hq⟩
    obtain ⟨a, ha⟩ := hx.exists_iff.mpr hp
    obtain ⟨b, hb⟩ := (hf a ha).exists_iff.mpr hq
    exact ⟨b, Except.bind_eq_ok.mpr ⟨a, ha, hb⟩⟩

/-- What follows and does not fail leaves the condition as it is. -/
theorem SucceedsIff.map {α β : Type} {x : Except (BuildError ε) α} {p : Prop} (f : α → β)
    (hx : SucceedsIff x p) : SucceedsIff (x >>= fun a => pure (f a)) p := by
  have hbind := hx.bind (q := True) fun a _ => succeedsIff_ok (f a) trivial
  rw [and_true] at hbind
  exact hbind

/-! ### Retries -/

theorem retryPolicy_eq_ok {resources : CompiledResources} {policyId : String} (safeMethods : Bool)
    (h : resources.retryPolicies.contains policyId = true) :
    ∃ policy, retryPolicy (ε := ε) resources policyId safeMethods = .ok policy := by
  obtain ⟨policy, hpolicy⟩ := Option.isSome_iff_exists.mp h
  rw [retryPolicy, expect_bind _ hpolicy]
  exact ⟨_, rfl⟩

theorem routeRetryPolicy_eq_ok {resources : CompiledResources} {retry : RouteRetry}
    (h : ∀ policy, retry.policy = some policy → resources.retryPolicies.contains policy = true) :
    ∃ policy, routeRetryPolicy (ε := ε) resources retry = .ok policy := by
  cases retry with
  | never => exact ⟨_, rfl⟩
  | recoverable policy => exact retryPolicy_eq_ok false (h policy rfl)
  | safeMethods policy => exact retryPolicy_eq_ok true (h policy rfl)
  | buffered policy => exact retryPolicy_eq_ok false (h policy rfl)

/-! ### Origins -/

section

variable {resources : CompiledResources} {graph : ProviderGraph ρ τ ε} {originOf : τ → String}

/-- The provider claims an origin. -/
def Claims (resources : CompiledResources) (graph : ProviderGraph ρ τ ε) (originOf : τ → String)
    (providerId origin : String) : Prop :=
  ∃ provider destination, resources.providers.get providerId = some provider ∧
    graph.destinations.get providerId = some destination ∧
    (origin = originOf destination.target ∨ origin ∈ provider.origins)

/-- The entries that the providers claim, in their order. -/
def claimEntries (resources : CompiledResources) (graph : ProviderGraph ρ τ ε)
    (originOf : τ → String) (providerId : String) : List (String × String) :=
  match resources.providers.get providerId, graph.destinations.get providerId with
  | some provider, some destination =>
    (claimedOrigins originOf provider destination).map fun origin => (origin, providerId)
  | _, _ => []

theorem mem_claimEntries {providerId : String} {entry : String × String} :
    entry ∈ claimEntries resources graph originOf providerId ↔
      entry.2 = providerId ∧ Claims resources graph originOf providerId entry.1 := by
  rw [claimEntries, Claims]
  cases hprovider : resources.providers.get providerId with
  | none => simp
  | some provider =>
    cases hdestination : graph.destinations.get providerId with
    | none => simp
    | some destination =>
      obtain ⟨origin, owner⟩ := entry
      simp only [List.mem_map, claimedOrigins, Finset.mem_sort, Finset.mem_insert, List.mem_toFinset,
        Prod.mk.injEq, Option.some.injEq]
      constructor
      · rintro ⟨o, ho, rfl, rfl⟩
        exact ⟨rfl, provider, destination, rfl, rfl, ho⟩
      · rintro ⟨rfl, _, _, rfl, rfl, ho⟩
        exact ⟨origin, ho, rfl, rfl⟩

theorem nodup_claimEntries (providerId : String) :
    ((claimEntries resources graph originOf providerId).map Prod.fst).Nodup := by
  rw [claimEntries]
  cases resources.providers.get providerId with
  | none => exact List.nodup_nil
  | some provider =>
    cases graph.destinations.get providerId with
    | none => exact List.nodup_nil
    | some destination =>
      dsimp only
      rw [List.map_map]
      have hid : (Prod.fst ∘ fun origin => (origin, providerId)) = (id : String → String) := rfl
      rw [hid, List.map_id]
      exact Finset.sort_nodup _ _

/-- No two of the providers claim one origin. -/
def Apart (resources : CompiledResources) (graph : ProviderGraph ρ τ ε) (originOf : τ → String)
    (eligible : Finset String) : Prop :=
  ∀ p ∈ eligible, ∀ q ∈ eligible, ∀ o, Claims resources graph originOf p o →
    Claims resources graph originOf q o → p = q

/-- The providers are planned and have destinations. -/
def Known (resources : CompiledResources) (graph : ProviderGraph ρ τ ε) (eligible : Finset String) :
    Prop :=
  ∀ id ∈ eligible, resources.providers.contains id = true ∧ graph.destinations.contains id = true

theorem foldlM_congr_mem {α β : Type} {f g : β → α → Except ε β} {l : List α}
    (h : ∀ a ∈ l, ∀ b, f b a = g b a) (b : β) : l.foldlM f b = l.foldlM g b := by
  induction l generalizing b with
  | nil => rfl
  | cons a l ih =>
    rw [List.foldlM_cons, List.foldlM_cons, h a List.mem_cons_self]
    refine bind_congr fun b' => ?_
    exact ih (fun a ha => h a (List.mem_cons_of_mem _ ha)) b'

variable {eligible : Finset String}

/-- The loop enters all the claims, one by one. -/
theorem restrictedProviderOrigins_eq (hknown : Known resources graph eligible) :
    restrictedProviderOrigins resources graph originOf eligible =
      ((eligible.sort (· ≤ ·)).flatMap (claimEntries resources graph originOf)).foldlM
        (BTreeMap.insertNew originConflict) [] := by
  rw [restrictedProviderOrigins, BTreeMap.foldlM_flatMap]
  refine foldlM_congr_mem (fun id hid origins => ?_) []
  obtain ⟨hprovider, hdestination⟩ := hknown id (by simpa using hid)
  obtain ⟨provider, hprovider⟩ := Option.isSome_iff_exists.mp hprovider
  obtain ⟨destination, hdestination⟩ := Option.isSome_iff_exists.mp hdestination
  rw [claimProvider, expect_bind _ hprovider, expect_bind _ hdestination, claimEntries, hprovider,
    hdestination]

theorem nodup_claims_iff :
    (((eligible.sort (· ≤ ·)).flatMap (claimEntries resources graph originOf)).map Prod.fst).Nodup ↔
      Apart resources graph originOf eligible := by
  rw [List.map_flatMap, List.nodup_flatMap]
  have hdisjoint : ∀ p q, List.Disjoint
      ((claimEntries resources graph originOf p).map Prod.fst)
      ((claimEntries resources graph originOf q).map Prod.fst) ↔
        ∀ o, Claims resources graph originOf p o → ¬ Claims resources graph originOf q o := by
    intro p q
    have hmem : ∀ p o, o ∈ (claimEntries resources graph originOf p).map Prod.fst ↔
        Claims resources graph originOf p o := by
      intro p o
      rw [List.mem_map]
      constructor
      · rintro ⟨entry, hentry, rfl⟩
        exact (mem_claimEntries.mp hentry).2
      · intro h
        exact ⟨(o, p), mem_claimEntries.mpr ⟨rfl, h⟩, rfl⟩
    simp only [List.Disjoint, hmem]
  constructor
  · rintro ⟨-, hpairwise⟩ p hp q hq o hclaim hclaim'
    by_contra hne
    have : Std.Symm (Function.onFun List.Disjoint fun p =>
        (claimEntries resources graph originOf p).map Prod.fst) := ⟨fun _ _ h => h.symm⟩
    have hapart := hpairwise.forall (by simpa using hp) (by simpa using hq) hne
    exact (hdisjoint p q).mp hapart o hclaim hclaim'
  · intro h
    refine ⟨fun p _ => nodup_claimEntries p, ?_⟩
    refine (Finset.sort_nodup eligible (· ≤ ·)).imp_of_mem fun {p q} hp hq hne => ?_
    rw [Function.onFun, hdisjoint]
    intro o hclaim hclaim'
    exact hne (h p (by simpa using hp) q (by simpa using hq) o hclaim hclaim')

/-- What the origins are, and when there are any. -/
theorem restrictedProviderOrigins_eq_ok {eligible : Finset String}
    (hknown : Known resources graph eligible) :
    ((∃ origins, restrictedProviderOrigins (ε := ε) resources graph originOf eligible =
        .ok origins) ↔ Apart resources graph originOf eligible) ∧
      ∀ origins, restrictedProviderOrigins (ε := ε) resources graph originOf eligible = .ok origins →
        ∀ o p, origins.get o = some p ↔ p ∈ eligible ∧ Claims resources graph originOf p o := by
  simp only [restrictedProviderOrigins_eq hknown, BTreeMap.foldlM_insertNew, nodup_claims_iff]
  refine ⟨⟨fun h => h.choose_spec.1, fun h => ⟨_, h, rfl⟩⟩, ?_⟩
  rintro origins ⟨hapart, rfl⟩ o p
  rw [BTreeMap.get_extend_nil_eq_some (nodup_claims_iff.mpr hapart), List.mem_flatMap]
  constructor
  · rintro ⟨id, hid, hentry⟩
    obtain ⟨rfl, hclaim⟩ := mem_claimEntries.mp hentry
    exact ⟨by simpa using hid, hclaim⟩
  · rintro ⟨hp, hclaim⟩
    exact ⟨p, by simpa using hp, mem_claimEntries.mpr ⟨rfl, hclaim⟩⟩

theorem resolves_restrictedProviderOrigins (hknown : Known resources graph eligible) :
    Resolves (restrictedProviderOrigins (ε := ε) resources graph originOf eligible) := by
  rw [restrictedProviderOrigins_eq hknown]
  refine Except.Fails.foldlM (fun origins entry => ?_) _ _
  rw [BTreeMap.insertNew]
  cases origins.get entry.1 with
  | none => exact Except.fails_ok _
  | some first => exact Except.fails_error (fun h => h)

end

/-! ### Profiles -/

section

variable {resources : CompiledResources} {registry : Registry ρ τ ε} {parse : TargetSyntax τ}
  {originOf : τ → String} {accounts : List (AccountConfig ρ)} {graph : ProviderGraph ρ τ ε}
  {pools : BTreeMap String LinkedAccountPool}

/-- The provider claims an origin, by its plan or by the target that it is given. -/
def ClaimsOrigin (resources : CompiledResources) (registry : Registry ρ τ ε)
    (parse : TargetSyntax τ) (originOf : τ → String) (providerId origin : String) : Prop :=
  ∃ provider destination, resources.providers.get providerId = some provider ∧
    Destined registry parse providerId provider destination ∧
    (origin = originOf destination.target ∨ origin ∈ provider.origins)

/-- The profile relays to the origin of a request, and the provider is one that it may choose. With the
credentials of an account, that takes an enabled account of the pool; with those of the client, the
route has to restrict its providers. -/
structure Contends (resources : CompiledResources) (accounts : List (AccountConfig ρ))
    (profileId : String) (plan : RoutePlan) (providerId : String) : Prop where
  original : plan.destinationPolicy = .original
  planned : resources.providers.contains providerId = true
  allowed : plan.allowsProvider providerId = true
  account : plan.credentialPolicy = .account →
    ∃ pool, resources.accountPools.get ("profile." ++ profileId) = some pool ∧
      ∃ config ∈ accounts, config.enabled = true ∧ config.provider = providerId ∧
        isNoneOrContains pool.selector.accounts config.id = true
  client : plan.credentialPolicy = .client → plan.providers.isSome = true

/-- What the accounts of compiled resources link to. -/
structure LinkedResources (resources : CompiledResources) (registry : Registry ρ τ ε)
    (parse : TargetSyntax τ) (accounts : List (AccountConfig ρ)) (graph : ProviderGraph ρ τ ε)
    (pools : BTreeMap String LinkedAccountPool) : Prop where
  wellFormed : WellFormed resources
  linked : Linked registry parse resources.providers accounts graph
  pool : ∀ id pool, resources.accountPools.get id = some pool →
    ∃ found, pools.get id = some found ∧
      PoolOf registry resources.providers graph accounts id pool found

theorem linkedResources_of_ok (hwell : WellFormed resources)
    (h : linkAccounts registry parse resources.providers resources.accountPools accounts =
      .ok (graph, pools)) : LinkedResources resources registry parse accounts graph pools := by
  obtain ⟨-, hlinked, hpools⟩ := linkAccounts_eq_ok.mp h
  exact ⟨hwell, hlinked, fun id pool hget => get_linkAccountPools hlinked hpools hget⟩

variable (h : LinkedResources resources registry parse accounts graph pools)
include h

theorem claims_iff {providerId origin : String} :
    Claims resources graph originOf providerId origin ↔
      ClaimsOrigin resources registry parse originOf providerId origin := by
  refine exists_congr fun provider => exists_congr fun destination => and_congr_right fun hplan => ?_
  refine and_congr_left fun _ => ?_
  rw [h.linked.destination]
  constructor
  · rintro ⟨provider', hplan', hdestined⟩
    cases hplan.symm.trans hplan'
    exact hdestined
  · exact fun hdestined => ⟨provider, hplan, hdestined⟩

theorem known_of_planned {eligible : Finset String}
    (hplanned : ∀ id ∈ eligible, resources.providers.contains id = true) :
    Known resources graph eligible := by
  intro id hid
  exact ⟨hplanned id hid, (h.linked.destined id).trans (hplanned id hid)⟩

variable {plan : RoutePlan}

/-- The providers of an origin relay with the credentials of an account. -/
theorem mem_eligibleProviders {profileId : String} {pool : AccountPoolPlan}
    {found : LinkedAccountPool}
    (hpool : resources.accountPools.get ("profile." ++ profileId) = some pool)
    (hfound : PoolOf registry resources.providers graph accounts ("profile." ++ profileId) pool found)
    (horiginal : plan.destinationPolicy = .original) (haccount : plan.credentialPolicy = .account)
    {id : String} :
    id ∈ eligibleProviders resources pool.selector found plan ↔
      Contends resources accounts profileId plan id := by
  have hall : ∀ id, isNoneOrContains pool.selector.providers id = true := by
    intro id
    rw [isNoneOrContains, (h.wellFormed.pools _ _ hpool).providers]
    rfl
  have hkeys : ∀ id, id ∈ resources.providers.map Prod.fst ↔
      resources.providers.contains id = true := by
    intro id
    rw [contains_eq, decide_eq_true_eq]
  have hbinding : ∀ binding, binding ∈ found.active ++ found.fallback ↔
      ∃ tier config, InPool registry resources.providers graph accounts pool.selector tier binding
        config := by
    intro binding
    rw [List.mem_append]
    constructor
    · rintro (hmem | hmem)
      · exact ⟨.active, (hfound.tiers .active binding).mp hmem⟩
      · exact ⟨.fallback, (hfound.tiers .fallback binding).mp hmem⟩
    · rintro ⟨tier, hin⟩
      cases tier with
      | active => exact Or.inl ((hfound.tiers .active binding).mpr hin)
      | fallback => exact Or.inr ((hfound.tiers .fallback binding).mpr hin)
  rw [eligibleProviders, List.mem_toFinset, List.mem_filter, hkeys, Bool.and_eq_true,
    Bool.and_eq_true, List.contains_iff_mem, List.mem_map]
  constructor
  · rintro ⟨hplanned, ⟨hallowed, binding, hmem, rfl⟩, -⟩
    obtain ⟨tier, config, hin⟩ := (hbinding binding).mp hmem
    refine ⟨horiginal, hplanned, hallowed, fun _ => ⟨pool, hpool, config, hin.mem, hin.enabled, ?_,
      hin.named⟩, fun hclient => ?_⟩
    · rw [Accounts.ProviderBinding.providerId, hin.key]
    · cases haccount.symm.trans hclient
  · intro hcontends
    obtain ⟨pool', hpool', config, hmem, henabled, rfl, hnamed⟩ := hcontends.account haccount
    cases hpool.symm.trans hpool'
    obtain ⟨binding, hin⟩ := h.linked.exists_inPool hmem henabled hcontends.planned (hall _) hnamed
    refine ⟨hcontends.planned, ⟨hcontends.allowed, binding, (hbinding binding).mpr ⟨_, _, hin⟩, ?_⟩,
      hall _⟩
    rw [Accounts.ProviderBinding.providerId, hin.key]

/-- No two providers that the profile may choose claim one origin. -/
def ApartFor (resources : CompiledResources) (registry : Registry ρ τ ε) (parse : TargetSyntax τ)
    (originOf : τ → String) (accounts : List (AccountConfig ρ)) (profileId : String)
    (plan : RoutePlan) : Prop :=
  ∀ p q o, Contends resources accounts profileId plan p → Contends resources accounts profileId plan q →
    ClaimsOrigin resources registry parse originOf p o →
    ClaimsOrigin resources registry parse originOf q o → p = q

/-- What the origins of an origin relay say. -/
def OriginsOf (resources : CompiledResources) (registry : Registry ρ τ ε) (parse : TargetSyntax τ)
    (originOf : τ → String) (accounts : List (AccountConfig ρ)) (profileId : String)
    (plan : RoutePlan) (origins : BTreeMap String String) : Prop :=
  ∀ o p, origins.get o = some p ↔ Contends resources accounts profileId plan p ∧
    ClaimsOrigin resources registry parse originOf p o

theorem restricted_spec {profileId : String} {eligible : Finset String}
    (heligible : ∀ id, id ∈ eligible ↔ Contends resources accounts profileId plan id) :
    SucceedsIff (restrictedProviderOrigins (ε := ε) resources graph originOf eligible)
        (ApartFor resources registry parse originOf accounts profileId plan) ∧
      ∀ origins, restrictedProviderOrigins (ε := ε) resources graph originOf eligible = .ok origins →
        OriginsOf resources registry parse originOf accounts profileId plan origins := by
  have hknown := known_of_planned h fun id hid => ((heligible id).mp hid).planned
  obtain ⟨hok, hget⟩ := @restrictedProviderOrigins_eq_ok ρ τ ε resources graph originOf eligible hknown
  refine ⟨⟨resolves_restrictedProviderOrigins hknown, hok.trans ?_⟩, fun origins horigins o p => ?_⟩
  · simp only [Apart, ApartFor, heligible, claims_iff h]
    grind
  · rw [hget origins horigins o p, heligible, claims_iff h]

theorem providerOrigins_spec {profileId : String}
    (hpool : resources.accountPools.contains ("profile." ++ profileId) = true)
    (horiginal : plan.destinationPolicy = .original) (haccount : plan.credentialPolicy = .account) :
    SucceedsIff (providerOrigins resources graph originOf pools ("profile." ++ profileId) plan)
        (ApartFor resources registry parse originOf accounts profileId plan) ∧
      ∀ origins, providerOrigins resources graph originOf pools ("profile." ++ profileId) plan =
        .ok origins → OriginsOf resources registry parse originOf accounts profileId plan origins := by
  obtain ⟨pool, hpool⟩ := Option.isSome_iff_exists.mp hpool
  obtain ⟨found, hfound, hlinked⟩ := h.pool _ pool hpool
  rw [providerOrigins, expect_bind _ hpool, expect_bind _ hfound]
  exact restricted_spec h fun id => mem_eligibleProviders h hpool hlinked horiginal haccount

omit h in
/-- The providers of an origin relay with the credentials of the client. -/
theorem mem_clientProviders {profileId : String} {route : CompiledRoute}
    (hroute : RouteWellFormed resources.providers resources.retryPolicies route) {ids : List String}
    (horiginal : route.plan.destinationPolicy = .original)
    (hclient : route.plan.credentialPolicy = .client) (hproviders : route.plan.providers = some ids)
    (id : String) : id ∈ ids.toFinset ↔ Contends resources accounts profileId route.plan id := by
  rw [List.mem_toFinset]
  constructor
  · intro hid
    refine ⟨horiginal, (hroute.allowed ids hproviders).2.2 id hid, ?_, fun haccount => ?_,
      fun _ => by rw [hproviders]; rfl⟩
    · rw [RoutePlan.allowsProvider, hproviders]
      simpa using hid
    · cases hclient.symm.trans haccount
  · intro hcontends
    have hallowed := hcontends.allowed
    rw [RoutePlan.allowsProvider, hproviders] at hallowed
    simpa using hallowed

/-- The pool of a profile, linked. -/
theorem exists_pool {profileId : String}
    (hpool : resources.accountPools.contains ("profile." ++ profileId) = true) :
    ∃ found, pools.get ("profile." ++ profileId) = some found := by
  obtain ⟨pool, hpool⟩ := Option.isSome_iff_exists.mp hpool
  obtain ⟨found, hfound, -⟩ := h.pool _ pool hpool
  exact ⟨found, hfound⟩

omit h in
theorem apartFor_of_selected {profileId : String}
    (hplan : plan.destinationPolicy = .selectedProvider) :
    ApartFor resources registry parse originOf accounts profileId plan := by
  intro p q o hp
  cases hplan.symm.trans hp.original

section

variable {profileId : String} {profile : ProfilePlan WireIdentity} {route : CompiledRoute}
  (hprofile : ProfileWellFormed resources.providers resources.routes resources.accountPools profileId
    profile route)
  (hroute : RouteWellFormed resources.providers resources.retryPolicies route)
include hprofile hroute

theorem buildRelayResolve_succeeds {relay : RelayRoute} (hplan : route.plan = .relay relay) :
    SucceedsIff
      (buildRelayResolve resources graph originOf pools profileId profile route.plan relay)
      (ApartFor resources registry parse originOf accounts profileId route.plan) := by
  obtain ⟨destination, credentials, providers⟩ := relay
  rw [buildRelayResolve]
  cases credentials with
  | accountPool =>
    have haccount : route.plan.credentialPolicy = .account := by rw [hplan]; rfl
    obtain ⟨hsome, hpool, -⟩ := hprofile.account haccount
    obtain ⟨found, hfound⟩ := exists_pool h hpool
    dsimp only
    rw [expect_bind _ hsome]
    cases destination with
    | fixedProvider provider =>
      have hselected : route.plan.destinationPolicy = .selectedProvider := by rw [hplan]; rfl
      rw [buildRelayTarget, expect_some _ hfound]
      exact succeedsIff_ok _ (apartFor_of_selected hselected)
    | original =>
      have horiginal : route.plan.destinationPolicy = .original := by rw [hplan]; rfl
      rw [buildRelayTarget, expect_some _ hfound]
      refine ((providerOrigins_spec h hpool horiginal haccount).1.map ProxyRelayTarget.fromOrigin).map
        (RelayResolve.pool found)
  | client =>
    cases destination with
    | fixedProvider provider =>
      have hselected : route.plan.destinationPolicy = .selectedProvider := by rw [hplan]; rfl
      exact succeedsIff_ok _ (apartFor_of_selected hselected)
    | original =>
      have horiginal : route.plan.destinationPolicy = .original := by rw [hplan]; rfl
      have hclient : route.plan.credentialPolicy = .client := by rw [hplan]; rfl
      dsimp only
      cases hproviders : route.plan.providers with
      | none =>
        refine succeedsIff_ok _ fun p q o hp => ?_
        have hrestricted := hp.client hclient
        rw [hproviders] at hrestricted
        cases hrestricted
      | some ids =>
        have heligible := @mem_clientProviders ρ resources accounts profileId route hroute ids horiginal
          hclient hproviders
        exact (((restricted_spec h heligible).1).map some).map (RelayResolve.client none)

omit hprofile in
theorem linkedDestination_eq_ok {relay : RelayRoute} (hplan : route.plan = .relay relay) :
    ∃ destination, linkedDestination graph profileId relay.destination = .ok destination := by
  cases hdestination : relay.destination with
  | original => exact ⟨none, rfl⟩
  | fixedProvider provider =>
    have hfixed : fixedProvider route.plan = some provider := by
      rw [hplan, fixedProvider, hdestination]
    have hdestined := (h.linked.destined provider).trans (hroute.fixed provider hfixed).1
    obtain ⟨destination, hget⟩ := Option.isSome_iff_exists.mp hdestined
    rw [linkedDestination, expect_bind _ hget]
    exact ⟨_, rfl⟩

/-- **A profile gets its runtime** where the providers of its origin relay keep apart. -/
theorem buildProfile_succeeds :
    SucceedsIff (buildProfile resources graph originOf pools profileId profile route)
      (ApartFor resources registry parse originOf accounts profileId route.plan) := by
  obtain ⟨retry, hretry⟩ := routeRetryPolicy_eq_ok (ε := ε) hroute.retry
  rw [buildProfile]
  cases hplan : route.plan with
  | managed managed =>
    have haccount : route.plan.credentialPolicy = .account := by rw [hplan]; rfl
    have hselected : route.plan.destinationPolicy = .selectedProvider := by rw [hplan]; rfl
    obtain ⟨hsome, hpool, -⟩ := hprofile.account haccount
    obtain ⟨found, hfound⟩ := exists_pool h hpool
    dsimp only
    rw [hretry, selectorPool, expect_bind _ hsome, expect_some _ hfound, ← hplan]
    exact succeedsIff_ok _ (apartFor_of_selected hselected)
  | relay relay =>
    have hresolve := @buildRelayResolve_succeeds ρ τ ε resources registry parse originOf accounts graph
      pools h profileId profile route hprofile hroute relay hplan
    obtain ⟨destination, hdestination⟩ := linkedDestination_eq_ok h hroute hplan
    rw [hplan] at hresolve
    dsimp only
    rw [hretry, hdestination]
    let runtime (resolve : RelayResolve) : ProfileRuntime ρ τ ε :=
      ⟨.relay resolve retry, (RoutePlan.relay relay).credentialPolicy, destination⟩
    exact hresolve.map runtime

end

theorem buildReachable_succeeds {profileId : String} {profile : ProfilePlan WireIdentity}
    {route : CompiledRoute} (hprofile : resources.profiles.get profileId = some profile)
    (hroute : resources.routes.get profile.route = some route) :
    SucceedsIff (buildReachable resources graph originOf pools profileId)
      (ApartFor resources registry parse originOf accounts profileId route.plan) := by
  obtain ⟨-, route', hwell⟩ := h.wellFormed.profiles profileId profile hprofile
  cases hroute.symm.trans hwell.found
  rw [buildReachable, expect_bind _ hprofile, expect_bind _ hroute]
  exact (buildProfile_succeeds h hwell (h.wellFormed.routes _ _ hroute).2).map fun runtime =>
    (profileId, runtime)

end

/-! ### All profiles -/

theorem SucceedsIff.mapM {α β : Type} {f : α → Except (BuildError ε) β} {p : α → Prop} {l : List α}
    (h : ∀ a ∈ l, SucceedsIff (f a) (p a)) : SucceedsIff (l.mapM f) (∀ a ∈ l, p a) := by
  constructor
  · induction l with
    | nil => exact Except.fails_ok _
    | cons a l ih =>
      rw [List.mapM_cons]
      refine (h a List.mem_cons_self).resolves.bind fun b _ => ?_
      exact (ih fun a ha => h a (List.mem_cons_of_mem _ ha)).bind fun _ _ => Except.fails_ok _
  · rw [exists_mapM_eq_ok]
    exact forall₂_congr fun a ha => (h a ha).exists_iff

theorem exists_mounts {resources : CompiledResources} {url : UpstreamSyntax} {raw : RawResources}
    (h : compileResources url raw = .ok resources) :
    ∃ mounts, Api.ApiMounts.new resources.profiles = .ok mounts := by
  obtain ⟨st, hst, howned⟩ := compileResources_owned h
  obtain ⟨mounts, hok, -⟩ := Api.foldlM_insertMount (Api.nodup_mounts howned) []
    fun claim _ => BTreeMap.get_nil claim.1
  rw [← hst, Api.apiMounts_new_eq]
  exact ⟨mounts, hok⟩

/-! ### Discovery -/

section

variable {resources : CompiledResources} {registry : Registry ρ τ ε} {parse : TargetSyntax τ}
  {accounts : List (AccountConfig ρ)} {graph : ProviderGraph ρ τ ε}
  {pools : BTreeMap String LinkedAccountPool}
  (h : LinkedResources resources registry parse accounts graph pools)
include h

/-- Each provider that is linked has been planned, with a driver that there is. -/
theorem providerMetadata_eq_ok (descriptions : Discovery.Descriptions ρ τ ε)
    {entry : String × ProviderDestination ρ τ ε} (hentry : entry ∈ graph.destinations) :
    ∃ metadata, Discovery.providerMetadata resources graph registry descriptions entry =
      .ok metadata := by
  obtain ⟨providerId, destination⟩ := entry
  have hcontains : graph.destinations.contains providerId = true := by
    rw [contains_eq, decide_eq_true_eq]
    exact List.mem_map_of_mem hentry
  obtain ⟨linked, hlinked⟩ := Option.isSome_iff_exists.mp hcontains
  obtain ⟨plan, hplan, hdestined⟩ := (h.linked.destination providerId linked).mp hlinked
  rw [Discovery.providerMetadata]
  dsimp only
  rw [expect_bind _ hplan, expect_bind _ hdestined.descriptor]
  exact ⟨_, rfl⟩

section

variable {profileId : String} {profile : ProfilePlan WireIdentity} {route : CompiledRoute}
  (hprofile : ProfileWellFormed resources.providers resources.routes resources.accountPools profileId
    profile route)
include hprofile

theorem profilePool_eq_ok (haccount : route.plan.credentialPolicy = .account) :
    ∃ pool, Discovery.profilePool (ε := ε) pools profileId profile = .ok pool := by
  obtain ⟨hsome, hpool, -⟩ := hprofile.account haccount
  obtain ⟨found, hfound⟩ := exists_pool h hpool
  rw [Discovery.profilePool, expect_bind _ hsome, expect_some _ hfound]
  exact ⟨found, rfl⟩

/-- A profile whose requests carry credentials of accounts has a pool of them. -/
theorem profileProviders_eq_ok :
    ∃ providers, Discovery.profileProviders (ε := ε) pools profileId profile route.plan =
      .ok providers := by
  cases hplan : route.plan with
  | managed managed =>
    obtain ⟨pool, hpool⟩ := profilePool_eq_ok (ε := ε) h hprofile (by rw [hplan]; rfl)
    rw [Discovery.profileProviders, hpool]
    exact ⟨_, rfl⟩
  | relay relay =>
    obtain ⟨destination, credentials, providers⟩ := relay
    cases destination with
    | original => exact ⟨[], rfl⟩
    | fixedProvider provider =>
      cases credentials with
      | client => exact ⟨_, rfl⟩
      | accountPool =>
        obtain ⟨pool, hpool⟩ := profilePool_eq_ok (ε := ε) h hprofile (by rw [hplan]; rfl)
        simp only [Discovery.profileProviders, hpool]
        exact ⟨_, rfl⟩

end

theorem profileDiscovery_eq_ok {profileId : String}
    (hcontains : resources.profiles.contains profileId = true) :
    ∃ discovery, Discovery.profileDiscovery (ε := ε) resources pools profileId = .ok discovery := by
  obtain ⟨profile, hget⟩ := Option.isSome_iff_exists.mp hcontains
  obtain ⟨-, route, hprofile⟩ := h.wellFormed.profiles profileId profile hget
  obtain ⟨providers, hproviders⟩ := profileProviders_eq_ok (ε := ε) h hprofile
  rw [Discovery.profileDiscovery, expect_bind _ hget, expect_bind _ hprofile.found, hproviders]
  exact ⟨_, rfl⟩

/-- **Discovery finds what it refers to.** -/
theorem discoveryRuntime_new_eq_ok (descriptions : Discovery.Descriptions ρ τ ε)
    {reachable : Finset String}
    (hreachable : ∀ id ∈ reachable, resources.profiles.contains id = true) :
    ∃ discovery, Discovery.DiscoveryRuntime.new resources graph pools registry descriptions reachable =
      .ok discovery := by
  obtain ⟨metadata, hmetadata⟩ := exists_mapM_eq_ok.mpr fun entry hentry =>
    providerMetadata_eq_ok h descriptions hentry
  obtain ⟨profiles, hprofiles⟩ := exists_mapM_eq_ok.mpr fun id hid =>
    profileDiscovery_eq_ok (ε := ε) h (hreachable id ((Finset.mem_sort (· ≤ ·)).mp hid))
  exact ⟨_, Except.bind_eq_ok.mpr ⟨metadata, hmetadata,
    Except.bind_eq_ok.mpr ⟨profiles, hprofiles, rfl⟩⟩⟩

end

/-! ### Listeners -/

section

variable {env : Config.Syntax} {profiles : List String}

theorem mem_of_compileHttpAction {raw : Config.RawBindingAction} {ownerKind owner field : String}
    {action : HttpAction}
    (h : Config.compileHttpAction raw ownerKind owner field profiles = .ok action) :
    ∀ p ∈ actionProfile action, p ∈ profiles := by
  cases raw with
  | reject =>
    cases h
    simp [actionProfile]
  | route rawProfile =>
    obtain ⟨id, -, h⟩ := Except.bind_eq_ok.mp h
    split at h
    · rename_i hmem
      cases h
      simpa [actionProfile] using hmem
    · cases h

/-- A draft routes to profiles that there are. -/
def DraftResolves (profiles : List String) (draft : Config.ListenerDraft env.SocketAddr) : Prop :=
  ∀ maxBytes action connect caDir, draft.kind = .forwardProxy maxBytes action connect caDir →
    ∀ p ∈ actionProfile action, p ∈ profiles

theorem draftResolves_of_compileDraft {source : String} {st st' : Config.DraftState env}
    {raw : String × Config.RawListener} (h : Config.compileDraft env source profiles st raw = .ok st') :
    ∃ draft, st'.drafts = st.drafts.insert raw.1 draft ∧ DraftResolves profiles draft := by
  obtain ⟨id, listener⟩ := raw
  cases listener with
  | llmApi rawBind rawClientAuth cors allowInsecurePublic =>
    obtain ⟨id', hid, h⟩ := Except.bind_eq_ok.mp h
    obtain rfl := Config.parseId_ok hid
    obtain ⟨cors', -, h⟩ := Except.bind_eq_ok.mp h
    obtain ⟨bind, -, h⟩ := Except.bind_eq_ok.mp h
    obtain ⟨_, -, h⟩ := Except.bind_eq_ok.mp h
    obtain ⟨binds, -, h⟩ := Except.bind_eq_ok.mp h
    cases h
    refine ⟨_, rfl, fun _ _ _ _ hkind => ?_⟩
    cases hkind
  | forwardProxy rawBind rawClientAuth allowInsecurePublic maxBytes rawDefault defaultConnect caDir =>
    obtain ⟨draft, action, caDir', hinsert, haction, hkind⟩ := Config.compileDraft_forwardProxy h
    refine ⟨draft, hinsert, fun _ _ _ _ hsame => ?_⟩
    cases hkind.symm.trans hsame
    exact mem_of_compileHttpAction haction

/-- **The listeners of a configuration route to profiles that there are.** -/
theorem listenerProfiles_of_compileListeners {raw : Config.RawConfig} {source : String}
    {plans : BTreeMap String (ListenerPlan env.SocketAddr)}
    (h : Config.compileListeners env raw source profiles = .ok plans) :
    ∀ entry ∈ plans, ∀ p ∈ listenerProfiles entry.2, p ∈ profiles := by
  obtain ⟨_, _, h⟩ := Except.bind_eq_ok.mp h
  obtain ⟨drafts, hdrafts, h⟩ := Except.bind_eq_ok.mp h
  obtain ⟨bindings, hbindings, h⟩ := Except.bind_eq_ok.mp h
  obtain ⟨rules, -, h⟩ := Except.bind_eq_ok.mp h
  have hdraft : ∀ entry ∈ drafts.drafts, DraftResolves profiles entry.2 := by
    refine Except.foldlM_invariant
      (fun st : Config.DraftState env => ∀ entry ∈ st.drafts, DraftResolves profiles entry.2)
      (by simp) (fun st raw st' hst hstep => ?_) hdrafts
    obtain ⟨draft, hinsert, hresolves⟩ := draftResolves_of_compileDraft hstep
    intro entry hentry
    rw [hinsert] at hentry
    rcases BTreeMap.mem_insert hentry with rfl | hold
    · exact hresolves
    · exact hst entry hold
  intro entry hentry p hp
  obtain ⟨⟨id, draft⟩, hmem, hfinish⟩ := Except.mem_of_mapM_eq_ok h hentry
  have hresolves := hdraft _ hmem
  cases hkind : draft.kind with
  | llmApi cors =>
    rw [Config.finishListener, hkind] at hfinish
    cases hfinish
    cases hp
  | forwardProxy maxBytes action connect caDir =>
    obtain ⟨listener, hplan, hhttp, hdefault, -, -⟩ :=
      Config.finishListener_forwardProxy hkind hfinish
    rw [hplan, listenerProfiles, List.mem_append] at hp
    rcases hp with hp | hp
    · rw [hdefault] at hp
      exact hresolves _ _ _ _ hkind p hp
    · obtain ⟨binding, hbinding, hp⟩ := List.mem_flatMap.mp hp
      rw [hhttp] at hbinding
      obtain ⟨rawBinding, -, -, haction⟩ := Except.exists_of_forall₂
        (Config.plansOf_bindings hbindings id).flip hbinding
      exact mem_of_compileHttpAction haction p hp

end

/-! ### The runtimes -/

theorem contains_of_reachable {Addr : Type} {listeners : BTreeMap String (ListenerPlan Addr)}
    {profiles : BTreeMap String (ProfilePlan WireIdentity)}
    (h : ∀ entry ∈ listeners, ∀ p ∈ listenerProfiles entry.2, p ∈ profiles.map Prod.fst) :
    ∀ id ∈ reachableProfiles listeners profiles, profiles.contains id = true := by
  intro id hid
  rw [contains_eq, decide_eq_true_eq]
  rcases Finset.mem_union.mp hid with hid | hid
  · obtain ⟨entry, hentry, hp⟩ := List.mem_flatMap.mp (List.mem_toFinset.mp hid)
    exact h entry hentry id hp
  · obtain ⟨entry, hentry, rfl⟩ := List.mem_map.mp (List.mem_toFinset.mp hid)
    exact List.mem_map_of_mem (List.mem_of_mem_filter hentry)

section

variable {resources : CompiledResources} {registry : Registry ρ τ ε} {parse : TargetSyntax τ}
  {originOf : τ → String} {accounts : List (AccountConfig ρ)} {reachable : Finset String}

/-- The profiles keep their providers apart. -/
def AllApart (resources : CompiledResources) (registry : Registry ρ τ ε) (parse : TargetSyntax τ)
    (originOf : τ → String) (accounts : List (AccountConfig ρ)) (reachable : Finset String) : Prop :=
  ∀ id ∈ reachable, ∀ profile route, resources.profiles.get id = some profile →
    resources.routes.get profile.route = some route →
    ApartFor resources registry parse originOf accounts id route.plan

theorem mapM_buildReachable_succeeds {graph : ProviderGraph ρ τ ε}
    {pools : BTreeMap String LinkedAccountPool}
    (h : LinkedResources resources registry parse accounts graph pools)
    (hreachable : ∀ id ∈ reachable, resources.profiles.contains id = true) :
    SucceedsIff ((reachable.sort (· ≤ ·)).mapM (buildReachable resources graph originOf pools))
      (AllApart resources registry parse originOf accounts reachable) := by
  have hone : ∀ id ∈ reachable.sort (· ≤ ·), SucceedsIff
      (buildReachable resources graph originOf pools id)
      (∀ profile route, resources.profiles.get id = some profile →
        resources.routes.get profile.route = some route →
        ApartFor resources registry parse originOf accounts id route.plan) := by
    intro id hid
    obtain ⟨profile, hprofile⟩ := Option.isSome_iff_exists.mp (hreachable id (by simpa using hid))
    obtain ⟨-, route, hwell⟩ := h.wellFormed.profiles id profile hprofile
    have hbuild := @buildReachable_succeeds ρ τ ε resources registry parse originOf accounts graph pools
      h id profile route hprofile hwell.found
    refine ⟨hbuild.resolves, hbuild.exists_iff.trans ⟨fun hapart profile' route' hget hget' => ?_,
      fun hall => hall profile route hprofile hwell.found⟩⟩
    cases hprofile.symm.trans hget
    cases hwell.found.symm.trans hget'
    exact hapart
  have hall := SucceedsIff.mapM hone
  refine ⟨hall.resolves, hall.exists_iff.trans ?_⟩
  simp only [Finset.mem_sort, AllApart]

theorem linkAccounts_succeeds :
    SucceedsIff ((linkAccounts registry parse resources.providers resources.accountPools
        accounts).mapError BuildError.link)
      ((linkAccounts registry parse resources.providers resources.accountPools
        accounts).isOk = true) := by
  cases hlink : linkAccounts registry parse resources.providers resources.accountPools accounts with
  | error error =>
    refine ⟨Except.fails_error fun h => h, iff_of_false ?_ (by simp [Except.isOk, Except.toBool])⟩
    rintro ⟨a, ha⟩
    cases ha
  | ok linked => exact succeedsIff_ok linked rfl

/-- **The profiles of a compiled configuration get their runtimes** where the accounts link and the
providers of the origin relays keep apart, and no reference is ever missing. -/
theorem buildProfileRuntimes_isOk_iff {url : UpstreamSyntax} {raw : RawResources}
    (h : compileResources url raw = .ok resources) {env : Config.Syntax} {rawConfig : Config.RawConfig}
    {source : String} {listeners : BTreeMap String (ListenerPlan env.SocketAddr)}
    (hlisteners : Config.compileListeners env rawConfig source (resources.profiles.map Prod.fst) =
      .ok listeners) (registry : Registry ρ τ ε) (parse : TargetSyntax τ) (originOf : τ → String)
    (descriptions : Discovery.Descriptions ρ τ ε) (accounts : List (AccountConfig ρ)) :
    ((buildProfileRuntimes resources registry parse originOf descriptions accounts
        (reachableProfiles listeners resources.profiles)).isOk = true ↔
      (linkAccounts registry parse resources.providers resources.accountPools
        accounts).isOk = true ∧
      AllApart resources registry parse originOf accounts
        (reachableProfiles listeners resources.profiles)) ∧
    ∀ error, buildProfileRuntimes resources registry parse originOf descriptions accounts
      (reachableProfiles listeners resources.profiles) = .error error → ¬ error.IsMissing := by
  have hreachable := contains_of_reachable (listenerProfiles_of_compileListeners hlisteners)
  obtain ⟨mounts, hmounts⟩ := exists_mounts h
  have hbuild : SucceedsIff (buildProfileRuntimes resources registry parse originOf descriptions accounts
      (reachableProfiles listeners resources.profiles))
      ((linkAccounts registry parse resources.providers resources.accountPools
          accounts).isOk = true ∧
        AllApart resources registry parse originOf accounts
          (reachableProfiles listeners resources.profiles)) := by
    refine linkAccounts_succeeds.bind fun linked hlinked => ?_
    have hlink := linkedResources_of_ok (compileResources_wellFormed h)
      (Except.mapError_eq_ok.mp hlinked)
    have hprofiles := @mapM_buildReachable_succeeds ρ τ ε resources registry parse originOf accounts
      (reachableProfiles listeners resources.profiles) linked.1 linked.2 hlink hreachable
    obtain ⟨discovery, hdiscovery⟩ := discoveryRuntime_new_eq_ok hlink descriptions hreachable
    let runtimes (profiles : List (String × ProfileRuntime ρ τ ε)) : LinkedRuntimes ρ τ ε :=
      ⟨linked.1, linked.2, profiles, discovery, mounts⟩
    have hall := hprofiles.map runtimes
    dsimp only
    rw [hdiscovery, hmounts]
    exact hall
  exact ⟨isOk_iff_exists.trans hbuild.exists_iff, hbuild.resolves⟩

/-- Every driver takes every account. -/
def sampleRegistry : Registry Unit String Unit :=
  ["codex", "deepseek", "github-copilot", "llama-cpp", "openai", "opencode-go", "zai"].map fun id =>
    (id, ⟨id, "http://localhost", fun _ => .ok (),
      fun _ _ => .ok (.llamaCpp ⟨id, [], [.chatCompletions], {}⟩)⟩)

/-- A proxy that routes its requests by the profile. -/
def proxyTo (profile : String) : Config.RawConfig where
  listeners :=
    [("proxy", .forwardProxy "127.0.0.1:8080" .none false 1024 (.route profile) .tunnel none)]
  bindings := []
  connectRules := []

/-- Nothing is described, and the catalogue is empty. -/
def sampleDescriptions : Discovery.Descriptions Unit String Unit where
  displayName descriptor := descriptor.id
  endpoints _ := []
  upstreamUrl := id
  authKind _ := .null
  defaultModels _ := []
  catalogueModels _ _ := []

/-- The account of a provider that is not an official one. -/
def sampleAccount : AccountConfig Unit := ⟨"a", "local", true, .active, ()⟩

/-- The managed route of `sampleRaw`. -/
def sampleManaged : ManagedRoute where
  target := ⟨.any, .family [⟨"fast", ["gpt-5", "qwen"]⟩]⟩
  operation := .translateCompatible
  providers := some ["local", "openai"]
  modelScores := [("gpt-*", [("openai", 10)])]
  modelScorePrefixes := [("gpt-", [("openai", 10)])]

/-- The only relay to the origin of a request may choose one provider. -/
theorem allApart_sampleRaw {resources : CompiledResources} {reachable : Finset String}
    (h : resources.routes.map (fun entry => entry.2.plan) =
      [.managed sampleManaged, .relay ⟨.original, .accountPool, some ["local"]⟩]) :
    AllApart resources sampleRegistry (fun url _ => .ok url) id [sampleAccount] reachable := by
  intro id _ profile route _ hroute
  have hmem : route.plan ∈ resources.routes.map fun entry => entry.2.plan :=
    List.mem_map_of_mem (f := fun entry : String × CompiledRoute => entry.2.plan)
      (BTreeMap.mem_of_get hroute)
  rw [h, List.mem_cons, List.mem_singleton] at hmem
  rcases hmem with hmanaged | hrelay
  · rw [hmanaged]
    exact apartFor_of_selected rfl
  · rw [hrelay]
    intro p q _ hp hq _ _
    have hlocal : ∀ {provider}, Contends resources [sampleAccount] id
        (.relay ⟨.original, .accountPool, some ["local"]⟩) provider → provider = "local" :=
      fun hcontends => by simpa [RoutePlan.allowsProvider, RoutePlan.providers] using hcontends.allowed
    rw [hlocal hp, hlocal hq]

theorem buildProfileRuntimes_sampleRaw :
    ∃ resources, compileResources sampleUrl sampleRaw = .ok resources ∧ ∃ listeners,
      Config.compileListeners Config.localSyntax (proxyTo "proxy") "config.toml"
          (resources.profiles.map Prod.fst) = .ok listeners ∧
        (buildProfileRuntimes resources sampleRegistry (fun url _ => .ok url) id sampleDescriptions
          [sampleAccount] (reachableProfiles listeners resources.profiles)).isOk = true := by
  have hok : (compileResources sampleUrl sampleRaw).map (fun r => (r.profiles.map Prod.fst,
      r.routes.map (fun entry => entry.2.plan),
      (linkAccounts sampleRegistry (fun url _ => .ok url) r.providers r.accountPools
        [sampleAccount]).isOk)) =
      .ok (["default", "proxy"],
        [.managed sampleManaged, .relay ⟨.original, .accountPool, some ["local"]⟩], true) := by
    decide +kernel
  obtain ⟨resources, h, hok⟩ := Except.map_eq_ok.mp hok
  obtain ⟨hprofiles, hok⟩ := Prod.mk.inj hok
  obtain ⟨hroutes, hlinked⟩ := Prod.mk.inj hok
  obtain ⟨listeners, hlisteners⟩ := Except.exists_eq_ok
    (show (Config.compileListeners Config.localSyntax (proxyTo "proxy") "config.toml"
      ["default", "proxy"]).isOk = true by decide +kernel)
  rw [← hprofiles] at hlisteners
  exact ⟨resources, h, listeners, hlisteners,
    (buildProfileRuntimes_isOk_iff h hlisteners sampleRegistry _ id sampleDescriptions _).1.mpr
      ⟨hlinked, allApart_sampleRaw hroutes⟩⟩

end

end Tokn.Router.Runtimes
