import Tokn.Lib.Components
import Tokn.Router.ProfileRuntimes
import Tokn.Router.Resolve
import Tokn.Router.SelectorProof

/-!
# Accounts of requests

**Theorem (`resolve_entitled`).** Whatever has happened to a gateway, a request that gets an account gets
one that is enabled, that its profile names and that is not cooling, of a provider that the route and the
key allow: the one that the route is fixed to, or the owner of the origin. A relay finds an account
whenever there is one.

**Theorem (`run_isolated`).** The pool of a profile is as the steps of the profile alone leave it.
-/

namespace Tokn.Router.Runtimes

open Tokn.Accounts (Clock LinkedAccountPool PoolAcquire PoolRuntime ProviderBinding)
open Tokn.Accounts.Acquisition (Outcome Regular)
open Tokn.Accounts.Link
open Tokn.Config.Profiles (ProfilePlan)
open Tokn.Config.Resources
open Tokn.Except (rejectIf bind_eq_ok map_eq_ok)
open Tokn.Policy
open Tokn.Requests (PipelineError SendOutcome)
open Tokn.Router.AccountRelay (V2_PROXY_ORIGIN_KEY)

variable {ρ τ ε : Type}

/-! ## Regular states -/

section

variable {pool : LinkedAccountPool} {ctx : PipelineCtx} {extracted : Extracted} {st : PoolRuntime}

theorem regular_acquireRanked (h : Regular st) (now : Nat) (sessionId : Option String)
    (request : Accounts.RequestClass) : Regular (st.acquireRanked pool now sessionId request).2 :=
  h.step pool ⟨0⟩ (.acquire now sessionId request)

theorem regular_selectPasses {route : ManagedRoute} {allowed : Option (List String)}
    (sessionId : Option String) (ps : List Pass) (now : Nat → Nat) (found : Found) (h : Regular st) :
    Regular (selectPasses pool route allowed sessionId now ps found st).2 := by
  induction ps generalizing now found st with
  | nil => exact h
  | cons pass ps ih =>
    have hnext : Regular (st.acquireRanked pool (now 0) sessionId (pass.request route allowed)).2 :=
      regular_acquireRanked h _ _ _
    rw [selectPasses]
    generalize st.acquireRanked pool (now 0) sessionId (pass.request route allowed) = result at hnext ⊢
    obtain ⟨reply, next⟩ := result
    cases reply with
    | selected binding => exact hnext
    | coolingDown retryAt => exact ih _ _ hnext
    | noEligible => exact ih _ _ hnext

theorem regular_selectManaged {route : ManagedRoute} {now : Nat → Nat} (h : Regular st) :
    Regular (selectManaged pool route ctx extracted now st).2 := by
  rw [selectManaged]
  split
  · exact h
  · exact regular_selectPasses _ _ _ _ h

theorem regular_selectRelay {route : RelayRoute} {now : Nat} (h : Regular st) :
    Regular (selectRelay pool ctx extracted route now st).2 := by
  rw [selectRelay]
  cases resolvedEndpoint ctx with
  | error e => exact h
  | ok endpoint =>
    cases route.destination with
    | original => exact h
    | fixedProvider provider =>
      cases allowedProviderIds ctx with
      | error e => exact h
      | ok allowed =>
        have hnext : Regular (acquire pool now extracted.sessionId
            (fun binding => binding.providerId = provider) st).2 := regular_acquireRanked h _ _ _
        dsimp only
        generalize acquire pool now extracted.sessionId
          (fun binding => decide (binding.providerId = provider)) st = result at hnext ⊢
        obtain ⟨reply, next⟩ := result
        split_ifs
        · exact h
        · cases reply <;> exact hnext

theorem regular_select {plan : RoutePlan} {now : Nat → Nat} (h : Regular st) :
    Regular (select pool ctx extracted plan now st).2 := by
  cases plan with
  | managed route => exact regular_selectManaged h
  | relay route => exact regular_selectRelay h

theorem regular_proxyResolve {target : ProxyRelayTarget} {now : Nat} (h : Regular st) :
    Regular (proxyResolve pool ctx extracted target now st).2 := by
  rw [proxyResolve]
  split
  · exact h
  · rename_i provider _
    have hnext : Regular (acquire pool now extracted.sessionId
        (fun binding => binding.providerId = provider) st).2 := regular_acquireRanked h _ _ _
    dsimp only
    generalize acquire pool now extracted.sessionId
      (fun binding => decide (binding.providerId = provider)) st = result at hnext ⊢
    obtain ⟨reply, next⟩ := result
    cases reply <;> exact hnext

theorem regular_recordReport (clock : Clock) (sessionId : Option String) (handle : ResolvedHandle)
    (report : Option Report) (now : Nat) (h : Regular st) :
    Regular (recordReport pool clock sessionId handle report now st) := by
  cases handle with
  | stub accountId providerId => exact h
  | bound binding =>
    cases report with
    | none => exact h
    | some report =>
      by_cases hmem : (pool.bindings.get binding.key).isSome = true
      · simp only [recordReport, if_pos hmem]
        cases report with
        | success => exact h.step pool clock (.success now sessionId binding.key)
        | failure => exact h.step pool clock (.failure now binding.key)
      · simp only [recordReport, if_neg hmem]
        exact h

end

/-- The states of all pools are well formed. -/
def AllRegular (st : PoolStates) : Prop := ∀ id, Regular (st id)

theorem AllRegular.update {st : PoolStates} (h : AllRegular st) (id : String) {state : PoolRuntime}
    (hstate : Regular state) : AllRegular (Function.update st id state) := by
  intro other
  by_cases hother : other = id
  · rw [hother, Function.update_self]
    exact hstate
  · rw [Function.update_of_ne hother]
    exact h other

theorem allRegular_resolveWith {st : PoolStates} (h : AllRegular st) (plan : RoutePlan)
    (service : ProfileService) (transport : Transport) (ctx : PipelineCtx) (extracted : Extracted)
    (now : Nat → Nat) : AllRegular (resolveWith plan service transport ctx extracted now st).2 := by
  by_cases hnone : transport = .api ∧ plan.destinationPolicy = .original
  · simp only [resolveWith, if_pos hnone]
    exact h
  · simp only [resolveWith, if_neg hnone]
    cases service with
    | managed pool retry => exact h.update _ (regular_select (h _))
    | relay resolve retry =>
      cases resolve with
      | pool pool target =>
        cases transport with
        | api => exact h.update _ (regular_select (h _))
        | proxy => exact h.update _ (regular_proxyResolve (h _))
      | client fixedProvider allowedOrigins => cases transport <;> exact h

theorem allRegular_recordWith {st : PoolStates} (h : AllRegular st) (service : ProfileService)
    (transport : Transport) (clock : Clock) (sessionId : Option String) (handle : ResolvedHandle)
    (outcome : SendOutcome) (now : Nat) :
    AllRegular (recordWith service transport clock sessionId handle outcome now st) := by
  cases service with
  | managed pool retry => exact h.update _ (regular_recordReport _ _ _ _ _ (h _))
  | relay resolve retry =>
    cases resolve with
    | pool pool target =>
      cases transport <;> exact h.update _ (regular_recordReport _ _ _ _ _ (h _))
    | client fixedProvider allowedOrigins => exact h

theorem allRegular_buildAccountPoolRuntimes (pools : BTreeMap String LinkedAccountPool) :
    AllRegular (buildAccountPoolRuntimes pools) := by
  intro id
  rw [buildAccountPoolRuntimes]
  cases pools.get id with
  | some pool => exact Accounts.Acquisition.regular_runtime pool
  | none =>
    refine ⟨List.nodup_nil, fun a ha => ?_⟩
    cases ha

theorem allRegular_step {gateway : Gateway ρ τ ε} {st : PoolStates} (h : AllRegular st) (step : Step) :
    AllRegular (gateway.step st step) := by
  cases step with
  | resolve profileId transport ctx extracted now =>
    rw [Gateway.step, Gateway.resolve]
    split
    · exact h
    · exact allRegular_resolveWith h _ _ _ _ _ _
  | sent profileId transport sessionId handle outcome now =>
    rw [Gateway.step]
    split
    · exact h
    · exact allRegular_recordWith h _ _ _ _ _ _ _

/-- **The states stay well formed.** -/
theorem allRegular_run (gateway : Gateway ρ τ ε) (steps : List Step) :
    AllRegular (gateway.run steps) := by
  induction steps using List.reverseRecOn with
  | nil => exact allRegular_buildAccountPoolRuntimes _
  | append_singleton steps step ih =>
    rw [Gateway.run, List.foldl_concat]
    exact allRegular_step ih step

/-! ## Linked services -/

section

variable (resources : CompiledResources) (registry : Registry ρ τ ε) (parse : TargetSyntax τ)
  (originOf : τ → String) (accounts : List (AccountConfig ρ))

/-- The linked pool of a profile. -/
def PoolFor (graph : ProviderGraph ρ τ ε) (profileId : String) (pool : LinkedAccountPool) : Prop :=
  ∃ plan, resources.accountPools.get ("profile." ++ profileId) = some plan ∧
    PoolOf registry resources.providers graph accounts ("profile." ++ profileId) plan pool

/-- The target of a relay is the one of its route. -/
def TargetOf (profileId : String) (plan : RoutePlan) : ProxyRelayTarget → Prop
  | .fixed provider =>
    fixedProvider plan = some provider ∧ plan.destinationPolicy = .selectedProvider
  | .fromOrigin origins =>
    fixedProvider plan = none ∧ plan.destinationPolicy = .original ∧
      OriginsOf resources registry parse originOf accounts profileId plan origins

/-- A service is what its route asks for. -/
def ServiceFor (graph : ProviderGraph ρ τ ε) (profileId : String) (plan : RoutePlan) :
    ProfileService → Prop
  | .managed pool _ =>
    (∃ route, plan = .managed route) ∧ PoolFor resources registry accounts graph profileId pool
  | .relay (.pool pool target) _ =>
    (∃ route, plan = .relay route) ∧ plan.credentialPolicy = .account ∧
      PoolFor resources registry accounts graph profileId pool ∧
      TargetOf resources registry parse originOf accounts profileId plan target
  | .relay (.client fixed origins) _ =>
    plan.credentialPolicy = .client ∧ fixed = fixedProvider plan ∧
      (origins.isSome = true ↔ plan.destinationPolicy = .original ∧ plan.providers.isSome = true) ∧
      ∀ found, origins = some found →
        OriginsOf resources registry parse originOf accounts profileId plan found

end

section

variable {resources : CompiledResources} {registry : Registry ρ τ ε} {parse : TargetSyntax τ}
  {originOf : τ → String} {accounts : List (AccountConfig ρ)} {graph : ProviderGraph ρ τ ε}
  {pools : BTreeMap String LinkedAccountPool} {profileId : String}
  {profile : ProfilePlan WireIdentity} {route : CompiledRoute}

/-- The pool of a profile with the credentials of an account. -/
theorem poolFor_of_get (h : LinkedResources resources registry parse accounts graph pools)
    (hpool : resources.accountPools.contains ("profile." ++ profileId) = true)
    {pool : LinkedAccountPool} (hget : pools.get ("profile." ++ profileId) = some pool) :
    PoolFor resources registry accounts graph profileId pool := by
  obtain ⟨plan, hplan⟩ := Option.isSome_iff_exists.mp hpool
  obtain ⟨found, hfound, hlinked⟩ := h.pool _ plan hplan
  cases hfound.symm.trans hget
  exact ⟨plan, hplan, hlinked⟩

variable (h : LinkedResources resources registry parse accounts graph pools)
  (hprofile : ProfileWellFormed resources.providers resources.routes resources.accountPools profileId
    profile route)
include h hprofile

/-- What the resolving stage of a relay is built from. -/
theorem serviceFor_of_buildRelayResolve
    (hroute : RouteWellFormed resources.providers resources.retryPolicies route) {relay : RelayRoute}
    (hplan : route.plan = .relay relay) {resolve : RelayResolve}
    (hresolve : buildRelayResolve resources graph originOf pools profileId profile route.plan relay =
      .ok resolve) (retry : Requests.RetryPolicy) :
    ServiceFor resources registry parse originOf accounts graph profileId route.plan
      (.relay resolve retry) := by
  obtain ⟨destination, credentials, providers⟩ := relay
  rw [buildRelayResolve] at hresolve
  cases credentials with
  | accountPool =>
    have haccount : route.plan.credentialPolicy = .account := by rw [hplan]; rfl
    obtain ⟨hsome, hcontains, -⟩ := hprofile.account haccount
    dsimp only at hresolve
    rw [expect_bind _ hsome] at hresolve
    obtain ⟨target, htarget, hresolve⟩ := bind_eq_ok.mp hresolve
    obtain ⟨pool, hpool, hresolve⟩ := bind_eq_ok.mp hresolve
    cases hresolve
    refine ⟨⟨_, hplan⟩, haccount, poolFor_of_get h hcontains (expect_eq_ok.mp hpool), ?_⟩
    cases destination with
    | fixedProvider provider =>
      rw [buildRelayTarget] at htarget
      cases htarget
      rw [TargetOf, hplan]
      exact ⟨rfl, rfl⟩
    | original =>
      have horiginal : route.plan.destinationPolicy = .original := by rw [hplan]; rfl
      rw [buildRelayTarget] at htarget
      obtain ⟨origins, horigins, htarget⟩ := bind_eq_ok.mp htarget
      cases htarget
      refine ⟨by rw [hplan]; rfl, horiginal, ?_⟩
      exact (providerOrigins_spec h hcontains horiginal haccount).2 origins horigins
  | client =>
    have hclient : route.plan.credentialPolicy = .client := by rw [hplan]; rfl
    cases destination with
    | fixedProvider provider =>
      cases hresolve
      refine ⟨hclient, by rw [hplan]; rfl, ?_, fun found hfound => ?_⟩
      · simp [hplan, RoutePlan.destinationPolicy]
      · cases hfound
    | original =>
      have horiginal : route.plan.destinationPolicy = .original := by rw [hplan]; rfl
      obtain ⟨origins, horigins, hresolve⟩ := bind_eq_ok.mp hresolve
      cases hresolve
      refine ⟨hclient, by rw [hplan]; rfl, ?_⟩
      cases hproviders : route.plan.providers with
      | none =>
        rw [hproviders] at horigins
        cases horigins
        exact ⟨by simp, fun found hfound => by cases hfound⟩
      | some ids =>
        rw [hproviders] at horigins
        obtain ⟨found, hfound, horigins⟩ := bind_eq_ok.mp horigins
        cases horigins
        refine ⟨by simp [horiginal], fun origins hsome => ?_⟩
        cases hsome
        exact (restricted_spec h (@mem_clientProviders ρ resources accounts profileId route hroute ids
          horiginal hclient hproviders)).2 found hfound

theorem serviceFor_of_buildProfile
    (hroute : RouteWellFormed resources.providers resources.retryPolicies route)
    {runtime : ProfileRuntime ρ τ ε}
    (hbuild : buildProfile resources graph originOf pools profileId profile route = .ok runtime) :
    ServiceFor resources registry parse originOf accounts graph profileId route.plan
      runtime.service := by
  rw [buildProfile] at hbuild
  cases hplan : route.plan with
  | managed managed =>
    simp only [hplan] at hbuild
    obtain ⟨retry, -, hbuild⟩ := bind_eq_ok.mp hbuild
    obtain ⟨pool, hpool, hbuild⟩ := bind_eq_ok.mp hbuild
    cases hbuild
    obtain ⟨hsome, hcontains, -⟩ := hprofile.account (by rw [hplan]; rfl)
    rw [selectorPool, expect_bind _ hsome, expect_eq_ok] at hpool
    exact ⟨⟨managed, rfl⟩, poolFor_of_get h hcontains hpool⟩
  | relay relay =>
    simp only [hplan] at hbuild
    obtain ⟨retry, -, hbuild⟩ := bind_eq_ok.mp hbuild
    obtain ⟨resolve, hresolve, hbuild⟩ := bind_eq_ok.mp hbuild
    obtain ⟨destination, -, hbuild⟩ := bind_eq_ok.mp hbuild
    cases hbuild
    rw [← hplan] at hresolve
    rw [← hplan]
    exact serviceFor_of_buildRelayResolve h hprofile hroute hplan hresolve retry

end

/-! ## Built gateways -/

/-- A gateway that has been built. -/
structure Built (registry : Registry ρ τ ε) (parse : TargetSyntax τ) (originOf : τ → String)
    (accounts : List (AccountConfig ρ)) (gateway : Gateway ρ τ ε) : Prop where
  linked : LinkedResources gateway.resources registry parse accounts gateway.runtimes.graph
    gateway.runtimes.pools
  service : ∀ profileId plan service, gateway.serviceOf profileId = some (plan, service) →
    ServiceFor gateway.resources registry parse originOf accounts gateway.runtimes.graph profileId plan
        service ∧
      ∃ route, RouteWellFormed gateway.resources.providers gateway.resources.retryPolicies route ∧
        route.plan = plan

theorem built_of_buildProfileRuntimes {url : UpstreamSyntax} {raw : RawResources}
    {resources : CompiledResources} (h : compileResources url raw = .ok resources)
    {registry : Registry ρ τ ε} {parse : TargetSyntax τ} {originOf : τ → String}
    {descriptions : Discovery.Descriptions ρ τ ε} {accounts : List (AccountConfig ρ)}
    {reachable : Finset String} {runtimes : LinkedRuntimes ρ τ ε}
    (hbuild : buildProfileRuntimes resources registry parse originOf descriptions accounts reachable =
      .ok runtimes)
    (clock : Clock) : Built registry parse originOf accounts ⟨resources, runtimes, clock⟩ := by
  have hwell := compileResources_wellFormed h
  obtain ⟨⟨graph, pools⟩, hlink, hbuild⟩ := bind_eq_ok.mp hbuild
  obtain ⟨discovery, -, hbuild⟩ := bind_eq_ok.mp hbuild
  obtain ⟨profiles, hprofiles, hbuild⟩ := bind_eq_ok.mp hbuild
  obtain ⟨mounts, -, hbuild⟩ := bind_eq_ok.mp hbuild
  cases hbuild
  have hlinked := linkedResources_of_ok hwell (Except.mapError_eq_ok.mp hlink)
  refine ⟨hlinked, fun profileId plan service hservice => ?_⟩
  obtain ⟨profile, hprofile, hservice⟩ := Option.bind_eq_some_iff.mp hservice
  obtain ⟨route, hroute, hservice⟩ := Option.bind_eq_some_iff.mp hservice
  obtain ⟨runtime, hruntime, hservice⟩ := Option.bind_eq_some_iff.mp hservice
  cases hservice
  obtain ⟨id, -, hbuilt⟩ := Except.mem_of_mapM_eq_ok hprofiles (BTreeMap.mem_of_get hruntime)
  obtain ⟨profile', hprofile', hbuilt⟩ := bind_eq_ok.mp hbuilt
  obtain ⟨route', hroute', hbuilt⟩ := bind_eq_ok.mp hbuilt
  obtain ⟨runtime', hbuilt, hpair⟩ := bind_eq_ok.mp hbuilt
  cases hpair
  rw [expect_eq_ok] at hprofile' hroute'
  cases hprofile.symm.trans hprofile'
  cases hroute.symm.trans hroute'
  obtain ⟨-, route'', hprofileWell⟩ := hwell.profiles profileId profile hprofile
  cases hroute.symm.trans hprofileWell.found
  have hrouteWell := (hwell.routes _ _ hroute).2
  exact ⟨serviceFor_of_buildProfile hlinked hprofileWell hrouteWell hbuilt, route, hrouteWell, rfl⟩

/-! ## Isolation -/

theorem poolFor_id {resources : CompiledResources} {registry : Registry ρ τ ε}
    {accounts : List (AccountConfig ρ)} {graph : ProviderGraph ρ τ ε} {profileId : String}
    {pool : LinkedAccountPool} (h : PoolFor resources registry accounts graph profileId pool) :
    pool.id = "profile." ++ profileId := by
  obtain ⟨plan, -, hpool⟩ := h
  exact hpool.named

section

variable {registry : Registry ρ τ ε} {parse : TargetSyntax τ} {originOf : τ → String}
  {accounts : List (AccountConfig ρ)} {gateway : Gateway ρ τ ε}

/-- A service looks at one pool, and changes no other. -/
theorem actsOn_resolveWith {resources : CompiledResources} {graph : ProviderGraph ρ τ ε}
    {profileId : String} {plan : RoutePlan} {service : ProfileService}
    (h : ServiceFor resources registry parse originOf accounts graph profileId plan service)
    (transport : Transport) (ctx : PipelineCtx) (extracted : Extracted) (now : Nat → Nat) :
    Components.ActsOn (fun st => (resolveWith plan service transport ctx extracted now st).2)
        ("profile." ++ profileId) ∧
      ∀ st st' : PoolStates, st ("profile." ++ profileId) = st' ("profile." ++ profileId) →
        (resolveWith plan service transport ctx extracted now st).1 =
          (resolveWith plan service transport ctx extracted now st').1 := by
  by_cases hnone : transport = .api ∧ plan.destinationPolicy = .original
  · simp only [resolveWith, if_pos hnone]
    exact ⟨.id _, fun _ _ _ => trivial⟩
  · simp only [resolveWith, if_neg hnone]
    cases service with
    | managed pool retry =>
      rw [← poolFor_id h.2]
      exact ⟨Components.actsOn_update _ fun st => (select pool ctx extracted plan now st).2,
        fun st st' hst => by dsimp only; rw [hst]⟩
    | relay resolve retry =>
      cases resolve with
      | pool pool target =>
        rw [← poolFor_id h.2.2.1]
        cases transport with
        | api =>
          exact ⟨Components.actsOn_update _ fun st => (select pool ctx extracted plan now st).2,
            fun st st' hst => by dsimp only; rw [hst]⟩
        | proxy =>
          exact ⟨Components.actsOn_update _ fun st =>
            (proxyResolve pool ctx extracted target (now 0) st).2,
            fun st st' hst => by dsimp only; rw [hst]⟩
      | client fixedProvider origins => cases transport <;> exact ⟨.id _, fun _ _ _ => rfl⟩

theorem actsOn_recordWith {resources : CompiledResources} {graph : ProviderGraph ρ τ ε}
    {profileId : String} {plan : RoutePlan} {service : ProfileService}
    (h : ServiceFor resources registry parse originOf accounts graph profileId plan service)
    (transport : Transport) (clock : Clock) (sessionId : Option String) (handle : ResolvedHandle)
    (outcome : SendOutcome) (now : Nat) :
    Components.ActsOn (fun st => recordWith service transport clock sessionId handle outcome now st)
      ("profile." ++ profileId) := by
  cases service with
  | managed pool retry =>
    rw [← poolFor_id h.2]
    exact Components.actsOn_update _
      fun st => recordReport pool clock sessionId handle (reportOf false outcome) now st
  | relay resolve retry =>
    cases resolve with
    | pool pool target =>
      rw [← poolFor_id h.2.2.1]
      cases transport with
      | api =>
        exact Components.actsOn_update _
          fun st => recordReport pool clock sessionId handle (reportOf false outcome) now st
      | proxy =>
        exact Components.actsOn_update _
          fun st => recordReport pool clock sessionId handle (reportOf true outcome) now st
    | client fixedProvider origins => exact .id _

theorem actsOn_step (h : Built registry parse originOf accounts gateway) (step : Step) :
    Components.ActsOn (fun st => gateway.step st step) ("profile." ++ step.profileId) := by
  cases step with
  | resolve profileId transport ctx extracted now =>
    simp only [Gateway.step, Gateway.resolve, Step.profileId]
    cases hservice : gateway.serviceOf profileId with
    | none => exact .id _
    | some found => exact (actsOn_resolveWith (h.service _ _ _ hservice).1 _ _ _ _).1
  | sent profileId transport sessionId handle outcome now =>
    simp only [Gateway.step, Step.profileId]
    cases hservice : gateway.serviceOf profileId with
    | none => exact .id _
    | some found => exact actsOn_recordWith (h.service _ _ _ hservice).1 _ _ _ _ _ _

/-- The pool of a profile is as the steps of the profile leave it. -/
theorem run_filter (h : Built registry parse originOf accounts gateway) (steps : List Step)
    (profileId : String) :
    gateway.run steps ("profile." ++ profileId) =
      gateway.run (steps.filter fun step => step.profileId = profileId) ("profile." ++ profileId) := by
  rw [Gateway.run, Components.foldl_filter (actsOn_step h)]
  have howner : ∀ step : Step, ("profile." ++ step.profileId = "profile." ++ profileId) ↔
      step.profileId = profileId := by
    intro step
    simp
  simp only [howner]
  rfl

end

/-- **Profiles do not affect one another.** -/
theorem run_isolated {url : UpstreamSyntax} {raw : RawResources} {resources : CompiledResources}
    (h : compileResources url raw = .ok resources) {registry : Registry ρ τ ε} {parse : TargetSyntax τ}
    {originOf : τ → String} {descriptions : Discovery.Descriptions ρ τ ε}
    {accounts : List (AccountConfig ρ)} {reachable : Finset String} {runtimes : LinkedRuntimes ρ τ ε}
    (hbuild : buildProfileRuntimes resources registry parse originOf descriptions accounts reachable =
      .ok runtimes)
    (clock : Clock) (steps : List Step) (profileId : String) :
    let gateway : Gateway ρ τ ε := ⟨resources, runtimes, clock⟩
    let own := steps.filter fun step => step.profileId = profileId
    gateway.run steps ("profile." ++ profileId) = gateway.run own ("profile." ++ profileId) ∧
      ∀ transport ctx extracted now,
        (gateway.resolve (gateway.run steps) profileId transport ctx extracted now).1 =
          (gateway.resolve (gateway.run own) profileId transport ctx extracted now).1 := by
  intro gateway own
  have hbuilt : Built registry parse originOf accounts gateway :=
    built_of_buildProfileRuntimes h hbuild clock
  have hsame := run_filter hbuilt steps profileId
  refine ⟨hsame, fun transport ctx extracted now => ?_⟩
  simp only [Gateway.resolve]
  cases hservice : gateway.serviceOf profileId with
  | none => rfl
  | some found =>
    exact (actsOn_resolveWith (hbuilt.service _ _ _ hservice).1 _ _ _ _).2 _ _ hsame

/-- Another account of the provider. -/
def sampleSpare : AccountConfig Unit := ⟨"b", "local", true, .active, ()⟩

/-- What `sampleRaw` makes of the two accounts. -/
def sampleRuntimes (resources : CompiledResources) :
    Except (BuildError Unit) (LinkedRuntimes Unit String Unit) :=
  buildProfileRuntimes resources sampleRegistry (fun url _ => .ok url) id sampleDescriptions
    [sampleAccount, sampleSpare] {"default", "proxy"}

theorem sort_sampleProfiles :
    ({"default", "proxy"} : Finset String).sort (· ≤ ·) = ["default", "proxy"] := by
  rw [Finset.sort_insert _ (by decide +kernel) (by decide), Finset.sort_singleton]

/-- A request for the origin of the provider. -/
def sampleRequest : PipelineCtx where
  requestEndpoint := .customPath "/"
  config := Requests.RunConfig.withStr [] V2_PROXY_ORIGIN_KEY "http://localhost"

/-- The request, on a profile. -/
def sampleStep (profileId : String) : Step :=
  .resolve profileId .proxy sampleRequest ⟨"m", none⟩ fun _ => 0

/-- A clock that shows a thousand seconds. -/
def sampleClock : Clock := ⟨1000 * NANOS_PER_SEC⟩

/-- The first account of the pool of a profile does not answer. -/
def sampleFailure (runtimes : LinkedRuntimes Unit String Unit) (profileId : String) : Step :=
  let handle := (runtimes.pools.get ("profile." ++ profileId)).bind fun pool => pool.active.head?
  .sent profileId .proxy none (handle.elim (.stub "" "") .bound)
    (.failed ⟨.undispatched "timed out", true⟩) 0

/-- A failure of one profile leaves the account to the other one. -/
theorem run_isolated_sampleRaw :
    ∃ resources runtimes, compileResources sampleUrl sampleRaw = .ok resources ∧
      sampleRuntimes resources = .ok runtimes ∧
        let gateway : Gateway Unit String Unit := ⟨resources, runtimes, sampleClock⟩
        let steps := [sampleStep "proxy", sampleFailure runtimes "default"]
        (gateway.run steps "profile.default").coolingUntil 1 ⟨"local", "a"⟩ ≠ none ∧
          gateway.run steps ("profile." ++ "proxy") =
            gateway.run [sampleStep "proxy"] ("profile." ++ "proxy") := by
  have hok : (compileResources sampleUrl sampleRaw).map (fun r => (sampleRuntimes r).map fun runtimes =>
      decide (((Gateway.mk r runtimes sampleClock).run
        [sampleStep "proxy", sampleFailure runtimes "default"]
        "profile.default").coolingUntil 1 ⟨"local", "a"⟩ ≠ none)) = .ok (.ok true) := by
    simp only [sampleRuntimes, buildProfileRuntimes, Discovery.DiscoveryRuntime.new,
      sort_sampleProfiles]
    decide +kernel
  obtain ⟨resources, h, hok⟩ := map_eq_ok.mp hok
  obtain ⟨runtimes, hbuild, hcooling⟩ := map_eq_ok.mp hok
  refine ⟨resources, runtimes, h, hbuild, of_decide_eq_true hcooling, ?_⟩
  exact (run_isolated h hbuild sampleClock
    [sampleStep "proxy", sampleFailure runtimes "default"] "proxy").1

/-! ## Entitled accounts -/

section

variable (resources : CompiledResources) (registry : Registry ρ τ ε) (parse : TargetSyntax τ)
  (originOf : τ → String) (accounts : List (AccountConfig ρ)) (profileId : String)

/-- An account that a profile has. -/
structure Member (config : AccountConfig ρ) : Prop where
  mem : config ∈ accounts
  enabled : config.enabled = true
  planned : resources.providers.contains config.provider = true
  named : ∃ pool, resources.accountPools.get ("profile." ++ profileId) = some pool ∧
    isNoneOrContains pool.selector.accounts config.id = true

/-- The route leads to the provider: it allows the provider, and it is fixed to it or the request is for
an origin of it. -/
structure LeadsTo (plan : RoutePlan) (ctx : PipelineCtx) (provider : String) : Prop where
  allowed : plan.allowsProvider provider = true
  fixed : ∀ p, fixedProvider plan = some p → provider = p
  origin : plan.destinationPolicy = .original → ∃ origin,
    ctx.config.getStr V2_PROXY_ORIGIN_KEY = some origin ∧
      ClaimsOrigin resources registry parse originOf provider origin

/-- The key of the request allows the provider. -/
def KeyAllows (ctx : PipelineCtx) (provider : String) : Prop :=
  ∃ allowed, allowedProviderIds ctx = .ok allowed ∧ providerAllowed provider allowed = true

/-- A request of the profile may use the account. -/
structure Entitled (plan : RoutePlan) (ctx : PipelineCtx) (config : AccountConfig ρ) : Prop where
  member : Member resources accounts profileId config
  leads : LeadsTo resources registry parse originOf plan ctx config.provider
  key : KeyAllows ctx config.provider

def bindingKey (config : AccountConfig ρ) : Accounts.ProviderBindingKey := ⟨config.provider, config.id⟩

/-- The driver of a binding was made of the account, at the target of its own provider. -/
structure MadeOf (config : AccountConfig ρ) (binding : ProviderBinding) : Prop where
  key : binding.key = bindingKey config
  target : ∃ provider destination, resources.providers.get config.provider = some provider ∧
    Destined registry parse config.provider provider destination ∧ binding.driverId = provider.driver ∧
    registry.buildDriverAt provider.driver (driverConfig provider.driver config) destination.target =
      .ok binding.driver

/-- The binding was made of an account that the request may use, and is not cooling. -/
def Grants (plan : RoutePlan) (ctx : PipelineCtx) (st : PoolRuntime) (now : Nat)
    (binding : ProviderBinding) : Prop :=
  ∃ config, Entitled resources registry parse originOf accounts profileId plan ctx config ∧
    MadeOf resources registry parse config binding ∧ st.coolingUntil now binding.key = none

/-- There is an account that the request may use, and not cooling. -/
def Grantable (plan : RoutePlan) (ctx : PipelineCtx) (st : PoolRuntime) (now : Nat) : Prop :=
  ∃ config, Entitled resources registry parse originOf accounts profileId plan ctx config ∧
    st.coolingUntil now (bindingKey config) = none

end

section

variable {resources : CompiledResources} {registry : Registry ρ τ ε} {parse : TargetSyntax τ}
  {originOf : τ → String} {accounts : List (AccountConfig ρ)} {graph : ProviderGraph ρ τ ε}
  {pools : BTreeMap String LinkedAccountPool} {profileId : String} {pool : LinkedAccountPool}
  {ctx : PipelineCtx} {extracted : Extracted} {st : PoolRuntime} {now : Nat}

/-- A pool has bindings of its plan. -/
theorem inPool_of_mem (hpool : PoolFor resources registry accounts graph profileId pool)
    {binding : ProviderBinding} (hmem : binding ∈ pool.active ++ pool.fallback) :
    ∃ plan tier config, resources.accountPools.get ("profile." ++ profileId) = some plan ∧
      InPool registry resources.providers graph accounts plan.selector tier binding config := by
  obtain ⟨plan, hplan, hlinked⟩ := hpool
  rcases List.mem_append.mp hmem with hmem | hmem
  · obtain ⟨config, hin⟩ := (hlinked.tiers .active binding).mp hmem
    exact ⟨plan, .active, config, hplan, hin⟩
  · obtain ⟨config, hin⟩ := (hlinked.tiers .fallback binding).mp hmem
    exact ⟨plan, .fallback, config, hplan, hin⟩

/-- A pool has the accounts of its profile. -/
theorem member_of_mem (h : LinkedResources resources registry parse accounts graph pools)
    (hpool : PoolFor resources registry accounts graph profileId pool)
    {binding : ProviderBinding} (hmem : binding ∈ pool.active ++ pool.fallback) :
    ∃ config, Member resources accounts profileId config ∧
      MadeOf resources registry parse config binding := by
  obtain ⟨plan, tier, config, hplan, hin⟩ := inPool_of_mem hpool hmem
  obtain ⟨provider, destination, hprovider, hdestination, hdriver, hbuilt⟩ := hin.built
  obtain ⟨provider', hprovider', hdestined⟩ := (h.linked.destination _ _).mp hdestination
  cases hprovider.symm.trans hprovider'
  refine ⟨config, ⟨hin.mem, hin.enabled, ?_, plan, hplan, hin.named⟩, hin.key, provider, destination,
    hprovider, hdestined, hdriver, hbuilt⟩
  rw [BTreeMap.contains, hprovider]
  rfl

theorem exists_mem_of_member (h : LinkedResources resources registry parse accounts graph pools)
    (hpool : PoolFor resources registry accounts graph profileId pool) {config : AccountConfig ρ}
    (hmember : Member resources accounts profileId config) :
    ∃ binding ∈ pool.active ++ pool.fallback, binding.key = bindingKey config := by
  obtain ⟨plan, hplan, hlinked⟩ := hpool
  obtain ⟨plan', hplan', hnamed⟩ := hmember.named
  cases hplan.symm.trans hplan'
  have hadmitted : isNoneOrContains plan.selector.providers config.provider = true := by
    rw [isNoneOrContains, (h.wellFormed.pools _ _ hplan).providers]
    rfl
  obtain ⟨binding, hin⟩ := h.linked.exists_inPool hmember.mem hmember.enabled hmember.planned hadmitted
    hnamed
  have htier := (hlinked.tiers config.tier binding).mpr ⟨config, hin⟩
  refine ⟨binding, ?_, hin.key⟩
  cases hconfig : config.tier with
  | active =>
    rw [hconfig] at htier
    exact List.mem_append_left _ htier
  | fallback =>
    rw [hconfig] at htier
    exact List.mem_append_right _ htier

/-! ### Acquisition -/

/-- The pool has a binding for a provider where one of them is not cooling. -/
theorem acquire_spec (h : Regular st) (sessionId : Option String) (provider : String) :
    (∀ binding, (acquire pool now sessionId (fun b => b.providerId = provider) st).1 =
        .selected binding → binding ∈ pool.active ++ pool.fallback ∧ binding.providerId = provider ∧
          st.coolingUntil now binding.key = none) ∧
      ((∃ binding ∈ pool.active ++ pool.fallback, binding.providerId = provider ∧
          st.coolingUntil now binding.key = none) →
        ∃ binding, (acquire pool now sessionId (fun b => b.providerId = provider) st).1 =
          .selected binding) := by
  obtain ⟨houtcome, -, -⟩ := Accounts.Acquisition.acquireRanked_spec h pool now sessionId
    ⟨fun b => b.providerId = provider, fun _ => 0⟩
  rw [acquire]
  constructor
  · intro binding hselected
    obtain ⟨hmem, ⟨heligible, hhealthy⟩, -⟩ := houtcome.selected binding hselected
    exact ⟨hmem, of_decide_eq_true heligible, hhealthy⟩
  · rintro ⟨binding, hmem, hprovider, hhealthy⟩
    by_contra hnone
    refine not_usable_of_outcome houtcome (fun other hother => hnone ⟨other, hother⟩) hmem
      ⟨decide_eq_true hprovider, hhealthy⟩

/-! ### Relays -/

section

variable {plan : RoutePlan} {target : ProxyRelayTarget} {route : CompiledRoute}
  (hroute : RouteWellFormed resources.providers resources.retryPolicies route)
  (hplan : route.plan = plan) (haccount : plan.credentialPolicy = .account)
  (htarget : TargetOf resources registry parse originOf accounts profileId plan target)
include hroute hplan haccount htarget

/-- A relay takes the provider that its route leads to. -/
theorem provider_eq_ok_iff {config : AccountConfig ρ}
    (hmember : Member resources accounts profileId config) :
    target.provider ctx = .ok config.provider ↔
      LeadsTo resources registry parse originOf plan ctx config.provider := by
  cases target with
  | fixed provider =>
    obtain ⟨hfixed, hselected⟩ := htarget
    rw [ProxyRelayTarget.provider]
    constructor
    · intro h
      cases h
      refine ⟨?_, fun p hp => ?_, fun horiginal => ?_⟩
      · have hallowed := (hroute.fixed config.provider (hplan ▸ hfixed)).2
        rwa [hplan] at hallowed
      · exact Option.some.inj (hfixed.symm.trans hp)
      · cases hselected.symm.trans horiginal
    · intro h
      rw [h.fixed provider hfixed]
  | fromOrigin origins =>
    obtain ⟨hfixed, horiginal, horigins⟩ := htarget
    rw [ProxyRelayTarget.provider]
    constructor
    · intro h
      cases horigin : ctx.config.getStr V2_PROXY_ORIGIN_KEY with
      | none =>
        rw [horigin] at h
        cases h
      | some origin =>
        simp only [horigin] at h
        cases hget : origins.get origin with
        | none =>
          rw [hget] at h
          cases h
        | some provider =>
          rw [hget] at h
          cases h
          obtain ⟨hcontends, hclaims⟩ := (horigins origin config.provider).mp hget
          refine ⟨hcontends.allowed, fun p hp => ?_, fun _ => ⟨origin, horigin, hclaims⟩⟩
          rw [hfixed] at hp
          cases hp
    · intro h
      obtain ⟨origin, horigin, hclaims⟩ := h.origin horiginal
      obtain ⟨accountPool, hpool, hnamed⟩ := hmember.named
      have hget : origins.get origin = some config.provider := by
        refine (horigins origin config.provider).mpr ⟨⟨horiginal, hmember.planned, h.allowed,
          fun _ => ⟨accountPool, hpool, config, hmember.mem, hmember.enabled, rfl, hnamed⟩,
          fun hclient => ?_⟩, hclaims⟩
        cases haccount.symm.trans hclient
      simp only [horigin, hget]

variable (now) in
/-- What a relay acquires for the provider that it takes. -/
theorem acquire_grants (h : LinkedResources resources registry parse accounts graph pools)
    (hpool : PoolFor resources registry accounts graph profileId pool) (hst : Regular st)
    {provider : String} (hprovider : target.provider ctx = .ok provider)
    (hkey : KeyAllows ctx provider) (sessionId : Option String) :
    (∀ binding, (acquire pool now sessionId (fun b => b.providerId = provider) st).1 =
        .selected binding →
          Grants resources registry parse originOf accounts profileId plan ctx st now binding) ∧
      (Grantable resources registry parse originOf accounts profileId plan ctx st now →
        ∃ binding, (acquire pool now sessionId (fun b => b.providerId = provider) st).1 =
          .selected binding) := by
  obtain ⟨hselected, hexists⟩ := @acquire_spec pool st now hst sessionId provider
  constructor
  · intro binding hbinding
    obtain ⟨hmem, rfl, hhealthy⟩ := hselected binding hbinding
    obtain ⟨config, hmember, hmade⟩ := member_of_mem h hpool hmem
    have hid : binding.providerId = config.provider := by
      rw [ProviderBinding.providerId, hmade.key, bindingKey]
    rw [hid] at hprovider hkey
    exact ⟨config, ⟨hmember, (provider_eq_ok_iff hroute hplan haccount htarget hmember).mp hprovider,
      hkey⟩, hmade, hhealthy⟩
  · rintro ⟨config, hentitled, hhealthy⟩
    obtain ⟨binding, hmem, hkeyEq⟩ := exists_mem_of_member h hpool hentitled.member
    have hsame := (provider_eq_ok_iff hroute hplan haccount htarget hentitled.member).mpr hentitled.leads
    rw [hprovider] at hsame
    refine hexists ⟨binding, hmem, ?_, by rw [hkeyEq]; exact hhealthy⟩
    rw [ProviderBinding.providerId, hkeyEq, bindingKey, Except.ok.inj hsame]

/-- A relay that answers: with an account where there is one. -/
structure RelayAnswers (resources : CompiledResources) (registry : Registry ρ τ ε)
    (parse : TargetSyntax τ) (originOf : τ → String) (accounts : List (AccountConfig ρ))
    (profileId : String) (plan : RoutePlan) (ctx : PipelineCtx) (st : PoolRuntime) (now : Nat)
    (ready : Prop) (reply : Except PipelineError Resolved) : Prop where
  grants : ∀ resolved, reply = .ok resolved → ∃ binding, resolved.handle = .bound binding ∧
    resolved.accountId = binding.key.accountId ∧
      Grants resources registry parse originOf accounts profileId plan ctx st now binding
  complete : (∃ resolved, reply = .ok resolved) ↔
    ready ∧ Grantable resources registry parse originOf accounts profileId plan ctx st now

omit hroute hplan haccount htarget in
/-- Where nobody is granted anything, there is nothing to answer. -/
theorem answers_error {ready : Prop} (e : PipelineError)
    (h : ready → ¬ Grantable resources registry parse originOf accounts profileId plan ctx st now) :
    RelayAnswers resources registry parse originOf accounts profileId plan ctx st now ready
      (.error e) := by
  refine ⟨fun resolved hresolved => ?_, iff_of_false ?_ ?_⟩
  · cases hresolved
  · rintro ⟨resolved, hresolved⟩
    cases hresolved
  · rintro ⟨hready, hgrantable⟩
    exact h hready hgrantable

theorem not_grantable_of_provider {e : PipelineError} (h : target.provider ctx = .error e) :
    ¬ Grantable resources registry parse originOf accounts profileId plan ctx st now := by
  rintro ⟨config, hentitled, -⟩
  have hprovider :=
    (provider_eq_ok_iff hroute hplan haccount htarget hentitled.member).mpr hentitled.leads
  rw [h] at hprovider
  cases hprovider

omit hroute hplan haccount htarget in
theorem not_grantable_of_allowed {e : PipelineError} (h : allowedProviderIds ctx = .error e) :
    ¬ Grantable resources registry parse originOf accounts profileId plan ctx st now := by
  rintro ⟨config, hentitled, -⟩
  obtain ⟨allowed, hallowed, -⟩ := hentitled.key
  rw [h] at hallowed
  cases hallowed

variable (st now) in
theorem not_grantable_of_denied {provider : String} {allowed : Option (List String)}
    (hprovider : target.provider ctx = .ok provider) (hallowed : allowedProviderIds ctx = .ok allowed)
    (h : ¬ providerAllowed provider allowed = true) :
    ¬ Grantable resources registry parse originOf accounts profileId plan ctx st now := by
  rintro ⟨config, hentitled, -⟩
  obtain ⟨allowed', hallowed', hkey⟩ := hentitled.key
  have hsame :=
    (provider_eq_ok_iff hroute hplan haccount htarget hentitled.member).mpr hentitled.leads
  rw [hprovider] at hsame
  rw [hallowed] at hallowed'
  cases hsame
  cases hallowed'
  exact h hkey

variable (h : LinkedResources resources registry parse accounts graph pools)
  (hpool : PoolFor resources registry accounts graph profileId pool) (hst : Regular st)
include h hpool hst

theorem answers_proxyResolve :
    RelayAnswers resources registry parse originOf accounts profileId plan ctx st now True
      (proxyResolve pool ctx extracted target now st).1 := by
  rw [proxyResolve]
  cases hprovider : target.provider ctx with
  | error e =>
    exact answers_error e fun _ => not_grantable_of_provider hroute hplan haccount htarget hprovider
  | ok provider =>
    cases hallowed : allowedProviderIds ctx with
    | error e => exact answers_error e fun _ => not_grantable_of_allowed hallowed
    | ok allowed =>
      by_cases hkey : providerAllowed provider allowed = true
      · obtain ⟨hgrants, hexists⟩ := acquire_grants now hroute hplan haccount htarget h hpool hst
          hprovider ⟨allowed, hallowed, hkey⟩ extracted.sessionId
        simp only [Except.bind, bind, hkey, Bool.not_true, rejectIf, Bool.false_eq_true, if_false,
          pure, Except.pure]
        generalize acquire pool now extracted.sessionId
          (fun binding => decide (binding.providerId = provider)) st = result at hgrants hexists ⊢
        obtain ⟨reply, next⟩ := result
        cases reply with
        | selected binding =>
          have hgrant := hgrants binding rfl
          refine ⟨fun resolved hresolved => ?_, iff_of_true ⟨_, rfl⟩ ⟨trivial, ?_⟩⟩
          · cases hresolved
            exact ⟨binding, rfl, rfl, hgrant⟩
          · obtain ⟨config, hentitled, hmade, hhealthy⟩ := hgrant
            exact ⟨config, hentitled, hmade.key ▸ hhealthy⟩
        | coolingDown retryAt =>
          exact answers_error _ fun _ hgrantable => by simpa using hexists hgrantable
        | noEligible => exact answers_error _ fun _ hgrantable => by simpa using hexists hgrantable
      · have hdenied := not_grantable_of_denied st now hroute hplan haccount htarget
          hprovider hallowed hkey
        rw [Bool.not_eq_true] at hkey
        simp only [Except.bind, bind, hkey, Bool.not_false, rejectIf, if_true]
        exact answers_error _ fun _ => hdenied

omit htarget in
theorem answers_selectRelay {relay : RelayRoute} (hrelay : plan = .relay relay)
    (hfixed : ¬ plan.destinationPolicy = .original) :
    RelayAnswers resources registry parse originOf accounts profileId plan ctx st now
      (ctx.requestEndpoint.resolved.isSome = true)
      (poolResolve ctx extracted (selectRelay pool ctx extracted relay now st).1) := by
  rw [selectRelay]
  cases hendpoint : ctx.requestEndpoint with
  | customPath label =>
    rw [resolvedEndpoint, hendpoint]
    exact answers_error _ fun hready => by simp [Requests.RequestEndpoint.resolved] at hready
  | known endpoint =>
    have hready : ctx.requestEndpoint.resolved.isSome = true := by rw [hendpoint]; rfl
    have hresolved : resolvedEndpoint ctx = .ok endpoint := by rw [resolvedEndpoint, hendpoint]
    rw [← hendpoint, hresolved]
    cases hdestination : relay.destination with
    | original =>
      refine absurd ?_ hfixed
      rw [hrelay, RoutePlan.destinationPolicy, hdestination]
    | fixedProvider provider =>
      have htarget : TargetOf resources registry parse originOf accounts profileId plan
          (.fixed provider) := by
        rw [TargetOf, hrelay, fixedProvider, RoutePlan.destinationPolicy, hdestination]
        exact ⟨rfl, rfl⟩
      cases hallowed : allowedProviderIds ctx with
      | error e => exact answers_error e fun _ => not_grantable_of_allowed hallowed
      | ok allowed =>
        by_cases hkey : providerAllowed provider allowed = true
        · obtain ⟨hgrants, hexists⟩ := acquire_grants now hroute hplan haccount htarget h hpool hst
            rfl ⟨allowed, hallowed, hkey⟩ extracted.sessionId
          simp only [hkey, Bool.not_true, Bool.false_eq_true, if_false]
          generalize acquire pool now extracted.sessionId
            (fun binding => decide (binding.providerId = provider)) st = result at hgrants hexists ⊢
          obtain ⟨reply, next⟩ := result
          cases reply with
          | selected binding =>
            have hgrant := hgrants binding rfl
            simp only [poolResolve, selectedOutcome, hresolved, Except.bind, bind, pure, Except.pure]
            refine ⟨fun resolved hok => ?_, iff_of_true ⟨_, rfl⟩ ⟨hready, ?_⟩⟩
            · cases hok
              exact ⟨binding, rfl, rfl, hgrant⟩
            · obtain ⟨config, hentitled, hmade, hhealthy⟩ := hgrant
              exact ⟨config, hentitled, hmade.key ▸ hhealthy⟩
          | coolingDown retryAt =>
            simp only [poolResolve, hresolved, Except.bind, bind]
            exact answers_error _ fun _ hgrantable => by simpa using hexists hgrantable
          | noEligible =>
            simp only [poolResolve, hresolved, Except.bind, bind]
            exact answers_error _ fun _ hgrantable => by simpa using hexists hgrantable
        · have hdenied := not_grantable_of_denied st now hroute hplan haccount htarget
            rfl hallowed hkey
          rw [Bool.not_eq_true] at hkey
          simp only [hkey, Bool.not_false, if_true, poolResolve, Except.bind, bind]
          exact answers_error _ fun _ => hdenied

end

/-! ### Managed routes -/

/-- A managed route selects among the accounts that the request may use. -/
theorem grants_selectManaged (h : LinkedResources resources registry parse accounts graph pools)
    (hpool : PoolFor resources registry accounts graph profileId pool)
    (hst : Regular st) {route : ManagedRoute} {now : Nat → Nat} {resolved : Resolved}
    (hresolved : poolResolve ctx extracted (selectManaged pool route ctx extracted now st).1 =
      .ok resolved) :
    ∃ binding, resolved.handle = .bound binding ∧ resolved.accountId = binding.key.accountId ∧
      ∃ n, Grants resources registry parse originOf accounts profileId (.managed route) ctx st (now n)
        binding := by
  rw [selectManaged] at hresolved
  cases hendpoint : resolvedEndpoint ctx with
  | error e =>
    rw [hendpoint] at hresolved
    cases hresolved
  | ok endpoint =>
    rw [hendpoint] at hresolved
    cases hallowed : allowedProviderIds ctx with
    | error e =>
      rw [hallowed] at hresolved
      cases hresolved
    | ok allowed =>
      rw [hallowed] at hresolved
      cases hcandidates : modelCandidates route extracted.model with
      | error e =>
        rw [hcandidates] at hresolved
        cases hresolved
      | ok candidates =>
        rw [hcandidates] at hresolved
        have hanswers := @answers_selectPasses pool route allowed st extracted.sessionId
          (passes candidates (operationCandidates route.operation endpoint)) now hst
        simp only [Except.bind, bind, pure, Except.pure] at hresolved
        generalize (selectPasses pool route allowed extracted.sessionId now
          (passes candidates (operationCandidates route.operation endpoint)) {} st).1 = outcome
          at hresolved hanswers
        cases outcome with
        | noAccount =>
          simp only [poolResolve, hendpoint, Except.bind, bind] at hresolved
          cases hresolved
        | providerAccessDenied => cases hresolved
        | selected accountId providerId upstreamEndpoint model binding =>
          obtain ⟨i, pass, -, heq, havailable, -⟩ := hanswers.selected _ _ _ _ _ rfl
          simp only [poolResolve, hendpoint, Except.bind, bind, pure, Except.pure] at hresolved
          cases hresolved
          obtain ⟨config, hmember, hmade⟩ := member_of_mem h hpool havailable.mem
          have hid : binding.providerId = config.provider := by
            rw [ProviderBinding.providerId, hmade.key, bindingKey]
          obtain ⟨hroute, hmatches⟩ := Bool.and_eq_true_iff.mp havailable.fits
          have hkeyAllows := havailable.allowed
          rw [hid] at hroute hkeyAllows
          refine ⟨binding, rfl, ?_, i, config, ⟨hmember, ⟨hroute, fun p hp => ?_, fun horiginal => ?_⟩,
            allowed, hallowed, hkeyAllows⟩, hmade, havailable.healthy⟩
          · cases heq
            rfl
          · rw [fixedProvider] at hp
            cases hprovider : route.target.provider with
            | any =>
              rw [hprovider] at hp
              cases hp
            | fixed provider =>
              rw [hprovider] at hp
              cases hp
              simp only [managedBindingMatches, hprovider, Bool.and_eq_true] at hmatches
              rw [← hid]
              exact of_decide_eq_true hmatches.1.1
          · cases horiginal

end

/-! ### Credentials of the client -/

section

variable {resources : CompiledResources} {registry : Registry ρ τ ε} {parse : TargetSyntax τ}
  {originOf : τ → String} {accounts : List (AccountConfig ρ)} {profileId : String} {plan : RoutePlan}
  {ctx : PipelineCtx}

/-- A request that passes the check of its origin is for an origin that it may be relayed to. -/
theorem leadsTo_of_checkOrigin {origins : BTreeMap String String} {u : Unit}
    (horigins : OriginsOf resources registry parse originOf accounts profileId plan origins)
    (hfixed : fixedProvider plan = none) (h : checkOrigin ctx (some origins) = .ok u) :
    ∃ provider, LeadsTo resources registry parse originOf plan ctx provider ∧
      KeyAllows ctx provider := by
  obtain ⟨allowed, hallowed, h⟩ := bind_eq_ok.mp h
  have hany := Except.rejectIf_eq_ok.mp h
  rw [Bool.not_eq_false', Option.any_eq_true] at hany
  obtain ⟨provider, hprovider, hkey⟩ := hany
  obtain ⟨origin, horigin, hget⟩ := Option.bind_eq_some_iff.mp hprovider
  obtain ⟨hcontends, hclaims⟩ := (horigins origin provider).mp hget
  refine ⟨provider, ⟨hcontends.allowed, fun p hp => ?_, fun _ => ⟨origin, horigin, hclaims⟩⟩,
    allowed, hallowed, hkey⟩
  rw [hfixed] at hp
  cases hp

theorem keyAllows_of_checkFixedProvider {provider : String} {u : Unit}
    (h : checkFixedProvider ctx (some provider) = .ok u) : KeyAllows ctx provider := by
  obtain ⟨allowed, hallowed, h⟩ := bind_eq_ok.mp h
  exact ⟨allowed, hallowed, by simpa using Except.rejectIf_eq_ok.mp h⟩

/-- The route is fixed to a provider, or names those that it allows. -/
def Restricted (plan : RoutePlan) : Prop :=
  (fixedProvider plan).isSome = true ∨ plan.providers.isSome = true

/-- A relay goes to the origin of a request unless it is fixed to a provider. -/
theorem original_iff_of_client (h : plan.credentialPolicy = .client) :
    plan.destinationPolicy = .original ↔ fixedProvider plan = none := by
  cases plan with
  | managed route => cases h
  | relay route =>
    rw [RoutePlan.destinationPolicy, fixedProvider]
    cases route.destination <;> simp

/-- Who has credentials is led to a provider that the route and the key allow. -/
theorem leadsTo_of_clientResolve {extracted : Extracted} {resolved : Resolved}
    {origins : Option (BTreeMap String String)} (hclient : plan.credentialPolicy = .client)
    (hfixed : ∀ p, fixedProvider plan = some p → plan.allowsProvider p = true)
    (hsome : plan.destinationPolicy = .original → origins.isSome = true)
    (horigins : ∀ found, origins = some found →
      OriginsOf resources registry parse originOf accounts profileId plan found)
    (h : clientResolve ctx extracted (fixedProvider plan) origins = .ok resolved) :
    ∃ provider, LeadsTo resources registry parse originOf plan ctx provider ∧
      KeyAllows ctx provider ∧
        (plan.destinationPolicy = .selectedProvider → resolved.providerId = provider) := by
  obtain ⟨_, horigin, h⟩ := bind_eq_ok.mp h
  obtain ⟨_, hcheck, h⟩ := bind_eq_ok.mp h
  obtain ⟨stub, -, h⟩ := bind_eq_ok.mp h
  cases hprovider : fixedProvider plan with
  | none =>
    have horiginal := (original_iff_of_client hclient).mpr hprovider
    obtain ⟨found, rfl⟩ := Option.isSome_iff_exists.mp (hsome horiginal)
    obtain ⟨provider, hleads, hkey⟩ := leadsTo_of_checkOrigin (horigins found rfl) hprovider horigin
    refine ⟨provider, hleads, hkey, fun hselected => ?_⟩
    cases horiginal.symm.trans hselected
  | some provider =>
    rw [hprovider] at hcheck h
    obtain ⟨_, hid, h⟩ := bind_eq_ok.mp h
    cases h
    have hsame := Except.rejectIf_eq_ok.mp hid
    rw [decide_eq_false_iff_not, not_not] at hsame
    refine ⟨provider, ⟨hfixed provider hprovider, fun p hp => ?_, fun horiginal => ?_⟩,
      keyAllows_of_checkFixedProvider hcheck, fun _ => hsame⟩
    · exact Option.some.inj (hprovider.symm.trans hp)
    · rw [(original_iff_of_client hclient).mp horiginal] at hprovider
      cases hprovider

end

/-! ## Requests of a gateway -/

/-- What a request of a profile resolves to. -/
structure Resolution (resources : CompiledResources) (registry : Registry ρ τ ε)
    (parse : TargetSyntax τ) (originOf : τ → String) (accounts : List (AccountConfig ρ))
    (profileId : String) (plan : RoutePlan) (transport : Transport) (ctx : PipelineCtx)
    (st : PoolRuntime) (now : Nat → Nat) (reply : Option (Except PipelineError Resolved)) : Prop where
  /-- Who gets an account may use it, at its own target. -/
  account : plan.credentialPolicy = .account → ∀ resolved, reply = some (.ok resolved) →
    ∃ binding, resolved.handle = .bound binding ∧ resolved.accountId = binding.key.accountId ∧
      ∃ n, Grants resources registry parse originOf accounts profileId plan ctx st (now n) binding
  /-- A relay gets one if there is one. -/
  complete : plan.credentialPolicy = .account → (∃ relay, plan = .relay relay) →
    ¬ (transport = .api ∧ plan.destinationPolicy = .original) →
    ((∃ resolved, reply = some (.ok resolved)) ↔
      (transport = .api → ctx.requestEndpoint.resolved.isSome = true) ∧
        Grantable resources registry parse originOf accounts profileId plan ctx st (now 0))
  /-- Who has credentials is led to a provider that the route and the key allow. -/
  client : plan.credentialPolicy = .client → Restricted plan → ∀ resolved,
    reply = some (.ok resolved) → ∃ provider,
      LeadsTo resources registry parse originOf plan ctx provider ∧ KeyAllows ctx provider ∧
        (plan.destinationPolicy = .selectedProvider → resolved.providerId = provider)

section

variable {resources : CompiledResources} {registry : Registry ρ τ ε} {parse : TargetSyntax τ}
  {originOf : τ → String} {accounts : List (AccountConfig ρ)} {graph : ProviderGraph ρ τ ε}
  {pools : BTreeMap String LinkedAccountPool} {profileId : String} {plan : RoutePlan}
  {transport : Transport} {ctx : PipelineCtx} {extracted : Extracted} {now : Nat → Nat}

theorem resolution_none (h : transport = .api ∧ plan.destinationPolicy = .original)
    (st : PoolRuntime) :
    Resolution resources registry parse originOf accounts profileId plan transport ctx st now none := by
  refine ⟨fun _ resolved hok => ?_, fun _ _ hno => absurd h hno, fun _ _ resolved hok => ?_⟩ <;>
    cases hok

theorem resolution_of_relayAnswers {st : PoolRuntime} {ready : Prop}
    {reply : Except PipelineError Resolved} (haccount : plan.credentialPolicy = .account)
    (hready : ready ↔ (transport = .api → ctx.requestEndpoint.resolved.isSome = true))
    (h : RelayAnswers resources registry parse originOf accounts profileId plan ctx st (now 0) ready
      reply) :
    Resolution resources registry parse originOf accounts profileId plan transport ctx st now
      (some reply) := by
  refine ⟨fun _ resolved hok => ?_, fun _ _ _ => ?_, fun hclient => ?_⟩
  · obtain ⟨binding, hhandle, hid, hgrants⟩ := h.grants resolved (Option.some.inj hok)
    exact ⟨binding, hhandle, hid, 0, hgrants⟩
  · simp only [Option.some.injEq, h.complete, hready]
  · cases haccount.symm.trans hclient

/-- What a service resolves a request to. -/
theorem resolution_resolveWith (h : LinkedResources resources registry parse accounts graph pools)
    {service : ProfileService}
    (hservice : ServiceFor resources registry parse originOf accounts graph profileId plan service)
    {route : CompiledRoute}
    (hroute : RouteWellFormed resources.providers resources.retryPolicies route)
    (hplan : route.plan = plan) {st : PoolStates} (hst : AllRegular st) :
    Resolution resources registry parse originOf accounts profileId plan transport ctx
      (st ("profile." ++ profileId)) now
      (resolveWith plan service transport ctx extracted now st).1 := by
  by_cases hnone : transport = .api ∧ plan.destinationPolicy = .original
  · simp only [resolveWith, if_pos hnone]
    exact resolution_none hnone _
  · simp only [resolveWith, if_neg hnone]
    cases service with
    | managed pool retry =>
      obtain ⟨⟨managed, rfl⟩, hpool⟩ := hservice
      rw [← poolFor_id hpool]
      refine ⟨fun _ resolved hok => ?_, fun _ hrelay => ?_, fun hclient => ?_⟩
      · exact grants_selectManaged h hpool (hst _) (Option.some.inj hok)
      · obtain ⟨relay, hrelay⟩ := hrelay
        cases hrelay
      · cases hclient
    | relay resolve retry =>
      cases resolve with
      | pool pool target =>
        obtain ⟨⟨relay, hrelay⟩, haccount, hpool, htarget⟩ := hservice
        rw [← poolFor_id hpool]
        cases transport with
        | api =>
          have hselected : ¬ plan.destinationPolicy = .original := fun horiginal =>
            hnone ⟨rfl, horiginal⟩
          have hanswers := @answers_selectRelay ρ τ ε resources registry parse originOf accounts graph
            pools profileId pool ctx extracted (st pool.id) (now 0) plan route hroute hplan haccount h
            hpool (hst _) relay hrelay hselected
          have hselect : select pool ctx extracted plan now (st pool.id) =
              selectRelay pool ctx extracted relay (now 0) (st pool.id) := by rw [hrelay, select]
          dsimp only
          rw [hselect]
          exact resolution_of_relayAnswers haccount (by simp) hanswers
        | proxy =>
          exact resolution_of_relayAnswers haccount (by simp)
            (answers_proxyResolve hroute hplan haccount htarget h hpool (hst _))
      | client fixed origins =>
        obtain ⟨hclient, rfl, hsome, horigins⟩ := hservice
        have hfixed := fun p (hp : fixedProvider plan = some p) =>
          (hplan ▸ hroute.fixed p (hplan ▸ hp)).2
        cases transport with
        | api =>
          refine ⟨fun haccount => ?_, fun haccount => ?_, fun _ hrestricted resolved hok => ?_⟩
          · cases hclient.symm.trans haccount
          · cases hclient.symm.trans haccount
          · have hnoOrigins : ∀ found, (none : Option (BTreeMap String String)) = some found →
                OriginsOf resources registry parse originOf accounts profileId plan found := by
              intro found hfound
              cases hfound
            exact leadsTo_of_clientResolve hclient hfixed
              (fun horiginal => absurd ⟨rfl, horiginal⟩ hnone) hnoOrigins (Option.some.inj hok)
        | proxy =>
          refine ⟨fun haccount => ?_, fun haccount => ?_, fun _ hrestricted resolved hok => ?_⟩
          · cases hclient.symm.trans haccount
          · cases hclient.symm.trans haccount
          · refine leadsTo_of_clientResolve hclient hfixed (fun horiginal => ?_) horigins
              (Option.some.inj hok)
            refine hsome.mpr ⟨horiginal, ?_⟩
            rcases hrestricted with hprovider | hproviders
            · rw [(original_iff_of_client hclient).mp horiginal] at hprovider
              cases hprovider
            · exact hproviders

end

end Tokn.Router.Runtimes
