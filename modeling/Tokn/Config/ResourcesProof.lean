import Tokn.Config.Resources

/-!
# Compiled resources

**Theorem (`compileResources_spec`).** What a compiled configuration names it has: each route that a
profile names, each provider that a route is fixed to, allows or scores, each retry policy, and a
pool for each profile whose requests carry credentials of accounts. A fixed provider is an allowed
one, a member of a family is no family, and a profile that has a pool has a provider left. The names
are those of the raw configuration, with the official providers that it does not disable.
-/

namespace Tokn.Config.Resources

open Tokn.Config.Profiles
open Tokn.Except (rejectIf bind_eq_ok foldlM_induction foldlM_invariant rejectIf_eq_ok)
open Tokn.Policy
open BTreeMap (get_insert mem_of_get)

/-! ## Well-formed resources -/

/-- A text that `parse_identifier` accepts. -/
def IsIdentifier (text : String) : Prop := validIdentifier true text.toList = true

instance (text : String) : Decidable (IsIdentifier text) := inferInstanceAs (Decidable (_ = _))

/-- A name without surrounding whitespace. -/
structure Canonical (text : String) : Prop where
  trim_eq : Str.trim text = text
  ne : text ≠ ""

structure ProviderPlan.WellFormed (plan : ProviderPlan) : Prop where
  driver : IsIdentifier plan.driver
  origins : plan.origins.Nodup

structure FamilyWellFormed (aliases : List String) (family : ModelFamily) : Prop where
  name : Canonical family.name
  members_ne : family.members ≠ []
  members_nodup : family.members.Nodup
  member : ∀ m ∈ family.members, Canonical m ∧ m ∉ aliases

/-- A managed route waits for recoverable errors, a relay has a way to replay requests. -/
def retryFits : RoutePlan → RouteRetry → Bool
  | _, .never => true
  | .managed _, .recoverable _ => true
  | .relay _, .safeMethods _ => true
  | .relay _, .buffered _ => true
  | _, _ => false

section

variable (providers : BTreeMap String ProviderPlan)

structure RouteWellFormed (policies : BTreeMap String RetryPolicyPlan) (route : CompiledRoute) :
    Prop where
  fixed : ∀ p, fixedProvider route.plan = some p →
    providers.contains p = true ∧ route.plan.allowsProvider p = true
  allowed : ∀ ids, route.plan.providers = some ids →
    ids ≠ [] ∧ ids.Nodup ∧ ∀ id ∈ ids, providers.contains id = true
  retry : ∀ policy, route.retry.policy = some policy → policies.contains policy = true
  retryFits : retryFits route.plan route.retry = true
  families : ∀ managed families, route.plan = .managed managed →
    managed.target.model = .family families →
    ∀ family ∈ families, FamilyWellFormed (families.map ModelFamily.name) family
  scores : ∀ managed model scores provider, route.plan = .managed managed →
    (model, scores) ∈ managed.modelScores → provider ∈ scores.map Prod.fst →
    providers.contains provider = true

/-- The route may use the provider. -/
def Serves (plan : RoutePlan) (provider : String) : Prop :=
  plan.allowsProvider provider = true ∧ ∀ p, fixedProvider plan = some p → p = provider

end

structure PolicyWellFormed (policy : RetryPolicyPlan) : Prop where
  retries : 1 ≤ policy.maxRetries.toNat ∧ policy.maxRetries.toNat ≤ 10
  backoff : policy.initialBackoff.nanos ≤ 60 * NANOS_PER_SEC

structure PoolWellFormed (pool : AccountPoolPlan) : Prop where
  providers : pool.selector.providers = none
  accounts : ∀ ids, pool.selector.accounts = some ids → ids.Nonempty ∧ ∀ id ∈ ids, Canonical id
  cooldown : pool.failureCooldown.nanos ≤ 86400 * NANOS_PER_SEC
  affinity : ∀ plan, pool.sessionAffinity = some plan →
    0 < plan.ttl ∧ plan.ttl ≤ 31536000 * NANOS_PER_SEC ∧
      plan.expiredRetention ≤ 31536000 * NANOS_PER_SEC

/-- A profile with what it names. -/
structure ProfileWellFormed (providers : BTreeMap String ProviderPlan)
    (routes : BTreeMap String CompiledRoute) (pools : BTreeMap String AccountPoolPlan) (id : String)
    (profile : ProfilePlan WireIdentity) (route : CompiledRoute) : Prop where
  found : routes.get profile.route = some route
  account : route.plan.credentialPolicy = .account →
    profile.accountPool = some ("profile." ++ id) ∧ pools.contains ("profile." ++ id) = true ∧
      ∃ provider, providers.contains provider = true ∧ Serves route.plan provider
  client : route.plan.credentialPolicy = .client →
    profile.accountPool = none ∧ profile.wireIdentity = .none
  identity : ∀ name, profile.wireIdentity = .named name → IsIdentifier name
  binding : profile.apiBinding = none ↔ route.plan.destinationPolicy = .original
  /-- The origin of a request names one provider. -/
  origin : route.plan.credentialPolicy = .account → route.plan.destinationPolicy = .original →
    ∀ p q plan plan', providers.get p = some plan → providers.get q = some plan' →
      route.plan.allowsProvider p = true → route.plan.allowsProvider q = true →
      ∀ o ∈ plan.origins, o ∈ plan'.origins → p = q

structure WellFormed (resources : CompiledResources) : Prop where
  sorted : BTreeMap.Sorted resources.providers
  provider : ∀ id plan, resources.providers.get id = some plan →
    IsIdentifier id ∧ ProviderPlan.WellFormed plan
  policies : ∀ id policy, resources.retryPolicies.get id = some policy →
    IsIdentifier id ∧ PolicyWellFormed policy
  routes : ∀ id route, resources.routes.get id = some route →
    IsIdentifier id ∧ RouteWellFormed resources.providers resources.retryPolicies route
  profiles : ∀ id profile, resources.profiles.get id = some profile → IsIdentifier id ∧
    ∃ route, ProfileWellFormed resources.providers resources.routes resources.accountPools id
      profile route
  pools : ∀ id pool, resources.accountPools.get id = some pool → PoolWellFormed pool
  bindings : ∀ id id' profile profile' binding binding', resources.profiles.get id = some profile →
    resources.profiles.get id' = some profile' → profile.apiBinding = some binding →
    profile'.apiBinding = some binding' → binding.path = binding'.path → id = id'

/-! ## References -/

variable {id : String}

theorem parse_ok {kind resource value : String} (h : parse kind resource value = .ok id) :
    id = value ∧ IsIdentifier value := by
  rw [parse, parseId, parseIdentifier] at h
  by_cases hvalid : validIdentifier true value.toList = true
  · rw [if_pos hvalid] at h
    cases h
    exact ⟨rfl, hvalid⟩
  · rw [if_neg hvalid] at h
    cases h

theorem parse_eq_ok {kind resource value : String} :
    parse kind resource value = .ok id ↔ parseId kind resource value = .ok id := by
  rw [parse]
  cases parseId kind resource value with
  | error error => simp
  | ok id' => simp

theorem requireReference_ok {ν : Type} {registry : BTreeMap String ν}
    {key ownerKind owner field targetKind rawTarget : String} {u : Unit}
    (h : requireReference registry key ownerKind owner field targetKind rawTarget = .ok u) :
    registry.contains key = true := by
  rw [requireReference] at h
  split_ifs at h with hkey
  exact hkey

theorem resolveProvider_ok {ownerKind owner field rawProvider : String}
    {providers : BTreeMap String ProviderPlan}
    (h : resolveProvider ownerKind owner field rawProvider providers = .ok id) :
    providers.contains id = true := by
  obtain ⟨provider, -, h⟩ := bind_eq_ok.mp h
  obtain ⟨_, hreference, h⟩ := bind_eq_ok.mp h
  cases h
  exact requireReference_ok hreference

theorem resolveRetryPolicy_ok {routeId rawPolicy : String}
    {policies : BTreeMap String RetryPolicyPlan}
    (h : resolveRetryPolicy routeId rawPolicy policies = .ok id) : policies.contains id = true := by
  obtain ⟨policy, -, h⟩ := bind_eq_ok.mp h
  obtain ⟨_, hreference, h⟩ := bind_eq_ok.mp h
  cases h
  exact requireReference_ok hreference

/-! ## Providers -/

theorem sorted_erase {ν : Type} {m : BTreeMap String ν} (h : BTreeMap.Sorted m) (k : String) :
    BTreeMap.Sorted (m.erase k) := by
  have hsub : (m.erase k).Sublist m := by
    induction m with
    | nil => exact List.Sublist.refl _
    | cons e m ih =>
      obtain ⟨k', v⟩ := e
      rw [BTreeMap.erase]
      have hrest := ih (List.pairwise_cons.mp h).2
      split_ifs
      · exact hrest.cons _
      · exact hrest.cons_cons _
  exact List.Pairwise.sublist (hsub.map Prod.fst) h

section

variable {url : UpstreamSyntax}

theorem claimOrigin_ok {provider origin : String} {origins origins' : List String}
    (h : claimOrigin provider origins origin = .ok origins') (hnodup : origins.Nodup) :
    origins'.Nodup := by
  obtain ⟨_, hnew, h⟩ := bind_eq_ok.mp h
  cases h
  have hnot : origin ∉ origins := by simpa using rejectIf_eq_ok.mp hnew
  simp [List.nodup_append, hnodup]
  intro a ha heq
  exact hnot (heq ▸ ha)

theorem compileEnabledProvider_ok {rawId : String} {raw : RawProvider} {plan : ProviderPlan}
    (h : compileEnabledProvider url rawId raw = .ok plan) : ProviderPlan.WellFormed plan := by
  rw [compileEnabledProvider] at h
  cases hdriver : raw.driver.or ((officialProviderPreset rawId).map OfficialProviderPreset.driver) with
  | none =>
    rw [hdriver] at h
    cases h
  | some rawDriver =>
    rw [hdriver] at h
    obtain ⟨driver, hparse, h⟩ := bind_eq_ok.mp h
    obtain ⟨base, -, h⟩ := bind_eq_ok.mp h
    obtain ⟨baseOrigins, hbase, h⟩ := bind_eq_ok.mp h
    obtain ⟨origins, horigins, h⟩ := bind_eq_ok.mp h
    cases h
    obtain ⟨rfl, hid⟩ := parse_ok hparse
    refine ⟨hid, ?_⟩
    have hfirst : baseOrigins.Nodup :=
      foldlM_invariant List.Nodup List.nodup_nil (fun _ _ _ hb hc => claimOrigin_ok hc hb) hbase
    refine foldlM_invariant List.Nodup hfirst (fun _ _ _ hb hc => ?_) horigins
    obtain ⟨origin, -, hclaim⟩ := bind_eq_ok.mp hc
    exact claimOrigin_ok hclaim hb

/-- What the loop of `compile_providers` keeps. -/
structure ProvidersWellFormed (plans : BTreeMap String ProviderPlan) : Prop where
  sorted : BTreeMap.Sorted plans
  provider : ∀ id plan, plans.get id = some plan → IsIdentifier id ∧ ProviderPlan.WellFormed plan

variable {plans : BTreeMap String ProviderPlan}

theorem ProvidersWellFormed.insert {id : String} {plan : ProviderPlan}
    (h : ProvidersWellFormed plans) (hid : IsIdentifier id) (hplan : ProviderPlan.WellFormed plan) :
    ProvidersWellFormed (plans.insert id plan) where
  sorted := h.sorted.insert _ _
  provider id' plan' hget := by
    rw [get_insert] at hget
    split_ifs at hget with hsame
    · cases hget
      exact ⟨hsame ▸ hid, hplan⟩
    · exact h.provider id' plan' hget

theorem ProvidersWellFormed.erase (h : ProvidersWellFormed plans) (id : String) :
    ProvidersWellFormed (plans.erase id) where
  sorted := sorted_erase h.sorted id
  provider id' plan' hget := by
    rw [BTreeMap.get_erase] at hget
    split_ifs at hget
    exact h.provider id' plan' hget

theorem compileProvider_ok {plans' : BTreeMap String ProviderPlan} {entry : String × RawProvider}
    (hplans : ProvidersWellFormed plans) (h : compileProvider url plans entry = .ok plans') :
    ProvidersWellFormed plans' := by
  obtain ⟨rawId, raw⟩ := entry
  obtain ⟨id, hid, h⟩ := bind_eq_ok.mp h
  obtain ⟨rfl, hident⟩ := parse_ok hid
  by_cases henable : raw.enable = true
  · rw [if_pos henable] at h
    obtain ⟨plan, hplan, h⟩ := bind_eq_ok.mp h
    cases h
    exact hplans.insert hident (compileEnabledProvider_ok hplan)
  · rw [if_neg henable] at h
    obtain ⟨_, -, h⟩ := bind_eq_ok.mp h
    cases h
    exact hplans.erase _

theorem presetPlan_ok {preset : OfficialProviderPreset} {entry : String × ProviderPlan}
    (h : presetPlan preset = .ok entry) :
    IsIdentifier entry.1 ∧ ProviderPlan.WellFormed entry.2 := by
  obtain ⟨id, hid, h⟩ := bind_eq_ok.mp h
  obtain ⟨driver, hdriver, h⟩ := bind_eq_ok.mp h
  cases h
  obtain ⟨rfl, hident⟩ := parse_ok hid
  obtain ⟨rfl, hdriver'⟩ := parse_ok hdriver
  exact ⟨hident, hdriver', List.nodup_nil⟩

theorem compileProviders_ok {raw : BTreeMap String RawProvider}
    (h : compileProviders url raw = .ok plans) : ProvidersWellFormed plans := by
  obtain ⟨presets, hpresets, h⟩ := bind_eq_ok.mp h
  refine foldlM_invariant ProvidersWellFormed ?_ (fun _ _ _ hb hc => compileProvider_ok hb hc) h
  have hall : ∀ entry ∈ presets, IsIdentifier entry.1 ∧ ProviderPlan.WellFormed entry.2 := by
    intro entry hentry
    obtain ⟨preset, -, hpreset⟩ := Except.mem_of_mapM_eq_ok hpresets hentry
    exact presetPlan_ok hpreset
  clear hpresets h
  induction presets using List.reverseRecOn with
  | nil => exact ⟨BTreeMap.sorted_nil, fun _ _ hget => by cases hget⟩
  | append_singleton presets entry ih =>
    rw [BTreeMap.extend_concat]
    have hlast := hall entry (by simp)
    exact (ih fun e he => hall e (by simp [he])).insert hlast.1 hlast.2

end

/-! ## Retry policies -/

theorem compileRetryPolicy_ok {entry : String × RawRetryPolicy} {compiled : String × RetryPolicyPlan}
    (h : compileRetryPolicy entry = .ok compiled) :
    IsIdentifier compiled.1 ∧ PolicyWellFormed compiled.2 := by
  obtain ⟨rawId, raw⟩ := entry
  obtain ⟨id, hid, h⟩ := bind_eq_ok.mp h
  obtain ⟨_, hretries, h⟩ := bind_eq_ok.mp h
  obtain ⟨_, hbackoff, h⟩ := bind_eq_ok.mp h
  cases h
  obtain ⟨rfl, hident⟩ := parse_ok hid
  have hle : ¬ MAX_INITIAL_BACKOFF_MS < raw.initialBackoffMs := by
    simpa using rejectIf_eq_ok.mp hbackoff
  have hmillis : raw.initialBackoffMs.toNat ≤ 60000 :=
    UInt64.le_iff_toNat_le.mp (UInt64.not_lt.mp hle)
  have hcount := rejectIf_eq_ok.mp hretries
  rw [Bool.or_eq_false_iff, decide_eq_false_iff_not, decide_eq_false_iff_not] at hcount
  have hpos : 0 < raw.maxRetries.toNat :=
    Nat.pos_of_ne_zero fun hzero => hcount.1 (UInt32.toNat_inj.mp hzero)
  have hmost : raw.maxRetries.toNat ≤ 10 := UInt32.le_iff_toNat_le.mp (UInt32.not_lt.mp hcount.2)
  refine ⟨hident, ⟨hpos, hmost⟩, ?_⟩
  rw [durationFromMillis, NANOS_PER_SEC]
  dsimp only
  omega

theorem compileRetryPolicies_ok {raw : BTreeMap String RawRetryPolicy}
    {policies : BTreeMap String RetryPolicyPlan} (h : compileRetryPolicies raw = .ok policies)
    {policy : RetryPolicyPlan} (hget : policies.get id = some policy) :
    IsIdentifier id ∧ PolicyWellFormed policy := by
  obtain ⟨entry, -, hentry⟩ := Except.mem_of_mapM_eq_ok h (mem_of_get hget)
  exact compileRetryPolicy_ok hentry

/-! ## Routes -/

section

variable {providers : BTreeMap String ProviderPlan}

/-- Each provider that a model score names is there. -/
def ScoresResolve (providers : BTreeMap String ProviderPlan)
    (scores : BTreeMap String ProviderScores) : Prop :=
  ∀ model found provider, (model, found) ∈ scores → provider ∈ found.map Prod.fst →
    providers.contains provider = true

variable {scores : BTreeMap String ProviderScores} {routeId : String}

theorem compileModelScore_ok {scores' : BTreeMap String ProviderScores}
    {entry : String × BTreeMap String Int} (hscores : ScoresResolve providers scores)
    (h : compileModelScore providers scores entry = .ok scores') :
    ScoresResolve providers scores' := by
  obtain ⟨model, raw⟩ := entry
  rw [compileModelScore] at h
  cases hpattern : modelScorePatternError model with
  | some message =>
    rw [hpattern] at h
    cases h
  | none =>
    rw [hpattern] at h
    obtain ⟨_, -, h⟩ := bind_eq_ok.mp h
    obtain ⟨found, hfound, h⟩ := bind_eq_ok.mp h
    cases h
    have hresolved : ∀ provider ∈ found.map Prod.fst, providers.contains provider = true := by
      refine foldlM_invariant
        (fun found : ProviderScores => ∀ p ∈ found.map Prod.fst, providers.contains p = true)
        (by simp) (fun found score found' hkeep hstep => ?_) hfound
      obtain ⟨provider, hprovider, hstep⟩ := bind_eq_ok.mp hstep
      cases hstep
      intro p hp
      obtain ⟨e, he, rfl⟩ := List.mem_map.mp hp
      rcases BTreeMap.mem_insert he with rfl | hold
      · exact resolveProvider_ok hprovider
      · exact hkeep _ (List.mem_map_of_mem hold)
    intro model' found' provider hmem hprovider
    rcases BTreeMap.mem_insert hmem with heq | hold
    · cases heq
      exact hresolved provider hprovider
    · exact hscores model' found' provider hold hprovider

theorem compileModelScores_ok {raw : BTreeMap String (BTreeMap String Int)}
    (h : compileModelScores providers raw = .ok scores) : ScoresResolve providers scores := by
  refine foldlM_invariant (ScoresResolve providers) ?_
    (fun _ _ _ hb hc => compileModelScore_ok hb hc) h
  intro model found provider hmem
  cases hmem

theorem canonical_of_check {text : String} {error : ResourceError} {u : Unit}
    (h : rejectIf (Str.trim text = "" || Str.trim text ≠ text) error = .ok u) : Canonical text := by
  have hchecked := rejectIf_eq_ok.mp h
  rw [Bool.or_eq_false_iff, decide_eq_false_iff_not, decide_eq_false_iff_not, not_not] at hchecked
  exact ⟨hchecked.2, fun hempty => hchecked.1 (hchecked.2.trans hempty)⟩

/-- The members that the loop of a family has seen are the members so far. -/
theorem compileMembers_ok {location : String} {aliases : List String} {members : List (String × Nat)}
    {seen : List String} (h : members.foldlM (compileMember location aliases) [] = .ok seen) :
    seen = members.map Prod.fst ∧ seen.Nodup ∧ ∀ m ∈ seen, Canonical m ∧ m ∉ aliases := by
  refine foldlM_induction (fun members seen => seen = members.map Prod.fst ∧ seen.Nodup ∧
    ∀ m ∈ seen, Canonical m ∧ m ∉ aliases) (by simp) ?_ h
  intro members entry seen seen' _ hseen hstep
  obtain ⟨member, index⟩ := entry
  obtain ⟨_, hname, hstep⟩ := bind_eq_ok.mp hstep
  obtain ⟨_, halias, hstep⟩ := bind_eq_ok.mp hstep
  obtain ⟨_, hnew, hstep⟩ := bind_eq_ok.mp hstep
  cases hstep
  obtain ⟨hmap, hnodup, hmember⟩ := hseen
  have hfresh : member ∉ seen := by simpa using rejectIf_eq_ok.mp hnew
  have hother : member ∉ aliases := by simpa using rejectIf_eq_ok.mp halias
  refine ⟨by simp [hmap], ?_, ?_⟩
  · rw [← List.concat_eq_append]
    exact hnodup.concat hfresh
  · intro m hm
    rcases List.mem_append.mp hm with hm | hm
    · exact hmember m hm
    · rw [List.mem_singleton.mp hm]
      exact ⟨canonical_of_check hname, hother⟩

theorem compileFamily_ok {aliases : List String} {entry : String × List String}
    {family : ModelFamily} (h : compileFamily routeId aliases entry = .ok family) :
    family.name = entry.1 ∧ FamilyWellFormed aliases family := by
  obtain ⟨name, members⟩ := entry
  obtain ⟨_, hname, h⟩ := bind_eq_ok.mp h
  obtain ⟨_, hne, h⟩ := bind_eq_ok.mp h
  obtain ⟨seen, hseen, h⟩ := bind_eq_ok.mp h
  cases h
  obtain ⟨hmap, hnodup, hmember⟩ := compileMembers_ok hseen
  rw [List.zipIdx_map_fst] at hmap
  subst hmap
  exact ⟨rfl, canonical_of_check hname, by simpa using rejectIf_eq_ok.mp hne, hnodup, hmember⟩

theorem compileModelSelector_ok {raw : RawModelSelector} {model : ModelSelector}
    {families : List ModelFamily} (h : compileModelSelector routeId raw = .ok model)
    (hmodel : model = .family families) :
    ∀ family ∈ families, FamilyWellFormed (families.map ModelFamily.name) family := by
  subst hmodel
  cases raw with
  | capability => cases h
  | qualified ns => cases h
  | family rawFamilies =>
    obtain ⟨compiled, hcompiled, h⟩ := bind_eq_ok.mp h
    cases h
    have hnames : families.map ModelFamily.name = rawFamilies.map Prod.fst := by
      have hall := Except.mapM_eq_ok.mp hcompiled
      have hsame : List.Forall₂ (fun e (f : ModelFamily) => f.name = e.1) rawFamilies families :=
        hall.imp fun _ _ hstep => (compileFamily_ok hstep).1
      clear hall hcompiled h
      induction hsame with
      | nil => rfl
      | cons hhead _ ih => rw [List.map_cons, List.map_cons, hhead, ih]
    intro family hfamily
    obtain ⟨entry, -, hentry⟩ := Except.mem_of_mapM_eq_ok hcompiled hfamily
    rw [hnames]
    exact (compileFamily_ok hentry).2

theorem compileRouteProviders_ok {raw : Option (List String)} {allowed : Option (List String)}
    {ids : List String} (h : compileRouteProviders routeId providers raw = .ok allowed)
    (hids : allowed = some ids) :
    ids ≠ [] ∧ ids.Nodup ∧ ∀ id ∈ ids, providers.contains id = true := by
  subst hids
  cases raw with
  | none => cases h
  | some values =>
    obtain ⟨_, hshape, h⟩ := bind_eq_ok.mp h
    by_cases hwildcard : values = ["*"]
    · rw [if_pos hwildcard] at h
      cases h
    · rw [if_neg hwildcard] at h
      obtain ⟨found, hfound, h⟩ := bind_eq_ok.mp h
      cases h
      have hloop : ids.length = values.length ∧ ids.Nodup ∧
          ∀ id ∈ ids, providers.contains id = true := by
        refine foldlM_induction (fun values (ids : List String) =>
          ids.length = values.length ∧ ids.Nodup ∧ ∀ id ∈ ids, providers.contains id = true)
          (by simp) ?_ hfound
        intro values value ids ids' _ hkeep hstep
        obtain ⟨id, hid, hstep⟩ := bind_eq_ok.mp hstep
        obtain ⟨_, hnew, hstep⟩ := bind_eq_ok.mp hstep
        cases hstep
        obtain ⟨hlength, hnodup, hresolved⟩ := hkeep
        have hfresh : id ∉ ids := by simpa using rejectIf_eq_ok.mp hnew
        refine ⟨by simp [hlength], ?_, ?_⟩
        · rw [← List.concat_eq_append]
          exact hnodup.concat hfresh
        · intro p hp
          rcases List.mem_append.mp hp with hp | hp
          · exact hresolved p hp
          · rw [List.mem_singleton.mp hp]
            exact resolveProvider_ok hid
      refine ⟨fun hnil => ?_, hloop.2⟩
      obtain ⟨_, hvalues, -⟩ := bind_eq_ok.mp hshape
      rw [hnil, List.length_nil, eq_comm, List.length_eq_zero_iff] at hloop
      simp [hloop.1] at hvalues
      cases hvalues

variable {policies : BTreeMap String RetryPolicyPlan}

theorem compileManagedRetry_ok {raw retry : RouteRetry}
    (h : compileManagedRetry routeId policies raw = .ok retry) (route : ManagedRoute) :
    (∀ policy, retry.policy = some policy → policies.contains policy = true) ∧
      retryFits (.managed route) retry = true := by
  cases raw with
  | never =>
    cases h
    exact ⟨fun policy hpolicy => (by cases hpolicy), rfl⟩
  | recoverable policy =>
    obtain ⟨id, hid, h⟩ := bind_eq_ok.mp h
    cases h
    refine ⟨fun policy hpolicy => ?_, rfl⟩
    cases hpolicy
    exact resolveRetryPolicy_ok hid
  | safeMethods policy => cases h
  | buffered policy => cases h

theorem compileRelayRetry_ok {raw retry : RouteRetry}
    (h : compileRelayRetry routeId policies raw = .ok retry) (route : RelayRoute) :
    (∀ policy, retry.policy = some policy → policies.contains policy = true) ∧
      retryFits (.relay route) retry = true := by
  cases raw with
  | never =>
    cases h
    exact ⟨fun policy hpolicy => (by cases hpolicy), rfl⟩
  | recoverable policy => cases h
  | safeMethods policy =>
    obtain ⟨id, hid, h⟩ := bind_eq_ok.mp h
    cases h
    refine ⟨fun policy hpolicy => ?_, rfl⟩
    cases hpolicy
    exact resolveRetryPolicy_ok hid
  | buffered policy =>
    obtain ⟨id, hid, h⟩ := bind_eq_ok.mp h
    cases h
    refine ⟨fun policy hpolicy => ?_, rfl⟩
    cases hpolicy
    exact resolveRetryPolicy_ok hid

/-- A managed route as `compile_routes` has made it, before its restriction. -/
structure ManagedWellFormed (providers : BTreeMap String ProviderPlan) (route : ManagedRoute) :
    Prop where
  fixed : ∀ p, route.target.provider = .fixed p → providers.contains p = true
  families : ∀ families, route.target.model = .family families →
    ∀ family ∈ families, FamilyWellFormed (families.map ModelFamily.name) family
  scores : ScoresResolve providers route.modelScores

/-- A route before its restriction. -/
inductive KindWellFormed (providers : BTreeMap String ProviderPlan) : RoutePlan → Prop
  | managed {route : ManagedRoute} (h : ManagedWellFormed providers route) :
      KindWellFormed providers (.managed route)
  | relay {route : RelayRoute}
      (h : ∀ p, route.destination = .fixedProvider p → providers.contains p = true) :
      KindWellFormed providers (.relay route)

theorem compileRouteKind_ok {rawId : String} {raw : RawRoute} {allowed : Option (List String)}
    {route : CompiledRoute} (hscores : ScoresResolve providers scores)
    (h : compileRouteKind providers policies scores rawId raw = .ok (allowed, route)) :
    KindWellFormed providers route.plan ∧
      (∀ policy, route.retry.policy = some policy → policies.contains policy = true) ∧
      retryFits route.plan route.retry = true := by
  cases raw with
  | managed rawAllowed provider model operation retry =>
    obtain ⟨selector, hselector, h⟩ := bind_eq_ok.mp h
    obtain ⟨selected, hmodel, h⟩ := bind_eq_ok.mp h
    obtain ⟨compiled, hretry, h⟩ := bind_eq_ok.mp h
    cases h
    refine ⟨.managed ⟨fun p hp => ?_, fun families hf => compileModelSelector_ok hmodel hf, hscores⟩,
      compileManagedRetry_ok hretry _⟩
    cases provider with
    | any =>
      cases hselector
      cases hp
    | fixed rawProvider =>
      obtain ⟨id, hid, hselector⟩ := bind_eq_ok.mp hselector
      cases hselector
      cases hp
      exact resolveProvider_ok hid
  | relay rawAllowed destination credentials retry =>
    obtain ⟨compiled, hdestination, h⟩ := bind_eq_ok.mp h
    obtain ⟨found, hretry, h⟩ := bind_eq_ok.mp h
    cases h
    refine ⟨.relay fun p hp => ?_, compileRelayRetry_ok hretry _⟩
    cases destination with
    | original =>
      cases hdestination
      cases hp
    | fixedProvider rawProvider =>
      obtain ⟨id, hid, hdestination⟩ := bind_eq_ok.mp hdestination
      cases hdestination
      cases hp
      exact resolveProvider_ok hid

theorem compileRoute_ok {entry : String × RawRoute} {compiled : String × CompiledRoute}
    (hscores : ScoresResolve providers scores)
    (h : compileRoute providers policies scores entry = .ok compiled) :
    IsIdentifier compiled.1 ∧ RouteWellFormed providers policies compiled.2 := by
  obtain ⟨rawId, raw⟩ := entry
  obtain ⟨id, hid, h⟩ := bind_eq_ok.mp h
  obtain ⟨⟨rawAllowed, route⟩, hkind, h⟩ := bind_eq_ok.mp h
  obtain ⟨allowed, hallowed, h⟩ := bind_eq_ok.mp h
  obtain ⟨_, hfixed, h⟩ := bind_eq_ok.mp h
  cases h
  obtain ⟨rfl, hident⟩ := parse_ok hid
  obtain ⟨hplan, hpolicy, hfits⟩ := compileRouteKind_ok hscores hkind
  have hexcluded := rejectIf_eq_ok.mp hfixed
  refine ⟨hident, ?_⟩
  have hallows : ∀ p, fixedProvider (withProviders allowed route.plan) = some p →
      (withProviders allowed route.plan).allowsProvider p = true := by
    intro p hp
    rw [hp] at hexcluded
    simpa using hexcluded
  obtain ⟨plan, retry⟩ := route
  cases hplan with
  | @managed managed hmanaged =>
    refine ⟨fun p hp => ⟨?_, hallows p hp⟩, fun ids hids => compileRouteProviders_ok hallowed hids,
      hpolicy, ?_, fun _ families heq hmodel => ?_, fun _ model found provider heq hmem hp => ?_⟩
    · cases hprovider : managed.target.provider with
      | any => simp [withProviders, fixedProvider, hprovider] at hp
      | fixed q =>
        simp [withProviders, fixedProvider, hprovider] at hp
        exact hmanaged.fixed p (hp ▸ hprovider)
    · cases retry <;> exact hfits
    · cases heq
      exact hmanaged.families families hmodel
    · cases heq
      exact hmanaged.scores model found provider hmem hp
  | @relay relay hrelay =>
    refine ⟨fun p hp => ⟨?_, hallows p hp⟩, fun ids hids => compileRouteProviders_ok hallowed hids,
      hpolicy, ?_, fun _ families heq hmodel => ?_, fun _ model found provider heq hmem hp => ?_⟩
    · cases hdestination : relay.destination with
      | original => simp [withProviders, fixedProvider, hdestination] at hp
      | fixedProvider q =>
        simp [withProviders, fixedProvider, hdestination] at hp
        exact hrelay p (hp ▸ hdestination)
    · cases retry <;> exact hfits
    · cases heq
    · cases heq

theorem compileRoutes_ok {scores : BTreeMap String ProviderScores} {raw : BTreeMap String RawRoute}
    {routes : BTreeMap String CompiledRoute} (hscores : ScoresResolve providers scores)
    (h : compileRoutes providers policies scores raw = .ok routes) {id : String}
    {route : CompiledRoute} (hget : routes.get id = some route) :
    IsIdentifier id ∧ RouteWellFormed providers policies route := by
  obtain ⟨entry, -, hentry⟩ := Except.mem_of_mapM_eq_ok h (mem_of_get hget)
  exact compileRoute_ok hscores hentry

end

/-! ## Account pools -/

theorem checkPoolSecs_ok {location field : String} {seconds maximum : UInt64} {u : Unit} {most : Nat}
    (h : checkPoolSecs location field seconds maximum = .ok u) (hmost : maximum.toNat = most) :
    (durationFromSecs seconds).nanos ≤ most * NANOS_PER_SEC := by
  have hle : ¬ maximum < seconds := by simpa using rejectIf_eq_ok.mp h
  subst hmost
  exact Nat.mul_le_mul_right _ (UInt64.le_iff_toNat_le.mp (UInt64.not_lt.mp hle))

theorem compileAccountFilter_ok {location : String} {raw : Option (List String)}
    {filter : Option (Finset String)} {ids : Finset String}
    (h : compileAccountFilter location raw = .ok filter) (hids : filter = some ids) :
    ids.Nonempty ∧ ∀ id ∈ ids, Canonical id := by
  subst hids
  cases raw with
  | none => cases h
  | some values =>
    obtain ⟨_, hshape, h⟩ := bind_eq_ok.mp h
    by_cases hwildcard : values = ["*"]
    · rw [if_pos hwildcard] at h
      cases h
    · rw [if_neg hwildcard] at h
      obtain ⟨found, hfound, h⟩ := bind_eq_ok.mp h
      cases h
      have hloop : (∀ value ∈ values, value ∈ ids) ∧ ∀ id ∈ ids, Canonical id := by
        refine foldlM_induction (fun values (ids : Finset String) =>
          (∀ value ∈ values, value ∈ ids) ∧ ∀ id ∈ ids, Canonical id) (by simp) ?_ hfound
        intro values value ids ids' _ hkeep hstep
        obtain ⟨_, htrim, hstep⟩ := bind_eq_ok.mp hstep
        obtain ⟨_, -, hstep⟩ := bind_eq_ok.mp hstep
        cases hstep
        refine ⟨fun v hv => ?_, fun v hv => ?_⟩
        · rcases List.mem_append.mp hv with hv | hv
          · exact Finset.mem_insert_of_mem (hkeep.1 v hv)
          · rw [List.mem_singleton.mp hv]
            exact Finset.mem_insert_self _ _
        · rcases Finset.mem_insert.mp hv with rfl | hv
          · exact canonical_of_check htrim
          · exact hkeep.2 v hv
      obtain ⟨_, hvalues, -⟩ := bind_eq_ok.mp hshape
      have hne := rejectIf_eq_ok.mp hvalues
      cases values with
      | nil => cases hne
      | cons value values => exact ⟨⟨value, hloop.1 value List.mem_cons_self⟩, hloop.2⟩

theorem compileAccountPool_ok {profile : String} {raw : RawAccountPool} {pool : AccountPoolPlan}
    (h : compileAccountPool profile raw = .ok pool) : PoolWellFormed pool := by
  obtain ⟨_, hcooldown, h⟩ := bind_eq_ok.mp h
  obtain ⟨_, hsession, h⟩ := bind_eq_ok.mp h
  obtain ⟨_, hexpired, h⟩ := bind_eq_ok.mp h
  obtain ⟨accounts, haccounts, h⟩ := bind_eq_ok.mp h
  obtain ⟨_, -, h⟩ := bind_eq_ok.mp h
  cases h
  refine ⟨rfl, fun ids hids => compileAccountFilter_ok haccounts hids, checkPoolSecs_ok hcooldown rfl,
    fun plan hplan => ?_⟩
  by_cases hzero : raw.sessionTtlSecs = 0
  · simp [hzero] at hplan
  · simp only [if_neg hzero, Option.some.injEq] at hplan
    subst hplan
    have hpos : 0 < raw.sessionTtlSecs.toNat :=
      Nat.pos_of_ne_zero fun h => hzero (UInt64.toNat_inj.mp h)
    exact ⟨Nat.mul_pos hpos (by decide), checkPoolSecs_ok hsession rfl, checkPoolSecs_ok hexpired rfl⟩

/-! ## Profiles -/

/-- A name of a wire identity is an identifier. -/
theorem compileWireIdentity_named {profileId name : String} {raw : RawWireIdentity}
    {route : RoutePlan} (h : compileWireIdentity profileId raw route = .ok (.named name)) :
    IsIdentifier name := by
  cases raw with
  | auto =>
    simp only [compileWireIdentity] at h
    split_ifs at h <;> cases h
  | none => cases h
  | providerDefault =>
    obtain ⟨_, -, h⟩ := bind_eq_ok.mp h
    cases h
  | named rawId =>
    obtain ⟨_, -, h⟩ := bind_eq_ok.mp h
    obtain ⟨id, hid, h⟩ := bind_eq_ok.mp h
    cases h
    obtain ⟨rfl, hident⟩ := parse_ok hid
    exact hident

theorem compileWireIdentity_ok {profileId : String} {raw : RawWireIdentity} {route : RoutePlan}
    {identity : WireIdentity} (h : compileWireIdentity profileId raw route = .ok identity)
    (hclient : route.credentialPolicy = .client) : identity = .none := by
  cases raw with
  | auto =>
    simp only [compileWireIdentity, if_pos hclient] at h
    exact (Except.ok.inj h).symm
  | none => exact (Except.ok.inj h).symm
  | providerDefault =>
    obtain ⟨_, hreject, -⟩ := bind_eq_ok.mp h
    simpa [hclient] using rejectIf_eq_ok.mp hreject
  | named rawId =>
    obtain ⟨_, hreject, -⟩ := bind_eq_ok.mp h
    simpa [hclient] using rejectIf_eq_ok.mp hreject

theorem ownOrigins_ok {owners owners' : BTreeMap String String} {entry : String × ProviderPlan}
    (h : ownOrigins owners entry = .ok owners') :
    (∀ o p, owners.get o = some p → owners'.get o = some p) ∧
      ∀ o ∈ entry.2.origins, owners'.get o = some entry.1 := by
  refine foldlM_induction (fun origins owners' =>
    (∀ o p, owners.get o = some p → owners'.get o = some p) ∧
      ∀ o ∈ origins, owners'.get o = some entry.1) ⟨fun _ _ hget => hget, by simp⟩ ?_ h
  intro origins origin found found' _ hkeep hstep
  cases hget : found.get origin with
  | some first =>
    simp only [hget] at hstep
    cases hstep
  | none =>
    simp only [hget] at hstep
    cases hstep
    have hgrow : ∀ o p, found.get o = some p → (found.insert origin entry.1).get o = some p := by
      intro o p ho
      rw [BTreeMap.get_insert_of_ne _ (fun heq => ?_), ho]
      rw [heq, hget] at ho
      cases ho
    refine ⟨fun o p ho => hgrow o p (hkeep.1 o p ho), fun o ho => ?_⟩
    rcases List.mem_append.mp ho with ho | ho
    · exact hgrow o _ (hkeep.2 o ho)
    · rw [List.mem_singleton.mp ho, BTreeMap.get_insert_self]

/-- No two providers of an origin-based relay own one origin. -/
theorem ensureOriginRelayViable_ok {profile : String} {providers : BTreeMap String ProviderPlan}
    {u : Unit} (h : ensureOriginRelayViable profile providers = .ok u) {e e' : String × ProviderPlan}
    (he : e ∈ providers) (he' : e' ∈ providers) {o : String} (ho : o ∈ e.2.origins)
    (ho' : o ∈ e'.2.origins) : e.1 = e'.1 := by
  obtain ⟨owners, howners, -⟩ := bind_eq_ok.mp h
  have hall : ∀ e ∈ providers, ∀ o ∈ e.2.origins, owners.get o = some e.1 := by
    refine foldlM_induction (fun entries (owners : BTreeMap String String) =>
      ∀ e ∈ entries, ∀ o ∈ e.2.origins, owners.get o = some e.1) (by simp) ?_ howners
    intro entries entry found found' _ hkeep hstep e he o ho
    obtain ⟨hgrow, hown⟩ := ownOrigins_ok hstep
    rcases List.mem_append.mp he with he | he
    · exact hgrow o _ (hkeep e he o ho)
    · rw [List.mem_singleton.mp he] at ho ⊢
      exact hown o ho
  exact Option.some.inj ((hall e he o ho).symm.trans (hall e' he' o ho'))

section

variable {providers : BTreeMap String ProviderPlan} {routes : BTreeMap String CompiledRoute}

/-- A route that is viable has a provider. -/
theorem exists_serves {plan : RoutePlan} (h : viable plan providers = true)
    (hfixed : ∀ p, fixedProvider plan = some p → providers.contains p = true) :
    ∃ provider, providers.contains provider = true ∧ Serves plan provider := by
  rw [viable] at h
  cases hplan : fixedProvider plan with
  | some p =>
    rw [hplan] at h
    refine ⟨p, hfixed p hplan, h, fun q hq => ?_⟩
    exact Option.some.inj (hq.symm.trans hplan)
  | none =>
    rw [hplan] at h
    obtain ⟨p, hp, hallows⟩ := List.any_eq_true.mp h
    refine ⟨p, ?_, hallows, fun q hq => ?_⟩
    · rw [BTreeMap.contains, Option.isSome_iff_ne_none, ne_eq, BTreeMap.get_eq_none_iff, not_not]
      exact hp
    · cases hplan.symm.trans hq

/-- What the loop of `compile_profiles` keeps. -/
structure ProfilesWellFormed (providers : BTreeMap String ProviderPlan)
    (routes : BTreeMap String CompiledRoute) (st : ProfileState) : Prop where
  profile : ∀ id profile, st.profiles.get id = some profile → IsIdentifier id ∧
    ∃ route, ProfileWellFormed providers routes st.pools id profile route
  pool : ∀ id pool, st.pools.get id = some pool → PoolWellFormed pool

theorem ProfileWellFormed.mono {pools pools' : BTreeMap String AccountPoolPlan} {id : String}
    {profile : ProfilePlan WireIdentity} {route : CompiledRoute}
    (h : ProfileWellFormed providers routes pools id profile route)
    (hpools : ∀ id, pools.contains id = true → pools'.contains id = true) :
    ProfileWellFormed providers routes pools' id profile route :=
  { h with account := fun haccount =>
      ⟨(h.account haccount).1, hpools _ (h.account haccount).2.1, (h.account haccount).2.2⟩ }

/-- What the account pool of a profile is. -/
structure PoolStep (providers : BTreeMap String ProviderPlan) (name : String) (route : RoutePlan)
    (plan plan' : ProfilePlan WireIdentity) (pools pools' : BTreeMap String AccountPoolPlan) :
    Prop where
  frame : plan'.route = plan.route ∧ plan'.wireIdentity = plan.wireIdentity ∧
    plan'.apiBinding = plan.apiBinding
  client : route.credentialPolicy = .client → plan'.accountPool = plan.accountPool
  account : route.credentialPolicy = .account → plan'.accountPool = some ("profile." ++ name) ∧
    pools'.contains ("profile." ++ name) = true ∧ validateProfileProviders name route providers = .ok ()
  grow : ∀ id, pools.contains id = true → pools'.contains id = true
  pool : ∀ id pool, pools'.get id = some pool → pools.get id = some pool ∨ PoolWellFormed pool

theorem compileProfilePool_ok {name : String} {profile : RawProfile RawWireIdentity RawAccountPool}
    {route : RoutePlan} {plan plan' : ProfilePlan WireIdentity}
    {pools pools' : BTreeMap String AccountPoolPlan}
    (h : compileProfilePool (profileChecks providers) name profile route plan pools =
      .ok (plan', pools')) :
    PoolStep providers name route plan plan' pools pools' := by
  rw [compileProfilePool] at h
  by_cases haccount : route.credentialPolicy = .account
  · rw [if_pos haccount] at h
    obtain ⟨poolId, hid, h⟩ := bind_eq_ok.mp h
    obtain ⟨pool, hpool, h⟩ := bind_eq_ok.mp h
    obtain ⟨u, hproviders, h⟩ := bind_eq_ok.mp h
    cases h
    obtain rfl := lift_parseId_ok hid
    refine ⟨⟨rfl, rfl, rfl⟩, fun hclient => ?_, fun _ => ⟨rfl, ?_, hproviders⟩, fun id hid => ?_,
      fun id found hget => ?_⟩
    · cases haccount.symm.trans hclient
    · simp [BTreeMap.contains]
    · rw [BTreeMap.contains, get_insert]
      by_cases hsame : id = "profile." ++ name
      · simp [hsame]
      · rw [if_neg hsame]
        exact hid
    · rw [get_insert] at hget
      split_ifs at hget with hsame
      · cases hget
        exact Or.inr (compileAccountPool_ok hpool)
      · exact Or.inl hget
  · rw [if_neg haccount] at h
    by_cases hsome : profile.accountPool.isSome = true
    · rw [if_pos hsome] at h
      cases h
    · rw [if_neg hsome] at h
      cases h
      exact ⟨⟨rfl, rfl, rfl⟩, fun _ => rfl, fun hpolicy => absurd hpolicy haccount,
        fun _ hid => hid, fun _ _ hget => Or.inl hget⟩

/-- A profile has a binding unless it relays to the original destination. -/
theorem compileProfileBinding_iff {name : String}
    {profile : RawProfile RawWireIdentity RawAccountPool} {route : RoutePlan}
    {plan plan' : ProfilePlan WireIdentity} {mounts mounts' : BTreeMap Text String}
    (hnone : plan.apiBinding = none)
    (h : compileProfileBinding name profile route plan mounts = .ok (plan', mounts')) :
    { plan' with apiBinding := none } = { plan with apiBinding := none } ∧
      (plan'.apiBinding = none ↔ route.destinationPolicy = .original) := by
  rw [compileProfileBinding] at h
  by_cases horiginal : route.destinationPolicy = .original
  · rw [if_pos horiginal] at h
    by_cases hsome : profile.binding.isSome = true
    · rw [if_pos hsome] at h
      cases h
    · rw [if_neg hsome] at h
      cases h
      exact ⟨rfl, iff_of_true hnone horiginal⟩
  · rw [if_neg horiginal] at h
    obtain ⟨binding, -, h⟩ := bind_eq_ok.mp h
    cases hget : mounts.get binding.path with
    | some first =>
      simp only [hget] at h
      cases h
    | none =>
      simp only [hget] at h
      cases h
      exact ⟨rfl, iff_of_false (by simp) horiginal⟩

theorem get_routePlans (routes : BTreeMap String CompiledRoute) (id : String) :
    (routePlans routes).get id = (routes.get id).map CompiledRoute.plan :=
  BTreeMap.get_map (fun _ (route : CompiledRoute) => route.plan) routes id

/-- A name that the compiler takes as it is. -/
theorem lift_parseId_identifier {kind resource value id : String}
    (h : (profileChecks providers).lift (shared (parseId kind resource value)) = .ok id) :
    id = value ∧ IsIdentifier value :=
  parse_ok (parse_eq_ok.mpr (shared_eq_ok.mp (ProfileChecks.lift_eq_ok.mp h)))

theorem compileProfile_ok {policies : BTreeMap String RetryPolicyPlan} {st st' : ProfileState}
    {entry : String × RawProfile RawWireIdentity RawAccountPool}
    (hroutes : ∀ id route, routes.get id = some route → RouteWellFormed providers policies route)
    (hst : ProfilesWellFormed providers routes st)
    (h : compileProfile (profileChecks providers) (routePlans routes) st entry = .ok st') :
    ProfilesWellFormed providers routes st' := by
  obtain ⟨name, profile⟩ := entry
  obtain ⟨id, hid, h⟩ := bind_eq_ok.mp h
  obtain ⟨rfl, hident⟩ := lift_parseId_identifier hid
  obtain ⟨routeId, -, h⟩ := bind_eq_ok.mp h
  have hplan := get_routePlans routes routeId
  cases hroute : routes.get routeId with
  | none =>
    rw [hroute, Option.map_none] at hplan
    simp only [hplan] at h
    cases h
  | some route =>
    rw [hroute, Option.map_some] at hplan
    simp only [hplan] at h
    obtain ⟨identity, hidentity, h⟩ := bind_eq_ok.mp h
    obtain ⟨⟨plan, pools⟩, hpool, h⟩ := bind_eq_ok.mp h
    obtain ⟨⟨plan', mounts⟩, hbinding, h⟩ := bind_eq_ok.mp h
    cases h
    have hstep := compileProfilePool_ok hpool
    obtain ⟨hsame, hiff⟩ := compileProfileBinding_iff hstep.frame.2.2
      (ProfileChecks.lift_eq_ok.mp hbinding)
    obtain ⟨hrouteId, hwire, haccountPool, -⟩ := ProfilePlan.mk.inj hsame
    refine ⟨fun id' found hget => ?_, fun id' found hget => ?_⟩
    · rw [get_insert] at hget
      by_cases hname : id' = id
      · rw [if_pos hname] at hget
        cases hget
        subst hname
        refine ⟨hident, route, ?_, fun haccount => ?_, fun hclient => ⟨?_, ?_⟩,
          fun named hnamed => ?_, hiff, fun haccount horiginal => ?_⟩
        · rw [hrouteId, hstep.frame.1, hroute]
        · obtain ⟨hsome, hcontains, hchecked⟩ := hstep.account haccount
          refine ⟨haccountPool.trans hsome, hcontains, ?_⟩
          obtain ⟨_, hviable, -⟩ := bind_eq_ok.mp hchecked
          exact exists_serves (by simpa using rejectIf_eq_ok.mp hviable)
            fun p hp => ((hroutes _ _ hroute).fixed p hp).1
        · exact haccountPool.trans (hstep.client hclient)
        · rw [hwire, hstep.frame.2.1]
          exact compileWireIdentity_ok hidentity hclient
        · obtain rfl : identity = .named named :=
            (hwire.trans hstep.frame.2.1).symm.trans hnamed
          exact compileWireIdentity_named hidentity
        · obtain ⟨_, -, hchecked⟩ := bind_eq_ok.mp (hstep.account haccount).2.2
          rw [if_pos horiginal] at hchecked
          intro p q plan plan' hp hq hallowsP hallowsQ o ho ho'
          have hmem : ∀ {p plan}, providers.get p = some plan → route.plan.allowsProvider p = true →
              (p, plan) ∈ providers.filter fun entry => route.plan.allowsProvider entry.1 :=
            fun hget hallows => List.mem_filter.mpr ⟨mem_of_get hget, hallows⟩
          exact ensureOriginRelayViable_ok hchecked (hmem hp hallowsP) (hmem hq hallowsQ) ho ho'
      · rw [if_neg hname] at hget
        obtain ⟨hident', route', hold⟩ := hst.profile id' found hget
        exact ⟨hident', route', hold.mono hstep.grow⟩
    · rcases hstep.pool id' found hget with hold | hnew
      · exact hst.pool id' found hold
      · exact hnew

end

/-! ## Resources -/

/-- What a compiled configuration names it has. -/
theorem compileResources_wellFormed {url : UpstreamSyntax} {raw : RawResources}
    {resources : CompiledResources} (h : compileResources url raw = .ok resources) :
    WellFormed resources := by
  obtain ⟨providers, hproviders, h⟩ := bind_eq_ok.mp h
  obtain ⟨policies, hpolicies, h⟩ := bind_eq_ok.mp h
  obtain ⟨scores, hscores, h⟩ := bind_eq_ok.mp h
  obtain ⟨routes, hroutes, h⟩ := bind_eq_ok.mp h
  obtain ⟨st, hprofiles, h⟩ := bind_eq_ok.mp h
  cases h
  have hplans := compileProviders_ok hproviders
  have hroute := @compileRoutes_ok providers policies scores raw.routes routes
    (compileModelScores_ok hscores) hroutes
  have hst : ProfilesWellFormed providers routes st := by
    refine foldlM_invariant (ProfilesWellFormed providers routes)
      ⟨fun _ _ hget => ?_, fun _ _ hget => ?_⟩ (fun _ _ _ hb hc => ?_) hprofiles
    · cases hget
    · cases hget
    · exact compileProfile_ok (fun id route hget => (hroute hget).2) hb hc
  exact ⟨hplans.sorted, hplans.provider,
    fun id policy hget => compileRetryPolicies_ok hpolicies hget, fun id route hget => hroute hget,
    hst.profile, hst.pool,
    fun _ _ _ _ _ _ hget hget' hbinding hbinding' hpath =>
      (compileProfiles_ok hprofiles).binding_unique hget hget' hbinding hbinding' hpath⟩

/-- The profiles own the paths of their bindings. -/
theorem compileResources_owned {url : UpstreamSyntax} {raw : RawResources}
    {resources : CompiledResources} (h : compileResources url raw = .ok resources) :
    ∃ st : ProfileState, st.profiles = resources.profiles ∧ Owned st := by
  obtain ⟨providers, -, h⟩ := bind_eq_ok.mp h
  obtain ⟨policies, -, h⟩ := bind_eq_ok.mp h
  obtain ⟨scores, -, h⟩ := bind_eq_ok.mp h
  obtain ⟨routes, -, h⟩ := bind_eq_ok.mp h
  obtain ⟨st, hprofiles, h⟩ := bind_eq_ok.mp h
  cases h
  exact ⟨st, rfl, compileProfiles_ok hprofiles⟩

/-! ## Names -/

theorem contains_eq {ν : Type} (m : BTreeMap String ν) (id : String) :
    m.contains id = decide (id ∈ m.map Prod.fst) := by
  rw [Bool.eq_iff_iff, decide_eq_true_eq, BTreeMap.contains, Option.isSome_iff_ne_none, ne_eq,
    BTreeMap.get_eq_none_iff, not_not]

theorem contains_presets {presets : List (String × ProviderPlan)}
    (h : OFFICIAL_PROVIDER_PRESETS.mapM presetPlan = .ok presets) (id : String) :
    (BTreeMap.extend [] presets).contains id = (officialProviderPreset id).isSome := by
  have hkeys : presets.map Prod.fst = OFFICIAL_PROVIDER_PRESETS.map OfficialProviderPreset.id := by
    have hall := Except.mapM_eq_ok.mp h
    clear h
    generalize OFFICIAL_PROVIDER_PRESETS = official at hall ⊢
    induction hall with
    | nil => rfl
    | cons hstep _ ih =>
      obtain ⟨id, hid, hstep⟩ := bind_eq_ok.mp hstep
      obtain ⟨driver, -, hstep⟩ := bind_eq_ok.mp hstep
      cases hstep
      rw [List.map_cons, List.map_cons, ih, (parse_ok hid).1]
  rw [contains_eq, Bool.eq_iff_iff, decide_eq_true_eq, BTreeMap.mem_keys_extend_nil, hkeys,
    officialProviderPreset, List.find?_isSome]
  simp [eq_comm]

theorem contains_compileProvider {url : UpstreamSyntax} {plans plans' : BTreeMap String ProviderPlan}
    {entry : String × RawProvider} (h : compileProvider url plans entry = .ok plans') (id : String) :
    plans'.contains id = if id = entry.1 then entry.2.enable else plans.contains id := by
  obtain ⟨rawId, raw⟩ := entry
  obtain ⟨id', hid, h⟩ := bind_eq_ok.mp h
  obtain ⟨rfl, -⟩ := parse_ok hid
  dsimp only
  by_cases henable : raw.enable = true
  · rw [if_pos henable] at h
    obtain ⟨plan, -, h⟩ := bind_eq_ok.mp h
    cases h
    rw [BTreeMap.contains, get_insert, henable]
    by_cases hsame : id = id' <;> simp [hsame, BTreeMap.contains]
  · rw [if_neg henable] at h
    obtain ⟨_, -, h⟩ := bind_eq_ok.mp h
    cases h
    rw [Bool.not_eq_true] at henable
    rw [BTreeMap.contains, BTreeMap.get_erase, henable]
    by_cases hsame : id = id' <;> simp [hsame, BTreeMap.contains]

/-- A provider is there if it is configured and enabled, or else official. -/
theorem contains_compileProviders {url : UpstreamSyntax} {raw : BTreeMap String RawProvider}
    {plans : BTreeMap String ProviderPlan} (hraw : (raw.map Prod.fst).Nodup)
    (h : compileProviders url raw = .ok plans) (id : String) :
    plans.contains id = (raw.get id).elim (officialProviderPreset id).isSome RawProvider.enable := by
  obtain ⟨presets, hpresets, h⟩ := bind_eq_ok.mp h
  refine foldlM_induction (fun entries plans => (entries.map Prod.fst).Nodup →
    plans.contains id = (BTreeMap.get entries id).elim (officialProviderPreset id).isSome
      RawProvider.enable) (fun _ => contains_presets hpresets id) ?_ h hraw
  intro entries entry plans plans' _ hplans hstep hnodup
  rw [List.map_append, List.map_singleton, ← List.concat_eq_append, List.nodup_concat] at hnodup
  rw [contains_compileProvider hstep, BTreeMap.get_append, BTreeMap.get_cons, hplans hnodup.2]
  by_cases hsame : id = entry.1
  · have hnone : BTreeMap.get entries id = none := BTreeMap.get_eq_none_iff.mpr (hsame ▸ hnodup.1)
    rw [if_pos hsame, if_pos hsame, hnone]
    rfl
  · rw [if_neg hsame, if_neg hsame, BTreeMap.get_nil, Option.or_none]

theorem contains_compileProfiles {providers : BTreeMap String ProviderPlan}
    {routes : BTreeMap String CompiledRoute}
    {raw : BTreeMap String (RawProfile RawWireIdentity RawAccountPool)} {st : ProfileState}
    (h : compileProfiles (profileChecks providers) (routePlans routes) [] raw = .ok st) (id : String) :
    st.profiles.contains id = raw.contains id := by
  refine foldlM_induction (fun entries (st : ProfileState) => st.profiles.contains id =
    BTreeMap.contains entries id) rfl ?_ h
  intro entries entry st st' _ hst hstep
  obtain ⟨name, profile⟩ := entry
  obtain ⟨name', hname, hstep⟩ := bind_eq_ok.mp hstep
  obtain rfl := lift_parseId_ok hname
  obtain ⟨routeId, -, hstep⟩ := bind_eq_ok.mp hstep
  have hinsert : ∃ plan, st'.profiles = st.profiles.insert name' plan := by
    cases hroute : (routePlans routes).get routeId with
    | none =>
      simp only [hroute] at hstep
      cases hstep
    | some route =>
      simp only [hroute] at hstep
      obtain ⟨identity, -, hstep⟩ := bind_eq_ok.mp hstep
      obtain ⟨⟨plan, pools⟩, -, hstep⟩ := bind_eq_ok.mp hstep
      obtain ⟨⟨plan', mounts⟩, -, hstep⟩ := bind_eq_ok.mp hstep
      cases hstep
      exact ⟨plan', rfl⟩
  obtain ⟨plan, hplan⟩ := hinsert
  rw [BTreeMap.contains, BTreeMap.contains] at hst
  rw [hplan, BTreeMap.contains, BTreeMap.contains, get_insert, BTreeMap.get_append,
    BTreeMap.get_cons, BTreeMap.get_nil, Option.isSome_or, ← hst]
  by_cases hsame : id = name' <;> simp [hsame]

/-- **A compiled configuration has what it names**, under the names that the raw one has. -/
theorem compileResources_spec {url : UpstreamSyntax} {raw : RawResources}
    {resources : CompiledResources} (hraw : (raw.providers.map Prod.fst).Nodup)
    (h : compileResources url raw = .ok resources) :
    WellFormed resources ∧
      resources.routes.map Prod.fst = raw.routes.map Prod.fst ∧
      resources.retryPolicies.map Prod.fst = raw.retryPolicies.map Prod.fst ∧
      (∀ id, resources.profiles.contains id = raw.profiles.contains id) ∧
      ∀ id, resources.providers.contains id =
        (raw.providers.get id).elim (officialProviderPreset id).isSome RawProvider.enable := by
  have hwell := compileResources_wellFormed h
  obtain ⟨providers, hproviders, h⟩ := bind_eq_ok.mp h
  obtain ⟨policies, hpolicies, h⟩ := bind_eq_ok.mp h
  obtain ⟨scores, -, h⟩ := bind_eq_ok.mp h
  obtain ⟨routes, hroutes, h⟩ := bind_eq_ok.mp h
  obtain ⟨st, hprofiles, h⟩ := bind_eq_ok.mp h
  cases h
  refine ⟨hwell, Except.map_fst_mapM (fun entry _ hok => ?_) hroutes,
    Except.map_fst_mapM (fun entry _ hok => ?_) hpolicies, contains_compileProfiles hprofiles,
    contains_compileProviders hraw hproviders⟩
  · obtain ⟨id, hid, hok⟩ := bind_eq_ok.mp hok
    obtain ⟨⟨allowed, route⟩, -, hok⟩ := bind_eq_ok.mp hok
    obtain ⟨ids, -, hok⟩ := bind_eq_ok.mp hok
    obtain ⟨_, -, hok⟩ := bind_eq_ok.mp hok
    cases hok
    exact (parse_ok hid).1
  · obtain ⟨id, hid, hok⟩ := bind_eq_ok.mp hok
    obtain ⟨_, -, hok⟩ := bind_eq_ok.mp hok
    obtain ⟨_, -, hok⟩ := bind_eq_ok.mp hok
    cases hok
    exact (parse_ok hid).1

/-- A parser that takes every text as it is. -/
def sampleUrl : UpstreamSyntax where
  baseUrl value _ := .ok (value, value)
  origin value _ := .ok value

/-- A route by families over two of the providers, and a relay to the origin of the request. -/
def sampleRaw : RawResources where
  providers := [("local", { driver := some "llama-cpp", baseUrl := some "http://localhost" }),
    ("zai", { enable := false })]
  retryPolicies := [("twice", ⟨2, 100⟩)]
  modelScores := [("gpt-*", [("openai", 10)])]
  routes := [("coding", .managed (some ["local", "openai"]) .any
      (.family [("fast", ["gpt-5", "qwen"])]) .translateCompatible (.recoverable "twice")),
    ("through", .relay (some ["local"]) .original .accountPool (.safeMethods "twice"))]
  profiles := [("default", ⟨"coding", .auto, some { accounts := some ["a"] }, none⟩),
    ("proxy", ⟨"through", .none, none, none⟩)]

theorem compileResources_sampleRaw :
    ∃ resources, compileResources sampleUrl sampleRaw = .ok resources ∧ WellFormed resources ∧
      resources.providers.contains "local" = true ∧ resources.providers.contains "zai" = false := by
  obtain ⟨resources, h⟩ := Except.exists_eq_ok
    (show (compileResources sampleUrl sampleRaw).isOk = true by decide +kernel)
  obtain ⟨hwell, -, -, -, hproviders⟩ := compileResources_spec (by decide) h
  exact ⟨resources, h, hwell, hproviders "local", hproviders "zai"⟩

end Tokn.Config.Resources
