import Tokn.Access.Keys
import Tokn.Accounts.ProviderGraph

/-!
# Linking account pools

`crates/accounts/src/link/pools.rs`: a pool has the bindings of the accounts that its selector admits,
in the order of the accounts, those of the fallback tier apart.

**Theorem (`linkAccounts_spec`).** Where the accounts link to the providers, they link to the pools
exactly if no selector names an account that there is not. A pool has the bindings of the enabled
accounts that its selector admits and no others.
-/

namespace Tokn.Accounts.Link

open Tokn.Policy

variable {ρ τ ε : Type}

/-! ## Selectors -/

/-- Each account of the graph has a binding of its own. -/
def ProviderGraph.Distinct (graph : ProviderGraph ρ τ ε) : Prop :=
  ((graph.accounts.filterMap LinkedAccount.binding).map fun binding => binding.key).Nodup

/-- `is_none_or`, for a dimension of a selector. -/
def isNoneOrContains (dimension : Option (Finset String)) (id : String) : Bool :=
  dimension.all fun ids => decide (id ∈ ids)

/-- The binding that an account has in a pool, if the pool is to use it. -/
def poolBinding (selector : AccountSelector) (account : LinkedAccount ρ) :
    Option (LinkedBinding ρ) :=
  account.binding.filter fun binding => account.config.enabled &&
    isNoneOrContains selector.providers binding.providerId &&
      isNoneOrContains selector.accounts account.config.id

/-- The bindings of the accounts of a tier that the selector admits. -/
def poolTier (graph : ProviderGraph ρ τ ε) (selector : AccountSelector) (tier : AccountTier) :
    List (LinkedBinding ρ) :=
  (graph.accounts.filter fun account => account.config.tier = tier).filterMap (poolBinding selector)

/-- The tiers share no account. -/
theorem nodup_poolTiers {graph : ProviderGraph ρ τ ε} (h : graph.Distinct)
    (selector : AccountSelector) :
    (((poolTier graph selector .active).map LinkedBinding.toProviderBinding ++
      (poolTier graph selector .fallback).map LinkedBinding.toProviderBinding).map
        ProviderBinding.key).Nodup := by
  have hfallback : (graph.accounts.filter fun account => decide (account.config.tier = .fallback)) =
      graph.accounts.filter fun account => !decide (account.config.tier = .active) := by
    refine List.filter_congr fun account _ => ?_
    cases account.config.tier <;> rfl
  -- both tiers together are some of the bindings
  have hperm : (poolTier graph selector .active ++ poolTier graph selector .fallback).Perm
      (graph.accounts.filterMap (poolBinding selector)) := by
    rw [poolTier, poolTier, hfallback, ← List.filterMap_append]
    exact (List.filter_append_perm _ _).filterMap _
  have hsub : (graph.accounts.filterMap (poolBinding selector)).Sublist
      (graph.accounts.filterMap LinkedAccount.binding) := by
    induction graph.accounts with
    | nil => exact List.Sublist.refl _
    | cons account accounts ih =>
      rw [List.filterMap_cons, List.filterMap_cons, poolBinding]
      cases account.binding with
      | none => exact ih
      | some binding =>
        rw [Option.filter_some]
        split_ifs
        · exact ih.cons_cons binding
        · exact ih.cons binding
  have hnodup := List.Nodup.sublist (hsub.map fun binding : LinkedBinding ρ => binding.key) h
  rw [← (hperm.map fun binding : LinkedBinding ρ => binding.key).nodup_iff] at hnodup
  rw [← List.map_append, List.map_map]
  exact hnodup

/-! ## Pools -/

inductive PoolLinkError where
  | unknownAccount (pool accountId : String)
  deriving DecidableEq

/-- `validate_selector`. The ids of a selector come in their order. -/
def validateSelector (poolId : String) (selector : AccountSelector)
    (graph : ProviderGraph ρ τ ε) : Except PoolLinkError Unit :=
  match selector.accounts.bind fun ids =>
      (ids.sort (· ≤ ·)).find? fun id => (graph.account id).isNone with
  | some id => .error (.unknownAccount poolId id)
  | none => .ok ()

section

variable (graph : ProviderGraph ρ τ ε) (distinct : graph.Distinct)

/-- The pool of a plan. -/
def linkedPool (poolId : String) (plan : AccountPoolPlan) : LinkedAccountPool where
  id := poolId
  failureCooldown := plan.failureCooldown
  sessionAffinity := plan.sessionAffinity
  active := (poolTier graph plan.selector .active).map LinkedBinding.toProviderBinding
  fallback := (poolTier graph plan.selector .fallback).map LinkedBinding.toProviderBinding
  nodup := nodup_poolTiers distinct plan.selector

/-- One pool in the loop of `link_account_pools`. -/
def linkAccountPool (entry : String × AccountPoolPlan) :
    Except PoolLinkError (String × LinkedAccountPool) := do
  validateSelector entry.1 entry.2.selector graph
  return (entry.1, linkedPool graph distinct entry.1 entry.2)

def linkAccountPools (plan : BTreeMap String AccountPoolPlan) :
    Except PoolLinkError (BTreeMap String LinkedAccountPool) :=
  plan.mapM (linkAccountPool graph distinct)

end

/-! ## Linked pools -/

/-- A binding is there for a pool: that of an enabled account whose provider is planned. -/
structure InPool (registry : Registry ρ τ ε) (plan : BTreeMap String ProviderPlan)
    (graph : ProviderGraph ρ τ ε) (accounts : List (AccountConfig ρ)) (selector : AccountSelector)
    (tier : AccountTier) (binding : ProviderBinding) (config : AccountConfig ρ) : Prop where
  mem : config ∈ accounts
  enabled : config.enabled = true
  tiered : config.tier = tier
  admitted : isNoneOrContains selector.providers config.provider = true
  named : isNoneOrContains selector.accounts config.id = true
  key : binding.key = ⟨config.provider, config.id⟩
  built : ∃ provider destination, plan.get config.provider = some provider ∧
    graph.destinations.get config.provider = some destination ∧ binding.driverId = provider.driver ∧
    registry.buildDriverAt provider.driver (driverConfig provider.driver config) destination.target =
      .ok binding.driver

section

variable {registry : Registry ρ τ ε} {parse : TargetSyntax τ} {plan : BTreeMap String ProviderPlan}
  {accounts : List (AccountConfig ρ)} {graph : ProviderGraph ρ τ ε}

theorem Linked.nodup_ids (h : Linked registry parse plan accounts graph) :
    (graph.accounts.map fun account => account.config.id).Nodup := by
  have hids := h.nodup
  rw [← h.configs, List.map_map] at hids
  exact hids

theorem Linked.accountId_eq (h : Linked registry parse plan accounts graph) :
    ∀ account ∈ graph.accounts, ∀ binding, account.binding = some binding →
      binding.key.accountId = account.config.id := by
  intro account hmem binding hbinding
  obtain ⟨_, _, -, -, hbuilt⟩ := h.built account hmem binding hbinding
  rw [hbuilt.key]

theorem Linked.distinct (h : Linked registry parse plan accounts graph) : graph.Distinct := by
  have hids := h.nodup_ids
  have hkey := h.accountId_eq
  rw [ProviderGraph.Distinct]
  clear h
  generalize graph.accounts = linked at hids hkey ⊢
  induction linked with
  | nil => exact List.nodup_nil
  | cons account rest ih =>
    rw [List.map_cons, List.nodup_cons] at hids
    have hrest := ih hids.2 fun a ha => hkey a (List.mem_cons_of_mem _ ha)
    rw [List.filterMap_cons]
    cases hbinding : account.binding with
    | none => exact hrest
    | some binding =>
      rw [List.map_cons, List.nodup_cons]
      refine ⟨fun hmem => ?_, hrest⟩
      obtain ⟨other, hother, hsame⟩ := List.mem_map.mp hmem
      obtain ⟨owner, howner, hfound⟩ := List.mem_filterMap.mp hother
      have hthis := hkey account List.mem_cons_self binding hbinding
      have hthat := hkey owner (List.mem_cons_of_mem _ howner) other hfound
      rw [hsame, hthis] at hthat
      exact hids.1 (List.mem_map.mpr ⟨owner, howner, hthat.symm⟩)

variable {selector : AccountSelector}

theorem poolBinding_eq_some {account : LinkedAccount ρ} {binding : LinkedBinding ρ} :
    poolBinding selector account = some binding ↔ account.binding = some binding ∧
      account.config.enabled = true ∧ isNoneOrContains selector.providers binding.providerId = true ∧
      isNoneOrContains selector.accounts account.config.id = true := by
  rw [poolBinding, Option.filter_eq_some_iff, Bool.and_eq_true, Bool.and_eq_true, and_assoc]

/-- What the accounts of a tier give. -/
theorem mem_poolTier (h : Linked registry parse plan accounts graph) {tier : AccountTier}
    {binding : ProviderBinding} :
    binding ∈ (poolTier graph selector tier).map LinkedBinding.toProviderBinding ↔
      ∃ config, InPool registry plan graph accounts selector tier binding config := by
  simp only [List.mem_map, poolTier, List.mem_filterMap, List.mem_filter, decide_eq_true_eq,
    poolBinding_eq_some]
  constructor
  · rintro ⟨linked, ⟨account, ⟨hmem, htier⟩, hbinding, henabled, hproviders, haccounts⟩, rfl⟩
    obtain ⟨provider, destination, hplan, hdestination, hbuilt⟩ := h.built account hmem linked hbinding
    have hkey := hbuilt.key
    refine ⟨account.config, ?_, henabled, htier, ?_, haccounts, hkey, provider, destination, hplan,
      hdestination, hbuilt.driven, hbuilt.configured ▸ hbuilt.built⟩
    · rw [← h.configs]
      exact List.mem_map_of_mem hmem
    · rw [ProviderBinding.providerId, hkey] at hproviders
      exact hproviders
  · rintro ⟨config, hmem, henabled, htier, hproviders, haccounts, hkey, provider, destination, hplan,
      hdestination, hdriven, hdriver⟩
    rw [← h.configs] at hmem
    obtain ⟨account, hin, rfl⟩ := List.mem_map.mp hmem
    have hsome : account.binding.isSome = true :=
      (h.bound account hin).mpr ⟨henabled, by rw [BTreeMap.contains, hplan, Option.isSome_some]⟩
    obtain ⟨linked, hlinked⟩ := Option.isSome_iff_exists.mp hsome
    obtain ⟨provider', destination', hplan', hdestination', hbuilt⟩ := h.built account hin linked hlinked
    cases hplan.symm.trans hplan'
    cases hdestination.symm.trans hdestination'
    -- the account has the one binding that its driver was built for
    have hsame : linked.toProviderBinding = binding := by
      have hbuilt' := hbuilt.built
      rw [hbuilt.configured, hdriver] at hbuilt'
      obtain ⟨key, driverId, driver⟩ := binding
      obtain ⟨⟨key', driverId', driver'⟩, owner, configured, order⟩ := linked
      have hkey' := hbuilt.key
      have hdriven' := hbuilt.driven
      dsimp only at hkey hdriven hbuilt' hkey' hdriven' ⊢
      rw [hkey, hkey', hdriven, hdriven', Except.ok.inj hbuilt']
    refine ⟨linked, ⟨account, ⟨hin, htier⟩, hlinked, henabled, ?_, haccounts⟩, hsame⟩
    rw [ProviderBinding.providerId, hsame, hkey]
    exact hproviders

/-- An account that a selector admits is in a pool if it is enabled and its provider planned. -/
theorem Linked.exists_inPool (h : Linked registry parse plan accounts graph)
    {config : AccountConfig ρ} (hmem : config ∈ accounts) (henabled : config.enabled = true)
    (hplanned : plan.contains config.provider = true)
    (hadmitted : isNoneOrContains selector.providers config.provider = true)
    (hnamed : isNoneOrContains selector.accounts config.id = true) :
    ∃ binding, InPool registry plan graph accounts selector config.tier binding config := by
  have hin := hmem
  rw [← h.configs] at hin
  obtain ⟨account, haccount, rfl⟩ := List.mem_map.mp hin
  obtain ⟨linked, hlinked⟩ := Option.isSome_iff_exists.mp ((h.bound account haccount).mpr
    ⟨henabled, hplanned⟩)
  obtain ⟨provider, destination, hplan, hdestination, hbuilt⟩ := h.built account haccount linked hlinked
  exact ⟨linked.toProviderBinding, hmem, henabled, rfl, hadmitted, hnamed, hbuilt.key, provider,
    destination, hplan, hdestination, hbuilt.driven, hbuilt.configured ▸ hbuilt.built⟩

/-- The accounts of a tier come in their order. -/
theorem Linked.sublist_ids (h : Linked registry parse plan accounts graph)
    (selector : AccountSelector) (tier : AccountTier) :
    ((poolTier graph selector tier).map fun binding => binding.key.accountId).Sublist
      (accounts.map AccountConfig.id) := by
  have hkey := h.accountId_eq
  rw [← h.configs, List.map_map, poolTier]
  clear h
  generalize graph.accounts = linked at hkey ⊢
  induction linked with
  | nil => exact List.Sublist.refl _
  | cons account rest ih =>
    have hrest := ih fun a ha => hkey a (List.mem_cons_of_mem _ ha)
    rw [List.map_cons, List.filter_cons]
    split_ifs
    · rw [List.filterMap_cons]
      cases hbinding : poolBinding selector account with
      | none => exact hrest.cons _
      | some binding =>
        have hid := hkey account List.mem_cons_self binding (poolBinding_eq_some.mp hbinding).1
        rw [List.map_cons, hid]
        exact hrest.cons_cons _
    · exact hrest.cons _

theorem Linked.account_isNone (h : Linked registry parse plan accounts graph) {id : String} :
    (graph.account id).isNone = true ↔ ¬ ∃ config ∈ accounts, config.id = id := by
  rw [Option.isNone_iff_eq_none, ← not_iff_not, not_not, ← ne_eq, Option.ne_none_iff_exists']
  constructor
  · rintro ⟨account, hget⟩
    obtain ⟨hmem, hid⟩ := (h.account id account).mp hget
    refine ⟨account.config, ?_, hid⟩
    rw [← h.configs]
    exact List.mem_map_of_mem hmem
  · rintro ⟨config, hmem, hid⟩
    rw [← h.configs] at hmem
    obtain ⟨account, hin, rfl⟩ := List.mem_map.mp hmem
    exact ⟨account, (h.account id account).mpr ⟨hin, hid⟩⟩

theorem validateSelector_eq_ok (h : Linked registry parse plan accounts graph) {poolId : String}
    {u : Unit} :
    validateSelector poolId selector graph = .ok u ↔
      ∀ ids, selector.accounts = some ids → ∀ id ∈ ids, ∃ config ∈ accounts, config.id = id := by
  rw [validateSelector]
  cases haccounts : selector.accounts with
  | none => simp
  | some ids =>
    rw [Option.bind_some]
    cases hfind : (ids.sort (· ≤ ·)).find? fun id => (graph.account id).isNone with
    | some id =>
      refine iff_of_false (by simp) fun hall => ?_
      have hmem : id ∈ ids := by simpa using List.mem_of_find?_eq_some hfind
      have hnone := List.find?_some hfind
      exact h.account_isNone.mp hnone (hall ids rfl id hmem)
    | none =>
      refine iff_of_true rfl fun ids' hids id hid => ?_
      cases hids
      have hnone := List.find?_eq_none.mp hfind id (by simpa using hid)
      rw [h.account_isNone, not_not] at hnone
      exact hnone

theorem linkAccountPool_eq_ok {distinct : graph.Distinct} {entry : String × AccountPoolPlan}
    {linked : String × LinkedAccountPool} :
    linkAccountPool graph distinct entry = .ok linked ↔
      validateSelector entry.1 entry.2.selector graph = .ok () ∧
        linked = (entry.1, linkedPool graph distinct entry.1 entry.2) := by
  rw [linkAccountPool, Except.bind_eq_ok]
  constructor
  · rintro ⟨_, hvalid, hlinked⟩
    exact ⟨hvalid, (Except.ok.inj hlinked).symm⟩
  · rintro ⟨hvalid, rfl⟩
    exact ⟨(), hvalid, rfl⟩

/-- The selectors name accounts that there are. -/
def SelectorsResolve (pools : BTreeMap String AccountPoolPlan) (accounts : List (AccountConfig ρ)) :
    Prop :=
  ∀ id pool, (id, pool) ∈ pools → ∀ ids, pool.selector.accounts = some ids →
    ∀ account ∈ ids, ∃ config ∈ accounts, config.id = account

theorem exists_linkAccountPools_iff (h : Linked registry parse plan accounts graph)
    {pools : BTreeMap String AccountPoolPlan} :
    (∃ linked, linkAccountPools graph h.distinct pools = .ok linked) ↔
      SelectorsResolve pools accounts := by
  rw [linkAccountPools, exists_mapM_eq_ok, Prod.forall]
  refine forall_congr' fun id => forall_congr' fun pool => imp_congr_right fun _ => ?_
  rw [← validateSelector_eq_ok h]
  constructor
  · rintro ⟨linked, hok⟩
    exact (linkAccountPool_eq_ok.mp hok).1
  · intro hvalid
    exact ⟨_, linkAccountPool_eq_ok.mpr ⟨hvalid, rfl⟩⟩

/-- A pool of a plan, linked. -/
structure PoolOf (registry : Registry ρ τ ε) (plan : BTreeMap String ProviderPlan)
    (graph : ProviderGraph ρ τ ε) (accounts : List (AccountConfig ρ)) (id : String)
    (pool : AccountPoolPlan) (linked : LinkedAccountPool) : Prop where
  named : linked.id = id
  failureCooldown : linked.failureCooldown = pool.failureCooldown
  sessionAffinity : linked.sessionAffinity = pool.sessionAffinity
  tiers : ∀ tier binding, binding ∈ linked.tier tier ↔
    ∃ config, InPool registry plan graph accounts pool.selector tier binding config
  ordered : ∀ tier, ((linked.tier tier).map fun binding => binding.key.accountId).Sublist
    (accounts.map AccountConfig.id)

theorem get_linkAccountPools (h : Linked registry parse plan accounts graph)
    {pools : BTreeMap String AccountPoolPlan} {linked : BTreeMap String LinkedAccountPool}
    (hlinked : linkAccountPools graph h.distinct pools = .ok linked) {id : String}
    {pool : AccountPoolPlan} (hget : pools.get id = some pool) :
    ∃ found, linked.get id = some found ∧ PoolOf registry plan graph accounts id pool found := by
  obtain ⟨found, hfound, hok⟩ :=
    Except.get_mapM (fun _ _ hok => by rw [(linkAccountPool_eq_ok.mp hok).2]) hlinked hget
  cases (linkAccountPool_eq_ok.mp hok).2
  have htier : ∀ tier, (linkedPool graph h.distinct id pool).tier tier =
      (poolTier graph pool.selector tier).map LinkedBinding.toProviderBinding := by
    intro tier
    cases tier <;> rfl
  refine ⟨_, hfound, rfl, rfl, rfl, fun tier binding => ?_, fun tier => ?_⟩
  · rw [htier, ← mem_poolTier h]
  · rw [htier, List.map_map]
    exact h.sublist_ids pool.selector tier

end

/-! ## Both -/

/-- The accounts, linked to the providers and then to the pools. -/
def linkAccounts (registry : Registry ρ τ ε) (parse : TargetSyntax τ)
    (providers : BTreeMap String ProviderPlan) (pools : BTreeMap String AccountPoolPlan)
    (accounts : List (AccountConfig ρ)) :
    Except (LinkError ε ⊕ PoolLinkError)
      (ProviderGraph ρ τ ε × BTreeMap String LinkedAccountPool) :=
  match h : linkProviderGraph registry parse providers accounts with
  | .error error => .error (.inl error)
  | .ok graph =>
    match linkAccountPools graph (linkProviderGraph_linked h).distinct pools with
    | .error error => .error (.inr error)
    | .ok linked => .ok (graph, linked)

theorem linkAccounts_eq_ok {registry : Registry ρ τ ε} {parse : TargetSyntax τ}
    {providers : BTreeMap String ProviderPlan} {pools : BTreeMap String AccountPoolPlan}
    {accounts : List (AccountConfig ρ)} {graph : ProviderGraph ρ τ ε}
    {linked : BTreeMap String LinkedAccountPool} :
    linkAccounts registry parse providers pools accounts = .ok (graph, linked) ↔
      linkProviderGraph registry parse providers accounts = .ok graph ∧
        ∃ h : Linked registry parse providers accounts graph,
          linkAccountPools graph h.distinct pools = .ok linked := by
  rw [linkAccounts]
  split
  · rename_i error hgraph
    simp [hgraph]
  · rename_i found hgraph
    constructor
    · intro h
      split at h
      · cases h
      · rename_i pools' hpools
        cases h
        exact ⟨hgraph, linkProviderGraph_linked hgraph, hpools⟩
    · rintro ⟨hsame, _, hpools⟩
      obtain rfl := Except.ok.inj (hgraph.symm.trans hsame)
      rw [hpools]

/-- **When the accounts link, and what the pools have then.** -/
theorem linkAccounts_spec (registry : Registry ρ τ ε) (parse : TargetSyntax τ)
    (providers : BTreeMap String ProviderPlan) (pools : BTreeMap String AccountPoolPlan)
    (accounts : List (AccountConfig ρ)) :
    ((linkAccounts registry parse providers pools accounts).isOk = true ↔
      (linkProviderGraph registry parse providers accounts).isOk = true ∧
        SelectorsResolve pools accounts) ∧
    ∀ graph linked, linkAccounts registry parse providers pools accounts = .ok (graph, linked) →
      Linked registry parse providers accounts graph ∧
        ∀ id pool, pools.get id = some pool →
          ∃ found, linked.get id = some found ∧
            PoolOf registry providers graph accounts id pool found := by
  refine ⟨?_, fun graph linked h => ?_⟩
  · rw [isOk_iff_exists, isOk_iff_exists, Prod.exists]
    simp only [linkAccounts_eq_ok]
    constructor
    · rintro ⟨graph, linked, hgraph, hlinked, hpools⟩
      exact ⟨⟨graph, hgraph⟩, (exists_linkAccountPools_iff hlinked).mp ⟨linked, hpools⟩⟩
    · rintro ⟨⟨graph, hgraph⟩, hselectors⟩
      have hlinked := linkProviderGraph_linked hgraph
      obtain ⟨linked, hpools⟩ := (exists_linkAccountPools_iff hlinked).mpr hselectors
      exact ⟨graph, linked, hgraph, hlinked, hpools⟩
  · obtain ⟨-, hlinked, hpools⟩ := linkAccounts_eq_ok.mp h
    exact ⟨hlinked, fun id pool hget => get_linkAccountPools hlinked hpools hget⟩

end Tokn.Accounts.Link
