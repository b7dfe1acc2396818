import Tokn.Accounts.Selection
import Tokn.Lib.Insertion
import Tokn.Policy.ResourcePlan
import Tokn.Policy.Topology

/-!
# Linking accounts to providers

`crates/accounts/src/link/provider_graph.rs`: each provider of a plan gets a destination, and each
account that is enabled the binding to the one provider that it names.

What an account carries beside its identity, the targets, the parser of their URLs and the drivers of
the registry are parameters. The `expect` for the target of a planned provider is an error of its own
(`missingTarget`), which never comes up.
-/

namespace Tokn.Accounts.Link

open Tokn.Policy

/-! ## Accounts and drivers -/

/-- An `AccountConfig`; `ρ` is the type of what linking only hands on. -/
structure AccountConfig (ρ : Type) where
  id : String
  provider : String
  enabled : Bool
  tier : AccountTier
  rest : ρ
  deriving DecidableEq

/-- An error of `tokn_core::provider`; `ε` is the type of those of the drivers. -/
inductive ProviderError (ε : Type) where
  | unknownProvider (id account : String)
  | driver (error : ε)
  deriving DecidableEq

section

variable (ρ τ ε : Type)

/-- A `ProviderDescriptor`, as far as linking reads it. -/
structure ProviderDescriptor where
  id : String
  baseUrl : String
  validate : AccountConfig ρ → Except ε Unit
  build : AccountConfig ρ → τ → Except ε Provider

abbrev Registry := BTreeMap String (ProviderDescriptor ρ τ ε)

structure ProviderDestination where
  providerId : String
  driverId : String
  target : τ
  descriptor : ProviderDescriptor ρ τ ε

end

/-- A binding with its account and the account that its driver was built for. -/
structure LinkedBinding (ρ : Type) extends ProviderBinding where
  account : AccountConfig ρ
  driverConfig : AccountConfig ρ
  accountOrder : Nat

structure LinkedAccount (ρ : Type) where
  config : AccountConfig ρ
  inputOrder : Nat
  binding : Option (LinkedBinding ρ) := none

/-- The order of the bindings is left open. -/
structure ProviderGraph (ρ τ ε : Type) where
  destinations : BTreeMap String (ProviderDestination ρ τ ε)
  bindings : Table ProviderBindingKey (LinkedBinding ρ)
  accounts : List (LinkedAccount ρ)
  accountIndices : BTreeMap String Nat

namespace ProviderGraph

variable {ρ τ ε : Type} (graph : ProviderGraph ρ τ ε)

def binding (provider accountId : String) : Option (LinkedBinding ρ) :=
  graph.bindings.get ⟨provider, accountId⟩

def account (accountId : String) : Option (LinkedAccount ρ) :=
  (graph.accountIndices.get accountId).bind fun index => graph.accounts[index]?

end ProviderGraph

/-! ## Errors -/

inductive ProviderUrlSource where
  | configured
  | providerDefault
  | driverDefault
  deriving DecidableEq

inductive LinkError (ε : Type) where
  | duplicateAccountId (accountId : String) (firstIndex duplicateIndex : Nat)
  | unknownDriver (provider driver : String)
  | unknownAccountProvider (accountId provider : String)
  | invalidProviderUrl (provider driver : String) (urlSource : ProviderUrlSource)
      (baseUrl message : String)
  | missingTarget (provider : String)
  | buildProvider (provider accountId driver : String) (error : ProviderError ε)
  deriving DecidableEq

section

variable {ρ τ ε : Type}

/-! ## The registry -/

/-- The provider is an official one that has its own driver. -/
def officialWith (providerId driverId : String) : Bool :=
  (officialProviderPreset providerId).any fun preset => preset.driver = driverId

namespace Registry

variable (registry : Registry ρ τ ε)

def resolve (id : String) : Option (ProviderDescriptor ρ τ ε) := registry.get id

def resolveProviderDescriptor (providerId driverId : String) : Option (ProviderDescriptor ρ τ ε) :=
  (((officialProviderPreset providerId).filter fun preset => preset.driver = driverId).bind fun _ =>
    resolve registry providerId).or (resolve registry driverId)

def buildDriverAt (driverId : String) (account : AccountConfig ρ) (target : τ) :
    Except (ProviderError ε) Provider :=
  match resolve registry driverId with
  | none => .error (.unknownProvider driverId account.id)
  | some descriptor =>
    ((do
      descriptor.validate account
      descriptor.build account target) : Except ε Provider).mapError .driver

end Registry

/-! ## Destinations -/

/-- What linking takes from the parser of URLs. -/
abbrev TargetSyntax (τ : Type) := String → CleartextHttpPolicy → Except String τ

/-- The base URL of a provider, and where it comes from. -/
def baseUrlOf (providerId : String) (provider : ProviderPlan) (default : String) :
    String × ProviderUrlSource :=
  match provider.baseUrl with
  | some baseUrl => (baseUrl, .configured)
  | none =>
    (default, if officialWith providerId provider.driver then .providerDefault else .driverDefault)

/-- One provider in the loop over the plan. -/
def linkDestination (registry : Registry ρ τ ε) (parse : TargetSyntax τ)
    (entry : String × ProviderPlan) :
    Except (LinkError ε) (String × ProviderDestination ρ τ ε) :=
  let (providerId, provider) := entry
  match registry.resolveProviderDescriptor providerId provider.driver with
  | none => .error (.unknownDriver providerId provider.driver)
  | some descriptor =>
    let base := baseUrlOf providerId provider descriptor.baseUrl
    match parse base.1 (cleartextPolicy provider.allowInsecureHttp) with
    | .error message =>
      .error (.invalidProviderUrl providerId provider.driver base.2 base.1 message)
    | .ok target => .ok (providerId, ⟨providerId, provider.driver, target, descriptor⟩)

/-! ## Accounts -/

structure PreparedAccounts (ρ : Type) where
  entries : List (LinkedAccount ρ) := []
  indices : BTreeMap String Nat := []

/-- One account in the loop of `prepare_accounts`. -/
def prepareAccount (st : PreparedAccounts ρ) (entry : AccountConfig ρ × Nat) :
    Except (LinkError ε) (PreparedAccounts ρ) :=
  match st.indices.get entry.1.id with
  | some first => .error (.duplicateAccountId entry.1.id first entry.2)
  | none => .ok {
      entries := st.entries ++ [{ config := entry.1, inputOrder := entry.2 }]
      indices := st.indices.insert entry.1.id entry.2 }

def prepareAccounts (accounts : List (AccountConfig ρ)) :
    Except (LinkError ε) (PreparedAccounts ρ) :=
  accounts.zipIdx.foldlM prepareAccount {}

/-- The account as the driver of its provider sees it: an official provider keeps its name. -/
def driverConfig (driverId : String) (account : AccountConfig ρ) : AccountConfig ρ :=
  if officialWith account.provider driverId then account else { account with provider := driverId }

section

variable (registry : Registry ρ τ ε) (plan : BTreeMap String ProviderPlan)
  (destinations : BTreeMap String (ProviderDestination ρ τ ε))

/-- The binding of an account that is enabled. -/
def bindAccount (account : LinkedAccount ρ) (providerId : String) (provider : ProviderPlan) :
    Except (LinkError ε) (LinkedBinding ρ) :=
  match destinations.get providerId with
  | none => .error (.missingTarget providerId)
  | some destination =>
    let config := driverConfig provider.driver account.config
    match registry.buildDriverAt provider.driver config destination.target with
    | .error error =>
      .error (.buildProvider providerId account.config.id provider.driver error)
    | .ok driver => .ok {
        key := ⟨providerId, account.config.id⟩
        driverId := provider.driver
        driver := driver
        account := account.config
        driverConfig := config
        accountOrder := account.inputOrder }

/-- One account in the loop over the accounts. A provider that is official and not planned was
disabled, and its accounts stay unbound. -/
def linkAccount (account : LinkedAccount ρ) : Except (LinkError ε) (LinkedAccount ρ) :=
  let unknown := LinkError.unknownAccountProvider account.config.id account.config.provider
  match parseIdentifier "provider" account.config.provider with
  | .error _ => .error unknown
  | .ok providerId =>
    match plan.get providerId with
    | none => if (officialProviderPreset providerId).isSome then .ok account else .error unknown
    | some provider =>
      if account.config.enabled then do
        let binding ← bindAccount registry destinations account providerId provider
        return { account with binding := some binding }
      else .ok account

/-- The bindings after an account. -/
def insertBinding (bindings : Table ProviderBindingKey (LinkedBinding ρ))
    (account : LinkedAccount ρ) : Table ProviderBindingKey (LinkedBinding ρ) :=
  match account.binding with
  | none => bindings
  | some binding => Table.set bindings binding.key binding

end

def linkProviderGraph (registry : Registry ρ τ ε) (parse : TargetSyntax τ)
    (plan : BTreeMap String ProviderPlan) (accounts : List (AccountConfig ρ)) :
    Except (LinkError ε) (ProviderGraph ρ τ ε) := do
  let prepared ← prepareAccounts accounts
  let destinations ← plan.mapM (linkDestination registry parse)
  let linked ← prepared.entries.mapM (linkAccount registry plan destinations)
  return {
    destinations := destinations
    bindings := linked.foldl insertBinding []
    accounts := linked
    accountIndices := prepared.indices }

end

end Tokn.Accounts.Link

/-!
## The provider graph

**Theorem (`linkProviderGraph_spec`).** Linking succeeds exactly if the ids of the accounts differ,
each planned provider has a driver and a URL that parses, each account names a planned or an official
provider, and the drivers take the accounts that are to be bound. The graph has the accounts in their
order, the destinations of the plan and no others, and a binding for each account that is enabled and
whose provider is planned.
-/

namespace Tokn.Accounts.Link

open Tokn.Policy

variable {ρ τ ε : Type}

/-! ### What linking needs -/

/-- The provider gets a destination. -/
structure Destined (registry : Registry ρ τ ε) (parse : TargetSyntax τ) (providerId : String)
    (provider : ProviderPlan) (destination : ProviderDestination ρ τ ε) : Prop where
  named : destination.providerId = providerId
  driven : destination.driverId = provider.driver
  descriptor : registry.resolveProviderDescriptor providerId provider.driver =
    some destination.descriptor
  target : parse (provider.baseUrl.getD destination.descriptor.baseUrl)
    (cleartextPolicy provider.allowInsecureHttp) = .ok destination.target

/-- The driver of a provider takes an account and makes a binding of it. -/
structure Built (registry : Registry ρ τ ε) (destination : ProviderDestination ρ τ ε)
    (provider : ProviderPlan) (account : LinkedAccount ρ) (binding : LinkedBinding ρ) : Prop where
  key : binding.key = ⟨account.config.provider, account.config.id⟩
  driven : binding.driverId = provider.driver
  owned : binding.account = account.config
  configured : binding.driverConfig = driverConfig provider.driver account.config
  ordered : binding.accountOrder = account.inputOrder
  built : registry.buildDriverAt provider.driver binding.driverConfig destination.target =
    .ok binding.driver

/-- The registry accepts the account: it validates it and builds a driver for it. -/
def Accepts (registry : Registry ρ τ ε) (destination : ProviderDestination ρ τ ε)
    (provider : ProviderPlan) (config : AccountConfig ρ) : Prop :=
  ∃ driver, registry.buildDriverAt provider.driver (driverConfig provider.driver config)
    destination.target = .ok driver

/-- What an account has to be. -/
structure Admissible (registry : Registry ρ τ ε) (parse : TargetSyntax τ)
    (plan : BTreeMap String ProviderPlan) (config : AccountConfig ρ) : Prop where
  identifier : validIdentifier true config.provider.toList = true
  known : plan.get config.provider = none → (officialProviderPreset config.provider).isSome = true
  accepted : ∀ provider destination, plan.get config.provider = some provider →
    config.enabled = true → Destined registry parse config.provider provider destination →
    Accepts registry destination provider config

/-! ### Destinations -/

section

variable {registry : Registry ρ τ ε} {parse : TargetSyntax τ}

theorem baseUrlOf_fst (providerId : String) (provider : ProviderPlan) (default : String) :
    (baseUrlOf providerId provider default).1 = provider.baseUrl.getD default := by
  rw [baseUrlOf]
  cases provider.baseUrl <;> rfl

theorem linkDestination_eq_ok {entry : String × ProviderPlan}
    {linked : String × ProviderDestination ρ τ ε} :
    linkDestination registry parse entry = .ok linked ↔
      linked.1 = entry.1 ∧ Destined registry parse entry.1 entry.2 linked.2 := by
  obtain ⟨providerId, provider⟩ := entry
  obtain ⟨id, ownId, driverId, target, descriptor⟩ := linked
  rw [linkDestination]
  cases hresolve : registry.resolveProviderDescriptor providerId provider.driver with
  | none =>
    refine iff_of_false (by simp) fun h => ?_
    cases hresolve.symm.trans h.2.descriptor
  | some found =>
    simp only [baseUrlOf_fst]
    cases hparse : parse (provider.baseUrl.getD found.baseUrl)
        (cleartextPolicy provider.allowInsecureHttp) with
    | error message =>
      refine iff_of_false (by simp) fun h => ?_
      cases hresolve.symm.trans h.2.descriptor
      cases hparse.symm.trans h.2.target
    | ok parsed =>
      constructor
      · intro h
        cases h
        exact ⟨rfl, rfl, rfl, hresolve, hparse⟩
      · intro h
        obtain ⟨hid, hown, hdriver, hdescriptor, htarget⟩ := h
        dsimp only at hid hown hdriver hdescriptor htarget
        subst hid hown hdriver
        obtain rfl := Option.some.inj (hresolve.symm.trans hdescriptor)
        rw [← Except.ok.inj (hparse.symm.trans htarget)]

theorem Destined.unique {providerId : String} {provider : ProviderPlan}
    {destination destination' : ProviderDestination ρ τ ε}
    (h : Destined registry parse providerId provider destination)
    (h' : Destined registry parse providerId provider destination') :
    destination = destination' := by
  have hok := (@linkDestination_eq_ok _ _ _ registry parse (providerId, provider)
    (providerId, destination)).mpr ⟨rfl, h⟩
  have hok' := (@linkDestination_eq_ok _ _ _ registry parse (providerId, provider)
    (providerId, destination')).mpr ⟨rfl, h'⟩
  exact (Prod.mk.inj (Except.ok.inj (hok.symm.trans hok'))).2

end

/-! ### Prepared accounts -/

/-- The accounts with their positions. -/
def prepared (entries : List (AccountConfig ρ × Nat)) : PreparedAccounts ρ where
  entries := entries.map fun entry => { config := entry.1, inputOrder := entry.2 }
  indices := BTreeMap.extend [] (entries.map fun entry => (entry.1.id, entry.2))

theorem foldlM_prepareAccount {entries : List (AccountConfig ρ × Nat)} {st : PreparedAccounts ρ} :
    entries.foldlM (prepareAccount (ε := ε)) {} = .ok st ↔
      (entries.map fun entry => entry.1.id).Nodup ∧ st = prepared entries := by
  induction entries using List.reverseRecOn generalizing st with
  | nil =>
    constructor
    · intro h
      exact ⟨List.nodup_nil, (Except.ok.inj h).symm⟩
    · rintro ⟨-, rfl⟩
      rfl
  | append_singleton entries entry ih =>
    have hkey : (prepared entries).indices.get entry.1.id = none ↔
        entry.1.id ∉ entries.map fun entry => entry.1.id := by
      rw [BTreeMap.get_eq_none_iff, prepared, BTreeMap.mem_keys_extend_nil, List.map_map]
      rfl
    have hnodup : ((entries ++ [entry]).map fun entry => entry.1.id).Nodup ↔
        (entries.map fun entry => entry.1.id).Nodup ∧
          entry.1.id ∉ entries.map fun entry => entry.1.id := by
      rw [List.map_append, List.map_singleton, ← List.concat_eq_append, List.nodup_concat, and_comm]
    have hlast : prepared (entries ++ [entry]) = {
        entries := (prepared entries).entries ++ [{ config := entry.1, inputOrder := entry.2 }]
        indices := (prepared entries).indices.insert entry.1.id entry.2 } := by
      simp only [prepared, List.map_append, List.map_singleton, BTreeMap.extend_concat]
    rw [Except.foldlM_concat, hnodup, hlast, ← hkey]
    constructor
    · rintro ⟨st', hst', hstep⟩
      obtain ⟨hids, rfl⟩ := ih.mp hst'
      rw [prepareAccount] at hstep
      cases hget : (prepared entries).indices.get entry.1.id with
      | some first =>
        rw [hget] at hstep
        cases hstep
      | none =>
        rw [hget] at hstep
        exact ⟨⟨hids, rfl⟩, (Except.ok.inj hstep).symm⟩
    · rintro ⟨⟨hids, hget⟩, rfl⟩
      refine ⟨prepared entries, ih.mpr ⟨hids, rfl⟩, ?_⟩
      rw [prepareAccount, hget]

theorem map_zipIdx {α β : Type} (f : α → β) (l : List α) :
    (l.zipIdx.map fun entry => f entry.1) = l.map f := by
  have h := congrArg (List.map f) (List.zipIdx_map_fst 0 l)
  rwa [List.map_map] at h

theorem prepareAccounts_eq_ok {accounts : List (AccountConfig ρ)} {st : PreparedAccounts ρ} :
    prepareAccounts (ε := ε) accounts = .ok st ↔
      (accounts.map AccountConfig.id).Nodup ∧ st = prepared accounts.zipIdx := by
  rw [prepareAccounts, foldlM_prepareAccount, map_zipIdx]

/-- Where the account with an id stands. -/
theorem get_indices {accounts : List (AccountConfig ρ)} (h : (accounts.map AccountConfig.id).Nodup)
    {id : String} {index : Nat} :
    (prepared accounts.zipIdx).indices.get id = some index ↔
      ∃ config, accounts[index]? = some config ∧ config.id = id := by
  have hkeys : ((accounts.zipIdx.map fun entry => (entry.1.id, entry.2)).map Prod.fst).Nodup := by
    rw [List.map_map]
    rw [← map_zipIdx] at h
    exact h
  rw [prepared, BTreeMap.get_extend_nil_eq_some hkeys, List.mem_map]
  constructor
  · rintro ⟨⟨config, i⟩, hmem, heq⟩
    cases heq
    exact ⟨config, List.mk_mem_zipIdx_iff_getElem?.mp hmem, rfl⟩
  · rintro ⟨config, hget, rfl⟩
    exact ⟨(config, index), List.mk_mem_zipIdx_iff_getElem?.mpr hget, rfl⟩

/-! ### Accounts -/

section

variable {registry : Registry ρ τ ε} {plan : BTreeMap String ProviderPlan}
  {destinations : BTreeMap String (ProviderDestination ρ τ ε)}

variable {account : LinkedAccount ρ}

theorem bindAccount_eq_ok {provider : ProviderPlan} {binding : LinkedBinding ρ} :
    bindAccount registry destinations account account.config.provider provider = .ok binding ↔
      ∃ destination, destinations.get account.config.provider = some destination ∧
        Built registry destination provider account binding := by
  rw [bindAccount]
  cases hget : destinations.get account.config.provider with
  | none => simp
  | some destination =>
    simp only [Option.some.injEq, exists_eq_left']
    cases hbuild : registry.buildDriverAt provider.driver (driverConfig provider.driver account.config)
        destination.target with
    | error error =>
      refine iff_of_false (by simp) fun h => ?_
      have hbuilt := h.built
      rw [h.configured, hbuild] at hbuilt
      cases hbuilt
    | ok driver =>
      constructor
      · intro h
        cases h
        exact ⟨rfl, rfl, rfl, rfl, rfl, hbuild⟩
      · intro h
        obtain ⟨⟨key, driverId, built⟩, owner, config, order⟩ := binding
        obtain ⟨hkey, hdriven, howned, hconfigured, hordered, hbuilt⟩ := h
        dsimp only at hkey hdriven howned hconfigured hordered hbuilt
        subst hkey hdriven howned hconfigured hordered
        rw [Except.ok.inj (hbuild.symm.trans hbuilt)]

/-- What becomes of an account. -/
inductive LinkedAs (registry : Registry ρ τ ε) (plan : BTreeMap String ProviderPlan)
    (destinations : BTreeMap String (ProviderDestination ρ τ ε)) (account : LinkedAccount ρ) :
    LinkedAccount ρ → Prop
  | unplanned (h : plan.get account.config.provider = none)
      (hofficial : (officialProviderPreset account.config.provider).isSome = true) :
      LinkedAs registry plan destinations account account
  | disabled {provider : ProviderPlan} (h : plan.get account.config.provider = some provider)
      (hdisabled : account.config.enabled = false) :
      LinkedAs registry plan destinations account account
  | bound {provider : ProviderPlan} {destination : ProviderDestination ρ τ ε}
      {binding : LinkedBinding ρ} (h : plan.get account.config.provider = some provider)
      (henabled : account.config.enabled = true)
      (hdestination : destinations.get account.config.provider = some destination)
      (hbuilt : Built registry destination provider account binding) :
      LinkedAs registry plan destinations account { account with binding := some binding }

theorem linkAccount_eq_ok {linked : LinkedAccount ρ} :
    linkAccount registry plan destinations account = .ok linked ↔
      validIdentifier true account.config.provider.toList = true ∧
        LinkedAs registry plan destinations account linked := by
  rw [linkAccount, parseIdentifier]
  by_cases hvalid : validIdentifier true account.config.provider.toList = true
  · rw [if_pos hvalid, and_iff_right hvalid]
    dsimp only
    cases hplan : plan.get account.config.provider with
    | none =>
      dsimp only
      by_cases hofficial : (officialProviderPreset account.config.provider).isSome = true
      · rw [if_pos hofficial]
        constructor
        · intro h
          cases h
          exact .unplanned hplan hofficial
        · intro h
          cases h with
          | unplanned => rfl
          | disabled => rfl
          | bound h => cases hplan.symm.trans h
      · rw [if_neg hofficial]
        refine iff_of_false (by simp) fun h => ?_
        cases h with
        | unplanned _ h => exact hofficial h
        | disabled h => cases hplan.symm.trans h
        | bound h => cases hplan.symm.trans h
    | some provider =>
      dsimp only
      by_cases henabled : account.config.enabled = true
      · rw [if_pos henabled, Except.bind_eq_ok]
        constructor
        · rintro ⟨binding, hbind, hlinked⟩
          cases hlinked
          obtain ⟨destination, hdestination, hbuilt⟩ := bindAccount_eq_ok.mp hbind
          exact .bound hplan henabled hdestination hbuilt
        · intro h
          cases h with
          | unplanned h => cases hplan.symm.trans h
          | disabled _ h => cases henabled.symm.trans h
          | bound h _ hdestination hbuilt =>
            cases hplan.symm.trans h
            exact ⟨_, bindAccount_eq_ok.mpr ⟨_, hdestination, hbuilt⟩, rfl⟩
      · rw [if_neg henabled]
        constructor
        · intro h
          cases h
          exact .disabled hplan (by simpa using henabled)
        · intro h
          cases h with
          | unplanned => rfl
          | disabled => rfl
          | bound _ h => exact absurd h henabled
  · rw [if_neg hvalid]
    exact iff_of_false (by simp) fun h => hvalid h.1

/-- The binding aside, an account stays as it is. -/
theorem LinkedAs.config_eq {linked : LinkedAccount ρ}
    (h : LinkedAs registry plan destinations account linked) :
    linked.config = account.config ∧ linked.inputOrder = account.inputOrder := by
  cases h <;> exact ⟨rfl, rfl⟩

end

/-! ### The graph -/

/-- A graph of a plan and its accounts. -/
structure Linked (registry : Registry ρ τ ε) (parse : TargetSyntax τ)
    (plan : BTreeMap String ProviderPlan) (accounts : List (AccountConfig ρ))
    (graph : ProviderGraph ρ τ ε) : Prop where
  configs : graph.accounts.map LinkedAccount.config = accounts
  nodup : (accounts.map AccountConfig.id).Nodup
  inputOrder : ∀ i (account : LinkedAccount ρ), graph.accounts[i]? = some account →
    account.inputOrder = i
  account : ∀ id account, graph.account id = some account ↔
    account ∈ graph.accounts ∧ account.config.id = id
  destination : ∀ id destination, graph.destinations.get id = some destination ↔
    ∃ provider, plan.get id = some provider ∧ Destined registry parse id provider destination
  destined : ∀ id, graph.destinations.contains id = plan.contains id
  bound : ∀ account ∈ graph.accounts, account.binding.isSome = true ↔
    account.config.enabled = true ∧ plan.contains account.config.provider = true
  built : ∀ account ∈ graph.accounts, ∀ binding, account.binding = some binding →
    ∃ provider destination, plan.get account.config.provider = some provider ∧
      graph.destinations.get account.config.provider = some destination ∧
      Built registry destination provider account binding
  binding : ∀ provider id binding, graph.binding provider id = some binding ↔
    ∃ account ∈ graph.accounts, account.binding = some binding ∧
      account.config.provider = provider ∧ account.config.id = id

section

variable {registry : Registry ρ τ ε} {parse : TargetSyntax τ} {plan : BTreeMap String ProviderPlan}
  {destinations : BTreeMap String (ProviderDestination ρ τ ε)} {accounts : List (AccountConfig ρ)}

theorem get_destinations (h : plan.mapM (linkDestination registry parse) = .ok destinations)
    {id : String} {destination : ProviderDestination ρ τ ε} :
    destinations.get id = some destination ↔
      ∃ provider, plan.get id = some provider ∧ Destined registry parse id provider destination := by
  cases hplan : plan.get id with
  | none =>
    refine iff_of_false (fun hget => ?_) (by simp)
    obtain ⟨entry, hmem, hentry⟩ := Except.mem_of_mapM_eq_ok h (BTreeMap.mem_of_get hget)
    have hid := (linkDestination_eq_ok.mp hentry).1
    exact BTreeMap.get_eq_none_iff.mp hplan (List.mem_map.mpr ⟨entry, hmem, hid.symm⟩)
  | some provider =>
    obtain ⟨found, hfound, hstep⟩ :=
      Except.get_mapM (fun _ _ hok => (linkDestination_eq_ok.mp hok).1) h hplan
    have hdestined := (linkDestination_eq_ok.mp hstep).2
    rw [hfound, Option.some.injEq]
    constructor
    · rintro rfl
      exact ⟨provider, rfl, hdestined⟩
    · rintro ⟨provider', hprovider, h'⟩
      cases hprovider
      exact hdestined.unique h'

/-- The destinations are those of the planned providers. -/
theorem contains_destinations (h : plan.mapM (linkDestination registry parse) = .ok destinations)
    (id : String) : destinations.contains id = plan.contains id := by
  rw [BTreeMap.contains, BTreeMap.contains, Bool.eq_iff_iff, Option.isSome_iff_exists,
    Option.isSome_iff_exists]
  constructor
  · rintro ⟨destination, hget⟩
    obtain ⟨provider, hplan, -⟩ := (get_destinations h).mp hget
    exact ⟨provider, hplan⟩
  · rintro ⟨provider, hplan⟩
    obtain ⟨destination, hget, -⟩ :=
      Except.get_mapM (fun _ _ hok => (linkDestination_eq_ok.mp hok).1) h hplan
    exact ⟨destination, hget⟩

variable {linked : List (LinkedAccount ρ)}

/-- An account of the graph is one of the input with what became of it. -/
theorem getElem?_linked
    (h : (prepared accounts.zipIdx).entries.mapM (linkAccount registry plan destinations) = .ok linked)
    {i : Nat} {account : LinkedAccount ρ} (hget : linked[i]? = some account) :
    ∃ config, accounts[i]? = some config ∧
      LinkedAs registry plan destinations { config := config, inputOrder := i } account := by
  have hall := List.forall₂_iff_get.mp (Except.mapM_eq_ok.mp h)
  obtain ⟨hlt, rfl⟩ := List.getElem?_eq_some_iff.mp hget
  have hentry : i < (prepared accounts.zipIdx).entries.length := hall.1 ▸ hlt
  have hstep := linkAccount_eq_ok.mp (hall.2 i hentry hlt)
  have hi : i < accounts.length := by simpa [prepared] using hentry
  refine ⟨accounts[i], List.getElem?_eq_getElem hi, ?_⟩
  have hprepared : (prepared accounts.zipIdx).entries.get ⟨i, hentry⟩ =
      { config := accounts[i], inputOrder := i } := by
    simp [prepared]
  rw [hprepared] at hstep
  exact hstep.2

theorem configs_linked
    (h : (prepared accounts.zipIdx).entries.mapM (linkAccount registry plan destinations) =
      .ok linked) : linked.map LinkedAccount.config = accounts := by
  have hlength : linked.length = accounts.length := by
    rw [← (Except.mapM_eq_ok.mp h).length_eq]
    simp [prepared]
  refine List.ext_getElem? fun i => ?_
  rw [List.getElem?_map]
  cases hget : linked[i]? with
  | none =>
    rw [Option.map_none, eq_comm, List.getElem?_eq_none_iff, ← hlength]
    exact List.getElem?_eq_none_iff.mp hget
  | some account =>
    obtain ⟨config, hconfig, hlinked⟩ := getElem?_linked h hget
    rw [Option.map_some, hconfig, hlinked.config_eq.1]

/-- The bindings by key are those of the accounts. -/
theorem get_insertBinding (hids : (linked.map fun a => a.config.id).Nodup)
    (hkey : ∀ account ∈ linked, ∀ binding, account.binding = some binding →
      binding.key = ⟨account.config.provider, account.config.id⟩) {key : ProviderBindingKey}
    {binding : LinkedBinding ρ} :
    (linked.foldl insertBinding []).get key = some binding ↔
      ∃ account ∈ linked, account.binding = some binding ∧ binding.key = key := by
  induction linked using List.reverseRecOn with
  | nil => simp
  | append_singleton linked account ih =>
    rw [List.map_append, List.map_singleton, ← List.concat_eq_append, List.nodup_concat] at hids
    have hold := ih hids.2 fun a ha => hkey a (List.mem_append_left _ ha)
    rw [List.foldl_append, List.foldl_cons, List.foldl_nil, insertBinding]
    have hmem : (∃ a ∈ linked ++ [account], a.binding = some binding ∧ binding.key = key) ↔
        (∃ a ∈ linked, a.binding = some binding ∧ binding.key = key) ∨
          account.binding = some binding ∧ binding.key = key := by
      simp [or_and_right, exists_or]
    rw [hmem, ← hold]
    cases hbinding : account.binding with
    | none => simp
    | some own =>
      dsimp only
      have hown := hkey account (by simp) own hbinding
      rw [Table.get_set]
      by_cases hsame : key = own.key
      · rw [if_pos hsame]
        -- no account before has the id
        have hnone : (linked.foldl insertBinding []).get key ≠ some binding := by
          intro hget
          obtain ⟨other, hother, hbound, hotherKey⟩ := hold.mp hget
          have hthis := hkey other (List.mem_append_left _ hother) binding hbound
          rw [hotherKey, hsame, hown] at hthis
          refine hids.1 (List.mem_map.mpr ⟨other, hother, ?_⟩)
          exact (congrArg ProviderBindingKey.accountId hthis).symm
        rw [or_iff_right hnone]
        constructor
        · intro h
          cases h
          exact ⟨rfl, hsame.symm⟩
        · intro h
          exact h.1
      · rw [if_neg hsame]
        refine (or_iff_left fun h => hsame ?_).symm
        cases h.1
        exact h.2.symm

/-- What the graph is. -/
theorem linkProviderGraph_linked {graph : ProviderGraph ρ τ ε}
    (h : linkProviderGraph registry parse plan accounts = .ok graph) :
    Linked registry parse plan accounts graph := by
  obtain ⟨st, hprepared, h⟩ := Except.bind_eq_ok.mp h
  obtain ⟨destinations, hdestinations, h⟩ := Except.bind_eq_ok.mp h
  obtain ⟨linked, hlinked, h⟩ := Except.bind_eq_ok.mp h
  cases h
  obtain ⟨hnodup, rfl⟩ := prepareAccounts_eq_ok.mp hprepared
  have hconfigs := configs_linked hlinked
  have hids : (linked.map fun a => a.config.id).Nodup := by
    rw [← hconfigs, List.map_map] at hnodup
    exact hnodup
  have hinput : ∀ i (account : LinkedAccount ρ), linked[i]? = some account → account.inputOrder = i := by
    intro i account hget
    obtain ⟨config, -, has⟩ := getElem?_linked hlinked hget
    exact has.config_eq.2
  have hbuilt : ∀ account ∈ linked, ∀ binding, account.binding = some binding →
      ∃ provider destination, plan.get account.config.provider = some provider ∧
        BTreeMap.get destinations account.config.provider = some destination ∧
        account.config.enabled = true ∧ Built registry destination provider account binding := by
    intro account hmem binding hbinding
    obtain ⟨i, hget⟩ := List.mem_iff_getElem?.mp hmem
    obtain ⟨config, -, has⟩ := getElem?_linked hlinked hget
    cases has with
    | unplanned => cases hbinding
    | disabled => cases hbinding
    | bound hplan henabled hdestination hbuilt =>
      cases hbinding
      exact ⟨_, _, hplan, hdestination, henabled, hbuilt.key, hbuilt.driven, hbuilt.owned,
        hbuilt.configured, hbuilt.ordered, hbuilt.built⟩
  refine ⟨hconfigs, hnodup, hinput, fun id account => ?_,
    fun id destination => get_destinations hdestinations, contains_destinations hdestinations,
    fun account hmem => ⟨fun hsome => ?_, fun hplanned => ?_⟩,
    fun account hmem binding hbinding => ?_, fun provider id binding => ?_⟩
  · rw [ProviderGraph.account, Option.bind_eq_some_iff]
    constructor
    · rintro ⟨i, hi, hget⟩
      obtain ⟨config, hconfig, rfl⟩ := (get_indices hnodup).mp hi
      obtain ⟨config', hconfig', has⟩ := getElem?_linked hlinked hget
      cases hconfig.symm.trans hconfig'
      exact ⟨List.mem_of_getElem? hget, by rw [has.config_eq.1]⟩
    · rintro ⟨hmem, rfl⟩
      obtain ⟨i, hget⟩ := List.mem_iff_getElem?.mp hmem
      obtain ⟨config, hconfig, has⟩ := getElem?_linked hlinked hget
      exact ⟨i, (get_indices hnodup).mpr ⟨config, hconfig, by rw [has.config_eq.1]⟩, hget⟩
  · obtain ⟨binding, hbinding⟩ := Option.isSome_iff_exists.mp hsome
    obtain ⟨provider, _, hplan, -, henabled, -⟩ := hbuilt account hmem binding hbinding
    exact ⟨henabled, by rw [BTreeMap.contains, hplan, Option.isSome_some]⟩
  · obtain ⟨i, hget⟩ := List.mem_iff_getElem?.mp hmem
    obtain ⟨config, -, has⟩ := getElem?_linked hlinked hget
    cases has with
    | unplanned hplan => simp [BTreeMap.contains, hplan] at hplanned
    | disabled _ hdisabled => cases hdisabled.symm.trans hplanned.1
    | bound => rfl
  · obtain ⟨provider, destination, hplan, hdestination, -, hfound⟩ :=
      hbuilt account hmem binding hbinding
    exact ⟨provider, destination, hplan, hdestination, hfound⟩
  · have hkeyed : ∀ account ∈ linked, ∀ binding, account.binding = some binding →
        binding.key = ⟨account.config.provider, account.config.id⟩ := by
      intro account hmem binding hbinding
      obtain ⟨_, _, -, -, -, hfound⟩ := hbuilt account hmem binding hbinding
      exact hfound.key
    rw [ProviderGraph.binding, get_insertBinding hids hkeyed]
    refine exists_congr fun account => and_congr_right fun hmem => and_congr_right fun hbinding => ?_
    rw [hkeyed account hmem binding hbinding, ProviderBindingKey.mk.injEq]

theorem exists_mapM_eq_ok {α β : Type} {f : α → Except ε β} {l : List α} :
    (∃ bs, l.mapM f = .ok bs) ↔ ∀ a ∈ l, ∃ b, f a = .ok b := by
  constructor
  · rintro ⟨bs, h⟩ a ha
    obtain ⟨b, -, hb⟩ := Except.exists_of_forall₂ (Except.mapM_eq_ok.mp h) ha
    exact ⟨b, hb⟩
  · intro h
    induction l with
    | nil => exact ⟨[], rfl⟩
    | cons a l ih =>
      obtain ⟨b, hb⟩ := h a List.mem_cons_self
      obtain ⟨bs, hbs⟩ := ih fun a ha => h a (List.mem_cons_of_mem _ ha)
      exact ⟨b :: bs, Except.mapM_eq_ok.mpr (.cons hb (Except.mapM_eq_ok.mp hbs))⟩

/-- An account that is fit is linked. -/
theorem exists_linkAccount_iff (hdestinations : plan.mapM (linkDestination registry parse) =
    .ok destinations) {account : LinkedAccount ρ} :
    (∃ linked, linkAccount registry plan destinations account = .ok linked) ↔
      Admissible registry parse plan account.config := by
  constructor
  · rintro ⟨linked, h⟩
    obtain ⟨hvalid, has⟩ := linkAccount_eq_ok.mp h
    refine ⟨hvalid, fun hnone => ?_, fun provider destination hplan henabled hdestined => ?_⟩
    · cases has with
      | unplanned _ hofficial => exact hofficial
      | disabled hplan => cases hplan.symm.trans hnone
      | bound hplan => cases hplan.symm.trans hnone
    · cases has with
      | unplanned hnone => cases hnone.symm.trans hplan
      | disabled _ hdisabled => cases hdisabled.symm.trans henabled
      | bound hplan' _ hfound hbuilt =>
        cases hplan.symm.trans hplan'
        cases ((get_destinations hdestinations).mpr ⟨provider, hplan, hdestined⟩).symm.trans hfound
        exact ⟨_, hbuilt.configured ▸ hbuilt.built⟩
  · rintro ⟨hvalid, hknown, haccepted⟩
    cases hplan : plan.get account.config.provider with
    | none => exact ⟨_, linkAccount_eq_ok.mpr ⟨hvalid, .unplanned hplan (hknown hplan)⟩⟩
    | some provider =>
      by_cases henabled : account.config.enabled = true
      · obtain ⟨destination, hget, hstep⟩ :=
          Except.get_mapM (fun _ _ hok => (linkDestination_eq_ok.mp hok).1) hdestinations hplan
        obtain ⟨driver, hdriver⟩ := haccepted provider destination hplan henabled
          (linkDestination_eq_ok.mp hstep).2
        have hbuilt : Built registry destination provider account {
            key := ⟨account.config.provider, account.config.id⟩, driverId := provider.driver,
            driver := driver, account := account.config,
            driverConfig := driverConfig provider.driver account.config,
            accountOrder := account.inputOrder } := ⟨rfl, rfl, rfl, rfl, rfl, hdriver⟩
        exact ⟨_, linkAccount_eq_ok.mpr ⟨hvalid, .bound hplan henabled hget hbuilt⟩⟩
      · exact ⟨_, linkAccount_eq_ok.mpr ⟨hvalid, .disabled hplan (by simpa using henabled)⟩⟩

theorem isOk_iff_exists {α : Type} {x : Except ε α} : x.isOk = true ↔ ∃ a, x = .ok a := by
  cases x with
  | error e => simp [Except.isOk, Except.toBool]
  | ok a => simp [Except.isOk, Except.toBool]

/-- When linking succeeds. -/
theorem linkProviderGraph_isOk_iff :
    (linkProviderGraph registry parse plan accounts).isOk = true ↔
      (accounts.map AccountConfig.id).Nodup ∧
        (∀ id provider, (id, provider) ∈ plan →
          ∃ destination, Destined registry parse id provider destination) ∧
        ∀ account ∈ accounts, Admissible registry parse plan account := by
  have hplan : (∃ destinations, plan.mapM (linkDestination registry parse) = .ok destinations) ↔
      ∀ id provider, (id, provider) ∈ plan →
        ∃ destination, Destined registry parse id provider destination := by
    rw [exists_mapM_eq_ok, Prod.forall]
    refine forall_congr' fun id => forall_congr' fun provider => imp_congr_right fun _ => ?_
    constructor
    · rintro ⟨⟨id', destination⟩, h⟩
      exact ⟨destination, (linkDestination_eq_ok.mp h).2⟩
    · rintro ⟨destination, h⟩
      exact ⟨(id, destination), linkDestination_eq_ok.mpr ⟨rfl, h⟩⟩
  have haccounts : ∀ destinations, plan.mapM (linkDestination registry parse) = .ok destinations →
      ((∃ linked, (prepared accounts.zipIdx).entries.mapM (linkAccount registry plan destinations) =
        .ok linked) ↔ ∀ account ∈ accounts, Admissible registry parse plan account) := by
    intro destinations hdestinations
    rw [exists_mapM_eq_ok]
    have hmem : ∀ config, config ∈ accounts ↔
        ∃ i, ({ config := config, inputOrder := i } : LinkedAccount ρ) ∈
          (prepared accounts.zipIdx).entries := by
      intro config
      rw [List.mem_iff_getElem?]
      refine exists_congr fun i => ?_
      rw [← List.mk_mem_zipIdx_iff_getElem?]
      simp [prepared]
    constructor
    · intro h config hconfig
      obtain ⟨i, hi⟩ := (hmem config).mp hconfig
      exact (exists_linkAccount_iff hdestinations).mp (h _ hi)
    · intro h account haccount
      obtain ⟨entry, hentry, rfl⟩ := List.mem_map.mp haccount
      exact (exists_linkAccount_iff hdestinations).mpr
        (h _ ((hmem _).mpr ⟨entry.2, haccount⟩))
  rw [isOk_iff_exists, ← hplan]
  constructor
  · rintro ⟨graph, h⟩
    obtain ⟨st, hprepared, h⟩ := Except.bind_eq_ok.mp h
    obtain ⟨destinations, hdestinations, h⟩ := Except.bind_eq_ok.mp h
    obtain ⟨linked, hlinked, h⟩ := Except.bind_eq_ok.mp h
    obtain ⟨hnodup, rfl⟩ := prepareAccounts_eq_ok.mp hprepared
    exact ⟨hnodup, ⟨destinations, hdestinations⟩,
      (haccounts destinations hdestinations).mp ⟨linked, hlinked⟩⟩
  · rintro ⟨hnodup, ⟨destinations, hdestinations⟩, hadmissible⟩
    obtain ⟨linked, hlinked⟩ := (haccounts destinations hdestinations).mpr hadmissible
    exact ⟨_, Except.bind_eq_ok.mpr ⟨_, prepareAccounts_eq_ok.mpr ⟨hnodup, rfl⟩,
      Except.bind_eq_ok.mpr ⟨destinations, hdestinations,
        Except.bind_eq_ok.mpr ⟨linked, hlinked, rfl⟩⟩⟩⟩

/-- **When linking succeeds, and what the graph is then.** -/
theorem linkProviderGraph_spec (registry : Registry ρ τ ε) (parse : TargetSyntax τ)
    (plan : BTreeMap String ProviderPlan) (accounts : List (AccountConfig ρ)) :
    ((linkProviderGraph registry parse plan accounts).isOk = true ↔
      (accounts.map AccountConfig.id).Nodup ∧
        (∀ id provider, (id, provider) ∈ plan →
          ∃ destination, Destined registry parse id provider destination) ∧
        ∀ account ∈ accounts, Admissible registry parse plan account) ∧
    ∀ graph, linkProviderGraph registry parse plan accounts = .ok graph →
      Linked registry parse plan accounts graph :=
  ⟨linkProviderGraph_isOk_iff, fun _ => linkProviderGraph_linked⟩

end

end Tokn.Accounts.Link
