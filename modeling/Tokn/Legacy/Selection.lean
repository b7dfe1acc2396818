import Tokn.Accounts.Registry
import Tokn.Legacy.Assignments
import Tokn.Legacy.Hosts
import Tokn.Legacy.Profiles
import Tokn.Router.LegacyProxyProof

/-!
# The mode of a host, before and after

The legacy proxy looks for the provider of a host and of a path, and takes its mode
(`hostMode_of_owner`). The projected one has a binding for the hosts of a mode, whatever the path is
(`selectAction_spec`). A host with a mode has one provider, and the two differ where that provider
does not claim the path (`modePlan_eq_iff`).
-/

namespace Tokn.Legacy

open Tokn.Accounts (Registry UrlSyntax ProviderDescriptor NormalizedTarget Claims normalizeTarget
  host_normalizeTarget)
open Tokn.Config
open Tokn.Policy
open Tokn.Router
open Tokn.Router.LegacyProxy (RouteMode ProxyProviderMode hostMode providerMode)

/-! ## The hosts of the registry -/

/-- The hosts of the providers of the registry. -/
def builtinHosts : BTreeMap String (List Text) :=
  Registry.builtin.map fun entry => (entry.1, entry.2.hosts)

def forwardProxyOptions (routeMode : RouteMode) (allowInsecurePublicListener : Bool) :
    ForwardProxyOptions where
  routeMode := routeMode
  defaultInterceptHosts := defaultInterceptHosts
  providerHosts := builtinHosts
  allowInsecurePublicListener := allowInsecurePublicListener

theorem nodup_builtin : (Registry.builtin.map Prod.fst).Nodup := by decide +kernel

theorem id_of_mem_builtin : ∀ entry ∈ Registry.builtin, entry.2.id = entry.1 := by decide +kernel

theorem canonical_of_mem_builtin : ∀ entry ∈ Registry.builtin, ∀ host ∈ entry.2.hosts,
    canonicalProxyHost host = .ok (String.ofList host) := by
  decide +kernel

theorem owns_builtin_iff {provider host : String} :
    Owns builtinHosts provider host ↔
      ∃ descriptor, (provider, descriptor) ∈ Registry.builtin ∧ host.toList ∈ descriptor.hosts := by
  constructor
  · rintro ⟨hosts, hmem, text, htext, hcanonical⟩
    obtain ⟨⟨id, descriptor⟩, hentry, heq⟩ := List.mem_map.mp hmem
    obtain ⟨rfl, rfl⟩ := Prod.mk.inj heq
    refine ⟨descriptor, hentry, ?_⟩
    have hname := Except.ok.inj ((canonical_of_mem_builtin _ hentry text htext).symm.trans hcanonical)
    rw [← hname, String.toList_ofList]
    exact htext
  · rintro ⟨descriptor, hentry, hhost⟩
    refine ⟨descriptor.hosts, List.mem_map.mpr ⟨_, hentry, rfl⟩, host.toList, hhost, ?_⟩
    rw [canonical_of_mem_builtin _ hentry _ hhost, String.ofList_toList]

/-- A host with one owner is claimed by one descriptor. -/
theorem filter_builtin {provider : String} {descriptor : ProviderDescriptor} {host : Text}
    (hmem : (provider, descriptor) ∈ Registry.builtin) (hhost : host ∈ descriptor.hosts)
    (hunique : ∀ other, Owns builtinHosts other (String.ofList host) → other = provider) :
    ((Registry.builtin.map Prod.snd).filter fun d => d.matchesHost host) = [descriptor] := by
  have hsame : ∀ entry ∈ Registry.builtin.filter (fun entry => entry.2.matchesHost host),
      entry = (provider, descriptor) := by
    intro entry hentry
    obtain ⟨hin, hmatches⟩ := List.mem_filter.mp hentry
    have howns : Owns builtinHosts entry.1 (String.ofList host) :=
      owns_builtin_iff.mpr ⟨entry.2, hin, by
        rw [String.toList_ofList]
        exact List.contains_iff_mem.mp hmatches⟩
    exact List.inj_on_of_nodup_map nodup_builtin hin hmem (hunique _ howns)
  have hnodup : (Registry.builtin.filter fun entry => entry.2.matchesHost host).Nodup :=
    (List.Nodup.of_map _ nodup_builtin).filter _
  have hin : (provider, descriptor) ∈
      Registry.builtin.filter fun entry => entry.2.matchesHost host :=
    List.mem_filter.mpr ⟨hmem, List.contains_iff_mem.mpr hhost⟩
  have hone : (Registry.builtin.filter fun entry => entry.2.matchesHost host) =
      [(provider, descriptor)] := by
    rw [List.eq_replicate_of_mem hsame] at hnodup hin ⊢
    have hlen := List.nodup_replicate.mp hnodup
    generalize (Registry.builtin.filter fun entry => entry.2.matchesHost host).length = n at *
    interval_cases n
    · cases hin
    · rfl
  rw [List.filter_map, Function.comp_def, hone, List.map_singleton]

/-! ## The mode of the legacy proxy -/

/-- What a request asks the registry for. -/
def targetOf (url : UrlSyntax) (host : CanonicalHost) (pathAndQuery : Text) :
    Option NormalizedTarget :=
  normalizeTarget url ("https://".toList ++ host.value ++ pathAndQuery)

section

variable {legacy : LegacyConfig} {url : UrlSyntax} {routeMode : RouteMode}
  {state : LegacyProxy.AppState} {host : CanonicalHost} {pathAndQuery : Text}
  {target : NormalizedTarget} (htarget : targetOf url host pathAndQuery = some target)

include htarget

theorem providerMode_eq :
    providerMode (legacy.appState url routeMode state) host.value pathAndQuery =
      (Registry.builtin.providerIdFor target).bind fun id =>
        (legacy.proxyMode.providerModes.get id).map ProxyProviderMode.asRouteMode := by
  rw [providerMode]
  change (Registry.builtin.providerIdForUrl url _).bind _ = _
  rw [Registry.providerIdForUrl, ← targetOf, htarget, Option.bind_some]
  rfl

/-- On a host of one provider, it is that provider's mode if it claims the path. -/
theorem hostMode_of_owner {provider : String} {descriptor : ProviderDescriptor}
    (hmem : (provider, descriptor) ∈ Registry.builtin)
    (howner : ((Registry.builtin.map Prod.snd).filter fun d => d.matchesHost target.host) =
      [descriptor]) :
    hostMode (legacy.appState url routeMode state) host.value pathAndQuery =
      if Claims descriptor target then
        ((legacy.proxyMode.providerModes.get provider).map ProxyProviderMode.asRouteMode).getD
          routeMode
      else routeMode := by
  rw [hostMode, providerMode_eq htarget, Registry.providerIdFor_of_owner howner,
    id_of_mem_builtin _ hmem]
  by_cases hclaims : Claims descriptor target
  · rw [if_pos hclaims, if_pos hclaims]
    rfl
  · rw [if_neg hclaims, if_neg hclaims]
    rfl

/-- Without a mode for any of its providers, it is the default. -/
theorem hostMode_of_no_mode
    (hnone : ∀ provider descriptor, (provider, descriptor) ∈ Registry.builtin →
      target.host ∈ descriptor.hosts → legacy.proxyMode.providerModes.get provider = none) :
    hostMode (legacy.appState url routeMode state) host.value pathAndQuery = routeMode := by
  rw [hostMode, providerMode_eq htarget]
  cases hid : Registry.builtin.providerIdFor target with
  | none => rfl
  | some id =>
    obtain ⟨descriptor, hdescriptor, hsame, hhost⟩ := Registry.mem_of_providerIdFor hid
    obtain ⟨⟨key, _⟩, hentry, rfl⟩ := List.mem_map.mp hdescriptor
    have hkey := id_of_mem_builtin _ hentry
    rw [Option.bind_some, ← hsame, hkey, hnone key _ hentry hhost]
    rfl

end

/-! ## The binding of the projected proxy -/

theorem mem_hostsOf {assignments : HostAssignments} (h : BTreeMap.Sorted assignments)
    {mode : ProxyProviderMode} {host : String} :
    host ∈ hostsOf assignments mode ↔ modeOf assignments host = some mode := by
  rw [hostsOf, List.mem_map, modeOf, Option.map_eq_some_iff]
  constructor
  · rintro ⟨⟨name, value⟩, hmem, rfl⟩
    obtain ⟨hentry, hmode⟩ := List.mem_filter.mp hmem
    exact ⟨value, (BTreeMap.get_eq_some_iff h.nodup).mpr hentry, of_decide_eq_true hmode⟩
  · rintro ⟨value, hget, hmode⟩
    exact ⟨(host, value), List.mem_filter.mpr ⟨BTreeMap.mem_of_get hget, decide_eq_true hmode⟩, rfl⟩

section

variable {env : Syntax} (hip : env.toIpSyntax.Lawful) (hv4 : env.toIpSyntax.DottedDecimal)
  {owners : BTreeMap String (List String)} {providerModes : BTreeMap String ProxyProviderMode}
  {providerHosts : BTreeMap String (List Text)} {assignments : HostAssignments}
  (hassigned : Assigned providerHosts owners providerModes assignments) {raw : Text}
  {host : CanonicalHost} (hhost : CanonicalHost.fromStr env.toIpSyntax raw = .ok host)
  (h6 : host.isIpv6 = false)

include hip hv4 hassigned hhost h6

/-- The binding of a mode is for the requests to the hosts of the mode. -/
theorem httpMatches_iff_modeOf {resources : ProxyResources} {mode : ProxyProviderMode}
    {binding : RawBinding} (hfor : BindingFor assignments resources mode binding)
    {profiles : List String} {plan : HttpBindingPlan} (hmade : BindingMade env profiles binding plan)
    (method path : Text) (operation : Option String) :
    httpMatches plan.matcher (some host) method path operation = true ↔
      modeOf assignments (String.ofList host.value) = some mode := by
  obtain ⟨hhosts, hpaths, hmethods, hoperations⟩ := compileHttpMatch_ok hmade.1
  have hpaths : plan.matcher.pathPrefixes = [] := by
    rw [hfor.pathPrefixes] at hpaths
    exact (Except.ok.inj hpaths).symm
  have hmethods : plan.matcher.methods = [] := by
    rw [hfor.methods] at hmethods
    exact (Except.ok.inj hmethods).symm
  have hoperations : plan.matcher.operations = [] := by
    rw [hfor.operations] at hoperations
    exact (Except.ok.inj hoperations).symm
  have hcanonical : ∀ name ∈ binding.hosts, ∃ text, canonicalProxyHost text = .ok name := by
    intro name hmem
    rw [hfor.hosts, mem_hostsOf hassigned.sorted] at hmem
    obtain ⟨_, _, _, _, ⟨text, _, htext⟩, _⟩ := hassigned.sound name mode hmem
    exact ⟨text, htext⟩
  have hstar : ∀ name ∈ binding.hosts, '*' ∉ name.toList := by
    intro name hmem
    obtain ⟨text, htext⟩ := hcanonical name hmem
    exact (canonicalProxyHost_eq_ok.mp htext).2
  have hne : plan.matcher.hosts.isEmpty = false := by
    cases hempty : plan.matcher.hosts with
    | nil =>
      have hall := compileHosts_ok hhosts
      rw [hempty] at hall
      exact absurd (List.forall₂_nil_right_iff.mp hall) hfor.hosts_ne
    | cons _ _ => rfl
  have hname : (∃ name ∈ binding.hosts,
      CanonicalHost.fromStr env.toIpSyntax name.toList = .ok host) ↔
        String.ofList host.value ∈ binding.hosts := by
    constructor
    · rintro ⟨name, hmem, hname⟩
      obtain ⟨text, htext⟩ := hcanonical name hmem
      have hlower := lower_of_canonicalProxyHost htext
      rw [← (fromStr_iff_of_lower hip hv4 hhost h6 hlower).mp hname, String.ofList_toList]
      exact hmem
    · intro hmem
      refine ⟨_, hmem, ?_⟩
      rw [String.toList_ofList]
      exact host_roundTrip hip hhost
  rw [← mem_hostsOf hassigned.sorted, ← hfor.hosts, ← hname, ← exists_matches_iff hhosts hstar host,
    httpMatches, hne, hpaths, hmethods, hoperations, ← List.any_eq_true]
  simp

/-- **The action for a request**: that of the mode of its host, or the default. -/
theorem selectAction_spec {modes : List ProxyProviderMode} (hall : ∀ mode, mode ∈ modes)
    {st : BindingState} (hbound : BoundModes assignments modes st) {profiles : List String}
    {listener : ForwardProxyListenerPlan env.SocketAddr}
    (hbindings : List.Forall₂ (BindingMade env profiles) st.bindings listener.httpBindings)
    (method path : Text) :
    (∃ mode id, modeOf assignments (String.ofList host.value) = some mode ∧
        selectAction listener host method path = .route id ∧
        Holds st.resources id mode.asRouteMode) ∨
      modeOf assignments (String.ofList host.value) = none ∧
        selectAction listener host method path = listener.defaultHttpAction := by
  rw [selectAction]
  cases hselected : selectBinding listener host method path with
  | some plan =>
    rw [selectBinding] at hselected
    obtain ⟨binding, hbinding, hmade⟩ :=
      Except.exists_of_forall₂ hbindings.flip (List.mem_of_find?_eq_some hselected)
    obtain ⟨mode, -, hfor⟩ := hbound.sound binding hbinding
    have hmatches : httpMatches plan.matcher (some host) method path
        (proxyOperation method path) = true := by
      simpa using List.find?_some hselected
    have hmode :=
      (httpMatches_iff_modeOf hip hv4 hassigned hhost h6 hfor hmade method path _).mp hmatches
    obtain ⟨id, haction, hholds⟩ := hfor.action
    refine Or.inl ⟨mode, id, hmode, ?_, hholds⟩
    have hcompiled := hmade.2
    rw [haction] at hcompiled
    exact compileHttpAction_route hcompiled
  | none =>
    refine Or.inr ⟨?_, rfl⟩
    rw [selectBinding, List.find?_eq_none] at hselected
    by_contra hsome
    obtain ⟨mode, hmode⟩ := Option.ne_none_iff_exists'.mp hsome
    obtain ⟨binding, hbinding, hfor⟩ := hbound.complete mode (hall mode) _
      ((mem_hostsOf hassigned.sorted).mpr hmode)
    obtain ⟨plan, hplan, hmade⟩ := Except.exists_of_forall₂ hbindings hbinding
    exact hselected plan hplan
      ((httpMatches_iff_modeOf hip hv4 hassigned hhost h6 hfor hmade method path _).mpr hmode)

end

/-! ## The path of a request -/

/-- A provider with a mode of its own has the path, too, and not only the host. -/
def PathAgrees (legacy : LegacyConfig) (routeMode : RouteMode) (target : NormalizedTarget) : Prop :=
  ∀ entry ∈ Registry.builtin, target.host ∈ entry.2.hosts →
    ∀ mode, legacy.proxyMode.providerModes.get entry.1 = some mode →
      mode.asRouteMode ≠ routeMode → Claims entry.2 target

theorem get_builtinHosts {entry : String × ProviderDescriptor} (h : entry ∈ Registry.builtin) :
    builtinHosts.get entry.1 = some entry.2.hosts := by
  have hkeys : builtinHosts.map Prod.fst = Registry.builtin.map Prod.fst := by
    rw [builtinHosts, List.map_map]
    rfl
  refine (BTreeMap.get_eq_some_iff (hkeys ▸ nodup_builtin)).mpr ?_
  exact List.mem_map.mpr ⟨entry, h, rfl⟩

theorem modePlan_asRouteMode {mode : ProxyProviderMode} {routeMode : RouteMode} :
    modePlan mode.asRouteMode = modePlan routeMode ↔ mode.asRouteMode = routeMode := by
  cases mode <;> cases routeMode <;> decide

/-- The mode by which the projected proxy chooses the profile. -/
def projectedMode (assignments : HostAssignments) (routeMode : RouteMode) (host : CanonicalHost) :
    RouteMode :=
  ((modeOf assignments (String.ofList host.value)).map ProxyProviderMode.asRouteMode).getD routeMode

/-- **When the two modes have one plan.** -/
theorem modePlan_eq_iff {legacy : LegacyConfig} {url : UrlSyntax} {routeMode : RouteMode}
    {state : LegacyProxy.AppState} {owners : BTreeMap String (List String)}
    (howners : providerHostOwners builtinHosts = .ok owners) {assignments : HostAssignments}
    (hassigned : Assigned builtinHosts owners legacy.proxyMode.providerModes assignments)
    {host : CanonicalHost} {pathAndQuery path : Text}
    (htarget : targetOf url host pathAndQuery = some ⟨host.value, path⟩) :
    modePlan (projectedMode assignments routeMode host) =
        modePlan (hostMode (legacy.appState url routeMode state) host.value pathAndQuery) ↔
      PathAgrees legacy routeMode ⟨host.value, path⟩ := by
  rw [projectedMode]
  cases hmode : modeOf assignments (String.ofList host.value) with
  | some mode =>
    obtain ⟨provider, hget, howns, hunique⟩ := assigned_spec howners hassigned hmode
    obtain ⟨descriptor, hmem, hhost⟩ := owns_builtin_iff.mp howns
    rw [String.toList_ofList] at hhost
    have hagrees : PathAgrees legacy routeMode ⟨host.value, path⟩ ↔
        (mode.asRouteMode ≠ routeMode → Claims descriptor ⟨host.value, path⟩) := by
      constructor
      · exact fun h => h _ hmem hhost mode hget
      · intro h entry hentry hhost' mode' hget' hne
        have howner : entry.1 = provider := hunique _
          (owns_builtin_iff.mpr ⟨entry.2, hentry, by rw [String.toList_ofList]; exact hhost'⟩)
        obtain rfl := List.inj_on_of_nodup_map nodup_builtin hentry hmem howner
        obtain rfl : mode = mode' := Option.some.inj (hget.symm.trans hget')
        exact h hne
    rw [hostMode_of_owner htarget hmem (filter_builtin hmem hhost hunique), hget, hagrees,
      Option.map_some, Option.getD_some]
    by_cases hclaims : Claims descriptor ⟨host.value, path⟩
    · rw [if_pos hclaims]
      exact iff_of_true rfl fun _ => hclaims
    · rw [if_neg hclaims, modePlan_asRouteMode]
      exact ⟨fun heq hne => absurd heq hne, fun h => by_contra fun hne => hclaims (h hne)⟩
  | none =>
    have hnone : ∀ entry ∈ Registry.builtin, host.value ∈ entry.2.hosts →
        legacy.proxyMode.providerModes.get entry.1 = none := by
      intro entry hentry hhost
      by_contra hsome
      obtain ⟨mode, hget⟩ := Option.ne_none_iff_exists'.mp hsome
      have hassignedHost := hassigned.complete entry.1 mode entry.2.hosts
        (BTreeMap.mem_of_get hget) (get_builtinHosts hentry) host.value hhost _
        (canonical_of_mem_builtin entry hentry host.value hhost)
      rw [hmode] at hassignedHost
      cases hassignedHost
    rw [hostMode_of_no_mode htarget fun provider descriptor hmem hhost => hnone _ hmem hhost]
    refine iff_of_true rfl fun entry hentry hhost mode hget => ?_
    rw [hnone entry hentry hhost] at hget
    cases hget

end Tokn.Legacy
