import Mathlib.Data.String.Basic
import Tokn.Legacy.Projection
import Tokn.Lib.Str

/-!
# The profiles of the modes

Each mode that the projected proxy has a binding for, and its default mode, has a profile of its own
with a route for that mode (`boundModes_of_ok`), and that is what is left of it when the document is
compiled (`planOf_of_holds`).
-/

namespace Tokn.Legacy

open Tokn.Config
open Tokn.Policy (HttpAction)
open Tokn.Router.LegacyProxy (RouteMode ProxyProviderMode)
open Tokn.Except (bind_eq_ok)

/-! ## Fresh identifiers -/

theorem suffix_inj {base : String} {m n : Nat}
    (h : base ++ "-" ++ toString m = base ++ "-" ++ toString n) : m = n := by
  have hlist := congrArg String.toList h
  simp only [String.toList_append] at hlist
  exact Str.toString_nat_inj (String.toList_injective (List.append_cancel_left hlist))

/-- If the search ends at a used identifier, it has passed as many used ones as it has fuel. -/
theorem mem_of_freshSuffix_mem {used : List String} {base : String} {fuel suffix : Nat}
    (h : freshSuffix used base fuel suffix ∈ used) :
    ∀ k ≤ fuel, base ++ "-" ++ toString (suffix + k) ∈ used := by
  induction fuel generalizing suffix with
  | zero =>
    intro k hk
    obtain rfl : k = 0 := by omega
    exact h
  | succ fuel ih =>
    rw [freshSuffix] at h
    split at h
    · rename_i hused
      intro k hk
      cases k with
      | zero => exact List.contains_iff_mem.mp hused
      | succ k =>
        have hrest := ih h k (by omega)
        rwa [show suffix + 1 + k = suffix + (k + 1) by omega] at hrest
    · rename_i hfree
      exact absurd (List.contains_iff_mem.mpr h) hfree

/-- **An allocated identifier is new.** -/
theorem allocate_not_mem (used : List String) (source : String) : allocate used source ∉ used := by
  rw [allocate]
  split
  · intro hmem
    have hall := mem_of_freshSuffix_mem hmem
    have hnodup : ((List.range (used.length + 1)).map fun k =>
        String.ofList (sanitizedIdentifier source.toList) ++ "-" ++ toString (2 + k)).Nodup := by
      refine List.Nodup.map (fun m n h => ?_) List.nodup_range
      have hsum := suffix_inj h
      omega
    have hsub : ((List.range (used.length + 1)).map fun k =>
        String.ofList (sanitizedIdentifier source.toList) ++ "-" ++ toString (2 + k)) ⊆ used := by
      intro name hname
      obtain ⟨k, hk, rfl⟩ := List.mem_map.mp hname
      exact hall k (Nat.lt_succ_iff.mp (List.mem_range.mp hk))
    have hlen := (hnodup.subperm hsub).length_le
    rw [List.length_map, List.length_range] at hlen
    omega
  · rename_i hfree
    exact fun hmem => hfree (List.contains_iff_mem.mpr hmem)

/-! ## Profiles -/

/-- What a mode does with the destination and with the credentials. -/
def modePlan : RouteMode → RoutePlan
  | .passthrough => .relay .original .client
  | .switch => .relay .original .accountPool
  | _ => .managed

variable {policy : EffectivePolicy} {mode : RouteMode} {resources : ProxyResources}
  {pool : RawAccountPool} {assignments : HostAssignments} {checks : ResourceChecks}

theorem plan_proxyRouteRecipe {providers : Option (List String)} {route : RawRoute}
    (h : proxyRouteRecipe policy mode providers = .ok route) : route.plan = modePlan mode := by
  cases mode <;> (cases h; rfl)

/-- The profile is one of the mode. -/
structure Holds (resources : ProxyResources) (id : String) (mode : RouteMode) : Prop where
  used : id ∈ resources.used
  profile : ∃ profile, resources.profiles.get id = some profile ∧ profile.route = id
  route : ∃ route, resources.routes.get id = some route ∧ route.plan = modePlan mode

/-- The maps of the resources are ordered. -/
structure Ordered (resources : ProxyResources) : Prop where
  profiles : BTreeMap.Sorted resources.profiles
  routes : BTreeMap.Sorted resources.routes

theorem insertProxyProfile_ok {requestedId id : String} {resources' : ProxyResources}
    (h : insertProxyProfile policy mode pool requestedId resources = .ok (id, resources')) :
    Holds resources' id mode ∧
      (∀ id' mode', Holds resources id' mode' → Holds resources' id' mode') ∧
      (Ordered resources → Ordered resources') := by
  obtain ⟨providers, -, h⟩ := bind_eq_ok.mp h
  obtain ⟨route, hroute, h⟩ := bind_eq_ok.mp h
  obtain ⟨rfl, rfl⟩ := Prod.mk.inj (Except.ok.inj h)
  have hnew := allocate_not_mem resources.used requestedId
  refine ⟨⟨List.mem_append_right _ (List.mem_singleton_self _), ⟨_, BTreeMap.get_insert_self .., rfl⟩,
    ⟨route, BTreeMap.get_insert_self .., plan_proxyRouteRecipe hroute⟩⟩, ?_, ?_⟩
  · intro id' mode' hold
    have hne : id' ≠ allocate resources.used requestedId := fun heq => hnew (heq ▸ hold.used)
    refine ⟨List.mem_append_left _ hold.used, ?_, ?_⟩
    · rw [BTreeMap.get_insert_of_ne _ hne]
      exact hold.profile
    · rw [BTreeMap.get_insert_of_ne _ hne]
      exact hold.route
  · exact fun hordered => ⟨hordered.profiles.insert _ _, hordered.routes.insert _ _⟩

/-! ## Bindings -/

def hostsOf (assignments : HostAssignments) (mode : ProxyProviderMode) : List String :=
  (assignments.filter fun entry => entry.2.1 = mode).map Prod.fst

/-- The binding is for the hosts of the mode, and for nothing else. -/
structure BindingFor (assignments : HostAssignments) (resources : ProxyResources)
    (mode : ProxyProviderMode) (binding : RawBinding) : Prop where
  listener : binding.listener = FORWARD_PROXY_LISTENER_ID
  hosts : binding.hosts = hostsOf assignments mode
  hosts_ne : binding.hosts ≠ []
  pathPrefixes : binding.pathPrefixes = []
  methods : binding.methods = []
  operations : binding.operations = []
  action : ∃ id, binding.action = .route id ∧ Holds resources id mode.asRouteMode

theorem BindingFor.mono {resources' : ProxyResources} {mode : ProxyProviderMode}
    {binding : RawBinding} (h : BindingFor assignments resources mode binding)
    (hmono : ∀ id mode, Holds resources id mode → Holds resources' id mode) :
    BindingFor assignments resources' mode binding := by
  obtain ⟨id, hid, hholds⟩ := h.action
  exact ⟨h.listener, h.hosts, h.hosts_ne, h.pathPrefixes, h.methods, h.operations, id, hid,
    hmono _ _ hholds⟩

/-- What there is after the bindings of some modes. -/
structure BoundModes (assignments : HostAssignments) (modes : List ProxyProviderMode)
    (st : BindingState) : Prop where
  profiles : ∀ entry ∈ st.modeProfiles, Holds st.resources entry.2 entry.1
  sound : ∀ binding ∈ st.bindings, ∃ mode ∈ modes, BindingFor assignments st.resources mode binding
  complete : ∀ mode ∈ modes, ∀ host ∈ hostsOf assignments mode,
    ∃ binding ∈ st.bindings, BindingFor assignments st.resources mode binding
  ordered : Ordered st.resources

theorem modeProfile_ok {st st' : BindingState} {id : String}
    (hprofiles : ∀ entry ∈ st.modeProfiles, Holds st.resources entry.2 entry.1)
    (h : modeProfile policy pool mode st = .ok (id, st')) :
    Holds st'.resources id mode ∧ st'.bindings = st.bindings ∧
      (∀ entry ∈ st'.modeProfiles, Holds st'.resources entry.2 entry.1) ∧
      (∀ id' mode', Holds st.resources id' mode' → Holds st'.resources id' mode') ∧
      (Ordered st.resources → Ordered st'.resources) ∧
      ∀ entry ∈ st.modeProfiles, entry ∈ st'.modeProfiles := by
  rw [modeProfile] at h
  split at h
  · rename_i entry hfind
    obtain ⟨rfl, rfl⟩ := Prod.mk.inj (Except.ok.inj h)
    have hmode : entry.1 = mode := by simpa using List.find?_some hfind
    exact ⟨hmode ▸ hprofiles entry (List.mem_of_find?_eq_some hfind), rfl, hprofiles,
      fun _ _ h => h, id, fun _ h => h⟩
  · obtain ⟨⟨id', resources⟩, hinsert, h⟩ := bind_eq_ok.mp h
    obtain ⟨rfl, rfl⟩ := Prod.mk.inj (Except.ok.inj h)
    obtain ⟨hholds, hmono, hordered⟩ := insertProxyProfile_ok hinsert
    refine ⟨hholds, rfl, ?_, hmono, hordered, fun _ h => List.mem_append_left _ h⟩
    intro entry hmem
    rcases List.mem_append.mp hmem with hmem | hmem
    · exact hmono _ _ (hprofiles entry hmem)
    · rw [List.mem_singleton.mp hmem]
      exact hholds

theorem bindMode_ok {modes : List ProxyProviderMode} {mode : ProxyProviderMode}
    {st st' : BindingState} (hst : BoundModes assignments modes st)
    (h : bindMode policy pool assignments st mode = .ok st') :
    BoundModes assignments (modes ++ [mode]) st' ∧
      ∀ entry ∈ st.modeProfiles, entry ∈ st'.modeProfiles := by
  rw [bindMode] at h
  dsimp only at h
  change (if (hostsOf assignments mode).isEmpty then _ else _) = _ at h
  by_cases hempty : (hostsOf assignments mode).isEmpty = true
  · rw [if_pos hempty] at h
    obtain rfl := Except.ok.inj h
    refine ⟨⟨hst.profiles, ?_, ?_, hst.ordered⟩, fun _ h => h⟩
    · intro binding hmem
      obtain ⟨mode', hmode', hbinding⟩ := hst.sound binding hmem
      exact ⟨mode', List.mem_append_left _ hmode', hbinding⟩
    · intro mode' hmem host hhost
      rcases List.mem_append.mp hmem with hmem | hmem
      · exact hst.complete mode' hmem host hhost
      · rw [List.mem_singleton.mp hmem, List.isEmpty_iff.mp hempty] at hhost
        cases hhost
  · rw [if_neg hempty] at h
    obtain ⟨⟨id, mid⟩, hprofile, h⟩ := bind_eq_ok.mp h
    obtain rfl := Except.ok.inj h
    obtain ⟨hholds, hbindings, hprofiles, hmono, hordered, hgrow⟩ :=
      modeProfile_ok hst.profiles hprofile
    have hnew : BindingFor assignments mid.resources mode {
        id := "proxy-provider-" ++ routeModeName mode.asRouteMode
        listener := FORWARD_PROXY_LISTENER_ID
        action := .route id
        hosts := hostsOf assignments mode
        pathPrefixes := []
        methods := []
        operations := [] } :=
      ⟨rfl, rfl, fun hnil => hempty (List.isEmpty_iff.mpr hnil), rfl, rfl, rfl, id, rfl, hholds⟩
    refine ⟨⟨hprofiles, ?_, ?_, hordered hst.ordered⟩, hgrow⟩
    · intro binding hmem
      rcases List.mem_append.mp hmem with hmem | hmem
      · rw [hbindings] at hmem
        obtain ⟨mode', hmode', hbinding⟩ := hst.sound binding hmem
        exact ⟨mode', List.mem_append_left _ hmode', hbinding.mono hmono⟩
      · rw [List.mem_singleton.mp hmem]
        exact ⟨mode, List.mem_append_right _ (List.mem_singleton_self mode), hnew⟩
    · intro mode' hmem host hhost
      rcases List.mem_append.mp hmem with hmem | hmem
      · obtain ⟨binding, hbinding, hfor⟩ := hst.complete mode' hmem host hhost
        exact ⟨binding, List.mem_append_left _ (hbindings ▸ hbinding), hfor.mono hmono⟩
      · rw [List.mem_singleton.mp hmem]
        exact ⟨_, List.mem_append_right _ (List.mem_singleton_self _), hnew⟩

/-- **The bindings of the projected proxy**, and its default profile. -/
theorem boundModes_of_ok {routeMode : RouteMode} {requestedId defaultId : String}
    {used : List String} {st : BindingState}
    (hdefault : insertProxyProfile policy routeMode pool requestedId { used := used } =
      .ok (defaultId, resources))
    (h : [ProxyProviderMode.passthrough, .switch].foldlM (bindMode policy pool assignments)
      { modeProfiles := [(routeMode, defaultId)], resources := resources } = .ok st) :
    BoundModes assignments [.passthrough, .switch] st ∧ Holds st.resources defaultId routeMode := by
  obtain ⟨hholds, -, hordered⟩ := insertProxyProfile_ok hdefault
  have hkept := Except.foldlM_induction
    (fun modes st => BoundModes assignments modes st ∧ (routeMode, defaultId) ∈ st.modeProfiles)
    ⟨?_, List.mem_singleton_self _⟩ ?_ h
  · exact ⟨hkept.1, hkept.1.profiles _ hkept.2⟩
  · constructor
    · intro entry hmem
      rw [List.mem_singleton.mp hmem]
      exact hholds
    · intro binding hmem
      cases hmem
    · intro mode hmem
      cases hmem
    · exact hordered ⟨BTreeMap.sorted_nil, BTreeMap.sorted_nil⟩
  · intro modes mode st st' _ hst hstep
    obtain ⟨hbound, hgrow⟩ := bindMode_ok hst.1 hstep
    exact ⟨hbound, hgrow _ hst.2⟩

/-! ## The compiled profiles -/

theorem compileRoute_ok {entry : String × RawRoute} {result : String × RoutePlan}
    (h : (do
      let id ← parseId "route" "route id" entry.1
      checks.route id entry.2
      return (id, entry.2.plan) : Except CompileError (String × RoutePlan)) = .ok result) :
    result.1 = entry.1 ∧ result.2 = entry.2.plan := by
  obtain ⟨id, hid, h⟩ := bind_eq_ok.mp h
  obtain ⟨-, -, h⟩ := bind_eq_ok.mp h
  cases h
  exact ⟨parseId_ok hid, rfl⟩

theorem compileProfile_ok {routes : BTreeMap String RoutePlan} {entry : String × RawProfile}
    {result : String × String}
    (h : (do
      let id ← parseId "profile" "profile id" entry.1
      let routeId ← parseId "route" "profile route reference" entry.2.route
      match routes.get routeId with
      | none => throw (.unresolvedReference "profile" entry.1 "route" "route" entry.2.route)
      | some route =>
        checks.profile id entry.2 route
        return (id, routeId) : Except CompileError (String × String)) = .ok result) :
    result.1 = entry.1 ∧ result.2 = entry.2.route := by
  obtain ⟨id, hid, h⟩ := bind_eq_ok.mp h
  obtain ⟨routeId, hroute, h⟩ := bind_eq_ok.mp h
  obtain rfl := parseId_ok hid
  obtain rfl := parseId_ok hroute
  split at h
  · cases h
  · obtain ⟨-, -, h⟩ := bind_eq_ok.mp h
    cases h
    exact ⟨rfl, rfl⟩

def planOf (profiles : BTreeMap String String) (routes : BTreeMap String RoutePlan) (id : String) :
    Option RoutePlan :=
  (profiles.get id).bind routes.get

/-- **The plan of a compiled profile** of a mode. -/
theorem planOf_of_holds (hordered : Ordered resources) {id : String} (h : Holds resources id mode)
    {apiRoutes : BTreeMap String RawRoute} {apiProfiles : BTreeMap String RawProfile}
    {routes : BTreeMap String RoutePlan} {profiles : BTreeMap String String}
    (hroutes : compileRoutes checks (apiRoutes.extend resources.routes) = .ok routes)
    (hprofiles : compileProfiles checks routes (apiProfiles.extend resources.profiles) =
      .ok profiles) : planOf profiles routes id = some (modePlan mode) := by
  obtain ⟨profile, hprofile, hprofileRoute⟩ := h.profile
  obtain ⟨route, hroute, hplan⟩ := h.route
  have hraw : (apiRoutes.extend resources.routes).get id = some route := by
    rw [BTreeMap.get_extend_of_sorted _ hordered.routes, hroute]
    rfl
  have hrawProfile : (apiProfiles.extend resources.profiles).get id = some profile := by
    rw [BTreeMap.get_extend_of_sorted _ hordered.profiles, hprofile]
    rfl
  obtain ⟨plan, hget, hstep⟩ := Except.get_mapM (fun _ _ h => (compileRoute_ok h).1) hroutes hraw
  obtain rfl : plan = route.plan := (compileRoute_ok hstep).2
  obtain ⟨routeId, hgetProfile, hstepProfile⟩ :=
    Except.get_mapM (fun _ _ h => (compileProfile_ok h).1) hprofiles hrawProfile
  obtain rfl : routeId = profile.route := (compileProfile_ok hstepProfile).2
  rw [planOf, hgetProfile, Option.bind_some, hprofileRoute, hget, hplan]

end Tokn.Legacy
