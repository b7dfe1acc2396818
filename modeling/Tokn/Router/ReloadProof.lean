import Mathlib.Data.String.Basic
import Tokn.Config.Compiled
import Tokn.Router.Reload

/-!
# Reloads keep the listeners

**Theorem (`reload_run`).** However the calls of `replace` interleave, the generations are numbered
by the calls that succeed. A call that fails leaves the generation as it is, and all generations
have the listeners of the first one, with the same settings. A handle finds its state in each of
them, and what a call accepts, the check of its plan accepts.

The invariant is `SameListeners` with the first generation: `ensureReloadCompatible` keeps it, and
that is all that `validateReload` asks.
-/

namespace Tokn.Router

open Tokn.Policy
open Tokn.Except (rejectIf bind_eq_ok rejectIf_eq_ok)

/-! ## Settings -/

/-- What an API listener keeps. -/
structure ApiSettings (Addr : Type) where
  bind : Addr
  clientAuth : ClientAuthPlan
  requestLimits : RequestLimitsPlan

/-- What a proxy keeps. -/
structure ProxySettings (Addr : Type) where
  bind : Addr
  clientAuth : ClientAuthPlan
  tls : Option TlsPlan
  outbound : HttpClientOptions
  requestLimits : RequestLimitsPlan

variable {Addr : Type}

def AppState.settings (state : AppState Addr) : ApiSettings Addr where
  bind := state.listener.bind
  clientAuth := state.listener.clientAuth
  requestLimits := state.requestLimits

def ForwardProxyState.settings (state : ForwardProxyState Addr) : ProxySettings Addr where
  bind := state.listener.bind
  clientAuth := state.listener.clientAuth
  tls := state.listener.tls
  outbound := state.outbound
  requestLimits := state.requestLimits

/-- The generations have the same listeners, with the same settings. -/
structure SameListeners (first later : RuntimeGeneration Addr) : Prop where
  apiIds : llmApiListeners later = llmApiListeners first
  proxyIds : forwardProxyListeners later = forwardProxyListeners first
  api : ∀ id, (later.llmApi.get id).map AppState.settings =
    (first.llmApi.get id).map AppState.settings
  proxy : ∀ id, (later.forwardProxy.get id).map ForwardProxyState.settings =
    (first.forwardProxy.get id).map ForwardProxyState.settings

theorem SameListeners.refl (generation : RuntimeGeneration Addr) :
    SameListeners generation generation := ⟨rfl, rfl, fun _ => rfl, fun _ => rfl⟩

theorem SameListeners.symm {a b : RuntimeGeneration Addr} (h : SameListeners a b) :
    SameListeners b a :=
  ⟨h.apiIds.symm, h.proxyIds.symm, fun id => (h.api id).symm, fun id => (h.proxy id).symm⟩

theorem SameListeners.trans {a b c : RuntimeGeneration Addr} (hab : SameListeners a b)
    (hbc : SameListeners b c) : SameListeners a c :=
  ⟨hbc.apiIds.trans hab.apiIds, hbc.proxyIds.trans hab.proxyIds,
    fun id => (hbc.api id).trans (hab.api id), fun id => (hbc.proxy id).trans (hab.proxy id)⟩

theorem index_eq_ok {ν : Type} {map : BTreeMap String ν} {key : String} {value : ν} :
    index map key = .ok value ↔ map.get key = some value := by
  rw [index]
  cases map.get key with
  | none => exact ⟨fun h => (by cases h), fun h => (by cases h)⟩
  | some v =>
    rw [Except.ok.injEq, Option.some.injEq]

/-- A listener that is in the map has its state there. -/
theorem exists_index {ν : Type} {map : BTreeMap String ν} {key : String}
    (h : key ∈ map.map Prod.fst) : ∃ value, index map key = .ok value := by
  cases hget : map.get key with
  | none => exact absurd h (BTreeMap.get_eq_none_iff.mp hget)
  | some value => exact ⟨value, index_eq_ok.mpr hget⟩

/-- Where one map has an entry, the other has one with the same settings. -/
theorem map_get_eq {ν σ : Type} {m m' : BTreeMap String ν} {settings : ν → σ}
    (hkeys : m.map Prod.fst = m'.map Prod.fst)
    (h : ∀ entry ∈ m, ∃ value, m'.get entry.1 = some value ∧ settings value = settings entry.2)
    (id : String) : (m'.get id).map settings = (m.get id).map settings := by
  cases hget : m.get id with
  | none =>
    have hnone : m'.get id = none := by
      rw [BTreeMap.get_eq_none_iff, ← hkeys]
      exact BTreeMap.get_eq_none_iff.mp hget
    rw [hnone]
  | some value =>
    obtain ⟨value', hget', hsettings⟩ := h (id, value) (BTreeMap.mem_of_get hget)
    rw [hget', Option.map_some, Option.map_some, hsettings]

section

variable [DecidableEq Addr]

/-! ## The check of the states -/

theorem ensureApi_ok {replacements : BTreeMap String (AppState Addr)}
    {entry : String × AppState Addr} (h : ensureApi replacements entry = .ok ()) :
    ∃ value, replacements.get entry.1 = some value ∧ value.settings = entry.2.settings := by
  obtain ⟨replacement, hindex, h⟩ := bind_eq_ok.mp h
  obtain ⟨_, hbind, h⟩ := bind_eq_ok.mp h
  obtain ⟨_, hauth, h⟩ := bind_eq_ok.mp h
  rw [rejectIf_eq_ok, decide_eq_false_iff_not, not_not] at hbind hauth h
  refine ⟨replacement, index_eq_ok.mp hindex, ?_⟩
  rw [AppState.settings, AppState.settings, hbind, hauth, h]

theorem httpClientOptionsEq_iff {left right : HttpClientOptions} :
    httpClientOptionsEq left right = true ↔ left = right := by
  obtain ⟨url, noProxy, system⟩ := left
  obtain ⟨url', noProxy', system'⟩ := right
  simp [httpClientOptionsEq, and_assoc]

theorem ensureForwardProxy_ok {replacements : BTreeMap String (ForwardProxyState Addr)}
    {entry : String × ForwardProxyState Addr}
    (h : ensureForwardProxy replacements entry = .ok ()) :
    ∃ value, replacements.get entry.1 = some value ∧ value.settings = entry.2.settings := by
  obtain ⟨replacement, hindex, h⟩ := bind_eq_ok.mp h
  obtain ⟨_, hbind, h⟩ := bind_eq_ok.mp h
  obtain ⟨_, hauth, h⟩ := bind_eq_ok.mp h
  obtain ⟨_, htls, h⟩ := bind_eq_ok.mp h
  obtain ⟨_, houtbound, h⟩ := bind_eq_ok.mp h
  rw [rejectIf_eq_ok, decide_eq_false_iff_not, not_not] at hbind hauth htls h
  rw [rejectIf_eq_ok, Bool.not_eq_false', httpClientOptionsEq_iff] at houtbound
  refine ⟨replacement, index_eq_ok.mp hindex, ?_⟩
  rw [ForwardProxyState.settings, ForwardProxyState.settings, hbind, hauth, htls, houtbound, h]

variable {current : RuntimeGeneration Addr} {plan : GatewayPlan Addr} {service : ServicePlan}

/-- What `ensure_reload_compatible` accepts has the same listeners. -/
theorem sameListeners_of_compatible {replacement : RuntimeGeneration Addr}
    (h : ensureReloadCompatible current replacement = .ok ()) :
    SameListeners current replacement := by
  obtain ⟨_, hapiIds, h⟩ := bind_eq_ok.mp h
  obtain ⟨_, hproxyIds, h⟩ := bind_eq_ok.mp h
  obtain ⟨_, hapi, hproxy⟩ := bind_eq_ok.mp h
  rw [rejectIf_eq_ok, decide_eq_false_iff_not, not_not] at hapiIds hproxyIds
  rw [Except.forM_eq_ok] at hapi hproxy
  refine ⟨hapiIds.symm, hproxyIds.symm, map_get_eq hapiIds ?_, map_get_eq hproxyIds ?_⟩
  · exact fun entry hentry => ensureApi_ok (hapi entry hentry)
  · exact fun entry hentry => ensureForwardProxy_ok (hproxy entry hentry)

theorem replace_ok {value : RuntimeGeneration Addr} {request : RuntimeStates Addr × Nat}
    {report : ReloadReport} (h : replace current request = .ok (value, report)) :
    value = .new (current.number + 1) request.2 request.1 ∧ report.generation = value.number ∧
      SameListeners current value := by
  obtain ⟨_, hcompatible, hpure⟩ := bind_eq_ok.mp h
  cases hpure
  exact ⟨rfl, rfl, sameListeners_of_compatible hcompatible⟩

/-! ## No panics -/

abbrev NoPanic {α : Type} (x : Except Halt α) : Prop := Except.Fails (fun e => e ≠ .panic) x

theorem noPanic_index {ν : Type} {map : BTreeMap String ν} {key : String}
    (h : key ∈ map.map Prod.fst) : NoPanic (index map key) := by
  obtain ⟨value, hvalue⟩ := exists_index h
  rw [hvalue]
  exact Except.fails_ok _

theorem noPanic_reject {bad : Bool} {id message : String} :
    NoPanic (rejectIf bad (restartRequired id message)) :=
  Except.fails_rejectIf (by rw [restartRequired]; exact fun h => by cases h)

/-- Looking the listeners up in the replacement finds all of them. -/
theorem noPanic_ensureReloadCompatible (current replacement : RuntimeGeneration Addr) :
    NoPanic (ensureReloadCompatible current replacement) := by
  have hids : NoPanic (rejectIf.{0} (decide (current.llmApi.map Prod.fst ≠
      replacement.llmApi.map Prod.fst)) (.reload (.restartRequired "LLM API listener ids changed"))) :=
    Except.fails_rejectIf fun h => by cases h
  have hids' : NoPanic (rejectIf.{0} (decide (current.forwardProxy.map Prod.fst ≠
      replacement.forwardProxy.map Prod.fst))
      (.reload (.restartRequired "forward-proxy listener ids changed"))) :=
    Except.fails_rejectIf fun h => by cases h
  refine hids.bind fun _ hapiIds => hids'.bind fun _ hproxyIds => ?_
  rw [rejectIf_eq_ok, decide_eq_false_iff_not, not_not] at hapiIds hproxyIds
  refine Except.Fails.bind (Except.Fails.forM ?_) fun _ _ => Except.Fails.forM ?_
  · intro entry hentry
    have hkey : entry.1 ∈ replacement.llmApi.map Prod.fst :=
      hapiIds ▸ List.mem_map_of_mem hentry
    exact (noPanic_index hkey).bind fun _ _ => noPanic_reject.bind fun _ _ =>
      noPanic_reject.bind fun _ _ => noPanic_reject
  · intro entry hentry
    have hkey : entry.1 ∈ replacement.forwardProxy.map Prod.fst :=
      hproxyIds ▸ List.mem_map_of_mem hentry
    exact (noPanic_index hkey).bind fun _ _ => noPanic_reject.bind fun _ _ =>
      noPanic_reject.bind fun _ _ => noPanic_reject.bind fun _ _ =>
      noPanic_reject.bind fun _ _ => noPanic_reject

/-! ## The check of the plan -/

/-- The state of an API listener of a plan. -/
def apiState (service : ServicePlan) (entry : String × LlmApiListenerPlan Addr) : AppState Addr where
  listenerId := entry.1
  listener := entry.2
  requestLimits := service.requestLimits

/-- The state of a proxy of a plan. -/
def proxyState (service : ServicePlan) (entry : String × ForwardProxyListenerPlan Addr) :
    ForwardProxyState Addr where
  listenerId := entry.1
  listener := entry.2
  outbound := service.outbound
  requestLimits := service.requestLimits

omit [DecidableEq Addr] in
theorem apiListeners_concat (listeners : BTreeMap String (ListenerPlan Addr))
    (entry : String × ListenerPlan Addr) :
    apiListeners (listeners ++ [entry]) = apiListeners listeners ++ apiListeners [entry] :=
  List.filterMap_append

omit [DecidableEq Addr] in
theorem proxyListeners_concat (listeners : BTreeMap String (ListenerPlan Addr))
    (entry : String × ListenerPlan Addr) :
    proxyListeners (listeners ++ [entry]) = proxyListeners listeners ++ proxyListeners [entry] :=
  List.filterMap_append

omit [DecidableEq Addr] in
/-- The states of a plan are those of its listeners. -/
theorem buildRuntimeStates_ok {linked : Except String Unit} {loadCa : TlsPlan → Except String Unit}
    {states : RuntimeStates Addr} (h : buildRuntimeStates plan service linked loadCa = .ok states) :
    states.llmApi = (apiListeners plan.listeners).map (apiState service) ∧
      states.forwardProxy = (proxyListeners plan.listeners).map (proxyState service) := by
  obtain ⟨_, -, h⟩ := bind_eq_ok.mp h
  refine Except.foldlM_induction
    (fun (listeners : List (String × ListenerPlan Addr)) (states : RuntimeStates Addr) =>
      states.llmApi = (apiListeners listeners).map (apiState service) ∧
      states.forwardProxy = (proxyListeners listeners).map (proxyState service))
    ⟨rfl, rfl⟩ ?_ h
  intro listeners entry states states' _ hstates hstep
  obtain ⟨id, listener⟩ := entry
  rw [apiListeners_concat, proxyListeners_concat, List.map_append, List.map_append, ← hstates.1,
    ← hstates.2]
  cases listener with
  | llmApi listener =>
    cases hstep
    exact ⟨rfl, (List.append_nil _).symm⟩
  | forwardProxy listener =>
    obtain ⟨_, -, hpure⟩ := bind_eq_ok.mp hstep
    cases hpure
    exact ⟨(List.append_nil _).symm, rfl⟩

omit [DecidableEq Addr] in
theorem sorted_apiListeners (plan : GatewayPlan Addr) :
    BTreeMap.Sorted (apiListeners plan.listeners) := by
  refine plan.sorted.filterMap ?_
  intro entry entry' h
  split at h <;> cases h
  rfl

omit [DecidableEq Addr] in
theorem sorted_proxyListeners (plan : GatewayPlan Addr) :
    BTreeMap.Sorted (proxyListeners plan.listeners) := by
  refine plan.sorted.filterMap ?_
  intro entry entry' h
  split at h <;> cases h
  rfl

omit [DecidableEq Addr] in
/-- Collecting the states of listeners in the order of their ids. -/
theorem extend_states {ν σ : Type} {m : BTreeMap String ν} (h : BTreeMap.Sorted m)
    (state : String × ν → σ) (listenerId : σ → String) (hid : ∀ e, listenerId (state e) = e.1) :
    BTreeMap.extend [] ((m.map state).map fun s => (listenerId s, s)) =
      m.map fun e => (e.1, state e) := by
  have hmap : (m.map state).map (fun s => (listenerId s, s)) = m.map fun e => (e.1, state e) := by
    rw [List.map_map]
    apply List.map_congr_left
    intro e _
    rw [Function.comp_apply, hid]
  rw [hmap]
  apply BTreeMap.extend_nil_of_sorted
  rw [BTreeMap.Sorted, List.map_map]
  exact h

omit [DecidableEq Addr] in
theorem get_states {ν σ : Type} {m : BTreeMap String ν} (h : BTreeMap.Sorted m)
    (state : String × ν → σ) {id : String} {value : ν} (hmem : (id, value) ∈ m) :
    BTreeMap.get (m.map fun e => (e.1, state e)) id = some (state (id, value)) := by
  refine (BTreeMap.get_eq_some_iff ?_).mpr (List.mem_map.mpr ⟨(id, value), hmem, rfl⟩)
  rw [List.map_map]
  exact h.nodup

omit [DecidableEq Addr] in
theorem apiStates_new {states : RuntimeStates Addr}
    (h : states.llmApi = (apiListeners plan.listeners).map (apiState service))
    (number accounts : Nat) :
    (RuntimeGeneration.new number accounts states).llmApi =
      (apiListeners plan.listeners).map fun e => (e.1, apiState service e) := by
  rw [RuntimeGeneration.new, h]
  exact extend_states (sorted_apiListeners plan) (apiState service) AppState.listenerId fun _ => rfl

omit [DecidableEq Addr] in
theorem proxyStates_new {states : RuntimeStates Addr}
    (h : states.forwardProxy = (proxyListeners plan.listeners).map (proxyState service))
    (number accounts : Nat) :
    (RuntimeGeneration.new number accounts states).forwardProxy =
      (proxyListeners plan.listeners).map fun e => (e.1, proxyState service e) := by
  rw [RuntimeGeneration.new, h]
  exact extend_states (sorted_proxyListeners plan) (proxyState service)
    ForwardProxyState.listenerId fun _ => rfl

/-- The ids of the listeners that were built are those of the plan. -/
theorem ids_eq {ν σ : Type} {map : BTreeMap String σ} {m : BTreeMap String ν}
    {state : String × ν → σ} (h : (m.map fun e => (e.1, state e)).map Prod.fst = map.map Prod.fst) :
    (map.map Prod.fst).toFinset = (m.map Prod.fst).toFinset := by
  rw [← h, List.map_map]
  rfl

theorem validateListener_api {id : String} {listener : LlmApiListenerPlan Addr}
    {state : AppState Addr} (hget : current.llmApi.get id = some state)
    (hbind : state.listener.bind = listener.bind)
    (hauth : state.listener.clientAuth = listener.clientAuth) :
    validateListener current (id, .llmApi listener) = .ok () := by
  rw [validateListener]
  refine bind_eq_ok.mpr ⟨state, index_eq_ok.mpr hget, ?_⟩
  refine bind_eq_ok.mpr ⟨(), rejectIf_eq_ok.mpr ?_, rejectIf_eq_ok.mpr ?_⟩
  · exact decide_eq_false (not_not_intro hbind)
  · exact decide_eq_false (not_not_intro hauth)

theorem validateListener_proxy {id : String} {listener : ForwardProxyListenerPlan Addr}
    {state : ForwardProxyState Addr} (hget : current.forwardProxy.get id = some state)
    (hbind : state.listener.bind = listener.bind)
    (hauth : state.listener.clientAuth = listener.clientAuth)
    (htls : state.listener.tls = listener.tls) :
    validateListener current (id, .forwardProxy listener) = .ok () := by
  rw [validateListener]
  refine bind_eq_ok.mpr ⟨state, index_eq_ok.mpr hget, ?_⟩
  refine bind_eq_ok.mpr ⟨(), rejectIf_eq_ok.mpr ?_, ?_⟩
  · exact decide_eq_false (not_not_intro hbind)
  refine bind_eq_ok.mpr ⟨(), rejectIf_eq_ok.mpr ?_, rejectIf_eq_ok.mpr ?_⟩
  · exact decide_eq_false (not_not_intro hauth)
  · exact decide_eq_false (not_not_intro htls)

/-- **What a reload accepts, the check of its plan accepts.** -/
theorem validateReload_of_sameListeners {linked : Except String Unit}
    {loadCa : TlsPlan → Except String Unit} {states : RuntimeStates Addr}
    (hbuild : buildRuntimeStates plan service linked loadCa = .ok states) {number accounts : Nat}
    (h : SameListeners (.new number accounts states) current) :
    validateReload current plan = .ok () := by
  obtain ⟨hapi, hproxy⟩ := buildRuntimeStates_ok hbuild
  have hapiNew := apiStates_new hapi number accounts
  have hproxyNew := proxyStates_new hproxy number accounts
  obtain ⟨hapiIds, hproxyIds, hapiSettings, hproxySettings⟩ := h
  rw [llmApiListeners, llmApiListeners, hapiNew] at hapiIds
  rw [forwardProxyListeners, forwardProxyListeners, hproxyNew] at hproxyIds
  refine bind_eq_ok.mpr ⟨(), rejectIf_eq_ok.mpr ?_, ?_⟩
  · exact decide_eq_false (not_not_intro (ids_eq hapiIds.symm))
  refine bind_eq_ok.mpr ⟨(), rejectIf_eq_ok.mpr ?_, ?_⟩
  · exact decide_eq_false (not_not_intro (ids_eq hproxyIds.symm))
  rw [Except.forM_eq_ok]
  intro entry hentry
  obtain ⟨id, listener⟩ := entry
  cases listener with
  | llmApi listener =>
    have hmem : (id, listener) ∈ apiListeners plan.listeners :=
      List.mem_filterMap.mpr ⟨_, hentry, rfl⟩
    have hsettings := hapiSettings id
    rw [hapiNew, get_states (sorted_apiListeners plan) (apiState service) hmem] at hsettings
    obtain ⟨state, hget, hstate⟩ := Option.map_eq_some_iff.mp hsettings
    injection hstate with hbind hauth
    exact validateListener_api hget hbind hauth
  | forwardProxy listener =>
    have hmem : (id, listener) ∈ proxyListeners plan.listeners :=
      List.mem_filterMap.mpr ⟨_, hentry, rfl⟩
    have hsettings := hproxySettings id
    rw [hproxyNew, get_states (sorted_proxyListeners plan) (proxyState service) hmem] at hsettings
    obtain ⟨state, hget, hstate⟩ := Option.map_eq_some_iff.mp hsettings
    injection hstate with hbind hauth htls
    exact validateListener_proxy hget hbind hauth htls

/-! ## Runs -/

/-- A runtime after some steps of its callers. -/
abbrev LiveRuntime (Addr : Type) :=
  Locked.Cell (RuntimeGeneration Addr) (RuntimeStates Addr × Nat) ReloadReport Halt

/-- The runs of a runtime that starts with the states. -/
abbrev runtimeRun (states : RuntimeStates Addr) (accounts : Nat)
    (actions : List (Locked.Action (RuntimeStates Addr × Nat))) : Option (LiveRuntime Addr) :=
  Locked.exec replace (RuntimeGeneration.new 1 accounts states) actions

/-- The calls that succeeded so far. -/
def reloads (live : LiveRuntime Addr) : Nat := live.answers.countP Except.isOk

section

variable {states : RuntimeStates Addr} {accounts : Nat}
  {actions : List (Locked.Action (RuntimeStates Addr × Nat))} {live : LiveRuntime Addr}

theorem number_eq (h : runtimeRun states accounts actions = some live) :
    live.current.number = 1 + reloads live := by
  refine Locked.exec_linear
    (fun current answers => current.number = 1 + answers.countP Except.isOk) rfl ?_ ?_ h
  · intro current answers request e hnumber _
    rw [List.countP_append, hnumber]
    rfl
  · intro current answers request value report hnumber hreplace
    obtain ⟨hvalue, -, -⟩ := replace_ok hreplace
    rw [hvalue, List.countP_append]
    change current.number + 1 = 1 + (answers.countP Except.isOk + 1)
    omega

theorem sameListeners_run (h : runtimeRun states accounts actions = some live) :
    SameListeners (.new 1 accounts states) live.current := by
  refine Locked.exec_linear (fun current _ => SameListeners (.new 1 accounts states) current)
    (.refl _) ?_ ?_ h
  · exact fun _ _ _ _ hsame _ => hsame
  · exact fun _ _ _ _ _ hsame hreplace => hsame.trans (replace_ok hreplace).2.2

/-- No call of a run panics. -/
theorem noPanic_run (h : runtimeRun states accounts actions = some live) :
    .error .panic ∉ live.answers := by
  refine Locked.exec_linear
    (fun _ (answers : List (Except Halt ReloadReport)) => .error .panic ∉ answers)
    List.not_mem_nil ?_ ?_ h
  · intro current answers request e hnot hreplace hmem
    rcases List.mem_append.mp hmem with hold | hnew
    · exact hnot hold
    · have hquiet : NoPanic (replace current request) :=
        (noPanic_ensureReloadCompatible _ _).bind fun _ _ => Except.fails_ok _
      refine hquiet e hreplace ?_
      injection List.mem_singleton.mp hnew with he
      exact he.symm
  · intro current answers request value report hnot _ hmem
    rcases List.mem_append.mp hmem with hold | hnew
    · exact hnot hold
    · cases List.mem_singleton.mp hnew

/-- A step that is not the end of a successful call leaves the generation as it is. -/
theorem generation_step (h : runtimeRun states accounts actions = some live)
    {action : Locked.Action (RuntimeStates Addr × Nat)} {live' : LiveRuntime Addr}
    (hstep : Locked.step replace live action = some live') :
    live'.current = live.current ∧
        (live'.answers = live.answers ∨ ∃ e, live'.answers = live.answers ++ [.error e]) ∨
      live'.current.number = live.current.number + 1 ∧
        ∃ report, live'.answers = live.answers ++ [.ok report] ∧
          report.generation = live'.current.number := by
  cases Locked.effect_of_step hstep with
  | silent current answers => exact Or.inl ⟨current, Or.inl answers⟩
  | refused seen request e holder proposal current answers =>
    exact Or.inl ⟨current, Or.inr ⟨e, answers⟩⟩
  | replaced seen request report holder proposal answers =>
    rw [Locked.fresh_of_exec h seen request holder] at proposal
    obtain ⟨hvalue, hreport, -⟩ := replace_ok proposal
    exact Or.inr ⟨by rw [hvalue]; rfl, report, answers, hreport⟩

/-- **Every run of reloads keeps the listeners.** Of any other moment of the runtime, `other`, a
handle finds its listener now, and what a call now accepts, the check of its plan would have
accepted then. -/
theorem reload_run (h : runtimeRun states accounts actions = some live) :
    live.current.number = 1 + reloads live ∧
    (∀ action live', Locked.step replace live action = some live' →
      live'.current = live.current ∧
          (live'.answers = live.answers ∨ ∃ e, live'.answers = live.answers ++ [.error e]) ∨
        live'.current.number = live.current.number + 1 ∧
          ∃ report, live'.answers = live.answers ++ [.ok report] ∧
            report.generation = live'.current.number) ∧
    SameListeners (.new 1 accounts states) live.current ∧
    ∀ otherActions other, runtimeRun states accounts otherActions = some other →
      (∀ id ∈ llmApiListeners other.current, ∃ state, currentApi live.current id = .ok state) ∧
      (∀ id ∈ forwardProxyListeners other.current,
        ∃ state, currentForwardProxy live.current id = .ok state) ∧
      ∀ plan service linked loadCa request result,
        buildRuntimeStates plan service linked loadCa = .ok request.1 →
        replace live.current request = .ok result → validateReload other.current plan = .ok () := by
  refine ⟨number_eq h, fun action live' => generation_step h, sameListeners_run h, ?_⟩
  intro otherActions other hother
  have hsame := (sameListeners_run hother).symm.trans (sameListeners_run h)
  refine ⟨fun id hid => ?_, fun id hid => ?_, ?_⟩
  · rw [← hsame.apiIds] at hid
    exact exists_index hid
  · rw [← hsame.proxyIds] at hid
    exact exists_index hid
  · intro plan service linked loadCa request result hbuild hreplace
    obtain ⟨hvalue, -, hlisteners⟩ := replace_ok hreplace
    rw [hvalue] at hlisteners
    exact validateReload_of_sameListeners hbuild (hsame.trans hlisteners).symm

end

end

/-! ## One reload -/

/-- The address of a socket is its port. -/
abbrev LocalAddr : Type := Config.localSyntax.SocketAddr

instance : DecidableEq LocalAddr := inferInstanceAs (DecidableEq Nat)

/-- A proxy that no policy of its own applies to. -/
def plainListener : ForwardProxyListenerPlan LocalAddr where
  bind := (8080 : Nat)
  clientAuth := .none
  requestBodyMaxBytes := 1024
  httpBindings := []
  defaultHttpAction := .reject
  connectRules := []
  defaultConnectAction := .tunnel
  tls := none

def plainPlan : GatewayPlan LocalAddr where
  listeners := [("proxy", .forwardProxy plainListener)]
  sorted := List.pairwise_singleton _ _

theorem compileGateway_plain :
    Config.compileGateway Config.localSyntax (Config.proxyWith []) "config.toml" [] =
      .ok plainPlan := by
  rfl

def plainService : ServicePlan where
  outbound := { url := none, noProxy := [], system := false }
  requestLimits := { maxWireBytes := 1024, maxDecodedBytes := 4096 }

def plainStates : RuntimeStates LocalAddr where
  forwardProxy :=
    [{ listenerId := "proxy", listener := plainListener, outbound := plainService.outbound,
       requestLimits := plainService.requestLimits }]

/-- The runtime after a reload with the states of the same plan. -/
def reloadedOnce : LiveRuntime LocalAddr where
  current := .new 2 1 plainStates
  answers := [.ok { generation := 2, accounts := 1 }]

/-- A second reload passes, so the compiled plan passes its check. -/
theorem reload_run_plainProxy :
    reloadedOnce.current.number = 1 + reloads reloadedOnce ∧
      ∃ plan, Config.compileGateway Config.localSyntax (Config.proxyWith []) "config.toml" [] =
        .ok plan ∧ validateReload reloadedOnce.current plan = .ok () := by
  obtain ⟨hnumber, -, -, hother⟩ := @reload_run LocalAddr _ plainStates 0
    [.enter (plainStates, 1), .load, .conclude] reloadedOnce rfl
  obtain ⟨-, -, hvalidate⟩ := hother [.enter (plainStates, 1), .load, .conclude] reloadedOnce rfl
  exact ⟨hnumber, plainPlan, compileGateway_plain,
    hvalidate plainPlan plainService (.ok ()) (fun _ => .ok ()) (plainStates, 1) _ rfl rfl⟩

end Tokn.Router
