import Tokn.Config.Unreachable

/-!
# The rules of a compiled listener

The bindings and the CONNECT rules of a compiled proxy are those of the configuration that name it, in
their order (`forwardProxy_of_compileListeners`), and a compiled list of hosts has a pattern for each
of them.
-/

namespace Tokn.Config

open Tokn.Policy
open Tokn.Except (bind_eq_ok)

section

variable {env : Syntax}

/-! ## Hosts -/

theorem compileHosts_ok {rawHosts : List String} {location : String} {patterns : List HostPattern}
    (h : compileHosts env rawHosts location = .ok patterns) :
    List.Forall₂ (fun raw pattern => compileHost env raw location = .ok pattern) rawHosts
      patterns := by
  obtain ⟨claimed, hfold, hpure⟩ := bind_eq_ok.mp h
  cases hpure
  refine Except.foldlM_induction
    (fun raws (claimed : List (String × HostPattern)) =>
      List.Forall₂ (fun raw pattern => compileHost env raw location = .ok pattern) raws
        (claimed.map Prod.snd)) List.Forall₂.nil ?_ hfold
  intro raws raw claimed claimed' _ hclaimed hstep
  obtain ⟨pattern, hpattern, hclaim⟩ := bind_eq_ok.mp hstep
  rw [claim_ok hclaim, List.map_append]
  exact List.rel_append hclaimed (List.Forall₂.cons hpattern List.Forall₂.nil)

/-- A host without a wildcard stands for itself. -/
theorem compileHost_exact {raw location : String} {pattern : HostPattern}
    (h : compileHost env raw location = .ok pattern) (hstar : '*' ∉ raw.toList) :
    ∃ host, CanonicalHost.fromStr env.toIpSyntax raw.toList = .ok host ∧ pattern = .exact host := by
  rw [compileHost] at h
  split at h
  · rename_i rest hraw
    exact absurd (hraw ▸ List.mem_cons_self) hstar
  · rw [if_neg (by simpa using hstar)] at h
    cases hhost : CanonicalHost.fromStr env.toIpSyntax raw.toList with
    | error error =>
      rw [hhost] at h
      cases h
    | ok host =>
      rw [hhost] at h
      cases h
      exact ⟨host, rfl, rfl⟩

/-- Hosts without wildcards match the hosts that they name. -/
theorem exists_matches_iff {rawHosts : List String} {location : String}
    {patterns : List HostPattern} (h : compileHosts env rawHosts location = .ok patterns)
    (hstar : ∀ raw ∈ rawHosts, '*' ∉ raw.toList) (host : CanonicalHost) :
    (∃ pattern ∈ patterns, pattern.matches host = true) ↔
      ∃ raw ∈ rawHosts, CanonicalHost.fromStr env.toIpSyntax raw.toList = .ok host := by
  have hall := compileHosts_ok h
  clear h
  induction hall with
  | nil => exact iff_of_false (fun ⟨_, h, _⟩ => nomatch h) fun ⟨_, h, _⟩ => nomatch h
  | @cons raw pattern raws patterns hpattern _ ih =>
    rw [List.forall_mem_cons] at hstar
    rw [List.exists_mem_cons_iff, List.exists_mem_cons_iff]
    refine or_congr ?_ (ih hstar.2)
    obtain ⟨host', hhost, rfl⟩ := compileHost_exact hpattern hstar.1
    rw [hhost, HostPattern.matches, Except.ok.injEq, decide_eq_true_eq]
    exact eq_comm

/-! ## Rules -/

/-- The plans of each listener are made from its raw rules, in their order. -/
def PlansOf {Raw Key Plan : Type} (made : Raw → Plan → Prop) (listenerOf : Raw → String)
    (raws : List Raw) (st : RuleState Key Plan) : Prop :=
  ∀ l, List.Forall₂ made (raws.filter fun raw => listenerOf raw = l) ((st.plans.get l).getD [])

omit env in
theorem PlansOf.push {Raw Key Plan : Type} {made : Raw → Plan → Prop} {listenerOf : Raw → String}
    {raws : List Raw} {st : RuleState Key Plan} (h : PlansOf made listenerOf raws st) {raw : Raw}
    {id : String} {key : Key} {plan : Plan} (hplan : made raw plan) :
    PlansOf made listenerOf (raws ++ [raw]) (st.push id (listenerOf raw) key plan) := by
  intro l
  rw [RuleState.plans_push, List.filter_append]
  by_cases hl : listenerOf raw = l
  · have hone : [raw].filter (fun raw => decide (listenerOf raw = l)) = [raw] :=
      List.filter_cons_of_pos (decide_eq_true hl)
    rw [if_pos hl.symm, hone, hl]
    exact List.rel_append (h l) (List.Forall₂.cons hplan List.Forall₂.nil)
  · have hnone : [raw].filter (fun raw => decide (listenerOf raw = l)) = [] :=
      List.filter_cons_of_neg (by simpa using hl)
    rw [if_neg (Ne.symm hl), hnone, List.append_nil]
    exact h l

/-- The plan of a binding. -/
def BindingMade (env : Syntax) (profiles : List String) (raw : RawBinding) (plan : HttpBindingPlan) :
    Prop :=
  compileHttpMatch env raw = .ok plan.matcher ∧
    compileHttpAction raw.action "binding" raw.id "action.profile" profiles = .ok plan.action

/-- The plan of a CONNECT rule. -/
def ConnectRuleMade (env : Syntax) (raw : RawConnectRule) (plan : ConnectRulePlan) : Prop :=
  compileConnectMatch env raw = .ok plan.matcher ∧ plan.action = compileConnectAction raw.action

variable {profiles : List String} {requestBodyMaxBytes : Nat} {source : String}
  {caDir : Option String}

theorem plansOf_bindings {drafts : BTreeMap String (ListenerDraft env.SocketAddr)}
    {ids : List String} {raws : List RawBinding} {st : RuleState HttpMatchKey HttpBindingPlan}
    (h : raws.foldlM (compileBinding env drafts profiles) { ids := ids } = .ok st) :
    PlansOf (BindingMade env profiles) RawBinding.listener raws st := by
  refine Except.foldlM_induction (PlansOf (BindingMade env profiles) RawBinding.listener)
    (fun _ => List.Forall₂.nil) ?_ h
  intro raws raw st st' _ hplans hstep
  obtain ⟨plan, hmatcher, haction, rfl⟩ := compileBinding_ok hstep
  exact hplans.push ⟨hmatcher, haction⟩

theorem plansOf_connectRules {drafts : BTreeMap String (ListenerDraft env.SocketAddr)}
    {ids : List String} {raws : List RawConnectRule} {st : RuleState ConnectMatchKey ConnectRulePlan}
    (h : raws.foldlM (compileConnectRule env drafts) { ids := ids } = .ok st) :
    PlansOf (ConnectRuleMade env) RawConnectRule.listener raws st := by
  refine Except.foldlM_induction (PlansOf (ConnectRuleMade env) RawConnectRule.listener)
    (fun _ => List.Forall₂.nil) ?_ h
  intro raws raw st st' _ hplans hstep
  obtain ⟨plan, hmatcher, haction, rfl⟩ := compileConnectRule_ok hstep
  exact hplans.push ⟨hmatcher, haction⟩

/-! ## Listeners -/

theorem compileDraft_forwardProxy {st st' : DraftState env} {id rawBind : String}
    {rawClientAuth : RawClientAuth} {allowInsecurePublic : Bool} {rawDefault : RawBindingAction}
    {defaultConnect : RawConnectAction}
    (h : compileDraft env source profiles st (id, .forwardProxy rawBind rawClientAuth
      allowInsecurePublic requestBodyMaxBytes rawDefault defaultConnect caDir) = .ok st') :
    ∃ draft defaultHttpAction caDir', st'.drafts = st.drafts.insert id draft ∧
      compileHttpAction rawDefault "listener" id "default_http_action.profile" profiles =
        .ok defaultHttpAction ∧
      draft.kind = .forwardProxy requestBodyMaxBytes defaultHttpAction
        (compileConnectAction defaultConnect) caDir' := by
  obtain ⟨id', hid, h⟩ := bind_eq_ok.mp h
  obtain rfl := parseId_ok hid
  obtain ⟨caDir', -, h⟩ := bind_eq_ok.mp h
  obtain ⟨bind, -, h⟩ := bind_eq_ok.mp h
  obtain ⟨-, -, h⟩ := bind_eq_ok.mp h
  obtain ⟨-, -, h⟩ := bind_eq_ok.mp h
  obtain ⟨binds, -, h⟩ := bind_eq_ok.mp h
  obtain ⟨action, haction, h⟩ := bind_eq_ok.mp h
  cases h
  exact ⟨_, action, caDir', rfl, haction, rfl⟩

theorem finishListener_key {bindings : BTreeMap String (List HttpBindingPlan)}
    {rules : BTreeMap String (List ConnectRulePlan)}
    {draft : String × ListenerDraft env.SocketAddr}
    {plan : String × ListenerPlan env.SocketAddr}
    (h : finishListener env bindings rules draft = .ok plan) : plan.1 = draft.1 := by
  unfold finishListener at h
  dsimp only at h
  split at h
  · cases h
    rfl
  · obtain ⟨-, -, h⟩ := bind_eq_ok.mp h
    cases h
    rfl

theorem finishListener_forwardProxy {bindings : BTreeMap String (List HttpBindingPlan)}
    {rules : BTreeMap String (List ConnectRulePlan)} {id : String}
    {draft : ListenerDraft env.SocketAddr} {plan : String × ListenerPlan env.SocketAddr}
    {defaultHttpAction : HttpAction} {defaultConnectAction : ConnectAction}
    (hkind : draft.kind = .forwardProxy requestBodyMaxBytes defaultHttpAction defaultConnectAction
      caDir) (h : finishListener env bindings rules (id, draft) = .ok plan) :
    ∃ listener : ForwardProxyListenerPlan env.SocketAddr, plan.2 = .forwardProxy listener ∧
      listener.httpBindings = (bindings.get id).getD [] ∧
      listener.defaultHttpAction = defaultHttpAction ∧
      listener.connectRules = (rules.get id).getD [] ∧
      listener.defaultConnectAction = defaultConnectAction := by
  unfold finishListener at h
  dsimp only at h
  rw [hkind] at h
  obtain ⟨-, -, h⟩ := bind_eq_ok.mp h
  cases h
  exact ⟨_, rfl, rfl, rfl, rfl, rfl⟩

/-- **The plan of a forward proxy**, the last listener of a configuration: its rules are made from the
raw ones that name it, in their order. -/
theorem forwardProxy_of_compileListeners {raw : RawConfig}
    {plans : BTreeMap String (ListenerPlan env.SocketAddr)}
    (h : compileListeners env raw source profiles = .ok plans)
    {before : List (String × RawListener)} {id rawBind : String} {rawClientAuth : RawClientAuth}
    {allowInsecurePublic : Bool} {rawDefault : RawBindingAction} {defaultConnect : RawConnectAction}
    (hlast : raw.listeners = before ++ [(id, .forwardProxy rawBind rawClientAuth allowInsecurePublic
      requestBodyMaxBytes rawDefault defaultConnect caDir)]) :
    ∃ listener : ForwardProxyListenerPlan env.SocketAddr,
      plans.get id = some (.forwardProxy listener) ∧
      compileHttpAction rawDefault "listener" id "default_http_action.profile" profiles =
        .ok listener.defaultHttpAction ∧
      listener.defaultConnectAction = compileConnectAction defaultConnect ∧
      List.Forall₂ (BindingMade env profiles) (raw.bindings.filter fun b => b.listener = id)
        listener.httpBindings ∧
      List.Forall₂ (ConnectRuleMade env) (raw.connectRules.filter fun r => r.listener = id)
        listener.connectRules := by
  obtain ⟨_, _, h⟩ := bind_eq_ok.mp h
  obtain ⟨drafts, hdrafts, h⟩ := bind_eq_ok.mp h
  obtain ⟨bindings, hbindings, h⟩ := bind_eq_ok.mp h
  obtain ⟨rules, hrules, h⟩ := bind_eq_ok.mp h
  rw [hlast] at hdrafts
  obtain ⟨st, -, hdraft⟩ := Except.foldlM_concat.mp hdrafts
  obtain ⟨draft, action, caDir', hinsert, haction, hkind⟩ := compileDraft_forwardProxy hdraft
  have hget : drafts.drafts.get id = some draft := by rw [hinsert, BTreeMap.get_insert_self]
  obtain ⟨plan, hplan, hfinish⟩ := Except.get_mapM (fun _ _ => finishListener_key) h hget
  obtain ⟨listener, rfl, hb, hd, hr, hc⟩ := finishListener_forwardProxy hkind hfinish
  refine ⟨listener, hplan, hd ▸ haction, hc, ?_, ?_⟩
  · rw [hb]
    exact plansOf_bindings hbindings id
  · rw [hr]
    exact plansOf_connectRules hrules id

/-! ## The plan -/

theorem compileDraft_insert {st st' : DraftState env} {raw : String × RawListener}
    (h : compileDraft env source profiles st raw = .ok st') :
    ∃ draft, st'.drafts = st.drafts.insert raw.1 draft := by
  obtain ⟨rawId, listener⟩ := raw
  obtain ⟨id, hid, h⟩ := bind_eq_ok.mp h
  obtain rfl := parseId_ok hid
  cases listener with
  | llmApi =>
    obtain ⟨_, -, h⟩ := bind_eq_ok.mp h
    obtain ⟨_, -, h⟩ := bind_eq_ok.mp h
    obtain ⟨_, -, h⟩ := bind_eq_ok.mp h
    obtain ⟨_, -, h⟩ := bind_eq_ok.mp h
    cases h
    exact ⟨_, rfl⟩
  | forwardProxy =>
    obtain ⟨draft, _, _, hinsert, -⟩ := compileDraft_forwardProxy
      (bind_eq_ok.mpr ⟨id, hid, h⟩)
    exact ⟨draft, hinsert⟩

/-- Listeners are compiled into a map. -/
theorem sorted_of_compileListeners {raw : RawConfig}
    {plans : BTreeMap String (ListenerPlan env.SocketAddr)}
    (h : compileListeners env raw source profiles = .ok plans) : BTreeMap.Sorted plans := by
  obtain ⟨_, -, h⟩ := bind_eq_ok.mp h
  obtain ⟨drafts, hdrafts, h⟩ := bind_eq_ok.mp h
  obtain ⟨_, -, h⟩ := bind_eq_ok.mp h
  obtain ⟨_, -, h⟩ := bind_eq_ok.mp h
  have hsorted : BTreeMap.Sorted drafts.drafts := by
    refine Except.foldlM_invariant (fun st : DraftState env => BTreeMap.Sorted st.drafts)
      BTreeMap.sorted_nil ?_ hdrafts
    intro st raw st' hst hstep
    obtain ⟨draft, hinsert⟩ := compileDraft_insert hstep
    rw [hinsert]
    exact hst.insert raw.1 draft
  rw [BTreeMap.Sorted, Except.map_fst_mapM (fun _ _ => finishListener_key) h]
  exact hsorted

/-- `compile_gateway`, once the resources are compiled: `profiles` are theirs. -/
def compileGateway (env : Syntax) (raw : RawConfig) (source : String) (profiles : List String) :
    Except CompileError (GatewayPlan env.SocketAddr) :=
  match h : compileListeners env raw source profiles with
  | .ok listeners => .ok { listeners := listeners, sorted := sorted_of_compileListeners h }
  | .error e => .error e

end

end Tokn.Config
