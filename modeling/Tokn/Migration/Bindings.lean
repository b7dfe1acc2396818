import Tokn.Migration.Rollback

/-!
# Restoring the entries of the sidecar

A chain can change the agent's entry of one `agent.yaml` several times. A restore replaces what a
change wrote by what was there before, and accepts that this has been done already. The check
before an unlink asks for exactly what the restores need (`preflightConfig_eq_ok`,
`run_restoreBindings`), and only the last restore of a file counts (`rebindAll_apply`), so that
restoring the entries again gives the same files (`rebindAll_absorb`).
-/

namespace Tokn.Migration

open Procedure

variable {δ : Type} {w u : World δ}

/-! ## One entry -/

section

variable (agent : AgentId)

/-- The entry is what the change wrote, or what it was before. -/
def Restorable (configs : Path → AgentConfigFile δ) (change : AgentConfigChange δ) : Prop :=
  match configs change.path with
  | .missing => change.before = none
  | .invalid => False
  | .config agents => agents agent = change.before ∨ agents agent = some change.after

/-- The file with the agent's entry as it was before the change, if it is there. -/
def rebound (before : Option δ) : AgentConfigFile δ → AgentConfigFile δ
  | .config agents => .config (Function.update agents agent before)
  | file => file

def rebind (configs : Path → AgentConfigFile δ) (change : AgentConfigChange δ) :
    Path → AgentConfigFile δ :=
  Function.update configs change.path (rebound agent change.before (configs change.path))

def rebindAll (changes : List (AgentConfigChange δ)) (configs : Path → AgentConfigFile δ) :
    Path → AgentConfigFile δ := changes.foldl (rebind agent) configs

/-- Every change of the list finds an entry that it can restore. -/
def Bindable (configs : Path → AgentConfigFile δ) (changes : List (AgentConfigChange δ)) : Prop :=
  ∀ newer change older, changes = newer ++ change :: older →
    Restorable agent (rebindAll agent newer configs) change

variable {agent}

variable {changes before : List (AgentConfigChange δ)} {change : AgentConfigChange δ} {v : World δ}

theorem bindable_cons {configs : Path → AgentConfigFile δ} :
    Bindable agent configs (change :: changes) ↔
      Restorable agent configs change ∧ Bindable agent (rebind agent configs change) changes := by
  constructor
  · intro h
    refine ⟨h [] change changes rfl, ?_⟩
    rintro newer change' older rfl
    exact h (change :: newer) change' older rfl
  · rintro ⟨hfirst, hrest⟩ newer change' older hsplit
    cases newer with
    | nil =>
      cases hsplit
      exact hfirst
    | cons change₀ newer =>
      cases hsplit
      exact hrest newer change' older rfl

theorem rebound_self {before : Option δ} {file : AgentConfigFile δ} {agents : AgentIntegrationConfig δ}
    (hfile : file = .config agents) (h : agents agent = before) :
    rebound agent before file = file := by
  rw [hfile, rebound, ← h, Function.update_eq_self]

/-- Only the last change of a sidecar counts. -/
theorem rebindAll_apply (changes : List (AgentConfigChange δ)) (configs : Path → AgentConfigFile δ)
    (p : Path) :
    rebindAll agent changes configs p =
      match changes.reverse.find? fun change => change.path = p with
      | none => configs p
      | some change => rebound agent change.before (configs p) := by
  induction changes using List.reverseRecOn with
  | nil => rfl
  | append_singleton changes change ih =>
    rw [rebindAll, List.foldl_concat, ← rebindAll, rebind, List.reverse_append,
      List.reverse_singleton, List.singleton_append, List.find?_cons, Function.update_apply]
    by_cases hp : p = change.path
    · rw [if_pos hp, decide_eq_true hp.symm, ← hp, ih]
      cases changes.reverse.find? fun change => change.path = p with
      | none => rfl
      | some change' => cases configs p <;> simp [rebound]
    · rw [if_neg hp, decide_eq_false (Ne.symm hp), ih]

theorem rebindAll_absorb_apply {configs : Path → AgentConfigFile δ} {p : Path}
    (h : (∃ change ∈ before, change.path = p) → ∃ change ∈ changes, change.path = p) :
    rebindAll agent changes (rebindAll agent before configs) p =
      rebindAll agent changes configs p := by
  rw [rebindAll_apply changes, rebindAll_apply changes]
  cases hlast : changes.reverse.find? fun change => change.path = p with
  | some change =>
    rw [rebindAll_apply before]
    cases before.reverse.find? fun change => change.path = p with
    | none => rfl
    | some change' => cases configs p <;> simp [rebound]
  | none =>
    rw [rebindAll_apply before]
    cases hbefore : before.reverse.find? fun change => change.path = p with
    | none => rfl
    | some change' =>
      have hmem : change' ∈ before := List.mem_reverse.mp (List.mem_of_find?_eq_some hbefore)
      obtain ⟨change, hchange, hp⟩ := h ⟨change', hmem, by
        simpa using List.find?_some hbefore⟩
      have hnot := List.find?_eq_none.mp hlast change (List.mem_reverse.mpr hchange)
      exact absurd hp (by simpa using hnot)

theorem rebindAll_absorb {configs : Path → AgentConfigFile δ}
    (h : ∀ change ∈ before, change ∈ changes) :
    rebindAll agent changes (rebindAll agent before configs) = rebindAll agent changes configs := by
  funext p
  refine rebindAll_absorb_apply ?_
  rintro ⟨change, hchange, hp⟩
  exact ⟨change, h change hchange, hp⟩

theorem restorable_congr {configs configs' : Path → AgentConfigFile δ}
    (h : configs change.path = configs' change.path) :
    Restorable agent configs change ↔ Restorable agent configs' change := by
  rw [Restorable, Restorable, h]

/-- The changes that are compared with a sidecar on the disk find what they can restore. -/
def BindingsPass (agent : AgentId) (w : World δ) (changes : List (AgentConfigChange δ)) : Prop :=
  ∀ newer change older, changes = newer ++ change :: older →
    (∀ change' ∈ newer, change'.path ≠ change.path) → Restorable agent w.agentConfig change

/-- Where all changes could be restored once, only what is compared with the disk can fail. -/
theorem bindable_iff_bindingsPass (h : Bindable agent w.agentConfig changes)
    (hu : u.agentConfig = rebindAll agent before w.agentConfig) :
    Bindable agent u.agentConfig changes ↔ BindingsPass agent u changes := by
  constructor
  · intro hbindable newer change older hsplit hnewer
    refine (restorable_congr ?_).mp (hbindable newer change older hsplit)
    rw [rebindAll_apply]
    cases hlast : newer.reverse.find? fun change' => change'.path = change.path with
    | none => rfl
    | some change' =>
      have hmem := List.mem_reverse.mp (List.mem_of_find?_eq_some hlast)
      exact absurd (by simpa using List.find?_some hlast) (hnewer change' hmem)
  · intro hpass newer change older hsplit
    by_cases hnewer : ∃ change' ∈ newer, change'.path = change.path
    · refine (restorable_congr ?_).mpr (h newer change older hsplit)
      rw [hu]
      exact rebindAll_absorb_apply fun _ => hnewer
    · have hne : ∀ change' ∈ newer, change'.path ≠ change.path :=
        fun change' hmem heq => hnewer ⟨change', hmem, heq⟩
      refine (restorable_congr ?_).mpr (hpass newer change older hsplit hne)
      have hunchanged : rebindAll agent [] (rebindAll agent newer u.agentConfig) change.path =
          rebindAll agent [] u.agentConfig change.path :=
        rebindAll_absorb_apply fun ⟨change', hmem, heq⟩ => absurd heq (hne change' hmem)
      exact hunchanged

/-- The changes of the sidecars that a chain recorded. -/
def bindingChanges (chain : Chain δ) : List (AgentConfigChange δ) :=
  chain.filterMap fun e => e.2.agentConfigChange

variable [DecidableEq δ]

theorem restoreBinding_eq_ok :
    restoreBinding w agent change = .ok v ↔ Restorable agent w.agentConfig change ∧
      v = w.withAgentConfig (rebind agent w.agentConfig change) := by
  have hsame : ∀ file, w.agentConfig change.path = file → rebound agent change.before file = file →
      w.withAgentConfig (rebind agent w.agentConfig change) = w := by
    intro file hfile hrebound
    have hconfigs : rebind agent w.agentConfig change = w.agentConfig := by
      rw [rebind, hfile, hrebound, ← hfile, Function.update_eq_self]
    rw [hconfigs, World.withAgentConfig_self]
  rw [restoreBinding, World.loadAgentConfig, Restorable]
  cases hfile : w.agentConfig change.path with
  | invalid => simp [bind, Except.bind]
  | missing =>
    simp only [bind, Except.bind]
    by_cases hbefore : change.before = none
    · rw [if_pos hbefore.symm, hsame _ hfile rfl]
      simp [hbefore, eq_comm]
    · rw [if_neg (Ne.symm hbefore)]
      simp [hbefore, Except.rejectIf]
  | config agents =>
    simp only [bind, Except.bind]
    by_cases hbefore : agents agent = change.before
    · rw [if_pos hbefore, hsame _ hfile (rebound_self rfl hbefore)]
      simp [hbefore, eq_comm]
    · rw [if_neg hbefore]
      by_cases hafter : agents agent = some change.after
      · simp [hafter, Except.rejectIf, pure, Except.pure, World.setAgentConfig, rebind, hfile,
          rebound, restoreAgentBinding, eq_comm]
      · simp [hbefore, hafter, Except.rejectIf]

theorem run_restoreBindings :
    run UnlinkOp.act (changes.map (UnlinkOp.restoreBinding agent)) w = .ok v ↔
      Bindable agent w.agentConfig changes ∧
        v = w.withAgentConfig (rebindAll agent changes w.agentConfig) := by
  induction changes generalizing w with
  | nil =>
    rw [List.map_nil, run_nil, Except.ok.injEq]
    exact ⟨fun h => ⟨fun newer change older hsplit => (by simp at hsplit), h.symm⟩,
      fun h => h.2.symm⟩
  | cons change changes ih =>
    rw [List.map_cons, run_cons_eq_ok, bindable_cons]
    simp only [UnlinkOp.act, restoreBinding_eq_ok, ih]
    constructor
    · rintro ⟨t, ⟨hfirst, rfl⟩, hrest, rfl⟩
      exact ⟨⟨hfirst, hrest⟩, rfl⟩
    · rintro ⟨⟨hfirst, hrest⟩, rfl⟩
      exact ⟨_, ⟨hfirst, rfl⟩, hrest, rfl⟩

theorem preflightBinding_eq_ok {e : Path × MigrationManifest δ} {simulated : SimulatedConfigs δ}
    (hagent : e.2.agent = agent) :
    preflightBinding v.loadAgentConfig e = .ok simulated ↔
      (∀ change, e.2.agentConfigChange = some change → Restorable agent v.agentConfig change) ∧
      simulated = (v.withAgentConfig
        (rebindAll agent e.2.agentConfigChange.toList v.agentConfig)).loadAgentConfig := by
  rw [preflightBinding]
  cases hchange : e.2.agentConfigChange with
  | none => simp [rebindAll, eq_comm]
  | some change =>
    have hload : ∀ p,
        (v.withAgentConfig (rebindAll agent [change] v.agentConfig)).loadAgentConfig p =
        if p = change.path then
          World.loadAgentConfig (v.withAgentConfig (Function.update v.agentConfig change.path
            (rebound agent change.before (v.agentConfig change.path)))) change.path
        else v.loadAgentConfig p := by
      intro p
      by_cases hp : p = change.path
      · rw [if_pos hp, hp]
        rfl
      · simp [World.loadAgentConfig, rebindAll, rebind, hp]
    simp only [Option.some.injEq, forall_eq', Option.toList_some, hagent]
    rw [Restorable]
    cases hfile : v.agentConfig change.path with
    | invalid => simp [World.loadAgentConfig, hfile, bind, Except.bind]
    | missing =>
      have hloaded : v.loadAgentConfig change.path = .ok fun _ => none := by
        rw [World.loadAgentConfig, hfile]
      rw [hloaded]
      by_cases hbefore : change.before = none
      · have hsame : Function.update v.loadAgentConfig change.path
            (.ok (restoreAgentBinding (fun _ => none) agent change.before)) =
            (v.withAgentConfig (rebindAll agent [change] v.agentConfig)).loadAgentConfig := by
          funext p
          rw [hload, Function.update_apply]
          by_cases hp : p = change.path
          · simp [hp, World.loadAgentConfig, hfile, rebound, restoreAgentBinding, hbefore]
          · simp [hp]
        simp [hbefore, Except.rejectIf, bind, Except.bind, pure, Except.pure, ← hsame, eq_comm]
      · simp [hbefore, Except.rejectIf, bind, Except.bind, Ne.symm hbefore]
    | config agents =>
      have hloaded : v.loadAgentConfig change.path = .ok agents := by
        rw [World.loadAgentConfig, hfile]
      have hsame : Function.update v.loadAgentConfig change.path
          (.ok (restoreAgentBinding agents agent change.before)) =
          (v.withAgentConfig (rebindAll agent [change] v.agentConfig)).loadAgentConfig := by
        funext p
        rw [hload, Function.update_apply]
        by_cases hp : p = change.path
        · simp [hp, World.loadAgentConfig, hfile, rebound, restoreAgentBinding]
        · simp [hp]
      rw [hloaded]
      by_cases hok : agents agent = change.before ∨ agents agent = some change.after
      · rcases hok with hok | hok <;>
          simp [hok, Except.rejectIf, bind, Except.bind, pure, Except.pure, ← hsame, eq_comm]
      · obtain ⟨hbefore, hafter⟩ := not_or.mp hok
        simp [hbefore, hafter, Except.rejectIf, bind, Except.bind]

/-- The check of the sidecars asks for what their restore needs. -/
theorem preflightConfig_eq_ok {chain : Chain δ} (hagent : ∀ e ∈ chain, e.2.agent = agent) :
    preflightAgentConfigRestoration v chain = .ok () ↔
      Bindable agent v.agentConfig (bindingChanges chain) := by
  have hfold : ∀ (chain : Chain δ) (v : World δ), (∀ e ∈ chain, e.2.agent = agent) →
      ((∃ simulated, chain.foldlM preflightBinding v.loadAgentConfig = .ok simulated) ↔
        Bindable agent v.agentConfig (bindingChanges chain)) := by
    intro chain
    induction chain with
    | nil =>
      intro v _
      exact ⟨fun _ newer change older hsplit => (by simp [bindingChanges] at hsplit),
        fun _ => ⟨_, rfl⟩⟩
    | cons e chain ih =>
      intro v hagent
      obtain ⟨he, hchain⟩ := List.forall_mem_cons.mp hagent
      simp only [List.foldlM_cons, Except.bind_eq_ok, preflightBinding_eq_ok he]
      cases hchange : e.2.agentConfigChange with
      | none =>
        have hchanges : bindingChanges (e :: chain) = bindingChanges chain := by
          simp [bindingChanges, hchange]
        rw [hchanges, ← ih v hchain]
        simp [rebindAll]
      | some change =>
        have hchanges : bindingChanges (e :: chain) = change :: bindingChanges chain := by
          simp [bindingChanges, hchange]
        have hrest := ih (v.withAgentConfig (rebind agent v.agentConfig change)) hchain
        rw [World.agentConfig_withAgentConfig] at hrest
        rw [hchanges, bindable_cons, ← hrest]
        constructor
        · rintro ⟨simulated, _, ⟨hfirst, rfl⟩, hsimulated⟩
          exact ⟨hfirst change rfl, simulated, hsimulated⟩
        · rintro ⟨hfirst, simulated, hsimulated⟩
          refine ⟨simulated, _, ⟨fun change' hchange' => ?_, rfl⟩, hsimulated⟩
          cases hchange'
          exact hfirst
  rw [← hfold chain v hagent, preflightAgentConfigRestoration, Except.bind_eq_ok]
  exact ⟨fun ⟨s, hs, _⟩ => ⟨s, hs⟩, fun ⟨s, hs⟩ => ⟨s, hs, rfl⟩⟩

end

end Tokn.Migration
