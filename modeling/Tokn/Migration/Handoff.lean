import Mathlib.Data.List.ReduceOption
import Tokn.Migration.Unlink

/-!
# Giving the credentials back

Exporting accounts to an `auth.json` only adds what is missing, so that it can be repeated
(`restore_noop`). The sources that go back to a file are those of the pending manifests
(`targets_spec`).
-/

namespace Tokn.Migration

open Procedure
open Tokn.Except (bind_eq_ok)

variable {δ : Type} {agent : AgentId}

/-! ## One auth file -/

theorem contains_insert (fields : BTreeMap String Value) (k k' : String) (v : Value) :
    (BTreeMap.insert fields k v).contains k' =
      (decide (k' = k) || fields.contains k') := by
  rw [BTreeMap.contains, BTreeMap.get_insert, BTreeMap.contains]
  by_cases hk : k' = k <;> simp [hk]

/-- The fields have a credential for the source of each account. -/
def Covers (fields : BTreeMap String Value) (accounts : List Account) : Prop :=
  ∀ account ∈ accounts, ∃ source, sourceProviderId account = some source ∧
    fields.contains source = true

variable {fields : BTreeMap String Value} {accounts : List Account} {path p : Path}
  {auth : AgentAuthFile} {w v : World δ} {targets targets' : TargetSources} {source : String}

theorem restoreCredential_spec {fields' : BTreeMap String Value} {account : Account}
    (h : restoreCredential fields account = .ok fields') :
    Covers fields' [account] ∧
      ∀ k, fields.contains k = true → fields'.contains k = true := by
  rw [restoreCredential] at h
  cases hsource : sourceProviderId account with
  | none =>
    rw [hsource] at h
    cases h
  | some source =>
    simp only [hsource] at h
    by_cases hin : fields.contains source = true
    · rw [if_pos hin] at h
      cases h
      exact ⟨fun a ha => ⟨source, (List.mem_singleton.mp ha) ▸ hsource, hin⟩, fun _ hk => hk⟩
    · rw [if_neg hin] at h
      obtain ⟨record, -, h⟩ := bind_eq_ok.mp h
      cases h
      refine ⟨fun a ha => ⟨source, (List.mem_singleton.mp ha) ▸ hsource, ?_⟩, fun k hk => ?_⟩
      · simp [contains_insert]
      · simp [contains_insert, hk]

theorem restoreCredentials_spec {fields' : BTreeMap String Value}
    (h : accounts.foldlM restoreCredential fields = .ok fields') :
    Covers fields' accounts ∧
      ∀ k, fields.contains k = true → fields'.contains k = true := by
  induction accounts generalizing fields with
  | nil =>
    cases h
    exact ⟨fun a ha => (by cases ha), fun _ hk => hk⟩
  | cons account accounts ih =>
    rw [List.foldlM_cons] at h
    obtain ⟨fields₁, h₁, h⟩ := bind_eq_ok.mp h
    obtain ⟨hcovers₁, hkeep₁⟩ := restoreCredential_spec h₁
    obtain ⟨hcovers, hkeep⟩ := ih h
    refine ⟨List.forall_mem_cons.mpr ⟨?_, hcovers⟩, fun k hk => hkeep k (hkeep₁ k hk)⟩
    obtain ⟨source, hsource, hin⟩ := hcovers₁ account (List.mem_singleton_self account)
    exact ⟨source, hsource, hkeep source hin⟩

theorem restoreCredentials_noop (h : Covers fields accounts) :
    accounts.foldlM restoreCredential fields = .ok fields := by
  induction accounts with
  | nil => rfl
  | cons account accounts ih =>
    obtain ⟨⟨source, hsource, hin⟩, hrest⟩ := List.forall_mem_cons.mp h
    have hfirst : restoreCredential fields account = .ok fields := by
      simp [restoreCredential, hsource, hin]
    rw [List.foldlM_cons, hfirst]
    exact ih hrest

/-- There is nothing left to do for the accounts. -/
def Restored (agent : AgentId) (auth : AgentAuthFile) (accounts : List Account) : Prop :=
  transfersCredentials agent = true → accounts ≠ [] →
    ∃ fields, auth = .json (.object fields) ∧ Covers fields accounts

theorem authFields_object (h : auth = .json (.object fields)) :
    authFields path auth = .ok fields := by
  rw [h, authFields]

theorem restoreTransferred_spec {auth' : AgentAuthFile}
    (h : restoreTransferredCredentials agent path auth accounts = .ok auth') :
    Restored agent auth' accounts ∧
      ∀ accounts', Restored agent auth accounts' → Restored agent auth' accounts' := by
  rw [restoreTransferredCredentials] at h
  by_cases hskip : (!transfersCredentials agent || accounts.isEmpty) = true
  · rw [if_pos hskip] at h
    cases h
    refine ⟨fun htransfers hne => ?_, fun _ hrestored => hrestored⟩
    rw [htransfers] at hskip
    exact absurd (by simpa using hskip) hne
  · rw [if_neg hskip] at h
    obtain ⟨fields, hfields, h⟩ := bind_eq_ok.mp h
    obtain ⟨fields', hfields', h⟩ := bind_eq_ok.mp h
    cases h
    obtain ⟨hcovers, hkeep⟩ := restoreCredentials_spec hfields'
    refine ⟨fun _ _ => ⟨fields', rfl, hcovers⟩, fun accounts' hrestored htransfers hne => ?_⟩
    obtain ⟨fields₀, hauth, hcovers₀⟩ := hrestored htransfers hne
    rw [authFields_object hauth] at hfields
    cases hfields
    refine ⟨fields', rfl, fun account haccount => ?_⟩
    obtain ⟨source, hsource, hin⟩ := hcovers₀ account haccount
    exact ⟨source, hsource, hkeep source hin⟩

/-- **Exporting what is there already changes nothing.** -/
theorem restore_noop {accounts' : List Account} (h : Restored agent auth accounts)
    (hsub : ∀ account ∈ accounts', account ∈ accounts) :
    restoreTransferredCredentials agent path auth accounts' = .ok auth := by
  rw [restoreTransferredCredentials]
  by_cases hskip : (!transfersCredentials agent || accounts'.isEmpty) = true
  · rw [if_pos hskip]
  · rw [if_neg hskip]
    obtain ⟨htransfers, hne⟩ : transfersCredentials agent = true ∧ accounts' ≠ [] := by
      simpa using hskip
    obtain ⟨account, haccount⟩ := List.exists_mem_of_ne_nil accounts' hne
    have hne' : accounts ≠ [] := List.ne_nil_of_mem (hsub account haccount)
    obtain ⟨fields, hauth, hcovers⟩ := h htransfers hne'
    rw [authFields_object hauth]
    have hnoop : accounts'.foldlM restoreCredential fields = .ok fields :=
      restoreCredentials_noop fun a ha => hcovers a (hsub a ha)
    simp [hnoop, hauth, bind, Except.bind, pure, Except.pure]

/-! ## All auth files -/

/-- The exports to the auth files, with the accounts for each of them. -/
def exportOps (agent : AgentId) (targets : List (Path × Except MigrationError (List Account))) :
    List (UnlinkOp δ) :=
  targets.map fun target => UnlinkOp.restoreCredentials agent target.1 target.2

variable [DecidableEq δ]

theorem restoreCredentials_eq_ok {accounts : Except MigrationError (List Account)} :
    UnlinkOp.act (.restoreCredentials agent path accounts) w = .ok v ↔
      ∃ found auth, accounts = .ok found ∧
        restoreTransferredCredentials agent path (w.agentAuth path) found = .ok auth ∧
        v = w.setAgentAuth path auth := by
  simp only [UnlinkOp.act, bind_eq_ok]
  constructor
  · rintro ⟨found, hfound, auth, hauth, h⟩
    cases h
    exact ⟨found, auth, hfound, hauth, rfl⟩
  · rintro ⟨found, auth, hfound, hauth, rfl⟩
    exact ⟨found, hfound, auth, hauth, rfl⟩

theorem exportOp_spec {accounts : Except MigrationError (List Account)}
    (h : UnlinkOp.act (.restoreCredentials agent path accounts) w = .ok v) :
    v = w.withAgentAuth v.agentAuth ∧
      (∃ found, accounts = .ok found ∧ Restored agent (v.agentAuth path) found) ∧
      ∀ p found, Restored agent (w.agentAuth p) found → Restored agent (v.agentAuth p) found := by
  obtain ⟨found, auth, hfound, hauth, rfl⟩ := restoreCredentials_eq_ok.mp h
  obtain ⟨hrestored, hkeep⟩ := restoreTransferred_spec hauth
  refine ⟨rfl, ⟨found, hfound, ?_⟩, fun p found' hold => ?_⟩
  · simpa [World.setAgentAuth] using hrestored
  · by_cases hp : p = path
    · rw [hp] at hold ⊢
      simpa [World.setAgentAuth] using hkeep found' hold
    · simpa [World.setAgentAuth, hp] using hold

theorem run_exportOps {targets : List (Path × Except MigrationError (List Account))}
    (h : run UnlinkOp.act (exportOps agent targets) w = .ok v) :
    v = w.withAgentAuth v.agentAuth ∧
      (∀ target ∈ targets, ∃ found, target.2 = .ok found ∧
        Restored agent (v.agentAuth target.1) found) ∧
      ∀ p found, Restored agent (w.agentAuth p) found → Restored agent (v.agentAuth p) found := by
  induction targets generalizing w with
  | nil =>
    cases h
    exact ⟨rfl, fun t ht => (by cases ht), fun _ _ hold => hold⟩
  | cons target targets ih =>
    obtain ⟨t, hfirst, hrest⟩ := run_cons_eq_ok.mp h
    obtain ⟨hworld₁, ⟨found, hfound, hrestored⟩, hkeep₁⟩ := exportOp_spec hfirst
    obtain ⟨hworld, htargets, hkeep⟩ := ih hrest
    refine ⟨?_, List.forall_mem_cons.mpr ⟨⟨found, hfound, hkeep _ _ hrestored⟩, htargets⟩,
      fun p found' hold => hkeep p found' (hkeep₁ p found' hold)⟩
    rw [hworld, hworld₁]
    rfl

theorem run_exportOps_noop {targets : List (Path × Except MigrationError (List Account))}
    (h : ∀ target ∈ targets, ∃ found accounts, target.2 = .ok found ∧
      Restored agent (v.agentAuth target.1) accounts ∧ ∀ account ∈ found, account ∈ accounts) :
    run UnlinkOp.act (exportOps agent targets) v = .ok v := by
  induction targets with
  | nil => rfl
  | cons target targets ih =>
    obtain ⟨⟨found, accounts, hfound, hrestored, hsub⟩, hrest⟩ := List.forall_mem_cons.mp h
    refine run_cons_eq_ok.mpr ⟨v, restoreCredentials_eq_ok.mpr ⟨found, _, hfound,
      restore_noop hrestored hsub, ?_⟩, ih hrest⟩
    rw [World.setAgentAuth, Function.update_eq_self, World.withAgentAuth_self]

/-! ## The sources of the pending manifests -/

/-- A pending manifest wants the credential of the source back in the auth file. -/
def Targeted (accountsById : BTreeMap String Account) (entries : Chain δ) (p : Path)
    (source : String) : Prop :=
  ∃ e ∈ entries, e.2.agentAuthPath = some p ∧
    ((∃ route ∈ e.2.providerRoutes, route.transferSourceAuth = true ∧
        route.sourceProviderId = source) ∨
      e.2.providerRoutes = [] ∧ ∃ id ∈ e.2.importedAccountIds,
        ∃ account, accountsById.get id = some account ∧
          transferSourceProvider account = source)

/-- The sources of an auth file among the targets. -/
def InTargets (targets : TargetSources) (p : Path) (source : String) : Prop :=
  ∃ sources, (p, sources) ∈ targets ∧ (source, ()) ∈ sources

def HasTarget (targets : TargetSources) (p : Path) (source : String) : Prop :=
  ∃ sources, targets.get p = some sources ∧ sources.get source = some ()

omit [DecidableEq δ] in
theorem mem_modify {κ ν : Type} [DecidableEq κ] [LT κ] [DecidableLT κ] [Inhabited ν]
    {m : BTreeMap κ ν} {k : κ} {f : ν → ν} {e : κ × ν} (h : e ∈ m.modify k f) :
    e = (k, f ((m.get k).getD default)) ∨ e ∈ m := BTreeMap.mem_insert h

omit [DecidableEq δ] in
theorem inTargets_modify {f : BTreeMap String Unit → BTreeMap String Unit}
    (h : InTargets (targets.modify path f) p source) :
    InTargets targets p source ∨ p = path ∧ ∃ sources,
      (∀ s, (s, ()) ∈ sources → InTargets targets path s) ∧ (source, ()) ∈ f sources := by
  obtain ⟨sources, hin, hsource⟩ := h
  rcases mem_modify hin with he | hold
  · cases he
    refine Or.inr ⟨rfl, _, fun s hs => ?_, hsource⟩
    cases hget : targets.get path with
    | none =>
      rw [hget] at hs
      cases hs
    | some sources' =>
      rw [hget] at hs
      exact ⟨sources', BTreeMap.mem_of_get hget, hs⟩
  · exact Or.inl ⟨sources, hold, hsource⟩

omit [DecidableEq δ] in
theorem inTargets_addTargetSource {s : String}
    (h : InTargets (addTargetSource path targets s) p source) :
    InTargets targets p source ∨ p = path ∧ source = s := by
  rcases inTargets_modify h with hold | ⟨rfl, sources, hsources, hin⟩
  · exact Or.inl hold
  · rcases BTreeMap.mem_insert hin with hnew | hold
    · cases hnew
      exact Or.inr ⟨rfl, rfl⟩
    · exact Or.inl (hsources source hold)

omit [DecidableEq δ] in
theorem hasTarget_modify {f : BTreeMap String Unit → BTreeMap String Unit}
    (hf : ∀ sources, sources.get source = some () →
      (f sources).get source = some ()) (h : HasTarget targets p source) :
    HasTarget (targets.modify path f) p source := by
  obtain ⟨sources, hget, hsource⟩ := h
  by_cases hp : p = path
  · subst hp
    exact ⟨f sources, by rw [BTreeMap.get_modify, if_pos rfl, hget]; rfl, hf sources hsource⟩
  · exact ⟨sources, by rw [BTreeMap.get_modify, if_neg hp, hget], hsource⟩

omit [DecidableEq δ] in
theorem hasTarget_addTargetSource {s : String}
    (h : HasTarget targets p source ∨ p = path ∧ source = s) :
    HasTarget (addTargetSource path targets s) p source := by
  rcases h with hold | ⟨rfl, rfl⟩
  · refine hasTarget_modify (fun sources hsource => ?_) hold
    rw [BTreeMap.get_insert]
    by_cases hs : source = s
    · rw [if_pos hs]
    · rw [if_neg hs, hsource]
  · exact ⟨_, by rw [addTargetSource, BTreeMap.get_modify, if_pos rfl], BTreeMap.get_insert_self ..⟩

omit [DecidableEq δ] in
theorem addSources_spec (path : Path) (sources : List String) (targets : TargetSources) :
    (∀ p s, InTargets (sources.foldl (addTargetSource path) targets) p s →
      InTargets targets p s ∨ p = path ∧ s ∈ sources) ∧
    ∀ p s, (HasTarget targets p s ∨ p = path ∧ s ∈ sources) →
      HasTarget (sources.foldl (addTargetSource path) targets) p s := by
  induction sources generalizing targets with
  | nil =>
    refine ⟨fun p s h => Or.inl h, fun p s h => h.resolve_right ?_⟩
    rintro ⟨-, hs⟩
    cases hs
  | cons source sources ih =>
    obtain ⟨hin, hhas⟩ := ih (addTargetSource path targets source)
    refine ⟨fun p s h => ?_, fun p s h => hhas p s ?_⟩
    · rcases hin p s h with hnew | ⟨hp, hs⟩
      · refine (inTargets_addTargetSource hnew).imp_right fun ⟨hp, hs⟩ => ⟨hp, ?_⟩
        exact hs ▸ List.mem_cons_self
      · exact Or.inr ⟨hp, List.mem_cons_of_mem _ hs⟩
    · rcases h with hold | ⟨hp, hs⟩
      · exact Or.inl (hasTarget_addTargetSource (Or.inl hold))
      · rcases List.mem_cons.mp hs with rfl | hs
        · exact Or.inl (hasTarget_addTargetSource (Or.inr ⟨hp, rfl⟩))
        · exact Or.inr ⟨hp, hs⟩

/-- The legacy accounts of a manifest are there, if it needs them. -/
def Targetable (accountsById : BTreeMap String Account) (m : MigrationManifest δ) : Prop :=
  m.agentAuthPath.isSome = true → m.providerRoutes = [] → m.completed = true →
    ∀ id ∈ m.importedAccountIds, (accountsById.get id).isSome = true

def legacySources (accountsById : BTreeMap String Account) (m : MigrationManifest δ) :
    List String :=
  (m.importedAccountIds.filterMap (BTreeMap.get accountsById)).map transferSourceProvider

section

variable {accountsById : BTreeMap String Account} {e : Path × MigrationManifest δ}

omit [DecidableEq δ] in
theorem addLegacyAccounts_eq_ok {m : MigrationManifest δ} {ids : List String} :
    ids.foldlM (addLegacyAccount accountsById m path) targets = .ok targets' ↔
      (m.completed = true → ∀ id ∈ ids, (accountsById.get id).isSome = true) ∧
      targets' = ((ids.filterMap (BTreeMap.get accountsById)).map transferSourceProvider).foldl
        (addTargetSource path) targets := by
  induction ids generalizing targets with
  | nil =>
    constructor
    · intro h
      cases h
      exact ⟨fun _ id hid => (by cases hid), rfl⟩
    · rintro ⟨-, rfl⟩
      rfl
  | cons id ids ih =>
    rw [List.foldlM_cons, addLegacyAccount]
    cases hget : accountsById.get id with
    | some account => simp [bind, Except.bind, ih, hget]
    | none =>
      cases hcompleted : m.completed with
      | true => simp [bind, Except.bind, Except.rejectIf, hget]
      | false => simp [bind, Except.bind, pure, Except.pure, Except.rejectIf, ih, hget, hcompleted]

def routeSources (m : MigrationManifest δ) : List String :=
  (m.providerRoutes.filter ProviderRoute.transferSourceAuth).map ProviderRoute.sourceProviderId

/-- The targets with those of one more manifest. -/
def addedTargets (accountsById : BTreeMap String Account) (targets : TargetSources)
    (m : MigrationManifest δ) : TargetSources :=
  match m.agentAuthPath with
  | none => targets
  | some path =>
    if m.providerRoutes = [] then
      (legacySources accountsById m).foldl (addTargetSource path) (targets.modify path id)
    else (routeSources m).foldl (addTargetSource path) targets

omit [DecidableEq δ] in
theorem addTargetSources_eq_ok :
    addTargetSources accountsById targets e = .ok targets' ↔
      Targetable accountsById e.2 ∧ targets' = addedTargets accountsById targets e.2 := by
  rw [addTargetSources, addedTargets, Targetable]
  cases hpath : e.2.agentAuthPath with
  | none =>
    exact ⟨fun h => ⟨fun hsome => (by cases hsome), (Except.ok.inj h).symm⟩,
      fun h => congrArg Except.ok h.2.symm⟩
  | some path =>
    by_cases hroutes : e.2.providerRoutes = []
    · simp [hroutes, addLegacyAccounts_eq_ok, legacySources]
    · have hempty : e.2.providerRoutes.isEmpty = false := by simpa using hroutes
      simp only [hempty, Bool.false_eq_true, if_false, if_neg hroutes, Except.ok.injEq]
      exact ⟨fun h => ⟨fun _ hnil => absurd hnil hroutes, h.symm⟩, fun h => h.2.symm⟩

omit [DecidableEq δ] in
theorem targeted_singleton {s : String} :
    Targeted accountsById [e] p s ↔ e.2.agentAuthPath = some p ∧
      (s ∈ routeSources e.2 ∨ e.2.providerRoutes = [] ∧ s ∈ legacySources accountsById e.2) := by
  simp only [Targeted, List.mem_singleton, exists_eq_left, routeSources, legacySources,
    List.mem_map, List.mem_filter, List.mem_filterMap, and_assoc]
  refine and_congr_right fun _ => or_congr Iff.rfl (and_congr_right fun _ => ?_)
  constructor
  · rintro ⟨id, hid, account, hget, hs⟩
    exact ⟨account, ⟨id, hid, hget⟩, hs⟩
  · rintro ⟨account, ⟨id, hid, hget⟩, hs⟩
    exact ⟨id, hid, account, hget, hs⟩

omit [DecidableEq δ] in
/-- What one manifest adds. -/
theorem addedTargets_spec (accountsById : BTreeMap String Account) (targets : TargetSources)
    (e : Path × MigrationManifest δ) :
    (∀ p s, InTargets (addedTargets accountsById targets e.2) p s →
      InTargets targets p s ∨ Targeted accountsById [e] p s) ∧
    ∀ p s, HasTarget targets p s ∨ Targeted accountsById [e] p s →
      HasTarget (addedTargets accountsById targets e.2) p s := by
  simp only [targeted_singleton]
  rw [addedTargets]
  cases hpath : e.2.agentAuthPath with
  | none => simp
  | some path =>
    by_cases hroutes : e.2.providerRoutes = []
    · have hnone : routeSources e.2 = [] := by rw [routeSources, hroutes]; rfl
      obtain ⟨hin, hhas⟩ := addSources_spec path (legacySources accountsById e.2)
        (targets.modify path id)
      simp only [if_pos hroutes, Option.some.injEq]
      refine ⟨fun p s h => ?_, fun p s h => hhas p s ?_⟩
      · rcases hin p s h with hold | ⟨rfl, hs⟩
        · rcases inTargets_modify hold with hold | ⟨rfl, sources, hsources, hmem⟩
          · exact Or.inl hold
          · exact Or.inl (hsources s hmem)
        · exact Or.inr ⟨rfl, Or.inr ⟨hroutes, hs⟩⟩
      · rcases h with hold | ⟨rfl, hs | ⟨-, hs⟩⟩
        · exact Or.inl (hasTarget_modify (fun _ hs => hs) hold)
        · rw [hnone] at hs
          cases hs
        · exact Or.inr ⟨rfl, hs⟩
    · obtain ⟨hin, hhas⟩ := addSources_spec path (routeSources e.2) targets
      simp only [if_neg hroutes, Option.some.injEq]
      refine ⟨fun p s h => ?_, fun p s h => hhas p s ?_⟩
      · exact (hin p s h).imp_right fun ⟨hp, hs⟩ => ⟨hp.symm, Or.inl hs⟩
      · rcases h with hold | ⟨rfl, hs | ⟨hnil, -⟩⟩
        · exact Or.inl hold
        · exact Or.inr ⟨rfl, hs⟩
        · exact absurd hnil hroutes

omit [DecidableEq δ] in
theorem targeted_cons {entries : Chain δ} {s : String} :
    Targeted accountsById (e :: entries) p s ↔
      Targeted accountsById [e] p s ∨ Targeted accountsById entries p s := by
  simp [Targeted]

omit [DecidableEq δ] in
/-- **The targets of the pending manifests** are their sources. -/
theorem targets_spec {entries : Chain δ}
    (h : entries.foldlM (addTargetSources accountsById) targets = .ok targets') :
    (∀ e ∈ entries, Targetable accountsById e.2) ∧
      (∀ p s, InTargets targets' p s → InTargets targets p s ∨ Targeted accountsById entries p s) ∧
      ∀ p s, HasTarget targets p s ∨ Targeted accountsById entries p s → HasTarget targets' p s := by
  induction entries generalizing targets with
  | nil =>
    cases h
    exact ⟨fun e he => (by cases he), fun p s h => Or.inl h,
      fun p s h => h.resolve_right (by simp [Targeted])⟩
  | cons e entries ih =>
    obtain ⟨hin, hhas⟩ := addedTargets_spec accountsById targets e
    rw [List.foldlM_cons] at h
    obtain ⟨targets₁, hfirst, hrest⟩ := bind_eq_ok.mp h
    obtain ⟨htargetable, rfl⟩ := addTargetSources_eq_ok.mp hfirst
    obtain ⟨htargetables, hin', hhas'⟩ := ih hrest
    refine ⟨List.forall_mem_cons.mpr ⟨htargetable, htargetables⟩, fun p s h => ?_,
      fun p s h => hhas' p s ?_⟩
    · rw [targeted_cons]
      rcases hin' p s h with h | h
      · exact (hin p s h).imp_right Or.inl
      · exact Or.inr (Or.inr h)
    · rw [targeted_cons] at h
      rcases h with h | h | h
      · exact Or.inl (hhas p s (Or.inl h))
      · exact Or.inl (hhas p s (Or.inr h))
      · exact Or.inr h

omit [DecidableEq δ] in
theorem exists_targets {entries : Chain δ} (h : ∀ e ∈ entries, Targetable accountsById e.2)
    (targets : TargetSources) :
    ∃ targets', entries.foldlM (addTargetSources accountsById) targets = .ok targets' := by
  induction entries generalizing targets with
  | nil => exact ⟨targets, rfl⟩
  | cons e entries ih =>
    obtain ⟨htargetable, htargetables⟩ := List.forall_mem_cons.mp h
    obtain ⟨targets', hrest⟩ := ih htargetables (addedTargets accountsById targets e.2)
    refine ⟨targets', ?_⟩
    rw [List.foldlM_cons]
    exact bind_eq_ok.mpr ⟨_, addTargetSources_eq_ok.mpr ⟨htargetable, rfl⟩, hrest⟩

/-! ## The accounts for the sources -/

omit [DecidableEq δ] in
theorem targetAccounts_eq_ok {accountsBySource : BTreeMap String Account} {required : Bool}
    {sources : BTreeMap String Unit}
    (h : targetAccounts accountsBySource required sources = .ok accounts) :
    (∀ source, (source, ()) ∈ sources →
      (accountsBySource.get source).isSome = true ∨ required = false) ∧
    ∀ account, account ∈ accounts ↔
      ∃ source, (source, ()) ∈ sources ∧ accountsBySource.get source = some account := by
  rw [targetAccounts] at h
  obtain ⟨found, hfound, hresult⟩ := bind_eq_ok.mp h
  cases hresult
  have hforall := Except.mapM_eq_ok.mp hfound
  clear h hfound
  induction hforall with
  | nil => simp [List.reduceOption]
  | @cons source account sources found hfirst hrest ih =>
    obtain ⟨source, ⟨⟩⟩ := source
    dsimp only at hfirst
    cases hget : accountsBySource.get source with
    | some account' =>
      rw [hget] at hfirst
      cases hfirst
      simp only [List.mem_cons, Prod.mk.injEq, and_true, List.reduceOption_cons_of_some, ih.2]
      refine ⟨fun s hs => ?_, fun account => ?_⟩
      · rcases hs with rfl | hs
        · exact Or.inl (by rw [hget]; rfl)
        · exact ih.1 s hs
      · constructor
        · rintro (rfl | ⟨s, hs, hs'⟩)
          · exact ⟨source, Or.inl rfl, hget⟩
          · exact ⟨s, Or.inr hs, hs'⟩
        · rintro ⟨s, rfl | hs, hs'⟩
          · rw [hget] at hs'
            exact Or.inl (Option.some.inj hs').symm
          · exact Or.inr ⟨s, hs, hs'⟩
    | none =>
      rw [hget] at hfirst
      obtain ⟨_, hrequired, hfirst⟩ := bind_eq_ok.mp hfirst
      cases hfirst
      simp only [List.mem_cons, Prod.mk.injEq, and_true, List.reduceOption_cons_of_none, ih.2]
      refine ⟨fun s hs => ?_, fun account => ?_⟩
      · rcases hs with rfl | hs
        · exact Or.inr (Except.rejectIf_eq_ok.mp hrequired)
        · exact ih.1 s hs
      · constructor
        · rintro ⟨s, hs, hs'⟩
          exact ⟨s, Or.inr hs, hs'⟩
        · rintro ⟨s, rfl | hs, hs'⟩
          · rw [hget] at hs'
            cases hs'
          · exact ⟨s, hs, hs'⟩

omit [DecidableEq δ] in
theorem exists_targetAccounts {accountsBySource : BTreeMap String Account} {required : Bool}
    {sources : BTreeMap String Unit}
    (h : ∀ source, (source, ()) ∈ sources →
      (accountsBySource.get source).isSome = true ∨ required = false) :
    ∃ accounts, targetAccounts accountsBySource required sources = .ok accounts := by
  have hfound : ∀ target : String × Unit → Except MigrationError (Option Account),
      (∀ source account, accountsBySource.get source.1 = some account →
        target source = .ok (some account)) →
      (∀ source, accountsBySource.get source.1 = none → required = false →
        target source = .ok none) →
      ∀ sources : BTreeMap String Unit, (∀ source, (source, ()) ∈ sources →
        (accountsBySource.get source).isSome = true ∨ required = false) →
      ∃ found, List.Forall₂ (fun source account => target source = .ok account) sources found := by
    intro target hsome hnone sources hsources
    induction sources with
    | nil => exact ⟨[], List.Forall₂.nil⟩
    | cons source sources ih =>
      obtain ⟨source, ⟨⟩⟩ := source
      obtain ⟨found, hfound⟩ := ih fun s hs => hsources s (List.mem_cons_of_mem _ hs)
      cases hget : accountsBySource.get source with
      | some account =>
        exact ⟨some account :: found, List.Forall₂.cons (hsome _ account hget) hfound⟩
      | none =>
        have hrequired : required = false :=
          (hsources source List.mem_cons_self).resolve_left (by rw [hget]; exact Bool.false_ne_true)
        exact ⟨none :: found, List.Forall₂.cons (hnone _ hget hrequired) hfound⟩
  refine (hfound _ ?_ ?_ sources h).elim fun found hforall => ⟨found.reduceOption,
    bind_eq_ok.mpr ⟨found, Except.mapM_eq_ok.mpr hforall, rfl⟩⟩
  · intro source account hget
    simp only [hget]
  · intro source hget hrequired
    simp [hget, hrequired, Except.rejectIf, bind, Except.bind, pure, Except.pure]

end

/-! ## The operations of the handoff -/

variable {env : Env}

/-- The exports that the pending manifests of a chain need. -/
def ExportTargets (env : Env) (w : World δ) (chain : Chain δ)
    (exports : List (Path × Except MigrationError (List Account))) : Prop :=
  (pending chain = [] ∧ exports = []) ∨
    pending chain ≠ [] ∧ ∃ accounts targets, pendingAccounts env w chain = .ok accounts ∧
      (pending chain).foldlM (addTargetSources (accountsById accounts)) [] = .ok targets ∧
      exports = targets.map fun target => (target.1, targetAccounts (accountsBySource accounts)
        (latestRequiresTransferredCredentials chain) target.2)

/-- The handoffs of the pending manifests. -/
def handoffOps (chain : Chain δ) : List (UnlinkOp δ) :=
  (pending chain).map fun e => UnlinkOp.writeManifest e.1 (handedOff e.2)

omit [DecidableEq δ] in
theorem restorePendingCredentials_eq_ok {chain : Chain δ} {ops : List (UnlinkOp δ)} :
    restorePendingCredentials env w agent chain = .ok ops ↔
      ∃ exports, ExportTargets env w chain exports ∧
        ops = exportOps agent exports ++ handoffOps chain := by
  have hpending : (chain.all fun e => e.2.credentialsHandoffComplete) = true ↔
      pending chain = [] := by
    simp [pending, List.filter_eq_nil_iff]
  rw [restorePendingCredentials]
  by_cases hall : (chain.all fun e => e.2.credentialsHandoffComplete) = true
  · have hnil := hpending.mp hall
    rw [if_pos hall]
    constructor
    · intro h
      cases h
      exact ⟨[], Or.inl ⟨hnil, rfl⟩, by simp [exportOps, handoffOps, hnil]⟩
    · rintro ⟨exports, ⟨-, rfl⟩ | ⟨hne, -⟩, rfl⟩
      · simp [exportOps, handoffOps, hnil]
      · exact absurd hnil hne
  · have hne : pending chain ≠ [] := fun hnil => hall (hpending.mpr hnil)
    rw [if_neg hall]
    simp only [bind_eq_ok]
    constructor
    · rintro ⟨accounts, haccounts, targets, htargets, h⟩
      cases h
      exact ⟨_, Or.inr ⟨hne, accounts, targets, haccounts, htargets, rfl⟩, by
        simp [exportOps, handoffOps]⟩
    · rintro ⟨exports, ⟨hnil, -⟩ | ⟨-, accounts, targets, haccounts, htargets, rfl⟩, rfl⟩
      · exact absurd hnil hne
      · exact ⟨accounts, haccounts, targets, htargets, by
          simp [exportOps, handoffOps, pure, Except.pure]⟩

end Tokn.Migration
