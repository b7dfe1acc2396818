import Tokn.Config.Matchers
import Tokn.Lib.Except
import Tokn.Router.Matching

/-!
# Rejected rules decide nothing

The compiler rejects a rule that earlier rules of its listener cover: one of them alone, or all of
them together, atom by atom. What it compares are lists of alternatives. What happens at run time
is that the first matcher that takes a request decides it.

**Theorem (`unreachable_sound`).** If the compiler rejects a binding or a CONNECT rule as
unreachable, then whenever its matcher takes a request, that of an earlier rule of the listener
does.
-/

namespace Tokn.Config

open Tokn.Policy
open Tokn.Router
open Dimension (Sound admits_iff_exists_atom admits_of_subsumes admits_of_subsumesAtom allAtoms_iff)
open Tokn.Except (bind_eq_ok bind_error fails_error fails_ok fails_rejectIf_bind)

/-! ## What covering is worth -/

theorem sound_hostMeets : Sound HostPattern.subsumes hostMeets := by
  intro a b host hab hb
  cases host with
  | none => cases hb
  | some host => exact HostPattern.matches_of_subsumes hab hb

theorem sound_pathCovers : Sound pathCovers List.isPrefixOf := by
  intro a b path hab hb
  have hpre : a <+: b := List.isPrefixOf_iff_prefix.mp hab
  exact List.isPrefixOf_iff_prefix.mpr (hpre.trans (List.isPrefixOf_iff_prefix.mp hb))

theorem sound_matches : Sound HostPattern.subsumes HostPattern.matches :=
  fun _ _ _ => HostPattern.matches_of_subsumes

theorem httpMatches_of_subsumes {prior key : HttpMatchKey} {host : Option CanonicalHost}
    {method path : Text} {operation : Option String} (h : HttpMatchKey.subsumes prior key = true)
    (hkey : httpMatches key host method path operation = true) :
    httpMatches prior host method path operation = true := by
  rw [HttpMatchKey.subsumes] at h
  simp only [Bool.and_eq_true] at h
  obtain ⟨⟨⟨hhosts, hpaths⟩, hmethods⟩, hoperations⟩ := h
  obtain ⟨hhost, hpath, hmethod, hoperation⟩ := httpMatches_iff.mp hkey
  exact httpMatches_iff.mpr ⟨admits_of_subsumes sound_hostMeets hhosts hhost,
    admits_of_subsumes sound_pathCovers hpaths hpath,
    admits_of_subsumes (Sound.of_eq _) hmethods hmethod,
    admits_of_subsumes (Sound.of_eq _) hoperations hoperation⟩

/-- A request that the matcher takes falls into one of its atoms, and an earlier matcher covers
that. -/
theorem exists_of_httpMatchersSubsumeUnion {prior : List (HttpMatchKey × String)}
    {key : HttpMatchKey} {host : Option CanonicalHost} {method path : Text}
    {operation : Option String} (h : httpMatchersSubsumeUnion prior key = true)
    (hkey : httpMatches key host method path operation = true) :
    ∃ candidate ∈ prior, httpMatches candidate.1 host method path operation = true := by
  obtain ⟨hhost, hpath, hmethod, hoperation⟩ := httpMatches_iff.mp hkey
  obtain ⟨hostAtom, hmem, hhost⟩ := admits_iff_exists_atom.mp hhost
  obtain ⟨pathAtom, hmem', hpath⟩ := admits_iff_exists_atom.mp hpath
  obtain ⟨methodAtom, hmem'', hmethod⟩ := admits_iff_exists_atom.mp hmethod
  obtain ⟨operationAtom, hmem''', hoperation⟩ := admits_iff_exists_atom.mp hoperation
  have hany := allAtoms_iff.mp h hostAtom hmem
  have hany := allAtoms_iff.mp hany pathAtom hmem'
  have hany := allAtoms_iff.mp hany methodAtom hmem''
  have hany := allAtoms_iff.mp hany operationAtom hmem'''
  obtain ⟨candidate, hcandidate, hatom⟩ := List.any_eq_true.mp hany
  rw [HttpMatchKey.subsumesAtom] at hatom
  simp only [Bool.and_eq_true] at hatom
  obtain ⟨⟨⟨hhosts, hpaths⟩, hmethods⟩, hoperations⟩ := hatom
  exact ⟨candidate, hcandidate, httpMatches_iff.mpr
    ⟨admits_of_subsumesAtom sound_hostMeets hhosts hhost,
      admits_of_subsumesAtom sound_pathCovers hpaths hpath,
      admits_of_subsumesAtom (Sound.of_eq _) hmethods hmethod,
      admits_of_subsumesAtom (Sound.of_eq _) hoperations hoperation⟩⟩

theorem connectMatches_of_subsumes {prior key : ConnectMatchKey} {host : CanonicalHost}
    {port : UInt16} (h : ConnectMatchKey.subsumes prior key = true)
    (hkey : connectMatches key host port = true) : connectMatches prior host port = true := by
  rw [ConnectMatchKey.subsumes, Bool.and_eq_true] at h
  obtain ⟨hhost, hport⟩ := connectMatches_iff.mp hkey
  exact connectMatches_iff.mpr
    ⟨admits_of_subsumes sound_matches h.1 hhost,
      admits_of_subsumes (Sound.of_eq _) h.2 hport⟩

theorem exists_of_connectMatchersSubsumeUnion {prior : List (ConnectMatchKey × String)}
    {key : ConnectMatchKey} {host : CanonicalHost} {port : UInt16}
    (h : connectMatchersSubsumeUnion prior key = true)
    (hkey : connectMatches key host port = true) :
    ∃ candidate ∈ prior, connectMatches candidate.1 host port = true := by
  obtain ⟨hhost, hport⟩ := connectMatches_iff.mp hkey
  obtain ⟨hostAtom, hmem, hhost⟩ := admits_iff_exists_atom.mp hhost
  obtain ⟨portAtom, hmem', hport⟩ := admits_iff_exists_atom.mp hport
  have hany := allAtoms_iff.mp h hostAtom hmem
  have hany := allAtoms_iff.mp hany portAtom hmem'
  obtain ⟨candidate, hcandidate, hatom⟩ := List.any_eq_true.mp hany
  rw [ConnectMatchKey.subsumesAtom, Bool.and_eq_true] at hatom
  exact ⟨candidate, hcandidate, connectMatches_iff.mpr
    ⟨admits_of_subsumesAtom sound_matches hatom.1 hhost,
      admits_of_subsumesAtom (Sound.of_eq _) hatom.2 hport⟩⟩

/-- **Where the check fires, an earlier matcher takes what the matcher takes.** -/
theorem exists_prior_of_unreachable {Key Req : Type} {subsumes : Key → Key → Bool}
    {subsumeUnion : List (Key × String) → Key → Bool} {takes : Key → Req → Bool}
    (hone : ∀ prior key req, subsumes prior key = true → takes key req = true →
      takes prior req = true)
    (hunion : ∀ prior key req, subsumeUnion prior key = true → takes key req = true →
      ∃ candidate ∈ prior, takes candidate.1 req = true)
    {prior : List (Key × String)} {key : Key} {coveredBy : Option String}
    (h : unreachable subsumes subsumeUnion prior key = some coveredBy) {req : Req}
    (hreq : takes key req = true) : ∃ candidate ∈ prior, takes candidate.1 req = true := by
  rw [unreachable] at h
  split at h
  · rename_i candidate hfind
    have hcovers := List.find?_some hfind
    exact ⟨candidate, List.mem_of_find?_eq_some hfind, hone _ _ _ hcovers hreq⟩
  · split_ifs at h with hcovers
    exact hunion _ _ _ hcovers hreq

/-! ## Which errors say that a rule is unreachable -/

def InvalidValue.isUnreachable : InvalidValue → Bool
  | .bindingUnreachable .. | .bindingCollectivelyUnreachable _ | .ruleUnreachable ..
  | .ruleCollectivelyUnreachable _ => true
  | _ => false

def CompileError.isUnreachable : CompileError → Bool
  | .invalidValue _ reason => reason.isUnreachable
  | _ => false

/-- The computation does not fail with an unreachable rule. -/
abbrev Quiet {α : Type} (x : Except CompileError α) : Prop :=
  Except.Fails (fun e => e.isUnreachable = false) x

abbrev QuietValue {α : Type} (x : Except InvalidValue α) : Prop :=
  Except.Fails (fun e => e.isUnreachable = false) x

theorem QuietValue.located {α : Type} {x : Except InvalidValue α} (h : QuietValue x)
    (location : String) : Quiet (located location x) := by
  cases x with
  | ok a => exact fails_ok a
  | error reason => exact fails_error (h reason rfl)

theorem quiet_rejectIf {bad : Bool} {e : CompileError} (h : e.isUnreachable = false) :
    Quiet (Except.rejectIf bad e) :=
  Except.fails_rejectIf h

theorem quiet_parseId (kind resource value : String) : Quiet (parseId kind resource value) := by
  rw [parseId]
  split
  · exact fails_ok _
  · exact fails_error rfl

theorem quiet_claim {α : Type} [DecidableEq α] (covers : α → α → Bool) (location : String)
    (claimed : List (String × α)) (raw : String) (value : α) :
    Quiet (claim covers location claimed raw value) := by
  rw [claim]
  split
  · rename_i reason hfound
    obtain ⟨prior, -, hprior⟩ := List.exists_of_findSome?_eq_some hfound
    apply fails_error
    split_ifs at hprior <;> cases hprior <;> rfl
  · exact fails_ok _

section

variable (env : Syntax)

theorem quiet_compileHost (raw location : String) : Quiet (compileHost env raw location) := by
  unfold compileHost
  split
  · split_ifs
    · exact fails_error rfl
    · split
      · exact fails_error rfl
      · split
        · exact fails_error rfl
        · exact fails_ok _
  · split_ifs
    · exact fails_error rfl
    · split
      · exact fails_error rfl
      · exact fails_ok _

theorem quiet_compileHosts (rawHosts : List String) (location : String) :
    Quiet (compileHosts env rawHosts location) := by
  unfold compileHosts
  apply Except.Fails.bind
  · apply Except.Fails.foldlM
    intro claimed raw
    exact (quiet_compileHost env raw location).bind fun _ _ => quiet_claim _ _ _ _ _
  · exact fun _ _ => fails_ok _

end

theorem quiet_canonicalPathLoop (raw : Text) : QuietValue (canonicalPathLoop raw) := by
  fun_induction canonicalPathLoop raw with
  | case1 => exact fails_ok _
  | case2 _ _ _ _ ih => exact ih.bind fun _ _ => fails_ok _
  | case3 => exact fails_error rfl
  | case4 => exact fails_error rfl
  | case5 => exact fails_error rfl
  | case6 _ _ _ _ ih => exact ih.bind fun _ _ => fails_ok _

theorem quiet_canonicalPathPrefix (raw : Text) : QuietValue (canonicalPathPrefix raw) := by
  unfold canonicalPathPrefix
  split_ifs
  · exact fails_error rfl
  · exact fails_error rfl
  · exact fails_error rfl
  · refine (quiet_canonicalPathLoop raw).bind fun canonical _ => ?_
    exact fails_rejectIf_bind rfl (fails_ok _)

theorem quiet_compilePathPrefixes (rawPaths : List String) (bindingId : String) :
    Quiet (compilePathPrefixes rawPaths bindingId) := by
  unfold compilePathPrefixes
  apply Except.Fails.bind
  · apply Except.Fails.foldlM
    intro claimed raw
    exact ((quiet_canonicalPathPrefix raw.toList).located _).bind fun _ _ => quiet_claim _ _ _ _ _
  · exact fun _ _ => fails_ok _

theorem quiet_checkMethod (method : Text) : QuietValue (checkMethod method) := by
  unfold checkMethod
  split_ifs
  · exact fails_error rfl
  · exact fails_error rfl
  · exact fails_error rfl
  · exact fails_ok _

theorem quiet_compileMethods (rawMethods : List String) (bindingId : String) :
    Quiet (compileMethods rawMethods bindingId) := by
  unfold compileMethods
  apply Except.Fails.foldlM
  intro claimed raw
  refine ((quiet_checkMethod raw.toList).located _).bind fun method _ => ?_
  exact fails_rejectIf_bind rfl (fails_ok _)

theorem quiet_compileOperations (rawOperations : List String) (bindingId : String) :
    Quiet (compileOperations rawOperations bindingId) := by
  unfold compileOperations
  apply Except.Fails.foldlM
  intro claimed raw
  refine (quiet_parseId _ _ _).bind fun operation _ => ?_
  exact fails_rejectIf_bind rfl (fails_ok _)

theorem quiet_compilePorts (rawPorts : List UInt16) (ruleId : String) :
    Quiet (compilePorts rawPorts ruleId) := by
  unfold compilePorts
  apply Except.Fails.foldlM
  intro claimed port
  refine fails_rejectIf_bind rfl ?_
  exact fails_rejectIf_bind rfl (fails_ok _)

section

variable (env : Syntax)

theorem quiet_compileHttpMatch (raw : RawBinding) : Quiet (compileHttpMatch env raw) := by
  unfold compileHttpMatch
  refine (quiet_compileHosts env _ _).bind fun hosts _ => ?_
  refine (quiet_compilePathPrefixes _ _).bind fun pathPrefixes _ => ?_
  refine (quiet_compileMethods _ _).bind fun methods _ => ?_
  refine (quiet_compileOperations _ _).bind fun operations _ => ?_
  split
  · exact fails_ok _
  · exact fails_error rfl

theorem quiet_compileConnectMatch (raw : RawConnectRule) : Quiet (compileConnectMatch env raw) := by
  unfold compileConnectMatch
  refine (quiet_compileHosts env _ _).bind fun hosts _ => ?_
  refine (quiet_compilePorts _ _).bind fun ports _ => ?_
  split
  · exact fails_ok _
  · exact fails_error rfl

theorem quiet_compileHttpAction (raw : RawBindingAction) (ownerKind owner referenceField : String)
    (profiles : List String) :
    Quiet (compileHttpAction raw ownerKind owner referenceField profiles) := by
  unfold compileHttpAction
  split
  · exact fails_ok _
  · refine (quiet_parseId _ _ _).bind fun profileId _ => ?_
    split_ifs
    · exact fails_ok _
    · exact fails_error rfl

theorem quiet_claimBindingId (raw : String) (ids : List String) : Quiet (claimBindingId raw ids) := by
  unfold claimBindingId
  refine (quiet_parseId _ _ _).bind fun id _ => ?_
  exact fails_rejectIf_bind rfl (fails_ok _)

theorem quiet_resolveListener {Addr : Type} (rawListener ownerKind owner field : String)
    (listeners : BTreeMap String (ListenerDraft Addr)) :
    Quiet (resolveListener rawListener ownerKind owner field listeners) := by
  unfold resolveListener
  refine (quiet_parseId _ _ _).bind fun listener _ => ?_
  split
  · exact fails_ok _
  · exact fails_error rfl

theorem quiet_canonicalCorsOrigin (origin : String) :
    QuietValue (canonicalCorsOrigin env origin) := by
  unfold canonicalCorsOrigin
  split
  · exact fails_error rfl
  · split_ifs
    · exact fails_error rfl
    · exact fails_error rfl
    · exact fails_ok _

theorem quiet_compileCors (raw : RawCors) (listenerId : String) :
    Quiet (compileCors env raw listenerId) := by
  apply QuietValue.located
  refine fails_rejectIf_bind rfl ?_
  exact (Except.Fails.mapM (quiet_canonicalCorsOrigin env) _).bind fun _ _ => fails_ok _

theorem quiet_compileBind (raw listenerId : String) : Quiet (compileBind env raw listenerId) := by
  unfold compileBind
  split
  · exact fails_error rfl
  · split_ifs
    · exact fails_error rfl
    · exact fails_ok _

theorem quiet_resolveCaDir (raw : Option String) (source listenerId : String) :
    Quiet (resolveCaDir env raw source listenerId) := by
  unfold resolveCaDir
  split
  · exact fails_ok _
  · split_ifs
    · exact fails_error rfl
    · exact fails_ok _
    · exact fails_ok _

theorem quiet_checkPublic (bind : env.SocketAddr) (clientAuth : ClientAuthPlan)
    (allowInsecurePublic : Bool) (rawId : String) :
    Quiet (checkPublic env bind clientAuth allowInsecurePublic rawId) := by
  unfold checkPublic
  refine fails_rejectIf_bind rfl ?_
  exact Except.fails_rejectIf rfl

theorem quiet_claimBind (binds : List (env.SocketAddr × String)) (bind : env.SocketAddr)
    (id : String) : Quiet (claimBind env binds bind id) := by
  unfold claimBind
  split
  · exact fails_error rfl
  · exact fails_ok _

theorem quiet_compileDraft (source : String) (profiles : List String) (st : DraftState env)
    (raw : String × RawListener) : Quiet (compileDraft env source profiles st raw) := by
  unfold compileDraft
  refine (quiet_parseId _ _ _).bind fun id _ => ?_
  split
  · refine (quiet_compileCors env _ _).bind fun cors _ => ?_
    refine (quiet_compileBind env _ _).bind fun bind _ => ?_
    refine (quiet_checkPublic env _ _ _ _).bind fun _ _ => ?_
    exact (quiet_claimBind env _ _ _).bind fun _ _ => fails_ok _
  · refine (quiet_resolveCaDir env _ _ _).bind fun caDir _ => ?_
    refine (quiet_compileBind env _ _).bind fun bind _ => ?_
    refine fails_rejectIf_bind rfl ?_
    refine (quiet_checkPublic env _ _ _ _).bind fun _ _ => ?_
    refine (quiet_claimBind env _ _ _).bind fun binds _ => ?_
    exact (quiet_compileHttpAction _ _ _ _ _).bind fun _ _ => fails_ok _

theorem quiet_finishListener (bindings : BTreeMap String (List HttpBindingPlan))
    (rules : BTreeMap String (List ConnectRulePlan))
    (draft : String × ListenerDraft env.SocketAddr) :
    Quiet (finishListener env bindings rules draft) := by
  unfold finishListener
  split
  · exact fails_ok _
  · exact fails_rejectIf_bind rfl (fails_ok _)

end

/-! ## The rules so far -/

theorem RuleState.matchers_push {Key Plan : Type} (st : RuleState Key Plan) (id listener : String)
    (key : Key) (plan : Plan) (l : String) :
    ((st.push id listener key plan).matchers.get l).getD [] =
      if l = listener then (st.matchers.get listener).getD [] ++ [(key, id)]
      else (st.matchers.get l).getD [] := by
  rw [push, BTreeMap.get_modify]
  split_ifs <;> rfl

theorem RuleState.plans_push {Key Plan : Type} (st : RuleState Key Plan) (id listener : String)
    (key : Key) (plan : Plan) (l : String) :
    ((st.push id listener key plan).plans.get l).getD [] =
      if l = listener then (st.plans.get listener).getD [] ++ [plan]
      else (st.plans.get l).getD [] := by
  rw [push, BTreeMap.get_modify]
  split_ifs <;> rfl

/-- The matchers and the plans are those of the raw rules that have been compiled. -/
structure RulesOf {Raw Key Plan : Type} (compile : Raw → Except CompileError Key)
    (listenerOf : Raw → String) (matcherOf : Plan → Key) (raws : List Raw)
    (st : RuleState Key Plan) : Prop where
  matchers : ∀ l, ∀ candidate ∈ (st.matchers.get l).getD [],
    ∃ raw ∈ raws, listenerOf raw = l ∧ compile raw = .ok candidate.1
  plans : ∀ l, ∀ plan ∈ (st.plans.get l).getD [],
    ∃ raw ∈ raws, listenerOf raw = l ∧ compile raw = .ok (matcherOf plan)

section

variable {Raw Key Plan : Type} {compile : Raw → Except CompileError Key}
  {listenerOf : Raw → String} {matcherOf : Plan → Key}

theorem RulesOf.init (ids : List String) :
    RulesOf compile listenerOf matcherOf [] ({ ids := ids } : RuleState Key Plan) where
  matchers _ _ h := by cases h
  plans _ _ h := by cases h

theorem RulesOf.push {raws : List Raw} {st : RuleState Key Plan}
    (h : RulesOf compile listenerOf matcherOf raws st) {raw : Raw} {id : String} {plan : Plan}
    (hraw : compile raw = .ok (matcherOf plan)) :
    RulesOf compile listenerOf matcherOf (raws ++ [raw])
      (st.push id (listenerOf raw) (matcherOf plan) plan) := by
  have hlast : raw ∈ raws ++ [raw] := List.mem_append_right _ (List.mem_singleton_self raw)
  constructor
  · intro l candidate hmem
    rw [RuleState.matchers_push] at hmem
    split_ifs at hmem with hl
    · cases List.mem_append.mp hmem with
      | inl hold =>
        obtain ⟨b, hb, hlistener, hcompile⟩ := h.matchers _ candidate hold
        exact ⟨b, List.mem_append_left _ hb, hlistener.trans hl.symm, hcompile⟩
      | inr hnew =>
        rw [List.mem_singleton.mp hnew]
        exact ⟨raw, hlast, hl.symm, hraw⟩
    · obtain ⟨b, hb, hlistener, hcompile⟩ := h.matchers _ candidate hmem
      exact ⟨b, List.mem_append_left _ hb, hlistener, hcompile⟩
  · intro l plan' hmem
    rw [RuleState.plans_push] at hmem
    split_ifs at hmem with hl
    · cases List.mem_append.mp hmem with
      | inl hold =>
        obtain ⟨b, hb, hlistener, hcompile⟩ := h.plans _ plan' hold
        exact ⟨b, List.mem_append_left _ hb, hlistener.trans hl.symm, hcompile⟩
      | inr hnew =>
        rw [List.mem_singleton.mp hnew]
        exact ⟨raw, hlast, hl.symm, hraw⟩
    · obtain ⟨b, hb, hlistener, hcompile⟩ := h.plans _ plan' hmem
      exact ⟨b, List.mem_append_left _ hb, hlistener, hcompile⟩

end

/-! ## One rule -/

theorem claimBindingId_ok {raw id : String} {ids : List String}
    (h : claimBindingId raw ids = .ok id) : id = raw := by
  obtain ⟨id', hparse, hrest⟩ := bind_eq_ok.mp h
  obtain ⟨-, -, hpure⟩ := bind_eq_ok.mp hrest
  cases hpure
  exact parseId_ok hparse

theorem resolveListener_ok {Addr : Type} {rawListener ownerKind owner field : String}
    {listeners : BTreeMap String (ListenerDraft Addr)} {found : String × ListenerDraft Addr}
    (h : resolveListener rawListener ownerKind owner field listeners = .ok found) :
    found.1 = rawListener := by
  obtain ⟨listener, hparse, hrest⟩ := bind_eq_ok.mp h
  split at hrest
  · cases hrest
    exact parseId_ok hparse
  · cases hrest

section

variable {env : Syntax}

variable {drafts : BTreeMap String (ListenerDraft env.SocketAddr)} {profiles ids : List String}
  {st : RuleState ConnectMatchKey ConnectRulePlan} {e : CompileError}

theorem compileBinding_ok {st st' : RuleState HttpMatchKey HttpBindingPlan} {raw : RawBinding}
    (h : compileBinding env drafts profiles st raw = .ok st') :
    ∃ plan : HttpBindingPlan, compileHttpMatch env raw = .ok plan.matcher ∧
      compileHttpAction raw.action "binding" raw.id "action.profile" profiles = .ok plan.action ∧
      st' = st.push raw.id raw.listener plan.matcher plan := by
  obtain ⟨id, hid, h⟩ := bind_eq_ok.mp h
  obtain ⟨found, hfound, h⟩ := bind_eq_ok.mp h
  obtain ⟨-, -, h⟩ := bind_eq_ok.mp h
  obtain ⟨matcher, hmatcher, h⟩ := bind_eq_ok.mp h
  rw [claimBindingId_ok hid, resolveListener_ok hfound] at h
  dsimp only at h
  split at h
  · cases h
  · cases h
  · obtain ⟨action, haction, h⟩ := bind_eq_ok.mp h
    cases h
    exact ⟨{ id := raw.id, matcher := matcher, action := action }, hmatcher, haction, rfl⟩

theorem compileConnectRule_ok {st' : RuleState ConnectMatchKey ConnectRulePlan}
    {raw : RawConnectRule} (h : compileConnectRule env drafts st raw = .ok st') :
    ∃ plan : ConnectRulePlan, compileConnectMatch env raw = .ok plan.matcher ∧
      plan.action = compileConnectAction raw.action ∧
      st' = st.push raw.id raw.listener plan.matcher plan := by
  obtain ⟨id, hid, h⟩ := bind_eq_ok.mp h
  obtain ⟨found, hfound, h⟩ := bind_eq_ok.mp h
  obtain ⟨-, -, h⟩ := bind_eq_ok.mp h
  obtain ⟨matcher, hmatcher, h⟩ := bind_eq_ok.mp h
  rw [claimBindingId_ok hid, resolveListener_ok hfound] at h
  dsimp only at h
  split at h
  · cases h
  · cases h
  · cases h
    exact ⟨{ id := raw.id, matcher := matcher, action := compileConnectAction raw.action },
      hmatcher, rfl, rfl⟩

/-- A binding is rejected as unreachable where the check against the earlier ones fires. -/
theorem compileBinding_error {st : RuleState HttpMatchKey HttpBindingPlan} {raw : RawBinding}
    (h : compileBinding env drafts profiles st raw = .error e) (he : e.isUnreachable = true) :
    ∃ matcher coveredBy, compileHttpMatch env raw = .ok matcher ∧
      unreachable HttpMatchKey.subsumes httpMatchersSubsumeUnion
        ((st.matchers.get raw.listener).getD []) matcher = some coveredBy ∧
      e = .invalidValue s!"bindings.{raw.id}"
        (match coveredBy with
          | some first => .bindingUnreachable first raw.listener
          | none => .bindingCollectivelyUnreachable raw.listener) := by
  have hloud : ¬ e.isUnreachable = false := Bool.not_eq_false _ ▸ he
  obtain ⟨id, hid, h⟩ := bind_error h (quiet_claimBindingId _ _) hloud
  obtain ⟨found, hfound, h⟩ := bind_error h (quiet_resolveListener _ _ _ _ _) hloud
  obtain ⟨-, -, h⟩ := bind_error h (quiet_rejectIf rfl) hloud
  obtain ⟨matcher, hmatcher, h⟩ := bind_error h (quiet_compileHttpMatch env _) hloud
  rw [resolveListener_ok hfound] at h
  dsimp only at h
  split at h
  · rename_i first hcheck
    cases h
    exact ⟨matcher, some first, hmatcher, hcheck, rfl⟩
  · rename_i hcheck
    cases h
    exact ⟨matcher, none, hmatcher, hcheck, rfl⟩
  · obtain ⟨action, -, h'⟩ := bind_error h (quiet_compileHttpAction _ _ _ _ _) hloud
    cases h'

theorem compileConnectRule_error {raw : RawConnectRule}
    (h : compileConnectRule env drafts st raw = .error e) (he : e.isUnreachable = true) :
    ∃ matcher coveredBy, compileConnectMatch env raw = .ok matcher ∧
      unreachable ConnectMatchKey.subsumes connectMatchersSubsumeUnion
        ((st.matchers.get raw.listener).getD []) matcher = some coveredBy ∧
      e = .invalidValue s!"connect_rules.{raw.id}"
        (match coveredBy with
          | some first => .ruleUnreachable first raw.listener
          | none => .ruleCollectivelyUnreachable raw.listener) := by
  have hloud : ¬ e.isUnreachable = false := Bool.not_eq_false _ ▸ he
  obtain ⟨id, hid, h⟩ := bind_error h (quiet_claimBindingId _ _) hloud
  obtain ⟨found, hfound, h⟩ := bind_error h (quiet_resolveListener _ _ _ _ _) hloud
  obtain ⟨-, -, h⟩ := bind_error h (quiet_rejectIf rfl) hloud
  obtain ⟨matcher, hmatcher, h⟩ := bind_error h (quiet_compileConnectMatch env _) hloud
  rw [resolveListener_ok hfound] at h
  dsimp only at h
  split at h
  · rename_i first hcheck
    cases h
    exact ⟨matcher, some first, hmatcher, hcheck, rfl⟩
  · rename_i hcheck
    cases h
    exact ⟨matcher, none, hmatcher, hcheck, rfl⟩
  · cases h

/-! ## All rules -/

theorem rulesOf_bindings {raws : List RawBinding} {st : RuleState HttpMatchKey HttpBindingPlan}
    (h : raws.foldlM (compileBinding env drafts profiles) { ids := ids } = .ok st) :
    RulesOf (compileHttpMatch env) RawBinding.listener HttpBindingPlan.matcher raws st := by
  refine Except.foldlM_induction
    (RulesOf (compileHttpMatch env) RawBinding.listener HttpBindingPlan.matcher)
    (RulesOf.init ids) ?_ h
  intro raws raw st st' _ hrules hstep
  obtain ⟨plan, hmatcher, -, rfl⟩ := compileBinding_ok hstep
  exact hrules.push hmatcher

theorem rulesOf_connectRules {raws : List RawConnectRule}
    (h : raws.foldlM (compileConnectRule env drafts) { ids := ids } = .ok st) :
    RulesOf (compileConnectMatch env) RawConnectRule.listener ConnectRulePlan.matcher raws st := by
  refine Except.foldlM_induction
    (RulesOf (compileConnectMatch env) RawConnectRule.listener ConnectRulePlan.matcher)
    (RulesOf.init ids) ?_ h
  intro raws raw st st' _ hrules hstep
  obtain ⟨plan, hmatcher, -, rfl⟩ := compileConnectRule_ok hstep
  exact hrules.push hmatcher

/-- The binding of the configuration at the location is never the first that takes a request. -/
def NeverDecides (env : Syntax) (raw : RawConfig) (location : String) : Prop :=
  ∃ before binding after matcher,
    raw.bindings = before ++ binding :: after ∧ location = s!"bindings.{binding.id}" ∧
      compileHttpMatch env binding = .ok matcher ∧
      ∀ host method path operation,
        httpMatches matcher (some host) method path operation = true →
          ∃ earlier ∈ before, earlier.listener = binding.listener ∧
            ∃ matcher', compileHttpMatch env earlier = .ok matcher' ∧
              httpMatches matcher' (some host) method path operation = true

/-- The CONNECT rule of the configuration at the location is never the first that takes a
destination. -/
def NeverConnects (env : Syntax) (raw : RawConfig) (location : String) : Prop :=
  ∃ before rule after matcher,
    raw.connectRules = before ++ rule :: after ∧ location = s!"connect_rules.{rule.id}" ∧
      compileConnectMatch env rule = .ok matcher ∧
      ∀ host port, connectMatches matcher host port = true →
        ∃ earlier ∈ before, earlier.listener = rule.listener ∧
          ∃ matcher', compileConnectMatch env earlier = .ok matcher' ∧
            connectMatches matcher' host port = true

theorem neverDecides_of_error {raw : RawConfig}
    (h : raw.bindings.foldlM (compileBinding env drafts profiles) { ids := ids } = .error e)
    (he : e.isUnreachable = true) :
    ∃ location reason, e = .invalidValue location reason ∧ NeverDecides env raw location := by
  obtain ⟨before, binding, after, st, hsplit, hbefore, herror⟩ := Except.foldlM_error h
  obtain ⟨matcher, coveredBy, hmatcher, hcheck, rfl⟩ := compileBinding_error herror he
  refine ⟨_, _, rfl, before, binding, after, matcher, hsplit, rfl, hmatcher, ?_⟩
  intro host method path operation htakes
  obtain ⟨candidate, hcandidate, hearlier⟩ := @exists_prior_of_unreachable HttpMatchKey
    (CanonicalHost × Text × Text × Option String) _ _
    (fun key req => httpMatches key (some req.1) req.2.1 req.2.2.1 req.2.2.2)
    (fun _ _ _ => httpMatches_of_subsumes) (fun _ _ _ => exists_of_httpMatchersSubsumeUnion)
    _ _ _ hcheck (host, method, path, operation) htakes
  obtain ⟨earlier, hmem, hlistener, hcompile⟩ :=
    (rulesOf_bindings hbefore).matchers _ candidate hcandidate
  exact ⟨earlier, hmem, hlistener, candidate.1, hcompile, hearlier⟩

theorem neverConnects_of_error {raw : RawConfig}
    (h : raw.connectRules.foldlM (compileConnectRule env drafts) { ids := ids } = .error e)
    (he : e.isUnreachable = true) :
    ∃ location reason, e = .invalidValue location reason ∧ NeverConnects env raw location := by
  obtain ⟨before, rule, after, st, hsplit, hbefore, herror⟩ := Except.foldlM_error h
  obtain ⟨matcher, coveredBy, hmatcher, hcheck, rfl⟩ := compileConnectRule_error herror he
  refine ⟨_, _, rfl, before, rule, after, matcher, hsplit, rfl, hmatcher, ?_⟩
  intro host port htakes
  obtain ⟨candidate, hcandidate, hearlier⟩ := @exists_prior_of_unreachable ConnectMatchKey
    (CanonicalHost × UInt16) _ _ (fun key req => connectMatches key req.1 req.2)
    (fun _ _ _ => connectMatches_of_subsumes)
    (fun _ _ _ => exists_of_connectMatchersSubsumeUnion) _ _ _ hcheck (host, port) htakes
  obtain ⟨earlier, hmem, hlistener, hcompile⟩ :=
    (rulesOf_connectRules hbefore).matchers _ candidate hcandidate
  exact ⟨earlier, hmem, hlistener, candidate.1, hcompile, hearlier⟩

/-- **A rule that the compiler rejects as unreachable never decides anything.** Whenever its matcher
takes a request, so does that of an earlier rule of the listener. -/
theorem unreachable_sound {raw : RawConfig} {source : String} {profiles : List String}
    {e : CompileError} (h : compileListeners env raw source profiles = .error e)
    (he : e.isUnreachable = true) :
    ∃ location reason, e = .invalidValue location reason ∧
      (NeverDecides env raw location ∨ NeverConnects env raw location) := by
  have hloud : ¬ e.isUnreachable = false := Bool.not_eq_false _ ▸ he
  obtain ⟨-, -, h⟩ := bind_error h (quiet_rejectIf rfl) hloud
  obtain ⟨drafts, -, h⟩ := bind_error h
    (Except.Fails.foldlM (quiet_compileDraft env source profiles) _ _) hloud
  cases hbindings : raw.bindings.foldlM (compileBinding env drafts.drafts profiles) { ids := [] } with
  | error e' =>
    rw [hbindings] at h
    cases h
    obtain ⟨location, reason, rfl, hnever⟩ := neverDecides_of_error hbindings he
    exact ⟨location, reason, rfl, Or.inl hnever⟩
  | ok bindings =>
    rw [hbindings] at h
    cases hrules : raw.connectRules.foldlM (compileConnectRule env drafts.drafts)
        { ids := bindings.ids } with
    | error e' =>
      change (raw.connectRules.foldlM (compileConnectRule env drafts.drafts)
        { ids := bindings.ids } >>= _) = _ at h
      rw [hrules] at h
      cases h
      obtain ⟨location, reason, rfl, hnever⟩ := neverConnects_of_error hrules he
      exact ⟨location, reason, rfl, Or.inr hnever⟩
    | ok rules =>
      change (raw.connectRules.foldlM (compileConnectRule env drafts.drafts)
        { ids := bindings.ids } >>= _) = _ at h
      rw [hrules] at h
      have hquiet : Quiet (drafts.drafts.mapM (finishListener env bindings.plans rules.plans)) :=
        Except.Fails.mapM (quiet_finishListener env bindings.plans rules.plans) _
      exact absurd (hquiet e h) hloud

end

/-! ## A listener of its own -/

/-- The one local address, and no IP hosts. A socket address is its port. -/
def localSyntax : Syntax where
  Ipv4Addr := Unit
  Ipv6Addr := Unit
  parseV4 raw := if raw = "127.0.0.1".toList then some () else none
  printV4 _ := "127.0.0.1".toList
  parseV6 raw := if raw = "::1".toList then some () else none
  printV6 _ := "::1".toList
  SocketAddr := Nat
  parseSocketAddr raw := if raw = "127.0.0.1:8080" then some 8080 else none
  printSocketAddr _ := "127.0.0.1:8080"
  port := id
  isLoopback _ := true
  isUnspecified _ := false
  sameIp _ _ := true
  isAbsolute path := path.toList.head? = some '/'
  joinToParent _ path := path
  parseUrl _ := .error "relative URL without a base"

def proxyWith (bindings : List RawBinding) : RawConfig where
  listeners := [("proxy", .forwardProxy "127.0.0.1:8080" .none false 1024 .reject .tunnel none)]
  bindings := bindings
  connectRules := []

/-- Two hosts bound one after the other, and then both at once. -/
def sharedHosts : RawConfig :=
  proxyWith
    [{ id := "first", listener := "proxy", action := .reject, hosts := ["*.example.com"],
       pathPrefixes := [], methods := [], operations := [] },
      { id := "second", listener := "proxy", action := .reject, hosts := ["example.org"],
        pathPrefixes := [], methods := ["GET"], operations := [] },
      { id := "both", listener := "proxy", action := .reject,
        hosts := ["api.example.com", "example.org"], pathPrefixes := ["/v1"], methods := ["GET"],
        operations := [] }]

theorem unreachable_sound_sharedHosts :
    ∃ location reason,
      CompileError.invalidValue "bindings.both" (.bindingCollectivelyUnreachable "proxy") =
        .invalidValue location reason ∧
      (NeverDecides localSyntax sharedHosts location ∨
        NeverConnects localSyntax sharedHosts location) :=
  @unreachable_sound localSyntax sharedHosts "config.toml" []
    (.invalidValue "bindings.both" (.bindingCollectivelyUnreachable "proxy")) (by rfl) rfl

end Tokn.Config
