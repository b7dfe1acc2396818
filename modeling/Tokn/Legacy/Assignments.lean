import Mathlib.Data.String.Basic
import Tokn.Legacy.Projection

/-!
# The modes of hosts

A host gets the mode of the provider that owns it, which is then its only owner
(`assigned_spec`): the projection rejects a mode of a provider whose host another one shares.
-/

namespace Tokn.Legacy

open Tokn.Policy (Text)
open Tokn.Router.LegacyProxy (ProxyProviderMode)

/-! ## Owners -/

/-- The provider has the host, as the projection writes it. -/
def Owns (providerHosts : BTreeMap String (List Text)) (provider host : String) : Prop :=
  ∃ hosts, (provider, hosts) ∈ providerHosts ∧
    ∃ text ∈ hosts, canonicalProxyHost text = .ok host

variable {owners : BTreeMap String (List String)} {provider : String}

/-- One more host of a provider. -/
theorem ownersStep_ok {owners' : BTreeMap String (List String)} {text : Text}
    (h : (do
      let host ← canonicalProxyHost text
      let current := (owners.get host).getD []
      return owners.insert host
        (if current.contains provider then current else current ++ [provider]) :
        Except ProjectionError (BTreeMap String (List String))) = .ok owners') :
    (∀ p host, p ∈ (owners.get host).getD [] → p ∈ (owners'.get host).getD []) ∧
      ∀ host, canonicalProxyHost text = .ok host → provider ∈ (owners'.get host).getD [] := by
  obtain ⟨name, hname, h⟩ := Except.bind_eq_ok.mp h
  cases h
  constructor
  · intro p host hmem
    rw [BTreeMap.get_insert]
    by_cases hhost : host = name
    · subst hhost
      rw [if_pos rfl, Option.getD_some]
      split
      · exact hmem
      · exact List.mem_append_left _ hmem
    · rw [if_neg hhost]
      exact hmem
  · intro host hcanonical
    obtain rfl := Except.ok.inj (hname.symm.trans hcanonical)
    rw [BTreeMap.get_insert_self, Option.getD_some]
    split
    · rename_i hcontains
      exact List.contains_iff_mem.mp hcontains
    · exact List.mem_append_right _ (List.mem_singleton_self provider)

/-- Every owner of a host is among its owners. -/
theorem mem_owners {providerHosts : BTreeMap String (List Text)}
    (h : providerHostOwners providerHosts = .ok owners) {host : String}
    (howns : Owns providerHosts provider host) : provider ∈ (owners.get host).getD [] := by
  refine Except.foldlM_induction
    (fun entries (owners : BTreeMap String (List String)) =>
      ∀ p host, Owns entries p host → p ∈ (owners.get host).getD [])
    (fun p host ⟨_, hmem, _⟩ => nomatch hmem) ?_ h provider host howns
  intro entries entry owners owners' _ hall hstep p host howns
  have hinner := Except.foldlM_induction
    (fun texts (owners' : BTreeMap String (List String)) =>
      (∀ p host, p ∈ (owners.get host).getD [] → p ∈ (owners'.get host).getD []) ∧
        ∀ text ∈ texts, ∀ host, canonicalProxyHost text = .ok host →
          entry.1 ∈ (owners'.get host).getD [])
    ⟨fun _ _ h => h, (fun _ h => nomatch h)⟩ ?_ hstep
  · obtain ⟨hosts, hmem, text, htext, hcanonical⟩ := howns
    rcases List.mem_append.mp hmem with hmem | hmem
    · exact hinner.1 p host (hall p host ⟨hosts, hmem, text, htext, hcanonical⟩)
    · obtain rfl := List.mem_singleton.mp hmem
      exact hinner.2 text htext host hcanonical
  · intro texts text before after _ hbefore hafter
    obtain ⟨hkeep, hnew⟩ := ownersStep_ok hafter
    refine ⟨fun p host hmem => hkeep p host (hbefore.1 p host hmem), ?_⟩
    intro text' hmem host hcanonical
    rcases List.mem_append.mp hmem with hmem | hmem
    · exact hkeep _ _ (hbefore.2 text' hmem host hcanonical)
    · obtain rfl := List.mem_singleton.mp hmem
      exact hnew host hcanonical

/-! ## Modes -/

def modeOf (assignments : HostAssignments) (host : String) : Option ProxyProviderMode :=
  (assignments.get host).map Prod.fst

theorem assignHost_ok {mode : ProxyProviderMode} {assignments assignments' : HostAssignments}
    {text : Text} (h : assignHost owners provider mode assignments text = .ok assignments') :
    ∃ host value, canonicalProxyHost text = .ok host ∧
      ((owners.get host).getD []).length ≤ 1 ∧ assignments' = assignments.insert host value ∧
      value.1 = (modeOf assignments host).getD mode := by
  obtain ⟨host, hhost, h⟩ := Except.bind_eq_ok.mp h
  obtain ⟨_, hcheck, h⟩ := Except.bind_eq_ok.mp h
  cases h
  refine ⟨host, _, hhost, ?_, rfl, ?_⟩
  · have hfew := Except.rejectIf_eq_ok.mp hcheck
    rw [decide_eq_false_iff_not] at hfew
    omega
  · rw [modeOf]
    cases assignments.get host <;> rfl

/-- What the hosts of one provider change. -/
structure AssignedFrom (owners : BTreeMap String (List String)) (mode : ProxyProviderMode)
    (before : HostAssignments) (texts : List Text) (after : HostAssignments) : Prop where
  kept : ∀ host m, modeOf before host = some m → modeOf after host = some m
  sound : ∀ host m, modeOf after host = some m →
    modeOf before host = some m ∨
      modeOf before host = none ∧ m = mode ∧ (∃ text ∈ texts, canonicalProxyHost text = .ok host) ∧
        ((owners.get host).getD []).length ≤ 1
  complete : ∀ text ∈ texts, ∀ host, canonicalProxyHost text = .ok host →
    (modeOf after host).isSome = true
  sorted : BTreeMap.Sorted before → BTreeMap.Sorted after

theorem assignedFrom {mode : ProxyProviderMode} {before after : HostAssignments} {texts : List Text}
    (h : texts.foldlM (assignHost owners provider mode) before = .ok after) :
    AssignedFrom owners mode before texts after := by
  refine Except.foldlM_induction (AssignedFrom owners mode before)
    ⟨fun _ _ h => h, fun _ _ h => Or.inl h, (fun _ h => by cases h), id⟩ ?_ h
  intro texts text mid after _ hmid hstep
  obtain ⟨name, value, hname, hfew, rfl, hvalue⟩ := assignHost_ok hstep
  have hget : ∀ host, modeOf (mid.insert name value) host =
      if host = name then some ((modeOf mid name).getD mode) else modeOf mid host := by
    intro host
    rw [modeOf, BTreeMap.get_insert]
    split
    · rw [Option.map_some, hvalue]
    · rfl
  constructor
  · intro host m hm
    have hkept := hmid.kept host m hm
    rw [hget]
    split
    · rename_i heq
      rw [← heq, hkept]
      rfl
    · exact hkept
  · intro host m hm
    rw [hget] at hm
    split at hm
    · rename_i heq
      subst heq
      cases hold : modeOf mid host with
      | some m' =>
        rw [hold] at hm
        obtain rfl : m' = m := Option.some.inj hm
        refine (hmid.sound host m' hold).imp_right ?_
        rintro ⟨hnone, hmode, ⟨t, ht, hcanonical⟩, hlen⟩
        exact ⟨hnone, hmode, ⟨t, List.mem_append_left _ ht, hcanonical⟩, hlen⟩
      | none =>
        rw [hold] at hm
        obtain rfl : mode = m := Option.some.inj hm
        refine Or.inr ⟨?_, rfl, ⟨text, List.mem_append_right _ (List.mem_singleton_self text), hname⟩,
          hfew⟩
        by_contra hne
        obtain ⟨m', hm'⟩ := Option.ne_none_iff_exists'.mp hne
        rw [hmid.kept host m' hm'] at hold
        cases hold
    · refine (hmid.sound host m hm).imp_right ?_
      rintro ⟨hnone, hmode, ⟨t, ht, hcanonical⟩, hlen⟩
      exact ⟨hnone, hmode, ⟨t, List.mem_append_left _ ht, hcanonical⟩, hlen⟩
  · intro text' hmem host hcanonical
    rw [hget]
    split
    · rfl
    · rename_i hne
      rcases List.mem_append.mp hmem with hmem | hmem
      · exact hmid.complete text' hmem host hcanonical
      · obtain rfl := List.mem_singleton.mp hmem
        exact absurd (Except.ok.inj (hcanonical.symm.trans hname)) hne
  · exact fun hsorted => (hmid.sorted hsorted).insert name value

/-- What the loop over the providers gives. -/
structure Assigned (providerHosts : BTreeMap String (List Text))
    (owners : BTreeMap String (List String)) (providerModes : BTreeMap String ProxyProviderMode)
    (assignments : HostAssignments) : Prop where
  sound : ∀ host m, modeOf assignments host = some m → ∃ provider hosts,
    providerModes.get provider = some m ∧ providerHosts.get provider = some hosts ∧
      (∃ text ∈ hosts, canonicalProxyHost text = .ok host) ∧
      ((owners.get host).getD []).length ≤ 1
  complete : ∀ provider m hosts, (provider, m) ∈ providerModes →
    providerHosts.get provider = some hosts → ∀ text ∈ hosts, ∀ host,
      canonicalProxyHost text = .ok host → (modeOf assignments host).isSome = true
  sorted : BTreeMap.Sorted assignments

theorem get_concat_of_some {modes : BTreeMap String ProxyProviderMode}
    {entry : String × ProxyProviderMode} {m : ProxyProviderMode} (h : modes.get provider = some m) :
    (modes ++ [entry]).get provider = some m := by
  rw [BTreeMap.get_append, h]
  rfl

theorem assigned_of_ok {options : ForwardProxyOptions}
    {providerModes : BTreeMap String ProxyProviderMode}
    {result : HostAssignments × List ProjectionWarning}
    (h : hostAssignments options owners providerModes = .ok result) :
    Assigned options.providerHosts owners providerModes result.1 := by
  refine Except.foldlM_induction
    (fun modes (state : HostAssignments × List ProjectionWarning) =>
      Assigned options.providerHosts owners modes state.1)
    ⟨(fun _ _ h => by cases h), (fun _ _ _ h => nomatch h), BTreeMap.sorted_nil⟩ ?_ h
  intro modes entry state state' _ hstate hstep
  obtain ⟨provider, mode⟩ := entry
  dsimp only at hstep
  cases hhosts : options.providerHosts.get provider with
  | none =>
    rw [hhosts] at hstep
    obtain rfl := Except.ok.inj hstep
    refine ⟨?_, ?_, hstate.sorted⟩
    · intro host m hm
      obtain ⟨p, hosts, hmode, hrest⟩ := hstate.sound host m hm
      exact ⟨p, hosts, get_concat_of_some hmode, hrest⟩
    · intro p m hosts hmem hp
      rcases List.mem_append.mp hmem with hmem | hmem
      · exact hstate.complete p m hosts hmem hp
      · obtain ⟨rfl, rfl⟩ := Prod.mk.inj (List.mem_singleton.mp hmem)
        rw [hhosts] at hp
        cases hp
  | some texts =>
    rw [hhosts] at hstep
    obtain ⟨after, hafter, hpure⟩ := Except.bind_eq_ok.mp hstep
    obtain rfl := Except.ok.inj hpure
    have hassigned := assignedFrom hafter
    refine ⟨?_, ?_, hassigned.sorted hstate.sorted⟩
    · intro host m hm
      rcases hassigned.sound host m hm with hold | ⟨hnone, rfl, ⟨text, htext, hcanonical⟩, hfew⟩
      · obtain ⟨p, hosts, hmode, hrest⟩ := hstate.sound host m hold
        exact ⟨p, hosts, get_concat_of_some hmode, hrest⟩
      · refine ⟨provider, texts, ?_, hhosts, ⟨text, htext, hcanonical⟩, hfew⟩
        cases hearlier : BTreeMap.get modes provider with
        | none => rw [BTreeMap.get_append, hearlier, BTreeMap.get_cons, if_pos rfl]; rfl
        | some m' =>
          -- an earlier entry of the provider would have assigned the host
          have hsome := hstate.complete provider m' texts (BTreeMap.mem_of_get hearlier) hhosts text
            htext host hcanonical
          rw [hnone] at hsome
          cases hsome
    · intro p m hosts hmem hp text htext host hcanonical
      rcases List.mem_append.mp hmem with hmem | hmem
      · obtain ⟨m', hm'⟩ := Option.isSome_iff_exists.mp
          (hstate.complete p m hosts hmem hp text htext host hcanonical)
        rw [hassigned.kept host m' hm']
        rfl
      · obtain ⟨rfl, rfl⟩ := Prod.mk.inj (List.mem_singleton.mp hmem)
        obtain rfl := Option.some.inj (hhosts.symm.trans hp)
        exact hassigned.complete text htext host hcanonical

/-- **A host with a mode** has it from the one provider that owns it. -/
theorem assigned_spec {providerHosts : BTreeMap String (List Text)}
    {providerModes : BTreeMap String ProxyProviderMode} {assignments : HostAssignments}
    (howners : providerHostOwners providerHosts = .ok owners)
    (h : Assigned providerHosts owners providerModes assignments) {host : String}
    {m : ProxyProviderMode} (hm : modeOf assignments host = some m) :
    ∃ provider, providerModes.get provider = some m ∧ Owns providerHosts provider host ∧
      ∀ other, Owns providerHosts other host → other = provider := by
  obtain ⟨provider, hosts, hmode, hhosts, htext, hfew⟩ := h.sound host m hm
  have howns : Owns providerHosts provider host := ⟨hosts, BTreeMap.mem_of_get hhosts, htext⟩
  refine ⟨provider, hmode, howns, fun other hother => ?_⟩
  have hmem := mem_owners howners howns
  have hmem' := mem_owners howners hother
  generalize (owners.get host).getD [] = names at hfew hmem hmem'
  match names with
  | [] => cases hmem
  | [name] => rw [List.mem_singleton.mp hmem, List.mem_singleton.mp hmem']
  | _ :: _ :: _ => simp at hfew

end Tokn.Legacy
