import Tokn.Lib.BTreeMap
import Tokn.Policy.Authority

/-!
# Listeners and their rules

`crates/policy/src/topology.rs`: what a listener is bound to, and the rules that decide what
happens to the requests it takes. Host patterns cover each other only as far as the hosts they
select do (`HostPattern.matches_of_subsumes`).
-/

namespace Tokn.Policy

/-! ## Identifiers -/

structure InvalidIdentifier where
  kind : String
  value : String
  deriving DecidableEq

/-- The loop of `parse_identifier`, after a separator or not. A text may start with a separator
no more than it may have two in a row, or end with one. -/
def validIdentifier : Bool → List Char → Bool
  | previousWasSeparator, [] => !previousWasSeparator
  | previousWasSeparator, c :: text =>
    if c.isLower || c.isDigit then validIdentifier false text
    else if ['.', '-', '_'].contains c && !previousWasSeparator then validIdentifier true text
    else false

def parseIdentifier (kind value : String) : Except InvalidIdentifier String :=
  if validIdentifier true value.toList then .ok value else .error { kind := kind, value := value }

/-! ## Host patterns -/

inductive HostPattern where
  | exact (host : CanonicalHost)
  | subdomainsOf (suffix : CanonicalHost)
  deriving DecidableEq

namespace HostPattern

/-- `subdomains_of`: the suffix has to be a DNS name. -/
def ofSuffix (suffix : CanonicalHost) : Option HostPattern :=
  if suffix.isDns then some (.subdomainsOf suffix) else none

def «matches» : HostPattern → CanonicalHost → Bool
  | .exact expected, host => host = expected
  | .subdomainsOf suffix, host => host.isStrictSubdomainOf suffix

/-- `subsumes`: every host the other pattern selects is selected by this one. -/
def subsumes : HostPattern → HostPattern → Bool
  | .exact left, .exact right => left = right
  | .subdomainsOf suffix, .exact host => host.isStrictSubdomainOf suffix
  | .subdomainsOf left, .subdomainsOf right => left = right || right.isStrictSubdomainOf left
  | .exact _, .subdomainsOf _ => false

end HostPattern

/-- What a strict subdomain is: some labels, a dot, and the other name. -/
theorem CanonicalHost.isStrictSubdomainOf_iff {host suffix : CanonicalHost} :
    host.isStrictSubdomainOf suffix = true ↔
      host.kind = .dns ∧ suffix.kind = .dns ∧
        ∃ labels, labels ≠ [] ∧ host.value = labels ++ '.' :: suffix.value := by
  rw [isStrictSubdomainOf, isDns, isDns]
  simp only [Bool.and_eq_true, decide_eq_true_eq, and_assoc]
  refine and_congr_right fun _ => and_congr_right fun _ => ?_
  constructor
  · intro h
    obtain ⟨hsuffix, hdot, hlen⟩ := h
    obtain ⟨pre, hpre⟩ := List.isSuffixOf_iff_suffix.mp hsuffix
    rw [← hpre, List.length_append, Nat.add_sub_cancel, List.take_left'  rfl] at hdot hlen
    obtain ⟨labels, rfl⟩ := List.getLast?_eq_some_iff.mp hdot
    refine ⟨labels, ?_, ?_⟩
    · intro hnil
      rw [hnil] at hlen
      exact absurd hlen (by decide)
    · rw [← hpre, List.append_assoc, List.singleton_append]
  · intro h
    obtain ⟨labels, hne, hvalue⟩ := h
    have hsplit : host.value = (labels ++ ['.']) ++ suffix.value := by
      rw [hvalue, List.append_assoc, List.singleton_append]
    have hlen : 0 < labels.length := List.length_pos_iff.mpr hne
    refine ⟨List.isSuffixOf_iff_suffix.mpr ⟨_, hsplit.symm⟩, ?_, ?_⟩
    · rw [hsplit, List.length_append, Nat.add_sub_cancel, List.take_left' rfl]
      exact List.getLast?_concat ..
    · rw [hsplit, List.length_append, Nat.add_sub_cancel, List.take_left' rfl, List.length_append,
        List.length_singleton]
      omega

theorem CanonicalHost.isStrictSubdomainOf_trans {a b c : CanonicalHost}
    (hab : a.isStrictSubdomainOf b = true) (hbc : b.isStrictSubdomainOf c = true) :
    a.isStrictSubdomainOf c = true := by
  obtain ⟨ha, -, labels, hne, hvalue⟩ := isStrictSubdomainOf_iff.mp hab
  obtain ⟨-, hc, labels', -, hvalue'⟩ := isStrictSubdomainOf_iff.mp hbc
  refine isStrictSubdomainOf_iff.mpr ⟨ha, hc, labels ++ '.' :: labels', ?_, ?_⟩
  · exact List.append_ne_nil_of_left_ne_nil hne _
  · rw [hvalue, hvalue', List.append_assoc, List.cons_append]

/-- **A pattern that covers another one selects all hosts that the other one selects.** -/
theorem HostPattern.matches_of_subsumes {a b : HostPattern} {host : CanonicalHost}
    (h : a.subsumes b = true) (hb : b.matches host = true) : a.matches host = true := by
  cases a with
  | exact left =>
    cases b with
    | exact right =>
      rw [of_decide_eq_true h]
      exact hb
    | subdomainsOf right => cases h
  | subdomainsOf left =>
    cases b with
    | exact right =>
      rw [of_decide_eq_true hb]
      exact h
    | subdomainsOf right =>
      rw [subsumes, Bool.or_eq_true, decide_eq_true_eq] at h
      cases h with
      | inl heq =>
        rw [heq]
        exact hb
      | inr hstrict => exact CanonicalHost.isStrictSubdomainOf_trans hb hstrict

/-! ## Matchers -/

/-- A text of a request, as the list of its characters. -/
abbrev Text := List Char

/-- Dimensions are combined with "and", the values of one with "or". -/
structure HttpMatch where
  hosts : List HostPattern
  pathPrefixes : List Text
  methods : List Text
  operations : List String
  deriving DecidableEq

/-- `HttpMatch::new`: something has to be constrained. -/
def HttpMatch.new (hosts : List HostPattern) (pathPrefixes methods : List Text)
    (operations : List String) : Option HttpMatch :=
  if hosts.isEmpty && pathPrefixes.isEmpty && methods.isEmpty && operations.isEmpty then none
  else
    some { hosts := hosts, pathPrefixes := pathPrefixes, methods := methods,
           operations := operations }

structure ConnectMatch where
  hosts : List HostPattern
  ports : List UInt16
  deriving DecidableEq

def ConnectMatch.new (hosts : List HostPattern) (ports : List UInt16) : Option ConnectMatch :=
  if hosts.isEmpty && ports.isEmpty then none else some { hosts := hosts, ports := ports }

/-! ## Plans -/

inductive ClientAuthPlan where
  | none
  | localKeys
  deriving DecidableEq

inductive HttpAction where
  | route (profile : String)
  | reject
  deriving DecidableEq

inductive ConnectAction where
  | intercept
  | tunnel
  | reject
  deriving DecidableEq

structure HttpBindingPlan where
  id : String
  matcher : HttpMatch
  action : HttpAction
  deriving DecidableEq

structure ConnectRulePlan where
  id : String
  matcher : ConnectMatch
  action : ConnectAction
  deriving DecidableEq

structure TlsPlan where
  caDir : String
  deriving DecidableEq

structure CorsPlan where
  allowedOrigins : List String := []
  allowLocalhost : Bool := false
  deriving DecidableEq

/-- A listener for API clients. `Addr` is the type of socket addresses. -/
structure LlmApiListenerPlan (Addr : Type) where
  bind : Addr
  clientAuth : ClientAuthPlan
  cors : CorsPlan
  deriving DecidableEq

/-- A proxy. The first binding that matches a request decides it, and the first rule that matches a
CONNECT. -/
structure ForwardProxyListenerPlan (Addr : Type) where
  bind : Addr
  clientAuth : ClientAuthPlan
  requestBodyMaxBytes : Nat
  httpBindings : List HttpBindingPlan
  defaultHttpAction : HttpAction
  connectRules : List ConnectRulePlan
  defaultConnectAction : ConnectAction
  tls : Option TlsPlan
  deriving DecidableEq

inductive ListenerPlan (Addr : Type) where
  | llmApi (plan : LlmApiListenerPlan Addr)
  | forwardProxy (plan : ForwardProxyListenerPlan Addr)
  deriving DecidableEq

/-- A compiled configuration, as far as its listeners go. -/
structure GatewayPlan (Addr : Type) where
  listeners : BTreeMap String (ListenerPlan Addr)
  sorted : BTreeMap.Sorted listeners

end Tokn.Policy
