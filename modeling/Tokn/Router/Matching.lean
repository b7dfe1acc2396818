import Tokn.Convert.Ir
import Tokn.Lib.Dimension
import Tokn.Policy.Topology

/-!
# What a forward proxy does with a request

`crates/router/src/v2/mod.rs`: the first HTTP binding that matches a request decides it, and the
first CONNECT rule that matches a destination. A request has the operation that its method and its
path say.
-/

namespace Tokn.Router

open Tokn.Policy
open Tokn.Convert (Endpoint)

/-! ## Matching -/

def eqIgnoreAsciiCase (a b : Text) : Bool := Ascii.lower a = Ascii.lower b

def httpMatches (matcher : HttpMatch) (host : Option CanonicalHost) (method path : Text)
    (operation : Option String) : Bool :=
  (matcher.hosts.isEmpty ||
      host.any fun host => matcher.hosts.any fun pattern => pattern.matches host) &&
    (matcher.pathPrefixes.isEmpty || matcher.pathPrefixes.any fun pre => pre.isPrefixOf path) &&
    (matcher.methods.isEmpty ||
      matcher.methods.any fun candidate => eqIgnoreAsciiCase candidate method) &&
    (matcher.operations.isEmpty ||
      operation.any fun operation =>
        matcher.operations.any fun candidate => candidate == operation)

/-- What `connect_action` asks of a rule. -/
def connectMatches (matcher : ConnectMatch) (host : CanonicalHost) (port : UInt16) : Bool :=
  (matcher.hosts.isEmpty || matcher.hosts.any fun pattern => pattern.matches host) &&
    (matcher.ports.isEmpty || matcher.ports.contains port)

def connectAction {Addr : Type} (listener : ForwardProxyListenerPlan Addr) (host : CanonicalHost)
    (port : UInt16) : ConnectAction :=
  ((listener.connectRules.find? fun rule => connectMatches rule.matcher host port).map
    (·.action)).getD listener.defaultConnectAction

/-- `Endpoint::infer_from`. -/
def inferEndpoint (path : Text) : Option Endpoint :=
  if "/chat/completions".toList.isSuffixOf path then some .chatCompletions
  else if "/responses".toList.isSuffixOf path then some .responses
  else if "/messages".toList.isSuffixOf path then some .messages
  else none

def operationName : Endpoint → String
  | .chatCompletions => "chat_completions"
  | .responses => "responses"
  | .messages => "messages"

/-- `proxy_operation`, by its name. -/
def proxyOperation (method path : Text) : Option String :=
  if method = "POST".toList then (inferEndpoint path).map operationName else none

/-- The binding that decides a request, in `select_profile`. -/
def selectBinding {Addr : Type} (listener : ForwardProxyListenerPlan Addr) (host : CanonicalHost)
    (method path : Text) : Option HttpBindingPlan :=
  listener.httpBindings.find? fun binding =>
    httpMatches binding.matcher (some host) method path (proxyOperation method path)

/-- The action that `select_profile` takes. -/
def selectAction {Addr : Type} (listener : ForwardProxyListenerPlan Addr) (host : CanonicalHost)
    (method path : Text) : HttpAction :=
  ((selectBinding listener host method path).map (·.action)).getD listener.defaultHttpAction

/-! ## Matching by dimensions -/

/-- The host is known and selected. -/
def hostMeets (pattern : HostPattern) (host : Option CanonicalHost) : Bool :=
  host.any pattern.matches

/-- The operation is known and this one. -/
def operationMeets (candidate : String) (operation : Option String) : Bool :=
  operation.any fun operation => candidate == operation

theorem admits_option {α β : Type} (meets : α → β → Bool) (alternatives : List α) (x : Option β) :
    (alternatives.isEmpty || x.any fun x => alternatives.any fun a => meets a x) =
      Dimension.admits (fun a x => x.any (meets a)) alternatives x := by
  cases x with
  | none =>
    cases alternatives with
    | nil => rfl
    | cons a alternatives =>
      rw [Dimension.admits]
      exact (congrArg _ (List.any_eq_false.mpr fun _ _ => Bool.false_ne_true)).symm
  | some x => rfl

theorem httpMatches_eq (matcher : HttpMatch) (host : Option CanonicalHost) (method path : Text)
    (operation : Option String) :
    httpMatches matcher host method path operation =
      (Dimension.admits hostMeets matcher.hosts host &&
        Dimension.admits List.isPrefixOf matcher.pathPrefixes path &&
        Dimension.admits eqIgnoreAsciiCase matcher.methods method &&
        Dimension.admits operationMeets matcher.operations operation) := by
  rw [httpMatches, admits_option, admits_option]
  rfl

theorem httpMatches_iff {matcher : HttpMatch} {host : Option CanonicalHost} {method path : Text}
    {operation : Option String} :
    httpMatches matcher host method path operation = true ↔
      Dimension.admits hostMeets matcher.hosts host = true ∧
        Dimension.admits List.isPrefixOf matcher.pathPrefixes path = true ∧
        Dimension.admits eqIgnoreAsciiCase matcher.methods method = true ∧
        Dimension.admits operationMeets matcher.operations operation = true := by
  rw [httpMatches_eq, Bool.and_eq_true, Bool.and_eq_true, Bool.and_eq_true, and_assoc, and_assoc]

theorem connectMatches_iff {matcher : ConnectMatch} {host : CanonicalHost} {port : UInt16} :
    connectMatches matcher host port = true ↔
      Dimension.admits HostPattern.matches matcher.hosts host = true ∧
        Dimension.admits (· == ·) matcher.ports port = true := by
  rw [connectMatches, Bool.and_eq_true, Dimension.admits, Dimension.admits, List.contains_eq_any_beq]
  refine and_congr_right fun _ => ?_
  rw [Bool.or_eq_true, Bool.or_eq_true, List.any_eq_true, List.any_eq_true]
  refine or_congr_right (exists_congr fun candidate => and_congr_right fun _ => ?_)
  rw [beq_iff_eq, beq_iff_eq, eq_comm]

end Tokn.Router
