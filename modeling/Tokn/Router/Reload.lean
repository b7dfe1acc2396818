import Tokn.Lib.Except
import Tokn.Lib.Locked
import Tokn.Policy.Topology

/-!
# Reloading a running gateway

`crates/router/src/v2/mod.rs`: a gateway runs one generation of states, and a reload replaces all
of it. What is bound to a socket stays, so a replacement has to have the same listeners, and these
the same settings. A handle has the id of a listener only, and asks for its state each time.

That a replacement is compatible is checked twice: of the plan before its states are built
(`validateReload`), and of the states (`ensureReloadCompatible`).
-/

namespace Tokn.Router

open Tokn.Policy
open Tokn.Except (rejectIf)

/-! ## States -/

structure RequestLimitsPlan where
  maxWireBytes : Nat
  maxDecodedBytes : Nat
  deriving DecidableEq

structure HttpClientOptions where
  url : Option String
  noProxy : List String
  system : Bool
  deriving DecidableEq

/-- The state of a listener for API clients, as far as a reload reads it. -/
structure AppState (Addr : Type) where
  listenerId : String
  listener : LlmApiListenerPlan Addr
  requestLimits : RequestLimitsPlan

/-- The state of a proxy, as far as a reload reads it. -/
structure ForwardProxyState (Addr : Type) where
  listenerId : String
  listener : ForwardProxyListenerPlan Addr
  outbound : HttpClientOptions
  requestLimits : RequestLimitsPlan

structure RuntimeStates (Addr : Type) where
  llmApi : List (AppState Addr) := []
  forwardProxy : List (ForwardProxyState Addr) := []

/-- What the process runs from one reload to the next. No process lives for so many reloads that
the number leaves its 64 bits. -/
structure RuntimeGeneration (Addr : Type) where
  number : Nat
  accounts : Nat
  llmApi : BTreeMap String (AppState Addr)
  forwardProxy : BTreeMap String (ForwardProxyState Addr)

def RuntimeGeneration.new {Addr : Type} (number accounts : Nat) (states : RuntimeStates Addr) :
    RuntimeGeneration Addr where
  number := number
  accounts := accounts
  llmApi := BTreeMap.extend [] (states.llmApi.map fun state => (state.listenerId, state))
  forwardProxy := BTreeMap.extend [] (states.forwardProxy.map fun state => (state.listenerId, state))

/-! ## Reloads -/

inductive ReloadError where
  | notConfigured
  | restartRequired (message : String)
  | invalid (message : String)
  deriving DecidableEq

/-- Why a call does not return a value: an error, or a panic. -/
inductive Halt where
  | reload (error : ReloadError)
  | panic
  deriving DecidableEq

structure ReloadReport where
  status : String := "reloaded"
  generation : Nat
  accounts : Nat
  deriving DecidableEq

/-- `map[key]`, which panics if there is no such key. -/
def index {ν : Type} (map : BTreeMap String ν) (key : String) : Except Halt ν :=
  match map.get key with
  | some value => .ok value
  | none => .error .panic

def restartRequired (listenerId message : String) : Halt :=
  .reload (.restartRequired s!"listener '{listenerId}' {message}")

def httpClientOptionsEq (left right : HttpClientOptions) : Bool :=
  left.url = right.url && left.noProxy = right.noProxy && left.system = right.system

section

variable {Addr : Type} [DecidableEq Addr]

/-- What `ensure_reload_compatible` asks of an API listener. -/
def ensureApi (replacements : BTreeMap String (AppState Addr)) (entry : String × AppState Addr) :
    Except Halt Unit := do
  let replacement ← index replacements entry.1
  rejectIf (entry.2.listener.bind ≠ replacement.listener.bind)
    (restartRequired entry.1 "bind address changed")
  rejectIf (entry.2.listener.clientAuth ≠ replacement.listener.clientAuth)
    (restartRequired entry.1 "client authentication changed")
  rejectIf (entry.2.requestLimits ≠ replacement.requestLimits)
    (restartRequired entry.1 "request limits changed")

/-- What `ensure_reload_compatible` asks of a proxy. -/
def ensureForwardProxy (replacements : BTreeMap String (ForwardProxyState Addr))
    (entry : String × ForwardProxyState Addr) : Except Halt Unit := do
  let replacement ← index replacements entry.1
  rejectIf (entry.2.listener.bind ≠ replacement.listener.bind)
    (restartRequired entry.1 "bind address changed")
  rejectIf (entry.2.listener.clientAuth ≠ replacement.listener.clientAuth)
    (restartRequired entry.1 "client authentication changed")
  rejectIf (entry.2.listener.tls ≠ replacement.listener.tls)
    (restartRequired entry.1 "TLS CA configuration changed")
  rejectIf (!httpClientOptionsEq entry.2.outbound replacement.outbound)
    (restartRequired entry.1 "outbound transport changed")
  rejectIf (entry.2.requestLimits ≠ replacement.requestLimits)
    (restartRequired entry.1 "request limits changed")

def ensureReloadCompatible (current replacement : RuntimeGeneration Addr) : Except Halt Unit := do
  rejectIf (current.llmApi.map Prod.fst ≠ replacement.llmApi.map Prod.fst)
    (.reload (.restartRequired "LLM API listener ids changed"))
  rejectIf (current.forwardProxy.map Prod.fst ≠ replacement.forwardProxy.map Prod.fst)
    (.reload (.restartRequired "forward-proxy listener ids changed"))
  current.llmApi.forM (ensureApi replacement.llmApi)
  current.forwardProxy.forM (ensureForwardProxy replacement.forwardProxy)

/-- `LiveRuntime::replace`, with the lock held: the generation that is stored, and the report. -/
def replace (current : RuntimeGeneration Addr) (request : RuntimeStates Addr × Nat) :
    Except Halt (RuntimeGeneration Addr × ReloadReport) := do
  let replacement := RuntimeGeneration.new (current.number + 1) request.2 request.1
  ensureReloadCompatible current replacement
  return (replacement, { generation := replacement.number, accounts := replacement.accounts })

/-- What `validate_reload` asks of a listener of the plan. -/
def validateListener (current : RuntimeGeneration Addr) (entry : String × ListenerPlan Addr) :
    Except Halt Unit :=
  match entry.2 with
  | .llmApi replacement => do
    let existing ← index current.llmApi entry.1
    rejectIf (existing.listener.bind ≠ replacement.bind)
      (restartRequired entry.1 "bind address changed")
    rejectIf (existing.listener.clientAuth ≠ replacement.clientAuth)
      (restartRequired entry.1 "client authentication changed")
  | .forwardProxy replacement => do
    let existing ← index current.forwardProxy entry.1
    rejectIf (existing.listener.bind ≠ replacement.bind)
      (restartRequired entry.1 "bind address changed")
    rejectIf (existing.listener.clientAuth ≠ replacement.clientAuth)
      (restartRequired entry.1 "client authentication changed")
    rejectIf (existing.listener.tls ≠ replacement.tls)
      (restartRequired entry.1 "TLS CA configuration changed")

def apiListeners (listeners : BTreeMap String (ListenerPlan Addr)) :
    BTreeMap String (LlmApiListenerPlan Addr) :=
  listeners.filterMap fun entry =>
    match entry.2 with
    | .llmApi listener => some (entry.1, listener)
    | .forwardProxy _ => none

def proxyListeners (listeners : BTreeMap String (ListenerPlan Addr)) :
    BTreeMap String (ForwardProxyListenerPlan Addr) :=
  listeners.filterMap fun entry =>
    match entry.2 with
    | .llmApi _ => none
    | .forwardProxy listener => some (entry.1, listener)

def validateReload (current : RuntimeGeneration Addr) (plan : GatewayPlan Addr) :
    Except Halt Unit := do
  rejectIf ((current.llmApi.map Prod.fst).toFinset ≠
      ((apiListeners plan.listeners).map Prod.fst).toFinset)
    (.reload (.restartRequired "LLM API listener ids or kinds changed"))
  rejectIf ((current.forwardProxy.map Prod.fst).toFinset ≠
      ((proxyListeners plan.listeners).map Prod.fst).toFinset)
    (.reload (.restartRequired "forward-proxy listener ids or kinds changed"))
  plan.listeners.forM (validateListener current)

/-! ## Building states -/

/-- `ServicePlan`, as far as the states read it. -/
structure ServicePlan where
  outbound : HttpClientOptions
  requestLimits : RequestLimitsPlan

/-- The CA of a proxy that has one, which may fail to load. -/
def loadProxyCa (loadCa : TlsPlan → Except String Unit) : Option TlsPlan → Except String Unit
  | some tls => loadCa tls
  | none => .ok ()

/-- One listener of `build_runtime_states_with_service`. -/
def buildListener (service : ServicePlan) (loadCa : TlsPlan → Except String Unit)
    (states : RuntimeStates Addr) (entry : String × ListenerPlan Addr) :
    Except String (RuntimeStates Addr) :=
  match entry.2 with
  | .llmApi listener =>
    .ok { states with llmApi := states.llmApi ++
            [{ listenerId := entry.1, listener := listener,
               requestLimits := service.requestLimits }] }
  | .forwardProxy listener => do
    loadProxyCa loadCa listener.tls
    return { states with forwardProxy := states.forwardProxy ++
               [{ listenerId := entry.1, listener := listener, outbound := service.outbound,
                  requestLimits := service.requestLimits }] }

/-- `build_runtime_states_with_service`. Linking the profiles may fail. -/
def buildRuntimeStates (plan : GatewayPlan Addr) (service : ServicePlan)
    (linked : Except String Unit) (loadCa : TlsPlan → Except String Unit) :
    Except String (RuntimeStates Addr) := do
  linked
  plan.listeners.foldlM (buildListener service loadCa) {}

/-! ## Handles -/

/-- `LiveRuntime::llm_api_listeners`: a handle is the id of its listener. -/
def llmApiListeners (current : RuntimeGeneration Addr) : List String := current.llmApi.map Prod.fst

def forwardProxyListeners (current : RuntimeGeneration Addr) : List String :=
  current.forwardProxy.map Prod.fst

/-- `LiveRuntime::current_api`, which expects the listener to be there. -/
def currentApi (current : RuntimeGeneration Addr) (listenerId : String) :
    Except Halt (AppState Addr) :=
  index current.llmApi listenerId

def currentForwardProxy (current : RuntimeGeneration Addr) (listenerId : String) :
    Except Halt (ForwardProxyState Addr) :=
  index current.forwardProxy listenerId

end

end Tokn.Router
