import Tokn.Config.Raw
import Tokn.Lib.Dimension
import Tokn.Lib.Except

/-!
# Compiling listeners

`crates/config/src/v2/compile/listeners.rs`. The compiler makes a plan of every listener, and gives
each the HTTP bindings and the CONNECT rules that name it, in their order. It rejects a rule that
an earlier rule of the listener covers, or the earlier rules together.
-/

namespace Tokn.Config

open Tokn.Policy
open Tokn.Except (rejectIf)

/-! ## The environment -/

/-- A parsed URL, as far as the compiler reads it. -/
structure Url where
  scheme : String
  hasHost : Bool
  username : String
  hasPassword : Bool
  path : String
  hasQuery : Bool
  hasFragment : Bool
  asciiOrigin : String

/-- What the compiler takes from the standard library and from the URL parser. -/
structure Syntax extends IpSyntax where
  SocketAddr : Type
  parseSocketAddr : String → Option SocketAddr
  printSocketAddr : SocketAddr → String
  port : SocketAddr → Nat
  isLoopback : SocketAddr → Bool
  isUnspecified : SocketAddr → Bool
  sameIp : SocketAddr → SocketAddr → Bool
  isAbsolute : String → Bool
  /-- A relative path, taken from the directory of the configuration file. -/
  joinToParent : String → String → String
  parseUrl : String → Except String Url

/-! ## Covering matchers -/

/-- The key of a matcher: the matcher itself. The source sorts the lists, but asks only for what is
in them. -/
abbrev HttpMatchKey := HttpMatch

abbrev ConnectMatchKey := ConnectMatch

/-- A prefix covers the longer ones. -/
def pathCovers (pre path : Text) : Bool := pre.isPrefixOf path

namespace HttpMatchKey

def subsumes (self other : HttpMatchKey) : Bool :=
  Dimension.subsumes HostPattern.subsumes self.hosts other.hosts &&
    Dimension.subsumes pathCovers self.pathPrefixes other.pathPrefixes &&
    Dimension.subsumes (· == ·) self.methods other.methods &&
    Dimension.subsumes (· == ·) self.operations other.operations

def subsumesAtom (self : HttpMatchKey) (host : Option HostPattern) (pathPrefix method : Option Text)
    (operation : Option String) : Bool :=
  Dimension.subsumesAtom HostPattern.subsumes self.hosts host &&
    Dimension.subsumesAtom pathCovers self.pathPrefixes pathPrefix &&
    Dimension.subsumesAtom (· == ·) self.methods method &&
    Dimension.subsumesAtom (· == ·) self.operations operation

end HttpMatchKey

/-- `http_matchers_subsume_union`: every atom of the matcher is covered by an earlier one. -/
def httpMatchersSubsumeUnion (prior : List (HttpMatchKey × String)) (matcher : HttpMatchKey) :
    Bool :=
  Dimension.allAtoms matcher.hosts fun host =>
    Dimension.allAtoms matcher.pathPrefixes fun pathPrefix =>
      Dimension.allAtoms matcher.methods fun method =>
        Dimension.allAtoms matcher.operations fun operation =>
          prior.any fun candidate =>
            HttpMatchKey.subsumesAtom candidate.1 host pathPrefix method operation

namespace ConnectMatchKey

def subsumes (self other : ConnectMatchKey) : Bool :=
  Dimension.subsumes HostPattern.subsumes self.hosts other.hosts &&
    Dimension.subsumes (· == ·) self.ports other.ports

def subsumesAtom (self : ConnectMatchKey) (host : Option HostPattern) (port : Option UInt16) : Bool :=
  Dimension.subsumesAtom HostPattern.subsumes self.hosts host &&
    Dimension.subsumesAtom (· == ·) self.ports port

end ConnectMatchKey

def connectMatchersSubsumeUnion (prior : List (ConnectMatchKey × String))
    (matcher : ConnectMatchKey) : Bool :=
  Dimension.allAtoms matcher.hosts fun host =>
    Dimension.allAtoms matcher.ports fun port =>
      prior.any fun candidate => ConnectMatchKey.subsumesAtom candidate.1 host port

/-! ## Dimensions -/

/-- One more alternative of a dimension, which none of the claimed ones may equal, cover or be
covered by. -/
def claim {α : Type} [DecidableEq α] (covers : α → α → Bool) (location : String)
    (claimed : List (String × α)) (raw : String) (value : α) :
    Except CompileError (List (String × α)) :=
  match claimed.findSome? fun prior =>
      if prior.2 = value then some (InvalidValue.duplicate raw)
      else if covers prior.2 value then some (.redundant raw prior.1)
      else if covers value prior.2 then some (.redundant prior.1 raw)
      else none with
  | some reason => .error (.invalidValue location reason)
  | none => .ok (claimed ++ [(raw, value)])

section

variable (env : Syntax)

def compileHost (raw location : String) : Except CompileError HostPattern :=
  match raw.toList with
  | '*' :: '.' :: rawSuffix =>
    if rawSuffix.contains '*' then .error (.invalidValue location .wildcardTwice)
    else
      match CanonicalHost.fromStr env.toIpSyntax rawSuffix with
      | .error error => .error (.invalidValue location (.invalidHost error))
      | .ok suffix =>
        match HostPattern.ofSuffix suffix with
        | none => .error (.invalidValue location .invalidSubdomainSuffix)
        | some pattern => .ok pattern
  | raw =>
    if raw.contains '*' then .error (.invalidValue location .wildcardNotPrefix)
    else
      match CanonicalHost.fromStr env.toIpSyntax raw with
      | .error error => .error (.invalidValue location (.invalidHost error))
      | .ok host => .ok (.exact host)

def compileHosts (rawHosts : List String) (location : String) :
    Except CompileError (List HostPattern) := do
  let claimed ← rawHosts.foldlM (fun claimed raw => do
    let pattern ← compileHost env raw location
    claim HostPattern.subsumes location claimed raw pattern) []
  return claimed.map Prod.snd

end

def isHexDigit (c : Char) : Bool :=
  c.isDigit || (97 ≤ c.toNat && c.toNat ≤ 102) || (65 ≤ c.toNat && c.toNat ≤ 70)

def isRfc3986Pchar (c : Char) : Bool := c.isAlphanum || "-._~!$&'()*+,;=:@".toList.contains c

/-- The loop of `canonical_path_prefix`: escapes get upper case digits. -/
def canonicalPathLoop : Text → Except InvalidValue Text
  | [] => .ok []
  | c :: rest =>
    if c = '%' then
      match rest with
      | a :: b :: rest =>
        if isHexDigit a && isHexDigit b then do
          let canonical ← canonicalPathLoop rest
          return '%' :: a.toUpper :: b.toUpper :: canonical
        else .error .pathEscape
      | _ => .error .pathEscape
    else if c ≠ '/' && !isRfc3986Pchar c then .error .pathCharacter
    else do
      let canonical ← canonicalPathLoop rest
      return c :: canonical

/-- The number of dots of a text that has nothing else. -/
def countDots : Text → Option Nat
  | [] => some 0
  | '.' :: rest => (countDots rest).map (· + 1)
  | '%' :: '2' :: 'E' :: rest => (countDots rest).map (· + 1)
  | _ => none

def isDotSegment (segment : Text) : Bool :=
  countDots segment = some 1 || countDots segment = some 2

def canonicalPathPrefix (raw : Text) : Except InvalidValue Text :=
  if raw.head? ≠ some '/' then .error .pathNotAbsolute
  else if raw = ['/'] then .error .rootPath
  else if raw.any nonAscii then .error .pathNotAscii
  else do
    let canonical ← canonicalPathLoop raw
    rejectIf ((canonical.splitOn '/').any isDotSegment) .dotSegment
    return canonical

/-- A fallible value with the location of its errors. -/
def located {α : Type} (location : String) : Except InvalidValue α → Except CompileError α
  | .ok a => .ok a
  | .error reason => .error (.invalidValue location reason)

def compilePathPrefixes (rawPaths : List String) (bindingId : String) :
    Except CompileError (List Text) := do
  let location := s!"bindings.{bindingId}.path_prefixes"
  let claimed ← rawPaths.foldlM (fun claimed raw => do
    let path ← located location (canonicalPathPrefix raw.toList)
    claim pathCovers location claimed raw path) []
  return claimed.map Prod.snd

/-- `is_http_token_byte`. -/
def isHttpTokenChar (c : Char) : Bool := c.isAlphanum || "!#$%&'*+-.^_`|~".toList.contains c

/-- What `compile_methods` asks of a method. -/
def checkMethod (method : Text) : Except InvalidValue Text :=
  if method.isEmpty || !method.all isHttpTokenChar then .error .methodNotToken
  else if method.contains '*' then .error .methodWildcard
  else if method.any Char.isLower then .error .methodLowercase
  else .ok method

def compileMethods (rawMethods : List String) (bindingId : String) :
    Except CompileError (List Text) := do
  let location := s!"bindings.{bindingId}.methods"
  rawMethods.foldlM (fun claimed raw => do
    let method ← located location (checkMethod raw.toList)
    rejectIf (claimed.contains method) (.invalidValue location (.duplicate raw))
    return claimed ++ [method]) []

def compileOperations (rawOperations : List String) (bindingId : String) :
    Except CompileError (List String) := do
  let location := s!"bindings.{bindingId}.operations"
  rawOperations.foldlM (fun claimed raw => do
    let operation ← parseId "operation" "operation selector" raw
    rejectIf (claimed.contains operation) (.invalidValue location (.duplicate raw))
    return claimed ++ [operation]) []

/-- The ports of `compile_connect_match`. -/
def compilePorts (rawPorts : List UInt16) (ruleId : String) : Except CompileError (List UInt16) := do
  let location := s!"connect_rules.{ruleId}.ports"
  rawPorts.foldlM (fun claimed port => do
    rejectIf (port = 0) (.invalidValue location .portZero)
    rejectIf (claimed.contains port)
      (.invalidValue location (.duplicate (toString port.toNat)))
    return claimed ++ [port]) []

section

variable (env : Syntax)

def compileHttpMatch (raw : RawBinding) : Except CompileError HttpMatch := do
  let hosts ← compileHosts env raw.hosts s!"bindings.{raw.id}.hosts"
  let pathPrefixes ← compilePathPrefixes raw.pathPrefixes raw.id
  let methods ← compileMethods raw.methods raw.id
  let operations ← compileOperations raw.operations raw.id
  match HttpMatch.new hosts pathPrefixes methods operations with
  | some matcher => return matcher
  | none => throw (.invalidValue s!"bindings.{raw.id}" .emptyHttpMatch)

def compileConnectMatch (raw : RawConnectRule) : Except CompileError ConnectMatch := do
  let hosts ← compileHosts env raw.hosts s!"connect_rules.{raw.id}.hosts"
  let ports ← compilePorts raw.ports raw.id
  match ConnectMatch.new hosts ports with
  | some matcher => return matcher
  | none => throw (.invalidValue s!"connect_rules.{raw.id}" .emptyConnectMatch)

end

/-! ## Drafts -/

/-- What only one kind of listener has. -/
inductive DraftKind where
  | llmApi (cors : CorsPlan)
  | forwardProxy (requestBodyMaxBytes : Nat) (defaultHttpAction : HttpAction)
      (defaultConnectAction : ConnectAction) (caDir : Option String)

structure ListenerDraft (Addr : Type) where
  bind : Addr
  clientAuth : ClientAuthPlan
  kind : DraftKind

def ListenerDraft.isForwardProxy {Addr : Type} (draft : ListenerDraft Addr) : Bool :=
  match draft.kind with
  | .forwardProxy .. => true
  | .llmApi _ => false

def compileClientAuth : RawClientAuth → ClientAuthPlan
  | .none => .none
  | .localKeys => .localKeys

def compileConnectAction : RawConnectAction → ConnectAction
  | .intercept => .intercept
  | .tunnel => .tunnel
  | .reject => .reject

/-- `compile_http_action`, for the ids of the profiles there are. -/
def compileHttpAction (raw : RawBindingAction) (ownerKind owner referenceField : String)
    (profiles : List String) : Except CompileError HttpAction := do
  match raw with
  | .reject => return .reject
  | .route rawProfile =>
    let profileId ← parseId "profile" "profile reference" rawProfile
    if profiles.contains profileId then return .route profileId
    else throw (.unresolvedReference ownerKind owner referenceField "profile" rawProfile)

theorem compileHttpAction_route {profile ownerKind owner referenceField : String}
    {profiles : List String} {action : HttpAction}
    (h : compileHttpAction (.route profile) ownerKind owner referenceField profiles = .ok action) :
    action = .route profile := by
  obtain ⟨id, hid, h⟩ := Except.bind_eq_ok.mp h
  obtain rfl := parseId_ok hid
  split at h
  · exact (Except.ok.inj h).symm
  · cases h

section

variable (env : Syntax)

def compileBind (raw listenerId : String) : Except CompileError env.SocketAddr :=
  match env.parseSocketAddr raw with
  | none => .error (.invalidValue s!"listeners.{listenerId}.bind" .bindNotNumeric)
  | some bind =>
    if env.port bind = 0 then .error (.invalidValue s!"listeners.{listenerId}.bind" .portZero)
    else .ok bind

def bindAddressesOverlap (first second : env.SocketAddr) : Bool :=
  env.port first = env.port second &&
    (env.sameIp first second || env.isUnspecified first || env.isUnspecified second)

def resolveCaDir (raw : Option String) (source listenerId : String) :
    Except CompileError (Option String) :=
  match raw with
  | none => .ok none
  | some raw =>
    if raw.isEmpty then .error (.invalidValue s!"listeners.{listenerId}.ca_dir" .emptyCaDir)
    else if env.isAbsolute raw then .ok (some raw)
    else .ok (some (env.joinToParent source raw))

def canonicalCorsOrigin (origin : String) : Except InvalidValue String :=
  match env.parseUrl origin with
  | .error error => .error (.invalidCorsOrigin origin error)
  | .ok parsed =>
    if parsed.scheme != "http" && parsed.scheme != "https" then
      .error (.invalidCorsOrigin origin "scheme must be http or https")
    else if !parsed.hasHost || parsed.username != "" || parsed.hasPassword || parsed.path != "/" ||
        parsed.hasQuery || parsed.hasFragment then
      .error (.invalidCorsOrigin origin "expected only scheme, host, and optional port")
    else .ok parsed.asciiOrigin

/-- `RawCors::compile`: the origins have to be valid even where they are not used. -/
def compileCors (raw : RawCors) (listenerId : String) : Except CompileError CorsPlan :=
  located s!"listeners.{listenerId}.cors" do
    rejectIf (raw.enabled && !raw.allowLocalhost && raw.allowedOrigins.isEmpty) .corsOriginsEmpty
    let origins ← raw.allowedOrigins.mapM (canonicalCorsOrigin env)
    return if raw.enabled then
      { allowedOrigins := (BTreeMap.extend [] (origins.map fun origin => (origin, ()))).map Prod.fst
        allowLocalhost := raw.allowLocalhost }
    else {}

/-- The checks of a listener that do not depend on its kind. -/
def checkPublic (bind : env.SocketAddr) (clientAuth : ClientAuthPlan) (allowInsecurePublic : Bool)
    (rawId : String) : Except CompileError Unit := do
  rejectIf (!env.isLoopback bind && clientAuth = .none)
    (.invalidValue s!"listeners.{rawId}.client_auth" .publicWithoutAuth)
  rejectIf (!env.isLoopback bind && !allowInsecurePublic)
    (.invalidValue s!"listeners.{rawId}.allow_insecure_public" .insecurePublic)

/-- The listeners so far, and what they are bound to. -/
structure DraftState where
  drafts : BTreeMap String (ListenerDraft env.SocketAddr) := []
  binds : List (env.SocketAddr × String) := []

/-- `binds`, with one more address that none of them may overlap. -/
def claimBind (binds : List (env.SocketAddr × String)) (bind : env.SocketAddr) (id : String) :
    Except CompileError (List (env.SocketAddr × String)) :=
  match binds.find? fun first => bindAddressesOverlap env first.1 bind with
  | some first =>
    .error (.duplicateBind first.2 (env.printSocketAddr first.1) id (env.printSocketAddr bind))
  | none => .ok (binds ++ [(bind, id)])

/-- The first loop of `compile_listeners`, for one listener. -/
def compileDraft (source : String) (profiles : List String) (st : DraftState env)
    (raw : String × RawListener) : Except CompileError (DraftState env) := do
  let rawId := raw.1
  let id ← parseId "listener" "listener id" rawId
  match raw.2 with
  | .llmApi rawBind rawClientAuth cors allowInsecurePublic =>
    let cors ← compileCors env cors rawId
    let bind ← compileBind env rawBind rawId
    let clientAuth := compileClientAuth rawClientAuth
    checkPublic env bind clientAuth allowInsecurePublic rawId
    let binds ← claimBind env st.binds bind id
    return { drafts := st.drafts.insert id
               { bind := bind, clientAuth := clientAuth, kind := .llmApi cors }
             binds := binds }
  | .forwardProxy rawBind rawClientAuth allowInsecurePublic requestBodyMaxBytes
      rawDefaultHttpAction defaultConnect caDir =>
    let caDir ← resolveCaDir env caDir source rawId
    let bind ← compileBind env rawBind rawId
    let clientAuth := compileClientAuth rawClientAuth
    rejectIf (requestBodyMaxBytes = 0)
      (.invalidValue s!"listeners.{rawId}.request_body_max_bytes" .zeroBodyLimit)
    checkPublic env bind clientAuth allowInsecurePublic rawId
    let binds ← claimBind env st.binds bind id
    let defaultHttpAction ← compileHttpAction rawDefaultHttpAction "listener" rawId
      "default_http_action.profile" profiles
    return { drafts := st.drafts.insert id
               { bind := bind, clientAuth := clientAuth,
                 kind := .forwardProxy requestBodyMaxBytes defaultHttpAction
                   (compileConnectAction defaultConnect) caDir }
             binds := binds }

end

/-! ## Rules -/

def claimBindingId (raw : String) (ids : List String) : Except CompileError String := do
  let id ← parseId "binding" "binding id" raw
  rejectIf (ids.contains id) (.duplicateId "binding" raw)
  return id

def resolveListener {Addr : Type} (rawListener ownerKind owner field : String)
    (listeners : BTreeMap String (ListenerDraft Addr)) :
    Except CompileError (String × ListenerDraft Addr) := do
  let listener ← parseId "listener" "listener reference" rawListener
  match listeners.get listener with
  | some draft => return (listener, draft)
  | none => throw (.unresolvedReference ownerKind owner field "listener" rawListener)

/-- The rules so far: by the id of their listener, their matchers and their plans. The ids are
shared by both kinds of rules. -/
structure RuleState (Key Plan : Type) where
  ids : List String
  matchers : BTreeMap String (List (Key × String)) := []
  plans : BTreeMap String (List Plan) := []

/-- The earlier rule that covers the matcher alone, or that the earlier ones cover it together. -/
def unreachable {Key : Type} (subsumes : Key → Key → Bool)
    (subsumeUnion : List (Key × String) → Key → Bool) (prior : List (Key × String)) (key : Key) :
    Option (Option String) :=
  match prior.find? fun candidate => subsumes candidate.1 key with
  | some candidate => some (some candidate.2)
  | none => if subsumeUnion prior key then some none else none

/-- One more rule of the listener. -/
def RuleState.push {Key Plan : Type} (st : RuleState Key Plan) (id listener : String) (key : Key)
    (plan : Plan) : RuleState Key Plan where
  ids := st.ids ++ [id]
  matchers := st.matchers.modify listener (· ++ [(key, id)])
  plans := st.plans.modify listener (· ++ [plan])

section

variable (env : Syntax)

/-- The second loop of `compile_listeners`, for one binding. -/
def compileBinding (drafts : BTreeMap String (ListenerDraft env.SocketAddr))
    (profiles : List String) (st : RuleState HttpMatchKey HttpBindingPlan) (raw : RawBinding) :
    Except CompileError (RuleState HttpMatchKey HttpBindingPlan) := do
  let id ← claimBindingId raw.id st.ids
  let (listenerId, listener) ← resolveListener raw.listener "binding" raw.id "listener" drafts
  rejectIf (!listener.isForwardProxy) (.invalidValue s!"bindings.{raw.id}.listener" .apiBindings)
  let matcher ← compileHttpMatch env raw
  let prior := (st.matchers.get listenerId).getD []
  match unreachable HttpMatchKey.subsumes httpMatchersSubsumeUnion prior matcher with
  | some (some first) =>
    throw (.invalidValue s!"bindings.{raw.id}" (.bindingUnreachable first listenerId))
  | some none =>
    throw (.invalidValue s!"bindings.{raw.id}" (.bindingCollectivelyUnreachable listenerId))
  | none =>
    let action ← compileHttpAction raw.action "binding" raw.id "action.profile" profiles
    return st.push id listenerId matcher { id := id, matcher := matcher, action := action }

/-- The third loop of `compile_listeners`, for one CONNECT rule. -/
def compileConnectRule (drafts : BTreeMap String (ListenerDraft env.SocketAddr))
    (st : RuleState ConnectMatchKey ConnectRulePlan) (raw : RawConnectRule) :
    Except CompileError (RuleState ConnectMatchKey ConnectRulePlan) := do
  let id ← claimBindingId raw.id st.ids
  let (listenerId, listener) ← resolveListener raw.listener "CONNECT rule" raw.id "listener" drafts
  rejectIf (!listener.isForwardProxy)
    (.invalidValue s!"connect_rules.{raw.id}.listener" (.notForwardProxy listenerId))
  let matcher ← compileConnectMatch env raw
  let prior := (st.matchers.get listenerId).getD []
  match unreachable ConnectMatchKey.subsumes connectMatchersSubsumeUnion prior matcher with
  | some (some first) =>
    throw (.invalidValue s!"connect_rules.{raw.id}" (.ruleUnreachable first listenerId))
  | some none =>
    throw (.invalidValue s!"connect_rules.{raw.id}" (.ruleCollectivelyUnreachable listenerId))
  | none =>
    return st.push id listenerId matcher
      { id := id, matcher := matcher, action := compileConnectAction raw.action }

def finishListener (bindings : BTreeMap String (List HttpBindingPlan))
    (rules : BTreeMap String (List ConnectRulePlan))
    (draft : String × ListenerDraft env.SocketAddr) :
    Except CompileError (String × ListenerPlan env.SocketAddr) := do
  let httpBindings := (bindings.get draft.1).getD []
  match draft.2.kind with
  | .llmApi cors =>
    return (draft.1,
      .llmApi { bind := draft.2.bind, clientAuth := draft.2.clientAuth, cors := cors })
  | .forwardProxy requestBodyMaxBytes defaultHttpAction defaultConnectAction caDir =>
    let connectRules := (rules.get draft.1).getD []
    let needsTls := defaultConnectAction = .intercept ||
      connectRules.any fun rule => rule.action = .intercept
    rejectIf (needsTls && caDir.isNone)
      (.invalidValue s!"listeners.{draft.1}.ca_dir" .caDirRequired)
    return (draft.1,
      .forwardProxy
        { bind := draft.2.bind, clientAuth := draft.2.clientAuth,
          requestBodyMaxBytes := requestBodyMaxBytes, httpBindings := httpBindings,
          defaultHttpAction := defaultHttpAction, connectRules := connectRules,
          defaultConnectAction := defaultConnectAction, tls := caDir.map TlsPlan.mk })

def compileListeners (raw : RawConfig) (source : String) (profiles : List String) :
    Except CompileError (BTreeMap String (ListenerPlan env.SocketAddr)) := do
  rejectIf raw.listeners.isEmpty (.emptyRegistry "listener")
  let drafts ← raw.listeners.foldlM (compileDraft env source profiles) {}
  let bindings ← raw.bindings.foldlM (compileBinding env drafts.drafts profiles) { ids := [] }
  let rules ← raw.connectRules.foldlM (compileConnectRule env drafts.drafts)
    { ids := bindings.ids }
  drafts.drafts.mapM (finishListener env bindings.plans rules.plans)

end

end Tokn.Config
