import Tokn.Policy.Topology

/-!
# Raw configuration and compile errors

The part of a raw configuration that the listeners come from, and the errors of the compiler. The
texts of the errors are left out.
-/

namespace Tokn.Config

open Tokn.Policy

/-! ## Raw configuration -/

inductive RawClientAuth where
  | none
  | localKeys
  deriving DecidableEq

inductive RawBindingAction where
  | route (profile : String)
  | reject
  deriving DecidableEq

inductive RawConnectAction where
  | intercept
  | tunnel
  | reject
  deriving DecidableEq

structure RawCors where
  enabled : Bool
  allowLocalhost : Bool
  allowedOrigins : List String
  deriving DecidableEq

inductive RawListener where
  | llmApi (bind : String) (clientAuth : RawClientAuth) (cors : RawCors)
      (allowInsecurePublic : Bool)
  | forwardProxy (bind : String) (clientAuth : RawClientAuth) (allowInsecurePublic : Bool)
      (requestBodyMaxBytes : Nat) (defaultHttpAction : RawBindingAction)
      (defaultConnect : RawConnectAction) (caDir : Option String)
  deriving DecidableEq

structure RawBinding where
  id : String
  listener : String
  action : RawBindingAction
  hosts : List String
  pathPrefixes : List String
  methods : List String
  operations : List String
  deriving DecidableEq

structure RawConnectRule where
  id : String
  listener : String
  action : RawConnectAction
  hosts : List String
  ports : List UInt16
  deriving DecidableEq

structure RawConfig where
  listeners : BTreeMap String RawListener
  bindings : List RawBinding
  connectRules : List RawConnectRule
  deriving DecidableEq

/-! ## Errors -/

/-- Why a value is invalid. -/
inductive InvalidValue where
  | bindNotNumeric
  | portZero
  | zeroBodyLimit
  | publicWithoutAuth
  | insecurePublic
  | emptyCaDir
  | caDirRequired
  | corsOriginsEmpty
  | invalidCorsOrigin (origin message : String)
  | apiBindings
  | notForwardProxy (listener : String)
  | bindingUnreachable (first listener : String)
  | bindingCollectivelyUnreachable (listener : String)
  | ruleUnreachable (first listener : String)
  | ruleCollectivelyUnreachable (listener : String)
  | emptyHttpMatch
  | emptyConnectMatch
  | wildcardTwice
  | wildcardNotPrefix
  | invalidHost (source : InvalidHost)
  | invalidSubdomainSuffix
  | pathNotAbsolute
  | rootPath
  | pathNotAscii
  | pathEscape
  | pathCharacter
  | dotSegment
  | methodNotToken
  | methodWildcard
  | methodLowercase
  | duplicate (value : String)
  | redundant (value covering : String)
  deriving DecidableEq

inductive CompileError where
  | invalidIdentifier (resource : String) (source : InvalidIdentifier)
  | emptyRegistry (resource : String)
  | duplicateId (resource id : String)
  | duplicateBind (firstListener firstBind secondListener secondBind : String)
  | unresolvedReference (ownerKind owner field targetKind target : String)
  | invalidValue (location : String) (reason : InvalidValue)
  deriving DecidableEq

/-- `parse_id`, for the kind of the identifier. -/
def parseId (kind resource value : String) : Except CompileError String :=
  match parseIdentifier kind value with
  | .ok id => .ok id
  | .error source => .error (.invalidIdentifier resource source)

theorem parseIdentifier_ok {kind value id : String} (h : parseIdentifier kind value = .ok id) :
    id = value := by
  rw [parseIdentifier] at h
  split_ifs at h
  cases h
  rfl

theorem parseId_ok {kind resource value id : String} (h : parseId kind resource value = .ok id) :
    id = value := by
  rw [parseId] at h
  split at h
  · rename_i hparse
    cases h
    exact parseIdentifier_ok hparse
  · cases h

end Tokn.Config
