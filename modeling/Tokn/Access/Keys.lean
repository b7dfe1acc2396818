import Mathlib
import Tokn.Lib.Except
import Tokn.Lib.Stateful
import Tokn.Lib.Str
import Tokn.Lib.Table

/-!
# API keys of clients

`crates/access/src/lib.rs` and the table of `crates/persistence/src/access.rs`. A client presents a
token `tokn_<id>_<secret>`. The table has the hash of the secret and the providers that the key may
use. SHA-256 and the JSON of a list of strings are parameters (`Env`).
-/

namespace Tokn.Access

inductive AccessError where
  | wildcardCombined
  | emptyProviderId
  | decodeProviders
  | emptyName
  | noUniqueId
  deriving DecidableEq

def AccessError.message : AccessError → String
  | wildcardCombined => "provider `*` cannot be combined with specific provider ids"
  | emptyProviderId => "provider ids must not be empty"
  | decodeProviders => "decode allowed providers"
  | emptyName => "API key name must not be empty"
  | noUniqueId => "could not allocate a unique API key id"

structure Env where
  sha256 : ByteArray → ByteArray
  jsonToString : List String → String
  jsonFromStr : String → Option (List String)

/-! ## Providers -/

instance instIsTransString : IsTrans String (· ≤ ·) := ⟨fun _ _ _ => le_trans⟩

instance instAntisymmString : Std.Antisymm fun a b : String => a ≤ b := ⟨fun _ _ => le_antisymm⟩

inductive ProviderAccess where
  | all
  | only (providers : Finset String)
  deriving DecidableEq

namespace ProviderAccess

def fromProviderIds (providerIds : List String) : Except AccessError ProviderAccess :=
  if providerIds.isEmpty then .ok .all
  else if providerIds.any fun provider => Str.trim provider = "*" then do
    Except.rejectIf (providerIds.length ≠ 1) .wildcardCombined
    pure .all
  else do
    let providers := (providerIds.map Str.trim).toFinset
    Except.rejectIf (decide ("" ∈ providers)) .emptyProviderId
    pure (.only providers)

def allows : ProviderAccess → String → Bool
  | all, _ => true
  | only providers, providerId => decide (providerId ∈ providers)

/-- The ids in the order of a `BTreeSet`. -/
def ids : ProviderAccess → List String
  | all => ["*"]
  | only providers => providers.sort

def toJson (env : Env) (access : ProviderAccess) : String := env.jsonToString access.ids

def fromJson (env : Env) (value : String) : Except AccessError ProviderAccess :=
  match env.jsonFromStr value with
  | none => .error .decodeProviders
  | some providerIds => fromProviderIds providerIds

end ProviderAccess

structure AccessContext where
  keyId : Option String
  keyName : Option String
  providers : ProviderAccess
  deriving DecidableEq

structure CreatedApiKey where
  id : String
  name : String
  token : String
  providers : ProviderAccess
  createdAt : Int
  deriving DecidableEq

inductive AuthenticationError where
  | missing
  | invalid
  | revoked
  deriving DecidableEq

/-- What the client is told, by both generations of the API. -/
def authenticationMessage : AuthenticationError → String
  | .missing => "missing API key"
  | .invalid | .revoked => "invalid API key"

/-! ## The table -/

structure ApiKeyRecord where
  name : String
  secretHash : ByteArray
  allowedProviders : String
  createdAt : Int
  revokedAt : Option Int
  deriving DecidableEq

/-- The table `api_keys`, by id. -/
abbrev AccessDb := Table String ApiKeyRecord

namespace AccessDb

def insertKey (db : AccessDb) (id : String) (record : ApiKeyRecord) : Bool × AccessDb :=
  (!db.contains id, db.insertOrIgnore id record)

/-- `COALESCE(revoked_at, ?1)`: the first revocation counts. -/
def revokeKey (db : AccessDb) (id : String) (revokedAt : Int) : Bool × AccessDb :=
  match db.get id with
  | none => (false, db)
  | some record =>
    (true, db.set id { record with revokedAt := some (record.revokedAt.getD revokedAt) })

def findKey (db : AccessDb) (id : String) : Option ApiKeyRecord := db.get id

end AccessDb

/-! ## Tokens -/

def KEY_PREFIX : String := "tokn"

/-- The digits of a hexadecimal number in lower case. -/
def hexDigits : List Char := "0123456789abcdef".toList

/-- A UUID in the format `simple`. -/
structure Uuid where
  simple : String
  length : simple.toList.length = 32
  hex : ∀ c ∈ simple.toList, c ∈ hexDigits

/-- The UUIDs of one attempt to allocate a key. -/
structure KeyDraw where
  id : Uuid
  first : Uuid
  second : Uuid

namespace KeyDraw

def keyId (draw : KeyDraw) : String := String.ofList (draw.id.simple.toList.take 16)

def secret (draw : KeyDraw) : String := draw.first.simple ++ draw.second.simple

end KeyDraw

def formatToken (id secret : String) : String := KEY_PREFIX ++ "_" ++ id ++ "_" ++ secret

def parseToken (token : String) : Option (String × String) :=
  match ((Str.trim token).toList.splitOn '_').map String.ofList with
  | [keyPrefix, id, secret] =>
    if keyPrefix = KEY_PREFIX ∧ id.utf8ByteSize = 16 ∧ secret.utf8ByteSize = 64 then
      some (id, secret)
    else none
  | _ => none

def hashSecret (env : Env) (secret : String) : ByteArray := env.sha256 secret.toUTF8

/-! ## The store -/

/-- The loop of `create_key`, over the attempts that are left. -/
def allocate (env : Env) (name : String) (providers : ProviderAccess) (createdAt : Int) :
    List KeyDraw → AccessDb → Except AccessError CreatedApiKey × AccessDb
  | [], db => (.error .noUniqueId, db)
  | draw :: draws, db =>
    let (inserted, db) := AccessDb.insertKey db draw.keyId {
      name
      secretHash := hashSecret env draw.secret
      allowedProviders := providers.toJson env
      createdAt
      revokedAt := none }
    if inserted then
      (.ok ⟨draw.keyId, name, formatToken draw.keyId draw.secret, providers, createdAt⟩, db)
    else allocate env name providers createdAt draws db

def createKey (env : Env) (name : String) (providerIds : List String) (now : Int)
    (draws : Fin 4 → KeyDraw) : Stateful AccessDb AccessError CreatedApiKey := do
  Stateful.reading fun _ => Except.rejectIf (Str.trim name = "") .emptyName
  let providers ← Stateful.reading fun _ => ProviderAccess.fromProviderIds providerIds
  allocate env name providers now (List.ofFn draws)

def authenticate (env : Env) (token : Option String) (db : AccessDb) :
    Except AuthenticationError AccessContext :=
  match token with
  | none => .error .missing
  | some token =>
    match parseToken token with
    | none => .error .invalid
    | some (id, secret) =>
      match db.findKey id with
      | none => .error .invalid
      | some record =>
        if record.revokedAt.isSome then .error .revoked
        else
          let actualHash := hashSecret env secret
          if record.secretHash.size ≠ actualHash.size ∨ record.secretHash ≠ actualHash then
            .error .invalid
          else
            match ProviderAccess.fromJson env record.allowedProviders with
            | .error _ => .error .invalid
            | .ok providers => .ok ⟨some id, some record.name, providers⟩

/-! ## Histories -/

inductive Call where
  | createKey (name : String) (providerIds : List String) (now : Int) (draws : Fin 4 → KeyDraw)
  | revokeKey (id : String) (now : Int)

/-- The key that a call has created, and the table after it. -/
def Call.perform (env : Env) (db : AccessDb) : Call → Option CreatedApiKey × AccessDb
  | createKey name providerIds now draws =>
    let (result, db) := (Access.createKey env name providerIds now draws).outcome db
    (result.toOption, db)
  | revokeKey id now => (none, (AccessDb.revokeKey db id now).2)

/-- The table after some calls. -/
def after (env : Env) (calls : List Call) : AccessDb :=
  calls.foldl (fun db call => (call.perform env db).2) []

end Tokn.Access
