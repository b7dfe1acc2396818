import Tokn.Lib.BTreeMap

/-!
# JSON values

The value type of `serde_json`, its accessors and its compact serializer. An object is an ordered
map, so `obj`, which builds one from the fields of a `json!` literal, does not keep the order in
which they are written. A finite floating point number is represented by its shortest decimal
text, which is what the serializer prints for it.
-/

namespace Tokn

instance instStrictTotalOrderString : IsStrictTotalOrder String (· < ·) where
  trichotomous _ _ hlt hgt := String.le_antisymm hgt hlt
  irrefl := String.lt_irrefl
  trans _ _ _ := String.lt_trans

/-- A JSON number: a `u64`, a negative `i64` or a finite `f64`. -/
inductive Number where
  | posInt (n : Nat)
  | negInt (n : Int)
  | float (text : String)
  deriving DecidableEq

/-- A JSON value. -/
inductive Value where
  | null
  | bool (b : Bool)
  | number (n : Number)
  | string (s : String)
  | array (xs : List Value)
  | object (fields : List (String × Value))

namespace Value

instance : Inhabited Value := ⟨.null⟩

/-! ## Decidable equality -/

mutual

/-- Equality of values is decidable; the two companions walk arrays and objects. -/
def decEqValue : (a b : Value) → Decidable (a = b)
  | .null, .null => isTrue rfl
  | .bool a, .bool b => decidable_of_iff (a = b) (by simp)
  | .number a, .number b => decidable_of_iff (a = b) (by simp)
  | .string a, .string b => decidable_of_iff (a = b) (by simp)
  | .array a, .array b =>
    match decEqArray a b with
    | isTrue h => isTrue (by rw [h])
    | isFalse h => isFalse (by simpa using h)
  | .object a, .object b =>
    match decEqFields a b with
    | isTrue h => isTrue (by rw [h])
    | isFalse h => isFalse (by simpa using h)
  | .null, .bool _ | .null, .number _ | .null, .string _ | .null, .array _ | .null, .object _
  | .bool _, .null | .bool _, .number _ | .bool _, .string _ | .bool _, .array _
  | .bool _, .object _ | .number _, .null | .number _, .bool _ | .number _, .string _
  | .number _, .array _ | .number _, .object _ | .string _, .null | .string _, .bool _
  | .string _, .number _ | .string _, .array _ | .string _, .object _ | .array _, .null
  | .array _, .bool _ | .array _, .number _ | .array _, .string _ | .array _, .object _
  | .object _, .null | .object _, .bool _ | .object _, .number _ | .object _, .string _
  | .object _, .array _ => isFalse nofun

def decEqArray : (a b : List Value) → Decidable (a = b)
  | [], [] => isTrue rfl
  | [], _ :: _ | _ :: _, [] => isFalse nofun
  | a :: as, b :: bs =>
    match decEqValue a b, decEqArray as bs with
    | isTrue h, isTrue h' => isTrue (by rw [h, h'])
    | isFalse h, _ => isFalse (by simp [h])
    | _, isFalse h => isFalse (by simp [h])

def decEqFields : (a b : List (String × Value)) → Decidable (a = b)
  | [], [] => isTrue rfl
  | [], _ :: _ | _ :: _, [] => isFalse nofun
  | (k, a) :: as, (l, b) :: bs =>
    match (inferInstance : Decidable (k = l)), decEqValue a b, decEqFields as bs with
    | isTrue hk, isTrue h, isTrue h' => isTrue (by rw [hk, h, h'])
    | isFalse h, _, _ => isFalse (by simp [h])
    | _, isFalse h, _ => isFalse (by simp [h])
    | _, _, isFalse h => isFalse (by simp [h])

end

instance : DecidableEq Value := decEqValue

/-! ## Building values -/

/-- The object with the given fields, later ones replacing earlier ones of the same key. -/
def obj (fields : List (String × Value)) : Value := .object (BTreeMap.extend [] fields)

/-- An unsigned integer. -/
def nat (n : Nat) : Value := .number (.posInt n)

/-- A string, or `null` for an absent one. -/
def optString : Option String → Value
  | some s => .string s
  | none => .null

/-! ## Accessors -/

/-- `get` with a string index: a field of an object, and nothing of any other value. -/
def get : Value → String → Option Value
  | .object fields, k => BTreeMap.get fields k
  | _, _ => none

/-- `pointer` along object keys. -/
def pointer (v : Value) (path : List String) : Option Value :=
  path.foldl (fun v k => v.bind fun v => v.get k) (some v)

def asStr : Value → Option String
  | .string s => some s
  | _ => none

def asU64 : Value → Option Nat
  | .number (.posInt n) => some n
  | _ => none

def asBool : Value → Option Bool
  | .bool b => some b
  | _ => none

def asArray : Value → Option (List Value)
  | .array xs => some xs
  | _ => none

def asObject : Value → Option (BTreeMap String Value)
  | .object fields => some fields
  | _ => none

def isNull : Value → Bool
  | .null => true
  | _ => false

/-- `value.get(k).and_then(Value::as_str)`. -/
def str (v : Value) (k : String) : Option String := (v.get k).bind asStr

/-- `value.get(k).and_then(Value::as_u64)`. -/
def u64 (v : Value) (k : String) : Option Nat := (v.get k).bind asU64

/-! ## The compact serializer -/

/-- A lower-case hexadecimal digit. -/
def hexDigit (n : Nat) : Char := if n < 10 then Char.ofNat (48 + n) else Char.ofNat (87 + n)

/-- The escape of a character inside a string literal. -/
def escapeChar (c : Char) : List Char :=
  if c = '"' then ['\\', '"']
  else if c = '\\' then ['\\', '\\']
  else if c.toNat = 8 then ['\\', 'b']
  else if c.toNat = 9 then ['\\', 't']
  else if c.toNat = 10 then ['\\', 'n']
  else if c.toNat = 12 then ['\\', 'f']
  else if c.toNat = 13 then ['\\', 'r']
  else if c.toNat < 32 then
    ['\\', 'u', '0', '0', hexDigit (c.toNat / 16), hexDigit (c.toNat % 16)]
  else [c]

/-- A string literal. -/
def quote (s : String) : String := String.ofList ('"' :: s.toList.flatMap escapeChar ++ ['"'])

def numberText : Number → String
  | .posInt n => toString n
  | .negInt n => toString n
  | .float text => text

mutual

/-- `serde_json::to_string`, which is also what `Display` prints. -/
def toText : Value → String
  | .null => "null"
  | .bool b => if b then "true" else "false"
  | .number n => numberText n
  | .string s => quote s
  | .array xs => "[" ++ ",".intercalate (textArray xs) ++ "]"
  | .object fields => "\x7b" ++ ",".intercalate (textFields fields) ++ "\x7d"

def textArray : List Value → List String
  | [] => []
  | x :: xs => toText x :: textArray xs

def textFields : List (String × Value) → List String
  | [] => []
  | (k, v) :: fields => (quote k ++ ":" ++ toText v) :: textFields fields

end

/-! ## Reading a built object back -/

variable (fields : List (String × Value))

/-- A field of an object is the last one given for its key. -/
theorem get_obj (k : String) : (obj fields).get k = BTreeMap.get fields.reverse k := by
  simp [obj, get, BTreeMap.get_extend]

theorem str_obj (k : String) : (obj fields).str k = (BTreeMap.get fields.reverse k).bind asStr := by
  rw [str, get_obj]

theorem u64_obj (k : String) : (obj fields).u64 k = (BTreeMap.get fields.reverse k).bind asU64 := by
  rw [u64, get_obj]

example : (obj [("type", .string "a"), ("n", nat 3)]).str "type" = some "a" := by decide

example : toText (obj [("type", .string "a\n"), ("n", nat 3)]) =
    "\x7b\"n\":3,\"type\":\"a\\n\"\x7d" := by
  decide

end Value

end Tokn
