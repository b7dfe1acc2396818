import Tokn.Convert.ResponseParsers
import Tokn.Convert.Tools

/-!
# Requests

The endpoint-neutral request (`crates/convert/src/ir.rs`) and what the three dialects share in
reading and writing one. Each of them holds a list of messages, which are lists of content parts.
-/

namespace Tokn.Convert

open Value JsonText

/-- A message. The source has a field `raw` that nothing sets. -/
structure IrMessage where
  role : Role
  content : List ContentPart
  toolCallId : Option String := none
  name : Option String := none
  deriving DecidableEq

structure Sampling where
  temperature : Option Number := none
  topP : Option Number := none
  maxOutputTokens : Option Nat := none
  stop : Option Value := none
  n : Option Nat := none
  seed : Option Int := none
  deriving DecidableEq

structure IrRequest where
  model : String
  system : Option String := none
  messages : List IrMessage := []
  tools : List Value := []
  toolChoice : Option Value := none
  sampling : Sampling := {}
  reasoning : Option Value := none
  stream : Bool := false
  extras : BTreeMap String Value := []
  deriving DecidableEq

/-! ## Reading -/

/-- `as_f64`, as the number that the double is written as. -/
def asF64 (floats : FloatReader) : Value → Option Number
  | .number (.float text) => some (.float text)
  | .number n => (readLiteral (numberText n).toList).bind fun l => float floats l.1
  | _ => none

def asI64 : Value → Option Int
  | .number (.posInt n) => if n < 2 ^ 63 then some n else none
  | .number (.negInt n) => some n
  | _ => none

/-- The body of a request, if it is an object. -/
def bodyObject (v : Value) : Except ConvertError (BTreeMap String Value) :=
  match v with
  | .object o => .ok o
  | _ => .error (.badShape "body" "expected object")

/-- The model of a request. -/
def modelOf (v : Value) : String := (v.str "model").getD "unknown"

/-- The tools of a request. -/
def toolsOf (v : Value) : List Value := Tools.normaliseTools (elements v "tools")

/-- The system texts as one. -/
def joinSystem (parts : List String) : Option String :=
  if parts = [] then none else some ("\n\n".intercalate parts)

/-! ## Writing -/

def insertOptF64 (out : BTreeMap String Value) (key : String) (value : Option Number) :
    BTreeMap String Value :=
  insertOpt out key (value.map Value.number)

def insertOptU64 (out : BTreeMap String Value) (key : String) (value : Option Nat) :
    BTreeMap String Value :=
  insertOpt out key (value.map Value.nat)

/-- `Value::from` on an `i64`. -/
def ofI64 (n : Int) : Value := if 0 ≤ n then nat n.toNat else .number (.negInt n)

/-- `entry(k).or_insert`: the extras do not replace what is there. -/
def fillExtras (out extras : BTreeMap String Value) : BTreeMap String Value :=
  extras.foldl (fun out e => if out.contains e.1 then out else
    out.insert e.1 e.2) out

theorem asStr_fromWire (role : String) : (Role.fromWire role).asStr = role := by
  unfold Role.fromWire
  split <;> rfl

/-- The extras only add. -/
theorem get_fillExtras {out extras : BTreeMap String Value} {k : String} {v : Value}
    (h : out.get k = some v) : (fillExtras out extras).get k = some v := by
  induction extras generalizing out with
  | nil => exact h
  | cons e extras ih =>
    refine ih ?_
    dsimp only
    split_ifs with hmem
    · exact h
    · rw [BTreeMap.get_insert, if_neg, h]
      rintro rfl
      exact hmem (by rw [BTreeMap.contains, h]; rfl)

end Tokn.Convert
