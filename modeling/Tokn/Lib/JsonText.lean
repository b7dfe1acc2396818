import Tokn.Lib.Json
import Tokn.Lib.Ascii

/-!
# Reading JSON text

`serde_json::from_str` into a value. The grammar is that of JSON; an integer of 64 bits is kept
exactly, any other number becomes a double, arrays and objects nest at most 127 deep, and the last
field of a key is the one an object keeps. How a literal is rounded to a double is left open
(`FloatReader`).

The readers take the text that is left and return the text after what they read. `readValue` and
its two companions run on fuel; `readValue_succ` says that twice the length of the text is enough.
-/

namespace Tokn.JsonText

/-! ## Numbers -/

/-- A number literal, cut into its parts. -/
structure Literal where
  negative : Bool
  whole : List Char
  /-- The point and the digits after it, or nothing. -/
  fraction : List Char
  /-- The exponent from its letter on, or nothing. -/
  exponent : List Char
  deriving DecidableEq

namespace Literal

def text (l : Literal) : List Char :=
  (if l.negative then ['-'] else []) ++ (l.whole ++ (l.fraction ++ l.exponent))

/-- Whether the literal cannot denote an integer type. -/
def isFloat (l : Literal) : Bool := !l.fraction.isEmpty || !l.exponent.isEmpty

end Literal

/-- The digits at the start of a text, and the rest. -/
def readDigits (text : List Char) : Option (List Char × List Char) :=
  let digits := text.takeWhile Char.isDigit
  if digits = [] then none else some (digits, text.dropWhile Char.isDigit)

/-- The digits of an integer: nothing follows a leading zero. -/
def readWhole (text : List Char) : Option (List Char × List Char) :=
  (readDigits text).filter fun r => r.1.head? ≠ some '0' ∨ r.1.length = 1

def readFraction : List Char → Option (List Char × List Char)
  | [] => some ([], [])
  | c :: text =>
    if c = '.' then (readDigits text).map fun r => (c :: r.1, r.2) else some ([], c :: text)

/-- The sign of an exponent, if it has one. -/
def readSign : List Char → List Char × List Char
  | [] => ([], [])
  | c :: text => if c = '+' ∨ c = '-' then ([c], text) else ([], c :: text)

def readExponent : List Char → Option (List Char × List Char)
  | [] => some ([], [])
  | c :: text =>
    if c = 'e' ∨ c = 'E' then
      (readDigits (readSign text).2).map fun r => (c :: ((readSign text).1 ++ r.1), r.2)
    else some ([], c :: text)

/-- The part of a literal after its sign. -/
def readUnsigned (negative : Bool) (text : List Char) : Option (Literal × List Char) :=
  match readWhole text with
  | none => none
  | some (whole, text) =>
    match readFraction text with
    | none => none
    | some (fraction, text) =>
      (readExponent text).map fun r => (⟨negative, whole, fraction, r.1⟩, r.2)

def readLiteral : List Char → Option (Literal × List Char)
  | [] => none
  | c :: text => if c = '-' then readUnsigned true text else readUnsigned false (c :: text)

/-- How literals are read as finite doubles, each of which is given by the literal that prints it.
A literal out of range has none. -/
structure FloatReader where
  read : Literal → Option Literal
  /-- What prints a double is a literal of its own, with a fraction or an exponent. -/
  printed : ∀ l l', read l = some l' → readLiteral l'.text = some (l', []) ∧ l'.isFloat = true

/-- The reader that knows the literals that print as they are written. -/
def FloatReader.verbatim : FloatReader where
  read l := if readLiteral l.text = some (l, []) ∧ l.isFloat = true then some l else none
  printed l l' h := by
    split_ifs at h with hl
    cases h
    exact hl

variable (floats : FloatReader)

/-- The double of a literal. -/
def float (l : Literal) : Option Number :=
  (floats.read l).map fun l => .float (String.ofList l.text)

/-- The number of a literal. Minus zero is a double. -/
def numberOf (l : Literal) : Option Number :=
  let n := Nat.ofDigitChars 10 l.whole 0
  if l.isFloat then float floats l
  else if l.negative then
    if n ≠ 0 ∧ n ≤ 2 ^ 63 then some (.negInt (-n)) else float floats l
  else if n < 2 ^ 64 then some (.posInt n)
  else float floats l

def readNumber (text : List Char) : Option (Number × List Char) :=
  (readLiteral text).bind fun r => (numberOf floats r.1).map fun n => (n, r.2)

/-! ## Strings -/

/-- Four hexadecimal digits. -/
def readHex : List Char → Option (Nat × List Char)
  | a :: b :: c :: d :: text =>
    (Ascii.ofDigitsFrom 16 0 [a, b, c, d]).map fun n => (n, text)
  | _ => none

/-- Whether the number is a leading surrogate, the first half of a character beyond 16 bits. -/
def isLeading (n : Nat) : Bool := 0xD800 ≤ n && n ≤ 0xDBFF

/-- Whether the number is a trailing surrogate. -/
def isTrailing (n : Nat) : Bool := 0xDC00 ≤ n && n ≤ 0xDFFF

/-- The escape of the trailing surrogate that follows a leading one. -/
def readTrailing (n : Nat) : List Char → Option (Char × List Char)
  | a :: b :: text =>
    if a = '\\' ∧ b = 'u' then
      (readHex text).bind fun r =>
        if isTrailing r.1 then
          some (Char.ofNat ((n - 0xD800) * 0x400 + (r.1 - 0xDC00) + 0x10000), r.2)
        else none
    else none
  | _ => none

/-- The rest of a `\u` escape. No trailing surrogate stands alone. -/
def readUnicode (text : List Char) : Option (Char × List Char) :=
  (readHex text).bind fun r =>
    if isTrailing r.1 then none
    else if isLeading r.1 then readTrailing r.1 r.2
    else some (Char.ofNat r.1, r.2)

/-- The characters that a backslash and a letter write. -/
def escapes : List (Char × Char) :=
  [('"', '"'), ('\\', '\\'), ('/', '/'), ('b', Char.ofNat 8), ('f', Char.ofNat 12),
    ('n', Char.ofNat 10), ('r', Char.ofNat 13), ('t', Char.ofNat 9)]

/-- The escape after a backslash. -/
def readEscape : List Char → Option (Char × List Char)
  | [] => none
  | c :: text =>
    if c = 'u' then readUnicode text else (escapes.lookup c).map fun d => (d, text)

/-- One character of a string literal. Control characters have to be escaped. -/
def readChar : List Char → Option (Char × List Char)
  | [] => none
  | c :: text =>
    if c = '\\' then readEscape text
    else if c = '"' ∨ c.toNat < 32 then none
    else some (c, text)

/-- The characters of a string literal up to its closing quote. -/
def readChars : Nat → List Char → Option (List Char × List Char)
  | 0, _ => none
  | fuel + 1, text =>
    if text.head? = some '"' then some ([], text.tail)
    else
      match readChar text with
      | none => none
      | some (c, text) => (readChars fuel text).map fun r => (c :: r.1, r.2)

/-- A string literal after its opening quote. -/
def readString (text : List Char) : Option (String × List Char) :=
  (readChars (text.length + 1) text).map fun r => (String.ofList r.1, r.2)

/-! ## Values -/

def isSpace (c : Char) : Bool := c.toNat = 32 || c.toNat = 10 || c.toNat = 9 || c.toNat = 13

def skipSpace (text : List Char) : List Char := text.dropWhile isSpace

/-- A keyword and the value it stands for. -/
def readKeyword (text : List Char) : Option (Value × List Char) :=
  if "null".toList.isPrefixOf text then some (.null, text.drop 4)
  else if "true".toList.isPrefixOf text then some (.bool true, text.drop 4)
  else if "false".toList.isPrefixOf text then some (.bool false, text.drop 5)
  else none

/-- A value without elements or fields. -/
def readScalar (text : List Char) : Option (Value × List Char) :=
  if text.head? = some '"' then (readString text.tail).map fun r => (.string r.1, r.2)
  else if text.head? = some '-' ∨ text.head?.any Char.isDigit then
    (readNumber floats text).map fun r => (.number r.1, r.2)
  else readKeyword text

/-- A key and its colon. -/
def readKey (text : List Char) : Option (String × List Char) :=
  if text.head? = some '"' then
    (readString text.tail).bind fun r =>
      if (skipSpace r.2).head? = some ':' then some (r.1, (skipSpace r.2).tail) else none
  else none

mutual

/-- A value, whose arrays and objects nest at most `depth` deep. -/
def readValue : Nat → Nat → List Char → Option (Value × List Char)
  | 0, _, _ => none
  | fuel + 1, depth, text =>
    match skipSpace text with
    | [] => none
    | c :: text =>
      if c = '[' then
        if depth = 0 then none
        else if (skipSpace text).head? = some ']' then some (.array [], (skipSpace text).tail)
        else (readElements fuel (depth - 1) text).map fun r => (.array r.1, r.2)
      else if c = '\x7b' then
        if depth = 0 then none
        else if (skipSpace text).head? = some '\x7d' then some (.object [], (skipSpace text).tail)
        else (readFields fuel (depth - 1) text).map fun r => (Value.obj r.1, r.2)
      else readScalar floats (c :: text)

/-- The elements of an array up to its closing bracket. -/
def readElements : Nat → Nat → List Char → Option (List Value × List Char)
  | 0, _, _ => none
  | fuel + 1, depth, text =>
    match readValue fuel depth text with
    | none => none
    | some (v, text) =>
      match skipSpace text with
      | [] => none
      | c :: text =>
        if c = ',' then (readElements fuel depth text).map fun r => (v :: r.1, r.2)
        else if c = ']' then some ([v], text)
        else none

/-- The fields of an object up to its closing brace. -/
def readFields : Nat → Nat → List Char → Option (List (String × Value) × List Char)
  | 0, _, _ => none
  | fuel + 1, depth, text =>
    match readKey (skipSpace text) with
    | none => none
    | some (k, text) =>
      match readValue fuel depth text with
      | none => none
      | some (v, text) =>
        match skipSpace text with
        | [] => none
        | c :: text =>
          if c = ',' then (readFields fuel depth text).map fun r => ((k, v) :: r.1, r.2)
          else if c = '\x7d' then some ([(k, v)], text)
          else none

end

/-- The depth that the recursion limit of 128 leaves to arrays and objects. -/
def MAX_DEPTH : Nat := 127

/-- `serde_json::from_str`. Only spaces may follow the value. -/
def fromStr (s : String) : Option Value :=
  (readValue floats (2 * s.length + 2) MAX_DEPTH s.toList).bind fun r =>
    if skipSpace r.2 = [] then some r.1 else none

end Tokn.JsonText
