import Tokn.Convert.Chat
import Tokn.Lib.JsonRoundTrip

/-!
# Tool call arguments

The representation holds the arguments of a call as one value, which is a string where they could
not be parsed. `parse_args` and `args_to_string` (`crates/convert/src/value/chat.rs`) go between it
and the string on the wire.

**Theorem (`parseArgs_argsToString_iff`).** Arguments come back from their text iff they are a
string that is not JSON, or another value that reads back.

**Theorem (`argumentsKept_iff`).** An arguments string keeps its meaning iff it is not the JSON of a
string and the doubles in it read back.
-/

namespace Tokn.Convert.Chat

open Value JsonText

def parseArgs (floats : FloatReader) (args : Value) : Value :=
  match args with
  | .string s => (fromStr floats s).getD (.string s)
  | args => args

variable {floats : FloatReader}

theorem parseArgs_string (s : String) :
    parseArgs floats (.string s) = (fromStr floats s).getD (.string s) := rfl

theorem argsToString_string (s : String) : argsToString (.string s) = s := rfl

theorem argsToString_of_not_string {v : Value} (h : ∀ s, v ≠ .string s) :
    argsToString v = toText v := by
  cases v with
  | string s => exact absurd rfl (h s)
  | _ => rfl

/-- Whether the text of some arguments is read as those arguments. -/
def ReadsBack (floats : FloatReader) : Value → Prop
  | .string s => fromStr floats s = none
  | v => v.depth ≤ MAX_DEPTH ∧ Stable floats v

theorem readsBack_of_not_string {v : Value} (h : ∀ s, v ≠ .string s) :
    ReadsBack floats v ↔ v.depth ≤ MAX_DEPTH ∧ Stable floats v := by
  cases v with
  | string s => exact absurd rfl (h s)
  | _ => exact Iff.rfl

/-- Arguments that come back from their text. -/
theorem parseArgs_argsToString_iff {v : Value} (hv : v.Valid) :
    parseArgs floats (.string (argsToString v)) = v ↔ ReadsBack floats v := by
  by_cases hstring : ∃ s, v = .string s
  · obtain ⟨s, rfl⟩ := hstring
    rw [argsToString_string, parseArgs_string, ReadsBack]
    cases hread : fromStr floats s with
    | none => exact iff_of_true rfl rfl
    | some w =>
      refine iff_of_false ?_ (by simp)
      rintro rfl
      exact fromStr_ne_string s hread
  · have hne : ∀ s, v ≠ .string s := fun s hs => hstring ⟨s, hs⟩
    rw [argsToString_of_not_string hne, parseArgs_string, readsBack_of_not_string hne,
      ← fromStr_toText_iff hv]
    cases fromStr floats (toText v) with
    | none => exact iff_of_false (fun h => hne _ h.symm) (by simp)
    | some w => simp

/-- Arguments that were read from a text are read from the text that is made of them, unless that is
a bare string. -/
theorem fromStr_argsToString_iff {s : String} {v : Value} (hread : fromStr floats s = some v) :
    fromStr floats (argsToString v) = some v ↔ (∀ t, v ≠ .string t) ∧ Stable floats v := by
  obtain ⟨hvalid, hdepth⟩ := valid_of_fromStr hread
  by_cases hstring : ∃ t, v = .string t
  · obtain ⟨t, rfl⟩ := hstring
    exact iff_of_false (fromStr_ne_string t) fun h => h.1 t rfl
  · have hne : ∀ t, v ≠ .string t := fun t ht => hstring ⟨t, ht⟩
    rw [argsToString_of_not_string hne, fromStr_toText_iff hvalid]
    simp [hne, hdepth]

/-- The string that comes out of the representation has the meaning of the one that went in: it is
JSON of the same value, or the string itself where it is not JSON. -/
def ArgumentsKept (floats : FloatReader) (s : String) : Prop :=
  (∀ v, fromStr floats s = some v →
    fromStr floats (argsToString (parseArgs floats (.string s))) = some v) ∧
  (fromStr floats s = none → argsToString (parseArgs floats (.string s)) = s)

/-- **The arguments of a call.** Only a JSON string loses its meaning, and a double that does not
read back. -/
theorem argumentsKept_iff (floats : FloatReader) (s : String) :
    ArgumentsKept floats s ↔
      ∀ v, fromStr floats s = some v → (∀ t, v ≠ .string t) ∧ Stable floats v := by
  rw [ArgumentsKept, parseArgs_string]
  cases hread : fromStr floats s with
  | none => simp [argsToString_string]
  | some v => simpa using fromStr_argsToString_iff hread

/-- The quotes of a JSON string are lost, so a number in quotes comes out as the number. -/
theorem quotedNumber_unquoted : ¬ ∀ floats s, ArgumentsKept floats s := by
  intro h
  have hread : fromStr .verbatim "\"5\"" = some (.string "5") := by decide +kernel
  have hkept := (h .verbatim "\"5\"").1 _ hread
  rw [parseArgs_string, hread] at hkept
  exact fromStr_ne_string "5" hkept

end Tokn.Convert.Chat
