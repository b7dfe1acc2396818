import Mathlib.Tactic

/-!
# Header maps

The headers of a message: values under names in lower case, any number for each name, in the order
they were added.
-/

namespace Tokn

/-- The bytes of a header value. -/
structure HeaderValue where
  bytes : List UInt8
  deriving DecidableEq

namespace HeaderValue

/-- A byte that `to_str` accepts: visible ASCII, a space or a tab. -/
def isVisible (b : UInt8) : Bool := (32 ≤ b && b < 127) || b = 9

def toStr (value : HeaderValue) : Option (List Char) :=
  if value.bytes.all isVisible then some (value.bytes.map fun b => Char.ofNat b.toNat) else none

def ofText (text : String) : HeaderValue := ⟨text.toUTF8.toList⟩

end HeaderValue

abbrev HeaderMap := List (String × HeaderValue)

namespace HeaderMap

/-- All values under a name. -/
def getAll (headers : HeaderMap) (name : String) : List HeaderValue :=
  (headers.filter fun h => h.1 = name).map (·.2)

/-- The first value under a name. -/
def get (headers : HeaderMap) (name : String) : Option HeaderValue := (headers.getAll name).head?

def contains (headers : HeaderMap) (name : String) : Bool := (headers.get name).isSome

/-- Removes all values under a name. -/
def remove (headers : HeaderMap) (name : String) : HeaderMap :=
  headers.filter fun h => h.1 ≠ name

@[simp] theorem getAll_remove_self (headers : HeaderMap) (name : String) :
    (headers.remove name).getAll name = [] := by
  rw [getAll, remove, List.filter_filter, List.map_eq_nil_iff, List.filter_eq_nil_iff]
  intro h _
  by_cases hn : h.1 = name <;> simp [hn]

theorem getAll_remove_of_ne (headers : HeaderMap) {name other : String} (hne : other ≠ name) :
    (headers.remove name).getAll other = headers.getAll other := by
  rw [getAll, remove, List.filter_filter, getAll]
  congr 1
  refine List.filter_congr fun h _ => ?_
  by_cases ho : h.1 = other
  · simp [ho, hne]
  · simp [ho]

theorem getAll_eq_nil_of_remove {headers : HeaderMap} {name other : String}
    (h : headers.getAll other = []) : (headers.remove name).getAll other = [] := by
  by_cases hne : other = name
  · rw [hne, getAll_remove_self]
  · rw [getAll_remove_of_ne headers hne, h]

end HeaderMap

end Tokn
