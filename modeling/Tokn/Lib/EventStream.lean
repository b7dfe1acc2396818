import Tokn.Lib.Utf8

/-!
# The event stream format

A stream of server-sent events is a text of lines that end with a line feed, a carriage return or
both. A line is a field of the event that is being read, and an empty line dispatches that event.

**Theorem (`events_fields`).** Fields that are followed by an empty line give the event of their
buffers, and what follows is read with empty buffers.
-/

namespace Tokn.EventStream

/-- An event; the name is that of the type buffer, unless the buffer is empty. -/
structure Event where
  name : Option (List Char)
  data : List Char
  deriving DecidableEq

/-- The event type buffer and the data buffer. -/
structure Buffers where
  eventType : List Char := []
  data : List Char := []
  deriving DecidableEq

/-- The lines that are ended. An unfinished last line is discarded. -/
def splitLines (line : List Char) : List Char → List (List Char)
  | [] => []
  | '\r' :: '\n' :: rest => line :: splitLines [] rest
  | c :: rest =>
    if c = '\r' ∨ c = '\n' then line :: splitLines [] rest else splitLines (line ++ [c]) rest

/-- The name and the value of a field. One space after the colon does not belong to the value. -/
def fieldOf (line : List Char) : List Char × List Char :=
  let value := (line.dropWhile (· ≠ ':')).tail
  (line.takeWhile (· ≠ ':'), if value.head? = some ' ' then value.tail else value)

/-- A field. A comment is a field without a name, and `id` and `retry` are about reconnection. -/
def Buffers.field (b : Buffers) (line : List Char) : Buffers :=
  if (fieldOf line).1 = "event".toList then { b with eventType := (fieldOf line).2 }
  else if (fieldOf line).1 = "data".toList then
    { b with data := b.data ++ (fieldOf line).2 ++ ['\n'] }
  else b

/-- An empty line. Without data there is no event. -/
def Buffers.dispatch (b : Buffers) : Option Event :=
  if b.data = [] then none
  else some
    { name := if b.eventType = [] then none else some b.eventType
      data := if b.data.getLast? = some '\n' then b.data.dropLast else b.data }

/-- The events of some lines. Fields that no empty line follows are discarded. -/
def events (b : Buffers) : List (List Char) → List Event
  | [] => []
  | [] :: lines => b.dispatch.toList ++ events {} lines
  | line :: lines => events (b.field line) lines

/-- A byte order mark at the start is not part of the text. -/
def dropMark : List Char → List Char
  | '\uFEFF' :: text => text
  | text => text

def ofText (text : List Char) : List Event := events {} (splitLines [] (dropMark text))

/-- The events of a stream, if its bytes are valid UTF-8. -/
def decode (bytes : List UInt8) : Option (List Event) :=
  (String.fromUTF8? ⟨bytes.toArray⟩).map fun text => ofText text.toList

theorem dropMark_of_head? {text : List Char} (h : text.head? ≠ some '\uFEFF') :
    dropMark text = text := by
  unfold dropMark
  split
  · exact absurd rfl h
  · rfl

/-! ## Lines -/

theorem splitLines_append {l : List Char} (hn : '\n' ∉ l) (hr : '\r' ∉ l)
    (line rest : List Char) :
    splitLines line (l ++ '\n' :: rest) = (line ++ l) :: splitLines [] rest := by
  induction l generalizing line with
  | nil => simp [splitLines]
  | cons c l ih =>
    obtain ⟨hcn, hln⟩ := not_or.mp (mt List.mem_cons.mpr hn)
    obtain ⟨hcr, hlr⟩ := not_or.mp (mt List.mem_cons.mpr hr)
    rw [List.cons_append, splitLines, if_neg (by simp [Ne.symm hcn, Ne.symm hcr]), ih hln hlr,
      List.append_assoc, List.singleton_append]
    exact fun _ h _ => hcr h.symm

/-- Lines that are written one after the other, each with its line feed. -/
theorem splitLines_flatMap {lines : List (List Char)}
    (h : ∀ l ∈ lines, '\n' ∉ l ∧ '\r' ∉ l) (rest : List Char) :
    splitLines [] (lines.flatMap (· ++ ['\n']) ++ rest) = lines ++ splitLines [] rest := by
  induction lines with
  | nil => rfl
  | cons l lines ih =>
    obtain ⟨hn, hr⟩ := h l List.mem_cons_self
    rw [List.flatMap_cons, List.append_assoc, List.append_assoc, List.singleton_append,
      splitLines_append hn hr, ih fun l hl => h l (List.mem_cons_of_mem _ hl)]
    rfl

/-! ## Fields -/

theorem fieldOf_append {name : List Char} (hname : ':' ∉ name) (value : List Char) :
    fieldOf (name ++ ':' :: ' ' :: value) = (name, value) := by
  have hne : ∀ c ∈ name, decide (c ≠ ':') = true := by
    intro c hc
    exact decide_eq_true fun h => hname (h ▸ hc)
  rw [fieldOf, List.takeWhile_append_of_pos hne, List.dropWhile_append_of_pos hne]
  simp

theorem field_event (b : Buffers) (value : List Char) :
    b.field ("event: ".toList ++ value) = { b with eventType := value } := by
  have hname : ':' ∉ "event".toList := by decide
  have h : fieldOf ("event: ".toList ++ value) = ("event".toList, value) := fieldOf_append hname value
  rw [Buffers.field, h, if_pos rfl]

theorem field_data (b : Buffers) (value : List Char) :
    b.field ("data: ".toList ++ value) = { b with data := b.data ++ value ++ ['\n'] } := by
  have hname : ':' ∉ "data".toList := by decide
  have h : fieldOf ("data: ".toList ++ value) = ("data".toList, value) := fieldOf_append hname value
  have hne : "data".toList ≠ "event".toList := by decide
  rw [Buffers.field, h, if_neg hne, if_pos rfl]

/-- The data buffer after some data fields. -/
theorem foldl_data (b : Buffers) (values : List (List Char)) :
    (values.map ("data: ".toList ++ ·)).foldl Buffers.field b =
      { b with data := b.data ++ values.flatMap (· ++ ['\n']) } := by
  induction values generalizing b with
  | nil => simp
  | cons value values ih =>
    rw [List.map_cons, List.foldl_cons, field_data, ih]
    simp

/-! ## Events -/

/-- Data fields leave a newline at the end of the buffer. -/
theorem dispatch_of_getLast? {b : Buffers} (h : b.data.getLast? = some '\n') :
    b.dispatch = some
      { name := if b.eventType = [] then none else some b.eventType
        data := b.data.dropLast } := by
  have hne : b.data ≠ [] := by
    intro hnil
    rw [hnil] at h
    cases h
  rw [Buffers.dispatch, if_neg hne, if_pos h]

/-- **Fields and an empty line.** -/
theorem events_fields {fields : List (List Char)} (h : ∀ l ∈ fields, l ≠ []) (b : Buffers)
    (rest : List (List Char)) :
    events b (fields ++ [] :: rest) =
      (fields.foldl Buffers.field b).dispatch.toList ++ events {} rest := by
  induction fields generalizing b with
  | nil => rfl
  | cons l fields ih =>
    obtain ⟨c, l, rfl⟩ := List.exists_cons_of_ne_nil (h _ List.mem_cons_self)
    exact ih (fun l hl => h l (List.mem_cons_of_mem _ hl)) _

theorem decode_utf8Bytes (s : String) : decode (Str.utf8Bytes s) = some (ofText s.toList) := by
  rw [decode, Str.fromUTF8?_utf8Bytes, Option.map_some]

example : ofText "event: a\ndata: x\ndata:y\n\n:\ndata\n\ndata: z".toList =
    [⟨some ['a'], "x\ny".toList⟩, ⟨none, []⟩] := by decide

end Tokn.EventStream
