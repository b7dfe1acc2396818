import Tokn.Convert.ResponsesEmitter

/-!
# The lifecycle of a Responses stream

What the Responses emitter is for, said without its counters and flags. A list of deltas is cut
into output items: consecutive deltas of one key (text, reasoning, or the call of one upstream
index) go to one item, and deltas that carry nothing go to none. A stream is the two opening
events, the events of each item in turn, and a terminal event, numbered from zero.
-/

namespace Tokn.Convert

open Value

/-! ## Output items -/

inductive ItemKind where
  | message
  | reasoning
  | functionCall (chatIndex : Nat) (announcedCallId announcedName callId name : String)
  deriving DecidableEq

/-- An output item: its place in the stream and the payloads of its deltas. -/
structure OutputItem where
  kind : ItemKind
  outputIndex : Nat
  itemId : String
  deltas : List String
  deriving DecidableEq

namespace OutputItem

/-- The concatenation of the delta payloads. -/
def text (item : OutputItem) : String := String.join item.deltas

/-- The arguments of a call: blank ones stand for the empty object. -/
def arguments (item : OutputItem) : String :=
  if Str.trim item.text = "" then "\x7b\x7d" else item.text

/-- The item as `output_item.done` and the terminal event show it. -/
def final (item : OutputItem) : Value :=
  match item.kind with
  | .message => messageItemValue item.itemId "completed" [outputTextPart item.text]
  | .reasoning => reasoningItemValue item.itemId "completed"
      [obj [("type", .string "reasoning_text"), ("text", .string item.text)]]
  | .functionCall _ _ _ callId name =>
    functionCallItemValue item.itemId "completed" callId name item.arguments

/-- The events that open the item. -/
def opening (item : OutputItem) : List (Nat → SseEvent) :=
  match item.kind with
  | .message =>
    [outputItemAdded item.outputIndex (messageItemValue item.itemId "in_progress" []),
      partEvent "response.content_part.added" item.itemId item.outputIndex
        [("part", outputTextPart "")]]
  | .reasoning =>
    [outputItemAdded item.outputIndex (reasoningItemValue item.itemId "in_progress" [])]
  | .functionCall _ callId name _ _ =>
    [outputItemAdded item.outputIndex
      (functionCallItemValue item.itemId "in_progress" callId name "")]

/-- The event of one delta of the item. -/
def deltaEvent (item : OutputItem) (delta : String) : Nat → SseEvent :=
  match item.kind with
  | .message => partEvent "response.output_text.delta" item.itemId item.outputIndex
      [("delta", .string delta)]
  | .reasoning => partEvent "response.reasoning_text.delta" item.itemId item.outputIndex
      [("delta", .string delta)]
  | .functionCall .. => itemEvent "response.function_call_arguments.delta" item.itemId
      item.outputIndex [("delta", .string delta)]

/-- The events that close the item. -/
def closing (item : OutputItem) : List (Nat → SseEvent) :=
  (match item.kind with
    | .message =>
      [partEvent "response.output_text.done" item.itemId item.outputIndex
          [("text", .string item.text)],
        partEvent "response.content_part.done" item.itemId item.outputIndex
          [("part", outputTextPart item.text)]]
    | .reasoning =>
      [partEvent "response.reasoning_text.done" item.itemId item.outputIndex
        [("text", .string item.text)]]
    | .functionCall .. =>
      [itemEvent "response.function_call_arguments.done" item.itemId item.outputIndex
        [("arguments", .string item.arguments)]]) ++
    [outputItemDone item.outputIndex item.final]

/-- The events of the item while it is open. -/
def openEvents (item : OutputItem) : List (Nat → SseEvent) :=
  item.opening ++ item.deltas.map item.deltaEvent

def events (item : OutputItem) : List (Nat → SseEvent) := item.openEvents ++ item.closing

/-- The text of a message item. -/
def messageText (item : OutputItem) : String :=
  match item.kind with
  | .message => item.text
  | _ => ""

/-- The prefix of the ids of a kind of item. -/
def idPrefix : ItemKind → String
  | .message => "msg"
  | .reasoning => "rs"
  | .functionCall .. => "fc"

/-- The item has the index and the id of the `n`-th item of a stream. -/
def At (item : OutputItem) (n : Nat) : Prop :=
  item.outputIndex = n ∧ item.itemId = idPrefix item.kind ++ "_" ++ toString (n + 1)

end OutputItem

/-! ## Cutting deltas into items -/

/-- What decides which item a delta goes to. -/
inductive DeltaKey where
  | text
  | reasoning
  | call (index : Nat)
  deriving DecidableEq

/-- The key of a delta that goes to some item. Text and reasoning do only when not empty. -/
def IrDelta.key : IrDelta → Option DeltaKey
  | .text s => if s = "" then none else some .text
  | .reasoning s => if s = "" then none else some .reasoning
  | .toolCall index _ _ _ => some (.call index)
  | .usage _ | .finish _ => none

/-- The payload a delta adds to its item, if it adds any. -/
def IrDelta.payload : IrDelta → List String
  | .text s | .reasoning s | .toolCall _ _ _ s => if s = "" then [] else [s]
  | .usage _ | .finish _ => []

def ItemKind.key : ItemKind → DeltaKey
  | .message => .text
  | .reasoning => .reasoning
  | .functionCall chatIndex _ _ _ _ => .call chatIndex

/-- The kind of an item after one more delta: a call without an id or a name takes the first it
is given. -/
def ItemKind.push (itemId : String) : ItemKind → IrDelta → ItemKind
  | .functionCall ci announcedId announcedName callId name, .toolCall _ id nameHint _ =>
    .functionCall ci announcedId announcedName
      (ResponsesEmitter.fillCallId itemId callId id) (ResponsesEmitter.fillName name nameHint)
  | kind, _ => kind

/-- The kind of the item a delta opens. -/
def ItemKind.ofDelta (itemId : String) : IrDelta → ItemKind
  | .toolCall index id name _ =>
    .functionCall index (id.getD itemId) (name.getD "") (id.getD itemId) (name.getD "")
  | .reasoning _ => .reasoning
  | _ => .message

def OutputItem.push (item : OutputItem) (delta : IrDelta) : OutputItem :=
  { item with kind := item.kind.push item.itemId delta, deltas := item.deltas ++ delta.payload }

/-- The prefix of the id of the item a key opens. -/
def DeltaKey.idPrefix : DeltaKey → String
  | .text => "msg"
  | .reasoning => "rs"
  | .call _ => "fc"

/-- The item a delta of key `k` opens as the `n`-th of the stream. -/
def OutputItem.start (n : Nat) (k : DeltaKey) (delta : IrDelta) : OutputItem :=
  let itemId := k.idPrefix ++ "_" ++ toString (n + 1)
  OutputItem.push
    { kind := .ofDelta itemId delta, outputIndex := n, itemId := itemId, deltas := [] } delta

/-- The items of a stream: those closed, and the one that is open. -/
structure Items where
  closed : List OutputItem := []
  opened : Option OutputItem := none
  deriving DecidableEq

namespace Items

/-- All items, in order. -/
def all (items : Items) : List OutputItem := items.closed ++ items.opened.toList

/-- Whether the open item has the key `k`. -/
def isOpen (items : Items) (k : DeltaKey) : Bool := items.opened.any fun item => item.kind.key = k

/-- One delta: into the open item if that has its key, and into a new one otherwise. -/
def push (items : Items) (delta : IrDelta) : Items :=
  match delta.key with
  | none => items
  | some k =>
    if items.isOpen k then { items with opened := items.opened.map fun item => item.push delta }
    else { closed := items.all, opened := some (.start items.all.length k delta) }

def ofDeltas (deltas : List IrDelta) : Items := deltas.foldl push {}

/-- The events of the items so far. -/
def bodies (items : Items) : List (Nat → SseEvent) :=
  items.closed.flatMap OutputItem.events ++ (items.opened.map OutputItem.openEvents).getD []

/-- The text of the message items. -/
def messageText (items : Items) : String := String.join (items.all.map OutputItem.messageText)

end Items

/-! ## Streams -/

/-- The events of a list of bodies, numbered from `n`. -/
def numbered (n : Nat) : List (Nat → SseEvent) → List SseEvent
  | [] => []
  | body :: bodies => body n :: numbered (n + 1) bodies

/-- The two opening events, with the response as each shows it. -/
def prologue (created inProgress : Value) : List (Nat → SseEvent) :=
  [responsesEvent "response.created" [("response", created)],
    responsesEvent "response.in_progress" [("response", inProgress)]]

def terminal (status : String) (response : Value) : Nat → SseEvent :=
  responsesEvent (ResponsesEmitter.terminalType status) [("response", response)]

end Tokn.Convert

/-!
## The items deltas are cut into

Cutting deltas into items loses no text, gives the items their indices in order, and gives no two
of them one id.
-/

namespace Tokn.Convert

/-! ### Ids -/

/-- Two numbers that print alike are one. -/
theorem toString_inj {m n : Nat} (h : toString m = toString n) : m = n := by
  have hdigits : Nat.toDigits 10 m = Nat.toDigits 10 n := by
    simpa [← Nat.toList_repr] using congrArg String.toList h
  simpa using congrArg (fun digits => Nat.ofDigitChars 10 digits 0) hdigits

/-- Behind its prefix an item id starts with an underscore. -/
theorem dropWhile_itemId (kind : ItemKind) (n : Nat) :
    (OutputItem.idPrefix kind ++ "_" ++ toString n).toList.dropWhile (· ≠ '_') =
      '_' :: (toString n).toList := by
  rw [String.toList_append, String.toList_append]
  cases kind <;> simp [OutputItem.idPrefix]

theorem OutputItem.At.itemId_inj {item item' : OutputItem} {n n' : Nat} (h : item.At n)
    (h' : item'.At n') (heq : item.itemId = item'.itemId) : n = n' := by
  have hdrop := congrArg (fun s : String => s.toList.dropWhile (· ≠ '_')) heq
  simp only [h.2, h'.2, dropWhile_itemId, List.cons.injEq, true_and, String.toList_inj] at hdrop
  exact Nat.succ_injective (toString_inj hdrop)

/-! ### Places -/

namespace OutputItem

theorem idPrefix_push (item : OutputItem) (delta : IrDelta) :
    idPrefix (item.push delta).kind = idPrefix item.kind := by
  obtain ⟨kind, outputIndex, itemId, deltas⟩ := item
  cases kind <;> cases delta <;> rfl

theorem At.push {item : OutputItem} {n : Nat} (h : item.At n) (delta : IrDelta) :
    (item.push delta).At n := by
  refine ⟨h.1, ?_⟩
  rw [idPrefix_push]
  exact h.2

theorem at_start {n : Nat} {k : DeltaKey} {delta : IrDelta} (h : delta.key = some k) :
    (start n k delta).At n := by
  refine At.push ⟨rfl, ?_⟩ delta
  cases delta <;> simp only [IrDelta.key, Option.ite_none_left_eq_some, Option.some.injEq,
    reduceCtorEq] at h
  · obtain ⟨-, rfl⟩ := h; rfl
  · obtain ⟨-, rfl⟩ := h; rfl
  · subst h; rfl

theorem messageText_push {item : OutputItem} {delta : IrDelta}
    (h : delta.key = some item.kind.key) :
    (item.push delta).messageText = item.messageText ++ delta.textOf := by
  obtain ⟨kind, outputIndex, itemId, deltas⟩ := item
  cases delta with
  | text s =>
    cases kind <;> simp [IrDelta.key, ItemKind.key] at h
    simp [OutputItem.push, ItemKind.push, messageText, text, IrDelta.payload, h]
  | reasoning s =>
    cases kind <;> simp [IrDelta.key, ItemKind.key] at h
    simp [OutputItem.push, ItemKind.push, messageText]
  | toolCall index id name argumentsDelta =>
    cases kind <;> simp [IrDelta.key, ItemKind.key] at h
    simp [OutputItem.push, ItemKind.push, messageText]
  | usage u => simp [IrDelta.key] at h
  | finish reason => simp [IrDelta.key] at h

theorem messageText_start {n : Nat} {k : DeltaKey} {delta : IrDelta} (h : delta.key = some k) :
    (start n k delta).messageText = delta.textOf := by
  have hkey (itemId : String) : delta.key = some (ItemKind.ofDelta itemId delta).key := by
    cases delta <;> simp_all [IrDelta.key, ItemKind.ofDelta, ItemKind.key]
  rw [start, messageText_push (hkey _)]
  cases delta <;> simp [messageText, ItemKind.ofDelta, text]

end OutputItem

/-! ### Items -/

namespace Items

/-- What one delta can do. -/
theorem push_cases (items : Items) (delta : IrDelta) :
    (delta.key = none ∧ items.push delta = items) ∨
    (∃ item, items.opened = some item ∧ delta.key = some item.kind.key ∧
      items.push delta = { items with opened := some (item.push delta) }) ∨
    (∃ k, delta.key = some k ∧ items.isOpen k = false ∧
      items.push delta =
        { closed := items.all, opened := some (.start items.all.length k delta) }) := by
  cases hkey : delta.key with
  | none => exact Or.inl ⟨rfl, by simp [push, hkey]⟩
  | some k =>
    cases hopen : items.isOpen k with
    | true =>
      obtain ⟨item, hitem, rfl⟩ : ∃ item, items.opened = some item ∧ item.kind.key = k := by
        simpa [isOpen, Option.any_eq_true] using hopen
      exact Or.inr (Or.inl ⟨item, hitem, rfl, by simp [push, hkey, hopen, hitem]⟩)
    | false => exact Or.inr (Or.inr ⟨k, rfl, hopen, by simp [push, hkey, hopen]⟩)

/-- Every item has the index and the id of its place. -/
def Placed (items : Items) : Prop :=
  ∀ n item, items.all[n]? = some item → OutputItem.At item n

theorem Placed.push {items : Items} (h : items.Placed) (delta : IrDelta) :
    (items.push delta).Placed := by
  rcases push_cases items delta with ⟨-, hpush⟩ | ⟨item, hitem, hkey, hpush⟩ |
    ⟨k, hkey, -, hpush⟩ <;> rw [hpush]
  · exact h
  · intro n item' hn
    have hall : items.all = items.closed ++ [item] := by simp [all, hitem]
    simp only [all, Option.toList_some] at hn
    rcases Nat.lt_or_ge n items.closed.length with hlt | hge
    · refine h n item' ?_
      rwa [hall, List.getElem?_append_left hlt, ← List.getElem?_append_left hlt]
    · rw [List.getElem?_append_right hge, List.getElem?_singleton] at hn
      split_ifs at hn with hzero
      cases hn
      refine (h n item ?_).push delta
      rw [hall, List.getElem?_append_right hge, hzero]
      rfl
  · intro n item' hn
    simp only [all, Option.toList_some] at hn
    rcases Nat.lt_or_ge n items.all.length with hlt | hge
    · refine h n item' ?_
      rwa [List.getElem?_append_left (by exact hlt)] at hn
    · rw [List.getElem?_append_right (by exact hge), List.getElem?_singleton] at hn
      split_ifs at hn with hzero
      cases hn
      obtain rfl : n = items.all.length := Nat.le_antisymm (Nat.le_of_sub_eq_zero hzero) hge
      exact OutputItem.at_start hkey

theorem messageText_push (items : Items) (delta : IrDelta) :
    (items.push delta).messageText = items.messageText ++ delta.textOf := by
  rcases push_cases items delta with ⟨hkey, hpush⟩ | ⟨item, hitem, hkey, hpush⟩ |
    ⟨k, hkey, -, hpush⟩ <;> rw [hpush]
  · cases delta <;> simp_all [IrDelta.key]
  · simp [messageText, all, hitem, OutputItem.messageText_push hkey, String.append_assoc]
  · simp [messageText, all, OutputItem.messageText_start hkey, String.append_assoc]

/-! ### Whole streams -/

theorem Placed.foldl_push {items : Items} (h : items.Placed) (deltas : List IrDelta) :
    (deltas.foldl Items.push items).Placed := by
  induction deltas generalizing items with
  | nil => exact h
  | cons delta deltas ih => exact ih (h.push delta)

theorem placed_ofDeltas (deltas : List IrDelta) : (ofDeltas deltas).Placed := by
  have hempty : ({} : Items).Placed := by simp [Placed, all]
  exact hempty.foldl_push deltas

theorem messageText_ofDeltas (deltas : List IrDelta) :
    (ofDeltas deltas).messageText = String.join (deltas.map IrDelta.textOf) := by
  have hfold (items : Items) : (deltas.foldl push items).messageText =
      items.messageText ++ String.join (deltas.map IrDelta.textOf) := by
    induction deltas generalizing items with
    | nil => simp
    | cons delta deltas ih => simp [ih, messageText_push, String.append_assoc]
  rw [ofDeltas, hfold]
  simp [messageText, all]

theorem Placed.outputIndex {items : Items} (h : items.Placed) :
    items.all.map OutputItem.outputIndex = List.range items.all.length := by
  refine List.ext_getElem (by simp) fun n hn hn' => ?_
  rw [List.getElem_map, List.getElem_range]
  exact (h n _ (List.getElem?_eq_getElem _)).1

theorem Placed.nodup_itemId {items : Items} (h : items.Placed) :
    (items.all.map OutputItem.itemId).Nodup := by
  rw [List.Nodup, List.pairwise_iff_getElem]
  intro m n hm hn hlt heq
  rw [List.getElem_map, List.getElem_map] at heq
  have := (h m _ (List.getElem?_eq_getElem _)).itemId_inj (h n _ (List.getElem?_eq_getElem _)) heq
  omega

end Items

end Tokn.Convert
