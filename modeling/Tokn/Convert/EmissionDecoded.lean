import Tokn.Convert.AccumulatedCalls
import Tokn.Convert.ToolCalls

/-!
# The stream of a Responses emitter, read back

What the accumulator decodes from the events of a list of output items.

**Text and reasoning** (`Shows.say_ofDeltas`, `Shows.hear_items`). What an item says is what its
deltas say, and the accumulator hears all of it.

**Calls** (`fragmentsFrom_items`). The fragments of a call come with the index of its item, and with
the id and the name that the item was announced with.
-/

namespace Tokn.Convert.EmitterRoundTrip

open Value
open WireCalls (CallMark KnownItem WireState observeItem isItemEvent announcement responsesFragment)

/-! ## The values of a stream -/

/-- The value of an event. -/
def valueOf (kind : String) (fields : List (String × Value)) (n : Nat) : Value :=
  obj ([("type", .string kind), ("sequence_number", nat n)] ++ fields)

/-- The values of some events, numbered from `n`. -/
def values (n : Nat) (bodies : List (Nat → SseEvent)) : List Value :=
  (numbered n bodies).filterMap SseEvent.json

theorem values_append (n : Nat) (as bs : List (Nat → SseEvent)) :
    values n (as ++ bs) = values n as ++ values (n + as.length) bs := by
  rw [values, numbered_append, List.filterMap_append]
  rfl

theorem values_cons (n : Nat) (kind : String) (fields : List (String × Value))
    (bodies : List (Nat → SseEvent)) :
    values n (responsesEvent kind fields :: bodies) =
      valueOf kind fields n :: values (n + 1) bodies := rfl

theorem get_valueOf (kind : String) (fields : List (String × Value)) (n : Nat) (k : String) :
    (valueOf kind fields n).get k = (BTreeMap.get fields.reverse k).or
      (BTreeMap.get [("sequence_number", nat n), ("type", .string kind)] k) := by
  rw [valueOf, get_obj, List.reverse_append, BTreeMap.get_append]
  rfl

theorem type_valueOf {kind : String} {fields : List (String × Value)}
    (h : BTreeMap.get fields.reverse "type" = none) (n : Nat) :
    (valueOf kind fields n).str "type" = some kind := by
  rw [str, get_valueOf, h]
  rfl

/-! ## What is said -/

/-- A reading of deltas as text. -/
structure Shows (said : IrDelta → String) : Prop where
  text : said (.text "") = ""
  reasoning : said (.reasoning "") = ""
  call : ∀ index id name argumentsDelta, said (.toolCall index id name argumentsDelta) = ""
  usage : ∀ usage, said (.usage usage) = ""
  finish : ∀ reason, said (.finish reason) = ""

def reasoningOf : IrDelta → String
  | .reasoning s => s
  | .text _ | .toolCall .. | .usage _ | .finish _ => ""

theorem shows_textOf : Shows IrDelta.textOf :=
  ⟨rfl, rfl, fun _ _ _ _ => rfl, fun _ => rfl, fun _ => rfl⟩

theorem shows_reasoningOf : Shows reasoningOf :=
  ⟨rfl, rfl, fun _ _ _ _ => rfl, fun _ => rfl, fun _ => rfl⟩

/-- What the deltas of an event say. -/
def heard (said : IrDelta → String) (value : Value) : String :=
  String.join ((Responses.deltaFromResponsesEvent value).map said)

/-- A delta of an item, as it is decoded. -/
def itemDelta : ItemKind → String → IrDelta
  | .message, s => .text s
  | .reasoning, s => .reasoning s
  | .functionCall chatIndex .., s => .toolCall chatIndex none none s

/-- What an item says. -/
def say (said : IrDelta → String) (item : OutputItem) : String :=
  String.join (item.deltas.map fun s => said (itemDelta item.kind s))

section

variable {said : IrDelta → String}

theorem Shows.of_key_none (h : Shows said) {delta : IrDelta} (hkey : delta.key = none) :
    said delta = "" := by
  cases delta with
  | text s =>
    have hs : s = "" := by simpa [IrDelta.key] using hkey
    rw [hs, h.text]
  | reasoning s =>
    have hs : s = "" := by simpa [IrDelta.key] using hkey
    rw [hs, h.reasoning]
  | toolCall => cases hkey
  | usage u => exact h.usage u
  | finish reason => exact h.finish reason

theorem join_map_eq_empty {α : Type*} {xs : List α} {f : α → String} (h : ∀ x ∈ xs, f x = "") :
    String.join (xs.map f) = "" := by
  rw [List.map_congr_left h]
  induction xs with
  | nil => rfl
  | cons x xs ih =>
    rw [List.map_cons, String.join_cons, ih fun x hx => h x (List.mem_cons_of_mem _ hx),
      String.append_empty]

theorem Shows.say_call (h : Shows said) (chatIndex : Nat) (a b c d : String) (n : Nat) (itemId : String)
    (deltas : List String) :
    say said ⟨.functionCall chatIndex a b c d, n, itemId, deltas⟩ = "" :=
  join_map_eq_empty fun _ _ => h.call ..

/-- A delta adds to its item what it says. -/
theorem Shows.say_push (h : Shows said) {item : OutputItem} {delta : IrDelta}
    (hkey : delta.key = some item.kind.key) :
    say said (item.push delta) = say said item ++ said delta := by
  obtain ⟨kind, outputIndex, itemId, deltas⟩ := item
  cases kind with
  | message =>
    cases delta <;> simp [IrDelta.key, ItemKind.key] at hkey
    simp [say, OutputItem.push, ItemKind.push, IrDelta.payload, hkey, itemDelta]
  | reasoning =>
    cases delta <;> simp [IrDelta.key, ItemKind.key] at hkey
    simp [say, OutputItem.push, ItemKind.push, IrDelta.payload, hkey, itemDelta]
  | functionCall =>
    cases delta <;> simp [IrDelta.key, ItemKind.key] at hkey
    rw [h.say_call, h.call]
    exact h.say_call ..

theorem Shows.say_start (h : Shows said) {n : Nat} {k : DeltaKey} {delta : IrDelta}
    (hkey : delta.key = some k) : say said (.start n k delta) = said delta := by
  cases delta with
  | text s =>
    have hs : s ≠ "" := by
      rintro rfl
      cases hkey
    simp [OutputItem.start, say, OutputItem.push, ItemKind.push, ItemKind.ofDelta, IrDelta.payload,
      hs, itemDelta]
  | reasoning s =>
    have hs : s ≠ "" := by
      rintro rfl
      cases hkey
    simp [OutputItem.start, say, OutputItem.push, ItemKind.push, ItemKind.ofDelta, IrDelta.payload,
      hs, itemDelta]
  | toolCall =>
    rw [h.call]
    exact h.say_call ..
  | usage => cases hkey
  | finish => cases hkey

/-- What the items of a stream say. -/
def sayAll (said : IrDelta → String) (items : Items) : String :=
  String.join (items.all.map (say said))

theorem Shows.sayAll_push (h : Shows said) (items : Items) (delta : IrDelta) :
    sayAll said (items.push delta) = sayAll said items ++ said delta := by
  rcases Items.push_cases items delta with ⟨hkey, hpush⟩ | ⟨item, hitem, hkey, hpush⟩ |
    ⟨k, hkey, -, hpush⟩ <;> rw [hpush]
  · rw [h.of_key_none hkey, String.append_empty]
  · simp [sayAll, Items.all, hitem, h.say_push hkey, String.append_assoc]
  · simp [sayAll, Items.all, h.say_start hkey, String.append_assoc]

/-- **The items say what the deltas say.** -/
theorem Shows.say_ofDeltas (h : Shows said) (deltas : List IrDelta) :
    sayAll said (Items.ofDeltas deltas) = String.join (deltas.map said) := by
  induction deltas using List.reverseRecOn with
  | nil => rfl
  | append_singleton deltas delta ih =>
    rw [Items.ofDeltas_concat, h.sayAll_push, ih, List.map_append, String.join_append]
    simp

/-! ### What the events of an item say -/

/-- The event body is of a kind. -/
def IsKind (body : Nat → SseEvent) (kind : String) : Prop :=
  ∃ fields, body = responsesEvent kind fields ∧ BTreeMap.get fields.reverse "type" = none ∧
    BTreeMap.get fields.reverse "response" = none

/-- The kinds of event that close an item before it is shown as done. -/
def closingKinds : List String :=
  ["response.output_text.done", "response.content_part.done", "response.reasoning_text.done",
    "response.function_call_arguments.done"]

/-- An item as it is shown when it is added. -/
def addedItem (item : OutputItem) : Value :=
  match item.kind with
  | .message => messageItemValue item.itemId "in_progress" []
  | .reasoning => reasoningItemValue item.itemId "in_progress" []
  | .functionCall _ callId name _ _ =>
    functionCallItemValue item.itemId "in_progress" callId name ""

/-- An item is shown as added, and then opened by events that say nothing. -/
theorem kinds_opening (item : OutputItem) : ∃ bodies,
    item.opening = outputItemAdded item.outputIndex (addedItem item) :: bodies ∧
      ∀ body ∈ bodies, IsKind body "response.content_part.added" := by
  obtain ⟨kind, outputIndex, itemId, deltas⟩ := item
  cases kind with
  | message =>
    refine ⟨_, rfl, fun body hbody => ?_⟩
    rw [List.mem_singleton.mp hbody]
    exact ⟨_, rfl, rfl, rfl⟩
  | reasoning => exact ⟨_, rfl, fun _ hbody => nomatch hbody⟩
  | functionCall => exact ⟨_, rfl, fun _ hbody => nomatch hbody⟩

/-- An item is closed by events that say nothing new, and then shown as done. -/
theorem kinds_closing (item : OutputItem) : ∃ bodies,
    item.closing = bodies ++ [outputItemDone item.outputIndex item.final] ∧
      ∀ body ∈ bodies, ∃ kind ∈ closingKinds, IsKind body kind := by
  refine ⟨_, rfl, ?_⟩
  obtain ⟨kind, outputIndex, itemId, deltas⟩ := item
  cases kind with
  | message =>
    simp only [List.forall_mem_cons, List.not_mem_nil, false_implies, implies_true, and_true]
    exact ⟨⟨_, by decide, _, rfl, rfl, rfl⟩, ⟨_, by decide, _, rfl, rfl, rfl⟩⟩
  | reasoning =>
    simp only [List.forall_mem_singleton]
    exact ⟨_, by decide, _, rfl, rfl, rfl⟩
  | functionCall =>
    simp only [List.forall_mem_singleton]
    exact ⟨_, by decide, _, rfl, rfl, rfl⟩

/-- The kinds of event that have deltas. -/
def spoken : List String :=
  ["response.output_text.delta", "response.reasoning_summary_text.delta",
    "response.reasoning_text.delta", "response.function_call_arguments.delta",
    "response.custom_tool_call_input.delta", "response.completed"]

theorem heard_of_kind {kind : String} {fields : List (String × Value)} (n : Nat)
    (htype : BTreeMap.get fields.reverse "type" = none) (hkind : kind ∉ spoken) :
    heard said (valueOf kind fields n) = "" := by
  rw [heard, Responses.deltaFromResponsesEvent, type_valueOf htype]
  split <;> simp_all [spoken]

/-- What some events say, numbered from `n`. -/
def hear (said : IrDelta → String) (n : Nat) (bodies : List (Nat → SseEvent)) : String :=
  String.join ((values n bodies).map (heard said))

theorem hear_append (n : Nat) (as bs : List (Nat → SseEvent)) :
    hear said n (as ++ bs) = hear said n as ++ hear said (n + as.length) bs := by
  rw [hear, values_append, List.map_append, String.join_append]
  rfl

theorem hear_of_kinds {bodies : List (Nat → SseEvent)}
    (h : ∀ body ∈ bodies, ∃ kind ∉ spoken, IsKind body kind) (n : Nat) :
    hear said n bodies = "" := by
  induction bodies generalizing n with
  | nil => rfl
  | cons body bodies ih =>
    obtain ⟨kind, hkind, fields, rfl, htype, -⟩ := h body List.mem_cons_self
    rw [hear, values_cons, List.map_cons, String.join_cons, heard_of_kind n htype hkind,
      String.empty_append]
    exact ih (fun body hbody => h body (List.mem_cons_of_mem _ hbody)) (n + 1)

theorem Shows.heard_delta (h : Shows said) (item : OutputItem) (s : String) (n : Nat) :
    hear said n [item.deltaEvent s] = said (itemDelta item.kind s) := by
  have hone : ∀ x : String, String.join [x] = x := fun x => by simp
  obtain ⟨kind, outputIndex, itemId, deltas⟩ := item
  cases kind with
  | message =>
    refine (hone (heard said (valueOf "response.output_text.delta" _ n))).trans ?_
    rw [heard, Responses.deltaFromResponsesEvent, type_valueOf rfl]
    simp [str, get_valueOf, BTreeMap.get_cons, asStr, itemDelta]
  | reasoning =>
    refine (hone (heard said (valueOf "response.reasoning_text.delta" _ n))).trans ?_
    rw [heard, Responses.deltaFromResponsesEvent, type_valueOf rfl]
    simp [str, get_valueOf, BTreeMap.get_cons, asStr, itemDelta]
  | functionCall =>
    refine (hone (heard said (valueOf "response.function_call_arguments.delta" _ n))).trans ?_
    rw [heard, Responses.deltaFromResponsesEvent, type_valueOf rfl]
    simp [itemDelta, h.call]

theorem Shows.heard_deltas (h : Shows said) (item : OutputItem) (deltas : List String) (n : Nat) :
    hear said n (deltas.map item.deltaEvent) =
      String.join (deltas.map fun s => said (itemDelta item.kind s)) := by
  induction deltas generalizing n with
  | nil => rfl
  | cons s deltas ih =>
    rw [List.map_cons, ← List.singleton_append, hear_append, h.heard_delta, ih, List.map_cons,
      String.join_cons]

theorem closingKinds_not_spoken : ∀ kind ∈ closingKinds, kind ∉ spoken := by decide

/-- The events of an item say what the item says. -/
theorem Shows.hear_events (h : Shows said) (item : OutputItem) (n : Nat) :
    hear said n item.events = say said item := by
  obtain ⟨opening, hopening, hparts⟩ := kinds_opening item
  obtain ⟨closing, hclosing, hclosed⟩ := kinds_closing item
  have hbefore : ∀ m, hear said m item.opening = "" := hear_of_kinds fun body hbody => by
    rw [hopening] at hbody
    rcases List.mem_cons.mp hbody with rfl | hbody
    · exact ⟨_, by decide, _, rfl, rfl, rfl⟩
    · exact ⟨_, by decide, hparts body hbody⟩
  have hafter : ∀ m, hear said m item.closing = "" := hear_of_kinds fun body hbody => by
    rw [hclosing] at hbody
    rcases List.mem_append.mp hbody with hbody | hbody
    · obtain ⟨kind, hmem, hkind⟩ := hclosed body hbody
      exact ⟨kind, closingKinds_not_spoken kind hmem, hkind⟩
    · rw [List.mem_singleton.mp hbody]
      exact ⟨_, by decide, _, rfl, rfl, rfl⟩
  rw [OutputItem.events, OutputItem.openEvents, hear_append, hear_append, hbefore, hafter,
    h.heard_deltas, String.empty_append, String.append_empty]
  rfl

/-- **The accumulator hears the items.** -/
theorem Shows.hear_items (h : Shows said) (items : List OutputItem) (n : Nat) :
    hear said n (items.flatMap OutputItem.events) = String.join (items.map (say said)) := by
  induction items generalizing n with
  | nil => rfl
  | cons item items ih =>
    rw [List.flatMap_cons, hear_append, h.hear_events, ih, List.map_cons, String.join_cons]

end

/-! ## Fragments of calls -/

/-- The fragments of a stream, from what is known of its items. -/
def fragmentsFrom (known : Nat → KnownItem) : List Value → List CallMark
  | [] => []
  | value :: values =>
    responsesFragment (observeItem known value) value ++
      fragmentsFrom (observeItem known value) values

theorem fragmentsFrom_append (known : Nat → KnownItem) (vs ws : List Value) :
    fragmentsFrom known (vs ++ ws) =
      fragmentsFrom known vs ++ fragmentsFrom (vs.foldl observeItem known) ws := by
  induction vs generalizing known with
  | nil => rfl
  | cons v vs ih => rw [List.cons_append, fragmentsFrom, ih, fragmentsFrom, List.append_assoc,
      List.foldl_cons]

theorem fragments_responsesFragment (known : Nat → KnownItem) (value : Value) :
    WireCalls.fragments (responsesFragment known value) = responsesFragment known value := by
  rw [responsesFragment]
  split_ifs <;> rfl

/-- The marks of a Responses stream that have a fragment. -/
theorem fragments_run (w : WireState) (vs : List Value) :
    WireCalls.fragments (Machine.run (WireCalls.step .responses) w vs).2.flatten =
      fragmentsFrom w.known vs := by
  induction vs generalizing w with
  | nil => rfl
  | cons v vs ih =>
    have hrest := ih { w with known := observeItem w.known v }
    rw [Machine.run_cons, List.flatten_cons, WireCalls.fragments, List.filter_append,
      ← WireCalls.fragments, ← WireCalls.fragments, fragmentsFrom]
    refine congrArg₂ (· ++ ·) ?_ hrest
    show WireCalls.fragments (announcement v ++ responsesFragment (observeItem w.known v) v) = _
    rw [WireCalls.fragments, List.filter_append, ← WireCalls.fragments, ← WireCalls.fragments,
      WireCalls.fragments_announcement, fragments_responsesFragment, List.nil_append]

/-- The fragments of a call: its place and what it was announced with. -/
def itemFragments (item : OutputItem) : List CallMark :=
  match item.kind with
  | .functionCall _ callId name _ _ =>
    item.deltas.map fun s => ⟨item.outputIndex, some callId, some name, some s⟩
  | _ => []

/-- The kinds of event that are about items or arguments. -/
def telling : List String :=
  ["response.output_item.added", "response.output_item.done",
    "response.function_call_arguments.delta", "response.custom_tool_call_input.delta"]

/-- Other events tell nothing about calls. -/
theorem silent_of_kind {kind : String} {fields : List (String × Value)} (n : Nat)
    (htype : BTreeMap.get fields.reverse "type" = none) (hkind : kind ∉ telling)
    (known : Nat → KnownItem) :
    observeItem known (valueOf kind fields n) = known ∧
      responsesFragment known (valueOf kind fields n) = [] := by
  simp only [telling, List.mem_cons, List.not_mem_nil, or_false, not_or] at hkind
  constructor
  · rw [observeItem, isItemEvent, type_valueOf htype, if_neg]
    simpa using ⟨hkind.1, hkind.2.1⟩
  · rw [responsesFragment, type_valueOf htype, if_neg]
    simpa using ⟨hkind.2.2.1, hkind.2.2.2⟩

theorem silent_of_kinds {bodies : List (Nat → SseEvent)}
    (h : ∀ body ∈ bodies, ∃ kind ∉ telling, IsKind body kind) (n : Nat) (known : Nat → KnownItem) :
    (values n bodies).foldl observeItem known = known ∧
      fragmentsFrom known (values n bodies) = [] := by
  induction bodies generalizing n with
  | nil => exact ⟨rfl, rfl⟩
  | cons body bodies ih =>
    obtain ⟨kind, hkind, fields, rfl, htype, -⟩ := h body List.mem_cons_self
    obtain ⟨hobserve, hfragment⟩ := silent_of_kind n htype hkind known
    obtain ⟨hrest, hnone⟩ := ih (fun body hbody => h body (List.mem_cons_of_mem _ hbody)) (n + 1)
    rw [values_cons, List.foldl_cons, fragmentsFrom, hobserve, hfragment, hrest, hnone]
    exact ⟨rfl, rfl⟩

/-- An event that shows an item. -/
theorem observeItem_shown {kind : String} (hkind : kind = "response.output_item.added" ∨
    kind = "response.output_item.done") (known : Nat → KnownItem) (index : Nat) (item : Value)
    (n : Nat) :
    observeItem known (valueOf kind [("output_index", nat index), ("item", item)] n) =
        Function.update known index ⟨(known index).callId <|> item.str "call_id",
          (known index).id <|> item.str "id", (known index).name <|> item.str "name"⟩ ∧
      ∀ known', responsesFragment known'
        (valueOf kind [("output_index", nat index), ("item", item)] n) = [] := by
  constructor
  · have hindex : (valueOf kind [("output_index", nat index), ("item", item)] n).u64
        "output_index" = some index := by
      rw [u64, get_valueOf]
      rfl
    have hitem : (valueOf kind [("output_index", nat index), ("item", item)] n).get "item" =
        some item := by
      rw [get_valueOf]
      rfl
    have hid : (valueOf kind [("output_index", nat index), ("item", item)] n).get "item_id" =
        none := by
      rw [get_valueOf]
      rfl
    have hown : (item.get "id" <|> none).bind asStr = item.str "id" := by
      rw [str]
      cases item.get "id" <;> rfl
    rw [observeItem, isItemEvent, type_valueOf rfl, if_pos (by simpa using hkind), hindex, hitem]
    dsimp only
    rw [KnownItem.observe, hid, hown]
  · intro known'
    rw [responsesFragment, type_valueOf rfl, if_neg]
    rcases hkind with rfl | rfl <;> decide

/-- An event with arguments of a call. -/
theorem responsesFragment_arguments (itemId : String) (index : Nat) (s : String) (n : Nat)
    (known : Nat → KnownItem) :
    values n [itemEvent "response.function_call_arguments.delta" itemId index
        [("delta", .string s)]] =
      [valueOf "response.function_call_arguments.delta"
        [("item_id", .string itemId), ("output_index", nat index), ("delta", .string s)] n] ∧
    observeItem known (valueOf "response.function_call_arguments.delta"
        [("item_id", .string itemId), ("output_index", nat index), ("delta", .string s)] n) =
      known ∧
    responsesFragment known (valueOf "response.function_call_arguments.delta"
        [("item_id", .string itemId), ("output_index", nat index), ("delta", .string s)] n) =
      [⟨index, (known index).callId <|> some itemId <|> (known index).id, (known index).name,
        some s⟩] := by
  refine ⟨rfl, ?_, ?_⟩
  · rw [observeItem, isItemEvent, type_valueOf rfl, if_neg (by decide)]
  · rw [responsesFragment, type_valueOf rfl, if_pos (Or.inl rfl)]
    simp [WireCalls.indexOf, u64, str, get_valueOf, BTreeMap.get_cons, asStr, asU64, nat]

theorem fragmentsFrom_arguments {known : Nat → KnownItem} {index : Nat} {callId name : String}
    {id : Option String} (h : known index = ⟨some callId, id, some name⟩) (itemId : String)
    (deltas : List String) (n : Nat) :
    (values n (deltas.map fun s => itemEvent "response.function_call_arguments.delta" itemId index
        [("delta", .string s)])).foldl observeItem known = known ∧
      fragmentsFrom known (values n (deltas.map fun s =>
        itemEvent "response.function_call_arguments.delta" itemId index [("delta", .string s)])) =
          deltas.map fun s => ⟨index, some callId, some name, some s⟩ := by
  induction deltas generalizing n with
  | nil => exact ⟨rfl, rfl⟩
  | cons s deltas ih =>
    obtain ⟨hvalue, hobserve, hfragment⟩ := responsesFragment_arguments itemId index s n known
    obtain ⟨hrest, hfragments⟩ := ih (n + 1)
    rw [List.map_cons, ← List.singleton_append, values_append, hvalue, List.foldl_append,
      fragmentsFrom_append, List.foldl_cons, List.foldl_nil, hobserve, fragmentsFrom, hobserve,
      hfragment, fragmentsFrom, List.append_nil]
    refine ⟨hrest, ?_⟩
    show _ ++ fragmentsFrom known (values (n + 1) _) = _
    rw [hfragments, h]
    rfl

/-- What the opening of an item makes known of it. -/
def announcedAs (item : OutputItem) : KnownItem :=
  match item.kind with
  | .functionCall _ callId name _ _ => ⟨some callId, some item.itemId, some name⟩
  | _ => ⟨none, some item.itemId, none⟩

theorem announcedAs_addedItem (item : OutputItem) :
    (⟨(addedItem item).str "call_id", (addedItem item).str "id", (addedItem item).str "name"⟩ :
      KnownItem) = announcedAs item := by
  obtain ⟨kind, outputIndex, itemId, deltas⟩ := item
  cases kind <;>
    simp [addedItem, announcedAs, messageItemValue, reasoningItemValue, functionCallItemValue,
      str_obj, BTreeMap.get_cons, asStr]

theorem opening_known {known : Nat → KnownItem} (item : OutputItem)
    (h : known item.outputIndex = {}) (n : Nat) :
    (values n item.opening).foldl observeItem known =
        Function.update known item.outputIndex (announcedAs item) ∧
      fragmentsFrom known (values n item.opening) = [] := by
  obtain ⟨bodies, hopening, hparts⟩ := kinds_opening item
  obtain ⟨hobserve, hfragment⟩ :=
    observeItem_shown (Or.inl rfl) known item.outputIndex (addedItem item) n
  rw [h] at hobserve
  have hknown := hobserve.trans (congrArg (Function.update known item.outputIndex)
    (announcedAs_addedItem item))
  have hrest := silent_of_kinds (fun body hbody => ⟨_, by decide, hparts body hbody⟩) (n + 1)
    (Function.update known item.outputIndex (announcedAs item))
  rw [hopening, outputItemAdded, values_cons, List.foldl_cons, fragmentsFrom, hknown, hfragment,
    hrest.1, hrest.2]
  exact ⟨rfl, rfl⟩

theorem deltas_known {known : Nat → KnownItem} {item : OutputItem}
    (h : known item.outputIndex = announcedAs item) (n : Nat) :
    (values n (item.deltas.map item.deltaEvent)).foldl observeItem known = known ∧
      fragmentsFrom known (values n (item.deltas.map item.deltaEvent)) = itemFragments item := by
  obtain ⟨kind, outputIndex, itemId, deltas⟩ := item
  cases kind with
  | message =>
    refine silent_of_kinds (fun body hbody => ?_) n known
    obtain ⟨s, -, rfl⟩ := List.mem_map.mp hbody
    exact ⟨"response.output_text.delta", by decide, _, rfl, rfl, rfl⟩
  | reasoning =>
    refine silent_of_kinds (fun body hbody => ?_) n known
    obtain ⟨s, -, rfl⟩ := List.mem_map.mp hbody
    exact ⟨"response.reasoning_text.delta", by decide, _, rfl, rfl, rfl⟩
  | functionCall => exact fragmentsFrom_arguments h itemId deltas n

theorem closingKinds_not_telling : ∀ kind ∈ closingKinds, kind ∉ telling := by decide

/-- Closing an item tells nothing about others. -/
theorem closing_known (known : Nat → KnownItem) (item : OutputItem) (n : Nat) :
    (∀ i, i ≠ item.outputIndex → ((values n item.closing).foldl observeItem known) i = known i) ∧
      fragmentsFrom known (values n item.closing) = [] := by
  obtain ⟨bodies, hclosing, hclosed⟩ := kinds_closing item
  have hsilent := silent_of_kinds (fun body hbody => by
    obtain ⟨kind, hmem, hkind⟩ := hclosed body hbody
    exact ⟨kind, closingKinds_not_telling kind hmem, hkind⟩) n known
  obtain ⟨hobserve, hfragment⟩ := observeItem_shown (Or.inr rfl) known item.outputIndex item.final
    (n + bodies.length)
  rw [hclosing, values_append, List.foldl_append, fragmentsFrom_append, hsilent.1, hsilent.2,
    outputItemDone, values_cons, List.foldl_cons, fragmentsFrom, hobserve, hfragment]
  exact ⟨fun i hi => Function.update_of_ne hi _ _, rfl⟩

/-- The events of an item that nothing is known of yet. -/
theorem events_known {known : Nat → KnownItem} (item : OutputItem)
    (h : known item.outputIndex = {}) (n : Nat) :
    (∀ i, i ≠ item.outputIndex → ((values n item.events).foldl observeItem known) i = known i) ∧
      fragmentsFrom known (values n item.events) = itemFragments item := by
  obtain ⟨hopened, hnone⟩ := opening_known item h n
  obtain ⟨hsame, hfragments⟩ := @deltas_known
    (Function.update known item.outputIndex (announcedAs item)) item (Function.update_self ..)
    (n + item.opening.length)
  obtain ⟨hothers, hlast⟩ := closing_known
    (Function.update known item.outputIndex (announcedAs item)) item (n + item.openEvents.length)
  rw [OutputItem.events, values_append, List.foldl_append, fragmentsFrom_append,
    OutputItem.openEvents, values_append, List.foldl_append, fragmentsFrom_append, hopened, hsame,
    hnone, hfragments]
  refine ⟨fun i hi => ?_, ?_⟩
  · exact (hothers i hi).trans (Function.update_of_ne hi _ _)
  · exact (congrArg (itemFragments item ++ ·) hlast).trans (List.append_nil _)

/-- **The fragments of the items.** Each item comes when nothing is known of its place. -/
theorem fragmentsFrom_items {items : List OutputItem} {first : Nat} {known : Nat → KnownItem}
    (hplaced : ∀ k item, items[k]? = some item → item.outputIndex = first + k)
    (h : ∀ i, first ≤ i → known i = {}) (n : Nat) :
    fragmentsFrom known (values n (items.flatMap OutputItem.events)) =
      items.flatMap itemFragments := by
  induction items generalizing first known n with
  | nil => rfl
  | cons item items ih =>
    have hfirst : item.outputIndex = first := hplaced 0 item rfl
    obtain ⟨hothers, hfragments⟩ := events_known item (h _ hfirst.ge) n
    rw [List.flatMap_cons, values_append, fragmentsFrom_append, hfragments, List.flatMap_cons]
    congr 1
    refine @ih (first + 1) _ (fun k item' hk => ?_) (fun i hi => ?_) _
    · rw [hplaced (k + 1) item' hk]
      omega
    · rw [hothers i (by omega), h i (by omega)]

end Tokn.Convert.EmitterRoundTrip
