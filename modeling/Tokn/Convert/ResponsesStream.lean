import Tokn.Convert.Lifecycle
import Tokn.Convert.ResponsesEmitterProof

/-!
# The Responses lifecycle on the wire

Every event of a lifecycle names its kind and its place in the stream, and no event but the
terminal one is of a terminal kind.
-/

namespace Tokn.Convert

open Value
open BTreeMap (get_append)

/-- The kinds of event that end a Responses stream. -/
def isTerminalKind : String → Bool
  | "response.completed" | "response.incomplete" | "response.failed" | "response.cancelled" => true
  | _ => false

/-- An event that names its kind and its place in the stream. -/
def Names (body : Nat → SseEvent) (kind : String) : Prop :=
  ∀ n, (body n).str "type" = some kind ∧ (body n).u64 "sequence_number" = some n

theorem names_responsesEvent {kind : String} {fields : List (String × Value)}
    (htype : BTreeMap.get fields.reverse "type" = none)
    (hseq : BTreeMap.get fields.reverse "sequence_number" = none) :
    Names (responsesEvent kind fields) kind := by
  intro n
  constructor
  · rw [responsesEvent, SseEvent.str_ofJson, str_obj, List.reverse_append, get_append,
      htype]
    rfl
  · rw [responsesEvent, SseEvent.u64_ofJson, u64_obj, List.reverse_append, get_append,
      hseq]
    rfl

theorem names_outputItemAdded (outputIndex : Nat) (item : Value) :
    Names (outputItemAdded outputIndex item) "response.output_item.added" :=
  names_responsesEvent rfl rfl

theorem names_outputItemDone (outputIndex : Nat) (item : Value) :
    Names (outputItemDone outputIndex item) "response.output_item.done" :=
  names_responsesEvent rfl rfl

theorem names_itemEvent (kind itemId : String) (outputIndex : Nat) (k : String) (v : Value)
    (htype : k ≠ "type") (hseq : k ≠ "sequence_number") :
    Names (itemEvent kind itemId outputIndex [(k, v)]) kind := by
  refine names_responsesEvent ?_ ?_ <;>
    simp [BTreeMap.get_cons, Ne.symm htype, Ne.symm hseq]

theorem names_partEvent (kind itemId : String) (outputIndex : Nat) (k : String) (v : Value)
    (htype : k ≠ "type") (hseq : k ≠ "sequence_number") :
    Names (partEvent kind itemId outputIndex [(k, v)]) kind := by
  refine names_responsesEvent ?_ ?_ <;>
    simp [BTreeMap.get_cons, Ne.symm htype, Ne.symm hseq]

/-- The event body names a kind that is not terminal. -/
def Inner (body : Nat → SseEvent) : Prop := ∃ kind, Names body kind ∧ isTerminalKind kind = false

/-- The event body neither ends the stream nor an item. -/
def Quiet (body : Nat → SseEvent) : Prop :=
  ∃ kind, Names body kind ∧ isTerminalKind kind = false ∧ kind ≠ "response.output_item.done"

theorem Quiet.inner {body : Nat → SseEvent} (h : Quiet body) : Inner body := by
  obtain ⟨kind, hnames, hkind, -⟩ := h
  exact ⟨kind, hnames, hkind⟩

variable (item : OutputItem)

theorem quiet_opening : ∀ body ∈ item.opening, Quiet body := by
  obtain ⟨kind, outputIndex, itemId, deltas⟩ := item
  cases kind with
  | message =>
    simp only [OutputItem.opening, List.forall_mem_cons, List.not_mem_nil, false_implies,
      implies_true, and_true]
    exact ⟨⟨_, names_outputItemAdded _ _, rfl, by decide⟩,
      ⟨_, names_partEvent _ _ _ _ _ (by decide) (by decide), rfl, by decide⟩⟩
  | reasoning =>
    simp only [OutputItem.opening, List.forall_mem_singleton]
    exact ⟨_, names_outputItemAdded _ _, rfl, by decide⟩
  | functionCall =>
    simp only [OutputItem.opening, List.forall_mem_singleton]
    exact ⟨_, names_outputItemAdded _ _, rfl, by decide⟩

theorem quiet_deltaEvent (delta : String) : Quiet (item.deltaEvent delta) := by
  obtain ⟨kind, outputIndex, itemId, deltas⟩ := item
  cases kind with
  | message => exact ⟨_, names_partEvent _ _ _ _ _ (by decide) (by decide), rfl, by decide⟩
  | reasoning => exact ⟨_, names_partEvent _ _ _ _ _ (by decide) (by decide), rfl, by decide⟩
  | functionCall => exact ⟨_, names_itemEvent _ _ _ _ _ (by decide) (by decide), rfl, by decide⟩

theorem quiet_openEvents : ∀ body ∈ item.openEvents, Quiet body := by
  intro body hbody
  rcases List.mem_append.mp hbody with h | h
  · exact quiet_opening item body h
  · obtain ⟨delta, -, rfl⟩ := List.mem_map.mp h
    exact quiet_deltaEvent item delta

/-- An item is closed by one `output_item.done`, which comes last. -/
theorem closing_eq :
    ∃ bodies, item.closing = bodies ++ [outputItemDone item.outputIndex item.final] ∧
      ∀ body ∈ bodies, Quiet body := by
  refine ⟨_, rfl, ?_⟩
  obtain ⟨kind, outputIndex, itemId, deltas⟩ := item
  cases kind with
  | message =>
    simp only [List.forall_mem_cons, List.not_mem_nil, false_implies, implies_true, and_true]
    exact ⟨⟨_, names_partEvent _ _ _ _ _ (by decide) (by decide), rfl, by decide⟩,
      ⟨_, names_partEvent _ _ _ _ _ (by decide) (by decide), rfl, by decide⟩⟩
  | reasoning =>
    simp only [List.forall_mem_singleton]
    exact ⟨_, names_partEvent _ _ _ _ _ (by decide) (by decide), rfl, by decide⟩
  | functionCall =>
    simp only [List.forall_mem_singleton]
    exact ⟨_, names_itemEvent _ _ _ _ _ (by decide) (by decide), rfl, by decide⟩

theorem inner_events : ∀ body ∈ item.events, Inner body := by
  obtain ⟨bodies, hclosing, hbodies⟩ := closing_eq item
  intro body hbody
  rw [OutputItem.events, hclosing, List.mem_append, List.mem_append, List.mem_singleton] at hbody
  rcases hbody with h | h | rfl
  · exact (quiet_openEvents item body h).inner
  · exact (hbodies body h).inner
  · exact ⟨_, names_outputItemDone _ _, rfl⟩

theorem quiet_prologue (created inProgress : Value) :
    ∀ body ∈ prologue created inProgress, Quiet body := by
  simp only [prologue, List.forall_mem_cons, List.not_mem_nil, false_implies, implies_true,
    and_true]
  exact ⟨⟨_, names_responsesEvent rfl rfl, rfl, by decide⟩,
    ⟨_, names_responsesEvent rfl rfl, rfl, by decide⟩⟩

/-- No event before the terminal one is of a terminal kind. -/
theorem inner_lifecycle (created inProgress : Value) (items : List OutputItem) :
    ∀ body ∈ prologue created inProgress ++ items.flatMap OutputItem.events, Inner body := by
  intro body hbody
  rcases List.mem_append.mp hbody with h | h
  · exact (quiet_prologue created inProgress body h).inner
  · obtain ⟨item, -, hitem⟩ := List.mem_flatMap.mp h
    exact inner_events item body hitem

theorem inner_bodies (created inProgress : Value) (items : Items) :
    ∀ body ∈ prologue created inProgress ++ items.bodies, Inner body := by
  intro body hbody
  rw [Items.bodies, ← List.append_assoc] at hbody
  rcases List.mem_append.mp hbody with h | h
  · exact inner_lifecycle created inProgress items.closed body h
  · cases hitem : items.opened with
    | none => simp [hitem] at h
    | some item =>
      simp only [hitem, Option.map_some, Option.getD_some] at h
      exact (quiet_openEvents item body h).inner

theorem names_terminal (status : String) (response : Value) :
    Names (terminal status response) (ResponsesEmitter.terminalType status) :=
  names_responsesEvent rfl rfl

theorem isTerminalKind_terminalType (status : String) :
    isTerminalKind (ResponsesEmitter.terminalType status) = true := by
  unfold ResponsesEmitter.terminalType
  split <;> rfl

/-! ## Numbered events -/

theorem mem_numbered {n : Nat} {bodies : List (Nat → SseEvent)} {e : SseEvent}
    (h : e ∈ numbered n bodies) : ∃ body ∈ bodies, ∃ k, e = body k := by
  induction bodies generalizing n with
  | nil => simp [numbered] at h
  | cons body bodies ih =>
    rcases List.mem_cons.mp h with rfl | h
    · exact ⟨body, List.mem_cons_self, n, rfl⟩
    · obtain ⟨body', hmem, k, rfl⟩ := ih h
      exact ⟨body', List.mem_cons_of_mem _ hmem, k, rfl⟩

/-- The events are numbered in order. -/
theorem sequence_numbered {n : Nat} {bodies : List (Nat → SseEvent)}
    (h : ∀ body ∈ bodies, ∃ kind, Names body kind) :
    (numbered n bodies).map (fun e => e.u64 "sequence_number") =
      (List.range' n bodies.length).map some := by
  induction bodies generalizing n with
  | nil => rfl
  | cons body bodies ih =>
    obtain ⟨kind, hkind⟩ := h body List.mem_cons_self
    simp only [numbered, List.map_cons, (hkind n).2, List.length_cons, List.range'_succ,
      ih fun body hbody => h body (List.mem_cons_of_mem _ hbody)]

/-! ## What an event is about -/

/-- The id of the item an event is about. -/
def itemIdOf (e : SseEvent) : Option String :=
  e.str "item_id" <|> ((e.json.bind fun v => v.get "item").bind fun item => item.str "id")

/-- The item an `output_item.done` event shows. -/
def doneItem (e : SseEvent) : Option Value :=
  if e.str "type" = some "response.output_item.done" then e.json.bind fun v => v.get "item"
  else none

/-- The event carries the index and the id of the item. -/
def Carries (item : OutputItem) (e : SseEvent) : Prop :=
  e.u64 "output_index" = some item.outputIndex ∧ itemIdOf e = some item.itemId

theorem get_responsesEvent (kind : String) (fields : List (String × Value)) (n : Nat)
    (k : String) :
    ((responsesEvent kind fields n).json.bind fun v => v.get k) =
      (BTreeMap.get fields.reverse k).or
        (BTreeMap.get [("sequence_number", nat n), ("type", .string kind)] k) := by
  rw [responsesEvent, SseEvent.json_ofJson, Option.bind_some, get_obj, List.reverse_append,
    get_append]
  rfl

/-- An event that shows the item. -/
theorem carries_shown {item : OutputItem} {kind : String} {shown : Value}
    (h : shown.str "id" = some item.itemId) (n : Nat) :
    Carries item (responsesEvent kind
      [("output_index", nat item.outputIndex), ("item", shown)] n) := by
  have hstr (v : Value) : itemIdOf (responsesEvent kind
      [("output_index", nat item.outputIndex), ("item", v)] n) = v.str "id" := by
    rw [itemIdOf, get_responsesEvent, responsesEvent, SseEvent.str_ofJson, str_obj]
    rfl
  refine ⟨?_, (hstr shown).trans h⟩
  rw [responsesEvent, SseEvent.u64_ofJson, u64_obj]
  rfl

/-- An event about a part of the item. -/
theorem carries_itemEvent {kind : String} {fields : List (String × Value)}
    (hindex : BTreeMap.get fields.reverse "output_index" = none)
    (hid : BTreeMap.get fields.reverse "item_id" = none) (n : Nat) :
    Carries item (itemEvent kind item.itemId item.outputIndex fields n) := by
  constructor
  · rw [itemEvent, responsesEvent, SseEvent.u64_ofJson, u64_obj, List.reverse_append,
      List.reverse_append, get_append, get_append, hindex]
    rfl
  · rw [itemIdOf, itemEvent, responsesEvent, SseEvent.str_ofJson, str_obj, List.reverse_append,
      List.reverse_append, get_append, get_append, hid]
    rfl

theorem carries_deltaEvent (delta : String) (n : Nat) : Carries item (item.deltaEvent delta n) := by
  cases h : item.kind <;> simp only [OutputItem.deltaEvent, h] <;>
    exact carries_itemEvent item rfl rfl n

theorem str_id_final : item.final.str "id" = some item.itemId := by
  unfold OutputItem.final
  split <;> exact (str_obj _ _).trans rfl

/-- **Every event of an item carries its index and its id.** -/
theorem carries_events : ∀ body ∈ item.events, ∀ n, Carries item (body n) := by
  intro body hbody n
  simp only [OutputItem.events, OutputItem.openEvents, List.mem_append] at hbody
  rcases hbody with (h | h) | h
  · obtain ⟨kind, outputIndex, itemId, deltas⟩ := item
    cases kind <;> simp only [OutputItem.opening, List.mem_cons, List.not_mem_nil, or_false] at h
    · rcases h with rfl | rfl
      · exact carries_shown ((str_obj _ _).trans rfl) n
      · exact carries_itemEvent _ rfl rfl n
    · subst h
      exact carries_shown ((str_obj _ _).trans rfl) n
    · subst h
      exact carries_shown ((str_obj _ _).trans rfl) n
  · obtain ⟨delta, -, rfl⟩ := List.mem_map.mp h
    exact carries_deltaEvent item delta n
  · rcases List.mem_append.mp h with h | h
    · obtain ⟨kind, outputIndex, itemId, deltas⟩ := item
      cases kind <;> simp only [List.mem_cons, List.not_mem_nil, or_false] at h
      · rcases h with rfl | rfl <;> exact carries_itemEvent _ rfl rfl n
      · subst h
        exact carries_itemEvent _ rfl rfl n
      · subst h
        exact carries_itemEvent _ rfl rfl n
    · obtain rfl := List.mem_singleton.mp h
      exact carries_shown (str_id_final item) n

theorem doneItem_quiet {body : Nat → SseEvent} (h : Quiet body) (n : Nat) :
    doneItem (body n) = none := by
  obtain ⟨kind, hnames, -, hkind⟩ := h
  simp [doneItem, (hnames n).1, hkind]

theorem filterMap_doneItem_quiet {bodies : List (Nat → SseEvent)} (h : ∀ body ∈ bodies, Quiet body)
    (n : Nat) : (numbered n bodies).filterMap doneItem = [] := by
  rw [List.filterMap_eq_nil_iff]
  intro e he
  obtain ⟨body, hbody, k, rfl⟩ := mem_numbered he
  exact doneItem_quiet (h body hbody) k

theorem doneItem_outputItemDone (outputIndex : Nat) (item : Value) (n : Nat) :
    doneItem (outputItemDone outputIndex item n) = some item := by
  rw [doneItem, (names_outputItemDone outputIndex item n).1, if_pos rfl, outputItemDone,
    get_responsesEvent]
  rfl

theorem filterMap_doneItem_events (n : Nat) :
    (numbered n item.events).filterMap doneItem = [item.final] := by
  obtain ⟨bodies, hclosing, hbodies⟩ := closing_eq item
  rw [OutputItem.events, hclosing, numbered_append, numbered_append, List.filterMap_append,
    List.filterMap_append, filterMap_doneItem_quiet (quiet_openEvents item),
    filterMap_doneItem_quiet hbodies]
  simp [numbered, doneItem_outputItemDone]

/-- The items a stream has shown as done are those whose events it has. -/
theorem filterMap_doneItem_flatMap (items : List OutputItem) (n : Nat) :
    (numbered n (items.flatMap OutputItem.events)).filterMap doneItem =
      items.map OutputItem.final := by
  induction items generalizing n with
  | nil => rfl
  | cons item items ih =>
    rw [List.flatMap_cons, numbered_append, List.filterMap_append, filterMap_doneItem_events, ih]
    rfl

theorem filterMap_doneItem_stream (created inProgress : Value) (items : List OutputItem)
    (status : String) (response : Value) :
    (numbered 0 (prologue created inProgress ++ items.flatMap OutputItem.events ++
      [terminal status response])).filterMap doneItem = items.map OutputItem.final := by
  have hlast (n : Nat) : doneItem (terminal status response n) = none := by
    simp only [doneItem, (names_terminal status response n).1, Option.some.injEq]
    unfold ResponsesEmitter.terminalType
    split <;> rfl
  rw [numbered_append, numbered_append, List.filterMap_append, List.filterMap_append,
    filterMap_doneItem_quiet (quiet_prologue created inProgress), filterMap_doneItem_flatMap]
  simp [numbered, hlast]

/-! ## Complete streams -/

/-- A complete Responses stream of the items. -/
structure Lifecycle (out : List SseEvent) (items : List OutputItem) : Prop where
  /-- The opening events, the events of each item in turn, and a terminal event that shows the
  finished items. -/
  events : ∃ created inProgress status response,
    out = numbered 0 (prologue created inProgress ++ items.flatMap OutputItem.events ++
      [terminal status response]) ∧
    response.get "output" = some (.array (out.filterMap doneItem))
  sequence : out.map (fun e => e.u64 "sequence_number") = (List.range out.length).map some
  terminal : ∃ inner last, out = inner ++ [last] ∧ (last.str "type").any isTerminalKind = true ∧
    ∀ e ∈ inner, (e.str "type").any isTerminalKind = false
  outputIndex : items.map OutputItem.outputIndex = List.range items.length
  itemId : (items.map OutputItem.itemId).Nodup
  carries : ∀ item ∈ items, ∀ body ∈ item.events, ∀ n, Carries item (body n)

theorem Lifecycle.done {out : List SseEvent} {items : List OutputItem} (h : Lifecycle out items) :
    out.filterMap doneItem = items.map OutputItem.final := by
  obtain ⟨created, inProgress, status, response, hout, -⟩ := h.events
  rw [hout, filterMap_doneItem_stream]

/-- **Completeness.** The opening events, the events of placed items and a terminal event that
shows them make a complete stream. -/
theorem lifecycle_of_placed {items : Items} (h : items.Placed) {created inProgress : Value}
    {status : String} {response : Value} {out : List SseEvent}
    (hout : out = numbered 0 (prologue created inProgress ++
      items.all.flatMap OutputItem.events ++ [terminal status response]))
    (hresponse : response.get "output" = some (.array (items.all.map OutputItem.final))) :
    Lifecycle out items.all := by
  have hinner := inner_lifecycle created inProgress items.all
  have hdone : out.filterMap doneItem = items.all.map OutputItem.final := by
    rw [hout, filterMap_doneItem_stream]
  refine ⟨⟨created, inProgress, status, response, hout, by rw [hdone]; exact hresponse⟩, ?_, ?_,
    h.outputIndex, h.nodup_itemId, fun item _ => carries_events item⟩
  · rw [hout, sequence_numbered, length_numbered, List.range_eq_range']
    intro body hbody
    rcases List.mem_append.mp hbody with hb | hb
    · obtain ⟨kind, hnames, -⟩ := hinner body hb
      exact ⟨kind, hnames⟩
    · rw [List.mem_singleton] at hb
      exact ⟨_, hb ▸ names_terminal status response⟩
  · rw [hout, numbered_append]
    refine ⟨_, _, rfl, ?_, ?_⟩
    · rw [(names_terminal status response _).1]
      exact isTerminalKind_terminalType status
    · intro e he
      obtain ⟨body, hbody, k, rfl⟩ := mem_numbered he
      obtain ⟨kind, hnames, hkind⟩ := hinner body hbody
      rw [(hnames k).1]
      exact hkind

end Tokn.Convert
