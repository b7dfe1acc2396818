import Tokn.Convert.Lifecycle

/-!
# The Responses emitter refines the lifecycle

**Theorem (`Emitted.emit`).** After any deltas, the emitter has pushed the opening events and the
events of the items the deltas are cut into, numbered from zero, and its open item, its closed
items and its counters are those of the items.
-/

namespace Tokn.Convert

open Value

/-! ## Numbering -/

theorem length_numbered (n : Nat) (bodies : List (Nat → SseEvent)) :
    (numbered n bodies).length = bodies.length := by
  induction bodies generalizing n with
  | nil => rfl
  | cons body bodies ih => simp [numbered, ih]

theorem numbered_append (n : Nat) (as bs : List (Nat → SseEvent)) :
    numbered n (as ++ bs) = numbered n as ++ numbered (n + as.length) bs := by
  induction as generalizing n with
  | nil => rfl
  | cons a as ih =>
    simp only [List.cons_append, numbered, ih, List.length_cons]
    rw [Nat.add_right_comm n 1, Nat.add_assoc]

namespace ResponsesEmitter

theorem pushAll_eq (s : ResponsesEmitter) (bodies : List (Nat → SseEvent)) :
    s.pushAll bodies =
      ({ s with sequence := s.sequence + bodies.length }, numbered s.sequence bodies) := by
  induction bodies generalizing s with
  | nil => rfl
  | cons body bodies ih =>
    simp only [pushAll, ih, numbered, List.length_cons]
    rw [Nat.add_assoc, Nat.add_comm 1]

@[simp] theorem andThen_mk (s : ResponsesEmitter) (out : List SseEvent)
    (f : ResponsesEmitter → ResponsesEmitter × List SseEvent) :
    andThen (s, out) f = ((f s).1, out ++ (f s).2) := rfl

end ResponsesEmitter

/-! ## The open item -/

/-- An output item as the emitter holds it while it is open. -/
def OutputItem.toOpen (item : OutputItem) : OpenItem :=
  match item.kind with
  | .message => .message item.outputIndex item.itemId item.text true
  | .reasoning => .reasoning item.outputIndex item.itemId item.text true
  | .functionCall chatIndex _ _ callId name =>
    .functionCall item.outputIndex chatIndex item.itemId callId name item.text

@[simp] theorem OutputItem.text_mk (kind : ItemKind) (n : Nat) (itemId : String)
    (ds : List String) : OutputItem.text ⟨kind, n, itemId, ds⟩ = String.join ds := rfl

theorem join_ite_singleton (s : String) :
    String.join (if s = "" then [] else [s]) = s := by
  split_ifs with h <;> simp [h]

namespace ResponsesEmitter

/-! ## The methods, one by one -/

/-- `close_item` on an item that is open. -/
theorem closeItem_toOpen (s : ResponsesEmitter) (item : OutputItem) :
    s.closeItem item.toOpen =
      ({ s with closed := s.closed ++ [item.final],
                sequence := s.sequence + item.closing.length },
        numbered s.sequence item.closing) := by
  obtain ⟨kind, outputIndex, itemId, deltas⟩ := item
  cases kind <;> exact pushAll_eq _ _

/-- The events that close the item that may be open. -/
def closingOf (opened : Option OutputItem) : List (Nat → SseEvent) :=
  (opened.map OutputItem.closing).getD []

variable {s : ResponsesEmitter} {items : Items} {out : List SseEvent} {inProgress created : Value}

theorem closeCurrent_eq {opened : Option OutputItem}
    (h : s.current = opened.map OutputItem.toOpen) :
    s.closeCurrent =
      ({ s with current := none,
                closed := s.closed ++ opened.toList.map OutputItem.final,
                sequence := s.sequence + (closingOf opened).length },
        numbered s.sequence (closingOf opened)) := by
  cases opened with
  | none =>
    obtain ⟨⟩ := s
    simp at h
    simp [closeCurrent, h, closingOf, numbered]
  | some item => simp [closeCurrent, h, closingOf, closeItem_toOpen]

/-- A delta of the key of the open item is appended to it. -/
theorem handle_append {item : OutputItem} {delta : IrDelta} (hcur : s.current = some item.toOpen)
    (hkey : delta.key = some item.kind.key) :
    s.handle delta =
      ({ s with current := some (item.push delta).toOpen,
                sequence := s.sequence + delta.payload.length },
        numbered s.sequence (delta.payload.map item.deltaEvent)) := by
  obtain ⟨kind, outputIndex, itemId, deltas⟩ := item
  cases delta with
  | text text =>
    cases kind <;> simp [IrDelta.key, ItemKind.key] at hkey
    simp [handle, handleText, hkey, messageOpen, hcur, OutputItem.toOpen, appendText, pushAll_eq,
      OutputItem.push, ItemKind.push, IrDelta.payload, OutputItem.deltaEvent]
  | reasoning text =>
    cases kind <;> simp [IrDelta.key, ItemKind.key] at hkey
    simp [handle, handleReasoning, hkey, reasoningOpen, hcur, OutputItem.toOpen, appendReasoning,
      pushAll_eq, OutputItem.push, ItemKind.push, IrDelta.payload, OutputItem.deltaEvent]
  | toolCall index id name argumentsDelta =>
    cases kind <;> simp [IrDelta.key, ItemKind.key] at hkey
    subst hkey
    simp only [handle, handleToolCall, callOpen, hcur, OutputItem.toOpen, decide_true, if_true,
      appendArguments, pushAll_eq, OutputItem.push, ItemKind.push, IrDelta.payload,
      OutputItem.text_mk, String.join_append, join_ite_singleton]
    split_ifs <;> rfl
  | usage u => simp [IrDelta.key] at hkey
  | finish reason => simp [IrDelta.key] at hkey

/-- A delta whose key is not open closes the open item and opens one of its own. -/
theorem handle_open {delta : IrDelta} {k : DeltaKey}
    (hcur : s.current = items.opened.map OutputItem.toOpen) (hkey : delta.key = some k)
    (hopen : items.isOpen k = false) (hcount : s.nextItemCounter = s.nextOutputIndex) :
    s.handle delta =
      let item := OutputItem.start s.nextOutputIndex k delta
      let bodies := closingOf items.opened ++ item.openEvents
      ({ s with nextOutputIndex := s.nextOutputIndex + 1,
                nextItemCounter := s.nextOutputIndex + 1,
                current := some item.toOpen,
                closed := s.closed ++ items.opened.toList.map OutputItem.final,
                sequence := s.sequence + bodies.length },
        numbered s.sequence bodies) := by
  cases delta with
  | text text =>
    obtain ⟨htext, rfl⟩ : text ≠ "" ∧ DeltaKey.text = k := by
      simpa [IrDelta.key, ite_eq_iff] using hkey
    have hnot : s.messageOpen = false := by
      cases h : items.opened with
      | none => simp [messageOpen, hcur, h]
      | some item =>
        obtain ⟨kind, _, _, _⟩ := item
        cases kind <;> simp_all [messageOpen, OutputItem.toOpen, Items.isOpen, ItemKind.key]
    simp only [handle, handleText, htext, hnot, closeCurrent_eq hcur, openMessage, synthItemId,
      pushAll_eq, appendText, andThen_mk, hcount, numbered_append]
    simp [OutputItem.start, ItemKind.ofDelta, OutputItem.push, ItemKind.push, OutputItem.toOpen,
      OutputItem.openEvents, OutputItem.opening, OutputItem.deltaEvent, IrDelta.payload, htext,
      DeltaKey.idPrefix, numbered, Nat.add_assoc]
  | reasoning text =>
    obtain ⟨htext, rfl⟩ : text ≠ "" ∧ DeltaKey.reasoning = k := by
      simpa [IrDelta.key, ite_eq_iff] using hkey
    have hnot : s.reasoningOpen = false := by
      cases h : items.opened with
      | none => simp [reasoningOpen, hcur, h]
      | some item =>
        obtain ⟨kind, _, _, _⟩ := item
        cases kind <;> simp_all [reasoningOpen, OutputItem.toOpen, Items.isOpen, ItemKind.key]
    simp only [handle, handleReasoning, htext, hnot, closeCurrent_eq hcur, openReasoning,
      synthItemId, pushAll_eq, appendReasoning, andThen_mk, hcount, numbered_append]
    simp [OutputItem.start, ItemKind.ofDelta, OutputItem.push, ItemKind.push, OutputItem.toOpen,
      OutputItem.openEvents, OutputItem.opening, OutputItem.deltaEvent, IrDelta.payload, htext,
      DeltaKey.idPrefix, numbered, Nat.add_assoc]
  | toolCall index id name argumentsDelta =>
    obtain rfl : DeltaKey.call index = k := by simpa [IrDelta.key] using hkey
    have hnot : s.callOpen index = false := by
      cases h : items.opened with
      | none => simp [callOpen, hcur, h]
      | some item =>
        obtain ⟨kind, _, _, _⟩ := item
        cases kind <;> simp_all [callOpen, OutputItem.toOpen, Items.isOpen, ItemKind.key]
    simp only [handle, handleToolCall, hnot, closeCurrent_eq hcur, openFunctionCall, synthItemId,
      pushAll_eq, appendArguments, andThen_mk, hcount, numbered_append]
    by_cases hargs : argumentsDelta = "" <;>
      simp [OutputItem.start, ItemKind.ofDelta, OutputItem.push, ItemKind.push, OutputItem.toOpen,
        OutputItem.openEvents, OutputItem.opening, OutputItem.deltaEvent, IrDelta.payload, hargs,
        DeltaKey.idPrefix, numbered, Nat.add_assoc]
  | usage u => simp [IrDelta.key] at hkey
  | finish reason => simp [IrDelta.key] at hkey

/-! ## The refinement -/

/-- The emitter has started, and its state and output are those of the items. -/
structure Refines (s : ResponsesEmitter) (out : List SseEvent) (created inProgress : Value)
    (items : Items) : Prop where
  finished : s.finished = false
  createdEmitted : s.createdEmitted = true
  inProgressEmitted : s.inProgressEmitted = true
  out_eq : out = numbered 0 (prologue created inProgress ++ items.bodies)
  sequence : s.sequence = (prologue created inProgress ++ items.bodies).length
  outputIndex : s.nextOutputIndex = items.all.length
  itemCounter : s.nextItemCounter = items.all.length
  current : s.current = items.opened.map OutputItem.toOpen
  closed : s.closed = items.closed.map OutputItem.final

theorem openEvents_push (item : OutputItem) (delta : IrDelta) :
    (item.push delta).openEvents = item.openEvents ++ delta.payload.map item.deltaEvent := by
  obtain ⟨kind, outputIndex, itemId, deltas⟩ := item
  cases kind <;> cases delta <;>
    simp [OutputItem.openEvents, OutputItem.push, ItemKind.push, OutputItem.opening] <;> rfl

/-- A delta without a key pushes nothing. -/
theorem handle_of_key_none {delta : IrDelta} (h : delta.key = none) :
    (s.handle delta).2 = [] ∧
      ∃ usage finishReason,
        (s.handle delta).1 = { s with usage := usage, finishReason := finishReason } := by
  cases delta with
  | text text =>
    have : text = "" := by simpa [IrDelta.key] using h
    exact ⟨by simp [handle, handleText, this], s.usage, s.finishReason,
      by simp [handle, handleText, this]⟩
  | reasoning text =>
    have : text = "" := by simpa [IrDelta.key] using h
    exact ⟨by simp [handle, handleReasoning, this], s.usage, s.finishReason,
      by simp [handle, handleReasoning, this]⟩
  | toolCall index id name argumentsDelta => simp [IrDelta.key] at h
  | usage u => exact ⟨rfl, _, _, rfl⟩
  | finish reason => exact ⟨rfl, _, _, rfl⟩

/-- **One delta.** -/
theorem Refines.handle (h : Refines s out created inProgress items) (delta : IrDelta) :
    Refines (s.handle delta).1 (out ++ (s.handle delta).2) created inProgress
      (items.push delta) := by
  cases hkey : delta.key with
  | none =>
    obtain ⟨hout, usage, finishReason, hs⟩ := handle_of_key_none (s := s) hkey
    rw [hout, hs, List.append_nil, Items.push, hkey]
    exact ⟨h.finished, h.createdEmitted, h.inProgressEmitted, h.out_eq, h.sequence,
      h.outputIndex, h.itemCounter, h.current, h.closed⟩
  | some k =>
    cases hopen : items.isOpen k with
    | true =>
      obtain ⟨item, hitem, hk⟩ : ∃ item, items.opened = some item ∧ item.kind.key = k := by
        simpa [Items.isOpen, Option.any_eq_true] using hopen
      have hbodies : (items.push delta).bodies =
          items.bodies ++ delta.payload.map item.deltaEvent := by
        simp [Items.push, hkey, hopen, Items.bodies, hitem, openEvents_push]
      have hcur : s.current = some item.toOpen := by rw [h.current, hitem]; rfl
      rw [handle_append hcur (by rw [hk, hkey])]
      refine ⟨h.finished, h.createdEmitted, h.inProgressEmitted, ?_, ?_, ?_, ?_, ?_, ?_⟩
      · rw [hbodies, ← List.append_assoc, numbered_append, ← h.out_eq, h.sequence, Nat.zero_add]
      · simp [hbodies, h.sequence, Nat.add_assoc]
      · simp [Items.push, hkey, hopen, Items.all, hitem, h.outputIndex]
      · simp [Items.push, hkey, hopen, Items.all, hitem, h.itemCounter]
      · simp [Items.push, hkey, hopen, hitem]
      · simp [Items.push, hkey, hopen, h.closed]
    | false =>
      have hbodies : (items.push delta).bodies = items.bodies ++ (closingOf items.opened ++
          (OutputItem.start items.all.length k delta).openEvents) := by
        cases hitem : items.opened <;>
          simp [Items.push, hkey, hopen, Items.bodies, Items.all, closingOf, hitem,
            OutputItem.events]
      rw [handle_open h.current hkey hopen (by rw [h.itemCounter, h.outputIndex]),
        h.outputIndex]
      refine ⟨h.finished, h.createdEmitted, h.inProgressEmitted, ?_, ?_, ?_, ?_, ?_, ?_⟩
      · rw [hbodies, ← List.append_assoc, numbered_append, ← h.out_eq, h.sequence, Nat.zero_add]
      · simp [hbodies, h.sequence, Nat.add_assoc]
      · simp [Items.push, hkey, hopen, Items.all, Nat.add_assoc]
      · simp [Items.push, hkey, hopen, Items.all, Nat.add_assoc]
      · simp [Items.push, hkey, hopen]
      · simp [Items.push, hkey, hopen, Items.all, h.closed]

theorem Refines.handleAll (h : Refines s out created inProgress items) (deltas : List IrDelta) :
    Refines (s.handleAll deltas).1 (out ++ (s.handleAll deltas).2) created inProgress
      (deltas.foldl Items.push items) := by
  induction deltas generalizing s out items with
  | nil => simpa [ResponsesEmitter.handleAll] using h
  | cons delta deltas ih =>
    rw [ResponsesEmitter.handleAll, andThen, ← List.append_assoc]
    exact ih (h.handle delta)

/-- The emitter before its first event. -/
structure Fresh (s : ResponsesEmitter) : Prop where
  finished : s.finished = false
  createdEmitted : s.createdEmitted = false
  inProgressEmitted : s.inProgressEmitted = false
  sequence : s.sequence = 0
  outputIndex : s.nextOutputIndex = 0
  itemCounter : s.nextItemCounter = 0
  current : s.current = none
  closed : s.closed = []

theorem fresh_new (id model : String) (createdAt : Nat) : Fresh (new id model createdAt) :=
  ⟨rfl, rfl, rfl, rfl, rfl, rfl, rfl, rfl⟩

/-- The emitter after some events: none at all, or those of the items. -/
def Emitted (s : ResponsesEmitter) (out : List SseEvent) (items : Items) : Prop :=
  (Fresh s ∧ out = [] ∧ items = {}) ∨
    ∃ created inProgress, Refines s out created inProgress items

theorem Emitted.ensureStarted (h : Emitted s out items) :
    ∃ created inProgress,
      Refines s.ensureStarted.1 (out ++ s.ensureStarted.2) created inProgress items := by
  obtain ⟨h, rfl, rfl⟩ | ⟨created, inProgress, h⟩ := h
  · refine ⟨s.responseSnapshot "in_progress" false, s.responseSnapshot "in_progress" false, ?_⟩
    simp only [ResponsesEmitter.ensureStarted, h.createdEmitted, pushAll_eq, startEvent,
      if_false, Bool.false_eq_true, andThen_mk, h.inProgressEmitted, h.sequence]
    exact ⟨h.finished, rfl, rfl, rfl, rfl, h.outputIndex, h.itemCounter, h.current, h.closed⟩
  · refine ⟨created, inProgress, ?_⟩
    simpa [ResponsesEmitter.ensureStarted, h.createdEmitted, h.inProgressEmitted] using h

/-- **The emitter refines the lifecycle.** -/
theorem Emitted.emit (h : Emitted s out items) (deltas : List IrDelta) :
    Emitted (s.emit deltas).1 (out ++ (s.emit deltas).2) (deltas.foldl Items.push items) := by
  by_cases hd : deltas = []
  · subst hd
    simpa [ResponsesEmitter.emit] using h
  · obtain ⟨created, inProgress, hs⟩ := h.ensureStarted
    have := hs.handleAll deltas
    refine Or.inr ⟨created, inProgress, ?_⟩
    simpa [ResponsesEmitter.emit, hd, andThen, List.append_assoc] using this

/-- Metadata and usage play no part in what has been emitted. -/
theorem Emitted.update (h : Emitted s out items) (id model : String) :
    Emitted { s with id := id, model := model } out items := by
  obtain ⟨h, hout⟩ | ⟨created, inProgress, h⟩ := h
  · exact Or.inl ⟨⟨h.1, h.2, h.3, h.4, h.5, h.6, h.7, h.8⟩, hout⟩
  · exact Or.inr ⟨created, inProgress, ⟨h.1, h.2, h.3, h.4, h.5, h.6, h.7, h.8, h.9⟩⟩

theorem ensureStarted_finishReason (s : ResponsesEmitter) :
    s.ensureStarted.1.finishReason = s.finishReason := by
  simp only [ResponsesEmitter.ensureStarted, andThen, pushAll_eq]
  split_ifs <;> rfl

theorem ensureStarted_setFinished (s : ResponsesEmitter) :
    ({ s with finished := true } : ResponsesEmitter).ensureStarted =
      ({ s.ensureStarted.1 with finished := true }, s.ensureStarted.2) := by
  simp only [ResponsesEmitter.ensureStarted, andThen, pushAll_eq]
  split_ifs <;> rfl

theorem Emitted.finished (h : Emitted s out items) : s.finished = false := by
  obtain ⟨h, -, -⟩ | ⟨created, inProgress, h⟩ := h
  · exact h.finished
  · exact h.finished

/-- The snapshot of the terminal event shows every closed item. -/
theorem get_output_responseSnapshot (s : ResponsesEmitter) (status : String) :
    (s.responseSnapshot status true).get "output" = some (.array s.closed) := by
  simp only [responseSnapshot, get_obj, if_true]
  cases (responsesCompletionStatus s.finishReason).2 <;> rfl

theorem responseOutcome_responseSnapshot (s : ResponsesEmitter) :
    responseOutcome (s.responseSnapshot (responsesCompletionStatus s.finishReason).1 true) =
      some (responsesCompletionStatus s.finishReason) := by
  simp only [responseOutcome, responseSnapshot, Value.str, get_obj, if_true]
  obtain ⟨status, reason⟩ := responsesCompletionStatus s.finishReason
  cases reason with
  | none => rfl
  | some reason =>
    have hreason : (obj [("reason", .string reason)]).get "reason" = some (.string reason) :=
      (get_obj _ _).trans rfl
    simp [BTreeMap.get_cons, hreason, asStr]

theorem Refines.ensureStarted (h : Refines s out created inProgress items) :
    ({ s with finished := true } : ResponsesEmitter).ensureStarted =
      ({ s with finished := true }, []) := by
  simp [ResponsesEmitter.ensureStarted, h.createdEmitted, h.inProgressEmitted]

/-- `finish` on an emitter that has started. -/
theorem Refines.finish (h : Refines s out created inProgress items) :
    ∃ last : ResponsesEmitter,
      out ++ s.finish.2 = numbered 0 (prologue created inProgress ++
        items.all.flatMap OutputItem.events ++
        [terminal (responsesCompletionStatus s.finishReason).1
          (last.responseSnapshot (responsesCompletionStatus s.finishReason).1 true)]) ∧
      last.closed = items.all.map OutputItem.final ∧
      last.finishReason = s.finishReason ∧ last.usage = s.usage := by
  have hcur : ({ s with finished := true } : ResponsesEmitter).current =
      items.opened.map OutputItem.toOpen := h.current
  have hbodies : items.bodies ++ closingOf items.opened =
      items.all.flatMap OutputItem.events := by
    cases hitem : items.opened <;>
      simp [Items.bodies, Items.all, closingOf, hitem, OutputItem.events]
  simp only [ResponsesEmitter.finish, h.finished, Bool.false_eq_true, if_false, h.ensureStarted,
    andThen_mk, closeCurrent_eq hcur, pushTerminal, pushAll_eq]
  generalize hlast : ({ s with
    current := none
    finished := true
    closed := s.closed ++ items.opened.toList.map OutputItem.final
    sequence := s.sequence + (closingOf items.opened).length } : ResponsesEmitter) = last
  refine ⟨last, ?_, ?_, ?_, ?_⟩
  · rw [h.out_eq, h.sequence, ← hbodies, numbered_append, numbered_append, numbered_append,
      numbered_append]
    simp only [terminal, numbered, List.length_append, List.append_assoc, Nat.zero_add,
      Nat.add_assoc, List.nil_append]
  · subst hlast
    cases hitem : items.opened <;> simp [h.closed, Items.all, hitem]
  · rw [← hlast]
  · rw [← hlast]

/-- The opening events may come with the first `finish`. -/
theorem finish_eq_ensureStarted (hfinished : s.finished = false)
    (h : Refines s.ensureStarted.1 out created inProgress items) :
    s.finish.2 = s.ensureStarted.2 ++ s.ensureStarted.1.finish.2 := by
  simp only [ResponsesEmitter.finish, hfinished, h.finished, Bool.false_eq_true, if_false,
    ensureStarted_setFinished, h.ensureStarted, andThen, List.nil_append, List.append_assoc]

/-- **The end of a stream.** The first `finish` closes the open item and pushes one terminal
event, which shows exactly the items that were closed. -/
theorem Emitted.finish (h : Emitted s out items) :
    ∃ created inProgress response,
      out ++ s.finish.2 = numbered 0 (prologue created inProgress ++
        items.all.flatMap OutputItem.events ++
        [terminal (responsesCompletionStatus s.finishReason).1 response]) ∧
      response.get "output" = some (.array (items.all.map OutputItem.final)) ∧
      responseOutcome response = some (responsesCompletionStatus s.finishReason) := by
  obtain ⟨created, inProgress, hr⟩ := h.ensureStarted
  obtain ⟨last, hout, hclosed, hreason, -⟩ := hr.finish
  rw [ensureStarted_finishReason] at hout hreason
  refine ⟨created, inProgress,
    last.responseSnapshot (responsesCompletionStatus s.finishReason).1 true, ?_, ?_, ?_⟩
  · rw [finish_eq_ensureStarted h.finished hr, ← List.append_assoc]
    exact hout
  · rw [get_output_responseSnapshot, hclosed]
  · rw [← hreason]
    exact responseOutcome_responseSnapshot last

end ResponsesEmitter

end Tokn.Convert
