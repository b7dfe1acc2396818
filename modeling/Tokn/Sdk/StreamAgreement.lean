import Tokn.Convert.EmitterRoundTrip
import Tokn.Lib.Insertion
import Tokn.Lib.JsonText
import Tokn.Sdk.GenerateProof

/-!
# Streams and whole responses

The SDK reads a response event by event or as a whole.

**Theorem (`stream_agrees`).** Where the stream is one of the Responses emitter, its items tell what the
response shows that the stream ends with: its text, its reasoning, its finish reason. The calls are the
same exactly if every call is announced with the id and the name that it ends with.
-/

namespace Tokn.Sdk

open Tokn.Convert (Endpoint IrDelta OutputItem ResponsesEmitter SseAccumulator SseEvent)
open Tokn.Convert.Responses (isToolCallType)

/-! ## What the items say -/

open Tokn.Convert.EmitterRoundTrip
open Tokn.Convert.WireCalls (Agree CallMark KnownItem WireState agree_new announcement fragments
  fragments_announcement observeItem ofDelta pushValue_step responsesFragment)

/-- What an item says. -/
def itemSays (said : IrDelta → String) : Except Error GenerateEvent → String
  | .ok (.textDelta text) => said (.text text)
  | .ok (.reasoningDelta text) => said (.reasoning text)
  | _ => ""

/-- What an item reports of a call. -/
def itemMark : Except Error GenerateEvent → Option CallMark
  | .ok (.toolCallDelta index id name argumentsDelta) => some ⟨index, id, name, some argumentsDelta⟩
  | _ => none

/-- What the first event about a call reports. -/
def startedMarks (value : Value) : List CallMark :=
  (toolCallStarted value).toList.filterMap fun event => itemMark (.ok event)

/-- Such an event says nothing else. -/
theorem deltas_of_started {value : Value} {event : GenerateEvent}
    (h : toolCallStarted value = some event) : Convert.Responses.deltaFromResponsesEvent value = [] := by
  rw [toolCallStarted] at h
  split_ifs at h with htype
  simp [Convert.Responses.deltaFromResponsesEvent, htype]

theorem itemMark_eventFromDelta (delta : IrDelta) :
    itemMark (.ok (eventFromDelta delta)) = ofDelta delta := by cases delta <;> rfl

section

variable {said : IrDelta → String} {acc : SseAccumulator} {value : Value}

theorem itemSays_eventFromDelta (h : Shows said) (delta : IrDelta) :
    itemSays said (.ok (eventFromDelta delta)) = said delta := by
  cases delta with
  | text s => rfl
  | reasoning s => rfl
  | toolCall index id name argumentsDelta => exact (h.call ..).symm
  | usage usage => exact (h.usage usage).symm
  | finish reason => exact (h.finish reason).symm

theorem decode_of_started (hacc : acc.endpoint = .responses) {event : GenerateEvent}
    (h : toolCallStarted value = some event) : (acc.pushValue value).2 = [] := by
  obtain ⟨fill, hdeltas, -⟩ := SseAccumulator.decode_responses hacc value
  have hpush : (acc.pushValue value).2 = (acc.decode value).2 := rfl
  rw [hpush, hdeltas, deltas_of_started h, List.map_nil]

/-- A value that does not end the stream says what its deltas say. -/
theorem says_inner (h : Shows said) (hacc : acc.endpoint = .responses)
    (hinner : isTerminalValue value = false) :
    String.join ((resultsFromValue acc value).2.map (itemSays said)) = heard said value := by
  have hresults : (resultsFromValue acc value).2 = resultsOf value (acc.pushValue value).2 := rfl
  have hheard : String.join ((acc.pushValue value).2.map said) = heard said value :=
    h.said_decode hacc value
  rw [hresults, resultsOf_inner hinner, ← hheard]
  cases hstarted : toolCallStarted value with
  | some event =>
    rw [decode_of_started hacc hstarted]
    rw [toolCallStarted] at hstarted
    split_ifs at hstarted
    obtain ⟨item, -, rfl⟩ := Option.map_eq_some_iff.mp hstarted
    rfl
  | none =>
    by_cases hdeltas : (acc.pushValue value).2 = []
    · rw [Option.elim_none, if_pos hdeltas, hdeltas]
      rfl
    · rw [Option.elim_none, if_neg hdeltas, List.map_map]
      refine congrArg String.join (List.map_congr_left fun delta _ => ?_)
      exact itemSays_eventFromDelta h delta

/-- It reports the calls that start and the fragments that are decoded. -/
theorem marks_inner (hacc : acc.endpoint = .responses) (hinner : isTerminalValue value = false) :
    (resultsFromValue acc value).2.filterMap itemMark =
      startedMarks value ++ (acc.pushValue value).2.filterMap ofDelta := by
  have hresults : (resultsFromValue acc value).2 = resultsOf value (acc.pushValue value).2 := rfl
  rw [hresults, resultsOf_inner hinner, startedMarks]
  cases hstarted : toolCallStarted value with
  | some event =>
    rw [decode_of_started hacc hstarted, Option.elim_some, List.filterMap_nil, List.append_nil]
    rfl
  | none =>
    by_cases hdeltas : (acc.pushValue value).2 = []
    · rw [Option.elim_none, if_pos hdeltas, hdeltas]
      rfl
    · rw [Option.elim_none, if_neg hdeltas, List.filterMap_map]
      simp [itemMark_eventFromDelta]

end

/-! ### Runs -/

def frameOf (value : Value) : Frame := .ok value.toText

/-- A value that is read from its frame. -/
structure ReadBack (fromStr : String → Option Value) (value : Value) : Prop where
  blank : Str.trim value.toText ≠ ""
  done : Str.trim value.toText ≠ "[DONE]"
  value : fromStr value.toText = some value

section

variable {fromStr : String → Option Value} {acc : SseAccumulator} {vs : List Value}

theorem endpoint_run (hacc : acc.endpoint = .responses) (vs : List Value) :
    (Machine.run resultsFromValue acc vs).1.endpoint = .responses := by
  induction vs generalizing acc with
  | nil => exact hacc
  | cons v vs ih => exact ih ((SseAccumulator.endpoint_pushValue acc v).trans hacc)

theorem itemsFrom_run (hinner : ∀ v ∈ vs, isTerminalValue v = false)
    (hread : ∀ v ∈ vs, ReadBack fromStr v) (more : List Frame) :
    itemsFrom fromStr acc (vs.map frameOf ++ more) =
      (Machine.run resultsFromValue acc vs).2.flatten ++
        itemsFrom fromStr (Machine.run resultsFromValue acc vs).1 more := by
  induction vs generalizing acc with
  | nil => rfl
  | cons v vs ih =>
    obtain ⟨hblank, hdone, hvalue⟩ := hread v List.mem_cons_self
    rw [List.map_cons, List.cons_append, frameOf, itemsFrom, if_neg hblank, if_neg hdone, hvalue,
      Machine.run_cons]
    dsimp only
    rw [hinner v List.mem_cons_self, ih (fun v hv => hinner v (List.mem_cons_of_mem _ hv))
      fun v hv => hread v (List.mem_cons_of_mem _ hv), List.flatten_cons, List.append_assoc]
    rfl

theorem says_run {said : IrDelta → String} (h : Shows said) (hacc : acc.endpoint = .responses)
    (hinner : ∀ v ∈ vs, isTerminalValue v = false) :
    String.join ((Machine.run resultsFromValue acc vs).2.flatten.map (itemSays said)) =
      String.join (vs.map (heard said)) := by
  induction vs generalizing acc with
  | nil => rfl
  | cons v vs ih =>
    have hnext : (resultsFromValue acc v).1.endpoint = .responses :=
      (SseAccumulator.endpoint_pushValue acc v).trans hacc
    rw [Machine.run_cons, List.flatten_cons, List.map_append, String.join_append,
      says_inner h hacc (hinner v List.mem_cons_self), ih hnext fun v hv =>
        hinner v (List.mem_cons_of_mem _ hv), List.map_cons, String.join_cons]

/-- The reports of some values, from what is known of their items. -/
def marksFrom (known : Nat → KnownItem) : List Value → List CallMark
  | [] => []
  | v :: vs => startedMarks v ++ responsesFragment (observeItem known v) v ++
      marksFrom (observeItem known v) vs

theorem marks_run {w : WireState} (h : Agree acc w) (hacc : acc.endpoint = .responses)
    (hinner : ∀ v ∈ vs, isTerminalValue v = false) :
    (Machine.run resultsFromValue acc vs).2.flatten.filterMap itemMark = marksFrom w.known vs := by
  induction vs generalizing acc w with
  | nil => rfl
  | cons v vs ih =>
    obtain ⟨hagree, hdeltas⟩ := pushValue_step h v
    rw [hacc] at hagree hdeltas
    have hnext : (resultsFromValue acc v).1.endpoint = .responses :=
      (SseAccumulator.endpoint_pushValue acc v).trans hacc
    have hfragments : fragments (Convert.WireCalls.step .responses w v).2 =
        responsesFragment (observeItem w.known v) v := by
      show fragments (announcement v ++ responsesFragment (observeItem w.known v) v) = _
      rw [fragments, List.filter_append, ← fragments, ← fragments, fragments_announcement,
        fragments_responsesFragment, List.nil_append]
    rw [Machine.run_cons, List.flatten_cons, List.filterMap_append,
      marks_inner hacc (hinner v List.mem_cons_self), hdeltas, hfragments, marksFrom]
    exact congrArg _ (ih hagree hnext fun v hv => hinner v (List.mem_cons_of_mem _ hv))

end

/-! ### The items of an emitter -/

/-- The kinds of event that follow the first event of an output item. -/
def laterKinds : List String :=
  ["response.content_part.added", "response.output_text.delta", "response.reasoning_text.delta",
    "response.function_call_arguments.delta", "response.output_item.done"] ++ closingKinds

variable (item : OutputItem)

theorem events_eq : ∃ later,
    item.events = Convert.outputItemAdded item.outputIndex (addedItem item) :: later ∧
      ∀ body ∈ later, ∃ kind ∈ laterKinds, IsKind body kind := by
  obtain ⟨opening, hopening, hparts⟩ := kinds_opening item
  obtain ⟨closing, hclosing, hclosed⟩ := kinds_closing item
  refine ⟨opening ++ item.deltas.map item.deltaEvent ++ item.closing, ?_, fun body hbody => ?_⟩
  · rw [OutputItem.events, OutputItem.openEvents, hopening]
    rfl
  · rw [hclosing] at hbody
    simp only [List.mem_append, List.mem_map, List.mem_singleton] at hbody
    obtain (hbody | ⟨s, -, rfl⟩) | hbody | rfl := hbody
    · exact ⟨_, by decide, hparts body hbody⟩
    · obtain ⟨kind, outputIndex, itemId, deltas⟩ := item
      cases kind with
      | message => exact ⟨"response.output_text.delta", by decide, _, rfl, rfl, rfl⟩
      | reasoning => exact ⟨"response.reasoning_text.delta", by decide, _, rfl, rfl, rfl⟩
      | functionCall =>
        exact ⟨"response.function_call_arguments.delta", by decide, _, rfl, rfl, rfl⟩
    · obtain ⟨kind, hmem, hkind⟩ := hclosed body hbody
      exact ⟨kind, List.mem_append_right _ hmem, hkind⟩
    · exact ⟨"response.output_item.done", by decide, _, rfl, rfl, rfl⟩

theorem isTerminalValue_valueOf {kind : String} {fields : List (String × Value)}
    (htype : BTreeMap.get fields.reverse "type" = none) (n : Nat) :
    isTerminalValue (valueOf kind fields n) = decide (kind ∈ terminalKinds) := by
  rw [Bool.eq_iff_iff, decide_eq_true_iff, isTerminalValue_iff, type_valueOf htype]
  simp

theorem startedMarks_of_ne {value : Value} (h : value.str "type" ≠ some "response.output_item.added") :
    startedMarks value = [] := by
  rw [startedMarks, toolCallStarted, if_neg h]
  rfl

/-- What holds of the value of every event body. -/
theorem forall_values {P : Value → Prop} {bodies : List (Nat → SseEvent)}
    (h : ∀ body ∈ bodies, ∃ kind fields, body = Convert.responsesEvent kind fields ∧
      ∀ n, P (valueOf kind fields n)) (n : Nat) : ∀ v ∈ values n bodies, P v := by
  induction bodies generalizing n with
  | nil => exact fun v hv => absurd hv List.not_mem_nil
  | cons body bodies ih =>
    obtain ⟨kind, fields, rfl, hvalue⟩ := h _ List.mem_cons_self
    intro v hv
    rw [values_cons] at hv
    obtain rfl | hv := List.mem_cons.mp hv
    · exact hvalue n
    · exact ih (fun body hbody => h body (List.mem_cons_of_mem _ hbody)) (n + 1) v hv

theorem laterKinds_not_terminal : ∀ kind ∈ laterKinds, kind ∉ terminalKinds := by decide

theorem laterKinds_not_added : ∀ kind ∈ laterKinds, kind ≠ "response.output_item.added" := by decide

/-- No event of an output item ends the stream. -/
theorem inner_events (n : Nat) : ∀ v ∈ values n item.events, isTerminalValue v = false := by
  obtain ⟨later, hevents, hlater⟩ := events_eq item
  refine forall_values (fun body hbody => ?_) n
  rw [hevents] at hbody
  obtain rfl | hbody := List.mem_cons.mp hbody
  · exact ⟨_, _, rfl, fun n => (isTerminalValue_valueOf rfl n).trans (by decide)⟩
  · obtain ⟨kind, hkind, fields, rfl, htype, -⟩ := hlater body hbody
    refine ⟨kind, fields, rfl, fun n => (isTerminalValue_valueOf htype n).trans ?_⟩
    exact decide_eq_false (laterKinds_not_terminal kind hkind)

theorem inner_values (created inProgress : Value) (items : List OutputItem) (n : Nat) :
    ∀ v ∈ values n (Convert.prologue created inProgress ++ items.flatMap OutputItem.events),
      isTerminalValue v = false := by
  intro v hv
  rw [values_append, List.mem_append] at hv
  obtain hv | hv := hv
  · refine forall_values (P := fun v => isTerminalValue v = false) (fun body hbody => ?_) n v hv
    simp only [Convert.prologue, List.mem_cons, List.not_mem_nil, or_false] at hbody
    obtain rfl | rfl := hbody
    · exact ⟨_, _, rfl, fun n => (isTerminalValue_valueOf rfl n).trans (by decide)⟩
    · exact ⟨_, _, rfl, fun n => (isTerminalValue_valueOf rfl n).trans (by decide)⟩
  · generalize n + (Convert.prologue created inProgress).length = m at hv
    induction items generalizing m with
    | nil => exact absurd hv List.not_mem_nil
    | cons item items ih =>
      rw [List.flatMap_cons, values_append, List.mem_append] at hv
      obtain hv | hv := hv
      · exact inner_events item m v hv
      · exact ih _ hv

/-! ### The reports of an emitter -/

/-- The reports of a call: that it starts, and its fragments. -/
def itemReports (item : OutputItem) : List CallMark :=
  match item.kind with
  | .functionCall _ callId name _ _ =>
    ⟨item.outputIndex, some callId, some name, some ""⟩ :: itemFragments item
  | _ => []

theorem startedMarks_addedItem (n : Nat) :
    startedMarks (valueOf "response.output_item.added"
      [("output_index", .nat item.outputIndex), ("item", addedItem item)] n) ++ itemFragments item =
        itemReports item := by
  obtain ⟨kind, outputIndex, itemId, deltas⟩ := item
  cases kind <;>
    simp [startedMarks, toolCallStarted, itemMark, itemReports, itemFragments, Option.filter_some,
      Value.str, Value.u64, get_valueOf, BTreeMap.get_cons, addedItem, Convert.messageItemValue,
      Convert.reasoningItemValue, Convert.functionCallItemValue, Value.get_obj, Value.asStr,
      Value.asU64, Value.nat, isToolCallType]

theorem marksFrom_of_not_started {known : Nat → KnownItem} {vs : List Value}
    (h : ∀ v ∈ vs, startedMarks v = []) : marksFrom known vs = fragmentsFrom known vs := by
  induction vs generalizing known with
  | nil => rfl
  | cons v vs ih =>
    rw [marksFrom, fragmentsFrom, h v List.mem_cons_self, List.nil_append,
      ih fun v hv => h v (List.mem_cons_of_mem _ hv)]

theorem marksFrom_append (known : Nat → KnownItem) (vs ws : List Value) :
    marksFrom known (vs ++ ws) = marksFrom known vs ++ marksFrom (vs.foldl observeItem known) ws := by
  induction vs generalizing known with
  | nil => rfl
  | cons v vs ih =>
    rw [List.cons_append, marksFrom, ih, marksFrom, List.append_assoc, List.foldl_cons]
    rw [List.append_assoc, List.append_assoc]

/-- The events of an item that nothing is known of yet. -/
theorem marksFrom_events {known : Nat → KnownItem} (h : known item.outputIndex = {}) (n : Nat) :
    marksFrom known (values n item.events) = itemReports item := by
  obtain ⟨later, hevents, hlater⟩ := events_eq item
  have hfragments := (events_known item h n).2
  have hquiet : ∀ v ∈ values (n + 1) later, startedMarks v = [] := by
    refine forall_values (fun body hbody => ?_) (n + 1)
    obtain ⟨kind, hkind, fields, rfl, htype, -⟩ := hlater body hbody
    refine ⟨kind, fields, rfl, fun n => startedMarks_of_ne ?_⟩
    rw [type_valueOf htype]
    exact fun hsame => laterKinds_not_added kind hkind (Option.some.inj hsame)
  rw [hevents, Convert.outputItemAdded, values_cons, fragmentsFrom] at hfragments
  rw [hevents, Convert.outputItemAdded, values_cons, marksFrom, marksFrom_of_not_started hquiet,
    List.append_assoc, hfragments]
  exact startedMarks_addedItem item n

/-- **The reports of the items.** Each item comes when nothing is known of its place. -/
theorem marksFrom_items {items : List OutputItem} {first : Nat} {known : Nat → KnownItem}
    (hplaced : ∀ k item, items[k]? = some item → item.outputIndex = first + k)
    (h : ∀ i, first ≤ i → known i = {}) (n : Nat) :
    marksFrom known (values n (items.flatMap OutputItem.events)) = items.flatMap itemReports := by
  induction items generalizing first known n with
  | nil => rfl
  | cons item items ih =>
    have hfirst : item.outputIndex = first := hplaced 0 item rfl
    have hknown := h _ hfirst.ge
    rw [List.flatMap_cons, values_append, marksFrom_append, marksFrom_events item hknown,
      List.flatMap_cons]
    congr 1
    refine @ih (first + 1) _ (fun k item' hk => ?_) (fun i hi => ?_) _
    · rw [hplaced (k + 1) item' hk]
      omega
    · rw [(events_known item hknown n).1 i (by omega), h i (by omega)]

theorem marksFrom_prologue (created inProgress : Value) (n : Nat) (known : Nat → KnownItem) :
    (values n (Convert.prologue created inProgress)).foldl observeItem known = known ∧
      marksFrom known (values n (Convert.prologue created inProgress)) = [] := by
  have hkinds : ∀ body ∈ Convert.prologue created inProgress, ∃ kind fields,
      body = Convert.responsesEvent kind fields ∧ kind ∉ telling ∧
        BTreeMap.get fields.reverse "type" = none := by
    intro body hbody
    simp only [Convert.prologue, List.mem_cons, List.not_mem_nil, or_false] at hbody
    obtain rfl | rfl := hbody <;> exact ⟨_, _, rfl, by decide, rfl⟩
  have hquiet : ∀ v ∈ values n (Convert.prologue created inProgress),
      (∀ known, observeItem known v = known ∧ responsesFragment known v = []) ∧ startedMarks v = [] := by
    refine forall_values (fun body hbody => ?_) n
    obtain ⟨kind, fields, rfl, hkind, htype⟩ := hkinds body hbody
    refine ⟨kind, fields, rfl, fun n => ⟨silent_of_kind n htype hkind, startedMarks_of_ne ?_⟩⟩
    rw [type_valueOf htype]
    intro hsame
    rw [Option.some.inj hsame] at hkind
    exact hkind (by decide)
  generalize values n (Convert.prologue created inProgress) = vs at hquiet
  induction vs with
  | nil => exact ⟨rfl, rfl⟩
  | cons v vs ih =>
    obtain ⟨hsilent, hstarted⟩ := hquiet v List.mem_cons_self
    obtain ⟨hknown, hmarks⟩ := ih fun v hv => hquiet v (List.mem_cons_of_mem _ hv)
    rw [List.foldl_cons, marksFrom, (hsilent known).1, (hsilent known).2, hstarted, hmarks]
    exact ⟨hknown, rfl⟩

/-! ### Whole streams -/

/-- A stream as the splitter gives it. -/
def framesOf (events : List SseEvent) : List Frame := events.map fun e => .ok e.data

/-- An emitter that has emitted, and what it ends with. -/
theorem emitted_last {s : ResponsesEmitter} {out : List SseEvent} {items : Convert.Items}
    (h : ResponsesEmitter.Emitted s out items) :
    ∃ created inProgress, ∃ last : ResponsesEmitter,
      out ++ s.finish.2 = Convert.numbered 0 (Convert.prologue created inProgress ++
        items.all.flatMap OutputItem.events ++
        [Convert.terminal (Convert.responsesCompletionStatus s.finishReason).1
          (last.responseSnapshot (Convert.responsesCompletionStatus s.finishReason).1 true)]) ∧
      last.closed = items.all.map OutputItem.final := by
  obtain ⟨created, inProgress, hr⟩ := h.ensureStarted
  obtain ⟨last, hout, hclosed, hreason, -⟩ := hr.finish
  rw [ResponsesEmitter.ensureStarted_finishReason] at hout hreason
  refine ⟨created, inProgress, last, ?_, hclosed⟩
  rw [ResponsesEmitter.finish_eq_ensureStarted h.finished hr, ← List.append_assoc]
  exact hout

theorem heard_prologue {said : IrDelta → String} (created inProgress : Value) (n : Nat) :
    ∀ v ∈ values n (Convert.prologue created inProgress), heard said v = "" := by
  refine forall_values (fun body hbody => ?_) n
  simp only [Convert.prologue, List.mem_cons, List.not_mem_nil, or_false] at hbody
  obtain rfl | rfl := hbody
  · exact ⟨_, _, rfl, fun n => heard_of_kind n rfl (by decide)⟩
  · exact ⟨_, _, rfl, fun n => heard_of_kind n rfl (by decide)⟩

/-- What the values of a stream say is what its items say. -/
theorem heard_stream {said : IrDelta → String} (h : Shows said) (created inProgress : Value)
    (items : List OutputItem) :
    String.join ((values 0 (Convert.prologue created inProgress ++
      items.flatMap OutputItem.events)).map (heard said)) = String.join (items.map (say said)) := by
  have hitems := h.hear_items items (0 + (Convert.prologue created inProgress).length)
  rw [hear] at hitems
  rw [values_append, List.map_append, String.join_append, hitems,
    join_map_eq_empty (heard_prologue created inProgress 0), String.empty_append]

/-! ### The response of an emitter -/

theorem join_flatMap {α : Type*} (xs : List α) (f : α → List String) :
    String.join (xs.flatMap f) = String.join (xs.map fun x => String.join (f x)) := by
  induction xs with
  | nil => rfl
  | cons x xs ih => rw [List.flatMap_cons, String.join_append, ih, List.map_cons, String.join_cons]

/-- The texts of an output item. -/
def itemTexts (item : Value) : List String :=
  if item.str "type" = some "message" then
    ((contentParts item).filter fun part =>
      part.str "type" = some "output_text" ∨ part.str "type" = some "text").filterMap
        fun part => part.str "text"
  else []

theorem outputText_eq {response : Value} (htext : response.str "output_text" = none) :
    outputText response = String.join ((outputItems response).flatMap itemTexts) := by
  rw [outputText, htext, Option.filter_none]
  dsimp only
  congr 1
  induction outputItems response with
  | nil => rfl
  | cons item items ih =>
    rw [List.flatMap_cons, ← ih, itemTexts]
    by_cases hmessage : item.str "type" = some "message"
    · simp [hmessage]
    · simp [hmessage]

theorem say_text : say IrDelta.textOf item = item.messageText := by
  obtain ⟨kind, outputIndex, itemId, deltas⟩ := item
  cases kind with
  | message => simp [say, itemDelta, OutputItem.messageText, OutputItem.text]
  | reasoning => exact join_map_eq_empty fun _ _ => rfl
  | functionCall => exact join_map_eq_empty fun _ _ => rfl

theorem join_itemTexts : String.join (itemTexts item.final) = say IrDelta.textOf item := by
  rw [say_text]
  obtain ⟨kind, outputIndex, itemId, deltas⟩ := item
  cases kind <;>
    simp [itemTexts, OutputItem.final, OutputItem.messageText, Convert.messageItemValue,
      Convert.reasoningItemValue, Convert.functionCallItemValue, Convert.outputTextPart, contentParts,
      Value.str, Value.get_obj, BTreeMap.get_cons, Value.asStr, Value.asArray]

theorem join_itemReasoning : String.join (itemReasoning item.final) = say reasoningOf item := by
  obtain ⟨kind, outputIndex, itemId, deltas⟩ := item
  cases kind with
  | message =>
    rw [show say reasoningOf _ = "" from join_map_eq_empty fun _ _ => rfl]
    simp [itemReasoning, OutputItem.final, Convert.messageItemValue, Convert.outputTextPart,
      contentParts, Value.str, Value.get_obj, BTreeMap.get_cons, Value.asStr, Value.asArray]
  | reasoning =>
    simp [itemReasoning, OutputItem.final, Convert.reasoningItemValue, collectReasoningParts, partText,
      OutputItem.text, say, itemDelta, reasoningOf, Value.str, Value.get_obj, BTreeMap.get_cons,
      Value.asStr]
  | functionCall =>
    rw [show say reasoningOf _ = "" from join_map_eq_empty fun _ _ => rfl]
    simp [itemReasoning, OutputItem.final, Convert.functionCallItemValue, Value.str, Value.get_obj,
      BTreeMap.get_cons, Value.asStr]

/-- A call, as its item is shown when it is done. -/
def shownCall (fromStr : String → Option Value) (item : OutputItem) : Option ToolCall :=
  match item.kind with
  | .functionCall _ _ _ callId name =>
    some ⟨some callId, name, decodeArguments fromStr (.string item.arguments)⟩
  | _ => none

theorem itemToolCall_final (fromStr : String → Option Value) (item : OutputItem) :
    (if isToolCallType (item.final.str "type") then some (itemToolCall fromStr item.final) else none) =
      shownCall fromStr item := by
  obtain ⟨kind, outputIndex, itemId, deltas⟩ := item
  cases kind <;>
    simp [shownCall, itemToolCall, OutputItem.final, Convert.messageItemValue,
      Convert.reasoningItemValue, Convert.functionCallItemValue, Value.str, Value.get_obj,
      BTreeMap.get_cons, Value.asStr, isToolCallType]

section

variable {response : Value} {items : List OutputItem}
  (houtput : response.get "output" = some (.array (items.map OutputItem.final)))
include houtput

theorem outputItems_final : outputItems response = items.map OutputItem.final := by
  rw [outputItems, houtput]
  rfl

/-- The text of the response is the text of its items. -/
theorem outputText_final (htext : response.str "output_text" = none) :
    outputText response = String.join (items.map (say IrDelta.textOf)) := by
  rw [outputText_eq htext, outputItems_final houtput, join_flatMap, List.map_map]
  exact congrArg String.join (List.map_congr_left fun item _ => join_itemTexts item)

/-- The reasoning of the response is the reasoning of its items. -/
theorem outputReasoning_final :
    (outputReasoning response).getD "" = String.join (items.map (say reasoningOf)) := by
  have hjoin : String.join ((outputItems response).flatMap itemReasoning) =
      String.join (items.map (say reasoningOf)) := by
    rw [outputItems_final houtput, join_flatMap, List.map_map]
    exact congrArg String.join (List.map_congr_left fun item _ => join_itemReasoning item)
  rw [outputReasoning, hjoin]
  split_ifs with hnone
  · exact hnone.symm
  · rfl

/-- The calls of the response are the calls among its items. -/
theorem outputToolCalls_final (fromStr : String → Option Value) :
    outputToolCalls fromStr response = items.filterMap (shownCall fromStr) := by
  rw [outputToolCalls, outputItems_final houtput]
  clear houtput
  induction items with
  | nil => rfl
  | cons item items ih =>
    have hitem := itemToolCall_final fromStr item
    rw [List.map_cons, List.filter_cons, List.filterMap_cons, ← ih, ← hitem]
    split_ifs <;> rfl

end

/-- Both ways of telling whether a response has calls agree. -/
theorem responseHasToolCalls_eq (fromStr : String → Option Value) (response : Value) :
    responseHasToolCalls response = !(outputToolCalls fromStr response).isEmpty := by
  rw [responseHasToolCalls, outputToolCalls]
  induction outputItems response with
  | nil => rfl
  | cons item items ih =>
    rw [List.any_cons, List.filter_cons, ih]
    cases isToolCallType (item.str "type") <;> simp

/-! ### Calls from their reports -/

/-- The arguments that are reported under an index. -/
def argumentsAt (marks : List CallMark) (index : Nat) : String :=
  String.join ((marks.filter fun mark => mark.index = index).map fun mark => mark.fragment.getD "")

/-- The calls of a stream, as a caller of the SDK gathers them: one for each index, with the id and the
name that come first. Blank arguments stand for the empty object. -/
def gathered (fromStr : String → Option Value) (marks : List CallMark) : List ToolCall :=
  (firstEntries (marks.map fun mark => (mark.index, mark))).map fun entry =>
    { id := entry.2.id
      name := entry.2.name.getD ""
      arguments := decodeArguments fromStr (.string (finalArguments (argumentsAt marks entry.1))) }

/-- A call, as its item is announced. -/
def announcedCall (fromStr : String → Option Value) (item : OutputItem) : Option ToolCall :=
  match item.kind with
  | .functionCall _ callId name _ _ =>
    some ⟨some callId, name, decodeArguments fromStr (.string item.arguments)⟩
  | _ => none

/-- The first report of a call. -/
def firstReport (item : OutputItem) : Option CallMark :=
  match item.kind with
  | .functionCall _ callId name _ _ => some ⟨item.outputIndex, some callId, some name, some ""⟩
  | _ => none

theorem itemReports_eq : itemReports item = (firstReport item).toList ++ itemFragments item := by
  obtain ⟨kind, outputIndex, itemId, deltas⟩ := item
  cases kind <;> rfl

/-- The reports of an item are of its place and have what it was announced with. -/
theorem report_eq {item : OutputItem} {mark : CallMark} (h : mark ∈ itemReports item) :
    ∃ report, firstReport item = some report ∧ mark.index = item.outputIndex ∧
      mark.id = report.id ∧ mark.name = report.name := by
  obtain ⟨kind, outputIndex, itemId, deltas⟩ := item
  cases kind with
  | message => exact absurd h List.not_mem_nil
  | reasoning => exact absurd h List.not_mem_nil
  | functionCall =>
    refine ⟨_, rfl, ?_⟩
    obtain rfl | hmem := List.mem_cons.mp h
    · exact ⟨rfl, rfl, rfl⟩
    · obtain ⟨s, -, rfl⟩ := List.mem_map.mp hmem
      exact ⟨rfl, rfl, rfl⟩

section

variable {items : List OutputItem}

/-- The entries that are kept of the reports are the first reports. -/
theorem firstEntries_reports {first : Nat}
    (hplaced : ∀ k item, items[k]? = some item → OutputItem.outputIndex item = first + k) :
    firstEntries ((items.flatMap itemReports).map fun mark => (mark.index, mark)) =
      (items.filterMap firstReport).map fun mark => (mark.index, mark) := by
  induction items generalizing first with
  | nil => rfl
  | cons item items ih =>
    have hfirst : item.outputIndex = first := hplaced 0 item rfl
    have hrest : ∀ k item', items[k]? = some item' → OutputItem.outputIndex item' = first + 1 + k := by
      intro k item' hk
      rw [hplaced (k + 1) item' hk]
      omega
    rw [List.flatMap_cons, List.map_append, firstEntries_append, ih hrest]
    · rw [List.filterMap_cons, itemReports_eq]
      cases hreport : firstReport item with
      | none =>
        have hnone : itemFragments item = [] := by
          obtain ⟨kind, outputIndex, itemId, deltas⟩ := item
          cases kind with
          | functionCall => cases hreport
          | _ => rfl
        rw [hnone]
        rfl
      | some report =>
        have hkey : firstEntries (((some report).toList ++ itemFragments item).map
            fun mark => (mark.index, mark)) = [(report.index, report)] := by
          refine firstEntries_of_key fun e he => ?_
          obtain ⟨mark, hmark, rfl⟩ := List.mem_map.mp he
          have hown : mark ∈ itemReports item := by
            rw [itemReports_eq]
            exact List.mem_append_right _ hmark
          have hfirstReport : report ∈ itemReports item := by
            rw [itemReports_eq, hreport]
            exact List.mem_cons_self
          obtain ⟨-, -, hindex, -⟩ := report_eq hown
          obtain ⟨-, -, hindex', -⟩ := report_eq hfirstReport
          exact hindex.trans hindex'.symm
        rw [hkey]
        rfl
    · intro key hkey hmem
      simp only [List.map_map, List.mem_map, List.mem_flatMap, Function.comp_apply] at hkey hmem
      obtain ⟨mark, ⟨item', hitem', hmark⟩, rfl⟩ := hkey
      obtain ⟨mark', hmark', hsame⟩ := hmem
      obtain ⟨k, hk⟩ := List.mem_iff_getElem?.mp hitem'
      obtain ⟨-, -, hindex, -⟩ := report_eq hmark
      obtain ⟨-, -, hindex', -⟩ := report_eq hmark'
      rw [hindex, hindex', hfirst, hrest k item' hk] at hsame
      omega

/-- The reports of a place are those of its item. -/
theorem filter_reports {first : Nat}
    (hplaced : ∀ k item, items[k]? = some item → OutputItem.outputIndex item = first + k) :
    ∀ item ∈ items, (items.flatMap itemReports).filter (fun mark => mark.index = item.outputIndex) =
      itemReports item := by
  induction items generalizing first with
  | nil => exact fun item h => absurd h List.not_mem_nil
  | cons head items ih =>
    have hfirst : head.outputIndex = first := hplaced 0 head rfl
    have hrest : ∀ k item', items[k]? = some item' → OutputItem.outputIndex item' = first + 1 + k := by
      intro k item' hk
      rw [hplaced (k + 1) item' hk]
      omega
    have hlater : ∀ item' ∈ items, first < OutputItem.outputIndex item' := by
      intro item' hitem'
      obtain ⟨k, hk⟩ := List.mem_iff_getElem?.mp hitem'
      rw [hrest k item' hk]
      omega
    intro item hitem
    rw [List.flatMap_cons, List.filter_append]
    obtain rfl | hitem := List.mem_cons.mp hitem
    · rw [List.filter_eq_self.mpr, List.filter_eq_nil_iff.mpr, List.append_nil]
      · intro mark hmark hindex
        obtain ⟨item', hitem', hmark⟩ := List.mem_flatMap.mp hmark
        obtain ⟨-, -, hsame, -⟩ := report_eq hmark
        have hlt := hlater item' hitem'
        rw [← hsame, of_decide_eq_true hindex, hfirst] at hlt
        exact absurd hlt (Nat.lt_irrefl _)
      · intro mark hmark
        obtain ⟨-, -, hsame, -⟩ := report_eq hmark
        exact decide_eq_true hsame
    · rw [List.filter_eq_nil_iff.mpr, List.nil_append, ih hrest item hitem]
      intro mark hmark hindex
      obtain ⟨-, -, hsame, -⟩ := report_eq hmark
      have hlt := hlater item hitem
      rw [← of_decide_eq_true hindex, hsame, hfirst] at hlt
      exact absurd hlt (Nat.lt_irrefl _)

/-- **The calls that are gathered** are the calls as they were announced. -/
theorem gathered_reports (fromStr : String → Option Value) {first : Nat}
    (hplaced : ∀ k item, items[k]? = some item → OutputItem.outputIndex item = first + k) :
    gathered fromStr (items.flatMap itemReports) = items.filterMap (announcedCall fromStr) := by
  rw [gathered, firstEntries_reports hplaced, List.map_map, List.map_filterMap]
  refine List.filterMap_congr fun item hitem => ?_
  have hown := filter_reports hplaced item hitem
  obtain ⟨kind, outputIndex, itemId, deltas⟩ := item
  cases kind with
  | message => rfl
  | reasoning => rfl
  | functionCall chatIndex announcedId announcedName callId name =>
    have harguments : argumentsAt (items.flatMap itemReports) outputIndex = String.join deltas := by
      rw [argumentsAt, hown]
      simp [itemReports, itemFragments, Function.comp_def]
    simp only [firstReport, Option.map_some, Function.comp_apply, announcedCall, harguments]
    rfl

/-- What is reported under one index is of one call. -/
theorem reports_uniform {first : Nat}
    (hplaced : ∀ k item, items[k]? = some item → OutputItem.outputIndex item = first + k) :
    ∀ mark ∈ items.flatMap itemReports, ∀ mark' ∈ items.flatMap itemReports,
      mark.index = mark'.index → mark.id = mark'.id ∧ mark.name = mark'.name := by
  intro mark hmark mark' hmark' hsame
  obtain ⟨item, hitem, hmark⟩ := List.mem_flatMap.mp hmark
  obtain ⟨item', hitem', hmark'⟩ := List.mem_flatMap.mp hmark'
  obtain ⟨report, hreport, hindex, hid, hname⟩ := report_eq hmark
  obtain ⟨report', hreport', hindex', hid', hname'⟩ := report_eq hmark'
  obtain ⟨k, hk⟩ := List.mem_iff_getElem?.mp hitem
  obtain ⟨k', hk'⟩ := List.mem_iff_getElem?.mp hitem'
  rw [hindex, hindex', hplaced k item hk, hplaced k' item' hk'] at hsame
  rw [← Nat.add_left_cancel hsame, hk] at hk'
  obtain rfl := Option.some.inj hk'
  obtain rfl := Option.some.inj (hreport.symm.trans hreport')
  exact ⟨hid.trans hid'.symm, hname.trans hname'.symm⟩

/-- A call is announced with the id and the name that it ends with. -/
def Announced (item : OutputItem) : Prop :=
  ∀ chatIndex announcedId announcedName callId name,
    item.kind = .functionCall chatIndex announcedId announcedName callId name →
      announcedId = callId ∧ announcedName = name

theorem announcedCall_eq_iff (fromStr : String → Option Value) (item : OutputItem) :
    announcedCall fromStr item = shownCall fromStr item ↔ Announced item := by
  obtain ⟨kind, outputIndex, itemId, deltas⟩ := item
  cases kind with
  | message =>
    refine iff_of_true rfl fun chatIndex announcedId announcedName callId name h => ?_
    cases h
  | reasoning =>
    refine iff_of_true rfl fun chatIndex announcedId announcedName callId name h => ?_
    cases h
  | functionCall chatIndex announcedId announcedName callId name =>
    constructor
    · intro h ci aid an cid nm hkind
      cases hkind
      simpa [announcedCall, shownCall] using h
    · intro h
      obtain ⟨rfl, rfl⟩ := h _ _ _ _ _ rfl
      rfl

theorem calls_eq_iff (fromStr : String → Option Value) :
    items.filterMap (announcedCall fromStr) = items.filterMap (shownCall fromStr) ↔
      ∀ item ∈ items, Announced item := by
  simp only [← announcedCall_eq_iff fromStr]
  induction items with
  | nil => simp
  | cons item items ih =>
    have hboth : (announcedCall fromStr item).isSome = (shownCall fromStr item).isSome := by
      obtain ⟨kind, outputIndex, itemId, deltas⟩ := item
      cases kind <;> rfl
    rw [List.forall_mem_cons, ← ih, List.filterMap_cons, List.filterMap_cons]
    cases hannounced : announcedCall fromStr item with
    | none =>
      cases hshown : shownCall fromStr item with
      | none => simp
      | some call => simp [hannounced, hshown] at hboth
    | some call =>
      cases hshown : shownCall fromStr item with
      | none => simp [hannounced, hshown] at hboth
      | some call' => simp

end

/-! ### The end of an emitter's stream -/

theorem finishReason_of_status {response : Value} {status : String}
    (h : response.str "status" = some status) (hasToolCalls : Bool) :
    ∃ reason, finishReason response hasToolCalls = some reason := by
  unfold finishReason
  rw [h]
  split
  · exact ⟨_, rfl⟩
  · split
    case h_5 hnone => cases hnone
    all_goals exact ⟨_, rfl⟩

theorem terminalType_mem (status : String) : ResponsesEmitter.terminalType status ∈ terminalKinds := by
  unfold ResponsesEmitter.terminalType
  split <;> decide

theorem terminalType_failed_iff (status : String) :
    ResponsesEmitter.terminalType status ∈ failureKinds ↔ status = "failed" := by
  unfold ResponsesEmitter.terminalType
  split <;> simp_all [failureKinds]

/-- The value of an event is neither blank nor the sentinel. -/
theorem trim_toText_obj (fields : List (String × Value)) :
    Str.trim (Value.obj fields).toText ≠ "" ∧ Str.trim (Value.obj fields).toText ≠ "[DONE]" := by
  have hhead := SseEvent.head?_trim_toText_obj fields
  refine ⟨fun h => ?_, of_decide_eq_false (SseEvent.isDone_ofJson_obj none fields)⟩
  have hnone := congrArg (fun s : String => s.toList.head?) h
  simp only [Str.trim, String.toList_ofList, hhead] at hnone
  exact absurd hnone (by decide)

theorem framesOf_numbered {bodies : List (Nat → SseEvent)}
    (h : ∀ body ∈ bodies, ∃ kind fields, body = Convert.responsesEvent kind fields) (n : Nat) :
    framesOf (Convert.numbered n bodies) = (values n bodies).map frameOf := by
  induction bodies generalizing n with
  | nil => rfl
  | cons body bodies ih =>
    obtain ⟨kind, fields, rfl⟩ := h _ List.mem_cons_self
    rw [values_cons, List.map_cons, ← ih fun body hbody => h body (List.mem_cons_of_mem _ hbody)]
    rfl

theorem readBack_values {fromStr : String → Option Value} {bodies : List (Nat → SseEvent)}
    (h : ∀ body ∈ bodies, ∃ kind fields, body = Convert.responsesEvent kind fields) (n : Nat)
    (hread : ∀ e ∈ Convert.numbered n bodies, fromStr e.data = e.json) :
    ∀ v ∈ values n bodies, ReadBack fromStr v := by
  induction bodies generalizing n with
  | nil => exact fun v hv => absurd hv List.not_mem_nil
  | cons body bodies ih =>
    obtain ⟨kind, fields, rfl⟩ := h _ List.mem_cons_self
    intro v hv
    rw [values_cons] at hv
    obtain rfl | hv := List.mem_cons.mp hv
    · obtain ⟨hblank, hdone⟩ := trim_toText_obj
        ([("type", .string kind), ("sequence_number", .nat n)] ++ fields)
      exact ⟨hblank, hdone, hread _ List.mem_cons_self⟩
    · exact ih (fun body hbody => h body (List.mem_cons_of_mem _ hbody)) (n + 1)
        (fun e he => hread e (List.mem_cons_of_mem _ he)) v hv

theorem responsesEvent_of_events {item : OutputItem} {body : Nat → SseEvent}
    (h : body ∈ item.events) : ∃ kind fields, body = Convert.responsesEvent kind fields := by
  obtain ⟨kind, -, fields, hbody, -⟩ := isPart_of_mem_events h
  exact ⟨kind, fields, hbody⟩

/-- A value that ends the stream says no text and reports no call. -/
theorem quiet_terminal {usage : Option Usage} {last : Except Error GenerateEvent}
    (h : IsTerminal last) (said : IrDelta → String) :
    String.join ((usageResults usage ++ [last]).map (itemSays said)) = "" ∧
      (usageResults usage ++ [last]).filterMap itemMark = [] := by
  have hlast : itemSays said last = "" ∧ itemMark last = none := by
    cases last with
    | error e => exact ⟨rfl, rfl⟩
    | ok event =>
      cases event with
      | completed reason => exact ⟨rfl, rfl⟩
      | _ => exact absurd h id
  obtain ⟨htold, hmark⟩ := hlast
  cases usage with
  | none => simp [usageResults, htold, hmark]
  | some usage =>
    have husage : itemSays said (.ok (.usage usage)) = "" := rfl
    have hreport : itemMark (.ok (.usage usage)) = none := rfl
    simp [usageResults, htold, hmark, husage, hreport]

section

variable (s : ResponsesEmitter) (status : String)

theorem str_status_responseSnapshot : (s.responseSnapshot status true).str "status" = some status := by
  simp only [Value.str, ResponsesEmitter.responseSnapshot, Value.get_obj, if_true]
  cases (Convert.responsesCompletionStatus s.finishReason).2 <;> rfl

theorem str_outputText_responseSnapshot :
    (s.responseSnapshot status true).str "output_text" = none := by
  simp only [Value.str, ResponsesEmitter.responseSnapshot, Value.get_obj, if_true]
  cases (Convert.responsesCompletionStatus s.finishReason).2 <;> rfl

end

/-! ### Whole streams and whole responses -/

/-- The status that a stream of deltas ends with. -/
def lastStatus (deltas : List IrDelta) : String :=
  (Convert.responsesCompletionStatus (deltas.foldl Convert.setReason none)).1

theorem stream_numbered (id model : String) (createdAt : Nat) (deltas : List IrDelta) :
    ∃ created inProgress, ∃ last : ResponsesEmitter,
      stream id model createdAt deltas = Convert.numbered 0 (Convert.prologue created inProgress ++
        (Convert.Items.ofDeltas deltas).all.flatMap OutputItem.events ++
        [Convert.terminal (lastStatus deltas) (last.responseSnapshot (lastStatus deltas) true)]) ∧
      last.closed = (Convert.Items.ofDeltas deltas).all.map OutputItem.final := by
  have hnew : ResponsesEmitter.Emitted (ResponsesEmitter.new id model createdAt) [] {} :=
    .inl ⟨ResponsesEmitter.fresh_new id model createdAt, rfl, rfl⟩
  obtain ⟨created, inProgress, last, hout, hclosed⟩ := emitted_last (hnew.emit deltas)
  rw [ResponsesEmitter.finishReason_emit] at hout
  exact ⟨created, inProgress, last, hout, hclosed⟩

/-- Values that are read back, of which the last ends the stream. -/
theorem itemsFrom_ended {fromStr : String → Option Value} {acc : SseAccumulator}
    (hacc : acc.endpoint = .responses) {vs : List Value} {final : Value}
    (hinner : ∀ v ∈ vs, isTerminalValue v = false) (hterminal : isTerminalValue final = true)
    (hread : ∀ v ∈ vs ++ [final], ReadBack fromStr v) :
    ∃ usage last, Ends final last ∧ itemsFrom fromStr acc ((vs ++ [final]).map frameOf) =
      (Machine.run resultsFromValue acc vs).2.flatten ++ (usageResults usage ++ [last]) := by
  obtain ⟨usage, last, hresults, hends⟩ := results_terminal (endpoint_run hacc vs) hterminal
  obtain ⟨hblank, hdone, hvalue⟩ := hread final (List.mem_append_right _ List.mem_cons_self)
  refine ⟨usage, last, hends, ?_⟩
  rw [List.map_append, itemsFrom_run hinner fun v hv => hread v (List.mem_append_left _ hv),
    List.map_singleton, frameOf, itemsFrom, if_neg hblank, if_neg hdone, hvalue]
  dsimp only
  rw [hterminal, if_pos rfl, List.append_nil, hresults]

section

variable (created inProgress : Value) (items : List OutputItem)

/-- What a stream gives before its last value. -/
def told : List (Except Error GenerateEvent) :=
  (Machine.run resultsFromValue (.new .responses)
    (values 0 (Convert.prologue created inProgress ++ items.flatMap OutputItem.events))).2.flatten

theorem says_told {said : IrDelta → String} (h : Shows said) :
    String.join ((told created inProgress items).map (itemSays said)) =
      String.join (items.map (say said)) := by
  rw [told, says_run h rfl (inner_values created inProgress items 0), heard_stream h]

theorem marks_told (hplaced : ∀ k item, items[k]? = some item → OutputItem.outputIndex item = 0 + k) :
    (told created inProgress items).filterMap itemMark = items.flatMap itemReports := by
  obtain ⟨hknown, hnone⟩ := marksFrom_prologue created inProgress 0 fun _ => {}
  rw [told, marks_run (agree_new .responses) rfl (inner_values created inProgress items 0),
    values_append, marksFrom_append, hknown, hnone, List.nil_append]
  exact marksFrom_items hplaced (fun _ _ => rfl) _

theorem responsesEvent_of_bodies (status : String) (response : Value) :
    ∀ body ∈ Convert.prologue created inProgress ++ items.flatMap OutputItem.events ++
        [Convert.terminal status response],
      ∃ kind fields, body = Convert.responsesEvent kind fields := by
  intro body hbody
  simp only [Convert.prologue, List.mem_append, List.mem_cons, List.mem_flatMap, List.not_mem_nil,
    or_false] at hbody
  obtain ((rfl | rfl) | ⟨item, -, hmem⟩) | rfl := hbody
  · exact ⟨_, _, rfl⟩
  · exact ⟨_, _, rfl⟩
  · exact responsesEvent_of_events hmem
  · exact ⟨_, _, rfl⟩

end

/-- **The items of an emitter's stream**: what its output items tell, and one that ends the stream. -/
theorem itemsFrom_stream {fromStr : String → Option Value} {id model : String} {createdAt : Nat}
    {deltas : List IrDelta} (hread : ∀ e ∈ stream id model createdAt deltas, fromStr e.data = e.json) :
    ∃ created inProgress usage last final, ∃ emitter : ResponsesEmitter,
      itemsFrom fromStr (.new .responses) (framesOf (stream id model createdAt deltas)) =
        told created inProgress (Convert.Items.ofDeltas deltas).all ++ (usageResults usage ++ [last]) ∧
      Ends final last ∧
      (stream id model createdAt deltas).getLast?.bind SseEvent.json = some final ∧
      final.str "type" = some (ResponsesEmitter.terminalType (lastStatus deltas)) ∧
      final.get "response" = some (emitter.responseSnapshot (lastStatus deltas) true) ∧
      emitter.closed = (Convert.Items.ofDeltas deltas).all.map OutputItem.final := by
  obtain ⟨created, inProgress, emitter, hstream, hclosed⟩ :=
    stream_numbered id model createdAt deltas
  have hbodies := responsesEvent_of_bodies created inProgress (Convert.Items.ofDeltas deltas).all
    (lastStatus deltas) (emitter.responseSnapshot (lastStatus deltas) true)
  rw [hstream] at hread ⊢
  have hback := readBack_values hbodies 0 hread
  rw [framesOf_numbered hbodies]
  have hinner := inner_values created inProgress (Convert.Items.ofDeltas deltas).all 0
  rw [values_append, Convert.terminal, values_cons] at hback ⊢
  have htype := @type_valueOf (ResponsesEmitter.terminalType (lastStatus deltas))
    [("response", emitter.responseSnapshot (lastStatus deltas) true)] rfl
    (0 + (Convert.prologue created inProgress ++
      (Convert.Items.ofDeltas deltas).all.flatMap OutputItem.events).length)
  have hterminal := (isTerminalValue_iff _).mpr ⟨_, terminalType_mem (lastStatus deltas), htype⟩
  obtain ⟨usage, last, hends, hitems⟩ :=
    @itemsFrom_ended fromStr (.new .responses) rfl _ _ hinner hterminal hback
  refine ⟨created, inProgress, usage, last, _, emitter, hitems, hends, ?_, htype, ?_, hclosed⟩
  · rw [Convert.numbered_append, Convert.numbered, Convert.numbered, List.getLast?_concat]
    rfl
  · rw [get_valueOf]
    rfl

/-- The stream of texts has the text of the items. -/
theorem join_textOnly (items : List (Except Error GenerateEvent)) :
    String.join ((textOnly items).filterMap Except.toOption) =
      String.join (items.map (itemSays IrDelta.textOf)) := by
  induction items with
  | nil => rfl
  | cons item items ih =>
    rw [List.map_cons, String.join_cons, ← ih]
    cases item with
    | error e => exact String.empty_append.symm
    | ok event => cases event <;> simp [textOnly, itemSays, Except.toOption, IrDelta.textOf]

/-- What the items of a stream say and report is what the whole response shows. A failed response ends
in an error. A call whose id or name comes late is reported without it. -/
structure Agrees (fromStr : String → Option Value) (deltas : List IrDelta)
    (items : List (Except Error GenerateEvent)) (whole : GenerateResponse) : Prop where
  text : String.join ((textOnly items).filterMap Except.toOption) = whole.text
  reasoning : String.join (items.map (itemSays reasoningOf)) = whole.reasoning.getD ""
  said : whole.text = String.join (deltas.map IrDelta.textOf) ∧
    whole.reasoning.getD "" = String.join (deltas.map reasoningOf)
  completed : whole.status ≠ some "failed" →
    items.getLast? = some (.ok (.completed whole.finishReason))
  failed : whole.status = some "failed" → ∃ error, items.getLast? = some (.error error)
  uniform : ∀ mark ∈ items.filterMap itemMark, ∀ mark' ∈ items.filterMap itemMark,
    mark.index = mark'.index → mark.id = mark'.id ∧ mark.name = mark'.name
  calls : gathered fromStr (items.filterMap itemMark) = whole.toolCalls ↔
    ∀ item ∈ (Convert.Items.ofDeltas deltas).all, Announced item

/-- The item that ends the stream gives the finish reason of the response. -/
theorem ends_finishReason {final response : Value} {last : Except Error GenerateEvent} {status : String}
    (hends : Ends final last)
    (htype : final.str "type" = some (ResponsesEmitter.terminalType status))
    (hresponse : final.get "response" = some response)
    (hstatus : response.str "status" = some status) (fromStr : String → Option Value) :
    (status ≠ "failed" →
        last = .ok (.completed (finishReason response !(outputToolCalls fromStr response).isEmpty))) ∧
      (status = "failed" → ∃ error, last = .error error) := by
  have hfailure : (∃ kind ∈ failureKinds, final.str "type" = some kind) ↔ status = "failed" := by
    rw [← terminalType_failed_iff, htype]
    simp
  refine ⟨fun h => ?_, fun h => hends.failed (hfailure.mpr h)⟩
  rw [← responseHasToolCalls_eq]
  obtain ⟨reason, hreason⟩ := finishReason_of_status hstatus (responseHasToolCalls response)
  rw [hreason]
  exact hends.completed (fun kind hkind hsame => h (hfailure.mp ⟨kind, hkind, hsame⟩)) response reason
    hresponse hreason

/-- **The two ways of generating agree.** The items of an emitter's stream tell what the response shows
that the stream ends with. -/
theorem stream_agrees (fromStr : String → Option Value) (id model : String) (createdAt : Nat)
    (deltas : List IrDelta)
    (hread : ∀ e ∈ stream id model createdAt deltas, fromStr e.data = e.json) :
    ∃ items response,
      (∀ n, parseEvents fromStr (framesOf (stream id model createdAt deltas)) n = items.take n) ∧
      ((stream id model createdAt deltas).getLast?.bind SseEvent.json).bind
        (fun value => value.get "response") = some response ∧
      Agrees fromStr deltas items (GenerateResponse.fromRaw fromStr response) := by
  obtain ⟨created, inProgress, usage, last, final, emitter, hitems, hends, hlast, htype, hresponse,
    hclosed⟩ := itemsFrom_stream hread
  have hstatus := str_status_responseSnapshot emitter (lastStatus deltas)
  have htext := str_outputText_responseSnapshot emitter (lastStatus deltas)
  have houtput := ResponsesEmitter.get_output_responseSnapshot emitter (lastStatus deltas)
  rw [hclosed] at houtput
  generalize emitter.responseSnapshot (lastStatus deltas) true = response at *
  have hplaced : ∀ k item, (Convert.Items.ofDeltas deltas).all[k]? = some item →
      OutputItem.outputIndex item = 0 + k := fun k item hk =>
    (Convert.Items.placed_ofDeltas deltas k item hk).1.trans (Nat.zero_add k).symm
  have hmarks : (itemsFrom fromStr (.new .responses)
      (framesOf (stream id model createdAt deltas))).filterMap itemMark =
        (Convert.Items.ofDeltas deltas).all.flatMap itemReports := by
    rw [hitems, List.filterMap_append, marks_told created inProgress _ hplaced,
      (quiet_terminal hends.terminal IrDelta.textOf).2, List.append_nil]
  have htold : ∀ said, Shows said → String.join ((itemsFrom fromStr (.new .responses)
      (framesOf (stream id model createdAt deltas))).map (itemSays said)) =
        String.join ((Convert.Items.ofDeltas deltas).all.map (say said)) := by
    intro said hsaid
    rw [hitems, List.map_append, String.join_append, says_told created inProgress _ hsaid,
      (quiet_terminal hends.terminal said).1, String.append_empty]
  obtain ⟨hcompleted, hfailed⟩ := ends_finishReason hends htype hresponse hstatus fromStr
  have hending : (itemsFrom fromStr (.new .responses)
      (framesOf (stream id model createdAt deltas))).getLast? = some last := by
    rw [hitems, ← List.append_assoc, List.getLast?_concat]
  refine ⟨_, response, parseEvents_eq fromStr _, ?_, ?_⟩
  · rw [hlast]
    exact hresponse
  have hshown := outputText_final houtput htext
  have hreasoned := outputReasoning_final houtput
  refine
    { text := (join_textOnly _).trans ((htold _ shows_textOf).trans hshown.symm)
      reasoning := (htold _ shows_reasoningOf).trans hreasoned.symm
      said := ⟨hshown.trans (shows_textOf.say_ofDeltas deltas),
        hreasoned.trans (shows_reasoningOf.say_ofDeltas deltas)⟩
      completed := fun h => ?_
      failed := fun h => ?_
      uniform := ?_
      calls := ?_ }
  · rw [hending, hcompleted fun hsame => h (hstatus.trans (congrArg some hsame))]
    rfl
  · obtain ⟨error, rfl⟩ := hfailed (Option.some.inj (hstatus.symm.trans h))
    exact ⟨error, hending⟩
  · rw [hmarks]
    exact reports_uniform hplaced
  · rw [hmarks, gathered_reports fromStr hplaced]
    show _ = outputToolCalls fromStr response ↔ _
    rw [outputToolCalls_final houtput fromStr, calls_eq_iff]

/-- A reader of JSON that knows the events of a stream. -/
def readerOf (events : List SseEvent) (text : String) : Option Value :=
  (events.find? fun e => e.data = text).elim (JsonText.fromStr .verbatim text) SseEvent.json

/-- A call with its id and its name. -/
def announcedDeltas : List IrDelta :=
  [.text "Hi", .toolCall 0 (some "call_1") (some "search") "\x7b\x7d", .finish (some "tool_calls")]

theorem stream_agrees_announcedDeltas :
    ∃ items response,
      (∀ n, parseEvents (readerOf (stream "resp_1" "gpt" 0 announcedDeltas))
        (framesOf (stream "resp_1" "gpt" 0 announcedDeltas)) n = items.take n) ∧
      ((stream "resp_1" "gpt" 0 announcedDeltas).getLast?.bind SseEvent.json).bind
        (fun value => value.get "response") = some response ∧
      Agrees (readerOf (stream "resp_1" "gpt" 0 announcedDeltas)) announcedDeltas items
        (GenerateResponse.fromRaw (readerOf (stream "resp_1" "gpt" 0 announcedDeltas)) response) :=
  stream_agrees _ "resp_1" "gpt" 0 announcedDeltas (by decide +kernel)

end Tokn.Sdk
