import Tokn.Convert.EmissionDecoded
import Tokn.Convert.UsageFields

/-!
# From the Responses emitter to the accumulator

The stream that `ResponsesEmitter` produces for some deltas, accumulated again by `SseAccumulator`
for the Responses endpoint.

**Text and reasoning** (`Reads.read_accumulated`). Both come back for every list of deltas.

**Theorem (`comesBack_iff`).** The calls come back exactly when they are the first output items of the
stream, each shown with arguments and announced with its final id and name; the usage when one was
reported, with all three counts and no extra of a known name; the finish class when it is that of a
completed response.
-/

namespace Tokn.Convert.EmitterRoundTrip

open Value
open WireCalls (CallMark KnownItem observeItem responsesFragment accumulated)

/-! ## The round trip -/

/-- A new emitter after `emit`, with the events it pushed. -/
def emitted (id model : String) (createdAt : Nat) (deltas : List IrDelta) :
    ResponsesEmitter × List SseEvent :=
  (ResponsesEmitter.new id model createdAt).emit deltas

/-- The events of `emit` and then of `finish`. -/
def stream (id model : String) (createdAt : Nat) (deltas : List IrDelta) : List SseEvent :=
  (emitted id model createdAt deltas).2 ++ (emitted id model createdAt deltas).1.finish.2

/-- The arguments of a finished call: blank ones are the empty object. -/
def finalArguments (arguments : String) : String :=
  if Str.trim arguments = "" then "\x7b\x7d" else arguments

/-- An accumulated call as `(call_id, name, final arguments)`. -/
def recoveredCall (call : ToolCall) : Option FunctionCall :=
  call.id.map fun id => ⟨id, call.name, finalArguments (call.arguments.asStr.getD "")⟩

/-- The response has the content of the deltas, the calls of the stream, and the usage and the finish
class of the emitter. -/
structure Matches (resp : IrResponse) (emitter : ResponsesEmitter) (out : List SseEvent)
    (deltas : List IrDelta) : Prop where
  text : textFromParts resp.content = String.join (deltas.map IrDelta.textOf)
  reasoning : (reasoningFromParts resp.content).getD "" = String.join (deltas.map reasoningOf)
  calls : resp.toolCalls.map recoveredCall = (functionCalls out).map some
  usage : resp.usage = emitter.usage
  finish : responsesCompletionStatus resp.finishReason =
    responsesCompletionStatus emitter.finishReason

/-- The accumulated stream gives back what was emitted. -/
def Recovers (id model : String) (createdAt : Nat) (deltas : List IrDelta) : Prop :=
  ∃ resp, accumulateEvents .responses (stream id model createdAt deltas) = .ok resp ∧
    Matches resp (emitted id model createdAt deltas).1 (stream id model createdAt deltas) deltas

/-! ## What comes back -/

/-- A call that is shown with arguments, and was announced with the id and the name it ends with. -/
def Settled (item : OutputItem) : Prop :=
  ∃ chatIndex callId name, item.kind = .functionCall chatIndex callId name callId name ∧
    item.deltas ≠ []

/-- A usage that is read back as it was written. -/
structure Complete (usage : Usage) : Prop where
  inputTokens : usage.inputTokens.isSome
  outputTokens : usage.outputTokens.isSome
  totalTokens : usage.totalTokens.isSome
  sorted : BTreeMap.Sorted usage.extras
  extras : ∀ e ∈ usage.extras, e.1 ∉ openaiUsageKeys

/-- The usage after a delta. -/
def reportUsage (usage : Option Usage) : IrDelta → Option Usage
  | .usage update => some (mergeUsage usage update)
  | .text _ | .reasoning _ | .toolCall .. | .finish _ => usage

/-- The deltas that come back. -/
structure Recoverable (deltas : List IrDelta) : Prop where
  calls : ∀ k < ((Items.ofDeltas deltas).all.filterMap OutputItem.call).length,
    ∃ item, (Items.ofDeltas deltas).all[k]? = some item ∧ Settled item
  usage : ∃ usage, deltas.foldl reportUsage none = some usage ∧ Complete usage
  finish : (responsesCompletionStatus (deltas.foldl setReason none)).1 = "completed"

/-! ## The stream -/

/-- The response as the opening events show it. -/
def opening (id model : String) (createdAt : Nat) : Value :=
  (ResponsesEmitter.new id model createdAt).responseSnapshot "in_progress" false

theorem refines_new (id model : String) (createdAt : Nat) :
    (ResponsesEmitter.new id model createdAt).ensureStarted.1.Refines
      (ResponsesEmitter.new id model createdAt).ensureStarted.2
      (opening id model createdAt) (opening id model createdAt) {} :=
  ⟨rfl, rfl, rfl, rfl, rfl, rfl, rfl, rfl, rfl⟩

/-- The bodies of a stream that ends with a response. -/
def bodies (start : Value) (items : List OutputItem) (status : String) (response : Value) :
    List (Nat → SseEvent) :=
  prologue start start ++ items.flatMap OutputItem.events ++ [terminal status response]

/-- The emitter that writes the last event. -/
theorem stream_eq (id model : String) (createdAt : Nat) (deltas : List IrDelta) :
    ∃ last : ResponsesEmitter,
      stream id model createdAt deltas =
        numbered 0 (bodies (opening id model createdAt) (Items.ofDeltas deltas).all
          (responsesCompletionStatus (deltas.foldl setReason none)).1
          (last.responseSnapshot (responsesCompletionStatus (deltas.foldl setReason none)).1 true)) ∧
      last.usage = (emitted id model createdAt deltas).1.usage := by
  have hstart := refines_new id model createdAt
  have hreason : (emitted id model createdAt deltas).1.finishReason = deltas.foldl setReason none :=
    ResponsesEmitter.finishReason_emit _ deltas
  by_cases hd : deltas = []
  · subst hd
    obtain ⟨last, hout, -, -, husage⟩ := hstart.finish
    refine ⟨last, ?_, husage⟩
    exact (ResponsesEmitter.finish_eq_ensureStarted rfl hstart).trans hout
  · have hall := hstart.handleAll deltas
    have hemitted : emitted id model createdAt deltas =
        ResponsesEmitter.andThen (ResponsesEmitter.new id model createdAt).ensureStarted
          fun s => s.handleAll deltas := by
      rw [emitted, ResponsesEmitter.emit, if_neg hd]
    rw [ResponsesEmitter.andThen] at hemitted
    obtain ⟨last, hout, -, -, husage⟩ := hall.finish
    rw [hemitted] at hreason
    rw [hreason] at hout
    rw [stream, hemitted]
    exact ⟨last, hout, husage⟩

/-! ### The events -/

/-- The event body shows something of a response that is not complete. -/
def IsPart (body : Nat → SseEvent) : Prop := ∃ kind ≠ "response.completed", IsKind body kind

variable {item : OutputItem}

theorem isPart_of_mem_events {body : Nat → SseEvent} (h : body ∈ item.events) : IsPart body := by
  obtain ⟨before, hopening, hparts⟩ := kinds_opening item
  obtain ⟨after, hclosing, hclosed⟩ := kinds_closing item
  rw [OutputItem.events, OutputItem.openEvents, hopening, hclosing] at h
  simp only [List.mem_append, List.mem_cons, List.mem_map, List.not_mem_nil, or_false] at h
  obtain (⟨rfl | hbody⟩ | ⟨s, -, rfl⟩) | hbody | rfl := h
  · exact ⟨"response.output_item.added", by decide, _, rfl, rfl, rfl⟩
  · exact ⟨_, by decide, hparts body hbody⟩
  · obtain ⟨kind, outputIndex, itemId, deltas⟩ := item
    cases kind with
    | message => exact ⟨"response.output_text.delta", by decide, _, rfl, rfl, rfl⟩
    | reasoning => exact ⟨"response.reasoning_text.delta", by decide, _, rfl, rfl, rfl⟩
    | functionCall =>
      exact ⟨"response.function_call_arguments.delta", by decide, _, rfl, rfl, rfl⟩
  · obtain ⟨kind, hmem, hkind⟩ := hclosed body hbody
    refine ⟨kind, ?_, hkind⟩
    rintro rfl
    exact absurd hmem (by decide)
  · exact ⟨"response.output_item.done", by decide, _, rfl, rfl, rfl⟩

/-- Every event of the stream is an object. -/
theorem numbered_eq_jsonEvents {bs : List (Nat → SseEvent)}
    (h : ∀ body ∈ bs, ∃ kind fields, body = responsesEvent kind fields) (n : Nat) :
    ∃ os : List (Option String × List (String × Value)),
      numbered n bs = os.map EndpointTranslator.jsonEvent := by
  induction bs generalizing n with
  | nil => exact ⟨[], rfl⟩
  | cons body bs ih =>
    obtain ⟨kind, fields, rfl⟩ := h _ List.mem_cons_self
    obtain ⟨os, hos⟩ := ih (fun body hbody => h body (List.mem_cons_of_mem _ hbody)) (n + 1)
    refine ⟨(some kind, [("type", .string kind), ("sequence_number", nat n)] ++ fields) :: os, ?_⟩
    rw [numbered, hos]
    rfl

theorem accumulateEvents_numbered {bs : List (Nat → SseEvent)}
    (h : ∀ body ∈ bs, ∃ kind fields, body = responsesEvent kind fields) :
    accumulateEvents .responses (numbered 0 bs) =
      .ok (accumulated .responses (values 0 bs)) := by
  obtain ⟨os, hos⟩ := numbered_eq_jsonEvents h 0
  have hvalues : values 0 bs = os.map fun o => obj o.2 := by
    rw [values, hos, List.filterMap_map]
    exact congrFun List.filterMap_eq_map os
  rw [hos, accumulateEvents, accumulateFrom_eq, refused_jsonEvents,
    EndpointTranslator.upstreamValues_jsonEvents, hvalues]
  rfl

/-- **The accumulated stream.** -/
theorem accumulateEvents_stream (id model : String) (createdAt : Nat) (deltas : List IrDelta) :
    ∃ last : ResponsesEmitter,
      accumulateEvents .responses (stream id model createdAt deltas) =
        .ok (accumulated .responses (values 0 (bodies (opening id model createdAt)
          (Items.ofDeltas deltas).all
          (responsesCompletionStatus (deltas.foldl setReason none)).1
          (last.responseSnapshot (responsesCompletionStatus (deltas.foldl setReason none)).1
            true)))) ∧
      last.usage = (emitted id model createdAt deltas).1.usage := by
  obtain ⟨last, hstream, husage⟩ := stream_eq id model createdAt deltas
  refine ⟨last, ?_, husage⟩
  rw [hstream]
  refine accumulateEvents_numbered fun body hbody => ?_
  rw [bodies, prologue] at hbody
  simp only [List.mem_append, List.mem_cons, List.mem_flatMap, List.not_mem_nil, or_false] at hbody
  obtain ((rfl | rfl) | ⟨item, -, hmem⟩) | rfl := hbody
  · exact ⟨_, _, rfl⟩
  · exact ⟨_, _, rfl⟩
  · obtain ⟨kind, -, fields, rfl, -⟩ := isPart_of_mem_events hmem
    exact ⟨kind, fields, rfl⟩
  · exact ⟨_, _, rfl⟩

/-! ## Text and reasoning -/

/-- A reading of content that adds what the deltas say. -/
structure Reads (read : List ContentPart → String) (said : IrDelta → String) : Prop
    extends Shows said where
  nil : read [] = ""
  pushText : ∀ parts s, read (pushTextPart parts s) = read parts ++ said (.text s)
  pushReasoning : ∀ parts s, read (pushReasoningPart parts s) = read parts ++ said (.reasoning s)

/-- Reasoning, or nothing. -/
def reasoningText (parts : List ContentPart) : String := (reasoningFromParts parts).getD ""

theorem reasoningText_eq (parts : List ContentPart) :
    reasoningText parts = String.join (parts.filterMap fun
      | .reasoning s => some s
      | _ => none) := by
  rw [reasoningText, reasoningFromParts]
  split_ifs with h
  · exact h.symm
  · rfl

theorem eq_dropLast_of_getLast? {α : Type*} {xs : List α} {x : α} (h : xs.getLast? = some x) :
    xs = xs.dropLast ++ [x] := by
  obtain ⟨ys, rfl⟩ := List.getLast?_eq_some_iff.mp h
  rw [List.dropLast_concat]

theorem reads_text : Reads textFromParts IrDelta.textOf where
  toShows := shows_textOf
  nil := rfl
  pushText parts s := by
    rw [pushTextPart]
    split_ifs with hs
    · rw [hs, textOf_text, String.append_empty]
    · split
      · next existing hlast =>
        conv_rhs => rw [eq_dropLast_of_getLast? hlast]
        simp [textFromParts, String.append_assoc]
      · simp [textFromParts]
  pushReasoning parts s := by
    rw [pushReasoningPart]
    split_ifs with hs
    · exact String.append_empty.symm
    · split
      · next existing hlast =>
        conv_rhs => rw [eq_dropLast_of_getLast? hlast]
        simp [textFromParts]
      · simp [textFromParts]

theorem reads_reasoning : Reads reasoningText reasoningOf where
  toShows := shows_reasoningOf
  nil := rfl
  pushText parts s := by
    rw [pushTextPart]
    split_ifs with hs
    · exact String.append_empty.symm
    · split
      · next existing hlast =>
        conv_rhs => rw [eq_dropLast_of_getLast? hlast]
        simp [reasoningText_eq, reasoningOf]
      · simp [reasoningText_eq, reasoningOf]
  pushReasoning parts s := by
    rw [pushReasoningPart]
    split_ifs with hs
    · rw [hs]
      exact String.append_empty.symm
    · split
      · next existing hlast =>
        conv_rhs => rw [eq_dropLast_of_getLast? hlast]
        simp [reasoningText_eq, reasoningOf, String.append_assoc]
      · simp [reasoningText_eq, reasoningOf]

/-- The kinds of the events that end a response which is not complete. -/
def incompleteKinds : List String :=
  ["response.incomplete", "response.failed", "response.cancelled"]

theorem terminalType_cases (status : String) :
    ResponsesEmitter.terminalType status = "response.completed" ∨
      ResponsesEmitter.terminalType status ∈ incompleteKinds := by
  unfold ResponsesEmitter.terminalType
  split <;> decide

theorem incompleteKinds_not_spoken : ∀ kind ∈ incompleteKinds, kind ∉ spoken := by decide

theorem incompleteKinds_not_telling : ∀ kind ∈ incompleteKinds, kind ∉ telling := by decide

section

variable {read : List ContentPart → String} {said : IrDelta → String}

theorem Reads.read_pushDelta (h : Reads read said) (resp : IrResponse) (delta : IrDelta) :
    read (resp.pushDelta delta).content = read resp.content ++ said delta := by
  cases delta with
  | text s => exact h.pushText ..
  | reasoning s => exact h.pushReasoning ..
  | toolCall index id name argumentsDelta =>
    rw [h.call, String.append_empty]
    rfl
  | usage u =>
    rw [h.usage, String.append_empty]
    rfl
  | finish reason =>
    rw [h.finish, String.append_empty]
    rfl

theorem Reads.read_foldl_pushDelta (h : Reads read said) (resp : IrResponse)
    (deltas : List IrDelta) :
    read (deltas.foldl IrResponse.pushDelta resp).content =
      read resp.content ++ String.join (deltas.map said) := by
  induction deltas generalizing resp with
  | nil => exact String.append_empty.symm
  | cons delta deltas ih =>
    rw [List.foldl_cons, ih, h.read_pushDelta, List.map_cons, String.join_cons, String.append_assoc]

theorem content_observeResponsesResponse (acc : SseAccumulator) (value : Value) :
    (acc.observeResponsesResponse value).response.content = acc.response.content := by
  rw [SseAccumulator.observeResponsesResponse]
  split
  · rfl
  · dsimp only
    split <;> rfl

variable {acc : SseAccumulator}

/-- Decoding an event leaves the content to its deltas. -/
theorem content_decode (hacc : acc.endpoint = .responses) (value : Value) :
    (acc.decode value).1.response.content = acc.response.content := by
  simp only [SseAccumulator.decode, hacc, SseAccumulator.deltaFromResponsesEvent,
    SseAccumulator.response_observeResponsesDeltas, SseAccumulator.response_observeResponsesPart,
    SseAccumulator.response_observeResponsesOutputItem, content_observeResponsesResponse]

theorem Shows.said_fillToolCall (h : Shows said) (items : BTreeMap Nat ResponseOutputItem)
    (delta : IrDelta) : said (SseAccumulator.fillToolCall items delta) = said delta := by
  cases delta with
  | toolCall index id name argumentsDelta =>
    rw [SseAccumulator.fillToolCall]
    split
    · rw [h.call, h.call]
    · rfl
  | _ => rfl

theorem Shows.said_fillFinish (h : Shows said) (reason : String) (delta : IrDelta) :
    said (SseAccumulator.fillFinish reason delta) = said delta := by
  cases delta with
  | finish reason' => rw [SseAccumulator.fillFinish, h.finish, h.finish]
  | _ => rfl

/-- What an event says is not changed by what the accumulator fills in. -/
theorem Shows.said_decode (h : Shows said) (hacc : acc.endpoint = .responses) (value : Value) :
    String.join ((acc.decode value).2.map said) = heard said value := by
  simp only [SseAccumulator.decode, hacc, SseAccumulator.deltaFromResponsesEvent, List.map_map,
    Function.comp_def, h.said_fillToolCall]
  split_ifs
  · simp only [List.map_map, Function.comp_def, h.said_fillFinish]
    rfl
  · rfl

theorem Reads.read_pushValues (h : Reads read said) (hacc : acc.endpoint = .responses)
    (vs : List Value) :
    read (acc.pushValues vs).response.content =
      read acc.response.content ++ String.join (vs.map (heard said)) := by
  induction vs generalizing acc with
  | nil => exact String.append_empty.symm
  | cons v vs ih =>
    have hnext := @ih (acc.pushValue v).1 ((acc.endpoint_pushValue v).trans hacc)
    have hstep : read (acc.pushValue v).1.response.content =
        read acc.response.content ++ heard said v := by
      rw [← content_decode hacc v, ← h.said_decode hacc v]
      exact h.read_foldl_pushDelta _ _
    rw [hstep] at hnext
    rw [List.map_cons, String.join_cons, ← String.append_assoc]
    exact hnext

/-- The deltas of a completed response. -/
theorem deltas_completed (response : Value) (n : Nat) :
    Responses.deltaFromResponsesEvent
        (valueOf "response.completed" [("response", response)] n) =
      ((usageFromOpenai response).map IrDelta.usage).toList ++
        [.finish (some (Responses.completedFinishReason response))] := by
  have hget : (valueOf "response.completed" [("response", response)] n).get "response" =
      some response := by
    rw [get_valueOf]
    rfl
  rw [Responses.deltaFromResponsesEvent, type_valueOf rfl, hget]
  simp

theorem heard_singleton (kind : String) (fields : List (String × Value)) (n : Nat) :
    hear said n [responsesEvent kind fields] = heard said (valueOf kind fields n) := by
  rw [hear, values_cons, List.map_cons, String.join_cons]
  exact String.append_empty

/-- A terminal event says nothing. -/
theorem Shows.hear_terminal (h : Shows said) (status : String) (response : Value) (n : Nat) :
    hear said n [terminal status response] = "" := by
  rw [terminal, heard_singleton]
  rcases terminalType_cases status with hkind | hkind
  · rw [hkind, heard, deltas_completed, List.map_append, String.join_append, List.map_singleton,
      h.finish]
    cases usageFromOpenai response with
    | none => rfl
    | some u => exact congrArg (fun s => String.join [s] ++ String.join [""]) (h.usage u)
  · exact heard_of_kind n rfl fun hmem => incompleteKinds_not_spoken _ hkind hmem

theorem hear_prologue (start : Value) (n : Nat) : hear said n (prologue start start) = "" := by
  rw [prologue, ← List.singleton_append, hear_append, heard_singleton, heard_singleton,
    heard_of_kind _ rfl (by decide), heard_of_kind _ rfl (by decide), String.append_empty]

/-- **Text and reasoning come back.** -/
theorem Reads.read_accumulated (h : Reads read said) (start response : Value) (status : String)
    (deltas : List IrDelta) :
    read (accumulated .responses
      (values 0 (bodies start (Items.ofDeltas deltas).all status response))).content =
        String.join (deltas.map said) := by
  have hnew : (SseAccumulator.new .responses).endpoint = .responses := rfl
  have hread := h.read_pushValues hnew
    (values 0 (bodies start (Items.ofDeltas deltas).all status response))
  rw [← h.toShows.say_ofDeltas deltas]
  have hheard : hear said 0 (bodies start (Items.ofDeltas deltas).all status response) =
      sayAll said (Items.ofDeltas deltas) := by
    rw [bodies, hear_append, hear_append, hear_prologue, h.hear_items, h.hear_terminal,
      String.empty_append, String.append_empty]
    rfl
  refine hread.trans ?_
  show read [] ++ hear said 0 _ = _
  rw [h.nil, String.empty_append, hheard]

end

/-! ## Calls -/

/-- An event that shows a response tells nothing about calls. -/
theorem silent_response {kind : String} (hkind : kind ∉ telling) (response : Value) (n : Nat)
    (known : Nat → KnownItem) :
    (values n [responsesEvent kind [("response", response)]]).foldl observeItem known = known ∧
      fragmentsFrom known (values n [responsesEvent kind [("response", response)]]) = [] := by
  obtain ⟨hobserve, hfragment⟩ :=
    @silent_of_kind kind [("response", response)] n rfl hkind known
  rw [values_cons, List.foldl_cons, fragmentsFrom, hobserve, hfragment]
  exact ⟨rfl, rfl⟩

theorem silent_prologue (start : Value) (n : Nat) (known : Nat → KnownItem) :
    (values n (prologue start start)).foldl observeItem known = known ∧
      fragmentsFrom known (values n (prologue start start)) = [] := by
  obtain ⟨hcreated, hnone⟩ := @silent_response "response.created" (by decide) start n known
  obtain ⟨hopened, hnone'⟩ :=
    @silent_response "response.in_progress" (by decide) start (n + 1) known
  rw [prologue, ← List.singleton_append, values_append, List.foldl_append, fragmentsFrom_append,
    hcreated, hnone]
  exact ⟨hopened, hnone'⟩

theorem silent_terminal (status : String) (response : Value) (n : Nat) (known : Nat → KnownItem) :
    fragmentsFrom known (values n [terminal status response]) = [] := by
  refine (silent_response ?_ response n known).2
  rcases terminalType_cases status with hkind | hkind
  · rw [hkind]
    decide
  · exact incompleteKinds_not_telling _ hkind

/-- The fragments of a stream are those of its items. -/
theorem fragments_accumulated (start response : Value) (status : String) {items : List OutputItem}
    (hplaced : ∀ k item, items[k]? = some item → OutputItem.outputIndex item = k) :
    WireCalls.fragments (WireCalls.marks .responses
      (values 0 (bodies start items status response))) = items.flatMap itemFragments := by
  rw [WireCalls.marks, fragments_run, bodies, values_append, fragmentsFrom_append, values_append,
    fragmentsFrom_append, silent_terminal, List.append_nil, (silent_prologue start 0 _).1,
    (silent_prologue start 0 _).2, List.nil_append]
  refine @fragmentsFrom_items items 0 _ (fun k item hk => ?_) (fun _ _ => rfl) _
  rw [hplaced k item hk, Nat.zero_add]

theorem index_of_mem_itemFragments {mark : CallMark} (h : mark ∈ itemFragments item) :
    mark.index = item.outputIndex := by
  rw [itemFragments] at h
  split at h
  · obtain ⟨s, -, rfl⟩ := List.mem_map.mp h
    rfl
  · cases h

theorem ofCall_itemFragments (item : OutputItem) :
    WireCalls.ofCall (itemFragments item) item.outputIndex = itemFragments item :=
  List.filter_eq_self.mpr fun _ hmark => decide_eq_true (index_of_mem_itemFragments hmark)

theorem ofCall_eq_nil_of_ne {marks : List CallMark} {n : Nat} (h : ∀ mark ∈ marks, mark.index ≠ n) :
    WireCalls.ofCall marks n = [] :=
  List.filter_eq_nil_iff.mpr fun mark hmark => by simpa using h mark hmark

/-- The fragments of an index are those of the item at this place. -/
theorem ofCall_items {items : List OutputItem} {first : Nat}
    (hplaced : ∀ k item, items[k]? = some item → item.outputIndex = first + k) (k : Nat) :
    WireCalls.ofCall (items.flatMap itemFragments) (first + k) =
      (items[k]?.map itemFragments).getD [] := by
  induction items generalizing first k with
  | nil => rfl
  | cons item items ih =>
    have hfirst : item.outputIndex = first := hplaced 0 item rfl
    have hrest : ∀ k item', items[k]? = some item' → item'.outputIndex = first + 1 + k := by
      intro k item' hk
      rw [hplaced (k + 1) item' hk]
      omega
    rw [List.flatMap_cons, WireCalls.ofCall, List.filter_append, ← WireCalls.ofCall,
      ← WireCalls.ofCall]
    cases k with
    | zero =>
      have hlater : WireCalls.ofCall (items.flatMap itemFragments) (first + 0) = [] := by
        refine ofCall_eq_nil_of_ne fun mark hmark => ?_
        obtain ⟨item', hmem, hfragment⟩ := List.mem_flatMap.mp hmark
        obtain ⟨k, hk⟩ := List.mem_iff_getElem?.mp hmem
        rw [index_of_mem_itemFragments hfragment, hrest k item' hk]
        omega
      rw [hlater, List.append_nil, Nat.add_zero, ← hfirst, ofCall_itemFragments]
      rfl
    | succ k =>
      have hearlier : WireCalls.ofCall (itemFragments item) (first + (k + 1)) = [] := by
        refine ofCall_eq_nil_of_ne fun mark hmark => ?_
        rw [index_of_mem_itemFragments hmark, hfirst]
        omega
      rw [hearlier, List.nil_append, show first + (k + 1) = first + 1 + k by omega, ih hrest k]
      rfl

/-- What the fragments of an item show. -/
def shownCall (item : OutputItem) : ToolCall :=
  (itemFragments item).foldl WireCalls.extend default

/-- The call that is recovered at the place of an item. -/
def recovered (item : OutputItem) : Option FunctionCall := recoveredCall (shownCall item)

/-- A call with arguments is shown with the id and the name it was announced with. -/
theorem foldl_extend (index : Nat) (callId name : String) (call : ToolCall) (deltas : List String)
    (hdeltas : deltas ≠ []) :
    (deltas.map fun s => (⟨index, some callId, some name, some s⟩ : CallMark)).foldl
        WireCalls.extend call =
      ⟨some callId, name, .string (call.arguments.asStr.getD "" ++ String.join deltas)⟩ := by
  induction deltas generalizing call with
  | nil => exact absurd rfl hdeltas
  | cons s deltas ih =>
    rw [List.map_cons, List.foldl_cons, String.join_cons]
    by_cases hlast : deltas = []
    · subst hlast
      rw [String.join_nil, String.append_empty]
      rfl
    · rw [ih _ hlast, ← String.append_assoc]
      rfl

theorem recovered_eq (item : OutputItem) :
    recovered item =
      match item.kind with
      | .functionCall _ callId name _ _ =>
        if item.deltas = [] then none else some ⟨callId, name, item.arguments⟩
      | _ => none := by
  obtain ⟨kind, outputIndex, itemId, deltas⟩ := item
  cases kind with
  | message => rfl
  | reasoning => rfl
  | functionCall chatIndex callId name finalId finalName =>
    by_cases hdeltas : deltas = []
    · subst hdeltas
      rfl
    · refine Eq.trans ?_ (if_neg hdeltas).symm
      show recoveredCall ((deltas.map _).foldl _ _) = _
      rw [foldl_extend _ _ _ _ _ hdeltas]
      show some (FunctionCall.mk callId name (finalArguments ("" ++ String.join deltas))) = _
      rw [String.empty_append]
      rfl

/-- An item is settled when the call recovered at its place is the call it ends with. -/
theorem settled_iff (item : OutputItem) :
    Settled item ↔ ∃ call, item.call = some call ∧ recovered item = some call := by
  rw [recovered_eq]
  obtain ⟨kind, outputIndex, itemId, deltas⟩ := item
  cases kind with
  | message => simp [Settled, OutputItem.call]
  | reasoning => simp [Settled, OutputItem.call]
  | functionCall chatIndex callId name finalId finalName =>
    simp only [Settled, OutputItem.call, ItemKind.functionCall.injEq]
    constructor
    · rintro ⟨_, _, _, ⟨-, rfl, rfl, rfl, rfl⟩, hdeltas⟩
      exact ⟨_, rfl, if_neg hdeltas⟩
    · rintro ⟨call, hcall, hrecovered⟩
      obtain rfl := Option.some.inj hcall
      split_ifs at hrecovered with hdeltas
      obtain ⟨rfl, rfl, -⟩ := FunctionCall.mk.inj (Option.some.inj hrecovered)
      exact ⟨_, _, _, ⟨rfl, rfl, rfl, rfl, rfl⟩, hdeltas⟩

theorem isSome_call_of_recovered (h : (recovered item).isSome) : item.call.isSome := by
  rw [recovered_eq] at h
  obtain ⟨kind, outputIndex, itemId, deltas⟩ := item
  cases kind with
  | message => cases h
  | reasoning => cases h
  | functionCall => rfl

theorem isSome_recovered (h : itemFragments item ≠ []) : (recovered item).isSome := by
  rw [recovered_eq]
  obtain ⟨kind, outputIndex, itemId, deltas⟩ := item
  cases kind with
  | message => exact absurd rfl h
  | reasoning => exact absurd rfl h
  | functionCall =>
    have hdeltas : deltas ≠ [] := by
      rintro rfl
      exact h rfl
    exact congrArg Option.isSome (if_neg hdeltas)

/-! ### The elements of a list that come first -/

section

variable {α β : Type*} {f g : α → Option β} {xs : List α}

/-- Where the first elements all have a value, the values stand at the same places. -/
theorem getElem?_filterMap {n : Nat} (h : ∀ k ≤ n, ∃ x, xs[k]? = some x ∧ (f x).isSome) :
    (xs.filterMap f)[n]? = xs[n]?.bind f := by
  induction xs generalizing n with
  | nil => rfl
  | cons x xs ih =>
    obtain ⟨x', hx, hsome⟩ := h 0 (Nat.zero_le n)
    obtain rfl := Option.some.inj hx
    obtain ⟨c, hc⟩ := Option.isSome_iff_exists.mp hsome
    rw [List.filterMap_cons_some hc]
    cases n with
    | zero => exact hc.symm
    | succ n => exact ih fun k hk => h (k + 1) (Nat.succ_le_succ hk)

/-- Where there are no more values than that, no other element has one. -/
theorem eq_none_of_length_le {k n : Nat}
    (h : ∀ k < n, ∃ x, xs[k]? = some x ∧ (f x).isSome) (hn : (xs.filterMap f).length ≤ n)
    (hk : n ≤ k) : xs[k]?.bind f = none := by
  induction xs generalizing k n with
  | nil => rfl
  | cons x xs ih =>
    cases n with
    | zero =>
      have hnil : (x :: xs).filterMap f = [] := List.eq_nil_of_length_eq_zero (Nat.le_zero.mp hn)
      cases hx : (x :: xs)[k]? with
      | none => rfl
      | some y => exact List.filterMap_eq_nil_iff.mp hnil y (List.mem_of_getElem? hx)
    | succ n =>
      obtain ⟨x', hx, hsome⟩ := h 0 (Nat.succ_pos n)
      obtain rfl := Option.some.inj hx
      obtain ⟨c, hc⟩ := Option.isSome_iff_exists.mp hsome
      rw [List.filterMap_cons_some hc, List.length_cons] at hn
      obtain ⟨k, rfl⟩ : ∃ k', k = k' + 1 := ⟨k - 1, by omega⟩
      exact ih (fun k hk => h (k + 1) (Nat.succ_lt_succ hk)) (Nat.le_of_succ_le_succ hn)
        (Nat.le_of_succ_le_succ hk)

/-- A vector of readings `g`, as long as the last of them needs, is the list of the values `f` when
the elements with a value come first and are all read as their values. -/
theorem map_range_eq_iff {b : Nat} (hgf : ∀ x, (g x).isSome → (f x).isSome)
    (hpast : ∀ k, b ≤ k → xs[k]?.bind g = none)
    (hleast : ∀ n, (∀ k, n ≤ k → xs[k]?.bind g = none) → b ≤ n) :
    (List.range b).map (fun k => xs[k]?.bind g) = (xs.filterMap f).map some ↔
      ∀ k < (xs.filterMap f).length, ∃ x, xs[k]? = some x ∧ ∃ c, f x = some c ∧ g x = some c := by
  constructor
  · intro h
    have hlength : b = (xs.filterMap f).length := by simpa using congrArg List.length h
    have hread : ∀ k, ∀ hk : k < (xs.filterMap f).length,
        xs[k]?.bind g = some (xs.filterMap f)[k] := by
      intro k hk
      have hget := congrArg (fun ys => ys[k]?) h
      simpa [hlength, hk] using hget
    have hfirst : ∀ k < (xs.filterMap f).length, ∃ x, xs[k]? = some x ∧ (f x).isSome := by
      intro k hk
      obtain ⟨x, hx, hg⟩ := Option.bind_eq_some_iff.mp (hread k hk)
      exact ⟨x, hx, hgf x (Option.isSome_of_eq_some hg)⟩
    intro k hk
    obtain ⟨x, hx, hg⟩ := Option.bind_eq_some_iff.mp (hread k hk)
    refine ⟨x, hx, _, ?_, hg⟩
    have hplace := getElem?_filterMap fun j hj => hfirst j (lt_of_le_of_lt hj hk)
    rw [hx, List.getElem?_eq_getElem hk] at hplace
    exact hplace.symm
  · intro h
    have hfirst : ∀ k < (xs.filterMap f).length, ∃ x, xs[k]? = some x ∧ (f x).isSome := by
      intro k hk
      obtain ⟨x, hx, c, hc, -⟩ := h k hk
      exact ⟨x, hx, Option.isSome_of_eq_some hc⟩
    have hle : b ≤ (xs.filterMap f).length := by
      refine hleast _ fun k hk => ?_
      have hnone := eq_none_of_length_le hfirst le_rfl hk
      cases hx : xs[k]? with
      | none => rfl
      | some x =>
        rw [hx] at hnone
        cases hg : g x with
        | none => exact hg
        | some c =>
          have hsome := hgf x (Option.isSome_of_eq_some hg)
          rw [show f x = none from hnone] at hsome
          cases hsome
    have hge : (xs.filterMap f).length ≤ b := by
      by_contra hlt
      obtain ⟨x, hx, c, -, hg⟩ := h b (not_le.mp hlt)
      have hnone := hpast b le_rfl
      rw [hx] at hnone
      exact absurd (hnone.symm.trans hg) nofun
    refine List.ext_getElem (by simp [le_antisymm hle hge]) fun k hk hk' => ?_
    rw [List.length_map] at hk'
    obtain ⟨x, hx, c, hc, hg⟩ := h k hk'
    have hplace := getElem?_filterMap fun j hj => hfirst j (lt_of_le_of_lt hj hk')
    rw [hx, List.getElem?_eq_getElem hk'] at hplace
    rw [List.getElem_map, List.getElem_map, List.getElem_range, hx, hplace]
    exact hg.trans hc.symm

end

/-- **The calls.** They come back when the first items of the stream are its calls, all settled. -/
theorem calls_iff (start response : Value) (status : String) {items : List OutputItem}
    (hplaced : ∀ k item, items[k]? = some item → OutputItem.outputIndex item = k) :
    (accumulated .responses (values 0 (bodies start items status response))).toolCalls.map
        recoveredCall = (items.filterMap OutputItem.call).map some ↔
      ∀ k < (items.filterMap OutputItem.call).length,
        ∃ item, items[k]? = some item ∧ Settled item := by
  have hofCall : ∀ k, WireCalls.ofCall (items.flatMap itemFragments) k =
      (items[k]?.map itemFragments).getD [] := by
    intro k
    have h := @ofCall_items items 0
      (fun k item hk => by rw [hplaced k item hk, Nat.zero_add]) k
    rwa [Nat.zero_add] at h
  have hshown : ∀ k, recoveredCall ((WireCalls.ofCall (items.flatMap itemFragments) k).foldl
      WireCalls.extend default) = items[k]?.bind recovered := by
    intro k
    rw [hofCall]
    cases items[k]? <;> rfl
  have hfragments := fragments_accumulated start response status hplaced
  simp only [settled_iff]
  rw [WireCalls.toolCalls_accumulated, hfragments, List.map_map]
  have hcalls : (recoveredCall ∘ WireCalls.shown (WireCalls.marks .responses
      (values 0 (bodies start items status response)))) = fun k => items[k]?.bind recovered := by
    funext k
    rw [Function.comp_apply, WireCalls.shown, hfragments, hshown]
  rw [hcalls]
  refine map_range_eq_iff (fun _ => isSome_call_of_recovered) (fun k hk => ?_) (fun n hn => ?_)
  · rw [← hshown, WireCalls.ofCall_eq_nil hk]
    rfl
  · refine WireCalls.bound_le fun mark hmark => ?_
    obtain ⟨item, hmem, hfragment⟩ := List.mem_flatMap.mp hmark
    obtain ⟨k, hk⟩ := List.mem_iff_getElem?.mp hmem
    by_contra hle
    have hnone := hn k (by rw [← hplaced k item hk, ← index_of_mem_itemFragments hfragment]; omega)
    have hsome := isSome_recovered (List.ne_nil_of_mem hfragment)
    rw [hk] at hnone
    rw [show recovered item = none from hnone] at hsome
    cases hsome

/-! ## Usage -/

/-- A usage is read back as it was written exactly when it is complete. -/
theorem readUsage_usageToIo_iff (u : Usage) : readUsage (usageToIo u) = u ↔ Complete u := by
  constructor
  · intro h
    have hsorted : BTreeMap.Sorted (readUsage (usageToIo u)).extras := sorted_extras_written u
    have hextras : ∀ e ∈ (readUsage (usageToIo u)).extras, e.1 ∉ openaiUsageKeys :=
      extras_written_known u
    rw [h] at hsorted hextras
    have hcounts : readUsage (usageToIo u) = u.filled := readUsage_written .io hsorted hextras
    rw [h] at hcounts
    exact ⟨Option.isSome_of_eq_some (congrArg Usage.inputTokens hcounts),
      Option.isSome_of_eq_some (congrArg Usage.outputTokens hcounts),
      Option.isSome_of_eq_some (congrArg Usage.totalTokens hcounts), hsorted, hextras⟩
  · intro h
    obtain ⟨input, hinput⟩ := Option.isSome_iff_exists.mp h.inputTokens
    obtain ⟨output, houtput⟩ := Option.isSome_iff_exists.mp h.outputTokens
    obtain ⟨total, htotal⟩ := Option.isSome_iff_exists.mp h.totalTokens
    rw [usageToIo, readUsage_written .io h.sorted h.extras]
    obtain ⟨⟩ := u
    simp_all [Usage.filled]

/-- The usage as the terminal event shows it, read back. -/
def shownUsage (usage : Option Usage) : Usage := readUsage ((usage.map usageToIo).getD .null)

variable (usage : Option Usage)

theorem sorted_extras_shownUsage : BTreeMap.Sorted (shownUsage usage).extras := by
  cases usage with
  | none => exact BTreeMap.sorted_nil
  | some u => exact sorted_extras_written u

theorem merge_default {u : Usage} (h : BTreeMap.Sorted u.extras) : Usage.merge {} u = u := by
  obtain ⟨input, output, total, inputDetails, outputDetails, extras⟩ := u
  simp [Usage.merge, BTreeMap.extend_nil_of_sorted h]

theorem merge_self {u : Usage} (h : BTreeMap.Sorted u.extras) : u.merge u = u := by
  have hextras : u.extras.extend u.extras = u.extras := by
    refine (h.extend _).ext h fun k => ?_
    rw [BTreeMap.get_extend_of_sorted _ h]
    cases u.extras.get k <;> rfl
  obtain ⟨input, output, total, inputDetails, outputDetails, extras⟩ := u
  rw [Usage.merge, hextras]
  cases input <;> cases output <;> cases total <;> cases inputDetails <;> cases outputDetails <;> rfl

theorem usage_foldl_pushDelta (resp : IrResponse) (deltas : List IrDelta) :
    (deltas.foldl IrResponse.pushDelta resp).usage = deltas.foldl reportUsage resp.usage := by
  induction deltas generalizing resp with
  | nil => rfl
  | cons delta deltas ih =>
    rw [List.foldl_cons, List.foldl_cons, ih]
    cases delta <;> rfl

/-- The usage after an event: first that of the response it shows, and then that of its deltas. -/
def hearUsage (usage : Option Usage) (value : Value) : Option Usage :=
  (Responses.deltaFromResponsesEvent value).foldl reportUsage
    (match (value.get "response").bind usageFromOpenai with
      | some update => some (mergeUsage usage update)
      | none => usage)

theorem reportUsage_fillToolCall (items : BTreeMap Nat ResponseOutputItem) (delta : IrDelta) :
    reportUsage usage (SseAccumulator.fillToolCall items delta) = reportUsage usage delta := by
  cases delta with
  | toolCall index id name argumentsDelta =>
    rw [SseAccumulator.fillToolCall]
    split <;> rfl
  | _ => rfl

theorem reportUsage_fillFinish (reason : String) (delta : IrDelta) :
    reportUsage usage (SseAccumulator.fillFinish reason delta) = reportUsage usage delta := by
  cases delta <;> rfl

theorem usage_observeResponsesResponse (acc : SseAccumulator) (value : Value) :
    (acc.observeResponsesResponse value).response.usage =
      match (value.get "response").bind usageFromOpenai with
      | some update => some (mergeUsage acc.response.usage update)
      | none => acc.response.usage := by
  rw [SseAccumulator.observeResponsesResponse]
  cases value.get "response" with
  | none => rfl
  | some response =>
    rw [Option.bind_some]
    dsimp only
    cases usageFromOpenai response <;> rfl

theorem usage_pushValue {acc : SseAccumulator} (hacc : acc.endpoint = .responses) (value : Value) :
    (acc.pushValue value).1.response.usage = hearUsage acc.response.usage value := by
  have hdecode : (acc.decode value).1.response.usage =
      match (value.get "response").bind usageFromOpenai with
      | some update => some (mergeUsage acc.response.usage update)
      | none => acc.response.usage := by
    simp only [SseAccumulator.decode, hacc, SseAccumulator.deltaFromResponsesEvent,
      SseAccumulator.response_observeResponsesDeltas, SseAccumulator.response_observeResponsesPart,
      SseAccumulator.response_observeResponsesOutputItem, usage_observeResponsesResponse]
  refine (usage_foldl_pushDelta (acc.decode value).1.response (acc.decode value).2).trans ?_
  rw [hdecode, hearUsage]
  simp only [SseAccumulator.decode, hacc, SseAccumulator.deltaFromResponsesEvent, List.foldl_map,
    reportUsage_fillToolCall]
  split_ifs
  · simp only [List.foldl_map, reportUsage_fillFinish]
  · rfl

theorem usage_pushValues {acc : SseAccumulator} (hacc : acc.endpoint = .responses)
    (vs : List Value) :
    (acc.pushValues vs).response.usage = vs.foldl hearUsage acc.response.usage := by
  induction vs generalizing acc with
  | nil => rfl
  | cons v vs ih =>
    have hnext := @ih (acc.pushValue v).1 ((acc.endpoint_pushValue v).trans hacc)
    rw [usage_pushValue hacc] at hnext
    exact hnext

/-- Only a completed response has usage among its deltas. -/
theorem foldl_reportUsage_of_ne {value : Value} (h : value.str "type" ≠ some "response.completed")
    (usage : Option Usage) :
    (Responses.deltaFromResponsesEvent value).foldl reportUsage usage = usage := by
  unfold Responses.deltaFromResponsesEvent
  split
  · cases value.str "delta" <;> rfl
  · cases value.str "delta" <;> rfl
  · cases value.str "delta" <;> rfl
  · rfl
  · rfl
  · exact absurd ‹value.str "type" = some "response.completed"› h
  · rfl

theorem hearUsage_parts {bs : List (Nat → SseEvent)} (h : ∀ body ∈ bs, IsPart body) (n : Nat)
    (usage : Option Usage) : (values n bs).foldl hearUsage usage = usage := by
  induction bs generalizing n with
  | nil => rfl
  | cons body bs ih =>
    obtain ⟨kind, hkind, fields, rfl, htype, hresponse⟩ := h body List.mem_cons_self
    have hnone : (valueOf kind fields n).get "response" = none := by
      rw [get_valueOf, hresponse]
      rfl
    rw [values_cons, List.foldl_cons, hearUsage, hnone, foldl_reportUsage_of_ne]
    · exact ih (fun body hbody => h body (List.mem_cons_of_mem _ hbody)) (n + 1)
    · rw [type_valueOf htype]
      exact fun heq => hkind (Option.some.inj heq)

/-- An event that shows a response: its usage is merged once, or twice when that is complete. -/
theorem hearUsage_response {response shown : Value} (hshown : response.get "usage" = some shown)
    (hsorted : BTreeMap.Sorted (readUsage shown).extras) (kind : String) (n : Nat) :
    hearUsage (some {}) (valueOf kind [("response", response)] n) = some (readUsage shown) := by
  have hresponse : (valueOf kind [("response", response)] n).get "response" = some response := by
    rw [get_valueOf]
    rfl
  have husage : usageFromOpenai response = some (readUsage shown) := by
    rw [usageFromOpenai_eq, hshown, Option.map_some]
  rw [hearUsage, hresponse, Option.bind_some, husage]
  show List.foldl reportUsage (some (Usage.merge {} (readUsage shown))) _ = _
  rw [merge_default hsorted]
  by_cases hkind : kind = "response.completed"
  · rw [hkind, deltas_completed, husage]
    exact congrArg some (merge_self hsorted)
  · refine foldl_reportUsage_of_ne ?_ _
    rw [type_valueOf rfl]
    exact fun heq => hkind (Option.some.inj heq)

/-- The opening events show no usage, which is read as a blank one. -/
theorem hearUsage_prologue {start : Value} (hstart : start.get "usage" = some .null) (n : Nat) :
    (values n (prologue start start)).foldl hearUsage none = some {} := by
  have hfirst : hearUsage none (valueOf "response.created" [("response", start)] n) = some {} := by
    have hresponse : (valueOf "response.created" [("response", start)] n).get "response" =
        some start := by
      rw [get_valueOf]
      rfl
    rw [hearUsage, hresponse, Option.bind_some, usageFromOpenai_eq, hstart, foldl_reportUsage_of_ne]
    · rfl
    · rw [type_valueOf rfl]
      decide
  rw [prologue, values_cons, values_cons, List.foldl_cons, List.foldl_cons, hfirst]
  exact hearUsage_response hstart BTreeMap.sorted_nil _ _

/-- **The usage.** What is accumulated is the usage of the terminal event, read back. -/
theorem usage_accumulated {start response : Value} (hstart : start.get "usage" = some .null)
    {usage : Option Usage} (hresponse : response.get "usage" = some ((usage.map usageToIo).getD .null))
    (status : String) (items : List OutputItem) :
    (accumulated .responses (values 0 (bodies start items status response))).usage =
      some (shownUsage usage) := by
  have hparts : ∀ body ∈ items.flatMap OutputItem.events, IsPart body := fun body hbody => by
    obtain ⟨item, -, hmem⟩ := List.mem_flatMap.mp hbody
    exact isPart_of_mem_events hmem
  refine (@usage_pushValues (.new .responses) rfl _).trans ?_
  rw [bodies, values_append, List.foldl_append, values_append, List.foldl_append]
  rw [show (SseAccumulator.new .responses).response.usage = none from rfl,
    hearUsage_prologue hstart, hearUsage_parts hparts, terminal, values_cons]
  exact hearUsage_response hresponse (sorted_extras_shownUsage usage) _ _

/-! ### The usage of the emitter -/

/-- Only a usage delta changes the usage of the emitter. -/
theorem usage_handle {s : ResponsesEmitter} {out : List SseEvent} {created inProgress : Value}
    {items : Items} (h : s.Refines out created inProgress items) (delta : IrDelta) :
    (s.handle delta).1.usage = reportUsage s.usage delta := by
  rcases Items.push_cases items delta with ⟨hkey, -⟩ | ⟨item, hitem, hkey, -⟩ | ⟨k, hkey, hopen, -⟩
  · cases delta with
    | text s' =>
      have hs : s' = "" := by simpa [IrDelta.key] using hkey
      rw [hs]
      rfl
    | reasoning s' =>
      have hs : s' = "" := by simpa [IrDelta.key] using hkey
      rw [hs]
      rfl
    | toolCall => cases hkey
    | usage u => rfl
    | finish reason => rfl
  · rw [ResponsesEmitter.handle_append (by rw [h.current, hitem]; rfl) hkey]
    cases delta <;> first | rfl | cases hkey
  · rw [ResponsesEmitter.handle_open h.current hkey hopen (by rw [h.itemCounter, h.outputIndex])]
    cases delta <;> first | rfl | cases hkey

theorem usage_handleAll {s : ResponsesEmitter} {out : List SseEvent} {created inProgress : Value}
    {items : Items} (h : s.Refines out created inProgress items) (deltas : List IrDelta) :
    (s.handleAll deltas).1.usage = deltas.foldl reportUsage s.usage := by
  induction deltas generalizing s out items with
  | nil => rfl
  | cons delta deltas ih =>
    have hrest := ih (h.handle delta)
    rw [usage_handle h] at hrest
    exact hrest

theorem usage_emitted (id model : String) (createdAt : Nat) (deltas : List IrDelta) :
    (emitted id model createdAt deltas).1.usage = deltas.foldl reportUsage none := by
  rw [emitted, ResponsesEmitter.emit]
  split_ifs with hd
  · rw [hd]
    rfl
  · exact usage_handleAll (refines_new id model createdAt) deltas

/-! ## The theorem -/

theorem get_usage_responseSnapshot (s : ResponsesEmitter) (status : String) (completed : Bool) :
    (s.responseSnapshot status completed).get "usage" =
      some ((s.usage.map usageToIo).getD .null) := by
  rw [ResponsesEmitter.responseSnapshot, get_obj]
  cases completed
  · rfl
  · cases (responsesCompletionStatus s.finishReason).2 <;> rfl

/-- An accumulated Responses stream is of a complete response. -/
theorem finish_accumulated (vs : List Value) :
    responsesCompletionStatus (accumulated .responses vs).finishReason = ("completed", none) := by
  have hcomplete := SseAccumulator.isComplete_finish
    (@SseAccumulator.isComplete_pushValues (.new .responses) rfl rfl vs)
  show responsesCompletionStatus (SseAccumulator.finish _).finishReason = _
  rw [isComplete_iff] at hcomplete
  rcases hcomplete with h | h | h | h | h | h | h <;> rw [h] <;> rfl

theorem completed_iff (reason : Option String) :
    ("completed", none) = responsesCompletionStatus reason ↔
      (responsesCompletionStatus reason).1 = "completed" := by
  constructor
  · intro h
    rw [← h]
  · unfold responsesCompletionStatus
    split <;> simp

/-- The emitted calls are those of the items. -/
theorem functionCalls_stream (id model : String) (createdAt : Nat) (deltas : List IrDelta) :
    functionCalls (stream id model createdAt deltas) =
      (Items.ofDeltas deltas).all.filterMap OutputItem.call := by
  obtain ⟨last, hstream, -⟩ := stream_eq id model createdAt deltas
  rw [functionCalls, hstream, bodies, filterMap_doneItem_stream, List.filterMap_map]
  exact congrArg (fun f => (Items.ofDeltas deltas).all.filterMap f) (funext functionCall_final)

/-- **The round trip.** -/
theorem comesBack_iff (id model : String) (createdAt : Nat) (deltas : List IrDelta) :
    Recovers id model createdAt deltas ↔ Recoverable deltas := by
  obtain ⟨last, haccumulated, hlast⟩ := accumulateEvents_stream id model createdAt deltas
  have hreason : (emitted id model createdAt deltas).1.finishReason = deltas.foldl setReason none :=
    ResponsesEmitter.finishReason_emit _ deltas
  have husage := usage_emitted id model createdAt deltas
  generalize hresponse : last.responseSnapshot
    (responsesCompletionStatus (deltas.foldl setReason none)).1 true = response at haccumulated
  have hshown : response.get "usage" =
      some (((deltas.foldl reportUsage none).map usageToIo).getD .null) := by
    rw [← hresponse, get_usage_responseSnapshot, hlast, husage]
  have hstart : (opening id model createdAt).get "usage" = some .null :=
    get_usage_responseSnapshot _ _ _
  have hplaced : ∀ k item, (Items.ofDeltas deltas).all[k]? = some item →
      OutputItem.outputIndex item = k :=
    fun k item hk => (Items.placed_ofDeltas deltas k item hk).1
  have hcalls := calls_iff (opening id model createdAt) response
    (responsesCompletionStatus (deltas.foldl setReason none)).1 hplaced
  have hread := usage_accumulated hstart hshown
    (responsesCompletionStatus (deltas.foldl setReason none)).1 (Items.ofDeltas deltas).all
  constructor
  · rintro ⟨resp, hresp, hmatches⟩
    obtain rfl := Except.ok.inj (haccumulated.symm.trans hresp)
    have hsame := hmatches.usage
    rw [hread, husage] at hsame
    have hclass := hmatches.finish
    rw [finish_accumulated, hreason] at hclass
    refine ⟨hcalls.mp ?_, ?_, (completed_iff _).mp hclass⟩
    · rw [hmatches.calls, functionCalls_stream]
    · cases hreported : deltas.foldl reportUsage none with
      | none =>
        rw [hreported] at hsame
        cases hsame
      | some u =>
        rw [hreported] at hsame
        exact ⟨u, rfl, (readUsage_usageToIo_iff u).mp (Option.some.inj hsame)⟩
  · intro h
    obtain ⟨u, hu, hcomplete⟩ := h.usage
    refine ⟨_, haccumulated, reads_text.read_accumulated .., reads_reasoning.read_accumulated ..,
      ?_, ?_, ?_⟩
    · rw [functionCalls_stream]
      exact hcalls.mpr h.calls
    · rw [hread, husage, hu]
      exact congrArg some ((readUsage_usageToIo_iff u).mpr hcomplete)
    · rw [finish_accumulated, hreason]
      exact (completed_iff _).mpr h.finish

/-! A call that follows a text is the second output item. -/

def textThenCall : List IrDelta :=
  [.text "Hi", .toolCall 0 (some "call_1") (some "search") "\x7b\x7d",
    .usage ⟨some 3, some 5, some 8, none, none, []⟩, .finish (some "stop")]

/-- Its place in the accumulated vector is not the first. -/
theorem padding_precedes_emitted_call :
    ¬ ∀ id model createdAt deltas, Recovers id model createdAt deltas := by
  intro h
  obtain ⟨resp, hresp, hmatches⟩ := h "resp_1" "gpt" 0 textThenCall
  obtain ⟨last, haccumulated, -⟩ := accumulateEvents_stream "resp_1" "gpt" 0 textThenCall
  obtain rfl := Except.ok.inj (haccumulated.symm.trans hresp)
  have hplaced : ∀ k item, (Items.ofDeltas textThenCall).all[k]? = some item →
      OutputItem.outputIndex item = k :=
    fun k item hk => (Items.placed_ofDeltas textThenCall k item hk).1
  have hcalls := hmatches.calls
  rw [functionCalls_stream] at hcalls
  obtain ⟨item, hitem, chatIndex, callId, name, hkind, -⟩ :=
    (calls_iff _ _ _ hplaced).mp hcalls 0 (by decide)
  have hmessage : (Items.ofDeltas textThenCall).all[0]?.map OutputItem.kind = some .message := by
    decide
  rw [hitem] at hmessage
  exact absurd (hkind.symm.trans (Option.some.inj hmessage)) nofun

end Tokn.Convert.EmitterRoundTrip
