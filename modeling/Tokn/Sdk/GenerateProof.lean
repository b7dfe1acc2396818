import Tokn.Sdk.Generate
import Tokn.Convert.Outcome

/-!
# What a stream of the SDK gives

**Theorem (`parseEvents_spec`).** The items of a stream end with the one item that is terminal, an
error or `Completed`, unless the sentinel comes before anything that ends the stream. Nothing behind
the frame that ends a stream is read.
-/

namespace Tokn.Sdk

open Tokn.Convert (Endpoint IrDelta SseAccumulator usageFromOpenai)
open Tokn.Convert.Responses (isToolCallType)

/-! ## The results of a value -/

/-- The item says that the stream is over. -/
def IsTerminal : Except Error GenerateEvent → Prop
  | .error _ => True
  | .ok (.completed _) => True
  | .ok _ => False

/-- The kinds of event that end a stream. -/
def terminalKinds : List String :=
  ["response.completed", "response.incomplete", "response.failed", "response.cancelled", "error"]

theorem isTerminalValue_iff (value : Value) :
    isTerminalValue value = true ↔ ∃ kind ∈ terminalKinds, value.str "type" = some kind := by
  unfold isTerminalValue
  split
  case h_6 h1 h2 h3 h4 h5 =>
    simp only [Bool.false_eq_true, terminalKinds, List.mem_cons, List.not_mem_nil, or_false, false_iff]
    rintro ⟨kind, rfl | rfl | rfl | rfl | rfl, hkind⟩
    · exact h1 hkind
    · exact h2 hkind
    · exact h3 hkind
    · exact h4 hkind
    · exact h5 hkind
  all_goals
    rename_i h
    exact iff_of_true rfl ⟨_, by decide, h⟩

variable {value : Value}

theorem kind_of_not_terminal (h : isTerminalValue value = false) :
    (value.str "type").getD "" ∉ terminalKinds := by
  cases htype : value.str "type" with
  | none => decide
  | some kind =>
    intro hkind
    have hterminal := (isTerminalValue_iff value).mpr ⟨kind, hkind, htype⟩
    rw [h] at hterminal
    cases hterminal

/-- The results of a value that does not end the stream. -/
theorem resultsOf_inner (h : isTerminalValue value = false) (deltas : List IrDelta) :
    resultsOf value deltas = (toolCallStarted value).elim
      (if deltas = [] then [.ok (.other ((value.str "type").getD "") value)]
        else deltas.map fun delta => .ok (eventFromDelta delta))
      (fun event => [.ok event]) := by
  have hkind := kind_of_not_terminal h
  simp only [terminalKinds, List.mem_cons, List.not_mem_nil, or_false, not_or] at hkind
  obtain ⟨hcompleted, hincomplete, hfailed, hcancelled, herror⟩ := hkind
  have hcompletion : isCompletion ((value.str "type").getD "") = false := by
    simp [isCompletion, hcompleted, hincomplete, hcancelled]
  have hevent : ∀ delta, completedEvent none delta = eventFromDelta delta := fun delta => by
    cases delta <;> rfl
  simp only [resultsOf, hcompletion, hfailed, herror, hincomplete, hcancelled, or_self, if_false,
    Bool.false_eq_true, Option.bind_none, hevent]
  cases toolCallStarted value <;> rfl

/-- The SDK ends a stream where the accumulator does. -/
theorem isTerminal_responses (value : Value) :
    Convert.isTerminal .responses value = isTerminalValue value := by
  unfold Convert.isTerminal isTerminalValue
  dsimp only
  split <;> simp_all

theorem not_isFinish_of_inner {acc : SseAccumulator} (hacc : acc.endpoint = .responses)
    (h : isTerminalValue value = false) :
    ∀ delta ∈ (acc.pushValue value).2, delta.isFinish = false := by
  obtain ⟨fill, hdeltas, hfill⟩ := SseAccumulator.decode_responses hacc value
  have hcount := Convert.countP_isFinish_responses value
  rw [isTerminal_responses, h, Bool.toNat_false, Nat.le_zero, List.countP_eq_zero] at hcount
  intro delta hdelta
  have hmem : delta ∈ (acc.decode value).2 := hdelta
  rw [hdeltas] at hmem
  obtain ⟨delta', hdelta', rfl⟩ := List.mem_map.mp hmem
  rw [(hfill delta').1]
  simpa using hcount delta' hdelta'

theorem not_isTerminal_eventFromDelta {delta : IrDelta} (h : delta.isFinish = false) :
    ¬ IsTerminal (.ok (eventFromDelta delta)) := by
  cases delta with
  | finish reason => cases h
  | _ => exact id

/-- **A value that does not end the stream** gives results, and none of them does. -/
theorem results_inner {acc : SseAccumulator} (hacc : acc.endpoint = .responses)
    (h : isTerminalValue value = false) :
    (resultsFromValue acc value).2 ≠ [] ∧
      ∀ r ∈ (resultsFromValue acc value).2, ¬ IsTerminal r := by
  have hresults : (resultsFromValue acc value).2 = resultsOf value (acc.pushValue value).2 := rfl
  rw [hresults, resultsOf_inner h]
  cases hstarted : toolCallStarted value with
  | some event =>
    refine ⟨List.cons_ne_nil _ _, fun r hr => ?_⟩
    rw [Option.elim_some, List.mem_singleton] at hr
    rw [hr]
    rw [toolCallStarted] at hstarted
    split_ifs at hstarted
    obtain ⟨item, -, rfl⟩ := Option.map_eq_some_iff.mp hstarted
    exact id
  | none =>
    by_cases hdeltas : (acc.pushValue value).2 = []
    · simp only [Option.elim_none, if_pos hdeltas]
      refine ⟨List.cons_ne_nil _ _, fun r hr => ?_⟩
      rw [List.mem_singleton.mp hr]
      exact id
    · simp only [Option.elim_none, if_neg hdeltas]
      refine ⟨by simpa using hdeltas, fun r hr => ?_⟩
      obtain ⟨delta, hdelta, rfl⟩ := List.mem_map.mp hr
      exact not_isTerminal_eventFromDelta (not_isFinish_of_inner hacc h delta hdelta)

/-- The deltas of a complete response. -/
theorem deltas_completed {acc : SseAccumulator} (hacc : acc.endpoint = .responses)
    (htype : value.str "type" = some "response.completed") :
    ∃ reason, (acc.pushValue value).2 =
      (((value.get "response").bind usageFromOpenai).map IrDelta.usage).toList ++ [.finish reason] := by
  have hdeltas : (acc.pushValue value).2 = (acc.decode value).2 := rfl
  rw [hdeltas]
  simp only [SseAccumulator.decode, hacc, SseAccumulator.deltaFromResponsesEvent,
    Convert.Responses.deltaFromResponsesEvent, htype, if_true, List.map_append, List.map_cons,
    List.map_nil]
  refine ⟨_, congrArg₂ (· ++ ·) ?_ rfl⟩
  cases (value.get "response").bind usageFromOpenai <;> rfl

/-- The kinds of event that end a stream with an error. -/
def failureKinds : List String := ["response.failed", "error"]

/-- The result that ends a stream. -/
structure Ends (value : Value) (last : Except Error GenerateEvent) : Prop where
  terminal : IsTerminal last
  failed : (∃ kind ∈ failureKinds, value.str "type" = some kind) → ∃ message, last = .error message
  completed : (∀ kind ∈ failureKinds, value.str "type" ≠ some kind) → ∀ response reason,
    value.get "response" = some response →
      finishReason response (responseHasToolCalls response) = some reason →
        last = .ok (.completed (some reason))

theorem ends_error {kind : String} (hkind : kind ∈ failureKinds)
    (htype : value.str "type" = some kind) (error : Error) : Ends value (.error error) :=
  ⟨trivial, fun _ => ⟨error, rfl⟩, fun h => absurd htype (h kind hkind)⟩

theorem ends_completed {kind : String} (hkind : kind ∉ failureKinds)
    (htype : value.str "type" = some kind) {last : Option String}
    (h : ∀ response reason, value.get "response" = some response →
      finishReason response (responseHasToolCalls response) = some reason → last = some reason) :
    Ends value (.ok (.completed last)) := by
  refine ⟨trivial, fun hfailed => ?_, fun _ response reason hresponse hreason => ?_⟩
  · obtain ⟨kind', hkind', htype'⟩ := hfailed
    rw [htype] at htype'
    exact absurd (Option.some.inj htype' ▸ hkind') hkind
  · rw [h response reason hresponse hreason]

/-- The usage that a stream tells before it ends. -/
def usageResults (usage : Option Usage) : List (Except Error GenerateEvent) :=
  (usage.map fun usage => .ok (.usage usage)).toList

theorem usageResults_fromIr (usage : Option Convert.Usage) :
    (usage.map fun usage => (.ok (.usage (.fromIr usage)) : Except Error GenerateEvent)).toList =
      usageResults (usage.map Usage.fromIr) := by
  rw [usageResults, Option.map_map]
  rfl

/-- **A value that ends the stream** gives one result that does, behind what usage it tells. -/
theorem results_terminal {acc : SseAccumulator} (hacc : acc.endpoint = .responses)
    (h : isTerminalValue value = true) :
    ∃ usage last, (resultsFromValue acc value).2 = usageResults usage ++ [last] ∧ Ends value last := by
  have hresults : (resultsFromValue acc value).2 = resultsOf value (acc.pushValue value).2 := rfl
  have hincomplete : ∀ kind, kind = "response.incomplete" ∨ kind = "response.cancelled" →
      value.str "type" = some kind → ∃ usage last,
        resultsOf value (acc.pushValue value).2 = usageResults usage ++ [last] ∧ Ends value last := by
    intro kind hkind htype
    have hnot : kind ∉ failureKinds := by
      obtain rfl | rfl := hkind <;> decide
    have hfailed : ¬ (kind = "response.failed" ∨ kind = "error") := by
      simpa [failureKinds] using hnot
    have hcompletion : isCompletion kind = true := by
      obtain rfl | rfl := hkind <;> decide
    simp only [resultsOf, htype, Option.getD_some, if_neg hfailed, if_pos hkind, hcompletion, if_true,
      usageResults_fromIr]
    refine ⟨_, _, rfl, ends_completed hnot htype fun response reason hresponse hreason => ?_⟩
    rw [hresponse, Option.bind_some, hreason]
    rfl
  rw [hresults]
  obtain ⟨kind, hkind, htype⟩ := (isTerminalValue_iff value).mp h
  simp only [terminalKinds, List.mem_cons, List.not_mem_nil, or_false] at hkind
  obtain rfl | rfl | rfl | rfl | rfl := hkind
  · obtain ⟨reason, hdeltas⟩ := deltas_completed hacc htype
    have hstarted : toolCallStarted value = none := by
      rw [toolCallStarted, htype, if_neg (by decide)]
    have hcompletion : isCompletion "response.completed" = true := by decide
    have husage : ∀ (usage : Option Convert.Usage) (reason : Option String),
        (usage.map IrDelta.usage).toList.map (fun delta =>
          (.ok (completedEvent reason delta) : Except Error GenerateEvent)) =
        usageResults (usage.map Usage.fromIr) := fun usage reason => by
      cases usage <;> rfl
    rw [hdeltas]
    simp only [resultsOf, htype, hstarted, hcompletion, Option.getD_some, String.reduceEq, or_self,
      if_false, if_true, List.append_eq_nil_iff, List.cons_ne_nil, and_false, List.map_append,
      List.map_cons, List.map_nil, husage]
    refine ⟨_, _, rfl, ends_completed (by decide) htype fun response reason hresponse hreason => ?_⟩
    rw [hresponse, Option.bind_some, hreason]
    rfl
  · exact hincomplete _ (.inl rfl) htype
  · simp only [resultsOf, htype, Option.getD_some, true_or, if_true]
    exact ⟨none, _, rfl, ends_error (by decide) htype _⟩
  · exact hincomplete _ (.inr rfl) htype
  · simp only [resultsOf, htype, Option.getD_some, or_true, if_true]
    exact ⟨none, _, rfl, ends_error (by decide) htype _⟩

theorem not_isTerminal_of_usage {usage : Option Usage} :
    ∀ r ∈ usageResults usage, ¬ IsTerminal r := by
  intro r hr
  obtain ⟨u, -, rfl⟩ := Option.map_eq_some_iff.mp (Option.mem_toList.mp hr)
  exact id

/-! ## The items of a stream -/

/-- What a stream gives from an accumulator on. -/
def itemsFrom (fromStr : String → Option Value) (acc : SseAccumulator) :
    List Frame → List (Except Error GenerateEvent)
  | [] => [.error (.generateStream "generation stream ended before a terminal event")]
  | .error message :: _ => [.error (.generateStream message)]
  | .ok data :: events =>
    if Str.trim data = "" then itemsFrom fromStr acc events
    else if Str.trim data = "[DONE]" then []
    else match fromStr data with
      | none => [.error .deserializeStreamEvent]
      | some value =>
        (resultsFromValue acc value).2 ++
          if isTerminalValue value then []
          else itemsFrom fromStr (resultsFromValue acc value).1 events

namespace EventParseState

variable {fromStr : String → Option Value} {st : EventParseState}

/-- What the stream still gives. -/
def rest (fromStr : String → Option Value) (st : EventParseState) : List (Except Error GenerateEvent) :=
  st.pending ++ if st.stopAfterPending then [] else itemsFrom fromStr st.accumulator st.events

theorem pushResults_append {results : List (Except Error GenerateEvent)}
    (h : ∀ r ∈ results, ¬ IsTerminal r) (more : List (Except Error GenerateEvent)) :
    st.pushResults (results ++ more) =
      { st with pending := st.pending ++ results }.pushResults more := by
  induction results generalizing st with
  | nil => simp
  | cons r results ih =>
    cases r with
    | error e => exact absurd trivial (h _ List.mem_cons_self)
    | ok event =>
      rw [List.cons_append, pushResults, ih fun r hr => h r (List.mem_cons_of_mem _ hr)]
      simp

theorem enqueue_inner {results : List (Except Error GenerateEvent)}
    (h : ∀ r ∈ results, ¬ IsTerminal r) :
    st.enqueue results false = { st with pending := st.pending ++ results } := by
  have happend := @pushResults_append { st with stopAfterPending := st.stopAfterPending || false }
    results h []
  rw [List.append_nil] at happend
  rw [enqueue, happend]
  simp [pushResults]

theorem enqueue_terminal {before : List (Except Error GenerateEvent)}
    {last : Except Error GenerateEvent} (h : ∀ r ∈ before, ¬ IsTerminal r) :
    st.enqueue (before ++ [last]) true =
      { st with pending := st.pending ++ (before ++ [last]), stopAfterPending := true } := by
  rw [enqueue, pushResults_append h]
  cases last <;> simp [pushResults]

theorem fail_eq (error : Error) :
    st.fail error = { st with pending := st.pending ++ [.error error], stopAfterPending := true } := by
  simp [fail, enqueue, pushResults]

/-- What one answer of the splitter leads to, from an empty queue. -/
theorem receive_spec (hacc : st.accumulator.endpoint = .responses) (hpending : st.pending = [])
    (hstop : st.stopAfterPending = false) (frame : Frame) (events : List Frame) :
    let st' := { st with events := events }.receive fromStr (some frame)
    st'.accumulator.endpoint = .responses ∧ st'.events = events ∧
      st'.rest fromStr = itemsFrom fromStr st.accumulator (frame :: events) := by
  intro st'
  cases frame with
  | error message =>
    simp only [st', receive, fail_eq]
    exact ⟨hacc, trivial, by simp [rest, itemsFrom, hpending]⟩
  | ok data =>
    simp only [st', receive]
    rw [itemsFrom]
    by_cases hblank : Str.trim data = ""
    · simp only [if_pos hblank]
      exact ⟨hacc, trivial, by simp [rest, hpending, hstop]⟩
    simp only [if_neg hblank]
    by_cases hdone : Str.trim data = "[DONE]"
    · simp only [if_pos hdone]
      exact ⟨hacc, trivial, by simp [rest, hpending]⟩
    simp only [if_neg hdone]
    cases hvalue : fromStr data with
    | none =>
      simp only [fail_eq]
      exact ⟨hacc, trivial, by simp [rest, hpending]⟩
    | some value =>
      have hendpoint : (resultsFromValue st.accumulator value).1.endpoint = .responses :=
        (SseAccumulator.endpoint_pushValue st.accumulator value).trans hacc
      cases hterminal : isTerminalValue value with
      | false =>
        have hinner := (results_inner hacc hterminal).2
        simp only [hterminal, enqueue_inner hinner]
        exact ⟨hendpoint, trivial, by simp [rest, hpending, hstop]⟩
      | true =>
        obtain ⟨usage, last, hresults, -⟩ := results_terminal hacc hterminal
        simp only [hterminal, hresults, enqueue_terminal not_isTerminal_of_usage]
        exact ⟨hendpoint, trivial, by simp [rest, hpending]⟩

theorem fill_spec (events : List Frame) (hacc : st.accumulator.endpoint = .responses)
    (hpending : st.pending = []) (hstop : st.stopAfterPending = false) :
    (st.fill fromStr events).accumulator.endpoint = .responses ∧
      (st.fill fromStr events).rest fromStr = itemsFrom fromStr st.accumulator events ∧
        ((st.fill fromStr events).pending = [] → (st.fill fromStr events).stopAfterPending = true) := by
  induction events generalizing st with
  | nil =>
    rw [fill, receive, fail_eq]
    exact ⟨hacc, by simp [rest, itemsFrom, hpending], fun _ => rfl⟩
  | cons frame events ih =>
    obtain ⟨hendpoint, hevents, hrest⟩ := @receive_spec fromStr st hacc hpending hstop frame events
    rw [fill]
    split_ifs with hmore
    · obtain ⟨hnone, hgoing⟩ := hmore
      obtain ⟨hfill, hfillRest, hfillStop⟩ := ih hendpoint hnone hgoing
      refine ⟨hfill, ?_, hfillStop⟩
      rw [rest, hnone, hgoing, hevents] at hrest
      exact hfillRest.trans hrest
    · refine ⟨hendpoint, hrest, fun hnone => ?_⟩
      rw [← Bool.not_eq_false]
      exact fun hgoing => hmore ⟨hnone, hgoing⟩

/-- The result in front is the next item. -/
theorem popFront_spec (hacc : st.accumulator.endpoint = .responses)
    (hover : st.pending = [] → st.stopAfterPending = true) :
    (st.rest fromStr = [] → st.popFront = none) ∧
      ∀ r rs, st.rest fromStr = r :: rs → ∃ st', st.popFront = some (r, st') ∧
        st'.accumulator.endpoint = .responses ∧ st'.rest fromStr = rs := by
  rw [popFront]
  cases hpending : st.pending with
  | nil =>
    refine ⟨fun _ => rfl, fun r rs h => ?_⟩
    rw [rest, hpending, hover hpending] at h
    cases h
  | cons result pending =>
    refine ⟨fun h => ?_, fun r rs h => ?_⟩
    · rw [rest, hpending] at h
      cases h
    · rw [rest, hpending, List.cons_append, List.cons.injEq] at h
      obtain ⟨rfl, rfl⟩ := h
      exact ⟨_, rfl, hacc, rfl⟩

/-- **A poll** gives the next item of the stream. -/
theorem next_spec (hacc : st.accumulator.endpoint = .responses) :
    (st.rest fromStr = [] → st.next fromStr = none) ∧
      ∀ r rs, st.rest fromStr = r :: rs → ∃ st', st.next fromStr = some (r, st') ∧
        st'.accumulator.endpoint = .responses ∧ st'.rest fromStr = rs := by
  by_cases hover : st.pending = [] → st.stopAfterPending = true
  · obtain ⟨hnone, hsome⟩ := @popFront_spec fromStr st hacc hover
    refine ⟨fun h => ?_, fun r rs h => ?_⟩
    · have hpending : st.pending = [] := (List.append_eq_nil_iff.mp h).1
      rw [next, hnone h, hover hpending]
      rfl
    · obtain ⟨st', hpop, hst'⟩ := hsome r rs h
      rw [next, hpop]
      exact ⟨st', rfl, hst'⟩
  · obtain ⟨hpending, hstop⟩ := Classical.not_imp.mp hover
    rw [Bool.not_eq_true] at hstop
    obtain ⟨hendpoint, hrest, hfillOver⟩ := @fill_spec fromStr st st.events hacc hpending hstop
    have hnext : st.next fromStr = (st.fill fromStr st.events).popFront := by
      rw [next, popFront, hpending]
      simp [hstop]
    have hsame : (st.fill fromStr st.events).rest fromStr = st.rest fromStr := by
      rw [hrest, rest, hpending, hstop]
      rfl
    rw [hnext, ← hsame]
    exact popFront_spec hendpoint hfillOver

/-- The polls give the items of the stream, one by one. -/
theorem take_eq (hacc : st.accumulator.endpoint = .responses) (n : Nat) :
    st.take fromStr n = (st.rest fromStr).take n := by
  induction n generalizing st with
  | zero => rfl
  | succ n ih =>
    obtain ⟨hnone, hsome⟩ := @next_spec fromStr st hacc
    rw [take]
    cases hrest : st.rest fromStr with
    | nil => rw [hnone hrest, List.take_nil]
    | cons r rs =>
      obtain ⟨st', hnext, hendpoint, hrs⟩ := hsome r rs hrest
      rw [hnext, List.take_succ_cons, ← hrs]
      exact congrArg (r :: ·) (ih hendpoint)

end EventParseState

theorem parseEvents_eq (fromStr : String → Option Value) (events : List Frame) (n : Nat) :
    parseEvents fromStr events n = (itemsFrom fromStr (.new .responses) events).take n :=
  EventParseState.take_eq rfl n

/-! ## How a stream ends -/

/-- The frame leaves the stream going. -/
def Passes (fromStr : String → Option Value) (frame : Frame) : Prop :=
  ∃ data, frame = .ok data ∧ (Str.trim data = "" ∨ Str.trim data ≠ "[DONE]" ∧
    ∃ value, fromStr data = some value ∧ isTerminalValue value = false)

/-- The sentinel comes before anything else that ends the stream. -/
def EndsAtMarker (fromStr : String → Option Value) (events : List Frame) : Prop :=
  ∃ before data after, events = before ++ .ok data :: after ∧ Str.trim data = "[DONE]" ∧
    ∀ frame ∈ before, Passes fromStr frame

section

variable {fromStr : String → Option Value} {acc : SseAccumulator}

variable {frame : Frame}

/-- A frame that leaves the stream going gives items that do not end it. -/
theorem itemsFrom_of_passes (hacc : acc.endpoint = .responses) (h : Passes fromStr frame) :
    ∃ results, ∃ acc' : SseAccumulator, acc'.endpoint = .responses ∧ (∀ r ∈ results, ¬ IsTerminal r) ∧
      ∀ events, itemsFrom fromStr acc (frame :: events) = results ++ itemsFrom fromStr acc' events := by
  obtain ⟨data, rfl, hblank | ⟨hdone, value, hvalue, hinner⟩⟩ := h
  · refine ⟨[], acc, hacc, fun r hr => absurd hr List.not_mem_nil, fun events => ?_⟩
    rw [itemsFrom, if_pos hblank, List.nil_append]
  · by_cases hblank : Str.trim data = ""
    · refine ⟨[], acc, hacc, fun r hr => absurd hr List.not_mem_nil, fun events => ?_⟩
      rw [itemsFrom, if_pos hblank, List.nil_append]
    · refine ⟨(resultsFromValue acc value).2, (resultsFromValue acc value).1,
        (SseAccumulator.endpoint_pushValue acc value).trans hacc, (results_inner hacc hinner).2,
        fun events => ?_⟩
      simp [itemsFrom, hblank, hdone, hvalue, hinner]

/-- A frame that ends the stream is the sentinel, or gives the one item that ends it. -/
theorem itemsFrom_of_not_passes (hacc : acc.endpoint = .responses) (h : ¬ Passes fromStr frame) :
    (∃ data, frame = .ok data ∧ Str.trim data = "[DONE]" ∧
      ∀ events, itemsFrom fromStr acc (frame :: events) = []) ∨
    ((∀ data, frame = .ok data → Str.trim data ≠ "[DONE]") ∧
      ∃ before last, IsTerminal last ∧ (∀ r ∈ before, ¬ IsTerminal r) ∧
        ∀ events, itemsFrom fromStr acc (frame :: events) = before ++ [last]) := by
  cases frame with
  | error message =>
    refine .inr ⟨fun data hdata => ?_, [], .error (.generateStream message), trivial,
      fun r hr => absurd hr List.not_mem_nil, fun _ => rfl⟩
    cases hdata
  | ok data =>
    by_cases hblank : Str.trim data = ""
    · exact absurd ⟨data, rfl, .inl hblank⟩ h
    by_cases hdone : Str.trim data = "[DONE]"
    · exact .inl ⟨data, rfl, hdone, fun events => by simp [itemsFrom, hdone]⟩
    refine .inr ⟨fun data' hdata => Except.ok.inj hdata ▸ hdone, ?_⟩
    cases hvalue : fromStr data with
    | none =>
      refine ⟨[], .error .deserializeStreamEvent, trivial, fun r hr => absurd hr List.not_mem_nil,
        fun events => ?_⟩
      simp [itemsFrom, hblank, hdone, hvalue]
    | some value =>
      have hterminal : isTerminalValue value = true := by
        rw [← Bool.not_eq_false]
        exact fun hinner => h ⟨data, rfl, .inr ⟨hdone, value, hvalue, hinner⟩⟩
      obtain ⟨usage, last, hresults, hends⟩ := results_terminal hacc hterminal
      refine ⟨usageResults usage, last, hends.terminal, not_isTerminal_of_usage, fun events => ?_⟩
      simp [itemsFrom, hblank, hdone, hvalue, hterminal, hresults]

theorem endsAtMarker_cons (h : Passes fromStr frame) (events : List Frame) :
    EndsAtMarker fromStr (frame :: events) ↔ EndsAtMarker fromStr events := by
  constructor
  · rintro ⟨before, data, after, hevents, hdone, hbefore⟩
    cases before with
    | nil =>
      obtain ⟨rfl, -⟩ := List.cons.inj hevents
      obtain ⟨data', hdata, hpass⟩ := h
      cases hdata
      rw [hdone] at hpass
      simp at hpass
    | cons first before =>
      obtain ⟨-, rfl⟩ := List.cons.inj hevents
      exact ⟨before, data, after, rfl, hdone, fun f hf => hbefore f (List.mem_cons_of_mem _ hf)⟩
  · rintro ⟨before, data, after, rfl, hdone, hbefore⟩
    refine ⟨frame :: before, data, after, rfl, hdone, fun f hf => ?_⟩
    obtain rfl | hf := List.mem_cons.mp hf
    · exact h
    · exact hbefore f hf

theorem endsAtMarker_cons_of_not_passes (h : ¬ Passes fromStr frame) (events : List Frame) :
    EndsAtMarker fromStr (frame :: events) ↔ ∃ data, frame = .ok data ∧ Str.trim data = "[DONE]" := by
  constructor
  · rintro ⟨before, data, after, hevents, hdone, hbefore⟩
    cases before with
    | nil =>
      obtain ⟨rfl, -⟩ := List.cons.inj hevents
      exact ⟨data, rfl, hdone⟩
    | cons first before =>
      obtain ⟨rfl, -⟩ := List.cons.inj hevents
      exact absurd (hbefore _ List.mem_cons_self) h
  · rintro ⟨data, rfl, hdone⟩
    exact ⟨[], data, events, rfl, hdone, fun f hf => absurd hf List.not_mem_nil⟩

/-- The items end with a terminal one. -/
def Concludes (items : List (Except Error GenerateEvent)) : Prop :=
  ∃ before last, items = before ++ [last] ∧ IsTerminal last ∧ ∀ r ∈ before, ¬ IsTerminal r

/-- What a stream gives, by how it ends. -/
theorem itemsFrom_cases (hacc : acc.endpoint = .responses) (events : List Frame) :
    (EndsAtMarker fromStr events → ∀ r ∈ itemsFrom fromStr acc events, ¬ IsTerminal r) ∧
      (¬ EndsAtMarker fromStr events → Concludes (itemsFrom fromStr acc events)) := by
  induction events generalizing acc with
  | nil =>
    refine ⟨fun h => ?_, fun _ => ⟨[], _, rfl, trivial, fun r hr => absurd hr List.not_mem_nil⟩⟩
    obtain ⟨before, data, after, hevents, -⟩ := h
    exact absurd hevents.symm (List.append_ne_nil_of_right_ne_nil _ (List.cons_ne_nil _ _))
  | cons frame events ih =>
    by_cases hpass : Passes fromStr frame
    · obtain ⟨results, acc', hacc', hresults, hitems⟩ := itemsFrom_of_passes hacc hpass
      obtain ⟨hmarker, hends⟩ := ih hacc'
      rw [hitems, endsAtMarker_cons hpass]
      refine ⟨fun h r hr => ?_, fun h => ?_⟩
      · obtain hr | hr := List.mem_append.mp hr
        · exact hresults r hr
        · exact hmarker h r hr
      · obtain ⟨before, last, hlast, hterminal, hbefore⟩ := hends h
        refine ⟨results ++ before, last, by rw [hlast, List.append_assoc], hterminal, fun r hr => ?_⟩
        obtain hr | hr := List.mem_append.mp hr
        · exact hresults r hr
        · exact hbefore r hr
    · rw [endsAtMarker_cons_of_not_passes hpass]
      obtain ⟨data, hdata, hdone, hnone⟩ | ⟨hother, before, last, hterminal, hbefore, hitems⟩ :=
        itemsFrom_of_not_passes hacc hpass
      · rw [hnone]
        exact ⟨fun _ r hr => absurd hr List.not_mem_nil, fun h => absurd ⟨data, hdata, hdone⟩ h⟩
      · rw [hitems]
        refine ⟨fun h => ?_, fun _ => ⟨before, last, rfl, hterminal, hbefore⟩⟩
        obtain ⟨data, hdata, hdone⟩ := h
        exact absurd hdone (hother data hdata)

/-- What comes behind the frame that ends a stream is not read. -/
theorem itemsFrom_append (hacc : acc.endpoint = .responses) {events : List Frame}
    (h : ∃ frame ∈ events, ¬ Passes fromStr frame) (later : List Frame) :
    itemsFrom fromStr acc (events ++ later) = itemsFrom fromStr acc events := by
  induction events generalizing acc with
  | nil =>
    obtain ⟨frame, hframe, -⟩ := h
    exact absurd hframe List.not_mem_nil
  | cons frame events ih =>
    rw [List.cons_append]
    by_cases hpass : Passes fromStr frame
    · obtain ⟨results, acc', hacc', -, hitems⟩ := itemsFrom_of_passes hacc hpass
      obtain ⟨other, hother, hends⟩ := h
      have hmem : other ∈ events := by
        obtain rfl | hmem := List.mem_cons.mp hother
        · exact absurd hpass hends
        · exact hmem
      rw [hitems, hitems, ih hacc' ⟨other, hmem, hends⟩]
    · obtain ⟨data, -, -, hnone⟩ | ⟨-, before, last, -, -, hitems⟩ :=
        itemsFrom_of_not_passes hacc hpass
      · rw [hnone, hnone]
      · rw [hitems, hitems]

end

/-- **How a stream ends.** It is finite. Its last item is terminal, and no other is, exactly if no
sentinel comes before what ends the stream. -/
theorem parseEvents_spec (fromStr : String → Option Value) (events : List Frame) :
    ∃ items, (∀ n, parseEvents fromStr events n = items.take n) ∧
      (Concludes items ↔ ¬ EndsAtMarker fromStr events) ∧
      (EndsAtMarker fromStr events → ∀ r ∈ items, ¬ IsTerminal r) ∧
      ((∃ frame ∈ events, ¬ Passes fromStr frame) → ∀ later n,
        parseEvents fromStr (events ++ later) n = items.take n) := by
  have hacc : (SseAccumulator.new .responses).endpoint = .responses := rfl
  obtain ⟨hmarker, hends⟩ := @itemsFrom_cases fromStr _ hacc events
  refine ⟨itemsFrom fromStr (.new .responses) events, parseEvents_eq fromStr events,
    ⟨fun h hsentinel => ?_, hends⟩, hmarker, fun h later n => ?_⟩
  · obtain ⟨before, last, hlast, hterminal, -⟩ := h
    have hmem : last ∈ itemsFrom fromStr (.new .responses) events := by simp [hlast]
    exact hmarker hsentinel last hmem hterminal
  · rw [parseEvents_eq, itemsFrom_append hacc h]

end Tokn.Sdk
