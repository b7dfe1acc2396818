import Tokn.Convert.EmitStateProof

/-!
# Termination of a translated stream

Over any calls on a translator, in any order, at most one finish delta reaches the emitter, the
marker that ends the stream is the last event returned, and the first `finish` fails exactly when
no event that ends the upstream stream came before it.

Before the stream has ended the flag `terminal_seen` counts the finish deltas; once it has ended
no call returns anything.
-/

namespace Tokn.Convert

namespace EndpointTranslator

/-! ## One call -/

theorem handedAll_concat (t : EndpointTranslator) (cs : List Call) (c : Call) :
    t.handedAll (cs ++ [c]) = t.handedAll cs ++ (Machine.run call t cs).1.handed c := by
  induction cs generalizing t with
  | nil => simp [handedAll]
  | cons c' cs ih => simp [handedAll, ih, Machine.run_cons]

/-- A translator that has finished returns nothing more. -/
theorem call_of_finished {t : EndpointTranslator} (h : t.finished = true) (c : Call) :
    t.call c = (t, .ok []) ∧ t.handed c = [] := by
  cases c <;> simp [call, transform, finish, finishOnce, handed, h]

/-- Whether the events of the calls end the upstream stream. -/
def Ends (source : Endpoint) (cs : List Call) : Prop :=
  ∃ event, Call.transform event ∈ cs ∧ endsStream source event = true

/-! ## The invariant -/

/-- A stream that has not ended: no `finish`, no sentinel, and a finish delta exactly when a
terminal event has been seen. -/
structure Running (source target : Endpoint) (cs : List Call) (t : EndpointTranslator)
    (out : List SseEvent) (deltas : List IrDelta) : Prop where
  finished : t.finished = false
  source_eq : t.source = source
  endpoint_eq : t.acc.endpoint = source
  target_eq : t.emit.target = target
  live : t.emit.Live out
  count : deltas.countP IrDelta.isFinish = t.terminalSeen.toNat
  seen : t.terminalSeen = true ↔ Ends source cs
  noFinish : Call.finish ∉ cs

/-- A stream that has ended, by a call of `finish` or by the sentinel. -/
structure Ended (source target : Endpoint) (cs : List Call) (t : EndpointTranslator)
    (out : List SseEvent) (deltas : List IrDelta) : Prop where
  finished : t.finished = true
  marker : ∀ e ∈ out.dropLast, isMarker target e = false
  count : deltas.countP IrDelta.isFinish ≤ 1
  ended : Call.finish ∈ cs ∨ Ends source cs

variable {source target : Endpoint} {cs : List Call} {t : EndpointTranslator}
  {out : List SseEvent} {deltas : List IrDelta}

theorem running_new (source target : Endpoint) (createdAt : Nat) :
    Running source target [] (new source target createdAt) [] [] where
  finished := rfl
  source_eq := rfl
  endpoint_eq := rfl
  target_eq := rfl
  live := EmitState.live_new target createdAt
  count := rfl
  seen := by simp [Ends, new]
  noFinish := by simp

theorem ends_concat (source : Endpoint) (cs : List Call) (event : SseEvent) :
    Ends source (cs ++ [.transform event]) ↔ Ends source cs ∨ endsStream source event = true := by
  simp only [Ends, List.mem_append, List.mem_singleton, Call.transform.injEq]
  constructor
  · rintro ⟨e, h | rfl, he⟩
    · exact Or.inl ⟨e, h, he⟩
    · exact Or.inr he
  · rintro (⟨e, h, he⟩ | he)
    · exact ⟨e, Or.inl h, he⟩
    · exact ⟨event, Or.inr rfl, he⟩

/-- A JSON event keeps the stream running. -/
theorem Running.transformValue (h : Running source target cs t out deltas) {event : SseEvent}
    {value : Value} (hdone : event.isDone = false) (hjson : event.json = some value) :
    Running source target (cs ++ [.transform event]) (t.transformValue value).1
      (out ++ (t.transformValue value).2) (deltas ++ (t.settled value).2) := by
  obtain ⟨hseen, hcount⟩ :=
    settled_spec (t := t) (h.endpoint_eq.trans h.source_eq.symm) value
  refine ⟨h.finished, h.source_eq, ?_, ?_, ?_, ?_, ?_, ?_⟩
  · exact (t.acc.endpoint_pushValue value).trans h.endpoint_eq
  · simp [EndpointTranslator.transformValue, h.target_eq]
  · exact (h.live.updateMetadata _).emit _
  · rw [List.countP_append, h.count]
    exact hcount
  · rw [ends_concat, ← h.seen]
    simp [EndpointTranslator.transformValue, hseen, endsStream, hdone, hjson, h.source_eq]
  · simpa using h.noFinish

theorem Running.isMarker_dropLast (h : Running source target cs t out deltas) :
    ∀ e ∈ out.dropLast, isMarker target e = false := by
  intro e he
  rw [← h.target_eq]
  exact h.live.noMarker e (List.mem_of_mem_dropLast he)

/-- The first `finish`. It fails when no terminal event has been seen. -/
theorem Running.finish (h : Running source target cs t out deltas) :
    Ended source target (cs ++ [.finish]) t.finish.1 (out ++ t.finish.2.toOption.getD [])
      deltas := by
  have hcount : deltas.countP IrDelta.isFinish ≤ 1 := h.count ▸ Bool.toNat_le t.terminalSeen
  have hmem : Call.finish ∈ cs ++ [.finish] := by simp
  cases hseen : t.terminalSeen with
  | false =>
    have hfinish : t.finish = ({ t with finished := true },
        .error (.sse "upstream stream ended before a terminal event")) := by
      simp [EndpointTranslator.finish, finishOnce, h.finished, hseen]
    rw [hfinish]
    exact ⟨rfl, by simpa [Except.toOption] using h.isMarker_dropLast, hcount, Or.inl hmem⟩
  | true =>
    have hfinish : t.finish = ({ t with
        finished := true, emit := (t.emit.updateMetadata t.acc.metadata).finish.1 },
        .ok (t.emit.updateMetadata t.acc.metadata).finish.2) := by
      simp [EndpointTranslator.finish, finishOnce, h.finished, hseen]
    rw [hfinish]
    refine ⟨rfl, ?_, hcount, Or.inl hmem⟩
    have hdrop := (h.live.updateMetadata t.acc.metadata).isMarker_dropLast_finish
    rw [EmitState.target_updateMetadata, h.target_eq] at hdrop
    exact hdrop

/-- The sentinel ends the stream, with a finish delta if only tool calls have been seen. -/
theorem Running.transformDone (h : Running source target cs t out deltas) {event : SseEvent}
    (hdone : event.isDone = true) :
    Ended source target (cs ++ [.transform event]) (t.transform event).1
      (out ++ (t.transform event).2.toOption.getD []) (deltas ++ t.handed (.transform event)) := by
  have hends : Ends source (cs ++ [.transform event]) :=
    (ends_concat source cs event).mpr (Or.inr (by simp [endsStream, hdone]))
  have htransform : t.transform event = t.transformDone := by
    simp [transform, h.finished, hdone]
  have hhanded : t.handed (.transform event) =
      if t.inferResponsesFinish then [.finish (some "tool_calls")] else [] := by
    simp [handed, h.finished, hdone]
  rw [htransform, hhanded]
  cases hinfer : t.inferResponsesFinish with
  | true =>
    have hseen : t.terminalSeen = false := by
      simp only [inferResponsesFinish, Bool.and_eq_true, Bool.not_eq_true'] at hinfer
      exact hinfer.1.1
    have hlive := (h.live.emit [.finish (some "tool_calls")]).updateMetadata t.acc.metadata
    have hdrop := hlive.isMarker_dropLast_finish
    rw [EmitState.target_updateMetadata, EmitState.target_emit, h.target_eq,
      List.append_assoc] at hdrop
    refine ⟨?_, ?_, ?_, Or.inr hends⟩
    · simp [EndpointTranslator.transformDone, hinfer, finishOnce, h.finished]
    · simpa [EndpointTranslator.transformDone, hinfer, finishOnce, h.finished, Except.map,
        Except.toOption] using hdrop
    · simp [List.countP_append, h.count, hseen]
  | false =>
    have hdrop := (h.live.updateMetadata t.acc.metadata).isMarker_dropLast_finish
    rw [EmitState.target_updateMetadata, h.target_eq] at hdrop
    refine ⟨?_, ?_, ?_, Or.inr hends⟩
    · simp [EndpointTranslator.transformDone, hinfer, finishOnce, h.finished]
    · simpa [EndpointTranslator.transformDone, hinfer, finishOnce, h.finished, Except.map,
        Except.toOption] using hdrop
    · simpa [h.count] using Bool.toNat_le t.terminalSeen

/-- An event that is neither JSON nor the sentinel is refused. -/
theorem Running.refuse (h : Running source target cs t out deltas) {event : SseEvent}
    (hdone : event.isDone = false) (hjson : event.json = none) :
    Running source target (cs ++ [.transform event]) t out deltas := by
  refine { h with seen := ?_, noFinish := by simpa using h.noFinish }
  rw [ends_concat, ← h.seen]
  simp [endsStream, hdone, hjson]

/-- **One call.** -/
theorem Running.call (h : Running source target cs t out deltas) (c : Call) :
    Running source target (cs ++ [c]) (t.call c).1 (out ++ (t.call c).2.toOption.getD [])
        (deltas ++ t.handed c) ∨
      Ended source target (cs ++ [c]) (t.call c).1 (out ++ (t.call c).2.toOption.getD [])
        (deltas ++ t.handed c) := by
  cases c with
  | finish =>
    rw [handed, List.append_nil]
    exact Or.inr h.finish
  | transform event =>
    cases hdone : event.isDone with
    | true => exact Or.inr (h.transformDone hdone)
    | false =>
      left
      cases hjson : event.json with
      | none =>
        simpa [EndpointTranslator.call, transform, handed, h.finished, hdone, hjson,
          Except.toOption] using h.refuse hdone hjson
      | some value =>
        simpa [EndpointTranslator.call, transform, handed, h.finished, hdone, hjson,
          Except.toOption] using h.transformValue hdone hjson

/-- Nothing happens after the end. -/
theorem Ended.call (h : Ended source target cs t out deltas) (c : Call) :
    Ended source target (cs ++ [c]) (t.call c).1 (out ++ (t.call c).2.toOption.getD [])
      (deltas ++ t.handed c) := by
  obtain ⟨hcall, hhanded⟩ := call_of_finished h.finished c
  rw [hcall, hhanded, List.append_nil]
  refine ⟨h.finished, by simpa [Except.toOption] using h.marker, h.count, ?_⟩
  rcases h.ended with hf | ⟨event, hmem, hends⟩
  · exact Or.inl (List.mem_append_left _ hf)
  · exact Or.inr ⟨event, List.mem_append_left _ hmem, hends⟩

/-! ## Runs -/

theorem emitted_concat (results : List (Except ConvertError (List SseEvent)))
    (result : Except ConvertError (List SseEvent)) :
    emitted (results ++ [result]) = emitted results ++ result.toOption.getD [] := by
  simp [emitted]

/-- Calls without a `finish` are the events they translate. -/
theorem exists_transforms {cs : List Call} (h : Call.finish ∉ cs) :
    ∃ events : List SseEvent, cs = events.map .transform := by
  induction cs with
  | nil => exact ⟨[], rfl⟩
  | cons c cs ih =>
    obtain ⟨hc, hcs⟩ := not_or.mp (mt List.mem_cons.mpr h)
    obtain ⟨events, rfl⟩ := ih hcs
    cases c with
    | transform event => exact ⟨event :: events, rfl⟩
    | finish => exact absurd rfl hc

/-- Every run is of a stream that has not ended or of one that has. -/
theorem running_or_ended (source target : Endpoint) (createdAt : Nat) (cs : List Call) :
    Running source target cs (run source target createdAt cs).1
        (emitted (run source target createdAt cs).2)
        ((new source target createdAt).handedAll cs) ∨
      Ended source target cs (run source target createdAt cs).1
        (emitted (run source target createdAt cs).2)
        ((new source target createdAt).handedAll cs) := by
  refine Machine.run_induction (fun cs t results =>
    Running source target cs t (emitted results) ((new source target createdAt).handedAll cs) ∨
      Ended source target cs t (emitted results) ((new source target createdAt).handedAll cs))
    ?_ ?_ cs
  · exact Or.inl (running_new source target createdAt)
  · intro cs c ih
    rw [emitted_concat, handedAll_concat]
    rcases ih with h | h
    · exact h.call c
    · exact Or.inr (h.call c)

section

variable (source target : Endpoint) (createdAt : Nat) (cs : List Call)

theorem countP_handedAll_le_one :
    ((new source target createdAt).handedAll cs).countP IrDelta.isFinish ≤ 1 := by
  rcases running_or_ended source target createdAt cs with h | h
  · exact h.count ▸ Bool.toNat_le _
  · exact h.count

theorem isMarker_dropLast_emitted :
    ∀ e ∈ (emitted (run source target createdAt cs).2).dropLast, isMarker target e = false := by
  rcases running_or_ended source target createdAt cs with h | h
  · exact h.isMarker_dropLast
  · exact h.marker

/-- A translator that has returned the marker has finished. -/
theorem finished_of_isMarker
    (hmarker : ∃ e ∈ emitted (run source target createdAt cs).2, isMarker target e = true) :
    (run source target createdAt cs).1.finished = true := by
  obtain ⟨e, he, hmarker⟩ := hmarker
  rcases running_or_ended source target createdAt cs with h | h
  · have hnone := h.live.noMarker e he
    rw [h.target_eq, hmarker] at hnone
    cases hnone
  · exact h.finished

variable {cs}

/-- The first `finish` fails when nothing has ended the upstream stream. -/
theorem finish_error_iff (hfirst : Call.finish ∉ cs) :
    (∃ error, (run source target createdAt cs).1.finish.2 = .error error) ↔ ¬ Ends source cs := by
  rcases running_or_ended source target createdAt cs with h | h
  · rw [← h.seen]
    cases hseen : (run source target createdAt cs).1.terminalSeen <;>
      simp [finish, finishOnce, h.finished, hseen]
  · have hfinish := congrArg Prod.snd (call_of_finished h.finished .finish).1
    have hends := h.ended.resolve_left hfirst
    simp only [EndpointTranslator.call] at hfinish
    simp [hfinish, hends]

/-- A translator whose `finish` has been called has finished. -/
theorem finished_of_mem (hmem : Call.finish ∈ cs) :
    (run source target createdAt cs).1.finished = true := by
  rcases running_or_ended source target createdAt cs with h | h
  · exact absurd hmem h.noFinish
  · exact h.finished

end

/-- Everything a run returns, with what a `finish` after it returns. -/
def wholeStream (source target : Endpoint) (createdAt : Nat) (cs : List Call) : List SseEvent :=
  emitted (run source target createdAt cs).2 ++
    (run source target createdAt cs).1.finish.2.toOption.getD []

/-- What any calls return in all is what their events up to the end return. -/
theorem wholeStream_eq (source target : Endpoint) (createdAt : Nat) (cs : List Call) :
    ∃ events : List SseEvent, wholeStream source target createdAt cs =
      wholeStream source target createdAt (events.map .transform) := by
  induction cs using List.reverseRecOn with
  | nil => exact ⟨[], rfl⟩
  | append_singleton cs c ih =>
    obtain ⟨events, ih⟩ := ih
    have hconcat : wholeStream source target createdAt (cs ++ [c]) =
        emitted (run source target createdAt cs).2 ++
          (((run source target createdAt cs).1.call c).2.toOption.getD [] ++
            ((run source target createdAt cs).1.call c).1.finish.2.toOption.getD []) := by
      rw [wholeStream, run, Machine.run_concat, emitted_concat, List.append_assoc]
      rfl
    by_cases hfin : (run source target createdAt cs).1.finished = true
    · refine ⟨events, ?_⟩
      rw [hconcat, (call_of_finished hfin c).1, ← ih]
      rfl
    · rcases running_or_ended source target createdAt cs with h | h
      · cases c with
        | finish =>
          refine ⟨events, ?_⟩
          have hfinished : (run source target createdAt cs).1.finish.1.finished = true :=
            h.finish.finished
          have hagain := congrArg Prod.snd (call_of_finished hfinished .finish).1
          simp only [EndpointTranslator.call] at hagain
          rw [hconcat, ← ih, EndpointTranslator.call, hagain]
          simp [wholeStream, Except.toOption]
        | transform event =>
          obtain ⟨events', rfl⟩ := exists_transforms h.noFinish
          exact ⟨events' ++ [event], by rw [List.map_append, List.map_singleton]⟩
      · exact absurd h.finished hfin

end EndpointTranslator

end Tokn.Convert
