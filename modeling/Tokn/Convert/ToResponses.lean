import Tokn.Convert.Upstream

/-!
# Translation to Responses

**Theorem (`responses_lifecycle`).** Whatever the upstream protocol and however its deltas are cut
into events, a stream that ended is a complete Responses stream, and one that did not is the
beginning of such a stream followed by an error. Its messages hold exactly the text of the
upstream events.
-/

namespace Tokn.Convert

open Value

namespace EndpointTranslator

/-! ## The items that are emitted -/

/-- The account of a Responses target: the items the deltas are cut into. -/
def responsesAccount : Account .responses where
  Open s out deltas := s.target = .responses ∧ s.finished = false ∧
    s.Tracks out (Items.ofDeltas deltas)
  Closed out deltas := Lifecycle out (Items.ofDeltas deltas).all
  new createdAt := ⟨rfl, rfl, EmitState.tracks_new createdAt⟩
  updateMetadata := fun ⟨htarget, hfin, htracks⟩ metadata =>
    ⟨by simpa using htarget, by simpa using hfin, htracks.updateMetadata metadata⟩
  emit := fun ⟨htarget, hfin, htracks⟩ deltas' => by
    refine ⟨by simpa using htarget, by simpa using hfin, ?_⟩
    rw [Items.ofDeltas, List.foldl_append]
    exact htracks.emit htarget deltas'
  finish := fun ⟨htarget, hfin, htracks⟩ =>
    htracks.lifecycle htarget hfin (Items.placed_ofDeltas _)

/-- **The lifecycle of a translated stream.** A stream that ended is a complete Responses stream; one
that did not ends in an error, without a terminal event, and is the beginning of a complete one.
Either way its messages hold the text of the upstream events. -/
theorem responses_lifecycle (source : Endpoint) (createdAt : Nat) (events : List SseEvent) :
    let r := run source .responses createdAt (events.map .transform)
    ∃ items, String.join (items.map OutputItem.messageText) = upstreamText source events ∧
      (Ends source (events.map .transform) →
        ∃ tail, r.1.finish.2 = .ok tail ∧ Lifecycle (emitted r.2 ++ tail) items) ∧
      (¬ Ends source (events.map .transform) →
        r.1.finish.2 = .error (.sse "upstream stream ended before a terminal event") ∧
        (∀ e ∈ emitted r.2, isMarker .responses e = false) ∧
        ∃ rest, Lifecycle (emitted r.2 ++ rest) items) := by
  intro r
  have htext : String.join ((Items.ofDeltas ((new source .responses createdAt).handedAll
      (events.map .transform))).all.map OutputItem.messageText) = upstreamText source events :=
    (Items.messageText_ofDeltas _).trans (textOf_handedAll rfl rfl events)
  refine ⟨_, htext, closed_of_ends responsesAccount source createdAt events, fun hends => ?_⟩
  obtain ⟨herror, htarget, hfin, htracks⟩ :=
    open_of_not_ends responsesAccount source createdAt events hends
  refine ⟨herror, ?_, _, htracks.lifecycle htarget hfin (Items.placed_ofDeltas _)⟩
  obtain ⟨emitter, -, hem⟩ := htracks
  exact hem.isMarker

/-- A Chat Completions stream that is cut after its first chunk. -/
def partialStream : List (Option String × List (String × Value)) :=
  [(none, [("choices", .array [obj [("index", nat 0), ("delta", obj [("content", .string "partial")]),
    ("finish_reason", .null)]])])]

/-- Such a stream is opened but never gets a terminal event. -/
theorem partialStream_not_lifecycle :
    ¬ ∃ items, Lifecycle (emitted (run .chatCompletions .responses 0
      ((partialStream.map fun o => .transform (jsonEvent o)) ++ [.finish])).2) items := by
  rintro ⟨items, h⟩
  obtain ⟨inner, last, hout, hlast, -⟩ := h.terminal
  rw [run, (run_jsonEvents rfl partialStream [.finish]).2] at hout
  have hnone : (((new .chatCompletions .responses 0).feed partialStream).2 ++ emitted (Machine.run
      call ((new .chatCompletions .responses 0).feed partialStream).1 [.finish]).2).getLast?.any
      (isMarker .responses) = false := by decide
  rw [hout, List.getLast?_concat] at hnone
  simp [isMarker, hlast] at hnone

end EndpointTranslator

end Tokn.Convert
