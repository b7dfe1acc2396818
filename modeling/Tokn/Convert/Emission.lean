import Tokn.Convert.Termination

/-!
# What a translator emits

An account of the emitter of a target endpoint says what its events are, while its stream is open
and once it is closed, in terms of the deltas handed to it so far. An account that the methods of
the emitter keep holds of every run of the translator.
-/

namespace Tokn.Convert

/-- What the emitter of a target has emitted for the deltas so far. -/
structure Account (target : Endpoint) where
  /-- The stream is open. -/
  Open : EmitState → List SseEvent → List IrDelta → Prop
  /-- The stream has been ended by `finish`. -/
  Closed : List SseEvent → List IrDelta → Prop
  new (createdAt : Nat) : Open (.new target createdAt) [] []
  updateMetadata {s : EmitState} {out : List SseEvent} {deltas : List IrDelta}
    (h : Open s out deltas) (metadata : SseMetadata) : Open (s.updateMetadata metadata) out deltas
  emit {s : EmitState} {out : List SseEvent} {deltas : List IrDelta} (h : Open s out deltas)
    (deltas' : List IrDelta) :
    Open (s.emit deltas').1 (out ++ (s.emit deltas').2) (deltas ++ deltas')
  finish {s : EmitState} {out : List SseEvent} {deltas : List IrDelta} (h : Open s out deltas) :
    Closed (out ++ s.finish.2) deltas

namespace EndpointTranslator

theorem finished_transformDone (t : EndpointTranslator) : t.transformDone.1.finished = true := by
  simp only [transformDone, finishOnce]
  split_ifs <;> simp_all

variable {target : Endpoint} (account : Account target)

/-- The account of a translator. -/
def Accounts (t : EndpointTranslator) (out : List SseEvent) (deltas : List IrDelta) : Prop :=
  t.finished = false ∧ account.Open t.emit out deltas ∨
    t.finished = true ∧ account.Closed out deltas

variable {account} {t : EndpointTranslator} {out : List SseEvent} {deltas : List IrDelta}

theorem accounts_transform (h : Accounts account t out deltas) (event : SseEvent) :
    Accounts account (t.transform event).1 (out ++ (t.transform event).2.toOption.getD [])
      (deltas ++ t.handed (.transform event)) := by
  obtain ⟨hfin, hopen⟩ | ⟨hfin, hclosed⟩ := h
  · cases hdone : event.isDone with
    | true =>
      have htransform : t.transform event = t.transformDone := by simp [transform, hfin, hdone]
      have hhanded : t.handed (.transform event) =
          if t.inferResponsesFinish then [.finish (some "tool_calls")] else [] := by
        simp [handed, hfin, hdone]
      rw [htransform, hhanded]
      refine Or.inr ⟨t.finished_transformDone, ?_⟩
      cases hinfer : t.inferResponsesFinish with
      | true =>
        have hclosed := account.finish
          (account.updateMetadata (account.emit hopen [.finish (some "tool_calls")])
            t.acc.metadata)
        simpa [transformDone, hinfer, finishOnce, hfin, Except.map, Except.toOption] using hclosed
      | false =>
        have hclosed := account.finish (account.updateMetadata hopen t.acc.metadata)
        simpa [transformDone, hinfer, finishOnce, hfin, Except.map, Except.toOption] using hclosed
    | false =>
      cases hjson : event.json with
      | none =>
        left
        simpa [transform, handed, hfin, hdone, hjson, Except.toOption] using hopen
      | some value =>
        have hhanded : t.handed (.transform event) = (t.settled value).2 := by
          simp [handed, hfin, hdone, hjson]
        have htransform : t.transform event =
            ((t.transformValue value).1, .ok (t.transformValue value).2) := by
          simp [transform, hfin, hdone, hjson]
        rw [htransform, hhanded]
        exact Or.inl ⟨hfin, account.emit (account.updateMetadata hopen _) _⟩
  · obtain ⟨hcall, hhanded⟩ := call_of_finished hfin (.transform event)
    rw [hhanded, show t.transform event = (t, .ok []) from hcall]
    exact Or.inr ⟨hfin, by simpa [Except.toOption] using hclosed⟩

/-- A `finish` that does not fail. -/
theorem accounts_finish (h : Accounts account t out deltas)
    (hseen : t.finished = false → t.terminalSeen = true) :
    ∃ tail, t.finish.2 = .ok tail ∧ account.Closed (out ++ tail) deltas := by
  obtain ⟨hfin, hopen⟩ | ⟨hfin, hclosed⟩ := h
  · refine ⟨(t.emit.updateMetadata t.acc.metadata).finish.2, ?_,
      account.finish (account.updateMetadata hopen t.acc.metadata)⟩
    simp [finish, finishOnce, hfin, hseen hfin]
  · exact ⟨[], by simp [finish, finishOnce, hfin], by rwa [List.append_nil]⟩

variable (account)

/-- **Every run.** -/
theorem accounts_run (source : Endpoint) (createdAt : Nat) (events : List SseEvent) :
    Accounts account (run source target createdAt (events.map .transform)).1
      (emitted (run source target createdAt (events.map .transform)).2)
      ((new source target createdAt).handedAll (events.map .transform)) := by
  induction events using List.reverseRecOn with
  | nil => exact Or.inl ⟨rfl, account.new createdAt⟩
  | append_singleton events event ih =>
    rw [List.map_append, List.map_singleton, run, Machine.run_concat, emitted_concat,
      handedAll_concat]
    exact accounts_transform ih event

/-- **A stream that ended.** The next `finish` succeeds, and closes the stream if the sentinel
has not. -/
theorem closed_of_ends (source : Endpoint) (createdAt : Nat) (events : List SseEvent)
    (hends : Ends source (events.map .transform)) :
    ∃ tail, (run source target createdAt (events.map .transform)).1.finish.2 = .ok tail ∧
      account.Closed
        (emitted (run source target createdAt (events.map .transform)).2 ++ tail)
        ((new source target createdAt).handedAll (events.map .transform)) := by
  refine accounts_finish (accounts_run account source createdAt events) fun hfin => ?_
  rcases running_or_ended source target createdAt (events.map .transform) with h | h
  · exact h.seen.mpr hends
  · rw [h.finished] at hfin
    cases hfin

/-- **A stream that has not ended.** The next `finish` fails. -/
theorem open_of_not_ends (source : Endpoint) (createdAt : Nat) (events : List SseEvent)
    (hends : ¬ Ends source (events.map .transform)) :
    (run source target createdAt (events.map .transform)).1.finish.2 =
        .error (.sse "upstream stream ended before a terminal event") ∧
      account.Open (run source target createdAt (events.map .transform)).1.emit
        (emitted (run source target createdAt (events.map .transform)).2)
        ((new source target createdAt).handedAll (events.map .transform)) := by
  rcases running_or_ended source target createdAt (events.map .transform) with h | h
  · have hseen : (run source target createdAt (events.map .transform)).1.terminalSeen = false := by
      simpa [← h.seen] using hends
    obtain ⟨-, hopen⟩ | ⟨hfin, -⟩ := accounts_run account source createdAt events
    · refine ⟨?_, hopen⟩
      simp only [finish, finishOnce, h.finished, hseen, Bool.false_eq_true, if_false, if_true]
    · rw [h.finished] at hfin
      cases hfin
  · exact absurd (h.ended.resolve_left (by simp)) hends

end EndpointTranslator

end Tokn.Convert
