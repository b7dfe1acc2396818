import Tokn.Convert.Wire
import Tokn.Lib.Machine

/-!
# Runs of the translator

A run is any list of calls on a new translator. The first terminal event of a run is the only one
that hands a finish delta to the emitter.
-/

namespace Tokn.Convert

open Value

/-- A call on a translator. -/
inductive Call where
  | transform (event : SseEvent)
  | finish
  deriving DecidableEq

namespace EndpointTranslator

def call (t : EndpointTranslator) :
    Call → EndpointTranslator × Except ConvertError (List SseEvent)
  | .transform event => t.transform event
  | .finish => t.finish

/-- The translator after some calls, and their results. -/
def run (source target : Endpoint) (createdAt : Nat) (calls : List Call) :
    EndpointTranslator × List (Except ConvertError (List SseEvent)) :=
  Machine.run call (new source target createdAt) calls

/-- The deltas a call hands to the emitter. -/
def handed (t : EndpointTranslator) : Call → List IrDelta
  | .finish => []
  | .transform event =>
    if t.finished then []
    else if event.isDone then
      if t.inferResponsesFinish then [.finish (some "tool_calls")] else []
    else match event.json with
      | none => []
      | some value => (t.settled value).2

/-- The deltas handed to the emitter by all calls. -/
def handedAll (t : EndpointTranslator) : List Call → List IrDelta
  | [] => []
  | c :: cs => t.handed c ++ (t.call c).1.handedAll cs

end EndpointTranslator

/-- The events the calls returned. -/
def emitted (results : List (Except ConvertError (List SseEvent))) : List SseEvent :=
  results.flatMap fun result => result.toOption.getD []

/-! ## The finish delta -/

namespace EndpointTranslator

theorem any_isFinish_eq_countP (deltas : List IrDelta) :
    deltas.any IrDelta.isFinish = decide (0 < deltas.countP IrDelta.isFinish) := by
  rw [Bool.eq_iff_iff, List.any_eq_true, decide_eq_true_iff, List.countP_pos_iff]

theorem countP_isFinish_filter (deltas : List IrDelta) :
    (deltas.filter fun delta => !delta.isFinish).countP IrDelta.isFinish = 0 := by
  rw [List.countP_eq_zero]
  intro delta hd
  simpa using (List.mem_filter.mp hd).2

theorem countP_isFinish_setFinish (reason : Option String) (deltas : List IrDelta)
    (h : deltas.countP IrDelta.isFinish ≤ 1) :
    (setFinish reason deltas).countP IrDelta.isFinish = 1 := by
  have hmap : (deltas.map fun delta => if delta.isFinish then .finish reason else delta).countP
      IrDelta.isFinish = deltas.countP IrDelta.isFinish := by
    rw [List.countP_map]
    congr 1
    funext delta
    cases delta <;> rfl
  unfold setFinish
  rw [any_isFinish_eq_countP]
  by_cases hpos : 0 < deltas.countP IrDelta.isFinish
  · rw [decide_eq_true hpos, if_pos rfl, hmap]
    omega
  · have hzero : deltas.countP IrDelta.isFinish = 0 := by omega
    simp [hmap, hzero]

/-- **One finish delta.** The finish deltas that are handed on are counted by the flag. -/
theorem countP_isFinish_settle (seen : Bool) (terminal : Option (Option String))
    (deltas : List IrDelta) (h : deltas.countP IrDelta.isFinish ≤ terminal.isSome.toNat) :
    (settle seen terminal deltas).1 = (seen || terminal.isSome) ∧
      seen.toNat + (settle seen terminal deltas).2.countP IrDelta.isFinish =
        (settle seen terminal deltas).1.toNat := by
  cases terminal with
  | none =>
    have hzero : deltas.countP IrDelta.isFinish = 0 := by simpa using h
    simp [settle, any_isFinish_eq_countP, hzero]
  | some reason =>
    cases seen
    · simpa [settle] using countP_isFinish_setFinish reason deltas (by simpa using h)
    · simp [settle, countP_isFinish_filter]

variable {t : EndpointTranslator}

/-- What a JSON event does to the flag and how many finish deltas it hands on. -/
theorem settled_spec (h : t.acc.endpoint = t.source) (value : Value) :
    (t.settled value).1 = (t.terminalSeen || isTerminal t.source value) ∧
      t.terminalSeen.toNat + (t.settled value).2.countP IrDelta.isFinish =
        (t.settled value).1.toNat := by
  have hcount := countP_isFinish_decode t.acc value
  rw [h, ← terminalReason_isSome t.source value (t.acc.pushValue value).1
    (t.acc.pushValue value).2] at hcount
  rw [← terminalReason_isSome t.source value (t.acc.pushValue value).1 (t.acc.pushValue value).2]
  exact countP_isFinish_settle t.terminalSeen _ _ hcount

/-- Settling changes finish deltas only. -/
theorem filter_settle (p : IrDelta → Bool) (hp : ∀ reason, p (.finish reason) = false) (seen : Bool)
    (terminal : Option (Option String)) (deltas : List IrDelta) :
    (settle seen terminal deltas).2.filter p = deltas.filter p := by
  have hdrop : (deltas.filter fun delta => !delta.isFinish).filter p = deltas.filter p := by
    rw [List.filter_filter]
    congr 1
    funext delta
    cases delta <;> simp [hp]
  have hmap (reason : Option String) :
      (deltas.map fun delta => if delta.isFinish then .finish reason else delta).filter p =
        deltas.filter p := by
    clear hdrop
    induction deltas with
    | nil => rfl
    | cons delta deltas ih =>
      cases delta <;> simp [List.filter_cons, hp, ih]
  unfold settle
  split
  · split
    · exact hdrop
    · unfold setFinish
      dsimp only
      split_ifs
      · exact hmap _
      · simp [hmap, hp]
  · split
    · split
      · exact hdrop
      · rfl
    · rfl

/-! ## JSON objects

A run over events that are JSON objects, without their text: an object is never the sentinel. -/

/-- The event of an object, under an event name. -/
def jsonEvent (o : Option String × List (String × Value)) : SseEvent := .ofJson o.1 (obj o.2)

/-- The translator after some objects, and the events it returned. -/
def feed (t : EndpointTranslator) :
    List (Option String × List (String × Value)) → EndpointTranslator × List SseEvent
  | [] => (t, [])
  | o :: os =>
    let r := t.transformValue (obj o.2)
    ((r.1.feed os).1, r.2 ++ (r.1.feed os).2)

/-- The deltas that some objects hand to the emitter. -/
def feedDeltas (t : EndpointTranslator) :
    List (Option String × List (String × Value)) → List IrDelta
  | [] => []
  | o :: os => (t.settled (obj o.2)).2 ++ (t.transformValue (obj o.2)).1.feedDeltas os

theorem transform_jsonEvent (h : t.finished = false) (o : Option String × List (String × Value)) :
    t.transform (jsonEvent o) =
      ((t.transformValue (obj o.2)).1, .ok (t.transformValue (obj o.2)).2) := by
  simp [transform, h, jsonEvent, SseEvent.isDone_ofJson_obj]

theorem run_jsonEvents (h : t.finished = false) (os : List (Option String × List (String × Value)))
    (cs : List Call) :
    (Machine.run call t ((os.map fun o => .transform (jsonEvent o)) ++ cs)).1 =
        (Machine.run call (t.feed os).1 cs).1 ∧
      emitted (Machine.run call t ((os.map fun o => .transform (jsonEvent o)) ++ cs)).2 =
        (t.feed os).2 ++ emitted (Machine.run call (t.feed os).1 cs).2 := by
  induction os generalizing t with
  | nil => exact ⟨rfl, rfl⟩
  | cons o os ih =>
    have hnext : (t.transformValue (obj o.2)).1.finished = false := h
    obtain ⟨hstate, hemitted⟩ := ih hnext
    rw [List.map_cons, List.cons_append, Machine.run_cons, call, transform_jsonEvent h]
    refine ⟨hstate, ?_⟩
    rw [emitted, List.flatMap_cons, feed, List.append_assoc, ← hemitted]
    rfl

theorem handedAll_jsonEvents (h : t.finished = false)
    (os : List (Option String × List (String × Value))) (cs : List Call) :
    t.handedAll ((os.map fun o => .transform (jsonEvent o)) ++ cs) =
      t.feedDeltas os ++ (t.feed os).1.handedAll cs := by
  induction os generalizing t with
  | nil => rfl
  | cons o os ih =>
    have hnext : (t.transformValue (obj o.2)).1.finished = false := h
    have hhanded : t.handed (.transform (jsonEvent o)) = (t.settled (obj o.2)).2 := by
      simp [handed, h, jsonEvent, SseEvent.isDone_ofJson_obj]
    rw [List.map_cons, List.cons_append, handedAll, call, transform_jsonEvent h, ih hnext, hhanded,
      feedDeltas, List.append_assoc]
    rfl

end EndpointTranslator

end Tokn.Convert
