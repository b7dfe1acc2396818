import Tokn.Convert.Emission

/-!
# What reaches the emitter

What is gathered from the deltas handed to the emitter is gathered from the upstream values one by
one, as long as finish deltas add nothing to it: the text of a stream, and its usage.
-/

namespace Tokn.Convert

open Value

namespace EndpointTranslator

/-- The JSON values that are translated: those before the sentinel. -/
def upstreamValues (events : List SseEvent) : List Value :=
  (events.takeWhile fun e => !e.isDone).filterMap SseEvent.json

theorem upstreamValues_jsonEvents (os : List (Option String × List (String × Value))) :
    upstreamValues (os.map jsonEvent) = os.map fun o => obj o.2 := by
  induction os with
  | nil => rfl
  | cons o os ih =>
    rw [List.map_cons, List.map_cons, ← ih]
    simp [upstreamValues, jsonEvent, SseEvent.isDone_ofJson_obj]

theorem ends_jsonEvents (source : Endpoint) (os : List (Option String × List (String × Value))) :
    Ends source ((os.map jsonEvent).map .transform) ↔
      os.any (fun o => isTerminal source (obj o.2)) = true := by
  simp [Ends, jsonEvent, endsStream, SseEvent.isDone_ofJson_obj]

theorem handedAll_of_finished {t : EndpointTranslator} (h : t.finished = true) (cs : List Call) :
    t.handedAll cs = [] := by
  induction cs with
  | nil => rfl
  | cons c cs ih =>
    obtain ⟨hcall, hhanded⟩ := call_of_finished h c
    rw [handedAll, hhanded, hcall, ih, List.append_nil]

section

variable {β : Type*} {gather : List IrDelta → β} {op : β → β → β}

/-- Something gathered delta by delta, to which finish deltas add nothing. -/
structure Gathers (gather : List IrDelta → β) (op : β → β → β) : Prop where
  append (as bs : List IrDelta) : gather (as ++ bs) = op (gather as) (gather bs)
  nil (x : β) : op (gather []) x = x
  finish (reason : Option String) : gather [.finish reason] = gather []

theorem Gathers.filter (h : Gathers gather op) (deltas : List IrDelta) :
    gather (deltas.filter fun delta => !delta.isFinish) = gather deltas := by
  induction deltas with
  | nil => rfl
  | cons delta deltas ih =>
    rw [← List.singleton_append, List.filter_append, h.append, h.append, ih]
    cases delta with
    | finish reason => simp [h.finish]
    | _ => rfl

theorem Gathers.settled (h : Gathers gather op) (t : EndpointTranslator) (value : Value) :
    gather (t.settled value).2 = gather (t.acc.decode value).2 := by
  rw [← h.filter, EndpointTranslator.settled]
  simp only [filter_settle (fun delta => !delta.isFinish) fun _ => rfl]
  exact h.filter _

/-- **Gathering.** What is gathered from a run is gathered from its upstream values. -/
theorem Gathers.handedAll (h : Gathers gather op)
    {source : Endpoint} {wire : Value → β}
    (hwire : ∀ acc : SseAccumulator, acc.endpoint = source →
      ∀ value, gather (acc.decode value).2 = wire value)
    {t : EndpointTranslator} (hfin : t.finished = false) (hsource : t.acc.endpoint = source)
    (events : List SseEvent) :
    gather (t.handedAll (events.map .transform)) =
      ((upstreamValues events).map wire).foldr op (gather []) := by
  induction events generalizing t with
  | nil => rfl
  | cons event events ih =>
    rw [List.map_cons, EndpointTranslator.handedAll, h.append]
    cases hdone : event.isDone with
    | true =>
      have hnext : (t.call (.transform event)).1.finished = true := by
        simp [call, transform, hfin, hdone, finished_transformDone]
      have hhanded : gather (t.handed (.transform event)) = gather [] := by
        simp only [handed, hfin, hdone, Bool.false_eq_true, if_false, if_true]
        split_ifs
        · exact h.finish _
        · rfl
      rw [handedAll_of_finished hnext, hhanded, h.nil]
      simp [upstreamValues, hdone]
    | false =>
      cases hjson : event.json with
      | none =>
        have hcall : (t.call (.transform event)).1 = t := by
          simp [call, transform, hfin, hdone, hjson]
        have hhanded : t.handed (.transform event) = [] := by simp [handed, hfin, hdone, hjson]
        rw [hcall, ih hfin hsource, hhanded, h.nil]
        simp [upstreamValues, hdone, hjson]
      | some value =>
        have hcall : (t.call (.transform event)).1 = (t.transformValue value).1 := by
          simp [call, transform, hfin, hdone, hjson]
        have hhanded : t.handed (.transform event) = (t.settled value).2 := by
          simp [handed, hfin, hdone, hjson]
        have hnext : (t.transformValue value).1.acc.endpoint = source :=
          (t.acc.endpoint_pushValue value).trans hsource
        have hrest : gather ((t.transformValue value).1.handedAll (events.map .transform)) =
            ((upstreamValues events).map wire).foldr op (gather []) := ih hfin hnext
        rw [hcall, hhanded, h.settled, hwire t.acc hsource, hrest]
        simp [upstreamValues, hdone, hjson]

end

/-! ## Text -/

/-- The text of an upstream stream. -/
def upstreamText (source : Endpoint) (events : List SseEvent) : String :=
  String.join ((upstreamValues events).map (textDelta source))

/-- The text of what is handed to the emitter is the text of the upstream events. -/
theorem textOf_handedAll {t : EndpointTranslator} (hfin : t.finished = false)
    {source : Endpoint} (hsource : t.acc.endpoint = source) (events : List SseEvent) :
    String.join ((t.handedAll (events.map .transform)).map IrDelta.textOf) =
      upstreamText source events := by
  have hjoin (ss : List String) : ss.foldr (· ++ ·) "" = String.join ss := by
    induction ss with
    | nil => rfl
    | cons s ss ih => rw [List.foldr_cons, ih, String.join_cons]
  have hgathers : Gathers (fun deltas => String.join (deltas.map IrDelta.textOf)) (· ++ ·) := by
    refine ⟨fun as bs => ?_, fun s => String.empty_append, fun reason => by simp⟩
    rw [List.map_append, String.join_append]
  refine (hgathers.handedAll ?_ hfin hsource events).trans (hjoin _)
  rintro acc rfl value
  exact textOf_decode acc value

end EndpointTranslator

/-! ## Usage -/

/-- The usage a delta reports. -/
def IrDelta.usage? : IrDelta → Option Usage
  | .usage u => some u
  | .text _ | .reasoning _ | .toolCall .. | .finish _ => none

/-- The usages that some deltas report. -/
def usages (deltas : List IrDelta) : List Usage := deltas.filterMap IrDelta.usage?

/-- The usage of a stream, as the emitter and the accumulator merge it. -/
def mergedUsage (deltas : List IrDelta) : Option Usage :=
  (usages deltas).foldl (fun merged update => some (mergeUsage merged update)) none

theorem usage?_fillToolCall (items : BTreeMap Nat ResponseOutputItem) (delta : IrDelta) :
    (SseAccumulator.fillToolCall items delta).usage? = delta.usage? := by
  cases delta with
  | toolCall index id name argumentsDelta =>
    unfold SseAccumulator.fillToolCall
    dsimp only
    split <;> rfl
  | _ => rfl

theorem usage?_fillFinish (reason : String) (delta : IrDelta) :
    (SseAccumulator.fillFinish reason delta).usage? = delta.usage? := by cases delta <;> rfl

/-- Decoding fills in what an event leaves out, but no usage. -/
theorem usages_decode (acc : SseAccumulator) (value : Value) :
    usages (acc.decode value).2 = usages (wireDeltas acc.endpoint value) := by
  cases hsource : acc.endpoint with
  | chatCompletions => simp only [SseAccumulator.decode, hsource, wireDeltas]
  | responses =>
    simp only [SseAccumulator.decode, hsource, SseAccumulator.deltaFromResponsesEvent, wireDeltas,
      usages, List.filterMap_map, Function.comp_def, usage?_fillToolCall]
    split_ifs
    · rw [List.filterMap_map]
      congr 1
      funext delta
      exact usage?_fillFinish _ delta
    · rfl
  | messages =>
    obtain ⟨filled, hd, hfilled⟩ := SseAccumulator.decode_messages hsource value
    have hnone : usages filled = [] := by rcases hfilled with rfl | rfl <;> rfl
    rw [hd, usages, List.filterMap_append, ← usages, ← usages, hnone, List.append_nil]
    rfl

namespace EndpointTranslator

/-- The usages of an upstream stream. -/
def upstreamUsages (source : Endpoint) (events : List SseEvent) : List Usage :=
  (upstreamValues events).flatMap fun value => usages (wireDeltas source value)

/-- The emitter is handed the usages of the upstream events. -/
theorem usages_handedAll (source target : Endpoint) (createdAt : Nat) (events : List SseEvent) :
    usages ((new source target createdAt).handedAll (events.map .transform)) =
      upstreamUsages source events := by
  have hgathers : Gathers usages (· ++ ·) :=
    ⟨fun as bs => List.filterMap_append, fun us => rfl, fun reason => rfl⟩
  have hflat (values : List Value) (wire : Value → List Usage) :
      (values.map wire).foldr (· ++ ·) [] = values.flatMap wire := by
    induction values with
    | nil => rfl
    | cons value values ih => rw [List.map_cons, List.foldr_cons, ih, List.flatMap_cons]
  refine (hgathers.handedAll ?_ rfl rfl events).trans (hflat _ _)
  rintro acc rfl value
  exact usages_decode acc value

end EndpointTranslator

end Tokn.Convert
