import Tokn.Convert.Pipeline
import Tokn.Requests.Delivery

/-!
# Streamed responses

`convert_response` hands over a body that is translated while it is read. What has been read from
upstream and what the client is given are both noted with the accumulator, which decides at the
end whether the attempt succeeded.

**Theorem (`judged_iff`).** The verdict on a body that was read to its end is that of the upstream
protocol if and only if the frames of the inbound protocol, which are the ones that are looked at,
give the same verdict.
-/

namespace Tokn.Requests

open Tokn.Convert (Endpoint EndpointTranslator EventSource SseEvent)

/-! ## Reading a body to its end -/

section

variable (fromStr : String → Option Value)

/-- Events that the source completes go through the pipeline, up to the first error. What is left
is the transformer, or nothing after an error. -/
def processAll (transformer : Option EndpointTranslator) :
    List (Except String (String × String)) → List AccumMsg × Option (Option EndpointTranslator)
  | [] => ([], some transformer)
  | .error err :: _ => ([.convertedError err], none)
  | .ok parsed :: rest =>
    match Convert.processEvent transformer (SseEvent.ofParsed fromStr parsed) with
    | (_, .error err) => ([.convertedError err], none)
    | (transformer, .ok items) =>
      let (msgs, left) := processAll transformer rest
      (items.map .converted ++ msgs, left)

/-- The end of the transformers. -/
def finishAll (transformer : Option EndpointTranslator) : List AccumMsg :=
  match Convert.finishTransformers transformer with
  | .error err => [.convertedError err]
  | .ok items => items.map .converted

variable (source : EventSource)

/-- What is noted while the client reads the body to its end: each chunk, and what the events it
completes are converted to. After an error the body is not read on. -/
def drainFrom (transformer : Option EndpointTranslator) (parser : source.State) :
    List (Except String Bytes) → List AccumMsg
  | [] =>
    let (msgs, left) := processAll fromStr transformer (source.finish parser)
    msgs ++ (left.map finishAll).getD []
  | .error err :: _ => [.upstreamError err, .convertedError (source.transportError err)]
  | .ok bytes :: chunks =>
    let (parser, parsed) := source.push parser bytes
    let (msgs, left) := processAll fromStr transformer parsed
    .upstream bytes :: msgs ++
      (left.map fun transformer => drainFrom transformer parser chunks).getD []

/-- What is noted of a body from the beginning, between an upstream and an inbound endpoint. -/
def drain (upstream inbound : Endpoint) (createdAt : Nat) (chunks : List (Except String Bytes)) :
    List AccumMsg :=
  drainFrom fromStr source (Convert.transformerFor upstream inbound createdAt) source.init chunks

end

/-! ## What the accumulator has at the end -/

def AccumMsg.isConvertedError : AccumMsg → Bool
  | .convertedError _ => true
  | .upstream _ | .converted _ | .upstreamError _ | .finish => false

/-- The translation gives no error. -/
def Converts (msgs : List AccumMsg) : Prop := msgs.all (fun msg => !msg.isConvertedError) = true

instance (msgs : List AccumMsg) : Decidable (Converts msgs) :=
  inferInstanceAs (Decidable (_ = true))

/-- The bytes of a body that is read without an error. -/
def bodyOf (chunks : List (Except String Bytes)) : Bytes :=
  (chunks.filterMap fun
    | .ok bytes => some bytes
    | .error _ => none).flatten

theorem converts_append (as bs : List AccumMsg) :
    Converts (as ++ bs) ↔ Converts as ∧ Converts bs := by
  rw [Converts, List.all_append, Bool.and_eq_true]
  rfl

/-- An error that is received stays. -/
theorem isSome_convertedError_foldl (msgs : List AccumMsg) (acc : Accum) :
    (msgs.foldl Accum.receive acc).convertedError.isSome = true ↔
      acc.convertedError.isSome = true ∨ ¬ Converts msgs := by
  induction msgs generalizing acc with
  | nil => simp [Converts]
  | cons msg msgs ih =>
    rw [List.foldl_cons, ih]
    cases msg <;> simp [Accum.receive, Converts, AccumMsg.isConvertedError]

/-- A message of the client's side. -/
def AccumMsg.isClient : AccumMsg → Bool
  | .converted _ | .convertedError _ => true
  | .upstream _ | .upstreamError _ | .finish => false

variable {msgs : List AccumMsg} {task : AccumTask}

/-- The client's side leaves what was noted of upstream alone. -/
theorem foldl_client (h : ∀ msg ∈ msgs, msg.isClient = true) (acc : Accum) :
    (msgs.foldl Accum.receive acc).upstream = acc.upstream ∧
      (msgs.foldl Accum.receive acc).upstreamError = acc.upstreamError := by
  induction msgs generalizing acc with
  | nil => exact ⟨rfl, rfl⟩
  | cons msg msgs ih =>
    have hmsg := h msg List.mem_cons_self
    have hrest := ih (fun m hm => h m (List.mem_cons_of_mem _ hm)) (acc.receive msg)
    rw [List.foldl_cons, hrest.1, hrest.2]
    cases msg <;> first | exact ⟨rfl, rfl⟩ | cases hmsg

theorem converts_map_converted (items : List Bytes) : Converts (items.map .converted) := by
  rw [Converts, List.all_eq_true]
  intro msg hmsg
  obtain ⟨bytes, -, rfl⟩ := List.mem_map.mp hmsg
  rfl

theorem isClient_of_mem_map {items : List Bytes} :
    ∀ msg ∈ items.map AccumMsg.converted, msg.isClient = true := by
  intro msg hmsg
  obtain ⟨bytes, -, rfl⟩ := List.mem_map.mp hmsg
  rfl

section

variable {fromStr : String → Option Value}

/-- Events are processed to the last unless one gives an error, which is noted. -/
theorem processAll_spec (transformer : Option EndpointTranslator)
    (parsed : List (Except String (String × String))) :
    (∀ msg ∈ (processAll fromStr transformer parsed).1, msg.isClient = true) ∧
    (Converts (processAll fromStr transformer parsed).1 ↔
      (processAll fromStr transformer parsed).2.isSome = true) := by
  induction parsed generalizing transformer with
  | nil => simp [processAll, Converts]
  | cons p rest ih =>
    cases p with
    | error err => simp [processAll, Converts, AccumMsg.isConvertedError, AccumMsg.isClient]
    | ok parsed =>
      rw [processAll]
      split
      · simp [Converts, AccumMsg.isConvertedError, AccumMsg.isClient]
      · rename_i transformer' items hprocess
        obtain ⟨hclient, hconverts⟩ := ih transformer'
        refine ⟨fun msg hmsg => ?_, ?_⟩
        · rcases List.mem_append.mp hmsg with h | h
          · exact isClient_of_mem_map msg h
          · exact hclient msg h
        · show Converts (items.map .converted ++ _) ↔ _
          rw [converts_append, hconverts]
          exact and_iff_right (converts_map_converted items)

theorem finishAll_client (transformer : Option EndpointTranslator) :
    ∀ msg ∈ finishAll transformer, msg.isClient = true := by
  rw [finishAll]
  split
  · simp [AccumMsg.isClient]
  · exact isClient_of_mem_map

theorem drainFrom_ok (source : EventSource) (transformer : Option EndpointTranslator)
    (parser : source.State) (bytes : Bytes) (chunks : List (Except String Bytes)) :
    drainFrom fromStr source transformer parser (.ok bytes :: chunks) =
      .upstream bytes :: ((processAll fromStr transformer (source.push parser bytes).2).1 ++
        ((processAll fromStr transformer (source.push parser bytes).2).2.map fun transformer =>
          drainFrom fromStr source transformer (source.push parser bytes).1 chunks).getD []) := rfl

/-- **What a body that converts leaves behind**: all its bytes, and no error of upstream. -/
theorem drainFrom_spec {source : EventSource} (chunks : List (Except String Bytes))
    (transformer : Option EndpointTranslator) (parser : source.State)
    (hconverts : Converts (drainFrom fromStr source transformer parser chunks)) (acc : Accum) :
    ((drainFrom fromStr source transformer parser chunks).foldl Accum.receive acc).upstream =
        acc.upstream ++ bodyOf chunks ∧
      ((drainFrom fromStr source transformer parser chunks).foldl Accum.receive acc).upstreamError =
        acc.upstreamError := by
  induction chunks generalizing transformer parser acc with
  | nil =>
    have hclient : ∀ msg ∈ drainFrom fromStr source transformer parser [], msg.isClient = true := by
      intro msg hmsg
      rcases List.mem_append.mp hmsg with h | h
      · exact (processAll_spec _ _).1 msg h
      · cases hleft : (processAll fromStr transformer (source.finish parser)).2 with
        | none => simp [hleft] at h
        | some left =>
          rw [hleft] at h
          exact finishAll_client left msg h
    obtain ⟨hupstream, herror⟩ := foldl_client hclient acc
    exact ⟨by rw [hupstream]; exact (List.append_nil _).symm, herror⟩
  | cons chunk chunks ih =>
    cases chunk with
    | error err => simp [drainFrom, Converts, AccumMsg.isConvertedError] at hconverts
    | ok bytes =>
      rw [drainFrom_ok, ← List.cons_append] at hconverts ⊢
      obtain ⟨hclient, hleft⟩ := processAll_spec transformer
        (source.push parser bytes).2
      obtain ⟨hhead, htail⟩ := (converts_append _ _).mp hconverts
      obtain ⟨left, hsome⟩ := Option.isSome_iff_exists.mp (hleft.mp hhead)
      simp only [hsome, Option.map_some, Option.getD_some] at htail ⊢
      obtain ⟨hup, herr⟩ := foldl_client hclient (acc.receive (.upstream bytes))
      obtain ⟨hupstream, herror⟩ := ih left (source.push parser bytes).1 htail
        ((processAll fromStr transformer (source.push parser bytes).2).1.foldl Accum.receive
          (acc.receive (.upstream bytes)))
      rw [List.cons_append, List.foldl_cons, List.foldl_append]
      refine ⟨hupstream.trans ?_, herror.trans herr⟩
      rw [hup]
      simp [Accum.receive, bodyOf]

theorem finish_notMem_drainFrom {source : EventSource} (chunks : List (Except String Bytes))
    (transformer : Option EndpointTranslator) (parser : source.State) :
    AccumMsg.finish ∉ drainFrom fromStr source transformer parser chunks := by
  have hclient {msgs : List AccumMsg} (h : ∀ msg ∈ msgs, msg.isClient = true) :
      AccumMsg.finish ∉ msgs := fun hmem => Bool.false_ne_true (h _ hmem)
  induction chunks generalizing transformer parser with
  | nil =>
    rw [drainFrom, List.mem_append, not_or]
    refine ⟨hclient (processAll_spec _ _).1, ?_⟩
    cases (processAll fromStr transformer (source.finish parser)).2 with
    | none => simp
    | some left => exact hclient (finishAll_client left)
  | cons chunk chunks ih =>
    cases chunk with
    | error err => simp [drainFrom]
    | ok bytes =>
      rw [drainFrom_ok, List.mem_cons, List.mem_append, not_or, not_or]
      refine ⟨by simp, hclient (processAll_spec _ _).1, ?_⟩
      cases (processAll fromStr transformer (source.push parser bytes).2).2 with
      | none => simp
      | some left => exact ih left _

end

/-! ## How a body ends -/

section

variable (fromStr : String → Option Value)

/-- The types of the failure frames that `stream_terminal_error` looks for. -/
def failureTypes : Endpoint → List String
  | .chatCompletions => []
  | .responses => ["response.failed", "response.incomplete", "error"]
  | .messages => ["error"]

/-- The successful terminal frame of a protocol. -/
def Frame.Succeeds (endpoint : Endpoint) (frame : Frame) : Prop :=
  match endpoint with
  | .chatCompletions => Str.trimChars frame.data = "[DONE]".toList
  | .responses => frame.eventType fromStr = some "response.completed"
  | .messages => frame.eventType fromStr = some "message_stop"

/-- A failure frame that is looked for. -/
def Frame.Refused (endpoint : Endpoint) (frame : Frame) : Prop :=
  ∃ type ∈ failureTypes endpoint, frame.eventType fromStr = some type

/-- A failure frame of a protocol. A response that is cancelled is one, too. -/
def Frame.Fails (endpoint : Endpoint) (frame : Frame) : Prop :=
  frame.Refused fromStr endpoint ∨
    endpoint = .responses ∧ frame.eventType fromStr = some "response.cancelled"

/-- The last frame of a body that says anything. -/
def lastFrame (body : Bytes) : Option Frame := ((frames body).filter (· ≠ {})).getLast?

/-- A body ends with the successful terminal frame of a protocol. -/
def EndsWell (endpoint : Endpoint) (body : Bytes) : Prop :=
  ∃ frame, lastFrame body = some frame ∧ frame.Succeeds fromStr endpoint

/-- A body has no terminal frame of a protocol, or ends with a failure frame. -/
def EndsBadly (endpoint : Endpoint) (body : Bytes) : Prop :=
  (∀ frame ∈ frames body, ¬ frame.Succeeds fromStr endpoint ∧ ¬ frame.Fails fromStr endpoint) ∨
    ∃ frame, lastFrame body = some frame ∧ frame.Fails fromStr endpoint

/-- A body has a successful terminal frame of a protocol, with none of its failure frames before
it. -/
def ReadsAsSuccess (endpoint : Endpoint) (body : Bytes) : Prop :=
  ∃ before frame after, frames body = before ++ frame :: after ∧ frame.Succeeds fromStr endpoint ∧
    ∀ f ∈ before, ¬ f.Refused fromStr endpoint

variable {fromStr}

variable {endpoint : Endpoint}

theorem Frame.verdict_eq_some_none {frame : Frame} :
    frame.verdict fromStr endpoint = some none ↔ frame.Succeeds fromStr endpoint := by
  cases endpoint with
  | chatCompletions => simp [Frame.verdict, Frame.Succeeds]
  | responses =>
    rw [Frame.verdict, Frame.Succeeds]
    split <;> simp_all
  | messages =>
    rw [Frame.verdict, Frame.Succeeds]
    split <;> simp_all

theorem Frame.verdict_eq_none {frame : Frame} :
    frame.verdict fromStr endpoint = none ↔
      ¬ frame.Succeeds fromStr endpoint ∧ ¬ frame.Refused fromStr endpoint := by
  cases endpoint with
  | chatCompletions => simp [Frame.verdict, Frame.Succeeds, Frame.Refused, failureTypes]
  | responses =>
    rw [Frame.verdict, Frame.Succeeds, Frame.Refused]
    split <;> simp_all [failureTypes]
  | messages =>
    rw [Frame.verdict, Frame.Succeeds, Frame.Refused]
    split <;> simp_all [failureTypes]

/-- The first success frame will do: before it no frame is a success frame. -/
theorem readsAsSuccess_iff {body : Bytes} :
    ReadsAsSuccess fromStr endpoint body ↔
      (frames body).findSome? (Frame.verdict fromStr endpoint) = some none := by
  rw [List.findSome?_eq_some_iff, ReadsAsSuccess]
  constructor
  · rintro ⟨before, frame, after, hframes, hsucceeds, hbefore⟩
    have hfirst : before.findSome? (Frame.verdict fromStr endpoint) ≠ none →
        before.findSome? (Frame.verdict fromStr endpoint) = some none := by
      intro hne
      obtain ⟨verdict, hverdict⟩ := Option.ne_none_iff_exists'.mp hne
      obtain ⟨f, hf, hfverdict⟩ := List.exists_of_findSome?_eq_some hverdict
      have hnot : ¬ (f.verdict fromStr endpoint = none) := by simp [hfverdict]
      rw [Frame.verdict_eq_none, not_and_or, not_not, not_not] at hnot
      have hsome := Frame.verdict_eq_some_none.mpr (hnot.resolve_right (hbefore f hf))
      rw [hverdict, ← hfverdict, hsome]
    by_cases hnone : before.findSome? (Frame.verdict fromStr endpoint) = none
    · exact ⟨before, frame, after, hframes, Frame.verdict_eq_some_none.mpr hsucceeds,
        List.findSome?_eq_none_iff.mp hnone⟩
    · obtain ⟨before', frame', after', hsplit, hverdict, hnone'⟩ :=
        List.findSome?_eq_some_iff.mp (hfirst hnone)
      refine ⟨before', frame', after' ++ frame :: after, ?_, hverdict, hnone'⟩
      rw [hframes, hsplit, List.append_assoc, List.cons_append]
  · rintro ⟨before, frame, after, hframes, hverdict, hbefore⟩
    exact ⟨before, frame, after, hframes, Frame.verdict_eq_some_none.mp hverdict,
      fun f hf => (Frame.verdict_eq_none.mp (hbefore f hf)).2⟩

theorem streamTerminalError_eq_none {body : Bytes} :
    streamTerminalError fromStr (.known endpoint) body = none ↔
      ReadsAsSuccess fromStr endpoint body := by
  rw [readsAsSuccess_iff]
  show ((frames body).findSome? (Frame.verdict fromStr endpoint)).getD _ = none ↔ _
  cases (frames body).findSome? (Frame.verdict fromStr endpoint) <;> simp

/-- A body that ends well is read as a success in the same protocol, if it has no failure frame. -/
theorem readsAsSuccess_of_endsWell {body : Bytes} (hends : EndsWell fromStr endpoint body)
    (hrefused : ∀ frame ∈ frames body, ¬ frame.Refused fromStr endpoint) :
    ReadsAsSuccess fromStr endpoint body := by
  obtain ⟨frame, hlast, hsucceeds⟩ := hends
  have hmem : frame ∈ frames body := List.mem_of_mem_filter (List.mem_of_getLast? hlast)
  obtain ⟨before, after, hframes⟩ := List.append_of_mem hmem
  refine ⟨before, frame, after, hframes, hsucceeds, fun f hf => hrefused f ?_⟩
  rw [hframes]
  exact List.mem_append_left _ hf

end

/-! ## The verdict of an attempt -/

variable {p : Pipeline} {s : State} {actions : List Action}

/-- The last stage event of the attempt is `Completed`, with a verdict. -/
def State.Concludes (s : State) (success : Bool) : Prop :=
  ∃ attempts, (stageEvents s.attempt s.events).getLast? = some (.completed success attempts)

/-- The verdict on a body agrees with the protocol of its upstream. -/
def Judged (fromStr : String → Option Value) (upstream : Endpoint) (body : Bytes)
    (msgs : List AccumMsg) (s : State) : Prop :=
  (EndsWell fromStr upstream body → Converts msgs →
    s.Concludes true ∧ ∀ event ∈ stageEvents s.attempt s.events, event.isError = false) ∧
  (EndsBadly fromStr upstream body → s.Concludes false)

/-- What an accumulator concludes. -/
theorem stagesOf_finalPayloads_eq (acc : Accum) (fromStr : String → Option Value)
    (endpoint : RequestEndpoint) (attempt : Nat) :
    stagesOf (acc.finalPayloads fromStr endpoint attempt) =
      ((acc.streamError fromStr endpoint).map fun message =>
        StageEvent.error .convertResponse message false false).toList ++
      [.completed (acc.streamError fromStr endpoint).isNone (attemptsOf attempt)] := by
  rw [stagesOf, Accum.finalPayloads]
  cases acc.streamError fromStr endpoint <;> rfl

/-- A body that was read to its end succeeds when it converts and its frames say so in the inbound
protocol. -/
theorem streamError_drain {fromStr : String → Option Value} {source : EventSource}
    {upstream inbound : Endpoint} {createdAt : Nat} {chunks : List (Except String Bytes)} :
    ((drain fromStr source upstream inbound createdAt chunks).foldl Accum.receive {}).streamError
        fromStr (.known inbound) = none ↔
      Converts (drain fromStr source upstream inbound createdAt chunks) ∧
        ReadsAsSuccess fromStr inbound (bodyOf chunks) := by
  have hconverted := isSome_convertedError_foldl
    (drain fromStr source upstream inbound createdAt chunks) {}
  by_cases hconverts : Converts (drain fromStr source upstream inbound createdAt chunks)
  · obtain ⟨hupstream, herror⟩ := drainFrom_spec chunks _ _ hconverts {}
    have hnone : ((drain fromStr source upstream inbound createdAt chunks).foldl Accum.receive
        {}).convertedError = none := by
      rw [← Option.not_isSome_iff_eq_none, hconverted]
      simp [hconverts]
    rw [and_iff_right hconverts, ← streamTerminalError_eq_none]
    show (Accum.upstreamError _ <|> Accum.convertedError _ <|> _) = none ↔ _
    rw [hnone]
    rw [drain] at *
    rw [herror, hupstream]
    rfl
  · have hsome := hconverted.mpr (Or.inr hconverts)
    rw [iff_false_right (fun h => hconverts h.1)]
    obtain ⟨err, herr⟩ := Option.isSome_iff_exists.mp hsome
    show ¬ (Accum.upstreamError _ <|> Accum.convertedError _ <|> _) = none
    rw [herr]
    cases Accum.upstreamError _ <;> simp

section

variable {source : EventSource} {upstream inbound : Endpoint} {createdAt : Nat}
  {chunks : List (Except String Bytes)}

/-- What an attempt concludes whose body was read to its end. -/
theorem concludes_drained (hendpoint : p.requestEndpoint = .known inbound)
    (hrun : p.run actions = some s) (hover : s.Over) (hphase : s.phase = .returned (.ok .stream))
    (hsent : sentTo s.attempt actions =
      drain p.fromStr source upstream inbound createdAt chunks ++ [.finish]) :
    (Converts (drain p.fromStr source upstream inbound createdAt chunks) ∧
        ReadsAsSuccess p.fromStr inbound (bodyOf chunks) →
      s.Concludes true ∧ ¬ s.Concludes false ∧
        ∀ event ∈ stageEvents s.attempt s.events, event.isError = false) ∧
    (¬ (Converts (drain p.fromStr source upstream inbound createdAt chunks) ∧
        ReadsAsSuccess p.fromStr inbound (bodyOf chunks)) →
      s.Concludes false ∧ ¬ s.Concludes true) := by
  have hevents := stageEvents_streamed hrun hover hphase (finish_notMem_drainFrom _ _ _) hsent
  rw [stagesOf_finalPayloads_eq, hendpoint] at hevents
  have hverdict := @streamError_drain p.fromStr source upstream inbound createdAt chunks
  rw [drain] at hverdict ⊢
  rw [← hverdict]
  generalize (drainFrom p.fromStr source (Convert.transformerFor upstream inbound createdAt)
    source.init chunks).foldl Accum.receive {} = acc at hevents ⊢
  refine ⟨fun hnone => ?_, fun hsome => ?_⟩
  · rw [hnone] at hevents
    refine ⟨⟨_, by rw [hevents]; rfl⟩, ?_, ?_⟩
    · rintro ⟨n, hn⟩
      rw [hevents] at hn
      cases hn
    · rw [hevents]
      simp [StageEvent.isError]
  · obtain ⟨message, hmessage⟩ := Option.ne_none_iff_exists'.mp hsome
    rw [hmessage] at hevents
    refine ⟨⟨_, by rw [hevents]; rfl⟩, ?_⟩
    rintro ⟨n, hn⟩
    rw [hevents] at hn
    cases hn

/-- **The verdict of an attempt.** -/
theorem judged_iff (hendpoint : p.requestEndpoint = .known inbound)
    (hrun : p.run actions = some s) (hover : s.Over) (hphase : s.phase = .returned (.ok .stream))
    (hsent : sentTo s.attempt actions =
      drain p.fromStr source upstream inbound createdAt chunks ++ [.finish]) :
    Judged p.fromStr upstream (bodyOf chunks)
        (drain p.fromStr source upstream inbound createdAt chunks) s ↔
      (EndsWell p.fromStr upstream (bodyOf chunks) →
        Converts (drain p.fromStr source upstream inbound createdAt chunks) →
          ReadsAsSuccess p.fromStr inbound (bodyOf chunks)) ∧
      (EndsBadly p.fromStr upstream (bodyOf chunks) →
        Converts (drain p.fromStr source upstream inbound createdAt chunks) →
          ¬ ReadsAsSuccess p.fromStr inbound (bodyOf chunks)) := by
  obtain ⟨hgood, hbad⟩ := concludes_drained hendpoint hrun hover hphase hsent
  by_cases hsuccess : Converts (drain p.fromStr source upstream inbound createdAt chunks) ∧
      ReadsAsSuccess p.fromStr inbound (bodyOf chunks)
  · obtain ⟨htrue, hfalse, hnone⟩ := hgood hsuccess
    obtain ⟨hconverts, hreads⟩ := hsuccess
    exact ⟨fun h => ⟨fun _ _ => hreads, fun hends => absurd (h.2 hends) hfalse⟩,
      fun h => ⟨fun _ _ => ⟨htrue, hnone⟩, fun hends => absurd hreads (h.2 hends hconverts)⟩⟩
  · obtain ⟨hfalse, htrue⟩ := hbad hsuccess
    exact ⟨fun h => ⟨fun hends hconverts => absurd (h.1 hends hconverts).1 htrue,
      fun _ hconverts hreads => hsuccess ⟨hconverts, hreads⟩⟩,
      fun h => ⟨fun hends hconverts => absurd ⟨hconverts, h.1 hends hconverts⟩ hsuccess,
        fun _ => hfalse⟩⟩

end

/-! ## A stream that is read to its end -/

/-- A run in which the body is noted, finished and then received by the accumulator. -/
def readToEnd (msgs : List AccumMsg) : List Action :=
  sentStream ++ [.converted .stream] ++ msgs.map (.note 0) ++ [.finish 0] ++
    List.replicate (msgs.length + 1) (.receive 0)

/-- The body has been handed over, and its accumulator is the only one. -/
structure State.HandedOver (s : State) (task : AccumTask) : Prop where
  phase : s.phase = .returned (.ok .stream)
  attempt : s.attempt = 0
  accums : s.accums = [(0, task)]

theorem State.HandedOver.accum (h : s.HandedOver task) : s.accum 0 = some task := by
  rw [State.accum, h.accums]
  rfl

theorem State.HandedOver.setAccum (h : s.HandedOver task) (task' : AccumTask) :
    (s.setAccum 0 task').HandedOver task' where
  phase := h.phase
  attempt := h.attempt
  accums := by
    show s.accums.insert 0 task' = _
    rw [h.accums]
    rfl

theorem exec_notes (hmsgs : AccumMsg.finish ∉ msgs) (h : s.HandedOver task) :
    ∃ s', Machine.exec p.step s (msgs.map (.note 0)) = some s' ∧
      s'.HandedOver { task with queue := task.queue ++ msgs } := by
  induction msgs generalizing s task with
  | nil => exact ⟨s, rfl, by simpa using h⟩
  | cons msg msgs ih =>
    rw [List.mem_cons, not_or] at hmsgs
    obtain ⟨s', hs', hnext⟩ :=
      ih hmsgs.2 (h.setAccum { task with queue := task.queue ++ [msg] })
    refine ⟨s', ?_, by simpa using hnext⟩
    rw [List.map_cons, Machine.exec, Pipeline.step, if_neg (Ne.symm hmsgs.1), h.accum]
    exact hs'

theorem exec_receives (hmsgs : AccumMsg.finish ∉ msgs) (h : s.HandedOver task)
    (hqueue : task.queue = msgs ++ [.finish]) (hended : task.ended = false) :
    ∃ s' task', Machine.exec p.step s (List.replicate (msgs.length + 1) (.receive 0)) = some s' ∧
      s'.HandedOver task' ∧ task'.ended = true := by
  induction msgs generalizing s task with
  | nil =>
    refine ⟨(s.setAccum 0 { task with queue := [], ended := true }).emit 0
        (task.acc.finalPayloads p.fromStr p.requestEndpoint 0),
      { task with queue := [], ended := true }, ?_, ?_, rfl⟩
    · rw [List.length_nil, List.replicate_one, Machine.exec, Pipeline.step, h.accum]
      simp [Pipeline.receive, hended, hqueue, Machine.exec]
    · obtain ⟨hphase, hattempt, haccums⟩ :=
        h.setAccum { task with queue := [], ended := true }
      exact ⟨hphase, hattempt, haccums⟩
  | cons msg msgs ih =>
    rw [List.mem_cons, not_or] at hmsgs
    obtain ⟨s', task', hs', hnext⟩ := ih hmsgs.2
      (h.setAccum { task with queue := msgs ++ [.finish], acc := task.acc.receive msg }) rfl hended
    refine ⟨s', task', ?_, hnext⟩
    have hstep : p.step s (.receive 0) =
        some (s.setAccum 0 { task with queue := msgs ++ [.finish], acc := task.acc.receive msg }) := by
      rw [Pipeline.step, h.accum, Option.bind_some, Pipeline.receive, if_neg (by simp [hended]),
        hqueue]
      cases msg with
      | finish => exact absurd rfl hmsgs.1
      | _ => rfl
    rw [List.length_cons, List.replicate_succ, Machine.exec, hstep]
    exact hs'

theorem run_readToEnd (hmsgs : AccumMsg.finish ∉ msgs) :
    ∃ s, p.run (readToEnd msgs) = some s ∧ s.Over ∧ s.phase = .returned (.ok .stream) ∧
      s.attempt = 0 := by
  have hbegin : ∃ s, p.run (sentStream ++ [.converted .stream]) = some s ∧ s.HandedOver {} :=
    ⟨_, rfl, rfl, rfl, rfl⟩
  obtain ⟨s₀, hs₀, h₀⟩ := hbegin
  obtain ⟨s₁, hs₁, h₁⟩ := exec_notes (p := p) hmsgs h₀
  have hfinish : p.step s₁ (.finish 0) = some (s₁.setAccum 0
      { queue := [] ++ msgs ++ [.finish], finished := true }) := by
    rw [Pipeline.step, if_neg (by simp [h₁.phase]), h₁.accum]
    rfl
  obtain ⟨s₂, task, hs₂, h₂, hended⟩ := exec_receives (p := p) hmsgs (h₁.setAccum
    { queue := [] ++ msgs ++ [.finish], finished := true }) rfl rfl
  refine ⟨s₂, ?_, ⟨⟨_, h₂.phase⟩, fun a task' htask' => ?_⟩, h₂.phase, h₂.attempt⟩
  · rw [Pipeline.run] at hs₀ ⊢
    rw [readToEnd, Machine.exec_append, Machine.exec_append, Machine.exec_append, hs₀,
      Option.bind_some, hs₁, Option.bind_some, Machine.exec, hfinish]
    exact hs₂
  · rw [State.accum, h₂.accums] at htask'
    obtain ⟨-, rfl⟩ : a = 0 ∧ task = task' := by simpa [BTreeMap.get] using htask'
    exact hended

theorem sentTo_readToEnd (msgs : List AccumMsg) : sentTo 0 (readToEnd msgs) = msgs ++ [.finish] := by
  have hnotes : (msgs.map (Action.note 0)).filterMap (Action.sentTo 0) = msgs := by
    rw [List.filterMap_map]
    exact List.filterMap_some
  have hreceives : (List.replicate (msgs.length + 1) (Action.receive 0)).filterMap
      (Action.sentTo 0) = [] := by
    rw [List.filterMap_eq_nil_iff]
    intro action haction
    rw [List.eq_of_mem_replicate haction]
    rfl
  rw [sentTo, readToEnd, List.filterMap_append, List.filterMap_append, List.filterMap_append,
    hnotes, hreceives, List.append_nil]
  rfl

/-! ## Two bodies -/

/-- `data: [DONE]` -/
def doneBody : Bytes :=
  [0x64, 0x61, 0x74, 0x61, 0x3A, 0x20, 0x5B, 0x44, 0x4F, 0x4E, 0x45, 0x5D, 0x0A, 0x0A]

/-- A source that completes the event of that body. -/
def doneSource : EventSource where
  State := Unit
  init := ()
  push _ bytes := ((), if bytes = doneBody then [.ok ("message", "[DONE]")] else [])
  finish _ := []
  transportError err := err

theorem frames_doneBody : frames doneBody = [{ data := "[DONE]".toList }, {}] := by decide

theorem endsWell_doneBody (fromStr : String → Option Value) :
    EndsWell fromStr .chatCompletions doneBody :=
  ⟨{ data := "[DONE]".toList }, by rw [lastFrame, frames_doneBody]; decide, by
    show Str.trimChars _ = _
    decide⟩

/-- The sentinel converts, whatever the endpoints. -/
theorem converts_doneBody (fromStr : String → Option Value) (upstream inbound : Endpoint)
    (createdAt : Nat) :
    Converts (drain fromStr doneSource upstream inbound createdAt [.ok doneBody]) := by
  have hdone : (SseEvent.ofParsed fromStr ("message", "[DONE]")).isDone = true := by
    show decide (Str.trim "[DONE]" = "[DONE]") = true
    decide
  have hprocess : ∃ transformer items,
      Convert.processEvent (Convert.transformerFor upstream inbound createdAt)
        (SseEvent.ofParsed fromStr ("message", "[DONE]")) = (transformer, .ok items) ∧
      Convert.finishTransformers transformer = .ok [] := by
    unfold Convert.transformerFor
    split_ifs
    · exact ⟨none, _, rfl, rfl⟩
    · obtain ⟨t, items, hprocess, hfin⟩ := Convert.processEvent_isDone
        (t := .new upstream inbound createdAt) rfl hdone
      exact ⟨some t, items, hprocess, Convert.finishTransformers_of_finished hfin⟩
  obtain ⟨transformer, items, hprocess, hfinish⟩ := hprocess
  have hall : processAll fromStr (Convert.transformerFor upstream inbound createdAt)
      [.ok ("message", "[DONE]")] = (items.map .converted ++ [], some transformer) := by
    rw [processAll, hprocess]
    rfl
  have hparsed : (doneSource.push doneSource.init doneBody).2 = [.ok ("message", "[DONE]")] := by
    show (if doneBody = doneBody then [_] else []) = _
    exact if_pos rfl
  rw [drain, drainFrom_ok, hparsed, hall, ← List.singleton_append, converts_append, converts_append]
  refine ⟨rfl, (converts_append _ _).mpr ⟨converts_map_converted items, rfl⟩, ?_⟩
  show Converts (finishAll transformer)
  rw [finishAll, hfinish]
  rfl

/-- A pipeline for requests of an endpoint that never retries. -/
def plainPipeline (endpoint : Endpoint) : Pipeline where
  requestEndpoint := .known endpoint
  fromStr := fun _ => none

/-- A body that is read to its end, from an upstream to an inbound endpoint. -/
theorem exists_run_doneBody (upstream inbound : Endpoint) :
    ∃ actions s, (plainPipeline inbound).run actions = some s ∧ s.Over ∧
      s.phase = .returned (.ok .stream) ∧ sentTo s.attempt actions =
        drain (plainPipeline inbound).fromStr doneSource upstream inbound 0 [.ok doneBody] ++
          [.finish] := by
  obtain ⟨s, hrun, hover, hphase, hattempt⟩ := run_readToEnd (p := plainPipeline inbound)
    (@finish_notMem_drainFrom (plainPipeline inbound).fromStr doneSource [.ok doneBody]
      (Convert.transformerFor upstream inbound 0) doneSource.init)
  exact ⟨_, s, hrun, hover, hphase, by rw [hattempt]; exact sentTo_readToEnd _⟩

/-- A Chat Completions client of a Chat Completions upstream. -/
theorem judged_chat_chat : ∃ actions s, (plainPipeline .chatCompletions).run actions = some s ∧
    Judged (fun _ => none) .chatCompletions doneBody
      (drain (fun _ => none) doneSource .chatCompletions .chatCompletions 0 [.ok doneBody]) s := by
  obtain ⟨actions, s, hrun, hover, hphase, hsent⟩ :=
    exists_run_doneBody .chatCompletions .chatCompletions
  refine ⟨actions, s, hrun, (judged_iff rfl hrun hover hphase hsent).mpr ⟨fun hends _ => ?_, ?_⟩⟩
  · refine readsAsSuccess_of_endsWell hends fun frame _ hrefused => ?_
    obtain ⟨type, htype, -⟩ := hrefused
    cases htype
  · rintro (hnone | ⟨frame, hlast, hfails⟩)
    · refine absurd ?_ (hnone { data := "[DONE]".toList } ?_).1
      · show Str.trimChars _ = _
        decide
      · rw [show bodyOf [.ok doneBody] = doneBody from rfl, frames_doneBody]
        simp
    · rcases hfails with ⟨type, htype, -⟩ | ⟨hresponses, -⟩
      · cases htype
      · cases hresponses

/-- A Messages client of a Chat Completions upstream: the attempt fails although the body ends
with the sentinel and converts. -/
theorem not_judged_chat_messages : ∃ actions s, (plainPipeline .messages).run actions = some s ∧
    s.Over ∧ s.phase = .returned (.ok .stream) ∧ sentTo s.attempt actions =
      drain (fun _ => none) doneSource .chatCompletions .messages 0 [.ok doneBody] ++ [.finish] ∧
    EndsWell (fun _ => none) .chatCompletions doneBody ∧ s.Concludes false ∧
    ¬ Judged (fun _ => none) .chatCompletions doneBody
      (drain (fun _ => none) doneSource .chatCompletions .messages 0 [.ok doneBody]) s := by
  obtain ⟨actions, s, hrun, hover, hphase, hsent⟩ := exists_run_doneBody .chatCompletions .messages
  have hreads : ¬ ReadsAsSuccess (fun _ => none) .messages (bodyOf [.ok doneBody]) := by
    rintro ⟨before, frame, after, hframes, hsucceeds, -⟩
    have hmem : frame ∈ frames doneBody := by
      rw [show frames doneBody = _ from hframes]
      simp
    rw [frames_doneBody] at hmem
    have hevent : frame.event = none := by
      rcases List.mem_cons.mp hmem with rfl | h
      · rfl
      · rw [List.mem_singleton.mp h]
    have htype : frame.eventType (fun _ => none) = some "message_stop" := hsucceeds
    rw [Frame.eventType, hevent] at htype
    cases htype
  obtain ⟨hfalse, htrue⟩ := (concludes_drained rfl hrun hover hphase hsent).2 fun h => hreads h.2
  refine ⟨actions, s, hrun, hover, hphase, hsent, endsWell_doneBody _, hfalse, fun h => ?_⟩
  exact htrue (h.1 (endsWell_doneBody _) (converts_doneBody _ _ _ _)).1

end Tokn.Requests
