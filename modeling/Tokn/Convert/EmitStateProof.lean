import Tokn.Convert.Runs
import Tokn.Convert.ResponsesStream

/-!
# The emitter of the target endpoint

**Theorem (`Live.finish`).** However the deltas of a stream are cut into calls, none of the events
before the first `finish` marks the end of the stream, and the last event of that `finish` does.
-/

namespace Tokn.Convert

open Value

/-- Whether an event marks the end of a stream in the protocol of the target. -/
def isMarker (target : Endpoint) (e : SseEvent) : Bool :=
  match target with
  | .chatCompletions => e.isDone
  | .responses => (e.str "type").any isTerminalKind
  | .messages => e.str "type" = some "message_stop"

/-! ## Events that are not the last -/

theorem isMarker_inner {body : Nat → SseEvent} (h : Inner body) (n : Nat) :
    isMarker .responses (body n) = false := by
  obtain ⟨kind, hnames, hkind⟩ := h
  simp [isMarker, (hnames n).1, hkind]

theorem isMarker_numbered {n : Nat} {bodies : List (Nat → SseEvent)}
    (h : ∀ body ∈ bodies, Inner body) : ∀ e ∈ numbered n bodies, isMarker .responses e = false := by
  intro e he
  obtain ⟨body, hbody, k, rfl⟩ := mem_numbered he
  exact isMarker_inner (h body hbody) k

theorem isMarker_chunk (respId model : String) (delta : IrDelta) :
    isMarker .chatCompletions (.ofJson none (Chat.chunkFromDelta respId model delta)) = false := by
  cases delta <;> exact SseEvent.isDone_ofJson_obj none _

theorem type_eventFromDelta (delta : IrDelta) :
    (Messages.eventFromDelta delta).2.str "type" = some (Messages.eventFromDelta delta).1 := by
  cases delta <;> exact (str_obj _ _).trans rfl

theorem isMarker_eventFromDelta (delta : IrDelta) :
    isMarker .messages (.ofJson (some (Messages.eventFromDelta delta).1)
      (Messages.eventFromDelta delta).2) = false := by
  rw [isMarker, SseEvent.str_ofJson, type_eventFromDelta]
  cases delta <;> rfl

theorem isMarker_start (s : EmitState) : ∀ e ∈ s.start, isMarker s.target e = false := by
  unfold EmitState.start
  cases s.target with
  | chatCompletions => simp
  | responses => simp
  | messages =>
    simp only [List.forall_mem_cons, List.not_mem_nil, false_implies, implies_true, and_true,
      isMarker, SseEvent.str_ofJson, Messages.messageStart, str_obj]
    exact ⟨rfl, rfl⟩

theorem ResponsesEmitter.Emitted.isMarker {s : ResponsesEmitter} {out : List SseEvent}
    {items : Items} (h : s.Emitted out items) : ∀ e ∈ out, isMarker .responses e = false := by
  obtain ⟨-, rfl, -⟩ | ⟨created, inProgress, h⟩ := h
  · simp
  · rw [h.out_eq]
    exact isMarker_numbered (inner_bodies created inProgress items)

/-! ## The methods -/

namespace EmitState

@[simp] theorem target_updateMetadata (s : EmitState) (metadata : SseMetadata) :
    (s.updateMetadata metadata).target = s.target := by
  obtain ⟨responseId, model⟩ := metadata
  cases responseId <;> cases model <;> rfl

@[simp] theorem target_ensureStarted (s : EmitState) : s.ensureStarted.1.target = s.target := by
  unfold ensureStarted
  split_ifs <;> rfl

@[simp] theorem target_emitDeltas (s : EmitState) (deltas : List IrDelta) :
    (s.emitDeltas deltas).1.target = s.target := by
  unfold emitDeltas
  split
  · rfl
  · split <;> rfl
  · rfl

@[simp] theorem target_emit (s : EmitState) (deltas : List IrDelta) :
    (s.emit deltas).1.target = s.target := by
  unfold emit
  split_ifs <;> simp

variable {s : EmitState} {out : List SseEvent} {items : Items}

@[simp] theorem target_finish (s : EmitState) : s.finish.1.target = s.target := by
  have hend (s : EmitState) : s.emitEnd.1.target = s.target := by
    unfold emitEnd
    split
    · rfl
    · split <;> rfl
    · rfl
  unfold finish
  split_ifs <;> simp [hend]

/-- A Responses target has no opening events of its own. -/
theorem ensureStarted_responses (h : s.target = .responses) : s.ensureStarted = (s, []) := by
  simp [ensureStarted, h]

/-! ## Streams to a Responses target -/

/-- The Responses emitter of the state has emitted the events of the items. -/
def Tracks (s : EmitState) (out : List SseEvent) (items : Items) : Prop :=
  ∃ emitter, s.responses = some emitter ∧ emitter.Emitted out items

theorem tracks_new (createdAt : Nat) : (new .responses createdAt).Tracks [] {} :=
  ⟨_, rfl, Or.inl ⟨ResponsesEmitter.fresh_new _ _ _, rfl, rfl⟩⟩

theorem Tracks.updateMetadata (h : s.Tracks out items) (metadata : SseMetadata) :
    (s.updateMetadata metadata).Tracks out items := by
  obtain ⟨emitter, hs, hem⟩ := h
  obtain ⟨responseId, model⟩ := metadata
  simp only [Tracks, EmitState.updateMetadata, updateId, updateModel]
  cases responseId with
  | none =>
    cases model with
    | none => exact ⟨emitter, hs, hem⟩
    | some model =>
      exact ⟨emitter.updateModel model, by rw [hs]; rfl, hem.update emitter.id model⟩
  | some id =>
    cases model with
    | none => exact ⟨emitter.updateId id, by rw [hs]; rfl, hem.update id emitter.model⟩
    | some model =>
      exact ⟨(emitter.updateId id).updateModel model, by rw [hs]; rfl, hem.update id model⟩

theorem Tracks.emit (h : s.Tracks out items) (htarget : s.target = .responses)
    (deltas : List IrDelta) :
    (s.emit deltas).1.Tracks (out ++ (s.emit deltas).2) (deltas.foldl Items.push items) := by
  obtain ⟨emitter, hs, hem⟩ := h
  by_cases hd : deltas = []
  · subst hd
    simpa [EmitState.emit] using ⟨emitter, hs, hem⟩
  · have hem' := hem.emit deltas
    refine ⟨(emitter.emit deltas).1, ?_, ?_⟩
    · simp [EmitState.emit, hd, ensureStarted_responses htarget, emitDeltas, htarget, hs]
    · simpa [EmitState.emit, hd, ensureStarted_responses htarget, emitDeltas, htarget, hs] using hem'

/-- **The end of a Responses stream.** -/
theorem Tracks.finish (h : s.Tracks out items) (htarget : s.target = .responses)
    (hfin : s.finished = false) :
    ∃ emitter created inProgress response, s.responses = some emitter ∧
      out ++ s.finish.2 = numbered 0 (prologue created inProgress ++
        items.all.flatMap OutputItem.events ++
        [terminal (responsesCompletionStatus emitter.finishReason).1 response]) ∧
      response.get "output" = some (.array (items.all.map OutputItem.final)) ∧
      responseOutcome response = some (responsesCompletionStatus emitter.finishReason) := by
  obtain ⟨emitter, hs, hem⟩ := h
  obtain ⟨created, inProgress, response, hout, houtput, houtcome⟩ := hem.finish
  refine ⟨emitter, created, inProgress, response, hs, ?_, houtput, houtcome⟩
  have : s.finish.2 = emitter.finish.2 := by
    simp [EmitState.finish, hfin, ensureStarted, htarget, emitEnd, hs]
  rw [this, hout]

theorem Tracks.lifecycle (h : s.Tracks out items) (htarget : s.target = .responses)
    (hfin : s.finished = false) (hplaced : items.Placed) :
    Lifecycle (out ++ s.finish.2) items.all := by
  obtain ⟨emitter, created, inProgress, response, -, hout, houtput, -⟩ := h.finish htarget hfin
  exact lifecycle_of_placed hplaced hout houtput

/-! ## Streams to any target -/

/-- The state of a stream that has not ended, after some events. -/
structure Live (s : EmitState) (out : List SseEvent) : Prop where
  finished : s.finished = false
  noMarker : ∀ e ∈ out, isMarker s.target e = false
  tracks : s.target = .responses → ∃ items, s.Tracks out items

theorem live_new (target : Endpoint) (createdAt : Nat) : (new target createdAt).Live [] where
  finished := rfl
  noMarker := by simp
  tracks h := ⟨{}, by rw [show target = .responses from h]; exact tracks_new createdAt⟩

@[simp] theorem finished_updateMetadata (s : EmitState) (metadata : SseMetadata) :
    (s.updateMetadata metadata).finished = s.finished := by
  obtain ⟨responseId, model⟩ := metadata
  cases responseId <;> cases model <;> rfl

@[simp] theorem started_updateMetadata (s : EmitState) (metadata : SseMetadata) :
    (s.updateMetadata metadata).started = s.started := by
  obtain ⟨responseId, model⟩ := metadata
  cases responseId <;> cases model <;> rfl

theorem Live.updateMetadata (h : s.Live out) (metadata : SseMetadata) :
    (s.updateMetadata metadata).Live out where
  finished := by rw [finished_updateMetadata]; exact h.finished
  noMarker := by rw [target_updateMetadata]; exact h.noMarker
  tracks ht := by
    rw [target_updateMetadata] at ht
    obtain ⟨items, hitems⟩ := h.tracks ht
    exact ⟨items, hitems.updateMetadata metadata⟩

@[simp] theorem finished_ensureStarted (s : EmitState) :
    s.ensureStarted.1.finished = s.finished := by
  unfold ensureStarted
  split_ifs <;> rfl

@[simp] theorem finished_emitDeltas (s : EmitState) (deltas : List IrDelta) :
    (s.emitDeltas deltas).1.finished = s.finished := by
  unfold emitDeltas
  split
  · rfl
  · split <;> rfl
  · rfl

@[simp] theorem finished_emit (s : EmitState) (deltas : List IrDelta) :
    (s.emit deltas).1.finished = s.finished := by
  unfold emit
  split_ifs <;> simp

theorem isMarker_ensureStarted (s : EmitState) :
    ∀ e ∈ s.ensureStarted.2, isMarker s.target e = false := by
  unfold ensureStarted
  split_ifs
  · exact isMarker_start s
  · simp

/-- The deltas of a target without an emitter of its own. -/
theorem isMarker_emitDeltas (h : s.target ≠ .responses) (deltas : List IrDelta) :
    ∀ e ∈ (s.emitDeltas deltas).2, isMarker s.target e = false := by
  unfold emitDeltas
  cases htarget : s.target with
  | chatCompletions =>
    intro e he
    simp only [Chat.chunkFromDeltas, List.map_append, List.map_map, List.mem_append, List.mem_map,
      Bool.false_eq_true, if_false, List.not_mem_nil, false_and, exists_false, or_false,
      Function.comp_apply] at he
    obtain ⟨delta, -, rfl⟩ := he
    exact isMarker_chunk _ _ delta
  | responses => exact absurd htarget h
  | messages =>
    intro e he
    simp only [Messages.eventsFromDeltas, Bool.false_eq_true, if_false, List.map_map, List.mem_map,
      Function.comp_apply] at he
    obtain ⟨delta, -, rfl⟩ := he
    exact isMarker_eventFromDelta delta

theorem Live.emit (h : s.Live out) (deltas : List IrDelta) :
    (s.emit deltas).1.Live (out ++ (s.emit deltas).2) := by
  have htracks : s.target = .responses →
      ∃ items, (s.emit deltas).1.Tracks (out ++ (s.emit deltas).2) items := by
    intro ht
    obtain ⟨items, hitems⟩ := h.tracks ht
    exact ⟨_, hitems.emit ht deltas⟩
  refine ⟨by simpa using h.finished, ?_, by simpa using htracks⟩
  rw [target_emit]
  by_cases ht : s.target = .responses
  · obtain ⟨items, emitter, -, hem⟩ := htracks ht
    rw [ht]
    exact hem.isMarker
  · intro e he
    rcases List.mem_append.mp he with he | he
    · exact h.noMarker e he
    · by_cases hd : deltas = []
      · simp [EmitState.emit, hd] at he
      · simp only [EmitState.emit, hd, if_false, List.mem_append] at he
        rcases he with he | he
        · exact isMarker_ensureStarted s e he
        · have := isMarker_emitDeltas (s := s.ensureStarted.1) (by simpa using ht) deltas e he
          simpa using this

/-- The closing events of a target without an emitter of its own. -/
theorem isMarker_emitEnd (h : s.target ≠ .responses) :
    ∃ inner last, s.emitEnd.2 = inner ++ [last] ∧ isMarker s.target last = true ∧
      ∀ e ∈ inner, isMarker s.target e = false := by
  unfold emitEnd
  cases htarget : s.target with
  | chatCompletions => exact ⟨[], _, rfl, by simp [isMarker], by simp⟩
  | responses => exact absurd htarget h
  | messages =>
    refine ⟨[_], _, rfl, ?_, ?_⟩
    · rw [isMarker, SseEvent.str_ofJson, Messages.messageStop, str_obj]
      rfl
    · simp only [List.forall_mem_singleton, isMarker, SseEvent.str_ofJson,
        Messages.contentBlockStop, str_obj]
      rfl

/-- **The end of a stream.** The first `finish` ends the stream with the only marker. -/
theorem Live.finish (h : s.Live out) :
    ∃ inner last, out ++ s.finish.2 = inner ++ [last] ∧ isMarker s.target last = true ∧
      ∀ e ∈ inner, isMarker s.target e = false := by
  by_cases ht : s.target = .responses
  · obtain ⟨items, hitems⟩ := h.tracks ht
    obtain ⟨emitter, created, inProgress, response, -, hout, -, -⟩ := hitems.finish ht h.finished
    rw [hout, numbered_append, ht]
    refine ⟨_, _, rfl, ?_, isMarker_numbered (inner_lifecycle created inProgress items.all)⟩
    simp [isMarker, (names_terminal _ response _).1, isTerminalKind_terminalType]
  · have hopening := isMarker_ensureStarted { s with finished := true }
    have htarget : ({ s with finished := true } : EmitState).ensureStarted.1.target = s.target :=
      target_ensureStarted _
    obtain ⟨inner, last, hend, hlast, hinner⟩ := isMarker_emitEnd (by rwa [htarget])
    rw [htarget] at hlast hinner
    refine ⟨out ++ ({ s with finished := true } : EmitState).ensureStarted.2 ++ inner, last, ?_,
      hlast, ?_⟩
    · simp [EmitState.finish, h.finished, hend]
    · simp only [List.forall_mem_append]
      exact ⟨⟨h.noMarker, hopening⟩, hinner⟩

theorem Live.isMarker_dropLast_finish (h : s.Live out) :
    ∀ e ∈ (out ++ s.finish.2).dropLast, isMarker s.target e = false := by
  obtain ⟨inner, last, hout, -, hinner⟩ := h.finish
  rw [hout, List.dropLast_concat]
  exact hinner

end EmitState

end Tokn.Convert
