import Tokn.Convert.ObservedPipeline

/-!
# Runs of the polled pipeline

`Progress` says what the answers of the source so far have been made to. It is kept by each answer,
so by each poll and in each run; whether the consumer has the items already makes no difference to
it.

**Theorem (`observed_pipeline_iff`).** A run delivers what it should, with `Done` only if there was
no error, exactly if no item of the source is an error and no transformer fails on what it takes.
-/

namespace Tokn.Convert

/-! ## Messages and items -/

/-- A message with what the stream takes or gives, and not about its end. -/
def ObserverMsg.isPayload : ObserverMsg → Bool
  | .done | .error _ => false
  | _ => true

def encodedItems (events : List SseEvent) : List Item := (encodeEvents events).map .ok

theorem encodedItems_append (events events' : List SseEvent) :
    encodedItems (events ++ events') = encodedItems events ++ encodedItems events' := by
  rw [encodedItems, encodeEvents, List.map_append, List.filter_append, List.map_append]
  rfl

namespace PipelineStream

/-- A stream with some more items and messages of payload. -/
structure Extends (s s' : PipelineStream) (items : List Item) : Prop where
  transformers : s'.transformers = s.transformers
  tap : s'.tap = s.tap
  sourceDone : s'.sourceDone = s.sourceDone
  pending : s'.pending = s.pending ++ items
  sent : ∃ msgs, s'.sent = s.sent ++ msgs ∧ ∀ m ∈ msgs, m.isPayload = true

theorem sendTap_tap (s : PipelineStream) (msg : ObserverMsg) : (s.sendTap msg).tap = s.tap := by
  rw [sendTap]
  split_ifs <;> rfl

theorem sendTap_pending (s : PipelineStream) (msg : ObserverMsg) :
    (s.sendTap msg).pending = s.pending := by
  rw [sendTap]
  split_ifs <;> rfl

theorem Extends.refl (s : PipelineStream) : s.Extends s [] :=
  ⟨rfl, rfl, rfl, (List.append_nil _).symm, [], (List.append_nil _).symm, by simp⟩

theorem Extends.trans {s s' s'' : PipelineStream} {items items' : List Item}
    (h : s.Extends s' items) (h' : s'.Extends s'' items') : s.Extends s'' (items ++ items') := by
  obtain ⟨msgs, hmsgs, hpayload⟩ := h.sent
  obtain ⟨msgs', hmsgs', hpayload'⟩ := h'.sent
  refine ⟨h'.transformers.trans h.transformers, h'.tap.trans h.tap,
    h'.sourceDone.trans h.sourceDone, ?_, msgs ++ msgs', ?_, ?_⟩
  · rw [h'.pending, h.pending, List.append_assoc]
  · rw [hmsgs', hmsgs, List.append_assoc]
  · exact List.forall_mem_append.mpr ⟨hpayload, hpayload'⟩

theorem extends_sendTapKind (s : PipelineStream) (wanted : Bool) {msg : ObserverMsg}
    (h : msg.isPayload = true) : s.Extends (s.sendTapKind wanted msg) [] := by
  rw [sendTapKind, sendTap]
  split_ifs
  · exact ⟨rfl, rfl, rfl, (List.append_nil _).symm, [msg], rfl, by simpa using h⟩
  · exact .refl s
  · exact .refl s

theorem extends_teeChunks (s : PipelineStream) (chunks : List (List UInt8)) :
    s.Extends (s.teeChunks chunks) [] := by
  induction chunks generalizing s with
  | nil => exact .refl s
  | cons bytes chunks ih => exact (s.extends_sendTapKind _ rfl).trans (ih _)

theorem extends_emitEvent (s : PipelineStream) (event : SseEvent) :
    s.Extends (s.emitEvent event) (encodedItems [event]) := by
  have htransformed :
      s.Extends (s.sendTapKind s.tapKinds.transformed (.transformed event.json)) [] :=
    s.extends_sendTapKind _ rfl
  have hclient (s : PipelineStream) :
      s.Extends (s.sendTapKind s.tapKinds.client (.toClient (encodeEvent event))) [] :=
    s.extends_sendTapKind _ rfl
  rw [emitEvent, encodedItems, encodeEvents, List.map_singleton]
  split_ifs with hempty
  · rw [List.filter_cons_of_neg (by simp [hempty])]
    exact htransformed
  · rw [List.filter_cons_of_pos (by simp [hempty])]
    refine (htransformed.trans (hclient _)).trans ?_
    exact ⟨rfl, rfl, rfl, rfl, [], (List.append_nil _).symm, by simp⟩

theorem extends_emit (s : PipelineStream) (events : List SseEvent) :
    s.Extends (s.emit events) (encodedItems events) := by
  induction events generalizing s with
  | nil => exact .refl s
  | cons event events ih =>
    have happend := encodedItems_append [event] events
    rw [List.singleton_append] at happend
    rw [happend]
    exact (s.extends_emitEvent event).trans (ih _)

end PipelineStream

/-! ## What has been done -/

/-- The events among the answers of the source. -/
def eventsOf (polls : List SourcePoll) : List SseEvent := polls.filterMap fun p => p.item.event?

theorem eventsOf_append (polls polls' : List SourcePoll) :
    eventsOf (polls ++ polls') = eventsOf polls ++ eventsOf polls' := List.filterMap_append

/-- No item of the source is an error, and no transformer fails on what it takes. -/
structure Clean (ts : List EventTransformer) (polls : List SourcePoll) : Prop where
  source : ∀ poll ∈ polls, ∀ message, poll.item ≠ .error message
  transforms : ∃ r, Transducer.passAll ts (eventsOf polls) = .ok r
  finishes : (∃ poll ∈ polls, poll.item = .ended) →
    ∃ out, Transducer.outputs ts.length ts (eventsOf polls) = .ok out

/-- What the answers of the source have been made to. `items` are all items so far, whether the
consumer has them or not. -/
inductive Progress (ts : List EventTransformer) (polls : List SourcePoll) (items : List Item)
    (s : PipelineStream) : Prop
  | live (out : List SseEvent) (hdone : s.sourceDone = false)
      (hpass : Transducer.passAll ts (eventsOf polls) = .ok (s.transformers, out))
      (hitems : items = encodedItems out) (hsent : ∀ m ∈ s.sent, m.isPayload = true)
      (hsource : ∀ poll ∈ polls, ∀ message, poll.item ≠ .error message)
      (hended : ∀ poll ∈ polls, poll.item ≠ .ended)
  | completed (out : List SseEvent) (hdone : s.sourceDone = true)
      (hpass : Transducer.outputs ts.length ts (eventsOf polls) = .ok out)
      (hitems : items = encodedItems out) (hsent : ∀ m ∈ s.sent, m.isPayload = true)
      (hsource : ∀ poll ∈ polls, ∀ message, poll.item ≠ .error message)
      (hended : ∃ poll ∈ polls, poll.item = .ended)
  | failed (events out : List SseEvent) (n : Nat) (message : String) (hdone : s.sourceDone = true)
      (hevents : events <+: eventsOf polls)
      (hpass : Transducer.outputs n ts events = .ok out)
      (hitems : items = encodedItems out ++ [.error message])
      (herror : s.tap = true → .error message ∈ s.sent) (hsent : .done ∉ s.sent)
      (hclean : ¬Clean ts polls)
      (hended : n ≠ 0 → events = eventsOf polls ∧ ∃ poll ∈ polls, poll.item = .ended)

namespace Progress

variable {ts : List EventTransformer} {polls : List SourcePoll} {items : List Item}
  {s : PipelineStream}

theorem pop (h : Progress ts polls items s) (rest : List Item) :
    Progress ts polls items { s with pending := rest } := by
  cases h with
  | live out hdone hpass hitems hsent hsource hended =>
    exact .live out hdone hpass hitems hsent hsource hended
  | completed out hdone hpass hitems hsent hsource hended =>
    exact .completed out hdone hpass hitems hsent hsource hended
  | failed events out n message hdone hevents hpass hitems herror hsent hclean hended =>
    exact .failed events out n message hdone hevents hpass hitems herror hsent hclean hended

theorem done_notMem (h : Progress ts polls items s) : .done ∉ s.sent := by
  cases h with
  | live out hdone hpass hitems hsent hsource hended => exact fun h => absurd (hsent _ h) (by decide)
  | completed out hdone hpass hitems hsent hsource hended =>
    exact fun h => absurd (hsent _ h) (by decide)
  | failed events out n message hdone hevents hpass hitems herror hsent hclean hended => exact hsent

end Progress

/-! ## An answer of the source -/

theorem PipelineStream.Extends.payload {s s' : PipelineStream} {items : List Item}
    (h : s.Extends s' items) (hsent : ∀ m ∈ s.sent, m.isPayload = true) :
    ∀ m ∈ s'.sent, m.isPayload = true := by
  obtain ⟨msgs, hmsgs, hpayload⟩ := h.sent
  rw [hmsgs]
  exact List.forall_mem_append.mpr ⟨hsent, hpayload⟩

open Transducer in
/-- The transformers are finished one by one. Where one fails, those before it are finished. -/
theorem finishFrom_spec (left : Nat) {ts later : List EventTransformer}
    {events out : List SseEvent} (s : PipelineStream)
    (hpass : passAll ts events = .ok (later, out)) (hleft : ts.length = left) :
    ∃ tail, s.Extends (s.finishFrom left later).1 (encodedItems tail) ∧
      ((s.finishFrom left later).2 = none ∧ outputs left ts events = .ok (out ++ tail) ∨
        ∃ message n, (s.finishFrom left later).2 = some message ∧
          outputs n ts events = .ok (out ++ tail) ∧ ∀ r, outputs left ts events ≠ .ok r) := by
  induction left generalizing ts later events out s with
  | zero =>
    refine ⟨[], .refl s, Or.inl ⟨rfl, ?_⟩⟩
    rw [outputs, hpass, List.append_nil]
    rfl
  | succ left ih =>
    obtain ⟨t, ts, rfl⟩ := List.exists_cons_of_length_eq_add_one hleft
    obtain ⟨⟨t₁, mid⟩, ht, hrest⟩ := bind_eq_ok.mp hpass
    obtain ⟨⟨later, out'⟩, hlater, heq⟩ := Except.map_eq_ok.mp hrest
    cases heq
    have hnone : outputs 0 (t :: ts) events = .ok (out' ++ []) := by
      rw [outputs, hpass, List.append_nil]
      rfl
    rw [PipelineStream.finishFrom]
    cases hfinish : (t₁.finish t₁.state).2 with
    | error e =>
      refine ⟨[], .refl s, Or.inr ⟨e.display, 0, rfl, hnone, fun r hr => ?_⟩⟩
      obtain ⟨all, hdrain, -⟩ := bind_eq_ok.mp hr
      rw [drain, ht] at hdrain
      obtain ⟨last, hlast, -⟩ := Except.map_eq_ok.mp hdrain
      rw [hfinish] at hlast
      cases hlast
    | ok last =>
      have hdrain : t.drain events = .ok (mid ++ last) := by
        rw [drain, ht]
        exact Except.map_eq_ok.mpr ⟨last, hfinish, rfl⟩
      have houtputs (n : Nat) :
          outputs (n + 1) (t :: ts) events = outputs n ts (mid ++ last) := by
        rw [outputs, hdrain]
        rfl
      dsimp only
      cases hthrough : passAll later last with
      | error e =>
        refine ⟨[], .refl s, Or.inr ⟨e.display, 0, rfl, hnone, fun r hr => ?_⟩⟩
        rw [houtputs] at hr
        obtain ⟨q, hq⟩ := passAll_of_outputs hr
        obtain ⟨r₁, r₂, h₁, h₂, -⟩ := passAll_append.mp hq
        rw [hlater] at h₁
        cases h₁
        rw [hthrough] at h₂
        cases h₂
      | ok r =>
        have hnext : passAll ts (mid ++ last) = .ok (r.1, out' ++ r.2) :=
          passAll_append.mpr ⟨(later, out'), r, hlater, hthrough, rfl⟩
        obtain ⟨tail, hextends, hresult⟩ :=
          ih (s.emit r.2) hnext (Nat.succ.inj hleft)
        refine ⟨r.2 ++ tail, ?_, ?_⟩
        · rw [encodedItems_append]
          exact (s.extends_emit r.2).trans hextends
        · rw [houtputs, ← List.append_assoc]
          refine hresult.imp_right ?_
          rintro ⟨message, n, hmessage, hn, hall⟩
          exact ⟨message, n + 1, hmessage, by rw [houtputs, hn], hall⟩

theorem eventsOf_singleton (poll : SourcePoll) : eventsOf [poll] = poll.item.event?.toList := by
  rw [eventsOf, List.filterMap_cons]
  cases poll.item.event? <;> rfl

/-- All answers of the source, and one more. -/
theorem forall_mem_concat {P : SourcePoll → Prop} {polls : List SourcePoll} {poll : SourcePoll}
    (h : ∀ p ∈ polls, P p) (hpoll : P poll) : ∀ p ∈ polls ++ [poll], P p :=
  List.forall_mem_append.mpr ⟨h, List.forall_mem_singleton.mpr hpoll⟩

namespace Progress

variable {ts : List EventTransformer} {polls : List SourcePoll} {yielded : List Item}
  {s s' : PipelineStream}

/-- What an error leaves: the items before it, and itself. -/
theorem fail {events out : List SseEvent} {n : Nat} (message : String)
    (hevents : events <+: eventsOf polls) (hpass : Transducer.outputs n ts events = .ok out)
    (hitems : yielded ++ s.pending = encodedItems out) (hsent : ∀ m ∈ s.sent, m.isPayload = true)
    (hclean : ¬Clean ts polls)
    (hended : n ≠ 0 → events = eventsOf polls ∧ ∃ poll ∈ polls, poll.item = .ended) :
    Progress ts polls (yielded ++ { s.fail message with sourceDone := true }.pending)
      { s.fail message with sourceDone := true } := by
  refine .failed events out n message rfl hevents hpass ?_ (fun h => ?_) ?_ hclean hended
  · rw [← hitems, List.append_assoc, ← s.sendTap_pending (.error message)]
    rfl
  · have hwanted : s.tap = true := (s.sendTap_tap (.error message)).symm.trans h
    rw [PipelineStream.fail, PipelineStream.sendTap, if_pos hwanted]
    exact List.mem_append_right _ (List.mem_singleton_self _)
  · have hnot : .done ∉ s.sent := fun h => absurd (hsent _ h) (by decide)
    rw [PipelineStream.fail, PipelineStream.sendTap]
    split_ifs
    · exact fun h => (List.mem_append.mp h).elim hnot (by simp)
    · exact hnot

open Transducer in
/-- **What one answer of the source does.** -/
theorem answer (h : Progress ts polls (yielded ++ s.pending) s) (hlive : s.sourceDone = false)
    (poll : SourcePoll) :
    let s' := (s.teeChunks poll.chunks).onItem poll.item
    Progress ts (polls ++ [poll]) (yielded ++ s'.pending) s' ∧ s'.tap = s.tap := by
  have htee := s.extends_teeChunks poll.chunks
  generalize s.teeChunks poll.chunks = s₁ at htee
  have hpending : s₁.pending = s.pending := htee.pending.trans (List.append_nil _)
  cases h with
  | completed out hdone => rw [hlive] at hdone; cases hdone
  | failed events out n message hdone => rw [hlive] at hdone; cases hdone
  | live out hdone hpass hitems hsent hsource hended =>
    have hpre : eventsOf polls <+: eventsOf (polls ++ [poll]) :=
      ⟨_, (eventsOf_append polls [poll]).symm⟩
    have hbefore : outputs 0 ts (eventsOf polls) = .ok out := by
      rw [outputs, hpass]
      rfl
    have hsent₁ := htee.payload hsent
    rw [← hpending] at hitems
    rw [← htee.transformers] at hpass
    have hevents : eventsOf (polls ++ [poll]) = eventsOf polls ++ poll.item.event?.toList := by
      rw [eventsOf_append, eventsOf_singleton]
    have hlast : poll ∈ polls ++ [poll] := List.mem_append_right _ (List.mem_singleton_self _)
    cases hitem : poll.item with
    | pending =>
      rw [hitem] at hevents
      have hsame : eventsOf (polls ++ [poll]) = eventsOf polls := hevents.trans (List.append_nil _)
      rw [← hsame] at hpass
      refine ⟨.live out (htee.sourceDone.trans hdone) hpass hitems hsent₁ ?_ ?_, htee.tap⟩
      · exact forall_mem_concat hsource fun message h => by rw [hitem] at h; cases h
      · exact forall_mem_concat hended fun h => by rw [hitem] at h; cases h
    | event event =>
      rw [hitem] at hevents
      change _ = eventsOf polls ++ [event] at hevents
      have hparsed : s₁.Extends (s₁.sendTapKind s₁.tapKinds.parsed (.parsed event.json)) [] :=
        s₁.extends_sendTapKind _ rfl
      rw [PipelineStream.onItem, PipelineStream.processEvent]
      generalize s₁.sendTapKind s₁.tapKinds.parsed (.parsed event.json) = s₂ at hparsed
      have hpending₂ : s₂.pending = s₁.pending := hparsed.pending.trans (List.append_nil _)
      have htap₂ : s₂.tap = s.tap := hparsed.tap.trans htee.tap
      rw [← hpending₂] at hitems
      rw [← hparsed.transformers] at hpass
      dsimp only
      cases hthrough : passAll s₂.transformers [event] with
      | error e =>
        refine ⟨fail e.display hpre hbefore hitems (hparsed.payload hsent₁) (fun hclean => ?_)
          (fun h => absurd rfl h), (s₂.sendTap_tap _).trans htap₂⟩
        obtain ⟨r, hr⟩ := hclean.transforms
        rw [hevents] at hr
        obtain ⟨r₁, r₂, h₁, h₂, -⟩ := passAll_append.mp hr
        rw [hpass] at h₁
        cases h₁
        rw [hthrough] at h₂
        cases h₂
      | ok r =>
        have hemit := PipelineStream.extends_emit { s₂ with transformers := r.1 } r.2
        refine ⟨.live (out ++ r.2) ?_ ?_ ?_ ?_ ?_ ?_, hemit.tap.trans htap₂⟩
        · exact hemit.sourceDone.trans (hparsed.sourceDone.trans (htee.sourceDone.trans hdone))
        · rw [hevents, hemit.transformers]
          exact passAll_append.mpr ⟨_, r, hpass, hthrough, rfl⟩
        · rw [hemit.pending, ← List.append_assoc, hitems, encodedItems_append]
        · exact hemit.payload (hparsed.payload hsent₁)
        · exact forall_mem_concat hsource fun message h => by rw [hitem] at h; cases h
        · exact forall_mem_concat hended fun h => by rw [hitem] at h; cases h
    | error message =>
      refine ⟨fail message hpre hbefore hitems hsent₁ (fun hclean => ?_)
        (fun h => absurd rfl h), (s₁.sendTap_tap _).trans htee.tap⟩
      exact hclean.source poll hlast message hitem
    | ended =>
      rw [hitem] at hevents
      have hsame : eventsOf (polls ++ [poll]) = eventsOf polls := hevents.trans (List.append_nil _)
      have hended' : ∃ p ∈ polls ++ [poll], p.item = .ended := ⟨poll, hlast, hitem⟩
      have hlength : ts.length = s₁.transformers.length := (length_passAll hpass).symm
      obtain ⟨tail, hextends, hresult⟩ := finishFrom_spec _ s₁ hpass hlength
      rw [PipelineStream.onItem, PipelineStream.finishTransformers]
      generalize s₁.finishFrom s₁.transformers.length s₁.transformers = r at hextends hresult
      obtain ⟨s₂, failed⟩ := r
      have hitems₂ : yielded ++ s₂.pending = encodedItems (out ++ tail) := by
        rw [hextends.pending, ← List.append_assoc, hitems, encodedItems_append]
      have htap₂ : s₂.tap = s.tap := hextends.tap.trans htee.tap
      obtain ⟨hnone, hall⟩ | ⟨message, n, hmessage, hn, hall⟩ := hresult
      · cases hnone
        rw [← hlength, ← hsame] at hall
        refine ⟨.completed (out ++ tail) rfl hall hitems₂ (hextends.payload hsent₁) ?_ hended', htap₂⟩
        exact forall_mem_concat hsource fun message h => by rw [hitem] at h; cases h
      · cases hmessage
        refine ⟨fail message hpre hn hitems₂ (hextends.payload hsent₁) (fun hclean => ?_)
          (fun _ => ⟨hsame.symm, hended'⟩), (s₂.sendTap_tap _).trans htap₂⟩
        obtain ⟨r, hr⟩ := hclean.finishes hended'
        rw [hsame, hlength] at hr
        exact hall r hr

end Progress

/-! ## Polls -/

def PollResult.items : PollResult → List Item
  | .pending => []
  | .ready none => []
  | .ready (some item) => [item]

variable {answers : List SourcePoll} {results : List PollResult}

/-- **What one poll does.** -/
theorem pollNext_progress {ts : List EventTransformer} {polls : List SourcePoll}
    {yielded : List Item} {s s' : PipelineStream} {r : PollResult}
    (h : Progress ts polls (yielded ++ s.pending) s) (hpoll : s.pollNext answers = some (s', r)) :
    Progress ts (polls ++ answers) (yielded ++ r.items ++ s'.pending) s' ∧ s'.tap = s.tap ∧
      (r = .ready none → s'.pending = [] ∧ s'.sourceDone = true) := by
  induction answers generalizing polls s with
  | nil =>
    rw [PipelineStream.pollNext] at hpoll
    rw [List.append_nil]
    cases hpending : s.pending with
    | cons item rest =>
      rw [hpending] at hpoll h
      cases hpoll
      refine ⟨?_, rfl, fun h => by cases h⟩
      rw [PollResult.items, List.append_assoc]
      exact h.pop rest
    | nil =>
      rw [hpending] at hpoll
      by_cases hdone : s.sourceDone = true
      · rw [if_pos hdone] at hpoll
        cases hpoll
        refine ⟨?_, rfl, fun _ => ⟨hpending, hdone⟩⟩
        rw [PollResult.items, List.append_nil]
        exact h
      · rw [if_neg hdone] at hpoll
        cases hpoll
  | cons answer answers ih =>
    rw [PipelineStream.pollNext] at hpoll
    cases hpending : s.pending with
    | cons item rest =>
      rw [hpending] at hpoll
      cases hpoll
    | nil =>
      rw [hpending] at hpoll
      by_cases hdone : s.sourceDone = true
      · rw [if_pos hdone] at hpoll
        cases hpoll
      · rw [if_neg hdone] at hpoll
        have hlive : s.sourceDone = false := by simpa using hdone
        obtain ⟨hanswer, htap⟩ := h.answer hlive answer
        have hnext (hrest : ((s.teeChunks answer.chunks).onItem answer.item).pollNext answers =
            some (s', r)) :
            Progress ts (polls ++ answer :: answers) (yielded ++ r.items ++ s'.pending) s' ∧
              s'.tap = s.tap ∧ (r = .ready none → s'.pending = [] ∧ s'.sourceDone = true) := by
          obtain ⟨hprogress, htap', hend⟩ := ih hanswer hrest
          rw [List.append_assoc, List.singleton_append] at hprogress
          exact ⟨hprogress, htap'.trans htap, hend⟩
        cases hitem : answer.item with
        | pending =>
          rw [hitem] at hpoll hanswer htap
          dsimp only at hpoll
          split_ifs at hpoll with hempty
          cases hpoll
          rw [List.isEmpty_iff.mp hempty]
          refine ⟨?_, htap, fun h => by cases h⟩
          rw [PollResult.items, List.append_nil]
          exact hanswer
        | event event =>
          rw [hitem] at hpoll hnext
          exact hnext hpoll
        | error message =>
          rw [hitem] at hpoll hnext
          exact hnext hpoll
        | ended =>
          rw [hitem] at hpoll hnext
          exact hnext hpoll

/-! ## Runs -/

/-- Where a run is: before the finalizer has run, or after. -/
inductive Running (ts : List EventTransformer) (tap : Bool) (polls : List SourcePoll)
    (results : List PollResult) (s : StreamWithFinalizer) : Prop
  | going (hfin : s.fin = true) (htap : s.inner.tap = tap)
      (hprogress : Progress ts polls (results.flatMap PollResult.items ++ s.inner.pending) s.inner)
      (hdrained : .ready none ∉ results)
  | finalized (before : PipelineStream) (hfin : s.fin = false) (htap : before.tap = tap)
      (hprogress : Progress ts polls (results.flatMap PollResult.items) before)
      (hpending : before.pending = []) (hdone : before.sourceDone = true)
      (hinner : s.inner = before.sendTap .done)

/-- A stream that is done asks the source no more. -/
theorem pollNext_of_done {s : PipelineStream} {r : PipelineStream × PollResult}
    (hpending : s.pending = []) (hdone : s.sourceDone = true) (h : s.pollNext answers = some r) :
    answers = [] ∧ r = (s, .ready none) := by
  cases answers with
  | nil =>
    rw [PipelineStream.pollNext, hpending] at h
    dsimp only at h
    rw [if_pos hdone] at h
    cases h
    exact ⟨rfl, rfl⟩
  | cons answer answers =>
    rw [PipelineStream.pollNext, hpending] at h
    dsimp only at h
    rw [if_pos hdone] at h
    cases h

theorem Running.pollNext {ts : List EventTransformer} {tap : Bool} {polls : List SourcePoll}
    {s s' : StreamWithFinalizer} {r : PollResult} (h : Running ts tap polls results s)
    (hpoll : s.pollNext answers = some (s', r)) :
    Running ts tap (polls ++ answers) (results ++ [r]) s' := by
  obtain ⟨⟨inner, r'⟩, hinner, heq⟩ := Option.map_eq_some_iff.mp hpoll
  have hitems (r : PollResult) : (results ++ [r]).flatMap PollResult.items =
      results.flatMap PollResult.items ++ r.items := by
    rw [List.flatMap_append, List.flatMap_singleton]
  cases h with
  | going hfin htap hprogress hdrained =>
    obtain ⟨hnext, htap', hend⟩ := pollNext_progress hprogress hinner
    rw [← hitems] at hnext
    have hgoing (hne : r' ≠ .ready none) :
        Running ts tap (polls ++ answers) (results ++ [r']) ⟨inner, s.fin⟩ := by
      refine .going hfin (htap'.trans htap) hnext fun hmem => ?_
      obtain hmem | hlast := List.mem_append.mp hmem
      · exact hdrained hmem
      · exact hne (List.mem_singleton.mp hlast).symm
    cases r' with
    | pending =>
      cases heq
      exact hgoing (by simp)
    | ready item =>
      cases item with
      | some item =>
        cases heq
        exact hgoing (by simp)
      | none =>
        obtain ⟨hpending, hdone⟩ := hend rfl
        cases heq
        rw [hpending, List.append_nil] at hnext
        rw [StreamWithFinalizer.finalize, if_pos hfin]
        exact .finalized inner rfl (htap'.trans htap) hnext hpending hdone rfl
  | finalized before hfin htap hprogress hpending hdone hsent =>
    have hpending' : s.inner.pending = [] := by
      rw [hsent, PipelineStream.sendTap_pending, hpending]
    have hdone' : s.inner.sourceDone = true := by
      rw [hsent, PipelineStream.sendTap]
      split_ifs
      · exact hdone
      · exact hdone
    obtain ⟨rfl, hr⟩ := pollNext_of_done hpending' hdone' hinner
    cases hr
    cases heq
    rw [StreamWithFinalizer.finalize, if_neg (by simp [hfin]), List.append_nil]
    refine .finalized before hfin htap ?_ hpending hdone hsent
    rw [hitems, PollResult.items, List.append_nil]
    exact hprogress

theorem Running.poll {ts : List EventTransformer} {tap : Bool} {polls : List SourcePoll}
    {before : List PollResult} {s s' : StreamWithFinalizer} {calls : List (List SourcePoll)}
    (h : Running ts tap polls before s) (hpoll : s.poll calls = some (s', results)) :
    Running ts tap (polls ++ calls.flatten) (before ++ results) s' := by
  induction calls generalizing polls before s results with
  | nil =>
    cases hpoll
    rw [List.flatten_nil, List.append_nil, List.append_nil]
    exact h
  | cons answers calls ih =>
    obtain ⟨⟨s₁, r⟩, hfirst, hrest⟩ := Option.bind_eq_some_iff.mp hpoll
    obtain ⟨⟨s₂, rs⟩, hlast, heq⟩ := Option.map_eq_some_iff.mp hrest
    cases heq
    have hall := ih (h.pollNext hfirst) hlast
    rw [List.append_assoc, List.append_assoc, List.singleton_append] at hall
    rw [List.flatten_cons]
    exact hall

/-- What a consumer gets of a run. The transformers take events up to the first error, and some of
them are finished, all if the source ended and there was no error. -/
structure Delivered (ts : List EventTransformer) (polls : List SourcePoll)
    (results : List PollResult) (events out : List SseEvent) (n : Nat) (errors : List String) :
    Prop where
  taken : events <+: eventsOf polls
  outputs : Transducer.outputs n ts events = .ok out
  oneError : errors.length ≤ 1
  items : results.flatMap PollResult.items <+: encodedItems out ++ errors.map .error
  drained : .ready none ∈ results →
    results.flatMap PollResult.items = encodedItems out ++ errors.map .error
  finished : n ≠ 0 → events = eventsOf polls ∧ ∃ poll ∈ polls, poll.item = .ended
  allOfIt : errors = [] → events = eventsOf polls ∧
    ((∃ poll ∈ polls, poll.item = .ended) → n = ts.length)

/-- What a run has to be. -/
structure SoundRun (ts : List EventTransformer) (tap : Bool) (polls : List SourcePoll)
    (sent : List ObserverMsg) (results : List PollResult) : Prop where
  doneOnce : tap = true → ∃ others, sent = others ++ [.done] ∧ .done ∉ others
  delivered : ∃ events out n errors, Delivered ts polls results events out n errors
  errorLast : ∀ item ∈ (results.flatMap PollResult.items).dropLast, ∃ bytes, item = .ok bytes
  success : .done ∈ sent → ∀ message, .error message ∉ sent

theorem Progress.delivered {ts : List EventTransformer} {polls : List SourcePoll}
    {items : List Item} {s : PipelineStream} (h : Progress ts polls items s)
    (hpre : results.flatMap PollResult.items <+: items)
    (hdrained : .ready none ∈ results → results.flatMap PollResult.items = items) :
    ∃ events out n errors, Delivered ts polls results events out n errors := by
  cases h with
  | live out hdone hpass hitems hsent hsource hended =>
    subst hitems
    have hout : Transducer.outputs 0 ts (eventsOf polls) = .ok out := by
      rw [Transducer.outputs, hpass]
      rfl
    refine ⟨eventsOf polls, out, 0, [], List.prefix_rfl, hout, Nat.zero_le _, ?_, ?_,
      fun h => absurd rfl h, fun _ => ⟨rfl, fun ⟨poll, hmem, h⟩ => absurd h (hended poll hmem)⟩⟩
    · rwa [List.map_nil, List.append_nil]
    · rwa [List.map_nil, List.append_nil]
  | completed out hdone hpass hitems hsent hsource hended =>
    subst hitems
    refine ⟨eventsOf polls, out, ts.length, [], List.prefix_rfl, hpass, Nat.zero_le _, ?_, ?_,
      fun _ => ⟨rfl, hended⟩, fun _ => ⟨rfl, fun _ => rfl⟩⟩
    · rwa [List.map_nil, List.append_nil]
    · rwa [List.map_nil, List.append_nil]
  | failed events out n message hdone hevents hpass hitems herror hsent hclean hended =>
    subst hitems
    exact ⟨events, out, n, [message], hevents, hpass, le_rfl, hpre, hdrained, hended,
      fun h => by cases h⟩

theorem Delivered.errorLast {ts : List EventTransformer} {polls : List SourcePoll}
    {events out : List SseEvent} {n : Nat} {errors : List String}
    (h : Delivered ts polls results events out n errors) :
    ∀ item ∈ (results.flatMap PollResult.items).dropLast, ∃ bytes, item = .ok bytes := by
  have hlength := h.items.length_le
  rw [List.length_append, List.length_map] at hlength
  have hone := h.oneError
  have hpre : (results.flatMap PollResult.items).dropLast <+: encodedItems out := by
    refine List.prefix_of_prefix_length_le ((List.dropLast_prefix _).trans h.items)
      (List.prefix_append _ _) ?_
    rw [List.length_dropLast]
    omega
  intro item hitem
  obtain ⟨bytes, -, rfl⟩ := List.mem_map.mp (hpre.subset hitem)
  exact ⟨bytes, rfl⟩

/-- However a run ends, the finalizer has run once. -/
theorem Running.dropped {ts : List EventTransformer} {tap : Bool} {polls : List SourcePoll}
    {s : StreamWithFinalizer} (h : Running ts tap polls results s) :
    ∃ last items, Progress ts polls items last ∧ last.tap = tap ∧
      results.flatMap PollResult.items <+: items ∧
      (.ready none ∈ results → results.flatMap PollResult.items = items) ∧
      s.drop.inner = last.sendTap .done := by
  cases h with
  | going hfin htap hprogress hdrained =>
    refine ⟨s.inner, _, hprogress, htap, List.prefix_append _ _, fun h => absurd h hdrained, ?_⟩
    rw [StreamWithFinalizer.drop, StreamWithFinalizer.finalize, if_pos hfin]
  | finalized before hfin htap hprogress hpending hdone hinner =>
    refine ⟨before, _, hprogress, htap, List.prefix_rfl, fun _ => rfl, ?_⟩
    rw [StreamWithFinalizer.drop, StreamWithFinalizer.finalize, if_neg (by simp [hfin]), hinner]

/-- **Runs of the observed pipeline.** -/
theorem observed_pipeline_iff {ts : List EventTransformer} {tap : Bool} {tapKinds : TapKinds}
    {calls : List (List SourcePoll)} {sent : List ObserverMsg} {results : List PollResult}
    (hrun : consume ts tap tapKinds calls = some (sent, results)) :
    SoundRun ts tap calls.flatten sent results ↔ (tap = true → Clean ts calls.flatten) := by
  obtain ⟨⟨s, results'⟩, hpoll, heq⟩ := Option.map_eq_some_iff.mp hrun
  cases heq
  have hstart : Running ts tap [] [] (.new (.new ts tap tapKinds)) := by
    refine .going rfl rfl ?_ (by simp)
    exact .live [] rfl (Transducer.passAll_nil ts) rfl (by simp [StreamWithFinalizer.new,
      PipelineStream.new]) (by simp) (by simp)
  obtain ⟨last, items, hprogress, htap, hpre, hdrained, hdrop⟩ := (hstart.poll hpoll).dropped
  rw [List.nil_append] at hprogress
  rw [List.nil_append] at hpre hdrained
  have hsent : s.drop.inner.sent = if tap = true then last.sent ++ [.done] else last.sent := by
    rw [hdrop, PipelineStream.sendTap, htap]
    split_ifs <;> rfl
  rw [hsent]
  constructor
  · intro h hwanted
    cases hprogress with
    | live out hdone hpass hitems hpayload hsource hended =>
      exact ⟨hsource, ⟨_, hpass⟩, fun ⟨poll, hmem, h⟩ => absurd h (hended poll hmem)⟩
    | completed out hdone hpass hitems hpayload hsource hended =>
      exact ⟨hsource, Transducer.passAll_of_outputs hpass, fun _ => ⟨out, hpass⟩⟩
    | failed events out n message hdone hevents hpass hitems herror hnot hclean hended =>
      have hmem := herror (htap.trans hwanted)
      have hsuccess := h.success
      rw [if_pos hwanted] at hsuccess
      exact absurd (List.mem_append_left _ hmem)
        (hsuccess (List.mem_append_right _ (List.mem_singleton_self _)) message)
  · intro hclean
    obtain ⟨events, out, n, errors, hdelivered⟩ := hprogress.delivered hpre hdrained
    refine ⟨fun hwanted => ⟨last.sent, if_pos hwanted, hprogress.done_notMem⟩,
      ⟨events, out, n, errors, hdelivered⟩, hdelivered.errorLast, fun hdone message => ?_⟩
    by_cases hwanted : tap = true
    · have hpayload : ∀ m ∈ last.sent, m.isPayload = true := by
        cases hprogress with
        | live out hdone hpass hitems hpayload => exact hpayload
        | completed out hdone hpass hitems hpayload => exact hpayload
        | failed events out n message hdone hevents hpass hitems herror hnot hfailed =>
          exact absurd (hclean hwanted) hfailed
      rw [if_pos hwanted]
      intro hmem
      obtain hmem | hlast := List.mem_append.mp hmem
      · exact absurd (hpayload _ hmem) (by simp [ObserverMsg.isPayload])
      · cases List.mem_singleton.mp hlast
    · rw [if_neg hwanted] at hdone
      exact absurd hdone hprogress.done_notMem

/-- A transformer that passes events on and counts them. -/
def countTransformer : EventTransformer where
  State := Nat
  state := 0
  transform n event := (n + 1, .ok [event])
  finish n := (n, .ok [])

/-- An event without a name of its own, and its bytes. -/
def greeting : SseEvent := .ofJson (some "message") (.object [("text", .string "hi")])

def greetingBytes : List UInt8 := Str.utf8Bytes "data: \x7b\"text\":\"hi\"\x7d\n\n"

theorem observed_pipeline_count :
    let calls : List (List SourcePoll) :=
      [[⟨[greetingBytes], .event greeting⟩], [⟨[], .pending⟩], [⟨[], .ended⟩], []]
    ∃ sent results,
      consume [countTransformer] true ⟨true, true, true, true⟩ calls = some (sent, results) ∧
        .parsed greeting.json ∈ sent ∧
        SoundRun [countTransformer] true calls.flatten sent results := by
  intro calls
  have hsource : ∀ poll ∈ calls.flatten, ∀ message, poll.item ≠ .error message := by simp [calls]
  have hsome : ((consume [countTransformer] true ⟨true, true, true, true⟩ calls).any fun run =>
      .parsed greeting.json ∈ run.1) = true := by decide +kernel
  obtain ⟨⟨sent, results⟩, hrun, hparsed⟩ := (Option.any_eq_true _ _).mp hsome
  exact ⟨sent, results, hrun, by simpa using hparsed, (observed_pipeline_iff hrun).mpr fun _ =>
    ⟨hsource, ⟨_, rfl⟩, fun _ => ⟨_, rfl⟩⟩⟩

/-- After an error of the source, the observer is told that the stream has completed. -/
theorem observed_pipeline_error :
    ∃ sent results, consume [] true ⟨true, true, true, true⟩ [[⟨[], .error "connection reset"⟩], []] =
        some (sent, results) ∧
      .error "connection reset" ∈ sent ∧ .done ∈ sent := by
  refine ⟨_, _, rfl, ?_, ?_⟩ <;> decide

end Tokn.Convert
