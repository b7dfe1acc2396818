import Tokn.Convert.Buffered
import Tokn.Convert.WireCalls

/-!
# The accumulated tool calls

`IrResponse::push_delta` takes the index of a delta for a position in the vector of calls, and pads
the vector up to it. The index is that of a call, of an output item or of a content block.

**The calls of the upstream** (`callsOf`, `upstreamCalls`). They are told apart by the index as it was
sent, so that `-1`, `0` and no index are three. Each tool block that starts is a call of its own, and so
is each entry or item with another id than the one before it. Its id and name are those that it was
announced with, or else the first that one of its marks has.

**The vector** (`toolCalls_accumulated`). After a stream its length is one more than the largest
index of a fragment. At each position stands what the fragments of that index show.

**Theorem (`recovers_iff`).** The accumulated calls are those of the upstream, in its order and no
more of them than there were events, exactly when the calls stand at the positions from zero on, each
at its own, the fragments at a position bring the identity and the text of the call that comes there,
and there are not more calls than events.
-/

namespace Tokn.Convert.WireCalls

open Value

/-! ## What was sent -/

/-- What an event does with the call of its index. -/
inductive Role where
  /-- It starts one. -/
  | starts
  /-- It names one: another one than before, if the id is another. -/
  | names
  | continues
  /-- It closes the block of one. -/
  | closes
  deriving DecidableEq

/-- A mark, and its index as it was sent. -/
structure Sent where
  place : Option Value
  role : Role
  mark : CallMark

/-- The index that the code reads. -/
def position (place : Option Value) : Nat := (place.bind asU64).getD 0

def blockRole (value : Value) : Role :=
  match value.str "type" with
  | some "content_block_start" => .starts
  | some "content_block_stop" => .closes
  | _ => .continues

def sentBy (endpoint : Endpoint) (w : WireState) (value : Value) : List Sent :=
  match endpoint with
  | .chatCompletions =>
    (chatCalls value).map fun call => ⟨call.get "index", .names, chatMark call⟩
  | .messages =>
    (messagesMarks w.blank value).2.map fun mark => ⟨value.get "index", blockRole value, mark⟩
  | .responses =>
    ((announcement value).map fun mark => ⟨value.get "output_index", .names, mark⟩) ++
      (responsesFragment (observeItem w.known value) value).map fun mark =>
        ⟨value.get "output_index", .continues, mark⟩

/-- The marks of a stream, as they were sent. -/
def sent (endpoint : Endpoint) (values : List Value) : List Sent :=
  (Machine.run (fun w value => ((step endpoint w value).1, sentBy endpoint w value)) {}
    values).2.flatten

theorem map_mark_sentBy (endpoint : Endpoint) (w : WireState) (value : Value) :
    (sentBy endpoint w value).map Sent.mark = (step endpoint w value).2 := by
  cases endpoint with
  | chatCompletions => rw [sentBy, step, chatMarks, List.map_map]; rfl
  | messages => rw [sentBy, step, List.map_map]; exact List.map_id _
  | responses =>
    rw [sentBy, step, List.map_append, List.map_map, List.map_map]
    exact congrArg₂ _ (List.map_id _) (List.map_id _)

variable {mark : CallMark} {value : Value}

theorem index_messagesMarks {blank : Nat → Bool} (h : mark ∈ (messagesMarks blank value).2) :
    mark.index = indexOf value "index" := by
  rw [messagesMarks] at h
  split at h
  · split_ifs at h
    · rw [List.mem_singleton.mp h]
    · cases h
  · split_ifs at h
    · rw [List.mem_singleton.mp h]
    · cases h
  · dsimp only at h
    split_ifs at h
    · rw [List.mem_singleton.mp h]
    · cases h
  · cases h

theorem index_announcement (h : mark ∈ announcement value) :
    mark.index = indexOf value "output_index" := by
  rw [announcement] at h
  split_ifs at h
  · split at h
    · split_ifs at h
      · rw [List.mem_singleton.mp h]
      · cases h
    · cases h
  · cases h

theorem index_responsesFragment {known : Nat → KnownItem}
    (h : mark ∈ responsesFragment known value) : mark.index = indexOf value "output_index" := by
  rw [responsesFragment] at h
  split_ifs at h
  · rw [List.mem_singleton.mp h]
  · cases h

/-- The index of a mark is the one that the code reads. -/
theorem position_sentBy {endpoint : Endpoint} {w : WireState} {s : Sent}
    (h : s ∈ sentBy endpoint w value) : position s.place = s.mark.index := by
  cases endpoint with
  | chatCompletions =>
    obtain ⟨call, -, rfl⟩ := List.mem_map.mp h
    rfl
  | messages =>
    obtain ⟨mark, hmark, rfl⟩ := List.mem_map.mp h
    exact (index_messagesMarks hmark).symm
  | responses =>
    rcases List.mem_append.mp h with hannounced | hfragment
    · obtain ⟨mark, hmark, rfl⟩ := List.mem_map.mp hannounced
      exact (index_announcement hmark).symm
    · obtain ⟨mark, hmark, rfl⟩ := List.mem_map.mp hfragment
      exact (index_responsesFragment hmark).symm

/-- What was sent are the marks of the stream, with indices that read as theirs. -/
theorem sent_spec (endpoint : Endpoint) (values : List Value) :
    (sent endpoint values).map Sent.mark = marks endpoint values ∧
      ∀ s ∈ sent endpoint values, position s.place = s.mark.index := by
  suffices h : ∀ w : WireState,
      (Machine.run (fun w value => ((step endpoint w value).1, sentBy endpoint w value)) w
          values).2.flatten.map Sent.mark = (Machine.run (step endpoint) w values).2.flatten ∧
        ∀ s ∈ (Machine.run (fun w value => ((step endpoint w value).1, sentBy endpoint w value)) w
          values).2.flatten, position s.place = s.mark.index from h {}
  induction values with
  | nil => exact fun _ => ⟨rfl, fun _ hs => absurd hs List.not_mem_nil⟩
  | cons value values ih =>
    intro w
    obtain ⟨hmarks, hposition⟩ := ih (step endpoint w value).1
    rw [Machine.run_cons, Machine.run_cons, List.flatten_cons, List.flatten_cons, List.map_append,
      map_mark_sentBy, hmarks]
    refine ⟨rfl, fun s hs => ?_⟩
    rcases List.mem_append.mp hs with hnow | hlater
    · exact position_sentBy hnow
    · exact hposition s hlater

/-! ## The calls of the upstream -/

/-- A call: the index it was sent with, and its number among the calls of this index. -/
abbrev CallKey := Option Value × Nat

/-- The last call of an index, and the id it was named with. -/
structure Running where
  number : Nat := 0
  id : Option String := none

def Running.name (running : Running) (id : Option String) : Running :=
  match running.id, id with
  | none, id => ⟨running.number, id⟩
  | some _, none => running
  | some known, some id => if id = known then running else ⟨running.number + 1, some id⟩

def Running.after (running : Running) (s : Sent) : Running :=
  match s.role with
  | .starts => ⟨running.number + 1, s.mark.id⟩
  | .names => running.name s.mark.id
  | .continues | .closes => running

structure CallState where
  running : Option Value → Running := fun _ => {}
  /-- The index of the last block that was started at a position. -/
  started : Nat → Option (Option Value) := fun _ => none

/-- The index of the call that a mark is about. What closes a block is about the last one at its
position. -/
def CallState.placeOf (calls : CallState) (s : Sent) : Option Value :=
  if s.role = .closes then (calls.started s.mark.index).getD s.place else s.place

/-- A mark goes with a call. -/
def CallState.step (calls : CallState) (s : Sent) : CallState × (CallKey × CallMark) :=
  let place := calls.placeOf s
  let running := (calls.running place).after s
  ({ running := Function.update calls.running place running,
     started :=
      if s.role = .starts then Function.update calls.started s.mark.index (some s.place)
      else calls.started },
    ((place, running.number), s.mark))

/-- The marks of a stream, each with its call. -/
def callsOf (endpoint : Endpoint) (values : List Value) : List (CallKey × CallMark) :=
  (Machine.run CallState.step {} (sent endpoint values)).2

/-- The blocks that were started are remembered at their positions. -/
def CallState.Placed (calls : CallState) : Prop :=
  ∀ k place, calls.started k = some place → position place = k

theorem CallState.step_spec {calls : CallState} (h : calls.Placed) {s : Sent}
    (hs : position s.place = s.mark.index) :
    (calls.step s).1.Placed ∧ position (calls.step s).2.1.1 = s.mark.index := by
  constructor
  · intro k place hstarted
    rw [CallState.step] at hstarted
    dsimp only at hstarted
    split_ifs at hstarted with hrole
    · by_cases hk : k = s.mark.index
      · rw [hk, Function.update_self, Option.some_inj] at hstarted
        rw [hk, ← hstarted, hs]
      · rw [Function.update_of_ne hk] at hstarted
        exact h k place hstarted
    · exact h k place hstarted
  · show position (calls.placeOf s) = s.mark.index
    rw [CallState.placeOf]
    split_ifs with hrole
    · cases hstarted : calls.started s.mark.index with
      | none => exact hs
      | some place => exact h _ place hstarted
    · exact hs

/-- **The marks of a stream go with calls of their positions.** -/
theorem callsOf_spec (endpoint : Endpoint) (values : List Value) :
    (callsOf endpoint values).map Prod.snd = marks endpoint values ∧
      ∀ e ∈ callsOf endpoint values, position e.1.1 = e.2.index := by
  obtain ⟨hmarks, hposition⟩ := sent_spec endpoint values
  rw [← hmarks, callsOf]
  suffices h : ∀ (ss : List Sent) (calls : CallState), (∀ s ∈ ss, position s.place = s.mark.index) →
      calls.Placed → (Machine.run CallState.step calls ss).2.map Prod.snd = ss.map Sent.mark ∧
        ∀ e ∈ (Machine.run CallState.step calls ss).2, position e.1.1 = e.2.index from
    h _ {} hposition fun _ _ hnone => by cases hnone
  intro ss
  induction ss with
  | nil => exact fun _ _ _ => ⟨rfl, fun _ he => absurd he List.not_mem_nil⟩
  | cons s ss ih =>
    intro calls hss hcalls
    obtain ⟨hplaced, hstep⟩ := CallState.step_spec hcalls (hss s List.mem_cons_self)
    obtain ⟨hrest, hlater⟩ := ih _ (fun s hs => hss s (List.mem_cons_of_mem _ hs)) hplaced
    rw [Machine.run_cons, List.map_cons, List.map_cons, hrest]
    refine ⟨rfl, fun e he => ?_⟩
    rcases List.mem_cons.mp he with rfl | hmem
    · exact hstep
    · exact hlater e hmem

/-- The elements of a list, each where it comes first. -/
def firstSeen {α : Type*} [DecidableEq α] (xs : List α) : List α := xs.reverse.dedup.reverse

/-- The calls, in the order they come in. -/
def callOrder (events : List (CallKey × CallMark)) : List CallKey :=
  firstSeen (events.map Prod.fst)

def marksOf (events : List (CallKey × CallMark)) (key : CallKey) : List CallMark :=
  (events.filter fun e => e.1 = key).map Prod.snd

/-- The events that say that there is such a call. -/
def announcements (marks : List CallMark) : List CallMark :=
  marks.filter fun mark => mark.fragment.isNone

/-- The id of a call: the one it was announced with, or else the first that one of its marks has. -/
def idOf (call : List CallMark) : Option String :=
  (announcements call).findSome? CallMark.id <|> call.findSome? CallMark.id

def nameOf (call : List CallMark) : Option String :=
  (announcements call).findSome? CallMark.name <|> call.findSome? CallMark.name

/-- The concatenated fragments of the arguments of a call. -/
def textOf (call : List CallMark) : String := String.join (call.filterMap CallMark.fragment)

/-- A call as the upstream sent it. -/
def upstreamCall (call : List CallMark) : ToolCall where
  id := idOf call
  name := (nameOf call).getD ""
  arguments := .string (textOf call)

def upstreamCalls (events : List (CallKey × CallMark)) : List ToolCall :=
  (callOrder events).map fun key => upstreamCall (marksOf events key)

/-- The response accumulated from a stream. -/
def accumulated (endpoint : Endpoint) (values : List Value) : IrResponse :=
  ((SseAccumulator.new endpoint).pushValues values).finish

/-- The accumulated response has the calls of the upstream, and no more of them than there were
events. -/
def Recovers (endpoint : Endpoint) (values : List Value) : Prop :=
  (accumulated endpoint values).toolCalls = upstreamCalls (callsOf endpoint values) ∧
    (accumulated endpoint values).toolCalls.length ≤ values.length

/-! ## Aligned calls -/

/-- The last id that a fragment of a call comes with. -/
def lastId (call : List CallMark) : Option String :=
  (fragments call).reverse.findSome? CallMark.id

def lastName (call : List CallMark) : Option String :=
  (fragments call).reverse.findSome? CallMark.name

/-- The fragments of a call bring what the upstream says of a call. -/
structure Brings (call upstream : List CallMark) : Prop where
  fragment : fragments call ≠ []
  id : lastId call = idOf upstream
  name : (lastName call).getD "" = (nameOf upstream).getD ""
  text : textOf call = textOf upstream

/-- The calls of a stream that are accumulated as they are. -/
structure Aligned (events : List (CallKey × CallMark)) (count : Nat) : Prop where
  /-- The calls stand at the positions from zero on, each at its own. -/
  numbered : ((callOrder events).map fun key => position key.1).Perm
    (List.range (callOrder events).length)
  /-- What stands at a position is brought as the call that comes there. -/
  placed : ∀ key ∈ callOrder events, ∀ h : position key.1 < (callOrder events).length,
    Brings (marksOf events key) (marksOf events (callOrder events)[position key.1])
  few : (callOrder events).length ≤ count

/-! ## The vector of calls -/

def ofCall (marks : List CallMark) (index : Nat) : List CallMark :=
  marks.filter fun mark => mark.index = index

/-- A call after a fragment of it. -/
def extend (call : ToolCall) (mark : CallMark) : ToolCall :=
  call.push mark.id mark.name (mark.fragment.getD "")

/-- What the fragments of an index show of a call. -/
def shown (marks : List CallMark) (index : Nat) : ToolCall :=
  (ofCall (fragments marks) index).foldl extend default

/-- The vector after a fragment. -/
def place (calls : List ToolCall) (mark : CallMark) : List ToolCall :=
  (calls ++ List.replicate (mark.index + 1 - calls.length) default).modify mark.index
    fun call => extend call mark

/-- One more than the largest index of the marks. -/
def bound (marks : List CallMark) : Nat := marks.foldl (fun n mark => max n (mark.index + 1)) 0

theorem bound_concat (marks : List CallMark) (mark : CallMark) :
    bound (marks ++ [mark]) = max (bound marks) (mark.index + 1) := by
  rw [bound, List.foldl_append]
  rfl

theorem lt_bound_of_mem {marks : List CallMark} {mark : CallMark} (h : mark ∈ marks) :
    mark.index < bound marks := by
  induction marks using List.reverseRecOn with
  | nil => cases h
  | append_singleton marks last ih =>
    rw [bound_concat]
    rcases List.mem_append.mp h with hmem | hlast
    · have := ih hmem
      omega
    · rw [List.mem_singleton.mp hlast]
      omega

theorem bound_le {marks : List CallMark} {n : Nat} (h : ∀ mark ∈ marks, mark.index < n) :
    bound marks ≤ n := by
  induction marks using List.reverseRecOn with
  | nil => exact Nat.zero_le n
  | append_singleton marks last ih =>
    rw [bound_concat]
    have hinit := ih fun mark hmark => h mark (List.mem_append_left _ hmark)
    have hlast := h last (List.mem_append_right _ (List.mem_singleton_self last))
    omega

theorem ofCall_concat (marks : List CallMark) (mark : CallMark) (k : Nat) :
    ofCall (marks ++ [mark]) k = ofCall marks k ++ if mark.index = k then [mark] else [] := by
  rw [ofCall, List.filter_append, List.filter_singleton]
  by_cases h : mark.index = k
  · rw [decide_eq_true h, if_pos h]
    rfl
  · rw [decide_eq_false h, if_neg h]
    rfl

theorem ofCall_eq_nil {marks : List CallMark} {k : Nat} (h : bound marks ≤ k) :
    ofCall marks k = [] := by
  refine List.filter_eq_nil_iff.mpr fun mark hmark => ?_
  have := lt_bound_of_mem hmark
  simp only [decide_eq_true_eq]
  omega

/-- A fragment changes the call of its index, and the vector is padded up to it. -/
theorem place_map_range (n : Nat) (call : Nat → ToolCall) (mark : CallMark)
    (h : ∀ k, n ≤ k → call k = default) :
    place ((List.range n).map call) mark = (List.range (max n (mark.index + 1))).map
      (Function.update call mark.index (extend (call mark.index) mark)) := by
  refine List.ext_getElem ?_ fun k hk hk' => ?_
  · simp only [place, List.length_modify, List.length_append, List.length_map, List.length_range,
      List.length_replicate]
    omega
  · have hcall : ∀ hk : k < ((List.range n).map call ++ List.replicate
        (mark.index + 1 - ((List.range n).map call).length) default).length,
        ((List.range n).map call ++ List.replicate
          (mark.index + 1 - ((List.range n).map call).length) default)[k] = call k := by
      intro hk
      rw [List.getElem_append]
      split_ifs with hlt
      · rw [List.getElem_map, List.getElem_range]
      · rw [List.getElem_replicate, h k (by simpa using hlt)]
    simp only [place, List.getElem_modify, hcall, List.getElem_map, List.getElem_range]
    by_cases hindex : mark.index = k
    · rw [if_pos hindex, ← hindex, Function.update_self]
    · rw [if_neg hindex, Function.update_of_ne (Ne.symm hindex)]

/-- **The vector after a list of fragments.** -/
theorem foldl_place (marks : List CallMark) :
    marks.foldl place [] =
      (List.range (bound marks)).map fun k => (ofCall marks k).foldl extend default := by
  induction marks using List.reverseRecOn with
  | nil => rfl
  | append_singleton marks mark ih =>
    have hblank : ∀ k, bound marks ≤ k → (ofCall marks k).foldl extend default = default := by
      intro k hk
      rw [ofCall_eq_nil hk]
      rfl
    rw [List.foldl_append, ih, List.foldl_cons, List.foldl_nil, place_map_range _ _ _ hblank,
      bound_concat]
    congr 1
    funext k
    rw [ofCall_concat]
    by_cases hk : mark.index = k
    · rw [if_pos hk, List.foldl_append, ← hk, Function.update_self]
      rfl
    · rw [if_neg hk, List.append_nil, Function.update_of_ne (Ne.symm hk)]

theorem toolCalls_pushDelta (resp : IrResponse) (delta : IrDelta) :
    (resp.pushDelta delta).toolCalls = (ofDelta delta).toList.foldl place resp.toolCalls := by
  cases delta <;> rfl

theorem toolCalls_foldl_pushDelta (resp : IrResponse) (deltas : List IrDelta) :
    (deltas.foldl IrResponse.pushDelta resp).toolCalls =
      (deltas.filterMap ofDelta).foldl place resp.toolCalls := by
  induction deltas generalizing resp with
  | nil => rfl
  | cons delta deltas ih =>
    rw [List.foldl_cons, ih, toolCalls_pushDelta]
    cases h : ofDelta delta with
    | none => rw [List.filterMap_cons_none h, Option.toList_none, List.foldl_nil]
    | some mark => rw [List.filterMap_cons_some h]; rfl

/-! ## The vector after a stream -/

theorem toolCalls_observeResponsesResponse (acc : SseAccumulator) (value : Value) :
    (acc.observeResponsesResponse value).response.toolCalls = acc.response.toolCalls := by
  rw [SseAccumulator.observeResponsesResponse]
  split
  · rfl
  · dsimp only
    split <;> rfl

/-- Decoding an event leaves the calls to its deltas. -/
theorem toolCalls_decode (acc : SseAccumulator) (value : Value) :
    (acc.decode value).1.response.toolCalls = acc.response.toolCalls := by
  cases h : acc.endpoint with
  | chatCompletions => simp only [SseAccumulator.decode, h, SseAccumulator.observeChatChunk]
  | responses =>
    simp only [SseAccumulator.decode, h, SseAccumulator.deltaFromResponsesEvent,
      SseAccumulator.response_observeResponsesDeltas, SseAccumulator.response_observeResponsesPart,
      SseAccumulator.response_observeResponsesOutputItem, toolCalls_observeResponsesResponse]
  | messages =>
    simp only [SseAccumulator.decode, h, SseAccumulator.response_deltaFromMessagesEvent,
      SseAccumulator.response_observeMessagesEvent]

/-- An event adds its fragments. -/
theorem toolCalls_pushValue (acc : SseAccumulator) (value : Value) :
    (acc.pushValue value).1.response.toolCalls =
      ((acc.pushValue value).2.filterMap ofDelta).foldl place acc.response.toolCalls := by
  rw [← toolCalls_decode acc value]
  exact toolCalls_foldl_pushDelta _ _

theorem toolCalls_run (acc : SseAccumulator) (values : List Value) :
    (acc.pushValues values).response.toolCalls =
      ((Machine.run SseAccumulator.pushValue acc values).2.flatten.filterMap ofDelta).foldl place
        acc.response.toolCalls := by
  induction values generalizing acc with
  | nil => rfl
  | cons value values ih =>
    have hrest := ih (acc.pushValue value).1
    rw [toolCalls_pushValue] at hrest
    rw [Machine.run_cons, List.flatten_cons, List.filterMap_append, List.foldl_append]
    exact hrest

/-- **The vector after a stream.** -/
theorem toolCalls_accumulated (endpoint : Endpoint) (values : List Value) :
    (accumulated endpoint values).toolCalls =
      (List.range (bound (fragments (marks endpoint values)))).map
        (shown (marks endpoint values)) := by
  have hrun := toolCalls_run (.new endpoint) values
  rw [fragments_decoded] at hrun
  exact hrun.trans (foldl_place _)

/-! ## What the fragments of a call show -/

theorem mem_ofCall {marks : List CallMark} {mark : CallMark} {k : Nat} :
    mark ∈ ofCall marks k ↔ mark ∈ marks ∧ mark.index = k := by
  rw [ofCall, List.mem_filter, decide_eq_true_eq]

theorem textOf_concat (call : List CallMark) (mark : CallMark) :
    textOf (call ++ [mark]) = textOf call ++ mark.fragment.getD "" := by
  rw [textOf, List.filterMap_append, String.join_append]
  congr 1
  cases h : mark.fragment with
  | none => simp [h]
  | some fragment => simp [h]

/-- The last id, the last name and the text. -/
theorem foldl_extend (call : List CallMark) :
    call.foldl extend default =
      ⟨call.reverse.findSome? CallMark.id, (call.reverse.findSome? CallMark.name).getD "",
        if call = [] then .null else .string (textOf call)⟩ := by
  induction call using List.reverseRecOn with
  | nil => rfl
  | append_singleton call mark ih =>
    have harguments : (if call = [] then Value.null else .string (textOf call)).asStr.getD "" =
        textOf call := by
      by_cases hnil : call = []
      · subst hnil
        rfl
      · rw [if_neg hnil]
        rfl
    have hne : call ++ [mark] ≠ [] := by simp
    rw [List.foldl_append, ih, List.foldl_cons, List.foldl_nil, extend, ToolCall.push, harguments,
      List.reverse_append, List.reverse_singleton, List.singleton_append, List.findSome?_cons,
      List.findSome?_cons, if_neg hne, textOf_concat]
    cases mark.id <;> cases mark.name <;> rfl

/-- A call that is shown with arguments has fragments. -/
theorem ne_nil_of_shown {marks : List CallMark} {k : Nat} {s : String}
    (h : (shown marks k).arguments = .string s) : ofCall (fragments marks) k ≠ [] := by
  intro hnil
  rw [shown, hnil] at h
  cases h

theorem lt_bound_of_shown {marks : List CallMark} {k : Nat} {s : String}
    (h : (shown marks k).arguments = .string s) : k < bound (fragments marks) := by
  by_contra hk
  exact ne_nil_of_shown h (ofCall_eq_nil (not_lt.mp hk))

theorem textOf_fragments (call : List CallMark) : textOf (fragments call) = textOf call := by
  induction call using List.reverseRecOn with
  | nil => rfl
  | append_singleton call mark ih =>
    rw [fragments, List.filter_append, ← fragments, textOf_concat, ← ih, List.filter_singleton]
    cases h : mark.fragment with
    | none => rw [Option.isSome_none, cond_false, List.append_nil, Option.getD_none,
        String.append_empty]
    | some fragment => rw [Option.isSome_some, cond_true, textOf_concat, h]

/-- What is shown at a position is a call of the upstream when the fragments bring it. -/
theorem shown_eq_iff {marks call : List CallMark} {k : Nat}
    (hcall : ofCall (fragments marks) k = fragments call) (upstream : List CallMark) :
    shown marks k = upstreamCall upstream ↔ Brings call upstream := by
  rw [shown, hcall, foldl_extend, textOf_fragments, upstreamCall, ToolCall.mk.injEq]
  constructor
  · rintro ⟨hid, hname, harguments⟩
    by_cases hnil : fragments call = []
    · rw [if_pos hnil] at harguments
      cases harguments
    · rw [if_neg hnil, Value.string.injEq] at harguments
      exact ⟨hnil, hid, hname, harguments⟩
  · intro h
    rw [if_neg h.fragment, h.text]
    exact ⟨h.id, h.name, rfl⟩

/-! ## The positions of the calls -/

theorem mem_firstSeen {α : Type*} [DecidableEq α] {xs : List α} {x : α} :
    x ∈ firstSeen xs ↔ x ∈ xs := by
  rw [firstSeen, List.mem_reverse, List.mem_dedup, List.mem_reverse]

section

variable {events : List (CallKey × CallMark)}

theorem key_mem_callOrder {e : CallKey × CallMark} (he : e ∈ events) : e.1 ∈ callOrder events :=
  mem_firstSeen.mpr (List.mem_map_of_mem he)

variable (hposition : ∀ e ∈ events, position e.1.1 = e.2.index)

include hposition

/-- A position that has fragments is that of a call. -/
theorem mem_positions_of_fragment {k : Nat}
    (h : ofCall (fragments (events.map Prod.snd)) k ≠ []) :
    k ∈ (callOrder events).map fun key => position key.1 := by
  obtain ⟨mark, hmark⟩ := List.exists_mem_of_ne_nil _ h
  obtain ⟨hfragment, rfl⟩ := mem_ofCall.mp hmark
  obtain ⟨e, he, rfl⟩ := List.mem_map.mp (List.mem_of_mem_filter hfragment)
  exact List.mem_map.mpr ⟨e.1, key_mem_callOrder he, hposition e he⟩

/-- Where no two calls have one position, the fragments of a position are those of its call. -/
theorem ofCall_position (hnodup : ((callOrder events).map fun key => position key.1).Nodup)
    {key : CallKey} (hkey : key ∈ callOrder events) :
    ofCall (fragments (events.map Prod.snd)) (position key.1) =
      fragments (marksOf events key) := by
  have hmarks : ofCall (events.map Prod.snd) (position key.1) = marksOf events key := by
    rw [ofCall, marksOf, List.filter_map]
    congr 1
    refine List.filter_congr fun e he => ?_
    rw [Function.comp_apply, decide_eq_decide, ← hposition e he]
    constructor
    · exact List.inj_on_of_nodup_map hnodup (key_mem_callOrder he) hkey
    · rintro rfl
      rfl
  rw [← hmarks, ofCall, ofCall, fragments, fragments, List.filter_comm]

/-! ## The theorem -/

theorem aligned_of_vector {count : Nat}
    (hcalls : (List.range (bound (fragments (events.map Prod.snd)))).map
      (shown (events.map Prod.snd)) = upstreamCalls events)
    (hfew : bound (fragments (events.map Prod.snd)) ≤ count) : Aligned events count := by
  have hlength : bound (fragments (events.map Prod.snd)) = (callOrder events).length := by
    simpa [upstreamCalls] using congrArg List.length hcalls
  have hshown : ∀ k (hk : k < (callOrder events).length),
      shown (events.map Prod.snd) k = upstreamCall (marksOf events (callOrder events)[k]) := by
    intro k hk
    have hget := congrArg (fun calls => calls[k]?) hcalls
    simpa [upstreamCalls, hlength, hk] using hget
  -- every position shows a call, so it has fragments and is that of one
  have hsubset : List.range (callOrder events).length ⊆
      (callOrder events).map fun key => position key.1 := by
    intro k hk
    have harguments := congrArg ToolCall.arguments (hshown k (List.mem_range.mp hk))
    exact mem_positions_of_fragment hposition (ne_nil_of_shown harguments)
  have hnumbered : ((callOrder events).map fun key => position key.1).Perm
      (List.range (callOrder events).length) := by
    refine ((List.subperm_of_subset List.nodup_range hsubset).perm_of_length_le ?_).symm
    rw [List.length_map, List.length_range]
  refine ⟨hnumbered, fun key hkey h => ?_, hlength ▸ hfew⟩
  have hnodup := hnumbered.nodup_iff.mpr List.nodup_range
  exact (shown_eq_iff (ofCall_position hposition hnodup hkey) _).mp (hshown _ h)

theorem vector_of_aligned {count : Nat} (h : Aligned events count) :
    bound (fragments (events.map Prod.snd)) = (callOrder events).length ∧
      (List.range (bound (fragments (events.map Prod.snd)))).map (shown (events.map Prod.snd)) =
        upstreamCalls events := by
  have hnodup := h.numbered.nodup_iff.mpr List.nodup_range
  have hshown : ∀ k (hk : k < (callOrder events).length),
      shown (events.map Prod.snd) k = upstreamCall (marksOf events (callOrder events)[k]) := by
    intro k hk
    obtain ⟨key, hkey, rfl⟩ := List.mem_map.mp (h.numbered.mem_iff.mpr (List.mem_range.mpr hk))
    exact (shown_eq_iff (ofCall_position hposition hnodup hkey) _).mpr (h.placed key hkey hk)
  have hle : bound (fragments (events.map Prod.snd)) ≤ (callOrder events).length := by
    refine bound_le fun mark hmark => ?_
    obtain ⟨e, he, rfl⟩ := List.mem_map.mp (List.mem_of_mem_filter hmark)
    rw [← hposition e he]
    have hkey := List.mem_map_of_mem (f := fun key => position key.1) (key_mem_callOrder he)
    exact List.mem_range.mp (h.numbered.mem_iff.mp hkey)
  have hge : (callOrder events).length ≤ bound (fragments (events.map Prod.snd)) := by
    by_contra hlt
    have harguments := congrArg ToolCall.arguments (hshown _ (not_le.mp hlt))
    exact lt_irrefl _ (lt_bound_of_shown harguments)
  refine ⟨le_antisymm hle hge, ?_⟩
  rw [le_antisymm hle hge]
  refine List.ext_getElem (by simp [upstreamCalls]) fun k hk _ => ?_
  rw [List.length_map, List.length_range] at hk
  simpa [upstreamCalls] using hshown k hk

end

/-- **The accumulated calls.** They are those of the upstream exactly when its calls are aligned. -/
theorem recovers_iff (endpoint : Endpoint) (values : List Value) :
    Recovers endpoint values ↔ Aligned (callsOf endpoint values) values.length := by
  obtain ⟨hmarks, hposition⟩ := callsOf_spec endpoint values
  rw [Recovers, toolCalls_accumulated, List.length_map, List.length_range, ← hmarks]
  constructor
  · rintro ⟨hcalls, hfew⟩
    exact aligned_of_vector hposition hcalls hfew
  · intro h
    obtain ⟨hlength, hcalls⟩ := vector_of_aligned hposition h
    exact ⟨hcalls, hlength ▸ h.few⟩

/-! A Messages stream whose first block is a text: its only call comes second. -/

def textThenTool : List Value :=
  [.object [("content_block", .object [("text", .string ""), ("type", .string "text")]),
      ("index", .nat 0), ("type", .string "content_block_start")],
    .object [("delta", .object [("text", .string "Looking"), ("type", .string "text_delta")]),
      ("index", .nat 0), ("type", .string "content_block_delta")],
    .object [("content_block", .object [("id", .string "toolu_1"), ("name", .string "search"),
        ("type", .string "tool_use")]),
      ("index", .nat 1), ("type", .string "content_block_start")],
    .object [("delta", .object [("partial_json", .string "\x7b\x7d"),
        ("type", .string "input_json_delta")]),
      ("index", .nat 1), ("type", .string "content_block_delta")]]

/-- A blank call stands before it. -/
theorem padding_precedes_call : ¬ ∀ endpoint values, Recovers endpoint values := by
  intro h
  have hcalls := (h .messages textThenTool).1
  have hpadded : (accumulated .messages textThenTool).toolCalls =
      [default, ⟨some "toolu_1", "search", .string "\x7b\x7d"⟩] := by decide
  rw [hpadded] at hcalls
  revert hcalls
  decide

end Tokn.Convert.WireCalls
