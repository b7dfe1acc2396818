import Tokn.Lib.Segments
import Tokn.Persistence.RequestUsage
import Tokn.Persistence.Usage

/-!
# Usage before and after the end of a request

The tap of a stream sends the usage of its frames from a task of its own, so usages arrive before
and after `Completed`. The record of an attempt is written, and forgotten, with the first
`Completed` or usage after which it has both and the model is known. What arrives later starts a
new record, which is written, and forgotten, when it is complete in turn.

**Theorem (`usageRecorded_iff`).** After the events of an attempt there is one row with the usage
that was reported, and no record in memory, exactly if the events are a concatenation of such
rounds and the last usage has every field that an earlier one has.
-/

namespace Tokn.Persistence

open Tokn.Segments (unfinished IsSegment)

/-! ## Rounds -/

namespace RequestEvent

def reportsUsage (e : RequestEvent) : Bool :=
  match e.payload with
  | .record (.usage _) => true
  | _ => false

/-- The model that an event extracts. -/
def extractedModel (e : RequestEvent) : Option String :=
  match e.payload with
  | .stage (.extract summary) => some summary.model
  | _ => none

/-- The event starts a record if there is none. -/
def isPended (e : RequestEvent) : Bool :=
  match e.payload with
  | .custom => false
  | .stage (.buildHeaders _) => false
  | .stage (.convertRequest _) => false
  | .record (.upstreamBody _ _) => false
  | .record (.convertedBody _ _) => false
  | _ => true

end RequestEvent

/-- The events of an attempt that its record is made of. -/
def attemptEvents (id : String) (events : List RequestEvent) : List RequestEvent :=
  events.filter fun e => e.id = id && e.isPended

/-- The model that was extracted last. -/
def lastModel (events : List RequestEvent) : Option String :=
  (events.filterMap RequestEvent.extractedModel).getLast?

/-- The last event completes the request or reports its usage, both have happened, and the model is
known. -/
def closesRound (round : List RequestEvent) : Bool :=
  (round.getLast?.any fun e => e.completes || e.reportsUsage) &&
    (round.any RequestEvent.completes && modelIsKnown (lastModel round) &&
      round.any RequestEvent.reportsUsage)

/-- A round ends with the first event that closes it. -/
def Round (events : List RequestEvent) : Prop := IsSegment closesRound events

theorem attemptEvents_concat (id : String) (events : List RequestEvent) (e : RequestEvent) :
    attemptEvents id (events ++ [e]) =
      if (e.id = id && e.isPended) = true then attemptEvents id events ++ [e]
      else attemptEvents id events := by
  rw [attemptEvents, List.filter_append, List.filter_singleton]
  split_ifs with he
  · rw [he]
    rfl
  · rw [Bool.eq_false_of_not_eq_true he]
    exact List.append_nil _

theorem lastModel_concat (events : List RequestEvent) (e : RequestEvent) :
    lastModel (events ++ [e]) = e.extractedModel.or (lastModel events) := by
  rw [lastModel, List.filterMap_append]
  cases he : e.extractedModel with
  | none => rw [List.filterMap_cons_none he, List.filterMap_nil, List.append_nil]; rfl
  | some model => rw [List.filterMap_cons_some he, List.filterMap_nil, List.getLast?_concat]; rfl

theorem closesRound_concat (round : List RequestEvent) (e : RequestEvent) :
    closesRound (round ++ [e]) =
      ((e.completes || e.reportsUsage) &&
        ((round ++ [e]).any RequestEvent.completes && modelIsKnown (lastModel (round ++ [e])) &&
          (round ++ [e]).any RequestEvent.reportsUsage)) := by
  rw [closesRound, List.getLast?_concat, Option.any_some]

namespace RequestPersistence

theorem reportsUsage_eq (e : RequestEvent) : e.reportsUsage = (usageOf e.id e).isSome := by
  obtain ⟨requestId, attempt, ts, payload⟩ := e
  cases payload with
  | stage | custom => rfl
  | record event =>
    cases event with
    | usage usage =>
      rw [usageOf_eq_some.mpr ⟨rfl, rfl⟩]
      rfl
    | inboundConnection | upstreamReq | upstreamResp | upstreamBody | convertedBody => rfl

theorem usagesOf_concat (id : String) (events : List RequestEvent) (e : RequestEvent) :
    (usagesOf id (events ++ [e])).getLast? = (usageOf id e).or (usagesOf id events).getLast? := by
  rw [usagesOf_append]
  cases he : usageOf id e with
  | none =>
    have hnil : usagesOf id [e] = [] := List.filterMap_cons_none he
    rw [hnil, List.append_nil]
    rfl
  | some usage =>
    have hcons : usagesOf id [e] = [usage] := List.filterMap_cons_some he
    rw [hcons, List.getLast?_concat]
    rfl

/-- A usage is part of the record. -/
theorem usagesOf_attemptEvents (id : String) (events : List RequestEvent) :
    usagesOf id (attemptEvents id events) = usagesOf id events := by
  rw [usagesOf, attemptEvents, List.filterMap_filter]
  refine List.filterMap_congr ?_
  intro e _
  split_ifs with he
  · rfl
  · refine (Option.eq_none_iff_forall_ne_some.mpr ?_).symm
    intro usage husage
    obtain ⟨hp, hid⟩ := usageOf_eq_some.mp husage
    apply he
    rw [RequestEvent.isPended, hp, hid, decide_eq_true rfl]
    rfl

end RequestPersistence

open RequestPersistence (usageOf usageOf_eq_some usagesOf usagesOf_concat usagesOf_append
  usagesOf_attemptEvents reportsUsage_eq)

/-! ## What an event does -/

namespace UsageEventHandler

/-- What an event does to the record, as far as it matters when it is written. -/
structure Collects (e : RequestEvent) (update : PendingUsageRecord → PendingUsageRecord) : Prop where
  requestId : ∀ p, (update p).requestId = p.requestId
  completed : ∀ p, (update p).completed = (p.completed || e.completes)
  usageSeen : ∀ p, (update p).usageSeen = (p.usageSeen || e.reportsUsage)
  model : ∀ p, (update p).model = e.extractedModel.or p.model
  usage : ∀ p, (update p).usage = (usageOf e.id e).or p.usage
  usageJson : ∀ p, (update p).usageJson = (usageOf e.id e).elim p.usageJson usageJson

variable (version : String) (h : UsageEventHandler)

variable {e : RequestEvent} {id : String} {round events : List RequestEvent}
  {p : PendingUsageRecord}

/-- An event without a record. -/
theorem handle_of_not_isPended (he : e.isPended = false) : handle version h e = h := by
  obtain ⟨requestId, attempt, ts, payload⟩ := e
  cases payload with
  | custom => rfl
  | stage event => cases event <;> first | rfl | cases he
  | record event => cases event <;> first | rfl | cases he

/-- An event that neither completes a request nor reports its usage. -/
theorem collects_of_quiet {update : PendingUsageRecord → PendingUsageRecord}
    (hquiet : (e.completes || e.reportsUsage) = false)
    (hupdate : ∀ p, (update p).requestId = p.requestId ∧ (update p).completed = p.completed ∧
      (update p).usageSeen = p.usageSeen ∧ (update p).model = e.extractedModel.or p.model ∧
      (update p).usage = p.usage ∧ (update p).usageJson = p.usageJson) : Collects e update := by
  obtain ⟨hc, hu⟩ := Bool.or_eq_false_iff.mp hquiet
  have hnone : usageOf e.id e = none := by
    rw [reportsUsage_eq, Option.isSome_eq_false_iff, Option.isNone_iff_eq_none] at hu
    exact hu
  refine ⟨fun p => (hupdate p).1, ?_, ?_, fun p => (hupdate p).2.2.2.1, ?_, ?_⟩
  · intro p
    rw [hc, Bool.or_false, (hupdate p).2.1]
  · intro p
    rw [hu, Bool.or_false, (hupdate p).2.2.1]
  · intro p
    rw [hnone, Option.none_or, (hupdate p).2.2.2.2.1]
  · intro p
    rw [hnone, (hupdate p).2.2.2.2.2]
    rfl

/-- What happens to the record of an event: it is changed, and persisted after `Completed` and
after a usage. -/
def Handled (h : UsageEventHandler) (e : RequestEvent) (h' : UsageEventHandler) : Prop :=
  ∃ (ts : Int) (update : PendingUsageRecord → PendingUsageRecord), Collects e update ∧
    ((e.completes || e.reportsUsage) = false ∧ h' = h.ensurePending e.id ts update ∨
      (e.completes || e.reportsUsage) = true ∧
        h' = (h.ensurePending e.id ts update).persistIfReady e.id)

theorem handled_of_quiet (ts : Int) (update : PendingUsageRecord → PendingUsageRecord)
    (hquiet : (e.completes || e.reportsUsage) = false)
    (hupdate : ∀ p, (update p).requestId = p.requestId ∧ (update p).completed = p.completed ∧
      (update p).usageSeen = p.usageSeen ∧ (update p).model = e.extractedModel.or p.model ∧
      (update p).usage = p.usage ∧ (update p).usageJson = p.usageJson) :
    Handled h e (h.ensurePending e.id ts update) :=
  ⟨ts, update, collects_of_quiet hquiet hupdate, Or.inl ⟨hquiet, rfl⟩⟩

theorem handled_of_isPended (he : e.isPended = true) : Handled h e (handle version h e) := by
  obtain ⟨requestId, attempt, ts, payload⟩ := e
  cases payload with
  | custom => cases he
  | stage event =>
    cases event with
    | buildHeaders | convertRequest => cases he
    | started | extract | resolve | send | convertResponse | error =>
      dsimp only [handle, onStage, onStarted, onExtract, onResolve, onSend, onConvertResponse,
        onError]
      apply handled_of_quiet
      · rfl
      · exact fun p => ⟨rfl, rfl, rfl, rfl, rfl, rfl⟩
    | completed success =>
      refine ⟨_, _, ?_, Or.inr ⟨rfl, rfl⟩⟩
      refine ⟨fun p => rfl, ?_, ?_, fun p => rfl, fun p => rfl, fun p => rfl⟩
      · exact fun p => (Bool.or_true _).symm
      · exact fun p => (Bool.or_false _).symm
  | record event =>
    cases event with
    | upstreamBody | convertedBody => cases he
    | inboundConnection | upstreamReq | upstreamResp =>
      dsimp only [handle, onRecord, onInboundConnection, onUpstreamReq, onSend]
      apply handled_of_quiet
      · rfl
      · exact fun p => ⟨rfl, rfl, rfl, rfl, rfl, rfl⟩
    | usage usage =>
      have husage : usageOf _ ⟨requestId, attempt, ts, .record (.usage usage)⟩ = some usage :=
        usageOf_eq_some.mpr ⟨rfl, rfl⟩
      refine ⟨_, _, ?_, Or.inr ⟨rfl, rfl⟩⟩
      refine ⟨fun p => rfl, ?_, ?_, fun p => rfl, ?_, ?_⟩
      · exact fun p => (Bool.or_false _).symm
      · exact fun p => (Bool.or_true _).symm
      · intro p
        rw [husage]
        rfl
      · intro p
        rw [husage]
        rfl

/-! ## What a record has -/

/-- What a record has of the events since the last one was forgotten. -/
structure Collected (id : String) (round : List RequestEvent) (p : PendingUsageRecord) : Prop where
  requestId : p.requestId = id
  completed : p.completed = round.any RequestEvent.completes
  usageSeen : p.usageSeen = round.any RequestEvent.reportsUsage
  model : p.model = lastModel round
  usage : p.usage = (usagesOf id round).getLast?
  usageJson : p.usageJson = p.usage.bind Persistence.usageJson

theorem collected_nil (id : String) (ts : Int) :
    Collected id [] { ts := ts, requestId := id } := ⟨rfl, rfl, rfl, rfl, rfl, rfl⟩

theorem Collected.concat (hp : Collected id round p) (hid : e.id = id)
    {update : PendingUsageRecord → PendingUsageRecord} (hupdate : Collects e update) :
    Collected id (round ++ [e]) (update p) where
  requestId := (hupdate.requestId p).trans hp.requestId
  completed := by
    rw [hupdate.completed, hp.completed, List.any_append]
    simp
  usageSeen := by
    rw [hupdate.usageSeen, hp.usageSeen, List.any_append]
    simp
  model := by rw [hupdate.model, hp.model, lastModel_concat]
  usage := by rw [hupdate.usage, hp.usage, usagesOf_concat, hid]
  usageJson := by
    rw [hupdate.usageJson, hupdate.usage, hp.usageJson]
    cases usageOf e.id e <;> rfl

/-- The row that is written of a record has the last usage. -/
theorem Collected.usageJson_toRow (hp : Collected id round p) :
    p.toRow.usageJson = (usagesOf id round).getLast?.bind Persistence.usageJson := by
  show (p.usageJson <|> p.usage.bind Persistence.usageJson) = _
  rw [hp.usageJson, hp.usage]
  cases (usagesOf id round).getLast?.bind Persistence.usageJson <;> rfl

/-- There is a record exactly if a round is unfinished, and it has what was reported in it. -/
structure Tracks (id : String) (round : List RequestEvent) (pending : Option PendingUsageRecord) :
    Prop where
  eq_none_iff : pending = none ↔ round = []
  collected : ∀ ts, Collected id round (pending.getD { ts := ts, requestId := id })

theorem tracks_none (id : String) : Tracks id [] none :=
  ⟨iff_of_true rfl rfl, collected_nil id⟩

theorem tracks_some (hne : round ≠ []) (hp : Collected id round p) : Tracks id round (some p) :=
  ⟨iff_of_false (Option.some_ne_none p) hne, fun _ => hp⟩

/-! ## Persisting -/

theorem get_ensurePending (id id' : String) (ts : Int)
    (update : PendingUsageRecord → PendingUsageRecord) :
    (h.ensurePending id ts update).pending.get id' =
      if id' = id then some (update (h.pendingOr id ts)) else h.pending.get id' :=
  BTreeMap.get_insert ..

variable {h}

/-- A record that is ready is written, and forgotten if its usage is known. -/
theorem persistIfReady_of_ready (hget : h.pending.get id = some p)
    (hready : (p.completed && modelIsKnown p.model) = true) :
    h.persistIfReady id =
      { db := h.db.record p.requestId p.toRow
        pending := if p.usageSeen then h.pending.erase id else h.pending } := by
  rw [persistIfReady, hget]
  dsimp only
  rw [if_pos hready]

theorem persistIfReady_of_not_ready (hget : h.pending.get id = some p)
    (hready : (p.completed && modelIsKnown p.model) = false) : h.persistIfReady id = h := by
  rw [persistIfReady, hget]
  dsimp only
  rw [if_neg (Bool.eq_false_iff.mp hready)]

/-- Persisting one attempt says nothing about another. -/
theorem persistIfReady_frame {id' : String} (hne : id' ≠ id)
    (hname : ∀ p, h.pending.get id = some p → p.requestId = id) :
    (h.persistIfReady id).pending.get id' = h.pending.get id' ∧
      (h.persistIfReady id).db.requests.get id' = h.db.requests.get id' := by
  cases hget : h.pending.get id with
  | none =>
    rw [persistIfReady, hget]
    exact ⟨rfl, rfl⟩
  | some p =>
    cases hready : p.completed && modelIsKnown p.model with
    | false =>
      rw [persistIfReady_of_not_ready hget hready]
      exact ⟨rfl, rfl⟩
    | true =>
      rw [persistIfReady_of_ready hget hready]
      constructor
      · dsimp only
        split_ifs
        · rw [BTreeMap.get_erase, if_neg hne]
        · rfl
      · dsimp only
        rw [UsageDb.get_record, if_neg (hname p hget ▸ hne)]

/-! ## Steps -/

/-- Events of one attempt leave the record and the row of another alone. -/
theorem handled_frame {h' : UsageEventHandler} (hh : Handled h e h')
    (ht : Tracks e.id round (h.pending.get e.id)) (hne : id ≠ e.id) :
    h'.pending.get id = h.pending.get id ∧ h'.db.requests.get id = h.db.requests.get id := by
  obtain ⟨ts, update, hupdate, hcase⟩ := hh
  have hget : (h.ensurePending e.id ts update).pending.get id = h.pending.get id := by
    rw [get_ensurePending, if_neg hne]
  rcases hcase with ⟨-, hh⟩ | ⟨-, hh⟩
  · rw [hh]
    exact ⟨hget, rfl⟩
  · have hname : ∀ p, (h.ensurePending e.id ts update).pending.get e.id = some p →
        p.requestId = e.id := by
      intro p hp
      rw [get_ensurePending, if_pos rfl, Option.some_inj] at hp
      rw [← hp, hupdate.requestId]
      exact (ht.collected ts).requestId
    obtain ⟨hpending, hrow⟩ := persistIfReady_frame hne hname
    rw [hh]
    exact ⟨hpending.trans hget, hrow⟩

/-- **An event of the attempt.** The record is forgotten exactly if the round is closed, and then
it was written. -/
theorem handled_step {h' : UsageEventHandler} (hh : Handled h e h')
    (ht : Tracks e.id round (h.pending.get e.id)) :
    Tracks e.id (Segments.push closesRound round e) (h'.pending.get e.id) ∧
      (closesRound (round ++ [e]) = true →
        ∃ row, h'.db.requests.get e.id = some row ∧
          row.usageJson = (usagesOf e.id (round ++ [e])).getLast?.bind usageJson) := by
  obtain ⟨ts, update, hupdate, hcase⟩ := hh
  have hp : Collected e.id (round ++ [e]) (update (h.pendingOr e.id ts)) :=
    (ht.collected ts).concat rfl hupdate
  have hne : round ++ [e] ≠ [] := List.append_ne_nil_of_right_ne_nil round (List.cons_ne_nil e [])
  have hget : (h.ensurePending e.id ts update).pending.get e.id =
      some (update (h.pendingOr e.id ts)) := by rw [get_ensurePending, if_pos rfl]
  rw [Segments.push, closesRound_concat, ← hp.completed, ← hp.usageSeen, ← hp.model]
  rcases hcase with ⟨hquiet, hh⟩ | ⟨hend, hh⟩
  · -- nothing is persisted
    rw [hquiet, hh, hget]
    exact ⟨tracks_some hne hp, fun hc => absurd hc Bool.false_ne_true⟩
  · rw [hend, hh, Bool.true_and]
    cases hready : (update (h.pendingOr e.id ts)).completed &&
        modelIsKnown (update (h.pendingOr e.id ts)).model with
    | false =>
      rw [persistIfReady_of_not_ready hget hready, hget, Bool.false_and]
      exact ⟨tracks_some hne hp, fun hc => absurd hc Bool.false_ne_true⟩
    | true =>
      rw [persistIfReady_of_ready hget hready, Bool.true_and]
      have hrow : (h.db.record (update (h.pendingOr e.id ts)).requestId
          (update (h.pendingOr e.id ts)).toRow).requests.get e.id =
            some (update (h.pendingOr e.id ts)).toRow := by
        rw [UsageDb.get_record, if_pos hp.requestId.symm]
      refine ⟨?_, fun _ => ⟨_, hrow, hp.usageJson_toRow⟩⟩
      dsimp only
      split_ifs with husage
      · rw [BTreeMap.get_erase, if_pos rfl]
        exact tracks_none e.id
      · rw [hget]
        exact tracks_some hne hp

/-! ## Runs -/

/-- What the handler has of some events. -/
structure Follows (events : List RequestEvent) (h : UsageEventHandler) : Prop where
  tracks : ∀ id, Tracks id (unfinished closesRound (attemptEvents id events)) (h.pending.get id)
  written : ∀ id, attemptEvents id events ≠ [] →
    unfinished closesRound (attemptEvents id events) = [] →
    ∃ row, h.db.requests.get id = some row ∧
      row.usageJson = (usagesOf id events).getLast?.bind usageJson

/-- The usage that closes a round is the last one. -/
theorem getLast?_usagesOf_round (hid : (e.id = id && e.isPended) = true)
    (hclose : closesRound (unfinished closesRound (attemptEvents id events) ++ [e]) = true) :
    (usagesOf id (unfinished closesRound (attemptEvents id events) ++ [e])).getLast? =
      (usagesOf id (events ++ [e])).getLast? := by
  obtain ⟨rounds, hevents, -⟩ :=
    @Segments.exists_segments _ closesRound (attemptEvents id events)
  have hsplit : usagesOf id (events ++ [e]) = usagesOf id rounds.flatten ++
      usagesOf id (unfinished closesRound (attemptEvents id events) ++ [e]) := by
    rw [← usagesOf_attemptEvents, attemptEvents_concat, if_pos hid, ← usagesOf_append,
      ← List.append_assoc, ← hevents]
  have hown : ∀ e' ∈ unfinished closesRound (attemptEvents id events) ++ [e], e'.id = id := by
    intro e' he'
    rcases List.mem_append.mp he' with he' | he'
    · have hmem : e' ∈ attemptEvents id events := by
        rw [hevents]
        exact List.mem_append_right _ he'
      exact of_decide_eq_true (Bool.and_eq_true_iff.mp (List.mem_filter.mp hmem).2).1
    · rw [List.mem_singleton.mp he']
      exact of_decide_eq_true (Bool.and_eq_true_iff.mp hid).1
  have hsome : usagesOf id (unfinished closesRound (attemptEvents id events) ++ [e]) ≠ [] := by
    intro hnil
    obtain ⟨e', he', hreports⟩ := List.any_eq_true.mp
      (Bool.and_eq_true_iff.mp (Bool.and_eq_true_iff.mp hclose).2).2
    rw [reportsUsage_eq, hown e' he', List.filterMap_eq_nil_iff.mp hnil e' he'] at hreports
    cases hreports
  rw [hsplit, List.getLast?_append_of_ne_nil _ hsome]

theorem follows_nil (db : UsageDb) : Follows [] (new db) :=
  ⟨tracks_none, fun _ hne => absurd rfl hne⟩

/-- An event that says nothing about an attempt. -/
theorem usagesOf_of_attemptEvents {events' : List RequestEvent}
    (h : attemptEvents id events' = attemptEvents id events) :
    usagesOf id events' = usagesOf id events := by
  rw [← usagesOf_attemptEvents id events', h, usagesOf_attemptEvents]

theorem Follows.concat (hf : Follows events h) (e : RequestEvent) :
    Follows (events ++ [e]) (handle version h e) := by
  cases hpended : e.isPended with
  | false =>
    have hevents : ∀ id, attemptEvents id (events ++ [e]) = attemptEvents id events := by
      intro id
      rw [attemptEvents_concat, hpended, Bool.and_false]
      rfl
    rw [handle_of_not_isPended version h hpended]
    constructor
    · intro id
      rw [hevents]
      exact hf.tracks id
    · intro id
      rw [hevents, usagesOf_of_attemptEvents (hevents id)]
      exact hf.written id
  | true =>
    have hh := handled_of_isPended version h hpended
    obtain ⟨htracks, hwritten⟩ := handled_step hh (hf.tracks e.id)
    have hother : ∀ id, id ≠ e.id → attemptEvents id (events ++ [e]) = attemptEvents id events := by
      intro id hne
      rw [attemptEvents_concat, decide_eq_false (Ne.symm hne), Bool.false_and]
      rfl
    have hown : (decide (e.id = e.id) && e.isPended) = true := by
      rw [hpended, decide_eq_true rfl]
      rfl
    have hevents := attemptEvents_concat e.id events e
    rw [if_pos hown] at hevents
    constructor
    · intro id
      by_cases hid : id = e.id
      · rw [hid, hevents, Segments.unfinished_concat]
        exact htracks
      · rw [hother id hid, (handled_frame hh (hf.tracks e.id) hid).1]
        exact hf.tracks id
    · intro id
      by_cases hid : id = e.id
      · rw [hid, hevents, Segments.unfinished_concat, Segments.push]
        intro _ hnil
        split_ifs at hnil with hclose
        · rw [← getLast?_usagesOf_round hown hclose]
          exact hwritten hclose
        · exact absurd hnil (List.append_ne_nil_of_right_ne_nil _ (List.cons_ne_nil e []))
      · rw [hother id hid, (handled_frame hh (hf.tracks e.id) hid).2,
          usagesOf_of_attemptEvents (hother id hid)]
        exact hf.written id

theorem follows_handleAll (db : UsageDb) (events : List RequestEvent) :
    Follows events (handleAll version db events) := by
  induction events using List.reverseRecOn with
  | nil => exact follows_nil db
  | append_singleton events e ih =>
    rw [handleAll, List.foldl_concat]
    exact ih.concat version e

/-- One row for the attempt, with the merge of what was reported, and no record in memory. -/
def UsageRecorded (id : String) (events : List RequestEvent) (h : UsageEventHandler) : Prop :=
  (∃ row, h.db.rowsOf id = [row] ∧ row.usageJson = usageJson (mergeAll (usagesOf id events))) ∧
    h.pending.get id = none

/-- The events of an attempt are a concatenation of rounds. -/
def InRounds (id : String) (events : List RequestEvent) : Prop :=
  ∃ rounds : List (List RequestEvent), attemptEvents id events = rounds.flatten ∧
    ∀ round ∈ rounds, Round round

theorem inRounds_iff : InRounds id events ↔ unfinished closesRound (attemptEvents id events) = [] :=
  Segments.unfinished_eq_nil_iff.symm

/-- The last usage that was reported has every field that an earlier one has. -/
def LastReportsAll (id : String) (events : List RequestEvent) : Prop :=
  ∀ last ∈ (usagesOf id events).getLast?, ∀ u ∈ usagesOf id events, ∀ key,
    u.Reports key → last.Reports key

/-- The last usage is what was reported exactly if it has every field. -/
theorem lastReportsAll_iff (id : String) (events : List RequestEvent) :
    LastReportsAll id events ↔
      (usagesOf id events).getLast?.bind usageJson = usageJson (mergeAll (usagesOf id events)) := by
  rw [LastReportsAll]
  rcases List.eq_nil_or_concat (usagesOf id events) with hnil | ⟨before, last, hlast⟩
  · rw [hnil]
    refine iff_of_true (fun last hlast => by cases hlast) rfl
  · rw [hlast, List.concat_eq_append, List.getLast?_concat, Option.bind_some, usageJson_inj,
      mergeAll_concat, eq_comm, merge_eq_iff]
    constructor
    · intro h key hkey
      obtain ⟨u, hu, hukey⟩ := reports_mergeAll.mp hkey
      exact h last rfl u (List.mem_append_left _ hu) key hukey
    · intro h last' hlast' u hu key hkey
      cases hlast'
      rcases List.mem_append.mp hu with hu | hu
      · exact h key (reports_mergeAll.mpr ⟨u, hu, hkey⟩)
      · rwa [List.mem_singleton.mp hu] at hkey

/-- **The usage of an attempt is recorded exactly if its events are a concatenation of rounds and
the last usage has every field that an earlier one has.** -/
theorem usageRecorded_iff (db : UsageDb) {id : String} {events : List RequestEvent}
    (hstarted : ∃ e ∈ events, e.id = id ∧ e.starts = true) :
    UsageRecorded id events (handleAll version db events) ↔
      InRounds id events ∧ LastReportsAll id events := by
  have hf := follows_handleAll version db events
  have hne : attemptEvents id events ≠ [] := by
    obtain ⟨e, he, hid, hstarts⟩ := hstarted
    have hpended : e.isPended = true := by
      rw [RequestEvent.starts] at hstarts
      rw [RequestEvent.isPended]
      split at hstarts
      · next hp => rw [hp]
      · cases hstarts
    refine List.ne_nil_of_mem (List.mem_filter.mpr ⟨he, ?_⟩)
    rw [hpended, hid, decide_eq_true rfl]
    rfl
  rw [lastReportsAll_iff, inRounds_iff, UsageRecorded,
    (hf.tracks id).eq_none_iff, UsageDb.rowsOf_eq]
  constructor
  · intro h
    obtain ⟨⟨row, hrow, husage⟩, hnil⟩ := h
    obtain ⟨row', hget, husage'⟩ := hf.written id hne hnil
    rw [hget, Option.toList_some, List.singleton_inj] at hrow
    rw [← husage', hrow]
    exact ⟨hnil, husage⟩
  · intro h
    obtain ⟨hnil, husage⟩ := h
    obtain ⟨row, hget, husage'⟩ := hf.written id hne hnil
    exact ⟨⟨row, by rw [hget]; rfl, husage'.trans husage⟩, hnil⟩

/-! ## Two usages -/

/-- The start of an attempt. -/
def startEvents : List RequestEvent :=
  [⟨"r", 0, 1767225600001, .stage (.started (.known .messages))⟩,
    ⟨"r", 0, 1767225600002, .stage (.extract
      { model := "claude", stream := true, sessionId := none, initiator := none, headers := [],
        rawBody := [], decodedBody := [], bodyJson := .obj [] })⟩]

def usageEvent (usage : Usage) : RequestEvent := ⟨"r", 0, 1767225600004, .record (.usage usage)⟩

def completedEvent : RequestEvent := ⟨"r", 0, 1767225600003, .stage (.completed true)⟩

/-- A usage before `Completed`, and one after it that has every field. -/
def usageAround : List RequestEvent :=
  startEvents ++ [usageEvent { inputTokens := some 9 }, completedEvent,
    usageEvent { inputTokens := some 9, outputTokens := some 23 }]

/-- **The second usage is not written, and its record stays in memory.** -/
theorem not_usageRecorded :
    (∃ e ∈ usageAround, e.id = "r" ∧ e.starts = true) ∧
      (∃ e ∈ usageAround, modelIsKnown e.extractedModel = true) ∧
      (∃ e ∈ usageAround, e.completes = true) ∧
      ((handleAll "1" UsageDb.empty usageAround).pending.get "r").isSome = true ∧
      (((handleAll "1" UsageDb.empty usageAround).db.rowsOf "r").map UsageRow.usageJson) =
        [usageJson { inputTokens := some 9 }] ∧
      ¬ UsageRecorded "r" usageAround (handleAll "1" UsageDb.empty usageAround) := by
  refine ⟨by decide +kernel, by decide +kernel, by decide +kernel, by decide +kernel,
    by decide +kernel, ?_⟩
  intro h
  exact absurd h.2 (by decide +kernel)

/-- One usage is recorded, after `Completed` too. -/
theorem usageRecorded_after_completed :
    UsageRecorded "r"
      (startEvents ++ [completedEvent, usageEvent { inputTokens := some 9 }])
      (handleAll "1" UsageDb.empty
        (startEvents ++ [completedEvent, usageEvent { inputTokens := some 9 }])) := by
  refine (usageRecorded_iff "1" UsageDb.empty (by decide +kernel)).mpr ⟨?_, ?_⟩
  · exact inRounds_iff.mpr (by decide +kernel)
  · rw [lastReportsAll_iff]
    decide +kernel

end UsageEventHandler

end Tokn.Persistence
