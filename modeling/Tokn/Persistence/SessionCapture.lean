import Tokn.Lib.History
import Tokn.Persistence.Live
import Tokn.Persistence.MessageTree

/-!
# What live capture records

The handler keeps what it has seen of a request under the id of its attempt, from `Started` to
`Completed`. Between the two, the events of other requests may come in any order. They do not
touch what is kept for this one, except that a `Started` drops whatever has been pending for more
than a day.

**Theorem (`session_run`).** Where no other pair of request id and attempt has the same composed
id, a pair has a node exactly if one of its runs has completed with success, and has said enough to
be recorded, and the database has accepted the record. It has one node at most, and the messages of
the node are those of such a run: they come from the events of the pair since it was started.
-/

namespace Tokn.Persistence

/-! ## Runs of a pair -/

/-- A request id and an attempt. -/
structure Attempt where
  requestId : String
  attempt : UInt32
  deriving DecidableEq

def Attempt.id (p : Attempt) : String := compositeRequestId p.requestId p.attempt

/-- An event of the pair. -/
def RequestEvent.isOf (p : Attempt) (e : RequestEvent) : Bool :=
  e.requestId = p.requestId && e.attempt = p.attempt

theorem RequestEvent.id_of_isOf {p : Attempt} {e : RequestEvent} (h : e.isOf p = true) :
    e.id = p.id := by
  rw [isOf, Bool.and_eq_true, decide_eq_true_eq, decide_eq_true_eq] at h
  rw [RequestEvent.id, Attempt.id, h.1, h.2]

/-- After the events, a run of the pair is under way: it was started by `s`, `mid` has come since,
and no `Started` has come so late that it dropped the run. -/
structure Ongoing (p : Attempt) (events : List RequestEvent) (s : RequestEvent)
    (mid : List RequestEvent) : Prop where
  split : ∃ before, events = before ++ s :: mid
  isOf : s.isOf p = true
  starts : s.starts = true
  own : ∀ e ∈ mid, e.isOf p = true → e.starts = false ∧ e.completes = false
  fresh : ∀ e ∈ mid, e.starts = true → e.ts - pendingRetentionMs ≤ s.ts

namespace SessionPersistence

variable (h : SessionPersistence)

/-- One more event of the pair. -/
def collectEvent (pending : PendingSession) (e : RequestEvent) : PendingSession :=
  match h.updateOf e.payload with
  | some update => update pending
  | none => pending

/-- What `Started` says. -/
def startedSession (s : RequestEvent) : PendingSession where
  ts := s.ts
  endpoint :=
    match s.payload with
    | .stage (.started requestEndpoint) => some (endpointLabel requestEndpoint)
    | _ => none

/-- What the events of the pair have said in a run. -/
def collect (p : Attempt) (s : RequestEvent) (mid : List RequestEvent) : PendingSession :=
  (mid.filter (RequestEvent.isOf p)).foldl h.collectEvent (startedSession s)

theorem collect_concat (p : Attempt) (s : RequestEvent) (mid : List RequestEvent)
    (e : RequestEvent) :
    h.collect p s (mid ++ [e]) =
      if e.isOf p then h.collectEvent (h.collect p s mid) e else h.collect p s mid := by
  rw [collect, List.filter_append, List.foldl_append, ← collect, List.filter_singleton]
  cases e.isOf p <;> rfl

theorem updateOf_keeps {payload : Payload} {update : PendingSession → PendingSession}
    (hupdate : h.updateOf payload = some update) (pending : PendingSession) :
    (update pending).ts = pending.ts ∧ (update pending).endpoint = pending.endpoint := by
  unfold updateOf at hupdate
  split at hupdate <;> cases hupdate <;> exact ⟨rfl, rfl⟩

theorem collect_keeps (p : Attempt) (s : RequestEvent) (mid : List RequestEvent) :
    (h.collect p s mid).ts = s.ts ∧ (h.collect p s mid).endpoint = (startedSession s).endpoint := by
  induction mid using List.reverseRecOn with
  | nil => exact ⟨rfl, rfl⟩
  | append_singleton mid e ih =>
    rw [collect_concat]
    split_ifs
    · rw [collectEvent]
      cases hupdate : h.updateOf e.payload with
      | none => exact ih
      | some update =>
        obtain ⟨hts, hendpoint⟩ := h.updateOf_keeps hupdate (h.collect p s mid)
        exact ⟨hts.trans ih.1, hendpoint.trans ih.2⟩
    · exact ih

/-! ## Steps -/

variable {s : SessionEventHandler}

theorem handle_started {e : RequestEvent} (hs : e.starts = true) :
    h.handle s e =
      { s.pruneStale e.ts with pending := (s.pruneStale e.ts).pending.set e.id (startedSession e) } := by
  rw [RequestEvent.starts] at hs
  split at hs
  · next endpoint hp => rw [handle, startedSession, hp]
  · cases hs

theorem handle_completed {s : SessionEventHandler} {e : RequestEvent} (hc : e.completes = true) :
    ∃ success, e.payload = .stage (.completed success) ∧ h.handle s e = h.complete s e.id success := by
  rw [RequestEvent.completes] at hc
  split at hc
  · next success hp => exact ⟨success, hp, by rw [handle, hp]⟩
  · cases hc

/-- An event that neither starts nor completes a run. -/
theorem handle_other {e : RequestEvent} (hs : e.starts = false) (hc : e.completes = false) :
    h.handle s e =
      match h.updateOf e.payload with
      | some update => { s with pending := s.pending.upsert e.id (update { ts := e.ts }) update }
      | none => s := by
  rw [handle]
  split
  · next endpoint hp => rw [RequestEvent.starts, hp] at hs; cases hs
  · next success hp => rw [RequestEvent.completes, hp] at hc; cases hc
  · rfl

theorem keyed_handle (hs : s.pending.Keyed) (e : RequestEvent) : (h.handle s e).pending.Keyed := by
  by_cases hstarts : e.starts = true
  · rw [h.handle_started hstarts]
    exact (hs.filter _).set e.id _
  by_cases hcompletes : e.completes = true
  · obtain ⟨success, -, heq⟩ := @handle_completed h s e hcompletes
    rw [heq]
    exact hs.erase e.id
  · rw [h.handle_other (Bool.eq_false_of_not_eq_true hstarts)
      (Bool.eq_false_of_not_eq_true hcompletes)]
    split
    · exact hs.upsert e.id _ _
    · exact hs

theorem handleAll_concat (events : List RequestEvent) (e : RequestEvent) :
    h.handleAll (events ++ [e]) = h.handle (h.handleAll events) e := List.foldl_concat ..

theorem keyed_handleAll (events : List RequestEvent) : (h.handleAll events).pending.Keyed := by
  induction events using List.reverseRecOn with
  | nil => exact Table.keyed_nil
  | append_singleton events e ih =>
    rw [handleAll_concat]
    exact h.keyed_handle ih e

/-- What another pair does to what is pending: only `Started` does anything, and it drops what is
too old. -/
theorem pending_handle_of_ne (hs : s.pending.Keyed) {e : RequestEvent} {id : String}
    (hne : id ≠ e.id) :
    (h.handle s e).pending.get id =
      if e.starts then
        (s.pending.get id).filter fun pending => e.ts - pendingRetentionMs ≤ pending.ts
      else s.pending.get id := by
  by_cases hstarts : e.starts = true
  · rw [h.handle_started hstarts, if_pos hstarts]
    dsimp only
    rw [Table.get_set, if_neg hne]
    exact Table.get_filter hs (fun pending => decide (e.ts - pendingRetentionMs ≤ pending.ts)) id
  rw [if_neg hstarts]
  by_cases hcompletes : e.completes = true
  · obtain ⟨success, -, heq⟩ := @handle_completed h s e hcompletes
    rw [heq, complete, BTreeMap.get_erase, if_neg hne]
  · rw [h.handle_other (Bool.eq_false_of_not_eq_true hstarts)
      (Bool.eq_false_of_not_eq_true hcompletes)]
    split
    · dsimp only
      rw [Table.get_upsert, if_neg hne]
    · rfl

end SessionPersistence

/-! ## What is pending -/

/-- A run that is under way after one more event was started by it or was under way before. -/
theorem ongoing_concat {p : Attempt} {events : List RequestEvent} {e s : RequestEvent}
    {mid : List RequestEvent} :
    Ongoing p (events ++ [e]) s mid ↔
      (mid = [] ∧ s = e ∧ e.isOf p = true ∧ e.starts = true) ∨
        ∃ mid', mid = mid' ++ [e] ∧ Ongoing p events s mid' ∧
          (e.isOf p = true → e.starts = false ∧ e.completes = false) ∧
          (e.starts = true → e.ts - pendingRetentionMs ≤ s.ts) := by
  constructor
  · intro h
    obtain ⟨⟨before, hsplit⟩, hisOf, hstarts, hown, hfresh⟩ := h
    rcases History.concat_eq_append_cons.mp hsplit with ⟨-, hs, hmid⟩ | ⟨mid', hmid, hevents⟩
    · exact Or.inl ⟨hmid, hs, hs ▸ hisOf, hs ▸ hstarts⟩
    · subst hmid
      have hlast : e ∈ mid' ++ [e] := List.mem_append_right _ List.mem_cons_self
      refine Or.inr ⟨mid', rfl, ⟨⟨before, hevents⟩, hisOf, hstarts, ?_, ?_⟩, hown e hlast,
        hfresh e hlast⟩
      · exact fun e' he' => hown e' (List.mem_append_left _ he')
      · exact fun e' he' => hfresh e' (List.mem_append_left _ he')
  · intro h
    rcases h with ⟨hmid, hs, hisOf, hstarts⟩ | ⟨mid', hmid, hongoing, hown, hfresh⟩
    · subst hmid hs
      exact ⟨⟨events, rfl⟩, hisOf, hstarts, fun e' he' => absurd he' List.not_mem_nil,
        fun e' he' => absurd he' List.not_mem_nil⟩
    · subst hmid
      obtain ⟨before, hevents⟩ := hongoing.split
      refine ⟨⟨before, by rw [hevents, List.append_assoc, List.cons_append]⟩, hongoing.isOf,
        hongoing.starts, ?_, ?_⟩
      · intro e' he' hisOf
        rcases List.mem_append.mp he' with he' | he'
        · exact hongoing.own e' he' hisOf
        · rw [List.mem_singleton.mp he'] at hisOf ⊢
          exact hown hisOf
      · intro e' he' hstarts
        rcases List.mem_append.mp he' with he' | he'
        · exact hongoing.fresh e' he' hstarts
        · rw [List.mem_singleton.mp he'] at hstarts ⊢
          exact hfresh hstarts

/-- No other pair of the run has the composed id of this one. -/
def Unshared (p : Attempt) (events : List RequestEvent) : Prop :=
  ∀ e ∈ events, e.id = p.id → e.isOf p = true

theorem Unshared.of_concat {p : Attempt} {events : List RequestEvent} {e : RequestEvent}
    (h : Unshared p (events ++ [e])) : Unshared p events ∧ (e.isOf p = false → p.id ≠ e.id) := by
  constructor
  · exact fun e' he' => h e' (List.mem_append_left _ he')
  · intro hne hid
    have := h e (List.mem_append_right _ List.mem_cons_self) hid.symm
    rw [hne] at this
    cases this

namespace SessionPersistence

variable (h : SessionPersistence)

/-- What is pending for a pair, as its events have said it. -/
structure PendingIs (p : Attempt) (events : List RequestEvent) (s : SessionEventHandler) : Prop where
  ongoing : ∀ pending, s.pending.get p.id = some pending → pending.endpoint.isSome = true →
    ∃ started mid, Ongoing p events started mid ∧ pending = h.collect p started mid
  pending : ∀ started mid, Ongoing p events started mid →
    s.pending.get p.id = some (h.collect p started mid)

variable {events : List RequestEvent} {p : Attempt} {s : SessionEventHandler}
  {record : TreeRequestRecord}

/-- **One event of another pair.** -/
theorem PendingIs.other (hpending : h.PendingIs p events s) (hs : s.pending.Keyed)
    {e : RequestEvent} (hisOf : e.isOf p = false) (hid : p.id ≠ e.id) :
    h.PendingIs p (events ++ [e]) (h.handle s e) := by
  have hisOf' : e.isOf p ≠ true := Bool.eq_false_iff.mp hisOf
  constructor
  · intro pending hget hendpoint
    rw [h.pending_handle_of_ne hs hid] at hget
    have hold : s.pending.get p.id = some pending ∧
        (e.starts = true → e.ts - pendingRetentionMs ≤ pending.ts) := by
      split_ifs at hget with hstarts
      · obtain ⟨hold, hts⟩ := Option.filter_eq_some_iff.mp hget
        exact ⟨hold, fun _ => of_decide_eq_true hts⟩
      · exact ⟨hget, fun hc => absurd hc hstarts⟩
    obtain ⟨started, mid, hongoing, heq⟩ := hpending.ongoing pending hold.1 hendpoint
    refine ⟨started, mid ++ [e], ongoing_concat.mpr (Or.inr ⟨mid, rfl, hongoing, ?_, ?_⟩), ?_⟩
    · exact fun hc => absurd hc hisOf'
    · intro hstarts
      have hts := hold.2 hstarts
      rwa [heq, (h.collect_keeps p started mid).1] at hts
    · rw [collect_concat, if_neg hisOf', heq]
  · intro started mid hongoing
    rcases ongoing_concat.mp hongoing with ⟨-, -, hc, -⟩ | ⟨mid', hmid, hbefore, -, hfresh⟩
    · exact absurd hc hisOf'
    · rw [h.pending_handle_of_ne hs hid, hpending.pending started mid' hbefore, hmid,
        collect_concat, if_neg hisOf']
      split_ifs with hstarts
      · rw [Option.filter_eq_some_iff]
        refine ⟨rfl, decide_eq_true ?_⟩
        rw [(h.collect_keeps p started mid').1]
        exact hfresh hstarts
      · rfl

/-- **One event of the pair.** -/
theorem PendingIs.own (hpending : h.PendingIs p events s) {e : RequestEvent}
    (hisOf : e.isOf p = true) : h.PendingIs p (events ++ [e]) (h.handle s e) := by
  have hid : e.id = p.id := RequestEvent.id_of_isOf hisOf
  by_cases hstarts : e.starts = true
  · -- A run begins, and nothing of an earlier one is left.
    have hget : (h.handle s e).pending.get p.id = some (h.collect p e []) := by
      rw [h.handle_started hstarts, ← hid]
      dsimp only
      rw [Table.get_set, if_pos rfl]
      rfl
    constructor
    · intro pending hpend _
      refine ⟨e, [], ongoing_concat.mpr (Or.inl ⟨rfl, rfl, hisOf, hstarts⟩), ?_⟩
      exact Option.some.inj (hpend.symm.trans hget)
    · intro started mid hongoing
      rcases ongoing_concat.mp hongoing with ⟨hmid, hs, -, -⟩ | ⟨-, -, -, hown, -⟩
      · rw [hmid, hs, hget]
      · rw [(hown hisOf).1] at hstarts
        cases hstarts
  have hstarts' : e.starts = false := Bool.eq_false_of_not_eq_true hstarts
  by_cases hcompletes : e.completes = true
  · -- The run is over.
    have hget : (h.handle s e).pending.get p.id = none := by
      obtain ⟨success, -, heq⟩ := @handle_completed h s e hcompletes
      rw [heq, complete, hid, BTreeMap.get_erase, if_pos rfl]
    constructor
    · intro pending hpend
      rw [hget] at hpend
      cases hpend
    · intro started mid hongoing
      rcases ongoing_concat.mp hongoing with ⟨-, -, -, hc⟩ | ⟨-, -, -, hown, -⟩
      · exact absurd hc hstarts
      · rw [(hown hisOf).2] at hcompletes
        cases hcompletes
  have hcompletes' : e.completes = false := Bool.eq_false_of_not_eq_true hcompletes
  have hget : ∀ pending, s.pending.get p.id = some pending →
      (h.handle s e).pending.get p.id = some (h.collectEvent pending e) := by
    intro pending hold
    rw [h.handle_other hstarts' hcompletes', collectEvent]
    cases h.updateOf e.payload with
    | none => exact hold
    | some update =>
      dsimp only
      rw [Table.get_upsert, hid, if_pos rfl, hold]
      rfl
  constructor
  · intro pending hpend hendpoint
    cases hold : s.pending.get p.id with
    | none =>
      -- An entry that is made here has no endpoint.
      rw [h.handle_other hstarts' hcompletes'] at hpend
      cases hupdate : h.updateOf e.payload with
      | none =>
        rw [hupdate, hold] at hpend
        cases hpend
      | some update =>
        rw [hupdate] at hpend
        dsimp only at hpend
        rw [Table.get_upsert, hid, if_pos rfl, hold] at hpend
        rw [← Option.some.inj hpend] at hendpoint
        have hnone : (update { ts := e.ts }).endpoint = none := (h.updateOf_keeps hupdate _).2
        change (update { ts := e.ts }).endpoint.isSome = true at hendpoint
        rw [hnone] at hendpoint
        cases hendpoint
    | some old =>
      have heq := Option.some.inj (hpend.symm.trans (hget old hold))
      have hold' : old.endpoint.isSome = true := by
        rw [heq, collectEvent] at hendpoint
        cases hupdate : h.updateOf e.payload with
        | none => rwa [hupdate] at hendpoint
        | some update =>
          rw [hupdate] at hendpoint
          rwa [(h.updateOf_keeps hupdate old).2] at hendpoint
      obtain ⟨started, mid, hongoing, hcollect⟩ := hpending.ongoing old hold hold'
      refine ⟨started, mid ++ [e], ongoing_concat.mpr (Or.inr ⟨mid, rfl, hongoing, ?_, ?_⟩), ?_⟩
      · exact fun _ => ⟨hstarts', hcompletes'⟩
      · exact fun hc => absurd hc hstarts
      · rw [collect_concat, if_pos hisOf, heq, hcollect]
  · intro started mid hongoing
    rcases ongoing_concat.mp hongoing with ⟨-, -, -, hc⟩ | ⟨mid', hmid, hbefore, -, -⟩
    · exact absurd hc hstarts
    · rw [hmid, collect_concat, if_pos hisOf, hget _ (hpending.pending started mid' hbefore)]

/-- **What is pending along a run.** -/
theorem pendingIs_handleAll (hunshared : Unshared p events) :
    h.PendingIs p events (h.handleAll events) := by
  induction events using List.reverseRecOn with
  | nil =>
    constructor
    · intro pending hget
      cases hget
    · intro started mid hongoing
      obtain ⟨before, hsplit⟩ := hongoing.split
      cases before <;> cases hsplit
  | append_singleton events e ih =>
    obtain ⟨hbefore, hid⟩ := hunshared.of_concat
    rw [handleAll_concat]
    cases hisOf : e.isOf p with
    | true => exact (ih hbefore).own h hisOf
    | false => exact (ih hbefore).other h (h.keyed_handleAll events) hisOf (hid hisOf)

/-! ## What is recorded -/

/-- A run of the pair that has completed with success and whose record the database has accepted.
The record is made of the events of the pair since it was started. -/
structure Recorded (p : Attempt) (events : List RequestEvent) (record : TreeRequestRecord) :
    Prop where
  run : ∃ before c after started mid, events = before ++ c :: after ∧ c.isOf p = true ∧
    c.payload = .stage (.completed true) ∧ Ongoing p before started mid ∧
    h.intoTreeRecord (h.collect p started mid) p.id = some record ∧
    ∃ db, (h.handleAll before).db.recordTree record h.sha256 = .ok db

theorem Recorded.concat (hrecorded : h.Recorded p events record) (e : RequestEvent) :
    h.Recorded p (events ++ [e]) record := by
  obtain ⟨before, c, after, started, mid, hevents, hrest⟩ := hrecorded.run
  refine ⟨before, c, after ++ [e], started, mid, ?_, hrest⟩
  rw [hevents, List.append_assoc, List.cons_append]

theorem intoTreeRecord_eq_some {pending : PendingSession} {id : String}
    (hrecord : h.intoTreeRecord pending id = some record) :
    record.requestId = id ∧ record.isEmpty = false ∧ pending.endpoint.isSome = true := by
  unfold intoTreeRecord at hrecord
  split at hrecord
  · next sessionId endpoint _ hendpoint =>
    dsimp only at hrecord
    split_ifs at hrecord with hempty
    cases hrecord
    refine ⟨rfl, ?_, by rw [hendpoint]; rfl⟩
    rw [TreeRequestRecord.isEmpty, Bool.and_eq_false_iff]
    simpa [List.isEmpty_iff, imp_iff_not_or] using hempty
  · cases hrecord

/-- The database changes only where a request completes and its record is accepted. -/
theorem db_handle (s : SessionEventHandler) (e : RequestEvent) :
    (h.handle s e).db = s.db ∨
      e.payload = .stage (.completed true) ∧
        ∃ pending record, s.pending.get e.id = some pending ∧
          h.intoTreeRecord pending e.id = some record ∧
          s.db.recordTree record h.sha256 = .ok (h.handle s e).db := by
  by_cases hstarts : e.starts = true
  · exact Or.inl (by rw [h.handle_started hstarts]; rfl)
  by_cases hcompletes : e.completes = true
  · obtain ⟨success, hp, heq⟩ := @handle_completed h s e hcompletes
    rw [heq, complete]
    dsimp only
    cases hrecord : h.completedRecord s e.id success with
    | none => exact Or.inl rfl
    | some record =>
      cases hcall : s.db.recordTree record h.sha256 with
      | error _ => exact Or.inl (by dsimp only; rw [hcall])
      | ok db =>
        right
        rw [completedRecord] at hrecord
        split_ifs at hrecord with hsuccess
        obtain ⟨pending, hpending, hinto⟩ := Option.bind_eq_some_iff.mp hrecord
        refine ⟨by rw [hp, hsuccess], pending, record, hpending, hinto, ?_⟩
        dsimp only
        rw [hcall]
  · left
    rw [h.handle_other (Bool.eq_false_of_not_eq_true hstarts)
      (Bool.eq_false_of_not_eq_true hcompletes)]
    split <;> rfl

/-- Where a run completes with success, its record goes to the database. -/
theorem db_handle_completed {e : RequestEvent} {pending : PendingSession} {db : SessionsDb}
    (hp : e.payload = .stage (.completed true)) (hpending : s.pending.get e.id = some pending)
    (hinto : h.intoTreeRecord pending e.id = some record)
    (hcall : s.db.recordTree record h.sha256 = .ok db) : (h.handle s e).db = db := by
  have hrecord : h.completedRecord s e.id true = some record := by
    rw [completedRecord, if_pos rfl, hpending]
    exact hinto
  rw [handle, hp]
  show (h.complete s e.id true).db = db
  rw [complete, hrecord]
  dsimp only
  rw [hcall]

/-- The database holds the records that were accepted, and those of a pair come from its runs. -/
theorem records_handleAll (hunshared : Unshared p events) :
    ∃ records, recordAll h.sha256 records = .ok (h.handleAll events).db ∧
      (∀ record, lastWritten records p.id = some record → h.Recorded p events record) ∧
      ((∃ record, h.Recorded p events record) → (lastWritten records p.id).isSome = true) := by
  induction events using List.reverseRecOn with
  | nil =>
    refine ⟨[], rfl, fun record hlast => (by cases hlast), ?_⟩
    intro hex
    obtain ⟨record, ⟨before, c, after, started, mid, hevents, -⟩⟩ := hex
    cases before <;> cases hevents
  | append_singleton events e ih =>
    obtain ⟨hbefore, hid⟩ := hunshared.of_concat
    obtain ⟨records, hrun, hfrom, hto⟩ := ih hbefore
    have hpendingIs := h.pendingIs_handleAll hbefore
    rw [handleAll_concat]
    rcases h.db_handle (h.handleAll events) e with
      hsame | ⟨hp, pending, record, hpending, hinto, hcall⟩
    · refine ⟨records, hsame ▸ hrun, fun r hlast => (hfrom r hlast).concat h e, ?_⟩
      intro hex
      obtain ⟨r, ⟨before, c, after, started, mid, hevents, hisOf, hc, hongoing, hr, db, hok⟩⟩ := hex
      rcases History.concat_eq_append_cons.mp hevents with ⟨hb, hce, -⟩ | ⟨after', -, hevents⟩
      · -- The database has not changed by this event, so the pair had a node before it.
        subst hb hce
        have hpend := hpendingIs.pending started mid hongoing
        have hcid : c.id = p.id := RequestEvent.id_of_isOf hisOf
        have hdb := h.db_handle_completed hc (hcid ▸ hpend) (hcid ▸ hr) hok
        obtain ⟨hrid, hne, -⟩ := h.intoTreeRecord_eq_some hr
        rw [hdb] at hsame
        rw [hsame] at hok
        have hnode := recordTree_get hok (treeRecorded_run hrun).keyed p.id
        rw [← node_iff_lastWritten hrun, hnode, hrid, hne]
        simp
      · exact hto ⟨r, ⟨before, c, after', started, mid, hevents, hisOf, hc, hongoing, hr, db, hok⟩⟩
    · obtain ⟨hrid, hne, hendpoint⟩ := h.intoTreeRecord_eq_some hinto
      refine ⟨records ++ [record], Except.foldlM_concat.mpr ⟨_, hrun, hcall⟩, ?_, ?_⟩
      · intro r hlast
        rw [lastWritten_concat] at hlast
        split_ifs at hlast with hrec
        · have hisOf : e.isOf p = true := hunshared e
            (List.mem_append_right _ List.mem_cons_self) (hrid.symm.trans hrec.1)
          have heid : e.id = p.id := RequestEvent.id_of_isOf hisOf
          obtain ⟨started, mid, hongoing, heq⟩ :=
            hpendingIs.ongoing pending (heid ▸ hpending) hendpoint
          rw [← Option.some.inj hlast]
          exact ⟨events, e, [], started, mid, rfl, hisOf, hp, hongoing, heq ▸ heid ▸ hinto, _, hcall⟩
        · exact (hfrom r hlast).concat h e
      · intro hex
        rw [lastWritten_concat]
        split_ifs with hrec
        · rfl
        · obtain ⟨r, ⟨before, c, after, started, mid, hevents, hisOf, hrest⟩⟩ := hex
          rcases History.concat_eq_append_cons.mp hevents with ⟨hb, hce, -⟩ | ⟨after', -, hevents⟩
          · have heid : e.id = p.id := by
              rw [← hce]
              exact RequestEvent.id_of_isOf hisOf
            exact absurd ⟨hrid.trans heid, hne⟩ hrec
          · exact hto ⟨r, ⟨before, c, after', started, mid, hevents, hisOf, hrest⟩⟩

/-! ## Whose record it is -/

/-- What an event says about the session of its request. -/
def extractedSession (e : RequestEvent) : Option (Option String) :=
  match e.payload with
  | .stage (.extract summary) =>
    some (summary.sessionId <|> (h.inboundCorrelation summary.headers).sessionId)
  | _ => none

/-- The session of a run is that of its last `Extract`. -/
theorem sessionId_collect (p : Attempt) (s : RequestEvent) (mid : List RequestEvent) :
    (h.collect p s mid).sessionId =
      ((mid.filter (RequestEvent.isOf p)).filterMap h.extractedSession).getLast?.join := by
  induction mid using List.reverseRecOn with
  | nil => rfl
  | append_singleton mid e ih =>
    rw [collect_concat, List.filter_append, List.filterMap_append, List.filter_singleton]
    by_cases hisOf : e.isOf p = true
    · rw [if_pos hisOf, hisOf, cond_true, collectEvent, updateOf.eq_def]
      cases hsession : h.extractedSession e with
      | some session =>
        rw [List.filterMap_cons_some hsession, List.filterMap_nil, List.getLast?_concat]
        rw [extractedSession] at hsession
        split at hsession
        · next summary hp =>
          rw [hp, ← Option.some.inj hsession]
          rfl
        · cases hsession
      | none =>
        rw [List.filterMap_cons_none hsession, List.filterMap_nil, List.append_nil, ← ih]
        rw [extractedSession] at hsession
        split at hsession
        · cases hsession
        · next hne =>
          split
          · next update hupdate =>
            split at hupdate
            · next summary hp => exact absurd hp (hne summary)
            all_goals first | (cases hupdate; rfl) | cases hupdate
          · rfl
    · rw [if_neg hisOf, Bool.eq_false_of_not_eq_true hisOf, cond_false, List.filterMap_nil,
        List.append_nil, ih]

/-- A run has a record exactly if its last `Extract` has a session and there is a message. -/
theorem exists_record_iff {s : RequestEvent} (hs : s.starts = true) (mid : List RequestEvent)
    (id : String) :
    (∃ record, h.intoTreeRecord (h.collect p s mid) id = some record) ↔
      (h.collect p s mid).sessionId.isSome = true ∧
        ∃ endpoint, s.payload = .stage (.started endpoint) ∧
          ¬ (requestMessages (h.collect p s mid) (endpointLabel endpoint) = [] ∧
            h.responseMessages (h.collect p s mid) = []) := by
  obtain ⟨endpoint, hp⟩ : ∃ endpoint, s.payload = .stage (.started endpoint) := by
    rw [RequestEvent.starts] at hs
    split at hs
    · next endpoint hp => exact ⟨endpoint, hp⟩
    · cases hs
  have hendpoint : (h.collect p s mid).endpoint = some (endpointLabel endpoint) := by
    rw [(h.collect_keeps p s mid).2, startedSession, hp]
  rw [intoTreeRecord, hendpoint]
  cases hsession : (h.collect p s mid).sessionId with
  | none => exact iff_of_false (fun hc => by obtain ⟨_, hc⟩ := hc; cases hc) (fun hc => by cases hc.1)
  | some session =>
    dsimp only
    constructor
    · intro hrecord
      obtain ⟨record, hrecord⟩ := hrecord
      split_ifs at hrecord with hempty
      exact ⟨rfl, endpoint, hp, hempty⟩
    · intro hcond
      obtain ⟨-, endpoint', hp', hempty⟩ := hcond
      rw [hp] at hp'
      cases hp'
      rw [if_neg hempty]
      exact ⟨_, rfl⟩

/-- The run of a pair since it was started has a session and a message. -/
structure Recordable (p : Attempt) (started : RequestEvent) (mid : List RequestEvent) : Prop where
  /-- The last `Extract` has a session. -/
  session : ((mid.filter (RequestEvent.isOf p)).filterMap
    h.extractedSession).getLast?.join.isSome = true
  message : ∃ endpoint, started.payload = .stage (.started endpoint) ∧
    ¬ (requestMessages (h.collect p started mid) (endpointLabel endpoint) = [] ∧
      h.responseMessages (h.collect p started mid) = [])

theorem exists_record_iff_recordable {started : RequestEvent} (hstarts : started.starts = true)
    (mid : List RequestEvent) (id : String) :
    (∃ record, h.intoTreeRecord (h.collect p started mid) id = some record) ↔
      h.Recordable p started mid := by
  rw [h.exists_record_iff hstarts, h.sessionId_collect]
  constructor
  · rintro ⟨hsession, hmessage⟩
    exact ⟨hsession, hmessage⟩
  · rintro ⟨hsession, hmessage⟩
    exact ⟨hsession, hmessage⟩

/-- A run of the pair has completed with success, with a session and a message, and the database
accepts its record. -/
def Accepted (p : Attempt) (events : List RequestEvent) : Prop :=
  ∃ before c after started mid, events = before ++ c :: after ∧ c.isOf p = true ∧
    c.payload = .stage (.completed true) ∧ Ongoing p before started mid ∧
    h.Recordable p started mid ∧
    ∀ record, h.intoTreeRecord (h.collect p started mid) p.id = some record →
      ∃ db, (h.handleAll before).db.recordTree record h.sha256 = .ok db

theorem exists_recorded_iff (p : Attempt) (events : List RequestEvent) :
    (∃ record, h.Recorded p events record) ↔ h.Accepted p events := by
  constructor
  · rintro ⟨record, before, c, after, started, mid, hevents, hisOf, hc, hongoing, hrecord, haccepted⟩
    refine ⟨before, c, after, started, mid, hevents, hisOf, hc, hongoing, ?_, fun other hother => ?_⟩
    · exact (h.exists_record_iff_recordable hongoing.starts mid p.id).mp ⟨record, hrecord⟩
    · rwa [← Option.some.inj (hrecord.symm.trans hother)]
  · rintro ⟨before, c, after, started, mid, hevents, hisOf, hc, hongoing, hrecordable, haccepted⟩
    obtain ⟨record, hrecord⟩ :=
      (h.exists_record_iff_recordable hongoing.starts mid p.id).mpr hrecordable
    exact ⟨record, ⟨before, c, after, started, mid, hevents, hisOf, hc, hongoing, hrecord,
      haccepted record hrecord⟩⟩

/-! ## The theorem -/

/-- **What is recorded of a pair.** -/
theorem session_run {p : Attempt} {events : List RequestEvent} (hunshared : Unshared p events) :
    (((h.handleAll events).db.sessionNodes.get p.id).isSome = true ↔ h.Accepted p events) ∧
    ((h.handleAll events).db.sessionNodes.countP fun e => e.2.requestId = p.id) ≤ 1 ∧
    (((h.handleAll events).db.sessionNodes.get p.id).isSome = true →
      ∃ record, h.Recorded p events record ∧ ∀ fuel, record.messages.length ≤ fuel →
        (h.handleAll events).db.materializeMessageTreeNode h.sha256 fuel p.id =
          .ok (record.requestMessages, record.responseMessages)) := by
  obtain ⟨records, hrun, hfrom, hto⟩ := h.records_handleAll hunshared
  have htree := treeRecorded_run hrun
  rw [node_iff_lastWritten hrun, ← h.exists_recorded_iff]
  refine ⟨⟨?_, hto⟩, ?_, ?_⟩
  · intro hsome
    obtain ⟨record, hlast⟩ := Option.isSome_iff_exists.mp hsome
    exact ⟨record, hfrom record hlast⟩
  · have hcount : ((h.handleAll events).db.sessionNodes.countP fun e => e.2.requestId = p.id) =
        ((h.handleAll events).db.sessionNodes.map Prod.fst).count p.id := by
      rw [List.count, List.countP_map]
      refine List.countP_congr fun e he => ?_
      rw [decide_eq_true_eq, htree.keyed.key e he, Function.comp_apply, beq_iff_eq]
    rw [hcount]
    exact List.nodup_iff_count_le_one.mp htree.keyed.nodup p.id
  · intro hsome
    obtain ⟨record, hlast⟩ := Option.isSome_iff_exists.mp hsome
    obtain ⟨row, hrow, hholds⟩ := htree.written p.id record hlast
    exact ⟨record, hfrom record hlast, fun fuel hfuel => hholds.materialize hrow hfuel⟩

/-! ## Sample runs -/

def userMessage (text : String) : MessageRecord := Semantic.textMessage "user" text

/-- SHA-256 of what is hashed for a session with one of two messages. -/
def sampleSha256 (bytes : Bytes) : MessageId :=
  if bytes = Str.utf8Bytes "text" ++ [0] ++ Str.utf8Bytes "hello" then
      #v[0x30, 0x6F, 0x89, 0x34, 0x71, 0x95, 0xCC, 0x05, 0x50, 0x9D, 0xDC, 0xA4, 0x74, 0x62,
        0xE2, 0x59, 0xAA, 0xC6, 0xFD, 0x01, 0x94, 0x3D, 0x25, 0x57, 0x00, 0x4E, 0xA6, 0xF2, 0x63,
        0x70, 0xCD, 0x58]
  else if bytes = messageBytes (userMessage "hello") then
      #v[0xA5, 0xA6, 0xD6, 0x60, 0x8D, 0xD5, 0xEE, 0x1D, 0xFE, 0xA7, 0x9D, 0xE7, 0x83, 0x59,
        0xC9, 0x86, 0x3C, 0xFE, 0x8E, 0xBB, 0x47, 0x1B, 0x5E, 0x3D, 0x16, 0xB4, 0x14, 0x0E, 0xEB,
        0x85, 0x6D, 0x68]
  else if bytes = Str.utf8Bytes "text" ++ [0] ++ Str.utf8Bytes "bye" then
      #v[0x7B, 0xC3, 0x95, 0xA5, 0x4C, 0x9A, 0x76, 0x59, 0xD4, 0xA9, 0xA6, 0x26, 0x7C, 0x49,
        0x2A, 0xFD, 0xA0, 0x29, 0x38, 0xC6, 0x9C, 0xCF, 0x4D, 0x77, 0x99, 0x8C, 0x2A, 0x64, 0xD0,
        0xD7, 0xE9, 0x76]
  else if bytes = messageBytes (userMessage "bye") then
      #v[0xC8, 0x6C, 0x33, 0xC1, 0x40, 0x07, 0xC1, 0xD2, 0x61, 0x99, 0x07, 0xE3, 0x47, 0xD1,
        0x1C, 0x5C, 0xF3, 0x73, 0x47, 0xB9, 0xBC, 0xF0, 0xE6, 0xB4, 0xC7, 0x73, 0x9B, 0x74, 0xB5,
        0x0B, 0x5D, 0x37]
  else if bytes.getLast? = some 0x68 then
      #v[0xF9, 0x5C, 0x3B, 0x64, 0x11, 0x8C, 0x84, 0xAF, 0xF1, 0x1E, 0x37, 0xE1, 0x22, 0x0A,
        0x85, 0x5A, 0xD2, 0xBE, 0x30, 0xCD, 0x03, 0xC1, 0x71, 0xB6, 0x37, 0x1E, 0x35, 0xAD, 0xD1,
        0x35, 0xD1, 0xE0]
  else
      #v[0x72, 0xBF, 0x87, 0x29, 0xAA, 0xA4, 0xE2, 0xBE, 0x8D, 0x58, 0xC3, 0x3E, 0xA4, 0x24,
        0xEA, 0xAA, 0x31, 0x3D, 0xCC, 0x8B, 0x24, 0x39, 0x86, 0xCB, 0x2F, 0x6B, 0x64, 0xB1, 0x19,
        0x3B, 0x33, 0xC9]

/-- No body of the samples is parsed. -/
def samplePersistence : SessionPersistence where
  fromSlice _ := none
  fromStr _ := none
  turnMetadata _ := none
  sha256 := sampleSha256

def startedEvent (p : Attempt) (ts : Int) : RequestEvent :=
  ⟨p.requestId, p.attempt, ts, .stage (.started (.known .responses))⟩

/-- An `Extract` with a session and a message. -/
def extractEvent (p : Attempt) (ts : Int) (sessionId text : String) : RequestEvent :=
  ⟨p.requestId, p.attempt, ts, .stage (.extract
    { model := "m", stream := false, sessionId := some sessionId, initiator := none, headers := [],
      rawBody := [], decodedBody := [], bodyJson := .obj [("input", .string text)] })⟩

def completedEvent (p : Attempt) (ts : Int) : RequestEvent :=
  ⟨p.requestId, p.attempt, ts, .stage (.completed true)⟩

/-- A run that is recorded. -/
def wholeRun : List RequestEvent :=
  [startedEvent ⟨"r", 0⟩ 0, extractEvent ⟨"r", 0⟩ 1 "session" "hello", completedEvent ⟨"r", 0⟩ 2]

theorem session_run_whole :
    ∃ record, samplePersistence.Recorded ⟨"r", 0⟩ wholeRun record ∧
      ∀ fuel, record.messages.length ≤ fuel →
        (samplePersistence.handleAll wholeRun).db.materializeMessageTreeNode sampleSha256 fuel "r" =
          .ok (record.requestMessages, record.responseMessages) := by
  have hunshared : Unshared ⟨"r", 0⟩ wholeRun := by
    show ∀ e ∈ wholeRun, e.id = "r" → e.isOf ⟨"r", 0⟩ = true
    decide +kernel
  exact (samplePersistence.session_run hunshared).2.2 (by decide +kernel)

/-- The pair says everything that a record needs, and completes with success. -/
def SaysEnough (p : Attempt) (events : List RequestEvent) : Prop :=
  ∃ started before c after, events.filter (RequestEvent.isOf p) = started :: (before ++ c :: after) ∧
    started.starts = true ∧ c.payload = .stage (.completed true) ∧
    (∀ e ∈ before, e.starts = false ∧ e.completes = false) ∧ h.Recordable p started before

/-- Another request starts more than a day after this one. -/
def staleRun : List RequestEvent :=
  [startedEvent ⟨"r", 0⟩ 0, extractEvent ⟨"r", 0⟩ 1 "session" "hello",
    startedEvent ⟨"q", 0⟩ 86400001, completedEvent ⟨"r", 0⟩ 86400002]

/-- The second attempt of one request and the first of another, with one composed id. -/
def sharedRun : List RequestEvent :=
  [startedEvent ⟨"r", 1⟩ 0, extractEvent ⟨"r", 1⟩ 1 "session" "hello",
    startedEvent ⟨"r:1", 0⟩ 2, extractEvent ⟨"r:1", 0⟩ 3 "other" "bye", completedEvent ⟨"r", 1⟩ 4]

/-- **A run of more than a day may be dropped, and two pairs with one composed id share a node:
the one that has completed has the messages of the other, which has not.** -/
theorem not_session_run :
    (samplePersistence.SaysEnough ⟨"r", 0⟩ staleRun ∧
      ((samplePersistence.handleAll staleRun).db.sessionNodes.get "r").isSome = false) ∧
    (samplePersistence.SaysEnough ⟨"r", 1⟩ sharedRun ∧
      ¬ samplePersistence.SaysEnough ⟨"r:1", 0⟩ sharedRun ∧
      (samplePersistence.handleAll sharedRun).db.materializeMessageTreeNode sampleSha256 1 "r:1" =
        .ok ([userMessage "bye"], [])) := by
  refine ⟨⟨?_, by decide +kernel⟩, ?_, ?_, by decide +kernel⟩
  · exact ⟨_, [extractEvent ⟨"r", 0⟩ 1 "session" "hello"], _, [], rfl, rfl, rfl, by decide +kernel,
      by decide +kernel, _, rfl, by decide +kernel⟩
  · exact ⟨_, [extractEvent ⟨"r", 1⟩ 1 "session" "hello"], _, [], rfl, rfl, rfl, by decide +kernel,
      by decide +kernel, _, rfl, by decide +kernel⟩
  · intro hsays
    obtain ⟨started, before, c, after, hevents, -, hc, -⟩ := hsays
    have hmem : c ∈ sharedRun.filter (RequestEvent.isOf ⟨"r:1", 0⟩) := by
      rw [hevents]
      exact List.mem_cons_of_mem _ (List.mem_append_right _ List.mem_cons_self)
    have hnone : ∀ e ∈ sharedRun.filter (RequestEvent.isOf ⟨"r:1", 0⟩),
        e.payload ≠ .stage (.completed true) := by
      decide +kernel
    exact hnone c hmem hc

end SessionPersistence

end Tokn.Persistence
