import Tokn.Lib.History
import Tokn.Persistence.RequestRow

/-!
# The day file of a request

The facts of a request belong in one row of one day file, whatever the clock does while the
request runs. The handler keeps for this the day to which a request is pinned: the first event
pins it, `Completed` removes the pin.

Two events get past the pin. `Started` writes to the file of its own time and pins the request
anew, also where an earlier record has pinned it. A record that arrives after `Completed` finds no
pin and makes one, which nothing removes.

**Theorem (`oneRow_iff`).** Every event of a request adds what it tells to its row in the file of
its first day, no other day has a row, and no pin is left after `Completed`, exactly if the first
event pins the request, every event that pins it while there is no pin is of that day, every
`Started` is, every other stage event finds a pin, and no `Started` and no record comes after the
last `Completed`.
-/

namespace Tokn.Persistence

open Tokn.History (Each Since)
open DayDb (Writes)
open History (each_concat each_nil)

/-! ## What an event does -/

/-- `Started` and the records pin their request. -/
def RequestEvent.pins (e : RequestEvent) : Bool :=
  match e.payload with
  | .stage (.started _) => true
  | .record _ => true
  | _ => false

namespace RequestPersistence

variable (h : RequestPersistence)

def dayOf (e : RequestEvent) : String := h.dayKey e.ts

/-- The day to whose file an event is written: `Started` goes to the file of its time, the other
stage events to that of the pin, and a record to that of the pin or else of its time. -/
def writtenTo (db : RequestsDb) (e : RequestEvent) : Option String :=
  match e.payload with
  | .custom => none
  | .stage (.started _) => some (h.dayOf e)
  | .stage _ => db.pin e.id
  | .record _ => some ((db.pin e.id).getD (h.dayOf e))

theorem handle_record (db : RequestsDb) {e : RequestEvent} {event : RecordEvent}
    (hp : e.payload = .record event) :
    ∃ statements,
      Writes e.id (fun row => h.recordFacts ((h.ensureStartedForRecord db e.id e.ts).latencySinceStart
        e.id e.ts) row event) statements ∧
      h.handle db e = (h.ensureStartedForRecord db e.id e.ts).executeFor e.id statements := by
  rw [handle, hp]
  cases event with
  | inboundConnection user apiKeyId localAddr peerAddr mode method inboundMethod url =>
    refine ⟨_, ?_, rfl⟩
    exact ((DayDb.writes_patchCtxJson _ _).comp (DayDb.writes_updateConnection _ _)).comp
      (DayDb.writes_upsertDownstream _ _)
  | upstreamReq method url headers body => exact ⟨_, by exact DayDb.writes_upsertUpstream _ _, rfl⟩
  | upstreamResp status headers =>
    refine ⟨_, ?_, rfl⟩
    exact (DayDb.writes_upsertUpstream _ _).comp (DayDb.writes_patchCtxJson _ _)
  | upstreamBody body error => exact ⟨_, by exact DayDb.writes_upsertUpstream _ _, rfl⟩
  | convertedBody body error => exact ⟨_, by exact DayDb.writes_upsertDownstream _ _, rfl⟩
  | usage usage => exact ⟨_, by exact DayDb.writes_upsertMetadata _ _, rfl⟩

theorem handle_stage (db : RequestsDb) {e : RequestEvent} {event : StageEvent}
    (hp : e.payload = .stage event) (hstart : ¬ e.starts = true) :
    ∃ statements,
      Writes e.id (fun row => h.stageFacts (db.latencySinceStart e.id e.ts) row event) statements ∧
      h.handle db e =
        if e.completes then (db.executeFor e.id statements).clearRequest e.id
        else db.executeFor e.id statements := by
  rw [RequestEvent.starts, hp] at hstart
  rw [handle, RequestEvent.completes, hp]
  cases event with
  | started endpoint => exact absurd rfl hstart
  | extract summary =>
    refine ⟨_, ?_, rfl⟩
    exact ((DayDb.writes_upsertMetadata _ _).comp (DayDb.writes_upsertMetadata _ _)).comp
      (DayDb.writes_upsertDownstream _ _)
  | resolve accountId providerId => exact ⟨_, by exact DayDb.writes_upsertMetadata _ _, rfl⟩
  | buildHeaders headers => exact ⟨_, by exact DayDb.writes_upsertUpstream _ _, rfl⟩
  | convertRequest body => exact ⟨_, by exact DayDb.writes_upsertUpstream _ _, rfl⟩
  | send status headers =>
    refine ⟨_, ?_, rfl⟩
    exact (DayDb.writes_upsertUpstream _ _).comp (DayDb.writes_patchCtxJson _ _)
  | convertResponse status headers body =>
    refine ⟨_, ?_, rfl⟩
    exact (DayDb.writes_upsertDownstream _ _).comp (DayDb.writes_updateConnection _ _)
  | error stage message => exact ⟨_, by exact DayDb.writes_updateConnection _ _, rfl⟩
  | completed success => exact ⟨_, by exact DayDb.writes_patchCtxJson _ _, rfl⟩

theorem payload_of_starts {e : RequestEvent} (hstart : e.starts = true) :
    ∃ endpoint, e.payload = .stage (.started endpoint) := by
  rw [RequestEvent.starts] at hstart
  split at hstart
  · next endpoint hp => exact ⟨endpoint, hp⟩
  · cases hstart

theorem row_onStarted (db : RequestsDb) (id : String) (ts : Int)
    (endpoint : Option Tokn.Requests.RequestEndpoint) (day id' : String) :
    (h.onStarted db id ts endpoint).row day id' =
      if id' = id ∧ some (h.dayKey ts) = some day then
        (db.row day id').begun h.version ts (endpoint.map endpointLabel)
      else db.row day id' := by
  rw [onStarted, RequestsDb.row]
  dsimp only
  rw [← RequestsDb.row]
  refine db.row_execute id' (u := fun row => row.begun h.version ts (endpoint.map endpointLabel)) ?_
    day (h.dayKey ts)
  intro file id''
  dsimp only [DayDb.row]
  rw [Table.get_upsert]
  split_ifs with hid
  · rw [hid, RequestRow.begun]
    cases file.connection.get id <;> rfl
  · rfl

theorem get_requestMeta_onStarted (db : RequestsDb) (id : String) (ts : Int)
    (endpoint : Option Tokn.Requests.RequestEndpoint) (id' : String) :
    (h.onStarted db id ts endpoint).requestMeta.get id' =
      if id' = id then some { day := h.dayKey ts, startedAtMs := ts }
      else db.requestMeta.get id' := Table.get_set ..

/-- A record finds its request pinned, or pins it. -/
theorem ensureStartedForRecord_eq (db : RequestsDb) (id : String) (ts : Int) :
    h.ensureStartedForRecord db id ts =
      if (db.startedAt id).isSome then db else h.onStarted db id ts none := by
  rw [ensureStartedForRecord, RequestsDb.containsRequest_eq, RequestsDb.pin, RequestsDb.startedAt,
    Option.isSome_map, Option.isSome_map]

/-- **What is kept of a request after an event.** -/
theorem get_requestMeta_handle (db : RequestsDb) (e : RequestEvent) (id : String) :
    (h.handle db e).requestMeta.get id =
      if id = e.id then
        if e.starts ∨ e.pins ∧ db.startedAt id = none then some ⟨h.dayOf e, e.ts⟩
        else if e.completes then none else db.requestMeta.get id
      else db.requestMeta.get id := by
  by_cases hstart : e.starts = true
  · obtain ⟨endpoint, hp⟩ := payload_of_starts hstart
    rw [handle, hp, if_pos (Or.inl hstart)]
    exact h.get_requestMeta_onStarted db e.id e.ts _ id
  cases hp : e.payload with
  | custom => simp [handle, hp, hstart, RequestEvent.pins, RequestEvent.completes]
  | record event =>
    obtain ⟨statements, -, heq⟩ := h.handle_record db hp
    have hpins : e.pins = true := by rw [RequestEvent.pins, hp]
    have hcompletes : e.completes = false := by rw [RequestEvent.completes, hp]
    rw [heq, RequestsDb.requestMeta_executeFor, ensureStartedForRecord_eq, hpins, hcompletes]
    by_cases hid : id = e.id
    · subst hid
      cases hstarted : db.startedAt e.id with
      | none => simp [get_requestMeta_onStarted, dayOf]
      | some start => simp [hstart]
    · rw [if_neg hid]
      split_ifs
      · rfl
      · rw [get_requestMeta_onStarted, if_neg hid]
  | stage event =>
    obtain ⟨statements, -, heq⟩ := h.handle_stage db hp hstart
    have hpins : ¬ e.pins = true := by
      rw [RequestEvent.starts, hp] at hstart
      rw [RequestEvent.pins, hp]
      cases event <;> simp_all
    rw [heq, if_neg (not_or.mpr ⟨hstart, fun hc => hpins hc.1⟩)]
    split_ifs with hcompletes hid hid
    · rw [RequestsDb.get_requestMeta_clearRequest, if_pos hid]
    · rw [RequestsDb.get_requestMeta_clearRequest, if_neg hid, RequestsDb.requestMeta_executeFor]
    · rw [RequestsDb.requestMeta_executeFor]
    · rw [RequestsDb.requestMeta_executeFor]

/-- **An event adds what it tells to the row of its request in the file to which it is written, and
changes no other row.** -/
theorem row_handle (db : RequestsDb) (e : RequestEvent) (day id : String) :
    (h.handle db e).row day id =
      if id = e.id ∧ h.writtenTo db e = some day then
        (AttemptFacts.tell h { row := db.row day id, startedAt := db.startedAt id } e).row
      else db.row day id := by
  by_cases hstart : e.starts = true
  · obtain ⟨endpoint, hp⟩ := payload_of_starts hstart
    rw [handle, writtenTo, AttemptFacts.tell, hp]
    exact h.row_onStarted db e.id e.ts _ day id
  cases hp : e.payload with
  | custom =>
    rw [handle, writtenTo, AttemptFacts.tell, hp]
    exact (ite_self _).symm
  | record event =>
    obtain ⟨statements, hw, heq⟩ := h.handle_record db hp
    rw [heq, RequestsDb.row_executeFor _ _ hw, RequestsDb.latencySinceStart_eq]
    by_cases hid : id = e.id
    · subst hid
      rw [AttemptFacts.tell, hp]
      cases hmeta : db.requestMeta.get e.id with
      | some info =>
        have hstarted : db.startedAt e.id = some info.startedAtMs := congrArg _ hmeta
        have hday : h.writtenTo db e = db.pin e.id := by
          rw [writtenTo, hp, RequestsDb.pin, hmeta]
          rfl
        rw [ensureStartedForRecord_eq, hstarted, Option.isSome_some, if_pos rfl, hday, hstarted]
        rfl
      | none =>
        have hstarted : db.startedAt e.id = none := congrArg _ hmeta
        have hday : h.writtenTo db e = some (h.dayKey e.ts) := by
          rw [writtenTo, hp, RequestsDb.pin, hmeta]
          rfl
        have hinfo : (h.onStarted db e.id e.ts none).requestMeta.get e.id =
            some { day := h.dayKey e.ts, startedAtMs := e.ts } := by
          rw [get_requestMeta_onStarted, if_pos rfl]
        rw [ensureStartedForRecord_eq, hstarted, Option.isSome_none, if_neg Bool.false_ne_true,
          RequestsDb.pin, RequestsDb.startedAt, hinfo, Option.map_some, hday, row_onStarted]
        dsimp only
        split_ifs
        · rfl
        · rfl
    · rw [if_neg fun hc => hid hc.1, if_neg fun hc => hid hc.1, ensureStartedForRecord_eq]
      split_ifs
      · rfl
      · rw [row_onStarted, if_neg fun hc => hid hc.1]
  | stage event =>
    obtain ⟨statements, hw, heq⟩ := h.handle_stage db hp hstart
    have hrow : (h.handle db e).row day id = (db.executeFor e.id statements).row day id := by
      rw [heq]
      split_ifs
      · exact RequestsDb.row_clearRequest ..
      · rfl
    have hpin : h.writtenTo db e = db.pin e.id := by
      rw [RequestEvent.starts, hp] at hstart
      rw [writtenTo, hp]
      cases event <;> simp_all
    rw [hrow, RequestsDb.row_executeFor _ _ hw, hpin, RequestsDb.latencySinceStart_eq]
    by_cases hid : id = e.id
    · subst hid
      rw [AttemptFacts.tell_stage _ _ hp hstart]
      rfl
    · rw [if_neg fun hc => hid hc.1, if_neg fun hc => hid hc.1]

/-- **The pin after an event.** -/
theorem pin_handle (db : RequestsDb) (e : RequestEvent) (id : String) :
    (h.handle db e).pin id =
      if id = e.id then
        if e.pins then h.writtenTo db e else if e.completes then none else db.pin id
      else db.pin id := by
  rw [RequestsDb.pin, get_requestMeta_handle, writtenTo, RequestEvent.starts, RequestEvent.pins,
    RequestEvent.completes]
  by_cases hid : id = e.id
  · subst hid
    cases e.payload with
    | custom => simp [RequestsDb.pin]
    | record event =>
      cases hmeta : db.requestMeta.get e.id with
      | none => simp [RequestsDb.pin, RequestsDb.startedAt, hmeta]
      | some info => simp [RequestsDb.pin, RequestsDb.startedAt, hmeta]
    | stage event => cases event <;> simp [RequestsDb.pin]
  · rw [if_neg hid, if_neg hid]
    rfl

/-! ## What an attempt has -/

/-- A file of a day has an attempt: its row, and the pin while it runs. -/
structure Has (db : RequestsDb) (day id : String) (a : AttemptFacts) : Prop where
  requestMeta : db.requestMeta.get id = a.startedAt.map (RequestMeta.mk day)
  row : db.row day id = a.row

variable {h} {db : RequestsDb} {day id : String} {a : AttemptFacts}

theorem Has.startedAt_eq (hhas : Has db day id a) : db.startedAt id = a.startedAt := by
  rw [RequestsDb.startedAt, hhas.requestMeta, Option.map_map]
  exact Option.map_id'

variable {e : RequestEvent} {events : List RequestEvent}

theorem AttemptFacts.startedAt_tell :
    (a.tell h e).startedAt =
      if e.starts ∨ e.pins ∧ a.startedAt = none then some e.ts
      else if e.completes then none else a.startedAt := by
  rw [AttemptFacts.tell, RequestEvent.starts, RequestEvent.pins, RequestEvent.completes]
  cases e.payload with
  | custom => simp
  | record event =>
    cases hstarted : a.startedAt with
    | none => simp [AttemptFacts.ensureBegun, AttemptFacts.begin, hstarted]
    | some start => simp [AttemptFacts.ensureBegun, hstarted]
  | stage event => cases event <;> simp [AttemptFacts.begin]

/-- An event that pins its request anew is written to the file of its day. -/
theorem dayOf_eq (hpins : e.starts = true ∨ e.pins = true ∧ db.startedAt e.id = none)
    (hw : h.writtenTo db e = some day) : h.dayOf e = day := by
  rw [RequestEvent.starts, RequestEvent.pins] at hpins
  rw [writtenTo] at hw
  cases hp : e.payload with
  | custom => simp [hp] at hw
  | record event =>
    have hpin : db.pin e.id = none := by
      simpa [hp, RequestsDb.startedAt, RequestsDb.pin] using hpins
    rw [hp, hpin] at hw
    exact Option.some.inj hw
  | stage event => cases event <;> simp_all

/-- **An event that is written to a file tells its facts there.** -/
theorem Has.handle (hhas : Has db day id a) (hid : e.id = id) (hw : h.writtenTo db e = some day) :
    Has (h.handle db e) day id (a.tell h e) := by
  subst hid
  have hstarted : db.startedAt e.id = a.startedAt := hhas.startedAt_eq
  constructor
  · rw [get_requestMeta_handle, if_pos rfl, AttemptFacts.startedAt_tell, ← hstarted]
    split_ifs with hpins
    · rw [dayOf_eq hpins hw]
      rfl
    · rfl
    · rw [hhas.requestMeta, hstarted]
  · rw [row_handle, if_pos ⟨rfl, hw⟩, hhas.row, hstarted]

theorem Has.handle_of_ne (hhas : Has db day id a) (hid : id ≠ e.id) :
    Has (h.handle db e) day id a where
  requestMeta := by rw [get_requestMeta_handle, if_neg hid, hhas.requestMeta]
  row := by rw [row_handle, if_neg fun hc => hid hc.1, hhas.row]

variable (h)

/-- An event adds what it tells to the row of its request in the file of a day, whatever the files
have. -/
def TellsRow (db : RequestsDb) (day : String) (startedAt : Option Int) (e : RequestEvent) : Prop :=
  ∀ files, (h.handle { db with files := files } e).row day e.id =
    (AttemptFacts.tell h
      { row := RequestsDb.row { db with files := files } day e.id, startedAt := startedAt } e).row

/-- A row to which every event adds something. -/
def bareRow : RequestRow := { connection := some { ts := 0, ver := none, endpoint := none } }

/-- A file with this row. -/
def bareFiles (day id : String) : Table String DayDb :=
  [(day, { connection := [(id, { ts := 0, ver := none, endpoint := none })] })]

theorem row_bareFiles (db : RequestsDb) (day id : String) :
    ({ db with files := bareFiles day id } : RequestsDb).row day id = bareRow := by
  simp [RequestsDb.row, DayDb.row, BTreeMap.get, bareRow, bareFiles]

theorem tell_ne (startedAt : Option Int) (hcustom : e.payload ≠ .custom) :
    (AttemptFacts.tell h { row := bareRow, startedAt := startedAt } e).row ≠ bareRow := by
  rw [AttemptFacts.tell]
  cases hp : e.payload with
  | custom => exact absurd hp hcustom
  | stage event =>
    cases event <;>
      simp [AttemptFacts.begin, RequestRow.begun, stageFacts, bareRow, RequestRow.withMetadata,
        RequestRow.withDownstream, RequestRow.withUpstream, RequestRow.withConnection,
        RequestRow.withCtx]
  | record event =>
    have hbegun : ({ row := bareRow, startedAt := startedAt } : AttemptFacts).ensureBegun h e.ts =
        { row := { connection := (({ row := bareRow, startedAt := startedAt } :
            AttemptFacts).ensureBegun h e.ts).row.connection },
          startedAt := (({ row := bareRow, startedAt := startedAt } :
            AttemptFacts).ensureBegun h e.ts).startedAt } := by
      rw [AttemptFacts.ensureBegun]
      split_ifs <;> rfl
    dsimp only
    rw [hbegun]
    cases event <;>
      simp [recordFacts, stageFacts, bareRow, RequestRow.withMetadata, RequestRow.withDownstream,
        RequestRow.withUpstream, RequestRow.withConnection, RequestRow.withCtx]

/-- **Where an event is written is where it adds what it tells.** -/
theorem tellsRow_iff {db : RequestsDb} {day : String} {startedAt : Option Int}
    (hcustom : e.payload ≠ .custom)
    (hmeta : db.requestMeta.get e.id = startedAt.map (RequestMeta.mk day)) :
    h.TellsRow db day startedAt e ↔ h.writtenTo db e = some day := by
  have hstarted : db.startedAt e.id = startedAt :=
    Has.startedAt_eq (a := ⟨db.row day e.id, startedAt⟩) ⟨hmeta, rfl⟩
  constructor
  · intro htells
    by_contra hne
    have hsame := htells (bareFiles day e.id)
    rw [row_handle, if_neg fun hw => hne hw.2, row_bareFiles] at hsame
    exact h.tell_ne startedAt hcustom hsame.symm
  · intro hw files
    rw [row_handle, if_pos ⟨rfl, hw⟩, ← hstarted]
    rfl

/-! ## Runs -/

theorem handleAll_concat (events : List RequestEvent) (e : RequestEvent) :
    h.handleAll (events ++ [e]) = h.handle (h.handleAll events) e := List.foldl_concat ..

/-- The handler reads an event for a request: custom events are not read. -/
def concerns (id : String) (e : RequestEvent) : Bool := e.id = id && e.payload != .custom

theorem pin_handle_of_not_concerns {id : String} (hc : ¬ concerns id e = true) (db : RequestsDb) :
    (h.handle db e).pin id = db.pin id := by
  by_cases hid : e.id = id
  · have hp : e.payload = .custom := by simpa [concerns, hid] using hc
    rw [handle, hp]
  · rw [pin_handle, if_neg (Ne.symm hid)]

def eventsOf (id : String) (events : List RequestEvent) : List RequestEvent :=
  events.filter (concerns id)

theorem eventsOf_concat {id : String} (hc : concerns id e = true) (events : List RequestEvent) :
    eventsOf id (events ++ [e]) = eventsOf id events ++ [e] := by
  rw [eventsOf, List.filter_append, List.filter_singleton, hc]
  rfl

theorem eventsOf_concat_of_not {id : String} (hc : ¬ concerns id e = true)
    (events : List RequestEvent) : eventsOf id (events ++ [e]) = eventsOf id events := by
  rw [eventsOf, List.filter_append, List.filter_singleton, Bool.eq_false_of_not_eq_true hc]
  exact List.append_nil _

/-- A `Started` or a record that no `Completed` follows. -/
def Pinned (events : List RequestEvent) : Prop :=
  Since (fun e => e.pins = true) (fun e => e.completes = true) events

theorem isSome_writtenTo {db : RequestsDb} (hp : e.pins = true) :
    (h.writtenTo db e).isSome = true := by
  rw [RequestEvent.pins] at hp
  rw [writtenTo]
  cases hpay : e.payload with
  | custom => rw [hpay] at hp; cases hp
  | record event => rfl
  | stage event =>
    rw [hpay] at hp
    cases event with
    | started endpoint => rfl
    | _ => cases hp

/-- **A request is pinned from its first `Started` or record to its `Completed`.** -/
theorem pin_handleAll (id : String) (events : List RequestEvent) :
    ((h.handleAll events).pin id).isSome = true ↔ Pinned (eventsOf id events) := by
  induction events using List.reverseRecOn with
  | nil => exact iff_of_false Bool.false_ne_true (History.not_since_nil _ _)
  | append_singleton events e ih =>
    rw [handleAll_concat]
    by_cases hc : concerns id e = true
    · have hid : id = e.id := by simp_all [concerns]
      rw [eventsOf_concat hc, pin_handle, if_pos hid, Pinned, History.since_concat]
      split_ifs with hpins hend
      · exact iff_of_true (h.isSome_writtenTo hpins) (Or.inl hpins)
      · refine iff_of_false Bool.false_ne_true ?_
        intro hor
        exact hor.elim hpins fun hs => hs.2 hend
      · rw [ih, or_iff_right hpins, Pinned, and_iff_left hend]
    · rw [h.pin_handle_of_not_concerns hc, eventsOf_concat_of_not hc]
      exact ih

/-! ## One row -/

/-- The day of the first event of a request. -/
def firstDay (id : String) (events : List RequestEvent) : Option String :=
  (eventsOf id events).head?.map h.dayOf

/-- All facts of a request are in one row of the file of its first day, and no pin is left once it
has completed. -/
structure OneRow (id : String) (events : List RequestEvent) : Prop where
  /-- Every event adds what it tells to the row of the first day. -/
  written : Each (fun before e => concerns id e = true → ∀ day, h.firstDay id events = some day →
    h.TellsRow (h.handleAll before) day (AttemptFacts.ofEvents h (eventsOf id before)).startedAt e)
    events
  /-- In the end that row has what all events tell. -/
  facts : ∀ day, h.firstDay id events = some day →
    (h.handleAll events).row day id = (AttemptFacts.ofEvents h (eventsOf id events)).row
  /-- No other day has a row. -/
  alone : ∀ day, (h.handleAll events).row day id ≠ {} → h.firstDay id events = some day
  unpinned : (∃ e ∈ eventsOf id events, e.completes = true) → (h.handleAll events).pin id = none

/-- The events of a request keep to a day: `Started`, and a record that finds no pin, are of that
day, and the other stage events find a pin. -/
def KeepTo (day : String) (events : List RequestEvent) : Prop :=
  Each (fun before e =>
    if e.starts then h.dayOf e = day
    else if e.pins then Pinned before ∨ h.dayOf e = day
    else Pinned before) events

theorem keepTo_concat {day : String} :
    h.KeepTo day (events ++ [e]) ↔ h.KeepTo day events ∧
      if e.starts then h.dayOf e = day
      else if e.pins then Pinned events ∨ h.dayOf e = day
      else Pinned events := each_concat

/-- What one event has to satisfy, where the request is pinned to the day or not at all. -/
theorem writtenTo_eq_iff {db : RequestsDb} {day : String} (hcustom : e.payload ≠ .custom)
    (hpin : ∀ d, db.pin e.id = some d → d = day) :
    h.writtenTo db e = some day ↔
      if e.starts then h.dayOf e = day
      else if e.pins then (db.pin e.id).isSome = true ∨ h.dayOf e = day
      else (db.pin e.id).isSome = true := by
  have hsome : db.pin e.id = some day ↔ (db.pin e.id).isSome = true := by
    constructor
    · intro heq
      rw [heq]
      rfl
    · intro hs
      obtain ⟨d, hd⟩ := Option.isSome_iff_exists.mp hs
      rw [hd, hpin d hd]
  rw [writtenTo, RequestEvent.starts, RequestEvent.pins]
  cases hp : e.payload with
  | custom => exact absurd hp hcustom
  | record event =>
    show some ((db.pin e.id).getD (h.dayOf e)) = some day ↔ _ ∨ _
    rw [Option.some_inj]
    cases hd : db.pin e.id with
    | none => exact (or_iff_right Bool.false_ne_true).symm
    | some d => exact iff_of_true (hpin d hd) (Or.inl rfl)
  | stage event =>
    cases event with
    | started endpoint => exact Option.some_inj
    | _ => exact hsome

theorem pin_handle_eq {db : RequestsDb} {day id : String} (hpin : ∀ d, db.pin id = some d → d = day)
    (hw : concerns id e = true → h.writtenTo db e = some day) :
    ∀ d, (h.handle db e).pin id = some d → d = day := by
  intro d hd
  by_cases hc : concerns id e = true
  · have hid : id = e.id := by simp_all [concerns]
    rw [pin_handle, if_pos hid, hw hc] at hd
    split_ifs at hd
    · exact (Option.some.inj hd).symm
    · exact hpin d hd
  · rw [h.pin_handle_of_not_concerns hc] at hd
    exact hpin d hd

/-- **Along a run: the facts are written to a day exactly if the events keep to it, and then the
request is pinned to no other day.** -/
theorem written_iff (id day : String) (events : List RequestEvent) :
    (Each (fun before e => concerns id e = true →
        h.writtenTo (h.handleAll before) e = some day) events ↔ h.KeepTo day (eventsOf id events)) ∧
      (h.KeepTo day (eventsOf id events) →
        ∀ d, (h.handleAll events).pin id = some d → d = day) := by
  induction events using List.reverseRecOn with
  | nil =>
    refine ⟨iff_of_true (each_nil _) (each_nil _), ?_⟩
    intro _ d hd
    cases hd
  | append_singleton events e ih =>
    obtain ⟨hiff, hpin⟩ := ih
    rw [each_concat, handleAll_concat, hiff]
    by_cases hc : concerns id e = true
    · have hid : e.id = id := by simp_all [concerns]
      have hcustom : e.payload ≠ .custom := by simp_all [concerns]
      rw [eventsOf_concat hc]
      have hstep : h.KeepTo day (eventsOf id events) →
          (h.writtenTo (h.handleAll events) e = some day ↔
            if e.starts then h.dayOf e = day
            else if e.pins then Pinned (eventsOf id events) ∨ h.dayOf e = day
            else Pinned (eventsOf id events)) := by
        intro hk
        rw [h.writtenTo_eq_iff hcustom (by rw [hid]; exact hpin hk), hid, pin_handleAll]
      constructor
      · rw [keepTo_concat]
        refine and_congr_right fun hk => ?_
        rw [← hstep hk]
        exact ⟨fun hw => hw hc, fun hw _ => hw⟩
      · rw [keepTo_concat]
        intro hk
        exact h.pin_handle_eq (hpin hk.1) fun _ => (hstep hk.1).mpr hk.2
    · rw [eventsOf_concat_of_not hc]
      refine ⟨and_iff_left fun hc' => absurd hc' hc, fun hk => ?_⟩
      exact h.pin_handle_eq (hpin hk) fun hc' => absurd hc' hc

/-- There are rows only in files to which an event of the request was written. -/
theorem row_handleAll {id : String} {target : Option String}
    (hw : Each (fun before e => concerns id e = true →
      h.writtenTo (h.handleAll before) e = target) events) {day : String}
    (hday : target ≠ some day) : (h.handleAll events).row day id = {} := by
  induction events using List.reverseRecOn with
  | nil => rfl
  | append_singleton events e ih =>
    obtain ⟨hbefore, he⟩ := each_concat.mp hw
    have hnot : ¬ (id = e.id ∧ h.writtenTo (h.handleAll events) e = some day) := by
      rintro ⟨hid, hwritten⟩
      by_cases hcustom : e.payload = .custom
      · rw [writtenTo, hcustom] at hwritten
        cases hwritten
      · rw [he (by simp [concerns, hid, hcustom])] at hwritten
        exact hday hwritten
    rw [handleAll_concat, row_handle, if_neg hnot, ih hbefore]

/-- A file to which all events of a request are written has what they tell. -/
theorem has_handleAll {id day : String}
    (hw : Each (fun before e => concerns id e = true →
      h.writtenTo (h.handleAll before) e = some day) events) :
    Has (h.handleAll events) day id (AttemptFacts.ofEvents h (eventsOf id events)) := by
  induction events using List.reverseRecOn with
  | nil => exact ⟨rfl, rfl⟩
  | append_singleton events e ih =>
    obtain ⟨hbefore, he⟩ := each_concat.mp hw
    rw [handleAll_concat]
    by_cases hc : concerns id e = true
    · have hid : e.id = id := by simp_all [concerns]
      rw [eventsOf_concat hc, AttemptFacts.ofEvents_concat]
      exact (ih hbefore).handle hid (he hc)
    · rw [eventsOf_concat_of_not hc]
      by_cases hid : id = e.id
      · have hcustom : e.payload = .custom := by simpa [concerns, ← hid] using hc
        rw [handle, hcustom]
        exact ih hbefore
      · exact (ih hbefore).handle_of_ne hid

/-- **Along a run: the events add what they tell to the row of a day exactly if they are written
there.** -/
theorem each_tellsRow_iff (id day : String) (events : List RequestEvent) :
    Each (fun before e => concerns id e = true →
        h.TellsRow (h.handleAll before) day (AttemptFacts.ofEvents h (eventsOf id before)).startedAt e)
        events ↔
      Each (fun before e => concerns id e = true →
        h.writtenTo (h.handleAll before) e = some day) events := by
  induction events using List.reverseRecOn with
  | nil => exact iff_of_true (each_nil _) (each_nil _)
  | append_singleton events e ih =>
    rw [each_concat, each_concat, ih]
    refine and_congr_right fun hbefore => forall_congr' fun hc => ?_
    have hid : e.id = id := by simp_all [concerns]
    have hcustom : e.payload ≠ .custom := by simp_all [concerns]
    exact h.tellsRow_iff hcustom (hid ▸ (h.has_handleAll hbefore).requestMeta)

/-- **The facts of a request are in one row of its first day exactly if its events keep to that
day and nothing pins the request after its last `Completed`.** -/
theorem oneRow_iff (id : String) (events : List RequestEvent) :
    h.OneRow id events ↔
      (∀ first ∈ (eventsOf id events).head?, h.KeepTo (h.dayOf first) (eventsOf id events)) ∧
        ((∃ e ∈ eventsOf id events, e.completes = true) → ¬ Pinned (eventsOf id events)) := by
  have hunpin : (h.handleAll events).pin id = none ↔ ¬ Pinned (eventsOf id events) := by
    rw [← h.pin_handleAll, Option.not_isSome_iff_eq_none]
  cases hhead : (eventsOf id events).head? with
  | none =>
    have hnone : eventsOf id events = [] := List.head?_eq_none_iff.mp hhead
    have hfirst : h.firstDay id events = none := by rw [firstDay, hhead]; rfl
    have hc : ∀ e ∈ events, ¬ concerns id e = true := fun e he hc =>
      absurd (List.mem_filter.mpr ⟨he, hc⟩) (by rw [← eventsOf, hnone]; exact List.not_mem_nil)
    refine iff_of_true ?_ ⟨(fun first hmem => by cases hmem), ?_⟩
    · exact {
        written := fun before e after heq he => absurd he (hc e (by simp [heq]))
        facts := fun day hday => by rw [hfirst] at hday; cases hday
        alone := fun day hrow => by
          have hnowhere : (none : Option String) ≠ some day := by simp
          refine absurd (h.row_handleAll ?_ hnowhere) hrow
          exact fun before e after heq he => absurd he (hc e (by simp [heq]))
        unpinned := fun hend => by rw [hnone] at hend; simp at hend }
    · rw [hnone]
      simp
  | some first =>
    have hfirst : h.firstDay id events = some (h.dayOf first) := by rw [firstDay, hhead]; rfl
    have hkeep : (∀ f ∈ some first, h.KeepTo (h.dayOf f) (eventsOf id events)) ↔
        h.KeepTo (h.dayOf first) (eventsOf id events) := by simp
    have hwritten := (h.each_tellsRow_iff id (h.dayOf first) events).trans
      (h.written_iff id (h.dayOf first) events).1
    rw [hkeep, ← hwritten]
    constructor
    · intro hone
      exact ⟨fun before e after heq hc => hone.written before e after heq hc _ hfirst,
        fun hend => hunpin.mp (hone.unpinned hend)⟩
    · intro hcond
      have hw := (h.each_tellsRow_iff id (h.dayOf first) events).mp hcond.1
      exact {
        written := fun before e after heq hc day hday => by
          rw [hfirst, Option.some_inj] at hday
          exact hday ▸ hcond.1 before e after heq hc
        facts := fun day hday => by
          rw [hfirst, Option.some_inj] at hday
          exact hday ▸ (h.has_handleAll hw).row
        alone := fun day hrow => by
          rw [hfirst]
          exact by_contra fun hday => hrow (h.row_handleAll hw hday)
        unpinned := fun hend => hunpin.mpr (hcond.2 hend) }

/-! ## Two ways past the pin -/

/-- Days are numbered from the epoch. -/
def countDays : RequestPersistence where
  date secs := toString (secs / 86400)
  version := "0"

/-- The connection is recorded before midnight and the pipeline starts after it. -/
def overMidnight : List RequestEvent :=
  [⟨"r", 0, 1767225599999, .record (.inboundConnection none none none none "proxy" "chat" "POST" none)⟩,
    ⟨"r", 0, 1767225600001, .stage (.started (.known .chatCompletions))⟩]

/-- The tap of the stream reports the usage after the pipeline has completed. -/
def lateUsage : List RequestEvent :=
  [⟨"r", 0, 1767225600001, .stage (.started (.known .chatCompletions))⟩,
    ⟨"r", 0, 1767225600002, .stage (.completed true)⟩,
    ⟨"r", 0, 1767225600003, .record (.usage { outputTokens := some 1 })⟩]

/-- **Either way the facts do not stay in one row or the pin does not go.** -/
theorem not_oneRow :
    ¬ countDays.OneRow "r" overMidnight ∧ ¬ countDays.OneRow "r" lateUsage := by
  constructor
  · intro hone
    exact absurd (hone.alone "20454" (by decide +kernel)) (by decide +kernel)
  · intro hone
    have hpin : (countDays.handleAll lateUsage).pin "r" = none :=
      hone.unpinned ⟨_, List.mem_cons_of_mem _ List.mem_cons_self, rfl⟩
    exact absurd hpin (by decide +kernel)

end RequestPersistence

end Tokn.Persistence
