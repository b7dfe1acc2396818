import Tokn.Persistence.Requests

/-!
# The row of a request

What the four tables of a day file have for one request is its row, and statements of the handler
write to the row of one request only.

What the events of an attempt tell is one row as well, wherever it is kept (`AttemptFacts`). It has no
files, no days and no pins.
-/

namespace Tokn.Persistence

/-! ## Rows of a request -/

/-- What the four tables of a file have for a request. -/
structure RequestRow where
  connection : Option ConnectionRow := none
  metadata : Option MetadataRow := none
  downstream : Option DownstreamRow := none
  upstream : Option UpstreamRow := none
  deriving DecidableEq

namespace DayDb

def row (file : DayDb) (id : String) : RequestRow where
  connection := file.connection.get id
  metadata := file.metadata.get id
  downstream := file.downstream.get id
  upstream := file.upstream.get id

@[simp] theorem row_empty (id : String) : ({} : DayDb).row id = {} := rfl

end DayDb

/-! ## What an attempt tells -/

namespace RequestRow

variable (row : RequestRow)

def withMetadata (update : MetadataRow → MetadataRow) : RequestRow :=
  { row with metadata := some (update (row.metadata.getD {})) }

def withDownstream (update : DownstreamRow → DownstreamRow) : RequestRow :=
  { row with downstream := some (update (row.downstream.getD {})) }

def withUpstream (update : UpstreamRow → UpstreamRow) : RequestRow :=
  { row with upstream := some (update (row.upstream.getD {})) }

def withConnection (update : ConnectionRow → ConnectionRow) : RequestRow :=
  { row with connection := row.connection.map update }

/-- More of the context of a request. -/
def withCtx (patch : BTreeMap String Value) : RequestRow :=
  row.withConnection fun c =>
    if patch = [] then c else { c with ctxJson := some ((c.ctxJson.getD []).extend patch) }

/-- A request that starts, or is told to have started: what the row already says stays. -/
def begun (version : String) (ts : Int) (endpoint : Option String) : RequestRow :=
  { row with
    connection := some (match row.connection with
      | none => { ts := ts, ver := some version, endpoint := endpoint }
      | some old =>
        { old with
          ver := old.ver <|> some version
          endpoint :=
            if old.endpoint = none ∨ old.endpoint = some "" then endpoint else old.endpoint }) }

end RequestRow

namespace RequestPersistence

variable (h : RequestPersistence)

/-- The facts of a stage event, `latency` after the start of the attempt. -/
def stageFacts (latency : Int) (row : RequestRow) : StageEvent → RequestRow
  | .started _ => row
  | .extract s =>
    row
    |>.withMetadata (fun m =>
      { m with
        model := some s.model
        sessionId := s.sessionId <|> m.sessionId
        paramsJson := some ((m.paramsJson.getD []).extend (presentFields
          [("initiator", s.initiator.map .string), ("stream", some (.bool s.stream))])) })
    |>.withDownstream fun d =>
      { d with
        inboundReqHeaders := some (headersJson s.headers)
        inboundReqBody := h.persistedBody s.rawBody }
  | .resolve accountId providerId =>
    row.withMetadata fun m => { m with accountId := some accountId, providerId := some providerId }
  | .buildHeaders headers =>
    row.withUpstream fun u => { u with outboundReqHeaders := some (headersJson headers) }
  | .convertRequest body =>
    row.withUpstream fun u => { u with outboundReqBody := h.persistedBody body }
  | .send status headers =>
    row
    |>.withUpstream (fun u =>
      { u with
        outboundRespStatus := some status
        outboundRespHeaders := some (headersJson headers) })
    |>.withCtx [("latency_header_ms", intValue latency)]
  | .convertResponse status headers body =>
    row
    |>.withDownstream (fun d =>
      { d with
        inboundRespStatus := some status
        inboundRespHeaders := some (headersJson headers)
        inboundRespBody :=
          h.persistedBody ((body.map fun v => Str.utf8Bytes v.toText).getD []) })
    |>.withConnection fun c => { c with status := some status }
  | .error stage message =>
    row.withConnection fun c => { c with requestError := some (stageLabel stage ++ ": " ++ message) }
  | .completed _ => row.withCtx [("latency_ms", intValue latency)]

def recordFacts (latency : Int) (row : RequestRow) : RecordEvent → RequestRow
  | .inboundConnection user apiKeyId localAddr peerAddr mode method inboundMethod url =>
    row
    |>.withCtx (presentFields
      [("local_addr", localAddr.map .string), ("peer_addr", peerAddr.map .string),
        ("api_key_id", apiKeyId.map .string), ("mode", some (.string mode)),
        ("pipeline_id", some (.string method))])
    |>.withConnection (fun c => { c with user := c.user <|> user })
    |>.withDownstream fun d =>
      { d with
        inboundReqMethod := some inboundMethod
        inboundReqUrl := url <|> d.inboundReqUrl }
  | .upstreamReq method url headers body =>
    row.withUpstream fun u =>
      { u with
        outboundReqMethod := some method
        outboundReqUrl := some url
        outboundReqHeaders := some (headersJson headers)
        outboundReqBody := h.persistedBody body }
  | .upstreamResp status headers => h.stageFacts latency row (.send status headers)
  | .upstreamBody body _ => row.withUpstream fun u => { u with outboundRespBody := h.persistedBody body }
  | .convertedBody body _ =>
    row.withDownstream fun d => { d with inboundRespBody := h.persistedBody body }
  | .usage usage => row.withMetadata fun m => { m with usageJson := usageJson usage }

end RequestPersistence

/-- What the events of an attempt tell, wherever it is kept. -/
structure AttemptFacts where
  row : RequestRow := {}
  /-- The time of the event that started it, unless it has completed. -/
  startedAt : Option Int := none
  deriving DecidableEq

namespace AttemptFacts

variable (h : RequestPersistence) (a : AttemptFacts)

def latency (ts : Int) : Int := (a.startedAt.map fun start => ts - start).getD 0

def begin (ts : Int) (endpoint : Option String) : AttemptFacts where
  row := a.row.begun h.version ts endpoint
  startedAt := some ts

/-- A record starts an attempt that has not started. -/
def ensureBegun (ts : Int) : AttemptFacts := if a.startedAt.isSome then a else a.begin h ts none

/-- One more event. -/
def tell (e : RequestEvent) : AttemptFacts :=
  match e.payload with
  | .custom => a
  | .stage (.started endpoint) => a.begin h e.ts (some (endpointLabel endpoint))
  | .stage event =>
    { row := h.stageFacts (a.latency e.ts) a.row event
      startedAt := if e.completes then none else a.startedAt }
  | .record event =>
    { a.ensureBegun h e.ts with
      row := h.recordFacts ((a.ensureBegun h e.ts).latency e.ts) (a.ensureBegun h e.ts).row event }

theorem tell_stage {e : RequestEvent} {event : StageEvent} (hp : e.payload = .stage event)
    (hstart : ¬ e.starts = true) :
    a.tell h e =
      { row := h.stageFacts (a.latency e.ts) a.row event
        startedAt := if e.completes then none else a.startedAt } := by
  rw [RequestEvent.starts, hp] at hstart
  rw [tell, hp]
  cases event with
  | started endpoint => exact absurd rfl hstart
  | _ => rfl

def ofEvents (events : List RequestEvent) : AttemptFacts := events.foldl (tell h) {}

theorem ofEvents_concat (events : List RequestEvent) (e : RequestEvent) :
    ofEvents h (events ++ [e]) = (ofEvents h events).tell h e := List.foldl_concat ..

end AttemptFacts

/-! ## What statements write -/

namespace DayDb

/-- Statements that write to the row of one request only. -/
def Writes (id : String) (update : RequestRow → RequestRow) (statements : DayDb → DayDb) : Prop :=
  ∀ file id', (statements file).row id' = if id' = id then update (file.row id) else file.row id'

theorem Writes.comp {id : String} {u v : RequestRow → RequestRow} {f g : DayDb → DayDb}
    (hf : Writes id u f) (hg : Writes id v g) :
    Writes id (fun row => v (u row)) fun file => g (f file) := by
  intro file id'
  rw [hg (f file) id', hf file id, if_pos rfl, hf file id']
  split_ifs <;> rfl

variable (id : String)

theorem upsert_row {ρ : Type} (old : Option ρ) (default : ρ) (update : ρ → ρ) :
    (old.map update).getD (update default) = update (old.getD default) := by
  cases old <;> rfl

theorem writes_upsertMetadata (update : MetadataRow → MetadataRow) :
    Writes id (fun row => row.withMetadata update) fun file => file.upsertMetadata id update := by
  intro file id'
  dsimp only [row, upsertMetadata]
  rw [Table.get_upsert, upsert_row]
  split_ifs with hid
  · rw [hid]
    rfl
  · rfl

theorem writes_upsertDownstream (update : DownstreamRow → DownstreamRow) :
    Writes id (fun row => row.withDownstream update) fun file => file.upsertDownstream id update := by
  intro file id'
  dsimp only [row, upsertDownstream]
  rw [Table.get_upsert, upsert_row]
  split_ifs with hid
  · rw [hid]
    rfl
  · rfl

theorem writes_upsertUpstream (update : UpstreamRow → UpstreamRow) :
    Writes id (fun row => row.withUpstream update) fun file => file.upsertUpstream id update := by
  intro file id'
  dsimp only [row, upsertUpstream]
  rw [Table.get_upsert, upsert_row]
  split_ifs with hid
  · rw [hid]
    rfl
  · rfl

theorem writes_updateConnection (update : ConnectionRow → ConnectionRow) :
    Writes id (fun row => row.withConnection update) fun file => file.updateConnection id update := by
  intro file id'
  dsimp only
  rw [updateConnection, RequestRow.withConnection]
  cases hconn : file.connection.get id with
  | none =>
    split_ifs with hid
    · rw [hid, row, hconn]
      rfl
    · rfl
  | some old =>
    rw [row, row, Table.get_set, hconn]
    split_ifs with hid
    · rw [hid]
      rfl
    · rfl

theorem writes_patchCtxJson (patch : BTreeMap String Value) :
    Writes id (fun row => row.withCtx patch) fun file => file.patchCtxJson id patch :=
  writes_updateConnection id _

end DayDb

open DayDb (Writes)

namespace RequestsDb

/-- What the file of a day has for a request. -/
def row (db : RequestsDb) (day id : String) : RequestRow := ((db.files.get day).getD {}).row id

/-- The day to which a request is pinned. -/
def pin (db : RequestsDb) (id : String) : Option String := (db.requestMeta.get id).map RequestMeta.day

/-- The time of the event that pinned a request. -/
def startedAt (db : RequestsDb) (id : String) : Option Int :=
  (db.requestMeta.get id).map RequestMeta.startedAtMs

variable (db : RequestsDb) (id : String)

theorem containsRequest_eq : db.containsRequest id = (db.pin id).isSome := by
  rw [containsRequest, BTreeMap.contains, pin, Option.isSome_map]

theorem latencySinceStart_eq (ts : Int) :
    db.latencySinceStart id ts = ((db.startedAt id).map fun start => ts - start).getD 0 := by
  rw [latencySinceStart, startedAt, Option.map_map]
  rfl

@[simp] theorem requestMeta_executeFor (id' : String) (statements : DayDb → DayDb) :
    (db.executeFor id' statements).requestMeta = db.requestMeta := by
  rw [executeFor]
  cases db.requestMeta.get id' <;> rfl

theorem get_requestMeta_clearRequest (id' : String) :
    (db.clearRequest id').requestMeta.get id = if id = id' then none else db.requestMeta.get id := by
  rw [clearRequest]
  cases hmeta : db.requestMeta.get id' with
  | none =>
    split_ifs with hid
    · rw [hid, hmeta]
    · rfl
  | some info => exact BTreeMap.get_erase ..

@[simp] theorem row_clearRequest (id' day : String) :
    (db.clearRequest id').row day id = db.row day id := by
  rw [clearRequest]
  cases db.requestMeta.get id' <;> rfl

variable {id' : String} {u : RequestRow → RequestRow} {statements : DayDb → DayDb}

/-- Statements on one file leave the other files and the rows of other requests alone. -/
theorem row_execute (hw : Writes id' u statements) (day day' : String) :
    (db.execute day' statements).row day id =
      if id = id' ∧ some day' = some day then u (db.row day id) else db.row day id := by
  rw [execute, connForDay, row, row]
  dsimp only
  rw [Table.get_set, Table.get_insertOrIgnore, if_pos rfl, Option.getD_some]
  by_cases hday : day = day'
  · subst hday
    rw [if_pos rfl, Option.getD_some, hw]
    by_cases hid : id = id'
    · rw [if_pos hid, if_pos ⟨hid, rfl⟩, hid]
    · rw [if_neg hid, if_neg fun h => hid h.1]
  · rw [if_neg hday, Table.get_insertOrIgnore, if_neg hday,
      if_neg fun h => hday (Option.some.inj h.2).symm]

theorem row_executeFor (hw : Writes id' u statements) (day : String) :
    (db.executeFor id' statements).row day id =
      if id = id' ∧ db.pin id' = some day then u (db.row day id) else db.row day id := by
  rw [executeFor, pin]
  cases db.requestMeta.get id' with
  | none => exact (if_neg fun h => Option.some_ne_none day h.2.symm).symm
  | some info => exact db.row_execute id hw day info.day

end RequestsDb

end Tokn.Persistence
