import Tokn.Lib.Table
import Tokn.Persistence.Events

/-!
# The requests database

`crates/persistence/src/requests`: a file for each day, a cache of the files that are open, and
the day to which each request is pinned while it runs. `RequestEventHandler` routes what an event
says to the row of its attempt. Opening and locking a file are taken to succeed.
-/

namespace Tokn.Persistence

open Tokn.Requests (Stage RequestEndpoint)

/-! ## Rows -/

/-- A JSON column is given by its object. -/
abbrev JsonColumn := Option (BTreeMap String Value)

structure ConnectionRow where
  ts : Int
  ver : Option String
  endpoint : Option String
  status : Option UInt16 := none
  requestError : Option String := none
  user : Option String := none
  ctxJson : JsonColumn := none
  deriving DecidableEq

structure MetadataRow where
  sessionId : Option String := none
  accountId : Option String := none
  providerId : Option String := none
  model : Option String := none
  paramsJson : JsonColumn := none
  usageJson : JsonColumn := none
  deriving DecidableEq

structure DownstreamRow where
  inboundReqMethod : Option String := none
  inboundReqUrl : Option String := none
  inboundReqHeaders : Option Bytes := none
  inboundReqBody : Option Bytes := none
  inboundRespStatus : Option UInt16 := none
  inboundRespHeaders : Option Bytes := none
  inboundRespBody : Option Bytes := none
  deriving DecidableEq

structure UpstreamRow where
  outboundReqMethod : Option String := none
  outboundReqUrl : Option String := none
  outboundReqHeaders : Option Bytes := none
  outboundReqBody : Option Bytes := none
  outboundRespStatus : Option UInt16 := none
  outboundRespHeaders : Option Bytes := none
  outboundRespBody : Option Bytes := none
  deriving DecidableEq

/-- The tables of a day file. -/
structure DayDb where
  connection : Table String ConnectionRow := []
  metadata : Table String MetadataRow := []
  downstream : Table String DownstreamRow := []
  upstream : Table String UpstreamRow := []
  deriving DecidableEq

namespace DayDb

/-- `UPDATE request_connection`. -/
def updateConnection (file : DayDb) (id : String) (update : ConnectionRow → ConnectionRow) : DayDb :=
  match file.connection.get id with
  | some row => { file with connection := file.connection.set id (update row) }
  | none => file

/-- An upsert of `request_metadata`. -/
def upsertMetadata (file : DayDb) (id : String) (update : MetadataRow → MetadataRow) : DayDb :=
  { file with metadata := file.metadata.upsert id (update {}) update }

/-- An upsert of `request_downstream`. -/
def upsertDownstream (file : DayDb) (id : String) (update : DownstreamRow → DownstreamRow) : DayDb :=
  { file with downstream := file.downstream.upsert id (update {}) update }

/-- An upsert of `request_upstream`. -/
def upsertUpstream (file : DayDb) (id : String) (update : UpstreamRow → UpstreamRow) : DayDb :=
  { file with upstream := file.upstream.upsert id (update {}) update }

/-- `patch_ctx_json`: `json_set` for each key. -/
def patchCtxJson (file : DayDb) (id : String) (patch : BTreeMap String Value) : DayDb :=
  file.updateConnection id fun row =>
    if patch = [] then row
    else { row with ctxJson := some ((row.ctxJson.getD []).extend patch) }

end DayDb

/-! ## The database -/

structure RequestMeta where
  day : String
  startedAtMs : Int
  deriving DecidableEq

def cacheCap : Nat := 3

/-- The connections that are open are those of `order`. -/
structure RequestsDb where
  order : List String := []
  requestMeta : Table String RequestMeta := []
  files : Table String DayDb := []
  deriving DecidableEq

/-- What the handler gets from outside: the day of a time in seconds, as `OffsetDateTime` writes
it, the version of the program, and the options. -/
structure RequestPersistence where
  date : Int → String
  version : String
  recordRequestBodies : Bool := true
  bodyMaxBytes : Nat := 10 * 1024 * 1024

namespace RequestsDb

variable (db : RequestsDb)

def connForDay (key : String) : RequestsDb :=
  let order :=
    if key ∈ db.order ∨ db.order.length < cacheCap then db.order else db.order.drop 1
  { db with
    order := (order.filter fun k => k ≠ key) ++ [key]
    files := db.files.insertOrIgnore key {} }

/-- Statements that are executed on the connection of a day. -/
def execute (day : String) (statements : DayDb → DayDb) : RequestsDb :=
  let db := db.connForDay day
  { db with files := db.files.set day (statements ((db.files.get day).getD {})) }

/-- `conn_for_request`, and the statements that are executed if there is a connection. -/
def executeFor (id : String) (statements : DayDb → DayDb) : RequestsDb :=
  match db.requestMeta.get id with
  | some info => db.execute info.day statements
  | none => db

def containsRequest (id : String) : Bool := db.requestMeta.contains id

def latencySinceStart (id : String) (tsNow : Int) : Int :=
  ((db.requestMeta.get id).map fun info => tsNow - info.startedAtMs).getD 0

def clearRequest (id : String) : RequestsDb :=
  match db.requestMeta.get id with
  | none => db
  | some info =>
    let requestMeta := db.requestMeta.erase id
    { db with
      requestMeta := requestMeta
      order :=
        if requestMeta.any fun e => e.2.day = info.day then db.order
        else db.order.filter fun day => day ≠ info.day }

end RequestsDb

/-! ## Values -/

def isSensitiveHeader (name : String) : Bool :=
  name = "authorization" || name = "proxy-authorization" || name = "cookie" ||
    (name.toList.tails.any fun tail => "api-key".toList.isPrefixOf tail)

def headersJson (headers : HeaderMap) : Bytes :=
  Str.utf8Bytes (Value.obj (headers.map fun entry =>
    (entry.1, .string (if isSensitiveHeader entry.1 then "<redacted>" else entry.2)))).toText

def presentFields (fields : List (String × Option Value)) : BTreeMap String Value :=
  BTreeMap.extend [] (fields.filterMap fun field => field.2.map fun value => (field.1, value))

/-- An integer. -/
def intValue (n : Int) : Value := if 0 ≤ n then .nat n.toNat else .number (.negInt n)

/-- The object of `usage_json`. -/
def usageFields (usage : Usage) : BTreeMap String Value :=
  presentFields
    [("kind", usage.usageType.map fun v => .string v.asStr),
      ("input", usage.inputTokens.map .nat),
      ("output", usage.outputTokens.map .nat),
      ("total", usage.totalTokens.map .nat),
      ("cache_read", usage.details.cacheRead.map .nat),
      ("cache_write", usage.details.cacheWrite.map .nat),
      ("reasoning", usage.details.reasoning.map .nat)]

def usageJson (usage : Usage) : JsonColumn :=
  if usageFields usage = [] then none else some (usageFields usage)

/-! ## The handler -/

namespace RequestPersistence

variable (h : RequestPersistence) (db : RequestsDb) (id : String)

/-- `day_key`: a time of more than ten digits is in milliseconds. -/
def dayKey (ts : Int) : String := h.date (if 10000000000 < ts then ts / 1000 else ts)

def persistedBody (body : Bytes) : Option Bytes :=
  if h.recordRequestBodies then some (body.take h.bodyMaxBytes) else none

def onStarted (ts : Int) (endpoint : Option RequestEndpoint) : RequestsDb :=
  let db := db.execute (h.dayKey ts) fun file =>
    { file with
      connection := file.connection.upsert id
        { ts := ts, ver := some h.version, endpoint := endpoint.map endpointLabel }
        fun old =>
          { old with
            ver := old.ver <|> some h.version
            endpoint :=
              if old.endpoint = none ∨ old.endpoint = some "" then endpoint.map endpointLabel
              else old.endpoint } }
  { db with
    requestMeta := db.requestMeta.set id { day := h.dayKey ts, startedAtMs := ts } }

def ensureStartedForRecord (ts : Int) : RequestsDb :=
  if db.containsRequest id then db else h.onStarted db id ts none

def onInboundConnection (user apiKeyId localAddr peerAddr : Option String)
    (mode method inboundMethod : String) (url : Option String) : RequestsDb :=
  db.executeFor id fun file => file
    |>.patchCtxJson id (presentFields
      [("local_addr", localAddr.map .string), ("peer_addr", peerAddr.map .string),
        ("api_key_id", apiKeyId.map .string), ("mode", some (.string mode)),
        ("pipeline_id", some (.string method))])
    |>.updateConnection id (fun row => { row with user := row.user <|> user })
    |>.upsertDownstream id fun row =>
      { row with
        inboundReqMethod := some inboundMethod
        inboundReqUrl := url <|> row.inboundReqUrl }

def onExtract (s : ExtractedSummary) : RequestsDb :=
  db.executeFor id fun file => file
    |>.upsertMetadata id (fun row =>
      { row with model := some s.model, sessionId := s.sessionId <|> row.sessionId })
    |>.upsertMetadata id (fun row =>
      { row with
        paramsJson := some ((row.paramsJson.getD []).extend (presentFields
          [("initiator", s.initiator.map .string), ("stream", some (.bool s.stream))])) })
    |>.upsertDownstream id fun row =>
      { row with
        inboundReqHeaders := some (headersJson s.headers)
        inboundReqBody := h.persistedBody s.rawBody }

def onResolve (accountId providerId : String) : RequestsDb :=
  db.executeFor id fun file => file.upsertMetadata id fun row =>
    { row with accountId := some accountId, providerId := some providerId }

def onBuildHeaders (headers : HeaderMap) : RequestsDb :=
  db.executeFor id fun file => file.upsertUpstream id fun row =>
    { row with outboundReqHeaders := some (headersJson headers) }

def onConvertRequest (body : Bytes) : RequestsDb :=
  db.executeFor id fun file => file.upsertUpstream id fun row =>
    { row with outboundReqBody := h.persistedBody body }

/-- `on_send`, which `on_upstream_resp` repeats. -/
def onSend (ts : Int) (status : UInt16) (headers : HeaderMap) : RequestsDb :=
  let latencyHeaderMs := db.latencySinceStart id ts
  db.executeFor id fun file => file
    |>.upsertUpstream id (fun row =>
      { row with
        outboundRespStatus := some status
        outboundRespHeaders := some (headersJson headers) })
    |>.patchCtxJson id [("latency_header_ms", intValue latencyHeaderMs)]

def onConvertResponse (status : UInt16) (headers : HeaderMap) (body : Option Value) : RequestsDb :=
  let bodyBytes := (body.map fun v => Str.utf8Bytes v.toText).getD []
  db.executeFor id fun file => file
    |>.upsertDownstream id (fun row =>
      { row with
        inboundRespStatus := some status
        inboundRespHeaders := some (headersJson headers)
        inboundRespBody := h.persistedBody bodyBytes })
    |>.updateConnection id fun row => { row with status := some status }

def onError (stage : Stage) (message : String) : RequestsDb :=
  db.executeFor id fun file => file.updateConnection id fun row =>
    { row with requestError := some (stageLabel stage ++ ": " ++ message) }

def onCompleted (ts : Int) : RequestsDb :=
  let latencyMs := db.latencySinceStart id ts
  db.executeFor id (fun file => file.patchCtxJson id [("latency_ms", intValue latencyMs)])
    |>.clearRequest id

def onUpstreamReq (method url : String) (headers : HeaderMap) (body : Bytes) : RequestsDb :=
  db.executeFor id fun file => file.upsertUpstream id fun row =>
    { row with
      outboundReqMethod := some method
      outboundReqUrl := some url
      outboundReqHeaders := some (headersJson headers)
      outboundReqBody := h.persistedBody body }

def onUpstreamBody (body : Bytes) : RequestsDb :=
  db.executeFor id fun file => file.upsertUpstream id fun row =>
    { row with outboundRespBody := h.persistedBody body }

def onConvertedBody (body : Bytes) : RequestsDb :=
  db.executeFor id fun file => file.upsertDownstream id fun row =>
    { row with inboundRespBody := h.persistedBody body }

def onUsage (usage : Usage) : RequestsDb :=
  db.executeFor id fun file => file.upsertMetadata id fun row =>
    { row with usageJson := usageJson usage }

def onStage (ts : Int) : StageEvent → RequestsDb
  | .started requestEndpoint => h.onStarted db id ts (some requestEndpoint)
  | .extract summary => h.onExtract db id summary
  | .resolve accountId providerId => onResolve db id accountId providerId
  | .buildHeaders headers => onBuildHeaders db id headers
  | .convertRequest body => h.onConvertRequest db id body
  | .send status headers => onSend db id ts status headers
  | .convertResponse status headers body => h.onConvertResponse db id status headers body
  | .error stage message => onError db id stage message
  | .completed _ => onCompleted db id ts

/-- A record event of a request that is pinned. -/
def onRecord (ts : Int) : RecordEvent → RequestsDb
  | .inboundConnection user apiKeyId localAddr peerAddr mode method inboundMethod url =>
    onInboundConnection db id user apiKeyId localAddr peerAddr mode method inboundMethod url
  | .upstreamReq method url headers body => h.onUpstreamReq db id method url headers body
  | .upstreamResp status headers => onSend db id ts status headers
  | .upstreamBody body _ => h.onUpstreamBody db id body
  | .convertedBody body _ => h.onConvertedBody db id body
  | .usage usage => onUsage db id usage

def handle (e : RequestEvent) : RequestsDb :=
  match e.payload with
  | .custom => db
  | .stage event => h.onStage db e.id e.ts event
  | .record event => h.onRecord (h.ensureStartedForRecord db e.id e.ts) e.id e.ts event

/-- The database after some events. -/
def handleAll (events : List RequestEvent) : RequestsDb := events.foldl h.handle {}

end RequestPersistence

end Tokn.Persistence
