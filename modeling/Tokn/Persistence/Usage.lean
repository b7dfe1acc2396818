import Tokn.Persistence.Requests

/-!
# The usage database

`crates/persistence/src/usage.rs`: a row for each attempt in `usage.db`, and the records of the
attempts that are not finished, which are kept in memory until an attempt has completed and its
usage is known. The statements are taken to succeed.
-/

namespace Tokn.Persistence

open Tokn.Requests (Stage RequestEndpoint)

/-! ## The database -/

/-- `UsageRecord`, without the request. -/
structure UsageRow where
  ts : Int
  sessionId : Option String
  projectId : Option String
  ver : Option String
  requestError : Option String
  user : Option String
  endpoint : String
  accountId : Option String
  providerId : Option String
  model : String
  paramsJson : JsonColumn
  usageJson : JsonColumn
  ctxJson : JsonColumn
  status : Option UInt16
  deriving DecidableEq

/-- The table `requests`, with a unique index on `request_id`. -/
structure UsageDb where
  requests : Table String UsageRow
  unique : requests.Keyed

namespace UsageDb

/-- A database without rows. -/
def empty : UsageDb := ⟨[], Table.keyed_nil⟩

def record (db : UsageDb) (requestId : String) (r : UsageRow) : UsageDb :=
  ⟨db.requests.insertOrReplace requestId r, db.unique.insertOrReplace requestId r⟩

def rowsOf (db : UsageDb) (requestId : String) : List UsageRow :=
  (db.requests.filter fun e => e.1 = requestId).map Prod.snd

theorem rowsOf_eq (db : UsageDb) (requestId : String) :
    db.rowsOf requestId = (db.requests.get requestId).toList := by
  rw [rowsOf, db.unique.filter_key]
  cases db.requests.get requestId <;> rfl

theorem get_record (db : UsageDb) (requestId requestId' : String) (r : UsageRow) :
    (db.record requestId r).requests.get requestId' =
      if requestId' = requestId then some r else db.requests.get requestId' :=
  Table.get_insertOrReplace ..

end UsageDb

/-! ## Records -/

structure PendingUsageRecord where
  ts : Int := 0
  sessionId : Option String := none
  requestId : String := ""
  projectId : Option String := none
  ver : Option String := none
  requestError : Option String := none
  user : Option String := none
  endpoint : Option String := none
  accountId : Option String := none
  providerId : Option String := none
  model : Option String := none
  paramsJson : BTreeMap String Value := []
  usage : Option Usage := none
  usageJson : JsonColumn := none
  ctxJson : BTreeMap String Value := []
  status : Option UInt16 := none
  usageSeen : Bool := false
  completed : Bool := false
  deriving DecidableEq

def jsonText (value : BTreeMap String Value) : JsonColumn := if value = [] then none else some value

def requestEndpointFromStr : Option String → RequestEndpoint
  | some "responses" => .known .responses
  | some "chat_completions" => .known .chatCompletions
  | some "messages" => .known .messages
  | some other => .customPath other
  | none => .customPath "unknown"

def modelIsKnown : Option String → Bool
  | some model => model ≠ "" && model ≠ "unknown"
  | none => false

/-- `ts.saturating_sub(start).max(0)`. -/
def elapsedMs (ts start : Int) : Value := .nat (min (ts - start) (2 ^ 63 - 1)).toNat

namespace PendingUsageRecord

/-- The row that is written of a record. -/
def toRow (pending : PendingUsageRecord) : UsageRow where
  ts := pending.ts
  sessionId := pending.sessionId
  projectId := pending.projectId
  ver := pending.ver
  requestError := pending.requestError
  user := pending.user
  endpoint := endpointLabel (requestEndpointFromStr pending.endpoint)
  accountId := pending.accountId
  providerId := pending.providerId
  model := pending.model.getD ""
  paramsJson := jsonText pending.paramsJson
  usageJson := pending.usageJson <|> pending.usage.bind Persistence.usageJson
  ctxJson := jsonText pending.ctxJson
  status := pending.status

def patchLatencyHeaderMs (pending : PendingUsageRecord) (ts : Int) : PendingUsageRecord :=
  { pending with
    ctxJson := pending.ctxJson.insert "latency_header_ms" (elapsedMs ts pending.ts) }

end PendingUsageRecord

/-! ## The handler -/

structure UsageEventHandler where
  db : UsageDb
  pending : BTreeMap String PendingUsageRecord

namespace UsageEventHandler

/-- `UsageEventHandler::new`, with the database that was opened. -/
def new (db : UsageDb) : UsageEventHandler := ⟨db, []⟩

variable (h : UsageEventHandler) (id : String)

/-- The record that `ensure_pending` gives. -/
def pendingOr (ts : Int) : PendingUsageRecord :=
  (h.pending.get id).getD { ts := ts, requestId := id }

/-- `ensure_pending`, and what is done with the record. -/
def ensurePending (ts : Int) (update : PendingUsageRecord → PendingUsageRecord) :
    UsageEventHandler :=
  { h with pending := h.pending.insert id (update (h.pendingOr id ts)) }

def persistIfReady : UsageEventHandler :=
  match h.pending.get id with
  | none => h
  | some pending =>
    if pending.completed && modelIsKnown pending.model then
      { db := h.db.record pending.requestId pending.toRow
        pending := if pending.usageSeen then h.pending.erase id else h.pending }
    else h

def onStarted (version : String) (ts : Int) (endpoint : RequestEndpoint) : UsageEventHandler :=
  h.ensurePending id ts fun pending =>
    { pending with ts := ts, ver := some version, endpoint := some (endpointLabel endpoint) }

def onExtract (summary : ExtractedSummary) : UsageEventHandler :=
  h.ensurePending id 0 fun pending =>
    { pending with
      model := some summary.model
      sessionId := summary.sessionId
      projectId := summary.projectId
      paramsJson := pending.paramsJson.extend (presentFields
        [("initiator", summary.initiator.map .string), ("stream", some (.bool summary.stream))]) }

def onResolve (accountId providerId : String) : UsageEventHandler :=
  h.ensurePending id 0 fun pending =>
    { pending with accountId := some accountId, providerId := some providerId }

/-- `on_send`, which `on_upstream_resp` repeats. -/
def onSend (ts : Int) (status : UInt16) : UsageEventHandler :=
  h.ensurePending id ts fun pending =>
    { pending with status := some (pending.status.getD status) }.patchLatencyHeaderMs ts

def onConvertResponse (status : UInt16) : UsageEventHandler :=
  h.ensurePending id 0 fun pending => { pending with status := some status }

def onError (stage : Stage) (message : String) : UsageEventHandler :=
  h.ensurePending id 0 fun pending =>
    { pending with requestError := some (stageLabel stage ++ ": " ++ message) }

def onCompleted (ts : Int) : UsageEventHandler :=
  (h.ensurePending id ts fun pending =>
    { pending with
      ctxJson := pending.ctxJson.insert "latency_ms" (elapsedMs ts pending.ts)
      completed := true }).persistIfReady id

def onInboundConnection (user apiKeyId localAddr peerAddr : Option String)
    (mode method : String) : UsageEventHandler :=
  h.ensurePending id 0 fun pending =>
    { pending with
      user := pending.user <|> user
      ctxJson := pending.ctxJson.extend (presentFields
        [("api_key_id", apiKeyId.map .string), ("local_addr", localAddr.map .string),
          ("peer_addr", peerAddr.map .string), ("mode", some (.string mode)),
          ("pipeline_id", some (.string method))]) }

def onUpstreamReq : UsageEventHandler := h.ensurePending id 0 fun pending => pending

def onUsage (usage : Usage) : UsageEventHandler :=
  (h.ensurePending id 0 fun pending =>
    { pending with
      usage := some usage
      usageJson := usageJson usage
      usageSeen := true }).persistIfReady id

def onStage (version : String) (ts : Int) : StageEvent → UsageEventHandler
  | .started requestEndpoint => h.onStarted id version ts requestEndpoint
  | .extract summary => h.onExtract id summary
  | .resolve accountId providerId => h.onResolve id accountId providerId
  | .buildHeaders _ => h
  | .convertRequest _ => h
  | .send status _ => h.onSend id ts status
  | .convertResponse status _ _ => h.onConvertResponse id status
  | .error stage message => h.onError id stage message
  | .completed _ => h.onCompleted id ts

def onRecord (ts : Int) : RecordEvent → UsageEventHandler
  | .inboundConnection user apiKeyId localAddr peerAddr mode method _ _ =>
    h.onInboundConnection id user apiKeyId localAddr peerAddr mode method
  | .upstreamReq _ _ _ _ => h.onUpstreamReq id
  | .upstreamResp status _ => h.onSend id ts status
  | .upstreamBody _ _ => h
  | .convertedBody _ _ => h
  | .usage usage => h.onUsage id usage

def handle (version : String) (h : UsageEventHandler) (e : RequestEvent) : UsageEventHandler :=
  match e.payload with
  | .custom => h
  | .stage event => h.onStage e.id version e.ts event
  | .record event => h.onRecord e.id e.ts event

/-- The handler after some events. -/
def handleAll (version : String) (db : UsageDb) (events : List RequestEvent) : UsageEventHandler :=
  events.foldl (handle version) (new db)

end UsageEventHandler

end Tokn.Persistence
