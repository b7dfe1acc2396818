import Tokn.Persistence.Semantic

/-!
# Live session capture

`crates/persistence/src/sessions/live.rs`: the handler collects what the events of a request say
until the request has completed, and then records it in the sessions database. The identifiers of
the session come from the headers (`crates/headers/src/inbound.rs`).
-/

namespace Tokn.Persistence

open Tokn.Requests (RequestEndpoint)

/-! ## Correlation -/

def sessionIdHeaders : List String :=
  ["x-session-id", "x-client-session-id", "session-id", "session_id", "x-session-affinity",
    "x-opencode-session"]

def threadIdHeaders : List String := ["thread-id", "thread_id"]

def parentThreadIdHeaders : List String :=
  ["x-codex-parent-thread-id", "x-parent-thread-id", "parent-thread-id", "parent_thread_id"]

/-- The fields of `InboundCorrelation` that are read, which are those of `CodexTurnMetadata`. -/
structure InboundCorrelation where
  sessionId : Option String := none
  threadId : Option String := none
  parentThreadId : Option String := none
  deriving DecidableEq

def firstPresent (headers : HeaderMap) (names : List String) : Option String :=
  names.findSome? fun name =>
    ((headers.get name).map Str.trim).filter fun value => value ≠ ""

def nonEmpty (value : Option String) : Option String :=
  (value.map Str.trim).filter fun value => value ≠ ""

def metadataScopeIsCompatible (direct metadata : Option String) : Bool :=
  match metadata with
  | some metadata => direct = none || direct = some metadata
  | none => false

def reconcileCorrelation (direct metadata : InboundCorrelation) : InboundCorrelation :=
  let sessionIsCompatible := metadataScopeIsCompatible direct.sessionId metadata.sessionId
  let threadIsCompatible :=
    sessionIsCompatible && metadataScopeIsCompatible direct.threadId metadata.threadId
  { sessionId := direct.sessionId <|> metadata.sessionId
    threadId := direct.threadId <|> if sessionIsCompatible then metadata.threadId else none
    parentThreadId :=
      direct.parentThreadId <|> if threadIsCompatible then metadata.parentThreadId else none }

/-- What the handler gets from outside: the JSON parsers, for bytes, for text and for the metadata
of a turn, and the hash function. -/
structure SessionPersistence where
  fromSlice : Bytes → Option Value
  fromStr : String → Option Value
  turnMetadata : String → Option InboundCorrelation
  sha256 : Bytes → MessageId

def SessionPersistence.inboundCorrelation (h : SessionPersistence) (headers : HeaderMap) :
    InboundCorrelation :=
  let metadata := ((headers.get "x-codex-turn-metadata").bind h.turnMetadata).map fun metadata =>
    { sessionId := nonEmpty metadata.sessionId
      threadId := nonEmpty metadata.threadId
      parentThreadId := nonEmpty metadata.parentThreadId }
  reconcileCorrelation
    { sessionId := firstPresent headers sessionIdHeaders
      threadId := firstPresent headers threadIdHeaders
      parentThreadId := firstPresent headers parentThreadIdHeaders }
    (metadata.getD {})

/-! ## Pending requests -/

structure PendingSession where
  ts : Int
  endpoint : Option String := none
  sessionId : Option String := none
  threadId : Option String := none
  parentThreadId : Option String := none
  parentSessionId : Option String := none
  accountId : Option String := none
  providerId : Option String := none
  model : Option String := none
  status : Option UInt16 := none
  requestBody : Option Value := none
  bufferedResponseBody : Option Bytes := none
  convertedResponseBody : Option Bytes := none
  upstreamResponseBody : Option Bytes := none
  deriving DecidableEq

namespace SessionPersistence

variable (h : SessionPersistence)

/-- The request messages of `into_tree_record`. -/
def requestMessages (pending : PendingSession) (endpoint : String) : List MessageRecord :=
  (pending.requestBody.map (Semantic.requestMessagesFromJson endpoint)).getD []

/-- The response messages of `into_tree_record`. -/
def responseMessages (pending : PendingSession) : List MessageRecord :=
  Semantic.responseMessagesFromBody h.fromStr h.fromSlice
    ((pending.convertedResponseBody <|> pending.bufferedResponseBody <|>
      pending.upstreamResponseBody).getD [])

def intoTreeRecord (pending : PendingSession) (requestId : String) : Option TreeRequestRecord :=
  match pending.sessionId, pending.endpoint with
  | some sessionId, some endpoint =>
    let requestMessages := requestMessages pending endpoint
    let responseMessages := h.responseMessages pending
    if requestMessages = [] ∧ responseMessages = [] then none
    else
      some
        { ts := pending.ts
          sessionId := sessionId
          threadId := pending.threadId
          parentThreadId := pending.parentThreadId
          parentSessionId := pending.parentSessionId
          requestId := requestId
          endpoint := endpoint
          status := pending.status
          accountId := pending.accountId
          providerId := pending.providerId
          model := pending.model
          requestMessages := requestMessages
          responseMessages := responseMessages }
  | _, _ => none

def sessionRequestBody (summary : ExtractedSummary) : Option Value :=
  if summary.bodyJson.isNull then h.fromSlice summary.decodedBody else some summary.bodyJson

/-- What `Extract` says. -/
def onExtract (summary : ExtractedSummary) (pending : PendingSession) : PendingSession :=
  let correlation := h.inboundCorrelation summary.headers
  let sessionId := summary.sessionId <|> correlation.sessionId
  { pending with
    sessionId := sessionId
    threadId := correlation.threadId
    parentThreadId := correlation.parentThreadId
    parentSessionId := summary.headers.get "x-parent-session-id"
    model := some summary.model
    requestBody := if sessionId.isSome then h.sessionRequestBody summary else none }

/-- What an event between `Started` and `Completed` says about its request, if anything. -/
def updateOf : Payload → Option (PendingSession → PendingSession)
  | .stage (.extract summary) => some (h.onExtract summary)
  | .stage (.resolve accountId providerId) =>
    some fun pending =>
      { pending with accountId := some accountId, providerId := some providerId }
  | .stage (.send status _) => some fun pending => { pending with status := some status }
  | .stage (.convertResponse status _ body) =>
    some fun pending =>
      { pending with status := some status, bufferedResponseBody := body.map Semantic.valueBytes }
  | .record (.upstreamResp status _) => some fun pending => { pending with status := some status }
  | .record (.upstreamBody body none) =>
    some fun pending => { pending with upstreamResponseBody := some body }
  | .record (.convertedBody body none) =>
    some fun pending => { pending with convertedResponseBody := some body }
  | _ => none

end SessionPersistence

/-! ## The handler -/

def pendingRetentionMs : Int := 24 * 60 * 60 * 1000

structure SessionEventHandler where
  db : SessionsDb := {}
  pending : Table String PendingSession := []
  deriving DecidableEq

namespace SessionEventHandler

def pruneStale (s : SessionEventHandler) (ts : Int) : SessionEventHandler :=
  { s with pending := s.pending.filter fun entry => ts - pendingRetentionMs ≤ entry.2.ts }

end SessionEventHandler

namespace SessionPersistence

variable (h : SessionPersistence)

/-- What is recorded when a request completes. -/
def completedRecord (s : SessionEventHandler) (requestId : String) (success : Bool) :
    Option TreeRequestRecord :=
  if success then (s.pending.get requestId).bind fun pending => h.intoTreeRecord pending requestId
  else none

/-- `complete`. A record that the database refuses is dropped. -/
def complete (s : SessionEventHandler) (requestId : String) (success : Bool) :
    SessionEventHandler where
  pending := s.pending.erase requestId
  db :=
    match h.completedRecord s requestId success with
    | none => s.db
    | some record =>
      match s.db.recordTree record h.sha256 with
      | .ok db => db
      | .error _ => s.db

/-- `handle_request`. -/
def handle (s : SessionEventHandler) (e : RequestEvent) : SessionEventHandler :=
  match e.payload with
  | .stage (.started requestEndpoint) =>
    let s := s.pruneStale e.ts
    { s with
      pending := s.pending.set e.id { ts := e.ts, endpoint := some (endpointLabel requestEndpoint) } }
  | .stage (.completed success) => h.complete s e.id success
  | payload =>
    match h.updateOf payload with
    | some update => { s with pending := s.pending.upsert e.id (update { ts := e.ts }) update }
    | none => s

/-- The handler after some events. -/
def handleAll (events : List RequestEvent) : SessionEventHandler := events.foldl h.handle {}

end SessionPersistence

end Tokn.Persistence
