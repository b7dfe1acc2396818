import Tokn.Persistence.Events
import Tokn.Lib.Table

/-!
# The sessions database

`crates/persistence/src/sessions.rs` on the tables of `schemas/snapshot/sessions/v0.2.1.sql`.
Messages form one content-addressed tree of prefixes; a session node is an observed request that
points to the last message it reached. A `record_tree` runs in a transaction: when it fails the
database is as before. The tables of rows from before v0.2.1 are left out.
-/

namespace Tokn.Persistence

/-- `[u8; 32]`. -/
abbrev MessageId := Vector UInt8 32

/-! ## Records -/

structure PartRecord where
  partType : String
  content : Bytes
  deriving DecidableEq

structure MessageRecord where
  role : String
  status : Option UInt16
  parts : List PartRecord
  deriving DecidableEq

structure TreeRequestRecord where
  ts : Int
  sessionId : String
  threadId : Option String
  parentThreadId : Option String
  parentSessionId : Option String
  requestId : String
  endpoint : String
  status : Option UInt16
  accountId : Option String
  providerId : Option String
  model : Option String
  requestMessages : List MessageRecord
  responseMessages : List MessageRecord
  deriving DecidableEq

inductive Error where
  | invalidMessageTree (messageId : String)
  /-- A constraint of the schema does not hold. -/
  | sqlite
  deriving DecidableEq

/-! ## Rows -/

structure SessionRow where
  firstSeenTs : Int
  lastSeenTs : Int
  source : String
  accountId : Option String
  providerId : Option String
  model : Option String
  deriving DecidableEq

structure ThreadRow where
  parentThreadId : Option String
  firstSeenTs : Int
  lastSeenTs : Int
  source : String
  deriving DecidableEq

structure NodeRow where
  sessionId : String
  parentId : Option String
  requestId : String
  ts : Int
  endpoint : String
  status : Option UInt16
  accountId : Option String
  providerId : Option String
  model : Option String
  reductionKind : String
  parentSource : String
  commonPrefixMessages : Nat
  requestMessageCount : Nat
  responseMessageCount : Nat
  threadId : String
  messageId : MessageId
  inputMessageCount : Nat
  outputMessageCount : Nat
  deriving DecidableEq

structure HeadRow where
  nodeId : String
  updatedTs : Int
  deriving DecidableEq

structure RelationRow where
  firstSeenTs : Int
  lastSeenTs : Int
  source : String
  deriving DecidableEq

structure MessageRow where
  parentId : Option MessageId
  depth : Nat
  messageHash : MessageId
  role : String
  status : Option UInt16
  deriving DecidableEq

/-- The tables. -/
structure SessionsDb where
  sessions : Table String SessionRow := []
  /-- By session and thread. -/
  sessionThreads : Table (String × String) ThreadRow := []
  sessionNodes : Table String NodeRow := []
  sessionHeads : Table String HeadRow := []
  /-- By parent session, child session and kind. -/
  sessionRelations : Table (String × String × String) RelationRow := []
  messageTree : Table MessageId MessageRow := []
  /-- By message and index. -/
  messageParts : Table (MessageId × Nat) String := []
  partBlobs : Table String PartRecord := []
  deriving DecidableEq

/-! ## Hashes -/

/-- `u64::to_be_bytes`, of a number modulo `2 ^ 64`. -/
def beBytes (n : Nat) : Bytes :=
  [56, 48, 40, 32, 24, 16, 8, 0].map fun shift => UInt8.ofNat (n / 2 ^ shift)

/-- A byte in two hexadecimal digits. -/
def hexByte (byte : UInt8) : List Char :=
  [Nat.digitChar (byte.toNat / 16), Nat.digitChar (byte.toNat % 16)]

def encodeMessageId (id : MessageId) : String := String.ofList (id.toList.flatMap hexByte)

/-- What `hash_len_prefixed` hashes. -/
def lenPrefixed (value : Bytes) : Bytes := beBytes value.length ++ value

section

variable (sha256 : Bytes → MessageId)

def hashPart (part : PartRecord) : String :=
  encodeMessageId (sha256 (Str.utf8Bytes part.partType ++ [0] ++ part.content))

/-- What `hash_message` hashes. -/
def messageBytes (message : MessageRecord) : Bytes :=
  Str.utf8Bytes "tokn:session-message:v1" ++ [0] ++ lenPrefixed (Str.utf8Bytes message.role) ++
    (match message.status with
      | some status => [1, UInt8.ofNat (status.toNat / 256), UInt8.ofNat status.toNat]
      | none => [0]) ++
    beBytes message.parts.length ++
    message.parts.flatMap fun part =>
      lenPrefixed (Str.utf8Bytes part.partType) ++ lenPrefixed part.content

def hashMessage (message : MessageRecord) : MessageId := sha256 (messageBytes message)

def hashPrefix (parentId : Option MessageId) (messageHash : MessageId) : MessageId :=
  sha256 (Str.utf8Bytes "tokn:session-prefix:v1" ++ [0] ++
    (match parentId with
      | some parentId => 1 :: parentId.toList
      | none => [0]) ++
    messageHash.toList)

/-! ## The message tree -/

namespace SessionsDb

/-- The parts of a message in order, each with its hash and its blob. -/
def storedParts (db : SessionsDb) (messageId : MessageId) :
    List (Nat × String × Option PartRecord) :=
  ((db.messageParts.filter fun e => e.1.1 = messageId).mergeSort fun a b => a.1.2 ≤ b.1.2).map
    fun e => (e.1.2, e.2, db.partBlobs.get e.2)

def validateMessageParts (db : SessionsDb) (messageId : MessageId) (message : MessageRecord) :
    Except Error Unit :=
  if db.storedParts messageId =
      message.parts.zipIdx.map fun p => (p.2, hashPart sha256 p.1, some p.1) then .ok ()
  else .error (.invalidMessageTree (encodeMessageId messageId))

def insertOrValidatePartBlob (db : SessionsDb) (messageId : MessageId) (part : PartRecord) :
    Except Error SessionsDb :=
  match db.partBlobs.get (hashPart sha256 part) with
  | none => .ok { db with partBlobs := db.partBlobs.insertOrIgnore (hashPart sha256 part) part }
  | some stored =>
    if stored = part then .ok db
    else .error (.invalidMessageTree (encodeMessageId messageId))

def insertOrValidateMessagePart (db : SessionsDb) (messageId : MessageId) (partIndex : Nat)
    (partHash : String) : Except Error SessionsDb :=
  match db.messageParts.get (messageId, partIndex) with
  | none =>
    .ok { db with messageParts := db.messageParts.insertOrIgnore (messageId, partIndex) partHash }
  | some stored =>
    if stored = partHash then .ok db
    else .error (.invalidMessageTree (encodeMessageId messageId))

/-- One part of a new message. -/
def insertPart (messageId : MessageId) (db : SessionsDb) (part : PartRecord × Nat) :
    Except Error SessionsDb := do
  let db ← db.insertOrValidatePartBlob sha256 messageId part.1
  db.insertOrValidateMessagePart messageId part.2 (hashPart sha256 part.1)

end SessionsDb

/-- The loop of `insert_message_path`: the database, the last message, the path so far, and how
much of it was there before. -/
structure MessagePath where
  db : SessionsDb
  parentId : Option MessageId
  ids : List MessageId := []
  reusedPrefixMessages : Nat := 0
  deriving DecidableEq

def messageRow (parentId : Option MessageId) (depth : Nat) (message : MessageRecord) : MessageRow where
  parentId := parentId
  depth := depth
  messageHash := hashMessage sha256 message
  role := message.role
  status := message.status

/-- One message of `insert_message_path`. -/
def insertMessage (parentDepth : Nat) (path : MessagePath) (message : MessageRecord) :
    Except Error MessagePath := do
  let row := messageRow sha256 path.parentId (parentDepth + path.ids.length + 1) message
  let messageId := hashPrefix sha256 path.parentId row.messageHash
  match path.db.messageTree.get messageId with
  | some stored =>
    -- `validate_existing_message`.
    if stored ≠ row then throw (.invalidMessageTree (encodeMessageId messageId))
    path.db.validateMessageParts sha256 messageId message
    return { path with
      parentId := some messageId
      ids := path.ids ++ [messageId]
      reusedPrefixMessages :=
        if path.reusedPrefixMessages = path.ids.length then path.reusedPrefixMessages + 1
        else path.reusedPrefixMessages }
  | none =>
    let db := { path.db with messageTree := path.db.messageTree.insertOrIgnore messageId row }
    let db ← message.parts.zipIdx.foldlM (SessionsDb.insertPart sha256 messageId) db
    db.validateMessageParts sha256 messageId message
    return { path with db := db, parentId := some messageId, ids := path.ids ++ [messageId] }

def insertMessagePath (db : SessionsDb) (parentId : Option MessageId) (parentDepth : Nat)
    (messages : List MessageRecord) : Except Error MessagePath :=
  messages.foldlM (insertMessage sha256 parentDepth) { db := db, parentId := parentId }

end

/-! ## The summaries -/

namespace TreeRequestRecord

/-- There is nothing to record. -/
def isEmpty (r : TreeRequestRecord) : Bool := r.requestMessages.isEmpty && r.responseMessages.isEmpty

def explicitThreadId (r : TreeRequestRecord) : Option String :=
  (r.threadId.map Str.trim).filter fun value => value ≠ ""

/-- `thread_id`. -/
def thread (r : TreeRequestRecord) : String := r.explicitThreadId.getD r.sessionId

/-- `parent_thread_id`. -/
def parentThread (r : TreeRequestRecord) : Option String :=
  (r.parentThreadId.map Str.trim).filter fun parent => parent ≠ "" ∧ parent ≠ r.thread

def threadSource (r : TreeRequestRecord) : String :=
  if r.explicitThreadId.isSome then "thread-header" else "session-fallback"

end TreeRequestRecord

namespace SessionsDb

variable (db : SessionsDb) (r : TreeRequestRecord)

/-- The upsert of `sessions`. -/
def upsertSession : SessionsDb :=
  { db with
    sessions := db.sessions.upsert r.sessionId
      { firstSeenTs := r.ts
        lastSeenTs := r.ts
        source := "header"
        accountId := r.accountId
        providerId := r.providerId
        model := r.model }
      fun old =>
        { old with
          lastSeenTs := r.ts
          accountId := r.accountId <|> old.accountId
          providerId := r.providerId <|> old.providerId
          model := r.model <|> old.model } }

/-- The upsert of `session_threads`. -/
def upsertThread : SessionsDb :=
  { db with
    sessionThreads := db.sessionThreads.upsert (r.sessionId, r.thread)
      { parentThreadId := r.parentThread
        firstSeenTs := r.ts
        lastSeenTs := r.ts
        source := r.threadSource }
      fun old =>
        { parentThreadId := old.parentThreadId <|> r.parentThread
          firstSeenTs := min old.firstSeenTs r.ts
          lastSeenTs := max old.lastSeenTs r.ts
          source := if r.threadSource = "thread-header" then r.threadSource else old.source } }

/-- The upsert of `session_nodes`, whose conflict target is the session and the request. Another
row with the same id is an error. -/
def upsertNode (input output : MessagePath) (messageId : MessageId) : Except Error SessionsDb :=
  let inputCount := input.ids.length
  let outputCount := output.ids.length
  let conflicts := fun row : NodeRow => row.sessionId = r.sessionId && row.requestId = r.requestId
  if db.sessionNodes.any fun e => conflicts e.2 then
    .ok { db with
      sessionNodes := db.sessionNodes.updateWhere conflicts fun old =>
        { old with
          parentId := none
          status := r.status
          accountId := r.accountId <|> old.accountId
          providerId := r.providerId <|> old.providerId
          model := r.model <|> old.model
          reductionKind := "message_tree"
          parentSource := "none"
          responseMessageCount := outputCount
          threadId := r.thread
          messageId := messageId
          inputMessageCount := inputCount
          outputMessageCount := outputCount } }
  else if db.sessionNodes.contains r.requestId then .error .sqlite
  else
    .ok { db with
      sessionNodes := db.sessionNodes ++ [(r.requestId,
        { sessionId := r.sessionId
          parentId := none
          requestId := r.requestId
          ts := r.ts
          endpoint := r.endpoint
          status := r.status
          accountId := r.accountId
          providerId := r.providerId
          model := r.model
          reductionKind := "message_tree"
          parentSource := "none"
          commonPrefixMessages := input.reusedPrefixMessages
          requestMessageCount := inputCount - input.reusedPrefixMessages
          responseMessageCount := outputCount
          threadId := r.thread
          messageId := messageId
          inputMessageCount := inputCount
          outputMessageCount := outputCount })] }

/-- The upsert of `session_heads`. -/
def upsertHead : SessionsDb :=
  { db with
    sessionHeads := db.sessionHeads.upsert r.sessionId { nodeId := r.requestId, updatedTs := r.ts }
      fun old => if old.updatedTs ≤ r.ts then { nodeId := r.requestId, updatedTs := r.ts } else old }

/-- The upsert of `session_relations`, when the session has a parent. -/
def upsertRelation : SessionsDb :=
  match r.parentSessionId with
  | none => db
  | some parentSessionId =>
    { db with
      sessionRelations := db.sessionRelations.upsert (parentSessionId, r.sessionId, "subagent")
        { firstSeenTs := r.ts, lastSeenTs := r.ts, source := "x-parent-session-id" }
        fun old => { old with lastSeenTs := r.ts } }

def recordTree (sha256 : Bytes → MessageId) : Except Error SessionsDb :=
  if r.isEmpty then .ok db
  else do
    let input ← insertMessagePath sha256 db none 0 r.requestMessages
    let output ← insertMessagePath sha256 input.db input.ids.getLast? input.ids.length
      r.responseMessages
    match output.ids.getLast? <|> input.ids.getLast? with
    -- Not reached: there is a message.
    | none => .error .sqlite
    | some messageId =>
      let db := (output.db.upsertSession r).upsertThread r
      let db ← db.upsertNode r input output messageId
      return (db.upsertHead r).upsertRelation r

end SessionsDb

/-- The database after some successful calls. -/
def recordAll (sha256 : Bytes → MessageId) (records : List TreeRequestRecord) :
    Except Error SessionsDb :=
  records.foldlM (fun db r => db.recordTree r sha256) {}

end Tokn.Persistence
