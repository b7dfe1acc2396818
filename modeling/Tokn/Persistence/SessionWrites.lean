import Tokn.Lib.Except
import Tokn.Persistence.Sessions

/-!
# What a call writes

What `insert_message_path` and `record_tree` have done when they succeed: `insertMessage_ok` and
`recordTree_ok` take a successful call apart, and the rest of the development unfolds neither.
-/

namespace Tokn.Persistence

variable {sha256 : Bytes → MessageId} {db db' : SessionsDb} {r : TreeRequestRecord}

/-! ## Messages -/

/-- The tables beside the message tree. -/
def SessionsDb.summaries (db : SessionsDb) :=
  (db.sessions, db.sessionThreads, db.sessionNodes, db.sessionHeads, db.sessionRelations)

theorem summaries_insertPart {messageId : MessageId} {part : PartRecord × Nat}
    (h : db.insertPart sha256 messageId part = .ok db') : db'.summaries = db.summaries := by
  obtain ⟨mid, hblob, hpart⟩ := Except.bind_eq_ok.mp h
  have hmid : mid.summaries = db.summaries := by
    unfold SessionsDb.insertOrValidatePartBlob at hblob
    split at hblob
    · cases hblob
      rfl
    · split_ifs at hblob
      cases hblob
      rfl
  rw [← hmid]
  unfold SessionsDb.insertOrValidateMessagePart at hpart
  split at hpart
  · cases hpart
    rfl
  · split_ifs at hpart
    cases hpart
    rfl

/-- **What a successful `insertMessage` does**: the message is there already, or it is new and its
parts are written. Either way its parts are those of the message. -/
theorem insertMessage_ok {parentDepth : Nat} {path path' : MessagePath} {message : MessageRecord}
    (h : insertMessage sha256 parentDepth path message = .ok path') :
    let row := messageRow sha256 path.parentId (parentDepth + path.ids.length + 1) message
    let messageId := hashPrefix sha256 path.parentId (hashMessage sha256 message)
    path'.parentId = some messageId ∧ path'.ids = path.ids ++ [messageId] ∧
      path'.db.storedParts messageId =
        (message.parts.zipIdx.map fun p => (p.2, hashPart sha256 p.1, some p.1)) ∧
      (path'.db = path.db ∧ path.db.messageTree.get messageId = some row ∨
        path.db.messageTree.get messageId = none ∧
          message.parts.zipIdx.foldlM (SessionsDb.insertPart sha256 messageId)
            { path.db with messageTree := path.db.messageTree.insertOrIgnore messageId row } =
              .ok path'.db) := by
  intro row messageId
  have hvalid {db : SessionsDb} {u : Unit}
      (hv : db.validateMessageParts sha256 messageId message = .ok u) :
      db.storedParts messageId =
        message.parts.zipIdx.map fun p => (p.2, hashPart sha256 p.1, some p.1) := by
    unfold SessionsDb.validateMessageParts at hv
    split_ifs at hv with hparts
    exact hparts
  unfold insertMessage at h
  dsimp only at h
  split at h
  · rename_i stored hstored
    by_cases hrow : stored = row
    · rw [if_neg (not_not_intro hrow)] at h
      obtain ⟨u, hv, hpath⟩ := Except.bind_eq_ok.mp h
      cases hpath
      exact ⟨rfl, rfl, hvalid hv, Or.inl ⟨rfl, hrow ▸ hstored⟩⟩
    · rw [if_pos hrow] at h
      cases h
  · rename_i hnone
    obtain ⟨db, hdb, hrest⟩ := Except.bind_eq_ok.mp h
    obtain ⟨u, hv, hpath⟩ := Except.bind_eq_ok.mp hrest
    cases hpath
    exact ⟨rfl, rfl, hvalid hv, Or.inr ⟨hnone, hdb⟩⟩

theorem summaries_insertMessagePath {parentId : Option MessageId} {parentDepth : Nat}
    {messages : List MessageRecord} {path : MessagePath}
    (h : insertMessagePath sha256 db parentId parentDepth messages = .ok path) :
    path.db.summaries = db.summaries := by
  refine Except.foldlM_invariant (fun path => path.db.summaries = db.summaries) rfl ?_ h
  intro path message path' hpath hstep
  obtain ⟨-, -, -, ⟨hsame, -⟩ | ⟨-, hparts⟩⟩ := insertMessage_ok hstep
  · rw [hsame, hpath]
  · refine (Except.foldlM_invariant (fun db' => db'.summaries = path.db.summaries) rfl ?_
      hparts).trans hpath
    intro db₁ part db₂ h₁ hpart
    rw [summaries_insertPart hpart, h₁]

/-! ## Records -/

/-- **What a call that records something does.** -/
theorem recordTree_ok (h : db.recordTree r sha256 = .ok db') (hr : r.isEmpty = false) :
    ∃ input output messageId db₁,
      insertMessagePath sha256 db none 0 r.requestMessages = .ok input ∧
      insertMessagePath sha256 input.db input.ids.getLast? input.ids.length r.responseMessages =
        .ok output ∧
      (output.ids.getLast? <|> input.ids.getLast?) = some messageId ∧
      ((output.db.upsertSession r).upsertThread r).upsertNode r input output messageId = .ok db₁ ∧
      db' = (db₁.upsertHead r).upsertRelation r := by
  unfold SessionsDb.recordTree at h
  rw [if_neg (by simp [hr])] at h
  obtain ⟨input, hinput, h⟩ := Except.bind_eq_ok.mp h
  obtain ⟨output, houtput, h⟩ := Except.bind_eq_ok.mp h
  split at h
  · cases h
  · rename_i messageId hid
    obtain ⟨db₁, hnode, h⟩ := Except.bind_eq_ok.mp h
    cases h
    exact ⟨input, output, messageId, db₁, hinput, houtput, hid, hnode, rfl⟩

/-- A call that has nothing to record. -/
theorem recordTree_empty (h : db.recordTree r sha256 = .ok db') (hr : r.isEmpty = true) :
    db' = db := by
  unfold SessionsDb.recordTree at h
  rw [if_pos hr] at h
  cases h
  rfl

/-- The node of a request that is written, and nothing else. -/
theorem upsertNode_frame {input output : MessagePath} {messageId : MessageId}
    (h : db.upsertNode r input output messageId = .ok db') :
    db'.sessions = db.sessions ∧ db'.sessionHeads = db.sessionHeads ∧
      db'.messageTree = db.messageTree ∧ db'.messageParts = db.messageParts ∧
      db'.partBlobs = db.partBlobs := by
  unfold SessionsDb.upsertNode at h
  dsimp only at h
  split_ifs at h <;> (cases h; exact ⟨rfl, rfl, rfl, rfl, rfl⟩)

theorem upsertRelation_frame (db : SessionsDb) (r : TreeRequestRecord) :
    (db.upsertRelation r).sessions = db.sessions ∧
      (db.upsertRelation r).sessionHeads = db.sessionHeads ∧
      (db.upsertRelation r).sessionNodes = db.sessionNodes ∧
      (db.upsertRelation r).messageTree = db.messageTree ∧
      (db.upsertRelation r).messageParts = db.messageParts ∧
      (db.upsertRelation r).partBlobs = db.partBlobs := by
  unfold SessionsDb.upsertRelation
  split <;> exact ⟨rfl, rfl, rfl, rfl, rfl, rfl⟩

/-! ## Two requests -/

/-- The function of a table of digests. -/
def sha256Of (digests : List (Bytes × MessageId)) (bytes : Bytes) : MessageId :=
  ((digests.find? fun digest => digest.1 = bytes).map Prod.snd).getD (Vector.replicate 32 0)

/-- A message without parts. -/
def bareMessage : MessageRecord where
  role := "user"
  status := none
  parts := []

/-- SHA-256 of what is hashed for that message. -/
def bareSha256 (bytes : Bytes) : MessageId :=
  if bytes = messageBytes bareMessage then
    #v[0xAE, 0x35, 0xCC, 0x2C, 0xA1, 0x71, 0xD9, 0x46, 0xAF, 0x06, 0x65,
    0x78, 0x3F, 0x9E, 0xD0, 0xA8, 0xC8, 0xEB, 0x03, 0x47, 0x41, 0xFE, 0x5C, 0xD0,
    0x27, 0x8D, 0x82, 0x2B, 0x9A, 0x58, 0x1A, 0x86]
  else
    #v[0x9D, 0x11, 0x49, 0xE8, 0x20, 0xE4, 0xB7, 0x78, 0x15, 0xC7, 0x43,
    0x8F, 0x58, 0x1D, 0x2B, 0x96, 0xAB, 0xF4, 0x08, 0xC9, 0xED, 0x6D, 0xE5, 0x11,
    0xEC, 0x63, 0xF3, 0x9E, 0x15, 0xC0, 0x7D, 0x1E]

/-- A request of one session with that message. -/
def bareRecord (requestId : String) (ts : Int) : TreeRequestRecord where
  ts := ts
  sessionId := "session"
  threadId := none
  parentThreadId := none
  parentSessionId := none
  requestId := requestId
  endpoint := "responses"
  status := some 200
  accountId := none
  providerId := none
  model := none
  requestMessages := [bareMessage]
  responseMessages := []

/-- Two requests, in the order in which they were made and in the other one. -/
def inOrder : List TreeRequestRecord := [bareRecord "early" 100, bareRecord "late" 200]

def outOfOrder : List TreeRequestRecord := [bareRecord "late" 200, bareRecord "early" 100]

theorem exists_recordAll_inOrder : ∃ db, recordAll bareSha256 inOrder = .ok db :=
  Except.exists_eq_ok (by decide +kernel)

theorem exists_recordAll_outOfOrder : ∃ db, recordAll bareSha256 outOfOrder = .ok db :=
  Except.exists_eq_ok (by decide +kernel)

end Tokn.Persistence
