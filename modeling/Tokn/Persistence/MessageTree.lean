import Tokn.Persistence.PartHashes
import Tokn.Persistence.SessionWrites

/-!
# The message tree

A message is stored once for each prefix of messages before it, under an id that hashes the
prefix. Rows of the tree are never rewritten, so whatever was recorded can be read back.

**Theorem (`materialize_run`).** After any successful calls, the messages of a request that was
recorded are read back as they were last written, every row sits at the end of its path to the
root, two requests share a row exactly where they share the prefix up to it, and a further call
changes nothing of what another request reads back.
-/

namespace Tokn.Persistence

variable (sha256 : Bytes → MessageId)

/-! ## Reading back -/

namespace SessionsDb

def selectTreeMessageParts (db : SessionsDb) (messageId : MessageId) : List PartRecord :=
  (db.storedParts messageId).filterMap fun row => row.2.2

def messageOf (db : SessionsDb) (messageId : MessageId) (row : MessageRow) : MessageRecord where
  role := row.role
  status := row.status
  parts := db.selectTreeMessageParts messageId

/-- The loop of `select_message_path`, from a message up to the root: the messages with their
depths, the root first. -/
def selectAncestors (db : SessionsDb) :
    Nat → Option MessageId → Except Error (List (Nat × MessageRecord))
  | _, none => .ok []
  | 0, some messageId => .error (.invalidMessageTree (encodeMessageId messageId))
  | fuel + 1, some messageId =>
    match db.messageTree.get messageId with
    | none => .error (.invalidMessageTree (encodeMessageId messageId))
    | some row =>
      let message := db.messageOf messageId row
      if row.depth = 0 ∨ hashMessage sha256 message ≠ row.messageHash ∨
          hashPrefix sha256 row.parentId row.messageHash ≠ messageId then
        .error (.invalidMessageTree (encodeMessageId messageId))
      else do
        let ancestors ← db.selectAncestors fuel row.parentId
        return ancestors ++ [(row.depth, message)]

def selectMessagePath (db : SessionsDb) (fuel : Nat) (tipId : MessageId) :
    Except Error (List MessageRecord) := do
  let path ← db.selectAncestors sha256 fuel (some tipId)
  if path.map Prod.fst = (List.range path.length).map (· + 1) then return path.map Prod.snd
  else throw (.invalidMessageTree (encodeMessageId tipId))

def materializeMessageTreeNode (db : SessionsDb) (fuel : Nat) (nodeId : String) :
    Except Error (List MessageRecord × List MessageRecord) :=
  match db.sessionNodes.get nodeId with
  | none => .error .sqlite
  | some node => do
    let path ← db.selectMessagePath sha256 fuel node.messageId
    if path.length ≠ node.inputMessageCount + node.outputMessageCount then
      throw (.invalidMessageTree (encodeMessageId node.messageId))
    return path.splitAt node.inputMessageCount

/-- The rows from the root to a message. -/
def treePath (db : SessionsDb) : Nat → Option MessageId → List MessageId
  | _, none => []
  | 0, some _ => []
  | fuel + 1, some messageId =>
    treePath db fuel ((db.messageTree.get messageId).bind (·.parentId)) ++ [messageId]

end SessionsDb

/-! ## Stored paths -/

/-- The parts of a message as they are stored. -/
def expectedParts (message : MessageRecord) : List (Nat × String × Option PartRecord) :=
  message.parts.zipIdx.map fun p => (p.2, hashPart sha256 p.1, some p.1)

/-- The id of the last message of a path. -/
def pathId (path : List MessageRecord) : Option MessageId :=
  path.foldl (fun parentId message => some (hashPrefix sha256 parentId (hashMessage sha256 message)))
    none

/-- A path of messages is stored under the id of its last message. -/
inductive Stored (db : SessionsDb) : Option MessageId → List MessageRecord → Prop where
  | root : Stored db none []
  | child {parentId : Option MessageId} {path : List MessageRecord} {message : MessageRecord} :
    Stored db parentId path →
    db.messageTree.get (hashPrefix sha256 parentId (hashMessage sha256 message)) =
      some (messageRow sha256 parentId (path.length + 1) message) →
    db.storedParts (hashPrefix sha256 parentId (hashMessage sha256 message)) =
      expectedParts sha256 message →
    Stored db (some (hashPrefix sha256 parentId (hashMessage sha256 message))) (path ++ [message])

variable {sha256} {db db' : SessionsDb} {r : TreeRequestRecord}

theorem filterMap_expectedParts (message : MessageRecord) :
    (expectedParts sha256 message).filterMap (fun row => row.2.2) = message.parts := by
  rw [expectedParts, List.filterMap_map]
  have hsome : ((fun row : Nat × String × Option PartRecord => row.2.2) ∘
      fun p : PartRecord × Nat => (p.2, hashPart sha256 p.1, some p.1)) = some ∘ Prod.fst := rfl
  rw [hsome, List.filterMap_eq_map, List.zipIdx_map_fst]

variable {path : List MessageRecord} {tip : Option MessageId} {fuel : Nat} {messageId : MessageId}
  {records : List TreeRequestRecord}

theorem Stored.pathId_eq (h : Stored sha256 db tip path) : pathId sha256 path = tip := by
  induction h with
  | root => rfl
  | child _ _ _ ih => rw [pathId, List.foldl_concat, ← pathId, ih]

/-- **A row determines its path.** -/
theorem Stored.unique {path' : List MessageRecord} (h : Stored sha256 db tip path)
    (h' : Stored sha256 db tip path') : path = path' := by
  induction h generalizing path' with
  | root =>
    cases h'
    rfl
  | @child parentId path message hpath hrow hparts ih =>
    generalize htip : some (hashPrefix sha256 parentId (hashMessage sha256 message)) = tip at h'
    cases h' with
    | root => cases htip
    | @child parentId' path' message' hpath' hrow' hparts' =>
      obtain hid := Option.some.inj htip
      rw [← hid] at hrow' hparts'
      have hrows := Option.some.inj (hrow.symm.trans hrow')
      have hparent : parentId = parentId' := congrArg MessageRow.parentId hrows
      have hrole : message.role = message'.role := congrArg MessageRow.role hrows
      have hstatus : message.status = message'.status := congrArg MessageRow.status hrows
      have hsame : message.parts = message'.parts := by
        rw [← @filterMap_expectedParts sha256 message, ← hparts, hparts',
          filterMap_expectedParts]
      have hmessage : message = message' := by
        cases message
        cases message'
        cases hrole
        cases hstatus
        cases hsame
        rfl
      rw [ih (hparent ▸ hpath'), hmessage]

/-- A prefix of a stored path is stored. -/
theorem Stored.take (h : Stored sha256 db tip path) (n : Nat) :
    Stored sha256 db (pathId sha256 (path.take n)) (path.take n) := by
  induction h with
  | root =>
    rw [List.take_nil]
    exact .root
  | @child parentId path message hpath hrow hparts ih =>
    by_cases hn : n ≤ path.length
    · rw [List.take_append_of_le_length hn]
      exact ih
    · rw [List.take_of_length_le (by rw [List.length_append, List.length_singleton]; omega)]
      have hchild := Stored.child hpath hrow hparts
      rw [hchild.pathId_eq]
      exact hchild

/-! ## Reading a stored path -/

theorem Stored.selectAncestors (h : Stored sha256 db tip path) (hfuel : path.length ≤ fuel) :
    db.selectAncestors sha256 fuel tip =
      .ok (path.zipIdx.map fun p => (p.2 + 1, p.1)) := by
  induction h generalizing fuel with
  | root => cases fuel <;> rfl
  | @child parentId path message hpath hrow hparts ih =>
    rw [List.length_append, List.length_singleton] at hfuel
    obtain ⟨fuel, rfl⟩ : ∃ n, fuel = n + 1 := ⟨fuel - 1, by omega⟩
    have hmessage : db.messageOf (hashPrefix sha256 parentId (hashMessage sha256 message))
        (messageRow sha256 parentId (path.length + 1) message) = message := by
      rw [SessionsDb.messageOf, SessionsDb.selectTreeMessageParts, hparts, filterMap_expectedParts]
      rfl
    rw [SessionsDb.selectAncestors, hrow]
    dsimp only
    rw [hmessage, if_neg (by simp [messageRow])]
    have hrest := @ih fuel (by omega)
    rw [show (messageRow sha256 parentId (path.length + 1) message).parentId = parentId from rfl,
      hrest, List.zipIdx_append, List.map_append]
    simp [messageRow, pure, Except.pure, bind, Except.bind]

theorem Stored.selectMessagePath {tipId : MessageId} (h : Stored sha256 db (some tipId) path)
    (hfuel : path.length ≤ fuel) : db.selectMessagePath sha256 fuel tipId = .ok path := by
  have hdepths : (path.zipIdx.map fun p => (p.2 + 1, p.1)).map Prod.fst =
      (List.range path.length).map (· + 1) := by
    rw [List.map_map, List.range_eq_range', ← List.zipIdx_map_snd 0 path, List.map_map]
    rfl
  have hmessages : (path.zipIdx.map fun p => (p.2 + 1, p.1)).map Prod.snd = path := by
    rw [List.map_map]
    exact List.zipIdx_map_fst 0 path
  rw [SessionsDb.selectMessagePath, h.selectAncestors hfuel]
  show (if _ then _ else _) = _
  rw [List.length_map, List.length_zipIdx, if_pos hdepths, hmessages]
  rfl

theorem Stored.treePath (h : Stored sha256 db tip path) (hfuel : path.length ≤ fuel) :
    (db.treePath fuel tip).map some =
      (List.range path.length).map fun i => pathId sha256 (path.take (i + 1)) := by
  induction h generalizing fuel with
  | root => cases fuel <;> rfl
  | @child parentId path message hpath hrow hparts ih =>
    rw [List.length_append, List.length_singleton] at hfuel
    obtain ⟨fuel, rfl⟩ : ∃ n, fuel = n + 1 := ⟨fuel - 1, by omega⟩
    have hchild := Stored.child hpath hrow hparts
    rw [SessionsDb.treePath, hrow, List.map_append, List.length_append, List.length_singleton,
      List.range_succ, List.map_append]
    congr 1
    · rw [show (some (messageRow sha256 parentId (path.length + 1) message)).bind
        (fun row => row.parentId) = parentId from rfl, ih (by omega)]
      refine List.map_congr_left fun i hi => ?_
      rw [List.mem_range] at hi
      rw [List.take_append_of_le_length (by omega)]
    · rw [List.map_singleton, List.map_singleton, List.take_of_length_le (by simp),
        hchild.pathId_eq]

/-! ## What is stored stays -/

/-- Nothing that is stored in the tree of one database is different in another. -/
structure SessionsDb.Extends (db db' : SessionsDb) : Prop where
  rows : ∀ id row, db.messageTree.get id = some row → db'.messageTree.get id = some row
  parts : ∀ id row, db.messageTree.get id = some row →
    (db'.messageParts.filter fun e => e.1.1 = id) = db.messageParts.filter fun e => e.1.1 = id
  blobs : ∀ hash part, db.partBlobs.get hash = some part → db'.partBlobs.get hash = some part

theorem SessionsDb.Extends.refl (db : SessionsDb) : db.Extends db :=
  ⟨fun _ _ h => h, fun _ _ _ => rfl, fun _ _ h => h⟩

theorem SessionsDb.Extends.trans {db₁ db₂ db₃ : SessionsDb} (h : db₁.Extends db₂)
    (h' : db₂.Extends db₃) : db₁.Extends db₃ where
  rows id row hrow := h'.rows id row (h.rows id row hrow)
  parts id row hrow := (h'.parts id row (h.rows id row hrow)).trans (h.parts id row hrow)
  blobs hash part hpart := h'.blobs hash part (h.blobs hash part hpart)

/-- The same tree. -/
theorem SessionsDb.Extends.of_eq (htree : db'.messageTree = db.messageTree)
    (hparts : db'.messageParts = db.messageParts) (hblobs : db'.partBlobs = db.partBlobs) :
    db.Extends db' where
  rows _ _ h := htree ▸ h
  parts _ _ _ := by rw [hparts]
  blobs _ _ h := hblobs ▸ h

theorem storedParts_of_extends (h : db.Extends db') {id : MessageId} {row : MessageRow}
    (hrow : db.messageTree.get id = some row) {message : MessageRecord}
    (hparts : db.storedParts id = expectedParts sha256 message) :
    db'.storedParts id = expectedParts sha256 message := by
  rw [← hparts, SessionsDb.storedParts, SessionsDb.storedParts, h.parts id row hrow]
  refine List.map_congr_left fun e he => ?_
  have hmem : (e.1.2, e.2, db.partBlobs.get e.2) ∈ expectedParts sha256 message := by
    rw [← hparts]
    exact List.mem_map.mpr ⟨e, he, rfl⟩
  obtain ⟨p, -, hp⟩ := List.mem_map.mp hmem
  have hblob : db.partBlobs.get e.2 = some p.1 := (congrArg (fun t => t.2.2) hp).symm
  rw [hblob, h.blobs _ _ hblob]

theorem Stored.of_extends (hext : db.Extends db') (h : Stored sha256 db tip path) :
    Stored sha256 db' tip path := by
  induction h with
  | root => exact .root
  | child _ hrow hparts ih =>
    exact .child ih (hext.rows _ _ hrow) (storedParts_of_extends hext hrow hparts)

/-! ## Inserting -/

/-- Between two databases only parts of one message are written. -/
structure WritesParts (messageId : MessageId) (db db' : SessionsDb) : Prop where
  tree : db'.messageTree = db.messageTree
  others : ∀ id, id ≠ messageId → (db'.messageParts.filter fun e => e.1.1 = id) =
    db.messageParts.filter fun e => e.1.1 = id
  blobs : ∀ hash part, db.partBlobs.get hash = some part → db'.partBlobs.get hash = some part

theorem WritesParts.trans {db₁ db₂ db₃ : SessionsDb} (h : WritesParts messageId db₁ db₂)
    (h' : WritesParts messageId db₂ db₃) :
    WritesParts messageId db₁ db₃ where
  tree := h'.tree.trans h.tree
  others id hid := (h'.others id hid).trans (h.others id hid)
  blobs hash part hget := h'.blobs hash part (h.blobs hash part hget)

theorem insertPart_writes {part : PartRecord × Nat}
    (h : db.insertPart sha256 messageId part = .ok db') : WritesParts messageId db db' := by
  obtain ⟨mid, hblob, hpart⟩ := Except.bind_eq_ok.mp h
  have hmid : mid.messageTree = db.messageTree ∧ mid.messageParts = db.messageParts ∧
      ∀ hash blob, db.partBlobs.get hash = some blob → mid.partBlobs.get hash = some blob := by
    unfold SessionsDb.insertOrValidatePartBlob at hblob
    split at hblob
    · rename_i hnone
      cases hblob
      refine ⟨rfl, rfl, fun hash blob hget => ?_⟩
      have hne : hash ≠ hashPart sha256 part.1 := by
        rintro rfl
        rw [hnone] at hget
        cases hget
      dsimp only
      rw [Table.get_insertOrIgnore, if_neg hne, hget]
    · split_ifs at hblob
      cases hblob
      exact ⟨rfl, rfl, fun _ _ hget => hget⟩
  obtain ⟨htree, hparts, hblobs⟩ := hmid
  unfold SessionsDb.insertOrValidateMessagePart at hpart
  split at hpart
  · cases hpart
    refine ⟨htree, fun id hid => ?_, hblobs⟩
    dsimp only
    rw [← hparts, Table.insertOrIgnore]
    split_ifs
    · rfl
    · rw [List.filter_append]
      simp [Ne.symm hid]
  · split_ifs at hpart
    cases hpart
    exact ⟨htree, fun _ _ => by rw [hparts], hblobs⟩

/-- The paths of all rows are stored. -/
def AllStored (sha256 : Bytes → MessageId) (db : SessionsDb) : Prop :=
  ∀ id row, db.messageTree.get id = some row → ∃ path, Stored sha256 db (some id) path

/-- **One message.** Its row is found or written at the end of the path before it. -/
theorem insertMessage_stored {parentDepth : Nat} {path path' : MessagePath}
    {message : MessageRecord} (h : insertMessage sha256 parentDepth path message = .ok path')
    (hall : AllStored sha256 path.db) {messages : List MessageRecord}
    (hpath : Stored sha256 path.db path.parentId messages)
    (hdepth : parentDepth + path.ids.length = messages.length) :
    path.db.Extends path'.db ∧ AllStored sha256 path'.db ∧
      Stored sha256 path'.db path'.parentId (messages ++ [message]) := by
  obtain ⟨hparent, hids, hparts, hcase⟩ := insertMessage_ok h
  rw [hdepth] at hcase
  rw [hparent]
  rcases hcase with ⟨hsame, hrow⟩ | ⟨hnone, hnew⟩
  · rw [hsame] at hparts ⊢
    exact ⟨.refl _, hall, .child hpath hrow hparts⟩
  · obtain ⟨htree, hfilter, hblobs⟩ := Except.foldlM_invariant
      (WritesParts (hashPrefix sha256 path.parentId (hashMessage sha256 message)) _)
      ⟨rfl, fun _ _ => rfl, fun _ _ hget => hget⟩
      (fun _ _ _ hwrites hstep => hwrites.trans (insertPart_writes hstep)) hnew
    have hne {id : MessageId} {row : MessageRow} (hget : path.db.messageTree.get id = some row) :
        id ≠ hashPrefix sha256 path.parentId (hashMessage sha256 message) := by
      rintro rfl
      rw [hnone] at hget
      cases hget
    have hext : path.db.Extends path'.db := by
      refine ⟨fun id row hget => ?_, fun id row hget => hfilter id (hne hget), hblobs⟩
      rw [htree, Table.get_insertOrIgnore, if_neg (hne hget), hget]
    have hstored := Stored.child (hpath.of_extends hext) (by
      rw [htree, Table.get_insertOrIgnore, if_pos rfl, hnone]
      rfl) hparts
    refine ⟨hext, fun id row hget => ?_, hstored⟩
    rw [htree, Table.get_insertOrIgnore] at hget
    split_ifs at hget with hid
    · rw [hid]
      exact ⟨_, hstored⟩
    · obtain ⟨path₀, hpath₀⟩ := hall id row hget
      exact ⟨path₀, hpath₀.of_extends hext⟩

/-- **A path of messages.** -/
theorem insertMessagePath_stored {parentId : Option MessageId} {before messages : List MessageRecord}
    {path : MessagePath}
    (h : insertMessagePath sha256 db parentId before.length messages = .ok path)
    (hall : AllStored sha256 db) (hbefore : Stored sha256 db parentId before) :
    db.Extends path.db ∧ AllStored sha256 path.db ∧
      Stored sha256 path.db path.parentId (before ++ messages) ∧
      path.ids.length = messages.length ∧
      path.parentId = (path.ids.getLast? <|> parentId) := by
  refine Except.foldlM_induction (fun messages path => db.Extends path.db ∧
    AllStored sha256 path.db ∧ Stored sha256 path.db path.parentId (before ++ messages) ∧
    path.ids.length = messages.length ∧ path.parentId = (path.ids.getLast? <|> parentId)) ?_ ?_ h
  · exact ⟨.refl db, hall, by simpa using hbefore, rfl, rfl⟩
  · rintro messages message path path' - ⟨hext, hall, hstored, hlength, -⟩ hstep
    obtain ⟨hext', hall', hstored'⟩ := insertMessage_stored hstep hall hstored (by simp [hlength])
    obtain ⟨hparent, hids, -⟩ := insertMessage_ok hstep
    refine ⟨hext.trans hext', hall', by rwa [List.append_assoc] at hstored', ?_, ?_⟩
    · rw [hids, List.length_append, hlength, List.length_append]
      rfl
    · rw [hids, List.getLast?_concat, hparent]
      rfl

/-! ## Nodes -/

/-- Each node has the id of its request. -/
structure NodesKeyed (db : SessionsDb) : Prop where
  nodup : (db.sessionNodes.map Prod.fst).Nodup
  key : ∀ e ∈ db.sessionNodes, e.2.requestId = e.1

/-- What the upsert of a node does. -/
theorem upsertNode_get {input output : MessagePath}
    (h : db.upsertNode r input output messageId = .ok db') (hkeyed : NodesKeyed db) :
    NodesKeyed db' ∧ (∀ id, id ≠ r.requestId → db'.sessionNodes.get id = db.sessionNodes.get id) ∧
      ∃ row, db'.sessionNodes.get r.requestId = some row ∧ row.messageId = messageId ∧
        row.inputMessageCount = input.ids.length ∧ row.outputMessageCount = output.ids.length := by
  unfold SessionsDb.upsertNode at h
  dsimp only at h
  split_ifs at h with hexists hcontains
  · cases h
    obtain ⟨e, he, hconflicts⟩ := List.any_eq_true.mp hexists
    have hrequest : e.2.requestId = r.requestId := by
      simp only [Bool.and_eq_true, decide_eq_true_eq] at hconflicts
      exact hconflicts.2
    have hget : db.sessionNodes.get r.requestId = some e.2 := by
      rw [BTreeMap.get_eq_some_iff hkeyed.nodup, ← hrequest, hkeyed.key e he]
      exact he
    refine ⟨⟨?_, fun e' he' => ?_⟩, fun id hid => ?_, ?_⟩
    · rw [Table.map_fst_updateWhere]
      exact hkeyed.nodup
    · dsimp only at he'
      obtain ⟨row, hmem, hsame | ⟨-, hnew⟩⟩ := Table.mem_updateWhere he'
      · rw [hsame]
        exact hkeyed.key _ hmem
      · rw [hnew]
        exact hkeyed.key _ hmem
    · dsimp only
      rw [Table.get_updateWhere]
      cases hid' : db.sessionNodes.get id with
      | none => rfl
      | some row =>
        have hkey : row.requestId = id := hkeyed.key _ (BTreeMap.mem_of_get hid')
        rw [Option.map_some, if_neg]
        simp only [Bool.and_eq_true, decide_eq_true_eq, not_and]
        exact fun _ hr => hid (hkey.symm.trans hr)
    · dsimp only
      rw [Table.get_updateWhere, hget, Option.map_some, if_pos hconflicts]
      exact ⟨_, rfl, rfl, rfl, rfl⟩
  · cases h
    have hnone : db.sessionNodes.get r.requestId = none := by
      simpa [BTreeMap.contains] using hcontains
    refine ⟨⟨?_, fun e' he' => ?_⟩, fun id hid => ?_, ?_⟩
    · rw [List.map_append, List.nodup_append]
      refine ⟨hkeyed.nodup, by simp, fun a ha b hb => ?_⟩
      obtain rfl : b = r.requestId := List.mem_singleton.mp hb
      exact fun hab => BTreeMap.get_eq_none_iff.mp hnone (hab ▸ ha)
    · rcases List.mem_append.mp he' with hmem | hmem
      · exact hkeyed.key _ hmem
      · rw [List.mem_singleton.mp hmem]
    · dsimp only
      rw [BTreeMap.get_append, BTreeMap.get_cons, if_neg hid, BTreeMap.get_nil, Option.or_none]
    · dsimp only
      rw [BTreeMap.get_append, hnone, BTreeMap.get_cons, if_pos rfl]
      exact ⟨_, rfl, rfl, rfl, rfl⟩

/-! ## Runs -/

/-- The record last written for a request. -/
def lastWritten (records : List TreeRequestRecord) (requestId : String) :
    Option TreeRequestRecord :=
  (records.filter fun r => r.requestId = requestId ∧ r.isEmpty = false).getLast?

def TreeRequestRecord.messages (r : TreeRequestRecord) : List MessageRecord :=
  r.requestMessages ++ r.responseMessages

theorem lastWritten_concat (records : List TreeRequestRecord) (r : TreeRequestRecord)
    (requestId : String) :
    lastWritten (records ++ [r]) requestId =
      if r.requestId = requestId ∧ r.isEmpty = false then some r
      else lastWritten records requestId := by
  rw [lastWritten, List.filter_append, lastWritten]
  by_cases h : r.requestId = requestId ∧ r.isEmpty = false <;> simp [h]

/-- A node holds the messages of a record. -/
structure Holds (sha256 : Bytes → MessageId) (db : SessionsDb) (row : NodeRow)
    (r : TreeRequestRecord) : Prop where
  input : row.inputMessageCount = r.requestMessages.length
  output : row.outputMessageCount = r.responseMessages.length
  stored : Stored sha256 db (some row.messageId) r.messages

/-- The invariant of a run. -/
structure TreeRecorded (sha256 : Bytes → MessageId) (db : SessionsDb)
    (records : List TreeRequestRecord) : Prop where
  all : AllStored sha256 db
  keyed : NodesKeyed db
  written : ∀ id r, lastWritten records id = some r →
    ∃ row, db.sessionNodes.get id = some row ∧ Holds sha256 db row r

/-- **One call.** -/
theorem TreeRecorded.step (h : TreeRecorded sha256 db records)
    (hcall : db.recordTree r sha256 = .ok db') : TreeRecorded sha256 db' (records ++ [r]) := by
  cases hr : r.isEmpty with
  | true =>
    rw [recordTree_empty hcall hr]
    refine ⟨h.all, h.keyed, fun id r' hr' => ?_⟩
    rw [lastWritten_concat, if_neg (by simp [hr])] at hr'
    exact h.written id r' hr'
  | false =>
    obtain ⟨input, output, messageId, db₁, hinput, houtput, hid, hnode, rfl⟩ := recordTree_ok hcall hr
    obtain ⟨hext, hall, hstored, hlength, htip⟩ := insertMessagePath_stored hinput h.all .root
    have hinputTip : input.parentId = input.ids.getLast? :=
      htip.trans (by cases input.ids.getLast? <;> rfl)
    rw [hinputTip] at hstored
    rw [hlength] at houtput
    obtain ⟨hext', hall', hstored', hlength', htip'⟩ :=
      insertMessagePath_stored houtput hall hstored
    rw [htip', hid] at hstored'
    have hnodes : ((output.db.upsertSession r).upsertThread r).sessionNodes = db.sessionNodes :=
      congrArg (fun t => t.2.2.1)
        ((summaries_insertMessagePath houtput).trans (summaries_insertMessagePath hinput))
    have hkeyed : NodesKeyed ((output.db.upsertSession r).upsertThread r) :=
      ⟨by rw [hnodes]; exact h.keyed.nodup, by rw [hnodes]; exact h.keyed.key⟩
    obtain ⟨hkeyed', hothers, row, hrow, hrowId, hrowInput, hrowOutput⟩ := upsertNode_get hnode hkeyed
    obtain ⟨-, -, htree, hparts, hblobs⟩ := upsertNode_frame hnode
    obtain ⟨-, -, hnodes', htree', hparts', hblobs'⟩ := upsertRelation_frame (db₁.upsertHead r) r
    have hfinal : output.db.Extends ((db₁.upsertHead r).upsertRelation r) :=
      .of_eq (htree'.trans htree) (hparts'.trans hparts) (hblobs'.trans hblobs)
    refine ⟨fun id row hget => ?_, ⟨?_, ?_⟩, fun id r' hr' => ?_⟩
    · rw [htree'.trans htree] at hget
      obtain ⟨path, hpath⟩ := hall' id row hget
      exact ⟨path, hpath.of_extends hfinal⟩
    · rw [hnodes']
      exact hkeyed'.nodup
    · rw [hnodes']
      exact hkeyed'.key
    · rw [lastWritten_concat] at hr'
      rw [hnodes']
      split_ifs at hr' with hsame
      · obtain rfl := Option.some.inj hr'
        rw [← hsame.1]
        exact ⟨row, hrow, hrowInput.trans hlength, hrowOutput.trans hlength',
          hrowId ▸ hstored'.of_extends hfinal⟩
      · obtain ⟨old, hold, hholds⟩ := h.written id r' hr'
        have hne : id ≠ r.requestId := fun he => hsame ⟨he.symm, hr⟩
        refine ⟨old, ?_, hholds.input, hholds.output, ?_⟩
        · show db₁.sessionNodes.get id = _
          rw [hothers id hne, hnodes, hold]
        · exact hholds.stored.of_extends ((hext.trans hext').trans hfinal)

theorem treeRecorded_run (hrun : recordAll sha256 records = .ok db) :
    TreeRecorded sha256 db records := by
  have hinit : TreeRecorded sha256 {} [] :=
    ⟨fun _ _ h => (by cases h), ⟨by simp, fun _ h => (by cases h)⟩, fun _ _ h => (by cases h)⟩
  exact Except.foldlM_induction (fun records db => TreeRecorded sha256 db records) hinit
    (fun _ _ _ _ _ h hcall => h.step hcall) hrun

/-- Which nodes there are after one call. -/
theorem recordTree_get (hcall : db.recordTree r sha256 = .ok db') (hkeyed : NodesKeyed db)
    (id : String) :
    (db'.sessionNodes.get id).isSome =
      ((db.sessionNodes.get id).isSome || (r.requestId = id && !r.isEmpty)) := by
  cases hr : r.isEmpty with
  | true => rw [recordTree_empty hcall hr, Bool.not_true, Bool.and_false, Bool.or_false]
  | false =>
    obtain ⟨input, output, messageId, db₁, hinput, houtput, -, hnode, rfl⟩ := recordTree_ok hcall hr
    have hnodes : ((output.db.upsertSession r).upsertThread r).sessionNodes = db.sessionNodes :=
      congrArg (fun t => t.2.2.1)
        ((summaries_insertMessagePath houtput).trans (summaries_insertMessagePath hinput))
    have hkeyed' : NodesKeyed ((output.db.upsertSession r).upsertThread r) :=
      ⟨by rw [hnodes]; exact hkeyed.nodup, by rw [hnodes]; exact hkeyed.key⟩
    obtain ⟨-, hothers, row, hrow, -⟩ := upsertNode_get hnode hkeyed'
    obtain ⟨-, -, hnodes', -⟩ := upsertRelation_frame (db₁.upsertHead r) r
    rw [hnodes', Bool.not_false, Bool.and_true]
    show (db₁.sessionNodes.get id).isSome = _
    by_cases hid : r.requestId = id
    · rw [← hid, hrow, decide_eq_true rfl, Bool.or_true]
      rfl
    · rw [hothers id (Ne.symm hid), hnodes, decide_eq_false hid, Bool.or_false]

/-- There is a node for each request that was written. -/
theorem node_iff_lastWritten (hrun : recordAll sha256 records = .ok db) (id : String) :
    (db.sessionNodes.get id).isSome = (lastWritten records id).isSome := by
  refine Except.foldlM_induction (fun records db =>
    (db.sessionNodes.get id).isSome = (lastWritten records id).isSome) rfl ?_ hrun
  intro records r db db' hrun hdb hcall
  rw [recordTree_get hcall (treeRecorded_run hrun).keyed, hdb, lastWritten_concat]
  by_cases hid : r.requestId = id ∧ r.isEmpty = false
  · rw [if_pos hid, hid.2]
    simp [hid.1]
  · rw [if_neg hid]
    have hfalse : (decide (r.requestId = id) && !r.isEmpty) = false := by
      simpa using hid
    rw [hfalse, Bool.or_false]

/-- A node that holds a record is read back as it was written. -/
theorem Holds.materialize {id : String} {row : NodeRow} {r : TreeRequestRecord}
    (h : Holds sha256 db row r) (hrow : db.sessionNodes.get id = some row)
    (hfuel : r.messages.length ≤ fuel) :
    db.materializeMessageTreeNode sha256 fuel id = .ok (r.requestMessages, r.responseMessages) := by
  have hlength : r.messages.length = row.inputMessageCount + row.outputMessageCount := by
    rw [h.input, h.output, TreeRequestRecord.messages, List.length_append]
  have hsplit : r.messages.splitAt row.inputMessageCount =
      (r.requestMessages, r.responseMessages) := by
    rw [List.splitAt_eq, h.input, TreeRequestRecord.messages, List.take_left, List.drop_left]
  rw [SessionsDb.materializeMessageTreeNode, hrow]
  dsimp only
  rw [h.stored.selectMessagePath hfuel]
  show (if _ then _ else _) = _
  rw [if_neg (not_not_intro hlength), ← hsplit]
  rfl

/-- Two records share a row where they share the messages up to it. -/
theorem Holds.shares {row row' : NodeRow} {r r' : TreeRequestRecord} (h : Holds sha256 db row r)
    (h' : Holds sha256 db row' r') {fuel' : Nat} (hfuel : r.messages.length ≤ fuel)
    (hfuel' : r'.messages.length ≤ fuel') {i j : Nat} (hi : i < r.messages.length)
    (hj : j < r'.messages.length) :
    (db.treePath fuel (some row.messageId))[i]? = (db.treePath fuel' (some row'.messageId))[j]? ↔
      r.messages.take (i + 1) = r'.messages.take (j + 1) := by
  have hat {row : NodeRow} {r : TreeRequestRecord} (h : Holds sha256 db row r) {fuel i : Nat}
      (hfuel : r.messages.length ≤ fuel) (hi : i < r.messages.length) :
      (db.treePath fuel (some row.messageId))[i]?.map some =
        some (pathId sha256 (r.messages.take (i + 1))) := by
    rw [← List.getElem?_map, h.stored.treePath hfuel, List.getElem?_map, List.getElem?_range hi]
    rfl
  rw [← (Option.map_injective (Option.some_injective MessageId)).eq_iff, hat h hfuel hi,
    hat h' hfuel' hj, Option.some.injEq]
  constructor
  · intro heq
    have htake := h.stored.take (i + 1)
    rw [heq] at htake
    exact htake.unique (h'.stored.take (j + 1))
  · intro heq
    rw [heq]

/-- **The message tree is faithful.** -/
theorem materialize_run {records : List TreeRequestRecord}
    (hrun : recordAll sha256 records = .ok db) :
    (∀ id r, lastWritten records id = some r → ∀ fuel, r.messages.length ≤ fuel →
      db.materializeMessageTreeNode sha256 fuel id =
        .ok (r.requestMessages, r.responseMessages)) ∧
    (∀ id row, db.messageTree.get id = some row →
      id = hashPrefix sha256 row.parentId row.messageHash ∧
      ∀ fuel, row.depth ≤ fuel → (db.treePath fuel (some id)).length = row.depth) ∧
    (∀ id r id' r', lastWritten records id = some r → lastWritten records id' = some r' →
      ∃ row row', db.sessionNodes.get id = some row ∧ db.sessionNodes.get id' = some row' ∧
        ∀ fuel fuel', r.messages.length ≤ fuel → r'.messages.length ≤ fuel' →
        ∀ i j, i < r.messages.length → j < r'.messages.length →
          ((db.treePath fuel (some row.messageId))[i]? =
              (db.treePath fuel' (some row'.messageId))[j]? ↔
            r.messages.take (i + 1) = r'.messages.take (j + 1))) ∧
    (∀ r db', db.recordTree r sha256 = .ok db' → ∀ id r', lastWritten records id = some r' →
      id ≠ r.requestId → ∀ fuel, r'.messages.length ≤ fuel →
      db'.materializeMessageTreeNode sha256 fuel id =
        db.materializeMessageTreeNode sha256 fuel id) := by
  have h := treeRecorded_run hrun
  refine ⟨fun id r hr fuel hfuel => ?_, fun id row hrow => ?_, fun id r id' r' hr hr' => ?_,
    fun r db' hcall id r' hr' hne fuel hfuel => ?_⟩
  · obtain ⟨row, hrow, hholds⟩ := h.written id r hr
    exact hholds.materialize hrow hfuel
  · obtain ⟨path, hpath⟩ := h.all id row hrow
    cases hpath with
    | @child parentId path message hparent hrow' hparts =>
      obtain rfl := Option.some.inj (hrow.symm.trans hrow')
      have hchild := Stored.child hparent hrow' hparts
      refine ⟨rfl, fun fuel hfuel => ?_⟩
      have hdepth : path.length + 1 ≤ fuel := hfuel
      have hlength := congrArg List.length (hchild.treePath (by simpa using hdepth))
      rw [List.length_map, List.length_map, List.length_range, List.length_append] at hlength
      exact hlength
  · obtain ⟨row, hrow, hholds⟩ := h.written id r hr
    obtain ⟨row', hrow', hholds'⟩ := h.written id' r' hr'
    exact ⟨row, row', hrow, hrow', fun fuel fuel' hfuel hfuel' i j hi hj =>
      hholds.shares hholds' hfuel hfuel' hi hj⟩
  · obtain ⟨row, hrow, hholds⟩ := h.written id r' hr'
    have hlast : lastWritten (records ++ [r]) id = some r' := by
      rw [lastWritten_concat, if_neg (fun hc => hne hc.1.symm), hr']
    obtain ⟨row', hrow', hholds'⟩ := (h.step hcall).written id r' hlast
    rw [hholds.materialize hrow hfuel, hholds'.materialize hrow' hfuel]

/-! A question, its answer, and the same again. -/

def question : MessageRecord := Semantic.textMessage "user" "Why?"

def answer : MessageRecord := Semantic.textMessage "assistant" "So."

/-- SHA-256 of what is hashed for the question, and for the answer. -/
def questionHash : MessageId :=
  #v[0x55, 0x33, 0xA9, 0x00, 0xDA, 0xF1, 0xEA, 0x75, 0xCC, 0xFB, 0x52, 0xB5, 0x8B, 0x48, 0xE1, 0x55,
    0x5A, 0x61, 0x35, 0xFB, 0xA5, 0x27, 0x8A, 0x73, 0x0B, 0xA1, 0xE2, 0x63, 0xE1, 0x27, 0x96, 0x43]

def answerHash : MessageId :=
  #v[0x11, 0x01, 0xCA, 0xCD, 0xBF, 0x86, 0x9E, 0x45, 0xDD, 0x2D, 0xD5, 0x29, 0x47, 0xA8, 0xBF, 0x11,
    0xFB, 0x12, 0x83, 0x8F, 0xAB, 0x31, 0x6E, 0x65, 0xF7, 0x7D, 0xA4, 0x38, 0x75, 0x40, 0xF7, 0xCE]

/-- SHA-256 of what is hashed for the path up to each message. -/
def pathHashes : Vector MessageId 4 :=
  #v[#v[0x72, 0xDC, 0x21, 0xAE, 0xE4, 0x90, 0xC7, 0xF6, 0x83, 0x22, 0xAE, 0xB8, 0x71, 0x76, 0x73, 0x90,
      0x0E, 0x37, 0x6A, 0x4B, 0xC1, 0x5F, 0xFE, 0xB9, 0xB3, 0x3D, 0xB3, 0xF3, 0x6A, 0xA0, 0x4F, 0xDA],
    #v[0x64, 0x27, 0xB6, 0x6F, 0x44, 0x21, 0x59, 0x2F, 0xE9, 0x26, 0x39, 0x66, 0x6C, 0xC6, 0xFC, 0xC9,
      0x7C, 0x8E, 0x69, 0xE3, 0x2C, 0x9C, 0x2F, 0xFF, 0x37, 0x88, 0xEB, 0xF0, 0x38, 0x0A, 0xBB, 0xA4],
    #v[0x69, 0xEF, 0x18, 0xB4, 0x79, 0x07, 0xC7, 0x13, 0x62, 0x22, 0x5A, 0xF3, 0xD9, 0x52, 0xAA, 0xBB,
      0xC8, 0x7B, 0x20, 0x46, 0xF0, 0xAE, 0xF0, 0x02, 0xAF, 0xD5, 0x24, 0x05, 0x76, 0xF0, 0x87, 0x30],
    #v[0x04, 0x45, 0x93, 0x4C, 0x3D, 0xE8, 0x8E, 0x31, 0xF2, 0x5F, 0xB1, 0x84, 0xC9, 0xBD, 0xF2, 0x5F,
      0x6A, 0xA3, 0x48, 0x20, 0xC4, 0x29, 0xC5, 0xC1, 0xBC, 0x58, 0x24, 0x79, 0x5E, 0x0C, 0x36, 0xD3]]

/-- SHA-256 of what is hashed for the conversation. -/
def conversationDigests : List (Bytes × MessageId) :=
  [(partBytes (Semantic.textPart "Why?"),
      #v[0x3B, 0x3A, 0x81, 0x41, 0xCF, 0x52, 0xEE, 0x61, 0x48, 0x93, 0xF3, 0x42, 0x55, 0xA9, 0x82, 0x14,
      0x8A, 0x3A, 0xED, 0x6F, 0xAB, 0x65, 0x9A, 0x02, 0x35, 0xCA, 0xD0, 0x7D, 0x4C, 0xB6, 0x04, 0x58]),
    (partBytes (Semantic.textPart "So."),
      #v[0xE2, 0x1D, 0xE5, 0x89, 0x79, 0x85, 0xC5, 0x8D, 0x92, 0x0A, 0xF4, 0x49, 0x9F, 0xCB, 0xB1, 0xBE,
      0xB3, 0x59, 0x92, 0xAA, 0x82, 0xFA, 0xD8, 0xD6, 0x1A, 0x6A, 0x8B, 0x33, 0x3D, 0x61, 0x93, 0xF1]),
    (messageBytes question, questionHash),
    (messageBytes answer, answerHash),
    (prefixBytes none questionHash, pathHashes[0]),
    (prefixBytes (some pathHashes[0]) answerHash, pathHashes[1]),
    (prefixBytes (some pathHashes[1]) questionHash, pathHashes[2]),
    (prefixBytes (some pathHashes[2]) answerHash, pathHashes[3])]

/-- Each request has what was said before it. -/
def conversation : List TreeRequestRecord :=
  [{ bareRecord "early" 100 with requestMessages := [question], responseMessages := [answer] },
    { bareRecord "late" 200 with
      requestMessages := [question, answer, question]
      responseMessages := [answer] }]

theorem exists_recordAll_conversation :
    ∃ db, recordAll (sha256Of conversationDigests) conversation = .ok db :=
  Except.exists_eq_ok (by decide +kernel)

theorem materialize_conversation :
    ∃ db, recordAll (sha256Of conversationDigests) conversation = .ok db ∧
      db.materializeMessageTreeNode (sha256Of conversationDigests) 4 "early" =
        .ok ([question], [answer]) ∧
      db.materializeMessageTreeNode (sha256Of conversationDigests) 4 "late" =
        .ok ([question, answer, question], [answer]) := by
  obtain ⟨db, hrun⟩ := exists_recordAll_conversation
  obtain ⟨hread, -⟩ := materialize_run hrun
  exact ⟨db, hrun, hread "early" _ rfl 4 (by decide), hread "late" _ rfl 4 (by decide)⟩

end Tokn.Persistence
