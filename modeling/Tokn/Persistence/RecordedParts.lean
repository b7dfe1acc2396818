import Tokn.Persistence.MessageTree
import Tokn.Persistence.PartHashes

/-!
# Records whose parts are told apart

`Known` says that all that is in the message tree comes from the records so far. As long as no two
parts of all records are ambiguous, it rules out every difference that `record_tree` looks for.

**Theorem (`part_hashes_iff`).** Hashes tell two parts apart exactly if they are not ambiguous, and a
run of records without ambiguous parts has none that is rejected as an invalid tree.
-/

namespace Tokn.Persistence

variable {sha256 : Bytes → MessageId}

/-! ## Runs -/

/-- The database after some calls, where a call that fails is rolled back. -/
def attempts (sha256 : Bytes → MessageId) (records : List TreeRequestRecord) : SessionsDb :=
  records.foldl (fun db r => (db.recordTree r sha256).toOption.getD db) {}

/-- The messages of some records. -/
def MessagesOf (records : List TreeRequestRecord) : Set MessageRecord :=
  {message | ∃ r ∈ records, message ∈ r.messages}

/-- The parts of some records. -/
def PartsOf (records : List TreeRequestRecord) : Set PartRecord :=
  {part | ∃ message ∈ MessagesOf records, part ∈ message.parts}

/-- The paths that start the messages of some records. -/
def PathsOf (records : List TreeRequestRecord) : Set (List MessageRecord) :=
  {path | ∃ r ∈ records, path <+: r.messages}

/-- What is hashed for the ids of paths. -/
def PrefixInputs (sha256 : Bytes → MessageId) (records : List TreeRequestRecord) : Set Bytes :=
  {bytes | ∃ path message, path ++ [message] ∈ PathsOf records ∧
    bytes = prefixBytes (pathId sha256 path) (hashMessage sha256 message)}

/-- There is no collision of SHA-256 among the inputs of one kind. -/
structure CollisionFree (sha256 : Bytes → MessageId) (records : List TreeRequestRecord) : Prop where
  parts : Set.InjOn sha256 (partBytes '' PartsOf records)
  messages : Set.InjOn sha256 (messageBytes '' MessagesOf records)
  prefixes : Set.InjOn sha256 (PrefixInputs sha256 records)

/-- What a run assumes: no collision, and lengths as they are in memory. -/
structure Assumed (sha256 : Bytes → MessageId) (records : List TreeRequestRecord) : Prop where
  free : CollisionFree sha256 records
  fits : ∀ message ∈ MessagesOf records, message.Fits

/-- No two parts are ambiguous. -/
def Unambiguous (records : List TreeRequestRecord) : Prop :=
  ∀ part ∈ PartsOf records, ∀ other ∈ PartsOf records, ¬Ambiguous part other

/-! ## What is in the tree -/

/-- All blobs are parts of the records, by their hashes. -/
def BlobsKnown (sha256 : Bytes → MessageId) (records : List TreeRequestRecord) (db : SessionsDb) :
    Prop :=
  ∀ hash part, db.partBlobs.get hash = some part →
    part ∈ PartsOf records ∧ hash = hashPart sha256 part

/-- All that is in the message tree comes from some records. -/
structure Known (sha256 : Bytes → MessageId) (records : List TreeRequestRecord) (db : SessionsDb) :
    Prop where
  origin : ∀ id row, db.messageTree.get id = some row →
    ∃ path ∈ PathsOf records, Stored sha256 db (some id) path
  parts : ∀ e ∈ db.messageParts, (db.messageTree.get e.1.1).isSome = true
  blobs : BlobsKnown sha256 records db

variable {records : List TreeRequestRecord} {db db' : SessionsDb}

theorem Known.allStored (h : Known sha256 records db) : AllStored sha256 db := by
  intro id row hrow
  obtain ⟨path, -, hpath⟩ := h.origin id row hrow
  exact ⟨path, hpath⟩

theorem Known.of_eq (h : Known sha256 records db) (htree : db'.messageTree = db.messageTree)
    (hparts : db'.messageParts = db.messageParts) (hblobs : db'.partBlobs = db.partBlobs) :
    Known sha256 records db' where
  origin id row hrow := by
    obtain ⟨path, hmem, hpath⟩ := h.origin id row (htree ▸ hrow)
    exact ⟨path, hmem, hpath.of_extends (.of_eq htree hparts hblobs)⟩
  parts e he := by
    rw [htree]
    exact h.parts e (hparts ▸ he)
  blobs hash part hget := h.blobs hash part (hblobs ▸ hget)

/-- One hash belongs to one part. -/
theorem eq_of_hashPart (h : Assumed sha256 records) (hparts : Unambiguous records)
    {part other : PartRecord} (hpart : part ∈ PartsOf records) (hother : other ∈ PartsOf records)
    (hhash : hashPart sha256 part = hashPart sha256 other) : part = other := by
  refine (hashPart_injective_iff fun heq => ?_).mpr
    ⟨hparts part hpart other hother, hparts other hother part hpart⟩ hhash
  exact h.free.parts (Set.mem_image_of_mem _ hpart) (Set.mem_image_of_mem _ hother) heq

variable {message : MessageRecord} {path : MessagePath}

/-- One id belongs to one path. -/
theorem eq_of_hashPrefix (h : Assumed sha256 records) {path path' : List MessageRecord}
    {message' : MessageRecord} (hpath : path ++ [message] ∈ PathsOf records)
    (hpath' : path' ++ [message'] ∈ PathsOf records)
    (hid : hashPrefix sha256 (pathId sha256 path) (hashMessage sha256 message) =
      hashPrefix sha256 (pathId sha256 path') (hashMessage sha256 message')) :
    pathId sha256 path = pathId sha256 path' ∧ message = message' := by
  have hmem {path : List MessageRecord} {message : MessageRecord}
      (hpath : path ++ [message] ∈ PathsOf records) : message ∈ MessagesOf records := by
    obtain ⟨r, hr, hpre⟩ := hpath
    exact ⟨r, hr, hpre.subset (List.mem_append_right _ (List.mem_singleton_self _))⟩
  rw [hashPrefix_eq, hashPrefix_eq] at hid
  obtain ⟨hparent, hhash⟩ := prefixBytes_injective
    (h.free.prefixes ⟨path, message, hpath, rfl⟩ ⟨path', message', hpath', rfl⟩ hid)
  have hbytes := h.free.messages (Set.mem_image_of_mem _ (hmem hpath))
    (Set.mem_image_of_mem _ (hmem hpath')) hhash
  exact ⟨hparent, messageBytes_injOn (h.fits _ (hmem hpath)) (h.fits _ (hmem hpath')) hbytes⟩

/-! ## One message -/

/-- The rows of the parts of a message. -/
def partRows (sha256 : Bytes → MessageId) (messageId : MessageId) (parts : List (PartRecord × Nat)) :
    Table (MessageId × Nat) String :=
  parts.map fun p => ((messageId, p.2), hashPart sha256 p.1)

theorem insertBlob_ok (h : Assumed sha256 records) (hparts : Unambiguous records)
    (messageId : MessageId) {part : PartRecord} (hpart : part ∈ PartsOf records)
    (hknown : BlobsKnown sha256 records db) :
    ∃ blobs, db.insertOrValidatePartBlob sha256 messageId part =
        .ok { db with partBlobs := blobs } ∧
      BlobsKnown sha256 records { db with partBlobs := blobs } ∧
      (∀ hash other, db.partBlobs.get hash = some other → blobs.get hash = some other) ∧
      blobs.get (hashPart sha256 part) = some part := by
  rw [SessionsDb.insertOrValidatePartBlob]
  cases hget : db.partBlobs.get (hashPart sha256 part) with
  | some stored =>
    obtain ⟨hstored, hhash⟩ := hknown _ _ hget
    obtain rfl := eq_of_hashPart h hparts hpart hstored hhash
    exact ⟨db.partBlobs, if_pos rfl, hknown, fun _ _ hget => hget, hget⟩
  | none =>
    refine ⟨_, rfl, fun hash other hother => ?_, fun hash other hother => ?_, ?_⟩
    · dsimp only at hother
      rw [Table.get_insertOrIgnore, hget] at hother
      split_ifs at hother with hhash
      · cases hother
        exact ⟨hpart, hhash⟩
      · exact hknown hash other hother
    · rw [Table.get_insertOrIgnore, if_neg, hother]
      rintro rfl
      rw [hget] at hother
      cases hother
    · rw [Table.get_insertOrIgnore, if_pos rfl, hget]
      rfl

/-- The parts of a new message are written one by one. -/
theorem insertParts_ok (h : Assumed sha256 records) (hunambiguous : Unambiguous records)
    (messageId : MessageId) {parts : List PartRecord} (k : Nat)
    (hparts : ∀ part ∈ parts, part ∈ PartsOf records) (hknown : BlobsKnown sha256 records db)
    (hnew : ∀ j, k ≤ j → db.messageParts.get (messageId, j) = none) :
    ∃ blobs, (parts.zipIdx k).foldlM (SessionsDb.insertPart sha256 messageId) db =
        .ok { db with
          messageParts := db.messageParts ++ partRows sha256 messageId (parts.zipIdx k)
          partBlobs := blobs } ∧
      BlobsKnown sha256 records { db with partBlobs := blobs } ∧
      (∀ hash other, db.partBlobs.get hash = some other → blobs.get hash = some other) ∧
      ∀ part ∈ parts, blobs.get (hashPart sha256 part) = some part := by
  induction parts generalizing k db with
  | nil =>
    refine ⟨db.partBlobs, ?_, hknown, fun _ _ hget => hget, by simp⟩
    rw [partRows, List.zipIdx_nil, List.map_nil, List.append_nil]
    rfl
  | cons part parts ih =>
    obtain ⟨hpart, hrest⟩ := List.forall_mem_cons.mp hparts
    obtain ⟨blobs, hblob, hknown₁, hext₁, hget₁⟩ := insertBlob_ok h hunambiguous messageId hpart hknown
    have hrow : db.messageParts.get (messageId, k) = none := hnew k le_rfl
    have hinsert : db.messageParts.insertOrIgnore (messageId, k) (hashPart sha256 part) =
        db.messageParts ++ partRows sha256 messageId [(part, k)] := by
      rw [Table.insertOrIgnore, BTreeMap.contains, hrow]
      rfl
    have hstep : db.insertPart sha256 messageId (part, k) =
        .ok { db with
          messageParts := db.messageParts ++ partRows sha256 messageId [(part, k)]
          partBlobs := blobs } := by
      rw [SessionsDb.insertPart, hblob]
      show SessionsDb.insertOrValidateMessagePart _ messageId k (hashPart sha256 part) = _
      rw [SessionsDb.insertOrValidateMessagePart, hrow, hinsert]
    obtain ⟨blobs', hfold, hknown₂, hext₂, hget₂⟩ :=
      @ih { db with
        messageParts := db.messageParts ++ partRows sha256 messageId [(part, k)]
        partBlobs := blobs } (k + 1) hrest hknown₁ fun j hj => by
          rw [BTreeMap.get_append, hnew j (by omega), partRows, List.map_singleton, BTreeMap.get_cons,
            if_neg (by simp; omega)]
          rfl
    refine ⟨blobs', ?_, hknown₂, fun hash other hget => hext₂ _ _ (hext₁ _ _ hget), ?_⟩
    · rw [List.zipIdx_cons, List.foldlM_cons, hstep]
      refine hfold.trans ?_
      rw [List.append_assoc, partRows, partRows, partRows, ← List.map_append, List.singleton_append]
    · exact List.forall_mem_cons.mpr ⟨hext₂ _ _ hget₁, hget₂⟩

/-- The parts of a new message are read in order. -/
theorem storedParts_new {messageId : MessageId} {blobs : Table String PartRecord}
    (hothers : ∀ e ∈ db.messageParts, e.1.1 ≠ messageId)
    (hget : ∀ part ∈ message.parts, blobs.get (hashPart sha256 part) = some part) :
    ({ db with
      messageParts := db.messageParts ++ partRows sha256 messageId message.parts.zipIdx
      partBlobs := blobs } : SessionsDb).storedParts messageId = expectedParts sha256 message := by
  have hold : (db.messageParts.filter fun e => e.1.1 = messageId) = [] := by
    rw [List.filter_eq_nil_iff]
    exact fun e he => by simpa using hothers e he
  have hnew : ((partRows sha256 messageId message.parts.zipIdx).filter fun e => e.1.1 = messageId) =
      partRows sha256 messageId message.parts.zipIdx := by
    rw [List.filter_eq_self]
    intro e he
    obtain ⟨p, -, rfl⟩ := List.mem_map.mp he
    exact decide_eq_true rfl
  have hsorted : (partRows sha256 messageId message.parts.zipIdx).mergeSort
      (fun a b => a.1.2 ≤ b.1.2) = partRows sha256 messageId message.parts.zipIdx := by
    refine List.mergeSort_of_pairwise ?_
    rw [partRows, List.pairwise_map, ← List.pairwise_map (f := Prod.snd)
      (R := fun a b => decide (a ≤ b) = true), List.zipIdx_map_snd]
    exact List.pairwise_le_range'.imp fun h => decide_eq_true h
  rw [SessionsDb.storedParts, List.filter_append, hold, hnew, List.nil_append, hsorted, expectedParts,
    partRows, List.map_map]
  refine List.map_congr_left fun p hp => ?_
  rw [Function.comp_apply, hget p.1 (List.fst_mem_of_mem_zipIdx hp)]

theorem validate_ok {messageId : MessageId}
    (h : db.storedParts messageId = expectedParts sha256 message) :
    db.validateMessageParts sha256 messageId message = .ok () :=
  if_pos h

/-- A message that is in the tree has been written there for the same path. -/
theorem insertMessage_found (h : Assumed sha256 records) {parentDepth : Nat}
    {before : List MessageRecord} {row : MessageRow} (hknown : Known sha256 records path.db)
    (hpath : before ++ [message] ∈ PathsOf records)
    (hstored : Stored sha256 path.db path.parentId before)
    (hdepth : parentDepth + path.ids.length = before.length)
    (hget : path.db.messageTree.get
      (hashPrefix sha256 path.parentId (hashMessage sha256 message)) = some row) :
    ∃ path', insertMessage sha256 parentDepth path message = .ok path' ∧ path'.db = path.db := by
  obtain ⟨path', hpath', hstored'⟩ := hknown.origin _ _ hget
  generalize htip : some (hashPrefix sha256 path.parentId (hashMessage sha256 message)) = tip
    at hstored'
  cases hstored' with
  | root => cases htip
  | @child parentId' before' message' hbefore' hrow' hparts' =>
    have hid := Option.some.inj htip
    rw [← hid] at hrow' hparts'
    rw [← hstored.pathId_eq, ← hbefore'.pathId_eq] at hid
    obtain ⟨hparent, rfl⟩ := eq_of_hashPrefix h hpath hpath' hid
    rw [hstored.pathId_eq, hbefore'.pathId_eq] at hparent
    obtain rfl := hstored.unique (hparent ▸ hbefore')
    rw [← hparent, ← hdepth, hget, Option.some_inj] at hrow'
    refine ⟨{ path with
      parentId := some (hashPrefix sha256 path.parentId (hashMessage sha256 message))
      ids := path.ids ++ [hashPrefix sha256 path.parentId (hashMessage sha256 message)]
      reusedPrefixMessages :=
        if path.reusedPrefixMessages = path.ids.length then path.reusedPrefixMessages + 1
        else path.reusedPrefixMessages }, ?_, rfl⟩
    unfold insertMessage
    simp only [messageRow] at hrow' ⊢
    rw [hget, hrow']
    simp only [ne_eq, not_true_eq_false, if_false]
    rw [validate_ok hparts']
    rfl

/-- A message that is not in the tree is written with its parts. -/
theorem insertMessage_new (h : Assumed sha256 records) (hunambiguous : Unambiguous records)
    (parentDepth : Nat) (hknown : Known sha256 records path.db)
    (hmessage : message ∈ MessagesOf records)
    (hget : path.db.messageTree.get
      (hashPrefix sha256 path.parentId (hashMessage sha256 message)) = none) :
    let messageId := hashPrefix sha256 path.parentId (hashMessage sha256 message)
    ∃ path' row, insertMessage sha256 parentDepth path message = .ok path' ∧
      path'.db.messageTree = path.db.messageTree.insertOrIgnore messageId row ∧
      path'.db.messageParts =
        path.db.messageParts ++ partRows sha256 messageId message.parts.zipIdx ∧
      BlobsKnown sha256 records path'.db := by
  intro messageId
  have hothers : ∀ e ∈ path.db.messageParts, e.1.1 ≠ messageId := by
    intro e he heq
    have hsome := hknown.parts e he
    rw [heq, hget] at hsome
    cases hsome
  have hrows : ∀ j, 0 ≤ j → path.db.messageParts.get (messageId, j) = none := by
    intro j _
    rw [BTreeMap.get_eq_none_iff]
    intro hmem
    obtain ⟨e, he, heq⟩ := List.mem_map.mp hmem
    exact hothers e he (congrArg Prod.fst heq)
  generalize hdb : { path.db with
    messageTree := path.db.messageTree.insertOrIgnore messageId
      (messageRow sha256 path.parentId (parentDepth + path.ids.length + 1) message) } = db
  have hstart : insertMessage sha256 parentDepth path message =
      (message.parts.zipIdx.foldlM (SessionsDb.insertPart sha256 messageId) db >>= fun db =>
        db.validateMessageParts sha256 messageId message >>= fun _ =>
          .ok { path with db := db, parentId := some messageId, ids := path.ids ++ [messageId] }) := by
    rw [← hdb]
    unfold insertMessage
    simp only [messageRow] at hget ⊢
    rw [hget]
    rfl
  have hsame : db.messageParts = path.db.messageParts := by rw [← hdb]
  rw [← hsame] at hothers hrows ⊢
  obtain ⟨blobs, hfold, hblobs, -, hparts⟩ := insertParts_ok h hunambiguous messageId 0
    (fun part hpart => ⟨message, hmessage, hpart⟩) (hdb ▸ hknown.blobs) hrows
  have hvalid := validate_ok (storedParts_new hothers hparts)
  refine ⟨{ path with
    db := { db with
      messageParts := db.messageParts ++ partRows sha256 messageId message.parts.zipIdx
      partBlobs := blobs }
    parentId := some messageId
    ids := path.ids ++ [messageId] },
    messageRow sha256 path.parentId (parentDepth + path.ids.length + 1) message, ?_, ?_, rfl, hblobs⟩
  · rw [hstart, hfold]
    exact congrArg (· >>= fun _ => _) hvalid
  · rw [← hdb]

/-! ## Paths -/

/-- **One message.** -/
theorem insertMessage_known (h : Assumed sha256 records) (hunambiguous : Unambiguous records)
    {parentDepth : Nat} {before : List MessageRecord} (hknown : Known sha256 records path.db)
    (hpath : before ++ [message] ∈ PathsOf records)
    (hstored : Stored sha256 path.db path.parentId before)
    (hdepth : parentDepth + path.ids.length = before.length) :
    ∃ path', insertMessage sha256 parentDepth path message = .ok path' ∧
      Known sha256 records path'.db := by
  cases hget : path.db.messageTree.get
      (hashPrefix sha256 path.parentId (hashMessage sha256 message)) with
  | some row =>
    obtain ⟨path', hinsert, hsame⟩ := insertMessage_found h hknown hpath hstored hdepth hget
    exact ⟨path', hinsert, hsame ▸ hknown⟩
  | none =>
    have hmessage : message ∈ MessagesOf records := by
      obtain ⟨r, hr, hpre⟩ := hpath
      exact ⟨r, hr, hpre.subset (List.mem_append_right _ (List.mem_singleton_self _))⟩
    obtain ⟨path', row, hinsert, htree, hparts, hblobs⟩ :=
      insertMessage_new h hunambiguous parentDepth hknown hmessage hget
    obtain ⟨hext, -, hstored'⟩ := insertMessage_stored hinsert hknown.allStored hstored hdepth
    obtain ⟨hparent, -⟩ := insertMessage_ok hinsert
    rw [hparent] at hstored'
    refine ⟨path', hinsert, ⟨fun id row' hrow => ?_, fun e he => ?_, hblobs⟩⟩
    · rw [htree, Table.get_insertOrIgnore] at hrow
      split_ifs at hrow with hid
      · rw [hid]
        exact ⟨_, hpath, hstored'⟩
      · obtain ⟨path₀, hmem, hpath₀⟩ := hknown.origin id row' hrow
        exact ⟨path₀, hmem, hpath₀.of_extends hext⟩
    · rw [htree, Table.get_insertOrIgnore]
      split_ifs with hid
      · rw [hget]
        rfl
      · rw [hparts] at he
        rcases List.mem_append.mp he with he | he
        · exact hknown.parts e he
        · obtain ⟨p, -, rfl⟩ := List.mem_map.mp he
          exact absurd rfl hid

/-- **A path of messages.** -/
theorem insertMessagePath_known (h : Assumed sha256 records) (hunambiguous : Unambiguous records)
    {parentDepth : Nat} {path : MessagePath} {before messages : List MessageRecord}
    (hknown : Known sha256 records path.db) (hpath : before ++ messages ∈ PathsOf records)
    (hstored : Stored sha256 path.db path.parentId before)
    (hdepth : parentDepth + path.ids.length = before.length) :
    ∃ path', messages.foldlM (insertMessage sha256 parentDepth) path = .ok path' ∧
      Known sha256 records path'.db := by
  induction messages generalizing path before with
  | nil => exact ⟨path, rfl, hknown⟩
  | cons message messages ih =>
    rw [← List.singleton_append, ← List.append_assoc] at hpath
    have hfirst : before ++ [message] ∈ PathsOf records := by
      obtain ⟨r, hr, hpre⟩ := hpath
      exact ⟨r, hr, (List.prefix_append _ _).trans hpre⟩
    obtain ⟨path₁, hinsert, hknown₁⟩ :=
      insertMessage_known h hunambiguous hknown hfirst hstored hdepth
    obtain ⟨-, -, hstored₁⟩ := insertMessage_stored hinsert hknown.allStored hstored hdepth
    obtain ⟨-, hids, -⟩ := insertMessage_ok hinsert
    obtain ⟨path', hrest, hknown'⟩ := ih hknown₁ hpath hstored₁ (by simp [hids]; omega)
    refine ⟨path', ?_, hknown'⟩
    rw [List.foldlM_cons, hinsert]
    exact hrest

/-! ## Records -/

/-- A node is never an invalid tree. -/
theorem upsertNode_ne_invalid (r : TreeRequestRecord) (input output : MessagePath)
    (messageId : MessageId) (id : String) :
    db.upsertNode r input output messageId ≠ .error (.invalidMessageTree id) := by
  unfold SessionsDb.upsertNode
  dsimp only
  split_ifs <;> exact fun h => by cases h

/-- **One record.** -/
theorem recordTree_known (h : Assumed sha256 records) (hunambiguous : Unambiguous records)
    (hknown : Known sha256 records db) {r : TreeRequestRecord} (hr : r ∈ records) :
    (∀ id, db.recordTree r sha256 ≠ .error (.invalidMessageTree id)) ∧
      ∀ db', db.recordTree r sha256 = .ok db' → Known sha256 records db' := by
  obtain ⟨input, hinput, hknownIn⟩ := @insertMessagePath_known _ _ h hunambiguous 0
    { db := db, parentId := none } [] r.requestMessages hknown ⟨r, hr, List.prefix_append _ _⟩ .root rfl
  obtain ⟨-, -, hstored, hlength, htip⟩ :=
    @insertMessagePath_stored _ _ none [] _ _ hinput hknown.allStored .root
  have hinputTip : input.parentId = input.ids.getLast? :=
    htip.trans (by cases input.ids.getLast? <;> rfl)
  rw [hinputTip, List.nil_append] at hstored
  obtain ⟨output, houtput, hknownOut⟩ := @insertMessagePath_known _ _ h hunambiguous
    input.ids.length { db := input.db, parentId := input.ids.getLast? } _ r.responseMessages hknownIn
    ⟨r, hr, List.prefix_rfl⟩ hstored hlength
  constructor
  · intro id
    unfold SessionsDb.recordTree insertMessagePath
    split_ifs with hempty
    · exact fun h => by cases h
    · rw [hinput]
      dsimp only [bind, Except.bind]
      rw [houtput]
      dsimp only
      split
      · exact fun h => by cases h
      · rename_i messageId hid
        intro hnode
        cases hup : ((output.db.upsertSession r).upsertThread r).upsertNode r input output messageId with
        | error e =>
          rw [hup] at hnode
          cases hnode
          exact upsertNode_ne_invalid _ _ _ _ _ hup
        | ok db₁ =>
          rw [hup] at hnode
          cases hnode
  · intro db' hcall
    cases hempty : r.isEmpty with
    | true => exact recordTree_empty hcall hempty ▸ hknown
    | false =>
      obtain ⟨input', output', messageId, db₁, hinput', houtput', -, hnode, rfl⟩ :=
        recordTree_ok hcall hempty
      cases hinput.symm.trans hinput'
      cases houtput.symm.trans houtput'
      obtain ⟨-, -, htree, hparts, hblobs⟩ := upsertNode_frame hnode
      obtain ⟨-, -, -, htree', hparts', hblobs'⟩ := upsertRelation_frame (db₁.upsertHead r) r
      exact hknownOut.of_eq (htree'.trans htree) (hparts'.trans hparts) (hblobs'.trans hblobs)

/-- **A run.** -/
theorem attempts_known (h : Assumed sha256 records) (hunambiguous : Unambiguous records)
    {before : List TreeRequestRecord} (hsub : before ⊆ records) :
    Known sha256 records (attempts sha256 before) := by
  refine List.foldlRecOn before _ ⟨fun _ _ hrow => ?_, fun _ he => ?_, fun _ _ hget => ?_⟩
    fun db hknown r hr => ?_
  · cases hrow
  · cases he
  · cases hget
  · cases hcall : db.recordTree r sha256 with
    | error e => exact hknown
    | ok db' => exact (recordTree_known h hunambiguous hknown (hsub hr)).2 db' hcall

/-! ## A part with a zero byte -/

/-- A text with a zero byte in it. -/
def zeroText : Value :=
  .object [("text", .string "x\x00\x7b\"type\":\"text\\u0000x\"\x7d"), ("type", .string "text")]

/-- A type with a zero byte in it. -/
def zeroType : Value := .object [("type", .string "text\x00x")]

/-- The body of a request with one message of one part. -/
def partBody (part : Value) : Value :=
  .object [("messages", .array [.object [("content", .array [part]), ("role", .string "user")]])]

def partRecord (requestId : String) (part : Value) : TreeRequestRecord :=
  { bareRecord requestId 100 with
    requestMessages := Semantic.requestMessagesFromJson "chat_completions" (partBody part) }

def partMessage (part : PartRecord) : MessageRecord := ⟨"user", none, [part]⟩

/-- SHA-256 of what is hashed for both parts. -/
def zeroPartHash : MessageId :=
  #v[0x45, 0x0B, 0xD8, 0x63, 0x74, 0xC6, 0x9E, 0x27, 0x39, 0x58, 0x1B, 0x4E, 0x9D, 0xF4, 0xA0, 0xF2,
    0x28, 0x54, 0xAA, 0xAC, 0x6B, 0xBE, 0xCB, 0x7C, 0xEA, 0xC6, 0xA1, 0x8A, 0xC6, 0xEB, 0xD5, 0x3A]

/-- SHA-256 of what is hashed for the message of each part. -/
def zeroTextHash : MessageId :=
  #v[0xD9, 0x59, 0xE8, 0x81, 0xAA, 0x8D, 0x3B, 0x9F, 0x26, 0x85, 0x26, 0xF6, 0xAB, 0xAC, 0x09, 0x8C,
    0xB1, 0x93, 0x28, 0x5D, 0x07, 0x6B, 0xC1, 0x6E, 0xAB, 0x56, 0xF6, 0x8D, 0x98, 0x9A, 0xDB, 0xDF]

def zeroTypeHash : MessageId :=
  #v[0xCB, 0x26, 0x67, 0x13, 0x99, 0x6F, 0xE1, 0xCD, 0x81, 0x95, 0x09, 0x61, 0xAA, 0x25, 0x51, 0xB7,
    0x95, 0x18, 0x2D, 0x60, 0xD4, 0x7B, 0x82, 0x96, 0xA3, 0x85, 0x77, 0x33, 0xCA, 0xD6, 0x82, 0xC8]

/-- SHA-256 of what is hashed for records of these messages. -/
def zeroSha256 : Bytes → MessageId := sha256Of
  [(partBytes (Semantic.partFromValue zeroText), zeroPartHash),
    (messageBytes (partMessage (Semantic.partFromValue zeroText)), zeroTextHash),
    (messageBytes (partMessage (Semantic.partFromValue zeroType)), zeroTypeHash),
    (prefixBytes none zeroTextHash,
      #v[0xED, 0xE5, 0xDE, 0x7C, 0x8D, 0xFB, 0x4E, 0x6C, 0x53, 0x58, 0xDE, 0xD8, 0x11, 0xE9, 0xF9, 0x8A,
      0x79, 0xD0, 0x80, 0x84, 0x00, 0x53, 0x19, 0xFE, 0x48, 0x5A, 0x17, 0x3C, 0x9A, 0x3F, 0xAD, 0xF5]),
    (prefixBytes none zeroTypeHash,
      #v[0xD6, 0x98, 0x49, 0xDA, 0x29, 0xCF, 0x3C, 0xD4, 0x83, 0x96, 0x7D, 0x65, 0xD3, 0x88, 0x30, 0x8F,
      0x33, 0x42, 0x72, 0xFA, 0x83, 0xFE, 0x00, 0x98, 0x76, 0x82, 0xD7, 0x56, 0x26, 0xA7, 0x39, 0xC5])]

/-- What a run assumes, for records of one message of one part. -/
theorem assumed_of_parts {parts : List PartRecord}
    (hrecords : ∀ r ∈ records, ∃ part ∈ parts, r.messages = [partMessage part])
    (hparts : ∀ part ∈ parts, ∀ other ∈ parts,
      sha256 (partBytes part) = sha256 (partBytes other) → partBytes part = partBytes other)
    (hmessages : ∀ part ∈ parts, ∀ other ∈ parts,
      hashMessage sha256 (partMessage part) = hashMessage sha256 (partMessage other) → part = other)
    (hpres : ∀ part ∈ parts, ∀ other ∈ parts,
      hashPrefix sha256 none (hashMessage sha256 (partMessage part)) =
        hashPrefix sha256 none (hashMessage sha256 (partMessage other)) → part = other)
    (hfits : ∀ part ∈ parts, part.Fits) : Assumed sha256 records := by
  have hmem {message : MessageRecord} (h : message ∈ MessagesOf records) :
      ∃ part ∈ parts, message = partMessage part := by
    obtain ⟨r, hr, hmessage⟩ := h
    obtain ⟨part, hpart, hr'⟩ := hrecords r hr
    rw [hr', List.mem_singleton] at hmessage
    exact ⟨part, hpart, hmessage⟩
  have hpath {path : List MessageRecord} {message : MessageRecord}
      (h : path ++ [message] ∈ PathsOf records) :
      ∃ part ∈ parts, path = [] ∧ message = partMessage part := by
    obtain ⟨r, hr, hpre⟩ := h
    obtain ⟨part, hpart, hr'⟩ := hrecords r hr
    rw [hr'] at hpre
    have hlength := hpre.length_le
    rw [List.length_append, List.length_singleton, List.length_singleton] at hlength
    obtain rfl : path = [] := List.length_eq_zero_iff.mp (by omega)
    exact ⟨part, hpart, rfl, (List.cons_prefix_cons.mp hpre).1⟩
  refine ⟨⟨?_, ?_, ?_⟩, fun message hmessage => ?_⟩
  · rintro _ ⟨a, ⟨message, hmessage, ha⟩, rfl⟩ _ ⟨b, ⟨message', hmessage', hb⟩, rfl⟩ h
    obtain ⟨part, hpart, rfl⟩ := hmem hmessage
    obtain ⟨other, hother, rfl⟩ := hmem hmessage'
    obtain rfl := List.mem_singleton.mp ha
    obtain rfl := List.mem_singleton.mp hb
    exact hparts _ hpart _ hother h
  · rintro _ ⟨message, hmessage, rfl⟩ _ ⟨message', hmessage', rfl⟩ h
    obtain ⟨part, hpart, rfl⟩ := hmem hmessage
    obtain ⟨other, hother, rfl⟩ := hmem hmessage'
    rw [hmessages part hpart other hother h]
  · rintro _ ⟨path, message, hpath₁, rfl⟩ _ ⟨path', message', hpath₂, rfl⟩ h
    obtain ⟨part, hpart, rfl, rfl⟩ := hpath hpath₁
    obtain ⟨other, hother, rfl, rfl⟩ := hpath hpath₂
    rw [← hashPrefix_eq sha256, ← hashPrefix_eq sha256] at h
    rw [hpres part hpart other hother h]
  · obtain ⟨part, hpart, rfl⟩ := hmem hmessage
    have hrole : (Str.utf8Bytes "user").length < 2 ^ 64 := by
      simp only [Str.utf8Bytes_eq_flatMap, List.length_flatMap, String.length_utf8EncodeChar]
      decide
    refine ⟨hrole, show 1 < 2 ^ 64 by decide, ?_⟩
    intro p hp
    rw [List.mem_singleton.mp hp]
    exact hfits part hpart

theorem fits_zeroParts :
    (Semantic.partFromValue zeroText).Fits ∧ (Semantic.partFromValue zeroType).Fits := by
  constructor
  · exact ⟨show (_ : Nat) < 2 ^ 64 by decide +kernel, show (_ : Nat) < 2 ^ 64 by decide +kernel⟩
  · exact ⟨show (_ : Nat) < 2 ^ 64 by decide +kernel, show (_ : Nat) < 2 ^ 64 by decide +kernel⟩

/-- **Hashes of parts.** They tell two parts apart exactly if the parts are not ambiguous, and no
record of a run without ambiguous parts is rejected. -/
theorem part_hashes_iff (sha256 : Bytes → MessageId) :
    (∀ part other : PartRecord,
      (sha256 (partBytes part) = sha256 (partBytes other) → partBytes part = partBytes other) →
      ((hashPart sha256 part = hashPart sha256 other →
          part.partType = other.partType ∧ part.content = other.content) ↔
        ¬Ambiguous part other ∧ ¬Ambiguous other part)) ∧
    ∀ records r, Assumed sha256 (records ++ [r]) → Unambiguous (records ++ [r]) →
      ∀ id, (attempts sha256 records).recordTree r sha256 ≠ .error (.invalidMessageTree id) := by
  constructor
  · intro part other hfree
    rw [← hashPart_injective_iff hfree]
    obtain ⟨partType, content⟩ := part
    obtain ⟨partType', content'⟩ := other
    rw [PartRecord.mk.injEq]
  · intro records r h hunambiguous
    have hknown := attempts_known h hunambiguous (List.subset_append_left records [r])
    exact (recordTree_known h hunambiguous hknown
      (List.mem_append_right _ (List.mem_singleton_self r))).1

theorem part_hashes_zeroText :
    (attempts zeroSha256 [partRecord "first" zeroText]).recordTree (partRecord "second" zeroText)
      zeroSha256 ≠ .error (.invalidMessageTree (encodeMessageId zeroTextHash)) := by
  have hrecords : ∀ r ∈ [partRecord "first" zeroText, partRecord "second" zeroText],
      ∃ part ∈ [Semantic.partFromValue zeroText], r.messages = [partMessage part] := by
    decide +kernel
  refine (part_hashes_iff zeroSha256).2 [partRecord "first" zeroText] (partRecord "second" zeroText)
    (assumed_of_parts hrecords ?_ ?_ ?_ ?_) ?_ _
  · simp
  · simp
  · simp
  · simpa using fits_zeroParts.1
  · rintro part ⟨message, ⟨r, hr, hmessage⟩, hpart⟩ other ⟨message', ⟨r', hr', hmessage'⟩, hother⟩
    obtain ⟨p, hp, hmessages⟩ := hrecords r hr
    obtain ⟨q, hq, hmessages'⟩ := hrecords r' hr'
    rw [hmessages, List.mem_singleton] at hmessage
    rw [hmessages', List.mem_singleton] at hmessage'
    subst hmessage hmessage'
    rw [List.mem_singleton.mp hpart, List.mem_singleton.mp hother, List.mem_singleton.mp hp,
      List.mem_singleton.mp hq]
    exact fun h => h.ne rfl

theorem part_hashes_zeroType :
    (∀ sha256, hashPart sha256 (Semantic.partFromValue zeroText) =
        hashPart sha256 (Semantic.partFromValue zeroType)) ∧
      (Semantic.partFromValue zeroText).partType ≠ (Semantic.partFromValue zeroType).partType ∧
      Assumed zeroSha256 [partRecord "first" zeroText, partRecord "second" zeroType] ∧
      (attempts zeroSha256 [partRecord "first" zeroText]).recordTree (partRecord "second" zeroType)
        zeroSha256 = .error (.invalidMessageTree
          "d69849da29cf3cd483967d65d388308f334272fa83fe00987682d75626a739c5") := by
  have hbytes : partBytes (Semantic.partFromValue zeroText) =
      partBytes (Semantic.partFromValue zeroType) := by decide +kernel
  refine ⟨fun sha256 => ?_, by decide +kernel, ?_, by decide +kernel⟩
  · exact congrArg (fun bytes => encodeMessageId (sha256 bytes)) hbytes
  · refine @assumed_of_parts _ _ [Semantic.partFromValue zeroText, Semantic.partFromValue zeroType]
      (by decide +kernel) (by decide +kernel) (by decide +kernel) (by decide +kernel) ?_
    exact List.forall_mem_cons.mpr ⟨fits_zeroParts.1, by simpa using fits_zeroParts.2⟩

end Tokn.Persistence
