import Mathlib.Data.Prod.Lex
import Mathlib.Data.String.Basic
import Mathlib.Logic.Relation
import Tokn.Persistence.AncestryProof
import Tokn.Persistence.RecordedParts

/-!
# The ancestry of a recorded session

A node precedes another one of its thread in the order of time, row and id. The observations are
sorted by that order, so that the talks before a node are those of the nodes that precede it.

**Theorem (`ancestry_run`).** After any calls of `record_tree`, what is derived for a node is the
parent for the longest prefix that is not empty, and no node is its own ancestor.
-/

namespace Tokn.Persistence

open LongestPrefix

variable {sha256 : Bytes → MessageId} {db : SessionsDb} {sessionId : String}

/-! ## The order of nodes -/

/-- A node precedes another one of its session and thread, by time, row and id. -/
def Precedes (db : SessionsDb) (sessionId id' id : String) : Prop :=
  ∃ (n' : Nat) (row' : NodeRow) (n : Nat) (row : NodeRow),
    db.sessionNodes[n']? = some (id', row') ∧ db.sessionNodes[n]? = some (id, row) ∧
    row'.sessionId = sessionId ∧ row.sessionId = sessionId ∧ row'.threadId = row.threadId ∧
    toLex (row'.ts, toLex (n', id')) < toLex (row.ts, toLex (n, id))

def Observation.key (o : Observation) : ℤ ×ₗ ℕ ×ₗ String := toLex (o.ts, toLex (o.rowId, o.nodeId))

theorem Observation.le_iff {a b : Observation} : a.le b ↔ a.key ≤ b.key := by
  simp [Observation.le, Observation.key, Prod.Lex.toLex_le_toLex]

theorem key_observationOf_lt {id id' : String} {row row' : NodeRow} {n n' : Nat} :
    (observationOf ((id', row'), n' + 1)).key < (observationOf ((id, row), n + 1)).key ↔
      toLex (row'.ts, toLex (n', id')) < toLex (row.ts, toLex (n, id)) := by
  simp [Observation.key, observationOf, Prod.Lex.toLex_lt_toLex]

/-- The observations are the rows of the session. -/
theorem mem_loadObservations {o : Observation} :
    o ∈ db.loadObservations sessionId ↔ ∃ n id row, db.sessionNodes[n]? = some (id, row) ∧
      row.sessionId = sessionId ∧ o = observationOf ((id, row), n + 1) := by
  simp only [SessionsDb.loadObservations, List.mem_map, List.mem_filter, decide_eq_true_eq]
  constructor
  · rintro ⟨⟨⟨id, row⟩, m⟩, ⟨hmem, hsession⟩, rfl⟩
    obtain ⟨hm, hrow⟩ := List.mk_mem_zipIdx_iff_le_and_getElem?_sub.mp hmem
    refine ⟨m - 1, id, row, hrow, hsession, ?_⟩
    rw [Nat.sub_add_cancel hm]
  · rintro ⟨n, id, row, hrow, hsession, rfl⟩
    refine ⟨((id, row), n + 1), ⟨?_, hsession⟩, rfl⟩
    exact List.mk_mem_zipIdx_iff_le_and_getElem?_sub.mpr ⟨Nat.le_add_left 1 n, hrow⟩

theorem precedes_iff {id' id : String} : Precedes db sessionId id' id ↔
    ∃ o' ∈ db.loadObservations sessionId, ∃ o ∈ db.loadObservations sessionId,
      o'.nodeId = id' ∧ o.nodeId = id ∧ o'.threadId = o.threadId ∧ o'.key < o.key := by
  constructor
  · rintro ⟨n', row', n, row, hget', hget, hsession', hsession, hthread, hlt⟩
    exact ⟨_, mem_loadObservations.mpr ⟨n', id', row', hget', hsession', rfl⟩,
      _, mem_loadObservations.mpr ⟨n, id, row, hget, hsession, rfl⟩,
      rfl, rfl, hthread, key_observationOf_lt.mpr hlt⟩
  · rintro ⟨o', ho', o, ho, rfl, rfl, hthread, hlt⟩
    obtain ⟨n', id', row', hget', hsession', rfl⟩ := mem_loadObservations.mp ho'
    obtain ⟨n, id, row, hget, hsession, rfl⟩ := mem_loadObservations.mp ho
    exact ⟨n', row', n, row, hget', hget, hsession', hsession, hthread,
      key_observationOf_lt.mp hlt⟩

/-! ## Sorted observations -/

theorem mem_before_iff {β κ : Type*} [Preorder κ] {key : β → κ} {before after : List β} {x y : β}
    (hsorted : (before ++ x :: after).Pairwise fun a b => key a < key b) :
    y ∈ before ↔ y ∈ before ++ x :: after ∧ key y < key x := by
  obtain ⟨-, hafter, hbefore⟩ := List.pairwise_append.mp hsorted
  constructor
  · intro hy
    exact ⟨List.mem_append_left _ hy, hbefore y hy x List.mem_cons_self⟩
  · rintro ⟨hy, hlt⟩
    rcases List.mem_append.mp hy with hy | hy
    · exact hy
    · rcases List.mem_cons.mp hy with rfl | hy
      · exact absurd hlt (lt_irrefl _)
      · exact absurd (List.rel_of_pairwise_cons hafter hy) (lt_asymm hlt)

section

variable (hkeyed : NodesKeyed db)

include hkeyed

theorem nodup_loadObservations :
    ((db.loadObservations sessionId).map fun o => o.nodeId).Nodup := by
  have hsublist : (((db.sessionNodes.zipIdx 1).filter fun e => e.1.2.sessionId = sessionId).map
      fun e => e.1.1).Sublist (db.sessionNodes.map Prod.fst) := by
    have hnames : (db.sessionNodes.zipIdx 1).map (fun e => e.1.1) = db.sessionNodes.map Prod.fst := by
      rw [← Function.comp_def Prod.fst Prod.fst, ← List.map_map, List.zipIdx_map_fst]
    rw [← hnames]
    exact List.filter_sublist.map _
  rw [SessionsDb.loadObservations, List.map_map]
  exact hkeyed.nodup.sublist hsublist

theorem eq_of_nodeId {o o' : Observation} (ho : o ∈ db.loadObservations sessionId)
    (ho' : o' ∈ db.loadObservations sessionId) (h : o.nodeId = o'.nodeId) : o = o' :=
  List.inj_on_of_nodup_map (nodup_loadObservations hkeyed) ho ho' h

theorem Precedes.trans {a b c : String} (h : Precedes db sessionId a b)
    (h' : Precedes db sessionId b c) : Precedes db sessionId a c := by
  obtain ⟨oa, hoa, ob, hob, rfl, rfl, hthread, hlt⟩ := precedes_iff.mp h
  obtain ⟨ob', hob', oc, hoc, hsame, rfl, hthread', hlt'⟩ := precedes_iff.mp h'
  obtain rfl := eq_of_nodeId hkeyed hob' hob hsame
  exact precedes_iff.mpr ⟨oa, hoa, oc, hoc, rfl, rfl, hthread.trans hthread', hlt.trans hlt'⟩

theorem Precedes.irrefl (a : String) : ¬ Precedes db sessionId a a := by
  intro h
  obtain ⟨o', ho', o, ho, rfl, hsame, -, hlt⟩ := precedes_iff.mp h
  rw [eq_of_nodeId hkeyed ho ho' hsame] at hlt
  exact lt_irrefl _ hlt

/-- The observations as they are gone through. -/
theorem sorted_observations :
    ((db.loadObservations sessionId).insertionSort Observation.le).Pairwise
      fun a b => a.key < b.key := by
  have : Std.Total Observation.le :=
    ⟨fun a b => by simpa [Observation.le_iff] using le_total a.key b.key⟩
  have : IsTrans Observation Observation.le :=
    ⟨fun a b c hab hbc => Observation.le_iff.mpr
      ((Observation.le_iff.mp hab).trans (Observation.le_iff.mp hbc))⟩
  have hnodup := ((List.perm_insertionSort Observation.le
    (db.loadObservations sessionId)).map fun o => o.nodeId).nodup_iff.mpr (nodup_loadObservations hkeyed)
  refine ((List.pairwise_insertionSort Observation.le _).and (List.pairwise_map.mp hnodup)).imp ?_
  rintro a b ⟨hle, hne⟩
  refine lt_of_le_of_ne (Observation.le_iff.mp hle) ?_
  intro hkey
  exact hne (congrArg (fun k : ℤ ×ₗ ℕ ×ₗ String => (ofLex (ofLex k).2).2) hkey)

end

/-! ## Talks -/

/-- The talk of a node: the messages of the record last written for it. -/
def talkOf (records : List TreeRequestRecord) (id : String) : SessionTalk :=
  (lastWritten records id).elim ⟨id, [], []⟩ fun r => ⟨id, r.requestMessages, r.responseMessages⟩

/-- The talks of the nodes that precede a node. -/
def EarlierTalks (db : SessionsDb) (sessionId : String) (talk : String → SessionTalk) (id : String) :
    Set SessionTalk :=
  {t | ∃ id', Precedes db sessionId id' id ∧ t = talk id'}

/-- One talk is that of a node which precedes the other's. -/
def PrecedesTalk (db : SessionsDb) (sessionId : String) (t' t : SessionTalk) : Prop :=
  Precedes db sessionId t'.node t.node

@[simp] theorem talkOf_node (records : List TreeRequestRecord) (id : String) :
    (talkOf records id).node = id := by
  rw [talkOf]
  cases lastWritten records id <;> rfl

variable {talk : String → SessionTalk}

theorem mem_threadTalks {observations : List Observation} {thread : String} {t : SessionTalk} :
    t ∈ threadTalks talk thread observations ↔
      ∃ o ∈ observations, o.threadId = thread ∧ t = talk o.nodeId := by
  simp only [threadTalks, List.mem_map, List.mem_filter, decide_eq_true_eq]
  constructor
  · rintro ⟨o, ⟨ho, hthread⟩, rfl⟩
    exact ⟨o, ho, hthread, rfl⟩
  · rintro ⟨o, ho, hthread, rfl⟩
    exact ⟨o, ⟨ho, hthread⟩, rfl⟩

section

variable {before after : List Observation} {o : Observation}

/-- **The talks so far** are those of the nodes that precede. -/
theorem setOf_threadTalks (hkeyed : NodesKeyed db)
    (hsplit : (db.loadObservations sessionId).insertionSort Observation.le = before ++ o :: after) :
    {t | t ∈ threadTalks talk o.threadId before} = EarlierTalks db sessionId talk o.nodeId := by
  have hsorted := @sorted_observations _ sessionId hkeyed
  rw [hsplit] at hsorted
  have hmem (o' : Observation) :
      o' ∈ before ++ o :: after ↔ o' ∈ db.loadObservations sessionId := by
    rw [← hsplit, List.mem_insertionSort]
  have ho : o ∈ db.loadObservations sessionId := (hmem o).mp (by simp)
  ext t
  refine mem_threadTalks.trans ?_
  constructor
  · rintro ⟨o', hbefore, hthread, rfl⟩
    obtain ⟨hlist, hlt⟩ := (mem_before_iff hsorted).mp hbefore
    exact ⟨o'.nodeId, precedes_iff.mpr ⟨o', (hmem o').mp hlist, o, ho, rfl, rfl, hthread, hlt⟩, rfl⟩
  · rintro ⟨id', hprecedes, rfl⟩
    obtain ⟨o', ho', other, hother, rfl, hsame, hthread, hlt⟩ := precedes_iff.mp hprecedes
    obtain rfl := eq_of_nodeId hkeyed hother ho hsame
    exact ⟨o', (mem_before_iff hsorted).mpr ⟨(hmem o').mpr ho', hlt⟩, hthread, rfl⟩

/-- They are in the order of the nodes. -/
theorem pairwise_threadTalks (hnode : ∀ id, (talk id).node = id) (hkeyed : NodesKeyed db)
    (hsplit : (db.loadObservations sessionId).insertionSort Observation.le = before ++ o :: after) :
    (threadTalks talk o.threadId before).Pairwise (PrecedesTalk db sessionId) := by
  have hsorted := @sorted_observations _ sessionId hkeyed
  rw [hsplit] at hsorted
  have hmem {o' : Observation} (ho' : o' ∈ before) : o' ∈ db.loadObservations sessionId := by
    rw [← List.mem_insertionSort Observation.le, hsplit]
    exact List.mem_append_left _ ho'
  rw [threadTalks, List.pairwise_map, List.pairwise_filter]
  refine (List.pairwise_append.mp hsorted).1.imp_of_mem ?_
  intro a b ha hb hlt hthread hthread'
  rw [PrecedesTalk, hnode, hnode]
  refine precedes_iff.mpr ⟨a, hmem ha, b, hmem hb, rfl, rfl, ?_, hlt⟩
  exact (of_decide_eq_true hthread).trans (of_decide_eq_true hthread').symm

end

/-! ## Runs -/

/-- What is right for a node. -/
structure IsAncestry (db : SessionsDb) (sessionId : String) (talk : String → SessionTalk)
    (id : String) (d : DerivedAncestry) : Prop where
  /-- A parent is derived, with the length of the prefix. -/
  parent : ∀ t k said,
    Parent (PrecedesTalk db sessionId) (EarlierTalks db sessionId talk id) (talk id) t k said →
      d = ⟨some t.node,
        if said = true ∨ t.output = [] then "message_ancestor" else "input_ancestor", k⟩ ∧
      k ≤ commonLength (talk id).whole t.whole
  /-- There is no parent exactly if there is no prefix. -/
  none_iff : d.parentNodeId = none ↔
    ∀ t k said, ¬ Match (EarlierTalks db sessionId talk id) (talk id) t k said
  /-- Where there is no parent, nothing is in common. -/
  none_eq : d.parentNodeId = none → d = noParent
  /-- A parent is one of the talks. -/
  exists_parent : d.parentNodeId ≠ none → ∃ t k said,
    Parent (PrecedesTalk db sessionId) (EarlierTalks db sessionId talk id) (talk id) t k said

/-- **What is expected is right.** -/
theorem isAncestry_expected (hnode : ∀ id, (talk id).node = id) (hkeyed : NodesKeyed db)
    {before after : List Observation} {o : Observation}
    (hsplit : (db.loadObservations sessionId).insertionSort Observation.le = before ++ o :: after) :
    IsAncestry db sessionId talk o.nodeId (expected talk before o) := by
  have hset := @setOf_threadTalks _ _ talk _ _ _ hkeyed hsplit
  have hsorted := pairwise_threadTalks hnode hkeyed hsplit
  have hasymm : ∀ a b : SessionTalk, PrecedesTalk db sessionId a b →
      ¬ PrecedesTalk db sessionId b a := by
    intro a b hab hba
    exact Precedes.irrefl hkeyed _ (Precedes.trans hkeyed hab hba)
  rw [expected]
  cases hsearch : search (threadTalks talk o.threadId before) (talk o.nodeId)
      (talk o.nodeId).input.length with
  | none =>
    have hno := search_eq_none hsearch
    rw [hset] at hno
    refine ⟨?_, ?_, fun _ => rfl, fun h => absurd rfl h⟩
    · intro t k said hparent
      exact absurd hparent.toMatch (hno t k said)
    · exact iff_of_true rfl hno
  | some found =>
    obtain ⟨t, k, said⟩ := found
    have hparent := search_eq_some hsorted hsearch
    rw [hset] at hparent
    refine ⟨?_, ?_, ?_, fun _ => ⟨t, k, said, hparent⟩⟩
    · intro t' k' said' hparent'
      obtain ⟨rfl, rfl, rfl⟩ := hparent.unique hasymm hparent'
      exact ⟨rfl, hparent.toMatch.le_commonLength⟩
    · refine iff_of_false (Option.some_ne_none _) ?_
      intro hno
      exact hno t k said hparent.toMatch
    · intro hnone
      cases hnone

/-- The node of a row is observed with its talk. -/
theorem Holds.observed {records : List TreeRequestRecord} {r : TreeRequestRecord} {id : String}
    {row : NodeRow} (h : Holds sha256 db row r) (hlast : lastWritten records id = some r) (n : Nat) :
    Observed sha256 db (observationOf ((id, row), n)) (talkOf records id) := by
  have htalk : talkOf records id = ⟨id, r.requestMessages, r.responseMessages⟩ := by
    rw [talkOf, hlast, Option.elim]
  rw [htalk]
  exact ⟨rfl, h.input, h.output, h.stored⟩

/-- **Ancestry is derived after calls that succeed**, for the nodes of the session. -/
theorem exists_deriveSessionAncestry {records : List TreeRequestRecord}
    (hrun : recordAll sha256 records = .ok db) (sessionId : String) :
    ∃ ancestry, db.deriveSessionAncestry sessionId = .ok ancestry ∧
      (∀ id, (∃ row, db.sessionNodes.get id = some row ∧ row.sessionId = sessionId) ↔
        (ancestry.get id).isSome = true) ∧
      ∀ id d, ancestry.get id = some d → IsAncestry db sessionId (talkOf records) id d := by
  have hrecorded := treeRecorded_run hrun
  obtain ⟨tree, htree, hrows⟩ := exists_loadPrefixTree hrecorded.all sessionId
  have hload (o : Observation) (ho : o ∈ db.loadObservations sessionId) :
      Observed sha256 db o (talkOf records o.nodeId) ∧
        Loaded sha256 tree (talkOf records o.nodeId).whole := by
    obtain ⟨n, id, row, hget, hsession, rfl⟩ := mem_loadObservations.mp ho
    have hmem : (id, row) ∈ db.sessionNodes := List.mem_of_getElem? hget
    have hrow : db.sessionNodes.get id = some row :=
      (BTreeMap.get_eq_some_iff hrecorded.keyed.nodup).mpr hmem
    have hsome := node_iff_lastWritten hrun id
    rw [hrow, Option.isSome_some] at hsome
    obtain ⟨r, hlast⟩ := Option.isSome_iff_exists.mp hsome.symm
    obtain ⟨row', hrow', hholds⟩ := hrecorded.written id r hlast
    obtain rfl := Option.some.inj (hrow.symm.trans hrow')
    have hobserved := hholds.observed hlast (n + 1)
    exact ⟨hobserved, hobserved.stored.loaded hrows hmem hsession⟩
  have hperm := List.perm_insertionSort Observation.le (db.loadObservations sessionId)
  have hnodup := (hperm.map fun o => o.nodeId).nodup_iff.mpr
    (nodup_loadObservations hrecorded.keyed)
  obtain ⟨d, hd, hderives⟩ := exists_derives _ hnodup fun o ho => hload o (hperm.mem_iff.mp ho)
  have hancestry (o : Observation) (ho : o ∈ db.loadObservations sessionId) :
      ∃ derived, d.ancestry.get o.nodeId = some derived ∧
        IsAncestry db sessionId (talkOf records) o.nodeId derived := by
    obtain ⟨before, after, hsplit⟩ := List.append_of_mem (hperm.mem_iff.mpr ho)
    exact ⟨_, hderives.ancestry before o after hsplit,
      isAncestry_expected (talkOf_node records) hrecorded.keyed hsplit⟩
  refine ⟨d.ancestry, ?_, ?_, ?_⟩
  · rw [SessionsDb.deriveSessionAncestry, htree]
    show (((db.loadObservations sessionId).insertionSort Observation.le).foldlM
      (Derivation.observe tree) {} >>= _) = _
    rw [hd]
    rfl
  · intro id
    constructor
    · rintro ⟨row, hrow, hsession⟩
      obtain ⟨n, hget⟩ := List.mem_iff_getElem?.mp (BTreeMap.mem_of_get hrow)
      obtain ⟨derived, hderived, -⟩ :=
        hancestry _ (mem_loadObservations.mpr ⟨n, id, row, hget, hsession, rfl⟩)
      exact Option.isSome_of_mem hderived
    · intro hsome
      obtain ⟨derived, hderived⟩ := Option.isSome_iff_exists.mp hsome
      obtain ⟨o, ho, rfl⟩ := hderives.observed id derived hderived
      obtain ⟨n, id, row, hget, hsession, rfl⟩ := mem_loadObservations.mp (hperm.mem_iff.mp ho)
      exact ⟨row, (BTreeMap.get_eq_some_iff hrecorded.keyed.nodup).mpr (List.mem_of_getElem? hget),
        hsession⟩
  · intro id derived hderived
    obtain ⟨o, ho, rfl⟩ := hderives.observed id derived hderived
    obtain ⟨derived', hderived', hright⟩ := hancestry o (hperm.mem_iff.mp ho)
    rwa [Option.some.inj (hderived.symm.trans hderived')]

/-- A parent precedes its node. -/
theorem IsAncestry.precedes (hnode : ∀ id, (talk id).node = id) {id parent : String}
    {d : DerivedAncestry} (h : IsAncestry db sessionId talk id d)
    (hparent : d.parentNodeId = some parent) : Precedes db sessionId parent id := by
  obtain ⟨t, k, said, hbest⟩ := h.exists_parent (by rw [hparent]; exact Option.some_ne_none _)
  rw [(h.parent t k said hbest).1] at hparent
  obtain ⟨id', hprecedes, rfl⟩ := hbest.mem
  rw [hnode] at hparent
  rwa [← Option.some.inj hparent]

/-- One node is the parent of another. -/
def IsParent (ancestry : Table String DerivedAncestry) (parent id : String) : Prop :=
  ∃ d, ancestry.get id = some d ∧ d.parentNodeId = some parent

/-- No node is its own ancestor. -/
theorem acyclic_of_isAncestry (hnode : ∀ id, (talk id).node = id) (hkeyed : NodesKeyed db)
    {ancestry : Table String DerivedAncestry}
    (h : ∀ id d, ancestry.get id = some d → IsAncestry db sessionId talk id d) (id : String) :
    ¬ Relation.TransGen (IsParent ancestry) id id := by
  have htrans : IsTrans String (Precedes db sessionId) := ⟨fun _ _ _ => Precedes.trans hkeyed⟩
  intro hcycle
  have hparent : ∀ parent node, IsParent ancestry parent node → Precedes db sessionId parent node := by
    rintro parent node ⟨d, hd, hparent⟩
    exact (h node d hd).precedes hnode hparent
  exact Precedes.irrefl hkeyed id (Relation.transGen_minimal hparent id id hcycle)

/-! ## Calls that fail -/

/-- The records of the calls that succeed, from a database on. -/
def accepted (sha256 : Bytes → MessageId) :
    SessionsDb → List TreeRequestRecord → List TreeRequestRecord
  | _, [] => []
  | db, r :: records =>
    match db.recordTree r sha256 with
    | .ok db' => r :: accepted sha256 db' records
    | .error _ => accepted sha256 db records

theorem recordAll_accepted (db : SessionsDb) (records : List TreeRequestRecord) :
    (accepted sha256 db records).foldlM (fun db r => db.recordTree r sha256) db =
      .ok (records.foldl (fun db r => (db.recordTree r sha256).toOption.getD db) db) := by
  induction records generalizing db with
  | nil => rfl
  | cons r records ih =>
    rw [accepted, List.foldl_cons]
    cases hcall : db.recordTree r sha256 with
    | error e => exact ih db
    | ok db' =>
      dsimp only
      rw [List.foldlM_cons, hcall]
      exact ih db'

/-- **The ancestry of a session.** -/
theorem ancestry_run (sha256 : Bytes → MessageId) (records : List TreeRequestRecord)
    (sessionId : String) :
    let db := attempts sha256 records
    let talk := talkOf (accepted sha256 {} records)
    ∃ ancestry, db.deriveSessionAncestry sessionId = .ok ancestry ∧
      (∀ id, (∃ row, db.sessionNodes.get id = some row ∧ row.sessionId = sessionId) ↔
        (ancestry.get id).isSome = true) ∧
      (∀ id d, ancestry.get id = some d → IsAncestry db sessionId talk id d) ∧
      ∀ id, ¬ Relation.TransGen (IsParent ancestry) id id := by
  intro db talk
  have hrun : recordAll sha256 (accepted sha256 {} records) = .ok db := recordAll_accepted {} records
  obtain ⟨ancestry, hderive, hnodes, hright⟩ := exists_deriveSessionAncestry hrun sessionId
  refine ⟨ancestry, hderive, hnodes, hright, ?_⟩
  exact acyclic_of_isAncestry (talkOf_node _) (treeRecorded_run hrun).keyed hright

/-! ## An empty input -/

/-- SHA-256 of what is hashed of two messages, one after the other. -/
def chainSha256 (bytes : Bytes) : MessageId :=
  if bytes.length = 88 then
    #v[0x8F, 0x82, 0xB1, 0xFD, 0x60, 0x5D, 0x16, 0x28, 0x08, 0xDB, 0x7B, 0x44, 0xF4, 0x69, 0x1A, 0x68,
      0xBD, 0x1E, 0xCA, 0x70, 0x06, 0xA1, 0xFA, 0x21, 0x02, 0x4E, 0x54, 0xCA, 0xA8, 0x1D, 0x23, 0x4E]
  else bareSha256 bytes

/-- A node that answers nothing, and one that asks the first message of its answer. -/
def answered : List TreeRequestRecord :=
  [{ bareRecord "early" 100 with
      requestMessages := []
      responseMessages := [bareMessage, bareMessage] },
    bareRecord "late" 200]

/-- The empty prefix is the input of the earlier node, which is no parent. -/
theorem no_parent_of_empty_input :
    (attempts chainSha256 answered).deriveSessionAncestry "session" =
      .ok [("early", noParent), ("late", noParent)] ∧
    Precedes (attempts chainSha256 answered) "session" "early" "late" ∧
    (talkOf (accepted chainSha256 {} answered) "late").Has
      (talkOf (accepted chainSha256 {} answered) "early") 0 false := by
  refine ⟨by decide +kernel, precedes_iff.mpr ?_, by decide +kernel⟩
  decide +kernel

end Tokn.Persistence
