import Mathlib.Data.List.Sort
import Tokn.Persistence.Sessions

/-!
# Parents of the nodes of a session

`crates/persistence/src/viewer/sessions/ancestry.rs`. The nodes of a session are gone through in the
order of time, row and id. Each thread has two maps of anchors: the last node that reached a message
with all that it says, and the last one that did so with its input. From the end of its own input, a
node looks for an anchor on the way up to the root.

The counts of a node are columns of `i64`, so that their sum does not overflow a `u64`.
-/

namespace Tokn.Persistence

/-! ## Prefix trees -/

structure PrefixNode where
  parentId : Option MessageId
  depth : Nat
  deriving DecidableEq

abbrev PrefixTree := Table MessageId PrefixNode

def invalidTree (id : MessageId) : Error := .invalidMessageTree (encodeMessageId id)

namespace SessionsDb

variable (db : SessionsDb)

/-- The rows from a message up, as far as there are rows. -/
def pathRows : Nat → Option MessageId → List (MessageId × MessageRow)
  | _, none => []
  | 0, some _ => []
  | fuel + 1, some id =>
    match db.messageTree.get id with
    | none => []
    | some row => (id, row) :: pathRows fuel row.parentId

/-- The recursive query. A row that is reached at all is reached in as many steps as there are
rows. -/
def prefixRows (sessionId : String) : List (MessageId × MessageRow) :=
  (db.sessionNodes.filter fun e => e.2.sessionId = sessionId).flatMap fun e =>
    db.pathRows db.messageTree.length (some e.2.messageId)

end SessionsDb

/-- One row of `load_prefix_tree`. -/
def loadPrefixNode (tree : PrefixTree) (row : MessageId × MessageRow) : Except Error PrefixTree :=
  if row.2.depth = 0 then .error (invalidTree row.1)
  else .ok (tree.set row.1 ⟨row.2.parentId, row.2.depth⟩)

def SessionsDb.loadPrefixTree (db : SessionsDb) (sessionId : String) : Except Error PrefixTree :=
  (db.prefixRows sessionId).foldlM loadPrefixNode []

/-! ## Observations -/

structure Observation where
  nodeId : String
  threadId : String
  ts : Int
  rowId : Nat
  tipId : MessageId
  inputCount : Nat
  outputCount : Nat
  deriving DecidableEq

/-- The order of time, row and id. -/
def Observation.le (a b : Observation) : Prop :=
  a.ts < b.ts ∨ a.ts = b.ts ∧ (a.rowId < b.rowId ∨ a.rowId = b.rowId ∧ a.nodeId ≤ b.nodeId)

instance : DecidableRel Observation.le := fun a b =>
  inferInstanceAs (Decidable (a.ts < b.ts ∨
    a.ts = b.ts ∧ (a.rowId < b.rowId ∨ a.rowId = b.rowId ∧ a.nodeId ≤ b.nodeId)))

/-- The rows of a table are numbered from one on. -/
def observationOf (e : (String × NodeRow) × Nat) : Observation where
  nodeId := e.1.1
  threadId := e.1.2.threadId
  ts := e.1.2.ts
  rowId := e.2
  tipId := e.1.2.messageId
  inputCount := e.1.2.inputMessageCount
  outputCount := e.1.2.outputMessageCount

def SessionsDb.loadObservations (db : SessionsDb) (sessionId : String) : List Observation :=
  ((db.sessionNodes.zipIdx 1).filter fun e => e.1.2.sessionId = sessionId).map observationOf

/-! ## Anchors -/

structure Anchor where
  nodeId : String
  outputCount : Nat
  deriving DecidableEq

structure ThreadAnchors where
  input : Table MessageId Anchor := []
  output : Table MessageId Anchor := []
  deriving DecidableEq

structure DerivedAncestry where
  parentNodeId : Option String
  parentSource : String
  commonPrefixMessages : Nat
  deriving DecidableEq

def noParent : DerivedAncestry := ⟨none, "none", 0⟩

def checkedParent (tree : PrefixTree) (id : MessageId) : Except Error (Option MessageId) :=
  match tree.get id with
  | none => .error (invalidTree id)
  | some node =>
    match node.parentId with
    | some parentId =>
      match tree.get parentId with
      | none => .error (invalidTree id)
      | some parent =>
        if parent.depth + 1 ≠ node.depth then .error (invalidTree id) else .ok (some parentId)
    | none => if node.depth = 1 then .ok none else .error (invalidTree id)

/-- The loop of `input_tip`, with as many steps up as there are messages in the output. -/
def climb (tree : PrefixTree) (tipId : MessageId) :
    Nat → Option MessageId → Except Error (Option MessageId)
  | 0, current => .ok current
  | steps + 1, current => do
    let id ← current.elim (.error (invalidTree tipId)) .ok
    climb tree tipId steps (← checkedParent tree id)

def inputTip (tree : PrefixTree) (o : Observation) : Except Error (Option MessageId) := do
  let tip ← (tree.get o.tipId).elim (.error (invalidTree o.tipId)) .ok
  if tip.depth ≠ o.inputCount + o.outputCount then throw (invalidTree o.tipId)
  match o.inputCount, ← climb tree o.tipId o.outputCount (some o.tipId) with
  | 0, none => return none
  | 0, some _ => throw (invalidTree o.tipId)
  | _ + 1, none => throw (invalidTree o.tipId)
  | inputCount + 1, some inputTip =>
    let node ← (tree.get inputTip).elim (.error (invalidTree o.tipId)) .ok
    if node.depth = inputCount + 1 then return some inputTip else throw (invalidTree o.tipId)

/-- What `find_parent` finds at a message. -/
def anchorAt (anchors : ThreadAnchors) (o : Observation) (id : MessageId) (node : PrefixNode) :
    Option DerivedAncestry :=
  match anchors.output.get id with
  | some anchor => some ⟨some anchor.nodeId, "message_ancestor", node.depth⟩
  | none =>
    if node.depth < o.inputCount then
      (anchors.input.get id).map fun anchor =>
        ⟨some anchor.nodeId,
          if anchor.outputCount = 0 then "message_ancestor" else "input_ancestor", node.depth⟩
    else none

/-- The loop of `find_parent`. Every message that has been visited is in the tree, so that there are
not more steps than the tree has nodes. -/
def findParentLoop (tree : PrefixTree) (anchors : ThreadAnchors) (o : Observation) :
    Nat → List MessageId → MessageId → Except Error DerivedAncestry
  | 0, _, _ => .error (invalidTree o.tipId)
  | fuel + 1, visited, current => do
    if current ∈ visited then throw (invalidTree o.tipId)
    let node ← (tree.get current).elim (.error (invalidTree o.tipId)) .ok
    match anchorAt anchors o current node with
    | some derived => return derived
    | none =>
      match ← checkedParent tree current with
      | none => return noParent
      | some parentId => findParentLoop tree anchors o fuel (current :: visited) parentId

def findParent (tree : PrefixTree) (anchors : ThreadAnchors) (o : Observation)
    (inputTip : Option MessageId) : Except Error DerivedAncestry :=
  match inputTip with
  | none => .ok noParent
  | some current => findParentLoop tree anchors o (tree.length + 1) [] current

/-! ## The derivation -/

/-- The maps of `derive_session_ancestry`. -/
structure Derivation where
  anchorsByThread : Table String ThreadAnchors := []
  ancestry : Table String DerivedAncestry := []
  deriving DecidableEq

/-- The anchors with those of one more node. -/
def ThreadAnchors.add (anchors : ThreadAnchors) (o : Observation) (inputTip : Option MessageId) :
    ThreadAnchors where
  input := inputTip.elim anchors.input fun tip => anchors.input.set tip ⟨o.nodeId, o.outputCount⟩
  output := anchors.output.set o.tipId ⟨o.nodeId, o.outputCount⟩

/-- One observation of `derive_session_ancestry`. -/
def Derivation.observe (tree : PrefixTree) (d : Derivation) (o : Observation) :
    Except Error Derivation := do
  let inputTip ← inputTip tree o
  let anchors := (d.anchorsByThread.get o.threadId).getD {}
  let derived ← findParent tree anchors o inputTip
  return {
    anchorsByThread := d.anchorsByThread.set o.threadId (anchors.add o inputTip)
    ancestry := d.ancestry.set o.nodeId derived }

def SessionsDb.deriveSessionAncestry (db : SessionsDb) (sessionId : String) :
    Except Error (Table String DerivedAncestry) := do
  let tree ← db.loadPrefixTree sessionId
  let observations := (db.loadObservations sessionId).insertionSort Observation.le
  let derivation ← observations.foldlM (Derivation.observe tree) {}
  return derivation.ancestry

end Tokn.Persistence
