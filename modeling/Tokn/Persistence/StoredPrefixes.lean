import Tokn.Persistence.Ancestry
import Tokn.Persistence.MessageTree

/-!
# Prefixes in the tree of a session

What `load_prefix_tree` reads of a store that `record_tree` has written: each prefix of a stored
conversation with its length, under its own id and below the prefix that is one message shorter. So
`checked_parent` drops the last message of a prefix, and `input_tip` drops the output of a
conversation.
-/

namespace Tokn.Persistence

variable {sha256 : Bytes → MessageId} {db : SessionsDb}

/-! ## Rows of prefixes -/

/-- A table has as many rows as it has keys at least. -/
theorem length_le_of_get {κ ρ : Type} [DecidableEq κ] {t : Table κ ρ} {ids : List κ}
    (hnodup : ids.Nodup) (h : ∀ id ∈ ids, (t.get id).isSome = true) : ids.length ≤ t.length := by
  have hsubset : ids ⊆ t.map Prod.fst := by
    intro id hid
    obtain ⟨row, hrow⟩ := Option.isSome_iff_exists.mp (h id hid)
    exact List.mem_map_of_mem (BTreeMap.mem_of_get hrow)
  have hlength := (hnodup.subperm hsubset).length_le
  rwa [List.length_map] at hlength

variable {tip : Option MessageId}

/-- Prefixes have different ids. -/
theorem Stored.pathId_inj {path : List MessageRecord} (h : Stored sha256 db tip path) {i j : Nat}
    (hi : i ≤ path.length) (hj : j ≤ path.length)
    (heq : pathId sha256 (path.take i) = pathId sha256 (path.take j)) : i = j := by
  have htake := h.take i
  rw [heq] at htake
  have hlength := congrArg List.length (htake.unique (h.take j))
  rwa [List.length_take_of_le hi, List.length_take_of_le hj] at hlength

theorem pathId_concat (path : List MessageRecord) (message : MessageRecord) :
    pathId sha256 (path ++ [message]) =
      some (hashPrefix sha256 (pathId sha256 path) (hashMessage sha256 message)) := by
  rw [pathId, List.foldl_concat, ← pathId]

/-- A prefix that is not empty has an id. -/
theorem exists_pathId {path : List MessageRecord} (h : path ≠ []) :
    ∃ id, pathId sha256 path = some id := by
  rcases List.eq_nil_or_concat path with rfl | ⟨before, message, rfl⟩
  · exact absurd rfl h
  · rw [List.concat_eq_append]
    exact ⟨_, pathId_concat before message⟩

/-- The ids of the prefixes, the shortest first. -/
def prefixIds (sha256 : Bytes → MessageId) (path : List MessageRecord) : List MessageId :=
  (List.range path.length).filterMap fun i => pathId sha256 (path.take (i + 1))

theorem mem_prefixIds {path : List MessageRecord} {id : MessageId} :
    id ∈ prefixIds sha256 path ↔
      ∃ k, 0 < k ∧ k ≤ path.length ∧ pathId sha256 (path.take k) = some id := by
  rw [prefixIds, List.mem_filterMap]
  constructor
  · rintro ⟨i, hi, hid⟩
    exact ⟨i + 1, Nat.succ_pos i, List.mem_range.mp hi, hid⟩
  · rintro ⟨k, hpos, hk, hid⟩
    refine ⟨k - 1, List.mem_range.mpr (by omega), ?_⟩
    rwa [Nat.sub_add_cancel hpos]

theorem length_prefixIds (path : List MessageRecord) :
    (prefixIds sha256 path).length = path.length := by
  have hsome : ∀ i ∈ List.range path.length,
      (pathId sha256 (path.take (i + 1))).isSome = true := by
    intro i hi
    have hne : path.take (i + 1) ≠ [] := by
      intro hnil
      have hlength := congrArg List.length hnil
      rw [List.length_take_of_le (List.mem_range.mp hi), List.length_nil] at hlength
      exact Nat.succ_ne_zero i hlength
    obtain ⟨id, hid⟩ := @exists_pathId sha256 _ hne
    rw [hid, Option.isSome_some]
  rw [prefixIds, List.length_filterMap_eq_countP, List.countP_eq_length.mpr hsome,
    List.length_range]

theorem Stored.nodup_prefixIds {path : List MessageRecord} (h : Stored sha256 db tip path) :
    (prefixIds sha256 path).Nodup := by
  rw [prefixIds, List.Nodup, List.pairwise_filterMap]
  refine List.nodup_range.imp_of_mem ?_
  rintro i j hi hj hne id hid _ hid' rfl
  rw [List.mem_range] at hi hj
  have hij := h.pathId_inj hi hj (hid.trans hid'.symm)
  exact hne (Nat.succ_injective hij)

theorem Stored.isSome_get {path : List MessageRecord} (h : Stored sha256 db tip path)
    {id : MessageId} (hid : id ∈ prefixIds sha256 path) :
    (db.messageTree.get id).isSome = true := by
  obtain ⟨k, hpos, hk, hpath⟩ := mem_prefixIds.mp hid
  have htake := h.take k
  rw [hpath] at htake
  generalize path.take k = start at htake
  cases htake with
  | child hparent hrow hparts => rw [hrow, Option.isSome_some]

/-- A stored path is not longer than the table. -/
theorem Stored.length_le {path : List MessageRecord} (h : Stored sha256 db tip path) :
    path.length ≤ db.messageTree.length := by
  rw [← @length_prefixIds sha256 path]
  exact length_le_of_get h.nodup_prefixIds fun _ => h.isSome_get

/-! ## Loading -/

theorem get_of_mem_pathRows {fuel : Nat} {e : MessageId × MessageRow}
    (h : e ∈ db.pathRows fuel tip) : db.messageTree.get e.1 = some e.2 := by
  induction fuel generalizing tip with
  | zero => cases tip <;> cases h
  | succ fuel ih =>
    cases tip with
    | none => cases h
    | some id =>
      rw [SessionsDb.pathRows] at h
      cases hrow : db.messageTree.get id with
      | none =>
        rw [hrow] at h
        cases h
      | some row =>
        rw [hrow] at h
        rcases List.mem_cons.mp h with rfl | h
        · exact hrow
        · exact ih h

/-- The rows from a stored path up are those of its prefixes. -/
theorem Stored.mem_pathRows {path : List MessageRecord} (h : Stored sha256 db tip path) {fuel : Nat}
    (hfuel : path.length ≤ fuel) {k : Nat} (hpos : 0 < k) (hk : k ≤ path.length) :
    ∃ id row, pathId sha256 (path.take k) = some id ∧ (id, row) ∈ db.pathRows fuel tip ∧
      row.parentId = pathId sha256 (path.take (k - 1)) ∧ row.depth = k := by
  induction h generalizing fuel with
  | root => exact absurd hk (Nat.not_le.mpr hpos)
  | @child parentId path message hpath hrow hparts ih =>
    rw [List.length_append, List.length_singleton] at hfuel hk
    obtain ⟨fuel, rfl⟩ : ∃ n, fuel = n + 1 := ⟨fuel - 1, by omega⟩
    rw [SessionsDb.pathRows, hrow]
    by_cases hlast : k = path.length + 1
    · subst hlast
      refine ⟨_, _, ?_, List.mem_cons_self, ?_, rfl⟩
      · rw [List.take_of_length_le (by simp), pathId_concat, hpath.pathId_eq]
      · rw [Nat.add_sub_cancel, List.take_left, hpath.pathId_eq]
        rfl
    · obtain ⟨id, row, hid, hmem, hparent, hdepth⟩ := @ih fuel (by omega) (by omega)
      refine ⟨id, row, ?_, List.mem_cons_of_mem _ hmem, ?_, hdepth⟩
      · rw [List.take_append_of_le_length (by omega), hid]
      · rw [List.take_append_of_le_length (by omega), hparent]

/-- Rows of one table are loaded as they are. -/
theorem exists_foldlM_loadPrefixNode {rows : List (MessageId × MessageRow)}
    (hrows : ∀ e ∈ rows, db.messageTree.get e.1 = some e.2) (hdepth : ∀ e ∈ rows, e.2.depth ≠ 0) :
    ∃ tree, rows.foldlM loadPrefixNode [] = .ok tree ∧
      ∀ e ∈ rows, tree.get e.1 = some ⟨e.2.parentId, e.2.depth⟩ := by
  induction rows using List.reverseRecOn with
  | nil => exact ⟨[], rfl, by simp⟩
  | append_singleton rows last ih =>
    obtain ⟨tree, htree, hget⟩ := ih (fun e he => hrows e (List.mem_append_left _ he))
      fun e he => hdepth e (List.mem_append_left _ he)
    have hlast := List.mem_append_right rows (List.mem_singleton_self last)
    refine ⟨tree.set last.1 ⟨last.2.parentId, last.2.depth⟩, ?_, ?_⟩
    · rw [List.foldlM_append, htree]
      simp [loadPrefixNode, hdepth last hlast, bind, Except.bind, pure, Except.pure]
    · intro e he
      rw [Table.get_set]
      by_cases hsame : e.1 = last.1
      · have hrow := hrows e he
        rw [hsame, hrows last hlast] at hrow
        rw [if_pos hsame, Option.some.inj hrow]
      · rw [if_neg hsame]
        rcases List.mem_append.mp he with he | he
        · exact hget e he
        · exact absurd (congrArg Prod.fst (List.mem_singleton.mp he)) hsame

theorem depth_ne_zero (hall : AllStored sha256 db) {id : MessageId} {row : MessageRow}
    (h : db.messageTree.get id = some row) : row.depth ≠ 0 := by
  obtain ⟨path, hpath⟩ := hall id row h
  cases hpath with
  | child hparent hrow hparts =>
    rw [h] at hrow
    cases hrow
    exact Nat.succ_ne_zero _

theorem exists_loadPrefixTree (hall : AllStored sha256 db) (sessionId : String) :
    ∃ tree, db.loadPrefixTree sessionId = .ok tree ∧
      ∀ e ∈ db.prefixRows sessionId, tree.get e.1 = some ⟨e.2.parentId, e.2.depth⟩ := by
  have hrows : ∀ e ∈ db.prefixRows sessionId, db.messageTree.get e.1 = some e.2 := by
    intro e he
    obtain ⟨node, -, hmem⟩ := List.mem_flatMap.mp he
    exact get_of_mem_pathRows hmem
  exact exists_foldlM_loadPrefixNode hrows fun e he => depth_ne_zero hall (hrows e he)

/-- The prefixes of a path are in a prefix tree, each below the one that is a message shorter. -/
def Loaded (sha256 : Bytes → MessageId) (tree : PrefixTree) (path : List MessageRecord) : Prop :=
  ∀ k, 0 < k → k ≤ path.length → ∃ id, pathId sha256 (path.take k) = some id ∧
    tree.get id = some ⟨pathId sha256 (path.take (k - 1)), k⟩

theorem Stored.loaded {sessionId : String} {tree : PrefixTree}
    (htree : ∀ e ∈ db.prefixRows sessionId, tree.get e.1 = some ⟨e.2.parentId, e.2.depth⟩)
    {node : String × NodeRow} (hnode : node ∈ db.sessionNodes)
    (hsession : node.2.sessionId = sessionId) {path : List MessageRecord}
    (h : Stored sha256 db (some node.2.messageId) path) : Loaded sha256 tree path := by
  intro k hpos hk
  obtain ⟨id, row, hid, hmem, hparent, hdepth⟩ := h.mem_pathRows h.length_le hpos hk
  have hrows : (id, row) ∈ db.prefixRows sessionId := by
    refine List.mem_flatMap.mpr ⟨node, List.mem_filter.mpr ⟨hnode, ?_⟩, hmem⟩
    exact decide_eq_true hsession
  refine ⟨id, hid, ?_⟩
  rw [htree _ hrows, hparent, hdepth]

/-! ## Going up -/

namespace Loaded

variable {tree : PrefixTree} {path : List MessageRecord}

theorem get (h : Loaded sha256 tree path) {k : Nat} (hpos : 0 < k) (hk : k ≤ path.length)
    {id : MessageId} (hid : pathId sha256 (path.take k) = some id) :
    tree.get id = some ⟨pathId sha256 (path.take (k - 1)), k⟩ := by
  obtain ⟨id', hid', hget⟩ := h k hpos hk
  rw [hid] at hid'
  rw [Option.some.inj hid', hget]

/-- **One step up drops the last message.** -/
theorem checkedParent_eq (h : Loaded sha256 tree path) {k : Nat} (hpos : 0 < k)
    (hk : k ≤ path.length) {id : MessageId} (hid : pathId sha256 (path.take k) = some id) :
    checkedParent tree id = .ok (pathId sha256 (path.take (k - 1))) := by
  rw [checkedParent, h.get hpos hk hid]
  dsimp only
  by_cases hfirst : k = 1
  · subst hfirst
    rfl
  · obtain ⟨parentId, hparent⟩ := @exists_pathId sha256 (path.take (k - 1)) (by
      intro hnil
      have hlength := congrArg List.length hnil
      rw [List.length_take_of_le (by omega), List.length_nil] at hlength
      omega)
    have hget := h.get (by omega) (by omega) hparent
    rw [hparent]
    dsimp only
    rw [hget]
    dsimp only
    rw [if_neg (by omega)]

theorem climb_eq (h : Loaded sha256 tree path) (tipId : MessageId) {k steps : Nat}
    (hk : k + steps ≤ path.length) :
    climb tree tipId steps (pathId sha256 (path.take (k + steps))) =
      .ok (pathId sha256 (path.take k)) := by
  induction steps with
  | zero => rfl
  | succ steps ih =>
    obtain ⟨id, hid, -⟩ := h (k + (steps + 1)) (by omega) hk
    have hparent := h.checkedParent_eq (by omega) hk hid
    rw [hid, climb]
    show (checkedParent tree id >>= climb tree tipId steps) = _
    rw [hparent]
    exact ih (by omega)

/-- The end of the input is the conversation without the output. -/
theorem inputTip_eq (h : Loaded sha256 tree path) {o : Observation}
    (htip : pathId sha256 path = some o.tipId) (hlength : path.length = o.inputCount + o.outputCount)
    (hne : path ≠ []) : inputTip tree o = .ok (pathId sha256 (path.take o.inputCount)) := by
  have hpos : 0 < path.length := List.length_pos_iff.mpr hne
  have hget := h.get hpos le_rfl (by rw [List.take_length, htip])
  have hclimb := h.climb_eq o.tipId (Nat.le_of_eq hlength.symm)
  rw [← hlength, List.take_length, htip] at hclimb
  rw [inputTip, hget]
  simp only [Option.elim, bind, Except.bind, hlength, ne_eq, not_true, if_false, hclimb]
  cases hcount : o.inputCount with
  | zero => rfl
  | succ inputCount =>
    obtain ⟨id, hid, hrow⟩ := h (inputCount + 1) (Nat.succ_pos inputCount) (by omega)
    simp [hid, hrow, pure, Except.pure]

end Loaded

end Tokn.Persistence
