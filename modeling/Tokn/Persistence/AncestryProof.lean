import Tokn.Lib.History
import Tokn.Lib.LongestPrefix
import Tokn.Persistence.StoredPrefixes

/-!
# Parents are those of the longest prefix

The anchors of a thread stand for the talks of its nodes so far: at a message, they have the last
talk that says all up to there, and the last one that has it as its input. Going up from the end of
an input is then the search for the longest prefix.
-/

namespace Tokn.Persistence

open LongestPrefix

variable {sha256 : Bytes → MessageId} {db : SessionsDb}

abbrev SessionTalk := Talk String MessageRecord

/-! ## Anchors -/

def anchorOf (t : SessionTalk) : Anchor := ⟨t.node, t.output.length⟩

/-- The last talk that says these messages, and the last one that has them as its input. -/
def lastSaid (talks : List SessionTalk) (path : List MessageRecord) : Option SessionTalk :=
  latest (fun t => decide (t.whole = path)) talks

def lastAsked (talks : List SessionTalk) (path : List MessageRecord) : Option SessionTalk :=
  latest (fun t => decide (t.input = path)) talks

/-- The anchors of a thread with these talks. -/
structure Represents (sha256 : Bytes → MessageId) (db : SessionsDb) (talks : List SessionTalk)
    (anchors : ThreadAnchors) : Prop where
  output : ∀ id path, Stored sha256 db (some id) path →
    anchors.output.get id = (lastSaid talks path).map anchorOf
  input : ∀ id path, Stored sha256 db (some id) path →
    anchors.input.get id = (lastAsked talks path).map anchorOf

/-- A node that is observed with its talk. -/
structure Observed (sha256 : Bytes → MessageId) (db : SessionsDb) (o : Observation)
    (t : SessionTalk) : Prop where
  node : o.nodeId = t.node
  input : o.inputCount = t.input.length
  output : o.outputCount = t.output.length
  stored : Stored sha256 db (some o.tipId) t.whole

theorem represents_nil : Represents sha256 db [] {} :=
  ⟨fun _ _ _ => rfl, fun _ _ _ => rfl⟩

/-- Two ids are the same where their paths are. -/
theorem Stored.eq_iff {id id' : MessageId} {path path' : List MessageRecord}
    (h : Stored sha256 db (some id) path) (h' : Stored sha256 db (some id') path') :
    id = id' ↔ path = path' := by
  constructor
  · rintro rfl
    exact h.unique h'
  · rintro rfl
    exact Option.some.inj (h.pathId_eq.symm.trans h'.pathId_eq)

namespace Observed

variable {o : Observation} {t : SessionTalk}

theorem length_eq (h : Observed sha256 db o t) :
    t.whole.length = o.inputCount + o.outputCount := by
  rw [h.input, h.output, Talk.whole, List.length_append]

/-- The prefixes of the input are those of the talk. -/
theorem take_input (t : SessionTalk) {k : Nat} (hk : k ≤ t.input.length) :
    t.whole.take k = t.input.take k := List.take_append_of_le_length hk

theorem stored_take (h : Observed sha256 db o t) {k : Nat} (hk : k ≤ t.input.length) :
    Stored sha256 db (pathId sha256 (t.input.take k)) (t.input.take k) := by
  rw [← take_input t hk]
  exact h.stored.take k

theorem whole_ne_nil (h : Observed sha256 db o t) : t.whole ≠ [] := by
  intro hnil
  have hstored := h.stored
  rw [hnil] at hstored
  have hid := hstored.pathId_eq
  cases hid

/-- **The end of the input.** -/
theorem inputTip_eq (h : Observed sha256 db o t) {tree : PrefixTree}
    (hloaded : Loaded sha256 tree t.whole) : inputTip tree o = .ok (pathId sha256 t.input) := by
  have htip := hloaded.inputTip_eq h.stored.pathId_eq h.length_eq h.whole_ne_nil
  rwa [h.input, take_input t le_rfl, List.take_length] at htip

end Observed

variable {talks : List SessionTalk} {anchors : ThreadAnchors} {tree : PrefixTree}

/-- **The anchors of one more node.** -/
theorem Represents.add (h : Represents sha256 db talks anchors) {o : Observation} {t : SessionTalk}
    (hobserved : Observed sha256 db o t) :
    Represents sha256 db (talks ++ [t]) (anchors.add o (pathId sha256 t.input)) := by
  have hanchor : (⟨o.nodeId, o.outputCount⟩ : Anchor) = anchorOf t := by
    rw [hobserved.node, hobserved.output, anchorOf]
  constructor
  · intro id path hpath
    rw [ThreadAnchors.add, Table.get_set, hanchor, lastSaid, latest_concat]
    by_cases hid : id = o.tipId
    · have hwhole := (hpath.eq_iff hobserved.stored).mp hid
      rw [if_pos hid, if_pos (decide_eq_true hwhole.symm), Option.map_some]
    · have hwhole : ¬ t.whole = path := fun heq =>
        hid ((hpath.eq_iff hobserved.stored).mpr heq.symm)
      rw [if_neg hid, if_neg (by simpa using hwhole)]
      exact h.output id path hpath
  · intro id path hpath
    have hstored := hobserved.stored_take le_rfl
    rw [List.take_length] at hstored
    rw [lastAsked, latest_concat]
    cases htip : pathId sha256 t.input with
    | none =>
      have hinput : ¬ t.input = path := by
        rintro rfl
        rw [hpath.pathId_eq] at htip
        cases htip
      rw [if_neg (by simpa using hinput)]
      exact h.input id path hpath
    | some tip =>
      rw [htip] at hstored
      show (anchors.input.set tip ⟨o.nodeId, o.outputCount⟩).get id = _
      rw [Table.get_set, hanchor]
      by_cases hid : id = tip
      · have hinput := (hpath.eq_iff hstored).mp hid
        rw [if_pos hid, if_pos (decide_eq_true hinput.symm), Option.map_some]
      · have hinput : ¬ t.input = path := fun heq => hid ((hpath.eq_iff hstored).mpr heq.symm)
        rw [if_neg hid, if_neg (by simpa using hinput)]
        exact h.input id path hpath

/-! ## Searching -/

/-- What is derived of what the search finds. -/
def derivedOf : Option (SessionTalk × Nat × Bool) → DerivedAncestry
  | some (t, k, said) =>
    ⟨some t.node,
      if said = true ∨ t.output = [] then "message_ancestor" else "input_ancestor", k⟩
  | none => noParent

/-- What there is at one message, by the talks. -/
theorem Represents.anchorAt_eq (h : Represents sha256 db talks anchors) {o : Observation}
    {t : SessionTalk} (hobserved : Observed sha256 db o t) {k : Nat} (hk : k ≤ t.input.length)
    {id : MessageId} (hid : pathId sha256 (t.input.take k) = some id)
    (parentId : Option MessageId) :
    anchorAt anchors o id ⟨parentId, k⟩ =
      match lookup talks t k true with
      | some found => some (derivedOf (some (found, k, true)))
      | none => (lookup talks t k false).map fun found => derivedOf (some (found, k, false)) := by
  have hstored := hobserved.stored_take hk
  rw [hid] at hstored
  have hsaid : lookup talks t k true = lastSaid talks (t.input.take k) := rfl
  rw [anchorAt, h.output id _ hstored, h.input id _ hstored, hsaid, hobserved.input]
  cases lastSaid talks (t.input.take k) with
  | some found => rfl
  | none =>
    by_cases hshort : k < t.input.length
    · have hasked : lookup talks t k false = lastAsked talks (t.input.take k) := by
        rw [lookup, lastAsked]
        congr 1
        funext found
        exact decide_eq_decide.mpr (and_iff_right hshort)
      simp [hshort, hasked, anchorOf, derivedOf, List.length_eq_zero_iff, Function.comp_def]
    · have hnone : lookup talks t k false = none := by
        refine latest_eq_none.mpr fun found _ hhas => ?_
        exact hshort (of_decide_eq_true hhas).1
      simp [hshort, hnone]

/-- **Going up is searching.** The messages that have been visited are those of longer prefixes. -/
theorem Represents.findParentLoop_eq (h : Represents sha256 db talks anchors) {o : Observation}
    {t : SessionTalk} (hobserved : Observed sha256 db o t) (hloaded : Loaded sha256 tree t.whole)
    {k fuel : Nat} (hpos : 0 < k) (hk : k ≤ t.input.length) (hfuel : k ≤ fuel)
    {visited : List MessageId} {id : MessageId} (hid : pathId sha256 (t.input.take k) = some id)
    (hvisited : ∀ v ∈ visited, ∃ j, k < j ∧ j ≤ t.input.length ∧
      pathId sha256 (t.input.take j) = some v) :
    findParentLoop tree anchors o fuel visited id = .ok (derivedOf (search talks t k)) := by
  induction k generalizing fuel visited id with
  | zero => exact absurd hpos (Nat.lt_irrefl 0)
  | succ k ih =>
    obtain ⟨fuel, rfl⟩ : ∃ n, fuel = n + 1 := ⟨fuel - 1, by omega⟩
    have hwhole : t.whole.length = t.input.length + t.output.length := List.length_append
    have hin : k + 1 ≤ t.whole.length := by omega
    have htake {j : Nat} (hj : j ≤ t.input.length) := Observed.take_input t hj
    have hnew : ¬ id ∈ visited := by
      intro hmem
      obtain ⟨j, hlonger, hj, hv⟩ := hvisited id hmem
      rw [← htake hj] at hv
      rw [← htake hk] at hid
      have hsame := hobserved.stored.pathId_inj (by omega) (by omega) (hv.trans hid.symm)
      omega
    have hid' : pathId sha256 (t.whole.take (k + 1)) = some id := by rw [htake hk, hid]
    have hget := hloaded.get hpos hin hid'
    have hparent := hloaded.checkedParent_eq hpos hin hid'
    have hanchor := h.anchorAt_eq hobserved hk hid (pathId sha256 (t.whole.take (k + 1 - 1)))
    rw [findParentLoop, if_neg hnew, hget, search]
    simp only [Option.elim, bind, Except.bind, hanchor, hparent]
    cases lookup talks t (k + 1) true with
    | some found => rfl
    | none =>
      cases lookup talks t (k + 1) false with
      | some found => rfl
      | none =>
        by_cases hfirst : k = 0
        · subst hfirst
          rfl
        · obtain ⟨parentId, hparentId, -⟩ := hloaded k (by omega) (by omega)
          dsimp only [Option.map_none]
          rw [Nat.add_sub_cancel, hparentId]
          refine ih (by omega) (by omega) (by omega) ?_ ?_
          · rw [← htake (by omega), hparentId]
          · intro v hv
            rcases List.mem_cons.mp hv with rfl | hv
            · exact ⟨k + 1, Nat.lt_succ_self k, hk, hid⟩
            · obtain ⟨j, hlonger, hj, hpath⟩ := hvisited v hv
              exact ⟨j, by omega, hj, hpath⟩

/-- A path that is loaded is not longer than the tree. -/
theorem Loaded.length_le {path : List MessageRecord} (h : Loaded sha256 tree path)
    {tip : Option MessageId} (hstored : Stored sha256 db tip path) : path.length ≤ tree.length := by
  rw [← @length_prefixIds sha256 path]
  refine length_le_of_get hstored.nodup_prefixIds ?_
  intro id hid
  obtain ⟨k, hpos, hk, hpath⟩ := mem_prefixIds.mp hid
  rw [h.get hpos hk hpath, Option.isSome_some]

theorem Represents.findParent_eq (h : Represents sha256 db talks anchors) {o : Observation}
    {t : SessionTalk} (hobserved : Observed sha256 db o t) (hloaded : Loaded sha256 tree t.whole) :
    findParent tree anchors o (pathId sha256 t.input) =
      .ok (derivedOf (search talks t t.input.length)) := by
  by_cases hinput : t.input = []
  · rw [hinput]
    rfl
  · obtain ⟨id, hid⟩ := @exists_pathId sha256 _ hinput
    have hwhole : t.whole.length = t.input.length + t.output.length := List.length_append
    have hfuel := hloaded.length_le hobserved.stored
    rw [hid, findParent]
    refine h.findParentLoop_eq hobserved hloaded (List.length_pos_iff.mpr hinput) le_rfl
      (by omega) ?_ (by simp)
    rw [List.take_length, hid]

/-! ## Runs -/

/-- The talks of the observations of one thread. -/
def threadTalks (talk : String → SessionTalk) (thread : String) (observations : List Observation) :
    List SessionTalk :=
  (observations.filter fun o => o.threadId = thread).map fun o => talk o.nodeId

theorem threadTalks_concat (talk : String → SessionTalk) (thread : String)
    (observations : List Observation) (o : Observation) :
    threadTalks talk thread (observations ++ [o]) =
      if o.threadId = thread then threadTalks talk thread observations ++ [talk o.nodeId]
      else threadTalks talk thread observations := by
  by_cases h : o.threadId = thread <;> simp [threadTalks, h]

/-- What is derived for an observation after others. -/
def expected (talk : String → SessionTalk) (before : List Observation) (o : Observation) :
    DerivedAncestry :=
  derivedOf (search (threadTalks talk o.threadId before) (talk o.nodeId)
    (talk o.nodeId).input.length)

/-- The maps after some observations. -/
structure Derives (sha256 : Bytes → MessageId) (db : SessionsDb) (talk : String → SessionTalk)
    (observations : List Observation) (d : Derivation) : Prop where
  anchors : ∀ thread, Represents sha256 db (threadTalks talk thread observations)
    ((d.anchorsByThread.get thread).getD {})
  ancestry : History.Each (fun before o => d.ancestry.get o.nodeId = some (expected talk before o))
    observations
  observed : ∀ id derived, d.ancestry.get id = some derived → ∃ o ∈ observations, o.nodeId = id

theorem derives_nil (talk : String → SessionTalk) : Derives sha256 db talk [] {} :=
  ⟨fun _ => represents_nil, History.each_nil _, fun _ _ h => by cases h⟩

variable {talk : String → SessionTalk}

/-- **One observation.** -/
theorem Derives.observe {observations : List Observation} {d : Derivation}
    (h : Derives sha256 db talk observations d) {o : Observation}
    (hnew : ∀ o' ∈ observations, o'.nodeId ≠ o.nodeId)
    (hobserved : Observed sha256 db o (talk o.nodeId))
    (hloaded : Loaded sha256 tree (talk o.nodeId).whole) :
    ∃ d', d.observe tree o = .ok d' ∧ Derives sha256 db talk (observations ++ [o]) d' := by
  have hanchors := h.anchors o.threadId
  have htip := hobserved.inputTip_eq hloaded
  have hparent := hanchors.findParent_eq hobserved hloaded
  refine ⟨⟨d.anchorsByThread.set o.threadId
    (((d.anchorsByThread.get o.threadId).getD {}).add o (pathId sha256 (talk o.nodeId).input)),
    d.ancestry.set o.nodeId (expected talk observations o)⟩, ?_, ⟨?_, ?_, ?_⟩⟩
  · rw [Derivation.observe, htip]
    show (findParent tree _ o _ >>= _) = _
    rw [hparent]
    rfl
  · intro thread
    rw [Table.get_set, threadTalks_concat]
    by_cases hthread : thread = o.threadId
    · rw [if_pos hthread, if_pos hthread.symm, hthread]
      exact hanchors.add hobserved
    · rw [if_neg hthread, if_neg (Ne.symm hthread)]
      exact h.anchors thread
  · refine History.each_concat.mpr ⟨?_, ?_⟩
    · intro before o' after hsplit
      have hmem : o' ∈ observations := by
        rw [hsplit]
        exact List.mem_append_right _ List.mem_cons_self
      rw [Table.get_set, if_neg (hnew o' hmem)]
      exact h.ancestry before o' after hsplit
    · rw [Table.get_set, if_pos rfl]
  · intro id derived hget
    rw [Table.get_set] at hget
    by_cases hid : id = o.nodeId
    · exact ⟨o, by simp, hid.symm⟩
    · rw [if_neg hid] at hget
      obtain ⟨o', ho', hnode⟩ := h.observed id derived hget
      exact ⟨o', List.mem_append_left _ ho', hnode⟩

/-- **A whole run.** -/
theorem exists_derives (observations : List Observation)
    (hnodup : (observations.map (·.nodeId)).Nodup)
    (hall : ∀ o ∈ observations, Observed sha256 db o (talk o.nodeId) ∧
      Loaded sha256 tree (talk o.nodeId).whole) :
    ∃ d, observations.foldlM (Derivation.observe tree) {} = .ok d ∧
      Derives sha256 db talk observations d := by
  induction observations using List.reverseRecOn with
  | nil => exact ⟨{}, rfl, derives_nil talk⟩
  | append_singleton observations o ih =>
    rw [List.map_append, List.nodup_append] at hnodup
    obtain ⟨hbefore, -, hdisjoint⟩ := hnodup
    obtain ⟨d, hd, hderives⟩ := ih hbefore fun o' ho' => hall o' (List.mem_append_left _ ho')
    have hnew : ∀ o' ∈ observations, o'.nodeId ≠ o.nodeId := by
      intro o' ho'
      exact hdisjoint _ (List.mem_map_of_mem ho') _ (by simp)
    obtain ⟨hobserved, hloaded⟩ := hall o (List.mem_append_right _ (List.mem_singleton_self o))
    obtain ⟨d', hd', hderives'⟩ := hderives.observe hnew hobserved hloaded
    refine ⟨d', ?_, hderives'⟩
    rw [List.foldlM_append, hd]
    show ([o].foldlM (Derivation.observe tree) d) = _
    rw [List.foldlM_cons, hd']
    rfl

end Tokn.Persistence
