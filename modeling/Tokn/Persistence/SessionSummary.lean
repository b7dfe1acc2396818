import Mathlib.Order.Bounds.Basic
import Tokn.Persistence.SessionWrites

/-!
# The summary of a session

The row of a session keeps when it was first and last seen, its head the latest node. What they
say depends on the order in which the requests of the session are recorded.

**Theorem (`summary_order_iff`).** Two orders of the same records leave the same summary, the true
one, if and only if each of them begins with an earliest record and ends with a latest one, and
they agree on which of the latest comes last.
-/

namespace Tokn.Persistence

variable {sha256 : Bytes → MessageId} {db db' : SessionsDb} {r : TreeRequestRecord}

/-! ## The rows of a session -/

/-- What a call does to the row and the head of a session. -/
theorem recordTree_summary (h : db.recordTree r sha256 = .ok db') (hr : r.isEmpty = false) :
    db'.sessions = (db.upsertSession r).sessions ∧
      db'.sessionHeads = (db.upsertHead r).sessionHeads := by
  obtain ⟨input, output, messageId, db₁, hinput, houtput, -, hnode, rfl⟩ := recordTree_ok h hr
  have hsummaries : output.db.summaries = db.summaries :=
    (summaries_insertMessagePath houtput).trans (summaries_insertMessagePath hinput)
  have hsessions : output.db.sessions = db.sessions := congrArg Prod.fst hsummaries
  have hheads : output.db.sessionHeads = db.sessionHeads :=
    congrArg (fun t => t.2.2.2.1) hsummaries
  obtain ⟨hs, hh, -⟩ := upsertNode_frame hnode
  obtain ⟨hs', hh', -⟩ := upsertRelation_frame (db₁.upsertHead r) r
  refine ⟨?_, ?_⟩
  · rw [hs']
    show db₁.sessions = _
    rw [hs]
    show (output.db.upsertSession r).sessions = _
    rw [SessionsDb.upsertSession, SessionsDb.upsertSession, hsessions]
  · rw [hh']
    show (db₁.upsertHead r).sessionHeads = _
    rw [SessionsDb.upsertHead, SessionsDb.upsertHead, hh]
    show Table.upsert output.db.sessionHeads _ _ _ = _
    rw [hheads]

/-- The records of a session that are stored, in the order of their calls. -/
def storedOf (sessionId : String) (records : List TreeRequestRecord) : List TreeRequestRecord :=
  records.filter fun r => r.sessionId = sessionId ∧ r.isEmpty = false

/-- The last of some records that names something. -/
def lastNamed (name : TreeRequestRecord → Option String) (records : List TreeRequestRecord) :
    Option String :=
  records.reverse.findSome? name

/-- The row of a session after its records: that of the first one, with the time of the last. -/
def sessionRowOf (first last : TreeRequestRecord) (records : List TreeRequestRecord) :
    SessionRow where
  firstSeenTs := first.ts
  lastSeenTs := last.ts
  source := "header"
  accountId := lastNamed (·.accountId) records
  providerId := lastNamed (·.providerId) records
  model := lastNamed (·.model) records

/-- A latest record, and the last of them. -/
def IsLatest (r : TreeRequestRecord) (records : List TreeRequestRecord) : Prop :=
  ∃ before after, records = before ++ r :: after ∧ (∀ r' ∈ before, r'.ts ≤ r.ts) ∧
    ∀ r' ∈ after, r'.ts < r.ts

/-- What the database says of a session whose stored records are given. -/
structure Recorded (db : SessionsDb) (sessionId : String) (records : List TreeRequestRecord) :
    Prop where
  none : records = [] → db.sessions.get sessionId = none ∧ db.sessionHeads.get sessionId = none
  row : ∀ first ∈ records.head?, ∀ last ∈ records.getLast?,
    db.sessions.get sessionId = some (sessionRowOf first last records)
  head : ∀ r, IsLatest r records →
    db.sessionHeads.get sessionId = some { nodeId := r.requestId, updatedTs := r.ts }

theorem storedOf_concat (sessionId : String) (records : List TreeRequestRecord)
    (r : TreeRequestRecord) :
    storedOf sessionId (records ++ [r]) =
      storedOf sessionId records ++
        if r.sessionId = sessionId ∧ r.isEmpty = false then [r] else [] := by
  rw [storedOf, List.filter_append, storedOf]
  congr 1
  by_cases h : r.sessionId = sessionId ∧ r.isEmpty = false <;> simp [h]

theorem lastNamed_concat (name : TreeRequestRecord → Option String)
    (records : List TreeRequestRecord) (r : TreeRequestRecord) :
    lastNamed name (records ++ [r]) = (name r <|> lastNamed name records) := by
  rw [lastNamed, List.reverse_append, List.reverse_singleton, List.singleton_append,
    List.findSome?_cons]
  cases name r <;> rfl

variable {records : List TreeRequestRecord} {sessionId : String}

theorem isLatest_concat {r r' : TreeRequestRecord} :
    IsLatest r' (records ++ [r]) ↔
      (r' = r ∧ ∀ a ∈ records, a.ts ≤ r.ts) ∨ IsLatest r' records ∧ r.ts < r'.ts := by
  constructor
  · rintro ⟨before, after, hsplit, hbefore, hafter⟩
    rcases List.eq_nil_or_concat after with rfl | ⟨after', last, rfl⟩
    · obtain ⟨rfl, hlast⟩ := List.append_inj' hsplit rfl
      cases hlast
      exact Or.inl ⟨rfl, hbefore⟩
    · rw [List.concat_eq_append] at hsplit hafter
      rw [← List.cons_append, ← List.append_assoc] at hsplit
      obtain ⟨rfl, hlast⟩ := List.append_inj' hsplit rfl
      cases hlast
      exact Or.inr ⟨⟨before, after', rfl, hbefore, fun a ha => hafter a (by simp [ha])⟩,
        hafter r (by simp)⟩
  · rintro (⟨rfl, hall⟩ | ⟨⟨before, after, rfl, hbefore, hafter⟩, hlt⟩)
    · exact ⟨records, [], rfl, hall, by simp⟩
    · refine ⟨before, after ++ [r], by simp, hbefore, fun a ha => ?_⟩
      rcases List.mem_append.mp ha with h | h
      · exact hafter a h
      · rw [List.mem_singleton.mp h]
        exact hlt

theorem IsLatest.mem (h : IsLatest r records) : r ∈ records := by
  obtain ⟨before, after, rfl, -, -⟩ := h
  simp

theorem IsLatest.le (h : IsLatest r records) : ∀ a ∈ records, a.ts ≤ r.ts := by
  obtain ⟨before, after, rfl, hbefore, hafter⟩ := h
  intro a ha
  rcases List.mem_append.mp ha with h | h
  · exact hbefore a h
  · rcases List.mem_cons.mp h with rfl | h
    · exact le_rfl
    · exact (hafter a h).le

theorem exists_isLatest (h : records ≠ []) : ∃ r, IsLatest r records := by
  induction records using List.reverseRecOn with
  | nil => exact absurd rfl h
  | append_singleton records r ih =>
    rcases eq_or_ne records [] with rfl | hne
    · exact ⟨r, [], [], rfl, by simp, by simp⟩
    · obtain ⟨latest, hlatest⟩ := ih hne
      by_cases hle : latest.ts ≤ r.ts
      · exact ⟨r, isLatest_concat.mpr (Or.inl ⟨rfl, fun a ha => (hlatest.le a ha).trans hle⟩)⟩
      · exact ⟨latest, isLatest_concat.mpr (Or.inr ⟨hlatest, by omega⟩)⟩

/-- A call leaves the other sessions alone. -/
theorem recordTree_other (hcall : db.recordTree r sha256 = .ok db') (hr : r.isEmpty = false)
    (hne : sessionId ≠ r.sessionId) :
    db'.sessions.get sessionId = db.sessions.get sessionId ∧
      db'.sessionHeads.get sessionId = db.sessionHeads.get sessionId := by
  obtain ⟨hsessions, hheads⟩ := recordTree_summary hcall hr
  rw [hsessions, hheads, SessionsDb.upsertSession, SessionsDb.upsertHead]
  dsimp only
  rw [Table.get_upsert, Table.get_upsert, if_neg hne, if_neg hne]
  exact ⟨rfl, rfl⟩

/-- The row of a session after another record of it. -/
theorem Recorded.row_concat (h : Recorded db r.sessionId records)
    (hcall : db.recordTree r sha256 = .ok db') (hr : r.isEmpty = false) {first : TreeRequestRecord}
    (hfirst : first ∈ (records ++ [r]).head?) :
    db'.sessions.get r.sessionId = some (sessionRowOf first r (records ++ [r])) := by
  rw [(recordTree_summary hcall hr).1, SessionsDb.upsertSession]
  dsimp only
  rw [Table.get_upsert, if_pos rfl, sessionRowOf, lastNamed_concat, lastNamed_concat,
    lastNamed_concat]
  rcases records with _ | ⟨a, rest⟩
  · obtain rfl := Option.some.inj hfirst
    rw [(h.none rfl).1]
    simp [lastNamed]
  · obtain rfl := Option.some.inj hfirst
    have hlast : ∃ last, (a :: rest).getLast? = some last :=
      ⟨_, List.getLast?_eq_some_getLast (by simp)⟩
    obtain ⟨last, hlast⟩ := hlast
    rw [h.row a rfl last hlast]
    rfl

/-- The head of a session after another record of it. -/
theorem Recorded.head_concat (h : Recorded db r.sessionId records)
    (hcall : db.recordTree r sha256 = .ok db') (hr : r.isEmpty = false) {latest : TreeRequestRecord}
    (hlatest : IsLatest latest (records ++ [r])) :
    db'.sessionHeads.get r.sessionId =
      some { nodeId := latest.requestId, updatedTs := latest.ts } := by
  rw [(recordTree_summary hcall hr).2, SessionsDb.upsertHead]
  dsimp only
  rw [Table.get_upsert, if_pos rfl]
  rcases isLatest_concat.mp hlatest with ⟨rfl, hall⟩ | ⟨hold, hlt⟩
  · rcases eq_or_ne records [] with hnil | hne
    · rw [(h.none hnil).2]
      rfl
    · obtain ⟨old, hold⟩ := exists_isLatest hne
      rw [h.head old hold, Option.map_some, if_pos (hall old hold.mem)]
      rfl
  · rw [h.head latest hold, Option.map_some, if_neg (by dsimp only; omega)]
    rfl

/-- **One call.** -/
theorem Recorded.step (h : Recorded db sessionId (storedOf sessionId records))
    (hcall : db.recordTree r sha256 = .ok db') :
    Recorded db' sessionId (storedOf sessionId (records ++ [r])) := by
  rw [storedOf_concat]
  cases hr : r.isEmpty with
  | true =>
    rw [recordTree_empty hcall hr]
    simpa using h
  | false =>
    by_cases hid : r.sessionId = sessionId
    · subst hid
      rw [if_pos ⟨rfl, rfl⟩]
      refine ⟨fun hnil => by simp at hnil, fun first hfirst last hlast => ?_, fun latest hlatest => ?_⟩
      · rw [List.getLast?_concat, Option.mem_some_iff] at hlast
        subst hlast
        exact h.row_concat hcall hr hfirst
      · exact h.head_concat hcall hr hlatest
    · obtain ⟨hrow, hhead⟩ := recordTree_other hcall hr (Ne.symm hid)
      rw [if_neg (fun hc => hid hc.1), List.append_nil]
      refine ⟨fun hnil => ?_, fun first hfirst last hlast => ?_, fun latest hlatest => ?_⟩
      · rw [hrow, hhead]
        exact h.none hnil
      · rw [hrow]
        exact h.row first hfirst last hlast
      · rw [hhead]
        exact h.head latest hlatest

/-- **Every run.** -/
theorem recorded_run (hrun : recordAll sha256 records = .ok db) (sessionId : String) :
    Recorded db sessionId (storedOf sessionId records) := by
  refine Except.foldlM_induction
    (fun records db => Recorded db sessionId (storedOf sessionId records)) ?_ ?_ hrun
  · refine ⟨fun _ => ⟨rfl, rfl⟩, fun first hfirst => (by cases hfirst), fun latest hlatest => ?_⟩
    exact absurd hlatest.mem (by simp [storedOf])
  · exact fun records r db db' _ h hcall => h.step hcall

/-! ## The true summary -/

/-- When the records of a session were made. -/
def times (records : List TreeRequestRecord) : Set Int := {ts | ∃ r ∈ records, r.ts = ts}

/-- The row and the head say what the records say. -/
def Summarises (db : SessionsDb) (sessionId : String) (records : List TreeRequestRecord) : Prop :=
  ∃ row head, db.sessions.get sessionId = some row ∧ db.sessionHeads.get sessionId = some head ∧
    IsLeast (times records) row.firstSeenTs ∧ IsGreatest (times records) row.lastSeenTs ∧
    ∃ r ∈ records, head.nodeId = r.requestId ∧ IsGreatest (times records) r.ts

/-- The first record is an earliest one, and the last a latest one. -/
def FramesTime (records : List TreeRequestRecord) : Prop :=
  (∀ first ∈ records.head?, ∀ r ∈ records, first.ts ≤ r.ts) ∧
    ∀ last ∈ records.getLast?, ∀ r ∈ records, r.ts ≤ last.ts

/-- The last of the latest records is of the same request in two orders. -/
def SameLatest (records records' : List TreeRequestRecord) : Prop :=
  ∀ r r', IsLatest r records → IsLatest r' records' → r.requestId = r'.requestId

/-- The last records that name an account, a provider and a model name the same in two orders. -/
def SameNames (records records' : List TreeRequestRecord) : Prop :=
  lastNamed (·.accountId) records = lastNamed (·.accountId) records' ∧
    lastNamed (·.providerId) records = lastNamed (·.providerId) records' ∧
    lastNamed (·.model) records = lastNamed (·.model) records'

/-- Two databases agree on when a session was seen and on its latest node. -/
def SameSummary (db db' : SessionsDb) (sessionId : String) : Prop :=
  (db.sessions.get sessionId).map (fun row => (row.firstSeenTs, row.lastSeenTs)) =
      (db'.sessions.get sessionId).map (fun row => (row.firstSeenTs, row.lastSeenTs)) ∧
    (db.sessionHeads.get sessionId).map (·.nodeId) = (db'.sessionHeads.get sessionId).map (·.nodeId)

/-- The ends of some records, and a latest one. -/
theorem exists_ends (h : records ≠ []) :
    ∃ first last latest, records.head? = some first ∧ records.getLast? = some last ∧
      IsLatest latest records := by
  obtain ⟨latest, hlatest⟩ := exists_isLatest h
  exact ⟨_, _, latest, List.head?_eq_some_head h, List.getLast?_eq_some_getLast h, hlatest⟩

theorem summarises_iff (h : Recorded db sessionId records) (hne : records ≠ []) :
    Summarises db sessionId records ↔ FramesTime records := by
  obtain ⟨first, last, latest, hfirst, hlast, hlatest⟩ := exists_ends hne
  have hrow := h.row first hfirst last hlast
  have hhead := h.head latest hlatest
  constructor
  · rintro ⟨row, head, hrow', hhead', hleast, hgreatest, -⟩
    obtain rfl := Option.some.inj (hrow.symm.trans hrow')
    refine ⟨fun a ha r hr => ?_, fun a ha r hr => ?_⟩
    · obtain rfl := Option.some.inj (hfirst.symm.trans ha)
      exact hleast.2 ⟨r, hr, rfl⟩
    · obtain rfl := Option.some.inj (hlast.symm.trans ha)
      exact hgreatest.2 ⟨r, hr, rfl⟩
  · rintro ⟨hmin, hmax⟩
    refine ⟨_, _, hrow, hhead, ⟨⟨first, List.mem_of_head? hfirst, rfl⟩, ?_⟩,
      ⟨⟨last, List.mem_of_getLast? hlast, rfl⟩, ?_⟩, latest, hlatest.mem, rfl,
      ⟨latest, hlatest.mem, rfl⟩, ?_⟩
    · rintro ts ⟨r, hr, rfl⟩
      exact hmin first hfirst r hr
    · rintro ts ⟨r, hr, rfl⟩
      exact hmax last hlast r hr
    · rintro ts ⟨r, hr, rfl⟩
      exact hlatest.le r hr

/-! ## Two orders -/

/-- The ends of two orders have the same times, when each of them frames its times. -/
theorem ends_eq {records' : List TreeRequestRecord} (hperm : records.Perm records')
    (h : FramesTime records) (h' : FramesTime records')
    {first first' last last' : TreeRequestRecord} (hfirst : records.head? = some first)
    (hfirst' : records'.head? = some first') (hlast : records.getLast? = some last)
    (hlast' : records'.getLast? = some last') : first.ts = first'.ts ∧ last.ts = last'.ts := by
  have hmem := List.mem_of_head? hfirst
  have hmem' := List.mem_of_head? hfirst'
  have hmemLast := List.mem_of_getLast? hlast
  have hmemLast' := List.mem_of_getLast? hlast'
  exact ⟨le_antisymm (h.1 first hfirst _ (hperm.mem_iff.mpr hmem'))
      (h'.1 first' hfirst' _ (hperm.mem_iff.mp hmem)),
    le_antisymm (h'.2 last' hlast' _ (hperm.mem_iff.mp hmemLast))
      (h.2 last hlast _ (hperm.mem_iff.mpr hmemLast'))⟩

theorem sameLatest_iff {records' : List TreeRequestRecord} (h : Recorded db sessionId records)
    (h' : Recorded db' sessionId records') (hne : records ≠ []) (hne' : records' ≠ []) :
    SameLatest records records' ↔ (db.sessionHeads.get sessionId).map (·.nodeId) =
      (db'.sessionHeads.get sessionId).map (·.nodeId) := by
  constructor
  · intro hsame
    obtain ⟨latest, hlatest⟩ := exists_isLatest hne
    obtain ⟨latest', hlatest'⟩ := exists_isLatest hne'
    rw [h.head latest hlatest, h'.head latest' hlatest', Option.map_some, Option.map_some,
      hsame latest latest' hlatest hlatest']
  · intro heq latest latest' hlatest hlatest'
    rw [h.head latest hlatest, h'.head latest' hlatest'] at heq
    exact Option.some.inj heq

/-- **The summary of a session in two orders.** -/
theorem summary_order_iff {records records' : List TreeRequestRecord} {sessionId : String}
    (hrun : recordAll sha256 records = .ok db) (hrun' : recordAll sha256 records' = .ok db')
    (hperm : records.Perm records') (hne : storedOf sessionId records ≠ []) :
    (SameSummary db db' sessionId ∧ Summarises db sessionId (storedOf sessionId records) ∧
        Summarises db' sessionId (storedOf sessionId records') ↔
      FramesTime (storedOf sessionId records) ∧ FramesTime (storedOf sessionId records') ∧
        SameLatest (storedOf sessionId records) (storedOf sessionId records')) ∧
    (db.sessions.get sessionId = db'.sessions.get sessionId ∧ SameSummary db db' sessionId ∧
        Summarises db sessionId (storedOf sessionId records) ∧
        Summarises db' sessionId (storedOf sessionId records') ↔
      FramesTime (storedOf sessionId records) ∧ FramesTime (storedOf sessionId records') ∧
        SameLatest (storedOf sessionId records) (storedOf sessionId records') ∧
        SameNames (storedOf sessionId records) (storedOf sessionId records')) := by
  have h := recorded_run hrun sessionId
  have h' := recorded_run hrun' sessionId
  have hstored : (storedOf sessionId records).Perm (storedOf sessionId records') :=
    hperm.filter _
  generalize storedOf sessionId records = stored at *
  generalize storedOf sessionId records' = stored' at *
  have hne' : stored' ≠ [] := fun hnil => hne (List.Perm.eq_nil (hnil ▸ hstored))
  obtain ⟨first, last, -, hfirst, hlast, -⟩ := exists_ends hne
  obtain ⟨first', last', -, hfirst', hlast', -⟩ := exists_ends hne'
  have hrow := h.row first hfirst last hlast
  have hrow' := h'.row first' hfirst' last' hlast'
  have hlatest := sameLatest_iff h h' hne hne'
  have hsummary (hf : FramesTime stored) (hf' : FramesTime stored') :
      SameSummary db db' sessionId ↔ SameLatest stored stored' := by
    obtain ⟨hmin, hmax⟩ := ends_eq hstored hf hf' hfirst hfirst' hlast hlast'
    rw [SameSummary, hrow, hrow', hlatest, and_iff_right]
    simp [sessionRowOf, hmin, hmax]
  have hrows (hf : FramesTime stored) (hf' : FramesTime stored') :
      db.sessions.get sessionId = db'.sessions.get sessionId ↔ SameNames stored stored' := by
    obtain ⟨hmin, hmax⟩ := ends_eq hstored hf hf' hfirst hfirst' hlast hlast'
    rw [hrow, hrow', SameNames]
    simp [sessionRowOf, hmin, hmax]
  rw [summarises_iff h hne, summarises_iff h' hne']
  constructor
  · constructor
    · rintro ⟨hsame, hf, hf'⟩
      exact ⟨hf, hf', (hsummary hf hf').mp hsame⟩
    · rintro ⟨hf, hf', hsame⟩
      exact ⟨(hsummary hf hf').mpr hsame, hf, hf'⟩
  · constructor
    · rintro ⟨heq, hsame, hf, hf'⟩
      exact ⟨hf, hf', (hsummary hf hf').mp hsame, (hrows hf hf').mp heq⟩
    · rintro ⟨hf, hf', hsame, hnames⟩
      exact ⟨(hrows hf hf').mpr hnames, (hsummary hf hf').mpr hsame, hf, hf'⟩

/-! ## Two requests -/

theorem summary_inOrder : ∃ db, recordAll bareSha256 inOrder = .ok db ∧
    Summarises db "session" (storedOf "session" inOrder) := by
  obtain ⟨db, hrun⟩ := exists_recordAll_inOrder
  have hframes : FramesTime (storedOf "session" inOrder) := by
    show FramesTime inOrder
    simp [FramesTime, inOrder, bareRecord]
  have hsame : SameLatest (storedOf "session" inOrder) (storedOf "session" inOrder) :=
    (sameLatest_iff (recorded_run hrun _) (recorded_run hrun _) (by decide) (by decide)).mpr rfl
  obtain ⟨-, hsummary, -⟩ :=
    (summary_order_iff hrun hrun (List.Perm.refl _) (by decide)).1.mpr ⟨hframes, hframes, hsame⟩
  exact ⟨db, hrun, hsummary⟩

/-- Recorded out of order, the session was last seen before it was first seen. -/
theorem outOfOrder_disagrees : ∃ db db' row', recordAll bareSha256 inOrder = .ok db ∧
    recordAll bareSha256 outOfOrder = .ok db' ∧ inOrder.Perm outOfOrder ∧
    db'.sessions.get "session" = some row' ∧ row'.firstSeenTs = 200 ∧ row'.lastSeenTs = 100 ∧
    ¬ SameSummary db db' "session" := by
  obtain ⟨db, hrun⟩ := exists_recordAll_inOrder
  obtain ⟨db', hrun'⟩ := exists_recordAll_outOfOrder
  have hrow := (recorded_run hrun "session").row (bareRecord "early" 100) rfl
    (bareRecord "late" 200) rfl
  have hrow' := (recorded_run hrun' "session").row (bareRecord "late" 200) rfl
    (bareRecord "early" 100) rfl
  refine ⟨db, db', _, hrun, hrun', List.Perm.swap _ _ _, hrow', rfl, rfl, ?_⟩
  rw [SameSummary, hrow, hrow']
  rintro ⟨hsame, -⟩
  exact absurd hsame (by decide)

end Tokn.Persistence
