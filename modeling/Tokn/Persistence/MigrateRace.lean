import Tokn.Persistence.Migrate

/-!
# Two processes that migrate one file

Both processes read the version and take the backup before the transaction that applies the
migrations. A process is *working* from the moment it has found migrations pending to its commit.

**Theorem (`apply_apply_iff`).** Let two processes run `apply` on one file, in any order of their
steps, until both are over. Both succeed, the work that was due is done exactly once, and the
backup holds the content from before, iff the SQL runs on the file and no process reads the
version while the other is working.

If a process reads the version while the other works, both find the same migrations pending, and
the transaction that comes second inserts a version that is there. The other direction follows the
process that works alone through its stages.
-/

namespace Tokn.Migrate

open Machine

/-! ## Versions -/

theorem mem_versions_le {l : List Nat} {n : Nat} (h : n ∈ l) : n ≤ l.foldl max 0 := by
  induction l using List.reverseRecOn with
  | nil => cases h
  | append_singleton l a ih =>
    rw [List.foldl_append]
    rcases List.mem_append.mp h with h | h
    · exact le_max_of_le_left (ih h)
    · rw [List.mem_singleton.mp h]
      exact le_max_right _ _

theorem foldl_max_le {l : List Nat} {n : Nat} (h : ∀ a ∈ l, a ≤ n) : l.foldl max 0 ≤ n := by
  induction l using List.reverseRecOn with
  | nil => exact Nat.zero_le n
  | append_singleton l a ih =>
    rw [List.foldl_append]
    exact max_le (ih fun b hb => h b (List.mem_append_left _ hb)) (h a (by simp))

/-- The versions of a sequence count up from one. -/
theorem ValidSequence.versions {prev : Nat} {ms : List Migration} (h : ValidSequence prev ms) :
    ms.map (·.version) = List.range' (prev + 1) ms.length := by
  induction ms generalizing prev with
  | nil => rfl
  | cons m ms ih =>
    rw [List.map_cons, ih h.2, h.1, List.length_cons, List.range'_succ]

variable {ms : List Migration}

theorem ValidSequence.latestVersion_eq (h : ValidSequence 0 ms) : latestVersion ms = ms.length := by
  rw [latestVersion, ← List.getLast?_map, h.versions, List.getLast?_range']
  split_ifs with hn
  · rw [hn]
    rfl
  · show 0 + 1 + ms.length - 1 = ms.length
    omega

theorem ValidSequence.le_latestVersion (h : ValidSequence 0 ms) {m : Migration} (hm : m ∈ ms) :
    m.version ≤ latestVersion ms := by
  have hv : m.version ∈ ms.map (·.version) := List.mem_map_of_mem hm
  rw [h.versions, List.mem_range'_1] at hv
  rw [h.latestVersion_eq]
  omega

theorem ValidSequence.nodup (h : ValidSequence 0 ms) : (ms.map (·.version)).Nodup := by
  rw [h.versions]
  exact List.nodup_range'

/-- Below the head, the head is pending. -/
theorem ValidSequence.latestVersion_mem (h : ValidSequence 0 ms) {v : Nat}
    (hv : v < latestVersion ms) :
    latestVersion ms ∈ (pendingAfter v ms).map (·.version) := by
  have hl : latestVersion ms ∈ ms.map (·.version) := by
    rw [h.versions, List.mem_range'_1, ← h.latestVersion_eq]
    omega
  obtain ⟨m, hm, hmv⟩ := List.mem_map.mp hl
  refine List.mem_map.mpr ⟨m, List.mem_filter.mpr ⟨hm, ?_⟩, hmv⟩
  simp only [decide_eq_true_eq, hmv]
  omega

theorem pendingAfter_zero (h : ValidSequence 0 ms) : pendingAfter 0 ms = ms := by
  refine List.filter_eq_self.mpr fun m hm => ?_
  have hv : m.version ∈ ms.map (·.version) := List.mem_map_of_mem hm
  rw [h.versions, List.mem_range'_1] at hv
  simp only [decide_eq_true_eq]
  omega

section

variable {δ : Type}

@[simp] theorem versions_ensureSchemaTable (db : Database δ) :
    (ensureSchemaTable db).versions = db.versions := rfl

@[simp] theorem currentVersion_ensureSchemaTable (db : Database δ) :
    currentVersion (ensureSchemaTable db) = currentVersion db := rfl

theorem ensureSchemaTable_of_isSome {db : Database δ} (h : db.migrations.isSome) :
    ensureSchemaTable db = db := by
  obtain ⟨rows, hrows⟩ := Option.isSome_iff_exists.mp h
  rw [ensureSchemaTable, hrows]
  exact congrArg (fun m => (⟨m, db.tables, db.history⟩ : Database δ)) hrows.symm

/-! ## The transaction -/

/-- What SQL does to the tables of the user, one batch after the other. -/
def executeAll (engine : Engine δ) (sqls : List String) (tables : δ) : Option δ :=
  sqls.foldlM (fun tables sql => engine.executeBatch sql tables) tables

/-- Batches were executed, and versions recorded that were not there. -/
structure Extends (engine : Engine δ) (sqls : List String) (versions : List Nat)
    (db db' : Database δ) : Prop where
  recorded : db'.versions = db.versions ++ versions
  disjoint : ∀ v ∈ versions, v ∉ db.versions
  tables : executeAll engine sqls db.tables = some db'.tables
  history : db'.history = db.history ++ sqls
  isSome : db.migrations.isSome → db'.migrations.isSome

variable {engine : Engine δ} {now : Nat → Int} {db db' db'' : Database δ} {m : Migration}

theorem Extends.refl (db : Database δ) : Extends engine [] [] db db where
  recorded := (List.append_nil _).symm
  disjoint := fun _ h => absurd h List.not_mem_nil
  tables := rfl
  history := (List.append_nil _).symm
  isSome := id

theorem Extends.trans {s s' : List String} {v v' : List Nat} (h : Extends engine s v db db')
    (h' : Extends engine s' v' db' db'') : Extends engine (s ++ s') (v ++ v') db db'' where
  recorded := by rw [h'.recorded, h.recorded, List.append_assoc]
  disjoint := by
    intro n hn
    rcases List.mem_append.mp hn with hn | hn
    · exact h.disjoint n hn
    · have hd := h'.disjoint n hn
      rw [h.recorded] at hd
      exact fun hmem => hd (List.mem_append_left _ hmem)
  tables := by
    have ht := h.tables
    have ht' := h'.tables
    rw [executeAll] at ht ht' ⊢
    rw [List.foldlM_append, ht]
    exact ht'
  history := by rw [h'.history, h.history, List.append_assoc]
  isSome := fun hs => h'.isSome (h.isSome hs)

theorem executeBatch_extends {sql : String} (h : executeBatch engine sql db = some db') :
    Extends engine [sql] [] db db' := by
  obtain ⟨tables, ht, rfl⟩ := Option.map_eq_some_iff.mp h
  exact {
    recorded := (List.append_nil _).symm
    disjoint := fun _ hv => absurd hv List.not_mem_nil
    tables := by
      show (engine.executeBatch sql db.tables).bind some = some tables
      rw [ht]
      rfl
    history := rfl
    isSome := id }

theorem recordVersion_spec (h : recordVersion now db m = some db') :
    db'.migrations.isSome ∧ db'.versions = db.versions ++ [m.version] ∧ m.version ∉ db.versions ∧
      db'.tables = db.tables ∧ db'.history = db.history := by
  obtain ⟨rows, hrows, h⟩ := Option.bind_eq_some_iff.mp h
  split_ifs at h with hm
  obtain rfl := Option.some.inj h
  have hv : db.versions = rows.map (·.version) := by rw [Database.versions, hrows]; rfl
  exact ⟨rfl, by rw [hv]; simp [Database.versions], hv ▸ hm, rfl, rfl⟩

theorem recordVersion_extends (h : recordVersion now db m = some db') :
    Extends engine [] [m.version] db db' := by
  obtain ⟨hs, hv, hm, ht, hh⟩ := recordVersion_spec h
  exact {
    recorded := hv
    disjoint := by simpa using hm
    tables := by rw [ht]; rfl
    history := by rw [hh, List.append_nil]
    isSome := fun _ => hs }

theorem foldlM_extends {f : Database δ → Migration → Option (Database δ)}
    {sqls : Migration → List String} {ms : List Migration}
    (hf : ∀ db m db', f db m = some db' → Extends engine (sqls m) [m.version] db db')
    (h : ms.foldlM f db = some db') :
    Extends engine (ms.flatMap sqls) (ms.map (·.version)) db db' := by
  induction ms generalizing db with
  | nil =>
    obtain rfl := Option.some.inj h
    exact Extends.refl db
  | cons m ms ih =>
    rw [List.foldlM_cons] at h
    obtain ⟨mid, hmid, h⟩ := Option.bind_eq_some_iff.mp h
    exact (hf db m mid hmid).trans (ih h)

theorem runMigrations_extends {migrations : List Migration} {applied : Nat}
    (h : runMigrations engine now migrations applied db = some db') :
    Extends engine ((pendingAfter applied migrations).map (·.sql))
      ((pendingAfter applied migrations).map (·.version)) db db' := by
  rw [runMigrations] at h
  rw [← List.flatMap_pure_eq_map]
  refine foldlM_extends (fun db m db' hm => ?_) h
  obtain ⟨mid, hmid, hm⟩ := Option.bind_eq_some_iff.mp hm
  exact (executeBatch_extends hmid).trans (recordVersion_extends hm)

theorem runBootstrap_extends {bootstrap : Bootstrap} {migrations : List Migration}
    (h : runBootstrap engine now bootstrap migrations db = some db') :
    Extends engine [bootstrap.sql] (migrations.map (·.version)) db db' := by
  obtain ⟨mid, hmid, h⟩ := Option.bind_eq_some_iff.mp h
  have hrows : Extends engine (migrations.flatMap fun _ => []) (migrations.map (·.version)) mid db' :=
    foldlM_extends (fun _ _ _ hm => recordVersion_extends hm) h
  have hflat : (migrations.flatMap fun _ => ([] : List String)) = [] := by simp
  rw [hflat] at hrows
  exact (executeBatch_extends hmid).trans hrows

theorem exists_recordVersion (now : Nat → Int) (hs : db.migrations.isSome)
    (hm : m.version ∉ db.versions) : ∃ db', recordVersion now db m = some db' := by
  obtain ⟨rows, hrows⟩ := Option.isSome_iff_exists.mp hs
  rw [Database.versions, hrows] at hm
  refine ⟨_, Option.bind_eq_some_iff.mpr ⟨rows, hrows, if_neg hm⟩⟩

/-- The rest of a list is recorded after one of its versions. -/
theorem disjoint_tail {ms : List Migration} (h : db'.versions = db.versions ++ [m.version])
    (hd : ((m :: ms).map (·.version)).Nodup) (hv : ∀ m' ∈ m :: ms, m'.version ∉ db.versions) :
    ∀ m' ∈ ms, m'.version ∉ db'.versions := by
  intro m' hm' hmem
  rw [h] at hmem
  rcases List.mem_append.mp hmem with hmem | hmem
  · exact hv m' (List.mem_cons_of_mem m hm') hmem
  · rw [List.map_cons, List.nodup_cons] at hd
    exact hd.1 (List.mem_singleton.mp hmem ▸ List.mem_map_of_mem hm')

theorem exists_foldlM_recordVersion (now : Nat → Int) {ms : List Migration} (hs : db.migrations.isSome)
    (hd : (ms.map (·.version)).Nodup) (hv : ∀ m ∈ ms, m.version ∉ db.versions) :
    ∃ db', ms.foldlM (recordVersion now) db = some db' := by
  induction ms generalizing db with
  | nil => exact ⟨db, rfl⟩
  | cons m ms ih =>
    obtain ⟨mid, hmid⟩ := exists_recordVersion now hs (hv m List.mem_cons_self)
    have hspec := recordVersion_spec hmid
    obtain ⟨db', h⟩ := ih hspec.1 (List.nodup_cons.mp hd).2 (disjoint_tail hspec.2.1 hd hv)
    exact ⟨db', by rw [List.foldlM_cons, hmid]; exact h⟩

theorem exists_executeBatch {sql : String} {sqls : List String} {tables : δ}
    (h : executeAll engine (sql :: sqls) db.tables = some tables) :
    ∃ db', executeBatch engine sql db = some db' ∧ executeAll engine sqls db'.tables = some tables := by
  rw [executeAll, List.foldlM_cons] at h
  obtain ⟨t, ht, h⟩ := Option.bind_eq_some_iff.mp h
  exact ⟨_, Option.map_eq_some_iff.mpr ⟨t, ht, rfl⟩, h⟩

theorem exists_foldlM_runMigration (now : Nat → Int) {ms : List Migration} {tables : δ}
    (hs : db.migrations.isSome)
    (hd : (ms.map (·.version)).Nodup) (hv : ∀ m ∈ ms, m.version ∉ db.versions)
    (h : executeAll engine (ms.map (·.sql)) db.tables = some tables) :
    ∃ db', ms.foldlM (runMigration engine now) db = some db' := by
  induction ms generalizing db with
  | nil => exact ⟨db, rfl⟩
  | cons m ms ih =>
    obtain ⟨run, hrun, h⟩ := exists_executeBatch h
    have hext := executeBatch_extends hrun
    have hrv : run.versions = db.versions := hext.recorded.trans (List.append_nil _)
    obtain ⟨mid, hmid⟩ := exists_recordVersion now (m := m) (hext.isSome hs)
      (hrv.symm ▸ hv m List.mem_cons_self)
    obtain ⟨hms, hmv, -, hmt, -⟩ := recordVersion_spec hmid
    obtain ⟨db', h⟩ := ih hms (List.nodup_cons.mp hd).2 (disjoint_tail (hmv.trans (hrv ▸ rfl)) hd hv)
      (hmt ▸ h)
    refine ⟨db', ?_⟩
    rw [List.foldlM_cons, runMigration, hrun]
    show (recordVersion now run m).bind _ = _
    rw [hmid]
    exact h

/-! ## What is due -/

variable (setup : Setup δ)

/-- Nothing is recorded, and there are no tables of the user. -/
def Fresh (db : Database δ) : Prop :=
  currentVersion db = 0 ∧ setup.engine.hasUserTables db.tables = false

instance (db : Database δ) : Decidable (Fresh setup db) :=
  inferInstanceAs (Decidable (_ ∧ _))

/-- The SQL to execute: the snapshot on a fresh database, and the pending migrations else. -/
def due (db : Database δ) : List String :=
  if Fresh setup db ∧ currentVersion db < latestVersion setup.migrations then
    [setup.bootstrap.sql]
  else (pendingAfter (currentVersion db) setup.migrations).map (·.sql)

/-- The SQL that is due runs on the tables there are. -/
def Runs (db : Database δ) : Prop :=
  ∃ tables, executeAll setup.engine (due setup db) db.tables = some tables

/-- Migrations are pending on a database that is not fresh, so that there is something to keep. -/
def Incremental (db : Database δ) : Prop :=
  currentVersion db < latestVersion setup.migrations ∧ ¬ Fresh setup db

/-- From `fs` to `fs'` the database was migrated once. -/
structure Migrated (fs fs' : Files δ) : Prop where
  version : currentVersion fs'.database = latestVersion setup.migrations
  executed : fs'.database.history = fs.database.history ++ due setup fs.database
  tables : executeAll setup.engine (due setup fs.database) fs.database.tables =
    some fs'.database.tables
  backup : Incremental setup fs.database → fs'.backup = some (ensureSchemaTable fs.database)
  restored : Incremental setup fs.database →
    ∃ fs'', rollback fs' = some fs'' ∧ fs''.database = ensureSchemaTable fs.database
  kept : ¬ Incremental setup fs.database → fs'.backup = fs.backup

/-- The version a call has found, while it works. -/
def Stage.working : Stage → Option Nat
  | .probing applied => some applied
  | .copying applied => some applied
  | .checking applied => some applied
  | .removing applied => some applied
  | .replacing applied => some applied
  | .applying applied _ => some applied
  | _ => none

/-- A process does not read the version while the other works. -/
def Apart (w : World δ) (p : Process) : Prop :=
  w.stage p = .reading → (w.stage p.other).working = none

/-- Both calls are over. -/
def World.Finished (w : World δ) : Prop :=
  ∀ p, advance setup w.files (w.stage p) = none

/-- Both calls succeed, and the database was migrated once. -/
def Served (fs : Files δ) (w : World δ) : Prop :=
  (∀ p, ∃ applied, w.stage p = .returned applied) ∧ Migrated setup fs w.files

variable {setup}

theorem pendingAfter_eq_nil {ms : List Migration} (hm : ValidSequence 0 ms) {v : Nat}
    (hv : latestVersion ms ≤ v) : pendingAfter v ms = [] := by
  refine List.filter_eq_nil_iff.mpr fun m hmem => ?_
  have hle := hm.le_latestVersion hmem
  simp only [decide_eq_true_eq]
  omega

/-! ## What a step does -/

variable {fs fs' : Files δ} {s s' : Stage}

theorem advance_reading (setup : Setup δ) {fs : Files δ}
    (hne : currentVersion fs.database ≠ latestVersion setup.migrations)
    (hle : currentVersion fs.database ≤ latestVersion setup.migrations) :
    ∃ s, advance setup fs .reading = some (s, fs) ∧
      (currentVersion fs.database = 0 ∧ s = .probing 0 ∨
        currentVersion fs.database ≠ 0 ∧ s = .copying (currentVersion fs.database)) := by
  rw [advance]
  by_cases h0 : currentVersion fs.database = 0
  · exact ⟨.probing 0, by simp [h0, h0 ▸ hne], Or.inl ⟨h0, rfl⟩⟩
  · refine ⟨.copying (currentVersion fs.database), ?_, Or.inr ⟨h0, rfl⟩⟩
    have hlt : ¬ latestVersion setup.migrations ≤ currentVersion fs.database := by omega
    simp [hne, h0, preflight, hlt]

theorem preflight_of_lt {applied : Nat} (h : applied < latestVersion setup.migrations)
    (bootstrapPath : Bool) :
    preflight setup applied bootstrapPath =
      if bootstrapPath then .applying applied true else .copying applied := by
  have hlt : ¬ latestVersion setup.migrations ≤ applied := by omega
  simp [preflight, hlt]

/-- A commit records the head, which was not there. -/
structure Commits (setup : Setup δ) (db db' : Database δ) : Prop where
  head : currentVersion db ≤ latestVersion setup.migrations →
    currentVersion db' = latestVersion setup.migrations
  absent : latestVersion setup.migrations ∉ db.versions
  present : latestVersion setup.migrations ∈ db'.versions

theorem Extends.commits {sqls : List String} {ms : List Migration}
    (hm : ValidSequence 0 setup.migrations) (hsub : ∀ m ∈ ms, m ∈ setup.migrations)
    (hhead : latestVersion setup.migrations ∈ ms.map (·.version))
    (h : Extends setup.engine sqls (ms.map (·.version)) db db') : Commits setup db db' where
  head := by
    intro hle
    have hmem : latestVersion setup.migrations ∈ db'.versions := by
      rw [h.recorded]
      exact List.mem_append_right _ hhead
    refine le_antisymm (foldl_max_le fun a ha => ?_) (mem_versions_le hmem)
    rw [h.recorded] at ha
    rcases List.mem_append.mp ha with ha | ha
    · exact (mem_versions_le ha).trans hle
    · obtain ⟨m, hmem, rfl⟩ := List.mem_map.mp ha
      exact hm.le_latestVersion (hsub m hmem)
  absent := h.disjoint _ hhead
  present := by
    rw [h.recorded]
    exact List.mem_append_right _ hhead

/-- **What a call that works does next.** It works on without touching the database, it fails, or
it commits. -/
theorem advance_working {applied : Nat} (hm : ValidSequence 0 setup.migrations)
    (hs : s.working = some applied) (hlt : applied < latestVersion setup.migrations)
    (h : advance setup fs s = some (s', fs')) :
    (s'.working = some applied ∧ fs'.database = fs.database) ∨
      ((∃ e, s' = .failed e) ∧ fs'.database = fs.database) ∨
      (s' = .returned applied ∧ Commits setup fs.database fs'.database) := by
  cases s with
  | opening => cases hs
  | reading => cases hs
  | returned _ => cases hs
  | failed _ => cases hs
  | probing a =>
    obtain rfl := Option.some.inj hs
    rw [advance, preflight_of_lt hlt] at h
    obtain ⟨rfl, rfl⟩ := Prod.mk.inj (Option.some.inj h)
    refine Or.inl ⟨?_, rfl⟩
    split_ifs <;> rfl
  | copying a =>
    obtain ⟨rfl, rfl⟩ := Prod.mk.inj (Option.some.inj h)
    exact Or.inl ⟨hs, rfl⟩
  | checking a =>
    obtain ⟨rfl, rfl⟩ := Prod.mk.inj (Option.some.inj h)
    refine Or.inl ⟨?_, rfl⟩
    split_ifs <;> exact hs
  | removing a =>
    rw [advance] at h
    cases hb : fs.backup with
    | none =>
      rw [hb] at h
      obtain ⟨rfl, rfl⟩ := Prod.mk.inj (Option.some.inj h)
      exact Or.inr (Or.inl ⟨⟨_, rfl⟩, rfl⟩)
    | some b =>
      rw [hb] at h
      obtain ⟨rfl, rfl⟩ := Prod.mk.inj (Option.some.inj h)
      exact Or.inl ⟨hs, rfl⟩
  | replacing a =>
    rw [advance] at h
    cases hb : fs.staged with
    | none =>
      rw [hb] at h
      obtain ⟨rfl, rfl⟩ := Prod.mk.inj (Option.some.inj h)
      exact Or.inr (Or.inl ⟨⟨_, rfl⟩, rfl⟩)
    | some b =>
      rw [hb] at h
      obtain ⟨rfl, rfl⟩ := Prod.mk.inj (Option.some.inj h)
      exact Or.inl ⟨hs, rfl⟩
  | applying a bootstrapPath =>
    obtain rfl := Option.some.inj hs
    rw [advance] at h
    split at h
    · rename_i db hdb
      obtain ⟨rfl, rfl⟩ := Prod.mk.inj (Option.some.inj h)
      refine Or.inr (Or.inr ⟨rfl, ?_⟩)
      cases bootstrapPath with
      | true =>
        have hpos : 0 < latestVersion setup.migrations := by omega
        have hhead := hm.latestVersion_mem hpos
        rw [pendingAfter_zero hm] at hhead
        exact (runBootstrap_extends hdb).commits hm (fun _ h => h) hhead
      | false =>
        exact (runMigrations_extends hdb).commits hm (fun _ h => List.mem_of_mem_filter h)
          (hm.latestVersion_mem hlt)
    · obtain ⟨rfl, rfl⟩ := Prod.mk.inj (Option.some.inj h)
      exact Or.inr (Or.inl ⟨⟨_, rfl⟩, rfl⟩)

/-! ## Every run -/

/-- A call that has not read the version. -/
def Stage.Early (s : Stage) : Prop := s = .opening ∨ s = .reading

/-- Where a call can stand on a file that was at version `v`. -/
def Stage.From (setup : Setup δ) (v : Nat) (s : Stage) : Prop :=
  s.Early ∨ s.working = some v ∨ (∃ e, s = .failed e) ∨ s = .returned v ∨
    s = .returned (latestVersion setup.migrations)

/-- The first commit, and no other, records the head. -/
structure Ledger (setup : Setup δ) (v : Nat) (w : World δ) : Prop where
  stage : ∀ p, (w.stage p).From setup v
  commit : (∀ p, w.stage p ≠ .returned v) ∧ currentVersion w.files.database = v ∨
    ∃ p, w.stage p = .returned v ∧ w.stage p.other ≠ .returned v ∧
      currentVersion w.files.database = latestVersion setup.migrations ∧
      latestVersion setup.migrations ∈ w.files.database.versions

/-- Both calls have found the same migrations pending. -/
def Overlap (v : Nat) (w : World δ) : Prop :=
  ∀ p, (w.stage p).working = some v ∨ (∃ e, w.stage p = .failed e) ∨ w.stage p = .returned v

theorem Process.eq_or_eq_other (p q : Process) : q = p ∨ q = p.other := by
  cases p <;> cases q <;> decide

@[simp] theorem Process.other_ne (p : Process) : p.other ≠ p := by cases p <;> decide

@[simp] theorem Process.ne_other (p : Process) : p ≠ p.other := p.other_ne.symm

@[simp] theorem Process.other_other (p : Process) : p.other.other = p := by cases p <;> rfl

theorem Process.forall_iff {P : Process → Prop} (p : Process) : (∀ q, P q) ↔ P p ∧ P p.other := by
  refine ⟨fun h => ⟨h p, h p.other⟩, fun h q => ?_⟩
  rcases p.eq_or_eq_other q with rfl | rfl
  · exact h.1
  · exact h.2

/-- A step of `p`: `p` advances, and the other process stays where it is. -/
theorem step_eq_some {w w' : World δ} {p : Process} (h : step setup w p = some w') :
    advance setup w.files (w.stage p) = some (w'.stage p, w'.files) ∧
      w'.stage p.other = w.stage p.other := by
  obtain ⟨⟨s, fs⟩, hadv, rfl⟩ := Option.map_eq_some_iff.mp h
  rw [hadv]
  exact ⟨by simp, by simp⟩

variable {v : Nat} {w w' : World δ} {p : Process}

/-- A call that has not returned finds the version, works on, or commits. -/
theorem advance_from (hm : ValidSequence 0 setup.migrations) (hv : v < latestVersion setup.migrations)
    (hs : s.From setup v)
    (hcur : currentVersion fs.database = v ∨
      currentVersion fs.database = latestVersion setup.migrations)
    (h : advance setup fs s = some (s', fs')) :
    s'.From setup v ∧ s ≠ .returned v ∧
      (s' ≠ .returned v ∧ fs'.database.versions = fs.database.versions ∨
        s' = .returned v ∧ Commits setup fs.database fs'.database) := by
  have hne : v ≠ latestVersion setup.migrations := by omega
  rcases hs with (rfl | rfl) | hs | ⟨e, rfl⟩ | rfl | rfl
  · rw [advance, if_pos hm] at h
    obtain ⟨rfl, rfl⟩ := Prod.mk.inj (Option.some.inj h)
    exact ⟨Or.inl (Or.inr rfl), nofun, Or.inl ⟨nofun, rfl⟩⟩
  · rcases hcur with hcur | hcur
    · obtain ⟨s₁, hadv, hs₁⟩ := advance_reading setup (hcur ▸ hne) (hcur ▸ hv.le)
      rw [h] at hadv
      obtain ⟨rfl, rfl⟩ := Prod.mk.inj (Option.some.inj hadv)
      rcases hs₁ with ⟨h0, rfl⟩ | ⟨-, rfl⟩
      · exact ⟨Or.inr (Or.inl (by rw [← hcur, h0]; rfl)), nofun, Or.inl ⟨nofun, rfl⟩⟩
      · exact ⟨Or.inr (Or.inl (by rw [← hcur]; rfl)), nofun, Or.inl ⟨nofun, rfl⟩⟩
    · rw [advance, if_pos hcur] at h
      obtain ⟨rfl, rfl⟩ := Prod.mk.inj (Option.some.inj h)
      refine ⟨Or.inr (Or.inr (Or.inr (Or.inr (by rw [hcur])))), nofun, Or.inl ⟨?_, rfl⟩⟩
      exact fun heq => hne (hcur ▸ Stage.returned.inj heq).symm
  · have hsv : s ≠ .returned v := by rintro rfl; cases hs
    rcases advance_working hm hs hv h with ⟨hs', hdb⟩ | ⟨⟨e, rfl⟩, hdb⟩ | ⟨rfl, hcommit⟩
    · exact ⟨Or.inr (Or.inl hs'), hsv, Or.inl ⟨by rintro rfl; (cases hs'), by rw [hdb]⟩⟩
    · exact ⟨Or.inr (Or.inr (Or.inl ⟨e, rfl⟩)), hsv, Or.inl ⟨nofun, by rw [hdb]⟩⟩
    · exact ⟨Or.inr (Or.inr (Or.inr (Or.inl rfl))), hsv, Or.inr ⟨rfl, hcommit⟩⟩
  · cases h
  · cases h
  · cases h

theorem Ledger.start (fs : Files δ) : Ledger setup (currentVersion fs.database) (start fs) :=
  ⟨fun _ => Or.inl (Or.inl rfl), Or.inl ⟨fun _ => nofun, rfl⟩⟩

theorem Ledger.step (hm : ValidSequence 0 setup.migrations) (hv : v < latestVersion setup.migrations)
    (hw : Ledger setup v w) (h : step setup w p = some w') : Ledger setup v w' := by
  obtain ⟨hadv, hother⟩ := step_eq_some h
  obtain ⟨hfrom, hledger⟩ := hw
  have hcur : currentVersion w.files.database = v ∨
      currentVersion w.files.database = latestVersion setup.migrations :=
    hledger.imp (·.2) fun ⟨_, _, _, hcur, _⟩ => hcur
  obtain ⟨hp, hbefore, hstep⟩ := advance_from hm hv (hfrom p) hcur hadv
  refine ⟨(Process.forall_iff p).mpr ⟨hp, hother ▸ hfrom p.other⟩, ?_⟩
  rcases hledger with ⟨hnone, hcur⟩ | ⟨q, hq, -, hcur, hhead⟩
  · rcases hstep with ⟨hp', hver⟩ | ⟨hp', hcommit⟩
    · refine Or.inl ⟨(Process.forall_iff p).mpr ⟨hp', hother ▸ hnone p.other⟩, ?_⟩
      rw [currentVersion, hver]
      exact hcur
    · exact Or.inr ⟨p, hp', hother ▸ hnone p.other, hcommit.head (hcur ▸ hv.le), hcommit.present⟩
  · rcases p.eq_or_eq_other q with rfl | rfl
    · exact absurd hq hbefore
    · rcases hstep with ⟨hp', hver⟩ | ⟨-, hcommit⟩
      · refine Or.inr ⟨p.other, hother ▸ hq, p.other_other.symm ▸ hp', ?_, hver.symm ▸ hhead⟩
        rw [currentVersion, hver]
        exact hcur
      · exact absurd hhead hcommit.absent

theorem Overlap.step (hm : ValidSequence 0 setup.migrations)
    (hv : v < latestVersion setup.migrations) (hw : Overlap v w)
    (h : Migrate.step setup w p = some w') : Overlap v w' := by
  obtain ⟨hadv, hother⟩ := step_eq_some h
  refine (Process.forall_iff p).mpr ⟨?_, hother ▸ hw p.other⟩
  rcases hw p with hs | ⟨e, hs⟩ | hs
  · rcases advance_working hm hs hv hadv with ⟨hs', -⟩ | ⟨he, -⟩ | ⟨hs', -⟩
    · exact Or.inl hs'
    · exact Or.inr (Or.inl he)
    · exact Or.inr (Or.inr hs')
  · rw [hs] at hadv
    cases hadv
  · rw [hs] at hadv
    cases hadv

/-- A process that reads the version while the other works finds the same migrations pending. -/
theorem Ledger.overlap_of_not_apart (hv : v < latestVersion setup.migrations)
    (hw : Ledger setup v w) (h : Migrate.step setup w p = some w') (hp : ¬ Apart w p) :
    Overlap v w' := by
  obtain ⟨hadv, hother⟩ := step_eq_some h
  obtain ⟨hread, hwork⟩ := Classical.not_imp.mp hp
  have hwork : (w.stage p.other).working = some v := by
    rcases hw.stage p.other with (ho | ho) | ho | ⟨e, ho⟩ | ho | ho
    all_goals first | exact ho | (rw [ho] at hwork; exact absurd rfl hwork)
  have hcur : currentVersion w.files.database = v := by
    rcases hw.commit with ⟨-, hcur⟩ | ⟨q, hq, -⟩
    · exact hcur
    · rcases p.eq_or_eq_other q with rfl | rfl
      · rw [hread] at hq
        cases hq
      · rw [hq] at hwork
        cases hwork
  obtain ⟨s₁, hs₁, hcases⟩ := advance_reading setup (hcur ▸ hv.ne) (hcur ▸ hv.le)
  rw [hread, hs₁] at hadv
  obtain ⟨rfl, -⟩ := Prod.mk.inj (Option.some.inj hadv)
  refine (Process.forall_iff p).mpr ⟨Or.inl ?_, Or.inl (hother ▸ hwork)⟩
  rcases hcases with ⟨h0, hs₁⟩ | ⟨-, hs₁⟩
  · rw [hs₁, ← hcur, h0]
    rfl
  · rw [hs₁, hcur]
    rfl

/-- Every run keeps the ledger, and a run in which the calls were not apart ends in an overlap. -/
theorem ledger_of_run (hm : ValidSequence 0 setup.migrations) {is : List Process}
    (hv : currentVersion fs.database < latestVersion setup.migrations)
    (h : exec (step setup) (start fs) is = some w) :
    Ledger setup (currentVersion fs.database) w ∧
      (¬ Along (step setup) Apart (start fs) is → Overlap (currentVersion fs.database) w) := by
  refine exec_induction (fun is w =>
    Ledger setup (currentVersion fs.database) w ∧
      (¬ Along (step setup) Apart (start fs) is → Overlap (currentVersion fs.database) w))
    ⟨Ledger.start fs, fun h => absurd trivial h⟩ ?_ h
  intro is p w w' hrun hw hstep
  refine ⟨hw.1.step hm hv hstep, fun hapart => ?_⟩
  rw [along_concat hrun] at hapart
  by_cases halong : Along (step setup) Apart (start fs) is
  · exact hw.1.overlap_of_not_apart hv hstep fun hp => hapart ⟨halong, hp⟩
  · exact (hw.2 halong).step hm hv hstep

/-- Two calls that overlap do not both succeed. -/
theorem Overlap.not_returned (hw : Ledger setup v w) (hover : Overlap v w) :
    ¬ ∀ p, ∃ applied, w.stage p = .returned applied := by
  intro hret
  have hv : ∀ p, w.stage p = .returned v := by
    intro p
    obtain ⟨a, ha⟩ := hret p
    rcases hover p with hs | ⟨e, hs⟩ | hs
    · rw [ha] at hs
      cases hs
    · rw [ha] at hs
      cases hs
    · exact hs
  rcases hw.commit with ⟨hnone, -⟩ | ⟨p, -, hother, -⟩
  · exact hnone .first (hv .first)
  · exact hother (hv p.other)

/-! ## A call that works alone -/

/-- What a call that works alone finds and has left behind, by the stage it is at. -/
def Prepared (setup : Setup δ) (fs f : Files δ) : Stage → Prop
  | .probing applied =>
    applied = currentVersion fs.database ∧ applied = 0 ∧
      f.database = ensureSchemaTable fs.database ∧ f.backup = fs.backup
  | .copying applied =>
    applied = currentVersion fs.database ∧ ¬ Fresh setup fs.database ∧
      f.database = ensureSchemaTable fs.database
  | .checking applied =>
    applied = currentVersion fs.database ∧ ¬ Fresh setup fs.database ∧
      f.database = ensureSchemaTable fs.database ∧
      f.staged = some (ensureSchemaTable fs.database)
  | .removing applied =>
    applied = currentVersion fs.database ∧ ¬ Fresh setup fs.database ∧
      f.database = ensureSchemaTable fs.database ∧
      f.staged = some (ensureSchemaTable fs.database) ∧ f.backup.isSome
  | .replacing applied =>
    applied = currentVersion fs.database ∧ ¬ Fresh setup fs.database ∧
      f.database = ensureSchemaTable fs.database ∧
      f.staged = some (ensureSchemaTable fs.database)
  | .applying applied bootstrapPath =>
    applied = currentVersion fs.database ∧ f.database = ensureSchemaTable fs.database ∧
      (bootstrapPath = true ∧ Fresh setup fs.database ∧ f.backup = fs.backup ∨
        bootstrapPath = false ∧ ¬ Fresh setup fs.database ∧
          f.backup = some (ensureSchemaTable fs.database))
  | _ => False

variable {f f' : Files δ}

/-- The commit of a call that has worked alone. -/
theorem Migrated.of_extends {sqls : List String} {versions : List Nat}
    (hdue : due setup fs.database = sqls)
    (hhead : currentVersion f.database = latestVersion setup.migrations)
    (h : Extends setup.engine sqls versions (ensureSchemaTable fs.database) f.database)
    (hinc : Incremental setup fs.database → f.backup = some (ensureSchemaTable fs.database))
    (hkept : ¬ Incremental setup fs.database → f.backup = fs.backup) : Migrated setup fs f where
  version := hhead
  executed := hdue.symm ▸ h.history
  tables := hdue.symm ▸ h.tables
  backup := hinc
  restored := fun hi => ⟨_, by rw [rollback, hinc hi]; rfl, rfl⟩
  kept := hkept

theorem Prepared.apply_bootstrap (hm : ValidSequence 0 setup.migrations)
    (hv : currentVersion fs.database < latestVersion setup.migrations)
    (hruns : Runs setup fs.database) (hdb : f.database = ensureSchemaTable fs.database)
    (hfresh : Fresh setup fs.database) (hb : f.backup = fs.backup) :
    ∃ db', runBootstrap setup.engine setup.now setup.bootstrap setup.migrations f.database = some db' ∧
      Migrated setup fs { f with database := db' } ∧ db'.migrations.isSome := by
  have hdue : due setup fs.database = [setup.bootstrap.sql] := if_pos ⟨hfresh, hv⟩
  obtain ⟨tables, htables⟩ := hruns
  have htables : executeAll setup.engine [setup.bootstrap.sql]
      (ensureSchemaTable fs.database).tables = some tables := hdue ▸ htables
  obtain ⟨mid, hmid, -⟩ := exists_executeBatch htables
  have hext := executeBatch_extends hmid
  have hmv : mid.versions = fs.database.versions := hext.recorded.trans (List.append_nil _)
  obtain ⟨db', hdb'⟩ := exists_foldlM_recordVersion setup.now (hext.isSome rfl) hm.nodup
    (by
      intro m hmem hin
      have hle := mem_versions_le (hmv ▸ hin)
      have h0 : fs.database.versions.foldl max 0 = 0 := hfresh.1
      have hpos := List.mem_map_of_mem (f := (·.version)) hmem
      rw [hm.versions, List.mem_range'_1] at hpos
      omega)
  have hrun : runBootstrap setup.engine setup.now setup.bootstrap setup.migrations f.database =
      some db' := by
    rw [runBootstrap, hdb, hmid]
    exact hdb'
  have hall := runBootstrap_extends hrun
  have hhead := hm.latestVersion_mem (Nat.zero_le _ |>.trans_lt hv)
  rw [pendingAfter_zero hm] at hhead
  refine ⟨db', hrun, Migrated.of_extends hdue ?_ (hdb ▸ hall) (fun h => absurd hfresh h.2)
    fun _ => hb, hall.isSome (hdb ▸ rfl)⟩
  exact (hall.commits hm (fun _ h => h) hhead).head (hdb ▸ hv.le)

theorem Prepared.apply_migrations (hm : ValidSequence 0 setup.migrations)
    (hv : currentVersion fs.database < latestVersion setup.migrations)
    (hruns : Runs setup fs.database) (hdb : f.database = ensureSchemaTable fs.database)
    (hfresh : ¬ Fresh setup fs.database) (hb : f.backup = some (ensureSchemaTable fs.database)) :
    ∃ db', runMigrations setup.engine setup.now setup.migrations (currentVersion fs.database)
        f.database = some db' ∧
      Migrated setup fs { f with database := db' } ∧ db'.migrations.isSome := by
  have hdue : due setup fs.database =
      (pendingAfter (currentVersion fs.database) setup.migrations).map (·.sql) :=
    if_neg fun h => hfresh h.1
  obtain ⟨tables, htables⟩ := hruns
  rw [hdue] at htables
  have hsub := List.filter_sublist (l := setup.migrations)
    (p := fun m => ¬ m.version ≤ currentVersion fs.database)
  obtain ⟨db', hdb'⟩ := exists_foldlM_runMigration setup.now
    (show (ensureSchemaTable fs.database).migrations.isSome from rfl)
    (hm.nodup.sublist (hsub.map (·.version)))
    (fun m hmem hin => by
      have hle := mem_versions_le hin
      have hgt := (List.mem_filter.mp hmem).2
      simp only [decide_eq_true_eq] at hgt
      exact hgt hle) htables
  have hrun : runMigrations setup.engine setup.now setup.migrations (currentVersion fs.database)
      f.database = some db' := by
    rw [runMigrations, hdb]
    exact hdb'
  have hall := runMigrations_extends hrun
  refine ⟨db', hrun, Migrated.of_extends hdue ?_ (hdb ▸ hall) (fun _ => hb)
    fun h => absurd ⟨hv, hfresh⟩ h, hall.isSome (hdb ▸ rfl)⟩
  exact (hall.commits hm (fun _ h => List.mem_of_mem_filter h) (hm.latestVersion_mem hv)).head
    (hdb ▸ hv.le)

/-- A call that works alone goes on to the next stage, and at the last one commits. -/
theorem Prepared.advance (hm : ValidSequence 0 setup.migrations)
    (hv : currentVersion fs.database < latestVersion setup.migrations)
    (hruns : Runs setup fs.database) (hp : Prepared setup fs f s)
    (h : Migrate.advance setup f s = some (s', f')) :
    Prepared setup fs f' s' ∨
      s' = .returned (currentVersion fs.database) ∧ Migrated setup fs f' ∧
        f'.database.migrations.isSome := by
  cases s with
  | opening => exact hp.elim
  | reading => exact hp.elim
  | returned _ => exact hp.elim
  | failed _ => exact hp.elim
  | probing a =>
    obtain ⟨rfl, h0, hdb, hb⟩ := hp
    rw [Migrate.advance, preflight_of_lt hv, hdb] at h
    obtain ⟨rfl, rfl⟩ := Prod.mk.inj (Option.some.inj h)
    refine Or.inl ?_
    cases ht : setup.engine.hasUserTables fs.database.tables with
    | true =>
      show Prepared setup fs f (if (!setup.engine.hasUserTables fs.database.tables) then _ else _)
      rw [ht]
      exact ⟨rfl, fun hf => Bool.false_ne_true (hf.2.symm.trans ht), hdb⟩
    | false =>
      show Prepared setup fs f (if (!setup.engine.hasUserTables fs.database.tables) then _ else _)
      rw [ht]
      exact ⟨rfl, hdb, Or.inl ⟨rfl, ⟨h0, ht⟩, hb⟩⟩
  | copying a =>
    obtain ⟨rfl, hf, hdb⟩ := hp
    obtain ⟨rfl, rfl⟩ := Prod.mk.inj (Option.some.inj h)
    exact Or.inl ⟨rfl, hf, hdb, congrArg some hdb⟩
  | checking a =>
    obtain ⟨rfl, hf, hdb, hs⟩ := hp
    obtain ⟨rfl, rfl⟩ := Prod.mk.inj (Option.some.inj h)
    refine Or.inl ?_
    by_cases hb : f.backup.isSome
    · rw [if_pos hb]
      exact ⟨rfl, hf, hdb, hs, hb⟩
    · rw [if_neg hb]
      exact ⟨rfl, hf, hdb, hs⟩
  | removing a =>
    obtain ⟨rfl, hf, hdb, hs, hb⟩ := hp
    obtain ⟨b, hb⟩ := Option.isSome_iff_exists.mp hb
    rw [Migrate.advance, hb] at h
    obtain ⟨rfl, rfl⟩ := Prod.mk.inj (Option.some.inj h)
    exact Or.inl ⟨rfl, hf, hdb, hs⟩
  | replacing a =>
    obtain ⟨rfl, hf, hdb, hs⟩ := hp
    rw [Migrate.advance, hs] at h
    obtain ⟨rfl, rfl⟩ := Prod.mk.inj (Option.some.inj h)
    exact Or.inl ⟨rfl, hdb, Or.inr ⟨rfl, hf, rfl⟩⟩
  | applying a bootstrapPath =>
    obtain ⟨rfl, hdb, ⟨rfl, hf, hb⟩ | ⟨rfl, hf, hb⟩⟩ := hp
    · obtain ⟨db', hrun, hmig, hs⟩ := Prepared.apply_bootstrap hm hv hruns hdb hf hb
      rw [Migrate.advance, if_pos rfl, hrun] at h
      obtain ⟨rfl, rfl⟩ := Prod.mk.inj (Option.some.inj h)
      exact Or.inr ⟨rfl, hmig, hs⟩
    · obtain ⟨db', hrun, hmig, hs⟩ := Prepared.apply_migrations hm hv hruns hdb hf hb
      rw [Migrate.advance, if_neg Bool.false_ne_true, hrun] at h
      obtain ⟨rfl, rfl⟩ := Prod.mk.inj (Option.some.inj h)
      exact Or.inr ⟨rfl, hmig, hs⟩

/-! ## Runs in which the calls are apart -/

/-- What a run in which the calls are apart has come to: nobody has read the version, one call
works, or it has committed. -/
inductive Course (setup : Setup δ) (fs : Files δ) (w : World δ) : Prop where
  | waiting (early : ∀ p, (w.stage p).Early)
      (database : w.files.database = ensureSchemaTable fs.database ∨
        w.files.database = fs.database ∧ ∀ p, w.stage p = .opening)
      (backup : w.files.backup = fs.backup)
  | alone (p : Process) (prepared : Prepared setup fs w.files (w.stage p))
      (other : (w.stage p.other).Early)
  | served (p : Process) (returned : w.stage p = .returned (currentVersion fs.database))
      (migrated : Migrated setup fs w.files) (isSome : w.files.database.migrations.isSome)
      (other : (w.stage p.other).Early ∨
        w.stage p.other = .returned (latestVersion setup.migrations))

theorem Prepared.database_eq (h : Prepared setup fs f s) :
    f.database = ensureSchemaTable fs.database := by
  cases s with
  | opening => exact h.elim
  | reading => exact h.elim
  | returned _ => exact h.elim
  | failed _ => exact h.elim
  | probing _ => exact h.2.2.1
  | copying _ => exact h.2.2
  | checking _ => exact h.2.2.1
  | removing _ => exact h.2.2.1
  | replacing _ => exact h.2.2.1
  | applying _ _ => exact h.2.1

theorem Prepared.working_eq (h : Prepared setup fs f s) :
    s.working = some (currentVersion fs.database) := by
  cases s with
  | opening => exact h.elim
  | reading => exact h.elim
  | returned _ => exact h.elim
  | failed _ => exact h.elim
  | probing _ => exact congrArg some h.1
  | copying _ => exact congrArg some h.1
  | checking _ => exact congrArg some h.1
  | removing _ => exact congrArg some h.1
  | replacing _ => exact congrArg some h.1
  | applying _ _ => exact congrArg some h.1

theorem advance_opening (hm : ValidSequence 0 setup.migrations)
    (h : advance setup f .opening = some (s', f')) :
    s' = .reading ∧ f' = { f with database := ensureSchemaTable f.database } := by
  rw [advance, if_pos hm] at h
  obtain ⟨rfl, rfl⟩ := Prod.mk.inj (Option.some.inj h)
  exact ⟨rfl, rfl⟩

/-- Opening a database that has its schema table changes nothing. -/
theorem advance_opening_of_isSome (hm : ValidSequence 0 setup.migrations)
    (hs : f.database.migrations.isSome) (h : advance setup f .opening = some (s', f')) :
    s' = .reading ∧ f' = f := by
  obtain ⟨rfl, rfl⟩ := advance_opening hm h
  rw [ensureSchemaTable_of_isSome hs]
  exact ⟨rfl, rfl⟩

/-- The first call to read the version works alone. -/
theorem Prepared.of_reading (hv : currentVersion fs.database < latestVersion setup.migrations)
    (hdb : f.database = ensureSchemaTable fs.database) (hb : f.backup = fs.backup)
    (h : Migrate.advance setup f .reading = some (s', f')) : Prepared setup fs f' s' := by
  have hcur : currentVersion f.database = currentVersion fs.database := by
    rw [hdb, currentVersion_ensureSchemaTable]
  obtain ⟨s₁, hs₁, hcases⟩ := advance_reading setup (hcur ▸ hv.ne) (hcur ▸ hv.le)
  rw [h] at hs₁
  obtain ⟨rfl, rfl⟩ := Prod.mk.inj (Option.some.inj hs₁)
  rcases hcases with ⟨h0, rfl⟩ | ⟨h0, rfl⟩
  · exact ⟨(hcur.symm.trans h0).symm, rfl, hdb, hb⟩
  · exact ⟨hcur, fun hf => h0 (hcur.trans hf.1), hdb⟩

theorem Course.step (hm : ValidSequence 0 setup.migrations)
    (hv : currentVersion fs.database < latestVersion setup.migrations)
    (hruns : Runs setup fs.database) (hw : Course setup fs w) (hp : Apart w p)
    (h : Migrate.step setup w p = some w') : Course setup fs w' := by
  obtain ⟨hadv, hother⟩ := step_eq_some h
  cases hw with
  | waiting early database backup =>
    rcases early p with hs | hs
    · rw [hs] at hadv
      obtain ⟨hs', hfs⟩ := advance_opening hm hadv
      refine .waiting ((Process.forall_iff p).mpr ⟨Or.inr hs', hother ▸ early p.other⟩)
        (Or.inl ?_) (by rw [hfs]; exact backup)
      rw [hfs]
      rcases database with hdb | ⟨hdb, -⟩
      · show ensureSchemaTable w.files.database = _
        rw [hdb]
        exact ensureSchemaTable_of_isSome rfl
      · exact congrArg ensureSchemaTable hdb
    · rw [hs] at hadv
      have hdb : w.files.database = ensureSchemaTable fs.database :=
        database.resolve_right fun hopen => nomatch hs.symm.trans (hopen.2 p)
      exact .alone p (Prepared.of_reading hv hdb backup hadv) (hother ▸ early p.other)
  | alone q prepared other =>
    rcases q.eq_or_eq_other p with rfl | rfl
    · rcases prepared.advance hm hv hruns hadv with hpre | ⟨hret, hmig, hs⟩
      · exact .alone p hpre (hother ▸ other)
      · exact .served p hret hmig hs (Or.inl (hother ▸ other))
    · rcases other with hs | hs
      · rw [hs] at hadv
        have hsome : w.files.database.migrations.isSome := by rw [prepared.database_eq]; rfl
        obtain ⟨hs', hfs⟩ := advance_opening_of_isSome hm hsome hadv
        rw [Process.other_other] at hother
        exact .alone q (by rw [hfs, hother]; exact prepared) (Or.inr hs')
      · have hnone := hp hs
        rw [Process.other_other, prepared.working_eq] at hnone
        cases hnone
  | served q returned migrated isSome other =>
    rcases q.eq_or_eq_other p with rfl | rfl
    · rw [returned] at hadv
      cases hadv
    · rw [Process.other_other] at hother
      rcases other with (hs | hs) | hs
      · rw [hs] at hadv
        obtain ⟨hs', hfs⟩ := advance_opening_of_isSome hm isSome hadv
        exact .served q (hother ▸ returned) (hfs ▸ migrated) (hfs ▸ isSome) (Or.inl (Or.inr hs'))
      · rw [hs, advance, if_pos migrated.version] at hadv
        obtain ⟨hs', hfs⟩ := Prod.mk.inj (Option.some.inj hadv)
        exact .served q (hother ▸ returned) (hfs ▸ migrated) (hfs ▸ isSome)
          (Or.inr (by rw [← hs', migrated.version]))
      · rw [hs] at hadv
        cases hadv

theorem course_of_run (hm : ValidSequence 0 setup.migrations) {is : List Process}
    (hv : currentVersion fs.database < latestVersion setup.migrations)
    (hruns : Runs setup fs.database) (h : exec (step setup) (start fs) is = some w)
    (hapart : Along (step setup) Apart (start fs) is) : Course setup fs w := by
  refine exec_induction (fun is w =>
    Along (step setup) Apart (start fs) is → Course setup fs w)
    (fun _ => .waiting (fun _ => Or.inl rfl) (Or.inr ⟨rfl, fun _ => rfl⟩) rfl) ?_ h hapart
  intro is p w w' hrun hw hstep hapart
  rw [along_concat hrun] at hapart
  exact (hw hapart.1).step hm hv hruns hapart.2 hstep

/-- A call is over when it has returned or failed. -/
theorem over_of_advance_eq_none (h : advance setup f s = none) :
    (∃ applied, s = .returned applied) ∨ ∃ e, s = .failed e := by
  cases s with
  | opening => rw [advance] at h; split_ifs at h
  | reading => rw [advance] at h; split_ifs at h
  | probing _ => cases h
  | copying _ => cases h
  | checking _ => cases h
  | removing _ => rw [advance] at h; split at h <;> cases h
  | replacing _ => rw [advance] at h; split at h <;> cases h
  | applying _ _ => rw [advance] at h; split at h <;> cases h
  | returned a => exact Or.inl ⟨a, rfl⟩
  | failed e => exact Or.inr ⟨e, rfl⟩

theorem not_early_of_finished (hfin : w.Finished setup) (p : Process) : ¬ (w.stage p).Early := by
  rintro (hs | hs) <;> rcases over_of_advance_eq_none (hfin p) with ⟨a, ha⟩ | ⟨e, he⟩
  · exact nomatch hs.symm.trans ha
  · exact nomatch hs.symm.trans he
  · exact nomatch hs.symm.trans ha
  · exact nomatch hs.symm.trans he

theorem Prepared.not_finished (h : Prepared setup fs f s) : Migrate.advance setup f s ≠ none := by
  intro hnone
  rcases over_of_advance_eq_none hnone with ⟨a, rfl⟩ | ⟨e, rfl⟩
  · exact h.elim
  · exact h.elim

theorem Course.served_of_finished (hw : Course setup fs w) (hfin : w.Finished setup) :
    Served setup fs w := by
  cases hw with
  | waiting early _ _ => exact absurd (early .first) (not_early_of_finished hfin .first)
  | alone p prepared _ => exact absurd (hfin p) prepared.not_finished
  | served p returned migrated _ other =>
    have hother := other.resolve_left (not_early_of_finished hfin p.other)
    exact ⟨(Process.forall_iff p).mpr ⟨⟨_, returned⟩, ⟨_, hother⟩⟩, migrated⟩

/-! ## Nothing pending -/

/-- A run on a file that is at the head: no call finds anything to do. -/
structure Idle (setup : Setup δ) (fs : Files δ) (w : World δ) : Prop where
  stage : ∀ p, (w.stage p).Early ∨ w.stage p = .returned (latestVersion setup.migrations)
  versions : w.files.database.versions = fs.database.versions
  tables : w.files.database.tables = fs.database.tables
  history : w.files.database.history = fs.database.history
  backup : w.files.backup = fs.backup

theorem Idle.step (hm : ValidSequence 0 setup.migrations)
    (hv : currentVersion fs.database = latestVersion setup.migrations) (hw : Idle setup fs w)
    (h : Migrate.step setup w p = some w') : Idle setup fs w' := by
  obtain ⟨hadv, hother⟩ := step_eq_some h
  have hstage := hw.stage p.other
  rw [← hother] at hstage
  rcases hw.stage p with (hs | hs) | hs
  · rw [hs] at hadv
    obtain ⟨hs', hfs⟩ := advance_opening hm hadv
    exact {
      stage := (Process.forall_iff p).mpr ⟨Or.inl (Or.inr hs'), hstage⟩
      versions := by rw [hfs]; exact hw.versions
      tables := by rw [hfs]; exact hw.tables
      history := by rw [hfs]; exact hw.history
      backup := by rw [hfs]; exact hw.backup }
  · have hcur : currentVersion w.files.database = latestVersion setup.migrations := by
      rw [currentVersion, hw.versions]
      exact hv
    rw [hs, advance, if_pos hcur] at hadv
    obtain ⟨hs', hfs⟩ := Prod.mk.inj (Option.some.inj hadv)
    exact {
      stage := (Process.forall_iff p).mpr ⟨Or.inr (by rw [← hs', hcur]), hstage⟩
      versions := hfs ▸ hw.versions
      tables := hfs ▸ hw.tables
      history := hfs ▸ hw.history
      backup := hfs ▸ hw.backup }
  · rw [hs] at hadv
    cases hadv

theorem idle_of_run (hm : ValidSequence 0 setup.migrations) {is : List Process}
    (hv : currentVersion fs.database = latestVersion setup.migrations)
    (h : exec (step setup) (start fs) is = some w) :
    Idle setup fs w ∧ Along (step setup) Apart (start fs) is := by
  refine exec_induction
    (fun is w => Idle setup fs w ∧ Along (step setup) Apart (start fs) is)
    ⟨⟨fun _ => Or.inl (Or.inl rfl), rfl, rfl, rfl, rfl⟩, trivial⟩ ?_ h
  intro is p w w' hrun hw hstep
  refine ⟨hw.1.step hm hv hstep, (along_concat hrun).mpr ⟨hw.2, fun _ => ?_⟩⟩
  rcases hw.1.stage p.other with (hs | hs) | hs
  all_goals rw [hs]; rfl

theorem due_of_eq (hm : ValidSequence 0 setup.migrations)
    (hv : currentVersion fs.database = latestVersion setup.migrations) :
    due setup fs.database = [] := by
  rw [due, if_neg fun h => h.2.ne hv, pendingAfter_eq_nil hm hv.ge]
  rfl

theorem Idle.served_of_finished (hm : ValidSequence 0 setup.migrations)
    (hv : currentVersion fs.database = latestVersion setup.migrations) (hw : Idle setup fs w)
    (hfin : w.Finished setup) : Served setup fs w := by
  have hdue := due_of_eq hm hv
  refine ⟨fun p => ⟨_, (hw.stage p).resolve_left (not_early_of_finished hfin p)⟩, ?_⟩
  exact {
    version := by rw [currentVersion, hw.versions]; exact hv
    executed := by rw [hdue, hw.history, List.append_nil]
    tables := by rw [hdue, hw.tables]; rfl
    backup := fun h => absurd hv h.1.ne
    restored := fun h => absurd hv h.1.ne
    kept := fun _ => hw.backup }

/-! ## Two calls of `apply` -/

/-- **Two processes migrate one file.** In whatever order they take their steps, both calls succeed
and the file is migrated once iff the SQL that is due runs on it and no process reads the version
while the other works. -/
theorem apply_apply_iff (hm : ValidSequence 0 setup.migrations) (fs : Files δ)
    (hv : currentVersion fs.database ≤ latestVersion setup.migrations) (is : List Process)
    (w : World δ) (h : exec (step setup) (start fs) is = some w) (hfin : w.Finished setup) :
    Served setup fs w ↔
      Runs setup fs.database ∧ Along (step setup) Apart (start fs) is := by
  rcases hv.eq_or_lt with hv | hv
  · obtain ⟨hidle, hapart⟩ := idle_of_run hm hv h
    have hruns : Runs setup fs.database := ⟨fs.database.tables, by rw [due_of_eq hm hv]; rfl⟩
    exact iff_of_true (hidle.served_of_finished hm hv hfin) ⟨hruns, hapart⟩
  · refine ⟨fun hserved => ⟨⟨_, hserved.2.tables⟩, ?_⟩, fun ⟨hruns, hapart⟩ =>
      (course_of_run hm hv hruns h hapart).served_of_finished hfin⟩
    obtain ⟨hledger, hover⟩ := ledger_of_run hm hv h
    exact Classical.byContradiction fun hapart => (hover hapart).not_returned hledger hserved.1

end

/-! ## A race -/

/-- Tables by the SQL that created them; creating one again fails. -/
def sampleEngine : Engine (List String) where
  executeBatch sql tables := if sql ∈ tables then none else some (tables ++ [sql])
  hasUserTables tables := !tables.isEmpty

def sampleSetup : Setup (List String) where
  engine := sampleEngine
  bootstrap := ⟨"CREATE TABLE foo (x INTEGER, y TEXT);"⟩
  migrations :=
    [⟨1, "initial", "CREATE TABLE foo (x INTEGER);"⟩,
      ⟨2, "add_y", "ALTER TABLE foo ADD COLUMN y TEXT;"⟩]
  now _ := 1700000000

/-- A database at version 1, which has never been backed up. -/
def sampleFiles : Files (List String) where
  database :=
    ⟨some [⟨1, "initial", 1600000000⟩], ["CREATE TABLE foo (x INTEGER);"],
      ["CREATE TABLE foo (x INTEGER);"]⟩
  backup := none
  staged := none

/-- Both processes read version 1; the second takes its backup after the first has committed. -/
def racedRun : List Process :=
  [.first, .second, .first, .second, .first, .first, .first, .first, .second, .second, .second,
    .second, .second]

/-- The second process fails, and what is left as the backup is the migrated database. -/
theorem race_not_served :
    ValidSequence 0 sampleSetup.migrations ∧
      currentVersion sampleFiles.database ≤ latestVersion sampleSetup.migrations ∧
      Runs sampleSetup sampleFiles.database ∧
      ∃ w, exec (step sampleSetup) (start sampleFiles) racedRun = some w ∧
        w.Finished sampleSetup ∧ w.stage .second = .failed .sqlite ∧
        rollback w.files = some { w.files with backup := none } ∧
        ¬ Served sampleSetup sampleFiles w := by
  refine ⟨by decide, by decide, ⟨_, rfl⟩, _, rfl, ?_, rfl, rfl, ?_⟩
  · rintro (_ | _) <;> rfl
  · rintro ⟨hret, -⟩
    obtain ⟨a, ha⟩ := hret .second
    cases ha

/-- One process after the other. -/
theorem apply_apply_in_turn :
    ∃ w, exec (step sampleSetup) (start sampleFiles)
        [.first, .first, .first, .first, .first, .first, .second, .second] = some w ∧
      (Served sampleSetup sampleFiles w ↔
        Runs sampleSetup sampleFiles.database ∧
          Along (step sampleSetup) Apart (start sampleFiles)
            [.first, .first, .first, .first, .first, .first, .second, .second]) := by
  refine ⟨_, rfl, apply_apply_iff (by decide) sampleFiles (by decide) _ _ rfl ?_⟩
  rintro (_ | _) <;> rfl

end Tokn.Migrate
