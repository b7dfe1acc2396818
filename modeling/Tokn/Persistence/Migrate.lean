import Mathlib.Tactic
import Tokn.Lib.Machine

/-!
# Schema migrations

`crates/persistence/src/migrate.rs`: what `apply` does to a database file and to its backup, one
step after the other, so that two processes can take their steps in any order. A SQL transaction is
one step, and so is each file operation of `backup`. What a batch of SQL does to the tables of the
user is a parameter.
-/

namespace Tokn.Migrate

/-! ## Databases -/

structure Migration where
  version : Nat
  name : String
  sql : String
  deriving DecidableEq

/-- SQL that creates the current schema on a fresh database. -/
structure Bootstrap where
  sql : String
  deriving DecidableEq

/-- A row of `schema_migrations`. -/
structure AppliedRow where
  version : Nat
  name : String
  appliedTs : Int
  deriving DecidableEq

/-- What SQL does to the tables of the user; a batch that fails has no result. -/
structure Engine (δ : Type) where
  executeBatch : String → δ → Option δ
  hasUserTables : δ → Bool

/-- A database file: the rows of `schema_migrations`, if there is such a table, the tables of the
user, and the batches that made them. -/
structure Database (δ : Type) where
  migrations : Option (List AppliedRow)
  tables : δ
  history : List String
  deriving DecidableEq

section

variable {δ : Type}

def ensureSchemaTable (db : Database δ) : Database δ :=
  { db with migrations := some (db.migrations.getD []) }

def Database.versions (db : Database δ) : List Nat := (db.migrations.getD []).map (·.version)

/-- `MAX(version)`. -/
def currentVersion (db : Database δ) : Nat := db.versions.foldl max 0

/-- `assert!` stops at the first version that is not one more than the version before it. -/
def ValidSequence : Nat → List Migration → Prop
  | _, [] => True
  | prev, m :: ms => m.version = prev + 1 ∧ ValidSequence m.version ms

instance : ∀ prev ms, Decidable (ValidSequence prev ms)
  | _, [] => isTrue trivial
  | prev, m :: ms =>
    have := instDecidableValidSequence m.version ms
    inferInstanceAs (Decidable (m.version = prev + 1 ∧ ValidSequence m.version ms))

def latestVersion (migrations : List Migration) : Nat :=
  (migrations.getLast?.map (·.version)).getD 0

/-! ## The transaction -/

/-- `INSERT INTO schema_migrations`; the version is the primary key. -/
def recordVersion (now : Nat → Int) (db : Database δ) (m : Migration) : Option (Database δ) :=
  db.migrations.bind fun rows =>
    if m.version ∈ rows.map (·.version) then none
    else some { db with migrations := some (rows ++ [⟨m.version, m.name, now m.version⟩]) }

def executeBatch (engine : Engine δ) (sql : String) (db : Database δ) : Option (Database δ) :=
  (engine.executeBatch sql db.tables).map fun tables =>
    { db with tables := tables, history := db.history ++ [sql] }

def runBootstrap (engine : Engine δ) (now : Nat → Int) (bootstrap : Bootstrap)
    (migrations : List Migration) (db : Database δ) : Option (Database δ) :=
  (executeBatch engine bootstrap.sql db).bind fun db => migrations.foldlM (recordVersion now) db

def runMigration (engine : Engine δ) (now : Nat → Int) (db : Database δ) (m : Migration) :
    Option (Database δ) :=
  (executeBatch engine m.sql db).bind fun db => recordVersion now db m

/-- The migrations after a version. -/
def pendingAfter (applied : Nat) (migrations : List Migration) : List Migration :=
  migrations.filter fun m => ¬ m.version ≤ applied

def runMigrations (engine : Engine δ) (now : Nat → Int) (migrations : List Migration)
    (applied : Nat) (db : Database δ) : Option (Database δ) :=
  (pendingAfter applied migrations).foldlM (runMigration engine now) db

/-! ## Files -/

/-- The database file, its `.bak`, and the `.bak.tmp` the backup is staged in. -/
structure Files (δ : Type) where
  database : Database δ
  backup : Option (Database δ)
  staged : Option (Database δ)
  deriving DecidableEq

/-- `rollback`: the backup takes the place of the database. -/
def rollback (fs : Files δ) : Option (Files δ) :=
  fs.backup.map fun db => { fs with database := db, backup := none }

/-! ## The steps of `apply` -/

inductive Failure where
  | panic
  | sqlite
  | io
  deriving DecidableEq

/-- Where a call of `apply` stands, with what it has read. `opening` to `probing` are the reads,
`copying` to `replacing` the file operations of `backup`. -/
inductive Stage where
  | opening
  | reading
  | probing (applied : Nat)
  | copying (applied : Nat)
  | checking (applied : Nat)
  | removing (applied : Nat)
  | replacing (applied : Nat)
  | applying (applied : Nat) (bootstrapPath : Bool)
  | returned (applied : Nat)
  | failed (e : Failure)
  deriving DecidableEq

/-- What is fixed for all calls: the SQL, and the clock, read once for each version. -/
structure Setup (δ : Type) where
  engine : Engine δ
  bootstrap : Bootstrap
  migrations : List Migration
  now : Nat → Int

variable (setup : Setup δ)

/-- Is there anything to do, and does it take a backup first? -/
def preflight (applied : Nat) (bootstrapPath : Bool) : Stage :=
  if bootstrapPath = false ∧ latestVersion setup.migrations ≤ applied then .returned applied
  else if bootstrapPath then .applying applied true
  else .copying applied

/-- The next step of a call, unless it is over. -/
def advance (fs : Files δ) : Stage → Option (Stage × Files δ)
  | .opening =>
    if ValidSequence 0 setup.migrations then
      some (.reading, { fs with database := ensureSchemaTable fs.database })
    else some (.failed .panic, fs)
  | .reading =>
    let applied := currentVersion fs.database
    if applied = latestVersion setup.migrations then some (.returned applied, fs)
    else if applied = 0 then some (.probing applied, fs)
    else some (preflight setup applied false, fs)
  | .probing applied =>
    some (preflight setup applied (!setup.engine.hasUserTables fs.database.tables), fs)
  | .copying applied => some (.checking applied, { fs with staged := some fs.database })
  | .checking applied =>
    some (if fs.backup.isSome then .removing applied else .replacing applied, fs)
  | .removing applied =>
    match fs.backup with
    | some _ => some (.replacing applied, { fs with backup := none })
    | none => some (.failed .io, fs)
  | .replacing applied =>
    match fs.staged with
    | some db => some (.applying applied false, { fs with backup := some db, staged := none })
    | none => some (.failed .io, fs)
  | .applying applied bootstrapPath =>
    match
      if bootstrapPath then
        runBootstrap setup.engine setup.now setup.bootstrap setup.migrations fs.database
      else runMigrations setup.engine setup.now setup.migrations applied fs.database
    with
    | some db => some (.returned applied, { fs with database := db })
    | none => some (.failed .sqlite, fs)
  | .returned _ => none
  | .failed _ => none

/-! ## Two processes -/

inductive Process where
  | first
  | second
  deriving DecidableEq

def Process.other : Process → Process
  | .first => .second
  | .second => .first

/-- The files, and where each process stands. -/
structure World (δ : Type) where
  files : Files δ
  stage : Process → Stage

def start (fs : Files δ) : World δ := ⟨fs, fun _ => .opening⟩

/-- One process takes its next step. -/
def step (w : World δ) (p : Process) : Option (World δ) :=
  (advance setup w.files (w.stage p)).map fun (s, fs) => ⟨fs, Function.update w.stage p s⟩

end

end Tokn.Migrate
