import Tokn.Lib.Directory
import Tokn.Lib.Interference
import Tokn.Persistence.Events

/-!
# Pruning a request database

`prune_request_db` of `crates/persistence/src/archive.rs`: a request database whose archive
decompresses to the same digest is deleted. The files of the request directory are changed by
others between any two file operations, and each operation may fail. A file that is open stays
readable, and its contents do not change.
-/

namespace Tokn.Persistence

/-! ## File operations -/

/-- A file in a directory. -/
structure FilePath where
  parent : String
  name : String
  deriving DecidableEq

def FilePath.display (p : FilePath) : String := p.parent ++ "/" ++ p.name

/-- `exhausted` is not of the source: it ends a loop that would go on. -/
inductive IoErrorKind where
  | notFound
  | invalidInput
  | other
  | exhausted
  deriving DecidableEq

structure IoError where
  kind : IoErrorKind
  message : String
  deriving DecidableEq

inductive FileOp where
  | symlinkMetadata (path : FilePath)
  | openFile (path : FilePath)
  | cloneHandle
  | openHandle (path : FilePath)
  | linkCount
  | rewind
  | readToEnd
  | rename (src dst : FilePath)
  | removeFile (path : FilePath)
  deriving DecidableEq

/-- Another file that is to take the place of the source, which is renamed to `aside`. -/
structure Replacement where
  aside : FilePath
  inode : Inode
  deriving DecidableEq

/-- The request directory, the replacement that has not been made yet, the inodes that were removed,
and `PRUNE_QUARANTINE_SEQUENCE`. -/
structure PruneWorld where
  dir : Directory FilePath
  replacement : Option Replacement
  removed : List Inode := []
  sequence : Nat := 0
  deriving DecidableEq

/-- The replacement is made, once. -/
def PruneWorld.replace (db : FilePath) (w : PruneWorld) : PruneWorld :=
  match w.replacement with
  | none => w
  | some r => { w with dir := w.dir.replace db r.aside r.inode, replacement := none }

/-- When the source is replaced, and which operations fail. -/
structure Schedule where
  replaces : Nat → FileOp → Bool
  fails : Nat → FileOp → Option String

def Schedule.environment (schedule : Schedule) (db : FilePath) :
    Environment PruneWorld FileOp IoError where
  act n o w := if schedule.replaces n o then w.replace db else w
  fail n o := (schedule.fails n o).map fun message => ⟨.other, message⟩

abbrev FileM (α : Type) := Prog PruneWorld IoError α

abbrev FileEnv := Environment PruneWorld FileOp IoError

/-- What pruning gets from outside: the digest, the decompression of the format, and the contents
of the files. -/
structure Archives where
  sha256 : Bytes → Bytes
  decompress : Bytes → Except String Bytes
  content : Inode → Bytes
  pid : Nat

def notFound : IoError := ⟨.notFound, "No such file or directory (os error 2)"⟩

def invalidFile (path : FilePath) (reason : String) : IoError :=
  ⟨.invalidInput, path.display ++ " " ++ reason⟩

section

variable (env : FileEnv)

def symlinkMetadata (path : FilePath) : FileM Node :=
  Prog.read env (.symlinkMetadata path) fun w =>
    match w.dir.get path with
    | some node => .ok node
    | none => .error notFound

/-- Open a file without following a symlink. -/
def openFile (path : FilePath) : FileM Inode :=
  Prog.read env (.openFile path) fun w =>
    match w.dir.get path with
    | some (.file i) => .ok i
    | some .symlink => .error ⟨.other, "Too many levels of symbolic links (os error 40)"⟩
    | some .directory => .error (invalidFile path "must be a regular file")
    | none => .error notFound

/-- `same_file::Handle::from_file`. -/
def cloneHandle : FileM Unit := Prog.read env .cloneHandle fun _ => .ok ()

/-- `same_file::Handle::from_path`. -/
def openHandle (path : FilePath) : FileM Inode :=
  Prog.read env (.openHandle path) fun w =>
    match w.dir.get path with
    | some (.file i) => .ok i
    | some _ => .error ⟨.other, "not a file"⟩
    | none => .error notFound

def fileLinkCount (file : Inode) : FileM Nat :=
  Prog.read env .linkCount fun w => .ok (w.dir.links file)

/-- `fs::rename`. -/
def renameFile (src dst : FilePath) : FileM Unit :=
  Prog.op env (.rename src dst) fun w =>
    match w.dir.rename src dst with
    | some dir => (.ok (), { w with dir := dir })
    | none => (.error notFound, w)

def removeFile (path : FilePath) : FileM Unit :=
  Prog.op env (.removeFile path) fun w =>
    match w.dir.unlink path with
    | some (i, dir) => (.ok (), { w with dir := dir, removed := w.removed ++ i.toList })
    | none => (.error notFound, w)

/-! ## Stable files -/

/-- A file that is open, and the path it was opened at. -/
structure StableFile where
  path : FilePath
  file : Inode
  deriving DecidableEq

/-- `validate_regular_file_path`, of a file that may not be missing. -/
def validateRegularFilePath (path : FilePath) : FileM Unit := do
  let node ← symlinkMetadata env path
  Prog.rejectIf (node = .symlink) (invalidFile path "must not be a symlink")
  Prog.rejectIf (node = .directory) (invalidFile path "must be a regular file")

/-- `revalidate_opened_file`, of a file that must have a single link. -/
def revalidateOpenedFile (path : FilePath) (file : Inode) : FileM Unit := do
  validateRegularFilePath env path
  cloneHandle env
  let linked ← openHandle env path
  Prog.rejectIf (linked ≠ file) (invalidFile path "changed while it was being opened or used")
  let links ← fileLinkCount env file
  Prog.rejectIf (links ≠ 1) (invalidFile path "must not have multiple hard links")

namespace StableFile

def «open» (path : FilePath) : FileM StableFile := do
  validateRegularFilePath env path
  let file ← openFile env path
  revalidateOpenedFile env path file
  pure ⟨path, file⟩

def revalidateAt (file : StableFile) (path : FilePath) : FileM Unit :=
  revalidateOpenedFile env path file.file

def revalidate (file : StableFile) : FileM Unit := file.revalidateAt env file.path

end StableFile

/-! ## Digests -/

variable (a : Archives)

/-- The contents of a file that is open. Between the reads of it nothing can change them. -/
def readToEnd (file : Inode) : FileM Bytes := Prog.read env .readToEnd fun _ => .ok (a.content file)

def hashFile (file : StableFile) : FileM Bytes := do
  Prog.read env .rewind fun _ => .ok ()
  let bytes ← readToEnd env a file.file
  file.revalidate env
  pure (a.sha256 bytes)

def hashArchive (file : StableFile) : FileM Bytes := do
  Prog.read env .rewind fun _ => .ok ()
  let bytes ← Prog.read env .readToEnd fun _ =>
    match a.decompress (a.content file.file) with
    | .ok bytes => .ok bytes
    | .error message => .error ⟨.other, message⟩
  file.revalidate env
  pure (a.sha256 bytes)

def hexDigest (digest : Bytes) : String :=
  String.ofList (digest.flatMap fun byte =>
    [Nat.digitChar (byte.toNat / 16), Nat.digitChar (byte.toNat % 16)])

/-! ## Removing a file -/

/-- The `sequence`-th name for the quarantine of a file. -/
def quarantinePath (path : FilePath) (sequence : Nat) : FilePath :=
  ⟨path.parent, "." ++ path.name ++ ".prune-" ++ toString a.pid ++ "-" ++ toString sequence ++ ".tmp"⟩

/-- Whether `fs::symlink_metadata` finds nothing; any other error is reported. -/
def isMissing (path : FilePath) (report : IoError → IoError) : FileM Bool :=
  ((do let _ ← symlinkMetadata env path; pure false) : FileM Bool).catching fun error =>
    if error.kind = .notFound then pure true else throw (report error)

/-- `unused_quarantine_path`, with a bound on the names it tries. -/
def unusedQuarantinePath (path : FilePath) : Nat → FileM FilePath
  | 0 => throw ⟨.exhausted, "no name is unused"⟩
  | fuel + 1 => do
    let sequence ← Prog.own fun w : PruneWorld =>
      (w.sequence, { w with sequence := w.sequence + 1 })
    let candidate := quarantinePath a path sequence
    let unused ← isMissing env candidate id
    if unused then pure candidate else unusedQuarantinePath path fuel

/-- The end of the message of a file that stays in quarantine. -/
def retained (cause : IoError) (quarantine : FilePath) (reason : String) : IoError :=
  ⟨cause.kind, cause.message ++ "; verified data was retained at " ++ quarantine.display ++
    " because " ++ reason⟩

/-- `restore_quarantined_file`: rename it back, unless there is a file again. It gives the error of
the caller. -/
def restoreQuarantinedFile (quarantine original : FilePath) (cause : IoError) : FileM Unit := do
  let missing ← isMissing env original fun error =>
    retained cause quarantine ("inspecting " ++ original.display ++ " failed: " ++ error.message)
  Prog.rejectIf (missing = false)
    (retained cause quarantine (original.display ++ " was recreated"))
  (renameFile env quarantine original).mapError fun error =>
    retained cause quarantine ("restoring " ++ original.display ++ " failed: " ++ error.message)
  throw cause

def removeStableFile (fuel : Nat) (file : StableFile) : FileM Unit := do
  file.revalidate env
  let quarantine ← unusedQuarantinePath env a file.path fuel
  renameFile env file.path quarantine
  (file.revalidateAt env quarantine).catching
    fun error => restoreQuarantinedFile env quarantine file.path error
  (removeFile env quarantine).catching
    fun error => restoreQuarantinedFile env quarantine file.path error

/-! ## Pruning -/

inductive PruneOutcome where
  | verified (sha256 : String)
  | deleted (sha256 : String)
  | missingArchive
  | hashMismatch (sourceSha256 archivedSha256 : String)
  | failed (error : String)
  deriving DecidableEq

/-- What a failure is reported as. -/
def failing {α : Type} (what : String) (c : FileM α) : Prog PruneWorld PruneOutcome α :=
  c.mapError fun error => .failed (what ++ ": " ++ error.message)

def pruneRequestDb (fuel : Nat) (db archive : FilePath) (commit : Bool) :
    Prog PruneWorld PruneOutcome PruneOutcome := do
  let archiveFile ← (StableFile.open env archive).mapError fun error =>
    if error.kind = .notFound then .missingArchive
    else .failed ("open archive " ++ archive.display ++ ": " ++ error.message)
  let sourceFile ← failing ("open request database " ++ db.display) (StableFile.open env db)
  let archivedDigest ← failing ("verify archive " ++ archive.display) (hashArchive env a archiveFile)
  let sourceDigest ← failing ("hash request database " ++ db.display) (hashFile env a sourceFile)
  Prog.rejectIf (sourceDigest ≠ archivedDigest)
    (.hashMismatch (hexDigest sourceDigest) (hexDigest archivedDigest))
  Prog.rejectIf (commit = false) (.verified (hexDigest sourceDigest))
  let currentDigest ← failing ("recheck archive " ++ archive.display)
    (hashArchive env a archiveFile)
  Prog.rejectIf (currentDigest ≠ archivedDigest)
    (.failed ("archive " ++ archive.display ++ " changed during verification"))
  let currentDigest ← failing ("recheck request database " ++ db.display)
    (hashFile env a sourceFile)
  Prog.rejectIf (currentDigest ≠ sourceDigest)
    (.failed ("request database " ++ db.display ++ " changed during verification"))
  failing ("revalidate archive " ++ archive.display ++ " before deletion")
    (archiveFile.revalidate env)
  failing ("delete verified request database " ++ db.display)
    (removeStableFile env a fuel sourceFile)
  pure (.deleted (hexDigest sourceDigest))

end

/-- The outcome of pruning, and what it leaves. -/
def prune (a : Archives) (schedule : Schedule) (fuel : Nat) (db archive : FilePath)
    (commit : Bool) (w : PruneWorld) : PruneOutcome × PruneWorld :=
  match (pruneRequestDb (schedule.environment db) a fuel db archive commit).outcome ⟨w, 0⟩ with
  | (.ok outcome, w) => (outcome, w.state)
  | (.error outcome, w) => (outcome, w.state)

end Tokn.Persistence
