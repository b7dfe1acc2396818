import Mathlib
import Tokn.Lib.Table
import Tokn.Lib.Except
import Tokn.Lib.Stateful

/-!
# The credential store

Accounts come from the root `auth.yaml` and from the shards `auth.d/<name>.yaml`. The store merges
them into one list and remembers which source each account belongs to, what each source held when
it was read (`SourceBaseline`, the YAML of each account) and the exact bytes it had
(`SourceSnapshot`). Saving writes the sources whose accounts changed, after a check that nobody
else changed any of them.

The files are named by their sources. Reading and writing YAML is a parameter (`Yaml`).
-/

namespace Tokn.Auth

/-! ## Sources and files -/

/-- A source of credentials. -/
inductive AuthSource where
  | main
  | shard (name : String)
  deriving DecidableEq

namespace AuthSource

def lt : AuthSource → AuthSource → Prop
  | main, shard _ => True
  | shard a, shard b => a < b
  | _, _ => False

instance : LT AuthSource := ⟨lt⟩

instance : DecidableLT AuthSource
  | main, main => isFalse id
  | main, shard _ => isTrue trivial
  | shard _, main => isFalse id
  | shard a, shard b => inferInstanceAs (Decidable (a < b))

theorem shard_lt {a b : String} : shard a < shard b ↔ a < b := Iff.rfl

instance : IsStrictTotalOrder AuthSource (· < ·) where
  irrefl s := by
    cases s with
    | main => exact id
    | shard a => exact lt_irrefl a
  trans s t u hst htu := by
    cases s with
    | main =>
      cases u with
      | main =>
        cases t with
        | main => exact hst
        | shard b => exact htu.elim
      | shard c => trivial
    | shard a =>
      cases t with
      | main => exact hst.elim
      | shard b =>
        cases u with
        | main => exact htu.elim
        | shard c => exact shard_lt.mpr (lt_trans (shard_lt.mp hst) (shard_lt.mp htu))
  trichotomous s t hst hts := by
    cases s with
    | main =>
      cases t with
      | main => rfl
      | shard b => exact absurd trivial hst
    | shard a =>
      cases t with
      | main => exact absurd trivial hts
      | shard b =>
        exact congrArg shard (le_antisymm (not_lt.mp fun h => hts h) (not_lt.mp fun h => hst h))

end AuthSource

/-- The root auth file, or `auth.d/<name>.yaml`. -/
abbrev PathBuf := AuthSource

inductive AuthError where
  | io (path : PathBuf)
  | notUtf8 (path : PathBuf)
  | yaml (message : String)
  | unsupportedVersion (path : PathBuf) (version : Nat)
  | invalidShardName (shard : String)
  | symlink (path : PathBuf)
  | changed (path : PathBuf)
  | sourcesChanged
  | appeared (path : PathBuf)
  | missingSnapshot (path : PathBuf)
  | duplicateInMemory (id : String)
  | duplicateAcross (id : String) (previous path : PathBuf)
  | duplicateInSource (id : String)
  | alreadyOwned (id : String) (existing target : PathBuf)
  | belongsTo (id : String) (existing source : PathBuf)
  /-- An `expect` that does not hold. -/
  | panicked
  deriving DecidableEq

/-- What a name in a directory refers to; a symbolic link comes with the file it leads to. -/
inductive Entry where
  | file (contents : ByteArray)
  | symlink (target : Option ByteArray)
  | directory
  deriving DecidableEq

/-- The root auth file and the entries of `auth.d` with the extension `yaml`. -/
structure Disk where
  entries : Table PathBuf Entry
  keyed : Table.Keyed entries

namespace Disk

def get (d : Disk) (path : PathBuf) : Option Entry := d.entries.get path

def put (d : Disk) (path : PathBuf) (entry : Entry) : Disk :=
  ⟨Table.set d.entries path entry, d.keyed.set path entry⟩

/-- `Path::exists`, which follows links. -/
def «exists» (d : Disk) (path : PathBuf) : Bool :=
  match d.get path with
  | none => false
  | some (.symlink target) => target.isSome
  | some _ => true

/-- The names of the shards: the regular files of `auth.d`. -/
def shardNames (d : Disk) : List String :=
  d.entries.filterMap fun
    | (.shard name, .file _) => some name
    | _ => none

theorem get_put (d : Disk) (path : PathBuf) (entry : Entry) (p : PathBuf) :
    (d.put path entry).get p = if p = path then some entry else d.get p := Table.get_set ..

theorem mem_entries {d : Disk} {path : PathBuf} {entry : Entry} :
    (path, entry) ∈ d.entries ↔ d.get path = some entry := (BTreeMap.get_eq_some_iff d.keyed).symm

end Disk

/-! ## Accounts and their YAML -/

/-- An account: its id, and what the store does not look at. -/
structure AccountConfig (ρ : Type) where
  id : String
  rest : ρ
  deriving DecidableEq

structure AuthFile (ρ : Type) where
  version : Nat
  accounts : List (AccountConfig ρ)

def CURRENT_VERSION : Nat := 1

/-- `serde_yaml`. -/
structure Yaml (ρ : Type) where
  accountToString : AccountConfig ρ → Except AuthError String
  fileToString : AuthFile ρ → Except AuthError String
  fileFromStr : String → Except AuthError (AuthFile ρ)

variable {ρ : Type} (y : Yaml ρ)

abbrev SourceBaseline := BTreeMap String String

inductive SourceSnapshot where
  | missing
  | contents (bytes : ByteArray)
  deriving DecidableEq

inductive AuthFileInstall where
  | createIfAbsent
  | replace
  deriving DecidableEq

namespace SourceSnapshot

def capture (d : Disk) (path : PathBuf) : Except AuthError SourceSnapshot :=
  match d.get path with
  | none => .ok .missing
  | some (.file bytes) => .ok (.contents bytes)
  | some (.symlink (some bytes)) => .ok (.contents bytes)
  | some (.symlink none) => .ok .missing
  | some .directory => .error (.io path)

def validate (s : SourceSnapshot) (d : Disk) (path : PathBuf) : Except AuthError Unit := do
  let current ← capture d path
  Except.rejectIf (current ≠ s) (.changed path)

def installMode : SourceSnapshot → AuthFileInstall
  | .missing => .createIfAbsent
  | .contents _ => .replace

end SourceSnapshot

/-- `byte.is_ascii_alphanumeric() || matches!(byte, b'-' | b'_')`. -/
def isShardByte (c : Char) : Bool := c.isAlphanum || c == '-' || c == '_'

def validateShardName (shard : String) : Except AuthError Unit :=
  Except.rejectIf (shard.isEmpty || !shard.toList.all isShardByte) (.invalidShardName shard)

def parseAuthFile (path : PathBuf) (contents : ByteArray) : Except AuthError (AuthFile ρ) :=
  match String.fromUTF8? contents with
  | none => .error (.notUtf8 path)
  | some raw => do
    let parsed ← y.fileFromStr raw
    Except.rejectIf (parsed.version ≠ CURRENT_VERSION) (.unsupportedVersion path parsed.version)
    pure parsed

def accountFingerprints (accounts : List (AccountConfig ρ)) : Except AuthError SourceBaseline :=
  accounts.foldlM (fun fingerprints account => do
    let fingerprint ← y.accountToString account
    Except.rejectIf (fingerprints.contains account.id) (.duplicateInSource account.id)
    pure (fingerprints.insert account.id fingerprint)) []

def discoverShards (d : Disk) : Except AuthError (List (AuthSource × PathBuf)) := do
  let shards ← d.shardNames.mapM fun name => do
    validateShardName name
    pure (AuthSource.shard name, AuthSource.shard name)
  pure (shards.mergeSort fun left right => ¬ right.1 < left.1)

def rejectAuthSymlink (d : Disk) (path : PathBuf) : Except AuthError Unit :=
  match d.get path with
  | some (.symlink _) => .error (.symlink path)
  | _ => .ok ()

def validateDirectAuthLayout (d : Disk) : Except AuthError Unit := do
  rejectAuthSymlink d .main
  d.entries.forM fun
    | (.shard name, .symlink _) => .error (.symlink (.shard name))
    | _ => .ok ()

/-! ## The store -/

structure AuthStore (ρ : Type) where
  accounts : List (AccountConfig ρ)
  accountSources : BTreeMap String AuthSource
  sourcePaths : BTreeMap AuthSource PathBuf
  sourceBaselines : BTreeMap AuthSource SourceBaseline
  sourceSnapshots : BTreeMap AuthSource SourceSnapshot

namespace AuthStore

def empty : AuthStore ρ := ⟨[], [], [], [], []⟩

def shardPathFor (shard : String) : Except AuthError PathBuf := do
  validateShardName shard
  pure (.shard shard)

def sourcePath (st : AuthStore ρ) (source : AuthSource) : Except AuthError PathBuf :=
  match st.sourcePaths.get source with
  | some path => .ok path
  | none =>
    match source with
    | .main => .ok .main
    | .shard shard => shardPathFor shard

def accountSource (st : AuthStore ρ) (id : String) : Option AuthSource := st.accountSources.get id

def loadAccount (source : AuthSource) (path : PathBuf) (st : AuthStore ρ)
    (account : AccountConfig ρ) : Except AuthError (AuthStore ρ) :=
  match st.accountSources.get account.id with
  | some previousSource => do
    let previousPath ← st.sourcePath previousSource
    .error (.duplicateAcross account.id previousPath path)
  | none =>
    .ok { st with
      accountSources := st.accountSources.insert account.id source
      accounts := st.accounts ++ [account] }

/-- The accounts of a source, as they were when it was read. -/
def readAccounts (path : PathBuf) : SourceSnapshot → Except AuthError (List (AccountConfig ρ))
  | .missing => .ok []
  | .contents contents => (parseAuthFile y path contents).map AuthFile.accounts

def loadSource (d : Disk) (st : AuthStore ρ) (source : AuthSource) (path : PathBuf) :
    Except AuthError (AuthStore ρ) := do
  let snapshot ← SourceSnapshot.capture d path
  let accounts ← readAccounts y path snapshot
  let baseline ← accountFingerprints y accounts
  let st := { st with sourcePaths := st.sourcePaths.insert source path }
  let st ← accounts.foldlM (loadAccount source path) st
  pure { st with
    sourceBaselines := st.sourceBaselines.insert source baseline
    sourceSnapshots := st.sourceSnapshots.insert source snapshot }

def load (d : Disk) : Except AuthError (AuthStore ρ) := do
  let st ← loadSource y d empty .main .main
  let shards ← discoverShards d
  shards.foldlM (fun st shard => loadSource y d st shard.1 shard.2) st

/-! ## Edits in memory -/

/-- Replace the first account with the id, or add the account at the end. -/
def replaceOrPush (accounts : List (AccountConfig ρ)) (account : AccountConfig ρ) :
    List (AccountConfig ρ) :=
  match accounts with
  | [] => [account]
  | a :: accounts =>
    if a.id = account.id then account :: accounts else a :: replaceOrPush accounts account

/-- The source is known from now on, and there is nothing at its path. -/
def register (st : AuthStore ρ) (source : AuthSource) (path : PathBuf) : AuthStore ρ :=
  { st with
    sourcePaths := st.sourcePaths.insert source path
    sourceBaselines :=
      if st.sourceBaselines.contains source then st.sourceBaselines
      else st.sourceBaselines.insert source []
    sourceSnapshots := st.sourceSnapshots.insert source .missing }

def place (st : AuthStore ρ) (source : AuthSource) (account : AccountConfig ρ) : AuthStore ρ :=
  { st with
    accounts := replaceOrPush st.accounts account
    accountSources := st.accountSources.insert account.id source }

def upsertInSource (d : Disk) (source : AuthSource) (account : AccountConfig ρ) :
    Stateful (AuthStore ρ) AuthError Unit := do
  let targetPath ← Stateful.reading fun st => st.sourcePath source
  Stateful.reading fun st =>
    match st.accountSources.get account.id with
    | none => .ok ()
    | some existingSource =>
      if existingSource = source then .ok ()
      else do
        let existingPath ← st.sourcePath existingSource
        .error (.alreadyOwned account.id existingPath targetPath)
  let known ← Stateful.reading fun st => .ok (st.sourcePaths.contains source)
  if known then
    Stateful.updating fun st => st.place source account
  else do
    Stateful.reading fun _ => Except.rejectIf (d.exists targetPath) (.appeared targetPath)
    Stateful.updating fun st => st.register source targetPath
    Stateful.updating fun st => st.place source account

def upsert (d : Disk) (account : AccountConfig ρ) : Stateful (AuthStore ρ) AuthError Unit :=
  fun st =>
    let source := (st.accountSources.get account.id).getD .main
    match (upsertInSource d source account).outcome st with
    | (.ok (), st) => (.ok (), st)
    | (.error _, st) => (.error .panicked, st)

def upsertInMain (d : Disk) (account : AccountConfig ρ) : Stateful (AuthStore ρ) AuthError Unit :=
  upsertInSource d .main account

def upsertInShard (d : Disk) (shard : String) (account : AccountConfig ρ) :
    Stateful (AuthStore ρ) AuthError Unit :=
  upsertInSource d (.shard shard) account

def remove (id : String) : Stateful (AuthStore ρ) AuthError (Option (AccountConfig ρ)) := fun st =>
  match st.accounts.find? fun account => account.id = id with
  | none => (.ok none, st)
  | some account =>
    (.ok (some account), { st with
      accountSources := st.accountSources.erase id
      accounts := st.accounts.eraseP fun account => account.id = id })

def removeFromSource (source : AuthSource) (id : String) :
    Stateful (AuthStore ρ) AuthError (Option (AccountConfig ρ)) := do
  Stateful.reading fun st =>
    match st.accountSources.get id with
    | none => .ok ()
    | some existing =>
      if existing = source then .ok ()
      else do
        let existingPath ← st.sourcePath existing
        let path ← st.sourcePath source
        .error (.belongsTo id existingPath path)
  remove id

/-- Change the first account with the id. -/
def editFirst (accounts : List (AccountConfig ρ)) (id : String) (f : ρ → ρ) :
    List (AccountConfig ρ) :=
  match accounts with
  | [] => []
  | a :: accounts => if a.id = id then ⟨a.id, f a.rest⟩ :: accounts else a :: editFirst accounts id f

/-- What a caller does with `get_mut`, where it leaves the id alone. -/
def getMut (id : String) (f : ρ → ρ) : Stateful (AuthStore ρ) AuthError Unit :=
  Stateful.updating fun st => { st with accounts := editFirst st.accounts id f }

/-- An edit in memory. -/
inductive Edit (ρ : Type) where
  | upsert (account : AccountConfig ρ)
  | upsertInMain (account : AccountConfig ρ)
  | upsertInShard (shard : String) (account : AccountConfig ρ)
  | remove (id : String)
  | removeFromSource (source : AuthSource) (id : String)
  | getMut (id : String) (f : ρ → ρ)

namespace Edit

def apply (d : Disk) : Edit ρ → Stateful (AuthStore ρ) AuthError Unit
  | upsert account => AuthStore.upsert d account
  | upsertInMain account => AuthStore.upsertInMain d account
  | upsertInShard shard account => AuthStore.upsertInShard d shard account
  | remove id => do let _ ← AuthStore.remove id
  | removeFromSource source id => do let _ ← AuthStore.removeFromSource source id
  | getMut id f => AuthStore.getMut id f

def IsUpsert : Edit ρ → Prop
  | upsert _ | upsertInMain _ | upsertInShard _ _ => True
  | remove _ | removeFromSource _ _ | getMut _ _ => False

end Edit

/-- The store after the edits, each of which may have failed. -/
def edited (d : Disk) (edits : List (Edit ρ)) (st : AuthStore ρ) : AuthStore ρ :=
  edits.foldl (fun st e => ((e.apply d).outcome st).2) st

/-! ## Saving -/

/-- The shards that had a file when they were read or written. -/
def expectedShards (st : AuthStore ρ) : List AuthSource :=
  st.sourceSnapshots.filterMap fun
    | (.shard name, .contents _) => some (.shard name)
    | _ => none

/-- Ensure no loaded source was added, removed, or edited since this store was opened. -/
def validateSourcesUnchanged (d : Disk) (st : AuthStore ρ) : Except AuthError Unit := do
  validateDirectAuthLayout d
  let expectedShards := st.expectedShards.toFinset
  let discovered ← discoverShards d
  let actualShards := (discovered.map Prod.fst).toFinset
  Except.rejectIf (actualShards ≠ expectedShards) .sourcesChanged
  st.sourcePaths.forM fun (source, path) =>
    match st.sourceSnapshots.get source with
    | none => .error (.missingSnapshot path)
    | some snapshot => snapshot.validate d path

/-- The accounts by their sources, as far as they have been seen. -/
structure Grouping (ρ : Type) where
  accountIds : List String
  sourcePaths : BTreeMap AuthSource PathBuf
  accountsBySource : BTreeMap AuthSource (List (AccountConfig ρ))

def groupAccount (st : AuthStore ρ) (g : Grouping ρ) (account : AccountConfig ρ) :
    Except AuthError (Grouping ρ) := do
  Except.rejectIf (g.accountIds.contains account.id) (.duplicateInMemory account.id)
  let source := (st.accountSources.get account.id).getD .main
  let path ← st.sourcePath source
  pure {
    accountIds := account.id :: g.accountIds
    sourcePaths :=
      if g.sourcePaths.contains source then g.sourcePaths else g.sourcePaths.insert source path
    accountsBySource := g.accountsBySource.modify source (· ++ [account]) }

/-- A source that has to be written. -/
structure Change (ρ : Type) where
  source : AuthSource
  path : PathBuf
  current : SourceBaseline
  accounts : List (AccountConfig ρ)

def sourceChange (st : AuthStore ρ) (accounts : List (AccountConfig ρ)) (source : AuthSource)
    (path : PathBuf) : Except AuthError (Option (Change ρ)) := do
  let current ← accountFingerprints y accounts
  pure (if st.sourceBaselines.get source = some current then none
    else some ⟨source, path, current, accounts⟩)

/-- The sources whose accounts are not those of their baselines. -/
def changes (st : AuthStore ρ) : Except AuthError (List (Change ρ)) := do
  let g ← st.accounts.foldlM (groupAccount st) ⟨[], st.sourcePaths, []⟩
  let changes ← g.sourcePaths.mapM fun (source, path) =>
    sourceChange y st ((g.accountsBySource.get source).getD []) source path
  pure changes.reduceOption

def stageAuthFile (accounts : List (AccountConfig ρ)) : Except AuthError ByteArray :=
  (y.fileToString ⟨CURRENT_VERSION, accounts⟩).map String.toByteArray

/-- Move a staged file into place. -/
def commit (d : Disk) (path : PathBuf) (contents : ByteArray) :
    AuthFileInstall → Except AuthError Disk
  | .createIfAbsent =>
    match d.get path with
    | none => .ok (d.put path (.file contents))
    | some _ => .error (.changed path)
  | .replace =>
    match d.get path with
    | some .directory => .error (.io path)
    | _ => .ok (d.put path (.file contents))

end AuthStore

/-- The store of a process, and the files. -/
structure World (ρ : Type) where
  store : AuthStore ρ
  disk : Disk

namespace AuthStore

def installMode (st : AuthStore ρ) (source : AuthSource) (path : PathBuf) :
    Except AuthError AuthFileInstall :=
  match st.sourceSnapshots.get source with
  | none => .error (.missingSnapshot path)
  | some snapshot => .ok snapshot.installMode

/-- The source holds these accounts now, in these bytes. -/
def saved (st : AuthStore ρ) (source : AuthSource) (current : SourceBaseline)
    (contents : ByteArray) : AuthStore ρ :=
  { st with
    sourceBaselines := st.sourceBaselines.insert source current
    sourceSnapshots := st.sourceSnapshots.insert source (.contents contents) }

def saveChange (c : Change ρ) : Stateful (World ρ) AuthError Unit := do
  let install ← Stateful.reading fun w => w.store.installMode c.source c.path
  let contents ← Stateful.reading fun _ => stageAuthFile y c.accounts
  Stateful.reading fun w => validateSourcesUnchanged w.disk w.store
  Stateful.replacing fun w => (commit w.disk c.path contents install).map fun d => ⟨w.store, d⟩
  Stateful.updating fun w => ⟨w.store.saved c.source c.current contents, w.disk⟩

/-- `save_with_before_commit`, with nobody acting before a commit. -/
def saveWithBeforeCommit : Stateful (World ρ) AuthError Unit := do
  let changes ← Stateful.reading fun w => changes y w.store
  changes.forM (saveChange y)

def save : Stateful (World ρ) AuthError Unit := do
  Stateful.reading fun w => validateSourcesUnchanged w.disk w.store
  saveWithBeforeCommit y

end AuthStore

end Tokn.Auth
