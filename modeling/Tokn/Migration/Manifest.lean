import Mathlib.Data.Fintype.Basic
import Tokn.Lib.Json
import Tokn.Lib.OrderedMap
import Tokn.Auth.Store

/-!
# Manifests and the files of a migration

Linking an agent changes files of several kinds, and each kind has its own place in the `World`:
the credential files of the gateway, which `AuthStore` reads; the config files of the gateway and
of the agent, which are bytes here; the `auth.json` of OpenCode; the shared sidecar `agent.yaml`;
the backups; and the manifests, which record what a link or sync did.

A *managed file* is one that a manifest can record with a backup: a credential file of the
gateway or a file that is only bytes. Backups lie next to their originals and are named by the
timestamp of the migration, so they are addressed by both. All paths are absolute, and every file
of the manifest directory is a manifest.
-/

namespace Tokn.Migration

open Tokn.Auth

abbrev Path := String

abbrev Timestamp := String

/-- A SHA-256 digest in hexadecimal. -/
abbrev Digest := String

/-- The agents that have an adapter. -/
inductive AgentId where
  | opencode
  | codexCli
  deriving DecidableEq

instance : Fintype AgentId := ⟨{.opencode, .codexCli}, fun agent => by cases agent <;> decide⟩

def AgentId.asStr : AgentId → String
  | opencode => "opencode"
  | codexCli => "codex-cli"

/-- A file that a manifest can record: a credential file of the gateway whose root auth file is
`root`, or another file. -/
inductive ManagedPath where
  | auth (root : Path) (source : AuthSource)
  | file (path : Path)
  deriving DecidableEq

/-- `adjacent_backup_path`: the backup of a file, named by the timestamp of the migration. -/
structure BackupPath where
  original : ManagedPath
  timestamp : Timestamp
  deriving DecidableEq

/-! ## Accounts -/

/-- The table `settings.import` of an account. -/
structure ImportSettings where
  sourceAgent : Option String
  sourceProvider : Option String
  ownership : Option String
  syncManaged : Option Bool
  missingFromSource : Option Bool
  deriving DecidableEq

/-- What a migration reads of an account, apart from its id. -/
structure AccountFields where
  provider : String
  enabled : Bool
  tags : List String
  apiKey : Option String
  accessToken : Option String
  accessTokenExpiresAt : Option Int
  refreshToken : Option String
  providerAccountId : Option String
  «import» : Option ImportSettings
  deriving DecidableEq

abbrev Account := AccountConfig AccountFields

def sourceProviderId (account : Account) : Option String :=
  account.rest.import.bind ImportSettings.sourceProvider

def transferSourceProvider (account : Account) : String :=
  (sourceProviderId account).getD account.rest.provider

def isSourceManagedAccount (account : Account) (agent : AgentId) : Bool :=
  account.rest.import.bind ImportSettings.sourceAgent == some agent.asStr ||
    account.rest.tags.contains ("source:" ++ agent.asStr)

def isGatewayOwnedAccount (account : Account) (agent : AgentId) : Bool :=
  isSourceManagedAccount account agent &&
    account.rest.import.bind ImportSettings.ownership == some "gateway"

def isSyncManaged (account : Account) : Bool :=
  (account.rest.import.bind ImportSettings.syncManaged).getD true

/-! ## Manifests -/

structure ProviderRoute where
  sourceProviderId : String
  gatewayProviderId : String
  accountId : String
  transferSourceAuth : Bool
  deriving DecidableEq

structure FileBackup where
  original : ManagedPath
  backup : Option BackupPath
  existed : Bool
  createdByMigration : Bool
  /-- The digest of the bytes that the link or sync wrote last. -/
  appliedSha256 : Option Digest
  deriving DecidableEq

variable {δ : Type}

/-- The change of one agent's entry in the shared sidecar. -/
structure AgentConfigChange (δ : Type) where
  path : Path
  before : Option δ
  after : δ
  applied : Bool
  deriving DecidableEq

structure MigrationManifest (δ : Type) where
  version : Nat
  completed : Bool
  agent : AgentId
  timestamp : Timestamp
  gatewayAuthPath : Option Path
  gatewayAuthShardPath : Option ManagedPath
  agentAuthPath : Option Path
  providerRoutes : List ProviderRoute
  previousManifest : Option Path
  unlinked : Bool
  credentialsHandoffComplete : Bool
  agentConfigChange : Option (AgentConfigChange δ)
  importedAccountIds : List String
  files : List FileBackup
  deriving DecidableEq

def CURRENT_VERSION : Nat := 5

namespace MigrationManifest

def inProgress (m : MigrationManifest δ) : MigrationManifest δ := { m with completed := false }

def complete (m : MigrationManifest δ) : MigrationManifest δ := { m with completed := true }

/-- The agent's auth shard, which unlink does not compare with what was applied. -/
def exempts (m : MigrationManifest δ) (file : FileBackup) : Bool :=
  m.gatewayAuthShardPath == some file.original

end MigrationManifest

/-! ## The world -/

/-- The `auth.json` of OpenCode. -/
inductive AgentAuthFile where
  | missing
  | malformed
  | json (value : Value)
  deriving DecidableEq

/-- The entries of `agent.yaml`. -/
abbrev AgentIntegrationConfig (δ : Type) := AgentId → Option δ

/-- The sidecar `agent.yaml`; what does not parse or validate is `invalid`. -/
inductive AgentConfigFile (δ : Type) where
  | missing
  | invalid
  | config (agents : AgentIntegrationConfig δ)

instance [DecidableEq δ] : DecidableEq (AgentConfigFile δ)
  | .missing, .missing | .invalid, .invalid => isTrue rfl
  | .config a, .config b => decidable_of_iff (a = b) (by simp)
  | .missing, .invalid | .missing, .config _ | .invalid, .missing | .invalid, .config _
  | .config _, .missing | .config _, .invalid => isFalse nofun

structure World (δ : Type) where
  /-- The credential files of the gateway with this root auth file. -/
  gateway : Path → OrderedMap AuthSource ByteArray
  files : Path → Option ByteArray
  agentAuth : Path → AgentAuthFile
  agentConfig : Path → AgentConfigFile δ
  backups : BackupPath → Option ByteArray
  /-- The manifest directory, by the names of its files. -/
  manifests : OrderedMap Path (MigrationManifest δ)

inductive MigrationError where
  | noActiveManifest (agent : AgentId)
  | manifestNotFound (id : String)
  | unreadableManifest (path : Path)
  | newerSuccessor (path successor : Path)
  | alreadyUnlinked (path : Path)
  | cycle (path : Path)
  | wrongAgent (path : Path) (agent : AgentId)
  | incompleteMigration (path : Path)
  | fileChanged (original : ManagedPath) (manifest : Path)
  | unreadableBackup (backup : BackupPath)
  | invalidAgentConfig (path : Path)
  | bindingChanged (path manifest : Path)
  | bindingChangedWhileUnlinking (path : Path)
  | missingGatewayAuthPath
  | missingTransferredAccount (id : String)
  | missingTransferredProvider (source : String)
  | movedTransferredAccount (id : String) (shard : ManagedPath)
  | unreadableAgentAuth (path : Path)
  | unrestorable (id : String)
  | route (source id : String)
  | changedSincePlan
  | legacyRootAccounts
  | pendingHandoff (path : Path)
  | notTracked (path : ManagedPath)
  | notCheckpointed (path : ManagedPath)
  | changedAfterWrite (path : ManagedPath)
  | missingShard
  | auth (error : AuthError)
  deriving DecidableEq

namespace World

variable (w : World δ)

/-- The bytes of a managed file. -/
def contents : ManagedPath → Option ByteArray
  | .auth root source => (w.gateway root).get source
  | .file path => w.files path

/-- Write a managed file, or remove it. -/
def setContents (w : World δ) : ManagedPath → Option ByteArray → World δ
  | .auth root source, some bytes =>
    { w with gateway := Function.update w.gateway root ((w.gateway root).insert source bytes) }
  | .auth root source, none =>
    { w with gateway := Function.update w.gateway root ((w.gateway root).erase source) }
  | .file path, bytes => { w with files := Function.update w.files path bytes }

def withAgentAuth (w : World δ) (auths : Path → AgentAuthFile) : World δ :=
  { w with agentAuth := auths }

def setAgentAuth (w : World δ) (path : Path) (auth : AgentAuthFile) : World δ :=
  w.withAgentAuth (Function.update w.agentAuth path auth)

def withAgentConfig (w : World δ) (configs : Path → AgentConfigFile δ) : World δ :=
  { w with agentConfig := configs }

def setAgentConfig (w : World δ) (path : Path) (config : AgentConfigFile δ) : World δ :=
  w.withAgentConfig (Function.update w.agentConfig path config)

def setBackup (w : World δ) (backup : BackupPath) (bytes : Option ByteArray) : World δ :=
  { w with backups := Function.update w.backups backup bytes }

def withManifests (w : World δ) (manifests : OrderedMap Path (MigrationManifest δ)) : World δ :=
  { w with manifests := manifests }

def writeManifest (w : World δ) (path : Path) (m : MigrationManifest δ) : World δ :=
  w.withManifests (w.manifests.insert path m)

def readManifest (path : Path) : Except MigrationError (MigrationManifest δ) :=
  match w.manifests.get path with
  | none => .error (.unreadableManifest path)
  | some m => .ok m

def readBackup (backup : BackupPath) : Except MigrationError ByteArray :=
  match w.backups backup with
  | none => .error (.unreadableBackup backup)
  | some bytes => .ok bytes

/-- `load_agent_config_file(..)?.unwrap_or_default()`. -/
def loadAgentConfig (path : Path) : Except MigrationError (AgentIntegrationConfig δ) :=
  match w.agentConfig path with
  | .missing => .ok fun _ => none
  | .invalid => .error (.invalidAgentConfig path)
  | .config agents => .ok agents

/-- The credential files of a gateway as `AuthStore` finds them: all are regular files. -/
def disk (root : Path) : Disk where
  entries := (w.gateway root).entries.map fun e => (e.1, .file e.2)
  keyed := by
    rw [Table.Keyed, List.map_map]
    exact (w.gateway root).keyed

/-! ### Equations -/

theorem contents_setContents (path p : ManagedPath) (bytes : Option ByteArray) :
    (w.setContents path bytes).contents p = if p = path then bytes else w.contents p := by
  cases path with
  | file path =>
    cases p with
    | file q => simp [setContents, contents, Function.update_apply]
    | auth root source => simp [setContents, contents]
  | auth root source =>
    cases p with
    | file q => cases bytes <;> simp [setContents, contents]
    | auth root' source' =>
      by_cases hroot : root' = root
      · subst hroot
        cases bytes with
        | none => simp [setContents, contents, OrderedMap.get_erase]
        | some bytes => simp [setContents, contents, OrderedMap.get_insert]
      · cases bytes <;> simp [setContents, contents, hroot]

variable (path : ManagedPath)

@[simp] theorem contents_setContents_self (bytes : Option ByteArray) :
    (w.setContents path bytes).contents path = bytes := by simp [contents_setContents]

@[simp] theorem agentAuth_setContents (bytes : Option ByteArray) :
    (w.setContents path bytes).agentAuth = w.agentAuth := by
  cases path <;> cases bytes <;> rfl

@[simp] theorem agentConfig_setContents (bytes : Option ByteArray) :
    (w.setContents path bytes).agentConfig = w.agentConfig := by
  cases path <;> cases bytes <;> rfl

@[simp] theorem backups_setContents (bytes : Option ByteArray) :
    (w.setContents path bytes).backups = w.backups := by
  cases path <;> cases bytes <;> rfl

@[simp] theorem manifests_setContents (bytes : Option ByteArray) :
    (w.setContents path bytes).manifests = w.manifests := by
  cases path <;> cases bytes <;> rfl

@[simp] theorem agentConfig_withAgentConfig (configs : Path → AgentConfigFile δ) :
    (w.withAgentConfig configs).agentConfig = configs := rfl

@[simp] theorem agentAuth_withAgentAuth (auths : Path → AgentAuthFile) :
    (w.withAgentAuth auths).agentAuth = auths := rfl

@[simp] theorem withAgentAuth_self : w.withAgentAuth w.agentAuth = w := rfl

@[simp] theorem manifests_withManifests (manifests : OrderedMap Path (MigrationManifest δ)) :
    (w.withManifests manifests).manifests = manifests := rfl

@[simp] theorem withManifests_self : w.withManifests w.manifests = w := rfl

@[simp] theorem withAgentConfig_self : w.withAgentConfig w.agentConfig = w := rfl

/-- Worlds with the same managed files have the same gateways and the same files. -/
theorem ext_contents {v : World δ} (hcontents : w.contents = v.contents)
    (hauth : w.agentAuth = v.agentAuth) (hconfig : w.agentConfig = v.agentConfig)
    (hbackups : w.backups = v.backups) (hmanifests : w.manifests = v.manifests) : w = v := by
  have hgateway : w.gateway = v.gateway := by
    funext root
    ext source : 1
    exact congrFun hcontents (.auth root source)
  have hfiles : w.files = v.files := funext fun path => congrFun hcontents (.file path)
  cases w
  cases v
  cases hgateway
  cases hfiles
  cases hauth
  cases hconfig
  cases hbackups
  cases hmanifests
  rfl

theorem disk_congr {v : World δ} (h : w.gateway = v.gateway) (root : Path) :
    w.disk root = v.disk root := by simp only [disk, h]

end World

end Tokn.Migration
