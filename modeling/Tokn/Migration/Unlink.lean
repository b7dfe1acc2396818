import Tokn.Lib.Procedure
import Tokn.Lib.Str
import Tokn.Migration.Manifest

/-!
# Unlinking an agent

`unlink` selects a manifest, reads the chain of its predecessors, checks that rolling them back
would not overwrite anybody's changes, and then changes one file after the other: it gives the
credentials back to the agent, restores the files of every manifest from the newest to the oldest,
restores the agent's entry in the sidecar, and marks the manifests, the oldest first.

All that is read before the first change (`unlinkOps`) determines the list of these operations;
`UnlinkOp.act` is what each of them does. So the states in which an unlink can be interrupted are
the states after the first operations of the list.
-/

namespace Tokn.Migration

open Tokn.Auth

/-- What the code takes from elsewhere. -/
structure Env where
  sha256 : ByteArray → Digest
  yaml : Yaml AccountFields

structure UnlinkRequest where
  agent : AgentId
  backupId : Option String
  deriving DecidableEq

/-- The manifests that are rolled back, the newest first. -/
abbrev Chain (δ : Type) := List (Path × MigrationManifest δ)

variable {δ : Type} [DecidableEq δ] (env : Env)

/-! ## Selecting the manifests -/

/-- `path.ends_with("-<agent>.json")`. -/
def isManifestOf (agent : AgentId) (path : Path) : Bool :=
  ("-" ++ agent.asStr ++ ".json").toList.isSuffixOf path.toList

def latestActiveManifest (w : World δ) (agent : AgentId) : Option Path :=
  (w.manifests.entries.reverse.find? fun e => isManifestOf agent e.1 && !e.2.unlinked).map Prod.fst

def resolveManifest (w : World δ) (request : UnlinkRequest) : Except MigrationError Path :=
  match request.backupId with
  | some id =>
    let candidate :=
      if ".json".toList.isSuffixOf id.toList then id else id ++ "-" ++ request.agent.asStr ++ ".json"
    if (w.manifests.get id).isSome then .ok id
    else if (w.manifests.get candidate).isSome then .ok candidate
    else .error (.manifestNotFound id)
  | none =>
    match latestActiveManifest w request.agent with
    | some path => .ok path
    | none => .error (.noActiveManifest request.agent)

/-- The loop of `manifest_chain`. No manifest is read twice, so the number of manifests bounds the
length of the chain. -/
def manifestChainFrom (w : World δ) (agent : AgentId) :
    Nat → List Path → Option Path → Except MigrationError (Chain δ)
  | _, _, none => .ok []
  | 0, _, some path => .error (.cycle path)
  | fuel + 1, seen, some path => do
    Except.rejectIf (seen.contains path) (.cycle path)
    let m ← w.readManifest path
    Except.rejectIf (m.agent ≠ agent) (.wrongAgent path m.agent)
    let chain ← manifestChainFrom w agent fuel (path :: seen) m.previousManifest
    pure ((path, m) :: chain)

def manifestChain (w : World δ) (agent : AgentId) (path : Path) :
    Except MigrationError (Chain δ) :=
  manifestChainFrom w agent (w.manifests.entries.length + 1) [] (some path)

def activeManifestSuccessor (w : World δ) (path : Path) (agent : AgentId) :
    Except MigrationError (Option Path) := do
  let candidates := w.manifests.entries.filter fun e =>
    e.1 ≠ path && isManifestOf agent e.1 && e.2.agent = agent && !e.2.unlinked
  let successors ← candidates.mapM fun e => do
    let chain ← manifestChain w agent e.1
    pure (if chain.tail.any fun ancestor => ancestor.1 = path then some e.1 else none)
  pure successors.reduceOption.getLast?

/-- The chain that `unlink_inner` rolls back. -/
def selectedChain (w : World δ) (request : UnlinkRequest) : Except MigrationError (Chain δ) := do
  let path ← resolveManifest w request
  match ← activeManifestSuccessor w path request.agent with
  | some successor => .error (.newerSuccessor path successor)
  | none => do
    let chain ← manifestChain w request.agent path
    Except.rejectIf (chain.head?.any fun e => e.2.unlinked) (.alreadyUnlinked path)
    pure chain

/-! ## The checks before the first change -/

def uncheckpointedFileStillMatchesPreimage (w : World δ) (file : FileBackup) :
    Option ByteArray → Except MigrationError Bool
  | none => .ok (file.createdByMigration || !file.existed)
  | some current =>
    match file.backup with
    | none => .ok false
    | some backup => do
      let original ← w.readBackup backup
      pure (current = original)

/-- Whether rolling the file back overwrites only what the migration wrote, or nothing. -/
def fileMatches (w : World δ) (m : MigrationManifest δ) (file : FileBackup)
    (state : Option ByteArray) : Except MigrationError Bool :=
  match file.appliedSha256 with
  | some expected =>
    match state with
    | none => .ok false
    | some bytes => .ok (env.sha256 bytes = expected)
  | none =>
    if m.version < CURRENT_VERSION then .ok true
    else uncheckpointedFileStillMatchesPreimage w file state

/-- The files as they will be when their turn comes. -/
abbrev SimulatedFiles := ManagedPath → Option ByteArray

def checkFile (w : World δ) (simulated : SimulatedFiles) (path : Path) (m : MigrationManifest δ)
    (file : FileBackup) : Except MigrationError Unit :=
  if m.exempts file then .ok ()
  else do
    let ok ← fileMatches env w m file (simulated file.original)
    Except.rejectIf (!ok) (.fileChanged file.original path)

def simulateRestore (w : World δ) (simulated : SimulatedFiles) (file : FileBackup) :
    Except MigrationError SimulatedFiles :=
  if file.createdByMigration then .ok (Function.update simulated file.original none)
  else
    match file.backup with
    | none => .ok simulated
    | some backup => do
      let bytes ← w.readBackup backup
      pure (Function.update simulated file.original (some bytes))

def preflightManifest (w : World δ) (simulated : SimulatedFiles)
    (entry : Path × MigrationManifest δ) : Except MigrationError SimulatedFiles := do
  entry.2.files.forM (checkFile env w simulated entry.1 entry.2)
  entry.2.files.reverse.foldlM (simulateRestore w) simulated

def preflightManifestFileRestoration (w : World δ) (chain : Chain δ) :
    Except MigrationError Unit := do
  let _ ← chain.foldlM (preflightManifest env w) w.contents

def restoreAgentBinding (config : AgentIntegrationConfig δ) (agent : AgentId)
    (binding : Option δ) : AgentIntegrationConfig δ := Function.update config agent binding

/-- The sidecars as they will be when their turn comes. -/
abbrev SimulatedConfigs (δ : Type) := Path → Except MigrationError (AgentIntegrationConfig δ)

def preflightBinding (simulated : SimulatedConfigs δ) (entry : Path × MigrationManifest δ) :
    Except MigrationError (SimulatedConfigs δ) :=
  match entry.2.agentConfigChange with
  | none => .ok simulated
  | some change => do
    let config ← simulated change.path
    let current := config entry.2.agent
    Except.rejectIf (!(current = some change.after || current = change.before))
      (.bindingChanged change.path entry.1)
    pure (Function.update simulated change.path
      (.ok (restoreAgentBinding config entry.2.agent change.before)))

def preflightAgentConfigRestoration (w : World δ) (chain : Chain δ) :
    Except MigrationError Unit := do
  let _ ← chain.foldlM preflightBinding w.loadAgentConfig

/-! ## The credentials -/

/-- `adapter_for(agent).transfers_credentials()`. -/
def transfersCredentials : AgentId → Bool
  | .opencode => true
  | .codexCli => false

def ID_GITHUB_COPILOT : String := "github-copilot"

def opencodeAuthRecord (sourceProvider : String) (account : Account) :
    Except MigrationError Value :=
  match account.rest.apiKey with
  | some key => .ok (Value.obj [("type", .string "api"), ("key", .string key)])
  | none =>
    match account.rest.refreshToken with
    | none => .error (.unrestorable account.id)
    | some refresh => do
      let (access, expires) ←
        if sourceProvider = ID_GITHUB_COPILOT then .ok (refresh, 0)
        else
          match account.rest.accessToken, account.rest.accessTokenExpiresAt with
          | some access, some expires =>
            if expires < 0 then .error (.unrestorable account.id)
            else .ok (access, min (expires.toNat * 1000) (2 ^ 63 - 1))
          | _, _ => .error (MigrationError.unrestorable account.id)
      let record := [("type", .string "oauth"), ("refresh", .string refresh),
        ("access", .string access), ("expires", Value.nat expires)]
      pure (Value.obj (match account.rest.providerAccountId with
        | none => record
        | some id => record ++ [("accountId", .string id)]))

def restoreCredential (fields : BTreeMap String Value) (account : Account) :
    Except MigrationError (BTreeMap String Value) :=
  match sourceProviderId account with
  | none => .error (.unrestorable account.id)
  | some provider =>
    if fields.contains provider then .ok fields
    else do
      let record ← opencodeAuthRecord provider account
      pure (fields.insert provider record)

/-- The fields of an `auth.json` that is there, or of a new one. -/
def authFields (path : Path) : AgentAuthFile → Except MigrationError (BTreeMap String Value)
  | .missing => .ok []
  | .json (.object fields) => .ok fields
  | .malformed | .json _ => .error (.unreadableAgentAuth path)

/-- `AgentAdapter::restore_transferred_credentials`; Codex has nothing to restore. -/
def restoreTransferredCredentials (agent : AgentId) (path : Path) (auth : AgentAuthFile)
    (accounts : List Account) : Except MigrationError AgentAuthFile :=
  if !transfersCredentials agent || accounts.isEmpty then .ok auth
  else do
    let fields ← authFields path auth
    let fields ← accounts.foldlM restoreCredential fields
    pure (.json (.object fields))

def hasCheckpointedTransferShard (m : MigrationManifest δ) : Bool :=
  match m.gatewayAuthShardPath with
  | none => false
  | some shard =>
    (m.files.any fun file => file.original = shard && file.appliedSha256.isSome) &&
      m.providerRoutes.any ProviderRoute.transferSourceAuth

def requiresTransferredCredentials (m : MigrationManifest δ) : Bool :=
  m.completed || hasCheckpointedTransferShard m

def accountSourcePath (store : AuthStore AccountFields) (root : Path) (id : String) :
    Option ManagedPath :=
  match store.accountSource id with
  | none => none
  | some source => (store.sourcePath source).toOption.map (ManagedPath.auth root)

/-- `Option::filter(|token| !token.expose().trim().is_empty())`. -/
def filledToken (token : Option String) : Option String := token.filter fun s => Str.trim s ≠ ""

def validateExportableTransferredCredentials (agent : AgentId) (sourceProvider : String)
    (account : Account) : Except MigrationError Unit :=
  if agent ≠ .opencode then .error (.unrestorable account.id)
  else
    match account.rest.apiKey with
    | some key => Except.rejectIf (Str.trim key = "") (.unrestorable account.id)
    | none => do
      Except.rejectIf (filledToken account.rest.refreshToken).isNone (.unrestorable account.id)
      if sourceProvider = ID_GITHUB_COPILOT then .ok ()
      else do
        Except.rejectIf (filledToken account.rest.accessToken).isNone (.unrestorable account.id)
        match account.rest.accessTokenExpiresAt with
        | none => .error (.unrestorable account.id)
        | some expires => Except.rejectIf (expires < 0) (.unrestorable account.id)

def validateTransferredRoute (m : MigrationManifest δ) (store : AuthStore AccountFields)
    (root : Path) (shard : ManagedPath) (requireEnabled : Bool) (route : ProviderRoute) :
    Except MigrationError Unit := do
  Except.rejectIf (route.accountId = "" || !m.importedAccountIds.contains route.accountId)
    (.route route.sourceProviderId route.accountId)
  match store.accounts.find? fun account => account.id = route.accountId with
  | none => .error (.route route.sourceProviderId route.accountId)
  | some account => do
    Except.rejectIf (accountSourcePath store root account.id ≠ some shard ||
      !isGatewayOwnedAccount account m.agent) (.movedTransferredAccount account.id shard)
    Except.rejectIf (requireEnabled && !account.rest.enabled) (.route route.sourceProviderId account.id)
    Except.rejectIf (account.rest.provider ≠ route.gatewayProviderId)
      (.route route.sourceProviderId account.id)
    match sourceProviderId account with
    | none => .error (.route route.sourceProviderId account.id)
    | some source => do
      Except.rejectIf (source ≠ route.sourceProviderId) (.route route.sourceProviderId account.id)
      validateExportableTransferredCredentials m.agent source account

def validateTransferredRouteAccounts (m : MigrationManifest δ) (store : AuthStore AccountFields)
    (root : Path) (shard : ManagedPath) (requireEnabled : Bool) : Except MigrationError Unit := do
  let routes := m.providerRoutes.filter ProviderRoute.transferSourceAuth
  Except.rejectIf (!routes.isEmpty && !transfersCredentials m.agent)
    (.route "" m.agent.asStr)
  routes.forM (validateTransferredRoute m store root shard requireEnabled)

/-- One round of the loop of `load_transferred_credentials`. -/
def loadTransferredAccount (m : MigrationManifest δ) (store : AuthStore AccountFields)
    (root : Path) (id : String) : Except MigrationError (Option Account) :=
  match store.accounts.find? fun account => account.id = id with
  | none => do
    Except.rejectIf (requiresTransferredCredentials m) (.missingTransferredAccount id)
    pure none
  | some account =>
    match m.gatewayAuthShardPath with
    | none => .ok (some account)
    | some shard =>
      if accountSourcePath store root id = some shard then .ok (some account)
      else do
        Except.rejectIf (requiresTransferredCredentials m) (.movedTransferredAccount id shard)
        pure none

def loadStore (w : World δ) (root : Path) : Except MigrationError (AuthStore AccountFields) :=
  (AuthStore.load env.yaml (w.disk root)).mapError MigrationError.auth

def loadTransferredCredentials (w : World δ) (m : MigrationManifest δ) :
    Except MigrationError (List Account) :=
  if m.importedAccountIds.isEmpty then .ok []
  else
    match m.gatewayAuthPath with
    | none => .error .missingGatewayAuthPath
    | some root => do
      let store ← loadStore env w root
      match m.gatewayAuthShardPath with
      | none => .ok ()
      | some shard =>
        if hasCheckpointedTransferShard m then
          validateTransferredRouteAccounts m store root shard false
        else .ok ()
      let accounts ← m.importedAccountIds.mapM (loadTransferredAccount m store root)
      pure accounts.reduceOption

/-- The sources whose credentials go back into each auth file. -/
abbrev TargetSources := BTreeMap Path (BTreeMap String Unit)

def addTargetSource (path : Path) (targets : TargetSources) (source : String) : TargetSources :=
  targets.modify path fun sources => sources.insert source ()

/-- The accounts of a manifest without routes, which the oldest versions wrote. -/
def addLegacyAccount (accountsById : BTreeMap String Account) (m : MigrationManifest δ)
    (path : Path) (targets : TargetSources) (id : String) :
    Except MigrationError TargetSources :=
  match accountsById.get id with
  | some account => .ok (addTargetSource path targets (transferSourceProvider account))
  | none => do
    Except.rejectIf m.completed (.missingTransferredAccount id)
    pure targets

def addTargetSources (accountsById : BTreeMap String Account) (targets : TargetSources)
    (entry : Path × MigrationManifest δ) : Except MigrationError TargetSources :=
  match entry.2.agentAuthPath with
  | none => .ok targets
  | some path =>
    let routes := entry.2.providerRoutes.filter ProviderRoute.transferSourceAuth
    let targets := (routes.map ProviderRoute.sourceProviderId).foldl (addTargetSource path) targets
    if entry.2.providerRoutes.isEmpty then
      entry.2.importedAccountIds.foldlM (addLegacyAccount accountsById entry.2 path)
        (targets.modify path id)
    else .ok targets

def targetAccounts (accountsBySource : BTreeMap String Account) (required : Bool)
    (sources : BTreeMap String Unit) : Except MigrationError (List Account) := do
  let accounts ← sources.mapM fun source =>
    match accountsBySource.get source.1 with
    | some account => .ok (some account)
    | none => do
      Except.rejectIf required (.missingTransferredProvider source.1)
      pure none
  pure accounts.reduceOption

/-! ## The operations -/

/-- One change of the file system. -/
inductive UnlinkOp (δ : Type) where
  /-- Export the accounts to an auth file; they may turn out to be missing. -/
  | restoreCredentials (agent : AgentId) (path : Path)
      (accounts : Except MigrationError (List Account))
  | restoreFile (manifest : Path) (m : MigrationManifest δ) (file : FileBackup)
  | restoreBinding (agent : AgentId) (change : AgentConfigChange δ)
  | writeManifest (path : Path) (m : MigrationManifest δ)
  deriving DecidableEq

def restoreFile (w : World δ) (file : FileBackup) : Except MigrationError (World δ) :=
  if file.createdByMigration then .ok (w.setContents file.original none)
  else
    match file.backup with
    | none => .ok w
    | some backup => do
      let bytes ← w.readBackup backup
      pure (w.setContents file.original (some bytes))

def restoreBinding (w : World δ) (agent : AgentId) (change : AgentConfigChange δ) :
    Except MigrationError (World δ) := do
  let config ← w.loadAgentConfig change.path
  let current := config agent
  if current = change.before then .ok w
  else do
    Except.rejectIf (current ≠ some change.after) (.bindingChangedWhileUnlinking change.path)
    pure (w.setAgentConfig change.path
      (.config (restoreAgentBinding config agent change.before)))

def UnlinkOp.act : UnlinkOp δ → World δ → Except MigrationError (World δ)
  | restoreCredentials agent path accounts, w => do
    let accounts ← accounts
    let auth ← restoreTransferredCredentials agent path (w.agentAuth path) accounts
    pure (w.setAgentAuth path auth)
  | restoreFile _ _ file, w => Migration.restoreFile w file
  | restoreBinding agent change, w => Migration.restoreBinding w agent change
  | writeManifest path m, w => .ok (w.writeManifest path m)

def pending (chain : Chain δ) : Chain δ := chain.filter fun e => !e.2.credentialsHandoffComplete

def handedOff (m : MigrationManifest δ) : MigrationManifest δ :=
  { m with credentialsHandoffComplete := true }

/-- The accounts that the pending handoffs need. -/
def pendingAccounts (w : World δ) (chain : Chain δ) : Except MigrationError (List Account) :=
  match chain with
  | [] => .ok []
  | latest :: _ =>
    if (pending chain).any fun e => e.2.agentAuthPath.isSome then
      loadTransferredCredentials env w latest.2
    else .ok []

def accountsBySource (accounts : List Account) : BTreeMap String Account :=
  BTreeMap.extend [] (accounts.map fun account => (transferSourceProvider account, account))

def accountsById (accounts : List Account) : BTreeMap String Account :=
  BTreeMap.extend [] (accounts.map fun account => (account.id, account))

def latestRequiresTransferredCredentials (chain : Chain δ) : Bool :=
  chain.head?.any fun latest => requiresTransferredCredentials latest.2

def restorePendingCredentials (w : World δ) (agent : AgentId) (chain : Chain δ) :
    Except MigrationError (List (UnlinkOp δ)) :=
  if chain.all fun e => e.2.credentialsHandoffComplete then .ok []
  else do
    let required := latestRequiresTransferredCredentials chain
    let accounts ← pendingAccounts env w chain
    let targets ← (pending chain).foldlM (addTargetSources (accountsById accounts)) []
    pure (targets.map (fun target => UnlinkOp.restoreCredentials agent target.1
        (targetAccounts (accountsBySource accounts) required target.2)) ++
      (pending chain).map fun e => UnlinkOp.writeManifest e.1 (handedOff e.2))

def restoreManifestFiles (entry : Path × MigrationManifest δ) : List (UnlinkOp δ) :=
  entry.2.files.reverse.map (UnlinkOp.restoreFile entry.1 entry.2)

def restoreAgentConfigChanges (chain : Chain δ) : List (UnlinkOp δ) :=
  chain.filterMap fun e => e.2.agentConfigChange.map (UnlinkOp.restoreBinding e.2.agent)

/-- The oldest manifest first, so that the newest stays active until all others are marked. -/
def markUnlinked (chain : Chain δ) : List (UnlinkOp δ) :=
  chain.reverse.map fun e =>
    UnlinkOp.writeManifest e.1 { handedOff e.2 with unlinked := true }

/-- The operations of an unlink, once its checks have passed. -/
def unlinkOps (w : World δ) (request : UnlinkRequest) :
    Except MigrationError (List (UnlinkOp δ)) := do
  let chain ← selectedChain w request
  preflightManifestFileRestoration env w chain
  preflightAgentConfigRestoration w chain
  let credentials ← restorePendingCredentials env w request.agent chain
  pure (credentials ++ chain.flatMap restoreManifestFiles ++ restoreAgentConfigChanges chain ++
    markUnlinked chain)

def unlink (request : UnlinkRequest) : Stateful (World δ) MigrationError Unit := do
  let ops ← Stateful.reading fun w => unlinkOps env w request
  Procedure.perform UnlinkOp.act ops

end Tokn.Migration
