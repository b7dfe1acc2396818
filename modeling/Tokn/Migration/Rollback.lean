import Tokn.Migration.Unlink

/-!
# What unlink overwrites

The checks before an unlink follow every managed file through the restores to come, in a
simulation. Both the simulation and the restores are folds of one function, `rollback`, over the
records of the chain, so the file that an operation finds is the file that its record was checked
against, or one that the same manifest has restored just before.

**Theorem (`unlink_overwrites_recorded`).** Once the checks have passed, every file that unlink
restores or removes holds what the record that is restored says was applied, or the pre-image, or
what the same manifest has restored just before. If a check fails, nothing has changed; in
particular where somebody edited a managed file after a link, or between two syncs, of which the
backup of the later one knows.
-/

namespace Tokn.Migration

open Procedure
open Tokn.Except (bind_eq_ok)

variable {δ : Type} {env : Env}

/-! ## Rolling back one file -/

/-- The files after the restore of one record. -/
def rollback (backups : BackupPath → Option ByteArray) (c : SimulatedFiles) (file : FileBackup) :
    SimulatedFiles :=
  if file.createdByMigration then Function.update c file.original none
  else
    match file.backup with
    | none => c
    | some backup => Function.update c file.original (backups backup)

/-- The backup that a restore needs is there. -/
def Readable (backups : BackupPath → Option ByteArray) (file : FileBackup) : Prop :=
  file.createdByMigration = false → ∀ b, file.backup = some b → ∃ bytes, backups b = some bytes

variable {w : World δ} {bytes : ByteArray} {file : FileBackup} {c c' : SimulatedFiles}
  {p : ManagedPath} {chain : Chain δ} {m : MigrationManifest δ} {ops : List (UnlinkOp δ)}
  {request : UnlinkRequest}

theorem readBackup_eq_ok {b : BackupPath} :
    w.readBackup b = .ok bytes ↔ w.backups b = some bytes := by
  rw [World.readBackup]
  cases w.backups b with
  | none => simp
  | some bytes' => simp

theorem simulateRestore_eq_ok :
    simulateRestore w c file = .ok c' ↔
      Readable w.backups file ∧ c' = rollback w.backups c file := by
  rw [simulateRestore, rollback, Readable]
  by_cases hcreated : file.createdByMigration = true
  · simp [hcreated, eq_comm]
  · cases hb : file.backup with
    | none => simp [hcreated, eq_comm]
    | some b =>
      simp only [if_neg hcreated, bind_eq_ok, readBackup_eq_ok]
      constructor
      · rintro ⟨bytes, hbytes, h⟩
        cases h
        refine ⟨fun _ b' hb' => ?_, by rw [hbytes]⟩
        cases hb'
        exact ⟨bytes, hbytes⟩
      · rintro ⟨hreadable, rfl⟩
        obtain ⟨bytes, hbytes⟩ := hreadable (by simpa using hcreated) b rfl
        exact ⟨bytes, hbytes, by rw [hbytes]; rfl⟩

theorem restoreFile_eq_ok {v : World δ} :
    restoreFile w file = .ok v ↔ Readable w.backups file ∧
      v.contents = rollback w.backups w.contents file ∧ v.agentAuth = w.agentAuth ∧
      v.agentConfig = w.agentConfig ∧ v.backups = w.backups ∧ v.manifests = w.manifests := by
  have hset : ∀ bytes, (w.setContents file.original bytes).contents =
      Function.update w.contents file.original bytes := by
    intro bytes
    funext p
    rw [World.contents_setContents, Function.update_apply]
  rw [restoreFile, rollback, Readable]
  by_cases hcreated : file.createdByMigration = true
  · rw [if_pos hcreated, if_pos hcreated, Except.ok.injEq]
    constructor
    · rintro rfl
      exact ⟨by simp [hcreated], hset none, by simp, by simp, by simp, by simp⟩
    · rintro ⟨-, hc, ha, hconfig, hb, hm⟩
      exact World.ext_contents _ ((hset none).trans hc.symm) (by simp [ha]) (by simp [hconfig])
        (by simp [hb]) (by simp [hm])
  · rw [if_neg hcreated, if_neg hcreated]
    cases hb : file.backup with
    | none =>
      rw [Except.ok.injEq]
      constructor
      · rintro rfl
        exact ⟨by simp, rfl, rfl, rfl, rfl, rfl⟩
      · rintro ⟨-, hc, ha, hconfig, hb, hm⟩
        exact World.ext_contents _ hc.symm ha.symm hconfig.symm hb.symm hm.symm
    | some b =>
      simp only [bind_eq_ok, readBackup_eq_ok]
      constructor
      · rintro ⟨bytes, hbytes, h⟩
        cases h
        refine ⟨fun _ b' hb' => ?_, by rw [hbytes]; exact hset _, by simp, by simp, by simp, by simp⟩
        cases hb'
        exact ⟨bytes, hbytes⟩
      · rintro ⟨hreadable, hc, ha, hconfig, hbackups, hm⟩
        obtain ⟨bytes, hbytes⟩ := hreadable (by simpa using hcreated) b rfl
        rw [hbytes] at hc
        refine ⟨bytes, hbytes, congrArg Except.ok ?_⟩
        exact World.ext_contents _ ((hset _).trans hc.symm) (by simp [ha]) (by simp [hconfig])
          (by simp [hbackups]) (by simp [hm])

theorem rollback_of_ne {backups : BackupPath → Option ByteArray} (h : p ≠ file.original) :
    rollback backups c file p = c p := by
  rw [rollback]
  split_ifs
  · exact Function.update_of_ne h _ _
  · cases file.backup with
    | none => rfl
    | some b => exact Function.update_of_ne h _ _

/-! ## Rolling back a list of files -/

def rollbackAll (backups : BackupPath → Option ByteArray) (files : List FileBackup)
    (c : SimulatedFiles) : SimulatedFiles := files.foldl (rollback backups) c

/-- The value comes from the backup of a record. -/
def FromBackup (backups : BackupPath → Option ByteArray) (file : FileBackup)
    (value : Option ByteArray) : Prop :=
  file.createdByMigration = false ∧ ∃ b, file.backup = some b ∧ value = backups b

theorem rollback_fromBackup {backups : BackupPath → Option ByteArray} {value : Option ByteArray}
    (h : FromBackup backups file value) (c : SimulatedFiles) :
    rollback backups c file file.original = value := by
  obtain ⟨hcreated, b, hb, rfl⟩ := h
  rw [rollback, if_neg (by rw [hcreated]; exact Bool.false_ne_true), hb]
  exact Function.update_self _ _ _

/-- A restored file is gone or has the bytes of a backup, and the others are as before. -/
theorem rollbackAll_cases (backups : BackupPath → Option ByteArray) (files : List FileBackup)
    (c : SimulatedFiles) (p : ManagedPath) :
    rollbackAll backups files c p = c p ∨ rollbackAll backups files c p = none ∨
      ∃ file ∈ files, file.original = p ∧
        FromBackup backups file (rollbackAll backups files c p) := by
  induction files using List.reverseRecOn with
  | nil => exact Or.inl rfl
  | append_singleton files file ih =>
    rw [rollbackAll, List.foldl_concat, ← rollbackAll]
    have hweaken : ∀ value, (∃ file ∈ files, file.original = p ∧ FromBackup backups file value) →
        ∃ file' ∈ files ++ [file], file'.original = p ∧ FromBackup backups file' value := by
      rintro value ⟨file', hmem, hrest⟩
      exact ⟨file', List.mem_append_left _ hmem, hrest⟩
    by_cases hp : p = file.original
    · by_cases hcreated : file.createdByMigration = true
      · refine Or.inr (Or.inl ?_)
        rw [rollback, if_pos hcreated, hp, Function.update_self]
      · cases hb : file.backup with
        | none =>
          have hsame : rollback backups (rollbackAll backups files c) file =
              rollbackAll backups files c := by
            rw [rollback, if_neg hcreated, hb]
          rw [hsame]
          exact ih.imp_right (Or.imp_right (hweaken _))
        | some b =>
          refine Or.inr (Or.inr ⟨file, by simp, hp.symm, by simpa using hcreated, b, hb, ?_⟩)
          rw [rollback, if_neg hcreated, hb, hp]
          exact Function.update_self _ _ _
    · rw [rollback_of_ne hp]
      exact ih.imp_right (Or.imp_right (hweaken _))

theorem rollbackAll_of_not_mem {backups : BackupPath → Option ByteArray} {files : List FileBackup}
    (h : ∀ file ∈ files, file.original ≠ p) : rollbackAll backups files c p = c p := by
  induction files generalizing c with
  | nil => rfl
  | cons file files ih =>
    have hne : p ≠ file.original := (h file List.mem_cons_self).symm
    rw [rollbackAll, List.foldl_cons, ← rollbackAll,
      ih fun file' hfile' => h file' (List.mem_cons_of_mem _ hfile'), rollback_of_ne hne]

theorem rollbackAll_append (backups : BackupPath → Option ByteArray) (files files' : List FileBackup)
    (c : SimulatedFiles) : rollbackAll backups (files ++ files') c =
      rollbackAll backups files' (rollbackAll backups files c) := List.foldl_append ..

/-- The records of a chain in the order in which they are restored. -/
def rollbackOrder (chain : Chain δ) : List FileBackup := chain.flatMap fun e => e.2.files.reverse

theorem mem_rollbackOrder : file ∈ rollbackOrder chain ↔ ∃ e ∈ chain, file ∈ e.2.files := by
  simp [rollbackOrder]

/-! ## The checks -/

theorem checkFile_eq_ok {path : Path} :
    checkFile env w c path m file = .ok () ↔
      m.exempts file = true ∨ fileMatches env w m file (c file.original) = .ok true := by
  rw [checkFile]
  by_cases hexempt : m.exempts file = true
  · simp [hexempt]
  · rw [if_neg hexempt, bind_eq_ok]
    constructor
    · rintro ⟨ok, hok, h⟩
      have htrue : ok = true := by simpa using Except.rejectIf_eq_ok.mp h
      exact Or.inr (htrue ▸ hok)
    · intro h
      exact ⟨true, h.resolve_left hexempt, rfl⟩

theorem simulateRestores_eq_ok {files : List FileBackup} :
    files.foldlM (simulateRestore w) c = .ok c' ↔
      (∀ file ∈ files, Readable w.backups file) ∧ c' = rollbackAll w.backups files c := by
  induction files generalizing c with
  | nil => simp [rollbackAll, pure, Except.pure, eq_comm]
  | cons file files ih =>
    simp only [List.foldlM_cons, bind_eq_ok, simulateRestore_eq_ok, ih, List.forall_mem_cons]
    constructor
    · rintro ⟨_, ⟨hfile, rfl⟩, hfiles, rfl⟩
      exact ⟨⟨hfile, hfiles⟩, rfl⟩
    · rintro ⟨⟨hfile, hfiles⟩, rfl⟩
      exact ⟨_, ⟨hfile, rfl⟩, hfiles, rfl⟩

/-- Each record of the chain passes its check, when the files at first are `c`. -/
def Passes (env : Env) (w : World δ) (c : SimulatedFiles) (chain : Chain δ) : Prop :=
  ∀ newer e older, chain = newer ++ e :: older → ∀ file ∈ e.2.files, e.2.exempts file = true ∨
    fileMatches env w e.2 file (rollbackAll w.backups (rollbackOrder newer) c file.original) =
      .ok true

theorem passes_cons {e : Path × MigrationManifest δ} :
    Passes env w c (e :: chain) ↔
      (∀ file ∈ e.2.files, e.2.exempts file = true ∨
        fileMatches env w e.2 file (c file.original) = .ok true) ∧
      Passes env w (rollbackAll w.backups e.2.files.reverse c) chain := by
  have hfold : ∀ newer, rollbackAll w.backups (rollbackOrder (e :: newer)) c =
      rollbackAll w.backups (rollbackOrder newer)
        (rollbackAll w.backups e.2.files.reverse c) := by
    intro newer
    rw [rollbackAll, rollbackOrder, List.flatMap_cons, List.foldl_append]
    rfl
  constructor
  · intro h
    refine ⟨h [] e chain rfl, ?_⟩
    rintro newer e' older rfl
    have hcheck := h (e :: newer) e' older rfl
    rwa [hfold] at hcheck
  · rintro ⟨hfirst, hrest⟩ newer e' older hsplit
    cases newer with
    | nil =>
      cases hsplit
      exact hfirst
    | cons e₀ newer =>
      cases hsplit
      rw [hfold]
      exact hrest newer e' older rfl

theorem preflight_eq_ok :
    chain.foldlM (preflightManifest env w) c = .ok c' ↔
      Passes env w c chain ∧ (∀ file ∈ rollbackOrder chain, Readable w.backups file) ∧
        c' = rollbackAll w.backups (rollbackOrder chain) c := by
  induction chain generalizing c with
  | nil =>
    constructor
    · intro h
      cases h
      exact ⟨fun newer e older h => (by simp at h), fun file h => (by cases h), rfl⟩
    · rintro ⟨-, -, rfl⟩
      rfl
  | cons e chain ih =>
    have hstep : ∀ c₁, preflightManifest env w c e = .ok c₁ ↔
        (∀ file ∈ e.2.files, e.2.exempts file = true ∨
          fileMatches env w e.2 file (c file.original) = .ok true) ∧
        (∀ file ∈ e.2.files.reverse, Readable w.backups file) ∧
        c₁ = rollbackAll w.backups e.2.files.reverse c := by
      intro c₁
      simp only [preflightManifest, bind_eq_ok, Except.forM_eq_ok, checkFile_eq_ok,
        simulateRestores_eq_ok]
      exact ⟨fun ⟨_, h⟩ => h, fun h => ⟨⟨⟩, h⟩⟩
    simp only [List.foldlM_cons, bind_eq_ok, hstep, ih, passes_cons, rollbackOrder,
      List.flatMap_cons, List.forall_mem_append]
    constructor
    · rintro ⟨_, ⟨hcheck, hread, rfl⟩, hpasses, hrest, rfl⟩
      exact ⟨⟨hcheck, hpasses⟩, ⟨hread, hrest⟩, by simp [rollbackAll]⟩
    · rintro ⟨⟨hcheck, hpasses⟩, ⟨hread, hrest⟩, rfl⟩
      exact ⟨_, ⟨hcheck, hread, rfl⟩, hpasses, hrest, by simp [rollbackAll]⟩

theorem preflightFiles_eq_ok :
    preflightManifestFileRestoration env w chain = .ok () ↔
      Passes env w w.contents chain ∧ ∀ file ∈ rollbackOrder chain, Readable w.backups file := by
  simp only [preflightManifestFileRestoration, bind_eq_ok, preflight_eq_ok]
  exact ⟨fun ⟨_, ⟨hp, hr, _⟩, _⟩ => ⟨hp, hr⟩, fun ⟨hp, hr⟩ => ⟨_, ⟨hp, hr, rfl⟩, rfl⟩⟩

/-! ## The operations -/

/-- The record that an operation restores, with its manifest. -/
def UnlinkOp.record? : UnlinkOp δ → Option (Path × MigrationManifest δ × FileBackup)
  | restoreFile path m file => some (path, m, file)
  | restoreCredentials .. | restoreBinding .. | writeManifest .. => none

/-- The records that the operations restore, in order. -/
def records (ops : List (UnlinkOp δ)) : List (Path × MigrationManifest δ × FileBackup) :=
  ops.filterMap UnlinkOp.record?

def restoredFiles (ops : List (UnlinkOp δ)) : List FileBackup := (records ops).map fun r => r.2.2

theorem restoredFiles_append (ops ops' : List (UnlinkOp δ)) :
    restoredFiles (ops ++ ops') = restoredFiles ops ++ restoredFiles ops' := by
  simp [restoredFiles, records]

variable [DecidableEq δ]

theorem act_contents {op : UnlinkOp δ} {v : World δ} (h : op.act w = .ok v) :
    v.backups = w.backups ∧
      v.contents = rollbackAll w.backups (restoredFiles [op]) w.contents := by
  cases op with
  | restoreCredentials agent path accounts =>
    obtain ⟨_, -, h⟩ := bind_eq_ok.mp h
    obtain ⟨auth, -, h⟩ := bind_eq_ok.mp h
    cases h
    exact ⟨rfl, rfl⟩
  | restoreFile path m file =>
    obtain ⟨-, hcontents, -, -, hbackups, -⟩ := restoreFile_eq_ok.mp h
    exact ⟨hbackups, hcontents⟩
  | restoreBinding agent change =>
    rw [UnlinkOp.act, restoreBinding] at h
    obtain ⟨config, -, h⟩ := bind_eq_ok.mp h
    by_cases hbefore : config agent = change.before
    · rw [if_pos hbefore] at h
      cases h
      exact ⟨rfl, rfl⟩
    · rw [if_neg hbefore] at h
      obtain ⟨_, -, h⟩ := bind_eq_ok.mp h
      cases h
      exact ⟨rfl, rfl⟩
  | writeManifest path m =>
    cases h
    exact ⟨rfl, rfl⟩

/-- The files after some operations: those that were restored are rolled back. -/
theorem run_contents {u : World δ} (h : run UnlinkOp.act ops w = .ok u) :
    u.backups = w.backups ∧
      u.contents = rollbackAll w.backups (restoredFiles ops) w.contents := by
  induction ops generalizing w with
  | nil =>
    cases h
    exact ⟨rfl, rfl⟩
  | cons op ops ih =>
    obtain ⟨v, hop, hops⟩ := run_cons_eq_ok.mp h
    obtain ⟨hbackups, hcontents⟩ := act_contents hop
    obtain ⟨hbackups', hcontents'⟩ := ih hops
    have happend : restoredFiles (op :: ops) = restoredFiles [op] ++ restoredFiles ops :=
      restoredFiles_append [op] ops
    refine ⟨hbackups'.trans hbackups, ?_⟩
    rw [hcontents', hbackups, hcontents, happend, rollbackAll, rollbackAll, rollbackAll,
      List.foldl_append]

omit [DecidableEq δ] in
theorem records_credentials {agent : AgentId}
    (h : restorePendingCredentials env w agent chain = .ok ops) : records ops = [] := by
  rw [restorePendingCredentials] at h
  split_ifs at h with hall
  · cases h
    rfl
  · obtain ⟨accounts, -, h⟩ := bind_eq_ok.mp h
    obtain ⟨targets, -, h⟩ := bind_eq_ok.mp h
    cases h
    simp [records, UnlinkOp.record?, List.filterMap_map, List.filterMap_eq_nil_iff]

/-- The parts of an unlink. -/
theorem unlinkOps_eq_ok :
    unlinkOps env w request = .ok ops ↔ ∃ chain credentials,
      selectedChain w request = .ok chain ∧
      preflightManifestFileRestoration env w chain = .ok () ∧
      preflightAgentConfigRestoration w chain = .ok () ∧
      restorePendingCredentials env w request.agent chain = .ok credentials ∧
      ops = credentials ++ chain.flatMap restoreManifestFiles ++
        restoreAgentConfigChanges chain ++ markUnlinked chain := by
  simp only [unlinkOps, bind_eq_ok]
  constructor
  · rintro ⟨chain, hchain, ⟨⟩, hfiles, ⟨⟩, hconfig, credentials, hcredentials, h⟩
    cases h
    exact ⟨chain, credentials, hchain, hfiles, hconfig, hcredentials, rfl⟩
  · rintro ⟨chain, credentials, hchain, hfiles, hconfig, hcredentials, rfl⟩
    exact ⟨chain, hchain, ⟨⟩, hfiles, ⟨⟩, hconfig, credentials, hcredentials, rfl⟩

omit [DecidableEq δ] in
theorem records_files (chain : Chain δ) :
    records (chain.flatMap restoreManifestFiles) =
      chain.flatMap fun e => e.2.files.reverse.map fun file => (e.1, e.2, file) := by
  induction chain with
  | nil => rfl
  | cons e chain ih =>
    rw [List.flatMap_cons, List.flatMap_cons, records, List.filterMap_append, ← records, ← records,
      ih]
    congr 1
    rw [restoreManifestFiles, records, List.filterMap_map, ← List.filterMap_eq_map]
    rfl

theorem records_unlinkOps (hchain : selectedChain w request = .ok chain)
    (h : unlinkOps env w request = .ok ops) :
    records ops = chain.flatMap fun e => e.2.files.reverse.map fun file => (e.1, e.2, file) := by
  obtain ⟨chain', credentials, hchain', -, -, hcredentials, rfl⟩ := unlinkOps_eq_ok.mp h
  cases hchain.symm.trans hchain'
  have hbindings : records (restoreAgentConfigChanges chain) = [] := by
    simp only [records, restoreAgentConfigChanges, List.filterMap_eq_nil_iff, List.mem_filterMap,
      Option.map_eq_some_iff]
    rintro op ⟨e, -, change, -, rfl⟩
    rfl
  have hmarks : records (markUnlinked chain) = [] := by
    simp [records, markUnlinked, UnlinkOp.record?, List.filterMap_map, List.filterMap_eq_nil_iff]
  have happend : ∀ l l' : List (UnlinkOp δ), records (l ++ l') = records l ++ records l' :=
    fun l l' => List.filterMap_append
  rw [happend, happend, happend, hbindings, hmarks, records_credentials hcredentials,
    records_files, List.nil_append, List.append_nil, List.append_nil]

/-- Where a record of a chain stands among all of them. -/
theorem split_flatMap {α β : Type} {f : α → List β} {l : List α} {before after : List β} {b : β}
    (h : l.flatMap f = before ++ b :: after) : ∃ newer a older before' after',
      l = newer ++ a :: older ∧ f a = before' ++ b :: after' ∧
      before = newer.flatMap f ++ before' := by
  induction l generalizing before with
  | nil => simp at h
  | cons a l ih =>
    rw [List.flatMap_cons] at h
    obtain ⟨t, hbefore, hrest⟩ | ⟨t, ha, hrest⟩ := List.append_eq_append_iff.mp h
    · obtain ⟨newer, a', older, before', after', rfl, ha', rfl⟩ := ih hrest
      exact ⟨a :: newer, a', older, before', after', rfl, ha', by
        rw [hbefore, List.flatMap_cons, List.append_assoc]⟩
    · cases t with
      | nil =>
        rw [List.append_nil] at ha
        obtain ⟨newer, a', older, before', after', rfl, ha', hnil⟩ :=
          ih (show l.flatMap f = [] ++ b :: after from hrest.symm)
        refine ⟨a :: newer, a', older, before', after', rfl, ha', ?_⟩
        rw [List.flatMap_cons, List.append_assoc, ← hnil, ha, List.append_nil]
      | cons b' t =>
        cases hrest
        exact ⟨[], a, l, before, t, rfl, ha, rfl⟩

/-! ## What is overwritten -/

/-- The bytes are what a record says was applied to its file; or the pre-image, where the link or
sync was interrupted before it recorded that. -/
def Recorded (env : Env) (w : World δ) (file : FileBackup) (bytes : ByteArray) : Prop :=
  file.appliedSha256 = some (env.sha256 bytes) ∨
    file.appliedSha256 = none ∧ ∃ b, file.backup = some b ∧ w.backups b = some bytes

omit [DecidableEq δ] in
/-- A record of a current manifest that passes its check finds recorded bytes. -/
theorem recorded_of_matches (hversion : m.version = CURRENT_VERSION)
    (h : fileMatches env w m file (some bytes) = .ok true) : Recorded env w file bytes := by
  rw [fileMatches] at h
  cases hsha : file.appliedSha256 with
  | some expected =>
    rw [hsha] at h
    have heq : env.sha256 bytes = expected := by simpa using h
    exact Or.inl (hsha.trans (congrArg some heq.symm))
  | none =>
    rw [hsha, hversion] at h
    simp only [lt_irrefl, if_false, uncheckpointedFileStillMatchesPreimage] at h
    cases hb : file.backup with
    | none => simp [hb] at h
    | some b =>
      rw [hb] at h
      obtain ⟨original, horiginal, h⟩ := bind_eq_ok.mp h
      have heq : bytes = original := by simpa [pure, Except.pure] using h
      exact Or.inr ⟨hsha, b, hb, heq ▸ readBackup_eq_ok.mp horiginal⟩

/-- An operation done before has restored the bytes from a backup of the same manifest. -/
def RestoredBy (w : World δ) (done : List (UnlinkOp δ)) (path : Path) (m : MigrationManifest δ)
    (p : ManagedPath) (bytes : ByteArray) : Prop :=
  ∃ file, .restoreFile path m file ∈ done ∧ file.original = p ∧
    FromBackup w.backups file (some bytes)

omit [DecidableEq δ] in
theorem mem_of_mem_records {path : Path} (h : (path, m, file) ∈ records ops) :
    .restoreFile path m file ∈ ops := by
  obtain ⟨op, hop, hrecord⟩ := List.mem_filterMap.mp h
  cases op with
  | restoreFile path' m' file' =>
    cases hrecord
    exact hop
  | _ => cases hrecord

/-- The file that an operation restores holds what its record has, or what the operation before
has restored, or is not there. -/
theorem recorded_of_restore {u : World δ} (hchain : selectedChain w request = .ok chain)
    (hversion : ∀ e ∈ chain, e.2.version = CURRENT_VERSION) {done rest : List (UnlinkOp δ)}
    {path : Path} (hops : unlinkOps env w request = .ok ops)
    (hsplit : ops = done ++ .restoreFile path m file :: rest)
    (hdone : run UnlinkOp.act done w = .ok u) (hexempt : m.exempts file = false)
    (hbytes : u.contents file.original = some bytes) :
    Recorded env w file bytes ∨ RestoredBy w done path m file.original bytes := by
  have hrecords := records_unlinkOps hchain hops
  rw [hsplit, records, List.filterMap_append, List.filterMap_cons] at hrecords
  obtain ⟨newer, e, older, before, after, hsplitChain, hfiles, hbefore⟩ :=
    split_flatMap hrecords.symm
  obtain ⟨befores, afters, hreverse, hbefores, hafters⟩ := List.map_eq_append_iff.mp hfiles
  obtain ⟨file', files', hcons, hfile', -⟩ := List.map_eq_cons_iff.mp hafters
  cases hfile'
  subst hcons
  have he : e ∈ chain := hsplitChain ▸ List.mem_append_right newer List.mem_cons_self
  have hmem : file ∈ e.2.files := List.mem_reverse.mp (hreverse ▸ by simp)
  have hrestored : restoredFiles done = rollbackOrder newer ++ befores := by
    rw [restoredFiles, records, hbefore, List.map_append, ← hbefores, List.map_map]
    simp [rollbackOrder, List.map_flatMap, Function.comp_def]
  -- Only files of the same manifest were restored since the check of this one.
  have hcontents := (run_contents hdone).2
  rw [hrestored, rollbackAll_append] at hcontents
  rw [hcontents] at hbytes
  obtain ⟨_, _, hchain', hpreflight, -, -, -⟩ := unlinkOps_eq_ok.mp hops
  cases hchain.symm.trans hchain'
  rcases rollbackAll_cases w.backups befores
    (rollbackAll w.backups (rollbackOrder newer) w.contents) file.original with hc | hc | hc
  · have hcheck := (preflightFiles_eq_ok.mp hpreflight).1 newer e older hsplitChain file hmem
    rw [← hc, hbytes] at hcheck
    have hmatches := hcheck.resolve_left (by rw [hexempt]; exact Bool.false_ne_true)
    exact Or.inl (recorded_of_matches (hversion e he) hmatches)
  · rw [hc] at hbytes
    cases hbytes
  · obtain ⟨file₀, hfile₀, horiginal, hbackup⟩ := hc
    rw [hbytes] at hbackup
    refine Or.inr ⟨file₀, mem_of_mem_records ?_, horiginal, hbackup⟩
    rw [records, hbefore, ← hbefores]
    exact List.mem_append_right _ (List.mem_map_of_mem hfile₀)

/-! ## Edits -/

/-- The file is on disk with these bytes, and no manifest of `newer` has a record of it. -/
def OnDisk (w : World δ) (newer : Chain δ) (p : ManagedPath) (bytes : ByteArray) : Prop :=
  (∀ e ∈ newer, ∀ file ∈ e.2.files, file.original ≠ p) ∧ w.contents p = some bytes

/-- The manifest that was the next one to change the file found these bytes in it, and keeps them in
a backup. -/
def KeptByNext (w : World δ) (newer : Chain δ) (p : ManagedPath) (bytes : ByteArray) : Prop :=
  ∃ newest next between earlier file later, newer = newest ++ next :: between ∧
    (∀ e ∈ between, ∀ file' ∈ e.2.files, file'.original ≠ p) ∧
    next.2.files = earlier ++ file :: later ∧ (∀ file' ∈ earlier, file'.original ≠ p) ∧
    file.original = p ∧ FromBackup w.backups file (some bytes)

omit [DecidableEq δ] in
theorem rollbackOrder_append (chain chain' : Chain δ) :
    rollbackOrder (chain ++ chain') = rollbackOrder chain ++ rollbackOrder chain' :=
  List.flatMap_append

omit [DecidableEq δ] in
theorem rollbackAll_of_onDisk {newer : Chain δ} (h : OnDisk w newer p bytes) :
    rollbackAll w.backups (rollbackOrder newer) w.contents p = some bytes := by
  rw [rollbackAll_of_not_mem, h.2]
  intro file hfile
  obtain ⟨e, he, hmem⟩ := mem_rollbackOrder.mp hfile
  exact h.1 e he file hmem

omit [DecidableEq δ] in
/-- When its turn comes, the file has what the next manifest keeps. -/
theorem rollbackAll_of_keptByNext {newer : Chain δ} (h : KeptByNext w newer p bytes)
    (c : SimulatedFiles) : rollbackAll w.backups (rollbackOrder newer) c p = some bytes := by
  obtain ⟨newest, next, between, earlier, file, later, rfl, hbetween, hfiles, hearlier, rfl,
    hbackup⟩ := h
  have horder : rollbackOrder (next :: between) =
      later.reverse ++ (file :: earlier.reverse) ++ rollbackOrder between := by
    rw [rollbackOrder, List.flatMap_cons, hfiles]
    simp [rollbackOrder]
  rw [rollbackOrder_append, horder, rollbackAll_append, rollbackAll_append, rollbackAll_append,
    rollbackAll_of_not_mem]
  · rw [rollbackAll, List.foldl_cons, ← rollbackAll, rollbackAll_of_not_mem]
    · exact rollback_fromBackup hbackup _
    · exact fun file' hfile' => hearlier file' (List.mem_reverse.mp hfile')
  · intro file' hfile'
    obtain ⟨e, he, hmem⟩ := mem_rollbackOrder.mp hfile'
    exact hbetween e he file' hmem

omit [DecidableEq δ] in
/-- The check of a record finds what it does not have. -/
theorem preflight_of_edited {newer older : Chain δ} {e : Path × MigrationManifest δ}
    (hversion : ∀ e ∈ chain, e.2.version = CURRENT_VERSION) (hsplit : chain = newer ++ e :: older)
    (hfile : file ∈ e.2.files) (hexempt : e.2.exempts file = false)
    (hstate : rollbackAll w.backups (rollbackOrder newer) w.contents file.original = some bytes)
    (hedited : ¬ Recorded env w file bytes) :
    preflightManifestFileRestoration env w chain ≠ .ok () := by
  intro h
  have hcheck := (preflightFiles_eq_ok.mp h).1 newer e older hsplit file hfile
  rw [hstate] at hcheck
  have hmatches := hcheck.resolve_left (by rw [hexempt]; exact Bool.false_ne_true)
  have he : e ∈ chain := hsplit ▸ List.mem_append_right newer List.mem_cons_self
  exact hedited (recorded_of_matches (hversion e he) hmatches)

/-- When the operations cannot be planned, nothing happens. -/
theorem unlink_of_error {error : MigrationError} (h : unlinkOps env w request = .error error) :
    (unlink env request).outcome w = (.error error, w) := by
  rw [unlink]
  exact Stateful.bind_reading_error h

theorem unlinkOps_of_preflight_error (hchain : selectedChain w request = .ok chain)
    (h : preflightManifestFileRestoration env w chain ≠ .ok () ∨
      preflightAgentConfigRestoration w chain ≠ .ok ()) :
    ∃ error, unlinkOps env w request = .error error := by
  cases hops : unlinkOps env w request with
  | error error => exact ⟨error, rfl⟩
  | ok ops =>
    obtain ⟨chain', _, hchain', hfiles, hconfig, -, -⟩ := unlinkOps_eq_ok.mp hops
    cases hchain.symm.trans hchain'
    exact (h.elim (· hfiles) (· hconfig)).elim

/-- The digests of the files below. -/
def digestOf (text : String) : Digest :=
  match text with
  | "a" => "ca978112ca1bbdcafac231b39a23dc4da786eff8147c4e72b9807785afee48bb"
  | "b" => "3e23e8160039594a33894f6564e1b1348bbd7a0088d42c4acb73eeaed59c009d"
  | "c" => "2e7d2c03a9507ae265ecf5b5356885a53393a2029d241394997265a1a25aefc6"
  | "x" => "2d711642b726b04401627ca9fbac32f5c8530fb1903cc4db02258717921a4881"
  | _ => ""

def sampleEnv : Env where
  sha256 bytes := digestOf (String.ofList (bytes.toList.map fun b => Char.ofNat b.toNat))
  yaml :=
    { accountToString := fun _ => .ok ""
      fileToString := fun _ => .ok ""
      fileFromStr := fun _ => .ok ⟨1, []⟩ }

def sampleBackup : BackupPath := ⟨.file "opencode.json", "t1"⟩

/-- The link changed the file from `a` to `b`. -/
def sampleFile : FileBackup :=
  ⟨.file "opencode.json", some sampleBackup, true, false, some (digestOf "b")⟩

/-- A link that changed an existing file. -/
def sampleManifest : MigrationManifest String where
  version := CURRENT_VERSION
  completed := true
  agent := .opencode
  timestamp := "t1"
  gatewayAuthPath := none
  gatewayAuthShardPath := none
  agentAuthPath := none
  providerRoutes := []
  previousManifest := none
  unlinked := false
  credentialsHandoffComplete := true
  agentConfigChange := none
  importedAccountIds := []
  files := [sampleFile]

def sampleWorld : World String where
  gateway _ := OrderedMap.empty
  files := Function.update (fun _ => none) "opencode.json" (some "b".toUTF8)
  agentAuth _ := .missing
  agentConfig _ := .missing
  backups := Function.update (fun _ => none) sampleBackup (some "a".toUTF8)
  manifests := OrderedMap.empty.insert "t1-opencode.json" sampleManifest

def sampleRequest : UnlinkRequest := ⟨.opencode, none⟩

def sampleChain : Chain String := [("t1-opencode.json", sampleManifest)]

def sampleOps : List (UnlinkOp String) :=
  [.restoreFile "t1-opencode.json" sampleManifest sampleFile,
    .writeManifest "t1-opencode.json" { sampleManifest with unlinked := true }]

theorem selectedChain_sampleWorld : selectedChain sampleWorld sampleRequest = .ok sampleChain := by
  decide +kernel

theorem unlinkOps_sampleWorld : unlinkOps sampleEnv sampleWorld sampleRequest = .ok sampleOps := by
  decide +kernel

def syncBackup : BackupPath := ⟨.file "opencode.json", "t2"⟩

/-- A sync that found `x`, which somebody had written over the `b` of the link. -/
def syncFile : FileBackup :=
  ⟨.file "opencode.json", some syncBackup, true, false, some (digestOf "c")⟩

def syncManifest : MigrationManifest String :=
  { sampleManifest with
    timestamp := "t2"
    previousManifest := some "t1-opencode.json"
    files := [syncFile] }

def syncedWorld : World String :=
  { sampleWorld with
    files := Function.update (fun _ => none) "opencode.json" (some "c".toUTF8)
    backups := Function.update sampleWorld.backups syncBackup (some "x".toUTF8)
    manifests := sampleWorld.manifests.insert "t2-opencode.json" syncManifest }

def syncedChain : Chain String := ("t2-opencode.json", syncManifest) :: sampleChain

end Tokn.Migration
