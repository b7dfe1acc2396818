import Mathlib.Data.List.ReduceOption
import Tokn.Migration.Bindings
import Tokn.Migration.Handoff

/-!
# Running an interrupted unlink again

Marking manifests neither changes which chain is selected (`selectedChain_marked`) nor what its
records say, exports of credentials can be repeated, and restoring a file or an entry of a sidecar
twice is restoring it once (`rollbackAll_absorb`). An unlink that stopped is therefore in a state
that is `Progressed`, wherever it stopped (`progressed_of_stop`).

**Theorem (`unlink_again_iff`).** A second run ends where the first would have ended, exactly if
the files and entries that are compared with the disk still pass their checks. A file that was
restored before its manifest was marked does not: the check wants the digest of what the link
wrote (`unlink_again_refused`).
-/

namespace Tokn.Migration

open Procedure
open Tokn.Except (bind_eq_ok rejectIf_eq_ok)

variable {δ : Type} {env : Env}

/-! ## Marked manifests -/

/-- A manifest after its handoff, and after it was marked, as far as that has happened. -/
def marked (handedOff unlinked : Bool) (m : MigrationManifest δ) : MigrationManifest δ :=
  { m with
    credentialsHandoffComplete := m.credentialsHandoffComplete || handedOff
    unlinked := m.unlinked || unlinked }

theorem marked_marked (a b c d : Bool) (m : MigrationManifest δ) :
    marked a b (marked c d m) = marked (c || a) (d || b) m := by
  simp [marked, Bool.or_assoc]

theorem marked_false (m : MigrationManifest δ) : marked false false m = m := by
  simp [marked]

/-- Which manifests have been handed off and marked. -/
abbrev Marks := Path → Bool × Bool

def markEntry (marks : Marks) (e : Path × MigrationManifest δ) : Path × MigrationManifest δ :=
  (e.1, marked (marks e.1).1 (marks e.1).2 e.2)

/-- The manifests of a world in which some have been marked. -/
def markedManifests (marks : Marks) (w : World δ) : OrderedMap Path (MigrationManifest δ) :=
  w.manifests.mapWithKey fun path => marked (marks path).1 (marks path).2

theorem entries_markedManifests (marks : Marks) (w : World δ) :
    (markedManifests marks w).entries = w.manifests.entries.map (markEntry marks) := rfl

theorem get_markedManifests (marks : Marks) (w : World δ) (path : Path) :
    (markedManifests marks w).get path =
      (w.manifests.get path).map (marked (marks path).1 (marks path).2) :=
  OrderedMap.get_mapWithKey _ _ _

variable {w u : World δ} {marks : Marks}

variable {path : Path} {agent : AgentId} {c : SimulatedFiles} {files : List FileBackup}
  {v : World δ}

theorem readManifest_eq_ok {m : MigrationManifest δ} :
    w.readManifest path = .ok m ↔ w.manifests.get path = some m := by
  rw [World.readManifest]
  cases w.manifests.get path with
  | none => simp
  | some m' => simp

theorem manifestChainFrom_some_eq_ok {fuel : Nat} {seen : List Path} {chain : Chain δ} :
    manifestChainFrom w agent (fuel + 1) seen (some path) = .ok chain ↔
      ∃ m rest, path ∉ seen ∧ w.manifests.get path = some m ∧ m.agent = agent ∧
        manifestChainFrom w agent fuel (path :: seen) m.previousManifest = .ok rest ∧
        chain = (path, m) :: rest := by
  rw [manifestChainFrom]
  constructor
  · intro h
    obtain ⟨_, hseen, h⟩ := bind_eq_ok.mp h
    obtain ⟨m, hm, h⟩ := bind_eq_ok.mp h
    obtain ⟨_, hagent, h⟩ := bind_eq_ok.mp h
    obtain ⟨rest, hrest, h⟩ := bind_eq_ok.mp h
    cases h
    exact ⟨m, rest, by simpa using rejectIf_eq_ok.mp hseen, readManifest_eq_ok.mp hm,
      by simpa using rejectIf_eq_ok.mp hagent, hrest, rfl⟩
  · rintro ⟨m, rest, hseen, hm, hagent, hrest, rfl⟩
    refine bind_eq_ok.mpr ⟨⟨⟩, rejectIf_eq_ok.mpr (by simpa using hseen), ?_⟩
    refine bind_eq_ok.mpr ⟨m, readManifest_eq_ok.mpr hm, ?_⟩
    refine bind_eq_ok.mpr ⟨⟨⟩, rejectIf_eq_ok.mpr (by simpa using hagent), ?_⟩
    exact bind_eq_ok.mpr ⟨rest, hrest, rfl⟩

/-- Marking manifests does not change how they are chained. -/
theorem manifestChainFrom_marked (h : u.manifests = markedManifests marks w) {fuel : Nat}
    {seen : List Path} {path : Option Path} {chain : Chain δ}
    (hchain : manifestChainFrom w agent fuel seen path = .ok chain) :
    manifestChainFrom u agent fuel seen path = .ok (chain.map (markEntry marks)) := by
  induction fuel generalizing seen path chain with
  | zero =>
    cases path with
    | none => cases hchain; rfl
    | some path => cases hchain
  | succ fuel ih =>
    cases path with
    | none => cases hchain; rfl
    | some path =>
      obtain ⟨m, rest, hseen, hm, hagent, hrest, rfl⟩ := manifestChainFrom_some_eq_ok.mp hchain
      refine manifestChainFrom_some_eq_ok.mpr
        ⟨marked (marks path).1 (marks path).2 m, _, hseen, ?_, hagent, ih hrest, rfl⟩
      rw [h, get_markedManifests, hm, Option.map_some]

theorem manifestChain_marked (h : u.manifests = markedManifests marks w) {chain : Chain δ}
    (hchain : manifestChain w agent path = .ok chain) :
    manifestChain u agent path = .ok (chain.map (markEntry marks)) := by
  have hlength : u.manifests.entries.length = w.manifests.entries.length := by
    rw [h, entries_markedManifests, List.length_map]
  rw [manifestChain, hlength]
  exact manifestChainFrom_marked h hchain

/-- What reading a chain says about its manifests. -/
theorem mem_of_manifestChainFrom {fuel : Nat} {seen : List Path} {path : Option Path}
    {chain : Chain δ} (h : manifestChainFrom w agent fuel seen path = .ok chain) :
    chain.head?.map Prod.fst = path ∧ (chain.map Prod.fst).Nodup ∧
      ∀ e ∈ chain, e.1 ∉ seen ∧ w.manifests.get e.1 = some e.2 ∧ e.2.agent = agent := by
  induction fuel generalizing seen path chain with
  | zero =>
    cases path with
    | none => cases h; exact ⟨rfl, List.nodup_nil, fun e he => (by cases he)⟩
    | some path => cases h
  | succ fuel ih =>
    cases path with
    | none => cases h; exact ⟨rfl, List.nodup_nil, fun e he => (by cases he)⟩
    | some path =>
      obtain ⟨m, rest, hseen, hm, hagent, hrest, rfl⟩ := manifestChainFrom_some_eq_ok.mp h
      obtain ⟨-, hnodup, hmem⟩ := ih hrest
      refine ⟨rfl, List.nodup_cons.mpr ⟨?_, hnodup⟩, List.forall_mem_cons.mpr
        ⟨⟨hseen, hm, hagent⟩, fun e he => ?_⟩⟩
      · intro hpath
        obtain ⟨e, he, heq⟩ := List.mem_map.mp hpath
        exact (hmem e he).1 (heq ▸ List.mem_cons_self)
      · exact ⟨fun hin => (hmem e he).1 (List.mem_cons_of_mem _ hin), (hmem e he).2⟩

/-! ## Selecting the same chain again -/

theorem activeManifestSuccessor_eq_none :
    activeManifestSuccessor w path agent = .ok none ↔
      ∀ e ∈ w.manifests.entries, e.1 ≠ path → isManifestOf agent e.1 = true →
        e.2.agent = agent → e.2.unlinked = false →
        ∃ chain, manifestChain w agent e.1 = .ok chain ∧ ∀ a ∈ chain.tail, a.1 ≠ path := by
  have hcandidate : ∀ e : Path × MigrationManifest δ,
      (decide (e.1 ≠ path) && isManifestOf agent e.1 && decide (e.2.agent = agent) &&
        !e.2.unlinked) = true ↔ e.1 ≠ path ∧ isManifestOf agent e.1 = true ∧ e.2.agent = agent ∧
          e.2.unlinked = false := by
    intro e
    simp [and_assoc]
  have hstep : ∀ (e : Path × MigrationManifest δ) (successor : Option Path),
      (do let chain ← manifestChain w agent e.1
          pure (if chain.tail.any fun ancestor => ancestor.1 = path then some e.1 else none)) =
        (.ok successor : Except MigrationError _) ↔
      ∃ chain, manifestChain w agent e.1 = .ok chain ∧
        (if chain.tail.any fun ancestor => ancestor.1 = path then some e.1 else none) =
          successor := by
    intro e successor
    rw [bind_eq_ok]
    simp [pure, Except.pure]
  rw [activeManifestSuccessor, bind_eq_ok]
  constructor
  · rintro ⟨successors, hsuccessors, h⟩ e he hpath hname hagent hactive
    have hnil : successors.reduceOption = [] := by
      simpa [pure, Except.pure, List.getLast?_eq_none_iff] using h
    have hforall := Except.mapM_eq_ok.mp hsuccessors
    have hmem : e ∈ w.manifests.entries.filter fun e =>
        decide (e.1 ≠ path) && isManifestOf agent e.1 && decide (e.2.agent = agent) &&
          !e.2.unlinked :=
      List.mem_filter.mpr ⟨he, (hcandidate e).mpr ⟨hpath, hname, hagent, hactive⟩⟩
    obtain ⟨successor, hin, hsuccessor⟩ := Except.exists_of_forall₂ hforall hmem
    obtain ⟨chain, hchain, hif⟩ := (hstep e successor).mp hsuccessor
    refine ⟨chain, hchain, fun a ha heq => ?_⟩
    have hany : (chain.tail.any fun ancestor => decide (ancestor.1 = path)) = true :=
      List.any_eq_true.mpr ⟨a, ha, by simpa using heq⟩
    rw [if_pos hany] at hif
    have hreduce : e.1 ∈ successors.reduceOption :=
      List.reduceOption_mem_iff.mpr (hif ▸ hin)
    rw [hnil] at hreduce
    cases hreduce
  · intro h
    have hforall : ∀ l : List (Path × MigrationManifest δ),
        (∀ e ∈ l, ∃ chain, manifestChain w agent e.1 = .ok chain ∧
          ∀ a ∈ chain.tail, a.1 ≠ path) →
        List.Forall₂ (fun e successor =>
          (do let chain ← manifestChain w agent e.1
              pure (if chain.tail.any fun ancestor => ancestor.1 = path then some e.1 else none)) =
            (.ok successor : Except MigrationError _)) l (l.map fun _ => none) := by
      intro l hl
      induction l with
      | nil => exact List.Forall₂.nil
      | cons e l ih =>
        obtain ⟨chain, hchain, htail⟩ := hl e List.mem_cons_self
        refine List.Forall₂.cons ((hstep e none).mpr ⟨chain, hchain, if_neg ?_⟩)
          (ih fun e' he' => hl e' (List.mem_cons_of_mem _ he'))
        rw [List.any_eq_true]
        rintro ⟨a, ha, heq⟩
        exact htail a ha (by simpa using heq)
    refine ⟨_, Except.mapM_eq_ok.mpr (hforall _ fun e he => ?_), ?_⟩
    · obtain ⟨hin, hcond⟩ := List.mem_filter.mp he
      obtain ⟨hpath, hname, hagent, hactive⟩ := (hcandidate e).mp hcond
      exact h e hin hpath hname hagent hactive
    · have hnone : ∀ l : List (Path × MigrationManifest δ),
          (l.map fun _ => (none : Option Path)).reduceOption = [] := by
        intro l
        induction l with
        | nil => rfl
        | cons e l ih => rw [List.map_cons, List.reduceOption_cons_of_none, ih]
      rw [hnone]
      rfl

theorem selectedChain_eq_ok {request : UnlinkRequest} {chain : Chain δ} :
    selectedChain w request = .ok chain ↔ ∃ path m rest, chain = (path, m) :: rest ∧
      resolveManifest w request = .ok path ∧
      activeManifestSuccessor w path request.agent = .ok none ∧
      manifestChain w request.agent path = .ok chain ∧ m.unlinked = false := by
  have hhead : ∀ path, manifestChain w request.agent path = .ok chain →
      ∃ m rest, chain = (path, m) :: rest := by
    intro path h
    have hfirst := (mem_of_manifestChainFrom h).1
    cases chain with
    | nil => cases hfirst
    | cons e rest =>
      obtain ⟨path', m⟩ := e
      cases hfirst
      exact ⟨m, rest, rfl⟩
  rw [selectedChain, bind_eq_ok]
  constructor
  · rintro ⟨path, hpath, h⟩
    obtain ⟨successor, hsuccessor, h⟩ := bind_eq_ok.mp h
    cases successor with
    | some successor => cases h
    | none =>
      obtain ⟨chain', hchain, h⟩ := bind_eq_ok.mp h
      obtain ⟨_, hactive, h⟩ := bind_eq_ok.mp h
      cases h
      obtain ⟨m, rest, rfl⟩ := hhead path hchain
      exact ⟨path, m, rest, rfl, hpath, hsuccessor, hchain,
        by simpa using rejectIf_eq_ok.mp hactive⟩
  · rintro ⟨path, m, rest, rfl, hpath, hsuccessor, hchain, hactive⟩
    refine ⟨path, hpath, bind_eq_ok.mpr ⟨none, hsuccessor, ?_⟩⟩
    refine bind_eq_ok.mpr ⟨_, hchain, bind_eq_ok.mpr ⟨⟨⟩, ?_, rfl⟩⟩
    exact rejectIf_eq_ok.mpr (by simpa using hactive)

theorem resolveManifest_marked (h : u.manifests = markedManifests marks w) {request : UnlinkRequest}
    (hpath : resolveManifest w request = .ok path) (hactive : (marks path).2 = false) :
    resolveManifest u request = .ok path := by
  have hisSome : ∀ p, (u.manifests.get p).isSome = (w.manifests.get p).isSome := by
    intro p
    rw [h, get_markedManifests, Option.isSome_map]
  obtain ⟨agent, backupId⟩ := request
  cases backupId with
  | some id =>
    rw [resolveManifest] at hpath ⊢
    simpa only [hisSome] using hpath
  | none =>
    rw [resolveManifest, latestActiveManifest] at hpath ⊢
    -- The manifests after the selected one were not active before either.
    cases hfind : w.manifests.entries.reverse.find? fun e =>
        isManifestOf agent e.1 && !e.2.unlinked with
    | none =>
      rw [hfind] at hpath
      cases hpath
    | some e =>
      rw [hfind] at hpath
      have hpath' : e.1 = path := by simpa using hpath
      obtain ⟨hsel, later, earlier, hsplit, hlater⟩ := List.find?_eq_some_iff_append.mp hfind
      have hfind' : u.manifests.entries.reverse.find? (fun e =>
          isManifestOf agent e.1 && !e.2.unlinked) = some (markEntry marks e) := by
        refine List.find?_eq_some_iff_append.mpr
          ⟨?_, later.map (markEntry marks), earlier.map (markEntry marks), ?_, ?_⟩
        · simpa [markEntry, marked, hpath', hactive] using hsel
        · rw [h, entries_markedManifests, ← List.map_reverse, hsplit, List.map_append,
            List.map_cons]
        · intro e' he'
          obtain ⟨e₀, he₀, rfl⟩ := List.mem_map.mp he'
          have hnot := hlater e₀ he₀
          revert hnot
          cases hname : isManifestOf agent e₀.1 <;> cases hu : e₀.2.unlinked <;>
            simp [markEntry, marked, hname, hu]
      rw [hfind', Option.map_some]
      exact congrArg Except.ok hpath'

/-- While the newest manifest is active, the same chain is selected. -/
theorem selectedChain_marked (h : u.manifests = markedManifests marks w) {request : UnlinkRequest}
    {chain : Chain δ} (hchain : selectedChain w request = .ok chain)
    (hactive : ∀ e, chain.head? = some e → (marks e.1).2 = false) :
    selectedChain u request = .ok (chain.map (markEntry marks)) := by
  obtain ⟨path, m, rest, rfl, hpath, hsuccessor, hread, hm⟩ := selectedChain_eq_ok.mp hchain
  have hmark : (marks path).2 = false := hactive (path, m) rfl
  refine selectedChain_eq_ok.mpr ⟨path, marked (marks path).1 (marks path).2 m, _, rfl,
    resolveManifest_marked h hpath hmark, ?_, manifestChain_marked h hread, ?_⟩
  · refine activeManifestSuccessor_eq_none.mpr fun e he hne hname hagent hunlinked => ?_
    rw [h, entries_markedManifests] at he
    obtain ⟨e₀, he₀, rfl⟩ := List.mem_map.mp he
    have hunlinked₀ : e₀.2.unlinked = false := by
      revert hunlinked
      cases hu : e₀.2.unlinked <;> simp [markEntry, marked, hu]
    obtain ⟨chain, hchain', htail⟩ :=
      activeManifestSuccessor_eq_none.mp hsuccessor e₀ he₀ hne hname hagent hunlinked₀
    refine ⟨_, manifestChain_marked h hchain', fun a ha => ?_⟩
    rw [← List.map_tail] at ha
    obtain ⟨a₀, ha₀, rfl⟩ := List.mem_map.mp ha
    exact htail a₀ ha₀
  · simp [marked, hm, hmark]

/-! ## The files a second time -/

/-- The restore of the record changes the file, or leaves nothing of what was there. -/
def Effective (file : FileBackup) : Prop :=
  file.createdByMigration = true ∨ file.backup.isSome = true

theorem rollback_of_not_effective {backups : BackupPath → Option ByteArray} {file : FileBackup}
    (h : ¬ Effective file) : rollback backups c file = c := by
  obtain ⟨hcreated, hbackup⟩ := not_or.mp h
  have hnone : file.backup = none := by simpa using hbackup
  rw [rollback, if_neg hcreated, hnone]

theorem rollback_of_effective {backups : BackupPath → Option ByteArray} {c' : SimulatedFiles}
    {file : FileBackup} (h : Effective file) :
    rollback backups c file file.original = rollback backups c' file file.original := by
  rw [rollback, rollback]
  by_cases hcreated : file.createdByMigration = true
  · simp [hcreated]
  · obtain ⟨b, hb⟩ := Option.isSome_iff_exists.mp (h.resolve_left hcreated)
    simp [hcreated, hb]

theorem rollbackAll_cons (backups : BackupPath → Option ByteArray) (file : FileBackup)
    (files : List FileBackup) (c : SimulatedFiles) :
    rollbackAll backups (file :: files) c = rollbackAll backups files (rollback backups c file) :=
  rfl

/-- A file that is restored does not depend on what it was before. -/
theorem rollbackAll_congr {backups : BackupPath → Option ByteArray} {c' : SimulatedFiles}
    {p : ManagedPath} (h : c p = c' p ∨ ∃ file ∈ files, file.original = p ∧ Effective file) :
    rollbackAll backups files c p = rollbackAll backups files c' p := by
  induction files generalizing c c' with
  | nil =>
    rcases h with h | ⟨file, hfile, -⟩
    · exact h
    · cases hfile
  | cons file files ih =>
    rw [rollbackAll_cons, rollbackAll_cons]
    by_cases hhere : file.original = p ∧ Effective file
    · obtain ⟨rfl, heffective⟩ := hhere
      exact ih (Or.inl (rollback_of_effective heffective))
    · have hstep : ∀ d, rollback backups d file p = d p := by
        intro d
        by_cases hp : p = file.original
        · rw [rollback_of_not_effective fun heffective => hhere ⟨hp.symm, heffective⟩]
        · exact rollback_of_ne hp
      refine ih ?_
      rw [hstep, hstep]
      refine h.imp_right ?_
      rintro ⟨file', hfile', hrest⟩
      rcases List.mem_cons.mp hfile' with rfl | hfile'
      · exact absurd hrest hhere
      · exact ⟨file', hfile', hrest⟩

theorem rollbackAll_of_not_effective {backups : BackupPath → Option ByteArray} {p : ManagedPath}
    (h : ∀ file ∈ files, file.original = p → ¬ Effective file) :
    rollbackAll backups files c p = c p := by
  induction files generalizing c with
  | nil => rfl
  | cons file files ih =>
    rw [rollbackAll_cons, ih fun file' hfile' => h file' (List.mem_cons_of_mem _ hfile')]
    by_cases hp : p = file.original
    · rw [rollback_of_not_effective (h file List.mem_cons_self hp.symm)]
    · exact rollback_of_ne hp

/-- Restoring all files undoes that some of them were restored before. -/
theorem rollbackAll_absorb {backups : BackupPath → Option ByteArray} {before : List FileBackup}
    (h : ∀ file ∈ before, file ∈ files) :
    rollbackAll backups files (rollbackAll backups before c) = rollbackAll backups files c := by
  funext p
  refine rollbackAll_congr ?_
  by_cases heffective : ∃ file ∈ before, file.original = p ∧ Effective file
  · obtain ⟨file, hfile, hrest⟩ := heffective
    exact Or.inr ⟨file, h file hfile, hrest⟩
  · refine Or.inl (rollbackAll_of_not_effective fun file hfile hp heff => ?_)
    exact heffective ⟨file, hfile, hp, heff⟩

/-- The files that are compared with the disk, and not with a simulated restore, pass. -/
def FilesPass (env : Env) (w : World δ) (chain : Chain δ) : Prop :=
  ∀ newer e older, chain = newer ++ e :: older → ∀ file ∈ e.2.files, e.2.exempts file = false →
    (∀ file' ∈ rollbackOrder newer, file'.original = file.original → ¬ Effective file') →
    fileMatches env w e.2 file (w.contents file.original) = .ok true

theorem fileMatches_congr (h : u.backups = w.backups) (m : MigrationManifest δ)
    (file : FileBackup) (state : Option ByteArray) :
    fileMatches env u m file state = fileMatches env w m file state := by
  have hread : ∀ b, u.readBackup b = w.readBackup b := by
    intro b
    rw [World.readBackup, World.readBackup, h]
  rw [fileMatches, fileMatches]
  cases state with
  | none => rfl
  | some bytes =>
    rw [uncheckpointedFileStillMatchesPreimage, uncheckpointedFileStillMatchesPreimage]
    simp only [hread]

/-- Where the checks have passed once, only what is compared with the disk can fail. -/
theorem passes_iff_filesPass (hbackups : u.backups = w.backups) {chain : Chain δ}
    (h : Passes env w w.contents chain) :
    Passes env u u.contents chain ↔ FilesPass env u chain := by
  constructor
  · intro hpasses newer e older hsplit file hfile hexempt hnewer
    have hcheck := hpasses newer e older hsplit file hfile
    rw [rollbackAll_of_not_effective hnewer] at hcheck
    exact hcheck.resolve_left (by rw [hexempt]; exact Bool.false_ne_true)
  · intro hpass newer e older hsplit file hfile
    by_cases hexempt : e.2.exempts file = true
    · exact Or.inl hexempt
    · refine Or.inr ?_
      by_cases hnewer : ∃ file' ∈ rollbackOrder newer,
          file'.original = file.original ∧ Effective file'
      · have hsame : rollbackAll w.backups (rollbackOrder newer) u.contents file.original =
            rollbackAll w.backups (rollbackOrder newer) w.contents file.original :=
          rollbackAll_congr (Or.inr hnewer)
        rw [fileMatches_congr hbackups, hbackups, hsame]
        exact (h newer e older hsplit file hfile).resolve_left hexempt
      · have hunrestored : ∀ file' ∈ rollbackOrder newer, file'.original = file.original →
            ¬ Effective file' :=
          fun file' hfile' hp heff => hnewer ⟨file', hfile', hp, heff⟩
        rw [rollbackAll_of_not_effective hunrestored]
        exact hpass newer e older hsplit file hfile (by simpa using hexempt) hunrestored

theorem rollbackOrder_marked (chain : Chain δ) :
    rollbackOrder (chain.map (markEntry marks)) = rollbackOrder chain := by
  simp [rollbackOrder, List.flatMap_map, markEntry, marked]

theorem passes_marked (c : SimulatedFiles) (chain : Chain δ) :
    Passes env u c (chain.map (markEntry marks)) ↔ Passes env u c chain := by
  induction chain generalizing c with
  | nil => exact Iff.rfl
  | cons e chain ih =>
    rw [List.map_cons, passes_cons, passes_cons, ih]
    exact Iff.rfl

/-! ## The credentials a second time -/

theorem mem_pending_marked {chain : Chain δ} {e : Path × MigrationManifest δ}
    (h : e ∈ pending (chain.map (markEntry marks))) :
    ∃ e₀ ∈ pending chain, e = markEntry marks e₀ := by
  obtain ⟨hmem, hopen⟩ := List.mem_filter.mp h
  obtain ⟨e₀, he₀, rfl⟩ := List.mem_map.mp hmem
  refine ⟨e₀, List.mem_filter.mpr ⟨he₀, ?_⟩, rfl⟩
  revert hopen
  cases hu : e₀.2.credentialsHandoffComplete <;> simp [markEntry, marked, hu]

theorem targeted_marked {accountsById : BTreeMap String Account} {chain : Chain δ} {p : Path}
    {s : String} (h : Targeted accountsById (pending (chain.map (markEntry marks))) p s) :
    Targeted accountsById (pending chain) p s := by
  obtain ⟨e, he, hrest⟩ := h
  obtain ⟨e₀, he₀, rfl⟩ := mem_pending_marked he
  exact ⟨e₀, he₀, hrest⟩

theorem loadTransferred_congr (hgateway : u.gateway = w.gateway) (m : MigrationManifest δ) :
    loadTransferredCredentials env u m = loadTransferredCredentials env w m := by
  have hload : ∀ root, loadStore env u root = loadStore env w root := by
    intro root
    rw [loadStore, loadStore, World.disk_congr u hgateway]
  rw [loadTransferredCredentials, loadTransferredCredentials]
  simp only [hload]

theorem loadTransferred_marked (hgateway : u.gateway = w.gateway) (a b : Bool)
    (m : MigrationManifest δ) :
    loadTransferredCredentials env u (marked a b m) = loadTransferredCredentials env w m :=
  Eq.trans rfl (loadTransferred_congr hgateway m)

theorem ExportTargets.congr {chain : Chain δ}
    {exports : List (Path × Except MigrationError (List Account))}
    (h : ExportTargets env w chain exports) (hgateway : u.gateway = w.gateway) :
    ExportTargets env u chain exports := by
  refine h.imp_right fun ⟨hne, accounts, targets, haccounts, hrest⟩ =>
    ⟨hne, accounts, targets, ?_, hrest⟩
  cases chain with
  | nil => exact haccounts
  | cons latest rest =>
    rw [pendingAccounts] at haccounts ⊢
    rw [loadTransferred_congr hgateway]
    exact haccounts

/-- **The exports a second time** are some of those that have been done. -/
theorem exportTargets_again {chain : Chain δ}
    {exports : List (Path × Except MigrationError (List Account))}
    (h : ExportTargets env w chain exports) (hgateway : u.gateway = w.gateway)
    (hrestored : ∀ t ∈ exports, ∃ found, t.2 = .ok found ∧
      Restored agent (u.agentAuth t.1) found) :
    ∃ exports', ExportTargets env u (chain.map (markEntry marks)) exports' ∧
      ∀ t ∈ exports', ∃ found accounts, t.2 = .ok found ∧
        Restored agent (u.agentAuth t.1) accounts ∧ ∀ account ∈ found, account ∈ accounts := by
  by_cases hnil : pending (chain.map (markEntry marks)) = []
  · exact ⟨[], Or.inl ⟨hnil, rfl⟩, fun t ht => (by cases ht)⟩
  · obtain ⟨e, he⟩ := List.exists_mem_of_ne_nil _ hnil
    obtain ⟨e₀, he₀, -⟩ := mem_pending_marked he
    obtain ⟨hempty, -⟩ | ⟨-, accounts, targets, haccounts, htargets, rfl⟩ := h
    · rw [hempty] at he₀
      cases he₀
    have hrequired : latestRequiresTransferredCredentials (chain.map (markEntry marks)) =
        latestRequiresTransferredCredentials chain := by
      cases chain with
      | nil => rfl
      | cons latest rest => rfl
    -- The accounts are loaded again if some auth file still waits for them.
    have haccounts' : pendingAccounts env u (chain.map (markEntry marks)) = .ok accounts ∨
        pendingAccounts env u (chain.map (markEntry marks)) = .ok [] ∧
          ∀ e ∈ pending (chain.map (markEntry marks)), e.2.agentAuthPath = none := by
      cases chain with
      | nil => cases he₀
      | cons latest rest =>
        rw [List.map_cons, pendingAccounts, ← List.map_cons]
        by_cases hany : ((pending ((latest :: rest).map (markEntry marks))).any
            fun e => e.2.agentAuthPath.isSome) = true
        · have hany₀ : ((pending (latest :: rest)).any fun e => e.2.agentAuthPath.isSome) =
              true := by
            obtain ⟨e', he', hsome⟩ := List.any_eq_true.mp hany
            obtain ⟨e₁, he₁, rfl⟩ := mem_pending_marked he'
            exact List.any_eq_true.mpr ⟨e₁, he₁, hsome⟩
          rw [pendingAccounts, if_pos hany₀] at haccounts
          rw [if_pos hany]
          exact Or.inl ((loadTransferred_marked hgateway _ _ _).trans haccounts)
        · rw [if_neg hany]
          refine Or.inr ⟨rfl, fun e' he' => ?_⟩
          by_contra hsome
          exact hany (List.any_eq_true.mpr ⟨e', he', Option.isSome_iff_ne_none.mpr hsome⟩)
    obtain ⟨htargetable, -, hhas⟩ := targets_spec htargets
    obtain ⟨found, hfound, hcase⟩ : ∃ found,
        pendingAccounts env u (chain.map (markEntry marks)) = .ok found ∧
        (found = accounts ∨
          ∀ e ∈ pending (chain.map (markEntry marks)), e.2.agentAuthPath = none) := by
      rcases haccounts' with hsame | ⟨hnone, hpaths⟩
      · exact ⟨accounts, hsame, Or.inl rfl⟩
      · exact ⟨[], hnone, Or.inr hpaths⟩
    have htargetable' : ∀ e ∈ pending (chain.map (markEntry marks)),
        Targetable (accountsById found) e.2 := by
      intro e' he'
      rcases hcase with rfl | hpaths
      · obtain ⟨e₁, he₁, rfl⟩ := mem_pending_marked he'
        exact htargetable e₁ he₁
      · intro hsome
        rw [hpaths e' he'] at hsome
        cases hsome
    obtain ⟨targets', htargets'⟩ := exists_targets htargetable' []
    obtain ⟨-, hin', -⟩ := targets_spec htargets'
    refine ⟨_, Or.inr ⟨hnil, found, targets', hfound, htargets', rfl⟩, fun t ht => ?_⟩
    obtain ⟨⟨p, sources⟩, hmem, rfl⟩ := List.mem_map.mp ht
    by_cases hsources : ∃ s, (s, ()) ∈ sources
    · -- All sources for this file are sources of one earlier export.
      have htargeted : ∀ s, (s, ()) ∈ sources →
          found = accounts ∧ HasTarget targets p s := by
        intro s hs
        rcases hin' p s ⟨sources, hmem, hs⟩ with hin | hin
        · obtain ⟨_, hin, -⟩ := hin
          cases hin
        · rcases hcase with rfl | hpaths
          · exact ⟨rfl, hhas p s (Or.inr (targeted_marked hin))⟩
          · obtain ⟨e', he', hpath, -⟩ := hin
            rw [hpaths e' he'] at hpath
            cases hpath
      obtain ⟨s₀, hs₀⟩ := hsources
      obtain ⟨rfl, sources₀, hget₀, -⟩ := htargeted s₀ hs₀
      have hsub : ∀ s, (s, ()) ∈ sources → (s, ()) ∈ sources₀ := by
        intro s hs
        obtain ⟨-, sources₁, hget₁, hs₁⟩ := htargeted s hs
        rw [hget₀] at hget₁
        cases hget₁
        exact BTreeMap.mem_of_get hs₁
      obtain ⟨found₀, hfound₀, hrestored₀⟩ := hrestored _
        (List.mem_map.mpr ⟨(p, sources₀), BTreeMap.mem_of_get hget₀, rfl⟩)
      obtain ⟨hpresent₀, hmem₀⟩ := targetAccounts_eq_ok hfound₀
      rw [hrequired]
      obtain ⟨found', hfound'⟩ := exists_targetAccounts fun s hs => hpresent₀ s (hsub s hs)
      refine ⟨found', found₀, hfound', hrestored₀, fun account haccount => ?_⟩
      obtain ⟨s, hs, hget⟩ := ((targetAccounts_eq_ok hfound').2 account).mp haccount
      exact (hmem₀ account).mpr ⟨s, hsub s hs, hget⟩
    · have hnone : ∀ s, (s, ()) ∉ sources := fun s hs => hsources ⟨s, hs⟩
      obtain ⟨found', hfound'⟩ : ∃ found', targetAccounts (accountsBySource found)
          (latestRequiresTransferredCredentials (chain.map (markEntry marks))) sources =
          .ok found' := exists_targetAccounts fun s hs => absurd hs (hnone s)
      refine ⟨found', [], hfound', fun _ hne => absurd rfl hne, fun account haccount => ?_⟩
      obtain ⟨s, hs, -⟩ := ((targetAccounts_eq_ok hfound').2 account).mp haccount
      exact absurd hs (hnone s)

/-! ## The parts of an unlink, run from any state -/

/-- The records of a chain in the order of their restores, with their manifests. -/
def chainRecords (chain : Chain δ) : List (Path × MigrationManifest δ × FileBackup) :=
  chain.flatMap fun e => e.2.files.reverse.map fun file => (e.1, e.2, file)

def fileOps (recs : List (Path × MigrationManifest δ × FileBackup)) : List (UnlinkOp δ) :=
  recs.map fun r => UnlinkOp.restoreFile r.1 r.2.1 r.2.2

def manifestOps (entries : Chain δ) (marks : Marks) : List (UnlinkOp δ) :=
  entries.map fun e => UnlinkOp.writeManifest e.1 (marked (marks e.1).1 (marks e.1).2 e.2)

theorem flatMap_restoreManifestFiles (chain : Chain δ) :
    chain.flatMap restoreManifestFiles = fileOps (chainRecords chain) := by
  simp only [fileOps, chainRecords, List.map_flatMap, List.map_map]
  rfl

theorem map_chainRecords (chain : Chain δ) :
    (chainRecords chain).map (fun r => r.2.2) = rollbackOrder chain := by
  simp [chainRecords, rollbackOrder, List.map_flatMap, Function.comp_def]

theorem restoreAgentConfigChanges_eq {chain : Chain δ} (hagent : ∀ e ∈ chain, e.2.agent = agent) :
    restoreAgentConfigChanges chain =
      (bindingChanges chain).map (UnlinkOp.restoreBinding agent) := by
  rw [restoreAgentConfigChanges, bindingChanges, List.map_filterMap]
  refine List.filterMap_congr fun e he => ?_
  rw [hagent e he]

theorem handoffOps_eq (chain : Chain δ) :
    handoffOps chain = manifestOps (pending chain) fun _ => (true, false) := by
  simp [handoffOps, manifestOps, handedOff, marked]

theorem markUnlinked_eq (chain : Chain δ) :
    markUnlinked chain = manifestOps chain.reverse fun _ => (true, true) := by
  simp [markUnlinked, manifestOps, handedOff, marked]

variable [DecidableEq δ]

theorem run_fileOps {recs : List (Path × MigrationManifest δ × FileBackup)} {v' : World δ}
    (h : run UnlinkOp.act (fileOps recs) v = .ok v') :
    v'.contents = rollbackAll v.backups (recs.map fun r => r.2.2) v.contents ∧
      v'.agentAuth = v.agentAuth ∧ v'.agentConfig = v.agentConfig ∧ v'.backups = v.backups ∧
      v'.manifests = v.manifests := by
  induction recs generalizing v with
  | nil =>
    cases h
    exact ⟨rfl, rfl, rfl, rfl, rfl⟩
  | cons r recs ih =>
    obtain ⟨t, hfirst, hrest⟩ := run_cons_eq_ok.mp h
    obtain ⟨-, hcontents, hauth, hconfig, hbackups, hmanifests⟩ := restoreFile_eq_ok.mp hfirst
    obtain ⟨hcontents', hauth', hconfig', hbackups', hmanifests'⟩ := ih hrest
    refine ⟨?_, hauth'.trans hauth, hconfig'.trans hconfig, hbackups'.trans hbackups,
      hmanifests'.trans hmanifests⟩
    rw [hcontents', hbackups, hcontents]
    rfl

theorem exists_run_fileOps {recs : List (Path × MigrationManifest δ × FileBackup)}
    (h : ∀ r ∈ recs, Readable v.backups r.2.2) :
    ∃ v', run UnlinkOp.act (fileOps recs) v = .ok v' := by
  induction recs generalizing v with
  | nil => exact ⟨v, rfl⟩
  | cons r recs ih =>
    obtain ⟨hfirst, hrest⟩ := List.forall_mem_cons.mp h
    obtain ⟨c, hc⟩ : ∃ t, restoreFile v r.2.2 = .ok t := by
      rw [restoreFile]
      by_cases hcreated : r.2.2.createdByMigration = true
      · exact ⟨_, if_pos hcreated⟩
      · rw [if_neg hcreated]
        cases hb : r.2.2.backup with
        | none => exact ⟨v, rfl⟩
        | some b =>
          obtain ⟨bytes, hbytes⟩ := hfirst (by simpa using hcreated) b hb
          exact ⟨_, bind_eq_ok.mpr ⟨bytes, readBackup_eq_ok.mpr hbytes, rfl⟩⟩
    obtain ⟨-, -, -, -, hbackups, -⟩ := restoreFile_eq_ok.mp hc
    obtain ⟨v', hv'⟩ := ih (v := c) (by rw [hbackups]; exact hrest)
    exact ⟨v', run_cons_eq_ok.mpr ⟨c, hc, hv'⟩⟩

/-- Writing manifests of the chain marks them. -/
theorem run_manifestOps {entries : Chain δ} {f : Marks}
    (hget : ∀ e ∈ entries, w.manifests.get e.1 = some e.2)
    (hv : v.manifests = markedManifests marks w) :
    run UnlinkOp.act (manifestOps entries f) v =
      .ok (v.withManifests (markedManifests
        (fun p => if p ∈ entries.map Prod.fst then f p else marks p) w)) := by
  induction entries generalizing v marks with
  | nil => simp [manifestOps, ← hv]
  | cons e entries ih =>
    obtain ⟨he, hrest⟩ := List.forall_mem_cons.mp hget
    have hfirst : (v.writeManifest e.1 (marked (f e.1).1 (f e.1).2 e.2)).manifests =
        markedManifests (Function.update marks e.1 (f e.1)) w := by
      ext p : 1
      rw [World.writeManifest, World.manifests_withManifests, OrderedMap.get_insert, hv,
        get_markedManifests, get_markedManifests, Function.update_apply]
      by_cases hp : p = e.1
      · rw [if_pos hp, if_pos hp, hp, he, Option.map_some]
      · rw [if_neg hp, if_neg hp]
    refine run_cons_eq_ok.mpr ⟨_, rfl, (ih hrest hfirst).trans ?_⟩
    have hmarks : (fun p => if p ∈ entries.map Prod.fst then f p
        else Function.update marks e.1 (f e.1) p) =
        fun p => if p ∈ (e :: entries).map Prod.fst then f p else marks p := by
      funext p
      rw [Function.update_apply, List.map_cons]
      by_cases hmem : p ∈ entries.map Prod.fst
      · rw [if_pos hmem, if_pos (List.mem_cons_of_mem _ hmem)]
      · by_cases hp : p = e.1
        · rw [if_neg hmem, if_pos hp, hp, if_pos List.mem_cons_self]
        · rw [if_neg hmem, if_neg hp,
            if_neg (by simp only [List.mem_cons, hp, hmem, or_self, not_false_eq_true])]
    rw [hmarks]
    rfl

/-! ## Running it again -/

/-- An unlink of the chain that has been interrupted: some manifests are marked, some files and
entries restored, and its credentials lead to the same auth files. -/
structure Progressed (env : Env) (request : UnlinkRequest) (w u : World δ) (chain : Chain δ)
    (auths : Path → AgentAuthFile) (marks : Marks) : Prop where
  manifests : u.manifests = markedManifests marks w
  outside : ∀ p, p ∉ chain.map Prod.fst → marks p = (false, false)
  active : ∀ e, chain.head? = some e → (marks e.1).2 = false
  backups : u.backups = w.backups
  contents : ∃ before, (∀ file ∈ before, file ∈ rollbackOrder chain) ∧
    u.contents = rollbackAll w.backups before w.contents
  configs : ∃ before, (∀ change ∈ before, change ∈ bindingChanges chain) ∧
    u.agentConfig = rebindAll request.agent before w.agentConfig
  credentials : ∃ ops marks', restorePendingCredentials env u request.agent
      (chain.map (markEntry marks)) = .ok ops ∧
    (∀ p, p ∉ chain.map Prod.fst → marks' p = (false, false)) ∧
    run UnlinkOp.act ops u = .ok ((u.withAgentAuth auths).withManifests (markedManifests marks' w))

/-- What an unlink that is not interrupted leaves. -/
structure Undone (agent : AgentId) (w t : World δ) (chain : Chain δ)
    (auths : Path → AgentAuthFile) : Prop where
  contents : t.contents = rollbackAll w.backups (rollbackOrder chain) w.contents
  agentAuth : t.agentAuth = auths
  agentConfig : t.agentConfig = rebindAll agent (bindingChanges chain) w.agentConfig
  backups : t.backups = w.backups
  manifests : t.manifests = markedManifests
    (fun p => if p ∈ chain.map Prod.fst then (true, true) else (false, false)) w

omit [DecidableEq δ] in
theorem Undone.unique {t t' : World δ} {chain : Chain δ} {auths : Path → AgentAuthFile}
    (h : Undone agent w t chain auths) (h' : Undone agent w t' chain auths) : t = t' :=
  World.ext_contents _ (h.contents.trans h'.contents.symm) (h.agentAuth.trans h'.agentAuth.symm)
    (h.agentConfig.trans h'.agentConfig.symm) (h.backups.trans h'.backups.symm)
    (h.manifests.trans h'.manifests.symm)

/-- What the selection and the checks of a complete unlink have established. -/
structure Unlinkable (env : Env) (request : UnlinkRequest) (w : World δ) (chain : Chain δ) :
    Prop where
  selected : selectedChain w request = .ok chain
  passes : Passes env w w.contents chain
  readable : ∀ file ∈ rollbackOrder chain, Readable w.backups file
  bindable : Bindable request.agent w.agentConfig (bindingChanges chain)
  nodup : (chain.map Prod.fst).Nodup
  stored : ∀ e ∈ chain, w.manifests.get e.1 = some e.2
  agents : ∀ e ∈ chain, e.2.agent = request.agent

theorem unlinkable_of_ops {request : UnlinkRequest} {ops : List (UnlinkOp δ)}
    (h : unlinkOps env w request = .ok ops) : ∃ chain, Unlinkable env request w chain ∧
      ∃ exports, ExportTargets env w chain exports ∧
        ops = exportOps request.agent exports ++ handoffOps chain ++ fileOps (chainRecords chain) ++
          (bindingChanges chain).map (UnlinkOp.restoreBinding request.agent) ++
          manifestOps chain.reverse fun _ => (true, true) := by
  obtain ⟨chain, credentials, hchain, hfiles, hconfig, hcredentials, rfl⟩ := unlinkOps_eq_ok.mp h
  obtain ⟨path, m, rest, -, -, -, hread, -⟩ := selectedChain_eq_ok.mp hchain
  obtain ⟨-, hnodup, hmem⟩ := mem_of_manifestChainFrom hread
  have hagents : ∀ e ∈ chain, e.2.agent = request.agent := fun e he => (hmem e he).2.2
  obtain ⟨hpasses, hreadable⟩ := preflightFiles_eq_ok.mp hfiles
  obtain ⟨exports, hexports, rfl⟩ := restorePendingCredentials_eq_ok.mp hcredentials
  refine ⟨chain, ⟨hchain, hpasses, hreadable, (preflightConfig_eq_ok hagents).mp hconfig, hnodup,
    fun e he => (hmem e he).2.1, hagents⟩, exports, hexports, ?_⟩
  rw [flatMap_restoreManifestFiles, restoreAgentConfigChanges_eq hagents, markUnlinked_eq]

theorem unlink_eq_ok {request : UnlinkRequest} {t : World δ} :
    (unlink env request).outcome u = (.ok (), t) ↔
      ∃ ops, unlinkOps env u request = .ok ops ∧ run UnlinkOp.act ops u = .ok t := by
  rw [unlink, Stateful.bind_eq_ok]
  simp only [Stateful.reading_eq_ok, perform_eq_ok]
  constructor
  · rintro ⟨ops, _, ⟨hops, rfl⟩, hrun⟩
    exact ⟨ops, hops, hrun⟩
  · rintro ⟨ops, hops, hrun⟩
    exact ⟨ops, u, ⟨hops, rfl⟩, hrun⟩

omit [DecidableEq δ] in
theorem bindingChanges_marked (chain : Chain δ) :
    bindingChanges (chain.map (markEntry marks)) = bindingChanges chain := by
  rw [bindingChanges, List.filterMap_map, bindingChanges]
  rfl

omit [DecidableEq δ] in
theorem manifestOps_marked (chain : Chain δ) :
    manifestOps (chain.map (markEntry marks)) (fun _ => (true, true)) =
      manifestOps chain fun _ => (true, true) := by
  simp [manifestOps, markEntry, marked_marked]

/-- **The second run.** An interrupted unlink can be completed exactly if the files and entries
that are compared with the disk are what the chain left or what they were before. -/
theorem unlink_progressed {request : UnlinkRequest} {chain : Chain δ}
    {auths : Path → AgentAuthFile} (hw : Unlinkable env request w chain)
    (hu : Progressed env request w u chain auths marks) :
    (∃ t, (unlink env request).outcome u = (.ok (), t) ∧ Undone request.agent w t chain auths) ↔
      FilesPass env u chain ∧ BindingsPass request.agent u (bindingChanges chain) := by
  have hselected := selectedChain_marked hu.manifests hw.selected hu.active
  obtain ⟨files, hfiles, hcontents⟩ := hu.contents
  obtain ⟨changes, hchanges, hconfigs⟩ := hu.configs
  rw [← passes_iff_filesPass hu.backups hw.passes,
    ← bindable_iff_bindingsPass hw.bindable hconfigs]
  have hagents : ∀ e ∈ chain.map (markEntry marks), e.2.agent = request.agent := by
    intro e he
    obtain ⟨e₀, he₀, rfl⟩ := List.mem_map.mp he
    exact hw.agents e₀ he₀
  constructor
  · rintro ⟨t, hrun, -⟩
    obtain ⟨ops, hops, -⟩ := unlink_eq_ok.mp hrun
    obtain ⟨chain', ⟨hselected', hpasses, -, hbindable, -, -, -⟩, -⟩ := unlinkable_of_ops hops
    cases hselected.symm.trans hselected'
    rw [bindingChanges_marked] at hbindable
    exact ⟨(passes_marked _ _).mp hpasses, hbindable⟩
  · rintro ⟨hpasses, hbindable⟩
    obtain ⟨credentials, marks', hcredentials, houtside, hrun₁⟩ := hu.credentials
    have hreadable : ∀ file ∈ rollbackOrder (chain.map (markEntry marks)),
        Readable u.backups file := by
      rw [rollbackOrder_marked, hu.backups]
      exact hw.readable
    have hops := unlinkOps_eq_ok.mpr ⟨_, credentials, hselected,
      preflightFiles_eq_ok.mpr ⟨(passes_marked _ _).mpr hpasses, hreadable⟩,
      (preflightConfig_eq_ok hagents).mpr (by rw [bindingChanges_marked]; exact hbindable),
      hcredentials, rfl⟩
    -- The operations one part after the other.
    have hrecs : (chainRecords (chain.map (markEntry marks))).map (fun r => r.2.2) =
        rollbackOrder chain := by rw [map_chainRecords, rollbackOrder_marked]
    obtain ⟨v₂, hrun₂⟩ : ∃ v₂, run UnlinkOp.act
        (fileOps (chainRecords (chain.map (markEntry marks))))
        ((u.withAgentAuth auths).withManifests (markedManifests marks' w)) = .ok v₂ := by
      refine exists_run_fileOps fun r hr => ?_
      show Readable u.backups r.2.2
      rw [hu.backups]
      exact hw.readable r.2.2 (hrecs ▸ List.mem_map_of_mem hr)
    obtain ⟨hcontents₂, hauth₂, hconfig₂, hbackups₂, hmanifests₂⟩ := run_fileOps hrun₂
    have hbindable₂ : Bindable request.agent v₂.agentConfig (bindingChanges chain) := by
      rw [hconfig₂]
      exact hbindable
    have hrun₃ := run_restoreBindings.mpr ⟨hbindable₂, rfl⟩
    have hget : ∀ e ∈ chain.reverse, w.manifests.get e.1 = some e.2 :=
      fun e he => hw.stored e (List.mem_reverse.mp he)
    obtain ⟨v₃, hv₃⟩ : ∃ v₃, v₃ =
        v₂.withAgentConfig (rebindAll request.agent (bindingChanges chain) v₂.agentConfig) :=
      ⟨_, rfl⟩
    obtain ⟨final, hfinal⟩ : ∃ final : Marks, final =
        fun p => if p ∈ chain.reverse.map Prod.fst then (true, true) else marks' p := ⟨_, rfl⟩
    have hrun₄ : run UnlinkOp.act (manifestOps chain.reverse fun _ => (true, true)) v₃ =
        .ok (v₃.withManifests (markedManifests final w)) := by
      rw [hfinal]
      exact run_manifestOps hget (by rw [hv₃]; exact hmanifests₂)
    refine ⟨v₃.withManifests (markedManifests final w), unlink_eq_ok.mpr ⟨_, hops, ?_⟩, ?_⟩
    · rw [flatMap_restoreManifestFiles, restoreAgentConfigChanges_eq hagents, markUnlinked_eq,
        bindingChanges_marked, ← List.map_reverse, manifestOps_marked]
      exact run_append_eq_ok.mpr ⟨v₃, run_append_eq_ok.mpr ⟨v₂, run_append_eq_ok.mpr
        ⟨_, hrun₁, hrun₂⟩, hv₃ ▸ hrun₃⟩, hrun₄⟩
    · subst hv₃
      refine ⟨?_, hauth₂, ?_, hbackups₂.trans hu.backups, ?_⟩
      · refine Eq.trans hcontents₂ ?_
        rw [hrecs]
        show rollbackAll u.backups (rollbackOrder chain) u.contents = _
        rw [hu.backups, hcontents, rollbackAll_absorb hfiles]
      · show rebindAll request.agent (bindingChanges chain) v₂.agentConfig = _
        rw [hconfig₂]
        show rebindAll request.agent (bindingChanges chain) u.agentConfig = _
        rw [hconfigs, rebindAll_absorb hchanges]
      · rw [World.manifests_withManifests, hfinal]
        congr 1
        funext p
        have hreverse : p ∈ chain.reverse.map Prod.fst ↔ p ∈ chain.map Prod.fst := by
          rw [List.map_reverse, List.mem_reverse]
        by_cases hp : p ∈ chain.map Prod.fst
        · rw [if_pos (hreverse.mpr hp), if_pos hp]
        · rw [if_neg (mt hreverse.mp hp), if_neg hp, houtside p hp]

/-! ## Where an unlink can be interrupted -/

theorem prefix_append {α : Type} {done rest a b : List α} (h : done ++ rest = a ++ b) :
    (∃ r, a = done ++ r ∧ rest = r ++ b) ∨ ∃ d, done = a ++ d ∧ b = d ++ rest := by
  rcases List.append_eq_append_iff.mp h with ⟨r, ha, hrest⟩ | ⟨d, hdone, hb⟩
  · exact Or.inl ⟨r, ha, hrest⟩
  · exact Or.inr ⟨d, hdone, hb⟩

/-- The manifests that the handoff has marked. -/
def handoffMarks (entries : Chain δ) : Marks :=
  fun p => if p ∈ entries.map Prod.fst then (true, false) else (false, false)

omit [DecidableEq δ] in
theorem markedManifests_none (w : World δ) :
    markedManifests (fun _ => (false, false)) w = w.manifests := by
  ext p : 1
  rw [get_markedManifests]
  cases w.manifests.get p with
  | none => rfl
  | some m => rw [Option.map_some, marked_false]

omit [DecidableEq δ] in
theorem map_markEntry_none (chain : Chain δ) :
    chain.map (markEntry fun _ => (false, false)) = chain := by
  have hid : markEntry (δ := δ) (fun _ => (false, false)) = id := by
    funext e
    rw [markEntry, marked_false]
    rfl
  rw [hid, List.map_id]

omit [DecidableEq δ] in
theorem mem_of_pending {chain : Chain δ} {e : Path × MigrationManifest δ} (h : e ∈ pending chain) :
    e ∈ chain := (List.mem_filter.mp h).1

omit [DecidableEq δ] in
/-- Once every manifest that was pending is marked, no credentials are pending. -/
theorem pending_marked {chain : Chain δ}
    (h : ∀ e ∈ pending chain, (marks e.1).1 = true) : pending (chain.map (markEntry marks)) = [] := by
  by_contra hne
  obtain ⟨e, he⟩ := List.exists_mem_of_ne_nil _ hne
  obtain ⟨e₀, he₀, rfl⟩ := mem_pending_marked he
  have hopen := (List.mem_filter.mp he).2
  simp [markEntry, marked, h e₀ he₀] at hopen

omit [DecidableEq δ] in
theorem credentials_done {chain : Chain δ} (hnil : pending (chain.map (markEntry marks)) = []) :
    restorePendingCredentials env u agent (chain.map (markEntry marks)) = .ok [] :=
  restorePendingCredentials_eq_ok.mpr
    ⟨[], Or.inl ⟨hnil, rfl⟩, by rw [handoffOps, hnil]; rfl⟩

/-- The handoffs that are left after some marks, done. -/
theorem run_handoffOps_marked {chain : Chain δ} (hget : ∀ e ∈ chain, w.manifests.get e.1 = some e.2)
    (hv : v.manifests = markedManifests marks w)
    (houtside : ∀ p, p ∉ chain.map Prod.fst → marks p = (false, false)) :
    ∃ marks', (∀ p, p ∉ chain.map Prod.fst → marks' p = (false, false)) ∧
      run UnlinkOp.act (handoffOps (chain.map (markEntry marks))) v =
        .ok (v.withManifests (markedManifests marks' w)) := by
  obtain ⟨entries, hentries, hpending⟩ : ∃ entries : Chain δ, (∀ e ∈ entries, e ∈ chain) ∧
      pending (chain.map (markEntry marks)) = entries.map (markEntry marks) := by
    refine ⟨chain.filter fun e => !(markEntry marks e).2.credentialsHandoffComplete,
      fun e he => (List.mem_filter.mp he).1, ?_⟩
    rw [pending, List.filter_map]
    rfl
  have hops : handoffOps (chain.map (markEntry marks)) =
      manifestOps entries fun p => (true, (marks p).2) := by
    rw [handoffOps, hpending, manifestOps, List.map_map]
    refine List.map_congr_left fun e _ => ?_
    simp [markEntry, handedOff, marked]
  refine ⟨_, fun p hp => ?_, hops ▸ run_manifestOps (fun e he => hget e (hentries e he)) hv⟩
  rw [if_neg, houtside p hp]
  rintro hmem
  obtain ⟨e, he, rfl⟩ := List.mem_map.mp hmem
  exact hp (List.mem_map_of_mem (hentries e he))

section Phases

variable {request : UnlinkRequest} {chain : Chain δ} {auths : Path → AgentAuthFile}

/-- Interrupted while the credentials go back. -/
theorem progressed_exports (hw : Unlinkable env request w chain)
    {done rest : List (Path × Except MigrationError (List Account))}
    (hexports : ExportTargets env w chain (done ++ rest))
    (hall : run UnlinkOp.act (exportOps request.agent (done ++ rest)) w =
      .ok (w.withAgentAuth auths))
    (hdone : run UnlinkOp.act (exportOps request.agent done) w = .ok u) :
    Progressed env request w u chain auths fun _ => (false, false) := by
  obtain ⟨hu, hrestored, -⟩ := run_exportOps hdone
  have hmanifests : u.manifests = markedManifests (fun _ => (false, false)) w := by
    rw [markedManifests_none, hu]
    rfl
  have hexportOps : exportOps (δ := δ) request.agent (done ++ rest) =
      exportOps request.agent done ++ exportOps request.agent rest := List.map_append
  have hagain : run UnlinkOp.act (exportOps request.agent (done ++ rest)) u =
      .ok (u.withAgentAuth auths) := by
    rw [hexportOps] at hall ⊢
    obtain ⟨u', hdone', hrest⟩ := run_append_eq_ok.mp hall
    cases hdone.symm.trans hdone'
    refine run_append_eq_ok.mpr ⟨u, run_exportOps_noop fun t ht => ?_, hrest.trans ?_⟩
    · obtain ⟨found, hfound, hrestored⟩ := hrestored t ht
      exact ⟨found, found, hfound, hrestored, fun _ h => h⟩
    · rw [hu]
      rfl
  obtain ⟨marks', houtside, hhandoff⟩ := run_handoffOps_marked (v := u.withAgentAuth auths)
    hw.stored hmanifests fun _ _ => rfl
  refine ⟨hmanifests, fun _ _ => rfl, fun _ _ => rfl, by rw [hu]; rfl, ⟨[], by simp, ?_⟩,
    ⟨[], by simp, ?_⟩, ⟨_, marks', restorePendingCredentials_eq_ok.mpr ⟨done ++ rest, ?_, rfl⟩,
      houtside, run_append_eq_ok.mpr ⟨_, hagain, hhandoff⟩⟩⟩
  · rw [hu]
    rfl
  · rw [hu]
    rfl
  · rw [map_markEntry_none]
    exact hexports.congr (by rw [hu]; rfl)

/-- Interrupted while the handoffs are recorded. -/
theorem progressed_handoffs (hw : Unlinkable env request w chain)
    {exports : List (Path × Except MigrationError (List Account))}
    (hexports : ExportTargets env w chain exports)
    (hall : run UnlinkOp.act (exportOps request.agent exports) w = .ok (w.withAgentAuth auths))
    {entries : Chain δ} (hentries : ∀ e ∈ entries, e ∈ chain)
    (hu : u = (w.withAgentAuth auths).withManifests (markedManifests (handoffMarks entries) w)) :
    Progressed env request w u chain auths (handoffMarks entries) := by
  obtain ⟨-, hrestored, -⟩ := run_exportOps hall
  have houtside : ∀ p, p ∉ chain.map Prod.fst → handoffMarks entries p = (false, false) := by
    intro p hp
    refine if_neg fun hmem => hp ?_
    obtain ⟨e, he, rfl⟩ := List.mem_map.mp hmem
    exact List.mem_map_of_mem (hentries e he)
  have hactive : ∀ p, (handoffMarks entries p).2 = false := by
    intro p
    rw [handoffMarks]
    by_cases hp : p ∈ entries.map Prod.fst
    · rw [if_pos hp]
    · rw [if_neg hp]
  subst hu
  obtain ⟨exports', hexports', hnoop⟩ : ∃ exports', ExportTargets env
      ((w.withAgentAuth auths).withManifests (markedManifests (handoffMarks entries) w))
      (chain.map (markEntry (handoffMarks entries))) exports' ∧
      ∀ t ∈ exports', ∃ found accounts, t.2 = .ok found ∧
        Restored request.agent (auths t.1) accounts ∧ ∀ account ∈ found, account ∈ accounts :=
    exportTargets_again hexports rfl hrestored
  obtain ⟨marks', houtside', hhandoff⟩ := run_handoffOps_marked
    (v := (w.withAgentAuth auths).withManifests (markedManifests (handoffMarks entries) w))
    hw.stored rfl houtside
  exact ⟨rfl, houtside, fun e _ => hactive e.1, rfl, ⟨[], by simp, rfl⟩, ⟨[], by simp, rfl⟩,
    ⟨_, marks', restorePendingCredentials_eq_ok.mpr ⟨exports', hexports', rfl⟩, houtside',
      run_append_eq_ok.mpr ⟨_, run_exportOps_noop hnoop, hhandoff⟩⟩⟩

/-- Interrupted after the handoff. -/
theorem progressed_handedOff (hmanifests : u.manifests = markedManifests marks w)
    (houtside : ∀ p, p ∉ chain.map Prod.fst → marks p = (false, false))
    (hactive : ∀ e, chain.head? = some e → (marks e.1).2 = false)
    (hdone : ∀ e ∈ pending chain, (marks e.1).1 = true) (hauths : u.agentAuth = auths)
    (hbackups : u.backups = w.backups)
    (hcontents : ∃ before, (∀ file ∈ before, file ∈ rollbackOrder chain) ∧
      u.contents = rollbackAll w.backups before w.contents)
    (hconfigs : ∃ before, (∀ change ∈ before, change ∈ bindingChanges chain) ∧
      u.agentConfig = rebindAll request.agent before w.agentConfig) :
    Progressed env request w u chain auths marks := by
  refine ⟨hmanifests, houtside, hactive, hbackups, hcontents, hconfigs,
    ⟨[], marks, credentials_done (pending_marked hdone), houtside, ?_⟩⟩
  rw [run_nil, ← hauths, ← hmanifests]
  rfl

/-- Interrupted anywhere before the last operation. -/
theorem progressed_of_stop (hw : Unlinkable env request w chain)
    {exports : List (Path × Except MigrationError (List Account))}
    (hexports : ExportTargets env w chain exports)
    (hall : run UnlinkOp.act (exportOps request.agent exports) w = .ok (w.withAgentAuth auths))
    {done rest : List (UnlinkOp δ)} (hrest : rest ≠ [])
    (hops : done ++ rest = exportOps request.agent exports ++ handoffOps chain ++
      fileOps (chainRecords chain) ++
      (bindingChanges chain).map (UnlinkOp.restoreBinding request.agent) ++
      manifestOps chain.reverse fun _ => (true, true))
    (hdone : run UnlinkOp.act done w = .ok u) :
    ∃ marks, Progressed env request w u chain auths marks := by
  have hnone : (w.withAgentAuth auths).manifests =
      markedManifests (fun _ => (false, false)) w := (markedManifests_none w).symm
  have hstored : ∀ {entries : Chain δ}, (∀ e ∈ entries, e ∈ chain) →
      ∀ e ∈ entries, w.manifests.get e.1 = some e.2 := fun hsub e he => hw.stored e (hsub e he)
  have hpending : ∀ e ∈ pending chain, e ∈ chain := fun e he => mem_of_pending he
  -- The state after the handoff, from which the other parts start.
  obtain ⟨v, hv⟩ : ∃ v : World δ, v = (w.withAgentAuth auths).withManifests
      (markedManifests (handoffMarks (pending chain)) w) := ⟨_, rfl⟩
  have hhandoff : run UnlinkOp.act (exportOps request.agent exports ++ handoffOps chain) w =
      .ok v := by
    rw [handoffOps_eq]
    refine run_append_eq_ok.mpr ⟨_, hall, ?_⟩
    rw [run_manifestOps (hstored hpending) hnone, hv]
    rfl
  have houtside : ∀ p, p ∉ chain.map Prod.fst →
      handoffMarks (pending chain) p = (false, false) := by
    intro p hp
    refine if_neg fun hmem => hp ?_
    obtain ⟨e, he, rfl⟩ := List.mem_map.mp hmem
    exact List.mem_map_of_mem (hpending e he)
  have hactive : ∀ p, (handoffMarks (pending chain) p).2 = false := by
    intro p
    rw [handoffMarks]
    by_cases hp : p ∈ (pending chain).map Prod.fst
    · rw [if_pos hp]
    · rw [if_neg hp]
  have hmarked : ∀ e ∈ pending chain, (handoffMarks (pending chain) e.1).1 = true := by
    intro e he
    rw [handoffMarks, if_pos (List.mem_map_of_mem he)]
  have hsame : ∀ s, run UnlinkOp.act (exportOps request.agent exports ++ handoffOps chain) w =
      .ok s → s = v := by
    intro s hs
    rw [hhandoff] at hs
    exact (Except.ok.inj hs).symm
  rcases prefix_append hops with ⟨r₄, hprefix₄, -⟩ | ⟨d₅, rfl, hmanifests⟩
  · rcases prefix_append hprefix₄.symm with ⟨r₃, hprefix₃, -⟩ | ⟨d₄, rfl, hbindings⟩
    · rcases prefix_append hprefix₃.symm with ⟨r₂, hprefix₂, -⟩ | ⟨d₃, rfl, hfiles⟩
      · rcases prefix_append hprefix₂.symm with ⟨r₁, hprefix₁, -⟩ | ⟨d₂, rfl, hhandoffs⟩
        · -- Among the exports.
          obtain ⟨a, b, rfl, rfl, -⟩ := List.map_eq_append_iff.mp hprefix₁
          exact ⟨_, progressed_exports hw hexports hall hdone⟩
        · -- Among the manifests that record the handoff.
          rw [handoffOps_eq] at hhandoffs
          obtain ⟨a, b, hab, rfl, -⟩ := List.map_eq_append_iff.mp hhandoffs
          obtain ⟨s, hs, hrun⟩ := run_append_eq_ok.mp hdone
          have hsub : ∀ e ∈ a, e ∈ chain :=
            fun e he => hpending e (hab ▸ List.mem_append_left b he)
          cases hall.symm.trans hs
          have hmarks := run_manifestOps (f := fun _ => (true, false)) (hstored hsub) hnone
          exact ⟨_, progressed_handoffs hw hexports hall hsub
            (Except.ok.inj (hrun.symm.trans hmarks))⟩
      · -- Among the files.
        obtain ⟨a, b, hab, rfl, -⟩ := List.map_eq_append_iff.mp hfiles
        obtain ⟨s, hs, hrun⟩ := run_append_eq_ok.mp hdone
        cases hsame s hs
        obtain ⟨hcontents, hauth, hconfig, hbackups, hmanifests⟩ := run_fileOps hrun
        subst hv
        refine ⟨_, progressed_handedOff hmanifests houtside (fun e _ => hactive e.1) hmarked hauth
          hbackups ⟨_, fun file hfile => ?_, hcontents⟩ ⟨[], by simp, hconfig⟩⟩
        rw [← map_chainRecords, hab, List.map_append]
        exact List.mem_append_left _ hfile
    · -- Among the entries of the sidecars.
      obtain ⟨a, b, hab, rfl, -⟩ := List.map_eq_append_iff.mp hbindings
      obtain ⟨s, hs, hrun⟩ := run_append_eq_ok.mp hdone
      obtain ⟨t, ht, hfiles⟩ := run_append_eq_ok.mp hs
      cases hsame t ht
      obtain ⟨hcontents, hauth, hconfig, hbackups, hmanifests⟩ := run_fileOps hfiles
      obtain ⟨-, rfl⟩ := run_restoreBindings.mp hrun
      subst hv
      refine ⟨_, progressed_handedOff hmanifests houtside (fun e _ => hactive e.1) hmarked hauth
        hbackups ⟨_, fun file hfile => ?_, hcontents⟩ ⟨a, fun change hchange => ?_, ?_⟩⟩
      · rw [← map_chainRecords]
        exact hfile
      · rw [hab]
        exact List.mem_append_left _ hchange
      · exact congrArg (rebindAll request.agent a) hconfig
  · -- Among the manifests that are marked; the newest is the last of them.
    obtain ⟨a, b, hab, rfl, hb⟩ := List.map_eq_append_iff.mp hmanifests
    obtain ⟨s, hs, hrun⟩ := run_append_eq_ok.mp hdone
    obtain ⟨t, ht, hbindings⟩ := run_append_eq_ok.mp hs
    obtain ⟨t', ht', hfiles⟩ := run_append_eq_ok.mp ht
    cases hsame t' ht'
    obtain ⟨hcontents, hauth, hconfig, hbackups, hmanifests'⟩ := run_fileOps hfiles
    obtain ⟨-, rfl⟩ := run_restoreBindings.mp hbindings
    subst hv
    have hsub : ∀ e ∈ a, e ∈ chain :=
      fun e he => List.mem_reverse.mp (hab ▸ List.mem_append_left b he)
    have hmarks := run_manifestOps (f := fun _ => (true, true))
      (v := t.withAgentConfig (rebindAll request.agent (bindingChanges chain) t.agentConfig))
      (hstored hsub) hmanifests'
    cases hrun.symm.trans hmarks
    refine ⟨_, progressed_handedOff (World.manifests_withManifests ..) (fun p hp => ?_)
      (fun e he => ?_) (fun e he => ?_) hauth hbackups ⟨_, fun file hfile => ?_, hcontents⟩
      ⟨_, fun change hchange => hchange, congrArg (rebindAll request.agent _) hconfig⟩⟩
    · rw [if_neg, houtside p hp]
      intro hmem
      obtain ⟨e, he, rfl⟩ := List.mem_map.mp hmem
      exact hp (List.mem_map_of_mem (hsub e he))
    · rw [if_neg, hactive]
      have hb' : b ≠ [] := by
        rintro rfl
        exact hrest hb.symm
      have hlast : e ∈ b := by
        have hlast : chain.reverse.getLast? = some e := by rw [List.getLast?_reverse, he]
        rw [hab, List.getLast?_append_of_ne_nil _ hb'] at hlast
        exact List.mem_of_getLast? hlast
      intro hmem
      have hnodup : (chain.reverse.map Prod.fst).Nodup := by
        rw [List.map_reverse]
        exact List.nodup_reverse.mpr hw.nodup
      rw [hab, List.map_append, List.nodup_append] at hnodup
      exact hnodup.2.2 _ hmem _ (List.mem_map_of_mem hlast) rfl
    · by_cases hmem : e.1 ∈ a.map Prod.fst
      · rw [if_pos hmem]
      · rw [if_neg hmem, hmarked e he]
    · rw [← map_chainRecords]
      exact hfile

end Phases

/-! ## The whole unlink again -/

/-- **A second run** (`unlink_again_iff`). An unlink that was interrupted between two of its
operations can be run again to the same end exactly if the files and entries that are compared
with the disk are still what the chain left, or what they were before it. -/
theorem unlink_again_iff {request : UnlinkRequest} {chain : Chain δ} {t : World δ}
    (hfull : (unlink env request).outcome w = (.ok (), t))
    (hchain : selectedChain w request = .ok chain) {ops done rest : List (UnlinkOp δ)}
    (hops : unlinkOps env w request = .ok ops) (hsplit : ops = done ++ rest) (hrest : rest ≠ [])
    (hdone : run UnlinkOp.act done w = .ok u) :
    (unlink env request).outcome u = (.ok (), t) ↔
      FilesPass env u chain ∧ BindingsPass request.agent u (bindingChanges chain) := by
  obtain ⟨chain', hw, exports, hexports, hparts⟩ := unlinkable_of_ops hops
  cases hchain.symm.trans hw.selected
  obtain ⟨ops', hops', hrun⟩ := unlink_eq_ok.mp hfull
  cases hops.symm.trans hops'
  -- The exports of the first run say what the auth files become.
  obtain ⟨v, hexported⟩ : ∃ v, run UnlinkOp.act (exportOps request.agent exports) w = .ok v := by
    rw [hparts, List.append_assoc, List.append_assoc, List.append_assoc] at hrun
    obtain ⟨v, hv, -⟩ := run_append_eq_ok.mp hrun
    exact ⟨v, hv⟩
  obtain ⟨hv, -, -⟩ := run_exportOps hexported
  have hall : run UnlinkOp.act (exportOps request.agent exports) w =
      .ok (w.withAgentAuth v.agentAuth) := hv ▸ hexported
  obtain ⟨marks, hprogressed⟩ := progressed_of_stop hw hexports hall hrest
    (hsplit.symm.trans hparts) hdone
  -- The first run is itself a run after an interruption, before its first operation.
  have hnothing : run UnlinkOp.act (exportOps request.agent []) w = .ok w := rfl
  have hnone : ExportTargets env w chain ([] ++ exports) := hexports
  have hstart : Progressed env request w w chain v.agentAuth fun _ => (false, false) :=
    progressed_exports hw hnone hall hnothing
  have hunchanged : w.agentConfig = rebindAll request.agent [] w.agentConfig := rfl
  obtain ⟨t', hrun', hundone'⟩ := (unlink_progressed hw hstart).mpr
    ⟨(passes_iff_filesPass rfl hw.passes).mp hw.passes,
      (bindable_iff_bindingsPass hw.bindable hunchanged).mp hw.bindable⟩
  have ht : t' = t := (Prod.mk.inj (hrun'.symm.trans hfull)).2
  subst ht
  rw [← unlink_progressed hw hprogressed]
  constructor
  · intro h
    exact ⟨t', h, hundone'⟩
  · rintro ⟨t₂, h, hundone⟩
    rw [h, hundone.unique hundone']

/-! ## A run -/

def sampleRestore : UnlinkOp String :=
  .restoreFile "t1-opencode.json" sampleManifest sampleFile

def sampleMark : UnlinkOp String :=
  .writeManifest "t1-opencode.json" { sampleManifest with unlinked := true }

/-- The sample link after its only file was restored. -/
def sampleStopped : World String := sampleWorld.setContents (.file "opencode.json") (some "a".toUTF8)

def sampleUnlinked : World String :=
  sampleStopped.writeManifest "t1-opencode.json" { sampleManifest with unlinked := true }

theorem run_sampleRestore : run UnlinkOp.act [sampleRestore] sampleWorld = .ok sampleStopped := by
  rfl

theorem unlink_sampleWorld :
    (unlink sampleEnv sampleRequest).outcome sampleWorld = (.ok (), sampleUnlinked) :=
  unlink_eq_ok.mpr ⟨sampleOps, unlinkOps_sampleWorld,
    run_append_eq_ok.mpr ⟨sampleStopped, run_sampleRestore, rfl⟩⟩

theorem sampleOps_eq : sampleOps = [sampleRestore] ++ [sampleMark] := rfl

theorem unlink_again_iff_sample :
    (unlink sampleEnv sampleRequest).outcome sampleStopped = (.ok (), sampleUnlinked) ↔
      FilesPass sampleEnv sampleStopped sampleChain ∧
        BindingsPass sampleRequest.agent sampleStopped (bindingChanges sampleChain) :=
  unlink_again_iff unlink_sampleWorld selectedChain_sampleWorld unlinkOps_sampleWorld sampleOps_eq
    (by simp) run_sampleRestore

/-- The file that was restored no longer passes the check of the digest. -/
theorem unlinkOps_sampleStopped : unlinkOps sampleEnv sampleStopped sampleRequest =
    .error (.fileChanged (.file "opencode.json") "t1-opencode.json") := by
  decide +kernel

theorem unlink_again_refused :
    unlinkOps sampleEnv sampleWorld sampleRequest = .ok ([sampleRestore] ++ [sampleMark]) ∧
      (unlink sampleEnv sampleRequest).outcome sampleWorld = (.ok (), sampleUnlinked) ∧
      run UnlinkOp.act [sampleRestore] sampleWorld = .ok sampleStopped ∧
      (unlink sampleEnv sampleRequest).outcome sampleStopped =
        (.error (.fileChanged (.file "opencode.json") "t1-opencode.json"), sampleStopped) :=
  ⟨unlinkOps_sampleWorld, unlink_sampleWorld, run_sampleRestore,
    unlink_of_error unlinkOps_sampleStopped⟩

end Tokn.Migration
