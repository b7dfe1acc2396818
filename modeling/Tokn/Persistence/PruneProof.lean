import Tokn.Persistence.Prune

/-!
# Pruning keeps what was not archived

While a request database is pruned, another file may take its place between any two file
operations.

**Theorem (`prune_safe`).** What is deleted has exactly the contents of the archive. Otherwise the
original still has a name. A replacement survives where it was put, or in the quarantine that the
error names, unless it is itself what was opened, verified and deleted.

The names are not locked, so two moments are left to chance. `unusedQuarantinePath` and
`restoreQuarantinedFile` look whether a name is in use before they rename a file to it, and a
rename replaces what has the name. The theorem excludes a replacement right before such a rename
that puts a file at its destination.
-/

namespace Tokn.Persistence

open Prog.Triple (of_pre)

/-! ## The scene -/

/-- A source, its archive, and a file that is to replace the source. -/
structure Scene where
  dir : Directory FilePath
  db : FilePath
  archive : FilePath
  aside : FilePath
  original : Inode
  replacing : Inode
  get_db : dir.get db = some (.file original)
  fresh : ∀ p, dir.get p ≠ some (.file replacing)
  archive_ne : archive ≠ db
  aside_ne : db ≠ aside

namespace Scene

variable (s : Scene)

/-- Nothing has happened yet. -/
def start (sequence : Nat) : PruneWorld where
  dir := s.dir
  replacement := some ⟨s.aside, s.replacing⟩
  sequence := sequence

/-- The source is not replaced right before an operation that renames a file to its path, or renames
it to the path that the replacement renames the original to. -/
structure Spares (schedule : Schedule) : Prop where
  restoring : ∀ n quarantine, schedule.replaces n (.rename quarantine s.db) = false
  quarantining : ∀ n, schedule.replaces n (.rename s.db s.aside) = false

theorem original_ne : s.original ≠ s.replacing := by
  intro h
  have hdb := s.get_db
  rw [h] at hdb
  exact s.fresh s.db hdb

/-- The replacement has not been made. -/
def Untouched (w : PruneWorld) : Prop :=
  w.dir = s.dir ∧ w.replacement = some ⟨s.aside, s.replacing⟩

def Replaced (w : PruneWorld) : Prop :=
  w.dir = s.dir.replace s.db s.aside s.replacing ∧ w.replacement = none

variable {s}

variable {w : PruneWorld} {archive source : Inode} {quarantine : FilePath}

theorem Untouched.replace (h : s.Untouched w) : s.Replaced (w.replace s.db) := by
  rw [PruneWorld.replace, h.2]
  exact ⟨congrArg (fun dir => Directory.replace dir s.db s.aside s.replacing) h.1, rfl⟩

theorem replace_of_none (h : w.replacement = none) (db : FilePath) : w.replace db = w := by
  rw [PruneWorld.replace, h]

@[simp] theorem removed_replace (w : PruneWorld) (db : FilePath) :
    (w.replace db).removed = w.removed := by
  rw [PruneWorld.replace]
  split <;> rfl

theorem Replaced.get (h : s.Replaced w) (p : FilePath) :
    w.dir.get p =
      if p = s.db then some (.file s.replacing)
      else if p = s.aside then some (.file s.original) else s.dir.get p := by
  rw [h.1, Directory.get_replace s.get_db]

/-! ## Stable assertions -/

variable (s) in
/-- The replacement does not matter. -/
def Stable (P : PruneWorld → Prop) : Prop := ∀ w, P w → P (w.replace s.db)

variable {schedule : Schedule} {P Q : PruneWorld → Prop}

theorem Stable.act (hP : s.Stable P) (o : FileOp) (t : Nat) (w : PruneWorld) (hw : P w) :
    P ((schedule.environment s.db).act t o w) := by
  show P (if schedule.replaces t o then w.replace s.db else w)
  split_ifs
  · exact hP w hw
  · exact hw

theorem triple_read (hP : s.Stable P) {o : FileOp} {α : Type} {f : PruneWorld → Except IoError α}
    {R : α → PruneWorld → Prop} (hok : ∀ w a, P w → f w = .ok a → R a w) :
    Prog.Triple P (Prog.read (schedule.environment s.db) o f) R fun _ => P :=
  Prog.Triple.read (hP.act o) (fun _ _ _ hw _ => hw) hok (fun _ _ hw _ => hw)

theorem triple_rejectIf {p : Prop} [Decidable p] {e : IoError} :
    Prog.Triple P (Prog.rejectIf p e) (fun _ => P) fun _ => P :=
  Prog.Triple.rejectIf (fun _ _ hw => hw) fun _ _ hw => hw

theorem triple_validateRegularFilePath (hP : s.Stable P) (path : FilePath) :
    Prog.Triple P (validateRegularFilePath (schedule.environment s.db) path) (fun _ => P)
      fun _ => P := by
  apply Prog.Triple.bind (triple_read hP fun w a hw _ => hw)
  intro node
  exact triple_rejectIf.bind fun _ => triple_rejectIf

/-- A file that is revalidated has the path at the time. -/
theorem triple_revalidateOpenedFile (hP : s.Stable P) (hQ : s.Stable Q) {path : FilePath}
    {file : Inode} (hQP : ∀ w, Q w → P w)
    (hPQ : ∀ w, P w → w.dir.get path = some (.file file) → Q w) :
    Prog.Triple P (revalidateOpenedFile (schedule.environment s.db) path file) (fun _ => Q)
      fun _ => P := by
  apply (triple_validateRegularFilePath hP path).bind
  intro _
  apply Prog.Triple.bind (triple_read hP fun w a hw _ => hw)
  intro _
  apply Prog.Triple.bind (Q := fun linked w => P w ∧ (linked = file → Q w))
  · apply triple_read hP
    intro w i hw hi
    refine ⟨hw, fun hfile => hPQ w hw ?_⟩
    rw [← hfile]
    split at hi
    · next h =>
      rw [h, Except.ok.inj hi]
    · cases hi
    · cases hi
  · intro linked
    apply Prog.Triple.bind (Q := fun _ => Q)
    · exact Prog.Triple.rejectIf (fun _ w hw => hw.1) fun hl w hw => hw.2 (not_not.mp hl)
    · intro _
      apply Prog.Triple.bind (Q := fun _ => Q)
      · exact (triple_read hQ fun w a hw _ => hw).mono (fun _ hw => hw) (fun _ _ hw => hw)
          fun _ => hQP
      · intro links
        exact Prog.Triple.rejectIf (fun _ w hw => hQP w hw) fun _ w hw => hw

theorem triple_revalidateAt (hP : s.Stable P) (file : StableFile) (path : FilePath) :
    Prog.Triple P (file.revalidateAt (schedule.environment s.db) path) (fun _ => P) fun _ => P :=
  triple_revalidateOpenedFile hP hP (fun _ hw => hw) fun _ hw _ => hw

/-- A file that is opened has the path at the time. -/
theorem triple_open (hP : s.Stable P) {R : Inode → PruneWorld → Prop} (hR : ∀ i, s.Stable (R i))
    {path : FilePath} (hRP : ∀ i w, R i w → P w)
    (hPR : ∀ i w, P w → w.dir.get path = some (.file i) → R i w) :
    Prog.Triple P (StableFile.open (schedule.environment s.db) path)
      (fun file w => file.path = path ∧ R file.file w) fun _ => P := by
  apply (triple_validateRegularFilePath hP path).bind
  intro _
  apply Prog.Triple.bind (Q := R)
  · apply triple_read hP
    intro w i hw hi
    apply hPR i w hw
    split at hi
    · next h => rw [h, Except.ok.inj hi]
    · cases hi
    · cases hi
    · cases hi
  · intro file
    apply Prog.Triple.bind (Q := fun _ => R file)
    · exact (triple_revalidateAt (hR file) ⟨path, file⟩ path).mono (fun _ hw => hw)
        (fun _ _ hw => hw) fun _ => hRP file
    · intro _
      exact Prog.Triple.pure fun w hw => ⟨rfl, hw⟩

variable (a : Archives)

theorem triple_hashFile (hP : s.Stable P) (file : StableFile) :
    Prog.Triple P (hashFile (schedule.environment s.db) a file)
      (fun digest w => digest = a.sha256 (a.content file.file) ∧ P w) fun _ => P := by
  apply Prog.Triple.bind (triple_read hP fun w a hw _ => hw)
  intro _
  apply Prog.Triple.bind (Q := fun bytes w => bytes = a.content file.file ∧ P w)
  · apply triple_read hP
    intro w bytes hw hbytes
    exact ⟨(Except.ok.inj hbytes).symm, hw⟩
  · intro bytes
    apply of_pre
    intro hbytes
    apply (triple_revalidateAt hP file file.path).bind
    intro _
    exact Prog.Triple.pure fun w hw => ⟨congrArg a.sha256 hbytes, hw⟩

theorem triple_hashArchive (hP : s.Stable P) (file : StableFile) :
    Prog.Triple P (hashArchive (schedule.environment s.db) a file)
      (fun digest w => (∃ bytes, a.decompress (a.content file.file) = .ok bytes ∧
        digest = a.sha256 bytes) ∧ P w) fun _ => P := by
  apply Prog.Triple.bind (triple_read hP fun w a hw _ => hw)
  intro _
  apply Prog.Triple.bind (Q := fun bytes w => a.decompress (a.content file.file) = .ok bytes ∧ P w)
  · apply triple_read hP
    intro w bytes hw hbytes
    split at hbytes
    · next h => exact ⟨h.trans (congrArg Except.ok (Except.ok.inj hbytes)), hw⟩
    · cases hbytes
  · intro bytes
    apply of_pre
    intro hbytes
    apply (triple_revalidateAt hP file file.path).bind
    intro _
    exact Prog.Triple.pure fun w hw => ⟨⟨bytes, hbytes, rfl⟩, hw⟩

/-! ## Before the source is renamed -/

variable (s) in
/-- Nothing has been renamed by the program. -/
def Before (w : PruneWorld) : Prop := w.removed = [] ∧ (s.Untouched w ∨ s.Replaced w)

variable (s) in
/-- The source was opened, before or after it was replaced. -/
def Opened (source : Inode) (w : PruneWorld) : Prop :=
  s.Before w ∧ (source = s.original ∨ source = s.replacing ∧ s.Replaced w)

variable (s) in
/-- The archive still had its path after the source was opened, unless the source was replaced
since. -/
def Verified (archive source : Inode) (w : PruneWorld) : Prop :=
  w.removed = [] ∧
    (source = s.original ∧ s.Untouched w ∧ w.dir.get s.archive = some (.file archive) ∨
      source = s.replacing ∧ s.Replaced w ∧
        w.dir.get s.archive = some (.file archive) ∨
      source = s.original ∧ s.Replaced w)

theorem stable_before : s.Stable s.Before := by
  intro w hw
  obtain ⟨hremoved, hw⟩ := hw
  refine ⟨by rw [removed_replace, hremoved], Or.inr ?_⟩
  rcases hw with hw | hw
  · exact hw.replace
  · rw [replace_of_none hw.2]
    exact hw

theorem stable_opened (source : Inode) : s.Stable (s.Opened source) := by
  intro w hw
  refine ⟨stable_before w hw.1, hw.2.imp_right fun h => ⟨h.1, ?_⟩⟩
  rw [replace_of_none h.2.2]
  exact h.2

theorem stable_verified (archive source : Inode) : s.Stable (s.Verified archive source) := by
  intro w hw
  obtain ⟨hremoved, hw⟩ := hw
  refine ⟨by rw [removed_replace, hremoved], ?_⟩
  rcases hw with ⟨hs, hw, -⟩ | ⟨hs, hw, ha⟩ | ⟨hs, hw⟩
  · exact Or.inr (Or.inr ⟨hs, hw.replace⟩)
  · rw [replace_of_none hw.2]
    exact Or.inr (Or.inl ⟨hs, hw, ha⟩)
  · rw [replace_of_none hw.2]
    exact Or.inr (Or.inr ⟨hs, hw⟩)

theorem Verified.before (hw : s.Verified archive source w) : s.Before w := by
  obtain ⟨hremoved, hw⟩ := hw
  refine ⟨hremoved, ?_⟩
  rcases hw with ⟨-, hw, -⟩ | ⟨-, hw, -⟩ | ⟨-, hw⟩
  · exact Or.inl hw
  · exact Or.inr hw
  · exact Or.inr hw

theorem Verified.opened (hw : s.Verified archive source w) : s.Opened source w := by
  refine ⟨hw.before, ?_⟩
  rcases hw.2 with ⟨hs, -⟩ | ⟨hs, hr, -⟩ | ⟨hs, -⟩
  · exact Or.inl hs
  · exact Or.inr ⟨hs, hr⟩
  · exact Or.inl hs

/-- What is at the path of the source is what was opened. -/
theorem opened_of_get {i : Inode} (hw : s.Before w)
    (hget : w.dir.get s.db = some (.file i)) : s.Opened i w := by
  refine ⟨hw, ?_⟩
  rcases hw.2 with hu | hr
  · rw [hu.1, s.get_db] at hget
    exact Or.inl (Node.file.inj (Option.some.inj hget)).symm
  · rw [hr.get, if_pos rfl] at hget
    exact Or.inr ⟨(Node.file.inj (Option.some.inj hget)).symm, hr⟩

theorem verified_of_get (hw : s.Opened source w)
    (hget : w.dir.get s.archive = some (.file archive)) : s.Verified archive source w := by
  obtain ⟨⟨hremoved, hw⟩, hs⟩ := hw
  refine ⟨hremoved, ?_⟩
  rcases hs with hs | ⟨hs, hr⟩
  · rcases hw with hu | hr
    · exact Or.inl ⟨hs, hu, hget⟩
    · exact Or.inr (Or.inr ⟨hs, hr⟩)
  · exact Or.inr (Or.inl ⟨hs, hr, hget⟩)

/-! ## In quarantine -/

variable (s) in
/-- The file at the path of the source was renamed to the quarantine: the original, which is not
replaced or was replaced since, or its replacement. -/
def Moved (archive source : Inode) (quarantine : FilePath) (w : PruneWorld) : Prop :=
  w.removed = [] ∧ quarantine ≠ s.db ∧
    (w.replacement = some ⟨s.aside, s.replacing⟩ ∧ source = s.original ∧
        w.dir.get quarantine = some (.file s.original) ∧
        w.dir.get s.db = none ∧ quarantine ≠ s.archive ∧
        w.dir.get s.archive = some (.file archive) ∨
      w.replacement = none ∧ source = s.original ∧
        w.dir.get quarantine = some (.file s.original) ∧
        w.dir.get s.db = some (.file s.replacing) ∧ quarantine ≠ s.archive ∧
        w.dir.get s.archive = some (.file archive) ∨
      w.replacement = none ∧
        w.dir.get quarantine = some (.file s.replacing) ∧
        w.dir.get s.db = none ∧
        w.dir.get s.aside = some (.file s.original) ∧
        (source = s.replacing → quarantine ≠ s.archive ∧
          w.dir.get s.archive = some (.file archive)))

theorem stable_moved (archive source : Inode) (quarantine : FilePath) :
    s.Stable (s.Moved archive source quarantine) := by
  intro w hw
  obtain ⟨hremoved, hne, hw⟩ := hw
  refine ⟨by rw [removed_replace, hremoved], hne, ?_⟩
  rcases hw with ⟨hr, hs, hq, hdb, ha, harchive⟩ | ⟨hr, hw⟩ | ⟨hr, hw⟩
  · -- the replacement is created beside the quarantine
    have hget : ∀ p, BTreeMap.get (w.replace s.db).dir p =
        if p = s.db then some (.file s.replacing) else w.dir.get p := by
      intro p
      rw [PruneWorld.replace, hr]
      exact Directory.get_replace_of_none hdb s.aside s.replacing p
    refine Or.inr (Or.inl ⟨by rw [PruneWorld.replace, hr], hs, ?_, ?_, ha, ?_⟩)
    · rw [hget, if_neg hne, hq]
    · rw [hget, if_pos rfl]
    · rw [hget, if_neg s.archive_ne, harchive]
  · rw [replace_of_none hr]
    exact Or.inr (Or.inl ⟨hr, hw⟩)
  · rw [replace_of_none hr]
    exact Or.inr (Or.inr ⟨hr, hw⟩)

/-- The quarantine names a file, which the replacement does not change. -/
theorem Moved.get_replace (hw : s.Moved archive source quarantine w) {i : Inode}
    (hi : w.dir.get quarantine = some (.file i)) :
    BTreeMap.get (w.replace s.db).dir quarantine = some (.file i) := by
  obtain ⟨-, hne, hw⟩ := hw
  rcases hw with ⟨hr, -, -, hdb, -⟩ | ⟨hr, -⟩ | ⟨hr, -⟩
  · rw [PruneWorld.replace, hr]
    exact (Directory.get_replace_of_none hdb s.aside s.replacing quarantine).trans
      ((if_neg hne).trans hi)
  · rw [replace_of_none hr, hi]
  · rw [replace_of_none hr, hi]

/-- The file that was verified is in quarantine. -/
def Kept (s : Scene) (archive source : Inode) (quarantine : FilePath) (w : PruneWorld) : Prop :=
  s.Moved archive source quarantine w ∧ w.dir.get quarantine = some (.file source)

theorem stable_kept (archive source : Inode) (quarantine : FilePath) :
    s.Stable (s.Kept archive source quarantine) :=
  fun w hw => ⟨stable_moved archive source quarantine w hw.1, hw.1.get_replace hw.2⟩

/-- The source is renamed to a name that is not used. -/
theorem moved_of_verified (hw : s.Verified archive source w)
    (hfree : w.dir.get quarantine = none) :
    ∃ dir, w.dir.rename s.db quarantine = some dir ∧
      s.Moved archive source quarantine { w with dir := dir } := by
  have hused : ∀ {p node}, w.dir.get p = some node → p ≠ quarantine := by
    intro p node hp hpq
    rw [hpq, hfree] at hp
    cases hp
  -- what has the path of the source goes to the quarantine, and nothing else moves
  have hmove : ∀ {node}, w.dir.get s.db = some node →
      w.dir.rename s.db quarantine = some (w.dir.move s.db quarantine node) ∧
      quarantine ≠ s.db ∧
      (w.dir.move s.db quarantine node).get quarantine = some node ∧
      (w.dir.move s.db quarantine node).get s.db = none ∧
      ∀ {p other}, w.dir.get p = some other → p ≠ s.db →
        (w.dir.move s.db quarantine node).get p = some other := by
    intro node hdb
    have hne := hused hdb
    refine ⟨Directory.rename_of_free hdb hfree, hne.symm, ?_, ?_, ?_⟩
    · rw [Directory.get_move, if_pos rfl]
    · rw [Directory.get_move, if_neg hne, if_pos rfl]
    · intro p other hp hpdb
      rw [Directory.get_move, if_neg (hused hp), if_neg hpdb, hp]
  obtain ⟨hremoved, hw⟩ := hw
  have hafter : s.Replaced w → w.dir.get s.db = some (.file s.replacing) ∧
      w.dir.get s.aside = some (.file s.original) := by
    intro hr
    constructor
    · rw [hr.get, if_pos rfl]
    · rw [hr.get, if_neg s.aside_ne.symm, if_pos rfl]
  rcases hw with ⟨hs, hu, harchive⟩ | ⟨hs, hr, harchive⟩ | ⟨hs, hr⟩
  · have hdb : w.dir.get s.db = some (.file s.original) := by rw [hu.1, s.get_db]
    obtain ⟨hrename, hne, hq, hnone, hother⟩ := hmove hdb
    exact ⟨_, hrename, hremoved, hne, Or.inl ⟨hu.2, hs, hq, hnone, (hused harchive).symm,
      hother harchive s.archive_ne⟩⟩
  · obtain ⟨hdb, haside⟩ := hafter hr
    obtain ⟨hrename, hne, hq, hnone, hother⟩ := hmove hdb
    exact ⟨_, hrename, hremoved, hne, Or.inr (Or.inr ⟨hr.2, hq, hnone,
      hother haside s.aside_ne.symm,
      fun _ => ⟨(hused harchive).symm, hother harchive s.archive_ne⟩⟩)⟩
  · obtain ⟨hdb, haside⟩ := hafter hr
    obtain ⟨hrename, hne, hq, hnone, hother⟩ := hmove hdb
    exact ⟨_, hrename, hremoved, hne, Or.inr (Or.inr ⟨hr.2, hq, hnone,
      hother haside s.aside_ne.symm,
      fun hn => absurd (hs.symm.trans hn) s.original_ne⟩)⟩

/-! ## Outcomes -/

/-- A text that names a path. -/
def Mentions (text : String) (p : FilePath) : Prop := ∃ before after, text = before ++ p.display ++ after

/-- After a failure with this message nothing is lost. -/
def Failed (s : Scene) (message : String) (w : PruneWorld) : Prop :=
  w.removed = [] ∧ (∃ p, w.dir.get p = some (.file s.original)) ∧
    (w.replacement = none →
      w.dir.get s.db = some (.file s.replacing) ∨
        ∃ p, w.dir.get p = some (.file s.replacing) ∧ Mentions message p)

theorem Before.failed (hw : s.Before w) (message : String) : s.Failed message w := by
  obtain ⟨hremoved, hw⟩ := hw
  refine ⟨hremoved, ?_⟩
  rcases hw with hu | hr
  · refine ⟨⟨s.db, by rw [hu.1, s.get_db]⟩, fun hnone => ?_⟩
    rw [hu.2] at hnone
    cases hnone
  · refine ⟨⟨s.aside, ?_⟩, fun _ => Or.inl ?_⟩
    · rw [hr.get, if_neg s.aside_ne.symm, if_pos rfl]
    · rw [hr.get, if_pos rfl]

theorem Moved.failed (hw : s.Moved archive source quarantine w) {message : String}
    (hmessage : Mentions message quarantine) : s.Failed message w := by
  obtain ⟨hremoved, -, hw⟩ := hw
  refine ⟨hremoved, ?_⟩
  rcases hw with ⟨hr, -, hq, -⟩ | ⟨-, -, hq, hdb, -⟩ | ⟨-, hq, -, haside, -⟩
  · refine ⟨⟨quarantine, hq⟩, fun hnone => ?_⟩
    rw [hr] at hnone
    cases hnone
  · exact ⟨⟨quarantine, hq⟩, fun _ => Or.inl hdb⟩
  · exact ⟨⟨s.aside, haside⟩, fun _ => Or.inr ⟨quarantine, hq, hmessage⟩⟩

/-- The file in quarantine is renamed back. -/
theorem Moved.restored (hw : s.Moved archive source quarantine w)
    (hnone : w.dir.get s.db = none) :
    ∃ dir, w.dir.rename quarantine s.db = some dir ∧
      ∀ message, s.Failed message { w with dir := dir } := by
  obtain ⟨hremoved, hne, hw⟩ := hw
  have hmove : ∀ {node}, w.dir.get quarantine = some node →
      w.dir.rename quarantine s.db = some (w.dir.move quarantine s.db node) ∧
      (w.dir.move quarantine s.db node).get s.db = some node := by
    intro node hq
    refine ⟨Directory.rename_of_free hq hnone, ?_⟩
    rw [Directory.get_move, if_pos rfl]
  rcases hw with ⟨hr, -, hq, -⟩ | ⟨-, -, -, hdb, -⟩ | ⟨hr, hq, -, haside, -⟩
  · obtain ⟨hrename, hdb⟩ := hmove hq
    refine ⟨_, hrename, fun message => ⟨hremoved, ⟨s.db, hdb⟩, fun hnone => ?_⟩⟩
    rw [hr] at hnone
    cases hnone
  · rw [hnone] at hdb
    cases hdb
  · obtain ⟨hrename, hdb⟩ := hmove hq
    refine ⟨_, hrename, fun message => ⟨hremoved, ⟨s.aside, ?_⟩, fun _ => Or.inl hdb⟩⟩
    have hqa : s.aside ≠ quarantine := by
      intro h
      rw [h, hq] at haside
      exact s.original_ne (Node.file.inj (Option.some.inj haside)).symm
    rw [Directory.get_move, if_neg s.aside_ne.symm, if_neg hqa, haside]

/-! ## Removing a file -/

variable (hspares : s.Spares schedule)

include hspares in
/-- Nothing is created at the path of the source right before a file is renamed to it. -/
theorem act_restoring (n : Nat) (quarantine : FilePath) (w : PruneWorld) :
    (schedule.environment s.db).act n (.rename quarantine s.db) w = w := by
  show (if schedule.replaces n (.rename quarantine s.db) then w.replace s.db else w) = w
  rw [hspares.restoring, if_neg Bool.false_ne_true]

/-- Whether something has the path at the time. -/
theorem triple_isMissing (hP : s.Stable P) (path : FilePath) (report : IoError → IoError) :
    Prog.Triple P (isMissing (schedule.environment s.db) path report)
      (fun missing w => P w ∧ (missing = true ↔ w.dir.get path = none))
      fun error w => P w ∧ ∃ cause, cause.kind = .other ∧ error = report cause := by
  apply Prog.Triple.catching (E := fun error w => P w ∧
    (error.kind = .other ∨ error.kind = .notFound ∧ w.dir.get path = none))
  · apply Prog.Triple.bind (Q := fun _ w => P w ∧ w.dir.get path ≠ none)
    · refine Prog.Triple.read (hP.act _) (fun t e w hw hfail => ⟨hw, Or.inl ?_⟩)
        (fun w node hw hnode => ⟨hw, ?_⟩) fun w e hw he => ⟨hw, Or.inr ?_⟩
      · obtain ⟨message, -, rfl⟩ := Option.map_eq_some_iff.mp hfail
        rfl
      · split at hnode
        · next hget =>
          rw [hget]
          exact Option.some_ne_none _
        · cases hnode
      · split at he
        · cases he
        · next hget => exact ⟨(congrArg IoError.kind (Except.error.inj he)).symm, hget⟩
    · intro _
      exact Prog.Triple.pure fun w hw => ⟨hw.1, iff_of_false Bool.false_ne_true hw.2⟩
  · intro error
    split_ifs with hkind
    · refine Prog.Triple.pure fun w hw => ⟨hw.1, iff_of_true rfl ?_⟩
      rcases hw.2 with hother | ⟨-, hget⟩
      · rw [hkind] at hother
        cases hother
      · exact hget
    · exact Prog.Triple.throw fun w hw =>
        ⟨hw.1, error, hw.2.resolve_right fun h => hkind h.1, rfl⟩

/-- The name of the quarantine is not in use at the time. -/
theorem triple_unusedQuarantinePath (path : FilePath) (fuel : Nat) :
    Prog.Triple (s.Verified archive source)
      (unusedQuarantinePath (schedule.environment s.db) a path fuel)
      (fun quarantine w => s.Verified archive source w ∧ w.dir.get quarantine = none)
      fun _ => s.Verified archive source := by
  induction fuel with
  | zero => exact Prog.Triple.throw fun w hw => hw
  | succ fuel ih =>
    apply Prog.Triple.bind (Q := fun _ => s.Verified archive source)
    · exact Prog.Triple.own fun w hw => hw
    intro sequence
    apply Prog.Triple.bind
    · exact (triple_isMissing (stable_verified archive source) _ id).mono (fun _ hw => hw)
        (fun _ _ hw => hw) fun _ _ hw => hw.1
    intro unused
    cases unused with
    | false => exact ih.mono (fun w hw => hw.1) (fun _ _ hw => hw) fun _ _ hw => hw
    | true => exact Prog.Triple.pure fun w hw => ⟨hw.1, hw.2.mp rfl⟩

theorem quarantinePath_inj {path : FilePath} {m n : Nat}
    (h : quarantinePath a path m = quarantinePath a path n) : m = n := by
  have hname := congrArg FilePath.name h
  simp only [quarantinePath, String.append_assoc, String.append_right_inj,
    String.append_left_inj] at hname
  exact Str.toString_nat_inj hname

/-- The names that may be in use. -/
def names (s : Scene) : List FilePath := s.aside :: s.dir.map Prod.fst

theorem Before.mem_names (hw : s.Before w) {p : FilePath} (hp : w.dir.get p ≠ none) :
    p ∈ s.names := by
  have hdir : ∀ p, s.dir.get p ≠ none → p ∈ s.names := by
    intro p hp
    by_contra hmem
    exact hp (BTreeMap.get_eq_none_iff.mpr fun h => hmem (List.mem_cons_of_mem _ h))
  rcases hw.2 with hu | hr
  · rw [hu.1] at hp
    exact hdir p hp
  · rw [hr.get] at hp
    split_ifs at hp with hdb haside
    · rw [hdb]
      apply hdir
      rw [s.get_db]
      exact Option.some_ne_none _
    · rw [haside]
      exact List.mem_cons_self
    · exact hdir p hp

/-- As many names as are in use are tried before one is not. -/
theorem triple_unusedQuarantinePath_returns (path : FilePath) (first : Nat) (fuel : Nat) :
    ∀ tried, s.names.length < tried + fuel →
      Prog.Triple
        (fun w => s.Before w ∧ w.sequence = first + tried ∧
          ∀ i < tried, quarantinePath a path (first + i) ∈ s.names)
        (unusedQuarantinePath (schedule.environment s.db) a path fuel)
        (fun _ _ => True) fun error _ => error.kind ≠ .exhausted := by
  induction fuel with
  | zero =>
    intro tried hfuel
    apply Prog.Triple.throw
    intro w hw
    exfalso
    -- the names that were tried are different
    have hnodup : ((List.range tried).map fun i => quarantinePath a path (first + i)).Nodup := by
      refine List.Nodup.map ?_ List.nodup_range
      intro i j hij
      exact Nat.add_left_cancel (quarantinePath_inj a hij)
    have hsub : ((List.range tried).map fun i => quarantinePath a path (first + i)) ⊆ s.names := by
      intro p hp
      obtain ⟨i, hi, rfl⟩ := List.mem_map.mp hp
      exact hw.2.2 i (List.mem_range.mp hi)
    have hle := (List.subperm_of_subset hnodup hsub).length_le
    rw [List.length_map, List.length_range] at hle
    omega
  | succ fuel ih =>
    intro tried hfuel
    apply Prog.Triple.bind (Q := fun sequence w => sequence = first + tried ∧ s.Before w ∧
      w.sequence = first + tried + 1 ∧ ∀ i < tried, quarantinePath a path (first + i) ∈ s.names)
    · apply Prog.Triple.own
      intro w hw
      exact ⟨hw.2.1, hw.1, congrArg (· + 1) hw.2.1, hw.2.2⟩
    intro sequence
    apply of_pre
    intro hsequence
    subst hsequence
    have hstable : s.Stable fun w => s.Before w ∧ w.sequence = first + tried + 1 ∧
        ∀ i < tried, quarantinePath a path (first + i) ∈ s.names := by
      intro w hw
      refine ⟨stable_before w hw.1, ?_, hw.2.2⟩
      rw [← hw.2.1, PruneWorld.replace]
      split <;> rfl
    apply Prog.Triple.bind
    · refine (triple_isMissing hstable (quarantinePath a path (first + tried)) id).mono
        (fun _ hw => hw) (fun _ _ hw => hw) fun error w hw => ?_
      obtain ⟨-, cause, hkind, rfl⟩ := hw
      intro hexhausted
      exact absurd (hkind.symm.trans hexhausted) (by decide)
    intro unused
    cases unused with
    | true => exact Prog.Triple.pure fun _ _ => trivial
    | false =>
      refine (ih (tried + 1) (by omega)).mono (fun w hw => ?_) (fun _ _ hw => hw) fun _ _ hw => hw
      obtain ⟨⟨hbefore, hseq, htried⟩, hused⟩ := hw
      refine ⟨hbefore, hseq, fun i hi => ?_⟩
      rcases Nat.lt_succ_iff_lt_or_eq.mp hi with hi | hi
      · exact htried i hi
      · rw [hi]
        exact hbefore.mem_names fun hnone => absurd (hused.mpr hnone) Bool.false_ne_true

/-- The loop ends: no more names are tried than there are in use, and one more. -/
theorem unusedQuarantinePath_returns (path : FilePath) (first : Nat) {fuel : Nat}
    (hfuel : s.dir.length + 1 < fuel) :
    Prog.Triple (fun w => s.Before w ∧ w.sequence = first)
      (unusedQuarantinePath (schedule.environment s.db) a path fuel)
      (fun _ _ => True) fun error _ => error.kind ≠ .exhausted := by
  have hnames : s.names.length < 0 + fuel := by
    rw [names, List.length_cons, List.length_map]
    omega
  refine (triple_unusedQuarantinePath_returns a path first fuel 0 hnames).mono
    (fun w hw => ⟨hw.1, hw.2, fun i hi => ?_⟩) (fun _ _ hw => hw) fun _ _ hw => hw
  exact absurd hi (Nat.not_lt_zero i)

theorem mentions_retained (cause : IoError) (quarantine : FilePath) (reason : String) :
    Mentions (retained cause quarantine reason).message quarantine :=
  ⟨cause.message ++ "; verified data was retained at ", " because " ++ reason, by
    simp [retained, String.append_assoc]⟩

include hspares in
theorem triple_restoreQuarantinedFile (quarantine : FilePath) (cause : IoError) :
    Prog.Triple (s.Moved archive source quarantine)
      (restoreQuarantinedFile (schedule.environment s.db) quarantine s.db cause)
      (fun _ _ => False) fun error => s.Failed error.message := by
  have hretained : ∀ reason w, s.Moved archive source quarantine w →
      s.Failed (retained cause quarantine reason).message w :=
    fun reason w hw => hw.failed (mentions_retained cause quarantine reason)
  apply Prog.Triple.bind
  · refine (triple_isMissing (stable_moved archive source quarantine) s.db _).mono
      (fun _ hw => hw) (fun _ _ hw => hw) fun error w hw => ?_
    obtain ⟨hw, e, -, rfl⟩ := hw
    exact hretained _ w hw
  intro missing
  apply Prog.Triple.bind (Q := fun _ w => s.Moved archive source quarantine w ∧
    w.dir.get s.db = none)
  · refine Prog.Triple.rejectIf (fun _ w hw => hretained _ w hw.1) fun hmissing w hw => ?_
    exact ⟨hw.1, hw.2.mp (Bool.eq_true_of_not_eq_false hmissing)⟩
  intro _
  apply Prog.Triple.bind (Q := fun _ w => ∀ message, s.Failed message w)
  · apply Prog.Triple.mapError (E := fun _ => s.Moved archive source quarantine)
    · refine Prog.Triple.op (M := fun w => s.Moved archive source quarantine w ∧
        w.dir.get s.db = none) ?_ (fun _ _ _ hw _ => hw.1) ?_ ?_
      · intro n w hw
        rw [act_restoring hspares]
        exact hw
      · intro w _ hw _
        obtain ⟨dir, hrename, hfailed⟩ := hw.1.restored hw.2
        rw [hrename]
        exact hfailed
      · intro w e hw herr
        obtain ⟨dir, hrename, -⟩ := hw.1.restored hw.2
        rw [hrename] at herr
        cases herr
    · exact fun error w hw => hretained _ w hw
  intro _
  exact Prog.Triple.throw fun w hw => hw cause.message

/-- What is removed was verified, and the archive is there. -/
def Deleted (s : Scene) (archive source : Inode) (w : PruneWorld) : Prop :=
  w.removed = [source] ∧ w.dir.get s.archive = some (.file archive) ∧
    (w.replacement = none →
      w.dir.get s.db = some (.file s.replacing) ∨ source = s.replacing)

theorem Kept.deleted (hw : s.Kept archive source quarantine w) :
    w.dir.unlink quarantine = some (some source, w.dir.erase quarantine) ∧
      s.Deleted archive source
        { w with dir := w.dir.erase quarantine, removed := w.removed ++ [source] } := by
  obtain ⟨⟨hremoved, hne, hw⟩, hq⟩ := hw
  refine ⟨Directory.unlink_file hq, by rw [hremoved]; rfl, ?_, ?_⟩
  · have harchive : quarantine ≠ s.archive ∧
        w.dir.get s.archive = some (.file archive) := by
      rcases hw with ⟨-, -, -, -, h⟩ | ⟨-, -, -, -, h⟩ | ⟨-, hq', -, -, h⟩
      · exact h
      · exact h
      · rw [hq'] at hq
        exact h (Node.file.inj (Option.some.inj hq)).symm
    rw [BTreeMap.get_erase, if_neg harchive.1.symm, harchive.2]
  · intro hnone
    rcases hw with ⟨hr, -⟩ | ⟨-, -, -, hdb, -⟩ | ⟨-, hq', -⟩
    · rw [hr] at hnone
      cases hnone
    · left
      rw [BTreeMap.get_erase, if_neg hne.symm, hdb]
    · rw [hq'] at hq
      exact Or.inr (Node.file.inj (Option.some.inj hq)).symm

include hspares in
theorem triple_renameFile (quarantine : FilePath) :
    Prog.Triple (fun w => s.Verified archive source w ∧ w.dir.get quarantine = none)
      (renameFile (schedule.environment s.db) s.db quarantine)
      (fun _ => s.Moved archive source quarantine) fun _ => s.Before := by
  refine Prog.Triple.op (M := fun w => s.Verified archive source w ∧
    w.dir.get quarantine = none) ?_ (fun _ _ _ hw _ => hw.1.before) ?_ ?_
  · intro n w hw
    show (fun w => s.Verified archive source w ∧ w.dir.get quarantine = none)
      (if schedule.replaces n (.rename s.db quarantine) then w.replace s.db else w)
    split_ifs with hreplaces
    · refine ⟨stable_verified archive source w hw.1, ?_⟩
      rcases hw.1.before.2 with hu | hr
      · have hdb : quarantine ≠ s.db := by
          intro h
          rw [h, hu.1, s.get_db] at hw
          cases hw.2
        have haside : quarantine ≠ s.aside := by
          intro h
          rw [h, hspares.quarantining] at hreplaces
          cases hreplaces
        rw [hu.replace.get, if_neg hdb, if_neg haside, ← hu.1, hw.2]
      · rw [replace_of_none hr.2, hw.2]
    · exact hw
  · intro w _ hw _
    obtain ⟨dir, hrename, hmoved⟩ := moved_of_verified hw.1 hw.2
    rw [hrename]
    exact hmoved
  · intro w e hw herr
    obtain ⟨dir, hrename, -⟩ := moved_of_verified hw.1 hw.2
    rw [hrename] at herr
    cases herr

include hspares in
theorem triple_removeStableFile (fuel : Nat) :
    Prog.Triple (s.Verified archive source)
      (removeStableFile (schedule.environment s.db) a fuel ⟨s.db, source⟩)
      (fun _ => s.Deleted archive source) fun error => s.Failed error.message := by
  have hfailed : ∀ (error : IoError) w, s.Verified archive source w → s.Failed error.message w :=
    fun error w hw => hw.before.failed error.message
  apply Prog.Triple.bind
  · exact (triple_revalidateAt (stable_verified archive source) ⟨s.db, source⟩ s.db).mono
      (fun _ hw => hw) (fun _ _ hw => hw) hfailed
  intro _
  apply Prog.Triple.bind
  · exact (triple_unusedQuarantinePath a s.db fuel).mono (fun _ hw => hw) (fun _ _ hw => hw) hfailed
  intro quarantine
  apply Prog.Triple.bind
  · exact (triple_renameFile hspares quarantine).mono (fun _ hw => hw) (fun _ _ hw => hw)
      fun error w hw => hw.failed error.message
  intro _
  apply Prog.Triple.bind (Q := fun _ => s.Kept archive source quarantine)
  · apply Prog.Triple.catching
    · exact triple_revalidateOpenedFile (stable_moved archive source quarantine)
        (stable_kept archive source quarantine) (fun w hw => hw.1) fun w hw hget => ⟨hw, hget⟩
    · intro error
      exact (triple_restoreQuarantinedFile hspares quarantine error).mono (fun _ hw => hw)
        (fun _ _ hw => hw.elim) fun _ _ hw => hw
  intro _
  apply Prog.Triple.catching (E := fun _ => s.Moved archive source quarantine)
  · refine Prog.Triple.op ((stable_kept archive source quarantine).act _)
      (fun _ _ _ hw _ => hw.1) ?_ ?_
    · intro w _ hw _
      obtain ⟨hunlink, hdeleted⟩ := hw.deleted
      rw [hunlink]
      exact hdeleted
    · intro w e hw herr
      rw [hw.deleted.1] at herr
      cases herr
  · intro error
    exact (triple_restoreQuarantinedFile hspares quarantine error).mono (fun _ hw => hw)
      (fun _ _ hw => hw.elim) fun _ _ hw => hw

/-! ## Pruning -/

/-- What an outcome says of what is left. -/
structure Safe (s : Scene) (a : Archives) (outcome : PruneOutcome) (w : PruneWorld) : Prop where
  deleted : ∀ digest, outcome = .deleted digest →
    ∃ removed archive, w.removed = [removed] ∧
      w.dir.get s.archive = some (.file archive) ∧
      a.decompress (a.content archive) = .ok (a.content removed)
  replacing : w.replacement = none →
    w.dir.get s.db = some (.file s.replacing) ∨
      (∃ p error, w.dir.get p = some (.file s.replacing) ∧ outcome = .failed error ∧
        Mentions error p) ∨
      ∃ digest, outcome = .deleted digest ∧ w.removed = [s.replacing]
  original : (∀ digest, outcome ≠ .deleted digest) →
    w.removed = [] ∧ ∃ p, w.dir.get p = some (.file s.original)

theorem Before.safe (hw : s.Before w) {outcome : PruneOutcome}
    (hne : ∀ digest, outcome ≠ .deleted digest) : s.Safe a outcome w where
  deleted digest h := absurd h (hne digest)
  replacing hnone := by
    rcases hw.2 with hu | hr
    · rw [hu.2] at hnone
      cases hnone
    · exact Or.inl (by rw [hr.get, if_pos rfl])
  original _ := ⟨hw.1, (hw.failed "").2.1⟩

theorem Failed.safe {message : String} (hw : s.Failed message w) (what : String) :
    s.Safe a (.failed (what ++ ": " ++ message)) w where
  deleted digest h := by cases h
  replacing hnone := by
    rcases hw.2.2 hnone with hdb | ⟨p, hp, before, after, hmessage⟩
    · exact Or.inl hdb
    · refine Or.inr (Or.inl ⟨p, _, hp, rfl, what ++ ": " ++ before, after, ?_⟩)
      rw [hmessage]
      simp [String.append_assoc]
  original _ := ⟨hw.1, hw.2.1⟩

theorem triple_failing {α : Type} {c : FileM α} {R : α → PruneWorld → Prop} (what : String)
    (hc : Prog.Triple P c R fun _ => s.Before) :
    Prog.Triple P (failing what c) R (s.Safe a) :=
  hc.mapError fun _ _ hw => hw.safe a fun digest h => by cases h

/-- The digest has no collisions between a file and what an archive decompresses to. -/
def CollisionFree (a : Archives) : Prop :=
  ∀ i j bytes, a.decompress (a.content i) = .ok bytes →
    a.sha256 (a.content j) = a.sha256 bytes → a.content j = bytes

include hspares in
theorem triple_pruneRequestDb (hsha : CollisionFree a) (fuel : Nat) (commit : Bool) :
    Prog.Triple s.Before
      (pruneRequestDb (schedule.environment s.db) a fuel s.db s.archive commit)
      (s.Safe a) (s.Safe a) := by
  apply Prog.Triple.bind
  · refine (triple_open stable_before (R := fun _ => s.Before) (fun _ => stable_before)
      (fun _ _ hw => hw) fun _ _ hw _ => hw).mapError fun error w hw => hw.safe a ?_
    intro digest h
    split_ifs at h
  intro archiveFile
  apply of_pre
  intro hpath
  apply Prog.Triple.bind
  · exact triple_failing a _ (triple_open stable_before stable_opened (fun _ _ hw => hw.1)
      fun _ _ => opened_of_get)
  intro sourceFile
  obtain ⟨path, source⟩ := sourceFile
  apply of_pre
  intro hsource
  subst hsource
  have hopened : s.Stable (s.Opened source) := stable_opened source
  have hsafe : ∀ outcome w, s.Opened source w → (∀ digest, outcome ≠ .deleted digest) →
      s.Safe a outcome w := fun outcome w hw hne => hw.1.safe a hne
  apply Prog.Triple.bind
  · exact triple_failing a _ ((triple_hashArchive a hopened archiveFile).mono (fun _ hw => hw)
      (fun _ _ hw => hw) fun _ _ hw => hw.1)
  intro archivedDigest
  apply of_pre
  intro harchived
  apply Prog.Triple.bind
  · exact triple_failing a _ ((triple_hashFile a hopened ⟨_, source⟩).mono (fun _ hw => hw)
      (fun _ _ hw => hw) fun _ _ hw => hw.1)
  intro sourceDigest
  apply of_pre
  intro hdigest
  apply Prog.Triple.bind (Q := fun _ w => sourceDigest = archivedDigest ∧ s.Opened source w)
  · refine Prog.Triple.rejectIf (fun _ w hw => hsafe _ w hw fun digest h => by cases h)
      fun heq w hw => ⟨not_not.mp heq, hw⟩
  intro _
  apply of_pre
  intro heq
  -- the source has the contents of the archive
  have hcontent : a.decompress (a.content archiveFile.file) = .ok (a.content source) := by
    obtain ⟨bytes, hbytes, hsum⟩ := harchived
    rw [hdigest, hsum] at heq
    rw [hbytes, hsha _ _ _ hbytes heq]
  apply Prog.Triple.bind (Q := fun _ => s.Opened source)
  · exact Prog.Triple.rejectIf (fun _ w hw => hsafe _ w hw fun digest h => by cases h)
      fun _ w hw => hw
  intro _
  apply Prog.Triple.bind (Q := fun _ => s.Opened source)
  · exact triple_failing a _ ((triple_hashArchive a hopened archiveFile).mono (fun _ hw => hw)
      (fun _ _ hw => hw.2) fun _ _ hw => hw.1)
  intro _
  apply Prog.Triple.bind (Q := fun _ => s.Opened source)
  · exact Prog.Triple.rejectIf (fun _ w hw => hsafe _ w hw fun digest h => by cases h)
      fun _ w hw => hw
  intro _
  apply Prog.Triple.bind (Q := fun _ => s.Opened source)
  · exact triple_failing a _ ((triple_hashFile a hopened ⟨_, source⟩).mono (fun _ hw => hw)
      (fun _ _ hw => hw.2) fun _ _ hw => hw.1)
  intro _
  apply Prog.Triple.bind (Q := fun _ => s.Opened source)
  · exact Prog.Triple.rejectIf (fun _ w hw => hsafe _ w hw fun digest h => by cases h)
      fun _ w hw => hw
  intro _
  apply Prog.Triple.bind (Q := fun _ => s.Verified archiveFile.file source)
  · apply triple_failing a _
    exact (triple_revalidateOpenedFile hopened (stable_verified archiveFile.file source)
      (fun w hw => hw.opened) fun w hw hget => verified_of_get hw (hpath ▸ hget)).mono
      (fun _ hw => hw) (fun _ _ hw => hw) fun _ _ hw => hw.1
  intro _
  apply Prog.Triple.bind (Q := fun _ => s.Deleted archiveFile.file source)
  · exact (triple_removeStableFile a hspares fuel).mapError fun error w hw => hw.safe a _
  intro _
  apply Prog.Triple.pure
  intro w hw
  refine ⟨fun _ _ => ⟨source, archiveFile.file, hw.1, hw.2.1, hcontent⟩, fun hnone => ?_,
    fun hne => absurd rfl (hne _)⟩
  rcases hw.2.2 hnone with hdb | hn
  · exact Or.inl hdb
  · exact Or.inr (Or.inr ⟨_, rfl, by rw [hw.1, hn]⟩)

/-- **Pruning loses nothing that was not archived.** -/
theorem prune_safe (hspares : s.Spares schedule) (hsha : CollisionFree a) (fuel sequence : Nat)
    (commit : Bool) :
    s.Safe a (prune a schedule fuel s.db s.archive commit (s.start sequence)).1
      (prune a schedule fuel s.db s.archive commit (s.start sequence)).2 := by
  have h := triple_pruneRequestDb a hspares hsha fuel commit ⟨s.start sequence, 0⟩
    ⟨rfl, Or.inl ⟨rfl, rfl⟩⟩
  rw [prune]
  cases hrun : (pruneRequestDb (schedule.environment s.db) a fuel s.db s.archive commit).outcome
      ⟨s.start sequence, 0⟩ with
  | mk outcome w =>
    rw [hrun] at h
    cases outcome with
    | ok outcome => exact h
    | error outcome => exact h

/-! ## Replacements -/

/-- A source and its archive, and a file that is to replace the source. -/
def exampleScene (aside : String) (h : aside ≠ "d.db") : Scene where
  dir := [(⟨"r", "d.db"⟩, .file 0), (⟨"r", "d.db.xz"⟩, .file 1)]
  db := ⟨"r", "d.db"⟩
  archive := ⟨"r", "d.db.xz"⟩
  aside := ⟨"r", aside⟩
  original := 0
  replacing := 2
  get_db := rfl
  fresh p hp := by
    have hmem := BTreeMap.mem_of_get hp
    simp at hmem
  archive_ne := by decide
  aside_ne hname := h (congrArg FilePath.name hname).symm

/-- Every file has the contents of the archive but those in `others`. -/
def exampleArchives (others : List Inode) : Archives where
  sha256 bytes := bytes
  decompress bytes := .ok bytes
  content i := if i ∈ others then [7] else [1]
  pid := 5

/-- The replacement is made before an operation, and some operations fail. -/
def before (o : FileOp) (fails : FileOp → Bool) : Schedule where
  replaces _ o' := o' = o
  fails _ o' := if fails o' then some "Permission denied (os error 13)" else none

/-- A replacement with other contents survives. -/
theorem prune_safe_moved :
    (exampleScene "moved.db" (by decide)).Safe (exampleArchives [2])
      (prune (exampleArchives [2]) (before .cloneHandle fun _ => false) 4 ⟨"r", "d.db"⟩
        ⟨"r", "d.db.xz"⟩ true ((exampleScene "moved.db" (by decide)).start 0)).1
      (prune (exampleArchives [2]) (before .cloneHandle fun _ => false) 4 ⟨"r", "d.db"⟩
        ⟨"r", "d.db.xz"⟩ true ((exampleScene "moved.db" (by decide)).start 0)).2 := by
  refine prune_safe (exampleArchives [2]) ⟨?_, ?_⟩ ?_ 4 0 true
  · exact fun _ _ => rfl
  · exact fun _ => rfl
  · exact fun _ _ _ _ h => h

/-- **A replacement that is made before the source is opened, and has its contents, is deleted.** -/
theorem replacing_deleted :
    let s := exampleScene "moved.db" (by decide)
    let result := prune (exampleArchives [])
      (before (.openFile s.db) fun _ => false) 4 s.db s.archive true (s.start 0)
    result.1 = .deleted "01" ∧ result.2.replacement = none ∧
      (result.2.dir.any fun e => e.2 = .file s.replacing) = false := by
  decide +kernel

/-- A replacement that renames the original to the quarantine, right before the source is renamed
to it: the original is lost, and the pruning fails. -/
theorem original_lost :
    let s := exampleScene ".d.db.prune-5-0.tmp" (by decide)
    let result := prune (exampleArchives [2])
      (before (.rename s.db s.aside) fun _ => false) 4 s.db s.archive true (s.start 0)
    (∀ digest, result.1 ≠ .deleted digest) ∧
      (result.2.dir.any fun e => e.2 = .file s.original) = false := by
  refine ⟨?_, by decide +kernel⟩
  intro digest h
  have hfailed : (prune (exampleArchives [2]) (before (.rename ⟨"r", "d.db"⟩
      ⟨"r", ".d.db.prune-5-0.tmp"⟩) fun _ => false) 4 ⟨"r", "d.db"⟩ ⟨"r", "d.db.xz"⟩ true
        ((exampleScene ".d.db.prune-5-0.tmp" (by decide)).start 0)).1 =
      .failed ("delete verified request database r/d.db: r/.d.db.prune-5-0.tmp " ++
        "changed while it was being opened or used") := by
    decide +kernel
  cases hfailed.symm.trans h

/-- A source that cannot be removed is renamed back, over a file that was created at its path right
before. -/
theorem replacing_lost :
    let s := exampleScene "moved.db" (by decide)
    let result := prune (exampleArchives [2])
      (before (.rename ⟨"r", ".d.db.prune-5-0.tmp"⟩ s.db)
        fun o => o = .removeFile ⟨"r", ".d.db.prune-5-0.tmp"⟩) 4 s.db s.archive true (s.start 0)
    result.2.replacement = none ∧
      (result.2.dir.any fun e => e.2 = .file s.replacing) = false := by
  decide +kernel

end Scene

end Tokn.Persistence
