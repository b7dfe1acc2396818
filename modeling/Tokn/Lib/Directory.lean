import Tokn.Lib.Table

/-!
# Directories

A directory names inodes. A file is there as long as a name refers to its inode; renaming puts a
name in the place of whatever had the new name before.
-/

namespace Tokn

abbrev Inode := Nat

/-- What a name refers to. -/
inductive Node where
  | file (inode : Inode)
  | symlink
  | directory
  deriving DecidableEq

abbrev Directory (π : Type) := Table π Node

namespace Directory

variable {π : Type} [DecidableEq π]

/-- The number of names of a file. -/
def links (d : Directory π) (i : Inode) : Nat := (d.filter fun e => e.2 = .file i).length

/-- Put the node of `src` at `dst`. -/
def move (d : Directory π) (src dst : π) (node : Node) : Directory π :=
  Table.set (d.erase src) dst node

/-- `rename`. It does nothing if both names are of one file, and fails if there is nothing to
rename, or a directory at the new name. -/
def rename (d : Directory π) (src dst : π) : Option (Directory π) :=
  match d.get src with
  | none => none
  | some node =>
    match d.get dst with
    | some .directory => none
    | some .symlink => some (d.move src dst node)
    | some (.file i) => if node = .file i then some d else some (d.move src dst node)
    | none => some (d.move src dst node)

/-- `unlink`, with the file that lost the name. -/
def unlink (d : Directory π) (p : π) : Option (Option Inode × Directory π) :=
  match d.get p with
  | none => none
  | some .directory => none
  | some .symlink => some (none, d.erase p)
  | some (.file i) => some (some i, d.erase p)

/-- A file at `p` is renamed away, if there is one, and another is created in its place. -/
def replace (d : Directory π) (p aside : π) (i : Inode) : Directory π :=
  match d.get p with
  | none => Table.set d p (.file i)
  | some node => Table.set (d.move p aside node) p (.file i)

theorem get_move (d : Directory π) {src dst : π} (node : Node) (p : π) :
    (d.move src dst node).get p =
      if p = dst then some node else if p = src then none else d.get p := by
  rw [move, Table.get_set, BTreeMap.get_erase]

variable {d : Directory π}

/-- Renaming to a name that is not used. -/
theorem rename_of_free {src dst : π} {node : Node} (hsrc : d.get src = some node)
    (hdst : d.get dst = none) : d.rename src dst = some (d.move src dst node) := by
  rw [rename, hsrc, hdst]

theorem unlink_file {p : π} {i : Inode} (h : d.get p = some (.file i)) :
    d.unlink p = some (some i, d.erase p) := by
  rw [unlink, h]

theorem get_replace_of_none {p : π} (h : d.get p = none) (aside : π) (i : Inode) (q : π) :
    (d.replace p aside i).get q =
      if q = p then some (.file i) else d.get q := by
  rw [replace, h]
  exact Table.get_set ..

theorem get_replace {p aside : π} {node : Node} (h : d.get p = some node) (i : Inode) (q : π) :
    (d.replace p aside i).get q =
      if q = p then some (.file i) else if q = aside then some node else d.get q := by
  rw [replace, h]
  dsimp only
  rw [Table.get_set]
  by_cases hq : q = p
  · rw [if_pos hq, if_pos hq]
  · rw [if_neg hq, if_neg hq, get_move]
    by_cases hqa : q = aside
    · rw [if_pos hqa, if_pos hqa]
    · rw [if_neg hqa, if_neg hqa, if_neg hq]

end Directory

end Tokn
