import Mathlib.Data.List.TakeWhile
import Mathlib.Tactic

/-!
# Ordered multimaps

Any number of values for each key, where all entries have one order and each keeps the spelling that
its key was given in. `run` is any sequence of changes.
-/

namespace Tokn

/-- A value, with its key and the spelling of it. -/
structure Entry (κ σ ν : Type*) where
  key : κ
  spelling : σ
  value : ν
  deriving DecidableEq

abbrev Multimap (κ σ ν : Type*) := List (Entry κ σ ν)

namespace Multimap

variable {κ σ ν : Type*} [DecidableEq κ]

def entriesOf (m : Multimap κ σ ν) (k : κ) : Multimap κ σ ν := m.filter fun e => e.key = k

/-- The entries of all other keys. -/
def remove (m : Multimap κ σ ν) (k : κ) : Multimap κ σ ν := m.filter fun e => e.key ≠ k

/-- The values of a key, in order. -/
def getAll (m : Multimap κ σ ν) (k : κ) : List ν := (m.entriesOf k).map Entry.value

/-- The spelling of the first entry of a key. -/
def spelling (m : Multimap κ σ ν) (k : κ) : Option σ := (m.entriesOf k).head?.map Entry.spelling

/-- The one entry of a key, in the place and the spelling of the first one before, or at the end. -/
def insert (m : Multimap κ σ ν) (e : Entry κ σ ν) : Multimap κ σ ν :=
  match m.dropWhile fun o => o.key ≠ e.key with
  | [] => m ++ [e]
  | first :: after =>
    (m.takeWhile fun o => o.key ≠ e.key) ++ { first with value := e.value } :: remove after e.key

/-- The entries of another map, in place of all entries of its keys. -/
def mergeReplacing (m other : Multimap κ σ ν) : Multimap κ σ ν :=
  (m.filter fun e => e.key ∉ other.map Entry.key) ++ other

/-- A change of a map. -/
inductive Change (κ σ ν : Type*) where
  | insert (e : Entry κ σ ν)
  | append (e : Entry κ σ ν)
  | remove (k : κ)
  | extend (other : Multimap κ σ ν)
  | mergeReplacing (other : Multimap κ σ ν)

def apply (m : Multimap κ σ ν) : Change κ σ ν → Multimap κ σ ν
  | .insert e => m.insert e
  | .append e => m ++ [e]
  | .remove k => m.remove k
  | .extend other => m ++ other
  | .mergeReplacing other => m.mergeReplacing other

def run (m : Multimap κ σ ν) (changes : List (Change κ σ ν)) : Multimap κ σ ν :=
  changes.foldl apply m

/-! ## Inserting -/

theorem insert_of_forall_ne {m : Multimap κ σ ν} {e : Entry κ σ ν}
    (h : ∀ o ∈ m, o.key ≠ e.key) : m.insert e = m ++ [e] := by
  have hdrop : (m.dropWhile fun o => o.key ≠ e.key) = [] := by
    rw [List.dropWhile_eq_nil_iff]
    exact fun o ho => decide_eq_true (h o ho)
  rw [insert, hdrop]

theorem insert_append_cons {before after : Multimap κ σ ν} {e first : Entry κ σ ν}
    (h : ∀ o ∈ before, o.key ≠ e.key) (hfirst : first.key = e.key) :
    insert (before ++ first :: after) e =
      before ++ { first with value := e.value } :: remove after e.key := by
  have hbefore : ∀ o ∈ before, decide (o.key ≠ e.key) = true := fun o ho => decide_eq_true (h o ho)
  rw [insert, List.dropWhile_append_of_pos hbefore, List.takeWhile_append_of_pos hbefore,
    List.dropWhile_cons_of_neg (by simp [hfirst]), List.takeWhile_cons_of_neg (by simp [hfirst]),
    List.append_nil]

variable (m : Multimap κ σ ν)

/-- Where the key of an entry is first in a map. -/
theorem forall_ne_or_exists_first (k : κ) :
    (∀ o ∈ m, o.key ≠ k) ∨ ∃ before first after, m = before ++ first :: after ∧
      (∀ o ∈ before, o.key ≠ k) ∧ first.key = k := by
  induction m with
  | nil => exact Or.inl (by simp)
  | cons o m ih =>
    by_cases ho : o.key = k
    · exact Or.inr ⟨[], o, m, rfl, by simp, ho⟩
    · obtain h | ⟨before, first, after, rfl, hbefore, hfirst⟩ := ih
      · exact Or.inl (List.forall_mem_cons.mpr ⟨ho, h⟩)
      · exact Or.inr ⟨o :: before, first, after, rfl, List.forall_mem_cons.mpr ⟨ho, hbefore⟩,
          hfirst⟩

theorem entriesOf_eq_nil {m : Multimap κ σ ν} {k : κ} (h : ∀ o ∈ m, o.key ≠ k) :
    m.entriesOf k = [] := by
  rw [entriesOf, List.filter_eq_nil_iff]
  intro o hmem
  have hne := h o hmem
  simp [hne]

theorem entriesOf_remove_self (k : κ) : (m.remove k).entriesOf k = [] :=
  entriesOf_eq_nil fun _ ho => of_decide_eq_true (List.mem_filter.mp ho).2

/-- After an insertion there is one entry of the key. -/
theorem entriesOf_insert_self (e : Entry κ σ ν) :
    (m.insert e).entriesOf e.key =
      [{ e with spelling := (m.spelling e.key).getD e.spelling }] := by
  obtain h | ⟨before, first, after, rfl, hbefore, hfirst⟩ := m.forall_ne_or_exists_first e.key
  · have hspelling : m.spelling e.key = none := by rw [spelling, entriesOf_eq_nil h]; rfl
    rw [insert_of_forall_ne h, hspelling, entriesOf, List.filter_append, ← entriesOf,
      entriesOf_eq_nil h]
    simp
  · have hspelling : spelling (before ++ first :: after) e.key = some first.spelling := by
      rw [spelling, entriesOf, List.filter_append, ← entriesOf, entriesOf_eq_nil hbefore]
      simp [hfirst]
    have hafter := entriesOf_remove_self after e.key
    rw [entriesOf] at hafter
    rw [insert_append_cons hbefore hfirst, hspelling, entriesOf, List.filter_append, ← entriesOf,
      entriesOf_eq_nil hbefore, List.nil_append, List.filter_cons_of_pos (by simp [hfirst]), hafter,
      Option.getD_some, ← hfirst]

theorem remove_append_cons {before after : Multimap κ σ ν} {first : Entry κ σ ν} {k : κ}
    (h : first.key = k) : remove (before ++ first :: after) k = before.remove k ++ after.remove k := by
  rw [remove, List.filter_append, List.filter_cons_of_neg (by simp [h])]
  rfl

theorem remove_remove (k : κ) : (m.remove k).remove k = m.remove k := by
  rw [remove, remove, List.filter_filter]
  simp only [Bool.and_self]

/-- An insertion leaves all entries of other keys as they are. -/
theorem remove_insert (e : Entry κ σ ν) : (m.insert e).remove e.key = m.remove e.key := by
  obtain h | ⟨before, first, after, rfl, hbefore, hfirst⟩ := m.forall_ne_or_exists_first e.key
  · rw [insert_of_forall_ne h, remove_append_cons rfl]
    exact List.append_nil _
  · have hreplaced : ({ first with value := e.value } : Entry κ σ ν).key = e.key := hfirst
    rw [insert_append_cons hbefore hfirst, remove_append_cons hreplaced, remove_append_cons hfirst,
      remove_remove]

/-- The values of a key after an insertion. -/
theorem getAll_insert (e : Entry κ σ ν) (k : κ) :
    (m.insert e).getAll k = if e.key = k then [e.value] else m.getAll k := by
  by_cases hk : e.key = k
  · subst hk
    rw [if_pos rfl, getAll, entriesOf_insert_self]
    rfl
  · have hother (m : Multimap κ σ ν) : (m.remove e.key).entriesOf k = m.entriesOf k := by
      rw [remove, entriesOf, entriesOf, List.filter_filter]
      refine List.filter_congr fun o _ => ?_
      by_cases ho : o.key = k
      · simp [ho, Ne.symm hk]
      · simp [ho]
    rw [if_neg hk, getAll, ← hother, remove_insert, hother, getAll]

/-- An insertion leaves what is before the first entry of the key as it is. -/
theorem takeWhile_insert (e : Entry κ σ ν) :
    ((m.insert e).takeWhile fun o => o.key ≠ e.key) = m.takeWhile fun o => o.key ≠ e.key := by
  obtain h | ⟨before, first, after, rfl, hbefore, hfirst⟩ := m.forall_ne_or_exists_first e.key
  · have hm : ∀ o ∈ m, decide (o.key ≠ e.key) = true := fun o ho => decide_eq_true (h o ho)
    rw [insert_of_forall_ne h, List.takeWhile_append_of_pos hm,
      List.takeWhile_cons_of_neg (by simp), List.append_nil, List.takeWhile_eq_self_iff.mpr hm]
  · have hpos : ∀ o ∈ before, decide (o.key ≠ e.key) = true :=
      fun o ho => decide_eq_true (hbefore o ho)
    rw [insert_append_cons hbefore hfirst, List.takeWhile_append_of_pos hpos,
      List.takeWhile_append_of_pos hpos, List.takeWhile_cons_of_neg (by simp [hfirst]),
      List.takeWhile_cons_of_neg (by simp [hfirst])]

/-! ## Gathering -/

/-- What the entries of one key are gathered to: the spelling of the first, and all values. -/
def gather : Multimap κ σ ν → Option (σ × List ν)
  | [] => none
  | e :: m => some (e.spelling, e.value :: m.map Entry.value)

omit [DecidableEq κ] in
theorem gather_append_singleton (e : Entry κ σ ν) :
    gather (m ++ [e]) =
      some ((gather m).elim (e.spelling, [e.value]) fun g => (g.1, g.2 ++ [e.value])) := by
  cases m with
  | nil => rfl
  | cons o m => simp [gather]

theorem getAll_eq_gather (k : κ) :
    m.getAll k = ((gather (m.entriesOf k)).map Prod.snd).getD [] := by
  rw [getAll]
  cases m.entriesOf k <;> rfl

theorem spelling_eq_gather (k : κ) : m.spelling k = (gather (m.entriesOf k)).map Prod.fst := by
  rw [spelling]
  cases m.entriesOf k <;> rfl

end Multimap

end Tokn
