import Mathlib.Tactic

/-!
# A lossy broadcast channel, as one receiver sees it

Sending never waits. The channel keeps the last so many values, in a ring of slots; a receiver that
has fallen further behind is told how many it has missed, and goes on with the oldest value kept.
-/

namespace Tokn

/-- All values sent, and for each value the receiver has passed, whether it received it. -/
structure Broadcast (α : Type*) where
  sent : List α
  fates : List Bool
  deriving DecidableEq

/-- What the receiver gets. -/
inductive Received (α : Type*) where
  | value (a : α)
  | lagged (n : Nat)
  | empty

namespace Broadcast

variable {α : Type*}

/-- The values that were received, in order. -/
def zipReceived : List α → List Bool → List α
  | a :: as, true :: fates => a :: zipReceived as fates
  | _ :: as, false :: fates => zipReceived as fates
  | _, _ => []

def received (c : Broadcast α) : List α := zipReceived c.sent c.fates

/-- How many values were missed. -/
def missed (c : Broadcast α) : Nat := c.fates.count false

def send (c : Broadcast α) (a : α) : Broadcast α := { c with sent := c.sent ++ [a] }

/-- Is the value at a position still kept? -/
def Kept (slots : Nat) (c : Broadcast α) (position : Nat) : Prop :=
  c.sent.length ≤ position + slots

instance (slots : Nat) (c : Broadcast α) (position : Nat) : Decidable (c.Kept slots position) :=
  inferInstanceAs (Decidable (_ ≤ _))

def recv (slots : Nat) (c : Broadcast α) : Received α × Broadcast α :=
  if c.Kept slots c.fates.length then
    match c.sent[c.fates.length]? with
    | some a => (.value a, { c with fates := c.fates ++ [true] })
    | none => (.empty, c)
  else
    let n := c.sent.length - slots - c.fates.length
    (.lagged n, { c with fates := c.fates ++ List.replicate n false })

/-- The receiver has not passed what was not sent. -/
def Behind (c : Broadcast α) : Prop := c.fates.length ≤ c.sent.length

/-! ## What was received -/

variable (as : List α)

@[simp] theorem zipReceived_nil : zipReceived as [] = [] := by cases as <;> rfl

theorem zipReceived_sublist (fates : List Bool) : (zipReceived as fates).Sublist as := by
  induction as generalizing fates with
  | nil => cases fates <;> exact List.Sublist.refl _
  | cons a as ih =>
    cases fates with
    | nil => exact List.nil_sublist _
    | cons b fates =>
      cases b with
      | true => exact (ih fates).cons_cons a
      | false => exact (ih fates).cons a

/-- Values are received in the order they were sent. -/
theorem received_sublist (c : Broadcast α) : c.received.Sublist c.sent :=
  zipReceived_sublist c.sent c.fates

theorem zipReceived_append_left {as : List α} {fates : List Bool} (h : fates.length ≤ as.length)
    (bs : List α) : zipReceived (as ++ bs) fates = zipReceived as fates := by
  induction as generalizing fates with
  | nil =>
    have hf : fates = [] := List.length_eq_zero_iff.mp (Nat.le_zero.mp h)
    rw [hf]
    cases bs <;> rfl
  | cons a as ih =>
    cases fates with
    | nil => rfl
    | cons b fates =>
      have hlen := Nat.le_of_succ_le_succ h
      cases b with
      | true => exact congrArg (a :: ·) (ih hlen)
      | false => exact ih hlen

theorem zipReceived_append_right (fates more : List Bool) :
    zipReceived as (fates ++ more) =
      zipReceived as fates ++ zipReceived (as.drop fates.length) more := by
  induction as generalizing fates with
  | nil => cases fates <;> cases more <;> rfl
  | cons a as ih =>
    cases fates with
    | nil => rfl
    | cons b fates =>
      cases b with
      | true => exact congrArg (a :: ·) (ih fates)
      | false => exact ih fates

theorem zipReceived_replicate_false (n : Nat) : zipReceived as (List.replicate n false) = [] := by
  induction n generalizing as with
  | zero => cases as <;> rfl
  | succ n ih =>
    cases as with
    | nil => rfl
    | cons a as => exact ih as

@[simp] theorem received_send {c : Broadcast α} (h : c.Behind) (a : α) :
    (c.send a).received = c.received := zipReceived_append_left h [a]

@[simp] theorem missed_send (c : Broadcast α) (a : α) : (c.send a).missed = c.missed := rfl

theorem Behind.send {c : Broadcast α} (h : c.Behind) (a : α) : (c.send a).Behind := by
  show c.fates.length ≤ (c.sent ++ [a]).length
  rw [List.length_append]
  exact Nat.le_add_right_of_le h

/-! ## What the receiver gets -/

/-- **What a receive does.** -/
theorem recv_cases {slots : Nat} {c c' : Broadcast α} {r : Received α} (hc : c.Behind)
    (h : c.recv slots = (r, c')) :
    c'.sent = c.sent ∧ c'.Behind ∧
      ((∃ a, r = .value a ∧ c'.received = c.received ++ [a] ∧ c'.missed = c.missed) ∨
        (∃ n, r = .lagged n ∧ c'.received = c.received ∧ c'.missed = c.missed + n) ∨
        r = .empty ∧ c' = c) := by
  rw [recv] at h
  split_ifs at h with hkept
  · cases ha : c.sent[c.fates.length]? with
    | none =>
      rw [ha] at h
      obtain ⟨rfl, rfl⟩ := Prod.mk.inj h
      exact ⟨rfl, hc, Or.inr (Or.inr ⟨rfl, rfl⟩)⟩
    | some a =>
      rw [ha] at h
      obtain ⟨rfl, rfl⟩ := Prod.mk.inj h
      obtain ⟨hlt, hget⟩ := List.getElem?_eq_some_iff.mp ha
      refine ⟨rfl, ?_, Or.inl ⟨a, rfl, ?_, ?_⟩⟩
      · show (c.fates ++ [true]).length ≤ c.sent.length
        rw [List.length_append]
        exact hlt
      · show zipReceived c.sent (c.fates ++ [true]) = _
        rw [zipReceived_append_right, List.drop_eq_getElem_cons hlt, hget]
        show _ ++ a :: zipReceived _ [] = _
        rw [zipReceived_nil]
        rfl
      · show (c.fates ++ [true]).count false = c.fates.count false
        rw [List.count_append]
        rfl
  · obtain ⟨rfl, rfl⟩ := Prod.mk.inj h
    rw [Kept] at hkept
    refine ⟨rfl, ?_, Or.inr (Or.inl ⟨_, rfl, ?_, ?_⟩)⟩
    · show (c.fates ++ List.replicate _ false).length ≤ c.sent.length
      rw [List.length_append, List.length_replicate]
      omega
    · show zipReceived c.sent (c.fates ++ List.replicate _ false) = _
      rw [zipReceived_append_right, zipReceived_replicate_false, List.append_nil]
      rfl
    · show (c.fates ++ List.replicate _ false).count false = _
      rw [List.count_append, List.count_replicate_self]
      rfl

end Broadcast

end Tokn
