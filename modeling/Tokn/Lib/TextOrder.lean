import Mathlib.Data.List.DropRight
import Mathlib.Data.String.Basic
import Mathlib.Tactic

/-!
# The order of texts

Texts are compared letter by letter, and a text comes before those that it is a prefix of. Numbers
of one width are in the order of their texts (`decimal_lt_iff`), also without the zeros at the end
(`rdropWhile_lt_rdropWhile`), which makes a fraction of them.

A letter at the end that is greater than all others turns the second rule around: a text then comes
after those that it is a prefix of (`append_cons_lt_iff`).
-/

namespace Tokn.TextOrder

variable {α : Type*} [LinearOrder α]

/-! ## Parts of a text -/

/-- Two texts of one length decide first. -/
theorem append_lt_append_iff {a b x y : List α} (h : a.length = b.length) :
    a ++ x < b ++ y ↔ a < b ∨ a = b ∧ x < y := by
  induction a generalizing b with
  | nil =>
    obtain rfl := List.length_eq_zero_iff.mp h.symm
    simp
  | cons c a ih =>
    obtain ⟨d, b, rfl⟩ := List.exists_cons_of_length_eq_add_one h.symm
    rw [List.cons_append, List.cons_append, List.cons_lt_cons_iff, List.cons_lt_cons_iff,
      ih (Nat.succ.inj h), List.cons.injEq]
    tauto

/-- **A greatest letter at the end.** -/
theorem append_cons_lt_iff {z : α} {a b x y : List α} (hab : a < b) (hb : ∀ c ∈ b, c < z) :
    a ++ z :: x < b ++ z :: y ↔ ¬a <+: b := by
  induction a generalizing b with
  | nil =>
    cases b with
    | nil => exact absurd hab (List.not_lt_nil _)
    | cons d b =>
      have hd := hb d List.mem_cons_self
      rw [List.nil_append, List.cons_append, List.cons_lt_cons_iff]
      refine iff_of_false ?_ (not_not_intro (List.nil_prefix))
      rintro (hlt | ⟨heq, -⟩)
      · exact lt_asymm hlt hd
      · exact hd.ne heq.symm
  | cons c a ih =>
    cases b with
    | nil => exact absurd hab (List.not_lt_nil _)
    | cons d b =>
      rw [List.cons_append, List.cons_append, List.cons_lt_cons_iff, List.cons_prefix_cons]
      rcases List.cons_lt_cons_iff.mp hab with hlt | ⟨rfl, hrest⟩
      · exact iff_of_true (Or.inl hlt) fun h => hlt.ne h.1
      · rw [ih hrest fun c hc => hb c (List.mem_cons_of_mem _ hc)]
        simp

/-! ## Letters that are dropped at the end -/

omit [LinearOrder α] in
theorem rdropWhile_cons (p : α → Bool) (c : α) (a : List α) :
    (c :: a).rdropWhile p =
      if a.rdropWhile p = [] ∧ p c = true then [] else c :: a.rdropWhile p := by
  induction a using List.reverseRecOn with
  | nil => by_cases h : p c = true <;> simp [List.rdropWhile, h]
  | append_singleton a d ih =>
    rw [← List.cons_append, List.rdropWhile_concat, List.rdropWhile_concat]
    by_cases h : p d = true
    · rw [if_pos h, if_pos h, ih]
    · rw [if_neg h, if_neg h, if_neg (by simp)]
      rfl

/-- **Texts of one length without the least letters at their ends.** -/
theorem rdropWhile_lt_rdropWhile {z : α} {a b : List α} (hab : a < b) (hlen : a.length = b.length)
    (ha : ∀ c ∈ a, z ≤ c) :
    a.rdropWhile (fun c => c = z) < b.rdropWhile (fun c => c = z) := by
  induction a generalizing b with
  | nil =>
    obtain rfl := List.length_eq_zero_iff.mp hlen.symm
    exact absurd hab (List.not_lt_nil _)
  | cons c a ih =>
    obtain ⟨d, b, rfl⟩ := List.exists_cons_of_length_eq_add_one hlen.symm
    have hc := ha c List.mem_cons_self
    rw [rdropWhile_cons, rdropWhile_cons]
    rcases List.cons_lt_cons_iff.mp hab with hlt | ⟨rfl, hrest⟩
    · have hd : ¬d = z := (hc.trans_lt hlt).ne'
      rw [if_neg (c := _ ∧ decide (d = z) = true) (by simp [hd])]
      split_ifs
      · exact List.nil_lt_cons _ _
      · exact List.cons_lt_cons_iff.mpr (Or.inl hlt)
    · have hlt := ih hrest (Nat.succ.inj hlen) fun c hc => ha c (List.mem_cons_of_mem _ hc)
      have hne : b.rdropWhile (fun c => decide (c = z)) ≠ [] := by
        intro hnil
        rw [hnil] at hlt
        exact List.not_lt_nil _ hlt
      rw [if_neg (c := b.rdropWhile (fun c => decide (c = z)) = [] ∧ _) fun h => hne h.1]
      split_ifs
      · exact List.nil_lt_cons _ _
      · exact List.cons_lt_cons_iff.mpr (Or.inr ⟨rfl, hlt⟩)

/-! ## Numbers of one width -/

/-- The last digits of a number. -/
def decimal : Nat → Nat → List Char
  | 0, _ => []
  | width + 1, n => decimal width (n / 10) ++ [Nat.digitChar (n % 10)]

@[simp] theorem length_decimal (width n : Nat) : (decimal width n).length = width := by
  induction width generalizing n with
  | zero => rfl
  | succ width ih => rw [decimal, List.length_append, ih, List.length_singleton]

theorem digitChar_lt_iff {m n : Nat} (hm : m < 10) (hn : n < 10) :
    Nat.digitChar m < Nat.digitChar n ↔ m < n := by
  have hall : ∀ m < 10, ∀ n < 10, (Nat.digitChar m < Nat.digitChar n ↔ m < n) := by decide
  exact hall m hm n hn

/-- All letters of a number are digits. -/
theorem digit_of_mem_decimal {width n : Nat} {c : Char} (h : c ∈ decimal width n) :
    '0' ≤ c ∧ c ≤ '9' := by
  have hall : ∀ d < 10, '0' ≤ Nat.digitChar d ∧ Nat.digitChar d ≤ '9' := by decide
  induction width generalizing n with
  | zero => cases h
  | succ width ih =>
    rcases List.mem_append.mp h with h | h
    · exact ih h
    · rw [List.mem_singleton.mp h]
      exact hall _ (Nat.mod_lt _ (by decide))

/-- **The order of numbers.** -/
theorem decimal_lt_iff {width m n : Nat} (hm : m < 10 ^ width) (hn : n < 10 ^ width) :
    decimal width m < decimal width n ↔ m < n := by
  induction width generalizing m n with
  | zero =>
    rw [Nat.lt_one_iff.mp hm, Nat.lt_one_iff.mp hn]
    exact iff_of_false (List.not_lt_nil _) (Nat.lt_irrefl _)
  | succ width ih =>
    have hlt {m n : Nat} (hm : m < 10 ^ (width + 1)) (hn : n < 10 ^ (width + 1)) :=
      @ih (m / 10) (n / 10) (Nat.div_lt_of_lt_mul (by omega)) (Nat.div_lt_of_lt_mul (by omega))
    have heq : decimal width (m / 10) = decimal width (n / 10) ↔ m / 10 = n / 10 := by
      refine ⟨fun h => ?_, fun h => congrArg _ h⟩
      refine Nat.le_antisymm (Nat.le_of_not_lt fun hl => ?_) (Nat.le_of_not_lt fun hl => ?_)
      · exact ((hlt hn hm).mpr hl).ne h.symm
      · exact ((hlt hm hn).mpr hl).ne h
    have hdigit := digitChar_lt_iff (Nat.mod_lt m (by decide : 0 < 10))
      (Nat.mod_lt n (by decide : 0 < 10))
    rw [decimal, decimal, append_lt_append_iff (by simp), hlt hm hn, heq, List.cons_lt_cons_iff,
      hdigit]
    simp only [List.lt_irrefl, and_false, or_false]
    omega

theorem decimal_inj {width m n : Nat} (hm : m < 10 ^ width) (hn : n < 10 ^ width) :
    decimal width m = decimal width n ↔ m = n := by
  refine ⟨fun h => ?_, fun h => congrArg _ h⟩
  refine Nat.le_antisymm (Nat.le_of_not_lt fun hl => ?_) (Nat.le_of_not_lt fun hl => ?_)
  · exact ((decimal_lt_iff hn hm).mpr hl).ne h.symm
  · exact ((decimal_lt_iff hm hn).mpr hl).ne h

end Tokn.TextOrder
