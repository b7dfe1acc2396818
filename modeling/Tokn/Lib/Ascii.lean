import Tokn.Lib.Str

/-!
# ASCII letters and digits

Lower case, digits of a radix and the ways of cutting a text at a character, with what becomes of
each under a change of letter case.
-/

namespace Tokn.Ascii

/-! ## Characters -/

variable {text : List Char} {c a : Char}

/-- What is decided of the characters of a text one by one. -/
theorem forall_mem_of_all {p : Char → Prop} [DecidablePred p]
    (h : (text.all fun c => decide (p c)) = true) : ∀ c ∈ text, p c := by
  intro c hc
  exact of_decide_eq_true (List.all_eq_true.mp h c hc)

theorem toNat_toLower (c : Char) :
    c.toLower.toNat = if 65 ≤ c.toNat ∧ c.toNat ≤ 90 then c.toNat + 32 else c.toNat := by
  by_cases h : 65 ≤ c.toNat ∧ c.toNat ≤ 90
  · have hval : c.val ≥ 'A'.val ∧ c.val ≤ 'Z'.val := h
    have hsum : (c.val + ('a'.val - 'A'.val)).toNat = c.toNat + 32 := by
      rw [UInt32.toNat_add]
      have hc : c.val.toNat = c.toNat := rfl
      have hd : ('a'.val - 'A'.val).toNat = 32 := rfl
      rw [hc, hd]
      omega
    have hlower : c.toLower = ⟨c.val + ('a'.val - 'A'.val), _⟩ := dif_pos hval
    rw [if_pos h, hlower]
    exact hsum
  · have hval : ¬ (c.val ≥ 'A'.val ∧ c.val ≤ 'Z'.val) := h
    have hlower : c.toLower = c := dif_neg hval
    rw [if_neg h, hlower]

theorem toLower_toLower (c : Char) : c.toLower.toLower = c.toLower := by
  apply Char.toNat_inj.mp
  rw [toNat_toLower c.toLower, toNat_toLower c]
  split_ifs <;> omega

/-- A character that is no letter is the lower case of itself only. -/
theorem isLower_eq_false_iff : c.isLower = false ↔ c.toNat < 97 ∨ 122 < c.toNat := by
  have hlower : c.isLower = (decide (c.val ≥ 'a'.val) && decide (c.val ≤ 'z'.val)) := rfl
  rw [Bool.eq_false_iff, ne_eq, hlower, Bool.and_eq_true, decide_eq_true_eq, decide_eq_true_eq]
  change ¬ (97 ≤ c.toNat ∧ c.toNat ≤ 122) ↔ _
  omega

theorem toLower_inj {d : Char} (hc : c.isLower = false) (hd : d.isLower = false)
    (h : c.toLower = d.toLower) : c = d := by
  rw [isLower_eq_false_iff] at hc hd
  have hnat := congrArg Char.toNat h
  rw [toNat_toLower, toNat_toLower] at hnat
  apply Char.toNat_inj.mp
  split_ifs at hnat <;> omega

theorem toLower_eq_iff (ha : a.toNat < 65 ∨ 90 < a.toNat ∧ a.toNat < 97 ∨ 122 < a.toNat) :
    c.toLower = a ↔ c = a := by
  rw [← Char.toNat_inj, ← Char.toNat_inj, toNat_toLower]
  split_ifs <;> omega

theorem isDigit_iff : c.isDigit = true ↔ 48 ≤ c.toNat ∧ c.toNat ≤ 57 := by
  rw [Char.isDigit, Bool.and_eq_true, decide_eq_true_eq, decide_eq_true_eq]
  exact Iff.rfl

/-- What is no letter in lower case is no letter. -/
theorem toLower_eq_self (h : c.toLower.toNat < 97 ∨ 122 < c.toLower.toNat) : c.toLower = c := by
  rw [toNat_toLower] at h
  rw [← Char.toNat_inj, toNat_toLower]
  split_ifs at h ⊢ <;> omega

/-- `is_ascii_alphanumeric`. -/
def isAlphanumeric (c : Char) : Bool :=
  48 ≤ c.toNat && c.toNat ≤ 57 || 65 ≤ c.toNat && c.toNat ≤ 90 || 97 ≤ c.toNat && c.toNat ≤ 122

theorem isAlphanumeric_toLower (c : Char) : isAlphanumeric c.toLower = isAlphanumeric c := by
  rw [Bool.eq_iff_iff]
  simp only [isAlphanumeric, Bool.or_eq_true, Bool.and_eq_true, decide_eq_true_eq, toNat_toLower]
  split_ifs <;> omega

theorem isDigit_toLower (c : Char) : c.toLower.isDigit = c.isDigit := by
  rw [Bool.eq_iff_iff, isDigit_iff, isDigit_iff, toNat_toLower]
  split_ifs <;> omega

/-- `to_digit`, for a radix of at most 36. -/
def toDigit (radix : Nat) (c : Char) : Option Nat :=
  let digit :=
    if 48 ≤ c.toNat ∧ c.toNat ≤ 57 then some (c.toNat - 48)
    else if 65 ≤ c.toNat ∧ c.toNat ≤ 90 then some (c.toNat - 55)
    else if 97 ≤ c.toNat ∧ c.toNat ≤ 122 then some (c.toNat - 87)
    else none
  digit.filter fun n => n < radix

theorem toDigit_toLower (radix : Nat) (c : Char) : toDigit radix c.toLower = toDigit radix c := by
  rw [toDigit, toDigit, toNat_toLower]
  congr 1
  split_ifs <;> first | rfl | omega

/-- `u64::from_str_radix`. -/
def u64FromStrRadix (text : List Char) (radix : Nat) : Option Nat :=
  let digits := if text.head? = some '+' then text.tail else text
  if digits = [] then none
  else
    digits.foldl
      (fun value c =>
        value.bind fun value => (toDigit radix c).bind fun digit =>
          if value * radix + digit < 2 ^ 64 then some (value * radix + digit) else none)
      (some 0)

/-- The number that digits write after a value, however large it gets. -/
def ofDigitsFrom (radix : Nat) : Nat → List Char → Option Nat
  | value, [] => some value
  | value, c :: digits =>
    (toDigit radix c).bind fun digit => ofDigitsFrom radix (value * radix + digit) digits

theorem isSome_ofDigitsFrom (radix value : Nat) (digits : List Char) :
    (ofDigitsFrom radix value digits).isSome = digits.all fun c => (toDigit radix c).isSome := by
  induction digits generalizing value with
  | nil => rfl
  | cons c digits ih =>
    rw [ofDigitsFrom, List.all_cons]
    cases toDigit radix c with
    | none => rfl
    | some digit => simp [ih]

theorem le_of_ofDigitsFrom {radix value n : Nat} (hradix : 0 < radix) {digits : List Char}
    (h : ofDigitsFrom radix value digits = some n) : value ≤ n := by
  induction digits generalizing value with
  | nil => exact (Option.some.inj h).le
  | cons c digits ih =>
    rw [ofDigitsFrom] at h
    obtain ⟨digit, -, hrest⟩ := Option.bind_eq_some_iff.mp h
    have hmul : value * 1 ≤ value * radix := Nat.mul_le_mul_left value hradix
    have hle := ih hrest
    omega

/-- `u64::from_str_radix` reads the digits of a number below `2 ^ 64`. -/
theorem u64FromStrRadix_eq {radix : Nat} (hradix : 0 < radix) {digits : List Char}
    (hne : digits ≠ []) (hplus : digits.head? ≠ some '+') :
    u64FromStrRadix digits radix = (ofDigitsFrom radix 0 digits).filter fun n => n < 2 ^ 64 := by
  have hnone : ∀ digits : List Char, digits.foldl
      (fun value c =>
        value.bind fun value => (toDigit radix c).bind fun digit =>
          if value * radix + digit < 2 ^ 64 then some (value * radix + digit) else none)
      none = none := by
    intro digits
    induction digits with
    | nil => rfl
    | cons c digits ih => exact ih
  have hfrom : ∀ (digits : List Char) (value : Nat), value < 2 ^ 64 → digits.foldl
      (fun value c =>
        value.bind fun value => (toDigit radix c).bind fun digit =>
          if value * radix + digit < 2 ^ 64 then some (value * radix + digit) else none)
      (some value) = (ofDigitsFrom radix value digits).filter fun n => n < 2 ^ 64 := by
    intro digits
    induction digits with
    | nil =>
      intro value hvalue
      rw [List.foldl_nil, ofDigitsFrom, Option.filter_some_pos (by exact decide_eq_true hvalue)]
    | cons c digits ih =>
      intro value hvalue
      rw [List.foldl_cons, ofDigitsFrom, Option.bind_some]
      cases toDigit radix c with
      | none => exact hnone digits
      | some digit =>
        by_cases hnext : value * radix + digit < 2 ^ 64
        · rw [Option.bind_some, if_pos hnext, ih _ hnext, Option.bind_some]
        · rw [Option.bind_some, if_neg hnext, hnone, Option.bind_some, eq_comm,
            Option.filter_eq_none_iff]
          intro n hn
          have hle := le_of_ofDigitsFrom hradix hn
          simp only [decide_eq_true_eq]
          omega
  rw [u64FromStrRadix, if_neg hplus, if_neg hne, hfrom digits 0 (by decide)]

/-! ## Texts -/

/-- `to_ascii_lowercase`. -/
def lower (text : List Char) : List Char := text.map Char.toLower

theorem lower_lower (text : List Char) : lower (lower text) = lower text := by
  rw [lower, lower, List.map_map]
  refine List.map_congr_left fun c _ => ?_
  exact toLower_toLower c

theorem lower_eq_nil : lower text = [] ↔ text = [] := List.map_eq_nil_iff

/-- Lower case tells texts without lower case letters apart. -/
theorem lower_inj {text' : List Char} (h : ∀ c ∈ text, c.isLower = false)
    (h' : ∀ c ∈ text', c.isLower = false) (heq : lower text = lower text') : text = text' := by
  induction text generalizing text' with
  | nil => exact (lower_eq_nil.mp heq.symm).symm
  | cons c text ih =>
    cases text' with
    | nil => cases heq
    | cons d text' =>
      rw [lower, lower, List.map_cons, List.map_cons, List.cons.injEq] at heq
      rw [List.forall_mem_cons] at h h'
      rw [toLower_inj h.1 h'.1 heq.1, ih h.2 h'.2 heq.2]

theorem length_lower (text : List Char) : (lower text).length = text.length := List.length_map ..

section

variable (ha : a.toNat < 65 ∨ 90 < a.toNat ∧ a.toNat < 97 ∨ 122 < a.toNat)

include ha

theorem mem_lower : a ∈ lower text ↔ a ∈ text := by
  rw [lower, List.mem_map]
  constructor
  · intro h
    obtain ⟨c, hc, heq⟩ := h
    exact toLower_eq_iff ha |>.mp heq ▸ hc
  · exact fun h => ⟨a, h, (toLower_eq_iff ha).mpr rfl⟩

theorem contains_lower (text : List Char) : (lower text).contains a = text.contains a := by
  rw [Bool.eq_iff_iff, List.contains_iff_mem, List.contains_iff_mem]
  exact mem_lower ha

theorem head?_lower (text : List Char) : (lower text).head? = some a ↔ text.head? = some a := by
  cases text with
  | nil => exact Iff.rfl
  | cons c text =>
    rw [lower, List.map_cons, List.head?_cons, List.head?_cons, Option.some_inj, Option.some_inj]
    exact toLower_eq_iff ha

theorem getLast?_lower (text : List Char) :
    (lower text).getLast? = some a ↔ text.getLast? = some a := by
  rw [List.getLast?_eq_head?_reverse, lower, ← List.map_reverse]
  exact (head?_lower ha text.reverse).trans (by rw [List.getLast?_eq_head?_reverse])

end

theorem any_lower {p : Char → Bool} (hp : ∀ c : Char, p c.toLower = p c) (text : List Char) :
    (lower text).any p = text.any p := by
  rw [lower, List.any_map]
  congr 1
  funext c
  exact hp c

theorem all_lower {p : Char → Bool} (hp : ∀ c : Char, p c.toLower = p c) (text : List Char) :
    (lower text).all p = text.all p := by
  rw [lower, List.all_map]
  congr 1
  funext c
  exact hp c

theorem u64FromStrRadix_lower (text : List Char) (radix : Nat) :
    u64FromStrRadix (lower text) radix = u64FromStrRadix text radix := by
  have hdigits : (if (lower text).head? = some '+' then (lower text).tail else lower text) =
      lower (if text.head? = some '+' then text.tail else text) := by
    rw [apply_ite lower, if_congr (head?_lower (by decide) text) rfl rfl, lower, lower,
      List.map_tail]
  rw [u64FromStrRadix, u64FromStrRadix, hdigits]
  rw [if_congr lower_eq_nil rfl rfl, lower, List.foldl_map]
  simp only [toDigit_toLower]

/-! ## Cutting -/

/-- Nothing is lost but the separators. -/
theorem mem_splitOn (hc : c ∈ text) (hne : c ≠ a) : ∃ piece ∈ text.splitOn a, c ∈ piece := by
  induction text with
  | nil => cases hc
  | cons d text ih =>
    rw [List.splitOn_cons_eq_if_modifyHead]
    split_ifs with hd
    · rcases List.mem_cons.mp hc with hcd | hc
      · exact absurd (hcd.trans (eq_of_beq hd)) hne
      · obtain ⟨piece, hpiece, hmem⟩ := ih hc
        exact ⟨piece, List.mem_cons_of_mem _ hpiece, hmem⟩
    · obtain ⟨head, tail, hsplit⟩ := List.exists_cons_of_ne_nil (List.splitOn_ne_nil a text)
      rw [hsplit, List.modifyHead_cons]
      rcases List.mem_cons.mp hc with hcd | hc
      · exact ⟨d :: head, List.mem_cons_self, hcd ▸ List.mem_cons_self⟩
      · obtain ⟨piece, hpiece, hmem⟩ := ih hc
        rw [hsplit] at hpiece
        rcases List.mem_cons.mp hpiece with heq | hpiece
        · exact ⟨d :: head, List.mem_cons_self, List.mem_cons_of_mem _ (heq ▸ hmem)⟩
        · exact ⟨piece, List.mem_cons_of_mem _ hpiece, hmem⟩

theorem not_mem_of_mem_splitOn {piece : List Char} (h : piece ∈ text.splitOn a) : a ∉ piece := by
  induction text generalizing piece with
  | nil =>
    rw [List.mem_singleton.mp h]
    exact List.not_mem_nil
  | cons d text ih =>
    rw [List.splitOn_cons_eq_if_modifyHead] at h
    split_ifs at h with hd
    · rcases List.mem_cons.mp h with rfl | h
      · exact List.not_mem_nil
      · exact ih h
    · obtain ⟨head, tail, hsplit⟩ := List.exists_cons_of_ne_nil (List.splitOn_ne_nil a text)
      rw [hsplit, List.modifyHead_cons] at h
      rcases List.mem_cons.mp h with rfl | h
      · rw [List.mem_cons, not_or]
        exact ⟨fun had => hd (beq_iff_eq.mpr had.symm), ih (hsplit ▸ List.mem_cons_self)⟩
      · exact ih (hsplit ▸ List.mem_cons_of_mem _ h)

/-- Cutting at a character that is no letter. -/
theorem splitOn_lower (ha : a.toNat < 65 ∨ 90 < a.toNat ∧ a.toNat < 97 ∨ 122 < a.toNat)
    (text : List Char) : (lower text).splitOn a = (text.splitOn a).map lower := by
  induction text with
  | nil => rfl
  | cons c text ih =>
    rw [lower, List.map_cons, List.splitOn_cons_eq_if_modifyHead,
      List.splitOn_cons_eq_if_modifyHead, ← lower, ih]
    by_cases hc : c = a
    · rw [if_pos (by rw [(toLower_eq_iff ha).mpr hc]; exact beq_self_eq_true a),
        if_pos (by rw [hc]; exact beq_self_eq_true a)]
      rfl
    · rw [if_neg (by rw [beq_iff_eq]; exact fun h => hc ((toLower_eq_iff ha).mp h)),
        if_neg (by rw [beq_iff_eq]; exact hc)]
      cases text.splitOn a <;> rfl

/-- `split_once`: before and after the first occurrence. -/
def splitOnce (a : Char) : List Char → Option (List Char × List Char)
  | [] => none
  | c :: text =>
    if c = a then some ([], text)
    else (splitOnce a text).map fun parts => (c :: parts.1, parts.2)

theorem splitOnce_eq_some {before after : List Char} :
    splitOnce a text = some (before, after) ↔ text = before ++ a :: after ∧ a ∉ before := by
  induction text generalizing before with
  | nil => simp [splitOnce]
  | cons c text ih =>
    rw [splitOnce]
    by_cases hc : c = a
    · rw [if_pos hc]
      cases before with
      | nil => simp [hc]
      | cons d before =>
        refine iff_of_false (fun h => by cases h) ?_
        intro h
        obtain ⟨heq, hmem⟩ := h
        have hd : c = d := (List.cons.inj heq).1
        exact hmem (by rw [← hc, hd]; exact List.mem_cons_self)
    · rw [if_neg hc]
      cases before with
      | nil =>
        refine iff_of_false ?_ (fun h => hc (List.cons.inj h.1).1)
        intro h
        obtain ⟨parts, -, hparts⟩ := Option.map_eq_some_iff.mp h
        cases hparts
      | cons d before =>
        constructor
        · intro h
          obtain ⟨⟨b, s⟩, hsplit, hparts⟩ := Option.map_eq_some_iff.mp h
          cases hparts
          obtain ⟨heq, hmem⟩ := ih.mp hsplit
          exact ⟨by rw [heq]; rfl, List.not_mem_cons_of_ne_of_not_mem (Ne.symm hc) hmem⟩
        · intro h
          obtain ⟨heq, hmem⟩ := h
          obtain ⟨hd, htext⟩ := List.cons.inj heq
          rw [ih.mpr ⟨htext, fun hb => hmem (List.mem_cons_of_mem _ hb)⟩, hd]
          rfl

theorem splitOnce_eq_none : splitOnce a text = none ↔ a ∉ text := by
  induction text with
  | nil => simp [splitOnce]
  | cons c text ih =>
    rw [splitOnce]
    split_ifs with hc
    · refine iff_of_false (fun h => by cases h) ?_
      exact not_not_intro (hc ▸ List.mem_cons_self)
    · rw [Option.map_eq_none_iff, ih, List.mem_cons, not_or]
      exact (and_iff_right (Ne.symm hc)).symm

end Tokn.Ascii
