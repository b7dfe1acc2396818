import Mathlib.Tactic

/-!
# Texts with escapes

A percent sign and two digits are an escape. `Escaped` says that the escapes of a text are complete,
with digits of some kind, and `mapEscapes` rewrites their digits. Two texts are spellings of one
another if they differ in nothing else (`SameSpelling`).

**Theorem (`prefix_of_spelling`).** If rewriting the digits of a text gives one that starts with a
text whose digits nothing else is rewritten to, then so do all spellings of the text.
-/

namespace Tokn.Escapes

variable {digit digit' digit'' : Char → Bool}

/-! ## Complete escapes -/

/-- All escapes of the text are complete. -/
inductive Escaped (digit : Char → Bool) : List Char → Prop where
  | nil : Escaped digit []
  | escape {a b : Char} {text : List Char} (ha : digit a = true) (hb : digit b = true)
      (rest : Escaped digit text) : Escaped digit ('%' :: a :: b :: text)
  | plain {c : Char} {text : List Char} (hc : c ≠ '%') (rest : Escaped digit text) :
      Escaped digit (c :: text)

/-- The loop that decides `Escaped`. -/
def isEscaped (digit : Char → Bool) : List Char → Bool
  | [] => true
  | c :: text =>
    if c = '%' then
      match text with
      | a :: b :: text => digit a && digit b && isEscaped digit text
      | _ => false
    else isEscaped digit text

theorem isEscaped_iff {text : List Char} :
    isEscaped digit text = true ↔ Escaped digit text := by
  constructor
  · intro h
    fun_induction isEscaped digit text with
    | case1 => exact .nil
    | case2 a b text ih =>
      simp only [Bool.and_eq_true] at h
      exact .escape h.1.1 h.1.2 (ih h.2)
    | case3 => cases h
    | case4 c text hc ih => exact .plain hc (ih h)
  · intro h
    induction h with
    | nil => rfl
    | escape ha hb _ ih =>
      rw [isEscaped, if_pos rfl, ha, hb, ih]
      rfl
    | plain hc _ ih =>
      unfold isEscaped
      rw [if_neg hc]
      exact ih

instance (text : List Char) : Decidable (Escaped digit text) :=
  decidable_of_iff _ isEscaped_iff

theorem Escaped.mono (h : ∀ c, digit c = true → digit' c = true) {text : List Char}
    (ht : Escaped digit text) : Escaped digit' text := by
  induction ht with
  | nil => exact .nil
  | escape ha hb _ ih => exact .escape (h _ ha) (h _ hb) ih
  | plain hc _ ih => exact .plain hc ih

theorem escaped_cons_iff {c : Char} {text : List Char} (hc : c ≠ '%') :
    Escaped digit (c :: text) ↔ Escaped digit text := by
  constructor
  · intro h
    cases h with
    | escape => exact absurd rfl hc
    | plain _ rest => exact rest
  · exact Escaped.plain hc

theorem escaped_of_not_mem {text : List Char} (h : '%' ∉ text) : Escaped digit text := by
  induction text with
  | nil => exact .nil
  | cons c text ih =>
    rw [List.mem_cons, not_or] at h
    exact .plain (Ne.symm h.1) (ih h.2)

/-- After a text with complete escapes, what follows is a text of its own. -/
theorem escaped_append_iff {text text' : List Char} (h : Escaped digit text) :
    Escaped digit (text ++ text') ↔ Escaped digit text' := by
  induction h with
  | nil => exact Iff.rfl
  | escape ha hb _ ih =>
    refine Iff.trans ?_ ih
    constructor
    · intro happ
      cases happ with
      | escape _ _ rest => exact rest
      | plain hc _ => exact absurd rfl hc
    · exact Escaped.escape ha hb
  | plain hc _ ih => exact (escaped_cons_iff hc).trans ih

/-- A text that goes on with a character of no escape has complete escapes itself. -/
theorem Escaped.of_append {c : Char} (hc : digit c = false) (hne : c ≠ '%') {rest : List Char} :
    ∀ {text : List Char}, Escaped digit (text ++ c :: rest) → Escaped digit text
  | [], _ => .nil
  | d :: text, h => by
    by_cases hd : d = '%'
    · subst hd
      match text with
      | [] =>
        cases h with
        | escape ha _ _ => exact absurd (ha.symm.trans hc) nofun
        | plain hpercent _ => exact absurd rfl hpercent
      | [a] =>
        cases h with
        | escape _ hb _ => exact absurd (hb.symm.trans hc) nofun
        | plain hpercent _ => exact absurd rfl hpercent
      | a :: b :: text =>
        cases h with
        | escape ha hb hrest => exact .escape ha hb (Escaped.of_append hc hne hrest)
        | plain hpercent _ => exact absurd rfl hpercent
    · exact .plain hd (Escaped.of_append hc hne ((escaped_cons_iff hd).mp h))

/-- A prefix of a text that goes on with an escape of other digits ends before that escape. -/
theorem prefix_of_prefix_append {pre text after : List Char} {a b : Char} (hpre : Escaped digit pre)
    (htext : Escaped digit text) (hab : ¬ (digit a = true ∧ digit b = true))
    (h : pre <+: text ++ '%' :: a :: b :: after) : pre <+: text := by
  rcases List.prefix_or_prefix_of_prefix h (List.prefix_append text _) with hshort | hlong
  · exact hshort
  · obtain ⟨rest, rfl⟩ := hlong
    have hrest : Escaped digit rest := (escaped_append_iff htext).mp hpre
    obtain ⟨tail, htail⟩ := (List.prefix_append_right_inj text).mp h
    cases hrest with
    | nil => rw [List.append_nil]
    | escape ha hb _ =>
      injection htail with _ htail
      injection htail with hda htail
      injection htail with hdb _
      exact absurd ⟨hda ▸ ha, hdb ▸ hb⟩ hab
    | plain hc _ => exact absurd (List.cons.inj htail).1 hc

/-! ## Rewriting the digits -/

/-- The digits of all complete escapes, rewritten. -/
def mapEscapes (digit : Char → Bool) (f : Char → Char) : List Char → List Char
  | '%' :: a :: b :: text =>
    if digit a && digit b then '%' :: f a :: f b :: mapEscapes digit f text
    else '%' :: mapEscapes digit f (a :: b :: text)
  | c :: text => c :: mapEscapes digit f text
  | [] => []

section

variable {f fold : Char → Char}

theorem mapEscapes_escape {a b : Char} (ha : digit a = true) (hb : digit b = true)
    (text : List Char) :
    mapEscapes digit f ('%' :: a :: b :: text) = '%' :: f a :: f b :: mapEscapes digit f text := by
  rw [mapEscapes, ha, hb]
  rfl

theorem mapEscapes_plain {c : Char} (hc : c ≠ '%') (text : List Char) :
    mapEscapes digit f (c :: text) = c :: mapEscapes digit f text := by
  rw [mapEscapes]
  intro a b rest h
  exact absurd h hc

theorem mapEscapes_append {text text' : List Char} (h : Escaped digit text) :
    mapEscapes digit f (text ++ text') = mapEscapes digit f text ++ mapEscapes digit f text' := by
  induction h with
  | nil => rfl
  | escape ha hb _ ih =>
    simp only [List.cons_append]
    rw [mapEscapes_escape ha hb, mapEscapes_escape ha hb, ih]
    rfl
  | plain hc _ ih =>
    rw [List.cons_append, mapEscapes_plain hc, mapEscapes_plain hc, ih, List.cons_append]

theorem escaped_mapEscapes (hf : ∀ c, digit c = true → digit' (f c) = true) {text : List Char}
    (h : Escaped digit text) : Escaped digit' (mapEscapes digit f text) := by
  induction h with
  | nil => exact .nil
  | escape ha hb _ ih =>
    rw [mapEscapes_escape ha hb]
    exact .escape (hf _ ha) (hf _ hb) ih
  | plain hc _ ih =>
    rw [mapEscapes_plain hc]
    exact .plain hc ih

theorem mapEscapes_cons (digit : Char → Bool) (f : Char → Char) (c : Char) (text : List Char) :
    ∃ rest, mapEscapes digit f (c :: text) = c :: rest := by
  by_cases hc : c = '%'
  · subst hc
    match text with
    | [] => exact ⟨[], rfl⟩
    | [a] => exact ⟨_, rfl⟩
    | a :: b :: text =>
      rw [mapEscapes]
      split_ifs <;> exact ⟨_, rfl⟩
  · exact ⟨_, mapEscapes_plain hc text⟩

/-- Rewriting makes no escape complete. -/
theorem escaped_of_mapEscapes (hdigit : ∀ c, digit' c = true → digit c = true)
    (hpercent : digit '%' = false) {text : List Char} (h : Escaped digit' (mapEscapes digit f text)) :
    Escaped digit text := by
  fun_induction mapEscapes digit f text with
  | case1 a b text hdigits ih =>
    rw [Bool.and_eq_true] at hdigits
    cases h with
    | escape _ _ hrest => exact .escape hdigits.1 hdigits.2 (ih hrest)
    | plain hne _ => exact absurd rfl hne
  | case2 a b text hdigits ih =>
    refine absurd ?_ hdigits
    rw [Bool.and_eq_true]
    by_cases ha : a = '%'
    · obtain ⟨rest, hrest⟩ := mapEscapes_cons digit f a (b :: text)
      rw [hrest, ha] at h
      cases h with
      | escape hpercent' _ _ => exact absurd ((hdigit _ hpercent').symm.trans hpercent) nofun
      | plain hne _ => exact absurd rfl hne
    · obtain ⟨rest, hrest⟩ := mapEscapes_cons digit f b text
      rw [mapEscapes_plain ha, hrest] at h
      cases h with
      | escape ha hb _ => exact ⟨hdigit _ ha, hdigit _ hb⟩
      | plain hne _ => exact absurd rfl hne
  | case3 c text hshort ih =>
    by_cases hc : c = '%'
    · subst hc
      match text with
      | [] =>
        cases h with
        | plain hne _ => exact absurd rfl hne
      | [a] =>
        have hone : mapEscapes digit f [a] = [a] := by
          by_cases ha : a = '%'
          · rw [ha]
            rfl
          · rw [mapEscapes_plain ha]
            rfl
        rw [hone] at h
        cases h with
        | plain hne _ => exact absurd rfl hne
      | a :: b :: text => exact absurd rfl (hshort a b text rfl)
    · exact .plain hc (ih ((escaped_cons_iff hc).mp h))
  | case4 => exact .nil

theorem mapEscapes_eq_self (hf : ∀ c, digit' c = true → digit c = true ∧ f c = c)
    {text : List Char} (h : Escaped digit' text) : mapEscapes digit f text = text := by
  induction h with
  | nil => rfl
  | escape ha hb _ ih =>
    rw [mapEscapes_escape (hf _ ha).1 (hf _ hb).1, (hf _ ha).2, (hf _ hb).2, ih]
  | plain hc _ ih => rw [mapEscapes_plain hc, ih]

theorem mapEscapes_prefix {pre text : List Char} (hpre : Escaped digit pre) (h : pre <+: text) :
    mapEscapes digit f pre <+: mapEscapes digit f text := by
  obtain ⟨rest, rfl⟩ := h
  rw [mapEscapes_append hpre]
  exact List.prefix_append _ _

/-- What a prefix of a rewritten text has for digits. -/
theorem escaped_of_prefix_mapEscapes {pre text : List Char} (hpre : Escaped digit' pre)
    (htext : Escaped digit text) (h : pre <+: mapEscapes digit f text)
    (hf : ∀ c, digit c = true → digit' (f c) = true → digit'' (f c) = true) :
    Escaped digit'' pre := by
  induction hpre generalizing text with
  | nil => exact .nil
  | escape ha hb _ ih =>
    cases htext with
    | nil => cases List.prefix_nil.mp h
    | escape hx hy htext =>
      rw [mapEscapes_escape hx hy, List.cons_prefix_cons, List.cons_prefix_cons,
        List.cons_prefix_cons] at h
      obtain ⟨-, rfl, rfl, h⟩ := h
      exact .escape (hf _ hx ha) (hf _ hy hb) (ih htext h)
    | plain hc htext =>
      rw [mapEscapes_plain hc, List.cons_prefix_cons] at h
      exact absurd h.1.symm hc
  | plain hc _ ih =>
    cases htext with
    | nil => cases List.prefix_nil.mp h
    | escape hx hy htext =>
      rw [mapEscapes_escape hx hy, List.cons_prefix_cons] at h
      exact absurd h.1 hc
    | plain hd htext =>
      rw [mapEscapes_plain hd, List.cons_prefix_cons] at h
      exact .plain hc (ih htext h.2)

/-- A prefix with digits that nothing else is rewritten to was one before. -/
theorem prefix_of_prefix_mapEscapes {pre text : List Char} (hpre : Escaped digit' pre)
    (htext : Escaped digit text) (h : pre <+: mapEscapes digit f text)
    (hf : ∀ c, digit c = true → digit' (f c) = true → f c = c) : pre <+: text := by
  induction hpre generalizing text with
  | nil => exact List.nil_prefix
  | escape ha hb _ ih =>
    cases htext with
    | nil => cases List.prefix_nil.mp h
    | escape hx hy htext =>
      rw [mapEscapes_escape hx hy, List.cons_prefix_cons, List.cons_prefix_cons,
        List.cons_prefix_cons] at h
      obtain ⟨-, rfl, rfl, h⟩ := h
      rw [hf _ hx ha, hf _ hy hb]
      have hrest := ih htext h
      simpa only [List.cons_prefix_cons, true_and] using hrest
    | plain hc htext =>
      rw [mapEscapes_plain hc, List.cons_prefix_cons] at h
      exact absurd h.1.symm hc
  | plain hc _ ih =>
    cases htext with
    | nil => cases List.prefix_nil.mp h
    | escape hx hy htext =>
      rw [mapEscapes_escape hx hy, List.cons_prefix_cons] at h
      exact absurd h.1 hc
    | plain hd htext =>
      rw [mapEscapes_plain hd, List.cons_prefix_cons] at h
      exact List.cons_prefix_cons.mpr ⟨h.1, ih htext h.2⟩

/-! ## Spellings -/

/-- The texts are the same but for the digits of their escapes, and these fold to the same. -/
inductive SameSpelling (digit : Char → Bool) (fold : Char → Char) : List Char → List Char → Prop where
  | nil : SameSpelling digit fold [] []
  | escape {a b a' b' : Char} {text text' : List Char} (ha : digit a = true) (hb : digit b = true)
      (ha' : digit a' = true) (hb' : digit b' = true) (haa : fold a = fold a')
      (hbb : fold b = fold b') (rest : SameSpelling digit fold text text') :
      SameSpelling digit fold ('%' :: a :: b :: text) ('%' :: a' :: b' :: text')
  | plain {c : Char} {text text' : List Char} (hc : c ≠ '%')
      (rest : SameSpelling digit fold text text') : SameSpelling digit fold (c :: text) (c :: text')

namespace SameSpelling

variable {text text' : List Char}

theorem escaped (h : SameSpelling digit fold text text') : Escaped digit text := by
  induction h with
  | nil => exact .nil
  | escape ha hb _ _ _ _ _ ih => exact .escape ha hb ih
  | plain hc _ ih => exact .plain hc ih

theorem refl (h : Escaped digit text) : SameSpelling digit fold text text := by
  induction h with
  | nil => exact .nil
  | escape ha hb _ ih => exact .escape ha hb ha hb rfl rfl ih
  | plain hc _ ih => exact .plain hc ih

theorem symm (h : SameSpelling digit fold text text') : SameSpelling digit fold text' text := by
  induction h with
  | nil => exact .nil
  | escape ha hb ha' hb' haa hbb _ ih => exact .escape ha' hb' ha hb haa.symm hbb.symm ih
  | plain hc _ ih => exact .plain hc ih

/-- Folding forgets the spelling. -/
theorem mapEscapes_eq (h : SameSpelling digit fold text text') :
    mapEscapes digit fold text = mapEscapes digit fold text' := by
  induction h with
  | nil => rfl
  | escape ha hb ha' hb' haa hbb _ ih =>
    rw [mapEscapes_escape ha hb, mapEscapes_escape ha' hb', haa, hbb, ih]
  | plain hc _ ih => rw [mapEscapes_plain hc, mapEscapes_plain hc, ih]

/-- A text without escapes has no other spelling. -/
theorem eq_of_not_mem (h : SameSpelling digit fold text text') (hmem : '%' ∉ text) :
    text = text' := by
  induction h with
  | nil => rfl
  | escape => exact absurd List.mem_cons_self hmem
  | plain _ _ ih => rw [ih (List.not_mem_of_not_mem_cons hmem)]

/-- All spellings end with a text that no escape reaches into. -/
theorem suffix {tail : List Char} {c : Char} (hc : digit c = false) (hne : c ≠ '%')
    (htail : '%' ∉ tail) (h : SameSpelling digit fold text text') (hsuffix : c :: tail <:+ text) :
    c :: tail <:+ text' := by
  induction h with
  | nil => cases List.suffix_nil.mp hsuffix
  | escape ha hb _ _ _ _ _ ih =>
    have hdigit : ∀ d, digit d = true → c ≠ d := by
      intro d hd hcd
      rw [← hcd, hc] at hd
      cases hd
    rcases List.suffix_cons_iff.mp hsuffix with heq | hsuffix
    · exact absurd (List.cons.inj heq).1 hne
    · rcases List.suffix_cons_iff.mp hsuffix with heq | hsuffix
      · exact absurd (List.cons.inj heq).1 (hdigit _ ha)
      · rcases List.suffix_cons_iff.mp hsuffix with heq | hsuffix
        · exact absurd (List.cons.inj heq).1 (hdigit _ hb)
        · exact (ih hsuffix).trans ⟨['%', _, _], rfl⟩
  | plain hd rest ih =>
    rcases List.suffix_cons_iff.mp hsuffix with heq | hsuffix
    · obtain ⟨rfl, rfl⟩ := List.cons.inj heq
      rw [rest.eq_of_not_mem htail]
    · exact (ih hsuffix).trans (List.suffix_cons _ _)

end SameSpelling

/-- Rewriting digits to others that fold to the same gives a spelling. -/
theorem sameSpelling_mapEscapes (hf : ∀ c, digit c = true → digit (f c) = true ∧ fold c = fold (f c))
    {text : List Char} (h : Escaped digit text) :
    SameSpelling digit fold text (mapEscapes digit f text) := by
  induction h with
  | nil => exact .nil
  | escape ha hb _ ih =>
    rw [mapEscapes_escape ha hb]
    exact .escape ha hb (hf _ ha).1 (hf _ hb).1 (hf _ ha).2 (hf _ hb).2 ih
  | plain hc _ ih =>
    rw [mapEscapes_plain hc]
    exact .plain hc ih

/-- **A prefix that all spellings share.** Where folding a text gives one with the prefix, and
nothing but themselves folds to the digits of the prefix, all spellings of the text have it. -/
theorem prefix_of_spelling {pre text text' : List Char} (hpre : Escaped digit' pre)
    (hf : ∀ c, digit c = true → digit' (fold c) = true → fold c = c)
    (hs : SameSpelling digit fold text text') (h : pre <+: mapEscapes digit fold text) :
    pre <+: text' := by
  rw [hs.mapEscapes_eq] at h
  exact prefix_of_prefix_mapEscapes hpre hs.symm.escaped h hf

end

end Tokn.Escapes
