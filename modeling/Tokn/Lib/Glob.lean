import Mathlib.Computability.Language
import Tokn.Lib.PrefixFree

/-!
# Wildcard patterns

A pattern is a word in which one letter, the star, stands for any word. Its language is the product
of what its letters stand for. If the letters are encoded so that no code begins inside another
one, a code matches the code of a pattern when the word matches the pattern: a star cannot be used
to tear a letter apart.
-/

namespace Tokn.Glob

variable {α β : Type*} {star : α}

section Words

variable [DecidableEq α]

/-- The words a pattern stands for. -/
def language (star : α) (p : List α) : Language α :=
  (p.map fun c => if c = star then ⊤ else {[c]}).prod

theorem mem_language_nil {s : List α} : s ∈ language star [] ↔ s = [] := Iff.rfl

theorem mem_language_star {p s : List α} :
    s ∈ language star (star :: p) ↔ ∃ t ∈ language star p, t <:+ s := by
  rw [language, List.map_cons, List.prod_cons, if_pos rfl, Language.mem_mul]
  constructor
  · rintro ⟨u, -, t, ht, rfl⟩
    exact ⟨t, ht, u, rfl⟩
  · rintro ⟨t, ht, u, rfl⟩
    exact ⟨u, Set.mem_univ u, t, ht, rfl⟩

theorem mem_language_cons {c : α} (hc : c ≠ star) {p s : List α} :
    s ∈ language star (c :: p) ↔ ∃ t ∈ language star p, c :: t = s := by
  rw [language, List.map_cons, List.prod_cons, if_neg hc, Language.mem_mul]
  constructor
  · rintro ⟨u, rfl, t, ht, rfl⟩
    exact ⟨t, ht, rfl⟩
  · rintro ⟨t, ht, rfl⟩
    exact ⟨[c], rfl, t, ht, rfl⟩

/-- A run of stars is one star. -/
theorem mem_language_star_dropWhile {p s : List α} :
    s ∈ language star (star :: p.dropWhile (· = star)) ↔ s ∈ language star (star :: p) := by
  induction p generalizing s with
  | nil => rfl
  | cons c p ih =>
    by_cases hc : c = star
    · subst hc
      rw [List.dropWhile_cons_of_pos (by simp), ih]
      constructor
      · intro h
        exact mem_language_star.mpr ⟨s, h, List.suffix_rfl⟩
      · intro h
        obtain ⟨t, ht, hts⟩ := mem_language_star.mp h
        obtain ⟨r, hr, hrt⟩ := mem_language_star.mp ht
        exact mem_language_star.mpr ⟨r, hr, hrt.trans hts⟩
    · rw [List.dropWhile_cons_of_neg (by simpa using hc)]

/-- Letters without a star stand for themselves. -/
theorem mem_language_append {l p s : List α} (hl : star ∉ l) :
    s ∈ language star (l ++ p) ↔ ∃ t ∈ language star p, l ++ t = s := by
  induction l generalizing s with
  | nil => simp
  | cons c l ih =>
    obtain ⟨hc, hl⟩ := List.ne_and_not_mem_of_not_mem_cons hl
    rw [List.cons_append, mem_language_cons (Ne.symm hc)]
    constructor
    · rintro ⟨u, hu, rfl⟩
      obtain ⟨t, ht, rfl⟩ := (ih hl).mp hu
      exact ⟨t, ht, rfl⟩
    · rintro ⟨t, ht, rfl⟩
      exact ⟨l ++ t, (ih hl).mpr ⟨t, ht, rfl⟩, rfl⟩

end Words

/-! ## Encoded patterns -/

variable {enc : α → List β} {first : β → Prop} {codeStar : β}

/-- A star that is one symbol long is in no other code. -/
theorem codeStar_notMem (hpre : PrefixFree Set.univ enc) (hsync : Synchronized first enc)
    (hstar : enc star = [codeStar]) {c : α} (hc : c ≠ star) : codeStar ∉ enc c := by
  intro hmem
  obtain ⟨b, rest, hcode, -, hrest⟩ := hsync c
  obtain ⟨b', rest', hcode', hb', -⟩ := hsync star
  obtain ⟨rfl, rfl⟩ := List.cons.inj (hstar.symm.trans hcode')
  rw [hcode] at hmem
  obtain rfl | hmem := List.mem_cons.mp hmem
  · have h : enc c ++ [] = enc star ++ rest := by simp [hcode, hstar]
    exact hc (hpre c (Set.mem_univ c) star (Set.mem_univ star) _ _ h).1
  · exact hrest codeStar hmem hb'

variable [DecidableEq α] [DecidableEq β]

theorem flatMap_mem_language (hstar : enc star = [codeStar])
    (hother : ∀ c ≠ star, codeStar ∉ enc c) {p s : List α} (h : s ∈ language star p) :
    s.flatMap enc ∈ language codeStar (p.flatMap enc) := by
  induction p generalizing s with
  | nil =>
    obtain rfl := mem_language_nil.mp h
    exact mem_language_nil.mpr rfl
  | cons c p ih =>
    rw [List.flatMap_cons]
    by_cases hc : c = star
    · subst hc
      obtain ⟨t, ht, u, rfl⟩ := mem_language_star.mp h
      rw [hstar, List.singleton_append, mem_language_star, List.flatMap_append]
      exact ⟨t.flatMap enc, ih ht, List.suffix_append _ _⟩
    · obtain ⟨t, ht, rfl⟩ := (mem_language_cons hc).mp h
      rw [mem_language_append (hother c hc)]
      exact ⟨t.flatMap enc, ih ht, rfl⟩

/-- Where the code of a pattern matches the rest of a code, the pattern matches the rest of the
word. -/
theorem exists_suffix_mem_language (hpre : PrefixFree Set.univ enc) (hsync : Synchronized first enc)
    (hstar : enc star = [codeStar]) {p s : List α} {x y : List β} (hs : s.flatMap enc = x ++ y)
    (hy : y ∈ language codeStar (p.flatMap enc)) :
    (∃ t ∈ language star p, t <:+ s) ∧ (x = [] → s ∈ language star p) := by
  induction p generalizing s x y with
  | nil =>
    obtain rfl := mem_language_nil.mp hy
    refine ⟨⟨[], mem_language_nil.mpr rfl, List.nil_suffix⟩, ?_⟩
    rintro rfl
    exact mem_language_nil.mpr (hsync.flatMap_eq_nil.mp hs)
  | cons c p ih =>
    rw [List.flatMap_cons] at hy
    by_cases hc : c = star
    · subst hc
      rw [hstar, List.singleton_append, mem_language_star] at hy
      obtain ⟨r, hr, w, rfl⟩ := hy
      rw [← List.append_assoc] at hs
      have h : s ∈ language c (c :: p) := mem_language_star.mpr (ih hs hr).1
      exact ⟨⟨s, h, List.suffix_rfl⟩, fun _ => h⟩
    · obtain ⟨r, hr, rfl⟩ := (mem_language_append (codeStar_notMem hpre hsync hstar hc)).mp hy
      -- the code of the letter begins where that of a letter of the word does
      obtain ⟨b, code, hcode, hb, -⟩ := hsync c
      rw [hcode, List.cons_append] at hs
      obtain ⟨u, v, rfl, hu, hv⟩ := hsync.split hb hs
      rw [← List.cons_append, ← hcode] at hv
      obtain ⟨t, rfl, ht⟩ := hpre.flatMap_eq_append hv (hsync.ne_nil c)
      have h : c :: t ∈ language star (c :: p) :=
        (mem_language_cons hc).mpr ⟨t, (@ih t [] r ht hr).2 rfl, rfl⟩
      refine ⟨⟨c :: t, h, List.suffix_append _ _⟩, ?_⟩
      intro hx
      obtain rfl := hsync.flatMap_eq_nil.mp (hu.trans hx)
      exact h

/-- **Matching codes is matching words.** -/
theorem flatMap_mem_language_iff (hpre : PrefixFree Set.univ enc) (hsync : Synchronized first enc)
    (hstar : enc star = [codeStar]) {p s : List α} :
    s.flatMap enc ∈ language codeStar (p.flatMap enc) ↔ s ∈ language star p := by
  refine ⟨?_, flatMap_mem_language hstar fun c hc => codeStar_notMem hpre hsync hstar hc⟩
  intro h
  exact (exists_suffix_mem_language hpre hsync hstar (List.nil_append _).symm h).2 rfl

end Tokn.Glob
