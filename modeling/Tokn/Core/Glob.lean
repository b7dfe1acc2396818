import Tokn.Convert.Ir
import Tokn.Lib.Glob
import Tokn.Lib.Utf8

/-!
# Endpoint rules

`glob_match` compares the bytes of a pattern with those of a model id; a star may stand for any
bytes. The matcher decides the language of the pattern over bytes, and no run of bytes that a star
could swallow ends within a character, so this is the language over characters. The first rule whose
language has the model decides on which endpoints the model is served.
-/

namespace Tokn.Core

open Tokn.Convert (Endpoint)

/-! ## The matcher -/

/-- `b'*'`. -/
def star : UInt8 := 42

/-- `rec`: the loop, at what is left of the pattern and of the input at its two cursors. The call
inside is for what follows a run of stars, at each place where the input may go on. -/
def globRec : List UInt8 → List UInt8 → Bool
  | [], s => s.isEmpty
  | c :: p, s =>
    if c = star then
      let rest := p.dropWhile (· = star)
      if rest = [] then true else s.tails.any fun s => globRec rest s
    else
      match s with
      | [] => false
      | d :: s => if c ≠ d then false else globRec p s
termination_by p => p.length
decreasing_by
  · exact Nat.lt_succ_of_le (List.dropWhile_suffix _).length_le
  · exact Nat.lt_succ_self _

def globMatch (pattern input : String) : Bool :=
  globRec (Str.utf8Bytes pattern) (Str.utf8Bytes input)

structure EndpointRule where
  pattern : String
  endpoints : List Endpoint
  deriving DecidableEq

def matchEndpointRule (model : String) (endpoint : Endpoint) : List EndpointRule → Option Bool
  | [] => none
  | rule :: rules =>
    if globMatch rule.pattern model then some (rule.endpoints.contains endpoint)
    else matchEndpointRule model endpoint rules

/-! ## What it decides -/

theorem globRec_star (p s : List UInt8) :
    globRec (star :: p) s = if p.dropWhile (· = star) = [] then true
      else s.tails.any fun s => globRec (p.dropWhile (· = star)) s := by
  rw [globRec.eq_def]
  simp

/-- **The loop decides the language.** -/
theorem globRec_iff (p s : List UInt8) : globRec p s = true ↔ s ∈ Glob.language star p := by
  induction p, s using globRec.induct with
  | case1 s => rw [globRec, List.isEmpty_iff, Glob.mem_language_nil]
  | case2 p s rest hrest =>
    have hmem : s ∈ Glob.language star (star :: rest) := by
      rw [hrest]
      exact Glob.mem_language_star.mpr ⟨[], Glob.mem_language_nil.mpr rfl, List.nil_suffix⟩
    rw [globRec_star, if_pos hrest]
    exact iff_of_true rfl (Glob.mem_language_star_dropWhile.mp hmem)
  | case3 p s rest hrest ih =>
    rw [globRec_star, if_neg hrest, List.any_eq_true, ← Glob.mem_language_star_dropWhile,
      Glob.mem_language_star]
    refine exists_congr fun t => ?_
    rw [List.mem_tails, ih t, and_comm]
  | case4 c p hc =>
    rw [globRec, if_neg hc, Glob.mem_language_cons hc]
    simp
  | case5 c p hc d s hne =>
    rw [globRec, if_neg hc, if_pos hne, Glob.mem_language_cons hc]
    simp [hne]
  | case6 c p hc d s heq ih =>
    obtain rfl := not_not.mp heq
    rw [globRec, if_neg hc, if_neg heq, ih, Glob.mem_language_cons hc]
    simp

/-- The model ids that a pattern is for: each `*` replaced by a string, all else as it is. -/
def language (pattern : String) : Set String :=
  {input | input.toList ∈ Glob.language '*' pattern.toList}

theorem globMatch_iff (pattern input : String) :
    globMatch pattern input = true ↔ input ∈ language pattern := by
  rw [globMatch, globRec_iff, Str.utf8Bytes_eq_flatMap, Str.utf8Bytes_eq_flatMap]
  exact Glob.flatMap_mem_language_iff Str.prefixFree_utf8EncodeChar
    Str.synchronized_utf8EncodeChar (by decide)

theorem matchEndpointRule_eq_find? (model : String) (endpoint : Endpoint)
    (rules : List EndpointRule) :
    matchEndpointRule model endpoint rules =
      (rules.find? fun rule => globMatch rule.pattern model).map
        fun rule => rule.endpoints.contains endpoint := by
  induction rules with
  | nil => rfl
  | cons rule rules ih =>
    by_cases h : globMatch rule.pattern model = true
    · simp [matchEndpointRule, h]
    · simp [matchEndpointRule, h, ih]

theorem matchEndpointRule_eq_some_iff {model : String} {endpoint : Endpoint}
    {rules : List EndpointRule} {allowed : Bool} :
    matchEndpointRule model endpoint rules = some allowed ↔
      ∃ before rule after, rules = before ++ rule :: after ∧
        (∀ earlier ∈ before, model ∉ language earlier.pattern) ∧
        model ∈ language rule.pattern ∧ rule.endpoints.contains endpoint = allowed := by
  simp only [matchEndpointRule_eq_find?, Option.map_eq_some_iff, List.find?_eq_some_iff_append,
    globMatch_iff, Bool.not_eq_true', ← Bool.not_eq_true]
  constructor
  · rintro ⟨rule, ⟨hmem, before, after, rfl, hbefore⟩, rfl⟩
    exact ⟨before, rule, after, rfl, hbefore, hmem, rfl⟩
  · rintro ⟨before, rule, after, rfl, hbefore, hmem, rfl⟩
    exact ⟨rule, ⟨hmem, before, after, rfl, hbefore⟩, rfl⟩

theorem matchEndpointRule_eq_none_iff {model : String} {endpoint : Endpoint}
    {rules : List EndpointRule} :
    matchEndpointRule model endpoint rules = none ↔
      ∀ rule ∈ rules, model ∉ language rule.pattern := by
  simp only [matchEndpointRule_eq_find?, Option.map_eq_none_iff, List.find?_eq_none,
    globMatch_iff]

/-- **Patterns are matched as their languages say, and the first rule that matches decides.** -/
theorem glob_match_decides_language :
    (∀ pattern input, globMatch pattern input = true ↔ input ∈ language pattern) ∧
      ∀ (rules : List EndpointRule) (model : String) (endpoint : Endpoint),
        (∀ allowed, matchEndpointRule model endpoint rules = some allowed ↔
          ∃ before rule after, rules = before ++ rule :: after ∧
            (∀ earlier ∈ before, model ∉ language earlier.pattern) ∧
            model ∈ language rule.pattern ∧ rule.endpoints.contains endpoint = allowed) ∧
        (matchEndpointRule model endpoint rules = none ↔
          ∀ rule ∈ rules, model ∉ language rule.pattern) :=
  ⟨globMatch_iff, fun _ _ _ =>
    ⟨fun _ => matchEndpointRule_eq_some_iff, matchEndpointRule_eq_none_iff⟩⟩

end Tokn.Core
