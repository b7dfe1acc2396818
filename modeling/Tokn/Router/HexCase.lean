import Tokn.Config.Unreachable
import Tokn.Router.Matching

/-!
# The case of hexadecimal digits

The compiler gives the escapes of path prefixes upper case digits, and the index of API mounts does
the same with the paths it looks up (`crates/router/src/v2/mounts.rs`). A binding compares its
prefixes with the path as the client wrote it.

**Theorem (`httpMatches_hexCase_iff`).** Whether a binding matches all spellings of a path alike
depends on the digits of its prefixes: it does unless the path, in its canonical form, starts with
one of them, and each such one has an escape with a letter in it.
-/

namespace Tokn.Router

open Tokn.Policy
open Tokn.Config
open Tokn.Escapes

/-! ## Spellings -/

/-- The texts differ only in the letter case of the hexadecimal digits of their escapes. -/
abbrev SameButHexCase : Text → Text → Prop := SameSpelling isHexDigit Char.toUpper

/-- `canonical_path`, by which the API mounts are found. -/
def canonicalPath (path : Text) : Text :=
  if !path.contains '%' then path else mapEscapes isHexDigit Char.toUpper path

theorem canonicalPath_eq (path : Text) : canonicalPath path = canonicalForm path := by
  rw [canonicalPath]
  split_ifs with hplain
  · have hmem : '%' ∉ path := by simpa using hplain
    rw [canonicalForm]
    induction path with
    | nil => rfl
    | cons c path ih =>
      rw [List.mem_cons, not_or] at hmem
      rw [mapEscapes_plain (Ne.symm hmem.1), ← ih (by simpa using hmem.2) hmem.2]
  · rfl

variable {path : Text}

theorem sameButHexCase_upper (h : Escaped isHexDigit path) :
    SameButHexCase path (mapEscapes isHexDigit Char.toUpper path) := by
  refine sameSpelling_mapEscapes ?_ h
  intro c hc
  have hdigit := @forall_isHexDigit
    (fun c => isHexDigit c.toUpper && c.toUpper == c.toUpper.toUpper) (by decide) c hc
  rw [Bool.and_eq_true, beq_iff_eq] at hdigit
  exact hdigit

theorem sameButHexCase_lower (h : Escaped isHexDigit path) :
    SameButHexCase path (mapEscapes isHexDigit Char.toLower path) := by
  refine sameSpelling_mapEscapes ?_ h
  intro c hc
  have hdigit := @forall_isHexDigit
    (fun c => isHexDigit c.toLower && c.toUpper == c.toLower.toUpper) (by decide) c hc
  rw [Bool.and_eq_true, beq_iff_eq] at hdigit
  exact hdigit

/-! ## Operations -/

theorem isSuffixOf_of_sameButHexCase {tail : Text} {c : Char} (hc : isHexDigit c = false)
    (hne : c ≠ '%') (htail : '%' ∉ tail) {path' : Text} (h : SameButHexCase path path') :
    (c :: tail).isSuffixOf path = (c :: tail).isSuffixOf path' := by
  rw [Bool.eq_iff_iff, List.isSuffixOf_iff_suffix, List.isSuffixOf_iff_suffix]
  exact ⟨h.suffix hc hne htail, h.symm.suffix hc hne htail⟩

/-- The operation of a request does not depend on the spelling of its path. -/
theorem proxyOperation_of_sameButHexCase {path' : Text} (h : SameButHexCase path path')
    (method : Text) : proxyOperation method path = proxyOperation method path' := by
  have hchat : "/chat/completions".toList.isSuffixOf path =
      "/chat/completions".toList.isSuffixOf path' :=
    isSuffixOf_of_sameButHexCase (by decide) (by decide) (by decide) h
  have hresponses : "/responses".toList.isSuffixOf path =
      "/responses".toList.isSuffixOf path' :=
    isSuffixOf_of_sameButHexCase (by decide) (by decide) (by decide) h
  have hmessages : "/messages".toList.isSuffixOf path =
      "/messages".toList.isSuffixOf path' :=
    isSuffixOf_of_sameButHexCase (by decide) (by decide) (by decide) h
  rw [proxyOperation, proxyOperation, inferEndpoint, inferEndpoint, hchat, hresponses, hmessages]

/-! ## Prefixes -/

/-- A prefix whose escapes have no letters is one of all spellings. -/
theorem prefix_of_noLetters {pre path' : Text} (hdigits : Escaped Char.isDigit pre)
    (h : SameButHexCase path path') (hpre : pre <+: canonicalForm path) : pre <+: path' := by
  refine prefix_of_spelling hdigits ?_ h hpre
  intro c hc hdigit
  have hself := @forall_isHexDigit (fun c => !c.toUpper.isDigit || c.toUpper == c) (by decide) c hc
  rw [hdigit] at hself
  exact eq_of_beq hself

/-! ## Bindings -/

/-- The bindings differ only in the letter case of hexadecimal digits in their path prefixes. -/
structure SameBinding (raw raw' : RawBinding) : Prop where
  pathPrefixes : List.Forall₂ (fun path path' => SameButHexCase path.toList path'.toList)
    raw.pathPrefixes raw'.pathPrefixes
  others : raw' = { raw with pathPrefixes := raw'.pathPrefixes }

theorem canonicalForms_eq {raws raws' : List String}
    (h : List.Forall₂ (fun path path' => SameButHexCase path.toList path'.toList) raws raws') :
    raws'.map (fun raw => canonicalForm raw.toList) =
      raws.map (fun raw => canonicalForm raw.toList) := by
  induction h with
  | nil => rfl
  | cons hsame _ ih =>
    rw [List.map_cons, List.map_cons, ih, canonicalForm, canonicalForm, hsame.mapEscapes_eq]

section

variable {env : Syntax}

variable {matcher : HttpMatch}

/-- **The spelling of a configured prefix is the same to the compiler.** -/
theorem compileHttpMatch_of_sameBinding {raw raw' : RawBinding} {matcher' : HttpMatch}
    (hsame : SameBinding raw raw') (h : compileHttpMatch env raw = .ok matcher)
    (h' : compileHttpMatch env raw' = .ok matcher') : matcher' = matcher := by
  obtain ⟨hpaths, hothers⟩ := hsame
  rw [hothers] at h'
  obtain ⟨hosts, pathPrefixes, methods, operations⟩ := compileHttpMatch_ok h
  obtain ⟨hosts', pathPrefixes', methods', operations'⟩ := compileHttpMatch_ok h'
  obtain ⟨a, b, c, d⟩ := matcher
  obtain ⟨a', b', c', d'⟩ := matcher'
  dsimp only at hosts hosts' methods methods' operations operations' pathPrefixes pathPrefixes'
  rw [hosts] at hosts'
  rw [methods] at methods'
  rw [operations] at operations'
  have hforms : b' = b := by
    rw [(compilePathPrefixes_ok pathPrefixes).1, (compilePathPrefixes_ok pathPrefixes').1,
      canonicalForms_eq hpaths]
  cases hosts'
  cases methods'
  cases operations'
  rw [hforms]

theorem SameBinding.refl {raw : RawBinding} (h : compileHttpMatch env raw = .ok matcher) :
    SameBinding raw raw := by
  obtain ⟨-, hpaths, -, -⟩ := compileHttpMatch_ok h
  refine ⟨List.forall₂_same.mpr ?_, rfl⟩
  intro path hmem
  exact .refl (canonicalPathPrefix_ok ((compilePathPrefixes_ok hpaths).2 path hmem)).1

/-- The request meets the matcher but for its path. -/
def meetsApartFromPath (matcher : HttpMatch) (host : Option CanonicalHost) (method path : Text) :
    Bool :=
  Dimension.admits hostMeets matcher.hosts host &&
    Dimension.admits eqIgnoreAsciiCase matcher.methods method &&
    Dimension.admits operationMeets matcher.operations (proxyOperation method path)

theorem httpMatches_eq_and (matcher : HttpMatch) (host : Option CanonicalHost)
    (method path : Text) :
    httpMatches matcher host method path (proxyOperation method path) =
      (meetsApartFromPath matcher host method path &&
        Dimension.admits List.isPrefixOf matcher.pathPrefixes path) := by
  rw [httpMatches_eq, meetsApartFromPath]
  ac_rfl

/-- The spelling of the path does not matter to the matcher: it asks for something else that the
request does not have, it asks for no prefix, the path has none of the prefixes in any spelling, or
it has one whose escapes have no letters. -/
def SpellingFree (matcher : HttpMatch) (host : Option CanonicalHost) (method path : Text) : Prop :=
  meetsApartFromPath matcher host method path = false ∨ matcher.pathPrefixes = [] ∨
    (∀ pre ∈ matcher.pathPrefixes, ¬ pre <+: canonicalForm path) ∨
    ∃ pre ∈ matcher.pathPrefixes, pre <+: canonicalForm path ∧ Escaped Char.isDigit pre

theorem admits_path_iff (hne : matcher.pathPrefixes ≠ []) {path : Text} :
    Dimension.admits List.isPrefixOf matcher.pathPrefixes path = true ↔
      ∃ pre ∈ matcher.pathPrefixes, pre <+: path := by
  rw [Dimension.admits_iff, or_iff_right hne]
  exact exists_congr fun _ => and_congr_right fun _ => List.isPrefixOf_iff_prefix

/-- Where the spelling does not matter, all spellings of a path meet the matcher or none does. -/
theorem SpellingFree.httpMatches_eq (hcanonical : CanonicalMatch matcher)
    {host : Option CanonicalHost} {method path path' : Text}
    (h : SpellingFree matcher host method path) (hsame : SameButHexCase path path') :
    httpMatches matcher host method path' (proxyOperation method path') =
      httpMatches matcher host method path (proxyOperation method path) := by
  have hother : meetsApartFromPath matcher host method path' =
      meetsApartFromPath matcher host method path := by
    rw [meetsApartFromPath, meetsApartFromPath, proxyOperation_of_sameButHexCase hsame]
  rw [httpMatches_eq_and, httpMatches_eq_and, hother]
  rcases h with hfails | hnil | hnone | hsome
  · rw [hfails, Bool.false_and, Bool.false_and]
  · rw [hnil, Dimension.admits_nil, Dimension.admits_nil]
  · congr 1
    by_cases hne : matcher.pathPrefixes = []
    · rw [hne, Dimension.admits_nil, Dimension.admits_nil]
    have hform : canonicalForm path' = canonicalForm path := hsame.symm.mapEscapes_eq
    have hmiss : ∀ p : Text, canonicalForm p = canonicalForm path →
        ¬ Dimension.admits List.isPrefixOf matcher.pathPrefixes p = true := by
      intro p hp hadmits
      obtain ⟨pre, hmem, hpre⟩ := (admits_path_iff hne).mp hadmits
      apply hnone pre hmem
      rw [← hp]
      exact (hcanonical.pathPrefixes pre hmem).prefix_canonicalForm hpre
    rw [Bool.eq_false_iff.mpr (hmiss path' hform), Bool.eq_false_iff.mpr (hmiss path rfl)]
  · obtain ⟨pre, hmem, hpre, hdigits⟩ := hsome
    have hne : matcher.pathPrefixes ≠ [] := List.ne_nil_of_mem hmem
    have hself : SameButHexCase path path := .refl hsame.escaped
    rw [(admits_path_iff hne).mpr ⟨pre, hmem, prefix_of_noLetters hdigits hsame hpre⟩,
      (admits_path_iff hne).mpr ⟨pre, hmem, prefix_of_noLetters hdigits hself hpre⟩]

/-- If upper case digits and lower case digits meet the matcher alike, the spelling of the path does
not matter. -/
theorem spellingFree_of_eq (hcanonical : CanonicalMatch matcher) {host : Option CanonicalHost}
    {method path : Text} (hpath : Escaped isHexDigit path)
    (h : ∀ path', SameButHexCase path path' →
      httpMatches matcher host method path' (proxyOperation method path') =
        httpMatches matcher host method path (proxyOperation method path)) :
    SpellingFree matcher host method path := by
  by_cases hother : meetsApartFromPath matcher host method path = false
  · exact Or.inl hother
  by_cases hne : matcher.pathPrefixes = []
  · exact Or.inr (Or.inl hne)
  by_cases hnone : ∀ pre ∈ matcher.pathPrefixes, ¬ pre <+: canonicalForm path
  · exact Or.inr (Or.inr (Or.inl hnone))
  refine Or.inr (Or.inr (Or.inr ?_))
  simp only [not_forall, not_not] at hnone
  obtain ⟨pre, hmem, hpre⟩ := hnone
  have hadmits : ∀ path', SameButHexCase path path' →
      Dimension.admits List.isPrefixOf matcher.pathPrefixes path' =
        Dimension.admits List.isPrefixOf matcher.pathPrefixes path := by
    intro path' hsame
    have hmatches := h path' hsame
    rw [httpMatches_eq_and, httpMatches_eq_and, meetsApartFromPath,
      ← proxyOperation_of_sameButHexCase hsame, ← meetsApartFromPath,
      Bool.of_not_eq_false hother, Bool.true_and, Bool.true_and] at hmatches
    exact hmatches
  -- the spelling with upper case digits is taken, so the one with lower case digits is
  have hupper := hadmits (canonicalForm path) (sameButHexCase_upper hpath)
  rw [(admits_path_iff hne).mpr ⟨pre, hmem, hpre⟩] at hupper
  have hlower := sameButHexCase_lower hpath
  obtain ⟨pre', hmem', hpre'⟩ := (admits_path_iff hne).mp ((hadmits _ hlower).trans hupper.symm)
  refine ⟨pre', hmem', ?_, (hcanonical.pathPrefixes pre' hmem').noLetters hpath hpre'⟩
  rw [canonicalForm, hlower.mapEscapes_eq]
  exact (hcanonical.pathPrefixes pre' hmem').prefix_canonicalForm hpre'

/-- **When the hexadecimal case of a path does not matter.** -/
theorem httpMatches_hexCase_iff {raw : RawBinding} {matcher : HttpMatch}
    (h : compileHttpMatch env raw = .ok matcher) {host : Option CanonicalHost} {method path : Text}
    (hpath : Escaped isHexDigit path) :
    (∀ raw' matcher' path', SameBinding raw raw' → compileHttpMatch env raw' = .ok matcher' →
      SameButHexCase path path' →
        httpMatches matcher' host method path' (proxyOperation method path') =
          httpMatches matcher host method path (proxyOperation method path)) ↔
      SpellingFree matcher host method path := by
  have hcanonical := canonicalMatch_of_ok h
  constructor
  · intro hall
    refine spellingFree_of_eq hcanonical hpath ?_
    intro path' hsame
    exact hall raw matcher path' (SameBinding.refl h) h hsame
  · intro hfree raw' matcher' path' hraw h' hsame
    rw [compileHttpMatch_of_sameBinding hraw h h']
    exact hfree.httpMatches_eq hcanonical hsame

end

/-! ## A binding for an escaped path -/

/-- A binding that is to refuse the requests for a path with an escaped slash. -/
def escapedSlash : RawBinding where
  id := "escaped-slash"
  listener := "proxy"
  action := .reject
  hosts := []
  pathPrefixes := ["/v1/%2fchat"]
  methods := []
  operations := []

/-- What the binding compiles to. -/
def escapedSlashMatch : HttpMatch where
  hosts := []
  pathPrefixes := ["/v1/%2Fchat".toList]
  methods := []
  operations := []

theorem compileHttpMatch_escapedSlash :
    compileHttpMatch localSyntax escapedSlash = .ok escapedSlashMatch := by
  decide +kernel

theorem httpMatches_hexCase_escapedSlash :
    (∀ raw' matcher' path', SameBinding escapedSlash raw' →
      compileHttpMatch localSyntax raw' = .ok matcher' →
      SameButHexCase "/v1/%2fchat/completions".toList path' →
        httpMatches matcher' none "POST".toList path' (proxyOperation "POST".toList path') =
          httpMatches escapedSlashMatch none "POST".toList "/v1/%2fchat/completions".toList
            (proxyOperation "POST".toList "/v1/%2fchat/completions".toList)) ↔
      SpellingFree escapedSlashMatch none "POST".toList "/v1/%2fchat/completions".toList :=
  httpMatches_hexCase_iff compileHttpMatch_escapedSlash (by decide +kernel)

/-- The binding does not match the path that it was configured with. -/
theorem escapedSlash_bypassed :
    ¬ ∀ (env : Syntax) (raw raw' : RawBinding) (matcher matcher' : HttpMatch)
      (host : Option CanonicalHost) (method path path' : Text),
      compileHttpMatch env raw = .ok matcher → SameBinding raw raw' →
      compileHttpMatch env raw' = .ok matcher' → SameButHexCase path path' →
        httpMatches matcher' host method path' (proxyOperation method path') =
          httpMatches matcher host method path (proxyOperation method path) := by
  intro hall
  have hform : canonicalForm "/v1/%2fchat".toList = "/v1/%2Fchat".toList := by decide +kernel
  have hescaped : Escaped isHexDigit "/v1/%2fchat".toList := by decide +kernel
  have hsame := sameButHexCase_upper hescaped
  rw [← canonicalForm, hform] at hsame
  have hmatches := hall localSyntax escapedSlash escapedSlash escapedSlashMatch escapedSlashMatch
    none "GET".toList _ _ compileHttpMatch_escapedSlash
    (SameBinding.refl compileHttpMatch_escapedSlash) compileHttpMatch_escapedSlash hsame
  exact absurd hmatches (by decide +kernel)

end Tokn.Router
