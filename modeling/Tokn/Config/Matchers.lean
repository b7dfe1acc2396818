import Tokn.Config.Listeners
import Tokn.Lib.Escapes

/-!
# Compiled matchers

A matcher that compiles has canonical values only. The escapes of its path prefixes are complete
and have upper case digits, and its methods are tokens without lower case letters.
-/

namespace Tokn.Config

open Tokn.Policy
open Tokn.Escapes
open Tokn.Except (bind_eq_ok)

/-! ## Digits -/

/-- The digits that a canonical escape has. -/
def isUpperHexDigit (c : Char) : Bool := c.isDigit || (65 ≤ c.toNat && c.toNat ≤ 70)

theorem mem_of_isHexDigit {c : Char} (h : isHexDigit c = true) :
    c ∈ "0123456789abcdefABCDEF".toList := by
  rw [← Char.ofNat_toNat c] at h ⊢
  have hrange : 48 ≤ c.toNat ∧ c.toNat ≤ 57 ∨ 97 ≤ c.toNat ∧ c.toNat ≤ 102 ∨
      65 ≤ c.toNat ∧ c.toNat ≤ 70 := by
    rw [Char.ofNat_toNat, isHexDigit, Char.isDigit] at h
    simp only [Bool.or_eq_true, Bool.and_eq_true, decide_eq_true_eq, or_assoc] at h
    exact h
  generalize c.toNat = n at hrange
  rcases hrange with ⟨hlow, hhigh⟩ | ⟨hlow, hhigh⟩ | ⟨hlow, hhigh⟩ <;> interval_cases n <;> decide

/-- What holds of each of the digits. -/
theorem forall_isHexDigit {p : Char → Bool} (h : "0123456789abcdefABCDEF".toList.all p = true)
    {c : Char} (hc : isHexDigit c = true) : p c = true :=
  List.all_eq_true.mp h c (mem_of_isHexDigit hc)

theorem isUpperHexDigit_toUpper {c : Char} (h : isHexDigit c = true) :
    isUpperHexDigit c.toUpper = true :=
  @forall_isHexDigit (fun c => isUpperHexDigit c.toUpper) (by decide) c h

theorem isHexDigit_of_isUpperHexDigit {c : Char} (h : isUpperHexDigit c = true) :
    isHexDigit c = true := by
  rw [isUpperHexDigit, Bool.or_eq_true] at h
  rw [isHexDigit, Bool.or_eq_true, Bool.or_eq_true]
  exact h.imp_left Or.inl

/-! ## Path prefixes -/

/-- What stands in a path: a slash, an escape or a character of RFC 3986. -/
def isPathChar (c : Char) : Bool := c = '%' || c = '/' || isRfc3986Pchar c

theorem isPathChar_toUpper {c : Char} (h : isHexDigit c = true) : isPathChar c.toUpper = true :=
  @forall_isHexDigit (fun c => isPathChar c.toUpper) (by decide) c h

/-- The canonical form of a path: its escapes get upper case digits. -/
def canonicalForm (raw : Text) : Text := mapEscapes isHexDigit Char.toUpper raw

/-- A path prefix in its canonical form. -/
structure CanonicalPath (path : Text) : Prop where
  absolute : path.head? = some '/'
  notRoot : path ≠ ['/']
  escaped : Escaped isUpperHexDigit path
  chars : ∀ c ∈ path, isPathChar c = true

theorem canonicalPathLoop_ok {raw path : Text} (h : canonicalPathLoop raw = .ok path) :
    Escaped isHexDigit raw ∧ path = canonicalForm raw ∧
      ∀ c ∈ path, isPathChar c = true := by
  fun_induction canonicalPathLoop raw generalizing path with
  | case1 =>
    cases h
    exact ⟨.nil, rfl, fun c hc => absurd hc List.not_mem_nil⟩
  | case2 a b rest hdigits ih =>
    rw [Bool.and_eq_true] at hdigits
    obtain ⟨canonical, hcanonical, hpure⟩ := bind_eq_ok.mp h
    cases hpure
    obtain ⟨hescaped, hpath, hchars⟩ := ih hcanonical
    refine ⟨.escape hdigits.1 hdigits.2 hescaped, ?_, ?_⟩
    · rw [canonicalForm, mapEscapes_escape hdigits.1 hdigits.2, hpath, canonicalForm]
    · intro c hc
      simp only [List.mem_cons] at hc
      rcases hc with rfl | rfl | rfl | hc
      · rfl
      · exact isPathChar_toUpper hdigits.1
      · exact isPathChar_toUpper hdigits.2
      · exact hchars c hc
  | case3 => cases h
  | case4 => cases h
  | case5 => cases h
  | case6 c rest hne hchar ih =>
    obtain ⟨canonical, hcanonical, hpure⟩ := bind_eq_ok.mp h
    cases hpure
    obtain ⟨hescaped, hpath, hchars⟩ := ih hcanonical
    refine ⟨.plain hne hescaped, ?_, ?_⟩
    · rw [canonicalForm, mapEscapes_plain hne, hpath, canonicalForm]
    · intro d hd
      rcases List.mem_cons.mp hd with rfl | hd
      · rw [isPathChar, Bool.or_eq_true, Bool.or_eq_true, decide_eq_true_eq, decide_eq_true_eq]
        by_cases hslash : d = '/'
        · exact Or.inl (Or.inr hslash)
        · refine Or.inr ?_
          by_contra hbad
          exact hchar (by rw [Bool.and_eq_true, decide_eq_true_eq]; exact ⟨hslash, by
            rw [Bool.not_eq_true] at hbad; rw [hbad]; rfl⟩)
      · exact hchars d hd

theorem canonicalPathPrefix_ok {raw path : Text} (h : canonicalPathPrefix raw = .ok path) :
    Escaped isHexDigit raw ∧ path = canonicalForm raw ∧
      CanonicalPath path := by
  unfold canonicalPathPrefix at h
  split_ifs at h with habsolute hroot hascii
  obtain ⟨canonical, hloop, hrest⟩ := bind_eq_ok.mp h
  obtain ⟨-, -, hpure⟩ := bind_eq_ok.mp hrest
  cases hpure
  obtain ⟨hescaped, hpath, hchars⟩ := canonicalPathLoop_ok hloop
  refine ⟨hescaped, hpath, ?_⟩
  have hhead : raw.head? = some '/' := not_not.mp habsolute
  obtain ⟨tail, rfl⟩ := List.head?_eq_some_iff.mp hhead
  rw [canonicalForm, mapEscapes_plain (by decide)] at hpath
  have hescaped' : Escaped isHexDigit tail := (escaped_cons_iff (by decide)).mp hescaped
  constructor
  · rw [hpath]
    rfl
  · rw [hpath]
    intro heq
    have htail : mapEscapes isHexDigit Char.toUpper tail = [] := (List.cons.inj heq).2
    cases hescaped' with
    | nil => exact hroot rfl
    | escape ha hb _ =>
      rw [mapEscapes_escape ha hb] at htail
      cases htail
    | plain hc _ =>
      rw [mapEscapes_plain hc] at htail
      cases htail
  · rw [hpath]
    exact .plain (by decide) (escaped_mapEscapes (fun _ => isUpperHexDigit_toUpper) hescaped')
  · exact hchars

theorem canonicalForm_eq_self {path : Text} (h : Escaped isUpperHexDigit path) :
    canonicalForm path = path := by
  refine mapEscapes_eq_self ?_ h
  intro c hc
  have hdigit := isHexDigit_of_isUpperHexDigit hc
  refine ⟨hdigit, ?_⟩
  have hupper := @forall_isHexDigit (fun c => !isUpperHexDigit c || c.toUpper == c) (by decide) c
    hdigit
  rw [hc] at hupper
  exact eq_of_beq hupper

theorem CanonicalPath.canonicalForm_eq {pre : Text} (h : CanonicalPath pre) :
    canonicalForm pre = pre := canonicalForm_eq_self h.escaped

/-- A prefix of a path is one of its canonical form. -/
theorem CanonicalPath.prefix_canonicalForm {pre path : Text} (h : CanonicalPath pre)
    (hpre : pre <+: path) : pre <+: canonicalForm path := by
  have hescaped : Escaped isHexDigit pre := h.escaped.mono fun _ => isHexDigit_of_isUpperHexDigit
  rw [← h.canonicalForm_eq]
  exact mapEscapes_prefix hescaped hpre

/-- A prefix of the spelling with lower case digits has none with letters. -/
theorem CanonicalPath.noLetters {pre path : Text} (h : CanonicalPath pre)
    (hpath : Escaped isHexDigit path) (hpre : pre <+: mapEscapes isHexDigit Char.toLower path) :
    Escaped Char.isDigit pre := by
  refine escaped_of_prefix_mapEscapes h.escaped hpath hpre ?_
  intro c hc hupper
  have hdigit := @forall_isHexDigit (fun c => !isUpperHexDigit c.toLower || c.toLower.isDigit)
    (by decide) c hc
  rw [hupper] at hdigit
  exact hdigit

/-! ## Dimensions -/

theorem claim_ok {α : Type} [DecidableEq α] {covers : α → α → Bool} {location : String}
    {claimed claimed' : List (String × α)} {raw : String} {value : α}
    (h : claim covers location claimed raw value = .ok claimed') :
    claimed' = claimed ++ [(raw, value)] := by
  rw [claim] at h
  split at h
  · cases h
  · cases h
    rfl

theorem located_ok {α : Type} {location : String} {x : Except InvalidValue α} {a : α}
    (h : located location x = .ok a) : x = .ok a := by
  cases x with
  | ok b =>
    cases h
    rfl
  | error reason => cases h

/-- The prefixes are the canonical forms of the configured ones. -/
theorem compilePathPrefixes_ok {rawPaths : List String} {bindingId : String} {paths : List Text}
    (h : compilePathPrefixes rawPaths bindingId = .ok paths) :
    paths = rawPaths.map (fun raw => canonicalForm raw.toList) ∧
      ∀ raw ∈ rawPaths, canonicalPathPrefix raw.toList = .ok (canonicalForm raw.toList) := by
  obtain ⟨claimed, hfold, hpure⟩ := bind_eq_ok.mp h
  cases hpure
  refine Except.foldlM_induction
    (fun raws (claimed : List (String × Text)) =>
      claimed.map Prod.snd = raws.map (fun raw => canonicalForm raw.toList) ∧
        ∀ raw ∈ raws, canonicalPathPrefix raw.toList = .ok (canonicalForm raw.toList))
    ⟨rfl, fun _ h => absurd h List.not_mem_nil⟩ ?_ hfold
  intro raws raw claimed claimed' _ hclaimed hstep
  obtain ⟨path, hpath, hclaim⟩ := bind_eq_ok.mp hstep
  have haccepted := located_ok hpath
  have hform : path = canonicalForm raw.toList := (canonicalPathPrefix_ok haccepted).2.1
  rw [hform] at haccepted hclaim
  rw [claim_ok hclaim, List.map_append, List.map_append, hclaimed.1]
  refine ⟨rfl, ?_⟩
  intro raw' hmem
  rcases List.mem_append.mp hmem with hold | hnew
  · exact hclaimed.2 raw' hold
  · rw [List.mem_singleton.mp hnew]
    exact haccepted

theorem checkMethod_ok {raw method : Text} (h : checkMethod raw = .ok method) :
    method = raw ∧ raw ≠ [] ∧ (∀ c ∈ raw, isHttpTokenChar c = true) ∧
      ∀ c ∈ raw, c.isLower = false := by
  unfold checkMethod at h
  split_ifs at h with htoken hstar hlower
  cases h
  rw [Bool.or_eq_true, not_or, List.isEmpty_iff, Bool.not_eq_true, Bool.not_eq_false',
    List.all_eq_true] at htoken
  refine ⟨rfl, htoken.1, htoken.2, ?_⟩
  intro c hc
  rw [Bool.not_eq_true, List.any_eq_false] at hlower
  exact Bool.eq_false_iff.mpr (hlower c hc)

/-- A method as a matcher has it. -/
structure CanonicalMethod (method : Text) : Prop where
  nonempty : method ≠ []
  token : ∀ c ∈ method, isHttpTokenChar c = true
  noLower : ∀ c ∈ method, c.isLower = false

theorem compileMethods_ok {rawMethods : List String} {bindingId : String} {methods : List Text}
    (h : compileMethods rawMethods bindingId = .ok methods) :
    ∀ method ∈ methods, CanonicalMethod method := by
  refine Except.foldlM_invariant (fun methods : List Text =>
    ∀ method ∈ methods, CanonicalMethod method) (fun _ h => absurd h List.not_mem_nil) ?_ h
  intro claimed raw claimed' hclaimed hstep method hmem
  obtain ⟨method', hmethod, hrest⟩ := bind_eq_ok.mp hstep
  obtain ⟨-, -, hpure⟩ := bind_eq_ok.mp hrest
  cases hpure
  rcases List.mem_append.mp hmem with hold | hnew
  · exact hclaimed method hold
  · rw [List.mem_singleton.mp hnew]
    obtain ⟨rfl, hne, htoken, hlower⟩ := checkMethod_ok (located_ok hmethod)
    exact ⟨hne, htoken, hlower⟩

/-- A matcher as the compiler makes it. -/
structure CanonicalMatch (matcher : HttpMatch) : Prop where
  pathPrefixes : ∀ path ∈ matcher.pathPrefixes, CanonicalPath path
  methods : ∀ method ∈ matcher.methods, CanonicalMethod method

section

variable {env : Syntax}

/-- The parts of a compiled matcher. -/
theorem compileHttpMatch_ok {raw : RawBinding} {matcher : HttpMatch}
    (h : compileHttpMatch env raw = .ok matcher) :
    compileHosts env raw.hosts s!"bindings.{raw.id}.hosts" = .ok matcher.hosts ∧
      compilePathPrefixes raw.pathPrefixes raw.id = .ok matcher.pathPrefixes ∧
      compileMethods raw.methods raw.id = .ok matcher.methods ∧
      compileOperations raw.operations raw.id = .ok matcher.operations := by
  obtain ⟨hosts, hhosts, h⟩ := bind_eq_ok.mp h
  obtain ⟨pathPrefixes, hpaths, h⟩ := bind_eq_ok.mp h
  obtain ⟨methods, hmethods, h⟩ := bind_eq_ok.mp h
  obtain ⟨operations, hoperations, h⟩ := bind_eq_ok.mp h
  rw [HttpMatch.new] at h
  split at h
  · rename_i matcher' hnew
    cases h
    split_ifs at hnew
    cases hnew
    exact ⟨hhosts, hpaths, hmethods, hoperations⟩
  · cases h

theorem canonicalMatch_of_ok {raw : RawBinding} {matcher : HttpMatch}
    (h : compileHttpMatch env raw = .ok matcher) : CanonicalMatch matcher := by
  obtain ⟨-, hpaths, hmethods, -⟩ := compileHttpMatch_ok h
  obtain ⟨hforms, haccepted⟩ := compilePathPrefixes_ok hpaths
  refine ⟨?_, compileMethods_ok hmethods⟩
  intro path hmem
  rw [hforms] at hmem
  obtain ⟨raw, hraw, rfl⟩ := List.mem_map.mp hmem
  exact (canonicalPathPrefix_ok (haccepted raw hraw)).2.2

end

end Tokn.Config
