import Tokn.Lib.JsonText

/-!
# What the JSON readers return

Every reader takes something off the text, so twice the length of the text is enough fuel for the
three that need it (`readValue_succ`). What they return is a value that the value type can hold:
the fields of its objects are sorted and its numbers are in range (`Value.Valid`).

**Theorem (`valid_of_fromStr`).** A value that is read is valid and no deeper than the limit.

**Theorem (`fromStr_ne_string`).** A text is never read as the string of that text.
-/

namespace Tokn

/-! ## Values that the value type can hold -/

/-- The number is in the range of its variant, and the text of a double is its literal. -/
def Number.Valid : Number → Prop
  | .posInt n => n < 2 ^ 64
  | .negInt n => -2 ^ 63 ≤ n ∧ n < 0
  | .float text =>
    ∃ l, JsonText.readLiteral text.toList = some (l, []) ∧ l.isFloat = true

namespace Value

mutual

def Valid : Value → Prop
  | .null | .bool _ | .string _ => True
  | .number n => n.Valid
  | .array xs => ValidArray xs
  | .object fields => BTreeMap.Sorted fields ∧ ValidFields fields

def ValidArray : List Value → Prop
  | [] => True
  | x :: xs => Valid x ∧ ValidArray xs

def ValidFields : List (String × Value) → Prop
  | [] => True
  | (_, v) :: fields => Valid v ∧ ValidFields fields

end

mutual

/-- How deep arrays and objects nest. -/
def depth : Value → Nat
  | .null | .bool _ | .string _ | .number _ => 0
  | .array xs => depthArray xs + 1
  | .object fields => depthFields fields + 1

def depthArray : List Value → Nat
  | [] => 0
  | x :: xs => max (depth x) (depthArray xs)

def depthFields : List (String × Value) → Nat
  | [] => 0
  | (_, v) :: fields => max (depth v) (depthFields fields)

end

variable {fields : List (String × Value)}

theorem validFields_iff : ValidFields fields ↔ ∀ e ∈ fields, e.2.Valid := by
  induction fields with
  | nil => simp [ValidFields]
  | cons e fields ih => simp [ValidFields, ih]

theorem depthFields_le_iff {n : Nat} : depthFields fields ≤ n ↔ ∀ e ∈ fields, e.2.depth ≤ n := by
  induction fields with
  | nil => simp [depthFields]
  | cons e fields ih => simp [depthFields, ih]

/-- An object holds no other values than those of the fields it is built from. -/
theorem mem_of_mem_extend {m : List (String × Value)} {e : String × Value}
    (h : e ∈ BTreeMap.extend m fields) : e ∈ m ∨ e ∈ fields := by
  induction fields using List.reverseRecOn with
  | nil => exact Or.inl h
  | append_singleton fields e' ih =>
    rw [BTreeMap.extend_concat] at h
    rw [List.mem_append, List.mem_singleton]
    cases BTreeMap.mem_insert h with
    | inl hnew => exact Or.inr (Or.inr hnew)
    | inr hold => exact (ih hold).imp_right Or.inl

theorem valid_obj (h : ValidFields fields) : (obj fields).Valid := by
  refine ⟨BTreeMap.sorted_nil.extend fields, validFields_iff.mpr ?_⟩
  intro e he
  exact validFields_iff.mp h e ((mem_of_mem_extend he).resolve_left List.not_mem_nil)

theorem depth_obj_le {n : Nat} (h : depthFields fields ≤ n) : (obj fields).depth ≤ n + 1 := by
  refine Nat.succ_le_succ (depthFields_le_iff.mpr ?_)
  intro e he
  exact depthFields_le_iff.mp h e ((mem_of_mem_extend he).resolve_left List.not_mem_nil)

end Value

namespace JsonText

variable {floats : FloatReader}

/-! ## Progress -/

theorem map_fst_eq_some {α β γ : Type*} {o : Option (α × γ)} {f : α → β} {b : β} {rest : γ} :
    (o.map fun r => (f r.1, r.2)) = some (b, rest) ↔ ∃ a, o = some (a, rest) ∧ f a = b := by
  cases o <;> simp [Prod.ext_iff, and_comm]

variable {text rest : List Char} {c : Char} {v : Value}

theorem length_readDigits {digits : List Char} (h : readDigits text = some (digits, rest)) :
    digits ++ rest = text ∧ digits ≠ [] := by
  rw [readDigits] at h
  split_ifs at h with hne
  cases h
  exact ⟨List.takeWhile_append_dropWhile, hne⟩

theorem length_readWhole {digits : List Char} (h : readWhole text = some (digits, rest)) :
    rest.length < text.length := by
  obtain ⟨rfl, hne⟩ := length_readDigits (Option.filter_eq_some_iff.mp h).1
  have hpos := List.length_pos_iff.mpr hne
  rw [List.length_append]
  omega

theorem length_readFraction {fraction : List Char} (h : readFraction text = some (fraction, rest)) :
    rest.length ≤ text.length := by
  cases text with
  | nil => cases h; exact le_rfl
  | cons c text =>
    rw [readFraction] at h
    split_ifs at h
    · obtain ⟨digits, hdigits, -⟩ := map_fst_eq_some.mp h
      obtain ⟨rfl, -⟩ := length_readDigits hdigits
      simp only [List.length_cons, List.length_append]
      omega
    · cases h
      exact le_rfl

theorem length_readSign (text : List Char) : (readSign text).2.length ≤ text.length := by
  cases text with
  | nil => exact le_rfl
  | cons c text =>
    rw [readSign]
    split_ifs
    · exact Nat.le_succ _
    · exact le_rfl

theorem length_readExponent {exponent : List Char} (h : readExponent text = some (exponent, rest)) :
    rest.length ≤ text.length := by
  cases text with
  | nil => cases h; exact le_rfl
  | cons c text =>
    rw [readExponent] at h
    split_ifs at h
    · obtain ⟨⟨digits, _⟩, hdigits, he⟩ := Option.map_eq_some_iff.mp h
      cases he
      have hsign := length_readSign text
      rw [← (length_readDigits hdigits).1, List.length_append] at hsign
      dsimp only [List.length_cons]
      omega
    · cases h
      exact le_rfl

theorem length_readUnsigned {negative : Bool} {l : Literal}
    (h : readUnsigned negative text = some (l, rest)) : rest.length < text.length := by
  rw [readUnsigned] at h
  split at h
  · cases h
  next whole text₁ hwhole =>
    split at h
    · cases h
    next fraction text₂ hfraction =>
      obtain ⟨exponent, hexponent, -⟩ := map_fst_eq_some.mp h
      have h₁ := length_readWhole hwhole
      have h₂ := length_readFraction hfraction
      have h₃ := length_readExponent hexponent
      omega

theorem length_readLiteral {l : Literal} (h : readLiteral text = some (l, rest)) :
    rest.length < text.length := by
  cases text with
  | nil => cases h
  | cons c text =>
    rw [readLiteral] at h
    split_ifs at h
    · have hlt := length_readUnsigned h
      rw [List.length_cons]
      omega
    · exact length_readUnsigned h

theorem readNumber_eq_some {n : Number} (h : readNumber floats text = some (n, rest)) :
    ∃ l, readLiteral text = some (l, rest) ∧ numberOf floats l = some n := by
  obtain ⟨⟨l, _⟩, hliteral, hl⟩ := Option.bind_eq_some_iff.mp h
  obtain ⟨_, hn, he⟩ := Option.map_eq_some_iff.mp hl
  cases he
  exact ⟨l, hliteral, hn⟩

theorem length_readHex {n : Nat} (h : readHex text = some (n, rest)) :
    rest.length + 4 = text.length := by
  unfold readHex at h
  split at h
  · obtain ⟨_, -, he⟩ := Option.map_eq_some_iff.mp h
    cases he
    rfl
  · cases h

theorem length_readTrailing {n : Nat} (h : readTrailing n text = some (c, rest)) :
    rest.length < text.length := by
  unfold readTrailing at h
  split at h
  next a b text =>
    split_ifs at h
    obtain ⟨⟨m, text₁⟩, hhex, htrailing⟩ := Option.bind_eq_some_iff.mp h
    dsimp only at htrailing
    split_ifs at htrailing
    obtain ⟨-, rfl⟩ := Prod.mk.inj (Option.some.inj htrailing)
    have hlen := length_readHex hhex
    simp only [List.length_cons]
    omega
  · cases h

theorem length_readUnicode (h : readUnicode text = some (c, rest)) : rest.length < text.length := by
  obtain ⟨⟨n, text₁⟩, hhex, hunit⟩ := Option.bind_eq_some_iff.mp h
  have hlen := length_readHex hhex
  dsimp only at hunit
  split_ifs at hunit
  · have hlt := length_readTrailing hunit
    omega
  · cases hunit
    omega

theorem length_readEscape (h : readEscape text = some (c, rest)) : rest.length < text.length := by
  cases text with
  | nil => cases h
  | cons d text =>
    rw [readEscape] at h
    split_ifs at h
    · have hlt := length_readUnicode h
      rw [List.length_cons]
      omega
    · obtain ⟨_, -, he⟩ := Option.map_eq_some_iff.mp h
      cases he
      exact Nat.lt_succ_self _

theorem length_readChar (h : readChar text = some (c, rest)) : rest.length < text.length := by
  cases text with
  | nil => cases h
  | cons d text =>
    rw [readChar] at h
    split_ifs at h
    · have hlt := length_readEscape h
      rw [List.length_cons]
      omega
    · cases h
      exact Nat.lt_succ_self _

/-- The characters that are read are fewer than those they are read from. -/
theorem length_readChars {fuel : Nat} {chars : List Char}
    (h : readChars fuel text = some (chars, rest)) : chars.length + rest.length < text.length := by
  induction fuel generalizing text chars with
  | zero => cases h
  | succ fuel ih =>
    rw [readChars] at h
    split_ifs at h with hquote
    · cases h
      cases text with
      | nil => cases hquote
      | cons c text => simp
    · split at h
      · cases h
      next c text₁ hchar =>
        obtain ⟨chars, hchars, rfl⟩ := map_fst_eq_some.mp h
        have h₁ := length_readChar hchar
        have h₂ := ih hchars
        rw [List.length_cons]
        omega

theorem length_readString {s : String} (h : readString text = some (s, rest)) :
    s.length + rest.length < text.length := by
  obtain ⟨chars, hchars, rfl⟩ := map_fst_eq_some.mp h
  rw [String.length_ofList]
  exact length_readChars hchars

theorem length_skipSpace (text : List Char) : (skipSpace text).length ≤ text.length :=
  (List.dropWhile_sublist isSpace).length_le

theorem length_readKeyword (h : readKeyword text = some (v, rest)) : rest.length < text.length := by
  have hdrop : ∀ pre : List Char, pre.isPrefixOf text = true → ∀ n, 0 < n → n ≤ pre.length →
      (text.drop n).length < text.length := by
    intro pre hpre n hpos hn
    have hlen := (List.isPrefixOf_iff_prefix.mp hpre).length_le
    rw [List.length_drop]
    omega
  rw [readKeyword] at h
  split_ifs at h with hnull htrue hfalse
  · cases h
    exact hdrop _ hnull 4 (by decide) (by decide)
  · cases h
    exact hdrop _ htrue 4 (by decide) (by decide)
  · cases h
    exact hdrop _ hfalse 5 (by decide) (by decide)

theorem length_tail_of_head? (h : text.head? = some c) : text.tail.length + 1 = text.length := by
  cases text with
  | nil => cases h
  | cons d text => rfl

theorem length_readScalar (h : readScalar floats text = some (v, rest)) :
    rest.length < text.length := by
  rw [readScalar] at h
  split_ifs at h with hquote
  · obtain ⟨s, hstring, -⟩ := map_fst_eq_some.mp h
    have h₁ := length_readString hstring
    have h₂ := length_tail_of_head? hquote
    omega
  · obtain ⟨n, hnumber, -⟩ := map_fst_eq_some.mp h
    obtain ⟨l, hliteral, -⟩ := readNumber_eq_some hnumber
    exact length_readLiteral hliteral
  · exact length_readKeyword h

theorem length_readKey {k : String} (h : readKey text = some (k, rest)) :
    rest.length + 2 < text.length := by
  rw [readKey] at h
  split_ifs at h with hquote
  obtain ⟨⟨s, text₁⟩, hstring, hcolon⟩ := Option.bind_eq_some_iff.mp h
  dsimp only at hcolon
  split_ifs at hcolon with hhead
  cases hcolon
  have h₁ := length_readString hstring
  have h₂ := length_tail_of_head? hquote
  have h₃ := length_tail_of_head? hhead
  have h₄ := length_skipSpace text₁
  omega

mutual

theorem length_readValue : ∀ {fuel depth : Nat} {text rest : List Char} {v : Value},
    readValue floats fuel depth text = some (v, rest) → rest.length < text.length
  | 0, _, _, _, _, h => by cases h
  | fuel + 1, depth, text, rest, v, h => by
    have hskip := length_skipSpace text
    rw [readValue] at h
    split at h
    · cases h
    next c text₁ hspace =>
      rw [hspace, List.length_cons] at hskip
      have hskip' := length_skipSpace text₁
      split_ifs at h with _ _ hclose _ _ hclose
      · cases h
        have htail := length_tail_of_head? hclose
        omega
      · obtain ⟨xs, hxs, -⟩ := map_fst_eq_some.mp h
        have hlt := length_readElements hxs
        omega
      · cases h
        have htail := length_tail_of_head? hclose
        omega
      · obtain ⟨fields, hfields, -⟩ := map_fst_eq_some.mp h
        have hlt := length_readFields hfields
        omega
      · have hlt := length_readScalar h
        rw [List.length_cons] at hlt
        omega

theorem length_readElements : ∀ {fuel depth : Nat} {text rest : List Char} {xs : List Value},
    readElements floats fuel depth text = some (xs, rest) → rest.length < text.length
  | 0, _, _, _, _, h => by cases h
  | fuel + 1, depth, text, rest, xs, h => by
    rw [readElements] at h
    split at h
    · cases h
    next v text₁ hv =>
      have hlt := length_readValue hv
      have hskip := length_skipSpace text₁
      split at h
      · cases h
      next c text₂ hspace =>
        rw [hspace, List.length_cons] at hskip
        split_ifs at h
        · obtain ⟨xs, hxs, -⟩ := map_fst_eq_some.mp h
          have hlt' := length_readElements hxs
          omega
        · cases h
          omega

theorem length_readFields : ∀ {fuel depth : Nat} {text rest : List Char}
    {fields : List (String × Value)},
    readFields floats fuel depth text = some (fields, rest) → rest.length < text.length
  | 0, _, _, _, _, h => by cases h
  | fuel + 1, depth, text, rest, fields, h => by
    have hspace' := length_skipSpace text
    rw [readFields] at h
    split at h
    · cases h
    next k text₀ hkey =>
      have hkeylt := length_readKey hkey
      split at h
      · cases h
      next v text₁ hv =>
        have hlt := length_readValue hv
        have hskip := length_skipSpace text₁
        split at h
        · cases h
        next c text₂ hspace =>
          rw [hspace, List.length_cons] at hskip
          split_ifs at h
          · obtain ⟨fields, hfields, -⟩ := map_fst_eq_some.mp h
            have hlt' := length_readFields hfields
            omega
          · cases h
            omega

end

/-! ## Fuel -/

mutual

/-- More fuel than twice the length of the text changes nothing. -/
theorem readValue_succ : ∀ {fuel depth : Nat} {text : List Char}, 2 * text.length ≤ fuel →
    readValue floats (fuel + 1) depth text = readValue floats fuel depth text
  | 0, depth, text, h => by
    rw [List.eq_nil_of_length_eq_zero (show text.length = 0 by omega)]
    rfl
  | fuel + 1, depth, text, h => by
    have hskip := length_skipSpace text
    rw [readValue, readValue]
    cases hspace : skipSpace text with
    | nil => rfl
    | cons c text₁ =>
      rw [hspace, List.length_cons] at hskip
      have hfuel : 2 * text₁.length + 1 ≤ fuel := by omega
      dsimp only
      rw [readElements_succ hfuel, readFields_succ hfuel]

theorem readElements_succ : ∀ {fuel depth : Nat} {text : List Char}, 2 * text.length + 1 ≤ fuel →
    readElements floats (fuel + 1) depth text = readElements floats fuel depth text
  | 0, _, _, h => by omega
  | fuel + 1, depth, text, h => by
    have hfuel : 2 * text.length ≤ fuel := by omega
    rw [readElements, readElements, readValue_succ hfuel]
    cases hv : readValue floats fuel depth text with
    | none => rfl
    | some r =>
      obtain ⟨v, text₁⟩ := r
      have hlt := length_readValue hv
      have hskip := length_skipSpace text₁
      dsimp only
      cases hspace : skipSpace text₁ with
      | nil => rfl
      | cons c text₂ =>
        rw [hspace, List.length_cons] at hskip
        have hfuel' : 2 * text₂.length + 1 ≤ fuel := by omega
        dsimp only
        rw [readElements_succ hfuel']

theorem readFields_succ : ∀ {fuel depth : Nat} {text : List Char}, 2 * text.length + 1 ≤ fuel →
    readFields floats (fuel + 1) depth text = readFields floats fuel depth text
  | 0, _, _, h => by omega
  | fuel + 1, depth, text, h => by
    have hskip₀ := length_skipSpace text
    rw [readFields, readFields]
    cases hkey : readKey (skipSpace text) with
    | none => rfl
    | some r₀ =>
      obtain ⟨k, text₀⟩ := r₀
      have hkeylt := length_readKey hkey
      have hfuel : 2 * text₀.length ≤ fuel := by omega
      dsimp only
      rw [readValue_succ hfuel]
      cases hv : readValue floats fuel depth text₀ with
      | none => rfl
      | some r =>
        obtain ⟨v, text₁⟩ := r
        have hlt := length_readValue hv
        have hskip := length_skipSpace text₁
        dsimp only
        cases hspace : skipSpace text₁ with
        | nil => rfl
        | cons c text₂ =>
          rw [hspace, List.length_cons] at hskip
          have hfuel' : 2 * text₂.length + 1 ≤ fuel := by omega
          dsimp only
          rw [readFields_succ hfuel']

end

/-! ## Validity -/

theorem valid_of_float {l : Literal} {n : Number} (h : float floats l = some n) : n.Valid := by
  obtain ⟨l', hread, rfl⟩ := Option.map_eq_some_iff.mp h
  refine ⟨l', ?_, (floats.printed l l' hread).2⟩
  rw [String.toList_ofList]
  exact (floats.printed l l' hread).1

theorem valid_of_numberOf {l : Literal} {n : Number} (h : numberOf floats l = some n) :
    n.Valid := by
  rw [numberOf] at h
  split_ifs at h with _ _ hneg hlt
  · exact valid_of_float h
  · cases h
    have hbound := hneg.2
    have hpos := Nat.pos_of_ne_zero hneg.1
    constructor <;> omega
  · exact valid_of_float h
  · cases h
    exact hlt
  · exact valid_of_float h

theorem valid_of_readScalar (h : readScalar floats text = some (v, rest)) :
    v.Valid ∧ v.depth = 0 := by
  rw [readScalar] at h
  split_ifs at h
  · obtain ⟨s, -, rfl⟩ := map_fst_eq_some.mp h
    exact ⟨trivial, rfl⟩
  · obtain ⟨n, hnumber, rfl⟩ := map_fst_eq_some.mp h
    obtain ⟨l, -, hn⟩ := readNumber_eq_some hnumber
    exact ⟨valid_of_numberOf hn, rfl⟩
  · rw [readKeyword] at h
    split_ifs at h <;> (cases h; exact ⟨trivial, rfl⟩)

mutual

theorem valid_of_readValue : ∀ {fuel depth : Nat} {text rest : List Char} {v : Value},
    readValue floats fuel depth text = some (v, rest) → v.Valid ∧ v.depth ≤ depth
  | 0, _, _, _, _, h => by cases h
  | fuel + 1, depth, text, rest, v, h => by
    rw [readValue] at h
    split at h
    · cases h
    · split_ifs at h with _ hdepth _ _ hdepth
      · cases h
        exact ⟨trivial, Nat.pos_of_ne_zero hdepth⟩
      · obtain ⟨xs, hxs, rfl⟩ := map_fst_eq_some.mp h
        obtain ⟨hvalid, hle⟩ := valid_of_readElements hxs
        refine ⟨hvalid, ?_⟩
        rw [Value.depth]
        omega
      · cases h
        exact ⟨⟨BTreeMap.sorted_nil, trivial⟩, Nat.pos_of_ne_zero hdepth⟩
      · obtain ⟨fields, hfields, rfl⟩ := map_fst_eq_some.mp h
        obtain ⟨hvalid, hle⟩ := valid_of_readFields hfields
        refine ⟨Value.valid_obj hvalid, ?_⟩
        have hobj := Value.depth_obj_le hle
        omega
      · obtain ⟨hvalid, hzero⟩ := valid_of_readScalar h
        exact ⟨hvalid, hzero ▸ Nat.zero_le _⟩

theorem valid_of_readElements : ∀ {fuel depth : Nat} {text rest : List Char} {xs : List Value},
    readElements floats fuel depth text = some (xs, rest) →
      Value.ValidArray xs ∧ Value.depthArray xs ≤ depth
  | 0, _, _, _, _, h => by cases h
  | fuel + 1, depth, text, rest, xs, h => by
    rw [readElements] at h
    split at h
    · cases h
    next v text₁ hv =>
      obtain ⟨hvalid, hle⟩ := valid_of_readValue hv
      split at h
      · cases h
      · split_ifs at h
        · obtain ⟨xs, hxs, rfl⟩ := map_fst_eq_some.mp h
          obtain ⟨hvalid', hle'⟩ := valid_of_readElements hxs
          exact ⟨⟨hvalid, hvalid'⟩, max_le hle hle'⟩
        · cases h
          exact ⟨⟨hvalid, trivial⟩, max_le hle (Nat.zero_le _)⟩

theorem valid_of_readFields : ∀ {fuel depth : Nat} {text rest : List Char}
    {fields : List (String × Value)}, readFields floats fuel depth text = some (fields, rest) →
      Value.ValidFields fields ∧ Value.depthFields fields ≤ depth
  | 0, _, _, _, _, h => by cases h
  | fuel + 1, depth, text, rest, fields, h => by
    rw [readFields] at h
    split at h
    · cases h
    · split at h
      · cases h
      next v text₁ hv =>
        obtain ⟨hvalid, hle⟩ := valid_of_readValue hv
        split at h
        · cases h
        · split_ifs at h
          · obtain ⟨fields, hfields, rfl⟩ := map_fst_eq_some.mp h
            obtain ⟨hvalid', hle'⟩ := valid_of_readFields hfields
            exact ⟨⟨hvalid, hvalid'⟩, max_le hle hle'⟩
          · cases h
            exact ⟨⟨hvalid, trivial⟩, max_le hle (Nat.zero_le _)⟩

end

theorem fromStr_eq_some {s : String} (h : fromStr floats s = some v) :
    ∃ rest, readValue floats (2 * s.length + 2) MAX_DEPTH s.toList = some (v, rest) := by
  obtain ⟨⟨w, rest⟩, hread, hw⟩ := Option.bind_eq_some_iff.mp h
  dsimp only at hw
  split_ifs at hw
  cases hw
  exact ⟨rest, hread⟩

/-- A value that is read is valid and no deeper than the limit. -/
theorem valid_of_fromStr {s : String} (h : fromStr floats s = some v) :
    v.Valid ∧ v.depth ≤ MAX_DEPTH := by
  obtain ⟨rest, hread⟩ := fromStr_eq_some h
  exact valid_of_readValue hread

theorem length_of_readValue_string {fuel depth : Nat} {s : String}
    (h : readValue floats fuel depth text = some (.string s, rest)) : s.length < text.length := by
  cases fuel with
  | zero => cases h
  | succ fuel =>
    have hskip := length_skipSpace text
    rw [readValue] at h
    split at h
    · cases h
    next c text₁ hspace =>
      split_ifs at h
      · cases h
      · cases (map_fst_eq_some.mp h).choose_spec.2
      · cases h
      · cases (map_fst_eq_some.mp h).choose_spec.2
      · rw [hspace] at hskip
        rw [readScalar] at h
        split_ifs at h with hquote
        · obtain ⟨s', hstring, he⟩ := map_fst_eq_some.mp h
          cases he
          have hlt := length_readString hstring
          have htail := length_tail_of_head? hquote
          omega
        · cases (map_fst_eq_some.mp h).choose_spec.2
        · rw [readKeyword] at h
          split_ifs at h <;> cases h

/-- A text is never read as the string of that text, since the quotes do not count. -/
theorem fromStr_ne_string (s : String) : fromStr floats s ≠ some (.string s) := by
  intro h
  obtain ⟨rest, hread⟩ := fromStr_eq_some h
  have hlt := length_of_readValue_string hread
  rw [String.length_toList] at hlt
  exact lt_irrefl _ hlt

end JsonText

end Tokn
