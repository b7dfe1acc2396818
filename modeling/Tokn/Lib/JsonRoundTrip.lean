import Mathlib.Data.List.TakeWhile
import Tokn.Lib.JsonRead

/-!
# Reading a written value back

`toText` writes a value in one way, and reading that text gives the value again except for its
doubles, each of which is read from its own text (`reread`).

**Theorem (`fromStr_toText_iff`).** A valid value is read back from its text iff it is no deeper
than the limit and every double of it is read back from its text.
-/

namespace Tokn.JsonText

open Value

variable {floats : FloatReader}

/-! ## Texts that end a literal -/

/-- The characters that a number literal can go on with. -/
def isNumberChar (c : Char) : Bool :=
  c.isDigit || c = '.' || c = 'e' || c = 'E' || c = '+' || c = '-'

/-- No number literal goes on into the text. -/
def Delimited (rest : List Char) : Prop := ∀ c, rest.head? = some c → isNumberChar c = false

theorem delimited_nil : Delimited [] := nofun

theorem delimited_cons {c : Char} (h : isNumberChar c = false) (rest : List Char) :
    Delimited (c :: rest) := by
  intro d hd
  cases hd
  exact h

variable {rest text text' : List Char} {v : Value}

theorem readDigits_append {digits : List Char} (hrest : Delimited rest)
    (h : readDigits text = some (digits, text')) :
    readDigits (text ++ rest) = some (digits, text' ++ rest) := by
  have htake : rest.takeWhile Char.isDigit = [] ∧ rest.dropWhile Char.isDigit = rest := by
    cases rest with
    | nil => exact ⟨rfl, rfl⟩
    | cons c rest =>
      have hc : c.isDigit = false := by
        have hnumber := hrest c rfl
        simp only [isNumberChar, Bool.or_eq_false_iff] at hnumber
        exact hnumber.1.1.1.1.1
      exact ⟨List.takeWhile_cons_of_neg (by simp [hc]), List.dropWhile_cons_of_neg (by simp [hc])⟩
  rw [readDigits] at h
  split_ifs at h with hne
  cases h
  have htakes : (text ++ rest).takeWhile Char.isDigit = text.takeWhile Char.isDigit := by
    rw [List.takeWhile_append, htake.1]
    split_ifs with hlen
    · rw [List.append_nil, (List.takeWhile_prefix _).eq_of_length hlen]
    · rfl
  have hdrops : (text ++ rest).dropWhile Char.isDigit = text.dropWhile Char.isDigit ++ rest := by
    refine @List.append_cancel_left _ ((text ++ rest).takeWhile Char.isDigit) _ _ ?_
    rw [List.takeWhile_append_dropWhile, htakes, ← List.append_assoc,
      List.takeWhile_append_dropWhile]
  rw [readDigits, htakes, hdrops, if_neg hne]

theorem readWhole_append {digits : List Char} (hrest : Delimited rest)
    (h : readWhole text = some (digits, text')) :
    readWhole (text ++ rest) = some (digits, text' ++ rest) := by
  obtain ⟨hdigits, hzero⟩ := Option.filter_eq_some_iff.mp h
  exact Option.filter_eq_some_iff.mpr ⟨readDigits_append hrest hdigits, hzero⟩

theorem readFraction_append {fraction : List Char} (hrest : Delimited rest)
    (h : readFraction text = some (fraction, text')) :
    readFraction (text ++ rest) = some (fraction, text' ++ rest) := by
  cases text with
  | nil =>
    cases h
    cases rest with
    | nil => rfl
    | cons c rest =>
      have hc : c ≠ '.' := by rintro rfl; exact absurd (hrest '.' rfl) (by decide)
      exact if_neg hc
  | cons c text =>
    rw [List.cons_append, readFraction]
    rw [readFraction] at h
    split_ifs at h ⊢
    · obtain ⟨digits, hdigits, rfl⟩ := map_fst_eq_some.mp h
      rw [readDigits_append hrest hdigits]
      rfl
    · cases h
      rfl

theorem readSign_append (hne : text ≠ []) (rest : List Char) :
    readSign (text ++ rest) = ((readSign text).1, (readSign text).2 ++ rest) := by
  cases text with
  | nil => exact absurd rfl hne
  | cons c text =>
    rw [List.cons_append, readSign, readSign]
    split_ifs <;> rfl

theorem readExponent_append {exponent : List Char} (hrest : Delimited rest)
    (h : readExponent text = some (exponent, text')) :
    readExponent (text ++ rest) = some (exponent, text' ++ rest) := by
  cases text with
  | nil =>
    cases h
    cases rest with
    | nil => rfl
    | cons c rest =>
      have hc : ¬(c = 'e' ∨ c = 'E') := by
        rintro (rfl | rfl)
        · exact absurd (hrest 'e' rfl) (by decide)
        · exact absurd (hrest 'E' rfl) (by decide)
      exact if_neg hc
  | cons c text =>
    rw [List.cons_append, readExponent]
    rw [readExponent] at h
    split_ifs at h ⊢
    · have hne : text ≠ [] := by rintro rfl; cases h
      obtain ⟨⟨digits, _⟩, hdigits, he⟩ := Option.map_eq_some_iff.mp h
      cases he
      rw [readSign_append hne, readDigits_append hrest hdigits]
      rfl
    · cases h
      rfl

theorem readUnsigned_append {negative : Bool} {l : Literal} (hrest : Delimited rest)
    (h : readUnsigned negative text = some (l, text')) :
    readUnsigned negative (text ++ rest) = some (l, text' ++ rest) := by
  rw [readUnsigned] at h ⊢
  split at h
  · cases h
  next whole text₁ hwhole =>
    split at h
    · cases h
    next fraction text₂ hfraction =>
      obtain ⟨exponent, hexponent, rfl⟩ := map_fst_eq_some.mp h
      rw [readWhole_append hrest hwhole]
      dsimp only
      rw [readFraction_append hrest hfraction]
      dsimp only
      rw [readExponent_append hrest hexponent]
      rfl

/-- A literal is read the same when other text comes after it. -/
theorem readLiteral_append {l : Literal} (hrest : Delimited rest)
    (h : readLiteral text = some (l, text')) :
    readLiteral (text ++ rest) = some (l, text' ++ rest) := by
  cases text with
  | nil => cases h
  | cons c text =>
    rw [List.cons_append, readLiteral]
    rw [readLiteral] at h
    split_ifs at h ⊢
    · exact readUnsigned_append hrest h
    · exact readUnsigned_append hrest h

/-! ## Numbers -/

theorem head?_toDigits {n : Nat} (h : n ≠ 0) : (Nat.toDigits 10 n).head? ≠ some '0' := by
  induction n using Nat.strongRecOn with
  | ind n ih =>
    by_cases hlt : n < 10
    · rw [Nat.toDigits_of_lt_base hlt]
      have hdigit : ∀ m < 10, m ≠ 0 → [Nat.digitChar m].head? ≠ some '0' := by decide
      exact hdigit n hlt h
    · rw [Nat.toDigits_of_base_le (by decide) (by omega), List.head?_append]
      have hhead := ih (n / 10) (by omega) (by omega)
      cases hdigits : (Nat.toDigits 10 (n / 10)).head? with
      | none => exact absurd (List.head?_eq_none_iff.mp hdigits) Nat.toDigits_ne_nil
      | some c =>
        rw [hdigits] at hhead
        exact hhead

theorem readUnsigned_toDigits (negative : Bool) (n : Nat) :
    readUnsigned negative (Nat.toDigits 10 n) =
      some (⟨negative, Nat.toDigits 10 n, [], []⟩, []) := by
  have hdigit : ∀ c ∈ Nat.toDigits 10 n, c.isDigit = true :=
    fun c hc => Nat.isDigit_of_mem_toDigits (by decide) (by decide) hc
  have hread : readDigits (Nat.toDigits 10 n) = some (Nat.toDigits 10 n, []) := by
    rw [readDigits, List.takeWhile_eq_self_iff.mpr hdigit, List.dropWhile_eq_nil_iff.mpr hdigit,
      if_neg Nat.toDigits_ne_nil]
  have hwhole : readWhole (Nat.toDigits 10 n) = some (Nat.toDigits 10 n, []) := by
    refine Option.filter_eq_some_iff.mpr ⟨hread, decide_eq_true ?_⟩
    by_cases hzero : n = 0
    · subst hzero
      exact Or.inr rfl
    · exact Or.inl (head?_toDigits hzero)
  rw [readUnsigned, hwhole]
  rfl

theorem readLiteral_toDigits (n : Nat) :
    readLiteral (Nat.toDigits 10 n) = some (⟨false, Nat.toDigits 10 n, [], []⟩, []) := by
  have hread := readUnsigned_toDigits false n
  cases hdigits : Nat.toDigits 10 n with
  | nil => exact absurd hdigits Nat.toDigits_ne_nil
  | cons c digits =>
    have hc : c ≠ '-' := by
      rintro rfl
      have hdigit : '-'.isDigit = true :=
        Nat.isDigit_of_mem_toDigits (b := 10) (n := n) (by decide) (by decide)
          (hdigits ▸ List.mem_cons_self)
      cases hdigit
    rw [hdigits] at hread
    rw [readLiteral, if_neg hc, hread]

theorem toList_negInt {n : Int} (h : n < 0) :
    (numberText (.negInt n)).toList = '-' :: Nat.toDigits 10 n.natAbs := by
  have htext : numberText (.negInt n) = "-" ++ (-n).toNat.repr := by
    rw [numberText, Int.toString_eq_repr, Int.repr_eq_if, if_neg (by omega)]
  rw [htext, String.toList_append, Nat.toList_repr, show (-n).toNat = n.natAbs by omega]
  rfl

/-- A literal starts with its sign or with a digit. -/
theorem readLiteral_head {l : Literal} (h : readLiteral text = some (l, rest)) :
    ∃ c text', text = c :: text' ∧ (c = '-' ∨ c.isDigit = true) := by
  cases text with
  | nil => cases h
  | cons c text =>
    refine ⟨c, text, rfl, ?_⟩
    by_cases hminus : c = '-'
    · exact Or.inl hminus
    · refine Or.inr (Bool.not_eq_false _ |>.mp fun hdigit => ?_)
      rw [readLiteral, if_neg hminus, readUnsigned, readWhole, readDigits,
        List.takeWhile_cons_of_neg (by simp [hdigit]), if_pos rfl] at h
      cases h

/-- The number that the text of a number is read as. -/
def rereadNumber (floats : FloatReader) (n : Number) : Option Number :=
  (readNumber floats (numberText n).toList).map Prod.fst

theorem rereadNumber_posInt {n : Nat} (h : n < 2 ^ 64) :
    rereadNumber floats (.posInt n) = some (.posInt n) := by
  have htext : (numberText (.posInt n)).toList = Nat.toDigits 10 n := Nat.toList_repr
  have hnumber : numberOf floats ⟨false, Nat.toDigits 10 n, [], []⟩ = some (.posInt n) := by
    rw [numberOf, if_neg (by simp [Literal.isFloat]), if_neg (by simp),
      Nat.ofDigitChars_ten_toDigits, if_pos h]
  rw [rereadNumber, readNumber, htext, readLiteral_toDigits, Option.bind_some, hnumber]
  rfl

theorem rereadNumber_negInt {n : Int} (hlt : n < 0) (hle : -2 ^ 63 ≤ n) :
    rereadNumber floats (.negInt n) = some (.negInt n) := by
  have hread : readLiteral ('-' :: Nat.toDigits 10 n.natAbs) =
      some (⟨true, Nat.toDigits 10 n.natAbs, [], []⟩, []) := by
    rw [readLiteral, if_pos rfl, readUnsigned_toDigits]
  have hnumber : numberOf floats ⟨true, Nat.toDigits 10 n.natAbs, [], []⟩ =
      some (.negInt n) := by
    rw [numberOf, if_neg (by simp [Literal.isFloat]), if_pos rfl, Nat.ofDigitChars_ten_toDigits,
      if_pos (by omega)]
    congr
    omega
  rw [rereadNumber, readNumber, toList_negInt hlt, hread, Option.bind_some, hnumber]
  rfl

theorem readLiteral_numberText {n : Number} (h : n.Valid) :
    ∃ l, readLiteral (numberText n).toList = some (l, []) := by
  cases n with
  | posInt n => exact ⟨_, Nat.toList_repr (n := n) ▸ readLiteral_toDigits n⟩
  | negInt n =>
    rw [toList_negInt h.2]
    exact ⟨_, readUnsigned_toDigits true n.natAbs⟩
  | float text =>
    obtain ⟨l, hl, -⟩ := h
    exact ⟨l, hl⟩

theorem readNumber_numberText {n : Number} (h : n.Valid) (hrest : Delimited rest) :
    readNumber floats ((numberText n).toList ++ rest) =
      (rereadNumber floats n).map fun n => (n, rest) := by
  obtain ⟨l, hl⟩ := readLiteral_numberText h
  rw [rereadNumber, readNumber, readNumber, hl, readLiteral_append hrest hl]
  cases hnumber : numberOf floats l <;> simp [hnumber]

/-! ## Strings -/

theorem toDigit_hexDigit {n : Nat} (h : n < 16) : Ascii.toDigit 16 (hexDigit n) = some n := by
  have hall : ∀ m < 16, Ascii.toDigit 16 (hexDigit m) = some m := by decide
  exact hall n h

theorem readHex_hexDigits {n : Nat} (h : n < 256) (rest : List Char) :
    readHex ('0' :: '0' :: hexDigit (n / 16) :: hexDigit (n % 16) :: rest) = some (n, rest) := by
  have hzero : Ascii.toDigit 16 '0' = some 0 := by decide
  have hhigh : Ascii.toDigit 16 (hexDigit (n / 16)) = some (n / 16) := toDigit_hexDigit (by omega)
  have hlow : Ascii.toDigit 16 (hexDigit (n % 16)) = some (n % 16) := toDigit_hexDigit (by omega)
  have hdigits : Ascii.ofDigitsFrom 16 0 ['0', '0', hexDigit (n / 16), hexDigit (n % 16)] =
      some n := by
    simp only [Ascii.ofDigitsFrom, hzero, hhigh, hlow, Option.bind_some]
    congr 1
    omega
  rw [readHex, hdigits]
  rfl

/-- An escape is read as the character it is the escape of. -/
theorem readChar_escapeChar (c : Char) (rest : List Char) :
    readChar (escapeChar c ++ rest) = some (c, rest) := by
  have hescape : ∀ (d : Char), d ≠ 'u' → escapes.lookup d = some c →
      readChar ('\\' :: d :: rest) = some (c, rest) := by
    intro d hu hlookup
    rw [readChar, if_pos rfl, readEscape, if_neg hu, hlookup]
    rfl
  have hcode : ∀ n, c.toNat = n → c = Char.ofNat n := fun n h => h ▸ (Char.ofNat_toNat c).symm
  rw [escapeChar]
  split_ifs with hquote hback h8 h9 h10 h12 h13 hcontrol
  · exact hescape '"' (by decide) (by rw [hquote]; rfl)
  · exact hescape '\\' (by decide) (by rw [hback]; rfl)
  · exact hescape 'b' (by decide) (by rw [hcode 8 h8]; rfl)
  · exact hescape 't' (by decide) (by rw [hcode 9 h9]; rfl)
  · exact hescape 'n' (by decide) (by rw [hcode 10 h10]; rfl)
  · exact hescape 'f' (by decide) (by rw [hcode 12 h12]; rfl)
  · exact hescape 'r' (by decide) (by rw [hcode 13 h13]; rfl)
  · have htrailing : isTrailing c.toNat = false := by
      simp only [isTrailing, Bool.and_eq_false_iff, decide_eq_false_iff_not]
      omega
    have hleading : isLeading c.toNat = false := by
      simp only [isLeading, Bool.and_eq_false_iff, decide_eq_false_iff_not]
      omega
    have hunicode : readUnicode ('0' :: '0' :: hexDigit (c.toNat / 16) ::
        hexDigit (c.toNat % 16) :: rest) = some (c, rest) := by
      rw [readUnicode, readHex_hexDigits (by omega)]
      simp [htrailing, hleading, Char.ofNat_toNat]
    exact hunicode
  · have hplain : ¬(c = '"' ∨ c.toNat < 32) := by
      rintro (hc | hc)
      · exact hquote hc
      · exact hcontrol hc
    exact (if_neg hback).trans (if_neg hplain)

theorem head?_escapeChar (c : Char) (rest : List Char) :
    (escapeChar c ++ rest).head? ≠ some '"' := by
  rw [escapeChar]
  split_ifs with hquote <;> simp [hquote]

theorem readChars_escaped (chars rest : List Char) {fuel : Nat} (h : chars.length < fuel) :
    readChars fuel (chars.flatMap escapeChar ++ '"' :: rest) = some (chars, rest) := by
  induction chars generalizing fuel with
  | nil =>
    cases fuel with
    | zero => exact absurd h (by simp)
    | succ fuel => rfl
  | cons c chars ih =>
    cases fuel with
    | zero => exact absurd h (by simp)
    | succ fuel =>
      have hfuel : chars.length < fuel := Nat.lt_of_succ_lt_succ h
      rw [List.flatMap_cons, List.append_assoc, readChars, if_neg (head?_escapeChar c _),
        readChar_escapeChar]
      dsimp only
      rw [ih hfuel]
      rfl

theorem length_le_flatMap_escapeChar (chars : List Char) :
    chars.length ≤ (chars.flatMap escapeChar).length := by
  induction chars with
  | nil => exact le_rfl
  | cons c chars ih =>
    have hpos : 1 ≤ (escapeChar c).length := by
      rw [escapeChar]
      split_ifs <;> simp
    rw [List.flatMap_cons, List.length_append, List.length_cons]
    omega

theorem toList_quote (s : String) :
    (quote s).toList = '"' :: (s.toList.flatMap escapeChar ++ ['"']) := by
  rw [quote, String.toList_ofList]
  rfl

theorem readString_quote (s : String) (rest : List Char) :
    readString (s.toList.flatMap escapeChar ++ '"' :: rest) = some (s, rest) := by
  have hle := length_le_flatMap_escapeChar s.toList
  rw [readString, readChars_escaped]
  · simp
  · rw [List.length_append, List.length_cons]
    omega

theorem readKey_quote (k : String) (rest : List Char) :
    readKey ((quote k).toList ++ ':' :: rest) = some (k, rest) := by
  rw [toList_quote, List.cons_append, List.append_assoc, List.singleton_append, readKey,
    List.head?_cons, if_pos rfl, List.tail_cons, readString_quote]
  rfl

/-! ## Values -/

mutual

/-- The value that the text of a value is read as, where arrays and objects nest at most `depth`
deep. -/
def reread (floats : FloatReader) : Nat → Value → Option Value
  | _, .null => some .null
  | _, .bool b => some (.bool b)
  | _, .string s => some (.string s)
  | _, .number n => (rereadNumber floats n).map .number
  | depth, .array xs => if depth = 0 then none else (rereadArray floats (depth - 1) xs).map .array
  | depth, .object fields =>
    if depth = 0 then none else (rereadFields floats (depth - 1) fields).map .object

def rereadArray (floats : FloatReader) : Nat → List Value → Option (List Value)
  | _, [] => some []
  | depth, x :: xs =>
    (reread floats depth x).bind fun y => (rereadArray floats depth xs).map fun ys => y :: ys

def rereadFields (floats : FloatReader) :
    Nat → List (String × Value) → Option (List (String × Value))
  | _, [] => some []
  | depth, (k, v) :: fields =>
    (reread floats depth v).bind fun w =>
      (rereadFields floats depth fields).map fun rest => (k, w) :: rest

end

theorem keys_rereadFields {depth : Nat} {fields fields' : List (String × Value)}
    (h : rereadFields floats depth fields = some fields') :
    fields'.map Prod.fst = fields.map Prod.fst := by
  induction fields generalizing fields' with
  | nil => cases h; rfl
  | cons e fields ih =>
    obtain ⟨k, v⟩ := e
    rw [rereadFields] at h
    obtain ⟨w, -, hrest⟩ := Option.bind_eq_some_iff.mp h
    obtain ⟨rest, hfields, rfl⟩ := Option.map_eq_some_iff.mp hrest
    rw [List.map_cons, List.map_cons, ih hfields]

/-- Fields that are read in the order of their keys make the object that has them. -/
theorem obj_of_rereadFields {depth : Nat} {fields fields' : List (String × Value)}
    (hsorted : BTreeMap.Sorted fields) (h : rereadFields floats depth fields = some fields') :
    obj fields' = .object fields' := by
  have hsorted' : BTreeMap.Sorted fields' := by
    rw [BTreeMap.Sorted, keys_rereadFields h]
    exact hsorted
  rw [obj, BTreeMap.extend_nil_of_sorted hsorted']

theorem skipSpace_cons {c : Char} (h : isSpace c = false) (text : List Char) :
    skipSpace (c :: text) = c :: text :=
  List.dropWhile_cons_of_neg (by simp [h])

/-- The elements of an array, separated by commas. -/
def elementsText (xs : List Value) : List Char := (",".intercalate (textArray xs)).toList

/-- The fields of an object, separated by commas. -/
def fieldsText (fields : List (String × Value)) : List Char :=
  (",".intercalate (textFields fields)).toList

theorem toList_array (xs : List Value) :
    (toText (.array xs)).toList = '[' :: (elementsText xs ++ [']']) := by
  rw [toText, String.toList_append, String.toList_append]
  rfl

theorem toList_object (fields : List (String × Value)) :
    (toText (.object fields)).toList = '\x7b' :: (fieldsText fields ++ ['\x7d']) := by
  rw [toText, String.toList_append, String.toList_append]
  rfl

theorem elementsText_singleton (x : Value) : elementsText [x] = (toText x).toList := by
  rw [elementsText, textArray, textArray, String.intercalate_singleton]

theorem elementsText_cons_cons (x y : Value) (xs : List Value) :
    elementsText (x :: y :: xs) = (toText x).toList ++ ',' :: elementsText (y :: xs) := by
  simp only [elementsText, textArray, String.intercalate_cons_cons, String.toList_append,
    List.append_assoc]
  rfl

theorem fieldsText_singleton (k : String) (v : Value) :
    fieldsText [(k, v)] = (quote k).toList ++ ':' :: (toText v).toList := by
  simp only [fieldsText, textFields, String.intercalate_singleton, String.toList_append,
    List.append_assoc]
  rfl

theorem fieldsText_cons_cons (k : String) (v : Value) (e : String × Value)
    (fields : List (String × Value)) :
    fieldsText ((k, v) :: e :: fields) =
      (quote k).toList ++ ':' :: ((toText v).toList ++ ',' :: fieldsText (e :: fields)) := by
  obtain ⟨l, w⟩ := e
  simp only [fieldsText, textFields, String.intercalate_cons_cons, String.toList_append,
    List.append_assoc]
  rfl

/-- How the text of a value starts. -/
theorem toText_head (v : Value) (hv : v.Valid) :
    ∃ c text, (toText v).toList = c :: text ∧ isSpace c = false ∧ c ≠ ']' ∧
      (v.depth = 0 → c ≠ '[' ∧ c ≠ '\x7b') := by
  cases v with
  | null => exact ⟨'n', _, rfl, by decide, by decide, fun _ => by decide⟩
  | bool b =>
    cases b with
    | true => exact ⟨'t', _, rfl, by decide, by decide, fun _ => by decide⟩
    | false => exact ⟨'f', _, rfl, by decide, by decide, fun _ => by decide⟩
  | number n =>
    obtain ⟨l, hl⟩ := readLiteral_numberText hv
    obtain ⟨c, text, htext, hc⟩ := readLiteral_head hl
    have hspace : isSpace c = false := by
      cases hc with
      | inl hminus => subst hminus; decide
      | inr hdigit =>
        have hcode := Ascii.isDigit_iff.mp hdigit
        simp only [isSpace, Bool.or_eq_false_iff, decide_eq_false_iff_not]
        omega
    have hne : ∀ d : Char, d ≠ '-' → d.isDigit = false → c ≠ d := by
      rintro d hminus hdigit rfl
      cases hc with
      | inl heq => exact hminus heq
      | inr htrue => exact absurd (htrue.symm.trans hdigit) (by decide)
    exact ⟨c, text, htext, hspace, hne ']' (by decide) (by decide),
      fun _ => ⟨hne '[' (by decide) (by decide), hne '\x7b' (by decide) (by decide)⟩⟩
  | string s => exact ⟨'"', _, toList_quote s, by decide, by decide, fun _ => by decide⟩
  | array xs => exact ⟨'[', _, toList_array xs, by decide, by decide, nofun⟩
  | object fields => exact ⟨'\x7b', _, toList_object fields, by decide, by decide, nofun⟩

/-- The text of a value without elements or fields. -/
theorem readScalar_toText (hv : v.Valid) (hdepth : v.depth = 0) (hrest : Delimited rest)
    (depth : Nat) :
    readScalar floats ((toText v).toList ++ rest) =
      (reread floats depth v).map fun w => (w, rest) := by
  cases v with
  | null => rfl
  | bool b => cases b <;> rfl
  | string s =>
    rw [toText, toList_quote, List.cons_append, List.append_assoc, List.singleton_append,
      readScalar, List.head?_cons, if_pos rfl, List.tail_cons, readString_quote]
    rfl
  | number n =>
    obtain ⟨l, hl⟩ := readLiteral_numberText hv
    obtain ⟨c, text, htext, hc⟩ := readLiteral_head hl
    have hquote : some c ≠ some '"' := by
      rintro he
      cases he
      revert hc
      decide
    have hnumber : some c = some '-' ∨ (some c).any Char.isDigit = true := by
      cases hc with
      | inl hminus => exact Or.inl (congrArg some hminus)
      | inr hdigit => exact Or.inr hdigit
    have hhead : ((numberText n).toList ++ rest).head? = some c := by rw [htext]; rfl
    rw [toText, readScalar, hhead, if_neg hquote, if_pos hnumber, readNumber_numberText hv hrest,
      reread]
    cases rereadNumber floats n <;> rfl
  | array xs => cases hdepth
  | object fields => cases hdepth

theorem readValue_scalar {fuel depth : Nat} {c : Char} (hspace : isSpace c = false)
    (harray : c ≠ '[') (hobject : c ≠ '\x7b') :
    readValue floats (fuel + 1) depth (c :: text) = readScalar floats (c :: text) := by
  rw [readValue, skipSpace_cons hspace]
  dsimp only
  rw [if_neg harray, if_neg hobject]

theorem elementsText_head {x : Value} (hx : x.Valid) (xs : List Value) :
    ∃ c text, elementsText (x :: xs) = c :: text ∧ isSpace c = false ∧ c ≠ ']' := by
  obtain ⟨c, text, htext, hspace, hclose, -⟩ := toText_head x hx
  cases xs with
  | nil => exact ⟨c, text, (elementsText_singleton x).trans htext, hspace, hclose⟩
  | cons y xs =>
    refine ⟨c, text ++ ',' :: elementsText (y :: xs), ?_, hspace, hclose⟩
    rw [elementsText_cons_cons, htext, List.cons_append]

theorem fieldsText_head (e : String × Value) (fields : List (String × Value)) :
    ∃ text, fieldsText (e :: fields) = '"' :: text := by
  obtain ⟨k, v⟩ := e
  cases fields with
  | nil => exact ⟨_, by rw [fieldsText_singleton, toList_quote, List.cons_append]⟩
  | cons e fields => exact ⟨_, by rw [fieldsText_cons_cons, toList_quote, List.cons_append]⟩

theorem skipSpace_fieldsText (e : String × Value) (fields : List (String × Value))
    (rest : List Char) :
    skipSpace (fieldsText (e :: fields) ++ rest) = fieldsText (e :: fields) ++ rest := by
  obtain ⟨text, htext⟩ := fieldsText_head e fields
  rw [htext, List.cons_append, skipSpace_cons (by decide)]

/-- The text of a value is not empty, so its reader has fuel. -/
theorem exists_fuel (hv : v.Valid) {fuel : Nat} (h : 2 * (toText v).toList.length ≤ fuel) :
    ∃ n, fuel = n + 1 := by
  obtain ⟨c, text, htext, -⟩ := toText_head v hv
  rw [htext, List.length_cons] at h
  exact ⟨fuel - 1, by omega⟩

theorem readValue_of_depth_zero (hv : v.Valid) (hdepth : v.depth = 0) {fuel depth : Nat}
    (hfuel : 2 * (toText v).toList.length ≤ fuel) (hrest : Delimited rest) :
    readValue floats fuel depth ((toText v).toList ++ rest) =
      (reread floats depth v).map fun w => (w, rest) := by
  obtain ⟨fuel, rfl⟩ := exists_fuel hv hfuel
  obtain ⟨c, text, htext, hspace, -, hopen⟩ := toText_head v hv
  rw [← readScalar_toText hv hdepth hrest, htext, List.cons_append,
    readValue_scalar hspace (hopen hdepth).1 (hopen hdepth).2]

mutual

/-- The text of a value is read as the value with its numbers read again. The fuel is measured on
the text, and each value in it has two characters less for its own. -/
theorem readValue_toText : ∀ (v : Value) (fuel depth : Nat) (rest : List Char), v.Valid →
    2 * (toText v).toList.length ≤ fuel → Delimited rest →
    readValue floats fuel depth ((toText v).toList ++ rest) =
      (reread floats depth v).map fun w => (w, rest)
  | .null | .bool _ | .string _ | .number _ => by
    intro fuel depth rest hv hfuel hrest
    exact readValue_of_depth_zero hv rfl hfuel hrest
  | .array xs => by
    intro fuel depth rest hv hfuel hrest
    obtain ⟨fuel, rfl⟩ := exists_fuel hv hfuel
    rw [toList_array] at hfuel ⊢
    simp only [List.length_cons, List.length_append, List.length_nil] at hfuel
    rw [List.cons_append, List.append_assoc, List.singleton_append, readValue,
      skipSpace_cons (by decide)]
    dsimp only
    rw [if_pos rfl, reread]
    by_cases hdepth : depth = 0
    · rw [if_pos hdepth, if_pos hdepth]
      rfl
    · rw [if_neg hdepth, if_neg hdepth]
      cases xs with
      | nil => rfl
      | cons x xs =>
        obtain ⟨c, text, htext, hspace, hclose⟩ := elementsText_head hv.1 xs
        have hopen : (skipSpace (elementsText (x :: xs) ++ ']' :: rest)).head? ≠ some ']' := by
          rw [htext, List.cons_append, skipSpace_cons hspace]
          exact fun he => hclose (Option.some.inj he)
        obtain ⟨fuel, rfl⟩ : ∃ n, fuel = n + 1 := ⟨fuel - 1, by omega⟩
        rw [if_neg hopen, readElements_text (x :: xs) fuel _ _ (by simp) hv (by omega)]
        cases rereadArray floats (depth - 1) (x :: xs) <;> rfl
  | .object fields => by
    intro fuel depth rest hv hfuel hrest
    obtain ⟨fuel, rfl⟩ := exists_fuel hv hfuel
    rw [toList_object] at hfuel ⊢
    simp only [List.length_cons, List.length_append, List.length_nil] at hfuel
    rw [List.cons_append, List.append_assoc, List.singleton_append, readValue,
      skipSpace_cons (by decide)]
    dsimp only
    rw [if_neg (by decide), if_pos rfl, reread]
    by_cases hdepth : depth = 0
    · rw [if_pos hdepth, if_pos hdepth]
      rfl
    · rw [if_neg hdepth, if_neg hdepth]
      cases fields with
      | nil => rfl
      | cons e fields =>
        obtain ⟨text, htext⟩ := fieldsText_head e fields
        have hopen : (skipSpace (fieldsText (e :: fields) ++ '\x7d' :: rest)).head? ≠
            some '\x7d' := by
          rw [skipSpace_fieldsText, htext]
          exact fun he => absurd (Option.some.inj he) (by decide)
        obtain ⟨fuel, rfl⟩ : ∃ n, fuel = n + 1 := ⟨fuel - 1, by omega⟩
        rw [if_neg hopen, readFields_text (e :: fields) fuel _ _ (by simp) hv.2 (by omega)]
        cases hreread : rereadFields floats (depth - 1) (e :: fields) with
        | none => rfl
        | some fields' =>
          rw [Option.map_some, Option.map_some, Option.map_some, Option.map_some,
            obj_of_rereadFields hv.1 hreread]

theorem readElements_text : ∀ (xs : List Value) (fuel depth : Nat) (rest : List Char), xs ≠ [] →
    ValidArray xs → 2 * (elementsText xs).length ≤ fuel →
    readElements floats (fuel + 1) depth (elementsText xs ++ ']' :: rest) =
      (rereadArray floats depth xs).map fun ys => (ys, rest)
  | [] => fun _ _ _ hne => absurd rfl hne
  | [x] => by
    intro fuel depth rest _ hv hfuel
    rw [elementsText_singleton] at hfuel ⊢
    rw [readElements, readValue_toText x _ _ _ hv.1 hfuel (delimited_cons (by decide) rest),
      rereadArray, rereadArray]
    cases reread floats depth x with
    | none => rfl
    | some y =>
      rw [Option.map_some]
      dsimp only
      rw [skipSpace_cons (by decide)]
      dsimp only
      rw [if_neg (by decide), if_pos rfl]
      rfl
  | x :: y :: xs => by
    intro fuel depth rest _ hv hfuel
    rw [elementsText_cons_cons] at hfuel ⊢
    rw [List.length_append, List.length_cons] at hfuel
    obtain ⟨fuel, rfl⟩ : ∃ n, fuel = n + 1 := ⟨fuel - 1, by omega⟩
    rw [List.append_assoc, List.cons_append, readElements,
      readValue_toText x _ _ _ hv.1 (by omega) (delimited_cons (by decide) _), rereadArray]
    cases reread floats depth x with
    | none => rfl
    | some w =>
      rw [Option.map_some]
      dsimp only
      rw [skipSpace_cons (by decide)]
      dsimp only
      rw [if_pos rfl, readElements_text (y :: xs) fuel depth rest (by simp) hv.2 (by omega),
        Option.bind_some]
      cases rereadArray floats depth (y :: xs) <;> rfl

theorem readFields_text : ∀ (fields : List (String × Value)) (fuel depth : Nat)
    (rest : List Char), fields ≠ [] → ValidFields fields → 2 * (fieldsText fields).length ≤ fuel →
    readFields floats (fuel + 1) depth (fieldsText fields ++ '\x7d' :: rest) =
      (rereadFields floats depth fields).map fun fields => (fields, rest)
  | [] => fun _ _ _ hne => absurd rfl hne
  | [(k, v)] => by
    intro fuel depth rest _ hv hfuel
    rw [readFields, skipSpace_fieldsText]
    rw [fieldsText_singleton] at hfuel ⊢
    rw [List.length_append, List.length_cons] at hfuel
    rw [List.append_assoc, List.cons_append, readKey_quote]
    dsimp only
    rw [readValue_toText v _ _ _ hv.1 (by omega) (delimited_cons (by decide) rest), rereadFields,
      rereadFields]
    cases reread floats depth v with
    | none => rfl
    | some w =>
      rw [Option.map_some]
      dsimp only
      rw [skipSpace_cons (by decide)]
      dsimp only
      rw [if_neg (by decide), if_pos rfl]
      rfl
  | (k, v) :: e :: fields => by
    intro fuel depth rest _ hv hfuel
    rw [readFields, skipSpace_fieldsText]
    rw [fieldsText_cons_cons] at hfuel ⊢
    simp only [List.length_append, List.length_cons] at hfuel
    obtain ⟨fuel, rfl⟩ : ∃ n, fuel = n + 1 := ⟨fuel - 1, by omega⟩
    rw [List.append_assoc, List.cons_append, List.append_assoc, List.cons_append, readKey_quote]
    dsimp only
    rw [readValue_toText v _ _ _ hv.1 (by omega) (delimited_cons (by decide) _), rereadFields]
    cases reread floats depth v with
    | none => rfl
    | some w =>
      rw [Option.map_some]
      dsimp only
      rw [skipSpace_cons (by decide)]
      dsimp only
      rw [if_pos rfl, readFields_text (e :: fields) fuel depth rest (by simp) hv.2 (by omega),
        Option.bind_some]
      cases rereadFields floats depth (e :: fields) <;> rfl

end

theorem fromStr_toText (hv : v.Valid) : fromStr floats (toText v) = reread floats MAX_DEPTH v := by
  have hfuel : 2 * (toText v).toList.length ≤ 2 * (toText v).length + 2 := by
    rw [String.length_toList]
    omega
  have hread : readValue floats (2 * (toText v).length + 2) MAX_DEPTH ((toText v).toList ++ []) =
      (reread floats MAX_DEPTH v).map fun w => (w, []) :=
    readValue_toText v _ _ _ hv hfuel delimited_nil
  rw [List.append_nil] at hread
  rw [fromStr, hread]
  cases reread floats MAX_DEPTH v <;> rfl

/-! ## Stable values -/

/-- A double is read back from its text. -/
def StableNumber (floats : FloatReader) : Number → Prop
  | .posInt _ | .negInt _ => True
  | .float text => rereadNumber floats (.float text) = some (.float text)

mutual

/-- Every double of the value is read back from its text. -/
def Stable (floats : FloatReader) : Value → Prop
  | .null | .bool _ | .string _ => True
  | .number n => StableNumber floats n
  | .array xs => StableArray floats xs
  | .object fields => StableFields floats fields

def StableArray (floats : FloatReader) : List Value → Prop
  | [] => True
  | x :: xs => Stable floats x ∧ StableArray floats xs

def StableFields (floats : FloatReader) : List (String × Value) → Prop
  | [] => True
  | (_, v) :: fields => Stable floats v ∧ StableFields floats fields

end

theorem rereadNumber_eq_some_iff {n : Number} (h : n.Valid) :
    rereadNumber floats n = some n ↔ StableNumber floats n := by
  cases n with
  | posInt n => exact iff_of_true (rereadNumber_posInt h) trivial
  | negInt n => exact iff_of_true (rereadNumber_negInt h.2 h.1) trivial
  | float text => exact Iff.rfl

mutual

theorem reread_eq_some_iff : ∀ (v : Value) (depth : Nat), v.Valid →
    (reread floats depth v = some v ↔ v.depth ≤ depth ∧ Stable floats v)
  | .null, _, _ | .bool _, _, _ | .string _, _, _ => iff_of_true rfl ⟨Nat.zero_le _, trivial⟩
  | .number n, depth, hv => by
    have hn : rereadNumber floats n = some n ↔ _ := rereadNumber_eq_some_iff hv
    have hdepth : (Value.number n).depth ≤ depth := Nat.zero_le _
    rw [reread, Stable, ← hn]
    simp [hdepth]
  | .array xs, depth, hv => by
    rw [reread, Stable, Value.depth]
    by_cases hdepth : depth = 0
    · simp [hdepth]
    · have hxs := rereadArray_eq_some_iff xs (depth - 1) hv
      have hle : depthArray xs + 1 ≤ depth ↔ depthArray xs ≤ depth - 1 := by omega
      rw [if_neg hdepth, hle, ← hxs]
      simp
  | .object fields, depth, hv => by
    rw [reread, Stable, Value.depth]
    by_cases hdepth : depth = 0
    · simp [hdepth]
    · have hfields := rereadFields_eq_some_iff fields (depth - 1) hv.2
      have hle : depthFields fields + 1 ≤ depth ↔ depthFields fields ≤ depth - 1 := by omega
      rw [if_neg hdepth, hle, ← hfields]
      simp

theorem rereadArray_eq_some_iff : ∀ (xs : List Value) (depth : Nat), ValidArray xs →
    (rereadArray floats depth xs = some xs ↔ depthArray xs ≤ depth ∧ StableArray floats xs)
  | [], _, _ => iff_of_true rfl ⟨Nat.zero_le _, trivial⟩
  | x :: xs, depth, hv => by
    have hx := reread_eq_some_iff x depth hv.1
    have hxs := rereadArray_eq_some_iff xs depth hv.2
    rw [rereadArray, StableArray, depthArray, Nat.max_le, and_and_and_comm, ← hx, ← hxs]
    cases reread floats depth x <;> simp [and_comm]

theorem rereadFields_eq_some_iff : ∀ (fields : List (String × Value)) (depth : Nat),
    ValidFields fields → (rereadFields floats depth fields = some fields ↔
      depthFields fields ≤ depth ∧ StableFields floats fields)
  | [], _, _ => iff_of_true rfl ⟨Nat.zero_le _, trivial⟩
  | (k, v) :: fields, depth, hv => by
    have hx := reread_eq_some_iff v depth hv.1
    have hfields := rereadFields_eq_some_iff fields depth hv.2
    rw [rereadFields, StableFields, depthFields, Nat.max_le, and_and_and_comm, ← hx, ← hfields]
    cases reread floats depth v <;> simp [and_comm]

end

/-- A valid value is read back from its text iff it is no deeper than the limit and every double of
it is read back from its text. -/
theorem fromStr_toText_iff (hv : v.Valid) :
    fromStr floats (toText v) = some v ↔ v.depth ≤ MAX_DEPTH ∧ Stable floats v := by
  rw [fromStr_toText hv, reread_eq_some_iff v MAX_DEPTH hv]

end Tokn.JsonText
