import Mathlib.Tactic

/-!
# Strings, as the Rust standard library treats them

`trim` removes the characters of the Unicode property `White_Space` from both ends,
`fromUtf8Lossy` decodes bytes, and `lines` and `splitBlank` cut a text.
-/

namespace Tokn.Str

/-- The Unicode property `White_Space`. -/
def isWhitespace (c : Char) : Bool :=
  let n := c.toNat
  (9 ≤ n && n ≤ 13) || n == 0x20 || n == 0x85 || n == 0xA0 || n == 0x1680 ||
    (0x2000 ≤ n && n ≤ 0x200A) || n == 0x2028 || n == 0x2029 || n == 0x202F || n == 0x205F ||
    n == 0x3000

/-- `trim_start`, on characters. -/
def trimStartChars (l : List Char) : List Char := l.dropWhile isWhitespace

/-- `trim`, on characters. -/
def trimChars (l : List Char) : List Char := (trimStartChars (trimStartChars l).reverse).reverse

def trim (s : String) : String := String.ofList (trimChars s.toList)

variable {l : List Char}

theorem trimStartChars_of_head {c : Char} (h : isWhitespace c = false) :
    trimStartChars (c :: l) = c :: l := by
  simp [trimStartChars, List.dropWhile, h]

/-- Trimming keeps a first character that is not white space. -/
theorem head?_trimChars {c : Char} (h : isWhitespace c = false) :
    (trimChars (c :: l)).head? = some c := by
  have hlast : (trimStartChars (l.reverse ++ [c])).getLast? = some c := by
    induction l.reverse with
    | nil => simp [trimStartChars, h]
    | cons d r ih =>
      simp only [trimStartChars, List.cons_append, List.dropWhile_cons] at ih ⊢
      split_ifs
      · exact ih
      · rw [← List.cons_append, List.getLast?_append, List.getLast?_singleton, Option.some_or]
  rw [trimChars, trimStartChars_of_head h, List.head?_reverse, List.reverse_cons]
  exact hlast

theorem trimStartChars_of_head? (h : ∀ c, l.head? = some c → isWhitespace c = false) :
    trimStartChars l = l := by
  cases l with
  | nil => rfl
  | cons c l => exact trimStartChars_of_head (h c rfl)

theorem head?_trimStartChars {c : Char} (h : (trimStartChars l).head? = some c) :
    isWhitespace c = false := by
  induction l with
  | nil => cases h
  | cons d l ih =>
    rw [trimStartChars, List.dropWhile_cons] at h
    split_ifs at h with hd
    · exact ih h
    · cases h
      simpa using hd

/-- A text without white space at its ends. -/
theorem trimChars_eq_self (hhead : ∀ c, l.head? = some c → isWhitespace c = false)
    (hlast : ∀ c, l.getLast? = some c → isWhitespace c = false) : trimChars l = l := by
  have hreverse : ∀ c, l.reverse.head? = some c → isWhitespace c = false := by
    intro c hc
    exact hlast c (List.head?_reverse ▸ hc)
  rw [trimChars, trimStartChars_of_head? hhead, trimStartChars_of_head? hreverse,
    List.reverse_reverse]

/-- Trimming leaves a text that starts and ends without white space at the front. -/
theorem exists_trimChars_append (hne : l ≠ [])
    (hhead : ∀ c, l.head? = some c → isWhitespace c = false)
    (hlast : ∀ c, l.getLast? = some c → isWhitespace c = false) (w : List Char) :
    ∃ w', trimChars (l ++ w) = l ++ w' := by
  obtain ⟨c, rest, rfl⟩ := List.exists_cons_of_ne_nil hne
  have hstart : trimStartChars (c :: rest ++ w) = c :: rest ++ w :=
    trimStartChars_of_head (hhead c rfl)
  have hend : trimStartChars (c :: rest).reverse = (c :: rest).reverse := by
    refine trimStartChars_of_head? fun d hd => hlast d ?_
    rw [← hd, List.head?_reverse]
  rw [trimChars, hstart, List.reverse_append, trimStartChars, List.dropWhile_append]
  split
  · refine ⟨[], ?_⟩
    rw [← trimStartChars, hend, List.reverse_reverse, List.append_nil]
  · exact ⟨_, by rw [List.reverse_append, List.reverse_reverse]⟩

theorem trimChars_trimChars (l : List Char) : trimChars (trimChars l) = trimChars l := by
  refine trimChars_eq_self (fun c hc => ?_) fun c hc => ?_
  · cases hstart : trimStartChars l with
    | nil =>
      rw [trimChars, hstart] at hc
      cases hc
    | cons d l' =>
      have hd : isWhitespace d = false := head?_trimStartChars (congrArg List.head? hstart)
      have hfirst := head?_trimChars (l := l') hd
      have hsame : trimChars (d :: l') = trimChars l := by
        rw [trimChars, trimChars, hstart, trimStartChars_of_head hd]
      rw [hsame, hc] at hfirst
      cases hfirst
      exact hd
  · rw [trimChars, List.getLast?_reverse] at hc
    exact head?_trimStartChars hc

/-- White space after a text without any at its ends is trimmed, and nothing else is. -/
theorem trimChars_append_eq_iff {w : List Char} (hne : l ≠ [])
    (hhead : ∀ c, l.head? = some c → isWhitespace c = false)
    (hlast : ∀ c, l.getLast? = some c → isWhitespace c = false) :
    trimChars (l ++ w) = l ↔ ∀ c ∈ w, isWhitespace c = true := by
  have hstart : trimStartChars (l ++ w) = l ++ w := by
    refine trimStartChars_of_head? fun c hc => hhead c ?_
    rwa [List.head?_append_of_ne_nil _ hne] at hc
  have hl : l.reverse.dropWhile isWhitespace = l.reverse :=
    trimStartChars_of_head? fun c hc => hlast c (List.head?_reverse ▸ hc)
  rw [trimChars, hstart, List.reverse_eq_iff, List.reverse_append, trimStartChars]
  constructor
  · intro h c hc
    have hsplit := List.takeWhile_append_dropWhile (p := isWhitespace) (l := w.reverse ++ l.reverse)
    rw [h] at hsplit
    have htake := List.append_cancel_right hsplit
    have hmem : c ∈ (w.reverse ++ l.reverse).takeWhile isWhitespace := by
      rw [htake]
      exact List.mem_reverse.mpr hc
    exact List.all_eq_true.mp List.all_takeWhile c hmem
  · intro h
    rw [List.dropWhile_append_of_pos fun c hc => h c (List.mem_reverse.mp hc), hl]

theorem trim_trim (s : String) : trim (trim s) = trim s := by
  rw [trim, trim, String.toList_ofList, trimChars_trimChars]

/-! ## Bytes -/

theorem utf8ByteSize_ofList (l : List Char) :
    (String.ofList l).utf8ByteSize = (l.map Char.utf8Size).sum := by
  induction l with
  | nil => rfl
  | cons c l ih =>
    rw [String.ofList_cons, String.utf8ByteSize_append, String.utf8ByteSize_singleton, ih,
      List.map_cons, List.sum_cons]

/-- How many continuation bytes the first byte of a character asks for, the bounds of the first of
them, and the bits of the first byte. -/
def leadByte (b : UInt8) : Option (Nat × UInt8 × UInt8 × Nat) :=
  if 0xC2 ≤ b ∧ b ≤ 0xDF then some (1, 0x80, 0xBF, b.toNat - 0xC0)
  else if b = 0xE0 then some (2, 0xA0, 0xBF, 0)
  else if b = 0xED then some (2, 0x80, 0x9F, 0xD)
  else if 0xE1 ≤ b ∧ b ≤ 0xEF then some (2, 0x80, 0xBF, b.toNat - 0xE0)
  else if b = 0xF0 then some (3, 0x90, 0xBF, 0)
  else if b = 0xF4 then some (3, 0x80, 0x8F, 4)
  else if 0xF1 ≤ b ∧ b ≤ 0xF3 then some (3, 0x80, 0xBF, b.toNat - 0xF0)
  else none

/-- Read continuation bytes. A byte that cannot continue the character is not consumed, and what
has been read is replaced by U+FFFD. -/
def continuation (bits : Nat) : Nat → UInt8 → UInt8 → List UInt8 → Char × List UInt8
  | 0, _, _, bs => (Char.ofNat bits, bs)
  | _ + 1, _, _, [] => ('\uFFFD', [])
  | n + 1, lo, hi, b :: bs =>
    if lo ≤ b ∧ b ≤ hi then continuation (bits * 64 + (b.toNat - 0x80)) n 0x80 0xBF bs
    else ('\uFFFD', b :: bs)

/-- `String::from_utf8_lossy`, with the number of bytes as fuel. -/
def decodeLossy : Nat → List UInt8 → List Char
  | 0, _ | _, [] => []
  | fuel + 1, b :: bs =>
    if b < 0x80 then Char.ofNat b.toNat :: decodeLossy fuel bs
    else match leadByte b with
      | none => '\uFFFD' :: decodeLossy fuel bs
      | some (n, lo, hi, bits) =>
        let (c, rest) := continuation bits n lo hi bs
        c :: decodeLossy fuel rest

def fromUtf8Lossy (bytes : List UInt8) : List Char := decodeLossy bytes.length bytes

example : fromUtf8Lossy [0x61, 0xC3, 0xA9, 0xE2, 0x82, 0x41] = ['a', 'é', '\uFFFD', 'A'] := by decide

/-! ## Cutting -/

/-- `replace("\r\n", "\n").replace('\r', "\n")`. -/
def normalizeNewlines : List Char → List Char
  | '\r' :: '\n' :: cs => '\n' :: normalizeNewlines cs
  | c :: cs => (if c = '\r' then '\n' else c) :: normalizeNewlines cs
  | [] => []

/-- `split("\n\n")`. -/
def splitBlank : List Char → List (List Char)
  | [] => [[]]
  | '\n' :: '\n' :: cs => [] :: splitBlank cs
  | c :: cs =>
    match splitBlank cs with
    | [] => [[c]]
    | part :: parts => (c :: part) :: parts

/-- `lines`: a line ends before its newline, and before a carriage return in front of that. -/
def lines : List Char → List (List Char)
  | [] => []
  | '\n' :: cs => [] :: lines cs
  | '\r' :: '\n' :: cs => [] :: lines cs
  | c :: cs =>
    match lines cs with
    | [] => [[c]]
    | line :: rest => (c :: line) :: rest

theorem lines_cons {c : Char} (hn : c ≠ '\n') (hr : c ≠ '\r') (cs : List Char) :
    lines (c :: cs) = match lines cs with
      | [] => [[c]]
      | line :: rest => (c :: line) :: rest := by
  rw [lines]
  · exact hn
  · exact fun _ h _ => hr h

/-- The lines of a text without carriage returns, each with its newline. -/
theorem flatMap_lines (hr : '\r' ∉ l) (hne : l ≠ []) :
    (lines l).flatMap (· ++ ['\n']) = if l.getLast? = some '\n' then l else l ++ ['\n'] := by
  induction l with
  | nil => exact absurd rfl hne
  | cons c l ih =>
    obtain ⟨hc, hl⟩ := not_or.mp (mt List.mem_cons.mpr hr)
    by_cases hnil : l = []
    · subst hnil
      by_cases hn : c = '\n'
      · subst hn
        rfl
      · rw [lines_cons hn (Ne.symm hc)]
        simp [lines, hn]
    · have hlast : (c :: l).getLast? = l.getLast? := by
        rw [List.getLast?_cons, List.getLast?_eq_some_getLast hnil]
        rfl
      rw [hlast]
      specialize ih hl hnil
      by_cases hn : c = '\n'
      · subst hn
        rw [lines, List.flatMap_cons, ih]
        split_ifs <;> rfl
      · rw [lines_cons hn (Ne.symm hc)]
        cases hlines : lines l with
        | nil =>
          rw [hlines] at ih
          split_ifs at ih
          · exact absurd ih.symm hnil
          · simp at ih
        | cons line rest =>
          rw [hlines, List.flatMap_cons] at ih
          rw [List.flatMap_cons, List.cons_append, List.cons_append, ih]
          split_ifs <;> rfl

/-- A line is part of the text and has no newline. -/
theorem of_mem_lines {line : List Char} (hr : '\r' ∉ l) (h : line ∈ lines l) :
    '\n' ∉ line ∧ ∀ c ∈ line, c ∈ l := by
  induction l generalizing line with
  | nil => cases h
  | cons c l ih =>
    obtain ⟨hc, hl⟩ := not_or.mp (mt List.mem_cons.mpr hr)
    by_cases hn : c = '\n'
    · subst hn
      rw [lines] at h
      obtain rfl | h := List.mem_cons.mp h
      · exact ⟨List.not_mem_nil, fun c hc => by cases hc⟩
      · exact ⟨(ih hl h).1, fun c hc => List.mem_cons_of_mem _ ((ih hl h).2 c hc)⟩
    · rw [lines_cons hn (Ne.symm hc)] at h
      cases hlines : lines l with
      | nil =>
        rw [hlines] at h
        obtain rfl := List.mem_singleton.mp h
        exact ⟨by simpa using Ne.symm hn, fun c hc => by simp_all⟩
      | cons first rest =>
        rw [hlines] at ih h
        obtain rfl | h := List.mem_cons.mp h
        · obtain ⟨hfirst, hsub⟩ := ih hl List.mem_cons_self
          refine ⟨?_, fun d hd => ?_⟩
          · exact fun hmem => (List.mem_cons.mp hmem).elim (Ne.symm hn) hfirst
          · exact List.mem_cons.mpr ((List.mem_cons.mp hd).imp_right (hsub d))
        · obtain ⟨hline, hsub⟩ := ih hl (List.mem_cons_of_mem _ h)
          exact ⟨hline, fun d hd => List.mem_cons_of_mem _ (hsub d hd)⟩

def stripPrefix (pre : String) (l : List Char) : Option (List Char) :=
  if pre.toList.isPrefixOf l then some (l.drop pre.length) else none

example : (splitBlank (normalizeNewlines "a\r\nb\r\n\r\nc\n".toList)).map lines =
    [["a".toList, "b".toList], ["c".toList]] := by decide

theorem toString_nat_inj {m n : Nat} (h : toString m = toString n) : m = n := by
  rw [Nat.toString_eq_ofList_toDigits, Nat.toString_eq_ofList_toDigits, String.ofList_inj] at h
  rw [← Nat.ofDigitChars_toDigits (b := 10) (n := m) (by omega) (by omega), h,
    Nat.ofDigitChars_toDigits (by omega) (by omega)]

def utf8Bytes (s : String) : List UInt8 := s.toUTF8.toList

end Tokn.Str
