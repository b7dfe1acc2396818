import Tokn.Lib.PrefixFree
import Tokn.Lib.Str

/-!
# The bytes of strings

The UTF-8 encoding of a string is the encodings of its characters one after the other, so it
determines the string and can be decoded. A byte offset into a string is valid between two of its
characters only.
-/

namespace Tokn.Str

theorem toList_loop (bytes : ByteArray) (i : Nat) (acc : List UInt8) :
    ByteArray.toList.loop bytes i acc = acc.reverse ++ bytes.data.toList.drop i := by
  fun_induction ByteArray.toList.loop bytes i acc with
  | case1 i acc hlt ih =>
    have hi : i < bytes.data.toList.length := hlt
    have hget : bytes.get! i = bytes.data.toList[i] := getElem!_pos bytes.data i hlt
    rw [ih, List.drop_eq_getElem_cons hi, hget, List.reverse_cons, List.append_assoc]
    rfl
  | case2 i acc hle =>
    have hi : bytes.data.toList.length ≤ i := Nat.le_of_not_lt hle
    rw [List.drop_eq_nil_of_le hi, List.append_nil]

theorem utf8Bytes_eq_data (s : String) : utf8Bytes s = s.toUTF8.data.toList :=
  toList_loop s.toUTF8 0 []

theorem utf8Bytes_eq_flatMap (s : String) :
    utf8Bytes s = s.toList.flatMap String.utf8EncodeChar := by
  have hbytes : s.toByteArray = s.toList.utf8Encode := by
    rw [← String.toByteArray_ofList, String.ofList_toList]
  rw [utf8Bytes_eq_data, String.toUTF8_eq_toByteArray, hbytes, List.utf8Encode,
    List.toList_data_toByteArray]

theorem fromUTF8?_utf8Bytes (s : String) :
    String.fromUTF8? ⟨(utf8Bytes s).toArray⟩ = some s := by
  have hbytes : (⟨(utf8Bytes s).toArray⟩ : ByteArray) = s.toUTF8 := by
    rw [utf8Bytes_eq_data]
  rw [hbytes, String.fromUTF8?, String.toUTF8_eq_toByteArray, dif_pos s.isValidUTF8]
  rfl

theorem utf8Bytes_injective : Function.Injective utf8Bytes := by
  intro s t h
  have hdecode := fromUTF8?_utf8Bytes s
  rw [h, fromUTF8?_utf8Bytes] at hdecode
  exact (Option.some.inj hdecode).symm

/-! ## Characters -/

/-- The encoding of a character ends by itself. -/
theorem prefixFree_utf8EncodeChar : PrefixFree Set.univ String.utf8EncodeChar := by
  intro c _ d _ x y h
  have hbytes := congrArg List.toByteArray h
  rw [List.toByteArray_append, List.toByteArray_append] at hbytes
  have hdecode := congrArg (ByteArray.utf8DecodeChar? · 0) hbytes
  simp only [ByteArray.utf8DecodeChar?_utf8EncodeChar_append, Option.some.injEq] at hdecode
  subst hdecode
  exact ⟨rfl, List.append_cancel_left h⟩

/-- Of the bytes of a character, the first one is of a kind of its own. -/
theorem synchronized_utf8EncodeChar :
    Synchronized (fun b : UInt8 => b.IsUTF8FirstByte) String.utf8EncodeChar := by
  intro c
  have hfirst (i : Nat) (hi : i < (String.utf8EncodeChar c).length) :=
    @UInt8.isUTF8FirstByte_getElem_utf8EncodeChar c i hi
  cases hcode : String.utf8EncodeChar c with
  | nil => exact absurd hcode String.utf8EncodeChar_ne_nil
  | cons b rest =>
    simp only [hcode] at hfirst
    refine ⟨b, rest, rfl, (hfirst 0 (by simp)).mpr rfl, ?_⟩
    intro d hd hfst
    obtain ⟨i, hi, rfl⟩ := List.getElem_of_mem hd
    exact absurd ((hfirst (i + 1) (by simpa using hi)).mp hfst) (Nat.succ_ne_zero i)

/-! ## Slices -/

/-- How many bytes some characters take. -/
def byteCount (l : List Char) : Nat := (l.map Char.utf8Size).sum

@[simp] theorem byteCount_nil : byteCount [] = 0 := rfl

@[simp] theorem byteCount_cons (c : Char) (l : List Char) :
    byteCount (c :: l) = c.utf8Size + byteCount l := rfl

theorem byteCount_append (l l' : List Char) : byteCount (l ++ l') = byteCount l + byteCount l' := by
  rw [byteCount, List.map_append, List.sum_append, byteCount, byteCount]

theorem byteCount_replicate {c : Char} (hc : c.utf8Size = 1) (n : Nat) :
    byteCount (List.replicate n c) = n := by
  rw [byteCount, List.map_replicate, List.sum_replicate, hc, smul_eq_mul, Nat.mul_one]

theorem byteCount_toList (s : String) : byteCount s.toList = s.utf8ByteSize := by
  rw [byteCount, ← utf8ByteSize_ofList, String.ofList_toList]

/-- `&s[..n]`, which panics if `n` is not a character boundary. -/
def sliceTo : List Char → Nat → Option (List Char)
  | _, 0 => some []
  | [], _ + 1 => none
  | c :: l, n + 1 =>
    if c.utf8Size ≤ n + 1 then (sliceTo l (n + 1 - c.utf8Size)).map (c :: ·) else none

def IsCharBoundary (l : List Char) (n : Nat) : Prop := ∃ p, p <+: l ∧ byteCount p = n

theorem byteCount_eq_zero {l : List Char} : byteCount l = 0 ↔ l = [] := by
  cases l with
  | nil => simp
  | cons c l => simpa using fun h => absurd h c.utf8Size_pos.ne'

/-- **A slice is the prefix with that many bytes.** -/
theorem sliceTo_eq_some_iff {l p : List Char} {n : Nat} :
    sliceTo l n = some p ↔ p <+: l ∧ byteCount p = n := by
  fun_induction sliceTo l n generalizing p with
  | case1 l =>
    rw [byteCount_eq_zero, Option.some.injEq]
    exact ⟨fun h => ⟨h ▸ List.nil_prefix, h.symm⟩, fun h => h.2.symm⟩
  | case2 n =>
    rw [List.prefix_nil]
    refine iff_of_false (by simp) ?_
    rintro ⟨rfl, h⟩
    cases h
  | case3 c l n hfits ih =>
    rw [Option.map_eq_some_iff]
    constructor
    · rintro ⟨p, hp, rfl⟩
      obtain ⟨hpre, hcount⟩ := ih.mp hp
      refine ⟨List.cons_prefix_cons.mpr ⟨rfl, hpre⟩, ?_⟩
      rw [byteCount_cons, hcount]
      omega
    · rintro ⟨hpre, hcount⟩
      cases p with
      | nil => cases hcount
      | cons d p =>
        obtain ⟨rfl, hp⟩ := List.cons_prefix_cons.mp hpre
        rw [byteCount_cons] at hcount
        exact ⟨p, ih.mpr ⟨hp, by omega⟩, rfl⟩
  | case4 c l n hfits =>
    refine iff_of_false (by simp) ?_
    rintro ⟨hpre, hcount⟩
    cases p with
    | nil => cases hcount
    | cons d p =>
      obtain ⟨rfl, -⟩ := List.cons_prefix_cons.mp hpre
      rw [byteCount_cons] at hcount
      omega

/-- A slice that goes past some characters of one byte. -/
theorem sliceTo_replicate_append {c : Char} (hc : c.utf8Size = 1) (n : Nat) (l : List Char)
    (m : Nat) : sliceTo (List.replicate n c ++ l) (n + m) =
      (sliceTo l m).map (List.replicate n c ++ ·) := by
  induction n with
  | zero => simp
  | succ n ih =>
    rw [List.replicate_succ, List.cons_append, Nat.add_right_comm, sliceTo, if_pos (by omega), hc,
      Nat.add_sub_cancel, ih, Option.map_map]
    rfl

theorem isSome_sliceTo_iff {l : List Char} {n : Nat} :
    (sliceTo l n).isSome = true ↔ IsCharBoundary l n := by
  rw [Option.isSome_iff_exists]
  exact exists_congr fun p => sliceTo_eq_some_iff

end Tokn.Str
