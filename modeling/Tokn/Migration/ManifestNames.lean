import Tokn.Lib.PrefixFree
import Tokn.Lib.TextOrder
import Tokn.Migration.Manifest

/-!
# The names of manifests

A manifest is named by the instant of its migration, in UTC, without what separates the parts of the
text. The text of the instant has no zeros at the end of its fraction, and a fraction of zero is not
written at all, so the names are of different lengths.

**Theorem (`manifestPathAt_lt_iff`).** The names of two instants are in the order of the instants,
unless both are in the same second and the fraction of the earlier one is a prefix of that of the
later one: the letter at the end is greater than all digits.
-/

namespace Tokn.Migration

open TextOrder

/-! ## Instants -/

def daysInMonth (year month : Nat) : Nat :=
  if month = 2 then
    if year % 4 = 0 ∧ (year % 100 ≠ 0 ∨ year % 400 = 0) then 29 else 28
  else if month = 4 ∨ month = 6 ∨ month = 9 ∨ month = 11 then 30
  else 31

theorem daysInMonth_le (year month : Nat) : daysInMonth year month ≤ 31 := by
  unfold daysInMonth
  split_ifs <;> omega

/-- An `OffsetDateTime` in UTC, in a year that RFC 3339 can write. -/
structure UtcDateTime where
  year : Nat
  month : Nat
  day : Nat
  hour : Nat
  minute : Nat
  second : Nat
  nanosecond : Nat
  year_lt : year < 10000
  month_mem : 1 ≤ month ∧ month ≤ 12
  day_mem : 1 ≤ day ∧ day ≤ daysInMonth year month
  hour_lt : hour < 24
  minute_lt : minute < 60
  second_lt : second < 60
  nanosecond_lt : nanosecond < 1000000000
  deriving DecidableEq

namespace UtcDateTime

/-- The second of an instant, by its parts. -/
def wholeSecond (t : UtcDateTime) : List Nat :=
  [t.year, t.month, t.day, t.hour, t.minute, t.second]

instance : LT UtcDateTime :=
  ⟨fun t t' => t.wholeSecond ++ [t.nanosecond] < t'.wholeSecond ++ [t'.nanosecond]⟩

instance : DecidableLT UtcDateTime := fun t t' =>
  inferInstanceAs (Decidable (t.wholeSecond ++ [t.nanosecond] < t'.wholeSecond ++ [t'.nanosecond]))

theorem lt_iff {t t' : UtcDateTime} :
    t < t' ↔ t.wholeSecond < t'.wholeSecond ∨
      t.wholeSecond = t'.wholeSecond ∧ t.nanosecond < t'.nanosecond := by
  have hlen : t.wholeSecond.length = t'.wholeSecond.length := rfl
  refine (append_lt_append_iff hlen).trans ?_
  rw [List.cons_lt_cons_iff]
  simp

/-- The digits of the fraction that are written. -/
def fraction (t : UtcDateTime) : List Char :=
  (decimal 9 t.nanosecond).rdropWhile fun c => c = '0'

/-- The text of the date in RFC 3339. -/
def dateText (t : UtcDateTime) : List Char :=
  decimal 4 t.year ++ '-' :: decimal 2 t.month ++ '-' :: decimal 2 t.day

/-- The text of the time in RFC 3339, without the fraction. -/
def timeText (t : UtcDateTime) : List Char :=
  decimal 2 t.hour ++ ':' :: decimal 2 t.minute ++ ':' :: decimal 2 t.second

end UtcDateTime

/-- What is known of `OffsetDateTime::format(&Rfc3339)`: zeros at the end of the fraction are not
written, and a fraction of zero is not either. -/
def IsRfc3339 (format : UtcDateTime → String) : Prop :=
  ∀ t : UtcDateTime, (format t).toList =
    t.dateText ++ 'T' :: t.timeText ++ (if t.fraction = [] then [] else '.' :: t.fraction) ++ ['Z']

/-! ## Timestamps -/

/-- Both `replace` of `compact_rfc3339_timestamp`. -/
def removeSeparators (text : List Char) : List Char :=
  (text.filter fun c => c ≠ '-' ∧ c ≠ ':').filter fun c => c ≠ '.'

def compactRfc3339Timestamp (rfc3339 : String) : Timestamp :=
  let compact := (removeSeparators rfc3339.toList).rdropWhile fun c => c = 'Z'
  String.ofList (compact ++ ['Z'])

/-- `manifest_path`, by the name of the file. -/
def manifestPath (timestamp : Timestamp) (agent : AgentId) : Path :=
  timestamp ++ "-" ++ agent.asStr ++ ".json"

/-- The name of the manifest of an agent at an instant. -/
def manifestPathAt (format : UtcDateTime → String) (agent : AgentId) (t : UtcDateTime) : Path :=
  manifestPath (compactRfc3339Timestamp (format t)) agent

namespace UtcDateTime

/-- The second of an instant in a timestamp. -/
def secondText (t : UtcDateTime) : List Char :=
  decimal 4 t.year ++ (decimal 2 t.month ++ (decimal 2 t.day ++ ('T' ::
    (decimal 2 t.hour ++ (decimal 2 t.minute ++ decimal 2 t.second)))))

/-- Both instants are in one second, and the digits of the second fraction are those of the first
and more. -/
def Obscures (t t' : UtcDateTime) : Prop :=
  t.wholeSecond = t'.wholeSecond ∧ t.fraction <+: t'.fraction ∧ t.fraction ≠ t'.fraction

instance (t t' : UtcDateTime) : Decidable (t.Obscures t') :=
  inferInstanceAs (Decidable (_ ∧ _))

theorem digit_of_mem_fraction {t : UtcDateTime} {c : Char} (h : c ∈ t.fraction) :
    '0' ≤ c ∧ c ≤ '9' :=
  digit_of_mem_decimal ((List.rdropWhile_prefix _ _).subset h)

/-- The text of an earlier second is earlier. -/
theorem secondText_lt_iff (t t' : UtcDateTime) :
    t.secondText < t'.secondText ↔ t.wholeSecond < t'.wholeSecond := by
  have hyear (t : UtcDateTime) : t.year < 10 ^ 4 := t.year_lt
  have hmonth (t : UtcDateTime) : t.month < 10 ^ 2 := t.month_mem.2.trans_lt (by decide)
  have hday (t : UtcDateTime) : t.day < 10 ^ 2 :=
    (t.day_mem.2.trans (daysInMonth_le _ _)).trans_lt (by decide)
  have hhour (t : UtcDateTime) : t.hour < 10 ^ 2 := t.hour_lt.trans (by decide)
  have hminute (t : UtcDateTime) : t.minute < 10 ^ 2 := t.minute_lt.trans (by decide)
  have hsecond (t : UtcDateTime) : t.second < 10 ^ 2 := t.second_lt.trans (by decide)
  have hlen (width m n : Nat) : (decimal width m).length = (decimal width n).length := by simp
  simp only [secondText, wholeSecond, append_lt_append_iff (hlen _ _ _), List.cons_lt_cons_iff,
    decimal_lt_iff (hyear t) (hyear t'), decimal_inj (hyear t) (hyear t'),
    decimal_lt_iff (hmonth t) (hmonth t'), decimal_inj (hmonth t) (hmonth t'),
    decimal_lt_iff (hday t) (hday t'), decimal_inj (hday t) (hday t'),
    decimal_lt_iff (hhour t) (hhour t'), decimal_inj (hhour t) (hhour t'),
    decimal_lt_iff (hminute t) (hminute t'), decimal_inj (hminute t) (hminute t'),
    decimal_lt_iff (hsecond t) (hsecond t')]
  simp

theorem secondText_congr {t t' : UtcDateTime} (h : t.wholeSecond = t'.wholeSecond) :
    t.secondText = t'.secondText := by
  refine le_antisymm (not_lt.mp fun hl => ?_) (not_lt.mp fun hl => ?_)
  · exact ((secondText_lt_iff t' t).mp hl).ne h.symm
  · exact ((secondText_lt_iff t t').mp hl).ne h

/-- The text of an earlier fraction is earlier. -/
theorem fraction_lt_fraction {t t' : UtcDateTime} (h : t.nanosecond < t'.nanosecond) :
    t.fraction < t'.fraction := by
  have hnanos (t : UtcDateTime) : t.nanosecond < 10 ^ 9 := t.nanosecond_lt
  refine rdropWhile_lt_rdropWhile ((decimal_lt_iff (hnanos t) (hnanos t')).mpr h) (by simp) ?_
  exact fun c hc => (digit_of_mem_decimal hc).1

end UtcDateTime

/-! ## The names of files -/

theorem ne_of_digit {c : Char} (h : '0' ≤ c ∧ c ≤ '9') :
    c ≠ '-' ∧ c ≠ ':' ∧ c ≠ '.' ∧ c ≠ 'T' ∧ c ≠ 'Z' := by
  refine ⟨?_, ?_, ?_, ?_, ?_⟩ <;> (rintro rfl; revert h; decide)

@[simp] theorem removeSeparators_append (text text' : List Char) :
    removeSeparators (text ++ text') = removeSeparators text ++ removeSeparators text' := by
  rw [removeSeparators, List.filter_append, List.filter_append]
  rfl

theorem removeSeparators_cons (c : Char) (text : List Char) :
    removeSeparators (c :: text) =
      if c = '-' ∨ c = ':' ∨ c = '.' then removeSeparators text else c :: removeSeparators text := by
  rw [removeSeparators, List.filter_filter, List.filter_cons]
  by_cases hc : c = '-' ∨ c = ':' ∨ c = '.'
  · rw [if_pos hc, if_neg (by simp; tauto), removeSeparators, List.filter_filter]
  · rw [if_neg hc, if_pos (by simp; tauto), removeSeparators, List.filter_filter]

theorem removeSeparators_digits {text : List Char} (h : ∀ c ∈ text, '0' ≤ c ∧ c ≤ '9') :
    removeSeparators text = text := by
  rw [removeSeparators, List.filter_filter, List.filter_eq_self]
  intro c hc
  obtain ⟨hdash, hcolon, hdot, -⟩ := ne_of_digit (h c hc)
  simp [hdash, hcolon, hdot]

@[simp] theorem removeSeparators_decimal (width n : Nat) :
    removeSeparators (decimal width n) = decimal width n :=
  removeSeparators_digits fun _ hc => digit_of_mem_decimal hc

theorem removeSeparators_format {format : UtcDateTime → String} (hformat : IsRfc3339 format)
    (t : UtcDateTime) :
    removeSeparators (format t).toList = (t.secondText ++ t.fraction) ++ ['Z'] := by
  have hfraction := removeSeparators_digits fun c hc => t.digit_of_mem_fraction hc
  have hpoint : removeSeparators (if t.fraction = [] then [] else '.' :: t.fraction) =
      t.fraction := by
    split_ifs with hnil
    · rw [hnil]
      rfl
    · exact hfraction
  rw [hformat t]
  simp [hpoint, UtcDateTime.dateText, UtcDateTime.timeText, UtcDateTime.secondText,
    removeSeparators_cons, show removeSeparators [] = [] from rfl]

theorem ne_of_mem_secondText {t : UtcDateTime} {c : Char} (h : c ∈ t.secondText) :
    c ≠ '-' ∧ c ≠ 'Z' := by
  simp only [UtcDateTime.secondText, List.mem_append, List.mem_cons] at h
  rcases h with h | h | h | rfl | h | h | h
  case inr.inr.inr.inl => decide
  all_goals
    obtain ⟨hdash, -, -, -, hz⟩ := ne_of_digit (digit_of_mem_decimal h)
    exact ⟨hdash, hz⟩

/-- What is left of the text of an instant. -/
theorem toList_compact {format : UtcDateTime → String} (hformat : IsRfc3339 format)
    (t : UtcDateTime) :
    (compactRfc3339Timestamp (format t)).toList = t.secondText ++ (t.fraction ++ ['Z']) := by
  have hlast : ∀ c ∈ t.secondText ++ t.fraction, ¬c = 'Z' := by
    intro c hc
    rcases List.mem_append.mp hc with hc | hc
    · exact (ne_of_mem_secondText hc).2
    · exact (ne_of_digit (t.digit_of_mem_fraction hc)).2.2.2.2
  rw [compactRfc3339Timestamp, String.toList_ofList, removeSeparators_format hformat,
    List.rdropWhile_concat_pos _ _ _ (by simp),
    List.rdropWhile_eq_self_iff.mpr fun hne => by simpa using hlast _ (List.getLast_mem hne),
    List.append_assoc]

/-- What a name has after the digits of the instant. -/
def nameEnd (agent : AgentId) : List Char := '-' :: (agent.asStr ++ ".json").toList

theorem toList_manifestPathAt {format : UtcDateTime → String} (hformat : IsRfc3339 format)
    (agent : AgentId) (t : UtcDateTime) :
    (manifestPathAt format agent t).toList =
      t.secondText ++ (t.fraction ++ 'Z' :: nameEnd agent) := by
  rw [manifestPathAt, manifestPath, String.toList_append, String.toList_append, String.toList_append,
    toList_compact hformat, nameEnd, String.toList_append]
  simp

/-- **The order of names.** -/
theorem manifestPathAt_lt_iff {format : UtcDateTime → String} (hformat : IsRfc3339 format)
    (agent agent' : AgentId) {t t' : UtcDateTime} (h : t < t') :
    manifestPathAt format agent t < manifestPathAt format agent' t' ↔ ¬t.Obscures t' := by
  have hlen : t.secondText.length = t'.secondText.length := by
    simp [UtcDateTime.secondText]
  rw [String.lt_iff_toList_lt, toList_manifestPathAt hformat, toList_manifestPathAt hformat,
    append_lt_append_iff hlen, UtcDateTime.secondText_lt_iff]
  rcases UtcDateTime.lt_iff.mp h with hsecond | ⟨hsecond, hnanos⟩
  · exact iff_of_true (Or.inl hsecond) fun ho => hsecond.ne ho.1
  · have hdigit : ∀ c ∈ t'.fraction, c < 'Z' := fun c hc =>
      (t'.digit_of_mem_fraction hc).2.trans_lt (by decide)
    have hlt := UtcDateTime.fraction_lt_fraction hnanos
    rw [append_cons_lt_iff hlt hdigit]
    constructor
    · rintro (hl | ⟨-, hpre⟩) ho
      · exact hl.ne hsecond
      · exact hpre ho.2.1
    · intro ho
      exact Or.inr ⟨UtcDateTime.secondText_congr hsecond,
        fun hpre => ho ⟨hsecond, hpre, hlt.ne⟩⟩

/-- Two instants have two names. -/
theorem manifestPathAt_ne {format : UtcDateTime → String} (hformat : IsRfc3339 format)
    (agent agent' : AgentId) {t t' : UtcDateTime} (h : t < t') :
    manifestPathAt format agent t ≠ manifestPathAt format agent' t' := by
  have hz (t : UtcDateTime) : 'Z' ∉ t.fraction := fun hc =>
    (ne_of_digit (t.digit_of_mem_fraction hc)).2.2.2.2 rfl
  intro heq
  have hlist := congrArg String.toList heq
  rw [toList_manifestPathAt hformat, toList_manifestPathAt hformat] at hlist
  obtain ⟨htext, hrest⟩ := List.append_inj hlist (by simp [UtcDateTime.secondText])
  rcases append_cons_eq_append_cons.mp hrest with ⟨hfraction, -⟩ | ⟨rest, hfraction, -⟩ |
    ⟨rest, hfraction, -⟩
  · rcases UtcDateTime.lt_iff.mp h with hsecond | ⟨-, hnanos⟩
    · exact ((UtcDateTime.secondText_lt_iff _ _).mpr hsecond).ne htext
    · exact (UtcDateTime.fraction_lt_fraction hnanos).ne hfraction
  · exact hz t (hfraction ▸ List.mem_append_right _ List.mem_cons_self)
  · exact hz t' (hfraction ▸ List.mem_append_right _ List.mem_cons_self)

end Tokn.Migration
