import Tokn.Convert.Pipeline
import Tokn.Lib.EventStream

/-!
# Events on the wire

The text of `encode_sse`, read by the rules of the event stream format, is one event. Its data are
the lines of the data that was written, and `lines` does not show a last newline.

**Theorem (`sse_decoded_iff`).** The event is the one that was written exactly if its data do not
end with a newline and its name is not the empty string.
-/

namespace Tokn.Convert

open EventStream

/-- The fields that `encode_sse` writes. -/
def sseFields (event : Option String) (data : String) : List (List Char) :=
  (event.map fun event => "event: ".toList ++ event.toList).toList ++
    if data = "" then ["data:".toList]
    else (Str.lines data.toList).map ("data: ".toList ++ ·)

/-- Each field is a line, and an empty line follows. -/
theorem toList_encodeSse (event : Option String) (data : String) :
    (encodeSse event data).toList = (sseFields event data).flatMap (· ++ ['\n']) ++ ['\n'] := by
  rw [encodeSse, sseFields, String.toList_append, List.flatMap_append, List.append_assoc]
  congr 1
  · cases event with
    | none => rfl
    | some name => simp
  · split_ifs
    · rfl
    · rw [String.toList_append, String.toList_join, List.flatMap_map, List.flatMap_map]
      congr 1
      refine List.flatMap_congr fun line _ => ?_
      simp

theorem sseFields_lines {event : Option String} {data : String}
    (hname : ∀ name, event = some name → '\n' ∉ name.toList ∧ '\r' ∉ name.toList)
    (hdata : '\r' ∉ data.toList) {l : List Char} (h : l ∈ sseFields event data) :
    '\n' ∉ l ∧ '\r' ∉ l ∧ l ≠ [] := by
  rw [sseFields, List.mem_append] at h
  obtain h | h := h
  · rw [Option.mem_toList, Option.map_eq_some_iff] at h
    obtain ⟨name, hevent, rfl⟩ := h
    obtain ⟨hn, hr⟩ := hname name hevent
    simp [hn, hr]
  · split_ifs at h
    · rw [List.mem_singleton.mp h]
      decide
    · obtain ⟨line, hline, rfl⟩ := List.mem_map.mp h
      obtain ⟨hn, hsub⟩ := Str.of_mem_lines hdata hline
      have hr : '\r' ∉ line := fun hmem => hdata (hsub _ hmem)
      simp [hn, hr]

theorem head?_encodeSse (event : Option String) {data : String} (hdata : '\r' ∉ data.toList) :
    (encodeSse event data).toList.head? = some 'e' ∨
      (encodeSse event data).toList.head? = some 'd' := by
  rw [toList_encodeSse, sseFields]
  cases event with
  | some name => exact Or.inl (by simp)
  | none =>
    refine Or.inr ?_
    split_ifs with hempty
    · rfl
    · have hne : data.toList ≠ [] := fun h => hempty (String.toList_eq_nil_iff.mp h)
      have hlines : Str.lines data.toList ≠ [] := by
        intro hnil
        have hflat := Str.flatMap_lines hdata hne
        rw [hnil] at hflat
        split_ifs at hflat
        · exact hne hflat.symm
        · exact absurd hflat.symm (List.append_ne_nil_of_right_ne_nil _ (List.cons_ne_nil _ _))
      obtain ⟨line, lines, hlines⟩ := List.exists_cons_of_ne_nil hlines
      rw [hlines]
      simp

/-- The buffers after the fields. -/
theorem foldl_sseFields (event : Option String) {data : String} (hdata : '\r' ∉ data.toList) :
    (sseFields event data).foldl Buffers.field {} =
      { eventType := (event.getD "").toList
        data := if data.toList.getLast? = some '\n' then data.toList else data.toList ++ ['\n'] } := by
  have hevent : (event.map fun event => "event: ".toList ++ event.toList).toList.foldl
      Buffers.field {} = { eventType := (event.getD "").toList } := by
    cases event with
    | none => rfl
    | some name => exact field_event {} name.toList
  rw [sseFields, List.foldl_append, hevent]
  split_ifs with hempty hlast
  · rw [hempty] at hlast
    cases hlast
  · rw [hempty]
    rfl
  all_goals
    have hne : data.toList ≠ [] := fun h => hempty (String.toList_eq_nil_iff.mp h)
    rw [foldl_data, Str.flatMap_lines hdata hne]
    simp_all

/-- What is read back. -/
def sseDecoded (event : Option String) (data : String) : EventStream.Event where
  name := if event.getD "" = "" then none else some (event.getD "").toList
  data := if data.toList.getLast? = some '\n' then data.toList.dropLast else data.toList

theorem decode_encodeSse {event : Option String} {data : String}
    (hname : ∀ name, event = some name → '\n' ∉ name.toList ∧ '\r' ∉ name.toList)
    (hdata : '\r' ∉ data.toList) :
    decode (Str.utf8Bytes (encodeSse event data)) = some [sseDecoded event data] := by
  have hfields := fun l => sseFields_lines (l := l) hname hdata
  have hmark : dropMark (encodeSse event data).toList = (encodeSse event data).toList := by
    refine dropMark_of_head? ?_
    obtain h | h := head?_encodeSse event hdata <;> rw [h] <;> decide
  rw [decode_utf8Bytes, ofText, hmark, toList_encodeSse,
    splitLines_flatMap fun l hl => ⟨(hfields l hl).1, (hfields l hl).2.1⟩]
  have hlast : splitLines [] ['\n'] = [[]] := rfl
  rw [hlast, events_fields fun l hl => (hfields l hl).2.2, foldl_sseFields event hdata]
  rw [dispatch_of_getLast? (by dsimp only; split_ifs with hlast' <;> simp [hlast']), sseDecoded]
  simp only [String.toList_eq_nil_iff]
  split_ifs <;> simp [events]

/-- **When an event survives the wire.** -/
theorem sse_decoded_iff {event : Option String} {data : String}
    (hname : ∀ name, event = some name → '\n' ∉ name.toList ∧ '\r' ∉ name.toList)
    (hdata : '\r' ∉ data.toList) :
    decode (Str.utf8Bytes (encodeSse event data)) =
        some [⟨event.map String.toList, data.toList⟩] ↔
      data.toList.getLast? ≠ some '\n' ∧ event ≠ some "" := by
  have hnames : (if event.getD "" = "" then none else some (event.getD "").toList) =
      event.map String.toList ↔ event ≠ some "" := by
    cases event with
    | none => simp
    | some name => simp
  have hdatas : (if data.toList.getLast? = some '\n' then data.toList.dropLast else data.toList) =
      data.toList ↔ data.toList.getLast? ≠ some '\n' := by
    split_ifs with hlast
    · refine iff_of_false (fun h => ?_) (not_not_intro hlast)
      have hlength := congrArg List.length h
      cases hl : data.toList with
      | nil => rw [hl] at hlast; cases hlast
      | cons c l => rw [hl] at hlength; simp at hlength
    · exact iff_of_true rfl hlast
  rw [decode_encodeSse hname hdata, Option.some.injEq, List.singleton_inj, sseDecoded,
    EventStream.Event.mk.injEq, hnames, hdatas, and_comm]

theorem sse_decoded_ping :
    decode (Str.utf8Bytes (encodeSse (some "ping") " a\n\nb")) =
      some [⟨some "ping".toList, " a\n\nb".toList⟩] :=
  (sse_decoded_iff (fun name h => by cases h; decide) (by decide)).mpr ⟨by decide, by decide⟩

/-- A newline at the end of the data is lost. -/
theorem sse_last_newline :
    '\r' ∉ "a\n".toList ∧ decode (Str.utf8Bytes (encodeSse none "a\n")) = some [⟨none, ['a']⟩] ∧
      decode (Str.utf8Bytes (encodeSse none "a\n")) ≠ some [⟨none, "a\n".toList⟩] := by
  have hdecode := @decode_encodeSse none "a\n" (fun _ h => by cases h) (by decide)
  rw [hdecode]
  decide

end Tokn.Convert
