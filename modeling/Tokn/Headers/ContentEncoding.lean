import Tokn.Headers.Map
import Tokn.Lib.HeaderMap

/-!
# The content encoding of a request

`request_content_encoding` exists twice, for a header map of this program and for one of the server.
Both look at one header line only, the first one, where the list of codings may be spread over any
number of lines.

**Theorem (`content_encoding_joined_iff`).** The decision is the one of all lines joined by commas
exactly if no line after the first one has a coding, or the first one has two.
-/

namespace Tokn.ContentEncoding

inductive ContentEncodingKind where
  | gzip
  | zstd
  deriving DecidableEq

/-! ## Lists of codings -/

/-- The codings of a list, without the ones that leave a body as it is. -/
def codings (value : List Char) : List (List Char) :=
  ((value.splitOn ',').map Str.trimChars).filter fun part =>
    !part.isEmpty && Ascii.lower part ≠ "identity".toList

/-- The decision on a list, with the errors for more than one coding and for one that is unknown. -/
def decision {ε : Type} (multiple : ε) (unsupported : String → ε) (codings : List (List Char)) :
    Except ε (Option ContentEncodingKind) :=
  match codings with
  | [] => .ok none
  | [first] =>
    let encoding := String.ofList (Ascii.lower first)
    if encoding = "gzip" then .ok (some .gzip)
    else if encoding = "zstd" then .ok (some .zstd)
    else .error (unsupported encoding)
  | _ :: _ :: _ => .error multiple

theorem codings_append_cons (value rest : List Char) :
    codings (value ++ ',' :: rest) = codings value ++ codings rest := by
  rw [codings, List.splitOn_append_cons_self, List.map_append, List.filter_append]
  rfl

theorem codings_intercalate (values : List (List Char)) :
    codings ([','].intercalate values) = values.flatMap codings := by
  induction values with
  | nil => rfl
  | cons value values ih =>
    cases values with
    | nil => rw [List.intercalate_singleton, List.flatMap_cons, List.flatMap_nil, List.append_nil]
    | cons next values =>
      rw [List.intercalate_cons_cons, List.append_assoc, List.singleton_append, codings_append_cons,
        ih, ← List.flatMap_cons]

section

variable {ε : Type} {multiple : ε} {unsupported : String → ε}

theorem decision_of_two_le {l : List (List Char)} (h : 2 ≤ l.length) :
    decision multiple unsupported l = .error multiple := by
  cases l with
  | nil => cases h
  | cons first l =>
    cases l with
    | nil => exact absurd h (by simp)
    | cons second l => rfl

theorem decision_singleton_ne (hne : ∀ s, unsupported s ≠ multiple) (first : List Char) :
    decision multiple unsupported [first] ≠ .error multiple ∧
      decision multiple unsupported [first] ≠ .ok none := by
  rw [decision]
  split_ifs
  · exact ⟨by simp, by simp⟩
  · exact ⟨by simp, by simp⟩
  · exact ⟨fun h => hne _ (Except.error.inj h), by simp⟩

/-- Codings that come later change the decision, unless two codings make it already. -/
theorem decision_append_iff (hne : ∀ s, unsupported s ≠ multiple) (l later : List (List Char)) :
    decision multiple unsupported l = decision multiple unsupported (l ++ later) ↔
      later = [] ∨ 2 ≤ l.length := by
  by_cases htwo : 2 ≤ l.length
  · have hboth : 2 ≤ (l ++ later).length := by rw [List.length_append]; omega
    rw [decision_of_two_le htwo, decision_of_two_le hboth]
    exact iff_of_true rfl (Or.inr htwo)
  · rw [or_iff_left htwo]
    refine ⟨fun h => ?_, fun h => by rw [h, List.append_nil]⟩
    by_contra hlater
    obtain ⟨c, later, rfl⟩ := List.exists_cons_of_ne_nil hlater
    cases l with
    | nil =>
      cases later with
      | nil => exact (decision_singleton_ne hne c).2 h.symm
      | cons d later => cases h
    | cons first l =>
      have hnil : l = [] := List.length_eq_zero_iff.mp (by rw [List.length_cons] at htwo; omega)
      rw [hnil] at h
      exact (decision_singleton_ne hne first).1 h

end

/-- The first line has all codings of the list, or two of them. -/
def FirstDecides (lines : List (List Char)) : Prop :=
  lines.tail.flatMap codings = [] ∨ ∃ first, lines.head? = some first ∧ 2 ≤ (codings first).length

/-- What a decision has to be: the one of the joined lines, and an error for two codings. -/
structure FollowsList {ε : Type} (multiple : ε) (result joined : Except ε (Option ContentEncodingKind))
    (list : List (List Char)) : Prop where
  joined : result = joined
  multiple : 2 ≤ list.length → result = .error multiple

theorem followsList_iff {ε : Type} {multiple : ε} {unsupported : String → ε}
    (hne : ∀ s, unsupported s ≠ multiple) (lines : List (List Char)) :
    FollowsList multiple (decision multiple unsupported ((lines.head?.map codings).getD []))
        (decision multiple unsupported (lines.flatMap codings)) (lines.flatMap codings) ↔
      FirstDecides lines := by
  have hjoined : FirstDecides lines ↔
      decision multiple unsupported ((lines.head?.map codings).getD []) =
        decision multiple unsupported (lines.flatMap codings) := by
    cases lines with
    | nil => exact iff_of_true (Or.inl rfl) rfl
    | cons first later =>
      rw [List.head?_cons, Option.map_some, Option.getD_some, List.flatMap_cons,
        decision_append_iff hne, FirstDecides, List.tail_cons, List.head?_cons]
      simp
  rw [hjoined]
  exact ⟨fun h => h.joined, fun h => ⟨h, fun htwo => h.trans (decision_of_two_le htwo)⟩⟩

/-! ## The decision in the pipeline -/

namespace Requests

open Headers (HeaderName)

inductive CodecError where
  | multipleEncodings
  | unsupportedEncoding (encoding : String)
  deriving DecidableEq

def CONTENT_ENCODING : HeaderName := .new "Content-Encoding"

/-- `request_content_encoding` of `crates/requests/src/utils/codec.rs`. -/
def requestContentEncoding (headers : Headers.HeaderMap) :
    Except CodecError (Option ContentEncodingKind) :=
  match headers.get CONTENT_ENCODING.lower with
  | none => .ok none
  | some value =>
    if value.isEmpty then .ok none
    else decision .multipleEncodings .unsupportedEncoding (codings value.toList)

/-- The lines of the header. -/
def lines (headers : Headers.HeaderMap) : List (List Char) :=
  (headers.getAll CONTENT_ENCODING.lower).map String.toList

/-- One line with what all lines of the header say. -/
def joined (headers : Headers.HeaderMap) : Headers.HeaderMap :=
  Headers.HeaderMap.new.append CONTENT_ENCODING (String.ofList ([','].intercalate (lines headers)))

theorem requestContentEncoding_eq (headers : Headers.HeaderMap) :
    requestContentEncoding headers =
      decision .multipleEncodings .unsupportedEncoding
        (((lines headers).head?.map codings).getD []) := by
  rw [requestContentEncoding, Headers.HeaderMap.get_eq, lines, List.head?_map]
  cases (headers.getAll CONTENT_ENCODING.lower).head? with
  | none => rfl
  | some value =>
    dsimp only
    split_ifs with hempty
    · rw [String.isEmpty_iff.mp hempty]
      rfl
    · rfl

theorem lines_joined (headers : Headers.HeaderMap) :
    lines (joined headers) = [[','].intercalate (lines headers)] := by
  have hall (value : String) :
      (Headers.HeaderMap.new.append CONTENT_ENCODING value).getAll CONTENT_ENCODING.lower =
        [value] := by
    simp [Headers.HeaderMap.getAll, Headers.HeaderMap.append, Headers.HeaderMap.new]
  rw [lines, joined, hall, List.map_singleton, String.toList_ofList]

theorem requestContentEncoding_joined (headers : Headers.HeaderMap) :
    requestContentEncoding (joined headers) =
      decision .multipleEncodings .unsupportedEncoding ((lines headers).flatMap codings) := by
  rw [requestContentEncoding_eq, lines_joined, List.head?_cons, Option.map_some, Option.getD_some,
    codings_intercalate]

end Requests

/-! ## The decision of the server -/

namespace Router

structure UnsupportedMediaType where
  message : String
  deriving DecidableEq

def multipleEncodings : UnsupportedMediaType := ⟨"multiple content-encodings are not supported"⟩

def unsupportedEncoding (other : String) : UnsupportedMediaType :=
  ⟨"unsupported content-encoding '" ++ other ++ "'"⟩

def unsupportedHeader : UnsupportedMediaType := ⟨"unsupported content-encoding header"⟩

/-- `request_content_encoding` of `crates/router/src/api/codec.rs`. -/
def requestContentEncoding (headers : HeaderMap) :
    Except UnsupportedMediaType (Option ContentEncodingKind) :=
  match headers.get "content-encoding" with
  | none => .ok none
  | some value =>
    match value.toStr with
    | none => .error unsupportedHeader
    | some text => decision multipleEncodings unsupportedEncoding (codings text)

def lines (headers : HeaderMap) : List HeaderValue := headers.getAll "content-encoding"

/-- The value with what all lines say. -/
def joinedValue (lines : List HeaderValue) : HeaderValue :=
  ⟨[44].intercalate (lines.map HeaderValue.bytes)⟩

/-- One line with what all lines of the header say. -/
def joined (headers : HeaderMap) : HeaderMap := [("content-encoding", joinedValue (lines headers))]

/-- A text that starts with another one is not a text that differs from that within its length. -/
theorem append_ne {start text : String} {i : Nat} (hlt : i < start.toList.length)
    (hne : start.toList[i]? ≠ text.toList[i]?) (rest : String) : start ++ rest ≠ text := by
  rintro rfl
  rw [String.toList_append, List.getElem?_append_left hlt] at hne
  exact hne rfl

theorem unsupportedEncoding_ne (other : String) :
    unsupportedEncoding other ≠ multipleEncodings ∧ unsupportedEncoding other ≠ unsupportedHeader := by
  have happend : (unsupportedEncoding other).message =
      "unsupported content-encoding '" ++ (other ++ "'") := String.append_assoc ..
  constructor
  · intro h
    rw [h] at happend
    exact append_ne (i := 0) (by decide) (by decide) _ happend.symm
  · intro h
    rw [h] at happend
    exact append_ne (i := 29) (by decide) (by decide) _ happend.symm

theorem decision_ne_unsupportedHeader (l : List (List Char)) :
    decision multipleEncodings unsupportedEncoding l ≠ .error unsupportedHeader := by
  cases l with
  | nil => simp [decision]
  | cons first l =>
    cases l with
    | cons second l => exact fun h => absurd (Except.error.inj h) (by decide)
    | nil =>
      rw [decision]
      split_ifs
      · simp
      · simp
      · exact fun h => (unsupportedEncoding_ne _).2 (Except.error.inj h)

/-! ### The text of the lines -/

theorem toStr_append_comma (value : HeaderValue) (rest : List UInt8) :
    (HeaderValue.toStr ⟨value.bytes ++ 44 :: rest⟩) =
      value.toStr.bind fun text => (HeaderValue.toStr ⟨rest⟩).map fun rest => text ++ ',' :: rest := by
  have hcomma : HeaderValue.isVisible 44 = true := by decide
  rw [HeaderValue.toStr, HeaderValue.toStr, HeaderValue.toStr, List.all_append, List.all_cons, hcomma]
  cases value.bytes.all HeaderValue.isVisible <;> cases rest.all HeaderValue.isVisible <;> simp

/-- The texts of lines, if all are visible. -/
def texts : List HeaderValue → Option (List (List Char))
  | [] => some []
  | value :: lines => value.toStr.bind fun text => (texts lines).map fun rest => text :: rest

theorem texts_cons (value : HeaderValue) (lines : List HeaderValue) :
    texts (value :: lines) = value.toStr.bind fun text => (texts lines).map fun rest => text :: rest :=
  rfl

theorem toStr_joinedValue (lines : List HeaderValue) :
    (joinedValue lines).toStr = (texts lines).map [','].intercalate := by
  induction lines with
  | nil => rfl
  | cons value lines ih =>
    cases lines with
    | nil =>
      rw [joinedValue, List.map_singleton, List.intercalate_singleton, texts_cons, texts]
      cases value.toStr with
      | none => rfl
      | some text =>
        rw [Option.bind_some, Option.map_some, Option.map_some, List.intercalate_singleton]
    | cons next lines =>
      rw [joinedValue, List.map_cons] at ih
      rw [joinedValue, List.map_cons, List.map_cons, List.intercalate_cons_cons, List.append_assoc,
        List.singleton_append, toStr_append_comma, ih, texts_cons value, texts_cons next]
      cases value.toStr with
      | none => rfl
      | some text =>
        cases next.toStr with
        | none => rfl
        | some text' =>
          cases texts lines with
          | none => rfl
          | some rest =>
            simp only [Option.bind_some, Option.map_some, List.intercalate_cons_cons,
              List.append_assoc, List.singleton_append]

/-- A request whose lines decide alike: the first one is not visible, or all are and the first one
has all codings of the list or two of them. -/
def LinesDecide (lines : List HeaderValue) : Prop :=
  (∃ first, lines.head? = some first ∧ first.toStr = none) ∨
    ∃ list, texts lines = some list ∧ FirstDecides list

/-- What the decision has to be. A value that is not visible lists no codings. -/
def FollowsJoined (headers : HeaderMap) : Prop :=
  FollowsList multipleEncodings (requestContentEncoding headers)
    (requestContentEncoding (joined headers))
    (((joinedValue (lines headers)).toStr.map codings).getD [])

theorem requestContentEncoding_joined (headers : HeaderMap) :
    requestContentEncoding (joined headers) =
      ((texts (lines headers)).elim (.error unsupportedHeader) fun list =>
        decision multipleEncodings unsupportedEncoding (list.flatMap codings)) := by
  have hget : (joined headers).get "content-encoding" = some (joinedValue (lines headers)) := by
    simp [joined, HeaderMap.get, HeaderMap.getAll]
  rw [requestContentEncoding, hget]
  dsimp only
  rw [toStr_joinedValue]
  cases texts (lines headers) with
  | none => rfl
  | some list =>
    rw [Option.map_some, Option.elim_some, ← codings_intercalate]

theorem followsJoined_iff (headers : HeaderMap) :
    FollowsJoined headers ↔ LinesDecide (lines headers) := by
  rw [FollowsJoined, requestContentEncoding_joined, toStr_joinedValue, requestContentEncoding,
    HeaderMap.get, ← lines]
  cases hlines : lines headers with
  | nil =>
    exact iff_of_true ⟨rfl, fun h => absurd h (by decide)⟩ (Or.inr ⟨[], rfl, Or.inl rfl⟩)
  | cons first later =>
    rw [List.head?_cons, LinesDecide, List.head?_cons, texts]
    dsimp only
    cases hfirst : first.toStr with
    | none =>
      exact iff_of_true ⟨rfl, fun h => absurd h (Nat.not_succ_le_zero 1)⟩
        (Or.inl ⟨first, rfl, hfirst⟩)
    | some text =>
      have hvisible : ¬∃ value, some first = some value ∧ value.toStr = none := by
        rintro ⟨value, hvalue, hnone⟩
        cases hvalue
        rw [hfirst] at hnone
        cases hnone
      rw [or_iff_right hvisible, Option.bind_some]
      cases htexts : texts later with
      | none =>
        refine iff_of_false (fun h => decision_ne_unsupportedHeader _ h.joined) ?_
        rintro ⟨list, hlist, -⟩
        cases hlist
      | some rest =>
        have hfollows := followsList_iff (fun s => (unsupportedEncoding_ne s).1) (text :: rest)
        rw [Option.map_some, Option.elim_some, Option.map_some, Option.map_some, Option.getD_some,
          codings_intercalate]
        refine hfollows.trans ⟨fun h => ⟨text :: rest, rfl, h⟩, ?_⟩
        rintro ⟨list, hlist, h⟩
        cases hlist
        exact h

end Router

/-! ## Joined lines -/

/-- **One decision for all lines.** -/
theorem content_encoding_joined_iff (headers : Headers.HeaderMap) (served : HeaderMap) :
    (FollowsList .multipleEncodings (Requests.requestContentEncoding headers)
        (Requests.requestContentEncoding (Requests.joined headers))
        ((Requests.lines headers).flatMap codings) ↔ FirstDecides (Requests.lines headers)) ∧
      (Router.FollowsJoined served ↔ Router.LinesDecide (Router.lines served)) := by
  refine ⟨?_, Router.followsJoined_iff served⟩
  rw [Requests.requestContentEncoding_eq, Requests.requestContentEncoding_joined]
  exact followsList_iff (fun s => by simp) (Requests.lines headers)

/-- A body with two codings, on two lines, is taken to have the first one only. -/
theorem content_encoding_two_lines :
    let headers := (Headers.HeaderMap.new.append (.new "Content-Encoding") "gzip").append
      (.new "Content-Encoding") "zstd"
    let served : HeaderMap :=
      [("content-encoding", .ofText "gzip"), ("content-encoding", .ofText "zstd")]
    Requests.requestContentEncoding headers = .ok (some .gzip) ∧
      Requests.requestContentEncoding (Requests.joined headers) = .error .multipleEncodings ∧
      Router.requestContentEncoding served = .ok (some .gzip) ∧
      Router.requestContentEncoding (Router.joined served) = .error Router.multipleEncodings := by
  decide +kernel

end Tokn.ContentEncoding
