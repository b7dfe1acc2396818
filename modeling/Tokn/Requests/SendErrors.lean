import Tokn.Lib.Utf8
import Tokn.Requests.Event

/-!
# Error responses of an upstream

`crates/requests/src/stages/send`: a response that the stage does not pass on ends it with an error
that carries the body, shortened to 512 bytes. The cut is a byte offset into the text, which panics
inside a character. What the stage does before there is a response is a parameter, and of the
records only that of the body is modelled.

**Theorem (`send_error_iff`).** The stage returns its documented error exactly if the body is short
or the cut is between two characters.
-/

namespace Tokn.Requests

/-! ## The stages -/

inductive RequestsError where
  | upstreamReadFailed (status : UInt16) (source : String)
  | upstreamStatus (status : UInt16) (body : String)
  /-- An error before there is a response. -/
  | undispatched (message : String)
  deriving DecidableEq

def RequestsError.display : RequestsError → String
  | upstreamReadFailed status source =>
    "upstream " ++ toString status.toNat ++ ": failed to read body: " ++ source
  | upstreamStatus status body => "upstream " ++ toString status.toNat ++ ": " ++ body
  | undispatched message => message

/-- An error of the stage: `PipelineError::recoverable` or `PipelineError::permanent`. -/
structure SendError where
  inner : RequestsError
  recoverable : Bool
  deriving DecidableEq

def SendError.toPipelineError (e : SendError) : PipelineError where
  stage := .send
  message := e.inner.display
  recoverable := e.recoverable
  stop := false

/-- A response, and what reading its body as text gives. -/
structure Response where
  status : UInt16
  text : Except String String

inductive SendOutcome where
  | panicked
  | failed (error : SendError)
  /-- The response goes to the next stage. -/
  | sent (status : UInt16)
  deriving DecidableEq

def truncate (s : String) (max : Nat) : Option String :=
  if s.utf8ByteSize ≤ max then some s
  else (Str.sliceTo s.toList max).map fun p => String.ofList p ++ "…"

/-- The error for the status of a response, whose body is recorded first. -/
def statusError (recoverable : Bool) (status : UInt16) (body : String) :
    List RecordEvent × SendOutcome :=
  ([.upstreamBody (Str.utf8Bytes body) none],
    match truncate body 512 with
    | none => .panicked
    | some body => .failed ⟨.upstreamStatus status body, recoverable⟩)

/-- A response with a status from 500 on. -/
def serverError (response : Response) : List RecordEvent × SendOutcome :=
  match response.text with
  | .error e => ([], .failed ⟨.upstreamReadFailed response.status e, true⟩)
  | .ok body => statusError true response.status body

def DefaultSend.send (dispatched : Except SendError Response) : List RecordEvent × SendOutcome :=
  match dispatched with
  | .error e => ([], .failed e)
  | .ok response =>
    if 500 ≤ response.status then serverError response
    else if 400 ≤ response.status then
      -- `unwrap_or_default`: a body that cannot be read is an empty one.
      statusError false response.status (response.text.toOption.getD "")
    else ([], .sent response.status)

def ProxySend.send (forwardServerErrors : Bool) (dispatched : Except SendError Response) :
    List RecordEvent × SendOutcome :=
  match dispatched with
  | .error e => ([], .failed e)
  | .ok response =>
    if 500 ≤ response.status ∧ forwardServerErrors = false then serverError response
    else ([], .sent response.status)

/-! ## Shortening -/

/-- The body can be cut at the limit. -/
def Cuttable (body : String) : Prop :=
  body.utf8ByteSize ≤ 512 ∨ Str.IsCharBoundary body.toList 512

theorem isSome_truncate_iff {body : String} : (truncate body 512).isSome = true ↔ Cuttable body := by
  rw [truncate, Cuttable]
  split_ifs with hshort
  · exact iff_of_true rfl (Or.inl hshort)
  · rw [Option.isSome_map, Str.isSome_sliceTo_iff, or_iff_right hshort]

/-- What an error carries of a body: all of it, or a prefix and an ellipsis. -/
def Carries (carried body : String) : Prop :=
  carried = body ∨ ∃ p, p <+: body.toList ∧ carried = String.ofList p ++ "…"

theorem carries_truncate {carried body : String} (h : truncate body 512 = some carried) :
    Carries carried body := by
  rw [truncate] at h
  split_ifs at h
  · exact Or.inl (Option.some.inj h).symm
  · obtain ⟨p, hp, rfl⟩ := Option.map_eq_some_iff.mp h
    exact Or.inr ⟨p, (Str.sliceTo_eq_some_iff.mp hp).1, rfl⟩

/-- The error that the stages document: recoverable from 500 on, and permanent below. -/
def Documented (status : UInt16) (body : String) (outcome : SendOutcome) : Prop :=
  ∃ carried, outcome = .failed ⟨.upstreamStatus status carried, decide (500 ≤ status)⟩ ∧
    Carries carried body

theorem documented_statusError_iff {status : UInt16} {body : String} :
    Documented status body (statusError (decide (500 ≤ status)) status body).2 ↔ Cuttable body := by
  rw [← isSome_truncate_iff, statusError]
  cases h : truncate body 512 with
  | none =>
    refine iff_of_false ?_ (by simp)
    rintro ⟨carried, hfailed, -⟩
    cases hfailed
  | some carried => exact iff_of_true ⟨carried, rfl, carries_truncate h⟩ rfl

/-- **Error responses.** -/
theorem send_error_iff {response : Response} {body : String} (hstatus : 400 ≤ response.status)
    (htext : response.text = .ok body) :
    (Documented response.status body (DefaultSend.send (.ok response)).2 ↔ Cuttable body) ∧
      (500 ≤ response.status →
        (Documented response.status body (ProxySend.send false (.ok response)).2 ↔
          Cuttable body)) := by
  have hserver (h : 500 ≤ response.status) :
      serverError response = statusError (decide (500 ≤ response.status)) response.status body := by
    rw [serverError, htext, decide_eq_true h]
  refine ⟨?_, fun h => ?_⟩
  · rw [DefaultSend.send]
    by_cases h : 500 ≤ response.status
    · rw [if_pos h, hserver h, documented_statusError_iff]
    · rw [if_neg h, if_pos hstatus, htext, ← decide_eq_false h]
      exact documented_statusError_iff
  · rw [ProxySend.send, if_pos ⟨h, rfl⟩, hserver h, documented_statusError_iff]

/-- A body whose 513th byte is the first of a character. -/
def longBody : String := String.ofList (List.replicate 512 'a' ++ ['é'])

theorem cuttable_replicate_append {n : Nat} (hn : n = 512) (l : List Char) :
    Cuttable (String.ofList (List.replicate n 'a' ++ l)) := by
  refine Or.inr ?_
  rw [String.toList_ofList, ← hn]
  exact ⟨List.replicate n 'a', List.prefix_append _ _, Str.byteCount_replicate rfl n⟩

theorem send_error_longBody :
    Documented 503 longBody (DefaultSend.send (.ok ⟨503, .ok longBody⟩)).2 ∧
      Documented 503 longBody (ProxySend.send false (.ok ⟨503, .ok longBody⟩)).2 := by
  obtain ⟨hdefault, hproxy⟩ :=
    @send_error_iff ⟨503, .ok longBody⟩ longBody (by decide) rfl
  have hcut : Cuttable longBody := cuttable_replicate_append rfl _
  exact ⟨hdefault.mpr hcut, (hproxy (by decide)).mpr hcut⟩

theorem truncate_eq_none {n max : Nat} {l : List Char} (hlong : max < n + Str.byteCount l)
    (hmax : max = n + 1) (hcut : Str.sliceTo l 1 = none) :
    truncate (String.ofList (List.replicate n 'a' ++ l)) max = none := by
  have hsize : (String.ofList (List.replicate n 'a' ++ l)).utf8ByteSize = n + Str.byteCount l := by
    rw [← Str.byteCount_toList, String.toList_ofList, Str.byteCount_append,
      Str.byteCount_replicate rfl]
  rw [truncate, if_neg (by omega), String.toList_ofList, hmax,
    Str.sliceTo_replicate_append rfl n l 1, hcut]
  rfl

/-- A body whose 512th byte is the first of two that make up a character. -/
def cutBody : String := String.ofList (List.replicate 511 'a' ++ ['é'])

theorem send_of_truncate_eq_none {body : String} (h : truncate body 512 = none) :
    (DefaultSend.send (.ok ⟨503, .ok body⟩)).2 = .panicked ∧
      (DefaultSend.send (.ok ⟨400, .ok body⟩)).2 = .panicked ∧
      (ProxySend.send false (.ok ⟨503, .ok body⟩)).2 = .panicked := by
  have hpanic (recoverable : Bool) (status : UInt16) :
      (statusError recoverable status body).2 = .panicked := by
    rw [statusError, h]
  exact ⟨hpanic true 503, hpanic false 400, hpanic true 503⟩

theorem send_panics :
    (DefaultSend.send (.ok ⟨503, .ok cutBody⟩)).2 = .panicked ∧
      (DefaultSend.send (.ok ⟨400, .ok cutBody⟩)).2 = .panicked ∧
      (ProxySend.send false (.ok ⟨503, .ok cutBody⟩)).2 = .panicked :=
  send_of_truncate_eq_none (truncate_eq_none (by decide) rfl rfl)

end Tokn.Requests
