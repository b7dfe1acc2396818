import Tokn.Convert.Chat
import Tokn.Convert.Messages
import Tokn.Convert.UsageFields

/-!
# Chat chunks, written and read back

`chunk_from_deltas` writes a chunk for each delta and `delta_from_chat_chunk` reads one delta out of
each (`deltaFromChatChunk_chunkFromDelta`).

**Theorem (`decoded_iff`).** The deltas come back, a finish without a reason as "stop" and a usage
with its counts filled in, exactly when no usage has an extra of a name that the reader knows, nor
needs a sum of counts beyond 64 bits.
-/

namespace Tokn.Convert.Chat

open Value
open BTreeMap (get_cons)

/-- The deltas that are read from the chunks of some deltas. -/
def decoded (respId model : String) (deltas : List IrDelta) (finish : Bool) : List IrDelta :=
  (chunkFromDeltas respId model deltas finish).flatMap deltaFromChatChunk

/-- A usage with absent counts as zero and an absent total as their sum. -/
def normalizeUsage (u : Usage) : Usage :=
  { u with
    inputTokens := some (u.inputTokens.getD 0)
    outputTokens := some (u.outputTokens.getD 0)
    totalTokens := some (u.totalTokens.getD (u.inputTokens.getD 0 + u.outputTokens.getD 0)) }

/-- A delta, up to what may become of it. -/
def normalize : IrDelta → IrDelta
  | .usage u => .usage (normalizeUsage u)
  | .finish reason => .finish (some (reason.getD "stop"))
  | .text text => .text text
  | .reasoning text => .reasoning text
  | .toolCall index id name argumentsDelta => .toolCall index id name argumentsDelta

/-- A usage that the names of a chunk can tell. -/
structure Plain (u : Usage) : Prop where
  sorted : BTreeMap.Sorted u.extras
  extras : ∀ e ∈ u.extras, e.1 ∉ openaiUsageKeys
  total : u.totalTokens = none → u.inputTokens.getD 0 + u.outputTokens.getD 0 < 2 ^ 64

/-! ## One chunk -/

/-- The delta that is read from the chunk of a delta. -/
def reread : IrDelta → IrDelta
  | .usage u => .usage (readUsage (usageToChat u))
  | .finish reason => .finish (some (reason.getD "stop"))
  | .text text => .text text
  | .reasoning text => .reasoning text
  | .toolCall index id name argumentsDelta => .toolCall index id name argumentsDelta

/-- What is read from a chunk with one choice. -/
theorem deltaFromChatChunk_choiceChunk (respId model : String) (delta finishReason : Value) :
    deltaFromChatChunk (choiceChunk respId model delta finishReason) =
      choiceDeltas delta ++ if finishReason.isNull then [] else [.finish finishReason.asStr] := by
  have hchoice : firstChoice (choiceChunk respId model delta finishReason) =
      some (obj [("index", nat 0), ("delta", delta), ("finish_reason", finishReason)]) := by
    simp [firstChoice, choiceChunk, chunk, get_obj, get_cons, asArray]
  have husage : usageFromOpenai (choiceChunk respId model delta finishReason) = none := by
    simp [usageFromOpenai, choiceChunk, chunk, get_obj, get_cons]
  simp [deltaFromChatChunk, hchoice, husage, finishDelta, get_obj, get_cons]

theorem deltaFromChatChunk_usage (respId model : String) (u : Usage) :
    deltaFromChatChunk (chunkFromDelta respId model (.usage u)) =
      [.usage (readUsage (usageToChat u))] := by
  have hchoice : firstChoice (chunkFromDelta respId model (.usage u)) = none := by
    simp [firstChoice, chunkFromDelta, chunk, get_obj, get_cons, asArray]
  have husage : usageFromOpenai (chunkFromDelta respId model (.usage u)) =
      some (readUsage (usageToChat u)) := by
    simp [usageFromOpenai_eq, chunkFromDelta, chunk, get_obj, get_cons]
  simp [deltaFromChatChunk, hchoice, husage]

/-- **A chunk is read as one delta.** -/
theorem deltaFromChatChunk_chunkFromDelta (respId model : String) (delta : IrDelta) :
    deltaFromChatChunk (chunkFromDelta respId model delta) = [reread delta] := by
  cases delta with
  | text text =>
    rw [chunkFromDelta, deltaFromChatChunk_choiceChunk]
    simp [choiceDeltas, str, get_obj, get_cons, asStr, isNull, reread]
  | reasoning text =>
    rw [chunkFromDelta, deltaFromChatChunk_choiceChunk]
    simp [choiceDeltas, str, get_obj, get_cons, asStr, isNull, reread]
  | toolCall index id name argumentsDelta =>
    rw [chunkFromDelta, deltaFromChatChunk_choiceChunk]
    cases id <;> cases name <;>
      simp [choiceDeltas, str, get_obj, get_cons, asStr, isNull, reread, asArray,
        toolCallDelta, u64, asU64, nat, optString]
  | usage u => exact deltaFromChatChunk_usage respId model u
  | finish reason =>
    rw [chunkFromDelta, deltaFromChatChunk_choiceChunk]
    simp [choiceDeltas, str, get_obj, asStr, isNull, reread]

/-! ## All chunks -/

/-- A chunk tells a plain usage, and no other. -/
theorem readUsage_usageToChat_iff (u : Usage) :
    readUsage (usageToChat u) = normalizeUsage u ↔ Plain u := by
  have hsum : (u.filled = normalizeUsage u) ↔
      (u.totalTokens = none → u.inputTokens.getD 0 + u.outputTokens.getD 0 < 2 ^ 64) := by
    obtain ⟨input, output, total, inputDetails, outputDetails, extras⟩ := u
    cases total with
    | some total => simp [Usage.filled, normalizeUsage]
    | none =>
      simp only [Usage.filled, normalizeUsage, Option.getD_none, Usage.mk.injEq, Option.some_inj,
        true_and, and_true, forall_const, u64Add]
      constructor
      · intro h
        rw [← h]
        exact Nat.mod_lt _ (by decide)
      · exact Nat.mod_eq_of_lt
  constructor
  · intro h
    have hsorted : BTreeMap.Sorted (readUsage (usageToChat u)).extras := sorted_extras_written u
    have hextras : ∀ e ∈ (readUsage (usageToChat u)).extras, e.1 ∉ openaiUsageKeys :=
      extras_written_known u
    rw [h] at hsorted hextras
    have hfilled : readUsage (usageToChat u) = u.filled := readUsage_written .chat hsorted hextras
    exact ⟨hsorted, hextras, hsum.mp (hfilled.symm.trans h)⟩
  · intro h
    have hfilled : readUsage (usageToChat u) = u.filled := readUsage_written .chat h.sorted h.extras
    rw [hfilled]
    exact hsum.mpr h.total

theorem reread_eq_normalize_iff (delta : IrDelta) :
    reread delta = normalize delta ↔ ∀ u, delta = .usage u → Plain u := by
  cases delta with
  | usage u =>
    rw [reread, normalize, IrDelta.usage.injEq, readUsage_usageToChat_iff]
    exact ⟨fun h v hv => IrDelta.usage.inj hv ▸ h, fun h => h u rfl⟩
  | text text => simp [reread, normalize]
  | reasoning text => simp [reread, normalize]
  | toolCall index id name argumentsDelta => simp [reread, normalize]
  | finish reason => simp [reread, normalize]

theorem decoded_eq (respId model : String) (deltas : List IrDelta) (finish : Bool) :
    decoded respId model deltas finish =
      deltas.map reread ++ if finish then [.finish (some "stop")] else [] := by
  have hlast : deltaFromChatChunk (choiceChunk respId model (obj []) (.string "stop")) =
      [.finish (some "stop")] :=
    deltaFromChatChunk_chunkFromDelta respId model (.finish none)
  rw [decoded, chunkFromDeltas, List.flatMap_append, List.flatMap_map]
  simp only [deltaFromChatChunk_chunkFromDelta, ← List.map_eq_flatMap]
  cases finish
  · rfl
  · simp [hlast]

/-- **The round trip of a list of deltas.** -/
theorem decoded_iff (respId model : String) (deltas : List IrDelta) (finish : Bool) :
    decoded respId model deltas finish =
        deltas.map normalize ++ (if finish then [.finish (some "stop")] else []) ↔
      ∀ u, .usage u ∈ deltas → Plain u := by
  rw [decoded_eq, List.append_left_inj, List.map_inj_left]
  simp only [reread_eq_normalize_iff]
  constructor
  · exact fun h u hu => h _ hu u rfl
  · rintro h delta hdelta u rfl
    exact h u hdelta

/-! A Messages stream reports its input tokens again when it ends. -/

/-- The usage of the event, where the count is an extra. -/
def messageDeltaUsage : Usage := { outputTokens := some 5, extras := [("input_tokens", nat 7)] }

example : Messages.deltaFromMessagesEvent (obj [("type", .string "message_delta"),
    ("usage", obj [("input_tokens", nat 7), ("output_tokens", nat 5)])]) =
      [.usage messageDeltaUsage] := by
  decide

/-- The extra does not come back. -/
theorem knownExtra_lost : ¬ ∀ respId model deltas,
    decoded respId model deltas false = deltas.map normalize := by
  intro h
  have hlost := h "chatcmpl-1" "gpt" [.usage messageDeltaUsage]
  revert hlost
  decide

end Tokn.Convert.Chat
