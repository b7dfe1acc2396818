import Tokn.Convert.ToResponses

/-!
# Parallel tool calls translated to Responses

The emitter keeps one item open, so a call whose fragments are interrupted is cut into several
items, and all but the first of them have neither the id nor the name of the call.

**Theorem (`function_calls_iff`).** Every upstream call comes out as one item with its id, its name
and all its arguments if and only if no call is interrupted and none has blank arguments.
-/

namespace Tokn.Convert

open Value

/-! ## Upstream calls -/

/-- A tool call as either side shows it. -/
structure FunctionCall where
  callId : String
  name : String
  arguments : String
  deriving DecidableEq

def IrDelta.callIndex : IrDelta → Option Nat
  | .toolCall index _ _ _ => some index
  | _ => none

/-- The upstream indices of the calls of a stream, one for each fragment. -/
def callIndices (deltas : List IrDelta) : List Nat := deltas.filterMap IrDelta.callIndex

/-- The id, name and arguments of a fragment of the call of an index. -/
def IrDelta.fragment (index : Nat) : IrDelta → Option (Option String × Option String × String)
  | .toolCall i id name argumentsDelta => if i = index then some (id, name, argumentsDelta) else none
  | _ => none

def fragments (deltas : List IrDelta) (index : Nat) :
    List (Option String × Option String × String) :=
  deltas.filterMap (IrDelta.fragment index)

/-- The call of an index: the first id and name given for it, and its arguments in order. -/
def upstreamCall (deltas : List IrDelta) (index : Nat) : FunctionCall where
  callId := ((fragments deltas index).findSome? fun f => f.1).getD ""
  name := ((fragments deltas index).findSome? fun f => f.2.1).getD ""
  arguments := String.join ((fragments deltas index).map fun f => f.2.2)

/-- The id and the name of a call come with its first fragment, and only with that. -/
def announced (seen : List Nat) : List IrDelta → Bool
  | [] => true
  | .toolCall index id name _ :: deltas =>
    (if index ∈ seen then id.isNone && name.isNone else id.isSome && name.isSome) &&
      announced (index :: seen) deltas
  | _ :: deltas => announced seen deltas

/-- The keys of the deltas that go to items. -/
def keys (deltas : List IrDelta) : List DeltaKey := deltas.filterMap IrDelta.key

theorem keys_concat (deltas : List IrDelta) (delta : IrDelta) :
    keys (deltas ++ [delta]) = keys deltas ++ delta.key.toList := by
  cases h : delta.key <;> simp [keys, h]

/-- No call is interrupted by text, reasoning or another call. -/
def Contiguous (deltas : List IrDelta) : Prop :=
  ∀ index k, k ≠ DeltaKey.call index →
    ¬ List.Sublist [DeltaKey.call index, k, DeltaKey.call index] (keys deltas)

/-! ## Calls on the wire -/

/-- A function call item of a Responses stream. -/
def functionCall (item : Value) : Option FunctionCall :=
  if item.str "type" = some "function_call" then
    match item.str "call_id", item.str "name", item.str "arguments" with
    | some callId, some name, some arguments => some ⟨callId, name, arguments⟩
    | _, _, _ => none
  else none

/-- The function calls a stream has shown as done. -/
def functionCalls (out : List SseEvent) : List FunctionCall :=
  (out.filterMap doneItem).filterMap functionCall

/-- One item for each upstream call, with its id, its name and all its arguments. -/
def OneItemPerCall (deltas : List IrDelta) (out : List SseEvent) : Prop :=
  (functionCalls out).Perm ((callIndices deltas).dedup.map (upstreamCall deltas))

instance (deltas : List IrDelta) (out : List SseEvent) : Decidable (OneItemPerCall deltas out) :=
  inferInstanceAs (Decidable (List.Perm _ _))

/-! ## Calls among the items -/

def DeltaKey.callIndex : DeltaKey → Option Nat
  | .call index => some index
  | .text | .reasoning => none

def OutputItem.callIndex (item : OutputItem) : Option Nat := item.kind.key.callIndex

def OutputItem.call (item : OutputItem) : Option FunctionCall :=
  match item.kind with
  | .functionCall _ _ _ callId name => some ⟨callId, name, item.arguments⟩
  | _ => none

theorem functionCall_final (item : OutputItem) : functionCall item.final = item.call := by
  obtain ⟨kind, outputIndex, itemId, deltas⟩ := item
  cases kind <;> simp only [functionCall, OutputItem.final, messageItemValue, reasoningItemValue,
    functionCallItemValue, str_obj] <;> rfl

variable {i : Nat} {delta : IrDelta} {deltas : List IrDelta} {item : OutputItem}

theorem callIndex_eq_some {k : DeltaKey} : k.callIndex = some i ↔ k = .call i := by
  cases k <;> simp [DeltaKey.callIndex]

theorem key_push (item : OutputItem) (delta : IrDelta) :
    (item.push delta).kind.key = item.kind.key := by
  obtain ⟨kind, outputIndex, itemId, deltas⟩ := item
  cases kind <;> cases delta <;> rfl

theorem key_start {n : Nat} {k : DeltaKey} (h : delta.key = some k) :
    (OutputItem.start n k delta).kind.key = k := by
  rw [OutputItem.start, key_push]
  cases delta <;> simp_all [IrDelta.key, ItemKind.ofDelta, ItemKind.key]

/-- Appending to a list adds the sublists that end with the new element. -/
theorem sublist_concat_iff {α : Type*} (xs ys : List α) (x y : α) :
    List.Sublist (ys ++ [y]) (xs ++ [x]) ↔
      List.Sublist (ys ++ [y]) xs ∨ y = x ∧ List.Sublist ys xs := by
  rw [← List.reverse_sublist, List.reverse_append, List.reverse_append]
  simp only [List.reverse_singleton, List.singleton_append, List.sublist_cons_iff]
  constructor
  · rintro (h | ⟨r, h, hsub⟩)
    · exact Or.inl (by simpa using List.reverse_sublist.mpr h)
    · cases h
      exact Or.inr ⟨rfl, List.reverse_sublist.mp hsub⟩
  · rintro (h | ⟨rfl, h⟩)
    · exact Or.inl (by simpa using List.reverse_sublist.mpr h)
    · exact Or.inr ⟨_, rfl, List.reverse_sublist.mpr h⟩

theorem pair_sublist_concat {α : Type*} {xs : List α} {a b x : α} :
    List.Sublist [a, b] (xs ++ [x]) ↔ List.Sublist [a, b] xs ∨ b = x ∧ a ∈ xs := by
  rw [← List.singleton_sublist]
  exact sublist_concat_iff xs [a] x b

theorem triple_sublist_concat {α : Type*} {xs : List α} {a b c x : α} :
    List.Sublist [a, b, c] (xs ++ [x]) ↔
      List.Sublist [a, b, c] xs ∨ c = x ∧ List.Sublist [a, b] xs :=
  sublist_concat_iff xs [a, b] x c

namespace Items

def callIndices (items : Items) : List Nat := items.all.filterMap OutputItem.callIndex

theorem ofDeltas_concat (deltas : List IrDelta) (delta : IrDelta) :
    ofDeltas (deltas ++ [delta]) = (ofDeltas deltas).push delta := by
  simp [ofDeltas]

/-- The open item has the key of the last delta. -/
theorem key_opened (deltas : List IrDelta) :
    (ofDeltas deltas).opened.map (fun item => item.kind.key) = (keys deltas).getLast? := by
  induction deltas using List.reverseRecOn with
  | nil => rfl
  | append_singleton deltas delta ih =>
    rw [ofDeltas_concat, keys_concat]
    rcases push_cases (ofDeltas deltas) delta with ⟨hkey, hpush⟩ | ⟨item, hitem, hkey, hpush⟩ |
      ⟨k, hkey, -, hpush⟩ <;> rw [hpush, hkey]
    · simpa using ih
    · simp [key_push]
    · simp [key_start hkey]

variable {deltas : List IrDelta}

theorem mem_keys_of_opened {item : OutputItem} (h : (ofDeltas deltas).opened = some item) :
    item.kind.key ∈ keys deltas := by
  apply List.mem_of_getLast?
  rw [← key_opened, h]
  rfl

/-- A delta that goes to the open item leaves the calls as they are. -/
theorem callIndices_opened {items : Items} {item : OutputItem} (h : items.opened = some item)
    (delta : IrDelta) :
    callIndices { items with opened := some (item.push delta) } = items.callIndices := by
  simp [callIndices, all, h, List.filterMap_cons, OutputItem.callIndex, key_push]

/-- A delta that opens an item adds its call, if it is one. -/
theorem callIndices_start {items : Items} {k : DeltaKey} {delta : IrDelta}
    (h : delta.key = some k) :
    callIndices { closed := items.all, opened := some (.start items.all.length k delta) } =
      items.callIndices ++ k.callIndex.toList := by
  cases hk : k.callIndex <;> simp [callIndices, all, OutputItem.callIndex, key_start h, hk]

/-- The calls among the items are the calls of the deltas. -/
theorem mem_callIndices (deltas : List IrDelta) (i : Nat) :
    i ∈ (ofDeltas deltas).callIndices ↔ DeltaKey.call i ∈ keys deltas := by
  induction deltas using List.reverseRecOn with
  | nil => simp [ofDeltas, callIndices, all, keys]
  | append_singleton deltas delta ih =>
    rw [ofDeltas_concat, keys_concat]
    rcases push_cases (ofDeltas deltas) delta with ⟨hkey, hpush⟩ | ⟨item, hitem, hkey, hpush⟩ |
      ⟨k, hkey, -, hpush⟩ <;> rw [hpush, hkey]
    · simpa using ih
    · have hmem := mem_keys_of_opened hitem
      rw [callIndices_opened hitem, ih, Option.toList_some, List.mem_append, List.mem_singleton]
      constructor
      · exact Or.inl
      · rintro (h | h)
        · exact h
        · exact h ▸ hmem
    · rw [callIndices_start hkey, List.mem_append, Option.mem_toList, ih, callIndex_eq_some,
        Option.toList_some, List.mem_append, List.mem_singleton, eq_comm (a := k)]

/-- The calls that have been closed. -/
def closedIndices (items : Items) : List Nat := items.closed.filterMap OutputItem.callIndex

theorem callIndices_eq (items : Items) :
    items.callIndices = items.closedIndices ++ (items.opened.bind OutputItem.callIndex).toList := by
  cases h : items.opened with
  | none => simp [callIndices, closedIndices, all, h]
  | some item =>
    cases hi : item.callIndex <;> simp [callIndices, closedIndices, all, h, hi]

/-- A call that something came after has been closed. -/
theorem mem_closedIndices {i : Nat} {k : DeltaKey} (hk : k ≠ .call i)
    (h : List.Sublist [.call i, k] (keys deltas)) : i ∈ (ofDeltas deltas).closedIndices := by
  induction deltas using List.reverseRecOn with
  | nil => simp [keys] at h
  | append_singleton deltas delta ih =>
    rw [keys_concat] at h
    rw [ofDeltas_concat]
    rcases push_cases (ofDeltas deltas) delta with ⟨hkey, hpush⟩ | ⟨item, hitem, hkey, hpush⟩ |
      ⟨k', hkey, -, hpush⟩ <;> rw [hpush] <;> rw [hkey] at h
    · exact ih (by simpa using h)
    · rcases pair_sublist_concat.mp h with hsub | ⟨heq, hcall⟩
      · exact ih hsub
      · have hmem := (mem_callIndices deltas i).mpr hcall
        rw [callIndices_eq, hitem, List.mem_append] at hmem
        rcases hmem with hmem | hmem
        · exact hmem
        · have hindex : item.callIndex = some i := by simpa using hmem
          exact absurd (heq.trans (callIndex_eq_some.mp hindex)) hk
    · have hmem : DeltaKey.call i ∈ keys deltas := by
        rcases pair_sublist_concat.mp h with h | ⟨-, h⟩
        · exact h.subset List.mem_cons_self
        · exact h
      exact (mem_callIndices deltas i).mpr hmem

theorem contiguous_concat (deltas : List IrDelta) (delta : IrDelta) :
    Contiguous (deltas ++ [delta]) ↔ Contiguous deltas ∧
      ∀ i, delta.key = some (.call i) →
        ∀ k, k ≠ DeltaKey.call i → ¬ List.Sublist [.call i, k] (keys deltas) := by
  rw [Contiguous, keys_concat]
  cases hkey : delta.key with
  | none => simp [Contiguous]
  | some k' =>
    simp only [Option.toList_some, Option.some.injEq]
    constructor
    · intro h
      refine ⟨fun i k hk hsub => h i k hk (hsub.trans (List.sublist_append_left _ _)), ?_⟩
      rintro i rfl k hk hsub
      exact h i k hk (triple_sublist_concat.mpr (Or.inr ⟨rfl, hsub⟩))
    · rintro ⟨h, hlast⟩ i k hk hsub
      rcases triple_sublist_concat.mp hsub with hsub' | ⟨heq, hsub'⟩
      · exact h i k hk hsub'
      · exact hlast i heq.symm k hk hsub'

/-- A call that is not open and has come before was interrupted. -/
theorem exists_interruption {i : Nat} (hopen : (ofDeltas deltas).isOpen (.call i) = false)
    (hmem : DeltaKey.call i ∈ keys deltas) :
    ∃ k, k ≠ DeltaKey.call i ∧ List.Sublist [.call i, k] (keys deltas) := by
  obtain ⟨init, k, hinit⟩ : ∃ init k, keys deltas = init ++ [k] :=
    ⟨_, _, (List.dropLast_append_getLast (List.ne_nil_of_mem hmem)).symm⟩
  have hlast : (ofDeltas deltas).opened.map (fun item => item.kind.key) = some k := by
    rw [key_opened, hinit, List.getLast?_concat]
  have hk : k ≠ .call i := by
    rintro rfl
    obtain ⟨item, hitem, hkey⟩ := Option.map_eq_some_iff.mp hlast
    simp [isOpen, hitem, hkey] at hopen
  rw [hinit, List.mem_append, List.mem_singleton] at hmem
  refine ⟨k, hk, ?_⟩
  rw [hinit]
  exact pair_sublist_concat.mpr (Or.inr ⟨rfl, hmem.resolve_right (Ne.symm hk)⟩)

/-- **Interrupted calls.** The items have no index twice exactly when no call is interrupted. -/
theorem nodup_callIndices_iff (deltas : List IrDelta) :
    (ofDeltas deltas).callIndices.Nodup ↔ Contiguous deltas := by
  induction deltas using List.reverseRecOn with
  | nil => simp [ofDeltas, callIndices, all, Contiguous, keys]
  | append_singleton deltas delta ih =>
    rw [ofDeltas_concat, contiguous_concat, ← ih]
    rcases push_cases (ofDeltas deltas) delta with ⟨hkey, hpush⟩ | ⟨item, hitem, hkey, hpush⟩ |
      ⟨k, hkey, hopen, hpush⟩ <;> rw [hpush, hkey]
    · simp
    · rw [callIndices_opened hitem]
      refine ⟨fun h => ⟨h, fun i hi k hk hsub => ?_⟩, fun h => h.1⟩
      -- the open item would be a second one of the call
      rw [callIndices_eq, hitem, List.nodup_append] at h
      have hopened : item.callIndex = some i := callIndex_eq_some.mpr (Option.some.inj hi)
      exact h.2.2 i (mem_closedIndices hk hsub) i (by simp [hopened]) rfl
    · rw [callIndices_start hkey]
      cases k with
      | text => simp [DeltaKey.callIndex]
      | reasoning => simp [DeltaKey.callIndex]
      | call i =>
        have hnodup : ((ofDeltas deltas).callIndices ++ [i]).Nodup ↔
            (ofDeltas deltas).callIndices.Nodup ∧ i ∉ (ofDeltas deltas).callIndices := by
          rw [← List.concat_eq_append, List.nodup_concat, and_comm]
        have hseen : i ∈ (ofDeltas deltas).callIndices ↔
            ∃ k, k ≠ DeltaKey.call i ∧ List.Sublist [.call i, k] (keys deltas) := by
          rw [mem_callIndices]
          refine ⟨exists_interruption hopen, fun hsub => ?_⟩
          obtain ⟨k, -, hsub⟩ := hsub
          exact hsub.subset List.mem_cons_self
        simp only [DeltaKey.callIndex, Option.toList_some, Option.some.injEq,
          DeltaKey.call.injEq, forall_eq', hnodup, hseen, not_exists, not_and]

end Items

/-! ## The contents of a call -/

theorem key_eq_call :
    delta.key = some (.call i) ↔
      ∃ id name argumentsDelta, delta = .toolCall i id name argumentsDelta := by
  cases delta <;> simp [IrDelta.key]

theorem mem_callIndices_iff : i ∈ callIndices deltas ↔ DeltaKey.call i ∈ keys deltas := by
  simp only [callIndices, keys, List.mem_filterMap, key_eq_call]
  refine exists_congr fun delta => and_congr_right fun _ => ?_
  cases delta <;> simp [IrDelta.callIndex]

theorem fragment_eq_none (h : delta.key ≠ some (.call i)) : delta.fragment i = none := by
  cases delta <;> simp_all [IrDelta.key, IrDelta.fragment]

theorem fragments_eq_nil (h : i ∉ callIndices deltas) : fragments deltas i = [] := by
  rw [fragments, List.filterMap_eq_nil_iff]
  intro delta hmem
  apply fragment_eq_none
  intro hkey
  exact h (mem_callIndices_iff.mpr (List.mem_filterMap.mpr ⟨delta, hmem, hkey⟩))

/-- A delta of another key adds nothing to a call. -/
theorem upstreamCall_concat (h : delta.key ≠ some (.call i)) :
    upstreamCall (deltas ++ [delta]) i = upstreamCall deltas i := by
  have : fragments (deltas ++ [delta]) i = fragments deltas i := by
    simp [fragments, fragment_eq_none h]
  rw [upstreamCall, this, upstreamCall]

theorem announced_concat (seen : List Nat) (deltas : List IrDelta) (delta : IrDelta) :
    announced seen (deltas ++ [delta]) =
      (announced seen deltas && announced ((callIndices deltas).reverse ++ seen) [delta]) := by
  induction deltas generalizing seen with
  | nil => simp [announced, callIndices]
  | cons d deltas ih =>
    cases d <;>
      simp [announced, ih, callIndices, List.filterMap_cons, IrDelta.callIndex, Bool.and_assoc]

/-- A fragment without an id and a name adds its arguments. -/
theorem upstreamCall_later (deltas : List IrDelta) (i : Nat) (a : String) :
    upstreamCall (deltas ++ [.toolCall i none none a]) i =
      { upstreamCall deltas i with arguments := (upstreamCall deltas i).arguments ++ a } := by
  simp [upstreamCall, fragments, IrDelta.fragment, List.findSome?_append]

theorem upstreamCall_first (h : i ∉ callIndices deltas) (id name a : String) :
    upstreamCall (deltas ++ [.toolCall i (some id) (some name) a]) i = ⟨id, name, a⟩ := by
  have hnil : deltas.filterMap (IrDelta.fragment i) = [] := fragments_eq_nil h
  simp [upstreamCall, fragments, IrDelta.fragment, hnil]

/-- The call of an item, its arguments as they came. -/
def OutputItem.rawCall (item : OutputItem) : Option FunctionCall :=
  match item.kind with
  | .functionCall _ _ _ callId name => some ⟨callId, name, item.text⟩
  | _ => none

/-- A later fragment of a call extends its item. -/
theorem rawCall_push {c : FunctionCall} (h : item.rawCall = some c) (i : Nat) (a : String) :
    (item.push (.toolCall i none none a)).rawCall = some { c with arguments := c.arguments ++ a } := by
  obtain ⟨kind, outputIndex, itemId, payloads⟩ := item
  cases kind <;> simp only [OutputItem.rawCall, Option.some.injEq, reduceCtorEq] at h
  subst h
  simp [OutputItem.rawCall, OutputItem.push, ItemKind.push, ResponsesEmitter.fillCallId,
    ResponsesEmitter.fillName, IrDelta.payload, OutputItem.text, join_ite_singleton]

/-- The first fragment of a call opens its item. -/
theorem rawCall_start (n i : Nat) (id name a : String) :
    (OutputItem.start n (.call i) (.toolCall i (some id) (some name) a)).rawCall =
      some ⟨id, name, a⟩ := by
  simp [OutputItem.rawCall, OutputItem.start, ItemKind.ofDelta, OutputItem.push, ItemKind.push,
    ResponsesEmitter.fillCallId, ResponsesEmitter.fillName, IrDelta.payload, OutputItem.text,
    join_ite_singleton]

/-- What the first and the later fragments of an announced stream look like. -/
theorem announced_call {id name : Option String} {a : String}
    (h : announced [] (deltas ++ [.toolCall i id name a]) = true) :
    if i ∈ callIndices deltas then id = none ∧ name = none
    else ∃ id' name', id = some id' ∧ name = some name' := by
  rw [announced_concat] at h
  simp only [announced, List.append_nil, List.mem_reverse, Bool.and_true, Bool.and_eq_true] at h
  split_ifs with hmem
  · simpa [hmem] using h.2
  · have := h.2
    rw [if_neg hmem, Bool.and_eq_true, Option.isSome_iff_exists, Option.isSome_iff_exists] at this
    obtain ⟨⟨id', hid⟩, name', hname⟩ := this
    exact ⟨id', name', hid, hname⟩

/-- **Uninterrupted calls.** Where no call is interrupted, every item of a call holds the whole
call. -/
theorem rawCall_ofDeltas (hann : announced [] deltas = true)
    (hnodup : (Items.ofDeltas deltas).callIndices.Nodup) (hmem : item ∈ (Items.ofDeltas deltas).all)
    (hindex : item.callIndex = some i) : item.rawCall = some (upstreamCall deltas i) := by
  induction deltas using List.reverseRecOn generalizing item i with
  | nil => simp [Items.ofDeltas, Items.all] at hmem
  | append_singleton deltas delta ih =>
    have hann' : announced [] deltas = true := by
      rw [announced_concat, Bool.and_eq_true] at hann
      exact hann.1
    rw [Items.ofDeltas_concat] at hnodup hmem
    rcases Items.push_cases (Items.ofDeltas deltas) delta with ⟨hkey, hpush⟩ |
      ⟨opened, hopened, hkey, hpush⟩ | ⟨k, hkey, hopen, hpush⟩ <;> rw [hpush] at hnodup hmem
    · rw [upstreamCall_concat (by simp [hkey])]
      exact ih hann' hnodup hmem hindex
    · rw [Items.callIndices_opened hopened] at hnodup
      simp only [Items.all, Option.toList_some, List.mem_append, List.mem_singleton] at hmem
      rcases hmem with hclosed | rfl
      · have hne : delta.key ≠ some (.call i) := by
          intro hcall
          have hi : opened.callIndex = some i :=
            callIndex_eq_some.mpr (Option.some.inj (hkey.symm.trans hcall))
          rw [Items.callIndices_eq, hopened, List.nodup_append] at hnodup
          exact hnodup.2.2 i (List.mem_filterMap.mpr ⟨item, hclosed, hindex⟩) i (by simp [hi]) rfl
        rw [upstreamCall_concat hne]
        exact ih hann' hnodup (List.mem_append_left _ hclosed) hindex
      · rw [OutputItem.callIndex, key_push] at hindex
        have hcall := callIndex_eq_some.mp hindex
        obtain ⟨id, name, a, rfl⟩ := key_eq_call.mp (hkey.trans (congrArg some hcall))
        have hseen : i ∈ callIndices deltas :=
          mem_callIndices_iff.mpr (hcall ▸ Items.mem_keys_of_opened hopened)
        obtain ⟨rfl, rfl⟩ : id = none ∧ name = none := by simpa [hseen] using announced_call hann
        rw [upstreamCall_later]
        exact rawCall_push (ih hann' hnodup (by simp [Items.all, hopened]) hindex) i a
    · rw [Items.callIndices_start hkey] at hnodup
      rw [Items.all, List.mem_append, Option.toList_some, List.mem_singleton] at hmem
      rcases hmem with hold | rfl
      · have hi : i ∈ (Items.ofDeltas deltas).callIndices :=
          List.mem_filterMap.mpr ⟨item, hold, hindex⟩
        have hne : delta.key ≠ some (.call i) := by
          intro hcall
          obtain rfl : k = .call i := Option.some.inj (hkey.symm.trans hcall)
          exact (List.nodup_append.mp hnodup).2.2 i hi i (by simp [DeltaKey.callIndex]) rfl
        rw [upstreamCall_concat hne]
        exact ih hann' (List.nodup_append.mp hnodup).1 hold hindex
      · rw [OutputItem.callIndex, key_start hkey] at hindex
        obtain rfl := callIndex_eq_some.mp hindex
        obtain ⟨id, name, a, rfl⟩ := key_eq_call.mp hkey
        have hseen : i ∉ callIndices deltas := by
          intro hi
          rw [mem_callIndices_iff, ← Items.mem_callIndices] at hi
          exact (List.nodup_append.mp hnodup).2.2 i hi i (by simp [DeltaKey.callIndex]) rfl
        obtain ⟨⟨id', rfl⟩, name', rfl⟩ : (∃ id', id = some id') ∧ ∃ name', name = some name' := by
          simpa [hseen] using announced_call hann
        rw [upstreamCall_first hseen]
        exact rawCall_start _ i id' name' a

/-! ## One item for each call -/

theorem isSome_call (item : OutputItem) : item.call.isSome = item.callIndex.isSome := by
  obtain ⟨kind, outputIndex, itemId, deltas⟩ := item
  cases kind <;> rfl

theorem length_filterMap_call (items : Items) :
    (items.all.filterMap OutputItem.call).length = items.callIndices.length := by
  rw [Items.callIndices, List.length_filterMap_eq_countP, List.length_filterMap_eq_countP]
  simp only [isSome_call]

/-- Blank arguments are never shown. -/
theorem trim_arguments_call {c : FunctionCall} (h : item.call = some c) :
    Str.trim c.arguments ≠ "" := by
  obtain ⟨kind, outputIndex, itemId, deltas⟩ := item
  cases kind <;> simp only [OutputItem.call, Option.some.injEq, reduceCtorEq] at h
  subst h
  dsimp only [OutputItem.arguments]
  split_ifs with hblank
  · decide
  · exact hblank

/-- Arguments that are not blank are shown as they came. -/
theorem call_of_rawCall {c : FunctionCall} (h : item.rawCall = some c)
    (hblank : Str.trim c.arguments ≠ "") : item.call = some c := by
  obtain ⟨kind, outputIndex, itemId, deltas⟩ := item
  cases kind <;> simp only [OutputItem.rawCall, Option.some.injEq, reduceCtorEq] at h
  subst h
  rw [OutputItem.call, OutputItem.arguments, if_neg hblank]

/-- The items of uninterrupted calls with arguments are the upstream calls. -/
theorem filterMap_call_perm (hann : announced [] deltas = true) (hcontiguous : Contiguous deltas)
    (hblank : ∀ i ∈ callIndices deltas, Str.trim (upstreamCall deltas i).arguments ≠ "") :
    ((Items.ofDeltas deltas).all.filterMap OutputItem.call).Perm
      ((callIndices deltas).dedup.map (upstreamCall deltas)) := by
  have hnodup := (Items.nodup_callIndices_iff deltas).mpr hcontiguous
  have hmem (i : Nat) : i ∈ (Items.ofDeltas deltas).callIndices ↔ i ∈ callIndices deltas := by
    rw [Items.mem_callIndices, mem_callIndices_iff]
  have hcalls : (Items.ofDeltas deltas).all.filterMap OutputItem.call =
      (Items.ofDeltas deltas).callIndices.map (upstreamCall deltas) := by
    rw [Items.callIndices, List.map_filterMap]
    refine List.filterMap_congr fun item hitem => ?_
    cases hindex : item.callIndex with
    | none => simpa [hindex] using isSome_call item
    | some i =>
      refine call_of_rawCall (rawCall_ofDeltas hann hnodup hitem hindex) (hblank i ?_)
      exact (hmem i).mp (List.mem_filterMap.mpr ⟨item, hitem, hindex⟩)
  rw [hcalls]
  refine List.Perm.map _ ((List.perm_ext_iff_of_nodup hnodup (List.nodup_dedup _)).mpr fun i => ?_)
  rw [hmem, List.mem_dedup]

/-- Conversely, one item for each call leaves none interrupted and none blank. -/
theorem contiguous_of_perm
    (h : ((Items.ofDeltas deltas).all.filterMap OutputItem.call).Perm
      ((callIndices deltas).dedup.map (upstreamCall deltas))) :
    Contiguous deltas ∧
      ∀ i ∈ callIndices deltas, Str.trim (upstreamCall deltas i).arguments ≠ "" := by
  constructor
  · have hperm : (Items.ofDeltas deltas).callIndices.dedup.Perm (callIndices deltas).dedup := by
      refine (List.perm_ext_iff_of_nodup (List.nodup_dedup _) (List.nodup_dedup _)).mpr fun i => ?_
      rw [List.mem_dedup, List.mem_dedup, Items.mem_callIndices, mem_callIndices_iff]
    have hlength : (Items.ofDeltas deltas).callIndices.dedup.length =
        (Items.ofDeltas deltas).callIndices.length := by
      rw [hperm.length_eq, ← length_filterMap_call, h.length_eq, List.length_map]
    have hdedup := (List.dedup_sublist _).eq_of_length hlength
    exact (Items.nodup_callIndices_iff deltas).mp (hdedup ▸ List.nodup_dedup _)
  · intro i hi
    have hmem : upstreamCall deltas i ∈ (Items.ofDeltas deltas).all.filterMap OutputItem.call :=
      h.mem_iff.mpr (List.mem_map_of_mem (List.mem_dedup.mpr hi))
    obtain ⟨item, -, hitem⟩ := List.mem_filterMap.mp hmem
    exact trim_arguments_call hitem

theorem functionCalls_lifecycle {out : List SseEvent} {items : List OutputItem}
    (h : Lifecycle out items) : functionCalls out = items.filterMap OutputItem.call := by
  rw [functionCalls, h.done, List.filterMap_map]
  exact congrArg (fun f => items.filterMap f) (funext functionCall_final)

namespace EndpointTranslator

/-- **Parallel tool calls.** A stream that ended, in which each call is announced once, shows one
item for each call with its id, name and arguments if and only if no call is interrupted and none
has blank arguments. -/
theorem function_calls_iff (source : Endpoint) (createdAt : Nat) (events : List SseEvent)
    (hends : Ends source (events.map .transform))
    (hann : announced []
      ((new source .responses createdAt).handedAll (events.map .transform)) = true) :
    let r := run source .responses createdAt (events.map .transform)
    let deltas := (new source .responses createdAt).handedAll (events.map .transform)
    (∃ tail, r.1.finish.2 = .ok tail ∧ OneItemPerCall deltas (emitted r.2 ++ tail)) ↔
      Contiguous deltas ∧
        ∀ i ∈ callIndices deltas, Str.trim (upstreamCall deltas i).arguments ≠ "" := by
  intro r deltas
  obtain ⟨tail, hok, hlife⟩ := closed_of_ends responsesAccount source createdAt events hends
  constructor
  · rintro ⟨tail', hok', hcalls⟩
    obtain rfl : tail = tail' := Except.ok.inj (hok.symm.trans hok')
    rw [OneItemPerCall, functionCalls_lifecycle hlife] at hcalls
    exact contiguous_of_perm hcalls
  · rintro ⟨hcontiguous, hblank⟩
    refine ⟨tail, hok, ?_⟩
    rw [OneItemPerCall, functionCalls_lifecycle hlife]
    exact filterMap_call_perm hann hcontiguous hblank

/-- A Chat Completions chunk with one fragment of a call. -/
def callChunk (index : Nat) (id name : Value) (arguments : String) :
    Option String × List (String × Value) :=
  (none, [("choices", .array [obj [("index", nat 0), ("delta", obj [("tool_calls",
    .array [obj [("index", nat index), ("id", id),
      ("function", obj [("name", name), ("arguments", .string arguments)])]])])]])])

/-- Two calls, one after the other. -/
def sequentialCalls : List (Option String × List (String × Value)) :=
  [callChunk 0 (.string "call_a") (.string "f") "[", callChunk 0 .null .null "1]",
    callChunk 1 (.string "call_b") (.string "g") "[2]"]

theorem sequentialCalls_oneItemPerCall :
    let events := sequentialCalls.map jsonEvent ++ [.done]
    let r := run .chatCompletions .responses 0 (events.map .transform)
    ∃ tail, r.1.finish.2 = .ok tail ∧
      OneItemPerCall ((new .chatCompletions .responses 0).handedAll (events.map .transform))
        (emitted r.2 ++ tail) := by
  intro events r
  have hdeltas : (new .chatCompletions .responses 0).handedAll (events.map .transform) =
      [.toolCall 0 (some "call_a") (some "f") "[", .toolCall 0 none none "1]",
        .toolCall 1 (some "call_b") (some "g") "[2]"] := by
    rw [List.map_append, List.map_map]
    exact (handedAll_jsonEvents rfl sequentialCalls [.transform .done]).trans (by decide)
  refine (function_calls_iff .chatCompletions 0 events ⟨.done, by simp [events], by decide⟩ ?_).mpr
    ⟨?_, ?_⟩ <;> rw [hdeltas]
  · decide
  · exact (Items.nodup_callIndices_iff _).mp (by decide)
  · decide

/-- Two calls, the first interrupted by the second. -/
def interleavedCalls : List (Option String × List (String × Value)) :=
  [callChunk 0 (.string "call_a") (.string "f") "[",
    callChunk 1 (.string "call_b") (.string "g") "[2]", callChunk 0 .null .null "1]"]

/-- The interrupted call comes out as two items, the second of them without a name. -/
theorem interleavedCalls_split :
    let calls := (interleavedCalls.map fun o => .transform (jsonEvent o)) ++ [.transform .done]
    let deltas := (new .chatCompletions .responses 0).handedAll calls
    announced [] deltas = true ∧
      ¬ OneItemPerCall deltas (emitted (run .chatCompletions .responses 0 calls).2) := by
  intro calls deltas
  have hdeltas : deltas = [.toolCall 0 (some "call_a") (some "f") "[",
      .toolCall 1 (some "call_b") (some "g") "[2]", .toolCall 0 none none "1]"] :=
    (handedAll_jsonEvents rfl interleavedCalls [.transform .done]).trans (by decide)
  rw [hdeltas, run, (run_jsonEvents rfl interleavedCalls [.transform .done]).2]
  decide +kernel

end EndpointTranslator

end Tokn.Convert
