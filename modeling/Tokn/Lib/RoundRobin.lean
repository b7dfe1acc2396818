import Mathlib.Data.List.ReduceOption
import Mathlib.Data.List.Rotate
import Mathlib.Tactic

/-!
# Taking turns

A cursor that counts requests picks a candidate for each, the one at the cursor's remainder by the
number of candidates. A request may offer other candidates than the one before it, or none, and then
it leaves the cursor alone.

**Theorem (`count_window`).** Among requests that all offer the same candidates, any `n * k` picks in
a row hold each of the `n` candidates `k` times.

**Theorem (`ownTurns_eq`).** Among requests of several kinds, those of one kind pick what the places
of their turns among all the turns say, and so they cover its candidates if and only if those places
cover the remainders (`covers_iff`).
-/

namespace Tokn.RoundRobin

variable {κ : Type*}

/-- The picks of requests with these candidates, for a cursor that is kept below `size`. -/
def turns (size : Nat) : Nat → List (Option (List κ)) → List (Option κ)
  | _, [] => []
  | cursor, none :: requests => none :: turns size cursor requests
  | cursor, some candidates :: requests =>
    candidates[cursor % candidates.length]? :: turns size ((cursor + 1) % size) requests

/-- The candidate at a place of the endless round. -/
def cycle (candidates : List κ) (h : 0 < candidates.length) (i : Nat) : κ :=
  candidates.get ⟨i % candidates.length, Nat.mod_lt i h⟩

variable {candidates : List κ} {requests : List (Option (List κ))}

theorem getElem?_mod (h : 0 < candidates.length) (i : Nat) :
    candidates[i % candidates.length]? = some (cycle candidates h i) :=
  List.getElem?_eq_getElem (Nat.mod_lt i h)

/-- A request that is offered something picks something. -/
theorem length_reduceOption_turns (size : Nat) (h : ∀ c, some c ∈ requests → 0 < c.length)
    (cursor : Nat) :
    (turns size cursor requests).reduceOption.length = requests.reduceOption.length := by
  induction requests generalizing cursor with
  | nil => rfl
  | cons request requests ih =>
    have hrest := ih fun c hc => h c (List.mem_cons_of_mem _ hc)
    cases request with
    | none =>
      rw [turns, List.reduceOption_cons_of_none, List.reduceOption_cons_of_none]
      exact hrest cursor
    | some c =>
      rw [turns, getElem?_mod (h c List.mem_cons_self), List.reduceOption_cons_of_some,
        List.reduceOption_cons_of_some, List.length_cons, List.length_cons, hrest]

/-! ## One kind of request -/

/-- The picks of one kind of request go round. -/
theorem reduceOption_turns (size : Nat) (h : 0 < candidates.length)
    (hsame : ∀ c, some c ∈ requests → c = candidates) (cursor : Nat) :
    (turns size (cursor % size) requests).reduceOption =
      (List.range' cursor requests.reduceOption.length).map fun i =>
        cycle candidates h (i % size) := by
  induction requests generalizing cursor with
  | nil => rfl
  | cons request requests ih =>
    have hrest := ih fun c hc => hsame c (List.mem_cons_of_mem _ hc)
    cases request with
    | none =>
      rw [turns, List.reduceOption_cons_of_none, List.reduceOption_cons_of_none]
      exact hrest cursor
    | some c =>
      obtain rfl : c = candidates := hsame c List.mem_cons_self
      rw [turns, getElem?_mod h, List.reduceOption_cons_of_some, List.reduceOption_cons_of_some,
        List.length_cons, List.range'_succ, List.map_cons, Nat.mod_add_mod, hrest]

/-- One round, wherever it starts. -/
theorem map_cycle_range' (h : 0 < candidates.length) (start : Nat) :
    (List.range' start candidates.length).map (cycle candidates h) = candidates.rotate start := by
  refine List.ext_getElem ?_ fun i hi hi' => ?_
  · rw [List.length_map, List.length_range', List.length_rotate]
  · simp only [List.getElem_map, List.getElem_range', List.getElem_rotate, cycle,
      List.get_eq_getElem, Nat.one_mul, Nat.add_comm start i]

theorem count_rounds [DecidableEq κ] (h : 0 < candidates.length) (hnodup : candidates.Nodup)
    {candidate : κ} (hmem : candidate ∈ candidates) (k start : Nat) :
    ((List.range' start (candidates.length * k)).map (cycle candidates h)).count candidate = k := by
  induction k generalizing start with
  | zero => rfl
  | succ k ih =>
    have hround : (candidates.rotate start).count candidate = 1 := by
      rw [(List.rotate_perm candidates start).count_eq, List.count_eq_one_of_mem hnodup hmem]
    rw [Nat.mul_succ, Nat.add_comm (candidates.length * k), ← List.range'_append_1, List.map_append,
      List.count_append, map_cycle_range' h, hround, ih]
    omega

/-- **Any rounds in a row are fair**: of `n * k` picks in a row, each candidate has `k`. -/
theorem count_window [DecidableEq κ] {size cursor : Nat} (hnodup : candidates.Nodup)
    (hsame : ∀ c, some c ∈ requests → c = candidates) (hcursor : cursor < size)
    (hwrap : cursor + requests.reduceOption.length ≤ size) {before window after : List κ} {k : Nat}
    (hsplit : (turns size cursor requests).reduceOption = before ++ window ++ after)
    (hlength : window.length = candidates.length * k) {candidate : κ}
    (hmem : candidate ∈ candidates) : window.count candidate = k := by
  have h : 0 < candidates.length := List.length_pos_of_mem hmem
  have hturns := reduceOption_turns size h hsame cursor
  rw [Nat.mod_eq_of_lt hcursor, hsplit] at hturns
  have hnowrap : (List.range' cursor requests.reduceOption.length).map
      (fun i => cycle candidates h (i % size)) =
      (List.range' cursor requests.reduceOption.length).map (cycle candidates h) := by
    refine List.map_congr_left fun i hi => ?_
    rw [Nat.mod_eq_of_lt (by have := List.mem_range'_1.mp hi; omega)]
  rw [hnowrap] at hturns
  have hcount : requests.reduceOption.length =
      before.length + candidates.length * k + after.length := by
    rw [← hlength, ← List.length_append, ← List.length_append, hturns, List.length_map,
      List.length_range']
  rw [hcount, ← List.range'_append_1, ← List.range'_append_1, List.map_append, List.map_append]
    at hturns
  have hhead := List.append_inj_left hturns (by simp [hlength])
  have hwindow := List.append_inj_right hhead (by simp)
  rw [hwindow]
  exact count_rounds h hnodup hmem k _

/-! ## Several kinds of requests -/

/-- The places of the own turns among all the turns. A request is given by whether it is of the own
kind, and whether it takes a turn. -/
def places : Nat → List (Bool × Bool) → List Nat
  | _, [] => []
  | place, (_, false) :: requests => places place requests
  | place, (true, true) :: requests => place :: places (place + 1) requests
  | place, (false, true) :: requests => places (place + 1) requests

/-- An own turn is one of an own request. -/
theorem exists_own_of_places {place : Nat} {requests : List (Bool × Bool)}
    (h : places place requests ≠ []) : ∃ takes, (true, takes) ∈ requests := by
  induction requests generalizing place with
  | nil => exact absurd rfl h
  | cons request requests ih =>
    obtain ⟨own, takes⟩ := request
    cases own with
    | true => exact ⟨takes, List.mem_cons_self⟩
    | false =>
      cases takes with
      | false => exact (ih h).imp fun _ => List.mem_cons_of_mem _
      | true => exact (ih h).imp fun _ => List.mem_cons_of_mem _

/-- The picks of the own requests. -/
def ownTurns (requests : List (Bool × Option (List κ))) (picks : List (Option κ)) : List κ :=
  (requests.zip picks).filterMap fun turn => if turn.1.1 then turn.2 else none

/-- **The own picks are those of the own places**, whatever the others offer. -/
theorem ownTurns_eq (size : Nat) (h : 0 < candidates.length)
    (requests : List (Bool × Option (List κ)))
    (hown : ∀ c, (true, some c) ∈ requests → c = candidates) (cursor : Nat) :
    ownTurns requests (turns size (cursor % size) (requests.map Prod.snd)) =
      (places cursor (requests.map fun request => (request.1, request.2.isSome))).map fun place =>
        cycle candidates h (place % size) := by
  induction requests generalizing cursor with
  | nil => rfl
  | cons request requests ih =>
    have hrest := ih fun c hc => hown c (List.mem_cons_of_mem _ hc)
    simp only [ownTurns] at hrest ⊢
    obtain ⟨own, offered⟩ := request
    cases offered with
    | none =>
      rw [List.map_cons, List.map_cons, turns, List.zip_cons_cons, List.filterMap_cons, hrest]
      cases own <;> rfl
    | some c =>
      rw [List.map_cons, List.map_cons, turns, Nat.mod_add_mod, List.zip_cons_cons,
        List.filterMap_cons, hrest]
      cases own with
      | false => rfl
      | true =>
        obtain rfl : c = candidates := hown c List.mem_cons_self
        rw [if_pos rfl, getElem?_mod h]
        rfl

/-- Every `bound` values in a row hold all of the targets. -/
def Covers {α β : Type*} (bound : Nat) (f : α → β) (values : List α) (targets : β → Prop) : Prop :=
  ∀ before window after, values = before ++ window ++ after → window.length = bound →
    ∀ target, targets target → ∃ value ∈ window, f value = target

theorem covers_map_iff {α β γ : Type*} {bound : Nat} {f : α → β} {g : β → γ} {values : List α}
    {targets : γ → Prop} :
    Covers bound g (values.map f) targets ↔ Covers bound (g ∘ f) values targets := by
  refine ⟨fun h before window after hsplit hlength target htarget => ?_,
    fun h before window after hsplit hlength target htarget => ?_⟩
  · rw [hsplit, List.map_append, List.map_append] at h
    obtain ⟨value, hvalue, heq⟩ :=
      h _ _ _ rfl (by rw [List.length_map, hlength]) target htarget
    obtain ⟨place, hplace, rfl⟩ := List.mem_map.mp hvalue
    exact ⟨place, hplace, heq⟩
  · obtain ⟨front, after', rfl, hfront, rfl⟩ := List.map_eq_append_iff.mp hsplit
    obtain ⟨before', window', rfl, rfl, rfl⟩ := List.map_eq_append_iff.mp hfront
    obtain ⟨place, hplace, heq⟩ :=
      h _ _ _ rfl (by rw [← hlength, List.length_map]) target htarget
    exact ⟨f place, List.mem_map_of_mem hplace, heq⟩

/-- The picks cover the candidates where the places cover the remainders. -/
theorem covers_iff {size bound : Nat} (h : 0 < candidates.length) {places : List Nat}
    (hnodup : places ≠ [] → candidates.Nodup) :
    Covers bound id (places.map fun place => cycle candidates h (place % size)) (· ∈ candidates) ↔
      Covers bound (fun place => place % size % candidates.length) places
        (· < candidates.length) := by
  rw [covers_map_iff]
  refine ⟨fun hcovers before window after hsplit hlength r hr => ?_,
    fun hcovers before window after hsplit hlength candidate hmem => ?_⟩
  · obtain ⟨place, hplace, heq⟩ :=
      hcovers before window after hsplit hlength (candidates.get ⟨r, hr⟩) (List.get_mem _ _)
    have hne : places ≠ [] := by
      rw [hsplit]
      exact List.ne_nil_of_mem (List.mem_append_left _ (List.mem_append_right _ hplace))
    have hindex := (hnodup hne).get_inj_iff.mp heq
    exact ⟨place, hplace, congrArg Fin.val hindex⟩
  · obtain ⟨⟨r, hr⟩, rfl⟩ := List.get_of_mem hmem
    obtain ⟨place, hplace, heq⟩ := hcovers before window after hsplit hlength r hr
    exact ⟨place, hplace, congrArg candidates.get (Fin.ext heq)⟩

end Tokn.RoundRobin
