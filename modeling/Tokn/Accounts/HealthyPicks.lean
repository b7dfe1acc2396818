import Tokn.Accounts.Pool
import Tokn.Lib.Build
import Tokn.Lib.RoundRobin

/-!
# Picks in turn near the end of the counter

`pick_healthy_rr` takes a start from a counter that wraps, and probes the accounts from there on.
The index of a probe is a sum of the start and the probe's number, which overflows if the counter is
about to wrap. Here the addition of that sum is a parameter; `PoolState.pickHealthyRr` is the
function in a release build.

**Theorem (`picks_sound_iff`).** In a run of calls, each call finds a healthy account exactly if
there is one, no sum overflows, and every account that stays healthy is visited, exactly if each
call starts far enough from the end of the counter or finds a healthy account before it.
-/

namespace Tokn.Accounts

/-! ## The function -/

/-- The probes from some number on, so many of them as are left. `none` is a panic. -/
def probe (add : Addition) (healthy : AccountHandle → Bool) (accounts : List AccountHandle)
    (start : Nat) : Nat → Nat → Option (Option AccountHandle)
  | _, 0 => some none
  | i, left + 1 =>
    (add start i).bind fun idx =>
      match (accounts[idx % accounts.length]?).filter healthy with
      | some a => some (some a)
      | none => probe add healthy accounts start (i + 1) left

/-- `pick_healthy_rr`, and the counter after it. `fetch_add` wraps in every build. -/
def pickHealthyRr (add : Addition) (healthy : AccountHandle → Bool)
    (accounts : List AccountHandle) (cursor : Nat) : Option (Option AccountHandle) × Nat :=
  if accounts.length = 0 then (some none, cursor)
  else (probe add healthy accounts cursor 0 accounts.length, (cursor + 1) % usizeSize)

/-- Some calls in a row, each with the accounts that are healthy then. -/
def picks (add : Addition) (accounts : List AccountHandle) :
    Nat → List (AccountHandle → Bool) → List (Option (Option AccountHandle))
  | _, [] => []
  | cursor, healthy :: calls =>
    (pickHealthyRr add healthy accounts cursor).1 ::
      picks add accounts (pickHealthyRr add healthy accounts cursor).2 calls

/-! ## Probes -/

section

variable {healthy : AccountHandle → Bool} {accounts : List AccountHandle} {start : Nat}

/-- The account of a probe, if it is healthy. -/
def healthyAt (healthy : AccountHandle → Bool) (accounts : List AccountHandle) (idx : Nat) :
    Option AccountHandle :=
  (accounts[idx % accounts.length]?).filter healthy

theorem probe_succ (add : Addition) (i left : Nat) :
    probe add healthy accounts start i (left + 1) =
      (add start i).bind fun idx =>
        match healthyAt healthy accounts idx with
        | some a => some (some a)
        | none => probe add healthy accounts start (i + 1) left := rfl

theorem probe_exactAdd (i left : Nat) :
    probe exactAdd healthy accounts start i left =
      some ((List.range' (start + i) left).findSome? (healthyAt healthy accounts)) := by
  induction left generalizing i with
  | zero => rfl
  | succ left ih =>
    rw [probe_succ, exactAdd, Option.bind_some, List.range'_succ, List.findSome?_cons]
    cases healthyAt healthy accounts (start + i) with
    | some a => rfl
    | none => exact ih (i + 1)

/-- Exact probes find a healthy account if there is one. -/
theorem exists_healthy_iff (hne : accounts ≠ []) :
    ((List.range' start accounts.length).findSome? (healthyAt healthy accounts)).isSome = true ↔
      ∃ a ∈ accounts, healthy a = true := by
  have hlen := List.length_pos_iff.mpr hne
  have hround := RoundRobin.map_cycle_range' hlen start
  rw [List.findSome?_isSome_iff]
  constructor
  · rintro ⟨idx, -, h⟩
    obtain ⟨a, ha⟩ := Option.isSome_iff_exists.mp h
    obtain ⟨hget, hhealthy⟩ := Option.filter_eq_some_iff.mp ha
    exact ⟨a, List.mem_of_getElem? hget, hhealthy⟩
  · rintro ⟨a, hmem, hhealthy⟩
    rw [← List.mem_rotate (n := start), ← hround] at hmem
    obtain ⟨idx, hidx, rfl⟩ := List.mem_map.mp hmem
    refine ⟨idx, hidx, ?_⟩
    rw [healthyAt, RoundRobin.getElem?_mod hlen, Option.filter_some, if_pos hhealthy]
    rfl

/-! ## Overflow -/

/-- A call that does not get to an overflow. -/
def StartsBelow (healthy : AccountHandle → Bool) (accounts : List AccountHandle) (start : Nat) :
    Prop :=
  start + accounts.length ≤ usizeSize ∨
    ∃ i < accounts.length, start + i < usizeSize ∧
      (healthyAt healthy accounts (start + i)).isSome = true

/-- Each probe is below the end of the counter, or a probe before it finds an account. -/
def ProbesBelow (healthy : AccountHandle → Bool) (accounts : List AccountHandle)
    (start first left : Nat) : Prop :=
  ∀ j, first ≤ j → j < first + left → start + j < usizeSize ∨
    ∃ i, first ≤ i ∧ i < j ∧ start + i < usizeSize ∧
      (healthyAt healthy accounts (start + i)).isSome = true

theorem probesBelow_iff (hne : accounts ≠ []) :
    ProbesBelow healthy accounts start 0 accounts.length ↔ StartsBelow healthy accounts start := by
  have hlen := List.length_pos_iff.mpr hne
  constructor
  · intro h
    by_cases hlast : start + accounts.length ≤ usizeSize
    · exact Or.inl hlast
    · obtain hlt | ⟨i, -, hi, hbelow, hfound⟩ :=
        h (accounts.length - 1) (Nat.zero_le _) (by omega)
      · omega
      · exact Or.inr ⟨i, by omega, hbelow, hfound⟩
  · rintro (hlast | ⟨i, hi, hbelow, hfound⟩) j - hj
    · exact Or.inl (by omega)
    · by_cases hlt : start + j < usizeSize
      · exact Or.inl hlt
      · exact Or.inr ⟨i, Nat.zero_le i, by omega, hbelow, hfound⟩

theorem probe_eq_exactAdd {build : Build} {first left : Nat}
    (h : ProbesBelow healthy accounts start first left) :
    probe (build.add 64) healthy accounts start first left =
      probe exactAdd healthy accounts start first left := by
  induction left generalizing first with
  | zero => rfl
  | succ left ih =>
    have hfirst : start + first < usizeSize := by
      obtain hlt | ⟨i, hi, hlt, -⟩ := h first le_rfl (by omega)
      · exact hlt
      · omega
    rw [probe_succ, probe_succ, Build.add_of_lt hfirst, exactAdd]
    dsimp only [Option.bind_some]
    cases hfound : healthyAt healthy accounts (start + first) with
    | some a => rfl
    | none =>
      refine ih fun j hj hlast => ?_
      refine (h j (by omega) (by omega)).imp_right ?_
      rintro ⟨i, hi, hij, hbelow, hsome⟩
      refine ⟨i, ?_, hij, hbelow, hsome⟩
      obtain rfl | hlt := Nat.eq_or_lt_of_le hi
      · rw [hfound] at hsome
        cases hsome
      · exact hlt

theorem probesBelow_of_debug {first left : Nat}
    (h : probe (Build.debug.add 64) healthy accounts start first left ≠ none) :
    ProbesBelow healthy accounts start first left := by
  induction left generalizing first with
  | zero => exact fun j hj hlast => by omega
  | succ left ih =>
    have hfirst : start + first < usizeSize := by
      by_contra hlt
      have hnone : Build.debug.add 64 start first = none := if_neg hlt
      exact h (by rw [probe_succ, hnone]; rfl)
    rw [probe_succ, Build.add_of_lt hfirst, Option.bind_some] at h
    intro j hj hlast
    by_cases hlt : start + j < usizeSize
    · exact Or.inl hlt
    · right
      cases hfound : healthyAt healthy accounts (start + first) with
      | some a => exact ⟨first, le_rfl, by omega, hfirst, by rw [hfound]; rfl⟩
      | none =>
        rw [hfound] at h
        obtain hlt' | ⟨i, hi, hij, hbelow, hsome⟩ := ih h j (by omega) (by omega)
        · exact absurd hlt' hlt
        · exact ⟨i, by omega, hij, hbelow, hsome⟩

/-! ## Calls -/

/-- What a call has to do: it does not overflow, which would panic in a debug build, and it finds a
healthy account exactly if there is one. -/
structure SoundPick (healthy : AccountHandle → Bool) (accounts : List AccountHandle)
    (cursor : Nat) (picked : Option (Option AccountHandle)) : Prop where
  noOverflow : (pickHealthyRr (Build.debug.add 64) healthy accounts cursor).1 ≠ none
  found : ∃ r, picked = some r ∧ (r.isSome = true ↔ ∃ a ∈ accounts, healthy a = true)

theorem pickHealthyRr_of_ne_nil (hne : accounts ≠ []) (add : Addition) (cursor : Nat) :
    pickHealthyRr add healthy accounts cursor =
      (probe add healthy accounts cursor 0 accounts.length, (cursor + 1) % usizeSize) :=
  if_neg fun h => hne (List.length_eq_zero_iff.mp h)

theorem soundPick_iff (hne : accounts ≠ []) (build : Build) (cursor : Nat) :
    SoundPick healthy accounts cursor
        (pickHealthyRr (build.add 64) healthy accounts cursor).1 ↔
      StartsBelow healthy accounts cursor := by
  rw [← probesBelow_iff hne]
  constructor
  · intro h
    refine probesBelow_of_debug ?_
    have hdebug := h.noOverflow
    rwa [pickHealthyRr_of_ne_nil hne] at hdebug
  · intro h
    have hexact (build : Build) :
        (pickHealthyRr (build.add 64) healthy accounts cursor).1 =
          some ((List.range' cursor accounts.length).findSome? (healthyAt healthy accounts)) := by
      rw [pickHealthyRr_of_ne_nil hne, probe_eq_exactAdd h, probe_exactAdd, Nat.add_zero]
    refine ⟨?_, _, hexact build, exists_healthy_iff hne⟩
    rw [hexact]
    exact Option.some_ne_none _

/-- A call whose start is at a healthy account picks it. -/
theorem pickHealthyRr_at (hne : accounts ≠ []) (build : Build) {cursor : Nat}
    (hcursor : cursor < usizeSize) {a : AccountHandle}
    (hat : accounts[cursor % accounts.length]? = some a) (ha : healthy a = true) :
    (pickHealthyRr (build.add 64) healthy accounts cursor).1 = some (some a) := by
  obtain ⟨n, hn⟩ := Nat.exists_eq_succ_of_ne_zero (List.length_pos_iff.mpr hne).ne'
  rw [pickHealthyRr_of_ne_nil hne, hn, Nat.succ_eq_add_one, probe_succ, Build.add_of_lt hcursor,
    Option.bind_some, healthyAt, Nat.add_zero, hat, Option.filter_some, if_pos ha]

end

/-! ## Runs -/

theorem getElem?_picks {accounts : List AccountHandle} (hne : accounts ≠ []) (add : Addition)
    (calls : List (AccountHandle → Bool)) {cursor : Nat} (hcursor : cursor < usizeSize) (k : Nat) :
    (picks add accounts cursor calls)[k]? = (calls[k]?).map fun healthy =>
      (pickHealthyRr add healthy accounts ((cursor + k) % usizeSize)).1 := by
  induction calls generalizing cursor k with
  | nil => rfl
  | cons healthy calls ih =>
    cases k with
    | zero =>
      rw [picks, List.getElem?_cons_zero, List.getElem?_cons_zero, Nat.add_zero,
        Nat.mod_eq_of_lt hcursor, Option.map_some]
    | succ k =>
      have hnext : (pickHealthyRr add healthy accounts cursor).2 = (cursor + 1) % usizeSize := by
        rw [pickHealthyRr_of_ne_nil hne]
      rw [picks, List.getElem?_cons_succ, List.getElem?_cons_succ, hnext,
        ih (Nat.mod_lt _ (by decide)), Nat.mod_add_mod, Nat.add_right_comm, Nat.add_assoc]

theorem exists_add_mod_eq {n t : Nat} (ht : t < n) (start : Nat) :
    ∃ k < n, (start + k) % n = t := by
  have hdiv := Nat.div_add_mod start n
  have hlt := Nat.mod_lt start (Nat.zero_lt_of_lt ht)
  by_cases hle : start % n ≤ t
  · refine ⟨t - start % n, by omega, ?_⟩
    have hsum : start + (t - start % n) = t + n * (start / n) := by omega
    rw [hsum, Nat.add_mul_mod_self_left, Nat.mod_eq_of_lt ht]
  · refine ⟨t + n - start % n, by omega, ?_⟩
    have hsum : start + (t + n - start % n) = t + n * (start / n + 1) := by
      rw [Nat.mul_succ]
      omega
    rw [hsum, Nat.add_mul_mod_self_left, Nat.mod_eq_of_lt ht]

/-- Of `2 n - 1` starts in a row, one is at any given index, also where the counter wraps. -/
theorem exists_start {n t : Nat} (hn : n < usizeSize) (ht : t < n) (cursor : Nat) :
    ∃ k, k + 1 < 2 * n ∧ (cursor + k) % usizeSize % n = t := by
  have hrest := Nat.mod_lt cursor (Nat.zero_lt_of_lt hn)
  by_cases hwrap : cursor % usizeSize + n ≤ usizeSize
  · obtain ⟨k, hk, hmod⟩ := exists_add_mod_eq ht (cursor % usizeSize)
    refine ⟨k, by omega, ?_⟩
    have hlt : cursor % usizeSize + k < usizeSize := by omega
    rw [← Nat.mod_add_mod, Nat.mod_eq_of_lt hlt, hmod]
  · refine ⟨usizeSize - cursor % usizeSize + t, by omega, ?_⟩
    have hsum : cursor % usizeSize + (usizeSize - cursor % usizeSize + t) = t + usizeSize := by
      omega
    rw [← Nat.mod_add_mod, hsum, Nat.add_mod_right, Nat.mod_eq_of_lt (ht.trans hn),
      Nat.mod_eq_of_lt ht]

/-- What a run of calls has to do. `2 n - 1` calls are enough to visit `n` accounts. -/
structure SoundPicks (accounts : List AccountHandle) (cursor : Nat)
    (calls : List (AccountHandle → Bool)) (picked : List (Option (Option AccountHandle))) :
    Prop where
  sound : ∀ k healthy, calls[k]? = some healthy → ∀ p, picked[k]? = some p →
    SoundPick healthy accounts ((cursor + k) % usizeSize) p
  visited : 2 * accounts.length ≤ calls.length + 1 →
    ∀ a ∈ accounts, (∀ healthy ∈ calls, healthy a = true) → some (some a) ∈ picked

/-- **Calls in a row.** -/
theorem picks_sound_iff (build : Build) {accounts : List AccountHandle} (hne : accounts ≠ [])
    (hlen : accounts.length < usizeSize) {cursor : Nat} (hcursor : cursor < usizeSize)
    (calls : List (AccountHandle → Bool)) :
    SoundPicks accounts cursor calls (picks (build.add 64) accounts cursor calls) ↔
      ∀ k healthy, calls[k]? = some healthy →
        StartsBelow healthy accounts ((cursor + k) % usizeSize) := by
  have hget := getElem?_picks hne (build.add 64) calls hcursor
  constructor
  · intro h k healthy hk
    refine (soundPick_iff hne build _).mp (h.sound k healthy hk _ ?_)
    rw [hget, hk, Option.map_some]
  · intro h
    refine ⟨fun k healthy hk p hp => ?_, fun hmany a hmem ha => ?_⟩
    · rw [hget, hk, Option.map_some] at hp
      cases hp
      exact (soundPick_iff hne build _).mpr (h k healthy hk)
    · obtain ⟨t, ht, rfl⟩ := List.getElem_of_mem hmem
      obtain ⟨k, hk, hat⟩ := exists_start hlen ht cursor
      have hcall : k < calls.length := by omega
      refine List.mem_of_getElem? (i := k) ?_
      rw [hget, List.getElem?_eq_getElem hcall, Option.map_some]
      refine congrArg some (pickHealthyRr_at hne build (Nat.mod_lt _ (by decide)) ?_
        (ha _ (List.getElem_mem hcall)))
      rw [hat, List.getElem?_eq_getElem ht]

/-- A bucket of three accounts. -/
def threeAccounts : List AccountHandle :=
  (List.range 3).map fun inner =>
    ⟨⟨"work", .active⟩, Provider.ofInfo ⟨"openai", [], [], {}⟩ none, inner⟩

theorem picks_threeAccounts :
    SoundPicks threeAccounts (usizeSize - 8) (List.replicate 5 fun _ => true)
      (picks (Build.release.add 64) threeAccounts (usizeSize - 8)
        (List.replicate 5 fun _ => true)) := by
  refine (picks_sound_iff .release (by decide) (by decide) (by decide) _).mpr ?_
  intro k healthy hk
  have hk' : k < 5 := by simpa using (List.getElem?_eq_some_iff.mp hk).1
  have hmod : (usizeSize - 8 + k) % usizeSize = usizeSize - 8 + k :=
    Nat.mod_eq_of_lt (by rw [usizeSize]; omega)
  rw [hmod]
  refine Or.inl ?_
  rw [usizeSize, threeAccounts, List.length_map, List.length_range]
  omega

/-- At the end of the counter, a debug build panics and a release build misses an account. -/
theorem picks_at_end :
    let third : AccountHandle → Bool := fun a => a.inner = 2
    (∃ a ∈ threeAccounts, third a = true) ∧
      (pickHealthyRr (Build.debug.add 64) third threeAccounts (usizeSize - 1)).1.isNone = true ∧
      (pickHealthyRr (Build.release.add 64) third threeAccounts (usizeSize - 1)).1.map
        Option.isNone = some true := by
  refine ⟨⟨threeAccounts[2], List.getElem_mem _, rfl⟩, ?_, ?_⟩ <;> decide

end Tokn.Accounts
