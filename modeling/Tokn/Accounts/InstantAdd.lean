import Tokn.Accounts.Cooldowns
import Tokn.Lib.Build

/-!
# The last instant that can be reached

`saturating_instant_add` asks the platform for `now + duration`, and if there is no such instant
searches the nanoseconds up to `duration` for the most that can be added. Of `checked_add` the
search needs only that what is longer than a time that cannot be added cannot be added either: the
bounds then close in on the greatest time that can, from above and below, without underflow.

The clock of the cooldowns, whose instants go up to a last one, is a case.
-/

namespace Tokn.Accounts.InstantAdd

/-! ## The search -/

def divCeil (a b : Nat) : Nat := if 0 < a % b then a / b + 1 else a / b

theorem lt_add_divCeil {lower upper : Nat} (h : lower < upper) :
    lower < lower + divCeil (upper - lower) 2 ∧ lower + divCeil (upper - lower) 2 ≤ upper := by
  rw [divCeil]
  split_ifs <;> omega

/-- The loop of `saturating_instant_add`, on `u128`; `none` is a panic. -/
def searchNanos (fits : Nat → Bool) (lower upper : Nat) : Option Nat :=
  if lower < upper then
    match _hadd : Build.debug.add 128 lower (divCeil (upper - lower) 2) with
    | none => none
    | some midpoint =>
      if fits midpoint then searchNanos fits midpoint upper
      else
        match _hsub : Build.debug.sub 128 midpoint 1 with
        | none => none
        | some previous => searchNanos fits lower previous
  else some lower
termination_by upper - lower
decreasing_by
  · have hmid := Build.eq_of_add_debug _hadd
    have hbounds := lt_add_divCeil ‹lower < upper›
    omega
  · have hmid := Build.eq_of_add_debug _hadd
    have hprev := Build.eq_of_sub_debug _hsub
    have hbounds := lt_add_divCeil ‹lower < upper›
    omega

theorem durationFromNanos_le (nanos : Nat) : durationFromNanos nanos ≤ DURATION_MAX := by
  have hsecs : nanos / 10 ^ 9 % 2 ^ 64 < 2 ^ 64 := Nat.mod_lt _ (by decide)
  have hnanos : nanos % 10 ^ 9 < 10 ^ 9 := Nat.mod_lt _ (by decide)
  rw [durationFromNanos, DURATION_MAX]
  omega

/-- `duration_from_nanos`. -/
def ofNanos (nanos : Nat) : Duration where
  nanos := durationFromNanos nanos
  le_max := durationFromNanos_le nanos

variable {Instant : Type*}

/-- `saturating_instant_add`, on a platform with this `Instant::checked_add`. -/
def saturatingInstantAdd (checkedAdd : Instant → Duration → Option Instant) (now : Instant)
    (duration : Duration) : Option Instant :=
  match checkedAdd now duration with
  | some deadline => some deadline
  | none =>
    (searchNanos (fun nanos => (checkedAdd now (ofNanos nanos)).isSome) 0 duration.nanos).map
      fun lower => (checkedAdd now (ofNanos lower)).getD now

/-! ## The bounds -/

/-- What the bounds have between them: the lower one can be added, unless it is zero, and no time
that can be added is above the upper one. -/
structure Bracket (fits : Nat → Bool) (limit lower upper : Nat) : Prop where
  le : lower ≤ upper
  lower_fits : lower = 0 ∨ fits lower = true
  le_upper : ∀ x ≤ limit, fits x = true → x ≤ upper

namespace Bracket

variable {fits : Nat → Bool} {limit lower upper midpoint : Nat}

theorem raise (h : Bracket fits limit lower upper) (hle : midpoint ≤ upper)
    (hfits : fits midpoint = true) : Bracket fits limit midpoint upper :=
  ⟨hle, Or.inr hfits, h.le_upper⟩

theorem drop (h : Bracket fits limit lower upper) (hlt : lower < midpoint)
    (hmono : ∀ x ≤ limit, midpoint ≤ x → fits x = true → fits midpoint = true)
    (hfits : ¬fits midpoint = true) : Bracket fits limit lower (midpoint - 1) := by
  refine ⟨Nat.le_sub_one_of_lt hlt, h.lower_fits, ?_⟩
  intro x hx hfit
  by_contra hgt
  exact hfits (hmono x hx (by omega) hfit)

end Bracket

/-- **The search ends at the greatest time that can be added.** -/
theorem searchNanos_spec {fits : Nat → Bool} {limit lower upper : Nat}
    (hmono : ∀ x y, x ≤ y → y ≤ limit → fits y = true → fits x = true)
    (hlimit : limit < 2 ^ 128) (hupper : upper ≤ limit) (h : Bracket fits limit lower upper) :
    ∃ nanos ≤ upper, searchNanos fits lower upper = some nanos ∧
      Bracket fits limit nanos nanos := by
  fun_induction searchNanos fits lower upper with
  | case1 lower upper hlt hadd =>
    have hbounds := lt_add_divCeil hlt
    rw [Build.add_of_lt (by omega)] at hadd
    cases hadd
  | case2 lower upper hlt midpoint hadd hfits ih =>
    obtain rfl := Build.eq_of_add_debug hadd
    exact ih hupper (h.raise (lt_add_divCeil hlt).2 hfits)
  | case3 lower upper hlt midpoint hadd hfits hsub =>
    obtain rfl := Build.eq_of_add_debug hadd
    have hbounds := lt_add_divCeil hlt
    rw [Build.sub_of_le (by omega) (by omega)] at hsub
    cases hsub
  | case4 lower upper hlt midpoint hadd hfits previous hsub ih =>
    obtain rfl := Build.eq_of_add_debug hadd
    obtain ⟨rfl, -⟩ := Build.eq_of_sub_debug hsub
    have hbounds := lt_add_divCeil hlt
    obtain ⟨nanos, hle, hsearch, hend⟩ :=
      ih (by omega) (h.drop hbounds.1 (fun x hx hle => hmono _ x hle hx) hfits)
    exact ⟨nanos, by omega, hsearch, hend⟩
  | case5 lower upper hge =>
    obtain rfl := Nat.le_antisymm h.le (Nat.le_of_not_lt hge)
    exact ⟨lower, le_rfl, rfl, h⟩

/-! ## Deadlines -/

section

variable {checkedAdd : Instant → Duration → Option Instant} {now : Instant} {duration : Duration}

/-- The longest time up to `duration` that can be added. -/
structure LongestTime (checkedAdd : Instant → Duration → Option Instant) (now : Instant)
    (duration time : Duration) : Prop where
  le : time.nanos ≤ duration.nanos
  isSome : (checkedAdd now time).isSome = true
  longest : ∀ x : Duration, x.nanos ≤ duration.nanos → (checkedAdd now x).isSome = true →
    x.nanos ≤ time.nanos

theorem ofNanos_nanos (x : Duration) : ofNanos x.nanos = x := by
  cases x with
  | mk nanos hle => simp only [ofNanos, durationFromNanos_eq hle]

theorem nanos_ofNanos {nanos : Nat} (h : nanos ≤ DURATION_MAX) : (ofNanos nanos).nanos = nanos :=
  durationFromNanos_eq h

theorem saturatingInstantAdd_of_some {deadline : Instant}
    (h : checkedAdd now duration = some deadline) :
    saturatingInstantAdd checkedAdd now duration = some deadline := by
  rw [saturatingInstantAdd, h]

/-- **A deadline is a longest time away, or now.** -/
theorem saturatingInstantAdd_spec
    (hmono : ∀ x y : Duration, x.nanos ≤ y.nanos → checkedAdd now x = none →
      checkedAdd now y = none) :
    ∃ deadline, saturatingInstantAdd checkedAdd now duration = some deadline ∧
      ((∃ time, LongestTime checkedAdd now duration time ∧ checkedAdd now time = some deadline) ∨
        deadline = now ∧ ∀ x, checkedAdd now x = none) := by
  cases hadd : checkedAdd now duration with
  | some deadline =>
    have hsome : (checkedAdd now duration).isSome = true := by rw [hadd, Option.isSome_some]
    exact ⟨deadline, saturatingInstantAdd_of_some hadd,
      Or.inl ⟨duration, ⟨le_rfl, hsome, fun x hx _ => hx⟩, hadd⟩⟩
  | none =>
    have hmax := duration.le_max
    have hbits : DURATION_MAX < 2 ^ 128 := by decide
    have hfits (x y : Nat) (hxy : x ≤ y) (hy : y ≤ duration.nanos)
        (h : (checkedAdd now (ofNanos y)).isSome = true) :
        (checkedAdd now (ofNanos x)).isSome = true := by
      have hle : (ofNanos x).nanos ≤ (ofNanos y).nanos := by
        rwa [nanos_ofNanos (by omega), nanos_ofNanos (by omega)]
      rw [Option.isSome_iff_ne_none] at h ⊢
      exact fun hnone => h (hmono _ _ hle hnone)
    obtain ⟨nanos, hle, hsearch, hend⟩ := searchNanos_spec hfits (Nat.lt_of_le_of_lt hmax hbits)
      le_rfl ⟨Nat.zero_le _, Or.inl rfl, fun x hx _ => hx⟩
    have hnanos : (ofNanos nanos).nanos = nanos := nanos_ofNanos (hle.trans hmax)
    rw [saturatingInstantAdd, hadd]
    dsimp only
    rw [hsearch, Option.map_some]
    refine ⟨_, rfl, ?_⟩
    cases hlast : checkedAdd now (ofNanos nanos) with
    | some deadline =>
      refine Or.inl ⟨ofNanos nanos, ⟨by omega, by rw [hlast, Option.isSome_some], ?_⟩, hlast⟩
      intro x hx hsome
      rw [hnanos]
      exact hend.le_upper x.nanos hx (by rwa [ofNanos_nanos])
    | none =>
      -- the bounds started at zero, and zero is all that is left
      have hzero : nanos = 0 := hend.lower_fits.resolve_right (by simp [hlast])
      refine Or.inr ⟨rfl, fun x => hmono (ofNanos nanos) x ?_ hlast⟩
      omega

/-- **The last instant up to `now + duration`.** Only that failure of an addition is monotone is
asked of the platform; where it also adds as documented, the instant is the greatest of all. -/
theorem saturating_instant_add_greatest
    (hmono : ∀ x y : Duration, x.nanos ≤ y.nanos → checkedAdd now x = none →
      checkedAdd now y = none) :
    ∃ deadline, saturatingInstantAdd checkedAdd now duration = some deadline ∧
      (∀ sum, checkedAdd now duration = some sum → deadline = sum) ∧
      ((∃ time, LongestTime checkedAdd now duration time ∧ checkedAdd now time = some deadline) ∨
        deadline = now ∧ ∀ x, checkedAdd now x = none) ∧
      ∀ position : Instant → ℤ,
        (∀ x sum, checkedAdd now x = some sum ↔ position sum = position now + x.nanos) →
        IsGreatest (Set.range position ∩ Set.Iic (position now + duration.nanos))
          (position deadline) := by
  obtain ⟨deadline, hresult, hdeadline⟩ := saturatingInstantAdd_spec hmono
  refine ⟨deadline, hresult, ?_, hdeadline, ?_⟩
  · intro sum hsum
    exact Option.some.inj (hresult.symm.trans (saturatingInstantAdd_of_some hsum))
  · intro position hposition
    obtain ⟨time, htime, hsum⟩ | ⟨-, hnone⟩ := hdeadline
    · have hat := (hposition _ _).mp hsum
      have hle := htime.le
      refine ⟨⟨⟨deadline, rfl⟩, ?_⟩, ?_⟩
      · rw [Set.mem_Iic, hat]
        omega
      · rintro _ ⟨⟨instant, rfl⟩, hup⟩
        rw [Set.mem_Iic] at hup
        by_cases hnow : position instant ≤ position now
        · omega
        · have hmax := duration.le_max
          let x : Duration := ⟨(position instant - position now).toNat, by omega⟩
          have hx : checkedAdd now x = some instant := by
            rw [hposition]
            show position instant = position now + ((position instant - position now).toNat : ℤ)
            omega
          have hlong : (position instant - position now).toNat ≤ time.nanos :=
            htime.longest x (by show (position instant - position now).toNat ≤ _; omega)
              (by rw [hx, Option.isSome_some])
          omega
    · have hzero : checkedAdd now (ofNanos 0) = some now := by
        rw [hposition, nanos_ofNanos (Nat.zero_le _)]
        simp
      rw [hnone] at hzero
      cases hzero

end

/-! ## A clock with a last instant -/

/-- `checked_add` on a platform whose instants are the numbers up to a last one. -/
def addUpTo (last : Nat) (now : Fin (last + 1)) (x : Duration) : Option (Fin (last + 1)) :=
  if h : now + x.nanos < last + 1 then some ⟨now + x.nanos, h⟩ else none

theorem addUpTo_eq_some_iff {last : Nat} {now sum : Fin (last + 1)} {x : Duration} :
    addUpTo last now x = some sum ↔ (sum : ℕ) = now + x.nanos := by
  rw [addUpTo]
  split_ifs with h
  · rw [Option.some.injEq, Fin.ext_iff, eq_comm]
  · refine iff_of_false (by simp) ?_
    have hsum := sum.isLt
    omega

theorem addUpTo_eq_none_iff {last : Nat} {now : Fin (last + 1)} {x : Duration} :
    addUpTo last now x = none ↔ last < now + x.nanos := by
  rw [addUpTo]
  split_ifs with h
  · exact iff_of_false (by simp) (by omega)
  · exact iff_of_true rfl (by omega)

theorem addUpTo_none_of_le {last : Nat} {now : Fin (last + 1)} (x y : Duration)
    (hle : x.nanos ≤ y.nanos) (h : addUpTo last now x = none) : addUpTo last now y = none := by
  rw [addUpTo_eq_none_iff] at h ⊢
  omega

/-- A hundred nanoseconds after the instant 3, where 10 is the last one. -/
theorem saturating_instant_add_lastTen :
    saturatingInstantAdd (addUpTo 10) 3 ⟨100, by decide⟩ = some 10 := by
  obtain ⟨deadline, hresult, -, -, hgreatest⟩ :=
    @saturating_instant_add_greatest _ (addUpTo 10) 3 ⟨100, by decide⟩ addUpTo_none_of_le
  obtain ⟨-, hupper⟩ := hgreatest (fun instant => (instant : ℕ)) fun x sum => by
    rw [addUpTo_eq_some_iff]
    norm_cast
  have hten : (10 : ℤ) ≤ (deadline : ℕ) := hupper ⟨⟨10, rfl⟩, by decide⟩
  have hlt := deadline.isLt
  rw [hresult, Option.some.injEq, Fin.ext_iff]
  show (deadline : ℕ) = 10
  omega

/-- **The deadlines of cooldowns are these.** -/
theorem saturatingInstantAdd_addUpTo (clock : Clock) (now : Fin (clock.last + 1))
    (duration : Duration) :
    (saturatingInstantAdd (addUpTo clock.last) now duration).map Fin.val =
      some (Accounts.saturatingInstantAdd clock now duration) := by
  have hnow : (now : ℕ) ≤ clock.last := Nat.le_of_lt_succ now.isLt
  have hmax := duration.le_max
  obtain ⟨deadline, hresult, hdeadline⟩ :=
    @saturatingInstantAdd_spec _ (addUpTo clock.last) now duration addUpTo_none_of_le
  rw [hresult, Option.map_some, saturatingInstantAdd_eq hnow]
  obtain ⟨time, htime, hsum⟩ | ⟨-, hnone⟩ := hdeadline
  · have hat := addUpTo_eq_some_iff.mp hsum
    have hle := htime.le
    have hlt := deadline.isLt
    let x : Duration := ⟨min duration.nanos (clock.last - now), by omega⟩
    have hx : addUpTo clock.last now x ≠ none := by
      rw [Ne, addUpTo_eq_none_iff]
      show ¬clock.last < now + min duration.nanos (clock.last - now)
      omega
    have hlong : min duration.nanos (clock.last - now) ≤ time.nanos :=
      htime.longest x (min_le_left _ _) (Option.isSome_iff_ne_none.mpr hx)
    rw [Option.some.injEq]
    omega
  · have hzero := addUpTo_eq_none_iff.mp (hnone (ofNanos 0))
    rw [nanos_ofNanos (Nat.zero_le _)] at hzero
    omega

end Tokn.Accounts.InstantAdd
