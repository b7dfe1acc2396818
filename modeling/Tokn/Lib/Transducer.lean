import Tokn.Lib.Except

/-!
# Chains of transducers

A transducer takes elements one by one, gives any number of elements for each, and some more when it
is finished; it may fail. In a chain, what one gives is what the next one takes.

`passAll` puts elements through a chain. `outputs n` is what a chain gives for a whole input when its
first `n` transducers are finished, each after all it takes: a transducer at a time.

**Theorem (`passAll_append`).** Elements may go through a chain in any number of parts.
-/

namespace Tokn

open Tokn.Except (map_eq_ok)

/-- A transducer in its present state. -/
structure Transducer (α ε : Type) where
  State : Type
  state : State
  transform : State → α → State × Except ε (List α)
  finish : State → State × Except ε (List α)

namespace Transducer

variable {α ε : Type}

/-- The transducer after one element, with what it gives. -/
def take (t : Transducer α ε) (a : α) : Except ε (Transducer α ε × List α) :=
  (t.transform t.state a).2.map fun out =>
    (⟨t.State, (t.transform t.state a).1, t.transform, t.finish⟩, out)

/-- The transducer after some elements. -/
def pass (t : Transducer α ε) : List α → Except ε (Transducer α ε × List α)
  | [] => .ok (t, [])
  | a :: as => (t.take a).bind fun r => (r.1.pass as).map fun s => (s.1, r.2 ++ s.2)

/-- What a transducer gives for all it takes, and at its end. -/
def drain (t : Transducer α ε) (as : List α) : Except ε (List α) :=
  (t.pass as).bind fun r => (r.1.finish r.1.state).2.map fun out => r.2 ++ out

/-- A chain after some elements. -/
def passAll : List (Transducer α ε) → List α → Except ε (List (Transducer α ε) × List α)
  | [], as => .ok ([], as)
  | t :: ts, as => (t.pass as).bind fun r => (passAll ts r.2).map fun s => (r.1 :: s.1, s.2)

/-- What a chain gives when its first transducers are finished, so many of them. -/
def outputs : Nat → List (Transducer α ε) → List α → Except ε (List α)
  | 0, ts, as => (passAll ts as).map Prod.snd
  | _ + 1, [], as => .ok as
  | n + 1, t :: ts, as => (t.drain as).bind (outputs n ts)

/-! ## Steps that succeed -/

theorem bind_eq_ok {β γ : Type*} {x : Except ε β} {f : β → Except ε γ} {c : γ} :
    x.bind f = .ok c ↔ ∃ b, x = .ok b ∧ f b = .ok c := by
  cases x with
  | error e => exact iff_of_false (fun h => by cases h) (fun ⟨_, h, _⟩ => by cases h)
  | ok b => exact ⟨fun h => ⟨b, rfl, h⟩, fun ⟨_, hb, h⟩ => by cases hb; exact h⟩

variable {as : List α} {ts : List (Transducer α ε)}

theorem pass_append {t : Transducer α ε} {bs : List α} {r : Transducer α ε × List α} :
    t.pass (as ++ bs) = .ok r ↔ ∃ r₁ r₂, t.pass as = .ok r₁ ∧ r₁.1.pass bs = .ok r₂ ∧
      r = (r₂.1, r₁.2 ++ r₂.2) := by
  induction as generalizing t r with
  | nil =>
    rw [List.nil_append]
    constructor
    · exact fun h => ⟨(t, []), r, rfl, h, rfl⟩
    · rintro ⟨r₁, r₂, h₁, h₂, rfl⟩
      cases h₁
      exact h₂
  | cons a as ih =>
    rw [List.cons_append, pass, pass, bind_eq_ok]
    constructor
    · rintro ⟨r₀, h₀, hrest⟩
      obtain ⟨s, hs, rfl⟩ := map_eq_ok.mp hrest
      obtain ⟨r₁, r₂, h₁, h₂, rfl⟩ := ih.mp hs
      refine ⟨(r₁.1, r₀.2 ++ r₁.2), r₂, ?_, h₂, ?_⟩
      · exact bind_eq_ok.mpr ⟨r₀, h₀, map_eq_ok.mpr ⟨r₁, h₁, rfl⟩⟩
      · rw [List.append_assoc]
    · rintro ⟨r', r₂, h', h₂, rfl⟩
      obtain ⟨r₀, h₀, hrest⟩ := bind_eq_ok.mp h'
      obtain ⟨r₁, h₁, rfl⟩ := map_eq_ok.mp hrest
      refine ⟨r₀, h₀, map_eq_ok.mpr ⟨_, ih.mpr ⟨r₁, r₂, h₁, h₂, rfl⟩, ?_⟩⟩
      rw [List.append_assoc]

theorem passAll_append {bs : List α} {r : List (Transducer α ε) × List α} :
    passAll ts (as ++ bs) = .ok r ↔ ∃ r₁ r₂, passAll ts as = .ok r₁ ∧ passAll r₁.1 bs = .ok r₂ ∧
      r = (r₂.1, r₁.2 ++ r₂.2) := by
  induction ts generalizing as bs r with
  | nil =>
    constructor
    · intro h
      cases h
      exact ⟨([], as), ([], bs), rfl, rfl, rfl⟩
    · rintro ⟨r₁, r₂, h₁, h₂, rfl⟩
      cases h₁
      cases h₂
      rfl
  | cons t ts ih =>
    rw [passAll, passAll, bind_eq_ok]
    constructor
    · rintro ⟨r₀, h₀, hrest⟩
      obtain ⟨s, hs, rfl⟩ := map_eq_ok.mp hrest
      obtain ⟨r₁, r₂, h₁, h₂, rfl⟩ := pass_append.mp h₀
      obtain ⟨s₁, s₂, hs₁, hs₂, rfl⟩ := ih.mp hs
      refine ⟨(r₁.1 :: s₁.1, s₁.2), (r₂.1 :: s₂.1, s₂.2), ?_, ?_, rfl⟩
      · exact bind_eq_ok.mpr ⟨r₁, h₁, map_eq_ok.mpr ⟨s₁, hs₁, rfl⟩⟩
      · exact bind_eq_ok.mpr ⟨r₂, h₂, map_eq_ok.mpr ⟨s₂, hs₂, rfl⟩⟩
    · rintro ⟨q₁, q₂, hq₁, hq₂, rfl⟩
      obtain ⟨r₁, h₁, hrest₁⟩ := bind_eq_ok.mp hq₁
      obtain ⟨s₁, hs₁, rfl⟩ := map_eq_ok.mp hrest₁
      obtain ⟨r₂, h₂, hrest₂⟩ := bind_eq_ok.mp hq₂
      obtain ⟨s₂, hs₂, rfl⟩ := map_eq_ok.mp hrest₂
      refine ⟨(r₂.1, r₁.2 ++ r₂.2), pass_append.mpr ⟨r₁, r₂, h₁, h₂, rfl⟩, ?_⟩
      exact map_eq_ok.mpr ⟨_, ih.mpr ⟨s₁, s₂, hs₁, hs₂, rfl⟩, rfl⟩

theorem passAll_nil (ts : List (Transducer α ε)) : passAll ts [] = .ok (ts, []) := by
  induction ts with
  | nil => rfl
  | cons t ts ih => exact bind_eq_ok.mpr ⟨(t, []), rfl, map_eq_ok.mpr ⟨_, ih, rfl⟩⟩

theorem length_passAll {r : List (Transducer α ε) × List α} (h : passAll ts as = .ok r) :
    r.1.length = ts.length := by
  induction ts generalizing as r with
  | nil =>
    cases h
    rfl
  | cons t ts ih =>
    obtain ⟨r₀, -, hrest⟩ := bind_eq_ok.mp h
    obtain ⟨s, hs, rfl⟩ := map_eq_ok.mp hrest
    exact congrArg Nat.succ (ih hs)

/-- A chain that can be finished takes its whole input. -/
theorem passAll_of_outputs {n : Nat} {out : List α} (h : outputs n ts as = .ok out) :
    ∃ r, passAll ts as = .ok r := by
  induction n generalizing ts as out with
  | zero =>
    obtain ⟨r, hr, -⟩ := map_eq_ok.mp h
    exact ⟨r, hr⟩
  | succ n ih =>
    cases ts with
    | nil => exact ⟨_, rfl⟩
    | cons t ts =>
      obtain ⟨mid, hdrain, hrest⟩ := bind_eq_ok.mp h
      obtain ⟨r, hr, hfinish⟩ := bind_eq_ok.mp hdrain
      obtain ⟨last, -, rfl⟩ := map_eq_ok.mp hfinish
      obtain ⟨s, hs⟩ := ih hrest
      obtain ⟨s₁, -, hs₁, -, -⟩ := passAll_append.mp hs
      exact ⟨_, bind_eq_ok.mpr ⟨r, hr, map_eq_ok.mpr ⟨s₁, hs₁, rfl⟩⟩⟩

end Transducer

end Tokn
