import Tokn.Lib.Machine
import Tokn.Lib.Table

/-!
# Session affinity

The value a session was last given, with the time it was touched. The binding is live for `ttl`
after that, known as expired until `retainedTtl`, and forgotten then. Times are counted in one
unit from one origin; `now` is the reading of the clock that a call makes.
-/

namespace Tokn.Accounts

variable {V : Type}

inductive Lookup (V : Type) where
  | hit (value : V)
  | expired
  | unknown
  deriving DecidableEq

structure AffinityEntry (V : Type) where
  value : V
  stampedAt : Nat
  deriving DecidableEq

structure Affinity (V : Type) where
  map : Table String (AffinityEntry V) := []
  ttl : Nat
  retainedTtl : Nat
  gcEvery : Nat := 1024
  opsSinceGc : Nat := 0
  deriving DecidableEq

namespace Affinity

/-- The retention counts from the last touch, and is never shorter than the live time. -/
def withLegacyAbsoluteRetention (ttl absoluteRetentionTtl : Nat) : Affinity V where
  ttl := ttl
  retainedTtl := max ttl absoluteRetentionTtl

/-- The expired entries are retained for some time after the live one. -/
def fromSessionPlan (ttl expiredRetention : Nat) : Affinity V where
  ttl := ttl
  retainedTtl := max ttl (ttl + expiredRetention)

/-- `maybe_sweep_expired`: once in `gcEvery` operations, forget what is not retained. -/
def maybeSweepExpired (a : Affinity V) (now : Nat) : Affinity V :=
  if a.opsSinceGc + 1 < a.gcEvery then { a with opsSinceGc := a.opsSinceGc + 1 }
  else
    { a with
      opsSinceGc := 0
      map := a.map.filter fun e => now - e.2.stampedAt < a.retainedTtl }

/-- `lookup`: what the session is bound to, and the map without the entry if it has just been found
too old to retain. -/
def lookup (a : Affinity V) (now : Nat) (key : String) : Lookup V × Affinity V :=
  let a := a.maybeSweepExpired now
  match a.map.get key with
  | some e =>
    if now - e.stampedAt < a.ttl then (.hit e.value, a)
    else if now - e.stampedAt < a.retainedTtl then (.expired, a)
    else (.unknown, { a with map := a.map.erase key })
  | none => (.unknown, a)

/-- `record`: bind, or touch again. -/
def record (a : Affinity V) (now : Nat) (key : String) (value : V) : Affinity V :=
  let a := a.maybeSweepExpired now
  { a with map := Table.set a.map key { value := value, stampedAt := now } }

end Affinity

end Tokn.Accounts

/-!
## Session affinity against a memory of the last records

Calls overlap. Each takes the lock a few times, and what it does under the lock happens at once: it
sweeps, looks at an entry, looks again before it removes one, or writes one. A call reads the clock
each time, and a sweep once for each entry.

**Theorem (`answers_reference`).** In every interleaving, whatever the clock does as long as it does
not go back, an answer is the one that the last record of its key gives at that time: what was
recorded, while it is younger than `ttl`; that it has expired, while it is younger than
`retainedTtl`; and else nothing. The invariant `Remembers` says what the map may have forgotten.
-/

namespace Tokn.Accounts

variable {V : Type}

namespace Affinity

/-! ### The parts of a call -/

/-- `fetch_add`: whether a sweep is due. -/
def countOp (a : Affinity V) : Bool × Affinity V :=
  (!decide (a.opsSinceGc + 1 < a.gcEvery), { a with opsSinceGc := a.opsSinceGc + 1 })

def resetOps (a : Affinity V) : Affinity V := { a with opsSinceGc := 0 }

/-- `retain`, with a reading of the clock for each entry. -/
def sweep (a : Affinity V) (readings : String → Nat) : Affinity V :=
  { a with map := a.map.filter fun e => readings e.1 - e.2.stampedAt < a.retainedTtl }

/-- The part of `lookup` that only reads. It gives no answer when the entry has to go. -/
def peek (a : Affinity V) (now : Nat) (key : String) : Option (Lookup V) :=
  match a.map.get key with
  | some e =>
    if now - e.stampedAt < a.ttl then some (.hit e.value)
    else if now - e.stampedAt < a.retainedTtl then some .expired
    else none
  | none => some .unknown

/-- The part of `lookup` that looks again, and removes the entry if it still has to go. -/
def settle (a : Affinity V) (now : Nat) (key : String) : Lookup V × Affinity V :=
  match a.map.get key with
  | some e =>
    if now - e.stampedAt < a.ttl then (.hit e.value, a)
    else if now - e.stampedAt < a.retainedTtl then (.expired, a)
    else (.unknown, { a with map := a.map.erase key })
  | none => (.unknown, a)

/-- The part of `record` that writes. -/
def put (a : Affinity V) (now : Nat) (key : String) (value : V) : Affinity V :=
  { a with map := Table.set a.map key { value := value, stampedAt := now } }

theorem maybeSweepExpired_eq (a : Affinity V) (now : Nat) :
    a.maybeSweepExpired now =
      if a.countOp.1 then a.countOp.2.resetOps.sweep fun _ => now else a.countOp.2 := by
  rw [maybeSweepExpired, countOp]
  by_cases h : a.opsSinceGc + 1 < a.gcEvery
  · rw [if_pos h, if_neg (by simpa using h)]
  · rw [if_neg h, if_pos (by simpa using h)]
    rfl

/-- A lookup that nothing comes between is its parts in a row. -/
theorem lookup_eq (a : Affinity V) (now : Nat) (key : String) :
    a.lookup now key =
      match (a.maybeSweepExpired now).peek now key with
      | some found => (found, a.maybeSweepExpired now)
      | none => (a.maybeSweepExpired now).settle now key := by
  rw [lookup, peek]
  cases hget : (a.maybeSweepExpired now).map.get key with
  | none => rfl
  | some e =>
    by_cases hlive : now - e.stampedAt < (a.maybeSweepExpired now).ttl
    · simp only [if_pos hlive]
    · by_cases hkept : now - e.stampedAt < (a.maybeSweepExpired now).retainedTtl
      · simp only [if_neg hlive, if_pos hkept]
      · simp only [if_neg hlive, if_neg hkept, settle, hget]

theorem record_eq (a : Affinity V) (now : Nat) (key : String) (value : V) :
    a.record now key value = (a.maybeSweepExpired now).put now key value := rfl

/-- Affinity before the first call: the retention is never shorter than the live time. -/
def new (ttl retainedTtl gcEvery : Nat) : Affinity V where
  ttl := ttl
  retainedTtl := max ttl retainedTtl
  gcEvery := gcEvery

end Affinity

/-! ### Interleavings -/

namespace AffinityRun

inductive Call (V : Type) where
  | lookup (key : String)
  | record (key : String) (value : V)

/-- What a thread does next. -/
inductive Task (V : Type) where
  | idle
  | count (call : Call V)
  | reset (call : Call V)
  | sweep (call : Call V)
  | act (call : Call V)
  | settle (key : String)

/-- What has happened: the values recorded and the answers given, with their times. -/
inductive Event (V : Type) where
  | recorded (key : String) (value : V) (time : Nat)
  | answered (key : String) (found : Lookup V) (time : Nat)

structure World (V : Type) where
  affinity : Affinity V
  tasks : Nat → Task V
  now : Nat
  history : List (Event V)

/-- A thread starts a call, or goes on with it. `pass` is the time that passes while it does, and
`later` when it reads the clock within that time, which a sweep does for each entry. -/
inductive Move (V : Type) where
  | start (thread : Nat) (call : Call V)
  | go (thread : Nat) (later : String → Nat) (pass : Nat)

/-- The thread goes on, with its next part. -/
def World.go (w : World V) (thread : Nat) (reading : String → Nat) (after : Nat) : World V :=
  let next (task : Task V) : Nat → Task V := Function.update w.tasks thread task
  match w.tasks thread with
  | .idle => { w with now := after }
  | .count call =>
    { w with
      affinity := w.affinity.countOp.2
      tasks := next (if w.affinity.countOp.1 then .reset call else .act call)
      now := after }
  | .reset call =>
    { w with affinity := w.affinity.resetOps, tasks := next (.sweep call), now := after }
  | .sweep call =>
    { w with affinity := w.affinity.sweep reading, tasks := next (.act call), now := after }
  | .act (.lookup key) =>
    match w.affinity.peek (reading key) key with
    | some found =>
      { w with
        tasks := next .idle
        now := after
        history := w.history ++ [.answered key found (reading key)] }
    | none => { w with tasks := next (.settle key), now := after }
  | .act (.record key value) =>
    { w with
      affinity := w.affinity.put (reading key) key value
      tasks := next .idle
      now := after
      history := w.history ++ [.recorded key value (reading key)] }
  | .settle key =>
    { w with
      affinity := (w.affinity.settle (reading key) key).2
      tasks := next .idle
      now := after
      history := w.history ++
        [.answered key (w.affinity.settle (reading key) key).1 (reading key)] }

/-- A thread that is idle may start a call. -/
def step (w : World V) : Move V → Option (World V)
  | .start thread call =>
    match w.tasks thread with
    | .idle => some { w with tasks := Function.update w.tasks thread (.count call) }
    | _ => none
  | .go thread later pass =>
    some (w.go thread (fun key => w.now + min (later key) pass) (w.now + pass))

def initial (ttl retainedTtl gcEvery : Nat) : World V where
  affinity := Affinity.new ttl retainedTtl gcEvery
  tasks _ := .idle
  now := 0
  history := []

/-! ### The reference -/

/-- The last record of a key, and its time. -/
def lastRecord (history : List (Event V)) (key : String) : Option (V × Nat) :=
  history.foldl (fun last event =>
    match event with
    | .recorded k value time => if k = key then some (value, time) else last
    | .answered .. => last) none

/-- The answer that a last record gives. -/
def answerOf (ttl retainedTtl : Nat) (last : Option (V × Nat)) (now : Nat) : Lookup V :=
  match last with
  | none => .unknown
  | some (value, time) =>
    if now - time < ttl then .hit value
    else if now - time < retainedTtl then .expired
    else .unknown

/-- The answer that remembers the last record of each key, and nothing else. -/
def reference (ttl retainedTtl : Nat) (history : List (Event V)) (key : String) (now : Nat) :
    Lookup V :=
  answerOf ttl retainedTtl (lastRecord history key) now

theorem lastRecord_answered (history : List (Event V)) (key : String) (found : Lookup V)
    (time : Nat) : lastRecord (history ++ [.answered key found time]) = lastRecord history := by
  funext k
  rw [lastRecord, List.foldl_append]
  rfl

theorem lastRecord_recorded (history : List (Event V)) (key : String) (value : V) (time : Nat) :
    lastRecord (history ++ [.recorded key value time]) =
      fun k => if key = k then some (value, time) else lastRecord history k := by
  funext k
  rw [lastRecord, List.foldl_append]
  rfl

/-! ### What the map remembers -/

/-- The map has the last record of the key, or has forgotten it when it was too old. -/
def RemembersKey (a : Affinity V) (now : Nat) (last : Option (V × Nat)) (key : String) : Prop :=
  a.map.get key = last.map (fun record => ⟨record.1, record.2⟩) ∨
    a.map.get key = none ∧ ∃ record, last = some record ∧ a.retainedTtl ≤ now - record.2

/-- The invariant of the map. -/
structure Remembers (a : Affinity V) (now : Nat) (last : String → Option (V × Nat)) : Prop where
  keyed : Table.Keyed a.map
  keys : ∀ key, RemembersKey a now (last key) key

section

variable {a : Affinity V} {now : Nat} {last : String → Option (V × Nat)}

/-- What is forgotten stays too old. -/
theorem Remembers.later (h : Remembers a now last) {after : Nat} (hle : now ≤ after) :
    Remembers a after last := by
  refine ⟨h.keyed, fun key => ?_⟩
  rcases h.keys key with hget | ⟨hget, record, hlast, hold⟩
  · exact Or.inl hget
  · exact Or.inr ⟨hget, record, hlast, by omega⟩

/-- The counter does not matter. -/
theorem Remembers.of_map {a' : Affinity V} (h : Remembers a now last) (hmap : a'.map = a.map)
    (hretained : a'.retainedTtl = a.retainedTtl) : Remembers a' now last := by
  refine ⟨hmap ▸ h.keyed, fun key => ?_⟩
  rw [RemembersKey, hmap, hretained]
  exact h.keys key

/-- A sweep forgets only what is too old. -/
theorem Remembers.sweep (h : Remembers a now last) {reading : String → Nat} {after : Nat}
    (hreading : ∀ key, now ≤ reading key ∧ reading key ≤ after) :
    Remembers (a.sweep reading) after last := by
  refine ⟨h.keyed.filter _, fun key => ?_⟩
  have hget : (a.sweep reading).map.get key = (a.map.get key).filter fun e =>
      decide (reading key - e.stampedAt < a.retainedTtl) :=
    Table.get_filter_entry h.keyed _ key
  rcases (h.later ((hreading key).1.trans (hreading key).2)).keys key with
    hmap | ⟨hmap, record, hlast, hold⟩
  · cases hlast : last key with
    | none =>
      rw [hlast] at hmap
      exact Or.inl (by rw [hget, hmap]; rfl)
    | some record =>
      rw [hlast] at hmap
      by_cases hkeep : reading key - record.2 < a.retainedTtl
      · refine Or.inl ?_
        rw [hget, hmap]
        exact Option.filter_eq_some_iff.mpr ⟨rfl, decide_eq_true hkeep⟩
      · refine Or.inr ⟨?_, record, rfl, ?_⟩
        · rw [hget, hmap, Option.map_some]
          exact if_neg (by simpa using hkeep)
        · have hafter := (hreading key).2
          change a.retainedTtl ≤ after - record.2
          omega
  · exact Or.inr ⟨by rw [hget, hmap]; rfl, record, hlast, hold⟩

theorem settle_ttl (a : Affinity V) (now : Nat) (key : String) :
    (a.settle now key).2.ttl = a.ttl := by
  rw [Affinity.settle]
  split
  · split_ifs <;> rfl
  · rfl

theorem settle_retainedTtl (a : Affinity V) (now : Nat) (key : String) :
    (a.settle now key).2.retainedTtl = a.retainedTtl := by
  rw [Affinity.settle]
  split
  · split_ifs <;> rfl
  · rfl

/-- Removing an entry that is too old, too. -/
theorem Remembers.settle (h : Remembers a now last) (key : String) :
    Remembers (a.settle now key).2 now last := by
  rw [Affinity.settle]
  cases hget : a.map.get key with
  | none => exact h
  | some e =>
    by_cases hlive : now - e.stampedAt < a.ttl
    · simp only [if_pos hlive]
      exact h
    · by_cases hkept : now - e.stampedAt < a.retainedTtl
      · simp only [if_neg hlive, if_pos hkept]
        exact h
      · simp only [if_neg hlive, if_neg hkept]
        refine ⟨h.keyed.erase key, fun k => ?_⟩
        rw [RemembersKey, BTreeMap.get_erase]
        by_cases hk : k = key
        · subst hk
          rw [if_pos rfl]
          rcases h.keys k with hmap | ⟨hmap, -⟩
          · rw [hget] at hmap
            obtain ⟨record, hlast, hentry⟩ := Option.map_eq_some_iff.mp hmap.symm
            refine Or.inr ⟨rfl, record, hlast, ?_⟩
            rw [← hentry] at hkept
            exact Nat.le_of_not_lt hkept
          · rw [hget] at hmap
            cases hmap
        · rw [if_neg hk]
          exact h.keys k

theorem Remembers.put (h : Remembers a now last) (key : String) (value : V) (time : Nat) :
    Remembers (a.put time key value) now
      (fun k => if key = k then some (value, time) else last k) := by
  refine ⟨h.keyed.set key _, fun k => ?_⟩
  rw [RemembersKey, Affinity.put, Table.get_set]
  by_cases hk : key = k
  · rw [if_pos hk, if_pos hk.symm]
    exact Or.inl rfl
  · rw [if_neg hk, if_neg (Ne.symm hk)]
    exact h.keys k

/-- A record that is too old to be remembered has no answer. -/
theorem answerOf_of_le {ttl retainedTtl : Nat} (httl : ttl ≤ retainedTtl) {record : V × Nat}
    (hold : retainedTtl ≤ now - record.2) : answerOf ttl retainedTtl (some record) now = .unknown := by
  have hlive : ¬ now - record.2 < ttl := by omega
  have hkept : ¬ now - record.2 < retainedTtl := by omega
  rw [answerOf, if_neg hlive, if_neg hkept]

/-- What is looked up again is what the last record says. -/
theorem Remembers.settle_eq (h : Remembers a now last) (httl : a.ttl ≤ a.retainedTtl) (key : String) :
    (a.settle now key).1 = answerOf a.ttl a.retainedTtl (last key) now := by
  rw [Affinity.settle]
  rcases h.keys key with hmap | ⟨hmap, record, hlast, hold⟩
  · rw [hmap]
    cases last key with
    | none => rfl
    | some record =>
      rw [Option.map_some, answerOf]
      by_cases hlive : now - record.2 < a.ttl
      · simp only [if_pos hlive]
      · by_cases hkept : now - record.2 < a.retainedTtl
        · simp only [if_neg hlive, if_pos hkept]
        · simp only [if_neg hlive, if_neg hkept]
  · rw [hmap, hlast, answerOf_of_le httl hold]

/-- An answer of the first look is the answer of the second. -/
theorem peek_eq {key : String} {found : Lookup V} (h : a.peek now key = some found) :
    found = (a.settle now key).1 := by
  rw [Affinity.peek] at h
  rw [Affinity.settle]
  cases hget : a.map.get key with
  | none =>
    rw [hget] at h
    exact (Option.some.inj h).symm
  | some e =>
    rw [hget] at h
    dsimp only at h
    by_cases hlive : now - e.stampedAt < a.ttl
    · rw [if_pos hlive] at h
      simp only [if_pos hlive]
      exact (Option.some.inj h).symm
    · rw [if_neg hlive] at h
      by_cases hkept : now - e.stampedAt < a.retainedTtl
      · rw [if_pos hkept] at h
        simp only [if_neg hlive, if_pos hkept]
        exact (Option.some.inj h).symm
      · rw [if_neg hkept] at h
        cases h

end

/-! ### Runs -/

/-- Every answer of the history is the reference's. -/
def Answers (ttl retainedTtl : Nat) (history : List (Event V)) : Prop :=
  ∀ before key found time after, history = before ++ .answered key found time :: after →
    found = reference ttl retainedTtl before key time

theorem answers_concat {ttl retainedTtl : Nat} {history : List (Event V)} {event : Event V}
    (h : Answers ttl retainedTtl history)
    (hevent : ∀ key found time, event = .answered key found time →
      found = reference ttl retainedTtl history key time) :
    Answers ttl retainedTtl (history ++ [event]) := by
  intro before key found time after hsplit
  rcases List.eq_nil_or_concat' after with rfl | ⟨after, last, rfl⟩
  · obtain ⟨rfl, heq⟩ := List.append_inj' hsplit rfl
    exact hevent key found time (List.singleton_inj.mp heq)
  · rw [← List.cons_append, ← List.append_assoc] at hsplit
    exact h before key found time after (List.append_inj' hsplit rfl).1

/-- The invariant of the interleavings. -/
structure Good (ttl retainedTtl : Nat) (w : World V) : Prop where
  remembers : Remembers w.affinity w.now (lastRecord w.history)
  ttl_eq : w.affinity.ttl = ttl
  retained_eq : w.affinity.retainedTtl = retainedTtl
  answers : Answers ttl retainedTtl w.history

/-- A part of a call keeps the invariant. -/
theorem Good.go {ttl retainedTtl : Nat} (httl : ttl ≤ retainedTtl) {w : World V}
    (h : Good ttl retainedTtl w) (thread : Nat) {reading : String → Nat} {after : Nat}
    (hreading : ∀ key, w.now ≤ reading key ∧ reading key ≤ after) :
    Good ttl retainedTtl (w.go thread reading after) := by
  have hle : w.now ≤ after := (hreading "").1.trans (hreading "").2
  have hwithin : w.affinity.ttl ≤ w.affinity.retainedTtl := by
    rw [h.ttl_eq, h.retained_eq]
    exact httl
  have hanswer : ∀ key, (w.affinity.settle (reading key) key).1 =
      reference ttl retainedTtl w.history key (reading key) := by
    intro key
    rw [(h.remembers.later (hreading key).1).settle_eq hwithin key, h.ttl_eq, h.retained_eq, reference]
  rw [World.go]
  split
  · exact ⟨h.remembers.later hle, h.ttl_eq, h.retained_eq, h.answers⟩
  · exact ⟨(h.remembers.later hle).of_map rfl rfl, h.ttl_eq, h.retained_eq, h.answers⟩
  · exact ⟨(h.remembers.later hle).of_map rfl rfl, h.ttl_eq, h.retained_eq, h.answers⟩
  · exact ⟨h.remembers.sweep hreading, h.ttl_eq, h.retained_eq, h.answers⟩
  · rename_i key _
    split
    · rename_i found hpeek
      refine ⟨?_, h.ttl_eq, h.retained_eq, answers_concat h.answers ?_⟩
      · rw [lastRecord_answered]
        exact h.remembers.later hle
      · intro key' found' time' heq
        obtain ⟨rfl, rfl, rfl⟩ := Event.answered.inj heq
        exact (peek_eq hpeek).trans (hanswer key)
    · exact ⟨h.remembers.later hle, h.ttl_eq, h.retained_eq, h.answers⟩
  · rename_i key value _
    refine ⟨?_, h.ttl_eq, h.retained_eq, answers_concat h.answers nofun⟩
    rw [lastRecord_recorded]
    exact (h.remembers.later hle).put key value (reading key)
  · rename_i key _
    have hsettle := ((h.remembers.later (hreading key).1).settle key).later (hreading key).2
    refine ⟨?_, ?_, ?_, answers_concat h.answers ?_⟩
    · rw [lastRecord_answered]
      exact hsettle
    · rw [← h.ttl_eq]
      exact settle_ttl w.affinity _ key
    · rw [← h.retained_eq]
      exact settle_retainedTtl w.affinity _ key
    · intro key' found' time' heq
      obtain ⟨rfl, rfl, rfl⟩ := Event.answered.inj heq
      exact hanswer key

/-- **Every answer is that of the last record of its key**, in every interleaving of calls. -/
theorem answers_reference (ttl retainedTtl gcEvery : Nat) (moves : List (Move V)) (w : World V)
    (h : Machine.exec step (initial ttl retainedTtl gcEvery) moves = some w) :
    Answers ttl (max ttl retainedTtl) w.history := by
  refine (Machine.exec_invariant (Good ttl (max ttl retainedTtl)) ?_ ?_ h).answers
  · exact ⟨⟨Table.keyed_nil, fun key => Or.inl rfl⟩, rfl, rfl, by
      intro before key found time after hsplit
      exact absurd hsplit (by simp [initial])⟩
  · intro w move w' hgood hstep
    cases move with
    | start thread call =>
      rw [step] at hstep
      split at hstep
      · obtain rfl := Option.some.inj hstep
        exact ⟨hgood.remembers, hgood.ttl_eq, hgood.retained_eq, hgood.answers⟩
      · cases hstep
    | go thread later pass =>
      obtain rfl := Option.some.inj hstep
      refine hgood.go (le_max_left _ _) thread fun key => ⟨by omega, by omega⟩

/-- A session is recorded between the two looks of a lookup that comes too late. -/
def lateMoves : List (Move String) :=
  [.start 0 (.record "s" "a"), .go 0 (fun _ => 0) 0, .go 0 (fun _ => 0) 0,
    .start 1 (.lookup "s"), .go 1 (fun _ => 0) 300, .go 1 (fun _ => 0) 0,
    .start 0 (.record "s" "b"), .go 0 (fun _ => 0) 0, .go 0 (fun _ => 0) 0, .go 1 (fun _ => 5) 9]

theorem answers_lateMoves :
    ∃ w, Machine.exec step (initial 100 300 1024) lateMoves = some w ∧
      w.history = [.recorded "s" "a" 0, .recorded "s" "b" 300, .answered "s" (.hit "b") 305] ∧
      Answers 100 (max 100 300) w.history :=
  ⟨_, rfl, rfl, answers_reference 100 300 1024 lateMoves _ rfl⟩

end AffinityRun

end Tokn.Accounts
