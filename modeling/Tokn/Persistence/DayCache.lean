import Tokn.Lib.Machine
import Tokn.Lib.Recency
import Tokn.Persistence.Requests

/-!
# The connections of the requests database

`RequestsDb` keeps the connections of the days that it used last. A connection remembers which file
was at its day's path when it was opened, so that a call notices when the file has been replaced or
removed since. Between two calls anything may happen to the files; a call itself may fail to open
its day, before or after the cache has made room for it.

**Theorem (`day_cache_sound`).** In every run, the map and the queue hold the same days, at most
`CACHE_CAP` of them and each once; the connection that a call returns is open on the file at its
path; and the days are the most recently used ones of those that neither `clear_request` nor a
failure has closed since.
-/

namespace Tokn.Persistence.DayCache

open Tokn.Recency (without kept recency askedSince Recent)

/-! ## Files -/

/-- A file, whatever its path. A handle keeps its file open, so that no other file becomes equal to it
meanwhile. -/
abbrev FileId := Nat

/-- The files by their paths. -/
abbrev Disk := Table String FileId

structure DayConnection where
  connection : FileId
  identity : FileId
  deriving DecidableEq

/-- What the file system and SQLite have to say to a call: whether they find, open and migrate the
file, and which one is created if there is none. -/
structure Answers where
  matchHandle : Bool := true
  connects : Bool := true
  migrates : Bool := true
  openHandle : Bool := true
  created : FileId
  deriving DecidableEq

def fromPath (found : Bool) (disk : Disk) (path : String) : Option FileId :=
  if found then disk.get path else none

/-- `open_day_db`: SQLite creates a file that does not exist, and a migration may fail. -/
def openDayDb (answers : Answers) (disk : Disk) (path : String) : Disk × Option FileId :=
  if answers.connects then
    let disk := disk.insertOrIgnore path answers.created
    (disk, if answers.migrates then disk.get path else none)
  else (disk, none)

namespace DayConnection

def «open» (answers : Answers) (disk : Disk) (path : String) : Disk × Option DayConnection :=
  match openDayDb answers disk path with
  | (disk, none) => (disk, none)
  | (disk, some connection) =>
    (disk, (fromPath answers.openHandle disk path).map fun identity => ⟨connection, identity⟩)

def matchesPath (c : DayConnection) (answers : Answers) (disk : Disk) (path : String) : Bool :=
  match fromPath answers.matchHandle disk path with
  | some identity => identity = c.identity
  | none => false

end DayConnection

/-! ## The database -/

structure RequestsDb where
  dir : String
  conns : Table String DayConnection := []
  order : List String := []
  requestMeta : Table String RequestMeta := []
  deriving DecidableEq

/-- What a call returns. -/
inductive Outcome where
  | connection (connection : FileId)
  | error
  | panic
  deriving DecidableEq

namespace RequestsDb

variable (db : RequestsDb)

/-- `self.dir.join(format!("{key}.db"))`. -/
def path (key : String) : String := db.dir ++ "/" ++ key ++ ".db"

/-- A day leaves the map and the queue. -/
def remove (key : String) : RequestsDb :=
  { db with conns := db.conns.erase key, order := without key db.order }

/-- The first part of `conn_for_day`: a connection whose file has changed is closed. -/
def removeStale (answers : Answers) (disk : Disk) (key : String) : RequestsDb :=
  if (db.conns.get key).any fun cached => !cached.matchesPath answers disk (db.path key) then
    db.remove key
  else db

/-- The second part: a full cache closes the day that was used least recently. -/
def evict : RequestsDb :=
  if cacheCap ≤ db.order.length then
    match db.order with
    | old :: order => { db with conns := db.conns.erase old, order := order }
    | [] => db
  else db

/-- The last part: the day is the one that was used last. -/
def touch (key : String) : RequestsDb := { db with order := without key db.order ++ [key] }

/-- `get_mut(key).expect("opened requests db")`. -/
def expectConn (key : String) : Outcome :=
  match db.conns.get key with
  | some c => .connection c.connection
  | none => .panic

/-- A day that is not in the map is opened. -/
def openDay (answers : Answers) (disk : Disk) (key : String) : RequestsDb × Disk × Outcome :=
  match DayConnection.open answers disk (db.path key) with
  | (disk, none) => (db, disk, .error)
  | (disk, some conn) =>
    let db := { db with conns := db.conns.set key conn }
    (db.touch key, disk, (db.touch key).expectConn key)

def connForDay (answers : Answers) (disk : Disk) (key : String) : RequestsDb × Disk × Outcome :=
  let db := db.removeStale answers disk key
  if db.conns.contains key then (db.touch key, disk, (db.touch key).expectConn key)
  else db.evict.openDay answers disk key

/-- `pin_request`, for the day of a time. -/
def pinRequest (dayKey : Int → String) (id : String) (ts : Int) : RequestsDb :=
  { db with requestMeta := db.requestMeta.set id ⟨dayKey ts, ts⟩ }

/-- `clear_request`, and the day that it closes. -/
def clearRequest (id : String) : RequestsDb × Option String :=
  match db.requestMeta.get id with
  | none => (db, none)
  | some info =>
    let db := { db with requestMeta := db.requestMeta.erase id }
    if db.requestMeta.any fun other => other.2.day = info.day then (db, none)
    else (db.remove info.day, some info.day)

end RequestsDb

/-! ## Runs -/

/-- What happens to a database and to its files. -/
inductive Event where
  | call (key : String) (answers : Answers)
  | files (disk : Disk)
  | pin (id : String) (ts : Int)
  | clear (id : String)
  deriving DecidableEq

structure State where
  db : RequestsDb
  disk : Disk
  deriving DecidableEq

/-- What an event is to the days. -/
def callEntry (key : String) : Outcome → Recency.Entry String
  | .connection _ => .used key
  | .error => .failed key
  | .panic => .failed key

/-- One event, with what it is to the days, and what a call returns. -/
def step (dayKey : Int → String) (s : State) :
    Event → State × Option (Recency.Entry String) × Option Outcome
  | .call key answers =>
    let (db, disk, outcome) := s.db.connForDay answers s.disk key
    (⟨db, disk⟩, some (callEntry key outcome), some outcome)
  | .files disk => ({ s with disk }, none, none)
  | .pin id ts => ({ s with db := s.db.pinRequest dayKey id ts }, none, none)
  | .clear id =>
    let (db, closed) := s.db.clearRequest id
    ({ s with db }, closed.map .closed, none)

/-- The entries of a run. -/
def entries (outputs : List (Option (Recency.Entry String) × Option Outcome)) :
    List (Recency.Entry String) :=
  outputs.filterMap Prod.fst

/-! ## The invariant -/

/-- The map and the queue hold the same days, each once, and every connection is open on the file
that it was opened for. -/
structure Cache (db : RequestsDb) : Prop where
  keyed : Table.Keyed db.conns
  keys : ∀ day, db.conns.contains day = true ↔ day ∈ db.order
  sameFile : ∀ day c, db.conns.get day = some c → c.connection = c.identity

theorem DayConnection.open_eq_some {answers : Answers} {disk disk' : Disk} {path : String}
    {c : DayConnection} (h : DayConnection.open answers disk path = (disk', some c)) :
    c.connection = c.identity ∧ disk'.get path = some c.connection := by
  rw [DayConnection.open, openDayDb] at h
  split_ifs at h
  · cases hget : (disk.insertOrIgnore path answers.created).get path with
    | none => simp [hget] at h
    | some file =>
      simp only [hget, Prod.mk.injEq, Option.map_eq_some_iff, fromPath, Option.ite_none_right_eq_some,
        Option.some.injEq] at h
      obtain ⟨rfl, identity, ⟨-, rfl⟩, rfl⟩ := h
      exact ⟨rfl, hget⟩
  · simp at h
  · simp at h

theorem DayConnection.matchesPath_iff {c : DayConnection} {answers : Answers} {disk : Disk}
    {path : String} : c.matchesPath answers disk path = true ↔
      answers.matchHandle = true ∧ disk.get path = some c.identity := by
  by_cases hfound : answers.matchHandle = true
  · cases h : disk.get path <;> simp [DayConnection.matchesPath, fromPath, hfound, h]
  · simp [DayConnection.matchesPath, fromPath, hfound]

namespace RequestsDb

variable {db : RequestsDb}

theorem evict_order :
    db.evict.order = if cacheCap ≤ db.order.length then db.order.drop 1 else db.order := by
  rw [evict]
  split_ifs
  · cases horder : db.order with
    | nil => simp [horder]
    | cons old order => rfl
  · rfl

@[simp] theorem path_evict (key : String) : db.evict.path key = db.path key := by
  rw [evict]
  split_ifs
  · cases db.order <;> rfl
  · rfl

end RequestsDb

namespace Cache

variable {db : RequestsDb}

theorem remove (h : Cache db) (key : String) : Cache (db.remove key) := by
  refine ⟨h.keyed.erase key, ?_, ?_⟩
  · intro day
    have hday := h.keys day
    by_cases heq : day = key
    · simp [RequestsDb.remove, BTreeMap.contains, BTreeMap.get_erase, heq]
    · simpa [RequestsDb.remove, BTreeMap.contains, BTreeMap.get_erase, heq] using hday
  · intro day c hc
    simp only [RequestsDb.remove, BTreeMap.get_erase] at hc
    split_ifs at hc
    exact h.sameFile day c hc

theorem touch (h : Cache db) {key : String} (hkey : db.conns.contains key = true) :
    Cache (db.touch key) := by
  refine ⟨h.keyed, ?_, h.sameFile⟩
  intro day
  by_cases heq : day = key
  · simpa [RequestsDb.touch, heq] using hkey
  · simpa [RequestsDb.touch, heq] using h.keys day

theorem evict (h : Cache db) (hnodup : db.order.Nodup) : Cache db.evict := by
  rw [RequestsDb.evict]
  split_ifs
  · cases horder : db.order with
    | nil => exact h
    | cons old order =>
      rw [horder] at hnodup
      have hold : order = without old db.order := by
        rw [horder]
        have hrest := Recency.without_of_notMem (List.nodup_cons.mp hnodup).1
        simpa [without] using hrest.symm
      rw [hold]
      exact h.remove old
  · exact h

/-- A day that is not in the cache is added to it. -/
theorem openDay (h : Cache db) {answers : Answers} {disk : Disk} {key : String}
    (hkey : key ∉ db.order) :
    Cache (db.openDay answers disk key).1 ∧
      ((db.openDay answers disk key).2.2 = .error ∧
          (db.openDay answers disk key).1.order = db.order ∨
        ∃ file, (db.openDay answers disk key).2.2 = .connection file ∧
          (db.openDay answers disk key).2.1.get (db.path key) = some file ∧
          (db.openDay answers disk key).1.order = db.order ++ [key]) := by
  rw [RequestsDb.openDay]
  rcases hopen : DayConnection.open answers disk (db.path key) with ⟨disk', _ | c⟩
  · exact ⟨h, Or.inl ⟨rfl, rfl⟩⟩
  · obtain ⟨hsame, hfile⟩ := DayConnection.open_eq_some hopen
    have hconns (day : String) :
        (db.conns.set key c).get day = if day = key then some c else db.conns.get day :=
      Table.get_set db.conns key day c
    refine ⟨⟨h.keyed.set key c, ?_, ?_⟩, Or.inr ⟨c.connection, ?_, hfile, ?_⟩⟩
    · intro day
      by_cases heq : day = key
      · simp [RequestsDb.touch, BTreeMap.contains, hconns, heq]
      · simpa [RequestsDb.touch, BTreeMap.contains, hconns, heq] using h.keys day
    · intro day c' hc'
      simp only [RequestsDb.touch, hconns] at hc'
      split_ifs at hc'
      · obtain rfl := Option.some.inj hc'
        exact hsame
      · exact h.sameFile day c' hc'
    · simp [RequestsDb.touch, RequestsDb.expectConn, hconns]
    · simp [RequestsDb.touch, Recency.without_of_notMem hkey]

/-- **What a call does to the cache.** -/
theorem connForDay (h : Cache db) (hnodup : db.order.Nodup) (hlen : db.order.length ≤ cacheCap)
    (answers : Answers) (disk : Disk) (key : String) :
    Cache (db.connForDay answers disk key).1 ∧
      ((db.connForDay answers disk key).2.2 = .error ∧
          (db.connForDay answers disk key).1.order = kept cacheCap key db.order ∨
        ∃ file, (db.connForDay answers disk key).2.2 = .connection file ∧
          (db.connForDay answers disk key).2.1.get (db.path key) = some file ∧
          (db.connForDay answers disk key).1.order = kept cacheCap key db.order ++ [key]) := by
  have hkeys := h.keys key
  rw [BTreeMap.contains] at hkeys
  cases hget : db.conns.get key with
  | none =>
    have hkey : key ∉ db.order := by
      rw [← hkeys, hget]
      simp
    have hevict : db.evict.order = kept cacheCap key db.order := by
      rw [RequestsDb.evict_order, kept]
      by_cases hroom : db.order.length < cacheCap
      · rw [if_neg (Nat.not_le.mpr hroom), if_pos (Or.inr hroom), Recency.without_of_notMem hkey]
      · rw [if_pos (Nat.not_lt.mp hroom), if_neg (not_or.mpr ⟨hkey, hroom⟩)]
    have hopen := @openDay _ (h.evict hnodup) answers disk key
      (by rw [hevict]; exact Recency.notMem_kept)
    rw [hevict, RequestsDb.path_evict] at hopen
    have hcall : db.connForDay answers disk key = db.evict.openDay answers disk key := by
      simp [RequestsDb.connForDay, RequestsDb.removeStale, BTreeMap.contains, hget]
    rw [hcall]
    exact hopen
  | some c =>
    have hkey : key ∈ db.order := by
      rw [← hkeys, hget]
      rfl
    have hkept : kept cacheCap key db.order = without key db.order := if_pos (Or.inl hkey)
    rw [hkept]
    by_cases hmatch : c.matchesPath answers disk (db.path key) = true
    · -- the connection is still open on the file at its path
      have hcontains : db.conns.contains key = true := by rw [BTreeMap.contains, hget]; rfl
      have hcall : db.connForDay answers disk key =
          (db.touch key, disk, .connection c.connection) := by
        simp [RequestsDb.connForDay, RequestsDb.removeStale, hget, hmatch, hcontains,
          RequestsDb.expectConn, RequestsDb.touch]
      rw [hcall]
      refine ⟨h.touch hcontains, Or.inr ⟨c.connection, rfl, ?_, rfl⟩⟩
      rw [h.sameFile key c hget]
      exact (DayConnection.matchesPath_iff.mp hmatch).2
    · -- the day makes room for itself
      have hcontains : (db.remove key).conns.contains key = false := by
        simp [RequestsDb.remove, BTreeMap.contains, BTreeMap.get_erase]
      have hshort : (db.remove key).order.length < cacheCap :=
        Nat.lt_of_lt_of_le (Recency.length_without_lt hkey) hlen
      have hevict : (db.remove key).evict = db.remove key := by
        rw [RequestsDb.evict, if_neg (Nat.not_le.mpr hshort)]
      have hcall : db.connForDay answers disk key =
          (db.remove key).openDay answers disk key := by
        simp [RequestsDb.connForDay, RequestsDb.removeStale, hget, hmatch, hcontains, hevict]
      rw [hcall]
      exact (h.remove key).openDay (by simp [RequestsDb.remove])

theorem perm (h : Cache db) (hnodup : db.order.Nodup) : (db.conns.map Prod.fst).Perm db.order := by
  rw [List.perm_ext_iff_of_nodup h.keyed hnodup]
  intro day
  rw [← h.keys day, BTreeMap.contains, Option.isSome_iff_ne_none, Ne, BTreeMap.get_eq_none_iff,
    not_not]

end Cache

/-! ## Every run -/

variable {dayKey : Int → String} {db : RequestsDb}

/-- The invariant of a run: the days are its most recently used ones. -/
structure Sound (s : State) (log : List (Recency.Entry String)) : Prop where
  cache : Cache s.db
  recent : Recent cacheCap log s.db.order

theorem sound_empty (dir : String) (disk : Disk) : Sound ⟨{ dir }, disk⟩ [] :=
  ⟨⟨Table.keyed_nil, by simp [BTreeMap.contains], by simp⟩, Recency.recent_nil cacheCap⟩

namespace Sound

variable {s : State} {log : List (Recency.Entry String)}

theorem call (h : Sound s log) (key : String) (answers : Answers) :
    Sound (step dayKey s (.call key answers)).1
        (log ++ (step dayKey s (.call key answers)).2.1.toList) ∧
      ((step dayKey s (.call key answers)).2.2 = some .error ∨
        ∃ file, (step dayKey s (.call key answers)).2.2 = some (.connection file) ∧
          (step dayKey s (.call key answers)).1.disk.get (s.db.path key) = some file) := by
  obtain ⟨hcache, hcall⟩ :=
    h.cache.connForDay h.recent.nodup h.recent.length_le answers s.disk key
  obtain ⟨houtcome, horder⟩ | ⟨file, houtcome, hfile, horder⟩ := hcall
  · refine ⟨⟨hcache, ?_⟩, Or.inl (congrArg some houtcome)⟩
    simp only [step, houtcome, callEntry, Option.toList_some, horder]
    exact h.recent.failed key
  · refine ⟨⟨hcache, ?_⟩, Or.inr ⟨file, congrArg some houtcome, hfile⟩⟩
    simp only [step, houtcome, callEntry, Option.toList_some, horder]
    exact h.recent.used (by decide) key

theorem clear (h : Sound s log) (id : String) :
    Sound (step dayKey s (.clear id)).1 (log ++ (step dayKey s (.clear id)).2.1.toList) := by
  cases hmeta : s.db.requestMeta.get id with
  | none =>
    have hclear : s.db.clearRequest id = (s.db, none) := by
      simp [RequestsDb.clearRequest, hmeta]
    simpa [step, hclear] using h
  | some info =>
    let db := { s.db with requestMeta := s.db.requestMeta.erase id }
    have hdb : Cache db := ⟨h.cache.keyed, h.cache.keys, h.cache.sameFile⟩
    by_cases hpinned : db.requestMeta.any (fun other => other.2.day = info.day) = true
    · have hclear : s.db.clearRequest id = (db, none) := by
        simp only [RequestsDb.clearRequest, hmeta]
        exact if_pos hpinned
      simp only [step, hclear, Option.map_none, Option.toList_none, List.append_nil]
      exact ⟨hdb, h.recent⟩
    · have hclear : s.db.clearRequest id = (db.remove info.day, some info.day) := by
        simp only [RequestsDb.clearRequest, hmeta]
        exact if_neg hpinned
      simp only [step, hclear, Option.map_some, Option.toList_some]
      exact ⟨hdb.remove info.day, h.recent.closed info.day⟩

theorem next (h : Sound s log) (dayKey : Int → String) (event : Event) :
    Sound (step dayKey s event).1 (log ++ (step dayKey s event).2.1.toList) := by
  cases event with
  | call key answers => exact (h.call key answers).1
  | files disk =>
    refine ⟨h.cache, ?_⟩
    simpa [step] using h.recent
  | pin id ts =>
    have hpin : Cache (s.db.pinRequest dayKey id ts) :=
      ⟨h.cache.keyed, h.cache.keys, h.cache.sameFile⟩
    refine ⟨hpin, ?_⟩
    simpa [step, RequestsDb.pinRequest] using h.recent
  | clear id => exact h.clear id

theorem run (h : Sound s log) (events : List Event) :
    Sound (Machine.run (step dayKey) s events).1
      (log ++ entries (Machine.run (step dayKey) s events).2) := by
  induction events generalizing s log with
  | nil => simpa [entries] using h
  | cons event events ih =>
    have hrest := ih (h.next dayKey event)
    rw [List.append_assoc] at hrest
    rw [Machine.run_cons]
    have hentries : entries ((step dayKey s event).2 ::
        (Machine.run (step dayKey) (step dayKey s event).1 events).2) =
        (step dayKey s event).2.1.toList ++
          entries (Machine.run (step dayKey) (step dayKey s event).1 events).2 := by
      rw [entries, List.filterMap_cons]
      cases (step dayKey s event).2.1 <;> rfl
    rw [hentries]
    exact hrest

end Sound

/-- **A cache of the days that were used last.** -/
theorem day_cache_sound (dayKey : Int → String) (dir : String) (disk : Disk)
    (events : List Event) :
    let run := Machine.run (step dayKey) ⟨{ dir }, disk⟩ events
    let log := entries run.2
    (run.1.db.conns.map Prod.fst).Perm run.1.db.order ∧ run.1.db.order.Nodup ∧
      run.1.db.order.length ≤ cacheCap ∧
      (∀ key answers,
        (step dayKey run.1 (.call key answers)).2.2 = some .error ∨
          ∃ file, (step dayKey run.1 (.call key answers)).2.2 = some (.connection file) ∧
            (step dayKey run.1 (.call key answers)).1.disk.get (run.1.db.path key) =
              some file) ∧
      run.1.db.order <:+ recency log ∧
      ∀ day ∈ recency log, day ∉ run.1.db.order → cacheCap ≤ (askedSince day log).card := by
  intro run log
  have hrun := @Sound.run dayKey _ _ (sound_empty dir disk) events
  have h : Sound run.1 log := by simpa using hrun
  exact ⟨h.cache.perm h.recent.nodup, h.recent.nodup, h.recent.length_le,
    fun key answers => (h.call key answers).2, h.recent.suffix, h.recent.missing⟩

/-- Three days are used, and a request that is pinned to the last one ends. -/
def mayRun : List Event :=
  [.call "2026-05-17" { created := 1 }, .call "2026-05-18" { created := 2 },
    .call "2026-05-19" { created := 3 }, .pin "req-1" 1779148800, .clear "req-1"]

/-- A request that ends closes its day, which was used last, and two earlier ones are kept. -/
theorem clear_request_closes_latest :
    let run := Machine.run (step fun _ => "2026-05-19") ⟨{ dir := "requests" }, []⟩ mayRun
    run.1.db.order = ["2026-05-17", "2026-05-18"] ∧
      run.2.filterMap Prod.fst =
        [.used "2026-05-17", .used "2026-05-18", .used "2026-05-19", .closed "2026-05-19"] ∧
      ¬run.1.db.order <:+ ["2026-05-17", "2026-05-18", "2026-05-19"] := by
  decide +kernel

/-- Where every call opens its day, the queue is the one that the handler is modelled with. -/
theorem order_connForDay (h : Cache db) (hnodup : db.order.Nodup)
    (hlen : db.order.length ≤ cacheCap) {handled : Persistence.RequestsDb}
    (horder : handled.order = db.order) {answers : Answers} {disk : Disk} {key : String}
    (hopens : (db.connForDay answers disk key).2.2 ≠ .error) :
    (handled.connForDay key).order = (db.connForDay answers disk key).1.order := by
  obtain ⟨-, ⟨herror, -⟩ | ⟨file, -, -, hcall⟩⟩ := h.connForDay hnodup hlen answers disk key
  · exact absurd herror hopens
  · rw [hcall, Persistence.RequestsDb.connForDay, horder]
    by_cases hroom : key ∈ db.order ∨ db.order.length < cacheCap
    · simp [kept, without, hroom]
    · have hkey : key ∉ db.order.drop 1 := by
        rw [not_or] at hroom
        exact fun hmem => hroom.1 (List.mem_of_mem_drop hmem)
      have hfilter := Recency.without_of_notMem hkey
      rw [without] at hfilter
      simp only [kept, if_neg hroom, hfilter]

end Tokn.Persistence.DayCache
