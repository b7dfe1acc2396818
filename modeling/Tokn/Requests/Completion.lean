import Tokn.Requests.Attempt

/-!
# How often an attempt completes

The runner emits `Completed` for an attempt that it ends itself, and leaves it to the accumulator
when it hands the body over as a stream. The accumulator always emits one.

**Theorem (`completes_once_iff`).** Every attempt emits `Started` first and once. In a run whose
accumulators have all ended, every attempt emits `Completed` once exactly when an accumulator is
spawned for the attempt whose body is handed over as a stream, and for no other.
-/

namespace Tokn.Requests

/-! ## What a state owes -/

namespace State

variable (s : State)

/-- An attempt that has begun. -/
def Started (attempt : Nat) : Prop := s.phase ≠ .idle ∧ attempt ≤ s.attempt

/-- Whether the accumulator of an attempt has emitted the end of it. -/
def ended (attempt : Nat) : Bool := (s.accum attempt).any AccumTask.ended

end State

/-- How often the runner has emitted `Completed` for its present attempt. -/
def Phase.concluded : Phase → Nat
  | .sleeping | .returned (.ok (.buffered _)) | .returned (.err _) | .returned .dropped => 1
  | .idle | .running _ | .streaming | .reading | .buffering | .returned (.ok .stream) => 0

/-- How often the runner has emitted `Completed` for an attempt. -/
def State.concluded (s : State) (attempt : Nat) : Nat :=
  if attempt < s.attempt then 1 else s.phase.concluded

/-- `Started` comes first and once, and `Completed` comes a number of times. -/
def Tally (endpoint : RequestEndpoint) (events : List Event) (attempt n : Nat) : Prop :=
  ∃ rest, stageEvents attempt events = .started endpoint :: rest ∧
    rest.countP StageEvent.isStarted = 0 ∧ rest.countP StageEvent.isCompleted = n

/-- Where the attempt of the runner has no accumulator. -/
def Phase.early : Phase → Bool
  | .running _ | .reading | .buffering => true
  | .idle | .streaming | .sleeping | .returned _ => false

/-- The invariant of a run. -/
structure Ledger (p : Pipeline) (s : State) : Prop where
  fresh : ∀ a, ¬ s.Started a → stageEvents a s.events = [] ∧ s.accum a = none
  tally : ∀ a, s.Started a →
    Tally p.requestEndpoint s.events a (s.concluded a + (s.ended a).toNat)
  early : s.phase.early = true → s.accum s.attempt = none
  streaming : s.phase = .streaming → (s.accum s.attempt).isSome = true

/-! ## The operations -/

variable {p : Pipeline} {s : State}

def stagesOf (payloads : List Payload) : List StageEvent := payloads.filterMap Payload.stage?

theorem stageEvents_emit (s : State) (attempt : Nat) (payloads : List Payload) (a : Nat) :
    stageEvents a (s.emit attempt payloads).events =
      stageEvents a s.events ++ if attempt = a then stagesOf payloads else [] := by
  rw [State.emit, stageEvents_append, stageEvents_map]
  rfl

variable {payloads : List Payload} {task : AccumTask} {attempt : Nat} {s' : State}

theorem Tally.emit {a n : Nat} (h : Tally p.requestEndpoint s.events a n) (attempt : Nat)
    (hstarted : (stagesOf payloads).countP StageEvent.isStarted = 0) :
    Tally p.requestEndpoint (s.emit attempt payloads).events a
      (n + if attempt = a then (stagesOf payloads).countP StageEvent.isCompleted else 0) := by
  obtain ⟨rest, hrest, hnone, hcount⟩ := h
  rw [Tally, stageEvents_emit]
  refine ⟨rest ++ if attempt = a then stagesOf payloads else [], ?_, ?_, ?_⟩
  · rw [hrest, List.cons_append]
  · rw [List.countP_append, hnone]
    split_ifs
    · rw [hstarted]
    · rfl
  · rw [List.countP_append, hcount]
    split_ifs <;> rfl

@[simp] theorem State.accum_emit (s : State) (attempt : Nat) (payloads : List Payload) (a : Nat) :
    (s.emit attempt payloads).accum a = s.accum a := rfl

@[simp] theorem State.accum_setPhase (s : State) (phase : Phase) (a : Nat) :
    (s.setPhase phase).accum a = s.accum a := rfl

theorem State.accum_setAccum (s : State) (attempt : Nat) (task : AccumTask) (a : Nat) :
    (s.setAccum attempt task).accum a = if a = attempt then some task else s.accum a :=
  BTreeMap.get_insert _ _ _ _

/-- Emitting for the present attempt and moving on. -/
theorem Ledger.move (h : Ledger p s) (hidle : s.phase ≠ .idle) {phase : Phase}
    (hphase : phase ≠ .idle) (hstarted : (stagesOf payloads).countP StageEvent.isStarted = 0)
    (hcompleted : s.phase.concluded + (stagesOf payloads).countP StageEvent.isCompleted =
      phase.concluded) (hearly : phase.early = true → s.accum s.attempt = none)
    (hstreaming : phase = .streaming → (s.accum s.attempt).isSome = true) :
    Ledger p ((s.emit s.attempt payloads).setPhase phase) := by
  refine ⟨fun a ha => ?_, fun a ha => ?_, hearly, hstreaming⟩
  · have hnot : ¬ s.Started a := fun hs => ha ⟨hphase, hs.2⟩
    have hne : ¬ s.attempt = a := by
      rintro rfl
      exact hnot ⟨hidle, le_rfl⟩
    obtain ⟨hevents, haccum⟩ := h.fresh a hnot
    refine ⟨?_, haccum⟩
    show stageEvents a (s.emit s.attempt payloads).events = []
    rw [stageEvents_emit, hevents, if_neg hne]
    rfl
  · have htally := (h.tally a ⟨hidle, ha.2⟩).emit s.attempt hstarted
    have hcount : s.concluded a + (s.ended a).toNat +
        (if s.attempt = a then (stagesOf payloads).countP StageEvent.isCompleted else 0) =
          ((s.emit s.attempt payloads).setPhase phase).concluded a + (s.ended a).toNat := by
      show (if a < s.attempt then 1 else s.phase.concluded) + (s.ended a).toNat +
          (if s.attempt = a then (stagesOf payloads).countP StageEvent.isCompleted else 0) =
        (if a < s.attempt then 1 else phase.concluded) + (s.ended a).toNat
      have hle : a ≤ s.attempt := ha.2
      by_cases hlt : a < s.attempt
      · rw [if_pos hlt, if_pos hlt, if_neg (by omega)]
        omega
      · rw [if_neg hlt, if_neg hlt, if_pos (by omega)]
        omega
    rw [hcount] at htally
    exact htally

/-- The next attempt begins. -/
theorem Ledger.begin (h : Ledger p s) (n : Nat) (hfresh : ∀ a, n ≤ a → ¬ s.Started a)
    (hstarted : ∀ a, a < n → s.Started a ∧ s.concluded a = 1) : Ledger p (p.begin s n) := by
  refine ⟨fun a ha => ?_, fun a ha => ?_, fun _ => (h.fresh n (hfresh n le_rfl)).2,
    fun hphase => by cases hphase⟩
  · have hlt : n < a := by
      by_contra hle
      exact ha ⟨by simp [Pipeline.begin, State.emit], by simpa [Pipeline.begin, State.emit] using hle⟩
    obtain ⟨hevents, haccum⟩ := h.fresh a (hfresh a hlt.le)
    refine ⟨?_, haccum⟩
    show stageEvents a (State.emit _ n _).events = []
    rw [stageEvents_emit, if_neg hlt.ne, List.append_nil]
    exact hevents
  · have hle : a ≤ n := ha.2
    show Tally p.requestEndpoint (State.emit _ n _).events a
      ((if a < n then 1 else 0) + (s.ended a).toNat)
    by_cases hlt : a < n
    · obtain ⟨hs, hone⟩ := hstarted a hlt
      have htally := h.tally a hs
      rw [hone] at htally
      rw [if_pos hlt]
      obtain ⟨rest, hrest, hcounts⟩ := htally
      refine ⟨rest, ?_, hcounts⟩
      rw [stageEvents_emit, if_neg (by omega), List.append_nil]
      exact hrest
    · obtain rfl : a = n := by omega
      obtain ⟨hevents, haccum⟩ := h.fresh a (hfresh a le_rfl)
      have hended : s.ended a = false := by rw [State.ended, haccum]; rfl
      rw [if_neg hlt, hended]
      refine ⟨[], ?_, rfl, rfl⟩
      rw [stageEvents_emit, if_pos rfl]
      show stageEvents a s.events ++ _ = _
      rw [hevents]
      rfl

/-- The task of an accumulator does something, and emits the end of the attempt if it ends. -/
theorem Ledger.setAccum (h : Ledger p s) {task' : AccumTask} (htask : s.accum attempt = some task)
    (hstarted : (stagesOf payloads).countP StageEvent.isStarted = 0)
    (hcompleted : task.ended.toNat + (stagesOf payloads).countP StageEvent.isCompleted =
      task'.ended.toNat) : Ledger p ((s.setAccum attempt task').emit attempt payloads) := by
  have hspawned : s.Started attempt := by
    by_contra hnot
    rw [(h.fresh attempt hnot).2] at htask
    cases htask
  have hother {a : Nat} (ha : a ≠ attempt) : (s.setAccum attempt task').accum a = s.accum a := by
    rw [State.accum_setAccum, if_neg ha]
  have hself : (s.setAccum attempt task').accum attempt = some task' := by
    rw [State.accum_setAccum, if_pos rfl]
  refine ⟨fun a ha => ?_, fun a ha => ?_, fun hearly => ?_, fun hstreaming => ?_⟩
  · have hne : a ≠ attempt := by
      rintro rfl
      exact ha hspawned
    obtain ⟨hevents, haccum⟩ := h.fresh a ha
    refine ⟨?_, (hother hne).trans haccum⟩
    rw [stageEvents_emit, if_neg hne.symm, List.append_nil]
    exact hevents
  · have htally := (h.tally a ha).emit attempt hstarted
    have hcount : s.concluded a + (s.ended a).toNat +
        (if attempt = a then (stagesOf payloads).countP StageEvent.isCompleted else 0) =
          s.concluded a + ((s.setAccum attempt task').ended a).toNat := by
      by_cases hne : a = attempt
      · subst hne
        have hended : s.ended a = task.ended := by rw [State.ended, htask]; rfl
        have hended' : (s.setAccum a task').ended a = task'.ended := by
          rw [State.ended, hself]; rfl
        rw [if_pos rfl, hended, hended']
        omega
      · rw [if_neg (Ne.symm hne), State.ended, State.ended, hother hne]
        rfl
    rw [hcount] at htally
    exact htally
  · have hnone : s.accum s.attempt = none := h.early hearly
    have hne : s.attempt ≠ attempt := by
      rintro rfl
      rw [hnone] at htask
      cases htask
    exact (hother hne).trans hnone
  · have hsome : (s.accum s.attempt).isSome = true := h.streaming hstreaming
    show ((s.setAccum attempt task').accum s.attempt).isSome = true
    rw [State.accum_setAccum]
    split_ifs
    · rfl
    · exact hsome

/-- The task of an accumulator goes on. -/
theorem Ledger.keepAccum (h : Ledger p s) {task' : AccumTask} (htask : s.accum attempt = some task)
    (hended : task.ended = task'.ended) : Ledger p (s.setAccum attempt task') := by
  have hset : Ledger p ((s.setAccum attempt task').emit attempt []) :=
    h.setAccum htask rfl (by rw [hended]; rfl)
  simpa [State.emit] using hset

/-- Something that is not a stage event is emitted. -/
theorem Ledger.emit (h : Ledger p s) (attempt : Nat) (hnone : stagesOf payloads = []) :
    Ledger p (s.emit attempt payloads) := by
  have hevents (a : Nat) : stageEvents a (s.emit attempt payloads).events =
      stageEvents a s.events := by
    rw [stageEvents_emit, hnone, ite_self, List.append_nil]
  refine ⟨fun a ha => ?_, fun a ha => ?_, h.early, h.streaming⟩
  · rw [hevents]
    exact h.fresh a ha
  · obtain ⟨rest, hrest, hcounts⟩ := h.tally a ha
    exact ⟨rest, (hevents a).trans hrest, hcounts⟩

/-- An accumulator is spawned for the present attempt. -/
theorem Ledger.spawn (h : Ledger p s) (hidle : s.phase ≠ .idle) (hnone : s.accum s.attempt = none)
    (hconcluded : s.phase.concluded = 0) :
    Ledger p ((s.setAccum s.attempt {}).setPhase .streaming) := by
  have hother {a : Nat} (ha : a ≠ s.attempt) : (s.setAccum s.attempt {}).accum a = s.accum a := by
    rw [State.accum_setAccum, if_neg ha]
  refine ⟨fun a ha => ?_, fun a ha => ?_, fun hearly => ?_, fun _ => ?_⟩
  · have hnot : ¬ s.Started a := fun hs => ha ⟨by simp [State.setPhase], hs.2⟩
    have hne : a ≠ s.attempt := by
      rintro rfl
      exact hnot ⟨hidle, le_rfl⟩
    obtain ⟨hevents, haccum⟩ := h.fresh a hnot
    exact ⟨hevents, (hother hne).trans haccum⟩
  · have htally := h.tally a ⟨hidle, ha.2⟩
    have hended : (s.setAccum s.attempt {}).ended a = s.ended a := by
      by_cases hne : a = s.attempt
      · rw [State.ended, State.ended, hne, hnone, State.accum_setAccum, if_pos rfl]
        rfl
      · rw [State.ended, State.ended, hother hne]
    have hsame : s.concluded a = if a < s.attempt then 1 else Phase.streaming.concluded := by
      rw [State.concluded, hconcluded]
      rfl
    rw [hsame, ← hended] at htally
    exact htally
  · cases hearly
  · show ((s.setAccum s.attempt {}).accum s.attempt).isSome = true
    rw [State.accum_setAccum, if_pos rfl]
    rfl

/-! ## Steps -/

theorem Ledger.init (p : Pipeline) : Ledger p {} where
  fresh _ _ := ⟨rfl, rfl⟩
  tally _ ha := absurd rfl ha.1
  early h := by cases h
  streaming h := by cases h

/-- The stage that is awaited fails, and the run goes on or ends. -/
theorem Ledger.failed (h : Ledger p s) (hguarded : s.phase.guarded.isSome = true)
    (err : PipelineError) :
    Ledger p (p.retry (s.emit s.attempt (Pipeline.failPayloads s.attempt err)) err) := by
  have hidle : s.phase ≠ .idle := by
    intro hphase
    simp [hphase, Phase.guarded] at hguarded
  have hzero : s.phase.concluded = 0 := by
    cases hphase : s.phase <;> simp_all [Phase.guarded, Phase.concluded]
  have hmove {phase : Phase} (hphase : phase ≠ .idle) (hone : phase.concluded = 1)
      (hearly : phase.early = false) (hstreaming : phase ≠ .streaming) :
      Ledger p ((s.emit s.attempt (Pipeline.failPayloads s.attempt err)).setPhase phase) :=
    h.move hidle hphase rfl (by rw [hzero, hone]; rfl) (fun h => by rw [hearly] at h; cases h)
      (fun h => absurd h hstreaming)
  unfold Pipeline.retry
  split_ifs
  · have hsleep : Ledger p
        ((s.emit s.attempt (Pipeline.failPayloads s.attempt err)).setPhase .sleeping) :=
      hmove (by simp) rfl rfl (by simp)
    refine hsleep.begin (s.attempt + 1) (fun a ha hs => ?_) fun a ha =>
      ⟨⟨by simp [State.setPhase], ?_⟩, ?_⟩
    · have hle : a ≤ s.attempt := hs.2
      omega
    · show a ≤ s.attempt
      omega
    · rw [State.concluded]
      split_ifs <;> rfl
  · exact hmove (by simp) rfl rfl (by simp)
  · exact hmove (by simp) rfl rfl (by simp)

theorem stagesOf_finalPayloads (acc : Accum) (fromStr : String → Option Value)
    (endpoint : RequestEndpoint) (attempt : Nat) :
    (stagesOf (acc.finalPayloads fromStr endpoint attempt)).countP StageEvent.isStarted = 0 ∧
      (stagesOf (acc.finalPayloads fromStr endpoint attempt)).countP StageEvent.isCompleted = 1 := by
  unfold Accum.finalPayloads
  cases acc.streamError fromStr endpoint <;> exact ⟨rfl, rfl⟩

theorem Ledger.receive (h : Ledger p s) (htask : s.accum attempt = some task)
    (hstep : p.receive s attempt task = some s') : Ledger p s' := by
  unfold Pipeline.receive at hstep
  split_ifs at hstep with hended
  have hnot : task.ended = false := by simpa using hended
  split at hstep
  · cases hstep
  · obtain rfl := Option.some.inj hstep
    obtain ⟨hstarted, hcompleted⟩ :=
      stagesOf_finalPayloads task.acc p.fromStr p.requestEndpoint attempt
    exact h.setAccum htask hstarted (by rw [hcompleted, hnot]; rfl)
  · obtain rfl := Option.some.inj hstep
    exact h.keepAccum htask rfl

/-- **One step.** -/
theorem Ledger.step (h : Ledger p s) {action : Action} (hstep : p.step s action = some s') :
    Ledger p s' := by
  cases action with
  | start =>
    simp only [Pipeline.step] at hstep
    split_ifs at hstep with hphase
    obtain rfl := Option.some.inj hstep
    exact h.begin 0 (fun a _ hs => hs.1 hphase) fun a ha => by omega
  | stageOk =>
    simp only [Pipeline.step] at hstep
    split at hstep
    · rename_i stage hphase
      obtain ⟨next, -, rfl⟩ := Option.map_eq_some_iff.mp hstep
      exact h.move (by simp [hphase]) (by simp) rfl (by rw [hphase]; rfl)
        (fun _ => h.early (by rw [hphase]; rfl)) (by simp)
    · cases hstep
  | sent isSse =>
    simp only [Pipeline.step] at hstep
    split_ifs at hstep with hphase hsse
    · obtain rfl := Option.some.inj hstep
      have hmove : Ledger p ((s.emit s.attempt [.stage (.output .send)]).setPhase
          (.running .send)) :=
        h.move (by simp [hphase]) (by simp) rfl (by rw [hphase]; rfl)
          (fun _ => h.early (by rw [hphase]; rfl)) (by simp)
      exact hmove.spawn (by simp [State.setPhase]) (h.early (by rw [hphase]; rfl)) rfl
    · obtain rfl := Option.some.inj hstep
      exact h.move (by simp [hphase]) (by simp) rfl (by rw [hphase]; rfl)
        (fun _ => h.early (by rw [hphase]; rfl)) (by simp)
  | bodyRead bytes =>
    simp only [Pipeline.step] at hstep
    split_ifs at hstep with hphase
    obtain rfl := Option.some.inj hstep
    exact h.move (by simp [hphase]) (by simp) rfl (by rw [hphase]; rfl)
      (fun _ => h.early (by rw [hphase]; rfl)) (by simp)
  | converted body =>
    simp only [Pipeline.step] at hstep
    split_ifs at hstep with hphase
    obtain rfl := Option.some.inj hstep
    have hzero : s.phase.concluded = 0 := by rcases hphase with hp | hp <;> rw [hp] <;> rfl
    have hidle : s.phase ≠ .idle := by rcases hphase with hp | hp <;> simp [hp]
    refine h.move hidle (by simp) ?_ ?_ (fun h => by cases h) (by simp)
    · cases body <;> rfl
    · rw [hzero]
      cases body <;> rfl
  | failed err =>
    simp only [Pipeline.step] at hstep
    split_ifs at hstep with hguarded
    obtain rfl := Option.some.inj hstep
    exact h.failed hguarded err
  | wake =>
    simp only [Pipeline.step] at hstep
    split_ifs at hstep with hphase
    obtain rfl := Option.some.inj hstep
    refine h.begin (s.attempt + 1) (fun a ha hs => ?_) fun a ha => ⟨⟨by simp [hphase], by omega⟩, ?_⟩
    · have hle : a ≤ s.attempt := hs.2
      omega
    · rw [State.concluded, hphase]
      split_ifs <;> rfl
  | dropped =>
    simp only [Pipeline.step] at hstep
    split at hstep
    · rename_i stage hguarded
      obtain rfl := Option.some.inj hstep
      have hidle : s.phase ≠ .idle := by
        intro hphase
        simp [hphase, Phase.guarded] at hguarded
      have hzero : s.phase.concluded = 0 := by
        cases hphase : s.phase <;> simp_all [Phase.guarded, Phase.concluded]
      exact h.move hidle (by simp) rfl (by rw [hzero]; rfl) (fun h => by cases h) (by simp)
    · split_ifs at hstep with hphase
      obtain rfl := Option.some.inj hstep
      have hmove : Ledger p ((s.emit s.attempt []).setPhase (.returned .dropped)) :=
        h.move (by simp [hphase]) (by simp) rfl (by rw [hphase]; rfl) (fun h => by cases h)
          (by simp)
      simpa [State.emit] using hmove
  | note attempt msg =>
    simp only [Pipeline.step] at hstep
    split_ifs at hstep with hmsg
    obtain ⟨task, htask, rfl⟩ := Option.map_eq_some_iff.mp hstep
    exact h.keepAccum htask rfl
  | finish attempt =>
    simp only [Pipeline.step] at hstep
    split_ifs at hstep with hheld
    obtain ⟨task, htask, hfinish⟩ := Option.bind_eq_some_iff.mp hstep
    split_ifs at hfinish with hfinished
    obtain rfl := Option.some.inj hfinish
    exact h.keepAccum htask rfl
  | receive attempt =>
    obtain ⟨task, htask, hreceive⟩ := Option.bind_eq_some_iff.mp hstep
    exact h.receive htask hreceive
  | tick attempt =>
    obtain ⟨task, htask, htick⟩ := Option.bind_eq_some_iff.mp hstep
    split_ifs at htick with hended
    obtain rfl := Option.some.inj htick
    exact h.emit attempt rfl

/-! ## The hand-off -/

/-- Where the end of the attempt is left to an accumulator. -/
def Phase.handing : Phase → Bool
  | .streaming | .returned (.ok .stream) => true
  | .idle | .running _ | .reading | .buffering | .sleeping | .returned (.ok (.buffered _))
  | .returned (.err _) | .returned .dropped => false

/-- An accumulator has been spawned for the attempt that leaves its end to one, and for no other. -/
def Balanced (s : State) : Prop :=
  ∀ a, (s.accum a).isSome = true ↔ a = s.attempt ∧ s.phase.handing = true

/-- The condition on a step: `convert_stream` is awaited to its end and returns a stream, and
`convert_buffered` does not return one. -/
def HandsOver (s : State) (action : Action) : Prop :=
  match s.phase, action with
  | .streaming, .converted (.buffered _) | .streaming, .failed _ | .streaming, .dropped
  | .buffering, .converted .stream => False
  | _, _ => True

theorem Phase.concluded_le (phase : Phase) : phase.concluded ≤ 1 := by
  rcases phase with _ | _ | _ | _ | _ | _ | ((_ | _) | _ | _) <;> simp [Phase.concluded]

theorem Phase.concluded_of_handing {phase : Phase} (h : phase.handing = true) :
    phase.concluded = 0 := by
  rcases phase with _ | _ | _ | _ | _ | _ | ((_ | _) | _ | _) <;> first | rfl | cases h

theorem Phase.concluded_returned (outcome : Outcome) :
    (Phase.returned outcome).concluded = if (Phase.returned outcome).handing then 0 else 1 := by
  rcases outcome with (_ | _) | _ | _ <;> rfl

theorem balanced_iff_none (h : s.phase.handing = false) :
    Balanced s ↔ ∀ a, s.accum a = none := by
  simp [Balanced, h]

/-- Moving on without a hand-off. -/
theorem balanced_congr {s : State} (haccum : s'.accums = s.accums)
    (hattempt : s'.attempt = s.attempt) (hphase : s'.phase.handing = s.phase.handing) :
    Balanced s' ↔ Balanced s := by
  simp only [Balanced, State.accum, haccum, hattempt, hphase]

/-- The task of an accumulator plays no part. -/
theorem balanced_setAccum {task' : AccumTask} (htask : s.accum attempt = some task) :
    Balanced (s.setAccum attempt task') ↔ Balanced s := by
  have hsome (a : Nat) : ((s.setAccum attempt task').accum a).isSome = (s.accum a).isSome := by
    rw [State.accum_setAccum]
    split_ifs with ha
    · rw [ha, htask]
      rfl
    · rfl
  simp only [Balanced, hsome]
  exact Iff.rfl

/-- An attempt that ends otherwise than by a hand-off has no accumulator. -/
theorem balanced_of_ended {s : State} (haccum : s'.accums = s.accums)
    (hbefore : s.phase.early = true ∨ s.phase = .sleeping) (hafter : s'.phase.handing = false) :
    Balanced s' ↔ Balanced s := by
  have hhanding : s.phase.handing = false := by
    rcases hbefore with h | h
    · cases hphase : s.phase <;> simp_all [Phase.early, Phase.handing]
    · rw [h]
      rfl
  rw [balanced_iff_none hhanding, balanced_iff_none hafter]
  simp only [State.accum, haccum]

theorem not_balanced_of_spawned {s : State} (h : Ledger p s) (hphase : s.phase = .streaming)
    (haccum : s'.accums = s.accums) (hafter : s'.phase.handing = false) : ¬ Balanced s' := by
  rw [balanced_iff_none hafter]
  intro hnone
  have hsome := h.streaming hphase
  rw [State.accum, ← haccum, show s'.accums.get s.attempt = none from hnone _] at hsome
  cases hsome

theorem balanced_spawn (hnone : s.accum s.attempt = none) :
    Balanced ((s.setAccum s.attempt {}).setPhase .streaming) ↔ ∀ a, s.accum a = none := by
  have haccum (a : Nat) : ((s.setAccum s.attempt {}).setPhase .streaming).accum a =
      if a = s.attempt then some {} else s.accum a := State.accum_setAccum _ _ _ _
  constructor
  · intro hb a
    by_cases ha : a = s.attempt
    · rw [ha, hnone]
    · have hmp := (hb a).mp
      rw [haccum, if_neg ha] at hmp
      rw [← Option.not_isSome_iff_eq_none]
      exact fun hsome => ha (hmp hsome).1
  · intro hall a
    rw [haccum]
    by_cases ha : a = s.attempt
    · rw [if_pos ha]
      exact iff_of_true rfl ⟨ha, rfl⟩
    · rw [if_neg ha, hall a]
      exact iff_of_false (by simp) fun hb => ha hb.1

theorem accums_retry (s : State) (err : PipelineError) : (p.retry s err).accums = s.accums := by
  unfold Pipeline.retry
  split_ifs <;> rfl

theorem handing_retry (s : State) (err : PipelineError) :
    (p.retry s err).phase.handing = false := by
  unfold Pipeline.retry
  split_ifs <;> rfl

/-- **One step.** The balance is kept exactly by the steps that meet the condition. -/
theorem balanced_step (h : Ledger p s) {action : Action} (hstep : p.step s action = some s') :
    Balanced s' ↔ Balanced s ∧ HandsOver s action := by
  cases action with
  | start =>
    simp only [Pipeline.step] at hstep
    split_ifs at hstep with hphase
    obtain rfl := Option.some.inj hstep
    have hnone (a : Nat) : s.accum a = none := (h.fresh a fun hs => hs.1 hphase).2
    have hbalanced : Balanced s := (balanced_iff_none (by rw [hphase]; rfl)).mpr hnone
    refine iff_of_true ((balanced_iff_none rfl).mpr hnone) ⟨hbalanced, ?_⟩
    simp [HandsOver, hphase]
  | stageOk =>
    simp only [Pipeline.step] at hstep
    split at hstep
    · rename_i stage hphase
      obtain ⟨next, -, rfl⟩ := Option.map_eq_some_iff.mp hstep
      rw [and_iff_left (by simp [HandsOver, hphase])]
      exact balanced_congr rfl rfl (by rw [hphase]; rfl)
    · cases hstep
  | sent isSse =>
    simp only [Pipeline.step] at hstep
    split_ifs at hstep with hphase hsse
    · obtain rfl := Option.some.inj hstep
      rw [and_iff_left (by simp [HandsOver, hphase]),
        balanced_iff_none (s := s) (by rw [hphase]; rfl)]
      exact balanced_spawn (s := s.emit s.attempt [.stage (.output .send)])
        (h.early (by rw [hphase]; rfl))
    · obtain rfl := Option.some.inj hstep
      rw [and_iff_left (by simp [HandsOver, hphase])]
      exact balanced_congr rfl rfl (by rw [hphase]; rfl)
  | bodyRead bytes =>
    simp only [Pipeline.step] at hstep
    split_ifs at hstep with hphase
    obtain rfl := Option.some.inj hstep
    rw [and_iff_left (by simp [HandsOver, hphase])]
    exact balanced_congr rfl rfl (by rw [hphase]; rfl)
  | converted body =>
    simp only [Pipeline.step] at hstep
    split_ifs at hstep with hphase
    obtain rfl := Option.some.inj hstep
    rcases hphase with hphase | hphase
    · cases body with
      | buffered bytes =>
        exact iff_of_false (not_balanced_of_spawned h hphase rfl rfl)
          fun hb => by simp [HandsOver, hphase] at hb
      | stream =>
        rw [and_iff_left (by simp [HandsOver, hphase])]
        exact balanced_congr rfl rfl (by rw [hphase]; rfl)
    · have hnone : s.accum s.attempt = none := h.early (by rw [hphase]; rfl)
      cases body with
      | buffered bytes =>
        rw [and_iff_left (by simp [HandsOver, hphase])]
        exact balanced_congr rfl rfl (by rw [hphase]; rfl)
      | stream =>
        refine iff_of_false (fun hb => ?_) fun hb => by simp [HandsOver, hphase] at hb
        have hsome := (hb s.attempt).mpr ⟨rfl, rfl⟩
        rw [State.accum_setPhase, State.accum_emit, hnone] at hsome
        cases hsome
  | failed err =>
    simp only [Pipeline.step] at hstep
    split_ifs at hstep with hguarded
    obtain rfl := Option.some.inj hstep
    have haccum : (p.retry (s.emit s.attempt (Pipeline.failPayloads s.attempt err)) err).accums =
        s.accums := accums_retry _ err
    by_cases hphase : s.phase = .streaming
    · exact iff_of_false (not_balanced_of_spawned h hphase haccum (handing_retry _ err))
        fun hb => by simp [HandsOver, hphase] at hb
    · have hearly : s.phase.early = true := by
        cases hp : s.phase <;> simp_all [Phase.guarded, Phase.early]
      rw [and_iff_left (by cases hp : s.phase <;> simp_all [HandsOver])]
      exact balanced_of_ended haccum (Or.inl hearly) (handing_retry _ err)
  | wake =>
    simp only [Pipeline.step] at hstep
    split_ifs at hstep with hphase
    obtain rfl := Option.some.inj hstep
    rw [and_iff_left (by simp [HandsOver, hphase])]
    exact balanced_of_ended rfl (Or.inr hphase) rfl
  | dropped =>
    simp only [Pipeline.step] at hstep
    split at hstep
    · rename_i stage hguarded
      obtain rfl := Option.some.inj hstep
      by_cases hphase : s.phase = .streaming
      · exact iff_of_false (not_balanced_of_spawned h hphase rfl rfl)
          fun hb => by simp [HandsOver, hphase] at hb
      · have hearly : s.phase.early = true := by
          cases hp : s.phase <;> simp_all [Phase.guarded, Phase.early]
        rw [and_iff_left (by cases hp : s.phase <;> simp_all [HandsOver])]
        exact balanced_of_ended rfl (Or.inl hearly) rfl
    · split_ifs at hstep with hphase
      obtain rfl := Option.some.inj hstep
      rw [and_iff_left (by simp [HandsOver, hphase])]
      exact balanced_of_ended rfl (Or.inr hphase) rfl
  | note attempt msg =>
    simp only [Pipeline.step] at hstep
    split_ifs at hstep with hmsg
    obtain ⟨task, htask, rfl⟩ := Option.map_eq_some_iff.mp hstep
    rw [and_iff_left (by cases hp : s.phase <;> simp [HandsOver, hp])]
    exact balanced_setAccum htask
  | finish attempt =>
    simp only [Pipeline.step] at hstep
    split_ifs at hstep with hheld
    obtain ⟨task, htask, hfinish⟩ := Option.bind_eq_some_iff.mp hstep
    split_ifs at hfinish with hfinished
    obtain rfl := Option.some.inj hfinish
    rw [and_iff_left (by cases hp : s.phase <;> simp [HandsOver, hp])]
    exact balanced_setAccum htask
  | receive attempt =>
    obtain ⟨task, htask, hreceive⟩ := Option.bind_eq_some_iff.mp hstep
    rw [and_iff_left (by cases hp : s.phase <;> simp [HandsOver, hp])]
    unfold Pipeline.receive at hreceive
    split_ifs at hreceive with hended
    split at hreceive
    · cases hreceive
    · obtain rfl := Option.some.inj hreceive
      exact (balanced_congr rfl rfl rfl).trans (balanced_setAccum htask)
    · obtain rfl := Option.some.inj hreceive
      exact balanced_setAccum htask
  | tick attempt =>
    obtain ⟨task, htask, htick⟩ := Option.bind_eq_some_iff.mp hstep
    split_ifs at htick with hended
    obtain rfl := Option.some.inj htick
    rw [and_iff_left (by cases hp : s.phase <;> simp [HandsOver, hp])]
    exact balanced_congr rfl rfl rfl

/-! ## Runs -/

theorem ledger_run {actions : List Action} (hrun : p.run actions = some s) : Ledger p s :=
  Machine.exec_invariant (Ledger p) (Ledger.init p) (fun _ _ _ h hstep => h.step hstep) hrun

theorem balanced_run {actions : List Action} (hrun : p.run actions = some s) :
    Balanced s ↔ Machine.Along p.step HandsOver {} actions := by
  refine (Machine.exec_induction (fun actions s =>
    p.run actions = some s ∧ (Balanced s ↔ Machine.Along p.step HandsOver {} actions))
    ⟨rfl, ?_⟩ ?_ hrun).2
  · exact iff_of_true (by simp [Balanced, State.accum, Phase.handing]) trivial
  · intro actions action s s' hs ih hstep
    refine ⟨?_, ?_⟩
    · rw [Pipeline.run, Machine.exec_concat, hs]
      exact hstep
    · rw [balanced_step (ledger_run hs) hstep, ih.2, Machine.along_concat hs]

/-- The run is over: the runner has returned, and so has every accumulator it spawned. -/
def State.Over (s : State) : Prop :=
  (∃ outcome, s.phase = .returned outcome) ∧
    ∀ a task, s.accum a = some task → task.ended = true

/-- How often an attempt has emitted `Completed`. -/
def State.completions (s : State) (a : Nat) : Nat :=
  (stageEvents a s.events).countP StageEvent.isCompleted

theorem Ledger.completions (h : Ledger p s) {a : Nat} (ha : s.Started a) :
    s.completions a = s.concluded a + (s.ended a).toNat := by
  obtain ⟨rest, hrest, -, hcount⟩ := h.tally a ha
  rw [State.completions, hrest, List.countP_cons_of_neg (by simp [StageEvent.isCompleted]), hcount]

theorem Ledger.completions_le (h : Ledger p s) (hbalanced : Balanced s) {a : Nat}
    (ha : s.Started a) : s.completions a ≤ 1 := by
  rw [h.completions ha]
  cases hended : s.ended a with
  | false =>
    rw [State.concluded]
    split_ifs
    · rfl
    · exact s.phase.concluded_le
  | true =>
    have hsome : (s.accum a).isSome = true := by
      rw [State.ended] at hended
      cases htask : s.accum a with
      | none => simp [htask] at hended
      | some task => rfl
    obtain ⟨rfl, hhanding⟩ := (hbalanced a).mp hsome
    rw [State.concluded, if_neg (lt_irrefl _), Phase.concluded_of_handing hhanding]
    rfl

/-- When a run is over, the runner and the accumulators have emitted what they owe. -/
theorem Ledger.completions_over (h : Ledger p s) (hover : s.Over) {a : Nat} (ha : s.Started a) :
    s.completions a = 1 ↔ ((s.accum a).isSome = true ↔ a = s.attempt ∧ s.phase.handing = true) := by
  obtain ⟨⟨outcome, hphase⟩, hended⟩ := hover
  have hspawned : s.ended a = (s.accum a).isSome := by
    rw [State.ended]
    cases htask : s.accum a with
    | none => rfl
    | some task => exact hended a task htask
  have hconcluded : s.concluded a = if a = s.attempt ∧ s.phase.handing = true then 0 else 1 := by
    have hle : a ≤ s.attempt := ha.2
    rw [State.concluded, hphase, Phase.concluded_returned]
    by_cases hlt : a < s.attempt
    · rw [if_pos hlt, if_neg fun hb => by omega]
    · obtain rfl : a = s.attempt := by omega
      rw [if_neg hlt]
      simp
  rw [h.completions ha, hspawned, hconcluded]
  by_cases hhanding : a = s.attempt ∧ s.phase.handing = true
  · rw [if_pos hhanding]
    cases (s.accum a).isSome <;> simp [hhanding]
  · rw [if_neg hhanding]
    cases (s.accum a).isSome <;> simp [hhanding]

/-- An attempt that has not begun has no accumulator. -/
theorem Ledger.balanced_iff (h : Ledger p s) (hidle : s.phase ≠ .idle) :
    Balanced s ↔ ∀ a, s.Started a →
      ((s.accum a).isSome = true ↔ a = s.attempt ∧ s.phase.handing = true) := by
  refine ⟨fun hb a _ => hb a, fun hall a => ?_⟩
  by_cases ha : s.Started a
  · exact hall a ha
  · rw [(h.fresh a ha).2]
    refine iff_of_false (by simp) ?_
    rintro ⟨rfl, -⟩
    exact ha ⟨hidle, le_rfl⟩

/-- Every attempt emits `Started` first and once, and `Completed` once. -/
def State.CompletesOnce (p : Pipeline) (s : State) : Prop :=
  ∀ a, s.Started a →
    (stageEvents a s.events).head? = some (.started p.requestEndpoint) ∧
    (stageEvents a s.events).countP StageEvent.isStarted = 1 ∧ s.completions a = 1

/-- **Every attempt completes once.** -/
theorem completes_once_iff {actions : List Action} (hrun : p.run actions = some s) :
    (∀ a, s.Started a →
      (stageEvents a s.events).head? = some (.started p.requestEndpoint) ∧
      (stageEvents a s.events).countP StageEvent.isStarted = 1) ∧
    (Machine.Along p.step HandsOver {} actions → ∀ a, s.Started a → s.completions a ≤ 1) ∧
    (s.Over → (s.CompletesOnce p ↔ Machine.Along p.step HandsOver {} actions)) := by
  have hledger := ledger_run hrun
  have hbalanced := balanced_run hrun
  have hstarted (a : Nat) (ha : s.Started a) :
      (stageEvents a s.events).head? = some (.started p.requestEndpoint) ∧
      (stageEvents a s.events).countP StageEvent.isStarted = 1 := by
    obtain ⟨rest, hrest, hnone, -⟩ := hledger.tally a ha
    rw [hrest, List.countP_cons_of_pos rfl, hnone]
    exact ⟨rfl, rfl⟩
  refine ⟨hstarted, fun hall a ha => hledger.completions_le (hbalanced.mpr hall) ha, fun hover => ?_⟩
  have hidle : s.phase ≠ .idle := by
    obtain ⟨⟨outcome, hphase⟩, -⟩ := hover
    simp [hphase]
  rw [← hbalanced, hledger.balanced_iff hidle]
  refine forall₂_congr fun a ha => ?_
  rw [← hledger.completions_over hover ha]
  exact ⟨fun h => h.2.2, fun h => ⟨(hstarted a ha).1, (hstarted a ha).2, h⟩⟩

/-! ## Two runs -/

theorem State.over_of_all {outcome : Outcome} (hphase : s.phase = .returned outcome)
    (hall : s.accums.all (fun e => e.2.ended) = true) : s.Over := by
  refine ⟨⟨outcome, hphase⟩, fun a task htask => ?_⟩
  rw [List.all_eq_true] at hall
  exact hall _ (BTreeMap.mem_of_get htask)

/-- A pipeline for Chat Completions requests that never retries. -/
def chatPipeline : Pipeline where
  requestEndpoint := .known .chatCompletions
  fromStr := fun _ => none

/-- The stages up to a `Send` whose response is to be streamed. -/
def sentStream : List Action := [.start, .stageOk, .stageOk, .stageOk, .stageOk, .sent true]

/-- A stream that the client drops after its first bytes. -/
def droppedStream : List Action :=
  sentStream ++ [.converted .stream, .note 0 (.upstream [0x64]), .finish 0, .receive 0, .receive 0]

/-- The only accumulator is that of the attempt whose body is handed over. -/
theorem balanced_of_keys (hkeys : s.accums.map Prod.fst = [s.attempt])
    (hhanding : s.phase.handing = true) : Balanced s := by
  intro a
  obtain ⟨⟨k, task⟩, haccums, rfl⟩ := List.map_eq_singleton_iff.mp hkeys
  have haccum : s.accum a = if a = s.attempt then some task else none := by
    rw [State.accum, haccums]
    rfl
  rw [haccum]
  split_ifs with ha <;> simp [ha, hhanding]

theorem droppedStream_completes_once :
    ∃ s, chatPipeline.run droppedStream = some s ∧ s.Over ∧ s.CompletesOnce chatPipeline := by
  have hrun : (chatPipeline.run droppedStream).any (fun s =>
      s.phase = .returned (.ok .stream) ∧ s.accums.map Prod.fst = [s.attempt] ∧
        s.accums.all (fun e => e.2.ended) = true) = true := by decide
  rw [Option.any_eq_true] at hrun
  obtain ⟨s, hs, hfacts⟩ := hrun
  obtain ⟨hphase, hkeys, hall⟩ := of_decide_eq_true hfacts
  have hover : s.Over := s.over_of_all hphase hall
  have hbalanced : Balanced s := balanced_of_keys hkeys (by rw [hphase]; rfl)
  exact ⟨s, hs, hover, ((completes_once_iff hs).2.2 hover).mpr ((balanced_run hs).mp hbalanced)⟩

/-- `convert_stream` fails after its accumulator has been spawned. -/
def failedConversion : List Action :=
  sentStream ++ [.failed ⟨.convertResponse, "missing upstream endpoint", false, false⟩, .finish 0,
    .receive 0]

/-- The runner and the accumulator both complete the attempt. -/
theorem failedConversion_completes_twice :
    ∃ s, chatPipeline.run failedConversion = some s ∧ s.Over ∧ s.completions 0 = 2 ∧
      ¬ s.CompletesOnce chatPipeline := by
  have hrun : (chatPipeline.run failedConversion).any (fun s =>
      s.phase = .returned (.err ⟨.convertResponse, "missing upstream endpoint", false, false⟩) ∧
        s.attempt = 0 ∧ s.completions 0 = 2 ∧ s.accums.all (fun e => e.2.ended) = true) = true := by
    decide
  rw [Option.any_eq_true] at hrun
  obtain ⟨s, hs, hfacts⟩ := hrun
  obtain ⟨hphase, hattempt, htwice, hall⟩ := of_decide_eq_true hfacts
  refine ⟨s, hs, s.over_of_all hphase hall, htwice, fun h => ?_⟩
  have honce := (h 0 ⟨by simp [hphase], by omega⟩).2.2
  omega

end Tokn.Requests
