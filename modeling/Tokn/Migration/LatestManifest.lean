import Tokn.Migration.ManifestNames
import Tokn.Migration.Retry

/-!
# The manifest that is active

A link or sync follows the latest active manifest of its agent, which is found by the names of the
files only. Files are never removed, and an unlink marks the manifests that it rolls back.

**Theorem (`latest_manifest_iff`).** In every run of links, syncs and unlinks the latest active
manifest is the one that was applied last and is not unlinked, exactly if no other active one of its
agent obscures it and none is of an agent whose name ends with the name that is asked for.
-/

namespace Tokn.Migration

open Procedure

variable {δ : Type}

/-! ## The latest active manifest -/

/-- `path.ends_with("-<agent>.json")`, for any name of an agent. -/
def hasAgentSuffix (name : String) (path : Path) : Bool :=
  ("-" ++ name ++ ".json").toList.isSuffixOf path.toList

def latestActiveManifestIn (manifests : OrderedMap Path (MigrationManifest δ)) (name : String) :
    Option Path :=
  (manifests.entries.reverse.find? fun e => hasAgentSuffix name e.1 && !e.2.unlinked).map Prod.fst

theorem latestActiveManifest_eq [DecidableEq δ] (w : World δ) (agent : AgentId) :
    latestActiveManifest w agent = latestActiveManifestIn w.manifests agent.asStr := rfl

theorem asStr_injective : Function.Injective AgentId.asStr := by
  intro a b h
  cases a <;> cases b <;> first | rfl | exact absurd h (by decide)

/-- The name of an agent ends with another name, after a dash. -/
def Shadows (agent : AgentId) (name : String) : Prop := '-' :: name.toList <:+ agent.asStr.toList

instance (agent : AgentId) (name : String) : Decidable (Shadows agent name) :=
  inferInstanceAs (Decidable (_ <:+ _))

variable {name : String}

/-- Only one name is shadowed. -/
theorem shadows_iff {agent : AgentId} : Shadows agent name ↔ agent = .codexCli ∧ name = "cli" := by
  rw [Shadows, ← String.toList_inj]
  cases agent with
  | opencode =>
    have hletters : AgentId.opencode.asStr.toList = ['o', 'p', 'e', 'n', 'c', 'o', 'd', 'e'] := rfl
    simp [hletters, List.suffix_cons_iff]
  | codexCli =>
    have hletters : AgentId.codexCli.asStr.toList =
        ['c', 'o', 'd', 'e', 'x', '-', 'c', 'l', 'i'] := rfl
    simp [hletters, List.suffix_cons_iff]

/-- No agent with an adapter is shadowed by another one. -/
theorem not_shadows_asStr (agent other : AgentId) : ¬Shadows agent other.asStr := by
  rw [shadows_iff]
  cases other <;> simp [AgentId.asStr]

theorem cons_suffix_append_iff {α : Type*} {c : α} {l before after : List α} (h : c ∉ before) :
    c :: l <:+ before ++ after ↔ c :: l <:+ after := by
  induction before with
  | nil => rfl
  | cons d before ih =>
    have hcd : c ≠ d := fun heq => h (heq ▸ List.mem_cons_self)
    rw [List.cons_append, List.suffix_cons_iff, ih fun hc => h (List.mem_cons_of_mem _ hc)]
    exact or_iff_right fun heq => hcd (List.cons.inj heq).1

theorem append_suffix_append_iff {α : Type*} {a b c : List α} : a ++ c <:+ b ++ c ↔ a <:+ b := by
  constructor
  · rintro ⟨t, h⟩
    rw [← List.append_assoc] at h
    exact ⟨t, List.append_cancel_right h⟩
  · rintro ⟨t, rfl⟩
    exact ⟨t, (List.append_assoc _ _ _).symm⟩

variable {format : UtcDateTime → String}

/-- Which files are taken for manifests of an agent. -/
theorem hasAgentSuffix_manifestPathAt (hformat : IsRfc3339 format) (name : String)
    (agent : AgentId) (t : UtcDateTime) :
    hasAgentSuffix name (manifestPathAt format agent t) = true ↔
      agent.asStr = name ∨ Shadows agent name := by
  have hdash : '-' ∉ t.secondText ++ (t.fraction ++ ['Z']) := by
    intro h
    rcases List.mem_append.mp h with h | h
    · exact (ne_of_mem_secondText h).1 rfl
    · rcases List.mem_append.mp h with h | h
      · exact (ne_of_digit (t.digit_of_mem_fraction h)).1 rfl
      · exact absurd (List.mem_singleton.mp h) (by decide)
  have hpath : (manifestPathAt format agent t).toList =
      ((t.secondText ++ (t.fraction ++ ['Z'])) ++ '-' :: agent.asStr.toList) ++ ".json".toList := by
    rw [toList_manifestPathAt hformat, nameEnd, String.toList_append]
    simp
  have hname : ("-" ++ name ++ ".json").toList = ('-' :: name.toList) ++ ".json".toList := by
    rw [String.toList_append, String.toList_append]
    rfl
  rw [hasAgentSuffix, List.isSuffixOf_iff_suffix, hpath, hname, append_suffix_append_iff,
    cons_suffix_append_iff hdash, List.suffix_cons_iff, List.cons.injEq, Shadows,
    String.toList_inj, eq_comm (a := name)]
  simp

/-! ## Runs -/

/-- What `apply_reconcile` reads of its plan to name and chain the manifest. -/
structure ReconcilePlan where
  agent : AgentId
  timestamp : Timestamp
  previousManifest : Option Path
  deriving DecidableEq

/-- The manifest of a plan, which is written several times: the plan fixes what does not change. -/
def ReconcilePlan.manifest (plan : ReconcilePlan) (rest : MigrationManifest δ) :
    MigrationManifest δ :=
  { rest with
    version := CURRENT_VERSION
    agent := plan.agent
    timestamp := plan.timestamp
    previousManifest := plan.previousManifest
    unlinked := false }

/-- What `apply_reconcile` leaves in the manifest directory once it has written its manifest,
whether or not it completes the migration. -/
def applyReconcile [DecidableEq δ] (w : World δ) (plan : ReconcilePlan) (rest : MigrationManifest δ) :
    Except MigrationError (OrderedMap Path (MigrationManifest δ)) :=
  if latestActiveManifest w plan.agent ≠ plan.previousManifest then .error .changedSincePlan
  else .ok (w.manifests.insert (manifestPath plan.timestamp plan.agent) (plan.manifest rest))

/-- A world, and the links and syncs that were applied before, the oldest first. -/
structure Stage (δ : Type) where
  applied : List (AgentId × UtcDateTime)
  world : World δ

variable (format) (env : Env) [DecidableEq δ]

/-- A link, a sync or an unlink. An unlink may stop between two of its operations. -/
inductive Step : Stage δ → Stage δ → Prop
  | reconcile {s : Stage δ} {agent : AgentId} {t : UtcDateTime} {previous : Option Path}
      {rest : MigrationManifest δ} {w : World δ} :
    applyReconcile s.world ⟨agent, compactRfc3339Timestamp (format t), previous⟩ rest =
      .ok w.manifests →
    (∀ e ∈ s.applied, e.1 = agent → e.2 < t) →
    Step s ⟨s.applied ++ [(agent, t)], w⟩
  | unlink {s : Stage δ} {request : UnlinkRequest} {done rest : List (UnlinkOp δ)} {w : World δ} :
    unlinkOps env s.world request = .ok (done ++ rest) →
    run UnlinkOp.act done s.world = .ok w →
    Step s ⟨s.applied, w⟩

/-- Stages that can be reached from a directory without manifests. -/
inductive Reached : Stage δ → Prop
  | start {w : World δ} : w.manifests = OrderedMap.empty → Reached ⟨[], w⟩
  | step {s s' : Stage δ} : Reached s → Step format env s s' → Reached s'

omit [DecidableEq δ]

/-- The manifest is there and is not unlinked. -/
def Stage.isActive (s : Stage δ) (e : AgentId × UtcDateTime) : Bool :=
  (s.world.manifests.get (manifestPathAt format e.1 e.2)).any fun m => !m.unlinked

/-- What was applied last for an agent and is not unlinked. -/
def Stage.lastApplied (s : Stage δ) (name : String) : Option (AgentId × UtcDateTime) :=
  s.applied.reverse.find? fun e => e.1.asStr = name && s.isActive format e

/-! ## What a run keeps -/

/-- All manifests are of links and syncs, and those of one agent were applied in their order. -/
structure Stage.Recorded (s : Stage δ) : Prop where
  named : ∀ path m, s.world.manifests.get path = some m →
    ∃ e ∈ s.applied, path = manifestPathAt format e.1 e.2
  increasing : s.applied.Pairwise fun e e' => e.1 = e'.1 → e.2 < e'.2

variable {format} {env} {s : Stage δ}

/-- An operation writes one manifest, or none. -/
theorem act_manifests [DecidableEq δ] {op : UnlinkOp δ} {w v : World δ} (h : op.act w = .ok v) :
    v.manifests = w.manifests ∨
      ∃ path m, op = .writeManifest path m ∧ v.manifests = w.manifests.insert path m := by
  cases op with
  | restoreCredentials agent path accounts =>
    obtain ⟨_, -, h⟩ := Except.bind_eq_ok.mp h
    obtain ⟨auth, -, h⟩ := Except.bind_eq_ok.mp h
    cases h
    exact Or.inl rfl
  | restoreFile path m file => exact Or.inl (restoreFile_eq_ok.mp h).2.2.2.2.2
  | restoreBinding agent change =>
    rw [UnlinkOp.act, restoreBinding] at h
    obtain ⟨config, -, h⟩ := Except.bind_eq_ok.mp h
    by_cases hbefore : config agent = change.before
    · rw [if_pos hbefore] at h
      cases h
      exact Or.inl rfl
    · rw [if_neg hbefore] at h
      obtain ⟨_, -, h⟩ := Except.bind_eq_ok.mp h
      cases h
      exact Or.inl rfl
  | writeManifest path m =>
    cases h
    exact Or.inr ⟨path, m, rfl, rfl⟩

/-- An unlink writes only manifests that are there. -/
theorem exists_of_writeManifest [DecidableEq δ] {w : World δ} {request : UnlinkRequest}
    {ops : List (UnlinkOp δ)} (h : unlinkOps env w request = .ok ops) {path : Path}
    {m : MigrationManifest δ} (hop : .writeManifest path m ∈ ops) :
    ∃ m', w.manifests.get path = some m' := by
  obtain ⟨chain, credentials, hchain, -, -, hcredentials, rfl⟩ := unlinkOps_eq_ok.mp h
  obtain ⟨exports, -, rfl⟩ := restorePendingCredentials_eq_ok.mp hcredentials
  obtain ⟨_, _, _, -, -, -, hread, -⟩ := selectedChain_eq_ok.mp hchain
  have hmem := (mem_of_manifestChainFrom hread).2.2
  have hentry : ∃ e ∈ chain, e.1 = path := by
    simp only [List.mem_append, exportOps, handoffOps, markUnlinked, restoreAgentConfigChanges,
      restoreManifestFiles, List.mem_map, List.mem_flatMap, List.mem_filterMap, List.mem_reverse]
      at hop
    rcases hop with (((⟨_, -, heq⟩ | ⟨e, he, heq⟩) | ⟨_, -, _, -, heq⟩) | ⟨_, -, hchange⟩) |
      ⟨e, he, heq⟩
    · cases heq
    · cases heq
      exact ⟨e, mem_of_pending he, rfl⟩
    · cases heq
    · obtain ⟨_, -, heq⟩ := Option.map_eq_some_iff.mp hchange
      cases heq
    · cases heq
      exact ⟨e, he, rfl⟩
  obtain ⟨e, he, rfl⟩ := hentry
  exact ⟨e.2, (hmem e he).2.1⟩

/-- **One step.** -/
theorem Stage.Recorded.step [DecidableEq δ] {s' : Stage δ} (h : s.Recorded format)
    (hstep : Step format env s s') : s'.Recorded format := by
  cases hstep with
  | @reconcile agent t previous rest w hcall hincreasing =>
    rw [applyReconcile] at hcall
    split_ifs at hcall with hlatest
    have hmanifests := (Except.ok.inj hcall).symm
    constructor
    · intro path m hget
      rw [hmanifests, OrderedMap.get_insert] at hget
      split_ifs at hget with hpath
      · exact ⟨(agent, t), List.mem_append_right _ (List.mem_singleton_self _), hpath⟩
      · obtain ⟨e, he, heq⟩ := h.named path m hget
        exact ⟨e, List.mem_append_left _ he, heq⟩
    · rw [List.pairwise_append]
      refine ⟨h.increasing, List.pairwise_singleton _ _, fun e he e' he' hagent => ?_⟩
      rw [List.mem_singleton.mp he'] at hagent ⊢
      exact hincreasing e he hagent
  | @unlink request done rest w hops hrun =>
    refine ⟨fun path m hget => ?_, h.increasing⟩
    have hkept := stop_induction (fun u : World δ => ∀ path m, u.manifests.get path = some m →
      ∃ m', s.world.manifests.get path = some m') (fun path m hget => ⟨m, hget⟩) (by
        intro op hop v v' hact hv path m hget
        rcases act_manifests hact with hsame | ⟨path', m', rfl, hinsert⟩
        · exact hv path m (hsame ▸ hget)
        · rw [hinsert, OrderedMap.get_insert] at hget
          split_ifs at hget with hpath
          · rw [hpath]
            exact exists_of_writeManifest hops (List.mem_append_left _ hop)
          · exact hv path m hget) hrun
    obtain ⟨m', hget'⟩ := hkept path m hget
    exact h.named path m' hget'

/-- **A run.** -/
theorem recorded_of_reached [DecidableEq δ] (h : Reached format env s) : s.Recorded format := by
  induction h with
  | start hempty =>
    refine ⟨fun path m hget => ?_, List.Pairwise.nil⟩
    rw [hempty] at hget
    cases hget
  | step _ hstep ih => exact ih.step hstep

/-! ## What is found -/

/-- An active manifest whose name ends with that of the agent. -/
structure Stage.Candidate (format : UtcDateTime → String) (s : Stage δ) (name : String)
    (e : AgentId × UtcDateTime) : Prop where
  applied : e ∈ s.applied
  active : s.isActive format e = true
  suffix : e.1.asStr = name ∨ Shadows e.1 name

theorem candidate_of_get (hformat : IsRfc3339 format) (h : s.Recorded format) {path : Path}
    {m : MigrationManifest δ} (hget : s.world.manifests.get path = some m)
    (hp : (hasAgentSuffix name path && !m.unlinked) = true) :
    ∃ e, s.Candidate format name e ∧ path = manifestPathAt format e.1 e.2 := by
  obtain ⟨e, he, rfl⟩ := h.named path m hget
  rw [Bool.and_eq_true, hasAgentSuffix_manifestPathAt hformat] at hp
  refine ⟨e, ⟨he, ?_, hp.1⟩, rfl⟩
  rw [Stage.isActive, hget]
  exact hp.2

theorem Stage.Candidate.get (hformat : IsRfc3339 format) {e : AgentId × UtcDateTime}
    (h : s.Candidate format name e) :
    ∃ m, s.world.manifests.get (manifestPathAt format e.1 e.2) = some m ∧
      (hasAgentSuffix name (manifestPathAt format e.1 e.2) && !m.unlinked) = true := by
  have hactive := h.active
  rw [Stage.isActive] at hactive
  cases hget : s.world.manifests.get (manifestPathAt format e.1 e.2) with
  | none =>
    rw [hget] at hactive
    cases hactive
  | some m =>
    rw [hget] at hactive
    refine ⟨m, rfl, ?_⟩
    rw [Bool.and_eq_true, hasAgentSuffix_manifestPathAt hformat]
    exact ⟨h.suffix, hactive⟩

/-- The greatest candidate is found. -/
theorem latest_eq_some_iff (hformat : IsRfc3339 format) (h : s.Recorded format) {path : Path} :
    latestActiveManifestIn s.world.manifests name = some path ↔
      (∃ e, s.Candidate format name e ∧ path = manifestPathAt format e.1 e.2) ∧
        ∀ e, s.Candidate format name e → manifestPathAt format e.1 e.2 ≠ path →
          manifestPathAt format e.1 e.2 < path := by
  rw [latestActiveManifestIn, Option.map_eq_some_iff]
  constructor
  · rintro ⟨⟨path', m⟩, hfind, rfl⟩
    obtain ⟨hget, hp, hlast⟩ := OrderedMap.find?_reverse_eq_some_iff.mp hfind
    refine ⟨candidate_of_get hformat h hget hp, fun e he hne => ?_⟩
    obtain ⟨m', hget', hp'⟩ := he.get hformat
    exact hlast _ m' hget' hp' hne
  · rintro ⟨⟨e, he, rfl⟩, hlast⟩
    obtain ⟨m, hget, hp⟩ := he.get hformat
    refine ⟨(_, m), OrderedMap.find?_reverse_eq_some_iff.mpr ⟨hget, hp, ?_⟩, rfl⟩
    intro path' m' hget' hp' hne
    obtain ⟨e', he', rfl⟩ := candidate_of_get hformat h hget' hp'
    exact hlast e' he' hne

theorem latest_eq_none_iff (hformat : IsRfc3339 format) (h : s.Recorded format) :
    latestActiveManifestIn s.world.manifests name = none ↔ ∀ e, ¬s.Candidate format name e := by
  rw [latestActiveManifestIn, Option.map_eq_none_iff, List.find?_eq_none]
  constructor
  · intro hnone e he
    obtain ⟨m, hget, hp⟩ := he.get hformat
    exact hnone _ (List.mem_reverse.mpr (OrderedMap.mem_entries.mpr hget)) hp
  · intro hnone e he hp
    obtain ⟨e', he', -⟩ := candidate_of_get hformat h
      (OrderedMap.mem_entries.mp (List.mem_reverse.mp he)) hp
    exact hnone e' he'

/-- All others of the agent that are active are earlier than the last. -/
theorem lastApplied_spec (h : s.Recorded format) {e : AgentId × UtcDateTime}
    (hlast : s.lastApplied format name = some e) :
    e ∈ s.applied ∧ e.1.asStr = name ∧ s.isActive format e = true ∧
      ∀ e' ∈ s.applied, e'.1.asStr = name → s.isActive format e' = true →
        e' = e ∨ e'.1 = e.1 ∧ e'.2 < e.2 := by
  rw [Stage.lastApplied, List.find?_eq_some_iff_append] at hlast
  obtain ⟨hp, before, after, hsplit, hbefore⟩ := hlast
  rw [Bool.and_eq_true, decide_eq_true_eq] at hp
  have happlied : s.applied = after.reverse ++ e :: before.reverse := by
    rw [← List.reverse_reverse s.applied, hsplit]
    simp
  refine ⟨by rw [happlied]; simp, hp.1, hp.2, fun e' he' hname hactive => ?_⟩
  have hincreasing := h.increasing
  rw [happlied, List.pairwise_append] at hincreasing
  rw [happlied, List.mem_append, List.mem_cons] at he'
  rcases he' with he' | he' | he'
  · have hagent := asStr_injective (hname.trans hp.1.symm)
    exact Or.inr ⟨hagent, hincreasing.2.2 e' he' e List.mem_cons_self hagent⟩
  · exact Or.inl he'
  · have hnot := hbefore e' (List.mem_reverse.mp he')
    rw [hactive, decide_eq_true hname] at hnot
    cases hnot

theorem lastApplied_eq_none_iff :
    s.lastApplied format name = none ↔
      ∀ e ∈ s.applied, e.1.asStr = name → ¬s.isActive format e = true := by
  rw [Stage.lastApplied, List.find?_eq_none]
  simp

/-- **The latest active manifest of a stage.** -/
theorem latest_iff (hformat : IsRfc3339 format) (h : s.Recorded format) (name : String) :
    latestActiveManifestIn s.world.manifests name =
        (s.lastApplied format name).map (fun e => manifestPathAt format e.1 e.2) ↔
      (∀ e e', s.lastApplied format name = some e' → e ∈ s.applied →
        s.isActive format e = true → e.1 = e'.1 → ¬e.2.Obscures e'.2) ∧
      ∀ e ∈ s.applied, s.isActive format e = true → ¬Shadows e.1 name := by
  cases hlast : s.lastApplied format name with
  | none =>
    rw [Option.map_none, latest_eq_none_iff hformat h]
    have hnone := lastApplied_eq_none_iff.mp hlast
    constructor
    · intro hcandidate
      exact ⟨fun _ _ hsome => (by cases hsome),
        fun e he hactive hshadows => hcandidate e ⟨he, hactive, Or.inr hshadows⟩⟩
    · rintro ⟨-, hshadows⟩ e ⟨he, hactive, hname | hshadow⟩
      · exact hnone e he hname hactive
      · exact hshadows e he hactive hshadow
  | some last =>
    obtain ⟨hmem, rfl, hactive, hearlier⟩ := lastApplied_spec h hlast
    have hcandidate : s.Candidate format last.1.asStr last := ⟨hmem, hactive, Or.inl rfl⟩
    rw [Option.map_some, latest_eq_some_iff hformat h]
    constructor
    · rintro ⟨-, hgreatest⟩
      refine ⟨fun e e' hsome he hactive' hagent hobscures => ?_,
        fun e _ _ => not_shadows_asStr e.1 last.1⟩
      obtain rfl := Option.some.inj hsome
      rcases hearlier e he (congrArg _ hagent) hactive' with rfl | ⟨-, hlt⟩
      · exact hobscures.2.2 rfl
      · have hnot := (manifestPathAt_lt_iff hformat e.1 last.1 hlt).not.mpr (not_not_intro hobscures)
        exact hnot (hgreatest e ⟨he, hactive', Or.inl (congrArg _ hagent)⟩
          (manifestPathAt_ne hformat e.1 last.1 hlt))
    · rintro ⟨hclear, -⟩
      refine ⟨⟨last, hcandidate, rfl⟩, fun e he hne => ?_⟩
      rcases he.suffix with hname | hshadow
      · rcases hearlier e he.applied hname he.active with rfl | ⟨hagent, hlt⟩
        · exact absurd rfl hne
        · exact (manifestPathAt_lt_iff hformat e.1 last.1 hlt).mpr
            (hclear e last rfl he.applied he.active hagent)
      · exact absurd hshadow (not_shadows_asStr e.1 last.1)

/-! ## Two links within a second -/

/-- What the library writes for an instant. -/
def formatRfc3339 (t : UtcDateTime) : String :=
  String.ofList (t.dateText ++ 'T' :: t.timeText ++
    (if t.fraction = [] then [] else '.' :: t.fraction) ++ ['Z'])

theorem isRfc3339_formatRfc3339 : IsRfc3339 formatRfc3339 := fun _ => String.toList_ofList

/-- An instant of one second. -/
def instantAt (nanosecond : Nat) (h : nanosecond < 1000000000) : UtcDateTime where
  year := 2026
  month := 6
  day := 5
  hour := 10
  minute := 11
  second := 12
  nanosecond := nanosecond
  year_lt := by decide
  month_mem := by decide
  day_mem := by decide
  hour_lt := by decide
  minute_lt := by decide
  second_lt := by decide
  nanosecond_lt := h

/-- A world after another link of OpenCode. -/
def linkedStage (s : Stage String) (t : UtcDateTime) : Stage String where
  applied := s.applied ++ [(.opencode, t)]
  world := s.world.withManifests (s.world.manifests.insert (manifestPathAt formatRfc3339 .opencode t)
    (ReconcilePlan.manifest ⟨.opencode, compactRfc3339Timestamp (formatRfc3339 t),
      latestActiveManifest s.world .opencode⟩ sampleManifest))

def unlinkedStage : Stage String := ⟨[], sampleWorld.withManifests OrderedMap.empty⟩

theorem reached_linkedStage {s : Stage String} (hs : Reached formatRfc3339 sampleEnv s)
    {t : UtcDateTime} (h : ∀ e ∈ s.applied, e.1 = .opencode → e.2 < t) :
    Reached formatRfc3339 sampleEnv (linkedStage s t) := by
  have hcall : applyReconcile s.world ⟨.opencode, compactRfc3339Timestamp (formatRfc3339 t),
      latestActiveManifest s.world .opencode⟩ sampleManifest =
        .ok (linkedStage s t).world.manifests := by
    rw [applyReconcile, if_neg (not_not_intro rfl)]
    rfl
  exact .step hs (.reconcile hcall h)

/-- Two links within a second, one tenth after the whole second and some time later. -/
def twoLinks (nanosecond : Nat) (h : nanosecond < 1000000000) : Stage String :=
  linkedStage (linkedStage unlinkedStage (instantAt 100000000 (by decide))) (instantAt nanosecond h)

theorem reached_twoLinks {nanosecond : Nat} {h : nanosecond < 1000000000}
    (hlt : instantAt 100000000 (by decide) < instantAt nanosecond h) :
    Reached formatRfc3339 sampleEnv (twoLinks nanosecond h) := by
  refine reached_linkedStage (reached_linkedStage (.start rfl) fun e he => by cases he) ?_
  intro e he _
  rw [List.mem_singleton.mp he]
  exact hlt

/-- **The latest active manifest.** -/
theorem latest_manifest_iff [DecidableEq δ] {format : UtcDateTime → String}
    (hformat : IsRfc3339 format) :
    (∀ agent agent' t t', t < t' →
      (manifestPathAt format agent t < manifestPathAt format agent' t' ↔ ¬t.Obscures t')) ∧
    ∀ env (s : Stage δ), Reached format env s → ∀ name,
      (latestActiveManifestIn s.world.manifests name =
          (s.lastApplied format name).map (fun e => manifestPathAt format e.1 e.2) ↔
        (∀ e e', s.lastApplied format name = some e' → e ∈ s.applied →
          s.isActive format e = true → e.1 = e'.1 → ¬e.2.Obscures e'.2) ∧
        ∀ e ∈ s.applied, s.isActive format e = true → ¬Shadows e.1 name) :=
  ⟨fun agent agent' _ _ hlt => manifestPathAt_lt_iff hformat agent agent' hlt,
    fun _ _ hs name => latest_iff hformat (recorded_of_reached hs) name⟩

theorem latest_manifest_twoLinks :
    manifestPathAt formatRfc3339 .opencode (instantAt 100000000 (by decide)) <
        manifestPathAt formatRfc3339 .opencode (instantAt 200000000 (by decide)) ∧
      latestActiveManifestIn (twoLinks 200000000 (by decide)).world.manifests "opencode" =
        some "20260605T1011122Z-opencode.json" := by
  have hlt : instantAt 100000000 (by decide) < instantAt 200000000 (by decide) := by decide +kernel
  have hlast : (twoLinks 200000000 (by decide)).lastApplied formatRfc3339 "opencode" =
      some (.opencode, instantAt 200000000 (by decide)) := by decide +kernel
  obtain ⟨hnames, hruns⟩ := @latest_manifest_iff String _ formatRfc3339 isRfc3339_formatRfc3339
  refine ⟨(hnames _ _ _ _ hlt).mpr (by decide +kernel), ?_⟩
  rw [(hruns sampleEnv _ (reached_twoLinks hlt) "opencode").mpr ⟨?_, ?_⟩, hlast]
  · decide +kernel
  · intro e e' hsome
    rw [hlast] at hsome
    obtain rfl := Option.some.inj hsome
    revert e
    decide +kernel
  · decide +kernel

theorem latest_manifest_obscured :
    IsRfc3339 formatRfc3339 ∧
      instantAt 100000000 (by decide) < instantAt 120000000 (by decide) ∧
      ¬manifestPathAt formatRfc3339 .opencode (instantAt 100000000 (by decide)) <
        manifestPathAt formatRfc3339 .opencode (instantAt 120000000 (by decide)) ∧
      Reached formatRfc3339 sampleEnv (twoLinks 120000000 (by decide)) ∧
      (twoLinks 120000000 (by decide)).lastApplied formatRfc3339 "opencode" =
        some (.opencode, instantAt 120000000 (by decide)) ∧
      latestActiveManifest (twoLinks 120000000 (by decide)).world .opencode =
        some (manifestPathAt formatRfc3339 .opencode (instantAt 100000000 (by decide))) := by
  have hlt : instantAt 100000000 (by decide) < instantAt 120000000 (by decide) := by decide +kernel
  exact ⟨isRfc3339_formatRfc3339, hlt, by decide +kernel, reached_twoLinks hlt, by decide +kernel,
    by decide +kernel⟩

end Tokn.Migration
