import Mathlib.Data.List.ReduceOption
import Tokn.Auth.Store

/-!
# What is saved is what is loaded

**The invariant** (`Consistent`). The list of accounts, the sources of the accounts, and the
paths, baselines and snapshots of the sources describe one state: ids are distinct, each account
has a known source, and each known source has a snapshot whose accounts have the fingerprints of
its baseline. Loading establishes it; each edit and each save keep it. It says nothing about the
files: a save compares the snapshots with them (`Validated`).

**Saved** (`Clean`). Each baseline has the fingerprints of the accounts that belong to the source
now. This holds after loading and after saving, and then there is nothing to save.

**Theorem (`AuthStore.save_reload`).** After any edits of a loaded store and a save, loading gives
the accounts that are in memory, each with its source.
-/

namespace Tokn.Auth

open BTreeMap (get_eq_some_iff get_insert sorted_nil)
open Tokn.Except (fails_ok foldlM_concat mapM_eq_ok)
open Stateful (bind_reading_cases reading_eq_ok)

variable {ρ : Type} {y : Yaml ρ}

/-- What was written is read back. -/
structure Yaml.RoundTrips (y : Yaml ρ)
    (accountFromStr : String → Except AuthError (AccountConfig ρ)) : Prop where
  account : ∀ a s, y.accountToString a = .ok s → accountFromStr s = .ok a
  file : ∀ f s, y.fileToString f = .ok s → y.fileFromStr s = .ok f

/-! ## Fingerprints -/

variable {accounts : List (AccountConfig ρ)} {m : SourceBaseline} {d : Disk}

theorem accountFingerprints_eq_ok (h : accountFingerprints y accounts = .ok m) :
    (accounts.map AccountConfig.id).Nodup ∧ BTreeMap.Sorted m ∧
      (∀ a ∈ accounts, ∃ f, y.accountToString a = .ok f) ∧
      ∀ id f, m.get id = some f ↔ ∃ a ∈ accounts, a.id = id ∧ y.accountToString a = .ok f := by
  refine Except.foldlM_induction (P := fun is m =>
    (is.map AccountConfig.id).Nodup ∧ BTreeMap.Sorted m ∧
      (∀ a ∈ is, ∃ f, y.accountToString a = .ok f) ∧
      ∀ id f, m.get id = some f ↔
        ∃ a ∈ is, a.id = id ∧ y.accountToString a = .ok f) ?_ ?_ h
  · refine ⟨List.nodup_nil, sorted_nil, fun a ha => (by cases ha), fun id f => ?_⟩
    constructor
    · intro hget
      cases hget
    · rintro ⟨a, ha, -⟩
      cases ha
  · intro is a m m' _ hm hstep
    obtain ⟨hnodup, hsorted, hserial, hget⟩ := hm
    obtain ⟨f, hf, hstep⟩ := Except.bind_eq_ok.mp hstep
    obtain ⟨_, hnew, hstep⟩ := Except.bind_eq_ok.mp hstep
    cases hstep
    have hnew : m.get a.id = none := by
      have := Except.rejectIf_eq_ok.mp hnew
      rwa [BTreeMap.contains, Option.isSome_eq_false_iff, Option.isNone_iff_eq_none] at this
    have hfresh : ∀ b ∈ is, b.id ≠ a.id := by
      intro b hb hid
      obtain ⟨g, hg⟩ := hserial b hb
      have hsome := (hget a.id g).mpr ⟨b, hb, hid, hg⟩
      rw [hnew] at hsome
      cases hsome
    refine ⟨?_, hsorted.insert _ _, ?_, ?_⟩
    · rw [List.map_append, List.nodup_append]
      refine ⟨hnodup, List.nodup_singleton _, ?_⟩
      intro id hid id' hid'
      obtain ⟨b, hb, rfl⟩ := List.mem_map.mp hid
      rw [List.mem_singleton.mp hid']
      exact hfresh b hb
    · intro b hb
      rcases List.mem_append.mp hb with hb | hb
      · exact hserial b hb
      · exact ⟨f, (List.mem_singleton.mp hb) ▸ hf⟩
    · intro id g
      rw [get_insert]
      by_cases hid : id = a.id
      · rw [if_pos hid, Option.some.injEq]
        constructor
        · rintro rfl
          exact ⟨a, List.mem_append_right _ (List.mem_singleton_self a), hid.symm, hf⟩
        · rintro ⟨b, hb, hbid, hg⟩
          rcases List.mem_append.mp hb with hb | hb
          · exact absurd (hbid.trans hid) (hfresh b hb)
          · rw [List.mem_singleton.mp hb, hf] at hg
            cases hg
            rfl
      · rw [if_neg hid, hget]
        constructor
        · rintro ⟨b, hb, hbid, hg⟩
          exact ⟨b, List.mem_append_left _ hb, hbid, hg⟩
        · rintro ⟨b, hb, hbid, hg⟩
          rcases List.mem_append.mp hb with hb | hb
          · exact ⟨b, hb, hbid, hg⟩
          · exact absurd (hbid.symm.trans (congrArg _ (List.mem_singleton.mp hb))) hid

/-- Accounts with distinct ids that can be written have fingerprints. -/
theorem exists_accountFingerprints (hnodup : (accounts.map AccountConfig.id).Nodup)
    (hserial : ∀ a ∈ accounts, ∃ f, y.accountToString a = .ok f) :
    ∃ m, accountFingerprints y accounts = .ok m := by
  induction accounts using List.reverseRecOn with
  | nil => exact ⟨[], rfl⟩
  | append_singleton is a ih =>
    rw [List.map_append, List.nodup_append] at hnodup
    obtain ⟨m, hm⟩ := ih hnodup.1 fun b hb => hserial b (List.mem_append_left _ hb)
    obtain ⟨f, hf⟩ := hserial a (List.mem_append_right _ (List.mem_singleton_self a))
    have hnew : m.contains a.id = false := by
      rw [BTreeMap.contains, Option.isSome_eq_false_iff, Option.isNone_iff_eq_none]
      cases hget : m.get a.id with
      | none => rfl
      | some g =>
        obtain ⟨b, hb, hid, -⟩ := ((accountFingerprints_eq_ok hm).2.2.2 a.id g).mp hget
        exact absurd hid (hnodup.2.2 b.id (List.mem_map_of_mem hb) a.id (List.mem_singleton_self _))
    refine ⟨m.insert a.id f, foldlM_concat.mpr ⟨m, hm, ?_⟩⟩
    exact Except.bind_eq_ok.mpr ⟨f, hf, Except.bind_eq_ok.mpr ⟨⟨⟩, Except.rejectIf_eq_ok.mpr hnew, rfl⟩⟩

/-- The fingerprints depend only on which accounts there are. -/
theorem accountFingerprints_congr {accounts' : List (AccountConfig ρ)}
    (h : accountFingerprints y accounts = .ok m) (hnodup : (accounts'.map AccountConfig.id).Nodup)
    (hsame : ∀ a, a ∈ accounts' ↔ a ∈ accounts) : accountFingerprints y accounts' = .ok m := by
  obtain ⟨-, hsorted, hserial, hget⟩ := accountFingerprints_eq_ok h
  obtain ⟨m', hm'⟩ :=
    exists_accountFingerprints hnodup fun a ha => hserial a ((hsame a).mp ha)
  obtain ⟨-, hsorted', -, hget'⟩ := accountFingerprints_eq_ok hm'
  have heq : m' = m := by
    refine BTreeMap.Sorted.ext hsorted' hsorted fun id => Option.ext fun f => ?_
    rw [hget', hget]
    simp only [hsame]
  rw [hm', heq]

/-- **Accounts with the same fingerprints are the same accounts.** -/
theorem mem_iff_of_fingerprints {read : String → Except AuthError (AccountConfig ρ)}
    (hy : y.RoundTrips read) {accounts' : List (AccountConfig ρ)}
    (h : accountFingerprints y accounts = .ok m) (h' : accountFingerprints y accounts' = .ok m)
    (a : AccountConfig ρ) : a ∈ accounts ↔ a ∈ accounts' := by
  have himp : ∀ {l l' : List (AccountConfig ρ)}, accountFingerprints y l = .ok m →
      accountFingerprints y l' = .ok m → a ∈ l → a ∈ l' := by
    intro l l' hl hl' ha
    obtain ⟨-, -, hserial, hget⟩ := accountFingerprints_eq_ok hl
    obtain ⟨-, -, -, hget'⟩ := accountFingerprints_eq_ok hl'
    obtain ⟨f, hf⟩ := hserial a ha
    obtain ⟨b, hb, -, hbf⟩ := (hget' a.id f).mp ((hget a.id f).mpr ⟨a, ha, rfl, hf⟩)
    have hab : Except.ok (ε := AuthError) a = .ok b := by
      rw [← hy.account a f hf, hy.account b f hbf]
    cases hab
    exact hb
  exact ⟨himp h h', himp h' h⟩

/-! ## Files -/

theorem mapM_pairs {name : String} {x : AuthSource × PathBuf} :
    (do validateShardName name; pure (AuthSource.shard name, AuthSource.shard name)) =
        (.ok x : Except AuthError (AuthSource × PathBuf)) ↔
      validateShardName name = .ok () ∧ x = (.shard name, .shard name) := by
  rw [Except.bind_eq_ok]
  constructor
  · rintro ⟨⟨⟩, hname, hx⟩
    cases hx
    exact ⟨hname, rfl⟩
  · rintro ⟨hname, rfl⟩
    exact ⟨(), hname, rfl⟩

theorem Disk.mem_shardNames {name : String} :
    name ∈ d.shardNames ↔ ∃ bytes, d.get (.shard name) = some (.file bytes) := by
  rw [Disk.shardNames, List.mem_filterMap]
  constructor
  · rintro ⟨⟨path, entry⟩, hmem, hname⟩
    cases path with
    | main => cases hname
    | shard n =>
      cases entry with
      | file bytes =>
        cases hname
        exact ⟨bytes, Disk.mem_entries.mp hmem⟩
      | symlink => cases hname
      | directory => cases hname
  · rintro ⟨bytes, hget⟩
    exact ⟨_, Disk.mem_entries.mpr hget, rfl⟩

theorem Disk.nodup_shardNames (d : Disk) : d.shardNames.Nodup := by
  have hsub : (d.shardNames.map AuthSource.shard).Sublist (d.entries.map Prod.fst) := by
    rw [Disk.shardNames]
    induction d.entries with
    | nil => exact List.Sublist.slnil
    | cons e es ih =>
      obtain ⟨path, entry⟩ := e
      rw [List.filterMap_cons, List.map_cons]
      cases path with
      | main => exact ih.cons _
      | shard n =>
        cases entry with
        | file bytes => exact ih.cons_cons _
        | symlink => exact ih.cons _
        | directory => exact ih.cons _
  exact (d.keyed.sublist hsub).of_map _

theorem discoverShards_eq_ok {shards : List (AuthSource × PathBuf)}
    (h : discoverShards d = .ok shards) :
    shards.Perm (d.shardNames.map fun name => (.shard name, .shard name)) ∧
      ∀ name ∈ d.shardNames, validateShardName name = .ok () := by
  obtain ⟨found, hfound, hsorted⟩ := Except.bind_eq_ok.mp h
  cases hsorted
  have hpairs := mapM_eq_ok.mp hfound
  have hall : found = (d.shardNames.map fun name => (.shard name, .shard name)) ∧
      ∀ name ∈ d.shardNames, validateShardName name = .ok () := by
    clear h hfound
    change List.Forall₂ _ d.shardNames found at hpairs
    generalize d.shardNames = names at hpairs ⊢
    induction hpairs with
    | nil => exact ⟨rfl, fun name hname => (by cases hname)⟩
    | cons hname hnames ih =>
      obtain ⟨hvalid, rfl⟩ := mapM_pairs.mp hname
      rw [List.map_cons, ← ih.1]
      exact ⟨rfl, List.forall_mem_cons.mpr ⟨hvalid, ih.2⟩⟩
  rw [← hall.1]
  exact ⟨List.mergeSort_perm _ _, hall.2⟩

theorem exists_discoverShards (h : ∀ name ∈ d.shardNames, validateShardName name = .ok ()) :
    ∃ shards, discoverShards d = .ok shards := by
  have hfound : d.shardNames.mapM (fun name => do
      validateShardName name
      pure (AuthSource.shard name, AuthSource.shard name)) =
        (.ok (d.shardNames.map fun name => (.shard name, .shard name)) :
          Except AuthError (List (AuthSource × PathBuf))) := by
    rw [mapM_eq_ok, List.forall₂_map_right_iff, List.forall₂_same]
    exact fun name hname => mapM_pairs.mpr ⟨h name hname, rfl⟩
  exact ⟨_, Except.bind_eq_ok.mpr ⟨_, hfound, rfl⟩⟩

theorem validateDirectAuthLayout_eq_ok :
    validateDirectAuthLayout d = .ok () ↔ ∀ path target, d.get path ≠ some (.symlink target) := by
  have hmain : rejectAuthSymlink d .main = .ok () ↔
      ∀ target, d.get .main ≠ some (.symlink target) := by
    rw [rejectAuthSymlink]
    cases hget : d.get .main with
    | none => simp
    | some entry => cases entry <;> simp
  rw [validateDirectAuthLayout, Except.bind_eq_ok]
  constructor
  · rintro ⟨_, hm, hs⟩ path target
    cases path with
    | main => exact hmain.mp hm target
    | shard name =>
      intro hget
      cases Except.forM_eq_ok.mp hs _ (Disk.mem_entries.mpr hget)
  · intro h
    refine ⟨(), hmain.mpr (h .main), Except.forM_eq_ok.mpr ?_⟩
    rintro ⟨path, entry⟩ hmem
    cases path with
    | main => rfl
    | shard name =>
      cases entry with
      | symlink target => exact absurd (Disk.mem_entries.mp hmem) (h (.shard name) target)
      | file bytes => rfl
      | directory => rfl

theorem validate_eq_ok {snapshot : SourceSnapshot} {path : PathBuf} {u : Unit} :
    snapshot.validate d path = .ok u ↔ SourceSnapshot.capture d path = .ok snapshot := by
  rw [SourceSnapshot.validate, Except.bind_eq_ok]
  constructor
  · rintro ⟨current, hcurrent, hsame⟩
    have := Except.rejectIf_eq_ok.mp hsame
    rw [decide_eq_false_iff_not, not_not] at this
    rw [hcurrent, this]
  · intro h
    refine ⟨snapshot, h, Except.rejectIf_eq_ok.mpr ?_⟩
    rw [decide_eq_false_iff_not, not_not]

namespace AuthStore

variable {st st' st₀ : AuthStore ρ} {source : AuthSource} {d : Disk} {a : AccountConfig ρ}
  {path : PathBuf} {accounts : List (AccountConfig ρ)} {snapshot : SourceSnapshot}
  {baseline : SourceBaseline} {sources : List AuthSource} {shards : List (AuthSource × PathBuf)}

theorem mem_expectedShards (h : BTreeMap.Sorted st.sourceSnapshots) :
    source ∈ st.expectedShards ↔
      ∃ name bytes, source = .shard name ∧ st.sourceSnapshots.get source = some (.contents bytes) := by
  rw [expectedShards, List.mem_filterMap]
  constructor
  · rintro ⟨⟨path, snapshot⟩, hmem, hsource⟩
    cases path with
    | main => cases hsource
    | shard name =>
      cases snapshot with
      | missing => cases hsource
      | contents bytes =>
        cases hsource
        exact ⟨name, bytes, rfl, (get_eq_some_iff h.nodup).mpr hmem⟩
  · rintro ⟨name, bytes, rfl, hget⟩
    exact ⟨_, (get_eq_some_iff h.nodup).mp hget, rfl⟩

/-- The files are as the snapshots say. -/
structure Validated (d : Disk) (st : AuthStore ρ) : Prop where
  direct : ∀ path target, d.get path ≠ some (.symlink target)
  named : ∀ name bytes, d.get (.shard name) = some (.file bytes) → validateShardName name = .ok ()
  shards : ∀ name, (∃ bytes, d.get (.shard name) = some (.file bytes)) ↔
    ∃ bytes, st.sourceSnapshots.get (.shard name) = some (.contents bytes)
  snapshots : ∀ source path, (source, path) ∈ st.sourcePaths →
    ∃ snapshot, st.sourceSnapshots.get source = some snapshot ∧
      SourceSnapshot.capture d path = .ok snapshot

theorem validateSourcesUnchanged_eq_ok (hsorted : BTreeMap.Sorted st.sourceSnapshots) :
    validateSourcesUnchanged d st = .ok () ↔ Validated d st := by
  have hpaths : ∀ check : AuthSource × PathBuf → Except AuthError Unit,
      (∀ e, st.sourceSnapshots.get e.1 = none → check e = .error (.missingSnapshot e.2)) →
      (∀ e snapshot, st.sourceSnapshots.get e.1 = some snapshot →
        check e = snapshot.validate d e.2) →
      (st.sourcePaths.forM check = .ok () ↔
        ∀ source path, (source, path) ∈ st.sourcePaths →
          ∃ snapshot, st.sourceSnapshots.get source = some snapshot ∧
            SourceSnapshot.capture d path = .ok snapshot) := by
    intro check hnone hsome
    rw [Except.forM_eq_ok, Prod.forall]
    refine forall_congr' fun source => forall_congr' fun path => imp_congr_right fun _ => ?_
    cases hget : st.sourceSnapshots.get source with
    | none => simp [hnone (source, path) hget]
    | some snapshot => simp [hsome (source, path) snapshot hget, validate_eq_ok]
  have hactual : ∀ {discovered : List (AuthSource × PathBuf)},
      discoverShards d = .ok discovered → ∀ source,
        (source ∈ discovered.map Prod.fst ↔
          ∃ name bytes, source = .shard name ∧ d.get source = some (.file bytes)) := by
    intro discovered hdiscovered source
    rw [List.mem_map, Prod.exists]
    simp only [(discoverShards_eq_ok hdiscovered).1.mem_iff, List.mem_map, Disk.mem_shardNames]
    constructor
    · rintro ⟨_, _, ⟨name, ⟨bytes, hget⟩, heq⟩, rfl⟩
      cases heq
      exact ⟨name, bytes, rfl, hget⟩
    · rintro ⟨name, bytes, rfl, hget⟩
      exact ⟨_, _, ⟨name, ⟨bytes, hget⟩, rfl⟩, rfl⟩
  rw [validateSourcesUnchanged, Except.bind_eq_ok]
  constructor
  · rintro ⟨_, hdirect, h⟩
    obtain ⟨discovered, hdiscovered, h⟩ := Except.bind_eq_ok.mp h
    obtain ⟨_, hsame, h⟩ := Except.bind_eq_ok.mp h
    have hsame := Except.rejectIf_eq_ok.mp hsame
    rw [decide_eq_false_iff_not, not_not, Finset.ext_iff] at hsame
    simp only [List.mem_toFinset, hactual hdiscovered, mem_expectedShards hsorted] at hsame
    refine ⟨validateDirectAuthLayout_eq_ok.mp hdirect, ?_, ?_,
      (hpaths _ (fun _ hnone => by simp only [hnone]) fun _ _ hsome => by simp only [hsome]).mp h⟩
    · intro name bytes hget
      exact (discoverShards_eq_ok hdiscovered).2 name (Disk.mem_shardNames.mpr ⟨bytes, hget⟩)
    · intro name
      simpa using hsame (.shard name)
  · intro h
    have hnamed : ∀ name ∈ d.shardNames, validateShardName name = .ok () := by
      intro name hname
      obtain ⟨bytes, hget⟩ := Disk.mem_shardNames.mp hname
      exact h.named name bytes hget
    obtain ⟨discovered, hdiscovered⟩ := exists_discoverShards hnamed
    refine ⟨(), validateDirectAuthLayout_eq_ok.mpr h.direct,
      Except.bind_eq_ok.mpr ⟨discovered, hdiscovered,
        Except.bind_eq_ok.mpr ⟨⟨⟩, Except.rejectIf_eq_ok.mpr ?_,
          (hpaths _ (fun _ hnone => by simp only [hnone])
            fun _ _ hsome => by simp only [hsome]).mpr h.snapshots⟩⟩⟩
    rw [decide_eq_false_iff_not, not_not]
    ext source
    simp only [List.mem_toFinset, hactual hdiscovered, mem_expectedShards hsorted]
    cases source with
    | main => simp
    | shard name => simpa using h.shards name

/-! ## The invariant -/

/-- The accounts of a source, in memory. -/
def owned (st : AuthStore ρ) (source : AuthSource) : List (AccountConfig ρ) :=
  st.accounts.filter fun account => st.accountSource account.id = some source

theorem mem_owned :
    a ∈ st.owned source ↔ a ∈ st.accounts ∧ st.accountSource a.id = some source := by
  rw [owned, List.mem_filter, decide_eq_true_eq]

/-- A snapshot of a source, and the fingerprints of the accounts in it. -/
def Recorded (y : Yaml ρ) (source : AuthSource) (snapshot : SourceSnapshot)
    (baseline : SourceBaseline) : Prop :=
  ∃ accounts, readAccounts y source snapshot = .ok accounts ∧
    accountFingerprints y accounts = .ok baseline

/-- A source whose file has a name that the store reads. -/
def Named : AuthSource → Prop
  | .main => True
  | .shard name => validateShardName name = .ok ()

/-- **The invariant of the store.** -/
structure Consistent (y : Yaml ρ) (st : AuthStore ρ) : Prop where
  ids : (st.accounts.map AccountConfig.id).Nodup
  known : ∀ a ∈ st.accounts, ∃ source, st.accountSource a.id = some source ∧
    st.sourcePaths.get source = some source
  account : ∀ id source, st.accountSource id = some source → ∃ a ∈ st.accounts, a.id = id
  path : ∀ source path, st.sourcePaths.get source = some path → path = source ∧ Named source
  recorded : ∀ source path, st.sourcePaths.get source = some path → ∃ snapshot baseline,
    st.sourceSnapshots.get source = some snapshot ∧
      st.sourceBaselines.get source = some baseline ∧ Recorded y source snapshot baseline
  snapshot : ∀ source snapshot, st.sourceSnapshots.get source = some snapshot →
    st.sourcePaths.get source = some source
  baseline : ∀ source baseline, st.sourceBaselines.get source = some baseline →
    st.sourcePaths.get source = some source
  paths : BTreeMap.Sorted st.sourcePaths
  snapshots : BTreeMap.Sorted st.sourceSnapshots

/-- The baselines are those of the accounts that are in memory now. -/
def Clean (y : Yaml ρ) (st : AuthStore ρ) : Prop :=
  ∀ source, accountFingerprints y (st.owned source) =
    .ok ((st.sourceBaselines.get source).getD [])

theorem nodup_owned (h : Consistent y st) (source : AuthSource) :
    ((st.owned source).map AccountConfig.id).Nodup :=
  h.ids.sublist (List.filter_sublist.map _)

theorem owned_eq_nil (h : Consistent y st) (hunknown : st.sourcePaths.get source = none) :
    st.owned source = [] := by
  rw [owned, List.filter_eq_nil_iff]
  intro a ha howner
  obtain ⟨s, hs, hpath⟩ := h.known a ha
  rw [decide_eq_true_eq, hs, Option.some.injEq] at howner
  rw [howner, hunknown] at hpath
  cases hpath

/-! ## Loading -/

/-- The store with the accounts of one more source. -/
def withAccounts (st : AuthStore ρ) (source : AuthSource) (accounts : List (AccountConfig ρ)) :
    AuthStore ρ :=
  { st with
    accounts := st.accounts ++ accounts
    accountSources := accounts.foldl (fun m a => m.insert a.id source) st.accountSources }

theorem accountSource_withAccounts (st : AuthStore ρ) (source : AuthSource)
    (accounts : List (AccountConfig ρ)) (id : String) :
    (st.withAccounts source accounts).accountSource id =
      if ∃ a ∈ accounts, a.id = id then some source else st.accountSource id := by
  show BTreeMap.get (accounts.foldl (fun m a => BTreeMap.insert m a.id source) st.accountSources)
    id = if _ then _ else st.accountSources.get id
  induction accounts using List.reverseRecOn with
  | nil => simp
  | append_singleton is a ih =>
    rw [List.foldl_concat, get_insert, ih]
    by_cases hid : id = a.id
    · rw [if_pos hid, if_pos ⟨a, List.mem_append_right _ (List.mem_singleton_self a), hid.symm⟩]
    · have hsame : (∃ b ∈ is ++ [a], b.id = id) ↔ ∃ b ∈ is, b.id = id := by
        simp [or_and_right, exists_or, Ne.symm hid]
      rw [if_neg hid]
      simp only [hsame]

theorem loadAccount_eq_ok :
    loadAccount source path st a = .ok st' ↔
      st.accountSource a.id = none ∧ st' = st.withAccounts source [a] := by
  rw [loadAccount, accountSource]
  cases hget : st.accountSources.get a.id with
  | none =>
    rw [Except.ok.injEq, eq_comm]
    exact ⟨fun h => ⟨rfl, h⟩, fun h => h.2⟩
  | some previous =>
    refine ⟨fun h => ?_, fun h => (by cases h.1)⟩
    obtain ⟨_, -, h⟩ := Except.bind_eq_ok.mp h
    cases h

theorem loadAccounts_eq_ok (hnodup : (accounts.map AccountConfig.id).Nodup) :
    accounts.foldlM (loadAccount source path) st = .ok st' ↔
      (∀ a ∈ accounts, st.accountSource a.id = none) ∧ st' = st.withAccounts source accounts := by
  induction accounts using List.reverseRecOn generalizing st' with
  | nil =>
    have hnone : st.withAccounts source [] = st := by simp [withAccounts]
    rw [hnone]
    constructor
    · intro h
      cases h
      exact ⟨fun a ha => (by cases ha), rfl⟩
    · rintro ⟨-, rfl⟩
      rfl
  | append_singleton is a ih =>
    rw [List.map_append, List.nodup_append] at hnodup
    have hfresh : ¬ ∃ b ∈ is, b.id = a.id := by
      rintro ⟨b, hb, hid⟩
      exact hnodup.2.2 b.id (List.mem_map_of_mem hb) a.id (List.mem_singleton_self _) hid
    have hboth : (st.withAccounts source is).withAccounts source [a] =
        st.withAccounts source (is ++ [a]) := by
      simp [withAccounts]
    rw [foldlM_concat]
    constructor
    · rintro ⟨st₁, h₁, h⟩
      obtain ⟨hnone, rfl⟩ := (ih hnodup.1).mp h₁
      obtain ⟨ha, rfl⟩ := loadAccount_eq_ok.mp h
      rw [accountSource_withAccounts, if_neg hfresh] at ha
      refine ⟨?_, hboth⟩
      intro b hb
      rcases List.mem_append.mp hb with hb | hb
      · exact hnone b hb
      · rw [List.mem_singleton.mp hb]
        exact ha
    · rintro ⟨hnone, rfl⟩
      refine ⟨_, (ih hnodup.1).mpr ⟨fun b hb => hnone b (List.mem_append_left _ hb), rfl⟩,
        loadAccount_eq_ok.mpr ⟨?_, hboth.symm⟩⟩
      rw [accountSource_withAccounts, if_neg hfresh]
      exact hnone a (List.mem_append_right _ (List.mem_singleton_self a))

/-- What is read of a source. -/
structure Reads (y : Yaml ρ) (d : Disk) (path : PathBuf) (snapshot : SourceSnapshot)
    (accounts : List (AccountConfig ρ)) (baseline : SourceBaseline) : Prop where
  capture : SourceSnapshot.capture d path = .ok snapshot
  read : readAccounts y path snapshot = .ok accounts
  fingerprints : accountFingerprints y accounts = .ok baseline

/-- The store after a source was read. -/
def loaded (st : AuthStore ρ) (source : AuthSource) (path : PathBuf) (snapshot : SourceSnapshot)
    (accounts : List (AccountConfig ρ)) (baseline : SourceBaseline) : AuthStore ρ :=
  { st.withAccounts source accounts with
    sourcePaths := st.sourcePaths.insert source path
    sourceBaselines := st.sourceBaselines.insert source baseline
    sourceSnapshots := st.sourceSnapshots.insert source snapshot }

theorem loadSource_eq_ok :
    loadSource y d st source path = .ok st' ↔
      ∃ snapshot accounts baseline, Reads y d path snapshot accounts baseline ∧
        (∀ a ∈ accounts, st.accountSource a.id = none) ∧
        st' = st.loaded source path snapshot accounts baseline := by
  rw [loadSource]
  constructor
  · intro h
    obtain ⟨snapshot, hsnapshot, h⟩ := Except.bind_eq_ok.mp h
    obtain ⟨accounts, haccounts, h⟩ := Except.bind_eq_ok.mp h
    obtain ⟨baseline, hbaseline, h⟩ := Except.bind_eq_ok.mp h
    obtain ⟨st₁, h₁, h⟩ := Except.bind_eq_ok.mp h
    obtain ⟨hnone, rfl⟩ := (loadAccounts_eq_ok (accountFingerprints_eq_ok hbaseline).1).mp h₁
    cases h
    exact ⟨snapshot, accounts, baseline, ⟨hsnapshot, haccounts, hbaseline⟩, hnone, rfl⟩
  · rintro ⟨snapshot, accounts, baseline, ⟨hsnapshot, haccounts, hbaseline⟩, hnone, rfl⟩
    let st₁ : AuthStore ρ := { st with sourcePaths := st.sourcePaths.insert source path }
    have hfold : accounts.foldlM (loadAccount source path) st₁ =
        .ok (st₁.withAccounts source accounts) :=
      (loadAccounts_eq_ok (accountFingerprints_eq_ok hbaseline).1).mpr ⟨hnone, rfl⟩
    exact Except.bind_eq_ok.mpr ⟨snapshot, hsnapshot, Except.bind_eq_ok.mpr ⟨accounts, haccounts,
      Except.bind_eq_ok.mpr ⟨baseline, hbaseline, Except.bind_eq_ok.mpr ⟨_, hfold, rfl⟩⟩⟩⟩

theorem consistent_empty : Consistent y (empty : AuthStore ρ) where
  ids := List.nodup_nil
  known := fun a ha => by cases ha
  account := fun id source h => by cases h
  path := fun source path h => by cases h
  recorded := fun source path h => by cases h
  snapshot := fun source snapshot h => by cases h
  baseline := fun source baseline h => by cases h
  paths := sorted_nil
  snapshots := sorted_nil

theorem consistent_loaded (h : Consistent y st)
    (hreads : Reads y d source snapshot accounts baseline)
    (hnone : ∀ a ∈ accounts, st.accountSource a.id = none) (hnamed : Named source) :
    Consistent y (st.loaded source source snapshot accounts baseline) := by
  have hids := (accountFingerprints_eq_ok hreads.fingerprints).1
  have hpaths : ∀ s p, (st.sourcePaths.insert source source).get s = some p →
      p = s ∧ (s = source ∨ st.sourcePaths.get s = some s) := by
    intro s p hp
    rw [get_insert] at hp
    split_ifs at hp with hs
    · cases hp
      exact ⟨hs.symm, Or.inl hs⟩
    · obtain ⟨rfl, -⟩ := h.path s p hp
      exact ⟨rfl, Or.inr hp⟩
  have hknown : ∀ s, s = source ∨ st.sourcePaths.get s = some s →
      (st.sourcePaths.insert source source).get s = some s := by
    intro s hs
    rw [get_insert]
    split_ifs with heq
    · rw [heq]
    · exact hs.resolve_left heq
  refine ⟨?_, ?_, ?_, ?_, ?_, ?_, ?_, h.paths.insert _ _, h.snapshots.insert _ _⟩
  · show ((st.accounts ++ accounts).map AccountConfig.id).Nodup
    rw [List.map_append, List.nodup_append]
    refine ⟨h.ids, hids, ?_⟩
    intro id hid id' hid' heq
    obtain ⟨a, ha, rfl⟩ := List.mem_map.mp hid
    obtain ⟨b, hb, rfl⟩ := List.mem_map.mp hid'
    obtain ⟨s, hs, -⟩ := h.known a ha
    rw [heq, hnone b hb] at hs
    cases hs
  · intro a ha
    rw [show (st.loaded source source snapshot accounts baseline).accountSource a.id = _ from
      accountSource_withAccounts st source accounts a.id]
    split_ifs with hin
    · exact ⟨source, rfl, hknown source (Or.inl rfl)⟩
    · rcases List.mem_append.mp ha with ha | ha
      · obtain ⟨s, hs, hpath⟩ := h.known a ha
        exact ⟨s, hs, hknown s (Or.inr hpath)⟩
      · exact absurd ⟨a, ha, rfl⟩ hin
  · intro id s hs
    rw [show (st.loaded source source snapshot accounts baseline).accountSource id = _ from
      accountSource_withAccounts st source accounts id] at hs
    split_ifs at hs with hin
    · obtain ⟨a, ha, hid⟩ := hin
      exact ⟨a, List.mem_append_right _ ha, hid⟩
    · obtain ⟨a, ha, hid⟩ := h.account id s hs
      exact ⟨a, List.mem_append_left _ ha, hid⟩
  · intro s p hp
    obtain ⟨rfl, hs⟩ := hpaths s p hp
    refine ⟨rfl, ?_⟩
    rcases hs with rfl | hs
    · exact hnamed
    · exact (h.path _ _ hs).2
  · intro s p hp
    obtain ⟨rfl, hs⟩ := hpaths s p hp
    show ∃ snapshot' baseline', (st.sourceSnapshots.insert source snapshot).get p = _ ∧
      (st.sourceBaselines.insert source baseline).get p = _ ∧ _
    rw [get_insert, get_insert]
    split_ifs with heq
    · exact ⟨snapshot, baseline, rfl, rfl, accounts, heq ▸ hreads.read, hreads.fingerprints⟩
    · exact h.recorded _ _ (hs.resolve_left heq)
  · intro s snapshot' hs
    refine hknown s ?_
    rw [show (st.loaded source source snapshot accounts baseline).sourceSnapshots =
      st.sourceSnapshots.insert source snapshot from rfl, get_insert] at hs
    split_ifs at hs with heq
    · exact Or.inl heq
    · exact Or.inr (h.snapshot s snapshot' hs)
  · intro s baseline' hs
    refine hknown s ?_
    rw [show (st.loaded source source snapshot accounts baseline).sourceBaselines =
      st.sourceBaselines.insert source baseline from rfl, get_insert] at hs
    split_ifs at hs with heq
    · exact Or.inl heq
    · exact Or.inr (h.baseline s baseline' hs)

/-- A source that is read owns its accounts, and the others own what they did. -/
theorem owned_loaded (h : Consistent y st) (hunknown : st.sourcePaths.get source = none)
    (hnone : ∀ a ∈ accounts, st.accountSource a.id = none) (path : PathBuf)
    (snapshot : SourceSnapshot) (baseline : SourceBaseline) (s : AuthSource) :
    (st.loaded source path snapshot accounts baseline).owned s =
      if s = source then accounts else st.owned s := by
  have hsource : ∀ id, (st.loaded source path snapshot accounts baseline).accountSource id =
      if ∃ a ∈ accounts, a.id = id then some source else st.accountSource id :=
    accountSource_withAccounts st source accounts
  have hold : ∀ a ∈ st.accounts, ¬ ∃ b ∈ accounts, b.id = a.id := by
    rintro a ha ⟨b, hb, hid⟩
    obtain ⟨t, ht, -⟩ := h.known a ha
    rw [← hid, hnone b hb] at ht
    cases ht
  have hfst : (st.accounts.filter fun a => decide
      ((st.loaded source path snapshot accounts baseline).accountSource a.id = some s)) =
        st.owned s := by
    refine List.filter_congr fun a ha => ?_
    rw [hsource, if_neg (hold a ha)]
  have hsnd : (accounts.filter fun a => decide
      ((st.loaded source path snapshot accounts baseline).accountSource a.id = some s)) =
        if s = source then accounts else [] := by
    split_ifs with hs
    · rw [List.filter_eq_self]
      intro a ha
      rw [hsource, if_pos ⟨a, ha, rfl⟩, hs, decide_eq_true_eq]
    · rw [List.filter_eq_nil_iff]
      intro a ha
      rw [hsource, if_pos ⟨a, ha, rfl⟩, decide_eq_true_eq, Option.some.injEq]
      exact Ne.symm hs
  show List.filter _ (st.accounts ++ accounts) = _
  rw [List.filter_append, hfst, hsnd]
  split_ifs with hs
  · rw [hs, owned_eq_nil h hunknown, List.nil_append]
  · rw [List.append_nil]

theorem clean_loaded (h : Consistent y st) (hclean : Clean y st)
    (hunknown : st.sourcePaths.get source = none)
    (hreads : Reads y d source snapshot accounts baseline)
    (hnone : ∀ a ∈ accounts, st.accountSource a.id = none) :
    Clean y (st.loaded source source snapshot accounts baseline) := by
  intro s
  rw [owned_loaded h hunknown hnone, show (st.loaded source source snapshot accounts
    baseline).sourceBaselines = st.sourceBaselines.insert source baseline from rfl,
    get_insert]
  split_ifs with hs
  · exact hreads.fingerprints
  · exact hclean s

/-- What holds while the sources are read one after another. -/
structure Loading (y : Yaml ρ) (sources : List AuthSource) (st : AuthStore ρ) : Prop where
  consistent : Consistent y st
  clean : Clean y st
  read : ∀ source, st.sourcePaths.get source = none ↔ source ∉ sources

theorem Loading.loadSource (h : Loading y sources st) (hnew : source ∉ sources)
    (hnamed : Named source) (hload : loadSource y d st source source = .ok st') :
    Loading y (sources ++ [source]) st' := by
  obtain ⟨snapshot, accounts, baseline, hreads, hnone, rfl⟩ := loadSource_eq_ok.mp hload
  refine ⟨consistent_loaded h.consistent hreads hnone hnamed,
    clean_loaded h.consistent h.clean ((h.read source).mpr hnew) hreads hnone, ?_⟩
  intro s
  show (st.sourcePaths.insert source source).get s = none ↔ _
  rw [get_insert, List.mem_append, List.mem_singleton, not_or, ← h.read s]
  split_ifs with hs
  · simp [hs]
  · simp [hs]

theorem loading_nil : Loading y [] (empty : AuthStore ρ) :=
  ⟨consistent_empty, fun _ => rfl, fun _ => ⟨fun _ h => (by cases h), fun _ => rfl⟩⟩

/-- The shards in the order in which they are read: each is there once, at its own path. -/
theorem discovered (h : discoverShards d = .ok shards) :
    (AuthSource.main :: shards.map Prod.fst).Nodup ∧
      ∀ e ∈ shards, e.2 = e.1 ∧ Named e.1 := by
  obtain ⟨hperm, hvalid⟩ := discoverShards_eq_ok h
  have hmem : ∀ e ∈ shards, ∃ name ∈ d.shardNames, e = (.shard name, .shard name) := by
    intro e he
    obtain ⟨name, hname, heq⟩ := List.mem_map.mp (hperm.mem_iff.mp he)
    exact ⟨name, hname, heq.symm⟩
  refine ⟨List.nodup_cons.mpr ⟨?_, ?_⟩, ?_⟩
  · intro hmain
    obtain ⟨e, he, hfst⟩ := List.mem_map.mp hmain
    obtain ⟨name, -, rfl⟩ := hmem e he
    cases hfst
  · rw [(hperm.map Prod.fst).nodup_iff, List.map_map]
    exact d.nodup_shardNames.map fun a b hab => AuthSource.shard.inj hab
  · intro e he
    obtain ⟨name, hname, rfl⟩ := hmem e he
    exact ⟨rfl, hvalid name hname⟩

/-- **A store that was loaded is consistent, and there is nothing to save.** -/
theorem loading_of_load (h : load y d = .ok st) : ∃ sources, Loading y (.main :: sources) st := by
  obtain ⟨st₁, hmain, h⟩ := Except.bind_eq_ok.mp h
  obtain ⟨shards, hshards, h⟩ := Except.bind_eq_ok.mp h
  obtain ⟨hnodup, hown⟩ := discovered hshards
  refine ⟨shards.map Prod.fst, ?_⟩
  refine Except.foldlM_induction (P := fun is st =>
    (AuthSource.main :: is.map Prod.fst).Nodup → (∀ e ∈ is, e.2 = e.1 ∧ Named e.1) →
      Loading y (.main :: is.map Prod.fst) st) ?_ ?_ h hnodup hown
  · intro _ _
    exact loading_nil.loadSource List.not_mem_nil trivial hmain
  · intro is e st st' _ ih hstep hnodup hown
    obtain ⟨hpath, hnamed⟩ := hown e (List.mem_append_right _ (List.mem_singleton_self e))
    rw [List.map_append, ← List.cons_append, List.nodup_append] at hnodup
    have hnew : e.1 ∉ AuthSource.main :: is.map Prod.fst :=
      fun hmem => hnodup.2.2 e.1 hmem e.1 (List.mem_singleton_self _) rfl
    rw [hpath] at hstep
    rw [List.map_append, ← List.cons_append]
    exact (ih hnodup.1 fun e' he' => hown e' (List.mem_append_left _ he')).loadSource hnew hnamed
      hstep

/-! ## What the files hold -/

/-- The accounts in the file of a source. -/
def stored (y : Yaml ρ) (d : Disk) (source : AuthSource) : List (AccountConfig ρ) :=
  (SourceSnapshot.capture d source >>= readAccounts y source).toOption.getD []

/-- The file of the source has an account with the id. -/
def Holds (y : Yaml ρ) (d : Disk) (source : AuthSource) (id : String) : Prop :=
  ∃ a ∈ stored y d source, a.id = id

/-- No id occurs in two sources. -/
def Distinct (y : Yaml ρ) (d : Disk) : Prop :=
  ∀ id s t, Holds y d s id → Holds y d t id → s = t

theorem stored_of_reads (h : Reads y d source snapshot accounts baseline) :
    stored y d source = accounts := by
  have hread : (SourceSnapshot.capture d source >>= readAccounts y source) = .ok accounts :=
    Except.bind_eq_ok.mpr ⟨snapshot, h.capture, h.read⟩
  rw [stored, hread]
  rfl

theorem stored_congr {d' : Disk} (h : d.get source = d'.get source) :
    stored y d source = stored y d' source := by
  rw [stored, stored, SourceSnapshot.capture, SourceSnapshot.capture, h]

/-- The file of a known source is the one whose fingerprints are remembered. -/
theorem reads_of_validated (h : Consistent y st) (hvalid : Validated d st)
    (hknown : st.sourcePaths.get source = some source) :
    ∃ snapshot baseline, Reads y d source snapshot (stored y d source) baseline ∧
      st.sourceBaselines.get source = some baseline := by
  obtain ⟨snapshot, baseline, hsnapshot, hbaseline, accounts, hread, hprints⟩ :=
    h.recorded source source hknown
  obtain ⟨snapshot', hsnapshot', hcapture⟩ :=
    hvalid.snapshots source source (BTreeMap.mem_of_get hknown)
  rw [hsnapshot] at hsnapshot'
  cases hsnapshot'
  have hreads : Reads y d source snapshot accounts baseline := ⟨hcapture, hread, hprints⟩
  exact ⟨snapshot, baseline, stored_of_reads hreads ▸ hreads, hbaseline⟩

/-- A shard without a file holds nothing. -/
theorem stored_of_absent (hdirect : ∀ path target, d.get path ≠ some (.symlink target))
    (h : ∀ bytes, d.get source ≠ some (.file bytes)) : stored y d source = [] := by
  rw [stored, SourceSnapshot.capture]
  cases hget : d.get source with
  | none => rfl
  | some entry =>
    cases entry with
    | file bytes => exact absurd hget (h bytes)
    | symlink target => exact absurd hget (hdirect source target)
    | directory => rfl

/-- A source that is not known has no file. -/
theorem stored_of_unknown (h : Consistent y st) (hmain : st.sourcePaths.get .main = some .main)
    (hvalid : Validated d st) (hunknown : st.sourcePaths.get source = none) :
    stored y d source = [] := by
  refine stored_of_absent hvalid.direct fun bytes hbytes => ?_
  cases source with
  | main =>
    rw [hmain] at hunknown
    cases hunknown
  | shard name =>
    obtain ⟨bytes', hbytes'⟩ := (hvalid.shards name).mp ⟨bytes, hbytes⟩
    rw [h.snapshot _ _ hbytes'] at hunknown
    cases hunknown

theorem mem_discovered (h : discoverShards d = .ok shards) (source : AuthSource) :
    source ∈ shards.map Prod.fst ↔
      ∃ name bytes, source = .shard name ∧ d.get source = some (.file bytes) := by
  rw [((discoverShards_eq_ok h).1.map Prod.fst).mem_iff, List.map_map, List.mem_map]
  simp only [Disk.mem_shardNames]
  constructor
  · rintro ⟨name, ⟨bytes, hbytes⟩, rfl⟩
    exact ⟨name, bytes, rfl, hbytes⟩
  · rintro ⟨name, bytes, rfl, hbytes⟩
    exact ⟨name, ⟨bytes, hbytes⟩, rfl⟩

/-- Only the sources that are read hold anything. -/
theorem mem_sources_of_holds (hdirect : ∀ path target, d.get path ≠ some (.symlink target))
    (hshards : discoverShards d = .ok shards) (ha : a ∈ stored y d source) :
    source ∈ AuthSource.main :: shards.map Prod.fst := by
  cases source with
  | main => exact List.mem_cons_self
  | shard name =>
    refine List.mem_cons_of_mem _ ((mem_discovered hshards _).mpr ?_)
    by_contra hnot
    have habsent : ∀ bytes, d.get (.shard name) ≠ some (.file bytes) :=
      fun bytes hbytes => hnot ⟨name, bytes, rfl, hbytes⟩
    rw [stored_of_absent hdirect habsent] at ha
    cases ha

theorem load_eq (hshards : discoverShards d = .ok shards) :
    load y d = (AuthSource.main :: shards.map Prod.fst).foldlM
      (fun st s => loadSource y d st s s) (empty : AuthStore ρ) := by
  obtain ⟨-, hown⟩ := discovered hshards
  have hfold : ∀ (l : List (AuthSource × PathBuf)) (st : AuthStore ρ), (∀ e ∈ l, e.2 = e.1) →
      l.foldlM (fun st shard => loadSource y d st shard.1 shard.2) st =
        (l.map Prod.fst).foldlM (fun st s => loadSource y d st s s) st := by
    intro l st hl
    rw [List.foldlM_map]
    induction l generalizing st with
    | nil => rfl
    | cons e l ih =>
      rw [List.foldlM_cons, List.foldlM_cons, hl e List.mem_cons_self]
      exact bind_congr fun st => ih st fun e' he' => hl e' (List.mem_cons_of_mem _ he')
  rw [load, hshards, List.foldlM_cons]
  exact bind_congr fun st => hfold shards st fun e he => (hown e he).1

/-- What reading the sources one after another has found out. -/
theorem loadSources_spec
    (hload : sources.foldlM (fun st s => loadSource y d st s s) (empty : AuthStore ρ) = .ok st) :
    (∀ a, a ∈ st.accounts ↔ ∃ s ∈ sources, a ∈ stored y d s) ∧
      (sources.Nodup →
        ∀ id s, st.accountSource id = some s ↔ s ∈ sources ∧ Holds y d s id) := by
  induction sources using List.reverseRecOn generalizing st with
  | nil =>
    cases hload
    exact ⟨fun a => by simp [empty], fun _ id s => by simp [accountSource, empty]⟩
  | append_singleton is source ih =>
    obtain ⟨st₁, h₁, hlast⟩ := foldlM_concat.mp hload
    obtain ⟨snapshot, accounts, baseline, hreads, hnone, rfl⟩ := loadSource_eq_ok.mp hlast
    obtain ⟨haccounts, hsources⟩ := ih h₁
    have hstored := stored_of_reads hreads
    refine ⟨fun a => ?_, fun hnodup id s => ?_⟩
    · show a ∈ st₁.accounts ++ accounts ↔ _
      rw [List.mem_append, haccounts, ← hstored]
      simp [or_and_right, exists_or]
    · rw [List.nodup_append] at hnodup
      have hsources := hsources hnodup.1
      rw [show (st₁.loaded source source snapshot accounts baseline).accountSource id = _
        from accountSource_withAccounts st₁ source accounts id]
      have hin : (∃ a ∈ accounts, a.id = id) ↔ Holds y d source id := by rw [Holds, hstored]
      simp only [hin, List.mem_append, List.mem_singleton]
      by_cases hholds : Holds y d source id
      · rw [if_pos (hin.mpr hholds), Option.some.injEq]
        constructor
        · rintro rfl
          exact ⟨Or.inr rfl, hholds⟩
        · rintro ⟨hs | rfl, hs'⟩
          · obtain ⟨a, ha, rfl⟩ := hin.mpr hholds
            have hold := (hsources a.id s).mpr ⟨hs, hs'⟩
            rw [hnone a ha] at hold
            cases hold
          · rfl
      · rw [if_neg (mt hin.mp hholds), hsources]
        constructor
        · exact fun h => ⟨Or.inl h.1, h.2⟩
        · rintro ⟨hs | rfl, h⟩
          · exact ⟨hs, h⟩
          · exact absurd h hholds

/-- Sources without a common id can be read one after another. -/
theorem exists_loadSources
    (hreads : ∀ s ∈ sources, ∃ snapshot baseline, Reads y d s snapshot (stored y d s) baseline)
    (hnodup : sources.Nodup) (hdistinct : Distinct y d) :
    ∃ st, sources.foldlM (fun st s => loadSource y d st s s) (empty : AuthStore ρ) = .ok st := by
  induction sources using List.reverseRecOn with
  | nil => exact ⟨empty, rfl⟩
  | append_singleton is source ih =>
    rw [List.nodup_append] at hnodup
    obtain ⟨st, hst⟩ := ih (fun s hs => hreads s (List.mem_append_left _ hs)) hnodup.1
    have hlast : source ∈ is ++ [source] := List.mem_append_right _ (List.mem_singleton_self _)
    obtain ⟨snapshot, baseline, hread⟩ := hreads source hlast
    have hnone : ∀ a ∈ stored y d source, st.accountSource a.id = none := by
      intro a ha
      cases hs : st.accountSource a.id with
      | none => rfl
      | some s =>
        obtain ⟨hmem, hholds⟩ := ((loadSources_spec hst).2 hnodup.1 a.id s).mp hs
        have heq := hdistinct a.id s source hholds ⟨a, ha, rfl⟩
        exact absurd heq (hnodup.2.2 s hmem source (List.mem_singleton_self _))
    exact ⟨_, foldlM_concat.mpr ⟨st, hst,
      loadSource_eq_ok.mpr ⟨snapshot, _, baseline, hread, hnone, rfl⟩⟩⟩

/-- **What a load finds** in files without links. -/
theorem load_spec (hdirect : ∀ path target, d.get path ≠ some (.symlink target))
    (hload : load y d = .ok st) :
    (∀ a, a ∈ st.accounts ↔ ∃ s, a ∈ stored y d s) ∧
      ∀ id s, st.accountSource id = some s ↔ Holds y d s id := by
  obtain ⟨_, -, h⟩ := Except.bind_eq_ok.mp hload
  obtain ⟨shards, hshards, -⟩ := Except.bind_eq_ok.mp h
  rw [load_eq hshards] at hload
  obtain ⟨haccounts, hsources⟩ := loadSources_spec hload
  refine ⟨fun a => ?_, fun id s => ?_⟩
  · rw [haccounts]
    exact exists_congr fun s => and_iff_right_of_imp (mem_sources_of_holds hdirect hshards)
  · rw [hsources (discovered hshards).1]
    refine and_iff_right_of_imp ?_
    rintro ⟨a, ha, -⟩
    exact mem_sources_of_holds hdirect hshards ha

/-- **Files that are as the snapshots say can be loaded**, if no id is in two of them. -/
theorem exists_load_of_distinct (h : Consistent y st)
    (hmain : st.sourcePaths.get .main = some .main) (hvalid : Validated d st)
    (hdistinct : Distinct y d) : ∃ st', load y d = .ok st' := by
  have hnamed : ∀ name ∈ d.shardNames, validateShardName name = .ok () := by
    intro name hname
    obtain ⟨bytes, hget⟩ := Disk.mem_shardNames.mp hname
    exact hvalid.named name bytes hget
  obtain ⟨shards, hshards⟩ := exists_discoverShards hnamed
  have hknown : ∀ s ∈ AuthSource.main :: shards.map Prod.fst, st.sourcePaths.get s = some s := by
    intro s hs
    rcases List.mem_cons.mp hs with rfl | hs
    · exact hmain
    · obtain ⟨name, bytes, rfl, hbytes⟩ := (mem_discovered hshards s).mp hs
      obtain ⟨bytes', hbytes'⟩ := (hvalid.shards name).mp ⟨bytes, hbytes⟩
      exact h.snapshot _ _ hbytes'
  have hreads : ∀ s ∈ AuthSource.main :: shards.map Prod.fst, ∃ snapshot baseline,
      Reads y d s snapshot (stored y d s) baseline := by
    intro s hs
    obtain ⟨snapshot, baseline, hreads, -⟩ := reads_of_validated h hvalid (hknown s hs)
    exact ⟨snapshot, baseline, hreads⟩
  obtain ⟨st', hload⟩ := exists_loadSources hreads (discovered hshards).1 hdistinct
  exact ⟨st', (load_eq hshards).trans hload⟩

/-- In a clean store the files hold the accounts that are in memory. -/
theorem mem_stored_of_clean {read : String → Except AuthError (AccountConfig ρ)}
    (hy : y.RoundTrips read) (h : Consistent y st) (hclean : Clean y st)
    (hmain : st.sourcePaths.get .main = some .main) (hvalid : Validated d st) (source : AuthSource)
    (a : AccountConfig ρ) : a ∈ stored y d source ↔ a ∈ st.owned source := by
  cases hknown : st.sourcePaths.get source with
  | some path =>
    obtain ⟨rfl, -⟩ := h.path source path hknown
    obtain ⟨snapshot, baseline, hreads, hbaseline⟩ := reads_of_validated h hvalid hknown
    have howned := hclean path
    rw [hbaseline] at howned
    exact mem_iff_of_fingerprints hy hreads.fingerprints howned a
  | none => rw [stored_of_unknown h hmain hvalid hknown, owned_eq_nil h hknown]

/-- **Loading the files of a consistent and clean store gives its accounts.** -/
theorem exists_load {read : String → Except AuthError (AccountConfig ρ)} (hy : y.RoundTrips read)
    (h : Consistent y st) (hclean : Clean y st) (hmain : st.sourcePaths.get .main = some .main)
    (hvalid : Validated d st) :
    ∃ st', load y d = .ok st' ∧ (∀ a, a ∈ st'.accounts ↔ a ∈ st.accounts) ∧
      ∀ id, st'.accountSource id = st.accountSource id := by
  have hstored := mem_stored_of_clean hy h hclean hmain hvalid
  have hholds : ∀ id s, Holds y d s id ↔ st.accountSource id = some s := by
    intro id s
    rw [Holds]
    simp only [hstored, mem_owned]
    constructor
    · rintro ⟨a, ⟨-, hs⟩, rfl⟩
      exact hs
    · intro hs
      obtain ⟨a, ha, rfl⟩ := h.account id s hs
      exact ⟨a, ⟨ha, hs⟩, rfl⟩
  have hdistinct : Distinct y d := by
    intro id s t hs ht
    rw [hholds] at hs ht
    exact Option.some.inj (hs.symm.trans ht)
  obtain ⟨st', hload⟩ := exists_load_of_distinct h hmain hvalid hdistinct
  obtain ⟨haccounts, hsources⟩ := load_spec hvalid.direct hload
  refine ⟨st', hload, fun a => ?_, fun id => Option.ext fun s => (hsources id s).trans (hholds id s)⟩
  rw [haccounts]
  simp only [hstored, mem_owned]
  constructor
  · rintro ⟨s, ha, -⟩
    exact ha
  · intro ha
    obtain ⟨s, hs, -⟩ := h.known a ha
    exact ⟨s, ha, hs⟩

/-! ## Edits -/

theorem map_id_replaceOrPush (accounts : List (AccountConfig ρ)) (a : AccountConfig ρ) :
    (replaceOrPush accounts a).map AccountConfig.id =
      if a.id ∈ accounts.map AccountConfig.id then accounts.map AccountConfig.id
      else accounts.map AccountConfig.id ++ [a.id] := by
  induction accounts with
  | nil => rfl
  | cons b bs ih =>
    rw [replaceOrPush]
    by_cases hid : b.id = a.id
    · rw [if_pos hid, List.map_cons, List.map_cons, ← hid, if_pos List.mem_cons_self]
    · rw [if_neg hid, List.map_cons, List.map_cons, ih]
      simp only [List.mem_cons, Ne.symm hid, false_or]
      split_ifs <;> rfl

theorem map_id_editFirst (accounts : List (AccountConfig ρ)) (id : String) (f : ρ → ρ) :
    (editFirst accounts id f).map AccountConfig.id = accounts.map AccountConfig.id := by
  induction accounts with
  | nil => rfl
  | cons b bs ih =>
    rw [editFirst]
    split_ifs
    · rfl
    · rw [List.map_cons, List.map_cons, ih]

/-- The invariant depends on the ids of the accounts only. -/
theorem Consistent.of_ids (h : Consistent y st) (hids : (st'.accounts.map AccountConfig.id).Nodup)
    (hknown : ∀ id ∈ st'.accounts.map AccountConfig.id, ∃ source,
      st'.accountSource id = some source ∧ st.sourcePaths.get source = some source)
    (haccount : ∀ id source, st'.accountSource id = some source →
      id ∈ st'.accounts.map AccountConfig.id) (hpaths : st'.sourcePaths = st.sourcePaths)
    (hbaselines : st'.sourceBaselines = st.sourceBaselines)
    (hsnapshots : st'.sourceSnapshots = st.sourceSnapshots) : Consistent y st' where
  ids := hids
  known := fun a ha => by
    rw [hpaths]
    exact hknown a.id (List.mem_map_of_mem ha)
  account := fun id source hs => List.mem_map.mp (haccount id source hs)
  path := fun s p hp => h.path s p (hpaths ▸ hp)
  recorded := fun s p hp => by
    rw [hbaselines, hsnapshots]
    exact h.recorded s p (hpaths ▸ hp)
  snapshot := fun s p hp => hpaths ▸ h.snapshot s p (hsnapshots ▸ hp)
  baseline := fun s p hp => hpaths ▸ h.baseline s p (hbaselines ▸ hp)
  paths := hpaths ▸ h.paths
  snapshots := hsnapshots ▸ h.snapshots

theorem mem_ids_iff (h : Consistent y st) (id : String) :
    id ∈ st.accounts.map AccountConfig.id ↔ ∃ source, st.accountSource id = some source := by
  rw [List.mem_map]
  constructor
  · rintro ⟨a, ha, rfl⟩
    obtain ⟨s, hs, -⟩ := h.known a ha
    exact ⟨s, hs⟩
  · rintro ⟨s, hs⟩
    exact h.account id s hs

theorem consistent_place (h : Consistent y st) (hknown : st.sourcePaths.get source = some source)
    (a : AccountConfig ρ) : Consistent y (st.place source a) := by
  have hsource : ∀ id, (st.place source a).accountSource id =
      if id = a.id then some source else st.accountSource id :=
    fun id => get_insert st.accountSources a.id id source
  have hids : (st.place source a).accounts.map AccountConfig.id =
      if a.id ∈ st.accounts.map AccountConfig.id then st.accounts.map AccountConfig.id
      else st.accounts.map AccountConfig.id ++ [a.id] := map_id_replaceOrPush st.accounts a
  have hmem : ∀ id, id ∈ (st.place source a).accounts.map AccountConfig.id ↔
      id = a.id ∨ id ∈ st.accounts.map AccountConfig.id := by
    intro id
    rw [hids]
    split_ifs with hin
    · refine ⟨Or.inr, fun h => ?_⟩
      rcases h with rfl | h
      · exact hin
      · exact h
    · rw [List.mem_append, List.mem_singleton, or_comm]
  refine h.of_ids ?_ ?_ ?_ rfl rfl rfl
  · rw [hids]
    split_ifs with hin
    · exact h.ids
    · rw [List.nodup_append]
      refine ⟨h.ids, List.nodup_singleton _, fun id hid id' hid' heq => ?_⟩
      rw [heq, List.mem_singleton.mp hid'] at hid
      exact hin hid
  · intro id hid
    rw [hsource]
    split_ifs with heq
    · exact ⟨source, rfl, hknown⟩
    · obtain ⟨b, hb, rfl⟩ := List.mem_map.mp (((hmem id).mp hid).resolve_left heq)
      exact h.known b hb
  · intro id s hs
    rw [hmem]
    rw [hsource] at hs
    split_ifs at hs with heq
    · exact Or.inl heq
    · exact Or.inr ((mem_ids_iff h id).mpr ⟨s, hs⟩)

/-- A new source has no file and no accounts. -/
theorem consistent_register (h : Consistent y st) (hnew : st.sourcePaths.get source = none)
    (hnamed : Named source) : Consistent y (st.register source source) := by
  have hbaseline : st.sourceBaselines.get source = none := by
    cases hget : st.sourceBaselines.get source with
    | none => rfl
    | some b =>
      rw [h.baseline source b hget] at hnew
      cases hnew
  have hregister : st.register source source = { st with
      sourcePaths := st.sourcePaths.insert source source
      sourceBaselines := st.sourceBaselines.insert source []
      sourceSnapshots := st.sourceSnapshots.insert source .missing } := by
    rw [register, BTreeMap.contains, hbaseline]
    rfl
  have hloaded : st.register source source = st.loaded source source .missing [] [] := by
    rw [hregister, loaded, withAccounts, List.append_nil]
    rfl
  rw [hloaded]
  -- as if an empty file had been read
  exact consistent_loaded (d := ⟨[], Table.keyed_nil⟩) h ⟨rfl, rfl, rfl⟩
    (fun a ha => by cases ha) hnamed

/-- A path is known, or its name is checked; neither panics. -/
theorem fails_sourcePath (st : AuthStore ρ) (source : AuthSource) :
    Except.Fails (· ≠ .panicked) (st.sourcePath source) := by
  unfold sourcePath
  cases st.sourcePaths.get source with
  | some path => exact fails_ok path
  | none =>
    cases source with
    | main => exact fails_ok _
    | shard name =>
      exact Except.fails_rejectIf_bind (by simp) (fails_ok _)

/-- **What `upsert_in_source` does**: it fails and changes nothing, or it places the account in the
source, which has been registered if it was not known. -/
theorem upsertInSource_spec {r : Except AuthError Unit}
    (h : (upsertInSource d source a).outcome st = (r, st')) :
    (∃ e, e ≠ .panicked ∧ r = .error e ∧ st' = st) ∨
      r = .ok () ∧ (∀ s, st.accountSource a.id = some s → s = source) ∧
        (st' = st.place source a ∧ (∃ path, st.sourcePaths.get source = some path) ∨
          ∃ path, st.sourcePath source = .ok path ∧ st.sourcePaths.get source = none ∧
            st' = (st.register source path).place source a) := by
  obtain ⟨e, he, hr⟩ | ⟨path, hpath, h⟩ := bind_reading_cases h
  · cases hr
    exact Or.inl ⟨e, fails_sourcePath st source e he, rfl, rfl⟩
  obtain ⟨e, he, hr⟩ | ⟨⟨⟩, hexisting, h⟩ := bind_reading_cases h
  · cases hr
    refine Or.inl ⟨e, ?_, rfl, rfl⟩
    cases hget : st.accountSources.get a.id with
    | none =>
      rw [hget] at he
      cases he
    | some s =>
      rw [hget] at he
      dsimp only at he
      split_ifs at he
      exact (fails_sourcePath st s).bind (fun _ _ => Except.fails_error (by simp)) e he
  have hsame : ∀ s, st.accountSource a.id = some s → s = source := by
    intro s hs
    rw [accountSource] at hs
    rw [hs] at hexisting
    dsimp only at hexisting
    by_contra hne
    rw [if_neg hne] at hexisting
    obtain ⟨_, -, herror⟩ := Except.bind_eq_ok.mp hexisting
    cases herror
  obtain ⟨e, herror, -⟩ | ⟨known, hknown, h⟩ := bind_reading_cases h
  · cases herror
  cases hknown
  cases hget : st.sourcePaths.get source with
  | some p =>
    rw [if_pos (by rw [BTreeMap.contains, hget]; rfl)] at h
    cases h
    exact Or.inr ⟨rfl, hsame, Or.inl ⟨rfl, p, rfl⟩⟩
  | none =>
    rw [if_neg (by rw [BTreeMap.contains, hget]; exact Bool.false_ne_true)] at h
    obtain ⟨e, he, hr⟩ | ⟨⟨⟩, -, h⟩ := bind_reading_cases h
    · cases hr
      exact Or.inl ⟨e, Except.fails_rejectIf (P := (· ≠ .panicked)) (by simp) e he, rfl, rfl⟩
    · cases h
      exact Or.inr ⟨rfl, hsame, Or.inr ⟨path, hpath, rfl, rfl⟩⟩

/-- An account with a known source is placed there. -/
theorem upsertInSource_known (hpath : st.sourcePaths.get source = some path)
    (hsame : ∀ s, st.accountSource a.id = some s → s = source) :
    (upsertInSource d source a).outcome st = (.ok (), st.place source a) := by
  have hsource : st.sourcePath source = .ok path := by
    unfold sourcePath
    rw [hpath]
  have hcontains : st.sourcePaths.contains source = true := by
    rw [BTreeMap.contains, hpath]
    rfl
  rw [upsertInSource,
    Stateful.bind_reading (f := fun st : AuthStore ρ => st.sourcePath source) hsource,
    Stateful.bind_reading (a := ()), Stateful.outcome_bind, Stateful.outcome_reading]
  · dsimp only
    rw [if_pos hcontains]
    rfl
  · cases hs : st.accountSource a.id with
    | none =>
      rw [accountSource] at hs
      rw [hs]
    | some s =>
      have heq := hsame s hs
      rw [accountSource] at hs
      rw [hs]
      exact if_pos heq

theorem upsertInSource_owner {id : String} {s : AuthSource} (h : st.accountSource id = some s) :
    ((upsertInSource d source a).outcome st).2.accountSource id = some s := by
  have hplace : ∀ st' : AuthStore ρ, st'.accountSources = st.accountSources →
      (∀ t, st.accountSource a.id = some t → t = source) →
        (st'.place source a).accountSource id = some s := by
    intro st' hsources hsame
    show (st'.accountSources.insert a.id source).get id = some s
    rw [get_insert, hsources]
    split_ifs with hid
    · rw [hsame s (hid ▸ h)]
    · exact h
  cases hr : (upsertInSource d source a).outcome st with
  | mk r st' =>
    rcases upsertInSource_spec hr with ⟨e, -, -, rfl⟩ | ⟨-, hsame, ⟨rfl, -⟩ | ⟨path, -, -, rfl⟩⟩
    · exact h
    · exact hplace st rfl hsame
    · exact hplace _ rfl hsame

/-- An insertion that fails panics. -/
theorem outcome_upsert (d : Disk) (a : AccountConfig ρ) (st : AuthStore ρ) :
    (upsert d a).outcome st =
      (((upsertInSource d ((st.accountSources.get a.id).getD .main) a).outcome st).1.mapError
          fun _ => .panicked,
        ((upsertInSource d ((st.accountSources.get a.id).getD .main) a).outcome st).2) := by
  rw [Stateful.outcome, upsert]
  rcases (upsertInSource d ((st.accountSources.get a.id).getD .main) a).outcome st with
    ⟨_ | _, _⟩ <;> rfl

theorem upsert_snd (d : Disk) (a : AccountConfig ρ) (st : AuthStore ρ) :
    ((upsert d a).outcome st).2 = ((upsertInSource d
      ((st.accountSources.get a.id).getD .main) a).outcome st).2 := by
  rw [outcome_upsert]

/-- **No account changes its source through an upsert.** -/
theorem upsert_keeps_source {e : Edit ρ} (he : e.IsUpsert) {id : String} {s : AuthSource}
    (h : st.accountSource id = some s) : ((e.apply d).outcome st).2.accountSource id = some s := by
  cases e with
  | upsert a =>
    show ((upsert d a).outcome st).2.accountSource id = some s
    rw [upsert_snd]
    exact upsertInSource_owner h
  | upsertInMain a => exact upsertInSource_owner h
  | upsertInShard shard a => exact upsertInSource_owner h
  | remove id => exact he.elim
  | removeFromSource source id => exact he.elim
  | getMut id f => exact he.elim

theorem remove_ok (id : String) (st : AuthStore ρ) :
    ∃ removed, ((remove id).outcome st).1 = .ok removed := by
  rw [Stateful.outcome, remove]
  cases st.accounts.find? fun account => decide (account.id = id) with
  | none => exact ⟨none, rfl⟩
  | some a => exact ⟨some a, rfl⟩

theorem discard_outcome {α : Type} (c : Stateful (AuthStore ρ) AuthError α) (st : AuthStore ρ) :
    (do let _ ← c : Stateful (AuthStore ρ) AuthError Unit).outcome st =
      ((c.outcome st).1.map fun _ => (), (c.outcome st).2) := by
  rw [Stateful.outcome_bind]
  cases c.outcome st with
  | mk r st' => cases r <;> rfl

/-- `remove_from_source` fails, or it removes the account. -/
theorem removeFromSource_spec (source : AuthSource) (id : String) (st : AuthStore ρ) :
    (∃ e, e ≠ .panicked ∧ (removeFromSource source id).outcome st = (.error e, st)) ∨
      (removeFromSource source id).outcome st = (remove id).outcome st := by
  rcases bind_reading_cases (rfl : (removeFromSource source id).outcome st = _) with
    ⟨e, he, h⟩ | ⟨⟨⟩, -, h⟩
  · refine Or.inl ⟨e, ?_, h⟩
    cases hget : st.accountSources.get id with
    | none =>
      rw [hget] at he
      cases he
    | some s =>
      rw [hget] at he
      dsimp only at he
      split_ifs at he
      exact (fails_sourcePath st s).bind (fun _ _ => (fails_sourcePath st source).bind
        fun _ _ => Except.fails_error (by simp)) e he
  · exact Or.inr h.symm

/-- **An edit that fails changes nothing.** -/
theorem edit_error {e : Edit ρ} {err : AuthError} (h : (e.apply d).outcome st = (.error err, st')) :
    st' = st := by
  have hupsert : ∀ (source : AuthSource) (a : AccountConfig ρ) r,
      (upsertInSource d source a).outcome st = (r, st') → (∃ e, r = .error e) → st' = st := by
    rintro source a r hr ⟨e, rfl⟩
    rcases upsertInSource_spec hr with ⟨-, -, -, hst⟩ | ⟨hok, -⟩
    · exact hst
    · cases hok
  have hremove : ∀ id, ((remove id).outcome st).1.map (fun _ => ()) ≠ .error err := by
    intro id herror
    obtain ⟨removed, hok⟩ := remove_ok id st
    rw [hok] at herror
    cases herror
  cases e with
  | upsert a =>
    have hsnd : st' = ((upsert d a).outcome st).2 := (congrArg Prod.snd h).symm
    have hfst : (upsert d a).outcome st = (.error err, st') := h
    rw [outcome_upsert] at hfst
    rw [upsert_snd] at hsnd
    cases hr : (upsertInSource d ((st.accountSources.get a.id).getD .main) a).outcome st with
    | mk r st₁ =>
      rw [hr] at hfst hsnd
      cases r with
      | ok u => cases hfst
      | error e => exact hupsert _ a _ (by rw [hr, hsnd]) ⟨e, rfl⟩
  | upsertInMain a => exact hupsert _ a _ h ⟨err, rfl⟩
  | upsertInShard shard a => exact hupsert _ a _ h ⟨err, rfl⟩
  | remove id =>
    rw [Edit.apply, discard_outcome] at h
    exact absurd (congrArg Prod.fst h) (hremove id)
  | removeFromSource source id =>
    rw [Edit.apply, discard_outcome] at h
    rcases removeFromSource_spec source id st with ⟨e, -, he⟩ | hr
    · rw [he] at h
      exact (congrArg Prod.snd h).symm
    · rw [hr] at h
      exact absurd (congrArg Prod.fst h) (hremove id)
  | getMut id f => cases h

/-! ## The invariant along edits -/

/-- A store that comes from `st₀` by edits. -/
structure Edited (y : Yaml ρ) (st₀ st : AuthStore ρ) : Prop where
  consistent : Consistent y st
  main : st.sourcePaths.get .main = some .main
  baseline : ∀ source, (st.sourceBaselines.get source).getD [] =
    (st₀.sourceBaselines.get source).getD []

theorem Edited.register (h : Edited y st₀ st) (hnew : st.sourcePaths.get source = none)
    (hnamed : Named source) : Edited y st₀ (st.register source source) := by
  refine ⟨consistent_register h.consistent hnew hnamed, ?_, ?_⟩
  · show (st.sourcePaths.insert source source).get .main = some .main
    rw [get_insert]
    split_ifs with hs
    · rw [← hs]
    · exact h.main
  · intro s
    rw [← h.baseline s]
    show (BTreeMap.get (if st.sourceBaselines.contains source then st.sourceBaselines
      else st.sourceBaselines.insert source []) s).getD [] = _
    split_ifs with hcontains
    · rfl
    · rw [get_insert]
      split_ifs with hs
      · rw [BTreeMap.contains, Bool.not_eq_true, Option.isSome_eq_false_iff,
          Option.isNone_iff_eq_none] at hcontains
        rw [hs, hcontains]
        rfl
      · rfl

theorem Edited.place (h : Edited y st₀ st) (hknown : st.sourcePaths.get source = some source)
    (a : AccountConfig ρ) : Edited y st₀ (st.place source a) :=
  ⟨consistent_place h.consistent hknown a, h.main, h.baseline⟩

theorem named_of_sourcePath (hpath : st.sourcePath source = .ok path)
    (hnew : st.sourcePaths.get source = none) : path = source ∧ Named source := by
  unfold sourcePath at hpath
  rw [hnew] at hpath
  cases source with
  | main =>
    cases hpath
    exact ⟨rfl, trivial⟩
  | shard name =>
    obtain ⟨⟨⟩, hname, hpath⟩ := Except.bind_eq_ok.mp hpath
    cases hpath
    exact ⟨rfl, hname⟩

theorem Edited.upsertInSource (h : Edited y st₀ st) (d : Disk) (source : AuthSource)
    (a : AccountConfig ρ) : Edited y st₀ ((upsertInSource d source a).outcome st).2 := by
  cases hr : (AuthStore.upsertInSource d source a).outcome st with
  | mk r st' =>
    rcases upsertInSource_spec hr with
      ⟨e, -, -, rfl⟩ | ⟨-, -, ⟨rfl, path, hpath⟩ | ⟨path, hpath, hnew, rfl⟩⟩
    · exact h
    · obtain ⟨rfl, -⟩ := h.consistent.path source path hpath
      exact h.place hpath a
    · obtain ⟨rfl, hnamed⟩ := named_of_sourcePath hpath hnew
      refine (h.register hnew hnamed).place ?_ a
      exact BTreeMap.get_insert_self _ _ _

theorem map_id_eraseP (accounts : List (AccountConfig ρ)) (id : String) :
    (accounts.eraseP fun a => decide (a.id = id)).map AccountConfig.id =
      (accounts.map AccountConfig.id).erase id := by
  induction accounts with
  | nil => rfl
  | cons a as ih =>
    rw [List.map_cons, List.eraseP_cons, List.erase_cons]
    by_cases hid : a.id = id
    · simp [hid]
    · simp [hid, ih]

theorem Edited.remove (h : Edited y st₀ st) (id : String) :
    Edited y st₀ ((remove id).outcome st).2 := by
  rw [Stateful.outcome, AuthStore.remove]
  cases st.accounts.find? fun account => decide (account.id = id) with
  | none => exact h
  | some a =>
    have hids : (st.accounts.eraseP fun account => decide (account.id = id)).map AccountConfig.id =
        (st.accounts.map AccountConfig.id).erase id := map_id_eraseP st.accounts id
    refine ⟨h.consistent.of_ids ?_ ?_ ?_ rfl rfl rfl, h.main, h.baseline⟩
    · rw [hids]
      exact h.consistent.ids.erase id
    · intro id' hid'
      rw [hids, h.consistent.ids.mem_erase_iff] at hid'
      obtain ⟨b, hb, rfl⟩ := List.mem_map.mp hid'.2
      obtain ⟨s, hs, hpath⟩ := h.consistent.known b hb
      refine ⟨s, ?_, hpath⟩
      show (BTreeMap.erase st.accountSources id).get b.id = some s
      rw [BTreeMap.get_erase, if_neg hid'.1]
      exact hs
    · intro id' s hs
      have hs : (BTreeMap.erase st.accountSources id).get id' = some s := hs
      rw [BTreeMap.get_erase] at hs
      split_ifs at hs with heq
      rw [hids, h.consistent.ids.mem_erase_iff]
      exact ⟨heq, (mem_ids_iff h.consistent id').mpr ⟨s, hs⟩⟩

theorem Edited.getMut (h : Edited y st₀ st) (id : String) (f : ρ → ρ) :
    Edited y st₀ ((getMut id f).outcome st).2 := by
  have hids : (editFirst st.accounts id f).map AccountConfig.id =
      st.accounts.map AccountConfig.id := map_id_editFirst st.accounts id f
  refine ⟨h.consistent.of_ids ?_ ?_ ?_ rfl rfl rfl, h.main, h.baseline⟩
  · show ((editFirst st.accounts id f).map AccountConfig.id).Nodup
    rw [hids]
    exact h.consistent.ids
  · intro id' hid'
    have hid' : id' ∈ (editFirst st.accounts id f).map AccountConfig.id := hid'
    rw [hids] at hid'
    obtain ⟨b, hb, rfl⟩ := List.mem_map.mp hid'
    exact h.consistent.known b hb
  · intro id' s hs
    show id' ∈ (editFirst st.accounts id f).map AccountConfig.id
    rw [hids]
    exact (mem_ids_iff h.consistent id').mpr ⟨s, hs⟩

theorem Edited.apply (h : Edited y st₀ st) (d : Disk) (e : Edit ρ) :
    Edited y st₀ ((e.apply d).outcome st).2 := by
  cases e with
  | upsert a =>
    show Edited y st₀ ((AuthStore.upsert d a).outcome st).2
    rw [upsert_snd]
    exact h.upsertInSource d _ a
  | upsertInMain a => exact h.upsertInSource d _ a
  | upsertInShard shard a => exact h.upsertInSource d _ a
  | remove id =>
    rw [Edit.apply, discard_outcome]
    exact h.remove id
  | removeFromSource source id =>
    rw [Edit.apply, discard_outcome]
    rcases removeFromSource_spec source id st with ⟨e, -, he⟩ | hr
    · rw [he]
      exact h
    · rw [hr]
      exact h.remove id
  | getMut id f => exact h.getMut id f

theorem Edited.edited (h : Edited y st₀ st) (d : Disk) (edits : List (Edit ρ)) :
    Edited y st₀ (edited d edits st) := by
  induction edits generalizing st with
  | nil => exact h
  | cons e edits ih => exact ih (h.apply d e)

/-- `upsert` relies on the source of an account being known. -/
theorem upsert_ok (h : Edited y st₀ st) (d : Disk) (a : AccountConfig ρ) :
    ((upsert d a).outcome st).1 = .ok () := by
  have hpath : st.sourcePaths.get ((st.accountSources.get a.id).getD .main) =
      some ((st.accountSources.get a.id).getD .main) := by
    cases hs : st.accountSources.get a.id with
    | none => exact h.main
    | some s =>
      obtain ⟨b, hb, hid⟩ := h.consistent.account a.id s hs
      obtain ⟨t, ht, hpath⟩ := h.consistent.known b hb
      rw [hid, accountSource, hs] at ht
      cases ht
      exact hpath
  have hsame : ∀ s, st.accountSource a.id = some s →
      s = (st.accountSources.get a.id).getD .main := by
    intro s hs
    rw [accountSource] at hs
    rw [hs]
    rfl
  rw [outcome_upsert, upsertInSource_known hpath hsame]
  rfl

/-- **No edit panics.** -/
theorem edit_not_panicked (h : Edited y st₀ st) {e : Edit ρ} :
    (e.apply d).outcome st ≠ (.error .panicked, st') := by
  have hupsert : ∀ (source : AuthSource) (a : AccountConfig ρ),
      (AuthStore.upsertInSource d source a).outcome st ≠ (.error .panicked, st') := by
    intro source a herr
    rcases upsertInSource_spec herr with ⟨e, he, herror, -⟩ | ⟨hok, -⟩
    · cases herror
      exact he rfl
    · cases hok
  have hremove : ∀ id, ((AuthStore.remove id).outcome st).1.map (fun _ => ()) ≠
      .error .panicked := by
    intro id herror
    obtain ⟨removed, hok⟩ := remove_ok id st
    rw [hok] at herror
    cases herror
  intro herr
  cases e with
  | upsert a =>
    have hok := upsert_ok h d a
    rw [show (AuthStore.upsert d a).outcome st = _ from herr] at hok
    cases hok
  | upsertInMain a => exact hupsert _ a herr
  | upsertInShard shard a => exact hupsert _ a herr
  | remove id =>
    rw [Edit.apply, discard_outcome] at herr
    exact hremove id (congrArg Prod.fst herr)
  | removeFromSource source id =>
    rw [Edit.apply, discard_outcome] at herr
    rcases removeFromSource_spec source id st with ⟨e, he, hr⟩ | hr
    · rw [hr] at herr
      cases congrArg Prod.fst herr
      exact he rfl
    · rw [hr] at herr
      exact hremove id (congrArg Prod.fst herr)
  | getMut id f => cases herr

/-! ## Saving -/

theorem sourcePath_known (h : st.sourcePaths.get source = some path) :
    st.sourcePath source = .ok path := by
  unfold sourcePath
  rw [h]

/-- The grouping of the first accounts. -/
structure Grouped (st : AuthStore ρ) (accounts : List (AccountConfig ρ)) (g : Grouping ρ) :
    Prop where
  ids : ∀ id, id ∈ g.accountIds ↔ id ∈ accounts.map AccountConfig.id
  paths : g.sourcePaths = st.sourcePaths
  groups : ∀ s, (g.accountsBySource.get s).getD [] =
    accounts.filter fun a => st.accountSource a.id = some s

theorem exists_grouping (hids : (accounts.map AccountConfig.id).Nodup)
    (hknown : ∀ a ∈ accounts, ∃ source, st.accountSource a.id = some source ∧
      st.sourcePaths.get source = some source) :
    ∃ g, accounts.foldlM (groupAccount st) ⟨[], st.sourcePaths, []⟩ = .ok g ∧
      Grouped st accounts g := by
  induction accounts using List.reverseRecOn with
  | nil => exact ⟨_, rfl, fun id => Iff.rfl, rfl, fun s => rfl⟩
  | append_singleton is a ih =>
    rw [List.map_append, List.nodup_append] at hids
    obtain ⟨g, hg, hgrouped⟩ := ih hids.1 fun b hb => hknown b (List.mem_append_left _ hb)
    obtain ⟨source, hsource, hpath⟩ := hknown a (List.mem_append_right _ (List.mem_singleton_self a))
    have hnew : a.id ∉ g.accountIds := by
      rw [hgrouped.ids]
      exact fun hmem => hids.2.2 a.id hmem a.id (List.mem_singleton_self _) rfl
    have hget : (st.accountSources.get a.id).getD .main = source := by
      rw [accountSource] at hsource
      rw [hsource]
      rfl
    have hcontains : g.sourcePaths.contains source = true := by
      rw [hgrouped.paths, BTreeMap.contains, hpath]
      rfl
    have hstep : groupAccount st g a = .ok {
        accountIds := a.id :: g.accountIds
        sourcePaths := g.sourcePaths
        accountsBySource := g.accountsBySource.modify source (· ++ [a]) } := by
      refine Except.bind_eq_ok.mpr ⟨⟨⟩, Except.rejectIf_eq_ok.mpr (by simpa using hnew), ?_⟩
      dsimp only
      rw [hget]
      refine Except.bind_eq_ok.mpr ⟨source, sourcePath_known hpath, ?_⟩
      rw [if_pos hcontains]
      rfl
    refine ⟨_, foldlM_concat.mpr ⟨g, hg, hstep⟩, ?_, hgrouped.paths, ?_⟩
    · intro id
      simp [hgrouped.ids, or_comm, eq_comm]
    · intro s
      rw [BTreeMap.get_modify, List.filter_append, ← hgrouped.groups s]
      by_cases hs : s = source
      · rw [if_pos hs, hs]
        simp [hsource]
        rfl
      · have hne : st.accountSource a.id ≠ some s := by
          rw [hsource]
          exact fun h => hs (Option.some.inj h).symm
        rw [if_neg hs]
        simp [hne]

variable {cs : List (Change ρ)} {contents : ByteArray} {w : World ρ}

/-- The changes, source by source. -/
theorem changes_eq_ok (h : Consistent y st) :
    changes y st = .ok cs ↔ ∃ found, cs = found.reduceOption ∧
      List.Forall₂ (fun e c => sourceChange y st (st.owned e.1) e.1 e.2 = .ok c) st.sourcePaths
        found := by
  obtain ⟨g, hg, hgrouped⟩ := exists_grouping h.ids h.known
  have hgroup : ∀ s, (g.accountsBySource.get s).getD [] = st.owned s := hgrouped.groups
  rw [changes]
  constructor
  · intro hchanges
    obtain ⟨g', hg', hchanges⟩ := Except.bind_eq_ok.mp hchanges
    rw [hg] at hg'
    cases hg'
    obtain ⟨found, hfound, hcs⟩ := Except.bind_eq_ok.mp hchanges
    cases hcs
    rw [mapM_eq_ok, hgrouped.paths] at hfound
    refine ⟨found, rfl, hfound.imp fun e c hc => ?_⟩
    rw [← hgroup]
    exact hc
  · rintro ⟨found, rfl, hfound⟩
    refine Except.bind_eq_ok.mpr ⟨g, hg, Except.bind_eq_ok.mpr ⟨found, ?_, rfl⟩⟩
    rw [mapM_eq_ok, hgrouped.paths]
    refine hfound.imp fun e c hc => ?_
    dsimp only
    rw [hgroup]
    exact hc

theorem sourceChange_eq_ok {c : Option (Change ρ)} :
    sourceChange y st accounts source path = .ok c ↔
      ∃ current, accountFingerprints y accounts = .ok current ∧
        c = if st.sourceBaselines.get source = some current then none
          else some ⟨source, path, current, accounts⟩ := by
  rw [sourceChange, Except.bind_eq_ok]
  refine exists_congr fun current => and_congr_right fun _ => ?_
  constructor
  · intro h
    cases h
    rfl
  · intro h
    rw [h]
    rfl

/-- What a save is about to write: for each source whose fingerprints are not those of its
baseline, its accounts. -/
structure Pending (y : Yaml ρ) (st : AuthStore ρ) (cs : List (Change ρ)) : Prop where
  nodup : (cs.map Change.source).Nodup
  known : ∀ c ∈ cs, st.sourcePaths.get c.source = some c.path
  accounts : ∀ c ∈ cs, c.accounts = st.owned c.source
  current : ∀ c ∈ cs, accountFingerprints y c.accounts = .ok c.current
  changed : ∀ c ∈ cs, st.sourceBaselines.get c.source ≠ some c.current
  others : ∀ source path, st.sourcePaths.get source = some path →
    source ∉ cs.map Change.source → ∃ baseline, st.sourceBaselines.get source = some baseline ∧
      accountFingerprints y (st.owned source) = .ok baseline

theorem pending_of_changes (h : Consistent y st) (hcs : changes y st = .ok cs) :
    Pending y st cs := by
  obtain ⟨found, rfl, hfound⟩ := (changes_eq_ok h).mp hcs
  have hfrom : ∀ c ∈ found.reduceOption, ∃ e ∈ st.sourcePaths,
      sourceChange y st (st.owned e.1) e.1 e.2 = .ok (some c) := by
    intro c hc
    rw [List.reduceOption_mem_iff] at hc
    exact Except.mem_of_mapM_eq_ok (f := fun e : AuthSource × PathBuf =>
      sourceChange y st (st.owned e.1) e.1 e.2) (mapM_eq_ok.mpr hfound) hc
  have hfields : ∀ c ∈ found.reduceOption, (c.source, c.path) ∈ st.sourcePaths ∧
      c.accounts = st.owned c.source ∧ accountFingerprints y c.accounts = .ok c.current ∧
      st.sourceBaselines.get c.source ≠ some c.current := by
    intro c hc
    obtain ⟨e, he, hchange⟩ := hfrom c hc
    obtain ⟨current, hcurrent, hsome⟩ := sourceChange_eq_ok.mp hchange
    split_ifs at hsome with hbaseline
    cases hsome
    exact ⟨he, rfl, hcurrent, hbaseline⟩
  refine ⟨?_, ?_, fun c hc => (hfields c hc).2.1, fun c hc => (hfields c hc).2.2.1,
    fun c hc => (hfields c hc).2.2.2, ?_⟩
  · have hsub : (found.reduceOption.map Change.source).Sublist (st.sourcePaths.map Prod.fst) := by
      clear hfrom hfields hcs
      generalize st.sourcePaths = paths at hfound
      induction hfound with
      | nil => exact List.Sublist.slnil
      | @cons e c es cs hchange _ ih =>
        obtain ⟨current, -, rfl⟩ := sourceChange_eq_ok.mp hchange
        rw [List.map_cons]
        split_ifs
        · rw [List.reduceOption_cons_of_none]
          exact ih.cons _
        · rw [List.reduceOption_cons_of_some, List.map_cons]
          exact ih.cons_cons _
    exact h.paths.nodup.sublist hsub
  · exact fun c hc => (get_eq_some_iff h.paths.nodup).mpr (hfields c hc).1
  · intro source path hpath hnot
    obtain ⟨i, hi, hget⟩ := List.getElem_of_mem (BTreeMap.mem_of_get hpath)
    have hlen := hfound.length_eq
    have hchange := (List.forall₂_iff_get.mp hfound).2 i hi (hlen ▸ hi)
    rw [List.get_eq_getElem, hget] at hchange
    obtain ⟨current, hcurrent, hc⟩ := sourceChange_eq_ok.mp hchange
    split_ifs at hc with hbaseline
    · exact ⟨current, hbaseline, hcurrent⟩
    · refine absurd (List.mem_map.mpr ⟨_, ?_, rfl⟩ :
        (Change.mk source path current (st.owned source)).source ∈ _) hnot
      rw [List.reduceOption_mem_iff, ← hc]
      exact List.getElem_mem _

/-- **In a clean store there is nothing to save.** -/
theorem changes_of_clean (h : Consistent y st) (hclean : Clean y st) : changes y st = .ok [] := by
  refine (changes_eq_ok h).mpr ⟨st.sourcePaths.map fun _ => none, ?_, ?_⟩
  · induction st.sourcePaths with
    | nil => rfl
    | cons e es ih => exact ih
  · rw [List.forall₂_map_right_iff, List.forall₂_same]
    rintro ⟨source, path⟩ hmem
    obtain ⟨-, baseline, -, hbaseline, -⟩ :=
      h.recorded source path ((get_eq_some_iff h.paths.nodup).mpr hmem)
    have hcurrent := hclean source
    rw [hbaseline] at hcurrent
    exact sourceChange_eq_ok.mpr ⟨baseline, hcurrent, (if_pos hbaseline).symm⟩

/-! ## Writing one source -/

theorem commit_eq_ok {d' : Disk} {install : AuthFileInstall}
    (h : commit d path contents install = .ok d') : d' = d.put path (.file contents) := by
  cases install with
  | createIfAbsent =>
    rw [commit] at h
    cases hget : d.get path with
    | none =>
      rw [hget] at h
      cases h
      rfl
    | some entry =>
      rw [hget] at h
      cases h
  | replace =>
    rw [commit] at h
    split at h
    · cases h
    · cases h
      rfl

theorem saveChange_eq_ok {c : Change ρ} {w' : World ρ} {u : Unit}
    (h : (saveChange y c).outcome w = (.ok u, w')) :
    ∃ contents, stageAuthFile y c.accounts = .ok contents ∧
      validateSourcesUnchanged w.disk w.store = .ok () ∧
      w' = ⟨w.store.saved c.source c.current contents, w.disk.put c.path (.file contents)⟩ := by
  obtain ⟨install, w₁, hinstall, h⟩ := Stateful.bind_eq_ok.mp h
  obtain ⟨-, rfl⟩ := reading_eq_ok.mp hinstall
  obtain ⟨contents, w₂, hcontents, h⟩ := Stateful.bind_eq_ok.mp h
  obtain ⟨hstage, rfl⟩ := reading_eq_ok.mp hcontents
  obtain ⟨⟨⟩, w₃, hvalidate, h⟩ := Stateful.bind_eq_ok.mp h
  obtain ⟨hvalid, rfl⟩ := reading_eq_ok.mp hvalidate
  obtain ⟨⟨⟩, w₄, hreplace, h⟩ := Stateful.bind_eq_ok.mp h
  have hcommit := Stateful.replacing_eq_ok.mp hreplace
  refine ⟨contents, hstage, hvalid, ?_⟩
  cases hd : commit w.disk c.path contents install with
  | error e =>
    rw [hd] at hcommit
    cases hcommit
  | ok d =>
    rw [hd] at hcommit
    cases hcommit
    cases h
    rw [commit_eq_ok hd]

/-- Reading a file that was just staged. -/
theorem readAccounts_stage {read : String → Except AuthError (AccountConfig ρ)}
    (hy : y.RoundTrips read) (h : stageAuthFile y accounts = .ok contents) (path : PathBuf) :
    readAccounts y path (.contents contents) = .ok accounts := by
  cases hs : y.fileToString ⟨CURRENT_VERSION, accounts⟩ with
  | error e =>
    rw [stageAuthFile, hs] at h
    cases h
  | ok s =>
    rw [stageAuthFile, hs] at h
    cases h
    have hutf8 : String.fromUTF8? s.toByteArray = some s := by
      rw [String.fromUTF8?, dif_pos s.isValidUTF8]
      rfl
    have hparse : parseAuthFile y path s.toByteArray = .ok ⟨CURRENT_VERSION, accounts⟩ := by
      rw [parseAuthFile, hutf8]
      exact Except.bind_eq_ok.mpr ⟨_, hy.file _ s hs, rfl⟩
    rw [readAccounts, hparse]
    rfl

theorem consistent_saved {read : String → Except AuthError (AccountConfig ρ)}
    (hy : y.RoundTrips read) (h : Consistent y st) {c : Change ρ}
    (hknown : st.sourcePaths.get c.source = some c.path)
    (hcurrent : accountFingerprints y c.accounts = .ok c.current)
    (hstage : stageAuthFile y c.accounts = .ok contents) :
    Consistent y (st.saved c.source c.current contents) := by
  obtain ⟨hpath, -⟩ := h.path _ _ hknown
  rw [hpath] at hknown
  refine ⟨h.ids, h.known, h.account, h.path, ?_, ?_, ?_, h.paths, h.snapshots.insert _ _⟩
  · intro s p hp
    show ∃ snapshot baseline, (st.sourceSnapshots.insert c.source (.contents contents)).get s = _ ∧
      (st.sourceBaselines.insert c.source c.current).get s = _ ∧ _
    rw [get_insert, get_insert]
    split_ifs with heq
    · exact ⟨_, _, rfl, rfl, c.accounts, readAccounts_stage hy hstage s, hcurrent⟩
    · exact h.recorded s p hp
  · intro s snapshot hs
    rw [show (st.saved c.source c.current contents).sourceSnapshots = st.sourceSnapshots.insert
      c.source (.contents contents) from rfl, get_insert] at hs
    split_ifs at hs with heq
    · rw [heq]
      exact hknown
    · exact h.snapshot s snapshot hs
  · intro s baseline hs
    rw [show (st.saved c.source c.current contents).sourceBaselines = st.sourceBaselines.insert
      c.source c.current from rfl, get_insert] at hs
    split_ifs at hs with heq
    · rw [heq]
      exact hknown
    · exact h.baseline s baseline hs

/-- Writing a source keeps the files as the snapshots say. -/
theorem validated_saved (h : Consistent y st) (hvalid : Validated d st)
    (hknown : st.sourcePaths.get source = some source) (current : SourceBaseline)
    (contents : ByteArray) :
    Validated (d.put source (.file contents)) (st.saved source current contents) := by
  obtain ⟨-, hnamed⟩ := h.path source source hknown
  refine ⟨?_, ?_, ?_, ?_⟩
  · intro path target hget
    rw [Disk.get_put] at hget
    split_ifs at hget with heq
    · cases hget
    · exact hvalid.direct path target hget
  · intro name bytes hget
    rw [Disk.get_put] at hget
    split_ifs at hget with heq
    · rw [← heq] at hnamed
      exact hnamed
    · exact hvalid.named name bytes hget
  · intro name
    show _ ↔ ∃ bytes, (st.sourceSnapshots.insert source (.contents contents)).get (.shard name) = _
    rw [Disk.get_put, get_insert]
    split_ifs with heq
    · exact ⟨fun _ => ⟨contents, rfl⟩, fun _ => ⟨contents, rfl⟩⟩
    · exact hvalid.shards name
  · intro s p hmem
    obtain ⟨rfl, -⟩ := h.path s p ((get_eq_some_iff h.paths.nodup).mpr hmem)
    show ∃ snapshot, (st.sourceSnapshots.insert source (.contents contents)).get p = _ ∧ _
    rw [get_insert, SourceSnapshot.capture, Disk.get_put]
    split_ifs with heq
    · exact ⟨_, rfl, rfl⟩
    · exact hvalid.snapshots p p hmem

/-! ## The whole save -/

/-- What is left of a save, and what it will have done. -/
structure Saving (y : Yaml ρ) (w w' : World ρ) (cs : List (Change ρ)) : Prop where
  consistent : Consistent y w'.store
  validated : Validated w'.disk w'.store
  accounts : w'.store.accounts = w.store.accounts
  sources : w'.store.accountSources = w.store.accountSources
  paths : w'.store.sourcePaths = w.store.sourcePaths
  written : ∀ c ∈ cs, w'.store.sourceBaselines.get c.source = some c.current
  others : ∀ s, s ∉ cs.map Change.source →
    w'.store.sourceBaselines.get s = w.store.sourceBaselines.get s ∧ w'.disk.get s = w.disk.get s

theorem saving_of_changes {read : String → Except AuthError (AccountConfig ρ)}
    (hy : y.RoundTrips read) {w' : World ρ}
    (hsave : (cs.forM (saveChange y)).outcome w = (.ok (), w')) (h : Consistent y w.store)
    (hvalid : Validated w.disk w.store) (hnodup : (cs.map Change.source).Nodup)
    (hknown : ∀ c ∈ cs, w.store.sourcePaths.get c.source = some c.path)
    (hcurrent : ∀ c ∈ cs, accountFingerprints y c.accounts = .ok c.current) : Saving y w w' cs := by
  refine Stateful.forM_induction (P := fun cs w w' => Consistent y w.store →
    Validated w.disk w.store → (cs.map Change.source).Nodup →
      (∀ c ∈ cs, w.store.sourcePaths.get c.source = some c.path) →
        (∀ c ∈ cs, accountFingerprints y c.accounts = .ok c.current) → Saving y w w' cs)
    ?_ ?_ hsave h hvalid hnodup hknown hcurrent
  · intro w h hvalid _ _ _
    exact ⟨h, hvalid, rfl, rfl, rfl, fun c hc => (by cases hc), fun s _ => ⟨rfl, rfl⟩⟩
  · intro c cs w w₁ w' hstep ih h hvalid hnodup hknown hcurrent
    obtain ⟨contents, hstage, -, rfl⟩ := saveChange_eq_ok hstep
    have hpath := hknown c List.mem_cons_self
    obtain ⟨hsource, -⟩ := h.path _ _ hpath
    obtain ⟨hc, hnodup⟩ := List.nodup_cons.mp hnodup
    have hrest := ih
      (consistent_saved hy h hpath (hcurrent c List.mem_cons_self) hstage)
      (by
        rw [hsource] at hpath ⊢
        exact validated_saved h hvalid hpath c.current contents)
      hnodup (fun c' hc' => hknown c' (List.mem_cons_of_mem _ hc'))
      (fun c' hc' => hcurrent c' (List.mem_cons_of_mem _ hc'))
    refine ⟨hrest.consistent, hrest.validated, hrest.accounts, hrest.sources, hrest.paths, ?_, ?_⟩
    · intro c' hc'
      rcases List.mem_cons.mp hc' with rfl | hc'
      · rw [(hrest.others _ hc).1]
        exact BTreeMap.get_insert_self _ _ _
      · exact hrest.written c' hc'
    · intro s hs
      rw [List.map_cons, List.mem_cons, not_or] at hs
      obtain ⟨hbaseline, hdisk⟩ := hrest.others s hs.2
      refine ⟨hbaseline.trans (BTreeMap.get_insert_of_ne _ hs.1 _), hdisk.trans ?_⟩
      show (w.disk.put c.path _).get s = _
      rw [Disk.get_put, hsource, if_neg hs.1]

/-- **What a save does** to a consistent store. -/
structure Saved (y : Yaml ρ) (w w' : World ρ) : Prop where
  consistent : Consistent y w'.store
  clean : Clean y w'.store
  validated : Validated w'.disk w'.store
  accounts : w'.store.accounts = w.store.accounts
  sources : w'.store.accountSources = w.store.accountSources
  paths : w'.store.sourcePaths = w.store.sourcePaths
  unchanged : ∀ s, accountFingerprints y (w.store.owned s) =
    .ok ((w.store.sourceBaselines.get s).getD []) → w'.disk.get s = w.disk.get s

theorem saved_of_save {read : String → Except AuthError (AccountConfig ρ)} (hy : y.RoundTrips read)
    {w' : World ρ} (h : Consistent y w.store) (hsave : (save y).outcome w = (.ok (), w')) :
    Saved y w w' := by
  obtain ⟨⟨⟩, w₁, hvalidate, hsave⟩ := Stateful.bind_eq_ok.mp hsave
  obtain ⟨hvalid, rfl⟩ := reading_eq_ok.mp hvalidate
  obtain ⟨cs, w₂, hcompute, hsave⟩ := Stateful.bind_eq_ok.mp hsave
  obtain ⟨hchanges, rfl⟩ := reading_eq_ok.mp hcompute
  have hpending := pending_of_changes h hchanges
  have hsaving := saving_of_changes hy hsave h
    ((validateSourcesUnchanged_eq_ok h.snapshots).mp hvalid) hpending.nodup hpending.known
    hpending.current
  have howned : ∀ s, w'.store.owned s = w.store.owned s := by
    intro s
    unfold owned accountSource
    rw [hsaving.accounts, hsaving.sources]
  refine ⟨hsaving.consistent, ?_, hsaving.validated, hsaving.accounts, hsaving.sources,
    hsaving.paths, ?_⟩
  · intro s
    rw [howned]
    by_cases hs : s ∈ cs.map Change.source
    · obtain ⟨c, hc, rfl⟩ := List.mem_map.mp hs
      rw [hsaving.written c hc, ← hpending.accounts c hc]
      exact hpending.current c hc
    · rw [(hsaving.others s hs).1]
      cases hpath : w.store.sourcePaths.get s with
      | none =>
        have hnone : w.store.sourceBaselines.get s = none := by
          cases hget : w.store.sourceBaselines.get s with
          | none => rfl
          | some b =>
            rw [h.baseline s b hget] at hpath
            cases hpath
        rw [hnone, owned_eq_nil h hpath]
        rfl
      | some p =>
        obtain ⟨baseline, hbaseline, hprints⟩ := hpending.others s p hpath hs
        rw [hbaseline]
        exact hprints
  · intro s hs
    refine (hsaving.others s ?_).2
    intro hmem
    obtain ⟨c, hc, rfl⟩ := List.mem_map.mp hmem
    have hcurrent := hpending.current c hc
    obtain ⟨-, baseline, -, hbaseline, -⟩ := h.recorded _ _ (hpending.known c hc)
    rw [hpending.accounts c hc, hs, hbaseline] at hcurrent
    cases hcurrent
    exact hpending.changed c hc hbaseline

/-- **Saving a clean store writes nothing.** -/
theorem save_of_clean (h : Consistent y w.store) (hclean : Clean y w.store)
    (hvalid : Validated w.disk w.store) : (save y).outcome w = (.ok (), w) :=
  Stateful.bind_eq_ok.mpr ⟨(), w, reading_eq_ok.mpr
    ⟨(validateSourcesUnchanged_eq_ok h.snapshots).mpr hvalid, rfl⟩, Stateful.bind_eq_ok.mpr
      ⟨[], w, reading_eq_ok.mpr ⟨changes_of_clean h hclean, rfl⟩, rfl⟩⟩

theorem edited_of_load (h : load y d = .ok st) : Edited y st st := by
  obtain ⟨sources, hloading⟩ := loading_of_load h
  refine ⟨hloading.consistent, ?_, fun _ => rfl⟩
  cases hmain : st.sourcePaths.get .main with
  | none => exact absurd List.mem_cons_self ((hloading.read .main).mp hmain)
  | some p => rw [(hloading.consistent.path _ _ hmain).1]

/-- **Editing a loaded store and saving it.** -/
theorem save_reload {read : String → Except AuthError (AccountConfig ρ)} (hy : y.RoundTrips read)
    {d : Disk} {st₀ : AuthStore ρ} (hload : load y d = .ok st₀) (edits : List (Edit ρ)) :
    (∀ before e after, edits = before ++ e :: after →
      (∀ err st, (e.apply d).outcome (edited d before st₀) = (.error err, st) →
        st = edited d before st₀ ∧ err ≠ .panicked) ∧
      (e.IsUpsert → ∀ id source, (edited d before st₀).accountSource id = some source →
        (edited d (before ++ [e]) st₀).accountSource id = some source)) ∧
    ∀ w, (save y).outcome ⟨edited d edits st₀, d⟩ = (.ok (), w) →
      (w.store.accounts = (edited d edits st₀).accounts ∧
        ∀ id, w.store.accountSource id = (edited d edits st₀).accountSource id) ∧
      (∃ st, load y w.disk = .ok st ∧ (∀ a, a ∈ st.accounts ↔ a ∈ w.store.accounts) ∧
        ∀ id, st.accountSource id = w.store.accountSource id) ∧
      (∀ source, (∀ a, a ∈ (edited d edits st₀).owned source ↔ a ∈ st₀.owned source) →
        w.disk.get source = d.get source) ∧
      changes y w.store = .ok [] ∧ (save y).outcome w = (.ok (), w) := by
  obtain ⟨sources, hloading⟩ := loading_of_load hload
  have hstart := edited_of_load hload
  refine ⟨?_, ?_⟩
  · intro before e after _
    have hedited := hstart.edited d before
    refine ⟨fun err st herr => ⟨edit_error herr, ?_⟩, fun he id source hsource => ?_⟩
    · rintro rfl
      exact edit_not_panicked hedited herr
    · rw [edited, List.foldl_concat]
      exact upsert_keeps_source he hsource
  · intro w hsave
    have hedited := hstart.edited d edits
    have hsaved := saved_of_save hy hedited.consistent hsave
    have hsource : ∀ id, w.store.accountSource id = (edited d edits st₀).accountSource id := by
      intro id
      rw [accountSource, hsaved.sources]
      rfl
    refine ⟨⟨hsaved.accounts, hsource⟩, ?_, ?_, changes_of_clean hsaved.consistent hsaved.clean,
      save_of_clean hsaved.consistent hsaved.clean hsaved.validated⟩
    · refine exists_load hy hsaved.consistent hsaved.clean ?_ hsaved.validated
      rw [hsaved.paths]
      exact hedited.main
    · intro source hsame
      refine hsaved.unchanged source ?_
      show accountFingerprints y ((edited d edits st₀).owned source) =
        .ok (((edited d edits st₀).sourceBaselines.get source).getD [])
      rw [hedited.baseline source]
      exact accountFingerprints_congr (hloading.clean source)
        (nodup_owned hedited.consistent source) hsame

/-! A new account in a shard of an empty store. -/

def sampleAccount : AccountConfig Unit := ⟨"a1", ()⟩

def sampleAccountText : String :=
  "id: a1\nprovider: github-copilot\nenabled: true\ntier: active\ntags: []\nusername: null\n" ++
    "refresh_token: null\nsettings: \x7b\x7d\n"

def sampleFileText : String :=
  "version: 1\naccounts:\n- id: a1\n  provider: github-copilot\n  enabled: true\n" ++
    "  tier: active\n  tags: []\n  username: null\n  refresh_token: null\n" ++
    "  settings: \x7b\x7d\n"

/-- The YAML of the sample account. -/
def sampleYaml : Yaml Unit where
  accountToString a := if a = sampleAccount then .ok sampleAccountText else .error (.yaml "")
  fileToString f :=
    if f.version = CURRENT_VERSION ∧ f.accounts = [sampleAccount] then .ok sampleFileText
    else .error (.yaml "")
  fileFromStr s :=
    if s = sampleFileText then .ok ⟨CURRENT_VERSION, [sampleAccount]⟩ else .error (.yaml "")

theorem sampleYaml_roundTrips : sampleYaml.RoundTrips fun s =>
    if s = sampleAccountText then .ok sampleAccount else .error (.yaml "") where
  account := by
    intro a s h
    simp only [sampleYaml] at h
    split_ifs at h with ha
    cases h
    rw [if_pos rfl, ha]
  file := by
    rintro ⟨version, accounts⟩ s h
    simp only [sampleYaml] at h
    split_ifs at h with hf
    obtain ⟨rfl, rfl⟩ := hf
    cases h
    show (if sampleFileText = sampleFileText then _ else .error (.yaml "")) = _
    exact if_pos rfl

def emptyDisk : Disk := ⟨[], Table.keyed_nil⟩

/-- The store of an empty disk. -/
def emptyStore : AuthStore Unit := ⟨[], [], [(.main, .main)], [(.main, [])], [(.main, .missing)]⟩

theorem load_emptyDisk : load sampleYaml emptyDisk = .ok emptyStore := by
  have hshards : discoverShards emptyDisk = .ok [] := by
    rw [discoverShards]
    show Except.ok (List.mergeSort [] _) = _
    rw [List.mergeSort_nil]
  refine Except.bind_eq_ok.mpr ⟨emptyStore, rfl, Except.bind_eq_ok.mpr ⟨[], hshards, rfl⟩⟩

def sampleChange : Change Unit :=
  ⟨.shard "opencode", .shard "opencode", [("a1", sampleAccountText)], [sampleAccount]⟩

/-- The store with the account, before it is saved. -/
def sampleStore : AuthStore Unit where
  accounts := [sampleAccount]
  accountSources := [("a1", .shard "opencode")]
  sourcePaths := [(.main, .main), (.shard "opencode", .shard "opencode")]
  sourceBaselines := [(.main, []), (.shard "opencode", [])]
  sourceSnapshots := [(.main, .missing), (.shard "opencode", .missing)]

theorem edited_emptyStore :
    edited emptyDisk [.upsertInShard "opencode" sampleAccount] emptyStore = sampleStore := by
  rfl

theorem validate_sampleStore : validateSourcesUnchanged emptyDisk sampleStore = .ok () := by
  have hsorted : BTreeMap.Sorted sampleStore.sourceSnapshots := by
    show List.Pairwise (· < ·) [AuthSource.main, .shard "opencode"]
    decide
  refine (validateSourcesUnchanged_eq_ok hsorted).mpr ⟨?_, ?_, ?_, ?_⟩
  · intro path target h
    cases h
  · intro name bytes h
    cases h
  · intro name
    constructor
    · rintro ⟨bytes, h⟩
      cases h
    · rintro ⟨bytes, h⟩
      rw [sampleStore, BTreeMap.get_cons, BTreeMap.get_cons] at h
      split_ifs at h <;> cases h
  · intro source path h
    rcases List.mem_cons.mp h with h | h
    · cases h
      exact ⟨.missing, rfl, rfl⟩
    · cases List.mem_singleton.mp h
      exact ⟨.missing, rfl, rfl⟩

theorem changes_sampleStore : changes sampleYaml sampleStore = .ok [sampleChange] := by
  rfl

theorem save_reload_sample : ∃ w,
    (save sampleYaml).outcome
      ⟨edited emptyDisk [.upsertInShard "opencode" sampleAccount] emptyStore, emptyDisk⟩ =
        (.ok (), w) ∧ w.store.accounts = [sampleAccount] ∧
    (∃ st, load sampleYaml w.disk = .ok st ∧ ∀ a, a ∈ st.accounts ↔ a ∈ w.store.accounts) ∧
    (save sampleYaml).outcome w = (.ok (), w) := by
  have hsave : ∃ w, (save sampleYaml).outcome
      ⟨edited emptyDisk [.upsertInShard "opencode" sampleAccount] emptyStore, emptyDisk⟩ =
        (.ok (), w) := by
    rw [edited_emptyStore]
    have hchange : (saveChange sampleYaml sampleChange).outcome ⟨sampleStore, emptyDisk⟩ =
        (.ok (), ⟨sampleStore.saved sampleChange.source sampleChange.current
          sampleFileText.toByteArray, emptyDisk.put sampleChange.path
            (.file sampleFileText.toByteArray)⟩) :=
      Stateful.bind_eq_ok.mpr ⟨.createIfAbsent, _, reading_eq_ok.mpr ⟨rfl, rfl⟩,
        Stateful.bind_eq_ok.mpr ⟨sampleFileText.toByteArray, _,
          reading_eq_ok.mpr ⟨rfl, rfl⟩,
          Stateful.bind_eq_ok.mpr ⟨⟨⟩, _,
            reading_eq_ok.mpr ⟨validate_sampleStore, rfl⟩,
            Stateful.bind_eq_ok.mpr ⟨⟨⟩, _, Stateful.replacing_eq_ok.mpr rfl, rfl⟩⟩⟩⟩
    exact ⟨_, Stateful.bind_eq_ok.mpr ⟨⟨⟩, _,
      reading_eq_ok.mpr ⟨validate_sampleStore, rfl⟩,
      Stateful.bind_eq_ok.mpr ⟨_, _, reading_eq_ok.mpr ⟨changes_sampleStore, rfl⟩,
        Stateful.bind_eq_ok.mpr ⟨⟨⟩, _, hchange, rfl⟩⟩⟩⟩
  obtain ⟨w, hsave⟩ := hsave
  obtain ⟨-, hsaved⟩ := save_reload sampleYaml_roundTrips load_emptyDisk
    [.upsertInShard "opencode" sampleAccount]
  obtain ⟨⟨haccounts, -⟩, ⟨st, hload, hall, -⟩, -, -, hagain⟩ := hsaved w hsave
  exact ⟨w, hsave, haccounts, ⟨st, hload, hall⟩, hagain⟩

end AuthStore

end Tokn.Auth
