import Tokn.Auth.StoreProof

/-!
# A save that stops

A save writes the changed sources one after the other. Where it stops, some of them hold the
accounts that are in memory and the others hold those of the last save (`holds_of_stops`).

**Theorem (`AuthStore.safelyStopped_iff`).** The files that are left can be loaded and have all
accounts of both states exactly if no account moved between a source that was written and one that
was not. A second save writes what is left in any case. A save that fails has stopped, too
(`stops_of_save`).
-/

namespace Tokn.Auth

open Stateful (bind_eq_ok bind_reading_cases reading_eq_ok)

variable {ρ : Type} {y : Yaml ρ}

namespace AuthStore

/-! ## Stopping -/

/-- A save stops after it has written the first of its changes. -/
structure Stops (y : Yaml ρ) (w : World ρ) (done rest : List (Change ρ)) (u : World ρ) : Prop where
  validated : validateSourcesUnchanged w.disk w.store = .ok ()
  changes : changes y w.store = .ok (done ++ rest)
  written : (done.forM (saveChange y)).outcome w = (.ok (), u)

variable {w u : World ρ} {done rest : List (Change ρ)}

/-- A change that cannot be saved leaves everything as it was. -/
theorem saveChange_error {c : Change ρ} {e : AuthError}
    (h : (saveChange y c).outcome w = (.error e, u)) : u = w := by
  rcases bind_reading_cases h with ⟨_, -, h⟩ | ⟨install, -, h⟩
  · exact (Prod.mk.inj h).2
  rcases bind_reading_cases h with ⟨_, -, h⟩ | ⟨contents, -, h⟩
  · exact (Prod.mk.inj h).2
  rcases bind_reading_cases h with ⟨_, -, h⟩ | ⟨_, -, h⟩
  · exact (Prod.mk.inj h).2
  rw [Stateful.outcome_bind, Stateful.replacing_outcome] at h
  cases hcommit : commit w.disk c.path contents install with
  | error e' =>
    rw [hcommit] at h
    exact (Prod.mk.inj h).2.symm
  | ok d =>
    rw [hcommit] at h
    cases h

/-- Whatever a save comes to, it has stopped somewhere. -/
theorem stops_of_save {r : Except AuthError Unit} (h : (save y).outcome w = (r, u)) :
    u = w ∨ ∃ done rest, Stops y w done rest u := by
  rcases bind_reading_cases h with ⟨_, -, h⟩ | ⟨⟨⟩, hvalid, h⟩
  · exact Or.inl (Prod.mk.inj h).2
  rcases bind_reading_cases h with ⟨_, -, h⟩ | ⟨cs, hchanges, h⟩
  · exact Or.inl (Prod.mk.inj h).2
  cases r with
  | ok _ => exact Or.inr ⟨cs, [], hvalid, (List.append_nil cs).symm ▸ hchanges, h⟩
  | error e =>
    obtain ⟨done, c, rest, t, rfl, hdone, hc⟩ := Stateful.forM_eq_error h
    cases saveChange_error hc
    exact Or.inr ⟨done, c :: rest, hvalid, hchanges, hdone⟩

/-- What happens to a loaded store: edits, saves that may stop, and what others do to the files. -/
inductive Session (y : Yaml ρ) : World ρ → Prop where
  | load {d : Disk} {st : AuthStore ρ} (hload : load y d = .ok st) : Session y ⟨st, d⟩
  | edit {w : World ρ} (hw : Session y w) (e : Edit ρ) :
    Session y ⟨((e.apply w.disk).outcome w.store).2, w.disk⟩
  | save {w u : World ρ} {done rest : List (Change ρ)} (hw : Session y w)
    (hstops : Stops y w done rest u) : Session y u
  | disk {w : World ρ} (hw : Session y w) (d : Disk) : Session y ⟨w.store, d⟩

theorem saving_of_stops {read : String → Except AuthError (AccountConfig ρ)}
    (hy : y.RoundTrips read) (h : Consistent y w.store) (hstops : Stops y w done rest u) :
    Pending y w.store (done ++ rest) ∧ Saving y w u done := by
  have hpending := pending_of_changes h hstops.changes
  have hleft : ∀ c ∈ done, c ∈ done ++ rest := fun c hc => List.mem_append_left rest hc
  have hnodup : (done.map Change.source).Nodup := by
    have hall := hpending.nodup
    rw [List.map_append, List.nodup_append] at hall
    exact hall.1
  exact ⟨hpending, saving_of_changes hy hstops.written h
    ((validateSourcesUnchanged_eq_ok h.snapshots).mp hstops.validated) hnodup
    (fun c hc => hpending.known c (hleft c hc)) fun c hc => hpending.current c (hleft c hc)⟩

/-- **A store keeps its invariant**, whatever happens to it. -/
theorem Session.consistent {read : String → Except AuthError (AccountConfig ρ)}
    (hy : y.RoundTrips read) (h : Session y w) :
    Consistent y w.store ∧ w.store.sourcePaths.get .main = some .main := by
  induction h with
  | load hload =>
    have hstart := edited_of_load hload
    exact ⟨hstart.consistent, hstart.main⟩
  | @edit w _ e ih =>
    have hsame : Edited y w.store w.store := ⟨ih.1, ih.2, fun _ => rfl⟩
    have hedited := hsame.apply w.disk e
    exact ⟨hedited.consistent, hedited.main⟩
  | save _ hstops ih =>
    obtain ⟨-, hsaving⟩ := saving_of_stops hy ih.1 hstops
    exact ⟨hsaving.consistent, hsaving.paths ▸ ih.2⟩
  | disk _ _ ih => exact ih

/-! ## What the files hold then -/

/-- The sources that have been written hold what is in memory, the others what they held. -/
theorem holds_of_stops {read : String → Except AuthError (AccountConfig ρ)} (hy : y.RoundTrips read)
    (h : Consistent y w.store) (hstops : Stops y w done rest u) (s : AuthSource) (id : String) :
    (s ∈ done.map Change.source → (Holds y u.disk s id ↔ w.store.accountSource id = some s)) ∧
      (s ∉ done.map Change.source → (Holds y u.disk s id ↔ Holds y w.disk s id)) := by
  obtain ⟨hpending, hsaving⟩ := saving_of_stops hy h hstops
  refine ⟨fun hs => ?_, fun hs => ?_⟩
  · obtain ⟨c, hc, rfl⟩ := List.mem_map.mp hs
    have hmem : c ∈ done ++ rest := List.mem_append_left rest hc
    have hknown := hpending.known c hmem
    obtain ⟨hpath, -⟩ := h.path _ _ hknown
    rw [hpath, ← hsaving.paths] at hknown
    obtain ⟨snapshot, baseline, hreads, hbaseline⟩ :=
      reads_of_validated hsaving.consistent hsaving.validated hknown
    rw [hsaving.written c hc, Option.some.injEq] at hbaseline
    subst hbaseline
    have hsame : ∀ a, a ∈ stored y u.disk c.source ↔ a ∈ w.store.owned c.source := by
      intro a
      rw [← hpending.accounts c hmem]
      exact mem_iff_of_fingerprints hy hreads.fingerprints (hpending.current c hmem) a
    rw [Holds]
    simp only [hsame, mem_owned]
    constructor
    · rintro ⟨a, ⟨-, hsource⟩, rfl⟩
      exact hsource
    · intro hsource
      obtain ⟨a, ha, rfl⟩ := h.account id c.source hsource
      exact ⟨a, ⟨ha, hsource⟩, rfl⟩
  · rw [Holds, Holds, stored_congr (hsaving.others s hs).2]

/-! ## Saving again -/

theorem exists_saveChange {c : Change ρ} (h : Consistent y w.store)
    (hvalid : Validated w.disk w.store) (hknown : w.store.sourcePaths.get c.source = some c.path)
    {contents : ByteArray} (hstage : stageAuthFile y c.accounts = .ok contents) :
    ∃ u, (saveChange y c).outcome w = (.ok (), u) := by
  obtain ⟨snapshot, hsnapshot, hcapture⟩ :=
    hvalid.snapshots c.source c.path (BTreeMap.mem_of_get hknown)
  have hinstall : w.store.installMode c.source c.path = .ok snapshot.installMode := by
    rw [installMode, hsnapshot]
  obtain ⟨d, hcommit⟩ : ∃ d, commit w.disk c.path contents snapshot.installMode = .ok d := by
    rw [SourceSnapshot.capture] at hcapture
    cases hget : w.disk.get c.path with
    | none =>
      rw [hget] at hcapture
      cases hcapture
      exact ⟨_, by rw [SourceSnapshot.installMode, commit, hget]⟩
    | some entry =>
      rw [hget] at hcapture
      cases entry with
      | file bytes =>
        cases hcapture
        exact ⟨_, by rw [SourceSnapshot.installMode, commit, hget]⟩
      | symlink target => exact absurd hget (hvalid.direct _ _)
      | directory => cases hcapture
  refine ⟨_, bind_eq_ok.mpr ⟨_, w, reading_eq_ok.mpr ⟨hinstall, rfl⟩,
    bind_eq_ok.mpr ⟨contents, w, reading_eq_ok.mpr ⟨hstage, rfl⟩,
    bind_eq_ok.mpr ⟨(), w, reading_eq_ok.mpr
      ⟨(validateSourcesUnchanged_eq_ok h.snapshots).mpr hvalid, rfl⟩,
    bind_eq_ok.mpr ⟨(), ⟨w.store, d⟩, Stateful.replacing_eq_ok.mpr ?_, rfl⟩⟩⟩⟩⟩
  rw [hcommit]
  rfl

theorem exists_saveChanges {read : String → Except AuthError (AccountConfig ρ)}
    (hy : y.RoundTrips read) {cs : List (Change ρ)} (h : Consistent y w.store)
    (hvalid : Validated w.disk w.store)
    (hknown : ∀ c ∈ cs, w.store.sourcePaths.get c.source = some c.path)
    (hcurrent : ∀ c ∈ cs, accountFingerprints y c.accounts = .ok c.current)
    (hstage : ∀ c ∈ cs, ∃ contents, stageAuthFile y c.accounts = .ok contents) :
    ∃ u, (cs.forM (saveChange y)).outcome w = (.ok (), u) := by
  induction cs generalizing w with
  | nil => exact ⟨w, rfl⟩
  | cons c cs ih =>
    obtain ⟨hpath, hknown⟩ := List.forall_mem_cons.mp hknown
    obtain ⟨hprints, hcurrent⟩ := List.forall_mem_cons.mp hcurrent
    obtain ⟨⟨contents, hcontents⟩, hstage⟩ := List.forall_mem_cons.mp hstage
    obtain ⟨v, hv⟩ := exists_saveChange h hvalid hpath hcontents
    obtain ⟨contents', hcontents', -, rfl⟩ := saveChange_eq_ok hv
    obtain ⟨hsource, -⟩ := h.path _ _ hpath
    have hvalid' : Validated (w.disk.put c.path (.file contents'))
        (w.store.saved c.source c.current contents') := by
      rw [hsource] at hpath ⊢
      exact validated_saved h hvalid hpath c.current contents'
    have hconsistent := consistent_saved hy h hpath hprints hcontents'
    obtain ⟨u, hu⟩ := ih (w := ⟨_, _⟩) hconsistent hvalid' hknown hcurrent hstage
    exact ⟨u, bind_eq_ok.mpr ⟨(), _, hv, hu⟩⟩

/-- After the first changes, the others are what is left to save. -/
theorem changes_of_stops {read : String → Except AuthError (AccountConfig ρ)}
    (hy : y.RoundTrips read) (h : Consistent y w.store) (hstops : Stops y w done rest u) :
    changes y u.store = .ok rest := by
  obtain ⟨hpending, hsaving⟩ := saving_of_stops hy h hstops
  obtain ⟨found, hfound, hforall⟩ := (changes_eq_ok h).mp hstops.changes
  have howned : ∀ s, u.store.owned s = w.store.owned s := by
    intro s
    unfold owned accountSource
    rw [hsaving.accounts, hsaving.sources]
  have hnodup := hpending.nodup
  rw [List.map_append, List.nodup_append] at hnodup
  -- The changes that were written are no changes any more.
  have hchange : ∀ (e : AuthSource × PathBuf) (o : Option (Change ρ)),
      sourceChange y w.store (w.store.owned e.1) e.1 e.2 = .ok o →
      (∀ c, o = some c → c ∈ done ++ rest) →
      sourceChange y u.store (u.store.owned e.1) e.1 e.2 =
        .ok (o.filter fun c => decide (c.source ∉ done.map Change.source)) := by
    intro e o ho hin
    obtain ⟨current, hcurrent, hcase⟩ := sourceChange_eq_ok.mp ho
    refine sourceChange_eq_ok.mpr ⟨current, by rw [howned]; exact hcurrent, ?_⟩
    by_cases hdone : e.1 ∈ done.map Change.source
    · obtain ⟨c, hc, hsource⟩ := List.mem_map.mp hdone
      have hbaseline : u.store.sourceBaselines.get e.1 = some current := by
        have hwritten := hpending.current c (List.mem_append_left rest hc)
        rw [hpending.accounts c (List.mem_append_left rest hc), hsource, hcurrent] at hwritten
        rw [← hsource, hsaving.written c hc, Except.ok.inj hwritten]
      rw [if_pos hbaseline, hcase]
      by_cases hold : w.store.sourceBaselines.get e.1 = some current
      · rw [if_pos hold]
        rfl
      · rw [if_neg hold, Option.filter_some, if_neg (by rw [decide_eq_true_eq]; exact fun h => h hdone)]
    · rw [(hsaving.others e.1 hdone).1, hcase, howned]
      by_cases hold : w.store.sourceBaselines.get e.1 = some current
      · rw [if_pos hold]
        rfl
      · rw [if_neg hold, Option.filter_some, if_pos (decide_eq_true hdone)]
  have hreduce : ∀ l : List (Option (Change ρ)),
      (l.map (Option.filter fun c => decide (c.source ∉ done.map Change.source))).reduceOption =
        l.reduceOption.filter fun c => decide (c.source ∉ done.map Change.source) := by
    intro l
    induction l with
    | nil => rfl
    | cons o l ih =>
      cases o with
      | none => exact ih
      | some c =>
        rw [List.map_cons, List.reduceOption_cons_of_some, List.filter_cons, ← ih,
          Option.filter_some]
        by_cases hc : decide (c.source ∉ done.map Change.source) = true
        · rw [if_pos hc, if_pos hc, List.reduceOption_cons_of_some]
        · rw [if_neg hc, if_neg hc, List.reduceOption_cons_of_none]
  refine (changes_eq_ok hsaving.consistent).mpr ⟨found.map
    (Option.filter fun c => decide (c.source ∉ done.map Change.source)), ?_, ?_⟩
  · rw [hreduce, ← hfound, List.filter_append]
    have hleft : done.filter (fun c => decide (c.source ∉ done.map Change.source)) = [] := by
      rw [List.filter_eq_nil_iff]
      intro c hc
      simpa using ⟨c, hc, rfl⟩
    have hright : rest.filter (fun c => decide (c.source ∉ done.map Change.source)) = rest := by
      rw [List.filter_eq_self]
      intro c hc
      rw [decide_eq_true_eq]
      exact fun hmem => hnodup.2.2 _ hmem _ (List.mem_map_of_mem hc) rfl
    rw [hleft, hright, List.nil_append]
  · rw [hsaving.paths, List.forall₂_map_right_iff]
    have hin : ∀ o ∈ found, ∀ c, o = some c → c ∈ done ++ rest := by
      rintro o ho c rfl
      rw [hfound]
      exact List.reduceOption_mem_iff.mpr ho
    clear hreduce hfound
    generalize w.store.sourcePaths = paths at hforall
    induction hforall with
    | nil => exact List.Forall₂.nil
    | cons hstep _ ih =>
      obtain ⟨hfirst, hin⟩ := List.forall_mem_cons.mp hin
      exact List.Forall₂.cons (hchange _ _ hstep hfirst) (ih hin)

/-- **A second save does what was left of the first**, and no more. -/
theorem save_of_stops {read : String → Except AuthError (AccountConfig ρ)} (hy : y.RoundTrips read)
    (h : Consistent y w.store) (hstops : Stops y w done rest u) :
    (save y).outcome u = (rest.forM (saveChange y)).outcome u ∧
      (save y).outcome w = (save y).outcome u := by
  obtain ⟨-, hsaving⟩ := saving_of_stops hy h hstops
  have hsave : ∀ {v : World ρ} {cs : List (Change ρ)},
      validateSourcesUnchanged v.disk v.store = .ok () → changes y v.store = .ok cs →
        (save y).outcome v = (cs.forM (saveChange y)).outcome v := by
    intro v cs hvalid hchanges
    rw [save, Stateful.bind_reading
      (f := fun w : World ρ => validateSourcesUnchanged w.disk w.store) hvalid,
      saveWithBeforeCommit, Stateful.bind_reading (f := fun w : World ρ => changes y w.store)
      hchanges]
  have hagain := hsave ((validateSourcesUnchanged_eq_ok hsaving.consistent.snapshots).mpr
    hsaving.validated) (changes_of_stops hy h hstops)
  refine ⟨hagain, ?_⟩
  rw [hagain, hsave hstops.validated hstops.changes, Stateful.outcome_forM_append hstops.written]

/-! ## The exact condition -/

/-- What is wanted of a save that stopped: the files can be loaded and have lost no account that is
in both states, and a second save completes the first. -/
structure SafelyStopped (y : Yaml ρ) (st₀ : AuthStore ρ) (w u : World ρ) (rest : List (Change ρ)) :
    Prop where
  loads : ∃ st, load y u.disk = .ok st
  kept : ∀ id, (st₀.accountSource id).isSome = true → (w.store.accountSource id).isSome = true →
    ∃ s, Holds y u.disk s id
  retry : (∀ c ∈ rest, ∃ contents, stageAuthFile y c.accounts = .ok contents) →
    ∃ t, (save y).outcome u = (.ok (), t) ∧ (save y).outcome w = (.ok (), t) ∧
      changes y t.store = .ok [] ∧ ∃ st, load y t.disk = .ok st ∧
        (∀ a, a ∈ st.accounts ↔ a ∈ w.store.accounts) ∧
        ∀ id, st.accountSource id = w.store.accountSource id

/-- **Stopping a save.** -/
theorem safelyStopped_iff {read : String → Except AuthError (AccountConfig ρ)}
    (hy : y.RoundTrips read) {w u : World ρ} (hw : Session y w) {st₀ : AuthStore ρ}
    (hload : load y w.disk = .ok st₀) {done rest : List (Change ρ)}
    (hstops : Stops y w done rest u) :
    SafelyStopped y st₀ w u rest ↔ ∀ id s t, st₀.accountSource id = some s →
      w.store.accountSource id = some t →
        (s ∈ done.map Change.source ↔ t ∈ done.map Change.source) := by
  obtain ⟨h, hmain⟩ := hw.consistent hy
  obtain ⟨hpending, hsaving⟩ := saving_of_stops hy h hstops
  have hvalid := (validateSourcesUnchanged_eq_ok h.snapshots).mp hstops.validated
  have hold : ∀ id s, st₀.accountSource id = some s ↔ Holds y w.disk s id :=
    (load_spec hvalid.direct hload).2
  have hholds : ∀ id s, Holds y u.disk s id ↔
      s ∈ done.map Change.source ∧ w.store.accountSource id = some s ∨
        s ∉ done.map Change.source ∧ st₀.accountSource id = some s := by
    intro id s
    obtain ⟨hwritten, hkept⟩ := holds_of_stops hy h hstops s id
    by_cases hs : s ∈ done.map Change.source
    · simp [hs, hwritten hs]
    · simp [hs, hkept hs, hold]
  constructor
  · rintro ⟨⟨st, hst⟩, hkept, -⟩ id s t hs ht
    have hsource := (load_spec hsaving.validated.direct hst).2
    constructor
    · -- Otherwise the account is in no file.
      intro hsdone
      by_contra htdone
      obtain ⟨r, hr⟩ := hkept id (by rw [hs]; rfl) (by rw [ht]; rfl)
      rcases (hholds id r).mp hr with ⟨hdone, hr⟩ | ⟨hnot, hr⟩
      · exact htdone (Option.some.inj (ht.symm.trans hr) ▸ hdone)
      · exact hnot (Option.some.inj (hs.symm.trans hr) ▸ hsdone)
    · -- Otherwise it is in two.
      intro htdone
      by_contra hsdone
      have hnew := (hsource id t).mpr ((hholds id t).mpr (Or.inl ⟨htdone, ht⟩))
      have hprevious := (hsource id s).mpr ((hholds id s).mpr (Or.inr ⟨hsdone, hs⟩))
      exact hsdone (Option.some.inj (hnew.symm.trans hprevious) ▸ htdone)
  · intro hmoved
    refine ⟨?_, ?_, ?_⟩
    · refine exists_load_of_distinct hsaving.consistent (hsaving.paths ▸ hmain) hsaving.validated
        fun id s t hs ht => ?_
      rcases (hholds id s).mp hs with ⟨hsdone, hs⟩ | ⟨hsdone, hs⟩ <;>
        rcases (hholds id t).mp ht with ⟨htdone, ht⟩ | ⟨htdone, ht⟩
      · exact Option.some.inj (hs.symm.trans ht)
      · exact absurd ((hmoved id t s ht hs).mpr hsdone) htdone
      · exact absurd ((hmoved id s t hs ht).mpr htdone) hsdone
      · exact Option.some.inj (hs.symm.trans ht)
    · intro id hs ht
      obtain ⟨s, hs⟩ := Option.isSome_iff_exists.mp hs
      obtain ⟨t, ht⟩ := Option.isSome_iff_exists.mp ht
      by_cases hdone : s ∈ done.map Change.source
      · exact ⟨t, (hholds id t).mpr (Or.inl ⟨(hmoved id s t hs ht).mp hdone, ht⟩)⟩
      · exact ⟨s, (hholds id s).mpr (Or.inr ⟨hdone, hs⟩)⟩
    · intro hstage
      obtain ⟨hagain, hsame⟩ := save_of_stops hy h hstops
      have hnodup := hpending.nodup
      obtain ⟨t, ht⟩ := exists_saveChanges hy hsaving.consistent hsaving.validated
        (fun c hc => hsaving.paths ▸ hpending.known c (List.mem_append_right done hc))
        (fun c hc => hpending.current c (List.mem_append_right done hc)) hstage
      have hsave := hsame.trans (hagain.trans ht)
      have hsaved := saved_of_save hy h hsave
      obtain ⟨st, hst, haccounts, hsources⟩ := exists_load hy hsaved.consistent hsaved.clean
        (hsaved.paths ▸ hmain) hsaved.validated
      refine ⟨t, hagain.trans ht, hsave, changes_of_clean hsaved.consistent hsaved.clean, st, hst,
        fun a => ?_, fun id => ?_⟩
      · rw [haccounts, hsaved.accounts]
      · rw [hsources, accountSource, hsaved.sources]
        rfl

/-! An account that moves from the root file to a shard, and a save that stops in between. -/

def noAccountsText : String := "version: 1\naccounts: []\n"

/-- The YAML of files with the sample account, or with no account. -/
def movedYaml : Yaml Unit where
  accountToString := sampleYaml.accountToString
  fileToString f :=
    if f.version = CURRENT_VERSION ∧ f.accounts = [] then .ok noAccountsText
    else sampleYaml.fileToString f
  fileFromStr s :=
    if s = noAccountsText then .ok ⟨CURRENT_VERSION, []⟩ else sampleYaml.fileFromStr s

theorem fileFromStr_movedYaml (s : String) : movedYaml.fileFromStr s =
    if s = noAccountsText then .ok ⟨CURRENT_VERSION, []⟩ else sampleYaml.fileFromStr s := rfl

theorem movedYaml_roundTrips : movedYaml.RoundTrips fun s =>
    if s = sampleAccountText then .ok sampleAccount else .error (.yaml "") where
  account := sampleYaml_roundTrips.account
  file := by
    rintro ⟨version, accounts⟩ s h
    simp only [movedYaml] at h
    by_cases hf : version = CURRENT_VERSION ∧ accounts = []
    · rw [if_pos hf] at h
      cases h
      obtain ⟨rfl, rfl⟩ := hf
      rw [fileFromStr_movedYaml, if_pos rfl]
    · rw [if_neg hf] at h
      have hs : s ≠ noAccountsText := by
        rintro rfl
        simp only [sampleYaml] at h
        split_ifs at h
        exact absurd (Except.ok.inj h) (by decide : sampleFileText ≠ noAccountsText)
      rw [fileFromStr_movedYaml, if_neg hs]
      exact sampleYaml_roundTrips.file _ _ h

def movedDisk : Disk := emptyDisk.put .main (.file sampleFileText.toByteArray)

/-- The store of the root file with the account. -/
def movedLoaded : AuthStore Unit where
  accounts := [sampleAccount]
  accountSources := [("a1", .main)]
  sourcePaths := [(.main, .main)]
  sourceBaselines := [(.main, [("a1", sampleAccountText)])]
  sourceSnapshots := [(.main, .contents sampleFileText.toByteArray)]

/-- The store with the account in the shard, before it is saved. -/
def movedStore : AuthStore Unit where
  accounts := [sampleAccount]
  accountSources := [("a1", .shard "opencode")]
  sourcePaths := [(.main, .main), (.shard "opencode", .shard "opencode")]
  sourceBaselines := [(.main, [("a1", sampleAccountText)]), (.shard "opencode", [])]
  sourceSnapshots :=
    [(.main, .contents sampleFileText.toByteArray), (.shard "opencode", .missing)]

def movedChange : Change Unit := ⟨.main, .main, [], []⟩

/-- The save has written the root file, without the account. -/
def movedStopped : World Unit :=
  ⟨movedStore.saved .main [] noAccountsText.toByteArray,
    movedDisk.put .main (.file noAccountsText.toByteArray)⟩

theorem load_movedDisk : load movedYaml movedDisk = .ok movedLoaded := by
  have hshards : discoverShards movedDisk = .ok [] := by
    rw [discoverShards]
    show Except.ok (List.mergeSort [] _) = _
    rw [List.mergeSort_nil]
  have hparse : parseAuthFile movedYaml .main sampleFileText.toByteArray =
      .ok ⟨CURRENT_VERSION, [sampleAccount]⟩ := by
    rw [parseAuthFile, String.fromUTF8?, dif_pos sampleFileText.isValidUTF8]
    exact Except.bind_eq_ok.mpr ⟨⟨CURRENT_VERSION, [sampleAccount]⟩,
      movedYaml_roundTrips.file _ _ rfl, rfl⟩
  have hread : readAccounts movedYaml .main (.contents sampleFileText.toByteArray) =
      .ok [sampleAccount] := by rw [readAccounts, hparse]; rfl
  refine Except.bind_eq_ok.mpr ⟨movedLoaded, loadSource_eq_ok.mpr
    ⟨_, _, [("a1", sampleAccountText)], ⟨rfl, hread, rfl⟩, fun a _ => rfl, rfl⟩,
    Except.bind_eq_ok.mpr ⟨[], hshards, rfl⟩⟩

theorem session_movedStore : Session movedYaml ⟨movedStore, movedDisk⟩ :=
  ((Session.load load_movedDisk).edit (.remove "a1")).edit (.upsertInShard "opencode" sampleAccount)

theorem get_movedDisk (path : PathBuf) : movedDisk.get path =
    if path = .main then some (.file sampleFileText.toByteArray) else none := by
  rw [movedDisk, Disk.get_put]
  rfl

theorem validated_movedStore : Validated movedDisk movedStore := by
  refine ⟨?_, ?_, ?_, ?_⟩
  · intro path target h
    rw [get_movedDisk] at h
    split_ifs at h
    cases h
  · intro name bytes h
    rw [get_movedDisk, if_neg AuthSource.noConfusion] at h
    cases h
  · intro name
    rw [get_movedDisk, if_neg AuthSource.noConfusion]
    constructor
    · rintro ⟨bytes, h⟩
      cases h
    · rintro ⟨bytes, h⟩
      rw [movedStore, BTreeMap.get_cons, BTreeMap.get_cons, if_neg AuthSource.noConfusion] at h
      split_ifs at h <;> cases h
  · intro source path h
    rcases List.mem_cons.mp h with h | h
    · cases h
      exact ⟨_, rfl, rfl⟩
    · cases List.mem_singleton.mp h
      exact ⟨.missing, rfl, rfl⟩

theorem stops_movedStore :
    Stops movedYaml ⟨movedStore, movedDisk⟩ [movedChange] [sampleChange] movedStopped := by
  have hvalid : validateSourcesUnchanged movedDisk movedStore = .ok () :=
    (validateSourcesUnchanged_eq_ok (session_movedStore.consistent movedYaml_roundTrips).1.snapshots).mpr
      validated_movedStore
  refine ⟨hvalid, rfl, bind_eq_ok.mpr ⟨⟨⟩, movedStopped, ?_, rfl⟩⟩
  exact bind_eq_ok.mpr ⟨.replace, _, reading_eq_ok.mpr ⟨rfl, rfl⟩,
    bind_eq_ok.mpr ⟨noAccountsText.toByteArray, _, reading_eq_ok.mpr ⟨rfl, rfl⟩,
      bind_eq_ok.mpr ⟨⟨⟩, _, reading_eq_ok.mpr ⟨hvalid, rfl⟩,
        bind_eq_ok.mpr ⟨⟨⟩, _, Stateful.replacing_eq_ok.mpr rfl, rfl⟩⟩⟩⟩

theorem safelyStopped_iff_moved :
    SafelyStopped movedYaml movedLoaded ⟨movedStore, movedDisk⟩ movedStopped [sampleChange] ↔
      ∀ id s t, movedLoaded.accountSource id = some s → movedStore.accountSource id = some t →
        (s ∈ [movedChange].map Change.source ↔ t ∈ [movedChange].map Change.source) :=
  safelyStopped_iff movedYaml_roundTrips session_movedStore load_movedDisk stops_movedStore

/-- The account is in both states, and in no file. -/
theorem stopped_without_account :
    Session movedYaml ⟨movedStore, movedDisk⟩ ∧ load movedYaml movedDisk = .ok movedLoaded ∧
      Stops movedYaml ⟨movedStore, movedDisk⟩ [movedChange] [sampleChange] movedStopped ∧
      movedLoaded.accountSource "a1" = some .main ∧
      movedStore.accountSource "a1" = some (.shard "opencode") ∧
      ∀ s, ¬ Holds movedYaml movedStopped.disk s "a1" := by
  refine ⟨session_movedStore, load_movedDisk, stops_movedStore, rfl, rfl, fun s hs => ?_⟩
  obtain ⟨hwritten, hkept⟩ := holds_of_stops movedYaml_roundTrips
    (session_movedStore.consistent movedYaml_roundTrips).1 stops_movedStore s "a1"
  by_cases hmain : s = .main
  · subst hmain
    have hsource := (hwritten (by decide)).mp hs
    exact absurd hsource (by decide)
  · have hnot : s ∉ [movedChange].map Change.source := by simpa [movedChange] using hmain
    have hold := (load_spec validated_movedStore.direct load_movedDisk).2 "a1" s
    have hsource : movedLoaded.accountSource "a1" = some .main := rfl
    exact hmain (Option.some.inj ((hold.mpr ((hkept hnot).mp hs)).symm.trans hsource))

end AuthStore

end Tokn.Auth
