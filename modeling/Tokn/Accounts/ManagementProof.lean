import Tokn.Accounts.Management
import Tokn.Auth.StoreProof

/-!
# Account management, one call after the other

**The invariant** (`Inv`). The calls that gave the lock back without an error, run one after the
other, lead to the files as the holder of the lock found them. What the holder has read is still what
a load finds, since nobody else writes; and what a probe has saved is what it would save alone.

**Theorem (`management_serialised`).** However the calls of any number of processes interleave, the
files are those of the calls that succeeded, one after the other in the order of their locks. A call
that gets no lock changes nothing, an id that is in use goes on naming the same account, and a probe
gives the lock back when what its exchange returned can be loaded from the files.
-/

namespace Tokn.Accounts.Management

open Tokn.Auth (AuthStore AuthError Disk Yaml)

variable {ω β : Type} {y : Yaml (Fields ω)}

/-! ## Fields that an exchange returned -/

/-- A field that may have been returned. What is blank has not. -/
structure Kept (field before after : Option String) : Prop where
  returned : ∀ t, field = some t → Str.trim t ≠ "" → after = some t
  omitted : (∀ t, field = some t → Str.trim t = "") → after = before

theorem kept_present (field before : Option String) :
    Kept field before (present field <|> before) := by
  constructor
  · intro t ht hne
    rw [ht, present, Option.filter_some, if_pos (by simpa using hne)]
    rfl
  · intro hblank
    cases hfield : field with
    | none => rfl
    | some t =>
      rw [present, Option.filter_some, if_neg (by simpa using hblank t hfield)]
      rfl

/-- What a completed exchange does to an account. -/
structure Rotated (accessToken : String) (expiresAt : Int)
    (refreshToken idToken username providerAccountId : Option String) (a b : Account ω) : Prop where
  accessToken : b.rest.accessToken = some accessToken
  expiresAt : b.rest.accessTokenExpiresAt = some expiresAt
  refreshToken : Kept refreshToken a.rest.refreshToken b.rest.refreshToken
  idToken : Kept idToken a.rest.idToken b.rest.idToken
  username : Kept username a.rest.username b.rest.username
  providerAccountId : Kept providerAccountId a.rest.providerAccountId b.rest.providerAccountId
  others : b.id = a.id ∧ b.rest.provider = a.rest.provider ∧ b.rest.enabled = a.rest.enabled ∧
    b.rest.tier = a.rest.tier ∧ b.rest.label = a.rest.label ∧ b.rest.other = a.rest.other

theorem rotated_refreshed (t : String) (e : Int) (r i u p : Option String) (now : Int)
    (a : Account ω) : Rotated t e r i u p a (refreshed (.refreshed t e r i u p) now a) where
  accessToken := rfl
  expiresAt := rfl
  refreshToken := kept_present ..
  idToken := kept_present ..
  username := kept_present ..
  providerAccountId := kept_present ..
  others := ⟨rfl, rfl, rfl, rfl, rfl, rfl⟩

/-! ## Ids -/

/-- The ids that are tried. -/
def candidate (base : String) (suffix : Nat) (id : String) : Nat → String
  | 0 => id
  | k + 1 => suffixed base (suffix + k)

/-- The loop gives an id that is taken only when it has tried nothing else. -/
theorem candidates_of_firstFree {ids : List String} {base : String} {fuel suffix : Nat}
    {id : String} (h : firstFree ids base fuel suffix id ∈ ids) :
    ∀ k < fuel, candidate base suffix id k ∈ ids := by
  induction fuel generalizing suffix id with
  | zero => exact fun k hk => absurd hk (Nat.not_lt_zero k)
  | succ fuel ih =>
    rw [firstFree] at h
    by_cases hid : id ∈ ids
    · rw [if_pos hid] at h
      intro k hk
      cases k with
      | zero => exact hid
      | succ k =>
        have hrest := ih h k (by omega)
        cases k with
        | zero => exact hrest
        | succ k =>
          rw [candidate, show suffix + 1 + k = suffix + (k + 1) by omega] at hrest
          exact hrest
    · rw [if_neg hid] at h
      exact absurd h hid

theorem suffixed_injective (base : String) : Function.Injective (suffixed base) := by
  intro a b h
  have hlist := congrArg String.toList h
  rw [suffixed, suffixed, String.toList_append, String.toList_append, String.toList_append,
    String.toList_append] at hlist
  exact Str.toString_nat_inj (String.toList_injective (List.append_cancel_left hlist))

theorem suffixed_ne (base : String) (suffix : Nat) : suffixed base suffix ≠ base := by
  intro h
  have hlength := congrArg (fun s => s.toList.length) h
  simp [suffixed] at hlength

theorem candidate_injective (base : String) (suffix : Nat) :
    Function.Injective (candidate base suffix base) := by
  intro a b h
  cases a with
  | zero =>
    cases b with
    | zero => rfl
    | succ b => exact absurd h.symm (suffixed_ne base _)
  | succ a =>
    cases b with
    | zero => exact absurd h (suffixed_ne base _)
    | succ b =>
      have := suffixed_injective base h
      omega

/-- **A generated id is free.** There are more candidates than ids. -/
theorem generatedId_notMem (ids : List String) (base : String) : generatedId ids base ∉ ids := by
  intro h
  have hmem := candidates_of_firstFree h
  have hsubset : (List.range (ids.length + 1)).map (candidate base 2 base) ⊆ ids := by
    intro id hid
    obtain ⟨k, hk, rfl⟩ := List.mem_map.mp hid
    exact hmem k (List.mem_range.mp hk)
  have hnodup : ((List.range (ids.length + 1)).map (candidate base 2 base)).Nodup :=
    List.nodup_range.map (candidate_injective base 2)
  have hlength := (List.subperm_of_subset hnodup hsubset).length_le
  simp at hlength

/-! ## Accounts that go on -/

/-- The account that an id names goes on being the same one. -/
def SameAccount (a b : Account ω) : Prop :=
  b.id = a.id ∧ b.rest.provider = a.rest.provider ∧ b.rest.other = a.rest.other

/-- Every account is one from before or has an id that was free. -/
def Continues (before after : List (Account ω)) : Prop :=
  ∀ b ∈ after, (∃ a ∈ before, SameAccount a b) ∨ ∀ a ∈ before, a.id ≠ b.id

/-- An account was added under a generated id, and nothing else changed. -/
def Generated (account : Account ω) (before after : List (Account ω)) : Prop :=
  ∃ id, (∀ a ∈ before, a.id ≠ id) ∧ ∀ b, b ∈ after ↔ b = { account with id := id } ∨ b ∈ before

/-- The account with the id was replaced. -/
def Replaced (id : String) (a b : Account ω) (before after : List (Account ω)) : Prop :=
  a ∈ before ∧ a.id = id ∧ ∀ c, c ∈ after ↔ c = b ∨ c ∈ before ∧ c.id ≠ id

variable {before after accounts : List (Account ω)} {id : String} {st st₀ : Store ω}
  {d d' first : Disk} {account : Account ω} {entry : Entry ω β} {s : System ω β}

theorem continues_of_same (h : ∀ b ∈ after, ∃ a ∈ before, SameAccount a b) :
    Continues before after :=
  fun b hb => Or.inl (h b hb)

theorem continues_of_subset (h : after ⊆ before) : Continues before after :=
  continues_of_same fun b hb => ⟨b, h hb, rfl, rfl, rfl⟩

theorem Continues.congr {after' : List (Account ω)} (h : Continues before after)
    (heq : ∀ a, a ∈ after' ↔ a ∈ after) : Continues before after' :=
  fun b hb => h b ((heq b).mp hb)

variable {a : Account ω} {e : Exchange × Int} {context : Context ω}

/-- Changing the first account with an id, where ids are unique. -/
theorem mem_editFirst (h : (accounts.map Auth.AccountConfig.id).Nodup) (ha : a ∈ accounts)
    (f : Fields ω → Fields ω) (b : Account ω) :
    b ∈ AuthStore.editFirst accounts a.id f ↔ b = ⟨a.id, f a.rest⟩ ∨ b ∈ accounts ∧ b.id ≠ a.id := by
  induction accounts with
  | nil => cases ha
  | cons c cs ih =>
    rw [List.map_cons, List.nodup_cons] at h
    rw [AuthStore.editFirst]
    by_cases hid : c.id = a.id
    · have hca : a = c := by
        rcases List.mem_cons.mp ha with heq | hmem
        · exact heq
        · exact absurd (hid ▸ List.mem_map_of_mem hmem) h.1
      subst hca
      rw [if_pos rfl, List.mem_cons, List.mem_cons]
      constructor
      · rintro (hb | hb)
        · exact Or.inl hb
        · exact Or.inr ⟨Or.inr hb, fun heq => h.1 (heq ▸ List.mem_map_of_mem hb)⟩
      · rintro (hb | ⟨hb | hb, hne⟩)
        · exact Or.inl hb
        · exact absurd (congrArg Auth.AccountConfig.id hb) hne
        · exact Or.inr hb
    · have hmem : a ∈ cs := by
        rcases List.mem_cons.mp ha with heq | hmem
        · exact absurd (congrArg Auth.AccountConfig.id heq.symm) hid
        · exact hmem
      rw [if_neg hid, List.mem_cons, List.mem_cons, ih h.2 hmem]
      constructor
      · rintro (hb | hb | ⟨hb, hne⟩)
        · exact Or.inr ⟨Or.inl hb, hb ▸ hid⟩
        · exact Or.inl hb
        · exact Or.inr ⟨Or.inr hb, hne⟩
      · rintro (hb | ⟨hb | hb, hne⟩)
        · exact Or.inr (Or.inl hb)
        · exact Or.inl hb
        · exact Or.inr (Or.inr ⟨hb, hne⟩)

/-- The account at the first place of an id is the first account with it. -/
theorem modify_eq_editFirst {index : Nat}
    (h : (accounts.findIdx? fun account => account.id = id) = some index)
    (f : Fields ω → Fields ω) :
    accounts.modify index (fun account => { account with rest := f account.rest }) =
      AuthStore.editFirst accounts id f := by
  induction accounts generalizing index with
  | nil => cases h
  | cons a as ih =>
    rw [List.findIdx?_cons] at h
    rw [AuthStore.editFirst]
    by_cases hid : a.id = id
    · rw [if_pos (by simpa using hid)] at h
      cases h
      rw [if_pos hid]
      rfl
    · rw [if_neg (by simpa using hid)] at h
      obtain ⟨i, hi, rfl⟩ := Option.map_eq_some_iff.mp h
      rw [if_neg hid, List.modify_succ_cons, ih hi]

theorem replaceOrPush_of_notMem (h : a.id ∉ accounts.map Auth.AccountConfig.id) :
    AuthStore.replaceOrPush accounts a = accounts ++ [a] := by
  induction accounts with
  | nil => rfl
  | cons b bs ih =>
    rw [List.map_cons, List.mem_cons, not_or] at h
    rw [AuthStore.replaceOrPush, if_neg (Ne.symm h.1), ih h.2]
    rfl

/-! ## Operations in memory -/

open Tokn.Auth.AuthStore (Edited)

/-- Changing an account keeps its id. -/
theorem exists_same_of_editFirst {f : Fields ω → Fields ω}
    (hf : ∀ fields, (f fields).provider = fields.provider ∧ (f fields).other = fields.other) :
    ∀ b ∈ AuthStore.editFirst accounts id f, ∃ a ∈ accounts, SameAccount a b := by
  induction accounts with
  | nil => exact fun b hb => ⟨b, hb, rfl, rfl, rfl⟩
  | cons a as ih =>
    intro b hb
    rw [AuthStore.editFirst] at hb
    by_cases hid : a.id = id
    · rw [if_pos hid] at hb
      rcases List.mem_cons.mp hb with rfl | hb
      · exact ⟨a, List.mem_cons_self, rfl, hf a.rest⟩
      · exact ⟨b, List.mem_cons_of_mem _ hb, rfl, rfl, rfl⟩
    · rw [if_neg hid] at hb
      rcases List.mem_cons.mp hb with rfl | hb
      · exact ⟨b, List.mem_cons_self, rfl, rfl, rfl⟩
      · obtain ⟨c, hc, hsame⟩ := ih b hb
        exact ⟨c, List.mem_cons_of_mem _ hc, hsame⟩

theorem edit_spec {st' : Store ω} (h : Edited y st₀ st) {e : AccountEdit}
    (hedit : edit st e = .ok st') : Edited y st₀ st' ∧ Continues st.accounts st'.accounts := by
  cases e with
  | update id label activation =>
    rw [edit] at hedit
    split_ifs at hedit
    cases hedit
    refine ⟨h.getMut id _, continues_of_same ?_⟩
    exact exists_same_of_editFirst fun _ => ⟨rfl, rfl⟩
  | remove id =>
    have hremoved := h.remove id
    have hsubset : ((AuthStore.remove id).outcome st).2.accounts ⊆ st.accounts := by
      rw [Stateful.outcome, AuthStore.remove]
      split
      · exact fun a ha => ha
      · exact List.eraseP_subset
    rw [edit] at hedit
    split at hedit
    · rename_i hr
      cases hedit
      rw [hr] at hremoved hsubset
      exact ⟨hremoved, continues_of_subset hsubset⟩
    · cases hedit

theorem exists_named (ids : List String) (account : Account ω) (generated : Bool) :
    ∃ id, named ids account generated = { account with id := id } := by
  cases generated with
  | false => exact ⟨account.id, rfl⟩
  | true => exact ⟨_, rfl⟩

/-- A new account goes into the root file. -/
theorem upsertInMain_new (h : Edited y st₀ st) (d : Disk)
    (hid : a.id ∉ st.accounts.map Auth.AccountConfig.id) :
    (AuthStore.upsertInMain d a).outcome st = (.ok (), st.place .main a) := by
  refine AuthStore.upsertInSource_known h.main fun s hs => ?_
  exact absurd ((AuthStore.mem_ids_iff h.consistent a.id).mpr ⟨s, hs⟩) hid

/-- An insertion adds one account, under an id that was free. -/
theorem insertWithId_spec {st' : Store ω} (h : Edited y st₀ st) {generated : Bool}
    (hinsert : insertWithId d st account generated = .ok st') :
    Edited y st₀ st' ∧ Generated account st.accounts st'.accounts := by
  obtain ⟨id, hnamed⟩ := exists_named (st.accounts.map Auth.AccountConfig.id) account generated
  rw [insertWithId, hnamed] at hinsert
  split_ifs at hinsert with hid
  rw [upsertInMain_new h d hid] at hinsert
  cases hinsert
  have hfree : ∀ a ∈ st.accounts, a.id ≠ id := by
    rintro a ha rfl
    exact hid (List.mem_map.mpr ⟨a, ha, rfl⟩)
  refine ⟨h.place h.main _, id, hfree, fun b => ?_⟩
  show b ∈ AuthStore.replaceOrPush st.accounts _ ↔ _
  rw [replaceOrPush_of_notMem hid, List.mem_append, List.mem_singleton, or_comm]

theorem continues_of_generated (h : Generated account before after) : Continues before after := by
  obtain ⟨id, hfree, hafter⟩ := h
  intro b hb
  rcases (hafter b).mp hb with rfl | hb
  · exact Or.inr hfree
  · exact Or.inl ⟨b, hb, rfl, rfl, rfl⟩

/-- **What an operation does in memory.** -/
theorem perform_spec {st' : Store ω} (h : Edited y st₀ st) {w : Write ω}
    (hperform : w.perform d st = .ok st') :
    Edited y st₀ st' ∧ Continues st.accounts st'.accounts ∧
      ∀ account, w = .insertGenerated account → Generated account st.accounts st'.accounts := by
  cases w with
  | edit e =>
    obtain ⟨hedited, hcontinues⟩ := edit_spec h hperform
    exact ⟨hedited, hcontinues, fun _ hw => nomatch hw⟩
  | insert account =>
    obtain ⟨hedited, hgenerated⟩ := insertWithId_spec h hperform
    exact ⟨hedited, continues_of_generated hgenerated, fun _ hw => nomatch hw⟩
  | insertGenerated account =>
    obtain ⟨hedited, hgenerated⟩ := insertWithId_spec h hperform
    refine ⟨hedited, continues_of_generated hgenerated, fun account' hw => ?_⟩
    cases hw
    exact hgenerated

/-! ## Operations on the files -/

variable {read : String → Except AuthError (Account ω)}

theorem load_of_loadLocked (h : loadLocked y d = .ok st) :
    Auth.validateDirectAuthLayout d = .ok () ∧ AuthStore.load y d = .ok st := by
  obtain ⟨_, hlayout, hload⟩ := Except.bind_eq_ok.mp h
  exact ⟨hlayout, hload⟩

theorem save_of_saveLocked (h : saveLocked y st d = .ok d') :
    ∃ w, (AuthStore.save y).outcome ⟨st, d⟩ = (.ok (), w) ∧ w.disk = d' := by
  rw [saveLocked] at h
  split at h
  · rename_i w hsave
    cases h
    exact ⟨w, hsave, rfl⟩
  · cases h

/-- What has been saved is found by the next load. -/
theorem exists_load_of_saveLocked (hy : y.RoundTrips read) (h : Edited y st₀ st)
    (hsave : saveLocked y st d = .ok d') :
    ∃ st', AuthStore.load y d' = .ok st' ∧ ∀ a, a ∈ st'.accounts ↔ a ∈ st.accounts := by
  obtain ⟨w, houtcome, rfl⟩ := save_of_saveLocked hsave
  have hsaved := AuthStore.saved_of_save hy h.consistent houtcome
  have hmain : w.store.sourcePaths.get .main = some .main := by
    rw [hsaved.paths]
    exact h.main
  obtain ⟨st', hload, haccounts, -⟩ := AuthStore.exists_load hy hsaved.consistent hsaved.clean
    hmain hsaved.validated
  refine ⟨st', hload, fun a => ?_⟩
  rw [haccounts, hsaved.accounts]

theorem alone_write {w : Write ω} :
    alone y (.write w) e d = .ok d' ↔ ∃ st st', loadLocked y d = .ok st ∧
      w.perform d st = .ok st' ∧ saveLocked y st' d = .ok d' := by
  rw [alone, Except.bind_eq_ok]
  constructor
  · rintro ⟨⟨⟩, -, h⟩
    obtain ⟨st, hload, h⟩ := Except.bind_eq_ok.mp h
    obtain ⟨st', hperform, hsave⟩ := Except.bind_eq_ok.mp h
    exact ⟨st, st', ofStore_eq_ok.mp hload, hperform, ofStore_eq_ok.mp hsave⟩
  · rintro ⟨st, st', hload, hperform, hsave⟩
    refine ⟨⟨⟩, ofStore_eq_ok.mpr (load_of_loadLocked hload).1, ?_⟩
    refine Except.bind_eq_ok.mpr ⟨st, ofStore_eq_ok.mpr hload, ?_⟩
    exact Except.bind_eq_ok.mpr ⟨st', hperform, ofStore_eq_ok.mpr hsave⟩

theorem alone_probe {force : Bool} :
    alone y (.probe context id force) e d = .ok d' ↔ ∃ st index account,
      loadLocked y d = .ok st ∧ startProbe st context id = .ok (index, account) ∧
        saveExchange y st d index e.2 e.1 = .ok d' := by
  rw [alone, Except.bind_eq_ok]
  constructor
  · rintro ⟨⟨⟩, -, h⟩
    obtain ⟨st, hload, h⟩ := Except.bind_eq_ok.mp h
    obtain ⟨⟨index, account⟩, hstart, hsave⟩ := Except.bind_eq_ok.mp h
    exact ⟨st, index, account, ofStore_eq_ok.mp hload, hstart, ofStore_eq_ok.mp hsave⟩
  · rintro ⟨st, index, account, hload, hstart, hsave⟩
    refine ⟨⟨⟩, ofStore_eq_ok.mpr (load_of_loadLocked hload).1, ?_⟩
    refine Except.bind_eq_ok.mpr ⟨st, ofStore_eq_ok.mpr hload, ?_⟩
    exact Except.bind_eq_ok.mpr ⟨(index, account), hstart, ofStore_eq_ok.mpr hsave⟩

theorem findIdx?_of_startProbe {index : Nat} (h : startProbe st context id = .ok (index, account)) :
    (st.accounts.findIdx? fun account => account.id = id) = some index := by
  rw [startProbe] at h
  split at h
  · cases h
  · rename_i i hi
    split at h
    · cases h
    · obtain ⟨b, -, hb⟩ := Except.map_eq_ok.mp h
      cases hb
      exact hi

/-- **An exchange that is saved.** The next load finds the account as the exchange left it, and the
other accounts as they were. -/
theorem replaced_of_saveExchange (hy : y.RoundTrips read) (hload : AuthStore.load y d = .ok st)
    {index : Nat} (hstart : startProbe st context id = .ok (index, account)) {now e : Int}
    {t : String} {r i u p : Option String}
    (hsave : saveExchange y st d index now (.completed (.refreshed t e r i u p)) = .ok d') :
    ∃ a st', AuthStore.load y d' = .ok st' ∧
      Replaced id a (refreshed (.refreshed t e r i u p) now a) st.accounts st'.accounts := by
  have hedited := AuthStore.edited_of_load hload
  have hindex := findIdx?_of_startProbe hstart
  have haccounts := modify_eq_editFirst hindex
    fun fields => ((RefreshOutcome.refreshed t e r i u p).applyTo now fields).2
  have hsaved : saveLocked y ((AuthStore.getMut id fun fields =>
      ((RefreshOutcome.refreshed t e r i u p).applyTo now fields).2).outcome st).2 d = .ok d' := by
    rw [← hsave, saveExchange]
    congr 1
    show { st with accounts := _ } = _
    rw [← haccounts]
    rfl
  obtain ⟨st', hload', hst'⟩ := exists_load_of_saveLocked hy (hedited.getMut id _) hsaved
  obtain ⟨a, ha, hid⟩ : ∃ a ∈ st.accounts, a.id = id := by
    obtain ⟨hlt, hat, -⟩ := List.findIdx?_eq_some_iff_getElem.mp hindex
    exact ⟨_, List.getElem_mem hlt, by simpa using hat⟩
  subst hid
  refine ⟨a, st', hload', ha, rfl, fun c => (hst' c).trans ?_⟩
  exact mem_editFirst hedited.consistent.ids ha _ c

theorem continues_of_replaced {b : Account ω} (hsame : SameAccount a b)
    (h : Replaced id a b before after) : Continues before after := by
  obtain ⟨ha, -, hafter⟩ := h
  intro c hc
  rcases (hafter c).mp hc with rfl | ⟨hc, -⟩
  · exact Or.inl ⟨a, ha, hsame⟩
  · exact Or.inl ⟨c, hc, rfl, rfl, rfl⟩

/-- What a call that runs alone does to the accounts in the files. -/
structure Step (y : Yaml (Fields ω)) (call : Call ω) (d d' : Disk) (st st' : Store ω) : Prop where
  before : AuthStore.load y d = .ok st
  after : AuthStore.load y d' = .ok st'
  continues : Continues st.accounts st'.accounts
  generated : ∀ account, call = .write (.insertGenerated account) →
    Generated account st.accounts st'.accounts

/-- **A call that runs alone.** -/
theorem exists_step (hy : y.RoundTrips read) {call : Call ω} (h : alone y call e d = .ok d') :
    ∃ st st', Step y call d d' st st' := by
  cases call with
  | write w =>
    obtain ⟨st, st', hload, hperform, hsave⟩ := alone_write.mp h
    have hload := (load_of_loadLocked hload).2
    obtain ⟨hedited, hcontinues, hgenerated⟩ :=
      perform_spec (AuthStore.edited_of_load hload) hperform
    obtain ⟨st'', hload', hst''⟩ := exists_load_of_saveLocked hy hedited hsave
    refine ⟨st, st'', hload, hload', hcontinues.congr hst'', fun account hcall => ?_⟩
    cases hcall
    obtain ⟨id, hfree, hafter⟩ := hgenerated account rfl
    exact ⟨id, hfree, fun b => (hst'' b).trans (hafter b)⟩
  | probe context id force =>
    obtain ⟨st, index, account, hload, hstart, hsave⟩ := alone_probe.mp h
    have hload := (load_of_loadLocked hload).2
    obtain ⟨exchange, now⟩ := e
    have hnone : saveExchange y st d index now exchange = .ok d →
        ∃ st st', Step y (.probe context id force) d d' st st' := by
      intro hunchanged
      cases hsave.symm.trans hunchanged
      exact ⟨st, st, hload, hload, continues_of_subset fun a ha => ha, fun _ hcall => nomatch hcall⟩
    cases exchange with
    | failed => exact hnone rfl
    | completed outcome =>
      cases outcome with
      | unchanged => exact hnone rfl
      | notApplicable => exact hnone rfl
      | refreshed t expiry r i u p =>
        obtain ⟨a, st', hload', hreplaced⟩ := replaced_of_saveExchange hy hload hstart hsave
        have hsame : SameAccount a (refreshed (.refreshed t expiry r i u p) now a) :=
          ⟨rfl, rfl, rfl⟩
        exact ⟨st, st', hload, hload', continues_of_replaced hsame hreplaced,
          fun _ hcall => nomatch hcall⟩

/-! ## Interleavings -/

/-- The calls that gave the lock back, less those that failed. -/
def System.done (s : System ω β) : List (Entry ω β) := s.history.filter fun entry => !entry.failed

/-- What the holder of the lock goes by, if `d` are the files that the calls before it led to. -/
def Holding (y : Yaml (Fields ω)) (s : System ω β) (d : Disk) : Prop :=
  match s.holder with
  | none | some (.entered _) => s.disk = d
  | some (.writing st _) => s.disk = d ∧ loadLocked y d = .ok st
  | some (.exchanging st context id _ index account _) =>
    s.disk = d ∧ loadLocked y d = .ok st ∧ startProbe st context id = .ok (index, account)
  | some (.exchanged context id force outcome now _ _) =>
    alone y (.probe context id force) (.completed outcome, now) d = .ok s.disk

/-- **The invariant.** -/
def Inv (y : Yaml (Fields ω)) (first : Disk) (s : System ω β) : Prop :=
  ∃ d, replay y first s.done = .ok d ∧ Holding y s d

theorem replay_concat {entries : List (Entry ω β)} (h : replay y first entries = .ok d)
    (halone : alone y entry.call entry.exchange d = .ok d') :
    replay y first (entries ++ [entry]) = .ok d' :=
  Except.foldlM_concat.mpr ⟨d, h, halone⟩

theorem replay_append {before after : List (Entry ω β)}
    (h : replay y first (before ++ entry :: after) = .ok d') :
    ∃ d d₁, replay y first before = .ok d ∧ alone y entry.call entry.exchange d = .ok d₁ := by
  rw [replay, List.foldlM_append] at h
  obtain ⟨d, hd, h⟩ := Except.bind_eq_ok.mp h
  rw [List.foldlM_cons] at h
  obtain ⟨d₁, hd₁, -⟩ := Except.bind_eq_ok.mp h
  exact ⟨d, d₁, hd, hd₁⟩

/-- A call that failed leaves nothing. -/
theorem Inv.close_failed (h : replay y first s.done = .ok d) (hdisk : s.disk = d)
    (hfailed : entry.failed = true) : Inv y first (s.close entry) := by
  refine ⟨d, ?_, hdisk⟩
  rw [System.done, System.close, List.filter_append, List.filter_singleton, hfailed]
  exact (congrArg (replay y first) (List.append_nil _)).trans h

/-- A call that did not fail is one more of those that ran. -/
theorem Inv.close (h : replay y first s.done = .ok d) (hfailed : entry.failed = false)
    (halone : alone y entry.call entry.exchange d = .ok s.disk) : Inv y first (s.close entry) := by
  refine ⟨s.disk, ?_, rfl⟩
  rw [System.done, System.close, List.filter_append, List.filter_singleton, hfailed]
  exact replay_concat h halone

/-- What a call says later changes nothing about it. -/
theorem replay_modify {entries : List (Entry ω β)} {place : Nat} {f : Entry ω β → Entry ω β}
    (hget : entries[place]? = some entry) (hfailed : entry.failed = false)
    (hfailed' : (f entry).failed = false) (hcall : (f entry).call = entry.call)
    (hexchange : (f entry).exchange = entry.exchange) (first : Disk) :
    replay y first ((entries.modify place f).filter fun entry => !entry.failed) =
      replay y first (entries.filter fun entry => !entry.failed) := by
  induction entries generalizing place first with
  | nil => cases hget
  | cons e es ih =>
    cases place with
    | zero =>
      cases hget
      rw [List.modify_zero_cons, List.filter_cons, List.filter_cons, hfailed, hfailed']
      show (alone y (f entry).call (f entry).exchange first >>= fun d => replay y d _) =
        (alone y entry.call entry.exchange first >>= fun d => replay y d _)
      rw [hcall, hexchange]
    | succ place =>
      rw [List.modify_succ_cons, List.filter_cons, List.filter_cons]
      have hrest := ih hget
      by_cases he : e.failed = true
      · rw [he]
        exact hrest first
      · rw [Bool.not_eq_true] at he
        rw [he]
        show (alone y e.call e.exchange first >>= fun d => replay y d _) =
          (alone y e.call e.exchange first >>= fun d => replay y d _)
        congr 1
        funext d
        exact hrest d

theorem Inv.advance (h : Inv y first s) {place : Nat} (hget : s.history[place]? = some entry)
    (hfailed : entry.failed = false) {progress : Progress ω β}
    (hfailed' : ({ entry with progress := progress } : Entry ω β).failed = false) :
    Inv y first (s.advance place progress) := by
  obtain ⟨d, hreplay, hholding⟩ := h
  refine ⟨d, ?_, hholding⟩
  rw [System.done, System.advance,
    replay_modify (f := fun entry => { entry with progress := progress }) hget hfailed hfailed' rfl rfl]
  exact hreplay

theorem Inv.acquire (h : Inv y first s) (call : Call ω) (fault : Option String) :
    Inv y first (acquire s call fault) := by
  cases fault with
  | some message => exact h
  | none =>
    unfold Management.acquire
    cases hholder : s.holder with
    | some holder => exact h
    | none =>
      dsimp only
      split
      · exact h
      · obtain ⟨d, hreplay, hholding⟩ := h
        rw [Holding, hholder] at hholding
        exact ⟨d, hreplay, hholding⟩

theorem Inv.load (h : Inv y first s) {call : Call ω} (hholder : s.holder = some (.entered call))
    (now : Int) : Inv y first (load y s call now) := by
  obtain ⟨d, hreplay, hholding⟩ := h
  rw [Holding, hholder] at hholding
  rw [Management.load]
  cases hload : loadLocked y s.disk with
  | error e => exact Inv.close_failed hreplay hholding rfl
  | ok st =>
    have hread := hholding ▸ hload
    cases call with
    | write w => exact ⟨d, hreplay, hholding, hread⟩
    | probe context id force =>
      dsimp only
      cases hstart : startProbe st context id with
      | error e => exact Inv.close_failed hreplay hholding rfl
      | ok started => exact ⟨d, hreplay, hholding, hread, hstart⟩

theorem Inv.write {s' : System ω β} (h : Inv y first s) {w : Write ω}
    (hholder : s.holder = some (.writing st w)) (hstep : write y s st w = some s') :
    Inv y first s' := by
  obtain ⟨d, hreplay, hholding⟩ := h
  rw [Holding, hholder] at hholding
  obtain ⟨hdisk, hload⟩ := hholding
  rw [Management.write] at hstep
  split at hstep
  · cases hstep
    exact Inv.close_failed hreplay hdisk rfl
  · rename_i st' hperform
    split at hstep
    · cases hstep
    · rename_i d' hsave
      cases hstep
      rw [hdisk] at hperform hsave
      exact Inv.close (s := { s with disk := d' }) hreplay rfl
        (alone_write.mpr ⟨st, st', hload, hperform, hsave⟩)

theorem Inv.exchange {first : Disk} {s s' : System ω β} (h : Inv y first s) {st : Store ω}
    {context : Context ω} {id : String} {force : Bool} {index : Nat} {account : Account ω}
    {result : AccountProbe β}
    (hholder : s.holder = some (.exchanging st context id force index account result))
    {e : Exchange} {now : Int}
    (hstep : exchange y s st context id force index account result e now = some s') :
    Inv y first s' := by
  obtain ⟨d, hreplay, hholding⟩ := h
  rw [Holding, hholder] at hholding
  obtain ⟨hdisk, hload, hstart⟩ := hholding
  have halone : ∀ d', saveExchange y st d index now e = .ok d' →
      alone y (.probe context id force) (e, now) d = .ok d' :=
    fun d' hsave => alone_probe.mpr ⟨st, index, account, hload, hstart, hsave⟩
  cases e with
  | failed =>
    cases hstep
    refine Inv.close hreplay rfl ?_
    rw [hdisk]
    exact halone d rfl
  | completed outcome =>
    rw [Management.exchange] at hstep
    split at hstep
    · cases hstep
    · rename_i d' hsave
      cases hstep
      rw [hdisk] at hsave
      exact ⟨d, hreplay, halone d' hsave⟩

theorem Inv.release {first : Disk} {s : System ω β} (h : Inv y first s) {context : Context ω}
    {id : String} {force : Bool} {outcome : RefreshOutcome} {now : Int} {account : Account ω}
    {result : AccountProbe β}
    (hholder : s.holder = some (.exchanged context id force outcome now account result)) :
    Inv y first (s.close {
      call := .probe context id force
      exchange := (.completed outcome, now)
      progress := .verifying account result }) := by
  obtain ⟨d, hreplay, hholding⟩ := h
  rw [Holding, hholder] at hholding
  exact Inv.close hreplay rfl hholding

/-- **A step keeps the invariant.** -/
theorem Inv.step {s' : System ω β} (h : Inv y first s) {action : Action ω β}
    (hstep : step y s action = some s') : Inv y first s' := by
  cases action with
  | acquire call fault =>
    cases hstep
    exact h.acquire call fault
  | load now =>
    rw [Management.step] at hstep
    split at hstep
    · rename_i call hholder
      cases hstep
      exact h.load hholder now
    · cases hstep
  | write =>
    rw [Management.step] at hstep
    split at hstep
    · rename_i st w hholder
      exact h.write hholder hstep
    · cases hstep
  | exchange e now =>
    rw [Management.step] at hstep
    split at hstep
    · rename_i hholder
      exact h.exchange hholder hstep
    · cases hstep
  | release =>
    rw [Management.step] at hstep
    split at hstep
    · rename_i hholder
      cases hstep
      exact h.release hholder
    · cases hstep
  | verify place verification =>
    rw [Management.step] at hstep
    split at hstep
    · rename_i account result hprogress
      obtain ⟨entry, hget, hentry⟩ := Option.map_eq_some_iff.mp hprogress
      cases hstep
      exact h.advance hget (by rw [Entry.failed, hentry]) rfl
    · cases hstep
  | quota place quota =>
    rw [Management.step] at hstep
    split at hstep
    · rename_i account result hprogress
      obtain ⟨entry, hget, hentry⟩ := Option.map_eq_some_iff.mp hprogress
      cases hstep
      exact h.advance hget (by rw [Entry.failed, hentry]) rfl
    · cases hstep

theorem inv_of_exec {actions : List (Action ω β)} (h : exec y first actions = some s) :
    Inv y first s := by
  have hinit : Inv y first ({ disk := first } : System ω β) := ⟨first, rfl, rfl⟩
  exact Machine.exec_invariant (Inv y first) hinit (fun _ _ _ hs hstep => hs.step hstep) h

/-! ## The theorem -/

/-- What a probe leaves in the files when it gives the lock back. -/
structure Released (y : Yaml (Fields ω)) (before d' : Disk) (entry : Entry ω β) : Prop where
  probe : ∃ context id force outcome now, entry.call = .probe context id force ∧
    entry.exchange = (.completed outcome, now)
  saved : ∀ context id force t e r i u p now, entry.call = .probe context id force →
    entry.exchange = (.completed (.refreshed t e r i u p), now) →
      ∃ st st' a b, AuthStore.load y before = .ok st ∧ AuthStore.load y d' = .ok st' ∧
        Rotated t e r i u p a b ∧ Replaced id a b st.accounts st'.accounts

/-- **Account management is serialised.** -/
structure Serialised (y : Yaml (Fields ω)) (first : Disk) (s : System ω β) : Prop where
  /-- When every call has returned, the files are those of the calls that succeeded, one after the
  other. -/
  final : s.Quiet → replay y first (s.history.filter Entry.succeeded) = .ok s.disk
  /-- A call that does not get the lock changes nothing. -/
  refused : ∀ call fault s', step y s (.acquire call fault) = some s' → s'.holder = s.holder →
    s'.disk = s.disk ∧ s'.history = s.history
  /-- Each call in turn keeps apart the accounts that there are, and a generated id is free. -/
  steps : ∀ before entry after, s.done = before ++ entry :: after → ∃ d d' st st',
    replay y first before = .ok d ∧ alone y entry.call entry.exchange d = .ok d' ∧
      Step y entry.call d d' st st' ∧ (st'.accounts.map Auth.AccountConfig.id).Nodup
  /-- A probe gives the lock back when what its exchange returned is in the files. -/
  released : ∀ s', step y s .release = some s' → ∃ before entry,
    replay y first s.done = .ok before ∧ s'.history = s.history ++ [entry] ∧ s'.disk = s.disk ∧
      Released y before s.disk entry
  /-- What comes after the lock does not touch the files. -/
  afterwards : (∀ place verification s', step y s (.verify place verification) = some s' →
      s'.disk = s.disk ∧ s'.holder = s.holder) ∧
    ∀ place quota s', step y s (.quota place quota) = some s' →
      s'.disk = s.disk ∧ s'.holder = s.holder

/-- When every call has returned, a call that did not fail has succeeded. -/
theorem done_of_quiet (h : s.Quiet) : s.done = s.history.filter Entry.succeeded := by
  refine List.filter_congr fun entry hentry => ?_
  obtain ⟨answer, hanswer⟩ := h.2 entry hentry
  rw [Entry.failed, Entry.succeeded, hanswer]
  cases answer <;> rfl

theorem final_of_inv (h : Inv y first s) (hquiet : s.Quiet) :
    replay y first (s.history.filter Entry.succeeded) = .ok s.disk := by
  obtain ⟨d, hreplay, hholding⟩ := h
  rw [Holding, hquiet.1] at hholding
  rw [← done_of_quiet hquiet, hreplay, hholding]

/-- A call that fails to get the lock. -/
theorem refused_of_acquire {call : Call ω} {fault : Option String}
    (h : (acquire s call fault).holder = s.holder) :
    (acquire s call fault).disk = s.disk ∧ (acquire s call fault).history = s.history := by
  cases fault with
  | some message => exact ⟨rfl, rfl⟩
  | none =>
    unfold acquire at h ⊢
    cases hholder : s.holder with
    | some holder => exact ⟨rfl, rfl⟩
    | none =>
      dsimp only
      split <;> exact ⟨rfl, rfl⟩

theorem steps_of_inv (hy : y.RoundTrips read) (h : Inv y first s) {before after : List (Entry ω β)}
    (hdone : s.done = before ++ entry :: after) : ∃ d d' st st',
      replay y first before = .ok d ∧ alone y entry.call entry.exchange d = .ok d' ∧
        Step y entry.call d d' st st' ∧ (st'.accounts.map Auth.AccountConfig.id).Nodup := by
  obtain ⟨_, hreplay, -⟩ := h
  rw [hdone] at hreplay
  obtain ⟨d, d', hbefore, halone⟩ := replay_append hreplay
  obtain ⟨st, st', hstep⟩ := exists_step hy halone
  exact ⟨d, d', st, st', hbefore, halone, hstep,
    (AuthStore.edited_of_load hstep.after).consistent.ids⟩

theorem released_of_inv (hy : y.RoundTrips read) {s' : System ω β} (h : Inv y first s)
    (hstep : step y s .release = some s') : ∃ before entry,
      replay y first s.done = .ok before ∧ s'.history = s.history ++ [entry] ∧ s'.disk = s.disk ∧
        Released y before s.disk entry := by
  obtain ⟨before, hreplay, hholding⟩ := h
  rw [step] at hstep
  split at hstep
  · rename_i context id force outcome now account result hholder
    rw [Holding, hholder] at hholding
    cases hstep
    refine ⟨before, _, hreplay, rfl, rfl, ⟨context, id, force, outcome, now, rfl, rfl⟩, ?_⟩
    · intro context' id' force' t expiry r i u p now' hcall hexchange
      cases hcall
      cases hexchange
      obtain ⟨st, index, account, hload, hstart, hsave⟩ := alone_probe.mp hholding
      have hload := (load_of_loadLocked hload).2
      obtain ⟨a, st', hload', hreplaced⟩ := replaced_of_saveExchange hy hload hstart hsave
      exact ⟨st, st', a, _, hload, hload', rotated_refreshed .., hreplaced⟩
  · cases hstep

/-- **Account management.** However the calls interleave, they are as good as one after the other. -/
theorem management_serialised (hy : y.RoundTrips read) {first : Disk}
    {actions : List (Action ω β)} {s : System ω β} (h : exec y first actions = some s) :
    Serialised y first s := by
  have hinv := inv_of_exec h
  refine ⟨final_of_inv hinv, ?_, ?_, ?_, ?_, ?_⟩
  · intro call fault s' hstep hholder
    cases hstep
    exact refused_of_acquire hholder
  · exact fun before entry after hdone => steps_of_inv hy hinv hdone
  · exact fun s' hstep => released_of_inv hy hinv hstep
  · intro place verification s' hstep
    rw [step] at hstep
    split at hstep <;> cases hstep
    exact ⟨rfl, rfl⟩
  · intro place quota s' hstep
    rw [step] at hstep
    split at hstep <;> cases hstep
    exact ⟨rfl, rfl⟩

/-! Two processes: one adds an account to an empty store, while the other finds the lock taken, and
then asks the provider about it. -/

def managedAccount : Account Unit where
  id := ""
  rest := {
    provider := "codex"
    enabled := true
    tier := .active
    label := none
    username := some "octo"
    accessToken := none
    accessTokenExpiresAt := none
    idToken := none
    refreshToken := some "rt-1"
    providerAccountId := none
    lastRefresh := none
    other := () }

def savedAccount : Account Unit := { managedAccount with id := "octo" }

/-- The provider gives a new pair of tokens. -/
def rotation : RefreshOutcome := .refreshed "at-2" 9000 (some "rt-2") none none none

def rotatedAccount : Account Unit := refreshed rotation 10 savedAccount

def savedAccountText : String :=
  "id: octo\nprovider: codex\nenabled: true\ntier: active\ntags: []\nusername: octo\n" ++
    "refresh_token: rt-1\nsettings: \x7b\x7d\n"

def rotatedAccountText : String :=
  "id: octo\nprovider: codex\nenabled: true\ntier: active\ntags: []\nusername: octo\n" ++
    "access_token: at-2\naccess_token_expires_at: 9000\nrefresh_token: rt-2\n" ++
    "last_refresh: 10\nsettings: \x7b\x7d\n"

def savedFileText : String :=
  "version: 1\naccounts:\n- id: octo\n  provider: codex\n  enabled: true\n  tier: active\n" ++
    "  tags: []\n  username: octo\n  refresh_token: rt-1\n  settings: \x7b\x7d\n"

def rotatedFileText : String :=
  "version: 1\naccounts:\n- id: octo\n  provider: codex\n  enabled: true\n  tier: active\n" ++
    "  tags: []\n  username: octo\n  access_token: at-2\n  access_token_expires_at: 9000\n" ++
    "  refresh_token: rt-2\n  last_refresh: 10\n  settings: \x7b\x7d\n"

/-- The YAML of the two accounts. -/
def managedYaml : Yaml (Fields Unit) where
  accountToString a :=
    if a = savedAccount then .ok savedAccountText
    else if a = rotatedAccount then .ok rotatedAccountText
    else .error (.yaml "")
  fileToString f :=
    if f.version = Auth.CURRENT_VERSION ∧ f.accounts = [savedAccount] then .ok savedFileText
    else if f.version = Auth.CURRENT_VERSION ∧ f.accounts = [rotatedAccount] then
      .ok rotatedFileText
    else .error (.yaml "")
  fileFromStr s :=
    if s = savedFileText then .ok ⟨Auth.CURRENT_VERSION, [savedAccount]⟩
    else if s = rotatedFileText then .ok ⟨Auth.CURRENT_VERSION, [rotatedAccount]⟩
    else .error (.yaml "")

theorem rotatedAccountText_ne : rotatedAccountText ≠ savedAccountText := by decide +kernel

theorem rotatedFileText_ne : rotatedFileText ≠ savedFileText := by decide +kernel

theorem fileFromStr_saved : managedYaml.fileFromStr savedFileText =
    .ok ⟨Auth.CURRENT_VERSION, [savedAccount]⟩ := by
  rw [managedYaml]
  dsimp only
  rw [if_pos rfl]

theorem fileFromStr_rotated : managedYaml.fileFromStr rotatedFileText =
    .ok ⟨Auth.CURRENT_VERSION, [rotatedAccount]⟩ := by
  rw [managedYaml]
  dsimp only
  rw [if_neg rotatedFileText_ne, if_pos rfl]

theorem managedYaml_roundTrips : managedYaml.RoundTrips fun s =>
    if s = savedAccountText then .ok savedAccount else .ok rotatedAccount where
  account := by
    intro a s h
    simp only [managedYaml] at h
    split_ifs at h with hsaved hrotated
    · cases h
      rw [if_pos rfl, hsaved]
    · cases h
      rw [if_neg rotatedAccountText_ne, hrotated]
  file := by
    rintro ⟨version, accounts⟩ s h
    simp only [managedYaml] at h
    split_ifs at h with hsaved hrotated
    · obtain ⟨rfl, rfl⟩ := hsaved
      cases h
      exact fileFromStr_saved
    · obtain ⟨rfl, rfl⟩ := hrotated
      cases h
      exact fileFromStr_rotated

/-- The store of a main file with one account, which may have changed since it was read. -/
def mainStore (account : Account Unit) (baseline : Auth.SourceBaseline)
    (snapshot : Auth.SourceSnapshot) : Store Unit where
  accounts := [account]
  accountSources := [(account.id, .main)]
  sourcePaths := [(.main, .main)]
  sourceBaselines := [(.main, baseline)]
  sourceSnapshots := [(.main, snapshot)]

def noStore : Store Unit := ⟨[], [], [(.main, .main)], [(.main, [])], [(.main, .missing)]⟩

def savedDisk : Disk := AuthStore.emptyDisk.put .main (.file savedFileText.toByteArray)

def rotatedDisk : Disk := savedDisk.put .main (.file rotatedFileText.toByteArray)

/-- The store as a load reads it from the saved file. -/
def savedStore : Store Unit :=
  mainStore savedAccount [("octo", savedAccountText)] (.contents savedFileText.toByteArray)

theorem discoverShards_main (h : d.shardNames = []) : Auth.discoverShards d = .ok [] := by
  rw [Auth.discoverShards, h]
  show Except.ok (List.mergeSort [] _) = _
  rw [List.mergeSort_nil]

theorem load_noStore : loadLocked managedYaml AuthStore.emptyDisk = .ok noStore := by
  refine Except.bind_eq_ok.mpr ⟨(), rfl, Except.bind_eq_ok.mpr ⟨noStore, rfl, ?_⟩⟩
  exact Except.bind_eq_ok.mpr ⟨[], discoverShards_main rfl, rfl⟩

theorem load_savedDisk : loadLocked managedYaml savedDisk = .ok savedStore := by
  have hparsed : Auth.parseAuthFile managedYaml .main savedFileText.toByteArray =
      .ok ⟨Auth.CURRENT_VERSION, [savedAccount]⟩ := by
    rw [Auth.parseAuthFile, String.fromUTF8?, dif_pos savedFileText.isValidUTF8]
    exact Except.bind_eq_ok.mpr ⟨_, fileFromStr_saved, rfl⟩
  have hsource : AuthStore.loadSource managedYaml savedDisk .empty .main .main = .ok savedStore := by
    refine Except.bind_eq_ok.mpr ⟨.contents savedFileText.toByteArray, rfl, ?_⟩
    refine Except.bind_eq_ok.mpr ⟨[savedAccount], ?_, rfl⟩
    rw [AuthStore.readAccounts, hparsed]
    rfl
  refine Except.bind_eq_ok.mpr ⟨(), rfl, Except.bind_eq_ok.mpr ⟨savedStore, hsource, ?_⟩⟩
  exact Except.bind_eq_ok.mpr ⟨[], discoverShards_main rfl, rfl⟩

theorem perform_managed : (Write.insertGenerated managedAccount).perform AuthStore.emptyDisk noStore =
    .ok (mainStore savedAccount [] .missing) := by
  rfl

theorem validate_mainStore (account : Account Unit) (baseline : Auth.SourceBaseline)
    {snapshot : Auth.SourceSnapshot} (hlayout : Auth.validateDirectAuthLayout d = .ok ())
    (hshards : d.shardNames = []) (hcapture : Auth.SourceSnapshot.capture d .main = .ok snapshot)
    (hexpected : (mainStore account baseline snapshot).expectedShards = []) :
    AuthStore.validateSourcesUnchanged d (mainStore account baseline snapshot) = .ok () := by
  rw [AuthStore.validateSourcesUnchanged, hlayout, discoverShards_main hshards, hexpected]
  refine Except.bind_eq_ok.mpr ⟨(), rfl, ?_⟩
  refine Except.bind_eq_ok.mpr ⟨[], rfl, ?_⟩
  refine Except.bind_eq_ok.mpr ⟨⟨⟩, rfl, ?_⟩
  show (do Auth.SourceSnapshot.validate snapshot d .main; pure PUnit.unit) = _
  have hvalid : Auth.SourceSnapshot.validate snapshot d .main = .ok () := by
    rw [Auth.SourceSnapshot.validate, hcapture]
    exact Except.bind_eq_ok.mpr ⟨snapshot, rfl, Except.rejectIf_eq_ok.mpr (by simp)⟩
  rw [hvalid]
  rfl

/-- An account that is not as it was read is written to the main file. -/
theorem save_mainStore {account : Account Unit} {text file : String}
    {baseline : Auth.SourceBaseline} {snapshot : Auth.SourceSnapshot}
    (htext : managedYaml.accountToString account = .ok text)
    (hfile : managedYaml.fileToString ⟨Auth.CURRENT_VERSION, [account]⟩ = .ok file)
    (hnew : some baseline ≠ some [(account.id, text)])
    (hvalid : AuthStore.validateSourcesUnchanged d (mainStore account baseline snapshot) = .ok ())
    (hcommit : AuthStore.commit d .main file.toByteArray snapshot.installMode = .ok d') :
    saveLocked managedYaml (mainStore account baseline snapshot) d = .ok d' := by
  have hfingerprints : Auth.accountFingerprints managedYaml [account] =
      .ok [(account.id, text)] := by
    exact Except.bind_eq_ok.mpr ⟨_, Except.bind_eq_ok.mpr ⟨text, htext, rfl⟩, rfl⟩
  have hchange : AuthStore.sourceChange managedYaml (mainStore account baseline snapshot) [account]
      .main .main = .ok (some ⟨.main, .main, [(account.id, text)], [account]⟩) := by
    refine Except.bind_eq_ok.mpr ⟨_, hfingerprints, ?_⟩
    exact congrArg Except.ok (if_neg hnew)
  have hgroups : [account].foldlM (AuthStore.groupAccount (mainStore account baseline snapshot))
      ⟨[], [(.main, .main)], []⟩ =
        .ok ⟨[account.id], [(.main, .main)], [(.main, [account])]⟩ := by
    have hsource : (mainStore account baseline snapshot).accountSources.get account.id =
        some .main := by
      show BTreeMap.get [(account.id, Auth.AuthSource.main)] account.id = _
      rw [BTreeMap.get_cons, if_pos rfl]
    refine Except.bind_eq_ok.mpr ⟨_, Except.bind_eq_ok.mpr ⟨⟨⟩, rfl, ?_⟩, rfl⟩
    dsimp only
    rw [hsource]
    rfl
  have hchanges : AuthStore.changes managedYaml (mainStore account baseline snapshot) =
      .ok [⟨.main, .main, [(account.id, text)], [account]⟩] := by
    refine Except.bind_eq_ok.mpr ⟨_, hgroups, ?_⟩
    refine Except.bind_eq_ok.mpr ⟨[some ⟨.main, .main, [(account.id, text)], [account]⟩], ?_, rfl⟩
    exact Except.bind_eq_ok.mpr ⟨_, hchange, rfl⟩
  have hstage : AuthStore.stageAuthFile managedYaml [account] = .ok file.toByteArray := by
    rw [AuthStore.stageAuthFile, hfile]
    rfl
  have hinstall : (mainStore account baseline snapshot).installMode .main .main =
      .ok snapshot.installMode := rfl
  have hsaved : (AuthStore.save managedYaml).outcome ⟨mainStore account baseline snapshot, d⟩ =
      (.ok (), ⟨(mainStore account baseline snapshot).saved .main [(account.id, text)]
        file.toByteArray, d'⟩) := by
    refine Stateful.bind_eq_ok.mpr ⟨⟨⟩, _, Stateful.reading_eq_ok.mpr ⟨hvalid, rfl⟩, ?_⟩
    refine Stateful.bind_eq_ok.mpr ⟨_, _, Stateful.reading_eq_ok.mpr ⟨hchanges, rfl⟩, ?_⟩
    refine Stateful.bind_eq_ok.mpr ⟨⟨⟩, _, ?_, rfl⟩
    refine Stateful.bind_eq_ok.mpr ⟨_, _, Stateful.reading_eq_ok.mpr ⟨hinstall, rfl⟩, ?_⟩
    refine Stateful.bind_eq_ok.mpr ⟨_, _, Stateful.reading_eq_ok.mpr ⟨hstage, rfl⟩, ?_⟩
    refine Stateful.bind_eq_ok.mpr ⟨⟨⟩, _, Stateful.reading_eq_ok.mpr ⟨hvalid, rfl⟩, ?_⟩
    refine Stateful.bind_eq_ok.mpr ⟨⟨⟩, ⟨mainStore account baseline snapshot, d'⟩,
      Stateful.replacing_eq_ok.mpr ?_, rfl⟩
    rw [hcommit]
    rfl
  rw [saveLocked, hsaved]

theorem save_managed : saveLocked managedYaml (mainStore savedAccount [] .missing)
    AuthStore.emptyDisk = .ok savedDisk := by
  have htext : managedYaml.accountToString savedAccount = .ok savedAccountText := rfl
  have hfile : managedYaml.fileToString ⟨Auth.CURRENT_VERSION, [savedAccount]⟩ =
      .ok savedFileText := rfl
  exact save_mainStore htext hfile (by simp) (validate_mainStore _ _ rfl rfl rfl rfl) rfl

theorem save_rotated :
    saveLocked managedYaml (mainStore rotatedAccount [("octo", savedAccountText)]
      (.contents savedFileText.toByteArray)) savedDisk = .ok rotatedDisk := by
  have htext : managedYaml.accountToString rotatedAccount = .ok rotatedAccountText := rfl
  have hfile : managedYaml.fileToString ⟨Auth.CURRENT_VERSION, [rotatedAccount]⟩ =
      .ok rotatedFileText := rfl
  refine save_mainStore htext hfile ?_ (validate_mainStore _ _ rfl rfl rfl rfl) rfl
  intro h
  have hsame := congrArg Prod.snd (List.cons.inj (Option.some.inj h)).1
  exact rotatedAccountText_ne hsame.symm

def adding : Write Unit := .insertGenerated managedAccount

def probing : Call Unit := .probe .ok "octo" true

def addThenProbe : List (Action Unit Unit) :=
  [.acquire (.write adding) none, .load 0, .acquire probing none, .write, .acquire probing none,
    .load 5, .exchange (.completed rotation) 10, .release, .verify 1 .verified,
    .quota 1 .unsupported]

/-- The account is saved, and the first probe was refused. -/
def added : System Unit Unit where
  disk := savedDisk
  history := [{ call := .write adding, progress := .returned (.ok none) }]
  refused := [(probing, .busy)]

/-- The second probe saves what the exchange returned. -/
theorem exec_addThenProbe : ∃ probe, exec managedYaml AuthStore.emptyDisk addThenProbe =
    some { added with
      disk := rotatedDisk
      history := added.history ++ [{ call := probing
                                     exchange := (.completed rotation, 10)
                                     progress := .returned (.ok (some probe)) }] } := by
  have hread : load managedYaml ({ disk := AuthStore.emptyDisk
                                   holder := some (.entered (.write adding)) } : System Unit Unit)
      (.write adding) 0 =
        { disk := AuthStore.emptyDisk, holder := some (.writing noStore adding) } := by
    rw [load, load_noStore]
  have hwrite : write managedYaml ({ disk := AuthStore.emptyDisk
                                     holder := some (.writing noStore adding)
                                     refused := [(probing, .busy)] } : System Unit Unit)
      noStore adding = some added := by
    rw [write, adding, perform_managed]
    dsimp only
    rw [save_managed]
    rfl
  have hstart : load managedYaml { added with holder := some (.entered probing) } probing 5 =
      { added with
        holder := some (.exchanging savedStore .ok "octo" true 0 savedAccount
          { checkedAt := 5 }) } := by
    have hfound : loadLocked managedYaml added.disk = .ok savedStore := load_savedDisk
    rw [load]
    dsimp only
    rw [hfound]
    rfl
  have hsaved : saveExchange managedYaml savedStore added.disk 0 10 (.completed rotation) =
      .ok rotatedDisk := save_rotated
  have hexchanged : exchange managedYaml
      { added with
        holder := some (.exchanging savedStore .ok "octo" true 0 savedAccount { checkedAt := 5 }) }
      savedStore .ok "octo" true 0 savedAccount { checkedAt := 5 } (.completed rotation) 10 =
        some { added with
          disk := rotatedDisk
          holder := some (.exchanged .ok "octo" true rotation 10 rotatedAccount
            { checkedAt := 5, authentication := "verified" }) } := by
    rw [exchange]
    dsimp only
    rw [hsaved]
    rfl
  refine ⟨{ checkedAt := 5, authentication := "verified", quotaStatus := "unsupported" }, ?_⟩
  refine Option.bind_eq_some_iff.mpr ⟨_, rfl, ?_⟩
  refine Option.bind_eq_some_iff.mpr ⟨_, congrArg some hread, ?_⟩
  refine Option.bind_eq_some_iff.mpr ⟨_, rfl, ?_⟩
  refine Option.bind_eq_some_iff.mpr ⟨_, hwrite, ?_⟩
  refine Option.bind_eq_some_iff.mpr ⟨_, rfl, ?_⟩
  refine Option.bind_eq_some_iff.mpr ⟨_, congrArg some hstart, ?_⟩
  refine Option.bind_eq_some_iff.mpr ⟨_, hexchanged, ?_⟩
  rfl

theorem management_addThenProbe : ∃ s,
    exec managedYaml AuthStore.emptyDisk addThenProbe = some s ∧ s.disk = rotatedDisk ∧
      s.refused = [(probing, .busy)] ∧ Serialised managedYaml AuthStore.emptyDisk s := by
  obtain ⟨probe, hexec⟩ := exec_addThenProbe
  exact ⟨_, hexec, rfl, rfl, management_serialised managedYaml_roundTrips hexec⟩

end Tokn.Accounts.Management
