import Tokn.Accounts.Affinity
import Tokn.Accounts.Rotation

/-!
# What an acquisition answers

A request gets the live binding of its session, or else the best binding that is not cooling of the
first tier that has one. It waits if all that it may use is cooling, until the first of them is not.

**Theorem (`acquire_outcome`).** So it is in each state that calls reach, and the call leaves the
cooldowns and the bindings of sessions as they are.
-/

namespace Tokn.Accounts

/-! ## Affinity -/

namespace Affinity

variable {V : Type} {a : Affinity V}

/-- The answer, by the entry before the sweep. -/
def answer (a : Affinity V) (now : Nat) : Option (AffinityEntry V) → Lookup V
  | some e =>
    if now - e.stampedAt < a.ttl then .hit e.value
    else if now - e.stampedAt < a.retainedTtl then .expired
    else .unknown
  | none => .unknown

/-- What is well formed. -/
structure Regular (a : Affinity V) : Prop where
  keyed : Table.Keyed a.map
  ttl_le : a.ttl ≤ a.retainedTtl

/-- One map has the entries of another that are retained. -/
structure Keeps (now : Nat) (a a' : Affinity V) : Prop where
  ttl : a'.ttl = a.ttl
  retainedTtl : a'.retainedTtl = a.retainedTtl
  keyed : Table.Keyed a.map → Table.Keyed a'.map
  kept : ∀ key e, a.map.get key = some e → now - e.stampedAt < a.retainedTtl →
    a'.map.get key = some e
  old : ∀ key e, a'.map.get key = some e → a.map.get key = some e

theorem Keeps.refl (now : Nat) (a : Affinity V) : Keeps now a a :=
  ⟨rfl, rfl, id, fun _ _ h _ => h, fun _ _ h => h⟩

theorem Keeps.trans {now : Nat} {a b c : Affinity V} (h : Keeps now a b) (h' : Keeps now b c) :
    Keeps now a c := by
  refine ⟨h'.ttl.trans h.ttl, h'.retainedTtl.trans h.retainedTtl, h'.keyed ∘ h.keyed, ?_, ?_⟩
  · intro key e hget hretained
    refine h'.kept key e (h.kept key e hget hretained) ?_
    rwa [h.retainedTtl]
  · intro key e hget
    exact h.old key e (h'.old key e hget)

theorem Keeps.regular {now : Nat} {a a' : Affinity V} (h : Keeps now a a') (ha : Regular a) :
    Regular a' := by
  refine ⟨h.keyed ha.keyed, ?_⟩
  rw [h.ttl, h.retainedTtl]
  exact ha.ttl_le

/-- Entries that are not kept do not answer any more. -/
theorem Keeps.answer_eq {now later : Nat} {a a' : Affinity V} (h : Keeps now a a')
    (ha : Regular a) (hle : now ≤ later) (key : String) :
    a'.answer later (a'.map.get key) = a.answer later (a.map.get key) := by
  have hsame (e : Option (AffinityEntry V)) : a'.answer later e = a.answer later e := by
    cases e <;> simp only [answer, h.ttl, h.retainedTtl]
  rw [hsame]
  cases hget : a.map.get key with
  | none =>
    cases hget' : a'.map.get key with
    | none => rfl
    | some e =>
      rw [h.old key e hget'] at hget
      cases hget
  | some e =>
    by_cases hretained : now - e.stampedAt < a.retainedTtl
    · rw [h.kept key e hget hretained]
    · have hlong : ¬ later - e.stampedAt < a.retainedTtl := by omega
      have hdead : ¬ later - e.stampedAt < a.ttl := by
        have httl := ha.ttl_le
        omega
      have hunknown : a.answer later (some e) = .unknown := by
        rw [answer, if_neg hdead, if_neg hlong]
      rw [hunknown]
      cases hget' : a'.map.get key with
      | none => rfl
      | some e' =>
        have heq := Option.some.inj ((h.old key e' hget').symm.trans hget)
        rw [heq, hunknown]

theorem keeps_maybeSweepExpired (hkeyed : Table.Keyed a.map) (now : Nat) :
    Keeps now a (a.maybeSweepExpired now) := by
  rw [maybeSweepExpired]
  by_cases hops : a.opsSinceGc + 1 < a.gcEvery
  · rw [if_pos hops]
    exact ⟨rfl, rfl, id, fun _ _ h _ => h, fun _ _ h => h⟩
  · rw [if_neg hops]
    refine ⟨rfl, rfl, fun h => h.filter _, ?_, ?_⟩
    · intro key e hget hretained
      show BTreeMap.get (a.map.filter _) key = some e
      rw [Table.get_filter_entry hkeyed, hget]
      exact Option.filter_eq_some_iff.mpr ⟨rfl, decide_eq_true hretained⟩
    · intro key e hget
      change BTreeMap.get (a.map.filter _) key = some e at hget
      rw [Table.get_filter_entry hkeyed] at hget
      exact (Option.filter_eq_some_iff.mp hget).1

/-- **A lookup** answers by the entry that there was, and forgets no entry that is retained. -/
theorem lookup_spec (ha : Regular a) (now : Nat) (key : String) :
    (a.lookup now key).1 = a.answer now (a.map.get key) ∧ Keeps now a (a.lookup now key).2 := by
  have hsweep := keeps_maybeSweepExpired ha.keyed now
  have hanswer := hsweep.answer_eq ha le_rfl key
  rw [← hanswer, lookup]
  generalize a.maybeSweepExpired now = b at hsweep
  cases hget : b.map.get key with
  | none => exact ⟨rfl, hsweep⟩
  | some e =>
    dsimp only
    rw [answer]
    by_cases hlive : now - e.stampedAt < b.ttl
    · rw [if_pos hlive, if_pos hlive]
      exact ⟨rfl, hsweep⟩
    · rw [if_neg hlive, if_neg hlive]
      by_cases hkept : now - e.stampedAt < b.retainedTtl
      · rw [if_pos hkept, if_pos hkept]
        exact ⟨rfl, hsweep⟩
      · rw [if_neg hkept, if_neg hkept]
        refine ⟨rfl, hsweep.trans ⟨rfl, rfl, fun h => h.erase key, ?_, ?_⟩⟩
        · intro k e' hget' hretained
          rw [BTreeMap.get_erase, if_neg]
          · exact hget'
          · rintro rfl
            rw [hget] at hget'
            rw [← Option.some.inj hget'] at hretained
            exact hkept hretained
        · intro k e' hget'
          rw [BTreeMap.get_erase] at hget'
          split_ifs at hget'
          exact hget'

theorem regular_record (ha : Regular a) (now : Nat) (key : String) (value : V) :
    Regular (a.record now key value) := by
  have hsweep := (keeps_maybeSweepExpired ha.keyed now).regular ha
  exact ⟨hsweep.keyed.set key _, hsweep.ttl_le⟩

end Affinity

/-! ## Tiers -/

namespace RequestClass

variable {request : RequestClass} {cooling : BTreeMap ProviderBindingKey Nat}

/-- When the bindings that a request may use end to cool. -/
def deadlines (request : RequestClass) (cooling : BTreeMap ProviderBindingKey Nat)
    (accounts : List ProviderBinding) : List Nat :=
  (accounts.filter request.eligible).filterMap fun binding => cooling.get binding.key

theorem mem_deadlines {accounts : List ProviderBinding} {t : Nat} :
    t ∈ request.deadlines cooling accounts ↔
      ∃ binding ∈ accounts, request.eligible binding = true ∧ cooling.get binding.key = some t := by
  simp only [deadlines, List.mem_filterMap, List.mem_filter]
  constructor
  · rintro ⟨binding, ⟨hmem, heligible⟩, hcooling⟩
    exact ⟨binding, hmem, heligible, hcooling⟩
  · rintro ⟨binding, hmem, heligible, hcooling⟩
    exact ⟨binding, ⟨hmem, heligible⟩, hcooling⟩

theorem earliestRetry_scanAccount (scan : TierScan) (binding : ProviderBinding) :
    (request.scanAccount cooling scan binding).earliestRetry =
      (request.deadlines cooling [binding]).foldl retainEarliest scan.earliestRetry := by
  rw [scanAccount, deadlines, List.filter_singleton]
  cases heligible : request.eligible binding with
  | false => rfl
  | true =>
    cases hcooling : cooling.get binding.key with
    | some retryAt => simp [hcooling]
    | none =>
      have hnone : List.filterMap (fun binding => cooling.get binding.key) [binding] = [] := by
        simp [hcooling]
      simp only [Bool.not_true, Bool.false_eq_true, if_false, cond_true, hnone, List.foldl_nil]
      cases scan.bestRank with
      | none => rfl
      | some current =>
        dsimp only
        split_ifs <;> rfl

/-- The scan keeps the earliest end of a cooldown. -/
theorem earliestRetry_foldl (accounts : List ProviderBinding) (scan : TierScan) :
    (accounts.foldl (request.scanAccount cooling) scan).earliestRetry =
      (request.deadlines cooling accounts).foldl retainEarliest scan.earliestRetry := by
  induction accounts generalizing scan with
  | nil => rfl
  | cons binding accounts ih =>
    have hcons : request.deadlines cooling (binding :: accounts) =
        request.deadlines cooling [binding] ++ request.deadlines cooling accounts := by
      rw [deadlines, deadlines, deadlines, ← List.filterMap_append, ← List.filter_append,
        List.singleton_append]
    rw [List.foldl_cons, ih, earliestRetry_scanAccount, hcons, List.foldl_append]

end RequestClass

/-- The least of some instants. -/
theorem foldl_retainEarliest_none (instants : List Nat) :
    (instants.foldl retainEarliest none = none ↔ instants = []) ∧
      ∀ t, instants.foldl retainEarliest none = some t →
        t ∈ instants ∧ ∀ d ∈ instants, t ≤ d := by
  induction instants using List.reverseRecOn with
  | nil => simp
  | append_singleton instants last ih =>
    obtain ⟨hnil, hleast⟩ := ih
    rw [List.foldl_concat, retainEarliest]
    cases hfold : instants.foldl retainEarliest none with
    | none =>
      rw [hnil.mp hfold]
      simp
    | some current =>
      obtain ⟨hmem, hle⟩ := hleast current hfold
      by_cases hlt : last < current
      · simp only [Option.all_some, hlt, decide_true, if_true]
        refine ⟨by simp, ?_⟩
        rintro t ⟨⟩
        refine ⟨by simp, ?_⟩
        intro d hd
        rcases List.mem_append.mp hd with hd | hd
        · exact hlt.le.trans (hle d hd)
        · rw [List.mem_singleton.mp hd]
      · simp only [Option.all_some, hlt, decide_false, Bool.false_eq_true, if_false]
        refine ⟨by simp, ?_⟩
        rintro t ⟨⟩
        refine ⟨List.mem_append_left _ hmem, ?_⟩
        intro d hd
        rcases List.mem_append.mp hd with hd | hd
        · exact hle d hd
        · rw [List.mem_singleton.mp hd]
          exact Nat.le_of_not_lt hlt

/-! ## Health -/

/-- When a binding ends to cool, if it still does. -/
def PoolRuntime.coolingUntil (st : PoolRuntime) (now : Nat) (key : ProviderBindingKey) : Option Nat :=
  ((st.cooldowns.get key).bind BindingCooldown.retryAt).filter fun retryAt => now < retryAt

theorem PoolRuntime.get_coolingBindings {st : PoolRuntime} (h : Table.Keyed st.cooldowns)
    (now : Nat) (key : ProviderBindingKey) :
    (st.coolingBindings now).get key = st.coolingUntil now key := by
  have hget := Table.get_filterMap h (fun cooldown : BindingCooldown =>
    cooldown.retryAt.filter fun retryAt => now < retryAt) key
  refine hget.trans ?_
  rw [coolingUntil]
  cases st.cooldowns.get key <;> rfl

/-! ## One call -/

namespace Acquisition

variable (pool : LinkedAccountPool) (st : PoolRuntime) (now : Nat) (request : RequestClass)

/-- A binding may be used. -/
def Usable (binding : ProviderBinding) : Prop :=
  request.eligible binding = true ∧ st.coolingUntil now binding.key = none

/-- A binding is the best one of a tier that may be used. -/
structure Best (accounts : List ProviderBinding) (binding : ProviderBinding) : Prop where
  mem : binding ∈ accounts
  rank_le : ∀ other ∈ accounts, Usable st now request other →
    request.rank other ≤ request.rank binding

/-- A session is bound, and the binding is live. -/
def BoundTo (sessionId : Option String) (key : ProviderBindingKey) : Prop :=
  ∃ id a e, sessionId = some id ∧ st.affinity = some a ∧ a.map.get id = some e ∧
    now - e.stampedAt < a.ttl ∧ e.value = key

/-- What an acquisition answers. -/
structure Outcome (sessionId : Option String) (reply : PoolAcquire) : Prop where
  selected : ∀ binding, reply = .selected binding →
    binding ∈ pool.active ++ pool.fallback ∧ Usable st now request binding ∧
      (BoundTo st now sessionId binding.key ∨ Best st now request pool.active binding ∨
        (∀ other ∈ pool.active, ¬ Usable st now request other) ∧
          Best st now request pool.fallback binding)
  coolingDown : ∀ retryAt, reply = .coolingDown retryAt ↔
    (∃ binding ∈ pool.active ++ pool.fallback, request.eligible binding = true) ∧
      (∀ binding ∈ pool.active ++ pool.fallback, request.eligible binding = true →
        (st.coolingUntil now binding.key).isSome = true) ∧
      IsLeast {t | ∃ binding ∈ pool.active ++ pool.fallback, request.eligible binding = true ∧
        st.coolingUntil now binding.key = some t} retryAt
  noEligible : reply = .noEligible ↔
    ∀ binding ∈ pool.active ++ pool.fallback, request.eligible binding = false

/-- The bindings of the sessions are the same, apart from what is retained no longer. -/
structure SameBindings (a a' : Affinity ProviderBindingKey) : Prop where
  keeps : a.Keeps now a'
  answers : ∀ later, now ≤ later → ∀ id, (a'.lookup later id).1 = (a.lookup later id).1

/-- What is well formed. -/
structure Regular : Prop where
  cooldowns : Table.Keyed st.cooldowns
  affinity : ∀ a, st.affinity = some a → a.Regular

variable {pool st now request}

variable {binding : ProviderBinding} {accounts : List ProviderBinding}

theorem usable_iff (h : Regular st) :
    (request.eligible binding && !(st.coolingBindings now).contains binding.key) = true ↔
      Usable st now request binding := by
  rw [Usable, BTreeMap.contains, PoolRuntime.get_coolingBindings h.cooldowns]
  simp

theorem mem_able (h : Regular st) :
    binding ∈ request.able (st.coolingBindings now) accounts ↔
      binding ∈ accounts ∧ Usable st now request binding := by
  rw [RequestClass.able, List.mem_filter, usable_iff h]

/-- A tier has no candidate exactly if it has no binding that may be used. -/
theorem topRanked_eq_nil_iff (h : Regular st) :
    request.topRanked (st.coolingBindings now) accounts = [] ↔
      ∀ binding ∈ accounts, ¬ Usable st now request binding := by
  constructor
  · intro hnil binding hmem husable
    have hable := (mem_able h).mpr ⟨hmem, husable⟩
    cases hbest : (request.able (st.coolingBindings now) accounts).argmax request.rank with
    | none =>
      rw [List.argmax_eq_none.mp hbest] at hable
      exact absurd hable List.not_mem_nil
    | some best =>
      have hcandidate : best ∈ request.topRanked (st.coolingBindings now) accounts := by
        refine List.mem_filter.mpr ⟨List.argmax_mem hbest, ?_⟩
        rw [List.all_eq_true]
        intro other hother
        exact decide_eq_true (List.le_of_mem_argmax hother hbest)
      rw [hnil] at hcandidate
      exact absurd hcandidate List.not_mem_nil
  · intro hnone
    rw [List.eq_nil_iff_forall_not_mem]
    intro binding hmem
    obtain ⟨haccounts, husable⟩ := (mem_able h).mp (List.mem_filter.mp hmem).1
    exact hnone binding haccounts husable

theorem best_of_mem_topRanked (h : Regular st)
    (hmem : binding ∈ request.topRanked (st.coolingBindings now) accounts) :
    Usable st now request binding ∧ Best st now request accounts binding := by
  obtain ⟨hable, hall⟩ := List.mem_filter.mp hmem
  obtain ⟨haccounts, husable⟩ := (mem_able h).mp hable
  refine ⟨husable, haccounts, ?_⟩
  intro other hother husable'
  exact of_decide_eq_true (List.all_eq_true.mp hall other ((mem_able h).mpr ⟨hother, husable'⟩))

theorem selectTier_of_nil {cooling : BTreeMap ProviderBindingKey Nat}
    (h : request.topRanked cooling accounts = []) (cursor : Nat) (earliestRetry : Option Nat) :
    request.selectTier cooling accounts cursor earliestRetry =
      (none, cursor, (request.deadlines cooling accounts).foldl retainEarliest earliestRetry) := by
  rw [RequestClass.selectTier, RequestClass.candidates_foldl, if_pos h,
    RequestClass.earliestRetry_foldl]

/-! ### Answers -/

variable {sessionId : Option String}

/-- Where a binding may be used, there is no other answer. -/
theorem outcome_selected (hmem : binding ∈ pool.active ++ pool.fallback)
    (husable : Usable st now request binding)
    (hchoice : BoundTo st now sessionId binding.key ∨ Best st now request pool.active binding ∨
      (∀ other ∈ pool.active, ¬ Usable st now request other) ∧
        Best st now request pool.fallback binding) :
    Outcome pool st now request sessionId (.selected binding) := by
  refine ⟨?_, ?_, ?_⟩
  · rintro other ⟨⟩
    exact ⟨hmem, husable, hchoice⟩
  · intro retryAt
    refine iff_of_false (by simp) ?_
    rintro ⟨-, hall, -⟩
    have hcooling := hall binding hmem husable.1
    rw [husable.2] at hcooling
    cases hcooling
  · refine iff_of_false (by simp) ?_
    intro hnone
    have heligible := husable.1
    rw [hnone binding hmem] at heligible
    cases heligible

/-- Where nothing may be used, what is eligible is cooling. -/
theorem outcome_unavailable (h : Regular st)
    (hnone : ∀ binding ∈ pool.active ++ pool.fallback, ¬ Usable st now request binding)
    {earliest : Option Nat} (hearliest : earliest =
      (request.deadlines (st.coolingBindings now) (pool.active ++ pool.fallback)).foldl
        retainEarliest none) :
    Outcome pool st now request sessionId
      (earliest.elim .noEligible .coolingDown) := by
  have hcooling : ∀ binding ∈ pool.active ++ pool.fallback, request.eligible binding = true →
      (st.coolingUntil now binding.key).isSome = true := by
    intro binding hmem heligible
    rw [Option.isSome_iff_ne_none]
    intro hfree
    exact hnone binding hmem ⟨heligible, hfree⟩
  have hdeadlines (t : Nat) :
      t ∈ request.deadlines (st.coolingBindings now) (pool.active ++ pool.fallback) ↔
        ∃ binding ∈ pool.active ++ pool.fallback, request.eligible binding = true ∧
          st.coolingUntil now binding.key = some t := by
    simp only [RequestClass.mem_deadlines, PoolRuntime.get_coolingBindings h.cooldowns]
  obtain ⟨hnil, hleast⟩ := foldl_retainEarliest_none
    (request.deadlines (st.coolingBindings now) (pool.active ++ pool.fallback))
  rw [← hearliest] at hnil hleast
  cases earliest with
  | none =>
    have hempty := hnil.mp rfl
    have hineligible : ∀ binding ∈ pool.active ++ pool.fallback, request.eligible binding = false := by
      intro binding hmem
      by_contra heligible
      rw [Bool.not_eq_false] at heligible
      obtain ⟨t, ht⟩ := Option.isSome_iff_exists.mp (hcooling binding hmem heligible)
      have hmem' := (hdeadlines t).mpr ⟨binding, hmem, heligible, ht⟩
      rw [hempty] at hmem'
      exact absurd hmem' List.not_mem_nil
    refine ⟨by simp, ?_, iff_of_true rfl hineligible⟩
    intro retryAt
    refine iff_of_false (by simp) ?_
    rintro ⟨⟨binding, hmem, heligible⟩, -⟩
    rw [hineligible binding hmem] at heligible
    cases heligible
  | some retryAt =>
    obtain ⟨hmem, hle⟩ := hleast retryAt rfl
    obtain ⟨binding, hbinding, heligible, hend⟩ := (hdeadlines retryAt).mp hmem
    have hmin : IsLeast {t | ∃ binding ∈ pool.active ++ pool.fallback,
        request.eligible binding = true ∧ st.coolingUntil now binding.key = some t} retryAt := by
      refine ⟨⟨binding, hbinding, heligible, hend⟩, ?_⟩
      intro t ht
      exact hle t ((hdeadlines t).mpr ht)
    refine ⟨by simp, ?_, ?_⟩
    · intro t
      constructor
      · rintro ⟨⟩
        exact ⟨⟨binding, hbinding, heligible⟩, hcooling, hmin⟩
      · rintro ⟨-, -, hmin'⟩
        exact congrArg PoolAcquire.coolingDown (hmin.unique hmin')
    · refine iff_of_false (by simp) ?_
      intro hineligible
      rw [hineligible binding hbinding] at heligible
      cases heligible

/-! ### The session -/

theorem get_bindings {key : ProviderBindingKey} (h : pool.bindings.get key = some binding) :
    binding ∈ pool.active ++ pool.fallback ∧ binding.key = key := by
  obtain ⟨other, hmem, heq⟩ := List.mem_map.mp (BTreeMap.mem_of_get h)
  obtain ⟨rfl, rfl⟩ := Prod.mk.inj heq
  exact ⟨hmem, rfl⟩

theorem SameBindings.of_keeps {a a' : Affinity ProviderBindingKey} (h : a.Keeps now a')
    (ha : a.Regular) : SameBindings now a a' := by
  refine ⟨h, ?_⟩
  intro later hle id
  rw [(Affinity.lookup_spec ha later id).1, (Affinity.lookup_spec (h.regular ha) later id).1]
  exact h.answer_eq ha hle id

/-- What the affinity answers, and what is left of it. -/
theorem acquireSticky_spec (h : Regular st) :
    (∀ binding, (st.acquireSticky pool now sessionId request).1 = some binding →
      binding ∈ pool.active ++ pool.fallback ∧ Usable st now request binding ∧
        BoundTo st now sessionId binding.key) ∧
      Option.Rel (SameBindings now) st.affinity (st.acquireSticky pool now sessionId request).2 := by
  have hrefl : Option.Rel (SameBindings now) st.affinity st.affinity := by
    cases haffinity : st.affinity with
    | none => exact .none
    | some a => exact .some (.of_keeps (.refl now a) (h.affinity a haffinity))
  cases sessionId with
  | none =>
    have hsticky : st.acquireSticky pool now none request = (none, st.affinity) := rfl
    rw [hsticky]
    exact ⟨by rintro binding ⟨⟩, hrefl⟩
  | some id =>
    cases haffinity : st.affinity with
    | none =>
      simp only [PoolRuntime.acquireSticky, haffinity]
      rw [haffinity] at hrefl
      exact ⟨by rintro binding ⟨⟩, hrefl⟩
    | some a =>
      have ha := h.affinity a haffinity
      obtain ⟨hanswer, hkeeps⟩ := Affinity.lookup_spec ha now id
      have hsame : Option.Rel (SameBindings now) (some a) (some (a.lookup now id).2) :=
        .some (.of_keeps hkeeps ha)
      simp only [PoolRuntime.acquireSticky, haffinity]
      generalize a.lookup now id = result at hanswer hsame
      obtain ⟨found, a'⟩ := result
      dsimp only at hanswer hsame ⊢
      cases found with
      | expired => exact ⟨by rintro binding ⟨⟩, hsame⟩
      | unknown => exact ⟨by rintro binding ⟨⟩, hsame⟩
      | hit key =>
        refine ⟨?_, hsame⟩
        intro binding hsome
        obtain ⟨hget, hfilter⟩ := Option.filter_eq_some_iff.mp hsome
        obtain ⟨hmem, rfl⟩ := get_bindings hget
        refine ⟨hmem, (usable_iff h).mp hfilter, id, a, ?_⟩
        cases hentry : a.map.get id with
        | none =>
          rw [hentry] at hanswer
          cases hanswer
        | some e =>
          rw [hentry, Affinity.answer] at hanswer
          by_cases hlive : now - e.stampedAt < a.ttl
          · rw [if_pos hlive] at hanswer
            exact ⟨e, rfl, haffinity, rfl, hlive, (Lookup.hit.inj hanswer).symm⟩
          · rw [if_neg hlive] at hanswer
            split_ifs at hanswer

/-- **One acquisition.** -/
theorem acquireRanked_spec (h : Regular st) (pool : LinkedAccountPool) (now : Nat)
    (sessionId : Option String) (request : RequestClass) :
    Outcome pool st now request sessionId (st.acquireRanked pool now sessionId request).1 ∧
      (st.acquireRanked pool now sessionId request).2.cooldowns = st.cooldowns ∧
      Option.Rel (SameBindings now) st.affinity
        (st.acquireRanked pool now sessionId request).2.affinity := by
  obtain ⟨hsticky, hsame⟩ := @acquireSticky_spec pool st now request sessionId h
  rw [PoolRuntime.acquireRanked]
  generalize st.acquireSticky pool now sessionId request = result at hsticky hsame ⊢
  obtain ⟨sticky, affinity⟩ := result
  dsimp only at hsticky hsame ⊢
  cases sticky with
  | some binding =>
    obtain ⟨hmem, husable, hbound⟩ := hsticky binding rfl
    exact ⟨outcome_selected hmem husable (Or.inl hbound), rfl, hsame⟩
  | none =>
    dsimp only
    rcases RotationRun.eq_nil_or_length_pos (request.topRanked (st.coolingBindings now) pool.active) with
      hactive | hactive
    · have hnoActive := (topRanked_eq_nil_iff h).mp hactive
      rw [selectTier_of_nil hactive]
      dsimp only
      rcases RotationRun.eq_nil_or_length_pos
        (request.topRanked (st.coolingBindings now) pool.fallback) with hfallback | hfallback
      · have hnoFallback := (topRanked_eq_nil_iff h).mp hfallback
        rw [selectTier_of_nil hfallback, ← List.foldl_append]
        have hdeadlines : request.deadlines (st.coolingBindings now) pool.active ++
            request.deadlines (st.coolingBindings now) pool.fallback =
              request.deadlines (st.coolingBindings now) (pool.active ++ pool.fallback) := by
          rw [RequestClass.deadlines, RequestClass.deadlines, RequestClass.deadlines,
            ← List.filterMap_append, ← List.filter_append]
        have hnone : ∀ binding ∈ pool.active ++ pool.fallback, ¬ Usable st now request binding := by
          intro binding hmem
          rcases List.mem_append.mp hmem with hmem | hmem
          · exact hnoActive binding hmem
          · exact hnoFallback binding hmem
        rw [hdeadlines]
        have houtcome := @outcome_unavailable pool st now request sessionId h hnone _ rfl
        dsimp only
        cases hearliest : (request.deadlines (st.coolingBindings now)
            (pool.active ++ pool.fallback)).foldl retainEarliest none with
        | none =>
          rw [hearliest] at houtcome
          exact ⟨houtcome, rfl, hsame⟩
        | some retryAt =>
          rw [hearliest] at houtcome
          exact ⟨houtcome, rfl, hsame⟩
      · obtain ⟨earliest, hselect⟩ := RotationRun.selectTier_pos hfallback st.fallbackCursor
          ((request.deadlines (st.coolingBindings now) pool.active).foldl retainEarliest none)
        rw [hselect]
        obtain ⟨husable, hbest⟩ := best_of_mem_topRanked h
          (List.get_mem _ _ : RoundRobin.cycle _ hfallback st.fallbackCursor ∈ _)
        exact ⟨outcome_selected (List.mem_append_right _ hbest.mem) husable
          (Or.inr (Or.inr ⟨hnoActive, hbest⟩)), rfl, hsame⟩
    · obtain ⟨earliest, hselect⟩ := RotationRun.selectTier_pos hactive st.activeCursor none
      rw [hselect]
      obtain ⟨husable, hbest⟩ := best_of_mem_topRanked h
        (List.get_mem _ _ : RoundRobin.cycle _ hactive st.activeCursor ∈ _)
      exact ⟨outcome_selected (List.mem_append_left _ hbest.mem) husable
        (Or.inr (Or.inl hbest)), rfl, hsame⟩

/-! ## Runs -/

/-- A call of the runtime of a pool. -/
inductive Call where
  | acquire (now : Nat) (sessionId : Option String) (request : RequestClass)
  | success (now : Nat) (sessionId : Option String) (key : ProviderBindingKey)
  | failure (now : Nat) (key : ProviderBindingKey)

def step (pool : LinkedAccountPool) (clock : Clock) (st : PoolRuntime) : Call → PoolRuntime
  | .acquire now sessionId request => (st.acquireRanked pool now sessionId request).2
  | .success now sessionId key => (st.recordSuccess pool now sessionId key).2
  | .failure now key => (st.recordFailure pool clock now key).2

theorem regular_runtime (pool : LinkedAccountPool) : Regular pool.runtime := by
  refine ⟨?_, ?_⟩
  · have hkeys : pool.runtime.cooldowns.map Prod.fst =
        (pool.active ++ pool.fallback).map ProviderBinding.key := by
      simp [LinkedAccountPool.runtime, LinkedAccountPool.bindings, Function.comp_def]
    rw [Table.Keyed, hkeys]
    exact pool.nodup
  · intro a ha
    obtain ⟨plan, -, rfl⟩ := Option.map_eq_some_iff.mp ha
    exact ⟨Table.keyed_nil, le_max_left _ _⟩

/-- **One call.** -/
theorem Regular.step (h : Regular st) (pool : LinkedAccountPool) (clock : Clock) (call : Call) :
    Regular (step pool clock st call) := by
  cases call with
  | acquire now sessionId request =>
    obtain ⟨-, hcooldowns, hsame⟩ := acquireRanked_spec h pool now sessionId request
    refine ⟨?_, ?_⟩
    · rw [Acquisition.step, hcooldowns]
      exact h.cooldowns
    · intro a ha
      rw [Acquisition.step] at ha
      rw [ha] at hsame
      generalize haffinity : st.affinity = before at hsame
      cases hsame with
      | some hsame => exact hsame.keeps.regular (h.affinity _ haffinity)
  | success now sessionId key =>
    simp only [Acquisition.step, PoolRuntime.recordSuccess]
    cases st.cooldowns.get key with
    | none => exact h
    | some cooldown =>
      refine ⟨h.cooldowns.set key _, ?_⟩
      cases sessionId with
      | none => exact h.affinity
      | some sessionId =>
        intro a ha
        obtain ⟨before, hbefore, rfl⟩ := Option.map_eq_some_iff.mp ha
        exact Affinity.regular_record (h.affinity before hbefore) now sessionId key
  | failure now key =>
    simp only [Acquisition.step, PoolRuntime.recordFailure]
    cases st.cooldowns.get key with
    | none => exact h
    | some cooldown => exact ⟨h.cooldowns.set key _, h.affinity⟩

theorem regular_run (pool : LinkedAccountPool) (clock : Clock) (calls : List Call) :
    Regular (calls.foldl (step pool clock) pool.runtime) := by
  induction calls using List.reverseRecOn with
  | nil => exact regular_runtime pool
  | append_singleton calls call ih =>
    rw [List.foldl_concat]
    exact ih.step pool clock call

/-- **The outcome of an acquisition**, after any calls. -/
theorem acquire_outcome (pool : LinkedAccountPool) (clock : Clock) (calls : List Call) (now : Nat)
    (sessionId : Option String) (request : RequestClass) :
    let st := calls.foldl (step pool clock) pool.runtime
    Outcome pool st now request sessionId (st.acquireRanked pool now sessionId request).1 ∧
      (st.acquireRanked pool now sessionId request).2.cooldowns = st.cooldowns ∧
      Option.Rel (SameBindings now) st.affinity
        (st.acquireRanked pool now sessionId request).2.affinity :=
  acquireRanked_spec (regular_run pool clock calls) pool now sessionId request

end Acquisition

end Tokn.Accounts
