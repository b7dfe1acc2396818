import Mathlib.Data.String.Basic
import Tokn.Accounts.Pool

/-!
# What the pool promises about a route

`acquire_for_route_with_providers` is asked for an account, `has_route_for_providers` whether there
is one. They agree, and the account can serve the route, as far as the first account of a bucket
speaks for the others.

**Theorem (`acquire_agrees_iff`).** Take a pool, a route, a requested endpoint and a list of allowed
providers. Every state of the pool, at every time and for every session, keeps the promise exactly
if the bucket providers agree with the providers of the accounts: at the first attempt that some
allowed bucket matches, all the accounts of such buckets serve the endpoint; and where no bucket
ever matches, no allowed account that an id leads to does.

The accounts of one provider id need not agree. `pool_disagrees` is a pool of two local servers, of
which only the second has been seen to have the model. A session that has stayed with the second is
given it, though the pool has no route.
-/

namespace Tokn.Accounts

open Tokn.Convert (Endpoint)

/-! ## Buckets -/

/-- What a bucket of the accounts is. -/
structure BucketOf (accounts : List AccountHandle) (key : String) (b : ProviderBucket) : Prop where
  nonempty : b.members ≠ []
  mem : ∀ a ∈ b.members, a ∈ accounts ∧ a.providerId = key
  length_le : b.accounts.length + b.fallbackAccounts.length ≤ accounts.length

theorem ProviderBucket.mem_members_push {b : ProviderBucket} {a a' : AccountHandle} :
    a' ∈ (b.push a).members ↔ a' ∈ b.members ∨ a' = a := by
  rw [push]
  cases a.config.tier <;>
    simp only [members, List.mem_append, List.mem_singleton, or_assoc, or_comm, or_left_comm]

theorem ProviderBucket.length_push (b : ProviderBucket) (a : AccountHandle) :
    (b.push a).accounts.length + (b.push a).fallbackAccounts.length =
      b.accounts.length + b.fallbackAccounts.length + 1 := by
  rw [push]
  cases a.config.tier <;> simp only [List.length_append, List.length_singleton] <;> omega

theorem BucketOf.mono {accounts : List AccountHandle} {key : String} {b : ProviderBucket}
    (h : BucketOf accounts key b) (a : AccountHandle) : BucketOf (accounts ++ [a]) key b where
  nonempty := h.nonempty
  mem a' ha' := ⟨List.mem_append_left _ (h.mem a' ha').1, (h.mem a' ha').2⟩
  length_le := by
    rw [List.length_append]
    exact Nat.le_add_right_of_le h.length_le

/-- Filing an account keeps the buckets those of the accounts. -/
theorem bucketOf_addAccount {accounts : List AccountHandle} {buckets : Buckets}
    (h : ∀ e ∈ buckets, BucketOf accounts e.1 e.2) (a : AccountHandle) :
    ∀ e ∈ addAccount buckets a, BucketOf (accounts ++ [a]) e.1 e.2 := by
  intro e he
  cases BTreeMap.mem_insert he with
  | inr hold => exact (h e hold).mono a
  | inl hnew =>
    rw [hnew]
    have hmem : a ∈ accounts ++ [a] := List.mem_append_right _ (List.mem_singleton_self a)
    cases hget : buckets.get a.providerId with
    | none =>
      refine ⟨?_, ?_, ?_⟩
      · exact List.ne_nil_of_mem (ProviderBucket.mem_members_push.mpr (Or.inr rfl))
      · intro a' ha'
        cases ProviderBucket.mem_members_push.mp ha' with
        | inl hold => cases hold
        | inr hself => rw [hself]; exact ⟨hmem, rfl⟩
      · rw [ProviderBucket.length_push, List.length_append]
        exact Nat.le_add_left _ _
    | some b =>
      have hb := h _ (BTreeMap.mem_of_get hget)
      refine ⟨?_, ?_, ?_⟩
      · exact List.ne_nil_of_mem (ProviderBucket.mem_members_push.mpr (Or.inr rfl))
      · intro a' ha'
        cases ProviderBucket.mem_members_push.mp ha' with
        | inl hold => exact (hb.mono a).mem a' hold
        | inr hself => rw [hself]; exact ⟨hmem, rfl⟩
      · rw [ProviderBucket.length_push, List.length_append]
        exact Nat.succ_le_succ hb.length_le

theorem bucketOf_foldl (accounts : List AccountHandle) {seen : List AccountHandle}
    {buckets : Buckets} (h : ∀ e ∈ buckets, BucketOf seen e.1 e.2) :
    ∀ e ∈ accounts.foldl addAccount buckets, BucketOf (seen ++ accounts) e.1 e.2 := by
  induction accounts generalizing seen buckets with
  | nil => rwa [List.append_nil]
  | cons a accounts ih =>
    rw [List.append_cons]
    exact ih (bucketOf_addAccount h a)

theorem sorted_foldl (accounts : List AccountHandle) {buckets : Buckets}
    (h : BTreeMap.Sorted buckets) : BTreeMap.Sorted (accounts.foldl addAccount buckets) := by
  induction accounts generalizing buckets with
  | nil => exact h
  | cons a accounts ih => exact ih (h.insert _ _)

theorem AccountPool.bucketOf (pool : AccountPool) :
    ∀ e ∈ pool.buckets, BucketOf pool.accounts e.1 e.2 :=
  @bucketOf_foldl pool.accounts [] [] fun _ he => nomatch he

theorem AccountPool.nodup_keys (pool : AccountPool) : (pool.buckets.map Prod.fst).Nodup :=
  (sorted_foldl pool.accounts BTreeMap.sorted_nil).nodup

/-! ## Picking an account -/

namespace PoolState

variable {st : PoolState} {now : Nat}

variable {a : AccountHandle} {b : ProviderBucket} {candidates : Buckets}

theorem pickHealthyRr_some {accounts : List AccountHandle} {cursor : Nat}
    (h : (st.pickHealthyRr now accounts cursor).1 = some a) :
    a ∈ accounts ∧ st.isHealthy now a = true := by
  rw [pickHealthyRr] at h
  split_ifs at h
  obtain ⟨i, -, hi⟩ := List.exists_of_findSome?_eq_some h
  obtain ⟨hget, hhealthy⟩ := Option.filter_eq_some_iff.mp hi
  exact ⟨List.mem_of_getElem? hget, hhealthy⟩

/-- From the first position on, the round finds a healthy account if there is one. -/
theorem pickHealthyRr_isSome {accounts : List AccountHandle} (hlen : accounts.length < usizeSize)
    (hmem : a ∈ accounts) (hhealthy : st.isHealthy now a = true) :
    (st.pickHealthyRr now accounts 0).1.isSome = true := by
  have hne : accounts.length ≠ 0 := fun hzero => by
    rw [List.length_eq_zero_iff.mp hzero] at hmem
    cases hmem
  rw [pickHealthyRr, if_neg hne, List.findSome?_isSome_iff]
  obtain ⟨i, hi, rfl⟩ := List.getElem_of_mem hmem
  refine ⟨i, List.mem_range.mpr hi, ?_⟩
  rw [Nat.zero_add, Nat.mod_eq_of_lt (hi.trans hlen), Nat.mod_eq_of_lt hi, List.getElem?_eq_getElem hi,
    Option.filter_some, if_pos hhealthy]
  rfl

/-- A pick moves the cursors of its own bucket only. -/
structure SameButCursors (key : String) (st st' : PoolState) : Prop where
  inner : st'.inner = st.inner
  affinity : st'.affinity = st.affinity
  cursor : ∀ k, k ≠ key → st'.cursor k = st.cursor k
  fallbackCursor : ∀ k, k ≠ key → st'.fallbackCursor k = st.fallbackCursor k

theorem pickHealthy_same (st : PoolState) (now : Nat) (key : String) (b : ProviderBucket) :
    SameButCursors key st (st.pickHealthy now key b).2 := by
  unfold pickHealthy
  dsimp only
  split
  · exact ⟨rfl, rfl, fun k hk => Function.update_of_ne hk _ _, fun _ _ => rfl⟩
  · exact ⟨rfl, rfl, fun k hk => Function.update_of_ne hk _ _,
      fun k hk => Function.update_of_ne hk _ _⟩

theorem SameButCursors.isHealthy {key : String} {st st' : PoolState}
    (h : SameButCursors key st st') (now : Nat) (a : AccountHandle) :
    st'.isHealthy now a = st.isHealthy now a := by
  rw [PoolState.isHealthy, h.inner, ← PoolState.isHealthy]

theorem pickHealthy_some {key : String} (h : (st.pickHealthy now key b).1 = some a) :
    a ∈ b.members ∧ st.isHealthy now a = true := by
  unfold pickHealthy at h
  dsimp only at h
  split at h
  · rename_i hpick
    obtain ⟨hmem, hhealthy⟩ := pickHealthyRr_some (hpick.trans h)
    exact ⟨List.mem_append_left _ hmem, hhealthy⟩
  · obtain ⟨hmem, hhealthy⟩ := pickHealthyRr_some h
    exact ⟨List.mem_append_right _ hmem, hhealthy⟩

theorem pickHealthy_isSome {key : String}
    (hlen : b.accounts.length + b.fallbackAccounts.length < usizeSize) (hcursor : st.cursor key = 0)
    (hfallback : st.fallbackCursor key = 0) (hmem : a ∈ b.members)
    (hhealthy : st.isHealthy now a = true) : (st.pickHealthy now key b).1.isSome = true := by
  unfold pickHealthy
  dsimp only
  split
  · rfl
  · rename_i hnone
    rw [hcursor] at hnone
    cases List.mem_append.mp hmem with
    | inl hactive =>
      have hsome := pickHealthyRr_isSome (by omega) hactive hhealthy
      rw [hnone] at hsome
      cases hsome
    | inr hother =>
      show (PoolState.pickHealthyRr _ now b.fallbackAccounts (st.fallbackCursor key)).1.isSome = true
      rw [hfallback]
      exact pickHealthyRr_isSome (by omega) hother hhealthy

theorem pickFirstHealthy_some (h : (pickFirstHealthy now candidates st).1 = some a) :
    (∃ e ∈ candidates, a ∈ e.2.members) ∧ st.isHealthy now a = true := by
  induction candidates generalizing st with
  | nil => cases h
  | cons e candidates ih =>
    obtain ⟨key, b⟩ := e
    rw [pickFirstHealthy] at h
    split at h
    · rename_i a' st' hpick
      have hpicked : (st.pickHealthy now key b).1 = some a := by
        rw [hpick]
        exact h
      obtain ⟨hmem, hhealthy⟩ := pickHealthy_some hpicked
      exact ⟨⟨_, List.mem_cons_self, hmem⟩, hhealthy⟩
    · rename_i st' hpick
      obtain ⟨⟨e, he, hmem⟩, hhealthy⟩ := ih h
      refine ⟨⟨e, List.mem_cons_of_mem _ he, hmem⟩, ?_⟩
      have hsame := pickHealthy_same st now key b
      rw [hpick] at hsame
      rwa [← hsame.isHealthy]

/-- With fresh cursors, a healthy account of any of the buckets is enough. -/
theorem pickFirstHealthy_isSome (hkeys : (candidates.map Prod.fst).Nodup)
    (hlen : ∀ e ∈ candidates, e.2.accounts.length + e.2.fallbackAccounts.length < usizeSize)
    (hcursor : ∀ e ∈ candidates, st.cursor e.1 = 0 ∧ st.fallbackCursor e.1 = 0)
    {e : String × ProviderBucket} (he : e ∈ candidates) (hmem : a ∈ e.2.members)
    (hhealthy : st.isHealthy now a = true) :
    (pickFirstHealthy now candidates st).1.isSome = true := by
  induction candidates generalizing st with
  | nil => cases he
  | cons first candidates ih =>
    obtain ⟨key, b⟩ := first
    rw [pickFirstHealthy]
    split
    · rfl
    · rename_i st' hpick
      have hfresh := hcursor _ List.mem_cons_self
      obtain ⟨hkey, hrest⟩ := List.nodup_cons.mp hkeys
      have hsame := pickHealthy_same st now key b
      rw [hpick] at hsame
      cases List.mem_cons.mp he with
      | inl hfirst =>
        rw [hfirst] at hmem
        have hsome := pickHealthy_isSome (hlen _ List.mem_cons_self) hfresh.1 hfresh.2 hmem hhealthy
        rw [hpick] at hsome
        cases hsome
      | inr hlater =>
        refine ih hrest (fun e he => hlen e (List.mem_cons_of_mem _ he)) ?_ hlater
          ((hsame.isHealthy now a).trans hhealthy)
        intro e' he'
        have hne : e'.1 ≠ key := fun heq => hkey (List.mem_map.mpr ⟨e', he', heq⟩)
        rw [hsame.cursor _ hne, hsame.fallbackCursor _ hne]
        exact hcursor e' (List.mem_cons_of_mem _ he')

theorem pickEarliestCooldown_some (h : st.pickEarliestCooldown b = some a) : a ∈ b.members := by
  rw [pickEarliestCooldown, Option.or_eq_some_iff] at h
  cases h with
  | inl hactive => exact List.mem_append_left _ (List.argmin_mem hactive)
  | inr hother => exact List.mem_append_right _ (List.argmin_mem hother.2)

theorem pickEarliestCooldown_isSome (h : b.members ≠ []) :
    (st.pickEarliestCooldown b).isSome = true := by
  rw [Option.isSome_iff_ne_none]
  intro hnone
  rw [pickEarliestCooldown, Option.or_eq_none_iff] at hnone
  apply h
  rw [ProviderBucket.members, List.argmin_eq_none.mp hnone.1, List.argmin_eq_none.mp hnone.2]
  rfl

theorem pickFirstCooldown_some (h : st.pickFirstCooldown candidates = some a) :
    ∃ e ∈ candidates, a ∈ e.2.members := by
  obtain ⟨e, he, hpick⟩ := List.mem_filterMap.mp (List.argmin_mem h)
  exact ⟨e, he, pickEarliestCooldown_some hpick⟩

theorem pickFirstCooldown_isSome (hne : candidates ≠ []) (h : ∀ e ∈ candidates, e.2.members ≠ []) :
    (st.pickFirstCooldown candidates).isSome = true := by
  rw [Option.isSome_iff_ne_none]
  intro hnone
  obtain ⟨e, he⟩ := List.exists_mem_of_ne_nil _ hne
  have hsome : (st.pickEarliestCooldown e.2).isSome = true := pickEarliestCooldown_isSome (h e he)
  obtain ⟨a, ha⟩ := Option.isSome_iff_exists.mp hsome
  have hmem : a ∈ candidates.filterMap fun e => st.pickEarliestCooldown e.2 :=
    List.mem_filterMap.mpr ⟨e, he, ha⟩
  rw [List.argmin_eq_none.mp hnone] at hmem
  cases hmem

theorem acquireFromCandidates_some (h : (st.acquireFromCandidates now candidates).1 = some a) :
    ∃ e ∈ candidates, a ∈ e.2.members := by
  rw [acquireFromCandidates] at h
  split at h
  · rename_i hpick
    have hpicked : (pickFirstHealthy now candidates st).1 = some a := by
      rw [hpick]
      exact h
    exact (pickFirstHealthy_some hpicked).1
  · exact pickFirstCooldown_some h

/-- Where there is a bucket, the attempt gives an account: a healthy one, or else one that cools. -/
theorem acquireFromCandidates_isSome (hne : candidates ≠ [])
    (h : ∀ e ∈ candidates, e.2.members ≠ []) :
    (st.acquireFromCandidates now candidates).1.isSome = true := by
  rw [acquireFromCandidates]
  split
  · rfl
  · exact pickFirstCooldown_isSome hne h

theorem acquireFromCandidates_nil : st.acquireFromCandidates now [] = (none, st) := rfl

end PoolState

/-! ## Attempts -/

/-- The provider gives the route the endpoint, on some evidence. -/
def Provider.serves (p : Provider) (route : RouteResolution) (endpoint : Endpoint) : Bool :=
  (routeMatchOrder route).any fun evidence => providerMatchesRoute p route evidence endpoint

theorem Provider.serves_iff {p : Provider} {route : RouteResolution} {endpoint : Endpoint} :
    p.serves route endpoint = true ↔
      ∃ evidence ∈ routeMatchOrder route,
        providerMatchesRoute p route evidence endpoint = true :=
  List.any_eq_true

theorem mem_routeAttempts {route : RouteResolution} {requested : Endpoint}
    {attempt : RouteModelEvidence × Endpoint} :
    attempt ∈ routeAttempts route requested ↔
      attempt.1 ∈ routeMatchOrder route ∧ attempt.2 ∈ routeEndpointOrder route requested := by
  rw [routeAttempts, List.mem_flatMap]
  constructor
  · intro h
    obtain ⟨evidence, hev, hmap⟩ := h
    obtain ⟨endpoint, hep, rfl⟩ := List.mem_map.mp hmap
    exact ⟨hev, hep⟩
  · intro h
    exact ⟨attempt.1, h.1, List.mem_map.mpr ⟨attempt.2, h.2, rfl⟩⟩

namespace AccountPool

variable (pool : AccountPool) (route : RouteResolution) (requested : Endpoint)
  (allowedProviders : Option (List String))

/-- The first attempt that some allowed bucket matches. -/
def firstAttempt : Option (RouteModelEvidence × Endpoint) :=
  (routeAttempts route requested).find? fun attempt =>
    !(routeCandidates pool.buckets route allowedProviders attempt.1 attempt.2).isEmpty

variable {pool route requested allowedProviders}

variable {endpoint : Endpoint} {acct : AccountHandle} {sessionId : Option String}

theorem mem_routeCandidates {evidence : RouteModelEvidence} {e : String × ProviderBucket} :
    e ∈ routeCandidates pool.buckets route allowedProviders evidence endpoint ↔
      e ∈ pool.buckets ∧ providerIsAllowed e.1 allowedProviders = true ∧
        providerMatchesRoute e.2.provider route evidence endpoint = true := by
  rw [routeCandidates, List.mem_filter, Bool.and_eq_true]

/-- There is a route exactly if some attempt has a bucket. -/
theorem hasRoute_iff :
    pool.hasRouteForProviders route requested allowedProviders = true ↔
      (pool.firstAttempt route requested allowedProviders).isSome = true := by
  rw [firstAttempt, List.find?_isSome]
  constructor
  · intro h
    obtain ⟨evidence, hev, hrest⟩ := List.any_eq_true.mp h
    obtain ⟨endpoint, hep, hbucket⟩ := List.any_eq_true.mp hrest
    obtain ⟨e, he, hmatch⟩ := List.any_eq_true.mp hbucket
    refine ⟨(evidence, endpoint), mem_routeAttempts.mpr ⟨hev, hep⟩, ?_⟩
    have hcandidate : e ∈ routeCandidates pool.buckets route allowedProviders evidence endpoint :=
      List.mem_filter.mpr ⟨he, hmatch⟩
    rw [Bool.not_eq_true', List.isEmpty_eq_false_iff]
    exact List.ne_nil_of_mem hcandidate
  · intro h
    obtain ⟨attempt, hattempt, hsome⟩ := h
    rw [Bool.not_eq_true', List.isEmpty_eq_false_iff] at hsome
    obtain ⟨e, he⟩ := List.exists_mem_of_ne_nil _ hsome
    obtain ⟨hbucket, hmatch⟩ := List.mem_filter.mp he
    obtain ⟨hev, hep⟩ := mem_routeAttempts.mp hattempt
    exact List.any_eq_true.mpr ⟨_, hev, List.any_eq_true.mpr ⟨_, hep,
      List.any_eq_true.mpr ⟨e, hbucket, hmatch⟩⟩⟩

theorem acquireFromAttempts_none {now : Nat} {st : PoolState}
    {attempts : List (RouteModelEvidence × Endpoint)}
    (h : (attempts.find? fun attempt =>
      !(routeCandidates pool.buckets route allowedProviders attempt.1 attempt.2).isEmpty) = none) :
    pool.acquireFromAttempts route allowedProviders now attempts st = (none, st) := by
  induction attempts with
  | nil => rfl
  | cons attempt attempts ih =>
    rw [List.find?_eq_none] at h
    have hempty := h attempt List.mem_cons_self
    rw [Bool.not_eq_true, Bool.not_eq_false', List.isEmpty_iff] at hempty
    rw [acquireFromAttempts, hempty, PoolState.acquireFromCandidates_nil]
    exact ih (List.find?_eq_none.mpr fun later hlater => h later (List.mem_cons_of_mem _ hlater))

/-- The attempts without a bucket change nothing: the first one with a bucket decides. -/
theorem acquireFromAttempts_some {now : Nat} {st : PoolState}
    {attempts : List (RouteModelEvidence × Endpoint)} {attempt : RouteModelEvidence × Endpoint}
    (h : (attempts.find? fun attempt =>
      !(routeCandidates pool.buckets route allowedProviders attempt.1 attempt.2).isEmpty) =
        some attempt) :
    ∃ a, (st.acquireFromCandidates now
        (routeCandidates pool.buckets route allowedProviders attempt.1 attempt.2)).1 = some a ∧
      (pool.acquireFromAttempts route allowedProviders now attempts st).1 =
        some (a, attempt.2) := by
  induction attempts with
  | nil => cases h
  | cons first attempts ih =>
    rw [List.find?_cons] at h
    rw [acquireFromAttempts]
    split at h
    · rename_i hfirst
      cases h
      rw [Bool.not_eq_true', List.isEmpty_eq_false_iff] at hfirst
      have hmembers : ∀ e ∈ routeCandidates pool.buckets route allowedProviders attempt.1 attempt.2,
          e.2.members ≠ [] := fun e he => (pool.bucketOf e (mem_routeCandidates.mp he).1).nonempty
      obtain ⟨a, ha⟩ := Option.isSome_iff_exists.mp
        (PoolState.acquireFromCandidates_isSome hfirst hmembers)
      refine ⟨a, ha, ?_⟩
      split
      · rename_i hround
        rw [hround] at ha
        cases ha
        rfl
      · rename_i hround
        rw [hround] at ha
        cases ha
    · rename_i hfirst
      rw [Bool.not_eq_false', List.isEmpty_iff] at hfirst
      rw [hfirst, PoolState.acquireFromCandidates_nil]
      exact ih h

theorem accountMatchingRouteEndpoint_some
    (h : accountMatchingRouteEndpoint acct route requested = some endpoint) :
    endpoint ∈ routeEndpointOrder route requested ∧
      acct.provider.serves route endpoint = true := by
  obtain ⟨evidence, hev, hfind⟩ := List.exists_of_findSome?_eq_some h
  exact ⟨List.mem_of_find?_eq_some hfind,
    Provider.serves_iff.mpr ⟨evidence, hev, List.find?_some hfind⟩⟩

theorem accountMatchingRouteEndpoint_isSome (hep : endpoint ∈ routeEndpointOrder route requested)
    (h : acct.provider.serves route endpoint = true) :
    (accountMatchingRouteEndpoint acct route requested).isSome = true := by
  obtain ⟨evidence, hev, hmatch⟩ := Provider.serves_iff.mp h
  rw [accountMatchingRouteEndpoint, List.findSome?_isSome_iff]
  exact ⟨evidence, hev, List.find?_isSome.mpr ⟨endpoint, hep, hmatch⟩⟩

/-- An account a session stays with is one of the pool, allowed, and its own provider serves. -/
theorem stickyAccount_some {st : PoolState} {now : Nat} {found : Lookup String}
    (h : pool.stickyAccount st now found route requested allowedProviders =
      some (acct, endpoint)) :
    (∃ id, pool.accountById id = some acct) ∧
      providerIsAllowed acct.providerId allowedProviders = true ∧
      endpoint ∈ routeEndpointOrder route requested ∧
        acct.provider.serves route endpoint = true := by
  unfold stickyAccount at h
  split at h
  · rename_i id
    obtain ⟨a, hid, ha⟩ := Option.bind_eq_some_iff.mp h
    split_ifs at ha with hcond
    obtain ⟨ep, hep, heq⟩ := Option.map_eq_some_iff.mp ha
    cases heq
    exact ⟨⟨id, hid⟩, (Bool.and_eq_true _ _ ▸ hcond).1, accountMatchingRouteEndpoint_some hep⟩
  · cases h
  · cases h

/-! ## One acquisition -/

theorem acquireForRoute_sticky {st : PoolState} {now : Nat}
    (h : pool.stickyAccount (lookupSession st now sessionId).2 now
      (lookupSession st now sessionId).1 route requested allowedProviders =
        some (acct, endpoint)) :
    (pool.acquireForRouteWithProviders st now sessionId route requested allowedProviders).1 =
      .account acct endpoint := by
  unfold acquireForRouteWithProviders
  dsimp only
  rw [h]

theorem acquireForRoute_free {st : PoolState} {now : Nat}
    (h : pool.stickyAccount (lookupSession st now sessionId).2 now
      (lookupSession st now sessionId).1 route requested allowedProviders = none) :
    (pool.acquireForRouteWithProviders st now sessionId route requested allowedProviders).1 =
      match (pool.acquireFromRoute (lookupSession st now sessionId).2 now route requested
        allowedProviders).1 with
      | some (acct, endpoint) => .account acct endpoint
      | none => .none := by
  unfold acquireForRouteWithProviders
  dsimp only
  rw [h]
  dsimp only
  split
  · rename_i hround
    rw [hround]
  · rename_i hround
    rw [hround]

/-- What a caller relies on: an account that comes back is allowed and serves the route's endpoint,
and none comes back exactly if there is no route. -/
structure RouteAgreement (pool : AccountPool) (st : PoolState) (now : Nat)
    (sessionId : Option String) (route : RouteResolution) (requested : Endpoint)
    (allowedProviders : Option (List String)) : Prop where
  allowed : ∀ acct endpoint,
    (pool.acquireForRouteWithProviders st now sessionId route requested allowedProviders).1 =
      .account acct endpoint → providerIsAllowed acct.providerId allowedProviders = true
  serves : ∀ acct endpoint,
    (pool.acquireForRouteWithProviders st now sessionId route requested allowedProviders).1 =
      .account acct endpoint → endpoint ∈ routeEndpointOrder route requested ∧
        acct.provider.serves route endpoint = true
  none_iff :
    (pool.acquireForRouteWithProviders st now sessionId route requested allowedProviders).1 = .none ↔
      pool.hasRouteForProviders route requested allowedProviders = false

/-- The provider of a bucket speaks for its accounts: those of the first buckets that match serve
the endpoint too, and where no bucket matches, no account that can be reached by its id does. -/
def ProvidersAgree (pool : AccountPool) (route : RouteResolution) (requested : Endpoint)
    (allowedProviders : Option (List String)) : Prop :=
  match pool.firstAttempt route requested allowedProviders with
  | some (evidence, endpoint) =>
    ∀ e ∈ routeCandidates pool.buckets route allowedProviders evidence endpoint,
      ∀ a ∈ e.2.members, a.provider.serves route endpoint = true
  | none =>
    ∀ id a, pool.accountById id = some a → providerIsAllowed a.providerId allowedProviders = true →
      ∀ endpoint ∈ routeEndpointOrder route requested, a.provider.serves route endpoint = false

theorem agreement_of_sticky (hagree : pool.ProvidersAgree route requested allowedProviders)
    {st : PoolState} {now : Nat}
    (h : pool.stickyAccount (lookupSession st now sessionId).2 now
      (lookupSession st now sessionId).1 route requested allowedProviders =
        some (acct, endpoint)) :
    pool.RouteAgreement st now sessionId route requested allowedProviders := by
  have hresult := acquireForRoute_sticky h
  obtain ⟨⟨id, hid⟩, hallowed, hep, hserves⟩ := stickyAccount_some h
  refine ⟨?_, ?_, ?_⟩
  · intro acct' endpoint' h'
    cases hresult.symm.trans h'
    exact hallowed
  · intro acct' endpoint' h'
    cases hresult.symm.trans h'
    exact ⟨hep, hserves⟩
  · rw [hresult]
    refine ⟨fun h' => (by cases h'), ?_⟩
    intro hroute
    rw [← Bool.not_eq_true, hasRoute_iff, Option.not_isSome_iff_eq_none] at hroute
    rw [ProvidersAgree, hroute] at hagree
    have hnot := hagree id acct hid hallowed endpoint hep
    rw [hserves] at hnot
    cases hnot

theorem agreement_of_free (hagree : pool.ProvidersAgree route requested allowedProviders)
    {st : PoolState} {now : Nat}
    (h : pool.stickyAccount (lookupSession st now sessionId).2 now
      (lookupSession st now sessionId).1 route requested allowedProviders = none) :
    pool.RouteAgreement st now sessionId route requested allowedProviders := by
  have hresult := acquireForRoute_free h
  rw [acquireFromRoute] at hresult
  cases hfirst : pool.firstAttempt route requested allowedProviders with
  | none =>
    rw [acquireFromAttempts_none hfirst] at hresult
    refine ⟨?_, ?_, ?_⟩
    · intro acct endpoint h'
      cases hresult.symm.trans h'
    · intro acct endpoint h'
      cases hresult.symm.trans h'
    · rw [← Bool.not_eq_true, hasRoute_iff, hfirst]
      exact ⟨fun _ h' => (by cases h'), fun _ => hresult⟩
  | some attempt =>
    obtain ⟨a, hpick, hattempts⟩ := acquireFromAttempts_some hfirst
    rw [hattempts] at hresult
    rw [ProvidersAgree, hfirst] at hagree
    obtain ⟨e, he, hmem⟩ := PoolState.acquireFromCandidates_some hpick
    obtain ⟨hbucket, hallowed, -⟩ := mem_routeCandidates.mp he
    have hkey := ((pool.bucketOf e hbucket).mem a hmem).2
    refine ⟨?_, ?_, ?_⟩
    · intro acct endpoint h'
      cases hresult.symm.trans h'
      rw [hkey]
      exact hallowed
    · intro acct endpoint h'
      cases hresult.symm.trans h'
      exact ⟨(mem_routeAttempts.mp (List.mem_of_find?_eq_some hfirst)).2, hagree e he a hmem⟩
    · rw [← Bool.not_eq_true, hasRoute_iff, hfirst]
      exact ⟨fun h' => (by cases hresult.symm.trans h'), fun h' => absurd rfl h'⟩

/-! ## States that tell the accounts apart -/

/-- All accounts cool but the one. -/
def onlyHealthy (a : AccountHandle) : PoolState where
  inner i := if i = a.inner then {} else { cooldownUntil := some 1 }
  cursor _ := 0
  fallbackCursor _ := 0
  affinity := Affinity.withLegacyAbsoluteRetention 0 0

theorem isHealthy_onlyHealthy (a a' : AccountHandle) :
    (onlyHealthy a).isHealthy 0 a' = true ↔ a'.inner = a.inner := by
  have hinner : ((onlyHealthy a).inner a'.inner).cooldownUntil =
      if a'.inner = a.inner then none else some 1 := by
    rw [onlyHealthy]
    dsimp only
    split_ifs <;> rfl
  rw [PoolState.isHealthy, hinner]
  split_ifs with h
  · exact ⟨fun _ => h, fun _ => rfl⟩
  · exact ⟨fun h' => (by cases h'), fun h' => absurd h' h⟩

/-- The session has just been given the account, and all accounts are healthy. -/
def boundTo (sessionId accountId : String) : PoolState where
  inner _ := {}
  cursor _ := 0
  fallbackCursor _ := 0
  affinity :=
    { map := [(sessionId, { value := accountId, stampedAt := 0 })], ttl := 1, retainedTtl := 1 }

theorem lookupSession_boundTo (sessionId accountId : String) :
    (lookupSession (boundTo sessionId accountId) 0 (some sessionId)).1 = .hit accountId := by
  simp [lookupSession, boundTo, Affinity.lookup, Affinity.maybeSweepExpired, BTreeMap.get_cons]

/-- Where it is the only healthy account, an account of the first buckets that match is taken. -/
theorem acquire_onlyHealthy {attempt : RouteModelEvidence × Endpoint}
    (hfirst : pool.firstAttempt route requested allowedProviders = some attempt)
    {e : String × ProviderBucket}
    (he : e ∈ routeCandidates pool.buckets route allowedProviders attempt.1 attempt.2)
    {a : AccountHandle} (ha : a ∈ e.2.members) :
    (pool.acquireForRouteWithProviders (onlyHealthy a) 0 none route requested
      allowedProviders).1 = .account a attempt.2 := by
  have hresult : (pool.acquireForRouteWithProviders (onlyHealthy a) 0 none route requested
      allowedProviders).1 = _ := acquireForRoute_free rfl
  rw [acquireFromRoute] at hresult
  obtain ⟨a', hpick, hattempts⟩ := acquireFromAttempts_some hfirst
  rw [hattempts] at hresult
  have hsome : (PoolState.pickFirstHealthy 0
      (routeCandidates pool.buckets route allowedProviders attempt.1 attempt.2)
      (lookupSession (onlyHealthy a) 0 none).2).1.isSome = true :=
    PoolState.pickFirstHealthy_isSome
      (pool.nodup_keys.sublist (List.filter_sublist.map Prod.fst))
      (fun e' he' => lt_of_le_of_lt (pool.bucketOf e' (mem_routeCandidates.mp he').1).length_le
        pool.length_lt)
      (fun _ _ => ⟨rfl, rfl⟩) he ha ((isHealthy_onlyHealthy a a).mpr rfl)
  rw [PoolState.acquireFromCandidates] at hpick
  split at hpick
  · rename_i b st' hround
    have hpicked : b = a' := Option.some.inj hpick
    have hhealthy := (PoolState.pickFirstHealthy_some (congrArg Prod.fst hround)).2
    obtain ⟨e', he', hmem'⟩ := (PoolState.pickFirstHealthy_some (congrArg Prod.fst hround)).1
    have hin := ((pool.bucketOf e (mem_routeCandidates.mp he).1).mem a ha).1
    have hin' := ((pool.bucketOf e' (mem_routeCandidates.mp he').1).mem b hmem').1
    have hsame : b = a :=
      List.inj_on_of_nodup_map pool.inner_nodup hin' hin ((isHealthy_onlyHealthy a b).mp hhealthy)
    rw [hresult, ← hpicked, hsame]
  · rename_i hround
    rw [hround] at hsome
    cases hsome

/-- A session that is bound to an allowed account of the pool which serves the route stays. -/
theorem acquire_boundTo {id : String} {a : AccountHandle} (hid : pool.accountById id = some a)
    (hallowed : providerIsAllowed a.providerId allowedProviders = true)
    (hep : endpoint ∈ routeEndpointOrder route requested)
    (hserves : a.provider.serves route endpoint = true) :
    (pool.acquireForRouteWithProviders (boundTo "" id) 0 (some "") route requested
      allowedProviders).1 ≠ .none := by
  obtain ⟨endpoint', hmatch⟩ := Option.isSome_iff_exists.mp
    (accountMatchingRouteEndpoint_isSome hep hserves)
  have hsticky : pool.stickyAccount (lookupSession (boundTo "" id) 0 (some "")).2 0
      (lookupSession (boundTo "" id) 0 (some "")).1 route requested allowedProviders =
        some (a, endpoint') := by
    rw [lookupSession_boundTo, stickyAccount, hid, Option.bind_some, hallowed, hmatch]
    rfl
  rw [acquireForRoute_sticky hsticky]
  exact fun h => (by cases h)

/-! ## The promise -/

/-- **The pool keeps its promise about a route, whatever its state, exactly if the provider of each
bucket speaks for the accounts of the bucket.** -/
theorem acquire_agrees_iff (pool : AccountPool) (route : RouteResolution) (requested : Endpoint)
    (allowedProviders : Option (List String)) :
    (∀ st now sessionId,
        pool.RouteAgreement st now sessionId route requested allowedProviders) ↔
      pool.ProvidersAgree route requested allowedProviders := by
  constructor
  · intro h
    rw [ProvidersAgree]
    split
    · rename_i evidence endpoint hfirst
      intro e he a ha
      exact ((h (onlyHealthy a) 0 none).serves a endpoint (acquire_onlyHealthy hfirst he ha)).2
    · rename_i hfirst
      intro id a hid hallowed endpoint hep
      rw [← Bool.not_eq_true]
      intro hserves
      apply acquire_boundTo hid hallowed hep hserves
      rw [(h (boundTo "" id) 0 (some "")).none_iff, ← Bool.not_eq_true, hasRoute_iff, hfirst]
      exact fun h' => (by cases h')
  · intro hagree st now sessionId
    cases hsticky : pool.stickyAccount (lookupSession st now sessionId).2 now
        (lookupSession st now sessionId).1 route requested allowedProviders with
    | some found => exact agreement_of_sticky hagree hsticky
    | none => exact agreement_of_free hagree hsticky

end AccountPool

/-! ## Two local servers -/

/-- A server that has said which models it has. -/
def localServer (models : List String) : Provider :=
  .llamaCpp
    { id := "llama-cpp", defaultModels := [], defaultEndpoints := [.chatCompletions],
      modelCache := { inner := some models } }

/-- Two servers under one provider id, with different models. -/
def localServers : AccountPool where
  accounts :=
    [{ config := { id := "first", tier := .active }, provider := localServer ["qwen"], inner := 0 },
      { config := { id := "second", tier := .active }, provider := localServer ["gemma"],
        inner := 1 }]
  inner_nodup := by decide
  length_lt := by decide

/-- The model of the second server. -/
def gemmaRoute : RouteResolution where
  mode := .fuzzy
  requestedModel := "gemma"
  upstreamModel := "gemma"
  selector := .fuzzy ["gemma"]

/-- A session that has stayed with the second server is given it, though the pool says that it has
no route. -/
theorem pool_disagrees :
    ¬ ∀ (pool : AccountPool) (st : PoolState) (now : Nat) (sessionId : Option String)
        (route : RouteResolution) (requested : Endpoint) (allowedProviders : Option (List String)),
        pool.RouteAgreement st now sessionId route requested allowedProviders := by
  intro h
  have hnone := (h localServers (AccountPool.boundTo "session" "second") 0 (some "session")
    gemmaRoute .chatCompletions none).none_iff.mpr (by decide +kernel)
  revert hnone
  exact fun h' => (by cases h')

end Tokn.Accounts
