import Tokn.Lib.Mutex
import Tokn.Providers.ApiToken

/-!
# Tokens and their expiries

However the tasks interleave, one exchange is in progress at a time, and none is begun while the last
token is fresh. The cache holds what the last write to it said. `refresh` reads its token and the
expiry at two moments, and a write in between leaves it the expiry of another token, or none.

**Theorem (`sound_of_exec`).** In a run in which no write falls between the two, everything that the
calls return is paired as it has been issued.
-/

namespace Tokn.Providers.Copilot

/-! ## What has been issued -/

def Write.apiToken : Write → ApiToken
  | stored resp => resp.apiToken
  | invalidated => .empty

def Write.resp : Write → Option CopilotTokenResp
  | stored resp => some resp
  | invalidated => none

/-- The token of a cache with its expiry, if it has both. -/
def ApiToken.resp (cache : ApiToken) : Option CopilotTokenResp :=
  cache.token.bind fun token => cache.expiresAt.map fun expiresAt => ⟨token, expiresAt⟩

/-- What the last write leaves. -/
def replay (first : ApiToken) (history : List Write) : ApiToken :=
  (history.getLast?.map Write.apiToken).getD first

/-- The tokens with their expiries, from the account and from the exchanges. -/
def issued (first : ApiToken) (history : List Write) : List CopilotTokenResp :=
  first.resp.toList ++ history.filterMap Write.resp

@[simp] theorem ApiToken.resp_apiToken (resp : CopilotTokenResp) : resp.apiToken.resp = some resp :=
  rfl

variable {resp : CopilotTokenResp}

theorem ApiToken.resp_eq_some {cache : ApiToken} :
    cache.resp = some resp ↔ cache = resp.apiToken := by
  obtain ⟨token, expiresAt⟩ := cache
  constructor
  · intro h
    cases token <;> cases expiresAt <;> cases h
    rfl
  · rintro h
    rw [h, resp_apiToken]

theorem ApiToken.usable_eq_some {cache : ApiToken} {now : Int} {token : String} :
    cache.usable now = some token ↔
      ∃ resp : CopilotTokenResp, cache = resp.apiToken ∧ resp.token = token ∧
        fresh resp.expiresAt now = true := by
  obtain ⟨tok, exp⟩ := cache
  constructor
  · intro h
    cases tok with
    | none => cases h
    | some tok =>
      cases exp with
      | none => cases h
      | some exp =>
        by_cases hfresh : fresh exp now = true
        · simp only [usable, hfresh, if_true, Option.some.injEq] at h
          exact ⟨⟨tok, exp⟩, rfl, h, hfresh⟩
        · simp [usable, hfresh] at h
  · rintro ⟨resp, h, rfl, hfresh⟩
    rw [h]
    simp [CopilotTokenResp.apiToken, usable, hfresh]

@[simp] theorem replay_concat (first : ApiToken) (history : List Write) (write : Write) :
    replay first (history ++ [write]) = write.apiToken := by
  simp [replay]

theorem issued_concat (first : ApiToken) (history : List Write) (write : Write) :
    issued first (history ++ [write]) = issued first history ++ write.resp.toList := by
  cases write <;> simp [issued, Write.resp]

theorem mem_issued_concat {first : ApiToken} {history : List Write}
    (h : resp ∈ issued first history) (write : Write) :
    resp ∈ issued first (history ++ [write]) := by
  rw [issued_concat]
  exact List.mem_append_left _ h

theorem mem_issued_stored (first : ApiToken) (history : List Write) (resp : CopilotTokenResp) :
    resp ∈ issued first (history ++ [.stored resp]) := by
  rw [issued_concat]
  exact List.mem_append_right _ (List.mem_singleton.mpr rfl)

/-- A token and an expiry that are there have been issued together. -/
theorem mem_issued_of_replay {first : ApiToken} {history : List Write}
    (h : replay first history = resp.apiToken) : resp ∈ issued first history := by
  rcases List.eq_nil_or_concat history with rfl | ⟨before, write, rfl⟩
  · have hfirst : first.resp = some resp := ApiToken.resp_eq_some.mpr h
    simp [issued, hfirst]
  · rw [List.concat_eq_append, replay_concat] at h
    rw [List.concat_eq_append, issued_concat]
    refine List.mem_append_right _ ?_
    cases write with
    | stored resp' =>
      obtain rfl : resp' = resp := by
        rw [← Option.some.injEq, ← ApiToken.resp_eq_some.mpr h]
        rfl
      exact List.mem_singleton.mpr rfl
    | invalidated => cases h

/-- A token with its expiry, or nothing. -/
def ApiToken.Whole (cache : ApiToken) (tokens : List CopilotTokenResp) : Prop :=
  cache = .empty ∨ ∃ resp ∈ tokens, cache = resp.apiToken

theorem whole_replay {first : ApiToken} (h : first.token.isSome = first.expiresAt.isSome)
    (history : List Write) : (replay first history).Whole (issued first history) := by
  by_cases hempty : replay first history = .empty
  · exact Or.inl hempty
  · have hresp : ∃ resp, replay first history = CopilotTokenResp.apiToken resp := by
      rcases List.eq_nil_or_concat history with rfl | ⟨before, write, rfl⟩
      · obtain ⟨token, expiresAt⟩ := first
        cases token <;> cases expiresAt <;> cases h
        · exact absurd rfl hempty
        · exact ⟨⟨_, _⟩, rfl⟩
      · rw [List.concat_eq_append, replay_concat] at hempty ⊢
        cases write with
        | stored resp => exact ⟨resp, rfl⟩
        | invalidated => exact absurd rfl hempty
    obtain ⟨resp, hresp⟩ := hresp
    exact Or.inr ⟨resp, mem_issued_of_replay hresp, hresp⟩

/-! ## Where tasks are -/

/-- With the lock. -/
def Point.Inside : Point → Prop
  | .locked _ _ => True
  | .exchanging _ => True
  | .received _ _ => True
  | .leaving _ _ => True
  | _ => False

def Point.Exchanging : Point → Prop
  | .exchanging _ => True
  | _ => False

/-- The token of a `refresh` that has not yet read its expiry. -/
def Point.pending : Point → Option String
  | .leaving (.refresh _) token => some token
  | .ensured _ token => some token
  | _ => none

theorem Point.Exchanging.inside {point : Point} (h : point.Exchanging) : point.Inside := by
  cases point <;> first | exact h | cases h

/-- The steps that write to the cache. -/
def Action.writes {ι : Type} : Action ι → Bool
  | .store _ => true
  | .onUnauthorized => true
  | _ => false

/-- Where a call is after `ensure_api_token`. -/
def Call.after (token : String) : Call → Point
  | .ensureApiToken => .idle
  | .refresh cfg => .ensured cfg token

theorem Call.not_inside_after (call : Call) (token : String) : ¬ (call.after token).Inside := by
  cases call <;> exact id

theorem Call.not_exchanging_after (call : Call) (token : String) :
    ¬ (call.after token).Exchanging :=
  fun h => call.not_inside_after token h.inside

theorem Call.eq_of_pending_after {call : Call} {token tok : String}
    (h : (call.after token).pending = some tok) : tok = token := by
  cases call <;> cases h
  rfl

namespace CopilotProvider

variable {ι : Type} [DecidableEq ι] {p p' : CopilotProvider ι} {i j : ι} {call : Call}
  {token : String} {action : Action ι}

@[simp] theorem tasks_obtain (p : CopilotProvider ι) (i : ι) (call : Call) (token : String) :
    (p.obtain i call token).tasks = Function.update p.tasks i (call.after token) := by
  cases call <;> rfl

@[simp] theorem cache_obtain (p : CopilotProvider ι) (i : ι) (call : Call) (token : String) :
    (p.obtain i call token).cache = p.cache := by
  cases call <;> rfl

@[simp] theorem history_obtain (p : CopilotProvider ι) (i : ι) (call : Call) (token : String) :
    (p.obtain i call token).history = p.history := by
  cases call <;> rfl

@[simp] theorem refreshLock_obtain (p : CopilotProvider ι) (i : ι) (call : Call) (token : String) :
    (p.obtain i call token).refreshLock = p.refreshLock := by
  cases call <;> rfl

@[simp] theorem account_mem_obtain {cfg : AccountConfig} :
    .account cfg ∈ (p.obtain i call token).answers ↔ .account cfg ∈ p.answers := by
  cases call <;> simp [obtain, goto]

@[simp] theorem tasks_goto (p : CopilotProvider ι) (i : ι) (point : Point) :
    (p.goto i point).tasks = Function.update p.tasks i point := rfl

/-! ### The lock -/

/-- The lock is with the task that is inside. -/
def Locked (p : CopilotProvider ι) : Prop := Mutex.Held Point.Inside p.refreshLock p.tasks

omit [DecidableEq ι] in
theorem locked_fromAccount (a : AccountConfig) : (fromAccount a : CopilotProvider ι).Locked :=
  Mutex.held_none fun _ => id

theorem Locked.step (h : p.Locked) (hstep : Step p action p') : p'.Locked := by
  rw [Locked] at h ⊢
  cases hstep with
  | begin hi => exact h.move (by simp [hi, Point.Inside])
  | read hi =>
    rw [tasks_obtain, refreshLock_obtain]
    refine h.move (iff_of_false (Call.not_inside_after _ _) ?_)
    simp [hi, Point.Inside]
  | miss hi => exact h.move (by simp [hi, Point.Inside])
  | acquire hi hlock =>
    rw [hlock] at h
    exact h.acquire trivial
  | reread hi => exact h.move (by simp [hi, Point.Inside])
  | exchange hi => exact h.move (by simp [hi, Point.Inside])
  | receive hi => exact h.move (by simp [hi, Point.Inside])
  | fail hi => exact h.release (by simp [hi, Point.Inside]) id
  | store hi => exact h.move (by simp [hi, Point.Inside])
  | @release i call token hi =>
    have hinside : (p.tasks i).Inside := by simp [hi, Point.Inside]
    have hrelease := h.release hinside (call.not_inside_after token)
    rw [← tasks_obtain] at hrelease
    exact hrelease
  | snapshot hi => exact h.move (by simp [hi, Point.Inside])
  | dropWaiting hi => exact h.move (by simp [hi, Point.Inside])
  | dropExchanging hi => exact h.release (by simp [hi, Point.Inside]) id
  | onUnauthorized => exact h

/-! ### The cache -/

/-- The cache holds what the last write to it said. -/
def Replays (first : ApiToken) (p : CopilotProvider ι) : Prop := p.cache = replay first p.history

variable {first : ApiToken}

theorem Replays.step (h : Replays first p) (hstep : Step p action p') : Replays first p' := by
  rw [Replays] at h ⊢
  cases hstep with
  | store hi => simp [Write.apiToken]
  | onUnauthorized => simp [Write.apiToken]
  | read hi => simpa using h
  | release hi => simpa using h
  | _ => exact h

/-- A step that begins an exchange is the second look of its task, which has found nothing. -/
theorem exchange_of_step (hstep : Step p action p') (hbefore : ¬ (p.tasks i).Exchanging)
    (hafter : (p'.tasks i).Exchanging) :
    ∃ call now, p.tasks i = .locked call now ∧ p.cache.usable now = none := by
  have hother {j : ι} {point : Point} (hpoint : ¬ point.Exchanging)
      (h : (Function.update p.tasks j point i).Exchanging) : False := by
    by_cases hi : i = j
    · rw [hi, Function.update_self] at h
      exact hpoint h
    · rw [Function.update_of_ne hi] at h
      exact hbefore h
  cases hstep with
  | @exchange j call now hj hcache =>
    by_cases hi : i = j
    · exact ⟨call, now, hi ▸ hj, hcache⟩
    · rw [tasks_goto, Function.update_of_ne hi] at hafter
      exact absurd hafter hbefore
  | @read j call now token hj =>
    rw [tasks_obtain] at hafter
    exact (hother (call.not_exchanging_after token) hafter).elim
  | @release j call token hj =>
    have htasks := tasks_obtain p j call token
    rw [htasks] at hafter
    exact (hother (call.not_exchanging_after token) hafter).elim
  | onUnauthorized => exact absurd hafter hbefore
  | _ => exact (hother id hafter).elim

/-! ### Refreshes -/

/-- No write falls between the two reads of a `refresh`. -/
def Undisturbed (p : CopilotProvider ι) (action : Action ι) : Prop :=
  action.writes = true → ∀ j, (p.tasks j).pending = none

instance [Fintype ι] (p : CopilotProvider ι) (action : Action ι) :
    Decidable (p.Undisturbed action) :=
  inferInstanceAs (Decidable (action.writes = true → ∀ j, (p.tasks j).pending = none))

/-- What a `refresh` is going to read belongs to its token. -/
def Pairs (first : ApiToken) (p : CopilotProvider ι) : Prop :=
  ∀ i token, (p.tasks i).pending = some token →
    ∃ resp ∈ issued first p.history, resp.token = token ∧ p.cache = resp.apiToken

/-- The accounts that are returned have a token with its expiry. -/
def Returns (first : ApiToken) (p : CopilotProvider ι) : Prop :=
  ∀ cfg, .account cfg ∈ p.answers → ∃ resp ∈ issued first p.history,
    cfg.accessToken = some resp.token ∧ cfg.accessTokenExpiresAt = some resp.expiresAt

/-- A task moves, and if it is then in a `refresh` with a token, it is the one in the cache. -/
theorem Pairs.move (h : Pairs first p) {q : CopilotProvider ι} {point : Point}
    (htasks : q.tasks = Function.update p.tasks i point) (hcache : q.cache = p.cache)
    (hhistory : q.history = p.history)
    (hpoint : ∀ token, point.pending = some token →
      ∃ resp ∈ issued first p.history, resp.token = token ∧ p.cache = resp.apiToken) :
    Pairs first q := by
  intro j token hj
  rw [hcache, hhistory]
  by_cases hij : j = i
  · rw [htasks, hij, Function.update_self] at hj
    exact hpoint token hj
  · rw [htasks, Function.update_of_ne hij] at hj
    exact h j token hj

theorem Pairs.move_of_none (h : Pairs first p) {q : CopilotProvider ι} {point : Point}
    (htasks : q.tasks = Function.update p.tasks i point) (hcache : q.cache = p.cache)
    (hhistory : q.history = p.history) (hpoint : point.pending = none) : Pairs first q := by
  refine h.move htasks hcache hhistory ?_
  intro token htoken
  rw [hpoint] at htoken
  cases htoken

omit [DecidableEq ι] in
/-- What a snapshot finds has been issued. -/
theorem Replays.exists_issued (h : Replays first p) {now : Int}
    (hcache : p.cache.usable now = some token) :
    ∃ resp ∈ issued first p.history, resp.token = token ∧ p.cache = resp.apiToken := by
  obtain ⟨resp, hresp, htoken, -⟩ := ApiToken.usable_eq_some.mp hcache
  exact ⟨resp, mem_issued_of_replay (h.symm.trans hresp), htoken, hresp⟩

theorem Pairs.step (h : Pairs first p) (hreplays : Replays first p) (hquiet : p.Undisturbed action)
    (hstep : Step p action p') : Pairs first p' := by
  cases hstep with
  | @read j call now token hj hcache =>
    refine h.move (tasks_obtain p j call token) (cache_obtain ..) (history_obtain ..) ?_
    intro tok htok
    rw [Call.eq_of_pending_after htok]
    exact hreplays.exists_issued hcache
  | @reread j call now token hj hcache =>
    refine h.move rfl rfl rfl ?_
    intro tok htok
    cases call <;> cases htok
    exact hreplays.exists_issued hcache
  | @release j call token hj =>
    refine h.move (tasks_obtain p j call token) (cache_obtain ..) (history_obtain ..) ?_
    intro tok htok
    refine h j tok ?_
    cases call <;> cases htok
    rw [hj, Point.pending]
  | @store j call resp hj =>
    -- no other refresh has a token here
    intro i token hi
    by_cases hij : i = j
    · refine ⟨resp, mem_issued_stored .., ?_, rfl⟩
      rw [tasks_goto, hij, Function.update_self] at hi
      cases call <;> cases hi
      rfl
    · rw [tasks_goto, Function.update_of_ne hij, hquiet rfl i] at hi
      cases hi
  | onUnauthorized =>
    intro i token hi
    have hnone : (p.tasks i).pending = none := hquiet rfl i
    rw [hnone] at hi
    cases hi
  | begin => exact h.move_of_none rfl rfl rfl rfl
  | miss => exact h.move_of_none rfl rfl rfl rfl
  | acquire => exact h.move_of_none rfl rfl rfl rfl
  | exchange => exact h.move_of_none rfl rfl rfl rfl
  | receive => exact h.move_of_none rfl rfl rfl rfl
  | fail => exact h.move_of_none rfl rfl rfl rfl
  | snapshot => exact h.move_of_none rfl rfl rfl rfl
  | dropWaiting => exact h.move_of_none rfl rfl rfl rfl
  | dropExchanging => exact h.move_of_none rfl rfl rfl rfl

theorem Returns.step (h : Returns first p) (hpairs : Pairs first p) (hstep : Step p action p') :
    Returns first p' := by
  intro cfg hcfg
  cases hstep with
  | read hi =>
    rw [history_obtain]
    exact h cfg (account_mem_obtain.mp hcfg)
  | release hi =>
    rw [history_obtain]
    exact h cfg (account_mem_obtain.mp hcfg)
  | fail hi =>
    refine h cfg ?_
    simpa using hcfg
  | store hi =>
    obtain ⟨resp, hresp, hpaired⟩ := h cfg hcfg
    exact ⟨resp, mem_issued_concat hresp _, hpaired⟩
  | onUnauthorized =>
    obtain ⟨resp, hresp, hpaired⟩ := h cfg hcfg
    exact ⟨resp, mem_issued_concat hresp _, hpaired⟩
  | @snapshot j cfg' token now hj =>
    rcases List.mem_append.mp hcfg with hcfg | hcfg
    · exact h cfg hcfg
    · obtain ⟨resp, hresp, htoken, hcache⟩ := hpairs j token (by rw [hj, Point.pending])
      cases List.mem_singleton.mp hcfg
      refine ⟨resp, hresp, ?_, ?_⟩
      · rw [refreshed, htoken]
      · rw [refreshed, hcache, CopilotTokenResp.apiToken]
  | _ => exact h cfg hcfg

/-! ### Runs -/

/-- What holds of a state that is reached from an account, whatever writes there were. -/
structure Orderly (a : AccountConfig) (p : CopilotProvider ι) : Prop where
  /-- One exchange is in progress at a time. -/
  exclusive : ∀ i j, (p.tasks i).Exchanging → (p.tasks j).Exchanging → i = j
  /-- A call that begins an exchange has waited for no token that is still fresh. -/
  needed : ∀ action p' i, p.step action = some p' → ¬ (p.tasks i).Exchanging →
    (p'.tasks i).Exchanging → ∃ call now, p.tasks i = .locked call now ∧
      ∀ before resp t, p.history = before ++ [.stored resp] → now ≤ t →
        fresh resp.expiresAt t = false
  /-- The cache has a token with its expiry, or nothing. -/
  cache : p.cache.Whole (issued ⟨a.accessToken, a.accessTokenExpiresAt⟩ p.history)

/-- All that is to hold. -/
structure Sound (a : AccountConfig) (p : CopilotProvider ι) : Prop extends Orderly a p where
  /-- Every account that `refresh` returns has a token with its expiry. -/
  accounts : ∀ cfg, .account cfg ∈ p.answers →
    ∃ resp ∈ issued ⟨a.accessToken, a.accessTokenExpiresAt⟩ p.history,
      cfg.accessToken = some resp.token ∧ cfg.accessTokenExpiresAt = some resp.expiresAt ∧
        ∀ t, needsRefresh cfg t = false → fresh resp.expiresAt t = true

theorem fresh_of_le {exp now t : Int} (h : now ≤ t) (hfresh : fresh exp t = true) :
    fresh exp now = true := by
  simp only [fresh, decide_eq_true_eq] at hfresh ⊢
  omega

theorem fresh_of_needsRefresh {cfg : AccountConfig} {exp t : Int}
    (hexp : cfg.accessTokenExpiresAt = some exp) (h : needsRefresh cfg t = false) :
    fresh exp t = true := by
  simp only [needsRefresh, hexp, Option.map_some, Option.getD_some, Bool.or_eq_false_iff,
    Bool.not_eq_false'] at h
  exact h.1

variable {a : AccountConfig} {actions : List (Action ι)}

/-- The invariants of a run. -/
theorem locked_of_exec (h : exec a actions = some p) :
    p.Locked ∧ Replays ⟨a.accessToken, a.accessTokenExpiresAt⟩ p := by
  refine Machine.exec_invariant (fun p =>
    p.Locked ∧ Replays ⟨a.accessToken, a.accessTokenExpiresAt⟩ p) ?_ ?_ h
  · exact ⟨locked_fromAccount a, rfl⟩
  · intro p action p' hp hstep
    have hcase := step_cases hstep
    exact ⟨hp.1.step hcase, hp.2.step hcase⟩

/-- The invariants of a run that no write disturbs. -/
theorem pairs_of_exec (h : exec a actions = some p)
    (hquiet : Machine.Along step Undisturbed (fromAccount a) actions) :
    Pairs ⟨a.accessToken, a.accessTokenExpiresAt⟩ p ∧
      Returns ⟨a.accessToken, a.accessTokenExpiresAt⟩ p := by
  refine Machine.exec_induction (fun actions p =>
    Machine.Along step Undisturbed (fromAccount a) actions →
      Pairs ⟨a.accessToken, a.accessTokenExpiresAt⟩ p ∧
        Returns ⟨a.accessToken, a.accessTokenExpiresAt⟩ p) ?_ ?_ h hquiet
  · intro _
    constructor
    · rintro i token ⟨⟩
    · rintro cfg ⟨⟩
  · intro actions action p p' hexec ih hstep hquiet
    obtain ⟨hbefore, hlast⟩ := (Machine.along_concat hexec).mp hquiet
    obtain ⟨hpairs, hreturns⟩ := ih hbefore
    have hcase := step_cases hstep
    exact ⟨hpairs.step (locked_of_exec hexec).2 hlast hcase, hreturns.step hpairs hcase⟩

omit [DecidableEq ι] in
/-- What a task that begins an exchange has seen. -/
theorem Replays.not_fresh (h : Replays first p) {now : Int} (hcache : p.cache.usable now = none)
    {before : List Write} {resp : CopilotTokenResp}
    (hhistory : p.history = before ++ [.stored resp]) {t : Int} (ht : now ≤ t) :
    fresh resp.expiresAt t = false := by
  rw [Replays, hhistory, replay_concat, Write.apiToken] at h
  by_contra hfresh
  have husable : p.cache.usable now = some resp.token :=
    ApiToken.usable_eq_some.mpr ⟨resp, h, rfl, fresh_of_le ht (eq_true_of_ne_false hfresh)⟩
  rw [hcache] at husable
  cases husable

theorem orderly_of_exec (hfirst : a.accessToken.isSome = a.accessTokenExpiresAt.isSome)
    (h : exec a actions = some p) : Orderly a p := by
  obtain ⟨hlocked, hreplays⟩ := locked_of_exec h
  constructor
  · intro i j hi hj
    exact hlocked.unique hi.inside hj.inside
  · intro action p' i hstep hbefore hafter
    obtain ⟨call, now, hi, hcache⟩ := exchange_of_step (step_cases hstep) hbefore hafter
    refine ⟨call, now, hi, ?_⟩
    intro before resp t hhistory ht
    exact hreplays.not_fresh hcache hhistory ht
  · rw [hreplays]
    exact whole_replay hfirst p.history

/-- **Calls on one provider.** Where the account has its token with an expiry or has neither, every
run is orderly, and where no write falls between the two reads of a `refresh`, all that is to hold
does. -/
theorem sound_of_exec (hfirst : a.accessToken.isSome = a.accessTokenExpiresAt.isSome)
    (h : exec a actions = some p) :
    Orderly a p ∧ (Machine.Along step Undisturbed (fromAccount a) actions → Sound a p) := by
  have horderly := orderly_of_exec hfirst h
  refine ⟨horderly, fun hquiet => ⟨horderly, fun cfg hcfg => ?_⟩⟩
  obtain ⟨resp, hresp, htoken, hexp⟩ := (pairs_of_exec h hquiet).2 cfg hcfg
  exact ⟨resp, hresp, htoken, hexp, fun t => fresh_of_needsRefresh hexp⟩

/-! ### Two runs -/

def signedIn : AccountConfig where
  id := "a"
  provider := "github-copilot"
  refreshToken := some "refresh"

/-- A `refresh` up to its snapshot, which exchanges its token for `resp`. -/
def refreshTo {ι : Type} (i : ι) (call : Call) (resp : CopilotTokenResp) : List (Action ι) :=
  [.begin i call 0, .read i, .acquire i, .reread i, .receive i resp, .store i, .release i]

/-- A `refresh`, while another task waits for the token. Then the token is rejected. -/
def quietRefresh : List (Action Bool) :=
  [.begin false (.refresh signedIn) 0, .read false, .acquire false, .begin true .ensureApiToken 0,
    .read true, .reread false, .receive false ⟨"old", 1000⟩, .store false, .release false,
    .acquire true, .reread true, .snapshot false 0, .onUnauthorized]

theorem sound_quietRefresh : ∃ p, exec signedIn quietRefresh = some p ∧ Sound signedIn p := by
  have hquiet : Machine.Along step Undisturbed (fromAccount signedIn) quietRefresh := by decide
  exact ⟨_, rfl, (sound_of_exec rfl rfl).2 hquiet⟩

/-- Between the two reads of a `refresh`, its token is rejected and another task obtains the next
one. The account that is returned has the old token until the new one expires. -/
theorem refresh_returns_next_expiry :
    ∃ p cfg, exec signedIn (refreshTo false (.refresh signedIn) ⟨"old", 1000⟩ ++ [.onUnauthorized] ++
        refreshTo true .ensureApiToken ⟨"new", 9000⟩ ++ [.snapshot false 0]) = some p ∧
      .account cfg ∈ p.answers ∧ p.history = [.stored ⟨"old", 1000⟩, .invalidated,
        .stored ⟨"new", 9000⟩] ∧
      cfg.accessToken = some "old" ∧ cfg.accessTokenExpiresAt = some 9000 ∧
      needsRefresh cfg 5000 = false ∧ ¬ Sound signedIn p := by
  refine ⟨_, _, rfl, List.mem_append_right _ (List.mem_singleton.mpr rfl), rfl, rfl, rfl, by decide,
    ?_⟩
  intro h
  obtain ⟨resp, hresp, htoken, hexp, -⟩ :=
    h.accounts _ (List.mem_append_right _ (List.mem_singleton.mpr rfl))
  have hpaired : ∀ resp ∈ [(⟨"old", 1000⟩ : CopilotTokenResp), ⟨"new", 9000⟩],
      some "old" = some resp.token → some 9000 ≠ some resp.expiresAt := by decide
  exact hpaired resp hresp htoken hexp

end CopilotProvider

end Tokn.Providers.Copilot
