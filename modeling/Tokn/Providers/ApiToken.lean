import Tokn.Lib.Machine
import Tokn.Providers.Drivers

/-!
# The cached token of `CopilotProvider`

`crates/provider-copilot/src/github_copilot.rs`: `ensure_api_token`, `refresh` and `on_unauthorized`,
as the steps of any number of tasks on one provider. A step is one access to what the tasks share:
the cache behind its `RwLock`, and the `refresh_lock`. A task that waits for the lock or for an
exchange may be dropped there, which gives the lock back.

What the cache has been told is kept as a history, and what the calls have returned as answers.
-/

namespace Tokn.Providers.Copilot

/-! ## Tokens -/

/-- `CopilotTokenResp`: what an exchange returns. -/
structure CopilotTokenResp where
  token : String
  expiresAt : Int
  deriving DecidableEq

structure ApiToken where
  token : Option String
  expiresAt : Option Int
  deriving DecidableEq

def ApiToken.empty : ApiToken := ⟨none, none⟩

/-- A cache that an exchange has filled. -/
def CopilotTokenResp.apiToken (resp : CopilotTokenResp) : ApiToken :=
  ⟨some resp.token, some resp.expiresAt⟩

def SKEW_SECS : Int := 300

/-- `exp - SKEW_SECS > now`, where the difference of two `i64` wraps. -/
def fresh (exp now : Int) : Bool := (exp - SKEW_SECS).bmod (2 ^ 64) > now

/-- What a call gets of a snapshot. -/
def ApiToken.usable (cache : ApiToken) (now : Int) : Option String :=
  match cache.token, cache.expiresAt with
  | some tok, some exp => if fresh exp now then some tok else none
  | _, _ => none

def needsRefresh (cfg : AccountConfig) (now : Int) : Bool :=
  (cfg.accessTokenExpiresAt.map fun exp => !fresh exp now).getD true || cfg.accessToken.isNone

/-! ## Tasks -/

inductive Call where
  | ensureApiToken
  | refresh (cfg : AccountConfig)

/-- Where a task is. -/
inductive Point where
  | idle
  /-- Before the first snapshot. -/
  | started (call : Call) (now : Int)
  | waiting (call : Call) (now : Int)
  /-- With the lock, before the second snapshot. -/
  | locked (call : Call) (now : Int)
  | exchanging (call : Call)
  /-- With the response of the exchange, before the cache is written. -/
  | received (call : Call) (resp : CopilotTokenResp)
  /-- With a token, before the lock is given back. -/
  | leaving (call : Call) (token : String)
  /-- In `refresh`, before its own snapshot. -/
  | ensured (cfg : AccountConfig) (token : String)

inductive Answer where
  | token (token : String)
  | account (cfg : AccountConfig)
  | error (e : ProviderError)

/-- A write to the cache. -/
inductive Write where
  | stored (resp : CopilotTokenResp)
  | invalidated
  deriving DecidableEq

structure CopilotProvider (ι : Type) where
  cache : ApiToken
  refreshLock : Option ι
  tasks : ι → Point
  history : List Write
  answers : List Answer

inductive Action (ι : Type) where
  /-- A call, with the time that it reads. -/
  | begin (i : ι) (call : Call) (now : Int)
  | read (i : ι)
  | acquire (i : ι)
  | reread (i : ι)
  | receive (i : ι) (resp : CopilotTokenResp)
  | fail (i : ι) (e : ProviderError)
  | store (i : ι)
  | release (i : ι)
  /-- The snapshot of `refresh`, with the time that it reads. -/
  | snapshot (i : ι) (now : Int)
  | drop (i : ι)
  | onUnauthorized

variable {ι : Type} [DecidableEq ι]

namespace CopilotProvider

/-- The provider of an account, with no calls so far. -/
def fromAccount (a : AccountConfig) : CopilotProvider ι where
  cache := ⟨a.accessToken, a.accessTokenExpiresAt⟩
  refreshLock := none
  tasks := fun _ => .idle
  history := []
  answers := []

def goto (p : CopilotProvider ι) (i : ι) (point : Point) : CopilotProvider ι :=
  { p with tasks := Function.update p.tasks i point }

/-- `ensure_api_token` returns, to its caller or to `refresh`. -/
def obtain (p : CopilotProvider ι) (i : ι) (call : Call) (token : String) : CopilotProvider ι :=
  match call with
  | .ensureApiToken => { p.goto i .idle with answers := p.answers ++ [.token token] }
  | .refresh cfg => p.goto i (.ensured cfg token)

/-- What `refresh` returns. -/
def refreshed (p : CopilotProvider ι) (cfg : AccountConfig) (token : String) (now : Int) :
    AccountConfig :=
  { cfg with
    accessToken := some token
    accessTokenExpiresAt := p.cache.expiresAt
    lastRefresh := some now }

def step (p : CopilotProvider ι) : Action ι → Option (CopilotProvider ι)
  | .begin i call now =>
    match p.tasks i with
    | .idle => some (p.goto i (.started call now))
    | _ => none
  | .read i =>
    match p.tasks i with
    | .started call now =>
      match p.cache.usable now with
      | some token => some (p.obtain i call token)
      | none => some (p.goto i (.waiting call now))
    | _ => none
  | .acquire i =>
    match p.tasks i, p.refreshLock with
    | .waiting call now, none => some { p.goto i (.locked call now) with refreshLock := some i }
    | _, _ => none
  | .reread i =>
    match p.tasks i with
    | .locked call now =>
      match p.cache.usable now with
      | some token => some (p.goto i (.leaving call token))
      | none => some (p.goto i (.exchanging call))
    | _ => none
  | .receive i resp =>
    match p.tasks i with
    | .exchanging call => some (p.goto i (.received call resp))
    | _ => none
  | .fail i e =>
    match p.tasks i with
    | .exchanging _ =>
      some { p.goto i .idle with refreshLock := none, answers := p.answers ++ [.error e] }
    | _ => none
  | .store i =>
    match p.tasks i with
    | .received call resp =>
      some { p.goto i (.leaving call resp.token) with
        cache := resp.apiToken
        history := p.history ++ [.stored resp] }
    | _ => none
  | .release i =>
    match p.tasks i with
    | .leaving call token => some { p.obtain i call token with refreshLock := none }
    | _ => none
  | .snapshot i now =>
    match p.tasks i with
    | .ensured cfg token =>
      some { p.goto i .idle with answers := p.answers ++ [.account (p.refreshed cfg token now)] }
    | _ => none
  | .drop i =>
    match p.tasks i with
    | .waiting _ _ => some (p.goto i .idle)
    | .exchanging _ => some { p.goto i .idle with refreshLock := none }
    | _ => none
  | .onUnauthorized =>
    some { p with cache := .empty, history := p.history ++ [.invalidated] }

/-- The runs of the tasks. -/
abbrev exec (a : AccountConfig) (actions : List (Action ι)) : Option (CopilotProvider ι) :=
  Machine.exec step (fromAccount a) actions

/-! ## What a step can do -/

/-- A step as a change of the state. -/
inductive Step (p : CopilotProvider ι) : Action ι → CopilotProvider ι → Prop where
  | begin {i call now} (h : p.tasks i = .idle) :
    Step p (.begin i call now) (p.goto i (.started call now))
  | read {i call now token} (h : p.tasks i = .started call now)
    (hcache : p.cache.usable now = some token) : Step p (.read i) (p.obtain i call token)
  | miss {i call now} (h : p.tasks i = .started call now) (hcache : p.cache.usable now = none) :
    Step p (.read i) (p.goto i (.waiting call now))
  | acquire {i call now} (h : p.tasks i = .waiting call now) (hlock : p.refreshLock = none) :
    Step p (.acquire i) { p.goto i (.locked call now) with refreshLock := some i }
  | reread {i call now token} (h : p.tasks i = .locked call now)
    (hcache : p.cache.usable now = some token) :
    Step p (.reread i) (p.goto i (.leaving call token))
  | exchange {i call now} (h : p.tasks i = .locked call now) (hcache : p.cache.usable now = none) :
    Step p (.reread i) (p.goto i (.exchanging call))
  | receive {i call resp} (h : p.tasks i = .exchanging call) :
    Step p (.receive i resp) (p.goto i (.received call resp))
  | fail {i call e} (h : p.tasks i = .exchanging call) :
    Step p (.fail i e)
      { p.goto i .idle with refreshLock := none, answers := p.answers ++ [.error e] }
  | store {i call resp} (h : p.tasks i = .received call resp) :
    Step p (.store i) { p.goto i (.leaving call resp.token) with
      cache := resp.apiToken
      history := p.history ++ [.stored resp] }
  | release {i call token} (h : p.tasks i = .leaving call token) :
    Step p (.release i) { p.obtain i call token with refreshLock := none }
  | snapshot {i cfg token now} (h : p.tasks i = .ensured cfg token) :
    Step p (.snapshot i now)
      { p.goto i .idle with answers := p.answers ++ [.account (p.refreshed cfg token now)] }
  | dropWaiting {i call now} (h : p.tasks i = .waiting call now) : Step p (.drop i) (p.goto i .idle)
  | dropExchanging {i call} (h : p.tasks i = .exchanging call) :
    Step p (.drop i) { p.goto i .idle with refreshLock := none }
  | onUnauthorized :
    Step p .onUnauthorized { p with cache := .empty, history := p.history ++ [.invalidated] }

theorem step_cases {p p' : CopilotProvider ι} {action : Action ι}
    (h : p.step action = some p') : Step p action p' := by
  cases action with
  | begin i call now =>
    rw [step] at h
    split at h
    · cases h
      exact .begin ‹_›
    · cases h
  | read i =>
    rw [step] at h
    split at h
    · split at h <;> cases h
      · exact .read ‹_› ‹_›
      · exact .miss ‹_› ‹_›
    · cases h
  | acquire i =>
    rw [step] at h
    split at h
    · cases h
      exact .acquire ‹_› ‹_›
    · cases h
  | reread i =>
    rw [step] at h
    split at h
    · split at h <;> cases h
      · exact .reread ‹_› ‹_›
      · exact .exchange ‹_› ‹_›
    · cases h
  | receive i resp =>
    rw [step] at h
    split at h
    · cases h
      exact .receive ‹_›
    · cases h
  | fail i e =>
    rw [step] at h
    split at h
    · cases h
      exact .fail ‹_›
    · cases h
  | store i =>
    rw [step] at h
    split at h
    · cases h
      exact .store ‹_›
    · cases h
  | release i =>
    rw [step] at h
    split at h
    · cases h
      exact .release ‹_›
    · cases h
  | snapshot i now =>
    rw [step] at h
    split at h
    · cases h
      exact .snapshot ‹_›
    · cases h
  | drop i =>
    rw [step] at h
    split at h
    · cases h
      exact .dropWaiting ‹_›
    · cases h
      exact .dropExchanging ‹_›
    · cases h
  | onUnauthorized =>
    cases h
    exact .onUnauthorized

end CopilotProvider

end Tokn.Providers.Copilot
