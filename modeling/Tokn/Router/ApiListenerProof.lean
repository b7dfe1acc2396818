import Tokn.Access.Authenticate
import Tokn.Router.ApiListener

/-!
# Only authenticated clients reach the pipelines

**Theorem (`reached_guarded`).** A listener authenticates clients by local keys. In every run of it,
whatever is reloaded and whenever keys are created or revoked, what a request has reached is what is
mounted at its path in the generation that received it, and unless that is a profile with the
credentials of the client, the access store of that generation has accepted the token of the request,
its key alone restricts the providers, and neither `Authorization` nor `x-api-key` is left.

The middleware and the handler look up the same path in the same mounts, because the state travels
with the request (`authenticate_ok`, `dispatch_ok`). A reload keeps the kind of authentication
(`compatible_clientAuth`).
-/

namespace Tokn.Router.Api

open Tokn.Access (AccessContext AccessDb)
open Tokn.Policy
open Machine
open Tokn.Except (bind_eq_ok)

variable {Addr β ι : Type}

/-! ## The middleware -/

/-- The store has accepted the token; the context is that of its key, and the token is gone. -/
structure Accepted (env : Access.Env) (db : AccessDb) (presented left : HeaderMap)
    (access : AccessContext) : Prop where
  authenticated : Access.authenticate env (presentedToken presented) db = .ok access
  authorization : left.getAll AUTHORIZATION = []
  apiKey : left.getAll X_API_KEY = []

variable {state : AppState Addr} {endpoint : Convert.Endpoint} {admitted : Admitted Addr β}
  {request : Request β} {actions : List (Action Addr β)} {live₀ live : Live Addr β ι}

theorem selectProfile_ok {path : Text} {runtime : ProfileRuntime}
    (h : state.selectProfile path endpoint = .ok runtime) :
    ∃ entry, state.mounts.get path = some entry ∧ entry.enabled = true ∧
      entry.operation = .generate endpoint ∧ state.profiles.get entry.profile = some runtime := by
  rw [AppState.selectProfile] at h
  cases hentry : state.mounts.get path with
  | none =>
    rw [hentry] at h
    cases h
  | some entry =>
    rw [hentry] at h
    simp only at h
    split_ifs at h with hbad
    rw [not_or, not_not] at hbad
    cases hruntime : state.profiles.get entry.profile with
    | none =>
      rw [hruntime] at h
      cases h
    | some found =>
      rw [hruntime] at h
      obtain rfl := Except.ok.inj h
      exact ⟨entry, rfl, Bool.eq_true_of_not_eq_false hbad.1, hbad.2, hruntime⟩

/-- The mounted operation belongs to a profile with the credentials of the client. -/
def Bypassed (state : AppState Addr) (entry : MountedEndpoint) : Prop :=
  ∃ endpoint runtime, entry.operation = .generate endpoint ∧
    state.profiles.get entry.profile = some runtime ∧ runtime.credentialPolicy = .client

/-- **What the middleware lets through.** -/
theorem authenticate_ok {env : Access.Env} {db : AccessDb}
    (hlocal : state.listener.clientAuth = .localKeys)
    (h : authenticate env state db request = .ok admitted) :
    admitted.state = state ∧ admitted.request.path = request.path ∧
      ∃ entry, state.mounts.get request.path = some entry ∧ entry.enabled = true ∧
        (Bypassed state entry ∨
          Accepted env db request.headers admitted.request.headers admitted.access) := by
  rw [authenticate] at h
  cases hentry : state.mounts.get request.path with
  | none =>
    rw [hentry] at h
    cases h
  | some entry =>
    rw [hentry] at h
    simp only at h
    split_ifs at h with hdisabled hclient
    · obtain rfl := Except.ok.inj h
      refine ⟨rfl, rfl, entry, rfl, Bool.eq_true_of_not_eq_false hdisabled, Or.inl ?_⟩
      obtain ⟨runtime, hruntime, hpolicy⟩ := Option.map_eq_some_iff.mp hclient
      cases hop : entry.operation with
      | generate endpoint =>
        cases hselect : state.selectProfile request.path endpoint with
        | error e =>
          simp only [hop, hselect] at hruntime
          cases hruntime
        | ok found =>
          simp only [hop, hselect] at hruntime
          obtain rfl := Option.some.inj hruntime
          obtain ⟨entry', hentry', -, -, hprofile⟩ := selectProfile_ok hselect
          rw [hentry] at hentry'
          obtain rfl := Option.some.inj hentry'
          exact ⟨endpoint, found, hop, hprofile, hpolicy⟩
      | models =>
        rw [hop] at hruntime
        cases hruntime
      | providers =>
        rw [hop] at hruntime
        cases hruntime
    · rw [hlocal] at h
      cases hcontext : Access.authenticate env (presentedToken request.headers) db with
      | error e =>
        rw [clientContext, hcontext] at h
        cases h
      | ok context =>
        rw [clientContext, hcontext] at h
        obtain rfl := Except.ok.inj h
        refine ⟨rfl, rfl, entry, rfl, Bool.eq_true_of_not_eq_false hdisabled, Or.inr ?_⟩
        exact {
          authenticated := hcontext
          authorization := HeaderMap.getAll_eq_nil_of_remove (HeaderMap.getAll_remove_self _ _)
          apiKey := HeaderMap.getAll_remove_self _ _ }

/-! ## The handler -/

/-- A target is what is mounted at an entry, with the access and the headers given. -/
def Target.Of (state : AppState Addr) (entry : MountedEndpoint) (access : AccessContext)
    (headers : HeaderMap) : Target ι → Prop
  | .generate execution =>
    entry.operation = .generate execution.endpoint ∧
      state.profiles.get entry.profile = some execution.runtime ∧
      execution.config.allowedProviders = providerIds access.providers ∧
      execution.headers = headers
  | .models profile access' =>
    entry.operation = .models ∧ entry.profile = profile ∧ access' = access
  | .providers profile access' =>
    entry.operation = .providers ∧ entry.profile = profile ∧ access' = access

theorem operationConfig_ok {runtime : ProfileRuntime} {access : AccessContext} {config : RunConfig}
    (h : operationConfig runtime endpoint access = .ok config) :
    config.allowedProviders = providerIds access.providers := by
  rw [operationConfig] at h
  split at h
  · obtain rfl := Except.ok.inj h
    rfl
  · split at h
    · cases h
    · obtain rfl := Except.ok.inj h
      rfl

theorem handle_ok {codec : Codec β ι} {access : AccessContext} {body : ByteArray}
    {execution : Execution ι}
    (h : handle codec state access request body endpoint = .ok execution) :
    state.selectProfile request.path endpoint = .ok execution.runtime ∧
      execution.endpoint = endpoint ∧ execution.headers = request.headers ∧
      execution.config.allowedProviders = providerIds access.providers := by
  obtain ⟨runtime, hselect, h⟩ := bind_eq_ok.mp h
  obtain ⟨-, -, h⟩ := bind_eq_ok.mp h
  obtain ⟨bodies, -, h⟩ := bind_eq_ok.mp h
  obtain ⟨config, hconfig, h⟩ := bind_eq_ok.mp h
  obtain ⟨-, -, h⟩ := bind_eq_ok.mp h
  obtain rfl := Except.ok.inj h
  exact ⟨hselect, rfl, rfl, operationConfig_ok hconfig⟩

/-- **What a request reaches** is mounted at its path. -/
theorem dispatch_ok {codec : Codec β ι} {target : Target ι}
    (h : dispatch codec admitted = .ok target) :
    ∃ entry, admitted.state.mounts.get admitted.request.path = some entry ∧
      entry.enabled = true ∧
      target.Of admitted.state entry admitted.access admitted.request.headers := by
  rw [dispatch] at h
  cases hentry : admitted.state.mounts.get admitted.request.path with
  | none =>
    rw [hentry] at h
    cases h
  | some entry =>
    rw [hentry] at h
    obtain ⟨_, henabled, h⟩ := bind_eq_ok.mp h
    obtain ⟨-, -, h⟩ := bind_eq_ok.mp h
    refine ⟨entry, rfl, by simpa using Except.rejectIf_eq_ok.mp henabled, ?_⟩
    cases hop : entry.operation with
    | generate endpoint =>
      rw [hop] at h
      obtain ⟨body, -, h⟩ := bind_eq_ok.mp h
      obtain ⟨execution, hhandle, h⟩ := bind_eq_ok.mp h
      obtain rfl := Except.ok.inj h
      obtain ⟨hselect, hendpoint, hheaders, hallowed⟩ := handle_ok hhandle
      obtain ⟨entry', hentry', -, -, hprofile⟩ := selectProfile_ok hselect
      rw [hentry] at hentry'
      obtain rfl := Option.some.inj hentry'
      exact ⟨by rw [hop, hendpoint], hprofile, hallowed, hheaders⟩
    | models =>
      rw [hop] at h
      obtain rfl := Except.ok.inj h
      exact ⟨hop, rfl, rfl⟩
    | providers =>
      rw [hop] at h
      obtain rfl := Except.ok.inj h
      exact ⟨hop, rfl, rfl⟩

/-! ## What is reached -/

/-- What was presented to reach a target. A pipeline that sends the credentials of the client needs
no key. -/
def Target.Guarded (env : Access.Env) (state : AppState Addr) (db : AccessDb) (request : Request β)
    (target : Target ι) : Prop :=
  ∃ entry, state.mounts.get request.path = some entry ∧ entry.enabled = true ∧
    match target with
    | .generate execution =>
      entry.operation = .generate execution.endpoint ∧
        state.profiles.get entry.profile = some execution.runtime ∧
        (execution.runtime.credentialPolicy ≠ .client →
          ∃ access, Accepted env db request.headers execution.headers access ∧
            execution.config.allowedProviders = providerIds access.providers)
    | .models profile access =>
      entry.operation = .models ∧ entry.profile = profile ∧
        Access.authenticate env (presentedToken request.headers) db = .ok access
    | .providers profile access =>
      entry.operation = .providers ∧ entry.profile = profile ∧
        Access.authenticate env (presentedToken request.headers) db = .ok access

/-- **One request**: the middleware, and then the handler. -/
theorem guarded_of_dispatch {env : Access.Env} {codec : Codec β ι} {db : AccessDb}
    {target : Target ι} (hlocal : state.listener.clientAuth = .localKeys)
    (hauth : authenticate env state db request = .ok admitted)
    (hdispatch : dispatch codec admitted = .ok target) : target.Guarded env state db request := by
  obtain ⟨rfl, hpath, entry, hentry, henabled, hguard⟩ := authenticate_ok hlocal hauth
  obtain ⟨entry', hentry', -, hof⟩ := dispatch_ok hdispatch
  rw [hpath, hentry] at hentry'
  obtain rfl := Option.some.inj hentry'
  refine ⟨entry, hentry, henabled, ?_⟩
  cases target with
  | generate execution =>
    obtain ⟨hop, hprofile, hallowed, hheaders⟩ := hof
    refine ⟨hop, hprofile, fun hpolicy => ⟨admitted.access, ?_, hallowed⟩⟩
    rcases hguard with ⟨endpoint, runtime, -, hruntime, hclient⟩ | haccepted
    · rw [hprofile] at hruntime
      exact absurd (Option.some.inj hruntime ▸ hclient) hpolicy
    · rw [hheaders]
      exact haccepted
  | models profile access =>
    obtain ⟨hop, hprofile, rfl⟩ := hof
    refine ⟨hop, hprofile, ?_⟩
    rcases hguard with ⟨endpoint, -, hgen, -⟩ | haccepted
    · exact nomatch hop.symm.trans hgen
    · exact haccepted.authenticated
  | providers profile access =>
    obtain ⟨hop, hprofile, rfl⟩ := hof
    refine ⟨hop, hprofile, ?_⟩
    rcases hguard with ⟨endpoint, -, hgen, -⟩ | haccepted
    · exact nomatch hop.symm.trans hgen
    · exact haccepted.authenticated

/-! ## Runs -/

variable [DecidableEq Addr] {env : Access.Env} {codec : Codec β ι}

/-- A reload keeps the kind of authentication. -/
theorem compatible_clientAuth {current replacement : AppState Addr}
    (h : compatible current replacement = true) :
    replacement.listener.clientAuth = current.listener.clientAuth := by
  obtain ⟨_, hensure⟩ := Except.exists_eq_ok h
  obtain ⟨found, hfound, hensure⟩ := bind_eq_ok.mp hensure
  rw [index, BTreeMap.get_cons, if_pos rfl] at hfound
  obtain rfl := Except.ok.inj hfound
  obtain ⟨_, _, hensure⟩ := bind_eq_ok.mp hensure
  obtain ⟨_, hauth, -⟩ := bind_eq_ok.mp hensure
  have heq := of_decide_eq_false (Except.rejectIf_eq_ok.mp hauth)
  exact (Decidable.of_not_not heq).symm

/-- A request was received in a run, and the middleware let it through with what it found then. -/
def Received (env : Access.Env) (codec : Codec β ι) (live₀ : Live Addr β ι)
    (actions : List (Action Addr β)) (admitted : Admitted Addr β) (request : Request β)
    (live : Live Addr β ι) : Prop :=
  ∃ before after, actions = before ++ .receive request :: after ∧
    exec (step codec env) live₀ before = some live ∧
    authenticate env live.current (live.databases live.current.access) request = .ok admitted

theorem Received.concat (h : Received env codec live₀ actions admitted request live)
    (a : Action Addr β) : Received env codec live₀ (actions ++ [a]) admitted request live := by
  obtain ⟨before, after, rfl, hexec, hauth⟩ := h
  exact ⟨before, after ++ [a], by rw [List.append_assoc, List.cons_append], hexec, hauth⟩

/-- What holds after a run: local keys are asked for, and everything that waits or was reached comes
from a request that the middleware let through. -/
structure Traced (env : Access.Env) (codec : Codec β ι) (live₀ : Live Addr β ι)
    (actions : List (Action Addr β)) (live : Live Addr β ι) : Prop where
  clientAuth : live.current.listener.clientAuth = .localKeys
  waiting : ∀ admitted ∈ live.waiting, ∃ request live₁,
    Received env codec live₀ actions admitted request live₁
  reached : ∀ target ∈ live.reached, ∃ admitted request live₁,
    Received env codec live₀ actions admitted request live₁ ∧ dispatch codec admitted = .ok target

theorem Traced.step {live' : Live Addr β ι} {a : Action Addr β}
    (hexec : exec (step codec env) live₀ actions = some live)
    (ht : Traced env codec live₀ actions live) (h : step codec env live a = some live') :
    Traced env codec live₀ (actions ++ [a]) live' := by
  have hwaiting : ∀ admitted ∈ live.waiting, ∃ request live₁,
      Received env codec live₀ (actions ++ [a]) admitted request live₁ := by
    intro admitted hmem
    obtain ⟨request, live₁, hr⟩ := ht.waiting admitted hmem
    exact ⟨request, live₁, hr.concat a⟩
  have hreached : ∀ target ∈ live.reached, ∃ admitted request live₁,
      Received env codec live₀ (actions ++ [a]) admitted request live₁ ∧
        dispatch codec admitted = .ok target := by
    intro target hmem
    obtain ⟨admitted, request, live₁, hr, hd⟩ := ht.reached target hmem
    exact ⟨admitted, request, live₁, hr.concat a, hd⟩
  cases a with
  | reload replacement =>
    rw [Api.step] at h
    split_ifs at h with hcompatible
    obtain rfl := Option.some.inj h
    exact ⟨(compatible_clientAuth hcompatible).trans ht.clientAuth, hwaiting, hreached⟩
  | write access db =>
    obtain rfl := Option.some.inj h
    exact ⟨ht.clientAuth, hwaiting, hreached⟩
  | receive request =>
    rw [Api.step] at h
    cases hauth : authenticate env live.current (live.databases live.current.access) request with
    | error e =>
      rw [hauth] at h
      obtain rfl := Option.some.inj h
      exact ⟨ht.clientAuth, hwaiting, hreached⟩
    | ok admitted =>
      rw [hauth] at h
      obtain rfl := Option.some.inj h
      refine ⟨ht.clientAuth, fun admitted' hmem => ?_, hreached⟩
      rcases List.mem_append.mp hmem with hmem | hmem
      · exact hwaiting admitted' hmem
      · rw [List.mem_singleton.mp hmem]
        exact ⟨request, live, actions, [], rfl, hexec, hauth⟩
  | dispatch i =>
    rw [Api.step] at h
    cases hget : live.waiting[i]? with
    | none =>
      rw [hget] at h
      cases h
    | some admitted =>
      rw [hget] at h
      have herase : ∀ admitted' ∈ live.waiting.eraseIdx i, admitted' ∈ live.waiting :=
        fun _ hmem => List.mem_of_mem_eraseIdx hmem
      cases hd : dispatch codec admitted with
      | error e =>
        simp only [hd] at h
        obtain rfl := Option.some.inj h
        exact ⟨ht.clientAuth, fun _ hmem => hwaiting _ (herase _ hmem), hreached⟩
      | ok target =>
        simp only [hd] at h
        obtain rfl := Option.some.inj h
        refine ⟨ht.clientAuth, fun _ hmem => hwaiting _ (herase _ hmem), fun target' hmem => ?_⟩
        rcases List.mem_append.mp hmem with hmem | hmem
        · exact hreached target' hmem
        · rw [List.mem_singleton.mp hmem]
          obtain ⟨request, live₁, hr⟩ := hwaiting admitted (List.mem_of_getElem? hget)
          exact ⟨admitted, request, live₁, hr, hd⟩

theorem traced_of_run (hlocal : live₀.current.listener.clientAuth = .localKeys)
    (hwaiting : live₀.waiting = []) (hreached : live₀.reached = [])
    (h : exec (step codec env) live₀ actions = some live) :
    Traced env codec live₀ actions live := by
  refine exec_induction (Traced env codec live₀) ?_ ?_ h
  · refine ⟨hlocal, fun _ hmem => ?_, fun _ hmem => ?_⟩
    · rw [hwaiting] at hmem
      cases hmem
    · rw [hreached] at hmem
      cases hmem
  · intro actions a live live' hexec ht hstep
    exact ht.step hexec hstep

/-- **Nobody reaches a pipeline of the gateway's accounts without a key.** -/
theorem reached_guarded (env : Access.Env) (codec : Codec β ι) (live₀ live : Live Addr β ι)
    (actions : List (Action Addr β)) (hlocal : live₀.current.listener.clientAuth = .localKeys)
    (hwaiting : live₀.waiting = []) (hreached : live₀.reached = [])
    (h : exec (step codec env) live₀ actions = some live) (target : Target ι)
    (htarget : target ∈ live.reached) :
    ∃ before request after live₁, actions = before ++ .receive request :: after ∧
      exec (step codec env) live₀ before = some live₁ ∧
      target.Guarded env live₁.current (live₁.databases live₁.current.access) request := by
  obtain ⟨admitted, request, live₁, ⟨before, after, hactions, hexec, hauth⟩, hdispatch⟩ :=
    (traced_of_run hlocal hwaiting hreached h).reached target htarget
  have hlocal₁ := (traced_of_run hlocal hwaiting hreached hexec).clientAuth
  exact ⟨before, request, after, live₁, hactions, hexec,
    guarded_of_dispatch hlocal₁ hauth hdispatch⟩

/-! ## A run -/

/-- A listener with the models and the chat completions of one profile. -/
def sampleState : AppState Unit where
  listenerId := "local"
  listener := ⟨(), .localKeys, {}⟩
  requestLimits := ⟨1048576, 1048576⟩
  profiles := [("coding", ⟨true, .managed, .account, none, none⟩)]
  mounts :=
    [("/v1/chat/completions".toList, ⟨"coding", .generate .chatCompletions, true⟩),
      ("/v1/models".toList, ⟨"coding", .models, true⟩)]
  access := "access.db"

def sampleLive : Live Unit ByteArray Unit where
  current := sampleState
  databases _ := Access.after Access.sampleEnv [Access.sampleCall]
  waiting := []
  reached := []

/-- A body that is not compressed, and stays as it is. -/
def sampleCodec : Codec ByteArray Unit where
  toBytes body limit := if body.size ≤ limit then .ok body else .error .lengthLimit
  decodeJsonRequest _ body _ := .ok ⟨body, body, some ()⟩
  applyEndpointCompatDefaults _ _ bodies := .ok bodies
  decodeOpaqueBody _ body _ := .ok body

def sampleHeaders : HeaderMap :=
  [("authorization", .ofText "Basic dXNlcg=="), ("x-api-key", .ofText Access.sampleToken),
    ("authorization", .ofText "Bearer other"), ("x-request-id", .ofText "r1")]

def sampleModels : Request ByteArray :=
  ⟨"GET", "/v1/models".toList, none, sampleHeaders, .empty⟩

def sampleChat : Request ByteArray :=
  ⟨"POST", "/v1/chat/completions".toList, none, sampleHeaders, "\x7b\x7d".toUTF8⟩

/-- Two requests are received, the generation is replaced, and they are dispatched. -/
def sampleActions : List (Action Unit ByteArray) :=
  [.receive sampleModels, .receive sampleChat, .reload { sampleState with profiles := [] },
    .dispatch 1, .dispatch 0]

def Target.isGeneration : Target ι → Bool
  | .generate _ => true
  | .models .. | .providers .. => false

theorem reached_guarded_sample :
    ∃ live, exec (step sampleCodec Access.sampleEnv) sampleLive sampleActions = some live ∧
      ∃ execution, .generate execution ∈ live.reached ∧ ∃ before request after live₁,
        sampleActions = before ++ .receive request :: after ∧
          exec (step sampleCodec Access.sampleEnv) sampleLive before = some live₁ ∧
          (Target.generate execution).Guarded Access.sampleEnv live₁.current
            (live₁.databases live₁.current.access) request := by
  have hgenerates : (exec (step sampleCodec Access.sampleEnv) sampleLive sampleActions).map
      (·.reached.any Target.isGeneration) = some true := by decide +kernel
  obtain ⟨live, hlive, hany⟩ := Option.map_eq_some_iff.mp hgenerates
  obtain ⟨target, htarget, hgeneration⟩ := List.any_eq_true.mp hany
  cases target with
  | generate execution =>
    exact ⟨live, hlive, execution, htarget, reached_guarded Access.sampleEnv sampleCodec sampleLive
      live sampleActions rfl rfl rfl hlive _ htarget⟩
  | models => cases hgeneration
  | providers => cases hgeneration

end Tokn.Router.Api
