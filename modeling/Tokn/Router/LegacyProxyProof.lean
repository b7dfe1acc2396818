import Mathlib.Data.List.TakeWhile
import Tokn.Access.Authenticate
import Tokn.Router.LegacyProxy

/-!
# Which host decides the mode

**Theorem (`sameHost_iff`).** A request on an intercepted connection that asks for no mode, and that
is sent on, is sent to the host its mode was chosen for iff the two readings of its host agree: with
an authority in its target, the `Host` header names the same host before its first colon; without
one, there is no `Host` header, or a plain one (`PlainHost`): a name without colons, perhaps with a
port.

The mode is chosen for what stands before the first colon of the `Host` header, and the request is
sent to the authority of its target, or else to the `Host` header without its port, where brackets
belong to the host (`splitHostPort_eq_iff`). The authority of the target is not looked at when the
mode is chosen.
-/

namespace Tokn.Router.LegacyProxy

open Tokn.Access (AccessContext AccessDb)
open Tokn.Policy

/-! ## Splitting at colons -/

variable {text : Text} {access : Option AccessContext} {forward : Forward} {mode : RouteMode}

theorem beforeColon_eq_self (h : ':' ∉ text) : beforeColon text = text := by
  refine List.takeWhile_eq_self_iff.mpr fun c hc => ?_
  exact decide_eq_true fun heq => h (heq ▸ hc)

theorem beforeColon_append {name tail : Text} (h : ':' ∉ name) :
    beforeColon (name ++ tail) = name ++ beforeColon tail :=
  List.takeWhile_append_of_pos fun _ hc => decide_eq_true fun heq => h (heq ▸ hc)

theorem not_mem_beforeColon (text : Text) : ':' ∉ beforeColon text := by
  intro h
  have hne := List.mem_takeWhile_imp (p := fun c => decide (c ≠ ':')) h
  exact absurd rfl (of_decide_eq_true hne)

theorem beforeColon_colon (tail : Text) : beforeColon (':' :: tail) = [] := rfl

theorem mem_of_mem_trimChars {c : Char} (h : c ∈ Str.trimChars text) : c ∈ text := by
  have h₁ := (List.dropWhile_sublist _).subset (List.mem_reverse.mp h)
  exact (List.dropWhile_sublist _).subset (List.mem_reverse.mp h₁)

theorem not_mem_trim_beforeColon (text : Text) : ':' ∉ Str.trimChars (beforeColon text) :=
  fun h => not_mem_beforeColon text (mem_of_mem_trimChars h)

theorem rsplitColon_eq_some {host port : Text} :
    rsplitColon text = some (host, port) ↔ text = host ++ ':' :: port ∧ ':' ∉ port := by
  rw [rsplitColon, Option.map_eq_some_iff]
  constructor
  · rintro ⟨⟨before, after⟩, hsplit, hparts⟩
    obtain ⟨rfl, rfl⟩ := Prod.mk.inj hparts
    obtain ⟨hrev, hmem⟩ := Ascii.splitOnce_eq_some.mp hsplit
    refine ⟨?_, fun h => hmem (List.mem_reverse.mp h)⟩
    rw [← List.reverse_reverse text, hrev]
    simp
  · rintro ⟨rfl, hmem⟩
    refine ⟨(port.reverse, host.reverse), Ascii.splitOnce_eq_some.mpr ⟨by simp, ?_⟩, by simp⟩
    exact fun h => hmem (List.mem_reverse.mp h)

theorem rsplitColon_eq_none : rsplitColon text = none ↔ ':' ∉ text := by
  rw [rsplitColon, Option.map_eq_none_iff, Ascii.splitOnce_eq_none, List.mem_reverse]

theorem not_mem_of_all_isDigit {digits : Text} (h : digits.all Char.isDigit = true) : ':' ∉ digits :=
  fun hmem => absurd (List.all_eq_true.mp h ':' hmem) (by decide)

/-! ## Plain hosts -/

/-- A name without colons, perhaps with a port; or, in brackets without colons, with anything after a
colon. -/
def PlainHost (text : Text) : Prop :=
  ∃ name tail, text = name ++ tail ∧ ':' ∉ name ∧
    (¬ (text.head? = some '[' ∧ ']' ∈ text) ∧ Str.trimChars name = name ∧
        (tail = [] ∨ ∃ digits, tail = ':' :: digits ∧ digits.all Char.isDigit = true) ∨
      (∃ inner, name = '[' :: inner ++ [']'] ∧ ']' ∉ inner) ∧
        ∀ c ∈ beforeColon tail, Str.isWhitespace c = true)

/-- The two readings of a `Host` header without a bracket that closes. -/
theorem splitPlain_eq_iff (htrim : Str.trimChars text = text) (hne : beforeColon text ≠ []) :
    (splitPlain text).1 = Str.trimChars (beforeColon text) ↔
      ∃ name tail, text = name ++ tail ∧ ':' ∉ name ∧ Str.trimChars name = name ∧
        (tail = [] ∨ ∃ digits, tail = ':' :: digits ∧ digits.all Char.isDigit = true) := by
  rw [splitPlain]
  cases hsplit : rsplitColon text with
  | none =>
    have hcolon := rsplitColon_eq_none.mp hsplit
    refine iff_of_true ?_ ⟨text, [], (List.append_nil _).symm, hcolon, htrim, Or.inl rfl⟩
    rw [beforeColon_eq_self hcolon, htrim]
  | some parts =>
    obtain ⟨host, port⟩ := parts
    obtain ⟨rfl, hport⟩ := rsplitColon_eq_some.mp hsplit
    have hhost : host ≠ [] := by
      rintro rfl
      exact hne rfl
    by_cases hdigits : port.all Char.isDigit = true
    · simp only [if_pos (show host ≠ [] ∧ port.all Char.isDigit = true from ⟨hhost, hdigits⟩)]
      by_cases hcolon : ':' ∈ host
      · refine iff_of_false (fun h => not_mem_trim_beforeColon _ (h ▸ hcolon)) ?_
        rintro ⟨name, tail, heq, hname, -, rfl | ⟨digits, rfl, hall⟩⟩
        · rw [List.append_nil] at heq
          exact hname (heq ▸ List.mem_append_right _ List.mem_cons_self)
        · have hsame := rsplitColon_eq_some.mpr ⟨heq, not_mem_of_all_isDigit hall⟩
          rw [hsplit] at hsame
          exact hname ((Prod.mk.inj (Option.some.inj hsame)).1 ▸ hcolon)
      · rw [beforeColon_append hcolon, beforeColon_colon, List.append_nil]
        constructor
        · intro h
          exact ⟨host, ':' :: port, rfl, hcolon, h.symm, Or.inr ⟨port, rfl, hdigits⟩⟩
        · rintro ⟨name, tail, heq, hname, htrim', htail⟩
          have hcut := congrArg beforeColon heq
          rw [beforeColon_append hcolon, beforeColon_append hname, beforeColon_colon,
            List.append_nil] at hcut
          rcases htail with rfl | ⟨digits, rfl, -⟩
          · rw [List.append_nil] at heq
            exact absurd (heq ▸ List.mem_append_right _ List.mem_cons_self) hname
          · rw [beforeColon_colon, List.append_nil] at hcut
            rw [hcut, htrim']
    · simp only [if_neg (show ¬ (host ≠ [] ∧ port.all Char.isDigit = true) from
        fun h => hdigits h.2)]
      refine iff_of_false (fun h => not_mem_trim_beforeColon _
        (h ▸ List.mem_append_right _ List.mem_cons_self)) ?_
      rintro ⟨name, tail, heq, hname, -, rfl | ⟨digits, rfl, hall⟩⟩
      · rw [List.append_nil] at heq
        exact hname (heq ▸ List.mem_append_right _ List.mem_cons_self)
      · have hsame := rsplitColon_eq_some.mpr ⟨heq, not_mem_of_all_isDigit hall⟩
        rw [hsplit] at hsame
        exact hdigits ((Prod.mk.inj (Option.some.inj hsame)).2 ▸ hall)

theorem brackets_head? (inner : Text) (c : Char) (h : ('[' :: inner ++ [']']).head? = some c) :
    Str.isWhitespace c = false := by
  obtain rfl := Option.some.inj h
  decide

theorem brackets_getLast? (inner : Text) (c : Char)
    (h : ('[' :: inner ++ [']']).getLast? = some c) : Str.isWhitespace c = false := by
  rw [List.getLast?_concat] at h
  obtain rfl := Option.some.inj h
  decide

/-- The two readings of a `Host` header with brackets. -/
theorem brackets_eq_iff (inner after : Text) :
    '[' :: inner ++ [']'] = Str.trimChars (beforeColon ('[' :: inner ++ ']' :: after)) ↔
      ':' ∉ inner ∧ ∀ c ∈ beforeColon after, Str.isWhitespace c = true := by
  have hsplit : '[' :: inner ++ ']' :: after = ('[' :: inner ++ [']']) ++ after := by simp
  by_cases hcolon : ':' ∈ inner
  · refine iff_of_false (fun h => ?_) fun h => h.1 hcolon
    refine not_mem_trim_beforeColon ('[' :: inner ++ ']' :: after) (h ▸ ?_)
    exact List.mem_append_left _ (List.mem_cons_of_mem _ hcolon)
  · have hname : ':' ∉ '[' :: inner ++ [']'] := by simp [hcolon]
    rw [hsplit, beforeColon_append hname, eq_comm,
      Str.trimChars_append_eq_iff (by simp) (brackets_head? inner) (brackets_getLast? inner)]
    exact (and_iff_right hcolon).symm

/-- A text that does not start with a bracket that closes is plain if it is a name with or without a
port. -/
theorem plainHost_iff_of_not_brackets (h : ¬ (text.head? = some '[' ∧ ']' ∈ text)) :
    PlainHost text ↔ ∃ name tail, text = name ++ tail ∧ ':' ∉ name ∧ Str.trimChars name = name ∧
      (tail = [] ∨ ∃ digits, tail = ':' :: digits ∧ digits.all Char.isDigit = true) := by
  constructor
  · rintro ⟨name, tail, rfl, hname, ⟨-, hplain⟩ | ⟨⟨inner, rfl, -⟩, -⟩⟩
    · exact ⟨name, tail, rfl, hname, hplain⟩
    · exact absurd ⟨rfl, by simp⟩ h
  · rintro ⟨name, tail, rfl, hname, hplain⟩
    exact ⟨name, tail, rfl, hname, Or.inl ⟨h, hplain⟩⟩

theorem plainHost_brackets_iff {inner after : Text} (hinner : ']' ∉ inner) :
    PlainHost ('[' :: inner ++ ']' :: after) ↔
      ':' ∉ inner ∧ ∀ c ∈ beforeColon after, Str.isWhitespace c = true := by
  constructor
  · rintro ⟨name, tail, heq, hname, ⟨hnot, -⟩ | ⟨⟨inner', rfl, hinner'⟩, htail⟩⟩
    · exact absurd ⟨rfl, by simp⟩ hnot
    · have hrest : inner ++ ']' :: after = inner' ++ ']' :: tail := by
        simpa using heq
      have hsplit := Ascii.splitOnce_eq_some.mpr ⟨hrest, hinner'⟩
      rw [Ascii.splitOnce_eq_some.mpr ⟨rfl, hinner⟩] at hsplit
      obtain ⟨rfl, rfl⟩ := Prod.mk.inj (Option.some.inj hsplit)
      exact ⟨fun h => hname (List.mem_append_left _ (List.mem_cons_of_mem _ h)), htail⟩
  · rintro ⟨hcolon, htail⟩
    exact ⟨'[' :: inner ++ [']'], after, by simp, by simp [hcolon],
      Or.inr ⟨⟨inner, rfl, hinner⟩, htail⟩⟩

/-- **The two readings of a `Host` header agree** iff it is plain. -/
theorem splitHostPort_eq_iff (htrim : Str.trimChars text = text) (hne : beforeColon text ≠ []) :
    (splitHostPort text).1 = Str.trimChars (beforeColon text) ↔ PlainHost text := by
  by_cases hopen : text.head? = some '['
  · obtain ⟨rest, rfl⟩ := List.head?_eq_some_iff.mp hopen
    rw [splitHostPort, htrim]
    cases hsplit : Ascii.splitOnce ']' rest with
    | none =>
      have hclose := Ascii.splitOnce_eq_none.mp hsplit
      simp only [hsplit]
      rw [plainHost_iff_of_not_brackets (by simp [hclose])]
      exact splitPlain_eq_iff htrim hne
    | some parts =>
      obtain ⟨inner, after⟩ := parts
      simp only [hsplit]
      obtain ⟨rfl, hinner⟩ := Ascii.splitOnce_eq_some.mp hsplit
      exact (brackets_eq_iff inner after).trans (plainHost_brackets_iff hinner).symm
  · have hplain : splitHostPort text = splitPlain text := by
      rw [splitHostPort, htrim]
      split
      · exact absurd rfl hopen
      · rfl
    rw [hplain, plainHost_iff_of_not_brackets fun h => hopen h.1]
    exact splitPlain_eq_iff htrim hne

/-! ## The two hosts -/

/-- The host that the mode of a request is chosen for. -/
def chosenHost (connection : Connection) (request : InnerRequest) : Text :=
  modeHost request.headers (bareHost connection request.headers)

/-- The host that a request is sent to. -/
def sentHost (connection : Connection) (request : InnerRequest) : Text :=
  (resolveHostWithPort connection request.authority request.headers).1

/-- What is asked of the target, the `Host` header and the CONNECT. -/
def Agree (connection : Connection) (request : InnerRequest) : Prop :=
  match request.authority, hostHeader request.headers with
  | none, none => True
  | none, some text =>
    if beforeColon text = [] then (splitHostPort text).1 = connection.interceptedHost
    else PlainHost text
  | some (host, _), none => host = connection.interceptedHost
  | some (host, _), some text =>
    host = if beforeColon text = [] then connection.interceptedHost
      else Str.trimChars (beforeColon text)

theorem trim_beforeColon_ne_nil (htrim : Str.trimChars text = text) (hne : beforeColon text ≠ []) :
    Str.trimChars (beforeColon text) ≠ [] := by
  cases text with
  | nil => exact absurd rfl hne
  | cons c rest =>
    have hc : Str.isWhitespace c = false := by
      rw [← Bool.not_eq_true]
      intro hc
      have hlen : (Str.trimChars (c :: rest)).length ≤ rest.length := by
        rw [Str.trimChars, Str.trimStartChars, Str.trimStartChars, List.length_reverse,
          List.dropWhile_cons_of_pos hc]
        refine (List.dropWhile_sublist _).length_le.trans ?_
        rw [List.length_reverse]
        exact (List.dropWhile_sublist _).length_le
      rw [htrim, List.length_cons] at hlen
      omega
    have hcolon : c ≠ ':' := by
      rintro rfl
      exact hne rfl
    have hcut : beforeColon (c :: rest) = c :: beforeColon rest :=
      List.takeWhile_cons_of_pos (decide_eq_true hcolon)
    rw [hcut]
    intro hnil
    have hhead := Str.head?_trimChars (l := beforeColon rest) hc
    rw [hnil] at hhead
    cases hhead

theorem chosenHost_eq (connection : Connection) (request : InnerRequest) :
    chosenHost connection request =
      match hostHeader request.headers with
      | some text =>
        if beforeColon text = [] then connection.interceptedHost
        else Str.trimChars (beforeColon text)
      | none => connection.interceptedHost := by
  rw [chosenHost, modeHost, bareHost]
  cases hhost : hostHeader request.headers with
  | none => rfl
  | some text =>
    simp only [Option.map_some]
    by_cases hnil : beforeColon text = []
    · rw [if_pos hnil, hnil, if_pos rfl]
      rfl
    · rw [if_neg hnil, if_neg (trim_beforeColon_ne_nil (request.trimmed text hhost) hnil),
        if_neg hnil]

theorem sentHost_eq (connection : Connection) (request : InnerRequest) :
    sentHost connection request =
      match request.authority, hostHeader request.headers with
      | some (host, _), _ => host
      | none, some text => (splitHostPort text).1
      | none, none => connection.interceptedHost := by
  unfold sentHost resolveHostWithPort
  cases request.authority with
  | some authority => rfl
  | none =>
    cases hostHeader request.headers with
    | none => rfl
    | some text => rfl

theorem sentHost_eq_iff (connection : Connection) (request : InnerRequest) :
    sentHost connection request = chosenHost connection request ↔ Agree connection request := by
  rw [chosenHost_eq, sentHost_eq, Agree]
  cases request.authority with
  | some authority =>
    cases hostHeader request.headers with
    | none => exact Iff.rfl
    | some text => exact Iff.rfl
  | none =>
    cases hhost : hostHeader request.headers with
    | none => exact iff_of_true rfl trivial
    | some text =>
      dsimp only
      by_cases hnil : beforeColon text = []
      · rw [if_pos hnil, if_pos hnil]
      · rw [if_neg hnil, if_neg hnil]
        exact splitHostPort_eq_iff (request.trimmed text hhost) hnil

/-! ## What is sent -/

/-- Neither the request nor the CONNECT asks for a mode. -/
structure NoMode (connection : Connection) (request : InnerRequest) : Prop where
  header : request.headers.get MODE_HEADER = none
  connect : connection.proxyRouteMode = none

/-- The mode for a host: that of its provider, or the default. -/
def hostMode (state : AppState) (host pathAndQuery : Text) : RouteMode :=
  (providerMode state host pathAndQuery).getD state.defaultMode

def ProxyPipelineMode.asRouteMode : ProxyPipelineMode → RouteMode
  | .passthrough => .passthrough
  | .switch => .switch

theorem parseRouteMode_text (mode : RouteMode) : parseRouteMode mode.text = .ok mode := by
  cases mode <;> rfl

variable {env : Access.Env} {state : AppState} {connection : Connection} {request : InnerRequest}

theorem resolveProxyRouteMode_eq (h : NoMode connection request) :
    resolveProxyRouteMode state request.headers (bareHost connection request.headers)
        request.pathAndQuery =
      .ok (hostMode state (chosenHost connection request) request.pathAndQuery) := by
  rw [resolveProxyRouteMode, h.header, Option.bind_none, Option.none_or, defaultProxyProviderMode,
    hostMode, chosenHost]
  cases providerMode state (modeHost request.headers (bareHost connection request.headers))
      request.pathAndQuery with
  | none => rfl
  | some mode => exact parseRouteMode_text mode

theorem authenticateManaged_host {headers : HeaderMap} {r : AccessContext × HeaderMap}
    (h : authenticateManaged env state headers = .ok r) : hostHeader r.2 = hostHeader headers := by
  rw [authenticateManaged] at h
  split at h
  · obtain rfl := Except.ok.inj h
    rw [hostHeader, hostHeader, HeaderMap.get, HeaderMap.get,
      HeaderMap.getAll_remove_of_ne _ (by decide), HeaderMap.getAll_remove_of_ne _ (by decide)]
  · cases h

theorem resolveHostWithPort_congr {headers headers' : HeaderMap}
    {authority : Option (Text × Option Nat)} (h : hostHeader headers = hostHeader headers') :
    resolveHostWithPort connection authority headers =
      resolveHostWithPort connection authority headers' := by
  unfold resolveHostWithPort
  rw [h]

/-- A proxy pipeline gets the resolved host, and the provider of that host. -/
theorem proxyViaPipeline_sent {headers : HeaderMap} {mode mode' : ProxyPipelineMode}
    (h : proxyViaPipeline state connection request headers access mode = .sent mode' forward) :
    mode' = mode ∧
      forward.url.host = (resolveHostWithPort connection request.authority headers).1 ∧
      (mode = .switch →
        state.providerIdForUrl forward.url.host request.pathAndQuery = some forward.providerId) ∧
      (forward.injectAuth = true → mode = .switch) := by
  rw [proxyViaPipeline] at h
  cases mode with
  | passthrough =>
    obtain ⟨rfl, rfl⟩ := Outcome.sent.inj h
    exact ⟨rfl, rfl, nofun, nofun⟩
  | switch =>
    simp only at h
    split at h
    · cases h
    · rename_i providerId hid
      obtain ⟨rfl, rfl⟩ := Outcome.sent.inj h
      exact ⟨rfl, rfl, fun _ => hid, fun _ => rfl⟩

/-- A request gets as far as a proxy pipeline: it is no WebSocket upgrade, and the mode it is given
is passthrough, or else switch with an accepted key and a known provider. -/
def Reaches (env : Access.Env) (state : AppState) (connection : Connection)
    (request : InnerRequest) : Prop :=
  isWebsocketUpgrade request.headers = false ∧
    match hostMode state (chosenHost connection request) request.pathAndQuery with
    | .passthrough => True
    | .switch =>
      (state.apiKeyEnabled = true → ∃ r, authenticateManaged env state request.headers = .ok r) ∧
        (state.providerIdForUrl (sentHost connection request) request.pathAndQuery).isSome
    | _ => False

theorem withRouteMode_eq (h : NoMode connection request) :
    withRouteMode connection request.headers = request.headers := by
  rw [withRouteMode, h.connect]

/-- A request without a mode is given the mode of its chosen host. -/
theorem routeInterceptedRequest_eq (h : NoMode connection request) :
    routeInterceptedRequest env state connection request =
      if isWebsocketUpgrade request.headers then .websocket
      else
        match admitRequest env state request.headers
            (hostMode state (chosenHost connection request) request.pathAndQuery) with
        | .error error => .unauthorized error
        | .ok (access, headers) =>
          dispatch state connection request (bareHost connection request.headers)
            (hostMode state (chosenHost connection request) request.pathAndQuery) access headers := by
  have hroute := routeInterceptedRequest.eq_def env state connection request
  simp only [withRouteMode_eq h, resolveProxyRouteMode_eq h] at hroute
  exact hroute

theorem admitRequest_host {headers headers' : HeaderMap}
    (h : admitRequest env state headers mode = .ok (access, headers')) :
    hostHeader headers' = hostHeader headers := by
  rw [admitRequest] at h
  split at h
  · obtain ⟨r, hr, heq⟩ := Except.map_eq_ok.mp h
    obtain ⟨-, rfl⟩ := Prod.mk.inj heq
    exact authenticateManaged_host hr
  · obtain ⟨-, rfl⟩ := Prod.mk.inj (Except.ok.inj h)
    rfl

theorem admitRequest_key {result : Option AccessContext × HeaderMap} {headers : HeaderMap}
    (h : admitRequest env state headers mode = .ok result) (hkey : state.apiKeyEnabled = true)
    (hmode : mode ≠ .passthrough) : ∃ r, authenticateManaged env state headers = .ok r := by
  rw [admitRequest, if_pos (by simp [shouldAuthenticate, hkey, hmode])] at h
  obtain ⟨r, hr, -⟩ := Except.map_eq_ok.mp h
  exact ⟨r, hr⟩

/-- A request that is dispatched to a pipeline is in the mode of that pipeline. -/
theorem dispatch_sent {host : Text} {headers : HeaderMap} {mode' : ProxyPipelineMode}
    (h : dispatch state connection request host mode access headers = .sent mode' forward) :
    mode = mode'.asRouteMode ∧
      proxyViaPipeline state connection request headers access mode' = .sent mode' forward := by
  cases mode with
  | passthrough =>
    rw [dispatch] at h
    obtain ⟨rfl, -⟩ := proxyViaPipeline_sent h
    exact ⟨rfl, h⟩
  | switch =>
    rw [dispatch] at h
    obtain ⟨rfl, -⟩ := proxyViaPipeline_sent h
    exact ⟨rfl, h⟩
  | exact | route | fuzzy =>
    rw [dispatch] at h
    · split at h <;> cases h
    all_goals nofun

/-- What holds of a request that is sent: its mode is that of the chosen host, its key was accepted
if that mode asks for one, and it goes to the sent host and to the provider of that host. -/
theorem sent_cases (h : NoMode connection request) {mode : ProxyPipelineMode}
    (hsent : routeInterceptedRequest env state connection request = .sent mode forward) :
    isWebsocketUpgrade request.headers = false ∧
      hostMode state (chosenHost connection request) request.pathAndQuery = mode.asRouteMode ∧
      forward.url.host = sentHost connection request ∧
      (mode = .switch →
        state.providerIdForUrl forward.url.host request.pathAndQuery = some forward.providerId) ∧
      (forward.injectAuth = true → mode = .switch) ∧
      (state.apiKeyEnabled = true → mode ≠ .passthrough →
        ∃ r, authenticateManaged env state request.headers = .ok r) := by
  rw [routeInterceptedRequest_eq h] at hsent
  by_cases hplain : isWebsocketUpgrade request.headers = true
  · rw [if_pos hplain] at hsent
    cases hsent
  · rw [if_neg hplain] at hsent
    cases hadmitted : admitRequest env state request.headers
        (hostMode state (chosenHost connection request) request.pathAndQuery) with
    | error error =>
      rw [hadmitted] at hsent
      cases hsent
    | ok result =>
      obtain ⟨access, headers⟩ := result
      rw [hadmitted] at hsent
      obtain ⟨hmode, hproxy⟩ := dispatch_sent hsent
      obtain ⟨-, hhost, hprovider, hinject⟩ := proxyViaPipeline_sent hproxy
      rw [resolveHostWithPort_congr (admitRequest_host hadmitted)] at hhost
      refine ⟨Bool.eq_false_iff.mpr hplain, hmode, hhost, hprovider, hinject, fun hkey hne => ?_⟩
      refine admitRequest_key hadmitted hkey fun hpass => ?_
      rw [hmode] at hpass
      cases mode with
      | passthrough => exact hne rfl
      | switch => cases hpass

theorem exists_admitRequest {headers : HeaderMap}
    (h : state.apiKeyEnabled = true → ∃ r, authenticateManaged env state headers = .ok r) :
    ∃ result, admitRequest env state headers mode = .ok result := by
  rw [admitRequest]
  by_cases hauth : shouldAuthenticate state mode = true
  · rw [if_pos hauth]
    obtain ⟨r, hr⟩ := h (Bool.and_eq_true_iff.mp hauth).1
    exact ⟨_, Except.map_eq_ok.mpr ⟨r, hr, rfl⟩⟩
  · rw [if_neg hauth]
    exact ⟨_, rfl⟩

theorem proxyViaPipeline_switch {headers : HeaderMap} {providerId : String}
    (hhost : hostHeader headers = hostHeader request.headers)
    (hid : state.providerIdForUrl (sentHost connection request) request.pathAndQuery =
      some providerId) :
    ∃ forward, proxyViaPipeline state connection request headers access .switch =
      .sent .switch forward := by
  unfold proxyViaPipeline
  rw [resolveHostWithPort_congr hhost]
  rw [sentHost] at hid
  simp only [hid]
  exact ⟨_, rfl⟩

/-- A request reaches a pipeline iff it is sent. -/
theorem reaches_iff (h : NoMode connection request) :
    Reaches env state connection request ↔
      ∃ mode forward,
        routeInterceptedRequest env state connection request = .sent mode forward := by
  constructor
  · intro hreach
    obtain ⟨hplain, hmode⟩ := hreach
    rw [routeInterceptedRequest_eq h, if_neg (Bool.not_eq_true _ ▸ hplain)]
    generalize hostMode state (chosenHost connection request) request.pathAndQuery = mode at hmode ⊢
    cases mode with
    | passthrough =>
      have hskip : admitRequest env state request.headers .passthrough =
          .ok (none, request.headers) := by
        rw [admitRequest, if_neg (by simp [shouldAuthenticate])]
      rw [hskip]
      exact ⟨.passthrough, _, rfl⟩
    | switch =>
      obtain ⟨hkey, hprovider⟩ := hmode
      obtain ⟨⟨access, headers⟩, hadmitted⟩ := exists_admitRequest hkey
      obtain ⟨providerId, hid⟩ := Option.isSome_iff_exists.mp hprovider
      rw [hadmitted]
      exact ⟨.switch, proxyViaPipeline_switch (admitRequest_host hadmitted) hid⟩
    | exact | route | fuzzy => exact hmode.elim
  · rintro ⟨mode, forward, hsent⟩
    obtain ⟨hplain, hmode, hhost, hprovider, -, hkey⟩ := sent_cases h hsent
    refine ⟨hplain, ?_⟩
    rw [hmode]
    cases mode with
    | passthrough => trivial
    | switch =>
      refine ⟨fun hon => hkey hon nofun, ?_⟩
      rw [← hhost, hprovider rfl]
      rfl

/-! ## One host -/

/-- A request that is sent is sent to the host its mode was chosen for: in the mode of that host, with
the credentials of its provider or none, and with an accepted key if that mode asks for one. -/
structure SameHost (env : Access.Env) (state : AppState) (connection : Connection)
    (request : InnerRequest) (mode : ProxyPipelineMode) (forward : Forward) : Prop where
  host : forward.url.host = chosenHost connection request
  chosen : hostMode state forward.url.host request.pathAndQuery = mode.asRouteMode
  credentials : forward.injectAuth = true →
    mode = .switch ∧
      state.providerIdForUrl forward.url.host request.pathAndQuery = some forward.providerId
  key : state.apiKeyEnabled = true →
    hostMode state forward.url.host request.pathAndQuery ≠ .passthrough →
      ∃ r, authenticateManaged env state request.headers = .ok r

theorem sameHost_of_eq (h : NoMode connection request) {mode : ProxyPipelineMode}
    (hsent : routeInterceptedRequest env state connection request = .sent mode forward)
    (heq : sentHost connection request = chosenHost connection request) :
    SameHost env state connection request mode forward := by
  obtain ⟨-, hmode, hhost, hprovider, hinject, hkey⟩ := sent_cases h hsent
  have hchosen : forward.url.host = chosenHost connection request := hhost.trans heq
  refine ⟨hchosen, hchosen ▸ hmode, fun hon => ⟨hinject hon, hprovider (hinject hon)⟩, ?_⟩
  intro hon hne
  refine hkey hon fun hpass => hne ?_
  rw [hchosen, hmode, hpass]
  rfl

/-- **A request is sent to the host its mode was chosen for** iff the readings of its host agree,
provided it reaches a pipeline. -/
theorem sameHost_iff (env : Access.Env) (state : AppState) (connection : Connection)
    (request : InnerRequest) (h : NoMode connection request) :
    (∀ mode forward, routeInterceptedRequest env state connection request = .sent mode forward →
        SameHost env state connection request mode forward) ↔
      (Reaches env state connection request → Agree connection request) := by
  constructor
  · intro hsame hreach
    obtain ⟨mode, forward, hsent⟩ := (reaches_iff h).mp hreach
    rw [← sentHost_eq_iff]
    have hhost := (sent_cases h hsent).2.2.1
    exact hhost.symm.trans (hsame mode forward hsent).host
  · intro hagree mode forward hsent
    have hreach := (reaches_iff h).mpr ⟨mode, forward, hsent⟩
    exact sameHost_of_eq h hsent ((sentHost_eq_iff connection request).mpr (hagree hreach))

/-! ## Two hosts -/

def openai : Text := "api.openai.com".toList

def anthropic : Text := "api.anthropic.com".toList

/-- The gateway asks for keys, and has its own accounts at one provider. -/
def sampleState : AppState where
  providerIdForUrl host _ :=
    if host = openai then some "openai" else if host = anthropic then some "anthropic" else none
  proxyProviderModes := [("anthropic", .passthrough), ("openai", .switch)]
  defaultMode := .route
  apiKeyEnabled := true
  access := Access.after Access.sampleEnv [Access.sampleCall]
  isDefaultInterceptHost host _ := host = openai || host = anthropic
  identify _ _ := (none, none)
  rewriteTarget _ _ _ := none

def sampleConnection (host : Text) : Connection := ⟨host, 443, none, "127.0.0.1:8080"⟩

/-- A request in absolute form, whose `Host` header names another provider. -/
def twoHosts : InnerRequest where
  method := "POST"
  authority := some (openai, none)
  path := "/v1/responses".toList
  pathAndQuery := "/v1/responses".toList
  headers := [("host", .ofText "api.anthropic.com")]
  trimmed text h := by
    have hhost : hostHeader [("host", .ofText "api.anthropic.com")] = some anthropic := by
      decide +kernel
    obtain rfl := Option.some.inj (hhost.symm.trans h)
    decide +kernel

/-- It has no key, and is sent in the mode passthrough to a provider of the mode switch. -/
theorem sent_without_key :
    NoMode (sampleConnection anthropic) twoHosts ∧
      hostMode sampleState openai twoHosts.pathAndQuery = .switch ∧
      authenticateManaged Access.sampleEnv sampleState twoHosts.headers = .error .missing ∧
      ∃ forward,
        routeInterceptedRequest Access.sampleEnv sampleState (sampleConnection anthropic)
            twoHosts = .sent .passthrough forward ∧
          forward.url.host = openai ∧
          ¬ SameHost Access.sampleEnv sampleState (sampleConnection anthropic) twoHosts
            .passthrough forward := by
  have hpolicy : hostMode sampleState openai twoHosts.pathAndQuery = .switch := by decide +kernel
  have hchosen : hostMode sampleState
      (chosenHost (sampleConnection anthropic) twoHosts) twoHosts.pathAndQuery = .passthrough := by
    decide +kernel
  have hnone : NoMode (sampleConnection anthropic) twoHosts := ⟨by decide +kernel, rfl⟩
  have hreach : Reaches Access.sampleEnv sampleState (sampleConnection anthropic) twoHosts :=
    ⟨by decide +kernel, by rw [hchosen]; trivial⟩
  obtain ⟨mode, forward, hsent⟩ := (reaches_iff hnone).mp hreach
  obtain ⟨-, hmode, hhost, -⟩ := sent_cases hnone hsent
  rw [hchosen] at hmode
  obtain rfl : mode = .passthrough := by cases mode <;> trivial
  refine ⟨hnone, hpolicy, by decide +kernel, forward, hsent, hhost, fun hsame => ?_⟩
  have hpass := hsame.chosen
  rw [hhost] at hpass
  exact absurd (hpolicy.symm.trans hpass) nofun

/-- A request with a key, a port and one host. -/
def oneHost : InnerRequest where
  method := "POST"
  authority := none
  path := "/v1/responses".toList
  pathAndQuery := "/v1/responses".toList
  headers := [("host", .ofText "api.openai.com:443"), ("x-api-key", .ofText Access.sampleToken)]
  trimmed text h := by
    have hhost : hostHeader [("host", .ofText "api.openai.com:443"),
        ("x-api-key", .ofText Access.sampleToken)] = some "api.openai.com:443".toList := by
      decide +kernel
    obtain rfl := Option.some.inj (hhost.symm.trans h)
    decide +kernel

theorem noMode_oneHost : NoMode (sampleConnection openai) oneHost := ⟨by decide +kernel, rfl⟩

theorem agree_oneHost : Agree (sampleConnection openai) oneHost :=
  (sentHost_eq_iff _ _).mp (by decide +kernel)

theorem sameHost_oneHost :
    ∃ mode forward,
      routeInterceptedRequest Access.sampleEnv sampleState (sampleConnection openai) oneHost =
          .sent mode forward ∧
        SameHost Access.sampleEnv sampleState (sampleConnection openai) oneHost mode forward := by
  have hmode : hostMode sampleState (chosenHost (sampleConnection openai) oneHost)
      oneHost.pathAndQuery = .switch := by decide +kernel
  have hauth : (authenticateManaged Access.sampleEnv sampleState oneHost.headers).isOk = true := by
    decide +kernel
  have hreach : Reaches Access.sampleEnv sampleState (sampleConnection openai) oneHost :=
    ⟨by decide +kernel, by
      rw [hmode]
      exact ⟨fun _ => Except.exists_eq_ok hauth, by decide +kernel⟩⟩
  obtain ⟨mode, forward, hsent⟩ := (reaches_iff noMode_oneHost).mp hreach
  exact ⟨mode, forward, hsent,
    (sameHost_iff Access.sampleEnv sampleState (sampleConnection openai) oneHost noMode_oneHost).mpr
      (fun _ => agree_oneHost) mode forward hsent⟩

end Tokn.Router.LegacyProxy
