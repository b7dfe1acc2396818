import Mathlib.Data.List.TakeWhile
import Tokn.Config.Compiled
import Tokn.Legacy.Projection
import Tokn.Policy.HostText
import Tokn.Router.Matching

/-!
# The hosts that are intercepted

The legacy proxy intercepts port 443 of the hosts of its list, by their text. Its projection
intercepts every port of the hosts that the trimmed texts name. `connectAction_eq_iff` says when the
two do the same with a CONNECT.
-/

namespace Tokn.Legacy

open Tokn.Config
open Tokn.Policy
open Tokn.Router

/-! ## Texts of hosts -/

variable {text : Text} {config : ProxyModeConfig}

/-- A text in lower case names a host that is not IPv6 iff it is the text of the host. -/
theorem fromStr_iff_of_lower {ip : IpSyntax} (hip : ip.Lawful) (hv4 : ip.DottedDecimal) {raw : Text}
    {host : CanonicalHost} (h : CanonicalHost.fromStr ip raw = .ok host) (h6 : host.isIpv6 = false)
    (hlower : Ascii.lower text = text) :
    CanonicalHost.fromStr ip text = .ok host ↔ text = host.value := by
  constructor
  · intro htext
    have hcolon := (chars_of_not_isIpv6 hip htext (Bool.eq_false_iff.mp h6)).2.2
    rw [value_eq_lower hip hv4 htext hcolon, hlower]
  · rintro rfl
    exact host_roundTrip hip h

theorem canonicalProxyHost_eq_ok {host : String} :
    canonicalProxyHost text = .ok host ↔
      host.toList = Ascii.lower (Str.trimChars text) ∧ '*' ∉ host.toList := by
  rw [canonicalProxyHost]
  by_cases hstar : '*' ∈ Ascii.lower (Str.trimChars text)
  · rw [if_pos (by simpa using hstar)]
    exact iff_of_false nofun fun h => h.2 (h.1 ▸ hstar)
  · rw [if_neg (by simpa using hstar), Except.ok.injEq]
    constructor
    · rintro rfl
      rw [String.toList_ofList]
      exact ⟨rfl, hstar⟩
    · rintro ⟨h, -⟩
      rw [← h, String.ofList_toList]

theorem lower_of_canonicalProxyHost {host : String} (h : canonicalProxyHost text = .ok host) :
    Ascii.lower host.toList = host.toList := by
  rw [(canonicalProxyHost_eq_ok.mp h).1, Ascii.lower_lower]

/-! ## Named hosts -/

/-- A text of the list is the host in some letter case. -/
def Named (texts : List Text) (host : Text) : Prop := ∃ text ∈ texts, Ascii.lower text = host

/-- A text of the list is the host, with white space around it. -/
def Padded (texts : List Text) (host : Text) : Prop :=
  ∃ text ∈ texts, Ascii.lower (Str.trimChars text) = host ∧ Ascii.lower text ≠ host

/-- A text of the list is the host, with or without white space around it. -/
def NamedTrimmed (texts : List Text) (host : Text) : Prop :=
  ∃ text ∈ texts, Ascii.lower (Str.trimChars text) = host

/-- The texts of the configuration are taken for hosts as they are. -/
def interceptTexts (config : ProxyModeConfig) : List Text :=
  defaultInterceptHosts ++ config.interceptHosts

theorem isWhitespace_toLower (c : Char) : Str.isWhitespace c.toLower = Str.isWhitespace c := by
  by_cases hupper : 65 ≤ c.toNat ∧ c.toNat ≤ 90
  · simp only [Str.isWhitespace, Ascii.toNat_toLower, if_pos hupper]
    rw [Bool.eq_iff_iff]
    simp only [Bool.or_eq_true, Bool.and_eq_true, decide_eq_true_eq, beq_iff_eq]
    omega
  · simp only [Str.isWhitespace, Ascii.toNat_toLower, if_neg hupper]

theorem lower_trimChars_of_named {texts : List Text} {host : Text} (h : PlainText host)
    (hnamed : Named texts host) : NamedTrimmed texts host := by
  obtain ⟨text, hmem, rfl⟩ := hnamed
  refine ⟨text, hmem, ?_⟩
  have hplain : ∀ c ∈ text, Str.isWhitespace c = false := by
    intro c hc
    rw [← isWhitespace_toLower]
    exact isWhitespace_of_plain (h.chars c.toLower (List.mem_map_of_mem hc))
  rw [Str.trimChars_eq_self (fun c hc => hplain c (List.mem_of_head? hc))
    fun c hc => hplain c (List.mem_of_getLast? hc)]

theorem namedTrimmed_iff {texts : List Text} {host : Text} (h : PlainText host) :
    NamedTrimmed texts host ↔ Named texts host ∨ Padded texts host := by
  constructor
  · rintro ⟨text, hmem, htrim⟩
    by_cases heq : Ascii.lower text = host
    · exact Or.inl ⟨text, hmem, heq⟩
    · exact Or.inr ⟨text, hmem, htrim, heq⟩
  · rintro (hnamed | ⟨text, hmem, htrim, -⟩)
    · exact lower_trimChars_of_named h hnamed
    · exact ⟨text, hmem, htrim⟩

/-! ## The two proxies -/

theorem lower_defaultInterceptHosts :
    ∀ host ∈ defaultInterceptHosts, Ascii.lower host = host := by
  decide

/-- The legacy proxy. -/
theorem shouldIntercept_iff {host : Text} (h : PlainText host) :
    shouldIntercept config host = true ↔
      Named (interceptTexts config) host ∧ ¬ Named config.passthroughHosts host := by
  rw [shouldIntercept, h.lower, List.contains_iff_mem, hostPolicy, List.mem_filter,
    Bool.not_eq_true', ← Bool.not_eq_true, List.contains_iff_mem, List.mem_map]
  refine and_congr_left fun _ => ?_
  rw [List.mem_append, List.mem_map, Named, interceptTexts]
  constructor
  · rintro (hmem | ⟨text, hmem, htext⟩)
    · exact ⟨host, List.mem_append_left _ hmem, h.lower⟩
    · exact ⟨text, List.mem_append_right _ hmem, htext⟩
  · rintro ⟨text, hmem, htext⟩
    rcases List.mem_append.mp hmem with hmem | hmem
    · rw [lower_defaultInterceptHosts text hmem] at htext
      exact Or.inl (htext ▸ hmem)
    · exact Or.inr ⟨text, hmem, htext⟩

/-- The hosts that the projection intercepts. -/
theorem mem_projectedInterceptHosts {options : ForwardProxyOptions} {hosts : List String}
    (h : projectedInterceptHosts options config = .ok hosts) (host : String) :
    host ∈ hosts ↔
      (∃ text ∈ options.defaultInterceptHosts ++ config.interceptHosts,
        canonicalProxyHost text = .ok host) ∧
        ¬ ∃ text ∈ config.passthroughHosts, canonicalProxyHost text = .ok host := by
  obtain ⟨kept, hkept, h⟩ := Except.bind_eq_ok.mp h
  obtain ⟨removed, hremoved, h⟩ := Except.bind_eq_ok.mp h
  cases h
  have hmem : ∀ {texts : List Text} {names : List String},
      texts.mapM canonicalProxyHost = .ok names →
        (host ∈ names ↔ ∃ text ∈ texts, canonicalProxyHost text = .ok host) := by
    intro texts names hnames
    induction Except.mapM_eq_ok.mp hnames with
    | nil => exact iff_of_false (nofun) fun ⟨_, h, _⟩ => nomatch h
    | @cons text name texts names hname hrest ih =>
      rw [List.mem_cons, List.exists_mem_cons_iff, hname, ih (Except.mapM_eq_ok.mpr hrest),
        Except.ok.injEq, eq_comm]
  rw [List.mem_filter, BTreeMap.mem_keys_extend_nil, List.map_map, Function.comp_def, List.map_id',
    hmem hkept, Bool.not_eq_true', ← Bool.not_eq_true, List.contains_iff_mem, hmem hremoved]

/-! ## The CONNECT rule -/

theorem compileConnectMatch_ok {env : Syntax} {raw : RawConnectRule} {matcher : ConnectMatch}
    (h : compileConnectMatch env raw = .ok matcher) :
    compileHosts env raw.hosts s!"connect_rules.{raw.id}.hosts" = .ok matcher.hosts ∧
      compilePorts raw.ports raw.id = .ok matcher.ports := by
  obtain ⟨hosts, hhosts, h⟩ := Except.bind_eq_ok.mp h
  obtain ⟨ports, hports, h⟩ := Except.bind_eq_ok.mp h
  rw [ConnectMatch.new] at h
  split at h
  · rename_i matcher' hnew
    cases h
    split_ifs at hnew
    cases hnew
    exact ⟨hhosts, hports⟩
  · cases h

/-- The projected proxy intercepts the hosts of its rule, on every port. -/
theorem connectAction_interceptRules {env : Syntax} {hosts : List String}
    {listener : ForwardProxyListenerPlan env.SocketAddr}
    (hrules : List.Forall₂ (ConnectRuleMade env)
      ((interceptRules hosts).filter fun rule => rule.listener = FORWARD_PROXY_LISTENER_ID)
      listener.connectRules)
    (hdefault : listener.defaultConnectAction = .tunnel) (hstar : ∀ raw ∈ hosts, '*' ∉ raw.toList)
    (host : CanonicalHost) (port : UInt16) :
    connectAction listener host port = .intercept ∧
        (∃ raw ∈ hosts, CanonicalHost.fromStr env.toIpSyntax raw.toList = .ok host) ∨
      connectAction listener host port = .tunnel ∧
        ¬ ∃ raw ∈ hosts, CanonicalHost.fromStr env.toIpSyntax raw.toList = .ok host := by
  rw [connectAction, hdefault]
  cases hosts with
  | nil =>
    have hnil := List.forall₂_nil_left_iff.mp (show List.Forall₂ _ [] listener.connectRules from hrules)
    rw [hnil]
    exact Or.inr ⟨rfl, fun ⟨_, h, _⟩ => nomatch h⟩
  | cons raw raws =>
    have hone : (interceptRules (raw :: raws)).filter (fun rule =>
        decide (rule.listener = FORWARD_PROXY_LISTENER_ID)) = interceptRules (raw :: raws) := rfl
    rw [hone] at hrules
    obtain ⟨plan, rest, ⟨hmatch, haction⟩, hrest, hplans⟩ := List.forall₂_cons_left_iff.mp hrules
    obtain rfl := List.forall₂_nil_left_iff.mp hrest
    obtain ⟨hpatterns, hports⟩ := compileConnectMatch_ok hmatch
    have hports : plan.matcher.ports = [] := (Except.ok.inj hports).symm
    have hiff := exists_matches_iff hpatterns hstar host
    have hne : plan.matcher.hosts.isEmpty = false := by
      cases hempty : plan.matcher.hosts with
      | nil =>
        have hall := compileHosts_ok hpatterns
        rw [hempty] at hall
        cases hall
      | cons _ _ => rfl
    have hmatches : connectMatches plan.matcher host port = true ↔
        ∃ raw' ∈ raw :: raws, CanonicalHost.fromStr env.toIpSyntax raw'.toList = .ok host := by
      rw [connectMatches, hne, hports, ← hiff, ← List.any_eq_true]
      simp
    rw [hplans]
    by_cases hfind : connectMatches plan.matcher host port = true
    · have hsome : [plan].find? (fun rule => connectMatches rule.matcher host port) = some plan :=
        List.find?_cons_of_pos hfind
      rw [hsome]
      exact Or.inl ⟨haction, hmatches.mp hfind⟩
    · have hnone : [plan].find? (fun rule => connectMatches rule.matcher host port) = none :=
        List.find?_cons_of_neg hfind
      rw [hnone]
      exact Or.inr ⟨rfl, fun h => hfind (hmatches.mpr h)⟩

/-! ## When the two agree -/

/-- The host is spelled alike in the lists: without white space around it, where that matters. -/
def SpelledAlike (config : ProxyModeConfig) (host : Text) : Prop :=
  Named config.passthroughHosts host ∨
    Padded config.passthroughHosts host ∧ ¬ Named (interceptTexts config) host ∨
    ¬ Padded config.passthroughHosts host ∧
      (Padded (interceptTexts config) host → Named (interceptTexts config) host)

/-- What is asked of the configuration, the host and the port for the two to do the same. -/
def ConnectAgrees (config : ProxyModeConfig) (host : Text) (port : UInt16) : Prop :=
  if port = 443 then SpelledAlike config host
  else NamedTrimmed (interceptTexts config) host → NamedTrimmed config.passthroughHosts host

/-- No text that a valid configuration intercepts has a colon. -/
theorem not_mem_colon (h : config.validate = .ok ()) (hmem : text ∈ interceptTexts config) :
    ':' ∉ Str.trimChars text := by
  rcases List.mem_append.mp hmem with hmem | hmem
  · have hdefault : ∀ text ∈ defaultInterceptHosts, ':' ∉ Str.trimChars text := by decide
    exact hdefault text hmem
  · obtain ⟨_, hintercept, -⟩ := Except.bind_eq_ok.mp h
    have hvalid := Except.rejectIf_eq_ok.mp (Except.forM_eq_ok.mp hintercept text hmem)
    rw [Bool.not_eq_false', isProxyHost, Bool.and_eq_true] at hvalid
    intro hcolon
    exact absurd (List.all_eq_true.mp hvalid.2 ':' hcolon) (by decide)

theorem mem_trimChars {c : Char} (h : c ∈ text) (hc : Str.isWhitespace c = false) :
    c ∈ Str.trimChars text := by
  have hdrop : ∀ {l : Text}, c ∈ l → c ∈ Str.trimStartChars l := by
    intro l hl
    rw [← List.takeWhile_append_dropWhile (p := Str.isWhitespace) (l := l)] at hl
    rcases List.mem_append.mp hl with hl | hl
    · rw [List.mem_takeWhile_imp hl] at hc
      cases hc
    · exact hl
  exact List.mem_reverse.mpr (hdrop (List.mem_reverse.mpr (hdrop h)))

section

variable {ip : IpSyntax} (hip : ip.Lawful) (hv4 : ip.DottedDecimal) {legacy : LegacyConfig}
  (hvalid : legacy.proxyMode.validate = .ok ()) {options : ForwardProxyOptions}
  (hoptions : options.defaultInterceptHosts = defaultInterceptHosts) {hosts : List String}
  (hhosts : projectedInterceptHosts options legacy.proxyMode = .ok hosts) {raw : Text}
  {host : CanonicalHost} (hhost : CanonicalHost.fromStr ip raw = .ok host)

include hip hvalid hhost

/-- The legacy proxy tunnels to IPv6 addresses. -/
theorem shouldIntercept_isIpv6 (h6 : host.isIpv6 = true) :
    shouldIntercept legacy.proxyMode host.value = false := by
  rw [← Bool.not_eq_true, shouldIntercept, List.contains_iff_mem, hostPolicy, List.mem_filter]
  rintro ⟨hmem, -⟩
  have hcolon : ':' ∈ Ascii.lower host.value :=
    List.mem_map_of_mem (f := Char.toLower) (colon_mem_of_isIpv6 hip (host_roundTrip hip hhost) h6)
  obtain ⟨text, htext, heq⟩ : ∃ text ∈ interceptTexts legacy.proxyMode,
      Ascii.lower text = Ascii.lower host.value := by
    rcases List.mem_append.mp hmem with hmem | hmem
    · refine ⟨_, List.mem_append_left _ hmem, ?_⟩
      rw [Ascii.lower_lower]
    · obtain ⟨text, htext, heq⟩ := List.mem_map.mp hmem
      exact ⟨text, List.mem_append_right _ htext, heq⟩
  rw [← heq, Ascii.mem_lower (by decide)] at hcolon
  exact not_mem_colon hvalid htext (mem_trimChars hcolon (by decide))

omit hhost in
include hoptions hhosts in
/-- So does the projected one. -/
theorem not_exists_fromStr_isIpv6 (h6 : host.isIpv6 = true) :
    ¬ ∃ text ∈ hosts, CanonicalHost.fromStr ip text.toList = .ok host := by
  rintro ⟨name, hmem, hname⟩
  obtain ⟨⟨text, htext, hcanonical⟩, -⟩ := (mem_projectedInterceptHosts hhosts name).mp hmem
  rw [hoptions] at htext
  have hcolon := colon_mem_of_isIpv6 hip hname h6
  rw [(canonicalProxyHost_eq_ok.mp hcanonical).1, Ascii.mem_lower (by decide)] at hcolon
  exact not_mem_colon hvalid htext hcolon

omit hvalid in
include hv4 hoptions hhosts in
/-- The projected proxy intercepts the hosts that the trimmed texts name. -/
theorem exists_fromStr_iff (h6 : host.isIpv6 = false) :
    (∃ text ∈ hosts, CanonicalHost.fromStr ip text.toList = .ok host) ↔
      NamedTrimmed (interceptTexts legacy.proxyMode) host.value ∧
        ¬ NamedTrimmed legacy.proxyMode.passthroughHosts host.value := by
  have hplain := plainText_value hip hv4 hhost h6
  have hstar : '*' ∉ host.value := not_mem_of_plain hplain.chars rfl
  have hcanonical : ∀ text, canonicalProxyHost text = .ok (String.ofList host.value) ↔
      Ascii.lower (Str.trimChars text) = host.value := by
    intro text
    rw [canonicalProxyHost_eq_ok, String.toList_ofList, eq_comm]
    exact and_iff_left hstar
  have hname : (∃ text ∈ hosts, CanonicalHost.fromStr ip text.toList = .ok host) ↔
      String.ofList host.value ∈ hosts := by
    constructor
    · rintro ⟨name, hmem, hname⟩
      obtain ⟨⟨text, -, htext⟩, -⟩ := (mem_projectedInterceptHosts hhosts name).mp hmem
      have hlower := lower_of_canonicalProxyHost htext
      rw [← (fromStr_iff_of_lower hip hv4 hhost h6 hlower).mp hname, String.ofList_toList]
      exact hmem
    · intro hmem
      refine ⟨_, hmem, ?_⟩
      rw [String.toList_ofList]
      exact host_roundTrip hip hhost
  rw [hname, mem_projectedInterceptHosts hhosts, hoptions]
  simp only [hcanonical]
  rfl

omit hip hvalid hhost in
theorem legacyConnectAction_cases (legacy : LegacyConfig) (host : CanonicalHost) (port : UInt16) :
    legacyConnectAction legacy host port = .intercept ∧
        (port = 443 ∧ shouldIntercept legacy.proxyMode host.value = true) ∨
      legacyConnectAction legacy host port = .tunnel ∧
        ¬ (port = 443 ∧ shouldIntercept legacy.proxyMode host.value = true) := by
  rw [legacyConnectAction]
  by_cases h : port = 443 ∧ shouldIntercept legacy.proxyMode host.value = true
  · exact Or.inl ⟨if_pos (by simpa using h), h⟩
  · exact Or.inr ⟨if_neg (by simpa using h), h⟩

omit hhost in
/-- On an IPv6 address the two tunnel, and nothing is asked. -/
theorem connectAgrees_isIpv6 (hround : CanonicalHost.fromStr ip host.value = .ok host)
    (h6 : host.isIpv6 = true) (port : UInt16) :
    ConnectAgrees legacy.proxyMode host.value port := by
  have hcolon := colon_mem_of_isIpv6 hip hround h6
  have htrimmed : ¬ NamedTrimmed (interceptTexts legacy.proxyMode) host.value := by
    rintro ⟨text, hmem, heq⟩
    rw [← heq, Ascii.mem_lower (by decide)] at hcolon
    exact not_mem_colon hvalid hmem hcolon
  have hnamed : ¬ Named (interceptTexts legacy.proxyMode) host.value := by
    rintro ⟨text, hmem, heq⟩
    rw [← heq, Ascii.mem_lower (by decide)] at hcolon
    exact not_mem_colon hvalid hmem (mem_trimChars hcolon (by decide))
  rw [ConnectAgrees]
  by_cases hport : port = 443
  · rw [if_pos hport]
    by_cases hpadded : Padded legacy.proxyMode.passthroughHosts host.value
    · exact Or.inr (Or.inl ⟨hpadded, hnamed⟩)
    · refine Or.inr (Or.inr ⟨hpadded, fun ⟨text, hmem, heq, _⟩ => ?_⟩)
      exact absurd ⟨text, hmem, heq⟩ htrimmed
  · rw [if_neg hport]
    exact fun h => absurd h htrimmed

end

/-- Removing what is named, from what is named, with padded names and without. -/
theorem kept_iff {a a' p p' : Prop} :
    ((a ∨ a') ∧ ¬ (p ∨ p') ↔ a ∧ ¬ p) ↔ p ∨ p' ∧ ¬ a ∨ ¬ p' ∧ (a' → a) := by
  by_cases ha : a <;> by_cases hp : p <;> by_cases hp' : p' <;> simp [ha, hp, hp']

/-- **When the two proxies do the same with a CONNECT.** -/
theorem connectAction_eq_iff {env : Syntax} (hip : env.toIpSyntax.Lawful)
    (hv4 : env.toIpSyntax.DottedDecimal) {legacy : LegacyConfig}
    (hvalid : legacy.proxyMode.validate = .ok ()) {options : ForwardProxyOptions}
    (hoptions : options.defaultInterceptHosts = defaultInterceptHosts) {hosts : List String}
    (hhosts : projectedInterceptHosts options legacy.proxyMode = .ok hosts)
    {listener : ForwardProxyListenerPlan env.SocketAddr}
    (hrules : List.Forall₂ (ConnectRuleMade env)
      ((interceptRules hosts).filter fun rule => rule.listener = FORWARD_PROXY_LISTENER_ID)
      listener.connectRules)
    (hdefault : listener.defaultConnectAction = .tunnel) {raw : Text} {host : CanonicalHost}
    (hhost : CanonicalHost.fromStr env.toIpSyntax raw = .ok host) (port : UInt16) :
    connectAction listener host port = legacyConnectAction legacy host port ↔
      ConnectAgrees legacy.proxyMode host.value port := by
  have hstar : ∀ name ∈ hosts, '*' ∉ name.toList := by
    intro name hmem
    obtain ⟨⟨text, -, htext⟩, -⟩ := (mem_projectedInterceptHosts hhosts name).mp hmem
    exact (canonicalProxyHost_eq_ok.mp htext).2
  have hprojected := connectAction_interceptRules hrules hdefault hstar host port
  have hlegacy := legacyConnectAction_cases legacy host port
  have hagree : connectAction listener host port = legacyConnectAction legacy host port ↔
      ((∃ name ∈ hosts, CanonicalHost.fromStr env.toIpSyntax name.toList = .ok host) ↔
        port = 443 ∧ shouldIntercept legacy.proxyMode host.value = true) := by
    rcases hprojected with ⟨hp, hin⟩ | ⟨hp, hin⟩ <;> rcases hlegacy with ⟨hl, hon⟩ | ⟨hl, hon⟩
    · exact iff_of_true (hp.trans hl.symm) (iff_of_true hin hon)
    · exact iff_of_false (by rw [hp, hl]; nofun) fun h => hon (h.mp hin)
    · exact iff_of_false (by rw [hp, hl]; nofun) fun h => hin (h.mpr hon)
    · exact iff_of_true (hp.trans hl.symm) (iff_of_false hin hon)
  rw [hagree]
  cases h6 : host.isIpv6 with
  | true =>
    have hnone := not_exists_fromStr_isIpv6 hip hvalid hoptions hhosts h6
    have hoff := shouldIntercept_isIpv6 hip hvalid hhost h6
    refine iff_of_true (iff_of_false hnone fun h => ?_)
      (connectAgrees_isIpv6 hip hvalid (host_roundTrip hip hhost) h6 port)
    rw [hoff] at h
    exact Bool.false_ne_true h.2
  | false =>
    have hplain := plainText_value hip hv4 hhost h6
    rw [exists_fromStr_iff hip hv4 hoptions hhosts hhost h6, shouldIntercept_iff hplain,
      ConnectAgrees, SpelledAlike]
    by_cases hport : port = 443
    · rw [if_pos hport, namedTrimmed_iff hplain, namedTrimmed_iff hplain, and_iff_right hport]
      exact kept_iff
    · have hoff : ¬ (port = 443 ∧ Named (interceptTexts legacy.proxyMode) host.value ∧
          ¬ Named legacy.proxyMode.passthroughHosts host.value) := fun h => hport h.1
      rw [if_neg hport, iff_false_right hoff, not_and, not_not]

end Tokn.Legacy
