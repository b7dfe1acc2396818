import Mathlib.Data.List.TakeWhile
import Tokn.Lib.Ascii
import Tokn.Lib.BTreeMap
import Tokn.Lib.Str
import Tokn.Policy.HostText
import Tokn.Policy.Topology

/-!
# The registry of providers

`crates/accounts/src/registry.rs`, with the descriptors of the provider crates: which provider a URL
belongs to. A descriptor claims hosts, and on them the paths of its own; a host that one descriptor
alone claims is that descriptor's, unless the descriptor is for a part of the host.
-/

namespace Tokn.Accounts

open Tokn.Policy (Text)

/-! ## Descriptors -/

/-- A `ProviderDescriptor`, as far as the registry reads it. -/
structure ProviderDescriptor where
  id : String
  hosts : List Text
  matchesUrl : Text → Text → Bool

namespace ProviderDescriptor

def matchesHost (descriptor : ProviderDescriptor) (host : Text) : Bool :=
  descriptor.hosts.contains host

def copilotHosts : List Text := ["api.github.com".toList, "api.githubcopilot.com".toList]

def deepseekHosts : List Text := ["api.deepseek.com".toList]

def llamaCppHosts : List Text := ["localhost".toList, "127.0.0.1".toList, "::1".toList]

def openaiHost : Text := "api.openai.com".toList

def codexHost : Text := "chatgpt.com".toList

def opencodeHost : Text := "opencode.ai".toList

def zaiHost : Text := "api.z.ai".toList

def zhipuHost : Text := "open.bigmodel.cn".toList

def copilot : ProviderDescriptor where
  id := "github-copilot"
  hosts := copilotHosts
  matchesUrl host _ := copilotHosts.contains host

def deepseek : ProviderDescriptor where
  id := "deepseek"
  hosts := deepseekHosts
  matchesUrl host _ := deepseekHosts.contains host

def llamaCpp : ProviderDescriptor where
  id := "llama-cpp"
  hosts := llamaCppHosts
  matchesUrl host path := llamaCppHosts.contains host &&
    (path = [] || path = ['/'] || "/v1/".toList.isPrefixOf path)

def openai : ProviderDescriptor where
  id := "openai"
  hosts := [openaiHost]
  matchesUrl host _ := host = openaiHost

def codex : ProviderDescriptor where
  id := "codex"
  hosts := [codexHost]
  matchesUrl host path := host = codexHost && "/backend-api/codex".toList.isPrefixOf path

def opencode : ProviderDescriptor where
  id := "opencode-go"
  hosts := [opencodeHost]
  matchesUrl host path := host = opencodeHost &&
    (path = [] || path = "/zen/go/v1".toList || "/zen/go/v1/".toList.isPrefixOf path)

/-- The four descriptors of two hosts: each host has one for coding plans and one for the rest. -/
def ofPlan (id : String) (planHost : Text) (coding : Bool) : ProviderDescriptor where
  id := id
  hosts := [planHost]
  matchesUrl host path := host = planHost &&
    if coding then "/api/coding/paas/v4".toList.isPrefixOf path
    else path = [] || "/api/paas/v4".toList.isPrefixOf path

def zai : ProviderDescriptor := ofPlan "zai" zaiHost false

def zaiCodingPlan : ProviderDescriptor := ofPlan "zai-coding-plan" zaiHost true

def zhipuai : ProviderDescriptor := ofPlan "zhipuai" zhipuHost false

def zhipuaiCodingPlan : ProviderDescriptor := ofPlan "zhipuai-coding-plan" zhipuHost true

end ProviderDescriptor

def builtinDescriptors : List ProviderDescriptor :=
  [.copilot, .deepseek, .llamaCpp, .openai, .codex, .opencode, .zai, .zaiCodingPlan, .zhipuai,
    .zhipuaiCodingPlan]

/-- The descriptors by their ids. -/
abbrev Registry := BTreeMap String ProviderDescriptor

def Registry.builtin : Registry :=
  builtinDescriptors.foldl (fun registry descriptor => registry.insert descriptor.id descriptor) []

/-! ## Targets -/

/-- What the registry takes from the URL parser: the host and the path of a URL. -/
structure UrlSyntax where
  parse : Text → Option (Option Text × Text)

structure NormalizedTarget where
  host : Text
  path : Text
  deriving DecidableEq

/-- `trim`, `trim_end_matches('.')`, then lower case. -/
def normalizeHost (host : Text) : Text :=
  Ascii.lower (((Str.trimChars host).reverse.dropWhile (· = '.')).reverse)

/-- `split_once`, for a text. -/
def splitOnceText (separator : Text) : Text → Option (Text × Text)
  | [] => if separator = [] then some ([], []) else none
  | c :: rest =>
    if separator.isPrefixOf (c :: rest) then some ([], (c :: rest).drop separator.length)
    else (splitOnceText separator rest).map fun parts => (c :: parts.1, parts.2)

def stripPrefix (pre text : Text) : Option Text :=
  if pre.isPrefixOf text then some (text.drop pre.length) else none

/-- `normalize_target`, of a text that the URL parser makes no host of. -/
def targetOfText (raw : Text) : Option NormalizedTarget :=
  let withoutScheme := ((splitOnceText "://".toList raw).map Prod.snd).getD raw
  let authority := Str.trimChars (withoutScheme.takeWhile fun c => !"/?#".toList.contains c)
  if authority = [] then none
  else
    let path := (((stripPrefix authority withoutScheme).bind (stripPrefix ['/'])).map fun rest =>
      '/' :: rest.takeWhile fun c => !"?#".toList.contains c).getD []
    let withoutUserinfo := (authority.splitOn '@').getLast?.getD authority
    let host :=
      if withoutUserinfo.head? = some '[' then
        ((Ascii.splitOnce ']' withoutUserinfo).map fun parts => parts.1 ++ [']']).getD
          withoutUserinfo
      else ((Ascii.splitOnce ':' withoutUserinfo).map Prod.fst).getD withoutUserinfo
    if normalizeHost host = [] then none else some ⟨normalizeHost host, path⟩

def normalizeTarget (url : UrlSyntax) (raw : Text) : Option NormalizedTarget :=
  let raw := Str.trimChars raw
  if raw = [] then none
  else
    match url.parse raw with
    | some (some host, path) => some ⟨normalizeHost host, path⟩
    | _ => targetOfText raw

/-! ## Lookup -/

/-- The descriptor is the owner of a host that it alone claims. -/
def ownsHost (descriptor : ProviderDescriptor) (target : NormalizedTarget) : Bool :=
  target.path = [] || target.path = ['/'] || descriptor.matchesUrl target.host ['/']

/-- `provider_id_for_url`, for a target. -/
def Registry.providerIdFor (registry : Registry) (target : NormalizedTarget) : Option String :=
  let hostMatches := (registry.map Prod.snd).filter fun descriptor =>
    descriptor.matchesHost target.host
  match hostMatches.find? fun descriptor => descriptor.matchesUrl target.host target.path with
  | some descriptor => some descriptor.id
  | none =>
    match hostMatches with
    | [descriptor] => if ownsHost descriptor target then some descriptor.id else none
    | _ => none

def Registry.providerIdForUrl (registry : Registry) (url : UrlSyntax) (urlOrHost : Text) :
    Option String :=
  (normalizeTarget url urlOrHost).bind registry.providerIdFor

/-! ## Hosts with one owner -/

/-- The descriptor claims the path of the target, which is on its host. -/
def Claims (descriptor : ProviderDescriptor) (target : NormalizedTarget) : Prop :=
  descriptor.matchesUrl target.host target.path = true ∨ ownsHost descriptor target = true

instance (descriptor : ProviderDescriptor) (target : NormalizedTarget) :
    Decidable (Claims descriptor target) :=
  inferInstanceAs (Decidable (_ ∨ _))

/-- **On a host of one descriptor**, the URL is that provider's iff the descriptor claims its path,
and nobody's otherwise. -/
theorem Registry.providerIdFor_of_owner {registry : Registry} {target : NormalizedTarget}
    {descriptor : ProviderDescriptor}
    (h : ((registry.map Prod.snd).filter fun d => d.matchesHost target.host) = [descriptor]) :
    registry.providerIdFor target = if Claims descriptor target then some descriptor.id else none := by
  rw [providerIdFor, h]
  by_cases hurl : descriptor.matchesUrl target.host target.path = true
  · have hfind : [descriptor].find? (fun d => d.matchesUrl target.host target.path) =
        some descriptor := List.find?_cons_of_pos hurl
    have hclaims : Claims descriptor target := Or.inl hurl
    rw [hfind, if_pos hclaims]
  · have hfind : [descriptor].find? (fun d => d.matchesUrl target.host target.path) = none :=
      List.find?_cons_of_neg hurl
    rw [hfind]
    by_cases howns : ownsHost descriptor target = true
    · have hclaims : Claims descriptor target := Or.inr howns
      rw [if_pos hclaims]
      exact if_pos howns
    · have hclaims : ¬ Claims descriptor target := fun h => h.elim hurl howns
      rw [if_neg hclaims]
      exact if_neg howns

/-- A URL is a provider's only on a host of that provider. -/
theorem Registry.mem_of_providerIdFor {registry : Registry} {target : NormalizedTarget} {id : String}
    (h : registry.providerIdFor target = some id) :
    ∃ descriptor ∈ registry.map Prod.snd, descriptor.id = id ∧ target.host ∈ descriptor.hosts := by
  rw [providerIdFor] at h
  split at h
  · rename_i descriptor hfind
    obtain ⟨hmem, hhost⟩ := List.mem_filter.mp (List.mem_of_find?_eq_some hfind)
    exact ⟨descriptor, hmem, Option.some.inj h, List.contains_iff_mem.mp hhost⟩
  · split at h
    · rename_i descriptor hsingle
      split_ifs at h
      obtain ⟨hmem, hhost⟩ := List.mem_filter.mp (hsingle ▸ List.mem_singleton_self descriptor)
      exact ⟨descriptor, hmem, Option.some.inj h, List.contains_iff_mem.mp hhost⟩
    · cases h

end Tokn.Accounts

/-!
## The target of a URL with a canonical host

The registry finds the host of a URL again that was put together from a canonical host and a path
(`host_normalizeTarget`), whether or not the URL parser takes the text.
-/

namespace Tokn.Accounts

open Tokn.Policy

/-- What the URL parser says of the host of a URL: a canonical name or an IPv4 address is kept. -/
structure UrlSyntax.KeepsHost (url : UrlSyntax) (ip : IpSyntax) : Prop where
  host : ∀ raw host tail found path, CanonicalHost.fromStr ip raw = .ok host →
    host.isIpv6 = false →
    url.parse ("https://".toList ++ host.value ++ '/' :: tail) = some (some found, path) →
    found = host.value

theorem normalizeHost_of_plainText {host : Text} (h : PlainText host) : normalizeHost host = host := by
  have hdots : host.reverse.dropWhile (fun c => decide (c = '.')) = host.reverse := by
    refine List.dropWhile_eq_self_iff.mpr fun hne hdot => h.last ?_
    rw [← List.head?_reverse, List.head?_eq_getElem?, List.getElem?_eq_getElem hne]
    exact congrArg some (of_decide_eq_true hdot)
  rw [normalizeHost, h.trimChars, hdots, List.reverse_reverse, h.lower]

/-- The authority of a text of a URL is what stands before its path. -/
theorem targetOfText_of_plainText {host : Text} (h : PlainText host) (tail : Text) :
    ∃ path, targetOfText ("https://".toList ++ host ++ '/' :: tail) = some ⟨host, path⟩ := by
  have hscheme : splitOnceText "://".toList ("https://".toList ++ host ++ '/' :: tail) =
      some ("https".toList, host ++ '/' :: tail) := rfl
  have hauthority : (host ++ '/' :: tail).takeWhile (fun c => !"/?#".toList.contains c) = host := by
    have hnone : ∀ c ∈ host, (!"/?#".toList.contains c) = true := by
      intro c hc
      rw [Bool.not_eq_true', ← Bool.not_eq_true, List.contains_iff_mem]
      intro hmem
      have hplain := h.chars c hc
      fin_cases hmem <;> exact absurd hplain (by decide)
    rw [List.takeWhile_append_of_pos hnone]
    exact List.append_nil host
  have huserinfo : host.splitOn '@' = [host] := by
    refine List.splitOnP_eq_singleton fun c hc => beq_eq_false_iff_ne.mpr ?_
    rintro rfl
    exact not_mem_of_plain h.chars rfl hc
  have hbracket : host.head? ≠ some '[' := fun hhead =>
    not_mem_of_plain h.chars rfl (List.mem_of_head? hhead)
  unfold targetOfText
  simp only [hscheme, Option.map_some, Option.getD_some, hauthority, h.trimChars, if_neg h.ne_nil,
    huserinfo, List.getLast?_singleton, if_neg hbracket, Ascii.splitOnce_eq_none.mpr h.colon,
    Option.map_none, Option.getD_none, normalizeHost_of_plainText h]
  exact ⟨_, rfl⟩

/-- **The target of a URL with a canonical host** that is no IPv6 address is on that host. -/
theorem host_normalizeTarget {url : UrlSyntax} {ip : IpSyntax} (hip : ip.Lawful)
    (hv4 : ip.DottedDecimal) (hurl : url.KeepsHost ip) {raw : Text} {host : CanonicalHost}
    (h : CanonicalHost.fromStr ip raw = .ok host) (h6 : host.isIpv6 = false) {pathAndQuery : Text}
    (hpath : pathAndQuery.head? = some '/') :
    ∃ path, normalizeTarget url ("https://".toList ++ host.value ++ pathAndQuery) =
      some ⟨host.value, path⟩ := by
  have hplain := plainText_value hip hv4 h h6
  obtain ⟨tail, rfl⟩ := List.head?_eq_some_iff.mp hpath
  have hlast : ∀ c, ("https://".toList ++ host.value ++ ['/']).getLast? = some c →
      Str.isWhitespace c = false := by
    intro c hc
    rw [List.getLast?_concat] at hc
    obtain rfl := Option.some.inj hc
    decide
  have hhead : ∀ c, ("https://".toList ++ host.value ++ ['/']).head? = some c →
      Str.isWhitespace c = false := by
    intro c hc
    obtain rfl := Option.some.inj hc
    decide
  obtain ⟨tail', htrim⟩ := Str.exists_trimChars_append (by simp) hhead hlast tail
  rw [← List.append_cons, ← List.append_cons] at htrim
  unfold normalizeTarget
  simp only [htrim]
  rw [if_neg (by simp)]
  split
  · rename_i found path hparse
    rw [hurl.host raw host tail' found path h h6 hparse]
    exact ⟨path, by rw [normalizeHost_of_plainText hplain]⟩
  · exact targetOfText_of_plainText hplain tail'

end Tokn.Accounts
