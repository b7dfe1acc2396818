import Tokn.Lib.Dimension
import Tokn.Policy.DnsName
import Tokn.Policy.Topology

/-!
# What host patterns cover

`HostPattern::subsumes` against the hosts themselves, those that `CanonicalHost::from_str` makes of
some text.

**Theorem (`subsumes_spec`).** A selector of hosts, a pattern or none, that covers another one
matches all hosts that the other one matches. One that matches all hosts of another one, which
matches some host, covers it.

For the converse, a suffix that some host is below has room for a label of one character: two such
hosts are more than an exact pattern matches, and the suffix of a pattern that matches them ends
where theirs does (`suffix_of_below`).
-/

namespace Tokn.Policy

open Ascii (lower)

/-- Made by `from_str`. -/
def CanonicalHost.IsHost (ip : IpSyntax) (host : CanonicalHost) : Prop :=
  ∃ raw, CanonicalHost.fromStr ip raw = .ok host

/-- Hosts of a selector: a pattern, or no constraint. -/
def selects (selector : Option HostPattern) (host : CanonicalHost) : Bool :=
  Dimension.atomAdmits HostPattern.matches selector host

/-- The first selector covers the second. -/
def covers (covering covered : Option HostPattern) : Bool :=
  Dimension.subsumes HostPattern.subsumes covering.toList covered.toList

theorem covers_pattern (a b : HostPattern) : covers (some a) (some b) = a.subsumes b := by
  simp [covers, Dimension.subsumes]

/-! ## Hosts below a suffix -/

/-- The host of one character below a suffix. -/
def below (c : Char) (suffix : List Char) : CanonicalHost := ⟨c :: '.' :: suffix, .dns⟩

section

variable {ip : IpSyntax} (hip : ip.Lawful)

include hip

/-- The text of a DNS host is a name. -/
theorem dnsName_of_isHost {value : List Char} (h : CanonicalHost.IsHost ip ⟨value, .dns⟩) :
    DnsName value := by
  obtain ⟨raw, hraw⟩ := h
  exact ((fromStr_dns_iff hip).mp ⟨host_roundTrip hip hraw, rfl⟩).2

theorem isHost_of_dnsName {value : List Char} (h : DnsName value) (hlower : lower value = value) :
    CanonicalHost.IsHost ip ⟨value, .dns⟩ := by
  refine ⟨value, ((fromStr_dns_iff hip).mpr ⟨?_, h⟩).1⟩
  rw [hlower]

/-- The text of a DNS host is in lower case. -/
theorem lower_of_isHost {value : List Char} (h : CanonicalHost.IsHost ip ⟨value, .dns⟩) :
    lower value = value := by
  obtain ⟨raw, hraw⟩ := h
  have hvalue : value = lower raw :=
    congrArg CanonicalHost.value ((fromStr_dns_iff hip).mp ⟨hraw, rfl⟩).1
  rw [hvalue]
  exact Ascii.lower_lower raw

omit hip in
theorem labels_suffix {labels suffix : List Char} (h : DnsName (labels ++ '.' :: suffix)) :
    ∀ label ∈ suffix.splitOn '.', validDnsLabel label = true := by
  intro label hlabel
  refine h.labels label ?_
  rw [splitOn_subdomain]
  exact List.mem_append_right _ hlabel

/-- **Room for a label of one character.** -/
theorem isHost_below {labels suffix : List Char} (hne : labels ≠ [])
    (h : CanonicalHost.IsHost ip ⟨labels ++ '.' :: suffix, .dns⟩) {c : Char}
    (hc : validDnsLabel [c] = true) (hlower : c.toLower = c) (hdot : c ≠ '.') :
    CanonicalHost.IsHost ip (below c suffix) := by
  have hname := dnsName_of_isHost hip h
  have hsplit : (c :: '.' :: suffix).splitOn '.' = [c] :: suffix.splitOn '.' := by
    rw [← List.singleton_append, splitOn_subdomain, List.splitOn_cons_eq_if_modifyHead,
      if_neg (by simpa using hdot)]
    rfl
  have htop : topLevel (c :: '.' :: suffix) = topLevel (labels ++ '.' :: suffix) := by
    rw [← List.singleton_append, topLevel_subdomain, topLevel_subdomain]
  apply isHost_of_dnsName hip
  · refine ⟨?_, ?_, ?_, ?_⟩
    · have hlength := hname.length
      have hpos := List.length_pos_iff.mpr hne
      simp only [List.length_append, List.length_cons] at hlength ⊢
      omega
    · rw [hsplit]
      simpa [hc] using labels_suffix hname
    · rw [htop]
      exact hname.digits
    · rw [htop]
      exact hname.number
  · have hvalue := lower_of_isHost hip h
    simp only [lower, List.map_append, List.map_cons] at hvalue ⊢
    have hsuffix := (List.append_inj hvalue (by simp)).2
    rw [hlower, hsuffix]

omit hip in
/-- A suffix of a host of one character below another suffix is that one or a suffix of it. -/
theorem suffix_of_below {c : Char} {labels left right : List Char}
    (hvalid : ∀ label ∈ right.splitOn '.', validDnsLabel label = true) (hne : labels ≠ [])
    (h : c :: '.' :: right = labels ++ '.' :: left) :
    left = right ∨ ∃ labels', labels' ≠ [] ∧ right = labels' ++ '.' :: left := by
  cases labels with
  | nil => exact absurd rfl hne
  | cons d labels =>
    have hrest : '.' :: right = labels ++ '.' :: left := (List.cons.inj h).2
    cases labels with
    | nil => exact Or.inl (List.cons.inj hrest).2.symm
    | cons e labels =>
      have hright : right = labels ++ '.' :: left := (List.cons.inj hrest).2
      refine Or.inr ⟨labels, ?_, hright⟩
      rintro rfl
      refine ne_nil_of_validDnsLabel (hvalid [] ?_) rfl
      rw [hright, splitOn_subdomain]
      simp

/-! ## Covering -/

omit hip in
theorem matches_below {c : Char} {suffix : CanonicalHost} (hdns : suffix.kind = .dns) :
    (HostPattern.subdomainsOf suffix).matches (below c suffix.value) = true :=
  CanonicalHost.isStrictSubdomainOf_iff.mpr ⟨rfl, hdns, [c], by simp, rfl⟩

/-- **A pattern that matches all hosts of a suffix covers it.** -/
theorem subsumes_subdomainsOf {a : HostPattern} {suffix host : CanonicalHost}
    (hhost : host.IsHost ip) (hmatch : (HostPattern.subdomainsOf suffix).matches host = true)
    (h : ∀ host : CanonicalHost, host.IsHost ip →
      (HostPattern.subdomainsOf suffix).matches host = true → a.matches host = true) :
    a.subsumes (.subdomainsOf suffix) = true := by
  obtain ⟨value, kind⟩ := host
  obtain ⟨rfl, hdns, labels, hne, rfl⟩ := CanonicalHost.isStrictSubdomainOf_iff.mp hmatch
  have hfirst := h _ (@isHost_below ip hip _ _ hne hhost 'a' (by decide) (by decide) (by decide))
    (matches_below hdns)
  have hsecond := h _ (@isHost_below ip hip _ _ hne hhost 'b' (by decide) (by decide) (by decide))
    (matches_below hdns)
  cases a with
  | exact expected =>
    have heq := (of_decide_eq_true hfirst).trans (of_decide_eq_true hsecond).symm
    cases heq
  | subdomainsOf left =>
    obtain ⟨-, hleft, labels', hne', heq⟩ := CanonicalHost.isStrictSubdomainOf_iff.mp hfirst
    have hvalid := labels_suffix (dnsName_of_isHost hip hhost)
    rw [HostPattern.subsumes, Bool.or_eq_true, decide_eq_true_eq]
    rcases suffix_of_below hvalid hne' heq with hsame | ⟨labels'', hne'', hbelow⟩
    · left
      cases left
      cases suffix
      simp_all
    · right
      exact CanonicalHost.isStrictSubdomainOf_iff.mpr ⟨hdns, hleft, labels'', hne'', hbelow⟩

theorem subsumes_of_matches {a b : HostPattern}
    (hsome : ∃ host : CanonicalHost, host.IsHost ip ∧ b.matches host = true)
    (h : ∀ host : CanonicalHost, host.IsHost ip → b.matches host = true → a.matches host = true) :
    a.subsumes b = true := by
  obtain ⟨host, hhost, hmatch⟩ := hsome
  cases b with
  | exact expected =>
    have heq : host = expected := of_decide_eq_true hmatch
    subst heq
    have ha := h host hhost hmatch
    cases a with
    | exact left => simpa [HostPattern.matches, HostPattern.subsumes, eq_comm] using ha
    | subdomainsOf suffix => exact ha
  | subdomainsOf suffix => exact subsumes_subdomainsOf hip hhost hmatch h

/-- No pattern matches all hosts. -/
theorem exists_not_matches (a : HostPattern) :
    ∃ host : CanonicalHost, host.IsHost ip ∧ a.matches host = false := by
  have hfirst : CanonicalHost.IsHost ip ⟨['a'], .dns⟩ :=
    isHost_of_dnsName hip (validateDnsName_iff.mp (by rfl)) (by decide)
  have hsecond : CanonicalHost.IsHost ip ⟨['b'], .dns⟩ :=
    isHost_of_dnsName hip (validateDnsName_iff.mp (by rfl)) (by decide)
  by_cases h : a.matches ⟨['a'], .dns⟩ = true
  · cases a with
    | exact expected =>
      rw [← of_decide_eq_true h]
      exact ⟨_, hsecond, by decide⟩
    | subdomainsOf suffix =>
      obtain ⟨-, -, labels, hne, heq⟩ := CanonicalHost.isStrictSubdomainOf_iff.mp h
      have hdot : '.' ∈ labels ++ '.' :: suffix.value := by simp
      rw [← heq] at hdot
      exact absurd hdot (by decide)
  · exact ⟨_, hfirst, Bool.eq_false_iff.mpr h⟩

/-- **What covers a selector.** Whatever it matches is matched, and what matches it all covers it. -/
theorem subsumes_spec :
    (∀ a b : HostPattern, covers (some a) (some b) = a.subsumes b) ∧
    (∀ a b : Option HostPattern, covers a b = true →
      ∀ host : CanonicalHost, selects b host = true → selects a host = true) ∧
    ∀ a b : Option HostPattern,
      (∃ host : CanonicalHost, host.IsHost ip ∧ selects b host = true) →
      (∀ host : CanonicalHost, host.IsHost ip → selects b host = true → selects a host = true) →
      covers a b = true := by
  refine ⟨covers_pattern, fun a b h host hb => ?_, fun a b hsome hall => ?_⟩
  · cases a with
    | none => rfl
    | some a =>
      cases b with
      | none => cases h
      | some b => exact HostPattern.matches_of_subsumes (covers_pattern a b ▸ h) hb
  · cases a with
    | none => rfl
    | some a =>
      cases b with
      | none =>
        obtain ⟨host, hhost, hnot⟩ := exists_not_matches hip a
        exact absurd (hall host hhost rfl) (Bool.eq_false_iff.mp hnot)
      | some b =>
        rw [covers_pattern]
        exact subsumes_of_matches hip hsome hall

end

/-- A suffix and a host below it. -/
theorem subsumes_spec_sample :
    covers (some (.subdomainsOf ⟨"example.com".toList, .dns⟩))
      (some (.exact ⟨"api.example.com".toList, .dns⟩)) = true := by
  refine (subsumes_spec loopbackSyntax_lawful).2.2 _ _ ⟨⟨"api.example.com".toList, .dns⟩, ?_, ?_⟩
    fun host _ hexact => ?_
  · exact ⟨"API.example.com".toList, by rfl⟩
  · decide
  · have hhost : host = ⟨"api.example.com".toList, .dns⟩ := of_decide_eq_true hexact
    rw [hhost]
    decide

end Tokn.Policy
