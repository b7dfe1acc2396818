import Tokn.Policy.RoundTrip

/-!
# The text of a host

A text without colons names the host that it is in lower case. Besides what `IpSyntax.Lawful` says of
IP addresses, this takes that the four numbers of an IPv4 address are written in one way.
-/

namespace Tokn.Policy

open Ascii (lower)

/-- What the standard library says about the texts of IPv4 addresses: no leading zeros, and no dot at
the end. -/
structure IpSyntax.DottedDecimal (ip : IpSyntax) : Prop where
  print_parseV4 : ∀ text address, ip.parseV4 text = some address → ip.printV4 address = text
  last_parseV4 : ∀ text address, ip.parseV4 text = some address → text.getLast? ≠ some '.'

section

variable {ip : IpSyntax} (hip : ip.Lawful) (hv4 : ip.DottedDecimal)

include hip

variable {text : List Char}

theorem colon_mem_of_parseV6 {address : ip.Ipv6Addr} (h : ip.parseV6 text = some address) :
    ':' ∈ text := by
  have hcount := (hip.charsV6 text address h).1
  exact List.count_pos_iff.mp (by omega)

theorem lower_of_parseV4 {address : ip.Ipv4Addr} (h : ip.parseV4 text = some address) :
    lower text = text := by
  refine (List.map_congr_left fun c hc => ?_).trans (List.map_id _)
  have hnum : ¬ (65 ≤ c.toNat ∧ c.toNat ≤ 90) := by
    rcases (hip.charsV4 text address h).2 c hc with hdigit | rfl
    · rw [Ascii.isDigit_iff] at hdigit
      omega
    · decide
  rw [id_eq, ← Char.toNat_inj, Ascii.toNat_toLower, if_neg hnum]

/-- A host of IPv6 has colons, in every spelling. -/
theorem colon_mem_of_isIpv6 {host : CanonicalHost} (h : CanonicalHost.fromStr ip text = .ok host)
    (h6 : host.isIpv6 = true) : ':' ∈ text := by
  obtain ⟨address, -, hspells⟩ := ofIp_of_isIpv6 h h6
  rcases hspells with hV6 | ⟨inner, rfl, hV6⟩
  · exact colon_mem_of_parseV6 hip hV6
  · exact List.mem_append_left _ (List.mem_cons_of_mem _ (colon_mem_of_parseV6 hip hV6))

include hv4

/-- A text without colons is the text of its host, but for letter case. -/
theorem value_eq_lower {host : CanonicalHost} (h : CanonicalHost.fromStr ip text = .ok host)
    (hcolon : ':' ∉ text) : host.value = lower text := by
  rcases host_cases h with ⟨address, hspells, rfl⟩ | ⟨rfl, -⟩
  · cases address with
    | inl address =>
      have hV4 : ip.parseV4 text = some address := hspells
      rw [lower_of_parseV4 hip hV4]
      exact hv4.print_parseV4 text address hV4
    | inr address => exact absurd (colon_mem_of_isIpv6 hip h rfl) hcolon
  · rfl

/-- The text of a host that is not IPv6. -/
structure PlainText (text : List Char) : Prop where
  ne_nil : text ≠ []
  lower : Ascii.lower text = text
  chars : ∀ c ∈ text, plain c = true
  colon : ':' ∉ text
  last : text.getLast? ≠ some '.'

theorem plainText_value {host : CanonicalHost} (h : CanonicalHost.fromStr ip text = .ok host)
    (h6 : host.isIpv6 = false) : PlainText host.value := by
  have hround := host_roundTrip hip h
  obtain ⟨hne, hplain, hcolon⟩ := chars_of_not_isIpv6 hip hround (Bool.eq_false_iff.mp h6)
  refine ⟨hne, (value_eq_lower hip hv4 hround hcolon).symm, hplain, hcolon, fun hlast => ?_⟩
  have hopen : '[' ∉ host.value := not_mem_of_plain hplain rfl
  have hclose : ']' ∉ host.value := not_mem_of_plain hplain rfl
  rw [fromStr_of_plain ip hne hplain, CanonicalHost.fromBare, if_neg (by simp [hopen, hclose]),
    if_neg (by simpa using hcolon), if_pos hlast] at hround
  cases hparse : ip.parse host.value with
  | none =>
    rw [hparse] at hround
    cases hround
  | some address =>
    rw [IpSyntax.parse] at hparse
    cases hV4 : ip.parseV4 host.value with
    | some a => exact hv4.last_parseV4 _ a hV4 hlast
    | none =>
      rw [hV4] at hparse
      obtain ⟨a, hV6, -⟩ := Option.map_eq_some_iff.mp
        (hparse : (ip.parseV6 host.value).map Sum.inr = _)
      exact hcolon (colon_mem_of_parseV6 hip hV6)

end

/-! ## White space -/

theorem isWhitespace_of_plain {c : Char} (h : plain c = true) : Str.isWhitespace c = false := by
  rw [plain_iff] at h
  simp only [Str.isWhitespace, Bool.or_eq_false_iff, Bool.and_eq_false_iff, decide_eq_false_iff_not,
    beq_eq_false_iff_ne]
  omega

theorem PlainText.trimChars {text : List Char} (h : PlainText text) : Str.trimChars text = text :=
  Str.trimChars_eq_self (fun c hc => isWhitespace_of_plain (h.chars c (List.mem_of_head? hc)))
    fun c hc => isWhitespace_of_plain (h.chars c (List.mem_of_getLast? hc))

end Tokn.Policy
