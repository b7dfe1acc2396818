import Tokn.Policy.RoundTrip

/-!
# DNS names and numeric labels

Which texts `CanonicalHost::from_str` takes for DNS names (`fromStr_dns_iff`), and what their last
label may be. URL parsers read a host whose last label is a number as an IPv4 address.

**Theorem (`lastLabel_notNumeric_iff`).** The last label of an accepted DNS name is not a number,
exactly when it is not a hexadecimal one from `2 ^ 64` on: `parse_legacy_ipv4_number` cannot read
those, and what it cannot read counts as a name.
-/

namespace Tokn.Policy

open Ascii (lower)

/-- The last label. -/
def topLevel (raw : List Char) : List Char := (raw.splitOn '.').getLast?.getD []

/-- What `validate_dns_name` accepts. -/
structure DnsName (raw : List Char) : Prop where
  length : raw.length ≤ 253
  labels : ∀ label ∈ raw.splitOn '.', validDnsLabel label = true
  digits : (topLevel raw).all Char.isDigit = false
  number : parseLegacyIpv4Number (topLevel raw) = none

variable {raw label : List Char}

theorem validateDnsName_iff : validateDnsName raw = .ok () ↔ DnsName raw := by
  have hlabels : ((raw.splitOn '.').any fun label => !validDnsLabel label) = false ↔
      ∀ label ∈ raw.splitOn '.', validDnsLabel label = true := by
    simp
  rw [validateDnsName]
  constructor
  · intro h
    split_ifs at h with hlength hany htop
    simp only [Bool.or_eq_true, not_or, Bool.not_eq_true, Option.isSome_eq_false_iff,
      Option.isNone_iff_eq_none] at htop
    exact ⟨by omega, hlabels.mp (Bool.eq_false_iff.mpr hany), htop.1, htop.2⟩
  · intro h
    have hdigits := h.digits
    have hnumber := h.number
    rw [topLevel] at hdigits hnumber
    rw [if_neg (by have := h.length; omega), if_neg (Bool.eq_false_iff.mp (hlabels.mpr h.labels)),
      hdigits, hnumber]
    rfl

/-! ## Labels -/

theorem mem_of_mem_splitOn {a c : Char} {text piece : List Char} (h : piece ∈ text.splitOn a)
    (hc : c ∈ piece) : c ∈ text := by
  induction text generalizing piece with
  | nil =>
    rw [List.mem_singleton.mp h] at hc
    cases hc
  | cons d text ih =>
    rw [List.splitOn_cons_eq_if_modifyHead] at h
    split_ifs at h with hd
    · rcases List.mem_cons.mp h with rfl | h
      · cases hc
      · exact List.mem_cons_of_mem _ (ih h hc)
    · obtain ⟨head, tail, hsplit⟩ := List.exists_cons_of_ne_nil (List.splitOn_ne_nil a text)
      rw [hsplit, List.modifyHead_cons] at h
      rcases List.mem_cons.mp h with rfl | h
      · rcases List.mem_cons.mp hc with rfl | hc
        · exact List.mem_cons_self
        · exact List.mem_cons_of_mem _ (ih (hsplit ▸ List.mem_cons_self) hc)
      · exact List.mem_cons_of_mem _ (ih (hsplit ▸ List.mem_cons_of_mem _ h) hc)

theorem topLevel_mem (raw : List Char) : topLevel raw ∈ raw.splitOn '.' := by
  rw [topLevel, List.getLast?_eq_some_getLast (List.splitOn_ne_nil '.' raw)]
  exact List.getLast_mem _

/-- The labels of a name below another one. -/
theorem splitOn_subdomain (labels suffix : List Char) :
    (labels ++ '.' :: suffix).splitOn '.' = labels.splitOn '.' ++ suffix.splitOn '.' :=
  List.splitOn_append_cons_self ..

theorem topLevel_subdomain (labels suffix : List Char) :
    topLevel (labels ++ '.' :: suffix) = topLevel suffix := by
  rw [topLevel, splitOn_subdomain, List.getLast?_append_of_ne_nil _ (List.splitOn_ne_nil _ _),
    topLevel]

theorem plain_of_mem_label (h : validDnsLabel label = true) {c : Char} (hc : c ∈ label) :
    Ascii.isAlphanumeric c = true ∨ c = '-' := by
  rw [validDnsLabel, Bool.and_eq_true] at h
  simpa using List.all_eq_true.mp h.2 c hc

theorem ne_nil_of_validDnsLabel (h : validDnsLabel label = true) : label ≠ [] := by
  rintro rfl
  cases h

/-- Characters of valid labels, and the dots between them. -/
theorem mem_of_labels (h : ∀ label ∈ raw.splitOn '.', validDnsLabel label = true) {c : Char}
    (hc : c ∈ raw) : Ascii.isAlphanumeric c = true ∨ c = '-' ∨ c = '.' := by
  by_cases hdot : c = '.'
  · exact Or.inr (Or.inr hdot)
  · obtain ⟨label, hlabel, hmem⟩ := Ascii.mem_splitOn hc hdot
    rcases plain_of_mem_label (h label hlabel) hmem with halpha | hdash
    · exact Or.inl halpha
    · exact Or.inr (Or.inl hdash)

theorem plain_of_labels (h : ∀ label ∈ raw.splitOn '.', validDnsLabel label = true) :
    ∀ c ∈ raw, plain c = true := by
  intro c hc
  rw [plain]
  rcases mem_of_labels h hc with halpha | rfl | rfl
  · simp [halpha]
  · rfl
  · rfl

theorem colon_not_mem_of_labels (h : ∀ label ∈ raw.splitOn '.', validDnsLabel label = true) :
    ':' ∉ raw := by
  intro hc
  rcases mem_of_labels h hc with halpha | hdash | hdot
  · exact absurd halpha (by decide)
  · exact absurd hdash (by decide)
  · exact absurd hdot (by decide)

/-- The last character of a name is that of its last label. -/
theorem getLast?_of_labels (h : ∀ label ∈ raw.splitOn '.', validDnsLabel label = true) :
    raw.getLast? ≠ some '.' := by
  intro hlast
  obtain ⟨before, rfl⟩ := List.getLast?_eq_some_iff.mp hlast
  refine ne_nil_of_validDnsLabel (h [] ?_) rfl
  rw [splitOn_subdomain before []]
  exact List.mem_append_right _ (by simp)

theorem ne_nil_of_labels (h : ∀ label ∈ raw.splitOn '.', validDnsLabel label = true) :
    raw ≠ [] := by
  rintro rfl
  exact ne_nil_of_validDnsLabel (h [] (by simp)) rfl

/-! ## Accepted names -/

theorem mapM_eq_none_of_mem {α β : Type*} {f : α → Option β} {l : List α} {a : α} (ha : a ∈ l)
    (h : f a = none) : l.mapM f = none := by
  induction l with
  | nil => cases ha
  | cons b l ih =>
    rw [List.mapM_cons]
    rcases List.mem_cons.mp ha with rfl | ha
    · rw [h]
      rfl
    · rw [ih ha]
      cases f b <;> rfl

theorem parseLegacyIpv4_of_topLevel (h : parseLegacyIpv4Number (topLevel raw) = none) :
    parseLegacyIpv4 raw = none := by
  rw [parseLegacyIpv4, mapM_eq_none_of_mem (topLevel_mem raw) h]
  simp

section

variable {ip : IpSyntax} (hip : ip.Lawful)

include hip

/-- A text with a last label that is not all digits is no IPv4 address, and one without colons no
IPv6 address. -/
theorem parse_of_dnsName {raw : List Char} (h : DnsName raw) : ip.parse raw = none := by
  have hV4 : ip.parseV4 raw = none := by
    rw [Option.eq_none_iff_forall_ne_some]
    intro address haddress
    have hall : (topLevel raw).all Char.isDigit = true := by
      rw [List.all_eq_true]
      intro c hc
      have hdot : c ≠ '.' := by
        rintro rfl
        exact Ascii.not_mem_of_mem_splitOn (topLevel_mem raw) hc
      have hmem : c ∈ raw := mem_of_mem_splitOn (topLevel_mem raw) hc
      exact ((hip.charsV4 raw address haddress).2 c hmem).resolve_right hdot
    rw [h.digits] at hall
    cases hall
  have hV6 : ip.parseV6 raw = none := by
    rw [Option.eq_none_iff_forall_ne_some]
    intro address haddress
    have hcount := (hip.charsV6 raw address haddress).1
    exact colon_not_mem_of_labels h.labels (List.count_pos_iff.mp (by omega))
  rw [IpSyntax.parse, hV4, hV6]
  rfl

omit hip in
theorem fromStr_of_parse {text : List Char} {address : ip.Ipv4Addr ⊕ ip.Ipv6Addr} (hne : text ≠ [])
    (hplain : ∀ c ∈ text, plain c = true) (h : ip.parse text = some address) :
    CanonicalHost.fromStr ip text = .ok (.ofIp ip address) := by
  rw [fromStr_of_plain ip hne hplain]
  exact fromBare_of_parse hplain h

/-- **The texts that are taken for DNS names.** -/
theorem fromStr_dns_iff {raw : List Char} {host : CanonicalHost} :
    CanonicalHost.fromStr ip raw = .ok host ∧ host.isDns = true ↔
      host = ⟨lower raw, .dns⟩ ∧ DnsName raw := by
  constructor
  · rintro ⟨h, hdns⟩
    rcases host_cases h with ⟨address, -, rfl⟩ | ⟨rfl, hne, hplain, hcolon⟩
    · cases address <;> cases hdns
    · refine ⟨rfl, ?_⟩
      have hparse : ip.parse raw = none := by
        by_contra hne'
        obtain ⟨address, haddress⟩ := Option.ne_none_iff_exists'.mp hne'
        have hhost := h.symm.trans (fromStr_of_parse hne hplain haddress)
        cases address <;> exact absurd (congrArg CanonicalHost.kind (Except.ok.inj hhost)) nofun
      rw [fromStr_of_plain ip hne hplain, CanonicalHost.fromBare, hparse] at h
      split_ifs at h
      cases hlegacy : parseLegacyIpv4 raw with
      | some address => simp [hlegacy] at h
      | none =>
        cases hvalid : validateDnsName raw with
        | error e => simp [hlegacy, hvalid] at h
        | ok u => exact validateDnsName_iff.mp hvalid
  · rintro ⟨rfl, h⟩
    have hplain := plain_of_labels h.labels
    have hopen : '[' ∉ raw := not_mem_of_plain hplain rfl
    have hclose : ']' ∉ raw := not_mem_of_plain hplain rfl
    refine ⟨?_, rfl⟩
    rw [fromStr_of_plain ip (ne_nil_of_labels h.labels) hplain, CanonicalHost.fromBare,
      parse_of_dnsName hip h, parseLegacyIpv4_of_topLevel h.number, validateDnsName_iff.mpr h,
      if_neg (by simp [hopen, hclose])]
    simp [colon_not_mem_of_labels h.labels, getLast?_of_labels h.labels]

end

/-! ## Numeric labels -/

/-- `0x` and hexadecimal digits only. -/
def hexLabel : List Char → Bool
  | '0' :: x :: digits => (x = 'x' || x = 'X') && digits.all fun c => (Ascii.toDigit 16 c).isSome
  | _ => false

/-- Decimal digits only, or `0x` and hexadecimal digits only. -/
def numericLabel (label : List Char) : Bool :=
  label ≠ [] && label.all Char.isDigit || hexLabel label

/-- A hexadecimal number that a `u64` does not hold. -/
def hugeHex : List Char → Bool
  | '0' :: x :: digits =>
    (x = 'x' || x = 'X') && (Ascii.ofDigitsFrom 16 0 digits).any fun n => 2 ^ 64 ≤ n
  | _ => false

/-- What makes a text a name with a huge hexadecimal number at its end. -/
structure HugeName (raw : List Char) : Prop where
  length : raw.length ≤ 253
  labels : ∀ label ∈ raw.splitOn '.', validDnsLabel label = true
  huge : hugeHex (topLevel raw) = true

theorem hugeHex_eq_true :
    hugeHex label = true ↔ ∃ x digits n, label = '0' :: x :: digits ∧ (x = 'x' ∨ x = 'X') ∧
      Ascii.ofDigitsFrom 16 0 digits = some n ∧ 2 ^ 64 ≤ n := by
  constructor
  · intro h
    rw [hugeHex.eq_def] at h
    split at h
    · next x digits =>
      rw [Bool.and_eq_true, Option.any_eq_true] at h
      obtain ⟨hx, n, hn, hle⟩ := h
      exact ⟨x, digits, n, rfl, by simpa using hx, hn, of_decide_eq_true hle⟩
    · cases h
  · rintro ⟨x, digits, n, rfl, hx, hn, hle⟩
    rw [hugeHex, hn, Option.any_some, decide_eq_true hle, Bool.and_true]
    simpa using hx

theorem numericLabel_eq_true :
    numericLabel label = true ↔ label ≠ [] ∧ label.all Char.isDigit = true ∨
      ∃ x digits, label = '0' :: x :: digits ∧ (x = 'x' ∨ x = 'X') ∧
        (digits.all fun c => (Ascii.toDigit 16 c).isSome) = true := by
  rw [numericLabel, Bool.or_eq_true, Bool.and_eq_true, decide_eq_true_eq]
  refine or_congr_right ⟨fun h => ?_, ?_⟩
  · rw [hexLabel.eq_def] at h
    split at h
    · next x digits =>
      rw [Bool.and_eq_true] at h
      exact ⟨x, digits, rfl, by simpa using h.1, h.2⟩
    · cases h
  · rintro ⟨x, digits, rfl, hx, hdigits⟩
    rw [hexLabel, Bool.and_eq_true]
    exact ⟨by simpa using hx, hdigits⟩

/-- What the reader of legacy numbers makes of a hexadecimal one. -/
theorem parseLegacyIpv4Number_hex {x : Char} {digits : List Char} (hx : x = 'x' ∨ x = 'X')
    (hne : digits ≠ []) (hplus : digits.head? ≠ some '+') :
    parseLegacyIpv4Number ('0' :: x :: digits) =
      (Ascii.ofDigitsFrom 16 0 digits).filter fun n => n < 2 ^ 64 := by
  rw [parseLegacyIpv4Number, if_pos rfl, if_pos hx, if_neg hne,
    Ascii.u64FromStrRadix_eq (by decide) hne hplus]

theorem head?_of_ofDigitsFrom {radix value : Nat} {digits : List Char}
    (h : (Ascii.ofDigitsFrom radix value digits).isSome = true) : digits.head? ≠ some '+' := by
  intro hplus
  rw [Ascii.isSome_ofDigitsFrom, List.all_eq_true] at h
  have hdigit := h '+' (List.mem_of_head? hplus)
  rw [Ascii.toDigit] at hdigit
  exact absurd hdigit (by simp)

/-- **An accepted name that ends with a number ends with a huge hexadecimal one.** -/
theorem DnsName.numericLabel_iff :
    DnsName raw ∧ numericLabel (topLevel raw) = true ↔ HugeName raw := by
  constructor
  · rintro ⟨h, hnumeric⟩
    refine ⟨h.length, h.labels, ?_⟩
    rcases numericLabel_eq_true.mp hnumeric with ⟨-, hdigits⟩ | ⟨x, digits, htop, hx, hhex⟩
    · rw [h.digits] at hdigits
      cases hdigits
    · have hnumber := h.number
      rw [← Ascii.isSome_ofDigitsFrom 16 0] at hhex
      obtain ⟨n, hn⟩ := Option.isSome_iff_exists.mp hhex
      have hne : digits ≠ [] := by
        rintro rfl
        rw [htop] at hnumber
        rcases hx with rfl | rfl <;> cases hnumber
      rw [htop, parseLegacyIpv4Number_hex hx hne (head?_of_ofDigitsFrom hhex), hn,
        Option.filter_eq_none_iff] at hnumber
      refine hugeHex_eq_true.mpr ⟨x, digits, n, htop, hx, hn, ?_⟩
      have hge := hnumber n rfl
      simpa using hge
  · rintro ⟨hlength, hlabels, hhuge⟩
    obtain ⟨x, digits, n, htop, hx, hn, hle⟩ := hugeHex_eq_true.mp hhuge
    have hhex : (Ascii.ofDigitsFrom 16 0 digits).isSome = true := by simp [hn]
    have hne : digits ≠ [] := by
      rintro rfl
      cases hn
      exact absurd hle (by decide)
    refine ⟨⟨hlength, hlabels, ?_, ?_⟩, ?_⟩
    · rw [htop]
      rcases hx with rfl | rfl <;> simp
    · rw [htop, parseLegacyIpv4Number_hex hx hne (head?_of_ofDigitsFrom hhex), hn,
        Option.filter_some_neg]
      simpa using hle
    · refine numericLabel_eq_true.mpr (Or.inr ⟨x, digits, htop, hx, ?_⟩)
      rwa [← Ascii.isSome_ofDigitsFrom 16 0]

/-- **The last label of an accepted name.** It is not a number, unless the text is a name that ends
with a huge hexadecimal one. -/
theorem lastLabel_notNumeric_iff {ip : IpSyntax} (hip : ip.Lawful) (raw : List Char) :
    (∀ host, CanonicalHost.fromStr ip raw = .ok host → host.isDns = true →
      numericLabel (topLevel raw) = false) ↔ ¬ HugeName raw := by
  rw [← DnsName.numericLabel_iff]
  constructor
  · rintro h ⟨hname, hnumeric⟩
    obtain ⟨hhost, hdns⟩ := (fromStr_dns_iff hip).mpr ⟨rfl, hname⟩
    rw [h _ hhost hdns] at hnumeric
    cases hnumeric
  · intro h host hhost hdns
    rw [Bool.eq_false_iff]
    exact fun hnumeric => h ⟨((fromStr_dns_iff hip).mp ⟨hhost, hdns⟩).2, hnumeric⟩

/-- Of a name that ends with the largest number. -/
theorem lastLabel_notNumeric_sample :
    (∀ host, CanonicalHost.fromStr loopbackSyntax "a.0xffffffffffffffff".toList = .ok host →
      host.isDns = true → numericLabel (topLevel "a.0xffffffffffffffff".toList) = false) ↔
        ¬ HugeName "a.0xffffffffffffffff".toList :=
  lastLabel_notNumeric_iff loopbackSyntax_lawful _

/-- The number after it is taken for a name. -/
theorem hugeHex_accepted :
    ¬ ∀ ip : IpSyntax, ip.Lawful → ∀ raw host, CanonicalHost.fromStr ip raw = .ok host →
      host.isDns = true → numericLabel (topLevel raw) = false := by
  intro h
  have hnumeric := h loopbackSyntax loopbackSyntax_lawful "example.0x10000000000000000".toList
    ⟨"example.0x10000000000000000".toList, .dns⟩ (by rfl) rfl
  revert hnumeric
  decide

end Tokn.Policy
