import Tokn.Lib.Ascii

/-!
# Hosts and authorities

`crates/policy/src/authority.rs`. A text is the list of its characters. The parsers and printers
of IP addresses are those of the standard library.
-/

namespace Tokn.Policy

open Ascii (splitOnce)

/-- IP addresses of the standard library, with their parsers and printers. -/
structure IpSyntax where
  Ipv4Addr : Type
  Ipv6Addr : Type
  parseV4 : List Char → Option Ipv4Addr
  printV4 : Ipv4Addr → List Char
  parseV6 : List Char → Option Ipv6Addr
  printV6 : Ipv6Addr → List Char

/-! ## Hosts -/

inductive HostKind where
  | dns
  | ipv4
  | ipv6
  deriving DecidableEq

/-- Made by `fromStr` only. -/
structure CanonicalHost where
  value : List Char
  kind : HostKind
  deriving DecidableEq

inductive InvalidHost where
  | empty
  | nonAscii
  | whitespaceOrControl
  | malformedBrackets
  | invalidBracketedIpv6
  | portNotAllowed
  | trailingDot
  | tooLong
  | invalidDnsLabel
  | ambiguousNumericSuffix
  /-- With the address as a number. -/
  | nonCanonicalIpv4 (canonical : Nat)
  deriving DecidableEq

def CanonicalHost.isDns (host : CanonicalHost) : Bool := host.kind = .dns

def CanonicalHost.isIpv6 (host : CanonicalHost) : Bool := host.kind = .ipv6

def CanonicalHost.isStrictSubdomainOf (host suffix : CanonicalHost) : Bool :=
  host.isDns && suffix.isDns && suffix.value.isSuffixOf host.value &&
    (let pre := host.value.take (host.value.length - suffix.value.length)
    pre.getLast? = some '.' && 1 < pre.length)

def nonAscii (c : Char) : Bool := 128 ≤ c.toNat

/-- `is_ascii_whitespace` or `is_ascii_control`. -/
def whitespaceOrControl (c : Char) : Bool := c.toNat ≤ 32 || c.toNat = 127

/-- `strip_prefix('[')`, then `strip_suffix(']')`. -/
def stripBrackets : List Char → Option (List Char)
  | '[' :: rest => if rest.getLast? = some ']' then some rest.dropLast else none
  | _ => none

def parseLegacyIpv4Number : List Char → Option Nat
  | [] => none
  | [c] => Ascii.u64FromStrRadix [c] 10
  | c :: d :: digits =>
    if c = '0' then
      if d = 'x' ∨ d = 'X' then
        if digits = [] then some 0 else Ascii.u64FromStrRadix digits 16
      else Ascii.u64FromStrRadix (d :: digits) 8
    else Ascii.u64FromStrRadix (c :: d :: digits) 10

/-- `parse_legacy_ipv4`: all numbers but the last are bytes, the last has the bytes that are left. -/
def parseLegacyIpv4 (raw : List Char) : Option Nat :=
  let pieces := raw.splitOn '.'
  if 4 < pieces.length then none
  else
    (pieces.mapM parseLegacyIpv4Number).bind fun numbers =>
      let last := numbers.getLast?.getD 0
      if numbers.dropLast.any fun number => 255 < number then none
      else if 2 ^ ((5 - numbers.length) * 8) ≤ last then none
      else
        some ((numbers.dropLast.zipIdx.foldl
          (fun value number => value + number.1 * 2 ^ (8 * (3 - number.2))) last) % 2 ^ 32)

/-- What `validate_dns_name` asks of a label. -/
def validDnsLabel (label : List Char) : Bool :=
  label ≠ [] && label.length ≤ 63 && (label.head?.any Ascii.isAlphanumeric) &&
    (label.getLast?.any Ascii.isAlphanumeric) &&
    label.all fun c => Ascii.isAlphanumeric c || c = '-'

def validateDnsName (raw : List Char) : Except InvalidHost Unit :=
  let labels := raw.splitOn '.'
  let topLevel := labels.getLast?.getD []
  if 253 < raw.length then .error .tooLong
  else if labels.any fun label => !validDnsLabel label then .error .invalidDnsLabel
  else if topLevel.all Char.isDigit || (parseLegacyIpv4Number topLevel).isSome then
    .error .ambiguousNumericSuffix
  else .ok ()

section

variable (ip : IpSyntax)

def CanonicalHost.ofIp : ip.Ipv4Addr ⊕ ip.Ipv6Addr → CanonicalHost
  | .inl address => ⟨ip.printV4 address, .ipv4⟩
  | .inr address => ⟨ip.printV6 address, .ipv6⟩

/-- `parse::<IpAddr>`. -/
def IpSyntax.parse (raw : List Char) : Option (ip.Ipv4Addr ⊕ ip.Ipv6Addr) :=
  (ip.parseV4 raw).map Sum.inl <|> (ip.parseV6 raw).map Sum.inr

/-- `CanonicalHost::from_str`, of a text that is neither empty nor bracketed. -/
def CanonicalHost.fromBare (raw : List Char) : Except InvalidHost CanonicalHost :=
  if raw.contains '[' || raw.contains ']' then .error .malformedBrackets
  else
    match ip.parse raw with
    | some address => .ok (.ofIp ip address)
    | none =>
      if raw.contains ':' then .error .portNotAllowed
      else if raw.getLast? = some '.' then .error .trailingDot
      else
        match parseLegacyIpv4 raw with
        | some address => .error (.nonCanonicalIpv4 address)
        | none =>
          match validateDnsName raw with
          | .error e => .error e
          | .ok () => .ok ⟨Ascii.lower raw, .dns⟩

def CanonicalHost.fromStr (raw : List Char) : Except InvalidHost CanonicalHost :=
  if raw = [] then .error .empty
  else if raw.any nonAscii then .error .nonAscii
  else if raw.any whitespaceOrControl then .error .whitespaceOrControl
  else
    match stripBrackets raw with
    | some inner =>
      match ip.parseV6 inner with
      | some address => .ok (.ofIp ip (.inr address))
      | none => .error .invalidBracketedIpv6
    | none => CanonicalHost.fromBare ip raw

end

/-- `write_authority_host`. -/
def CanonicalHost.authorityText (host : CanonicalHost) : List Char :=
  if host.isIpv6 then '[' :: host.value ++ [']'] else host.value

/-! ## Authorities -/

abbrev NonZeroU16 := { n : Nat // 0 < n ∧ n < 65536 }

structure CanonicalAuthority where
  host : CanonicalHost
  port : Option NonZeroU16
  deriving DecidableEq

inductive InvalidAuthority where
  | empty
  | invalidCharacters
  | userInfoNotAllowed
  | malformedIpv6Brackets
  | bracketsRequireIpv6
  | ipv6MustBeBracketed
  | invalidPort
  | host (source : InvalidHost)
  deriving DecidableEq

def parsePort (raw : List Char) : Except InvalidAuthority NonZeroU16 :=
  if raw = [] || !raw.all Char.isDigit then .error .invalidPort
  else
    if h : 0 < Nat.ofDigitChars 10 raw 0 ∧ Nat.ofDigitChars 10 raw 0 < 65536 then
      .ok ⟨Nat.ofDigitChars 10 raw 0, h⟩
    else .error .invalidPort

def parseAuthorityPortSuffix : List Char → Except InvalidAuthority (Option NonZeroU16)
  | [] => .ok none
  | c :: port =>
    if c = ':' then do
      let port ← parsePort port
      return some port
    else .error .malformedIpv6Brackets

def hostError {α : Type} : Except InvalidHost α → Except InvalidAuthority α
  | .ok a => .ok a
  | .error e => .error (.host e)

section

variable (ip : IpSyntax)

/-- `CanonicalAuthority::from_str`, after an opening bracket. -/
def CanonicalAuthority.fromBracketed (rest : List Char) :
    Except InvalidAuthority CanonicalAuthority :=
  match splitOnce ']' rest with
  | none => .error .malformedIpv6Brackets
  | some (rawHost, suffix) => do
    let host ← hostError (CanonicalHost.fromStr ip rawHost)
    if host.isIpv6 then
      let port ← parseAuthorityPortSuffix suffix
      return ⟨host, port⟩
    else throw .bracketsRequireIpv6

/-- `CanonicalAuthority::from_str`, without an opening bracket. -/
def CanonicalAuthority.fromUnbracketed (raw : List Char) :
    Except InvalidAuthority CanonicalAuthority :=
  if raw.contains '[' || raw.contains ']' then .error .malformedIpv6Brackets
  else if 1 < raw.count ':' then .error .ipv6MustBeBracketed
  else
    match splitOnce ':' raw with
    | some (rawHost, rawPort) => do
      let port ← parsePort rawPort
      let host ← hostError (CanonicalHost.fromStr ip rawHost)
      return ⟨host, some port⟩
    | none => do
      let host ← hostError (CanonicalHost.fromStr ip raw)
      return ⟨host, none⟩

def CanonicalAuthority.fromStr (raw : List Char) : Except InvalidAuthority CanonicalAuthority :=
  if raw = [] then .error .empty
  else if raw.any nonAscii || raw.any whitespaceOrControl then .error .invalidCharacters
  else if raw.contains '@' then .error .userInfoNotAllowed
  else if raw.any fun c => ['/', '?', '#', '\\', '%'].contains c then .error .invalidCharacters
  else
    match raw with
    | '[' :: rest => CanonicalAuthority.fromBracketed ip rest
    | raw => CanonicalAuthority.fromUnbracketed ip raw

end

def portText : Option NonZeroU16 → List Char
  | none => []
  | some port => ':' :: Nat.toDigits 10 port.val

/-- `Display` for an authority. -/
def CanonicalAuthority.text (authority : CanonicalAuthority) : List Char :=
  authority.host.authorityText ++ portText authority.port

end Tokn.Policy
