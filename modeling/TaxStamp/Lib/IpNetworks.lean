import Mathlib.Data.List.Basic
import Mathlib.Data.Nat.Bitwise
import Mathlib.Order.Basic

/-!
# Addresses and networks as texts

The texts that Python's `ipaddress` module reads as IPv4 and IPv6 addresses and networks,
the networks they denote with and without host bits, and membership of an address. The scope of an IPv6
address is checked and dropped, since neither networks nor membership use it.
-/

namespace TaxStamp.Lib

/-- The two address families. -/
inductive IpVersion
  | v4
  | v6
  deriving DecidableEq, Repr

namespace IpVersion

/-- The bits of an address. -/
def maxPrefixlen : IpVersion → ℕ
  | v4 => 32
  | v6 => 128

/-- The address with every bit set. -/
def allOnes (v : IpVersion) : ℕ := 2 ^ v.maxPrefixlen - 1

/-- The netmask of a prefix length. -/
def ipIntFromPrefix (v : IpVersion) (prefixlen : ℕ) : ℕ := v.allOnes ^^^ (v.allOnes >>> prefixlen)

end IpVersion

/-- An address of one of the families. -/
structure IpAddress where
  version : IpVersion
  ip : ℕ
  deriving DecidableEq, Repr

/-- An address together with the netmask of its network. -/
structure IpInterface where
  version : IpVersion
  ip : ℕ
  netmask : ℕ
  deriving DecidableEq, Repr

/-- A network: its address has no bit outside the netmask. -/
structure IpNetwork where
  version : IpVersion
  networkAddress : ℕ
  netmask : ℕ
  aligned : networkAddress &&& netmask = networkAddress
  deriving DecidableEq

/-- Why a text denotes no network. All of them are value errors. -/
inductive IpError
  | addressValue
  | netmaskValue
  | hostBitsSet
  | unrecognised
  deriving DecidableEq, Repr

/-! ### Digits -/

/-- A nonempty text of ASCII digits. -/
def isAsciiNumber (text : List Char) : Bool := !text.isEmpty && text.all Char.isDigit

/-- The value of a hexadecimal digit. -/
def hexDigit? (c : Char) : Option ℕ :=
  if c.isDigit then some (c.toNat - 48)
  else if 'a' ≤ c ∧ c ≤ 'f' then some (c.toNat - 87)
  else if 'A' ≤ c ∧ c ≤ 'F' then some (c.toNat - 55)
  else none

/-! ### Addresses -/

/-- A decimal octet without leading zeros. -/
def parseOctet (text : List Char) : Option ℕ :=
  if !isAsciiNumber text then none
  else if 3 < text.length then none
  else if text ≠ ['0'] ∧ text.head? = some '0' then none
  else if 255 < Nat.ofDigitChars 10 text 0 then none
  else some (Nat.ofDigitChars 10 text 0)

/-- Four octets separated by points. -/
def ipv4IntFromString (text : List Char) : Option ℕ :=
  let octets := text.splitOn '.'
  if octets.length ≠ 4 then none
  else (octets.mapM parseOctet).map fun values => values.foldl (fun ip octet => ip * 256 + octet) 0

/-- One to four hexadecimal digits. -/
def parseHextet (text : List Char) : Option ℕ :=
  if text.isEmpty ∨ 4 < text.length then none
  else (text.mapM hexDigit?).map fun values => values.foldl (fun n digit => n * 16 + digit) 0

/-- The lower-case hexadecimal digits of a number. -/
def hexText (n : ℕ) : List Char := Nat.toDigits 16 n

/-- The parts of an IPv6 text; an IPv4 suffix becomes two of them. -/
def hextetParts (text : List Char) : Option (List (List Char)) :=
  let parts := text.splitOn ':'
  if parts.length < 3 then none
  else if '.' ∈ parts.getLastD [] then
    (ipv4IntFromString (parts.getLastD [])).map fun suffix =>
      parts.dropLast ++ [hexText (suffix >>> 16 &&& 0xFFFF), hexText (suffix &&& 0xFFFF)]
  else some parts

/-- The empty parts that are no endpoint: a run of zeros is skipped there. -/
def skipIndices (parts : List (List Char)) : List ℕ :=
  (List.range' 1 (parts.length - 2)).filter fun i => (parts.getD i []).isEmpty

/-- The number of parts to copy from before and after the skipped run. -/
def partsAround (parts : List (List Char)) : Option (ℕ × ℕ) :=
  match skipIndices parts with
  | [] =>
    if parts.length ≠ 8 then none
    else if (parts.headD []).isEmpty then none
    else if (parts.getLastD []).isEmpty then none
    else some (parts.length, 0)
  | [skipIndex] =>
    let partsHi := if (parts.headD []).isEmpty then skipIndex - 1 else skipIndex
    let partsLo := if (parts.getLastD []).isEmpty then parts.length - skipIndex - 2 else parts.length - skipIndex - 1
    if (parts.headD []).isEmpty ∧ partsHi ≠ 0 then none
    else if (parts.getLastD []).isEmpty ∧ partsLo ≠ 0 then none
    else if 8 ≤ partsHi + partsLo then none
    else some (partsHi, partsLo)
  | _ => none

/-- Eight hextets separated by colons, one run of zeros possibly skipped. -/
def ipv6IntFromString (text : List Char) : Option ℕ := do
  let parts ← hextetParts text
  if 9 < parts.length then none
  else
    let (partsHi, partsLo) ← partsAround parts
    let high ← (parts.take partsHi).mapM parseHextet
    let low ← (parts.drop (parts.length - partsLo)).mapM parseHextet
    let append : ℕ → ℕ → ℕ := fun ip hextet => ip <<< 16 ||| hextet
    some (low.foldl append (high.foldl append 0 <<< (16 * (8 - (partsHi + partsLo)))))

/-- The address before a scope, which must be a single nonempty text. -/
def splitScopeId (text : List Char) : Option (List Char) :=
  let (addr, rest) := text.span (· ≠ '%')
  match rest with
  | [] => some addr
  | _ :: scopeId => if scopeId.isEmpty ∨ '%' ∈ scopeId then none else some addr

/-- The integer of an address text of one family. -/
def ipInt (v : IpVersion) (text : List Char) : Option ℕ :=
  if '/' ∈ text then none
  else match v with
    | .v4 => ipv4IntFromString text
    | .v6 => (splitScopeId text).bind ipv6IntFromString

/-- The address that a text denotes, IPv4 tried first. -/
def ipAddress (text : List Char) : Option IpAddress :=
  match ipInt .v4 text with
  | some ip => some ⟨.v4, ip⟩
  | none => (ipInt .v6 text).map fun ip => ⟨.v6, ip⟩

/-! ### Netmasks -/

/-- The zero bits on the right of a number of at most `bits` bits. -/
def countRighthandZeroBits : ℕ → ℕ → ℕ
  | 0, _ => 0
  | bits + 1, number => if number % 2 = 1 then 0 else countRighthandZeroBits bits (number / 2) + 1

/-- The prefix length of a bitwise netmask, if its ones come before its zeros. -/
def prefixFromIpInt (v : IpVersion) (ip : ℕ) : Option ℕ :=
  let trailingZeroes := countRighthandZeroBits v.maxPrefixlen ip
  let prefixlen := v.maxPrefixlen - trailingZeroes
  if ip >>> trailingZeroes ≠ (1 <<< prefixlen) - 1 then none else some prefixlen

/-- The prefix length of a number; longer numbers than 4300 digits are not read. -/
def prefixFromPrefixString (v : IpVersion) (text : List Char) : Option ℕ :=
  if !isAsciiNumber text ∨ 4300 < text.length then none
  else if v.maxPrefixlen < Nat.ofDigitChars 10 text 0 then none
  else some (Nat.ofDigitChars 10 text 0)

/-- The prefix length of a netmask or, with its bits inverted, of a hostmask. -/
def prefixFromIpString (text : List Char) : Option ℕ := do
  let ip ← ipv4IntFromString text
  prefixFromIpInt .v4 ip <|> prefixFromIpInt .v4 (ip ^^^ IpVersion.v4.allOnes)

/-- The netmask of what follows the slash; without one every bit counts. -/
def makeNetmask (v : IpVersion) : Option (List Char) → Option ℕ
  | none => some (v.ipIntFromPrefix v.maxPrefixlen)
  | some text =>
    let prefixlen := match v with
      | .v4 => prefixFromPrefixString .v4 text <|> prefixFromIpString text
      | .v6 => prefixFromPrefixString .v6 text
    prefixlen.map v.ipIntFromPrefix

/-! ### Networks -/

/-- Address and mask texts around at most one slash. -/
def splitAddrPrefix (text : List Char) : Option (List Char × Option (List Char)) :=
  match text.splitOn '/' with
  | [addr] => some (addr, none)
  | [addr, mask] => some (addr, some mask)
  | _ => none

/-- The address and the netmask that a network text of one family gives. -/
def interfaceOf (v : IpVersion) (text : List Char) : Except IpError IpInterface :=
  match splitAddrPrefix text with
  | none => .error .addressValue
  | some (addr, mask) =>
    match ipInt v addr with
    | none => .error .addressValue
    | some ip =>
      match makeNetmask v mask with
      | none => .error .netmaskValue
      | some netmask => .ok ⟨v, ip, netmask⟩

namespace IpInterface

/-- No bit of the address is outside the netmask. -/
def NoHostBits (i : IpInterface) : Prop := i.ip &&& i.netmask = i.ip

instance (i : IpInterface) : Decidable i.NoHostBits := inferInstanceAs (Decidable (_ = _))

/-- The network of an address, its host bits cleared. -/
def network (i : IpInterface) : IpNetwork where
  version := i.version
  networkAddress := i.ip &&& i.netmask
  netmask := i.netmask
  aligned := by rw [Nat.and_assoc, Nat.and_self]

end IpInterface

/-- The network of a text of one family. A strict reading refuses host bits. -/
def networkOf (v : IpVersion) (text : List Char) (strict : Bool) : Except IpError IpNetwork :=
  match interfaceOf v text with
  | .error e => .error e
  | .ok i => if ¬i.NoHostBits ∧ strict then .error .hostBitsSet else .ok i.network

/-- The network that a text denotes, IPv4 tried first. Only address and netmask errors lead on. -/
def ipNetwork (text : List Char) (strict : Bool := true) : Except IpError IpNetwork :=
  match networkOf .v4 text strict with
  | .ok network => .ok network
  | .error .addressValue | .error .netmaskValue =>
    match networkOf .v6 text strict with
    | .ok network => .ok network
    | .error .addressValue | .error .netmaskValue => .error .unrecognised
    | .error e => .error e
  | .error e => .error e

/-- The address and the netmask of a network text, IPv4 tried first. -/
def ipInterface (text : List Char) : Option IpInterface :=
  (interfaceOf .v4 text).toOption <|> (interfaceOf .v6 text).toOption

/-- A text that gives no address and netmask has an address or a netmask error. -/
theorem interfaceOf_error {v : IpVersion} {text : List Char} {e : IpError} (h : interfaceOf v text = .error e) :
    e = .addressValue ∨ e = .netmaskValue := by
  unfold interfaceOf at h
  repeat' split at h
  all_goals cases h <;> simp

/-- Both readings find the same address and netmask; only the strict one asks for the host bits. -/
theorem ipNetwork_eq (text : List Char) (strict : Bool) : ipNetwork text strict =
    match ipInterface text with
    | some i => if ¬i.NoHostBits ∧ strict then .error .hostBitsSet else .ok i.network
    | none => .error .unrecognised := by
  have hother : ∀ e, interfaceOf .v4 text = .error e → ipNetwork text strict =
      match networkOf .v6 text strict with
      | .ok network => .ok network
      | .error .addressValue | .error .netmaskValue => .error .unrecognised
      | .error e => .error e := by
    intro e he
    rcases interfaceOf_error he with rfl | rfl <;> simp [ipNetwork, networkOf, he]
  cases hfour : interfaceOf .v4 text with
  | ok i =>
    have hi : ipInterface text = some i := by simp [ipInterface, hfour, Except.toOption]
    rw [hi]
    by_cases hrefused : ¬i.NoHostBits ∧ strict = true
    · simp only [ipNetwork, networkOf, hfour, if_pos hrefused]
    · simp only [ipNetwork, networkOf, hfour, if_neg hrefused]
  | error e =>
    rw [hother e hfour]
    cases hsix : interfaceOf .v6 text with
    | ok i =>
      have hi : ipInterface text = some i := by simp [ipInterface, hfour, hsix, Except.toOption]
      rw [hi]
      by_cases hrefused : ¬i.NoHostBits ∧ strict = true
      · simp only [networkOf, hsix, if_pos hrefused]
      · simp only [networkOf, hsix, if_neg hrefused]
    | error e' =>
      have hi : ipInterface text = none := by simp [ipInterface, hfour, hsix, Except.toOption]
      rw [hi]
      rcases interfaceOf_error hsix with rfl | rfl <;> simp only [networkOf, hsix]

/-- The reading that ignores host bits gives the network of the address. -/
theorem ipNetwork_lax {text : List Char} {network : IpNetwork} :
    ipNetwork text false = .ok network ↔ ∃ i, ipInterface text = some i ∧ i.network = network := by
  rw [ipNetwork_eq]
  cases ipInterface text <;> simp

/-- The strict reading gives the same network exactly when no host bit is set. -/
theorem ipNetwork_strict {text : List Char} {network : IpNetwork} :
    ipNetwork text = .ok network ↔ ∃ i, ipInterface text = some i ∧ i.NoHostBits ∧ i.network = network := by
  rw [ipNetwork_eq]
  cases ipInterface text with
  | none => simp
  | some i =>
    by_cases h : i.NoHostBits <;> simp [h]

/-- An address lies in a network of its own family when its masked bits are the network's. -/
def IpNetwork.contains (network : IpNetwork) (address : IpAddress) : Bool :=
  network.version = address.version && address.ip &&& network.netmask = network.networkAddress

end TaxStamp.Lib
