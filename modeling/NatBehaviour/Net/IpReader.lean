import NatBehaviour.Net.Ip

/-!
Reading addresses from text. Decimal numbers in an IPv4 address have no leading zeros; an IPv6
address may leave out one run of groups and may end in an IPv4 address.
-/

namespace NatBehaviour.Net

/-- Takes something off the front of a text, or fails. -/
abbrev Taker (α : Type) := List Char → Option (α × List Char)

def takeChar (c : Char) : List Char → Option (List Char)
  | [] => none
  | d :: s => if d = c then some s else none

/-- The value of a digit in some base up to sixteen. -/
def digitIn? (base : Nat) (c : Char) : Option Nat :=
  let n :=
    if '0' ≤ c ∧ c ≤ '9' then c.toNat - '0'.toNat
    else if 'a' ≤ c ∧ c ≤ 'f' then c.toNat - 'a'.toNat + 10
    else if 'A' ≤ c ∧ c ≤ 'F' then c.toNat - 'A'.toNat + 10
    else base
  if n < base then some n else none

def isDigitIn (base : Nat) (c : Char) : Bool := (digitIn? base c).isSome

def numeral (base : Nat) (digits : List Char) : Nat :=
  digits.foldl (fun n c => n * base + (digitIn? base c).getD 0) 0

/-- What a number may look like. -/
structure Numeral where
  base : Nat
  maxDigits : Option Nat
  leadingZeros : Bool
  limit : Nat

namespace Numeral

def admits (form : Numeral) (digits : List Char) : Bool :=
  !digits.isEmpty && form.maxDigits.all (digits.length ≤ ·) &&
    (form.leadingZeros || digits.length = 1 || digits.head? ≠ some '0') &&
    numeral form.base digits < form.limit

/-- Takes all digits that follow. -/
def take (form : Numeral) (s : List Char) : Option (Nat × List Char) :=
  let digits := s.takeWhile (isDigitIn form.base)
  if form.admits digits then
    some (numeral form.base digits, s.dropWhile (isDigitIn form.base))
  else none

end Numeral

/-- One of the four numbers of an IPv4 address. -/
def octet : Numeral := ⟨10, some 3, false, UInt8.size⟩

/-- One of the eight groups of an IPv6 address. -/
def group : Numeral := ⟨16, some 4, true, UInt16.size⟩

def port : Numeral := ⟨10, none, true, UInt16.size⟩

/-- The number of the interface that a link-local address belongs to. -/
def scope : Numeral := ⟨10, none, true, UInt32.size⟩

def takeOctet : Taker UInt8 := fun s => (octet.take s).map fun (n, s) => (n.toUInt8, s)

def takeDotOctet : Taker UInt8 := fun s => (takeChar '.' s).bind takeOctet

def takeIpv4 : Taker Ipv4 := fun s => do
  let (a, s) ← takeOctet s
  let (b, s) ← takeDotOctet s
  let (c, s) ← takeDotOctet s
  let (d, s) ← takeDotOctet s
  return (⟨a, b, c, d⟩, s)

/-- The colon in front of every group but the first of a part. -/
def takeSeparator (isFirst : Bool) (s : List Char) : Option (List Char) :=
  if isFirst then some s else takeChar ':' s

/-- A part of an IPv6 address: its groups, and whether it ends in an IPv4 address. -/
structure Part where
  groups : List UInt16
  endsInIpv4 : Bool

/-- Takes at most `room` groups; an IPv4 address stands for two of them. -/
def takeGroups : (room : Nat) → (isFirst : Bool) → List Char → Part × List Char
  | 0, _, s => (⟨[], false⟩, s)
  | room + 1, isFirst, s =>
    match if room = 0 then none else (takeSeparator isFirst s).bind takeIpv4 with
    | some (ip, s) => (⟨ip.groups, true⟩, s)
    | none =>
      match (takeSeparator isFirst s).bind group.take with
      | some (n, s) =>
        let (part, s) := takeGroups room false s
        (⟨n.toUInt16 :: part.groups, part.endsInIpv4⟩, s)
      | none => (⟨[], false⟩, s)

/-- Either eight groups, or up to seven in two parts with two colons in between. -/
def takeIpv6 : Taker Ipv6 := fun s => do
  let (head, s) := takeGroups 8 true s
  if head.groups.length = 8 then
    return (← Ipv6.ofGroups? head.groups, s)
  if head.endsInIpv4 then none
  let s ← takeChar ':' s
  let s ← takeChar ':' s
  let (tail, s) := takeGroups (7 - head.groups.length) true s
  let zeros := List.replicate (8 - head.groups.length - tail.groups.length) 0
  return (← Ipv6.ofGroups? (head.groups ++ zeros ++ tail.groups), s)

def takeIp : Taker Ip := fun s =>
  match takeIpv4 s with
  | some (ip, s) => some (.v4 ip, s)
  | none => (takeIpv6 s).map fun (ip, s) => (.v6 ip, s)

/-- Applies a taker to a whole text. -/
def ofWhole? {α : Type} (take : Taker α) (s : String) : Option α :=
  match take s.toList with
  | some (a, []) => some a
  | _ => none

def Ip.ofString? (s : String) : Option Ip := ofWhole? takeIp s

end NatBehaviour.Net
