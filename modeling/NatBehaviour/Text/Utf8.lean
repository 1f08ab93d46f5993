/-!
UTF-8 over lists of bytes. `decode` accepts a byte list exactly when it is the shortest encoding of
some list of characters, and returns that list; `encode` writes it back.
-/

namespace NatBehaviour.Text.Utf8

def encodeChar (c : Char) : List UInt8 :=
  let n := c.toNat
  if n < 0x80 then [n.toUInt8]
  else if n < 0x800 then [(0xC0 + n / 64).toUInt8, (0x80 + n % 64).toUInt8]
  else if n < 0x10000 then
    [(0xE0 + n / 4096).toUInt8, (0x80 + n / 64 % 64).toUInt8, (0x80 + n % 64).toUInt8]
  else
    [(0xF0 + n / 262144).toUInt8, (0x80 + n / 4096 % 64).toUInt8, (0x80 + n / 64 % 64).toUInt8,
     (0x80 + n % 64).toUInt8]

def encode (cs : List Char) : List UInt8 := cs.flatMap encodeChar

/-- The bytes of a text. -/
def ofString (s : String) : List UInt8 := encode s.toList

/-- Whether a byte continues a character begun by an earlier one. -/
def isTail (b : UInt8) : Bool := 0x80 ≤ b && b < 0xC0

/-- The six payload bits of a continuing byte. -/
def tailBits (b : UInt8) : Nat := b.toNat % 64

/-- The character of a code point that is no surrogate and lies within the given bounds. -/
def scalar? (least n : Nat) : Option Char :=
  if least ≤ n ∧ n.isValidChar then some (Char.ofNat n) else none

/-- Splits off the first character. -/
def uncons : List UInt8 → Option (Char × List UInt8)
  | [] => none
  | a :: s =>
    if a < 0x80 then some (Char.ofNat a.toNat, s)
    else if a < 0xC0 then none
    else if a < 0xE0 then
      match s with
      | b :: s =>
        if isTail b then (scalar? 0x80 (a.toNat % 32 * 64 + tailBits b)).map (·, s) else none
      | _ => none
    else if a < 0xF0 then
      match s with
      | b :: c :: s =>
        if isTail b && isTail c then
          (scalar? 0x800 (a.toNat % 16 * 4096 + tailBits b * 64 + tailBits c)).map (·, s)
        else none
      | _ => none
    else if a < 0xF8 then
      match s with
      | b :: c :: d :: s =>
        if isTail b && isTail c && isTail d then
          (scalar? 0x10000
            (a.toNat % 8 * 262144 + tailBits b * 4096 + tailBits c * 64 + tailBits d)).map (·, s)
        else none
      | _ => none
    else none

/-- Reads at most `fuel` characters, in order, in front of those already read (last one first). -/
def decodeLoop : Nat → List Char → List UInt8 → Option (List Char)
  | _, read, [] => some read.reverse
  | 0, _, _ => none
  | fuel + 1, read, s =>
    match uncons s with
    | some (c, rest) => decodeLoop fuel (c :: read) rest
    | none => none

/-- Every character takes at least one byte, so as many steps as bytes suffice. -/
def decode (s : List UInt8) : Option (List Char) := decodeLoop s.length [] s

def toString? (s : List UInt8) : Option String := (decode s).map String.ofList

end NatBehaviour.Text.Utf8
