import NatBehaviour.Json.Reader
import NatBehaviour.Text.Utf8

/-!
JSON texts, read from behind the opening quote. A text that is kept has to be UTF-8 and its
surrogate escapes have to be paired; of a text that is skipped only the escapes' shape counts.
-/

namespace NatBehaviour.Json

open NatBehaviour.Text (Utf8.toString? Utf8.encodeChar)

def hexDigit? (b : UInt8) : Option Nat :=
  if isDigit b then some (b.toNat - 0x30)
  else if 0x41 ≤ b && b ≤ 0x46 then some (b.toNat - 0x37)
  else if 0x61 ≤ b && b ≤ 0x66 then some (b.toNat - 0x57)
  else none

/-- The four digits behind `\u`. -/
def readHex : Reader Nat
  | a :: b :: c :: d :: s =>
    match hexDigit? a, hexDigit? b, hexDigit? c, hexDigit? d with
    | some a, some b, some c, some d => .ok (a * 4096 + b * 256 + c * 16 + d, s)
    | _, _, _, _ => .error .invalidEscape
  | _ => .error .endInText

def isLeading (n : Nat) : Bool := 0xD800 ≤ n && n ≤ 0xDBFF

def isTrailing (n : Nat) : Bool := 0xDC00 ≤ n && n ≤ 0xDFFF

/-- The second half of a surrogate pair. -/
def readTrailing (leading : Nat) : Reader Char
  | [] => .error .endInText
  | b :: s =>
    if b ≠ code '\\' then .error .brokenSurrogatePair
    else
      match s with
      | [] => .error .endInText
      | u :: s =>
        if u ≠ code 'u' then .error .brokenSurrogatePair
        else
          match readHex s with
          | .error cause => .error cause
          | .ok (n, s) =>
            if isTrailing n then
              .ok (Char.ofNat ((leading - 0xD800) * 1024 + (n - 0xDC00) + 0x10000), s)
            else .error .loneSurrogate

/-- The character of a `\u` escape. -/
def readUnicode (s : Bytes) : Except Cause (Char × Bytes) :=
  match readHex s with
  | .error cause => .error cause
  | .ok (n, s) =>
    if isTrailing n then .error .loneSurrogate
    else if isLeading n then readTrailing n s
    else .ok (Char.ofNat n, s)

/-- What a one-letter escape stands for. -/
def shortEscape? (b : UInt8) : Option UInt8 :=
  if b = code '"' then some 0x22
  else if b = code '\\' then some 0x5C
  else if b = code '/' then some 0x2F
  else if b = code 'b' then some 0x08
  else if b = code 'f' then some 0x0C
  else if b = code 'n' then some 0x0A
  else if b = code 'r' then some 0x0D
  else if b = code 't' then some 0x09
  else none

/-- The bytes of an escape, from behind the backslash. -/
def readEscape : Reader Bytes
  | [] => .error .endInText
  | b :: s =>
    if b = code 'u' then
      match readUnicode s with
      | .error cause => .error cause
      | .ok (c, s) => .ok (Utf8.encodeChar c, s)
    else
      match shortEscape? b with
      | some b => .ok ([b], s)
      | none => .error .invalidEscape

/-- Adds one byte or escape to those read before, which are kept last one first. -/
def textStep (read : Bytes) : Bytes → Except Cause (Step Bytes)
  | [] => .error .endInText
  | b :: s =>
    if b = code '"' then .ok (.done read s)
    else if b = code '\\' then
      match readEscape s with
      | .error cause => .error cause
      | .ok (bytes, s) => .ok (.more (bytes.reverse ++ read) s)
    else if b < 0x20 then .error .controlCharacter
    else .ok (.more (b :: read) s)

/-- A text that is kept. -/
def readText (s : Bytes) : Except Cause (String × Bytes) :=
  match loop textStep [] s with
  | .error cause => .error cause
  | .ok (read, s) =>
    match Utf8.toString? read.reverse with
    | some text => .ok (text, s)
    | none => .error .invalidUtf8

/-- Passes over an escape, from behind the backslash. -/
def skipEscape : Bytes → Except Cause Bytes
  | [] => .error .endInText
  | b :: s =>
    if b = code 'u' then
      match readHex s with
      | .error cause => .error cause
      | .ok (_, s) => .ok s
    else if (shortEscape? b).isSome then .ok s
    else .error .invalidEscape

def skipTextStep (_ : Unit) : Bytes → Except Cause (Step Unit)
  | [] => .error .endInText
  | b :: s =>
    if b = code '"' then .ok (.done () s)
    else if b = code '\\' then
      match skipEscape s with
      | .error cause => .error cause
      | .ok s => .ok (.more () s)
    else if b < 0x20 then .error .controlCharacter
    else .ok (.more () s)

/-- A text that is passed over. -/
def skipText (s : Bytes) : Except Cause Bytes :=
  match loop skipTextStep () s with
  | .error cause => .error cause
  | .ok (_, s) => .ok s

end NatBehaviour.Json
