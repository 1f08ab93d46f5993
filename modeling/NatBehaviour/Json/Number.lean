import NatBehaviour.Json.Reader

/-!
JSON numbers. The digits are gathered into a significand of 64 bits: those before the point that no
longer fit only raise the exponent, those after it are dropped.
-/

namespace NatBehaviour.Json

open NatBehaviour.Decimal (Binary64)

def greatestSignificand : Nat := UInt64.size - 1

/-- Appends digits while the significand has room; counts the digits taken and those left over. -/
def gather (significand : Nat) : Bytes → Nat × Nat × Nat
  | [] => (significand, 0, 0)
  | b :: digits =>
    let next := significand * 10 + (b.toNat - 0x30)
    if next ≤ greatestSignificand then
      let (significand, taken, left) := gather next digits
      (significand, taken + 1, left)
    else (significand, 0, digits.length + 1)

/-- A number in its parts. -/
structure Literal where
  negative : Bool
  whole : Bytes
  fraction : Option Bytes
  power : Option Int

namespace Literal

/-- Minus zero, and what does not fit into a signed or unsigned word, is no integer. -/
def integer? (negative : Bool) (n : Nat) : Option Int :=
  if negative then if 0 < n ∧ Int64.minValue.toInt ≤ -n then some (-n) else none else some n

def value? (l : Literal) : Except Cause Number :=
  let (significand, _, dropped) := gather 0 l.whole
  match l.fraction, l.power, dropped, integer? l.negative significand with
  | none, none, 0, some n => .ok (.integer n)
  | _, _, _, _ =>
    let (significand, taken, _) := gather significand (l.fraction.getD [])
    match Binary64.ofScientific? significand (dropped - taken + l.power.getD 0) with
    | some x => .ok (.real l.negative x)
    | none => .error .numberOutOfRange

end Literal

def digits (s : Bytes) : Bytes := s.takeWhile isDigit

def afterDigits (s : Bytes) : Bytes := s.dropWhile isDigit

/-- How a reader reports that a number breaks off at the end of the input: one that keeps the number
waits for the rest of a value, one that skips it finds the number invalid. -/
abbrev Ending := Cause

/-- The digits before the point: a zero stands alone. -/
def readWhole (ending : Ending) : Reader Bytes
  | [] => .error ending
  | b :: s =>
    if b = code '0' then
      match s with
      | [] => .ok ([b], s)
      | d :: _ => if isDigit d then .error .invalidNumber else .ok ([b], s)
    else if isDigit b then .ok (b :: digits s, afterDigits s)
    else .error .invalidNumber

/-- At least one digit, where the digits of a fraction or a power have to stand. -/
def readDigits (ending : Ending) (s : Bytes) : Except Cause (Bytes × Bytes) :=
  match s with
  | [] => .error ending
  | b :: _ => if isDigit b then .ok (digits s, afterDigits s) else .error .invalidNumber

def readFraction (ending : Ending) : Reader (Option Bytes)
  | [] => .ok (none, [])
  | b :: s =>
    if b = code '.' then
      match readDigits ending s with
      | .error cause => .error cause
      | .ok (ds, s) => .ok (some ds, s)
    else .ok (none, b :: s)

def digitsValue (ds : Bytes) : Nat := ds.foldl (fun n b => n * 10 + (b.toNat - 0x30)) 0

/-- Whether a sign stands in front, and what follows it. -/
def readSign : Bytes → Bool × Bytes
  | [] => (false, [])
  | b :: s =>
    if b = code '+' then (false, s) else if b = code '-' then (true, s) else (false, b :: s)

def readPower (ending : Ending) : Reader (Option Int)
  | [] => .ok (none, [])
  | b :: s =>
    if b = code 'e' || b = code 'E' then
      let (negative, s) := readSign s
      match readDigits ending s with
      | .error cause => .error cause
      | .ok (ds, s) =>
        let n : Int := digitsValue ds
        .ok (some (if negative then -n else n), s)
    else .ok (none, b :: s)

/-- The parts of a number that begins with a digit or a minus sign. -/
def readLiteral (ending : Ending) (s : Bytes) : Except Cause (Literal × Bytes) :=
  let negative := s.head? = some (code '-')
  match readWhole ending (if negative then s.tail else s) with
  | .error cause => .error cause
  | .ok (whole, s) =>
    match readFraction ending s with
    | .error cause => .error cause
    | .ok (fraction, s) =>
      match readPower ending s with
      | .error cause => .error cause
      | .ok (power, s) => .ok (⟨negative, whole, fraction, power⟩, s)

/-- A number that is kept. -/
def readNumber (s : Bytes) : Except Cause (Number × Bytes) :=
  match readLiteral .endInValue s with
  | .error cause => .error cause
  | .ok (l, s) =>
    match l.value? with
    | .error cause => .error cause
    | .ok n => .ok (n, s)

/-- A number that is passed over, however large it is. -/
def skipNumber (s : Bytes) : Except Cause Bytes :=
  match readLiteral .invalidNumber s with
  | .error cause => .error cause
  | .ok (_, s) => .ok s

end NatBehaviour.Json
