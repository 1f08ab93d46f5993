import NatBehaviour.Decimal.Binary64

/-!
The shortest decimal text of a binary number.

`digits` finds the fewest decimal digits that read back as the number, and among those the ones
nearest to it. `Layout` says how such digits are written down.
-/

namespace NatBehaviour.Decimal

/-- A decimal number: `significand * 10 ^ exponent`. -/
structure Digits where
  significand : Nat
  exponent : Int
  deriving DecidableEq, Repr

/-- The numbers that round to one binary number, over a common denominator. The ends belong to them
where the mantissa is even. -/
structure Neighbourhood where
  low : Nat
  value : Nat
  high : Nat
  denominator : Nat
  closed : Bool

namespace Neighbourhood

/-- Half the distance to the next number on either side; below a power of two that is a quarter. -/
def of (x : Binary64) : Neighbourhood :=
  let m := 4 * x.mantissa
  let below := if x.mantissa = 1 <<< 52 ∧ x.exponent > Binary64.leastExponent then 1 else 2
  let e := x.exponent - 2
  let up := if 0 ≤ e then 1 <<< e.toNat else 1
  let down := if 0 ≤ e then 1 else 1 <<< (-e).toNat
  ⟨(m - below) * up, m * up, (m + 2) * up, down, x.mantissa % 2 = 0⟩

/-- Whether `num / den` rounds to the number. -/
def contains (h : Neighbourhood) (num den : Nat) : Bool :=
  let v := num * h.denominator
  if h.closed then h.low * den ≤ v && v ≤ h.high * den else h.low * den < v && v < h.high * den

end Neighbourhood

/-- Numerator and denominator of a decimal number. -/
def Digits.ratio (d : Digits) : Nat × Nat :=
  if 0 ≤ d.exponent then (d.significand * Nat.pow 10 d.exponent.toNat, 1)
  else (d.significand, Nat.pow 10 (-d.exponent).toNat)

/-- Whether `num / den` is at least ten to the power `e`. -/
def atLeastPower (num den : Nat) (e : Int) : Bool :=
  if 0 ≤ e then den * Nat.pow 10 e.toNat ≤ num else den ≤ num * Nat.pow 10 (-e).toNat

/-- The power of ten of the leading digit of `num / den`, from an estimate that is off by one at
most. -/
def leadingPower (num den : Nat) : Int :=
  let e := ((num.log2 : Int) - den.log2) * 30103 / 100000
  if !atLeastPower num den e then e - 1
  else if atLeastPower num den (e + 1) then e + 1
  else e

/-- A multiple of ten to the power `e`, written on the next coarser grid if it lies on that. -/
def gridPoint (n : Nat) (e : Int) : Digits := if n % 10 = 0 then ⟨n / 10, e + 1⟩ else ⟨n, e⟩

/-- The neighbours of a number on the grid of multiples of ten to the power `e`. -/
def gridPoints (h : Neighbourhood) (e : Int) : Digits × Digits :=
  let n := if 0 ≤ e then h.value / (h.denominator * Nat.pow 10 e.toNat)
    else h.value * Nat.pow 10 (-e).toNat / h.denominator
  (gridPoint n e, gridPoint (n + 1) e)

/-- Whether the lower of two grid points around a number is nearer than the upper one, or equally
near and even. -/
def nearerLow (h : Neighbourhood) (lower upper : Digits) : Bool :=
  let (a, c) := lower.ratio
  let (b, d) := upper.ratio
  let twice := 2 * h.value * c * d
  let middle := (a * d + b * c) * h.denominator
  twice < middle || (twice = middle && lower.significand % 2 = 0)

/-- The nearer of the two grid points that read back as the number, if any does. -/
def onGrid? (h : Neighbourhood) (e : Int) : Option Digits :=
  let (lower, upper) := gridPoints h e
  let fits (d : Digits) : Bool := h.contains d.ratio.1 d.ratio.2
  match fits lower, fits upper with
  | true, true => some (if nearerLow h lower upper then lower else upper)
  | true, false => some lower
  | false, true => some upper
  | false, false => none

/-- The shortest digits of a number other than zero: seventeen always suffice. -/
def digits (x : Binary64) : Digits :=
  let h := Neighbourhood.of x
  let lead := leadingPower h.value h.denominator
  ((List.range 17).findSome? fun (n : Nat) => onGrid? h (lead - n)).getD (gridPoints h (lead - 16)).1

/-- How digits are laid out: positionally while the power of the leading digit lies within bounds,
else with an exponent that always has a sign. -/
structure Layout where
  lowestPositional : Int
  highestPositional : Int
  deriving DecidableEq, Repr

namespace Layout

def signed (e : Int) : String := if e < 0 then toString e else s!"+{e}"

/-- A number with digits on both sides of the point, or a leading digit with an exponent. -/
def text (layout : Layout) (x : Binary64) : String :=
  if x.isZero then "0.0"
  else
    let d := digits x
    let ds := Nat.toDigits 10 d.significand
    let lead : Int := d.exponent + ds.length - 1
    let ofChars := String.ofList
    if layout.lowestPositional ≤ lead ∧ lead ≤ layout.highestPositional then
      if 0 ≤ d.exponent then ofChars (ds ++ List.replicate d.exponent.toNat '0' ++ ['.', '0'])
      else if 0 ≤ lead then
        let whole := lead.toNat + 1
        ofChars (ds.take whole ++ '.' :: ds.drop whole)
      else ofChars ('0' :: '.' :: List.replicate (-lead).toNat.pred '0' ++ ds)
    else
      match ds with
      | [d] => ofChars [d] ++ "e" ++ signed lead
      | d :: rest => ofChars (d :: '.' :: rest) ++ "e" ++ signed lead
      | [] => ""

end Layout

end NatBehaviour.Decimal
