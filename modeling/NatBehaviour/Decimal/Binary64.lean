/-!
Finite binary floating-point numbers of 64 bits, with rounding to the nearest and ties to the even
neighbour, in exact arithmetic on natural numbers.

`ofScientific?` reads a decimal number the quick way: the significand is rounded first and then
multiplied or divided by a rounded power of ten, so its last digit may differ from that of the
nearest number.
-/

namespace NatBehaviour.Decimal

/-- The magnitude `mantissa * 2 ^ exponent`. The mantissa has at most 53 bits, and fewer only where
the exponent is the least one. -/
structure Binary64 where
  mantissa : Nat
  exponent : Int
  deriving DecidableEq, Repr

namespace Binary64

def leastExponent : Int := -1074

def greatestExponent : Int := 971

def zero : Binary64 := ⟨0, leastExponent⟩

def isZero (x : Binary64) : Bool := x.mantissa = 0

/-- The quotient rounded to the nearest integer, a tie to the even one. -/
def roundQuotient (num den : Nat) : Nat :=
  let q := num / den
  let r := num % den
  if 2 * r > den || (2 * r = den && q % 2 = 1) then q + 1 else q

/-- The fraction `num / den` divided by `2 ^ e`, again as a fraction. -/
def shifted (num den : Nat) (e : Int) : Nat × Nat :=
  if 0 ≤ e then (num, den <<< e.toNat) else (num <<< (-e).toNat, den)

/-- The exponent that gives `num / den` a mantissa of 53 bits, or the least exponent. -/
def exponentFor (num den : Nat) : Int :=
  let e : Int := (num.log2 : Int) - den.log2 - 52
  let (n, d) := shifted num den e
  max (if n < d <<< 52 then e - 1 else e) leastExponent

/-- The number nearest to `num / den`; `none` where that is beyond the largest one. -/
def ofRatio? (num den : Nat) : Option Binary64 :=
  if num = 0 then some zero
  else
    let e := exponentFor num den
    let (n, d) := shifted num den e
    let m := roundQuotient n d
    let x : Binary64 := if m = 1 <<< 53 then ⟨1 <<< 52, e + 1⟩ else ⟨m, e⟩
    if x.exponent ≤ greatestExponent then some x else none

/-- Numerator and denominator of a number. -/
def ratio (x : Binary64) : Nat × Nat :=
  if 0 ≤ x.exponent then (x.mantissa <<< x.exponent.toNat, 1)
  else (x.mantissa, 1 <<< (-x.exponent).toNat)

def mul? (x y : Binary64) : Option Binary64 :=
  ofRatio? (x.ratio.1 * y.ratio.1) (x.ratio.2 * y.ratio.2)

/-- A quotient by a number that is not zero. -/
def div? (x y : Binary64) : Option Binary64 :=
  ofRatio? (x.ratio.1 * y.ratio.2) (x.ratio.2 * y.ratio.1)

def powerOfTen? (n : Nat) : Option Binary64 := ofRatio? (Nat.pow 10 n) 1

/-- The largest power of ten that is a number, as an exponent. -/
def greatestPower : Nat := 308

/-- Multiplies by a power of ten. An exponent below the table is worked off by dividing by the
largest power first; `steps` bounds how often. -/
def scale? : Nat → Binary64 → Int → Option Binary64
  | 0, _, _ => some zero
  | steps + 1, x, e =>
    if e.natAbs ≤ greatestPower then
      (powerOfTen? e.natAbs).bind fun p => if 0 ≤ e then mul? x p else div? x p
    else if x.isZero then some x
    else if 0 ≤ e then none
    else
      (powerOfTen? greatestPower).bind fun p =>
        (div? x p).bind fun y => scale? steps y (e + greatestPower)

/-- The number written as `significand` times ten to the power `e`; `none` where it is too large.
Four steps take any significand of 64 bits to zero. -/
def ofScientific? (significand : Nat) (e : Int) : Option Binary64 :=
  (ofRatio? significand 1).bind fun x => scale? 4 x e

end Binary64

end NatBehaviour.Decimal
