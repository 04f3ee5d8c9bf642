namespace OnScreen.Decimal

/-!
# Binary floating point numbers

A finite number of the 64-bit binary format is a sign, a significand below `2^53` and a power of
two no smaller than `2^-1074`.  Arithmetic here is exact arithmetic on natural numbers followed by
one rounding to nearest, ties to the even significand; a result beyond the largest number of the
format is no number.

* `Magnitude.ofRatio` — the number nearest to a fraction.
* `Magnitude.ofScaled` — a decimal significand times a power of ten, one multiplication or division
  at a time.
-/

/-- The number `significand * 2 ^ exponent`. -/
structure Magnitude where
  significand : Nat
  exponent : Int
  deriving DecidableEq, Repr

/-- A number with its sign; zero has one too. -/
structure Binary64 where
  negative : Bool
  magnitude : Magnitude
  deriving DecidableEq, Repr

namespace Magnitude

/-- The exponent of the smallest numbers. -/
def leastExponent : Int := -1074

/-- The exponent of the largest numbers. -/
def mostExponent : Int := 971

/-- The least significand of a number that does not have the least exponent: two to the power
    of 52.  All significands are less than twice as large. -/
def leastNormal : Nat := 4503599627370496

/-- Zero. -/
def zero : Magnitude := ⟨0, leastExponent⟩

/-- Whether the number is zero. -/
def isZero (x : Magnitude) : Bool := x.significand == 0

/-- The quotient `num / den` as a whole number, a half going to the even neighbour. -/
def roundedQuotient (num den : Nat) : Nat :=
  let q := num / den
  let r := num % den
  if den < 2 * r ∨ (den = 2 * r ∧ q % 2 = 1) then q + 1 else q

/-- The largest `k` with `2 ^ k ≤ num / den`, for positive arguments. -/
def binaryOrder (num den : Nat) : Int :=
  let k : Int := (num.log2 : Int) - den.log2
  if num * Nat.pow 2 (-k).toNat < den * Nat.pow 2 k.toNat then k - 1 else k

/-- The number nearest to `num / den`, or nothing when that is too large. -/
def ofRatio (num den : Nat) : Option Magnitude :=
  if num = 0 then some zero
  else
    let e := max (binaryOrder num den - 52) leastExponent
    let m := roundedQuotient (num * Nat.pow 2 (-e).toNat) (den * Nat.pow 2 e.toNat)
    let x : Magnitude := if m = 2 * leastNormal then ⟨leastNormal, e + 1⟩ else ⟨m, e⟩
    if mostExponent < x.exponent then none else some x

/-- The numerator of the number as a fraction. -/
def num (x : Magnitude) : Nat := x.significand * Nat.pow 2 x.exponent.toNat

/-- The denominator of the number as a fraction. -/
def den (x : Magnitude) : Nat := Nat.pow 2 (-x.exponent).toNat

/-- The rounded product. -/
def mul (x y : Magnitude) : Option Magnitude := ofRatio (x.num * y.num) (x.den * y.den)

/-- The rounded quotient. -/
def div (x y : Magnitude) : Option Magnitude := ofRatio (x.num * y.den) (x.den * y.num)

/-- The largest power of ten that is scaled by at once. -/
def mostPower : Nat := 308

/-- The number nearest to a power of ten. -/
def tenTo (k : Nat) : Magnitude := (ofRatio (Nat.pow 10 k) 1).getD zero

/-- Scales down by the power of ten `k`, in strides of `mostPower`. -/
def scaleDown (x : Magnitude) (k : Nat) : Magnitude :=
  if x.isZero then x
  else if k ≤ mostPower then (x.div (tenTo k)).getD zero
  else scaleDown ((x.div (tenTo mostPower)).getD zero) (k - mostPower)
termination_by k
decreasing_by simp only [mostPower] at *; omega

/-- The number that the digits `digits` with the decimal exponent `power` are read as: the digits
    become a number first, which is then scaled.  Nothing, when that is too large. -/
def ofScaled (digits : Nat) (power : Int) : Option Magnitude := do
  let x ← ofRatio digits 1
  if power < 0 then some (x.scaleDown (-power).toNat)
  else if x.isZero then some zero
  else if power.toNat ≤ mostPower then x.mul (tenTo power.toNat)
  else none

end Magnitude

end OnScreen.Decimal
