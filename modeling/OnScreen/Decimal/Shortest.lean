import OnScreen.Decimal.Binary64

namespace OnScreen.Decimal

/-!
# The shortest digits of a number

A decimal stands for the binary number nearest to it.  The shortest text of a number is the
shortest decimal that stands for it; of several with that many digits it is the one nearest to the
number.  The digits do not settle how they are laid out, which is left to a `RealStyle`.
-/

/-- A decimal `0.d₁d₂… * 10 ^ (order + 1)`, that is `d₁.d₂… * 10 ^ order`. -/
structure Digits where
  digits : List Char
  order : Int
  deriving DecidableEq, Repr

/-- The decimals that stand for a number are those between `low / den` and `high / den`, the ends
    included when `closed`. -/
structure ReadInterval where
  low : Nat
  high : Nat
  den : Nat
  closed : Bool

namespace ReadInterval

/-- The interval of a positive number.  The gap below a power of two is half the gap above it. -/
def of (x : Magnitude) : ReadInterval :=
  let e := x.exponent - 2
  let unit := Nat.pow 2 e.toNat
  let isPower := x.significand = Magnitude.leastNormal ∧ Magnitude.leastExponent < x.exponent
  let below := if isPower then 1 else 2
  { low := (4 * x.significand - below) * unit
    high := (4 * x.significand + 2) * unit
    den := Nat.pow 2 (-e).toNat
    closed := x.significand % 2 = 0 }

/-- Whether the fraction `num / den` is in the interval. -/
def contains (i : ReadInterval) (num den : Nat) : Bool :=
  if i.closed then i.low * den ≤ num * i.den ∧ num * i.den ≤ i.high * den
  else i.low * den < num * i.den ∧ num * i.den < i.high * den

end ReadInterval

namespace Magnitude

/-- How often a positive fraction below one can be multiplied by ten before it reaches one. -/
def leadingZeros (num den : Nat) : Nat → Nat
  | 0 => 0
  | n + 1 => if den ≤ num then 0 else leadingZeros (num * 10) den n + 1

/-- The largest `k` with `10 ^ k ≤ x`, for positive `x`. -/
def decimalOrder (x : Magnitude) : Int :=
  if x.den ≤ x.num then ((Nat.toDigits 10 (x.num / x.den)).length : Int) - 1
  else -(leadingZeros x.num x.den 400 : Int)

/-- A whole number of units `10 ^ unit` as a decimal. -/
def digitsOf (q : Nat) (unit : Int) : Digits :=
  let ds := Nat.toDigits 10 q
  ⟨(ds.reverse.dropWhile (· = '0')).reverse, unit + ds.length - 1⟩

/-- The decimal with the given unit that stands for `x` and is nearest to it, if there is one. -/
def nearestOnGrid? (x : Magnitude) (unit : Int) : Option Digits :=
  let scale := Nat.pow 10 unit.toNat
  let den := Nat.pow 10 (-unit).toNat
  -- the value in units is `num / units`
  let num := x.num * den
  let units := x.den * scale
  let q := num / units
  let i := ReadInterval.of x
  let lower := i.contains (q * scale) den
  let upper := i.contains ((q + 1) * scale) den
  let isNear := 2 * (num % units) < units ∨ (2 * (num % units) = units ∧ q % 2 = 0)
  let nearer := if isNear then q else q + 1
  if lower && upper then some (digitsOf nearer unit)
  else if lower then some (digitsOf q unit)
  else if upper then some (digitsOf (q + 1) unit)
  else none

/-- The first grid with a decimal for `x`, from coarse to fine. -/
def firstGrid (x : Magnitude) (unit : Int) : Nat → Digits
  | 0 => digitsOf 0 0
  | n + 1 => (x.nearestOnGrid? unit).getD (firstGrid x (unit - 1) n)

/-- The shortest decimal that stands for a positive number.  Seventeen digits always suffice. -/
def shortest (x : Magnitude) : Digits := x.firstGrid x.decimalOrder 17

end Magnitude

/-- How the digits of a number are laid out. -/
structure RealStyle where
  /-- The orders that are written without an exponent. -/
  leastPositional : Int
  mostPositional : Int
  /-- What stands before the exponent, and its sign when it is not negative. -/
  mark : String
  plus : String

namespace RealStyle

/-- The layout of a decimal. -/
def layout (style : RealStyle) (d : Digits) : String :=
  let ds := d.digits
  if style.leastPositional ≤ d.order ∧ d.order ≤ style.mostPositional then
    if d.order < 0 then
      "0." ++ String.ofList (List.replicate ((-d.order).toNat - 1) '0' ++ ds)
    else
      let whole := d.order.toNat + 1
      let fraction := ds.drop whole
      String.ofList (ds.take whole ++ List.replicate (whole - ds.length) '0')
        ++ "." ++ (if fraction.isEmpty then "0" else String.ofList fraction)
  else
    String.ofList (ds.take 1)
      ++ (if ds.length ≤ 1 then "" else "." ++ String.ofList (ds.drop 1))
      ++ style.mark ++ (if d.order < 0 then "-" else style.plus) ++ toString d.order.natAbs

/-- The text of a number.  It always shows a point or an exponent. -/
def render (style : RealStyle) (x : Binary64) : String :=
  (if x.negative then "-" else "")
    ++ if x.magnitude.isZero then "0.0" else style.layout x.magnitude.shortest

end RealStyle

end OnScreen.Decimal
