import OnScreen.Json.Error
import OnScreen.Text.Digit
import OnScreen.Word

namespace OnScreen.Json

/-!
# Numbers in JSON

A numeral is an optional minus, a whole part without leading zeros, and optionally a fraction and
an exponent.  A numeral of digits alone that fits a 64-bit word is a whole number; every other one
is a binary floating point number, and one that is too large is none at all.

* `readNumeral` — the spelling.
* `Numeral.value?` — the number it denotes.
-/

/-! ### Spelling -/

/-- The parts of a numeral. -/
structure Numeral where
  negative : Bool
  whole : List Nat
  fraction : Option (List Nat)
  exponent : Option Int
  deriving DecidableEq, Repr

/-- Digits of which there must be one. -/
def needDigits (cs : List Char) : Attempt (List Nat × List Char) :=
  match cs with
  | [] => .error .truncated
  | c :: rest =>
    match Text.decimalValue? c with
    | none => .error .malformed
    | some d =>
      let (ds, rest) := Text.takeDigits rest
      .ok (d :: ds, rest)

/-- The whole part of a numeral: a zero that stands alone, or digits that do not begin with one. -/
def readWhole (cs : List Char) : Attempt (List Nat × List Char) := do
  let (ds, rest) ← needDigits cs
  match ds with
  | 0 :: _ :: _ => .error .malformed
  | _ => .ok (ds, rest)

/-- The fraction of a numeral, if there is one. -/
def readFraction (cs : List Char) : Attempt (Option (List Nat) × List Char) :=
  match cs with
  | '.' :: rest => (needDigits rest).map fun (ds, rest) => (some ds, rest)
  | cs => .ok (none, cs)

/-- The exponent of a numeral, if there is one. -/
def readExponent (cs : List Char) : Attempt (Option Int × List Char) :=
  match cs with
  | [] => .ok (none, [])
  | c :: rest =>
    if c = 'e' ∨ c = 'E' then
      let (negative, rest) :=
        match rest with
        | '-' :: rest => (true, rest)
        | '+' :: rest => (false, rest)
        | rest => (false, rest)
      (needDigits rest).map fun (ds, rest) =>
        let n : Int := Text.ofDigits 10 ds
        (some (if negative then -n else n), rest)
    else .ok (none, c :: rest)

/-- Reads what follows the minus of a numeral, or all of it when there is none. -/
def readMagnitude (negative : Bool) (cs : List Char) : Attempt (Numeral × List Char) := do
  let (whole, rest) ← readWhole cs
  let (fraction, rest) ← readFraction rest
  let (exponent, rest) ← readExponent rest
  .ok (⟨negative, whole, fraction, exponent⟩, rest)

/-- Reads a numeral. -/
def readNumeral (cs : List Char) : Attempt (Numeral × List Char) :=
  match cs with
  | '-' :: rest => readMagnitude true rest
  | cs => readMagnitude false cs

/-! ### Meaning -/

/-- A number. -/
inductive Number where
  /-- A whole number, no less than `-2^63` and less than `2^64`. -/
  | whole (n : Int)
  | real (x : Decimal.Binary64)
  deriving DecidableEq, Repr

/-- The largest number that digits are gathered into. -/
def mostGathered : Nat := wordLimit - 1

/-- Appends digits to a number, up to the first that would make it too large.  The second component
    holds the digits that are left. -/
def gather (n : Nat) : List Nat → Nat × List Nat
  | [] => (n, [])
  | d :: ds => if n * 10 + d ≤ mostGathered then gather (n * 10 + d) ds else (n, d :: ds)

namespace Numeral

/-- The number that a numeral denotes, if it is not too large.  Digits that were not gathered count
    by their number only. -/
def value? (x : Numeral) : Option Number :=
  let (n, left) := gather 0 x.whole
  let real (digits : Nat) (power : Int) : Option Number :=
    (Decimal.Magnitude.ofScaled digits power).map fun m => .real ⟨x.negative, m⟩
  match x.fraction, x.exponent with
  | none, none =>
    if left ≠ [] then real n left.length
    else if !x.negative then some (.whole n)
    else if n = 0 ∨ signedLimit < n then real n 0
    else some (.whole (-(n : Int)))
  | fraction, exponent =>
    let fraction := fraction.getD []
    let (m, more) := gather n fraction
    real m (left.length - ((fraction.length : Int) - more.length) + exponent.getD 0)

end Numeral

/-- Reads a number. -/
def readNumber (cs : List Char) : Attempt (Number × List Char) := do
  let (x, rest) ← readNumeral cs
  match x.value? with
  | some n => .ok (n, rest)
  | none => .error .malformed

/-- Passes over a number without asking how large it is. -/
def skipNumber (cs : List Char) : Attempt (List Char) :=
  match readNumeral cs with
  | .ok (_, rest) => .ok rest
  | .error _ => .error .malformed

/-- A whole number, written out. -/
def writeWhole (n : Int) : List Char := (toString n).toList

end OnScreen.Json
