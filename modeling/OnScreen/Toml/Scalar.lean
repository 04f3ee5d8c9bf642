import OnScreen.Decimal.Binary64
import OnScreen.Text.Digit
import OnScreen.Word

namespace OnScreen.Toml

/-!
# Numbers and dates in TOML

Whole numbers have 64 bits and a sign.  Floating point numbers and dates are checked for their
spelling and their range and are not kept.
-/

/-! ### Digits -/

/-- The digits at the start of a text, by `value?`.  Underscores may stand between two digits. -/
def takeSpaced (value? : Char → Option Nat) : List Char → List Nat × List Char
  | [] => ([], [])
  | [c] =>
    match value? c with
    | some d => ([d], [])
    | none => ([], [c])
  | c :: c' :: rest =>
    match value? c with
    | none => ([], c :: c' :: rest)
    | some d =>
      if c' = '_' then
        match takeSpaced value? rest with
        | ([], _) => ([d], c' :: rest)
        | (ds, left) => (d :: ds, left)
      else
        let (ds, left) := takeSpaced value? (c' :: rest)
        (d :: ds, left)

/-- Digits of which there must be one. -/
def spaced? (value? : Char → Option Nat) (cs : List Char) : Option (List Nat × List Char) :=
  match takeSpaced value? cs with
  | ([], _) => none
  | r => some r

/-- Passes over a sign, if there is one, and tells whether it is a minus. -/
def takeSign : List Char → Bool × List Char
  | '+' :: rest => (false, rest)
  | '-' :: rest => (true, rest)
  | cs => (false, cs)

/-- The digits of a decimal whole number: a zero stands alone. -/
def wholeDigits? (cs : List Char) : Option (List Nat × List Char) :=
  match cs with
  | '0' :: rest => some ([0], rest)
  | cs => spaced? Text.decimalValue? cs

/-! ### Whole numbers -/

/-- A digit of a base. -/
def baseValue? (base : Nat) (c : Char) : Option Nat := (Text.hexValue? c).filter fun d => d < base

/-- Reads a whole number. -/
def integer? (cs : List Char) : Option (Int × List Char) :=
  match cs with
  | '0' :: 'x' :: rest => unsigned 16 rest
  | '0' :: 'o' :: rest => unsigned 8 rest
  | '0' :: 'b' :: rest => unsigned 2 rest
  | cs => do
    let (negative, rest) := takeSign cs
    let (ds, rest) ← wholeDigits? rest
    let n := Text.ofDigits 10 ds
    if negative then if n ≤ signedLimit then some (-(n : Int), rest) else none
    else if n < signedLimit then some ((n : Int), rest)
    else none
where
  /-- A number in another base than ten has no sign. -/
  unsigned (base : Nat) (cs : List Char) : Option (Int × List Char) := do
    let (ds, rest) ← spaced? (baseValue? base) cs
    let n := Text.ofDigits base ds
    if n < signedLimit then some ((n : Int), rest) else none

/-! ### Floating point numbers -/

/-- The fraction of a number, if there is one. -/
def fraction? (cs : List Char) : Option (List Nat × List Char) :=
  match cs with
  | '.' :: rest => spaced? Text.decimalValue? rest
  | _ => none

/-- The exponent of a number, if there is one. -/
def exponent? (cs : List Char) : Option (Int × List Char) :=
  match cs with
  | [] => none
  | c :: rest =>
    if c = 'e' ∨ c = 'E' then do
      let (negative, rest) := takeSign rest
      let (ds, rest) ← spaced? Text.decimalValue? rest
      let n : Int := Text.ofDigits 10 ds
      some (if negative then -n else n, rest)
    else none

/-- Whether a decimal is not too large for a floating point number.  Decimals that are far away from
    the bound are decided by their order alone. -/
def isFinite (digits : List Nat) (power : Int) : Bool :=
  let ds := digits.dropWhile (· = 0)
  let order := ds.length + power
  if ds = [] ∨ order < -400 then true
  else if 400 < order then false
  else
    (Decimal.Magnitude.ofRatio (Text.ofDigits 10 ds * Nat.pow 10 power.toNat)
      (Nat.pow 10 (-power).toNat)).isSome

/-- Passes over a floating point number.  One that is too large is refused if it is positive. -/
def float? (cs : List Char) : Option (List Char) :=
  let (negative, rest) := takeSign cs
  match rest with
  | 'i' :: 'n' :: 'f' :: rest => some rest
  | 'n' :: 'a' :: 'n' :: rest => some rest
  | rest => do
    let (whole, rest) ← wholeDigits? rest
    let (fraction, afterFraction) := (fraction? rest).getD ([], rest)
    let (exponent, afterExponent) := (exponent? afterFraction).getD (0, afterFraction)
    if afterExponent.length = rest.length then none
    else if negative ∨ isFinite (whole ++ fraction) (exponent - fraction.length) then
      some afterExponent
    else none

/-! ### Dates and times -/

/-- A number of exactly that many digits, in a range. -/
def fixed? (digits least most : Nat) (cs : List Char) : Option (Nat × List Char) := do
  let ds ← (cs.take digits).mapM Text.decimalValue?
  let n := Text.ofDigits 10 ds
  if ds.length = digits ∧ least ≤ n ∧ n ≤ most then some (n, cs.drop digits) else none

/-- Passes over a character. -/
def sign? (c : Char) : List Char → Option (List Char)
  | [] => none
  | d :: rest => if d = c then some rest else none

/-- How many days a month has. -/
def daysOf (year month : Nat) : Nat :=
  if month = 2 then if year % 4 = 0 ∧ (year % 100 ≠ 0 ∨ year % 400 = 0) then 29 else 28
  else if month = 4 ∨ month = 6 ∨ month = 9 ∨ month = 11 then 30
  else 31

/-- Passes over a date. -/
def date? (cs : List Char) : Option (List Char) := do
  let (year, cs) ← fixed? 4 0 9999 cs
  let cs ← sign? '-' cs
  let (month, cs) ← fixed? 2 1 12 cs
  let cs ← sign? '-' cs
  let (_, cs) ← fixed? 2 1 (daysOf year month) cs
  some cs

/-- Passes over a time of day.  A leap second is fine, and so is any fraction of a second. -/
def time? (cs : List Char) : Option (List Char) := do
  let (_, cs) ← fixed? 2 0 23 cs
  let cs ← sign? ':' cs
  let (_, cs) ← fixed? 2 0 59 cs
  let cs ← sign? ':' cs
  let (_, cs) ← fixed? 2 0 60 cs
  match cs with
  | '.' :: rest =>
    match Text.takeDigits rest with
    | ([], _) => some cs
    | (_, rest) => some rest
  | cs => some cs

/-- Passes over the offset of a time. -/
def offset? (cs : List Char) : Option (List Char) :=
  match cs with
  | [] => none
  | c :: rest =>
    if c = 'Z' ∨ c = 'z' then some rest
    else if c = '+' ∨ c = '-' then do
      let (_, cs) ← fixed? 2 0 23 rest
      let cs ← sign? ':' cs
      let (_, cs) ← fixed? 2 0 59 cs
      some cs
    else none

/-- Passes over a date, a time of day, or both; only both together can have an offset. -/
def dateTime? (cs : List Char) : Option (List Char) :=
  match date? cs with
  | none => time? cs
  | some [] => some []
  | some (c :: rest) =>
    if c = 'T' ∨ c = 't' ∨ c = ' ' then
      match time? rest with
      | none => some (c :: rest)
      | some rest => some ((offset? rest).getD rest)
    else some (c :: rest)

end OnScreen.Toml
