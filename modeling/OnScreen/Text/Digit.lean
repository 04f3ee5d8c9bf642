namespace OnScreen.Text

/-!
# Digits

What digits are worth, and runs of them at the start of a text.
-/

/-- The value of a decimal digit. -/
def decimalValue? (c : Char) : Option Nat :=
  if '0' ≤ c ∧ c ≤ '9' then some (c.toNat - 48) else none

/-- The value of a hexadecimal digit of either case. -/
def hexValue? (c : Char) : Option Nat :=
  if '0' ≤ c ∧ c ≤ '9' then some (c.toNat - 48)
  else if 'a' ≤ c ∧ c ≤ 'f' then some (c.toNat - 87)
  else if 'A' ≤ c ∧ c ≤ 'F' then some (c.toNat - 55)
  else none

/-- The number that digits denote in a base. -/
def ofDigits (base : Nat) (ds : List Nat) : Nat := ds.foldl (fun n d => n * base + d) 0

/-- The decimal digits at the start of a text, and what follows them. -/
def takeDigits : List Char → List Nat × List Char
  | [] => ([], [])
  | c :: rest =>
    match decimalValue? c with
    | none => ([], c :: rest)
    | some d =>
      let (ds, rest) := takeDigits rest
      (d :: ds, rest)

end OnScreen.Text
