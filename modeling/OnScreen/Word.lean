namespace OnScreen

/-!
# Words

The whole numbers that fit a 64-bit word, without and with a sign.
-/

/-- The first number that does not fit a word: two to the power of 64. -/
def wordLimit : Nat := 18446744073709551616

/-- The first number that does not fit a word with a sign: two to the power of 63. -/
def signedLimit : Nat := 9223372036854775808

end OnScreen
