import Mathlib.Data.Nat.Digits.Defs
import OnScreen.Json.Number

namespace OnScreen.Json

/-!
# Whole numbers read back

A whole number is written in decimal, without a fraction and without an exponent.  Reading it takes
all of its digits and no more, as long as what follows cannot go on with the numeral, and the digits
gathered are the number again.

* `EndsValue` — what may follow a value.
* `readNumber_writeWhole` — every whole number that fits a word, with or without a sign, is read
  back.
-/

/-- What may follow a value: nothing at all, or a sign that separates or closes. -/
def EndsValue (rest : List Char) : Prop := ∀ c ∈ rest.head?, c = ',' ∨ c = ']' ∨ c = '}'

theorem endsValue_nil : EndsValue [] := nofun

/-- A value may end in front of a comma or of a bracket that closes. -/
theorem endsValue_cons {c : Char} (h : c = ',' ∨ c = ']' ∨ c = '}') (rest : List Char) :
    EndsValue (c :: rest) := by
  intro d hd
  cases hd
  exact h

/-- The digits of a number, as numbers. -/
def digitsOf (n : Nat) : List Nat := (Nat.toDigits 10 n).map fun d => d.toNat - 48

/-! ### The spelling -/

/-- What a decimal digit is worth is its place behind `0`. -/
theorem decimalValue?_of_isDigit {c : Char} (h : c.isDigit = true) :
    Text.decimalValue? c = some (c.toNat - 48) := by
  have range : '0' ≤ c ∧ c ≤ '9' := by simpa [Char.isDigit, Char.le_def] using h
  rw [Text.decimalValue?, if_pos range]

theorem isDigit_of_mem_toDigits {n : Nat} {d : Char} (h : d ∈ Nat.toDigits 10 n) :
    d.isDigit = true :=
  Nat.isDigit_of_mem_toDigits (by decide) (by decide) h

/-- No more digits are taken where the value ends. -/
theorem takeDigits_of_endsValue {rest : List Char} (h : EndsValue rest) :
    Text.takeDigits rest = ([], rest) := by
  cases rest with
  | nil => rfl
  | cons c tail => rcases h c rfl with rfl | rfl | rfl <;> rfl

/-- All digits are taken, and nothing behind them. -/
theorem takeDigits_append {ds rest : List Char} (digits : ∀ d ∈ ds, d.isDigit = true)
    (h : EndsValue rest) :
    Text.takeDigits (ds ++ rest) = (ds.map fun d => d.toNat - 48, rest) := by
  induction ds with
  | nil => exact takeDigits_of_endsValue h
  | cons d ds ih =>
    have first := decimalValue?_of_isDigit (digits d List.mem_cons_self)
    have others := ih fun e he => digits e (List.mem_cons_of_mem d he)
    simp only [List.cons_append, Text.takeDigits, first, others, List.map_cons]

/-- Only zero is written with a leading zero. -/
theorem exists_leading_digit {n : Nat} (h : 0 < n) :
    ∃ d ds, Nat.toDigits 10 n = d :: ds ∧ d.toNat - 48 ≠ 0 := by
  induction n using Nat.strong_induction_on with
  | _ n ih =>
    rw [Nat.toDigits_eq_if (by decide)]
    by_cases small : n < 10
    · -- a single digit, which is not zero
      rw [if_pos small]
      refine ⟨n.digitChar, [], rfl, ?_⟩
      rw [Nat.toNat_digitChar_of_lt_ten small]
      omega
    · rw [if_neg small]
      -- the leading digit is that of the tenth part
      obtain ⟨d, ds, digits, leading⟩ := ih (n / 10) (by omega) (by omega)
      exact ⟨d, ds ++ [(n % 10).digitChar], by rw [digits]; rfl, leading⟩

/-- The whole part of a numeral is read back from the digits of a number, which have no leading zero
    that it could trip over. -/
theorem readWhole_toDigits (n : Nat) {rest : List Char} (h : EndsValue rest) :
    readWhole (Nat.toDigits 10 n ++ rest) = .ok (digitsOf n, rest) := by
  rw [digitsOf]
  -- zero is the one number whose first digit is a zero, and nothing may follow it
  rcases Nat.eq_zero_or_pos n with rfl | positive
  · rw [Nat.toDigits_zero]
    simp [readWhole, needDigits, takeDigits_of_endsValue h, bind, Except.bind, Text.decimalValue?]
  · obtain ⟨d, ds, head, leading⟩ := exists_leading_digit positive
    have digits : ∀ e ∈ d :: ds, e.isDigit = true :=
      fun e he => isDigit_of_mem_toDigits (n := n) (head ▸ he)
    have first := decimalValue?_of_isDigit (digits d List.mem_cons_self)
    have others := takeDigits_append (fun e he => digits e (List.mem_cons_of_mem d he)) h
    rw [head]
    simp only [readWhole, needDigits, List.cons_append, first, others, bind, Except.bind]
    split
    · next zero => exact absurd (List.cons.inj zero).1 leading
    · rfl

/-- There is no fraction where the value ends. -/
theorem readFraction_of_endsValue {rest : List Char} (h : EndsValue rest) :
    readFraction rest = .ok (none, rest) := by
  cases rest with
  | nil => rfl
  | cons c tail => rcases h c rfl with rfl | rfl | rfl <;> rfl

/-- There is no exponent where the value ends. -/
theorem readExponent_of_endsValue {rest : List Char} (h : EndsValue rest) :
    readExponent rest = .ok (none, rest) := by
  cases rest with
  | nil => rfl
  | cons c tail => rcases h c rfl with rfl | rfl | rfl <;> rfl

/-- The digits of a number are read as a numeral of these digits, without fraction and exponent. -/
theorem readMagnitude_toDigits (negative : Bool) (n : Nat) {rest : List Char}
    (h : EndsValue rest) :
    readMagnitude negative (Nat.toDigits 10 n ++ rest) =
      .ok (⟨negative, digitsOf n, none, none⟩, rest) := by
  simp only [readMagnitude, readWhole_toDigits n h, readFraction_of_endsValue h,
    readExponent_of_endsValue h, bind, Except.bind]

/-- Without a minus in front, the whole numeral is its magnitude. -/
theorem readNumeral_toDigits (n : Nat) {rest : List Char} (h : EndsValue rest) :
    readNumeral (Nat.toDigits 10 n ++ rest) = .ok (⟨false, digitsOf n, none, none⟩, rest) := by
  rw [← readMagnitude_toDigits false n h]
  unfold readNumeral
  split
  · next tail signed =>
    -- no digit is a minus
    obtain ⟨d, ds, head⟩ := List.exists_cons_of_ne_nil (Nat.toDigits_ne_nil (n := n) (b := 10))
    have digit : d.isDigit = true := isDigit_of_mem_toDigits (head ▸ List.mem_cons_self)
    rw [head] at signed
    rw [(List.cons.inj signed).1] at digit
    cases digit
  · rfl

/-! ### The meaning -/

/-- Appending digits does not make a number smaller. -/
theorem le_foldl_digits (n : Nat) (ds : List Nat) : n ≤ ds.foldl (fun m d => m * 10 + d) n := by
  induction ds generalizing n with
  | nil => exact Nat.le_refl n
  | cons d ds ih => exact Nat.le_trans (by omega) (ih (n * 10 + d))

/-- Digits are all gathered when the number they make is not too large. -/
theorem gather_of_le {n : Nat} {ds : List Nat}
    (h : ds.foldl (fun m d => m * 10 + d) n ≤ mostGathered) :
    gather n ds = (ds.foldl (fun m d => m * 10 + d) n, []) := by
  induction ds generalizing n with
  | nil => rfl
  | cons d ds ih =>
    have fits : n * 10 + d ≤ mostGathered := Nat.le_trans (le_foldl_digits _ ds) h
    rw [gather, if_pos fits]
    exact ih h

/-- The digits of a number make that number. -/
theorem foldl_digitsOf (n : Nat) : (digitsOf n).foldl (fun m d => m * 10 + d) 0 = n := by
  have value : Nat.ofDigitChars 10 (Nat.toDigits 10 n) 0 = n :=
    Nat.ofDigitChars_toDigits (by decide) (by decide)
  rw [Nat.ofDigitChars_eq_foldl] at value
  rw [digitsOf, List.foldl_map]
  simp only [Nat.mul_comm _ 10]
  exact value

/-- **All digits fit**: below `wordLimit`, the digits of a number are gathered to it with none left
    over. -/
theorem gather_digitsOf {n : Nat} (h : n < wordLimit) : gather 0 (digitsOf n) = (n, []) := by
  have fits : (digitsOf n).foldl (fun m d => m * 10 + d) 0 ≤ mostGathered := by
    rw [foldl_digitsOf, mostGathered]
    omega
  rw [gather_of_le fits, foldl_digitsOf]

/-- A numeral without a sign stands for its number, if this is a word. -/
theorem value?_digitsOf {n : Nat} (h : n < wordLimit) :
    Numeral.value? ⟨false, digitsOf n, none, none⟩ = some (.whole n) := by
  simp [Numeral.value?, gather_digitsOf h]

/-- A numeral with a sign stands for its number below zero. Minus zero is left out: it stands for a
    decimal. -/
theorem value?_digitsOf_negative {n : Nat} (positive : 0 < n) (h : n ≤ signedLimit) :
    Numeral.value? ⟨true, digitsOf n, none, none⟩ = some (.whole (-(n : Int))) := by
  have fits : n < wordLimit := Nat.lt_of_le_of_lt h (by decide)
  have whole : ¬(n = 0 ∨ signedLimit < n) := by omega
  simp [Numeral.value?, gather_digitsOf fits, whole]

/-! ### Both together -/

/-- A number is written by the digits of its magnitude, behind a sign if it is below zero. -/
theorem writeWhole_eq (n : Int) :
    writeWhole n =
      if 0 ≤ n then Nat.toDigits 10 n.toNat else '-' :: Nat.toDigits 10 (-n).toNat := by
  rw [writeWhole, Int.toString_eq_repr, Int.repr_eq_if]
  split
  · exact Nat.toList_repr
  · rw [String.toList_append, Nat.toList_repr]
    rfl

/-- A written number begins with a minus or a digit. -/
theorem exists_writeWhole_eq_cons (n : Int) :
    ∃ c cs, writeWhole n = c :: cs ∧ (c = '-' ∨ c.isDigit = true) := by
  rw [writeWhole_eq]
  by_cases nonneg : 0 ≤ n
  · rw [if_pos nonneg]
    obtain ⟨d, ds, head⟩ :=
      List.exists_cons_of_ne_nil (Nat.toDigits_ne_nil (n := n.toNat) (b := 10))
    exact ⟨d, ds, head, .inr (isDigit_of_mem_toDigits (head ▸ List.mem_cons_self))⟩
  · rw [if_neg nonneg]
    exact ⟨_, _, rfl, .inl rfl⟩

/-- A whole number that fits a word is read back. -/
theorem readNumber_writeWhole {n : Int} (least : -signedLimit ≤ n) (most : n < wordLimit)
    {rest : List Char} (h : EndsValue rest) :
    readNumber (writeWhole n ++ rest) = .ok (.whole n, rest) := by
  rw [writeWhole_eq]
  -- with the sign the magnitude is below zero, so it is not minus zero
  by_cases nonneg : 0 ≤ n
  · have value := value?_digitsOf (n := n.toNat) (by omega)
    rw [if_pos nonneg]
    simp only [readNumber, readNumeral_toDigits _ h, bind, Except.bind, value]
    rw [Int.toNat_of_nonneg nonneg]
  · have numeral : readNumeral ('-' :: Nat.toDigits 10 (-n).toNat ++ rest) = _ :=
      readMagnitude_toDigits true (-n).toNat h
    have value := value?_digitsOf_negative (n := (-n).toNat) (by omega) (by omega)
    rw [if_neg nonneg]
    simp only [readNumber, numeral, bind, Except.bind, value]
    rw [Int.toNat_of_nonneg (by omega), Int.neg_neg]

end OnScreen.Json
