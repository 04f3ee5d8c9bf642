import Mathlib.Tactic.SplitIfs
import OnScreen.Json.Value

namespace OnScreen.Json

/-!
# Strings read back

Whatever is in a string, reading its written form gives the string again and stops behind the
closing quote.  Each character is read on its own, so it is enough to know what becomes of one.

* `readString_escape` — reading goes past the written form of a character as past the character.
* `readString_escaped`, `readText_escaped` — the same for all characters of a string.
* `lineFeed_not_mem_writeString` — no written form holds a line feed.
-/

/-! ### One character -/

/-- A hexadecimal digit is read back. -/
theorem hexValue?_hexDigit {n : Nat} (h : n < 16) : Text.hexValue? (hexDigit n) = some n := by
  revert n
  decide

/-- The four digits by which a control character is written. -/
theorem hex4?_control {n : Nat} (h : n < 0x20) :
    hex4? '0' '0' (hexDigit (n / 16)) (hexDigit (n % 16)) = some n := by
  have zero : Text.hexValue? '0' = some 0 := rfl
  have high : Text.hexValue? (hexDigit (n / 16)) = some (n / 16) := hexValue?_hexDigit (by omega)
  have low : Text.hexValue? (hexDigit (n % 16)) = some (n % 16) :=
    hexValue?_hexDigit (Nat.mod_lt n (by decide))
  simp only [hex4?, zero, high, low, Option.bind_eq_bind, Option.bind_some, Option.some.injEq]
  omega

/-- An escape by a letter is read as the character it stands for. `\u` is apart: four digits follow
    it. -/
theorem readString_letter {e d : Char} (letter : letterEscape? e = some d) (other : e ≠ 'u')
    (rest : List Char) : readString ('\\' :: e :: rest) = prepend d (readString rest) := by
  rw [readString.eq_def]
  simp [letter, other]

/-- A control character is no half of a pair, so its four digits stand for it alone. -/
theorem readString_control {c : Char} (h : c.toNat < 0x20) (rest : List Char) :
    readString ('\\' :: 'u' :: '0' :: '0' :: hexDigit (c.toNat / 16) :: hexDigit (c.toNat % 16) ::
      rest) = prepend c (readString rest) := by
  have leading : isLeading c.toNat = false := by simp [isLeading]; omega
  have trailing : isTrailing c.toNat = false := by simp [isTrailing]; omega
  rw [readString.eq_def]
  simp [hex4?_control h, leading, trailing]

/-- A character that needs no escape is read as itself. -/
theorem readString_plain {c : Char} (quote : c ≠ '"') (backslash : c ≠ '\\')
    (plain : ¬c.toNat < 0x20) (rest : List Char) :
    readString (c :: rest) = prepend c (readString rest) := by
  rw [readString.eq_def]
  simp [quote, backslash, plain]

/-- The written form of a character is read as that character. -/
theorem readString_escape (c : Char) (rest : List Char) :
    readString (escape c ++ rest) = prepend c (readString rest) := by
  unfold escape
  split_ifs with quote backslash backspace tab lineFeed formFeed carriageReturn control
  · -- seven characters are escaped by a letter
    rw [quote]
    exact readString_letter rfl (by decide) rest
  · rw [backslash]
    exact readString_letter rfl (by decide) rest
  · rw [backspace]
    exact readString_letter rfl (by decide) rest
  · rw [tab]
    exact readString_letter rfl (by decide) rest
  · rw [lineFeed]
    exact readString_letter rfl (by decide) rest
  · rw [formFeed]
    exact readString_letter rfl (by decide) rest
  · rw [carriageReturn]
    exact readString_letter rfl (by decide) rest
  · -- other control characters by their code
    exact readString_control control rest
  · exact readString_plain quote backslash control rest

/-! ### Whole strings -/

/-- A written string is read back from behind its opening quote. -/
theorem readString_escaped (s rest : List Char) :
    readString (s.flatMap escape ++ '"' :: rest) = .ok (s, rest) := by
  induction s with
  | nil =>
    rw [List.flatMap_nil, List.nil_append, readString.eq_def]
    rfl
  | cons c s ih =>
    rw [List.flatMap_cons, List.append_assoc, readString_escape, ih]
    rfl

/-- **A text is read back** from its escaped characters, up to the quote behind them. -/
theorem readText_escaped (s : String) (rest : List Char) :
    readText (s.toList.flatMap escape ++ '"' :: rest) = .ok (s, rest) := by
  rw [readText, readString_escaped]
  show Except.ok (String.ofList s.toList, rest) = _
  rw [String.ofList_toList]

/-! ### Line feeds -/

theorem hexDigit_ne_lineFeed (n : Nat) : hexDigit n ≠ '\n' := Nat.digitChar_ne '\n' rfl

/-- A line feed is escaped, and no escape has one in it. -/
theorem lineFeed_not_mem_escape (c : Char) : '\n' ∉ escape c := by
  unfold escape
  split_ifs with quote backslash backspace tab lineFeed formFeed carriageReturn control
  iterate 7 decide
  · simp [(hexDigit_ne_lineFeed _).symm]
  · simpa using Ne.symm lineFeed

/-- A written text has no line feed in it. -/
theorem lineFeed_not_mem_writeString (s : List Char) : '\n' ∉ writeString s := by
  simp [writeString, lineFeed_not_mem_escape]

end OnScreen.Json
