import OnScreen.Text.Printable

namespace OnScreen.Text

/-!
# Quoted text in messages

Messages quote a text so that every character of it can be told: the quote and the backslash are
escaped, some controls have a letter, and any other character that is not shown is given by its
code point.
-/

/-- A character as it stands in a quoted text. -/
def quotedChar (c : Char) : List Char :=
  if c = '"' ∨ c = '\\' then ['\\', c]
  else if c = '\t' then ['\\', 't']
  else if c = '\n' then ['\\', 'n']
  else if c = '\r' then ['\\', 'r']
  else if c = '\x00' then ['\\', '0']
  else if isShown c then [c]
  else ['\\', 'u', '\x7b'] ++ Nat.toDigits 16 c.toNat ++ ['\x7d']

/-- A text in quotes. -/
def quoted (s : String) : String := String.ofList ('"' :: s.toList.flatMap quotedChar ++ ['"'])

/-- A list of texts in quotes. -/
def quotedList (ss : List String) : String :=
  "[" ++ String.intercalate ", " (ss.map quoted) ++ "]"

end OnScreen.Text
