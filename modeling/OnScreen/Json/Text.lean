import OnScreen.Json.Error
import OnScreen.Text.Digit

namespace OnScreen.Json

/-!
# Strings in JSON

A string is written between quotes.  The quote, the backslash and the control characters below the
space are escaped, everything else stands for itself.  Reading understands every escape of the
format; a code point beyond the first plane takes two escapes, which must form a pair.

* `writeString`, `readString` — a string with its quotes, both ways.
* `skipString` — passes over a string without asking whether its escapes denote characters.
-/

/-! ### Writing -/

/-- A hexadecimal digit, lower case. -/
def hexDigit (n : Nat) : Char := Nat.digitChar n

/-- The written form of one character. -/
def escape (c : Char) : List Char :=
  if c = '"' then ['\\', '"']
  else if c = '\\' then ['\\', '\\']
  else if c = '\x08' then ['\\', 'b']
  else if c = '\t' then ['\\', 't']
  else if c = '\n' then ['\\', 'n']
  else if c = '\x0c' then ['\\', 'f']
  else if c = '\r' then ['\\', 'r']
  else if c.toNat < 0x20 then
    ['\\', 'u', '0', '0', hexDigit (c.toNat / 16), hexDigit (c.toNat % 16)]
  else [c]

/-- A string with its quotes. -/
def writeString (s : List Char) : List Char := '"' :: s.flatMap escape ++ ['"']

/-- Texts with commas between them. -/
def commaSeparated : List (List Char) → List Char
  | [] => []
  | [t] => t
  | t :: ts => t ++ ',' :: commaSeparated ts

/-! ### Reading -/

/-- The number that four hexadecimal digits denote. -/
def hex4? (a b c d : Char) : Option Nat := do
  let a ← Text.hexValue? a
  let b ← Text.hexValue? b
  let c ← Text.hexValue? c
  let d ← Text.hexValue? d
  some (((a * 16 + b) * 16 + c) * 16 + d)

/-- The error for an escape of four digits that are not there.  The text has ended too early when
    fewer than four bytes of it are left. -/
def hexError (rest : List Char) : ReadError :=
  if rest.foldr (fun c n => c.utf8Size + n) 0 < 4 then .truncated else .malformed

/-- The first half of a pair of escapes. -/
def isLeading (n : Nat) : Bool := 0xD800 ≤ n && n ≤ 0xDBFF

/-- The second half of a pair of escapes. -/
def isTrailing (n : Nat) : Bool := 0xDC00 ≤ n && n ≤ 0xDFFF

/-- The character that a pair of escapes denotes. -/
def pairValue (lead trail : Nat) : Char :=
  Char.ofNat (0x10000 + (lead - 0xD800) * 0x400 + (trail - 0xDC00))

/-- The character that a letter denotes behind a backslash. -/
def letterEscape? (c : Char) : Option Char :=
  if c = '"' then some '"'
  else if c = '\\' then some '\\'
  else if c = '/' then some '/'
  else if c = 'b' then some '\x08'
  else if c = 'f' then some '\x0c'
  else if c = 'n' then some '\n'
  else if c = 'r' then some '\r'
  else if c = 't' then some '\t'
  else none

/-- Puts a character in front of what was read. -/
def prepend (c : Char) : Attempt (List Char × List Char) → Attempt (List Char × List Char)
  | .ok (s, rest) => .ok (c :: s, rest)
  | .error e => .error e

/-- Reads a string from behind its opening quote. -/
def readString : List Char → Attempt (List Char × List Char)
  | [] => .error .truncated
  | c :: rest =>
    if c = '"' then .ok ([], rest)
    else if c = '\\' then
      match rest with
      | [] => .error .truncated
      | e :: rest =>
        if e = 'u' then
          match rest with
          | h₁ :: h₂ :: h₃ :: h₄ :: rest =>
            match hex4? h₁ h₂ h₃ h₄ with
            | none => .error .malformed
            | some n =>
              if isTrailing n then .error .malformed
              else if isLeading n then
                match rest with
                | [] => .error .truncated
                | b :: rest =>
                  if b ≠ '\\' then .error .malformed
                  else
                    match rest with
                    | [] => .error .truncated
                    | u :: rest =>
                      if u ≠ 'u' then .error .malformed
                      else
                        match rest with
                        | l₁ :: l₂ :: l₃ :: l₄ :: rest =>
                          match hex4? l₁ l₂ l₃ l₄ with
                          | none => .error .malformed
                          | some m =>
                            if isTrailing m then prepend (pairValue n m) (readString rest)
                            else .error .malformed
                        | rest => .error (hexError rest)
              else prepend (Char.ofNat n) (readString rest)
          | rest => .error (hexError rest)
        else
          match letterEscape? e with
          | some d => prepend d (readString rest)
          | none => .error .malformed
    else if c.toNat < 0x20 then .error .malformed
    else prepend c (readString rest)

/-- Passes over a string from behind its opening quote. -/
def skipString : List Char → Attempt (List Char)
  | [] => .error .truncated
  | c :: rest =>
    if c = '"' then .ok rest
    else if c = '\\' then
      match rest with
      | [] => .error .truncated
      | e :: rest =>
        if e = 'u' then
          match rest with
          | h₁ :: h₂ :: h₃ :: h₄ :: rest =>
            if (hex4? h₁ h₂ h₃ h₄).isSome then skipString rest else .error .malformed
          | rest => .error (hexError rest)
        else if (letterEscape? e).isSome then skipString rest
        else .error .malformed
    else if c.toNat < 0x20 then .error .malformed
    else skipString rest

end OnScreen.Json
