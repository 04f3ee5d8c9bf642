import OnScreen.Json.Number
import OnScreen.Json.Text

namespace OnScreen.Json

/-!
# JSON values

A value is read off the start of a text, and what follows it is handed back.  Lists and maps may be
nested only so deep: every reader is told how much room is left and refuses to open a bracket when
there is none.  Passing over a value that nobody is interested in needs no room.

The parts from which the readers of lists and maps are built tell apart a text that ended and one
that goes on wrongly.
-/

/-- A JSON value. -/
inductive Value where
  | null
  | boolean (b : Bool)
  | number (n : Number)
  | string (s : String)
  | array (items : List Value)
  | object (members : List (String × Value))

/-- What messages call a value. -/
def Value.found : Value → Found
  | null => .null
  | boolean b => .boolean b
  | number (.whole n) => .integer n
  | number (.real x) => .real x
  | string s => .string s
  | array _ => .sequence
  | object _ => .map

/-- How deep the brackets of a text may be nested. -/
def fullRoom : Nat := 127

/-! ### Parts -/

/-- The characters between tokens that mean nothing. -/
def isSpace (c : Char) : Bool := c = ' ' || c = '\t' || c = '\n' || c = '\r'

/-- A text without the space at its start. -/
def skipSpace (cs : List Char) : List Char := cs.dropWhile isSpace

/-- Passes over the letters of a word. -/
def expectWord : (word cs : List Char) → Attempt (List Char)
  | [], cs => .ok cs
  | _ :: _, [] => .error .truncated
  | w :: word, c :: cs => if c = w then expectWord word cs else .error .malformed

/-- Passes over a sign, which may have space before it. -/
def expectSign (sign : Char) (cs : List Char) : Attempt (List Char) :=
  match skipSpace cs with
  | [] => .error .truncated
  | c :: rest => if c = sign then .ok rest else .error .malformed

/-- Goes on to the next item of a list that is being read; there is `none` when the list is at its
    end. -/
def nextItem (isFirst : Bool) (cs : List Char) : Attempt (Option (List Char)) :=
  match skipSpace cs with
  | [] => .error .truncated
  | c :: rest =>
    if c = ']' then .ok none
    else if isFirst then .ok (some (c :: rest))
    else if c = ',' then
      match skipSpace rest with
      | [] => .error .truncated
      | d :: rest => if d = ']' then .error .malformed else .ok (some (d :: rest))
    else .error .malformed

/-- Goes on to the next key of a map that is being read, to behind its opening quote; there is
    `none` when the map is at its end. -/
def nextKey (isFirst : Bool) (cs : List Char) : Attempt (Option (List Char)) :=
  match skipSpace cs with
  | [] => .error .truncated
  | c :: rest =>
    if c = '}' then .ok none
    else if isFirst then if c = '"' then .ok (some rest) else .error .malformed
    else if c = ',' then
      match skipSpace rest with
      | [] => .error .truncated
      | d :: rest => if d = '"' then .ok (some rest) else .error .malformed
    else .error .malformed

/-- Reads a string from behind its opening quote. -/
def readText (cs : List Char) : Attempt (String × List Char) :=
  (readString cs).map fun (s, rest) => (String.ofList s, rest)

/-- Reads a value that is not in brackets, whose first character is `c`. -/
def readScalar (c : Char) (rest : List Char) : Attempt (Value × List Char) :=
  if c = '"' then (readText rest).map fun (s, rest) => (.string s, rest)
  else if c = 'n' then (expectWord ['u', 'l', 'l'] rest).map fun rest => (.null, rest)
  else if c = 't' then (expectWord ['r', 'u', 'e'] rest).map fun rest => (.boolean true, rest)
  else if c = 'f' then (expectWord ['a', 'l', 's', 'e'] rest).map fun rest => (.boolean false, rest)
  else if c = '-' ∨ (Text.decimalValue? c).isSome then
    (readNumber (c :: rest)).map fun (n, rest) => (.number n, rest)
  else .error .malformed

/-! ### Whole values -/

/-- Reads the items of a list from behind its opening bracket, each by `item`. -/
def readItems {α : Type} (item : List Char → Attempt (α × List Char)) :
    (fuel : Nat) → (isFirst : Bool) → List Char → Attempt (List α × List Char)
  | 0, _, _ => .error .malformed
  | fuel + 1, isFirst, cs => do
    match ← nextItem isFirst cs with
    | none =>
      let rest ← expectSign ']' cs
      .ok ([], rest)
    | some cs =>
      let (a, cs) ← item cs
      let (as, cs) ← readItems item fuel false cs
      .ok (a :: as, cs)

/-- Reads the members of a map from behind its opening bracket, each value by `item`. -/
def readMembers {α : Type} (item : List Char → Attempt (α × List Char)) :
    (fuel : Nat) → (isFirst : Bool) → List Char → Attempt ((List (String × α)) × List Char)
  | 0, _, _ => .error .malformed
  | fuel + 1, isFirst, cs => do
    match ← nextKey isFirst cs with
    | none =>
      let rest ← expectSign '}' cs
      .ok ([], rest)
    | some cs =>
      let (key, cs) ← readText cs
      let cs ← expectSign ':' cs
      let (a, cs) ← item cs
      let (as, cs) ← readMembers item fuel false cs
      .ok ((key, a) :: as, cs)

/-- Reads a value, with `room` for that many brackets inside each other. -/
def readValue (room : Nat) (cs : List Char) : Attempt (Value × List Char) :=
  match skipSpace cs with
  | [] => .error .truncated
  | c :: rest =>
    if c = '[' then
      match room with
      | 0 => .error .malformed
      | room + 1 => (readItems (readValue room) (rest.length + 1) true rest).map
          fun (vs, rest) => (.array vs, rest)
    else if c = '{' then
      match room with
      | 0 => .error .malformed
      | room + 1 => (readMembers (readValue room) (rest.length + 1) true rest).map
          fun (ms, rest) => (.object ms, rest)
    else readScalar c rest

/-! ### Values nobody wants -/

/-- A bracket that has been opened. -/
inductive Bracket where
  | list
  | map
  deriving DecidableEq, Repr

/-- What a reader that passes over values is waiting for. -/
inductive Awaited where
  /-- A value has to follow. -/
  | value
  /-- A bracket has just been opened. -/
  | entry
  /-- A value has just ended. -/
  | more
  deriving DecidableEq, Repr

/-- The sign that closes a bracket. -/
def Bracket.closing : Bracket → Char
  | list => ']'
  | map => '}'

/-- Goes on to the value of the next entry, which in a map has a key in front of it. -/
def Bracket.enter (b : Bracket) (cs : List Char) : Attempt (List Char) :=
  match b with
  | list => .ok cs
  | map => do
    let cs ← expectSign '"' cs
    let cs ← skipString cs
    expectSign ':' cs

/-- Passes over a value that is not in brackets, whose first character is `c`. -/
def skipScalar (c : Char) (rest : List Char) : Attempt (List Char) :=
  if c = '"' then skipString rest
  else if c = 'n' then expectWord ['u', 'l', 'l'] rest
  else if c = 't' then expectWord ['r', 'u', 'e'] rest
  else if c = 'f' then expectWord ['a', 'l', 's', 'e'] rest
  else if c = '-' ∨ (Text.decimalValue? c).isSome then skipNumber (c :: rest)
  else .error .malformed

/-- Passes over what is left of a value inside of the given brackets, the innermost first. -/
def skipRest : (fuel : Nat) → Awaited → List Bracket → List Char → Attempt (List Char)
  | 0, _, _, _ => .error .malformed
  | fuel + 1, .value, opened, cs =>
    match skipSpace cs with
    | [] => .error .truncated
    | c :: rest =>
      if c = '[' then skipRest fuel .entry (.list :: opened) rest
      else if c = '{' then skipRest fuel .entry (.map :: opened) rest
      else do
        let rest ← skipScalar c rest
        skipRest fuel .more opened rest
  | _ + 1, _, [], cs => .ok cs
  | fuel + 1, .entry, b :: opened, cs =>
    match skipSpace cs with
    | [] => .error .truncated
    | c :: rest =>
      if c = b.closing then skipRest fuel .more opened rest
      else do
        let cs ← b.enter (c :: rest)
        skipRest fuel .value (b :: opened) cs
  | fuel + 1, .more, b :: opened, cs =>
    match skipSpace cs with
    | [] => .error .truncated
    | c :: rest =>
      if c = b.closing then skipRest fuel .more opened rest
      else if c = ',' then do
        let cs ← b.enter rest
        skipRest fuel .value (b :: opened) cs
      else .error .malformed

/-- Passes over a value.  Between two steps that take a character there is at most one that takes
    none. -/
def skipValue (cs : List Char) : Attempt (List Char) :=
  skipRest (2 * cs.length + 2) .value [] cs

end OnScreen.Json
