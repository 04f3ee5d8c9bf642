import OnScreen.Text.Digit

namespace OnScreen.Toml

/-!
# Space, comments, strings and keys in TOML

Every reader takes something off the start of a text and gives back what follows it, or nothing when
it is not there.  A text that is no TOML is refused without further ado, so no reader says why.
-/

/-- As many pieces as there are at the start of a text, at most `fuel` of them. -/
def takeMany {α : Type} (piece : List Char → Option (α × List Char)) :
    (fuel : Nat) → List Char → List α × List Char
  | 0, cs => ([], cs)
  | fuel + 1, cs =>
    match piece cs with
    | none => ([], cs)
    | some (a, rest) =>
      let (as, rest) := takeMany piece fuel rest
      (a :: as, rest)

/-! ### Space and comments -/

/-- Spaces and tabs. -/
def isSpace (c : Char) : Bool := c = ' ' || c = '\t'

/-- A text without the space at its start. -/
def skipSpace (cs : List Char) : List Char := cs.dropWhile isSpace

/-- Passes over the end of a line: a line feed, which a carriage return may precede. -/
def newline? : List Char → Option (List Char)
  | '\n' :: rest => some rest
  | '\r' :: '\n' :: rest => some rest
  | _ => none

/-- Passes over the end of a line or of the text. -/
def lineEnd? : List Char → Option (List Char)
  | [] => some []
  | cs => newline? cs

/-- The characters that can stand in strings and comments: no controls but the tab. -/
def isPlain (c : Char) : Bool := c = '\t' || (0x20 ≤ c.toNat && c.toNat ≠ 0x7F)

/-- A text without the comment at its start. -/
def skipComment (cs : List Char) : List Char :=
  match cs with
  | '#' :: rest => rest.dropWhile isPlain
  | cs => cs

/-- Passes over what may follow on a line: space and a comment. -/
def finishLine? (cs : List Char) : Option (List Char) := lineEnd? (skipComment (skipSpace cs))

/-- Passes over space, comments and ends of lines. -/
def skipLayout? : (fuel : Nat) → List Char → Option (List Char)
  | 0, _ => none
  | fuel + 1, cs =>
    match skipSpace cs with
    | '#' :: rest => (newline? (rest.dropWhile isPlain)).bind (skipLayout? fuel)
    | '\n' :: rest => skipLayout? fuel rest
    | '\r' :: rest => (newline? ('\r' :: rest)).bind (skipLayout? fuel)
    | cs => some cs

/-! ### Strings -/

/-- A character given by that many hexadecimal digits. -/
def codePoint? (digits : Nat) (cs : List Char) : Option (Char × List Char) := do
  let ds ← (cs.take digits).mapM Text.hexValue?
  let n := Text.ofDigits 16 ds
  if ds.length = digits ∧ n.isValidChar then some (Char.ofNat n, cs.drop digits) else none

/-- The character of an escape, from behind its backslash. -/
def escape? : List Char → Option (Char × List Char)
  | 'b' :: rest => some ('\x08', rest)
  | 't' :: rest => some ('\t', rest)
  | 'n' :: rest => some ('\n', rest)
  | 'f' :: rest => some ('\x0c', rest)
  | 'r' :: rest => some ('\r', rest)
  | '"' :: rest => some ('"', rest)
  | '\\' :: rest => some ('\\', rest)
  | 'u' :: rest => codePoint? 4 rest
  | 'U' :: rest => codePoint? 8 rest
  | _ => none

/-- A piece of a string in double quotes. -/
def basicPiece (cs : List Char) : Option (Char × List Char) :=
  match cs with
  | [] => none
  | c :: rest =>
    if c = '\\' then escape? rest
    else if c ≠ '"' ∧ isPlain c then some (c, rest)
    else none

/-- A piece of a string in single quotes, where nothing is escaped. -/
def literalPiece (cs : List Char) : Option (Char × List Char) :=
  match cs with
  | [] => none
  | c :: rest => if c ≠ '\'' ∧ isPlain c then some (c, rest) else none

/-- Reads a string on one line from behind its opening quote. -/
def quoted? (quote : Char) (piece : List Char → Option (Char × List Char)) (cs : List Char) :
    Option (String × List Char) :=
  let (s, rest) := takeMany piece cs.length cs
  match rest with
  | [] => none
  | c :: rest => if c = quote then some (String.ofList s, rest) else none

/-- How many quotes there are at the start of a text. -/
def countQuotes (quote : Char) (cs : List Char) : Nat := (cs.takeWhile (· = quote)).length

/-- A piece of a string of several lines.  One or two quotes stand for themselves, and a backslash
    at the end of a line takes away all space up to the next character. -/
def blockPiece (quote : Char) (piece : List Char → Option (Char × List Char)) (cs : List Char) :
    Option (List Char × List Char) :=
  match newline? cs with
  | some rest => some (['\n'], rest)
  | none =>
    match cs with
    | [] => none
    | c :: rest =>
      if c = quote then
        if countQuotes quote cs < 3 then some ([c], rest) else none
      else
        match (if c = '\\' ∧ quote = '"' then newline? (skipSpace rest) else none) with
        | some rest => some ([], rest.dropWhile fun c => isSpace c || c = '\n' || c = '\r')
        | none => (piece cs).map fun (c, rest) => ([c], rest)

/-- Reads a string of several lines from behind its three opening quotes.  An end of line right
    there does not count, and up to two quotes may stand before the three that close it. -/
def block? (quote : Char) (piece : List Char → Option (Char × List Char)) (cs : List Char) :
    Option (String × List Char) :=
  let cs := (newline? cs).getD cs
  let (parts, rest) := takeMany (blockPiece quote piece) cs.length cs
  let quotes := countQuotes quote rest
  if quotes < 3 then none
  else
    let own := min (quotes - 3) 2
    some (String.ofList (parts.flatten ++ List.replicate own quote), rest.drop (own + 3))

/-- Reads a string of any kind. -/
def string? : List Char → Option (String × List Char)
  | '"' :: '"' :: '"' :: rest => block? '"' basicPiece rest
  | '"' :: rest => quoted? '"' basicPiece rest
  | '\'' :: '\'' :: '\'' :: rest => block? '\'' literalPiece rest
  | '\'' :: rest => quoted? '\'' literalPiece rest
  | _ => none

/-! ### Keys -/

/-- The characters of a key without quotes. -/
def isBare (c : Char) : Bool := c.isAlphanum || c = '-' || c = '_'

/-- Reads one part of a key. -/
def keyPart? (cs : List Char) : Option (String × List Char) :=
  match cs with
  | '"' :: rest => quoted? '"' basicPiece rest
  | '\'' :: rest => quoted? '\'' literalPiece rest
  | cs =>
    match cs.takeWhile isBare with
    | [] => none
    | part => some (String.ofList part, cs.dropWhile isBare)

/-- Reads the parts of a key, which points separate and space may surround. -/
def keyParts? : (fuel : Nat) → List Char → Option (List String × List Char)
  | 0, _ => none
  | fuel + 1, cs => do
    let (part, rest) ← keyPart? (skipSpace cs)
    match skipSpace rest with
    | '.' :: rest =>
      let (parts, rest) ← keyParts? fuel rest
      some (part :: parts, rest)
    | rest => some ([part], rest)

/-- How many parts a key may have, and how deep values may be nested. -/
def nestingLimit : Nat := 80

/-- Reads a key. -/
def key? (cs : List Char) : Option (List String × List Char) := do
  let (parts, rest) ← keyParts? (cs.length + 1) cs
  if parts.length ≤ nestingLimit then some (parts, rest) else none

end OnScreen.Toml
