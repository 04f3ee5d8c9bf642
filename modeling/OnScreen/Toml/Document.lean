import OnScreen.Toml.Scalar
import OnScreen.Toml.Table
import OnScreen.Toml.Text

namespace OnScreen.Toml

/-!
# Documents

A document is a sequence of lines: headers, and keys with their values.  Values may go on over
several lines where they are in square brackets.
-/

/-! ### Values -/

/-- Passes over the letters of a word. -/
def word? : (word cs : List Char) → Option (List Char)
  | [], cs => some cs
  | _ :: _, [] => none
  | w :: word, c :: cs => if c = w then word? word cs else none

/-- Reads a value that is not in brackets. -/
def scalar? (cs : List Char) : Option (Node × List Char) :=
  ((string? cs).map fun (s, rest) => (.string s, rest))
    <|> ((dateTime? cs).map fun rest => (.dateTime, rest))
    <|> ((float? cs).map fun rest => (.float, rest))
    <|> ((integer? cs).map fun (n, rest) => (.integer n, rest))
    <|> ((word? ['t', 'r', 'u', 'e'] cs).map fun rest => (.boolean true, rest))
    <|> ((word? ['f', 'a', 'l', 's', 'e'] cs).map fun rest => (.boolean false, rest))

/-- Reads the items of a list from behind its opening bracket. -/
def items? (value? : List Char → Option (Node × List Char)) :
    (fuel : Nat) → List Char → Option (List Node × List Char)
  | 0, _ => none
  | fuel + 1, cs => do
    match ← skipLayout? (cs.length + 1) cs with
    | ']' :: rest => some ([], rest)
    | cs =>
      let (v, cs) ← value? cs
      match ← skipLayout? (cs.length + 1) cs with
      | ']' :: rest => some ([v], rest)
      | ',' :: rest =>
        let (vs, rest) ← items? value? fuel rest
        some (v :: vs, rest)
      | _ => none

/-- Reads a key and its value and puts them into a table by `put`. -/
def assignment? (value? : List Char → Option (Node × List Char))
    (put : List String → String → Node → Table → Option Table) (t : Table) (cs : List Char) :
    Option (Table × List Char) := do
  let (parts, cs) ← key? cs
  let key ← parts.getLast?
  let cs ← sign? '=' cs
  let (v, cs) ← value? (skipSpace cs)
  let t ← put parts.dropLast key v t
  some (t, cs)

/-- Reads the entries of a table from behind the brace that opens it or behind a comma. -/
def members? (value? : List Char → Option (Node × List Char)) :
    (fuel : Nat) → Table → List Char → Option (Table × List Char)
  | 0, _, _ => none
  | fuel + 1, t, cs => do
    let (t, cs) ← assignment? value? Table.assign t cs
    match skipSpace cs with
    | '\x7d' :: rest => some (t, rest)
    | ',' :: rest => members? value? fuel t rest
    | _ => none

/-- Reads a value, with `room` for that many brackets inside each other. -/
def value? (room : Nat) (cs : List Char) : Option (Node × List Char) :=
  match cs with
  | '[' :: rest =>
    match room with
    | 0 => none
    | room + 1 =>
      (items? (value? room) (rest.length + 1) rest).map fun (vs, rest) => (.array vs, rest)
  | '\x7b' :: rest =>
    match room with
    | 0 => none
    | room + 1 =>
      match skipSpace rest with
      | '\x7d' :: rest => some (.inline [], rest)
      | rest =>
        (members? (value? room) (rest.length + 1) .root rest).map fun (t, rest) =>
          (.inline t.entries, rest)
  | cs => scalar? cs

/-! ### Lines -/

/-- A document as far as it has been read, and the header whose table is being filled. -/
structure Draft where
  root : Table
  header : List String

/-- Puts an entry into the table that is being filled. -/
def Draft.put (d : Draft) (path : List String) (key : String) (n : Node) (root : Table) :
    Option Table :=
  root.change false (Table.assign path key n) d.header

/-- Reads a header up to the end of its brackets. -/
def header? (cs : List Char) : Option (List String × Bool × List Char) :=
  match cs with
  | '[' :: '[' :: rest => do
    let (parts, rest) ← key? rest
    match rest with
    | ']' :: ']' :: rest => some (parts, true, rest)
    | _ => none
  | '[' :: rest => do
    let (parts, rest) ← key? rest
    match rest with
    | ']' :: rest => some (parts, false, rest)
    | _ => none
  | _ => none

/-- Reads one line that says something. -/
def Draft.line? (d : Draft) (cs : List Char) : Option (Draft × List Char) :=
  match cs with
  | '[' :: _ => do
    let (parts, isRow, rest) ← header? cs
    let key ← parts.getLast?
    let root ← (if isRow then Table.openRow else Table.openTable) parts.dropLast key d.root
    some (⟨root, parts⟩, rest)
  | cs =>
    (assignment? (value? nestingLimit) d.put d.root cs).map fun (root, rest) =>
      (⟨root, d.header⟩, rest)

/-- Reads lines up to the end of the text. -/
def lines? : (fuel : Nat) → Draft → List Char → Option Table
  | 0, _, _ => none
  | fuel + 1, d, cs =>
    match skipSpace cs with
    | [] => some d.root
    | '#' :: rest => (lineEnd? (rest.dropWhile isPlain)).bind (lines? fuel d)
    | '\n' :: rest => lines? fuel d rest
    | '\r' :: rest => (newline? ('\r' :: rest)).bind (lines? fuel d)
    | cs => do
      let (d, rest) ← d.line? cs
      let rest ← finishLine? rest
      lines? fuel d rest

/-- Reads a document.  A byte order mark in front of it does not count. -/
def read (cs : List Char) : Option Table :=
  let cs :=
    match cs with
    | '\ufeff' :: rest => rest
    | cs => cs
  lines? (cs.length + 1) ⟨.root, []⟩ cs

end OnScreen.Toml
