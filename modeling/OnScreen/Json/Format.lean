import OnScreen.Json.Value

namespace OnScreen.Json

/-!
# Formats

A format says how the values of a type are written as JSON and read again.  Reading comes in two
kinds: off the start of a text, where the first thing that is wrong is the error, and from a JSON
value that has been read before, where only its meaning can be wrong.  Formats of compound types are
built from those of their parts.
-/

/-- How the values of a type are written and read. -/
structure Format (α : Type) where
  /-- Reads a value off the start of a text with room for that many brackets. -/
  read : (room : Nat) → List Char → Attempt (α × List Char)
  /-- The value that a JSON value stands for. -/
  decode : Value → Except Mismatch α
  /-- The text of a value. -/
  write : α → List Char

/-- Takes a mismatch for an error. -/
def settle.{u} {α : Type u} : Except Mismatch α → Except ReadError α
  | .ok a => .ok a
  | .error m => .error (.mismatch m)

namespace Format

variable {α β : Type}

/-- The values of one type as values of another. -/
def map (f : Format α) (into : α → β) (outOf : β → α) : Format β where
  read room cs := (f.read room cs).map fun (a, rest) => (into a, rest)
  decode v := (f.decode v).map into
  write b := f.write (outOf b)

/-- Reads a whole text: nothing but space may follow the value. -/
def readAll (f : Format α) (cs : List Char) : Attempt α := do
  let (a, rest) ← f.read fullRoom cs
  match skipSpace rest with
  | [] => .ok a
  | _ => .error .malformed

/-! ### Values without parts -/

/-- Reads a value without parts and asks `decode` for its meaning.  A bracket is not looked into. -/
def readAtom (decode : Value → Except Mismatch α) (cs : List Char) : Attempt (α × List Char) :=
  match skipSpace cs with
  | [] => .error .truncated
  | c :: rest => do
    let (v, rest) ←
      if c = '[' then .ok (.array [], rest)
      else if c = '{' then .ok (.object [], rest)
      else readScalar c rest
    let a ← settle (decode v)
    .ok (a, rest)

/-- The format of values without parts. -/
def atom (decode : Value → Except Mismatch α) (write : α → List Char) : Format α where
  read _ cs := readAtom decode cs
  decode := decode
  write := write

/-- A text. -/
def text : Format String :=
  atom
    (fun
      | .string s => .ok s
      | v => .error (.invalidType v.found "a string"))
    (fun s => writeString s.toList)

/-- A truth value. -/
def flag : Format Bool :=
  atom
    (fun
      | .boolean b => .ok b
      | v => .error (.invalidType v.found "a boolean"))
    (fun b => (toString b).toList)

/-- A range of whole numbers, as messages name it. -/
structure WholeRange where
  name : String
  least : Int
  most : Int

/-- A whole number in a range. -/
def whole (range : WholeRange) : Format Int :=
  atom
    (fun
      | .number (.whole n) =>
        if range.least ≤ n ∧ n ≤ range.most then .ok n
        else .error (.invalidValue (.integer n) range.name)
      | v => .error (.invalidType v.found range.name))
    writeWhole

/-- A natural number less than `2^64`. -/
def word (name : String) : Format Nat := (whole ⟨name, 0, wordLimit - 1⟩).map Int.toNat Int.ofNat

/-! ### Optional values and lists -/

/-- A value that may be absent, which is written `null`. -/
def optional (f : Format α) : Format (Option α) where
  read room cs :=
    match skipSpace cs with
    | 'n' :: rest => (expectWord ['u', 'l', 'l'] rest).map fun rest => (none, rest)
    | cs => (f.read room cs).map fun (a, rest) => (some a, rest)
  decode
    | .null => .ok none
    | v => (f.decode v).map some
  write
    | none => ['n', 'u', 'l', 'l']
    | some a => f.write a

/-- A list of any length. -/
def list (f : Format α) : Format (List α) where
  read room cs :=
    match skipSpace cs with
    | '[' :: rest =>
      match room with
      | 0 => .error .malformed
      | room + 1 => readItems (f.read room) (rest.length + 1) true rest
    | cs =>
      readAtom (fun v => .error (.invalidType v.found "a sequence")) cs
  decode
    | .array vs => vs.mapM f.decode
    | v => .error (.invalidType v.found "a sequence")
  write as := '[' :: commaSeparated (as.map f.write) ++ [']']

/-! ### One of several names -/

/-- The position of a name. -/
def choose (names : List String) (name : String) : Except Mismatch (Fin names.length) :=
  match names.finIdxOf? name with
  | some i => .ok i
  | none => .error (.unknownVariant name names)

/-- The name that a key or a text must be. -/
def identifier : Value → Except Mismatch String
  | .string s => .ok s
  | v => .error (.invalidType v.found "variant identifier")

/-- Nothing, which is all that can stand beside a name. -/
def nothing : Value → Except Mismatch Unit
  | .null => .ok ()
  | v => .error (.invalidType v.found "unit")

/-- One of several names.  It is a text, or a map from the name to `null`; in a value that has been
    read before, an empty map counts as `null`. -/
def choice (names : List String) : Format (Fin names.length) where
  read room cs :=
    match skipSpace cs with
    | [] => .error .truncated
    | '"' :: rest => do
      let (name, rest) ← readText rest
      let i ← settle (choose names name)
      .ok (i, rest)
    | '{' :: rest =>
      match room with
      | 0 => .error .malformed
      | _ + 1 => do
        let (name, rest) ← readAtom identifier rest
        let i ← settle (choose names name)
        let rest ← expectSign ':' rest
        let ((), rest) ← readAtom nothing rest
        let rest ← expectSign '}' rest
        .ok (i, rest)
    | _ => .error .malformed
  decode
    | .string name => choose names name
    | .object [(name, v)] => do
      let i ← choose names name
      match v with
      | .object [] => .ok i
      | v =>
        nothing v
        .ok i
    | .object _ => .error (.invalidValue .map "map with a single key")
    | v => .error (.invalidType v.found "string or map")
  write i := writeString names[i].toList

/-- The values of a type that are named, as they are counted by `index` and `ofIndex`. -/
def names {n : Nat} (ns : List String) (h : ns.length = n) (ofIndex : Fin n → α)
    (index : α → Fin n) : Format α :=
  (choice ns).map (fun i => ofIndex (i.cast h)) (fun a => (index a).cast h.symm)

end Format

end OnScreen.Json
