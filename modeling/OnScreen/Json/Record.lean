import OnScreen.Json.Format

namespace OnScreen.Json

/-!
# Formats of records

A record is a map with a member for each field.  Its members come in any order, members that are no
field are passed over, and a field that has a default may be left out.  A record may also be a list
of its fields in their order; then only fields with a default may be missing, and only at the end.
-/

/-- The fields of a record, in their order.  The values of all fields are a nested pair. -/
inductive Fields : Type → Type 1 where
  | done : Fields Unit
  /-- A field and the fields behind it.  `absent` is its value where it is left out. -/
  | field {α β : Type} (name : String) (format : Format α) (absent : Option α) (rest : Fields β) :
      Fields (α × β)

namespace Fields

variable {α : Type}

/-- How many fields there are. -/
def count {α : Type} : Fields α → Nat
  | done => 0
  | field _ _ _ rest => rest.count + 1

/-- Room for a value of each field. -/
def Slots {α : Type} : Fields α → Type
  | done => Unit
  | @field α _ _ _ _ rest => Option α × rest.Slots

/-- No field has a value yet. -/
def vacant {α : Type} : (fields : Fields α) → fields.Slots
  | done => ()
  | field _ _ _ rest => (none, rest.vacant)

/-- The record, once all values are there. -/
def complete {α : Type} : (fields : Fields α) → fields.Slots → Except Mismatch α
  | done, () => .ok ()
  | field name _ absent rest, slots => do
    let a ←
      match slots.1.or absent with
      | some a => .ok a
      | none => .error (.missingField name)
    let as ← rest.complete slots.2
    .ok (a, as)

/-! ### From a text -/

/-- Reads the value of the field called `key` from behind its name.  There is `none` when there is
    no such field. -/
def readMember {α : Type} (room : Nat) (key : String) (cs : List Char) :
    (fields : Fields α) → fields.Slots → Option (Attempt (fields.Slots × List Char))
  | done, () => none
  | field name format _ rest, slots =>
    if name = key then
      some (do
        if slots.1.isSome then .error (.mismatch (.duplicateField name))
        let cs ← expectSign ':' cs
        let (a, cs) ← format.read room cs
        .ok ((some a, slots.2), cs))
    else
      (rest.readMember room key cs slots.2).map fun r =>
        r.map fun (others, cs) => ((slots.1, others), cs)

/-- Reads the members of a map from behind its opening bracket. -/
def readMembers (room : Nat) (fields : Fields α) :
    (fuel : Nat) → (isFirst : Bool) → fields.Slots → List Char →
      Attempt (fields.Slots × List Char)
  | 0, _, _, _ => .error .malformed
  | fuel + 1, isFirst, slots, cs => do
    match ← nextKey isFirst cs with
    | none => .ok (slots, cs)
    | some cs =>
      let (key, cs) ← readText cs
      match fields.readMember room key cs slots with
      | some r =>
        let (slots, cs) ← r
        readMembers room fields fuel false slots cs
      | none =>
        let cs ← expectSign ':' cs
        let cs ← skipValue cs
        readMembers room fields fuel false slots cs

/-- Reads the fields in their order from inside of a list; `index` of them have been read. -/
def readItems {α : Type} (room : Nat) (expected : String) :
    (fields : Fields α) → (index : Nat) → List Char → Attempt (α × List Char)
  | done, _, cs => .ok ((), cs)
  | field _ format absent rest, index, cs => do
    let (a, cs) ←
      match ← nextItem (index = 0) cs with
      | some cs => format.read room cs
      | none =>
        match absent with
        | some a => .ok (a, cs)
        | none => .error (.mismatch (.invalidLength index expected))
    let (as, cs) ← rest.readItems room expected (index + 1) cs
    .ok ((a, as), cs)

/-! ### From a value -/

/-- Gives the field called `key` a value, if there is such a field. -/
def decodeMember {α : Type} (key : String) (v : Value) :
    (fields : Fields α) → fields.Slots → Except Mismatch fields.Slots
  | done, () => .ok ()
  | field name format _ rest, slots =>
    if name = key then do
      if slots.1.isSome then .error (.duplicateField name)
      let a ← format.decode v
      .ok (some a, slots.2)
    else (rest.decodeMember key v slots.2).map fun others => (slots.1, others)

/-- The record that the members of a map stand for. -/
def decodeMembers (fields : Fields α) (members : List (String × Value)) : Except Mismatch α := do
  let slots ← members.foldlM (fun slots m => fields.decodeMember m.1 m.2 slots) fields.vacant
  fields.complete slots

/-- Some things, counted. -/
def counted (n : Nat) : String := toString n ++ if n = 1 then " element" else " elements"

/-- What a record is called where one of its fields is missing. -/
def expected (label : String) (fields : Fields α) : String :=
  label ++ " with " ++ counted fields.count

/-- The record that the items of a list stand for, and how many of them were not needed. -/
def decodeItems {α : Type} (expected : String) :
    (fields : Fields α) → (index : Nat) → List Value → Except Mismatch (α × Nat)
  | done, _, vs => .ok ((), vs.length)
  | field _ format absent rest, index, vs => do
    let a ←
      match vs, absent with
      | v :: _, _ => format.decode v
      | [], some a => .ok a
      | [], none => .error (.invalidLength index expected)
    let (as, left) ← rest.decodeItems expected (index + 1) vs.tail
    .ok ((a, as), left)

/-- The record that a list or a map stands for. -/
def decode (label : String) (fields : Fields α) : Value → Except Mismatch α
  | .array vs => do
    let (a, left) ← fields.decodeItems (fields.expected label) 0 vs
    if left = 0 then .ok a
    else
      .error (.invalidLength vs.length (counted (vs.length - left) ++ " in sequence"))
  | .object members => fields.decodeMembers members
  | v => .error (.invalidType v.found label)

/-! ### Writing -/

/-- The members of a record, each with its name. -/
def write {α : Type} : Fields α → α → List (List Char)
  | done, () => []
  | field name format _ rest, (a, as) =>
    (writeString name.toList ++ ':' :: format.write a) :: rest.write as

end Fields

namespace Format

variable {α β : Type}

/-- Reads a record. -/
def readRecord (label : String) (fields : Fields α) (room : Nat) (cs : List Char) :
    Attempt (α × List Char) :=
  match skipSpace cs with
  | '[' :: rest =>
    match room with
    | 0 => .error .malformed
    | room + 1 => do
      let (a, rest) ← fields.readItems room (fields.expected label) 0 rest
      let rest ← expectSign ']' rest
      .ok (a, rest)
  | '{' :: rest =>
    match room with
    | 0 => .error .malformed
    | room + 1 => do
      let (slots, rest) ← fields.readMembers room (rest.length + 1) true fields.vacant rest
      let a ← settle (fields.complete slots)
      let rest ← expectSign '}' rest
      .ok (a, rest)
  | cs => readAtom (fun v => .error (.invalidType v.found label)) cs

/-- A record with the given fields, which messages call `label`. -/
def record (label : String) (fields : Fields α) : Format α where
  read := readRecord label fields
  decode := fields.decode label
  write a := '{' :: commaSeparated (fields.write a) ++ ['}']

end Format

end OnScreen.Json
