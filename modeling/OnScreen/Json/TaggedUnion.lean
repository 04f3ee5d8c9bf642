import OnScreen.Json.Record

namespace OnScreen.Json

/-!
# Formats of tagged unions

A value of a tagged union is a map in which one member, the tag, names a case and the other members
are the fields of that case.  It may also be a list whose first item is the tag.  The tag is judged
where it stands; everything beside it is read first and judged afterwards.
-/

/-- One case of a union. -/
structure Case (α : Type) : Type 1 where
  /-- The tag of the case. -/
  name : String
  /-- What messages call the case. -/
  label : String
  {β : Type}
  fields : Fields β
  /-- The value with these fields. -/
  make : β → α
  /-- The fields of a value of this case. -/
  view : α → Option β

namespace Case

variable {α : Type}

/-- The value of this case that a JSON value stands for. -/
def decode (c : Case α) (v : Value) : Except Mismatch α := (c.fields.decode c.label v).map c.make

/-- The members of a value, the tag first, if the value belongs to this case. -/
def write? (tag : String) (c : Case α) (a : α) : Option (List (List Char)) :=
  (c.view a).map fun b =>
    (writeString tag.toList ++ ':' :: writeString c.name.toList) :: c.fields.write b

end Case

/-- A tagged union. -/
structure TaggedUnion (α : Type) : Type 1 where
  /-- The name of the member that is the tag. -/
  tag : String
  /-- What messages call the union. -/
  label : String
  cases : List (Case α)

namespace TaggedUnion

variable {α : Type}

/-- The case with a tag. -/
def caseOf (u : TaggedUnion α) (name : String) : Except Mismatch (Case α) :=
  match u.cases.find? fun c => c.name = name with
  | some c => .ok c
  | none => .error (.unknownVariant name (u.cases.map Case.name))

/-- The error for a value without a tag. -/
def untagged.{u} {β : Type u} (u : TaggedUnion α) : Except Mismatch β :=
  .error (.missingField u.tag)

/-- Reads the members of a map from behind its opening bracket: the case, once its tag was met, and
    the other members. -/
def readMembers (room : Nat) (u : TaggedUnion α) :
    (fuel : Nat) → (isFirst : Bool) → Option (Case α) → List Char →
      Except ReadError (Option (Case α) × List (String × Value) × List Char)
  | 0, _, _, _ => .error .malformed
  | fuel + 1, isFirst, found, cs =>
    match nextKey isFirst cs with
    | .error e => .error e
    | .ok none => .ok (found, [], cs)
    | .ok (some cs) =>
      match readText cs with
      | .error e => .error e
      | .ok (key, cs) =>
        if key = u.tag then
          if found.isSome then .error (.mismatch (.duplicateField u.tag))
          else
            match (expectSign ':' cs).bind (Format.readAtom Format.identifier) with
            | .error e => .error e
            | .ok (name, cs) =>
              match u.caseOf name with
              | .error m => .error (.mismatch m)
              | .ok c => readMembers room u fuel false (some c) cs
        else
          match (expectSign ':' cs).bind (readValue room) with
          | .error e => .error e
          | .ok (v, cs) =>
            match readMembers room u fuel false found cs with
            | .error e => .error e
            | .ok (found, members, cs) => .ok (found, (key, v) :: members, cs)

/-- Reads a tagged list from behind its opening bracket: the case and the items behind the tag. -/
def readItems (room : Nat) (u : TaggedUnion α) (cs : List Char) :
    Except ReadError (Case α × List Value × List Char) :=
  match nextItem true cs with
  | .error e => .error e
  | .ok none => settle u.untagged
  | .ok (some cs) =>
    match Format.readAtom Format.identifier cs with
    | .error e => .error e
    | .ok (name, cs) =>
      match u.caseOf name with
      | .error m => .error (.mismatch m)
      | .ok c => (Json.readItems (readValue room) (cs.length + 1) false cs).map
          fun (vs, cs) => (c, vs, cs)

/-- Reads a value of the union. -/
def read (u : TaggedUnion α) (room : Nat) (cs : List Char) : Attempt (α × List Char) :=
  match skipSpace cs with
  | '[' :: rest =>
    match room with
    | 0 => .error .malformed
    | room + 1 =>
      match u.readItems room rest with
      | .error e => .error e
      | .ok (c, vs, rest) => (settle (c.decode (.array vs))).map fun a => (a, rest)
  | '{' :: rest =>
    match room with
    | 0 => .error .malformed
    | room + 1 =>
      match u.readMembers room (rest.length + 1) true none rest with
      | .error e => .error e
      | .ok (none, _) => settle u.untagged
      | .ok (some c, members, rest) =>
        match expectSign '}' rest with
        | .error e => .error e
        | .ok rest => (settle (c.decode (.object members))).map fun a => (a, rest)
  | cs => Format.readAtom (fun v => .error (.invalidType v.found u.label)) cs

/-- The value of the union that a JSON value stands for. -/
def decode (u : TaggedUnion α) : Value → Except Mismatch α
  | .array [] => u.untagged
  | .array (tag :: vs) =>
    match (Format.identifier tag).bind u.caseOf with
    | .error m => .error m
    | .ok c => c.decode (.array vs)
  | .object members =>
    match members.filter fun m => m.1 = u.tag with
    | [] => u.untagged
    | (_, tag) :: others =>
      match (Format.identifier tag).bind u.caseOf with
      | .error m => .error m
      | .ok c =>
        if others.isEmpty then c.decode (.object (members.filter fun m => m.1 ≠ u.tag))
        else .error (.duplicateField u.tag)
  | v => .error (.invalidType v.found u.label)

/-- The text of a value of the union: its tag and then the fields of its case. -/
def write (u : TaggedUnion α) (a : α) : List Char :=
  '{' :: commaSeparated ((u.cases.findSome? fun c => c.write? u.tag a).getD []) ++ ['}']

/-- The union as a format. -/
def format (u : TaggedUnion α) : Format α := ⟨u.read, u.decode, u.write⟩

end TaggedUnion

end OnScreen.Json
