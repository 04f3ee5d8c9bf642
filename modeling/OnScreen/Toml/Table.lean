namespace OnScreen.Toml

/-!
# Tables

A document is a table that is put together from pieces: keys with several parts and headers can both
reach into tables that are there already, within limits.

* A table that is only implied by something inside of it may be given a header, once.
* A table made by keys with several parts can be extended by such keys only.
* A value is complete, and that goes for tables and lists that are values too.
-/

/-- What a key can stand for. -/
inductive Node where
  | string (s : String)
  | integer (n : Int)
  | float
  | boolean (b : Bool)
  | dateTime
  | array (items : List Node)
  /-- A table that is a value. -/
  | inline (entries : List (String × Node))
  /-- A table of the document.  It is `implied` until it gets a header of its own, and `dotted` when
      keys with several parts have made it. -/
  | table (implied dotted : Bool) (entries : List (String × Node))
  /-- The tables that share a header in double brackets. -/
  | rows (rows : List (List (String × Node)))

/-- A table under construction. -/
structure Table where
  implied : Bool
  dotted : Bool
  entries : List (String × Node)

namespace Table

/-- The document before its first line. -/
def root : Table := ⟨false, false, []⟩

/-- The table as a node of the table around it. -/
def node (t : Table) : Node := .table t.implied t.dotted t.entries

/-- What a key stands for. -/
def get? (t : Table) (key : String) : Option Node := t.entries.lookup key

/-- Lets a key stand for something. -/
def set (t : Table) (key : String) (n : Node) : Table :=
  { t with entries := (key, n) :: t.entries.filter fun e => e.1 ≠ key }

/-- Changes the table at the end of a path.  Tables on the way that are missing come into being; a
    path through `rows` leads into the last of them.  A path that is the front of a key may not lead
    through a table that has a header. -/
def change (isKey : Bool) (f : Table → Option Table) : (path : List String) → Table → Option Table
  | [], t => f t
  | key :: path, t =>
    match t.get? key with
    | none => (change isKey f path ⟨true, isKey, []⟩).map fun child => t.set key child.node
    | some (.table implied dotted entries) =>
      if isKey && !implied then none
      else
        (change isKey f path ⟨implied, dotted, entries⟩).map fun child => t.set key child.node
    | some (.rows rows) =>
      match rows.getLast? with
      | none => none
      | some last =>
        (change isKey f path ⟨false, false, last⟩).map fun child =>
          t.set key (.rows (rows.dropLast ++ [child.entries]))
    | some _ => none

/-- Lets a key stand for something.  It may not stand for anything yet, and the table it leads to
    has to be one made by keys with several parts, or the one the line is in if it has a single
    part. -/
def assign (path : List String) (key : String) (n : Node) (t : Table) : Option Table :=
  t.change true
    (fun t =>
      if t.dotted = path.isEmpty ∨ (t.get? key).isSome then none else some (t.set key n)) path

/-- Gives a table its header. -/
def openTable (path : List String) (key : String) (t : Table) : Option Table :=
  t.change false
    (fun t =>
      match t.get? key with
      | none => some (t.set key (.table false false []))
      | some (.table true false entries) => some (t.set key (.table false false entries))
      | some _ => none) path

/-- Begins another table under a header in double brackets. -/
def openRow (path : List String) (key : String) (t : Table) : Option Table :=
  t.change false
    (fun t =>
      match t.get? key with
      | none => some (t.set key (.rows [[]]))
      | some (.rows rows) => some (t.set key (.rows (rows ++ [[]])))
      | some _ => none) path

end Table

end OnScreen.Toml
