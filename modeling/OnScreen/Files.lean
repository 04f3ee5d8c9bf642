namespace OnScreen

/-!
# Files

A tree of directories and files, and the texts that are found in it under a path.  A path is a
sequence of names with slashes between them: an empty name and `.` stay where they are, `..` goes
back up, and only a directory can be gone on from, not even staying there is possible at a file.
-/

/-- A file or a directory. -/
inductive FileTree where
  /-- A file.  There is no text when its bytes are not Unicode. -/
  | file (text : Option String)
  | directory (entries : List (String × FileTree))

/-- What is found where a text should be. -/
inductive Lookup where
  | missing
  /-- There is something, but it cannot be read as a text. -/
  | unreadable (reason : String)
  | text (s : String)
  deriving DecidableEq, Repr

/-- The text, if there is one. -/
def Lookup.text? : Lookup → Option String
  | .text s => some s
  | _ => none

namespace FileTree

/-- The reason why a directory is no text. -/
def isDirectoryReason : String := "Is a directory (os error 21)"

/-- The reason why bytes are no text. -/
def notUnicodeReason : String := "stream did not contain valid UTF-8"

/-- What reading a file or a directory yields. -/
def lookup : FileTree → Lookup
  | file (some s) => .text s
  | file none => .unreadable notUnicodeReason
  | directory _ => .unreadable isDirectoryReason

/-- Follows names from a place whose parents, the nearest first, are given. -/
def follow : (parents : List FileTree) → FileTree → (names : List String) → Option FileTree
  | _, t, [] => some t
  | _, file _, _ :: _ => none
  | parents, directory entries, name :: names =>
    if name = "" ∨ name = "." then follow parents (directory entries) names
    else if name = ".." then
      match parents with
      | [] => none
      | p :: ps => follow ps p names
    else
      match entries.lookup name with
      | none => none
      | some t => follow (directory entries :: parents) t names

/-- Puts something under a path of plain names; directories on the way come into being. -/
def insert (content : FileTree) : (names : List String) → FileTree → FileTree
  | [], _ => content
  | name :: names, t =>
    let entries :=
      match t with
      | directory entries => entries
      | file _ => []
    let child := insert content names ((entries.lookup name).getD (directory []))
    if entries.any fun e => e.1 = name then
      directory (entries.map fun e => if e.1 = name then (name, child) else e)
    else directory (entries ++ [(name, child)])

end FileTree

/-! ### Paths -/

/-- The names of a path. -/
def namesOf (path : String) : List String :=
  go [] path.toList
where
  /-- Goes on with the name whose characters so far are `name`, reversed. -/
  go (name : List Char) : List Char → List String
    | [] => [String.ofList name.reverse]
    | c :: rest => if c = '/' then String.ofList name.reverse :: go [] rest else go (c :: name) rest

/-- A path one name longer. -/
def joinPath (path name : String) : String :=
  if path.isEmpty || path.endsWith "/" then path ++ name else path ++ "/" ++ name

/-- The last name of a path.  A path that ends by going back up has none. -/
def fileName? (path : String) : Option String :=
  match (namesOf path).reverse.find? fun name => name ≠ "" ∧ name ≠ "." with
  | some name => if name = ".." then none else some name
  | none => none

/-- What follows the last point of a file name.  A point at the very front does not count. -/
def extension? (name : String) : Option String :=
  let cs := name.toList.reverse
  match cs.dropWhile (· ≠ '.') with
  | _ :: _ :: _ => some (String.ofList (cs.takeWhile (· ≠ '.')).reverse)
  | _ => none

/-- The files that can be seen: a tree, and the absolute path under which it is found. -/
structure FileSystem where
  base : String
  tree : FileTree

namespace FileSystem

/-- What is found under a path, absolute or relative to the base.  Nothing is found elsewhere. -/
def find? (fs : FileSystem) (path : String) : Option FileTree :=
  if path.isEmpty then none
  else
    match fs.base.toList.isPrefixOf path.toList, path.toList.drop fs.base.length with
    | true, [] => some fs.tree
    | true, '/' :: rest => fs.tree.follow [] (namesOf (String.ofList rest))
    | _, _ => if path.startsWith "/" then none else fs.tree.follow [] (namesOf path)

/-- The text under a path. -/
def read (fs : FileSystem) (path : String) : Lookup :=
  match fs.find? path with
  | some t => t.lookup
  | none => .missing

end FileSystem

end OnScreen
