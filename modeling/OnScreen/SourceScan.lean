import OnScreen.Files
import OnScreen.Text.Blank

namespace OnScreen

/-!
# Scanning sources

A rule forbids something in production code.  A scan looks at every source file below a directory
and at every line in front of the test module, and within a line at what stands in front of the
first comment mark.  It knows nothing of strings or of comments over several lines.

* `productionLines` — the lines of one text that a rule applies to.
* `violationsAlong` — the lines that break a rule in whatever is visited.
* `FileSystem.scan` — those of a whole tree.
-/

/-! ### Lines -/

/-- One line of production code. -/
structure CodeLine where
  /-- From one. -/
  number : Nat
  /-- The line up to its comment. -/
  code : List Char
  full : List Char
  deriving DecidableEq, Repr

/-- Whether the test module begins on a line. -/
def beginsTests (line : List Char) : Bool :=
  "mod tests".toList.isPrefixOf (Text.trimStart line)

/-- A line up to its first comment mark. -/
def codePart : List Char → List Char
  | [] => []
  | '/' :: '/' :: _ => []
  | c :: rest => c :: codePart rest

/-- The lines of a text in front of its test module. -/
def productionLines (text : List Char) : List CodeLine :=
  ((Text.lines text).takeWhile fun line => !beginsTests line).mapIdx fun i line =>
    ⟨i + 1, codePart line, line⟩

/-- Whether a text occurs in another. -/
def occursIn (needle : List Char) : List Char → Bool
  | [] => needle.isEmpty
  | c :: rest => needle.isPrefixOf (c :: rest) || occursIn needle rest

/-! ### Trees -/

/-- A line that breaks a rule. -/
structure Violation where
  path : String
  /-- From one. -/
  line : Nat
  /-- The line without the blank space around it. -/
  text : String
  deriving DecidableEq, Repr

instance : ToString Violation where
  toString v := v.path ++ ":" ++ toString v.line ++ " - " ++ v.text

/-- Whether a path is that of a source file. -/
def isSource (path : String) : Bool := ((fileName? path).bind extension?) = some "rs"

mutual

/-- Everything in a tree with its path, a directory before what is in it. -/
def FileTree.walk (path : String) : FileTree → List (String × FileTree)
  | .file text => [(path, .file text)]
  | .directory entries => (path, .directory entries) :: FileTree.walkAll path entries

/-- Everything in the entries of the directory at `path`. -/
def FileTree.walkAll (path : String) : List (String × FileTree) → List (String × FileTree)
  | [] => []
  | (name, t) :: rest => FileTree.walk (joinPath path name) t ++ FileTree.walkAll path rest

end

/-- The rule that forbids a text, in every source or only in those with certain file names. -/
def forbidText (needle : List Char) (only : Option (List String)) (path : String)
    (code : List Char) : Bool :=
  occursIn needle code && only.all fun names => (fileName? path).any names.contains

/-- The lines of a text that break a rule.  A rule is told the path of the file and the code of a
    line. -/
def violationsIn (rule : String → List Char → Bool) (path text : String) : List Violation :=
  ((productionLines text.toList).filter fun l => rule path l.code).map fun l =>
    ⟨path, l.number, String.ofList (Text.trim l.full)⟩

/-- The violations that a visit comes upon.  A source that cannot be read is passed over. -/
def violationsAlong (rule : String → List Char → Bool) (visited : List (String × FileTree)) :
    List Violation :=
  (visited.filter fun e => isSource e.1).flatMap fun e =>
    match e.2.lookup.text? with
    | some text => violationsIn rule e.1 text
    | none => []

namespace FileSystem

/-- Everything at and below a path. -/
def walk (fs : FileSystem) (path : String) : List (String × FileTree) :=
  match fs.find? path with
  | some t => t.walk path
  | none => []

/-- The source files at and below a path, whatever is behind their names. -/
def sources (fs : FileSystem) (path : String) : List String :=
  ((fs.walk path).map Prod.fst).filter isSource

/-- The lines at and below a path that break a rule. -/
def scan (fs : FileSystem) (rule : String → List Char → Bool) (path : String) : List Violation :=
  violationsAlong rule (fs.walk path)

end FileSystem

/-- The verdict on a scan: nothing, or the text with which it fails. -/
def verdict (violations : List Violation) : Except String Unit :=
  if violations.isEmpty then .ok ()
  else
    .error ("\nFound " ++ toString violations.length
      ++ " violation(s) in production code.\nFix these before merging!")

end OnScreen
