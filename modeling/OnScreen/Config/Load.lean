import OnScreen.Config
import OnScreen.Files
import OnScreen.Toml.Document

namespace OnScreen

/-!
# Loading the configuration

The configuration file is a TOML document.  Only one key of it matters, but the whole document has
to be well formed.  A file that is not there is no error; one that cannot be read is.
-/

open Toml

/-! ### What the file says -/

/-- The interval that a value stands for. -/
def intervalOf? : Node → Option Nat
  | .integer n => if 0 ≤ n then some n.toNat else none
  | _ => none

/-- The section on visibility that the entries of a table stand for. -/
def sectionOfEntries? (entries : List (String × Node)) : Option VisibilitySection :=
  match entries.lookup "min_report_interval_ms" with
  | none => some ⟨none⟩
  | some n => (intervalOf? n).map fun ms => ⟨some ms⟩

/-- The section on visibility that a value stands for.  It may also be a list of its fields, and a
    date counts as a table in which nothing is set. -/
def sectionOf? : Node → Option VisibilitySection
  | .table _ _ entries => sectionOfEntries? entries
  | .inline entries => sectionOfEntries? entries
  | .array [] => some ⟨none⟩
  | .array (n :: _) => (intervalOf? n).map fun ms => ⟨some ms⟩
  | .dateTime => some ⟨none⟩
  | _ => none

/-- The configuration file that a document stands for. -/
def ConfigFile.ofDocument? (t : Table) : Option ConfigFile :=
  match t.get? "visibility" with
  | none => some ⟨⟨none⟩⟩
  | some n => (sectionOf? n).map ConfigFile.mk

/-- Reads a configuration file. -/
def ConfigFile.read (text : String) : Except ConfigError ConfigFile :=
  match (Toml.read text.toList).bind ConfigFile.ofDocument? with
  | some file => .ok file
  | none => .error .malformed

namespace Config

/-! ### Where it is -/

/-- The path of the configuration file when none is given: below the directory for configurations,
    if that is an absolute path, and otherwise below the home directory. -/
def defaultPath (configHome home accountHome : Option String) : Option String :=
  let home := (home.filter fun p => p ≠ "").or accountHome
  let dir :=
    (configHome.filter fun p => p.startsWith "/").or (home.map fun h => joinPath h ".config")
  dir.map fun d => joinPath (joinPath d "visibility-tracker") "tracker.toml"

/-! ### Loading -/

/-- The file layer: what was found under the path, if there is one. -/
def readFile : Option (String × Lookup) → Except ConfigError (Option (String × ConfigFile))
  | none => .ok none
  | some (_, .missing) => .ok none
  | some (path, .unreadable reason) => .error (.unreadable path reason)
  | some (path, .text s) => (ConfigFile.read s).map fun file => some (path, file)

/-- Loads the configuration from what was found under a path and from the environment. -/
def load (found : Option (String × Lookup)) (env : Option String) : Except ConfigError Config := do
  let file ← readFile found
  resolve file env

/-- What loading logs. -/
def loadLog (found : Option (String × Lookup)) (env : Option String) : List LogEntry :=
  match found, readFile found with
  | _, .error _ => []
  | none, _ => environmentLog env
  | some (path, _), .ok none =>
    ⟨.debug, "Config file not found, using defaults", [("path", .text path)]⟩ :: environmentLog env
  | some (path, _), .ok (some _) =>
    ⟨.info, "Loaded configuration from file", [("path", .text path)]⟩ :: environmentLog env

end Config

end OnScreen
