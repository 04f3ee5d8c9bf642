import OnScreen.Schedule
import OnScreen.Log
import OnScreen.Word

namespace OnScreen

/-!
# Configuration

The spacing of ticks is the only thing there is to configure.  Four layers can set it, and a later
one wins: the built-in default, the configuration file, the environment and the command line.  The
value that results has to be in range; what an earlier layer said does not matter once it is
replaced.

* `Config.resolve` — the layers below the command line.
* `Config.override` — the command line on top of them.
-/

/-- A layer of the configuration. -/
inductive ConfigSource where
  | commandLine
  | environment
  | file
  | builtIn
  deriving DecidableEq, Repr

namespace ConfigSource

/-- Every layer. -/
def all : List ConfigSource := [commandLine, environment, file, builtIn]

/-- The short name of a layer. -/
def name : ConfigSource → String
  | commandLine => "Cli"
  | environment => "Env"
  | file => "File"
  | builtIn => "Default"

/-- What messages call a layer. -/
def label : ConfigSource → String
  | commandLine => "CLI"
  | environment => "environment"
  | file => "config file"
  | builtIn => "default"

/-- The position of a layer in `all`. -/
def index : ConfigSource → Fin 4
  | commandLine => 0
  | environment => 1
  | file => 2
  | builtIn => 3

/-- The layer at a position of `all`. -/
def ofIndex : Fin 4 → ConfigSource
  | 0 => commandLine
  | 1 => environment
  | 2 => file
  | 3 => builtIn

end ConfigSource

/-- The section on visibility of a configuration file. -/
structure VisibilitySection where
  /-- The spacing of ticks in milliseconds, if the file sets it. -/
  interval : Option Nat
  deriving DecidableEq, Repr

/-- What a configuration file says. -/
structure ConfigFile where
  visibility : VisibilitySection
  deriving DecidableEq, Repr

/-- The configuration of a tracker. -/
structure Config where
  /-- The least spacing of ticks, in milliseconds. -/
  interval : Nat
  /-- The configuration file that was read. -/
  filePath : Option String
  /-- The last layer that was applied. -/
  source : ConfigSource
  deriving DecidableEq, Repr

/-- Why there is no configuration. -/
inductive ConfigError where
  /-- The file is there but cannot be read. -/
  | unreadable (path reason : String)
  /-- The file is no configuration. -/
  | malformed
  /-- A value is out of range. -/
  | invalid (reason : String)
  deriving DecidableEq, Repr

/-- The text of an error; that of a malformed file goes on with what is wrong with it. -/
def ConfigError.message : ConfigError → String
  | unreadable path reason => "Failed to read config file at " ++ path ++ ": " ++ reason
  | malformed => "Failed to parse TOML config"
  | invalid reason => "Invalid configuration: " ++ reason

/-- The environment variable that sets the interval. -/
def intervalVariable : String := "VISIBILITY_MIN_REPORT_INTERVAL_MS"

/-- The largest interval, in milliseconds. -/
def mostInterval : Nat := 60000

/-- A whole number below `2^64` in decimal digits, as the environment and the command line write it:
    leading zeros and a plus are fine, nothing else is. -/
def wordOfText? (text : String) : Option Nat :=
  let digits :=
    match text.toList with
    | '+' :: ds => ds
    | ds => ds
  if digits.isEmpty || !digits.all Char.isDigit then none
  else
    let n := digits.foldl (fun n d => n * 10 + (d.toNat - 48)) 0
    if n < wordLimit then some n else none

namespace Config

/-- The configuration without any layer on top of it. -/
def builtIn : Config := ⟨defaultInterval, none, .builtIn⟩

/-- Checks that the interval is in range. -/
def validate (c : Config) : Except ConfigError Unit :=
  if c.interval = 0 then .error (.invalid "min_report_interval_ms must be greater than 0")
  else if mostInterval < c.interval then
    .error (.invalid ("min_report_interval_ms must be at most " ++ toString mostInterval
      ++ " (got " ++ toString c.interval ++ ")"))
  else .ok ()

/-- Puts a configuration file on top.  It counts as the source even when it sets nothing. -/
def withFile (c : Config) (path : String) (file : ConfigFile) : Config where
  interval := file.visibility.interval.getD c.interval
  filePath := some path
  source := .file

/-- Puts the environment on top.  A value that is no number is passed over. -/
def withEnvironment (c : Config) (value : Option String) : Config :=
  match value.bind wordOfText? with
  | some ms => { c with interval := ms, source := .environment }
  | none => c

/-- What putting the environment on top logs. -/
def environmentLog (value : Option String) : List LogEntry :=
  match value with
  | none => []
  | some value =>
    if (wordOfText? value).isSome then []
    else
      [⟨.warn, "Ignoring unparsable environment override",
        [("var", .text intervalVariable), ("value", .text value)]⟩]

/-- The configuration that a file and the environment make. -/
def resolve (file : Option (String × ConfigFile)) (env : Option String) :
    Except ConfigError Config := do
  let c :=
    match file with
    | some (path, file) => builtIn.withFile path file
    | none => builtIn
  let c := c.withEnvironment env
  c.validate
  .ok c

/-- Puts an override from the command line on top and checks the result.  The override stays in
    place when the check fails. -/
def override (c : Config) (interval : Option Nat) : Config × Except ConfigError Unit :=
  let c :=
    match interval with
    | some ms => { c with interval := ms, source := .commandLine }
    | none => c
  (c, c.validate)

end Config

end OnScreen
