import OnScreen.CommandLine
import OnScreen.Config.Load
import OnScreen.Replay

namespace OnScreen

/-!
# The program

A run loads the configuration, puts the command line on top, reads the script and replays it.  The
first of these that fails ends the run.
-/

/-- Why a run fails. -/
inductive RunError where
  | configuration (e : ConfigError)
  | override (e : ConfigError)
  /-- The script cannot be read, from that path or from standard input. -/
  | unreadableScript (path : Option String)
  | badScript (e : ScriptError)
  /-- The tracker is gone. -/
  | tracker (e : TrackerError)
  deriving DecidableEq, Repr

namespace RunError

/-- What a failed run says first. -/
def message : RunError → String
  | configuration _ => "Failed to load configuration"
  | override _ => "Invalid command-line override"
  | unreadableScript (some path) => "Failed to read script: " ++ path
  | unreadableScript none => "Failed to read script from stdin"
  | badScript _ => "Failed to parse script"
  | tracker e => e.message

/-- The error behind a failure, where it has a text of its own. -/
def configError? : RunError → Option ConfigError
  | configuration e => some e
  | override e => some e
  | _ => none

end RunError

/-- What a run finds outside. -/
structure Surroundings where
  /-- The configuration file: its path and what is there. -/
  config : Option (String × Lookup)
  /-- The interval that the environment sets. -/
  interval : Option String
  /-- The script, be it a file or standard input. -/
  script : Lookup

namespace Program

/-- The configuration of a run, and the steps of its script. -/
structure Plan where
  config : Config
  steps : List Step

/-- The configuration of a run. -/
def configure (a : Arguments) (s : Surroundings) : Except RunError Config :=
  match Config.load s.config s.interval with
  | .error e => .error (.configuration e)
  | .ok c =>
    match c.override a.interval with
    | (_, .error e) => .error (.override e)
    | (c, .ok ()) => .ok c

/-- The steps of a run. -/
def readSteps (a : Arguments) (s : Surroundings) : Except RunError (List Step) :=
  match s.script with
  | .text text =>
    match Script.read text.toList with
    | .ok steps => .ok steps
    | .error e => .error (.badScript e)
  | _ => .error (.unreadableScript a.script)

/-- Everything that is settled before the tracker starts. -/
def plan (a : Arguments) (s : Surroundings) : Except RunError Plan := do
  let config ← configure a s
  let steps ← readSteps a s
  .ok ⟨config, steps⟩

/-- The replay of a plan. -/
def perform (p : Plan) : Except RunError Replay.Outcome :=
  match Replay.run p.config.interval none p.steps with
  | .ok o => .ok o
  | .error e => .error (.tracker e)

/-- A run from beginning to end. -/
def run (a : Arguments) (s : Surroundings) : Except RunError Replay.Outcome :=
  (plan a s).bind perform

/-- The exit code of a run. -/
def exitCode {α : Type} : Except RunError α → UInt32
  | .ok _ => 0
  | .error _ => 1

/-- The exit code of a command line that is not understood. -/
def misuseCode : UInt32 := 2

end Program

end OnScreen
