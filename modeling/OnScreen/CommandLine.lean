import OnScreen.Config

namespace OnScreen

/-!
# The command line

Three options take a value: the script (`-s`, `--script`), the configuration file (`-c`, `--config`)
and the interval (`--min-interval-ms`).  A value is attached to its option or is the argument behind
it; then it may not look like an option itself.  No option may be given twice, and nothing else may
be given.

The environment can name the configuration file too; the command line goes first.
-/

/-- The environment variable that names the configuration file. -/
def configVariable : String := "VISIBILITY_CONFIG"

/-- An option that takes a value. -/
inductive Setting where
  | script
  | config
  | interval
  deriving DecidableEq, Repr

/-- An option. -/
inductive Switch where
  | setting (s : Setting)
  | help
  | version
  deriving DecidableEq, Repr

/-- The option with a long name. -/
def Switch.ofLong? : String → Option Switch
  | "script" => some (.setting .script)
  | "config" => some (.setting .config)
  | "min-interval-ms" => some (.setting .interval)
  | "help" => some .help
  | "version" => some .version
  | _ => none

/-- The option with a short name. -/
def Switch.ofShort? : Char → Option Switch
  | 's' => some (.setting .script)
  | 'c' => some (.setting .config)
  | 'h' => some .help
  | 'V' => some .version
  | _ => none

/-- The values of the options. -/
structure Arguments where
  script : Option String
  config : Option String
  interval : Option Nat
  deriving DecidableEq, Repr

/-- What is asked for. -/
inductive Request where
  | run (a : Arguments)
  | help
  | version
  deriving DecidableEq, Repr

namespace Arguments

/-- No option has a value. -/
def none : Arguments := ⟨.none, .none, .none⟩

/-- A value for an option that has none yet, where nothing is no value. -/
def fresh? {α : Type} (old : Option α) (new : Option α) : Option (Option α) :=
  match old, new with
  | .none, some a => some (some a)
  | _, _ => .none

/-- Gives an option a value, unless it has one or the value is not fit for it. -/
def give? (a : Arguments) (s : Setting) (value : String) : Option Arguments :=
  let path := if value.isEmpty then .none else some value
  match s with
  | .script => (fresh? a.script path).map fun p => { a with script := p }
  | .config => (fresh? a.config path).map fun p => { a with config := p }
  | .interval => (fresh? a.interval (wordOfText? value)).map fun n => { a with interval := n }

/-- Takes the path of the configuration file from the environment where none is given. -/
def withEnvironment? (a : Arguments) (value : Option String) : Option Arguments :=
  match a.config, value with
  | .none, some path => a.give? .config path
  | _, _ => some a

end Arguments

/-- An argument that is not made of a name alone. -/
inductive ArgumentShape where
  /-- Two dashes: only plain arguments follow. -/
  | endOfOptions
  | option (s : Switch) (attached : Option String)
  | unknown
  /-- No option at all. -/
  | plain
  deriving DecidableEq, Repr

/-- How an argument is understood where an option may stand. -/
def ArgumentShape.of (arg : String) : ArgumentShape :=
  match arg.toList with
  | '-' :: '-' :: [] => endOfOptions
  | '-' :: '-' :: cs =>
    let name := String.ofList (cs.takeWhile (· ≠ '='))
    let attached :=
      match cs.dropWhile (· ≠ '=') with
      | _ :: value => some (String.ofList value)
      | [] => none
    match Switch.ofLong? name, attached with
    | some (.setting s), attached => option (.setting s) attached
    | some s, none => option s none
    | _, _ => unknown
  | '-' :: c :: cs =>
    match Switch.ofShort? c, cs with
    | some (.setting s), [] => option (.setting s) none
    | some (.setting s), '=' :: value => option (.setting s) (some (String.ofList value))
    | some (.setting s), value => option (.setting s) (some (String.ofList value))
    | some s, _ => option s none
    | none, _ => unknown
  | _ => plain

/-- Understands arguments after those that have given `a`; there is none for misuse. -/
def Request.parse? (a : Arguments) : List String → Option Request
  | [] => some (.run a)
  | arg :: rest =>
    match ArgumentShape.of arg with
    | .endOfOptions => if rest.isEmpty then some (.run a) else none
    | .unknown | .plain => none
    | .option .help _ => some .help
    | .option .version _ => some .version
    | .option (.setting s) (some value) => (a.give? s value).bind fun a => parse? a rest
    | .option (.setting s) none =>
      match rest with
      | [] => none
      | value :: rest =>
        if ArgumentShape.of value = .plain then (a.give? s value).bind fun a => parse? a rest
        else none

/-- Understands a whole command line, with the environment's name for the configuration file. -/
def Request.of? (args : List String) (config : Option String) : Option Request :=
  match parse? .none args with
  | some (.run a) => (a.withEnvironment? config).map .run
  | r => r

end OnScreen
