import OnScreen.Program

/-!
# The executable

Everything that touches the world: arguments, environment, files, the clock and the output.  Reports
go to standard output, a line each, and the log goes to standard error.
-/

namespace OnScreen.Executable

/-- The text of the help. -/
def helpText : String :=
  "Visibility Replay - feed a signal script through the visibility tracker\n\n" ++
  "Usage: visibility-replay [OPTIONS]\n\n" ++
  "Options:\n" ++
  "  -s, --script <FILE>         Script file (JSON lines); reads stdin when omitted\n" ++
  "  -c, --config <FILE>         Configuration file path [env: VISIBILITY_CONFIG=]\n" ++
  "      --min-interval-ms <MS>  Minimum spacing between ticks, in milliseconds\n" ++
  "  -h, --help                  Print help\n" ++
  "  -V, --version               Print version\n"

/-- The text of the version. -/
def versionText : String := "visibility-replay 0.1.0\n"

/-- The value of a field of the log as a text. -/
def shown : LogValue → String
  | .count n => toString n
  | .flag b => toString b
  | .text s => s

/-- Writes an entry of the log. -/
def log (e : LogEntry) : IO Unit :=
  IO.eprintln (String.intercalate " "
    (e.level.label :: e.message :: e.fields.map fun (k, v) => k ++ "=" ++ shown v))

/-- Bytes as a text. -/
def ofBytes (bytes : ByteArray) : Lookup :=
  match String.fromUTF8? bytes with
  | some s => .text s
  | none => .unreadable FileTree.notUnicodeReason

/-- What is under a path. -/
def readPath (path : String) : IO Lookup := do
  match ← (IO.FS.readBinFile path).toBaseIO with
  | .ok bytes => return ofBytes bytes
  | .error (.noFileOrDirectory ..) => return .missing
  | .error (.inappropriateType ..) => return .unreadable FileTree.isDirectoryReason
  | .error e => return .unreadable (toString e)

/-- Finds everything that a run with these arguments needs. -/
def survey (a : Arguments) : IO Surroundings := do
  let path := a.config.or
    (Config.defaultPath (← IO.getEnv "XDG_CONFIG_HOME") (← IO.getEnv "HOME") none)
  let config ← path.mapM fun p => do return (p, ← readPath p)
  let script ←
    match a.script with
    | some p => readPath p
    | none => do
      let bytes ← (← IO.getStdin).readBinToEnd
      pure (ofBytes bytes)
  return ⟨config, ← IO.getEnv intervalVariable, script⟩

/-- Waits that many milliseconds. -/
def sleep (ms : Nat) : IO Unit := do
  for _ in [0:ms / 1000000] do
    IO.sleep 1000000
  IO.sleep (UInt32.ofNat (ms % 1000000))

/-- Writes the lines that are new since `written` of them were there. -/
def writeNew (t : Tracker LineSink) (written : Nat) : IO Nat := do
  let out ← IO.getStdout
  for line in t.lines.drop written do
    out.putStrLn (String.ofList line)
    out.flush
  return t.lines.length

/-- Replays a plan at the pace of its waits. -/
def replay (p : Program.Plan) : IO Unit := do
  let mut t := Tracker.new p.config.interval [] (LineSink.new none)
  let mut written := 0
  for step in p.steps do
    if let .wait ms := step then sleep ms
    t := (t.apply LineSink.sink step).1
    written ← writeNew t written
  let (observed, status) := t.observe LineSink.sink
  t := (observed.shutdown LineSink.sink).1
  discard <| writeNew t written
  if let .ok s := status then
    log ⟨.info, "Replay finished",
      [("ticks", .count s.ticks), ("coalesced", .count s.coalesced),
       ("delivered", .count s.delivery.delivered), ("failed", .count s.delivery.failed)]⟩

/-- Runs the program with these arguments. -/
def start (a : Arguments) : IO UInt32 := do
  let s ← survey a
  for e in Config.loadLog s.config s.interval do
    log e
  let plan := Program.plan a s
  if let .ok c := Program.configure a s then
    log ⟨.info, "Configuration loaded",
      [("min_interval_ms", .count c.interval), ("source", .text c.source.label)]⟩
  match plan with
  | .ok p =>
    log ⟨.info, "Replaying script", [("steps", .count p.steps.length)]⟩
    replay p
  | .error e =>
    IO.eprintln ("Error: " ++ e.message)
    if let some cause := e.configError? then IO.eprintln ("Caused by: " ++ cause.message)
  return Program.exitCode plan

end OnScreen.Executable

/-- The program. -/
def main (args : List String) : IO UInt32 := do
  match OnScreen.Request.of? args (← IO.getEnv OnScreen.configVariable) with
  | some (.run a) => OnScreen.Executable.start a
  | some .help =>
    IO.print OnScreen.Executable.helpText
    return 0
  | some .version =>
    IO.print OnScreen.Executable.versionText
    return 0
  | none =>
    IO.eprintln "error: the arguments are not understood; see --help"
    return OnScreen.Program.misuseCode
