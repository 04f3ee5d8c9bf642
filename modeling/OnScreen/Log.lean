namespace OnScreen

/-!
# Log entries

The tracker explains itself through structured log entries: a level, a message and named fields.
An entry is a function of the thing it speaks of, so producing it is no effect; whoever keeps a
log collects the entries of what happened, in order.
-/

/-- How much attention an entry asks for. -/
inductive LogLevel where
  | debug
  | info
  | warn
  deriving DecidableEq, Repr

/-- The name of a level. -/
def LogLevel.label : LogLevel → String
  | debug => "DEBUG"
  | info => "INFO"
  | warn => "WARN"

/-- The value of a field. -/
inductive LogValue where
  | count (n : Nat)
  | flag (b : Bool)
  | text (s : String)
  deriving DecidableEq, Repr

/-- One entry of the log. -/
structure LogEntry where
  level : LogLevel
  message : String
  fields : List (String × LogValue)
  deriving DecidableEq, Repr

end OnScreen
