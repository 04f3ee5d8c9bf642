import OnScreen.Sink
import OnScreen.Wire

namespace OnScreen

/-!
# A sink that writes lines

Every call becomes one line of JSON.  Strings escape their line feeds, so a line feed in what was
written always ends a line.  The medium may be of limited capacity; a line for which there is no
capacity left is lost, and the call is refused.
-/

/-- The state of a sink that writes lines. -/
structure LineSink where
  /-- How many lines the medium can hold, if that is limited. -/
  capacity : Option Nat
  /-- The lines written, without the line feeds at their ends. -/
  lines : List (List Char)
  deriving DecidableEq, Repr

namespace LineSink

/-- Nothing has been written. -/
def new (capacity : Option Nat) : LineSink := ⟨capacity, []⟩

/-- The line of a call. -/
def lineOf (c : Call) : List Char := Wire.call.write c

/-- Whether there is no capacity left. -/
def isFull (s : LineSink) : Bool := s.capacity.any fun n => n ≤ s.lines.length

/-- Takes a call. -/
def offer (s : LineSink) (c : Call) : LineSink × SinkReply :=
  if s.isFull then (s, .refused (.unreachable "disk full"))
  else ({ s with lines := s.lines ++ [lineOf c] }, .accepted)

/-- The line writer as a sink. -/
def sink : Sink LineSink := ⟨offer⟩

/-- Everything that was written. -/
def text (s : LineSink) : List Char := s.lines.flatMap fun l => l ++ ['\n']

end LineSink

end OnScreen
