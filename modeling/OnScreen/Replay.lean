import OnScreen.Script
import OnScreen.Sink.Lines
import OnScreen.Tracker

namespace OnScreen

/-!
# Replaying a script

A replay feeds the steps of a script to a fresh tracker whose calls become lines.  When the script
is at its end the tracker is shut down, so that whatever is still visible is reported as gone.
-/

/-- Feeds one step to a tracker. -/
def Tracker.apply {σ : Type} (sink : Sink σ) (t : Tracker σ) :
    Step → Tracker σ × Except TrackerError Unit
  | .list items => (t.setCandidates items, .ok ())
  | .signal => t.send .possibleChange
  | .panelExpanded value => settled (t.signal (.panelExpanded value))
  | .dozing value => settled (t.signal (.dozing value))
  | .barState state => settled (t.signal (.barState state))
  | .expansion key user expanded => t.send (.expansionChanged key user expanded)
  | .removed key => t.send (.entryRemoved key)
  | .updated key => t.send (.entryUpdated key)
  | .itemError key message => t.send (.itemError key message)
  | .wait ms => (t.pass sink ms, .ok ())
where
  /-- A gate signal without the decision it led to. -/
  settled : Tracker σ × Except TrackerError (Option GateDecision) →
      Tracker σ × Except TrackerError Unit
    | (t, answer) => (t, answer.map fun _ => ())

/-- The lines of a tracker that writes lines. -/
def Tracker.lines (t : Tracker LineSink) : List (List Char) := t.sink.lines

namespace Replay

/-- What was seen of a replay. -/
structure Outcome where
  /-- How many lines there were after each wait. -/
  marks : List Nat
  /-- Every line, those written by the shutdown included. -/
  lines : List (List Char)
  /-- The status before the shutdown. -/
  status : Except TrackerError TrackerStatus
  /-- Whether the tracker has ended. -/
  ended : Bool

/-- Feeds steps to a tracker.  The second component is the number of lines after each wait. -/
def feed (t : Tracker LineSink) : List Step → Except TrackerError (Tracker LineSink × List Nat)
  | [] => .ok (t, [])
  | s :: rest =>
    match t.apply LineSink.sink s with
    | (_, .error e) => .error e
    | (t, .ok ()) =>
      let mark :=
        match s with
        | .wait _ => [t.lines.length]
        | _ => []
      (feed t rest).map fun (t, marks) => (t, mark ++ marks)

/-- Replays steps with the given spacing of ticks, onto a medium of the given capacity. -/
def run (interval : Nat) (capacity : Option Nat) (steps : List Step) :
    Except TrackerError Outcome := do
  let (t, marks) ← feed (.new interval [] (.new capacity)) steps
  let (t, status) := t.observe LineSink.sink
  let (t, _) := t.shutdown LineSink.sink
  .ok ⟨marks, t.lines, status, t.hasEnded⟩

/-- The lines written up to each wait since the one before it, and the lines after the last. -/
def Outcome.batches (o : Outcome) : List (List (List Char)) × List (List Char) :=
  go 0 o.marks
where
  /-- The batches behind the first `start` lines. -/
  go (start : Nat) : List Nat → List (List (List Char)) × List (List Char)
    | [] => ([], o.lines.drop start)
    | mark :: marks =>
      let (batches, rest) := go mark marks
      ((o.lines.drop start).take (mark - start) :: batches, rest)

end Replay

end OnScreen
