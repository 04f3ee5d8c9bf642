import OnScreen.Schedule
import OnScreen.Visibility
import OnScreen.Report

namespace OnScreen

/-!
# The owner of the tracking state

One owner holds everything that tracking remembers and handles one command at a time.  It is told
the time and the current list of candidates and answers with what it has to say.

Signals count only while tracking is started.  Stopping reports everything that is still visible as
gone and drops a pending tick.
-/

/-- What the owner can be asked to do. -/
inductive Command where
  /-- The list of candidates may have changed. -/
  | possibleChange
  /-- The gate has opened. -/
  | start (lockscreen : Bool)
  /-- The gate has closed. -/
  | stop
  | expansionChanged (key : ItemKey) (userAction expanded : Bool)
  | entryRemoved (key : ItemKey)
  | entryUpdated (key : ItemKey)
  | itemError (key : ItemKey) (message : String)
  /-- Tell when everything reported so far has been delivered. -/
  | flush (ticket : Nat)
  /-- Tell the status. -/
  | query (ticket : Nat)
  /-- Stop, deliver what is left and end. -/
  | shutdown (ticket : Nat)
  deriving DecidableEq, Repr

/-- What the owner has to say. -/
inductive Output where
  | report (r : Report)
  | fence (ticket : Nat)
  | status (ticket : Nat)
  deriving DecidableEq, Repr

/-- The reports among what the owner has said. -/
def Output.reports (outputs : List Output) : List Report :=
  outputs.filterMap fun
    | .report r => some r
    | _ => none

/-- The tracking state. -/
structure Owner where
  visible : VisibleSet
  schedule : Schedule
  expansions : Expansions
  started : Bool
  /-- How many ticks have run. -/
  ticks : Nat

namespace Owner

/-- An owner to whom nothing has happened; tracking is stopped. -/
def new (interval : Nat) : Owner := ⟨∅, .new interval, ∅, false, 0⟩

/-- The change signal: it counts only while tracking is started. -/
def possibleChange (o : Owner) (now : Instant) : Owner :=
  if o.started then { o with schedule := (o.schedule.signal now).1 } else o

/-- Says which items the panel was opened with, and starts tracking unless it runs already. -/
def start (o : Owner) (now : Instant) (candidates : List Candidate) (lockscreen : Bool) :
    Owner × List Output :=
  (if o.started then o else { o with started := true }.possibleChange now,
    [.report (.panelShown lockscreen (candidates.map Candidate.key))])

/-- Stops tracking and takes leave of everything that is visible. -/
def stop (o : Owner) : Owner × List Output :=
  if o.started then
    let (visible, diff) := o.visible.takeAll
    ({ o with started := false, schedule := o.schedule.cancel.1, visible := visible },
      diff.toList.map fun d => .report (.visibility d.newly d.noLonger))
  else (o, [])

/-- One tick: it compares the list with the last one, and then lets every item that is visible now
    appear and go away again, so that no item is taken for visible between two ticks. -/
def tick (o : Owner) (now : Instant) (candidates : List Candidate) : Owner × List Output :=
  let (visible, diff) := o.visible.tick candidates
  let (expansions, changes) := o.expansions.turn diff.current diff.current
  ({ o with
      visible := visible, expansions := expansions
      schedule := o.schedule.begin now, ticks := o.ticks + 1 },
    (if diff.isEmpty then [] else [.report (.visibility diff.newly diff.noLonger)]) ++
      changes.map fun c => .report (.expansion c))

/-- Runs the pending tick if it was due when the deadline was looked at. -/
def tickIfDue (o : Owner) (checked now : Instant) (candidates : List Candidate) :
    Owner × List Output :=
  if o.schedule.isDue checked then o.tick now candidates else (o, [])

/-- Handles a command.  The end is not part of the owner's state, so `shutdown` changes nothing
    here. -/
def handle (o : Owner) (now : Instant) (candidates : List Candidate) :
    Command → Owner × List Output
  | .possibleChange => (o.possibleChange now, [])
  | .start lockscreen => o.start now candidates lockscreen
  | .stop => o.stop
  | .expansionChanged key user expanded =>
    let (expansions, change) :=
      o.expansions.expand key user expanded (Candidate.kindOf candidates key)
    ({ o with expansions := expansions }, change.toList.map fun c => .report (.expansion c))
  | .entryRemoved key => ({ o with expansions := o.expansions.remove key }, [])
  | .entryUpdated key => ({ o with expansions := o.expansions.update key }, [])
  | .itemError key message => (o, [.report (.itemError key message)])
  | .flush ticket => (o, [.fence ticket])
  | .query ticket => (o, [.status ticket])
  | .shutdown _ => (o, [])

end Owner

end OnScreen
