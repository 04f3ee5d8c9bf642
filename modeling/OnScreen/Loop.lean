import OnScreen.Owner

namespace OnScreen

/-!
# The owner's loop

The owner looks at its deadline, runs the tick if it is due, and otherwise parks until a command or
the deadline wakes it up.  When both are there at once either may win.  A command that wins still
lets a tick that has become due run first.

The loop ends on a shutdown command, or when nobody is left who could send one: the owner stops,
commands that are still queued are dropped, and it waits for the delivery of its last reports.
-/

/-- Where the loop is. -/
inductive Phase where
  /-- About to look at the deadline. -/
  | checking
  /-- Waiting for a command or for the deadline. -/
  | parked
  /-- No more commands are taken; someone may wait for the end. -/
  | closing (ticket : Option Nat)
  /-- The owner is gone. -/
  | ended
  deriving DecidableEq, Repr

/-- Which of its two waits wakes a parked owner. -/
inductive Branch where
  | command
  | deadline
  deriving DecidableEq, Repr

/-- The clock and the list of candidates as they are read for one thing that the owner does. -/
structure Moment where
  now : Instant
  candidates : List Candidate
  deriving DecidableEq, Repr

/-- What one turn of the loop reads.  Time passes and the list changes while the owner works, so
    each reading is its own. -/
structure Readings where
  /-- The clock when the deadline is looked at. -/
  checked : Instant
  /-- What a tick reads. -/
  tick : Moment
  /-- What the handling of a command reads. -/
  command : Moment
  deriving DecidableEq, Repr

/-- The readings of a turn during which nothing moves. -/
def Readings.still (now : Instant) (candidates : List Candidate) : Readings :=
  ⟨now, ⟨now, candidates⟩, ⟨now, candidates⟩⟩

/-- The owner, its queue of commands and its place in the loop. -/
structure Loop where
  owner : Owner
  inbox : List Command
  phase : Phase
  /-- Nobody is left who could send a command. -/
  abandoned : Bool

namespace Loop

/-- A loop that is about to begin. -/
def new (interval : Nat) : Loop := ⟨.new interval, [], .checking, false⟩

/-- Commands are taken. -/
def isOpen (l : Loop) : Bool :=
  match l.phase with
  | .checking | .parked => true
  | .closing _ | .ended => false

/-- Queues a command, or says that nobody is there to handle it. -/
def send (l : Loop) (c : Command) : Option Loop :=
  if l.isOpen then some { l with inbox := l.inbox ++ [c] } else none

/-- Leaves the loop: the owner stops and what is queued is dropped. -/
def close (l : Loop) (ticket : Option Nat) : Loop × List Output :=
  let (owner, out) := l.owner.stop
  ({ l with owner := owner, inbox := [], phase := .closing ticket }, out)

/-- A command wakes the owner: a tick that has become due runs before it. -/
def receive (l : Loop) (r : Readings) (c : Command) : Loop × List Output :=
  let (owner, out) := l.owner.tickIfDue r.checked r.tick.now r.tick.candidates
  match c with
  | .shutdown ticket =>
    let (l, last) := close { l with owner := owner } (some ticket)
    (l, out ++ last)
  | c =>
    let (owner, more) := owner.handle r.command.now r.command.candidates c
    ({ l with owner := owner, phase := .checking }, out ++ more)

/-- One step of the loop, through the given branch if the owner is parked.  There is none when that
    branch is not ready, or when the loop was left. -/
def step (branch : Branch) (r : Readings) (l : Loop) : Option (Loop × List Output) :=
  match l.phase with
  | .checking =>
    if l.owner.schedule.isDue r.checked then
      let (owner, out) := l.owner.tick r.tick.now r.tick.candidates
      some ({ l with owner := owner }, out)
    else some ({ l with phase := .parked }, [])
  | .parked =>
    match branch with
    | .deadline =>
      if l.owner.schedule.isDue r.checked then some ({ l with phase := .checking }, []) else none
    | .command =>
      match l.inbox with
      | c :: inbox => some ({ l with inbox := inbox }.receive r c)
      | [] =>
        if l.abandoned then
          let (owner, out) := l.owner.tickIfDue r.checked r.tick.now r.tick.candidates
          let (l, last) := close { l with owner := owner } none
          some (l, out ++ last)
        else none
  | .closing _ | .ended => none

/-- The branch that is taken where nothing else decides: commands first. -/
def preferred (l : Loop) : Branch :=
  if l.inbox.isEmpty && !l.abandoned then .deadline else .command

/-- An upper bound for the steps that can be made without time passing: at most three for each
    command, and a last tick between two looks at the deadline. -/
def work (l : Loop) : Nat := 3 * l.inbox.length + 6

end Loop

end OnScreen
