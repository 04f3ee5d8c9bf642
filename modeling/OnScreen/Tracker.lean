import OnScreen.Delivery
import OnScreen.Gate
import OnScreen.Loop

namespace OnScreen

/-!
# The whole tracker

A tracker is an owner, the queue of commands in front of it, the delivery behind it and the sink at
the far end, together with the gate, the list of candidates and the clock.  Time is a value: it
moves when it is told to.

Clients call two kinds of operation.  Sending ones (`signal`, `send`) only queue a command.
Awaiting ones (`flush`, `advance`, `wait`, `shutdown`) let everything run that can.
-/

/-- What the owner tells about itself. -/
structure TrackerStatus where
  started : Bool
  /-- How many items are visible. -/
  visible : Nat
  /-- How many items have an expansion state. -/
  trackedExpansions : Nat
  tickPending : Bool
  ticks : Nat
  /-- Signals absorbed by a pending tick. -/
  coalesced : Nat
  lastTick : Option Instant
  delivery : DeliveryStats
  deriving DecidableEq, Repr

/-- The answer to a request that waits for one. -/
inductive Answer where
  /-- The status that was asked for. -/
  | status (ticket : Nat) (s : TrackerStatus)
  /-- The owner has ended as requested. -/
  | ended (ticket : Nat)
  deriving DecidableEq, Repr

/-- Why a call on a tracker fails. -/
inductive TrackerError where
  /-- The owner is gone. -/
  | closed
  deriving DecidableEq, Repr

/-- The text of a failure. -/
def TrackerError.message : TrackerError → String
  | closed => "Visibility logger is no longer running"

/-- A tracker whose sink has states in `σ`. -/
structure Tracker (σ : Type) where
  gate : Gate
  loop : Loop
  delivery : Delivery
  sink : σ
  candidates : List Candidate
  clock : Instant
  answers : List Answer
  /-- The next ticket for a request. -/
  nextTicket : Nat

namespace Tracker

variable {σ : Type}

/-- A tracker at time zero: tracking is stopped and no signal has been observed. -/
def new (interval : Nat) (candidates : List Candidate) (s : σ) : Tracker σ where
  gate := .new
  loop := .new interval
  delivery := .new
  sink := s
  candidates := candidates
  clock := 0
  answers := []
  nextTicket := 0

/-- The status at this moment. -/
def status (t : Tracker σ) : TrackerStatus where
  started := t.loop.owner.started
  visible := t.loop.owner.visible.size
  trackedExpansions := t.loop.owner.expansions.tracked
  tickPending := t.loop.owner.schedule.isPending
  ticks := t.loop.owner.ticks
  coalesced := t.loop.owner.schedule.coalesced
  lastTick := t.loop.owner.schedule.lastTick
  delivery := t.delivery.stats

/-! ### What clients send -/

/-- Queues a command for the owner. -/
def send (t : Tracker σ) (c : Command) : Tracker σ × Except TrackerError Unit :=
  match t.loop.send c with
  | some loop => ({ t with loop := loop }, .ok ())
  | none => (t, .error .closed)

/-- The command that a decision turns into. -/
def commandFor : GateDecision → Option Command
  | .undecided => none
  | .opened lockscreen => some (.start lockscreen)
  | .closed _ => some .stop

/-- Takes a gate signal.  The gate changes in any case; the call fails when the decision that
    follows cannot be sent.  The bar state asks for no decision. -/
def signal (t : Tracker σ) (s : GateSignal) :
    Tracker σ × Except TrackerError (Option GateDecision) :=
  let answer := t.gate.answer s
  let t := { t with gate := t.gate.set s }
  match answer.bind commandFor with
  | none => (t, .ok answer)
  | some c =>
    let (t, sent) := t.send c
    (t, sent.map fun _ => answer)

/-- Replaces the list of candidates.  Nobody is told. -/
def setCandidates (t : Tracker σ) (candidates : List Candidate) : Tracker σ :=
  { t with candidates := candidates }

/-! ### How the parts move -/

/-- Passes on one thing that the owner said. -/
def emit (t : Tracker σ) : Output → Tracker σ
  | .report r => { t with delivery := (t.delivery.submit r).1 }
  | .fence ticket => { t with delivery := t.delivery.fence ticket }
  | .status ticket => { t with answers := t.answers ++ [.status ticket t.status] }

/-- One step of the owner, if it can make one through that branch with these readings. -/
def turn (branch : Branch) (r : Readings) (t : Tracker σ) : Option (Tracker σ) :=
  (t.loop.step branch r).map fun (loop, out) => out.foldl emit { t with loop := loop }

/-- One step of the owner while the clock and the list stand still. -/
def ownerStep (branch : Branch) (t : Tracker σ) : Option (Tracker σ) :=
  t.turn branch (.still t.clock t.candidates)

/-- One step of the delivery, if it can make one. -/
def deliveryStep (sink : Sink σ) (t : Tracker σ) : Option (Tracker σ) :=
  (t.delivery.step sink t.sink).map fun (s, d) => { t with sink := s, delivery := d }

/-- The end of an owner that has left its loop, once everything is delivered. -/
def endStep (t : Tracker σ) : Option (Tracker σ) :=
  match t.loop.phase with
  | .closing ticket =>
    if t.delivery.isIdle || t.delivery.crashed then
      some { t with
        loop := { t.loop with phase := .ended }
        answers := t.answers ++ (ticket.map Answer.ended).toList }
    else none
  | _ => none

/-- As many steps of the owner as can be made, at most `n`. -/
def runOwner : Nat → Tracker σ → Tracker σ
  | 0, t => t
  | n + 1, t =>
    match t.ownerStep t.loop.preferred with
    | some t => runOwner n t
    | none => t

/-- Everything runs that can, time standing still: the owner, then the delivery, then the end. -/
def settle (sink : Sink σ) (t : Tracker σ) : Tracker σ :=
  let t := t.runOwner t.loop.work
  let (s, d) := t.delivery.settle sink t.sink
  let t := { t with sink := s, delivery := d }
  t.endStep.getD t

/-- Lets time pass until `finish`, stopping on the way at the deadline of a pending tick.  There is
    at most one such stop: a tick arms no other one, and commands come only from clients. -/
def elapse (sink : Sink σ) (t : Tracker σ) (finish : Instant) : Tracker σ :=
  let t :=
    match t.loop.owner.schedule.pending with
    | some due =>
      if t.clock < due ∧ due ≤ finish ∧ t.loop.isOpen then settle sink { t with clock := due }
      else t
    | none => t
  { t with clock := finish }

/-- Time passes: what is queued runs at the old time, ticks run at their deadlines, and everything
    is delivered. -/
def pass (sink : Sink σ) (t : Tracker σ) (ms : Nat) : Tracker σ :=
  (t.settle sink).elapse sink (t.clock + ms)

/-! ### What clients await -/

/-- A ticket for a request. -/
def ticket (t : Tracker σ) : Tracker σ × Nat :=
  ({ t with nextTicket := t.nextTicket + 1 }, t.nextTicket)

/-- Waits until everything reported so far has been delivered; a tick that is due runs first.  It
    fails when the owner is gone, and when the fence was dropped by a delivery that went down. -/
def flush (sink : Sink σ) (t : Tracker σ) : Tracker σ × Except TrackerError Unit :=
  let (t, ticket) := t.ticket
  match t.send (.flush ticket) with
  | (t, .error e) => (t.settle sink, .error e)
  | (t, .ok ()) =>
    let t := t.settle sink
    (t, if t.delivery.hasReached ticket then .ok () else .error .closed)

/-- Asks the owner for its status. -/
def query (sink : Sink σ) (t : Tracker σ) : Tracker σ × Except TrackerError TrackerStatus :=
  let (t, ticket) := t.ticket
  match t.send (.query ticket) with
  | (t, .error e) => (t.settle sink, .error e)
  | (t, .ok ()) =>
    let t := t.settle sink
    let found := t.answers.findSome? fun
      | .status j s => if j = ticket then some s else none
      | .ended _ => none
    (t, match found with
      | some s => .ok s
      | none => .error .closed)

/-- Waits for delivery and asks for the status. -/
def observe (sink : Sink σ) (t : Tracker σ) : Tracker σ × Except TrackerError TrackerStatus :=
  match t.flush sink with
  | (t, .ok ()) => t.query sink
  | (t, .error e) => (t, .error e)

/-- The clock jumps: what is queued and what is overdue runs at the new time. -/
def advance (sink : Sink σ) (t : Tracker σ) (ms : Nat) :
    Tracker σ × Except TrackerError TrackerStatus :=
  observe sink { t with clock := t.clock + ms }

/-- Time passes. -/
def wait (sink : Sink σ) (t : Tracker σ) (ms : Nat) :
    Tracker σ × Except TrackerError TrackerStatus :=
  (t.pass sink ms).observe sink

/-- Asks the owner to end.  The second component is the ticket to wait for. -/
def requestShutdown (t : Tracker σ) : Tracker σ × Except TrackerError Nat :=
  let (t, ticket) := t.ticket
  let (t, sent) := t.send (.shutdown ticket)
  (t, sent.map fun _ => ticket)

/-- Waits for the end that was requested. -/
def awaitShutdown (sink : Sink σ) (t : Tracker σ) (request : Except TrackerError Nat) :
    Tracker σ × Except TrackerError Unit :=
  let t := t.settle sink
  (t, match request with
    | .error e => .error e
    | .ok ticket => if t.answers.contains (.ended ticket) then .ok () else .error .closed)

/-- Stops tracking, delivers everything and ends the owner. -/
def shutdown (sink : Sink σ) (t : Tracker σ) : Tracker σ × Except TrackerError Unit :=
  let (t, request) := t.requestShutdown
  t.awaitShutdown sink request

/-- Every client goes away: what is queued is handled, and then the owner ends. -/
def abandon (sink : Sink σ) (t : Tracker σ) : Tracker σ :=
  settle sink { t with loop := { t.loop with abandoned := true } }

/-- The owner has ended. -/
def hasEnded (t : Tracker σ) : Bool := t.loop.phase = .ended

end Tracker

end OnScreen
