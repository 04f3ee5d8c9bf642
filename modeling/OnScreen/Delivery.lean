import OnScreen.Sink

namespace OnScreen

/-!
# Delivery

Reports leave the tracker through an unbounded queue and are delivered one at a time, in the order
in which they were submitted.  A failed call is counted and dropped; nothing is retried.

Whoever submits a report and whoever delivers it run side by side.  A report is queued first and
counted afterwards, and a call comes to its end first and is counted afterwards; each of these is an
act of its own here, and `submit` and `step` are two of them in a row.

* `Delivery.send`, `Delivery.countSubmitted`, `Delivery.submit` — a report is queued, counted, and
  both.
* `Delivery.fence` — the queue's other entrance.
* `Delivery.proceed`, `Delivery.record`, `Delivery.step` — one call or one parcel, its count, and
  both.
* `Delivery.settle` — as many steps as can be made.
-/

/-- What the queue holds. -/
inductive Parcel where
  | report (r : Report)
  /-- Someone wants to know when everything before this point has been delivered. -/
  | fence (ticket : Nat)
  deriving DecidableEq, Repr

/-- An upper bound for the steps that a parcel takes. -/
def Parcel.work : Parcel → Nat
  | report r => r.calls.length + 1
  | fence _ => 1

/-- The counters of a delivery. -/
structure DeliveryStats where
  /-- Reports accepted by `submit`. -/
  submitted : Nat
  /-- Calls that succeeded. -/
  delivered : Nat
  /-- Calls that failed. -/
  failed : Nat
  deriving DecidableEq, Repr

/-- Counts the end of a call, which may have succeeded or not. -/
def DeliveryStats.record (stats : DeliveryStats) (ok : Bool) : DeliveryStats :=
  if ok then { stats with delivered := stats.delivered + 1 }
  else { stats with failed := stats.failed + 1 }

/-- A queue of reports and the delivery of its head. -/
structure Delivery where
  queue : List Parcel
  /-- The calls that the report being delivered still has to make. -/
  inHand : List Call
  stats : DeliveryStats
  /-- The fences that were reached. -/
  reached : List Nat
  /-- A call has brought the delivery down. -/
  crashed : Bool
  deriving DecidableEq, Repr

namespace Delivery

/-- A delivery with an empty queue. -/
def new : Delivery := ⟨[], [], ⟨0, 0, 0⟩, [], false⟩

/-- Queues a report and does not count it.  The second component is false when the delivery is down,
    and then nothing is queued. -/
def send (d : Delivery) (r : Report) : Delivery × Bool :=
  if d.crashed then (d, false) else ({ d with queue := d.queue ++ [.report r] }, true)

/-- Counts a report that was queued. -/
def countSubmitted (d : Delivery) : Delivery :=
  { d with stats := { d.stats with submitted := d.stats.submitted + 1 } }

/-- Queues a report and then counts it.  The second component is false when the delivery is down,
    and then nothing is queued or counted. -/
def submit (d : Delivery) (r : Report) : Delivery × Bool :=
  match d.send r with
  | (d, true) => (d.countSubmitted, true)
  | (d, false) => (d, false)

/-- Queues a fence; when the delivery is down it is reached at once. -/
def fence (d : Delivery) (ticket : Nat) : Delivery :=
  if d.crashed then { d with reached := d.reached ++ [ticket] }
  else { d with queue := d.queue ++ [.fence ticket] }

/-- A delivery that is up queues the report. -/
theorem send_of_running {d : Delivery} (h : d.crashed = false) (r : Report) :
    d.send r = ({ d with queue := d.queue ++ [.report r] }, true) := by
  simp [send, h]

/-- A delivery that is down takes no report. -/
theorem send_of_crashed {d : Delivery} (h : d.crashed = true) (r : Report) :
    d.send r = (d, false) := by
  simp [send, h]

/-- A delivery that is up queues the report and counts it. -/
theorem submit_of_running {d : Delivery} (h : d.crashed = false) (r : Report) :
    d.submit r =
      ({ d with
          queue := d.queue ++ [.report r]
          stats := { d.stats with submitted := d.stats.submitted + 1 } }, true) := by
  rw [submit, send_of_running h]
  rfl

/-- A delivery that is down neither queues nor counts it. -/
theorem submit_of_crashed {d : Delivery} (h : d.crashed = true) (r : Report) :
    d.submit r = (d, false) := by
  rw [submit, send_of_crashed h]

/-- A delivery that is up queues the fence. -/
theorem fence_of_running {d : Delivery} (h : d.crashed = false) (ticket : Nat) :
    d.fence ticket = { d with queue := d.queue ++ [.fence ticket] } := by
  simp [fence, h]

/-- A delivery that is down keeps nobody waiting behind a new fence. -/
theorem fence_of_crashed {d : Delivery} (h : d.crashed = true) (ticket : Nat) :
    d.fence ticket = { d with reached := d.reached ++ [ticket] } := by
  simp [fence, h]

/-- There is nothing left to deliver. -/
def isIdle (d : Delivery) : Bool := d.queue.isEmpty && d.inHand.isEmpty

theorem isIdle_iff {d : Delivery} : d.isIdle = true ↔ d.queue = [] ∧ d.inHand = [] := by
  simp [isIdle]

/-- A fence was reached, and whoever asked for it has been told so.  One that was dropped with the
    queue never is. -/
def hasReached (d : Delivery) (ticket : Nat) : Bool := d.reached.contains ticket

/-- Whoever waits behind a fence and does not ask how it ended may go on: it was reached, or it
    never will be because the delivery is down. -/
def isPast (d : Delivery) (ticket : Nat) : Bool := d.crashed || d.hasReached ticket

/-- A delivery that is down keeps nobody waiting. -/
theorem isPast_of_crashed {d : Delivery} (h : d.crashed = true) (ticket : Nat) :
    d.isPast ticket = true := by
  rw [isPast, h, Bool.true_or]

/-- An upper bound for the steps left. -/
def work (d : Delivery) : Nat := d.inHand.length + d.queue.foldr (fun p n => p.work + n) 0

variable {σ : Type}

/-- One step that is not counted: the next call of the report in hand comes to its end, or the next
    parcel is taken.  There is none when nothing is left or the call has to wait.  The last
    component is the result of a call that returned, which is still to be counted. -/
def proceed (sink : Sink σ) (s : σ) (d : Delivery) : Option (σ × Delivery × Option Bool) :=
  match d.inHand with
  | c :: rest =>
    match sink.offer s c with
    | (s, .accepted) => some (s, { d with inHand := rest }, some true)
    | (s, .refused _) => some (s, { d with inHand := rest }, some false)
    | (_, .waiting) => none
    | (s, .crashed) => some (s, { d with queue := [], inHand := [], crashed := true }, none)
  | [] =>
    match d.queue with
    | .report r :: queue => some (s, { d with queue := queue, inHand := r.calls }, none)
    | .fence ticket :: queue =>
      some (s, { d with queue := queue, reached := d.reached ++ [ticket] }, none)
    | [] => none

/-- Counts the result of a call, if there is one. -/
def record (d : Delivery) : Option Bool → Delivery
  | some ok => { d with stats := d.stats.record ok }
  | none => d

/-- One step, which is counted at once. -/
def step (sink : Sink σ) (s : σ) (d : Delivery) : Option (σ × Delivery) :=
  (d.proceed sink s).map fun (s, d, result) => (s, d.record result)

/-- What a step can come to. -/
theorem step_eq (sink : Sink σ) (s : σ) (d : Delivery) :
    d.step sink s =
      match d.inHand with
      | c :: rest =>
        match sink.offer s c with
        | (s, .accepted) => some (s, { d with inHand := rest, stats := d.stats.record true })
        | (s, .refused _) => some (s, { d with inHand := rest, stats := d.stats.record false })
        | (_, .waiting) => none
        | (s, .crashed) => some (s, { d with queue := [], inHand := [], crashed := true })
      | [] =>
        match d.queue with
        | .report r :: queue => some (s, { d with queue := queue, inHand := r.calls })
        | .fence ticket :: queue =>
          some (s, { d with queue := queue, reached := d.reached ++ [ticket] })
        | [] => none := by
  unfold step proceed
  cases d.inHand with
  | cons c rest =>
    rcases answer : sink.offer s c with ⟨s', reply⟩
    cases reply <;> simp [answer, record]
  | nil =>
    cases d.queue with
    | nil => rfl
    | cons p queue => cases p <;> rfl

/-- There is no step only where nothing is left, or where the next call has to wait. -/
theorem step_eq_none_iff {sink : Sink σ} {s : σ} {d : Delivery} :
    d.step sink s = none ↔
      (d.inHand = [] ∧ d.queue = []) ∨
        ∃ c rest, d.inHand = c :: rest ∧ (sink.offer s c).2 = .waiting := by
  rw [step_eq]
  cases d.inHand with
  | cons c rest =>
    rcases answer : sink.offer s c with ⟨s', reply⟩
    cases reply <;> simp [answer]
  | nil =>
    cases d.queue with
    | nil => simp
    | cons p queue => cases p <;> simp

/-- At most `n` steps. -/
def run (sink : Sink σ) : Nat → σ → Delivery → σ × Delivery
  | 0, s, d => (s, d)
  | n + 1, s, d =>
    match d.step sink s with
    | some (s, d) => run sink n s d
    | none => (s, d)

/-- Every step that can be made. -/
def settle (sink : Sink σ) (s : σ) (d : Delivery) : σ × Delivery := d.run sink d.work s

/-- A description of the delivery for debugging. -/
def describe (d : Delivery) : String :=
  "AsyncDispatcher \x7b stats: DispatchStatsSnapshot \x7b submitted: " ++ toString d.stats.submitted
    ++ ", delivered: " ++ toString d.stats.delivered
    ++ ", failed: " ++ toString d.stats.failed
    ++ " \x7d, closed: " ++ toString d.crashed ++ " \x7d"

end Delivery

end OnScreen
