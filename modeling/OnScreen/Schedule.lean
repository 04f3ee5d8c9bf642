namespace OnScreen

/-!
# When the next tick runs

Change signals arrive at any rate.  A schedule turns them into at most one pending tick, due no
earlier than one interval after the tick before it.  A signal that finds a tick pending is absorbed
by it: the tick reads the list when it runs, so it sees the latest state anyway.

Instants are milliseconds since an arbitrary origin.  They need not grow from call to call.  They
are taken to be representable: the sum of an instant and an interval is an instant again.  A clock
that has a last instant has no deadlines beyond it, and whoever computes one there comes down; with
intervals of at most a minute this is not before the clock itself ends.
-/

/-- A point in time, in milliseconds.  There is no last one. -/
abbrev Instant := Nat

/-- The spacing of ticks when nothing else is asked for, in milliseconds. -/
def defaultInterval : Nat := 500

/-- The schedule of ticks. -/
structure Schedule where
  /-- The least spacing between two ticks, in milliseconds. -/
  interval : Nat
  /-- When the last tick started. -/
  lastTick : Option Instant
  /-- When the pending tick is due. -/
  pending : Option Instant
  /-- How many signals a pending tick has absorbed. -/
  coalesced : Nat
  deriving DecidableEq, Repr

namespace Schedule

/-- A schedule on which nothing has happened yet. -/
def new (interval : Nat) : Schedule := ⟨interval, none, none, 0⟩

/-- The earliest instant at which a tick signalled at `now` may run.  It is taken to be one that the
    clock can represent. -/
def dueFor (s : Schedule) (now : Instant) : Instant :=
  match s.lastTick with
  | some last => max (last + s.interval) now
  | none => now

/-- Takes a change signal.  The second component is the deadline it armed, or `none` when a tick was
    pending already. -/
def signal (s : Schedule) (now : Instant) : Schedule × Option Instant :=
  match s.pending with
  | some _ => ({ s with coalesced := s.coalesced + 1 }, none)
  | none => ({ s with pending := some (s.dueFor now) }, some (s.dueFor now))

/-- Whether a tick is pending. -/
def isPending (s : Schedule) : Bool := s.pending.isSome

/-- Whether the pending tick may run at `now`. -/
def isDue (s : Schedule) (now : Instant) : Bool := s.pending.any fun due => due ≤ now

/-- A tick starts at `now`. -/
def begin (s : Schedule) (now : Instant) : Schedule :=
  { s with pending := none, lastTick := some now }

/-- Drops the pending tick.  The second component tells whether there was one. -/
def cancel (s : Schedule) : Schedule × Bool := ({ s with pending := none }, s.isPending)

/-! ### What a signal does -/

/-- A signal that finds a tick pending is absorbed. -/
theorem signal_of_pending {s : Schedule} {due : Instant} (h : s.pending = some due)
    (now : Instant) : (s.signal now).1 = { s with coalesced := s.coalesced + 1 } := by
  simp only [signal, h]

/-- A signal that finds no tick pending arms one. -/
theorem signal_of_idle {s : Schedule} (h : s.pending = none) (now : Instant) :
    (s.signal now).1 = { s with pending := some (s.dueFor now) } := by
  simp only [signal, h]

/-- A signal is no tick. -/
@[simp] theorem lastTick_signal (s : Schedule) (now : Instant) :
    (s.signal now).1.lastTick = s.lastTick := by
  unfold signal
  split <;> rfl

/-- Nothing changes the interval. -/
@[simp] theorem interval_signal (s : Schedule) (now : Instant) :
    (s.signal now).1.interval = s.interval := by
  unfold signal
  split <;> rfl

/-! ### Deadlines -/

/-- Deadlines depend on the interval and on the last tick alone. -/
theorem dueFor_congr {s t : Schedule} (interval : s.interval = t.interval)
    (lastTick : s.lastTick = t.lastTick) (now : Instant) : s.dueFor now = t.dueFor now := by
  rw [dueFor, dueFor, interval, lastTick]

/-- Later signals do not arm earlier deadlines. -/
theorem dueFor_mono (s : Schedule) {now later : Instant} (h : now ≤ later) :
    s.dueFor now ≤ s.dueFor later := by
  unfold dueFor
  split
  · exact Nat.max_le.2 ⟨Nat.le_max_left _ _, Nat.le_trans h (Nat.le_max_right _ _)⟩
  · exact h

/-- A tick may run when one is pending and its deadline has come. -/
theorem isDue_iff {s : Schedule} {now : Instant} :
    s.isDue now = true ↔ ∃ due, s.pending = some due ∧ due ≤ now := by
  simp [isDue, Option.any_eq_true]

end Schedule

end OnScreen
