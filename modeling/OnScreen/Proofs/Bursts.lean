import Mathlib.Data.List.DropRight
import OnScreen.Proofs.TickRate

namespace OnScreen

/-!
# Bursts of signals

The first signal arms a tick, and what it arms stays: later signals move the tick neither back nor
forward, however many there are and whatever the clock says.  Only a tick that begins and a
cancellation that finds one pending make room for another first signal.

A schedule is looked at from outside here: by what it was asked, and what it answered.

* `ScheduleCall`, `ScheduleEntry`, `ScheduleHistory` — what is asked of a schedule, and what it
  answered.
* `firstSignal?`, `lastBegin?`, `deadlineAt` — what counts in such a history, and the deadline that
  follows from it.
* `ScheduleHistory.Explained` — the schedule is as its history says;
  `ScheduleHistory.Explained.next` keeps it so.
* `bursts_move_no_tick` — deadlines, answers and the distance of ticks, told from the history alone.
-/

/-! ### Histories -/

/-- Something that is asked of a schedule. -/
inductive ScheduleCall where
  | signal (now : Instant)
  | due (now : Instant)
  | begin (now : Instant)
  | cancel
  deriving DecidableEq, Repr

/-- Something that was asked of a schedule, and what it answered. -/
inductive ScheduleEntry where
  | signalled (now : Instant)
  | asked (now : Instant) (due : Bool)
  | began (now : Instant)
  | cancelled (dropped : Bool)
  deriving DecidableEq, Repr

namespace ScheduleEntry

/-- No tick is pending any more: one began, or one was dropped. -/
def clears : ScheduleEntry → Bool
  | signalled _ | asked _ _ => false
  | began _ => true
  | cancelled dropped => dropped

/-- When the signal came, if it was one. -/
def signal? : ScheduleEntry → Option Instant
  | signalled now => some now
  | asked _ _ | began _ | cancelled _ => none

/-- When the tick began, if one did. -/
def begin? : ScheduleEntry → Option Instant
  | began now => some now
  | signalled _ | asked _ _ | cancelled _ => none

end ScheduleEntry

/-- A schedule, and what it was asked so far. -/
structure ScheduleHistory where
  schedule : Schedule
  log : List ScheduleEntry

/-- What a schedule does when it is asked something, and what is noted down. -/
def Schedule.serve (s : Schedule) : ScheduleCall → Schedule × ScheduleEntry
  | .signal now => ((s.signal now).1, .signalled now)
  | .due now => (s, .asked now (s.isDue now))
  | .begin now => (s.begin now, .began now)
  | .cancel => (s.cancel.1, .cancelled s.cancel.2)

namespace ScheduleHistory

/-- Nothing was asked. -/
def start (interval : Nat) : ScheduleHistory := ⟨.new interval, []⟩

/-- One more call. -/
def next (h : ScheduleHistory) (c : ScheduleCall) : ScheduleHistory :=
  ⟨(h.schedule.serve c).1, h.log ++ [(h.schedule.serve c).2]⟩

/-- The history of some calls, oldest first. -/
def of (interval : Nat) (calls : List ScheduleCall) : ScheduleHistory :=
  calls.foldl next (start interval)

/-- One call more. -/
theorem of_append_singleton (interval : Nat) (calls : List ScheduleCall) (c : ScheduleCall) :
    of interval (calls ++ [c]) = (of interval calls).next c := by
  rw [of, List.foldl_append]
  rfl

/-- An entry is the answer to a call that was made after what is noted in front of it. -/
theorem exists_serve {interval : Nat} {calls : List ScheduleCall} {before rest : List ScheduleEntry}
    {e : ScheduleEntry} (split : (of interval calls).log = before ++ e :: rest) :
    ∃ done c, (of interval done).log = before ∧ ((of interval done).schedule.serve c).2 = e := by
  induction calls using List.reverseRecOn generalizing rest with
  | nil => exact absurd split.symm (List.append_ne_nil_of_right_ne_nil _ (List.cons_ne_nil _ _))
  | append_singleton calls c ih =>
    rw [of_append_singleton] at split
    -- the last entry is that of the last call, or it stands in the log of the others
    cases rest using List.reverseRecOn with
    | nil =>
      obtain ⟨log, last⟩ := List.append_inj' split rfl
      exact ⟨calls, c, log, List.cons.inj last |>.1⟩
    | append_singleton rest last =>
      rw [← List.cons_append, ← List.append_assoc] at split
      exact ih (List.append_inj' split rfl).1

end ScheduleHistory

/-! ### What counts in a history -/

/-- When the first signal came since a tick began or was dropped. -/
def firstSignal? (log : List ScheduleEntry) : Option Instant :=
  (log.rtakeWhile fun e => !e.clears).findSome? ScheduleEntry.signal?

/-- When the last tick began. -/
def lastBegin? (log : List ScheduleEntry) : Option Instant :=
  (log.filterMap ScheduleEntry.begin?).getLast?

/-- When a tick is due that was first signalled at `t`: not before that, and not before one interval
    has passed since the last tick. -/
def deadlineAt (interval : Nat) (last : Option Instant) (t : Instant) : Instant :=
  match last with
  | some last => max t (last + interval)
  | none => t

/-- One entry more: it clears the log, or it is the first signal if there was none. -/
theorem firstSignal?_append_singleton (log : List ScheduleEntry) (e : ScheduleEntry) :
    firstSignal? (log ++ [e]) = if e.clears then none else (firstSignal? log).or e.signal? := by
  rw [firstSignal?, List.rtakeWhile_concat]
  cases e.clears with
  | true => rfl
  | false => simp [firstSignal?, List.findSome?_append]

/-- One entry more: it is the last tick if it is one. -/
theorem lastBegin?_append_singleton (log : List ScheduleEntry) (e : ScheduleEntry) :
    lastBegin? (log ++ [e]) = e.begin?.or (lastBegin? log) := by
  cases e <;> simp [lastBegin?, ScheduleEntry.begin?]

/-- A tick cannot be due before one interval has passed since the last one. -/
theorem apart_deadlineAt {interval : Nat} {last : Option Instant} {b : Instant}
    (h : last = some b) (t : Instant) : b + interval ≤ deadlineAt interval last t := by
  rw [h]
  exact Nat.le_max_right _ _

/-- A schedule computes deadlines from its interval and its last tick. -/
theorem Schedule.dueFor_eq_deadlineAt (s : Schedule) (now : Instant) :
    s.dueFor now = deadlineAt s.interval s.lastTick now := by
  cases last : s.lastTick with
  | some time => simp only [dueFor, deadlineAt, last, Nat.max_comm]
  | none => simp only [dueFor, deadlineAt, last]

/-! ### The schedule is as its history says -/

namespace ScheduleHistory

/-- The pending tick is that of the first signal, and the last tick is the last one that began. -/
structure Explained (interval : Nat) (h : ScheduleHistory) : Prop where
  interval_eq : h.schedule.interval = interval
  lastTick : h.schedule.lastTick = lastBegin? h.log
  pending : h.schedule.pending = (firstSignal? h.log).map (deadlineAt interval (lastBegin? h.log))

/-- Nothing has happened yet, and nothing is pending. -/
theorem Explained.start (interval : Nat) : Explained interval (start interval) := ⟨rfl, rfl, rfl⟩

namespace Explained

variable {interval : Nat} {h : ScheduleHistory}

/-- A tick is pending just if there was a signal. -/
theorem firstSignal?_eq_none (ex : Explained interval h) (idle : h.schedule.pending = none) :
    firstSignal? h.log = none := by
  rw [ex.pending] at idle
  exact Option.map_eq_none_iff.1 idle

/-- A signal arms a tick, or is absorbed by the one that is pending. -/
theorem signal (ex : Explained interval h) (now : Instant) :
    Explained interval (h.next (.signal now)) where
  interval_eq := (Schedule.interval_signal _ _).trans ex.interval_eq
  lastTick := by
    rw [next, lastBegin?_append_singleton]
    exact (Schedule.lastTick_signal _ _).trans ex.lastTick
  pending := by
    rw [next, lastBegin?_append_singleton, firstSignal?_append_singleton]
    show (h.schedule.signal now).1.pending =
      ((firstSignal? h.log).or (some now)).map (deadlineAt interval (lastBegin? h.log))
    cases first : h.schedule.pending with
    | some due =>
      -- the burst goes on, and the first signal stays the first
      rw [Schedule.signal_of_pending first]
      have armed := ex.pending
      rw [first] at armed
      obtain ⟨t, signalled, deadline⟩ := Option.map_eq_some_iff.1 armed.symm
      rw [first, signalled, Option.some_or, Option.map_some, deadline]
    | none =>
      rw [Schedule.signal_of_idle first, ex.firstSignal?_eq_none first, Option.none_or,
        Option.map_some, Schedule.dueFor_eq_deadlineAt, ex.interval_eq, ex.lastTick]

/-- With a cancellation the pending tick is forgotten, and so is its first signal. -/
theorem cancel (ex : Explained interval h) : Explained interval (h.next .cancel) where
  interval_eq := ex.interval_eq
  lastTick := by
    rw [next, lastBegin?_append_singleton]
    exact ex.lastTick
  pending := by
    rw [next, firstSignal?_append_singleton]
    -- neither a pending tick nor the signals since the last clearing survive the call
    show none = Option.map _ (if h.schedule.isPending then none else (firstSignal? h.log).or none)
    split
    · rfl
    · next idle =>
      -- with nothing pending there was no signal to forget
      have clear : h.schedule.pending = none := by
        simpa [Schedule.isPending] using idle
      rw [ex.firstSignal?_eq_none clear]
      rfl

/-- Every call leaves a schedule that its log explains. -/
theorem next (ex : Explained interval h) (c : ScheduleCall) : Explained interval (h.next c) := by
  cases c with
  | signal now => exact ex.signal now
  | due now =>
    -- a question is no signal and no tick
    refine ⟨ex.interval_eq, ?_, ?_⟩
    · rw [ScheduleHistory.next, lastBegin?_append_singleton]
      exact ex.lastTick
    · rw [ScheduleHistory.next, lastBegin?_append_singleton, firstSignal?_append_singleton]
      show h.schedule.pending =
        ((firstSignal? h.log).or none).map (deadlineAt interval (lastBegin? h.log))
      rw [Option.or_none, ex.pending]
  | begin now =>
    -- what began is the last tick, and the signals before it are forgotten
    refine ⟨ex.interval_eq, ?_, ?_⟩
    · rw [ScheduleHistory.next, lastBegin?_append_singleton]
      rfl
    · rw [ScheduleHistory.next, firstSignal?_append_singleton]
      rfl
  | cancel => exact ex.cancel

end Explained

/-- At every point the log explains the schedule: interval, last tick and deadline. -/
theorem explained_of (interval : Nat) (calls : List ScheduleCall) :
    Explained interval (of interval calls) :=
  List.foldlRecOn calls _ (Explained.start interval) fun _ ex c _ => ex.next c

/-- A schedule says that its tick is due just if there was a signal and the deadline of the first
    one has come. -/
theorem isDue_iff_of_explained {interval : Nat} {h : ScheduleHistory} (ex : Explained interval h)
    (now : Instant) :
    h.schedule.isDue now = true ↔
      ∃ t, firstSignal? h.log = some t ∧ deadlineAt interval (lastBegin? h.log) t ≤ now := by
  rw [Schedule.isDue_iff, ex.pending]
  simp only [Option.map_eq_some_iff]
  constructor
  · rintro ⟨_, ⟨t, first, rfl⟩, come⟩
    exact ⟨t, first, come⟩
  · rintro ⟨t, first, come⟩
    exact ⟨_, ⟨t, first, rfl⟩, come⟩

/-- What a schedule answers to the question whether its tick is due. -/
theorem asked_iff {interval : Nat} {calls : List ScheduleCall} {before rest : List ScheduleEntry}
    {now : Instant} {answer : Bool}
    (split : (of interval calls).log = before ++ .asked now answer :: rest) :
    answer = true ↔
      ∃ t, firstSignal? before = some t ∧ deadlineAt interval (lastBegin? before) t ≤ now := by
  obtain ⟨done, c, rfl, answered⟩ := exists_serve split
  cases c with
  | due now' =>
    obtain ⟨rfl, rfl⟩ := ScheduleEntry.asked.inj answered
    exact isDue_iff_of_explained (explained_of interval done) now'
  | signal | begin | cancel => cases answered

end ScheduleHistory

/-! ### The distance of ticks -/

/-- Where something stands behind the last entry of a kind. -/
theorem exists_of_mem_rtakeWhile {p : ScheduleEntry → Bool} {log : List ScheduleEntry}
    {e : ScheduleEntry} (mem : e ∈ log.rtakeWhile p) :
    ∃ earlier between, log = earlier ++ e :: between ∧ ∀ b ∈ e :: between, p b = true := by
  obtain ⟨front, between, split⟩ := List.append_of_mem mem
  refine ⟨log.rdropWhile p ++ front, between, ?_, fun b hb => ?_⟩
  · rw [List.append_assoc, ← split, List.rdropWhile_append_rtakeWhile]
  · exact List.mem_rtakeWhile_imp (split ▸ List.mem_append_right front hb)

/-- Entries without a tick leave the last one what it was. -/
theorem lastBegin?_append_of_quiet (log : List ScheduleEntry) {quiet : List ScheduleEntry}
    (h : ∀ e ∈ quiet, e.begin? = none) : lastBegin? (log ++ quiet) = lastBegin? log := by
  rw [lastBegin?, List.filterMap_append, List.filterMap_eq_nil_iff.2 h, List.append_nil, lastBegin?]

/-- Ticks that keep their distance from the last one keep it from each other. -/
theorem apart_begins {interval : Nat} {log : List ScheduleEntry}
    (checked : ∀ before now rest, log = before ++ .began now :: rest →
      ∀ last, lastBegin? before = some last → Apart interval last now) :
    (log.filterMap ScheduleEntry.begin?).Pairwise (Apart interval) := by
  -- distances add up, so it is enough to compare neighbours
  refine List.IsChain.pairwise ?_
  induction log using List.reverseRecOn with
  | nil => exact List.isChain_nil
  | append_singleton log e ih =>
    rw [List.filterMap_append, List.isChain_append]
    refine ⟨ih fun before now rest split => ?_, ?_, fun last hlast now hnow => ?_⟩
    · refine checked before now (rest ++ [e]) ?_
      rw [split, List.append_assoc, List.cons_append]
    · cases e with
      | began now => exact List.isChain_singleton now
      | signalled | asked | cancelled => exact List.isChain_nil
    · cases e with
      | began now' =>
        obtain rfl : now' = now := by simpa [ScheduleEntry.begin?] using hnow
        -- a tick that begins keeps its distance from the one before it
        exact checked log now' [] rfl last hlast
      | signalled | asked | cancelled => cases hnow

/-! ### All histories -/

/-- **Bursts move no tick.**  Whatever is asked of a schedule, and at whatever times:

    * A tick is pending just if there was a signal since a tick began or was dropped last, and the
      deadline is that of the first one, however many came after it: the time of that signal, or one
      interval after the last tick, if that is later.
    * Asked whether its tick is due, it says so just if one is pending and that deadline has come.
    * If ticks begin only at times for which it has said so since the last tick, any two of them
      begin at least one interval apart. -/
theorem bursts_move_no_tick (interval : Nat) (calls : List ScheduleCall) :
    let h := ScheduleHistory.of interval calls
    h.schedule.pending = (firstSignal? h.log).map (deadlineAt interval (lastBegin? h.log)) ∧
    (∀ before now answer rest, h.log = before ++ .asked now answer :: rest →
      (answer = true ↔
        ∃ t, firstSignal? before = some t ∧ deadlineAt interval (lastBegin? before) t ≤ now)) ∧
    ((∀ before now rest, h.log = before ++ .began now :: rest →
        ScheduleEntry.asked now true ∈ before.rtakeWhile fun e => e.begin?.isNone) →
      (h.log.filterMap ScheduleEntry.begin?).Pairwise fun a b => a + interval ≤ b) := by
  intro h
  refine ⟨(ScheduleHistory.explained_of interval calls).pending,
    fun _ _ _ _ => ScheduleHistory.asked_iff, fun allowed => ?_⟩
  have apart : (h.log.filterMap ScheduleEntry.begin?).Pairwise (Apart interval) := by
    refine apart_begins fun before now rest split last hlast => ?_
    obtain ⟨earlier, between, rfl, quiet⟩ := exists_of_mem_rtakeWhile (allowed before now rest split)
    -- the question lies behind the last tick, so the answer takes this tick into account
    have known : lastBegin? earlier = some last := by
      rw [← hlast, lastBegin?_append_of_quiet earlier]
      exact fun e he => Option.isNone_iff_eq_none.1 (quiet e he)
    rw [List.append_assoc, List.cons_append] at split
    obtain ⟨t, -, come⟩ := (ScheduleHistory.asked_iff split).1 rfl
    exact (apart_deadlineAt known t).trans come
  exact apart

/-- A burst comes after a tick, with a clock that jumps back and a question too early; a
    cancellation in vain changes nothing, and one that is not in vain makes room for a signal with
    another deadline. -/
theorem bursts_move_no_tick_backwards :
    let calls : List ScheduleCall :=
      [.signal 0, .due 0, .begin 0, .cancel, .signal 100, .signal 5, .due 499, .signal 900, .cancel,
        .signal 700, .signal 20, .due 700, .begin 700, .signal 650]
    let h := ScheduleHistory.of 500 calls
    let begins := h.log.filterMap ScheduleEntry.begin?
    h.schedule.pending = some 1200 ∧ firstSignal? h.log = some 650 ∧ lastBegin? h.log = some 700 ∧
      (∀ before now rest, h.log = before ++ .began now :: rest →
        ScheduleEntry.asked now true ∈ before.rtakeWhile fun e => e.begin?.isNone) ∧
      begins = [0, 700] ∧ begins.Pairwise fun a b => a + 500 ≤ b := by
  intro calls h begins
  obtain ⟨pending, -, apart⟩ := bursts_move_no_tick 500 calls
  have first : firstSignal? h.log = some 650 := by decide
  have last : lastBegin? h.log = some 700 := by decide
  have everywhere : ∀ i < h.log.length, ((h.log[i]?.bind ScheduleEntry.begin?).all fun now =>
      ScheduleEntry.asked now true ∈ (h.log.take i).rtakeWhile fun e => e.begin?.isNone) = true := by
    decide
  have allowed : ∀ before now rest, h.log = before ++ .began now :: rest →
      ScheduleEntry.asked now true ∈ before.rtakeWhile fun e => e.begin?.isNone := by
    intro before now rest split
    have here := everywhere before.length (by simp [split])
    simpa [split, ScheduleEntry.begin?] using here
  refine ⟨?_, first, last, allowed, by decide, apart allowed⟩
  rw [pending, first, last]
  rfl

end OnScreen
