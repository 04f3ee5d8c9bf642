import OnScreen.Proofs.TickRate

namespace OnScreen

/-!
# Every signal is accounted for

A signal that counts is absorbed by a pending tick or arms one, and an armed tick runs, is dropped
by a stop, or is still pending.  So the signals of any stretch of time can be told from what became
of them, and no tick runs without a signal of its own.

* `ScheduleRun` — a schedule, driven in any way and at any times, with the count of what happened to
  it.
* `ScheduleRun.Balanced` — the books of a schedule, kept by every event.
* `Owner.count` — how often something happens along some acts.
* `Owner.Reschedules.entry` — what an act is to the books: at most one event of the schedule.
* `every_signal_is_accounted_for` — the books of every run, and of every schedule.
-/

/-! ### The books of a schedule -/

/-- Something that is done with a schedule. -/
inductive ScheduleEvent where
  | signal (now : Instant)
  | begin (now : Instant)
  | cancel
  deriving DecidableEq, Repr

/-- A schedule and its books. -/
structure ScheduleRun where
  schedule : Schedule
  /-- The signals that were taken. -/
  signalled : Nat
  /-- The ticks that were pending when they began. -/
  begun : Nat
  /-- The pending ticks that were dropped. -/
  cancelled : Nat

namespace ScheduleRun

/-- Nothing has happened. -/
def start (interval : Nat) : ScheduleRun := ⟨.new interval, 0, 0, 0⟩

/-- One event, and its entry in the books. -/
def next (run : ScheduleRun) : ScheduleEvent → ScheduleRun
  | .signal now =>
    { run with schedule := (run.schedule.signal now).1, signalled := run.signalled + 1 }
  | .begin now =>
    { run with
        schedule := run.schedule.begin now, begun := run.begun + run.schedule.isPending.toNat }
  | .cancel =>
    let (schedule, dropped) := run.schedule.cancel
    { run with schedule := schedule, cancelled := run.cancelled + dropped.toNat }

/-- The run through some events, oldest first. -/
def of (interval : Nat) (events : List ScheduleEvent) : ScheduleRun :=
  events.foldl next (start interval)

/-- Every signal led to a tick, was absorbed, was dropped with the tick that it had armed, or has
    its tick pending. -/
def Balanced (run : ScheduleRun) : Prop :=
  run.signalled =
    run.begun + run.schedule.coalesced + run.cancelled + run.schedule.isPending.toNat

/-- Every call keeps the balance. -/
theorem Balanced.next {run : ScheduleRun} (h : run.Balanced) (e : ScheduleEvent) :
    (run.next e).Balanced := by
  unfold Balanced at h ⊢
  cases e with
  | signal now =>
    simp only [ScheduleRun.next]
    cases pending : run.schedule.pending with
    | some due =>
      -- the signal joins those that wait for the tick
      rw [Schedule.signal_of_pending pending]
      simp only [Schedule.isPending, pending, Option.isSome_some, Bool.toNat_true] at h ⊢
      omega
    | none =>
      -- the signal makes a tick pending
      rw [Schedule.signal_of_idle pending]
      simp only [Schedule.isPending, pending, Option.isSome_none, Bool.toNat_false] at h
      simp only [Schedule.isPending, Option.isSome_some, Bool.toNat_true]
      omega
  | begin now =>
    -- the tick that was pending, if any, has begun
    have idle : (run.schedule.begin now).isPending = false := rfl
    have same : (run.schedule.begin now).coalesced = run.schedule.coalesced := rfl
    simp only [ScheduleRun.next, idle, same, Bool.toNat_false]
    omega
  | cancel =>
    have idle : run.schedule.cancel.1.isPending = false := rfl
    have same : run.schedule.cancel.1.coalesced = run.schedule.coalesced := rfl
    have dropped : run.schedule.cancel.2 = run.schedule.isPending := rfl
    simp only [ScheduleRun.next, idle, same, dropped, Bool.toNat_false]
    omega

/-- So do many calls. -/
theorem Balanced.foldl {run : ScheduleRun} (h : run.Balanced) (events : List ScheduleEvent) :
    (events.foldl ScheduleRun.next run).Balanced :=
  List.foldlRecOn events _ h fun _ h e _ => h.next e

/-- A schedule is balanced whatever is called, and at whatever times. -/
theorem balanced_of (interval : Nat) (events : List ScheduleEvent) :
    (of interval events).Balanced := by
  have fresh : (start interval).Balanced := rfl
  exact fresh.foldl events

-- the clock goes back, a tick begins that was not pending, and nothing is there to be dropped twice
example :
    let run := of 500
      [.signal 100, .signal 40, .begin 50, .begin 0, .signal 10, .cancel, .cancel, .signal 0]
    run.signalled = 4 ∧ run.begun = 1 ∧ run.schedule.coalesced = 1 ∧ run.cancelled = 1 ∧
      run.schedule.pending = some 500 := by
  decide

end ScheduleRun

namespace Owner

/-! ### Counting acts -/

/-- How often something happens along some acts; the owner is the one before the act. -/
def count (happens : Owner → Act → Bool) (o : Owner) : List Act → Nat
  | [] => 0
  | a :: rest => (happens o a).toNat + (o.perform a).1.count happens rest

/-- One more act is counted if it happens after the others. -/
theorem count_append_singleton (happens : Owner → Act → Bool) (o : Owner) (acts : List Act)
    (a : Act) :
    o.count happens (acts ++ [a]) = o.count happens acts + (happens (o.after acts) a).toNat := by
  induction acts generalizing o with
  | nil => exact (Nat.zero_add _).symm
  | cons b rest ih =>
    rw [List.cons_append, count, count, ih, Nat.add_assoc]
    rfl

/-- The owner handles a signal that counts. -/
def isSignalled (o : Owner) : Act → Bool
  | .handle _ _ c => o.honours c
  | .tick _ _ | .leave _ _ => false

/-- The owner stops, and a tick was pending. -/
def dropsTick (o : Owner) (a : Act) : Bool := a.stops && o.started && o.schedule.isPending

/-- Only a pending tick is run. -/
theorem Allows.isPending {o : Owner} {checked : Instant} {m : Moment}
    (h : o.Allows (.tick checked m)) : o.schedule.isPending = true := by
  obtain ⟨due, pending, -⟩ := Schedule.isDue_iff.1 h
  rw [Schedule.isPending, pending]
  rfl

/-- An act that stops is no signal. -/
theorem isSignalled_of_stops (o : Owner) {a : Act} (h : a.stops = true) :
    o.isSignalled a = false := by
  cases a with
  | tick checked m => rfl
  | handle checked m c =>
    cases c with
    | stop => rfl
    | _ => cases h
  | leave checked ticket => rfl

/-- A tick is counted, and nothing else is counted as one. -/
theorem perform_ticks (o : Owner) (a : Act) :
    (o.perform a).1.ticks = o.ticks + a.isTick.toNat := by
  cases a with
  | tick checked m => rfl
  | handle checked m c => exact o.handle_ticks m.now m.candidates c
  | leave checked ticket => exact o.handle_ticks checked [] .stop

/-- An allowed act makes at most one entry in the books of the schedule. -/
theorem Reschedules.entry {o : Owner} {a : Act} {s : Schedule} (h : o.Reschedules a s)
    (allowed : o.Allows a) (signalled begun cancelled : Nat) :
    ∃ events : List ScheduleEvent,
      events.foldl ScheduleRun.next ⟨o.schedule, signalled, begun, cancelled⟩ =
        ⟨s, signalled + (o.isSignalled a).toNat, begun + a.isTick.toNat,
          cancelled + (o.dropsTick a).toNat⟩ := by
  -- what the act makes of the schedule is one call of it, or none
  cases h with
  | ticks checked m =>
    refine ⟨[.begin m.now], ?_⟩
    simp [ScheduleRun.next, allowed.isPending, isSignalled, dropsTick, Act.isTick, Act.stops]
  | signals checked m c counts =>
    have goesOn : (Act.handle checked m c).stops = false := by
      rw [← Bool.not_eq_true]
      intro stop
      exact absurd (counts.symm.trans (o.isSignalled_of_stops stop)) nofun
    refine ⟨[.signal m.now], ?_⟩
    simp [ScheduleRun.next, isSignalled, counts, dropsTick, goesOn, Act.isTick]
  | stops _ stop running =>
    have tick : a.isTick = false := by
      cases a with
      | tick => cases stop
      | handle | leave => rfl
    refine ⟨[.cancel], ?_⟩
    simp [ScheduleRun.next, Schedule.cancel, o.isSignalled_of_stops stop, tick, dropsTick, stop,
      running]
  | rests _ tick idle stop =>
    have quiet : o.isSignalled a = false := by
      cases a with
      | handle checked m c => exact idle checked m c rfl
      | tick | leave => rfl
    have keeps : o.dropsTick a = false := by
      rw [dropsTick]
      cases stops : a.stops with
      | false => rfl
      | true => rw [stop stops]; rfl
    exact ⟨[], by simp [tick, quiet, keeps]⟩

/-- The books of an owner: its own counter of ticks, and what can be read off its acts. -/
def books (interval : Nat) (acts : List Act) : ScheduleRun :=
  let owner := Owner.new interval
  ⟨(owner.after acts).schedule, owner.count isSignalled acts, (owner.after acts).ticks,
    owner.count dropsTick acts⟩

/-- The books of an owner are balanced whatever it has done. -/
theorem balanced_books {interval : Nat} {acts : List Act}
    (allowed : (Owner.new interval).AllowsAll acts) : (books interval acts).Balanced := by
  induction acts using List.reverseRecOn with
  | nil => exact ScheduleRun.balanced_of interval []
  | append_singleton acts a ih =>
    rw [allowsAll_append, allowsAll_singleton] at allowed
    obtain ⟨before, now⟩ := allowed
    -- the books of the act are those of its call
    obtain ⟨events, entered⟩ := (perform_reschedules _ a).entry now
      ((Owner.new interval).count isSignalled acts) ((Owner.new interval).after acts).ticks
      ((Owner.new interval).count dropsTick acts)
    have balanced := (ih before).foldl events
    simp only [books, count_append_singleton, after_append, after_singleton, perform_ticks]
    exact entered ▸ balanced

/-! ### The signal of a tick -/

/-- A pending tick was armed or absorbed by a signal that counted, and since then no tick has begun
    and nobody has asked the owner to stop. -/
theorem exists_signal_of_pending {interval : Nat} {acts : List Act}
    (allowed : (Owner.new interval).AllowsAll acts)
    (h : ((Owner.new interval).after acts).schedule.isPending = true) :
    ∃ before checked m c between, acts = before ++ .handle checked m c :: between ∧
      ((Owner.new interval).after before).honours c = true ∧
      ∀ b ∈ between, b.isTick = false ∧ b.stops = false := by
  induction acts using List.reverseRecOn with
  | nil => cases h
  | append_singleton acts a ih =>
    rw [allowsAll_append] at allowed
    rw [after_append, after_singleton] at h
    have act := ((Owner.new interval).after acts).perform_reschedules a
    generalize (((Owner.new interval).after acts).perform a).1.schedule = s at h act
    cases act with
    | ticks => cases h
    | signals checked m c counts => exact ⟨acts, checked, m, c, [], rfl, counts, nofun⟩
    | stops => cases h
    | rests _ tick idle stop =>
      -- the tick was pending before, so tracking runs and a stop would have dropped it
      have goesOn : a.stops = false := by
        rw [← Bool.not_eq_true]
        intro stops
        have none := (consistent_after allowed.1).idle (stop stops)
        rw [Schedule.isPending, none] at h
        cases h
      obtain ⟨before, checked, m, c, between, split, counts, quiet⟩ := ih allowed.1 h
      refine ⟨before, checked, m, c, between ++ [a], ?_, counts, fun b hb => ?_⟩
      · rw [split, List.append_assoc, List.cons_append]
      · rcases List.mem_append.1 hb with old | new
        · exact quiet b old
        · exact List.mem_singleton.1 new ▸ ⟨tick, goesOn⟩

end Owner

/-- **Every signal is accounted for.**  At every point of every run, the signals that counted are as
    many as the ticks that ran, the signals that were absorbed, the stops that dropped a pending
    tick and the tick that is pending, if one is, taken together; a last tick is known just if one
    ran; and in front of every tick there is a signal that counted, with no other tick and no stop
    in between.  A schedule on its own keeps the same books, whatever is done with it and at
    whatever times, if only those ticks count that were pending when they began. -/
theorem every_signal_is_accounted_for :
    (∀ interval events,
      let run := Run.of interval events
      let owner := Owner.new interval
      run.loop.owner = owner.after run.acts ∧
      (∀ done ahead, run.acts = done ++ ahead →
        let now := owner.after done
        owner.count Owner.isSignalled done =
            now.ticks + now.schedule.coalesced + owner.count Owner.dropsTick done +
              now.schedule.isPending.toNat ∧
          (now.schedule.lastTick.isSome = true ↔ 0 < now.ticks)) ∧
      ∀ done checked m ahead, run.acts = done ++ .tick checked m :: ahead →
        ∃ before checked m c between, done = before ++ .handle checked m c :: between ∧
          (owner.after before).honours c = true ∧
          ∀ b ∈ between, b.isTick = false ∧ b.stops = false) ∧
    ∀ interval events,
      let run := ScheduleRun.of interval events
      run.signalled =
        run.begun + run.schedule.coalesced + run.cancelled + run.schedule.isPending.toNat := by
  refine ⟨fun interval events => ?_, ScheduleRun.balanced_of⟩
  intro run owner
  refine ⟨(Run.of_accounted interval events).owner.symm, fun done ahead split => ?_,
    fun done checked m ahead split => ?_⟩
  · intro now
    have allowed := (Run.reports_of_acts_eq split).1
    refine ⟨Owner.balanced_books allowed, ?_⟩
    rw [Owner.lastTick_after, Owner.ticks_after, List.getLast?_isSome, List.length_pos_iff]
  · obtain ⟨allowed, due, -⟩ := Run.reports_of_acts_eq split
    -- a tick runs because it is pending, and a signal made it so
    exact Owner.exists_signal_of_pending allowed due.1.isPending

/-- One signal comes too early to count, one is absorbed, and a stop drops the tick of two of them;
    five count, and the last of them is still pending. -/
theorem every_signal_is_accounted_for_dropped :
    let m (now : Instant) : Moment := ⟨now, []⟩
    let turn (now : Instant) : Event := .turned .command ⟨now, m now, m now⟩
    let events : List Event :=
      [.sent .possibleChange, turn 0, turn 0, turn 0, .sent (.start false), turn 0, turn 0, turn 0,
        .sent .possibleChange, turn 10, turn 10, .sent .possibleChange, turn 20, turn 20, .sent .stop,
        turn 30, turn 30, .sent (.start false), turn 40, turn 40, .sent .possibleChange, turn 600]
    let done : List Act :=
      [.handle 0 (m 0) .possibleChange, .handle 0 (m 0) (.start false), .tick 0 (m 0),
        .handle 10 (m 10) .possibleChange, .handle 20 (m 20) .possibleChange, .handle 30 (m 30) .stop,
        .handle 40 (m 40) (.start false)]
    let acts := done ++ [.tick 600 (m 600), .handle 600 (m 600) .possibleChange]
    let owner := Owner.new 500
    (Run.of 500 events).acts = acts ∧
      owner.count Owner.isSignalled acts = 5 ∧ owner.count Owner.dropsTick acts = 1 ∧
      5 = (owner.after acts).ticks + (owner.after acts).schedule.coalesced + 1 +
        (owner.after acts).schedule.isPending.toNat ∧
      ∃ before checked m c between, done = before ++ .handle checked m c :: between ∧
        (owner.after before).honours c = true ∧
        ∀ b ∈ between, b.isTick = false ∧ b.stops = false := by
  intro m turn events done acts owner
  have logged : (Run.of 500 events).acts = acts := by decide +kernel
  have signalled : owner.count Owner.isSignalled acts = 5 := by decide +kernel
  have dropped : owner.count Owner.dropsTick acts = 1 := by decide +kernel
  obtain ⟨-, books, own⟩ := every_signal_is_accounted_for.1 500 events
  have balance := (books acts [] (by rw [logged, List.append_nil])).1
  rw [signalled, dropped] at balance
  exact ⟨logged, signalled, dropped, balance, own done 600 (m 600) _ logged⟩

end OnScreen
