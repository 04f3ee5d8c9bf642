import OnScreen.Proofs.Bookkeeping

namespace OnScreen

/-!
# No signal is late

A signal that counts leaves a tick pending, and the pending tick keeps its deadline until it runs or
tracking stops.  The owner looks at the deadline before everything it does, so nothing overtakes a
tick that is due; and the tick reads the list when it runs, so it makes up for every signal before
it.

* `ClockRuns` — the clock never goes back.
* `Owner.Reschedules` — what an act does to the schedule.
* `Owner.lastTick_after`, `Owner.exists_time_of_pending` — the last tick and the pending deadline,
  in terms of the acts.
* `no_signal_is_late` — what becomes of a signal, at every point of every run.
-/

/-! ### Acts and the clock -/

namespace Act

/-- When the owner looked at the deadline before the act. -/
def checked : Act → Instant
  | tick checked _ | handle checked _ _ | leave checked _ => checked

/-- When the act is done; leaving takes no time of its own. -/
def time? : Act → Option Instant
  | tick _ m | handle _ m _ => some m.now
  | leave _ _ => none

/-- When the act starts a tick, if it does. -/
def tickStart? : Act → Option Instant
  | tick _ m => some m.now
  | handle _ _ _ | leave _ _ => none

/-- The owner stops tracking, if it runs. -/
def stops : Act → Bool
  | handle _ _ .stop | leave _ _ => true
  | tick _ _ | handle _ _ _ => false

/-- What is neither the handling of a stop nor the way out stops nothing. -/
theorem stops_eq_false {a : Act} (stop : ∀ checked m, a ≠ .handle checked m .stop)
    (leave : ∀ checked ticket, a ≠ .leave checked ticket) : a.stops = false := by
  cases a with
  | tick checked m => rfl
  | handle checked m c =>
    cases c with
    | stop => exact absurd rfl (stop checked m)
    | _ => rfl
  | leave checked ticket => exact absurd rfl (leave checked ticket)

end Act

/-- When the ticks among some acts started, in order. -/
def tickStarts (acts : List Act) : List Instant := acts.filterMap Act.tickStart?

/-- One more act adds the start of its tick, if it is one. -/
theorem tickStarts_append_singleton (acts : List Act) (a : Act) :
    tickStarts (acts ++ [a]) = tickStarts acts ++ a.tickStart?.toList := by
  rw [tickStarts, List.filterMap_append, tickStarts]
  cases a <;> rfl

/-- The clock never goes back: no act is done before the look at the deadline in front of it, and
    none before an act in front of it. -/
structure ClockRuns (acts : List Act) : Prop where
  looked : ∀ a ∈ acts, ∀ t, a.time? = some t → a.checked ≤ t
  inOrder : (acts.filterMap Act.time?).Pairwise (· ≤ ·)

/-- Nothing that was done up to a command is later than the command. -/
theorem ClockRuns.le_of_mem {done ahead : List Act} {checked : Instant} {m : Moment} {c : Command}
    (clock : ClockRuns (done ++ Act.handle checked m c :: ahead)) {t : Instant}
    (ht : t ∈ (done ++ [Act.handle checked m c]).filterMap Act.time?) : t ≤ m.now := by
  have order := clock.inOrder
  rw [List.filterMap_append, List.pairwise_append] at order
  rw [List.filterMap_append, List.mem_append] at ht
  rcases ht with before | itself
  · exact order.2.2 t before m.now List.mem_cons_self
  · exact Nat.le_of_eq (List.mem_singleton.1 itself)

/-! ### What acts do to the schedule -/

namespace Owner

/-- The command is a signal that counts: the list may have changed while tracking runs, or tracking
    is turned on. -/
def honours (o : Owner) : Command → Bool
  | .possibleChange => o.started
  | .start _ => !o.started
  | .stop | .expansionChanged _ _ _ | .entryRemoved _ | .entryUpdated _ | .itemError _ _
  | .flush _ | .query _ | .shutdown _ => false

/-- What an act makes of the schedule: it runs the pending tick, signals, drops the pending tick, or
    leaves the schedule alone. -/
inductive Reschedules (o : Owner) : Act → Schedule → Prop
  | ticks (checked : Instant) (m : Moment) :
    Reschedules o (.tick checked m) (o.schedule.begin m.now)
  | signals (checked : Instant) (m : Moment) (c : Command) (counts : o.honours c = true) :
    Reschedules o (.handle checked m c) (o.schedule.signal m.now).1
  | stops (a : Act) (stop : a.stops = true) (running : o.started = true) :
    Reschedules o a o.schedule.cancel.1
  | rests (a : Act) (tick : a.isTick = false)
    (idle : ∀ checked m c, a = .handle checked m c → o.honours c = false)
    (stop : a.stops = true → o.started = false) : Reschedules o a o.schedule

/-- Stopping drops the pending tick, unless tracking is stopped already. -/
theorem stop_reschedules (o : Owner) {a : Act} (tick : a.isTick = false) (stop : a.stops = true)
    (idle : ∀ checked m c, a = .handle checked m c → o.honours c = false) :
    o.Reschedules a o.stop.1.schedule := by
  unfold Owner.stop
  split
  · next running => exact .stops a stop running
  · next stopped => exact .rests a tick idle fun _ => Bool.not_eq_true _ ▸ stopped

/-- A command that is neither a signal that counts nor a stop leaves the schedule alone. -/
theorem quiet_reschedules (o : Owner) {checked : Instant} {m : Moment} {c : Command}
    (idle : o.honours c = false) (stop : (Act.handle checked m c).stops = false) :
    o.Reschedules (.handle checked m c) o.schedule := by
  refine .rests _ rfl ?_ fun stops => absurd stops (by simp [stop])
  rintro _ _ _ ⟨⟩
  exact idle

/-- The handling of a command signals, stops or leaves the schedule alone. -/
theorem handle_reschedules (o : Owner) (checked : Instant) (m : Moment) (c : Command) :
    o.Reschedules (.handle checked m c) (o.handle m.now m.candidates c).1.schedule := by
  cases c with
  | possibleChange =>
    -- tracking that is off ignores the signal
    rw [handle, possibleChange]
    split
    · next running => exact .signals checked m _ running
    · next stopped => exact o.quiet_reschedules (Bool.not_eq_true _ ▸ stopped) rfl
  | start lockscreen =>
    -- and only a start that finds it off is a signal
    rw [handle, start]
    split
    · next running => exact o.quiet_reschedules (by simp [honours, running]) rfl
    · next stopped => exact .signals checked m _ (by simp [honours, stopped])
  | stop =>
    refine o.stop_reschedules rfl rfl ?_
    rintro _ _ _ ⟨⟩
    rfl
  | expansionChanged key user expanded => exact o.quiet_reschedules rfl rfl
  | entryRemoved key => exact o.quiet_reschedules rfl rfl
  | entryUpdated key => exact o.quiet_reschedules rfl rfl
  | itemError key message => exact o.quiet_reschedules rfl rfl
  | flush ticket => exact o.quiet_reschedules rfl rfl
  | query ticket => exact o.quiet_reschedules rfl rfl
  | shutdown ticket => exact o.quiet_reschedules rfl rfl

/-- Every act does one of these things to the schedule. -/
theorem perform_reschedules (o : Owner) (a : Act) : o.Reschedules a (o.perform a).1.schedule := by
  cases a with
  | tick checked m => exact .ticks checked m
  | handle checked m c => exact o.handle_reschedules checked m c
  | leave checked ticket => exact o.stop_reschedules rfl rfl nofun

/-! ### The last tick and the pending one -/

namespace Reschedules

variable {o : Owner} {a : Act} {s : Schedule}

/-- No act changes the interval. -/
theorem interval_eq (h : o.Reschedules a s) : s.interval = o.schedule.interval := by
  cases h with
  | signals checked m c counts => exact Schedule.interval_signal _ _
  | ticks | stops | rests => rfl

/-- The last tick is this act, if it is one, and else the one that was the last before. -/
theorem lastTick_eq (h : o.Reschedules a s) :
    s.lastTick = a.tickStart?.or o.schedule.lastTick := by
  cases h with
  | ticks checked m => rfl
  | signals checked m c counts => exact Schedule.lastTick_signal _ _
  | stops _ stop running =>
    -- neither a stop nor an act at rest is a tick
    cases a with
    | tick => cases stop
    | handle | leave => rfl
  | rests _ tick idle stop =>
    cases a with
    | tick => cases tick
    | handle | leave => rfl

/-- Unless an act starts a tick, deadlines are computed as before. -/
theorem dueFor_eq (h : o.Reschedules a s) (tick : a.isTick = false) (t : Instant) :
    s.dueFor t = o.schedule.dueFor t := by
  refine Schedule.dueFor_congr h.interval_eq ?_ t
  rw [h.lastTick_eq]
  cases a with
  | tick => cases tick
  | handle | leave => rfl

/-- A pending tick was pending before the act, or the act signalled it. -/
theorem pending_of_pending (h : o.Reschedules a s) {due : Instant}
    (pending : s.pending = some due) :
    a.isTick = false ∧ (o.schedule.pending = some due ∨
      ∃ t, a.time? = some t ∧ due = o.schedule.dueFor t) := by
  cases h with
  | ticks checked m => cases pending
  | signals checked m c counts =>
    refine ⟨rfl, ?_⟩
    -- a deadline that is set already stays; else the signal sets one
    cases before : o.schedule.pending with
    | some d =>
      rw [Schedule.signal_of_pending before, before] at pending
      exact .inl pending
    | none =>
      rw [Schedule.signal_of_idle before] at pending
      exact .inr ⟨m.now, rfl, (Option.some.inj pending).symm⟩
  | stops => cases pending
  | rests _ tick idle stop => exact ⟨tick, .inl pending⟩

/-- A signal that counts leaves a tick pending. -/
theorem exists_pending {checked : Instant} {m : Moment} {c : Command}
    (h : o.Reschedules (.handle checked m c) s) (counts : o.honours c = true) :
    ∃ due, s.pending = some due := by
  cases h with
  | signals =>
    cases before : o.schedule.pending with
    | some due =>
      rw [Schedule.signal_of_pending before]
      exact ⟨due, before⟩
    | none =>
      rw [Schedule.signal_of_idle before]
      exact ⟨_, rfl⟩
  | stops _ stop running =>
    -- a stop does not count as a signal
    cases c with
    | stop => cases counts
    | _ => cases stop
  | rests _ tick idle stop => simp [idle _ _ _ rfl] at counts

/-- A pending tick goes on pending unless it runs or tracking stops. -/
theorem pending_of_quiet (h : o.Reschedules a s) {due : Instant}
    (pending : o.schedule.pending = some due) (tick : a.isTick = false) (stop : a.stops = false) :
    s.pending = some due := by
  cases h with
  | ticks => cases tick
  | signals checked m c counts =>
    rw [Schedule.signal_of_pending pending]
    exact pending
  | stops _ stops running => simp [stop] at stops
  | rests => exact pending

end Reschedules

/-- An owner keeps the interval that it was made with. -/
theorem interval_after (interval : Nat) (acts : List Act) :
    ((Owner.new interval).after acts).schedule.interval = interval := by
  induction acts using List.reverseRecOn with
  | nil => rfl
  | append_singleton acts a ih =>
    rw [after_append, after_singleton, (perform_reschedules _ a).interval_eq, ih]

/-- The last tick of the schedule is the last one among the acts. -/
theorem lastTick_after (interval : Nat) (acts : List Act) :
    ((Owner.new interval).after acts).schedule.lastTick = (tickStarts acts).getLast? := by
  induction acts using List.reverseRecOn with
  | nil => rfl
  | append_singleton acts a ih =>
    rw [after_append, after_singleton, (perform_reschedules _ a).lastTick_eq, ih,
      tickStarts_append_singleton, List.getLast?_append]
    cases a <;> rfl

/-- The pending deadline was computed for the time of one of the acts, and would be the same now. -/
theorem exists_time_of_pending {interval : Nat} {acts : List Act} {due : Instant}
    (h : ((Owner.new interval).after acts).schedule.pending = some due) :
    ∃ t ∈ acts.filterMap Act.time?, due = ((Owner.new interval).after acts).schedule.dueFor t := by
  induction acts using List.reverseRecOn with
  | nil => cases h
  | append_singleton acts a ih =>
    rw [after_append, after_singleton] at h ⊢
    have act := ((Owner.new interval).after acts).perform_reschedules a
    -- the deadline was set by an act before, or it is set by this one; `dueFor` is that of now
    obtain ⟨tick, before | ⟨t, now, armed⟩⟩ := act.pending_of_pending h
    · obtain ⟨t, ht, armed⟩ := ih before
      refine ⟨t, ?_, armed.trans (act.dueFor_eq tick t).symm⟩
      rw [List.filterMap_append]
      exact List.mem_append_left _ ht
    · refine ⟨t, ?_, armed.trans (act.dueFor_eq tick t).symm⟩
      rw [List.filterMap_append]
      exact List.mem_append_right _ (by simp [now])

/-- A pending tick goes on pending as long as no tick runs and tracking is not stopped. -/
theorem pending_after_of_quiet {o : Owner} {due : Instant} (h : o.schedule.pending = some due)
    {acts : List Act} (quiet : ∀ a ∈ acts, a.isTick = false ∧ a.stops = false) :
    (o.after acts).schedule.pending = some due := by
  induction acts generalizing o with
  | nil => exact h
  | cons a rest ih =>
    obtain ⟨tick, stop⟩ := quiet a List.mem_cons_self
    have next := (o.perform_reschedules a).pending_of_quiet h tick stop
    exact ih next fun b hb => quiet b (List.mem_cons_of_mem a hb)

/-- While a tick is pending, the owner ticks just if the deadline had come when it looked. -/
theorem Allows.isTick_iff {o : Owner} {a : Act} (allowed : o.Allows a) {due : Instant}
    (pending : o.schedule.pending = some due) : a.isTick = true ↔ due ≤ a.checked := by
  have isDue : ∀ now, o.schedule.isDue now = true ↔ due ≤ now := by
    intro now
    rw [Schedule.isDue_iff, pending]
    simp
  cases a with
  | tick checked m => exact iff_of_true rfl ((isDue checked).1 allowed)
  | handle checked m c | leave checked ticket =>
    refine iff_of_false nofun fun come => ?_
    -- an act other than a tick is allowed only before the deadline
    have early : o.schedule.isDue checked = false := allowed
    rw [(isDue checked).2 come] at early
    cases early

end Owner

/-! ### What a tick leaves behind -/

/-- After a tick the ledger has the keys of the candidates that are visible in the list it read, and
    no others. -/
theorem Owner.mem_ledger_after_tick {interval : Nat} {done : List Act} {checked : Instant}
    {m : Moment} (allowed : (Owner.new interval).AllowsAll (done ++ [.tick checked m]))
    (k : ItemKey) :
    k ∈ (Ledger.ofReports ((Owner.new interval).reports (done ++ [.tick checked m]))).keys ↔
      ∃ c ∈ m.candidates, c.visible = true ∧ c.key = k := by
  rw [(balanced_after allowed).same, VisibleSet.isVisible_iff, after_append,
    ← VisibleSet.mem_keys_seen]
  rfl

/-! ### Runs of the loop -/

/-- A tick that is due can run at once: if it is not the owner's turn to look at the deadline, the
    deadline wakes the owner up. -/
theorem Run.acts_of_due {run : Run} (hopen : run.loop.isOpen = true) {r : Readings}
    (due : run.loop.owner.schedule.isDue r.checked = true) :
    ((run.next (.turned .deadline r)).next (.turned .deadline r)).acts =
      run.acts ++ [.tick r.checked r.tick] := by
  obtain ⟨⟨owner, inbox, phase, abandoned⟩, acts, said⟩ := run
  have past : (owner.tick r.tick.now r.tick.candidates).1.schedule.isDue r.checked = false := rfl
  cases phase with
  | checking => simp [next, Loop.step, Loop.acts, Owner.dueTick, due, past]
  | parked => simp [next, Loop.step, Loop.acts, Owner.dueTick, due]
  | closing ticket | ended => cases hopen

/-- **No signal is late.**  Under a clock that never goes back, every signal that counts leaves a
    tick pending.  It is due at the time of the signal, or one interval after the last tick if that
    is later, or sooner if an earlier signal had armed it.  Until a tick runs or a stop is handled
    the deadline stays, and what the owner does next is the tick just if the deadline had come when
    the owner looked; so no command is handled in front of a tick that is due.  The tick can run
    then, and after a tick the ledger has exactly the items that are visible in the list it read. -/
theorem no_signal_is_late (interval : Nat) (events : List Event)
    (clock : ClockRuns (Run.of interval events).acts) :
    let run := Run.of interval events
    let owner := Owner.new interval
    (∀ done checked m c ahead, run.acts = done ++ .handle checked m c :: ahead →
      (owner.after done).honours c = true →
      ∃ due, (owner.after (done ++ [.handle checked m c])).schedule.pending = some due ∧
        (tickStarts done = [] → due ≤ m.now) ∧
        (∀ last, (tickStarts done).getLast? = some last → due ≤ max m.now (last + interval)) ∧
        (∀ between a later, ahead = between ++ a :: later →
          (∀ b ∈ between, b.isTick = false ∧ ∀ checked m, b ≠ .handle checked m .stop) →
          (owner.after (done ++ .handle checked m c :: between)).schedule.pending = some due ∧
            (a.isTick = true ↔ due ≤ a.checked))) ∧
    (∀ r, run.loop.isOpen = true → run.loop.owner.schedule.isDue r.checked = true →
      ((run.next (.turned .deadline r)).next (.turned .deadline r)).acts =
        run.acts ++ [.tick r.checked r.tick]) ∧
    (∀ done checked m ahead, run.acts = done ++ .tick checked m :: ahead → ∀ k,
      k ∈ (Ledger.ofReports (owner.reports (done ++ [.tick checked m]))).keys ↔
        ∃ c ∈ m.candidates, c.visible = true ∧ c.key = k) := by
  intro run owner
  refine ⟨fun done checked m c ahead split counts => ?_,
    fun r hopen due => Run.acts_of_due hopen due, fun done checked m ahead split => ?_⟩
  · have act := (owner.after done).perform_reschedules (.handle checked m c)
    obtain ⟨due, pending⟩ := act.exists_pending counts
    have after : owner.after (done ++ [.handle checked m c]) =
        ((owner.after done).perform (.handle checked m c)).1 := by
      rw [Owner.after_append, Owner.after_singleton]
    rw [← after] at pending
    -- the deadline was computed for some earlier time, and later ones are no earlier
    obtain ⟨t, ht, armed⟩ := Owner.exists_time_of_pending pending
    have early : t ≤ m.now := (split ▸ clock).le_of_mem ht
    have bound : due ≤ (owner.after done).schedule.dueFor m.now := by
      rw [armed, after, act.dueFor_eq rfl]
      exact Schedule.dueFor_mono _ early
    rw [Schedule.dueFor, Owner.lastTick_after, Owner.interval_after] at bound
    refine ⟨due, pending, fun none => ?_, fun last some => ?_, ?_⟩
    · rw [none] at bound
      exact bound
    · rw [some] at bound
      rwa [Nat.max_comm]
    · intro between a later rest quiet
      have split : run.acts = (done ++ .handle checked m c :: between) ++ a :: later := by
        rw [split, rest, List.append_assoc, List.cons_append]
      have path : done ++ .handle checked m c :: between =
          (done ++ [.handle checked m c]) ++ between := by simp
      have still : (owner.after (done ++ .handle checked m c :: between)).schedule.pending =
          some due := by
        rw [path, Owner.after_append]
        refine Owner.pending_after_of_quiet pending fun b hb => ⟨(quiet b hb).1, ?_⟩
        refine Act.stops_eq_false (quiet b hb).2 ?_
        rintro checked ticket rfl
        exact Run.leave_not_mem split checked ticket (by simp [hb])
      exact ⟨still, (Run.reports_of_acts_eq split).2.1.1.isTick_iff still⟩
  · rw [← List.singleton_append, ← List.append_assoc] at split
    exact Owner.mem_ledger_after_tick (Run.reports_of_acts_eq split).1

/-- The clock jumps past the deadline while a flush is queued, and the tick still comes first. -/
theorem no_signal_is_late_jump :
    let m (now : Instant) : Moment := ⟨now, [⟨⟨"a"⟩, true, none⟩]⟩
    let turn (now : Instant) : Event := .turned .command ⟨now, m now, m now⟩
    let events : List Event :=
      [.sent (.start false), turn 0, turn 0, turn 0, turn 0, .sent .possibleChange, turn 100,
        turn 100, .sent (.flush 0), turn 700]
    let done : List Act := [.handle 0 (m 0) (.start false), .tick 0 (m 0)]
    let signal : Act := .handle 100 (m 100) .possibleChange
    let ahead : List Act := [.tick 700 (m 700), .handle 700 (m 700) (.flush 0)]
    (Run.of 500 events).acts = done ++ signal :: ahead ∧ ClockRuns (Run.of 500 events).acts ∧
      ((Owner.new 500).after done).honours .possibleChange = true ∧
      ∃ due, ((Owner.new 500).after (done ++ [signal])).schedule.pending = some due ∧ due ≤ 500 := by
  intro m turn events done signal ahead
  have acts : (Run.of 500 events).acts = done ++ signal :: ahead := by decide +kernel
  have counts : ((Owner.new 500).after done).honours .possibleChange = true := by decide +kernel
  have clock : ClockRuns (Run.of 500 events).acts := by
    rw [acts]
    exact ⟨by simp [done, signal, ahead, m, Act.time?, Act.checked], by decide⟩
  obtain ⟨due, pending, -, bound, -⟩ :=
    (no_signal_is_late 500 events clock).1 done 100 (m 100) .possibleChange ahead acts counts
  exact ⟨acts, clock, counts, due, pending, bound 0 (by decide +kernel)⟩

end OnScreen
