import Mathlib.Data.List.Basic
import OnScreen.Loop

namespace OnScreen

/-!
# Runs of the owner's loop

Around a loop commands are queued, clients go away and time passes; the loop itself makes its steps.
A run is what all this has led to, together with a log: the acts of the owner in order, and what the
owner has said.

* `Act`, `Owner.perform` — one thing that the owner does, and what comes of it.
* `Owner.after`, `Owner.said` — the owner after some acts and what it said meanwhile.
* `Owner.AllowsAll` — no act comes at a wrong time: a tick only when it is due, and anything else
  only when no tick is.
* `Run.of` — the run that a list of events leads to.
* `Run.of_accounted` — owner and words of a run come from its acts alone, and every act was allowed.
* `Run.nothing_after_leave`, `Run.leave_not_mem` — the owner leaves once, and last.
-/

/-! ### Acts -/

/-- Something that the owner does.  Each act remembers the look at the deadline that came before. -/
inductive Act where
  | tick (checked : Instant) (m : Moment)
  | handle (checked : Instant) (m : Moment) (c : Command)
  /-- The owner stops for good. -/
  | leave (checked : Instant) (ticket : Option Nat)
  deriving DecidableEq, Repr

namespace Act

/-- The act is a tick. -/
def isTick : Act → Bool
  | tick _ _ => true
  | handle _ _ _ | leave _ _ => false

/-- What the owner does about a command: a shutdown makes it leave. -/
def ofCommand (r : Readings) : Command → Act
  | .shutdown ticket => leave r.checked (some ticket)
  | c => handle r.checked r.command c

end Act

/-- The last thing that `f` finds in a list. -/
def latest {α β : Type} (f : α → Option β) (xs : List α) : Option β := xs.reverse.findSome? f

@[simp] theorem latest_nil {α β : Type} (f : α → Option β) : latest f [] = none := rfl

/-- One more counts if it has a value; otherwise the latest stays. -/
theorem latest_append_singleton {α β : Type} (f : α → Option β) (xs : List α) (x : α) :
    latest f (xs ++ [x]) = (f x).or (latest f xs) := by
  rw [latest, List.reverse_append, List.reverse_singleton, List.singleton_append,
    List.findSome?_cons, latest]
  cases f x <;> rfl

/-- The reports in two stretches of words. -/
theorem Output.reports_append (xs ys : List Output) :
    Output.reports (xs ++ ys) = Output.reports xs ++ Output.reports ys := by
  simp [Output.reports]

/-- The reports among words that are nothing but reports. -/
theorem Output.reports_map {α : Type} (f : α → Report) (xs : List α) :
    Output.reports (xs.map fun x => .report (f x)) = xs.map f := by
  induction xs with
  | nil => rfl
  | cons x xs ih => exact congrArg (f x :: ·) ih

namespace Owner

/-- Performs an act. -/
def perform (o : Owner) : Act → Owner × List Output
  | .tick _ m => o.tick m.now m.candidates
  | .handle _ m c => o.handle m.now m.candidates c
  | .leave _ _ => o.stop

/-- The owner after some acts. -/
def after (o : Owner) : List Act → Owner
  | [] => o
  | a :: rest => (o.perform a).1.after rest

/-- What the owner says during some acts. -/
def said (o : Owner) : List Act → List Output
  | [] => []
  | a :: rest => (o.perform a).2 ++ (o.perform a).1.said rest

/-- What the owner reports during some acts. -/
def reports (o : Owner) (acts : List Act) : List Report := Output.reports (o.said acts)

/-- The time is right for an act: the pending tick was due at the last look at the deadline if the
    act is a tick, and not due if it is another one. -/
def Allows (o : Owner) : Act → Prop
  | .tick checked _ => o.schedule.isDue checked = true
  | .handle checked _ _ | .leave checked _ => o.schedule.isDue checked = false

/-- The time is right for each of some acts. -/
def AllowsAll (o : Owner) : List Act → Prop
  | [] => True
  | a :: rest => o.Allows a ∧ (o.perform a).1.AllowsAll rest

@[simp] theorem after_nil (o : Owner) : o.after [] = o := rfl

@[simp] theorem after_singleton (o : Owner) (a : Act) : o.after [a] = (o.perform a).1 := rfl

@[simp] theorem said_nil (o : Owner) : o.said [] = [] := rfl

@[simp] theorem reports_nil (o : Owner) : o.reports [] = [] := rfl

@[simp] theorem said_singleton (o : Owner) (a : Act) : o.said [a] = (o.perform a).2 := by
  simp [said]

/-- A single act reports what is reported in it. -/
theorem reports_singleton (o : Owner) (a : Act) :
    o.reports [a] = Output.reports (o.perform a).2 := by
  rw [reports, said_singleton]

@[simp] theorem allowsAll_singleton (o : Owner) (a : Act) : o.AllowsAll [a] ↔ o.Allows a := by
  simp [AllowsAll]

/-- Acts can be done in two goes. -/
theorem after_append (o : Owner) (xs ys : List Act) :
    o.after (xs ++ ys) = (o.after xs).after ys := by
  induction xs generalizing o with
  | nil => rfl
  | cons a xs ih => exact ih (o.perform a).1

/-- What is said in two goes is said one after the other. -/
theorem said_append (o : Owner) (xs ys : List Act) :
    o.said (xs ++ ys) = o.said xs ++ (o.after xs).said ys := by
  induction xs generalizing o with
  | nil => rfl
  | cons a xs ih =>
    simp only [List.cons_append, said, after, ih, List.append_assoc]

/-- So is what is reported. -/
theorem reports_append (o : Owner) (xs ys : List Act) :
    o.reports (xs ++ ys) = o.reports xs ++ (o.after xs).reports ys := by
  rw [reports, said_append, Output.reports_append, reports, reports]

/-- The first act reports first. -/
theorem reports_cons (o : Owner) (a : Act) (acts : List Act) :
    o.reports (a :: acts) = Output.reports (o.perform a).2 ++ (o.perform a).1.reports acts :=
  Output.reports_append _ _

/-- Each report belongs to one of the acts: it comes after the reports of the acts before this one,
    and before those of the acts that follow. -/
theorem act_of_report {o : Owner} {acts : List Act} {earlier later : List Report} {r : Report}
    (split : o.reports acts = earlier ++ r :: later) :
    ∃ done a ahead before rest, acts = done ++ a :: ahead ∧
      Output.reports ((o.after done).perform a).2 = before ++ r :: rest ∧
      earlier = o.reports done ++ before ∧
      later = rest ++ ((o.after done).perform a).1.reports ahead := by
  induction acts generalizing o earlier with
  | nil => exact absurd (congrArg List.length split) (by simp)
  | cons a acts ih =>
    rw [reports_cons] at split
    rcases List.append_eq_append_iff.1 split with ⟨between, rfl, tail⟩ | ⟨rest, here, tail⟩
    · -- the report is one of a later act
      obtain ⟨done, b, ahead, before, rest, rfl, words, rfl, rfl⟩ := ih tail
      refine ⟨a :: done, b, ahead, before, rest, rfl, words, ?_, rfl⟩
      rw [reports_cons, List.append_assoc]
    · cases rest with
      | cons first rest =>
        obtain ⟨rfl, rfl⟩ := List.cons.inj tail
        exact ⟨[], a, acts, earlier, rest, rfl, here, rfl, rfl⟩
      | nil =>
        -- the act has said everything before the report
        have next : (o.perform a).1.reports acts = [] ++ r :: later := tail.symm
        obtain ⟨done, b, ahead, before, rest, rfl, words, empty, rfl⟩ := ih next
        refine ⟨a :: done, b, ahead, before, rest, rfl, words, ?_, rfl⟩
        rw [reports_cons, List.append_assoc, ← empty, here, List.append_nil, List.append_nil]

/-- Acts in two goes are allowed if the first ones are, and the others from where those have led. -/
theorem allowsAll_append (o : Owner) (xs ys : List Act) :
    o.AllowsAll (xs ++ ys) ↔ o.AllowsAll xs ∧ (o.after xs).AllowsAll ys := by
  induction xs generalizing o with
  | nil => simp [AllowsAll]
  | cons a xs ih => simp only [List.cons_append, AllowsAll, after, ih, and_assoc]

/-- A property that every allowed act keeps is kept by a whole sequence of them. -/
theorem after_keeps {P : Owner → Prop}
    (step : ∀ (o : Owner) (a : Act), P o → o.Allows a → P (o.perform a).1)
    {o : Owner} (acts : List Act) (h : P o) (allowed : o.AllowsAll acts) : P (o.after acts) := by
  induction acts generalizing o with
  | nil => exact h
  | cons a rest ih => exact ih (step o a h allowed.1) allowed.2

/-- Nothing runs after a stop. -/
theorem stop_started (o : Owner) : o.stop.1.started = false := by
  unfold stop
  split
  · rfl
  · next idle => simpa using idle

/-! ### The tick before a command -/

/-- The tick that comes before a command, if it is due. -/
def dueTick (o : Owner) (r : Readings) : List Act :=
  if o.schedule.isDue r.checked then [.tick r.checked r.tick] else []

/-- The owner ticks if it is due, and this is an act or none. -/
theorem tickIfDue_eq (o : Owner) (r : Readings) :
    o.tickIfDue r.checked r.tick.now r.tick.candidates =
      (o.after (o.dueTick r), o.said (o.dueTick r)) := by
  unfold tickIfDue dueTick
  split
  · rw [after_singleton, said_singleton]
    rfl
  · rfl

/-- A due tick is allowed, for it is due. -/
theorem allowsAll_dueTick (o : Owner) (r : Readings) : o.AllowsAll (o.dueTick r) := by
  unfold dueTick
  split
  · next due => exact (allowsAll_singleton _ _).2 due
  · trivial

/-- Nothing is due any more once the tick that was due has run. -/
theorem not_due_after_dueTick (o : Owner) (r : Readings) :
    (o.after (o.dueTick r)).schedule.isDue r.checked = false := by
  unfold dueTick
  split
  · -- a tick takes the deadline away
    rfl
  · next idle => simpa using idle

/-- The tick before a command is not the end. -/
theorem leave_not_mem_dueTick (o : Owner) (r : Readings) (checked : Instant)
    (ticket : Option Nat) : .leave checked ticket ∉ o.dueTick r := by
  unfold dueTick
  split <;> simp

/-- An act that leaves, among the tick that is due and one more act, is the latter. -/
theorem eq_leave_of_dueTick_append {o : Owner} {r : Readings} {a : Act} {earlier later : List Act}
    {checked : Instant} {ticket : Option Nat}
    (h : o.dueTick r ++ [a] = earlier ++ .leave checked ticket :: later) :
    a = .leave checked ticket ∧ later = [] := by
  rcases List.eq_nil_or_concat later with rfl | ⟨later, last, rfl⟩
  · exact ⟨List.singleton_inj.1 (List.append_inj' h rfl).2, rfl⟩
  · -- else the act would be the tick
    rw [List.concat_eq_append, ← List.cons_append, ← List.append_assoc] at h
    have among : .leave checked ticket ∈ o.dueTick r := by
      rw [(List.append_inj' h rfl).1]
      simp
    exact absurd among (o.leave_not_mem_dueTick r checked ticket)

end Owner

/-! ### Steps of the loop as acts -/

namespace Loop

/-- The acts that a step of the loop is made of. -/
def acts (branch : Branch) (r : Readings) (l : Loop) : List Act :=
  match l.phase, branch with
  | .checking, _ => l.owner.dueTick r
  | .parked, .command =>
    match l.inbox with
    | c :: _ => l.owner.dueTick r ++ [.ofCommand r c]
    | [] => if l.abandoned then l.owner.dueTick r ++ [.leave r.checked none] else []
  | .parked, .deadline | .closing _, _ | .ended, _ => []

/-- The acts lead from the owner `o` to the loop `next` with the words `out`. -/
structure Performs (o : Owner) (acts : List Act) (next : Loop) (out : List Output) : Prop where
  owner : next.owner = o.after acts
  said : out = o.said acts
  allowed : o.AllowsAll acts
  /-- A loop that takes no more commands has stopped its owner. -/
  stopped : next.isOpen = false → next.owner.started = false

/-- The tick that is due and one more act. -/
theorem performs_dueTick {o : Owner} {next : Loop} {r : Readings} {a : Act} {out : List Output}
    (allowed : ∀ o : Owner, o.schedule.isDue r.checked = false → o.Allows a)
    (owner : next.owner = ((o.after (o.dueTick r)).perform a).1)
    (said : out = o.said (o.dueTick r) ++ ((o.after (o.dueTick r)).perform a).2)
    (stopped : next.isOpen = false → next.owner.started = false) :
    Performs o (o.dueTick r ++ [a]) next out where
  owner := by rw [Owner.after_append, Owner.after_singleton, owner]
  said := by rw [Owner.said_append, Owner.said_singleton, said]
  allowed := by
    rw [Owner.allowsAll_append, Owner.allowsAll_singleton]
    exact ⟨o.allowsAll_dueTick r, allowed _ (o.not_due_after_dueTick r)⟩
  stopped := stopped

/-- A command is handled as its act says. -/
theorem receive_performs (l : Loop) (r : Readings) (c : Command) :
    Performs l.owner (l.owner.dueTick r ++ [.ofCommand r c]) (l.receive r c).1
      (l.receive r c).2 := by
  unfold receive
  rw [Owner.tickIfDue_eq]
  cases c with
  | shutdown ticket =>
    exact performs_dueTick (fun _ idle => idle) rfl rfl fun _ => Owner.stop_started _
  | _ => exact performs_dueTick (fun _ idle => idle) rfl rfl fun closed => nomatch closed

/-- Every step of the loop performs its acts. -/
theorem step_performs {branch : Branch} {r : Readings} {l next : Loop} {out : List Output}
    (h : l.step branch r = some (next, out)) : Performs l.owner (l.acts branch r) next out := by
  obtain ⟨owner, inbox, phase, abandoned⟩ := l
  cases phase with
  | checking =>
    simp only [step, acts, Owner.dueTick] at h ⊢
    split at h
    · next due =>
      cases h
      rw [if_pos due]
      have said := (Owner.said_singleton owner (.tick r.checked r.tick)).symm
      exact ⟨rfl, said, ⟨due, trivial⟩, fun closed => nomatch closed⟩
    · next idle =>
      cases h
      rw [if_neg idle]
      exact ⟨rfl, rfl, trivial, fun closed => nomatch closed⟩
  | parked =>
    cases branch with
    | deadline =>
      simp only [step, acts] at h ⊢
      split at h
      · cases h
        exact ⟨rfl, rfl, trivial, fun closed => nomatch closed⟩
      · cases h
    | command =>
      cases inbox with
      | cons c rest =>
        -- the command leaves the queue before it is received
        have performs := receive_performs ⟨owner, rest, .parked, abandoned⟩ r c
        rw [Option.some.inj h] at performs
        exact performs
      | nil =>
        -- nobody is left to wait for, or the step cannot be made
        simp only [step, acts] at h ⊢
        split at h
        · next gone =>
          cases h
          rw [if_pos gone]
          simp only [Owner.tickIfDue_eq]
          exact performs_dueTick (fun _ idle => idle) rfl rfl fun _ => Owner.stop_started _
        · cases h
  | closing ticket => cases h
  | ended => cases h

/-- A loop that takes no more commands makes no step. -/
theorem step_of_closed {branch : Branch} {r : Readings} {l : Loop} (closed : l.isOpen = false) :
    l.step branch r = none := by
  obtain ⟨owner, inbox, phase, abandoned⟩ := l
  cases phase with
  | checking | parked => cases closed
  | closing ticket | ended => rfl

/-- The owner leaves in the last act of a step, and the loop takes no more commands then. -/
theorem step_of_leave {branch : Branch} {r : Readings} {l next : Loop} {out : List Output}
    {earlier later : List Act} {checked : Instant} {ticket : Option Nat}
    (h : l.step branch r = some (next, out))
    (left : l.acts branch r = earlier ++ .leave checked ticket :: later) :
    later = [] ∧ next.isOpen = false := by
  obtain ⟨owner, inbox, phase, abandoned⟩ := l
  cases phase with
  | checking =>
    have among : .leave checked ticket ∈ owner.dueTick r := by
      rw [show owner.dueTick r = _ from left]
      simp
    exact absurd among (owner.leave_not_mem_dueTick r checked ticket)
  | parked =>
    cases branch with
    | deadline => exact absurd (congrArg List.length left) (by simp [acts])
    | command =>
      cases inbox with
      | cons c rest =>
        obtain ⟨same, rfl⟩ := Owner.eq_leave_of_dueTick_append left
        -- only a shutdown makes the owner leave
        cases c with
        | shutdown ticket =>
          cases h
          exact ⟨rfl, rfl⟩
        | _ => cases same
      | nil =>
        simp only [step, acts] at h left
        split at h
        · next gone =>
          cases h
          rw [if_pos gone] at left
          exact ⟨(Owner.eq_leave_of_dueTick_append left).2, rfl⟩
        · cases h
  | closing ticket => cases h
  | ended => cases h

end Loop

/-! ### Runs -/

/-- Something that happens to a loop. -/
inductive Event where
  /-- A client queues a command. -/
  | sent (c : Command)
  /-- The last client goes away. -/
  | abandoned
  /-- The loop makes a step, if it can make one through that branch. -/
  | turned (branch : Branch) (r : Readings)
  /-- The last reports have been delivered. -/
  | delivered
  deriving DecidableEq, Repr

/-- A loop with the log of what its owner did and said. -/
structure Run where
  loop : Loop
  acts : List Act
  said : List Output

namespace Run

/-- Nothing has happened. -/
def start (interval : Nat) : Run := ⟨.new interval, [], []⟩

/-- What an event makes of a run.  One that cannot take place changes nothing. -/
def next (run : Run) : Event → Run
  | .sent c =>
    match run.loop.send c with
    | some loop => { run with loop := loop }
    | none => run
  | .abandoned => { run with loop := { run.loop with abandoned := true } }
  | .turned branch r =>
    match run.loop.step branch r with
    | some (loop, out) => ⟨loop, run.acts ++ run.loop.acts branch r, run.said ++ out⟩
    | none => run
  | .delivered =>
    match run.loop.phase with
    | .closing _ => { run with loop := { run.loop with phase := .ended } }
    | .checking | .parked | .ended => run

/-- The run that some events lead to. -/
def of (interval : Nat) (events : List Event) : Run := events.foldl next (start interval)

/-- The reports of a run. -/
def reports (run : Run) : List Report := Output.reports run.said

/-- The owner of the run and its words come from the acts in the log, all of which were allowed. -/
structure Accounted (interval : Nat) (run : Run) : Prop where
  owner : (Owner.new interval).after run.acts = run.loop.owner
  said : (Owner.new interval).said run.acts = run.said
  allowed : (Owner.new interval).AllowsAll run.acts
  stopped : run.loop.isOpen = false → run.loop.owner.started = false

/-- Every event is accounted for. -/
theorem next_accounted {interval : Nat} {run : Run} (h : run.Accounted interval) (e : Event) :
    (run.next e).Accounted interval := by
  cases e with
  | sent c =>
    simp only [next, Loop.send]
    by_cases hopen : run.loop.isOpen = true
    · rw [if_pos hopen]
      exact ⟨h.owner, h.said, h.allowed, h.stopped⟩
    · rw [if_neg hopen]
      exact h
  | abandoned => exact ⟨h.owner, h.said, h.allowed, h.stopped⟩
  | turned branch r =>
    simp only [next]
    cases hs : run.loop.step branch r with
    | none => exact h
    | some result =>
      obtain ⟨loop, out⟩ := result
      have performs := Loop.step_performs hs
      -- the log grows by the acts of the step, performed from where the old log had led
      refine ⟨?_, ?_, ?_, performs.stopped⟩
      · rw [Owner.after_append, h.owner, performs.owner]
      · rw [Owner.said_append, h.said, h.owner, performs.said]
      · rw [Owner.allowsAll_append, h.owner]
        exact ⟨h.allowed, performs.allowed⟩
  | delivered =>
    simp only [next]
    cases hp : run.loop.phase with
    | closing ticket =>
      have closed : run.loop.isOpen = false := by simp [Loop.isOpen, hp]
      exact ⟨h.owner, h.said, h.allowed, fun _ => h.stopped closed⟩
    | checking | parked | ended => exact h

/-- What holds at the start and is kept by every event holds of every run. -/
theorem of_keeps {P : Run → Prop} {interval : Nat} (init : P (start interval))
    (step : ∀ {run : Run}, P run → ∀ e, P (run.next e)) (events : List Event) :
    P (of interval events) := by
  -- the induction is over the events that are left, from any run on the way
  have go : ∀ (events : List Event) (run : Run), P run → P (events.foldl next run) := by
    intro events
    induction events with
    | nil => exact fun _ h => h
    | cons e rest ih => exact fun _ h => ih _ (step h e)
  exact go events (start interval) init

/-- Every run is accounted for. -/
theorem of_accounted (interval : Nat) (events : List Event) :
    (of interval events).Accounted interval :=
  of_keeps (P := Accounted interval) ⟨rfl, rfl, trivial, fun closed => nomatch closed⟩
    next_accounted events

/-- Nothing was done after the owner left, and the loop that it has left is closed. -/
def LeavesLast (run : Run) : Prop :=
  ∀ earlier checked ticket later, run.acts = earlier ++ .leave checked ticket :: later →
    later = [] ∧ run.loop.isOpen = false

/-- Whatever happens, leaving stays the last act. -/
theorem next_leavesLast {run : Run} (h : run.LeavesLast) (e : Event) :
    (run.next e).LeavesLast := by
  cases e with
  | sent c =>
    simp only [next, Loop.send]
    by_cases hopen : run.loop.isOpen = true
    · rw [if_pos hopen]
      exact h
    · rw [if_neg hopen]
      exact h
  | abandoned => exact h
  | turned branch r =>
    simp only [next]
    cases hs : run.loop.step branch r with
    | none => exact h
    | some result =>
      intro earlier checked ticket later split
      rcases List.append_eq_append_iff.1 split with ⟨between, -, new⟩ | ⟨rest, old, tail⟩
      · exact Loop.step_of_leave hs new
      · cases rest with
        | nil =>
          have new : run.loop.acts branch r = [] ++ .leave checked ticket :: later := tail.symm
          exact Loop.step_of_leave hs new
        | cons first rest =>
          -- a loop that was left before makes no step
          obtain ⟨rfl, -⟩ := List.cons.inj tail
          rw [Loop.step_of_closed (h _ _ _ _ old).2] at hs
          cases hs
  | delivered =>
    simp only [next]
    cases hp : run.loop.phase with
    | closing ticket => exact fun _ _ _ _ split => ⟨(h _ _ _ _ split).1, rfl⟩
    | checking | parked | ended => exact h

/-- The owner leaves at most once, and does nothing afterwards. -/
theorem nothing_after_leave {interval : Nat} {events : List Event} {earlier later : List Act}
    {checked : Instant} {ticket : Option Nat}
    (split : (of interval events).acts = earlier ++ .leave checked ticket :: later) :
    later = [] := by
  have kept : (of interval events).LeavesLast :=
    of_keeps (fun _ _ _ _ none => absurd (congrArg List.length none) (by simp [start]))
      next_leavesLast events
  exact (kept _ _ _ _ split).1

/-- The owner was there before everything that it did. -/
theorem leave_not_mem {interval : Nat} {events : List Event} {done later : List Act} {a : Act}
    (split : (of interval events).acts = done ++ a :: later) (checked : Instant)
    (ticket : Option Nat) : .leave checked ticket ∉ done := by
  intro left
  obtain ⟨earlier, between, rfl⟩ := List.append_of_mem left
  rw [List.append_assoc, List.cons_append] at split
  exact absurd (congrArg List.length (nothing_after_leave split)) (by simp)

/-- A point of a run: what was done and what lies ahead were both allowed, and the reports of the
    run are those of the one and then those of the other. -/
theorem reports_of_acts_eq {interval : Nat} {events : List Event} {done ahead : List Act}
    (h : (of interval events).acts = done ++ ahead) :
    (Owner.new interval).AllowsAll done ∧ ((Owner.new interval).after done).AllowsAll ahead ∧
      (of interval events).reports =
        (Owner.new interval).reports done ++ ((Owner.new interval).after done).reports ahead := by
  have accounted := of_accounted interval events
  have allowed := accounted.allowed
  rw [h, Owner.allowsAll_append] at allowed
  refine ⟨allowed.1, allowed.2, ?_⟩
  rw [← Owner.reports_append, ← h, reports, ← accounted.said]
  rfl

end Run

end OnScreen
