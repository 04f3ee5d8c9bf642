import OnScreen.Proofs.Deadline
import OnScreen.Proofs.Histories
import OnScreen.Proofs.Silence

namespace OnScreen

/-!
# Redundant commands

A change signal is lost on a stopped owner, and is absorbed while a tick is pending; a stop is lost
on a stopped owner; and a start, while tracking runs, says again which items the panel was opened
with and does nothing else.  Whoever puts such commands into a run, where no tick is due, gets the
same run again: the same acts, at the same looks at the deadline, with the same words, and the same
owner but for the number of signals that were absorbed.

* `Owner.Redundant` — the command makes no difference to the owner.
* `Owner.absorb` — the owner that has absorbed some more signals.
* `Marked`, `Owner.Spares` — the acts of a run with commands that are handled in addition, where
  they are redundant and no tick is due.
* `Owner.after_whole`, `Owner.allowsAll_whole`, `Loop.standsAfter_whole` — what comes of the whole
  is what comes of the run itself.
* `redundant_commands_are_invisible` — all this about runs of the loop.
-/

/-! ### What makes no difference -/

/-- The schedule after `n` more signals that a pending tick has absorbed. -/
def Schedule.absorb (n : Nat) (s : Schedule) : Schedule := { s with coalesced := s.coalesced + n }

/-- A signal does the same whatever was absorbed before. -/
theorem Schedule.signal_absorb (s : Schedule) (n : Nat) (now : Instant) :
    ((s.absorb n).signal now).1 = (s.signal now).1.absorb n := by
  cases pending : s.pending with
  | some due =>
    have same : (s.absorb n).pending = some due := pending
    rw [signal_of_pending pending, signal_of_pending same]
    simp only [absorb, Nat.add_right_comm]
  | none =>
    have same : (s.absorb n).pending = none := pending
    rw [signal_of_idle pending, signal_of_idle same]
    rfl

namespace Owner

/-- The command makes no difference to the owner. -/
def Redundant (o : Owner) : Command → Prop
  | .possibleChange => o.started = false ∨ o.schedule.isPending = true
  | .stop => o.started = false
  | .start _ => o.started = true
  | .expansionChanged _ _ _ | .entryRemoved _ | .entryUpdated _ | .itemError _ _ | .flush _
  | .query _ | .shutdown _ => False

instance (o : Owner) : (c : Command) → Decidable (o.Redundant c)
  | .possibleChange => inferInstanceAs (Decidable (_ ∨ _))
  | .stop | .start _ => inferInstanceAs (Decidable (_ = _))
  | .expansionChanged _ _ _ | .entryRemoved _ | .entryUpdated _ | .itemError _ _ | .flush _
  | .query _ | .shutdown _ => .isFalse id

/-- The owner after `n` more signals that a pending tick has absorbed. -/
def absorb (n : Nat) (o : Owner) : Owner := { o with schedule := o.schedule.absorb n }

/-- How many signals are absorbed when a redundant command is handled. -/
def absorbs (o : Owner) : Command → Nat
  | .possibleChange => if o.started then 1 else 0
  | .start _ | .stop | .expansionChanged _ _ _ | .entryRemoved _ | .entryUpdated _ | .itemError _ _
  | .flush _ | .query _ | .shutdown _ => 0

end Owner

/-- What is said about a redundant command: a start says which items the panel was opened with. -/
def Command.panelWords (m : Moment) : Command → List Output
  | start lockscreen => [.report (.panelShown lockscreen (m.candidates.map Candidate.key))]
  | stop | possibleChange | expansionChanged _ _ _ | entryRemoved _ | entryUpdated _ | itemError _ _
  | flush _ | query _ | shutdown _ => []

namespace Owner

theorem absorb_zero (o : Owner) : o.absorb 0 = o := rfl

theorem absorb_absorb (o : Owner) (n k : Nat) : (o.absorb n).absorb k = o.absorb (n + k) := by
  simp only [absorb, Schedule.absorb, Nat.add_assoc]

/-- A shutdown is never redundant. -/
theorem Redundant.shutsDown {o : Owner} {c : Command} (h : o.Redundant c) :
    c.shutsDown = false := by
  cases c with
  | shutdown ticket => cases h
  | _ => rfl

/-- When a redundant command is handled, at most a signal is absorbed, and only a start has
    something to say. -/
theorem handle_of_redundant {o : Owner} {c : Command} (h : o.Redundant c) (m : Moment) :
    o.handle m.now m.candidates c = (o.absorb (o.absorbs c), c.panelWords m) := by
  cases c with
  | possibleChange =>
    show (o.possibleChange m.now, []) = (o.absorb (if o.started then 1 else 0), [])
    unfold possibleChange
    split
    · next running =>
      -- while tracking runs, the signal is redundant only because a tick is pending
      have pending : o.schedule.isPending = true := h.resolve_left (by simp [running])
      obtain ⟨due, armed⟩ := Option.isSome_iff_exists.1 pending
      rw [Schedule.signal_of_pending armed]
      rfl
    · rfl
  | start lockscreen =>
    have running : o.started = true := h
    show o.start m.now m.candidates lockscreen = (o.absorb 0, _)
    rw [start, if_pos running]
    rfl
  | stop => exact stop_of_stopped h
  | _ => cases h

/-! ### What was absorbed -/

/-- So does a change signal that is handled. -/
theorem possibleChange_absorb (o : Owner) (n : Nat) (now : Instant) :
    (o.absorb n).possibleChange now = (o.possibleChange now).absorb n := by
  obtain ⟨visible, schedule, expansions, started, ticks⟩ := o
  cases started with
  | true =>
    exact congrArg (Owner.mk visible · expansions true ticks) (schedule.signal_absorb n now)
  | false => rfl

/-- A start does and says the same whatever was absorbed before. -/
theorem start_absorb (o : Owner) (n : Nat) (now : Instant) (candidates : List Candidate)
    (lockscreen : Bool) :
    (o.absorb n).start now candidates lockscreen =
      ((o.start now candidates lockscreen).1.absorb n, (o.start now candidates lockscreen).2) := by
  obtain ⟨visible, schedule, expansions, started, ticks⟩ := o
  cases started with
  | true => rfl
  | false =>
    exact congrArg (·, _) (possibleChange_absorb ⟨visible, schedule, expansions, true, ticks⟩ n now)

/-- So does a stop. -/
theorem stop_absorb (o : Owner) (n : Nat) :
    (o.absorb n).stop = (o.stop.1.absorb n, o.stop.2) := by
  obtain ⟨visible, schedule, expansions, started, ticks⟩ := o
  cases started <;> rfl

/-- How many signals were absorbed makes no difference to what is done and said. -/
theorem perform_absorb (o : Owner) (n : Nat) (a : Act) :
    (o.absorb n).perform a = ((o.perform a).1.absorb n, (o.perform a).2) := by
  cases a with
  | tick checked m => rfl
  | leave checked ticket => exact o.stop_absorb n
  | handle checked m c =>
    cases c with
    | possibleChange => exact congrArg (·, []) (o.possibleChange_absorb n m.now)
    | start lockscreen => exact o.start_absorb n m.now m.candidates lockscreen
    | stop => exact o.stop_absorb n
    | _ => rfl

/-- A redundant command is handled after any number of signals was absorbed. -/
theorem perform_redundant {o : Owner} {c : Command} (h : o.Redundant c) (n : Nat)
    (checked : Instant) (m : Moment) :
    (o.absorb n).perform (.handle checked m c) = (o.absorb (n + o.absorbs c), c.panelWords m) := by
  have handled : o.perform (.handle checked m c) = _ := handle_of_redundant h m
  rw [perform_absorb, handled, absorb_absorb, Nat.add_comm]

/-- Which acts come next does not depend on what was absorbed. -/
theorem allows_absorb (o : Owner) (n : Nat) (a : Act) : (o.absorb n).Allows a ↔ o.Allows a := by
  cases a <;> rfl

end Owner

/-! ### Commands that are handled in addition -/

/-- An act of a run, or the handling of a command that is put into it. -/
inductive Marked where
  | own (a : Act)
  | extra (checked : Instant) (m : Moment) (c : Command)
  deriving DecidableEq, Repr

namespace Marked

def act : Marked → Act
  | own a => a
  | extra checked m c => .handle checked m c

def own? : Marked → Option Act
  | own a => some a
  | extra _ _ _ => none

/-- The acts of the run itself. -/
def plain (marked : List Marked) : List Act := marked.filterMap own?

/-- The acts of the run and those that are put into it. -/
def whole (marked : List Marked) : List Act := marked.map act

/-- The ticks are those of the run itself. -/
theorem filter_isTick_whole (marked : List Marked) :
    (whole marked).filter Act.isTick = (plain marked).filter Act.isTick := by
  induction marked with
  | nil => rfl
  | cons x rest ih =>
    cases x with
    | own a =>
      show (a :: whole rest).filter Act.isTick = (a :: plain rest).filter Act.isTick
      rw [List.filter_cons, List.filter_cons, ih]
    | extra checked m c => exact ih

end Marked

namespace Owner

/-- The commands that are put into the acts of a run are redundant, no tick is due where they are
    handled, and the loop still goes on there. -/
def Spares (o : Owner) : List Marked → Prop
  | [] => True
  | .own a :: rest => (a.goesOn = false → rest = []) ∧ (o.perform a).1.Spares rest
  | .extra checked _ c :: rest =>
    o.Redundant c ∧ o.schedule.isDue checked = false ∧ o.Spares rest

instance decidableSpares : (o : Owner) → (marked : List Marked) → Decidable (o.Spares marked)
  | _, [] => .isTrue trivial
  | o, .own a :: rest =>
    have := decidableSpares (o.perform a).1 rest
    inferInstanceAs (Decidable (_ ∧ _))
  | o, .extra _ _ _ :: rest =>
    have := decidableSpares o rest
    inferInstanceAs (Decidable (_ ∧ _ ∧ _))

/-- How many signals the commands add to those that are absorbed. -/
def absorbed (o : Owner) : List Marked → Nat
  | [] => 0
  | .own a :: rest => (o.perform a).1.absorbed rest
  | .extra _ _ c :: rest => o.absorbs c + o.absorbed rest

/-- The owner of the whole has absorbed more signals than the owner of the run, and that is all. -/
theorem after_whole {o : Owner} {marked : List Marked} (spare : o.Spares marked) (n : Nat) :
    (o.absorb n).after (Marked.whole marked) =
      (o.after (Marked.plain marked)).absorb (n + o.absorbed marked) := by
  -- an extra command leaves the owner of the run where it is, and only the number grows
  induction marked generalizing o n with
  | nil => rfl
  | cons x rest ih =>
    cases x with
    | own a =>
      show ((o.absorb n).perform a).1.after (Marked.whole rest) = _
      rw [perform_absorb, ih spare.2]
      rfl
    | extra checked m c =>
      show ((o.absorb n).perform (.handle checked m c)).1.after (Marked.whole rest) = _
      rw [perform_redundant spare.1, ih spare.2.2, Nat.add_assoc]
      rfl

/-- The acts of the whole are allowed just if those of the run are. -/
theorem allowsAll_whole {o : Owner} {marked : List Marked} (spare : o.Spares marked) (n : Nat) :
    (o.absorb n).AllowsAll (Marked.whole marked) ↔ o.AllowsAll (Marked.plain marked) := by
  induction marked generalizing o n with
  | nil => rfl
  | cons x rest ih =>
    cases x with
    | own a =>
      show (o.absorb n).Allows a ∧ ((o.absorb n).perform a).1.AllowsAll (Marked.whole rest) ↔ _
      rw [allows_absorb, perform_absorb, ih spare.2]
      rfl
    | extra checked m c =>
      -- a spare command comes when nothing is due, so it may be handled
      obtain ⟨redundant, idle, later⟩ := spare
      show (o.absorb n).Allows (.handle checked m c) ∧
        ((o.absorb n).perform (.handle checked m c)).1.AllowsAll (Marked.whole rest) ↔ _
      rw [allows_absorb, perform_redundant redundant, ih later]
      exact and_iff_right idle

/-- What can be spared in the end can be spared up to any point. -/
theorem Spares.append_left {o : Owner} {xs ys : List Marked} (h : o.Spares (xs ++ ys)) :
    o.Spares xs := by
  induction xs generalizing o with
  | nil => trivial
  | cons x rest ih =>
    cases x with
    | own a => exact ⟨fun last => (List.append_eq_nil_iff.1 (h.1 last)).1, ih h.2⟩
    | extra checked m c => exact ⟨h.1, h.2.1, ih h.2.2⟩

/-- And from there on. -/
theorem Spares.append_right {o : Owner} {xs ys : List Marked} (h : o.Spares (xs ++ ys)) :
    (o.after (Marked.plain xs)).Spares ys := by
  induction xs generalizing o with
  | nil => exact h
  | cons x rest ih =>
    cases x with
    | own a => exact ih h.2
    | extra checked m c => exact ih h.2.2

/-- What is put in does not end the loop. -/
theorem Spares.goesOn {o : Owner} {marked : List Marked} (h : o.Spares marked) :
    (∀ a ∈ Marked.whole marked, a.goesOn = true) ↔ ∀ a ∈ Marked.plain marked, a.goesOn = true := by
  induction marked generalizing o with
  | nil => rfl
  | cons x rest ih =>
    cases x with
    | own a =>
      show (∀ b ∈ a :: Marked.whole rest, _) ↔ ∀ b ∈ a :: Marked.plain rest, _
      rw [List.forall_mem_cons, List.forall_mem_cons, ih h.2]
    | extra checked m c =>
      -- a spare command is no shutdown
      show (∀ b ∈ .handle checked m c :: Marked.whole rest, _) ↔ _
      rw [List.forall_mem_cons, ih h.2.2]
      exact and_iff_right (by simp [Act.goesOn, h.1.shutsDown])

/-- Nothing is put in behind an act that ends the loop. -/
theorem Spares.last {o : Owner} {marked : List Marked} (h : o.Spares marked) {done : List Act}
    {a : Act} (ends : a.goesOn = false) (split : Marked.plain marked = done ++ [a]) :
    ∃ before, marked = before ++ [.own a] ∧ Marked.plain before = done := by
  have among : .own a ∈ marked := by
    have here : a ∈ Marked.plain marked := by simp [split]
    obtain ⟨x, hx, own⟩ := List.mem_filterMap.1 here
    cases x <;> cases own
    exact hx
  -- what stands behind it is nothing, so it is the last of all
  obtain ⟨before, later, rfl⟩ := List.append_of_mem among
  obtain rfl : later = [] := h.append_right.1 ends
  refine ⟨before, rfl, ?_⟩
  rw [Marked.plain, List.filterMap_append] at split
  exact (List.append_inj' split rfl).1

end Owner

/-- The handling of a command is not the end. -/
theorem Marked.last_whole {marked : List Marked} {done : List Act} {checked : Instant}
    {ticket : Option Nat} (split : whole marked = done ++ [.leave checked ticket]) :
    ∃ before, marked = before ++ [.own (.leave checked ticket)] ∧ whole before = done := by
  obtain ⟨before, last, rfl, rfl, acts⟩ := List.map_eq_append_iff.1 split
  obtain ⟨x, rest, rfl, leaves, none⟩ := List.map_eq_cons_iff.1 acts
  obtain rfl := List.map_eq_nil_iff.1 none
  cases x <;> cases leaves
  exact ⟨before, rfl, rfl⟩

namespace Loop

/-- The loop whose owner has absorbed `n` more signals. -/
def absorb (n : Nat) (l : Loop) : Loop := { l with owner := l.owner.absorb n }

variable {l : Loop} {o : Owner} {marked : List Marked}

/-- An owner has left by all of its acts just if it has left by those that are not spared. -/
theorem leftBy_whole (spare : o.Spares marked) (n : Nat) (ticket : Option Nat) :
    (l.absorb n).LeftBy (Marked.whole marked) ticket ↔
      l.LeftBy (Marked.plain marked) ticket := by
  constructor
  · rintro ⟨inbox, abandoned, done, checked, split, goesOn⟩
    obtain ⟨before, rfl, rfl⟩ := Marked.last_whole split
    have goesOn := spare.append_left.goesOn.1 goesOn
    exact ⟨inbox, abandoned, _, checked, List.filterMap_append, goesOn⟩
  · rintro ⟨inbox, abandoned, done, checked, split, goesOn⟩
    obtain ⟨before, rfl, rfl⟩ := spare.last rfl split
    have goesOn := spare.append_left.goesOn.2 goesOn
    exact ⟨inbox, abandoned, _, checked, List.map_append, goesOn⟩

/-- The loop can stand after the whole where it can stand after the run. -/
theorem standsAfter_whole (spare : o.Spares marked) (n : Nat) :
    (l.absorb n).StandsAfter (Marked.whole marked) ↔ l.StandsAfter (Marked.plain marked) := by
  obtain ⟨owner, inbox, phase, abandoned⟩ := l
  cases phase with
  | checking => exact spare.goesOn
  | parked => exact and_congr_left fun _ => spare.goesOn
  | closing ticket => exact leftBy_whole spare n ticket
  | ended => exact exists_congr fun ticket => leftBy_whole spare n ticket

end Loop

/-! ### Runs of the loop -/

section

variable {interval : Nat} {marked : List Marked} (spare : (Owner.new interval).Spares marked)

include spare

/-- The owner of the whole, from the start. -/
theorem Owner.after_whole_new :
    (Owner.new interval).after (Marked.whole marked) =
      ((Owner.new interval).after (Marked.plain marked)).absorb
        ((Owner.new interval).absorbed marked) := by
  have after := after_whole spare 0
  rwa [Nat.zero_add] at after

/-- The whole leads where the run leads, but for the signals that were absorbed. -/
theorem Run.reaches_whole (l : Loop) :
    Run.Reaches interval (Marked.whole marked) l ↔
      ∃ k, Run.Reaches interval (Marked.plain marked) k ∧
        l = k.absorb ((Owner.new interval).absorbed marked) := by
  have allowed := Owner.allowsAll_whole spare 0
  rw [Owner.absorb_zero] at allowed
  constructor
  · intro reached
    have history := reaches_iff_history.1 reached
    -- the loop of the run is that of the whole, with the owner of the run
    let k : Loop := { l with owner := (Owner.new interval).after (Marked.plain marked) }
    have same : l = k.absorb ((Owner.new interval).absorbed marked) := by
      rw [Loop.absorb, ← Owner.after_whole_new spare, ← history.owner]
    refine ⟨k, reaches_iff_history.2 ⟨rfl, allowed.1 history.allowed, ?_⟩, same⟩
    exact (Loop.standsAfter_whole spare _).1 (same ▸ history.stands)
  · rintro ⟨k, reached, rfl⟩
    have history := reaches_iff_history.1 reached
    refine reaches_iff_history.2 ⟨?_, allowed.2 history.allowed, ?_⟩
    · rw [Owner.after_whole_new spare, ← history.owner]
      rfl
    · exact (Loop.standsAfter_whole spare _).2 history.stands

end

/-- **Redundant commands are invisible.**  Put any redundant commands into the acts of a run, where
    no tick is due and the loop still goes on:

    * The loops that the whole leads to are those that the acts of the run lead to, but for the
      number of signals that were absorbed.
    * The ticks are the same, with all that they read.
    * At every point the owners are the same, but for this number.
    * For each act of the run the owner says the same.
    * For each command that is put in, at most a signal is absorbed, and only a start has something
      to say, which is to report the panel. -/
theorem redundant_commands_are_invisible (interval : Nat) (marked : List Marked)
    (spare : (Owner.new interval).Spares marked) :
    let absorbed := (Owner.new interval).absorbed
    (∀ l, Run.Reaches interval (Marked.whole marked) l ↔
      ∃ k, Run.Reaches interval (Marked.plain marked) k ∧ l = k.absorb (absorbed marked)) ∧
    (Marked.whole marked).filter Act.isTick = (Marked.plain marked).filter Act.isTick ∧
    (∀ done ahead, marked = done ++ ahead →
      (Owner.new interval).after (Marked.whole done) =
        ((Owner.new interval).after (Marked.plain done)).absorb (absorbed done)) ∧
    (∀ done a ahead, marked = done ++ .own a :: ahead →
      (((Owner.new interval).after (Marked.whole done)).perform a).2 =
        (((Owner.new interval).after (Marked.plain done)).perform a).2) ∧
    (∀ done checked m c ahead, marked = done ++ .extra checked m c :: ahead →
      let o := (Owner.new interval).after (Marked.whole done)
      o.perform (.handle checked m c) = (o.absorb (o.absorbs c), c.panelWords m)) := by
  intro absorbed
  refine ⟨Run.reaches_whole spare, Marked.filter_isTick_whole marked, ?_, ?_, ?_⟩
  · rintro done ahead rfl
    exact Owner.after_whole_new spare.append_left
  · rintro done a ahead rfl
    rw [Owner.after_whole_new spare.append_left, Owner.perform_absorb]
  · rintro done checked m c ahead rfl o
    -- where the command is handled, the owner is that of the plain run but for what it absorbed
    have redundant := spare.append_right.1
    have same : o = _ := Owner.after_whole_new spare.append_left
    rw [same, Owner.perform_redundant redundant, Owner.absorb_absorb]
    rfl

/-- Signals that find a tick pending, a start while tracking runs, and a stop and a signal when it
    does not run. -/
theorem redundant_commands_are_invisible_signals :
    let m (now : Instant) : Moment := ⟨now, [⟨⟨"a"⟩, true, none⟩]⟩
    let marked : List Marked :=
      [.own (.handle 0 (m 0) (.start false)), .own (.tick 0 (m 0)),
        .own (.handle 100 (m 100) .possibleChange), .extra 200 (m 200) .possibleChange,
        .extra 300 (m 300) (.start true), .extra 499 (m 501) .possibleChange,
        .own (.tick 502 (m 502)), .own (.handle 600 (m 600) .stop), .extra 700 (m 700) .stop,
        .extra 800 (m 800) .possibleChange, .own (.leave 900 (some 0))]
    let events : List Event :=
      [.sent (.start false), .sent .possibleChange, .sent .stop, .sent (.shutdown 0)] ++
        [0, 0, 0, 0, 100, 502, 502, 600, 900, 900].map fun now =>
          .turned .command (.still now (m now).candidates)
    (Owner.new 500).Spares marked ∧ (Run.of 500 events).acts = Marked.plain marked ∧
    ∃ others, (Run.of 500 others).acts = Marked.whole marked ∧
      (Run.of 500 others).loop = (Run.of 500 events).loop.absorb 2 := by
  intro m marked events
  have spare : (Owner.new 500).Spares marked := by decide +kernel
  have acts : (Run.of 500 events).acts = Marked.plain marked := by decide +kernel
  have absorbed : (Owner.new 500).absorbed marked = 2 := by decide +kernel
  obtain ⟨runs, -⟩ := redundant_commands_are_invisible 500 marked spare
  refine ⟨spare, acts, (runs _).2 ⟨_, ⟨events, acts, rfl⟩, ?_⟩⟩
  rw [absorbed]

end OnScreen
