import Mathlib.Data.List.Basic
import OnScreen.Proofs.CommandOrder

namespace OnScreen

/-!
# It does not matter which wait is over first

When a command and the deadline are there at once, either may wake the owner.  A deadline that wins
leads back to the look at the deadline, where the tick runs, and the command is next; a command that
wins lets the tick run first.  So both ways lead to the same place, and whatever is picked from then
on, the owner does the same things.

* `Loop.isReady` — whether a step can be made through a branch.
* `Run.chosen`, `Run.through` — one step, through the picked branch if that is ready and else
  through the other one, and many such steps.
* `Loop.stepsLeft` — how many steps there are at most until the owner rests.
* `Run.chosen_detour` — the two ways from a point where both branches are ready.
* `any_choice_comes_to_the_same` — the same for all picks on the way.
-/

/-- The other one of the two branches. -/
def Branch.other : Branch → Branch
  | command => deadline
  | deadline => command

namespace Loop

/-! ### Which branches are ready -/

/-- Whether a step can be made through a branch.  Looking at the deadline needs none. -/
def isReady (l : Loop) (now : Instant) (branch : Branch) : Bool :=
  match l.phase, branch with
  | .checking, _ => true
  | .parked, .deadline => l.owner.schedule.isDue now
  | .parked, .command => !l.inbox.isEmpty || l.abandoned
  | .closing _, _ | .ended, _ => false

/-- A step can be made just if its branch is ready. -/
theorem isSome_step (l : Loop) (branch : Branch) (r : Readings) :
    (l.step branch r).isSome = l.isReady r.checked branch := by
  obtain ⟨owner, inbox, phase, abandoned⟩ := l
  cases phase with
  | checking =>
    simp only [step, isReady]
    split <;> rfl
  | parked =>
    cases branch with
    | deadline =>
      simp only [step, isReady]
      split
      · next due => exact due.symm
      · next idle => exact (Bool.eq_false_iff.2 idle).symm
    | command =>
      cases inbox with
      -- a command can always be taken; an empty queue ends the loop if nobody is left
      | cons c rest => rfl
      | nil => cases abandoned <;> rfl
  | closing ticket => rfl
  | ended => rfl

/-- The owner can do nothing by itself at that time. -/
def Rests (l : Loop) (now : Instant) : Prop := ∀ branch, l.isReady now branch = false

/-- A command, or the news that none will come, and the deadline are there at once. -/
def BothReady (l : Loop) (now : Instant) : Prop :=
  l.phase = .parked ∧ l.isReady now .command = true ∧ l.isReady now .deadline = true

/-- Nothing wakes the owner of a loop that was left. -/
theorem isReady_of_closed {l : Loop} (closed : l.isOpen = false) (now : Instant)
    (branch : Branch) : l.isReady now branch = false := by
  obtain ⟨owner, inbox, phase, abandoned⟩ := l
  cases phase with
  | checking | parked => cases closed
  | closing ticket | ended => rfl

/-- At rest nothing is left in the queue of a loop that takes commands. -/
theorem Rests.inbox_eq_nil {l : Loop} {now : Instant} (rests : l.Rests now)
    (hopen : l.isOpen = true) : l.inbox = [] := by
  have command := rests .command
  obtain ⟨owner, inbox, phase, abandoned⟩ := l
  cases phase with
  | checking => cases command
  | parked =>
    have empty : inbox.isEmpty = true ∧ abandoned = false := by simpa [isReady] using command
    exact List.isEmpty_iff.1 empty.1
  | closing ticket | ended => cases hopen

/-- A loop that is left drops what is in its queue. -/
theorem inbox_eq_nil_of_step {l next : Loop} {branch : Branch} {r : Readings} {out : List Output}
    (h : l.step branch r = some (next, out)) (closed : next.isOpen = false) : next.inbox = [] := by
  cases step_serves h with
  | nobody stays | first stays =>
    rw [closed] at stays
    cases stays
  | leaves phase dropped => exact dropped

/-! ### How many steps are left -/

/-- An upper bound for the steps until the owner rests: each command costs three, itself, the tick
    that it may signal and a look at the deadline. -/
def stepsLeft (l : Loop) (now : Instant) : Nat :=
  match l.phase with
  | .checking => 3 * l.inbox.length + if l.owner.schedule.isDue now then 3 else 2
  | .parked => 3 * l.inbox.length + if l.owner.schedule.isDue now then 4 else 1
  | .closing _ | .ended => 0

/-- There are no more steps left than are allowed for. -/
theorem stepsLeft_le_work (l : Loop) (now : Instant) : l.stepsLeft now ≤ l.work := by
  unfold stepsLeft work
  split
  · split <;> omega
  · split <;> omega
  · omega
  · omega

/-- A command that is taken is gone, whatever it may have signalled. -/
theorem stepsLeft_of_command {l next : Loop} {r : Readings} {out : List Output}
    (parked : l.phase = .parked) (h : l.step .command r = some (next, out)) :
    next.stepsLeft r.checked ≤ 3 * l.inbox.length := by
  obtain ⟨owner, inbox, phase, abandoned⟩ := l
  cases parked
  -- the steps of the command that is taken are enough for the look at the deadline behind it
  have checking : ∀ (o : Owner) (rest : List Command),
      stepsLeft ⟨o, rest, .checking, abandoned⟩ r.checked ≤ 3 * (rest.length + 1) := by
    intro o rest
    simp only [stepsLeft]
    split <;> omega
  cases inbox with
  | cons c rest =>
    cases c with
    | shutdown ticket =>
      cases h
      exact Nat.zero_le _
    | _ =>
      cases h
      exact checking _ rest
  | nil =>
    simp only [step] at h
    split at h
    · cases h
      exact Nat.zero_le _
    · cases h

/-- Every step brings the rest nearer. -/
theorem stepsLeft_of_step {l next : Loop} {branch : Branch} {r : Readings} {out : List Output}
    (h : l.step branch r = some (next, out)) :
    next.stepsLeft r.checked < l.stepsLeft r.checked := by
  obtain ⟨owner, inbox, phase, abandoned⟩ := l
  cases phase with
  | checking =>
    simp only [step] at h
    split at h
    · next due =>
      cases h
      -- a tick takes the deadline away
      have past : (owner.tick r.tick.now r.tick.candidates).1.schedule.isDue r.checked = false := rfl
      simp [stepsLeft, due, past]
    · next idle =>
      cases h
      simp [stepsLeft, idle]
  | parked =>
    cases branch with
    | deadline =>
      simp only [step] at h
      split at h
      · next due =>
        cases h
        simp [stepsLeft, due]
      · cases h
    | command =>
      have room : 3 * inbox.length < stepsLeft ⟨owner, inbox, .parked, abandoned⟩ r.checked := by
        simp only [stepsLeft]
        split <;> omega
      exact Nat.lt_of_le_of_lt (stepsLeft_of_command rfl h) room
  | closing ticket => cases h
  | ended => cases h

/-! ### The tick by itself, or in front of a command -/

/-- A parked loop that a command wakes up goes on from a tick that was due as if that had run by
    itself before. -/
theorem step_of_ticked {o : Owner} (inbox : List Command) (abandoned : Bool) {r later : Readings}
    {tick : Act} (due : o.dueTick r = [tick]) (past : (o.perform tick).1.dueTick later = [])
    (looked : later.checked = r.checked) (moment : later.command = r.command) :
    let l : Loop := ⟨o, inbox, .parked, abandoned⟩
    let ticked : Loop := ⟨(o.perform tick).1, inbox, .parked, abandoned⟩
    l.step .command r =
        (ticked.step .command later).map (fun (next, out) => (next, (o.perform tick).2 ++ out)) ∧
      (l.isReady r.checked .command = true →
        l.acts .command r = tick :: ticked.acts .command later) := by
  intro l ticked
  -- the tick that is due runs inside the step or in front of it; the command follows in both
  cases inbox with
  | cons c rest =>
    refine ⟨?_, fun _ => ?_⟩
    · simp only [l, ticked, step, receive, Owner.tickIfDue_eq, due, past, Owner.after_singleton,
        Owner.said_singleton, Owner.after_nil, Owner.said_nil, moment, List.nil_append,
        Option.map_some]
      cases c with
      | shutdown ticket => rfl
      | _ => rfl
    · have same : Act.ofCommand r c = Act.ofCommand later c := by
        cases c <;> simp only [Act.ofCommand, looked, moment]
      simp only [l, ticked, acts, due, past, same]
      rfl
  | nil =>
    cases abandoned with
    | true =>
      refine ⟨?_, fun _ => ?_⟩
      · simp only [l, ticked, step, Owner.tickIfDue_eq, due, past, Owner.after_singleton,
          Owner.said_singleton, Owner.after_nil, Owner.said_nil, List.nil_append, if_pos,
          Option.map_some]
      · simp only [l, ticked, acts, due, past, looked, if_pos]
        rfl
    | false =>
      -- with nothing queued and somebody left there is no step to compare
      refine ⟨rfl, fun ready => ?_⟩
      cases ready

end Loop

namespace Run

/-! ### Steps with a choice -/

variable (now : Instant) (lists : List Act → List Candidate)

/-- What the owner reads while the clock stands still: the list is the one that stands after what
    it has done so far. -/
def readings (run : Run) : Readings :=
  let tick : Moment := ⟨now, lists run.acts⟩
  let ticked := run.acts ++ run.loop.owner.dueTick (.still now tick.candidates)
  ⟨now, tick, ⟨now, lists ticked⟩⟩

/-- The branch that is taken: the picked one if it is ready, and else the other one. -/
def taken (run : Run) (pick : Branch) : Branch :=
  if run.loop.isReady now pick then pick else pick.other

/-- One step through the branch that is taken. -/
def chosen (run : Run) (pick : Branch) : Run :=
  run.next (.turned (run.taken now pick) (run.readings now lists))

/-- A step for each of some picks. -/
def through (run : Run) (picks : List Branch) : Run := picks.foldl (chosen now lists) run

variable {now lists} {run : Run}

/-- An owner that rests goes on resting. -/
theorem chosen_of_rests (rests : run.loop.Rests now) (pick : Branch) :
    run.chosen now lists pick = run := by
  have stuck : ∀ branch, run.loop.step branch (run.readings now lists) = none := by
    intro branch
    have none := run.loop.isSome_step branch (run.readings now lists)
    rw [show (run.readings now lists).checked = now from rfl, rests branch] at none
    exact Option.isSome_eq_false_iff.1 none |> Option.isNone_iff_eq_none.1
  simp only [chosen, next, stuck]

/-- Where nothing can be picked, picking changes nothing. -/
theorem through_of_rests (rests : run.loop.Rests now) (picks : List Branch) :
    run.through now lists picks = run := by
  induction picks with
  | nil => rfl
  | cons pick rest ih =>
    rw [through, List.foldl_cons, chosen_of_rests rests]
    exact ih

/-- Unless the owner rests, the branch that is taken is ready. -/
theorem isReady_taken (busy : ¬run.loop.Rests now) (pick : Branch) :
    run.loop.isReady now (run.taken now pick) = true := by
  unfold taken
  split
  · next ready => exact ready
  · next idle =>
    by_contra none
    -- neither the picked branch nor the other one is ready
    refine busy fun branch => ?_
    rw [Bool.not_eq_true] at idle none
    cases pick <;> cases branch <;> assumption

/-- A step through a branch that is ready. -/
theorem chosen_of_taken {pick branch : Branch} (taken : run.taken now pick = branch)
    {next : Loop} {out : List Output}
    (step : run.loop.step branch (run.readings now lists) = some (next, out)) :
    run.chosen now lists pick =
      ⟨next, run.acts ++ run.loop.acts branch (run.readings now lists), run.said ++ out⟩ := by
  simp only [chosen, taken, Run.next, step]

variable (lists) in
/-- Unless the owner rests, a step is made. -/
theorem exists_step (busy : ¬run.loop.Rests now) (pick : Branch) :
    ∃ next out, run.loop.step (run.taken now pick) (run.readings now lists) = some (next, out) := by
  have some := run.loop.isSome_step (run.taken now pick) (run.readings now lists)
  rw [show (run.readings now lists).checked = now from rfl, isReady_taken busy pick] at some
  obtain ⟨⟨next, out⟩, step⟩ := Option.isSome_iff_exists.1 some
  exact ⟨next, out, step⟩

variable (lists) in
/-- Unless the owner rests, a step brings the rest nearer, and drops the queue if it leaves the
    loop. -/
theorem stepsLeft_chosen (busy : ¬run.loop.Rests now) (pick : Branch) :
    (run.chosen now lists pick).loop.stepsLeft now < run.loop.stepsLeft now ∧
      ((run.chosen now lists pick).loop.isOpen = false →
        (run.chosen now lists pick).loop.inbox = []) := by
  obtain ⟨next, out, step⟩ := exists_step lists busy pick
  rw [chosen_of_taken rfl step]
  exact ⟨Loop.stepsLeft_of_step step, Loop.inbox_eq_nil_of_step step⟩

/-- A command that wins against the deadline spares at least the steps of the detour. -/
theorem stepsLeft_of_bothReady (both : run.loop.BothReady now) :
    (run.chosen now lists .command).loop.stepsLeft now + 4 ≤ run.loop.stepsLeft now := by
  obtain ⟨parked, command, deadline⟩ := both
  have due : run.loop.owner.schedule.isDue now = true := by
    simpa [Loop.isReady, parked] using deadline
  have busy : ¬run.loop.Rests now := fun rests => by simp [rests .command] at command
  obtain ⟨next, out, step⟩ := exists_step lists busy .command
  have taken : run.taken now .command = .command := if_pos command
  rw [chosen_of_taken rfl step]
  rw [taken] at step
  -- the command's step runs the due tick as well, so the four steps of the tick are saved
  have gone : next.stepsLeft now ≤ 3 * run.loop.inbox.length :=
    Loop.stepsLeft_of_command parked step
  have room : run.loop.stepsLeft now = 3 * run.loop.inbox.length + 4 := by
    rw [Loop.stepsLeft, parked, due]
    rfl
  rw [room]
  exact Nat.add_le_add_right gone 4

/-- Where not both branches are ready, it does not matter which is picked. -/
theorem chosen_eq (alone : ¬run.loop.BothReady now) (pick other : Branch) :
    run.chosen now lists pick = run.chosen now lists other := by
  by_cases busy : run.loop.Rests now
  · rw [chosen_of_rests busy, chosen_of_rests busy]
  · cases phase : run.loop.phase with
    | checking =>
      -- a look at the deadline does not ask which branch is taken
      simp only [chosen, next, Loop.step, Loop.acts, phase]
    | parked =>
      have one := isReady_taken busy pick
      have two := isReady_taken busy other
      have same : run.taken now pick = run.taken now other := by
        by_contra differ
        refine alone ⟨phase, ?_⟩
        cases h : run.taken now pick <;> cases h' : run.taken now other <;> simp_all
      rw [chosen, chosen, same]
    | closing ticket | ended =>
      have rests : run.loop.Rests now := fun branch => by simp [Loop.isReady, phase]
      exact absurd rests busy

/-- Where both branches are ready, a deadline that wins takes three more steps to the point to which
    the command would have led at once, whatever is picked for them. -/
theorem chosen_detour (both : run.loop.BothReady now) (x y z : Branch) :
    run.through now lists [.deadline, x, y, z] = run.chosen now lists .command := by
  obtain ⟨⟨owner, inbox, phase, abandoned⟩, acts, said⟩ := run
  obtain ⟨parked, command, due⟩ := both
  cases parked
  have due : owner.schedule.isDue now = true := due
  let start : Run := ⟨⟨owner, inbox, .parked, abandoned⟩, acts, said⟩
  let tick : Act := .tick now ⟨now, lists acts⟩
  let ticked : Phase → Run := fun phase =>
    ⟨⟨(owner.perform tick).1, inbox, phase, abandoned⟩, acts ++ [tick],
      said ++ (owner.perform tick).2⟩
  have past : (owner.perform tick).1.schedule.isDue now = false := rfl
  -- the owner looks at its deadline, ticks, and finds nothing due any more
  have awake : start.chosen now lists .deadline =
      ⟨⟨owner, inbox, .checking, abandoned⟩, acts, said⟩ := by
    simp [start, chosen, taken, Loop.isReady, next, Loop.step, Loop.acts, readings, due]
  have runs : chosen now lists ⟨⟨owner, inbox, .checking, abandoned⟩, acts, said⟩ x =
      ticked .checking := by
    simp [ticked, chosen, next, Loop.step, Loop.acts, readings, Owner.dueTick, Owner.perform, tick,
      due]
  have parks : (ticked .checking).chosen now lists y = ticked .parked := by
    simp [ticked, chosen, next, Loop.step, Loop.acts, readings, Owner.dueTick, past]
  have path : start.through now lists [.deadline, x, y, z] =
      (ticked .parked).chosen now lists z := by
    rw [through, List.foldl_cons, awake, List.foldl_cons, runs, List.foldl_cons, parks,
      List.foldl_cons, List.foldl_nil]
  -- now only the command is ready, and it finds what it would have found at once
  have picked : (ticked .parked).taken now z = .command := by
    cases z
    · exact if_pos command
    · rfl
  have early : owner.dueTick (start.readings now lists) = [tick] := if_pos due
  have later : (owner.perform tick).1.dueTick ((ticked .parked).readings now lists) = [] := rfl
  have moment : ((ticked .parked).readings now lists).command =
      (start.readings now lists).command := by
    have before : owner.dueTick (.still now (lists acts)) = [tick] := if_pos due
    have after : (owner.perform tick).1.dueTick (.still now (lists (acts ++ [tick]))) = [] := rfl
    simp only [readings, start, ticked, before, after, List.append_nil]
  obtain ⟨step, same⟩ := Loop.step_of_ticked inbox abandoned early later rfl moment
  obtain ⟨⟨next, out⟩, stepped⟩ := Option.isSome_iff_exists.1
    (((ticked .parked).loop.isSome_step .command
      ((ticked .parked).readings now lists)).trans command)
  show start.through now lists [.deadline, x, y, z] = start.chosen now lists .command
  rw [path, chosen_of_taken picked stepped,
    chosen_of_taken (if_pos command) (step.trans (congrArg _ stepped)), same command]
  simp [ticked]

/-! ### Many steps -/

variable (now lists)

/-- However the branches are picked, the owner comes to rest, and always in the same way. -/
theorem exists_rest (run : Run) (tidy : run.loop.isOpen = false → run.loop.inbox = []) :
    ∃ final : Run, final.loop.Rests now ∧ final.loop.inbox = [] ∧
      ∀ picks, run.loop.stepsLeft now ≤ picks.length → run.through now lists picks = final := by
  -- the induction is on the steps that are left
  induction left : run.loop.stepsLeft now using Nat.strongRecOn generalizing run with
  | ind n ih =>
    by_cases rests : run.loop.Rests now
    · refine ⟨run, rests, ?_, fun picks _ => through_of_rests rests picks⟩
      cases hopen : run.loop.isOpen with
      | true => exact rests.inbox_eq_nil hopen
      | false => exact tidy hopen
    · let next := run.chosen now lists .command
      obtain ⟨nearer, dropped⟩ := stepsLeft_chosen lists rests .command
      have nearer : next.loop.stepsLeft now < n := left ▸ nearer
      obtain ⟨final, quiet, empty, same⟩ := ih _ nearer next dropped rfl
      refine ⟨final, quiet, empty, fun picks long => ?_⟩
      by_cases both : run.loop.BothReady now
      · have room : next.loop.stepsLeft now + 4 ≤ n := left ▸ stepsLeft_of_bothReady both
        match picks, long with
        | .command :: rest, long =>
          have long : n ≤ rest.length + 1 := long
          exact same rest (by omega)
        | .deadline :: x :: y :: z :: rest, long =>
          have long : n ≤ rest.length + 4 := long
          have detour : run.through now lists (.deadline :: x :: y :: z :: rest) =
              next.through now lists rest := by
            show (run.through now lists [.deadline, x, y, z]).through now lists rest = _
            rw [chosen_detour both x y z]
          rw [detour]
          exact same rest (by omega)
        | [], long | [.deadline], long | [.deadline, _], long | [.deadline, _, _], long =>
          simp only [List.length_cons, List.length_nil] at long
          omega
      · match picks, long with
        | pick :: rest, long =>
          have long : n ≤ rest.length + 1 := long
          have first : run.through now lists (pick :: rest) = next.through now lists rest := by
            rw [through, List.foldl_cons, chosen_eq both pick .command]
            rfl
          rw [first]
          exact same rest (by omega)
        | [], long =>
          simp only [List.length_nil] at long
          omega

end Run

/-- **It does not matter which wait is over first.**  From any owner with any commands in its queue,
    while the clock stands still: where a command and the deadline are there at once, either of
    them may wake the owner; and whatever is picked there and later on, the owner comes to rest with
    an empty queue after a bounded number of steps, and has then done the same acts in the same
    order, has said the same, and is the same. -/
theorem any_choice_comes_to_the_same (run : Run) (now : Instant)
    (lists : List Act → List Candidate) :
    (run.loop.BothReady now → ∀ pick, run.taken now pick = pick ∧
      (run.loop.step pick (run.readings now lists)).isSome = true) ∧
    ∃ final : Run, final.loop.Rests now ∧ (run.loop.isOpen = true → final.loop.inbox = []) ∧
      ∀ picks, run.loop.work ≤ picks.length → run.through now lists picks = final := by
  refine ⟨fun both pick => ?_, ?_⟩
  · have ready : run.loop.isReady now pick = true := by
      cases pick with
      | command => exact both.2.1
      | deadline => exact both.2.2
    exact ⟨if_pos ready, (run.loop.isSome_step pick _).trans ready⟩
  · cases hopen : run.loop.isOpen with
    | true =>
      obtain ⟨final, rests, empty, same⟩ := Run.exists_rest now lists run (by simp [hopen])
      refine ⟨final, rests, fun _ => empty, fun picks long => same picks ?_⟩
      exact Nat.le_trans (run.loop.stepsLeft_le_work now) long
    | false =>
      -- a loop that was left has nothing to do
      have rests : run.loop.Rests now := fun branch => run.loop.isReady_of_closed hopen now branch
      exact ⟨run, rests, nofun, fun picks _ => Run.through_of_rests rests picks⟩

-- the deadline has come while a change and the order to stop wait in the queue
example :
    let m : Moment := ⟨700, [⟨⟨"a"⟩, true, none⟩]⟩
    let owner : Owner :=
      { Owner.new 500 with started := true, schedule := ⟨500, some 0, some 500, 0⟩ }
    let run : Run := ⟨⟨owner, [.possibleChange, .stop], .parked, false⟩, [], []⟩
    run.loop.BothReady 700 ∧
      ∀ pick, (run.through 700 (fun _ => m.candidates) (.replicate 12 pick)).acts =
        [.tick 700 m, .handle 700 m .possibleChange, .handle 700 m .stop] := by
  intro m owner run
  refine ⟨⟨rfl, rfl, by decide⟩, fun pick => ?_⟩
  cases pick <;> decide +kernel

end OnScreen
