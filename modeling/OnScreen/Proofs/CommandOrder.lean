import OnScreen.Proofs.Run

namespace OnScreen

/-!
# Commands are dealt with in order

The owner deals with the commands of its queue in the order in which they were taken, and with each
of them once, until it leaves its loop.  What is in the queue then is dropped.

* `Act.commands` — the commands that some acts deal with.
* `Loop.Serves`, `Loop.step_serves` — what a step of the loop does about its queue.
* `Run.takes`, `Run.tells` — the commands that an event adds to the queue, and the words that the
  owner says on it.
* `Run.Served`, `Run.next_served` — how acts, queue and commands taken fit; every event keeps this.
-/

namespace Act

/-- The command that an act deals with. -/
def command? : Act → Option Command
  | tick _ _ => none
  | handle _ _ c => some c
  | leave _ ticket => ticket.map .shutdown

/-- The commands that some acts deal with, in order. -/
def commands (acts : List Act) : List Command := acts.filterMap command?

@[simp] theorem commands_nil : commands [] = [] := rfl

/-- An act deals with its own command, or with none. -/
theorem commands_singleton (a : Act) : commands [a] = a.command?.toList := by
  unfold commands
  cases h : a.command? <;> simp [h]

theorem commands_append (xs ys : List Act) : commands (xs ++ ys) = commands xs ++ commands ys :=
  List.filterMap_append

/-- The commands around an act that deals with one. -/
theorem commands_split {done ahead : List Act} {a : Act} {c : Command} (h : a.command? = some c) :
    commands (done ++ a :: ahead) = commands done ++ c :: commands ahead := by
  rw [commands_append, commands, commands, List.filterMap_cons_some h]
  rfl

/-- A command is dealt with by an act of its own. -/
@[simp] theorem command?_ofCommand (r : Readings) (c : Command) :
    (ofCommand r c).command? = some c := by
  cases c <;> rfl

end Act

/-- A tick deals with no command. -/
@[simp] theorem Owner.commands_dueTick (o : Owner) (r : Readings) :
    Act.commands (o.dueTick r) = [] := by
  unfold dueTick
  split <;> rfl

namespace Loop

/-- What a step does about the queue: it does not touch it, it takes the first command, or it leaves
    the loop and drops what is queued. -/
inductive Serves (l : Loop) (acts : List Act) (next : Loop) : Prop
  | nobody (stays : next.isOpen = true) (inbox : next.inbox = l.inbox)
      (commands : Act.commands acts = [])
  | first {c : Command} (stays : next.isOpen = true) (other : ∀ ticket, c ≠ .shutdown ticket)
      (inbox : l.inbox = c :: next.inbox) (commands : Act.commands acts = [c])
  | leaves {done : List Act} {checked : Instant} {ticket : Option Nat}
      (phase : next.phase = .closing ticket) (dropped : next.inbox = [])
      (last : acts = done ++ [.leave checked ticket]) (idle : Act.commands done = [])
      (asked : (ticket.map Command.shutdown).toList <+: l.inbox)

/-- A step takes its command from the head of the queue, or leaves the queue alone. -/
theorem step_serves {branch : Branch} {r : Readings} {l next : Loop} {out : List Output}
    (h : l.step branch r = some (next, out)) : l.Serves (l.acts branch r) next := by
  obtain ⟨owner, inbox, phase, abandoned⟩ := l
  cases phase with
  | checking =>
    -- a tick that was due when the loop looked, or none: no command is dealt with
    simp only [step] at h
    split at h
    · cases h
      exact .nobody rfl rfl (owner.commands_dueTick r)
    · cases h
      exact .nobody rfl rfl (owner.commands_dueTick r)
  | parked =>
    cases branch with
    | deadline =>
      simp only [step] at h
      split at h
      · cases h
        exact .nobody rfl rfl rfl
      · cases h
    | command =>
      cases inbox with
      | cons c rest =>
        -- the command in front is dealt with, behind the tick that is due
        have commands : Act.commands (owner.dueTick r ++ [.ofCommand r c]) = [c] := by
          rw [Act.commands_split (Act.command?_ofCommand r c), Owner.commands_dueTick]
          rfl
        cases c with
        | shutdown ticket =>
          cases h
          exact .leaves rfl rfl rfl (owner.commands_dueTick r) ⟨rest, rfl⟩
        | _ =>
          cases h
          exact .first rfl (by simp) rfl commands
      | nil =>
        -- with nobody left, a loop that has nothing more to do is left
        simp only [step] at h
        split at h
        · next gone =>
          cases h
          have acts : acts .command r ⟨owner, [], .parked, abandoned⟩ =
              owner.dueTick r ++ [.leave r.checked none] := if_pos gone
          exact .leaves rfl rfl acts (owner.commands_dueTick r) List.prefix_rfl
        · cases h
  | closing ticket => cases h
  | ended => cases h

/-- Only a loop that takes commands makes steps. -/
theorem isOpen_of_step {branch : Branch} {r : Readings} {l next : Loop} {out : List Output}
    (h : l.step branch r = some (next, out)) : l.isOpen = true := by
  by_contra closed
  rw [step_of_closed (Bool.not_eq_true _ ▸ closed)] at h
  cases h

end Loop

namespace Run

/-- The commands that an event adds to the queue. -/
def takes (run : Run) : Event → List Command
  | .sent c => if run.loop.isOpen then [c] else []
  | .abandoned | .turned _ _ | .delivered => []

/-- Only a command that is sent is taken. -/
theorem eq_sent_of_mem_takes {run : Run} {e : Event} {c : Command} (h : c ∈ run.takes e) :
    e = .sent c := by
  cases e with
  | sent d =>
    simp only [takes] at h
    split at h
    · rw [List.mem_singleton.1 h]
    · cases h
  | abandoned | turned | delivered => cases h

/-- What the owner says on an event. -/
def tells (run : Run) : Event → List Output
  | .turned branch r => (run.loop.step branch r).elim [] Prod.snd
  | .sent _ | .abandoned | .delivered => []

/-- An event adds what it tells to what was said. -/
theorem next_said (run : Run) (e : Event) : (run.next e).said = run.said ++ run.tells e := by
  cases e with
  | sent c =>
    simp only [next, tells, List.append_nil]
    -- queueing a command says nothing, whether it is taken or not
    split <;> rfl
  | abandoned => exact (List.append_nil _).symm
  | turned branch r =>
    simp only [next, tells]
    cases run.loop.step branch r with
    | none => exact (List.append_nil _).symm
    | some result => rfl
  | delivered =>
    simp only [next, tells, List.append_nil]
    split <;> rfl

/-- Once the loop takes no more commands, nothing is done and nothing is said. -/
theorem next_of_closed {run : Run} (closed : run.loop.isOpen = false) (e : Event) :
    (run.next e).loop.isOpen = false ∧ (run.next e).acts = run.acts ∧ run.takes e = [] ∧
      run.tells e = [] := by
  cases e with
  | sent c => simp [next, takes, tells, Loop.send, closed]
  | abandoned => exact ⟨closed, rfl, rfl, rfl⟩
  | turned branch r =>
    -- a closed loop takes no step
    simp only [next, takes, tells, Loop.step_of_closed closed]
    exact ⟨closed, trivial, trivial, rfl⟩
  | delivered =>
    simp only [next, takes, tells]
    -- its end may come, which does not open it
    split
    · exact ⟨rfl, rfl, trivial, trivial⟩
    all_goals exact ⟨closed, rfl, trivial, trivial⟩

/-- An owner that is gone stays away. -/
theorem next_ended {run : Run} (ended : run.loop.phase = .ended) (e : Event) :
    (run.next e).loop.phase = .ended := by
  have closed : run.loop.isOpen = false := by rw [Loop.isOpen, ended]
  cases e with
  | sent c => simpa [next, Loop.send, closed] using ended
  | abandoned => exact ended
  | turned branch r => simpa [next, Loop.step_of_closed closed] using ended
  | delivered => simp [next, ended]

/-- The commands `taken` were dealt with or are queued, in order, until the owner has left, and it
    leaves as soon as it deals with a shutdown. -/
structure Served (taken : List Command) (run : Run) : Prop where
  begun : Act.commands run.acts <+: taken
  queued : run.loop.isOpen = true → taken = Act.commands run.acts ++ run.loop.inbox
  left : run.loop.isOpen = false → run.loop.inbox = [] ∧
    ∃ done checked ticket, run.acts = done ++ [.leave checked ticket] ∧
      (run.loop.phase = .closing ticket ∨ run.loop.phase = .ended)
  last : ∀ before ticket later, Act.commands run.acts = before ++ .shutdown ticket :: later →
    later = [] ∧ run.loop.isOpen = false ∧
      ∃ done checked, run.acts = done ++ [.leave checked (some ticket)]

/-- Nothing was taken and nothing is queued. -/
theorem start_served (interval : Nat) : (start interval).Served [] where
  begun := List.prefix_rfl
  queued _ := rfl
  left := nofun
  last _ _ _ none := absurd (congrArg List.length none) (by simp [start])

/-- As long as commands are taken, no shutdown was dealt with. -/
theorem Served.shutdown_not_mem {taken : List Command} {run : Run} (h : run.Served taken)
    (hopen : run.loop.isOpen = true) (ticket : Nat) :
    .shutdown ticket ∉ Act.commands run.acts := by
  intro dealt
  obtain ⟨before, later, split⟩ := List.append_of_mem dealt
  have closed := (h.last before ticket later split).2.1
  rw [hopen] at closed
  cases closed

/-- While commands are taken, it is enough that none was lost and that no shutdown was dealt
    with. -/
theorem served_of_open {taken : List Command} {run : Run} (hopen : run.loop.isOpen = true)
    (queued : taken = Act.commands run.acts ++ run.loop.inbox)
    (going : ∀ ticket, .shutdown ticket ∉ Act.commands run.acts) : run.Served taken where
  begun := ⟨run.loop.inbox, queued.symm⟩
  queued _ := queued
  left closed := absurd hopen (by simp [closed])
  last before ticket later split :=
    absurd (split ▸ List.mem_append_right before List.mem_cons_self) (going ticket)

/-- A command that is sent joins the queue behind all that were taken before. -/
theorem Served.sent {taken : List Command} {run : Run} (h : run.Served taken) (c : Command) :
    (run.next (.sent c)).Served (taken ++ run.takes (.sent c)) := by
  simp only [next, takes, Loop.send]
  by_cases hopen : run.loop.isOpen = true
  · rw [if_pos hopen, if_pos hopen]
    refine served_of_open hopen ?_ (h.shutdown_not_mem hopen)
    rw [h.queued hopen, List.append_assoc]
  · rw [if_neg hopen, if_neg hopen, List.append_nil]
    exact h

/-- When the owner leaves, the shutdown that asked for it, if one did, was the last command. -/
theorem Served.leaves {taken : List Command} {run : Run} (h : run.Served taken)
    (hopen : run.loop.isOpen = true) {acts done : List Act} {loop : Loop} {checked : Instant}
    {ticket : Option Nat} (phase : loop.phase = .closing ticket) (dropped : loop.inbox = [])
    (last : acts = done ++ [.leave checked ticket]) (idle : Act.commands done = [])
    (asked : (ticket.map Command.shutdown).toList <+: run.loop.inbox) (said : List Output) :
    Served taken ⟨loop, run.acts ++ acts, said⟩ := by
  have closed : loop.isOpen = false := by rw [Loop.isOpen, phase]
  have all : run.acts ++ acts = (run.acts ++ done) ++ [.leave checked ticket] := by
    rw [last, List.append_assoc]
  have grown : Act.commands (run.acts ++ acts) =
      Act.commands run.acts ++ (ticket.map Command.shutdown).toList := by
    rw [all, Act.commands_append, Act.commands_append, idle, List.append_nil]
    cases ticket <;> rfl
  refine ⟨?_, fun stays => ?_, fun _ => ⟨dropped, run.acts ++ done, checked, ticket, all,
    .inl phase⟩, fun earlier asker later split => ?_⟩
  · show Act.commands (run.acts ++ acts) <+: taken
    rw [grown, h.queued hopen]
    exact (List.prefix_append_right_inj _).2 asked
  · exact absurd stays (by simp [closed])
  · have split : Act.commands (run.acts ++ acts) = earlier ++ .shutdown asker :: later := split
    have before := h.shutdown_not_mem hopen asker
    rw [grown] at split
    cases ticket with
    | none =>
      rw [Option.map_none, Option.toList_none, List.append_nil] at split
      exact absurd (split ▸ List.mem_append_right _ List.mem_cons_self) before
    | some ticket =>
      -- no shutdown was dealt with before, so it is the one at the end
      obtain ⟨-, same, rest⟩ := (List.append_cons_inj_of_notMem before List.not_mem_nil).1 split
      cases same
      exact ⟨rest.symm, closed, run.acts ++ done, checked, all⟩

/-- A turn deals with the command at the head of the queue, or takes leave of all of them. -/
theorem Served.turned {taken : List Command} {run : Run} (h : run.Served taken) (branch : Branch)
    (r : Readings) : (run.next (.turned branch r)).Served taken := by
  simp only [next]
  cases step : run.loop.step branch r with
  | none => exact h
  | some result =>
    obtain ⟨loop, out⟩ := result
    have hopen := Loop.isOpen_of_step step
    have queued := h.queued hopen
    have before := h.shutdown_not_mem hopen
    -- a step deals with no command, with the first one of the queue, or with the last of all
    cases Loop.step_serves step with
    | nobody stays inbox commands =>
      have same : Act.commands (run.acts ++ run.loop.acts branch r) = Act.commands run.acts := by
        rw [Act.commands_append, commands, List.append_nil]
      refine served_of_open stays ?_ ?_
      · rw [queued, same, inbox]
      · exact same ▸ before
    | @first c stays other inbox commands =>
      have grown : Act.commands (run.acts ++ run.loop.acts branch r) =
          Act.commands run.acts ++ [c] := by
        rw [Act.commands_append, commands]
      refine served_of_open stays ?_ fun ticket dealt => ?_
      · rw [queued, grown, inbox, List.append_assoc, List.singleton_append]
      · rw [grown] at dealt
        rcases List.mem_append.1 dealt with old | new
        · exact before ticket old
        · exact other ticket (List.mem_singleton.1 new).symm
    | leaves phase dropped last idle asked => exact h.leaves hopen phase dropped last idle asked _

/-- Every event keeps the commands in order. -/
theorem next_served {taken : List Command} {run : Run} (h : run.Served taken) (e : Event) :
    (run.next e).Served (taken ++ run.takes e) := by
  cases e with
  | sent c => exact h.sent c
  | abandoned =>
    rw [takes, List.append_nil]
    exact ⟨h.begun, h.queued, h.left, h.last⟩
  | turned branch r =>
    rw [takes, List.append_nil]
    exact h.turned branch r
  | delivered =>
    rw [takes, List.append_nil]
    simp only [next]
    cases phase : run.loop.phase with
    | closing ticket =>
      -- the end of a closed loop changes its phase, and nothing that was served
      have closed : run.loop.isOpen = false := by rw [Loop.isOpen, phase]
      obtain ⟨dropped, done, checked, ticket, last, -⟩ := h.left closed
      refine ⟨h.begun, fun stays => ?_, fun _ => ⟨dropped, done, checked, ticket, last, .inr rfl⟩,
        fun before ticket later split => ?_⟩
      · cases stays
      · obtain ⟨rest, -, left⟩ := h.last before ticket later split
        exact ⟨rest, rfl, left⟩
    | checking | parked | ended => exact h

end Run

end OnScreen
