import Mathlib.Data.List.Induction
import OnScreen.Proofs.LastCommand

namespace OnScreen

/-!
# Which acts a loop can go through

The acts of a run are allowed, one after the other, and the owner leaves at most once and last.
This is all there is to know about them: acts like this are those of some run, and wherever a loop
can stand after them, with whatever in its queue, some run with these acts ends there.

* `Loop.StandsAfter`, `Loop.StandsAfter.step` — where a loop can stand after some acts, and how its
  steps go along with this.
* `Run.History`, `Run.history_of` — the acts may have led to the loop; those of a run have.
* `Run.Reaches` — the acts lead to the loop in some run.
* `Run.Reaches.perform`, `Run.Reaches.leave` — a run can be led to one more act.
* `Run.reaches_iff_history` — a loop is reached through its histories, and through nothing else.
-/

/-- The loop goes on after the act. -/
def Act.goesOn : Act → Bool
  | tick _ _ => true
  | handle _ _ c => !c.shutsDown
  | leave _ _ => false

/-- A due tick is not the end. -/
theorem Owner.goesOn_dueTick (o : Owner) (r : Readings) : ∀ a ∈ o.dueTick r, a.goesOn = true := by
  unfold dueTick
  split <;> simp [Act.goesOn]

/-- Where nothing is due no tick runs. -/
theorem Owner.tickIfDue_of_idle {o : Owner} {checked : Instant}
    (idle : o.schedule.isDue checked = false) (now : Instant) (candidates : List Candidate) :
    o.tickIfDue checked now candidates = (o, []) := if_neg (by simp [idle])

/-- And there is no act to tell of it. -/
theorem Owner.dueTick_of_idle {o : Owner} {r : Readings}
    (idle : o.schedule.isDue r.checked = false) : o.dueTick r = [] := if_neg (by simp [idle])

namespace Loop

/-- The owner has left in the last of the acts, because nobody was left or because somebody asked
    for it. -/
structure LeftBy (l : Loop) (acts : List Act) (ticket : Option Nat) : Prop where
  inbox : l.inbox = []
  abandoned : ticket = none → l.abandoned = true
  last : ∃ done checked, acts = done ++ [.leave checked ticket] ∧ ∀ a ∈ done, a.goesOn = true

/-- The loop can stand where it stands after the acts.  It parks only when nothing is due. -/
def StandsAfter (l : Loop) (acts : List Act) : Prop :=
  match l.phase with
  | .checking => ∀ a ∈ acts, a.goesOn = true
  | .parked => (∀ a ∈ acts, a.goesOn = true) ∧ ∃ checked, l.owner.schedule.isDue checked = false
  | .closing ticket => l.LeftBy acts ticket
  | .ended => ∃ ticket, l.LeftBy acts ticket

/-- A command that is received leaves the loop where its act says. -/
theorem standsAfter_receive (l : Loop) {r : Readings} {acts : List Act}
    (goesOn : ∀ a ∈ acts, a.goesOn = true) (c : Command) :
    (l.receive r c).1.StandsAfter (acts ++ (l.owner.dueTick r ++ [.ofCommand r c])) := by
  have ticked : ∀ a ∈ acts ++ l.owner.dueTick r, a.goesOn = true :=
    List.forall_mem_append.2 ⟨goesOn, l.owner.goesOn_dueTick r⟩
  rw [← List.append_assoc]
  cases c with
  | shutdown ticket => exact ⟨rfl, nofun, _, _, rfl, ticked⟩
  | _ =>
    refine List.forall_mem_append.2 ⟨ticked, ?_⟩
    simp [Act.ofCommand, Act.goesOn, Command.shutsDown]

/-- A step leads to where its acts say. -/
theorem StandsAfter.step {l next : Loop} {acts : List Act} (h : l.StandsAfter acts)
    {branch : Branch} {r : Readings} {out : List Output}
    (step : l.step branch r = some (next, out)) :
    next.StandsAfter (acts ++ l.acts branch r) := by
  obtain ⟨owner, inbox, phase, abandoned⟩ := l
  cases phase with
  | checking =>
    have ticked : ∀ a ∈ acts ++ owner.dueTick r, a.goesOn = true :=
      List.forall_mem_append.2 ⟨h, owner.goesOn_dueTick r⟩
    simp only [Loop.step] at step
    split at step
    · cases step
      exact ticked
    · next idle =>
      -- this is how the owner parks
      cases step
      exact ⟨ticked, r.checked, by simpa using idle⟩
  | parked =>
    obtain ⟨goesOn, -⟩ := h
    cases branch with
    | deadline =>
      simp only [Loop.step] at step
      split at step
      · cases step
        exact List.forall_mem_append.2 ⟨goesOn, List.forall_mem_nil _⟩
      · cases step
    | command =>
      cases inbox with
      | cons c rest =>
        have received := standsAfter_receive ⟨owner, rest, .parked, abandoned⟩ (r := r) goesOn c
        simp only [Loop.step, Option.some.injEq] at step
        rw [step] at received
        exact received
      | nil =>
        simp only [Loop.step] at step
        split at step
        · next gone =>
          -- nobody is left
          cases step
          have acts : Loop.acts .command r ⟨owner, [], .parked, abandoned⟩ =
              owner.dueTick r ++ [.leave r.checked none] := if_pos gone
          rw [acts, ← List.append_assoc]
          exact ⟨rfl, fun _ => gone, _, _, rfl,
            List.forall_mem_append.2 ⟨goesOn, owner.goesOn_dueTick r⟩⟩
        · cases step
  | closing ticket => cases step
  | ended => cases step

/-- A command that is queued moves nobody. -/
theorem StandsAfter.offered {l : Loop} {acts : List Act} (h : l.StandsAfter acts) (c : Command) :
    (l.offered c).StandsAfter acts := by
  obtain ⟨owner, inbox, phase, abandoned⟩ := l
  cases phase with
  | checking | parked =>
    rw [offered_of_open rfl]
    exact h
  | closing ticket | ended =>
    rw [offered_of_closed rfl]
    exact h

/-- Clients that go away afterwards make no difference to a loop that was left. -/
theorem LeftBy.abandoned_true {l : Loop} {acts : List Act} {ticket : Option Nat}
    (h : l.LeftBy acts ticket) : { l with abandoned := true }.LeftBy acts ticket :=
  ⟨h.inbox, fun _ => rfl, h.last⟩

/-- Nor do they move a loop that goes on. -/
theorem StandsAfter.abandoned_true {l : Loop} {acts : List Act} (h : l.StandsAfter acts) :
    { l with abandoned := true }.StandsAfter acts := by
  obtain ⟨owner, inbox, phase, abandoned⟩ := l
  cases phase with
  | checking | parked => exact h
  | closing ticket => exact LeftBy.abandoned_true h
  | ended => exact h.imp fun _ left => left.abandoned_true

end Loop

namespace Run

/-- The acts may have led to the loop. -/
structure History (interval : Nat) (acts : List Act) (l : Loop) : Prop where
  owner : l.owner = (Owner.new interval).after acts
  allowed : (Owner.new interval).AllowsAll acts
  stands : l.StandsAfter acts

/-! ### Every run has a history -/

/-- At every point of a run the loop stands where its acts have led. -/
theorem next_standsAfter {run : Run} (h : run.loop.StandsAfter run.acts) (e : Event) :
    (run.next e).loop.StandsAfter (run.next e).acts := by
  cases e with
  | sent c =>
    rw [next_sent]
    exact h.offered c
  | abandoned => exact h.abandoned_true
  | turned branch r =>
    simp only [next]
    cases step : run.loop.step branch r with
    | none => exact h
    | some result => exact h.step step
  | delivered =>
    simp only [next]
    cases phase : run.loop.phase with
    | closing ticket =>
      -- the end of the loop changes nothing but its phase
      rw [Loop.StandsAfter, phase] at h
      exact ⟨ticket, h.inbox, h.abandoned, h.last⟩
    | checking | parked | ended => exact h

/-- Every run has a history. -/
theorem history_of (interval : Nat) (events : List Event) :
    History interval (of interval events).acts (of interval events).loop where
  owner := (of_accounted interval events).owner.symm
  allowed := (of_accounted interval events).allowed
  stands := by
    let P : Run → Prop := fun run => run.loop.StandsAfter run.acts
    have init : P (start interval) := fun _ none => nomatch none
    exact of_keeps init next_standsAfter events

/-! ### Every history is that of a run -/

/-- The acts lead to the loop in some run. -/
def Reaches (interval : Nat) (acts : List Act) (l : Loop) : Prop :=
  ∃ events, (of interval events).acts = acts ∧ (of interval events).loop = l

namespace Reaches

variable {interval : Nat} {acts : List Act} {l : Loop}

theorem start (interval : Nat) : Reaches interval [] (.new interval) := ⟨[], rfl, rfl⟩

/-- A run goes on with one more event. -/
theorem next (h : Reaches interval acts l) (e : Event) {later : List Act} {after : Loop}
    (acts_eq : ∀ said, (Run.next ⟨l, acts, said⟩ e).acts = later)
    (loop_eq : ∀ said, (Run.next ⟨l, acts, said⟩ e).loop = after) :
    Reaches interval later after := by
  obtain ⟨events, rfl, rfl⟩ := h
  refine ⟨events ++ [e], ?_, ?_⟩
  · rw [of, List.foldl_append]
    exact acts_eq _
  · rw [of, List.foldl_append]
    exact loop_eq _

/-- A client may queue any command at any time. -/
theorem offered (h : Reaches interval acts l) (c : Command) :
    Reaches interval acts (l.offered c) :=
  h.next (.sent c) (fun _ => by rw [next_sent]) fun _ => by rw [next_sent]

/-- And the clients may go away at any time. -/
theorem abandoned (h : Reaches interval acts l) :
    Reaches interval acts { l with abandoned := true } :=
  h.next .abandoned (fun _ => rfl) fun _ => rfl

/-- A step that the loop can make, it makes in some run. -/
theorem step (h : Reaches interval acts l) {branch : Branch} {r : Readings} {after : Loop}
    {out : List Output} (step : l.step branch r = some (after, out)) :
    Reaches interval (acts ++ l.acts branch r) after :=
  h.next (.turned branch r) (fun _ => by simp only [Run.next, step]) fun _ => by
    simp only [Run.next, step]

/-- A loop that waits for the delivery ends when told that everything is delivered. -/
theorem delivered (h : Reaches interval acts l) {ticket : Option Nat}
    (phase : l.phase = .closing ticket) : Reaches interval acts { l with phase := .ended } :=
  h.next .delivered (fun _ => by simp only [Run.next, phase]) fun _ => by
    simp only [Run.next, phase]

/-- The owner parks when nothing is due. -/
theorem park {o : Owner} {inbox : List Command} {gone : Bool}
    (h : Reaches interval acts ⟨o, inbox, .checking, gone⟩) {r : Readings}
    (idle : o.schedule.isDue r.checked = false) :
    Reaches interval acts ⟨o, inbox, .parked, gone⟩ := by
  have parks : Loop.step .command r ⟨o, inbox, .checking, gone⟩ =
      some (⟨o, inbox, .parked, gone⟩, []) := if_neg (by simp [idle])
  have acts : Loop.acts .command r ⟨o, inbox, .checking, gone⟩ = [] := Owner.dueTick_of_idle idle
  have parked := h.step parks
  rwa [acts, List.append_nil] at parked

/-- A command that is queued alone is received next. -/
theorem receive {o : Owner} (h : Reaches interval acts ⟨o, [], .checking, false⟩) (c : Command)
    {r : Readings} (idle : o.schedule.isDue r.checked = false) :
    Reaches interval (acts ++ [.ofCommand r c])
      (Loop.receive ⟨o, [], .parked, false⟩ r c).1 := by
  have queued : Reaches interval acts ⟨o, [c], .checking, false⟩ := h.offered c
  have receives : Loop.step .command r ⟨o, [c], .parked, false⟩ =
      some (Loop.receive ⟨o, [], .parked, false⟩ r c) := rfl
  have received := (queued.park idle).step receives
  have acts : Loop.acts .command r ⟨o, [c], .parked, false⟩ = [.ofCommand r c] := by
    simp [Loop.acts, Owner.dueTick_of_idle idle]
  rwa [acts] at received

/-- The loop goes on to the next act. -/
theorem perform {o : Owner} (h : Reaches interval acts ⟨o, [], .checking, false⟩) {a : Act}
    (allowed : o.Allows a) (goesOn : a.goesOn = true) :
    Reaches interval (acts ++ [a]) ⟨(o.perform a).1, [], .checking, false⟩ := by
  cases a with
  | tick checked m =>
    -- the loop finds the deadline passed and runs the tick
    let r : Readings := ⟨checked, m, m⟩
    have ticks : Loop.step .command r ⟨o, [], .checking, false⟩ =
        some (⟨(o.perform (.tick checked m)).1, [], .checking, false⟩, _) := if_pos allowed
    have acts : Loop.acts .command r ⟨o, [], .checking, false⟩ = [.tick checked m] :=
      if_pos allowed
    have ticked := h.step ticks
    rwa [acts] at ticked
  | handle checked m c =>
    -- a client sends the command, and the loop takes it since no tick is due
    let r : Readings := ⟨checked, m, m⟩
    have received := h.receive c (r := r) allowed
    unfold Loop.receive at received
    rw [Owner.tickIfDue_of_idle allowed] at received
    cases c with
    | shutdown ticket => cases goesOn
    | _ => exact received
  | leave checked ticket => cases goesOn

/-- The owner leaves: somebody asks for it, or the clients go away. -/
theorem leave {o : Owner} (h : Reaches interval acts ⟨o, [], .checking, false⟩)
    {checked : Instant} (idle : o.schedule.isDue checked = false) (ticket : Option Nat) :
    Reaches interval (acts ++ [.leave checked ticket])
      ⟨o.stop.1, [], .closing ticket, ticket.isNone⟩ := by
  let r : Readings := ⟨checked, ⟨checked, []⟩, ⟨checked, []⟩⟩
  cases ticket with
  | some ticket =>
    -- a client asks for the end
    have received := h.receive (.shutdown ticket) (r := r) idle
    unfold Loop.receive at received
    rwa [Owner.tickIfDue_of_idle idle] at received
  | none =>
    -- all clients go away
    have leaves : Loop.step .command r ⟨o, [], .parked, true⟩ =
        some (⟨o.stop.1, [], .closing none, true⟩, o.stop.2) := by
      simp [Loop.step, Owner.tickIfDue_of_idle, r, idle, Loop.close]
    have acts : Loop.acts .command r ⟨o, [], .parked, true⟩ = [.leave checked none] := by
      simp [Loop.acts, Owner.dueTick_of_idle, r, idle]
    have left := (h.abandoned.park (r := r) idle).step leaves
    rwa [acts] at left

/-- What is queued stays in the queue as long as nothing else happens. -/
theorem queue (h : Reaches interval acts l) (hopen : l.isOpen = true) (commands : List Command) :
    Reaches interval acts { l with inbox := l.inbox ++ commands } := by
  induction commands using List.reverseRecOn with
  | nil => rwa [List.append_nil]
  | append_singleton commands c ih =>
    have offered := ih.offered c
    rw [Loop.offered_of_open (by exact hopen)] at offered
    rwa [← List.append_assoc]

/-- The clients of a loop may be there or not, unless they have been found to be gone. -/
theorem abandon (h : Reaches interval acts l) (gone : Bool)
    (stays : l.abandoned = true → gone = true) :
    Reaches interval acts { l with abandoned := gone } := by
  cases gone with
  | true => exact h.abandoned
  | false =>
    have there : l.abandoned = false := by simpa using stays
    rwa [← there]

end Reaches

/-- Allowed acts that all go on are those of a run, which can go on as well. -/
theorem reaches_of_goesOn {interval : Nat} {acts : List Act}
    (allowed : (Owner.new interval).AllowsAll acts) (goesOn : ∀ a ∈ acts, a.goesOn = true) :
    Reaches interval acts ⟨(Owner.new interval).after acts, [], .checking, false⟩ := by
  induction acts using List.reverseRecOn with
  | nil => exact .start interval
  | append_singleton acts a ih =>
    rw [Owner.allowsAll_append, Owner.allowsAll_singleton] at allowed
    rw [Owner.after_append, Owner.after_singleton]
    have before := ih allowed.1 fun b hb => goesOn b (List.mem_append_left _ hb)
    exact before.perform allowed.2 (goesOn a (by simp))

/-- Where the owner can have left, it leaves in some run. -/
theorem reaches_of_leftBy {interval : Nat} {acts : List Act} {l : Loop} {ticket : Option Nat}
    (left : l.LeftBy acts ticket) (owner : l.owner = (Owner.new interval).after acts)
    (allowed : (Owner.new interval).AllowsAll acts) :
    Reaches interval acts { l with phase := .closing ticket } := by
  -- a run is led to all acts but the last, and then made to leave
  obtain ⟨done, checked, rfl, goesOn⟩ := left.last
  rw [Owner.allowsAll_append, Owner.allowsAll_singleton] at allowed
  rw [Owner.after_append, Owner.after_singleton] at owner
  have leaves := (reaches_of_goesOn allowed.1 goesOn).leave allowed.2 ticket
  have abandoned := leaves.abandon l.abandoned fun nobody =>
    left.abandoned (Option.isNone_iff_eq_none.1 nobody)
  rwa [left.inbox, owner]

/-- **Every history is one of a run.** The acts are led to one by one: the commands that they deal
    with are sent in time, and the loop is where the next act begins. -/
theorem reaches_of_history {interval : Nat} {acts : List Act} {l : Loop}
    (h : History interval acts l) : Reaches interval acts l := by
  obtain ⟨owner, inbox, phase, abandoned⟩ := l
  obtain ⟨same, allowed, stands⟩ := h
  -- the acts come first, and what is in the queue in the end is sent when they are over
  cases phase with
  | checking =>
    have ready := reaches_of_goesOn allowed stands
    rw [← same] at ready
    exact (ready.queue rfl inbox).abandon _ nofun
  | parked =>
    obtain ⟨goesOn, checked, idle⟩ := stands
    have ready := reaches_of_goesOn allowed goesOn
    rw [← same] at ready
    exact ((ready.park (r := .still checked []) idle).queue rfl inbox).abandon _ nofun
  | closing ticket => exact reaches_of_leftBy stands same allowed
  | ended =>
    obtain ⟨ticket, left⟩ := stands
    exact (reaches_of_leftBy left same allowed).delivered rfl

/-- A loop and the acts that may have led to it are those of a run, and only these are. -/
theorem reaches_iff_history {interval : Nat} {acts : List Act} {l : Loop} :
    Reaches interval acts l ↔ History interval acts l := by
  constructor
  · rintro ⟨events, rfl, rfl⟩
    exact history_of interval events
  · exact reaches_of_history

end Run

end OnScreen
