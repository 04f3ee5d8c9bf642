import Mathlib.Data.List.Basic
import Mathlib.Logic.Relation
import OnScreen.Tracker

namespace OnScreen

/-!
# What happens to a tracker

Clients, owner, delivery and clock each do one thing at a time, in any order.

* `Move`, `Tracker.moved` — one such thing, and what it makes of a tracker.
* `Tracker.after` — many of them.
* `Tracker.RunsTo`, `Tracker.runsTo_settle` — what owner, delivery and clock make of it by
  themselves, and that letting everything run is such a way.
* `Loop.offered` — the loop after a command was offered to it.
* `Tracker.signal_loop`, `Tracker.turn_loop`, `Tracker.endStep_loop` — what gate and loop go
  through meanwhile.
-/

/-- The command comes from the gate, as a start or a stop. -/
def Command.ofGate : Command → Bool
  | .start _ | .stop => true
  | .possibleChange | .expansionChanged _ _ _ | .entryRemoved _ | .entryUpdated _
  | .itemError _ _ | .flush _ | .query _ | .shutdown _ => false

/-- Something that happens to a tracker.  All handles share one gate and one queue, so it does not
    matter through which of them something is done, or how many there are. -/
inductive Move where
  /-- A gate signal is set. -/
  | signalled (s : GateSignal)
  /-- Another command is sent; start and stop are left to the gate. -/
  | requested (c : Command) (free : c.ofGate = false)
  /-- The last handle is dropped. -/
  | abandoned
  /-- The list of candidates is replaced. -/
  | listed (candidates : List Candidate)
  /-- Time passes. -/
  | elapsed (ms : Nat)
  /-- The owner makes a step, if it can make one through that branch.  What it reads may move
      meanwhile. -/
  | turned (branch : Branch) (r : Readings)
  /-- The delivery makes a step, if it can make one. -/
  | delivered
  /-- The owner ends, if everything is delivered. -/
  | ended

namespace Move

/-- The end is asked for. -/
def shutsDown : Move → Bool
  | requested (.shutdown _) _ => true
  | _ => false

/-- The value that is set for the panel. -/
def panel? : Move → Option Bool
  | signalled (.panelExpanded value) => some value
  | _ => none

/-- The value that is set for dozing. -/
def dozing? : Move → Option Bool
  | signalled (.dozing value) => some value
  | _ => none

end Move

namespace Loop

/-! ### What is offered to a loop -/

/-- The loop after a command was offered to it: one that takes no more commands stays as it is. -/
def offered (l : Loop) (c : Command) : Loop := (l.send c).getD l

/-- A loop that takes commands queues what is offered. -/
theorem offered_of_open {l : Loop} (h : l.isOpen = true) (c : Command) :
    l.offered c = { l with inbox := l.inbox ++ [c] } := by
  rw [offered, send, if_pos h]
  rfl

/-- A loop that was left does not. -/
theorem offered_of_closed {l : Loop} (h : l.isOpen = false) (c : Command) : l.offered c = l := by
  rw [offered, send, if_neg (by simp [h])]
  rfl

/-- An offer does not close the loop, nor open it again. -/
@[simp] theorem offered_isOpen (l : Loop) (c : Command) : (l.offered c).isOpen = l.isOpen := by
  cases h : l.isOpen with
  | true =>
    rw [offered_of_open h]
    exact h
  | false => rw [offered_of_closed h, h]

/-- Nor does it say anything about who is left. -/
@[simp] theorem offered_abandoned (l : Loop) (c : Command) :
    (l.offered c).abandoned = l.abandoned := by
  cases h : l.isOpen with
  | true => rw [offered_of_open h]
  | false => rw [offered_of_closed h]

/-- What is queued after an offer was queued before or was offered. -/
theorem mem_inbox_offered {l : Loop} {c d : Command} (h : d ∈ (l.offered c).inbox) :
    d ∈ l.inbox ∨ d = c := by
  cases hopen : l.isOpen with
  | true =>
    rw [offered_of_open hopen] at h
    simpa using h
  | false =>
    rw [offered_of_closed hopen] at h
    exact .inl h

end Loop

namespace Tracker

variable {σ : Type}

/-- What a move makes of a tracker.  One that cannot be made changes nothing. -/
def moved (sink : Sink σ) (t : Tracker σ) : Move → Tracker σ
  | .signalled s => (t.signal s).1
  | .requested c _ => (t.send c).1
  | .abandoned => { t with loop := { t.loop with abandoned := true } }
  | .listed candidates => t.setCandidates candidates
  | .elapsed ms => { t with clock := t.clock + ms }
  | .turned branch r => (t.turn branch r).getD t
  | .delivered => (t.deliveryStep sink).getD t
  | .ended => t.endStep.getD t

/-- What some moves make of a tracker. -/
def after (sink : Sink σ) (t : Tracker σ) (moves : List Move) : Tracker σ :=
  moves.foldl (moved sink) t

/-- One move more. -/
theorem after_append_singleton (sink : Sink σ) (t : Tracker σ) (moves : List Move) (m : Move) :
    t.after sink (moves ++ [m]) = (t.after sink moves).moved sink m := by
  rw [after, List.foldl_append]
  rfl

/-! ### Gate and loop, move by move -/

/-- A command that is sent is offered to the loop. -/
theorem send_loop (t : Tracker σ) (c : Command) : (t.send c).1.loop = t.loop.offered c := by
  unfold send Loop.offered
  split
  · next loop sent => rw [sent, Option.getD_some]
  · next refused => rw [refused, Option.getD_none]

/-- Sending does not touch the gate. -/
theorem send_gate (t : Tracker σ) (c : Command) : (t.send c).1.gate = t.gate := by
  unfold send
  split <;> rfl

/-- A signal sets the gate, whether its command can be sent or not. -/
theorem signal_gate (t : Tracker σ) (s : GateSignal) : (t.signal s).1.gate = t.gate.set s := by
  simp only [signal]
  split
  · rfl
  · exact send_gate _ _

/-- A signal queues the command for the decision that it asks for, if there is any. -/
theorem signal_loop (t : Tracker σ) (s : GateSignal) :
    (t.signal s).1.loop =
      match (t.gate.answer s).bind commandFor with
      | none => t.loop
      | some c => t.loop.offered c := by
  simp only [signal]
  cases (t.gate.answer s).bind commandFor with
  | none => rfl
  | some c => exact send_loop _ _

/-- A signal makes no client go away. -/
theorem signal_abandoned (t : Tracker σ) (s : GateSignal) :
    (t.signal s).1.loop.abandoned = t.loop.abandoned := by
  rw [signal_loop]
  split
  · rfl
  · exact Loop.offered_abandoned _ _

/-- What the owner says goes past gate and loop. -/
theorem foldl_emit (t : Tracker σ) (out : List Output) :
    (out.foldl emit t).loop = t.loop ∧ (out.foldl emit t).gate = t.gate := by
  induction out generalizing t with
  | nil => exact ⟨rfl, rfl⟩
  | cons word rest ih =>
    have same : (t.emit word).loop = t.loop ∧ (t.emit word).gate = t.gate := by
      cases word <;> exact ⟨rfl, rfl⟩
    rw [List.foldl_cons, (ih _).1, (ih _).2]
    exact same

/-- The owner makes the step of its loop, or none; the gate has no part in it. -/
theorem turn_loop (t : Tracker σ) (branch : Branch) (r : Readings) :
    ((t.turn branch r).getD t).gate = t.gate ∧
      (((t.turn branch r).getD t).loop = t.loop ∨
        ∃ next out, t.loop.step branch r = some (next, out) ∧
          ((t.turn branch r).getD t).loop = next) := by
  unfold turn
  cases t.loop.step branch r with
  | none => exact ⟨rfl, .inl rfl⟩
  | some result =>
    obtain ⟨next, out⟩ := result
    -- what the owner says goes to the delivery and to whoever asked
    obtain ⟨loop, gate⟩ := foldl_emit { t with loop := next } out
    exact ⟨gate, .inr ⟨next, out, rfl, loop⟩⟩

/-- The delivery does not touch gate and loop. -/
theorem deliveryStep_loop (sink : Sink σ) (t : Tracker σ) :
    ((t.deliveryStep sink).getD t).gate = t.gate ∧
      ((t.deliveryStep sink).getD t).loop = t.loop := by
  unfold deliveryStep
  cases t.delivery.step sink t.sink with
  | none => exact ⟨rfl, rfl⟩
  | some result => exact ⟨rfl, rfl⟩

/-- Only a loop that was left can end. -/
theorem endStep_loop (t : Tracker σ) :
    (t.endStep.getD t).gate = t.gate ∧
      ((t.endStep.getD t).loop = t.loop ∨
        t.loop.isOpen = false ∧ (t.endStep.getD t).loop = { t.loop with phase := .ended }) := by
  unfold endStep
  cases phase : t.loop.phase with
  | closing ticket =>
    -- only a loop that was left can end
    have left : t.loop.isOpen = false := by rw [Loop.isOpen, phase]
    simp only
    split
    · exact ⟨rfl, .inr ⟨left, rfl⟩⟩
    · exact ⟨rfl, .inl rfl⟩
  | checking | parked | ended => exact ⟨rfl, .inl rfl⟩

/-! ### Moves that nobody asks for -/

/-- A move that owner, delivery or clock make by themselves; what the owner reads stands still. -/
inductive OwnMove (t : Tracker σ) : Move → Prop
  | turned (branch : Branch) : OwnMove t (.turned branch (.still t.clock t.candidates))
  | delivered : OwnMove t .delivered
  | ended : OwnMove t .ended
  | elapsed (ms : Nat) : OwnMove t (.elapsed ms)

/-- Such moves lead from one tracker to the other. -/
def RunsTo (sink : Sink σ) : Tracker σ → Tracker σ → Prop :=
  Relation.ReflTransGen fun t after => ∃ m, t.OwnMove m ∧ t.moved sink m = after

variable (sink : Sink σ)

/-- One such move leads to what it makes of the tracker. -/
theorem OwnMove.runsTo {t : Tracker σ} {m : Move} (h : t.OwnMove m) :
    t.RunsTo sink (t.moved sink m) := .single ⟨m, h, rfl⟩

/-- So do some steps of the owner in a row. -/
theorem runsTo_runOwner (n : Nat) (t : Tracker σ) : t.RunsTo sink (t.runOwner n) := by
  induction n generalizing t with
  | zero => exact .refl
  | succ n ih =>
    unfold runOwner
    split
    · next after step =>
      -- one round of the loop is one move of the owner
      have moved :
          t.moved sink (.turned t.loop.preferred (.still t.clock t.candidates)) = after := by
        rw [moved, show t.turn _ _ = some after from step]
        rfl
      exact .head ⟨_, .turned _, moved⟩ (ih after)
    · exact .refl

/-- And some steps of the delivery in a row. -/
theorem runsTo_deliver (n : Nat) (t : Tracker σ) :
    t.RunsTo sink
      { t with
        sink := (t.delivery.run sink n t.sink).1
        delivery := (t.delivery.run sink n t.sink).2 } := by
  induction n generalizing t with
  | zero => exact .refl
  | succ n ih =>
    unfold Delivery.run
    cases step : t.delivery.step sink t.sink with
    | none => exact .refl
    | some result =>
      obtain ⟨s, d⟩ := result
      -- one round of the loop is one move of the delivery
      have moved : t.moved sink .delivered = { t with sink := s, delivery := d } := by
        rw [moved, deliveryStep, step]
        rfl
      exact .head ⟨_, .delivered, moved⟩ (ih _)

/-- Letting everything run is a way of moving. -/
theorem runsTo_settle (t : Tracker σ) : t.RunsTo sink (t.settle sink) :=
  ((runsTo_runOwner sink _ t).trans (runsTo_deliver sink _ _)).trans (OwnMove.ended.runsTo sink)

end Tracker

end OnScreen
