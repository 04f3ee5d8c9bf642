import OnScreen.Proofs.TrackerRun
import OnScreen.Sink.Recorder

namespace OnScreen

/-!
# Failures of the sink stay outside

What becomes of a call is counted and then forgotten: no part of a tracker asks for it.  So two
trackers that go through the same moves before different sinks do and report the same, and as long
as neither sink keeps a call waiting they make the same calls as well.

* `TrackerRun.SameOwner`, `TrackerRun.sameOwner_of` — runs whose owners go through the same,
  whatever their sinks do and however their deliveries take turns.
* `Sink.Prompt` — a sink that answers at once.
* `TrackerRun.Lockstep`, `TrackerRun.lockstep_of` — runs before such sinks whose deliveries take
  turns alike as well.
* `RecorderEvent`, `DeliveryRun.Tallied` — a recording sink that is told to fail now and then, and
  what it knows about the calls.
* `failures_stay_outside` — two runs before recording sinks.
-/

/-! ### The owner's side -/

/-- The move is one of the delivery, or the end that waits for it. -/
def Move.ofDelivery : Move → Bool
  | delivered | ended => true
  | signalled _ | requested _ _ | abandoned | listed _ | elapsed _ | turned _ _ => false

/-- The gate after a move. -/
def Gate.after (g : Gate) : Move → Gate
  | .signalled s => g.set s
  | .requested _ _ | .abandoned | .listed _ | .elapsed _ | .turned _ _ | .delivered | .ended => g

variable {σ τ : Type}

/-- What becomes of the gate is told by the move alone. -/
theorem Tracker.moved_gate (sink : Sink σ) (t : Tracker σ) (m : Move) :
    (t.moved sink m).gate = t.gate.after m := by
  cases m with
  | signalled s => exact t.signal_gate s
  | requested c free => exact t.send_gate c
  | turned branch r => exact (t.turn_loop branch r).1
  | delivered => exact (t.deliveryStep_loop sink).1
  | ended => exact t.endStep_loop.1
  | abandoned | listed | elapsed => rfl

namespace Loop

/-- The loop as if its end came as soon as it is left. -/
def asEnded (l : Loop) : Loop := { l with phase := if l.isOpen then l.phase else .ended }

/-- The owner does not depend on when the end comes. -/
@[simp] theorem asEnded_owner (l : Loop) : l.asEnded.owner = l.owner := rfl

/-- Nor does the queue. -/
@[simp] theorem asEnded_inbox (l : Loop) : l.asEnded.inbox = l.inbox := rfl

/-- Nor does whether commands are taken. -/
@[simp] theorem isOpen_asEnded (l : Loop) : l.asEnded.isOpen = l.isOpen := by
  obtain ⟨owner, inbox, phase, abandoned⟩ := l
  cases phase <;> rfl

end Loop

namespace Run

/-- The run as if the end came as soon as the loop is left. -/
def asEnded (run : Run) : Run := { run with loop := run.loop.asEnded }

/-- Nor which commands an event adds to those that are taken. -/
@[simp] theorem takes_asEnded (run : Run) (e : Event) : run.asEnded.takes e = run.takes e := by
  cases e with
  | sent c => simp only [takes, asEnded, Loop.isOpen_asEnded]
  | abandoned | turned | delivered => rfl

/-- When the end comes makes no difference to anything else. -/
theorem next_asEnded (run : Run) (e : Event) :
    (run.next e).asEnded = (run.asEnded.next e).asEnded := by
  obtain ⟨⟨owner, inbox, phase, abandoned⟩, acts, said⟩ := run
  -- an open loop is its own image; a loop that was left does nothing but end
  cases phase with
  | checking | parked => rfl
  | closing ticket | ended => cases e <;> rfl

/-- The end itself is not seen. -/
theorem next_delivered_asEnded (run : Run) : (run.next .delivered).asEnded = run.asEnded := by
  simp only [next]
  split
  · next phase => simp [asEnded, Loop.asEnded, Loop.isOpen, phase]
  all_goals rfl

end Run

namespace TrackerEvent

/-- The move that an event is. -/
def move? : TrackerEvent σ → Option Move
  | moved m => some m
  | sinkChanged _ => none

/-- The move that an event is, unless it is one of the delivery. -/
def steering? : TrackerEvent σ → Option Move
  | moved m => if m.ofDelivery then none else some m
  | sinkChanged _ => none

end TrackerEvent

namespace TrackerRun

/-- Two runs in which the owner goes through the same, up to the moment of its end. -/
structure SameOwner (a : TrackerRun σ) (b : TrackerRun τ) : Prop where
  gate : a.tracker.gate = b.tracker.gate
  taken : a.taken = b.taken
  front : a.front.asEnded = b.front.asEnded

namespace SameOwner

variable {a : TrackerRun σ} {b : TrackerRun τ}

/-- Nothing that happens to the delivery or to the sink reaches the owner. -/
theorem next_aside (h : SameOwner a b) (sink : Sink σ) {e : TrackerEvent σ}
    (aside : e.steering? = none) : SameOwner (a.next sink e) b := by
  cases e with
  | sinkChanged change => exact ⟨h.gate, h.taken, h.front⟩
  | moved m =>
    have gate : (a.tracker.moved sink.watched m).gate = a.tracker.gate.after m :=
      Tracker.moved_gate sink.watched a.tracker m
    cases m with
    | delivered => exact ⟨gate.trans h.gate, h.taken, h.front⟩
    | ended =>
      -- the end that comes is no matter of the owner
      have recorded : (a.recorded sink .ended).taken = a.taken ∧
          (a.recorded sink .ended).front.asEnded = a.front.asEnded := by
        simp only [recorded, Tracker.loopEvent]
        cases a.tracker.endStep.isSome with
        | true => exact ⟨List.append_nil _, Run.next_delivered_asEnded _⟩
        | false => exact ⟨rfl, rfl⟩
      exact ⟨gate.trans h.gate, recorded.1.trans h.taken, recorded.2.trans h.front⟩
    | _ => cases aside

/-- A move that steers the owner leads both of them to the same. -/
theorem next_steering (h : SameOwner a b) (sinkA : Sink σ) (sinkB : Sink τ) {m : Move}
    (steers : m.ofDelivery = false) :
    SameOwner (a.next sinkA (.moved m)) (b.next sinkB (.moved m)) := by
  have gate : (a.tracker.moved sinkA.watched m).gate = (b.tracker.moved sinkB.watched m).gate := by
    rw [Tracker.moved_gate, Tracker.moved_gate, h.gate]
  have events : a.tracker.loopEvent m = b.tracker.loopEvent m := by
    cases m with
    | signalled s => simp only [Tracker.loopEvent, h.gate]
    | delivered | ended => cases steers
    | _ => rfl
  have other : m ≠ .delivered := by
    rintro rfl
    cases steers
  -- what is no event of the loop leaves the record as it is, for it is no step of the delivery
  have recorded : SameOwner (a.recorded sinkA m) (b.recorded sinkB m) := by
    cases event : b.tracker.loopEvent m with
    | none =>
      rw [recorded_of_no_event (events.trans event) other, recorded_of_no_event event other]
      exact h
    | some e =>
      rw [recorded_of_event (events.trans event), recorded_of_event event]
      refine ⟨h.gate, ?_, ?_⟩
      · rw [h.taken, ← Run.takes_asEnded, h.front, Run.takes_asEnded]
      · rw [Run.next_asEnded, h.front, ← Run.next_asEnded]
  exact ⟨gate, recorded.taken, recorded.front⟩

/-- Both owners have done the same. -/
theorem acts (h : SameOwner a b) : a.acts = b.acts := by
  show a.front.asEnded.acts = b.front.asEnded.acts
  rw [h.front]

/-- And have said the same. -/
theorem said (h : SameOwner a b) : a.front.said = b.front.said := by
  show a.front.asEnded.said = b.front.asEnded.said
  rw [h.front]

/-- Up to the moment of the end, the loops are the same. -/
theorem loop (h : SameOwner a b) (fa : a.Faithful) (fb : b.Faithful) :
    a.tracker.loop.asEnded = b.tracker.loop.asEnded := by
  rw [fa.loop, fb.loop]
  exact congrArg Run.loop h.front

section

variable {interval : Nat} (h : SameOwner a b) (la : a.Lawful interval) (lb : b.Lawful interval)

include h la lb

/-- So the same calls are due. -/
theorem due : a.back.due = b.back.due := by
  rw [la.due_eq, lb.due_eq, h.acts]

/-- One of the deliveries is ahead of the other one, on the same way. -/
theorem calls_comparable : a.calls <+: b.calls ∨ b.calls <+: a.calls := by
  have left : a.back.ended <+: a.back.due := ⟨_, la.orderly.all⟩
  have right : b.back.ended <+: b.back.due := ⟨_, lb.orderly.all⟩
  rw [h.due la lb] at left
  rw [la.calls_eq, lb.calls_eq]
  exact List.prefix_or_prefix_of_prefix left right

/-- Deliveries with nothing left to deliver have made the same calls. -/
theorem calls_of_idle (ia : a.tracker.delivery.isIdle = true)
    (ib : b.tracker.delivery.isIdle = true) : a.calls = b.calls := by
  rw [la.calls_of_idle ia, lb.calls_of_idle ib, h.acts]

end

theorem symm (h : SameOwner a b) : SameOwner b a := ⟨h.gate.symm, h.taken.symm, h.front.symm⟩

/-- A run may be compared by way of another one. -/
theorem trans {υ : Type} {c : TrackerRun υ} (h : SameOwner a b) (h' : SameOwner b c) :
    SameOwner a c :=
  ⟨h.gate.trans h'.gate, h.taken.trans h'.taken, h.front.trans h'.front⟩

end SameOwner

section

variable (sinkA : Sink σ) (sinkB : Sink τ) (interval : Nat) (candidates : List Candidate) (s : σ)
  (u : τ)

/-- A run has the owner of the run that is left when everything else is left out, before any sink.
    -/
theorem sameOwner_steering (events : List (TrackerEvent σ)) :
    SameOwner (of sinkA interval candidates s events)
      (of sinkB interval candidates u ((events.filterMap TrackerEvent.steering?).map .moved)) := by
  induction events using List.reverseRecOn with
  | nil => exact ⟨rfl, rfl, rfl⟩
  | append_singleton events e ih =>
    rw [of_append_singleton, List.filterMap_append, List.map_append]
    cases steering : e.steering? with
    | none =>
      -- a move aside is left out of the other run
      have nothing : [e].filterMap TrackerEvent.steering? = [] := by simp [steering]
      rw [nothing, List.map_nil, List.append_nil]
      exact ih.next_aside sinkA steering
    | some m =>
      have one : [e].filterMap TrackerEvent.steering? = [m] := by simp [steering]
      rw [one, List.map_singleton, of_append_singleton]
      cases e with
      | sinkChanged change => cases steering
      | moved n =>
        simp only [TrackerEvent.steering?] at steering
        split at steering
        · cases steering
        · -- a move that steers happens in both
          next steers =>
          cases steering
          exact ih.next_steering sinkA sinkB (Bool.not_eq_true _ ▸ steers)

/-- Runs with the same steering moves have the same owner, whatever their sinks do. -/
theorem sameOwner_of {events : List (TrackerEvent σ)} {others : List (TrackerEvent τ)}
    (same : events.filterMap TrackerEvent.steering? = others.filterMap TrackerEvent.steering?) :
    SameOwner (of sinkA interval candidates s events) (of sinkB interval candidates u others) := by
  have left := sameOwner_steering sinkA sinkB interval candidates s u events
  rw [same] at left
  exact left.trans (sameOwner_steering sinkB sinkB interval candidates u u others).symm

end

end TrackerRun

/-! ### The delivery's side -/

/-- The sink answers every call at once, and brings no delivery down. -/
def Sink.Prompt (sink : Sink σ) : Prop :=
  ∀ s c, (sink.offer s c).2 ≠ .waiting ∧ (sink.offer s c).2 ≠ .crashed

/-- A prompt sink brings no delivery down. -/
theorem Sink.Prompt.calm {sink : Sink σ} (prompt : sink.Prompt) : sink.Calm :=
  fun s c => (prompt s c).2

/-- The counters after a call was answered. -/
def DeliveryStats.count (stats : DeliveryStats) : SinkReply → DeliveryStats
  | .accepted => stats.record true
  | .refused _ => stats.record false
  | .waiting | .crashed => stats

/-- The next parcel leaves the queue. -/
def Delivery.unpacked (d : Delivery) : Delivery :=
  match d.queue with
  | .report r :: queue => { d with queue := queue, inHand := r.calls }
  | .fence ticket :: queue => { d with queue := queue, reached := d.reached ++ [ticket] }
  | [] => d

/-- Taking a parcel is not counted. -/
theorem Delivery.stats_unpacked (d : Delivery) : d.unpacked.stats = d.stats := by
  unfold unpacked
  split <;> rfl

/-- The parcel that brings a word to the delivery. -/
def Output.parcel? : Output → Option Parcel
  | report r => some (.report r)
  | fence ticket => some (.fence ticket)
  | status _ => none

namespace DeliveryRun

variable {run : DeliveryRun σ}

/-- A delivery that is up queues what it hears, and nothing else happens to it. -/
theorem foldl_hear_eq (sink : Sink σ) (up : run.delivery.crashed = false) (out : List Output) :
    let after := out.foldl (hear sink) run
    after.delivery.queue = run.delivery.queue ++ out.filterMap Output.parcel? ∧
      after.delivery.inHand = run.delivery.inHand ∧
      after.delivery.stats.delivered = run.delivery.stats.delivered ∧
      after.delivery.stats.failed = run.delivery.stats.failed := by
  induction out generalizing run with
  | nil => exact ⟨(List.append_nil _).symm, rfl, rfl, rfl⟩
  | cons word rest ih =>
    cases word with
    | report r =>
      -- as long as no call has crashed, every word that is a parcel is queued
      have heard : (run.hear sink (.report r)).delivery =
          { run.delivery with
              queue := run.delivery.queue ++ [.report r]
              stats := { run.delivery.stats with
                submitted := run.delivery.stats.submitted + 1 } } := by
        simp only [hear, next, Delivery.submit_of_running up]
      have stillUp : (run.hear sink (.report r)).delivery.crashed = false := by rw [heard]; exact up
      have later := ih stillUp
      simp only [heard] at later
      simpa [Output.parcel?] using later
    | fence ticket =>
      have heard : (run.hear sink (.fence ticket)).delivery =
          { run.delivery with queue := run.delivery.queue ++ [.fence ticket] } := by
        simp only [hear, next, Delivery.fence_of_running up]
      have stillUp : (run.hear sink (.fence ticket)).delivery.crashed = false := by
        rw [heard]
        exact up
      have later := ih stillUp
      simp only [heard] at later
      simpa [Output.parcel?] using later
    -- the status of the loop does not go through the delivery
    | status ticket => exact ih up

/-- A prompt sink answers the call that is next. -/
theorem next_turned_of_call {sink : Sink σ} (prompt : sink.Prompt) {c : Call} {rest : List Call}
    (hand : run.delivery.inHand = c :: rest) :
    run.next sink .turned =
      { run with
          delivery := { run.delivery with
            inHand := rest
            stats := run.delivery.stats.count (sink.offer run.sink.1 c).2 }
          sink := ((sink.offer run.sink.1 c).1,
            run.sink.2 ++ [(c, (sink.offer run.sink.1 c).2)]) } := by
  have answers := prompt run.sink.1 c
  simp only [next, Delivery.step_eq, hand, Sink.watched]
  rcases offered : sink.offer run.sink.1 c with ⟨s, reply⟩
  rw [offered] at answers
  cases reply with
  | accepted | refused e => rfl
  -- a prompt sink neither waits nor crashes
  | waiting => exact absurd rfl answers.1
  | crashed => exact absurd rfl answers.2

/-- With no call to make, the next parcel is taken. -/
theorem next_turned_of_free (sink : Sink σ) (hand : run.delivery.inHand = []) :
    run.next sink .turned = { run with delivery := run.delivery.unpacked } := by
  simp only [next, Delivery.step_eq, hand, Delivery.unpacked]
  cases run.delivery.queue with
  | nil => rfl
  | cons p queue => cases p <;> rfl

end DeliveryRun

namespace TrackerRun

/-- Two runs that have gone through the same, but for what the sinks have answered. -/
structure Lockstep (a : TrackerRun σ) (b : TrackerRun τ) : Prop where
  gate : a.tracker.gate = b.tracker.gate
  front : a.front = b.front
  queue : a.back.delivery.queue = b.back.delivery.queue
  hand : a.back.delivery.inHand = b.back.delivery.inHand

namespace Lockstep

variable {a : TrackerRun σ} {b : TrackerRun τ} {sinkA : Sink σ} {sinkB : Sink τ}

/-- A turn of the delivery does not depend on what becomes of the calls. -/
theorem turned (h : Lockstep a b) (promptA : sinkA.Prompt) (promptB : sinkB.Prompt) :
    (a.back.next sinkA .turned).delivery.queue = (b.back.next sinkB .turned).delivery.queue ∧
      (a.back.next sinkA .turned).delivery.inHand =
        (b.back.next sinkB .turned).delivery.inHand := by
  -- both have the same in hand, and what becomes of a call does not depend on the sink
  cases handB : b.back.delivery.inHand with
  | cons c rest =>
    rw [DeliveryRun.next_turned_of_call promptA (h.hand.trans handB),
      DeliveryRun.next_turned_of_call promptB handB]
    exact ⟨h.queue, rfl⟩
  | nil =>
    have handA := h.hand.trans handB
    rw [DeliveryRun.next_turned_of_free sinkA handA, DeliveryRun.next_turned_of_free sinkB handB]
    simp only [Delivery.unpacked, h.queue]
    split
    · exact ⟨rfl, rfl⟩
    · exact ⟨rfl, h.hand⟩
    · exact ⟨h.queue, h.hand⟩

/-- Whatever happens to both of them keeps them in step. -/
theorem next_moved (h : Lockstep a b) (fa : a.Faithful) (fb : b.Faithful)
    (upA : a.back.delivery.crashed = false) (upB : b.back.delivery.crashed = false)
    (promptA : sinkA.Prompt) (promptB : sinkB.Prompt) (m : Move) :
    Lockstep (a.next sinkA (.moved m)) (b.next sinkB (.moved m)) := by
  have gate : (a.tracker.moved sinkA.watched m).gate = (b.tracker.moved sinkB.watched m).gate := by
    rw [Tracker.moved_gate, Tracker.moved_gate, h.gate]
  have events : a.tracker.loopEvent m = b.tracker.loopEvent m := by
    cases m with
    | signalled s => simp only [Tracker.loopEvent, h.gate]
    | ended =>
      -- the end waits for the delivery, so the queues have to be the same here
      have ends : a.tracker.endStep.isSome = b.tracker.endStep.isSome := by
        rw [Tracker.isSome_endStep, Tracker.isSome_endStep, fa.loop, fb.loop, fa.delivery,
          fb.delivery, h.front, upA, upB, Delivery.isIdle, Delivery.isIdle, h.queue, h.hand]
      simp only [Tracker.loopEvent, ends]
    | _ => rfl
  have recorded : Lockstep (a.recorded sinkA m) (b.recorded sinkB m) := by
    cases event : b.tracker.loopEvent m with
    | none =>
      simp only [TrackerRun.recorded, events.trans event, event]
      split
      · obtain ⟨queue, hand⟩ := h.turned promptA promptB
        exact ⟨h.gate, h.front, queue, hand⟩
      · exact h
    | some e =>
      rw [recorded_of_event (events.trans event), recorded_of_event event]
      obtain ⟨queueA, handA, -⟩ := DeliveryRun.foldl_hear_eq sinkA upA (a.front.tells e)
      obtain ⟨queueB, handB, -⟩ := DeliveryRun.foldl_hear_eq sinkB upB (b.front.tells e)
      refine ⟨h.gate, congrArg (·.next e) h.front, ?_, ?_⟩
      · rw [queueA, queueB, h.queue, h.front]
      · rw [handA, handB, h.hand]
  exact ⟨gate, recorded.front, recorded.queue, recorded.hand⟩

/-- What is left to deliver is the same, and so is what has been delivered. -/
theorem calls_eq (h : Lockstep a b) {interval : Nat} (la : a.Lawful interval)
    (lb : b.Lawful interval) : a.calls = b.calls := by
  have acts : a.acts = b.acts := congrArg Run.acts h.front
  have due : a.back.due = b.back.due := by rw [la.due_eq, lb.due_eq, acts]
  have all := la.orderly.all.trans (due.trans lb.orderly.all.symm)
  rw [h.hand, h.queue] at all
  rw [la.calls_eq, lb.calls_eq]
  exact List.append_cancel_right all

theorem symm (h : Lockstep a b) : Lockstep b a :=
  ⟨h.gate.symm, h.front.symm, h.queue.symm, h.hand.symm⟩

/-- A run may be compared by way of another one. -/
theorem trans {υ : Type} {c : TrackerRun υ} (h : Lockstep a b) (h' : Lockstep b c) :
    Lockstep a c :=
  ⟨h.gate.trans h'.gate, h.front.trans h'.front, h.queue.trans h'.queue, h.hand.trans h'.hand⟩

end Lockstep

section

variable {sinkA : Sink σ} {sinkB : Sink τ} (interval : Nat) (candidates : List Candidate) (s : σ)
  (u : τ)

/-- No delivery before a prompt sink is ever down. -/
theorem up_of (prompt : sinkA.Prompt) (events : List (TrackerEvent σ)) :
    (of sinkA interval candidates s events).back.delivery.crashed = false :=
  (lawful_of prompt.calm events).orderly.up

/-- A run is in step with the run in which the sink never changes, before any prompt sink. -/
theorem lockstep_moves (promptA : sinkA.Prompt) (promptB : sinkB.Prompt)
    (events : List (TrackerEvent σ)) :
    Lockstep (of sinkA interval candidates s events)
      (of sinkB interval candidates u ((events.filterMap TrackerEvent.move?).map .moved)) := by
  induction events using List.reverseRecOn with
  | nil => exact ⟨rfl, rfl, rfl, rfl⟩
  | append_singleton events e ih =>
    rw [of_append_singleton, List.filterMap_append, List.map_append]
    cases e with
    | sinkChanged change =>
      -- what becomes of the sink is left out of the other run
      have nothing : [TrackerEvent.sinkChanged change].filterMap TrackerEvent.move? = [] := rfl
      rw [nothing, List.map_nil, List.append_nil]
      exact ⟨ih.gate, ih.front, ih.queue, ih.hand⟩
    | moved m =>
      have one : [TrackerEvent.moved m].filterMap (TrackerEvent.move? (σ := σ)) = [m] := rfl
      rw [one, List.map_singleton, of_append_singleton]
      exact ih.next_moved (faithful_of ..) (faithful_of ..) (up_of _ _ _ promptA _)
        (up_of _ _ _ promptB _) promptA promptB m

/-- Runs with the same moves before prompt sinks are in step. -/
theorem lockstep_of (promptA : sinkA.Prompt) (promptB : sinkB.Prompt)
    {events : List (TrackerEvent σ)} {others : List (TrackerEvent τ)}
    (same : events.filterMap TrackerEvent.move? = others.filterMap TrackerEvent.move?) :
    Lockstep (of sinkA interval candidates s events) (of sinkB interval candidates u others) := by
  have left := lockstep_moves interval candidates s u promptA promptB events
  rw [same] at left
  exact left.trans (lockstep_moves interval candidates u u promptB promptB others).symm

end

end TrackerRun

/-! ### A sink that is told to fail -/

/-- Something that happens to a tracker before a recording sink. -/
inductive RecorderEvent where
  | moved (m : Move)
  /-- From now on calls are refused, or accepted again. -/
  | failing (value : Bool)

namespace RecorderEvent

/-- The event of a tracker that this one is. -/
def event : RecorderEvent → TrackerEvent Recorder
  | moved m => .moved m
  | failing value => .sinkChanged (·.setFailing value)

/-- The value that the flag is set to. -/
def failing? : RecorderEvent → Option Bool
  | moved _ => none
  | failing value => some value

/-- The move that an event is. -/
def move? (e : RecorderEvent) : Option Move := e.event.move?

/-- The move that an event is, unless it is one of the delivery. -/
def steering? (e : RecorderEvent) : Option Move := e.event.steering?

/-- Whether calls are refused after some events; at first they are not. -/
def lastFailing (events : List RecorderEvent) : Bool := (latest failing? events).getD false

end RecorderEvent

/-- The call was accepted. -/
def wasAccepted (attempt : Call × SinkReply) : Bool := attempt.2 = .accepted

namespace Recorder

/-- A recorder answers at once, with success or with a failure. -/
theorem sink_prompt : Recorder.sink.Prompt := by
  intro r c
  simp only [sink, offer]
  split
  · exact ⟨nofun, nofun⟩
  · exact ⟨nofun, nofun⟩

/-- A call is accepted just while the recorder is not failing. -/
theorem offer_accepted_iff (r : Recorder) (c : Call) :
    (r.offer c).2 = .accepted ↔ r.failing = false := by
  cases h : r.failing <;> simp [offer, h]

end Recorder

namespace DeliveryRun

/-- The recorder and the counters of the delivery know what became of the calls. -/
structure Tallied (failing : Bool) (run : DeliveryRun Recorder) : Prop where
  flag : run.sink.1.failing = failing
  calls : run.sink.1.calls = (run.sink.2.filter wasAccepted).map Prod.fst
  failures : run.sink.1.failures = (run.sink.2.filter (!wasAccepted ·)).length
  delivered : run.delivery.stats.delivered = run.sink.1.calls.length
  failed : run.delivery.stats.failed = run.sink.1.failures

namespace Tallied

variable {failing : Bool} {run : DeliveryRun Recorder}

theorem start : Tallied false (start Recorder.new) := ⟨rfl, rfl, rfl, rfl, rfl⟩

/-- Every call that came to an end was either delivered or failed. -/
theorem delivered_add_failed (h : run.Tallied failing) :
    run.delivery.stats.delivered + run.delivery.stats.failed = run.ended.length := by
  rw [h.delivered, h.failed, h.calls, h.failures, List.length_map, ended, List.length_map,
    ← List.length_eq_length_filter_add]

/-- What the delivery hears is no concern of the recorder. -/
theorem foldl_hear (h : run.Tallied failing) (up : run.delivery.crashed = false)
    (out : List Output) : (out.foldl (hear Recorder.sink) run).Tallied failing := by
  obtain ⟨-, -, delivered, failed⟩ := foldl_hear_eq Recorder.sink up out
  have sink := sink_foldl_hear Recorder.sink run out
  refine ⟨?_, ?_, ?_, ?_, ?_⟩
  · exact sink ▸ h.flag
  · exact sink ▸ h.calls
  · exact sink ▸ h.failures
  · rw [sink, delivered, h.delivered]
  · rw [sink, failed, h.failed]

/-- A turn tallies the call that was made, if one was. -/
theorem turned (h : run.Tallied failing) : (run.next Recorder.sink .turned).Tallied failing := by
  cases hand : run.delivery.inHand with
  | nil =>
    rw [next_turned_of_free Recorder.sink hand]
    refine ⟨h.flag, h.calls, h.failures, ?_, ?_⟩
    · rw [Delivery.stats_unpacked, h.delivered]
    · rw [Delivery.stats_unpacked, h.failed]
  | cons c rest =>
    rw [next_turned_of_call Recorder.sink_prompt hand]
    have flag := h.flag
    cases failing with
    | true =>
      -- the call fails and is counted, the log of accepted calls stays
      have answer : Recorder.sink.offer run.sink.1 c = _ := if_pos flag
      rw [answer]
      refine ⟨flag, ?_, ?_, h.delivered, ?_⟩
      · simpa [wasAccepted] using h.calls
      · simpa [wasAccepted] using h.failures
      · simpa [DeliveryStats.count, DeliveryStats.record] using h.failed
    | false =>
      -- the call is recorded and counted
      have answer : Recorder.sink.offer run.sink.1 c = _ := if_neg (Bool.eq_false_iff.1 flag)
      rw [answer]
      refine ⟨flag, ?_, ?_, ?_, h.failed⟩
      · simpa [wasAccepted] using h.calls
      · simpa [wasAccepted] using h.failures
      · simpa [DeliveryStats.count, DeliveryStats.record] using h.delivered

end Tallied

end DeliveryRun

namespace TrackerRun

/-- The delivery makes a turn, or hears something. -/
theorem recorded_back (sink : Sink σ) (run : TrackerRun σ) (m : Move) :
    (run.recorded sink m).back = run.back.next sink .turned ∨
      ∃ out : List Output,
        (run.recorded sink m).back = out.foldl (DeliveryRun.hear sink) run.back := by
  unfold recorded
  split
  · exact .inr ⟨_, rfl⟩
  · split
    · exact .inl rfl
    · exact .inr ⟨[], rfl⟩

/-- What happens to a tracker that starts before an empty recorder. -/
def ofRecorder (interval : Nat) (candidates : List Candidate) (events : List RecorderEvent) :
    TrackerRun Recorder :=
  of Recorder.sink interval candidates .new (events.map RecorderEvent.event)

section

variable (interval : Nat) (candidates : List Candidate)

/-- One event more. -/
theorem ofRecorder_append_singleton (events : List RecorderEvent) (e : RecorderEvent) :
    ofRecorder interval candidates (events ++ [e]) =
      (ofRecorder interval candidates events).next Recorder.sink e.event := by
  rw [ofRecorder, List.map_append]
  exact of_append_singleton ..

/-- What is known of runs before a calm sink is known of these. -/
theorem ofRecorder_lawful (events : List RecorderEvent) :
    (ofRecorder interval candidates events).Lawful interval :=
  lawful_of Recorder.sink_prompt.calm _

/-- At every point of every run the recorder and the counters agree. -/
theorem tallied_of (events : List RecorderEvent) :
    (ofRecorder interval candidates events).back.Tallied (RecorderEvent.lastFailing events) := by
  induction events using List.reverseRecOn with
  | nil => exact .start
  | append_singleton events e ih =>
    have lawful := ofRecorder_lawful interval candidates events
    rw [ofRecorder_append_singleton, RecorderEvent.lastFailing, latest_append_singleton]
    cases e with
    | moved m =>
      show ((ofRecorder interval candidates events).recorded Recorder.sink m).back.Tallied _
      rcases recorded_back Recorder.sink (ofRecorder interval candidates events) m with
        turned | ⟨out, heard⟩
      · rw [turned]
        exact ih.turned
      · rw [heard]
        exact ih.foldl_hear lawful.orderly.up out
    | failing value =>
      -- only the flag changes, in the sink the delivery knows
      have sink : (ofRecorder interval candidates events).tracker.sink.1 =
          (ofRecorder interval candidates events).back.sink.1 := by rw [lawful.faithful.sink]
      refine ⟨rfl, ?_, ?_, ?_, ?_⟩
      · exact (congrArg Recorder.calls sink).trans ih.calls
      · exact (congrArg Recorder.failures sink).trans ih.failures
      · exact ih.delivered.trans (congrArg (·.calls.length) sink).symm
      · exact ih.failed.trans (congrArg Recorder.failures sink).symm

/-- A call that comes to an end is accepted just if the recorder was not told to fail before. -/
theorem answered_as_told (events : List RecorderEvent) (e : RecorderEvent) :
    ∃ new, (ofRecorder interval candidates (events ++ [e])).tracker.sink.2 =
        (ofRecorder interval candidates events).tracker.sink.2 ++ new ∧
      ∀ attempt ∈ new, wasAccepted attempt = !RecorderEvent.lastFailing events := by
  have lawful := ofRecorder_lawful interval candidates events
  rw [(ofRecorder_lawful ..).faithful.sink, lawful.faithful.sink, ofRecorder_append_singleton]
  have flag := (tallied_of interval candidates events).flag
  generalize ofRecorder interval candidates events = run at flag ⊢
  cases e with
  | failing value => exact ⟨[], (List.append_nil _).symm, nofun⟩
  | moved m =>
    show ∃ new, (run.recorded Recorder.sink m).back.sink.2 = _ ∧ _
    -- only a step of the delivery asks the sink, and it finds the flag as it was set last
    rcases recorded_back Recorder.sink run m with turned | ⟨out, heard⟩
    · rw [turned]
      rcases DeliveryRun.log_turned Recorder.sink run.back with same | ⟨c, log⟩
      · exact ⟨[], same.trans (List.append_nil _).symm, nofun⟩
      · refine ⟨_, log, ?_⟩
        intro attempt among
        rw [List.mem_singleton.1 among, wasAccepted, ← flag, Bool.eq_iff_iff, decide_eq_true_iff,
          Bool.not_eq_true']
        exact Recorder.offer_accepted_iff run.back.sink.1 c
    · rw [heard, DeliveryRun.sink_foldl_hear]
      exact ⟨[], (List.append_nil _).symm, nofun⟩

end

end TrackerRun

/-- **Failures of the sink stay outside.**  Take two runs before recording sinks, each up to any
    point, in which clients, clock, list and owner have moved alike, while each recorder was told to
    fail as somebody liked and each delivery took turns as it liked:

    * Owner, queue and gate are the same, and the owner has done and reported the same.
    * The calls that were made are those of one run, or the first of them.  They are the same, and
      so is the number of calls that were counted, when the deliveries took turns alike or when both
      of them have nothing left to deliver.
    * Each recorder holds the calls that were accepted, in order, and the number of the others, as
      the counters do, and a call was accepted just if the recorder was not told to fail before it.
      -/
theorem failures_stay_outside (interval : Nat) (candidates : List Candidate)
    (events others : List RecorderEvent)
    (same : events.filterMap RecorderEvent.steering? = others.filterMap RecorderEvent.steering?) :
    let ofRecorder := TrackerRun.ofRecorder interval candidates
    let run := ofRecorder events
    let other := ofRecorder others
    (run.tracker.loop.owner = other.tracker.loop.owner ∧
      run.tracker.loop.inbox = other.tracker.loop.inbox ∧
      run.tracker.loop.isOpen = other.tracker.loop.isOpen ∧
      run.tracker.gate = other.tracker.gate ∧
      run.acts = other.acts ∧ run.front.reports = other.front.reports) ∧
    (run.calls <+: other.calls ∨ other.calls <+: run.calls) ∧
    (events.filterMap RecorderEvent.move? = others.filterMap RecorderEvent.move? ∨
        run.tracker.delivery.isIdle = true ∧ other.tracker.delivery.isIdle = true →
      run.calls = other.calls ∧
      run.tracker.delivery.stats.delivered + run.tracker.delivery.stats.failed =
        other.tracker.delivery.stats.delivered + other.tracker.delivery.stats.failed) ∧
    ∀ mine ∈ [events, others],
      let tracker := (ofRecorder mine).tracker
      tracker.sink.1.calls = (tracker.sink.2.filter wasAccepted).map Prod.fst ∧
      tracker.sink.1.failures = (tracker.sink.2.filter (!wasAccepted ·)).length ∧
      tracker.delivery.stats.delivered = tracker.sink.1.calls.length ∧
      tracker.delivery.stats.failed = tracker.sink.1.failures ∧
      ∀ earlier e later, mine = earlier ++ e :: later →
        ∃ new, (ofRecorder (earlier ++ [e])).tracker.sink.2 =
            (ofRecorder earlier).tracker.sink.2 ++ new ∧
          ∀ attempt ∈ new, wasAccepted attempt = !RecorderEvent.lastFailing earlier := by
  intro ofRecorder run other
  have lawful : ∀ events, (ofRecorder events).Lawful interval :=
    TrackerRun.ofRecorder_lawful interval candidates
  have owner : TrackerRun.SameOwner run other := by
    refine TrackerRun.sameOwner_of _ _ interval candidates _ _ ?_
    rw [List.filterMap_map, List.filterMap_map]
    exact same
  have loop := owner.loop (lawful events).faithful (lawful others).faithful
  refine ⟨⟨?_, ?_, ?_, owner.gate, owner.acts, congrArg Output.reports owner.said⟩,
    owner.calls_comparable (lawful events) (lawful others), fun alike => ?_, ?_⟩
  · rw [← Loop.asEnded_owner, loop, Loop.asEnded_owner]
  · rw [← Loop.asEnded_inbox, loop, Loop.asEnded_inbox]
  · rw [← Loop.isOpen_asEnded, loop, Loop.isOpen_asEnded]
  · have calls : run.calls = other.calls := by
      rcases alike with turns | ⟨idle, theirs⟩
      · -- moved alike, both deliveries have come as far
        have inStep : TrackerRun.Lockstep run other := by
          refine TrackerRun.lockstep_of interval candidates _ _ Recorder.sink_prompt
            Recorder.sink_prompt ?_
          rw [List.filterMap_map, List.filterMap_map]
          exact turns
        exact inStep.calls_eq (lawful events) (lawful others)
      · exact owner.calls_of_idle (lawful events) (lawful others) idle theirs
    -- every call that returned is counted, one way or the other
    have counted : ∀ events, (ofRecorder events).tracker.delivery.stats.delivered +
        (ofRecorder events).tracker.delivery.stats.failed = (ofRecorder events).calls.length := by
      intro events
      rw [(lawful events).faithful.delivery, (lawful events).calls_eq]
      exact (TrackerRun.tallied_of interval candidates events).delivered_add_failed
    exact ⟨calls, by rw [counted, counted, calls]⟩
  · intro mine _ tracker
    have tallied := TrackerRun.tallied_of interval candidates mine
    have sink : tracker.sink = (ofRecorder mine).back.sink := (lawful mine).faithful.sink
    have delivery : tracker.delivery = (ofRecorder mine).back.delivery :=
      (lawful mine).faithful.delivery
    rw [sink, delivery]
    exact ⟨tallied.calls, tallied.failures, tallied.delivered, tallied.failed,
      fun earlier e _ _ => TrackerRun.answered_as_told interval candidates earlier e⟩

/-- One recorder is told to fail between the two calls of a batch, the other one in front of it. -/
theorem failures_stay_outside_split_batch :
    let turn : RecorderEvent := .moved (.turned .command (.still 0 [⟨⟨"a"⟩, true, none⟩]))
    let opening : List RecorderEvent := [.moved (.signalled (.dozing false)),
      .moved (.signalled (.panelExpanded true)), turn, turn, turn]
    let four := List.replicate 4 (.moved .delivered)
    let events := opening ++ four ++ [.failing true, .moved .delivered]
    let others := opening ++ .failing true :: four ++ [.failing false, .moved .delivered]
    let run := TrackerRun.ofRecorder 500 [] events
    let other := TrackerRun.ofRecorder 500 [] others
    events.filterMap RecorderEvent.steering? = others.filterMap RecorderEvent.steering? ∧
    events.filterMap RecorderEvent.move? = others.filterMap RecorderEvent.move? ∧
    run.tracker.loop.owner = other.tracker.loop.owner ∧ run.calls = other.calls ∧
    run.tracker.sink.1.calls.length = 2 ∧ run.tracker.sink.1.failures = 1 ∧
    other.tracker.sink.1.calls = [.shown [⟨"a"⟩]] ∧ other.tracker.sink.1.failures = 2 := by
  intro turn opening four events others run other
  have steering : events.filterMap RecorderEvent.steering? =
      others.filterMap RecorderEvent.steering? := rfl
  have moves : events.filterMap RecorderEvent.move? = others.filterMap RecorderEvent.move? := rfl
  obtain ⟨⟨owner, -⟩, -, alike, -⟩ := failures_stay_outside 500 [] events others steering
  exact ⟨steering, moves, owner, (alike (.inl moves)).1, by decide +kernel, by decide +kernel,
    by decide +kernel, by decide +kernel⟩

end OnScreen
