import OnScreen.Proofs.CommandOrder
import OnScreen.Proofs.DeliveryOrder
import OnScreen.Proofs.Moves

namespace OnScreen

/-!
# Runs of a whole tracker

A tracker is an owner's loop in front of a delivery: clients fill the queue of the one, and what the
owner says fills the queue of the other.  A run of a tracker keeps a record of both, so that what is
known about runs of a loop and of a delivery is known about whole trackers.

* `TrackerEvent`, `TrackerRun.next`, `TrackerRun.of` — what happens to a tracker and its sink, and
  the run that it leads to.
* `TrackerRun.Adds` — everything that an event can add to the record.
* `TrackerRun.Recorded` — what is known about the record of every run.
* `TrackerRun.Faithful` — the record is that of the tracker.
* `Relayed` — a delivery that is up has heard all that the owner said.
* `TrackerRun.Lawful` — what is known about every run before a sink that brings no delivery down.
-/

variable {σ : Type}

/-- Something that happens to a tracker or to its sink. -/
inductive TrackerEvent (σ : Type) where
  | moved (m : Move)
  /-- The sink changes by itself; a call that it keeps waiting may be able to return now. -/
  | sinkChanged (change : σ → σ)

/-! ### The two halves of a tracker -/

/-- The owner has left its loop and waits for the delivery. -/
def Phase.isClosing : Phase → Bool
  | closing _ => true
  | checking | parked | ended => false

namespace Loop

/-- A loop that takes commands is sent what it is offered. -/
theorem send_eq_offered (l : Loop) (c : Command) :
    l.send c = if l.isOpen then some (l.offered c) else none := by
  cases h : l.isOpen with
  | true => rw [offered_of_open h, send, h]
  | false => rw [send, h]; rfl

/-- An offer does not move the loop. -/
@[simp] theorem offered_phase (l : Loop) (c : Command) : (l.offered c).phase = l.phase := by
  cases h : l.isOpen with
  | true => rw [offered_of_open h]
  | false => rw [offered_of_closed h]

end Loop

namespace Tracker

/-- Sending touches nothing but the loop. -/
theorem send_eq (t : Tracker σ) (c : Command) :
    (t.send c).1 = { t with loop := t.loop.offered c } := by
  have loop := t.send_loop c
  unfold send at loop ⊢
  split at loop
  · rw [← loop]
  · rw [← loop]

/-- A gate signal touches nothing but gate and loop. -/
theorem signal_eq (t : Tracker σ) (s : GateSignal) :
    (t.signal s).1 =
      { t with
          gate := t.gate.set s
          loop := ((t.gate.answer s).bind commandFor).elim t.loop t.loop.offered } := by
  simp only [signal]
  cases (t.gate.answer s).bind commandFor with
  | none => rfl
  | some c => exact send_eq { t with gate := t.gate.set s } c

/-- An owner ends when it has left its loop and nothing is left to deliver, and tells whoever asked
    for the end. -/
theorem endStep_eq_some {t after : Tracker σ} (h : t.endStep = some after) :
    ∃ ticket, t.loop.phase = .closing ticket ∧
      (t.delivery.isIdle = true ∨ t.delivery.crashed = true) ∧
      after =
        { t with
            loop := { t.loop with phase := .ended }
            answers := t.answers ++ (ticket.map Answer.ended).toList } := by
  unfold endStep at h
  split at h
  · next ticket phase =>
    split at h
    · next finished => exact ⟨ticket, phase, by simpa using finished, (Option.some.inj h).symm⟩
    · cases h
  · cases h

/-- An owner can end just if it has left its loop and the delivery is idle or down. -/
theorem isSome_endStep (t : Tracker σ) :
    t.endStep.isSome = (t.loop.phase.isClosing && (t.delivery.isIdle || t.delivery.crashed)) := by
  unfold endStep
  cases t.loop.phase with
  | closing ticket =>
    simp only [Phase.isClosing, Bool.true_and]
    split
    · next finished => exact finished.symm
    · next busy => exact (Bool.eq_false_iff.2 busy).symm
  | checking | parked | ended => rfl

/-- What a move is to the owner's loop. -/
def loopEvent (t : Tracker σ) : Move → Option Event
  | .signalled s => ((t.gate.answer s).bind commandFor).map .sent
  | .requested c _ => some (.sent c)
  | .abandoned => some .abandoned
  | .turned branch r => some (.turned branch r)
  | .ended => if t.endStep.isSome then some .delivered else none
  | .listed _ | .elapsed _ | .delivered => none

end Tracker

namespace Run

/-- A command that is sent is offered. -/
theorem next_sent (run : Run) (c : Command) :
    run.next (.sent c) = { run with loop := run.loop.offered c } := by
  simp only [next, Loop.send_eq_offered]
  cases h : run.loop.isOpen with
  | true => rfl
  | false => simp [Loop.offered_of_closed h]

end Run

namespace DeliveryRun

/-- The delivery hears something that the owner says; it has no part in a status. -/
def hear (sink : Sink σ) (run : DeliveryRun σ) : Output → DeliveryRun σ
  | .report r => run.next sink (.submitted r)
  | .fence ticket => run.next sink (.fenced ticket)
  | .status _ => run

/-- The delivery stays sound whatever it hears. -/
theorem Sound.hear {sink : Sink σ} {run : DeliveryRun σ} (h : run.Sound) (word : Output) :
    (run.hear sink word).Sound := by
  cases word with
  | report r =>
    show (run.next sink (.submitted r)).Sound
    exact h.next _
  | fence ticket =>
    show (run.next sink (.fenced ticket)).Sound
    exact h.next _
  | status ticket => exact h

/-- What the delivery hears does not reach the sink yet. -/
theorem sink_hear (sink : Sink σ) (run : DeliveryRun σ) (word : Output) :
    (run.hear sink word).sink = run.sink := by
  cases word <;> rfl

/-- Nor does it when the owner says many things. -/
theorem sink_foldl_hear (sink : Sink σ) (run : DeliveryRun σ) (out : List Output) :
    (out.foldl (hear sink) run).sink = run.sink := by
  induction out generalizing run with
  | nil => rfl
  | cons word rest ih => exact (ih _).trans (sink_hear sink run word)

end DeliveryRun

/-! ### Runs -/

/-- A tracker, whose sink is watched, and the record of what it has gone through. -/
structure TrackerRun (σ : Type) where
  tracker : Tracker (σ × List (Call × SinkReply))
  /-- The commands that were taken into the queue, in order. -/
  taken : List Command
  /-- What the owner's loop has gone through. -/
  front : Run
  /-- What the delivery has gone through. -/
  back : DeliveryRun σ

namespace TrackerRun

/-- Nothing has happened to a new tracker. -/
def start (interval : Nat) (candidates : List Candidate) (s : σ) : TrackerRun σ where
  tracker := .new interval candidates (s, [])
  taken := []
  front := .start interval
  back := .start s

/-- What a move makes of the record. -/
def recorded (sink : Sink σ) (run : TrackerRun σ) (m : Move) : TrackerRun σ :=
  match run.tracker.loopEvent m with
  | some e =>
    { run with
        taken := run.taken ++ run.front.takes e
        front := run.front.next e
        -- the delivery hears what the owner says
        back := (run.front.tells e).foldl (DeliveryRun.hear sink) run.back }
  | none =>
    match m with
    | .delivered => { run with back := run.back.next sink .turned }
    | _ => run

/-- What an event makes of a run. -/
def next (sink : Sink σ) (run : TrackerRun σ) : TrackerEvent σ → TrackerRun σ
  | .moved m => { run.recorded sink m with tracker := run.tracker.moved sink.watched m }
  | .sinkChanged change =>
    let s := change run.tracker.sink.1
    { run with
        tracker := { run.tracker with sink := (s, run.tracker.sink.2) }
        back := run.back.next sink (.sinkChanged s) }

/-- The run through some events, oldest first. -/
def of (sink : Sink σ) (interval : Nat) (candidates : List Candidate) (s : σ)
    (events : List (TrackerEvent σ)) : TrackerRun σ :=
  events.foldl (next sink) (start interval candidates s)

/-- What the owner has done, in order. -/
def acts (run : TrackerRun σ) : List Act := run.front.acts

/-- The calls to the sink that came to an end, in order. -/
def calls (run : TrackerRun σ) : List Call := run.tracker.sink.2.map Prod.fst

section

variable (sink : Sink σ) (interval : Nat) (candidates : List Candidate) (s : σ)

/-- A run can be taken on from any point. -/
theorem of_append (events later : List (TrackerEvent σ)) :
    of sink interval candidates s (events ++ later) =
      later.foldl (next sink) (of sink interval candidates s events) :=
  List.foldl_append

/-- One event more. -/
theorem of_append_singleton (events : List (TrackerEvent σ)) (e : TrackerEvent σ) :
    of sink interval candidates s (events ++ [e]) =
      (of sink interval candidates s events).next sink e :=
  of_append sink interval candidates s events [e]

end

/-! ### What an event adds to the record -/

/-- Everything that an event can add to the record: the loop goes through something, the delivery
    or its sink makes a move of its own, or nothing is added. -/
inductive Adds (sink : Sink σ) (run : TrackerRun σ) : TrackerRun σ → Prop
  | front (t : Tracker (σ × List (Call × SinkReply))) (e : Event) :
      Adds sink run
        { tracker := t
          taken := run.taken ++ run.front.takes e
          front := run.front.next e
          back := (run.front.tells e).foldl (DeliveryRun.hear sink) run.back }
  | turned (t : Tracker (σ × List (Call × SinkReply))) :
      Adds sink run { run with tracker := t, back := run.back.next sink .turned }
  | sinkChanged (t : Tracker (σ × List (Call × SinkReply))) (s : σ) :
      Adds sink run { run with tracker := t, back := run.back.next sink (.sinkChanged s) }
  | nothing (t : Tracker (σ × List (Call × SinkReply))) : Adds sink run { run with tracker := t }

/-- A move that is an event of the loop goes on with its record, and the delivery hears what is
    said. -/
theorem recorded_of_event {sink : Sink σ} {run : TrackerRun σ} {m : Move} {e : Event}
    (event : run.tracker.loopEvent m = some e) :
    run.recorded sink m =
      { run with
          taken := run.taken ++ run.front.takes e
          front := run.front.next e
          back := (run.front.tells e).foldl (DeliveryRun.hear sink) run.back } := by
  simp only [recorded, event]

/-- Any other move leaves the record alone, unless it is one of the delivery. -/
theorem recorded_of_no_event {sink : Sink σ} {run : TrackerRun σ} {m : Move}
    (event : run.tracker.loopEvent m = none) (other : m ≠ .delivered) :
    run.recorded sink m = run := by
  simp only [recorded, event]

/-- What a move adds to the commands that were taken. -/
def added (run : TrackerRun σ) (m : Move) : List Command :=
  (run.tracker.loopEvent m).elim [] run.front.takes

/-- A command is taken when it is sent to a loop that takes commands. -/
theorem recorded_taken (run : TrackerRun σ) (sink : Sink σ) (m : Move) :
    (run.recorded sink m).taken = run.taken ++ run.added m := by
  unfold recorded added
  split
  · next e event => rw [event]; rfl
  · next event =>
    rw [event]
    split <;> exact (List.append_nil _).symm

/-- The record of the loop goes on with the event that the move is. -/
theorem recorded_front (run : TrackerRun σ) (sink : Sink σ) (m : Move) :
    (run.recorded sink m).front = (run.tracker.loopEvent m).elim run.front run.front.next := by
  unfold recorded
  split
  · next e event => rw [event]; rfl
  · next event =>
    rw [event]
    split <;> rfl

/-- A gate signal is recorded as the command that follows from it, if any does. -/
theorem recorded_signalled (sink : Sink σ) (run : TrackerRun σ) (s : GateSignal) :
    run.recorded sink (.signalled s) =
      match (run.tracker.gate.answer s).bind Tracker.commandFor with
      | none => run
      | some c =>
        { run with
            taken := run.taken ++ run.front.takes (.sent c)
            front := run.front.next (.sent c) } := by
  simp only [recorded, Tracker.loopEvent]
  cases (run.tracker.gate.answer s).bind Tracker.commandFor <;> rfl

/-- A move adds an event of the loop, a turn of the delivery or nothing. -/
theorem recorded_adds (sink : Sink σ) (run : TrackerRun σ) (m : Move)
    (t : Tracker (σ × List (Call × SinkReply))) :
    run.Adds sink { run.recorded sink m with tracker := t } := by
  unfold recorded
  split
  · exact .front t _
  · split
    · exact .turned t
    · exact .nothing t

/-- Every event adds one of these. -/
theorem next_adds (sink : Sink σ) (run : TrackerRun σ) (e : TrackerEvent σ) :
    run.Adds sink (run.next sink e) := by
  cases e with
  | moved m => exact recorded_adds sink run m _
  | sinkChanged change => exact .sinkChanged _ _

/-- What is known about the record of a run. -/
structure Recorded (interval : Nat) (run : TrackerRun σ) : Prop where
  accounted : run.front.Accounted interval
  served : run.front.Served run.taken
  sound : run.back.Sound

/-- Nothing has happened yet. -/
theorem start_recorded (interval : Nat) (candidates : List Candidate) (s : σ) :
    (start interval candidates s).Recorded interval where
  accounted := ⟨rfl, rfl, trivial, nofun⟩
  served := Run.start_served interval
  sound := .start s

/-- Whatever is added to the record, what is known of both of its halves stays known. -/
theorem Recorded.next {interval : Nat} {run : TrackerRun σ} (h : run.Recorded interval)
    (sink : Sink σ) (e : TrackerEvent σ) : (run.next sink e).Recorded interval := by
  have adds := next_adds sink run e
  generalize run.next sink e = after at adds ⊢
  cases adds with
  | front t e =>
    -- what the owner said is heard by the delivery word by word
    refine ⟨Run.next_accounted h.accounted e, Run.next_served h.served e, ?_⟩
    exact List.foldlRecOn _ _ h.sound fun _ sound word _ => sound.hear word
  | turned t => exact ⟨h.accounted, h.served, h.sound.next .turned⟩
  | sinkChanged t s =>
    have sound : (run.back.next sink (.sinkChanged s)).Sound := h.sound.next _
    exact ⟨h.accounted, h.served, sound⟩
  | nothing t => exact ⟨h.accounted, h.served, h.sound⟩

/-- It is known of every run. -/
theorem recorded_of (sink : Sink σ) (interval : Nat) (candidates : List Candidate) (s : σ)
    (events : List (TrackerEvent σ)) :
    (of sink interval candidates s events).Recorded interval :=
  List.foldlRecOn events _ (start_recorded interval candidates s) fun _ h e _ => h.next sink e

/-! ### The record is that of the tracker -/

end TrackerRun

/-- The ticket of a status that was told. -/
def Answer.status? : Answer → Option Nat
  | status ticket _ => some ticket
  | ended _ => none

/-- The ticket of a status that the owner was to tell. -/
def Output.status? : Output → Option Nat
  | status ticket => some ticket
  | report _ | fence _ => none

namespace TrackerRun

/-- Loop, delivery and sink of the tracker are those of the record, and so are its answers. -/
structure Faithful (run : TrackerRun σ) : Prop where
  loop : run.tracker.loop = run.front.loop
  delivery : run.tracker.delivery = run.back.delivery
  sink : run.tracker.sink = run.back.sink
  statuses : run.tracker.answers.filterMap Answer.status? = run.front.said.filterMap Output.status?
  ended : ∀ ticket, .ended ticket ∈ run.tracker.answers ↔
    run.front.loop.phase = .ended ∧
      ∃ done checked, run.front.acts = done ++ [.leave checked (some ticket)]
  /-- The owner waits for the delivery before it ends. -/
  finished : run.front.loop.phase = .ended →
    run.back.delivery.isIdle = true ∨ run.back.delivery.crashed = true

/-- A new tracker is as recorded. -/
theorem start_faithful (interval : Nat) (candidates : List Candidate) (s : σ) :
    (start interval candidates s).Faithful :=
  ⟨rfl, rfl, rfl, rfl, fun _ => ⟨nofun, nofun⟩, nofun⟩

/-- Words that the owner says reach the delivery, or are answered at once. -/
theorem foldl_emit_eq (sink : Sink σ) {t : Tracker (σ × List (Call × SinkReply))}
    {back : DeliveryRun σ} (same : t.delivery = back.delivery) (out : List Output) :
    let after := out.foldl Tracker.emit t
    after.delivery = (out.foldl (DeliveryRun.hear sink) back).delivery ∧ after.sink = t.sink ∧
      after.answers.filterMap Answer.status? =
        t.answers.filterMap Answer.status? ++ out.filterMap Output.status? ∧
      ∀ ticket, .ended ticket ∈ after.answers ↔ .ended ticket ∈ t.answers := by
  induction out generalizing t back with
  | nil => exact ⟨same, rfl, (List.append_nil _).symm, fun _ => .rfl⟩
  | cons word rest ih =>
    cases word with
    | report r =>
      have submitted : (t.emit (.report r)).delivery = (back.hear sink (.report r)).delivery :=
        congrArg (fun d : Delivery => (d.submit r).1) same
      exact ih submitted
    | fence ticket =>
      have fenced : (t.emit (.fence ticket)).delivery = (back.hear sink (.fence ticket)).delivery :=
        congrArg (fun d : Delivery => d.fence ticket) same
      exact ih fenced
    | status ticket =>
      -- the answers grow by this one, and no end is among them
      obtain ⟨delivery, sinks, answers, ended⟩ := ih (t := t.emit (.status ticket)) same
      refine ⟨delivery, sinks, ?_, fun ticket => (ended ticket).trans ?_⟩
      · rw [List.foldl_cons, answers]
        simp [Tracker.emit, Answer.status?, Output.status?]
      · simp [Tracker.emit]

/-- An event that the delivery does not notice, and that answers nobody. -/
theorem Faithful.quiet {run after : TrackerRun σ} (h : run.Faithful)
    (loop : after.tracker.loop = after.front.loop)
    (phase : after.front.loop.phase = run.front.loop.phase)
    (acts : after.front.acts = run.front.acts) (said : after.front.said = run.front.said)
    (back : after.back = run.back) (delivery : after.tracker.delivery = run.tracker.delivery)
    (sink : after.tracker.sink = run.tracker.sink)
    (answers : after.tracker.answers = run.tracker.answers) : after.Faithful where
  loop := loop
  delivery := by rw [delivery, back, h.delivery]
  sink := by rw [sink, back, h.sink]
  statuses := by rw [answers, said, h.statuses]
  ended := by
    rw [answers, phase, acts]
    exact h.ended
  finished := by
    rw [phase, back]
    exact h.finished

/-- A command is offered to the loop. -/
theorem Faithful.offered {run : TrackerRun σ} (h : run.Faithful) (gate : Gate) (c : Command) :
    Faithful
      { run with
          tracker := { run.tracker with gate := gate, loop := run.tracker.loop.offered c }
          taken := run.taken ++ run.front.takes (.sent c)
          front := run.front.next (.sent c) } := by
  rw [Run.next_sent]
  exact h.quiet (congrArg (·.offered c) h.loop) (Loop.offered_phase _ c) rfl rfl rfl rfl rfl rfl

/-- The owner makes a step. -/
theorem Faithful.turned {run : TrackerRun σ} (h : run.Faithful) (sink : Sink σ) {branch : Branch}
    {r : Readings} {loop : Loop} {out : List Output}
    (step : run.front.loop.step branch r = some (loop, out)) (taken : List Command) :
    Faithful
      { tracker := out.foldl Tracker.emit { run.tracker with loop := loop }
        taken := taken
        front := ⟨loop, run.front.acts ++ run.front.loop.acts branch r, run.front.said ++ out⟩
        back := out.foldl (DeliveryRun.hear sink) run.back } := by
  -- the end does not come here: a loop that makes a step goes on or closes
  have going : run.front.loop.phase ≠ .ended := by
    intro ended
    have closed : run.front.loop.isOpen = false := by rw [Loop.isOpen, ended]
    rw [Loop.step_of_closed closed] at step
    cases step
  have ahead : loop.phase ≠ .ended := by
    cases Loop.step_serves step with
    | nobody stays | first stays =>
      intro ended
      rw [Loop.isOpen, ended] at stays
      cases stays
    | leaves phase =>
      intro ended
      rw [phase] at ended
      cases ended
  obtain ⟨delivery, sinks, statuses, ended⟩ :=
    foldl_emit_eq sink (t := { run.tracker with loop := loop }) h.delivery out
  refine ⟨(Tracker.foldl_emit _ out).1, delivery, ?_, ?_, fun ticket => ⟨fun told => ?_, ?_⟩,
    fun phase => absurd phase ahead⟩
  · rw [sinks, DeliveryRun.sink_foldl_hear]
    exact h.sink
  · rw [statuses, List.filterMap_append]
    exact congrArg (· ++ _) h.statuses
  · exact absurd ((h.ended ticket).1 ((ended ticket).1 told)).1 going
  · exact fun left => absurd left.1 ahead

/-- The delivery makes a step, if it can make one. -/
theorem Faithful.delivered {run : TrackerRun σ} (h : run.Faithful) (sink : Sink σ) :
    Faithful
      { run with
          tracker := (run.tracker.deliveryStep sink.watched).getD run.tracker
          back := run.back.next sink .turned } := by
  have finished : run.front.loop.phase = .ended →
      (run.back.next sink .turned).delivery.isIdle = true ∨
        (run.back.next sink .turned).delivery.crashed = true := by
    intro ended
    have turn := DeliveryRun.next_turned sink run.back
    generalize run.back.next sink .turned = after at turn ⊢
    -- an owner that has ended has left no work behind, unless the delivery is down
    have busy : run.back.delivery.isIdle = false → run.back.delivery.crashed = true := by
      intro busy
      exact (h.finished ended).resolve_left (by simp [busy])
    cases turn with
    | rests => exact h.finished ended
    | unpacks hand head => exact .inr (busy (by simp [Delivery.isIdle, head]))
    | reaches hand head => exact .inr (busy (by simp [Delivery.isIdle, head]))
    | returns s hand => exact .inr (busy (by simp [Delivery.isIdle, hand]))
    | crashes s hand => exact .inr rfl
  rw [Tracker.deliveryStep, h.delivery, h.sink]
  unfold DeliveryRun.next at finished ⊢
  cases step : run.back.delivery.step sink.watched run.back.sink with
  | none => exact h.quiet h.loop rfl rfl rfl rfl rfl rfl rfl
  | some after =>
    simp only [step] at finished
    exact ⟨h.loop, rfl, rfl, h.statuses, h.ended, finished⟩

/-- The owner ends. -/
theorem Faithful.endsNow {run : TrackerRun σ} (h : run.Faithful) {ticket : Option Nat}
    (phase : run.front.loop.phase = .closing ticket) (served : run.front.Served run.taken)
    (finished : run.back.delivery.isIdle = true ∨ run.back.delivery.crashed = true)
    (taken : List Command) :
    Faithful
      { run with
          tracker := { run.tracker with
            loop := { run.tracker.loop with phase := .ended }
            answers := run.tracker.answers ++ (ticket.map Answer.ended).toList }
          taken := taken
          front := { run.front with loop := { run.front.loop with phase := .ended } } } := by
  refine ⟨congrArg (fun l : Loop => { l with phase := .ended }) h.loop, h.delivery, h.sink, ?_, ?_,
    fun _ => finished⟩
  · have none : ((ticket.map Answer.ended).toList).filterMap Answer.status? = [] := by
      cases ticket <;> rfl
    rw [List.filterMap_append, none, List.append_nil]
    exact h.statuses
  · have closed : run.front.loop.isOpen = false := by rw [Loop.isOpen, phase]
    obtain ⟨-, done, checked, left, last, same | ended⟩ := served.left closed
    · rw [phase] at same
      cases same
      -- nobody was told before, and now it is the one whose request made the owner leave
      have nobody : ∀ asked, .ended asked ∉ run.tracker.answers := by
        intro asked told
        have ended := ((h.ended asked).1 told).1
        rw [phase] at ended
        cases ended
      intro asked
      rw [List.mem_append, Option.mem_toList, Option.map_eq_some_iff]
      constructor
      · rintro (old | ⟨ticket, rfl, same⟩)
        · exact absurd old (nobody asked)
        · cases same
          exact ⟨rfl, done, checked, last⟩
      · rintro ⟨-, done', checked', last'⟩
        have same := List.append_inj_right' (last.symm.trans last') rfl
        cases same
        exact .inr ⟨asked, rfl, rfl⟩
    · rw [phase] at ended
      cases ended

/-- Each move does to the tracker what it adds to the record. -/
theorem Faithful.moved {run : TrackerRun σ} (h : run.Faithful) (served : run.front.Served run.taken)
    (sink : Sink σ) (m : Move) : (run.next sink (.moved m)).Faithful := by
  cases m with
  | signalled s =>
    show Faithful { run.recorded sink (.signalled s) with tracker := (run.tracker.signal s).1 }
    rw [Tracker.signal_eq, recorded_signalled]
    cases (run.tracker.gate.answer s).bind Tracker.commandFor with
    | none => exact h.quiet h.loop rfl rfl rfl rfl rfl rfl rfl
    | some c => exact h.offered _ c
  | requested c free =>
    show Faithful { run.recorded sink (.requested c free) with tracker := (run.tracker.send c).1 }
    rw [Tracker.send_eq]
    exact h.offered run.tracker.gate c
  | abandoned =>
    exact h.quiet (congrArg (fun l : Loop => { l with abandoned := true }) h.loop) rfl rfl rfl rfl
      rfl rfl rfl
  | listed candidates => exact h.quiet h.loop rfl rfl rfl rfl rfl rfl rfl
  | elapsed ms => exact h.quiet h.loop rfl rfl rfl rfl rfl rfl rfl
  | turned branch r =>
    show Faithful
      { run.recorded sink (.turned branch r) with
          tracker := (run.tracker.turn branch r).getD run.tracker }
    rw [recorded_of_event rfl, Tracker.turn, h.loop, Run.next, Run.tells, Run.takes]
    cases step : run.front.loop.step branch r with
    | none => exact h.quiet h.loop rfl rfl rfl rfl rfl rfl rfl
    | some result => exact h.turned sink step _
  | delivered => exact h.delivered sink
  | ended =>
    show Faithful
      { run.recorded sink .ended with tracker := run.tracker.endStep.getD run.tracker }
    cases ends : run.tracker.endStep with
    | none =>
      have event : run.tracker.loopEvent .ended = none := by rw [Tracker.loopEvent, ends]; rfl
      rw [recorded_of_no_event event (by simp)]
      exact h.quiet h.loop rfl rfl rfl rfl rfl rfl rfl
    | some after =>
      -- the end comes to the loop that is recorded as well
      have event : run.tracker.loopEvent .ended = some .delivered := by
        rw [Tracker.loopEvent, ends]; rfl
      obtain ⟨ticket, phase, finished, rfl⟩ := Tracker.endStep_eq_some ends
      rw [h.loop] at phase
      rw [h.delivery] at finished
      have front : run.front.next .delivered =
          { run.front with loop := { run.front.loop with phase := .ended } } := by
        simp only [Run.next, phase]
      rw [recorded_of_event event, front]
      exact h.endsNow phase served finished _

/-- So does each event. -/
theorem Faithful.next {run : TrackerRun σ} (h : run.Faithful) (served : run.front.Served run.taken)
    (sink : Sink σ) (e : TrackerEvent σ) : (run.next sink e).Faithful := by
  cases e with
  | moved m => exact h.moved served sink m
  | sinkChanged change =>
    have sinks : (change run.tracker.sink.1, run.tracker.sink.2) =
        (change run.tracker.sink.1, run.back.sink.2) := by rw [h.sink]
    exact ⟨h.loop, h.delivery, sinks, h.statuses, h.ended, h.finished⟩

/-- In every run the record is that of the tracker. -/
theorem faithful_of (sink : Sink σ) (interval : Nat) (candidates : List Candidate) (s : σ)
    (events : List (TrackerEvent σ)) : (of sink interval candidates s events).Faithful := by
  induction events using List.reverseRecOn with
  | nil => exact start_faithful interval candidates s
  | append_singleton events e ih =>
    rw [of_append_singleton]
    exact ih.next (recorded_of sink interval candidates s events).served sink e

end TrackerRun

/-! ### While no call crashes -/

/-- The sink brings no delivery down. -/
def Sink.Calm (sink : Sink σ) : Prop := ∀ s c, (sink.offer s c).2 ≠ .crashed

/-- The ticket of a fence that the owner was to put up. -/
def Output.fence? : Output → Option Nat
  | fence ticket => some ticket
  | report _ | status _ => none

namespace DeliveryRun

/-- A call that comes to an end is written down with the reply of the sink. -/
theorem log_turned (sink : Sink σ) (run : DeliveryRun σ) :
    (run.next sink .turned).sink.2 = run.sink.2 ∨
      ∃ c, (run.next sink .turned).sink.2 = run.sink.2 ++ [(c, (sink.offer run.sink.1 c).2)] := by
  unfold next
  cases step : run.delivery.step sink.watched run.sink with
  | none => exact .inl rfl
  | some after =>
    rw [Delivery.step_eq] at step
    split at step
    case h_1 c rest hand =>
      refine .inr ⟨c, ?_⟩
      rcases answer : sink.offer run.sink.1 c with ⟨s, reply⟩
      simp only [Sink.watched, answer] at step
      cases reply with
      | waiting => cases step
      | accepted | refused | crashed => cases step; rfl
    case h_2 hand =>
      -- nothing is in hand, so no call is made
      split at step
      case h_1 | h_2 => cases step; exact .inl rfl
      case h_3 => cases step

/-- Before a calm sink no call crashes. -/
theorem whole_next {sink : Sink σ} (calm : sink.Calm) {run : DeliveryRun σ} (whole : ¬run.Broken)
    (e : DeliveryEvent σ) : ¬(run.next sink e).Broken := by
  cases e with
  | submitted r => exact whole
  | fenced ticket => exact whole
  | sinkChanged s => exact whole
  | turned =>
    rcases log_turned sink run with same | ⟨c, log⟩
    · rw [Broken, same]
      exact whole
    · rw [broken_of_log log]
      exact fun broken => broken.elim whole (calm _ _)

end DeliveryRun

/-- A delivery has heard what the owner said: it has accepted the reports, and each fence with the
    reports that were said before it. -/
structure Relayed (said : List Output) (back : DeliveryRun σ) : Prop where
  accepted : back.accepted = Output.reports said
  tickets : back.flushes.map Prod.fst = said.filterMap Output.fence?
  fences : ∀ f ∈ back.flushes, ∃ earlier later,
    said = earlier ++ .fence f.1 :: later ∧ f.2 = Output.reports earlier

/-- A delivery that is up hears every word. -/
theorem Relayed.hear {said : List Output} {back : DeliveryRun σ} (h : Relayed said back)
    (up : back.delivery.crashed = false) (sink : Sink σ) (word : Output) :
    Relayed (said ++ [word]) (back.hear sink word) ∧
      (back.hear sink word).delivery.crashed = false := by
  -- the fences so far stand where they stood
  have older : ∀ f ∈ back.flushes, ∃ earlier later,
      said ++ [word] = earlier ++ .fence f.1 :: later ∧ f.2 = Output.reports earlier := by
    intro f hf
    obtain ⟨earlier, later, rfl, reports⟩ := h.fences f hf
    exact ⟨earlier, later ++ [word], by simp, reports⟩
  cases word with
  | report r =>
    have accepted : (back.hear sink (.report r)).accepted = back.accepted ++ [r] := by
      simp only [DeliveryRun.hear, DeliveryRun.next, Delivery.submit_of_running up, if_true]
    refine ⟨⟨?_, ?_, older⟩, ?_⟩
    · rw [accepted, h.accepted, Output.reports_append]
      rfl
    · rw [List.filterMap_append]
      exact h.tickets.trans (List.append_nil _).symm
    · simpa [DeliveryRun.hear, DeliveryRun.next, Delivery.submit_of_running up] using up
  | fence ticket =>
    -- the new fence stands behind all that was said
    refine ⟨⟨?_, ?_, fun f hf => ?_⟩, ?_⟩
    · rw [Output.reports_append]
      exact h.accepted.trans (List.append_nil _).symm
    · rw [List.filterMap_append, ← h.tickets]
      exact List.map_append
    · rcases List.mem_append.1 hf with old | new
      · exact older f old
      · rw [List.mem_singleton.1 new]
        exact ⟨said, [], rfl, h.accepted⟩
    · simpa [DeliveryRun.hear, DeliveryRun.next, Delivery.fence_of_running up] using up
  | status ticket =>
    refine ⟨⟨?_, ?_, older⟩, up⟩
    · rw [Output.reports_append]
      exact h.accepted.trans (List.append_nil _).symm
    · rw [List.filterMap_append]
      exact h.tickets.trans (List.append_nil _).symm

/-- A delivery that is up hears one word after the other. -/
theorem Relayed.foldl_hear {said : List Output} {back : DeliveryRun σ} (h : Relayed said back)
    (up : back.delivery.crashed = false) (sink : Sink σ) (out : List Output) :
    Relayed (said ++ out) (out.foldl (DeliveryRun.hear sink) back) := by
  induction out generalizing said back with
  | nil => rwa [List.append_nil]
  | cons word rest ih =>
    obtain ⟨heard, up⟩ := h.hear up sink word
    rw [List.append_cons]
    exact ih heard up

/-- A turn of the delivery does not change what it has heard. -/
theorem Relayed.turned {said : List Output} {back : DeliveryRun σ} (h : Relayed said back)
    (sink : Sink σ) : Relayed said (back.next sink .turned) := by
  have same : (back.next sink .turned).accepted = back.accepted ∧
      (back.next sink .turned).flushes = back.flushes := by
    unfold DeliveryRun.next
    cases back.delivery.step sink.watched back.sink with
    | none => exact ⟨rfl, rfl⟩
    | some after => exact ⟨rfl, rfl⟩
  exact ⟨same.1 ▸ h.accepted, same.2 ▸ h.tickets, same.2 ▸ h.fences⟩

namespace TrackerRun

/-- No call has brought the delivery down, and it has heard all that the owner said. -/
structure Upright (run : TrackerRun σ) : Prop where
  whole : ¬run.back.Broken
  relayed : Relayed run.front.said run.back

/-- Nothing was said and nothing was heard. -/
theorem start_upright (interval : Nat) (candidates : List Candidate) (s : σ) :
    (start interval candidates s).Upright where
  whole := by simp [start, DeliveryRun.start, DeliveryRun.Broken]
  relayed := ⟨rfl, rfl, nofun⟩

/-- Whatever happens, the delivery stays up and hears all that is said. -/
theorem Upright.next {run : TrackerRun σ} (h : run.Upright) (sound : run.back.Sound)
    {sink : Sink σ} (calm : sink.Calm) (e : TrackerEvent σ) : (run.next sink e).Upright := by
  have adds := next_adds sink run e
  generalize run.next sink e = after at adds ⊢
  cases adds with
  | front t e =>
    constructor
    · rw [DeliveryRun.Broken, DeliveryRun.sink_foldl_hear]
      exact h.whole
    · rw [Run.next_said]
      exact h.relayed.foldl_hear (sound.orderly h.whole).up sink _
  -- with a calm sink no call crashes, so nothing is lost on the way
  | turned t => exact ⟨DeliveryRun.whole_next calm h.whole _, h.relayed.turned sink⟩
  | sinkChanged t s => exact ⟨h.whole, h.relayed.accepted, h.relayed.tickets, h.relayed.fences⟩
  | nothing t => exact ⟨h.whole, h.relayed⟩

/-- Before a calm sink every run is upright. -/
theorem upright_of {sink : Sink σ} (calm : sink.Calm) (interval : Nat)
    (candidates : List Candidate) (s : σ) (events : List (TrackerEvent σ)) :
    (of sink interval candidates s events).Upright := by
  induction events using List.reverseRecOn with
  | nil => exact start_upright interval candidates s
  | append_singleton events e ih =>
    rw [of_append_singleton]
    exact ih.next (recorded_of sink interval candidates s events).sound calm e

/-- What is known about every run before a calm sink. -/
structure Lawful (interval : Nat) (run : TrackerRun σ) : Prop where
  recorded : run.Recorded interval
  faithful : run.Faithful
  upright : run.Upright

/-- All of this is known of every run before a calm sink. -/
theorem lawful_of {sink : Sink σ} (calm : sink.Calm) {interval : Nat} {candidates : List Candidate}
    {s : σ} (events : List (TrackerEvent σ)) :
    (of sink interval candidates s events).Lawful interval :=
  ⟨recorded_of .., faithful_of .., upright_of calm ..⟩

namespace Lawful

variable {interval : Nat} {run : TrackerRun σ}

/-- No call has crashed, so the delivery is orderly. -/
theorem orderly (h : run.Lawful interval) : run.back.Orderly :=
  h.recorded.sound.orderly h.upright.whole

/-- The words that are recorded are those of the owner. -/
theorem said (h : run.Lawful interval) : (Owner.new interval).said run.acts = run.front.said :=
  h.recorded.accounted.said

/-- The calls of the tracker are those of the record. -/
theorem calls_eq (h : run.Lawful interval) : run.calls = run.back.ended := by
  rw [calls, h.faithful.sink]
  rfl

/-- The calls that are due are those of all that the owner has reported. -/
theorem due_eq (h : run.Lawful interval) :
    run.back.due = ((Owner.new interval).reports run.acts).flatMap Report.calls := by
  rw [DeliveryRun.due, h.upright.relayed.accepted, Owner.reports, h.said]

/-- With nothing left to deliver, all the calls have come to an end. -/
theorem calls_of_idle (h : run.Lawful interval) (idle : run.tracker.delivery.isIdle = true) :
    run.calls = ((Owner.new interval).reports run.acts).flatMap Report.calls := by
  rw [h.faithful.delivery] at idle
  obtain ⟨queue, hand⟩ := Delivery.isIdle_iff.1 idle
  rw [h.calls_eq, (h.orderly.at_rest hand queue).1, h.due_eq]

end Lawful

end TrackerRun

end OnScreen
