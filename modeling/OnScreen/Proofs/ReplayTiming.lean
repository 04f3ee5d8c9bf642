import OnScreen.Proofs.ReplayCourse
import OnScreen.Proofs.Settling

namespace OnScreen

/-!
# Courses come to their end

The program lets everything run whenever the script waits and whenever it waits for an answer, and
nothing in between.  A course of the replay can do the same from wherever it is, so there is always
a way for the driver to finish; and the way that the program takes is one of them.

* `Tracker.unwatched` — a tracker whose sink is not watched.
* `Course.Leads`, `Course.Follows` — what can happen to a course, and a course that is where a
  tracker is.
* `Course.Follows.feed`, `Course.Follows.request` — it can follow the tracker to where it is next.
* `Course.can_finish` — whatever has happened, the driver can still finish.
* `Course.exists_finished_as_program` — it can finish as the program does.
-/

variable {σ : Type}

/-! ### Trackers with and without a log -/

/-- A watched sink answers as the sink does. -/
theorem Delivery.step_watched (sink : Sink σ) (d : Delivery) (s : σ × List (Call × SinkReply)) :
    (d.step sink.watched s).map (fun (after, d) => (after.1, d)) = d.step sink s.1 := by
  rw [step_eq, step_eq]
  split
  · next c rest hand =>
    rcases answer : sink.offer s.1 c with ⟨s', reply⟩
    simp only [Sink.watched, answer]
    cases reply <;> rfl
  · split <;> rfl

namespace Tracker

/-- The tracker as its clients know it: nobody watches its sink, and they number their requests. -/
def unwatched (ticket : Nat) (w : Tracker (σ × List (Call × SinkReply))) : Tracker σ :=
  { w with sink := w.sink.1, nextTicket := ticket }

variable (sink : Sink σ) (ticket : Nat) (w : Tracker (σ × List (Call × SinkReply)))

/-- What the owner says goes to the delivery alike, whether a log is kept or not. -/
theorem unwatched_foldl_emit (out : List Output) :
    (out.foldl emit w).unwatched ticket = out.foldl emit (w.unwatched ticket) := by
  induction out generalizing w with
  | nil => rfl
  | cons word rest ih =>
    have same : (w.emit word).unwatched ticket = (w.unwatched ticket).emit word := by
      cases word <;> rfl
    rw [List.foldl_cons, List.foldl_cons, ih, same]

/-- So do commands go to the loop. -/
theorem unwatched_send (c : Command) :
    (w.send c).1.unwatched ticket = ((w.unwatched ticket).send c).1 := by
  rw [send_eq, send_eq]
  rfl

/-- So do signals go to the gate. -/
theorem unwatched_signal (s : GateSignal) :
    (w.signal s).1.unwatched ticket = ((w.unwatched ticket).signal s).1 := by
  rw [signal_eq, signal_eq]
  rfl

/-- An owner ends alike, whether a log is kept or not. -/
theorem unwatched_endStep :
    (w.unwatched ticket).endStep = w.endStep.map (unwatched ticket) := by
  -- whether the end comes does not depend on the log
  have both : (w.unwatched ticket).endStep.isSome = w.endStep.isSome := by
    rw [isSome_endStep, isSome_endStep]
    rfl
  cases step : w.endStep with
  | none =>
    rw [step] at both
    exact Option.isNone_iff_eq_none.1 (Option.isSome_eq_false_iff.1 both)
  | some after =>
    rw [step] at both
    obtain ⟨other, same⟩ := Option.isSome_iff_exists.1 both
    obtain ⟨asker, phase, -, rfl⟩ := endStep_eq_some step
    obtain ⟨asker', phase', -, rfl⟩ := endStep_eq_some same
    cases phase.symm.trans phase'
    exact same

/-- Watching the sink changes no move. -/
theorem unwatched_moved (m : Move) :
    (w.moved sink.watched m).unwatched ticket = (w.unwatched ticket).moved sink m := by
  cases m with
  | signalled s => exact w.unwatched_signal ticket s
  | requested c free => exact w.unwatched_send ticket c
  | abandoned | listed | elapsed => rfl
  | turned branch r =>
    simp only [moved, turn]
    rw [show (w.unwatched ticket).loop = w.loop from rfl]
    cases w.loop.step branch r with
    | none => rfl
    | some result => exact unwatched_foldl_emit ticket { w with loop := result.1 } result.2
  | delivered =>
    simp only [moved, deliveryStep]
    rw [show (w.unwatched ticket).delivery.step sink (w.unwatched ticket).sink =
      w.delivery.step sink w.sink.1 from rfl, ← Delivery.step_watched]
    cases w.delivery.step sink.watched w.sink <;> rfl
  | ended =>
    simp only [moved, unwatched_endStep]
    cases w.endStep <;> rfl

end Tracker

/-- A client makes a request, with a ticket of its own. -/
def Tracker.asked (t : Tracker σ) (q : AwaitedRequest) : Tracker σ :=
  (t.ticket.1.send q.command).1

/-- A client makes a request, and lets everything run. -/
def Tracker.request (sink : Sink σ) (t : Tracker σ) (q : AwaitedRequest) : Tracker σ :=
  (t.asked q).settle sink

/-- Asking offers the command and takes a ticket. -/
theorem Tracker.asked_eq (t : Tracker σ) (q : AwaitedRequest) :
    t.asked q =
      { t with loop := t.loop.offered q.command, nextTicket := t.nextTicket + 1 } := by
  rw [asked, send_eq]
  rfl

/-- The list behind the move of a step. -/
theorem Tracker.candidates_move (sink : Sink σ) (t : Tracker σ) (s : Step) :
    (t.moved sink s.move).candidates = s.list?.getD t.candidates := by
  cases s with
  | list items => rfl
  | wait ms => rfl
  | panelExpanded value | dozing value | barState state =>
    simp only [Step.move, moved, signal_eq]
    rfl
  | _ =>
    simp only [Step.move, moved, send_eq]
    rfl

/-- Steps are fed one after the other. -/
theorem Replay.feed_cons {t after : Tracker LineSink} {s : Step} {left : List Step}
    {marks : List Nat} (ok : (t.apply LineSink.sink s).2 = .ok ())
    (fed : feed (t.apply LineSink.sink s).1 left = .ok (after, marks)) :
    ∃ all, feed t (s :: left) = .ok (after, all) := by
  unfold feed
  rcases applied : t.apply LineSink.sink s with ⟨next, answer⟩
  rw [applied] at ok fed
  simp only at ok fed
  subst ok
  exact ⟨_, by simp only [fed]; rfl⟩

/-! ### Following the program -/

namespace Course

/-- Something can happen that leads from one course to the other. -/
def Leads (f : Farewell) : Course → Course → Prop :=
  Relation.ReflTransGen fun c later => ∃ what, c.next f what = later

/-- The course is where the program is with its tracker. -/
structure Follows (f : Farewell) (interval : Nat) (steps : List Step) (t : Tracker LineSink)
    (c : Course) : Prop where
  sound : c.Sound f interval steps
  same : c.run.tracker.unwatched t.nextTicket = t
  current : t.candidates ∈ c.held

variable {f : Farewell} {interval : Nat} {steps : List Step} {t : Tracker LineSink} {c : Course}

/-- The list that a step leaves is one of those that there have been. -/
theorem mem_held_applied (c : Course) {items : List Candidate} (h : items ∈ c.held) (s : Step) :
    s.list?.getD items ∈ [] :: (c.applied ++ [s]).filterMap Step.list? := by
  cases list : s.list? with
  | none => exact c.held_subset s h
  | some new =>
    refine List.mem_cons_of_mem _ (List.mem_filterMap.2 ⟨s, ?_, list⟩)
    exact List.mem_append_right _ List.mem_cons_self

/-- A good script is not refused. -/
theorem Sound.next_eq (h : c.Sound f interval steps) (what : Happening) :
    c.next f what = c.happened f what := by
  unfold Course.next
  split
  · next e driver => exact absurd driver (h.driver_ne_refused e)
  · rfl

/-- A move that replaces no list leaves the last one among those that were held. -/
theorem current_moved (current : c.run.tracker.candidates ∈ c.held) {m : Move}
    (other : ∀ items, m ≠ .listed items) : (c.moved m).run.tracker.candidates ∈ c.held := by
  show (c.run.tracker.moved LineSink.sink.watched m).candidates ∈ c.held
  rwa [Tracker.moved_candidates _ other]

/-- The list that the driver leaves to the owner is one of those that there have been. -/
theorem Sound.current_drive (h : c.Sound f interval steps)
    (current : c.run.tracker.candidates ∈ c.held) :
    (c.drive f).run.tracker.candidates ∈ (c.drive f).held := by
  unfold Course.drive
  split
  · exact current
  · next s left driver =>
    unfold Course.apply
    split
    · exact current
    · rw [Tracker.apply_of_open LineSink.sink.watched (h.isOpen_of_applying driver) s]
      show (c.run.tracker.moved LineSink.sink.watched s.move).candidates ∈ _
      -- a step may set another list, which is held from then on
      rw [Tracker.candidates_move]
      exact c.mem_held_applied current s
  · next s till left driver =>
    split
    · exact c.held_subset s current
    · exact current
  · exact current
  · next q left driver =>
    unfold Course.ask
    rw [Tracker.send_of_open (h.isOpen_of_asking driver)]
    exact current_moved current nofun
  · split <;> exact current
  all_goals exact current

/-- The list that stands in the tracker is always among those that were held. -/
theorem Sound.current_next (h : c.Sound f interval steps)
    (current : c.run.tracker.candidates ∈ c.held) (what : Happening) :
    (c.next f what).run.tracker.candidates ∈ (c.next f what).held := by
  rw [h.next_eq]
  cases what with
  | driven => exact h.current_drive current
  | turned branch r =>
    simp only [happened]
    split
    · apply current_moved current
      simp
    · exact current
  | delivered | ended | elapsed =>
    apply current_moved current
    simp

/-- What the driver does next can happen, and is sound. -/
theorem Sound.drives (h : c.Sound f interval steps) {later : Course} (drives : c.drive f = later) :
    (∃ what, c.next f what = later) ∧ later.Sound f interval steps := by
  rw [← drives]
  exact ⟨⟨.driven, h.next_eq .driven⟩, h.drive⟩

namespace Follows

/-- What runs by itself in the program can happen by itself. -/
theorem runsTo (h : c.Follows f interval steps t) {after : Tracker LineSink}
    (runs : t.RunsTo LineSink.sink after) :
    ∃ run, c.Leads f { c with run := run } ∧
      Follows f interval steps after { c with run := run } := by
  induction runs with
  | refl => exact ⟨c.run, .refl, h⟩
  | @tail before _ _ step ih =>
    obtain ⟨run, leads, there⟩ := ih
    obtain ⟨m, own, rfl⟩ := step
    -- each move of the tracker's own can happen to the course as well
    have happens : ∃ what, { c with run := run }.next f what = { c with run := run }.moved m := by
      cases own with
      | turned branch =>
        refine ⟨.turned branch (.still before.clock before.candidates), ?_⟩
        rw [there.sound.next_eq]
        exact if_pos ⟨there.current, there.current⟩
      | delivered => exact ⟨.delivered, there.sound.next_eq _⟩
      | ended => exact ⟨.ended, there.sound.next_eq _⟩
      | elapsed ms => exact ⟨.elapsed ms, there.sound.next_eq _⟩
    -- after it the course is where the tracker is
    refine ⟨(run.next LineSink.sink (.moved m)), leads.tail happens, ?_, ?_, ?_⟩
    · obtain ⟨what, same⟩ := happens
      have sound := there.sound.next what
      rw [same] at sound
      exact sound
    · show (run.tracker.moved LineSink.sink.watched m).unwatched _ = _
      rw [Tracker.moved_nextTicket, Tracker.unwatched_moved, there.same]
    · rw [own.candidates]
      exact there.current

/-- The loops are the same. -/
theorem loop_eq (h : c.Follows f interval steps t) : c.run.tracker.loop = t.loop := by
  rw [← h.same]
  rfl

/-- So are the clocks. -/
theorem clock_eq (h : c.Follows f interval steps t) : c.run.tracker.clock = t.clock := by
  rw [← h.same]
  rfl

/-- So are the lines that were written. -/
theorem lines_eq (h : c.Follows f interval steps t) : c.lines = t.lines := by
  rw [← h.same]
  rfl

/-- The driver makes the move of a step. -/
theorem applyMove (h : c.Follows f interval steps t) {s : Step} {left : List Step}
    (driver : c.driver = .applying (s :: left)) (active : s.pause? = none) :
    ∃ later, c.Leads f later ∧ later.driver = .applying left ∧
      later.Follows f interval steps (t.moved LineSink.sink s.move) := by
  have taking := h.sound.isOpen_of_applying driver
  -- the driver takes the step at once
  have drives : c.drive f =
      { c.moved s.move with applied := c.applied ++ [s], driver := .applying left } := by
    simp only [drive, driver]
    unfold Course.apply
    rw [active, Tracker.apply_of_open LineSink.sink.watched taking s]
  obtain ⟨happens, sound⟩ := h.sound.drives drives
  refine ⟨_, .single happens, rfl, sound, ?_, ?_⟩
  · show (c.run.tracker.moved LineSink.sink.watched s.move).unwatched _ = _
    rw [Tracker.moved_nextTicket, Tracker.unwatched_moved, h.same]
  · rw [Tracker.candidates_move]
    exact c.mem_held_applied h.current s

/-- The driver wakes up when it is late enough. -/
theorem wake (h : c.Follows f interval steps t) {s : Step} {till : Instant} {left : List Step}
    (driver : c.driver = .sleeping s till left) (late : till ≤ t.clock) :
    ∃ later, c.Leads f later ∧ later.driver = .applying left ∧ later.Follows f interval steps t := by
  have drives : c.drive f = { c with applied := c.applied ++ [s], driver := .applying left } := by
    simp only [drive, driver]
    rw [h.clock_eq, if_pos late]
  obtain ⟨happens, sound⟩ := h.sound.drives drives
  exact ⟨_, .single happens, rfl, sound, h.same, c.held_subset s h.current⟩

/-- The driver sleeps while the program lets time pass. -/
theorem sleep (h : c.Follows f interval steps t) {ms : Nat} {left : List Step}
    (driver : c.driver = .applying (.wait ms :: left)) :
    ∃ later, c.Leads f later ∧ later.driver = .applying left ∧
      later.Follows f interval steps (t.pass LineSink.sink ms) := by
  -- the driver goes to sleep
  have dozes : c.drive f =
      { c with driver := .sleeping (.wait ms) (c.run.tracker.clock + ms) left } := by
    simp only [drive, driver]
    rfl
  obtain ⟨first, asleep⟩ := h.sound.drives dozes
  have follows : Follows f interval steps t
      { c with driver := .sleeping (.wait ms) (c.run.tracker.clock + ms) left } :=
    ⟨asleep, h.same, h.current⟩
  -- while it sleeps the tracker runs until the time is over
  obtain ⟨run, leads, there⟩ := follows.runsTo (t.runsTo_pass LineSink.sink ms)
  have late : c.run.tracker.clock + ms ≤ (t.pass LineSink.sink ms).clock := by
    rw [h.clock_eq]
    exact Nat.le_refl _
  obtain ⟨c₂, wakes, driver₂, h₂⟩ := there.wake rfl late
  exact ⟨c₂, (Relation.ReflTransGen.head first leads).trans wakes, driver₂, h₂⟩

/-- The driver applies the step that the program applies. -/
theorem apply (h : c.Follows f interval steps t) {s : Step} {left : List Step}
    (driver : c.driver = .applying (s :: left)) :
    (t.apply LineSink.sink s).2 = .ok () ∧
      (t.apply LineSink.sink s).1.nextTicket = t.nextTicket ∧
      ∃ later, c.Leads f later ∧ later.driver = .applying left ∧
        later.Follows f interval steps (t.apply LineSink.sink s).1 := by
  have taking := h.sound.isOpen_of_applying driver
  rw [h.loop_eq] at taking
  refine ⟨Tracker.apply_of_open LineSink.sink taking s, ?_⟩
  cases pause : s.pause? with
  | none =>
    -- a step without a pause is a single move
    rw [Tracker.apply_eq_moved LineSink.sink t pause]
    exact ⟨t.moved_nextTicket s.move, h.applyMove driver pause⟩
  | some ms =>
    obtain rfl : s = .wait ms := by
      cases s <;> cases pause
      rfl
    exact ⟨(t.runsTo_pass LineSink.sink ms).nextTicket, h.sleep driver⟩

/-- The driver applies all the steps that the program applies. -/
theorem feed (h : c.Follows f interval steps t) {left : List Step}
    (driver : c.driver = .applying left) :
    ∃ after marks, Replay.feed t left = .ok (after, marks) ∧ after.nextTicket = t.nextTicket ∧
      ∃ later, c.Leads f later ∧ later.driver = .applying [] ∧
        later.Follows f interval steps after := by
  induction left generalizing t c with
  | nil => exact ⟨t, [], rfl, rfl, c, .refl, driver, h⟩
  | cons s left ih =>
    -- one step, and then the others from where it leads
    obtain ⟨ok, ticket, next, leads, driver, there⟩ := h.apply driver
    obtain ⟨after, marks, fed, tickets, last, goes, done, final⟩ := ih there driver
    obtain ⟨marks, fed⟩ := Replay.feed_cons ok fed
    exact ⟨after, marks, fed, tickets.trans ticket, last, leads.trans goes, done, final⟩

/-- When everything has run in the program, the course is at rest too. -/
theorem atRest (h : c.Follows f interval steps (t.settle LineSink.sink)) :
    c.run.tracker.AtRest := by
  obtain ⟨rests, idle, ended⟩ := Tracker.rests_settle LineSink.sink_prompt t
  refine ⟨?_, ?_, ?_⟩
  · cases taking : c.run.tracker.loop.isOpen with
    | true =>
      rw [h.loop_eq] at taking ⊢
      exact rests.inbox_eq_nil taking
    -- a loop that was left has nothing queued
    | false => exact h.sound.regular.lawful.inbox_of_closed taking
  · rw [← h.same] at idle
    exact idle
  · rw [← h.same, Tracker.unwatched_endStep] at ended
    exact Option.map_eq_none_iff.1 ended

/-- The driver makes the request that the program makes. -/
theorem ask (h : c.Follows f interval steps t) {q : AwaitedRequest} {left : List AwaitedRequest}
    (driver : c.driver = .asking (q :: left)) :
    ∃ later, c.Leads f later ∧ later.driver = .awaiting q left ∧
      later.Follows f interval steps (t.asked q) := by
  have taking := h.sound.isOpen_of_asking driver
  have drives : c.drive f =
      { c.moved (.requested q.command q.command_free) with
        asked := c.asked ++ [q], driver := .awaiting q left } := by
    simp only [drive, driver, Course.ask, Tracker.send_of_open taking]
  obtain ⟨happens, sound⟩ := h.sound.drives drives
  refine ⟨_, .single happens, rfl, sound, ?_, ?_⟩
  · -- the request has the next ticket on both sides
    have numbered : c.run.tracker.unwatched (t.asked q).nextTicket = t.ticket.1 := by
      rw [Tracker.asked_eq]
      show { c.run.tracker.unwatched t.nextTicket with nextTicket := t.nextTicket + 1 } = _
      rw [h.same]
      rfl
    show (c.run.tracker.send q.command).1.unwatched _ = (t.ticket.1.send q.command).1
    rw [Tracker.unwatched_send, numbered]
  · rw [Tracker.asked_eq]
    exact h.current

/-- When everything has run, the driver gets its answer. -/
theorem answered (h : c.Follows f interval steps (t.settle LineSink.sink)) {q : AwaitedRequest}
    {left : List AwaitedRequest} (driver : c.driver = .awaiting q left) :
    (t.settle LineSink.sink).hasAnswered q = true ∧
      ∃ later, c.Leads f later ∧ later.driver = .asking left ∧
        later.Follows f interval steps (t.settle LineSink.sink) := by
  -- at rest the request is answered one way or the other, and a sound course is not told an error
  have told : c.run.tracker.told q = some (.ok ()) := by
    have answer := h.sound.regular.lawful.told_at_rest h.atRest q
    split at answer
    · exact answer
    · exact absurd answer (h.sound.told_ne_error driver .closed)
  constructor
  · rw [← h.same]
    exact (Tracker.told_eq_ok_iff _ _).1 told
  · have drives : c.drive f = { c with driver := .asking left } := by
      simp only [drive, driver, told]
    obtain ⟨happens, sound⟩ := h.sound.drives drives
    exact ⟨_, .single happens, rfl, sound, h.same, h.current⟩

/-- The driver makes the request that the program makes, and gets its answer. -/
theorem request (h : c.Follows f interval steps t) {q : AwaitedRequest}
    {left : List AwaitedRequest} (driver : c.driver = .asking (q :: left)) :
    (t.request LineSink.sink q).hasAnswered q = true ∧
      ∃ later, c.Leads f later ∧ later.driver = .asking left ∧
        later.Follows f interval steps (t.request LineSink.sink q) := by
  obtain ⟨c₁, asks, driver₁, h₁⟩ := h.ask driver
  obtain ⟨run, leads, h₂⟩ := h₁.runsTo ((t.asked q).runsTo_settle LineSink.sink)
  obtain ⟨told, c₃, goesOn, driver₃, h₃⟩ := h₂.answered driver₁
  exact ⟨told, c₃, (asks.trans leads).trans goesOn, driver₃, h₃⟩

/-- The driver turns from the steps to the requests. -/
theorem turn (h : c.Follows f interval steps t) (driver : c.driver = .applying []) :
    ∃ later, c.Leads f later ∧ later.driver = .asking f.requests ∧
      later.Follows f interval steps t := by
  have drives : c.drive f = { c with driver := .asking f.requests } := by
    simp only [drive, driver]
  obtain ⟨happens, sound⟩ := h.sound.drives drives
  exact ⟨_, .single happens, rfl, sound, h.same, h.current⟩

/-- With nothing left to ask for, the driver finishes. -/
theorem finish (h : c.Follows f interval steps t) (driver : c.driver = .asking []) :
    ∃ later, c.Leads f later ∧ later.driver = .finished ∧ later.Follows f interval steps t := by
  have drives : c.drive f = { c with driver := .finished } := by
    simp only [drive, driver]
  obtain ⟨happens, sound⟩ := h.sound.drives drives
  exact ⟨_, .single happens, rfl, sound, h.same, h.current⟩

/-! ### Every course can be brought to its end -/

/-- A driver that has only questions left comes to its end. -/
theorem exists_finished_of_asking (h : c.Follows f interval steps t) {left : List AwaitedRequest}
    (driver : c.driver = .asking left) : ∃ later, c.Leads f later ∧ later.driver = .finished := by
  induction left generalizing t c with
  | nil =>
    obtain ⟨c₁, leads, driver₁, -⟩ := h.finish driver
    exact ⟨c₁, leads, driver₁⟩
  | cons q left ih =>
    obtain ⟨-, c₁, leads, driver₁, h₁⟩ := h.request driver
    obtain ⟨c₂, goes, driver₂⟩ := ih h₁ driver₁
    exact ⟨c₂, leads.trans goes, driver₂⟩

/-- So does one that has steps left. -/
theorem exists_finished_of_applying (h : c.Follows f interval steps t) {left : List Step}
    (driver : c.driver = .applying left) : ∃ later, c.Leads f later ∧ later.driver = .finished := by
  obtain ⟨t₁, -, -, -, c₁, first, driver₁, h₁⟩ := h.feed driver
  obtain ⟨c₂, second, driver₂, h₂⟩ := h₁.turn driver₁
  obtain ⟨c₃, third, driver₃⟩ := h₂.exists_finished_of_asking driver₂
  exact ⟨c₃, (first.trans second).trans third, driver₃⟩

/-- Wherever the driver is, there is a way for it to finish. -/
theorem exists_finished (h : c.Follows f interval steps t) :
    ∃ later, c.Leads f later ∧ later.driver = .finished := by
  cases driver : c.driver with
  | refused e => exact absurd driver (h.sound.driver_ne_refused e)
  | failed e => exact absurd driver (h.sound.driver_ne_failed e)
  | finished => exact ⟨c, .refl, driver⟩
  | applying left => exact h.exists_finished_of_applying driver
  | asking left => exact h.exists_finished_of_asking driver
  | sleeping s till left =>
    -- time passes until the driver wakes up
    obtain ⟨run, leads, h₁⟩ :=
      h.runsTo (Tracker.runsTo_clock LineSink.sink (Nat.le_max_left t.clock till))
    obtain ⟨c₂, wakes, driver₂, h₂⟩ := h₁.wake driver (Nat.le_max_right t.clock till)
    obtain ⟨c₃, goes, driver₃⟩ := h₂.exists_finished_of_applying driver₂
    exact ⟨c₃, (leads.trans wakes).trans goes, driver₃⟩
  | awaiting q left =>
    -- everything runs that can, and the answer comes
    obtain ⟨run, leads, h₁⟩ := h.runsTo (t.runsTo_settle LineSink.sink)
    obtain ⟨-, c₂, told, driver₂, h₂⟩ := h₁.answered driver
    obtain ⟨c₃, goes, driver₃⟩ := h₂.exists_finished_of_asking driver₂
    exact ⟨c₃, (leads.trans told).trans goes, driver₃⟩

end Follows

end Course

/-! ### The requests of the program -/

namespace Tracker

variable {sink : Sink σ} {t : Tracker σ}

/-- While commands are taken a request is sent. -/
theorem ticket_send (taking : t.loop.isOpen = true) (q : AwaitedRequest) :
    t.ticket.1.send q.command = (t.asked q, .ok ()) :=
  Prod.ext rfl (send_of_open (t := t.ticket.1) taking q.command)

/-- A request takes a ticket. -/
theorem nextTicket_request (sink : Sink σ) (t : Tracker σ) (q : AwaitedRequest) :
    (t.request sink q).nextTicket = t.nextTicket + 1 := by
  rw [request, ((t.asked q).runsTo_settle sink).nextTicket, asked_eq]

/-- A flush that was answered comes back with success. -/
theorem flush_of_answered (taking : t.loop.isOpen = true)
    (answered :
      (t.request sink (.flush t.nextTicket)).hasAnswered (.flush t.nextTicket) = true) :
    t.flush sink = (t.request sink (.flush t.nextTicket), .ok ()) := by
  have reached : (t.request sink (.flush t.nextTicket)).delivery.hasReached t.nextTicket = true :=
    answered
  have sent : t.ticket.1.send (.flush t.ticket.2) = _ := ticket_send taking (.flush t.nextTicket)
  unfold flush
  simp only [sent]
  exact congrArg (Prod.mk _) (if_pos reached)

/-- After a flush that came back, an observation is a query. -/
theorem observe_of_flush {after : Tracker σ} (flushed : t.flush sink = (after, .ok ())) :
    t.observe sink = after.query sink := by
  unfold observe
  rw [flushed]

/-- A query that was answered comes back with a status. -/
theorem query_of_answered (taking : t.loop.isOpen = true)
    (answered :
      (t.request sink (.query t.nextTicket)).hasAnswered (.query t.nextTicket) = true) :
    ∃ status, t.query sink = (t.request sink (.query t.nextTicket), .ok status) := by
  have sent : t.ticket.1.send (.query t.ticket.2) = _ := ticket_send taking (.query t.nextTicket)
  obtain ⟨answer, mem, same⟩ := List.mem_filterMap.1 (List.contains_iff_mem.1 answered)
  unfold query
  simp only [sent]
  split
  · next status found => exact ⟨status, rfl⟩
  · next missing =>
    -- the status with this ticket is among the answers
    have passed := List.findSome?_eq_none_iff.1 missing answer mem
    cases answer with
    | ended ticket => cases same
    | status ticket status =>
      cases same
      have passed : (if t.nextTicket = t.nextTicket then some status else none) = none := passed
      rw [if_pos rfl] at passed
      cases passed

/-- A shutdown is a request, whatever becomes of it. -/
theorem shutdown_eq (sink : Sink σ) (t : Tracker σ) :
    (t.shutdown sink).1 = t.request sink (.shutdown t.nextTicket) := by
  rfl

end Tracker

/-- What the program asks for: delivery and status, and then the end. -/
def Replay.farewell : Farewell where
  questions := [.flush 0, .query 1]
  ticket := 2
  polite := by simp

namespace Course

variable {f : Farewell} {interval : Nat} {steps : List Step} {t : Tracker LineSink} {c : Course}

/-- While the driver has something to ask for, the program can ask for it. -/
theorem Follows.taking (h : c.Follows f interval steps t) {q : AwaitedRequest}
    {left : List AwaitedRequest} (driver : c.driver = .asking (q :: left)) :
    t.loop.isOpen = true := by
  rw [← h.loop_eq]
  exact h.sound.isOpen_of_asking driver

/-- Behind the last step the driver asks for what the program asks for, and finishes. -/
theorem Follows.farewell (h : c.Follows Replay.farewell interval steps t)
    (driver : c.driver = .applying []) (fresh : t.nextTicket = 0) :
    ∃ status, (t.observe LineSink.sink).2 = .ok status ∧
      ∃ later, c.Leads Replay.farewell later ∧ later.driver = .finished ∧
        later.Follows Replay.farewell interval steps
          ((t.observe LineSink.sink).1.shutdown LineSink.sink).1 := by
  obtain ⟨c₀, leads₀, turned, h₀⟩ := h.turn driver
  -- the tickets that the program takes are those that the driver has
  have driver₀ : c₀.driver =
      .asking
        [.flush t.nextTicket, .query (t.nextTicket + 1), .shutdown (t.nextTicket + 1 + 1)] := by
    rw [turned, fresh]
    rfl
  obtain ⟨flushed, c₁, leads₁, driver₁, h₁⟩ := h₀.request driver₀
  rw [← Tracker.nextTicket_request LineSink.sink t (.flush t.nextTicket)] at driver₁
  obtain ⟨queried, c₂, leads₂, driver₂, h₂⟩ := h₁.request driver₁
  rw [← Tracker.nextTicket_request LineSink.sink _ (.query _)] at driver₂
  obtain ⟨-, c₃, leads₃, driver₃, h₃⟩ := h₂.request driver₂
  have flush := Tracker.flush_of_answered (h₀.taking driver₀) flushed
  obtain ⟨status, query⟩ := Tracker.query_of_answered (h₁.taking driver₁) queried
  have observe := (Tracker.observe_of_flush flush).trans query
  obtain ⟨c₄, leads₄, driver₄, h₄⟩ := h₃.finish driver₃
  refine ⟨status, by rw [observe], c₄, ?_, driver₄, ?_⟩
  · exact (((leads₀.trans leads₁).trans leads₂).trans leads₃).trans leads₄
  · rw [observe, Tracker.shutdown_eq]
    exact h₄

/-- What the program does are happenings of a course. -/
theorem exists_of_leads {later : Course} (h : c.Leads f later) :
    ∃ happenings : List Happening, happenings.foldl (next f) c = later := by
  induction h with
  | refl => exact ⟨[], rfl⟩
  | tail _ step ih =>
    obtain ⟨happenings, rfl⟩ := ih
    obtain ⟨what, rfl⟩ := step
    exact ⟨happenings ++ [what], List.foldl_append⟩

/-- Driver and program begin alike. -/
theorem start_follows {text : List Char} (good : Script.read text = .ok steps) :
    (start interval text).Follows f interval steps (.new interval [] (.new none)) :=
  ⟨start_sound good, rfl, List.mem_cons_self⟩

/-- Every course is where its own tracker is. -/
theorem of_follows {text : List Char} (good : Script.read text = .ok steps)
    (happenings : List Happening) :
    (of f interval text happenings).Follows f interval steps
      ((of f interval text happenings).run.tracker.unwatched 0) := by
  have current : (of f interval text happenings).run.tracker.candidates ∈
      (of f interval text happenings).held := by
    -- the list of the tracker is one of those held, from one happening to the next
    induction happenings using List.reverseRecOn with
    | nil => exact List.mem_cons_self
    | append_singleton happenings what ih =>
      rw [of, List.foldl_append]
      exact (sound_of good happenings).current_next ih what
  exact ⟨sound_of good happenings, rfl, current⟩

/-- Whatever has happened, the driver can still finish. -/
theorem can_finish {text : List Char} (good : Script.read text = .ok steps)
    (happenings : List Happening) :
    ∃ more, (of f interval text (happenings ++ more)).driver = .finished := by
  obtain ⟨later, leads, finished⟩ := (of_follows good happenings).exists_finished
  obtain ⟨more, rfl⟩ := exists_of_leads leads
  refine ⟨more, ?_⟩
  rw [of, List.foldl_append]
  exact finished

/-- The program comes to an end, and there is a course that comes to the same end. -/
theorem exists_finished_as_program {text : List Char} (good : Script.read text = .ok steps)
    (interval : Nat) :
    ∃ o, Replay.run interval none steps = .ok o ∧ o.ended = true ∧
      (∃ status, o.status = .ok status) ∧
      ∃ happenings, (of Replay.farewell interval text happenings).driver = .finished ∧
        (of Replay.farewell interval text happenings).lines = o.lines := by
  have driver : (start interval text).driver = .applying steps := by
    simp only [start, good]
  -- first the steps, then the farewell, as the program does them
  obtain ⟨t, marks, fed, fresh, c, leads, applied, follows⟩ := (start_follows good).feed driver
  obtain ⟨status, observed, last, goes, finished, atEnd⟩ := follows.farewell applied fresh
  obtain ⟨happenings, rfl⟩ := exists_of_leads (leads.trans goes)
  let final := ((t.observe LineSink.sink).1.shutdown LineSink.sink).1
  have ran : Replay.run interval none steps =
      .ok ⟨marks, final.lines, (t.observe LineSink.sink).2, final.hasEnded⟩ := by
    unfold Replay.run
    rw [fed]
    rfl
  refine ⟨_, ran, ?_, ⟨status, observed⟩, happenings, finished, ?_⟩
  · have gone := (atEnd.sound.finished finished).2
    rw [← atEnd.sound.regular.lawful.faithful.loop, atEnd.loop_eq] at gone
    exact decide_eq_true gone
  · exact atEnd.lines_eq

end Course

end OnScreen
