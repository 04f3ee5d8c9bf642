import OnScreen.Proofs.ClosedBooks
import OnScreen.Proofs.StayingClients
import OnScreen.Replay

namespace OnScreen

/-!
# Courses of a replay

Whoever drives a replay reads the script, and if all of it is good, applies one step after the
other, sleeps where the script waits, asks some questions, waits for each answer, asks for the end
and waits for that.  Owner and delivery make their moves meanwhile, whenever they come to it, and
time passes.  Nobody waits for anybody unless it is said here.  A course is what has become of all
of them.

* `Driver`, `Course` — where the driver is, and where everything is.
* `Happening`, `Course.next`, `Course.of` — what can happen, in any order.
* `Course.Sound` — what is known about every course of a good script.
* `Course.Sound.next` — whatever happens keeps it.
* `Course.sound_of` — so it holds of all of them.
-/

/-! ### Steps as moves -/

/-- The move that a step makes; a wait only lets time pass. -/
def Step.move : Step → Move
  | list items => .listed items
  | signal => .requested .possibleChange rfl
  | panelExpanded value => .signalled (.panelExpanded value)
  | dozing value => .signalled (.dozing value)
  | barState state => .signalled (.barState state)
  | expansion key user expanded => .requested (.expansionChanged key user expanded) rfl
  | removed key => .requested (.entryRemoved key) rfl
  | updated key => .requested (.entryUpdated key) rfl
  | itemError key message => .requested (.itemError key message) rfl
  | wait ms => .elapsed ms

/-- How long a step sleeps, if it is a wait. -/
def Step.pause? : Step → Option Nat
  | wait ms => some ms
  | _ => none

/-- The list that a step sets, if it sets one. -/
def Step.list? : Step → Option (List Candidate)
  | list items => some items
  | _ => none

/-- No step of a script makes the clients go away. -/
theorem Step.move_ne_abandoned (s : Step) : s.move ≠ .abandoned := by
  cases s <;> exact nofun

/-- Nor is it a step of the owner. -/
theorem Step.move_ne_turned (s : Step) (branch : Branch) (r : Readings) :
    s.move ≠ .turned branch r := by
  cases s <;> exact nofun

/-- No step asks for an answer. -/
theorem Step.move_ne_requested (s : Step) (q : AwaitedRequest) :
    s.move ≠ .requested q.command q.command_free := by
  cases s <;> cases q <;> exact nofun

namespace Tracker

variable {σ : Type}

/-- A step that does not wait is one move. -/
theorem apply_eq_moved (sink : Sink σ) (t : Tracker σ) {s : Step} (h : s.pause? = none) :
    (t.apply sink s).1 = t.moved sink s.move := by
  cases s with
  | wait ms => cases h
  | _ => rfl

/-- A loop that takes commands takes every command. -/
theorem send_of_open {t : Tracker σ} (h : t.loop.isOpen = true) (c : Command) :
    (t.send c).2 = .ok () := by
  simp [send, Loop.send, h]

/-- While commands are taken every step is applied without an error. -/
theorem apply_of_open (sink : Sink σ) {t : Tracker σ} (h : t.loop.isOpen = true) (s : Step) :
    (t.apply sink s).2 = .ok () := by
  -- a signal fails only where its command is refused, and an open loop takes it
  have signals : ∀ g : GateSignal, (apply.settled (t.signal g)).2 = .ok () := by
    intro g
    simp only [signal]
    split
    · rfl
    · next c _ =>
      have still : ({ t with gate := t.gate.set g } : Tracker σ).loop.isOpen = true := h
      have sent := send_of_open still c
      simp only [apply.settled, sent]
      rfl
  cases s with
  | list items => rfl
  | wait ms => rfl
  | panelExpanded value => exact signals _
  | dozing value => exact signals _
  | barState state => exact signals _
  | _ => exact send_of_open h _

end Tracker

/-! ### Courses -/

/-- What is asked for behind the last step: some questions, and then the end. -/
structure Farewell where
  questions : List AwaitedRequest
  /-- The ticket of the shutdown. -/
  ticket : Nat
  /-- No question asks for the end. -/
  polite : ∀ t, .shutdown t ∉ questions

/-- All the requests, in order. -/
def Farewell.requests (f : Farewell) : List AwaitedRequest := f.questions ++ [.shutdown f.ticket]

/-- Where whoever drives a replay is. -/
inductive Driver where
  /-- The script has a bad line; nothing is started. -/
  | refused (e : ScriptError)
  /-- These steps are to be applied. -/
  | applying (left : List Step)
  /-- A step sleeps until some time; these are to be applied after it. -/
  | sleeping (s : Step) (till : Instant) (left : List Step)
  /-- All steps are applied; these requests are to be made. -/
  | asking (left : List AwaitedRequest)
  /-- A request is made and not answered; these are to be made after it. -/
  | awaiting (q : AwaitedRequest) (left : List AwaitedRequest)
  | finished
  | failed (e : TrackerError)

namespace Driver

/-- The steps that are not applied yet. -/
def steps : Driver → List Step
  | applying left => left
  | sleeping s _ left => s :: left
  | refused _ | asking _ | awaiting _ _ | finished | failed _ => []

/-- The requests that are not made yet. -/
def requests (f : Farewell) : Driver → List AwaitedRequest
  | refused _ | applying _ | sleeping _ _ _ => f.requests
  | asking left | awaiting _ left => left
  | finished | failed _ => []

end Driver

/-- A replay under way. -/
structure Course where
  run : TrackerRun LineSink
  /-- The steps that were applied, in order. -/
  applied : List Step
  /-- The requests that were made, in order. -/
  asked : List AwaitedRequest
  driver : Driver

/-- Something that happens in a replay. -/
inductive Happening where
  /-- The driver does the next thing, if it has not to wait. -/
  | driven
  /-- The owner makes a step, if it can make one through that branch. -/
  | turned (branch : Branch) (r : Readings)
  /-- The delivery makes a step, if it can make one. -/
  | delivered
  /-- The owner ends, if everything is delivered. -/
  | ended
  | elapsed (ms : Nat)

namespace Course

/-- The replay of a text begins. -/
def start (interval : Nat) (text : List Char) : Course where
  run := .start interval [] (.new none)
  applied := []
  asked := []
  driver :=
    match Script.read text with
    | .ok steps => .applying steps
    | .error e => .refused e

/-- The lines that were written. -/
def lines (c : Course) : List (List Char) := c.run.tracker.sink.1.lines

/-- The lists of candidates that there have been. -/
def held (c : Course) : List (List Candidate) := [] :: c.applied.filterMap Step.list?

/-- The tracker makes a move. -/
def moved (c : Course) (m : Move) : Course := { c with run := c.run.next LineSink.sink (.moved m) }

/-- The driver applies a step: it begins to sleep, or makes the move of the step. -/
def apply (c : Course) (s : Step) (left : List Step) : Course :=
  match s.pause? with
  | some ms => { c with driver := .sleeping s (c.run.tracker.clock + ms) left }
  | none =>
    match (c.run.tracker.apply LineSink.sink.watched s).2 with
    | .ok () => { c.moved s.move with applied := c.applied ++ [s], driver := .applying left }
    | .error e => { c.moved s.move with driver := .failed e }

/-- The driver makes a request. -/
def ask (c : Course) (q : AwaitedRequest) (left : List AwaitedRequest) : Course :=
  match (c.run.tracker.send q.command).2 with
  | .ok () =>
    { c.moved (.requested q.command q.command_free) with
      asked := c.asked ++ [q], driver := .awaiting q left }
  | .error e => { c with driver := .failed e }

/-- The driver does the next thing; while it has to wait it does nothing. -/
def drive (f : Farewell) (c : Course) : Course :=
  match c.driver with
  | .applying [] => { c with driver := .asking f.requests }
  | .applying (s :: left) => c.apply s left
  | .sleeping s till left =>
    if till ≤ c.run.tracker.clock then
      { c with applied := c.applied ++ [s], driver := .applying left }
    else c
  | .asking [] => { c with driver := .finished }
  | .asking (q :: left) => c.ask q left
  | .awaiting q left =>
    match c.run.tracker.told q with
    | none => c
    | some (.ok ()) => { c with driver := .asking left }
    | some (.error e) => { c with driver := .failed e }
  | .refused _ | .finished | .failed _ => c

/-- What happens while the replay is under way.  The owner reads lists that there have been; the
    list may be replaced while it works. -/
def happened (f : Farewell) (c : Course) : Happening → Course
  | .driven => c.drive f
  | .turned branch r =>
    if r.tick.candidates ∈ c.held ∧ r.command.candidates ∈ c.held then c.moved (.turned branch r)
    else c
  | .delivered => c.moved .delivered
  | .ended => c.moved .ended
  | .elapsed ms => c.moved (.elapsed ms)

/-- What something that happens makes of a course.  Where the script was refused there is nothing
    that could do anything. -/
def next (f : Farewell) (c : Course) (h : Happening) : Course :=
  match c.driver with
  | .refused _ => c
  | _ => c.happened f h

/-- The course through some happenings, oldest first. -/
def of (f : Farewell) (interval : Nat) (text : List Char) (happenings : List Happening) : Course :=
  happenings.foldl (next f) (start interval text)

end Course

/-! ### What is known about the tracker -/

namespace TrackerRun

/-- What is known about the tracker of a replay that has held these lists. -/
structure Regular (interval : Nat) (held : List (List Candidate)) (run : TrackerRun LineSink) :
    Prop where
  lawful : run.Lawful interval
  written : run.Written
  kept : run.front.Kept
  read : ∀ checked m, .tick checked m ∈ run.acts → m.candidates ∈ held

/-- Nothing was written, and nobody has gone away. -/
theorem start_regular (interval : Nat) :
    (start interval [] (LineSink.new none)).Regular interval [[]] where
  lawful := lawful_of LineSink.sink_prompt.calm []
  written := start_written interval []
  kept := ⟨rfl, fun _ => List.not_mem_nil⟩
  read _ _ none := absurd none List.not_mem_nil

namespace Regular

variable {interval : Nat} {held later : List (List Candidate)} {run : TrackerRun LineSink}

/-- A move of somebody who stays, and who reads no other list than those that were held, keeps all
    this. -/
theorem moved (h : run.Regular interval held) {m : Move} (stays : m ≠ .abandoned)
    (reads : ∀ branch r, m = .turned branch r → r.tick.candidates ∈ held) :
    (run.next LineSink.sink (.moved m)).Regular interval held where
  lawful := h.lawful.moved LineSink.sink_prompt.calm m
  written := h.written.moved m
  kept := kept_moved h.kept LineSink.sink stays
  read checked moment ticked := by
    rcases tick_moved LineSink.sink ticked with before | ⟨branch, r, turned, rfl⟩
    · exact h.read checked moment before
    · exact reads branch r turned

theorem mono (h : run.Regular interval held) (more : held ⊆ later) : run.Regular interval later :=
  ⟨h.lawful, h.written, h.kept, fun checked m ticked => more (h.read checked m ticked)⟩

end Regular

end TrackerRun

/-! ### What is known about a course -/

namespace Farewell

/-- The end is the last that is asked for. -/
theorem shutdown_not_mem {f : Farewell} {asked left : List AwaitedRequest} {q : AwaitedRequest}
    (h : asked ++ q :: left = f.requests) (t : Nat) : .shutdown t ∉ asked := by
  have lengths := congrArg List.length h
  simp only [requests, List.length_append, List.length_cons, List.length_nil] at lengths
  have early : asked <+: f.questions :=
    List.prefix_of_prefix_length_le ⟨_, h⟩ (List.prefix_append _ _) (by omega)
  exact fun mem => f.polite t (early.subset mem)

end Farewell

/-- What the place of the driver tells, where `gone` stands for the end of the
    owner. -/
def Driver.Stands (asked : List AwaitedRequest) (gone : Prop) : Driver → Prop
  | refused _ | failed _ => False
  | applying _ | sleeping _ _ _ => asked = []
  -- whoever has asked for the end goes on when the owner is gone
  | asking _ => ∀ t, .shutdown t ∈ asked → gone
  | awaiting q _ => ∃ before, asked = before ++ [q]
  | finished => gone

/-- An owner that is gone does not come back. -/
theorem Driver.Stands.mono {d : Driver} {asked : List AwaitedRequest} {gone still : Prop}
    (h : d.Stands asked gone) (stays : gone → still) : d.Stands asked still := by
  cases d with
  | asking left => exact fun t mem => stays (h t mem)
  | finished => exact stays h
  | _ => exact h

namespace Course

/-- What is known about a course whose script has these steps. -/
structure Sound (f : Farewell) (interval : Nat) (steps : List Step) (c : Course) : Prop where
  regular : c.run.Regular interval c.held
  script : c.applied ++ c.driver.steps = steps
  farewell : c.asked ++ c.driver.requests f = f.requests
  shutdowns : ∀ t, .shutdown t ∈ c.run.taken → .shutdown t ∈ c.asked
  known : ∀ q ∈ c.asked, q.command ∈ c.run.taken
  stands : c.driver.Stands c.asked (c.run.front.loop.phase = .ended)

variable {f : Farewell} {interval : Nat} {steps : List Step} {c : Course}

/-- Applying a step adds to the lists that there have been. -/
theorem held_subset (c : Course) (s : Step) :
    c.held ⊆ [] :: (c.applied ++ [s]).filterMap Step.list? := by
  rw [List.filterMap_append]
  exact List.cons_subset_cons _ (List.subset_append_left _ _)

/-- A driver begins with all steps of its script left. -/
theorem start_sound {text : List Char} (good : Script.read text = .ok steps) :
    (start interval text).Sound f interval steps := by
  have driver : (start interval text).driver = .applying steps := by
    simp only [start, good]
  refine ⟨TrackerRun.start_regular interval, ?_, ?_, nofun, nofun, ?_⟩
  all_goals
    rw [driver]
    rfl

namespace Sound

/-- While some request is still to be made, commands are taken. -/
theorem isOpen (h : c.Sound f interval steps) (ahead : c.driver.requests f ≠ []) :
    c.run.tracker.loop.isOpen = true := by
  by_contra closed
  rw [Bool.not_eq_true] at closed
  obtain ⟨t, -, taken⟩ := h.regular.lawful.shutdown_of_closed h.regular.kept closed
  obtain ⟨q, left, requests⟩ := List.exists_cons_of_ne_nil ahead
  have split := h.farewell
  rw [requests] at split
  exact Farewell.shutdown_not_mem split t (h.shutdowns t taken)

/-- As long as there are steps left, commands are taken. -/
theorem isOpen_of_applying (h : c.Sound f interval steps) {left : List Step}
    (driver : c.driver = .applying left) : c.run.tracker.loop.isOpen = true := by
  refine h.isOpen ?_
  rw [driver]
  exact List.append_ne_nil_of_right_ne_nil _ (List.cons_ne_nil _ _)

/-- As long as there is something left to ask for, it can be asked for. -/
theorem isOpen_of_asking (h : c.Sound f interval steps) {q : AwaitedRequest}
    {left : List AwaitedRequest} (driver : c.driver = .asking (q :: left)) :
    c.run.tracker.loop.isOpen = true := by
  refine h.isOpen ?_
  rw [driver]
  exact List.cons_ne_nil _ _

/-- A move that asks for nothing changes nothing but the tracker. -/
theorem moved (h : c.Sound f interval steps) {m : Move} (stays : m ≠ .abandoned)
    (reads : ∀ branch r, m = .turned branch r → r.tick.candidates ∈ c.held)
    (asks : ∀ q : AwaitedRequest, m ≠ .requested q.command q.command_free) :
    (c.moved m).Sound f interval steps := by
  obtain ⟨more, taken, requests⟩ := c.run.next_taken LineSink.sink (.moved m)
  refine ⟨h.regular.moved stays reads, h.script, h.farewell, fun t ht => ?_, fun q hq => ?_, ?_⟩
  · have ht : .shutdown t ∈ (c.run.next LineSink.sink (.moved m)).taken := ht
    rw [taken] at ht
    rcases List.mem_append.1 ht with before | new
    · exact h.shutdowns t before
    · -- a shutdown that is taken is one of the requests
      have same := requests (.shutdown t) new
      exact absurd (TrackerEvent.moved.inj same) (asks _)
  · show q.command ∈ (c.run.next LineSink.sink (.moved m)).taken
    rw [taken]
    exact List.mem_append_left more (h.known q hq)
  · exact h.stands.mono fun gone => TrackerRun.ended_moved gone LineSink.sink m

/-- The driver is done with the step at hand, be it that it has made its move or that it has slept.
    -/
theorem stepDone (h : c.Sound f interval steps) {s : Step} {left : List Step}
    (atHand : c.driver = .applying (s :: left) ∨ ∃ till, c.driver = .sleeping s till left) :
    { c with applied := c.applied ++ [s], driver := .applying left }.Sound f interval steps := by
  -- whether the driver slept or not, nothing has been asked yet
  have known : c.applied ++ s :: left = steps ∧ c.asked ++ f.requests = f.requests ∧
      c.asked = [] := by
    have script := h.script
    have farewell := h.farewell
    have stands := h.stands
    rcases atHand with driver | ⟨till, driver⟩
    all_goals
      rw [driver] at script farewell stands
      exact ⟨script, farewell, stands⟩
  obtain ⟨script, farewell, silent⟩ := known
  refine ⟨h.regular.mono (c.held_subset s), ?_, farewell, h.shutdowns, h.known, silent⟩
  show (c.applied ++ [s]) ++ left = steps
  rw [List.append_assoc]
  exact script

/-- The driver applies a step. -/
theorem apply (h : c.Sound f interval steps) {s : Step} {left : List Step}
    (driver : c.driver = .applying (s :: left)) : (c.apply s left).Sound f interval steps := by
  unfold Course.apply
  split
  · -- a step that takes time: the driver only goes to sleep
    have script := h.script
    have farewell := h.farewell
    have stands := h.stands
    rw [driver] at script farewell stands
    exact ⟨h.regular, script, farewell, h.shutdowns, h.known, stands⟩
  · -- any other step is a move, and an open loop takes it
    have quiet : (c.moved s.move).Sound f interval steps :=
      h.moved s.move_ne_abandoned (fun branch r same => absurd same (s.move_ne_turned branch r))
        s.move_ne_requested
    rw [Tracker.apply_of_open LineSink.sink.watched (h.isOpen_of_applying driver) s]
    exact quiet.stepDone (.inl driver)

/-- The driver makes a request. -/
theorem ask (h : c.Sound f interval steps) {q : AwaitedRequest} {left : List AwaitedRequest}
    (driver : c.driver = .asking (q :: left)) : (c.ask q left).Sound f interval steps := by
  have script := h.script
  have farewell := h.farewell
  rw [driver] at script farewell
  have taking := h.isOpen_of_asking driver
  have taken := TrackerRun.taken_requested h.regular.lawful.faithful taking LineSink.sink q
  unfold Course.ask
  rw [Tracker.send_of_open taking]
  refine ⟨?_, script, ?_, fun t ht => ?_, fun p hp => ?_, ⟨_, rfl⟩⟩
  · exact h.regular.moved nofun nofun
  · show (c.asked ++ [q]) ++ left = f.requests
    rw [List.append_assoc]
    exact farewell
  · have ht : .shutdown t ∈ (c.run.next LineSink.sink (.requests q)).taken := ht
    rw [taken] at ht
    rcases List.mem_append.1 ht with before | new
    · exact List.mem_append_left _ (h.shutdowns t before)
    · -- the command that was taken belongs to this request
      have same : AwaitedRequest.shutdown t = q :=
        AwaitedRequest.eq_of_command (List.mem_singleton.1 new)
      rw [same]
      exact List.mem_append_right _ List.mem_cons_self
  · show p.command ∈ (c.run.next LineSink.sink (.requests q)).taken
    rw [taken]
    rcases List.mem_append.1 hp with before | new
    · exact List.mem_append_left _ (h.known p before)
    · rw [List.mem_singleton.1 new]
      exact List.mem_append_right _ List.mem_cons_self

/-- Whoever waits for something has asked for the end just if this is what is waited for. -/
theorem eq_of_awaiting (h : c.Sound f interval steps) {q : AwaitedRequest}
    {left : List AwaitedRequest} (driver : c.driver = .awaiting q left) {t : Nat}
    (late : .shutdown t ∈ c.asked) : q = .shutdown t := by
  have farewell := h.farewell
  have stands := h.stands
  rw [driver] at farewell stands
  obtain ⟨before, asked⟩ := stands
  -- a shutdown is the last request, so no other one is awaited behind it
  have split : before ++ q :: left = f.requests := by
    rw [asked, List.append_assoc] at farewell
    exact farewell
  rw [asked] at late
  rcases List.mem_append.1 late with early | last
  · exact absurd early (Farewell.shutdown_not_mem split t)
  · exact (List.mem_singleton.1 last).symm

/-- The driver goes on with an answer. -/
theorem answered (h : c.Sound f interval steps) {q : AwaitedRequest} {left : List AwaitedRequest}
    (driver : c.driver = .awaiting q left) (told : c.run.tracker.told q = some (.ok ())) :
    { c with driver := .asking left }.Sound f interval steps := by
  have script := h.script
  have farewell := h.farewell
  rw [driver] at script farewell
  refine ⟨h.regular, script, farewell, h.shutdowns, h.known, fun t late => ?_⟩
  obtain rfl := h.eq_of_awaiting driver late
  have said := List.contains_iff_mem.1 ((Tracker.told_eq_ok_iff _ _).1 told)
  exact ((h.regular.lawful.faithful.ended t).1 said).1

/-- What the driver waits for does not get lost. -/
theorem told_ne_error (h : c.Sound f interval steps) {q : AwaitedRequest}
    {left : List AwaitedRequest} (driver : c.driver = .awaiting q left) (e : TrackerError) :
    c.run.tracker.told q ≠ some (.error e) := by
  have lawful := h.regular.lawful
  refine lawful.told_ne_error ?_ e
  cases taking : c.run.tracker.loop.isOpen with
  | true =>
    have stands := h.stands
    rw [driver] at stands
    obtain ⟨before, asked⟩ := stands
    have taken : q.command ∈ c.run.taken := by
      refine h.known q ?_
      rw [asked]
      exact List.mem_append_right _ List.mem_cons_self
    rw [lawful.faithful.loop] at taking ⊢
    rw [lawful.recorded.served.queued taking] at taken
    exact (List.mem_append.1 taken).symm
  | false =>
    -- the owner has left, so the end is what is waited for
    obtain ⟨t, dealt, taken⟩ := lawful.shutdown_of_closed h.regular.kept taking
    obtain rfl := h.eq_of_awaiting driver (h.shutdowns t taken)
    exact .inr dealt

/-- Whatever the driver does next is sound. -/
theorem drive (h : c.Sound f interval steps) : (c.drive f).Sound f interval steps := by
  have script := h.script
  have farewell := h.farewell
  have stands := h.stands
  unfold Course.drive
  split
  · next driver =>
    rw [driver] at script farewell stands
    exact ⟨h.regular, script, farewell, h.shutdowns, h.known, by rw [stands]; exact nofun⟩
  · next s left driver => exact h.apply driver
  · next s till left driver =>
    split
    · exact h.stepDone (.inr ⟨till, driver⟩)
    · exact h
  · next driver =>
    rw [driver] at script farewell stands
    refine ⟨h.regular, script, farewell, h.shutdowns, h.known, stands f.ticket ?_⟩
    -- nothing is left to be asked for
    have all : c.asked = f.requests := (List.append_nil _).symm.trans farewell
    rw [all]
    exact List.mem_append_right _ List.mem_cons_self
  · next q left driver => exact h.ask driver
  · next q left driver =>
    split
    · exact h
    · next told => exact h.answered driver told
    · next e told => exact absurd told (h.told_ne_error driver e)
  · exact h
  · exact h
  · exact h

/-- Whatever happens next keeps a course sound. -/
theorem next (h : c.Sound f interval steps) (what : Happening) :
    (c.next f what).Sound f interval steps := by
  -- the course is sound in whichever way it goes on
  have happened : (c.happened f what).Sound f interval steps := by
    cases what with
    | driven => exact h.drive
    | turned branch r =>
      simp only [Course.happened]
      split
      · next reads =>
        refine h.moved nofun (fun _ _ same => ?_) nofun
        cases same
        exact reads.1
      · exact h
    | delivered => exact h.moved nofun nofun nofun
    | ended => exact h.moved nofun nofun nofun
    | elapsed ms => exact h.moved nofun nofun nofun
  unfold Course.next
  split
  · exact h
  · exact happened

/-- A script that can be read is not refused. -/
theorem driver_ne_refused (h : c.Sound f interval steps) (e : ScriptError) :
    c.driver ≠ .refused e := by
  intro refused
  have stands := h.stands
  rw [refused] at stands
  exact stands

/-- The driver never fails. -/
theorem driver_ne_failed (h : c.Sound f interval steps) (e : TrackerError) :
    c.driver ≠ .failed e := by
  intro failed
  have stands := h.stands
  rw [failed] at stands
  exact stands

/-- When the driver has finished, all steps were applied and the owner has ended. -/
theorem finished (h : c.Sound f interval steps) (finished : c.driver = .finished) :
    c.applied = steps ∧ c.run.front.loop.phase = .ended := by
  have script := h.script
  have stands := h.stands
  rw [finished] at script stands
  exact ⟨(List.append_nil _).symm.trans script, stands⟩

/-- Books can be kept from what is written by then, and the lines can be read back if no list of the
    script is longer than a word can count. -/
theorem closedBooks (h : c.Sound f interval steps) (finished : c.driver = .finished) :
    ∃ calls : List Call, c.lines = calls.map LineSink.lineOf ∧ Call.ClosedBooks calls ∧
      ((∀ items, .list items ∈ steps → items.length < wordLimit) →
        c.lines.map Wire.call.format.readAll = calls.map .ok) := by
  obtain ⟨applied, atEnd⟩ := h.finished finished
  have lawful := h.regular.lawful
  have lines : c.lines = c.run.calls.map LineSink.lineOf := lawful.lines_eq h.regular.written
  refine ⟨c.run.calls, lines, lawful.closedBooks atEnd, fun bounded => ?_⟩
  -- every list a tick has read is the empty one or one of the script
  have short : ∀ a ∈ c.run.acts, a.Short := by
    rintro a acted checked m rfl
    rcases List.mem_cons.1 (h.regular.read checked m acted) with empty | set
    · rw [empty]
      exact (by decide : 0 < wordLimit)
    · obtain ⟨s, here, list⟩ := List.mem_filterMap.1 set
      rw [applied] at here
      cases s with
      | list items =>
        cases list
        exact bounded _ here
      | _ => cases list
  have words := lawful.inWords_calls atEnd short
  rw [lines, List.map_map, List.map_inj_left]
  exact fun call mem => LineSink.readAll_lineOf (words call mem)

end Sound

/-- Every course of a good script is sound. -/
theorem sound_of {text : List Char} (good : Script.read text = .ok steps)
    (happenings : List Happening) : (of f interval text happenings).Sound f interval steps :=
  List.foldlRecOn happenings _ (start_sound good) fun _ h what _ => h.next what

/-- Where the script is refused nothing happens. -/
theorem of_refused {text : List Char} {e : ScriptError} (bad : Script.read text = .error e)
    (happenings : List Happening) : of f interval text happenings = start interval text := by
  have driver : (start interval text).driver = .refused e := by
    simp only [start, bad]
  induction happenings using List.reverseRecOn with
  | nil => rfl
  | append_singleton happenings what ih =>
    rw [of, List.foldl_append, ← of, ih]
    simp only [List.foldl_cons, List.foldl_nil, next, driver]

end Course

end OnScreen
