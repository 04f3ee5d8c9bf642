import Mathlib.Data.List.Induction
import OnScreen.Proofs.Moves
import OnScreen.Proofs.Run
import OnScreen.Sink.Recorder

namespace OnScreen

/-!
# The gate and the owner agree

A gate signal changes the gate at once, and the owner hears of it later, when it comes to the
command that was queued.  In between the queue makes up the difference: whoever imagines the start
and stop commands in it handled knows what the gate has decided.

* `Loop.settledStarted` — whether tracking will run once everything in the queue is handled.
* `Loop.step_steady` — the steps of the loop do not change that.
* `Agrees` — gate, queue and owner fit the signals that were set; every move keeps this.
* `gate_and_owner_agree` — the same for all sequences of moves.
-/

/-! ### What commands do to tracking -/

namespace Command

/-- Whether tracking runs after a command that found it running or not. -/
def startedAfter (started : Bool) : Command → Bool
  | start _ => true
  | stop => false
  | possibleChange | expansionChanged _ _ _ | entryRemoved _ | entryUpdated _ | itemError _ _
  | flush _ | query _ | shutdown _ => started

/-- Only the gate turns tracking on or off, apart from the end. -/
theorem startedAfter_of_not_ofGate {c : Command} (h : c.ofGate = false) (started : Bool) :
    startedAfter started c = started := by
  cases c <;> first | rfl | cases h

end Command

namespace Owner

/-- A change signal neither turns tracking on nor off. -/
@[simp] theorem possibleChange_started (o : Owner) (now : Instant) :
    (o.possibleChange now).started = o.started := by
  unfold possibleChange
  split <;> rfl

/-- A tick neither starts nor stops anything. -/
@[simp] theorem tickIfDue_started (o : Owner) (checked now : Instant)
    (candidates : List Candidate) :
    (o.tickIfDue checked now candidates).1.started = o.started := by
  unfold tickIfDue
  split <;> rfl

/-- Handling a command starts and stops tracking as the command says. -/
theorem handle_started (o : Owner) (now : Instant) (candidates : List Candidate) (c : Command) :
    (o.handle now candidates c).1.started = c.startedAfter o.started := by
  cases c with
  | possibleChange => exact o.possibleChange_started now
  | start lockscreen =>
    -- a start leaves tracking on, whether it was on or not
    show (o.start now candidates lockscreen).1.started = true
    unfold start
    split
    · next running => exact running
    · exact possibleChange_started _ now
  | stop => exact Owner.stop_started o
  | expansionChanged key user expanded => rfl
  | entryRemoved key => rfl
  | entryUpdated key => rfl
  | itemError key message => rfl
  | flush ticket => rfl
  | query ticket => rfl
  | shutdown ticket => rfl

end Owner

/-! ### The queue and the owner behind it -/

namespace Loop

/-- Whether tracking will run once everything in the queue is handled. -/
def settledStarted (l : Loop) : Bool := l.inbox.foldl Command.startedAfter l.owner.started

/-- A queued command has the last word. -/
theorem settledStarted_offered {l : Loop} (h : l.isOpen = true) (c : Command) :
    (l.offered c).settledStarted = c.startedAfter l.settledStarted := by
  rw [offered_of_open h, settledStarted, List.foldl_append]
  rfl

/-- Nobody in the queue asks for the end. -/
def Peaceful (l : Loop) : Prop := ∀ ticket, .shutdown ticket ∉ l.inbox

/-- What a step of a peaceful loop leaves as it was. -/
structure Steady (l next : Loop) : Prop where
  wasOpen : l.isOpen = true
  /-- Commands leave the queue at the front and none comes in. -/
  inbox : next.inbox <:+ l.inbox
  abandoned : next.abandoned = l.abandoned
  /-- As long as the loop goes on, what the queue leads to stays the same. -/
  settled : next.isOpen = true → next.settledStarted = l.settledStarted
  /-- It goes on as long as there is somebody left who could send something. -/
  goesOn : l.abandoned = false → next.isOpen = true

/-- A step of a peaceful loop is steady, whatever is read meanwhile. -/
theorem step_steady {branch : Branch} {r : Readings} {l next : Loop} {out : List Output}
    (peaceful : l.Peaceful) (h : l.step branch r = some (next, out)) : l.Steady next := by
  obtain ⟨owner, inbox, phase, abandoned⟩ := l
  cases phase with
  | checking =>
    simp only [step] at h
    split at h
    · cases h
      exact ⟨rfl, List.suffix_rfl, rfl, fun _ => rfl, fun _ => rfl⟩
    · cases h
      exact ⟨rfl, List.suffix_rfl, rfl, fun _ => rfl, fun _ => rfl⟩
  | parked =>
    cases branch with
    | deadline =>
      simp only [step] at h
      split at h
      · cases h
        exact ⟨rfl, List.suffix_rfl, rfl, fun _ => rfl, fun _ => rfl⟩
      · cases h
    | command =>
      cases inbox with
      | cons c rest =>
        -- a handled command does what it was counted for while it was queued
        have settled : ∀ o : Owner, o.started = owner.started →
            rest.foldl Command.startedAfter
              (o.handle r.command.now r.command.candidates c).1.started =
            (c :: rest).foldl Command.startedAfter owner.started := by
          intro o same
          rw [Owner.handle_started, same, List.foldl_cons]
        have ticked := owner.tickIfDue_started r.checked r.tick.now r.tick.candidates
        simp only [step, receive, Option.some.injEq] at h
        cases c with
        | shutdown ticket => exact absurd List.mem_cons_self (peaceful ticket)
        | _ =>
          cases h
          exact ⟨rfl, List.suffix_cons _ _, rfl, fun _ => settled _ ticked, fun _ => rfl⟩
      | nil =>
        simp only [step] at h
        split at h
        · next gone =>
          cases h
          -- only an abandoned loop is left here
          have left : abandoned ≠ false := by simp [gone]
          refine ⟨rfl, List.suffix_rfl, rfl, ?_, fun stays => absurd stays left⟩
          intro goesOn
          cases goesOn
        · cases h
  | closing ticket => cases h
  | ended => cases h

end Loop

/-! ### What the gate decides -/

namespace Gate

/-- Both gating signals have been set. -/
def isDecided (g : Gate) : Bool := g.panelExpanded.isKnown && g.dozing.isKnown

/-- The panel is expanded and the device is not dozing. -/
def opens (g : Gate) : Bool := g.panelExpanded.known == some true && g.dozing.known == some false

/-- The gate opens when the panel is known to be expanded and the device is known not to doze. -/
theorem opens_iff (g : Gate) :
    g.opens = true ↔ g.panelExpanded.known = some true ∧ g.dozing.known = some false := by
  simp [opens]

/-- A gate that opens has heard both signals. -/
theorem isDecided_of_opens {g : Gate} (h : g.opens = true) : g.isDecided = true := by
  obtain ⟨panel, dozing⟩ := g.opens_iff.1 h
  simp [isDecided, TriState.isKnown, panel, dozing]

/-- An undecided gate is not open. -/
theorem opens_of_not_isDecided {g : Gate} (h : g.isDecided = false) : g.opens = false := by
  by_contra opens
  rw [Bool.not_eq_false] at opens
  simp [isDecided_of_opens opens] at h

/-- A decision to open is one that the signals allow. -/
theorem decision_opened_iff (g : Gate) :
    (∃ lockscreen, g.decision = .opened lockscreen) ↔ g.opens = true := by
  obtain ⟨panel, dozing, lockscreen⟩ := g
  cases panel <;> cases dozing <;> simp [decision, opens, TriState.known]

/-- The command that a decision turns into: none while a signal is missing, and else one after which
    tracking runs just if the gate opens. -/
theorem commandFor_decision (g : Gate) :
    if g.isDecided then
      ∃ c, Tracker.commandFor g.decision = some c ∧ c.ofGate = true ∧
        ∀ started, c.startedAfter started = g.opens
    else Tracker.commandFor g.decision = none := by
  obtain ⟨panel, dozing, lockscreen⟩ := g
  cases panel <;> cases dozing <;>
    simp [isDecided, TriState.isKnown, TriState.known, decision, opens, Tracker.commandFor,
      Command.ofGate, Command.startedAfter]

/-- What has been heard is never forgotten. -/
theorem isDecided_set {g : Gate} (h : g.isDecided = true) (s : GateSignal) :
    (g.set s).isDecided = true := by
  simp only [isDecided, TriState.isKnown, Bool.and_eq_true] at h ⊢
  cases s with
  | panelExpanded value => exact ⟨by simp [set], h.2⟩
  | dozing value => exact ⟨h.1, by simp [set]⟩
  | barState state => exact h

end Gate

/-! ### What the gate has heard -/

/-- The value that the panel was set to last. -/
def lastPanel (moves : List Move) : Option Bool := latest Move.panel? moves

/-- The value that dozing was set to last. -/
def lastDozing (moves : List Move) : Option Bool := latest Move.dozing? moves

namespace Gate

/-- The gate knows the signals that were set last. -/
def Heard (g : Gate) (moves : List Move) : Prop :=
  g.panelExpanded.known = lastPanel moves ∧ g.dozing.known = lastDozing moves

/-- A move that sets no signal leaves nothing to hear. -/
theorem Heard.quiet {g : Gate} {moves : List Move} (h : g.Heard moves) {m : Move}
    (panel : m.panel? = none) (dozing : m.dozing? = none) : g.Heard (moves ++ [m]) := by
  constructor
  · rw [h.1, lastPanel, lastPanel, latest_append_singleton, panel, Option.none_or]
  · rw [h.2, lastDozing, lastDozing, latest_append_singleton, dozing, Option.none_or]

/-- A signal that is set is heard. -/
theorem Heard.signalled {g : Gate} {moves : List Move} (h : g.Heard moves) (s : GateSignal) :
    (g.set s).Heard (moves ++ [.signalled s]) := by
  rw [Heard, lastPanel, lastDozing, latest_append_singleton, latest_append_singleton]
  cases s with
  | panelExpanded value => exact ⟨TriState.known_ofBool value, h.2⟩
  | dozing value => exact ⟨h.1, TriState.known_ofBool value⟩
  | barState state => exact h

end Gate

/-! ### How the loop follows the gate -/

namespace Loop

/-- The queue leads the owner to what the gate decides. -/
structure Follows (l : Loop) (g : Gate) : Prop where
  peaceful : l.Peaceful
  settled : l.isOpen = true → l.settledStarted = g.opens
  /-- While a signal is missing, the gate has not put anything into the queue. -/
  undecided : g.isDecided = false → ∀ c ∈ l.inbox, c.ofGate = false
  goesOn : l.abandoned = false → l.isOpen = true

namespace Follows

variable {l next : Loop} {g : Gate}

/-- A new loop is stopped, and so is whatever a new gate asks for. -/
theorem new (interval : Nat) : (Loop.new interval).Follows .new where
  peaceful _ := List.not_mem_nil
  settled _ := rfl
  undecided _ := nofun
  goesOn _ := rfl

/-- A steady step changes nothing about it. -/
theorem steady (h : l.Follows g) (step : l.Steady next) : next.Follows g where
  peaceful ticket asked := h.peaceful ticket (step.inbox.subset asked)
  settled hopen := (step.settled hopen).trans (h.settled step.wasOpen)
  undecided missing c hc := h.undecided missing c (step.inbox.subset hc)
  goesOn left := step.goesOn (step.abandoned ▸ left)

/-- A loop whose clients have gone away is where it was. -/
theorem gone (h : l.Follows g) : ({ l with abandoned := true } : Loop).Follows g :=
  ⟨h.peaceful, h.settled, h.undecided, nofun⟩

/-- The end itself changes nothing; the owner was stopped before. -/
theorem ended (h : l.Follows g) (closed : l.isOpen = false) :
    ({ l with phase := .ended } : Loop).Follows g where
  peaceful := h.peaceful
  settled := nofun
  undecided := h.undecided
  goesOn left := by
    have hopen := h.goesOn left
    simp [closed] at hopen

/-- A command that is offered while the gate changes from `g` to `g'`. -/
theorem offered (h : l.Follows g) {g' : Gate} {c : Command}
    (stays : ∀ ticket, .shutdown ticket ≠ c) (settled : c.startedAfter g.opens = g'.opens)
    (undecided : g'.isDecided = false → g.isDecided = false ∧ c.ofGate = false) :
    (l.offered c).Follows g' where
  peaceful ticket asked := by
    rcases mem_inbox_offered asked with before | same
    · exact h.peaceful ticket before
    · exact stays ticket same
  -- the command is the last of the queue, so it has the last word
  settled hopen := by
    rw [offered_isOpen] at hopen
    rw [settledStarted_offered hopen, h.settled hopen, settled]
  -- while the gate is undecided, it has sent nothing that is queued
  undecided missing d hd := by
    obtain ⟨before, free⟩ := undecided missing
    rcases mem_inbox_offered hd with old | rfl
    · exact h.undecided before d old
    · exact free
  goesOn := by
    rw [offered_abandoned, offered_isOpen]
    exact h.goesOn

/-- A signal queues what the gate decides, if it can decide, and else it decides nothing. -/
theorem signalled {σ : Type} {t : Tracker σ} (h : t.loop.Follows t.gate) (s : GateSignal) :
    (t.signal s).1.loop.Follows (t.gate.set s) := by
  rw [Tracker.signal_loop]
  by_cases gates : s.gates = true
  · have asked : (t.gate.answer s).bind Tracker.commandFor =
        Tracker.commandFor (t.gate.set s).decision := by
      rw [Gate.answer, if_pos gates, Option.bind_some]
    have answer := (t.gate.set s).commandFor_decision
    rw [asked]
    by_cases decided : (t.gate.set s).isDecided = true
    · rw [if_pos decided] at answer
      obtain ⟨c, sent, fromGate, settled⟩ := answer
      rw [sent]
      refine h.offered ?_ (settled _) fun missing => ?_
      · rintro ticket rfl
        cases fromGate
      · simp [decided] at missing
    · rw [if_neg decided] at answer
      rw [answer]
      -- both before and after the signal the gate does not open
      have missing : (t.gate.set s).isDecided = false := by simpa using decided
      have before : t.gate.isDecided = false := by
        by_contra known
        exact decided (Gate.isDecided_set (by simpa using known) s)
      refine ⟨h.peaceful, fun hopen => ?_, fun _ => h.undecided before, h.goesOn⟩
      rw [h.settled hopen, Gate.opens_of_not_isDecided before, Gate.opens_of_not_isDecided missing]
  · cases s with
    | barState state => exact ⟨h.peaceful, h.settled, h.undecided, h.goesOn⟩
    | panelExpanded value => exact absurd rfl gates
    | dozing value => exact absurd rfl gates

end Follows

end Loop

/-! ### All moves -/

variable {σ : Type}

/-- The gate has heard what was set, and the loop follows it and is not abandoned without need. -/
structure Agrees (moves : List Move) (t : Tracker σ) : Prop where
  heard : t.gate.Heard moves
  follows : t.loop.Follows t.gate
  kept : .abandoned ∉ moves → t.loop.abandoned = false

/-- A tracker is not abandoned by any other move. -/
theorem Agrees.kept_append {moves : List Move} {t next : Tracker σ} (h : Agrees moves t) {m : Move}
    (same : m ≠ .abandoned → next.loop.abandoned = t.loop.abandoned)
    (absent : .abandoned ∉ moves ++ [m]) : next.loop.abandoned = false := by
  rw [List.mem_append, List.mem_singleton, not_or] at absent
  obtain ⟨before, other⟩ := absent
  rw [same (Ne.symm other)]
  exact h.kept before

/-- A move that sets no signal keeps the agreement when the loop goes on following. -/
theorem Agrees.quiet {moves : List Move} {t next : Tracker σ} (h : Agrees moves t) {m : Move}
    (panel : m.panel? = none) (dozing : m.dozing? = none) (gate : next.gate = t.gate)
    (loop : next.loop.Follows t.gate)
    (kept : m ≠ .abandoned → next.loop.abandoned = t.loop.abandoned) :
    Agrees (moves ++ [m]) next where
  heard := by
    rw [gate]
    exact h.heard.quiet panel dozing
  follows := by
    rw [gate]
    exact loop
  kept := h.kept_append kept

/-- Every move but the request for the end keeps the agreement. -/
theorem Agrees.moved {moves : List Move} {t : Tracker σ} (h : Agrees moves t) (sink : Sink σ)
    {m : Move} (peaceful : m.shutsDown = false) : Agrees (moves ++ [m]) (t.moved sink m) := by
  cases m with
  | signalled s =>
    have gate : (t.signal s).1.gate = t.gate.set s := t.signal_gate s
    refine ⟨?_, ?_, h.kept_append fun _ => t.signal_abandoned s⟩
    · show (t.signal s).1.gate.Heard _
      rw [gate]
      exact h.heard.signalled s
    · show (t.signal s).1.loop.Follows (t.signal s).1.gate
      rw [gate]
      exact h.follows.signalled s
  | requested c free =>
    have loop : (t.send c).1.loop = t.loop.offered c := t.send_loop c
    refine h.quiet rfl rfl (t.send_gate c) ?_ fun _ => ?_
    · show (t.send c).1.loop.Follows t.gate
      rw [loop]
      refine h.follows.offered ?_ (Command.startedAfter_of_not_ofGate free _) fun missing => ?_
      · rintro ticket rfl
        cases peaceful
      · exact ⟨missing, free⟩
    · show (t.send c).1.loop.abandoned = _
      rw [loop, Loop.offered_abandoned]
  | abandoned => exact h.quiet rfl rfl rfl h.follows.gone fun other => absurd rfl other
  | listed candidates => exact h.quiet rfl rfl rfl h.follows fun _ => rfl
  | elapsed ms => exact h.quiet rfl rfl rfl h.follows fun _ => rfl
  | turned branch r =>
    obtain ⟨gate, loop⟩ := t.turn_loop branch r
    have follows : ((t.turn branch r).getD t).loop.Follows t.gate ∧
        ((t.turn branch r).getD t).loop.abandoned = t.loop.abandoned := by
      rcases loop with same | ⟨next, out, step, stepped⟩
      · rw [same]
        exact ⟨h.follows, rfl⟩
      · -- the step is one of a peaceful loop
        have steady := Loop.step_steady h.follows.peaceful step
        rw [stepped]
        exact ⟨h.follows.steady steady, steady.abandoned⟩
    exact h.quiet rfl rfl gate follows.1 fun _ => follows.2
  | delivered =>
    obtain ⟨gate, loop⟩ := t.deliveryStep_loop sink
    refine h.quiet rfl rfl gate ?_ fun _ => congrArg Loop.abandoned loop
    show ((t.deliveryStep sink).getD t).loop.Follows t.gate
    rw [loop]
    exact h.follows
  | ended =>
    obtain ⟨gate, loop⟩ := t.endStep_loop
    have follows : (t.endStep.getD t).loop.Follows t.gate ∧
        (t.endStep.getD t).loop.abandoned = t.loop.abandoned := by
      rcases loop with same | ⟨closed, stepped⟩
      · rw [same]
        exact ⟨h.follows, rfl⟩
      · rw [stepped]
        exact ⟨h.follows.ended closed, rfl⟩
    exact h.quiet rfl rfl gate follows.1 fun _ => follows.2

/-- Gate and owner agree after any moves that do not ask for the end. -/
theorem Agrees.after (sink : Sink σ) (interval : Nat) (candidates : List Candidate) (s : σ)
    {moves : List Move} (peaceful : ∀ m ∈ moves, m.shutsDown = false) :
    Agrees moves ((Tracker.new interval candidates s).after sink moves) := by
  induction moves using List.reverseRecOn with
  | nil => exact ⟨⟨rfl, rfl⟩, .new interval, fun _ => rfl⟩
  | append_singleton moves m ih =>
    rw [Tracker.after_append_singleton]
    refine (ih fun n hn => ?_).moved sink (peaceful m (by simp))
    exact peaceful n (List.mem_append_left _ hn)

/-- **The gate and the owner agree.**  After any moves that do not ask for the end, in any order: as
    long as commands are taken, handling the start and stop commands in the queue makes tracking run
    just if the panel was last set to expanded and dozing was last set to off.  Commands are taken
    as long as there is a handle.  While one of the signals was never set the queue holds no start
    and no stop, the bar state never queues anything, and once the queue is empty tracking runs just
    if the gate is open. -/
theorem gate_and_owner_agree (sink : Sink σ) (interval : Nat) (candidates : List Candidate) (s : σ)
    (moves : List Move) (peaceful : ∀ m ∈ moves, m.shutsDown = false) :
    let t := (Tracker.new interval candidates s).after sink moves
    (t.loop.isOpen = true →
      (t.loop.inbox.foldl Command.startedAfter t.loop.owner.started = true ↔
        lastPanel moves = some true ∧ lastDozing moves = some false)) ∧
    (.abandoned ∉ moves → t.loop.isOpen = true) ∧
    (lastPanel moves = none ∨ lastDozing moves = none → ∀ c ∈ t.loop.inbox, c.ofGate = false) ∧
    (∀ state, (t.signal (.barState state)).1.loop = t.loop) ∧
    (t.loop.isOpen = true → t.loop.inbox = [] →
      (t.loop.owner.started = true ↔ ∃ lockscreen, t.gate.decision = .opened lockscreen)) := by
  intro t
  have h : Agrees moves t := Agrees.after sink interval candidates s peaceful
  have settled : t.loop.isOpen = true →
      t.loop.inbox.foldl Command.startedAfter t.loop.owner.started = t.gate.opens :=
    h.follows.settled
  refine ⟨fun hopen => ?_, fun kept => ?_, fun missing => ?_, fun state => ?_,
    fun hopen drained => ?_⟩
  · -- the queue leads to what the gate decides, and the gate knows what was set
    rw [settled hopen, Gate.opens_iff, h.heard.1, h.heard.2]
  · exact h.follows.goesOn (h.kept kept)
  · refine h.follows.undecided ?_
    rw [Gate.isDecided, TriState.isKnown, TriState.isKnown, h.heard.1, h.heard.2]
    rcases missing with none | none
    · simp [none]
    · simp [none]
  · rw [Tracker.signal_loop]
    rfl
  · rw [Gate.decision_opened_iff, ← settled hopen, drained]
    rfl

/-- The owner still runs while the order to stop waits in the queue. -/
theorem gate_and_owner_agree_lagging :
    let moves : List Move :=
      [.signalled (.dozing false), .signalled (.panelExpanded true),
        .turned .command (.still 0 []), .turned .command (.still 0 []),
        .signalled (.panelExpanded false)]
    let t := (Tracker.new 500 [] Recorder.new).after Recorder.sink moves
    (∀ m ∈ moves, m.shutsDown = false) ∧ t.loop.owner.started = true ∧ t.loop.inbox = [.stop] ∧
      ¬(t.loop.inbox.foldl Command.startedAfter t.loop.owner.started = true) := by
  intro moves t
  have peaceful : ∀ m ∈ moves, m.shutsDown = false := by simp [moves, Move.shutsDown]
  have hopen : t.loop.isOpen = true := by decide +kernel
  obtain ⟨settled, -⟩ :=
    gate_and_owner_agree Recorder.sink 500 [] Recorder.new moves peaceful
  refine ⟨peaceful, by decide +kernel, by decide +kernel, fun runs => ?_⟩
  obtain ⟨panel, -⟩ := (settled hopen).1 runs
  cases panel

end OnScreen
