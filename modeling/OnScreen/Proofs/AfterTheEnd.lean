import OnScreen.Proofs.GateAgreement

namespace OnScreen

/-!
# What a tracker answers after the end

Once the owner has left its loop nobody takes commands any more, and whoever sends one is told so.
The gate outlives the owner: a gate signal is still taken, and the call fails only if a decision
follows from it, for only a decision has to be sent.

* `Tracker.send_of_closed`, `Tracker.signal_of_closed` — what is answered when no commands are
  taken.
* `Tracker.closed_after` — this is for good.
* `Tracker.heard_after` — the gate goes on hearing every signal.
* `closed_unless_undecided` — what every call answers after the end.
* `undecided_after_the_end` — a call that does not fail.
-/

/-! ### What the gate decides -/

namespace Gate

/-- While a signal is missing there is no decision. -/
theorem decision_of_not_isDecided {g : Gate} (missing : g.isDecided = false) :
    g.decision = .undecided := by
  obtain ⟨panel, dozing, lockscreen⟩ := g
  cases panel <;> cases dozing <;> first | rfl | cases missing

/-- Setting the panel decides just if dozing is known. -/
theorem isDecided_set_panel (g : Gate) (value : Bool) :
    (g.set (.panelExpanded value)).isDecided = g.dozing.isKnown := by
  simp [set, isDecided, TriState.isKnown]

/-- Setting dozing decides just if the panel is known. -/
theorem isDecided_set_dozing (g : Gate) (value : Bool) :
    (g.set (.dozing value)).isDecided = g.panelExpanded.isKnown := by
  simp [set, isDecided, TriState.isKnown]

end Gate

namespace Tracker

variable {σ : Type} {t : Tracker σ}

/-! ### Calls on a tracker that takes no commands -/

/-- A command that nobody takes is refused, and nothing changes. -/
theorem send_of_closed (closed : t.loop.isOpen = false) (c : Command) :
    t.send c = (t, .error .closed) := by
  simp [send, Loop.send, closed]

/-- A gating signal is refused just if a decision follows from it. -/
theorem signal_of_closed (closed : t.loop.isOpen = false) {s : GateSignal}
    (gates : s.gates = true) :
    (t.signal s).2 =
      if (t.gate.set s).isDecided then .error .closed else .ok (some .undecided) := by
  have asked : t.gate.answer s = some (t.gate.set s).decision := by rw [Gate.answer, if_pos gates]
  have command := (t.gate.set s).commandFor_decision
  simp only [signal, asked, Option.bind_some]
  cases decided : (t.gate.set s).isDecided with
  | true =>
    rw [decided, if_pos rfl] at command
    -- the gate decides, so it has a command for the loop, which is refused
    obtain ⟨c, sent, -⟩ := command
    have refused := send_of_closed (t := { t with gate := t.gate.set s }) closed c
    simp only [sent, refused]
    rfl
  | false =>
    -- nothing is sent, so nobody notices that the loop is closed
    simp only [Gate.decision_of_not_isDecided decided]
    rfl

/-! ### Once and for all -/

/-- A tracker that takes no commands never takes any again. -/
theorem closed_moved (sink : Sink σ) (closed : t.loop.isOpen = false) (m : Move) :
    (t.moved sink m).loop.isOpen = false := by
  cases m with
  | signalled s =>
    show (t.signal s).1.loop.isOpen = false
    rw [signal_loop]
    split
    · exact closed
    · rw [Loop.offered_isOpen, closed]
  | requested c free =>
    show (t.send c).1.loop.isOpen = false
    rw [send_of_closed closed]
    exact closed
  | abandoned => exact closed
  | listed candidates => exact closed
  | elapsed ms => exact closed
  | turned branch r =>
    -- a closed loop takes no step, so it is left where it is
    show ((t.turn branch r).getD t).loop.isOpen = false
    rw [turn, Loop.step_of_closed closed]
    exact closed
  | delivered =>
    show ((t.deliveryStep sink).getD t).loop.isOpen = false
    rw [(t.deliveryStep_loop sink).2]
    exact closed
  | ended =>
    show (t.endStep.getD t).loop.isOpen = false
    -- a loop whose end came is closed as well
    rcases t.endStep_loop.2 with same | ⟨-, ended⟩
    · rw [same]
      exact closed
    · rw [ended]
      rfl

/-- A tracker that takes no more commands never does again, whatever happens. -/
theorem closed_after (sink : Sink σ) (closed : t.loop.isOpen = false) (moves : List Move) :
    (t.after sink moves).loop.isOpen = false := by
  induction moves using List.reverseRecOn with
  | nil => exact closed
  | append_singleton moves m ih =>
    rw [after_append_singleton]
    exact closed_moved sink ih m

/-- The gate hears every signal, whether there is an owner or not. -/
theorem heard_moved (sink : Sink σ) {moves : List Move} (h : t.gate.Heard moves) (m : Move) :
    (t.moved sink m).gate.Heard (moves ++ [m]) := by
  cases m with
  | signalled s =>
    show (t.signal s).1.gate.Heard _
    rw [signal_gate]
    exact h.signalled s
  | requested c free =>
    -- from here on nothing sets a signal, and the gate is left as it is
    show (t.send c).1.gate.Heard _
    rw [send_gate]
    exact h.quiet rfl rfl
  | abandoned => exact h.quiet rfl rfl
  | listed candidates => exact h.quiet rfl rfl
  | elapsed ms => exact h.quiet rfl rfl
  | turned branch r =>
    show ((t.turn branch r).getD t).gate.Heard _
    rw [(t.turn_loop branch r).1]
    exact h.quiet rfl rfl
  | delivered =>
    show ((t.deliveryStep sink).getD t).gate.Heard _
    rw [(t.deliveryStep_loop sink).1]
    exact h.quiet rfl rfl
  | ended =>
    show (t.endStep.getD t).gate.Heard _
    rw [t.endStep_loop.1]
    exact h.quiet rfl rfl

/-- At every point of every run the gate is where the last value of each signal has put it. -/
theorem heard_after (sink : Sink σ) (interval : Nat) (candidates : List Candidate) (s : σ)
    (moves : List Move) :
    ((Tracker.new interval candidates s).after sink moves).gate.Heard moves := by
  induction moves using List.reverseRecOn with
  | nil => exact ⟨rfl, rfl⟩
  | append_singleton moves m ih =>
    rw [after_append_singleton]
    exact heard_moved sink ih m

end Tracker

/-- **Closed, unless undecided.**  After any moves that have made the owner leave its loop, also
    those that came later, and for good: every command is refused, and so are the calls that wait
    for an answer.  A panel signal is refused just if dozing was ever set, and a dozing signal just
    if the panel was; otherwise nothing has to be sent, and the call tells that there is no
    decision. -/
theorem closed_unless_undecided {σ : Type} (sink : Sink σ) (interval : Nat)
    (candidates : List Candidate) (s : σ) (moves : List Move)
    (closed : ((Tracker.new interval candidates s).after sink moves).loop.isOpen = false) :
    let t := (Tracker.new interval candidates s).after sink moves
    (∀ more, (t.after sink more).loop.isOpen = false) ∧
    (∀ c, (t.send c).2 = .error .closed) ∧
    (t.flush sink).2 = .error .closed ∧ (t.query sink).2 = .error .closed ∧
    (t.shutdown sink).2 = .error .closed ∧
    (∀ value, (t.signal (.panelExpanded value)).2 =
      if lastDozing moves = none then .ok (some .undecided) else .error .closed) ∧
    ∀ value, (t.signal (.dozing value)).2 =
      if lastPanel moves = none then .ok (some .undecided) else .error .closed := by
  intro t
  have closed : t.loop.isOpen = false := closed
  -- a ticket is drawn before the request is sent
  have ticketed : ∀ c, t.ticket.1.send c = (t.ticket.1, .error .closed) :=
    Tracker.send_of_closed closed
  obtain ⟨panel, dozing⟩ := Tracker.heard_after sink interval candidates s moves
  refine ⟨t.closed_after sink closed, fun c => ?_, ?_, ?_, ?_, fun value => ?_, fun value => ?_⟩
  · rw [Tracker.send_of_closed closed]
  · simp only [Tracker.flush, ticketed]
  · simp only [Tracker.query, ticketed]
  · simp only [Tracker.shutdown, Tracker.requestShutdown, ticketed]
    rfl
  · rw [Tracker.signal_of_closed closed rfl, Gate.isDecided_set_panel, TriState.isKnown, dozing]
    cases lastDozing moves <;> rfl
  · rw [Tracker.signal_of_closed closed rfl, Gate.isDecided_set_dozing, TriState.isKnown, panel]
    cases lastPanel moves <;> rfl

/-- The panel was set before the end: setting it again is answered, and setting dozing fails. -/
theorem closed_unless_undecided_panel :
    let moves : List Move :=
      [.signalled (.panelExpanded true), .requested (.shutdown 0) rfl, .turned .command (.still 0 []),
        .turned .command (.still 0 []), .ended]
    let t := (Tracker.new 500 [] Recorder.new).after Recorder.sink moves
    t.loop.isOpen = false ∧ (t.signal (.panelExpanded false)).2 = .ok (some .undecided) ∧
      (t.signal (.dozing false)).2 = .error .closed := by
  intro moves t
  have closed : t.loop.isOpen = false := by decide +kernel
  obtain ⟨-, -, -, -, -, panel, dozing⟩ :=
    closed_unless_undecided Recorder.sink 500 [] Recorder.new moves closed
  exact ⟨closed, panel false, dozing false⟩

/-- A panel signal does not fail after the end while dozing was never set. -/
theorem undecided_after_the_end :
    let moves : List Move :=
      [.requested (.shutdown 0) rfl, .turned .command (.still 0 []), .turned .command (.still 0 []),
        .ended]
    let t := (Tracker.new 500 [] Recorder.new).after Recorder.sink moves
    t.hasEnded = true ∧ (t.signal (.panelExpanded true)).2 = .ok (some .undecided) ∧
      (t.signal (.panelExpanded true)).2 ≠ .error .closed := by
  intro moves t
  have answer : (t.signal (.panelExpanded true)).2 = .ok (some .undecided) := rfl
  exact ⟨rfl, answer, by rw [answer]; exact nofun⟩

end OnScreen
