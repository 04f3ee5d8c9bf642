import OnScreen.Proofs.AfterTheEnd
import OnScreen.Proofs.EndToEnd
import OnScreen.Proofs.Silence
import OnScreen.Proofs.SinkFailures

namespace OnScreen

/-!
# Panel reports mirror the openings of the gate

When a signal opens the gate, a start command is queued that carries what the bar state says at this
moment; the owner reports the panel when it comes to the command, with the items of that later
moment.  The queue keeps the order, so the reports follow the signals one by one, as far as the
owner gets before it ends.

* `openings` — the openings of the gate, told from the moves alone.
* `Run.InTime` — the owner deals with what was taken in front of the first shutdown.
* `TrackerRun.Mirrors` — the start commands among what was taken are the openings of the gate.
* `Owner.panel_reports` — the owner reports the panel once for each start command.
* `Owner.panel_before_batch` — a stopped owner reports no batch before it reports the panel.
* `panel_reports_mirror_openings` — what all this comes to.
-/

/-! ### The openings of the gate -/

/-- Whether the lock screen shows, where the bar state is set. -/
def Move.bar? : Move → Option Bool
  | signalled (.barState state) => some state.isLockscreen
  | _ => none

/-- Whether the lock screen showed when the bar state was set last. -/
def lastBar (moves : List Move) : Option Bool := latest Move.bar? moves

/-- The move sets the panel or dozing, and with it the panel is expanded and dozing is off: the gate
    opens with the bar state that was set last, or without the lock screen if none was. -/
def opening? (before : List Move) (m : Move) : Option Bool :=
  if (m.panel?.isSome ∨ m.dozing?.isSome) ∧ lastPanel (before ++ [m]) = some true ∧
      lastDozing (before ++ [m]) = some false then
    some ((lastBar before).getD false)
  else none

/-- The openings of the gate among some moves that come after `before`. -/
def openingsBehind (before : List Move) : List Move → List Bool
  | [] => []
  | m :: rest => (opening? before m).toList ++ openingsBehind (before ++ [m]) rest

/-- The openings of the gate, each with the value for the lock screen that it goes with. -/
def openings (moves : List Move) : List Bool := openingsBehind [] moves

/-- Openings are found piece by piece, each piece in the light of what came before it. -/
theorem openingsBehind_append (before moves later : List Move) :
    openingsBehind before (moves ++ later) =
      openingsBehind before moves ++ openingsBehind (before ++ moves) later := by
  induction moves generalizing before with
  | nil => simp [openingsBehind]
  | cons m moves ih => simp [openingsBehind, ih]

/-- One more move adds its own opening, if it opens the gate. -/
theorem openings_append_singleton (moves : List Move) (m : Move) :
    openings (moves ++ [m]) = openings moves ++ (opening? moves m).toList := by
  simp [openings, openingsBehind_append, openingsBehind]

/-- A bar state does not open the gate, and nothing else does but a gating signal. -/
theorem opening?_eq_none {m : Move} (panel : m.panel? = none) (dozing : m.dozing? = none)
    (before : List Move) : opening? before m = none := by
  simp [opening?, panel, dozing]

/-- The value for the lock screen that a start command carries. -/
def Command.opening? : Command → Option Bool
  | start lockscreen => some lockscreen
  | stop | possibleChange | expansionChanged _ _ _ | entryRemoved _ | entryUpdated _ | itemError _ _
  | flush _ | query _ | shutdown _ => none

/-- The start commands among some commands. -/
def Command.openings (commands : List Command) : List Bool := commands.filterMap opening?

namespace Command

theorem openings_append (xs ys : List Command) : openings (xs ++ ys) = openings xs ++ openings ys :=
  List.filterMap_append

/-- A command opens if it is a start. -/
theorem openings_singleton (c : Command) : openings [c] = c.opening?.toList := by
  unfold openings
  cases h : c.opening? <;> simp [h]

/-- The first commands make the first openings. -/
theorem openings_prefix {xs ys : List Command} (h : xs <+: ys) : openings xs <+: openings ys := by
  obtain ⟨rest, rfl⟩ := h
  rw [openings_append]
  exact List.prefix_append _ _

/-- A command that does not come from the gate opens nothing. -/
theorem opening?_of_free {c : Command} (free : c.ofGate = false) : c.opening? = none := by
  cases c <;> first | rfl | cases free

end Command

namespace Gate

/-- Only an open gate makes a start command of its decision. -/
theorem opening?_of_decision (g : Gate) :
    (Tracker.commandFor g.decision).bind Command.opening? =
      if g.panelExpanded.known = some true ∧ g.dozing.known = some false then
        some (g.lockscreen.known.getD false)
      else none := by
  obtain ⟨panel, dozing, lockscreen⟩ := g
  cases panel <;> cases dozing <;>
    simp [decision, TriState.known, Tracker.commandFor, Command.opening?]

/-- A gate that knows what was set makes a start command of a signal just if this is an opening. -/
theorem opening?_of_answer {g : Gate} {moves : List Move} (heard : g.Heard moves)
    (bar : g.lockscreen.known = lastBar moves) (s : GateSignal) :
    ((g.answer s).bind Tracker.commandFor).bind Command.opening? =
      opening? moves (.signalled s) := by
  have after := heard.signalled s
  cases s with
  | barState state => rw [opening?_eq_none rfl rfl]; rfl
  | panelExpanded value =>
    -- the gate answers with what it has heard, this signal included
    show (Tracker.commandFor (g.set (.panelExpanded value)).decision).bind Command.opening? = _
    rw [opening?_of_decision, after.1, after.2, opening?, ← bar]
    simp [Move.panel?, set]
  | dozing value =>
    show (Tracker.commandFor (g.set (.dozing value)).decision).bind Command.opening? = _
    rw [opening?_of_decision, after.1, after.2, opening?, ← bar]
    simp [Move.dozing?, set]

/-- The gate knows the bar state that was set last. -/
theorem bar_after {g : Gate} {moves : List Move} (bar : g.lockscreen.known = lastBar moves)
    (m : Move) : (g.after m).lockscreen.known = lastBar (moves ++ [m]) := by
  rw [lastBar, latest_append_singleton]
  cases m with
  | signalled s =>
    cases s with
    | barState state => exact TriState.known_ofBool _
    | panelExpanded value | dozing value => exact bar
  | _ => exact bar

end Gate

/-! ### What the owner gets to deal with -/

namespace Command

/-- What is in time comes first. -/
theorem inTime_prefix (commands : List Command) : inTime commands <+: commands := by
  induction commands with
  | nil => exact List.prefix_rfl
  | cons c rest ih =>
    unfold inTime
    split
    · exact List.nil_prefix
    · exact (List.cons_prefix_cons).2 ⟨rfl, ih⟩

/-- Without a shutdown in front of them, the commands that come later come in time as well. -/
theorem inTime_append_of_peaceful {commands : List Command}
    (peaceful : ∀ ticket, .shutdown ticket ∉ commands) (later : List Command) :
    inTime (commands ++ later) = commands ++ inTime later := by
  induction commands with
  | nil => rfl
  | cons c rest ih =>
    -- a command that does not shut down is in time, and so is what comes behind it
    have going : c.shutsDown = false := by
      cases c with
      | shutdown ticket => exact absurd List.mem_cons_self (peaceful ticket)
      | _ => rfl
    have others := ih fun ticket asked => peaceful ticket (List.mem_cons_of_mem c asked)
    simp [inTime, going, others]

/-- A shutdown that is the last of all commands keeps no start command out. -/
theorem openings_inTime {commands : List Command}
    (last : ∀ before ticket later, commands = before ++ .shutdown ticket :: later → later = []) :
    openings (inTime commands) = openings commands := by
  induction commands with
  | nil => rfl
  | cons c rest ih =>
    have others := ih fun before ticket later split =>
      last (c :: before) ticket later (congrArg (c :: ·) split)
    cases ends : c.shutsDown with
    | false =>
      rw [inTime, if_neg (by simp [ends]), ← List.singleton_append, openings_append, others,
        ← openings_append]
      rfl
    | true =>
      cases c with
      | shutdown ticket =>
        -- nothing comes behind a shutdown, so nothing is cut off
        rw [last [] ticket rest rfl]
        rfl
      | _ => cases ends

end Command

/-- A loop that is left without a shutdown has nothing in its queue. -/
theorem Loop.inbox_of_leave {branch : Branch} {r : Readings} {l next : Loop} {out : List Output}
    (h : l.step branch r = some (next, out)) (left : next.phase = .closing none) :
    l.inbox = [] := by
  obtain ⟨owner, inbox, phase, abandoned⟩ := l
  cases phase with
  | checking =>
    simp only [step] at h
    split at h <;> cases h <;> cases left
  | parked =>
    cases branch with
    | deadline =>
      simp only [step] at h
      split at h <;> cases h
      cases left
    | command =>
      -- with a command in the queue, the loop goes on or is left for whoever asked
      cases inbox with
      | nil => rfl
      | cons c rest =>
        cases c with
        | shutdown ticket => cases h; cases left
        | _ => cases h; cases left
  | closing ticket => cases h
  | ended => cases h

namespace Run

/-- What was taken in front of the first shutdown has been dealt with or is still queued. -/
def InTime (taken : List Command) (run : Run) : Prop :=
  Command.inTime taken = Command.inTime (Act.commands run.acts ++ run.loop.inbox)

/-- While commands are taken, none is lost. -/
theorem Served.inTime {taken : List Command} {run : Run} (h : run.Served taken)
    (hopen : run.loop.isOpen = true) : run.InTime taken :=
  congrArg Command.inTime (h.queued hopen)

/-- A turn takes a command from the queue to the acts, or leaves with those that come too late. -/
theorem InTime.turned {taken : List Command} {run : Run} (h : run.InTime taken)
    (served : run.Served taken) (branch : Branch) (r : Readings) :
    (run.next (.turned branch r)).InTime taken := by
  have after := served.turned branch r
  simp only [next] at after ⊢
  cases step : run.loop.step branch r with
  | none => exact h
  | some result =>
    obtain ⟨loop, out⟩ := result
    rw [step] at after
    cases Loop.step_serves step with
    | nobody stays | first stays => exact after.inTime stays
    | @leaves done checked ticket phase dropped last idle asked =>
      have hopen := Loop.isOpen_of_step step
      have peaceful := served.shutdown_not_mem hopen
      have commands : Act.commands (run.acts ++ run.loop.acts branch r) =
          Act.commands run.acts ++ (ticket.map Command.shutdown).toList := by
        rw [last, Act.commands_append, Act.commands_append, idle]
        cases ticket <;> rfl
      -- what is dropped stands behind the shutdown, if there is one, and else there is nothing
      have queue : Command.inTime run.loop.inbox =
          Command.inTime (ticket.map Command.shutdown).toList := by
        cases ticket with
        | none => rw [Loop.inbox_of_leave step phase]; rfl
        | some ticket =>
          obtain ⟨rest, split⟩ := asked
          rw [← split]
          rfl
      show Command.inTime taken = Command.inTime (Act.commands _ ++ loop.inbox)
      rw [commands, dropped, List.append_nil, served.queued hopen,
        Command.inTime_append_of_peaceful peaceful, Command.inTime_append_of_peaceful peaceful,
        queue]

/-- Whatever happens, what is in time has been dealt with or is still queued. -/
theorem InTime.next {taken : List Command} {run : Run} (h : run.InTime taken)
    (served : run.Served taken) (e : Event) : (run.next e).InTime (taken ++ run.takes e) := by
  cases e with
  | sent c =>
    by_cases hopen : run.loop.isOpen = true
    -- what is taken goes into the queue, and what is not taken changes nothing
    · have stays : (run.next (.sent c)).loop.isOpen = true := by
        rw [next_sent, Loop.offered_isOpen, hopen]
      exact (served.sent c).inTime stays
    · have closed : run.loop.isOpen = false := by simpa using hopen
      rw [next_sent, Loop.offered_of_closed closed, takes, if_neg hopen, List.append_nil]
      exact h
  | abandoned =>
    rw [takes, List.append_nil]
    exact h
  | turned branch r =>
    rw [takes, List.append_nil]
    exact h.turned served branch r
  | delivered =>
    rw [takes, List.append_nil]
    simp only [Run.next]
    cases run.loop.phase with
    | closing ticket => exact h
    | checking | parked | ended => exact h

/-- The start commands among what comes in time are those that were dealt with, and those that are
    queued in front of a shutdown. -/
theorem InTime.openings {taken : List Command} {run : Run} (h : run.InTime taken)
    (served : run.Served taken) :
    Command.openings (Command.inTime taken) =
      Command.openings (Act.commands run.acts) ++
        Command.openings (Command.inTime run.loop.inbox) := by
  rw [h]
  -- while the loop is open nothing that was dealt with shuts down
  by_cases hopen : run.loop.isOpen = true
  · rw [Command.inTime_append_of_peaceful (served.shutdown_not_mem hopen), Command.openings_append]
  · -- afterwards the queue is empty, and nothing comes behind a shutdown
    obtain ⟨dropped, -⟩ := served.left (by simpa using hopen)
    rw [dropped, List.append_nil, Command.openings_inTime fun before ticket later split =>
      (served.last before ticket later split).1]
    exact (List.append_nil _).symm

end Run

/-! ### The openings among what is taken -/

variable {σ : Type}

/-- The moves among some events. -/
def TrackerEvent.moves (events : List (TrackerEvent σ)) : List Move := events.filterMap move?

namespace TrackerRun

/-- The start commands among what was taken are the openings of the gate, up to the end. -/
structure Mirrors (moves : List Move) (run : TrackerRun σ) : Prop where
  heard : run.tracker.gate.Heard moves
  bar : run.tracker.gate.lockscreen.known = lastBar moves
  inTime : run.front.InTime run.taken
  opened : ∃ late, openings moves = Command.openings run.taken ++ late ∧
    (run.front.loop.isOpen = true → late = [])

/-- While commands are taken, a move adds a start command just if it opens the gate; later it adds
    nothing. -/
theorem openings_added {moves : List Move} {run : TrackerRun σ} (h : run.Mirrors moves) (m : Move) :
    Command.openings (run.added m) =
      if run.front.loop.isOpen then (opening? moves m).toList else [] := by
  cases m with
  | signalled s =>
    -- the gate's answer is what the moves tell, and the loop takes it if it takes anything
    rw [← Gate.opening?_of_answer h.heard h.bar, added, Tracker.loopEvent]
    cases (run.tracker.gate.answer s).bind Tracker.commandFor with
    | none => simp [Command.openings]
    | some c =>
      simp only [Option.map_some, Option.elim_some, Run.takes, Option.bind_some]
      split
      · exact Command.openings_singleton c
      · rfl
  | requested c free =>
    rw [opening?_eq_none rfl rfl]
    simp only [added, Tracker.loopEvent, Option.elim_some, Run.takes]
    split
    · simp [Command.openings, Command.opening?_of_free free]
    · rfl
  | ended =>
    rw [opening?_eq_none rfl rfl]
    simp only [added, Tracker.loopEvent]
    split <;> simp [Command.openings, Run.takes]
  | abandoned | turned branch r | listed candidates | elapsed ms | delivered =>
    rw [opening?_eq_none rfl rfl]
    simp [added, Tracker.loopEvent, Command.openings, Run.takes]

/-- A move that opens the gate sends its start, as long as commands are taken. -/
theorem Mirrors.moved {moves : List Move} {run : TrackerRun σ} (h : run.Mirrors moves)
    (served : run.front.Served run.taken) (sink : Sink σ) (m : Move) :
    (run.next sink (.moved m)).Mirrors (moves ++ [m]) := by
  have front : (run.next sink (.moved m)).front =
      (run.tracker.loopEvent m).elim run.front run.front.next := run.recorded_front sink m
  have taken : (run.next sink (.moved m)).taken = run.taken ++ run.added m :=
    run.recorded_taken sink m
  refine ⟨Tracker.heard_moved sink.watched h.heard m, ?_, ?_, ?_⟩
  · show ((run.tracker.moved sink.watched m).gate).lockscreen.known = _
    rw [Tracker.moved_gate]
    exact Gate.bar_after h.bar m
  · rw [front, taken, added]
    cases run.tracker.loopEvent m with
    | none => simpa using h.inTime
    | some e => exact h.inTime.next served e
  · -- an opening that is not taken is late, and so are all that follow
    obtain ⟨late, opened, complete⟩ := h.opened
    rw [openings_append_singleton, opened, taken, Command.openings_append, openings_added h]
    by_cases hopen : run.front.loop.isOpen = true
    · refine ⟨[], ?_, fun _ => rfl⟩
      rw [if_pos hopen, complete hopen, List.append_nil, List.append_nil]
    · refine ⟨late ++ (opening? moves m).toList, ?_, fun stays => ?_⟩
      · rw [if_neg hopen, List.append_nil, List.append_assoc]
      · -- a loop that was left stays so
        rw [front] at stays
        cases event : run.tracker.loopEvent m with
        | none =>
          rw [event] at stays
          exact absurd stays hopen
        | some e =>
          have closed := (Run.next_of_closed (by simpa using hopen) e).1
          rw [event, Option.elim_some, closed] at stays
          cases stays

/-- In every run the start commands that were taken mirror the openings of the gate. -/
theorem mirrors_of (sink : Sink σ) (interval : Nat) (candidates : List Candidate) (s : σ)
    (events : List (TrackerEvent σ)) :
    (of sink interval candidates s events).Mirrors (TrackerEvent.moves events) := by
  induction events using List.reverseRecOn with
  | nil => exact ⟨⟨rfl, rfl⟩, rfl, rfl, [], rfl, fun _ => rfl⟩
  | append_singleton events e ih =>
    rw [of_append_singleton, TrackerEvent.moves, List.filterMap_append]
    cases e with
    | moved m =>
      exact ih.moved (recorded_of sink interval candidates s events).served sink m
    | sinkChanged change =>
      -- a sink that changes moves nobody
      show Mirrors (TrackerEvent.moves events ++ []) _
      rw [List.append_nil]
      exact ⟨ih.heard, ih.bar, ih.inTime, ih.opened⟩

end TrackerRun

/-! ### What the owner reports -/

/-- What a report says about the panel. -/
def Report.panel? : Report → Option (Bool × List ItemKey)
  | panelShown lockscreen items => some (lockscreen, items)
  | visibility _ _ | expansion _ | itemError _ _ => none

/-- A batch says nothing about the panel. -/
theorem Report.panel_batch (newly noLonger : List Record) :
    (batch newly noLonger).filterMap panel? = [] := by
  unfold batch
  split
  · rfl
  · rfl

/-- Nor do changes of expansion. -/
theorem Report.panel_expansions (changes : List ExpansionChange) :
    (changes.map expansion).filterMap panel? = [] := by
  rw [List.filterMap_eq_nil_iff]
  intro r hr
  obtain ⟨c, -, rfl⟩ := List.mem_map.1 hr
  rfl

/-- The handling of a start command, with the keys of all candidates at this moment. -/
def Act.opening? : Act → Option (Bool × List ItemKey)
  | handle _ m (.start lockscreen) => some (lockscreen, m.candidates.map Candidate.key)
  | tick _ _ | handle _ _ _ | leave _ _ => none

/-- An act that starts tracking is the handling of a start. -/
theorem Act.eq_handle_of_starts {a : Act} (h : a.starts = true) :
    ∃ checked m lockscreen, a = .handle checked m (.start lockscreen) := by
  cases a with
  | handle checked m c =>
    cases c with
    | start lockscreen => exact ⟨checked, m, lockscreen, rfl⟩
    | _ => cases h
  | tick checked m | leave checked ticket => cases h

/-- The start commands that are handled are among those that are dealt with, in order. -/
theorem Act.openings_commands (acts : List Act) :
    (acts.filterMap Act.opening?).map Prod.fst = Command.openings (commands acts) := by
  induction acts with
  | nil => rfl
  | cons a acts ih =>
    rw [← List.singleton_append, List.filterMap_append, List.map_append, ih, commands_append,
      Command.openings_append]
    congr 1
    -- an act opens just what the command does that it deals with
    cases a with
    | handle checked m c => cases c <;> rfl
    | tick checked m => rfl
    | leave checked ticket => cases ticket <;> rfl

namespace Owner

/-- A stop says nothing about the panel. -/
theorem panel_stop (o : Owner) : (Output.reports o.stop.2).filterMap Report.panel? = [] := by
  unfold stop
  split
  · show (Output.reports (o.visible.takeAll.2.toList.map _)).filterMap Report.panel? = []
    rw [reports_takeAll, Report.panel_batch]
  · rfl

/-- Only the handling of a start command says anything about the panel. -/
theorem panel_perform (o : Owner) (a : Act) :
    (Output.reports (o.perform a).2).filterMap Report.panel? = a.opening?.toList := by
  cases a with
  | tick checked m =>
    -- a tick reports a batch and changes, and no panel
    show (Output.reports (o.tick m.now m.candidates).2).filterMap Report.panel? = []
    rw [reports_tick, List.filterMap_append, Report.panel_batch, Report.panel_expansions]
    rfl
  | leave checked ticket => exact o.panel_stop
  | handle checked m c =>
    cases c with
    | stop => exact o.panel_stop
    | expansionChanged key user expanded =>
      show (Output.reports (List.map _ (o.expansions.expand key user expanded _).2.toList)).filterMap
        Report.panel? = []
      rw [Output.reports_map, Report.panel_expansions]
    | _ => rfl

/-- The panel is reported once for each start command that is handled. -/
theorem panel_reports (o : Owner) (acts : List Act) :
    (o.reports acts).filterMap Report.panel? = acts.filterMap Act.opening? := by
  induction acts generalizing o with
  | nil => rfl
  | cons a acts ih =>
    rw [reports_cons, List.filterMap_append, panel_perform, ih, ← List.singleton_append,
      List.filterMap_append]
    cases h : a.opening? <;> simp [h]

/-- An owner that is stopped reports no batch before it reports the panel. -/
theorem panel_before_batch {o : Owner} (h : o.Consistent) (stopped : o.started = false)
    {acts : List Act} (allowed : o.AllowsAll acts) {earlier later : List Report} {r : Report}
    (split : o.reports acts = earlier ++ r :: later) (batch : r.isBatch = true) :
    ∃ lockscreen items, .panelShown lockscreen items ∈ earlier := by
  obtain ⟨done, a, ahead, before, rest, rfl, words, rfl, -⟩ := act_of_report split
  by_contra silence
  have quiet : ∀ b ∈ done ++ [a], b.starts = false := by
    intro b hb
    by_contra starts
    obtain ⟨checked, m, lockscreen, rfl⟩ := Act.eq_handle_of_starts (by simpa using starts)
    rcases List.mem_append.1 hb with sooner | same
    · -- a start command that was handled before the batch was reported before it
      have told : (lockscreen, m.candidates.map Candidate.key) ∈
          (o.reports done).filterMap Report.panel? := by
        rw [panel_reports]
        exact List.mem_filterMap.2 ⟨_, sooner, rfl⟩
      obtain ⟨p, hp, panel⟩ := List.mem_filterMap.1 told
      cases p <;> cases panel
      exact silence ⟨lockscreen, _, List.mem_append_left _ hp⟩
    · -- the handling of a start command reports the panel and nothing else
      cases List.mem_singleton.1 same
      have only : [Report.panelShown lockscreen (m.candidates.map Candidate.key)] =
          before ++ r :: rest := words
      have here : r ∈ [Report.panelShown lockscreen (m.candidates.map Candidate.key)] := by
        rw [only]
        simp
      rw [List.mem_singleton.1 here] at batch
      cases batch
  -- so all this is silent, but the batch is not
  have silent : Silent o (done ++ [a]) := by
    apply silent_of_stopped h stopped _ quiet
    rw [List.append_cons] at allowed
    exact ((allowsAll_append _ _ _).1 allowed).1
  have among : r ∈ o.reports (done ++ [a]) := by
    rw [reports_append, reports_singleton, words]
    simp
  obtain ⟨key, message, rfl⟩ := silent.reports r among
  cases batch

/-- A stop reports what goes away, and behind it there is no batch before the panel is reported. -/
theorem reports_behind_stop {o : Owner} (h : o.Consistent) {checked : Instant} {m : Moment}
    {ahead : List Act} (allowed : o.AllowsAll (.handle checked m .stop :: ahead)) :
    ∃ gone rest, o.reports (.handle checked m .stop :: ahead) = Report.batch [] gone ++ rest ∧
      ∀ earlier r later, rest = earlier ++ r :: later → r.isBatch = true →
        ∃ lockscreen items, .panelShown lockscreen items ∈ earlier := by
  have stopped : o.stop.1.Consistent := perform_consistent o (.handle checked m .stop) h allowed.1
  refine ⟨Record.byRank o.visible.records, o.stop.1.reports ahead, ?_, ?_⟩
  · rw [reports_cons, ← reports_stop h]
    rfl
  · intro earlier r later split batch
    exact panel_before_batch stopped o.stop_started allowed.2 split batch

end Owner

/-! ### Runs of a tracker -/

namespace TrackerRun

variable {sink : Sink σ} {interval : Nat} {candidates : List Candidate} {s : σ}

/-- Where no move asks for the end, no shutdown is taken. -/
theorem peaceful_taken {events : List (TrackerEvent σ)}
    (peaceful : ∀ m ∈ TrackerEvent.moves events, m.shutsDown = false) (ticket : Nat) :
    .shutdown ticket ∉ (of sink interval candidates s events).taken := by
  intro taken
  have asked : TrackerEvent.requests (.shutdown ticket) ∈ events :=
    requests_of_mem_taken sink interval candidates s taken
  have among : Move.requested (.shutdown ticket) rfl ∈ TrackerEvent.moves events :=
    List.mem_filterMap.2 ⟨_, asked, rfl⟩
  cases peaceful _ among

/-- The openings that the owner deals with, or will if it gets to them, are the first of all. -/
theorem openings_inTime_prefix (events : List (TrackerEvent σ)) :
    Command.openings (Command.inTime (of sink interval candidates s events).taken) <+:
      openings (TrackerEvent.moves events) := by
  obtain ⟨late, opened, -⟩ := (mirrors_of sink interval candidates s events).opened
  rw [opened]
  exact (Command.openings_prefix (Command.inTime_prefix _)).trans (List.prefix_append _ _)

/-- What opens the gate while commands are taken, and before anyone asks for the end, is in time. -/
theorem openings_prefix_inTime {before : List (TrackerEvent σ)}
    (hopen : (of sink interval candidates s before).front.loop.isOpen = true)
    (peaceful : ∀ m ∈ TrackerEvent.moves before, m.shutsDown = false)
    (later : List (TrackerEvent σ)) :
    openings (TrackerEvent.moves before) <+:
      Command.openings
        (Command.inTime (of sink interval candidates s (before ++ later)).taken) := by
  obtain ⟨late, opened, complete⟩ := (mirrors_of sink interval candidates s before).opened
  obtain ⟨more, taken, -⟩ := taken_of_append sink interval candidates s before later
  -- everything that opened was taken, and what comes later only adds to it
  rw [opened, complete hopen, List.append_nil, taken,
    Command.inTime_append_of_peaceful (peaceful_taken peaceful)]
  exact Command.openings_prefix (List.prefix_append _ _)

/-- What opens the gate behind a shutdown is not in time. -/
theorem inTime_prefix_openings {before : List (TrackerEvent σ)}
    (hopen : (of sink interval candidates s before).front.loop.isOpen = true) (ticket : Nat)
    (later : List (TrackerEvent σ)) :
    Command.openings (Command.inTime
        (of sink interval candidates s (before ++ .requests (.shutdown ticket) :: later)).taken) <+:
      openings (TrackerEvent.moves before) := by
  obtain ⟨more, taken, -⟩ :=
    taken_around sink interval candidates s before later (.shutdown ticket)
  rw [if_pos hopen, ← List.append_assoc] at taken
  have asked : .shutdown ticket ∈
      (of sink interval candidates s before).taken ++ [.shutdown ticket] := by simp
  rw [taken]
  show Command.openings (Command.inTime
    ((of sink interval candidates s before).taken ++ [.shutdown ticket] ++ more)) <+: _
  -- behind the shutdown nothing is in time
  rw [Command.inTime_append asked, Command.inTime_append_shutdown]
  exact openings_inTime_prefix before

end TrackerRun

/-- **Panel reports mirror the openings of the gate.**  In every run of a tracker:

    * The panel reports are those of the start commands that were handled, in order, each with the
      value that its command carries and with the keys of all candidates at the moment of handling.
    * The values are those of the first openings of the gate, one by one.
    * Every opening before the end is asked for, as long as commands are taken, has been handled or
      is still waiting; no opening behind a shutdown is; and nothing waits when the owner has left.
    * After a stop is handled, which reports at most that items went away, there is no batch before
      the panel is reported again. -/
theorem panel_reports_mirror_openings (sink : Sink σ) (interval : Nat) (candidates : List Candidate)
    (s : σ) (events : List (TrackerEvent σ)) :
    let run := TrackerRun.of sink interval candidates s
    let handled := (run events).acts.filterMap Act.opening?
    let waiting := Command.openings (Command.inTime (run events).tracker.loop.inbox)
    (run events).front.reports.filterMap Report.panel? = handled ∧
    handled.map Prod.fst <+: openings (TrackerEvent.moves events) ∧
    (∀ before later, events = before ++ later → (run before).tracker.loop.isOpen = true →
      (∀ m ∈ TrackerEvent.moves before, m.shutsDown = false) →
      openings (TrackerEvent.moves before) <+: handled.map Prod.fst ++ waiting) ∧
    (∀ before ticket later, events = before ++ .requests (.shutdown ticket) :: later →
      (run before).tracker.loop.isOpen = true →
      handled.map Prod.fst ++ waiting <+: openings (TrackerEvent.moves before)) ∧
    ((run events).tracker.loop.isOpen = false → waiting = []) ∧
    (∀ done checked m ahead, (run events).acts = done ++ .handle checked m .stop :: ahead →
      ∃ gone rest, (run events).front.reports =
          (Owner.new interval).reports done ++ (Report.batch [] gone ++ rest) ∧
        ∀ earlier r later, rest = earlier ++ r :: later → r.isBatch = true →
          ∃ lockscreen items, .panelShown lockscreen items ∈ earlier) := by
  intro run handled waiting
  have loops : ∀ events, (run events).tracker.loop = (run events).front.loop := fun events =>
    (TrackerRun.faithful_of sink interval candidates s events).loop
  have recorded := TrackerRun.recorded_of sink interval candidates s events
  have reports : (run events).front.reports = (Owner.new interval).reports (run events).acts := by
    rw [Run.reports, ← recorded.accounted.said]
    rfl
  -- handled and waiting together are what comes in time
  have inTime : handled.map Prod.fst ++ waiting =
      Command.openings (Command.inTime (run events).taken) := by
    have mirrors := TrackerRun.mirrors_of sink interval candidates s events
    rw [mirrors.inTime.openings recorded.served, Act.openings_commands, ← loops]
    rfl
  refine ⟨?_, ?_, ?_, ?_, ?_, ?_⟩
  · rw [reports, Owner.panel_reports]
  · apply (List.prefix_append _ waiting).trans
    rw [inTime]
    exact TrackerRun.openings_inTime_prefix events
  · rintro before later rfl hopen peaceful
    rw [inTime]
    exact TrackerRun.openings_prefix_inTime (loops before ▸ hopen) peaceful later
  · rintro before ticket later rfl hopen
    rw [inTime]
    exact TrackerRun.inTime_prefix_openings (loops before ▸ hopen) ticket later
  · intro closed
    have dropped := (recorded.served.left (loops events ▸ closed)).1
    show Command.openings (Command.inTime (run events).tracker.loop.inbox) = []
    rw [loops, dropped]
    rfl
  · intro done checked m ahead split
    have allowed := recorded.accounted.allowed
    rw [show (run events).front.acts = _ from split, Owner.allowsAll_append] at allowed
    obtain ⟨before, later⟩ := allowed
    obtain ⟨gone, rest, words, panel⟩ :=
      Owner.reports_behind_stop (Owner.consistent_after before) later
    refine ⟨gone, rest, ?_, panel⟩
    rw [reports, split, Owner.reports_append, words]

/-- The bar state changes while the first start command waits, an item is hidden and another one
    stands twice in the list, and the gate opens once more behind a shutdown. -/
theorem panel_reports_mirror_openings_late :
    let m : Moment := ⟨0, [⟨⟨"a"⟩, true, none⟩, ⟨⟨"b"⟩, false, none⟩, ⟨⟨"a"⟩, true, none⟩]⟩
    let panel (expanded : Bool) : TrackerEvent Recorder :=
      .moved (.signalled (.panelExpanded expanded))
    let bar (state : BarState) : TrackerEvent Recorder := .moved (.signalled (.barState state))
    let before : List (TrackerEvent Recorder) :=
      [bar .keyguard, .moved (.signalled (.dozing false)), panel true, bar .shade, panel false,
        panel true]
    let later : List (TrackerEvent Recorder) :=
      panel true :: .replicate 9 (.moved (.turned .command (.still 0 m.candidates)))
    let run := TrackerRun.of Recorder.sink 500 [] Recorder.new
    let events := before ++ .requests (.shutdown 0) :: later
    let done : List Act := [.handle 0 m (.start true), .tick 0 m]
    let ahead : List Act := [.handle 0 m (.start false), .leave 0 (some 0)]
    (run before).tracker.loop.isOpen = true ∧
    (∀ m ∈ TrackerEvent.moves before, m.shutsDown = false) ∧
    (run events).tracker.loop.isOpen = false ∧
    (run events).acts = done ++ .handle 0 m .stop :: ahead ∧
    ((run events).acts.filterMap Act.opening?).map Prod.fst = openings (TrackerEvent.moves before) ∧
    openings (TrackerEvent.moves events) = [true, false, false] ∧
    (run events).front.reports.filterMap Report.panel? =
      [(true, [⟨"a"⟩, ⟨"b"⟩, ⟨"a"⟩]), (false, [⟨"a"⟩, ⟨"b"⟩, ⟨"a"⟩])] ∧
    ∃ gone rest, (run events).front.reports =
        (Owner.new 500).reports done ++ (Report.batch [] gone ++ rest) ∧
      ∀ earlier r later, rest = earlier ++ r :: later → r.isBatch = true →
        ∃ lockscreen items, .panelShown lockscreen items ∈ earlier := by
  intro m panel bar before later run events done ahead
  have hopen : (run before).tracker.loop.isOpen = true := by decide +kernel
  have closed : (run events).tracker.loop.isOpen = false := by decide +kernel
  have peaceful : ∀ m ∈ TrackerEvent.moves before, m.shutsDown = false := by
    simp [before, TrackerEvent.moves, panel, bar, TrackerEvent.move?, Move.shutsDown]
  have acts : (run events).acts = done ++ .handle 0 m .stop :: ahead := by decide +kernel
  obtain ⟨reports, -, inTime, late, drained, batches⟩ :=
    panel_reports_mirror_openings Recorder.sink 500 [] Recorder.new events
  refine ⟨hopen, peaceful, closed, acts, ?_, by decide +kernel, ?_, ?_⟩
  · -- nothing waits, so what was handled is just what came in time
    have all := inTime before _ rfl hopen peaceful
    have only := late before 0 later rfl hopen
    rw [drained closed, List.append_nil] at all only
    exact only.sublist.antisymm all.sublist
  · rw [reports, acts]
    rfl
  · exact batches done 0 m ahead acts

end OnScreen
