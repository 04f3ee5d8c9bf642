import OnScreen.Proofs.TrackerRun

namespace OnScreen

/-!
# What comes behind the last command

Once a shutdown is queued, nothing behind it is handled; and a loop that nobody can send to any more
ends just as if a shutdown stood at the end of its queue.  So two trackers whose queues agree up to
the first shutdown, one of which may be abandoned instead, report the same and call the sink alike.

* `Loop.asAbandoned` — a loop with nothing but the commands in front of the first shutdown.
* `Loop.Sealed`, `Loop.EndInSight` — the loop will deal with no more than that.
* `Loop.step_asAbandoned` — its steps are then those of the loop that is abandoned.
* `TrackerRun.Alike`, `TrackerRun.alike_of_append` — two runs that differ in nothing else stay so.
-/

namespace Command

/-- The command makes the owner leave. -/
def shutsDown : Command → Bool
  | shutdown _ => true
  | possibleChange | start _ | stop | expansionChanged _ _ _ | entryRemoved _ | entryUpdated _
  | itemError _ _ | flush _ | query _ => false

/-- The commands in front of the first shutdown. -/
def inTime : List Command → List Command
  | [] => []
  | c :: rest => if c.shutsDown then [] else c :: inTime rest

/-- What stands behind a shutdown comes too late. -/
theorem inTime_append {commands : List Command} {ticket : Nat}
    (h : .shutdown ticket ∈ commands) (later : List Command) :
    inTime (commands ++ later) = inTime commands := by
  induction commands with
  | nil => cases h
  | cons c rest ih =>
    cases last : c.shutsDown with
    | true => simp [inTime, last]
    | false =>
      -- the shutdown is not the first command, so it is one of the others
      have behind : .shutdown ticket ∈ rest := by
        rcases List.mem_cons.1 h with rfl | behind
        · cases last
        · exact behind
      simp [inTime, last, ih behind]

/-- A shutdown at the end takes nothing away. -/
theorem inTime_append_shutdown (commands : List Command) (ticket : Nat) :
    inTime (commands ++ [shutdown ticket]) = inTime commands := by
  induction commands with
  | nil => rfl
  | cons c rest ih => simp [inTime, ih]

end Command

namespace Phase

/-- A phase without the name of the one who waits for the end. -/
def unnamed : Phase → Phase
  | closing _ => closing none
  | p => p

/-- Whoever asked for the end, the owner waits for it alike. -/
@[simp] theorem isClosing_unnamed (p : Phase) : p.unnamed.isClosing = p.isClosing := by
  cases p <;> rfl

end Phase

namespace Loop

variable {l next : Loop}

/-- The loop as if its clients had gone away instead of asking for the end. -/
def asAbandoned (l : Loop) : Loop where
  owner := l.owner
  inbox := Command.inTime l.inbox
  phase := l.phase.unnamed
  abandoned := true

/-- A shutdown is queued, unless it is too late for one. -/
def Sealed (l : Loop) : Prop := l.isOpen = true → ∃ ticket, .shutdown ticket ∈ l.inbox

/-- The loop will deal with no more than what is in its queue. -/
def EndInSight (l : Loop) : Prop := l.abandoned = true ∨ l.Sealed

/-- A loop that takes no more commands needs no shutdown any more. -/
theorem sealed_of_closed (closed : l.isOpen = false) : l.Sealed := by
  intro hopen
  rw [closed] at hopen
  cases hopen

/-- A shutdown that is offered seals the loop, now or because it was left before. -/
theorem sealed_offered_shutdown (l : Loop) (ticket : Nat) :
    (l.offered (.shutdown ticket)).Sealed := by
  cases hopen : l.isOpen with
  | true =>
    rw [offered_of_open hopen]
    exact fun _ => ⟨ticket, by simp⟩
  | false => exact sealed_of_closed (by rw [offered_isOpen, hopen])

/-- Whatever is offered to a sealed loop comes too late. -/
theorem asAbandoned_offered (h : l.Sealed) (c : Command) :
    (l.offered c).asAbandoned = l.asAbandoned := by
  cases hopen : l.isOpen with
  | true =>
    obtain ⟨ticket, queued⟩ := h hopen
    rw [offered_of_open hopen, asAbandoned, Command.inTime_append queued]
    rfl
  | false => rw [offered_of_closed hopen]

/-- A shutdown that is offered stands for the clients that have gone away. -/
theorem asAbandoned_offered_shutdown (l : Loop) (ticket : Nat) :
    (l.offered (.shutdown ticket)).asAbandoned = l.asAbandoned := by
  cases hopen : l.isOpen with
  | true =>
    rw [offered_of_open hopen, asAbandoned, Command.inTime_append_shutdown]
    rfl
  | false => rw [offered_of_closed hopen]

/-! ### Steps -/

/-- A step does not make clients go away. -/
theorem step_abandoned {branch : Branch} {r : Readings} {out : List Output}
    (h : l.step branch r = some (next, out)) : next.abandoned = l.abandoned := by
  obtain ⟨owner, inbox, phase, abandoned⟩ := l
  cases phase with
  | checking =>
    -- no step of the loop looks who is left
    simp only [step] at h
    split at h <;> cases h <;> rfl
  | parked =>
    cases branch with
    | deadline =>
      simp only [step] at h
      split at h <;> cases h
      rfl
    | command =>
      cases inbox with
      | cons c rest => cases c <;> cases h <;> rfl
      | nil =>
        simp only [step] at h
        split at h <;> cases h
        rfl
  | closing ticket => cases h
  | ended => cases h

/-- With the end in sight, the loop makes the steps that it would make if it were abandoned. -/
theorem step_asAbandoned (h : l.EndInSight) (branch : Branch) (r : Readings) :
    l.asAbandoned.step branch r =
      (l.step branch r).map fun (next, out) => (next.asAbandoned, out) := by
  obtain ⟨owner, inbox, phase, abandoned⟩ := l
  cases phase with
  | checking =>
    cases due : owner.schedule.isDue r.checked <;> simp [asAbandoned, step, due] <;> rfl
  | parked =>
    cases branch with
    | deadline =>
      cases due : owner.schedule.isDue r.checked <;> simp [asAbandoned, step, due] <;> rfl
    | command =>
      cases inbox with
      | cons c rest =>
        cases c <;> rfl
      | nil =>
        -- nothing is queued, so the end is in sight because nobody is left
        have gone : abandoned = true := by
          rcases h with gone | queued
          · exact gone
          · obtain ⟨ticket, queued⟩ := queued rfl
            cases queued
        simp only [asAbandoned, Phase.unnamed, step, Command.inTime, gone]
        rfl
  | closing ticket => rfl
  | ended => rfl

/-- The shutdown in the queue stays there until the owner leaves. -/
theorem Sealed.step (h : l.Sealed) {branch : Branch} {r : Readings} {out : List Output}
    (step : l.step branch r = some (next, out)) : next.Sealed := by
  obtain ⟨ticket, queued⟩ := h (isOpen_of_step step)
  cases step_serves step with
  | nobody stays inbox => exact fun _ => ⟨ticket, inbox ▸ queued⟩
  | first stays other inbox =>
    rw [inbox] at queued
    refine fun _ => ⟨ticket, (List.mem_cons.1 queued).resolve_left fun same => ?_⟩
    exact other ticket same.symm
  | leaves phase => exact sealed_of_closed (by rw [isOpen, phase])

/-- A step does not put the end out of sight. -/
theorem endInSight_step (h : l.EndInSight) {branch : Branch} {r : Readings} {out : List Output}
    (step : l.step branch r = some (next, out)) : next.EndInSight := by
  rcases h with gone | isSealed
  · exact .inl (step_abandoned step ▸ gone)
  · exact .inr (isSealed.step step)

/-- What is offered later takes no shutdown out of the queue. -/
theorem Sealed.offered (h : l.Sealed) (c : Command) : (l.offered c).Sealed := by
  cases hopen : l.isOpen with
  | true =>
    obtain ⟨ticket, queued⟩ := h hopen
    rw [offered_of_open hopen]
    exact fun _ => ⟨ticket, List.mem_append_left _ queued⟩
  | false => rwa [offered_of_closed hopen]

/-- Nor does it put the end out of sight. -/
theorem EndInSight.offered (h : l.EndInSight) (c : Command) : (l.offered c).EndInSight := by
  rcases h with gone | isSealed
  · exact .inl ((l.offered_abandoned c).trans gone)
  · exact .inr (isSealed.offered c)

end Loop

namespace Run

variable {run : Run}

/-- A run stays sealed whatever happens. -/
theorem next_sealed (h : run.loop.Sealed) (e : Event) : (run.next e).loop.Sealed := by
  cases e with
  | sent c =>
    rw [next_sent]
    exact h.offered c
  | abandoned => exact h
  | turned branch r =>
    simp only [next]
    cases step : run.loop.step branch r with
    | none => exact h
    | some result => exact h.step step
  | delivered =>
    -- the end of a closed loop leaves it closed
    simp only [next]
    split
    · exact Loop.sealed_of_closed rfl
    all_goals exact h

/-- And its end stays in sight. -/
theorem next_endInSight (h : run.loop.EndInSight) (e : Event) : (run.next e).loop.EndInSight := by
  cases e with
  | sent c =>
    rw [next_sent]
    exact h.offered c
  | abandoned => exact .inl rfl
  | turned branch r =>
    simp only [next]
    cases step : run.loop.step branch r with
    | none => exact h
    | some result => exact Loop.endInSight_step h step
  | delivered =>
    simp only [next]
    split
    · exact .inr (Loop.sealed_of_closed rfl)
    all_goals exact h

/-- With the end in sight for both of them, two loops that do the same when they are abandoned
    go through the same, unless somebody sends a command to one of them. -/
theorem next_alike {a b : Run} (same : a.loop.asAbandoned = b.loop.asAbandoned)
    (ea : a.loop.EndInSight) (eb : b.loop.EndInSight) {e : Event} (own : ∀ c, e ≠ .sent c) :
    (a.next e).loop.asAbandoned = (b.next e).loop.asAbandoned ∧ a.tells e = b.tells e := by
  cases e with
  | sent c => exact absurd rfl (own c)
  | abandoned => exact ⟨same, rfl⟩
  | turned branch r =>
    -- both loops take the same step, or none
    have steps := Loop.step_asAbandoned ea branch r
    rw [same, Loop.step_asAbandoned eb branch r] at steps
    simp only [next, tells]
    cases stepA : a.loop.step branch r with
    | none =>
      rw [stepA, Option.map_none, Option.map_eq_none_iff] at steps
      rw [steps]
      exact ⟨same, rfl⟩
    | some resultA =>
      rw [stepA, Option.map_some, Option.map_eq_some_iff] at steps
      obtain ⟨resultB, stepB, results⟩ := steps
      rw [stepB]
      exact ⟨(congrArg Prod.fst results).symm, (congrArg Prod.snd results).symm⟩
  | delivered =>
    -- an end that comes does not depend on who is left, nor on who waits for it
    have ends : ∀ run : Run, (run.next .delivered).loop.asAbandoned =
        if run.loop.asAbandoned.phase.isClosing then
          { run.loop.asAbandoned with phase := .ended }
        else run.loop.asAbandoned := by
      intro run
      simp only [next, Loop.asAbandoned, Phase.isClosing_unnamed]
      split
      · next phase => simp [phase, Phase.isClosing, Phase.unnamed]
      all_goals next phase => simp [phase, Phase.isClosing]
    rw [ends a, ends b, same]
    exact ⟨rfl, rfl⟩

end Run

/-! ### Two runs -/

variable {σ : Type}

/-- A client sends a command, or sets a signal from which one may follow. -/
def TrackerEvent.isSent : TrackerEvent σ → Bool
  | .moved (.signalled _) | .moved (.requested _ _) => true
  | .moved .abandoned | .moved (.listed _) | .moved (.elapsed _) | .moved (.turned _ _)
  | .moved .delivered | .moved .ended | .sinkChanged _ => false

namespace TrackerRun

/-- No event opens a queue that is closed for good. -/
theorem next_sealed {run : TrackerRun σ} (h : run.front.loop.Sealed) (sink : Sink σ)
    (e : TrackerEvent σ) : (run.next sink e).front.loop.Sealed := by
  have adds := next_adds sink run e
  generalize run.next sink e = after at adds ⊢
  cases adds with
  | front t e => exact Run.next_sealed h e
  | turned | sinkChanged | nothing => exact h

/-- Once the end is in sight, no event loses sight of it. -/
theorem next_endInSight {run : TrackerRun σ} (h : run.front.loop.EndInSight) (sink : Sink σ)
    (e : TrackerEvent σ) : (run.next sink e).front.loop.EndInSight := by
  have adds := next_adds sink run e
  generalize run.next sink e = after at adds ⊢
  cases adds with
  | front t e => exact Run.next_endInSight h e
  | turned | sinkChanged | nothing => exact h

/-- Two runs that differ only in what is queued behind a shutdown, or in a shutdown that stands for
    clients that have gone away. -/
structure Alike (a b : TrackerRun σ) : Prop where
  loop : a.front.loop.asAbandoned = b.front.loop.asAbandoned
  said : a.front.said = b.front.said
  back : a.back = b.back

variable {a b : TrackerRun σ} {sink : Sink σ}

/-- What a client sends comes too late for a sealed loop. -/
theorem Alike.sent (h : Alike a b) (late : a.front.loop.Sealed) {e : TrackerEvent σ}
    (sent : e.isSent = true) : Alike (a.next sink e) b := by
  -- a command behind the last one in time changes nothing that is compared
  have offered : ∀ c t, Alike
      { a with tracker := t, taken := a.taken ++ a.front.takes (.sent c)
               front := a.front.next (.sent c) } b := by
    intro c t
    rw [Run.next_sent]
    exact ⟨(Loop.asAbandoned_offered late c).trans h.loop, h.said, h.back⟩
  cases e with
  | sinkChanged change => cases sent
  | moved m =>
    cases m with
    | signalled s =>
      show Alike { a.recorded sink (.signalled s) with tracker := (a.tracker.signal s).1 } b
      rw [recorded_signalled]
      cases (a.tracker.gate.answer s).bind Tracker.commandFor with
      | none => exact ⟨h.loop, h.said, h.back⟩
      | some c => exact offered c _
    | requested c free => exact offered c _
    | _ => cases sent

/-- Both of them end at the same time. -/
theorem Alike.isSome_endStep (h : Alike a b) (fa : a.Faithful) (fb : b.Faithful) :
    a.tracker.endStep.isSome = b.tracker.endStep.isSome := by
  have phase : a.front.loop.phase.isClosing = b.front.loop.phase.isClosing := by
    rw [← Phase.isClosing_unnamed, ← Phase.isClosing_unnamed b.front.loop.phase]
    exact congrArg (fun l => l.phase.isClosing) h.loop
  rw [Tracker.isSome_endStep, Tracker.isSome_endStep, fa.loop, fb.loop, fa.delivery, fb.delivery,
    phase, h.back]

/-- Everything else happens to both of them. -/
theorem Alike.next (h : Alike a b) (fa : a.Faithful) (fb : b.Faithful)
    (ea : a.front.loop.EndInSight) (eb : b.front.loop.EndInSight) {e : TrackerEvent σ}
    (own : e.isSent = false) : Alike (a.next sink e) (b.next sink e) := by
  cases e with
  | sinkChanged change =>
    have sinks : a.tracker.sink = b.tracker.sink := by rw [fa.sink, fb.sink, h.back]
    refine ⟨h.loop, h.said, ?_⟩
    show a.back.next sink (.sinkChanged (change a.tracker.sink.1)) =
      b.back.next sink (.sinkChanged (change b.tracker.sink.1))
    rw [sinks, h.back]
  | moved m =>
    -- the gates may differ, but a signal is something that a client sends
    have events : a.tracker.loopEvent m = b.tracker.loopEvent m ∧
        ∀ c, a.tracker.loopEvent m ≠ some (.sent c) := by
      cases m with
      | signalled | requested => cases own
      | ended =>
        simp only [Tracker.loopEvent, h.isSome_endStep fa fb]
        refine ⟨trivial, fun c => ?_⟩
        split <;> simp
      | _ => exact ⟨rfl, fun c => by simp [Tracker.loopEvent]⟩
    have recorded : Alike (a.recorded sink m) (b.recorded sink m) := by
      cases event : a.tracker.loopEvent m with
      | some e =>
        have own : ∀ c, e ≠ .sent c := fun c same => events.2 c (same ▸ event)
        obtain ⟨loop, tells⟩ := Run.next_alike h.loop ea eb own
        rw [recorded_of_event event, recorded_of_event (events.1 ▸ event)]
        refine ⟨loop, ?_, ?_⟩
        · rw [Run.next_said, Run.next_said, h.said, tells]
        · rw [tells, h.back]
      | none =>
        have eventB : b.tracker.loopEvent m = none := events.1 ▸ event
        simp only [TrackerRun.recorded, event, eventB]
        split
        · exact ⟨h.loop, h.said, congrArg (DeliveryRun.next sink · .turned) h.back⟩
        · exact h
    exact ⟨recorded.loop, recorded.said, recorded.back⟩

section

variable (interval : Nat) (candidates : List Candidate) (s : σ)
  {events others : List (TrackerEvent σ)}

/-- A run that is sealed stays so however it goes on. -/
theorem sealed_of_append (h : (of sink interval candidates s events).front.loop.Sealed)
    (later : List (TrackerEvent σ)) :
    (of sink interval candidates s (events ++ later)).front.loop.Sealed := by
  rw [of_append]
  exact List.foldlRecOn (motive := fun run : TrackerRun σ => run.front.loop.Sealed) later _ h
    fun _ h e _ => next_sealed h sink e

/-- And an end that is in sight stays in sight. -/
theorem endInSight_of_append (h : (of sink interval candidates s events).front.loop.EndInSight)
    (later : List (TrackerEvent σ)) :
    (of sink interval candidates s (events ++ later)).front.loop.EndInSight := by
  rw [of_append]
  exact List.foldlRecOn (motive := fun run : TrackerRun σ => run.front.loop.EndInSight) later _ h
    fun _ h e _ => next_endInSight h sink e

/-- Two runs with the end in sight stay alike when one of them goes on without what the clients
    send: they may send only to a loop that is sealed. -/
theorem alike_of_append
    (h : Alike (of sink interval candidates s events) (of sink interval candidates s others))
    (ea : (of sink interval candidates s events).front.loop.EndInSight)
    (eb : (of sink interval candidates s others).front.loop.EndInSight)
    (later : List (TrackerEvent σ))
    (late : (of sink interval candidates s events).front.loop.Sealed ∨
      ∀ e ∈ later, e.isSent = false) :
    Alike (of sink interval candidates s (events ++ later))
      (of sink interval candidates s (others ++ later.filter fun e => !e.isSent)) := by
  induction later using List.reverseRecOn with
  | nil => simpa using h
  | append_singleton later e ih =>
    have before : Alike (of sink interval candidates s (events ++ later))
        (of sink interval candidates s (others ++ later.filter fun e => !e.isSent)) :=
      ih (late.imp_right fun own e he => own e (List.mem_append_left _ he))
    rw [List.filter_append, ← List.append_assoc, ← List.append_assoc, of_append_singleton]
    cases sent : e.isSent with
    | true =>
      -- what is sent goes to a sealed queue, and the other run leaves it out
      have isSealed : (of sink interval candidates s events).front.loop.Sealed := by
        refine late.resolve_right fun own => ?_
        have quiet := own e (by simp)
        rw [sent] at quiet
        cases quiet
      have none : [e].filter (fun e => !e.isSent) = [] := by simp [sent]
      rw [none, List.append_nil]
      exact before.sent (sealed_of_append interval candidates s isSealed later) sent
    | false =>
      -- all else happens in both runs
      have one : [e].filter (fun e => !e.isSent) = [e] := by simp [sent]
      rw [one, of_append_singleton]
      exact before.next (faithful_of ..) (faithful_of ..)
        (endInSight_of_append interval candidates s ea later)
        (endInSight_of_append interval candidates s eb _) sent

end

end TrackerRun

end OnScreen
