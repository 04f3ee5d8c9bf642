import OnScreen.Proofs.EndToEnd

namespace OnScreen

/-!
# Runs whose clients stay

As long as the clients are there the owner leaves for one reason only, a shutdown that was asked
for. Whoever waits for something that the owner knows of is never told that the tracker is closed.

* `Run.Kept` — the owner was not abandoned, and has not left for want of clients.
* `TrackerRun.tick_moved` — a tick reads the list that its move reads.
* `TrackerRun.Lawful.shutdown_of_closed` — commands are taken until a shutdown was dealt with.
* `TrackerRun.Lawful.told_ne_error` — a request that is known does not get lost.
-/

/-! ### The owner and its clients -/

namespace Loop

/-- A loop that is not abandoned is left because of a shutdown only. -/
theorem leave_none_not_mem_acts {l : Loop} (h : l.abandoned = false) (branch : Branch)
    (r : Readings) (checked : Instant) : .leave checked none ∉ l.acts branch r := by
  have tick := l.owner.leave_not_mem_dueTick r checked none
  unfold acts
  split
  · exact tick
  · split
    · next c _ _ =>
      rw [List.mem_append, List.mem_singleton, not_or]
      -- whoever leaves for a command was asked to
      refine ⟨tick, fun same => ?_⟩
      cases c <;> cases same
    · -- nobody asked, but somebody is left
      rw [h]
      exact List.not_mem_nil
  all_goals exact List.not_mem_nil

/-- A tick reads the list that its turn reads for it. -/
theorem eq_tick_of_mem_acts {l : Loop} {branch : Branch} {r : Readings} {checked : Instant}
    {m : Moment} (h : .tick checked m ∈ l.acts branch r) : m = r.tick := by
  -- a due tick reads the list of this step, and no other act is a tick
  have due : .tick checked m ∈ l.owner.dueTick r → m = r.tick := by
    intro mem
    unfold Owner.dueTick at mem
    split at mem
    · cases List.mem_singleton.1 mem
      rfl
    · cases mem
  unfold acts at h
  split at h
  · exact due h
  · split at h
    · next c _ _ =>
      rcases List.mem_append.1 h with tick | last
      · exact due tick
      · have same := List.mem_singleton.1 last
        cases c <;> cases same
    · split at h
      · rcases List.mem_append.1 h with tick | last
        · exact due tick
        · cases List.mem_singleton.1 last
      · cases h
  all_goals cases h

end Loop

namespace Run

/-- The clients are there, and the owner has not left for want of them. -/
structure Kept (run : Run) : Prop where
  stays : run.loop.abandoned = false
  asked : ∀ checked, .leave checked none ∉ run.acts

/-- What an event adds to the acts. -/
theorem acts_next (run : Run) (e : Event) :
    (run.next e).acts = run.acts ∨
      ∃ branch r, e = .turned branch r ∧ (run.next e).acts = run.acts ++ run.loop.acts branch r := by
  cases e with
  | turned branch r =>
    -- only a step of the loop adds acts
    simp only [next]
    cases run.loop.step branch r with
    | none => exact .inl rfl
    | some result => exact .inr ⟨branch, r, rfl, rfl⟩
  | abandoned => exact .inl rfl
  | sent c =>
    simp only [next]
    split <;> exact .inl rfl
  | delivered =>
    simp only [next]
    split <;> exact .inl rfl

/-- As long as the clients stay they are there. -/
theorem abandoned_next (run : Run) {e : Event} (stays : e ≠ .abandoned) :
    (run.next e).loop.abandoned = run.loop.abandoned := by
  cases e with
  | abandoned => exact absurd rfl stays
  | sent c =>
    rw [next_sent]
    exact run.loop.offered_abandoned c
  | turned branch r =>
    simp only [next]
    cases step : run.loop.step branch r with
    | none => rfl
    | some result => exact Loop.step_abandoned step
  | delivered =>
    simp only [next]
    split <;> rfl

/-- Nobody who stays loses a command. -/
theorem Kept.next {run : Run} (h : run.Kept) {e : Event} (stays : e ≠ .abandoned) :
    (run.next e).Kept := by
  refine ⟨(run.abandoned_next stays).trans h.stays, fun checked => ?_⟩
  rcases run.acts_next e with same | ⟨branch, r, -, grown⟩
  · rw [same]
    exact h.asked checked
  · rw [grown, List.mem_append, not_or]
    exact ⟨h.asked checked, Loop.leave_none_not_mem_acts h.stays branch r checked⟩

end Run

/-- A fence that is waited for is in the queue. -/
theorem DeliveryRun.Awaits.mem_queue {before : List Call} {queue : List Parcel}
    {fences : List (Nat × List Report)} (h : Awaits before queue fences) {ticket : Nat}
    (asked : ticket ∈ fences.map Prod.fst) : .fence ticket ∈ queue := by
  induction h with
  | nil => cases asked
  | report later ih => exact List.mem_cons_of_mem _ (ih asked)
  | fence calls later ih =>
    rcases List.mem_cons.1 asked with rfl | behind
    · exact List.mem_cons_self
    · exact List.mem_cons_of_mem _ (ih behind)

namespace TrackerRun

variable {σ : Type}

/-- Nor does a move of somebody who stays lose one. -/
theorem kept_moved {run : TrackerRun σ} (h : run.front.Kept) (sink : Sink σ) {m : Move}
    (stays : m ≠ .abandoned) : (run.next sink (.moved m)).front.Kept := by
  show (run.recorded sink m).front.Kept
  rw [recorded_front]
  cases event : run.tracker.loopEvent m with
  | none => exact h
  | some e =>
    refine h.next ?_
    rintro rfl
    -- only the move of that name is this to the loop
    cases m with
    | abandoned => exact stays rfl
    | signalled s =>
      obtain ⟨c, -, same⟩ := Option.map_eq_some_iff.1 event
      cases same
    | ended =>
      simp only [Tracker.loopEvent] at event
      split at event <;> cases event
    | _ => cases event

/-- A tick that a move adds reads the list that the move reads. -/
theorem tick_moved {run : TrackerRun σ} (sink : Sink σ) {m : Move} {checked : Instant}
    {moment : Moment}
    (h : .tick checked moment ∈ (run.next sink (.moved m)).acts) :
    .tick checked moment ∈ run.acts ∨ ∃ branch r, m = .turned branch r ∧ moment = r.tick := by
  have h : .tick checked moment ∈ (run.recorded sink m).front.acts := h
  rw [recorded_front] at h
  cases event : run.tracker.loopEvent m with
  | none =>
    rw [event] at h
    exact .inl h
  | some e =>
    rw [event] at h
    have h : .tick checked moment ∈ (run.front.next e).acts := h
    rcases run.front.acts_next e with same | ⟨branch, r, rfl, grown⟩
    · rw [same] at h
      exact .inl h
    · rw [grown, List.mem_append] at h
      refine h.imp_right fun new => ⟨branch, r, ?_, Loop.eq_tick_of_mem_acts new⟩
      cases m with
      | turned =>
        -- of the moves only a step of the owner is one of the loop
        cases event
        rfl
      | signalled s =>
        obtain ⟨c, -, same⟩ := Option.map_eq_some_iff.1 event
        cases same
      | ended =>
        simp only [Tracker.loopEvent] at event
        split at event <;> cases event
      | _ => cases event

/-- While commands are taken a request is taken too. -/
theorem taken_requested {run : TrackerRun σ} (h : run.Faithful)
    (taking : run.tracker.loop.isOpen = true) (sink : Sink σ) (q : AwaitedRequest) :
    (run.next sink (.requests q)).taken = run.taken ++ [q.command] := by
  rw [h.loop] at taking
  have taken := run.recorded_taken sink (.requested q.command q.command_free)
  rw [show run.added (.requested q.command q.command_free) = [q.command] from if_pos taking] at taken
  exact taken

/-- An owner that has ended stays away. -/
theorem ended_moved {run : TrackerRun σ} (h : run.front.loop.phase = .ended) (sink : Sink σ)
    (m : Move) : (run.next sink (.moved m)).front.loop.phase = .ended := by
  show (run.recorded sink m).front.loop.phase = .ended
  rw [recorded_front]
  cases run.tracker.loopEvent m with
  | none => exact h
  | some e => exact Run.next_ended h e

namespace Lawful

variable {interval : Nat} {run : TrackerRun σ}

/-- A lawful run stays lawful. -/
theorem moved (h : run.Lawful interval) {sink : Sink σ} (calm : sink.Calm) (m : Move) :
    (run.next sink (.moved m)).Lawful interval :=
  ⟨h.recorded.next sink _, h.faithful.moved h.recorded.served sink m,
    h.upright.next h.recorded.sound calm _⟩

/-- An owner that nobody has abandoned leaves only when it has dealt with a shutdown. -/
theorem shutdown_of_closed (h : run.Lawful interval) (kept : run.front.Kept)
    (closed : run.tracker.loop.isOpen = false) :
    ∃ ticket, .shutdown ticket ∈ Act.commands run.acts ∧ .shutdown ticket ∈ run.taken := by
  rw [h.faithful.loop] at closed
  obtain ⟨-, done, checked, ticket, last, -⟩ := h.recorded.served.left closed
  cases ticket with
  -- the loop was not left by clients that went away
  | none => exact absurd (last ▸ List.mem_append_right done List.mem_cons_self) (kept.asked checked)
  | some ticket =>
    have dealt : .shutdown ticket ∈ Act.commands run.front.acts := by
      rw [last, Act.commands_append]
      exact List.mem_append_right _ List.mem_cons_self
    exact ⟨ticket, dealt, h.recorded.served.begun.subset dealt⟩

/-- Whoever is asked for something that was dealt with has answered, or holds it still. -/
theorem holds_of_dealt (h : run.Lawful interval) {q : AwaitedRequest}
    (dealt : q.command ∈ Act.commands run.acts) :
    run.tracker.hasAnswered q = true ∨ run.tracker.holds q = true := by
  cases q with
  | flush ticket =>
    obtain ⟨answered, pending, asked, tickets, -, awaits⟩ := h.orderly.fences
    have listed := (h.mem_tickets_iff ticket).2 dealt
    rw [asked, List.map_append, tickets, List.mem_append] at listed
    refine listed.imp (fun reached => ?_) fun waiting => ?_
    · rw [← h.faithful.delivery] at reached
      exact List.contains_iff_mem.2 reached
    · have queued := awaits.mem_queue waiting
      rw [← h.faithful.delivery] at queued
      exact Bool.or_eq_true_iff.2 (.inr (List.contains_iff_mem.2 queued))
  | query ticket => exact .inl (List.contains_iff_mem.2 ((h.mem_statuses_iff ticket).2 dealt))
  | shutdown ticket =>
    obtain ⟨before, later, split⟩ := List.append_of_mem dealt
    obtain ⟨-, closed, done, checked, last⟩ := h.recorded.served.last before ticket later split
    obtain ⟨-, done', checked', asker, last', closing | ended⟩ := h.recorded.served.left closed
    · -- the owner waits for its end on behalf of whoever has asked for it
      have same := List.append_inj_right' (last.symm.trans last') rfl
      cases same
      rw [← h.faithful.loop] at closing
      exact .inr (Bool.or_eq_true_iff.2 (.inr (decide_eq_true closing)))
    · exact .inl (List.contains_iff_mem.2 ((h.faithful.ended ticket).2 ⟨ended, done, checked, last⟩))

/-- Nobody is told that the tracker is closed about a request that is queued or was dealt with. -/
theorem told_ne_error (h : run.Lawful interval) {q : AwaitedRequest}
    (known : q.command ∈ run.tracker.loop.inbox ∨ q.command ∈ Act.commands run.acts)
    (e : TrackerError) : run.tracker.told q ≠ some (.error e) := by
  -- the request was taken, so it is answered or still held
  have held : run.tracker.hasAnswered q = true ∨ run.tracker.holds q = true := by
    rcases known with queued | dealt
    · exact .inr (Bool.or_eq_true_iff.2 (.inl (List.contains_iff_mem.2 queued)))
    · exact h.holds_of_dealt dealt
  unfold Tracker.told
  split
  · simp
  · next unanswered =>
    rw [if_pos (held.resolve_left unanswered)]
    simp

end Lawful

end TrackerRun

end OnScreen
