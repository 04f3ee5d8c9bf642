import OnScreen.Proofs.Confluence
import OnScreen.Proofs.EndToEnd
import OnScreen.Proofs.SinkFailures

namespace OnScreen

/-!
# Letting everything run

A client that waits lets everything run that can: first the owner, then the delivery, then the end
of an owner that has left.  This is one order of the moves that owner and delivery make by
themselves, and it goes on until nobody can move any more.

* `Tracker.runsTo_pass` — letting time pass.
* `Delivery.isIdle_settle`, `Tracker.rests_runOwner` — nobody is left who could move.
* `Tracker.endStep_settle` — and the owner does not wait for its end.
-/

variable {σ : Type}

/-! ### The delivery comes to rest -/

namespace Delivery

/-- Every step leaves less work. -/
theorem work_step {sink : Sink σ} {s s' : σ} {d d' : Delivery}
    (h : d.step sink s = some (s', d')) : d'.work < d.work := by
  rw [step_eq] at h
  obtain ⟨queue, inHand, stats, reached, crashed⟩ := d
  cases inHand with
  | cons c rest =>
    rcases answer : sink.offer s c with ⟨s'', reply⟩
    simp only [answer] at h
    cases reply with
    | waiting => cases h
    | accepted | refused | crashed =>
      -- the call is out of hand, and a crash leaves nothing at all
      cases h
      simp only [work, List.length_cons, List.length_nil, List.foldr_nil]
      omega
  | nil =>
    cases queue with
    | nil => cases h
    | cons p queue =>
      cases p with
      | report r =>
        -- unpacking is worth one step, and the calls of the report were counted with it
        cases h
        simp only [work, List.length_nil, List.foldr_cons, Parcel.work]
        omega
      | fence ticket =>
        cases h
        simp only [work, List.length_nil, List.foldr_cons, Parcel.work]
        omega

/-- Before a sink that answers at once there is always a step until nothing is left. -/
theorem isIdle_of_step_eq_none {sink : Sink σ} (prompt : sink.Prompt) {s : σ} {d : Delivery}
    (h : d.step sink s = none) : d.isIdle = true := by
  rcases step_eq_none_iff.1 h with ⟨hand, queue⟩ | ⟨c, rest, -, waiting⟩
  · exact isIdle_iff.2 ⟨queue, hand⟩
  · exact absurd waiting (prompt s c).1

/-- With as many steps as there is work, nothing is left. -/
theorem isIdle_run {sink : Sink σ} (prompt : sink.Prompt) {n : Nat} {s : σ} {d : Delivery}
    (enough : d.work ≤ n) : (d.run sink n s).2.isIdle = true := by
  induction n generalizing s d with
  | zero =>
    show d.isIdle = true
    -- without work left there is no step, since a step takes some
    cases step : d.step sink s with
    | none => exact isIdle_of_step_eq_none prompt step
    | some after =>
      have less := work_step step
      omega
  | succ n ih =>
    unfold run
    split
    · next s' d' step =>
      have less := work_step step
      exact ih (by omega)
    · next stuck => exact isIdle_of_step_eq_none prompt stuck

/-- Letting a delivery run leaves nothing to deliver. -/
theorem isIdle_settle {sink : Sink σ} (prompt : sink.Prompt) (s : σ) (d : Delivery) :
    (d.settle sink s).2.isIdle = true :=
  isIdle_run prompt (Nat.le_refl _)

end Delivery

/-! ### The owner comes to rest -/

/-- Where the branch that is preferred leads nowhere, none does. -/
theorem Loop.rests_of_preferred {l : Loop} {r : Readings} (h : l.step l.preferred r = none) :
    l.Rests r.checked := by
  have stuck : l.isReady r.checked l.preferred = false := by
    rw [← l.isSome_step l.preferred r, h]
    rfl
  intro branch
  obtain ⟨owner, inbox, phase, abandoned⟩ := l
  cases phase with
  | closing ticket | ended => rfl
  | checking => cases stuck
  | parked =>
    cases busy : !inbox.isEmpty || abandoned with
    | true =>
      -- a command, or the end of all clients, would have been a step
      have command : preferred ⟨owner, inbox, .parked, abandoned⟩ = .command := by
        cases inbox <;> cases abandoned <;> first | rfl | cases busy
      rw [command] at stuck
      exact absurd (busy.symm.trans stuck) nofun
    | false =>
      have deadline : preferred ⟨owner, inbox, .parked, abandoned⟩ = .deadline := by
        cases inbox <;> cases abandoned <;> first | rfl | cases busy
      rw [deadline] at stuck
      cases branch with
      | command => exact busy
      | deadline => exact stuck

namespace Tracker

/-- What the owner says changes neither clock nor list, and takes no ticket. -/
theorem foldl_emit_same (t : Tracker σ) (out : List Output) :
    (out.foldl emit t).clock = t.clock ∧ (out.foldl emit t).candidates = t.candidates ∧
      (out.foldl emit t).nextTicket = t.nextTicket := by
  induction out generalizing t with
  | nil => exact ⟨rfl, rfl, rfl⟩
  | cons word rest ih =>
    have same : (t.emit word).clock = t.clock ∧ (t.emit word).candidates = t.candidates ∧
        (t.emit word).nextTicket = t.nextTicket := by
      cases word <;> exact ⟨rfl, rfl, rfl⟩
    obtain ⟨clock, candidates, ticket⟩ := ih (t.emit word)
    exact ⟨clock.trans same.1, candidates.trans same.2.1, ticket.trans same.2.2⟩

/-- Nor does a turn. -/
theorem turn_same {t after : Tracker σ} {branch : Branch} {r : Readings}
    (h : t.turn branch r = some after) :
    after.clock = t.clock ∧ after.candidates = t.candidates ∧ after.nextTicket = t.nextTicket := by
  obtain ⟨⟨loop, out⟩, -, rfl⟩ := Option.map_eq_some_iff.1 h
  exact foldl_emit_same { t with loop := loop } out

/-- A turn of the tracker is a step of its loop. -/
theorem turn_step {t after : Tracker σ} {branch : Branch} {r : Readings}
    (h : t.turn branch r = some after) : ∃ out, t.loop.step branch r = some (after.loop, out) := by
  obtain ⟨⟨loop, out⟩, step, rfl⟩ := Option.map_eq_some_iff.1 h
  refine ⟨out, ?_⟩
  rw [(foldl_emit { t with loop := loop } out).1]
  exact step

/-- Turns take no time. -/
theorem runOwner_clock (n : Nat) (t : Tracker σ) : (t.runOwner n).clock = t.clock := by
  induction n generalizing t with
  | zero => rfl
  | succ n ih =>
    unfold runOwner
    split
    · next after step => exact (ih after).trans (turn_same step).1
    · rfl

/-- Nor does the end take time or a ticket. -/
theorem endStep_same (t : Tracker σ) :
    (t.endStep.getD t).clock = t.clock ∧ (t.endStep.getD t).candidates = t.candidates ∧
      (t.endStep.getD t).nextTicket = t.nextTicket := by
  cases step : t.endStep with
  | none => exact ⟨rfl, rfl, rfl⟩
  | some after =>
    obtain ⟨ticket, -, -, rfl⟩ := endStep_eq_some step
    exact ⟨rfl, rfl, rfl⟩

/-- Letting everything run takes no time. -/
theorem settle_clock (sink : Sink σ) (t : Tracker σ) : (t.settle sink).clock = t.clock :=
  (endStep_same _).1.trans (runOwner_clock _ t)

/-- With enough steps the owner comes to rest. -/
theorem rests_runOwner {n : Nat} {t : Tracker σ} (enough : t.loop.stepsLeft t.clock ≤ n) :
    (t.runOwner n).loop.Rests t.clock := by
  -- if the branch it prefers has no step, none has
  have stuck : ∀ {t : Tracker σ}, t.ownerStep t.loop.preferred = none →
      t.loop.Rests t.clock := fun {t} none =>
    Loop.rests_of_preferred (r := .still t.clock t.candidates) (Option.map_eq_none_iff.1 none)
  induction n generalizing t with
  | zero =>
    show t.loop.Rests t.clock
    cases step : t.ownerStep t.loop.preferred with
    | none => exact stuck step
    | some after =>
      obtain ⟨out, step⟩ := turn_step step
      have less := Loop.stepsLeft_of_step step
      exact absurd (Nat.lt_of_lt_of_le less enough) (Nat.not_lt_zero _)
  | succ n ih =>
    unfold runOwner
    split
    · next after step =>
      obtain ⟨out, turned⟩ := turn_step step
      have less : after.loop.stepsLeft t.clock < t.loop.stepsLeft t.clock :=
        Loop.stepsLeft_of_step turned
      have same : after.clock = t.clock := (turn_same step).1
      have rests := @ih after (by rw [same]; omega)
      rwa [same] at rests
    · next none => exact stuck none

/-! ### Moves that nobody asks for -/

variable (sink : Sink σ)

/-- Time may pass. -/
theorem runsTo_clock {t : Tracker σ} {now : Instant} (later : t.clock ≤ now) :
    t.RunsTo sink { t with clock := now } := by
  have moved : t.moved sink (.elapsed (now - t.clock)) = { t with clock := now } := by
    rw [moved, Nat.add_sub_cancel' later]
  exact moved ▸ (OwnMove.elapsed _).runsTo sink

/-- So may it with a stop at a deadline on the way. -/
theorem runsTo_elapse {t : Tracker σ} {finish : Instant} (later : t.clock ≤ finish) :
    t.RunsTo sink (t.elapse sink finish) := by
  unfold elapse
  cases t.loop.owner.schedule.pending with
  | none => exact runsTo_clock sink later
  | some due =>
    simp only
    split
    · -- the deadline lies on the way: up to it, whatever is due there, and on
      next stop =>
      have stopped : (settle sink { t with clock := due }).clock ≤ finish := by
        rw [settle_clock]
        exact stop.2.1
      exact ((runsTo_clock sink (Nat.le_of_lt stop.1)).trans (runsTo_settle sink _)).trans
        (runsTo_clock sink stopped)
    · exact runsTo_clock sink later

/-- Letting time pass is a way of moving. -/
theorem runsTo_pass (t : Tracker σ) (ms : Nat) : t.RunsTo sink (t.pass sink ms) := by
  have later : (t.settle sink).clock ≤ t.clock + ms := by
    rw [settle_clock]
    exact Nat.le_add_right _ _
  exact (runsTo_settle sink t).trans (runsTo_elapse sink later)

variable {sink}

/-- Moves take no tickets; only clients do. -/
theorem moved_nextTicket (t : Tracker σ) (m : Move) :
    (t.moved sink m).nextTicket = t.nextTicket := by
  cases m with
  | signalled s => rw [moved, signal_eq]
  | requested c free => rw [moved, send_eq]
  | abandoned | listed | elapsed => rfl
  | turned branch r =>
    -- the owner answers requests, and makes none
    simp only [moved]
    cases step : t.turn branch r with
    | none => rfl
    | some after => exact (turn_same step).2.2
  | delivered =>
    simp only [moved, deliveryStep]
    cases t.delivery.step sink t.sink <;> rfl
  | ended => exact t.endStep_same.2.2

/-- Only clients replace the list. -/
theorem moved_candidates (t : Tracker σ) {m : Move} (other : ∀ items, m ≠ .listed items) :
    (t.moved sink m).candidates = t.candidates := by
  cases m with
  | listed items => exact absurd rfl (other items)
  | signalled s => rw [moved, signal_eq]
  | requested c free => rw [moved, send_eq]
  | abandoned | elapsed => rfl
  | turned branch r =>
    -- only the client replaces the list
    simp only [moved]
    cases step : t.turn branch r with
    | none => rfl
    | some after => exact (turn_same step).2.1
  | delivered =>
    simp only [moved, deliveryStep]
    cases t.delivery.step sink t.sink <;> rfl
  | ended => exact t.endStep_same.2.1

/-- Moves that nobody asks for replace no list. -/
theorem OwnMove.candidates {t : Tracker σ} {m : Move} (h : t.OwnMove m) :
    (t.moved sink m).candidates = t.candidates := by
  refine t.moved_candidates fun items => ?_
  cases h <;> exact nofun

/-- Nor do they take a ticket. -/
theorem RunsTo.nextTicket {t after : Tracker σ} (h : t.RunsTo sink after) :
    after.nextTicket = t.nextTicket := by
  induction h with
  | refl => rfl
  | tail _ step ih =>
    obtain ⟨m, -, rfl⟩ := step
    exact (moved_nextTicket _ m).trans ih

/-! ### Nobody can move any more -/

/-- An owner that can do nothing but end has ended afterwards, or does not wait for its end. -/
theorem rests_endStep {t : Tracker σ} {now : Instant} (rests : t.loop.Rests now)
    (idle : t.delivery.isIdle = true) :
    (t.endStep.getD t).loop.Rests now ∧ (t.endStep.getD t).delivery.isIdle = true ∧
      (t.endStep.getD t).endStep = none := by
  cases step : t.endStep with
  | none => exact ⟨rests, idle, step⟩
  | some after =>
    obtain ⟨ticket, -, -, rfl⟩ := endStep_eq_some step
    exact ⟨fun branch => Loop.isReady_of_closed rfl now branch, idle, rfl⟩

/-- When everything has run, the owner rests, nothing is left to deliver, and the owner does not
    wait for its end. -/
theorem rests_settle (prompt : sink.Prompt) (t : Tracker σ) :
    (t.settle sink).loop.Rests t.clock ∧ (t.settle sink).delivery.isIdle = true ∧
      (t.settle sink).endStep = none :=
  rests_endStep (rests_runOwner (t.loop.stepsLeft_le_work t.clock))
    (Delivery.isIdle_settle prompt _ _)

end Tracker

end OnScreen
