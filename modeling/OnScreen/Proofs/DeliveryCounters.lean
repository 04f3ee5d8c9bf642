import OnScreen.Proofs.SinkFailures

namespace OnScreen

/-!
# The counters of a delivery balance

A delivery counts the reports that it accepts and the calls that return, those that succeed apart
from those that fail.  A report makes one call, and a batch that shows new items makes a second one;
so the two counts can be told from each other as soon as everything is delivered, and until then, or
after a crash, there are only fewer calls than there should be.

A count comes after what it counts, and anybody may be faster.  A report can be delivered, and its
calls counted, before the submit that queued it has got round to counting it; so for a while there
may be more calls than the reports counted so far make.  Here queueing a report and counting it are
two events, and so are the end of a call and its count; the balance has a term for each count that
is still to come.  What it says is about the three counters at one moment.

* `hasReturned`, `Report.marksShown` — the calls that count, and the reports that make two calls.
* `DeliveryRun.Counted` — the counters tell what became of the calls, where each is counted at once.
* `CountingRun` — a delivery that counts later, and what is still to be counted.
* `CountingRun.caughtUp_of` — once it has caught up, it has gone through a run that counts at once.
* `delivery_counters_balance` — the balance in every state of every run.
* `delivery_counters_lag_behind` — a run that makes a call before its report is counted.
-/

/-- The call was refused. -/
def wasRefused (attempt : Call × SinkReply) : Bool :=
  match attempt.2 with
  | .refused _ => true
  | .accepted | .waiting | .crashed => false

/-- The call returned, whatever the answer was. -/
def hasReturned (attempt : Call × SinkReply) : Bool :=
  match attempt.2 with
  | .accepted | .refused _ => true
  | .waiting | .crashed => false

/-- A call that returned was either accepted or refused. -/
theorem countP_hasReturned (log : List (Call × SinkReply)) :
    log.countP hasReturned = log.countP wasAccepted + log.countP wasRefused := by
  induction log with
  | nil => rfl
  | cons attempt rest ih =>
    obtain ⟨c, reply⟩ := attempt
    rw [List.countP_cons, List.countP_cons, List.countP_cons, ih]
    cases reply <;> simp [hasReturned, wasAccepted, wasRefused] <;> omega

/-- The report is a batch that shows new items, and marks them as shown afterwards. -/
def Report.marksShown : Report → Bool
  | visibility newly _ => !newly.isEmpty
  | expansion _ | panelShown _ _ | itemError _ _ => false

/-- Every report makes a call, and one that shows new items makes another. -/
theorem Report.length_calls (r : Report) : r.calls.length = 1 + r.marksShown.toNat := by
  cases r with
  | visibility newly noLonger => cases newly <;> rfl
  | expansion | panelShown | itemError => rfl

/-- Reports make as many calls as they are, and one more for each that shows new items. -/
theorem Report.length_flatMap_calls (reports : List Report) :
    (reports.flatMap calls).length = reports.length + reports.countP marksShown := by
  induction reports with
  | nil => rfl
  | cons r rest ih =>
    rw [List.flatMap_cons, List.length_append, ih, length_calls, List.length_cons, List.countP_cons]
    cases r.marksShown <;> simp <;> omega

namespace Delivery

variable (d : Delivery)

/-- A report that is accepted has made no call yet. -/
theorem delivered_submit (r : Report) : (d.submit r).1.stats.delivered = d.stats.delivered := by
  unfold submit send
  cases d.crashed <;> rfl

/-- Nor has any of its calls failed. -/
theorem failed_submit (r : Report) : (d.submit r).1.stats.failed = d.stats.failed := by
  unfold submit send
  cases d.crashed <;> rfl

/-- Fences are not counted. -/
theorem stats_fence (ticket : Nat) : (d.fence ticket).stats = d.stats := by
  unfold fence
  split <;> rfl

end Delivery

namespace DeliveryRun

variable {σ : Type} {sink : Sink σ} {run : DeliveryRun σ}

/-- The counters tell what became of the calls that came to an end, and none of these waits. -/
structure Counted (run : DeliveryRun σ) : Prop where
  delivered : run.delivery.stats.delivered = run.sink.2.countP wasAccepted
  failed : run.delivery.stats.failed = run.sink.2.countP wasRefused
  answered : ∀ attempt ∈ run.sink.2, attempt.2 ≠ .waiting

namespace Counted

/-- Whatever leaves the log and both counters alone is no matter. -/
theorem congr (h : run.Counted) {after : DeliveryRun σ} (log : after.sink.2 = run.sink.2)
    (delivered : after.delivery.stats.delivered = run.delivery.stats.delivered)
    (failed : after.delivery.stats.failed = run.delivery.stats.failed) : after.Counted where
  delivered := by rw [delivered, log, h.delivered]
  failed := by rw [failed, log, h.failed]
  answered := by rw [log]; exact h.answered

/-- The end of a call is counted as it was answered. -/
theorem append (h : run.Counted) {after : DeliveryRun σ} {c : Call} {reply : SinkReply}
    (log : after.sink.2 = run.sink.2 ++ [(c, reply)]) (ends : reply ≠ .waiting)
    (counted : after.delivery.stats = run.delivery.stats.count reply) : after.Counted := by
  refine ⟨?_, ?_, fun attempt among => ?_⟩
  · rw [counted, log, List.countP_append, ← h.delivered]
    cases reply <;> rfl
  · rw [counted, log, List.countP_append, ← h.failed]
    cases reply <;> rfl
  · rw [log, List.mem_append, List.mem_singleton] at among
    rcases among with old | rfl
    · exact h.answered attempt old
    · exact ends

/-- A turn counts the call that comes to its end, if one does. -/
theorem turned (h : run.Counted) (sink : Sink σ) : (run.next sink .turned).Counted := by
  cases hand : run.delivery.inHand with
  | nil =>
    have same := run.delivery.stats_unpacked
    rw [next_turned_of_free sink hand]
    exact h.congr rfl (congrArg _ same) (congrArg _ same)
  | cons c rest =>
    rcases answer : sink.offer run.sink.1 c with ⟨s, reply⟩
    simp only [DeliveryRun.next, Delivery.step_eq, hand, Sink.watched, answer]
    by_cases waits : reply = .waiting
    · -- a call that waits has not come to an end
      subst waits
      exact h
    · cases reply with
      | waiting => exact absurd rfl waits
      | accepted | refused | crashed => exact h.append rfl waits rfl

/-- Every event keeps the counters right. -/
theorem next (h : run.Counted) (sink : Sink σ) (e : DeliveryEvent σ) :
    (run.next sink e).Counted := by
  cases e with
  | submitted r => exact h.congr rfl (run.delivery.delivered_submit r) (run.delivery.failed_submit r)
  | fenced ticket =>
    have same := run.delivery.stats_fence ticket
    exact h.congr rfl (congrArg _ same) (congrArg _ same)
  | turned => exact h.turned sink
  | sinkChanged s => exact h.congr rfl rfl rfl

/-- The counters of every run are right. -/
theorem of (sink : Sink σ) (s : σ) (events : List (DeliveryEvent σ)) :
    (of sink s events).Counted :=
  List.foldlRecOn events _ ⟨rfl, rfl, nofun⟩ fun _ h e _ => h.next sink e

/-- All that returned is counted. -/
theorem delivered_add_failed (h : run.Counted) :
    run.delivery.stats.delivered + run.delivery.stats.failed = run.sink.2.countP hasReturned := by
  rw [h.delivered, h.failed, countP_hasReturned]

/-- As long as no call has crashed, every call that came to an end has returned. -/
theorem countP_eq_length (h : run.Counted) (whole : ¬run.Broken) :
    run.sink.2.countP hasReturned = run.ended.length := by
  rw [ended, List.length_map, List.countP_eq_length]
  rintro ⟨c, reply⟩ among
  cases reply with
  | accepted | refused => rfl
  | waiting => exact absurd rfl (h.answered _ among)
  | crashed => exact absurd ⟨c, among⟩ whole

end Counted

/-- The reports that were accepted make one call each, and one more for each that shows new items.
    -/
theorem length_due (run : DeliveryRun σ) :
    run.due.length = run.accepted.length + run.accepted.countP Report.marksShown :=
  Report.length_flatMap_calls run.accepted

/-- No more calls return than the accepted reports make. -/
theorem Sound.countP_hasReturned_le (h : run.Sound) :
    run.sink.2.countP hasReturned ≤
      run.accepted.length + run.accepted.countP Report.marksShown := by
  have made : run.ended.length ≤ run.due.length :=
    ((List.prefix_append _ _).trans h.inOrder).length_le
  calc run.sink.2.countP hasReturned
      ≤ run.sink.2.length := List.countP_le_length
    _ = run.ended.length := (List.length_map _).symm
    _ ≤ run.accepted.length + run.accepted.countP Report.marksShown := run.length_due ▸ made

/-- All of them have when nothing is in the queue or in hand, unless a call has crashed. -/
theorem Sound.countP_hasReturned_eq (h : run.Sound) (counted : run.Counted)
    (queue : run.delivery.queue = []) (hand : run.delivery.inHand = []) (whole : ¬run.Broken) :
    run.sink.2.countP hasReturned =
      run.accepted.length + run.accepted.countP Report.marksShown := by
  rw [counted.countP_eq_length whole, ((h.orderly whole).at_rest hand queue).1, length_due]

end DeliveryRun

/-! ### Counting later -/

/-- The counters once these are counted as well: a number of submits, and the result of a call. -/
def DeliveryStats.catchUp (stats : DeliveryStats) (submits : Nat) (result : Option Bool) :
    DeliveryStats where
  submitted := stats.submitted + submits
  delivered := stats.delivered + result.toList.count true
  failed := stats.failed + result.toList.count false

namespace Delivery

variable {σ : Type} {sink : Sink σ} {s : σ} {d : Delivery}

/-- A step that is not counted leaves the counters alone. -/
theorem stats_proceed {after : σ × Delivery × Option Bool} (h : d.proceed sink s = some after) :
    after.2.1.stats = d.stats := by
  unfold proceed at h
  split at h
  case h_1 c rest hand =>
    rcases answer : sink.offer s c with ⟨s', reply⟩
    rw [answer] at h
    cases reply <;> cases h <;> rfl
  case h_2 hand =>
    split at h <;> cases h <;> rfl

/-- Which step is made does not depend on the counters. -/
theorem proceed_of_stats (sink : Sink σ) (s : σ) (d : Delivery) (stats : DeliveryStats) :
    ({ d with stats := stats } : Delivery).proceed sink s =
      (d.proceed sink s).map fun after =>
        (after.1, { after.2.1 with stats := stats }, after.2.2) := by
  unfold proceed
  -- the counters are only carried along, whichever way the delivery goes
  cases d.inHand with
  | cons c rest =>
    rcases answer : sink.offer s c with ⟨s', reply⟩
    cases reply <;> simp [answer]
  | nil =>
    cases d.queue with
    | nil => rfl
    | cons p queue => cases p <;> rfl

/-- Counting a result is catching up with it. -/
theorem catchUp_record (d : Delivery) (submits : Nat) (result : Option Bool) :
    (d.record result).stats.catchUp submits none = d.stats.catchUp submits result := by
  cases result with
  | none => rfl
  | some ok => cases ok <;> rfl

end Delivery

/-- Something that happens to a delivery that counts later. -/
inductive CountingEvent (σ : Type) where
  /-- Someone who submits a report queues it. -/
  | sent (r : Report)
  /-- Someone whose report was queued counts it, and has submitted it. -/
  | counted
  | fenced (ticket : Nat)
  /-- The delivery gets a turn, and makes a step unless a result is still to be counted. -/
  | proceeded
  /-- The delivery counts the result of the call that returned. -/
  | recorded
  | sinkChanged (s : σ)

/-- A delivery that counts later.  A report is accepted when it is queued. -/
structure CountingRun (σ : Type) extends DeliveryRun σ where
  /-- The submits that were told that the report is accepted. -/
  returned : Nat
  /-- The submits that have queued their report and have not counted it. -/
  underWay : Nat
  /-- The result of the last call, as long as it is not counted. -/
  unrecorded : Option Bool

namespace CountingRun

variable {σ : Type}

/-- Nothing has happened. -/
def start (s : σ) : CountingRun σ := ⟨.start s, 0, 0, none⟩

/-- One event. -/
def next (sink : Sink σ) (run : CountingRun σ) : CountingEvent σ → CountingRun σ
  | .sent r =>
    match run.delivery.send r with
    | (d, true) =>
      { run with
          delivery := d
          accepted := run.accepted ++ [r]
          underWay := run.underWay + 1 }
    | (_, false) => run
  | .counted =>
    match run.underWay with
    | 0 => run
    | n + 1 =>
      { run with
          delivery := run.delivery.countSubmitted
          returned := run.returned + 1
          underWay := n }
  | .fenced ticket =>
    { run with
        delivery := run.delivery.fence ticket
        flushes := run.flushes ++ [(ticket, run.accepted)] }
  | .proceeded =>
    match run.unrecorded with
    | some _ => run
    | none =>
      match run.delivery.proceed sink.watched run.sink with
      | some (s, d, result) => { run with delivery := d, sink := s, unrecorded := result }
      | none => run
  | .recorded => { run with delivery := run.delivery.record run.unrecorded, unrecorded := none }
  | .sinkChanged s => { run with sink := (s, run.sink.2) }

/-- The run through some events, oldest first. -/
def of (sink : Sink σ) (s : σ) (events : List (CountingEvent σ)) : CountingRun σ :=
  events.foldl (next sink) (start s)

/-- One event more. -/
theorem of_append_singleton (sink : Sink σ) (s : σ) (events : List (CountingEvent σ))
    (e : CountingEvent σ) : of sink s (events ++ [e]) = (of sink s events).next sink e := by
  rw [of, List.foldl_append]
  rfl

/-- The run as it is once everything that has happened is counted. -/
def caughtUp (run : CountingRun σ) : DeliveryRun σ :=
  { run.toDeliveryRun with
      delivery := { run.delivery with
        stats := run.delivery.stats.catchUp run.underWay run.unrecorded } }

variable {sink : Sink σ} {run : CountingRun σ}

/-- A step of the delivery is a turn of the run that has caught up. -/
theorem caughtUp_proceed (clear : run.unrecorded = none)
    {after : (σ × List (Call × SinkReply)) × Delivery × Option Bool}
    (step : run.delivery.proceed sink.watched run.sink = some after) :
    ({ run with delivery := after.2.1, sink := after.1, unrecorded := after.2.2 } :
      CountingRun σ).caughtUp = run.caughtUp.next sink .turned := by
  -- counted up to date, the step of the delivery counts the call it returns at once
  have turn : run.caughtUp.delivery.step sink.watched run.caughtUp.sink =
      some (after.1, { after.2.1 with
        stats := (run.delivery.stats.catchUp run.underWay none).catchUp 0 after.2.2 }) := by
    rw [caughtUp, Delivery.step, Delivery.proceed_of_stats, step, clear]
    rcases after with ⟨s, d, _ | ok⟩
    · rfl
    · cases ok <;> rfl
  simp only [DeliveryRun.next, turn]
  rw [caughtUp, Delivery.stats_proceed step]
  rfl

/-- **One event.**  A report or a fence that is queued, a step of the delivery and a change of the
    sink are events of a run that counts at once; when something is counted is not seen there. -/
theorem caughtUp_next (sink : Sink σ) (run : CountingRun σ) (e : CountingEvent σ) :
    (run.next sink e).caughtUp = run.caughtUp ∨
      ∃ event, (run.next sink e).caughtUp = run.caughtUp.next sink event := by
  cases e with
  | sent r =>
    cases crashed : run.delivery.crashed with
    | false =>
      refine .inr ⟨.submitted r, ?_⟩
      have up : run.caughtUp.delivery.crashed = false := crashed
      simp only [next, Delivery.send_of_running crashed, DeliveryRun.next,
        Delivery.submit_of_running up]
      rfl
    | true =>
      refine .inl (congrArg caughtUp ?_)
      simp only [next, Delivery.send_of_crashed crashed]
  | counted =>
    -- what the counter gets was in the caught-up counters before
    left
    cases waiting : run.underWay with
    | zero => exact congrArg caughtUp (by simp only [next, waiting])
    | succ n =>
      simp only [next, waiting, caughtUp, Delivery.countSubmitted, DeliveryStats.catchUp,
        Nat.add_right_comm, Nat.add_assoc]
  | fenced ticket =>
    refine .inr ⟨.fenced ticket, ?_⟩
    cases crashed : run.delivery.crashed with
    | false | true => simp [next, DeliveryRun.next, caughtUp, Delivery.fence, crashed]
  | proceeded =>
    cases clear : run.unrecorded with
    | some ok => exact .inl (congrArg caughtUp (by simp only [next, clear]))
    | none =>
      cases step : run.delivery.proceed sink.watched run.sink with
      | none => exact .inl (congrArg caughtUp (by simp only [next, clear, step]))
      | some after =>
        simp only [next, clear, step]
        exact .inr ⟨.turned, caughtUp_proceed clear step⟩
  | recorded =>
    -- the same for the counter of a call
    have same := run.delivery.catchUp_record run.underWay run.unrecorded
    refine .inl ?_
    simp only [next, caughtUp]
    rw [same]
    cases run.unrecorded <;> rfl
  | sinkChanged s => exact .inr ⟨.sinkChanged s, rfl⟩

/-- **Any run.**  A run that counts later, once it has caught up, has gone through a run that counts
    at once.  So what is known about those holds of it, but for the counters. -/
theorem caughtUp_of (sink : Sink σ) (s : σ) (events : List (CountingEvent σ)) :
    ∃ atOnce, (of sink s events).caughtUp = DeliveryRun.of sink s atOnce := by
  induction events using List.reverseRecOn with
  | nil => exact ⟨[], rfl⟩
  | append_singleton events e ih =>
    obtain ⟨atOnce, same⟩ := ih
    rw [of_append_singleton]
    rcases caughtUp_next sink (of sink s events) e with unseen | ⟨event, seen⟩
    · exact ⟨atOnce, unseen.trans same⟩
    · refine ⟨atOnce ++ [event], ?_⟩
      rw [seen, same, DeliveryRun.of, DeliveryRun.of, List.foldl_append]
      rfl

/-- Only a step of a submit is counted as one, and then the submit returns. -/
theorem submitted_next (h : run.delivery.stats.submitted = run.returned) (e : CountingEvent σ) :
    (run.next sink e).delivery.stats.submitted = (run.next sink e).returned := by
  cases e with
  | sent r =>
    -- sending counts nothing, and only counting makes a submit return
    cases crashed : run.delivery.crashed with
    | false => simpa only [next, Delivery.send_of_running crashed] using h
    | true => simpa only [next, Delivery.send_of_crashed crashed] using h
  | counted =>
    cases waiting : run.underWay with
    | zero => simpa only [next, waiting] using h
    | succ n => simpa only [next, waiting, Delivery.countSubmitted, Nat.add_right_cancel_iff] using h
  | fenced ticket =>
    simp only [next]
    rw [run.delivery.stats_fence ticket]
    exact h
  | proceeded =>
    cases clear : run.unrecorded with
    | some ok => simpa only [next, clear] using h
    | none =>
      cases step : run.delivery.proceed sink.watched run.sink with
      | none => simpa only [next, clear, step] using h
      | some after =>
        simp only [next, clear, step]
        rw [Delivery.stats_proceed step]
        exact h
  | recorded =>
    simp only [next]
    rcases run.unrecorded with _ | ok
    · exact h
    · cases ok <;> exact h
  | sinkChanged s => exact h

/-- What has been counted are the submits that returned. -/
theorem submitted_of (sink : Sink σ) (s : σ) (events : List (CountingEvent σ)) :
    (of sink s events).delivery.stats.submitted = (of sink s events).returned := by
  induction events using List.reverseRecOn with
  | nil => rfl
  | append_singleton events e ih =>
    rw [of_append_singleton]
    exact submitted_next ih e

end CountingRun

/-- There is at most one result to be counted, and it is good or bad. -/
theorem length_toList_eq_count (result : Option Bool) :
    result.toList.length = result.toList.count true + result.toList.count false := by
  rcases result with _ | ok
  · rfl
  · cases ok <;> rfl

/-- **The counters of a delivery balance.**  Whatever the sink does, and however submits, fences,
    steps of the delivery and counts follow each other:

    * As many reports are submitted as submits were told so; with those that have queued their
      report and have not counted it yet, they are the reports that were accepted.
    * The calls that succeeded are delivered, and with those that failed they are all that returned,
      but for the result that is just about to be counted.
    * No more calls are counted than the accepted reports make, those that were not counted yet
      among them: one for each and one more for each batch that shows new items.
    * All of them are as soon as nothing is in the queue or in hand and no result is left to be
      counted, unless a call has crashed. -/
theorem delivery_counters_balance {σ : Type} (sink : Sink σ) (s : σ)
    (events : List (CountingEvent σ)) :
    let run := CountingRun.of sink s events
    let stats := run.delivery.stats
    let calls := stats.submitted + run.underWay + run.accepted.countP Report.marksShown
    stats.submitted = run.returned ∧
    run.accepted.length = run.returned + run.underWay ∧
    stats.delivered + run.unrecorded.toList.count true = run.sink.2.countP wasAccepted ∧
    stats.delivered + stats.failed + run.unrecorded.toList.length =
      run.sink.2.countP hasReturned ∧
    stats.delivered + stats.failed ≤ calls ∧
    (run.delivery.queue = [] → run.delivery.inHand = [] → run.unrecorded = none → ¬run.Broken →
      stats.delivered + stats.failed = calls) := by
  intro run stats calls
  have submitted : stats.submitted = run.returned := CountingRun.submitted_of sink s events
  -- what is known of runs that count at once holds of this one, counted up to date
  obtain ⟨atOnce, same⟩ := CountingRun.caughtUp_of sink s events
  have sound : run.caughtUp.Sound := same ▸ .of sink s atOnce
  have counted : run.caughtUp.Counted := same ▸ .of sink s atOnce
  -- the counters that are up to date are those of now and what is still to be counted
  have accepted : stats.submitted + run.underWay = run.accepted.length := sound.counted
  have delivered : stats.delivered + run.unrecorded.toList.count true =
      run.sink.2.countP wasAccepted := counted.delivered
  have failed : stats.failed + run.unrecorded.toList.count false =
      run.sink.2.countP wasRefused := counted.failed
  have returned : stats.delivered + stats.failed + run.unrecorded.toList.length =
      run.sink.2.countP hasReturned := by
    rw [countP_hasReturned, ← delivered, ← failed, length_toList_eq_count]
    omega
  have enough : run.sink.2.countP hasReturned ≤ calls := by
    show _ ≤ stats.submitted + run.underWay + _
    rw [accepted]
    exact sound.countP_hasReturned_le
  refine ⟨submitted, submitted ▸ accepted.symm, delivered, returned, by omega,
    fun queue hand clear whole => ?_⟩
  -- at rest every call of every accepted report has returned
  have all : run.sink.2.countP hasReturned = calls := by
    show _ = stats.submitted + run.underWay + _
    rw [accepted]
    exact sound.countP_hasReturned_eq counted queue hand whole
  rw [← all, ← returned, clear]
  rfl

/-- A batch whose first call is refused and counted late and whose second call waits for a while,
    and one report more, which is delivered before anybody counts it. -/
theorem delivery_counters_balance_waiting :
    let seen : Record := ⟨⟨"a"⟩, 0, 1, true, .mainArea⟩
    let sink : Sink SinkReply := ⟨fun reply _ => (reply, reply)⟩
    let events : List (CountingEvent SinkReply) :=
      [.sent (.visibility [seen] []), .proceeded, .proceeded, .counted, .recorded,
        .sinkChanged .waiting, .proceeded, .sent (.itemError ⟨"b"⟩ "lost"), .sinkChanged .accepted,
        .proceeded, .recorded, .proceeded, .proceeded, .recorded]
    let run := CountingRun.of sink (.refused (.remote "no")) events
    run.delivery.queue = [] ∧ run.delivery.inHand = [] ∧ run.unrecorded = none ∧ ¬run.Broken ∧
      run.delivery.stats = ⟨1, 2, 1⟩ ∧ run.underWay = 1 ∧
      run.accepted.countP Report.marksShown = 1 ∧
      run.delivery.stats.delivered + run.delivery.stats.failed =
        run.delivery.stats.submitted + run.underWay + run.accepted.countP Report.marksShown := by
  intro seen sink events run
  have log : run.sink.2 =
      [(.visibilityChanges [seen] [], .refused (.remote "no")), (.shown [⟨"a"⟩], .accepted),
        (.itemError ⟨"b"⟩ "lost", .accepted)] := by decide +kernel
  have queue : run.delivery.queue = [] := by decide +kernel
  have hand : run.delivery.inHand = [] := by decide +kernel
  have clear : run.unrecorded = none := by decide +kernel
  have whole : ¬run.Broken := by simp [DeliveryRun.Broken, log]
  obtain ⟨-, -, -, -, -, balance⟩ :=
    delivery_counters_balance sink (.refused (.remote "no")) events
  -- the theorem speaks of this very run; with its name in place nothing has to be evaluated
  have named : CountingRun.of sink (.refused (.remote "no")) events = run := rfl
  rw [named] at balance
  exact ⟨queue, hand, clear, whole, by decide +kernel, by decide +kernel, by decide +kernel,
    balance queue hand clear whole⟩

/-- **The counters may lag behind.**  A report is queued, and delivered before whoever queued it has
    counted it.  When its call has returned, no call is counted yet; and when the call is counted,
    more calls are than the counted reports make, though nothing is left to deliver. -/
theorem delivery_counters_lag_behind :
    let lost : Report := .itemError ⟨"a"⟩ "lost"
    let sink : Sink SinkReply := ⟨fun reply _ => (reply, reply)⟩
    let returned := CountingRun.of sink .accepted [.sent lost, .proceeded, .proceeded]
    let recorded := CountingRun.of sink .accepted [.sent lost, .proceeded, .proceeded, .recorded]
    returned.sink.2.countP hasReturned = 1 ∧
      returned.delivery.stats.delivered + returned.delivery.stats.failed = 0 ∧
    recorded.delivery.isIdle = true ∧ recorded.unrecorded = none ∧ ¬recorded.Broken ∧
      recorded.delivery.stats = ⟨0, 1, 0⟩ ∧
      ¬recorded.delivery.stats.delivered + recorded.delivery.stats.failed ≤
        recorded.delivery.stats.submitted + recorded.accepted.countP Report.marksShown := by
  intro lost sink returned recorded
  have log : recorded.sink.2 = [(.itemError ⟨"a"⟩ "lost", .accepted)] := by decide +kernel
  have whole : ¬recorded.Broken := by simp [DeliveryRun.Broken, log]
  exact ⟨by decide +kernel, by decide +kernel, by decide +kernel, by decide +kernel, whole,
    by decide +kernel, by decide +kernel⟩

-- the second call of a batch crashes: the first one stays counted, and nothing else ever is
example :
    let seen : Record := ⟨⟨"a"⟩, 0, 1, true, .mainArea⟩
    let run := DeliveryRun.of ⟨fun reply _ => (reply, reply)⟩ .accepted
      [.submitted (.visibility [seen] []), .submitted (.itemError ⟨"b"⟩ "lost"), .turned, .turned,
        .sinkChanged .crashed, .turned, .submitted (.itemError ⟨"c"⟩ "lost"), .turned]
    run.delivery.stats = ⟨2, 1, 0⟩ ∧ run.delivery.isIdle = true := by
  decide

end OnScreen
