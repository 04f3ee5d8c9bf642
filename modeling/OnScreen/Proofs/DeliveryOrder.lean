import Mathlib.Data.List.Basic
import OnScreen.Delivery
import OnScreen.Proofs.Balance

namespace OnScreen

/-!
# Calls are made in order, and once each

The sink sees the calls of the accepted reports in the order in which the reports were accepted,
each call once and each as its report spells it.  A fence is reached only after every call of every
report accepted before it has returned.  When a call brings the delivery down, it was the last one.

* `Sink.watched` — a sink together with a log of the calls that came to an end.
* `DeliveryRun` — a delivery before a watched sink, as reports, fences and turns reach it in any
  order while the sink changes as it likes.
* `Awaits` — how the fences that were asked for line up with a queue.
* `DeliveryRun.Turn` — everything a turn of the delivery can come to.
* `DeliveryRun.Orderly`, `DeliveryRun.Sound` — what every event keeps.
-/

/-! ### The calls of reports and parcels -/

/-- A batch of visibility changes is passed on as it is, and then the items that appeared are
    marked as shown, if there are any. -/
theorem Report.calls_visibility (newly noLonger : List Record) :
    (Report.visibility newly noLonger).calls =
      .visibilityChanges newly noLonger ::
        if newly = [] then [] else [.shown (newly.map Record.key)] := by
  cases newly <;> rfl

/-- Every other report is a single call. -/
theorem Report.calls_of_not_batch {r : Report} (h : r.isBatch = false) : ∃ c, r.calls = [c] := by
  cases r <;> first | exact ⟨_, rfl⟩ | cases h

/-- The calls that a parcel brings. -/
def Parcel.calls : Parcel → List Call
  | report r => r.calls
  | fence _ => []

variable {σ : Type}

/-! ### Runs of a delivery -/

/-- The sink that also writes down every call that comes to an end, and how.  A call that has to
    wait is not written down yet. -/
def Sink.watched (sink : Sink σ) : Sink (σ × List (Call × SinkReply)) where
  offer := fun (s, log) c => (((sink.offer s c).1, log ++ [(c, (sink.offer s c).2)]),
    (sink.offer s c).2)

/-- Something that happens to a delivery. -/
inductive DeliveryEvent (σ : Type) where
  /-- A report is submitted. -/
  | submitted (r : Report)
  /-- Someone asks to be told when everything so far has been delivered. -/
  | fenced (ticket : Nat)
  /-- The delivery gets a turn. -/
  | turned
  /-- The sink changes by itself; a call that it keeps waiting may be able to return now. -/
  | sinkChanged (s : σ)

/-- A delivery, its sink, and what was asked of it. -/
structure DeliveryRun (σ : Type) where
  delivery : Delivery
  /-- The state of the sink, and the calls that came to an end. -/
  sink : σ × List (Call × SinkReply)
  /-- The reports that were accepted, in order. -/
  accepted : List Report
  /-- The fences that were asked for, each with the reports accepted before it. -/
  flushes : List (Nat × List Report)

namespace DeliveryRun

/-- Nothing has happened. -/
def start (s : σ) : DeliveryRun σ := ⟨.new, (s, []), [], []⟩

/-- One event. -/
def next (sink : Sink σ) (run : DeliveryRun σ) : DeliveryEvent σ → DeliveryRun σ
  | .submitted r =>
    let (d, ok) := run.delivery.submit r
    { run with delivery := d, accepted := if ok then run.accepted ++ [r] else run.accepted }
  | .fenced ticket =>
    { run with
        delivery := run.delivery.fence ticket
        flushes := run.flushes ++ [(ticket, run.accepted)] }
  | .turned =>
    match run.delivery.step sink.watched run.sink with
    | some (s, d) => { run with delivery := d, sink := s }
    | none => run
  | .sinkChanged s => { run with sink := (s, run.sink.2) }

/-- The run through some events, oldest first. -/
def of (sink : Sink σ) (s : σ) (events : List (DeliveryEvent σ)) : DeliveryRun σ :=
  events.foldl (next sink) (start s)

/-- The calls that came to an end, in order. -/
def ended (run : DeliveryRun σ) : List Call := run.sink.2.map Prod.fst

/-- The calls of the accepted reports, in the order of acceptance. -/
def due (run : DeliveryRun σ) : List Call := run.accepted.flatMap Report.calls

/-- A call has crashed. -/
def Broken (run : DeliveryRun σ) : Prop := ∃ c, (c, SinkReply.crashed) ∈ run.sink.2

variable {sink : Sink σ} {run : DeliveryRun σ}

/-! ### What an event does -/

/-- What a turn can come to: nothing is left, a parcel leaves the queue, or the first call in hand
    waits, returns or crashes. -/
inductive Turn (sink : Sink σ) (run : DeliveryRun σ) : DeliveryRun σ → Prop
  | rests (stuck : run.delivery.step sink.watched run.sink = none) : Turn sink run run
  | unpacks {r : Report} {queue : List Parcel} (hand : run.delivery.inHand = [])
      (head : run.delivery.queue = .report r :: queue) :
      Turn sink run
        { run with delivery := { run.delivery with queue := queue, inHand := r.calls } }
  | reaches {ticket : Nat} {queue : List Parcel} (hand : run.delivery.inHand = [])
      (head : run.delivery.queue = .fence ticket :: queue) :
      Turn sink run
        { run with
            delivery := { run.delivery with
              queue := queue, reached := run.delivery.reached ++ [ticket] } }
  | returns {c : Call} {rest : List Call} {reply : SinkReply} (s : σ) {stats : DeliveryStats}
      (hand : run.delivery.inHand = c :: rest) (fine : reply ≠ .crashed)
      (counted : stats.submitted = run.delivery.stats.submitted) :
      Turn sink run
        { run with
            delivery := { run.delivery with inHand := rest, stats := stats }
            sink := (s, run.sink.2 ++ [(c, reply)]) }
  | crashes {c : Call} {rest : List Call} (s : σ) (hand : run.delivery.inHand = c :: rest) :
      Turn sink run
        { run with
            delivery := { run.delivery with queue := [], inHand := [], crashed := true }
            sink := (s, run.sink.2 ++ [(c, .crashed)]) }

/-- A turn of the delivery comes to one of these. -/
theorem next_turned (sink : Sink σ) (run : DeliveryRun σ) :
    Turn sink run (run.next sink .turned) := by
  unfold next
  cases step : run.delivery.step sink.watched run.sink with
  | none => exact .rests step
  | some after =>
    obtain ⟨s, d⟩ := after
    rw [Delivery.step_eq] at step
    split at step
    -- a call is in hand, and the sink decides what becomes of it
    case h_1 c rest hand =>
      rcases answer : sink.offer run.sink.1 c with ⟨s', reply⟩
      simp only [Sink.watched, answer] at step
      cases reply with
      | accepted | refused => cases step; exact .returns s' hand nofun rfl
      | waiting => cases step
      | crashed => cases step; exact .crashes s' hand
    -- nothing is in hand, so the delivery takes the next thing from its queue
    case h_2 hand =>
      split at step
      case h_1 r queue head => cases step; exact .unpacks hand head
      case h_2 ticket queue head => cases step; exact .reaches hand head
      case h_3 => cases step

/-- A call that came to an end is the last one in the log. -/
theorem ended_of_log {after : DeliveryRun σ} {c : Call} {reply : SinkReply}
    (log : after.sink.2 = run.sink.2 ++ [(c, reply)]) : after.ended = run.ended ++ [c] := by
  rw [ended, ended, log, List.map_append]
  rfl

/-- The run is broken by a call that crashed before, or by the one that has just come to its end. -/
theorem broken_of_log {after : DeliveryRun σ} {c : Call} {reply : SinkReply}
    (log : after.sink.2 = run.sink.2 ++ [(c, reply)]) :
    after.Broken ↔ run.Broken ∨ reply = .crashed := by
  simp only [Broken, log, List.mem_append, List.mem_singleton, Prod.mk.injEq]
  constructor
  · rintro ⟨d, old | ⟨-, new⟩⟩
    · exact .inl ⟨d, old⟩
    · exact .inr new.symm
  · rintro (⟨d, old⟩ | new)
    · exact ⟨d, .inl old⟩
    · exact ⟨c, .inr ⟨rfl, new.symm⟩⟩

/-- Only an accepted report is counted as submitted. -/
theorem next_counted (h : run.delivery.stats.submitted = run.accepted.length)
    (e : DeliveryEvent σ) :
    (run.next sink e).delivery.stats.submitted = (run.next sink e).accepted.length := by
  cases e with
  | submitted r =>
    -- a report is accepted and counted, or neither
    cases crashed : run.delivery.crashed with
    | false => simp [next, Delivery.submit_of_running crashed, h]
    | true => simp [next, Delivery.submit_of_crashed crashed, h]
  | fenced ticket =>
    cases crashed : run.delivery.crashed with
    | false => simpa [next, Delivery.fence_of_running crashed] using h
    | true => simpa [next, Delivery.fence_of_crashed crashed] using h
  | turned =>
    -- of the steps of the delivery only one counts anything, and it counts calls
    have turn := next_turned sink run
    generalize run.next sink .turned = after at turn ⊢
    cases turn with
    | returns _ _ _ counted => exact counted.trans h
    | _ => exact h
  | sinkChanged s => exact h

/-! ### While no call has crashed -/

/-- The fences in a queue are those that are asked for and not reached, in the same order, and the
    calls of the reports accepted before a fence are `before` and then those in front of it. -/
inductive Awaits : List Call → List Parcel → List (Nat × List Report) → Prop
  | nil (before : List Call) : Awaits before [] []
  | report {before : List Call} {r : Report} {queue : List Parcel}
      {fences : List (Nat × List Report)} (later : Awaits (before ++ r.calls) queue fences) :
      Awaits before (.report r :: queue) fences
  | fence {before : List Call} {ticket : Nat} {reports : List Report} {queue : List Parcel}
      {fences : List (Nat × List Report)} (calls : reports.flatMap Report.calls = before)
      (later : Awaits before queue fences) :
      Awaits before (.fence ticket :: queue) ((ticket, reports) :: fences)

/-- A report at the end of the queue is in front of no fence. -/
theorem Awaits.submit {before : List Call} {queue : List Parcel} {fences : List (Nat × List Report)}
    (h : Awaits before queue fences) (r : Report) : Awaits before (queue ++ [.report r]) fences := by
  induction h with
  | nil => exact .report (.nil _)
  | report _ ih => exact .report ih
  | fence calls _ ih => exact .fence calls ih

/-- A fence at the end of the queue has everything in front of it. -/
theorem Awaits.ask {before : List Call} {queue : List Parcel} {fences : List (Nat × List Report)}
    (h : Awaits before queue fences) (ticket : Nat) {reports : List Report}
    (all : before ++ queue.flatMap Parcel.calls = reports.flatMap Report.calls) :
    Awaits before (queue ++ [.fence ticket]) (fences ++ [(ticket, reports)]) := by
  induction h with
  | nil before => exact .fence (by simpa using all.symm) (.nil _)
  | report _ ih => exact .report (ih (by simpa [Parcel.calls] using all))
  | fence calls _ ih => exact .fence calls (ih (by simpa [Parcel.calls] using all))

/-- Nothing is lost, and the fences that were reached were reached in time. -/
structure Orderly (run : DeliveryRun σ) : Prop where
  up : run.delivery.crashed = false
  whole : ¬run.Broken
  /-- The calls that came to an end, those in hand and those in the queue are all there are. -/
  all : run.ended ++ (run.delivery.inHand ++ run.delivery.queue.flatMap Parcel.calls) = run.due
  fences : ∃ answered pending, run.flushes = answered ++ pending ∧
    answered.map Prod.fst = run.delivery.reached ∧
    (∀ f ∈ answered, f.2.flatMap Report.calls <+: run.ended) ∧
    Awaits (run.ended ++ run.delivery.inHand) run.delivery.queue pending

/-- A call has brought the delivery down. -/
structure Down (run : DeliveryRun σ) : Prop where
  crashed : run.delivery.crashed = true
  broken : run.Broken
  hand : run.delivery.inHand = []
  queue : run.delivery.queue = []
  inOrder : run.ended <+: run.due

/-- A report that is accepted joins the queue behind everything else, and in front of no fence. -/
theorem Orderly.submitted (h : run.Orderly) (r : Report) :
    (run.next sink (.submitted r)).Orderly := by
  obtain ⟨answered, pending, asked, tickets, inTime, awaits⟩ := h.fences
  simp only [next, Delivery.submit_of_running h.up]
  refine ⟨h.up, h.whole, ?_, answered, pending, asked, tickets, inTime, awaits.submit r⟩
  have all := congrArg (· ++ r.calls) h.all
  simpa [due, ended, Parcel.calls] using all

/-- A fence that is asked for has everything accepted so far in front of it. -/
theorem Orderly.fenced (h : run.Orderly) (ticket : Nat) :
    (run.next sink (.fenced ticket)).Orderly := by
  obtain ⟨answered, pending, asked, tickets, inTime, awaits⟩ := h.fences
  simp only [next, Delivery.fence_of_running h.up]
  refine ⟨h.up, h.whole, ?_, answered, pending ++ [(ticket, run.accepted)], ?_, tickets, inTime,
    awaits.ask ticket ?_⟩
  · simpa [due, ended, Parcel.calls] using h.all
  · rw [← List.append_assoc, ← asked]
  · rw [List.append_assoc]
    exact h.all

/-- When the first call in hand comes to an end, it takes its place behind those before it. -/
theorem Orderly.call_ends (h : run.Orderly) {c : Call} {rest : List Call}
    (hand : run.delivery.inHand = c :: rest) :
    (run.ended ++ [c]) ++ (rest ++ run.delivery.queue.flatMap Parcel.calls) = run.due := by
  rw [← h.all, hand, List.append_assoc]
  rfl

/-- A turn keeps the order; only a call that crashes ends it. -/
theorem Orderly.turned (h : run.Orderly) {after : DeliveryRun σ} (turn : Turn sink run after) :
    after.Orderly ∨ after.Down := by
  obtain ⟨answered, pending, asked, tickets, inTime, awaits⟩ := h.fences
  cases turn with
  | rests => exact .inl h
  | @unpacks r queue hand head =>
    have all := h.all
    rw [hand, head] at all awaits
    cases awaits with
    | report later =>
      rw [List.append_nil] at later
      exact .inl ⟨h.up, h.whole, all, answered, pending, asked, tickets, inTime, later⟩
  | @reaches ticket queue hand head =>
    have all := h.all
    rw [hand, head] at all awaits
    cases awaits with
    | @fence _ _ reports _ fences calls later =>
      -- nothing is in hand, so the calls before this fence are those that came to an end
      rw [List.append_nil] at calls
      refine .inl ⟨h.up, h.whole, by rw [hand]; exact all, answered ++ [(ticket, reports)], fences,
        by simpa using asked, by simpa using tickets, fun f hf => ?_, by rw [hand]; exact later⟩
      rcases List.mem_append.1 hf with old | new
      · exact inTime f old
      · rw [List.mem_singleton.1 new]
        exact calls ▸ List.prefix_rfl
  | @returns c rest reply s stats hand fine counted =>
    refine .inl ⟨h.up, ?_, ?_, answered, pending, asked, tickets, fun f hf => ?_, ?_⟩
    · rw [broken_of_log rfl]
      exact fun broken => broken.elim h.whole fine
    · rw [ended_of_log rfl]
      exact h.call_ends hand
    · rw [ended_of_log rfl]
      exact (inTime f hf).trans (List.prefix_append _ _)
    · rw [ended_of_log rfl, List.append_assoc, List.singleton_append, ← hand]
      exact awaits
  | @crashes c rest s hand =>
    refine .inr ⟨rfl, (broken_of_log rfl).2 (.inr rfl), rfl, rfl, ?_⟩
    rw [ended_of_log rfl]
    exact ⟨_, h.call_ends hand⟩

/-- An orderly run stays orderly until a call crashes. -/
theorem Orderly.next (h : run.Orderly) (e : DeliveryEvent σ) :
    (run.next sink e).Orderly ∨ (run.next sink e).Down := by
  cases e with
  | submitted r => exact .inl (h.submitted r)
  | fenced ticket => exact .inl (h.fenced ticket)
  | turned => exact h.turned (next_turned sink run)
  | sinkChanged s => exact .inl ⟨h.up, h.whole, h.all, h.fences⟩

/-- The first call in hand is the next that has to be made, whether it is under way or not. -/
theorem Orderly.inOrder (h : run.Orderly) :
    run.ended ++ run.delivery.inHand.take 1 <+: run.due := by
  rw [← h.all]
  exact List.prefix_append_right_inj _ |>.2
    ((List.take_prefix 1 _).trans (List.prefix_append _ _))

/-- With nothing in hand and nothing in the queue, everything has been delivered. -/
theorem Orderly.at_rest (h : run.Orderly) (hand : run.delivery.inHand = [])
    (queue : run.delivery.queue = []) :
    run.ended = run.due ∧ run.flushes.map Prod.fst = run.delivery.reached := by
  have all := h.all
  obtain ⟨answered, pending, asked, tickets, -, awaits⟩ := h.fences
  rw [hand, queue] at all awaits
  cases awaits with
  | nil =>
    rw [asked, List.append_nil, tickets]
    exact ⟨by simpa using all, rfl⟩

/-! ### Once a call has crashed -/

/-- Nothing happens any more: no call is made and no report is accepted. -/
theorem Down.next (h : run.Down) (sink : Sink σ) (e : DeliveryEvent σ) :
    (run.next sink e).Down ∧ (run.next sink e).sink.2 = run.sink.2 := by
  cases e with
  | submitted r =>
    simp only [DeliveryRun.next, Delivery.submit_of_crashed h.crashed]
    exact ⟨h, trivial⟩
  | fenced ticket =>
    simp only [DeliveryRun.next, Delivery.fence_of_crashed h.crashed]
    exact ⟨⟨h.crashed, h.broken, h.hand, h.queue, h.inOrder⟩, trivial⟩
  | turned =>
    -- hand and queue are empty, so the delivery has nothing to do
    have stuck : run.delivery.step sink.watched run.sink = none :=
      Delivery.step_eq_none_iff.2 (.inl ⟨h.hand, h.queue⟩)
    simp only [DeliveryRun.next, stuck]
    exact ⟨h, trivial⟩
  | sinkChanged s => exact ⟨⟨h.crashed, h.broken, h.hand, h.queue, h.inOrder⟩, rfl⟩

/-- Nor does anything happen later, however long one waits. -/
theorem Down.foldl (h : run.Down) (later : List (DeliveryEvent σ)) :
    (later.foldl (DeliveryRun.next sink) run).Down ∧
      (later.foldl (DeliveryRun.next sink) run).sink.2 = run.sink.2 := by
  induction later generalizing run with
  | nil => exact ⟨h, rfl⟩
  | cons e rest ih =>
    obtain ⟨still, log⟩ := h.next sink e
    obtain ⟨down, same⟩ := ih still
    exact ⟨down, same.trans log⟩

/-! ### Every run -/

/-- What every event keeps. -/
structure Sound (run : DeliveryRun σ) : Prop where
  counted : run.delivery.stats.submitted = run.accepted.length
  either : run.Orderly ∨ run.Down

/-- Nothing was accepted and nothing is queued. -/
theorem Sound.start (s : σ) : (start s).Sound where
  counted := rfl
  either := .inl ⟨rfl, by simp [Broken, DeliveryRun.start], rfl, [], [], rfl, rfl, nofun, .nil _⟩

/-- Every event keeps the order, the count, and the end once it has come. -/
theorem Sound.next (h : run.Sound) (e : DeliveryEvent σ) : (run.next sink e).Sound where
  counted := next_counted h.counted e
  either := h.either.elim (·.next e) fun down => .inr (down.next sink e).1

/-- All of this holds in every run. -/
theorem Sound.of (sink : Sink σ) (s : σ) (events : List (DeliveryEvent σ)) :
    (of sink s events).Sound :=
  List.foldlRecOn events _ (Sound.start s) fun _ h e _ => h.next e

/-- As long as no call has crashed, a run is orderly. -/
theorem Sound.orderly (h : run.Sound) (whole : ¬run.Broken) : run.Orderly :=
  h.either.resolve_right fun down => whole down.broken

/-- When a call has crashed, the delivery is down. -/
theorem Sound.down (h : run.Sound) (broken : run.Broken) : run.Down :=
  h.either.resolve_left fun orderly => orderly.whole broken

/-- Before and after a crash the calls are the first of those that are due. -/
theorem Sound.inOrder (h : run.Sound) : run.ended ++ run.delivery.inHand.take 1 <+: run.due := by
  rcases h.either with orderly | down
  · exact orderly.inOrder
  · rw [down.hand, List.take_nil, List.append_nil]
    exact down.inOrder

end DeliveryRun

/-- **In order, once each, and fences hold.**  Whatever the sink does and however reports, fences
    and turns follow each other: the calls made so far, with the one that is next or under way, are
    the first of the calls of the accepted reports.  As long as no call has crashed, whoever was
    told that a fence is reached can rely on all that was accepted before it, and the delivery comes
    to a halt only when everything is delivered or when the sink keeps the next call waiting.  Once
    a call has crashed, no call is made, no report is accepted or counted, and nobody has to
    wait. -/
theorem calls_in_order_and_once (sink : Sink σ) (s : σ) (events : List (DeliveryEvent σ)) :
    let run := DeliveryRun.of sink s events
    run.ended ++ run.delivery.inHand.take 1 <+: run.due ∧
    run.delivery.stats.submitted = run.accepted.length ∧
    (¬run.Broken →
      (∃ answered pending, run.flushes = answered ++ pending ∧
        answered.map Prod.fst = run.delivery.reached ∧
        ∀ f ∈ answered, f.2.flatMap Report.calls <+: run.ended) ∧
      (run.delivery.step sink.watched run.sink = none →
        (run.ended = run.due ∧ run.flushes.map Prod.fst = run.delivery.reached) ∨
          ∃ c, run.ended ++ [c] <+: run.due ∧ (sink.offer run.sink.1 c).2 = .waiting)) ∧
    (run.Broken → ∀ later,
      let after := DeliveryRun.of sink s (events ++ later)
      after.sink.2 = run.sink.2 ∧ after.delivery.inHand = [] ∧
        (∀ r, after.delivery.submit r = (after.delivery, false)) ∧
        ∀ f ∈ after.flushes, after.delivery.isPast f.1 = true) ∧
    (∀ newly noLonger, (Report.visibility newly noLonger).calls =
      .visibilityChanges newly noLonger ::
        if newly = [] then [] else [.shown (newly.map Record.key)]) ∧
    ∀ r : Report, r.isBatch = false → ∃ c, r.calls = [c] := by
  intro run
  have h : run.Sound := .of sink s events
  refine ⟨h.inOrder, h.counted, fun whole => ⟨?_, fun stuck => ?_⟩, fun broken later => ?_,
    Report.calls_visibility, fun _ => Report.calls_of_not_batch⟩
  · obtain ⟨answered, pending, asked, tickets, inTime, -⟩ := (h.orderly whole).fences
    exact ⟨answered, pending, asked, tickets, inTime⟩
  · -- a delivery that is stuck has nothing left, or its call waits
    rcases Delivery.step_eq_none_iff.1 stuck with ⟨hand, queue⟩ | ⟨c, rest, hand, waiting⟩
    · exact .inl ((h.orderly whole).at_rest hand queue)
    · exact .inr ⟨c, ⟨_, (h.orderly whole).call_ends hand⟩, waiting⟩
  · intro after
    -- the crash emptied hand and queue, and nothing comes in any more
    obtain ⟨down, log⟩ : after.Down ∧ after.sink.2 = run.sink.2 := by
      simp only [after, DeliveryRun.of, List.foldl_append]
      exact (h.down broken).foldl later
    exact ⟨log, down.hand, fun r => Delivery.submit_of_crashed down.crashed r,
      fun f _ => Delivery.isPast_of_crashed down.crashed f.1⟩

/-- A report is delivered and a fence behind it reached; then a batch is half delivered, for the
    sink keeps its second call waiting. -/
theorem calls_in_order_and_once_half_a_batch :
    let seen : Record := ⟨⟨"b"⟩, 0, 1, true, .mainArea⟩
    let sink : Sink SinkReply := ⟨fun reply _ => (reply, reply)⟩
    let events : List (DeliveryEvent SinkReply) :=
      [.submitted (.itemError ⟨"a"⟩ "lost"), .fenced 0, .submitted (.visibility [seen] []),
        .turned, .turned, .turned, .turned, .turned, .sinkChanged .waiting, .turned]
    let run := DeliveryRun.of sink .accepted events
    ¬run.Broken ∧ run.accepted = [.itemError ⟨"a"⟩ "lost", .visibility [seen] []] ∧
      run.delivery.stats.submitted = run.accepted.length ∧
      run.ended = [.itemError ⟨"a"⟩ "lost", .visibilityChanges [seen] []] ∧
      run.ended ++ [.shown [⟨"b"⟩]] <+: run.due ∧
      run.delivery.step sink.watched run.sink = none ∧
      ∃ answered pending, run.flushes = answered ++ pending ∧ answered.map Prod.fst = [0] ∧
        ∀ f ∈ answered, f.2.flatMap Report.calls <+: run.ended := by
  intro seen sink events run
  have log : run.sink.2 = [(.itemError ⟨"a"⟩ "lost", .accepted),
      (.visibilityChanges [seen] [], .accepted)] := by decide +kernel
  have whole : ¬run.Broken := by simp [DeliveryRun.Broken, log]
  have reached : run.delivery.reached = [0] := by decide +kernel
  have hand : run.delivery.inHand = [.shown [⟨"b"⟩]] := by decide +kernel
  obtain ⟨inOrder, counted, fences, -⟩ := calls_in_order_and_once sink .accepted events
  have named : DeliveryRun.of sink .accepted events = run := rfl
  rw [named] at inOrder counted fences
  rw [hand] at inOrder
  rw [reached] at fences
  exact ⟨whole, by decide +kernel, counted, by decide +kernel, inOrder, by decide +kernel,
    (fences whole).1⟩

-- the first report is refused and the second one crashes, after a while, in front of a fence
example :
    let run := DeliveryRun.of ⟨fun reply _ => (reply, reply)⟩ (.refused (.remote "no"))
      [.submitted (.itemError ⟨"a"⟩ "lost"), .fenced 0, .submitted (.itemError ⟨"b"⟩ "lost"),
        .fenced 1, .turned, .turned, .turned, .turned, .sinkChanged .waiting, .turned,
        .sinkChanged .crashed, .turned, .fenced 2]
    run.sink.2 = [(.itemError ⟨"a"⟩ "lost", .refused (.remote "no")),
        (.itemError ⟨"b"⟩ "lost", .crashed)] ∧
      run.delivery.reached = [0, 2] ∧ run.delivery.isPast 1 = true := by
  decide

end OnScreen
