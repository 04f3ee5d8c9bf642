import OnScreen.Proofs.Bookkeeping
import OnScreen.Proofs.LastCommand
import OnScreen.Sink.Recorder

namespace OnScreen

/-!
# Flush and shutdown hold from end to end

Whoever is told that a flush or a shutdown has succeeded can rely on what it was asked for, although
the request has gone through two queues, with reports of ticks in between: the owner deals with
commands in order, the delivery makes the calls of reports in order, and an owner that ends waits
for the delivery.

* `Owner.act_of_fence`, `Owner.requests_said` — the owner answers requests as it comes to them.
* `AwaitedRequest`, `Tracker.told` — what whoever waits for an answer is told.
* `TrackerRun.dealt_in_order` — what was taken in front of a request has been dealt with before it.
* `TrackerRun.dealt_of_hasAnswered`, `TrackerRun.hasAnswered_of_dealt` — who is answered.
* `TrackerRun.Over` — nothing happens after the end.
* `TrackerRun.told_of_flush`, `TrackerRun.told_of_shutdown` — the calls that clients make and wait
  for.
* `fences_hold_from_end_to_end` — what all this comes to.
-/

/-! ### Requests among the commands and among the words -/

/-- The request that a word answers. -/
def Output.request? : Output → Option Command
  | report _ => none
  | fence ticket => some (.flush ticket)
  | status ticket => some (.query ticket)

/-- The owner answers the command with a word. -/
def Command.asksForWord : Command → Bool
  | .flush _ | .query _ => true
  | .possibleChange | .start _ | .stop | .expansionChanged _ _ _ | .entryRemoved _ | .entryUpdated _
  | .itemError _ _ | .shutdown _ => false

/-- Reports answer no request. -/
theorem Output.request?_reports {α : Type} (f : α → Report) (xs : List α) :
    (xs.map fun x => Output.report (f x)).filterMap Output.request? = [] := by
  induction xs with
  | nil => rfl
  | cons x xs ih => exact ih

namespace Owner

/-- A stop answers no request, for it has nothing to say but reports. -/
theorem requests_stop (o : Owner) : o.stop.2.filterMap Output.request? = [] := by
  unfold stop
  split
  · exact Output.request?_reports (fun d : VisibilityDiff => .visibility d.newly d.noLonger) _
  · rfl

/-- An act answers the request that it deals with, and no other. -/
theorem requests_perform (o : Owner) (a : Act) :
    (o.perform a).2.filterMap Output.request? =
      (Act.commands [a]).filter Command.asksForWord := by
  cases a with
  | tick checked m =>
    show ((o.tick m.now m.candidates).2).filterMap Output.request? = []
    simp only [tick, List.filterMap_append, Output.request?_reports, List.append_nil]
    split <;> rfl
  | leave checked ticket =>
    -- of the acts only commands make requests, and the end is one if somebody asked for it
    rw [perform, requests_stop]
    cases ticket <;> rfl
  | handle checked m c =>
    cases c with
    | stop => exact o.requests_stop
    | expansionChanged key user expanded => exact Output.request?_reports Report.expansion _
    | _ => rfl

/-- The owner answers the requests that it deals with, in order. -/
theorem requests_said (o : Owner) (acts : List Act) :
    (o.said acts).filterMap Output.request? = (Act.commands acts).filter Command.asksForWord := by
  induction acts generalizing o with
  | nil => rfl
  | cons a rest ih =>
    have first : Act.commands (a :: rest) = Act.commands [a] ++ Act.commands rest :=
      Act.commands_append [a] rest
    rw [said, List.filterMap_append, requests_perform, ih, first, List.filter_append]

/-- A request is answered just if it is dealt with. -/
theorem mem_said_iff (o : Owner) (acts : List Act) (word : Output) {c : Command}
    (answers : word.request? = some c) :
    word ∈ o.said acts ↔ c ∈ Act.commands acts := by
  have asks : c.asksForWord = true := by
    cases word <;> cases answers <;> rfl
  -- different words answer different requests
  have same : ∀ other : Output, other.request? = some c → other = word := by
    intro other answered
    cases word <;> cases answers <;> cases other <;> cases answered <;> rfl
  have listed : word ∈ o.said acts ↔ c ∈ (o.said acts).filterMap Output.request? := by
    rw [List.mem_filterMap]
    constructor
    · exact fun said => ⟨word, said, answers⟩
    · rintro ⟨other, said, answered⟩
      exact same other answered ▸ said
  rw [listed, requests_said, List.mem_filter, asks, and_iff_left rfl]

/-- An act that puts up a fence deals with the flush, and says nothing else. -/
theorem perform_of_fence {o : Owner} {a : Act} {ticket : Nat}
    (said : .fence ticket ∈ (o.perform a).2) :
    (∃ checked m, a = .handle checked m (.flush ticket)) ∧ (o.perform a).2 = [.fence ticket] := by
  -- the fence answers a command of the act, which can only be this flush
  have dealt : .flush ticket ∈ Act.commands [a] := by
    rw [← o.said_singleton] at said
    exact (o.mem_said_iff [a] _ rfl).1 said
  have command : a.command? = some (.flush ticket) := by
    rwa [Act.commands_singleton, Option.mem_toList] at dealt
  cases a with
  | tick checked m => cases command
  | handle checked m c =>
    cases command
    exact ⟨⟨checked, m, rfl⟩, rfl⟩
  | leave checked asker => cases asker <;> cases command

/-- A fence belongs to the act that deals with the flush. -/
theorem act_of_fence {o : Owner} {acts : List Act} {earlier later : List Output} {ticket : Nat}
    (split : o.said acts = earlier ++ .fence ticket :: later) :
    ∃ done checked m ahead, acts = done ++ .handle checked m (.flush ticket) :: ahead ∧
      earlier = o.said done := by
  induction acts generalizing o earlier with
  | nil => exact absurd (congrArg List.length split) (by simp)
  | cons a rest ih =>
    rw [said] at split
    rcases List.append_eq_append_iff.1 split with ⟨between, rfl, tail⟩ | ⟨words, here, tail⟩
    · -- the fence is put up later
      obtain ⟨done, checked, m, ahead, rfl, rfl⟩ := ih tail
      exact ⟨a :: done, checked, m, ahead, rfl, rfl⟩
    · cases words with
      | nil =>
        -- the act has said everything before the fence
        have tail : (o.perform a).1.said rest = [] ++ .fence ticket :: later := tail.symm
        obtain ⟨done, checked, m, ahead, rfl, none⟩ := ih tail
        refine ⟨a :: done, checked, m, ahead, rfl, ?_⟩
        rw [said, ← none, here, List.append_nil, List.append_nil]
      | cons word words =>
        obtain ⟨rfl, -⟩ := List.cons.inj tail
        have spoken : .fence ticket ∈ (o.perform a).2 := by
          rw [here]
          simp
        obtain ⟨⟨checked, m, rfl⟩, alone⟩ := perform_of_fence spoken
        rw [alone] at here
        have first : earlier = [] := by
          cases earlier with
          | nil => rfl
          | cons word earlier => exact absurd (congrArg List.length here) (by simp)
        exact ⟨[], checked, m, rest, rfl, first⟩

end Owner

/-- Stopping reports everything that was visible, if there was anything. -/
theorem Owner.reports_stop {o : Owner} (h : o.Consistent) :
    Output.reports o.stop.2 = Report.batch [] (Record.byRank o.visible.records) := by
  unfold Owner.stop
  split
  · exact Owner.reports_takeAll o.visible
  · next stopped =>
    have none : Record.byRank [] = [] := List.mergeSort_nil
    rw [h.vacant (Bool.not_eq_true _ ▸ stopped)]
    show [] = Report.batch [] (Record.byRank [])
    rw [none]
    rfl

/-- A batch in which everybody leaves is one call, and none at all when there is nobody to leave. -/
theorem Report.calls_batch_leaving (gone : List Record) :
    (Report.batch [] gone).flatMap Report.calls =
      if gone = [] then [] else [.visibilityChanges [] gone] := by
  cases gone <;> rfl

/-- A fence in the queue is one that is waited for. -/
theorem DeliveryRun.Awaits.mem_tickets {before : List Call} {queue : List Parcel}
    {fences : List (Nat × List Report)} (h : Awaits before queue fences) {ticket : Nat}
    (queued : .fence ticket ∈ queue) : ticket ∈ fences.map Prod.fst := by
  induction h with
  | nil => cases queued
  | report later ih => exact ih ((List.mem_cons.1 queued).resolve_left nofun)
  | fence calls later ih =>
    rcases List.mem_cons.1 queued with same | behind
    · cases same
      exact List.mem_cons_self
    · exact List.mem_cons_of_mem _ (ih behind)

/-! ### Requests and what is told about them -/

/-- Something that a client asks for and waits for. -/
inductive AwaitedRequest where
  | flush (ticket : Nat)
  | query (ticket : Nat)
  | shutdown (ticket : Nat)
  deriving DecidableEq, Repr

/-- The command that carries a request. -/
def AwaitedRequest.command : AwaitedRequest → Command
  | flush ticket => .flush ticket
  | query ticket => .query ticket
  | shutdown ticket => .shutdown ticket

/-- No request is made by way of the gate. -/
theorem AwaitedRequest.command_free (q : AwaitedRequest) : q.command.ofGate = false := by
  cases q <;> rfl

/-- Different requests are carried by different commands. -/
theorem AwaitedRequest.eq_of_command {p q : AwaitedRequest} (h : p.command = q.command) :
    p = q := by
  cases p <;> cases q <;> cases h <;> rfl

variable {σ : Type}

/-- A client makes a request. -/
def TrackerEvent.requests (q : AwaitedRequest) : TrackerEvent σ :=
  .moved (.requested q.command q.command_free)

namespace Tracker

/-- The answer to a request has come: its fence is reached, or the owner has answered. -/
def hasAnswered (t : Tracker σ) : AwaitedRequest → Bool
  | .flush ticket => t.delivery.hasReached ticket
  | .query ticket => (t.answers.filterMap Answer.status?).contains ticket
  | .shutdown ticket => t.answers.contains (.ended ticket)

/-- The request is on its way to somebody who may answer it. -/
def holds (t : Tracker σ) (q : AwaitedRequest) : Bool :=
  t.loop.inbox.contains q.command ||
    match q with
    | .flush ticket => t.delivery.queue.contains (.fence ticket)
    | .query _ => false
    | .shutdown ticket => t.loop.phase = .closing (some ticket)

/-- What whoever waits for an answer is told: that the request has succeeded, or nothing yet, or,
    when nobody holds the request any more, that the tracker is closed. -/
def told (t : Tracker σ) (q : AwaitedRequest) : Option (Except TrackerError Unit) :=
  if t.hasAnswered q then some (.ok ())
  else if t.holds q then none
  else some (.error .closed)

/-- Nothing is queued anywhere, and the owner does not wait for its end. -/
structure AtRest (t : Tracker σ) : Prop where
  inbox : t.loop.inbox = []
  idle : t.delivery.isIdle = true
  ended : t.endStep = none

/-- Success is told just when the answer has come. -/
theorem told_eq_ok_iff (t : Tracker σ) (q : AwaitedRequest) :
    t.told q = some (.ok ()) ↔ t.hasAnswered q = true := by
  unfold told
  split
  · next answered => simp [answered]
  · next waiting =>
    split <;> simp [waiting]

/-- Whoever lets everything run that can and comes back from a flush has been told so. -/
theorem told_of_flush {sink : Sink σ} {t : Tracker σ} (ok : (t.flush sink).2 = .ok ()) :
    (t.flush sink).1.told (.flush t.nextTicket) = some (.ok ()) := by
  rw [told_eq_ok_iff]
  unfold flush at ok ⊢
  rcases sent : t.ticket.1.send (.flush t.ticket.2) with ⟨after, answer⟩
  cases answer with
  | error e =>
    simp only [sent] at ok
    cases ok
  | ok done =>
    simp only [sent] at ok ⊢
    -- the call answers `Closed` unless its fence was reached
    have reached : (after.settle sink).delivery.hasReached t.ticket.2 = true := by
      by_contra waiting
      rw [if_neg waiting] at ok
      cases ok
    exact reached

/-- Whoever comes back from a shutdown has been told so. -/
theorem told_of_shutdown {sink : Sink σ} {t : Tracker σ} (ok : (t.shutdown sink).2 = .ok ()) :
    (t.shutdown sink).1.told (.shutdown t.nextTicket) = some (.ok ()) := by
  rw [told_eq_ok_iff]
  unfold shutdown requestShutdown awaitShutdown at ok ⊢
  rcases sent : t.ticket.1.send (.shutdown t.ticket.2) with ⟨after, answer⟩
  cases answer with
  | error e =>
    simp only [sent] at ok
    cases ok
  | ok done =>
    simp only [sent] at ok ⊢
    have told : (after.settle sink).answers.contains (.ended t.ticket.2) = true := by
      by_contra waiting
      simp only [Except.map, if_neg waiting] at ok
      cases ok
    exact told

-- the call in front of the fence crashes, and the fence is dropped with the queue: this flush
-- fails, and the next one, which finds no delivery to wait for, does not
example :
    let sink : Sink SinkReply := ⟨fun reply _ => (reply, reply)⟩
    let t := ((Tracker.new 500 [] .crashed).send (.itemError ⟨"a"⟩ "lost")).1
    (t.flush sink).2 = .error .closed ∧ ((t.flush sink).1.flush sink).2 = .ok () := by
  decide +kernel

/-- Where nobody holds a request that was not answered, the tracker is closed. -/
theorem told_of_lost {t : Tracker σ} {q : AwaitedRequest} (unanswered : t.hasAnswered q = false)
    (lost : t.holds q = false) : t.told q = some (.error .closed) := by
  simp [told, unanswered, lost]

end Tracker

namespace TrackerRun

/-! ### Commands that are taken -/

/-- Only a request carries a command that does not come from the gate. -/
theorem requested_of_loopEvent {t : Tracker σ} {m : Move} {c : Command} (free : c.ofGate = false)
    (sent : t.loopEvent m = some (.sent c)) : m = .requested c free := by
  cases m with
  | signalled signal =>
    -- what the gate sends is a command of its own
    obtain ⟨d, command, same⟩ := Option.map_eq_some_iff.1 sent
    obtain ⟨decision, -, command⟩ := Option.bind_eq_some_iff.1 command
    cases same
    cases decision <;> cases command <;> cases free
  | requested d free' =>
    cases sent
    rfl
  | ended =>
    simp only [Tracker.loopEvent] at sent
    split at sent <;> cases sent
  | _ => cases sent

/-- An event adds to what was taken, and only a client that makes a request adds that. -/
theorem next_taken (sink : Sink σ) (run : TrackerRun σ) (e : TrackerEvent σ) :
    ∃ more, (run.next sink e).taken = run.taken ++ more ∧
      ∀ q : AwaitedRequest, q.command ∈ more → e = .requests q := by
  cases e with
  | sinkChanged change => exact ⟨[], (List.append_nil _).symm, nofun⟩
  | moved m =>
    refine ⟨run.added m, run.recorded_taken sink m, fun q asked => ?_⟩
    unfold added at asked
    cases event : run.tracker.loopEvent m with
    | none =>
      rw [event] at asked
      cases asked
    | some e =>
      -- the command was sent by this event, and it is no command of the gate
      rw [event] at asked
      have sent : e = .sent q.command := Run.eq_sent_of_mem_takes asked
      have request : m = .requested q.command q.command_free :=
        requested_of_loopEvent q.command_free (sent ▸ event)
      rw [request]
      rfl

variable (sink : Sink σ) (interval : Nat) (candidates : List Candidate) (s : σ)

/-- What is taken later comes behind what was taken before. -/
theorem taken_of_append (events later : List (TrackerEvent σ)) :
    ∃ more, (of sink interval candidates s (events ++ later)).taken =
        (of sink interval candidates s events).taken ++ more ∧
      ∀ q : AwaitedRequest, q.command ∈ more → .requests q ∈ later := by
  induction later using List.reverseRecOn with
  | nil => exact ⟨[], by simp, nofun⟩
  | append_singleton later e ih =>
    obtain ⟨more, taken, asked⟩ := ih
    obtain ⟨last, next, new⟩ :=
      next_taken sink (of sink interval candidates s (events ++ later)) e
    refine ⟨more ++ last, ?_, fun q among => ?_⟩
    · rw [← List.append_assoc, of_append_singleton, next, taken, List.append_assoc]
    · -- each request was taken with one of the events before or with the last
      rcases List.mem_append.1 among with old | among
      · exact List.mem_append_left _ (asked q old)
      · rw [new q among]
        simp

/-- A request that was taken was made by somebody. -/
theorem requests_of_mem_taken {events : List (TrackerEvent σ)} {q : AwaitedRequest}
    (h : q.command ∈ (of sink interval candidates s events).taken) : .requests q ∈ events := by
  obtain ⟨more, taken, asked⟩ := taken_of_append sink interval candidates s [] events
  rw [List.nil_append] at taken
  rw [taken] at h
  exact asked q h

/-- What is taken around a request, which is taken itself unless it comes too late. -/
theorem taken_around (before later : List (TrackerEvent σ)) (q : AwaitedRequest) :
    ∃ more, (of sink interval candidates s (before ++ .requests q :: later)).taken =
        (of sink interval candidates s before).taken ++
          ((if (of sink interval candidates s before).front.loop.isOpen then [q.command] else []) ++
            more) ∧
      ∀ p : AwaitedRequest, p.command ∈ more → .requests p ∈ later := by
  obtain ⟨more, taken, asked⟩ :=
    taken_of_append sink interval candidates s (before ++ [.requests q]) later
  -- the request itself is taken if the loop is open
  have next : ((of sink interval candidates s before).next sink (.requests q)).taken =
      (of sink interval candidates s before).taken ++
        if (of sink interval candidates s before).front.loop.isOpen then [q.command] else [] := rfl
  rw [of_append_singleton, next, List.append_assoc, List.append_assoc,
    List.singleton_append] at taken
  exact ⟨more, taken, asked⟩

/-- What was taken in front of a request has been dealt with before it, and nothing else. -/
theorem dealt_in_order {before later : List (TrackerEvent σ)} {q : AwaitedRequest}
    (fresh : .requests q ∉ before ++ later) {done ahead : List Act} {a : Act}
    (acts : (of sink interval candidates s (before ++ .requests q :: later)).acts =
      done ++ a :: ahead) (deals : a.command? = some q.command) :
    Act.commands done = (of sink interval candidates s before).taken := by
  rw [List.mem_append, not_or] at fresh
  obtain ⟨more, taken, asked⟩ := taken_around sink interval candidates s before later q
  obtain ⟨rest, split⟩ :=
    (recorded_of sink interval candidates s (before ++ .requests q :: later)).served.begun
  have earlier : q.command ∉ (of sink interval candidates s before).taken :=
    fun among => fresh.1 (requests_of_mem_taken sink interval candidates s among)
  have behind : q.command ∉ more := fun among => fresh.2 (asked q among)
  have acts : (of sink interval candidates s (before ++ .requests q :: later)).front.acts =
      done ++ a :: ahead := acts
  -- the request stands once on each side, so what is in front of it is the same on both
  rw [taken, acts, Act.commands_split deals, List.append_assoc, List.cons_append] at split
  by_cases hopen : (of sink interval candidates s before).front.loop.isOpen = true
  · rw [if_pos hopen, List.singleton_append] at split
    exact ((List.append_cons_inj_of_notMem earlier behind).1 split.symm).1.symm
  · -- a request that was refused has not been dealt with
    rw [if_neg hopen, List.nil_append] at split
    have among : q.command ∈ (of sink interval candidates s before).taken ++ more := by
      rw [← split]
      simp
    exact absurd among (by simp [earlier, behind])

/-! ### Who is answered -/

namespace Lawful

variable {interval} {run : TrackerRun σ}

/-- The owner was right to do what comes next. -/
theorem allows (h : run.Lawful interval) {done ahead : List Act} {a : Act}
    (acts : run.acts = done ++ a :: ahead) :
    (Owner.new interval).AllowsAll done ∧ ((Owner.new interval).after done).Allows a := by
  have allowed := h.recorded.accounted.allowed
  have acts : run.front.acts = done ++ a :: ahead := acts
  rw [acts, Owner.allowsAll_append] at allowed
  exact ⟨allowed.1, allowed.2.1⟩

/-- A fence was asked for just if the flush was dealt with. -/
theorem mem_tickets_iff (h : run.Lawful interval) (ticket : Nat) :
    ticket ∈ run.back.flushes.map Prod.fst ↔ .flush ticket ∈ Act.commands run.acts := by
  rw [← (Owner.new interval).mem_said_iff run.acts (.fence ticket) rfl, h.said,
    h.upright.relayed.tickets, List.mem_filterMap]
  constructor
  · rintro ⟨word, said, same⟩
    cases word <;> cases same
    exact said
  · exact fun said => ⟨_, said, rfl⟩

/-- A status was told just if the query was dealt with. -/
theorem mem_statuses_iff (h : run.Lawful interval) (ticket : Nat) :
    ticket ∈ run.tracker.answers.filterMap Answer.status? ↔
      .query ticket ∈ Act.commands run.acts := by
  rw [← (Owner.new interval).mem_said_iff run.acts (.status ticket) rfl, h.said,
    h.faithful.statuses, List.mem_filterMap]
  constructor
  · rintro ⟨word, said, same⟩
    cases word <;> cases same
    exact said
  · exact fun said => ⟨_, said, rfl⟩

/-- Only a request that was dealt with is answered. -/
theorem dealt_of_hasAnswered (h : run.Lawful interval) {q : AwaitedRequest}
    (answered : run.tracker.hasAnswered q = true) : q.command ∈ Act.commands run.acts := by
  cases q with
  | flush ticket =>
    -- a fence that was reached was put into the queue by a flush that was handled
    have reached : ticket ∈ run.tracker.delivery.reached := List.contains_iff_mem.1 answered
    obtain ⟨answered, pending, asked, tickets, -⟩ := h.orderly.fences
    rw [h.faithful.delivery, ← tickets] at reached
    refine (h.mem_tickets_iff ticket).1 ?_
    rw [asked, List.map_append]
    exact List.mem_append_left _ reached
  | query ticket => exact (h.mem_statuses_iff ticket).1 (List.contains_iff_mem.1 answered)
  | shutdown ticket =>
    -- the end was told to whoever asked for it last of all
    obtain ⟨-, done, checked, last⟩ := (h.faithful.ended ticket).1 (List.contains_iff_mem.1 answered)
    have last : run.acts = done ++ [.leave checked (some ticket)] := last
    rw [last, Act.commands_append]
    exact List.mem_append_right _ List.mem_cons_self

/-- A request that is still held is queued, or was dealt with. -/
theorem queued_or_dealt_of_holds (h : run.Lawful interval) {q : AwaitedRequest}
    (held : run.tracker.holds q = true) :
    q.command ∈ run.tracker.loop.inbox ∨ q.command ∈ Act.commands run.acts := by
  rcases Bool.or_eq_true_iff.1 held with queued | held
  · exact .inl (List.contains_iff_mem.1 queued)
  right
  cases q with
  | flush ticket =>
    -- a fence that is on its way was put there by a flush that was handled
    have waiting : .fence ticket ∈ run.tracker.delivery.queue := List.contains_iff_mem.1 held
    obtain ⟨answered, pending, asked, -, -, awaits⟩ := h.orderly.fences
    rw [h.faithful.delivery] at waiting
    refine (h.mem_tickets_iff ticket).1 ?_
    rw [asked, List.map_append]
    exact List.mem_append_right _ (awaits.mem_tickets waiting)
  | query ticket => cases held
  | shutdown ticket =>
    -- a loop that is closing has dealt with the shutdown
    have phase : run.front.loop.phase = .closing (some ticket) := by
      rw [← h.faithful.loop]
      exact of_decide_eq_true held
    have closed : run.front.loop.isOpen = false := by rw [Loop.isOpen, phase]
    obtain ⟨-, done, checked, asker, last, same | ended⟩ := h.recorded.served.left closed
    · rw [phase] at same
      cases same
      have last : run.acts = done ++ [.leave checked (some ticket)] := last
      rw [last, Act.commands_append]
      exact List.mem_append_right _ List.mem_cons_self
    · rw [phase] at ended
      cases ended

/-- With an empty queue, whoever asked for something that was not dealt with is told that the
    tracker is closed. -/
theorem told_of_missed (h : run.Lawful interval) (empty : run.tracker.loop.inbox = [])
    {q : AwaitedRequest} (missed : q.command ∉ Act.commands run.acts) :
    run.tracker.told q = some (.error .closed) := by
  refine Tracker.told_of_lost ?_ ?_
  · by_contra answered
    rw [Bool.not_eq_false] at answered
    -- an answer would come from handling the request
    exact missed (h.dealt_of_hasAnswered answered)
  · by_contra held
    rw [Bool.not_eq_false] at held
    -- and whoever holds it has it in the queue or has handled it
    rcases h.queued_or_dealt_of_holds held with queued | dealt
    · rw [empty] at queued
      cases queued
    · exact missed dealt

/-- A loop that was left has an empty queue. -/
theorem inbox_of_closed (h : run.Lawful interval) (closed : run.tracker.loop.isOpen = false) :
    run.tracker.loop.inbox = [] := by
  rw [h.faithful.loop] at closed ⊢
  exact (h.recorded.served.left closed).1

/-- At rest, every request that was dealt with is answered. -/
theorem hasAnswered_of_dealt (h : run.Lawful interval) (rest : run.tracker.AtRest)
    {q : AwaitedRequest} (dealt : q.command ∈ Act.commands run.acts) :
    run.tracker.hasAnswered q = true := by
  cases q with
  | flush ticket =>
    have idle := rest.idle
    rw [h.faithful.delivery] at idle
    obtain ⟨queue, hand⟩ := Delivery.isIdle_iff.1 idle
    have reached := (h.orderly.at_rest hand queue).2
    have asked := (h.mem_tickets_iff ticket).2 dealt
    rw [reached, ← h.faithful.delivery] at asked
    exact List.contains_iff_mem.2 asked
  | query ticket => exact List.contains_iff_mem.2 ((h.mem_statuses_iff ticket).2 dealt)
  | shutdown ticket =>
    obtain ⟨before, later, split⟩ := List.append_of_mem dealt
    obtain ⟨-, closed, left⟩ := h.recorded.served.last before ticket later split
    have atEnd : run.front.loop.phase = .ended := by
      obtain ⟨-, done, checked, asker, -, closing | ended⟩ := h.recorded.served.left closed
      · -- with nothing left to deliver the owner would not wait for its end
        have ends := run.tracker.isSome_endStep
        rw [rest.ended, rest.idle, h.faithful.loop, closing] at ends
        cases ends
      · exact ended
    exact List.contains_iff_mem.2 ((h.faithful.ended ticket).2 ⟨atEnd, left⟩)

/-- At rest, whoever asked for something is told: success just if it was dealt with. -/
theorem told_at_rest (h : run.Lawful interval) (rest : run.tracker.AtRest) (q : AwaitedRequest) :
    run.tracker.told q =
      some (if q.command ∈ Act.commands run.acts then .ok () else .error .closed) := by
  by_cases dealt : q.command ∈ Act.commands run.acts
  · rw [if_pos dealt, Tracker.told_eq_ok_iff]
    exact h.hasAnswered_of_dealt rest dealt
  · rw [if_neg dealt]
    exact h.told_of_missed rest.inbox dealt

/-! ### What an answer vouches for -/

/-- A flush that has succeeded: all that was reported before the owner dealt with it is delivered.
    -/
theorem delivered_of_flushed (h : run.Lawful interval) {ticket : Nat}
    (flushed : run.tracker.hasAnswered (.flush ticket) = true) :
    ∃ done checked m ahead, run.acts = done ++ .handle checked m (.flush ticket) :: ahead ∧
      ((Owner.new interval).reports done).flatMap Report.calls <+: run.calls := by
  have reached : ticket ∈ run.tracker.delivery.reached := List.contains_iff_mem.1 flushed
  obtain ⟨answered, pending, asked, tickets, inTime, -⟩ := h.orderly.fences
  rw [h.faithful.delivery, ← tickets] at reached
  -- with its fence the delivery was told what had been reported by then
  obtain ⟨f, hf, rfl⟩ := List.mem_map.1 reached
  have hasked : f ∈ run.back.flushes := by
    rw [asked]
    exact List.mem_append_left _ hf
  obtain ⟨earlier, later, split, reports⟩ := h.upright.relayed.fences f hasked
  rw [← h.said] at split
  -- and the owner put it there when it handled the flush
  obtain ⟨done, checked, m, ahead, acts, rfl⟩ := Owner.act_of_fence split
  refine ⟨done, checked, m, ahead, acts, ?_⟩
  rw [h.calls_eq, Owner.reports, ← reports]
  exact inTime f hf

/-- An owner that has ended has delivered all that it ever reported. -/
theorem delivered_of_ended (h : run.Lawful interval) (atEnd : run.front.loop.phase = .ended) :
    run.calls = ((Owner.new interval).reports run.acts).flatMap Report.calls ∧
      run.back.delivery.isIdle = true := by
  have idle : run.back.delivery.isIdle = true := by
    refine (h.faithful.finished atEnd).resolve_right fun crashed => ?_
    rw [h.orderly.up] at crashed
    cases crashed
  exact ⟨h.calls_of_idle (by rw [h.faithful.delivery, idle]), idle⟩

end Lawful

/-! ### After the end -/

section

variable (sink : Sink σ) (interval : Nat) (candidates : List Candidate) (s : σ)

/-- Once no more commands are taken, the owner does nothing any more. -/
theorem acts_of_closed {events : List (TrackerEvent σ)}
    (closed : (of sink interval candidates s events).front.loop.isOpen = false)
    (later : List (TrackerEvent σ)) :
    (of sink interval candidates s (events ++ later)).acts =
      (of sink interval candidates s events).acts := by
  -- the loop stays closed as well, which carries the induction
  suffices still : (of sink interval candidates s (events ++ later)).front.loop.isOpen = false ∧
      (of sink interval candidates s (events ++ later)).acts =
        (of sink interval candidates s events).acts from still.2
  induction later using List.reverseRecOn with
  | nil =>
    rw [List.append_nil]
    exact ⟨closed, rfl⟩
  | append_singleton later e ih =>
    rw [← List.append_assoc, of_append_singleton]
    obtain ⟨closed, acts⟩ := ih
    have adds := next_adds sink (of sink interval candidates s (events ++ later)) e
    generalize (of sink interval candidates s (events ++ later)).next sink e = after at adds ⊢
    -- of the events only those of the loop could add acts
    cases adds with
    | front t e =>
      obtain ⟨still, same, -⟩ := Run.next_of_closed closed e
      exact ⟨still, same.trans acts⟩
    | turned | sinkChanged | nothing => exact ⟨closed, acts⟩

/-- What stands behind a shutdown is not dealt with. -/
theorem not_dealt_behind_shutdown (before later : List (TrackerEvent σ)) {ticket : Nat}
    {q : AwaitedRequest} (other : q ≠ .shutdown ticket) (new : .requests q ∉ before) :
    q.command ∉
      Act.commands
        (of sink interval candidates s (before ++ .requests (.shutdown ticket) :: later)).acts := by
  intro dealt
  have served := (recorded_of sink interval candidates s
    (before ++ .requests (.shutdown ticket) :: later)).served
  have earlier : q.command ∉ (of sink interval candidates s before).taken :=
    fun among => new (requests_of_mem_taken sink interval candidates s among)
  by_cases hopen : (of sink interval candidates s before).front.loop.isOpen = true
  · obtain ⟨more, taken, -⟩ :=
      taken_around sink interval candidates s before later (.shutdown ticket)
    obtain ⟨rest, split⟩ := served.begun
    rw [if_pos hopen, ← List.append_assoc] at taken
    rw [taken] at split
    have not_among : q.command ∉
        (of sink interval candidates s before).taken ++ [.shutdown ticket] := by
      rw [List.mem_append, List.mem_singleton, not_or]
      exact ⟨earlier, fun same => other (AwaitedRequest.eq_of_command same)⟩
    -- the owner has got as far as the shutdown, or further
    rcases List.append_eq_append_iff.1 split with ⟨between, whole, -⟩ | ⟨between, whole, -⟩
    · exact not_among (whole ▸ List.mem_append_left _ dealt)
    · -- the shutdown was dealt with, so it was the last
      rw [List.append_assoc, List.singleton_append] at whole
      obtain ⟨rfl, -⟩ := served.last _ ticket between whole
      exact not_among (whole ▸ dealt)
  · have closed : (of sink interval candidates s before).front.loop.isOpen = false :=
      Bool.not_eq_true _ ▸ hopen
    rw [acts_of_closed sink interval candidates s closed] at dealt
    exact earlier ((recorded_of sink interval candidates s before).served.begun.subset dealt)

end

/-- The owner has ended, and nothing is left to deliver. -/
structure Over (run : TrackerRun σ) : Prop where
  ended : run.front.loop.phase = .ended
  idle : run.back.delivery.isIdle = true

/-- After the end no call is made, whatever happens. -/
theorem Over.next {run : TrackerRun σ} (h : run.Over) (sink : Sink σ) (e : TrackerEvent σ) :
    (run.next sink e).Over ∧ (run.next sink e).back.ended = run.back.ended := by
  have adds := next_adds sink run e
  generalize run.next sink e = after at adds ⊢
  cases adds with
  | front t e =>
    -- an owner that is gone says nothing, so the delivery hears nothing
    have closed : run.front.loop.isOpen = false := by rw [Loop.isOpen, h.ended]
    rw [(Run.next_of_closed closed e).2.2.2]
    exact ⟨⟨Run.next_ended h.ended e, h.idle⟩, rfl⟩
  | turned t =>
    have stuck : run.back.delivery.step sink.watched run.back.sink = none :=
      Delivery.step_eq_none_iff.2 (.inl (Delivery.isIdle_iff.1 h.idle).symm)
    simp only [DeliveryRun.next, stuck]
    exact ⟨⟨h.ended, h.idle⟩, trivial⟩
  | sinkChanged t s => exact ⟨⟨h.ended, h.idle⟩, rfl⟩
  | nothing t => exact ⟨⟨h.ended, h.idle⟩, rfl⟩

/-- Nor later, however long one waits. -/
theorem Over.foldl {run : TrackerRun σ} (h : run.Over) (sink : Sink σ)
    (later : List (TrackerEvent σ)) :
    (later.foldl (TrackerRun.next sink) run).back.ended = run.back.ended := by
  induction later generalizing run with
  | nil => rfl
  | cons e rest ih =>
    obtain ⟨atEnd, same⟩ := h.next sink e
    exact (ih atEnd).trans same

/-! ### Two ways to the end -/

/-- Going away and asking for the end begin the same way. -/
theorem alike_abandoned_shutdown (sink : Sink σ) (run : TrackerRun σ) (ticket : Nat) :
    Alike (run.next sink (.moved .abandoned)) (run.next sink (.requests (.shutdown ticket))) := by
  have sent : (run.next sink (.requests (.shutdown ticket))).front =
      { run.front with loop := run.front.loop.offered (.shutdown ticket) } := Run.next_sent _ _
  refine ⟨?_, ?_, rfl⟩
  · rw [sent]
    exact (Loop.asAbandoned_offered_shutdown run.front.loop ticket).symm
  · rw [sent]
    rfl

/-- Behind a request for the end nothing is dealt with any more. -/
theorem sealed_shutdown (sink : Sink σ) (run : TrackerRun σ) (ticket : Nat) :
    (run.next sink (.requests (.shutdown ticket))).front.loop.Sealed := by
  have sent : (run.next sink (.requests (.shutdown ticket))).front =
      { run.front with loop := run.front.loop.offered (.shutdown ticket) } := Run.next_sent _ _
  rw [sent]
  exact Loop.sealed_offered_shutdown _ ticket

section

variable (sink : Sink σ) (interval : Nat) (candidates : List Candidate) (s : σ)

/-- What is sent behind a shutdown makes no difference. -/
theorem alike_behind_shutdown (before later : List (TrackerEvent σ)) (ticket : Nat) :
    Alike (of sink interval candidates s (before ++ .requests (.shutdown ticket) :: later))
      (of sink interval candidates s
        (before ++ .requests (.shutdown ticket) :: later.filter fun e => !e.isSent)) := by
  have last : (of sink interval candidates s
      (before ++ [.requests (.shutdown ticket)])).front.loop.Sealed := by
    rw [of_append_singleton]
    exact sealed_shutdown sink _ ticket
  have same := alike_of_append interval candidates s ⟨rfl, rfl, rfl⟩ (.inr last) (.inr last) later
    (.inl last)
  simpa only [List.append_assoc, List.singleton_append] using same

/-- The clients may as well go away in place of the shutdown. -/
theorem alike_of_abandoned (before : List (TrackerEvent σ)) {later : List (TrackerEvent σ)}
    (own : ∀ e ∈ later, e.isSent = false) (ticket : Nat) :
    Alike (of sink interval candidates s (before ++ .moved .abandoned :: later))
      (of sink interval candidates s (before ++ .requests (.shutdown ticket) :: later)) := by
  have first : Alike (of sink interval candidates s (before ++ [.moved .abandoned]))
      (of sink interval candidates s (before ++ [.requests (.shutdown ticket)])) := by
    rw [of_append_singleton, of_append_singleton]
    exact alike_abandoned_shutdown sink _ ticket
  have gone : (of sink interval candidates s
      (before ++ [.moved .abandoned])).front.loop.EndInSight := by
    rw [of_append_singleton]
    exact .inl rfl
  have last : (of sink interval candidates s
      (before ++ [.requests (.shutdown ticket)])).front.loop.EndInSight := by
    rw [of_append_singleton]
    exact .inr (sealed_shutdown sink _ ticket)
  -- both ends are in sight, so what follows makes no difference between them
  have same := alike_of_append interval candidates s first gone last later (.inr own)
  have all : later.filter (fun e => !e.isSent) = later :=
    List.filter_eq_self.2 fun e he => by rw [own e he]; rfl
  simpa only [List.append_assoc, List.singleton_append, all] using same

end

/-- Alike runs end at the same time. -/
theorem Alike.hasEnded {a b : TrackerRun σ} (h : Alike a b) (fa : a.Faithful) (fb : b.Faithful) :
    a.tracker.hasEnded = b.tracker.hasEnded := by
  have phase : a.front.loop.phase.unnamed = b.front.loop.phase.unnamed := congrArg Loop.phase h.loop
  rw [Tracker.hasEnded, Tracker.hasEnded, fa.loop, fb.loop]
  cases pa : a.front.loop.phase <;> cases pb : b.front.loop.phase <;> simp_all [Phase.unnamed]

end TrackerRun

/-! ### Calls that wait -/

namespace Tracker

/-- The tracker, with another ticket for the next request. -/
def withTicket (t : Tracker σ) (ticket : Nat) : Tracker σ := { t with nextTicket := ticket }

/-- What anybody is told does not depend on it. -/
theorem told_withTicket (t : Tracker σ) (ticket : Nat) (q : AwaitedRequest) :
    (t.withTicket ticket).told q = t.told q := by
  cases q <;> rfl

/-- Nor does what becomes of the words of the owner. -/
theorem foldl_emit_withTicket (t : Tracker σ) (ticket : Nat) (out : List Output) :
    out.foldl emit (t.withTicket ticket) = (out.foldl emit t).withTicket ticket := by
  induction out generalizing t with
  | nil => rfl
  | cons word rest ih =>
    rw [List.foldl_cons, List.foldl_cons, ← ih]
    cases word <;> rfl

/-- Nor does what a move makes of the tracker. -/
theorem moved_withTicket (sink : Sink σ) (t : Tracker σ) (ticket : Nat) (m : Move) :
    (t.withTicket ticket).moved sink m = (t.moved sink m).withTicket ticket := by
  cases m with
  | signalled s =>
    rw [moved, moved, signal_eq, signal_eq]
    rfl
  | requested c free =>
    rw [moved, moved, send_eq, send_eq]
    rfl
  | abandoned | listed | elapsed => rfl
  | turned branch r =>
    simp only [moved, turn, withTicket]
    cases t.loop.step branch r with
    | none => rfl
    | some after => exact foldl_emit_withTicket { t with loop := after.1 } ticket after.2
  | delivered =>
    simp only [moved, deliveryStep, withTicket]
    cases t.delivery.step sink t.sink <;> rfl
  | ended =>
    -- whether the end has come depends on the delivery alone
    simp only [moved, endStep, withTicket]
    cases t.loop.phase with
    | closing asker =>
      by_cases finished : (t.delivery.isIdle || t.delivery.crashed) = true
      · simp [finished]
      · simp [finished]
    | checking | parked | ended => rfl

/-- A flush sends the request, with a new ticket, and lets everything run. -/
theorem flush_fst (sink : Sink σ) (t : Tracker σ) :
    (t.flush sink).1 =
      ((t.withTicket (t.nextTicket + 1)).send (.flush t.nextTicket)).1.settle sink := by
  unfold flush
  rcases sent : t.ticket.1.send (.flush t.ticket.2) with ⟨after, answer⟩
  have same : ((t.withTicket (t.nextTicket + 1)).send (.flush t.nextTicket)).1 = after :=
    congrArg Prod.fst sent
  rw [same]
  cases answer <;> simp only [sent]

/-- So does a shutdown. -/
theorem shutdown_fst (sink : Sink σ) (t : Tracker σ) :
    (t.shutdown sink).1 =
      ((t.withTicket (t.nextTicket + 1)).send (.shutdown t.nextTicket)).1.settle sink := rfl

end Tracker

namespace TrackerRun

/-- What owner, delivery and clock do by themselves goes on with the run, and no client sends
    anything meanwhile. -/
theorem exists_of_runsTo {sink : Sink σ} {run : TrackerRun σ} {ticket : Nat}
    {after : Tracker (σ × List (Call × SinkReply))}
    (runs : (run.tracker.withTicket ticket).RunsTo sink.watched after) :
    ∃ more : List (TrackerEvent σ), (∀ e ∈ more, e.isSent = false) ∧
      after = (more.foldl (TrackerRun.next sink) run).tracker.withTicket ticket := by
  -- every move of the tracker's own is an event of the run
  induction runs with
  | refl => exact ⟨[], nofun, rfl⟩
  | tail _ step ih =>
    obtain ⟨more, own, rfl⟩ := ih
    obtain ⟨m, ownMove, rfl⟩ := step
    refine ⟨more ++ [.moved m], fun e among => ?_, ?_⟩
    · rcases List.mem_append.1 among with old | new
      · exact own e old
      · rw [List.mem_singleton.1 new]
        cases ownMove <;> rfl
    · rw [List.foldl_append, Tracker.moved_withTicket]
      rfl

variable (sink : Sink σ) (interval : Nat) (candidates : List Candidate) (s : σ)

/-- A client that makes a request in the state of a run and lets everything run goes on with the
    run, and no client sends anything behind the request. -/
theorem exists_of_settle (events : List (TrackerEvent σ)) (q : AwaitedRequest) (ticket : Nat) :
    ∃ more : List (TrackerEvent σ), (∀ e ∈ more, e.isSent = false) ∧
      (((of sink interval candidates s events).tracker.withTicket ticket).send
          q.command).1.settle sink.watched =
        (of sink interval candidates s
          (events ++ .requests q :: more)).tracker.withTicket ticket := by
  -- sending the command is the event of the request
  have asked : (((of sink interval candidates s events).tracker.withTicket ticket).send
      q.command).1 =
        (of sink interval candidates s (events ++ [.requests q])).tracker.withTicket ticket := by
    rw [of_append_singleton]
    exact Tracker.moved_withTicket sink.watched _ ticket (.requested q.command q.command_free)
  rw [asked]
  obtain ⟨more, own, same⟩ := exists_of_runsTo (Tracker.runsTo_settle sink.watched
    ((of sink interval candidates s (events ++ [.requests q])).tracker.withTicket ticket))
  refine ⟨more, own, ?_⟩
  rw [same, ← of_append, List.append_assoc, List.singleton_append]

/-- A flush in the state of a run goes on with the run, and when it comes back with success, whoever
    made it has been told so. -/
theorem told_of_flush (events : List (TrackerEvent σ)) (ticket : Nat) :
    let asking := (of sink interval candidates s events).tracker.withTicket ticket
    ∃ more : List (TrackerEvent σ), (∀ e ∈ more, e.isSent = false) ∧
      let after := of sink interval candidates s (events ++ .requests (.flush ticket) :: more)
      (asking.flush sink.watched).1 = after.tracker.withTicket (ticket + 1) ∧
      ((asking.flush sink.watched).2 = .ok () →
        after.tracker.told (.flush ticket) = some (.ok ())) := by
  intro asking
  obtain ⟨more, own, same⟩ :=
    exists_of_settle sink interval candidates s events (.flush ticket) (ticket + 1)
  have flushed := (asking.flush_fst sink.watched).trans same
  refine ⟨more, own, flushed, fun ok => ?_⟩
  rw [← Tracker.told_withTicket _ (ticket + 1), ← flushed]
  exact Tracker.told_of_flush ok

/-- So does a shutdown. -/
theorem told_of_shutdown (events : List (TrackerEvent σ)) (ticket : Nat) :
    let asking := (of sink interval candidates s events).tracker.withTicket ticket
    ∃ more : List (TrackerEvent σ), (∀ e ∈ more, e.isSent = false) ∧
      let after := of sink interval candidates s (events ++ .requests (.shutdown ticket) :: more)
      (asking.shutdown sink.watched).1 = after.tracker.withTicket (ticket + 1) ∧
      ((asking.shutdown sink.watched).2 = .ok () →
        after.tracker.told (.shutdown ticket) = some (.ok ())) := by
  intro asking
  obtain ⟨more, own, same⟩ :=
    exists_of_settle sink interval candidates s events (.shutdown ticket) (ticket + 1)
  have ended := (asking.shutdown_fst sink.watched).trans same
  refine ⟨more, own, ended, fun ok => ?_⟩
  rw [← Tracker.told_withTicket _ (ticket + 1), ← ended]
  exact Tracker.told_of_shutdown ok

end TrackerRun

/-- **Flush and shutdown hold from end to end.**  For every sink that brings no delivery down, and
    however clients, owner, delivery, clock and sink take turns:

    * The owner is where its acts have led, it has dealt with the commands taken in order, and the
      calls that came to an end, those in hand and those queued are the calls of all its reports.
    * Who is told that a flush has succeeded: the owner has dealt with every command taken before
      it, with the flush no tick was due any more, and every call of every report up to there has
      returned.
    * Who is told that a shutdown has succeeded: the owner has dealt with just the commands taken
      before it, no tick was due any more, every call of every report has returned, the last one
      takes leave of everything that was visible, if anything was, and no call follows, whatever
      happens.
    * What is sent behind a shutdown changes neither reports nor calls, none of the requests among
      it succeeds, and once the owner has left its loop they are told that the tracker is closed.
    * When the clients go away in place of the shutdown, the calls are the same.
    * At rest everybody is told, and just those succeed whose requests were dealt with.
    * A client that calls `flush` or `shutdown` in the state of a run goes on with the run, and no
      client sends anything behind the request; when it comes back with success, it has been told
      so. -/
theorem fences_hold_from_end_to_end {σ : Type} (sink : Sink σ) (calm : sink.Calm) (interval : Nat)
    (candidates : List Candidate) (s : σ) :
    let owner := Owner.new interval
    let run := TrackerRun.of sink interval candidates s
    (∀ events,
      let after := run events
      after.tracker.loop.owner = owner.after after.acts ∧
      (after.tracker.loop.isOpen = true →
        after.taken = Act.commands after.acts ++ after.tracker.loop.inbox) ∧
      after.calls ++ (after.tracker.delivery.inHand ++
          after.tracker.delivery.queue.flatMap Parcel.calls) =
        (owner.reports after.acts).flatMap Report.calls) ∧
    (∀ before later ticket, .requests (.flush ticket) ∉ before ++ later →
      let after := run (before ++ .requests (.flush ticket) :: later)
      after.tracker.told (.flush ticket) = some (.ok ()) →
      ∃ done checked m ahead, after.acts = done ++ .handle checked m (.flush ticket) :: ahead ∧
        Act.commands done = (run before).taken ∧
        (owner.after done).schedule.isDue checked = false ∧
        (owner.reports done).flatMap Report.calls <+: after.calls) ∧
    (∀ before later ticket, .requests (.shutdown ticket) ∉ before ++ later →
      let after := run (before ++ .requests (.shutdown ticket) :: later)
      after.tracker.told (.shutdown ticket) = some (.ok ()) →
      ∃ done checked, after.acts = done ++ [.leave checked (some ticket)] ∧
        Act.commands done = (run before).taken ∧
        (owner.after done).schedule.isDue checked = false ∧
        (let gone := Record.byRank (owner.after done).visible.records
         after.calls = (owner.reports done).flatMap Report.calls ++
          if gone = [] then [] else [.visibilityChanges [] gone]) ∧
        ∀ more, (run (before ++ .requests (.shutdown ticket) :: later ++ more)).calls = after.calls) ∧
    (∀ before later ticket,
      let after := run (before ++ .requests (.shutdown ticket) :: later)
      let alone := run (before ++ .requests (.shutdown ticket) :: later.filter fun e => !e.isSent)
      after.front.reports = alone.front.reports ∧ after.calls = alone.calls ∧
      ∀ q, q ≠ .shutdown ticket → .requests q ∉ before →
        after.tracker.told q ≠ some (.ok ()) ∧
        (after.tracker.loop.isOpen = false → after.tracker.told q = some (.error .closed))) ∧
    (∀ before later ticket, (∀ e ∈ later, e.isSent = false) →
      let gone := run (before ++ .moved .abandoned :: later)
      let asked := run (before ++ .requests (.shutdown ticket) :: later)
      gone.calls = asked.calls ∧ gone.tracker.hasEnded = asked.tracker.hasEnded) ∧
    (∀ events, (run events).tracker.AtRest → ∀ q, (run events).tracker.told q =
      some (if q.command ∈ Act.commands (run events).acts then .ok () else .error .closed)) ∧
    ∀ events ticket,
      let asking := (run events).tracker.withTicket ticket
      (∃ more : List (TrackerEvent σ), (∀ e ∈ more, e.isSent = false) ∧
        let after := run (events ++ .requests (.flush ticket) :: more)
        (asking.flush sink.watched).1 = after.tracker.withTicket (ticket + 1) ∧
        ((asking.flush sink.watched).2 = .ok () →
          after.tracker.told (.flush ticket) = some (.ok ()))) ∧
      ∃ more : List (TrackerEvent σ), (∀ e ∈ more, e.isSent = false) ∧
        let after := run (events ++ .requests (.shutdown ticket) :: more)
        (asking.shutdown sink.watched).1 = after.tracker.withTicket (ticket + 1) ∧
        ((asking.shutdown sink.watched).2 = .ok () →
          after.tracker.told (.shutdown ticket) = some (.ok ())) := by
  intro owner run
  have lawful : ∀ events, (run events).Lawful interval := TrackerRun.lawful_of calm
  refine ⟨fun events => ?_, ?_, ?_, ?_, ?_, fun events => (lawful events).told_at_rest,
    fun events ticket =>
      ⟨TrackerRun.told_of_flush sink interval candidates s events ticket,
        TrackerRun.told_of_shutdown sink interval candidates s events ticket⟩⟩
  · intro after
    have h : after.Lawful interval := lawful events
    refine ⟨?_, fun hopen => ?_, ?_⟩
    · rw [h.faithful.loop]
      exact h.recorded.accounted.owner.symm
    · rw [h.faithful.loop] at hopen ⊢
      exact h.recorded.served.queued hopen
    · rw [h.calls_eq, h.faithful.delivery, ← h.due_eq]
      exact h.orderly.all
  · -- a flush that was told success
    intro before later ticket fresh after told
    have h : after.Lawful interval := lawful _
    obtain ⟨done, checked, m, ahead, acts, delivered⟩ :=
      h.delivered_of_flushed ((Tracker.told_eq_ok_iff _ _).1 told)
    have dealt := TrackerRun.dealt_in_order sink interval candidates s fresh acts rfl
    exact ⟨done, checked, m, ahead, acts, dealt, (h.allows acts).2, delivered⟩
  · -- a shutdown that was told success
    intro before later ticket fresh after told
    have h : after.Lawful interval := lawful _
    have answered := (Tracker.told_eq_ok_iff _ _).1 told
    obtain ⟨atEnd, done, checked, acts⟩ :=
      (h.faithful.ended ticket).1 (List.contains_iff_mem.1 answered)
    have acts : after.acts = done ++ [.leave checked (some ticket)] := acts
    have dealt := TrackerRun.dealt_in_order sink interval candidates s fresh acts rfl
    obtain ⟨allowed, idle⟩ := h.allows acts
    obtain ⟨delivered, rest⟩ := h.delivered_of_ended atEnd
    refine ⟨done, checked, acts, dealt, idle, ?_, fun more => ?_⟩
    · have last : Output.reports ((owner.after done).perform (.leave checked (some ticket))).2 = _ :=
        Owner.reports_stop (Owner.consistent_after allowed)
      rw [delivered, acts, Owner.reports_append, Owner.reports_singleton, last, List.flatMap_append,
        Report.calls_batch_leaving]
    · rw [(lawful _).calls_eq, h.calls_eq]
      show (TrackerRun.of ..).back.ended = _
      rw [TrackerRun.of_append]
      exact TrackerRun.Over.foldl ⟨atEnd, rest⟩ sink more
  · -- what is sent behind a shutdown
    intro before later ticket after alone
    have h : after.Lawful interval := lawful _
    have alike : TrackerRun.Alike after alone :=
      TrackerRun.alike_behind_shutdown sink interval candidates s before later ticket
    refine ⟨congrArg Output.reports alike.said, ?_, fun q other new => ?_⟩
    · rw [h.calls_eq, (lawful _).calls_eq, alike.back]
    · have missed :=
        TrackerRun.not_dealt_behind_shutdown sink interval candidates s before later other new
      refine ⟨fun told => ?_, fun closed => h.told_of_missed (h.inbox_of_closed closed) missed⟩
      exact missed (h.dealt_of_hasAnswered ((Tracker.told_eq_ok_iff _ _).1 told))
  · -- clients that go away
    intro before later ticket own gone asked
    have alike : TrackerRun.Alike gone asked :=
      TrackerRun.alike_of_abandoned sink interval candidates s before own ticket
    refine ⟨?_, alike.hasEnded (lawful _).faithful (lawful _).faithful⟩
    rw [(lawful _).calls_eq, (lawful _).calls_eq, alike.back]

/-- A tick is due in front of a flush, and then another flush stands behind a shutdown. -/
theorem fences_hold_from_end_to_end_late_flush :
    let turn : TrackerEvent Recorder := .moved (.turned .command (.still 0 [⟨⟨"a"⟩, true, none⟩]))
    let opening : List (TrackerEvent Recorder) :=
      [.moved (.signalled (.dozing false)), .moved (.signalled (.panelExpanded true)), turn, turn]
    let flushing := List.replicate 3 turn ++ List.replicate 6 (.moved .delivered)
    let ending := .requests (.flush 2) :: turn :: turn :: List.replicate 3 (.moved .delivered) ++
      [.moved .ended]
    let run := TrackerRun.of Recorder.sink 500 [] Recorder.new
    let flushed := run (opening ++ .requests (.flush 0) :: flushing)
    let all := (opening ++ .requests (.flush 0) :: flushing) ++ .requests (.shutdown 1) :: ending
    Recorder.sink.Calm ∧
    (.requests (.flush 0) ∉ opening ++ flushing ∧ flushed.tracker.told (.flush 0) = some (.ok ()) ∧
      ∃ done checked m ahead, flushed.acts = done ++ .handle checked m (.flush 0) :: ahead ∧
        Act.commands done = [.start false] ∧
        ((Owner.new 500).reports done).flatMap Report.calls <+: flushed.calls) ∧
    (.requests (.shutdown 1) ∉ (opening ++ .requests (.flush 0) :: flushing) ++ ending ∧
      (run all).tracker.told (.shutdown 1) = some (.ok ()) ∧
      (∀ more, (run (all ++ more)).calls = (run all).calls) ∧
      (run all).tracker.told (.flush 2) = some (.error .closed)) := by
  intro turn opening flushing ending run flushed all
  have calm : Recorder.sink.Calm := by
    intro s c
    simp only [Recorder.sink, Recorder.offer]
    split <;> simp
  have alone : .requests (.flush 0) ∉ opening ++ flushing := by
    simp [opening, flushing, turn, TrackerEvent.requests, AwaitedRequest.command]
  have once : .requests (.shutdown 1) ∉ (opening ++ .requests (.flush 0) :: flushing) ++ ending := by
    simp [opening, flushing, ending, turn, TrackerEvent.requests, AwaitedRequest.command]
  have flushedOk : flushed.tracker.told (.flush 0) = some (.ok ()) := by
    rw [Tracker.told_eq_ok_iff]
    decide +kernel
  have endedOk : (run all).tracker.told (.shutdown 1) = some (.ok ()) := by
    rw [Tracker.told_eq_ok_iff]
    decide +kernel
  have taken : (run opening).taken = [.start false] := by decide +kernel
  have closed : (run all).tracker.loop.isOpen = false := by decide +kernel
  obtain ⟨-, flush, shutdown, late, -⟩ :=
    fences_hold_from_end_to_end Recorder.sink calm 500 [] Recorder.new
  obtain ⟨done, checked, m, ahead, acts, dealt, -, delivered⟩ := flush _ _ 0 alone flushedOk
  obtain ⟨-, -, -, -, -, -, still⟩ := shutdown _ _ 1 once endedOk
  have missed : .requests (.flush 2) ∉ opening ++ .requests (.flush 0) :: flushing := by
    simp [opening, flushing, turn, TrackerEvent.requests, AwaitedRequest.command]
  exact ⟨calm, ⟨alone, flushedOk, done, checked, m, ahead, acts, dealt.trans taken, delivered⟩,
    once, endedOk, still, ((late _ ending 1).2.2 (.flush 2) (by simp) missed).2 closed⟩

end OnScreen
