import OnScreen.Proofs.EndToEnd
import OnScreen.Proofs.ExpansionReports
import OnScreen.Proofs.Lines
import OnScreen.Proofs.SinkFailures

namespace OnScreen

/-!
# Whoever reads the lines can keep books

The calls of a run tell a reader all that a ledger needs: no batch takes off what is not there or
puts on what is there already, the items that a batch puts on are marked as shown by the call behind
it, and whatever is expanded or collapsed is on the ledger.  Once the owner has ended, nobody is on
the ledger any more.  The ranks of records are positions in lists, so lines can be read back as long
as no list is too long.

* `Call.ClosedBooks` — what calls have to be like.
* `Owner.closedBooks` — the calls of an owner that was stopped are like that.
* `Owner.inWords_reports` — ranks and totals fit words if the lists are short enough.
* `TrackerRun.Written` — a sink that writes lines has written the calls that came to an end.
* `TrackerRun.Lawful.closedBooks` — the calls of a run that has come to its end.
-/

/-! ### Calls and the reports that they come from -/

/-- Something in a list that is put together belongs to one of the parts. -/
theorem exists_of_flatMap_eq {α β : Type} {f : α → List β} {xs : List α} {earlier later : List β}
    {b : β} (split : xs.flatMap f = earlier ++ b :: later) :
    ∃ done x ahead before rest, xs = done ++ x :: ahead ∧ f x = before ++ b :: rest ∧
      earlier = done.flatMap f ++ before ∧ later = rest ++ ahead.flatMap f := by
  induction xs generalizing earlier with
  | nil => exact absurd (congrArg List.length split) (by simp)
  | cons x xs ih =>
    rw [List.flatMap_cons] at split
    rcases List.append_eq_append_iff.1 split with ⟨between, rfl, tail⟩ | ⟨rest, here, tail⟩
    · obtain ⟨done, y, ahead, before, rest, rfl, part, rfl, rfl⟩ := ih tail
      exact ⟨x :: done, y, ahead, before, rest, rfl, part, by simp, rfl⟩
    · cases rest with
      | cons first rest =>
        obtain ⟨rfl, rfl⟩ := List.cons.inj tail
        exact ⟨[], x, xs, earlier, rest, rfl, here, rfl, rfl⟩
      | nil =>
        -- the first part ends in front of it
        have next : xs.flatMap f = [] ++ b :: later := tail.symm
        obtain ⟨done, y, ahead, before, rest, rfl, part, empty, rfl⟩ := ih next
        refine ⟨x :: done, y, ahead, before, rest, rfl, part, ?_, rfl⟩
        rw [List.flatMap_cons, List.append_assoc, ← empty, here, List.append_nil, List.append_nil]

/-- The ledger of the calls is that of the reports. -/
theorem Ledger.ofCalls_flatMap (reports : List Report) :
    ofCalls (reports.flatMap Report.calls) = ofReports reports := by
  induction reports using List.reverseRecOn with
  | nil => rfl
  | append_singleton reports r ih =>
    rw [List.flatMap_append, List.flatMap_singleton, ofCalls_append, foldl_calls, ih,
      ofReports_append_singleton]

namespace Report

/-- Only a call that marks items as shown has another call of its report in front of it. -/
theorem before_eq_nil {r : Report} {before rest : List Call} {c : Call}
    (h : r.calls = before ++ c :: rest) (other : ∀ keys, c ≠ .shown keys) : before = [] := by
  cases before with
  | nil => rfl
  | cons d before =>
    cases quiet : r.isBatch with
    | false =>
      obtain ⟨e, alone⟩ := calls_of_not_batch quiet
      rw [alone] at h
      exact absurd (congrArg List.length h) (by simp)
    | true =>
      cases r with
      | visibility newly noLonger =>
        -- a batch has two calls at most, and the second one shows keys
        rw [calls_visibility] at h
        have behind := (List.cons.inj h).2
        split at behind
        · exact absurd (congrArg List.length behind) (by simp)
        · cases before with
          | nil => exact absurd (List.cons.inj behind).1.symm (other _)
          | cons e before => exact absurd (congrArg List.length behind) (by simp)
      | _ => cases quiet

/-- A batch comes from its report, and the call behind it too. -/
theorem eq_visibility_of_calls {r : Report} {before rest : List Call} {newly noLonger : List Record}
    (h : r.calls = before ++ .visibilityChanges newly noLonger :: rest) :
    r = .visibility newly noLonger ∧ before = [] ∧
      rest = if newly = [] then [] else [.shown (newly.map Record.key)] := by
  obtain rfl := before_eq_nil h nofun
  cases r with
  | visibility came went =>
    rw [calls_visibility] at h
    cases h
    exact ⟨rfl, rfl, rfl⟩
  | _ => cases h

/-- A call about expansion comes from its report. -/
theorem eq_expansion_of_calls {r : Report} {before rest : List Call} {k : ItemKey}
    {user expanded : Bool} {ordinal : UInt8}
    (h : r.calls = before ++ .expansionChanged k user expanded ordinal :: rest) :
    before = [] ∧ ∃ c, r = .expansion c ∧ c.key = k := by
  obtain rfl := before_eq_nil h nofun
  cases r with
  | expansion c =>
    cases h
    exact ⟨rfl, c, rfl, rfl⟩
  | _ => cases h

end Report

/-! ### Books -/

/-- Books can be kept from the calls: every batch fits the ledger before it and is followed at once
    by the call that marks the new items as shown, if there are any; an item that was expanded or
    collapsed is on the ledger; and in the end nobody is. -/
structure Call.ClosedBooks (calls : List Call) : Prop where
  fit : ∀ earlier newly noLonger later,
    calls = earlier ++ .visibilityChanges newly noLonger :: later →
      (Ledger.ofCalls earlier).Fits newly noLonger
  shown : ∀ earlier newly noLonger later,
    calls = earlier ++ .visibilityChanges newly noLonger :: later → newly ≠ [] →
      ∃ rest, later = .shown (newly.map Record.key) :: rest
  expanded : ∀ earlier k user expanded ordinal later,
    calls = earlier ++ .expansionChanged k user expanded ordinal :: later →
      k ∈ (Ledger.ofCalls earlier).keys
  closed : Ledger.ofCalls calls = ∅

/-- Reports whose batches fit, which speak of items on the ledger and which leave nobody on it. -/
theorem Call.closedBooks_of_reports {reports : List Report} (fit : AllFit reports)
    (expanded : ∀ earlier c later, reports = earlier ++ .expansion c :: later →
      c.key ∈ (Ledger.ofReports earlier).keys)
    (closed : Ledger.ofReports reports = ∅) : ClosedBooks (reports.flatMap Report.calls) := by
  -- each clause looks for the report behind a call and takes it from there
  refine ⟨?_, ?_, ?_, (Ledger.ofCalls_flatMap reports).trans closed⟩
  · intro earlier newly noLonger later split
    obtain ⟨done, r, ahead, before, rest, here, part, rfl, -⟩ := exists_of_flatMap_eq split
    obtain ⟨rfl, rfl, -⟩ := Report.eq_visibility_of_calls part
    rw [List.append_nil, Ledger.ofCalls_flatMap]
    exact (fit done newly noLonger ahead here).1
  · intro earlier newly noLonger later split nonempty
    obtain ⟨done, r, ahead, before, rest, -, part, -, rfl⟩ := exists_of_flatMap_eq split
    obtain ⟨-, -, rfl⟩ := Report.eq_visibility_of_calls part
    rw [if_neg nonempty]
    exact ⟨_, rfl⟩
  · intro earlier k user now ordinal later split
    obtain ⟨done, r, ahead, before, rest, here, part, rfl, -⟩ := exists_of_flatMap_eq split
    obtain ⟨rfl, c, rfl, rfl⟩ := Report.eq_expansion_of_calls part
    rw [List.append_nil, Ledger.ofCalls_flatMap]
    exact expanded done c ahead here

namespace Owner

/-- An item that is reported as expanded or collapsed is on the ledger by then. -/
theorem mem_ledger_of_expansion {interval : Nat} {acts : List Act}
    (allowed : (Owner.new interval).AllowsAll acts) {earlier later : List Report}
    {c : ExpansionChange}
    (here : (Owner.new interval).reports acts = earlier ++ .expansion c :: later) :
    c.key ∈ (Ledger.ofReports earlier).keys := by
  obtain ⟨done, a, ahead, before, rest, rfl, said, rfl, -⟩ := act_of_report here
  rw [allowsAll_append] at allowed
  have consistent := consistent_after allowed.1
  have spoken : .expansion c ∈ Output.reports (((Owner.new interval).after done).perform a).2 := by
    rw [said]
    simp
  obtain ⟨checked, m, rfl⟩ := consistent.eq_tick_of_change spoken
  exact mem_ledger_of_tick consistent (balanced_after allowed.1) said

/-- The calls of an owner that does not track any more. -/
theorem closedBooks {interval : Nat} {acts : List Act}
    (allowed : (Owner.new interval).AllowsAll acts)
    (stopped : ((Owner.new interval).after acts).started = false) :
    Call.ClosedBooks (((Owner.new interval).reports acts).flatMap Report.calls) :=
  Call.closedBooks_of_reports (balanced_after allowed).fit
    (fun _ _ _ here => mem_ledger_of_expansion allowed here)
    (closed_of_stopped allowed stopped).ledger

end Owner

/-! ### Numbers that fit words -/

/-- The numbers of the calls of the report fit words. -/
def Report.InWords (r : Report) : Prop := ∀ c ∈ r.calls, c.InWords

namespace Report

/-- Only a batch holds records, with numbers that might be too large. -/
theorem inWords_of_not_batch {r : Report} (h : r.isBatch = false) : r.InWords := by
  cases r with
  | visibility newly noLonger => cases h
  | expansion c => simp [InWords, calls, Call.InWords]
  | panelShown lockscreen items => simp [InWords, calls, Call.InWords]
  | itemError key message => simp [InWords, calls, Call.InWords]

/-- A batch of records within range is within range. -/
theorem inWords_batch {newly noLonger : List Record} (came : ∀ r ∈ newly, r.InWords)
    (went : ∀ r ∈ noLonger, r.InWords) : ∀ r ∈ batch newly noLonger, r.InWords := by
  intro r hr c hc
  rw [batch] at hr
  split at hr
  · cases hr
  · rw [List.mem_singleton.1 hr, calls_visibility] at hc
    rcases List.mem_cons.1 hc with rfl | behind
    · exact ⟨came, went⟩
    · -- behind the batch there is the list of those shown, if any, which has no numbers
      split at behind
      · cases behind
      · rw [List.mem_singleton.1 behind]
        trivial

end Report

/-- Positions in a list are less than its length. -/
theorem VisibleSet.inWords_of_mem_seen {candidates : List Candidate}
    (short : candidates.length < wordLimit) {r : Record} (h : r ∈ seen candidates) : r.InWords := by
  obtain ⟨c, first, same⟩ := mem_seen_iff.1 h
  have inside : Candidate.rankOf candidates r.key < candidates.length := by
    rw [Candidate.firstVisible?] at first
    have found : (c.visible && c.key == r.key) = true := by simpa using List.find?_some first
    exact List.findIdx_lt_length_of_exists ⟨c, List.mem_of_find?_eq_some first, found⟩
  rw [← same]
  exact ⟨Nat.lt_trans inside short, short⟩

/-- The list that the act reads, if it is a tick, is no longer than a word can count. -/
def Act.Short (a : Act) : Prop := ∀ checked m, a = .tick checked m → m.candidates.length < wordLimit

namespace Owner

/-- The numbers of the visible records fit words. -/
def InWords (o : Owner) : Prop := ∀ r ∈ o.visible.records, r.InWords

/-- Only a tick and a stop report batches. -/
theorem handle_quiet {o : Owner} {c : Command} (other : c ≠ .stop) (now : Instant)
    (candidates : List Candidate) :
    (o.handle now candidates c).1.visible = o.visible ∧
      ∀ r ∈ Output.reports (o.handle now candidates c).2, r.isBatch = false := by
  have silent : ∀ r ∈ ([] : List Report), r.isBatch = false := fun _ none =>
    absurd none List.not_mem_nil
  cases c with
  | stop => exact absurd rfl other
  | possibleChange => exact ⟨o.possibleChange_visible now, silent⟩
  | start lockscreen =>
    -- a start reports the panel and may ask for a tick; the set is that of before
    refine ⟨?_, fun r hr => by rw [List.mem_singleton.1 hr]; rfl⟩
    show (o.start now candidates lockscreen).1.visible = o.visible
    unfold start
    split
    · rfl
    · exact possibleChange_visible _ now
  | expansionChanged key user expanded =>
    refine ⟨rfl, ?_⟩
    rw [handle, Output.reports_map]
    exact Report.isBatch_of_mem_expansions _
  | itemError key message => exact ⟨rfl, fun r hr => by rw [List.mem_singleton.1 hr]; rfl⟩
  | _ => exact ⟨rfl, silent⟩

/-- A stop passes on the records that the owner has. -/
theorem stop_inWords {o : Owner} (h : o.InWords) :
    o.stop.1.InWords ∧ ∀ r ∈ Output.reports o.stop.2, r.InWords := by
  unfold stop
  split
  · constructor
    · show ∀ r ∈ o.visible.takeAll.1.records, r.InWords
      rw [VisibleSet.takeAll_set]
      exact nofun
    · show ∀ r ∈ Output.reports (o.visible.takeAll.2.toList.map _), r.InWords
      rw [reports_takeAll]
      exact Report.inWords_batch nofun fun r hr => h r (Record.mem_byRank.1 hr)
  · exact ⟨h, nofun⟩

/-- An act that reads a list of fewer candidates than a word can count stays within range. -/
theorem perform_inWords {o : Owner} (h : o.InWords) {a : Act} (short : a.Short) :
    (o.perform a).1.InWords ∧ ∀ r ∈ Output.reports (o.perform a).2, r.InWords := by
  cases a with
  | tick checked m =>
    have seen : ∀ r ∈ VisibleSet.seen m.candidates, r.InWords := fun r hr =>
      VisibleSet.inWords_of_mem_seen (short checked m rfl) hr
    refine ⟨seen, ?_⟩
    show ∀ r ∈ Output.reports (o.tick m.now m.candidates).2, r.InWords
    rw [reports_tick, List.forall_mem_append]
    -- a batch is made of what the tick sees and of what was seen before
    constructor
    · refine Report.inWords_batch (fun r hr => ?_) fun r hr => ?_
      · exact seen r ((VisibleSet.mem_newly_iff ..).1 hr).1
      · exact h r ((VisibleSet.mem_noLonger_iff ..).1 hr).1
    · exact fun r hr => Report.inWords_of_not_batch (Report.isBatch_of_mem_expansions _ r hr)
  | leave checked ticket => exact stop_inWords h
  | handle checked m c =>
    by_cases stop : c = .stop
    · subst stop
      exact stop_inWords h
    · obtain ⟨visible, quiet⟩ := o.handle_quiet stop m.now m.candidates
      refine ⟨?_, fun r hr => Report.inWords_of_not_batch (quiet r hr)⟩
      show ∀ r ∈ (o.handle m.now m.candidates c).1.visible.records, r.InWords
      rw [visible]
      exact h

/-- The numbers of everything that is reported fit words. -/
theorem inWords_reports {o : Owner} (h : o.InWords) {acts : List Act}
    (short : ∀ a ∈ acts, a.Short) : ∀ r ∈ o.reports acts, r.InWords := by
  induction acts generalizing o with
  | nil => exact nofun
  | cons a rest ih =>
    obtain ⟨first, others⟩ := List.forall_mem_cons.1 short
    obtain ⟨next, said⟩ := perform_inWords h first
    rw [reports_cons, List.forall_mem_append]
    exact ⟨said, ih next others⟩

end Owner

/-! ### What is written -/

/-- A sink that writes lines answers every call at once. -/
theorem LineSink.sink_prompt : LineSink.sink.Prompt := by
  intro s c
  simp only [LineSink.sink, LineSink.offer]
  split <;> simp

/-- The lines are those of the calls that came to an end, and there is always capacity for more. -/
def DeliveryRun.Written (run : DeliveryRun LineSink) : Prop :=
  run.sink.1 = ⟨none, run.ended.map LineSink.lineOf⟩

/-- A turn of the delivery writes at most one more line. -/
theorem DeliveryRun.Written.turned {run : DeliveryRun LineSink} (h : run.Written) :
    (run.next LineSink.sink .turned).Written := by
  cases hand : run.delivery.inHand with
  | nil =>
    rw [next_turned_of_free LineSink.sink hand]
    exact h
  | cons c rest =>
    rw [next_turned_of_call LineSink.sink_prompt hand]
    -- a sink without a limit has room for one line more
    have room : run.sink.1.HasRoom (0 + 1) := by
      rw [h]
      exact nofun
    have offered : LineSink.sink.offer run.sink.1 c = _ := LineSink.offer_of_hasRoom room c
    rw [Written, ended_of_log rfl, offered, h, List.map_append]
    rfl

namespace TrackerRun

/-- The lines of the run are those of the calls that came to an end. -/
def Written (run : TrackerRun LineSink) : Prop := run.back.Written

/-- Nothing is written yet, and no call was made. -/
theorem start_written (interval : Nat) (candidates : List Candidate) :
    (start interval candidates (LineSink.new none)).Written := rfl

/-- Whatever happens, there is one line for each call, in order. -/
theorem Written.moved {run : TrackerRun LineSink} (h : run.Written) (m : Move) :
    (run.next LineSink.sink (.moved m)).Written := by
  show (run.recorded LineSink.sink m).back.Written
  unfold recorded
  split
  · -- the delivery hears something, and makes no call
    rw [DeliveryRun.Written, DeliveryRun.ended, DeliveryRun.sink_foldl_hear]
    exact h
  · split
    · exact DeliveryRun.Written.turned h
    · exact h

namespace Lawful

variable {interval : Nat}

/-- The lines of a tracker are those of its calls. -/
theorem lines_eq {run : TrackerRun LineSink} (h : run.Lawful interval) (written : run.Written) :
    run.tracker.sink.1.lines = run.calls.map LineSink.lineOf := by
  rw [h.faithful.sink, h.calls_eq, written]

variable {σ : Type} {run : TrackerRun σ}

/-- Books can be kept from the calls of a run whose owner has ended. -/
theorem closedBooks (h : run.Lawful interval) (atEnd : run.front.loop.phase = .ended) :
    Call.ClosedBooks run.calls := by
  have accounted := h.recorded.accounted
  have closed : run.front.loop.isOpen = false := by rw [Loop.isOpen, atEnd]
  rw [(h.delivered_of_ended atEnd).1]
  refine Owner.closedBooks accounted.allowed ?_
  rw [acts, accounted.owner]
  exact accounted.stopped closed

/-- The numbers of all these calls fit words if no list was too long. -/
theorem inWords_calls (h : run.Lawful interval) (atEnd : run.front.loop.phase = .ended)
    (short : ∀ a ∈ run.acts, a.Short) : ∀ c ∈ run.calls, c.InWords := by
  rw [(h.delivered_of_ended atEnd).1]
  intro c hc
  obtain ⟨r, hr, hc⟩ := List.mem_flatMap.1 hc
  have vacant : (Owner.new interval).InWords := nofun
  exact Owner.inWords_reports vacant short r hr c hc

end Lawful

end TrackerRun

end OnScreen
