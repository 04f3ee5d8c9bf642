import OnScreen.Proofs.Balance
import OnScreen.Tracker

namespace OnScreen

/-!
# The owner keeps the books

Each act of the owner reports who came and who went in one batch at most, and before anything else.
So at every point of every run the ledger of the reports agrees with the visible set, and it is
empty whenever tracking is stopped.

* `Owner.perform_tells` — what the reports of one act say.
* `Owner.balanced_after` — the history of reports stays balanced, whatever the owner does.
* `ledger_follows_visible_set` — the same for runs of the loop, up to their end.
-/

namespace Owner

/-! ### What one act reports -/

/-- The words on the way to `next` begin with a batch that says who came and who went, if anyone
    did, and hold no other batch. -/
def Tells (o : Owner) (next : Owner × List Output) : Prop :=
  ∃ newly noLonger rest, VisibleSet.Turnover o.visible next.1.visible newly noLonger ∧
    Output.reports next.2 = Report.batch newly noLonger ++ rest ∧ ∀ r ∈ rest, r.isBatch = false

/-- Nothing has to be told when nobody comes or goes. -/
theorem tells_of_quiet {o : Owner} {next : Owner × List Output}
    (same : next.1.visible = o.visible)
    (quiet : ∀ r ∈ Output.reports next.2, r.isBatch = false) : o.Tells next :=
  ⟨[], [], Output.reports next.2, same ▸ VisibleSet.turnover_refl _, rfl, quiet⟩

/-- A change signal leaves the visible set alone. -/
@[simp] theorem possibleChange_visible (o : Owner) (now : Instant) :
    (o.possibleChange now).visible = o.visible := by
  unfold possibleChange
  split <;> rfl

/-- A start reports the panel, and no batch. -/
theorem start_tells (o : Owner) (now : Instant) (candidates : List Candidate)
    (lockscreen : Bool) : o.Tells (o.start now candidates lockscreen) := by
  refine tells_of_quiet ?_ fun r hr => ?_
  · unfold start
    split
    · rfl
    · exact possibleChange_visible _ now
  · rw [List.mem_singleton.1 hr]
    rfl

/-- The words that report a batch, or nothing when there is nothing to say. -/
theorem reports_batch (newly noLonger : List Record) :
    Output.reports (if newly.isEmpty && noLonger.isEmpty then []
      else [.report (.visibility newly noLonger)]) = Report.batch newly noLonger := by
  rw [Report.batch]
  split <;> rfl

/-- Taking leave reports everything that was visible, if there was anything. -/
theorem reports_takeAll (s : VisibleSet) :
    Output.reports (s.takeAll.2.toList.map fun d => .report (.visibility d.newly d.noLonger)) =
      Report.batch [] (Record.byRank s.records) := by
  rw [VisibleSet.takeAll]
  split
  · next none => simp [Report.batch, none, Output.reports]
  · next some => simp [Report.batch, some, Output.reports]

/-- A stop reports everything that was visible as gone. -/
theorem stop_tells {o : Owner} (h : o.Consistent) : o.Tells o.stop := by
  unfold stop
  split
  · -- everything that is visible goes, and nothing comes
    refine ⟨[], Record.byRank o.visible.records, [], ?_, ?_, nofun⟩
    · show VisibleSet.Turnover o.visible o.visible.takeAll.1 _ _
      rw [VisibleSet.takeAll_set]
      exact VisibleSet.takeAll_turnover h.distinct
    · rw [List.append_nil]
      exact reports_takeAll o.visible
  · exact tells_of_quiet rfl nofun

/-- What a tick finds expanded or collapsed: the items that it sees appear and go away again. -/
def changes (o : Owner) (candidates : List Candidate) : List ExpansionChange :=
  (o.expansions.turn (VisibleSet.seen candidates) (VisibleSet.seen candidates)).2

/-- The reports of a tick: the batch, and then what has been expanded or collapsed. -/
theorem reports_tick (o : Owner) (now : Instant) (candidates : List Candidate) :
    Output.reports (o.tick now candidates).2 =
      Report.batch (o.visible.tick candidates).2.newly (o.visible.tick candidates).2.noLonger ++
        (o.changes candidates).map Report.expansion := by
  rw [changes, ← VisibleSet.tick_current o.visible candidates, ← Output.reports_map,
    ← reports_batch, tick, ← Output.reports_append]
  rfl

/-- A tick reports the difference between what it sees and what was visible. -/
theorem tick_tells {o : Owner} (h : o.Consistent) (now : Instant) (candidates : List Candidate) :
    o.Tells (o.tick now candidates) := by
  have turnover := VisibleSet.tick_turnover h.distinct candidates
  exact ⟨_, _, _, turnover, o.reports_tick now candidates, Report.isBatch_of_mem_expansions _⟩

/-- Whatever command is handled, its reports say who came and who went. -/
theorem handle_tells {o : Owner} (h : o.Consistent) (now : Instant) (candidates : List Candidate)
    (c : Command) : o.Tells (o.handle now candidates c) := by
  cases c with
  -- only a stop empties the set; the others leave it alone and report no batch
  | possibleChange => exact tells_of_quiet (o.possibleChange_visible now) nofun
  | start lockscreen => exact o.start_tells now candidates lockscreen
  | stop => exact stop_tells h
  | expansionChanged key user expanded =>
    refine tells_of_quiet rfl ?_
    rw [handle, Output.reports_map]
    exact Report.isBatch_of_mem_expansions _
  | itemError key message =>
    refine tells_of_quiet rfl fun r hr => ?_
    rw [List.mem_singleton.1 hr]
    rfl
  | entryRemoved key => exact tells_of_quiet rfl nofun
  | entryUpdated key => exact tells_of_quiet rfl nofun
  | flush ticket => exact tells_of_quiet rfl nofun
  | query ticket => exact tells_of_quiet rfl nofun
  | shutdown ticket => exact tells_of_quiet rfl nofun

/-- The reports of every act say who came and who went. -/
theorem perform_tells {o : Owner} (h : o.Consistent) (a : Act) : o.Tells (o.perform a) := by
  cases a with
  | tick checked m => exact tick_tells h m.now m.candidates
  | handle checked m c => exact handle_tells h m.now m.candidates c
  | leave checked ticket => exact stop_tells h

/-! ### The whole history -/

/-- A history stays balanced when it grows by reports that say who came and who went. -/
theorem Tells.balanced {o : Owner} {next : Owner × List Output} (tells : o.Tells next)
    {reports : List Report} (h : Balanced o.visible reports) :
    Balanced next.1.visible (reports ++ Output.reports next.2) := by
  obtain ⟨newly, noLonger, rest, turnover, same, quiet⟩ := tells
  rw [same, ← List.append_assoc]
  exact (h.append_batch? turnover).append_all_quiet quiet

/-- The reports of a new owner balance with what it takes for visible, whatever it does. -/
theorem balanced_after {interval : Nat} {acts : List Act}
    (allowed : (Owner.new interval).AllowsAll acts) :
    Balanced ((Owner.new interval).after acts).visible ((Owner.new interval).reports acts) := by
  induction acts using List.reverseRecOn with
  | nil => exact Balanced.nil
  | append_singleton acts a ih =>
    rw [allowsAll_append] at allowed
    rw [after_append, reports_append, after_singleton, reports_singleton]
    -- the last act is told from where the others have led
    exact (perform_tells (consistent_after allowed.1) a).balanced (ih allowed.1)

/-- The books are closed while tracking is stopped. -/
theorem closed_of_stopped {interval : Nat} {acts : List Act}
    (allowed : (Owner.new interval).AllowsAll acts)
    (stopped : ((Owner.new interval).after acts).started = false) :
    Closed ((Owner.new interval).reports acts) := by
  have balanced := balanced_after allowed
  rw [(consistent_after allowed).vacant stopped] at balanced
  exact balanced.closed

end Owner

/-! ### Runs of the loop -/

/-- **The ledger follows the visible set.**  At every point of every run the reports so far balance
    with the visible set, whose size the status tells.  The books are closed after every stop that
    was handled, and once the loop takes no more commands, whether it was shut down or abandoned. -/
theorem ledger_follows_visible_set (interval : Nat) (events : List Event) :
    let run := Run.of interval events
    let owner := Owner.new interval
    (owner.after run.acts = run.loop.owner ∧ owner.reports run.acts = run.reports) ∧
    (∀ done, done <+: run.acts →
      Balanced (owner.after done).visible (owner.reports done) ∧
      (∀ (σ : Type) (t : Tracker σ), t.loop.owner = owner.after done →
        t.status.visible = (Ledger.ofReports (owner.reports done)).keys.length) ∧
      (∀ earlier checked m, done = earlier ++ [.handle checked m .stop] →
        Closed (owner.reports done))) ∧
    (run.loop.isOpen = false → Closed run.reports) := by
  intro run owner
  have accounted := Run.of_accounted interval events
  have words : owner.reports run.acts = run.reports := congrArg Output.reports accounted.said
  refine ⟨⟨accounted.owner, words⟩, ?_, fun ended => ?_⟩
  · rintro done ⟨ahead, split⟩
    have allowed := (Run.reports_of_acts_eq split.symm).1
    have balanced := Owner.balanced_after allowed
    refine ⟨balanced, fun σ t here => ?_, ?_⟩
    · rw [balanced.size (Owner.consistent_after allowed).distinct, ← here]
      rfl
    · rintro earlier checked m rfl
      refine Owner.closed_of_stopped allowed ?_
      rw [Owner.after_append]
      exact Owner.stop_started _
  · -- the loop was left by a stop, so the owner has not been running since
    rw [← words]
    refine Owner.closed_of_stopped accounted.allowed ?_
    rw [accounted.owner]
    exact accounted.stopped ended

/-- An item comes with the first tick and goes with the stop: the books are open in between. -/
theorem ledger_follows_visible_set_one_visit :
    let turn : Event := .turned .command (.still 0 [⟨⟨"a"⟩, true, none⟩])
    let events : List Event := [.sent (.start false), turn, turn, turn, turn, .sent .stop, turn]
    let run := Run.of 500 events
    let owner := Owner.new 500
    let item : Record := ⟨⟨"a"⟩, 0, 1, true, .unknown⟩
    run.reports = [.panelShown false [⟨"a"⟩], .visibility [item] [], .visibility [] [item]] ∧
    (let ticked := run.acts.take 2
     (Ledger.ofReports (owner.reports ticked)).keys = [⟨"a"⟩] ∧
      Balanced (owner.after ticked).visible (owner.reports ticked)) ∧
    Closed (owner.reports run.acts) := by
  intro turn events run owner item
  obtain ⟨-, books, -⟩ := ledger_follows_visible_set 500 events
  have stopped : run.acts = run.acts.take 2 ++ [.handle 0 ⟨0, [⟨⟨"a"⟩, true, none⟩]⟩ .stop] := by
    decide +kernel
  exact ⟨by decide +kernel, ⟨by decide +kernel, (books _ (List.take_prefix 2 run.acts)).1⟩,
    (books _ List.prefix_rfl).2.2 _ _ _ stopped⟩

end OnScreen
