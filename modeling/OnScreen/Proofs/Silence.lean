import OnScreen.Proofs.Consistency

namespace OnScreen

/-!
# Stopped means silent

While tracking is stopped nothing starts it but a start command.  Until one is handled no tick runs,
whatever else is asked for and however much time passes, and the only reports are those about items
that failed to load.  Stopping says nothing to the expansion states; they are silent because no item
is ever taken for visible between two acts.

* `Act.starts` — the acts that can end the silence.
* `Silent` — no tick, and no reports but those about failed items.
* `Owner.silent_of_stopped` — acts that start nothing are silent.
* `stopped_is_silent` — the same at every point of every run.
-/

/-- The act is the handling of a start command. -/
def Act.starts : Act → Bool
  | handle _ _ (.start _) => true
  | tick _ _ | handle _ _ _ | leave _ _ => false

/-- From `o` on, the acts run no tick and report nothing but items that failed to load. -/
structure Silent (o : Owner) (acts : List Act) : Prop where
  no_tick : ∀ a ∈ acts, a.isTick = false
  ticks : (o.after acts).ticks = o.ticks
  reports : ∀ r ∈ o.reports acts, ∃ key message, r = .itemError key message

namespace Owner

/-! ### One act -/

/-- An item is expanded or collapsed in silence, for no item is taken for visible. -/
theorem Consistent.expansionChanged_quiet {o : Owner} (h : o.Consistent) (now : Instant)
    (candidates : List Candidate) (key : ItemKey) (user expanded : Bool) :
    (o.handle now candidates (.expansionChanged key user expanded)).2 = [] := by
  have silence := Expansions.expand_change_eq_none (h.unseen key) user expanded
    (Candidate.kindOf candidates key)
  show List.map _ (o.expansions.expand key user expanded _).2.toList = []
  rw [silence]
  rfl

/-- A stopped owner stays as it was at a stop. -/
theorem stop_of_stopped {o : Owner} (stopped : o.started = false) : o.stop = (o, []) := by
  rw [stop, if_neg (by simp [stopped])]

/-- What a stopped owner does about any command but a start: it stays stopped and all but silent. -/
theorem Consistent.handle_of_stopped {o : Owner} (h : o.Consistent) (stopped : o.started = false)
    (now : Instant) (candidates : List Candidate) {c : Command}
    (other : ∀ lockscreen, c ≠ .start lockscreen) :
    (o.handle now candidates c).1.started = false ∧
      (o.handle now candidates c).1.ticks = o.ticks ∧
      ∀ r ∈ Output.reports (o.handle now candidates c).2,
        ∃ key message, r = .itemError key message := by
  cases c with
  | possibleChange =>
    -- a stopped owner ignores the signal
    rw [Owner.handle, Owner.possibleChange, if_neg (by simp [stopped])]
    exact ⟨stopped, rfl, nofun⟩
  | start lockscreen => exact absurd rfl (other lockscreen)
  | stop =>
    rw [Owner.handle, stop_of_stopped stopped]
    exact ⟨stopped, rfl, nofun⟩
  | expansionChanged key user expanded =>
    -- nothing is visible, so no change is reported
    rw [h.expansionChanged_quiet]
    exact ⟨stopped, rfl, nofun⟩
  | itemError key message =>
    exact ⟨stopped, rfl, fun r hr => ⟨key, message, List.mem_singleton.1 hr⟩⟩
  | entryRemoved key => exact ⟨stopped, rfl, nofun⟩
  | entryUpdated key => exact ⟨stopped, rfl, nofun⟩
  | flush ticket => exact ⟨stopped, rfl, nofun⟩
  | query ticket => exact ⟨stopped, rfl, nofun⟩
  | shutdown ticket => exact ⟨stopped, rfl, nofun⟩

/-- An act of a stopped owner that starts nothing leaves it stopped, and is silent. -/
theorem Consistent.perform_of_stopped {o : Owner} (h : o.Consistent) (stopped : o.started = false)
    {a : Act} (allowed : o.Allows a) (quiet : a.starts = false) :
    (o.perform a).1.started = false ∧ Silent o [a] := by
  cases a with
  | tick checked m =>
    -- a tick is due only while tracking runs
    have running := h.started_of_due allowed
    simp [stopped] at running
  | handle checked m c =>
    have other : ∀ lockscreen, c ≠ .start lockscreen := by
      rintro lockscreen rfl
      cases quiet
    obtain ⟨still, ticks, reports⟩ := h.handle_of_stopped stopped m.now m.candidates other
    refine ⟨still, by simp [Act.isTick], ticks, ?_⟩
    rw [reports_singleton]
    exact reports
  | leave checked ticket =>
    have same : o.perform (.leave checked ticket) = (o, []) := stop_of_stopped stopped
    refine ⟨by rw [same]; exact stopped, by simp [Act.isTick], ?_, ?_⟩
    · rw [after_singleton, same]
    · rw [reports_singleton, same]
      exact nofun

/-! ### Many acts -/

/-- Acts of a stopped owner that start nothing are silent. -/
theorem silent_of_stopped {o : Owner} (h : o.Consistent) (stopped : o.started = false)
    {acts : List Act} (allowed : o.AllowsAll acts) (quiet : ∀ a ∈ acts, a.starts = false) :
    Silent o acts := by
  induction acts generalizing o with
  | nil => exact ⟨nofun, rfl, nofun⟩
  | cons a rest ih =>
    obtain ⟨first, later⟩ := allowed
    obtain ⟨still, silent⟩ := h.perform_of_stopped stopped first (quiet a (by simp))
    -- the first act leaves the owner stopped, so the rest is silent from there
    have after := ih (perform_consistent o a h first) still later
      fun b hb => quiet b (List.mem_cons_of_mem a hb)
    refine ⟨?_, after.ticks.trans silent.ticks, ?_⟩
    · intro b hb
      rcases List.mem_cons.1 hb with rfl | hb
      · exact silent.no_tick b (by simp)
      · exact after.no_tick b hb
    · rw [← List.singleton_append, reports_append]
      intro r hr
      rcases List.mem_append.1 hr with hr | hr
      · exact silent.reports r hr
      · exact after.reports r hr

end Owner

/-! ### Runs of the loop -/

/-- **Stopped means silent.**  At every point of every run: if tracking is stopped then no tick is
    pending, nothing is visible, and what follows is silent until a start command is handled; and
    whether it is stopped or not, no item is taken for visible by the expansion states, so that
    handling an expansion says nothing by itself. -/
theorem stopped_is_silent (interval : Nat) (events : List Event) (done ahead : List Act)
    (split : (Run.of interval events).acts = done ++ ahead) :
    let o := (Owner.new interval).after done
    (Run.of interval events).reports = (Owner.new interval).reports done ++ o.reports ahead ∧
    (o.started = false → o.schedule.pending = none ∧ o.visible = ∅ ∧
      ((∀ a ∈ ahead, a.starts = false) → Silent o ahead)) ∧
    (∀ k s, o.expansions.states.get? k = some s → s.visible ≠ some true) ∧
    (∀ checked m key user expanded,
      (o.perform (.handle checked m (.expansionChanged key user expanded))).2 = []) := by
  intro o
  -- the run passes through `o`, and only allowed acts lead there and on from there
  obtain ⟨before, later, words⟩ := Run.reports_of_acts_eq split
  have h : o.Consistent := Owner.consistent_after before
  refine ⟨words, fun stopped => ⟨h.idle stopped, h.vacant stopped, ?_⟩, fun k s known => ?_, ?_⟩
  · exact Owner.silent_of_stopped h stopped later
  · have unseen := h.unseen k
    rwa [Expansions.stateOf, known] at unseen
  · intro checked m key user expanded
    exact h.expansionChanged_quiet m.now m.candidates key user expanded

/-- An item that was visible and expanded before a stop is collapsed in silence after it. -/
theorem stopped_is_silent_collapse :
    let key : ItemKey := ⟨"a"⟩
    let m : Moment := ⟨0, [⟨key, true, none⟩]⟩
    let sent : List Command :=
      [.expansionChanged key true true, .start false, .stop, .expansionChanged key true false]
    let events := sent.map .sent ++ .replicate 9 (.turned .command (.still 0 m.candidates))
    let done : List Act :=
      [.handle 0 m (.expansionChanged key true true), .handle 0 m (.start false), .tick 0 m,
        .handle 0 m .stop]
    let ahead : List Act := [.handle 0 m (.expansionChanged key true false)]
    (Run.of 500 events).acts = done ++ ahead ∧ ((Owner.new 500).after done).started = false ∧
      Silent ((Owner.new 500).after done) ahead := by
  intro key m sent events done ahead
  have split : (Run.of 500 events).acts = done ++ ahead := by decide +kernel
  have stopped : ((Owner.new 500).after done).started = false := by decide +kernel
  obtain ⟨-, silence, -, -⟩ := stopped_is_silent 500 events done ahead split
  exact ⟨split, stopped, (silence stopped).2.2 (by simp [ahead, Act.starts])⟩

end OnScreen
