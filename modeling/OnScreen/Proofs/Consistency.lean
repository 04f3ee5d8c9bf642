import OnScreen.Proofs.Diff
import OnScreen.Proofs.Expansion
import OnScreen.Proofs.Run

namespace OnScreen

/-!
# What always holds of the owner

While tracking is stopped no tick is pending and nothing is visible; the visible items have
different keys; and no item is taken for visible between two acts, because a tick lets every item
that it sees go away again.

* `Owner.Consistent` — these facts.
* `Owner.perform_consistent` — every allowed act keeps them.
* `Owner.consistent_after` — they hold at every point of every run.
-/

namespace Owner

/-- What holds of the owner between any two acts. -/
structure Consistent (o : Owner) : Prop where
  idle : o.started = false → o.schedule.pending = none
  vacant : o.started = false → o.visible = ∅
  distinct : o.visible.keys.Nodup
  unseen : ∀ k, (o.expansions.stateOf k).visible ≠ some true

/-- A new owner has seen nothing and waits for nothing. -/
theorem consistent_new (interval : Nat) : (Owner.new interval).Consistent where
  idle _ := rfl
  vacant _ := rfl
  distinct := List.nodup_nil
  unseen _ := nofun

/-- A tick is due only while tracking runs. -/
theorem Consistent.started_of_due {o : Owner} (h : o.Consistent) {checked : Instant}
    (due : o.schedule.isDue checked = true) : o.started = true := by
  by_contra stopped
  rw [Schedule.isDue, h.idle (Bool.not_eq_true _ ▸ stopped)] at due
  cases due

/-! ### Act by act -/

/-- A change signal touches the schedule alone, and that only while tracking runs. -/
theorem Consistent.possibleChange {o : Owner} (h : o.Consistent) (now : Instant) :
    (o.possibleChange now).Consistent := by
  unfold Owner.possibleChange
  split
  · next running =>
    have impossible : o.started = false → False := fun stopped => by simp [stopped] at running
    exact ⟨fun stopped => (impossible stopped).elim, h.vacant, h.distinct, h.unseen⟩
  · exact h

/-- New expansion states are harmless as long as they take nothing for visible. -/
theorem Consistent.withExpansions {o : Owner} (h : o.Consistent) {x : Expansions}
    (unseen : ∀ k, (x.stateOf k).visible ≠ some true) :
    ({ o with expansions := x } : Owner).Consistent :=
  ⟨h.idle, h.vacant, h.distinct, unseen⟩

/-- A start arms a tick at most, and tracking is on then. -/
theorem Consistent.start {o : Owner} (h : o.Consistent) (now : Instant)
    (candidates : List Candidate) (lockscreen : Bool) :
    (o.start now candidates lockscreen).1.Consistent := by
  unfold Owner.start
  split
  · exact h
  · -- the flag goes up first, and then a change signal is taken
    have started : ({ o with started := true } : Owner).Consistent :=
      ⟨nofun, nofun, h.distinct, h.unseen⟩
    exact started.possibleChange now

/-- A stop leaves nothing visible and nothing pending. -/
theorem Consistent.stop {o : Owner} (h : o.Consistent) : o.stop.1.Consistent := by
  unfold Owner.stop
  split
  · -- stopping tells the expansion states nothing, and need not
    refine ⟨fun _ => rfl, fun _ => o.visible.takeAll_set, ?_, h.unseen⟩
    show o.visible.takeAll.1.keys.Nodup
    rw [VisibleSet.takeAll_set]
    exact List.nodup_nil
  · exact h

/-- After a tick no item is taken for visible, whatever the list was. -/
theorem Consistent.tick {o : Owner} (h : o.Consistent) (started : o.started = true)
    (now : Instant) (candidates : List Candidate) : (o.tick now candidates).1.Consistent := by
  have impossible : (o.tick now candidates).1.started = false → False := by
    show o.started = false → False
    simp [started]
  refine ⟨fun stopped => (impossible stopped).elim, fun stopped => (impossible stopped).elim,
    VisibleSet.nodup_keys_seen candidates, fun k => ?_⟩
  show ((o.expansions.turn _ _).1.stateOf k).visible ≠ some true
  -- whatever appears in the turn goes away in the same turn
  rw [Expansions.visible_turn_self]
  split
  · exact nofun
  · exact h.unseen k

/-- No command makes an owner inconsistent. -/
theorem Consistent.handle {o : Owner} (h : o.Consistent) (now : Instant)
    (candidates : List Candidate) (c : Command) : (o.handle now candidates c).1.Consistent := by
  cases c with
  | possibleChange => exact h.possibleChange now
  | start lockscreen => exact h.start now candidates lockscreen
  | stop => exact h.stop
  | expansionChanged key user expanded =>
    show ({ o with expansions := (o.expansions.expand key user expanded _).1 } : Owner).Consistent
    refine h.withExpansions fun k => ?_
    -- an expansion says nothing about visibility
    rw [Expansions.stateOf_expand]
    split
    · exact h.unseen key
    · exact h.unseen k
  | entryRemoved key =>
    refine h.withExpansions fun k => ?_
    -- of what was removed nothing is known, visibility included
    rw [Expansions.stateOf_remove]
    split
    · exact nofun
    · exact h.unseen k
  | entryUpdated key => exact h.withExpansions h.unseen
  | itemError key message => exact h
  | flush ticket => exact h
  | query ticket => exact h
  | shutdown ticket => exact h

/-- Every act that comes at the right time keeps the owner consistent. -/
theorem perform_consistent (o : Owner) (a : Act) (h : o.Consistent) (allowed : o.Allows a) :
    (o.perform a).1.Consistent := by
  cases a with
  | tick checked m => exact h.tick (h.started_of_due allowed) m.now m.candidates
  | handle checked m c => exact h.handle m.now m.candidates c
  | leave checked ticket => exact h.stop

/-- The owner is consistent after any acts that came at the right time. -/
theorem consistent_after {interval : Nat} {acts : List Act}
    (allowed : (Owner.new interval).AllowsAll acts) :
    ((Owner.new interval).after acts).Consistent :=
  after_keeps perform_consistent acts (consistent_new interval) allowed

end Owner

end OnScreen
