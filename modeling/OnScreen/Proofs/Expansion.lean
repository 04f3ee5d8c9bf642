import Mathlib.Data.List.Basic
import OnScreen.Expansion

namespace OnScreen

/-!
# What the signals do to expansion states

Every operation is described by what it does to the state of one key, to the report remembered for
it, and by the change it makes.  Later proofs use these laws and never look inside the maps.

* `Expansions.change?_eq_some_iff` — when a change is made, and what it says.
* `Expansions.appearAll_changes` — items with different keys are judged independently.
* `Expansions.expanded_turn`, `Expansions.visible_turn_self` — a turn in which the same items appear
  and go away forgets nothing and leaves none of them visible.
-/

namespace Expansions

/-! ### One key at a time -/

/-- Where one state was set and the others stayed, the states are those. -/
theorem stateOf_set (x : Expansions) (states : KeyMap ExpansionState) (s : ExpansionState)
    (k j : ItemKey) (h : x.states = states.set k s) :
    x.stateOf j = if j = k then s else (states.get? j).getD .blank := by
  rw [stateOf, h, KeyMap.get?_set]
  split <;> rfl

/-- Judging an item gives it its new state. -/
theorem states_evaluate (x : Expansions) (k : ItemKey) (s : ExpansionState) :
    (x.evaluate k s).1.states = x.states.set k s := by
  simp only [evaluate]
  split <;> rfl

/-- Judging an item changes what is known of this item only. -/
theorem stateOf_evaluate (x : Expansions) (k j : ItemKey) (s : ExpansionState) :
    (x.evaluate k s).1.stateOf j = if j = k then s else x.stateOf j :=
  stateOf_set _ x.states s k j (x.states_evaluate k s)

/-- The change that judging an item makes. -/
theorem evaluate_change (x : Expansions) (k : ItemKey) (s : ExpansionState) :
    (x.evaluate k s).2 = change? k s (x.reported.get? k) := by
  simp only [evaluate]
  split
  · next c hc => exact hc.symm
  · next hc => exact hc.symm

/-- Judging an item leaves the reports of other items alone. -/
theorem reported_evaluate_of_ne (x : Expansions) {k j : ItemKey} (s : ExpansionState)
    (h : j ≠ k) : (x.evaluate k s).1.reported.get? j = x.reported.get? j := by
  simp only [evaluate]
  split
  · rw [KeyMap.get?_set, if_neg h]
  · rfl

/-- What is remembered of a judged item is the change that was made, or what was remembered before.
    -/
theorem reported_evaluate (x : Expansions) (k : ItemKey) (s : ExpansionState) :
    (x.evaluate k s).1.reported.get? k =
      ((x.evaluate k s).2.map ExpansionChange.expanded).or (x.reported.get? k) := by
  simp only [evaluate]
  split
  · rw [KeyMap.get?_set, if_pos rfl]
    rfl
  · rfl

/-- A change is made of an item that is visible, completely known and not what was reported last,
    and it says what is known. -/
theorem change?_eq_some_iff {k : ItemKey} {s : ExpansionState} {last : Option Bool}
    {c : ExpansionChange} :
    change? k s last = some c ↔ s.visible = some true ∧ c.key = k ∧
      s.userAction = some c.userAction ∧ s.expanded = some c.expanded ∧
      s.location = some c.location ∧ c.expanded ≠ last.getD false := by
  obtain ⟨user, expanded, visible, location⟩ := s
  obtain ⟨key, user', expanded', location'⟩ := c
  unfold change?
  constructor
  · intro h
    split at h
    · -- the item is visible, and all else of it is known
      next hu he hv hl =>
      simp only at hu he hv hl
      split at h
      · cases h
      · next differs =>
        simp only [Option.some.injEq, ExpansionChange.mk.injEq] at h
        obtain ⟨rfl, rfl, rfl, rfl⟩ := h
        exact ⟨hv, rfl, hu, he, hl, differs⟩
    · cases h
  · simp only
    rintro ⟨rfl, rfl, rfl, rfl, rfl, differs⟩
    simp only [if_neg differs]

/-- The change that an item makes by appearing. -/
theorem appear_change (x : Expansions) (r : Record) :
    (x.appear r).2 = change? r.key
      { x.stateOf r.key with visible := some true, location := some r.location }
      (x.reported.get? r.key) :=
  evaluate_change _ _ _

/-- The change of an item names it. -/
theorem appear_key {x : Expansions} {r : Record} {c : ExpansionChange}
    (h : (x.appear r).2 = some c) : c.key = r.key := by
  rw [appear_change] at h
  exact (change?_eq_some_iff.1 h).2.1

/-- The change of an item that appears says where the item is and what was known of its
    expansion. -/
theorem appear_says {x : Expansions} {r : Record} {c : ExpansionChange}
    (h : (x.appear r).2 = some c) :
    c.location = r.location ∧ (x.stateOf r.key).expanded = some c.expanded := by
  rw [appear_change] at h
  obtain ⟨-, -, -, he, hl, -⟩ := change?_eq_some_iff.1 h
  exact ⟨(Option.some.inj hl).symm, he⟩

/-- An item that appears is visible at the place of its record; other items stay as they were. -/
theorem stateOf_appear (x : Expansions) (r : Record) (j : ItemKey) :
    (x.appear r).1.stateOf j = if j = r.key then
      { x.stateOf r.key with visible := some true, location := some r.location }
    else x.stateOf j :=
  stateOf_evaluate _ _ _ _

/-- An item that vanishes is not visible, and all else about it stays. -/
theorem stateOf_vanish (x : Expansions) (r : Record) (j : ItemKey) :
    (x.vanish r).stateOf j = if j = r.key then
      { x.stateOf r.key with visible := some false }
    else x.stateOf j :=
  stateOf_set _ _ _ _ _ rfl

/-- An item that is expanded or collapsed is so at a place, by the user or not; whether it is
    visible is not asked. -/
theorem stateOf_expand (x : Expansions) (k j : ItemKey) (user expanded : Bool)
    (location : LocationKind) :
    (x.expand k user expanded location).1.stateOf j = if j = k then
      { x.stateOf k with
        userAction := some user, expanded := some expanded, location := some location }
    else x.stateOf j :=
  stateOf_evaluate _ _ _ _

/-- An item that is not visible is expanded or collapsed in silence. -/
theorem expand_change_eq_none {x : Expansions} {k : ItemKey}
    (h : (x.stateOf k).visible ≠ some true) (user expanded : Bool) (location : LocationKind) :
    (x.expand k user expanded location).2 = none := by
  rw [expand, evaluate_change, Option.eq_none_iff_forall_ne_some]
  intro c hc
  exact h (change?_eq_some_iff.1 hc).1

/-- Nothing is known of an item that was removed. -/
theorem stateOf_remove (x : Expansions) (k j : ItemKey) :
    (x.remove k).stateOf j = if j = k then .blank else x.stateOf j := by
  simp only [remove, stateOf, KeyMap.get?_erase]
  split <;> rfl

/-- Nothing counts as reported of an item that was removed, so it may be reported again. -/
theorem reported_remove (x : Expansions) (k j : ItemKey) :
    (x.remove k).reported.get? j = if j = k then none else x.reported.get? j :=
  KeyMap.get?_erase _ _ _

/-- Nor of one that was updated. -/
theorem reported_update (x : Expansions) (k j : ItemKey) :
    (x.update k).reported.get? j = if j = k then none else x.reported.get? j :=
  KeyMap.get?_erase _ _ _

/-- An update changes nothing that is known. -/
@[simp] theorem stateOf_update (x : Expansions) (k j : ItemKey) :
    (x.update k).stateOf j = x.stateOf j := rfl

/-! ### Many items -/

/-- Items that go away are no longer visible, and nothing else changes. -/
theorem stateOf_foldl_vanish (x : Expansions) (gone : List Record) (j : ItemKey) :
    (gone.foldl vanish x).stateOf j = if j ∈ gone.map Record.key then
      { x.stateOf j with visible := some false }
    else x.stateOf j := by
  induction gone generalizing x with
  | nil => rfl
  | cons r rest ih =>
    rw [List.foldl_cons, ih, stateOf_vanish, List.map_cons]
    -- going away twice is the same as going away once
    by_cases hr : j = r.key
    · subst hr
      simp
    · simp [hr]

/-- Nothing is reported of items that go away. -/
theorem reported_foldl_vanish (x : Expansions) (gone : List Record) :
    (gone.foldl vanish x).reported = x.reported := by
  induction gone generalizing x with
  | nil => rfl
  | cons r rest ih => exact ih (x.vanish r)

/-- Of an item that appears nothing changes but that it is visible, and where it is. -/
theorem keeps_appearAll {α : Type} {f : ExpansionState → α}
    (blind : ∀ s location, f { s with visible := some true, location := some location } = f s)
    (x : Expansions) (newly : List Record) (j : ItemKey) :
    f ((x.appearAll newly).1.stateOf j) = f (x.stateOf j) := by
  -- each appearance sets what `f` does not look at
  induction newly generalizing x with
  | nil => rfl
  | cons r rest ih =>
    rw [appearAll]
    refine (ih (x.appear r).1).trans ?_
    rw [stateOf_appear]
    split
    · next hj => rw [hj, blind]
    · rfl

/-- Items that appear stay expanded or collapsed as they were. -/
theorem expanded_appearAll (x : Expansions) (newly : List Record) (j : ItemKey) :
    ((x.appearAll newly).1.stateOf j).expanded = (x.stateOf j).expanded :=
  keeps_appearAll (fun _ _ => rfl) x newly j

/-- Items that do not appear are left alone. -/
theorem stateOf_appearAll_of_not_mem {x : Expansions} {newly : List Record} {j : ItemKey}
    (h : j ∉ newly.map Record.key) : (x.appearAll newly).1.stateOf j = x.stateOf j := by
  induction newly generalizing x with
  | nil => rfl
  | cons r rest ih =>
    rw [List.map_cons, List.mem_cons, not_or] at h
    rw [appearAll]
    refine (ih h.2).trans ?_
    rw [stateOf_appear, if_neg h.1]

/-- Nothing is reported of items that do not appear. -/
theorem reported_appearAll_of_not_mem {x : Expansions} {newly : List Record} {j : ItemKey}
    (h : j ∉ newly.map Record.key) :
    (x.appearAll newly).1.reported.get? j = x.reported.get? j := by
  induction newly generalizing x with
  | nil => rfl
  | cons r rest ih =>
    rw [List.map_cons, List.mem_cons, not_or] at h
    rw [appearAll]
    exact (ih h.2).trans (reported_evaluate_of_ne x _ h.1)

/-- What has appeared already does not matter to an item with another key. -/
theorem appear_appear_of_ne (x : Expansions) {r next : Record} (h : next.key ≠ r.key) :
    ((x.appear r).1.appear next).2 = (x.appear next).2 := by
  rw [appear_change, appear_change, stateOf_appear, if_neg h, appear,
    reported_evaluate_of_ne x _ h]

/-- Items with different keys that appear together are judged as if each appeared alone. -/
theorem appearAll_changes (x : Expansions) {newly : List Record}
    (h : (newly.map Record.key).Nodup) :
    (x.appearAll newly).2 = newly.filterMap fun r => (x.appear r).2 := by
  induction newly generalizing x with
  | nil => rfl
  | cons r rest ih =>
    rw [List.map_cons, List.nodup_cons] at h
    obtain ⟨fresh, distinct⟩ := h
    -- what the rest is judged by has not changed when `r` has appeared
    have alone : ∀ next ∈ rest, ((x.appear r).1.appear next).2 = (x.appear next).2 := by
      intro next hmem
      refine appear_appear_of_ne x fun same => fresh ?_
      exact same ▸ List.mem_map_of_mem hmem
    calc (x.appearAll (r :: rest)).2
        = (x.appear r).2.toList ++ ((x.appear r).1.appearAll rest).2 := rfl
      _ = (x.appear r).2.toList ++ rest.filterMap fun next => (x.appear next).2 := by
          rw [ih _ distinct, List.filterMap_congr alone]
      _ = (r :: rest).filterMap fun next => (x.appear next).2 := by
          cases hc : (x.appear r).2 <;> simp [hc]

/-! ### One turn -/

/-- Whatever changes in a turn changes when items appear; going away again changes nothing. -/
theorem turn_changes (x : Expansions) (newly gone : List Record) :
    (x.turn newly gone).2 = (x.appearAll newly).2 := rfl

/-- A turn leaves items expanded or collapsed as they were. -/
theorem expanded_turn (x : Expansions) (newly gone : List Record) (j : ItemKey) :
    ((x.turn newly gone).1.stateOf j).expanded = (x.stateOf j).expanded := by
  rw [turn, stateOf_foldl_vanish]
  split
  · exact expanded_appearAll x newly j
  · exact expanded_appearAll x newly j

/-- Items that appear and go away in the same turn are not visible after it. -/
theorem visible_turn_self (x : Expansions) (current : List Record) (j : ItemKey) :
    ((x.turn current current).1.stateOf j).visible =
      if j ∈ current.map Record.key then some false else (x.stateOf j).visible := by
  rw [turn, stateOf_foldl_vanish]
  split
  · rfl
  · next absent => rw [stateOf_appearAll_of_not_mem absent]

end Expansions

end OnScreen
