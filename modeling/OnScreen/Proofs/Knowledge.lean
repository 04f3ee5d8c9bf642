import Mathlib.Data.List.DropRight
import OnScreen.Proofs.Transitions

namespace OnScreen

/-!
# What is known stays known

What is known of an item and what was reported of it last stand in two maps, and every signal
changes them on its own.  Still they agree.  A signal may change what is known of an item, but it
makes nothing unknown; only the removal of the item does, and it leaves nothing behind.  So whatever
was reported last is still completely known, and something is known of exactly those items that a
signal named since they were removed.

* `ExpansionState.Within` — a state in which no less is known.
* `Expansions.within_step`, `Expansions.within_after` — signals make nothing unknown.
* `Expansions.Coherent` — whatever was reported is completely known; `Expansions.Coherent.step`
  keeps it so.
* `Expansions.isTracked_step`, `Expansions.isTracked_after` — of which items something is known.
* `known_until_removed` — all of it for every sequence of signals.
-/

/-! ### States in which no less is known -/

/-- Whatever is known in the first state is known in the second one, though it may be different. -/
structure ExpansionState.Within (s t : ExpansionState) : Prop where
  userAction : s.userAction.isSome = true → t.userAction.isSome = true
  expanded : s.expanded.isSome = true → t.expanded.isSome = true
  visible : s.visible.isSome = true → t.visible.isSome = true
  location : s.location.isSome = true → t.location.isSome = true

namespace ExpansionState

variable {s t u : ExpansionState}

theorem Within.refl (s : ExpansionState) : s.Within s := ⟨id, id, id, id⟩

/-- Knowledge that is kept twice is kept. -/
theorem Within.trans (h : s.Within t) (h' : t.Within u) : s.Within u :=
  ⟨h'.userAction ∘ h.userAction, h'.expanded ∘ h.expanded, h'.visible ∘ h.visible,
    h'.location ∘ h.location⟩

/-- Where all was known, all is known. -/
theorem Within.isComplete (h : s.Within t) (complete : s.isComplete = true) :
    t.isComplete = true := by
  simp only [ExpansionState.isComplete, Bool.and_eq_true] at complete ⊢
  obtain ⟨⟨⟨user, expanded⟩, visible⟩, location⟩ := complete
  exact ⟨⟨⟨h.userAction user, h.expanded expanded⟩, h.visible visible⟩, h.location location⟩

/-- All is known just if four things are. -/
theorem isComplete_iff_observed (s : ExpansionState) : s.isComplete = true ↔ s.observed = 4 := by
  obtain ⟨user, expanded, visible, location⟩ := s
  cases user <;> cases expanded <;> cases visible <;> cases location <;>
    simp [isComplete, observed]

end ExpansionState

/-- A signal says something of the item with key `k`: it was expanded or collapsed, it appeared or
    it went away. -/
def ExpansionSignal.names (k : ItemKey) : ExpansionSignal → Bool
  | expansion key _ _ _ => k == key
  | visibility newly gone => Record.hasKey newly k || Record.hasKey gone k
  | removed _ | updated _ => false

namespace Expansions

/-! ### Nothing becomes unknown -/

/-- An item that is judged by a state in which no less is known loses nothing, nor does any other.
    -/
theorem within_evaluate {x : Expansions} {k : ItemKey} {s : ExpansionState}
    (grows : (x.stateOf k).Within s) (j : ItemKey) :
    (x.stateOf j).Within ((x.evaluate k s).1.stateOf j) := by
  rw [stateOf_evaluate]
  split
  · next same => exact same ▸ grows
  · exact .refl _

/-- An appearance makes nothing unknown; it tells that the item is visible, and where. -/
theorem within_appear (x : Expansions) (r : Record) :
    (x.stateOf r.key).Within
      { x.stateOf r.key with visible := some true, location := some r.location } :=
  ⟨id, id, fun _ => rfl, fun _ => rfl⟩

/-- Nor does an expansion or a collapse; it tells all but whether the item is visible. -/
theorem within_expand (x : Expansions) (k : ItemKey) (user expanded : Bool)
    (location : LocationKind) :
    (x.stateOf k).Within
      { x.stateOf k with
        userAction := some user, expanded := some expanded, location := some location } :=
  ⟨fun _ => rfl, fun _ => rfl, id, fun _ => rfl⟩

/-- Nor do many appearances. -/
theorem within_appearAll (x : Expansions) (newly : List Record) (j : ItemKey) :
    (x.stateOf j).Within ((x.appearAll newly).1.stateOf j) := by
  induction newly generalizing x with
  | nil => exact .refl _
  | cons r rest ih => exact (within_evaluate (x.within_appear r) j).trans (ih (x.appear r).1)

/-- Nor do items that vanish. -/
theorem within_foldl_vanish (x : Expansions) (gone : List Record) (j : ItemKey) :
    (x.stateOf j).Within ((gone.foldl vanish x).stateOf j) := by
  rw [stateOf_foldl_vanish]
  split
  · exact ⟨id, id, fun _ => rfl, id⟩
  · exact .refl _

/-- A signal makes nothing unknown of an item, unless it removes the item. -/
theorem within_step (x : Expansions) {s : ExpansionSignal} {k : ItemKey} (kept : s ≠ .removed k) :
    (x.stateOf k).Within ((x.step s).1.stateOf k) := by
  cases s with
  | expansion key user expanded location =>
    exact within_evaluate (x.within_expand key user expanded location) k
  | visibility newly gone =>
    exact (x.within_appearAll newly k).trans (within_foldl_vanish _ gone k)
  | removed key =>
    show (x.stateOf k).Within ((x.remove key).stateOf k)
    -- by hypothesis the removal is of another item
    have other : k ≠ key := fun same => kept (same ▸ rfl)
    rw [stateOf_remove, if_neg other]
    exact .refl _
  | updated key => exact .refl _

/-- Nor do many signals. -/
theorem within_after (x : Expansions) {signals : List ExpansionSignal} {k : ItemKey}
    (kept : ExpansionSignal.removed k ∉ signals) :
    (x.stateOf k).Within ((x.after signals).stateOf k) := by
  induction signals generalizing x with
  | nil => exact .refl _
  | cons s rest ih =>
    rw [List.mem_cons, not_or] at kept
    exact (x.within_step (Ne.symm kept.1)).trans (ih (x.step s).1 kept.2)

/-! ### Whatever was reported is known -/

/-- All is known of every item of which something was reported. -/
def Coherent (x : Expansions) : Prop :=
  ∀ k, (x.reported.get? k).isSome = true → (x.stateOf k).isComplete = true

namespace Coherent

variable {x : Expansions}

theorem empty : (∅ : Expansions).Coherent := nofun

/-- Judging is the one thing that reports, and it reports what is completely known. -/
theorem evaluate (h : x.Coherent) {k : ItemKey} {s : ExpansionState}
    (grows : (x.stateOf k).Within s) : (x.evaluate k s).1.Coherent := by
  intro j told
  by_cases same : j = k
  · subst same
    rw [stateOf_evaluate, if_pos rfl]
    rw [reported_evaluate, evaluate_change] at told
    cases change : change? j s (x.reported.get? j) with
    | some c =>
      have shown := isShown_of_change change
      rw [ExpansionState.isShown, Bool.and_eq_true] at shown
      exact shown.1
    | none =>
      -- the report is an old one, and nothing has become unknown since
      rw [change, Option.map_none, Option.none_or] at told
      exact grows.isComplete (h j told)
  · rw [reported_evaluate_of_ne x s same] at told
    rw [stateOf_evaluate, if_neg same]
    exact h j told

/-- Reports that follow from appearances come of states that are complete. -/
theorem appearAll (h : x.Coherent) (newly : List Record) : (x.appearAll newly).1.Coherent := by
  induction newly generalizing x with
  | nil => exact h
  | cons r rest ih => exact ih (h.evaluate (x.within_appear r))

/-- Items that vanish stay known, and nothing is reported of them. -/
theorem foldl_vanish (h : x.Coherent) (gone : List Record) : (gone.foldl vanish x).Coherent := by
  intro k told
  rw [reported_foldl_vanish] at told
  exact (x.within_foldl_vanish gone k).isComplete (h k told)

/-- Every signal leaves only complete states reported. -/
theorem step (h : x.Coherent) (s : ExpansionSignal) : (x.step s).1.Coherent := by
  cases s with
  | expansion key user expanded location =>
    exact h.evaluate (x.within_expand key user expanded location)
  | visibility newly gone => exact (h.appearAll newly).foldl_vanish gone
  | removed key =>
    intro k told
    change ((x.remove key).reported.get? k).isSome = true at told
    show ((x.remove key).stateOf k).isComplete = true
    rw [reported_remove] at told
    rw [stateOf_remove]
    -- nothing counts as reported of the item that is removed
    split at told
    · cases told
    · next other =>
      rw [if_neg other]
      exact h k told
  | updated key =>
    intro k told
    change ((x.update key).reported.get? k).isSome = true at told
    show ((x.update key).stateOf k).isComplete = true
    rw [reported_update] at told
    rw [stateOf_update]
    split at told
    · cases told
    · exact h k told

/-- So do all signals together. -/
theorem after (h : x.Coherent) (signals : List ExpansionSignal) : (x.after signals).Coherent := by
  induction signals generalizing x with
  | nil => exact h
  | cons s rest ih => exact ih (h.step s)

end Coherent

/-! ### Of whom something is known -/

/-- Something is known of the item with key `k`. -/
def isTracked (x : Expansions) (k : ItemKey) : Bool := (x.states.get? k).isSome

/-- A state that is set is tracked, and so are those that were tracked before. -/
theorem isTracked_of_states_set {x y : Expansions} {k : ItemKey} {s : ExpansionState}
    (h : y.states = x.states.set k s) (j : ItemKey) :
    y.isTracked j = (j == k || x.isTracked j) := by
  rw [isTracked, h, KeyMap.get?_set, isTracked]
  by_cases same : j = k <;> simp [same]

/-- Items that appear are tracked from then on. -/
theorem isTracked_appearAll (x : Expansions) (newly : List Record) (j : ItemKey) :
    (x.appearAll newly).1.isTracked j = (Record.hasKey newly j || x.isTracked j) := by
  induction newly generalizing x with
  | nil => rfl
  | cons r rest ih =>
    have first : (x.appear r).1.isTracked j = (j == r.key || x.isTracked j) :=
      isTracked_of_states_set (x.states_evaluate r.key _) j
    rw [appearAll]
    refine (ih (x.appear r).1).trans ?_
    rw [first, Bool.or_left_comm, Record.hasKey, Record.hasKey, List.any_cons, Bool.or_assoc,
      BEq.comm]

/-- Items that vanish are tracked from then on as well. -/
theorem isTracked_foldl_vanish (x : Expansions) (gone : List Record) (j : ItemKey) :
    (gone.foldl vanish x).isTracked j = (Record.hasKey gone j || x.isTracked j) := by
  induction gone generalizing x with
  | nil => rfl
  | cons r rest ih =>
    have first : (x.vanish r).isTracked j = (j == r.key || x.isTracked j) :=
      isTracked_of_states_set rfl j
    rw [List.foldl_cons, ih, first, Bool.or_left_comm, Record.hasKey, Record.hasKey, List.any_cons,
      Bool.or_assoc, BEq.comm]

/-- After a signal, something is known of the items that it names and of those of which something
    was known, but for one that it removes. -/
theorem isTracked_step (x : Expansions) (s : ExpansionSignal) (k : ItemKey) :
    (x.step s).1.isTracked k = (decide (s ≠ .removed k) && (s.names k || x.isTracked k)) := by
  cases s with
  | expansion key user expanded location =>
    -- only a removal takes a key away, and the others add those they name
    show (x.expand key user expanded location).1.isTracked k = _
    rw [expand, isTracked_of_states_set (x.states_evaluate key _)]
    simp [ExpansionSignal.names]
  | visibility newly gone =>
    show (gone.foldl vanish (x.appearAll newly).1).isTracked k = _
    rw [isTracked_foldl_vanish, isTracked_appearAll, Bool.or_left_comm]
    simp [ExpansionSignal.names, Bool.or_assoc]
  | removed key =>
    show (x.remove key).isTracked k = _
    rw [isTracked, remove, KeyMap.get?_erase]
    by_cases same : k = key
    · simp [same]
    · simp [same, Ne.symm same, ExpansionSignal.names, isTracked]
  | updated key => simp [ExpansionSignal.names, step, update, isTracked]

/-- Something is known of the items that were named since they were removed. -/
theorem isTracked_after (signals : List ExpansionSignal) (k : ItemKey) :
    ((∅ : Expansions).after signals).isTracked k = true ↔
      ∃ s ∈ signals.rtakeWhile fun s => s ≠ .removed k, s.names k = true := by
  induction signals using List.reverseRecOn with
  | nil => simp [after, isTracked, show (∅ : Expansions).states = ∅ from rfl]
  | append_singleton signals s ih =>
    rw [after_append]
    show (((∅ : Expansions).after signals).step s).1.isTracked k = true ↔ _
    rw [isTracked_step, List.rtakeWhile_concat]
    by_cases removed : s = .removed k
    · simp [removed]
    · simp [removed, ih, or_and_right, exists_or, or_comm]

end Expansions

/-! ### All signals -/

/-- **What is known stays known.**  Whatever signals come in, the two maps agree.

    * All four facts are known of every item of which a report is remembered.
    * A fact that is known of an item stays known until the item is removed.
    * Something is known of exactly those items that were named since they were removed, and they
      are counted, each once.
    * The removal of an item leaves nothing of it in either map, and its replacement drops the
      remembered report only; other items are left alone. -/
theorem known_until_removed (signals : List ExpansionSignal) :
    let x := (∅ : Expansions).after signals
    (∀ k, (x.reported.get? k).isSome = true →
      ∃ s, x.states.get? k = some s ∧ s.isComplete = true ∧ s.observed = 4) ∧
    (∀ k more, ExpansionSignal.removed k ∉ more →
      (x.stateOf k).Within ((x.after more).stateOf k)) ∧
    (x.states.keys.Nodup ∧ x.tracked = x.states.keys.length ∧
      ∀ k, k ∈ x.states.keys ↔
        ∃ s ∈ signals.rtakeWhile fun s => s ≠ .removed k, s.names k = true) ∧
    (∀ k j,
      (x.step (.removed k)).1.states.get? j = (if j = k then none else x.states.get? j) ∧
        (x.step (.removed k)).1.reported.get? j = if j = k then none else x.reported.get? j) ∧
    ∀ k,
      (x.step (.updated k)).1.states = x.states ∧
        ∀ j, (x.step (.updated k)).1.reported.get? j = if j = k then none else x.reported.get? j := by
  intro x
  refine ⟨fun k told => ?_, fun k more kept => x.within_after kept,
    ⟨x.states.nodup, (List.length_map _).symm, fun k => ?_⟩, fun k j => ?_, fun k => ?_⟩
  · have complete := Expansions.Coherent.empty.after signals k told
    -- an untracked item is in the blank state, which is not complete
    cases tracked : x.states.get? k with
    | some s =>
      have state : x.stateOf k = s := by rw [Expansions.stateOf, tracked, Option.getD_some]
      rw [state] at complete
      exact ⟨s, rfl, complete, s.isComplete_iff_observed.1 complete⟩
    | none =>
      rw [Expansions.stateOf, tracked] at complete
      cases complete
  · rw [KeyMap.mem_keys_iff]
    exact Expansions.isTracked_after signals k
  · exact ⟨KeyMap.get?_erase _ _ _, x.reported_remove k j⟩
  · exact ⟨rfl, x.reported_update k⟩

/-- An item is expanded, appears and goes away; another one goes away that was never there, and is
    then removed.  Something is known of the first, now and after it was replaced, and nothing of
    the other, until it goes away once more. -/
theorem known_until_removed_again :
    let a : ItemKey := ⟨"a"⟩
    let b : ItemKey := ⟨"b"⟩
    let r (key : ItemKey) : Record := ⟨key, 0, 2, true, .mainArea⟩
    let signals : List ExpansionSignal :=
      [.expansion a true true .mainArea, .visibility [r a] [r a, r b], .removed b]
    let more : List ExpansionSignal := [.updated a, .visibility [] [r b]]
    let x := (∅ : Expansions).after signals
    (x.reported.get? a).isSome = true ∧
      (∃ s, x.states.get? a = some s ∧ s.isComplete = true ∧ s.observed = 4) ∧
      ExpansionSignal.removed a ∉ more ∧ (x.stateOf a).Within ((x.after more).stateOf a) ∧
      b ∉ x.states.keys ∧ b ∈ ((∅ : Expansions).after (signals ++ more)).states.keys := by
  intro a b r signals more x
  have told : (x.reported.get? a).isSome = true := by decide +kernel
  have kept : ExpansionSignal.removed a ∉ more := by decide
  obtain ⟨complete, stays, ⟨-, -, tracked⟩, -⟩ := known_until_removed signals
  obtain ⟨-, -, ⟨-, -, later⟩, -⟩ := known_until_removed (signals ++ more)
  exact ⟨told, complete a told, kept, stays a more kept, mt (tracked b).1 (by decide),
    (later b).2 (by decide)⟩

end OnScreen
