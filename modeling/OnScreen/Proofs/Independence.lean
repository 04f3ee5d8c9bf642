import OnScreen.Proofs.Transitions

namespace OnScreen

/-!
# Items do not interfere

One signal may name many items, the same item several times, and an item among those that appear as
well as among those that go away.  Still, what is known of an item, what is remembered of it and
what is reported of it come from the parts of the signals that name it: whoever sees only those
parts sees the same.

* `ExpansionSignal.about?`, `ExpansionSignal.allAbout` — the part of a signal that names one item,
  and what is left of many signals.
* `Expansions.AgreeOn` — two tables that have the same to say of one item.
* `Expansions.AgreeOn.evaluate`, `Expansions.AgreeOn.other` — the two facts that everything rests
  on: an item is judged alike in both, and judging another item in one of them is no matter.
* `items_do_not_interfere` — all the signals, and those about one item.
-/

/-! ### Signals about one item -/

/-- The records of the item with key `k`. -/
def Record.ofItem (k : ItemKey) (records : List Record) : List Record :=
  records.filter fun r => r.key = k

theorem Record.ofItem_cons_self (r : Record) (rest : List Record) :
    ofItem r.key (r :: rest) = r :: ofItem r.key rest := by simp [ofItem]

theorem Record.ofItem_cons_of_ne {k : ItemKey} {r : Record} (h : r.key ≠ k) (rest : List Record) :
    ofItem k (r :: rest) = ofItem k rest := by simp [ofItem, h]

/-- The changes of the item with key `k`. -/
def ExpansionChange.ofItem (k : ItemKey) (changes : List ExpansionChange) : List ExpansionChange :=
  changes.filter fun c => c.key = k

namespace ExpansionSignal

/-- The part of a signal that is about the item with key `k`, if the signal is about it at all.
    Items that appear and go away keep their order. -/
def about? (k : ItemKey) : ExpansionSignal → Option ExpansionSignal
  | expansion key user expanded location =>
    if key = k then some (expansion key user expanded location) else none
  | visibility newly gone => some (visibility (Record.ofItem k newly) (Record.ofItem k gone))
  | removed key => if key = k then some (removed key) else none
  | updated key => if key = k then some (updated key) else none

/-- What is left of some signals for someone who knows the item with key `k` alone. -/
def allAbout (k : ItemKey) (signals : List ExpansionSignal) : List ExpansionSignal :=
  signals.filterMap (about? k)

end ExpansionSignal

namespace ExpansionChange

theorem ofItem_append (k : ItemKey) (xs ys : List ExpansionChange) :
    ofItem k (xs ++ ys) = ofItem k xs ++ ofItem k ys := List.filter_append ..

/-- Changes that are all about one item. -/
theorem ofItem_eq_self {k : ItemKey} {changes : List ExpansionChange}
    (h : ∀ c ∈ changes, c.key = k) : ofItem k changes = changes :=
  List.filter_eq_self.2 fun c hc => decide_eq_true (h c hc)

/-- Changes none of which is about the item. -/
theorem ofItem_eq_nil {k : ItemKey} {changes : List ExpansionChange}
    (h : ∀ c ∈ changes, c.key ≠ k) : ofItem k changes = [] :=
  List.filter_eq_nil_iff.2 fun c hc => by simp [h c hc]

end ExpansionChange

namespace Expansions

/-- The change of an item that is judged names the item. -/
theorem evaluate_key {x : Expansions} {k : ItemKey} {s : ExpansionState} {c : ExpansionChange}
    (hc : c ∈ (x.evaluate k s).2.toList) : c.key = k := by
  rw [Option.mem_toList, evaluate_change] at hc
  exact (change?_eq_some_iff.1 hc).2.1

/-! ### Tables that agree on one item -/

/-- The same is known of the item with key `k`, and the same was reported of it last. -/
structure AgreeOn (k : ItemKey) (x y : Expansions) : Prop where
  state : x.states.get? k = y.states.get? k
  reported : x.reported.get? k = y.reported.get? k

namespace AgreeOn

variable {k : ItemKey} {x y : Expansions}

/-- Those who agree on an item take it to be in the same state. -/
theorem stateOf_eq (h : AgreeOn k x y) : x.stateOf k = y.stateOf k := by
  rw [stateOf, stateOf, h.state]

/-- An item is judged alike in both tables, once the same was learned of it. -/
theorem evaluate (h : AgreeOn k x y) (learn : ExpansionState → ExpansionState) :
    AgreeOn k (x.evaluate k (learn (x.stateOf k))).1 (y.evaluate k (learn (y.stateOf k))).1 ∧
      (y.evaluate k (learn (y.stateOf k))).2.toList =
        ExpansionChange.ofItem k (x.evaluate k (learn (x.stateOf k))).2.toList := by
  rw [h.stateOf_eq]
  generalize learn (y.stateOf k) = s
  have change : (x.evaluate k s).2 = (y.evaluate k s).2 := by
    rw [evaluate_change, evaluate_change, h.reported]
  refine ⟨⟨?_, ?_⟩, ?_⟩
  · rw [states_evaluate, states_evaluate, KeyMap.get?_set, KeyMap.get?_set, if_pos rfl, if_pos rfl]
  · rw [reported_evaluate, reported_evaluate, change, h.reported]
  · rw [ExpansionChange.ofItem_eq_self fun c hc => evaluate_key hc, change]

/-- Judging another item in one of the tables is no matter. -/
theorem other (h : AgreeOn k x y) {key : ItemKey} (ne : key ≠ k) (s : ExpansionState) :
    AgreeOn k (x.evaluate key s).1 y ∧
      ExpansionChange.ofItem k (x.evaluate key s).2.toList = [] := by
  refine ⟨⟨?_, ?_⟩, ?_⟩
  · rw [states_evaluate, KeyMap.get?_set, if_neg ne.symm, h.state]
  · rw [reported_evaluate_of_ne x s ne.symm, h.reported]
  · exact ExpansionChange.ofItem_eq_nil fun c hc => (evaluate_key hc) ▸ ne

/-- Many items appear, and in the other table only those with the one key. -/
theorem appearAll (h : AgreeOn k x y) (newly : List Record) :
    AgreeOn k (x.appearAll newly).1 (y.appearAll (Record.ofItem k newly)).1 ∧
      (y.appearAll (Record.ofItem k newly)).2 =
        ExpansionChange.ofItem k (x.appearAll newly).2 := by
  induction newly generalizing x y with
  | nil => exact ⟨h, rfl⟩
  | cons r rest ih =>
    have said : (x.appearAll (r :: rest)).2 =
        (x.appear r).2.toList ++ ((x.appear r).1.appearAll rest).2 := rfl
    rw [said, ExpansionChange.ofItem_append]
    by_cases same : r.key = k
    · -- the item itself appears, in both tables
      subst same
      obtain ⟨agree, change⟩ := h.evaluate fun s =>
        { s with visible := some true, location := some r.location }
      obtain ⟨next, later⟩ := ih agree
      rw [Record.ofItem_cons_self]
      exact ⟨next, congrArg₂ (· ++ ·) change later⟩
    · obtain ⟨agree, quiet⟩ := h.other same
        { x.stateOf r.key with visible := some true, location := some r.location }
      rw [Record.ofItem_cons_of_ne same, appear, quiet, List.nil_append]
      exact ih agree

/-- Many items go away, and in the other table only those with the one key. -/
theorem vanishAll (h : AgreeOn k x y) (gone : List Record) :
    AgreeOn k (gone.foldl vanish x) ((Record.ofItem k gone).foldl vanish y) := by
  refine ⟨?_, ?_⟩
  · induction gone generalizing x y with
    | nil => exact h.state
    | cons r rest ih =>
      -- an item of the key vanishes on both sides, any other on the left alone
      by_cases same : r.key = k
      · subst same
        rw [Record.ofItem_cons_self]
        refine ih (x := x.vanish r) (y := y.vanish r) ⟨?_, h.reported⟩
        simp only [vanish, KeyMap.get?_set, if_pos, h.stateOf_eq]
      · rw [Record.ofItem_cons_of_ne same]
        refine ih (x := x.vanish r) ⟨?_, h.reported⟩
        rw [vanish, KeyMap.get?_set, if_neg (Ne.symm same), h.state]
  · rw [reported_foldl_vanish, reported_foldl_vanish, h.reported]

/-- Many items appear and others go away, and in the other table only those with the one key do. -/
theorem turn (h : AgreeOn k x y) (newly gone : List Record) :
    AgreeOn k (x.turn newly gone).1 (y.turn (Record.ofItem k newly) (Record.ofItem k gone)).1 ∧
      (y.turn (Record.ofItem k newly) (Record.ofItem k gone)).2 =
        ExpansionChange.ofItem k (x.turn newly gone).2 := by
  obtain ⟨agree, said⟩ := h.appearAll newly
  exact ⟨agree.vanishAll gone, said⟩

/-- An item leaves the collection. -/
theorem remove (h : AgreeOn k x y) (key : ItemKey) : AgreeOn k (x.remove key) (y.remove key) where
  state := by simp only [Expansions.remove, KeyMap.get?_erase, h.state]
  reported := by rw [reported_remove, reported_remove, h.reported]

/-- An item is replaced. -/
theorem update (h : AgreeOn k x y) (key : ItemKey) : AgreeOn k (x.update key) (y.update key) where
  state := h.state
  reported := by rw [reported_update, reported_update, h.reported]

/-- A signal that says nothing of the item leaves it alone, and makes no change of it. -/
theorem step_other (h : AgreeOn k x y) {s : ExpansionSignal} (other : s.about? k = none) :
    AgreeOn k (x.step s).1 y ∧ ExpansionChange.ofItem k (x.step s).2 = [] := by
  cases s with
  | expansion key user expanded location =>
    have ne : key ≠ k := by simpa [ExpansionSignal.about?] using other
    exact h.other ne _
  | visibility newly gone => cases other
  | removed key =>
    -- what is set or erased belongs to another key
    have ne : key ≠ k := by simpa [ExpansionSignal.about?] using other
    refine ⟨⟨?_, ?_⟩, rfl⟩
    · exact (KeyMap.get?_erase _ _ _).trans ((if_neg ne.symm).trans h.state)
    · exact (x.reported_remove key k).trans ((if_neg ne.symm).trans h.reported)
  | updated key =>
    have ne : key ≠ k := by simpa [ExpansionSignal.about?] using other
    exact ⟨⟨h.state, (x.reported_update key k).trans ((if_neg ne.symm).trans h.reported)⟩, rfl⟩

/-- A signal does to the item what the part about the item does, and makes the same changes of it.
    -/
theorem step_about (h : AgreeOn k x y) {s part : ExpansionSignal} (about : s.about? k = some part) :
    AgreeOn k (x.step s).1 (y.step part).1 ∧
      (y.step part).2 = ExpansionChange.ofItem k (x.step s).2 := by
  cases s with
  | expansion key user expanded location =>
    obtain ⟨rfl, rfl⟩ : key = k ∧ .expansion key user expanded location = part := by
      simpa [ExpansionSignal.about?] using about
    exact h.evaluate fun s =>
      { s with
        userAction := some user, expanded := some expanded, location := some location }
  | visibility newly gone =>
    cases about
    exact h.turn newly gone
  | removed key =>
    obtain ⟨-, rfl⟩ : key = k ∧ .removed key = part := by
      simpa [ExpansionSignal.about?] using about
    exact ⟨h.remove key, rfl⟩
  | updated key =>
    obtain ⟨-, rfl⟩ : key = k ∧ .updated key = part := by
      simpa [ExpansionSignal.about?] using about
    exact ⟨h.update key, rfl⟩

/-- So it is with many signals. -/
theorem after (h : AgreeOn k x y) (signals : List ExpansionSignal) :
    AgreeOn k (x.after signals) (y.after (ExpansionSignal.allAbout k signals)) ∧
      y.said (ExpansionSignal.allAbout k signals) =
        ExpansionChange.ofItem k (x.said signals) := by
  induction signals generalizing x y with
  | nil => exact ⟨h, rfl⟩
  | cons s rest ih =>
    have said : x.said (s :: rest) = (x.step s).2 ++ (x.step s).1.said rest := rfl
    rw [said, ExpansionChange.ofItem_append, ExpansionSignal.allAbout, List.filterMap_cons]
    cases about : s.about? k with
    | none =>
      obtain ⟨agree, quiet⟩ := h.step_other about
      rw [quiet, List.nil_append]
      exact ih agree
    | some part =>
      obtain ⟨agree, same⟩ := h.step_about about
      obtain ⟨next, later⟩ := ih agree
      exact ⟨next, congrArg₂ (· ++ ·) same later⟩

end AgreeOn

end Expansions

/-- **Items do not interfere.**  Take any signals and any item, and leave out every signal about
    other items and every other item that appears or goes away.  What is left leads to the same
    knowledge of the item and to the same memory of what was reported of it, and it makes the
    changes of the item that all the signals make, in the same order, and no others. -/
theorem items_do_not_interfere (signals : List ExpansionSignal) (k : ItemKey) :
    let alone := ExpansionSignal.allAbout k signals
    ((∅ : Expansions).after alone).states.get? k =
        ((∅ : Expansions).after signals).states.get? k ∧
      ((∅ : Expansions).after alone).reported.get? k =
        ((∅ : Expansions).after signals).reported.get? k ∧
      (∅ : Expansions).said alone =
        ((∅ : Expansions).said signals).filter fun c => c.key = k := by
  intro alone
  have start : Expansions.AgreeOn k ∅ ∅ := ⟨rfl, rfl⟩
  obtain ⟨agree, said⟩ := start.after signals
  exact ⟨agree.state.symm, agree.reported.symm, said⟩

-- two items share a signal, one of them appears twice and goes away in it, and the other is removed
example :
    let a : ItemKey := ⟨"a"⟩
    let b : ItemKey := ⟨"b"⟩
    let seen (k : ItemKey) (place : LocationKind) : Record := ⟨k, 0, 2, true, place⟩
    let signals : List ExpansionSignal :=
      [.expansion b true true .mainArea, .expansion a false true .hiddenTop,
        .visibility [seen b .mainArea, seen a .mainArea, seen a .bottomPeeking] [seen a .mainArea],
        .removed b]
    ExpansionSignal.allAbout a signals =
        [.expansion a false true .hiddenTop,
          .visibility [seen a .mainArea, seen a .bottomPeeking] [seen a .mainArea]] ∧
      (∅ : Expansions).said (ExpansionSignal.allAbout a signals) = [⟨a, false, true, .mainArea⟩] := by
  decide

end OnScreen
