import OnScreen.Proofs.Balance

namespace OnScreen

/-!
# One report per transition

An item is judged when it is expanded, collapsed or appears.  It is reported only when it is then
visible, completely known and not what was reported last, so the reports about one item expand and
collapse it by turns, until the item is removed or replaced and everything starts over.

* `Expansions.after`, `Expansions.said` — many signals, and the changes that they make.
* `Expansions.Alternates` — how the reports about an item relate to what is remembered of it;
  `Expansions.Alternates.evaluate` is the one step that reports anything.
* `Expansions.expanded_judged` — whoever is judged while all is known was reported as it is.
* `one_report_per_transition` — all of it for every sequence of signals.
-/

namespace ExpansionSignal

/-- What was reported of the item with key `k` is forgotten: the item was removed or replaced. -/
def forgets (k : ItemKey) : ExpansionSignal → Bool
  | removed key | updated key => k == key
  | expansion _ _ _ _ | visibility _ _ => false

/-- The item with key `k` is judged, once or several times. -/
def judges (k : ItemKey) : ExpansionSignal → Bool
  | expansion key _ _ _ => k == key
  | visibility newly _ => Record.hasKey newly k
  | removed _ | updated _ => false

end ExpansionSignal

/-- All is known of the item, and it is visible. -/
def ExpansionState.isShown (s : ExpansionState) : Bool := s.isComplete && s.visible == some true

/-- What some changes say about the item with key `k`. -/
def ExpansionChange.values (k : ItemKey) (changes : List ExpansionChange) : List Bool :=
  changes.filterMap fun c => if c.key = k then some c.expanded else none

theorem ExpansionChange.values_append (k : ItemKey) (xs ys : List ExpansionChange) :
    values k (xs ++ ys) = values k xs ++ values k ys := List.filterMap_append

namespace Expansions

/-- The states after some signals. -/
def after (x : Expansions) : List ExpansionSignal → Expansions
  | [] => x
  | s :: rest => (x.step s).1.after rest

/-- The changes that some signals make. -/
def said (x : Expansions) : List ExpansionSignal → List ExpansionChange
  | [] => []
  | s :: rest => (x.step s).2 ++ (x.step s).1.said rest

/-- The states by which a signal judges items: those who appear have appeared, and nobody has gone
    away yet. -/
def judged (x : Expansions) : ExpansionSignal → Expansions
  | .expansion k user expanded location => (x.expand k user expanded location).1
  | .visibility newly _ => (x.appearAll newly).1
  | .removed _ | .updated _ => x

/-- Signals can be taken in two goes. -/
theorem after_append (x : Expansions) (xs ys : List ExpansionSignal) :
    x.after (xs ++ ys) = (x.after xs).after ys := by
  induction xs generalizing x with
  | nil => rfl
  | cons s xs ih => exact ih (x.step s).1

/-! ### Reports by turns -/

/-- The reports about the item with key `k` expand and collapse it by turns, and the last one is
    remembered. -/
structure Alternates (x : Expansions) (k : ItemKey) (values : List Bool) : Prop where
  turns : ∃ n, values = alternating n
  last : x.reported.get? k = values.getLast?

/-- After an odd number of turns the item is expanded. -/
theorem getLast?_alternating (n : Nat) :
    (alternating n).getLast?.getD false = (n % 2 == 1) := by
  cases n with
  | zero => rfl
  | succ n =>
    rw [alternating_succ, List.getLast?_concat, Option.getD_some]
    rcases Nat.mod_two_eq_zero_or_one n with even | odd
    · simp [even, Nat.add_mod]
    · simp [odd, Nat.add_mod]

/-- An item of which nothing is remembered starts over. -/
theorem Alternates.nil {x : Expansions} {k : ItemKey} (h : x.reported.get? k = none) :
    x.Alternates k [] := ⟨⟨0, rfl⟩, h⟩

namespace Alternates

variable {x y : Expansions} {k : ItemKey} {values : List Bool}

/-- Only what is remembered of the item matters. -/
theorem congr (h : x.Alternates k values) (same : y.reported.get? k = x.reported.get? k) :
    y.Alternates k values := ⟨h.turns, same.trans h.last⟩

/-- A report that differs from the last one is the next turn. -/
theorem append (h : x.Alternates k values) {b : Bool} (news : b ≠ (x.reported.get? k).getD false)
    (told : y.reported.get? k = some b) : y.Alternates k (values ++ [b]) := by
  obtain ⟨⟨n, rfl⟩, last⟩ := h
  have next : (n % 2 == 0) = b := by
    rw [last, getLast?_alternating] at news
    rcases Nat.mod_two_eq_zero_or_one n with even | odd
    · simpa [even] using news
    · simpa [odd] using news
  refine ⟨⟨n + 1, ?_⟩, ?_⟩
  · rw [alternating_succ, next]
  · rw [told, List.getLast?_concat]

/-- Judging an item, this one or another, goes on with the turns. -/
theorem evaluate (h : x.Alternates k values) (key : ItemKey) (s : ExpansionState) :
    (x.evaluate key s).1.Alternates k
      (values ++ ExpansionChange.values k (x.evaluate key s).2.toList) := by
  by_cases same : key = k
  · subst same
    have told := x.reported_evaluate key s
    cases change : (x.evaluate key s).2 with
    | none =>
      rw [change, Option.map_none, Option.none_or] at told
      simpa [ExpansionChange.values] using h.congr told
    | some c =>
      rw [change, Option.map_some, Option.some_or] at told
      rw [evaluate_change, change?_eq_some_iff] at change
      obtain ⟨-, key, -, -, -, news⟩ := change
      simpa [ExpansionChange.values, key] using h.append news told
  · -- reports about other items do not count
    have quiet : ExpansionChange.values k (x.evaluate key s).2.toList = [] := by
      cases change : (x.evaluate key s).2 with
      | none => rfl
      | some c =>
        rw [evaluate_change, change?_eq_some_iff] at change
        simp [ExpansionChange.values, change.2.1, same]
    rw [quiet, List.append_nil]
    exact h.congr (x.reported_evaluate_of_ne s fun e => same e.symm)

/-- Items that appear keep the values alternating. -/
theorem appearAll (h : x.Alternates k values) (newly : List Record) :
    (x.appearAll newly).1.Alternates k
      (values ++ ExpansionChange.values k (x.appearAll newly).2) := by
  induction newly generalizing x values with
  | nil =>
    show x.Alternates k (values ++ [])
    rwa [List.append_nil]
  | cons r rest ih =>
    have next := ih (h.evaluate r.key
      { x.stateOf r.key with visible := some true, location := some r.location })
    rw [List.append_assoc, ← ExpansionChange.values_append] at next
    exact next

/-- A signal goes on with the turns, unless it makes the item start over. -/
theorem step (h : x.Alternates k values) {s : ExpansionSignal} (kept : s.forgets k = false) :
    (x.step s).1.Alternates k (values ++ ExpansionChange.values k (x.step s).2) := by
  cases s with
  | expansion key user expanded location => exact h.evaluate key _
  | visibility newly gone =>
    refine (h.appearAll newly).congr ?_
    show ((gone.foldl vanish (x.appearAll newly).1).reported).get? k = _
    rw [reported_foldl_vanish]
  | removed key =>
    show (x.remove key).Alternates k (values ++ [])
    rw [List.append_nil]
    exact h.congr ((x.reported_remove key k).trans (if_neg (beq_eq_false_iff_ne.1 kept)))
  | updated key =>
    show (x.update key).Alternates k (values ++ [])
    rw [List.append_nil]
    exact h.congr ((x.reported_update key k).trans (if_neg (beq_eq_false_iff_ne.1 kept)))

/-- So do many signals. -/
theorem after (h : x.Alternates k values) {signals : List ExpansionSignal}
    (kept : ∀ s ∈ signals, s.forgets k = false) :
    (x.after signals).Alternates k (values ++ ExpansionChange.values k (x.said signals)) := by
  induction signals generalizing x values with
  | nil =>
    show x.Alternates k (values ++ [])
    rwa [List.append_nil]
  | cons s rest ih =>
    have next := ih (h.step (kept s List.mem_cons_self))
      fun t ht => kept t (List.mem_cons_of_mem s ht)
    rw [List.append_assoc, ← ExpansionChange.values_append] at next
    exact next

end Alternates

/-- Nothing is remembered of an item that was removed or replaced. -/
theorem reported_step_of_forgets (x : Expansions) {k : ItemKey} {s : ExpansionSignal}
    (h : s.forgets k = true) : (x.step s).1.reported.get? k = none := by
  cases s with
  | expansion | visibility => cases h
  | removed key => exact (x.reported_remove key k).trans (if_pos (beq_iff_eq.1 h))
  | updated key => exact (x.reported_update key k).trans (if_pos (beq_iff_eq.1 h))

/-! ### What is judged -/

/-- An item is shown when all is known about it and it is visible. -/
theorem isShown_iff {s : ExpansionState} :
    s.isShown = true ↔ ∃ user expanded location,
      s = ⟨some user, some expanded, some true, some location⟩ := by
  obtain ⟨user, expanded, visible, location⟩ := s
  cases user <;> cases expanded <;> cases visible <;> cases location <;>
    simp [ExpansionState.isShown, ExpansionState.isComplete]

/-- An item that is judged while it is shown was last reported as it is. -/
theorem expanded_evaluate (x : Expansions) {k : ItemKey} {s : ExpansionState}
    (h : s.isShown = true) :
    s.expanded = some (((x.evaluate k s).1.reported.get? k).getD false) := by
  obtain ⟨user, expanded, location, rfl⟩ := isShown_iff.1 h
  rw [reported_evaluate, evaluate_change]
  by_cases same : expanded = (x.reported.get? k).getD false
  · simp [change?, same]
  · simp [change?, same]

/-- Items that appear after an item was judged leave it as it was, and if it appears once more all
    is still known of it. -/
theorem isShown_appearAll {x : Expansions} {k : ItemKey} (h : (x.stateOf k).isShown = true)
    (newly : List Record) : ((x.appearAll newly).1.stateOf k).isShown = true := by
  induction newly generalizing x with
  | nil => exact h
  | cons r rest ih =>
    refine ih (x := (x.appear r).1) ?_
    rw [stateOf_appear]
    split
    · next same =>
      obtain ⟨user, expanded, location, state⟩ := isShown_iff.1 h
      rw [← same, state]
      rfl
    · exact h

/-- An item that appears, among others and perhaps more than once, was last reported as it is. -/
theorem expanded_appearAll_of_isShown {x : Expansions} {k : ItemKey} {newly : List Record}
    (mem : k ∈ newly.map Record.key) (h : ((x.appearAll newly).1.stateOf k).isShown = true) :
    ((x.appearAll newly).1.stateOf k).expanded =
      some (((x.appearAll newly).1.reported.get? k).getD false) := by
  induction newly generalizing x with
  | nil => cases mem
  | cons r rest ih =>
    by_cases again : k ∈ rest.map Record.key
    · exact ih again h
    · -- this was the last time that the item was judged
      obtain rfl : k = r.key := by simpa [again] using mem
      have state : (x.appearAll (r :: rest)).1.stateOf r.key = (x.appear r).1.stateOf r.key :=
        stateOf_appearAll_of_not_mem again
      have told : (x.appearAll (r :: rest)).1.reported.get? r.key =
          (x.appear r).1.reported.get? r.key := reported_appearAll_of_not_mem again
      rw [state, stateOf_appear, if_pos rfl] at h ⊢
      rw [told]
      exact x.expanded_evaluate h

/-- Whoever is judged while all is known was last reported as it is now. -/
theorem expanded_judged {x : Expansions} {k : ItemKey} {s : ExpansionSignal}
    (judges : s.judges k = true) (h : ((x.judged s).stateOf k).isShown = true) :
    ((x.step s).1.stateOf k).expanded = some (((x.step s).1.reported.get? k).getD false) := by
  cases s with
  | expansion key user expanded location =>
    obtain rfl : k = key := beq_iff_eq.1 judges
    change ((x.expand k user expanded location).1.stateOf k).isShown = true at h
    show ((x.expand k user expanded location).1.stateOf k).expanded = _
    rw [stateOf_expand, if_pos rfl] at h ⊢
    exact x.expanded_evaluate h
  | visibility newly gone =>
    -- going away changes neither what is expanded nor what was reported
    have settled := expanded_appearAll_of_isShown (Record.hasKey_iff.1 judges) h
    show ((gone.foldl vanish (x.appearAll newly).1).stateOf k).expanded =
      some (((gone.foldl vanish (x.appearAll newly).1).reported.get? k).getD false)
    rw [reported_foldl_vanish, stateOf_foldl_vanish, ← settled]
    split <;> rfl
  | removed key | updated key => cases judges

/-! ### Who is reported -/

/-- Only of an item that is shown a change is reported. -/
theorem isShown_of_change {k : ItemKey} {s : ExpansionState} {last : Option Bool}
    {c : ExpansionChange} (h : change? k s last = some c) : s.isShown = true := by
  obtain ⟨visible, -, user, expanded, location, -⟩ := change?_eq_some_iff.1 h
  simp [ExpansionState.isShown, ExpansionState.isComplete, visible, user, expanded, location]

/-- So the items whose changes are reported in a tick are among those that it shows. -/
theorem isShown_of_mem_appearAll {x : Expansions} {newly : List Record} {c : ExpansionChange}
    (hc : c ∈ (x.appearAll newly).2) :
    c.key ∈ newly.map Record.key ∧ ((x.appearAll newly).1.stateOf c.key).isShown = true := by
  induction newly generalizing x with
  | nil => cases hc
  | cons r rest ih =>
    -- the change is that of the first item, or of one behind it
    rcases List.mem_append.1 hc with first | later
    · have change : (x.appear r).2 = some c := Option.mem_toList.1 first
      have key := appear_key change
      rw [appear_change] at change
      refine ⟨by simp [key], isShown_appearAll (x := (x.appear r).1) ?_ rest⟩
      rw [stateOf_appear, if_pos key]
      exact isShown_of_change change
    · obtain ⟨mem, shown⟩ := ih later
      exact ⟨List.mem_cons_of_mem _ mem, shown⟩

/-- Nobody is reported but who is judged while all is known. -/
theorem isShown_of_mem_step {x : Expansions} {s : ExpansionSignal} {c : ExpansionChange}
    (hc : c ∈ (x.step s).2) :
    s.judges c.key = true ∧ ((x.judged s).stateOf c.key).isShown = true := by
  cases s with
  | expansion key user expanded location =>
    have change : (x.expand key user expanded location).2 = some c := Option.mem_toList.1 hc
    rw [expand, evaluate_change] at change
    -- the change is of the item that was named
    obtain rfl : c.key = key := (change?_eq_some_iff.1 change).2.1
    refine ⟨beq_self_eq_true _, ?_⟩
    show ((x.expand c.key user expanded location).1.stateOf c.key).isShown = true
    rw [stateOf_expand, if_pos rfl]
    exact isShown_of_change change
  | visibility newly gone =>
    obtain ⟨mem, shown⟩ := isShown_of_mem_appearAll hc
    exact ⟨Record.hasKey_iff.2 mem, shown⟩
  | removed key | updated key => cases hc

end Expansions

/-! ### All signals -/

/-- **One report per transition.**  Whatever signals come in: since an item was last removed or
    replaced, or from the start, the reports about it expand and collapse it by turns, expanding it
    first, and the last of them is remembered.  When the next signal judges the item while all four
    facts are known and the item is visible, the last report tells how it is, collapsed if there is
    none; and nobody is reported otherwise. -/
theorem one_report_per_transition (signals : List ExpansionSignal) (k : ItemKey) :
    let x := (∅ : Expansions).after signals
    (∀ earlier recent, signals = earlier ++ recent →
      (earlier = [] ∨ ∃ before s, earlier = before ++ [s] ∧ s.forgets k = true) →
      (∀ s ∈ recent, s.forgets k = false) →
      let values := ExpansionChange.values k (((∅ : Expansions).after earlier).said recent)
      (∃ n, values = alternating n) ∧ x.reported.get? k = values.getLast?) ∧
    (∀ s, s.judges k = true → ((x.judged s).stateOf k).isComplete = true →
      ((x.judged s).stateOf k).visible = some true →
      ((x.step s).1.stateOf k).expanded = some (((x.step s).1.reported.get? k).getD false)) ∧
    (∀ s, ∀ c ∈ (x.step s).2, c.key = k → s.judges k = true ∧
      ((x.judged s).stateOf k).isComplete = true ∧
      ((x.judged s).stateOf k).visible = some true) := by
  intro x
  refine ⟨fun earlier recent split since kept => ?_, fun s judges complete visible => ?_, ?_⟩
  · -- at the start, or behind a signal that forgets, nothing is remembered
    have fresh : ((∅ : Expansions).after earlier).reported.get? k = none := by
      rcases since with rfl | ⟨before, s, rfl, forgets⟩
      · rfl
      · rw [Expansions.after_append]
        exact Expansions.reported_step_of_forgets _ forgets
    have turns := (Expansions.Alternates.nil fresh).after kept
    rw [← Expansions.after_append, ← split, List.nil_append] at turns
    exact ⟨turns.turns, turns.last⟩
  · exact Expansions.expanded_judged judges (by simp [ExpansionState.isShown, complete, visible])
  · rintro s c hc rfl
    obtain ⟨judges, shown⟩ := Expansions.isShown_of_mem_step hc
    simp only [ExpansionState.isShown, Bool.and_eq_true, beq_iff_eq] at shown
    exact ⟨judges, shown⟩

/-- An item that appears twice in one signal is reported once, and again after it was replaced. -/
theorem one_report_per_transition_replaced :
    let key : ItemKey := ⟨"a"⟩
    let seen : Record := ⟨key, 0, 1, true, .mainArea⟩
    let earlier : List ExpansionSignal :=
      [.expansion key true true .mainArea, .visibility [seen, seen] [seen], .updated key]
    let recent : List ExpansionSignal :=
      [.visibility [seen, seen] [], .expansion key false false .mainArea]
    let values := ExpansionChange.values key (((∅ : Expansions).after earlier).said recent)
    values = [true, false] ∧
      ((∅ : Expansions).after (earlier ++ recent)).reported.get? key = values.getLast? := by
  intro key seen earlier recent values
  obtain ⟨turns, -⟩ := one_report_per_transition (earlier ++ recent) key
  have since : ∃ before s, earlier = before ++ [s] ∧ s.forgets key = true :=
    ⟨[.expansion key true true .mainArea, .visibility [seen, seen] [seen]], .updated key, rfl,
      by decide⟩
  have kept : ∀ s ∈ recent, s.forgets key = false := by
    simp [recent, ExpansionSignal.forgets]
  exact ⟨by decide +kernel, (turns earlier recent rfl (.inr since) kept).2⟩

end OnScreen
