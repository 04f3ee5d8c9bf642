import OnScreen.Proofs.Transitions

namespace OnScreen

/-!
# Whom a change is put down to

An item may be expanded long before the change is reported, and the same may be said of it again in
the meantime.  A report puts the change down to whoever said so last, and not to whoever changed the
item: a repetition, which is no change itself, takes the change over.

* `Toggle`, `Toggle.heard` — what was said about the expansion of an item since it came into being.
* `Toggle.LastChange` — the word that changed the item, and its repetitions.
* `Expansions.toggle?_after` — what is known of the expansion of an item is what was said last.
* `changes_are_put_down_to_the_last_word`, `repetition_takes_the_change_over` — whom a report names,
  and that this need not be whoever changed the item.
-/

/-- Someone says of an item that it was expanded or collapsed. -/
structure Toggle where
  userAction : Bool
  expanded : Bool
  deriving DecidableEq, Repr

namespace Toggle

/-- Listens to one more signal: an item that is removed starts over. -/
def hear (k : ItemKey) (told : List Toggle) : ExpansionSignal → List Toggle
  | .expansion key user expanded _ => if key = k then told ++ [⟨user, expanded⟩] else told
  | .removed key => if key = k then [] else told
  | .visibility _ _ | .updated _ => told

/-- What was said of the item with key `k` since it was removed last, or from the start. -/
def heard (k : ItemKey) (signals : List ExpansionSignal) : List Toggle := signals.foldl (hear k) []

/-- What was heard of an item up to a signal is what was heard before it, and then the signal. -/
theorem heard_append_singleton (k : ItemKey) (signals : List ExpansionSignal)
    (s : ExpansionSignal) :
    heard k (signals ++ [s]) = hear k (heard k signals) s := by
  rw [heard, List.foldl_append, heard]
  rfl

/-- The word `t` was the last to change anything: the first of all, or one that did not say the same
    as the word before it.  What was said afterwards only repeats it. -/
structure LastChange (told : List Toggle) (t : Toggle) (repeated : List Toggle) : Prop where
  turns : ∃ before, told = before ++ t :: repeated ∧
    ∀ b, before.getLast? = some b → b.expanded ≠ t.expanded
  repeats : ∀ r ∈ repeated, r.expanded = t.expanded

namespace LastChange

variable {told repeated : List Toggle} {t : Toggle}

/-- The last word of all is the last repetition, if there is any. -/
theorem getLast?_eq (h : LastChange told t repeated) :
    told.getLast? = repeated.getLast?.or (some t) := by
  obtain ⟨before, rfl, -⟩ := h.turns
  rw [List.getLast?_append_cons, List.getLast?_cons]
  cases repeated.getLast? <;> rfl

/-- The last word of all says what the last change said. -/
theorem expanded_eq (h : LastChange told t repeated) {last : Toggle}
    (said : told.getLast? = some last) : last.expanded = t.expanded := by
  rw [h.getLast?_eq] at said
  cases again : repeated.getLast? with
  | none =>
    rw [again] at said
    exact congrArg expanded (Option.some.inj said).symm
  | some r =>
    rw [again] at said
    obtain rfl : r = last := Option.some.inj said
    exact h.repeats r (List.mem_of_getLast? again)

/-- From the last change on, nobody says anything new. -/
theorem nothing_new (h : LastChange told t repeated) {skipped again : List Toggle} {u : Toggle}
    (split : t :: repeated = skipped ++ u :: again) {b : Toggle} (last : skipped.getLast? = some b) :
    b.expanded = u.expanded := by
  have same : ∀ r ∈ skipped ++ u :: again, r.expanded = t.expanded := by
    rw [← split]
    intro r hr
    rcases List.mem_cons.1 hr with rfl | later
    · rfl
    · exact h.repeats r later
  have before := same b (List.mem_append_left _ (List.mem_of_getLast? last))
  exact before.trans (same u (by simp)).symm

/-- There is only one last change. -/
theorem unique (h : LastChange told t repeated) {u : Toggle} {again : List Toggle}
    (h' : LastChange told u again) : u = t ∧ again = repeated := by
  obtain ⟨before, split, turns⟩ := h.turns
  obtain ⟨before', split', turns'⟩ := h'.turns
  -- whichever comes first, there is nothing between the two
  rcases List.append_eq_append_iff.1 (split.symm.trans split') with
    ⟨skipped, rfl, tail⟩ | ⟨skipped, rfl, tail⟩
  · cases last : skipped.getLast? with
    | none =>
      rw [List.getLast?_eq_none_iff.1 last, List.nil_append] at tail
      obtain ⟨same, rest⟩ := List.cons.inj tail
      exact ⟨same.symm, rest.symm⟩
    | some b =>
      exact absurd (h.nothing_new tail last) (turns' b (by rw [List.getLast?_append, last]; rfl))
  · cases last : skipped.getLast? with
    | none =>
      rw [List.getLast?_eq_none_iff.1 last, List.nil_append] at tail
      exact List.cons.inj tail
    | some b =>
      exact absurd (h'.nothing_new tail last) (turns b (by rw [List.getLast?_append, last]; rfl))

end LastChange

/-- Where something was said, something was the last change. -/
theorem exists_lastChange {told : List Toggle} (h : told ≠ []) :
    ∃ t repeated, LastChange told t repeated := by
  induction told using List.reverseRecOn with
  | nil => exact absurd rfl h
  | append_singleton told u ih =>
    by_cases first : told = []
    · subst first
      exact ⟨u, [], ⟨[], rfl, nofun⟩, nofun⟩
    · obtain ⟨t, repeated, change⟩ := ih first
      by_cases same : u.expanded = t.expanded
      · -- one repetition more
        obtain ⟨before, split, turns⟩ := change.turns
        refine ⟨t, repeated ++ [u], ⟨before, ?_, turns⟩, ?_⟩
        · rw [split, List.append_assoc, List.cons_append]
        · intro r hr
          rcases List.mem_append.1 hr with old | new
          · exact change.repeats r old
          · rw [List.mem_singleton.1 new, same]
      · refine ⟨u, [], ⟨told, rfl, fun b last => ?_⟩, nofun⟩
        rw [change.expanded_eq last]
        exact Ne.symm same

end Toggle

/-- What is known of the expansion of an item, as it was said. -/
def ExpansionState.toggle? (s : ExpansionState) : Option Toggle :=
  match s.userAction, s.expanded with
  | some user, some expanded => some ⟨user, expanded⟩
  | _, _ => none

namespace Expansions

/-! ### What is known is what was said last -/

/-- Items that appear and go away are expanded or collapsed as they were, and by the same. -/
theorem toggle?_turn (x : Expansions) (newly gone : List Record) (k : ItemKey) :
    ((x.turn newly gone).1.stateOf k).toggle? = (x.stateOf k).toggle? := by
  have appeared : ((x.appearAll newly).1.stateOf k).toggle? = (x.stateOf k).toggle? :=
    keeps_appearAll (fun _ _ => rfl) x newly k
  rw [turn, stateOf_foldl_vanish, ← appeared]
  split <;> rfl

/-- A signal changes what is known by what it says. -/
theorem toggle?_step {x : Expansions} {k : ItemKey} {told : List Toggle}
    (h : (x.stateOf k).toggle? = told.getLast?) (s : ExpansionSignal) :
    ((x.step s).1.stateOf k).toggle? = (Toggle.hear k told s).getLast? := by
  cases s with
  | expansion key user expanded location =>
    show ((x.expand key user expanded location).1.stateOf k).toggle? = _
    rw [stateOf_expand, Toggle.hear]
    by_cases same : key = k
    · rw [if_pos same.symm, if_pos same, List.getLast?_concat]
      rfl
    · rw [if_neg (Ne.symm same), if_neg same, h]
  -- who appears or goes away keeps the last toggle
  | visibility newly gone => exact (x.toggle?_turn newly gone k).trans h
  | removed key =>
    -- nothing is known of an item that was removed, and what was heard of it is forgotten
    show ((x.remove key).stateOf k).toggle? = _
    rw [stateOf_remove, Toggle.hear]
    by_cases same : key = k
    · rw [if_pos same.symm, if_pos same]
      rfl
    · rw [if_neg (Ne.symm same), if_neg same, h]
  | updated key => exact h

/-- After any signals, what is known of the expansion of an item is what was said last. -/
theorem toggle?_after (signals : List ExpansionSignal) (k : ItemKey) :
    (((∅ : Expansions).after signals).stateOf k).toggle? = (Toggle.heard k signals).getLast? := by
  induction signals using List.reverseRecOn with
  | nil => rfl
  | append_singleton signals s ih =>
    rw [after_append, Toggle.heard_append_singleton]
    exact toggle?_step ih s

/-! ### A change says what is known -/

/-- A change is reported as it was last put down: with the value and with who is behind it. -/
theorem toggle?_of_change {k : ItemKey} {s : ExpansionState} {last : Option Bool}
    {c : ExpansionChange} (h : change? k s last = some c) :
    s.toggle? = some ⟨c.userAction, c.expanded⟩ := by
  obtain ⟨-, -, user, expanded, -⟩ := change?_eq_some_iff.1 h
  rw [ExpansionState.toggle?, user, expanded]

/-- So is every change that comes of items that appear. -/
theorem toggle?_of_mem_appearAll {x : Expansions} {newly : List Record} {c : ExpansionChange}
    (hc : c ∈ (x.appearAll newly).2) :
    (x.stateOf c.key).toggle? = some ⟨c.userAction, c.expanded⟩ := by
  induction newly generalizing x with
  | nil => cases hc
  | cons r rest ih =>
    rcases List.mem_append.1 hc with first | later
    · have change : (x.appear r).2 = some c := Option.mem_toList.1 first
      have key := appear_key change
      rw [appear_change] at change
      have known := toggle?_of_change change
      rw [key]
      exact known
    · -- by appearing, an item changes nothing of this
      have alone : ((x.appear r).1.stateOf c.key).toggle? = (x.stateOf c.key).toggle? :=
        keeps_appearAll (fun _ _ => rfl) x [r] c.key
      rw [← alone]
      exact ih later

/-- A change says of the expansion what is known when the signal is dealt with. -/
theorem toggle?_of_mem_step {x : Expansions} {s : ExpansionSignal} {c : ExpansionChange}
    (hc : c ∈ (x.step s).2) :
    ((x.step s).1.stateOf c.key).toggle? = some ⟨c.userAction, c.expanded⟩ := by
  cases s with
  | expansion key user expanded location =>
    have change : (x.expand key user expanded location).2 = some c := Option.mem_toList.1 hc
    rw [expand, evaluate_change] at change
    -- the change is of the item that was named
    obtain rfl : c.key = key := (change?_eq_some_iff.1 change).2.1
    show ((x.expand c.key user expanded location).1.stateOf c.key).toggle? = _
    rw [stateOf_expand, if_pos rfl]
    exact toggle?_of_change change
  | visibility newly gone =>
    exact (x.toggle?_turn newly gone c.key).trans (toggle?_of_mem_appearAll hc)
  | removed key | updated key => cases hc

end Expansions

/-! ### All signals -/

/-- **A change is put down to the last word.**  When a change is reported, the report says of the
    item what was said last since it came into being, and names who said it.  One word was the last
    to change anything, and it said what is reported; but the report names whoever spoke it just if
    nobody repeated it, or if the last one to do so was of the same kind. -/
theorem changes_are_put_down_to_the_last_word (signals : List ExpansionSignal) (s : ExpansionSignal)
    (c : ExpansionChange) (hc : c ∈ (((∅ : Expansions).after signals).step s).2) :
    let told := Toggle.heard c.key (signals ++ [s])
    told.getLast? = some ⟨c.userAction, c.expanded⟩ ∧
      ∃ t repeated, Toggle.LastChange told t repeated ∧
        (∀ u again, Toggle.LastChange told u again → u = t ∧ again = repeated) ∧
        t.expanded = c.expanded ∧
        (c.userAction = t.userAction ↔
          ∀ r, repeated.getLast? = some r → r.userAction = t.userAction) := by
  intro told
  have last : told.getLast? = some ⟨c.userAction, c.expanded⟩ := by
    rw [← Expansions.toggle?_of_mem_step hc, ← Expansions.toggle?_after, Expansions.after_append]
    rfl
  -- so something was said of the item, and its last change of value can be found
  have spoken : told ≠ [] := by
    intro none
    rw [none] at last
    cases last
  obtain ⟨t, repeated, change⟩ := Toggle.exists_lastChange spoken
  refine ⟨last, t, repeated, change, fun _ _ h => change.unique h,
    (change.expanded_eq last).symm, ?_⟩
  rw [change.getLast?_eq] at last
  -- the last toggle is the change itself, or the last of its repetitions
  cases again : repeated.getLast? with
  | none =>
    rw [again] at last
    obtain rfl : t = ⟨c.userAction, c.expanded⟩ := Option.some.inj last
    exact iff_of_true rfl nofun
  | some r =>
    rw [again] at last
    obtain rfl : r = ⟨c.userAction, c.expanded⟩ := Option.some.inj last
    simp

/-- The user collapses and expands an item that nobody sees, and says so twice; then it appears. -/
theorem changes_are_put_down_to_the_last_word_unseen :
    let key : ItemKey := ⟨"a"⟩
    let signals : List ExpansionSignal :=
      [.expansion key false true .hiddenTop, .expansion key false false .hiddenTop,
        .expansion key true true .hiddenTop, .expansion key true true .hiddenTop]
    let s : ExpansionSignal := .visibility [⟨key, 0, 1, true, .mainArea⟩] []
    let c : ExpansionChange := ⟨key, true, true, .mainArea⟩
    let told := Toggle.heard key (signals ++ [s])
    c ∈ (((∅ : Expansions).after signals).step s).2 ∧
      Toggle.LastChange told ⟨true, true⟩ [⟨true, true⟩] ∧
      told.getLast? = some ⟨c.userAction, c.expanded⟩ ∧ c.userAction = true := by
  intro key signals s c told
  have hc : c ∈ (((∅ : Expansions).after signals).step s).2 := by decide
  have change : Toggle.LastChange told ⟨true, true⟩ [⟨true, true⟩] :=
    ⟨⟨[⟨false, true⟩, ⟨false, false⟩], by decide, by decide⟩, by decide⟩
  obtain ⟨last, t, repeated, -, only, -, named⟩ :=
    changes_are_put_down_to_the_last_word signals s c hc
  obtain ⟨rfl, rfl⟩ := only _ _ change
  exact ⟨hc, change, last, named.2 (by decide)⟩

/-- The user expands an item that nobody sees, and someone else says so once more.  When the item
    appears, the change is not put down to the user. -/
theorem repetition_takes_the_change_over :
    let key : ItemKey := ⟨"a"⟩
    let signals : List ExpansionSignal :=
      [.expansion key true true .mainArea, .expansion key false true .mainArea]
    let s : ExpansionSignal := .visibility [⟨key, 0, 1, true, .mainArea⟩] []
    Toggle.LastChange (Toggle.heard key (signals ++ [s])) ⟨true, true⟩ [⟨false, true⟩] ∧
      (((∅ : Expansions).after signals).step s).2 = [⟨key, false, true, .mainArea⟩] :=
  ⟨⟨⟨[], by decide, by decide⟩, by decide⟩, by decide⟩

end OnScreen
