import OnScreen.Ledger
import OnScreen.Proofs.Consistency

namespace OnScreen

/-!
# The ledger agrees with the visible set

Whoever folds the batches of visibility changes into a ledger knows at every point which items the
owner takes for visible.  A batch never puts an item on the ledger that is there already and never
takes off one that is not, so the reports about one item alternate between coming and going.

* `Report.turns`, `alternating` — what the reports say about one item, and the pattern they follow.
* `AllFit` — every batch fits the ledger before it.
* `Balanced`, `Closed` — how a history of reports relates to a visible set, and to an empty one.
* `Balanced.append_batch` — a batch that says who came and who went keeps the balance.
-/

/-! ### What reports say about one item -/

namespace Report

/-- The report is a batch of visibility changes. -/
def isBatch : Report → Bool
  | visibility _ _ => true
  | expansion _ | panelShown _ _ | itemError _ _ => false

/-- A batch of visibility changes, unless there is nothing to say. -/
def batch (newly noLonger : List Record) : List Report :=
  if newly.isEmpty && noLonger.isEmpty then [] else [visibility newly noLonger]

/-- What a report says about the item with key `k`, in the order in which a ledger takes it:
    `false` where the item goes away, `true` where it appears. -/
def turns (k : ItemKey) : Report → List Bool
  | visibility newly noLonger =>
    List.replicate ((noLonger.map Record.key).count k) false ++
      List.replicate ((newly.map Record.key).count k) true
  | expansion _ | panelShown _ _ | itemError _ _ => []

/-- Only batches say anything about who is on screen. -/
theorem turns_of_not_batch {r : Report} (h : r.isBatch = false) (k : ItemKey) : r.turns k = [] := by
  cases r <;> first | rfl | cases h

/-- Reports about expansion are no batches. -/
theorem isBatch_of_mem_expansions (changes : List ExpansionChange) :
    ∀ r ∈ changes.map expansion, r.isBatch = false := by
  intro r hr
  obtain ⟨c, -, rfl⟩ := List.mem_map.1 hr
  rfl

end Report

/-- Appearing and going away by turns, `n` times in all, appearing first. -/
def alternating (n : Nat) : List Bool := (List.range n).map fun i => i % 2 == 0

example : alternating 4 = [true, false, true, false] := by decide

/-- The next of alternating turns is the opposite of the last one; the first is an arrival. -/
theorem alternating_succ (n : Nat) : alternating (n + 1) = alternating n ++ [n % 2 == 0] := by
  simp [alternating, List.range_succ]

/-! ### The ledger, report by report -/

namespace Ledger

@[simp] theorem keys_empty : (∅ : Ledger).keys = [] := rfl

@[simp] theorem ofReports_nil : ofReports [] = ∅ := rfl

/-- Only batches are posted. -/
theorem afterReport_of_not_batch {r : Report} (h : r.isBatch = false) (l : Ledger) :
    l.afterReport r = l := by
  cases r <;> first | rfl | cases h

/-- One more report is posted on what was posted before. -/
theorem ofReports_append_singleton (reports : List Report) (r : Report) :
    ofReports (reports ++ [r]) = (ofReports reports).afterReport r := by
  rw [ofReports_append]
  rfl

/-- After a batch those are on the ledger who were and did not go, and those who came. -/
theorem mem_post {l : Ledger} {newly noLonger : List Record} {k : ItemKey} :
    k ∈ (l.post newly noLonger).keys ↔
      (k ∈ l.keys ∧ k ∉ noLonger.map Record.key) ∨ k ∈ newly.map Record.key := by
  rw [post, List.mem_append, List.mem_filter, ← Record.hasKey_iff, ← Record.hasKey_iff,
    Bool.not_eq_true, Bool.not_eq_true', Record.hasKey_iff]

/-- A batch that fits leaves no key on the ledger twice. -/
theorem nodup_post {l : Ledger} {newly noLonger : List Record} (h : l.keys.Nodup)
    (fits : l.Fits newly noLonger) : (l.post newly noLonger).keys.Nodup := by
  obtain ⟨-, fresh, distinct⟩ := fits
  rw [List.map_append] at distinct
  refine List.nodup_append.2 ⟨h.filter _, (List.nodup_append.1 distinct).1, ?_⟩
  rintro k old _ new rfl
  obtain ⟨r, hr, rfl⟩ := List.mem_map.1 new
  exact fresh r hr (List.mem_of_mem_filter old)

/-- What a fitting batch says about one item: at most one thing, and that is news. -/
theorem turns_of_fits {l : Ledger} {newly noLonger : List Record} (fits : l.Fits newly noLonger)
    (k : ItemKey) :
    (Report.visibility newly noLonger).turns k =
      if k ∈ noLonger.map Record.key then [false]
      else if k ∈ newly.map Record.key then [true] else [] := by
  obtain ⟨-, -, distinct⟩ := fits
  rw [List.map_append] at distinct
  obtain ⟨onceNewly, onceGone, apart⟩ := List.nodup_append.1 distinct
  rw [Report.turns, onceNewly.count, onceGone.count]
  -- the two halves have no key in common, so an item that went did not come as well
  by_cases gone : k ∈ noLonger.map Record.key
  · have still : k ∉ newly.map Record.key := fun new => apart k new k gone rfl
    rw [if_pos gone, if_pos gone, if_neg still]
    rfl
  · rw [if_neg gone, if_neg gone]
    split <;> rfl

end Ledger

/-! ### Histories that balance -/

/-- Every batch fits the ledger that the reports before it lead to, and says something. -/
def AllFit (reports : List Report) : Prop :=
  ∀ earlier newly noLonger later, reports = earlier ++ .visibility newly noLonger :: later →
    (Ledger.ofReports earlier).Fits newly noLonger ∧ (newly ≠ [] ∨ noLonger ≠ [])

/-- How the reports so far relate to the set of visible items. -/
structure Balanced (s : VisibleSet) (reports : List Report) : Prop where
  same : ∀ k, k ∈ (Ledger.ofReports reports).keys ↔ s.isVisible k = true
  nodup : (Ledger.ofReports reports).keys.Nodup
  fit : AllFit reports
  /-- Each item comes and goes by turns, and is on the ledger after an odd number of them. -/
  turns : ∀ k, ∃ n, reports.flatMap (Report.turns k) = alternating n ∧
    (k ∈ (Ledger.ofReports reports).keys ↔ n % 2 = 1)

/-- Nobody is on the ledger any more, and whoever came has gone again. -/
structure Closed (reports : List Report) : Prop where
  ledger : Ledger.ofReports reports = ∅
  turns : ∀ k, ∃ n, reports.flatMap (Report.turns k) = alternating (2 * n)

/-- One more report keeps the fit if it is no batch or a fitting one. -/
theorem AllFit.append {reports : List Report} (h : AllFit reports) {r : Report}
    (fits : ∀ newly noLonger, r = .visibility newly noLonger →
      (Ledger.ofReports reports).Fits newly noLonger ∧ (newly ≠ [] ∨ noLonger ≠ [])) :
    AllFit (reports ++ [r]) := by
  intro earlier newly noLonger later split
  -- the batch in question is the new report itself, or one of the old ones
  rcases List.eq_nil_or_concat later with rfl | ⟨later, last, rfl⟩
  · obtain ⟨rfl, same⟩ := List.append_inj' split rfl
    exact fits newly noLonger (List.singleton_inj.1 same)
  · rw [List.concat_eq_append, ← List.cons_append, ← List.append_assoc] at split
    exact h earlier newly noLonger later (List.append_inj' split rfl).1

namespace Balanced

variable {s t : VisibleSet} {reports : List Report}

/-- Nothing reported balances with nothing visible. -/
theorem nil : Balanced ∅ [] where
  same _ := by simp [VisibleSet.isVisible_iff]
  nodup := List.nodup_nil
  fit := by simp [AllFit]
  turns _ := ⟨0, rfl, by simp⟩

/-- There are as many items on the ledger as in the visible set. -/
theorem size (h : Balanced s reports) (distinct : s.keys.Nodup) :
    (Ledger.ofReports reports).keys.length = s.size := by
  have perm : (Ledger.ofReports reports).keys.Perm s.keys :=
    (List.perm_ext_iff_of_nodup h.nodup distinct).2 fun k =>
      (h.same k).trans (s.isVisible_iff k)
  rw [perm.length_eq, VisibleSet.keys, List.length_map]
  rfl

/-- The ledger is empty when nothing is visible. -/
theorem ledger_eq_empty (h : Balanced ∅ reports) : Ledger.ofReports reports = ∅ := by
  have none : (Ledger.ofReports reports).keys = [] := by
    rw [List.eq_nil_iff_forall_not_mem]
    intro k hk
    have := (VisibleSet.isVisible_iff ∅ k).1 ((h.same k).1 hk)
    simp at this
  exact congrArg Ledger.mk none

/-- The books are closed when nothing is visible. -/
theorem closed (h : Balanced ∅ reports) : Closed reports where
  ledger := h.ledger_eq_empty
  turns k := by
    obtain ⟨n, turns, odd⟩ := h.turns k
    -- nobody is on the ledger, so every item has turned an even number of times
    rw [h.ledger_eq_empty] at odd
    have even : n % 2 ≠ 1 := fun one => absurd (odd.2 one) (by simp)
    refine ⟨n / 2, ?_⟩
    rw [turns]
    congr 1
    omega

/-- Only the keys of the visible set matter. -/
theorem congr (h : Balanced s reports) (same : ∀ k, k ∈ t.keys ↔ k ∈ s.keys) :
    Balanced t reports where
  same k := by rw [h.same, VisibleSet.isVisible_iff, VisibleSet.isVisible_iff, same]
  nodup := h.nodup
  fit := h.fit
  turns := h.turns

/-- A report that is no batch changes nothing. -/
theorem append_quiet (h : Balanced s reports) {r : Report} (quiet : r.isBatch = false) :
    Balanced s (reports ++ [r]) := by
  have ledger : Ledger.ofReports (reports ++ [r]) = Ledger.ofReports reports := by
    rw [Ledger.ofReports_append_singleton, Ledger.afterReport_of_not_batch quiet]
  refine ⟨ledger ▸ h.same, ledger ▸ h.nodup, h.fit.append ?_, fun k => ?_⟩
  · rintro newly noLonger rfl
    cases quiet
  · rw [ledger, List.flatMap_append]
    simpa [Report.turns_of_not_batch quiet] using h.turns k

/-- Reports that are no batches do not matter, however many they are. -/
theorem append_all_quiet (h : Balanced s reports) {rest : List Report}
    (quiet : ∀ r ∈ rest, r.isBatch = false) : Balanced s (reports ++ rest) := by
  induction rest using List.reverseRecOn with
  | nil => rwa [List.append_nil]
  | append_singleton rest r ih =>
    rw [← List.append_assoc]
    refine append_quiet (ih fun r hr => ?_) (quiet r (by simp))
    exact quiet r (List.mem_append_left _ hr)

/-- A batch that says who came and who went fits the ledger. -/
theorem fits (h : Balanced s reports) {newly noLonger : List Record}
    (turnover : VisibleSet.Turnover s t newly noLonger) :
    (Ledger.ofReports reports).Fits newly noLonger := by
  have ledger : ∀ k, k ∈ (Ledger.ofReports reports).keys ↔ k ∈ s.keys := fun k =>
    (h.same k).trans (s.isVisible_iff k)
  refine ⟨fun r hr => ?_, fun r hr => ?_, ?_⟩
  · rw [ledger]
    exact ((turnover.mem_noLonger r.key).1 (List.mem_map_of_mem hr)).1
  · rw [ledger]
    exact ((turnover.mem_newly r.key).1 (List.mem_map_of_mem hr)).2
  · rw [List.map_append]
    refine List.nodup_append.2 ⟨turnover.nodup_newly, turnover.nodup_noLonger, ?_⟩
    -- whoever came is visible now, whoever went is not
    rintro k came _ went rfl
    exact ((turnover.mem_noLonger k).1 went).2 ((turnover.mem_newly k).1 came).1

/-- A batch that says who came and who went keeps the balance. -/
theorem append_batch (h : Balanced s reports) {newly noLonger : List Record}
    (turnover : VisibleSet.Turnover s t newly noLonger) (speaks : newly ≠ [] ∨ noLonger ≠ []) :
    Balanced t (reports ++ [.visibility newly noLonger]) := by
  have fits := h.fits turnover
  have same : ∀ k, k ∈ ((Ledger.ofReports reports).post newly noLonger).keys ↔ k ∈ t.keys := by
    intro k
    rw [Ledger.mem_post, h.same, s.isVisible_iff, turnover.mem_newly, turnover.mem_noLonger]
    tauto
  refine ⟨fun k => ?_, ?_, h.fit.append ?_, fun k => ?_⟩
  · rw [Ledger.ofReports_append_singleton, t.isVisible_iff]
    exact same k
  · rw [Ledger.ofReports_append_singleton]
    exact Ledger.nodup_post h.nodup fits
  · rintro _ _ ⟨⟩
    exact ⟨fits, speaks⟩
  · obtain ⟨n, turns, odd⟩ := h.turns k
    have before : k ∈ s.keys ↔ n % 2 = 1 := by rw [← odd, h.same, s.isVisible_iff]
    have gone := turnover.mem_noLonger k
    have new := turnover.mem_newly k
    rw [List.flatMap_append, turns, List.flatMap_singleton, Ledger.turns_of_fits fits,
      Ledger.ofReports_append_singleton]
    simp only [Ledger.afterReport, same]
    -- an item that is named has turned once more, and any other stays where it is
    split
    · next went =>
      obtain ⟨was, now⟩ := gone.1 went
      have odd := before.1 was
      refine ⟨n + 1, ?_, iff_of_false now (by omega)⟩
      rw [alternating_succ, odd]
      rfl
    · next stays =>
      split
      · next came =>
        obtain ⟨now, was⟩ := new.1 came
        have even : n % 2 = 0 := by
          have := mt before.2 was
          omega
        refine ⟨n + 1, ?_, iff_of_true now (by omega)⟩
        rw [alternating_succ, even]
        rfl
      · next absent =>
        refine ⟨n, List.append_nil _, ?_⟩
        rw [← before]
        tauto

/-- The same for a batch that is left out when there is nothing to say. -/
theorem append_batch? (h : Balanced s reports) {newly noLonger : List Record}
    (turnover : VisibleSet.Turnover s t newly noLonger) :
    Balanced t (reports ++ Report.batch newly noLonger) := by
  by_cases silent : newly = [] ∧ noLonger = []
  · -- the visible items are the same as before
    obtain ⟨rfl, rfl⟩ := silent
    have same : ∀ k, k ∈ t.keys ↔ k ∈ s.keys := by
      intro k
      have came := turnover.mem_newly k
      have went := turnover.mem_noLonger k
      simp only [List.map_nil, List.not_mem_nil, false_iff] at came went
      tauto
    rw [Report.batch]
    simpa using h.congr same
  · have batch : Report.batch newly noLonger = [.visibility newly noLonger] := by
      rw [Report.batch, if_neg]
      simpa using silent
    rw [batch]
    refine h.append_batch turnover ?_
    tauto

end Balanced

end OnScreen
