import Mathlib.Data.List.Basic
import OnScreen.Proofs.Diff

namespace OnScreen

/-!
# A tick depends on two lists

What a tick says is a matter of two lists of candidates: the one that it reads and the one that the
tick before it has read, which counts as empty when there was no such tick or when everything has
gone away since.  Of each list only the first visible candidate of every key counts.

* `Candidate.firsts` — these candidates, as the records that a tick makes of them.
* `VisibleSet.seen_eq_firsts` — they are what a tick sees.
* `VisibleSet.Use`, `VisibleSet.after`, `VisibleSet.lastList` — what can be done with a visible set,
  what many such things make of it, and the list that counts after them.
* `VisibleSet.records_after` — the visible set is that of the last list, whatever was done before.
* `tick_depends_on_two_lists` — everything that is reported, as lists.
-/

/-! ### The first visible candidates -/

namespace Candidate

/-- The candidate `c` at position `rank` is visible, and no visible one in front of it has its key.
    -/
def isFirst (candidates : List Candidate) (c : Candidate) (rank : Nat) : Bool :=
  c.visible && (candidates.take rank).all fun d => !(d.visible && d.key == c.key)

/-- The record of a first one among `total` candidates: its position, and where its placement code
    puts it. -/
def first? (candidates : List Candidate) (total : Nat) (p : Candidate × Nat) : Option Record :=
  if isFirst candidates p.1 p.2 then
    some ⟨p.1.key, p.2, total, true, .ofPlacement p.1.location⟩
  else none

/-- The first visible candidate of every key, in the order of the list. -/
def firsts (candidates : List Candidate) : List Record :=
  candidates.zipIdx.filterMap (first? candidates candidates.length)

/-- What comes behind a candidate has no part in whether it is a first one. -/
theorem isFirst_append {candidates : List Candidate} {rank : Nat} (h : rank ≤ candidates.length)
    (later : List Candidate) (c : Candidate) :
    isFirst (candidates ++ later) c rank = isFirst candidates c rank := by
  rw [isFirst, isFirst, List.take_append_of_le_length h]

/-- The last candidate of a list is a first one just if it is visible and there is no visible record
    with its key yet. -/
theorem isFirst_last (candidates : List Candidate) (c : Candidate) (total : Nat) :
    isFirst (candidates ++ [c]) c candidates.length =
      (c.visible && !Record.hasKey
        ((candidates.mapIdx fun i d => d.record i total).filter Record.visible) c.key) := by
  -- a key is among the visible records just when a visible candidate bears it
  have same : Record.hasKey
      ((candidates.mapIdx fun i d => d.record i total).filter Record.visible) c.key =
        candidates.any fun d => d.visible && d.key == c.key := by
    induction candidates using List.reverseRecOn with
    | nil => rfl
    | append_singleton rest last ih =>
      rw [Record.hasKey] at ih ⊢
      rw [List.mapIdx_concat, List.filter_append, List.any_append, List.any_append, ih]
      cases visible : last.visible <;> simp [record, visible]
  rw [same, isFirst_append (Nat.le_refl _), isFirst, List.take_length, List.not_any_eq_all_not]

end Candidate

namespace VisibleSet

/-- A tick sees the first visible candidates of the list that it reads. -/
theorem seen_eq_firsts (candidates : List Candidate) :
    seen candidates = Candidate.firsts candidates := by
  -- the total stays while candidates come to the list one by one
  have go : ∀ (total : Nat) (rest : List Candidate),
      Record.distinct ((rest.mapIdx fun i c => c.record i total).filter Record.visible) =
        rest.zipIdx.filterMap (Candidate.first? rest total) := by
    intro total rest
    induction rest using List.reverseRecOn with
    | nil => rfl
    | append_singleton rest c ih =>
      have older : ∀ p ∈ rest.zipIdx, Candidate.first? (rest ++ [c]) total p =
          Candidate.first? rest total p := by
        intro p hp
        have inside : p.2 < 0 + rest.length := (List.mem_zipIdx hp).2.1
        rw [Candidate.first?, Candidate.isFirst_append (by omega), Candidate.first?]
      have last := Candidate.isFirst_last rest c total
      rw [List.mapIdx_concat, List.filter_append, List.zipIdx_append, List.filterMap_append,
        List.filterMap_congr older, ← ih]
      generalize (rest.mapIdx fun i c => c.record i total).filter Record.visible = known at last ⊢
      by_cases visible : c.visible = true
      · have one : [c.record rest.length total].filter Record.visible =
            [c.record rest.length total] := by simp [Candidate.record, visible]
        rw [one, Record.distinct_append_singleton, Record.insert, Record.hasKey_distinct]
        -- the new candidate counts unless there is a record with its key
        by_cases late : Record.hasKey known c.key = true
        · simp [Candidate.record, Candidate.first?, last, late]
        · simp [Candidate.record, Candidate.kind, Candidate.first?, last, late, visible]
      · simp [Candidate.record, Candidate.first?, last, visible]
  exact go candidates.length candidates

/-! ### Everything that can be done with a visible set -/

/-- Something that is done with a visible set. -/
inductive Use where
  | tick (candidates : List Candidate)
  /-- Everything goes away and is reported. -/
  | takeAll
  /-- Everything goes away, and nobody is told. -/
  | clear
  deriving DecidableEq, Repr

/-- The visible set after a use. -/
def used (s : VisibleSet) : Use → VisibleSet
  | .tick candidates => (s.tick candidates).1
  | .takeAll => s.takeAll.1
  | .clear => ∅

/-- What some uses make of an empty visible set. -/
def after (uses : List Use) : VisibleSet := uses.foldl used ∅

/-- The list that counts after a use: what the tick has read, or no candidates at all. -/
def Use.list : Use → List Candidate
  | tick candidates => candidates
  | takeAll | clear => []

/-- The list that counts after some uses is that of the last one. -/
def lastList (uses : List Use) : List Candidate := (uses.getLast?.map Use.list).getD []

/-- After a use the visible set is that of its list, whatever it was before. -/
theorem records_used (s : VisibleSet) (u : Use) :
    (s.used u).records = Candidate.firsts u.list := by
  cases u with
  | tick candidates => exact (s.tick_records candidates).trans (seen_eq_firsts candidates)
  | takeAll => exact congrArg records s.takeAll_set
  | clear => rfl

/-- The visible set is that of the last list. -/
theorem records_after (uses : List Use) :
    (after uses).records = Candidate.firsts (lastList uses) := by
  rcases List.eq_nil_or_concat uses with rfl | ⟨earlier, u, rfl⟩
  · rfl
  · rw [List.concat_eq_append, after, List.foldl_append, lastList, List.getLast?_append]
    exact records_used _ u

/-- First candidates are in strictly increasing rank. -/
theorem pairwise_rank_firsts (candidates : List Candidate) :
    (Candidate.firsts candidates).Pairwise fun a b => a.rank < b.rank := by
  rw [← seen_eq_firsts]
  exact pairwise_rank_seen candidates

/-- The first visible candidates are in order already, and so is every choice of them. -/
theorem byRank_firsts_filter (candidates : List Candidate) (p : Record → Bool) :
    Record.byRank ((Candidate.firsts candidates).filter p) =
      (Candidate.firsts candidates).filter p :=
  Record.byRank_eq_self ((pairwise_rank_firsts candidates).sublist List.filter_sublist)

/-- A key is missing just if it is not among the keys. -/
theorem not_hasKey (records : List Record) (k : ItemKey) :
    (!Record.hasKey records k) = decide (k ∉ records.map Record.key) := by
  rw [Bool.eq_iff_iff, Bool.not_eq_true', decide_eq_true_iff, ← Record.hasKey_iff, Bool.not_eq_true]

end VisibleSet

/-- **A tick depends on two lists.**  After any ticks and goings, let `before` be the first visible
    candidates of the list that counts.

    * The visible set consists of the records `before`.
    * A tick over a list with the first visible candidates `now` keeps and returns `now`.  Newly
      visible are those of `now` whose keys are not among `before`, and no longer visible are those
      of `before` whose keys are not among `now`, as they were seen then.
    * All three are in strictly increasing rank, and no item is both newly and no longer visible.
    * When everything goes away, all of `before` is no longer visible, in strictly increasing rank
      too; there is nothing to say if that is nothing. -/
theorem tick_depends_on_two_lists (uses : List VisibleSet.Use) :
    let s := VisibleSet.after uses
    let before := Candidate.firsts (VisibleSet.lastList uses)
    s.records = before ∧
    (∀ candidates,
      let now := Candidate.firsts candidates
      let diff := (s.tick candidates).2
      (s.tick candidates).1.records = now ∧ diff.current = now ∧
      diff.newly = now.filter (fun r => r.key ∉ before.map Record.key) ∧
      diff.noLonger = before.filter (fun r => r.key ∉ now.map Record.key) ∧
      diff.active = candidates.length ∧
      (∀ records ∈ [diff.current, diff.newly, diff.noLonger],
        records.Pairwise fun a b => a.rank < b.rank) ∧
      ∀ k ∈ diff.newly.map Record.key, k ∉ diff.noLonger.map Record.key) ∧
    s.takeAll = (∅, if before = [] then none else some ⟨[], before, [], 0⟩) ∧
    before.Pairwise (fun a b => a.rank < b.rank) := by
  intro s before
  have records : s.records = before := VisibleSet.records_after uses
  have ranksBefore : before.Pairwise fun a b => a.rank < b.rank :=
    VisibleSet.pairwise_rank_firsts _
  refine ⟨records, fun candidates => ?_, ?_, ranksBefore⟩
  · intro now diff
    have seen : VisibleSet.seen candidates = now := VisibleSet.seen_eq_firsts candidates
    have current : diff.current = now := (s.tick_current candidates).trans seen
    have newly : diff.newly =
        now.filter (fun r => r.key ∉ before.map Record.key) := by
      rw [← seen, ← records]
      exact List.filter_congr fun r _ => VisibleSet.not_hasKey s.records r.key
    have noLonger : diff.noLonger =
        before.filter (fun r => r.key ∉ now.map Record.key) := by
      rw [← VisibleSet.byRank_firsts_filter, ← seen]
      show _ = Record.byRank (List.filter _ before)
      rw [← records]
      exact congrArg Record.byRank (List.filter_congr fun r _ => VisibleSet.not_hasKey _ r.key)
    refine ⟨(s.tick_records candidates).trans seen, current, newly, noLonger, rfl, ?_, ?_⟩
    · have ranksNow : now.Pairwise fun a b => a.rank < b.rank :=
        VisibleSet.pairwise_rank_firsts candidates
      rw [current, newly, noLonger]
      simp only [List.forall_mem_cons, List.not_mem_nil, false_imp_iff, implies_true, and_true]
      exact ⟨ranksNow, ranksNow.sublist List.filter_sublist,
        ranksBefore.sublist List.filter_sublist⟩
    · intro k new gone
      rw [newly] at new
      rw [noLonger] at gone
      obtain ⟨r, hr, rfl⟩ := List.mem_map.1 new
      obtain ⟨q, hq, same⟩ := List.mem_map.1 gone
      -- what was there before is not new
      have fresh : r.key ∉ before.map Record.key := by simpa using (List.mem_filter.1 hr).2
      exact fresh (same ▸ List.mem_map_of_mem (List.mem_filter.1 hq).1)
  · have ranked : Record.byRank before = before := Record.byRank_eq_self ranksBefore
    rw [VisibleSet.takeAll, records, ranked]
    by_cases none : before = []
    · have empty : s = ∅ := congrArg VisibleSet.mk (records.trans none)
      simp [none, empty]
    · simp [none]

-- an item that was hidden, then visible twice, and comes back when everything has gone away
example :
    let a : ItemKey := ⟨"a"⟩
    let list : List Candidate := [⟨a, false, none⟩, ⟨a, true, some 4⟩, ⟨a, true, some 8⟩]
    let s := VisibleSet.after [.tick list, .clear]
    (s.tick list).2.newly = [⟨a, 1, 3, true, .mainArea⟩] ∧ s.takeAll.2 = none := by decide +kernel

end OnScreen
