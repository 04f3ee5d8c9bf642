import Mathlib.Data.List.Induction
import OnScreen.Visibility

namespace OnScreen

/-!
# What a tick sees

A tick sees the first visible record of every key, in the order of the list of candidates.  That
order is the order of ranks already, so reporting by rank moves nothing.

* `VisibleSet.seen` — what a tick over a list of candidates sees.
* `VisibleSet.tick_records`, `VisibleSet.tick_current` — a tick keeps and returns just that.
* `VisibleSet.mem_keys_seen` — which keys are seen.
* `VisibleSet.rank_of_mem_seen`, `VisibleSet.location_of_mem_seen` — a record that is seen speaks of
  the first visible candidate with its key.
-/

/-! ### The first record of every key -/

namespace Record

/-- A record at the end of a list counts if its key is new. -/
theorem distinct_append_singleton (records : List Record) (r : Record) :
    distinct (records ++ [r]) = insert (distinct records) r := by
  simp [distinct]

/-- Taking the first record of every key only leaves records out. -/
theorem distinct_sublist (records : List Record) : (distinct records).Sublist records := by
  induction records using List.reverseRecOn with
  | nil => exact .slnil
  | append_singleton rest r ih =>
    rw [distinct_append_singleton, insert]
    split
    · exact ih.trans (List.sublist_append_left rest [r])
    · exact ih.append (List.Sublist.refl [r])

/-- Among the first records of every key is exactly what a search for the key finds. -/
theorem mem_distinct_iff {records : List Record} {r : Record} :
    r ∈ distinct records ↔ withKey? records r.key = some r := by
  induction records using List.reverseRecOn with
  | nil => simp [distinct, withKey?]
  | append_singleton rest last ih =>
    rw [distinct_append_singleton, insert, hasKey_distinct]
    simp only [withKey?, List.find?_append] at ih ⊢
    by_cases known : hasKey rest last.key = true
    · -- the last record comes too late, and a search for its key ends before it
      rw [if_pos known, ih]
      cases hf : rest.find? (fun x => x.key == r.key) with
      | some found => simp
      | none =>
        have other : last.key ≠ r.key := by
          intro same
          obtain ⟨x, hx, hk⟩ := List.any_eq_true.1 known
          exact List.find?_eq_none.1 hf x hx (same ▸ hk)
        simp [other]
    · -- the last record is the first one of its key
      rw [if_neg known, List.mem_append, List.mem_singleton, ih]
      cases hf : rest.find? (fun x => x.key == r.key) with
      | some found =>
        have other : r ≠ last := by
          rintro rfl
          have hk := List.find?_some hf
          exact known (List.any_eq_true.2 ⟨found, List.mem_of_find?_eq_some hf, hk⟩)
        simp [other]
      | none =>
        by_cases same : r = last
        · simp [same]
        · simp [same, Ne.symm same]

/-- Ordering leaves nothing just where there is nothing. -/
@[simp] theorem isEmpty_byRank (records : List Record) :
    (byRank records).isEmpty = records.isEmpty :=
  (byRank_perm records).isEmpty_eq

/-- Records in strictly increasing rank are in the order in which they are reported. -/
theorem byRank_eq_self {records : List Record}
    (h : records.Pairwise fun a b => a.rank < b.rank) : byRank records = records := by
  refine List.mergeSort_of_pairwise (h.imp fun {a b} lt => ?_)
  simp [atMost, lt]

end Record

/-! ### Candidates by key -/

namespace Candidate

/-- The first visible candidate with key `k`. -/
def firstVisible? (candidates : List Candidate) (k : ItemKey) : Option Candidate :=
  candidates.find? fun c => c.visible && c.key == k

/-- The position of the first visible candidate with key `k`. -/
def rankOf (candidates : List Candidate) (k : ItemKey) : Nat :=
  candidates.findIdx fun c => c.visible && c.key == k

/-- The records of a list of candidates are in strictly increasing rank. -/
theorem pairwise_rank_records (candidates : List Candidate) :
    (records candidates).Pairwise fun a b => a.rank < b.rank := by
  rw [List.pairwise_iff_getElem]
  intro i j hi hj lt
  simpa [records, record] using lt

/-- The first visible record of a key is the record of the first visible candidate with it. -/
theorem find?_records (candidates : List Candidate) (k : ItemKey) :
    (records candidates).find? (fun r => r.visible && r.key == k) =
      (firstVisible? candidates k).map fun c =>
        c.record (rankOf candidates k) candidates.length := by
  -- the total stays while the list gets shorter, and the ranks start at any number
  have go : ∀ (rest : List Candidate) (start total : Nat),
      (rest.mapIdx fun i c => c.record (i + start) total).find? (fun r => r.visible && r.key == k) =
        (firstVisible? rest k).map fun c => c.record (rankOf rest k + start) total := by
    intro rest
    induction rest with
    | nil => intro _ _; rfl
    | cons c rest ih =>
      intro start total
      rw [List.mapIdx_cons, List.find?_cons, firstVisible?, List.find?_cons, rankOf,
        List.findIdx_cons]
      have same : ((c.record (0 + start) total).visible && (c.record (0 + start) total).key == k) =
          (c.visible && c.key == k) := rfl
      rw [same]
      cases c.visible && c.key == k with
      | true => simp
      | false =>
        have shift : (fun i (c : Candidate) => c.record (i + 1 + start) total) =
            fun i c => c.record (i + (start + 1)) total := by
          funext i c
          congr 1
          omega
        have := ih (start + 1) total
        simp only [shift, this, firstVisible?, rankOf, cond_false]
        congr 1
        funext c
        congr 1
        omega
  exact go candidates 0 candidates.length

end Candidate

/-! ### What a tick sees, keeps and returns -/

namespace VisibleSet

/-- What a tick over a list of candidates sees. -/
def seen (candidates : List Candidate) : List Record :=
  Record.distinct ((Candidate.records candidates).filter Record.visible)

/-- The keys of the items that were visible at the last tick. -/
def keys (s : VisibleSet) : List ItemKey := s.records.map Record.key

@[simp] theorem keys_empty : (∅ : VisibleSet).keys = [] := rfl

theorem isVisible_iff (s : VisibleSet) (k : ItemKey) : s.isVisible k = true ↔ k ∈ s.keys :=
  Record.hasKey_iff

/-- A tick sees every item once. -/
theorem nodup_keys_seen (candidates : List Candidate) : ((seen candidates).map Record.key).Nodup :=
  Record.nodup_distinct _

-- of three candidates with one key, the second is the first that is visible
example : (seen [⟨⟨"a"⟩, false, none⟩, ⟨⟨"a"⟩, true, some 4⟩, ⟨⟨"a"⟩, true, some 8⟩]).map
    (fun r => (r.rank, r.location)) = [(1, .mainArea)] := by decide +kernel

/-- A tick sees items in the order of the list, so by rank. -/
theorem pairwise_rank_seen (candidates : List Candidate) :
    (seen candidates).Pairwise fun a b => a.rank < b.rank :=
  ((Candidate.pairwise_rank_records candidates).sublist List.filter_sublist).sublist
    (Record.distinct_sublist _)

/-- A tick keeps what it sees. -/
theorem tick_records (s : VisibleSet) (candidates : List Candidate) :
    (s.tick candidates).1.records = seen candidates := rfl

/-- What is visible now is what the tick sees, in the order in which it sees it. -/
theorem tick_current (s : VisibleSet) (candidates : List Candidate) :
    (s.tick candidates).2.current = seen candidates :=
  Record.byRank_eq_self (pairwise_rank_seen candidates)

/-- Newly visible is what is seen now and was not seen before. -/
theorem mem_newly_iff (s : VisibleSet) (candidates : List Candidate) (r : Record) :
    r ∈ (s.tick candidates).2.newly ↔ r ∈ seen candidates ∧ r.key ∉ s.keys := by
  rw [← isVisible_iff, Bool.not_eq_true]
  simp [tick, apply, seen, isVisible]

/-- No longer visible is what was seen before and is not seen now. -/
theorem mem_noLonger_iff (s : VisibleSet) (candidates : List Candidate) (r : Record) :
    r ∈ (s.tick candidates).2.noLonger ↔
      r ∈ s.records ∧ r.key ∉ (seen candidates).map Record.key := by
  rw [← Record.hasKey_iff, Bool.not_eq_true]
  simp [tick, apply, seen]

/-- What is seen of a key is the record of the first visible candidate with it. -/
theorem mem_seen_iff {candidates : List Candidate} {r : Record} :
    r ∈ seen candidates ↔ ∃ c, Candidate.firstVisible? candidates r.key = some c ∧
      c.record (Candidate.rankOf candidates r.key) candidates.length = r := by
  have found := Candidate.find?_records candidates r.key
  rw [seen, Record.mem_distinct_iff, Record.withKey?, List.find?_filter]
  simp only [Bool.decide_and, Bool.decide_eq_true, found, Option.map_eq_some_iff]

/-- The keys that are seen are those of the candidates that are visible. -/
theorem mem_keys_seen {candidates : List Candidate} {k : ItemKey} :
    k ∈ (seen candidates).map Record.key ↔ ∃ c ∈ candidates, c.visible = true ∧ c.key = k := by
  rw [List.mem_map]
  constructor
  · rintro ⟨r, hr, rfl⟩
    obtain ⟨c, found, -⟩ := mem_seen_iff.1 hr
    have fits := List.find?_some found
    simp only [Bool.and_eq_true, beq_iff_eq] at fits
    exact ⟨c, List.mem_of_find?_eq_some found, fits⟩
  · rintro ⟨c, hc, visible, rfl⟩
    -- what is seen is the first candidate like `c`
    have some : (Candidate.firstVisible? candidates c.key).isSome := by
      rw [Candidate.firstVisible?, List.find?_isSome]
      exact ⟨c, hc, by simp [visible]⟩
    obtain ⟨first, found⟩ := Option.isSome_iff_exists.1 some
    have key : first.key = c.key := by
      have fits := List.find?_some found
      simp only [Bool.and_eq_true, beq_iff_eq] at fits
      exact fits.2
    rw [← key] at found
    exact ⟨first.record (Candidate.rankOf candidates first.key) candidates.length,
      mem_seen_iff.2 ⟨first, found, rfl⟩, key⟩

/-- The rank of a record that is seen is the position of the first visible candidate with its
    key. -/
theorem rank_of_mem_seen {candidates : List Candidate} {r : Record} (h : r ∈ seen candidates) :
    r.rank = Candidate.rankOf candidates r.key := by
  obtain ⟨c, -, hr⟩ := mem_seen_iff.1 h
  exact (congrArg Record.rank hr).symm

/-- The place of a record that is seen is that of the first visible candidate with its key. -/
theorem location_of_mem_seen {candidates : List Candidate} {r : Record}
    (h : r ∈ seen candidates) :
    (Candidate.firstVisible? candidates r.key).map Candidate.kind = some r.location := by
  obtain ⟨c, hc, hr⟩ := mem_seen_iff.1 h
  rw [hc, Option.map_some]
  exact congrArg (fun r => some r.location) hr

/-! ### Who came and who went -/

/-- The two lists say which items came and which went between two visible sets, each item once. -/
structure Turnover (s t : VisibleSet) (newly noLonger : List Record) : Prop where
  mem_newly : ∀ k, k ∈ newly.map Record.key ↔ k ∈ t.keys ∧ k ∉ s.keys
  mem_noLonger : ∀ k, k ∈ noLonger.map Record.key ↔ k ∈ s.keys ∧ k ∉ t.keys
  nodup_newly : (newly.map Record.key).Nodup
  nodup_noLonger : (noLonger.map Record.key).Nodup

/-- Nobody has to come or go for a set to stay as it is. -/
theorem turnover_refl (s : VisibleSet) : Turnover s s [] [] where
  mem_newly := by simp
  mem_noLonger := by simp
  nodup_newly := List.nodup_nil
  nodup_noLonger := List.nodup_nil

/-- Reporting by rank keeps different keys different. -/
theorem nodup_keys_byRank {records : List Record} (h : (records.map Record.key).Nodup) :
    ((Record.byRank records).map Record.key).Nodup :=
  ((Record.byRank_perm records).map Record.key).nodup_iff.2 h

/-- A tick reports who came and who went. -/
theorem tick_turnover {s : VisibleSet} (h : s.keys.Nodup) (candidates : List Candidate) :
    Turnover s (s.tick candidates).1 (s.tick candidates).2.newly
      (s.tick candidates).2.noLonger where
  mem_newly k := by
    rw [keys, tick_records, List.mem_map, List.mem_map]
    constructor
    · rintro ⟨r, hr, rfl⟩
      obtain ⟨now, before⟩ := (mem_newly_iff s candidates r).1 hr
      exact ⟨⟨r, now, rfl⟩, before⟩
    · rintro ⟨⟨r, now, rfl⟩, before⟩
      exact ⟨r, (mem_newly_iff s candidates r).2 ⟨now, before⟩, rfl⟩
  mem_noLonger k := by
    -- the old records are reported, so it is their keys that must be compared
    rw [List.mem_map, keys, List.mem_map]
    constructor
    · rintro ⟨r, hr, rfl⟩
      obtain ⟨before, now⟩ := (mem_noLonger_iff s candidates r).1 hr
      exact ⟨⟨r, before, rfl⟩, now⟩
    · rintro ⟨⟨r, before, rfl⟩, now⟩
      exact ⟨r, (mem_noLonger_iff s candidates r).2 ⟨before, now⟩, rfl⟩
  nodup_newly := (List.filter_sublist.map Record.key).nodup (nodup_keys_seen candidates)
  nodup_noLonger := nodup_keys_byRank ((List.filter_sublist.map Record.key).nodup h)

/-- Nothing is visible after everything has gone away. -/
theorem takeAll_set (s : VisibleSet) : s.takeAll.1 = ∅ := by
  obtain ⟨records⟩ := s
  cases records <;> rfl

/-- Whoever takes leave of a visible set that is not empty names every item in it. -/
theorem takeAll_turnover {s : VisibleSet} (h : s.keys.Nodup) :
    Turnover s ∅ [] (Record.byRank s.records) where
  mem_newly := by simp
  mem_noLonger k := by
    rw [keys_empty]
    simp [keys]
  nodup_newly := List.nodup_nil
  nodup_noLonger := nodup_keys_byRank h

end VisibleSet

end OnScreen
