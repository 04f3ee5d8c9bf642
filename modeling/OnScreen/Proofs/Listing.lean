import OnScreen.Proofs.Diff

namespace OnScreen

/-!
# The order in which a set is listed

A set of records may be kept in a way that says nothing about the order in which they are found when
they are listed, and the next listing may have another order.  A tick asks a set only for its keys
and sorts whatever it lists.  Ranks and keys together leave no doubt about the order, for no key
occurs twice in a set; so nobody who reads the reports can tell how the sets were listed.

* `Record.Precedes`, `Record.byRank_eq_of_precedes` — the order of reports, and that a set has only
  one.
* `Record.byRank_congr` — a set is reported the same, in whatever order it is listed.
* `VisibleSet.gather` — one tick that goes through its records one after the other.
* `VisibilityDiff.ofListings`, `VisibilityDiff.ofLeave` — what is reported by way of listings.
* `listings_leave_no_trace` — all listings lead to the same reports.
-/

namespace Record

/-! ### The order of reports -/

/-- `a` is reported in front of `b`: it has the lower rank, or the same rank and the lower key. -/
def Precedes (a b : Record) : Prop :=
  a.rank < b.rank ∨ a.rank = b.rank ∧ a.key.text < b.key.text

instance (a b : Record) : Decidable (a.Precedes b) := inferInstanceAs (Decidable (_ ∨ _))

/-- Of two records at most one comes before the other. -/
theorem Precedes.asymm {a b : Record} (h : a.Precedes b) : ¬b.Precedes a := by
  rintro (less | ⟨rank, less⟩)
  · rcases h with more | ⟨same, -⟩ <;> omega
  · rcases h with more | ⟨-, more⟩
    · omega
    · exact String.lt_asymm less more

/-- Of two records with different keys, the one that comes no later comes first. -/
theorem precedes_of_atMost {a b : Record} (h : a.atMost b = true) (other : a.key ≠ b.key) :
    a.Precedes b := by
  simp only [atMost, Bool.or_eq_true, Bool.and_eq_true, decide_eq_true_eq, beq_iff_eq] at h
  rcases h with less | ⟨rank, key⟩
  · exact .inl less
  · refine .inr ⟨rank, ?_⟩
    rw [← String.not_le]
    intro back
    exact other (ItemKey.atMost_antisymm key ((ItemKey.atMost_iff _ _).2 back))

/-- A set is reported in strictly increasing order. -/
theorem precedes_byRank {records : List Record} (apart : (records.map key).Nodup) :
    (byRank records).Pairwise Precedes := by
  have sorted : (byRank records).Pairwise fun a b => a.atMost b = true :=
    @List.pairwise_mergeSort _ atMost (fun _ _ _ => atMost_trans) atMost_total records
  have different : (byRank records).Pairwise fun a b => a.key ≠ b.key :=
    List.pairwise_map.1 (((byRank_perm records).map key).nodup_iff.2 apart)
  exact (sorted.and different).imp fun ⟨before, other⟩ => precedes_of_atMost before other

/-- Whatever list of a set is in the order of reports is the one that is reported. -/
theorem byRank_eq_of_precedes {records ordered : List Record} (apart : (records.map key).Nodup)
    (same : ordered.Perm records) (sorted : ordered.Pairwise Precedes) : byRank records = ordered :=
  ((byRank_perm records).trans same.symm).eq_of_pairwise
    (fun _ _ _ _ before after => absurd after before.asymm) (precedes_byRank apart) sorted

/-- A set is reported the same, in whatever order it is listed. -/
theorem byRank_congr {records listing : List Record} (apart : (records.map key).Nodup)
    (same : listing.Perm records) : byRank listing = byRank records := by
  have apart' : (listing.map key).Nodup := (same.map key).nodup_iff.2 apart
  exact byRank_eq_of_precedes apart' ((byRank_perm records).trans same.symm) (precedes_byRank apart)

/-- A set has its keys in whatever order it is listed. -/
theorem hasKey_congr {records listing : List Record} (same : listing.Perm records) (k : ItemKey) :
    hasKey listing k = hasKey records k := by
  rw [Bool.eq_iff_iff, hasKey_iff, hasKey_iff]
  exact (same.map key).mem_iff

/-- What is picked from a set by its key is a set. -/
theorem nodup_keys_filter {records : List Record} (apart : (records.map key).Nodup)
    (p : Record → Bool) : ((records.filter p).map key).Nodup :=
  (List.filter_sublist.map key).nodup apart

end Record

/-! ### A tick by way of listings -/

namespace VisibleSet

/-- Takes one more record of a tick.  A visible one goes into the set, unless its key is there
    already, and it is news if its key was not there at the tick before either. -/
def take (before : List Record) (sofar : List Record × List Record) (r : Record) :
    List Record × List Record :=
  let (now, newly) := sofar
  if r.visible then
    (Record.insert now r,
      if !Record.hasKey before r.key && !Record.hasKey now r.key then newly ++ [r] else newly)
  else (now, newly)

/-- Takes the records of a tick one after the other: the set of those that are visible now, and the
    news, in the order of the records. -/
def gather (before : List Record) (records : List Record) : List Record × List Record :=
  records.foldl (take before) ([], [])

/-- News is what is in the set and was not there before. -/
theorem take_eq (before now : List Record) {r : Record} (visible : r.visible = true) :
    let isNew := fun (r : Record) => !Record.hasKey before r.key
    take before (now, now.filter isNew) r =
      (Record.insert now r, (Record.insert now r).filter isNew) := by
  intro isNew
  rw [take, if_pos visible, Record.insert]
  cases there : Record.hasKey now r.key with
  | true => simp
  | false => cases old : Record.hasKey before r.key <;> simp [isNew, old]

/-- Taken one after the other the records of a tick make the set of the visible ones, and the news
    of it. -/
theorem gather_eq (before records : List Record) :
    let now := Record.distinct (records.filter Record.visible)
    gather before records = (now, now.filter fun r => !Record.hasKey before r.key) := by
  -- generalized over the list so far, whose newcomers are told by the same filter
  have go : ∀ now : List Record,
      records.foldl (take before) (now, now.filter fun r => !Record.hasKey before r.key) =
        let all := (records.filter Record.visible).foldl Record.insert now
        (all, all.filter fun r => !Record.hasKey before r.key) := by
    induction records with
    | nil => exact fun _ => rfl
    | cons r rest ih =>
      intro now
      rw [List.foldl_cons]
      cases visible : r.visible with
      | true =>
        rw [take_eq before now visible, ih, List.filter_cons_of_pos visible]
        rfl
      | false =>
        -- a record that is not visible changes neither list
        have skipped : take before (now, now.filter fun r => !Record.hasKey before r.key) r =
            (now, now.filter fun r => !Record.hasKey before r.key) := by simp [take, visible]
        rw [skipped, ih, List.filter_cons_of_neg (by simp [visible])]
  exact go []

end VisibleSet

namespace VisibilityDiff

/-- What a tick reports that lists its two sets as `before` and `now`. -/
def ofListings (before now newly : List Record) (active : Nat) : VisibilityDiff where
  newly := newly
  noLonger := Record.byRank (before.filter fun r => !Record.hasKey now r.key)
  current := Record.byRank now
  active := active

/-- What is reported when everything goes away that is listed as `before`. -/
def ofLeave (before : List Record) : Option VisibilityDiff :=
  if before.isEmpty then none
  else some { newly := [], noLonger := Record.byRank before, current := [], active := 0 }

end VisibilityDiff

/-! ### All listings -/

/-- **Listings leave no trace.**  In whatever order a tick comes upon the records of the last set
    and of the new one, it reports the same, and the same set is kept; and so it is when everything
    goes away.  What is visible and what is no longer visible is reported in strictly increasing
    order of ranks and keys, each key once.  Sorting moves records and does nothing else, whatever
    the records are. -/
theorem listings_leave_no_trace (s : VisibleSet) (apart : s.keys.Nodup) (records : List Record)
    (active : Nat) :
    let t := (s.apply records active).1
    let d := (s.apply records active).2
    (∀ before now, before.Perm s.records → now.Perm (VisibleSet.gather before records).1 →
      now.Perm t.records ∧
        VisibilityDiff.ofListings before now (VisibleSet.gather before records).2 active = d) ∧
    (∀ before, before.Perm s.records → VisibilityDiff.ofLeave before = s.takeAll.2) ∧
    (t.keys.Nodup ∧ s.takeAll.1.keys.Nodup) ∧
    (∀ e, e = d ∨ s.takeAll.2 = some e →
      (e.current.Pairwise Record.Precedes ∧ (e.current.map Record.key).Nodup) ∧
        e.noLonger.Pairwise Record.Precedes ∧ (e.noLonger.map Record.key).Nodup) ∧
    ∀ l, (Record.byRank l).Perm l := by
  intro t d
  have nowApart : t.keys.Nodup := Record.nodup_distinct _
  have goneApart :
      ((s.records.filter fun r => !Record.hasKey t.records r.key).map Record.key).Nodup :=
    Record.nodup_keys_filter apart _
  refine ⟨fun before now listed gathered => ?_, fun before listed => ?_, ⟨nowApart, ?_⟩, ?_,
    Record.byRank_perm⟩
  · rw [VisibleSet.gather_eq] at gathered ⊢
    have lists : now.Perm t.records := gathered
    -- whoever is gone is told by membership alone, so the order does not matter
    have gone : (before.filter fun r => !Record.hasKey now r.key).Perm
        (s.records.filter fun r => !Record.hasKey t.records r.key) := by
      simp only [Record.hasKey_congr lists]
      exact listed.filter _
    refine ⟨lists, ?_⟩
    simp only [VisibilityDiff.ofListings, Record.byRank_congr nowApart lists,
      Record.byRank_congr goneApart gone, Record.hasKey_congr listed]
    rfl
  · rw [VisibilityDiff.ofLeave, VisibleSet.takeAll, Record.byRank_congr apart listed,
      listed.isEmpty_eq]
    split <;> rfl
  · rw [VisibleSet.takeAll_set]
    exact List.nodup_nil
  · rintro e (rfl | leave)
    · exact ⟨⟨Record.precedes_byRank nowApart, VisibleSet.nodup_keys_byRank nowApart⟩,
        Record.precedes_byRank goneApart, VisibleSet.nodup_keys_byRank goneApart⟩
    · rw [VisibleSet.takeAll] at leave
      split at leave
      · cases leave
      · obtain rfl := Option.some.inj leave
        exact ⟨⟨.nil, List.nodup_nil⟩, Record.precedes_byRank apart,
          VisibleSet.nodup_keys_byRank apart⟩

/-- Two items of the same rank go away, of two records with one key the first stays, and both sets
    are listed backwards. -/
theorem listings_leave_no_trace_ties :
    let r (key : String) (rank : Nat) : Record := ⟨⟨key⟩, rank, 9, true, .mainArea⟩
    let s : VisibleSet := ⟨[r "b" 3, r "a" 3, r "c" 0]⟩
    let before := [r "c" 0, r "a" 3, r "b" 3]
    let records := [r "d" 7, r "c" 7, r "d" 0]
    let now := [r "c" 7, r "d" 7]
    s.keys.Nodup ∧ before.Perm s.records ∧ now.Perm (VisibleSet.gather before records).1 ∧
      VisibilityDiff.ofListings before now (VisibleSet.gather before records).2 3 =
        (s.apply records 3).2 ∧
      (s.apply records 3).2.noLonger = [r "a" 3, r "b" 3] ∧ (s.apply records 3).2.current = now := by
  intro r s before records now
  have apart : s.keys.Nodup := by decide
  have listed : before.Perm s.records := by decide
  have gathered : now.Perm (VisibleSet.gather before records).1 := by decide
  obtain ⟨reports, -⟩ := listings_leave_no_trace s apart records 3
  exact ⟨apart, listed, gathered, (reports before now listed gathered).2,
    Record.byRank_eq_of_precedes (by decide) (by decide) (by decide),
    Record.byRank_eq_of_precedes (by decide) (by decide) (by decide)⟩

end OnScreen
