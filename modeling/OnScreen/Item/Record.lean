import OnScreen.Item.Key
import OnScreen.Item.Location

namespace OnScreen

/-!
# Records

A record is what one tick saw of one item.  Its identity is its key: rank, total and place are
payload that changes from tick to tick, so a collection of records is a set when no key occurs
twice in it, and of two records with one key the set keeps the one it met first.

* `Record.nodup_distinct`, `Record.hasKey_distinct` — the set of a list names every key of the list
  exactly once.
* `Record.byRank_perm` — the order in which records are reported only permutes them.
-/

/-- One item as seen by one tick. -/
structure Record where
  key : ItemKey
  /-- Position in the list of candidates, from zero. -/
  rank : Nat
  /-- Length of the list of candidates. -/
  total : Nat
  /-- Whether the item was somewhere the user can see it. -/
  visible : Bool
  location : LocationKind
  deriving DecidableEq, Repr, Inhabited

namespace Record

/-- Two records name the same item. -/
def sameItem (a b : Record) : Bool := a.key == b.key

/-- The order in which records are reported: by rank, and among equal ranks by key. -/
def atMost (a b : Record) : Bool :=
  decide (a.rank < b.rank) || (a.rank == b.rank && a.key.atMost b.key)

/-- The records of a list in the order in which they are reported. -/
def byRank (records : List Record) : List Record := records.mergeSort atMost

/-- Whether a record with key `k` is in the list. -/
def hasKey (records : List Record) (k : ItemKey) : Bool := records.any fun r => r.key == k

/-- The record with key `k`, if the list holds one. -/
def withKey? (records : List Record) (k : ItemKey) : Option Record :=
  records.find? fun r => r.key == k

/-- Adds a record to a set of records; a record already there under the same key stays. -/
def insert (records : List Record) (r : Record) : List Record :=
  if hasKey records r.key then records else records ++ [r]

/-- The set of the records of a list: the first record of every key. -/
def distinct (records : List Record) : List Record := records.foldl insert []

/-! ### The order -/

/-- Of two records one is at most the other: ranks are compared first, and keys break ties. -/
theorem atMost_total (a b : Record) : (a.atMost b || b.atMost a) = true := by
  have h := ItemKey.atMost_total a.key b.key
  simp only [atMost, Bool.or_eq_true, Bool.and_eq_true, decide_eq_true_eq, beq_iff_eq] at *
  rcases Nat.lt_trichotomy a.rank b.rank with hr | hr | hr
  · exact .inl (.inl hr)
  · exact h.imp (fun h => .inr ⟨hr, h⟩) (fun h => .inr ⟨hr.symm, h⟩)
  · exact .inr (.inl hr)

/-- The order of records is transitive. -/
theorem atMost_trans {a b c : Record} (hab : a.atMost b = true) (hbc : b.atMost c = true) :
    a.atMost c = true := by
  simp only [atMost, Bool.or_eq_true, Bool.and_eq_true, decide_eq_true_eq, beq_iff_eq] at *
  rcases hab with hab | ⟨hab, kab⟩ <;> rcases hbc with hbc | ⟨hbc, kbc⟩
  · exact .inl (by omega)
  · exact .inl (by omega)
  · exact .inl (by omega)
  · exact .inr ⟨by omega, ItemKey.atMost_trans kab kbc⟩

/-- The order only permutes. -/
theorem byRank_perm (records : List Record) : (byRank records).Perm records :=
  List.mergeSort_perm records atMost

/-- Ordering adds no record and loses none. -/
@[simp] theorem mem_byRank {records : List Record} {r : Record} :
    r ∈ byRank records ↔ r ∈ records := (byRank_perm records).mem_iff

/-! ### Sets of records -/

/-- A key is in a list of records when one of them carries it. -/
theorem hasKey_iff {records : List Record} {k : ItemKey} :
    hasKey records k = true ↔ k ∈ records.map Record.key := by
  simp [hasKey]

/-- An insertion adds the key of the record, whether the record itself was taken or not. -/
theorem hasKey_insert (records : List Record) (r : Record) (k : ItemKey) :
    hasKey (insert records r) k = (hasKey records k || r.key == k) := by
  unfold insert
  split
  · next h =>
    by_cases hk : r.key = k
    · subst hk
      simp [h]
    · simp [hk]
  · simp [hasKey]

/-- Inserting keeps the keys of a set apart. -/
theorem nodup_insert {records : List Record} (h : (records.map Record.key).Nodup) (r : Record) :
    ((insert records r).map Record.key).Nodup := by
  unfold insert
  split
  · exact h
  · next hr =>
    rw [List.map_append, List.nodup_append]
    refine ⟨h, by simp, fun a ha b hb => ?_⟩
    rintro rfl
    rw [List.map_cons, List.map_nil, List.mem_singleton] at hb
    exact hr (hasKey_iff.2 (hb ▸ ha))

/-- The records of a set have different keys. -/
theorem nodup_distinct (records : List Record) : ((distinct records).map Record.key).Nodup := by
  have go : ∀ (rest acc : List Record), (acc.map Record.key).Nodup →
      ((rest.foldl insert acc).map Record.key).Nodup := by
    intro rest
    induction rest with
    | nil => exact fun _ h => h
    | cons r rest ih => exact fun _ h => ih _ (nodup_insert h r)
  exact go records [] List.nodup_nil

/-- A set has the keys of the list it comes from. -/
theorem hasKey_distinct (records : List Record) (k : ItemKey) :
    hasKey (distinct records) k = hasKey records k := by
  have go : ∀ (rest acc : List Record),
      hasKey (rest.foldl insert acc) k = (hasKey acc k || hasKey rest k) := by
    intro rest
    induction rest with
    | nil => intro acc; simp [hasKey]
    | cons r rest ih =>
      intro acc
      rw [List.foldl_cons, ih, hasKey_insert, Bool.or_assoc]
      rfl
  exact (go records []).trans (by simp [hasKey])

end Record

end OnScreen
