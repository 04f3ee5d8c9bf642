import OnScreen.Item.Key

namespace OnScreen

/-!
# Finite maps on item keys

A map holds at most one value for each key.  It is seen through `get?`; what every operation does
to that view is stated beside it.
-/

/-- A finite map from item keys. -/
structure KeyMap (α : Type) where
  entries : List (ItemKey × α)
  nodup : (entries.map Prod.fst).Nodup

namespace KeyMap

variable {α : Type}

/-- The map without entries. -/
def empty : KeyMap α := ⟨[], List.nodup_nil⟩

instance : EmptyCollection (KeyMap α) := ⟨empty⟩

/-- The keys that have a value. -/
def keys (m : KeyMap α) : List ItemKey := m.entries.map Prod.fst

/-- How many keys have a value. -/
def size (m : KeyMap α) : Nat := m.entries.length

/-- The value of `k`. -/
def get? (m : KeyMap α) (k : ItemKey) : Option α :=
  (m.entries.find? fun e => e.1 == k).map Prod.snd

/-- Forgets the value of `k`. -/
def erase (m : KeyMap α) (k : ItemKey) : KeyMap α where
  entries := m.entries.filter fun e => e.1 != k
  nodup := by
    have h : ((m.entries.filter fun e => e.1 != k).map Prod.fst).Sublist m.keys :=
      List.filter_sublist.map _
    exact h.nodup m.nodup

/-- Gives `k` the value `v`. -/
def set (m : KeyMap α) (k : ItemKey) (v : α) : KeyMap α where
  entries := (k, v) :: (m.erase k).entries
  nodup := by
    rw [List.map_cons, List.nodup_cons]
    refine ⟨?_, (m.erase k).nodup⟩
    simp [erase]

@[simp] theorem get?_empty (k : ItemKey) : (∅ : KeyMap α).get? k = none := rfl

/-- After an erasure nothing is found under the key, and under other keys what was found before. -/
theorem get?_erase (m : KeyMap α) (k j : ItemKey) :
    (m.erase k).get? j = if j = k then none else m.get? j := by
  obtain ⟨entries, nodup⟩ := m
  simp only [get?, erase]
  clear nodup
  induction entries with
  | nil => simp
  | cons e rest ih =>
    by_cases hk : e.1 = k <;> by_cases hj : e.1 = j <;> grind

/-- After an assignment the value is found under the key, and under other keys what was found
    before. -/
theorem get?_set (m : KeyMap α) (k j : ItemKey) (v : α) :
    (m.set k v).get? j = if j = k then some v else m.get? j := by
  by_cases h : j = k
  · simp [set, get?, h]
  · have h' : ¬ k = j := fun e => h e.symm
    have := get?_erase m k j
    simp only [get?, h, if_false] at this
    simp [set, get?, h, h', this]

/-- The keys of a map are those under which something is found. -/
theorem mem_keys_iff (m : KeyMap α) (k : ItemKey) : k ∈ m.keys ↔ (m.get? k).isSome := by
  simp [keys, get?]

end KeyMap

end OnScreen
