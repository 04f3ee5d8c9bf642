namespace OnScreen

/-!
# Item keys

A key is the stable name of a tracked item.  Everything the tracker remembers about an item is
remembered under its key, and keys are ordered by their text, code point by code point, which is
also the order of their UTF-8 bytes.
-/

/-- The stable name of a tracked item.  Any text is a key, the empty one included. -/
structure ItemKey where
  text : String
  deriving DecidableEq, Repr, Inhabited, Hashable

namespace ItemKey

instance : ToString ItemKey := ⟨ItemKey.text⟩

/-- `a.atMost b` holds when `a` comes no later than `b` in the order of keys. -/
def atMost (a b : ItemKey) : Bool := decide (a.text ≤ b.text)

/-- The three-way comparison that the order of keys induces. -/
def order (a b : ItemKey) : Ordering :=
  if a.text < b.text then .lt else if b.text < a.text then .gt else .eq

/-- The keys of a list in increasing order, repetitions kept. -/
def sorted (keys : List ItemKey) : List ItemKey := keys.mergeSort atMost

/-- Keys are ordered as their texts are. -/
theorem atMost_iff (a b : ItemKey) : a.atMost b = true ↔ a.text ≤ b.text := by
  simp [atMost]

/-- Of two keys one is at most the other. -/
theorem atMost_total (a b : ItemKey) : (a.atMost b || b.atMost a) = true := by
  simp only [Bool.or_eq_true, atMost_iff]
  exact String.le_total a.text b.text

/-- The order of keys is transitive. -/
theorem atMost_trans {a b c : ItemKey} (hab : a.atMost b = true) (hbc : b.atMost c = true) :
    a.atMost c = true := by
  rw [atMost_iff] at *
  exact String.le_trans hab hbc

/-- Keys that are at most each other are the same, so no two keys tie. -/
theorem atMost_antisymm {a b : ItemKey} (hab : a.atMost b = true) (hba : b.atMost a = true) :
    a = b := by
  rw [atMost_iff] at *
  obtain ⟨a⟩ := a
  obtain ⟨b⟩ := b
  exact congrArg ItemKey.mk (String.le_antisymm hab hba)

end ItemKey

end OnScreen
