import OnScreen.Item.Candidate
import OnScreen.Log

namespace OnScreen

/-!
# Which items are on screen

Each tick sees the whole list of candidates and compares the items that are visible now with those
that were visible at the tick before.  The set of visible items is replaced, never merged, so what
a tick reports depends on the last two lists alone.

* `VisibleSet.apply` — one tick over records that are already built.
* `VisibleSet.tick` — one tick over a list of candidates.
* `VisibleSet.takeAll` — everything leaves the screen at once.
-/

/-- What changed between two ticks. -/
structure VisibilityDiff where
  /-- Visible now and not before, in the order of the list of candidates. -/
  newly : List Record
  /-- Visible before and not now, as they were seen before, by rank. -/
  noLonger : List Record
  /-- Visible now, by rank. -/
  current : List Record
  /-- How many candidates the tick examined. -/
  active : Nat
  deriving DecidableEq, Repr

namespace VisibilityDiff

/-- Nothing appeared and nothing went away. -/
def isEmpty (d : VisibilityDiff) : Bool := d.newly.isEmpty && d.noLonger.isEmpty

/-- How the log speaks of a tick. -/
def logEntry (d : VisibilityDiff) : LogEntry where
  level := .debug
  message := "Visibility tick"
  fields :=
    [("active", .count d.active), ("visible", .count d.current.length),
     ("newly", .count d.newly.length), ("no_longer", .count d.noLonger.length)]

end VisibilityDiff

/-- The items that were visible at the last tick: a set of records, one for each key. -/
structure VisibleSet where
  records : List Record
  deriving DecidableEq, Repr

namespace VisibleSet

/-- Nothing is visible. -/
def empty : VisibleSet := ⟨[]⟩

instance : EmptyCollection VisibleSet := ⟨empty⟩

/-- How many items are visible. -/
def size (s : VisibleSet) : Nat := s.records.length

/-- Whether the item with key `k` was visible at the last tick. -/
def isVisible (s : VisibleSet) (k : ItemKey) : Bool := Record.hasKey s.records k

/-- One tick over the records of all `active` candidates.  Of several visible records with one key
    the first counts. -/
def apply (s : VisibleSet) (records : List Record) (active : Nat) : VisibleSet × VisibilityDiff :=
  let now := Record.distinct (records.filter Record.visible)
  (⟨now⟩,
    { newly := now.filter fun r => !Record.hasKey s.records r.key
      noLonger := Record.byRank (s.records.filter fun r => !Record.hasKey now r.key)
      current := Record.byRank now
      active := active })

/-- One tick over a list of candidates. -/
def tick (s : VisibleSet) (candidates : List Candidate) : VisibleSet × VisibilityDiff :=
  s.apply (Candidate.records candidates) candidates.length

/-- Everything that was visible goes away.  There is nothing to say when nothing was visible. -/
def takeAll (s : VisibleSet) : VisibleSet × Option VisibilityDiff :=
  if s.records.isEmpty then (s, none)
  else
    (∅, some { newly := [], noLonger := Record.byRank s.records, current := [], active := 0 })

end VisibleSet

end OnScreen
