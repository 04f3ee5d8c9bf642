import OnScreen.Item.Record

namespace OnScreen

/-!
# Candidates

The renderer owns a ranked list of the items that could be on screen.  The tracker only ever takes
a snapshot of it: a list of candidates, in rank order, in which a key may occur more than once.
-/

/-- An item that could be on screen, as the renderer knows it. -/
structure Candidate where
  key : ItemKey
  /-- Whether the item sits somewhere the user can see it. -/
  visible : Bool
  /-- The raw placement code, absent while the item has no layout. -/
  location : Option Int32
  deriving DecidableEq, Repr, Inhabited

namespace Candidate

/-- Where the candidate sits. -/
def kind (c : Candidate) : LocationKind := .ofPlacement c.location

/-- What a tick over `candidates` sees of the candidate at position `rank`. -/
def record (c : Candidate) (rank total : Nat) : Record where
  key := c.key
  rank := rank
  total := total
  visible := c.visible
  location := c.kind

/-- What a tick sees of a list of candidates. -/
def records (candidates : List Candidate) : List Record :=
  candidates.mapIdx fun rank c => c.record rank candidates.length

/-- The placement code of the first candidate with key `k`. -/
def codeOf (candidates : List Candidate) (k : ItemKey) : Option Int32 :=
  (candidates.find? fun c => c.key == k).bind location

/-- Where the first candidate with key `k` sits; unknown when there is none. -/
def kindOf (candidates : List Candidate) (k : ItemKey) : LocationKind :=
  .ofPlacement (codeOf candidates k)

end Candidate

end OnScreen
