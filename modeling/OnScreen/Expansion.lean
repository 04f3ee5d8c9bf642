import OnScreen.Item.Record
import OnScreen.KeyMap
import OnScreen.Log

namespace OnScreen

/-!
# Expansion states

Three things are learned about an item independently: whether it is visible, whether it is expanded
and whether its last expansion came from the user.  Together with its place they are merged into at
most one report for each real change between collapsed and expanded.

An item is judged only once all four are known, and then

* an invisible item is not reported,
* an item that was never reported counts as reported collapsed,
* an item is reported only when its state differs from the one reported last.
-/

/-- What has been learned about an item. -/
structure ExpansionState where
  userAction : Option Bool
  expanded : Option Bool
  visible : Option Bool
  location : Option LocationKind
  deriving DecidableEq, Repr, Inhabited

namespace ExpansionState

/-- Nothing has been learned. -/
def blank : ExpansionState := ⟨none, none, none, none⟩

/-- How many of the four are known. -/
def observed (s : ExpansionState) : Nat :=
  s.userAction.isSome.toNat + s.expanded.isSome.toNat + s.visible.isSome.toNat +
    s.location.isSome.toNat

/-- All four are known. -/
def isComplete (s : ExpansionState) : Bool :=
  s.userAction.isSome && s.expanded.isSome && s.visible.isSome && s.location.isSome

end ExpansionState

/-- A change between collapsed and expanded, as it is reported. -/
structure ExpansionChange where
  key : ItemKey
  /-- Whether the user caused it. -/
  userAction : Bool
  /-- The new state. -/
  expanded : Bool
  /-- Where the item sat. -/
  location : LocationKind
  deriving DecidableEq, Repr

/-- How the log speaks of a change. -/
def ExpansionChange.logEntry (c : ExpansionChange) : LogEntry where
  level := .debug
  message := "Expansion change"
  fields :=
    [("key", .text c.key.text), ("is_user_action", .flag c.userAction),
     ("is_expanded", .flag c.expanded), ("location", .text c.location.label)]

/-- Something that is learned about items. -/
inductive ExpansionSignal where
  /-- An item was expanded or collapsed. -/
  | expansion (key : ItemKey) (userAction expanded : Bool) (location : LocationKind)
  /-- Items became visible; afterwards items went away. -/
  | visibility (newly gone : List Record)
  /-- An item left the collection. -/
  | removed (key : ItemKey)
  /-- An item was replaced by a new one with its key. -/
  | updated (key : ItemKey)
  deriving DecidableEq, Repr

/-- The states of all items, and what was reported last of each. -/
structure Expansions where
  states : KeyMap ExpansionState
  reported : KeyMap Bool

namespace Expansions

/-- Nothing is known of any item. -/
def empty : Expansions := ⟨∅, ∅⟩

instance : EmptyCollection Expansions := ⟨empty⟩

/-- What is known of an item, nothing if it was never named. -/
def stateOf (x : Expansions) (k : ItemKey) : ExpansionState := (x.states.get? k).getD .blank

/-- How many items something is known of. -/
def tracked (x : Expansions) : Nat := x.states.size

/-- The change to report for an item in state `s` whose last reported state is `last`. -/
def change? (key : ItemKey) (s : ExpansionState) (last : Option Bool) : Option ExpansionChange :=
  match s.userAction, s.expanded, s.visible, s.location with
  | some user, some expanded, some true, some location =>
    if expanded = last.getD false then none else some ⟨key, user, expanded, location⟩
  | _, _, _, _ => none

/-- Gives an item a new state and reports the change this makes. -/
def evaluate (x : Expansions) (k : ItemKey) (s : ExpansionState) :
    Expansions × Option ExpansionChange :=
  let x := { x with states := x.states.set k s }
  match change? k s (x.reported.get? k) with
  | some c => ({ x with reported := x.reported.set k c.expanded }, some c)
  | none => (x, none)

/-- An item was expanded or collapsed. -/
def expand (x : Expansions) (k : ItemKey) (user expanded : Bool) (location : LocationKind) :
    Expansions × Option ExpansionChange :=
  x.evaluate k
    { x.stateOf k with
      userAction := some user, expanded := some expanded, location := some location }

/-- An item became visible. -/
def appear (x : Expansions) (r : Record) : Expansions × Option ExpansionChange :=
  x.evaluate r.key { x.stateOf r.key with visible := some true, location := some r.location }

/-- An item went away; it is not judged. -/
def vanish (x : Expansions) (r : Record) : Expansions :=
  { x with states := x.states.set r.key { x.stateOf r.key with visible := some false } }

/-- Items became visible, one after the other. -/
def appearAll (x : Expansions) : List Record → Expansions × List ExpansionChange
  | [] => (x, [])
  | r :: rest =>
    let (x, c) := x.appear r
    let (x, cs) := appearAll x rest
    (x, c.toList ++ cs)

/-- Items became visible, and afterwards items went away. -/
def turn (x : Expansions) (newly gone : List Record) : Expansions × List ExpansionChange :=
  let (x, changes) := x.appearAll newly
  (gone.foldl vanish x, changes)

/-- An item left the collection; nothing is known of it any more. -/
def remove (x : Expansions) (k : ItemKey) : Expansions :=
  ⟨x.states.erase k, x.reported.erase k⟩

/-- An item was replaced; it counts as never reported. -/
def update (x : Expansions) (k : ItemKey) : Expansions :=
  { x with reported := x.reported.erase k }

/-- Takes a signal and reports the changes it makes. -/
def step (x : Expansions) : ExpansionSignal → Expansions × List ExpansionChange
  | .expansion k user expanded location =>
    let (x, c) := x.expand k user expanded location
    (x, c.toList)
  | .visibility newly gone => x.turn newly gone
  | .removed k => (x.remove k, [])
  | .updated k => (x.update k, [])

end Expansions

end OnScreen
