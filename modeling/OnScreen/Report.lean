import OnScreen.Expansion

namespace OnScreen

/-!
# Reports and the calls they make

A report is what the tracker wants the outside to know.  It reaches the outside as one or two calls:
a batch of visibility changes is followed by a call that marks the newly visible items as shown,
unless there are none; every other report makes a single call.
-/

/-- Something the tracker reports. -/
inductive Report where
  /-- Items that appeared and items that went away. -/
  | visibility (newly noLonger : List Record)
  /-- An item was expanded or collapsed. -/
  | expansion (change : ExpansionChange)
  /-- The panel was shown with these items, in rank order. -/
  | panelShown (lockscreen : Bool) (items : List ItemKey)
  /-- An item failed to load. -/
  | itemError (key : ItemKey) (message : String)
  deriving DecidableEq, Repr

/-- One call to the outside. -/
inductive Call where
  | visibilityChanges (newly noLonger : List Record)
  | shown (keys : List ItemKey)
  | expansionChanged (key : ItemKey) (userAction expanded : Bool) (ordinal : UInt8)
  | panelShown (lockscreen : Bool) (items : List ItemKey)
  | itemError (key : ItemKey) (message : String)
  deriving DecidableEq, Repr

/-- The calls that a report makes, in order. -/
def Report.calls : Report → List Call
  | visibility newly noLonger =>
    .visibilityChanges newly noLonger ::
      if newly.isEmpty then [] else [.shown (newly.map Record.key)]
  | expansion c => [.expansionChanged c.key c.userAction c.expanded c.location.ordinal]
  | panelShown lockscreen items => [.panelShown lockscreen items]
  | itemError key message => [.itemError key message]

end OnScreen
