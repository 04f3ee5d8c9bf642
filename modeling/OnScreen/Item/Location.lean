namespace OnScreen

/-!
# Where an item sits

The renderer reports a raw placement code, a 32-bit word.  Six single values are understood; every
other word, a combination of flags included, means that the place is unknown.  So does the lack of
a code, which is how an item without a layout is reported.
-/

/-- Where on screen an item sits. -/
inductive LocationKind where
  /-- The place is unknown or its code is not understood. -/
  | unknown
  /-- The first heads-up item. -/
  | firstHeadsUp
  /-- Scrolled off the top. -/
  | hiddenTop
  /-- Fully inside the main area. -/
  | mainArea
  /-- Peeking out at the bottom of the stack. -/
  | bottomPeeking
  /-- Below the bottom of the stack. -/
  | bottomHidden
  /-- Not laid out at all. -/
  | gone
  deriving DecidableEq, Repr, Inhabited

namespace LocationKind

/-- Every place, in the order of the ordinals. -/
def all : List LocationKind :=
  [unknown, firstHeadsUp, hiddenTop, mainArea, bottomPeeking, bottomHidden, gone]

/-- The place a placement code stands for. -/
def ofCode (code : Int32) : LocationKind :=
  if code = 0x01 then firstHeadsUp
  else if code = 0x02 then hiddenTop
  else if code = 0x04 then mainArea
  else if code = 0x08 then bottomPeeking
  else if code = 0x10 then bottomHidden
  else if code = 0x40 then gone
  else unknown

/-- The place of an item that may have no layout yet. -/
def ofPlacement (code : Option Int32) : LocationKind := (code.map ofCode).getD unknown

/-- The number a place is reported by. -/
def ordinal : LocationKind → UInt8
  | unknown => 0
  | firstHeadsUp => 1
  | hiddenTop => 2
  | mainArea => 3
  | bottomPeeking => 4
  | bottomHidden => 5
  | gone => 6

/-- The name of a place, as people and the wire spell it. -/
def label : LocationKind → String
  | unknown => "unknown"
  | firstHeadsUp => "first_heads_up"
  | hiddenTop => "hidden_top"
  | mainArea => "main_area"
  | bottomPeeking => "bottom_peeking"
  | bottomHidden => "bottom_hidden"
  | gone => "gone"

/-- The position of a place in `all`. -/
def index : LocationKind → Fin 7
  | unknown => 0
  | firstHeadsUp => 1
  | hiddenTop => 2
  | mainArea => 3
  | bottomPeeking => 4
  | bottomHidden => 5
  | gone => 6

/-- The place at a position of `all`. -/
def ofIndex : Fin 7 → LocationKind
  | 0 => unknown
  | 1 => firstHeadsUp
  | 2 => hiddenTop
  | 3 => mainArea
  | 4 => bottomPeeking
  | 5 => bottomHidden
  | 6 => gone

theorem ofIndex_index (k : LocationKind) : ofIndex k.index = k := by cases k <;> rfl

end LocationKind

end OnScreen
