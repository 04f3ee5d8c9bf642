import OnScreen.Log

namespace OnScreen

/-!
# The gate

Tracking runs while the panel is expanded and the device is not dozing.  Both signals arrive on
their own, in any order, and start out unknown; as long as one of them is unknown there is no
decision, for a signal that was never set is not taken for `false`.

A third signal, whether the lock screen shows, never gates.  It is carried along by the decision
and counts as `false` while it is unknown.
-/

/-- A truth value that may not have been observed yet. -/
inductive TriState where
  | unknown
  | on
  | off
  deriving DecidableEq, Repr, Inhabited

namespace TriState

/-- The observed value, if there is one. -/
def known : TriState → Option Bool
  | unknown => none
  | on => some true
  | off => some false

/-- Whether a value was observed. -/
def isKnown (t : TriState) : Bool := t.known.isSome

/-- The state after `value` was observed. -/
def ofBool : Bool → TriState
  | true => on
  | false => off

/-- The name of a state. -/
def label : TriState → String
  | unknown => "Unknown"
  | on => "On"
  | off => "Off"

@[simp] theorem known_ofBool (b : Bool) : (ofBool b).known = some b := by cases b <;> rfl

end TriState

/-- The state of the status bar. -/
inductive BarState where
  /-- The unlocked shade. -/
  | shade
  /-- The lock screen. -/
  | keyguard
  /-- The shade pulled down over the lock screen. -/
  | shadeLocked
  deriving DecidableEq, Repr, Inhabited

namespace BarState

/-- Whether the lock screen shows. -/
def isLockscreen : BarState → Bool
  | shade => false
  | keyguard => true
  | shadeLocked => true

/-- How the wire spells a state. -/
def label : BarState → String
  | shade => "shade"
  | keyguard => "keyguard"
  | shadeLocked => "shade_locked"

/-- How the log spells a state. -/
def logName : BarState → String
  | shade => "Shade"
  | keyguard => "Keyguard"
  | shadeLocked => "ShadeLocked"

end BarState

/-- What the gate has decided. -/
inductive GateDecision where
  /-- A gating signal is still unknown. -/
  | undecided
  /-- Tracking should run. -/
  | opened (lockscreen : Bool)
  /-- Tracking should stop. -/
  | closed (lockscreen : Bool)
  deriving DecidableEq, Repr

/-- A signal that the gate listens to. -/
inductive GateSignal where
  | panelExpanded (value : Bool)
  | dozing (value : Bool)
  | barState (state : BarState)
  deriving DecidableEq, Repr

namespace GateSignal

/-- The panel and dozing signals ask for a decision, the bar state does not. -/
def gates : GateSignal → Bool
  | panelExpanded _ | dozing _ => true
  | barState _ => false

/-- How the log speaks of a signal. -/
def logEntry : GateSignal → LogEntry
  | panelExpanded v => ⟨.debug, "Panel expanded changed", [("expanded", .flag v)]⟩
  | dozing v => ⟨.debug, "Dozing changed", [("dozing", .flag v)]⟩
  | barState s => ⟨.debug, "Bar state changed", [("state", .text s.logName)]⟩

end GateSignal

/-- What the gate knows: the last value of each signal. -/
structure Gate where
  panelExpanded : TriState
  dozing : TriState
  lockscreen : TriState
  deriving DecidableEq, Repr

namespace Gate

/-- Nothing has been observed. -/
def new : Gate := ⟨.unknown, .unknown, .unknown⟩

/-- The gate after a signal. -/
def set (g : Gate) : GateSignal → Gate
  | .panelExpanded v => { g with panelExpanded := .ofBool v }
  | .dozing v => { g with dozing := .ofBool v }
  | .barState s => { g with lockscreen := .ofBool s.isLockscreen }

/-- The decision for what is known. -/
def decision (g : Gate) : GateDecision :=
  match g.panelExpanded.known, g.dozing.known with
  | some panel, some dozing =>
    let lockscreen := g.lockscreen.known.getD false
    if panel && !dozing then .opened lockscreen else .closed lockscreen
  | _, _ => .undecided

/-- The decision that follows a signal; the bar state asks for none. -/
def answer (g : Gate) (s : GateSignal) : Option GateDecision :=
  if s.gates then some (g.set s).decision else none

/-- What an evaluation of the gate logs: only that it could not decide. -/
def evaluationLog (g : Gate) : List LogEntry :=
  match g.decision with
  | .undecided =>
    [⟨.debug, "Panel status unclear",
      [("panel_expanded_known", .flag g.panelExpanded.isKnown),
       ("dozing_known", .flag g.dozing.isKnown)]⟩]
  | _ => []

/-- What taking a signal logs: the signal, and then the evaluation it asks for. -/
def signalLog (g : Gate) (s : GateSignal) : List LogEntry :=
  s.logEntry :: if s.gates then (g.set s).evaluationLog else []

end Gate

end OnScreen
