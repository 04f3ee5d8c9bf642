import OnScreen.Text.Blank
import OnScreen.Wire

namespace OnScreen

/-!
# Scripts

A script is a text with one step on each line, written as a JSON object with a tag.  Lines that are
blank and lines that begin with `#`, blank space aside, say nothing.  A script with a bad line is no
script at all, and the first such line is the one to blame.

* `Script.read` — a text as a list of steps.
* `Step.line` — a step as a line.
-/

/-- One step of a script. -/
inductive Step where
  /-- Replaces the list of candidates; this is no signal. -/
  | list (items : List Candidate)
  /-- The list may have changed. -/
  | signal
  | panelExpanded (value : Bool)
  | dozing (value : Bool)
  | barState (state : BarState)
  | expansion (key : ItemKey) (userAction expanded : Bool)
  | removed (key : ItemKey)
  | updated (key : ItemKey)
  | itemError (key : ItemKey) (message : String)
  /-- Lets that many milliseconds pass. -/
  | wait (ms : Nat)
  deriving DecidableEq, Repr

namespace Step

open Json

/-- The JSON format of a step. -/
def union : TaggedUnion Step where
  tag := "op"
  label := "internally tagged enum ReplayStep"
  cases :=
    [{ name := "list"
       label := "struct variant ReplayStep::List"
       fields := .field "items" (.list Wire.candidate) none .done
       make := fun (items, ()) => .list items
       view := fun | .list items => some (items, ()) | _ => none },
     { name := "signal"
       label := "unit variant ReplayStep::Signal"
       fields := .done
       make := fun () => .signal
       view := fun | .signal => some () | _ => none },
     { name := "panel_expanded"
       label := "struct variant ReplayStep::PanelExpanded"
       fields := .field "value" .flag none .done
       make := fun (value, ()) => .panelExpanded value
       view := fun | .panelExpanded value => some (value, ()) | _ => none },
     { name := "dozing"
       label := "struct variant ReplayStep::Dozing"
       fields := .field "value" .flag none .done
       make := fun (value, ()) => .dozing value
       view := fun | .dozing value => some (value, ()) | _ => none },
     { name := "bar_state"
       label := "struct variant ReplayStep::BarState"
       fields := .field "state" Wire.barState none .done
       make := fun (state, ()) => .barState state
       view := fun | .barState state => some (state, ()) | _ => none },
     { name := "expansion"
       label := "struct variant ReplayStep::Expansion"
       fields :=
        .field "key" Wire.itemKey none
        (.field "user_action" .flag (some false)
        (.field "expanded" .flag none .done))
       make := fun (key, user, expanded, ()) => .expansion key user expanded
       view := fun | .expansion key user expanded => some (key, user, expanded, ()) | _ => none },
     { name := "removed"
       label := "struct variant ReplayStep::Removed"
       fields := .field "key" Wire.itemKey none .done
       make := fun (key, ()) => .removed key
       view := fun | .removed key => some (key, ()) | _ => none },
     { name := "updated"
       label := "struct variant ReplayStep::Updated"
       fields := .field "key" Wire.itemKey none .done
       make := fun (key, ()) => .updated key
       view := fun | .updated key => some (key, ()) | _ => none },
     { name := "item_error"
       label := "struct variant ReplayStep::ItemError"
       fields := .field "key" Wire.itemKey none (.field "message" .text none .done)
       make := fun (key, message, ()) => .itemError key message
       view := fun | .itemError key message => some (key, message, ()) | _ => none },
     { name := "wait_ms"
       label := "struct variant ReplayStep::WaitMs"
       fields := .field "ms" (.word "u64") none .done
       make := fun (ms, ()) => .wait ms
       view := fun | .wait ms => some (ms, ()) | _ => none }]

/-- The line of a step. -/
def line (s : Step) : List Char := union.write s

/-- The step that a line says. -/
def ofLine (cs : List Char) : Except ReadError Step := union.format.readAll cs

end Step

/-- A bad line of a script. -/
structure ScriptError where
  /-- The number of the line, from one; every line counts. -/
  line : Nat
  error : Json.ReadError
  deriving DecidableEq, Repr

/-- What a message about a bad line begins with. -/
def ScriptError.heading (e : ScriptError) : String := "line " ++ toString e.line ++ ": "

namespace Script

/-- Whether a line says nothing. -/
def isSkipped (line : List Char) : Bool :=
  match Text.trim line with
  | [] => true
  | c :: _ => c = '#'

/-- The steps of some lines, the first of which has the number `number`. -/
def readLines (number : Nat) : List (List Char) → Except ScriptError (List Step)
  | [] => .ok []
  | line :: rest =>
    if isSkipped line then readLines (number + 1) rest
    else
      match Step.ofLine line with
      | .error e => .error ⟨number, e⟩
      | .ok s => (readLines (number + 1) rest).map (s :: ·)

/-- The steps of a text. -/
def read (text : List Char) : Except ScriptError (List Step) := readLines 1 (Text.lines text)

end Script

end OnScreen
