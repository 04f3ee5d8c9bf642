import OnScreen.Log
import OnScreen.Sink
import OnScreen.Text.Quoted

namespace OnScreen

/-!
# A sink that logs

Every call becomes an entry of the log, and none is ever refused.
-/

/-- The quoted keys of some records. -/
def quotedKeys (records : List Record) : String :=
  Text.quotedList (records.map fun r => r.key.text)

/-- How the log speaks of a call. -/
def Call.logEntry : Call → LogEntry
  | visibilityChanges newly noLonger =>
    ⟨.info, "Visibility changed",
      [("newly", .text (quotedKeys newly)), ("no_longer", .text (quotedKeys noLonger))]⟩
  | shown keys => ⟨.info, "Items shown", [("count", .count keys.length)]⟩
  | expansionChanged key user expanded ordinal =>
    ⟨.info, "Expansion changed",
      [("key", .text key.text), ("is_user_action", .flag user), ("is_expanded", .flag expanded),
       ("location_ordinal", .count ordinal.toNat)]⟩
  | panelShown lockscreen items =>
    ⟨.info, "Panel shown", [("lockscreen", .flag lockscreen), ("count", .count items.length)]⟩
  | itemError key message =>
    ⟨.warn, "Item error", [("key", .text key.text), ("message", .text message)]⟩

/-- The sink whose state is the log, oldest entry first. -/
def Sink.logged : Sink (List LogEntry) where
  offer log c := (log ++ [c.logEntry], .accepted)

end OnScreen
