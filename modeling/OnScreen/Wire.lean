import OnScreen.Config
import OnScreen.Gate
import OnScreen.Item.Candidate
import OnScreen.Json.TaggedUnion
import OnScreen.Report

namespace OnScreen.Wire

/-!
# What goes over the wire

The JSON formats of the things the tracker talks about.
-/

open Json

/-! ### Items -/

/-- A key is a text. -/
def itemKey : Format ItemKey := Format.text.map ItemKey.mk ItemKey.text

/-- A place is one of seven names. -/
def locationKind : Format LocationKind :=
  .names (LocationKind.all.map LocationKind.label) rfl LocationKind.ofIndex LocationKind.index

/-- A record with all its payload. -/
def record : Format Record :=
  (Format.record "struct VisibilityRecord"
    (.field "key" itemKey none
    (.field "rank" (.word "usize") none
    (.field "total" (.word "usize") none
    (.field "visible" .flag none
    (.field "location" locationKind none .done)))))).map
    (fun (key, rank, total, visible, location, ()) => ⟨key, rank, total, visible, location⟩)
    (fun r => (r.key, r.rank, r.total, r.visible, r.location, ()))

/-- A raw placement code. -/
def placementCode : Format Int32 :=
  (Format.whole ⟨"i32", -2147483648, 2147483647⟩).map Int32.ofInt Int32.toInt

/-- A candidate, whose placement code may be left out. -/
def candidate : Format Candidate :=
  (Format.record "struct Candidate"
    (.field "key" itemKey none
    (.field "visible" .flag none
    (.field "location" (.optional placementCode) (some none) .done)))).map
    (fun (key, visible, location, ()) => ⟨key, visible, location⟩)
    (fun c => (c.key, c.visible, c.location, ()))

/-! ### Signals and reports -/

/-- The state of the status bar. -/
def barState : Format BarState :=
  .names ["shade", "keyguard", "shade_locked"] rfl
    (fun | 0 => .shade | 1 => .keyguard | 2 => .shadeLocked)
    (fun | .shade => 0 | .keyguard => 1 | .shadeLocked => 2)

/-- A truth value that may be unknown. -/
def triState : Format TriState :=
  .names ["Unknown", "On", "Off"] rfl
    (fun | 0 => .unknown | 1 => .on | 2 => .off)
    (fun | .unknown => 0 | .on => 1 | .off => 2)

/-- A change between collapsed and expanded. -/
def expansionChange : Format ExpansionChange :=
  (Format.record "struct ExpansionChange"
    (.field "key" itemKey none
    (.field "is_user_action" .flag none
    (.field "is_expanded" .flag none
    (.field "location" locationKind none .done))))).map
    (fun (key, user, expanded, location, ()) => ⟨key, user, expanded, location⟩)
    (fun c => (c.key, c.userAction, c.expanded, c.location, ()))

/-- The number a place is reported by. -/
def ordinal : Format UInt8 :=
  (Format.whole ⟨"u8", 0, 255⟩).map (fun n => UInt8.ofNat n.toNat) (fun n => Int.ofNat n.toNat)

/-- A call, tagged by its kind. -/
def call : TaggedUnion Call where
  tag := "call"
  label := "internally tagged enum SinkCall"
  cases :=
    [{ name := "visibility_changes"
       label := "struct variant SinkCall::VisibilityChanges"
       fields :=
        .field "newly_visible" (.list record) none
        (.field "no_longer_visible" (.list record) none .done)
       make := fun (newly, noLonger, ()) => .visibilityChanges newly noLonger
       view := fun | .visibilityChanges newly noLonger => some (newly, noLonger, ()) | _ => none },
     { name := "shown"
       label := "struct variant SinkCall::Shown"
       fields := .field "keys" (.list itemKey) none .done
       make := fun (keys, ()) => .shown keys
       view := fun | .shown keys => some (keys, ()) | _ => none },
     { name := "expansion_changed"
       label := "struct variant SinkCall::ExpansionChanged"
       fields :=
        .field "key" itemKey none
        (.field "is_user_action" .flag none
        (.field "is_expanded" .flag none
        (.field "location_ordinal" ordinal none .done)))
       make := fun (key, user, expanded, ordinal, ()) => .expansionChanged key user expanded ordinal
       view := fun
        | .expansionChanged key user expanded ordinal => some (key, user, expanded, ordinal, ())
        | _ => none },
     { name := "panel_shown"
       label := "struct variant SinkCall::PanelShown"
       fields := .field "lockscreen" .flag none (.field "items" (.list itemKey) none .done)
       make := fun (lockscreen, items, ()) => .panelShown lockscreen items
       view := fun | .panelShown lockscreen items => some (lockscreen, items, ()) | _ => none },
     { name := "item_error"
       label := "struct variant SinkCall::ItemError"
       fields := .field "key" itemKey none (.field "message" .text none .done)
       make := fun (key, message, ()) => .itemError key message
       view := fun | .itemError key message => some (key, message, ()) | _ => none }]

/-! ### Configuration -/

/-- A layer of the configuration. -/
def configSource : Format ConfigSource :=
  .names (ConfigSource.all.map ConfigSource.name) rfl ConfigSource.ofIndex ConfigSource.index

/-- The section on visibility; what it does not say is unset. -/
def visibilitySection : Format VisibilitySection :=
  (Format.record "struct VisibilityToml"
    (.field "min_report_interval_ms" (.optional (.word "u64")) (some none) .done)).map
    (fun (interval, ()) => ⟨interval⟩)
    (fun s => (s.interval, ()))

/-- A configuration file; a section that is missing says nothing. -/
def configFile : Format ConfigFile :=
  (Format.record "struct TrackerToml"
    (.field "visibility" visibilitySection (some ⟨none⟩) .done)).map
    (fun (visibility, ()) => ⟨visibility⟩)
    (fun f => (f.visibility, ()))

end OnScreen.Wire
