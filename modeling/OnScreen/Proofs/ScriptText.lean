import Mathlib.Data.List.Forall2
import OnScreen.Proofs.Lines
import OnScreen.Proofs.Script

namespace OnScreen

/-!
# Every list of steps can be written as a script

A step is written on one line, whatever its texts are, and the line is read as the step again.  Its
line ends with a bracket, so a carriage return behind it is that of the line end.  Remarks can stand
between the steps, in front of them and behind them.

* `Step.ofLine_line` — a step is read back from its line.
* `Script.Layout` — steps and remarks on lines, each of which ends in one of two ways.
* `Script.read_layout` — the steps are found again in the text.
-/

open Json

/-! ### One step -/

/-- A candidate is written on one line. -/
theorem Wire.candidate_oneLine : Wire.candidate.OneLine := by
  have code : Wire.placementCode.OneLine := Format.map_oneLine (Format.whole_oneLine _) _ _
  apply Format.map_oneLine
  apply Format.record_oneLine
  exact ⟨Wire.itemKey_oneLine, Format.flag_oneLine, Format.optional_oneLine code, trivial⟩

namespace Step

/-- The number of milliseconds that the step waits for, if it does, fits a word. -/
def InWords : Step → Prop
  | wait ms => ms < wordLimit
  | _ => True

instance (s : Step) : Decidable s.InWords :=
  match s with
  | .wait _ => inferInstanceAs (Decidable (_ < _))
  | .list _ | .signal | .panelExpanded _ | .dozing _ | .barState _ | .expansion _ _ _ | .removed _
  | .updated _ | .itemError _ _ => inferInstanceAs (Decidable True)

/-- The steps have different names, and no field is named as the tag. -/
theorem union_lawful : union.Lawful where
  names := by decide
  members := by decide
  apart := by
    simp only [union, List.pairwise_cons, List.forall_mem_cons, List.not_mem_nil, false_imp_iff,
      implies_true, List.Pairwise.nil, and_true]
    -- each step has one form only, so of two cases at most one sees it
    and_intros <;> intro s <;> cases s <;> simp
  make_of_view := by
    simp only [union, List.forall_mem_cons, List.not_mem_nil, false_imp_iff, implies_true, and_true]
    and_intros <;> rintro (_ | _ | _ | _ | _ | _ | _ | _ | _ | _) _ ⟨⟩ <;> rfl
  view_make := by
    simp only [union, List.forall_mem_cons, List.not_mem_nil, false_imp_iff, implies_true, and_true]

/-- The fields of a step round trip within bounds. -/
theorem union_roundTrip {s : Step} (h : s.InWords) : union.RoundTrip 2 s := by
  have flag := fun b => (Format.flag_roundTrips b).mono (Nat.zero_le 2)
  have text := fun t => (Format.text_roundTrips t).mono (Nat.zero_le 2)
  have key := fun k => (Wire.itemKey_roundTrips k).mono (Nat.zero_le 2)
  -- which of the ten cases the step is, and that its fields make the round trip
  simp only [TaggedUnion.RoundTrip, union, List.exists_mem_cons_iff]
  cases s with
  | list items =>
    have candidates : (Format.list Wire.candidate).RoundTrips 2 items :=
      Format.list_roundTrips fun c _ => Wire.candidate_roundTrips c
    exact .inl ⟨_, rfl, candidates, trivial⟩
  | signal => exact .inr (.inl ⟨_, rfl, trivial⟩)
  | panelExpanded value => exact .inr (.inr (.inl ⟨_, rfl, flag value, trivial⟩))
  | dozing value => exact .inr (.inr (.inr (.inl ⟨_, rfl, flag value, trivial⟩)))
  | barState state =>
    have state := (Wire.barState_roundTrips state).mono (Nat.zero_le 2)
    exact .inr (.inr (.inr (.inr (.inl ⟨_, rfl, state, trivial⟩))))
  | expansion k user expanded =>
    exact .inr (.inr (.inr (.inr (.inr (.inl
      ⟨_, rfl, key k, flag user, flag expanded, trivial⟩)))))
  | removed k => exact .inr (.inr (.inr (.inr (.inr (.inr (.inl ⟨_, rfl, key k, trivial⟩))))))
  | updated k =>
    exact .inr (.inr (.inr (.inr (.inr (.inr (.inr (.inl ⟨_, rfl, key k, trivial⟩)))))))
  | itemError k message =>
    exact .inr (.inr (.inr (.inr (.inr (.inr (.inr (.inr (.inl
      ⟨_, rfl, key k, text message, trivial⟩))))))))
  | wait ms =>
    have ms := (Format.word_roundTrips "u64" (show ms < wordLimit from h)).mono (Nat.zero_le 2)
    exact .inr (.inr (.inr (.inr (.inr (.inr (.inr (.inr (.inr (.inl
      ⟨_, rfl, ms, trivial⟩)))))))))

/-- A step is read back from its line. -/
theorem ofLine_line {s : Step} (h : s.InWords) : ofLine s.line = .ok s :=
  (TaggedUnion.roundTrips union_lawful (union_roundTrip h)).readAll (by decide)

/-- The line of a step is one line. -/
theorem line_oneLine (s : Step) : '\n' ∉ s.line := by
  have all : union.format.OneLine := by
    apply TaggedUnion.oneLine
    simp only [union, List.forall_mem_cons, List.not_mem_nil, false_imp_iff, implies_true, and_true]
    have key := Wire.itemKey_oneLine
    have flag := Format.flag_oneLine
    have ms : (Format.word "u64").OneLine := Format.map_oneLine (Format.whole_oneLine _) _ _
    have state : Wire.barState.OneLine := Format.names_oneLine _ _ _ _
    -- one entry for each case, in the order of the union
    refine ⟨⟨Format.list_oneLine Wire.candidate_oneLine, trivial⟩, trivial, ⟨flag, trivial⟩,
      ⟨flag, trivial⟩, ⟨state, trivial⟩, ⟨key, flag, flag, trivial⟩, ⟨key, trivial⟩,
      ⟨key, trivial⟩, ⟨key, Format.text_oneLine, trivial⟩, ⟨ms, trivial⟩⟩
  exact all s

/-- The line of a step ends with a bracket. -/
theorem dropReturn_line (s : Step) : Text.dropReturn s.line = s.line := by
  apply Text.dropReturn_of_ne
  rw [line, TaggedUnion.write, List.getLast?_concat]
  decide

end Step

namespace Script

/-! ### Scripts in writing -/

/-- A line that says nothing. -/
structure Remark where
  text : List Char
  oneLine : '\n' ∉ text
  skipped : isSkipped text = true

/-- A line of a script. -/
inductive ScriptLine where
  | step (s : Step)
  | remark (r : Remark)

namespace ScriptLine

def text : ScriptLine → List Char
  | step s => s.line
  | remark r => r.text

/-- The step on the line. -/
def step? : ScriptLine → Option Step
  | step s => some s
  | remark _ => none

end ScriptLine

/-- How a line ends. -/
inductive LineEnd where
  | feed
  /-- With a carriage return in front of the line feed. -/
  | returnFeed
  deriving DecidableEq, Repr

/-- What stands in front of the line feed. -/
def LineEnd.beforeFeed : LineEnd → List Char
  | feed => []
  | returnFeed => ['\r']

/-- The lines of a script with their ends, and the last line, which nothing ends.  The last line can
    be empty. -/
structure Layout where
  lines : List (ScriptLine × LineEnd)
  last : ScriptLine

namespace Layout

/-- The text of the script. -/
def text (l : Layout) : List Char :=
  l.lines.flatMap (fun p => p.1.text ++ p.2.beforeFeed ++ ['\n']) ++ l.last.text

/-- The steps of the script. -/
def steps (l : Layout) : List Step := (l.lines.map Prod.fst ++ [l.last]).filterMap ScriptLine.step?

end Layout

/-- What is read as the step on the line, or is skipped if there is none. -/
def ReadsAs (cs : List Char) (l : ScriptLine) : Prop :=
  GoodLine cs ∧ (Step.ofLine cs).toOption = l.step?

namespace ScriptLine

/-- The number that the step on the line has fits a word. -/
def InWords (l : ScriptLine) : Prop := ∀ s ∈ l.step?, s.InWords

/-- Every line of a layout is written on one line. -/
theorem text_oneLine (l : ScriptLine) : '\n' ∉ l.text := by
  cases l with
  | step s => exact s.line_oneLine
  | remark r => exact r.oneLine

/-- A remark or a blank line has no step. -/
theorem readsAs_of_skipped {cs : List Char} (h : isSkipped cs = true) (r : Remark) :
    ReadsAs cs (remark r) :=
  ⟨.inl h, toOption_of_skipped h⟩

/-- A line that a step is written on has this step. -/
theorem readsAs_line {s : Step} (h : s.InWords) : ReadsAs s.line (step s) :=
  ⟨.inr ⟨s, Step.ofLine_line h⟩, by rw [Step.ofLine_line h]; rfl⟩

/-- A line that nothing ends. -/
theorem readsAs_text {l : ScriptLine} (h : l.InWords) : ReadsAs l.text l := by
  cases l with
  | step s => exact readsAs_line (h s rfl)
  | remark r => exact readsAs_of_skipped r.skipped r

/-- A line that ends in either way. -/
theorem readsAs_dropReturn {l : ScriptLine} (h : l.InWords) (e : LineEnd) :
    ReadsAs (Text.dropReturn (l.text ++ e.beforeFeed)) l := by
  have same : l.text ++ LineEnd.feed.beforeFeed = l.text := List.append_nil _
  have dropped : Text.dropReturn (l.text ++ LineEnd.returnFeed.beforeFeed) = l.text :=
    Text.dropReturn_concat _
  cases e with
  | returnFeed =>
    rw [dropped]
    exact readsAs_text h
  | feed =>
    rw [same]
    cases l with
    | step s =>
      show ReadsAs (Text.dropReturn s.line) _
      rw [Step.dropReturn_line]
      exact readsAs_line (h s rfl)
    -- a remark may have a carriage return of its own
    | remark r => exact readsAs_of_skipped (by rw [isSkipped_dropReturn]; exact r.skipped) r

end ScriptLine

/-- Lines that are read as the lines of a script have its steps. -/
theorem stepsOf_of_readsAs {texts : List (List Char)} {ls : List ScriptLine}
    (h : List.Forall₂ ReadsAs texts ls) :
    (∀ cs ∈ texts, GoodLine cs) ∧ stepsOf texts = ls.filterMap ScriptLine.step? := by
  induction h with
  | nil => exact ⟨nofun, rfl⟩
  | cons first others ih =>
    refine ⟨List.forall_mem_cons.2 ⟨first.1, ih.1⟩, ?_⟩
    rw [stepsOf, List.filterMap_cons, List.filterMap_cons, first.2]
    have later := ih.2
    rw [stepsOf] at later
    rw [later]

namespace Layout

/-- The steps alone, each on a line that a line feed ends. -/
def plain (steps : List Step) : Layout where
  lines := steps.map fun s => (.step s, .feed)
  last := .remark ⟨[], List.not_mem_nil, rfl⟩

/-- A plain layout lays out the steps that it was made from. -/
@[simp] theorem plain_steps (steps : List Step) : (plain steps).steps = steps := by
  simp [plain, Layout.steps, ScriptLine.step?, Function.comp_def]

/-- The text of a line with what stands in front of its line feed. -/
def raw (p : ScriptLine × LineEnd) : List Char := p.1.text ++ p.2.beforeFeed

/-- With its line end, if that is a carriage return in front of the line feed, a line is still one
    line. -/
theorem raw_oneLine (p : ScriptLine × LineEnd) : '\n' ∉ raw p := by
  have ends : '\n' ∉ p.2.beforeFeed := by cases p.2 <;> decide
  rw [raw, List.mem_append, not_or]
  exact ⟨p.1.text_oneLine, ends⟩

/-- A text falls into the lines that it was laid out on. -/
theorem lines_text (l : Layout) :
    Text.lines l.text = (l.lines.map raw).map Text.dropReturn ++ Text.lines l.last.text := by
  have clean : ∀ t ∈ l.lines.map raw, '\n' ∉ t :=
    List.forall_mem_map.2 fun p _ => raw_oneLine p
  rw [← Text.lines_flatMap clean, List.flatMap_map]
  rfl

/-- The lines of the text are those of the script, but for an empty last line. -/
theorem readsAs_lines {l : Layout} (h : ∀ line ∈ l.lines.map Prod.fst ++ [l.last], line.InWords) :
    (∀ cs ∈ Text.lines l.text, GoodLine cs) ∧ stepsOf (Text.lines l.text) = l.steps := by
  have front : List.Forall₂ ReadsAs ((l.lines.map raw).map Text.dropReturn)
      (l.lines.map Prod.fst) := by
    rw [List.forall₂_map_left_iff, List.forall₂_map_left_iff, List.forall₂_map_right_iff,
      List.forall₂_same]
    intro p hp
    have bounded := h p.1 (List.mem_append_left _ (List.mem_map_of_mem hp))
    exact ScriptLine.readsAs_dropReturn bounded p.2
  have last := ScriptLine.readsAs_text (h l.last (by simp))
  rw [lines_text]
  -- an empty last line is none: the text then ends with a line feed
  by_cases empty : l.last.text = []
  · rw [empty] at last
    have none : l.last.step? = none := last.2.symm
    obtain ⟨good, steps⟩ := stepsOf_of_readsAs front
    rw [empty, Text.lines, List.append_nil, steps, Layout.steps, List.filterMap_append,
      List.filterMap_cons_none none]
    exact ⟨good, (List.append_nil _).symm⟩
  · rw [Text.lines_last l.last.text_oneLine empty]
    exact stepsOf_of_readsAs (List.rel_append front (.cons last .nil))

end Layout

/-- The text of a script is read as its steps. -/
theorem Layout.read_text {l : Layout} (bounded : ∀ s ∈ l.steps, s.InWords) :
    (∀ line ∈ Text.lines l.text, GoodLine line) ∧ read l.text = .ok l.steps := by
  have words : ∀ line ∈ l.lines.map Prod.fst ++ [l.last], line.InWords := by
    intro line mem s has
    exact bounded s (List.mem_filterMap.2 ⟨line, mem, has⟩)
  obtain ⟨good, same⟩ := l.readsAs_lines words
  refine ⟨good, ?_⟩
  rw [read, readLines_of_good good, same]

/-- **Every list of steps can be written as a script.**  However its steps are laid out on lines,
    with whatever remarks around them and whichever line ends, the text is read as these steps. -/
theorem read_layout {steps : List Step} (bounded : ∀ s ∈ steps, s.InWords) :
    (∃ layout : Layout, layout.steps = steps) ∧
      ∀ layout : Layout, layout.steps = steps → read layout.text = .ok steps := by
  refine ⟨⟨.plain steps, Layout.plain_steps steps⟩, fun layout laid => ?_⟩
  rw [← laid] at bounded ⊢
  exact (Layout.read_text bounded).2

/-- Texts that look like line ends and remarks, the numbers at their limits, and remarks that are
    blank in ways that JSON does not know. -/
theorem read_layout_awkward :
    let steps : List Step :=
      [.list [⟨⟨"\r\n# "⟩, true, some (-2147483648)⟩, ⟨⟨"\u2028"⟩, false, none⟩],
        .itemError ⟨""⟩ "\"\u3000\\", .wait 18446744073709551615]
    let blank : Remark := ⟨"\u3000\r".toList, by decide, by decide⟩
    let comment : Remark := ⟨"\u2028#\r[\"signal\"]".toList, by decide, by decide⟩
    let layout : Layout :=
      ⟨(.remark comment, .returnFeed) :: (.remark blank, .feed) ::
        steps.map fun s => (.step s, .returnFeed), .remark comment⟩
    (∀ s ∈ steps, s.InWords) ∧ layout.steps = steps ∧ read layout.text = .ok steps := by
  intro steps blank comment layout
  have bounded : ∀ s ∈ steps, s.InWords := by decide
  have laid : layout.steps = steps := rfl
  exact ⟨bounded, laid, (read_layout bounded).2 layout laid⟩

end Script

end OnScreen
