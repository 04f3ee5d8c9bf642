import OnScreen.Proofs.Json.Value
import OnScreen.Json.TaggedUnion

namespace OnScreen.Json

/-!
# What is written is one line

Strings are written without line feeds, and nothing else that is written has any.

* `Format.OneLine` — no value is written with a line feed.
* `Format.optional_oneLine`, `Format.list_oneLine`, `Format.record_oneLine`, `TaggedUnion.oneLine` —
  formats that are built from such formats.
-/

/-- Commas between texts bring in no line feed. -/
theorem lineFeed_not_mem_commaSeparated {ts : List (List Char)} (h : ∀ t ∈ ts, '\n' ∉ t) :
    '\n' ∉ commaSeparated ts := by
  have joined_clean : ∀ isFirst, '\n' ∉ joined isFirst ts := by
    induction ts with
    | nil => simp
    | cons t ts ih =>
      have first := h t List.mem_cons_self
      have others := ih (fun u hu => h u (List.mem_cons_of_mem t hu)) false
      rintro (_ | _) <;> simp [joined, first, others]
  rw [commaSeparated_eq_joined]
  exact joined_clean true

theorem lineFeed_not_mem_toDigits (n : Nat) : '\n' ∉ Nat.toDigits 10 n := fun mem =>
  absurd (isDigit_of_mem_toDigits mem) (by decide)

/-- The sign and the digits of a number are no line feeds. -/
theorem lineFeed_not_mem_writeWhole (n : Int) : '\n' ∉ writeWhole n := by
  rw [writeWhole_eq]
  split
  · exact lineFeed_not_mem_toDigits _
  · simp [lineFeed_not_mem_toDigits]

namespace Format

variable {α β : Type}

/-- No value is written with a line feed. -/
def OneLine (f : Format α) : Prop := ∀ a, '\n' ∉ f.write a

/-- A text is written on one line, since its own line feeds are escaped. -/
theorem text_oneLine : text.OneLine := fun s => lineFeed_not_mem_writeString s.toList

theorem flag_oneLine : flag.OneLine := by
  rintro (_ | _) <;> decide

theorem whole_oneLine (range : WholeRange) : (whole range).OneLine := lineFeed_not_mem_writeWhole

/-- A format that goes by another writes what the other writes. -/
theorem map_oneLine {f : Format α} (h : f.OneLine) (into : α → β) (outOf : β → α) :
    (f.map into outOf).OneLine := fun b => h (outOf b)

/-- A name is written as a text. -/
theorem names_oneLine {n : Nat} (ns : List String) (h : ns.length = n) (ofIndex : Fin n → α)
    (index : α → Fin n) : (names ns h ofIndex index).OneLine := fun _ =>
  lineFeed_not_mem_writeString _

/-- What may be absent is written on one line: `null` is one. -/
theorem optional_oneLine {f : Format α} (h : f.OneLine) : (optional f).OneLine := by
  rintro (_ | a)
  · show '\n' ∉ ['n', 'u', 'l', 'l']
    decide
  · exact h a

/-- A list whose items are written on one line each is written on one line. -/
theorem list_oneLine {f : Format α} (h : f.OneLine) : (list f).OneLine := by
  intro as
  have items : '\n' ∉ commaSeparated (as.map f.write) :=
    lineFeed_not_mem_commaSeparated (by simpa using fun a _ => h a)
  simp [list, items]

end Format

namespace Fields

/-- No field is written with a line feed. -/
def OneLine {α : Type} : Fields α → Prop
  | done => True
  | field _ format _ rest => format.OneLine ∧ rest.OneLine

/-- Every member of a record is written on one line if the formats of its fields do so. -/
theorem OneLine.write {α : Type} {fields : Fields α} (h : fields.OneLine) (a : α) :
    ∀ t ∈ fields.write a, '\n' ∉ t := by
  induction fields with
  | done => exact fun t none => absurd none List.not_mem_nil
  | field name format absent rest ih =>
    refine List.forall_mem_cons.2 ⟨?_, ih h.2 a.2⟩
    simp [lineFeed_not_mem_writeString, h.1 a.1]

end Fields

/-- A record is written on one line if each of its fields is. -/
theorem Format.record_oneLine {α : Type} {fields : Fields α} (h : fields.OneLine)
    (label : String) : (Format.record label fields).OneLine := by
  intro a
  have members := lineFeed_not_mem_commaSeparated (h.write a)
  simp [Format.record, members]

/-- A tagged union is written on one line if each field of each case is. -/
theorem TaggedUnion.oneLine {α : Type} {u : TaggedUnion α} (h : ∀ c ∈ u.cases, c.fields.OneLine) :
    u.format.OneLine := by
  intro a
  have members : ∀ t ∈ (u.cases.findSome? fun c => c.write? u.tag a).getD [], '\n' ∉ t := by
    -- the value is written by the first case that it belongs to
    cases written : u.cases.findSome? fun c => c.write? u.tag a with
    | none => exact fun t none => absurd none List.not_mem_nil
    | some ts =>
      obtain ⟨c, mem, own⟩ := List.exists_of_findSome?_eq_some written
      obtain ⟨b, -, rfl⟩ := Option.map_eq_some_iff.1 own
      refine List.forall_mem_cons.2 ⟨?_, (h c mem).write b⟩
      simp [lineFeed_not_mem_writeString]
  have joined := lineFeed_not_mem_commaSeparated members
  simp [format, write, joined]

end OnScreen.Json
