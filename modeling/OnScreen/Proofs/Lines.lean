import OnScreen.Proofs.Json.OneLine
import OnScreen.Proofs.Wire
import OnScreen.Sink.Lines

namespace OnScreen

open Json

/-!
# Lines keep calls apart

A sink that writes lines writes one line for each call, and no line has a line feed in it.  So where
the text is split at its line feeds there is one piece for each call, and nothing behind the last
line feed; and each piece is read as the call that it was written for.

* `LineSink.after_lines` — the lines of a sink that has taken some calls.
* `LineSink.splitOn_text` — the lines are found again in the text.
* `LineSink.text_faithful` — the calls are found again in the text.
-/

namespace Wire

/-- A key is written on one line, for it is written as a text. -/
theorem itemKey_oneLine : itemKey.OneLine := Format.map_oneLine Format.text_oneLine _ _

/-- So is a record, field by field. -/
theorem record_oneLine : record.OneLine := by
  apply Format.map_oneLine
  apply Format.record_oneLine
  exact ⟨itemKey_oneLine, Format.map_oneLine (Format.whole_oneLine _) _ _,
    Format.map_oneLine (Format.whole_oneLine _) _ _, Format.flag_oneLine,
    Format.names_oneLine _ _ _ _, trivial⟩

/-- So is every call. -/
theorem call_oneLine : call.format.OneLine := by
  apply TaggedUnion.oneLine
  simp only [call, List.forall_mem_cons, List.not_mem_nil, false_imp_iff, implies_true, and_true]
  have records := Format.list_oneLine record_oneLine
  have keys := Format.list_oneLine itemKey_oneLine
  have ordinal : ordinal.OneLine := Format.map_oneLine (Format.whole_oneLine _) _ _
  -- one goal for each kind of call, with the formats of its fields
  refine ⟨?_, ?_, ?_, ?_, ?_⟩
  · exact ⟨records, records, trivial⟩
  · exact ⟨keys, trivial⟩
  · exact ⟨itemKey_oneLine, Format.flag_oneLine, Format.flag_oneLine, ordinal, trivial⟩
  · exact ⟨Format.flag_oneLine, keys, trivial⟩
  · exact ⟨itemKey_oneLine, Format.text_oneLine, trivial⟩

end Wire

namespace LineSink

/-- The sink when it has taken some calls. -/
def after (s : LineSink) (calls : List Call) : LineSink := calls.foldl (fun s c => (s.offer c).1) s

/-- There is capacity for that many more lines. -/
def HasRoom (s : LineSink) (n : Nat) : Prop := ∀ limit ∈ s.capacity, s.lines.length + n ≤ limit

/-! ### Taking calls -/

/-- A sink with room takes a call as one more line. -/
theorem offer_of_hasRoom {s : LineSink} {n : Nat} (h : s.HasRoom (n + 1)) (c : Call) :
    s.offer c = ({ s with lines := s.lines ++ [lineOf c] }, .accepted) := by
  have room : ¬s.isFull = true := by
    simp only [isFull, Option.any_eq_true, decide_eq_true_eq, not_exists, not_and, Nat.not_le]
    intro limit capacity
    have := h limit capacity
    omega
  rw [offer, if_neg room]

/-- One line takes one place. -/
theorem HasRoom.offer {s : LineSink} {n : Nat} (h : s.HasRoom (n + 1)) (c : Call) :
    (s.offer c).1.HasRoom n := by
  rw [offer_of_hasRoom h]
  intro limit capacity
  have := h limit capacity
  simp only [List.length_append, List.length_singleton]
  omega

/-- Each call adds its line. -/
theorem after_lines {s : LineSink} {calls : List Call} (h : s.HasRoom calls.length) :
    (s.after calls).lines = s.lines ++ calls.map lineOf := by
  induction calls generalizing s with
  | nil => exact (List.append_nil _).symm
  | cons c calls ih =>
    have others := ih (h.offer c)
    rw [offer_of_hasRoom h] at others
    show ((s.offer c).1.after calls).lines = _
    rw [offer_of_hasRoom h, others, List.map_cons, List.append_assoc, List.singleton_append]

/-- So many lines take so many places. -/
theorem hasRoom_after {s : LineSink} {before : List Call} {n : Nat}
    (h : s.HasRoom (before.length + n)) : (s.after before).HasRoom n := by
  induction before generalizing s with
  | nil => rwa [List.length_nil, Nat.zero_add] at h
  | cons c before ih =>
    apply ih
    apply HasRoom.offer
    rwa [List.length_cons, Nat.add_right_comm] at h

/-! ### Finding them again -/

/-- As no line holds a line feed, the text falls into these lines again, with an empty rest. -/
theorem splitOn_text {s : LineSink} (h : ∀ l ∈ s.lines, '\n' ∉ l) :
    s.text.splitOn '\n' = s.lines ++ [[]] := by
  obtain ⟨capacity, lines⟩ := s
  induction lines with
  | nil => rfl
  | cons l lines ih =>
    have others := ih fun m hm => h m (List.mem_cons_of_mem l hm)
    show ((l ++ ['\n']) ++ text ⟨capacity, lines⟩).splitOn '\n' = _
    rw [List.append_assoc, List.singleton_append,
      List.splitOn_append_cons_self_of_not_mem (h l List.mem_cons_self), others]
    rfl

/-- A line that was written is read as the call that it was written for. -/
theorem readAll_lineOf {c : Call} (h : c.InWords) : Wire.call.format.readAll (lineOf c) = .ok c :=
  (Wire.call_roundTrips h).readAll (by decide)

/-- **The text is faithful to the calls.**  As long as the medium does not run out, every call is
    accepted; splitting the text at its line feeds gives one line for each call and an empty rest,
    and the lines are read as the calls, in their order. -/
theorem text_faithful {capacity : Option Nat} {calls : List Call}
    (room : ∀ limit ∈ capacity, calls.length ≤ limit) (bounded : ∀ c ∈ calls, c.InWords) :
    (∀ before c behind, calls = before ++ c :: behind →
      (((new capacity).after before).offer c).2 = .accepted) ∧
    ∃ lines, ((new capacity).after calls).text.splitOn '\n' = lines ++ [[]] ∧
      lines.length = calls.length ∧ lines.map Wire.call.format.readAll = calls.map .ok := by
  have hasRoom : (new capacity).HasRoom calls.length := by
    simpa [HasRoom, new] using room
  constructor
  · rintro before c behind rfl
    rw [List.length_append, List.length_cons] at hasRoom
    rw [offer_of_hasRoom (hasRoom_after hasRoom)]
  · -- nothing was turned away, so there is a line for each call
    have lines : ((new capacity).after calls).lines = calls.map lineOf := by
      rw [after_lines hasRoom, new, List.nil_append]
    refine ⟨calls.map lineOf, ?_, List.length_map _, ?_⟩
    · rw [splitOn_text, lines]
      rw [lines, List.forall_mem_map]
      exact fun c _ => Wire.call_oneLine c
    · rw [List.map_map, List.map_inj_left]
      exact fun c hc => readAll_lineOf (bounded c hc)

/-- A key and a message of several lines, on a medium that is full afterwards. -/
theorem text_faithful_lineFeeds :
    let calls : List Call := [.shown [⟨"a\nb"⟩], .itemError ⟨"\n"⟩ "\"\\\n\u0001"]
    (∀ c ∈ calls, c.InWords) ∧
      ∃ lines, ((new (some 2)).after calls).text.splitOn '\n' = lines ++ [[]] ∧
        lines.length = 2 ∧ lines.map Wire.call.format.readAll = calls.map .ok := by
  intro calls
  have bounded : ∀ c ∈ calls, c.InWords := by decide
  have room : ∀ limit ∈ some 2, calls.length ≤ limit := by decide
  exact ⟨bounded, (text_faithful room bounded).2⟩

end LineSink

end OnScreen
