import OnScreen.Proofs.Json.TaggedUnion
import OnScreen.Script

namespace OnScreen

/-!
# Reading scripts

A script is read line by line.  No line is both skipped and a step, since a step opens with a
bracket and what JSON skips is blank; so nothing is lost by skipping.  The lines in front of a bad
one are read as if they were all, and the lines behind a place in the text do not depend on what is
in front of it, but for their numbers.

* `Text.lines_flatMap` — the lines of a text that is put together from lines.
* `Script.not_skipped_of_ofLine` — a step is not skipped.
* `Script.readLines_eq_ok_iff`, `Script.readLines_eq_error_iff` — the outcome, told from the lines.
* `Script.readLines_append` — a script in two parts.
* `Script.read_blames_first_bad_line` — all of it for whole texts.
-/

namespace Text

/-! ### Lines -/

theorem dropReturn_concat (line : List Char) : dropReturn (line ++ ['\r']) = line := by
  simp [dropReturn]

/-- A line that ends otherwise stays as it is. -/
theorem dropReturn_of_ne {line : List Char} (h : line.getLast? ≠ some '\r') :
    dropReturn line = line := by
  unfold dropReturn
  split
  · next rest ends =>
    refine absurd ?_ h
    rw [← List.head?_reverse, ends]
    rfl
  · rfl

/-- A line feed ends the first line. -/
theorem lines_lineFeed {line : List Char} (h : '\n' ∉ line) (rest : List Char) :
    lines (line ++ '\n' :: rest) = dropReturn line :: lines rest := by
  have ends : ∀ before, lines.go before '\n' rest = dropReturn before.reverse :: lines rest := by
    intro before
    cases rest <;> simp [lines.go, lines]
  -- the characters of the line are put aside one by one
  have go : ∀ before c cs, '\n' ∉ c :: cs → lines.go before c (cs ++ '\n' :: rest) =
      dropReturn (before.reverse ++ c :: cs) :: lines rest := by
    intro before c cs
    induction cs generalizing before c with
    | nil =>
      intro clean
      have other : c ≠ '\n' := fun same => clean (same ▸ List.mem_singleton_self c)
      rw [List.nil_append, lines.go, if_neg other, ends, List.reverse_cons]
    | cons d cs ih =>
      intro clean
      have other : c ≠ '\n' := fun same => clean (same ▸ List.mem_cons_self)
      have later : '\n' ∉ d :: cs := fun mem => clean (List.mem_cons_of_mem c mem)
      rw [List.cons_append, lines.go, if_neg other, ih (c :: before) d later]
      simp
  cases line with
  | nil => exact ends []
  | cons c cs => exact go [] c cs h

/-- What no line feed ends is a line too. -/
theorem lines_last {line : List Char} (h : '\n' ∉ line) (nonempty : line ≠ []) :
    lines line = [line] := by
  -- generalized over what was read of the line before
  have go : ∀ before c cs, '\n' ∉ c :: cs → lines.go before c cs = [before.reverse ++ c :: cs] := by
    intro before c cs
    induction cs generalizing before c with
    | nil =>
      intro clean
      have other : c ≠ '\n' := fun same => clean (same ▸ List.mem_singleton_self c)
      rw [lines.go, if_neg other, List.reverse_cons]
    | cons d cs ih =>
      intro clean
      have other : c ≠ '\n' := fun same => clean (same ▸ List.mem_cons_self)
      have later : '\n' ∉ d :: cs := fun mem => clean (List.mem_cons_of_mem c mem)
      rw [lines.go, if_neg other, ih (c :: before) d later]
      simp
  cases line with
  | nil => exact absurd rfl nonempty
  | cons c cs => exact go [] c cs h

/-- Lines that are put in front of a text are its first lines. -/
theorem lines_flatMap {pieces : List (List Char)} (h : ∀ p ∈ pieces, '\n' ∉ p) (rest : List Char) :
    lines (pieces.flatMap (· ++ ['\n']) ++ rest) = pieces.map dropReturn ++ lines rest := by
  induction pieces with
  | nil => rfl
  | cons p pieces ih =>
    have others := ih fun q hq => h q (List.mem_cons_of_mem p hq)
    simp only [List.flatMap_cons, List.append_assoc, List.cons_append, List.nil_append]
    rw [lines_lineFeed (h p List.mem_cons_self), others]
    rfl

/-- What comes behind the text is at the start of a line. -/
def EndsLine (text : List Char) : Prop := ∀ c ∈ text.getLast?, c = '\n'

instance (text : List Char) : Decidable (EndsLine text) :=
  inferInstanceAs (Decidable (∀ c ∈ text.getLast?, c = '\n'))

/-- A text at whose end a line has ended is put together from lines. -/
theorem EndsLine.exists_pieces {text : List Char} (h : EndsLine text) :
    ∃ pieces : List (List Char), (∀ p ∈ pieces, '\n' ∉ p) ∧
      text = pieces.flatMap (· ++ ['\n']) := by
  induction text with
  | nil => exact ⟨[], nofun, rfl⟩
  | cons c rest ih =>
    cases rest with
    | nil =>
      obtain rfl : c = '\n' := h c rfl
      exact ⟨[[]], by simp, rfl⟩
    | cons d rest =>
      have later : EndsLine (d :: rest) := fun e last => h e (by rwa [List.getLast?_cons_cons])
      obtain ⟨pieces, clean, text⟩ := ih later
      by_cases feed : c = '\n'
      · exact ⟨[] :: pieces, List.forall_mem_cons.2 ⟨List.not_mem_nil, clean⟩, by simp [feed, text]⟩
      -- any other character belongs to the first of the lines
      · cases pieces with
        | nil => cases text
        | cons p pieces =>
          obtain ⟨first, others⟩ := List.forall_mem_cons.1 clean
          refine ⟨(c :: p) :: pieces, List.forall_mem_cons.2 ⟨?_, others⟩, by simp [text]⟩
          exact fun mem => (List.mem_cons.1 mem).elim (fun same => feed same.symm) first

/-- A text in two parts, the first of which ends a line. -/
theorem lines_append {before : List Char} (h : EndsLine before) (behind : List Char) :
    lines (before ++ behind) = lines before ++ lines behind := by
  obtain ⟨pieces, clean, rfl⟩ := h.exists_pieces
  have alone := lines_flatMap clean []
  rw [List.append_nil] at alone
  rw [lines_flatMap clean, alone, lines, List.append_nil]

/-- There are as many lines as there are line feeds. -/
theorem length_lines {text : List Char} (h : EndsLine text) :
    (lines text).length = text.count '\n' := by
  obtain ⟨pieces, clean, rfl⟩ := h.exists_pieces
  have alone := lines_flatMap clean []
  rw [List.append_nil] at alone
  rw [alone, lines, List.append_nil, List.length_map]
  clear alone h
  induction pieces with
  | nil => rfl
  | cons p pieces ih =>
    -- each piece brings the one line feed behind it
    have first := List.count_eq_zero.2 (clean p List.mem_cons_self)
    have others := ih fun q hq => clean q (List.mem_cons_of_mem p hq)
    rw [List.flatMap_cons, List.count_append, List.count_append, first, ← others]
    simp [Nat.add_comm]

/-! ### Blank space -/

/-- Where there is more than blank space, the first character that is not blank stays first. -/
theorem head?_trim (line : List Char) : (trim line).head? = (trimStart line).head? := by
  unfold trim trimEnd
  cases start : trimStart line with
  | nil => rfl
  | cons c rest =>
    have visible : isBlank c = false := by
      have head := List.head?_dropWhile_not isBlank line
      rw [show line.dropWhile isBlank = c :: rest from start] at head
      simpa using head
    rw [List.reverse_cons, List.dropWhile_append]
    split <;> simp [visible]

/-- A carriage return at the end of a line makes no difference to the first visible character. -/
theorem head?_trimStart_dropReturn (line : List Char) :
    (trimStart (dropReturn line)).head? = (trimStart line).head? := by
  by_cases last : line.getLast? = some '\r'
  · obtain ⟨front, rfl⟩ := List.getLast?_eq_some_iff.1 last
    have blank : isBlank '\r' = true := rfl
    rw [dropReturn_concat, trimStart, trimStart, List.dropWhile_append]
    split
    · -- a line of blanks only, the carriage return among them
      next none => simp [List.isEmpty_iff.1 none, blank]
    · next more =>
      rw [List.head?_append_of_ne_nil]
      simpa using more
  · rw [dropReturn_of_ne last]

/-- What JSON takes for space is blank. -/
theorem isBlank_of_isSpace {c : Char} (h : Json.isSpace c = true) : isBlank c = true := by
  simp only [Json.isSpace, Bool.or_eq_true, decide_eq_true_eq] at h
  rcases h with ((rfl | rfl) | rfl) | rfl <;> rfl

/-- Visible text that JSON finds first is first. -/
theorem trimStart_of_skipSpace {line rest : List Char} {c : Char}
    (h : Json.skipSpace line = c :: rest) (visible : isBlank c = false) :
    trimStart line = c :: rest := by
  have parts := List.takeWhile_append_dropWhile (p := Json.isSpace) (l := line)
  rw [show line.dropWhile Json.isSpace = c :: rest from h] at parts
  have blank : ∀ d ∈ line.takeWhile Json.isSpace, isBlank d = true := fun d hd =>
    isBlank_of_isSpace (List.all_eq_true.1 List.all_takeWhile d hd)
  rw [trimStart, ← parts, List.dropWhile_append_of_pos blank,
    List.dropWhile_cons_of_neg (by simp [visible])]

end Text

/-- The error as it is when a line has been put in behind the first `n` lines. -/
def ScriptError.shifted (n : Nat) (e : ScriptError) : ScriptError :=
  if n < e.line then ⟨e.line + 1, e.error⟩ else e

namespace Script

/-! ### Lines that are skipped and lines that are steps -/

/-- A line is skipped if its first visible character, if it has one, is `#`. -/
theorem isSkipped_iff {line : List Char} :
    isSkipped line = true ↔ ∀ c ∈ (Text.trimStart line).head?, c = '#' := by
  rw [← Text.head?_trim, isSkipped]
  cases Text.trim line <;> simp

/-- Whether a line is skipped does not depend on a carriage return at its end, for that is blank. -/
@[simp] theorem isSkipped_dropReturn (line : List Char) :
    isSkipped (Text.dropReturn line) = isSkipped line := by
  rw [Bool.eq_iff_iff, isSkipped_iff, isSkipped_iff, Text.head?_trimStart_dropReturn]

/-- A step opens with a bracket, so it is not skipped. -/
theorem not_skipped_of_ofLine {line : List Char} {s : Step} (h : Step.ofLine line = .ok s) :
    isSkipped line = false := by
  obtain ⟨rest, reads⟩ := Json.Format.exists_read_of_readAll h
  have reads : Step.union.read Json.fullRoom line = .ok (s, rest) := reads
  obtain ⟨c, tail, opens, bracket⟩ := Json.TaggedUnion.opens_of_read reads
  have visible : Text.isBlank c = false := by rcases bracket with rfl | rfl <;> rfl
  rw [Bool.eq_false_iff, Ne, isSkipped_iff, Text.trimStart_of_skipSpace opens visible]
  intro same
  rcases bracket with rfl | rfl <;> cases same _ rfl

/-- The line is as it should be: it says nothing, or it is a step. -/
def GoodLine (line : List Char) : Prop := isSkipped line = true ∨ ∃ s, Step.ofLine line = .ok s

/-- The steps that some lines say. -/
def stepsOf (lines : List (List Char)) : List Step :=
  lines.filterMap fun line => (Step.ofLine line).toOption

/-- The line is bad, and that is why. -/
def Bad (line : List Char) (e : Json.ReadError) : Prop :=
  isSkipped line = false ∧ Step.ofLine line = .error e

/-- A line that is skipped only counts. -/
theorem readLines_skipped {line : List Char} (h : isSkipped line = true) (number : Nat)
    (rest : List (List Char)) : readLines number (line :: rest) = readLines (number + 1) rest := by
  rw [readLines, if_pos h]

/-- A step is put in front of the steps of the other lines. -/
theorem readLines_step {line : List Char} {s : Step} (h : Step.ofLine line = .ok s) (number : Nat)
    (rest : List (List Char)) :
    readLines number (line :: rest) = (readLines (number + 1) rest).map (s :: ·) := by
  rw [readLines, if_neg (by simp [not_skipped_of_ofLine h]), h]

/-- At a bad line reading ends, whatever comes behind it. -/
theorem readLines_bad {line : List Char} {e : Json.ReadError} (h : Bad line e) (number : Nat)
    (rest : List (List Char)) : readLines number (line :: rest) = .error ⟨number, e⟩ := by
  rw [readLines, if_neg (by simp [h.1]), h.2]

/-- A line that is no good is bad for one reason. -/
theorem good_or_bad (line : List Char) : GoodLine line ∨ ∃ e, Bad line e := by
  cases skipped : isSkipped line with
  | true => exact .inl (.inl skipped)
  | false =>
    cases reads : Step.ofLine line with
    | ok s => exact .inl (.inr ⟨s, reads⟩)
    | error e => exact .inr ⟨e, skipped, reads⟩

/-- A skipped line is no step. -/
theorem toOption_of_skipped {line : List Char} (h : isSkipped line = true) :
    (Step.ofLine line).toOption = none := by
  cases reads : Step.ofLine line with
  | error e => rfl
  | ok s => simp [not_skipped_of_ofLine reads] at h

/-- A line that is skipped has no step. -/
theorem stepsOf_skipped {line : List Char} (h : isSkipped line = true) (rest : List (List Char)) :
    stepsOf (line :: rest) = stepsOf rest :=
  List.filterMap_cons_none (toOption_of_skipped h)

/-- A line with a step has this step. -/
theorem stepsOf_step {line : List Char} {s : Step} (h : Step.ofLine line = .ok s)
    (rest : List (List Char)) : stepsOf (line :: rest) = s :: stepsOf rest :=
  List.filterMap_cons_some (by rw [h]; rfl)

/-! ### The outcome -/

/-- Good lines are read as the steps that they say. -/
theorem readLines_of_good {lines : List (List Char)} (h : ∀ line ∈ lines, GoodLine line)
    (number : Nat) : readLines number lines = .ok (stepsOf lines) := by
  induction lines generalizing number with
  | nil => rfl
  | cons line rest ih =>
    have others := ih fun l hl => h l (List.mem_cons_of_mem line hl)
    rcases h line List.mem_cons_self with skipped | ⟨s, reads⟩
    · rw [readLines_skipped skipped, stepsOf_skipped skipped, others]
    · rw [readLines_step reads, stepsOf_step reads, others]
      rfl

/-- A script in two parts is read in two parts. -/
theorem readLines_append {front : List (List Char)} (h : ∀ line ∈ front, GoodLine line)
    (number : Nat) (behind : List (List Char)) :
    readLines number (front ++ behind) =
      (readLines (number + front.length) behind).map (stepsOf front ++ ·) := by
  induction front generalizing number with
  | nil => cases read : readLines number behind <;> simp [read, stepsOf, Except.map]
  | cons line rest ih =>
    have others := ih (fun l hl => h l (List.mem_cons_of_mem line hl)) (number + 1)
    -- the number of the next line, counted either way
    have place : number + 1 + rest.length = number + (line :: rest).length := by
      rw [List.length_cons]
      omega
    rw [place] at others
    rcases h line List.mem_cons_self with skipped | ⟨s, reads⟩
    · rw [List.cons_append, readLines_skipped skipped, stepsOf_skipped skipped, others]
    · rw [List.cons_append, readLines_step reads, stepsOf_step reads, others]
      cases readLines (number + (line :: rest).length) behind <;> rfl

/-- The first bad line is the one to blame. -/
theorem readLines_of_bad {front : List (List Char)} (h : ∀ line ∈ front, GoodLine line)
    {line : List Char} {e : Json.ReadError} (bad : Bad line e) (number : Nat)
    (behind : List (List Char)) :
    readLines number (front ++ line :: behind) = .error ⟨number + front.length, e⟩ := by
  rw [readLines_append h, readLines_bad bad]
  rfl

/-- Either all lines are good or one of them is the first bad one. -/
theorem good_or_first_bad (lines : List (List Char)) :
    (∀ line ∈ lines, GoodLine line) ∨
      ∃ front line behind e, lines = front ++ line :: behind ∧ (∀ l ∈ front, GoodLine l) ∧
        Bad line e := by
  induction lines with
  | nil => exact .inl nofun
  | cons line rest ih =>
    rcases good_or_bad line with good | ⟨e, bad⟩
    · -- a good line in front leaves the first bad one where it is
      rcases ih with all | ⟨front, l, behind, e, rfl, before, bad⟩
      · exact .inl (List.forall_mem_cons.2 ⟨good, all⟩)
      · exact .inr ⟨line :: front, l, behind, e, rfl, List.forall_mem_cons.2 ⟨good, before⟩, bad⟩
    · exact .inr ⟨[], line, rest, e, rfl, nofun, bad⟩

/-- Lines can be read just if all of them are good. -/
theorem readLines_eq_ok_iff {number : Nat} {lines : List (List Char)} {steps : List Step} :
    readLines number lines = .ok steps ↔
      (∀ line ∈ lines, GoodLine line) ∧ steps = stepsOf lines := by
  rcases good_or_first_bad lines with good | ⟨front, line, behind, e, rfl, before, bad⟩
  · rw [readLines_of_good good, Except.ok.injEq]
    exact ⟨fun same => ⟨good, same.symm⟩, fun h => h.2.symm⟩
  · rw [readLines_of_bad before bad]
    refine ⟨nofun, fun h => ?_⟩
    -- the bad line is not good
    rcases h.1 line (by simp) with skipped | ⟨s, reads⟩
    · simp [bad.1] at skipped
    · cases bad.2.symm.trans reads

/-- Lines that cannot be read fail at the first bad one. -/
theorem readLines_eq_error_iff {number : Nat} {lines : List (List Char)} {e : ScriptError} :
    readLines number lines = .error e ↔
      ∃ front line behind, lines = front ++ line :: behind ∧ (∀ l ∈ front, GoodLine l) ∧
        e.line = number + front.length ∧ Bad line e.error := by
  constructor
  · intro fails
    rcases good_or_first_bad lines with good | ⟨front, line, behind, why, rfl, before, bad⟩
    · -- without a bad line nothing fails, and the first one says how
      rw [readLines_of_good good] at fails
      cases fails
    · rw [readLines_of_bad before bad] at fails
      cases fails
      exact ⟨front, line, behind, rfl, before, rfl, bad⟩
  · rintro ⟨front, line, behind, rfl, before, place, bad⟩
    rw [readLines_of_bad before bad, ← place]

/-! ### Lines that are put in -/

/-- One more line in front changes nothing but the number of a bad line. -/
theorem readLines_succ (number : Nat) (lines : List (List Char)) :
    readLines (number + 1) lines =
      (readLines number lines).mapError fun e => ⟨e.line + 1, e.error⟩ := by
  rcases good_or_first_bad lines with good | ⟨front, line, behind, e, rfl, before, bad⟩
  · rw [readLines_of_good good, readLines_of_good good]
    rfl
  · rw [readLines_of_bad before bad, readLines_of_bad before bad, Nat.add_right_comm]
    rfl

/-- A line that is skipped can be put in anywhere. -/
theorem readLines_insert {filler : List Char} (h : isSkipped filler = true)
    (front behind : List (List Char)) :
    readLines 1 (front ++ filler :: behind) =
      (readLines 1 (front ++ behind)).mapError (ScriptError.shifted front.length) := by
  rcases good_or_first_bad front with good | ⟨f, line, b, e, rfl, before, bad⟩
  · rw [readLines_append good, readLines_append good, readLines_skipped h, readLines_succ]
    cases read : readLines (1 + front.length) behind with
    | ok steps => rfl
    | error e =>
      -- all of these lines are behind the place
      obtain ⟨f, -, -, -, -, place, -⟩ := readLines_eq_error_iff.1 read
      have later : front.length < e.line := by omega
      simp [Except.map, Except.mapError, ScriptError.shifted, later]
  · have earlier : ¬(f ++ line :: b).length < 1 + f.length := by
      rw [List.length_append, List.length_cons]
      omega
    simp only [List.append_assoc, List.cons_append]
    rw [readLines_of_bad before bad, readLines_of_bad before bad]
    simp only [Except.mapError, ScriptError.shifted, if_neg earlier]

/-- **A script is read line by line.**  No line is both skipped and a step.

    * A text is a script just if every line of it is skipped or a step; then its steps are those of
      its lines, in their order.
    * Otherwise the error is that of the first line that is neither, with the number of this line
      among all lines.
    * A line that is skipped can be put in wherever a line starts: the steps stay, and so does an
      error, but for its number, which grows by one if the bad line is behind the new one. -/
theorem read_line_by_line (text : List Char) :
    (∀ line, isSkipped line = true → ∀ s, Step.ofLine line ≠ .ok s) ∧
    (∀ steps, read text = .ok steps ↔
      (∀ line ∈ Text.lines text, isSkipped line = true ∨ ∃ s, Step.ofLine line = .ok s) ∧
      steps = (Text.lines text).filterMap fun line => (Step.ofLine line).toOption) ∧
    (∀ e, read text = .error e ↔
      ∃ front line behind, Text.lines text = front ++ line :: behind ∧
        (∀ l ∈ front, isSkipped l = true ∨ ∃ s, Step.ofLine l = .ok s) ∧
        e.line = 1 + front.length ∧ isSkipped line = false ∧ Step.ofLine line = .error e.error) ∧
    ∀ before behind filler, text = before ++ behind → (∀ c ∈ before.getLast?, c = '\n') →
      '\n' ∉ filler → isSkipped filler = true →
      read (before ++ (filler ++ '\n' :: behind)) =
        (read text).mapError fun e =>
          if before.count '\n' < e.line then ⟨e.line + 1, e.error⟩ else e := by
  refine ⟨fun line skipped s reads => ?_, fun steps => readLines_eq_ok_iff,
    fun e => readLines_eq_error_iff, ?_⟩
  · rw [not_skipped_of_ofLine reads] at skipped
    cases skipped
  · rintro before behind filler rfl (ends : Text.EndsLine before) clean skipped
    have same : isSkipped (Text.dropReturn filler) = true := by
      rw [isSkipped_dropReturn]
      exact skipped
    -- the filler is one more line, behind as many as there are line feeds before it
    have inserted := readLines_insert same (Text.lines before) (Text.lines behind)
    rw [← Text.lines_lineFeed clean, ← Text.lines_append ends, ← Text.lines_append ends,
      Text.length_lines ends] at inserted
    exact inserted

/-- A script of two steps with a remark between them.  With a bad line at its end it fails there,
    and one line later when a blank line is put in front of that. -/
theorem read_line_by_line_two_steps :
    let before := "[\"signal\"]\n# now\n[\"wait_ms\",10]\n".toList
    let behind := "stop\n".toList
    read before = .ok [.signal, .wait 10] ∧
    (∀ line ∈ Text.lines before, isSkipped line = true ∨ ∃ s, Step.ofLine line = .ok s) ∧
    read (before ++ behind) = .error ⟨4, .malformed⟩ ∧
    read (before ++ (" ".toList ++ '\n' :: behind)) = .error ⟨5, .malformed⟩ := by
  intro before behind
  have steps : read before = .ok [.signal, .wait 10] := by decide +kernel
  have fails : read (before ++ behind) = .error ⟨4, .malformed⟩ := by decide +kernel
  obtain ⟨-, good, -⟩ := read_line_by_line before
  obtain ⟨-, -, -, insert⟩ := read_line_by_line (before ++ behind)
  have ends : ∀ c ∈ before.getLast?, c = '\n' := by
    have last : before.getLast? = some '\n' := by decide +kernel
    rintro c among
    rw [last] at among
    exact (Option.mem_some_iff.1 among).symm
  have inserted := insert before behind " ".toList rfl ends (by decide) (by decide +kernel)
  rw [fails] at inserted
  exact ⟨steps, ((good _).1 steps).1, fails, inserted.trans (by decide +kernel)⟩

-- an ideographic space is blank, but JSON does not skip it
example :
    read "\u3000\r\n\u3000# nothing\r\n\u3000\n \t[\"signal\"]\r\n".toList = .ok [.signal] ∧
      read "#\n\u3000[\"signal\"]\n[]".toList = .error ⟨2, .malformed⟩ := by
  decide +kernel

end Script

end OnScreen
