import Mathlib.Data.List.TakeWhile
import OnScreen.SourceScan

namespace OnScreen

/-!
# What a scan sees of production code

A scan should see all code in front of the test module.  What that is depends on how lines are read:
which characters go on with a name, and which stand in a string literal.  However this is done, a
scan sees less in two cases, and in no other: it takes any module whose name begins with that of the
test module for the test module, and any comment mark for a comment, also one in a string literal.

* `LineReading`, `LineReading.productionCode` — a way to read lines, and the code to be seen.
* `codePart_codeOf` — of a line, a scan sees the code up to the first comment mark in it.
* `LineReading.productionLines_eq` — of a text, it sees the lines up to the first that begins like
  the test module.
* `scan_sees_up_to_two_marks` — what is seen, when it is everything, and which violations are found.
* `scan_hides_production_code` — forbidden calls that are not found.
-/

/-- A way to read the lines of a source. -/
structure LineReading where
  /-- The characters that go on with a name. -/
  inName : Char → Bool
  /-- Whether the character at a position of a line stands in a string literal. -/
  inLiteral : List Char → Nat → Bool
  /-- A literal ends with a quote, hence not behind a slash. -/
  goes_on : ∀ l i, l[i]? = some '/' → inLiteral l i = true → inLiteral l (i + 1) = true

/-- The mark with which a comment begins. -/
def commentMark : List Char := ['/', '/']

/-! ### The code of a line -/

/-- A line up to its comment, which begins with the first mark that does not stand in a literal. -/
def codeOf (inLiteral : Nat → Bool) : List Char → List Char
  | [] => []
  | c :: rest =>
    if commentMark.isPrefixOf (c :: rest) && !inLiteral 0 then []
    else c :: codeOf (fun i => inLiteral (i + 1)) rest

/-- The code of a line is a first part of it, however literals are told. -/
theorem codeOf_isPrefix (inLiteral : Nat → Bool) (line : List Char) :
    codeOf inLiteral line <+: line := by
  induction line generalizing inLiteral with
  | nil => exact List.prefix_rfl
  | cons c rest ih =>
    rw [codeOf]
    split
    · exact List.nil_prefix
    · exact (List.prefix_cons_inj c).2 (ih _)

/-- A line is cut at a comment mark, and is otherwise kept character by character. -/
theorem codePart_cons (c : Char) (rest : List Char) :
    codePart (c :: rest) =
      if commentMark.isPrefixOf (c :: rest) then [] else c :: codePart rest := by
  by_cases mark : commentMark.isPrefixOf (c :: rest) = true
  · rw [if_pos mark]
    obtain ⟨tail, same⟩ := List.isPrefixOf_iff_prefix.1 mark
    rw [← same]
    rfl
  · rw [if_neg mark, codePart]
    rintro tail rfl rfl
    exact mark rfl

/-- What stands behind a slash in a literal is kept. -/
theorem codeOf_slash (inLiteral : Nat → Bool) (inside : inLiteral 0 = true) (tail : List Char) :
    ∃ rest, codeOf inLiteral ('/' :: tail) = '/' :: rest := by
  rw [codeOf, inside]
  simp

/-- A scan sees a comment mark wherever it stands. -/
theorem codePart_codeOf {inLiteral : Nat → Bool} {l : List Char}
    (goes_on : ∀ i, l[i]? = some '/' → inLiteral i = true → inLiteral (i + 1) = true) :
    codePart (codeOf inLiteral l) = codePart l := by
  induction l generalizing inLiteral with
  | nil => rfl
  | cons c rest ih =>
    have later : codePart (codeOf (fun i => inLiteral (i + 1)) rest) = codePart rest :=
      ih fun i slash => goes_on (i + 1) slash
    rw [codeOf, codePart_cons c rest]
    by_cases mark : commentMark.isPrefixOf (c :: rest) = true
    · rw [if_pos mark, mark]
      obtain ⟨tail, same⟩ := List.isPrefixOf_iff_prefix.1 mark
      cases inside : inLiteral 0 with
      | false => rfl
      | true =>
        -- the mark stands in a literal as a whole, so both of its slashes are there to be seen
        obtain ⟨rfl, rfl⟩ := List.cons.inj same
        have second : inLiteral 1 = true := goes_on 0 rfl inside
        obtain ⟨kept, both⟩ := codeOf_slash (fun i => inLiteral (i + 1)) second tail
        show codePart ('/' :: codeOf (fun i => inLiteral (i + 1)) ('/' :: tail)) = []
        rw [both]
        rfl
    · have none : commentMark.isPrefixOf (c :: rest) = false := Bool.eq_false_iff.2 mark
      rw [none]
      have kept : c :: codeOf (fun i => inLiteral (i + 1)) rest <+: c :: rest :=
        (List.prefix_cons_inj c).2 (codeOf_isPrefix _ rest)
      have unmarked : ¬commentMark <+: c :: codeOf (fun i => inLiteral (i + 1)) rest := by
        intro h
        exact mark (List.isPrefixOf_iff_prefix.2 (h.trans kept))
      show codePart (c :: codeOf (fun i => inLiteral (i + 1)) rest) = c :: codePart rest
      rw [codePart_cons, if_neg fun h => unmarked (List.isPrefixOf_iff_prefix.1 h), later]

/-- Nothing is cut off just where there is no mark. -/
theorem codePart_eq_self_iff (line : List Char) :
    codePart line = line ↔ occursIn commentMark line = false := by
  induction line with
  | nil => exact iff_of_true rfl rfl
  | cons c rest ih =>
    rw [codePart_cons, occursIn]
    cases mark : commentMark.isPrefixOf (c :: rest) with
    | true => simp
    | false => simp [ih]

/-! ### The code of a text -/

/-- Lines are numbered the same whether the last of them are dropped before or afterwards. -/
theorem takeWhile_mapIdx {α β : Type} {p : α → Bool} {q : β → Bool} {f : Nat → α → β}
    (same : ∀ i a, q (f i a) = p a) (l : List α) :
    (l.mapIdx f).takeWhile q = (l.takeWhile p).mapIdx f := by
  induction l generalizing f with
  | nil => rfl
  | cons a l ih =>
    rw [List.mapIdx_cons, List.takeWhile_cons, List.takeWhile_cons, same]
    split
    · rw [List.mapIdx_cons, ih fun i b => same (i + 1) b]
    · rfl

namespace LineReading

/-- Whether the test module begins on a line: its name is no longer than that. -/
def opensTests (r : LineReading) (line : List Char) : Bool :=
  let line := Text.trimStart line
  "mod tests".toList.isPrefixOf line &&
    (line.drop "mod tests".length).head?.all fun c => !r.inName c

/-- All code in front of the test module. -/
def productionCode (r : LineReading) (text : List Char) : List CodeLine :=
  ((Text.lines text).takeWhile fun line => !r.opensTests line).mapIdx fun i line =>
    ⟨i + 1, codeOf (r.inLiteral line) line, line⟩

/-- Whoever reads that a line opens the test module, the scan stops there at the latest. -/
theorem beginsTests_of_opensTests {r : LineReading} {line : List Char}
    (h : r.opensTests line = true) : beginsTests line = true :=
  (Bool.and_eq_true_iff.1 h).1

/-- Of all code in front of the test module, a scan sees the lines in front of the first that begins
    like the test module, and of each line what stands in front of the first comment mark. -/
theorem productionLines_eq (r : LineReading) (text : List Char) :
    productionLines text =
      ((r.productionCode text).takeWhile fun l => !beginsTests l.full).map fun l =>
        { l with code := codePart l.code } := by
  -- where the reading sees the tests begin, the scan does so too
  have fewer : (fun line => decide ((!beginsTests line) = true ∧ (!r.opensTests line) = true)) =
      fun line => !beginsTests line := by
    funext line
    cases opens : r.opensTests line with
    | false => simp
    | true => simp [beginsTests_of_opensTests opens]
  -- the scan's cut leaves the same of a line as of its code
  have seen : ∀ line, codePart (codeOf (r.inLiteral line) line) = codePart line :=
    fun line => codePart_codeOf (r.goes_on line)
  rw [productionCode, takeWhile_mapIdx (p := fun line => !beginsTests line)
    (q := fun l : CodeLine => !beginsTests l.full) fun _ _ => rfl,
    List.takeWhile_takeWhile, fewer, List.mapIdx_eq_zipIdx_map, List.map_map, productionLines,
    List.mapIdx_eq_zipIdx_map]
  refine List.map_congr_left fun line _ => ?_
  rw [Function.comp_apply, seen]

/-- A scan sees everything just if no line in front of the test module begins like it, and no
    comment mark stands in a literal. -/
theorem productionLines_eq_iff (r : LineReading) (text : List Char) :
    productionLines text = r.productionCode text ↔
      ∀ l ∈ r.productionCode text,
        beginsTests l.full = false ∧ occursIn commentMark l.code = false := by
  rw [productionLines_eq r]
  generalize r.productionCode text = all
  -- the scan cuts nothing off a line just when its code has no mark
  have cut : ∀ l : CodeLine, { l with code := codePart l.code } = l ↔
      occursIn commentMark l.code = false := by
    intro l
    rw [← codePart_eq_self_iff]
    constructor
    · exact congrArg CodeLine.code
    · intro same
      rw [same]
  constructor
  · intro whole
    -- lines that are only cut short are as many as all, so none was dropped
    have lines : (all.takeWhile fun l => !beginsTests l.full).length = all.length := by
      rw [← congrArg List.length whole, List.length_map]
    have none : all.takeWhile (fun l => !beginsTests l.full) = all :=
      (List.takeWhile_prefix _).eq_of_length lines
    rw [none] at whole
    have same := List.map_eq_map_iff.1 (whole.trans (List.map_id all).symm)
    intro l mem
    exact ⟨by simpa using List.takeWhile_eq_self_iff.1 none l mem, (cut l).1 (same l mem)⟩
  · intro clean
    have none : all.takeWhile (fun l => !beginsTests l.full) = all :=
      List.takeWhile_eq_self_iff.2 fun l mem => by simp [(clean l mem).1]
    rw [none]
    refine Eq.trans (List.map_congr_left fun l mem => ?_) (List.map_id all)
    exact (cut l).2 (clean l mem).2

/-- No two lines of code have one number. -/
theorem eq_of_number_eq {r : LineReading} {text : List Char} {k l : CodeLine}
    (hk : k ∈ r.productionCode text) (hl : l ∈ r.productionCode text)
    (same : k.number = l.number) : k = l := by
  obtain ⟨i, hi, rfl⟩ := List.mem_mapIdx.1 hk
  obtain ⟨j, hj, rfl⟩ := List.mem_mapIdx.1 hl
  obtain rfl : i = j := Nat.succ.inj same
  rfl

/-- Lines of code come in the order of their numbers. -/
theorem pairwise_number (r : LineReading) (text : List Char) :
    (r.productionCode text).Pairwise fun k l => k.number < l.number := by
  rw [List.pairwise_iff_getElem]
  intro i j hi hj less
  simp only [productionCode, List.getElem_mapIdx]
  exact Nat.succ_lt_succ less

end LineReading

/-- Of numbered lines, those that are kept are the ones in front of the first that is not wanted. -/
theorem mem_takeWhile_iff {all : List CodeLine}
    (numbered : all.Pairwise fun k l => k.number < l.number) (q : CodeLine → Bool) {l : CodeLine}
    (mem : l ∈ all) : l ∈ all.takeWhile q ↔ ∀ k ∈ all, k.number ≤ l.number → q k = true := by
  induction all with
  | nil => cases mem
  | cons a all ih =>
    obtain ⟨first, later⟩ := List.pairwise_cons.1 numbered
    rw [List.takeWhile_cons]
    cases wanted : q a with
    | false =>
      -- the first line stands in front of all, so it alone decides
      have before : a.number ≤ l.number := by
        rcases List.mem_cons.1 mem with rfl | mem
        · exact Nat.le_refl _
        · exact Nat.le_of_lt (first l mem)
      have unwanted : ¬∀ k ∈ a :: all, k.number ≤ l.number → q k = true := by
        intro h
        have kept := h a List.mem_cons_self before
        rw [wanted] at kept
        cases kept
      exact iff_of_false List.not_mem_nil unwanted
    | true =>
      rcases List.mem_cons.1 mem with rfl | mem
      · refine iff_of_true List.mem_cons_self fun k hk before => ?_
        rcases List.mem_cons.1 hk with rfl | behind
        · exact wanted
        · exact absurd (first k behind) (Nat.not_lt.2 before)
      · -- a later line has a greater number
        have other : l ≠ a := fun same => Nat.lt_irrefl _ (same ▸ first l mem)
        show l ∈ a :: all.takeWhile q ↔ _
        rw [List.mem_cons, or_iff_right other, ih later mem, List.forall_mem_cons]
        exact ⟨fun h => ⟨fun _ => wanted, h⟩, fun h => h.2⟩

/-! ### A plain way to read lines -/

/-- Where one stands in a line with string literals. -/
inductive Quoting where
  | outside
  | inside
  /-- Inside, behind a backslash. -/
  | escaped
  deriving DecidableEq, Repr

/-- Goes on behind a character: a literal goes from quote to quote, and a backslash in it takes the
    next character along. -/
def Quoting.next : Quoting → Char → Quoting
  | outside, c => if c = '"' then inside else outside
  | inside, c => if c = '"' then outside else if c = '\\' then escaped else inside
  | escaped, _ => inside

/-- Names are made of letters, digits and underscores, and literals stand in double quotes. -/
def LineReading.plain : LineReading where
  inName c := c.isAlphanum || c = '_'
  inLiteral line i := decide ((line.take i).foldl Quoting.next .outside ≠ .outside)
  goes_on line i slash inside := by
    have before := of_decide_eq_true inside
    refine decide_eq_true ?_
    rw [List.take_add_one, slash, List.foldl_append]
    generalize (line.take i).foldl Quoting.next .outside = q at before
    cases q with
    | outside => exact absurd rfl before
    | inside => exact nofun
    | escaped => exact nofun

/-! ### Violations -/

/-- A violation in a text is a line of code that breaks the rule, told with the path and the number.
    -/
theorem mem_violationsIn_iff (rule : String → List Char → Bool) (path text : String)
    (v : Violation) :
    v ∈ violationsIn rule path text ↔ ∃ l ∈ productionLines text.toList,
      rule path l.code = true ∧ ⟨path, l.number, String.ofList (Text.trim l.full)⟩ = v := by
  simp only [violationsIn, List.mem_map, List.mem_filter, and_assoc]

/-- **A scan sees up to two marks.**  However lines are read, a scan sees of all code in front of
    the test module the lines up to the first that begins like the test module, and of each line
    what stands in front of the first comment mark.

    * Nothing is hidden just if no line begins like the test module without being it, and no comment
      mark stands in a literal.
    * A line is found to break a rule just if no line up to it begins like the test module, and what
      stands in front of its first comment mark breaks the rule. -/
theorem scan_sees_up_to_two_marks (r : LineReading) (text : String) :
    let all := r.productionCode text.toList
    productionLines text.toList =
      ((all.takeWhile fun l => !beginsTests l.full).map fun l => { l with code := codePart l.code }) ∧
    (productionLines text.toList = all ↔
      ∀ l ∈ all, beginsTests l.full = false ∧ occursIn commentMark l.code = false) ∧
    ∀ rule path, ∀ l ∈ all,
      ⟨path, l.number, String.ofList (Text.trim l.full)⟩ ∈ violationsIn rule path text ↔
        (∀ k ∈ all, k.number ≤ l.number → beginsTests k.full = false) ∧
          rule path (codePart l.code) = true := by
  intro all
  refine ⟨r.productionLines_eq _, r.productionLines_eq_iff _, fun rule path l mem => ?_⟩
  have inFront :=
    mem_takeWhile_iff (r.pairwise_number text.toList) (fun l => !beginsTests l.full) mem
  simp only [Bool.not_eq_true'] at inFront
  rw [mem_violationsIn_iff, r.productionLines_eq, ← inFront]
  constructor
  · rintro ⟨seen, shown, broken, same⟩
    obtain ⟨k, kept, rfl⟩ := List.mem_map.1 shown
    -- a violation tells its line by the number
    have number : k.number = l.number := congrArg Violation.line same
    obtain rfl := LineReading.eq_of_number_eq ((List.takeWhile_prefix _).subset kept) mem number
    exact ⟨kept, broken⟩
  · rintro ⟨shown, broken⟩
    exact ⟨_, List.mem_map.2 ⟨l, shown, rfl⟩, broken, rfl⟩

/-- The call stands behind a literal with a slash and a quote in it, and in front of a comment. -/
theorem scan_sees_up_to_two_marks_call :
    let text := "f(\"/\\\"/\", x.unwrap()); // \"y\"\n#[cfg(test)]\nmod tests;\n"
    let l : CodeLine :=
      ⟨1, "f(\"/\\\"/\", x.unwrap()); ".toList, "f(\"/\\\"/\", x.unwrap()); // \"y\"".toList⟩
    let all := LineReading.plain.productionCode text.toList
    l ∈ all ∧ productionLines text.toList = all ∧
      ⟨"a.rs", 1, String.ofList (Text.trim l.full)⟩ ∈
        violationsIn (forbidText ".unwrap()".toList none) "a.rs" text := by
  intro text l all
  have mem : l ∈ all := by decide +kernel
  obtain ⟨-, whole, found⟩ := scan_sees_up_to_two_marks LineReading.plain text
  exact ⟨mem, whole.2 (by decide +kernel),
    (found _ "a.rs" l mem).2 ⟨by decide +kernel, by decide +kernel⟩⟩

/-- A forbidden call stands behind a literal with slashes in it, and another one behind a module
    whose name begins like that of the test module.  Neither is found. -/
theorem scan_hides_production_code :
    let text := "let u = \"http://x\"; y.unwrap();\nmod tests_support;\nz.unwrap();\n"
    let all := LineReading.plain.productionCode text.toList
    (all.map fun l => occursIn ".unwrap()".toList l.code) = [true, false, true] ∧
      productionLines text.toList =
        [⟨1, "let u = \"http:".toList, "let u = \"http://x\"; y.unwrap();".toList⟩] ∧
      violationsIn (forbidText ".unwrap()".toList none) "a.rs" text = [] := by
  decide +kernel

end OnScreen
