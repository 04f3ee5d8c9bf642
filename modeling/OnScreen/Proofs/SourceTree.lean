import OnScreen.Proofs.Paths
import OnScreen.Proofs.ProductionLines

namespace OnScreen

/-!
# What a scan finds in a tree

A scan goes through everything at and below a path and comes back with the lines that break a rule.
In which order things are visited is up to whoever reads the directories.  As long as nothing is
left out or visited twice, the same violations are found, file by file in the order of the visit.

* `FileSystem.LiesAt`, `FileSystem.Visits` — what lies at or below a path, and a visit of all of it.
* `FileSystem.visits_walk` — a walk is such a visit.
* `violationsAlong` — the violations that a visit comes upon; a scan comes upon those of its walk.
* `FileSystem.HasViolation`, `FileSystem.Visits.mem_iff` — they are the violations that there are.
* `scan_finds_every_violation` — they are found once each and in their place, whatever else lies
  around.
-/

/-! ### Visits -/

namespace FileSystem

/-- Something lies at or below a path when names lead to it from what is found there. -/
def LiesAt (fs : FileSystem) (path p : String) (u : FileTree) : Prop :=
  ∃ t names, fs.find? path = some t ∧ t.Leads names u ∧ p = pathAlong path names

/-- A visit of everything at and below a path, in any order. -/
structure Visits (fs : FileSystem) (path : String) (visited : List (String × FileTree)) : Prop where
  all : ∀ p u, (p, u) ∈ visited ↔ fs.LiesAt path p u
  once : (visited.map Prod.fst).Nodup

/-- A walk visits everything that lies at or below the path, and each thing once. -/
theorem visits_walk {fs : FileSystem} (proper : fs.Proper) (path : String) :
    fs.Visits path (fs.walk path) := by
  unfold walk
  cases found : fs.find? path with
  | none =>
    -- where nothing is found there is nothing to visit
    refine ⟨fun p u => iff_of_false List.not_mem_nil ?_, List.nodup_nil⟩
    rintro ⟨t, names, there, -⟩
    rw [found] at there
    cases there
  | some t =>
    refine ⟨fun p u => FileTree.mem_walk_iff.trans ?_,
      FileTree.nodup_walk (plain_of_find? proper found) path⟩
    constructor
    · rintro ⟨names, leads, rfl⟩
      exact ⟨t, names, found, leads, rfl⟩
    · rintro ⟨t', names, there, leads, rfl⟩
      rw [found] at there
      obtain rfl := Option.some.inj there
      exact ⟨names, leads, rfl⟩

/-- What lies at or below a path is read under its own path. -/
theorem read_of_liesAt {fs : FileSystem} (proper : fs.Proper) {path p : String} {u : FileTree}
    (lies : fs.LiesAt path p u) : fs.read p = u.lookup := by
  obtain ⟨t, names, found, leads, rfl⟩ := lies
  rw [read, find?_pathAlong proper found leads]

end FileSystem

/-! ### Lines in their place -/

/-- A line of production code has the number of its place in the text. -/
theorem getElem?_number {text : List Char} {l : CodeLine} (mem : l ∈ productionLines text) :
    1 ≤ l.number ∧ (Text.lines text)[l.number - 1]? = some l.full := by
  obtain ⟨i, inside, rfl⟩ := List.mem_mapIdx.1 mem
  have kept := List.takeWhile_prefix (fun line => !beginsTests line) (l := Text.lines text)
  refine ⟨Nat.succ_pos i, ?_⟩
  rw [Nat.add_sub_cancel, kept.getElem inside]
  exact List.getElem?_eq_getElem _

/-- Production lines come in the order of their numbers. -/
theorem pairwise_productionLines (text : List Char) :
    (productionLines text).Pairwise fun k l => k.number < l.number := by
  rw [LineReading.plain.productionLines_eq, List.pairwise_map]
  exact (LineReading.plain.pairwise_number text).sublist (List.takeWhile_sublist _)

/-- So do violations in one text, which have its path. -/
theorem pairwise_violationsIn (rule : String → List Char → Bool) (path text : String) :
    (violationsIn rule path text).Pairwise fun v w => v.path = w.path ∧ v.line < w.line := by
  rw [violationsIn, List.pairwise_map]
  exact ((pairwise_productionLines text.toList).filter _).imp fun less => ⟨rfl, less⟩

/-- A violation has the path of the text that it was found in. -/
theorem path_of_mem_violationsIn {rule : String → List Char → Bool} {path text : String}
    {v : Violation} (mem : v ∈ violationsIn rule path text) : v.path = path := by
  obtain ⟨l, -, -, rfl⟩ := (mem_violationsIn_iff rule path text v).1 mem
  rfl

/-! ### Violations along a visit -/

variable {rule : String → List Char → Bool} {visited : List (String × FileTree)}

/-- There is a text to be read where a text was found. -/
theorem Lookup.text?_eq_some_iff {found : Lookup} {text : String} :
    found.text? = some text ↔ found = .text text := by
  cases found <;> simp [Lookup.text?]

/-- A visit comes upon the violations in each source that it visits and that can be read. -/
theorem mem_violationsAlong_iff {v : Violation} :
    v ∈ violationsAlong rule visited ↔ ∃ u text, (v.path, u) ∈ visited ∧ isSource v.path = true ∧
      u.lookup = .text text ∧ v ∈ violationsIn rule v.path text := by
  unfold violationsAlong
  constructor
  · intro found
    obtain ⟨⟨p, u⟩, source, here⟩ := List.mem_flatMap.1 found
    obtain ⟨mem, source⟩ := List.mem_filter.1 source
    split at here
    · -- the file is the one that the violation names
      next text readable =>
      obtain rfl := path_of_mem_violationsIn here
      exact ⟨u, text, mem, source, Lookup.text?_eq_some_iff.1 readable, here⟩
    · cases here
  · rintro ⟨u, text, mem, source, readable, here⟩
    refine List.mem_flatMap.2 ⟨(v.path, u), List.mem_filter.2 ⟨mem, source⟩, ?_⟩
    rw [Lookup.text?_eq_some_iff.2 readable]
    exact here

/-- What is visited in two goes is found one after the other. -/
theorem violationsAlong_append (front behind : List (String × FileTree)) :
    violationsAlong rule (front ++ behind) =
      violationsAlong rule front ++ violationsAlong rule behind := by
  rw [violationsAlong, List.filter_append, List.flatMap_append]
  rfl

/-- Violations come line by line in a file, and file by file along a visit. -/
theorem pairwise_violationsAlong :
    (violationsAlong rule visited).Pairwise fun v w =>
      v.path = w.path ∧ v.line < w.line ∨ [v.path, w.path].Sublist (visited.map Prod.fst) := by
  rw [violationsAlong, List.pairwise_flatMap]
  constructor
  · intro e _
    split
    · -- within a file by line
      exact (pairwise_violationsIn _ _ _).imp .inl
    · exact .nil
  · -- of two files as they are visited
    refine List.pairwise_iff_forall_sublist.2 fun {d e} before v hv w hw => .inr ?_
    have first : v.path = d.1 := by
      split at hv
      · exact path_of_mem_violationsIn hv
      · cases hv
    have second : w.path = e.1 := by
      split at hw
      · exact path_of_mem_violationsIn hw
      · cases hw
    rw [first, second]
    exact (before.trans List.filter_sublist).map Prod.fst

/-- What is no source that can be read adds nothing to what else is found. -/
theorem violationsAlong_append_cons {p : String} {u : FileTree}
    (skipped : isSource p = false ∨ ∀ text, u.lookup ≠ .text text)
    (front behind : List (String × FileTree)) :
    violationsAlong rule (front ++ (p, u) :: behind) =
      violationsAlong rule front ++ violationsAlong rule behind := by
  -- what is skipped contributes nothing
  have nothing : violationsAlong rule [(p, u)] = [] := by
    rw [List.eq_nil_iff_forall_not_mem]
    intro v found
    obtain ⟨u, text, mem, source, readable, -⟩ := mem_violationsAlong_iff.1 found
    obtain ⟨rfl, rfl⟩ := Prod.mk.inj (List.mem_singleton.1 mem)
    rcases skipped with other | unreadable
    · rw [source] at other
      cases other
    · exact unreadable text readable
  rw [violationsAlong_append, ← List.singleton_append, violationsAlong_append, nothing,
    List.nil_append]

/-! ### All violations -/

/-- There is a violation at or below a path: some source lies there and can be read, and a line of
    its production code breaks the rule. -/
def FileSystem.HasViolation (fs : FileSystem) (rule : String → List Char → Bool) (path : String)
    (v : Violation) : Prop :=
  (∃ u, fs.LiesAt path v.path u) ∧ isSource v.path = true ∧
    ∃ text, fs.read v.path = .text text ∧ ∃ l ∈ productionLines text.toList,
      rule v.path l.code = true ∧ v = ⟨v.path, l.number, String.ofList (Text.trim l.full)⟩

namespace FileSystem

variable {fs : FileSystem} {path : String}

/-- A violation has the number of a line of its file, and this line is its text. -/
theorem HasViolation.place {v : Violation} (h : fs.HasViolation rule path v) :
    ∃ text line, fs.read v.path = .text text ∧ 1 ≤ v.line ∧
      (Text.lines text.toList)[v.line - 1]? = some line ∧
        v.text = String.ofList (Text.trim line) := by
  obtain ⟨-, -, text, readable, l, shown, -, same⟩ := h
  obtain ⟨positive, place⟩ := getElem?_number shown
  rw [same]
  exact ⟨text, l.full, readable, positive, place, rfl⟩

namespace Visits

/-- Every visit comes upon all violations, and upon nothing else. -/
theorem mem_iff (visits : fs.Visits path visited) (proper : fs.Proper) (v : Violation) :
    v ∈ violationsAlong rule visited ↔ fs.HasViolation rule path v := by
  rw [mem_violationsAlong_iff]
  constructor
  · rintro ⟨u, text, mem, source, readable, here⟩
    -- the visit comes by everything that lies there, and nothing else
    have lies := (visits.all _ _).1 mem
    obtain ⟨l, shown, broken, same⟩ := (mem_violationsIn_iff _ _ _ _).1 here
    exact ⟨⟨u, lies⟩, source, text, (read_of_liesAt proper lies).trans readable, l, shown, broken,
      same.symm⟩
  · rintro ⟨⟨u, lies⟩, source, text, readable, l, shown, broken, same⟩
    rw [read_of_liesAt proper lies] at readable
    exact ⟨u, text, (visits.all _ _).2 lies, source, readable,
      (mem_violationsIn_iff _ _ _ _).2 ⟨l, shown, broken, same.symm⟩⟩

/-- No line is found twice. -/
theorem nodup_lines (visits : fs.Visits path visited) :
    ((violationsAlong rule visited).map fun v => (v.path, v.line)).Nodup := by
  rw [List.nodup_iff_pairwise_ne, List.pairwise_map]
  refine pairwise_violationsAlong.imp fun order same => ?_
  obtain ⟨path, line⟩ := Prod.mk.inj same
  rcases order with ⟨-, less⟩ | twice
  · exact less.ne line
  · rw [path] at twice
    exact List.nodup_iff_sublist.1 visits.once _ twice

end Visits

end FileSystem

/-- **A scan finds every violation.**  A scan comes upon the violations along its walk, and the walk
    is a visit of everything at and below a path; whatever lies there can be read under its own
    path.  In whatever order all this is visited:

    * What is found is a violation for each line of production code that breaks the rule, in each
      source that can be read at or below the path.
    * It has the number of a line of the file, and the text of this line without the blank space
      around.
    * No line is found twice.  Violations in one file come line by line, and files come in the order
      of the visit.
    * Whatever else is visited adds nothing and takes nothing away. -/
theorem scan_finds_every_violation {fs : FileSystem} (proper : fs.Proper)
    (rule : String → List Char → Bool) (path : String) :
    fs.scan rule path = violationsAlong rule (fs.walk path) ∧
    fs.Visits path (fs.walk path) ∧
    (∀ p u, fs.LiesAt path p u → fs.read p = u.lookup) ∧
    ∀ visited, fs.Visits path visited →
      (∀ v, v ∈ violationsAlong rule visited ↔ fs.HasViolation rule path v) ∧
      (∀ v ∈ violationsAlong rule visited, ∃ text line, fs.read v.path = .text text ∧
        1 ≤ v.line ∧ (Text.lines text.toList)[v.line - 1]? = some line ∧
          v.text = String.ofList (Text.trim line)) ∧
      ((violationsAlong rule visited).map fun v => (v.path, v.line)).Nodup ∧
      ((violationsAlong rule visited).Pairwise fun v w =>
        v.path = w.path ∧ v.line < w.line ∨ [v.path, w.path].Sublist (visited.map Prod.fst)) ∧
      ∀ front p u behind, visited = front ++ (p, u) :: behind →
        (isSource p = false ∨ ∀ text, fs.read p ≠ .text text) →
          violationsAlong rule visited =
            violationsAlong rule front ++ violationsAlong rule behind := by
  refine ⟨rfl, FileSystem.visits_walk proper path, fun p u => FileSystem.read_of_liesAt proper,
    fun visited visits => ?_⟩
  -- completeness is the visit's, all else follows from where a violation is found
  have found : ∀ v, v ∈ violationsAlong rule visited ↔ fs.HasViolation rule path v :=
    visits.mem_iff proper
  refine ⟨found, fun v mem => ((found v).1 mem).place, visits.nodup_lines,
    pairwise_violationsAlong, ?_⟩
  rintro front p u behind rfl skipped
  have lies : fs.LiesAt path p u :=
    (visits.all p u).1 (List.mem_append_right _ List.mem_cons_self)
  rw [FileSystem.read_of_liesAt proper lies] at skipped
  exact violationsAlong_append_cons skipped front behind

/-- Beside sources there are a source whose bytes are no text, notes, and a directory with the name
    of a source.  Visited backwards, the source in this directory comes first, and the lines of the
    other one still come as they stand. -/
theorem scan_finds_every_violation_backwards :
    let deep := FileTree.file (some "\n\tb.unwrap();\n")
    let src := FileTree.directory [
      ("a.rs", .file (some "x.unwrap();\n// .unwrap()\n  y.unwrap(); // y\nmod tests;\nz.unwrap();")),
      ("broken.rs", .file none), ("d.rs", .directory [("b.rs", deep)]),
      ("notes.txt", .file (some "n.unwrap();"))]
    let fs : FileSystem := ⟨"/w", .directory [("src", src)]⟩
    let rule := forbidText ".unwrap()".toList none
    let backwards := (fs.walk "/w/src/").reverse
    fs.Proper ∧ fs.LiesAt "/w/src/" "/w/src/d.rs/b.rs" deep ∧ fs.Visits "/w/src/" backwards ∧
      fs.scan rule "/w/src/" = [⟨"/w/src/a.rs", 1, "x.unwrap();"⟩,
        ⟨"/w/src/a.rs", 3, "y.unwrap(); // y"⟩, ⟨"/w/src/d.rs/b.rs", 2, "b.unwrap();"⟩] ∧
      violationsAlong rule backwards = [⟨"/w/src/d.rs/b.rs", 2, "b.unwrap();"⟩,
        ⟨"/w/src/a.rs", 1, "x.unwrap();"⟩, ⟨"/w/src/a.rs", 3, "y.unwrap(); // y"⟩] ∧
      fs.read "/w/src/d.rs/b.rs" = .text "\n\tb.unwrap();\n" ∧
      ⟨"/w/src/d.rs/b.rs", 2, "b.unwrap();"⟩ ∈ violationsAlong rule backwards := by
  intro deep src fs rule backwards
  have named : ∀ name ∈ ["src", "a.rs", "broken.rs", "d.rs", "b.rs", "notes.txt"],
      PlainName name := by
    intro name mem
    simp only [List.mem_cons, List.not_mem_nil, or_false] at mem
    rcases mem with rfl | rfl | rfl | rfl | rfl | rfl <;>
      exact ⟨by decide, by decide, by decide, by decide⟩
  have inDirectory : (FileTree.directory [("b.rs", deep)]).Plain :=
    .directory (by decide) (by simp [named]) (by simp [deep, FileTree.Plain.file])
  have inSrc : src.Plain :=
    .directory (by decide) (by simp [named]) (by simp [inDirectory, FileTree.Plain.file])
  have proper : fs.Proper :=
    ⟨.directory (by decide) (by simp [named]) (by simp [inSrc]), .inr (by decide), by decide⟩
  have lies : fs.LiesAt "/w/src/" "/w/src/d.rs/b.rs" deep := by
    have inside : (FileTree.directory [("b.rs", deep)]).Leads ["b.rs"] deep :=
      .inside (.head _) (.here deep)
    have text : "/w/src/".toList = fs.base.toList ++ '/' :: "src/".toList := by decide
    have names : namesOf (String.ofList "src/".toList) = ["src", ""] := by decide +kernel
    have route : fs.Route "/w/src/".toList ["src", ""] := text ▸ names ▸ .absolute _
    have found : fs.find? "/w/src/" = some src :=
      (FileSystem.find?_eq_some_iff proper).2 ⟨by decide, _, route, rfl⟩
    exact ⟨src, ["d.rs", "b.rs"], found, .inside (.tail _ (.tail _ (.head _))) inside,
      by decide +kernel⟩
  obtain ⟨-, visits, readable, every⟩ := scan_finds_every_violation proper rule "/w/src/"
  have back : fs.Visits "/w/src/" backwards := by
    refine ⟨fun p u => List.mem_reverse.trans (visits.all p u), ?_⟩
    rw [List.map_reverse]
    exact List.nodup_reverse.2 visits.once
  have here : fs.read "/w/src/d.rs/b.rs" = .text "\n\tb.unwrap();\n" := readable _ _ lies
  refine ⟨proper, lies, back, by decide +kernel, by decide +kernel, here, ?_⟩
  exact ((every backwards back).1 _).2 ⟨⟨deep, lies⟩, by decide +kernel, _, here,
    ⟨2, "\tb.unwrap();".toList, "\tb.unwrap();".toList⟩, by decide +kernel, by decide +kernel, rfl⟩

end OnScreen
