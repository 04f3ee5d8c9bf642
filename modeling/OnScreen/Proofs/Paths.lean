import Mathlib.Data.List.Induction
import Mathlib.Data.List.Nodup
import OnScreen.SourceScan

namespace OnScreen

/-!
# Paths into a tree

A walk through a tree gives everything in it a path.  Names have no slashes in them, so no two
things have one path; and whoever follows the path from outside comes upon the same thing again.

* `FileTree.Leads`, `pathAlong` — the names that lead to something in a tree, and the path they
  make.
* `FileTree.Plain`, `FileSystem.Proper` — trees and file systems as they are.
* `FileTree.mem_walk_iff` — a walk visits whatever names lead to.
* `FileTree.nodup_walk` — it visits nothing twice.
* `FileSystem.find?_pathAlong` — under the path of something, just this is found.
-/

/-! ### Trees -/

/-- A name that something in a directory may have. -/
structure PlainName (name : String) : Prop where
  named : name ≠ ""
  notHere : name ≠ "."
  notUp : name ≠ ".."
  noSlash : '/' ∉ name.toList

/-- The path that some names make behind another path. -/
def pathAlong (path : String) (names : List String) : String := names.foldl joinPath path

namespace FileTree

/-- From a tree, some names lead to something in it. -/
inductive Leads : FileTree → List String → FileTree → Prop
  | here (t : FileTree) : Leads t [] t
  | inside {entries : List (String × FileTree)} {name : String} {child u : FileTree}
    {names : List String} (mem : (name, child) ∈ entries) (further : Leads child names u) :
    Leads (directory entries) (name :: names) u

/-- The things in a directory have different names, and every name is just a name. -/
inductive Plain : FileTree → Prop
  | file (text : Option String) : Plain (file text)
  | directory {entries : List (String × FileTree)} (apart : (entries.map Prod.fst).Nodup)
    (names : ∀ e ∈ entries, PlainName e.1) (inside : ∀ e ∈ entries, Plain e.2) :
    Plain (directory entries)

/-- What holds of files, and of a directory when it holds of everything in it, holds of all trees.
    -/
theorem induct {motive : FileTree → Prop} (onFile : ∀ text, motive (file text))
    (onDirectory : ∀ entries, (∀ e ∈ entries, motive e.2) → motive (directory entries)) :
    ∀ t, motive t
  | file text => onFile text
  | directory entries => onDirectory entries fun e _ => induct onFile onDirectory e.2
termination_by t => sizeOf t
decreasing_by
  rename_i mem
  -- an entry is smaller than its directory
  have smaller := List.sizeOf_lt_of_mem mem
  obtain ⟨name, t⟩ := e
  simp only [Prod.mk.sizeOf_spec, directory.sizeOf_spec] at smaller ⊢
  omega

/-- Where only plain names lead, everything is plain. -/
theorem Plain.of_leads {t u : FileTree} {names : List String} (plain : t.Plain)
    (leads : t.Leads names u) : u.Plain ∧ ∀ name ∈ names, PlainName name := by
  induction leads with
  | here => exact ⟨plain, nofun⟩
  | inside mem further ih =>
    cases plain with
    | directory apart plainNames inside =>
      obtain ⟨plainEnd, rest⟩ := ih (inside _ mem)
      exact ⟨plainEnd, List.forall_mem_cons.2 ⟨plainNames _ mem, rest⟩⟩

/-- The entries of a directory are walked one after the other. -/
theorem walkAll_eq (path : String) (entries : List (String × FileTree)) :
    walkAll path entries = entries.flatMap fun e => e.2.walk (joinPath path e.1) := by
  induction entries with
  | nil => rfl
  | cons e rest ih =>
    obtain ⟨name, t⟩ := e
    rw [walkAll, ih, List.flatMap_cons]

/-- A walk visits whatever names lead to, and nothing else. -/
theorem mem_walk_iff {t : FileTree} {path p : String} {u : FileTree} :
    (p, u) ∈ t.walk path ↔ ∃ names, t.Leads names u ∧ p = pathAlong path names := by
  induction t using induct generalizing path with
  | onFile text =>
    rw [walk, List.mem_singleton, Prod.mk.injEq]
    constructor
    · rintro ⟨rfl, rfl⟩
      exact ⟨[], .here _, rfl⟩
    · rintro ⟨names, leads, rfl⟩
      cases leads with
      | here => exact ⟨rfl, rfl⟩
  | onDirectory entries ih =>
    rw [walk, walkAll_eq, List.mem_cons, List.mem_flatMap, Prod.mk.injEq]
    constructor
    · -- the directory itself, or something below one of its entries
      rintro (⟨rfl, rfl⟩ | ⟨e, mem, deeper⟩)
      · exact ⟨[], .here _, rfl⟩
      · obtain ⟨names, leads, rfl⟩ := (ih e mem).1 deeper
        exact ⟨e.1 :: names, .inside mem leads, rfl⟩
    · rintro ⟨names, leads, rfl⟩
      cases leads with
      | here => exact .inl ⟨rfl, rfl⟩
      | inside mem further => exact .inr ⟨_, mem, (ih _ mem).2 ⟨_, further, rfl⟩⟩

end FileTree

/-! ### The text of a path -/

/-- A path ends with a slash when its last character is one. -/
theorem endsWith_slash_iff (path : String) :
    path.endsWith "/" = true ↔ path.toList.getLast? = some '/' := by
  rw [← List.singleton_suffix_iff_getLast?_eq_some]
  unfold String.endsWith
  rw [String.Slice.endsWith_string_iff, String.copy_toSlice]
  rfl

/-- A path as it stands in front of a name. -/
def pathFront (path : String) : List Char :=
  if path.isEmpty || path.endsWith "/" then path.toList else path.toList ++ ['/']

/-- Names with a slash in front of each. -/
def slashed (names : List String) : List Char := names.flatMap fun name => '/' :: name.toList

/-- A name is put behind a path, with a slash in between unless there is one. -/
theorem toList_joinPath (path name : String) :
    (joinPath path name).toList = pathFront path ++ name.toList := by
  unfold joinPath pathFront
  split <;> simp

/-- Behind a path that ends with a name there is a slash. -/
theorem pathFront_of_getLast? {path : String} (nonempty : path ≠ "")
    (last : path.toList.getLast? ≠ some '/') : pathFront path = path.toList ++ ['/'] := by
  have slashless : path.endsWith "/" = false := by
    rwa [← Bool.not_eq_true, endsWith_slash_iff]
  rw [pathFront, slashless, String.isEmpty_eq_false_iff.2 nonempty]
  rfl

/-- A path that a plain name makes ends with this name. -/
theorem getLast?_joinPath {name : String} (plain : PlainName name) (path : String) :
    joinPath path name ≠ "" ∧ (joinPath path name).toList.getLast? ≠ some '/' := by
  have nonempty : name.toList ≠ [] := by simpa using plain.named
  constructor
  · intro none
    have empty : pathFront path ++ name.toList = [] := by rw [← toList_joinPath, none]; rfl
    exact nonempty (List.append_eq_nil_iff.1 empty).2
  · rw [toList_joinPath, List.getLast?_append_of_ne_nil _ nonempty]
    exact fun last => plain.noSlash (List.mem_of_getLast? last)

/-- Along plain names a path grows by a slash and a name each time. -/
theorem toList_pathAlong_cons {name : String} {names : List String} (plain : PlainName name)
    (rest : ∀ n ∈ names, PlainName n) (path : String) :
    (pathAlong path (name :: names)).toList = pathFront path ++ (name.toList ++ slashed names) := by
  induction names generalizing path name with
  | nil =>
    show (joinPath path name).toList = _
    rw [toList_joinPath, slashed, List.flatMap_nil, List.append_nil]
  | cons next names ih =>
    obtain ⟨plainNext, rest⟩ := List.forall_mem_cons.1 rest
    -- a name does not end in a slash, so the next one is set off by one
    obtain ⟨nonempty, last⟩ := getLast?_joinPath plain path
    refine (ih plainNext rest (joinPath path name)).trans ?_
    rw [pathFront_of_getLast? nonempty last, toList_joinPath]
    simp [slashed]

/-- What stands between the slashes can be read off. -/
theorem slashed_inj {names others : List String} (plain : ∀ n ∈ names, PlainName n)
    (plain' : ∀ n ∈ others, PlainName n) (same : slashed names = slashed others) :
    names = others := by
  -- up to the next slash stands the first name
  have word : ∀ {name : String}, PlainName name → ∀ rest : List String,
      (name.toList ++ slashed rest).takeWhile (· ≠ '/') = name.toList := by
    intro name plain rest
    have letters : ∀ c ∈ name.toList, decide (c ≠ '/') = true := by
      intro c hc
      exact decide_eq_true fun slash => plain.noSlash (slash ▸ hc)
    have stop : (slashed rest).takeWhile (fun c => decide (c ≠ '/')) = [] := by
      cases rest <;> simp [slashed]
    rw [List.takeWhile_append_of_pos letters, stop, List.append_nil]
  induction names generalizing others with
  | nil =>
    cases others with
    | nil => rfl
    | cons n others => cases same
  | cons name names ih =>
    cases others with
    | nil => cases same
    | cons other others =>
      obtain ⟨p, plain⟩ := List.forall_mem_cons.1 plain
      obtain ⟨p', plain'⟩ := List.forall_mem_cons.1 plain'
      have tail : name.toList ++ slashed names = other.toList ++ slashed others :=
        (List.cons.inj same).2
      -- so both first names are the same, and so is what stands behind them
      have first := congrArg (List.takeWhile (· ≠ '/')) tail
      rw [word p, word p'] at first
      rw [first, List.append_cancel_left_eq] at tail
      rw [String.toList_inj.1 first, ih plain plain' tail]

/-- Different names make different paths. -/
theorem pathAlong_inj {names others : List String} (plain : ∀ n ∈ names, PlainName n)
    (plain' : ∀ n ∈ others, PlainName n) {path : String}
    (same : pathAlong path names = pathAlong path others) : names = others := by
  -- a path with names behind it is longer than without
  have longer : ∀ {name : String} {rest : List String}, (∀ n ∈ name :: rest, PlainName n) →
      pathAlong path (name :: rest) ≠ path := by
    intro name rest plain same
    obtain ⟨p, plain⟩ := List.forall_mem_cons.1 plain
    have nonempty : name.toList.length ≠ 0 := by simpa using p.named
    have text := congrArg (fun s : String => s.toList.length) same
    simp only [toList_pathAlong_cons p plain, List.length_append] at text
    have kept : path.toList.length ≤ (pathFront path).length := by
      unfold pathFront
      split <;> simp
    omega
  cases names with
  | nil =>
    cases others with
    | nil => rfl
    | cons other others => exact absurd same.symm (longer plain')
  | cons name names =>
    cases others with
    | nil => exact absurd same (longer plain)
    | cons other others =>
      obtain ⟨p, rest⟩ := List.forall_mem_cons.1 plain
      obtain ⟨p', rest'⟩ := List.forall_mem_cons.1 plain'
      have text := congrArg String.toList same
      rw [toList_pathAlong_cons p rest, toList_pathAlong_cons p' rest',
        List.append_cancel_left_eq] at text
      exact slashed_inj plain plain' (congrArg (List.cons '/') text)

/-- A walk through a plain tree visits nothing twice. -/
theorem FileTree.nodup_walk {t : FileTree} (plain : t.Plain) (path : String) :
    ((t.walk path).map Prod.fst).Nodup := by
  induction t using induct generalizing path with
  | onFile text => simp [walk]
  | onDirectory entries ih =>
    -- whatever is visited in the directory lies behind the name of something in it
    have behind : ∀ e ∈ entries, ∀ p ∈ (e.2.walk (joinPath path e.1)).map Prod.fst,
        ∃ names, (∀ n ∈ e.1 :: names, PlainName n) ∧ p = pathAlong path (e.1 :: names) := by
      intro e mem p hp
      obtain ⟨⟨_, u⟩, visited, rfl⟩ := List.mem_map.1 hp
      obtain ⟨names, leads, rfl⟩ := mem_walk_iff.1 visited
      exact ⟨names, (plain.of_leads (.inside mem leads)).2, rfl⟩
    cases plain with
    | directory apart plainNames inside =>
      rw [walk, walkAll_eq, List.map_cons, List.map_flatMap, List.nodup_cons, List.nodup_flatMap]
      refine ⟨fun again => ?_, fun e mem => ih e mem (inside e mem) _, ?_⟩
      · obtain ⟨e, mem, hp⟩ := List.mem_flatMap.1 again
        obtain ⟨names, plain, same⟩ := behind e mem _ hp
        exact absurd (pathAlong_inj (List.forall_mem_nil _) plain same) (List.cons_ne_nil _ _).symm
      · refine ((List.pairwise_map.1 apart).imp_of_mem fun {a b} ha hb other => ?_)
        intro p hp hp'
        obtain ⟨names, plain, rfl⟩ := behind a ha p hp
        obtain ⟨names', plain', same⟩ := behind b hb _ hp'
        exact other (List.cons.inj (pathAlong_inj plain plain' same)).1

/-! ### The names of a path -/

/-- A slash ends a name: in front of it the names are those of the front, the one that has been
    begun included, and behind it they begin anew. -/
theorem namesOf_go_append (name l r : List Char) :
    namesOf.go name (l ++ '/' :: r) = namesOf.go name l ++ namesOf.go [] r := by
  induction l generalizing name with
  | nil => simp [namesOf.go]
  | cons c l ih =>
    rw [List.cons_append, namesOf.go, namesOf.go]
    split
    · rw [ih, List.cons_append]
    · rw [ih]

/-- Without a slash there is one name: what has been begun of it, and the rest. -/
theorem namesOf_go_of_noSlash {l : List Char} (h : '/' ∉ l) (name : List Char) :
    namesOf.go name l = [String.ofList (name.reverse ++ l)] := by
  induction l generalizing name with
  | nil => rw [namesOf.go, List.append_nil]
  | cons c l ih =>
    rw [List.mem_cons, not_or] at h
    rw [namesOf.go, if_neg (Ne.symm h.1), ih h.2]
    simp

/-- A name behind a slash is one more name. -/
theorem namesOf_append {name : String} (h : '/' ∉ name.toList) (l : List Char) :
    namesOf (String.ofList (l ++ '/' :: name.toList)) = namesOf (String.ofList l) ++ [name] := by
  simp [namesOf, namesOf_go_append, namesOf_go_of_noSlash h]

/-- A text without a slash is a name. -/
theorem namesOf_of_noSlash {name : String} (h : '/' ∉ name.toList) : namesOf name = [name] := by
  simp [namesOf, namesOf_go_of_noSlash h]

namespace FileTree

/-- Goes on by one name; an empty name stays at a directory. -/
def child? (name : String) : FileTree → Option FileTree
  | file _ => none
  | directory entries => if name = "" then some (directory entries) else entries.lookup name

/-- From a directory a path goes on by its first name: it stays for an empty name or a dot, goes
    back for two dots, and goes on into an entry for any other name. -/
theorem follow_directory (parents : List FileTree) (entries : List (String × FileTree))
    (name : String) (names : List String) :
    (directory entries).follow parents (name :: names) =
      if name = "" ∨ name = "." then (directory entries).follow parents names
      else if name = ".." then
        match parents with
        | [] => none
        | p :: ps => p.follow ps names
      else
        match entries.lookup name with
        | none => none
        | some t => t.follow (directory entries :: parents) names := by
  cases parents <;> rfl

/-- Whoever follows one name more goes on by this name from where the others lead. -/
theorem follow_concat {name : String} (notHere : name ≠ ".") (notUp : name ≠ "..")
    (parents : List FileTree) (t : FileTree) (names : List String) :
    t.follow parents (names ++ [name]) = (t.follow parents names).bind (child? name) := by
  induction names generalizing parents t with
  | nil =>
    cases t with
    | file text => rfl
    | directory entries =>
      rw [List.nil_append, follow_directory]
      -- the empty name stays where it is, any other leads to an entry
      by_cases stays : name = ""
      · simp [follow, child?, stays]
      · rw [if_neg (by simp [stays, notHere]), if_neg notUp]
        cases found : entries.lookup name <;> simp [follow, child?, stays, found]
  | cons n names ih =>
    cases t with
    | file text => rfl
    | directory entries =>
      rw [List.cons_append, follow_directory, follow_directory]
      -- the first name stays here, goes up or goes down; the last one is the same
      split
      · exact ih parents _
      · split
        · cases parents with
          | nil => rfl
          | cons p ps => exact ih ps p
        · cases entries.lookup n with
          | none => rfl
          | some t => exact ih _ t

/-- An empty name leads nowhere else. -/
theorem eq_of_child?_empty {t u : FileTree} (h : t.child? "" = some u) : t = u := by
  cases t with
  | file text => cases h
  | directory entries => exact Option.some.inj h

/-- Where no name stands twice, an entry is found under its name. -/
theorem lookup_of_mem {entries : List (String × FileTree)} (apart : (entries.map Prod.fst).Nodup)
    {name : String} {t : FileTree} (mem : (name, t) ∈ entries) : entries.lookup name = some t := by
  induction entries with
  | nil => cases mem
  | cons e rest ih =>
    obtain ⟨first, u⟩ := e
    rw [List.map_cons, List.nodup_cons] at apart
    rcases List.mem_cons.1 mem with same | later
    · obtain ⟨rfl, rfl⟩ := Prod.mk.inj same
      exact List.lookup_cons_self
    · -- no two entries have one name
      have other : name ≠ first := by
        rintro rfl
        exact apart.1 (List.mem_map.2 ⟨_, later, rfl⟩)
      rw [List.lookup_cons, beq_false_of_ne other, ih apart.2 later]

/-- What is found under a name is an entry with this name. -/
theorem mem_of_lookup {entries : List (String × FileTree)} {name : String} {t : FileTree}
    (h : entries.lookup name = some t) : (name, t) ∈ entries := by
  obtain ⟨front, behind, rfl, -⟩ := List.lookup_eq_some_iff.1 h
  exact List.mem_append_right front List.mem_cons_self

/-- Nothing but plain trees is come upon in a plain tree. -/
theorem Plain.of_follow {t u : FileTree} {parents : List FileTree} {names : List String}
    (plain : t.Plain) (above : ∀ p ∈ parents, p.Plain) (h : t.follow parents names = some u) :
    u.Plain := by
  induction names generalizing t parents with
  | nil => exact Option.some.inj h ▸ plain
  | cons n names ih =>
    cases t with
    | file text => cases h
    | directory entries =>
      rw [follow_directory] at h
      split at h
      · exact ih plain above h
      · split at h
        · cases parents with
          | nil => cases h
          | cons p ps =>
            -- going up leads to a directory that was passed before
            obtain ⟨here, above⟩ := List.forall_mem_cons.1 above
            exact ih here above h
        · cases found : entries.lookup n with
          | none =>
            rw [found] at h
            cases h
          | some child =>
            rw [found] at h
            -- going down leads to an entry, and the directory is one to come back to
            have inside : child.Plain := by
              cases plain with
              | directory _ _ inside => exact inside _ (mem_of_lookup found)
            exact ih inside (List.forall_mem_cons.2 ⟨plain, above⟩) h

end FileTree

/-! ### What is found under a path -/

/-- What holds of every file system: its tree is plain, and its base is an absolute path with a name
    at the end.  The top of all files has the empty base. -/
structure FileSystem.Proper (fs : FileSystem) : Prop where
  plain : fs.tree.Plain
  absolute : fs.base = "" ∨ fs.base.toList.head? = some '/'
  named : fs.base.toList.getLast? ≠ some '/'

namespace FileSystem

/-- A path tells which names are to be followed from the top of the tree: those behind the base, or
    all of them when it does not start at the top of all files. -/
inductive Route (fs : FileSystem) : List Char → List String → Prop
  | base : Route fs fs.base.toList []
  | absolute (rest : List Char) :
    Route fs (fs.base.toList ++ '/' :: rest) (namesOf (String.ofList rest))
  | relative {path : List Char} (nonempty : path ≠ []) (start : path.head? ≠ some '/') :
    Route fs path (namesOf (String.ofList path))

/-- One more name behind a slash is to be followed in the end. -/
theorem Route.append {fs : FileSystem} {path : List Char} {names : List String}
    (route : fs.Route path names) {name : String} (plain : '/' ∉ name.toList) :
    fs.Route (path ++ '/' :: name.toList) (names ++ [name]) := by
  cases route with
  | base =>
    have last : fs.Route (fs.base.toList ++ '/' :: name.toList) _ := .absolute name.toList
    rwa [String.ofList_toList, namesOf_of_noSlash plain] at last
  | absolute rest =>
    -- a name at the end of the text is a name at the end of the list
    rw [List.append_assoc, List.cons_append, ← namesOf_append plain]
    exact .absolute _
  | relative nonempty start =>
    rw [← namesOf_append plain]
    refine .relative (by simp) ?_
    rwa [List.head?_append_of_ne_nil _ nonempty]

/-- A slash at the end is an empty name. -/
theorem Route.dropSlash {fs : FileSystem} (proper : fs.Proper) {path : List Char}
    {names : List String} (route : fs.Route (path ++ ['/']) names) :
    ∃ init, fs.Route path init ∧ names = init ++ [""] := by
  have noSlash : '/' ∉ "".toList := nofun
  generalize whole : path ++ ['/'] = text at route
  cases route with
  | base =>
    -- the base does not end in a slash
    refine absurd ?_ proper.named
    rw [← whole, List.getLast?_concat]
  | absolute rest =>
    cases rest using List.reverseRecOn with
    | nil =>
      obtain ⟨rfl, -⟩ := List.append_inj' whole rfl
      exact ⟨[], .base, namesOf_of_noSlash noSlash⟩
    | append_singleton rest last =>
      rw [← List.cons_append, ← List.append_assoc] at whole
      obtain ⟨rfl, same⟩ := List.append_inj' whole rfl
      obtain rfl := (List.cons.inj same).1
      exact ⟨_, .absolute rest, namesOf_append noSlash rest⟩
  | relative nonempty start =>
    subst whole
    -- a relative path does not begin with a slash, so more is left than that
    have begun : path ≠ [] := by
      rintro rfl
      exact start rfl
    rw [List.head?_append_of_ne_nil _ begun] at start
    exact ⟨_, .relative begun start, namesOf_append noSlash path⟩

/-- What is found under a path is what its names lead to. -/
theorem find?_eq_some_iff {fs : FileSystem} (proper : fs.Proper) {path : String} {t : FileTree} :
    fs.find? path = some t ↔
      path ≠ "" ∧ ∃ names, fs.Route path.toList names ∧ fs.tree.follow [] names = some t := by
  have starts : path.startsWith "/" = true ↔ path.toList.head? = some '/' := by
    rw [String.startsWith_string_iff, ← List.singleton_prefix_iff_head?_eq_some]
    rfl
  by_cases empty : path = ""
  · simp [find?, empty]
  have begun : path.toList ≠ [] := by simpa using empty
  have below : ∀ rest, fs.base.toList.isPrefixOf (fs.base.toList ++ rest) = true :=
    fun rest => List.isPrefixOf_iff_prefix.2 (List.prefix_append _ rest)
  simp only [find?, String.isEmpty_eq_false_iff.2 empty, starts, empty, ne_eq, not_false_eq_true,
    true_and, Bool.false_eq_true, if_false]
  obtain ⟨text, rfl⟩ : ∃ text, path = String.ofList text := ⟨path.toList, by simp⟩
  rw [← String.length_toList]
  rw [String.toList_ofList] at begun ⊢
  constructor
  · intro found
    split at found
    · next inside behind =>
      obtain ⟨rest, rfl⟩ := List.isPrefixOf_iff_prefix.1 inside
      rw [List.drop_left] at behind
      rw [behind, List.append_nil]
      exact ⟨[], .base, found⟩
    · next rest inside behind =>
      obtain ⟨rest, rfl⟩ := List.isPrefixOf_iff_prefix.1 inside
      rw [List.drop_left] at behind
      rw [behind]
      exact ⟨_, .absolute _, found⟩
    · split at found
      · cases found
      · next start => exact ⟨_, .relative begun start, found⟩
  · rintro ⟨names, route, led⟩
    cases route with
    | base =>
      have inside := below []
      rw [List.append_nil] at inside
      rw [inside, List.drop_length]
      exact led
    | absolute rest =>
      rw [below, List.drop_left]
      exact led
    | relative _ start =>
      rw [if_neg start]
      rcases proper.absolute with top | slash
      · obtain ⟨c, rest, rfl⟩ := List.exists_cons_of_ne_nil begun
        rw [top]
        split
        · next none => cases none
        · next same =>
          exact absurd (congrArg List.head? same) start
        · exact led
      · -- the path does not begin with a slash, as the base does
        have outside : fs.base.toList.isPrefixOf text = false := by
          rw [← Bool.not_eq_true, List.isPrefixOf_iff_prefix]
          rintro ⟨rest, rfl⟩
          refine start ?_
          rw [List.head?_append, slash]
          rfl
        rw [outside]
        exact led

/-- Only plain trees are found. -/
theorem plain_of_find? {fs : FileSystem} (proper : fs.Proper) {path : String} {t : FileTree}
    (found : fs.find? path = some t) : t.Plain := by
  obtain ⟨-, names, -, led⟩ := (find?_eq_some_iff proper).1 found
  exact proper.plain.of_follow (List.forall_mem_nil _) led

/-- Under a path that is one name longer, just what the directory has under this name is found. -/
theorem find?_joinPath {fs : FileSystem} (proper : fs.Proper) {path name : String} {t u : FileTree}
    (plain : PlainName name) (found : fs.find? path = some t) (child : t.child? name = some u) :
    fs.find? (joinPath path name) = some u := by
  obtain ⟨nonempty, names, route, led⟩ := (find?_eq_some_iff proper).1 found
  refine (find?_eq_some_iff proper).2 ⟨(getLast?_joinPath plain path).1, ?_⟩
  rw [toList_joinPath]
  by_cases slash : path.toList.getLast? = some '/'
  · -- the slash at the end only stays at the directory, and the name takes its place
    obtain ⟨init, whole⟩ := List.getLast?_eq_some_iff.1 slash
    rw [whole] at route
    obtain ⟨before, shorter, rfl⟩ := route.dropSlash proper
    rw [FileTree.follow_concat (by decide) (by decide)] at led
    obtain ⟨t', above, stays⟩ := Option.bind_eq_some_iff.1 led
    obtain rfl : t' = t := FileTree.eq_of_child?_empty stays
    refine ⟨before ++ [name], ?_, ?_⟩
    · rw [pathFront, (endsWith_slash_iff path).2 slash, Bool.or_true, if_pos rfl, whole,
        List.append_assoc]
      exact shorter.append plain.noSlash
    · rw [FileTree.follow_concat plain.notHere plain.notUp, above]
      exact child
  · refine ⟨names ++ [name], ?_, ?_⟩
    · rw [pathFront_of_getLast? nonempty slash, List.append_assoc]
      exact route.append plain.noSlash
    · rw [FileTree.follow_concat plain.notHere plain.notUp, led]
      exact child

/-- What names lead to from what is found under a path is found under the path that they make. -/
theorem find?_pathAlong {fs : FileSystem} (proper : fs.Proper) {path : String} {t u : FileTree}
    {names : List String} (found : fs.find? path = some t) (leads : t.Leads names u) :
    fs.find? (pathAlong path names) = some u := by
  have plain : t.Plain := plain_of_find? proper found
  -- induction on the way down, with the path so far in front
  induction leads generalizing path with
  | here => exact found
  | @inside entries name child u names mem further ih =>
    cases plain with
    | directory apart plainNames inside =>
      have named : PlainName name := plainNames _ mem
      have next : (FileTree.directory entries).child? name = some child := by
        rw [FileTree.child?, if_neg named.named, FileTree.lookup_of_mem apart mem]
      exact ih (find?_joinPath proper named found next) (inside _ mem)

end FileSystem

end OnScreen
