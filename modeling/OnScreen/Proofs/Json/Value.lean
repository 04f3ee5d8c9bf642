import OnScreen.Proofs.Json.Number
import OnScreen.Proofs.Json.Text

namespace OnScreen.Json

/-!
# Written lists and maps are taken apart again

Items are written with commas between them.  A reader of lists or maps that stands in front of an
item finds its way to it, reads it, and stands behind it, in front of a comma or of the closing
bracket; so it goes through all of them and stops behind the bracket.

* `joined` — written items, as a reader of them meets them on its way.
* `readItems_joined`, `readMembers_joined` — a reader takes such items apart.
* `IsScalar` — the text of a value that is not in brackets.
* `readValue_of_isScalar`, `readValue_array`, `readValue_object` — values that are read back.
-/

/-! ### Parts -/

/-- The text begins with something that can begin an item of a list. -/
def BeginsItem (t : List Char) : Prop := ∃ c cs, t = c :: cs ∧ isSpace c = false ∧ c ≠ ']'

/-- A text that begins an item is not empty. -/
theorem BeginsItem.ne_nil {t : List Char} (h : BeginsItem t) : t ≠ [] := by
  obtain ⟨c, cs, rfl, -⟩ := h
  exact List.cons_ne_nil c cs

theorem skipSpace_cons {c : Char} (h : isSpace c = false) (cs : List Char) :
    skipSpace (c :: cs) = c :: cs := by
  rw [skipSpace, List.dropWhile_cons_of_neg (by simp [h])]

/-- A sign that is expected is read where it stands, since no space is skipped in front of it. -/
theorem expectSign_cons (sign : Char) (h : isSpace sign = false) (rest : List Char) :
    expectSign sign (sign :: rest) = .ok rest := by
  simp only [expectSign, skipSpace_cons h, if_true]

/-- Written items with commas between them, and one in front unless the first of all is among
    them. -/
def joined : (isFirst : Bool) → List (List Char) → List Char
  | _, [] => []
  | true, t :: ts => t ++ joined false ts
  | false, t :: ts => ',' :: t ++ joined false ts

@[simp] theorem joined_nil (isFirst : Bool) : joined isFirst [] = [] := by
  cases isFirst <;> rfl

/-- The writer's commas are those the reader looks for. -/
theorem commaSeparated_eq_joined (ts : List (List Char)) : commaSeparated ts = joined true ts := by
  induction ts with
  | nil => rfl
  | cons t ts ih =>
    cases ts with
    | nil => exact (List.append_nil t).symm
    | cons u us =>
      show t ++ ',' :: commaSeparated (u :: us) = _
      rw [ih]
      rfl

/-- Behind an item there is a comma or the closing bracket. -/
theorem endsValue_joined {c : Char} (h : c = ']' ∨ c = '}') (ts : List (List Char))
    (rest : List Char) : EndsValue (joined false ts ++ c :: rest) := by
  cases ts with
  | nil => exact endsValue_cons (.inr h) rest
  | cons t ts => exact endsValue_cons (.inl rfl) _

/-- Each item takes at least one character. So the characters left are fuel enough for the items
    left. -/
theorem length_le_joined (isFirst : Bool) {ts : List (List Char)} (h : ∀ t ∈ ts, t ≠ []) :
    ts.length ≤ (joined isFirst ts).length := by
  induction ts generalizing isFirst with
  | nil => exact Nat.zero_le _
  | cons t ts ih =>
    have others := ih false fun u hu => h u (List.mem_cons_of_mem t hu)
    have first := List.length_pos_iff.2 (h t List.mem_cons_self)
    -- a comma in front only makes it longer
    cases isFirst with
    | true =>
      simp only [joined, List.length_cons, List.length_append]
      omega
    | false =>
      simp only [joined, List.length_cons, List.cons_append, List.length_append]
      omega

/-- There are no more items than characters, so a reader with a step for each character has enough
    of them. -/
theorem enough_steps {ι : Type} {xs : List ι} {text : ι → List Char} (h : ∀ x ∈ xs, text x ≠ [])
    (isFirst : Bool) (rest : List Char) :
    xs.length < (joined isFirst (xs.map text) ++ rest).length + 1 := by
  have written : ∀ t ∈ xs.map text, t ≠ [] := by
    intro t ht
    obtain ⟨x, hx, rfl⟩ := List.mem_map.1 ht
    exact h x hx
  have fewer := length_le_joined isFirst written
  rw [List.length_map] at fewer
  rw [List.length_append]
  omega

/-! ### Lists -/

/-- From in front of an item, a reader goes on to the item. -/
theorem nextItem_joined (isFirst : Bool) {t : List Char} (h : BeginsItem t) (ts : List (List Char))
    (rest : List Char) :
    nextItem isFirst (joined isFirst (t :: ts) ++ rest) =
      .ok (some (t ++ (joined false ts ++ rest))) := by
  obtain ⟨c, cs, rfl, space, other⟩ := h
  cases isFirst with
  | true => simp [joined, nextItem, skipSpace_cons space, other]
  | false =>
    have comma : isSpace ',' = false := rfl
    simp [joined, nextItem, skipSpace_cons comma, skipSpace_cons space, other]

/-- The items end at the closing bracket. -/
theorem nextItem_end (isFirst : Bool) (rest : List Char) :
    nextItem isFirst (']' :: rest) = .ok none := by
  simp [nextItem, skipSpace_cons (c := ']') rfl]

/-- Items that are read back one by one are read back as a list. -/
theorem readItems_joined {ι α : Type} {item : List Char → Attempt (α × List Char)}
    {text : ι → List Char} {value : ι → α} {xs : List ι}
    (begins : ∀ x ∈ xs, BeginsItem (text x))
    (reads : ∀ x ∈ xs, ∀ rest, EndsValue rest → item (text x ++ rest) = .ok (value x, rest))
    {fuel : Nat} (enough : xs.length < fuel) (isFirst : Bool) (rest : List Char) :
    readItems item fuel isFirst (joined isFirst (xs.map text) ++ ']' :: rest) =
      .ok (xs.map value, rest) := by
  -- the induction is over the items that are left, and each of them takes one step
  induction xs generalizing fuel isFirst with
  | nil =>
    obtain ⟨fuel, rfl⟩ := Nat.exists_eq_add_of_lt enough
    simp [readItems, nextItem_end, expectSign_cons ']' rfl, bind, Except.bind]
  | cons x xs ih =>
    obtain ⟨fuel, rfl⟩ := Nat.exists_eq_add_one.2 (Nat.zero_lt_of_lt enough)
    have first := reads x List.mem_cons_self _ (endsValue_joined (.inl rfl) (xs.map text) rest)
    have others := ih (fun y hy => begins y (List.mem_cons_of_mem x hy))
      (fun y hy => reads y (List.mem_cons_of_mem x hy)) (Nat.lt_of_succ_lt_succ enough) false
    simp only [readItems, List.map_cons, nextItem_joined isFirst (begins x List.mem_cons_self),
      bind, Except.bind, first, others]

/-! ### Maps -/

/-- The written form of a member. -/
def memberText (key : String) (t : List Char) : List Char := writeString key.toList ++ ':' :: t

theorem memberText_ne_nil (key : String) (t : List Char) : memberText key t ≠ [] := by
  simp [memberText, writeString]

/-- From in front of a member, a reader goes on to behind the opening quote of its key. -/
theorem nextKey_joined (isFirst : Bool) (key : String) (t : List Char) (ts : List (List Char))
    (rest : List Char) :
    nextKey isFirst (joined isFirst (memberText key t :: ts) ++ rest) =
      .ok (some (key.toList.flatMap escape ++ '"' :: ':' :: (t ++ (joined false ts ++ rest)))) := by
  have quote : isSpace '"' = false := rfl
  cases isFirst with
  | true => simp [joined, memberText, writeString, nextKey, skipSpace_cons quote]
  | false =>
    have comma : isSpace ',' = false := rfl
    simp [joined, memberText, writeString, nextKey, skipSpace_cons comma, skipSpace_cons quote]

/-- The members end at the closing brace. -/
theorem nextKey_end (isFirst : Bool) (rest : List Char) :
    nextKey isFirst ('}' :: rest) = .ok none := by
  simp [nextKey, skipSpace_cons (c := '}') rfl]

/-- Members whose values are read back one by one are read back as a map. -/
theorem readMembers_joined {ι α : Type} {item : List Char → Attempt (α × List Char)}
    {key : ι → String} {text : ι → List Char} {value : ι → α} {xs : List ι}
    (reads : ∀ x ∈ xs, ∀ rest, EndsValue rest → item (text x ++ rest) = .ok (value x, rest))
    {fuel : Nat} (enough : xs.length < fuel) (isFirst : Bool) (rest : List Char) :
    readMembers item fuel isFirst
        (joined isFirst (xs.map fun x => memberText (key x) (text x)) ++ '}' :: rest) =
      .ok (xs.map fun x => (key x, value x), rest) := by
  induction xs generalizing fuel isFirst with
  | nil =>
    obtain ⟨fuel, rfl⟩ := Nat.exists_eq_add_of_lt enough
    simp [readMembers, nextKey_end, expectSign_cons '}' rfl, bind, Except.bind]
  | cons x xs ih =>
    obtain ⟨fuel, rfl⟩ := Nat.exists_eq_add_one.2 (Nat.zero_lt_of_lt enough)
    -- behind the member there is a comma or the closing brace
    have first := reads x List.mem_cons_self _
      (endsValue_joined (.inr rfl) (xs.map fun x => memberText (key x) (text x)) rest)
    have others := ih (fun y hy => reads y (List.mem_cons_of_mem x hy))
      (Nat.lt_of_succ_lt_succ enough) false
    simp only [readMembers, List.map_cons, nextKey_joined, readText_escaped,
      expectSign_cons ':' rfl, bind, Except.bind, first, others]

/-! ### Values that are not in brackets -/

/-- The text of a value that is not in brackets. -/
def IsScalar (t : List Char) (v : Value) : Prop :=
  ∃ c cs, t = c :: cs ∧ isSpace c = false ∧ c ≠ '[' ∧ c ≠ ']' ∧ c ≠ '{' ∧
    ∀ rest, EndsValue rest → readScalar c (cs ++ rest) = .ok (v, rest)

/-- A scalar begins an item. -/
theorem IsScalar.beginsItem {t : List Char} {v : Value} (h : IsScalar t v) : BeginsItem t := by
  obtain ⟨c, cs, rfl, space, -, other, -⟩ := h
  exact ⟨c, cs, rfl, space, other⟩

/-- A written text is the scalar of this text. -/
theorem isScalar_string (s : String) : IsScalar (writeString s.toList) (.string s) := by
  refine ⟨'"', s.toList.flatMap escape ++ ['"'], rfl, rfl, by decide, by decide, by decide,
    fun rest _ => ?_⟩
  rw [readScalar, if_pos rfl, List.append_assoc, List.singleton_append, readText_escaped]
  rfl

theorem isScalar_null : IsScalar ['n', 'u', 'l', 'l'] .null :=
  ⟨'n', _, rfl, rfl, by decide, by decide, by decide, fun _ _ => rfl⟩

/-- A written truth value is the scalar of it. -/
theorem isScalar_boolean (b : Bool) : IsScalar (toString b).toList (.boolean b) := by
  cases b with
  | true =>
    exact ⟨'t', ['r', 'u', 'e'], rfl, rfl, by decide, by decide, by decide, fun _ _ => rfl⟩
  | false =>
    exact ⟨'f', ['a', 'l', 's', 'e'], rfl, rfl, by decide, by decide, by decide, fun _ _ => rfl⟩

/-- A minus or a digit begins nothing but a number. -/
theorem readScalar_of_number {c : Char} (h : c = '-' ∨ c.isDigit = true) (rest : List Char) :
    isSpace c = false ∧ c ≠ '[' ∧ c ≠ ']' ∧ c ≠ '{' ∧ c ≠ 'n' ∧
      readScalar c rest = (readNumber (c :: rest)).map fun (n, rest) => (.number n, rest) := by
  have number : c = '-' ∨ (Text.decimalValue? c).isSome := by
    refine h.imp_right fun digit => ?_
    rw [decimalValue?_of_isDigit digit]
    rfl
  -- no character of the other kinds is a minus or a digit
  have other : ∀ d : Char, d ≠ '-' → d.isDigit = false → c ≠ d := by
    rintro d minus digit rfl
    simp [minus, digit] at h
  refine ⟨?_, other _ (by decide) rfl, other _ (by decide) rfl, other _ (by decide) rfl,
    other _ (by decide) rfl, ?_⟩
  · simp [isSpace, other ' ' (by decide) rfl, other '\t' (by decide) rfl,
      other '\n' (by decide) rfl, other '\r' (by decide) rfl]
  · rw [readScalar, if_neg (other '"' (by decide) rfl), if_neg (other 'n' (by decide) rfl),
      if_neg (other 't' (by decide) rfl), if_neg (other 'f' (by decide) rfl), if_pos number]

/-- A written number is the scalar of it, if it is a word or a signed word. -/
theorem isScalar_whole {n : Int} (least : -signedLimit ≤ n) (most : n < wordLimit) :
    IsScalar (writeWhole n) (.number (.whole n)) := by
  obtain ⟨c, cs, text, begins⟩ := exists_writeWhole_eq_cons n
  obtain ⟨space, list, list', map, -, -⟩ := readScalar_of_number begins []
  refine ⟨c, cs, text, space, list, list', map, fun rest ends => ?_⟩
  -- what stands behind the number matters only now
  obtain ⟨-, -, -, -, -, scalar⟩ := readScalar_of_number begins (cs ++ rest)
  rw [scalar, ← List.cons_append, ← text, readNumber_writeWhole least most ends]
  rfl

/-! ### Whole values -/

/-- A scalar is read as its value, however deep it stands. -/
theorem readValue_of_isScalar {t : List Char} {v : Value} (h : IsScalar t v) (room : Nat)
    {rest : List Char} (ends : EndsValue rest) : readValue room (t ++ rest) = .ok (v, rest) := by
  obtain ⟨c, cs, rfl, space, list, -, map, scalar⟩ := h
  rw [readValue.eq_def, List.cons_append, skipSpace_cons space]
  simp only [if_neg list, if_neg map]
  exact scalar rest ends

variable {ι : Type} {xs : List ι} {text : ι → List Char} {value : ι → Value} {room : Nat}

/-- An array of items that are read back is read back, with one level more. -/
theorem readValue_array (begins : ∀ x ∈ xs, BeginsItem (text x))
    (reads : ∀ x ∈ xs, ∀ rest, EndsValue rest →
      readValue room (text x ++ rest) = .ok (value x, rest)) (rest : List Char) :
    readValue (room + 1) ('[' :: (joined true (xs.map text) ++ ']' :: rest)) =
      .ok (.array (xs.map value), rest) := by
  have enough := enough_steps (fun x hx => (begins x hx).ne_nil) true (']' :: rest)
  rw [readValue.eq_def, skipSpace_cons rfl]
  simp only [if_true, readItems_joined begins reads enough]
  rfl

/-- An object of members that are read back is read back, with one level more. -/
theorem readValue_object {key : ι → String}
    (reads : ∀ x ∈ xs, ∀ rest, EndsValue rest →
      readValue room (text x ++ rest) = .ok (value x, rest)) (rest : List Char) :
    readValue (room + 1)
        ('{' :: (joined true (xs.map fun x => memberText (key x) (text x)) ++ '}' :: rest)) =
      .ok (.object (xs.map fun x => (key x, value x)), rest) := by
  have enough := enough_steps (fun x (_ : x ∈ xs) => memberText_ne_nil (key x) (text x)) true
    ('}' :: rest)
  rw [readValue.eq_def, skipSpace_cons rfl]
  simp only [readMembers_joined reads enough, if_true]
  rfl

end OnScreen.Json
