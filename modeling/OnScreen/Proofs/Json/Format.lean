import Mathlib.Data.List.Nodup
import Mathlib.Tactic.Choose
import OnScreen.Json.Format
import OnScreen.Proofs.Json.Value

namespace OnScreen.Json

/-!
# Formats read back what they write

A value round trips through a format when its text, with anything behind it that ends a value, is
read as the value again, and when the same holds of a reader that first takes the text for a JSON
value and asks for its meaning afterwards.  Compound values round trip because their parts do.

* `Format.RoundTrips` — the value round trips, given room for brackets of some depth.
* `Format.Stable` — everything that the format reads, however it was spelled, round trips.
* `Format.atom_roundTrips`, `map_roundTrips`, `optional_roundTrips`, `list_roundTrips`,
  `names_roundTrips`, and the same for `stable` — one pair for each way to build a format.
* `Format.RoundTrips.readAll`, `Format.Stable.readAll` — whole texts.
-/

/-! ### Chains of readers -/

section

universe u v w

variable {ε : Type u} {α : Type v} {β : Type w}

/-- A mapped computation that went well went well before. -/
theorem exists_of_map_eq_ok {x : Except ε α} {f : α → β} {b : β} (h : x.map f = .ok b) :
    ∃ a, x = .ok a ∧ f a = b := by
  cases x with
  | error e => cases h
  | ok a => exact ⟨a, rfl, Except.ok.inj h⟩

/-- A chain of two computations that went well is two that did. -/
theorem exists_of_bind_eq_ok {x : Except ε α} {f : α → Except ε β} {b : β}
    (h : x.bind f = .ok b) : ∃ a, x = .ok a ∧ f a = .ok b := by
  cases x with
  | error e => cases h
  | ok a => exact ⟨a, rfl, h⟩

/-- Taking mismatches for errors makes no value of them. -/
theorem eq_ok_of_settle {α : Type u} {x : Except Mismatch α} {a : α} (h : settle x = .ok a) :
    x = .ok a := by
  cases x with
  | error m => cases h
  | ok b => exact congrArg Except.ok (Except.ok.inj h)

end

/-- With room for `depth` brackets, the text is taken for a value. -/
def ReadsAs (depth : Nat) (t : List Char) (v : Value) : Prop :=
  ∀ ⦃room : Nat⦄ ⦃rest : List Char⦄, depth ≤ room → EndsValue rest →
    readValue room (t ++ rest) = .ok (v, rest)

namespace Format

variable {α β : Type}

/-- The value is read back, at once and by way of a JSON value, with room for `depth` brackets. -/
structure RoundTrips (f : Format α) (depth : Nat) (a : α) : Prop where
  begins : BeginsItem (f.write a)
  reads : ∀ ⦃room : Nat⦄ ⦃rest : List Char⦄, depth ≤ room → EndsValue rest →
    f.read room (f.write a ++ rest) = .ok (a, rest)
  buffered : ∃ v, f.decode v = .ok a ∧ ReadsAs depth (f.write a) v

/-- Everything that is read round trips. -/
structure Stable (f : Format α) (depth : Nat) : Prop where
  read : ∀ {room : Nat} {cs : List Char} {a : α} {rest : List Char},
    f.read room cs = .ok (a, rest) → f.RoundTrips depth a
  decode : ∀ {v : Value} {a : α}, f.decode v = .ok a → f.RoundTrips depth a

/-- More room does no harm. -/
theorem RoundTrips.mono {f : Format α} {depth deeper : Nat} {a : α} (h : f.RoundTrips depth a)
    (le : depth ≤ deeper) : f.RoundTrips deeper a where
  begins := h.begins
  reads _ _ enough ends := h.reads (Nat.le_trans le enough) ends
  buffered := by
    obtain ⟨v, meaning, reads⟩ := h.buffered
    exact ⟨v, meaning, fun _ _ enough ends => reads (Nat.le_trans le enough) ends⟩

/-- A format that is stable with some depth is stable with more. -/
theorem Stable.mono {f : Format α} {depth deeper : Nat} (h : f.Stable depth)
    (le : depth ≤ deeper) : f.Stable deeper where
  read done := (h.read done).mono le
  decode done := (h.decode done).mono le

/-- A format is stable if everything makes the round trip. -/
theorem stable_of_forall {f : Format α} {depth : Nat} (h : ∀ a, f.RoundTrips depth a) :
    f.Stable depth :=
  ⟨fun _ => h _, fun _ => h _⟩

/-! ### Whole texts -/

/-- What makes the round trip is read back as a whole text, if the parser's room is deep enough for
    it. -/
theorem RoundTrips.readAll {f : Format α} {depth : Nat} {a : α} (h : f.RoundTrips depth a)
    (room : depth ≤ fullRoom) : f.readAll (f.write a) = .ok a := by
  have reads := h.reads room endsValue_nil
  rw [List.append_nil] at reads
  rw [Format.readAll, reads]
  rfl

/-- What is read as a whole text is read at its beginning. -/
theorem exists_read_of_readAll {f : Format α} {cs : List Char} {a : α}
    (h : f.readAll cs = .ok a) : ∃ rest, f.read fullRoom cs = .ok (a, rest) := by
  obtain ⟨⟨b, rest⟩, reads, last⟩ := exists_of_bind_eq_ok h
  refine ⟨rest, ?_⟩
  simp only at last
  split at last
  · rw [← Except.ok.inj last]
    exact reads
  · cases last

/-- Whatever text was accepted, its value round trips. -/
theorem Stable.readAll {f : Format α} {depth : Nat} (h : f.Stable depth) {cs : List Char} {a : α}
    (accepted : f.readAll cs = .ok a) : f.RoundTrips depth a := by
  obtain ⟨rest, reads⟩ := exists_read_of_readAll accepted
  exact h.read reads

/-! ### The values of one type as values of another -/

/-- The round trip of a mapped format: the other format's, if going out and coming in again is the
    identity. -/
theorem map_roundTrips {f : Format α} {depth : Nat} {into : α → β} {outOf : β → α} {b : β}
    (h : f.RoundTrips depth (outOf b)) (same : into (outOf b) = b) :
    (f.map into outOf).RoundTrips depth b where
  begins := h.begins
  reads _ _ enough ends := by
    show ((f.read _ (f.write (outOf b) ++ _)).map _) = _
    rw [h.reads enough ends, ← same]
    simp only [Except.map, same]
  buffered := by
    obtain ⟨v, meaning, reads⟩ := h.buffered
    refine ⟨v, ?_, reads⟩
    show (f.decode v).map into = _
    rw [meaning, ← same]
    simp only [Except.map, same]

/-- A mapped format is stable if the other is, and going in and coming out again changes nothing
    that makes the round trip there. -/
theorem map_stable {f : Format α} {depth : Nat} (h : f.Stable depth) {into : α → β}
    {outOf : β → α} (same : ∀ a, f.RoundTrips depth a → outOf (into a) = a) :
    (f.map into outOf).Stable depth := by
  -- a value that was read round trips, so going there and back does not change it
  have back : ∀ a, f.RoundTrips depth a → (f.map into outOf).RoundTrips depth (into a) := by
    intro a roundTrips
    apply map_roundTrips
    · rwa [same a roundTrips]
    · rw [same a roundTrips]
  refine ⟨fun done => ?_, fun done => ?_⟩
  · obtain ⟨⟨a, tail⟩, reads, pair⟩ := exists_of_map_eq_ok done
    cases pair
    exact back a (h.read reads)
  · obtain ⟨a, meaning, rfl⟩ := exists_of_map_eq_ok done
    exact back a (h.decode meaning)

/-! ### Values without parts -/

/-- An atom is read from the scalar that is written for it. -/
theorem readAtom_of_isScalar {decode : Value → Except Mismatch α} {t : List Char} {v : Value}
    {a : α} (text : IsScalar t v) (meaning : decode v = .ok a) {rest : List Char}
    (ends : EndsValue rest) : readAtom decode (t ++ rest) = .ok (a, rest) := by
  obtain ⟨c, cs, rfl, space, list, -, map, scalar⟩ := text
  simp only [readAtom, List.cons_append, skipSpace_cons space, if_neg list, if_neg map,
    scalar rest ends, bind, Except.bind, meaning, settle]

/-- What is read as an atom is the meaning of some value. -/
theorem exists_of_readAtom {decode : Value → Except Mismatch α} {cs rest : List Char} {a : α}
    (h : readAtom decode cs = .ok (a, rest)) : ∃ v, decode v = .ok a := by
  have asked : ∀ v tail, ((settle (decode v)).bind fun a => .ok (a, tail)) =
      Except.ok (ε := ReadError) (a, rest) → ∃ v, decode v = .ok a := by
    intro v tail done
    obtain ⟨b, meaning, pair⟩ := exists_of_bind_eq_ok done
    cases pair
    exact ⟨v, eq_ok_of_settle meaning⟩
  unfold readAtom at h
  split at h
  · cases h
  -- a list or a map is read as a whole before its meaning is asked for
  · split_ifs at h
    · exact asked _ _ h
    · exact asked _ _ h
    · obtain ⟨⟨v, tail⟩, -, h⟩ := exists_of_bind_eq_ok h
      exact asked v tail h

/-- An atom makes the round trip if it is written as a scalar that decodes to it. -/
theorem atom_roundTrips {decode : Value → Except Mismatch α} {write : α → List Char} {a : α}
    {v : Value} (text : IsScalar (write a) v) (meaning : decode v = .ok a) :
    (atom decode write).RoundTrips 0 a where
  begins := text.beginsItem
  reads _ _ _ ends := readAtom_of_isScalar text meaning ends
  buffered := ⟨v, meaning, fun _ _ _ ends => readValue_of_isScalar text _ ends⟩

/-- An atom is stable if all that decodes makes the round trip. -/
theorem atom_stable {decode : Value → Except Mismatch α} {write : α → List Char}
    (h : ∀ v a, decode v = .ok a → (atom decode write).RoundTrips 0 a) :
    (atom decode write).Stable 0 where
  read done := by
    obtain ⟨v, meaning⟩ := exists_of_readAtom done
    exact h v _ meaning
  decode done := h _ _ done

theorem text_roundTrips (s : String) : text.RoundTrips 0 s :=
  atom_roundTrips (isScalar_string s) rfl

theorem text_stable : text.Stable 0 := stable_of_forall text_roundTrips

theorem flag_roundTrips (b : Bool) : flag.RoundTrips 0 b :=
  atom_roundTrips (isScalar_boolean b) rfl

theorem flag_stable : flag.Stable 0 := stable_of_forall flag_roundTrips

/-- The range holds nothing but words, with or without a sign. -/
def WholeRange.OfWords (range : WholeRange) : Prop :=
  -signedLimit ≤ range.least ∧ range.most < wordLimit

/-- A number within the range of its field makes the round trip. -/
theorem whole_roundTrips {range : WholeRange} (words : range.OfWords) {n : Int}
    (least : range.least ≤ n) (most : n ≤ range.most) : (whole range).RoundTrips 0 n :=
  atom_roundTrips (v := .number (.whole n))
    (isScalar_whole (Int.le_trans words.1 least) (Int.lt_of_le_of_lt most words.2))
    (if_pos ⟨least, most⟩)

/-- Only numbers of the range have a meaning. -/
theorem range_of_decode_whole {range : WholeRange} {v : Value} {n : Int}
    (h : (whole range).decode v = .ok n) : range.least ≤ n ∧ n ≤ range.most := by
  simp only [whole, atom] at h
  split at h
  · split at h
    · next inside =>
      cases h
      exact inside
    · cases h
  · cases h

/-- Only numbers of the range round trip. -/
theorem RoundTrips.range {range : WholeRange} {depth : Nat} {n : Int}
    (h : (whole range).RoundTrips depth n) : range.least ≤ n ∧ n ≤ range.most := by
  obtain ⟨v, meaning, -⟩ := h.buffered
  exact range_of_decode_whole meaning

/-- A number that was read is within the range of its field, so it makes the round trip. -/
theorem whole_stable {range : WholeRange} (words : range.OfWords) : (whole range).Stable 0 :=
  atom_stable fun v n meaning =>
    have inside := range_of_decode_whole (v := v) (n := n) meaning
    whole_roundTrips words inside.1 inside.2

/-- The range of a word has words in it only. -/
theorem ofWords_word (name : String) : (⟨name, 0, wordLimit - 1⟩ : WholeRange).OfWords := by
  constructor
  · show -(signedLimit : Int) ≤ 0
    decide
  · exact Int.sub_one_lt_of_le (Int.le_refl _)

/-- A word makes the round trip. -/
theorem word_roundTrips (name : String) {n : Nat} (h : n < wordLimit) :
    (word name).RoundTrips 0 n := by
  have least : (0 : Int) ≤ Int.ofNat n := Int.natCast_nonneg n
  have most : Int.ofNat n ≤ wordLimit - 1 := Int.le_sub_one_of_lt (Int.ofNat_lt.2 h)
  exact map_roundTrips (whole_roundTrips (ofWords_word name) least most) rfl

theorem word_stable (name : String) : (word name).Stable 0 :=
  map_stable (whole_stable (ofWords_word name)) fun _ h => Int.toNat_of_nonneg h.range.1

/-- Only words make the round trip as a word. -/
theorem RoundTrips.lt_wordLimit {name : String} {depth n : Nat}
    (h : (word name).RoundTrips depth n) : n < wordLimit := by
  obtain ⟨v, meaning, -⟩ := h.buffered
  obtain ⟨m, number, rfl⟩ := exists_of_map_eq_ok meaning
  have most : m ≤ wordLimit - 1 := (range_of_decode_whole number).2
  have positive : 0 < wordLimit := by decide
  omega

/-! ### Values that may be absent -/

/-- Neither the text nor the meaning of a value can be taken for that of an absent one. -/
structure NeverAbsent (f : Format α) : Prop where
  text : ∀ a cs, f.write a ≠ 'n' :: cs
  meaning : ∀ a, f.decode .null ≠ .ok a

/-- A number is never read from `null` or from nothing. -/
theorem whole_neverAbsent (range : WholeRange) : (whole range).NeverAbsent where
  text n cs same := by
    obtain ⟨c, tail, text, begins⟩ := exists_writeWhole_eq_cons n
    obtain ⟨-, -, -, -, other, -⟩ := readScalar_of_number begins []
    exact other (List.cons.inj (text.symm.trans same)).1
  meaning n done := by cases done

/-- A format that goes by another is absent when the other is. -/
theorem map_neverAbsent {f : Format α} (h : f.NeverAbsent) (into : α → β) (outOf : β → α) :
    (f.map into outOf).NeverAbsent where
  text b := h.text (outOf b)
  meaning b done := by
    obtain ⟨a, meaning, -⟩ := exists_of_map_eq_ok done
    exact h.meaning a meaning

/-- Nothing makes the round trip by way of `null`. -/
theorem optional_roundTrips_none (f : Format α) : (optional f).RoundTrips 0 none where
  begins := isScalar_null.beginsItem
  reads _ _ _ _ := rfl
  buffered := ⟨.null, rfl, fun _ _ _ ends => readValue_of_isScalar isScalar_null _ ends⟩

/-- What is present makes the round trip, if its format does not read `null` for itself. -/
theorem optional_roundTrips_some {f : Format α} (present : f.NeverAbsent) {depth : Nat} {a : α}
    (h : f.RoundTrips depth a) : (optional f).RoundTrips depth (some a) where
  begins := h.begins
  reads room rest enough ends := by
    obtain ⟨c, cs, text, space, -⟩ := h.begins
    -- the text is not taken for that of an absent value
    have other : c ≠ 'n' := fun same => present.text a cs (same ▸ text)
    have reads := h.reads enough ends
    show (optional f).read room (f.write a ++ rest) = _
    rw [text, List.cons_append] at reads ⊢
    simp only [optional, skipSpace_cons space]
    split
    · next same => exact absurd (List.cons.inj same).1 other
    · rw [reads]
      rfl
  buffered := by
    obtain ⟨v, meaning, reads⟩ := h.buffered
    refine ⟨v, ?_, reads⟩
    simp only [optional]
    split
    · exact absurd meaning (present.meaning a)
    · rw [meaning]
      rfl

/-- An optional format is stable if the format below is, and this one does not read `null`. -/
theorem optional_stable {f : Format α} (present : f.NeverAbsent) {depth : Nat}
    (h : f.Stable depth) :
    (optional f).Stable depth where
  read done := by
    simp only [optional] at done
    -- a `null` is read as nothing, all else by the format below
    split at done
    · obtain ⟨tail, -, pair⟩ := exists_of_map_eq_ok done
      cases pair
      exact (optional_roundTrips_none f).mono (Nat.zero_le _)
    · obtain ⟨⟨a, tail⟩, reads, pair⟩ := exists_of_map_eq_ok done
      cases pair
      exact optional_roundTrips_some present (h.read reads)
  decode done := by
    simp only [optional] at done
    split at done
    · cases done
      exact (optional_roundTrips_none f).mono (Nat.zero_le _)
    · obtain ⟨a, meaning, rfl⟩ := exists_of_map_eq_ok done
      exact optional_roundTrips_some present (h.decode meaning)

/-- What makes the round trip as something present makes it by the format below. -/
theorem RoundTrips.of_some {f : Format α} {depth deeper : Nat} (stable : f.Stable depth) {a : α}
    (h : (optional f).RoundTrips deeper (some a)) : f.RoundTrips depth a := by
  obtain ⟨v, meaning, -⟩ := h.buffered
  simp only [optional] at meaning
  split at meaning
  · cases meaning
  · obtain ⟨b, present, same⟩ := exists_of_map_eq_ok meaning
    cases same
    exact stable.decode present

/-! ### Lists -/

/-- A list is written as its items joined by commas, in brackets. -/
theorem list_write (f : Format α) (as : List α) (rest : List Char) :
    (list f).write as ++ rest = '[' :: (joined true (as.map f.write) ++ ']' :: rest) := by
  simp [list, commaSeparated_eq_joined]

/-- Values that decode one by one decode as a list. -/
theorem mapM_decode {f : Format α} {value : α → Value} {as : List α}
    (h : ∀ a ∈ as, f.decode (value a) = .ok a) : (as.map value).mapM f.decode = .ok as := by
  induction as with
  | nil => rfl
  | cons a as ih =>
    have others := ih fun b hb => h b (List.mem_cons_of_mem a hb)
    rw [List.map_cons, List.mapM_cons, h a List.mem_cons_self, others]
    rfl

/-- A list makes the round trip with one level more than its items. -/
theorem list_roundTrips {f : Format α} {depth : Nat} {as : List α}
    (h : ∀ a ∈ as, f.RoundTrips depth a) : (list f).RoundTrips (depth + 1) as where
  begins := ⟨'[', _, rfl, rfl, by decide⟩
  reads room rest enough ends := by
    obtain ⟨room, rfl⟩ := Nat.exists_eq_add_of_le' (Nat.le_of_add_left_le enough)
    have begins : ∀ a ∈ as, BeginsItem (f.write a) := fun a ha => (h a ha).begins
    have steps := enough_steps (fun a ha => (begins a ha).ne_nil) true (']' :: rest)
    rw [list_write]
    simp only [list, skipSpace_cons (c := '[') rfl]
    rw [readItems_joined begins (fun a ha tail => (h a ha).reads (by omega)) steps, List.map_id']
  buffered := by
    -- each item has a value that its text is taken for
    have : Nonempty Value := ⟨.null⟩
    choose! value meaning reads using fun a (ha : a ∈ as) => (h a ha).buffered
    refine ⟨.array (as.map value), mapM_decode meaning, fun room rest enough _ => ?_⟩
    obtain ⟨room, rfl⟩ := Nat.exists_eq_add_of_le' (Nat.le_of_add_left_le enough)
    rw [list_write]
    exact readValue_array (fun a ha => (h a ha).begins)
      (fun a ha tail => reads a ha (by omega)) rest

/-- What holds of every item that can be read holds of all items that are read. -/
theorem forall_of_readItems {P : α → Prop} {item : List Char → Attempt (α × List Char)}
    (h : ∀ {cs a rest}, item cs = .ok (a, rest) → P a) {fuel : Nat} {isFirst : Bool}
    {cs rest : List Char} {as : List α} (done : readItems item fuel isFirst cs = .ok (as, rest)) :
    ∀ a ∈ as, P a := by
  induction fuel generalizing isFirst cs as with
  | zero => cases done
  | succ fuel ih =>
    obtain ⟨next, -, done⟩ := exists_of_bind_eq_ok done
    cases next with
    | none =>
      -- no more items follow
      obtain ⟨tail, -, pair⟩ := exists_of_bind_eq_ok done
      cases pair
      exact fun a none => absurd none List.not_mem_nil
    | some cs =>
      obtain ⟨⟨b, tail⟩, first, done⟩ := exists_of_bind_eq_ok done
      obtain ⟨⟨bs, tail'⟩, others, pair⟩ := exists_of_bind_eq_ok done
      cases pair
      exact List.forall_mem_cons.2 ⟨h first, ih others⟩

/-- A property that every decoded item has holds of each of a decoded list. -/
theorem forall_of_mapM {P : α → Prop} {meaning : Value → Except Mismatch α}
    (h : ∀ {v a}, meaning v = .ok a → P a) {vs : List Value} {as : List α}
    (done : vs.mapM meaning = .ok as) : ∀ a ∈ as, P a := by
  induction vs generalizing as with
  | nil =>
    cases done
    exact fun a none => absurd none List.not_mem_nil
  | cons v vs ih =>
    rw [List.mapM_cons] at done
    obtain ⟨b, first, done⟩ := exists_of_bind_eq_ok done
    obtain ⟨bs, others, pair⟩ := exists_of_bind_eq_ok done
    cases pair
    exact List.forall_mem_cons.2 ⟨h first, ih others⟩

/-- The items of a list that makes the round trip do so themselves. -/
theorem RoundTrips.of_mem {f : Format α} {depth deeper : Nat} (stable : f.Stable depth)
    {as : List α} (h : (list f).RoundTrips deeper as) : ∀ a ∈ as, f.RoundTrips depth a := by
  obtain ⟨v, meaning, -⟩ := h.buffered
  simp only [list] at meaning
  split at meaning
  · exact forall_of_mapM stable.decode meaning
  · cases meaning

/-- A list is stable with one level more than its items. -/
theorem list_stable {f : Format α} {depth : Nat} (h : f.Stable depth) :
    (list f).Stable (depth + 1) where
  read {room cs as rest} done := by
    simp only [list] at done
    split at done
    · split at done
      · cases done
      · exact list_roundTrips (forall_of_readItems h.read done)
    · -- without a bracket the text is no list
      obtain ⟨v, impossible⟩ := exists_of_readAtom done
      cases impossible
  decode {v as} done := by
    simp only [list] at done
    split at done
    · exact list_roundTrips (forall_of_mapM h.decode done)
    · cases done

/-! ### One of several names -/

/-- Names that differ are told apart. -/
theorem choose_get {names : List String} (nodup : names.Nodup) (i : Fin names.length) :
    choose names (names.get i) = .ok i := by
  have found : names.finIdxOf? (names.get i) = some i := by
    rw [List.finIdxOf?_eq_some_iff]
    refine ⟨rfl, fun j before same => ?_⟩
    have index := (List.Nodup.getElem_inj_iff nodup).1 same
    omega
  rw [choose, found]

/-- The choice of a name makes the round trip, if no two names are the same. -/
theorem choice_roundTrips {names : List String} (nodup : names.Nodup) (i : Fin names.length) :
    (choice names).RoundTrips 0 i where
  begins := (isScalar_string (names.get i)).beginsItem
  reads room rest _ _ := by
    -- the name in quotes, as the reader of texts expects it
    have text : (choice names).write i ++ rest =
        '"' :: ((names.get i).toList.flatMap escape ++ '"' :: rest) := by
      simp [choice, writeString]
    rw [text]
    simp only [choice, skipSpace_cons (c := '"') rfl, readText_escaped, choose_get nodup,
      settle, bind, Except.bind]
  buffered := ⟨.string (names.get i), choose_get nodup i,
    fun _ _ _ ends => readValue_of_isScalar (isScalar_string (names.get i)) _ ends⟩

/-- What is written by a name makes the round trip, if no two names are the same and it can be told
    from its place. -/
theorem names_roundTrips {n : Nat} {ns : List String} (nodup : ns.Nodup) (h : ns.length = n)
    {ofIndex : Fin n → α} {index : α → Fin n} {a : α} (same : ofIndex (index a) = a) :
    (names ns h ofIndex index).RoundTrips 0 a :=
  map_roundTrips (choice_roundTrips nodup _) same

end Format

end OnScreen.Json
