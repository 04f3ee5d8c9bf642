import OnScreen.Json.TaggedUnion
import OnScreen.Proofs.Json.Record

namespace OnScreen.Json

/-!
# Tagged unions are read back

A written value of a union has its tag in front.  When the tag has been read the case is known, and
the members behind it are gathered as JSON values that stand for the fields of that case.  No field
is called like the tag, so none of them is taken for it.

* `TaggedUnion.Lawful` — the cases and their members can be told apart.
* `TaggedUnion.roundTrips`, `TaggedUnion.stable` — unions of fields that round trip.
-/

namespace TaggedUnion

variable {α : Type}

/-- The cases have names of their own, no member of a case has the name of another one, and a value
    belongs to one case. -/
structure Lawful (u : TaggedUnion α) : Prop where
  names : (u.cases.map Case.name).Nodup
  members : ∀ c ∈ u.cases, (u.tag :: c.fields.names).Nodup
  apart : u.cases.Pairwise fun c d => ∀ a, c.view a = none ∨ d.view a = none
  make_of_view : ∀ c ∈ u.cases, ∀ a b, c.view a = some b → c.make b = a
  view_make : ∀ c ∈ u.cases, ∀ b, c.view (c.make b) = some b

/-- The fields of the value round trip. -/
def RoundTrip (u : TaggedUnion α) (depth : Nat) (a : α) : Prop :=
  ∃ c ∈ u.cases, ∃ b, c.view a = some b ∧ c.fields.RoundTrip depth b

/-- The tag as a member. -/
def tagMember (u : TaggedUnion α) (c : Case α) : Member :=
  ⟨u.tag, writeString c.name.toList, .string c.name⟩

variable {u : TaggedUnion α} {c : Case α} {depth room : Nat}

/-! ### The case of a value -/

/-- A case that is found by its name is one of the union's. -/
theorem mem_of_caseOf {name : String} (h : u.caseOf name = .ok c) : c ∈ u.cases := by
  unfold caseOf at h
  split at h
  · next found =>
    cases h
    exact List.mem_of_find?_eq_some found
  · cases h

/-- Cases with names of their own are found by these. -/
theorem find?_name {cases : List (Case α)} (names : (cases.map Case.name).Nodup)
    (mem : c ∈ cases) : (cases.find? fun d => d.name = c.name) = some c := by
  induction cases with
  | nil => cases mem
  | cons d ds ih =>
    obtain ⟨first, others⟩ := List.nodup_cons.1 (List.map_cons ▸ names)
    rcases List.mem_cons.1 mem with rfl | later
    · exact List.find?_cons_of_pos (by simp)
    · have other : d.name ≠ c.name := fun same =>
        first (same ▸ List.mem_map_of_mem later)
      rw [List.find?_cons_of_neg (by simpa using other), ih others later]

theorem Lawful.caseOf (lawful : u.Lawful) (mem : c ∈ u.cases) : u.caseOf c.name = .ok c := by
  rw [TaggedUnion.caseOf, find?_name lawful.names mem]

/-- The case that a value belongs to is the one that is written. -/
theorem findSome?_write? {cases : List (Case α)}
    (apart : cases.Pairwise fun c d => ∀ a, c.view a = none ∨ d.view a = none) (mem : c ∈ cases)
    (tag : String) {a : α} {b : c.β} (view : c.view a = some b) :
    (cases.findSome? fun d => d.write? tag a) =
      some (memberText tag (writeString c.name.toList) :: c.fields.write b) := by
  induction cases with
  | nil => cases mem
  | cons d ds ih =>
    obtain ⟨first, others⟩ := List.pairwise_cons.1 apart
    rcases List.mem_cons.1 mem with rfl | later
    · rw [List.findSome?_cons, Case.write?, view]
      rfl
    · -- the value belongs to a later case, so not to this one
      have absent : d.view a = none := (first c later a).resolve_right (by simp [view])
      rw [List.findSome?_cons, Case.write?, absent]
      exact ih others later

/-- A written value: its tag, and then the fields of its case. -/
theorem Lawful.write (lawful : u.Lawful) (mem : c ∈ u.cases) {a : α} {b : c.β}
    (view : c.view a = some b) {ms : List Member} (written : c.fields.Written depth b ms)
    (rest : List Char) :
    u.write a ++ rest =
      '{' :: (joined true ((u.tagMember c :: ms).map Member.write) ++ '}' :: rest) := by
  rw [TaggedUnion.write, findSome?_write? lawful.apart mem u.tag view, Option.getD_some,
    written.write, commaSeparated_eq_joined, List.append_assoc, List.cons_append]
  rfl

/-- No field of a case is taken for the tag. -/
theorem Lawful.key_ne_tag (lawful : u.Lawful) (mem : c ∈ u.cases) {b : c.β} {ms : List Member}
    (written : c.fields.Written depth b ms) : ∀ m ∈ ms, m.key ≠ u.tag := by
  intro m hm same
  have field : m.key ∈ c.fields.names := written.names ▸ List.mem_map_of_mem hm
  exact (List.nodup_cons.1 (lawful.members c mem)).1 (same ▸ field)

/-! ### Reading -/

/-- A name is read back. -/
theorem readAtom_identifier (name : String) {rest : List Char} (ends : EndsValue rest) :
    Format.readAtom Format.identifier (writeString name.toList ++ rest) = .ok (name, rest) := by
  have meaning : Format.identifier (.string name) = .ok name := rfl
  exact Format.readAtom_of_isScalar (isScalar_string name) meaning ends

/-- Behind the tag, all members are gathered. -/
theorem readMembers_others {ms : List Member} (others : ∀ m ∈ ms, m.key ≠ u.tag)
    (readsAs : ∀ m ∈ ms, ReadsAs depth m.text m.value) (enough : depth ≤ room) {fuel : Nat}
    (steps : ms.length < fuel) (found : Option (Case α)) (rest : List Char) :
    u.readMembers room fuel false found (joined false (ms.map Member.write) ++ '}' :: rest) =
      .ok (found, ms.map fun m => (m.key, m.value), '}' :: rest) := by
  induction ms generalizing fuel with
  | nil =>
    obtain ⟨fuel, rfl⟩ := Nat.exists_eq_add_of_lt steps
    simp [readMembers, nextKey_end]
  | cons m ms ih =>
    obtain ⟨fuel, rfl⟩ := Nat.exists_eq_add_one.2 (Nat.zero_lt_of_lt steps)
    -- the member is kept as it is, since its key is not the tag
    have first := readsAs m List.mem_cons_self enough
      (endsValue_joined (.inr rfl) (ms.map Member.write) rest)
    have later := ih (fun n hn => others n (List.mem_cons_of_mem m hn))
      (fun n hn => readsAs n (List.mem_cons_of_mem m hn)) (Nat.lt_of_succ_lt_succ steps)
    simp only [readMembers, List.map_cons, Member.write, nextKey_joined, readText_escaped,
      if_neg (others m List.mem_cons_self), expectSign_cons ':' rfl, Except.bind]
    rw [first]
    simp only
    rw [later]

/-- **The members are read back**: the tag gives the case, and the others are kept for it as they
    are. -/
theorem Lawful.readMembers (lawful : u.Lawful) (mem : c ∈ u.cases) {b : c.β} {ms : List Member}
    (written : c.fields.Written depth b ms) (enough : depth ≤ room) {fuel : Nat}
    (steps : ms.length + 1 < fuel) (rest : List Char) :
    u.readMembers room fuel true none
        (joined true ((u.tagMember c :: ms).map Member.write) ++ '}' :: rest) =
      .ok (some c, ms.map fun m => (m.key, m.value), '}' :: rest) := by
  obtain ⟨fuel, rfl⟩ := Nat.exists_eq_add_one.2 (Nat.zero_lt_of_lt steps)
  -- the tag stands first, so the case is known when the others are read
  have tag := readAtom_identifier c.name (endsValue_joined (.inr rfl) (ms.map Member.write) rest)
  have others := readMembers_others (lawful.key_ne_tag mem written) written.readsAs enough
    (Nat.lt_of_succ_lt_succ steps) (some c) rest
  rw [List.map_cons, TaggedUnion.readMembers]
  simp only [Member.write, tagMember, nextKey_joined, readText_escaped, if_true,
    expectSign_cons ':' rfl, Except.bind, Option.isSome_none, Bool.false_eq_true,
    if_false]
  rw [tag]
  simp only [lawful.caseOf mem]
  exact others

/-- A map with the members of a value stands for the value. -/
theorem Lawful.decode (lawful : u.Lawful) (mem : c ∈ u.cases) {b : c.β} {ms : List Member}
    (written : c.fields.Written depth b ms) :
    c.decode (.object (ms.map fun m => (m.key, m.value))) = .ok (c.make b) := by
  have nodup := (List.nodup_cons.1 (lawful.members c mem)).2
  rw [Case.decode, Fields.decode_written written nodup]
  rfl

/-- What is decoded from the tag and the members of a case is built by this case. -/
theorem Lawful.decode_tagged (lawful : u.Lawful) (mem : c ∈ u.cases) {b : c.β} {ms : List Member}
    (written : c.fields.Written depth b ms) :
    u.decode (.object ((u.tagMember c :: ms).map fun m => (m.key, m.value))) =
      .ok (c.make b) := by
  have others := lawful.key_ne_tag mem written
  -- no other member is called like the tag, so it is found alone, and all others are left
  generalize same : ms.map (fun m => (m.key, m.value)) = members
  have fields : ∀ m ∈ members, m.1 ≠ u.tag := by
    intro m hm
    rw [← same] at hm
    obtain ⟨n, hn, rfl⟩ := List.mem_map.1 hm
    exact others n hn
  have tags : members.filter (fun m => m.1 = u.tag) = [] := by
    simpa [List.filter_eq_nil_iff] using fields
  have rest : members.filter (fun m => m.1 ≠ u.tag) = members := by
    simpa [List.filter_eq_self] using fields
  have meaning := lawful.decode mem written
  rw [same] at meaning
  rw [List.map_cons, same, TaggedUnion.decode]
  simp only [tagMember]
  rw [List.filter_cons_of_pos (by simp), List.filter_cons_of_neg (by simp), tags, rest]
  simp only [Format.identifier, Except.bind, lawful.caseOf mem, meaning, List.isEmpty_nil, if_true]

/-- **The round trip of a tagged union**: with one level more than the fields of its cases. -/
theorem roundTrips (lawful : u.Lawful) {a : α} (h : u.RoundTrip depth a) :
    u.format.RoundTrips (depth + 1) a := by
  obtain ⟨c, mem, b, view, fields⟩ := h
  obtain ⟨ms, written⟩ := fields.exists_written
  have make := lawful.make_of_view c mem a b view
  refine ⟨⟨'{', _, rfl, rfl, by decide⟩, fun room rest enough ends => ?_, ?_⟩
  · obtain ⟨room, rfl⟩ := Nat.exists_eq_add_of_le' (Nat.le_of_add_left_le enough)
    have steps := Member.enough_steps (u.tagMember c :: ms) ('}' :: rest)
    have deep : depth ≤ room := Nat.le_of_succ_le_succ enough
    -- read off a text: the members are gathered and decoded by the case
    have members := lawful.readMembers mem written deep steps rest
    show u.read (room + 1) (u.write a ++ rest) = _
    rw [lawful.write mem view written]
    simp only [TaggedUnion.read, skipSpace_cons (c := '{') rfl, members,
      expectSign_cons '}' rfl, lawful.decode mem written, settle, Except.map, make]
  · -- read as a value and decoded: the same members, with the tag among them
    have meaning : u.format.decode
        (.object ((u.tagMember c :: ms).map fun m => (m.key, m.value))) = .ok (c.make b) :=
      lawful.decode_tagged mem written
    rw [make] at meaning
    refine ⟨_, meaning, fun room rest enough _ => ?_⟩
    obtain ⟨room, rfl⟩ := Nat.exists_eq_add_of_le' (Nat.le_of_add_left_le enough)
    show readValue (room + 1) (u.write a ++ rest) = _
    rw [lawful.write mem view written]
    refine readValue_object (fun m hm tail ends => ?_) rest
    rcases List.mem_cons.1 hm with rfl | later
    · exact readValue_of_isScalar (isScalar_string c.name) room ends
    · exact written.readsAs m later (by omega) ends

/-! ### Whatever is read round trips -/

/-- The case that was found among the members is one of the union's. -/
theorem mem_of_readMembers {fuel : Nat} {isFirst : Bool} {found found' : Option (Case α)}
    {cs rest : List Char} {members : List (String × Value)} (h : ∀ c, found = some c → c ∈ u.cases)
    (done : u.readMembers room fuel isFirst found cs = .ok (found', members, rest)) :
    ∀ c, found' = some c → c ∈ u.cases := by
  induction fuel generalizing isFirst found cs members with
  | zero => cases done
  | succ fuel ih =>
    simp only [readMembers] at done
    split at done
    · cases done
    · cases done
      exact h
    · split at done
      · cases done
      · split_ifs at done
        · split at done
          · cases done
          · split at done
            · cases done
            · next c known =>
              -- this was the tag, and its case is the one that is known from now on
              refine ih (fun d same => ?_) done
              cases same
              exact mem_of_caseOf known
        · split at done
          · cases done
          · split at done
            · cases done
            · next later =>
              cases done
              exact ih h later

/-- So is the case that stands first in an array. -/
theorem mem_of_readItems {cs rest : List Char} {vs : List Value}
    (done : u.readItems room cs = .ok (c, vs, rest)) : c ∈ u.cases := by
  simp only [readItems] at done
  split at done
  · cases done
  · cases done
  · split at done
    · cases done
    · split at done
      · cases done
      · -- the first item was a name, and a case was found by it
        next known =>
        obtain ⟨⟨ws, tail⟩, -, same⟩ := exists_of_map_eq_ok done
        cases same
        exact mem_of_caseOf known

/-- Every case is made of fields that are stable. -/
def StableCases (u : TaggedUnion α) (depth : Nat) : Prop :=
  ∀ c ∈ u.cases, c.fields.Stable depth

/-- What a case decodes makes the round trip of the union. -/
theorem Lawful.roundTrip_of_case (lawful : u.Lawful) (stable : u.StableCases depth)
    (mem : c ∈ u.cases) {v : Value} {a : α} (done : c.decode v = .ok a) : u.RoundTrip depth a := by
  obtain ⟨b, meaning, rfl⟩ := exists_of_map_eq_ok done
  exact ⟨c, mem, b, lawful.view_make c mem b, Fields.roundTrip_of_decode meaning (stable c mem)⟩

/-- What is read makes the round trip, from an object as from an array. -/
theorem Lawful.roundTrip_of_read (lawful : u.Lawful) (stable : u.StableCases depth)
    {cs rest : List Char} {a : α} (done : u.read room cs = .ok (a, rest)) :
    u.RoundTrip depth a := by
  simp only [TaggedUnion.read] at done
  split at done
  -- a list with the tag in front, a map with the tag anywhere, or something without brackets
  · split at done
    · cases done
    · split at done
      · cases done
      · next items =>
        obtain ⟨b, meaning, same⟩ := exists_of_map_eq_ok done
        cases same
        exact lawful.roundTrip_of_case stable (mem_of_readItems items) (eq_ok_of_settle meaning)
  · split at done
    · cases done
    · split at done
      · cases done
      · cases done
      · next members =>
        split at done
        · cases done
        · obtain ⟨b, meaning, same⟩ := exists_of_map_eq_ok done
          cases same
          have mem := mem_of_readMembers (by simp) members _ rfl
          exact lawful.roundTrip_of_case stable mem (eq_ok_of_settle meaning)
  · obtain ⟨v, impossible⟩ := Format.exists_of_readAtom done
    cases impossible

/-- A value of a union is in brackets. -/
theorem opens_of_read {cs rest : List Char} {a : α} (done : u.read room cs = .ok (a, rest)) :
    ∃ c tail, skipSpace cs = c :: tail ∧ (c = '[' ∨ c = '{') := by
  simp only [TaggedUnion.read] at done
  split at done
  · next opens => exact ⟨'[', _, opens, .inl rfl⟩
  · next opens => exact ⟨'{', _, opens, .inr rfl⟩
  · obtain ⟨v, impossible⟩ := Format.exists_of_readAtom done
    cases impossible

/-- So does what is decoded. -/
theorem Lawful.roundTrip_of_decode (lawful : u.Lawful) (stable : u.StableCases depth) {v : Value}
    {a : α} (done : u.decode v = .ok a) : u.RoundTrip depth a := by
  -- both forms name their case, the object in a member and the array in its first item
  have known : ∀ {tag c}, (Format.identifier tag).bind u.caseOf = .ok c → c ∈ u.cases := by
    intro tag c named
    obtain ⟨name, -, named⟩ := exists_of_bind_eq_ok named
    exact mem_of_caseOf named
  simp only [TaggedUnion.decode] at done
  split at done
  · cases done
  · split at done
    · cases done
    · next named => exact lawful.roundTrip_of_case stable (known named) done
  · split at done
    · cases done
    · split at done
      · cases done
      · next named =>
        split at done
        · exact lawful.roundTrip_of_case stable (known named) done
        · cases done
  · cases done

/-- A lawful union is stable with one level more than the fields of its cases. -/
theorem stable (lawful : u.Lawful) (h : u.StableCases depth) : u.format.Stable (depth + 1) where
  read done := roundTrips lawful (lawful.roundTrip_of_read h done)
  decode done := roundTrips lawful (lawful.roundTrip_of_decode h done)

end TaggedUnion

end OnScreen.Json
