import OnScreen.Json.Record
import OnScreen.Proofs.Json.Format

namespace OnScreen.Json

/-!
# Records are read back

The members of a written record come in the order of the fields, so after some of them have been
read, the slots of just those fields are filled, and the next member goes to the first slot that is
vacant. This holds whether the members are read off a text or from a map that has been read before.

* `Fields.readMember_filled`, `Fields.decodeMember_filled` — the next member fills the next slot.
* `Fields.readMembers_written`, `Fields.decode_written` — all members fill all slots.
* `Format.record_roundTrips`, `Format.record_stable` — records of fields that round trip.
-/

/-- A written member, and the value that its text is taken for where nobody asks for its meaning. -/
structure Member where
  key : String
  text : List Char
  value : Value

/-- The written form of the member. -/
def Member.write (m : Member) : List Char := memberText m.key m.text

/-- The characters of an object are fuel enough for its members. -/
theorem Member.enough_steps (ms : List Member) (rest : List Char) :
    ms.length < (joined true (ms.map Member.write) ++ rest).length + 1 :=
  Json.enough_steps (fun m _ => memberText_ne_nil m.key m.text) true rest

namespace Fields

variable {α : Type} {depth room : Nat}

/-- The names of the fields. -/
def names {α : Type} : Fields α → List String
  | done => []
  | field name _ _ rest => name :: rest.names

/-- The value of every field round trips. -/
def RoundTrip {α : Type} (depth : Nat) : Fields α → α → Prop
  | done, () => True
  | field _ format _ rest, (a, as) => format.RoundTrips depth a ∧ rest.RoundTrip depth as

/-- The members are those of the record, and their texts and values all give its fields. -/
def Written {α : Type} (depth : Nat) : Fields α → α → List Member → Prop
  | done, (), ms => ms = []
  | field name format _ rest, (a, as), ms =>
    ∃ v others, ms = ⟨name, format.write a, v⟩ :: others ∧ format.RoundTrips depth a ∧
      format.decode v = .ok a ∧ ReadsAs depth (format.write a) v ∧ rest.Written depth as others

/-- A record whose fields make the round trip is written by members. -/
theorem RoundTrip.exists_written {fields : Fields α} {a : α} (h : fields.RoundTrip depth a) :
    ∃ ms, fields.Written depth a ms := by
  induction fields with
  | done => exact ⟨[], rfl⟩
  | field name format absent rest ih =>
    obtain ⟨a, as⟩ := a
    obtain ⟨others, written⟩ := ih h.2
    obtain ⟨v, meaning, readsAs⟩ := h.1.buffered
    exact ⟨_, v, others, rfl, h.1, meaning, readsAs, written⟩

/-- The members are what is written. -/
theorem Written.write {fields : Fields α} {a : α} {ms : List Member}
    (h : fields.Written depth a ms) : fields.write a = ms.map Member.write := by
  induction fields generalizing ms with
  | done => rw [show ms = [] from h]; rfl
  | field name format absent rest ih =>
    obtain ⟨a, as⟩ := a
    obtain ⟨v, others, rfl, -, -, -, written⟩ := h
    rw [List.map_cons, ← ih written]
    rfl

/-- The members bear the names of the fields, in order. -/
theorem Written.names {fields : Fields α} {a : α} {ms : List Member}
    (h : fields.Written depth a ms) : ms.map Member.key = fields.names := by
  induction fields generalizing ms with
  | done => rw [show ms = [] from h]; rfl
  | field name format absent rest ih =>
    obtain ⟨a, as⟩ := a
    obtain ⟨v, others, rfl, -, -, -, written⟩ := h
    rw [List.map_cons, ih written]
    rfl

/-- Each member's text is read as its value. -/
theorem Written.readsAs {fields : Fields α} {a : α} {ms : List Member}
    (h : fields.Written depth a ms) : ∀ m ∈ ms, ReadsAs depth m.text m.value := by
  induction fields generalizing ms with
  | done =>
    rw [show ms = [] from h]
    exact fun m none => absurd none List.not_mem_nil
  | field name format absent rest ih =>
    obtain ⟨a, as⟩ := a
    obtain ⟨v, others, rfl, -, -, readsAs, written⟩ := h
    exact List.forall_mem_cons.2 ⟨readsAs, ih written⟩

/-! ### Filling the slots -/

/-- The slots when the first fields have been read. -/
def filled {α : Type} : (fields : Fields α) → α → Nat → fields.Slots
  | done, (), _ => ()
  | field _ _ _ rest, (_, as), 0 => (none, rest.filled as 0)
  | field _ _ _ rest, (a, as), n + 1 => (some a, rest.filled as n)

/-- With no field filled, all slots are vacant. -/
theorem filled_zero (fields : Fields α) (a : α) : fields.filled a 0 = fields.vacant := by
  induction fields with
  | done => rfl
  | field name format absent rest ih => exact congrArg (Prod.mk none) (ih a.2)

/-- With all fields filled, the slots make up the record. -/
theorem complete_filled {fields : Fields α} {a : α} {ms : List Member}
    (h : fields.Written depth a ms) : fields.complete (fields.filled a ms.length) = .ok a := by
  induction fields generalizing ms with
  | done => rfl
  | field name format absent rest ih =>
    obtain ⟨a, as⟩ := a
    obtain ⟨v, others, rfl, -, -, -, written⟩ := h
    simp only [List.length_cons, filled, complete, Option.some_or, bind, Except.bind, ih written]

section

variable {fields : Fields α} {a : α} {before ahead : List Member} {m : Member}

/-- A member bears the name of a field. -/
theorem Written.key_mem (h : fields.Written depth a (before ++ m :: ahead)) :
    m.key ∈ fields.names := by
  rw [← h.names]
  simp

/-- Read off a text, the next member fills the next slot. -/
theorem readMember_filled (h : fields.Written depth a (before ++ m :: ahead))
    (nodup : fields.names.Nodup) (enough : depth ≤ room) {rest : List Char}
    (ends : EndsValue rest) :
    fields.readMember room m.key (':' :: (m.text ++ rest)) (fields.filled a before.length) =
      some (.ok (fields.filled a (before.length + 1), rest)) := by
  induction fields generalizing before with
  | done => simp [Written] at h
  | field name format absent others ih =>
    obtain ⟨a, as⟩ := a
    obtain ⟨v, ms, split, roundTrips, -, -, written⟩ := h
    cases before with
    | nil =>
      obtain ⟨rfl, rfl⟩ := List.cons.inj split
      simp only [readMember, filled, List.length_nil, if_true, Option.isSome_none,
        expectSign_cons ':' rfl, roundTrips.reads enough ends, bind, Except.bind]
      rfl
    | cons first before =>
      obtain ⟨rfl, rfl⟩ := List.cons.inj split
      -- the first slot is filled already, and belongs to another name
      have other : name ≠ m.key := fun same => (List.nodup_cons.1 nodup).1 (same ▸ written.key_mem)
      simp only [readMember, filled, List.length_cons, if_neg other,
        ih written (List.nodup_cons.1 nodup).2, Option.map_some, Except.map]

/-- Read from a map that has been read before, the next member fills the next slot. -/
theorem decodeMember_filled (h : fields.Written depth a (before ++ m :: ahead))
    (nodup : fields.names.Nodup) :
    fields.decodeMember m.key m.value (fields.filled a before.length) =
      .ok (fields.filled a (before.length + 1)) := by
  induction fields generalizing before with
  | done => simp [Written] at h
  | field name format absent others ih =>
    obtain ⟨a, as⟩ := a
    obtain ⟨v, ms, split, -, meaning, -, written⟩ := h
    cases before with
    | nil =>
      obtain ⟨rfl, rfl⟩ := List.cons.inj split
      simp only [decodeMember, filled, List.length_nil, if_true, Option.isSome_none, meaning, bind,
        Except.bind]
      rfl
    | cons first before =>
      obtain ⟨rfl, rfl⟩ := List.cons.inj split
      -- the first field is filled; the member bears the name of a later one
      have other : name ≠ m.key := fun same => (List.nodup_cons.1 nodup).1 (same ▸ written.key_mem)
      simp only [decodeMember, filled, List.length_cons, if_neg other,
        ih written (List.nodup_cons.1 nodup).2, Except.map]

/-- Reading goes through all members that are left and stops in front of the closing bracket. -/
theorem readMembers_filled (before : List Member) (h : fields.Written depth a (before ++ ahead))
    (nodup : fields.names.Nodup) (enough : depth ≤ room) {fuel : Nat} (steps : ahead.length < fuel)
    (isFirst : Bool) (rest : List Char) :
    fields.readMembers room fuel isFirst (fields.filled a before.length)
        (joined isFirst (ahead.map Member.write) ++ '}' :: rest) =
      .ok (fields.filled a (before ++ ahead).length, '}' :: rest) := by
  induction ahead generalizing before fuel isFirst with
  | nil =>
    obtain ⟨fuel, rfl⟩ := Nat.exists_eq_add_of_lt steps
    simp [readMembers, nextKey_end, bind, Except.bind]
  | cons m ahead ih =>
    obtain ⟨fuel, rfl⟩ := Nat.exists_eq_add_one.2 (Nat.zero_lt_of_lt steps)
    have ends := endsValue_joined (.inr rfl) (ahead.map Member.write) rest
    have first := readMember_filled h nodup enough ends
    -- for what is left, the member counts among those that were read before
    have others := ih (before ++ [m]) (by rwa [List.append_cons] at h)
      (Nat.lt_of_succ_lt_succ steps) false
    rw [List.length_append, List.length_singleton, ← List.append_cons] at others
    simp only [readMembers, List.map_cons, Member.write, nextKey_joined, readText_escaped, bind,
      Except.bind]
    rw [first]
    exact others

/-- Members that are decoded one after another fill the fields one after another. -/
theorem foldlM_decodeMember_filled (before : List Member)
    (h : fields.Written depth a (before ++ ahead)) (nodup : fields.names.Nodup) :
    (ahead.map fun m => (m.key, m.value)).foldlM (fun slots m => fields.decodeMember m.1 m.2 slots)
        (fields.filled a before.length) = .ok (fields.filled a (before ++ ahead).length) := by
  induction ahead generalizing before with
  | nil => rw [List.append_nil]; rfl
  | cons m ahead ih =>
    have others := ih (before ++ [m]) (by rwa [List.append_cons] at h)
    rw [List.length_append, List.length_singleton, ← List.append_cons] at others
    rw [List.map_cons, List.foldlM_cons, decodeMember_filled h nodup]
    exact others

end

variable {fields : Fields α} {a : α} {ms : List Member}

/-- **The members are read back**: from vacant slots, they fill every field. -/
theorem readMembers_written (h : fields.Written depth a ms) (nodup : fields.names.Nodup)
    (enough : depth ≤ room) {fuel : Nat} (steps : ms.length < fuel) (rest : List Char) :
    fields.readMembers room fuel true fields.vacant
        (joined true (ms.map Member.write) ++ '}' :: rest) =
      .ok (fields.filled a ms.length, '}' :: rest) := by
  rw [← filled_zero fields a]
  exact readMembers_filled [] h nodup enough steps true rest

/-- A map with the members of a record stands for the record. -/
theorem decode_written (h : fields.Written depth a ms) (nodup : fields.names.Nodup)
    (label : String) : fields.decode label (.object (ms.map fun m => (m.key, m.value))) = .ok a := by
  have all := foldlM_decodeMember_filled [] h nodup
  rw [List.length_nil, filled_zero, List.nil_append] at all
  simp only [decode, decodeMembers, all, bind, Except.bind, complete_filled h]

/-! ### Whatever is read round trips -/

/-- The format of each field is stable, and the value of each field that is left out round trips. -/
def Stable {α : Type} (depth : Nat) : Fields α → Prop
  | done => True
  | field _ format absent rest =>
    format.Stable depth ∧ (∀ a, absent = some a → format.RoundTrips depth a) ∧ rest.Stable depth

/-- The values in the slots round trip. -/
def SlotsRoundTrip {α : Type} (depth : Nat) : (fields : Fields α) → fields.Slots → Prop
  | done, () => True
  | field _ format _ rest, slots =>
    (∀ a, slots.1 = some a → format.RoundTrips depth a) ∧ rest.SlotsRoundTrip depth slots.2

/-- Vacant slots hold nothing, so all they hold makes the round trip. -/
theorem slotsRoundTrip_vacant (fields : Fields α) : fields.SlotsRoundTrip depth fields.vacant := by
  induction fields with
  | done => trivial
  | field name format absent rest ih => exact ⟨nofun, ih⟩

/-- A record that is completed from slots makes the round trip if what they hold does. A field that
    was left vacant took its default, which makes the round trip by its format's stability. -/
theorem SlotsRoundTrip.complete {fields : Fields α} {slots : fields.Slots}
    (h : fields.SlotsRoundTrip depth slots) (stable : fields.Stable depth) {a : α}
    (done : fields.complete slots = .ok a) : fields.RoundTrip depth a := by
  induction fields with
  | done => trivial
  | field name format absent rest ih =>
    simp only [Fields.complete] at done
    split at done
    · next b source =>
      obtain ⟨_, ⟨⟩, done⟩ := exists_of_bind_eq_ok done
      obtain ⟨bs, others, pair⟩ := exists_of_bind_eq_ok done
      cases pair
      refine ⟨?_, ih h.2 stable.2.2 others⟩
      -- the value was read, or the field was left out
      rcases Option.or_eq_some_iff.1 source with read | ⟨-, default⟩
      · exact h.1 b read
      · exact stable.2.1 b default
    · cases done

/-- Reading a member keeps the slots' round trip, whichever slot it fills. -/
theorem SlotsRoundTrip.readMember {fields : Fields α} {slots slots' : fields.Slots} {key : String}
    {cs rest : List Char} (h : fields.SlotsRoundTrip depth slots) (stable : fields.Stable depth)
    (done : fields.readMember room key cs slots = some (.ok (slots', rest))) :
    fields.SlotsRoundTrip depth slots' := by
  induction fields with
  | done => cases done
  | field name format absent others ih =>
    simp only [Fields.readMember] at done
    split at done
    · -- the member is of the first field, whose format reads it
      have read := Option.some.inj done
      split at read
      · cases read
      · obtain ⟨tail, -, read⟩ := exists_of_bind_eq_ok read
        obtain ⟨⟨a, tail'⟩, value, pair⟩ := exists_of_bind_eq_ok read
        cases pair
        refine ⟨fun b same => ?_, h.2⟩
        cases same
        exact stable.1.read value
    · -- or of a later one, and the first slot stays
      obtain ⟨r, elsewhere, done⟩ := Option.map_eq_some_iff.1 done
      obtain ⟨⟨slots', tail⟩, rfl, pair⟩ := exists_of_map_eq_ok done
      cases pair
      exact ⟨h.1, ih h.2 stable.2.2 elsewhere⟩

/-- So does reading members up to the end of an object. -/
theorem SlotsRoundTrip.readMembers {slots slots' : fields.Slots} {fuel : Nat} {isFirst : Bool}
    {cs rest : List Char} (h : fields.SlotsRoundTrip depth slots) (stable : fields.Stable depth)
    (done : fields.readMembers room fuel isFirst slots cs = .ok (slots', rest)) :
    fields.SlotsRoundTrip depth slots' := by
  induction fuel generalizing isFirst slots cs with
  | zero => cases done
  | succ fuel ih =>
    obtain ⟨next, -, done⟩ := exists_of_bind_eq_ok done
    cases next with
    | none =>
      cases done
      exact h
    | some cs =>
      obtain ⟨⟨key, tail⟩, -, done⟩ := exists_of_bind_eq_ok done
      simp only at done
      -- a key that no field bears is skipped
      split at done
      · next r member =>
        obtain ⟨⟨slots, tail'⟩, rfl, done⟩ := exists_of_bind_eq_ok done
        exact ih (h.readMember stable member) done
      · obtain ⟨tail, -, done⟩ := exists_of_bind_eq_ok done
        obtain ⟨tail', -, done⟩ := exists_of_bind_eq_ok done
        exact ih h done

/-- So does decoding a member. -/
theorem SlotsRoundTrip.decodeMember {fields : Fields α} {slots slots' : fields.Slots} {key : String}
    {v : Value} (h : fields.SlotsRoundTrip depth slots) (stable : fields.Stable depth)
    (done : fields.decodeMember key v slots = .ok slots') : fields.SlotsRoundTrip depth slots' := by
  induction fields with
  | done => trivial
  | field name format absent others ih =>
    simp only [Fields.decodeMember] at done
    -- the value is decoded by the format of its field
    split at done
    · split at done
      · cases done
      · obtain ⟨a, meaning, pair⟩ := exists_of_bind_eq_ok done
        cases pair
        refine ⟨fun b same => ?_, h.2⟩
        cases same
        exact stable.1.decode meaning
    · obtain ⟨slots', elsewhere, rfl⟩ := exists_of_map_eq_ok done
      exact ⟨h.1, ih h.2 stable.2.2 elsewhere⟩

/-- So does decoding members one after another. -/
theorem SlotsRoundTrip.foldlM_decodeMember {slots slots' : fields.Slots}
    {members : List (String × Value)} (h : fields.SlotsRoundTrip depth slots)
    (stable : fields.Stable depth)
    (done : members.foldlM (fun slots m => fields.decodeMember m.1 m.2 slots) slots = .ok slots') :
    fields.SlotsRoundTrip depth slots' := by
  induction members generalizing slots with
  | nil =>
    cases done
    exact h
  | cons m members ih =>
    obtain ⟨next, first, done⟩ := exists_of_bind_eq_ok done
    exact ih (h.decodeMember stable first) done

/-- A record that is read from an array, with its fields by their places, makes the round trip. -/
theorem roundTrip_of_readItems {fields : Fields α} (stable : fields.Stable depth)
    {expected : String} {index : Nat} {cs rest : List Char} {a : α}
    (done : fields.readItems room expected index cs = .ok (a, rest)) : fields.RoundTrip depth a := by
  induction fields generalizing index cs with
  | done => trivial
  | field name format absent others ih =>
    obtain ⟨a, as⟩ := a
    obtain ⟨next, -, done⟩ := exists_of_bind_eq_ok done
    cases next with
    | some cs =>
      obtain ⟨⟨b, tail⟩, first, done⟩ := exists_of_bind_eq_ok done
      obtain ⟨⟨bs, tail'⟩, later, pair⟩ := exists_of_bind_eq_ok done
      cases pair
      exact ⟨stable.1.read first, ih stable.2.2 later⟩
    | none =>
      -- the array has ended, so the field takes its default
      cases absent with
      | none => cases done
      | some b =>
        obtain ⟨_, ⟨⟩, done⟩ := exists_of_bind_eq_ok done
        obtain ⟨⟨bs, tail⟩, later, pair⟩ := exists_of_bind_eq_ok done
        cases pair
        exact ⟨stable.2.1 _ rfl, ih stable.2.2 later⟩

/-- The same for a record that is decoded from an array. -/
theorem roundTrip_of_decodeItems {fields : Fields α} (stable : fields.Stable depth)
    {expected : String} {index left : Nat} {vs : List Value} {a : α}
    (done : fields.decodeItems expected index vs = .ok (a, left)) : fields.RoundTrip depth a := by
  induction fields generalizing index vs with
  | done => trivial
  | field name format absent others ih =>
    obtain ⟨a, as⟩ := a
    cases vs with
    | cons v vs =>
      obtain ⟨b, first, done⟩ := exists_of_bind_eq_ok done
      obtain ⟨⟨bs, left'⟩, later, pair⟩ := exists_of_bind_eq_ok done
      cases pair
      exact ⟨stable.1.decode first, ih stable.2.2 later⟩
    | nil =>
      -- the same where the values have run out
      cases absent with
      | none => cases done
      | some b =>
        obtain ⟨⟨bs, left'⟩, later, pair⟩ := exists_of_bind_eq_ok done
        cases pair
        exact ⟨stable.2.1 _ rfl, ih stable.2.2 later⟩

/-- A record that is decoded, from an object or from an array, makes the round trip. -/
theorem roundTrip_of_decode {label : String} {v : Value} (done : fields.decode label v = .ok a)
    (stable : fields.Stable depth) : fields.RoundTrip depth a := by
  simp only [decode] at done
  split at done
  -- a list gives the fields in their order, a map by their names
  · obtain ⟨⟨b, left⟩, items, done⟩ := exists_of_bind_eq_ok done
    simp only at done
    split at done
    · cases done
      exact roundTrip_of_decodeItems stable items
    · cases done
  · obtain ⟨slots, members, done⟩ := exists_of_bind_eq_ok done
    exact ((slotsRoundTrip_vacant fields).foldlM_decodeMember stable members).complete stable done
  · cases done

end Fields

namespace Format

variable {α : Type} {fields : Fields α} {depth : Nat}

/-- A record is written as its members joined by commas, in braces. -/
theorem record_write {label : String} {a : α} {ms : List Member}
    (h : fields.Written depth a ms) (rest : List Char) :
    (record label fields).write a ++ rest =
      '{' :: (joined true (ms.map Member.write) ++ '}' :: rest) := by
  simp [record, h.write, commaSeparated_eq_joined]

/-- **The round trip of a record**: with one level more than its fields, if no two of these bear one
    name. -/
theorem record_roundTrips {label : String} (nodup : fields.names.Nodup) {a : α}
    (h : fields.RoundTrip depth a) : (record label fields).RoundTrips (depth + 1) a where
  begins := ⟨'{', _, rfl, rfl, by decide⟩
  reads room rest enough ends := by
    obtain ⟨room, rfl⟩ := Nat.exists_eq_add_of_le' (Nat.le_of_add_left_le enough)
    obtain ⟨ms, written⟩ := h.exists_written
    have steps := Member.enough_steps ms ('}' :: rest)
    have deep : depth ≤ room := Nat.le_of_succ_le_succ enough
    -- the room that the braces take is left over for the members
    have members := Fields.readMembers_written written nodup deep steps rest
    rw [record_write written]
    simp only [record, readRecord, skipSpace_cons (c := '{') rfl, members, bind, Except.bind,
      Fields.complete_filled written, settle, expectSign_cons '}' rfl]
  buffered := by
    obtain ⟨ms, written⟩ := h.exists_written
    have meaning :
        (record label fields).decode (.object (ms.map fun m => (m.key, m.value))) = .ok a :=
      Fields.decode_written written nodup label
    refine ⟨_, meaning, fun room rest enough _ => ?_⟩
    obtain ⟨room, rfl⟩ := Nat.exists_eq_add_of_le' (Nat.le_of_add_left_le enough)
    rw [record_write written]
    exact readValue_object (fun m hm tail => written.readsAs m hm (by omega)) rest

/-- A record is stable with one level more than its fields. -/
theorem record_stable {label : String} (nodup : fields.names.Nodup) (h : fields.Stable depth) :
    (record label fields).Stable (depth + 1) where
  read {room cs a rest} done := by
    apply record_roundTrips nodup
    simp only [record, readRecord] at done
    split at done
    -- a list, a map, or something that is not in brackets
    · cases room with
      | zero => cases done
      | succ room =>
        obtain ⟨⟨b, tail⟩, items, done⟩ := exists_of_bind_eq_ok done
        obtain ⟨tail', -, pair⟩ := exists_of_bind_eq_ok done
        cases pair
        exact Fields.roundTrip_of_readItems h items
    · cases room with
      | zero => cases done
      | succ room =>
        obtain ⟨⟨slots, tail⟩, members, done⟩ := exists_of_bind_eq_ok done
        obtain ⟨b, complete, done⟩ := exists_of_bind_eq_ok done
        obtain ⟨tail', -, pair⟩ := exists_of_bind_eq_ok done
        cases pair
        exact ((Fields.slotsRoundTrip_vacant fields).readMembers h members).complete h
          (eq_ok_of_settle complete)
    · obtain ⟨v, impossible⟩ := exists_of_readAtom done
      cases impossible
  decode done := record_roundTrips nodup (Fields.roundTrip_of_decode done h)

end Format

end OnScreen.Json
