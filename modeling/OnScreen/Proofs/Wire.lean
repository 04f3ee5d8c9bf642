import OnScreen.Proofs.Json.TaggedUnion
import OnScreen.Wire

namespace OnScreen

open Json

/-!
# Nothing is lost over the wire

Every format of the wire reads back what it writes.  Only numbers can be out of bounds: a rank, a
total and an interval each have to fit a word, and no text is read as a value in which one of them
does not.  So whatever text was read, the text of its value is read as the same value.

* `Format.Lossless` — nothing is lost, given bounds on the values.
* `Wire.call_roundTrips` — a call round trips, whichever it is.
* `Wire.all_lossless` — all formats of the wire.
-/

/-! ### Bounds -/

/-- The numbers of the record fit words. -/
def Record.InWords (r : Record) : Prop := r.rank < wordLimit ∧ r.total < wordLimit

/-- The numbers of all records of the call fit words. -/
def Call.InWords : Call → Prop
  | visibilityChanges newly noLonger => (∀ r ∈ newly, r.InWords) ∧ ∀ r ∈ noLonger, r.InWords
  | _ => True

/-- The interval that the file sets fits a word. -/
def ConfigFile.InWords (f : ConfigFile) : Prop := ∀ n ∈ f.visibility.interval, n < wordLimit

instance (r : Record) : Decidable r.InWords := inferInstanceAs (Decidable (_ ∧ _))

instance (c : Call) : Decidable c.InWords :=
  match c with
  | .visibilityChanges _ _ => inferInstanceAs (Decidable (_ ∧ _))
  | .shown _ | .expansionChanged _ _ _ _ | .panelShown _ _ | .itemError _ _ =>
    inferInstanceAs (Decidable True)

/-- Values within bounds are read back from their texts, and every value that is read from some text
    is within bounds and is read back from its own text. -/
def Json.Format.Lossless {α : Type} (f : Format α) (Within : α → Prop) : Prop :=
  (∀ a, Within a → f.readAll (f.write a) = .ok a) ∧
    ∀ cs a, f.readAll cs = .ok a → Within a ∧ f.readAll (f.write a) = .ok a

/-- It is enough that values within bounds round trip, and that what is read can only round trip
    within bounds. -/
theorem Json.Format.Stable.lossless {α : Type} {f : Format α} {depth : Nat} (stable : f.Stable depth)
    (room : depth ≤ fullRoom) {Within : α → Prop} (within : ∀ a, f.RoundTrips depth a ↔ Within a) :
    f.Lossless Within := by
  refine ⟨fun a bounded => ((within a).2 bounded).readAll room, fun cs a accepted => ?_⟩
  have roundTrips := stable.readAll accepted
  exact ⟨(within a).1 roundTrips, roundTrips.readAll room⟩

/-- Where all values round trip there are no bounds. -/
theorem Json.Format.lossless_of_forall {α : Type} {f : Format α} {depth : Nat}
    (h : ∀ a, f.RoundTrips depth a) (room : depth ≤ fullRoom) : f.Lossless fun _ => True :=
  (Format.stable_of_forall h).lossless room fun a => iff_of_true (h a) trivial

namespace Wire

open Format

/-! ### Items -/

theorem itemKey_roundTrips (k : ItemKey) : itemKey.RoundTrips 0 k :=
  map_roundTrips (text_roundTrips k.text) rfl

theorem itemKey_stable : itemKey.Stable 0 := stable_of_forall itemKey_roundTrips

theorem locationKind_roundTrips (k : LocationKind) : locationKind.RoundTrips 0 k :=
  names_roundTrips (by decide) _ (LocationKind.ofIndex_index k)

theorem locationKind_stable : locationKind.Stable 0 := stable_of_forall locationKind_roundTrips

/-- A record makes the round trip if its rank is a word. -/
theorem record_roundTrips {r : Record} (h : r.InWords) : record.RoundTrips 1 r :=
  map_roundTrips
    (Format.record_roundTrips (by decide)
      ⟨itemKey_roundTrips _, word_roundTrips _ h.1, word_roundTrips _ h.2, flag_roundTrips _,
        locationKind_roundTrips _, trivial⟩)
    rfl

/-- A record that was read makes the round trip: its rank was read as a word. -/
theorem record_stable : record.Stable 1 := by
  apply map_stable
  · apply Format.record_stable (by decide)
    exact ⟨itemKey_stable, nofun, word_stable _, nofun, word_stable _, nofun, flag_stable, nofun,
      locationKind_stable, nofun, trivial⟩
  · exact fun _ _ => rfl

/-- Only records within word range make the round trip. -/
theorem inWords_of_record {depth : Nat} {r : Record} (h : record.RoundTrips depth r) :
    r.InWords := by
  obtain ⟨v, meaning, -⟩ := h.buffered
  obtain ⟨values, members, rfl⟩ := exists_of_map_eq_ok meaning
  obtain ⟨-, rank, total, -⟩ := Fields.roundTrip_of_decode members
    ⟨itemKey_stable, nofun, word_stable _, nofun, word_stable _, nofun, flag_stable, nofun,
      locationKind_stable, nofun, trivial⟩
  exact ⟨rank.lt_wordLimit, total.lt_wordLimit⟩

/-- A 32-bit word is a whole number of its range. -/
theorem placementCode_roundTrips (code : Int32) : placementCode.RoundTrips 0 code := by
  have least := Int32.le_toInt code
  have most := Int32.toInt_lt code
  apply map_roundTrips
  · exact whole_roundTrips (by constructor <;> decide) least (Int.le_sub_one_of_lt most)
  · exact Int32.ofInt_toInt code

/-- Every candidate makes the round trip: its placement code, if any, has a field that takes all
    32-bit words. -/
theorem candidate_roundTrips (c : Candidate) : candidate.RoundTrips 1 c := by
  have location : (optional placementCode).RoundTrips 0 c.location := by
    cases c.location with
    | none => exact optional_roundTrips_none _
    | some code =>
      exact optional_roundTrips_some (map_neverAbsent (whole_neverAbsent _) _ _)
        (placementCode_roundTrips code)
  exact map_roundTrips
    (Format.record_roundTrips (by decide)
      ⟨itemKey_roundTrips _, flag_roundTrips _, location, trivial⟩)
    rfl

/-! ### Signals and reports -/

theorem barState_roundTrips (s : BarState) : barState.RoundTrips 0 s :=
  names_roundTrips (by decide) _ (by cases s <;> rfl)

theorem triState_roundTrips (s : TriState) : triState.RoundTrips 0 s :=
  names_roundTrips (by decide) _ (by cases s <;> rfl)

/-- Every change of expansion makes the round trip. -/
theorem expansionChange_roundTrips (c : ExpansionChange) : expansionChange.RoundTrips 1 c :=
  map_roundTrips
    (Format.record_roundTrips (by decide)
      ⟨itemKey_roundTrips _, flag_roundTrips _, flag_roundTrips _, locationKind_roundTrips _,
        trivial⟩)
    rfl

/-- The ordinal of a location makes the round trip, since a byte is within the range of its field.
    -/
theorem ordinal_roundTrips (n : UInt8) : ordinal.RoundTrips 0 n := by
  have most : n.toNat < 256 := n.toNat_lt
  apply map_roundTrips
  · exact whole_roundTrips (by constructor <;> decide) (Int.natCast_nonneg _)
      (Int.le_sub_one_of_lt (Int.ofNat_lt.2 most))
  · exact UInt8.ofNat_toNat

theorem ordinal_stable : ordinal.Stable 0 := stable_of_forall ordinal_roundTrips

/-- The calls are a lawful union: their names are distinct, and none of their fields is called as
    the tag is. -/
theorem call_lawful : call.Lawful where
  names := by decide
  members := by decide
  apart := by
    simp only [call, List.pairwise_cons, List.forall_mem_cons, List.not_mem_nil, false_imp_iff,
      implies_true, List.Pairwise.nil, and_true]
    refine ⟨⟨?_, ?_, ?_, ?_⟩, ⟨?_, ?_, ?_⟩, ⟨?_, ?_⟩, ?_⟩ <;> intro c <;> cases c <;> simp
  make_of_view := by
    simp only [call, List.forall_mem_cons, List.not_mem_nil, false_imp_iff, implies_true, and_true]
    refine ⟨?_, ?_, ?_, ?_, ?_⟩ <;> rintro (_ | _ | _ | _ | _) _ ⟨⟩ <;> rfl
  view_make := by
    simp only [call, List.forall_mem_cons, List.not_mem_nil, false_imp_iff, implies_true, and_true]

/-- The fields of each kind of call are stable, those of a batch with a list of records in a record.
    -/
theorem call_stableCases : call.StableCases 2 := by
  simp only [TaggedUnion.StableCases, call, List.forall_mem_cons, List.not_mem_nil, false_imp_iff,
    implies_true, and_true]
  -- a list of records needs the most room
  have records := list_stable record_stable
  have keys := (list_stable itemKey_stable).mono (Nat.le_succ 1)
  have key := itemKey_stable.mono (Nat.zero_le 2)
  have flag := flag_stable.mono (Nat.zero_le 2)
  have ordinal := ordinal_stable.mono (Nat.zero_le 2)
  have text := text_stable.mono (Nat.zero_le 2)
  refine ⟨?_, ?_, ?_, ?_, ?_⟩
  · exact ⟨records, nofun, records, nofun, trivial⟩
  · exact ⟨keys, nofun, trivial⟩
  · exact ⟨key, nofun, flag, nofun, flag, nofun, ordinal, nofun, trivial⟩
  · exact ⟨flag, nofun, keys, nofun, trivial⟩
  · exact ⟨key, nofun, text, nofun, trivial⟩

/-- The fields of a call round trip within bounds. -/
theorem call_roundTrip {c : Call} (h : c.InWords) : call.RoundTrip 2 c := by
  have keys : ∀ ks, (list itemKey).RoundTrips 2 ks := fun ks =>
    (list_roundTrips fun k _ => itemKey_roundTrips k).mono (Nat.le_succ 1)
  have key := fun k => (itemKey_roundTrips k).mono (Nat.zero_le 2)
  have flag := fun b => (flag_roundTrips b).mono (Nat.zero_le 2)
  -- which of the five cases the call is, and that its fields make the round trip
  simp only [TaggedUnion.RoundTrip, call, List.exists_mem_cons_iff]
  cases c with
  | visibilityChanges newly noLonger =>
    have records : ∀ {rs : List Record}, (∀ r ∈ rs, r.InWords) → (list record).RoundTrips 2 rs :=
      fun bounded => list_roundTrips fun r hr => record_roundTrips (bounded r hr)
    exact .inl ⟨_, rfl, records h.1, records h.2, trivial⟩
  | shown ks => exact .inr (.inl ⟨_, rfl, keys ks, trivial⟩)
  | expansionChanged k user expanded n =>
    have ordinal := (ordinal_roundTrips n).mono (Nat.zero_le 2)
    exact .inr (.inr (.inl ⟨_, rfl, key k, flag user, flag expanded, ordinal, trivial⟩))
  | panelShown lockscreen ks =>
    exact .inr (.inr (.inr (.inl ⟨_, rfl, flag lockscreen, keys ks, trivial⟩)))
  | itemError k message =>
    have text := (text_roundTrips message).mono (Nat.zero_le 2)
    exact .inr (.inr (.inr (.inr (.inl ⟨_, rfl, key k, text, trivial⟩))))

/-- A call makes the round trip if its numbers are words. -/
theorem call_roundTrips {c : Call} (h : c.InWords) : call.format.RoundTrips 3 c :=
  TaggedUnion.roundTrips call_lawful (call_roundTrip h)

theorem call_stable : call.format.Stable 3 := TaggedUnion.stable call_lawful call_stableCases

/-- Only calls within word range make the round trip. -/
theorem inWords_of_call {depth : Nat} {c : Call} (h : call.format.RoundTrips depth c) :
    c.InWords := by
  -- what its text is taken for has a meaning, and so its fields round trip
  obtain ⟨v, meaning, -⟩ := h.buffered
  obtain ⟨d, mem, b, view, fields⟩ := call_lawful.roundTrip_of_decode call_stableCases meaning
  cases c with
  | visibilityChanges newly noLonger =>
    have records : ∀ {rs : List Record}, (list record).RoundTrips 2 rs → ∀ r ∈ rs, r.InWords :=
      fun roundTrips r hr => inWords_of_record (roundTrips.of_mem record_stable r hr)
    simp only [call, List.mem_cons, List.not_mem_nil, or_false] at mem
    rcases mem with rfl | rfl | rfl | rfl | rfl <;> cases view
    exact ⟨records fields.1, records fields.2.1⟩
  | _ => trivial

/-! ### Configuration -/

theorem configSource_roundTrips (s : ConfigSource) : configSource.RoundTrips 0 s :=
  names_roundTrips (by decide) _ (by cases s <;> rfl)

/-- An interval that is set is not read from `null`. -/
theorem interval_neverAbsent : (word "u64").NeverAbsent :=
  map_neverAbsent (whole_neverAbsent _) _ _

/-- A section makes the round trip if the interval it sets, if any, is a word. -/
theorem visibilitySection_roundTrips {s : VisibilitySection}
    (h : ∀ n ∈ s.interval, n < wordLimit) : visibilitySection.RoundTrips 1 s := by
  have interval : (optional (word "u64")).RoundTrips 0 s.interval := by
    cases set : s.interval with
    | none => exact optional_roundTrips_none _
    | some n => exact optional_roundTrips_some interval_neverAbsent (word_roundTrips _ (h n set))
  exact map_roundTrips (Format.record_roundTrips (by decide) ⟨interval, trivial⟩) rfl

theorem interval_stable : (optional (word "u64")).Stable 0 :=
  optional_stable interval_neverAbsent (word_stable _)

/-- The interval that is taken for a missing member makes the round trip. -/
theorem unset_roundTrips (a : Option Nat) (absent : some none = some a) :
    (optional (word "u64")).RoundTrips 0 a := by
  cases absent
  exact optional_roundTrips_none _

/-- A section that was read makes the round trip, also if it sets no interval. -/
theorem visibilitySection_stable : visibilitySection.Stable 1 := by
  apply map_stable
  · exact Format.record_stable (by decide) ⟨interval_stable, unset_roundTrips, trivial⟩
  · exact fun _ _ => rfl

/-- Only sections within word range make the round trip. -/
theorem inWords_of_visibilitySection {depth : Nat} {s : VisibilitySection}
    (h : visibilitySection.RoundTrips depth s) : ∀ n ∈ s.interval, n < wordLimit := by
  obtain ⟨v, meaning, -⟩ := h.buffered
  obtain ⟨values, members, rfl⟩ := exists_of_map_eq_ok meaning
  obtain ⟨interval, -⟩ := Fields.roundTrip_of_decode members
    ⟨interval_stable, unset_roundTrips, trivial⟩
  intro n set
  rw [show values.1 = some n from set] at interval
  exact (interval.of_some (word_stable _)).lt_wordLimit

/-- The section that is taken for a missing one makes the round trip. -/
theorem silent_roundTrips (a : VisibilitySection) (absent : some ⟨none⟩ = some a) :
    visibilitySection.RoundTrips 1 a := by
  cases absent
  exact visibilitySection_roundTrips nofun

/-- A file makes the round trip if the interval it sets, if any, is a word. -/
theorem configFile_roundTrips {f : ConfigFile} (h : f.InWords) : configFile.RoundTrips 2 f :=
  map_roundTrips
    (Format.record_roundTrips (by decide) ⟨visibilitySection_roundTrips h, trivial⟩) rfl

/-- A file that was read makes the round trip, also if it has no section. -/
theorem configFile_stable : configFile.Stable 2 := by
  apply map_stable
  · exact Format.record_stable (by decide) ⟨visibilitySection_stable, silent_roundTrips, trivial⟩
  · exact fun _ _ => rfl

/-- Only files within word range make the round trip. -/
theorem inWords_of_configFile {depth : Nat} {f : ConfigFile} (h : configFile.RoundTrips depth f) :
    f.InWords := by
  obtain ⟨v, meaning, -⟩ := h.buffered
  obtain ⟨values, members, rfl⟩ := exists_of_map_eq_ok meaning
  obtain ⟨visibility, -⟩ := Fields.roundTrip_of_decode members
    ⟨visibilitySection_stable, silent_roundTrips, trivial⟩
  exact inWords_of_visibilitySection visibility

/-! ### All formats -/

/-- **Nothing is lost over the wire.**  Every value within bounds is read back from its text, and
    every value that is read from a text, however it was spelled, is within bounds and is read back
    from its own text. -/
theorem all_lossless :
    itemKey.Lossless (fun _ => True) ∧
    locationKind.Lossless (fun _ => True) ∧
    record.Lossless Record.InWords ∧
    candidate.Lossless (fun _ => True) ∧
    barState.Lossless (fun _ => True) ∧
    triState.Lossless (fun _ => True) ∧
    expansionChange.Lossless (fun _ => True) ∧
    call.format.Lossless Call.InWords ∧
    configSource.Lossless (fun _ => True) ∧
    configFile.Lossless ConfigFile.InWords := by
  refine ⟨?_, ?_, ?_, ?_, ?_, ?_, ?_, ?_, ?_, ?_⟩
  · exact lossless_of_forall itemKey_roundTrips (by decide)
  · exact lossless_of_forall locationKind_roundTrips (by decide)
  · exact record_stable.lossless (by decide) fun _ => ⟨inWords_of_record, record_roundTrips⟩
  · exact lossless_of_forall candidate_roundTrips (by decide)
  · exact lossless_of_forall barState_roundTrips (by decide)
  · exact lossless_of_forall triState_roundTrips (by decide)
  · exact lossless_of_forall expansionChange_roundTrips (by decide)
  · exact call_stable.lossless (by decide) fun _ => ⟨inWords_of_call, call_roundTrips⟩
  · exact lossless_of_forall configSource_roundTrips (by decide)
  · exact configFile_stable.lossless (by decide) fun _ =>
      ⟨inWords_of_configFile, configFile_roundTrips⟩

/-- A call with the largest rank there is and with a key in which every character is escaped, and
    the text that it was written to. -/
theorem readAll_write_largest :
    let c : Call := .visibilityChanges [⟨⟨"\"\\\n\u0001"⟩, 18446744073709551615, 0, true, .gone⟩] []
    c.InWords ∧ call.format.readAll (call.format.write c) = .ok c ∧
      ∃ cs, call.format.readAll cs = .ok c ∧ call.format.readAll (call.format.write c) = .ok c := by
  intro c
  have bounded : c.InWords := by decide
  obtain ⟨-, -, -, -, -, -, -, ⟨encoded, accepted⟩, -⟩ := all_lossless
  have reads := encoded c bounded
  exact ⟨bounded, reads, _, reads, (accepted _ c reads).2⟩

end Wire

end OnScreen
