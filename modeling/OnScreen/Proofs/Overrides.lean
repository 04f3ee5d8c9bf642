import Mathlib.Data.List.Induction
import Mathlib.Data.List.ReduceOption
import OnScreen.Config

namespace OnScreen

/-!
# Overrides that are rejected

An override from the command line is put in place first and judged afterwards.  One that is rejected
is still there when the call has failed: the configuration is out of range from then on, and calls
without an override fail too, until another override takes its place.

* `InRange`, `Config.validate_eq_ok_iff` — the intervals that pass.
* `Config.overridden` — a configuration after several overrides, with what is in place then
  (`overridden_interval`, `overridden_source`).
* `rejected_overrides_stay` — what a rejected override leaves behind, and which sequences of
  overrides keep a configuration in range.
* `rejected_override_left_in_place` — a valid configuration that a failed call has spoiled.
-/

/-- The intervals a configuration may have, in milliseconds. -/
def InRange (ms : Nat) : Prop := 1 ≤ ms ∧ ms ≤ 60000

instance (ms : Nat) : Decidable (InRange ms) := inferInstanceAs (Decidable (1 ≤ ms ∧ ms ≤ 60000))

namespace Config

/-! ### One override -/

/-- A configuration passes its check just if its interval is in range. -/
theorem validate_eq_ok_iff (c : Config) : c.validate = .ok () ↔ InRange c.interval := by
  rw [validate, InRange, mostInterval]
  by_cases zero : c.interval = 0
  · simp [zero]
  · by_cases large : 60000 < c.interval
    · have out : ¬c.interval ≤ 60000 := by omega
      simp [zero, large, out]
    · have low : 1 ≤ c.interval := by omega
      have high : c.interval ≤ 60000 := by omega
      simp [zero, large, low, high]

/-- Nothing but the interval is judged. -/
theorem validate_congr {c d : Config} (h : c.interval = d.interval) : c.validate = d.validate := by
  rw [validate, validate, h]

/-- A call judges what it leaves behind. -/
theorem override_result (c : Config) (o : Option Nat) :
    (c.override o).2 = (c.override o).1.validate := rfl

/-- An override puts its number in place, in range or not. -/
@[simp] theorem override_interval (c : Config) (o : Option Nat) :
    (c.override o).1.interval = o.getD c.interval := by
  cases o <;> rfl

/-- It does not touch the path of the file. -/
@[simp] theorem override_filePath (c : Config) (o : Option Nat) :
    (c.override o).1.filePath = c.filePath := by
  cases o <;> rfl

/-- It names itself as the source, in range or not. -/
@[simp] theorem override_source (c : Config) (o : Option Nat) :
    (c.override o).1.source = if o = none then c.source else .commandLine := by
  cases o <;> rfl

/-- A call leaves the configuration alone just if it puts nothing in place that is not there. -/
theorem override_eq_self_iff (c : Config) (o : Option Nat) :
    (c.override o).1 = c ↔ ∀ ms ∈ o, c.interval = ms ∧ c.source = .commandLine := by
  obtain ⟨interval, filePath, source⟩ := c
  cases o with
  | none => simp [override]
  | some ms => simp [override, eq_comm]

/-! ### Several overrides -/

/-- The configuration after several overrides, accepted or not. -/
def overridden (c : Config) (overrides : List (Option Nat)) : Config :=
  overrides.foldl (fun c o => (c.override o).1) c

/-- One override more. -/
theorem overridden_append_singleton (c : Config) (overrides : List (Option Nat)) (o : Option Nat) :
    c.overridden (overrides ++ [o]) = ((c.overridden overrides).override o).1 := by
  rw [overridden, List.foldl_append]
  rfl

/-- The last override that was given is in place. -/
theorem overridden_interval (c : Config) (overrides : List (Option Nat)) :
    (c.overridden overrides).interval = overrides.reduceOption.getLast?.getD c.interval := by
  induction overrides using List.reverseRecOn with
  | nil => rfl
  | append_singleton overrides o ih =>
    rw [overridden_append_singleton, override_interval, ih, List.reduceOption_append]
    cases o with
    | none => simp
    | some ms => simp

/-- Overrides do not touch the path of the file. -/
theorem overridden_filePath (c : Config) (overrides : List (Option Nat)) :
    (c.overridden overrides).filePath = c.filePath := by
  induction overrides using List.reverseRecOn with
  | nil => rfl
  | append_singleton overrides o ih =>
    rw [overridden_append_singleton, override_filePath, ih]

/-- An override makes the command line the source, accepted or not. -/
theorem overridden_source (c : Config) (overrides : List (Option Nat)) :
    (c.overridden overrides).source =
      if overrides.reduceOption = [] then c.source else .commandLine := by
  induction overrides using List.reverseRecOn with
  | nil => rfl
  | append_singleton overrides o ih =>
    rw [overridden_append_singleton, override_source, ih, List.reduceOption_append]
    cases o with
    | none => simp
    | some ms => simp

theorem overridden_cons (c : Config) (o : Option Nat) (overrides : List (Option Nat)) :
    c.overridden (o :: overrides) = (c.override o).1.overridden overrides := rfl

/-- A configuration stays in range just if it begins there and every override that is given is. -/
theorem always_inRange_iff (c : Config) (overrides : List (Option Nat)) :
    (∀ front, front <+: overrides → InRange (c.overridden front).interval) ↔
      InRange c.interval ∧ ∀ ms ∈ overrides.reduceOption, InRange ms := by
  induction overrides generalizing c with
  | nil =>
    simp only [List.prefix_nil, forall_eq]
    simp [overridden]
  | cons o overrides ih =>
    -- the prefixes are the empty one, and those of the rest behind the first override
    have first : (∀ front, front <+: o :: overrides → InRange (c.overridden front).interval) ↔
        InRange c.interval ∧
          ∀ front, front <+: overrides → InRange ((c.override o).1.overridden front).interval := by
      constructor
      · intro h
        refine ⟨h [] List.nil_prefix, fun front later => ?_⟩
        rw [← overridden_cons]
        exact h (o :: front) ((List.prefix_cons_inj o).2 later)
      · rintro ⟨now, later⟩ front h
        rcases List.prefix_cons_iff.1 h with rfl | ⟨rest, rfl, tail⟩
        · exact now
        · rw [overridden_cons]
          exact later rest tail
    rw [first, ih, override_interval]
    cases o with
    | none => simp
    | some ms => simp

end Config

/-- **Rejected overrides stay.**  Whatever overrides have been tried on a configuration, the last
    one that was given is in place, with the command line as the source, whether it was accepted or
    not.  One more call

    * succeeds just if the last interval given, or else the one from the start, is in range, so that
      after a rejected override a call without one fails as well;
    * leaves the configuration alone just if it gives nothing, or what an earlier call has put
      there.

    So the configuration validates before and after every call just if it did at the start and no
    override was out of range. -/
theorem rejected_overrides_stay (c : Config) (overrides : List (Option Nat)) :
    let now := c.overridden overrides
    let given := overrides.reduceOption
    now = ⟨given.getLast?.getD c.interval, c.filePath,
      if given = [] then c.source else .commandLine⟩ ∧
    (∀ o, (now.override o).2 = .ok () ↔ InRange ((given ++ o.toList).getLast?.getD c.interval)) ∧
    (∀ o, (now.override o).1 = now ↔ ∀ ms ∈ o, now.interval = ms ∧ now.source = .commandLine) ∧
    ((∀ front, front <+: overrides → (c.overridden front).validate = .ok ()) ↔
      InRange c.interval ∧ ∀ ms ∈ given, InRange ms) := by
  intro now given
  refine ⟨?_, fun o => ?_, now.override_eq_self_iff, ?_⟩
  · rw [← c.overridden_interval, ← c.overridden_filePath overrides, ← c.overridden_source]
  · -- one more override is judged as what all of them leave behind
    rw [Config.override_result, Config.validate_eq_ok_iff, ← Config.overridden_append_singleton,
      Config.overridden_interval, List.reduceOption_append]
    cases o <;> rfl
  · simp only [Config.validate_eq_ok_iff]
    exact c.always_inRange_iff overrides

/-- An interval that is too large is rejected and stays: a call that overrides nothing fails, and
    one that is rejected for the same interval again changes nothing, until an interval in range
    takes its place. -/
theorem rejected_overrides_stay_until_replaced :
    let now := Config.builtIn.overridden [some 60000, none, some 60001, none]
    now = ⟨60001, none, .commandLine⟩ ∧
    (Config.builtIn.overridden [some 60000]).validate = .ok () ∧
    (now.override none).2 ≠ .ok () ∧ (now.override (some 60001)).2 ≠ .ok () ∧
    (now.override (some 60001)).1 = now ∧ (now.override (some 5)).2 = .ok () := by
  intro now
  obtain ⟨-, -, -, accepted⟩ := rejected_overrides_stay Config.builtIn [some 60000, none]
  have valid := accepted.2 ⟨by decide, by decide⟩ [some 60000] ⟨[none], rfl⟩
  obtain ⟨place, judged, alone, -⟩ :=
    rejected_overrides_stay Config.builtIn [some 60000, none, some 60001, none]
  exact ⟨place, valid, fun h => absurd ((judged none).1 h) (by decide),
    fun h => absurd ((judged (some 60001)).1 h) (by decide),
    (alone (some 60001)).2 fun ms given => by cases given; exact ⟨rfl, rfl⟩,
    (judged (some 5)).2 (by decide)⟩

/-- The built-in configuration validates.  An interval of zero is rejected, and yet it is the
    interval afterwards; from then on the configuration does not validate, and a call that overrides
    nothing fails. -/
theorem rejected_override_left_in_place :
    let c := Config.builtIn
    let spoiled := (c.override (some 0)).1
    c.validate = .ok () ∧
    (c.override (some 0)).2 =
      .error (.invalid "min_report_interval_ms must be greater than 0") ∧
    spoiled = ⟨0, none, .commandLine⟩ ∧ spoiled ≠ c ∧ spoiled.validate ≠ .ok () ∧
    (spoiled.override none).2 ≠ .ok () :=
  ⟨rfl, rfl, rfl, by decide, nofun, nofun⟩

end OnScreen
