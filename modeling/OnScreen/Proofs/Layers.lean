import OnScreen.Program
import OnScreen.Proofs.Overrides
import OnScreen.Proofs.Spelling

namespace OnScreen

/-!
# Which layer sets the interval

The layers of the configuration lie upon each other: the command line, the environment, the file,
and what is built in.  The highest layer that says anything about the interval supplies it.

* `Layers.Supplies` — a layer supplies the interval.
* `Layers.supplies_iff` — some layer does, and only one.
* `Layers.config_eq_ok_iff` — the configuration that comes out, if any does.
* `Layers.FoundBy.configure_iff` — a run of the program is configured by its layers.
* `highest_layer_wins` — which interval results, and when there is a configuration at all.
* `source_is_supplier_or_silent_file` — which layer is named as the source.
* `silent_file_named_as_source` — a file that sets nothing is named all the same.
-/

/-- What a configuration is put together from. -/
structure Layers where
  /-- The configuration file with its path, if there is one. -/
  file : Option (String × ConfigFile)
  /-- The value of the environment variable, if it is set. -/
  environment : Option String
  /-- The override, if there is one. -/
  commandLine : Option Nat

namespace Layers

/-- The configuration that the layers make. -/
def config (x : Layers) : Except ConfigError Config := do
  let c ← Config.resolve x.file x.environment
  let (c, verdict) := c.override x.commandLine
  verdict
  .ok c

/-! ### Who supplies the interval -/

/-- A layer sets the interval to a number. -/
def Sets (x : Layers) (l : ConfigSource) (ms : Nat) : Prop :=
  match l with
  | .commandLine => x.commandLine = some ms
  | .environment => ∃ text, x.environment = some text ∧ Spells text ms
  | .file => ∃ path, x.file = some (path, ⟨⟨some ms⟩⟩)
  | .builtIn => ms = 500

/-- A layer supplies the interval: it sets it, and no layer above it does. -/
def Supplies (x : Layers) (l : ConfigSource) (ms : Nat) : Prop :=
  x.Sets l ms ∧ ∀ above, above.index < l.index → ∀ other, ¬x.Sets above other

/-- The layers without the command line. -/
def below (x : Layers) : Layers := { x with commandLine := none }

/-- What each layer says, as far as it can be understood. -/
def said (x : Layers) : ConfigSource → Option Nat
  | .commandLine => x.commandLine
  | .environment => x.environment.bind wordOfText?
  | .file => x.file.bind fun f => f.2.visibility.interval
  | .builtIn => some 500

/-- A layer sets the interval to what it says, as far as that can be understood. -/
theorem sets_iff (x : Layers) (l : ConfigSource) (ms : Nat) : x.Sets l ms ↔ x.said l = some ms := by
  cases l with
  | commandLine => rfl
  | environment => simp [Sets, said, Option.bind_eq_some_iff, wordOfText?_eq_some_iff]
  | file =>
    constructor
    · rintro ⟨path, file⟩
      simp [said, file]
    · intro h
      obtain ⟨⟨path, ⟨⟨interval⟩⟩⟩, file, rfl⟩ := Option.bind_eq_some_iff.1 h
      exact ⟨path, file⟩
  | builtIn => simp [Sets, said, eq_comm]

/-- The layer that supplies the interval, and the interval. -/
def supplier (x : Layers) : ConfigSource × Nat :=
  match x.said .commandLine, x.said .environment, x.said .file with
  | some ms, _, _ => (.commandLine, ms)
  | none, some ms, _ => (.environment, ms)
  | none, none, some ms => (.file, ms)
  | none, none, none => (.builtIn, 500)

/-- Exactly one layer supplies the interval. -/
theorem supplies_iff (x : Layers) (l : ConfigSource) (ms : Nat) :
    x.Supplies l ms ↔ x.supplier = (l, ms) := by
  have silent : (∀ above, above.index < l.index → ∀ other, ¬x.Sets above other) ↔
      ∀ above, above.index < l.index → x.said above = none := by
    simp only [sets_iff, Option.eq_none_iff_forall_ne_some, ne_eq]
  have layers : ∀ p : ConfigSource → Prop,
      (∀ above, p above) ↔ p .commandLine ∧ p .environment ∧ p .file ∧ p .builtIn := by
    intro p
    constructor
    · intro h
      exact ⟨h _, h _, h _, h _⟩
    · rintro ⟨commandLine, environment, file, builtIn⟩ above
      cases above <;> assumption
  have builtIn : x.said .builtIn = some 500 := rfl
  rw [Supplies, sets_iff, silent, layers, supplier]
  -- which of the three layers say anything, and which layer is asked about
  cases commandLine : x.said .commandLine <;> cases environment : x.said .environment <;>
    cases file : x.said .file <;> cases l <;>
    simp [builtIn, commandLine, environment, file, ConfigSource.index]

/-- An override wins over all other layers. -/
theorem supplier_of_commandLine {x : Layers} {ms : Nat} (given : x.commandLine = some ms) :
    x.supplier = (.commandLine, ms) := by
  simp [supplier, said, given]

/-- Without an override the layers below are all there are. -/
theorem below_of_silent {x : Layers} (silent : x.commandLine = none) : x.below = x := by
  rw [below, ← silent]

/-- An override comes before everything else. -/
theorem supplied_eq (x : Layers) : x.supplier.2 = x.commandLine.getD x.below.supplier.2 := by
  cases given : x.commandLine with
  | none => rw [below_of_silent given, Option.getD_none]
  | some ms => rw [supplier_of_commandLine given, Option.getD_some]

/-! ### What comes out -/

/-- The configuration that the layers put in place, whatever becomes of it: the interval that is
    supplied, and the layer that supplies it.  A file is named in place of what is built in, even if
    it says nothing. -/
def outcome (x : Layers) : Config where
  interval := x.supplier.2
  filePath := x.file.map Prod.fst
  source := if x.supplier.1 = .builtIn ∧ x.file.isSome then .file else x.supplier.1

/-- The file and the environment put in place what they supply. -/
theorem merged_eq (x : Layers) :
    (match x.file with
      | some (path, file) => Config.builtIn.withFile path file
      | none => Config.builtIn).withEnvironment x.environment = x.below.outcome := by
  obtain ⟨file, environment, commandLine⟩ := x
  rw [outcome, supplier]
  simp only [below, said, Config.withEnvironment]
  -- a variable that can be read is above the file, whatever the file says
  rcases Option.eq_none_or_eq_some (environment.bind wordOfText?) with read | ⟨ms, read⟩
  · simp only [read]
    cases file with
    | none => rfl
    | some f =>
      obtain ⟨path, ⟨⟨interval⟩⟩⟩ := f
      cases interval <;> rfl
  · simp only [read]
    cases file <;> rfl

/-- What they put in place is judged. -/
theorem resolve_eq (x : Layers) :
    Config.resolve x.file x.environment =
      (x.below.outcome.validate.bind fun _ => .ok x.below.outcome) := by
  rw [← merged_eq]
  rfl

/-- The override replaces what the layers below have come to, and nothing without one. -/
theorem override_below (x : Layers) :
    (x.below.outcome.override x.commandLine).1 = x.outcome := by
  cases given : x.commandLine with
  | none =>
    rw [below_of_silent given]
    rfl
  | some ms =>
    have supplied := supplier_of_commandLine given
    rw [outcome, outcome, supplied]
    rfl

/-- What the layers below the command line supply is judged first, and then what all of them do. -/
theorem config_eq (x : Layers) :
    x.config = x.below.outcome.validate.bind fun _ => x.outcome.validate.bind fun _ =>
      .ok x.outcome := by
  -- the second judgement is of the override on top of all layers
  have judged : (x.below.outcome.override x.commandLine).2 = x.outcome.validate := by
    rw [Config.override_result, override_below]
  rw [config, resolve_eq]
  cases x.below.outcome.validate with
  | error e => rfl
  | ok _ =>
    show ((x.below.outcome.override x.commandLine).2.bind fun _ =>
      .ok (x.below.outcome.override x.commandLine).1) = _
    rw [judged, override_below]
    rfl

/-- There is a configuration just if what the layers below the command line supply is in range, and
    what all of them supply is too. -/
theorem config_eq_ok_iff (x : Layers) (c : Config) :
    x.config = .ok c ↔ InRange x.below.supplier.2 ∧ InRange x.supplier.2 ∧ c = x.outcome := by
  show _ ↔ InRange x.below.outcome.interval ∧ InRange x.outcome.interval ∧ c = x.outcome
  rw [config_eq, ← Config.validate_eq_ok_iff, ← Config.validate_eq_ok_iff]
  cases x.below.outcome.validate <;> cases x.outcome.validate <;> simp [Except.bind, eq_comm]

/-- The interval, or the reason why there is none, depends on nothing but what is supplied. -/
theorem map_interval_congr {x y : Layers} (commandLine : x.commandLine = y.commandLine)
    (below : x.below.supplier.2 = y.below.supplier.2) :
    x.config.map Config.interval = y.config.map Config.interval := by
  -- above equal layers, equal overrides supply equal intervals
  have all : x.supplier.2 = y.supplier.2 := by
    rw [x.supplied_eq, y.supplied_eq, commandLine, below]
  have low : x.below.outcome.validate = y.below.outcome.validate := Config.validate_congr below
  have high : x.outcome.validate = y.outcome.validate := Config.validate_congr all
  rw [config_eq, config_eq, low, high]
  cases y.below.outcome.validate with
  | error e => rfl
  | ok _ =>
    cases y.outcome.validate with
    | error e => rfl
    | ok _ => exact congrArg Except.ok all

/-! ### Runs -/

/-- The layers that a run of the program finds. -/
structure FoundBy (x : Layers) (a : Arguments) (s : Surroundings) : Prop where
  file : Config.readFile s.config = .ok x.file
  environment : s.interval = x.environment
  commandLine : a.interval = x.commandLine

/-- A run is configured by its layers. -/
theorem FoundBy.configure_iff {x : Layers} {a : Arguments} {s : Surroundings} (h : x.FoundBy a s)
    (c : Config) : Program.configure a s = .ok c ↔ x.config = .ok c := by
  -- what was found is what the layers say
  have loaded : Config.load s.config s.interval = Config.resolve x.file x.environment := by
    rw [Config.load, h.file, h.environment]
    rfl
  rw [Program.configure, config, loaded, h.commandLine]
  cases Config.resolve x.file x.environment with
  | error e => exact iff_of_false nofun nofun
  | ok merged =>
    simp only [bind, Except.bind]
    rcases merged.override x.commandLine with ⟨after, e | ⟨⟩⟩
    · exact iff_of_false nofun nofun
    · simp

end Layers

/-! ### All layers -/

/-- **The highest layer wins.**  Below the command line there is one interval that the highest layer
    supplies: that of the environment if it spells a number, else that of the file, else 500.

    * There is a configuration just if this interval is in range, and so is the override if there is
      one.
    * Its interval is that of the override, or else this one, and is in range in any case.
    * A variable that spells no number might as well not be set.
    * Where the variable spells a number, the file makes no difference to the interval.

    All of this goes for the layers that a run of the program finds. -/
theorem highest_layer_wins (x : Layers) :
    ∃ selected, (∀ ms, (∃ l, x.below.Supplies l ms) ↔ ms = selected) ∧
      ((∃ c, x.config = .ok c) ↔ InRange selected ∧ ∀ ms, x.commandLine = some ms → InRange ms) ∧
      (∀ c, x.config = .ok c → c.interval = x.commandLine.getD selected ∧ InRange c.interval) ∧
      (∀ text, (∀ ms, ¬Spells text ms) →
        ({ x with environment := some text } : Layers).config =
          ({ x with environment := none } : Layers).config) ∧
      (∀ text ms, Spells text ms → ∀ file,
        ({ x with environment := some text, file := file } : Layers).config.map Config.interval =
          ({ x with environment := some text } : Layers).config.map Config.interval) ∧
      ∀ a s, x.FoundBy a s → ∀ c, Program.configure a s = .ok c ↔ x.config = .ok c := by
  refine ⟨x.below.supplier.2, fun ms => ?_, ?_, fun c made => ?_, fun text unread => ?_,
    fun text ms spelled file => ?_, fun a s found => found.configure_iff⟩
  · constructor
    · rintro ⟨l, supplies⟩
      rw [(x.below.supplies_iff l ms).1 supplies]
    · rintro rfl
      exact ⟨x.below.supplier.1, (x.below.supplies_iff _ _).2 rfl⟩
  · -- the layers below are judged first, then all of them
    have okIff : (∃ c, x.config = .ok c) ↔ InRange x.below.supplier.2 ∧ InRange x.supplier.2 := by
      simp [x.config_eq_ok_iff]
    rw [okIff, x.supplied_eq]
    cases x.commandLine with
    | none => simp
    | some ms => simp
  · obtain ⟨-, inRange, rfl⟩ := (x.config_eq_ok_iff c).1 made
    exact ⟨x.supplied_eq, inRange⟩
  · -- a variable that spells no word is like one that is not set
    have none : wordOfText? text = none :=
      Option.eq_none_iff_forall_ne_some.2 fun ms read =>
        unread ms ((wordOfText?_eq_some_iff text ms).1 read)
    simp only [Layers.config, Config.resolve, Config.withEnvironment, Option.bind_some, none,
      Option.bind_none]
  · -- and one that does is above every file
    have read := (wordOfText?_eq_some_iff text ms).2 spelled
    refine Layers.map_interval_congr rfl ?_
    simp [Layers.supplier, Layers.below, Layers.said, read]

/-- The file is out of range, the variable has a plus and a leading zero, and there is an override.
    -/
theorem highest_layer_wins_masked :
    let x : Layers := ⟨some ("tracker.toml", ⟨⟨some 70000⟩⟩), some "+0250", some 100⟩
    let a : Arguments := ⟨none, none, some 100⟩
    let s : Surroundings :=
      ⟨some ("tracker.toml", .text "[visibility]\nmin_report_interval_ms = 70000\n"), some "+0250",
        .missing⟩
    x.FoundBy a s ∧ Spells "+0250" 250 ∧ (∀ ms, ¬Spells "-1" ms) ∧
      (∃ l, x.below.Supplies l 250) ∧ (∃ c, Program.configure a s = .ok c ∧ c.interval = 100) ∧
      ({ x with environment := some "-1" } : Layers).config =
        ({ x with environment := none } : Layers).config ∧
      ({ x with file := none } : Layers).config.map Config.interval =
        x.config.map Config.interval := by
  intro x a s
  have found : x.FoundBy a s := ⟨by decide +kernel, rfl, rfl⟩
  have spelled : Spells "+0250" 250 := (wordOfText?_eq_some_iff _ _).1 (by decide)
  have unread : ∀ ms, ¬Spells "-1" ms := by
    intro ms h
    have read := (wordOfText?_eq_some_iff _ _).2 h
    have none : wordOfText? "-1" = none := by decide
    rw [none] at read
    cases read
  obtain ⟨selected, only, made, interval, unset, masked, run⟩ := highest_layer_wins x
  have supplied : ∃ l, x.below.Supplies l 250 :=
    ⟨.environment, (x.below.supplies_iff _ _).2 (by decide)⟩
  obtain rfl : 250 = selected := (only 250).1 supplied
  obtain ⟨c, config⟩ := made.2 ⟨by decide, fun ms given => Option.some.inj given ▸ by decide⟩
  exact ⟨found, spelled, unread, supplied, ⟨c, (run a s found c).2 config, (interval c config).1⟩,
    unset "-1" unread, masked "+0250" 250 spelled none⟩

/-- **The source is the supplier, or a file that is silent.**  Where a configuration comes out of
    the layers, exactly one of them supplies its interval, and this one is named as the source, with
    one exception: a file that was read is named even if it leaves the interval to what is built in.
    All of this goes for the layers that a run of the program finds. -/
theorem source_is_supplier_or_silent_file (x : Layers) (c : Config) (made : x.config = .ok c) :
    ∃ l, (∀ l' ms, x.Supplies l' ms ↔ l' = l ∧ ms = c.interval) ∧
      c.source = (if l = .builtIn ∧ x.file.isSome then .file else l) ∧
      ∀ a s, x.FoundBy a s → Program.configure a s = .ok c := by
  obtain ⟨-, -, rfl⟩ := (x.config_eq_ok_iff c).1 made
  refine ⟨x.supplier.1, fun l' ms => ?_, rfl, fun a s found => (found.configure_iff _).2 made⟩
  rw [x.supplies_iff, Prod.ext_iff]
  exact ⟨fun h => ⟨h.1.symm, h.2.symm⟩, fun h => ⟨h.1.symm, h.2.symm⟩⟩

/-- The variable spells no number, so that the file supplies the interval. -/
theorem source_is_supplier_or_silent_file_read :
    let x : Layers := ⟨some ("tracker.toml", ⟨⟨some 250⟩⟩), some "250ms", none⟩
    let a : Arguments := ⟨none, none, none⟩
    let s : Surroundings :=
      ⟨some ("tracker.toml", .text "[visibility]\nmin_report_interval_ms = 250\n"), some "250ms",
        .missing⟩
    x.config = .ok ⟨250, some "tracker.toml", .file⟩ ∧
      (∀ l ms, x.Supplies l ms ↔ l = .file ∧ ms = 250) ∧ x.FoundBy a s ∧
      Program.configure a s = .ok ⟨250, some "tracker.toml", .file⟩ := by
  intro x a s
  have made : x.config = .ok ⟨250, some "tracker.toml", .file⟩ := by decide
  have found : x.FoundBy a s := ⟨by decide +kernel, rfl, rfl⟩
  have supplies : x.Supplies .file 250 := (x.supplies_iff _ _).2 (by decide)
  obtain ⟨l, only, -, run⟩ := source_is_supplier_or_silent_file x _ made
  obtain ⟨rfl, -⟩ := (only _ _).1 supplies
  exact ⟨made, only, found, run a s found⟩

/-- Nobody sets the interval, so it is the one that is built in; the file that was read is named as
    its source. -/
theorem silent_file_named_as_source :
    let x : Layers := ⟨some ("tracker.toml", ⟨⟨none⟩⟩), none, none⟩
    let s : Surroundings := ⟨some ("tracker.toml", .text "[visibility]\n"), none, .missing⟩
    x.Supplies .builtIn 500 ∧ x.FoundBy ⟨none, none, none⟩ s ∧
      Program.configure ⟨none, none, none⟩ s = .ok ⟨500, some "tracker.toml", .file⟩ :=
  ⟨(Layers.supplies_iff _ _ _).2 (by decide), ⟨by decide +kernel, rfl, rfl⟩, by decide +kernel⟩

end OnScreen
