import Mathlib.Data.Fin.Tuple.Take
import Mathlib.Data.List.Permutation
import OnScreen.Program
import OnScreen.Proofs.ReplayTiming
import OnScreen.Proofs.ScriptText

namespace OnScreen

/-!
# Replays

A replay applies all of a script or nothing, and whoever reads what it writes can keep books that
are closed in the end.

* `Program.run_of_bad`, `Program.run_of_good` — what the program makes of a script.
* `replay_closes_its_books` — the main result.
-/

namespace Program

variable {a : Arguments} {s : Surroundings} {config : Config} {text : String}

/-- A script that cannot be read is refused as such. -/
theorem run_of_bad (configured : configure a s = .ok config) (script : s.script = .text text)
    {e : ScriptError} (bad : Script.read text.toList = .error e) :
    run a s = .error (.badScript e) := by
  have steps : readSteps a s = .error (.badScript e) := by
    simp only [readSteps, script, bad]
  rw [run, plan, configured, steps]
  rfl

/-- A script that can be read is replayed at the configured interval. -/
theorem run_of_good (configured : configure a s = .ok config) (script : s.script = .text text)
    {steps : List Step} (good : Script.read text.toList = .ok steps) {o : Replay.Outcome}
    (replayed : Replay.run config.interval none steps = .ok o) : run a s = .ok o := by
  have read : readSteps a s = .ok steps := by
    simp only [readSteps, script, good]
  rw [run, plan, configured, read]
  show perform ⟨config, steps⟩ = .ok o
  rw [perform, replayed]

end Program

/-- **A replay is all or nothing, and closes its books.**  Whatever the configuration and whatever
    is asked for behind the last step:
    * If a line that is not skipped is no step, the program fails with the first such line, and the
      replay is refused and writes no line, whatever happens.
    * Otherwise every line that is not skipped is a step.  Then the driver never fails, whatever
      happens and in whatever order, and can always come to its end.  Once it has finished, all the
      steps were applied, and what is written are the lines of calls that books can be kept from and
      that leave nobody visible.  Reading the lines gives these calls; ranks are words, so no list
      may be longer than a word can count.
    * And the program itself comes to its end, by one of the ways in which this can happen. -/
theorem replay_closes_its_books {a : Arguments} {s : Surroundings} {config : Config} {text : String}
    (configured : Program.configure a s = .ok config) (script : s.script = .text text)
    (f : Farewell) :
    let course := fun f => Course.of f config.interval text.toList
    ((∃ line ∈ Text.lines text.toList,
        Script.isSkipped line = false ∧ ∀ step, Step.ofLine line ≠ .ok step) →
      ∃ e, Program.run a s = .error (.badScript e) ∧
        ∀ happenings, (course f happenings).driver = .refused e ∧ (course f happenings).lines = []) ∧
    ((∀ line ∈ Text.lines text.toList,
        Script.isSkipped line = true ∨ ∃ step, Step.ofLine line = .ok step) →
      ∃ steps, Script.read text.toList = .ok steps ∧
        (∀ happenings,
          (∀ e, (course f happenings).driver ≠ .refused e) ∧
          (∀ e, (course f happenings).driver ≠ .failed e) ∧
          (∃ more, (course f (happenings ++ more)).driver = .finished) ∧
          ((course f happenings).driver = .finished →
            (course f happenings).applied = steps ∧
            ∃ calls : List Call, (course f happenings).lines = calls.map LineSink.lineOf ∧
              Call.ClosedBooks calls ∧
              ((∀ items, .list items ∈ steps → items.length < wordLimit) →
                (course f happenings).lines.map Wire.call.format.readAll = calls.map .ok))) ∧
        ∃ o happenings, Program.run a s = .ok o ∧ o.ended = true ∧
          (course Replay.farewell happenings).driver = .finished ∧
          (course Replay.farewell happenings).lines = o.lines) := by
  intro course
  constructor
  · rintro ⟨line, mem, visible, nothing⟩
    cases read : Script.read text.toList with
    | ok steps =>
      -- a script with a line that cannot be read is not read
      obtain ⟨good, -⟩ := Script.readLines_eq_ok_iff.1 read
      rcases good line mem with skipped | ⟨step, reads⟩
      · rw [visible] at skipped
        cases skipped
      · exact absurd reads (nothing step)
    | error e =>
      refine ⟨e, Program.run_of_bad configured script read, fun happenings => ?_⟩
      -- the driver refused at the start, and nothing happens afterwards
      have still : course f happenings = Course.start config.interval text.toList :=
        Course.of_refused read happenings
      have driver : (Course.start config.interval text.toList).driver = .refused e := by
        simp only [Course.start, read]
      rw [still]
      exact ⟨driver, rfl⟩
  · intro good
    have read : Script.read text.toList = .ok (Script.stepsOf (Text.lines text.toList)) :=
      Script.readLines_of_good good 1
    refine ⟨_, read, fun happenings => ?_, ?_⟩
    · -- whatever happens, the course stays sound, and all clauses follow from that
      have sound : (course f happenings).Sound f config.interval _ := Course.sound_of read happenings
      refine ⟨sound.driver_ne_refused, sound.driver_ne_failed, Course.can_finish read happenings, ?_⟩
      exact fun finished => ⟨(sound.finished finished).1, sound.closedBooks finished⟩
    · obtain ⟨o, replayed, ended, -, happenings, finished, lines⟩ :=
        Course.exists_finished_as_program read config.interval
      exact ⟨o, happenings, Program.run_of_good configured script read replayed, ended, finished,
        lines⟩

/-- A script that expands an item and leaves the panel open. -/
theorem replay_closes_its_books_left_open :
    let steps : List Step :=
      [.list [⟨⟨"a"⟩, true, some 1⟩, ⟨⟨"b"⟩, true, none⟩], .dozing false, .barState .shade,
        .panelExpanded true, .wait 1000, .expansion ⟨"a"⟩ true true, .signal]
    let text := String.ofList (Script.Layout.plain steps).text
    let a : Arguments := ⟨none, none, none⟩
    let s : Surroundings := ⟨none, none, .text text⟩
    Program.configure a s = .ok ⟨500, none, .builtIn⟩ ∧ s.script = .text text ∧
      ∃ o happenings, Program.run a s = .ok o ∧
        (Course.of Replay.farewell 500 text.toList happenings).driver = .finished ∧
        (Course.of Replay.farewell 500 text.toList happenings).applied = steps ∧
        ∃ calls : List Call, o.lines.map Wire.call.format.readAll = calls.map .ok ∧
          calls.length = 5 ∧ Call.ClosedBooks calls := by
  intro steps text a s
  have bounded : ∀ step ∈ steps, step.InWords := by decide
  obtain ⟨good, read⟩ := Script.Layout.read_text (l := .plain steps)
    (Script.Layout.plain_steps steps ▸ bounded)
  have same : text.toList = (Script.Layout.plain steps).text := String.toList_ofList
  rw [Script.Layout.plain_steps] at read
  rw [← same] at good read
  have configured : Program.configure a s = .ok ⟨500, none, .builtIn⟩ := rfl
  obtain ⟨steps', read', every, o, happenings, ran, -, finished, lines⟩ :=
    (replay_closes_its_books configured rfl Replay.farewell).2 good
  obtain rfl : steps = steps' := Except.ok.inj (read.symm.trans read')
  obtain ⟨-, -, -, books⟩ := every happenings
  obtain ⟨applied, calls, written, closed, decoded⟩ := books finished
  have short : ∀ items, .list items ∈ steps → items.length < wordLimit := by
    intro items mem
    have same : items = [⟨⟨"a"⟩, true, some 1⟩, ⟨⟨"b"⟩, true, none⟩] := by simpa [steps] using mem
    rw [same]
    decide
  -- sorting two items is no structural recursion, so the replay is evaluated by equations
  have count : (Replay.run 500 none steps).toOption.map (fun o => o.lines.length) = some 5 := by cbv
  refine ⟨configured, rfl, o, happenings, ran, finished, applied, calls, ?_, ?_, closed⟩
  · rw [← lines]
    exact decoded short
  · cases replayed : Replay.run 500 none steps with
    | error e =>
      rw [replayed] at count
      cases count
    | ok o' =>
      have same := ran.symm.trans (Program.run_of_good configured rfl read replayed)
      cases same
      rw [replayed] at count
      have five : o.lines.length = 5 := Option.some.inj count
      rwa [← lines, written, List.length_map] at five

end OnScreen
