import Mathlib.Data.List.Chain
import OnScreen.Proofs.Deadline

namespace OnScreen

/-!
# How often ticks run

A tick runs only when it is due, and a deadline that is armed after a tick lies at least one
interval behind it, however many signals, stops and new starts come in between.  So ticks keep their
distance, and only so many of them fit into a stretch of time.

* `Owner.apart_tickStarts` — any two ticks start at least one interval apart.
* `length_le_of_apart` — how many points of time with that distance fit into a stretch of time.
* `ticks_keep_their_distance` — both, for all runs.
-/

/-! ### Points of time that keep a distance -/

/-- The second point of time comes at least one interval after the first. -/
def Apart (interval : Nat) (a b : Instant) : Prop := a + interval ≤ b

instance (interval : Nat) : Trans (Apart interval) (Apart interval) (Apart interval) where
  trans hab hbc := Nat.le_trans (Nat.le_trans hab (Nat.le_add_right _ _)) hbc

/-- Into `width` there fit at most `width / interval + 1` points of time that keep their distance.
    -/
theorem length_le_of_apart {interval : Nat} (pos : 0 < interval) {times : List Nat}
    (apart : times.Pairwise fun a b => a + interval ≤ b) {first width : Nat}
    (within : ∀ t ∈ times, first ≤ t ∧ t ≤ first + width) :
    times.length ≤ width / interval + 1 := by
  induction times generalizing first width with
  | nil => exact Nat.zero_le _
  | cons t rest ih =>
    obtain ⟨behind, apart⟩ := List.pairwise_cons.1 apart
    obtain ⟨start, -⟩ := within t List.mem_cons_self
    cases rest with
    | nil => exact Nat.succ_le_succ (Nat.zero_le _)
    | cons s rest =>
      -- the rest lies in what is left of the stretch one interval later
      have room : interval ≤ width := by
        have gap := behind s List.mem_cons_self
        have stop := within s (by simp)
        omega
      have later : ∀ u ∈ s :: rest,
          first + interval ≤ u ∧ u ≤ first + interval + (width - interval) := by
        intro u hu
        have gap := behind u hu
        have stop := within u (List.mem_cons_of_mem t hu)
        omega
      have fit := ih apart later
      rw [List.length_cons, Nat.div_eq_sub_div pos room]
      omega

namespace Owner

/-! ### Ticks of the owner -/

/-- The handling of a command is no tick. -/
theorem handle_ticks (o : Owner) (now : Instant) (candidates : List Candidate) (c : Command) :
    (o.handle now candidates c).1.ticks = o.ticks := by
  cases c with
  | possibleChange =>
    -- a signal asks for a tick, and does not count one
    rw [handle, possibleChange]
    split <;> rfl
  | start lockscreen =>
    rw [handle, start, possibleChange]
    split <;> rfl
  | stop =>
    rw [handle, stop]
    split <;> rfl
  | _ => rfl

/-- The owner counts its ticks. -/
theorem ticks_after (interval : Nat) (acts : List Act) :
    ((Owner.new interval).after acts).ticks = (tickStarts acts).length := by
  induction acts using List.reverseRecOn with
  | nil => rfl
  | append_singleton acts a ih =>
    rw [after_append, after_singleton, tickStarts_append_singleton, List.length_append, ← ih]
    cases a with
    | tick checked m => rfl
    | handle checked m c => exact handle_ticks _ m.now m.candidates c
    | leave checked ticket => exact handle_ticks _ checked [] .stop

/-- A tick that comes at the right time starts one interval after the last one at the earliest. -/
theorem apart_of_allowed {interval : Nat} {acts : List Act} {checked : Instant} {m : Moment}
    (allowed : ((Owner.new interval).after acts).Allows (.tick checked m)) (looked : checked ≤ m.now)
    {last : Instant} (h : (tickStarts acts).getLast? = some last) : Apart interval last m.now := by
  obtain ⟨due, pending, come⟩ := Schedule.isDue_iff.1 allowed
  -- the pending tick was armed after the last one, for it would be armed the same way now
  obtain ⟨t, -, armed⟩ := exists_time_of_pending pending
  rw [Schedule.dueFor, lastTick_after, interval_after, h] at armed
  calc last + interval ≤ max (last + interval) t := Nat.le_max_left _ _
    _ = due := armed.symm
    _ ≤ checked := come
    _ ≤ m.now := looked

/-- Any two ticks start at least one interval apart. -/
theorem apart_tickStarts {interval : Nat} {acts : List Act}
    (allowed : (Owner.new interval).AllowsAll acts)
    (looked : ∀ a ∈ acts, ∀ t, a.time? = some t → a.checked ≤ t) :
    (tickStarts acts).Pairwise (Apart interval) := by
  -- consecutive ticks are enough
  refine List.IsChain.pairwise ?_
  induction acts using List.reverseRecOn with
  | nil => exact List.isChain_nil
  | append_singleton acts a ih =>
    rw [allowsAll_append, allowsAll_singleton] at allowed
    obtain ⟨before, now⟩ := allowed
    rw [tickStarts_append_singleton, List.isChain_append]
    refine ⟨ih before fun b hb => looked b (List.mem_append_left _ hb), ?_, ?_⟩
    · cases a <;> simp [Act.tickStart?]
    · intro last hlast t ht
      cases a with
      | tick checked m =>
        obtain rfl : m.now = t := by simpa [Act.tickStart?] using ht
        have early := looked (.tick checked m) (by simp) m.now rfl
        exact apart_of_allowed now early hlast
      | handle checked m c => cases ht
      | leave checked ticket => cases ht

end Owner

/-! ### Runs of the loop -/

/-- **Ticks keep their distance.**  Under a clock that never goes back, any two ticks of a run start
    at least one interval apart.  So at most `width / interval + 1` ticks start within any stretch
    of time of that width.  They are the ticks that the owner counts, and it remembers the last one.
    -/
theorem ticks_keep_their_distance (interval : Nat) (events : List Event)
    (clock : ClockRuns (Run.of interval events).acts) :
    let run := Run.of interval events
    let starts := tickStarts run.acts
    (run.loop.owner.ticks = starts.length ∧ run.loop.owner.schedule.lastTick = starts.getLast?) ∧
    starts.Pairwise (fun a b => a + interval ≤ b) ∧
    (0 < interval → ∀ first width,
      (starts.filter fun t => first ≤ t ∧ t ≤ first + width).length ≤ width / interval + 1) := by
  intro run starts
  have accounted := Run.of_accounted interval events
  have apart : starts.Pairwise (Apart interval) :=
    Owner.apart_tickStarts accounted.allowed clock.looked
  refine ⟨⟨?_, ?_⟩, apart, fun pos first width => ?_⟩
  · rw [← accounted.owner]
    exact Owner.ticks_after interval run.acts
  · rw [← accounted.owner]
    exact Owner.lastTick_after interval run.acts
  · have within : ∀ t ∈ starts.filter fun t => first ≤ t ∧ t ≤ first + width,
        first ≤ t ∧ t ≤ first + width := fun t ht => by simpa using (List.mem_filter.1 ht).2
    exact length_le_of_apart pos (apart.filter _) within

/-- A stop that cancels a pending tick and a new start do not bring the next tick forward, and as
    many ticks as possible run within 600 ms. -/
theorem ticks_keep_their_distance_restarted :
    let m (now : Instant) : Moment := ⟨now, []⟩
    let turn (now : Instant) : Event := .turned .command ⟨now, m now, m now⟩
    let events : List Event :=
      [.sent (.start false), turn 0, turn 0, turn 0, turn 0, .sent .possibleChange, turn 10, turn 10,
        .sent .stop, turn 20, turn 20, .sent (.start false), turn 30, turn 30, .sent (.flush 0),
        turn 600]
    let starts := tickStarts (Run.of 500 events).acts
    ClockRuns (Run.of 500 events).acts ∧ 0 < 500 ∧ starts = [0, 600] ∧
      (starts.filter fun t => 0 ≤ t ∧ t ≤ 0 + 600).length ≤ 600 / 500 + 1 := by
  intro m turn events starts
  have acts : (Run.of 500 events).acts =
      [.handle 0 (m 0) (.start false), .tick 0 (m 0), .handle 10 (m 10) .possibleChange,
        .handle 20 (m 20) .stop, .handle 30 (m 30) (.start false), .tick 600 (m 600),
        .handle 600 (m 600) (.flush 0)] := by decide +kernel
  have clock : ClockRuns (Run.of 500 events).acts := by
    rw [acts]
    exact ⟨by simp [m, Act.time?, Act.checked], by decide⟩
  obtain ⟨-, -, few⟩ := ticks_keep_their_distance 500 events clock
  exact ⟨clock, by decide, by decide +kernel, few (by decide) 0 600⟩

end OnScreen
