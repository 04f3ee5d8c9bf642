import OnScreen.Proofs.Bookkeeping
import OnScreen.Proofs.Silence

namespace OnScreen

/-!
# Who is reported as expanded

A report that an item was expanded or collapsed comes from a tick, after the tick's batch, and only
for an item that the ledger has by then.  It says where the tick saw the item, not where the item
was when it was expanded, and it tells the state that was asked for last.

* `latestExpansion` — the state that was asked for last.
* `Owner.latestExpansion_of_expanded` — what is known of an item's expansion is that state.
* `Owner.changes_eq` — the changes of a tick, in terms of what it sees.
* `expansions_follow_the_ledger` — all of it at every point of every run.
-/

/-- The state that an act asks for, if it is about the expansion of the item with key `k`. -/
def Act.expands (k : ItemKey) : Act → Option Bool
  | handle _ _ (.expansionChanged key _ expanded) => if key = k then some expanded else none
  | tick _ _ | handle _ _ _ | leave _ _ => none

/-- The state that was asked for last for the item with key `k`. -/
def latestExpansion (acts : List Act) (k : ItemKey) : Option Bool := latest (Act.expands k) acts

/-- The change that a report is about. -/
def Report.change? : Report → Option ExpansionChange
  | expansion c => some c
  | visibility _ _ | panelShown _ _ | itemError _ _ => none

namespace Report

/-- A batch does not speak of expansion. -/
theorem expansion_not_mem_batch {c : ExpansionChange} {newly noLonger : List Record} :
    .expansion c ∉ batch newly noLonger := by
  rw [batch]
  split
  · exact List.not_mem_nil
  · intro hc
    cases List.mem_singleton.1 hc

/-- What comes before a report about expansion holds the whole batch that the reports begin with. -/
theorem past_batch {newly noLonger : List Record} {words earlier later : List Report}
    {c : ExpansionChange}
    (split : batch newly noLonger ++ words = earlier ++ .expansion c :: later) :
    ∃ between, earlier = batch newly noLonger ++ between ∧
      words = between ++ .expansion c :: later := by
  rcases List.append_eq_append_iff.1 split with h | ⟨rest, begins, words⟩
  · exact h
  · -- else the report would stand in the batch, or right at its end
    cases rest with
    | nil =>
      rw [List.append_nil] at begins
      rw [List.nil_append] at words
      exact ⟨[], by rw [begins, List.append_nil], words.symm⟩
    | cons r rest =>
      obtain ⟨rfl, -⟩ := List.cons.inj words
      have inside : .expansion c ∈ batch newly noLonger := by
        rw [begins]
        simp
      exact absurd inside expansion_not_mem_batch

end Report

namespace Owner

/-! ### What is known of an expansion -/

/-- What is known of an item's expansion after an act was asked for by the act, or was known
    before. -/
theorem expanded_perform {o : Owner} {a : Act} {k : ItemKey} {b : Bool}
    (h : ((o.perform a).1.expansions.stateOf k).expanded = some b) :
    a.expands k = some b ∨
      a.expands k = none ∧ (o.expansions.stateOf k).expanded = some b := by
  cases a with
  | tick checked m =>
    refine .inr ⟨rfl, ?_⟩
    rw [← h]
    exact (Expansions.expanded_turn o.expansions _ _ k).symm
  | leave checked ticket =>
    refine .inr ⟨rfl, ?_⟩
    rw [← h, perform, stop]
    split <;> rfl
  | handle checked m c =>
    cases c with
    | expansionChanged key user expanded =>
      -- the value is that of the command or, for another item, the one before
      have known : ((o.expansions.expand key user expanded _).1.stateOf k).expanded = some b := h
      rw [Expansions.stateOf_expand] at known
      by_cases same : k = key
      · subst same
        rw [if_pos rfl] at known
        exact .inl ((if_pos rfl).trans known)
      · rw [if_neg same] at known
        exact .inr ⟨if_neg fun e => same e.symm, known⟩
    | entryRemoved key =>
      -- of a removed item no value is known
      have known : ((o.expansions.remove key).stateOf k).expanded = some b := h
      rw [Expansions.stateOf_remove] at known
      split at known
      · cases known
      · exact .inr ⟨rfl, known⟩
    | possibleChange =>
      -- the rest of the commands say nothing about expansions
      refine .inr ⟨rfl, ?_⟩
      rw [← h, perform, handle, possibleChange]
      split <;> rfl
    | start lockscreen =>
      refine .inr ⟨rfl, ?_⟩
      rw [← h, perform, handle, start, possibleChange]
      split <;> rfl
    | stop =>
      refine .inr ⟨rfl, ?_⟩
      rw [← h, perform, handle, stop]
      split <;> rfl
    | _ => exact .inr ⟨rfl, h⟩

/-- What is known of an item's expansion is what was asked for last. -/
theorem latestExpansion_of_expanded {interval : Nat} {acts : List Act} {k : ItemKey} {b : Bool}
    (h : (((Owner.new interval).after acts).expansions.stateOf k).expanded = some b) :
    latestExpansion acts k = some b := by
  induction acts using List.reverseRecOn with
  | nil => cases h
  | append_singleton acts a ih =>
    rw [after_append, after_singleton] at h
    rw [latestExpansion, latest_append_singleton]
    -- the last act either asked for this state or left it alone
    rcases expanded_perform h with asked | ⟨quiet, known⟩
    · rw [asked]
      rfl
    · rw [quiet, Option.none_or]
      exact ih known

/-! ### The changes of a tick -/

/-- A tick judges every item that it sees by itself. -/
theorem changes_eq (o : Owner) (candidates : List Candidate) :
    o.changes candidates =
      (VisibleSet.seen candidates).filterMap fun r => (o.expansions.appear r).2 := by
  rw [changes, Expansions.turn_changes]
  exact Expansions.appearAll_changes _ (VisibleSet.nodup_keys_seen candidates)

/-- The changes that the reports of a tick are about. -/
theorem filterMap_change?_tick (o : Owner) (now : Instant) (candidates : List Candidate) :
    (Output.reports (o.tick now candidates).2).filterMap Report.change? = o.changes candidates := by
  have batch : ∀ newly noLonger, (Report.batch newly noLonger).filterMap Report.change? = [] := by
    intro newly noLonger
    rw [Report.batch]
    split <;> rfl
  rw [reports_tick, List.filterMap_append, batch, List.nil_append, List.filterMap_map]
  exact List.filterMap_some

/-- The changes of a tick come in the order of ranks, and so each item has at most one. -/
theorem pairwise_rank_changes (o : Owner) (candidates : List Candidate) :
    (o.changes candidates).Pairwise fun a b =>
      Candidate.rankOf candidates a.key < Candidate.rankOf candidates b.key := by
  rw [changes_eq, List.pairwise_filterMap]
  refine (VisibleSet.pairwise_rank_seen candidates).imp_of_mem ?_
  intro r next hr hnext lt c hc d hd
  -- both changes name the items that made them, and those stand in the order of ranks
  rw [Expansions.appear_key hc, Expansions.appear_key hd,
    ← VisibleSet.rank_of_mem_seen hr, ← VisibleSet.rank_of_mem_seen hnext]
  exact lt

/-- Only ticks report that something was expanded or collapsed. -/
theorem Consistent.eq_tick_of_change {o : Owner} (h : o.Consistent) {a : Act}
    {c : ExpansionChange} (hc : .expansion c ∈ Output.reports (o.perform a).2) :
    ∃ checked m, a = .tick checked m := by
  have stop : .expansion c ∉ Output.reports o.stop.2 := by
    rw [Owner.stop]
    split
    · show .expansion c ∉ Output.reports (o.visible.takeAll.2.toList.map _)
      rw [reports_takeAll]
      exact Report.expansion_not_mem_batch
    · exact List.not_mem_nil
  cases a with
  | tick checked m => exact ⟨checked, m, rfl⟩
  | leave checked ticket => exact absurd hc stop
  | handle checked m command =>
    cases command with
    | stop => exact absurd hc stop
    | expansionChanged key user expanded =>
      -- the aggregated states take no item for visible between two acts
      rw [Owner.perform, h.expansionChanged_quiet] at hc
      cases hc
    | start lockscreen => cases List.mem_singleton.1 hc
    | itemError key message => cases List.mem_singleton.1 hc
    | _ => cases hc

/-! ### A report within a tick -/

/-- What a tick knows about an item that it reports as expanded or collapsed. -/
theorem says_of_mem_changes {o : Owner} {candidates : List Candidate} {c : ExpansionChange}
    (hc : c ∈ o.changes candidates) :
    (∃ r ∈ VisibleSet.seen candidates, r.key = c.key) ∧
      (Candidate.firstVisible? candidates c.key).map Candidate.kind = some c.location ∧
      (o.expansions.stateOf c.key).expanded = some c.expanded := by
  rw [changes_eq, List.mem_filterMap] at hc
  -- the change comes from a record that the tick sees
  obtain ⟨r, hr, hc⟩ := hc
  have key := Expansions.appear_key hc
  obtain ⟨location, expanded⟩ := Expansions.appear_says hc
  refine ⟨⟨r, hr, key.symm⟩, ?_, ?_⟩
  · rw [key, location]
    exact VisibleSet.location_of_mem_seen hr
  · rw [key]
    exact expanded

/-- Where a report about expansion stands among the reports of a tick: after the batch, if there is
    one. -/
theorem split_reports_tick {o : Owner} {now : Instant} {candidates : List Candidate}
    {earlier later : List Report} {c : ExpansionChange}
    (split : Output.reports (o.tick now candidates).2 = earlier ++ .expansion c :: later) :
    ∃ before after, o.changes candidates = before ++ c :: after ∧
      earlier = Report.batch (o.visible.tick candidates).2.newly
        (o.visible.tick candidates).2.noLonger ++ before.map Report.expansion ∧
      later = after.map Report.expansion := by
  rw [reports_tick] at split
  -- a change is no batch, so it stands behind the batch of the tick
  obtain ⟨between, rfl, words⟩ := Report.past_batch split
  obtain ⟨before, rest, changes, rfl, tail⟩ := List.map_eq_append_iff.1 words
  obtain ⟨d, after, rfl, same, rfl⟩ := List.map_eq_cons_iff.1 tail
  cases same
  exact ⟨before, after, changes, rfl, rfl⟩

/-- An item that a tick reports as expanded or collapsed is on the ledger by then. -/
theorem mem_ledger_of_tick {o : Owner} (h : o.Consistent) {reports : List Report}
    (balanced : Balanced o.visible reports) {now : Instant} {candidates : List Candidate}
    {earlier later : List Report} {c : ExpansionChange}
    (split : Output.reports (o.tick now candidates).2 = earlier ++ .expansion c :: later) :
    c.key ∈ (Ledger.ofReports (reports ++ earlier)).keys := by
  obtain ⟨before, after, changes, rfl, -⟩ := split_reports_tick split
  have turnover := VisibleSet.tick_turnover h.distinct candidates
  have balanced := (balanced.append_batch? turnover).append_all_quiet
    (Report.isBatch_of_mem_expansions before)
  have mem : c ∈ o.changes candidates := by
    rw [changes]
    simp
  obtain ⟨⟨r, hr, key⟩, -⟩ := says_of_mem_changes mem
  rw [← List.append_assoc, balanced.same, VisibleSet.isVisible_iff, ← key]
  -- the tick keeps what it sees
  exact List.mem_map_of_mem hr

end Owner

/-! ### Runs of the loop -/

/-- **Who is reported as expanded.**  Every report of a run that an item was expanded or collapsed
    comes from a tick, after the tick's batch, and the item is on the ledger by then.  The report
    says where the first visible candidate with this key stands in the list that the tick reads, and
    tells what was asked for last.  The reports of one tick follow the order of the list, no two
    about the same item. -/
theorem expansions_follow_the_ledger (interval : Nat) (events : List Event) :
    let run := Run.of interval events
    let owner := Owner.new interval
    (∀ earlier c later, run.reports = earlier ++ .expansion c :: later →
      c.key ∈ (Ledger.ofReports earlier).keys ∧
      ∃ done checked m ahead before rest, run.acts = done ++ .tick checked m :: ahead ∧
        Output.reports ((owner.after done).tick m.now m.candidates).2 =
          before ++ .expansion c :: rest ∧
        earlier = owner.reports done ++ before ∧ (∀ r ∈ rest, r.isBatch = false) ∧
        (Candidate.firstVisible? m.candidates c.key).map Candidate.kind = some c.location ∧
        latestExpansion done c.key = some c.expanded) ∧
    (∀ done checked m ahead, run.acts = done ++ .tick checked m :: ahead →
      let changes := (Output.reports ((owner.after done).tick m.now m.candidates).2).filterMap
        Report.change?
      changes.Pairwise (fun b c =>
        Candidate.rankOf m.candidates b.key < Candidate.rankOf m.candidates c.key) ∧
      (changes.map ExpansionChange.key).Nodup) := by
  intro run owner
  have accounted := Run.of_accounted interval events
  have words : owner.reports run.acts = run.reports := congrArg Output.reports accounted.said
  refine ⟨fun earlier c later here => ?_, fun done checked m ahead _ => ?_⟩
  · rw [← words] at here
    -- find the act that reports the change: it is a tick
    obtain ⟨done, a, ahead, before, rest, acts, said, rfl, -⟩ := Owner.act_of_report here
    have allowed := (Run.reports_of_acts_eq acts).1
    have h : (owner.after done).Consistent := Owner.consistent_after allowed
    have spoken : .expansion c ∈ Output.reports ((owner.after done).perform a).2 := by
      rw [said]
      simp
    obtain ⟨checked, m, rfl⟩ := h.eq_tick_of_change spoken
    obtain ⟨sooner, after, changes, -, rfl⟩ := Owner.split_reports_tick said
    have mem : c ∈ (owner.after done).changes m.candidates := by
      rw [changes]
      simp
    obtain ⟨-, location, expanded⟩ := Owner.says_of_mem_changes mem
    have ledger := Owner.mem_ledger_of_tick h (Owner.balanced_after allowed) said
    exact ⟨ledger, done, checked, m, ahead, before, _, acts, said, rfl,
      Report.isBatch_of_mem_expansions _, location, Owner.latestExpansion_of_expanded expanded⟩
  · have ordered := (owner.after done).pairwise_rank_changes m.candidates
    rw [← Owner.filterMap_change?_tick (owner.after done) m.now] at ordered
    refine ⟨ordered, List.pairwise_map.2 (ordered.imp ?_)⟩
    -- items of different rank are different items
    rintro b c lt same
    rw [same] at lt
    exact Nat.lt_irrefl _ lt

/-- An item that moved after it was expanded is reported where the tick sees it. -/
theorem expansions_follow_the_ledger_moved :
    let key : ItemKey := ⟨"a"⟩
    let before : Moment := ⟨0, []⟩
    let seen : Moment := ⟨0, [⟨key, true, some 4⟩, ⟨key, true, some 8⟩]⟩
    let events := [Command.expansionChanged key true true, .start false].map .sent ++
      .replicate 9 (.turned .command ⟨0, seen, before⟩)
    let earlier : List Report :=
      [.panelShown false [], .visibility [⟨key, 0, 2, true, .mainArea⟩] []]
    (Run.of 500 events).reports = earlier ++ [.expansion ⟨key, true, true, .mainArea⟩] ∧
      key ∈ (Ledger.ofReports earlier).keys := by
  intro key before seen events earlier
  have reports : (Run.of 500 events).reports =
      earlier ++ [.expansion ⟨key, true, true, .mainArea⟩] := by decide +kernel
  exact ⟨reports, ((expansions_follow_the_ledger 500 events).1 _ _ _ reports).1⟩

end OnScreen
