import Groovebox.Proofs.Grid

/-!
# Which ticks the polls dispatch

Between two changes of what plays, the sequencer is only polled, and each poll has a window from
`lookahead` before to `lookahead` after its time.  A tick is dispatched if and only if the first
poll whose window reaches past it still has it inside (`Caught`).  What is dispatched of a tick,
its step, its time and how long its notes last, depends on its number alone and on no poll: a host
that stalls loses ticks, and moves none.
-/

namespace Groovebox

/-! ## Windows -/

/-- The first poll whose window reaches past a time finds that time not yet overdue. -/
def Caught (lookahead : Rat) (polls : List Rat) (time : Rat) : Prop :=
  ∃ poll, polls.find? (fun poll => time < poll + lookahead) = some poll ∧ poll - lookahead ≤ time

theorem caught_cons_of_lt {lookahead time poll : Rat} (h : time < poll + lookahead)
    (rest : List Rat) : Caught lookahead (poll :: rest) time ↔ poll - lookahead ≤ time := by
  rw [Caught, List.find?_cons_of_pos (by simpa using h)]
  constructor
  · rintro ⟨poll', heq, hle⟩
    cases heq
    exact hle
  · intro hle
    exact ⟨poll, rfl, hle⟩

theorem caught_cons_of_le {lookahead time poll : Rat} (h : poll + lookahead ≤ time)
    (rest : List Rat) : Caught lookahead (poll :: rest) time ↔ Caught lookahead rest time := by
  rw [Caught, List.find?_cons_of_neg (by simpa using h), Caught]

/-- A time that a later poll catches is not overdue at an earlier one. -/
theorem Caught.le_of_forall_le {lookahead time poll : Rat} {polls : List Rat}
    (h : Caught lookahead polls time) (hpolls : ∀ later ∈ polls, poll ≤ later) :
    poll - lookahead ≤ time := by
  obtain ⟨later, hfind, hle⟩ := h
  have hlater : poll ≤ later := hpolls later (List.mem_of_find?_eq_some hfind)
  linarith

/-! ## Ticks by their number -/

namespace Loop

variable {τ : Type} [TimeScale τ]

/-- The tick that a loop hands out, or steps over, a number of ticks from its next one. -/
def nthTick (loop : Loop τ) (k : Nat) : Tick τ :=
  ⟨loop.id, loop.clock.timeOf (loop.nextTick + k), (loop.nextStep + k) % loop.cycle,
    loop.patterns, loop.clock.stepDuration⟩

theorem tick_advanceBy {loop : Loop τ} (h : loop.nextStep < loop.cycle) (k : Nat) :
    (loop.advanceBy k).tick = loop.nthTick k := by
  rw [tick, nthTick, id_advanceBy, nextTime_advanceBy, nextStep_advanceBy h, patterns_advanceBy,
    clock_advanceBy]

theorem nextTicks_eq_map {loop : Loop τ} (h : loop.nextStep < loop.cycle) (n : Nat) :
    loop.nextTicks n = (List.range n).map loop.nthTick := by
  rw [nextTicks]
  exact List.map_congr_left fun k _ => tick_advanceBy h k

/-- Stepping over ticks does not renumber the others. -/
theorem nthTick_skip (loop : Loop τ) (n k : Nat) :
    (loop.skip n).nthTick k = loop.nthTick (n + k) := by
  have hstep : ((loop.nextStep + n % loop.cycle) % loop.cycle + k) % loop.cycle =
      (loop.nextStep + (n + k)) % loop.cycle := by
    rw [Nat.add_mod_mod, Nat.mod_add_mod, Nat.add_assoc]
  show (⟨loop.id, loop.clock.timeOf (loop.nextTick + n + k),
    ((loop.nextStep + n % loop.cycle) % loop.cycle + k) % loop.cycle, loop.patterns,
    loop.clock.stepDuration⟩ : Tick τ) = _
  rw [hstep, Nat.add_assoc, nthTick]

/-- Handing out ticks does not renumber the others. -/
theorem nthTick_advanceBy {loop : Loop τ} (h : loop.nextStep < loop.cycle) (n k : Nat) :
    (loop.advanceBy n).nthTick k = loop.nthTick (n + k) := by
  rw [nthTick, id_advanceBy, clock_advanceBy, nextTick_advanceBy, nextStep_advanceBy h,
    cycle_advanceBy, patterns_advanceBy, Nat.mod_add_mod, Nat.add_assoc, Nat.add_assoc, nthTick]

end Loop

/-! ## A run of polls -/

namespace Sequencer

/-- One poll steps over the ticks before its window, hands out those inside, and leaves a loop that
stands at the tick after them. -/
theorem apply_poll_of_onGrid {seq : Sequencer Rat} {loop : Loop Rat} (hrun : seq.state = .running)
    (hloop : seq.loop = some loop) (hgrid : loop.OnGrid) (hstep : loop.nextStep < loop.cycle)
    (poll : Rat) :
    ∃ missed count rest,
      (∀ k, missed ≤ k ↔ poll - seq.config.lookahead ≤ (loop.nthTick k).time) ∧
      (∀ i, i < count ↔ (loop.nthTick (missed + i)).time < poll + seq.config.lookahead) ∧
      seq.dispatchedBy (.poll poll) = (List.range count).map (fun i => loop.nthTick (missed + i)) ∧
      (seq.apply (.poll poll)).sequencer.state = .running ∧
      (seq.apply (.poll poll)).sequencer.loop = some rest ∧
      rest.OnGrid ∧ rest.nextStep < rest.cycle ∧
      ∀ j, rest.nthTick j = loop.nthTick (missed + count + j) := by
  -- the loop once the overdue ticks are stepped over is on the same grid
  have hwindow := seq.window_eq hgrid hstep poll
  obtain ⟨missed, hmissed⟩ : ∃ n, n = loop.countUntil (poll - seq.config.lookahead) := ⟨_, rfl⟩
  rw [← hmissed] at hwindow
  have hlate : (loop.skip missed).OnGrid := hgrid.skip missed
  have hlatestep : (loop.skip missed).nextStep < (loop.skip missed).cycle :=
    Nat.mod_lt _ (Nat.zero_lt_of_lt hstep)
  obtain ⟨count, hcount⟩ :
      ∃ n, n = (loop.skip missed).countUntil (poll + seq.config.lookahead) := ⟨_, rfl⟩
  dsimp only at hwindow
  rw [← hcount] at hwindow
  refine ⟨missed, count, (loop.skip missed).advanceBy count, ?_, ?_, ?_, ?_, ?_, ?_, ?_, ?_⟩
  · intro k
    rw [hmissed]
    exact hgrid.countUntil_le_iff
  · intro i
    rw [hcount, ← Loop.nthTick_skip]
    exact hlate.lt_countUntil_iff
  · rw [dispatchedBy_poll_of_loop hrun hloop, hwindow]
    rw [Loop.nextTicks_eq_map hlatestep]
    exact List.map_congr_left fun i _ => loop.nthTick_skip missed i
  · rw [apply_poll_of_loop hrun hloop]
    exact hrun
  · rw [apply_poll_of_loop hrun hloop, hwindow]
    rfl
  · exact hlate.advanceBy count
  · exact Loop.nextStep_advanceBy_lt hlatestep count
  · intro j
    rw [Loop.nthTick_advanceBy hlatestep, Loop.nthTick_skip, Nat.add_assoc]

/-- The numbers of the ticks of a poll, and then those of the polls after it, are in order. -/
theorem pairwise_slots {later : List Nat} (h : later.Pairwise (· < ·)) (start count : Nat) :
    ((List.range count).map (start + ·) ++ later.map (start + count + ·)).Pairwise (· < ·) := by
  rw [List.pairwise_append, List.pairwise_map, List.pairwise_map]
  refine ⟨?_, ?_, ?_⟩
  · exact List.pairwise_lt_range.imp fun hij => Nat.add_lt_add_left hij start
  · exact h.imp fun hij => Nat.add_lt_add_left hij _
  · intro i hi j hj
    obtain ⟨i', hi', rfl⟩ := List.mem_map.mp hi
    obtain ⟨j', _, rfl⟩ := List.mem_map.mp hj
    have hlt := List.mem_range.mp hi'
    omega

/-- The ticks that polls in order dispatch are the ones that they catch, in order. -/
theorem dispatched_polls {seq : Sequencer Rat} {loop : Loop Rat} (hrun : seq.state = .running)
    (hloop : seq.loop = some loop) (hgrid : loop.OnGrid) (hstep : loop.nextStep < loop.cycle)
    {polls : List Rat} (hpolls : polls.Pairwise (· ≤ ·)) :
    ∃ ks : List Nat, ks.Pairwise (· < ·) ∧
      (∀ k, k ∈ ks ↔ Caught seq.config.lookahead polls (loop.nthTick k).time) ∧
      seq.dispatched (polls.map .poll) = ks.map loop.nthTick := by
  induction polls generalizing seq loop with
  | nil =>
    refine ⟨[], List.Pairwise.nil, ?_, rfl⟩
    intro k
    constructor
    · intro hk
      exact absurd hk List.not_mem_nil
    · rintro ⟨_, hfind, _⟩
      cases hfind
  | cons poll rest ih =>
    obtain ⟨hlater, hrest⟩ := List.pairwise_cons.mp hpolls
    obtain ⟨missed, count, loop', hmissed, hcount, hticks, hrun', hloop', hgrid', hstep', hnth⟩ :=
      apply_poll_of_onGrid hrun hloop hgrid hstep poll
    obtain ⟨ks, hsorted, hmem, heq⟩ := ih hrun' hloop' hgrid' hstep' hrest
    rw [config_apply] at hmem
    refine ⟨(List.range count).map (missed + ·) ++ ks.map (missed + count + ·),
      pairwise_slots hsorted missed count, ?_, ?_⟩
    · intro k
      rw [List.mem_append, List.mem_map, List.mem_map]
      by_cases hlt : (loop.nthTick k).time < poll + seq.config.lookahead
      · -- this poll's window reaches past the tick, so only being overdue can lose it
        rw [caught_cons_of_lt hlt, ← hmissed]
        constructor
        · rintro (⟨i, _, rfl⟩ | ⟨j, _, rfl⟩)
          · exact Nat.le_add_right _ _
          · omega
        · intro hle
          obtain ⟨i, rfl⟩ := Nat.exists_eq_add_of_le hle
          exact Or.inl ⟨i, List.mem_range.mpr ((hcount i).mpr hlt), rfl⟩
      · -- the tick is left to the later polls
        rw [caught_cons_of_le (not_lt.mp hlt)]
        constructor
        · rintro (⟨i, hi, rfl⟩ | ⟨j, hj, rfl⟩)
          · exact absurd ((hcount i).mp (List.mem_range.mp hi)) hlt
          · rw [← hnth]
            exact (hmem j).mp hj
        · intro hcaught
          obtain ⟨i, rfl⟩ := Nat.exists_eq_add_of_le
            ((hmissed k).mpr (hcaught.le_of_forall_le hlater))
          have hle : count ≤ i := by
            by_contra h
            exact hlt ((hcount i).mp (not_le.mp h))
          obtain ⟨j, rfl⟩ := Nat.exists_eq_add_of_le hle
          refine Or.inr ⟨j, (hmem j).mpr ?_, Nat.add_assoc _ _ _⟩
          rw [hnth, Nat.add_assoc]
          exact hcaught
    · rw [List.map_cons, dispatched, collect, hticks, ← dispatched, heq, List.map_append,
        List.map_map, List.map_map]
      congr 1
      exact List.map_congr_left fun j _ => hnth j

/-- While a loop is polled and else left alone, the ticks dispatched are the ones that the polls
catch, each once and in order.  The tick with number `k` from the next one on is dispatched `k`
steps later in time and in the cycle, whenever the polls come.  For a loop that has just been
installed, the next tick is the first. -/
theorem dispatched_iff_caught (config : SequencerConfig Rat) (ops : List (Operation Rat))
    {loop : Loop Rat} (hloop : ((new config).after ops).loop = some loop)
    {polls : List Rat} (hpolls : polls.Pairwise (· ≤ ·)) :
    (∀ (seq : Sequencer Rat) (time : Rat), (new config).after ops = seq.installLoop time →
        loop.nextTime = time ∧ loop.nextStep = seq.step ∧ loop.patterns = seq.patterns ∧
          loop.clock.stepDuration = seq.stepDuration) ∧
      0 < loop.clock.stepDuration ∧ loop.nextStep < loop.patterns.cycleLength ∧
      ∃ ks : List Nat, ks.Pairwise (· < ·) ∧
        (∀ k, k ∈ ks ↔
          Caught config.lookahead polls (loop.nextTime + k * loop.clock.stepDuration)) ∧
        ((new config).after ops).dispatched (polls.map .poll) = ks.map (fun k =>
          { loopId := loop.id
            time := loop.nextTime + k * loop.clock.stepDuration
            step := (loop.nextStep + k) % loop.patterns.cycleLength
            patterns := loop.patterns
            duration := loop.clock.stepDuration }) ∧
        (((new config).after ops).effects (polls.map .poll)).filterMap Effect.sound? =
          ks.flatMap (fun k => loop.patterns.dispatch config.wrapPolicy
            ((loop.nextStep + k) % loop.patterns.cycleLength) loop.clock.stepDuration
            (loop.nextTime + k * loop.clock.stepDuration)) := by
  have hontime := onTime_after config ops
  obtain ⟨hrun, hplays⟩ := hontime.loop_plays hloop
  have hgrid : loop.OnGrid := hontime.loop_onGrid loop hloop
  have hstep : loop.nextStep < loop.cycle := hplays.nextStep_lt_cycle
  have htick : ∀ k, loop.nthTick k =
      { loopId := loop.id
        time := loop.nextTime + k * loop.clock.stepDuration
        step := (loop.nextStep + k) % loop.patterns.cycleLength
        patterns := loop.patterns
        duration := loop.clock.stepDuration } := by
    intro k
    rw [Loop.nthTick, hgrid.timeOf_add, Loop.cycle]
  obtain ⟨ks, hsorted, hmem, hticks⟩ := dispatched_polls hrun hloop hgrid hstep hpolls
  refine ⟨?_, hgrid.duration_pos, hstep, ks, hsorted, ?_, ?_, ?_⟩
  · intro seq time hinstalled
    rw [hinstalled] at hloop
    exact loop_installLoop hloop
  · intro k
    rw [hmem, htick, config_after]
    rfl
  · rw [hticks]
    exact List.map_congr_left fun k _ => htick k
  · -- the sounding calls are those of the ticks dispatched
    rw [sounds_eq_dispatched, hticks, List.flatMap_map, config_after]
    refine List.flatMap_congr fun k _ => ?_
    rw [htick]
    rfl

/-- A host that stalls for a second loses three ticks of a loop of two steps, and no others. -/
theorem dispatched_iff_caught_stalled :
    ∃ (loop : Loop Rat) (ks : List Nat),
      ((new .standard).after [.replacePatterns ⟨some (.ofWords ["kick", "-"]), none, none⟩ 0,
        .start ⟨0, true, none⟩]).loop = some loop ∧
      [(0 : Rat), 1].Pairwise (· ≤ ·) ∧
      (∀ k, k ∈ ks ↔
        Caught (SequencerConfig.standard : SequencerConfig Rat).lookahead [0, 1]
          (loop.nextTime + k * loop.clock.stepDuration)) ∧
      ks.map (fun k : Nat => loop.nextTime + k * loop.clock.stepDuration) = [0, 1] := by
  have hloop : ((new .standard).after
      [.replacePatterns ⟨some (.ofWords ["kick", "-"]), none, none⟩ 0,
        .start ⟨0, true, none⟩]).loop = some ⟨0, ⟨0, (0 : Rat), 1 / 4⟩, 0, 0,
        ⟨some (.ofWords ["kick", "-"]), none, none⟩, none⟩ := by
    decide +kernel
  have hpolls : [(0 : Rat), 1].Pairwise (· ≤ ·) := by decide +kernel
  obtain ⟨_, _, _, ks, _, hmem, hticks, _⟩ := dispatched_iff_caught _ _ hloop hpolls
  refine ⟨_, ks, hloop, hpolls, hmem, ?_⟩
  have htimes := congrArg (List.map (·.time)) hticks
  rw [List.map_map] at htimes
  refine Eq.trans htimes.symm ?_
  decide +kernel

end Sequencer

end Groovebox
