import Groovebox.Proofs.PollWindow
import Groovebox.Proofs.TickFates
import Groovebox.Proofs.TickOrder
import Mathlib.Data.List.TakeWhile

/-!
# A live swap keeps the beat

A set that is swapped in no later than the running loop's next tick takes over that tick's slot, and
from there on the ticks come at the times at which they would have come without the swap.  The two
runs have different loops, with different anchors, tick numbers and cycles; `InStep` is what they
have in common, and every poll keeps it, be it late or early.  The ticks that the old loop has
dispatched are pending in both runs, and both announce them at the same polls.
-/

namespace Groovebox

namespace Loop

/-- The ticks from the next one on, by their number. -/
theorem OnGrid.nthTick_eq {loop : Loop Rat} (h : loop.OnGrid) (k : Nat) :
    loop.nthTick k =
      { loopId := loop.id
        time := loop.nextTime + k * loop.clock.stepDuration
        step := (loop.nextStep + k) % loop.patterns.cycleLength
        patterns := loop.patterns
        duration := loop.clock.stepDuration } := by
  rw [nthTick, h.timeOf_add, cycle]

end Loop

namespace Sequencer

/-! ## Polls reach the pending ticks -/

section Waiting

variable {τ : Type} [TimeScale τ]

/-- Ticks at the front of the queue are announced by a poll that reaches them all, if not before. -/
theorem prefix_announced_of_poll {seq : Sequencer τ} {waiting rest : List (Tick τ)}
    (hpending : seq.pending = waiting ++ rest) {polls : List τ} {poll : τ} (hpoll : poll ∈ polls)
    (hdue : ∀ tick ∈ waiting, tick.time ≤ poll) :
    waiting <+: seq.announced (polls.map .poll) := by
  induction polls generalizing seq waiting rest with
  | nil => exact absurd hpoll List.not_mem_nil
  | cons first later ih =>
    rw [List.map_cons, announced, collect, ← announced]
    have hfirst := seq.announcedBy_poll first
    have hleft := seq.pending_poll first
    rw [hpending, List.append_assoc] at hfirst hleft
    by_cases hall : ∀ tick ∈ waiting, tick.time ≤ first
    · -- the first poll announces them all
      rw [hfirst, List.takeWhile_append_of_pos (by simpa using hall), List.append_assoc]
      exact List.prefix_append _ _
    · -- the first poll stops among them, and the others go on waiting
      have hstops : ¬ (waiting.dropWhile (·.time ≤ first)).isEmpty := by
        rw [List.isEmpty_iff, List.dropWhile_eq_nil_iff]
        simpa using hall
      have hshort : (waiting.takeWhile (·.time ≤ first)).length ≠ waiting.length := by
        intro hlength
        have hwhole := (List.takeWhile_prefix _).eq_of_length hlength
        rw [List.takeWhile_eq_self_iff] at hwhole
        exact hall (by simpa using hwhole)
      rw [List.takeWhile_append, if_neg hshort] at hfirst
      rw [List.dropWhile_append, if_neg hstops] at hleft
      have hlater : poll ∈ later := by
        rcases List.mem_cons.mp hpoll with rfl | hmem
        · exact absurd hdue hall
        · exact hmem
      have hrest := ih hleft hlater
        fun tick htick => hdue tick ((List.dropWhile_suffix _).subset htick)
      have hboth := (List.prefix_append_right_inj (waiting.takeWhile (·.time ≤ first))).mpr hrest
      rw [hfirst]
      rwa [List.takeWhile_append_dropWhile] at hboth

end Waiting

/-! ## Two runs in step -/

/-- The transport runs, and its loop stands on its grid at a step of its cycle. -/
structure Playing (seq : Sequencer Rat) (loop : Loop Rat) : Prop where
  running : seq.state = .running
  loop_eq : seq.loop = some loop
  onGrid : loop.OnGrid
  nextStep_lt : loop.nextStep < loop.cycle

theorem OnTime.playing {seq : Sequencer Rat} (h : seq.OnTime) {loop : Loop Rat}
    (hloop : seq.loop = some loop) : seq.Playing loop where
  running := (h.loop_plays hloop).1
  loop_eq := hloop
  onGrid := h.loop_onGrid loop hloop
  nextStep_lt := (h.loop_plays hloop).2.nextStep_lt_cycle

/-- A poll that finds no tick overdue hands out the next ticks, and the loop plays on after them. -/
theorem Playing.apply_poll {seq : Sequencer Rat} {loop : Loop Rat} (h : seq.Playing loop)
    {now : Rat} (hearly : now - seq.config.lookahead ≤ loop.nextTime) {n : Nat}
    (hn : loop.countUntil (now + seq.config.lookahead) = n) :
    seq.dispatchedBy (.poll now) = loop.nextTicks n ∧
      (seq.apply (.poll now)).sequencer =
        (seq.handedOut (loop.nextTicks n) (loop.advanceBy n)).delivered now ∧
      (seq.apply (.poll now)).sequencer.Playing (loop.advanceBy n) := by
  have hwindow := seq.window_of_le_nextTime h.onGrid h.nextStep_lt hearly
  rw [hn] at hwindow
  have hafter := apply_poll_of_loop h.running h.loop_eq now
  rw [hwindow] at hafter
  refine ⟨?_, hafter, ?_⟩
  · rw [dispatchedBy_poll_of_loop h.running h.loop_eq, hwindow]
  · rw [hafter]
    exact ⟨h.running, rfl, h.onGrid.advanceBy n, Loop.nextStep_advanceBy_lt h.nextStep_lt n⟩

/-- Two running transports whose loops will tick at the same times, and whose pending ticks are for
the same times too. -/
structure InStep (a b : Sequencer Rat) (x y : Loop Rat) : Prop where
  left : a.Playing x
  right : b.Playing y
  lookahead_eq : a.config.lookahead = b.config.lookahead
  beat_eq : ∀ k, (x.nthTick k).time = (y.nthTick k).time
  pending_eq : a.pending.map (·.time) = b.pending.map (·.time)

/-- A poll dispatches the same slots of both loops, announces as many ticks on both sides, and keeps
them in step. -/
theorem InStep.poll {a b : Sequencer Rat} {x y : Loop Rat} (h : InStep a b x y) (poll : Rat) :
    ∃ start count x' y',
      a.dispatchedBy (.poll poll) = (List.range count).map (fun i => x.nthTick (start + i)) ∧
      b.dispatchedBy (.poll poll) = (List.range count).map (fun i => y.nthTick (start + i)) ∧
      (a.announcedBy (.poll poll)).map (·.time) = (b.announcedBy (.poll poll)).map (·.time) ∧
      InStep (a.apply (.poll poll)).sequencer (b.apply (.poll poll)).sequencer x' y' ∧
      (∀ j, x'.nthTick j = x.nthTick (start + count + j)) ∧
      ∀ j, y'.nthTick j = y.nthTick (start + count + j) := by
  obtain ⟨start, count, x', hstart, hcount, hx, hxrun, hxloop, hxgrid, hxstep, hxnth⟩ :=
    apply_poll_of_onGrid h.left.running h.left.loop_eq h.left.onGrid h.left.nextStep_lt poll
  obtain ⟨start', count', y', hstart', hcount', hy, hyrun, hyloop, hygrid, hystep, hynth⟩ :=
    apply_poll_of_onGrid h.right.running h.right.loop_eq h.right.onGrid h.right.nextStep_lt poll
  -- both polls have the same window, and both loops tick at the same times
  obtain rfl : start' = start := by
    refine eq_of_forall_ge_iff fun k => ?_
    rw [hstart, hstart', h.lookahead_eq, h.beat_eq]
  obtain rfl : count' = count := by
    refine eq_of_forall_lt_iff fun i => ?_
    rw [hcount, hcount', h.lookahead_eq, h.beat_eq]
  have hqueue : (a.pending ++ a.dispatchedBy (.poll poll)).map (·.time) =
      (b.pending ++ b.dispatchedBy (.poll poll)).map (·.time) := by
    rw [List.map_append, List.map_append, h.pending_eq, hx, hy, List.map_map, List.map_map]
    congr 1
    exact List.map_congr_left fun i _ => h.beat_eq _
  refine ⟨start', count', x', y', hx, hy, ?_, ?_, hxnth, hynth⟩
  · rw [announcedBy_poll, announcedBy_poll]
    have htake := congrArg (List.takeWhile (fun time => decide (time ≤ poll))) hqueue
    rwa [List.takeWhile_map, List.takeWhile_map] at htake
  · refine ⟨⟨hxrun, hxloop, hxgrid, hxstep⟩, ⟨hyrun, hyloop, hygrid, hystep⟩, ?_, ?_, ?_⟩
    · rw [config_apply, config_apply, h.lookahead_eq]
    · intro k
      rw [hxnth, hynth, h.beat_eq]
    · rw [pending_poll, pending_poll]
      have hdrop := congrArg (List.dropWhile (fun time => decide (time ≤ poll))) hqueue
      rwa [List.dropWhile_map, List.dropWhile_map] at hdrop

/-- Through every sequence of polls two transports in step dispatch the same slots and announce
ticks of the same times. -/
theorem InStep.polls {a b : Sequencer Rat} {x y : Loop Rat} (h : InStep a b x y)
    (polls : List Rat) :
    ∃ slots : List Nat, slots.Pairwise (· < ·) ∧
      a.dispatched (polls.map .poll) = slots.map x.nthTick ∧
      b.dispatched (polls.map .poll) = slots.map y.nthTick ∧
      (a.announced (polls.map .poll)).map (·.time) =
        (b.announced (polls.map .poll)).map (·.time) := by
  induction polls generalizing a b x y with
  | nil => exact ⟨[], List.Pairwise.nil, rfl, rfl, rfl⟩
  | cons poll rest ih =>
    obtain ⟨start, count, x', y', hx, hy, htimes, hafter, hx', hy'⟩ := h.poll poll
    obtain ⟨slots, hsorted, hxrest, hyrest, hrest⟩ := ih hafter
    refine ⟨(List.range count).map (start + ·) ++ slots.map (start + count + ·),
      pairwise_slots hsorted start count, ?_, ?_, ?_⟩
    · rw [List.map_cons, dispatched, collect, hx, ← dispatched, hxrest, List.map_append,
        List.map_map, List.map_map]
      congr 1
      exact List.map_congr_left fun j _ => hx' j
    · rw [List.map_cons, dispatched, collect, hy, ← dispatched, hyrest, List.map_append,
        List.map_map, List.map_map]
      congr 1
      exact List.map_congr_left fun j _ => hy' j
    · rw [List.map_cons, announced, announced, collect, collect, List.map_append, List.map_append,
        htimes, ← announced, ← announced, hrest]

/-! ## The swap -/

/-- A set that is swapped in no later than the running loop's next tick begins at that tick. -/
theorem apply_replacePatterns_of_le {seq : Sequencer Rat} {loop : Loop Rat}
    (hrun : seq.state = .running) (hloop : seq.loop = some loop) {patterns : PatternSet}
    (hcycle : 0 < patterns.cycleLength) {now : Rat} (hnow : now ≤ loop.nextTime) :
    (seq.apply (.replacePatterns patterns now)).sequencer =
      (seq.idleWith patterns).installLoop loop.nextTime := by
  have hslot : seq.slot now = loop.nextTime := by
    rw [slot, hloop]
    exact (TimeScale.latest_eq_max _ _).trans (max_eq_left hnow)
  show (seq.replacePatterns patterns now).sequencer = _
  rw [replacePatterns_of_running hrun hcycle, hslot]

/-- Such a swap puts the two runs in step: the new loop's ticks are those of its own cycle from step
0 on, at the times of the old loop's. -/
theorem OnTime.inStep_swap {seq : Sequencer Rat} (h : seq.OnTime) {loop : Loop Rat}
    (hloop : seq.loop = some loop) {patterns : PatternSet} (hcycle : 0 < patterns.cycleLength)
    {now : Rat} (hnow : now ≤ loop.nextTime) :
    ∃ new, InStep seq (seq.apply (.replacePatterns patterns now)).sequencer loop new ∧
      ∀ k, new.nthTick k =
        { loopId := seq.nextLoopId
          time := loop.nextTime + k * loop.clock.stepDuration
          step := k % patterns.cycleLength
          patterns := patterns
          duration := loop.clock.stepDuration } := by
  obtain ⟨hrun, hplays⟩ := h.loop_plays hloop
  have hgrid : loop.OnGrid := h.loop_onGrid loop hloop
  rw [apply_replacePatterns_of_le hrun hloop hcycle hnow]
  obtain ⟨new, hnew⟩ :
      ∃ new, ((seq.idleWith patterns).installLoop loop.nextTime).loop = some new := ⟨_, rfl⟩
  obtain ⟨htime, hstep, hpatterns, hduration⟩ := loop_installLoop hnew
  have hnewgrid : new.OnGrid := onGrid_installLoop hnew h.tempo_inRange
  -- both loops step at the tempo of the transport
  have hduration : new.clock.stepDuration = loop.clock.stepDuration :=
    hduration.trans hplays.duration_eq.symm
  have hnth : ∀ k, new.nthTick k =
      { loopId := seq.nextLoopId
        time := loop.nextTime + k * loop.clock.stepDuration
        step := k % patterns.cycleLength
        patterns := patterns
        duration := loop.clock.stepDuration } := by
    intro k
    have hid : new.id = seq.nextLoopId := by
      cases hnew
      rfl
    have hzero : new.nextStep = 0 := hstep
    have hset : new.patterns = patterns := hpatterns
    rw [hnewgrid.nthTick_eq, hid, htime, hduration, hzero, Nat.zero_add, hset]
  refine ⟨new, ⟨⟨hrun, hloop, hgrid, hplays.nextStep_lt_cycle⟩, ⟨hrun, hnew, hnewgrid, ?_⟩, rfl,
    ?_, rfl⟩, hnth⟩
  · rw [Loop.cycle, hpatterns, hstep]
    exact hcycle
  · intro k
    rw [hnth, hgrid.nthTick_eq]

/-- A set that is swapped in no later than the running loop's next tick changes what is played and
not when.  Whatever the polls are, both runs dispatch the same slots, which are numbered from the
old loop's next tick: the one run the ticks of the old set, the other those of the new one from step
0 on.  The swapping run announces the ticks that were pending, each with the set it was dispatched
with, and then its own, at the polls at which the other run announces as many. -/
theorem swap_keeps_beat (config : SequencerConfig Rat) (ops : List (Operation Rat))
    {loop : Loop Rat} (hloop : ((new config).after ops).loop = some loop) {patterns : PatternSet}
    (hcycle : 0 < patterns.cycleLength) {now : Rat} (hnow : now ≤ loop.nextTime)
    (polls : List Rat) :
    let seq := (new config).after ops
    let plain := polls.map Operation.poll
    let swap := .replacePatterns patterns now :: plain
    ∃ slots : List Nat, slots.Pairwise (· < ·) ∧
      seq.dispatched plain = slots.map (fun k =>
        { loopId := loop.id
          time := loop.nextTime + k * loop.clock.stepDuration
          step := (loop.nextStep + k) % loop.patterns.cycleLength
          patterns := loop.patterns
          duration := loop.clock.stepDuration }) ∧
      seq.dispatched swap = slots.map (fun k =>
        { loopId := seq.nextLoopId
          time := loop.nextTime + k * loop.clock.stepDuration
          step := k % patterns.cycleLength
          patterns := patterns
          duration := loop.clock.stepDuration }) ∧
      (seq.effects swap).filterMap Effect.sound? =
        slots.flatMap (fun k => patterns.dispatch config.wrapPolicy (k % patterns.cycleLength)
          loop.clock.stepDuration (loop.nextTime + k * loop.clock.stepDuration)) ∧
      (seq.effects swap).filterMap Effect.stepAdvance? =
        (seq.announced swap).map (fun tick => (tick.step, tick.patterns)) ∧
      seq.pending ++ seq.dispatched swap = seq.announced swap ++ (seq.after swap).pending ∧
      (seq.announced swap).map (·.time) = (seq.announced plain).map (·.time) ∧
      ∀ waiting rest poll, seq.pending = waiting ++ rest → poll ∈ polls →
        (∀ tick ∈ waiting, tick.time ≤ poll) → waiting <+: seq.announced swap := by
  intro seq plain swap
  have hontime : seq.OnTime := onTime_after config ops
  have hgrid : loop.OnGrid := hontime.loop_onGrid loop hloop
  obtain ⟨new, hinstep, hnew⟩ := hontime.inStep_swap hloop hcycle hnow
  obtain ⟨slots, hsorted, hold, hswapped, htimes⟩ := hinstep.polls polls
  have hdispatched : seq.dispatched swap = slots.map new.nthTick := hswapped
  refine ⟨slots, hsorted, ?_, ?_, ?_, ?_, ?_, ?_, ?_⟩
  · rw [hold]
    exact List.map_congr_left fun k _ => hgrid.nthTick_eq k
  · rw [hdispatched]
    exact List.map_congr_left fun k _ => hnew k
  · -- the sounding calls are those of the ticks dispatched
    rw [sounds_eq_dispatched, hdispatched, List.flatMap_map, config_after]
    refine List.flatMap_congr fun k _ => ?_
    rw [hnew]
    rfl
  · exact stepAdvances_eq_announced seq swap
  · refine pending_append_dispatched_of_halts_eq_false ?_
    intro op hop
    rcases List.mem_cons.mp hop with rfl | hop
    · rfl
    · obtain ⟨poll, _, rfl⟩ := List.mem_map.mp hop
      rfl
  · exact htimes.symm
  · intro waiting rest poll hpending hpoll hdue
    -- the swap leaves the pending ticks alone
    have hleft : (seq.apply (.replacePatterns patterns now)).sequencer.pending =
        waiting ++ rest := by
      rw [apply_replacePatterns_of_le (hontime.loop_plays hloop).1 hloop hcycle hnow]
      exact hpending
    exact prefix_announced_of_poll hleft hpoll hdue

/-- A snare and a clap are swapped in while the second kick is pending, and the second poll after
that comes two slots late.  Both runs lose those slots, and the swapping run goes on with the step
that the next slot has in its own cycle. -/
theorem swap_keeps_beat_late_poll :
    ∃ (loop : Loop Rat) (slots : List Nat),
      ((new .standard).after (kicksStarted ++ [.poll 0, .poll (3 / 16)])).loop = some loop ∧
      0 < (⟨some (.ofWords ["snare", "clap"]), none, none⟩ : PatternSet).cycleLength ∧
      3 / 16 ≤ loop.nextTime ∧
      slots.map (fun k : Nat => loop.nextTime + k * loop.clock.stepDuration) = [1 / 2, 5 / 4] ∧
      slots.map (fun k : Nat => k % 2) = [0, 1] := by
  have hloop : ((new .standard).after (kicksStarted ++ [.poll 0, .poll (3 / 16)])).loop =
      some ⟨0, ⟨0, (0 : Rat), 1 / 4⟩, 2, 0, ⟨some (.ofWords ["kick", "kick"]), none, none⟩,
        some 1⟩ := by
    decide +kernel
  have hcycle : 0 < (⟨some (.ofWords ["snare", "clap"]), none, none⟩ : PatternSet).cycleLength := by
    decide
  have hnow : (3 / 16 : Rat) ≤ Loop.nextTime ⟨0, ⟨0, (0 : Rat), 1 / 4⟩, 2, 0,
      ⟨some (.ofWords ["kick", "kick"]), none, none⟩, some 1⟩ := by
    decide +kernel
  obtain ⟨slots, _, hplain, hswap, _⟩ := swap_keeps_beat .standard _ hloop hcycle hnow
    [7 / 16, 5 / 4]
  have htimes := congrArg (List.map (·.time)) hplain
  have hsteps := congrArg (List.map (·.step)) hswap
  rw [List.map_map] at htimes hsteps
  refine ⟨_, slots, hloop, hcycle, hnow, ?_, ?_⟩
  · exact Eq.trans htimes.symm (by decide +kernel)
  · exact Eq.trans hsteps.symm (by decide +kernel)

end Sequencer

end Groovebox
