import Groovebox.Proofs.Consistency
import Mathlib.Algebra.Order.Field.Rat
import Mathlib.Tactic.Linarith
import Mathlib.Tactic.Positivity
import Mathlib.Tactic.Ring

/-!
# The timing grid in exact numbers

With exact numbers a loop stands on a grid of equal steps, and counting ticks is division.  The
number of ticks before a time is `countUntil`; the search that steps over missed ticks finds that
number from every first guess (`skipBeforeFrom_eq`), and the search for the ticks inside a window
stops there too (`ticksBefore_eq_nextTicks`), so that neither is ever cut short by its allowance.
-/

namespace Groovebox

/-! ## Division of time -/

namespace TimeScale

/-- The least natural number at or above an exact number. -/
theorem ceilNat_le_iff {x : Rat} {n : Nat} : ceilNat x ≤ n ↔ x ≤ n := by
  show x.ceil.toNat ≤ n ↔ x ≤ n
  rw [Int.toNat_le, Rat.ceil_le_iff]
  norm_cast

/-- The number of steps that it takes to cover a span. -/
theorem ceilNat_div_le_iff {span length : Rat} (hlength : 0 < length) {n : Nat} :
    ceilNat (span / length) ≤ n ↔ span ≤ n * length := by
  rw [ceilNat_le_iff, div_le_iff₀ hlength]

/-- The allowance for a search covers what is searched for. -/
theorem ceilNat_div_lt_stepBound (span length : Rat) :
    ceilNat (span / length) < stepBound span length := by
  show ceilNat (span / length) < 4 * ceilNat (span / length) + 4
  omega

/-- Exact numbers are all defined, so that the later of two times is the greater number. -/
theorem latest_eq_max (a b : Rat) : latest a b = max a b := by
  rw [latest]
  split
  · next h => exact (max_eq_right (le_of_lt h)).symm
  · next h => rw [if_pos (le_refl a), max_eq_left (not_lt.mp h)]

/-- The later of two times is not before the first of them. -/
theorem le_latest (a b : Rat) : a ≤ latest a b := by
  rw [latest_eq_max]
  exact le_max_left a b

end TimeScale

/-! ## Tempos -/

namespace Tempo

/-- A tempo is between the slowest and the fastest. -/
def InRange (tempo : Tempo Rat) : Prop :=
  60 ≤ tempo.bpm ∧ tempo.bpm ≤ 200

theorem inRange_standard : (standard : Tempo Rat).InRange := by
  show (60 : Rat) ≤ (120 : Nat) ∧ ((120 : Nat) : Rat) ≤ 200
  norm_num

/-- Every request is answered with a tempo in range. -/
theorem inRange_ofBpm (bpm : Rat) : (ofBpm bpm).InRange := by
  rw [ofBpm, if_pos (show TimeScale.isFinite bpm = true from rfl)]
  split
  · show (60 : Rat) ≤ (60 : Nat) ∧ ((60 : Nat) : Rat) ≤ 200
    norm_num
  · next hslow =>
    split
    · show (60 : Rat) ≤ (200 : Nat) ∧ ((200 : Nat) : Rat) ≤ 200
      norm_num
    · next hfast =>
      exact ⟨le_of_not_gt hslow, le_of_not_gt hfast⟩

theorem InRange.stepDuration_pos {tempo : Tempo Rat} (h : tempo.InRange) (stepsPerBeat : Nat) :
    0 < tempo.stepDuration stepsPerBeat := by
  have hbpm : 0 < tempo.bpm := lt_of_lt_of_le (by norm_num) h.1
  have hsteps : (0 : Rat) < (max stepsPerBeat 1 : Nat) := by
    exact_mod_cast Nat.lt_of_lt_of_le Nat.zero_lt_one (Nat.le_max_right stepsPerBeat 1)
  show 0 < ((60 : Nat) : Rat) / tempo.bpm / (max stepsPerBeat 1 : Nat)
  positivity

end Tempo

/-! ## Clocks -/

namespace StepClock

theorem timeOf_def (clock : StepClock Rat) (tick : Nat) :
    clock.timeOf tick =
      clock.anchorTime + ((tick - clock.anchorTick : Nat) : Rat) * clock.stepDuration := rfl

/-- From the anchor on, ticks are equal steps apart. -/
theorem timeOf_add {clock : StepClock Rat} {tick : Nat} (h : clock.anchorTick ≤ tick) (n : Nat) :
    clock.timeOf (tick + n) = clock.timeOf tick + n * clock.stepDuration := by
  rw [timeOf_def, timeOf_def, Nat.sub_add_comm h]
  push_cast
  ring

/-- No tick comes before an earlier one. -/
theorem timeOf_mono {clock : StepClock Rat} (h : 0 ≤ clock.stepDuration) :
    Monotone clock.timeOf := by
  intro a b hab
  have hsteps : ((a - clock.anchorTick : Nat) : Rat) ≤ (b - clock.anchorTick : Nat) :=
    Nat.cast_le.mpr (Nat.sub_le_sub_right hab _)
  rw [timeOf_def, timeOf_def]
  exact add_le_add_right (mul_le_mul_of_nonneg_right hsteps h) _

/-- The tick at which the tempo changes stays, and the later ticks follow at the new steps. -/
theorem timeOf_retempo (clock : StepClock Rat) (tick : Nat) (duration : Rat) (n : Nat) :
    (clock.retempo tick duration).timeOf (tick + n) = clock.timeOf tick + n * duration := by
  rw [timeOf_def]
  show clock.timeOf tick + ((tick + n - tick : Nat) : Rat) * duration = _
  rw [Nat.add_sub_cancel_left]

theorem timeOf_retempo_self (clock : StepClock Rat) (tick : Nat) (duration : Rat) :
    (clock.retempo tick duration).timeOf tick = clock.timeOf tick := by
  have h := clock.timeOf_retempo tick duration 0
  rwa [Nat.add_zero, Nat.cast_zero, zero_mul, add_zero] at h

end StepClock

/-! ## Searches -/

/-- Going up ends at the first number for which the test fails, if that is allowed for. -/
theorem climb_eq {test : Nat → Bool} {last : Nat} (htest : ∀ n, test n = true ↔ n < last)
    (fuel start : Nat) (hfuel : last ≤ start + fuel) : climb test fuel start = max start last := by
  induction fuel generalizing start with
  | zero =>
    rw [climb]
    omega
  | succ fuel ih =>
    rw [climb]
    split
    · next h =>
      have hlt : start < last := (htest start).mp h
      rw [ih (start + 1) (by omega)]
      omega
    · next h =>
      have hle : ¬ start < last := fun hlt => h ((htest start).mpr hlt)
      omega

/-- Going down ends at the first number for which the test holds. -/
theorem descend_eq {test : Nat → Bool} {first : Nat} (htest : ∀ n, test n = true ↔ first ≤ n)
    (start : Nat) (hstart : first ≤ start) : descend test start = first := by
  induction start with
  | zero =>
    rw [descend]
    omega
  | succ n ih =>
    rw [descend]
    split
    · next h => exact ih ((htest n).mp h)
    · next h =>
      have hnot : ¬ first ≤ n := fun hle => h ((htest n).mpr hle)
      omega

/-! ## Loops -/

namespace Loop

/-- A loop stands on its grid: the steps have a length, the next tick is not before the anchor, and
the last tick handed out lies between the two. -/
structure OnGrid (loop : Loop Rat) : Prop where
  duration_pos : 0 < loop.clock.stepDuration
  anchor_le : loop.clock.anchorTick ≤ loop.nextTick
  lastTick_mem : ∀ tick, loop.lastTick = some tick →
    loop.clock.anchorTick ≤ tick ∧ tick < loop.nextTick

/-- How many ticks, from the next one on, come before a time. -/
def countUntil (loop : Loop Rat) (time : Rat) : Nat :=
  TimeScale.ceilNat ((time - loop.nextTime) / loop.clock.stepDuration)

/-- The ticks from the next one on are equal steps apart. -/
theorem OnGrid.timeOf_add {loop : Loop Rat} (h : loop.OnGrid) (n : Nat) :
    loop.clock.timeOf (loop.nextTick + n) = loop.nextTime + n * loop.clock.stepDuration :=
  StepClock.timeOf_add h.anchor_le n

/-- A tick is at or after a time when as many ticks as come before that time come before it. -/
theorem OnGrid.countUntil_le_iff {loop : Loop Rat} (h : loop.OnGrid) {time : Rat} {n : Nat} :
    loop.countUntil time ≤ n ↔ time ≤ loop.clock.timeOf (loop.nextTick + n) := by
  rw [countUntil, TimeScale.ceilNat_div_le_iff h.duration_pos, h.timeOf_add]
  constructor
  · intro hle
    linarith
  · intro hle
    linarith

theorem OnGrid.lt_countUntil_iff {loop : Loop Rat} (h : loop.OnGrid) {time : Rat} {n : Nat} :
    n < loop.countUntil time ↔ loop.clock.timeOf (loop.nextTick + n) < time := by
  rw [← not_le, h.countUntil_le_iff, not_le]

/-- Stepping over no tick leaves a loop as it is. -/
theorem skip_zero {τ : Type} {loop : Loop τ} (h : loop.nextStep < loop.cycle) :
    loop.skip 0 = loop := by
  have hstep : (loop.nextStep + 0 % loop.cycle) % loop.cycle = loop.nextStep := by
    rw [Nat.zero_mod, Nat.add_zero, Nat.mod_eq_of_lt h]
  rw [skip, hstep, Nat.add_zero]

/-- From every first guess the search finds how many ticks come before the deadline, if they are
allowed for. -/
theorem countBefore_eq {loop : Loop Rat} {deadline : Rat} {count : Nat}
    (h : ∀ n, loop.clock.timeOf (loop.nextTick + n) < deadline ↔ n < count) {bound : Nat}
    (hbound : count ≤ bound) (guess : Nat) : loop.countBefore deadline bound guess = count := by
  have hearly : ∀ n, decide (loop.clock.timeOf (loop.nextTick + n) < deadline) = true ↔
      n < count := by
    intro n
    rw [decide_eq_true_iff, h]
  have hlate : ∀ n, decide (deadline ≤ loop.clock.timeOf (loop.nextTick + n)) = true ↔
      count ≤ n := by
    intro n
    rw [decide_eq_true_iff, ← not_lt, h, not_lt]
  rw [countBefore, climb_eq hearly _ _ (hbound.trans (Nat.le_add_left _ _))]
  exact descend_eq hlate _ (le_max_right _ _)

/-- The allowance of a search covers the ticks that come before a time. -/
theorem countUntil_le_tickBound (loop : Loop Rat) (time : Rat) :
    loop.countUntil time ≤ loop.tickBound time :=
  (TimeScale.ceilNat_div_lt_stepBound _ _).le.trans (Nat.le_add_right _ _)

/-- From every first guess a loop steps over exactly the ticks before the deadline. -/
theorem OnGrid.skipBeforeFrom_eq {loop : Loop Rat} (h : loop.OnGrid)
    (hstep : loop.nextStep < loop.cycle) (deadline : Rat) (guess : Nat) :
    loop.skipBeforeFrom deadline guess = loop.skip (loop.countUntil deadline) := by
  rw [skipBeforeFrom]
  split
  · next hlate =>
    -- the next tick is not before the deadline
    have hzero : loop.countUntil deadline = 0 := by
      rw [← Nat.le_zero, h.countUntil_le_iff, Nat.add_zero]
      rcases hlate with hlate | hlate
      · exact sub_nonpos.mp hlate
      · exact absurd h.duration_pos (not_lt.mpr hlate)
    rw [hzero, skip_zero hstep]
  · rw [countBefore_eq (fun _ => h.lt_countUntil_iff.symm) (loop.countUntil_le_tickBound deadline)]
    split
    · next hzero => rw [hzero, skip_zero hstep]
    · next hsucc => rw [hsucc]

theorem OnGrid.skipBefore_eq_skip {loop : Loop Rat} (h : loop.OnGrid)
    (hstep : loop.nextStep < loop.cycle) (deadline : Rat) :
    loop.skipBefore deadline = loop.skip (loop.countUntil deadline) :=
  h.skipBeforeFrom_eq hstep deadline _

/-- The ticks handed out before a horizon are all ticks that come before it. -/
theorem OnGrid.ticksBefore_eq_nextTicks {loop : Loop Rat} (h : loop.OnGrid) (horizon : Rat) :
    loop.ticksBefore horizon =
      (loop.nextTicks (loop.countUntil horizon), loop.advanceBy (loop.countUntil horizon)) := by
  obtain ⟨n, heq, hbefore, hlast⟩ := loop.ticksBefore_eq horizon
  -- no fewer ticks, as the allowance covers them all, and no more, as each is before the horizon
  have hn : n = loop.countUntil horizon := by
    apply le_antisymm
    · by_contra hlt
      refine hbefore _ (not_le.mp hlt) ?_
      rw [nextTime_advanceBy]
      exact h.countUntil_le_iff.mp le_rfl
    · rcases hlast with hfuel | hlast
      · rw [hfuel]
        exact loop.countUntil_le_tickBound horizon
      · rw [nextTime_advanceBy] at hlast
        exact h.countUntil_le_iff.mpr hlast
  rw [heq, hn]

/-- Stepping over ticks stays on the grid. -/
theorem OnGrid.skip {loop : Loop Rat} (h : loop.OnGrid) (n : Nat) : (loop.skip n).OnGrid where
  duration_pos := h.duration_pos
  anchor_le := le_trans h.anchor_le (Nat.le_add_right _ _)
  lastTick_mem tick htick := by
    obtain ⟨hanchor, hnext⟩ := h.lastTick_mem tick htick
    exact ⟨hanchor, lt_of_lt_of_le hnext (Nat.le_add_right _ _)⟩

theorem OnGrid.advance {loop : Loop Rat} (h : loop.OnGrid) : loop.advance.OnGrid where
  duration_pos := h.duration_pos
  anchor_le := le_trans h.anchor_le (Nat.le_succ _)
  lastTick_mem tick htick := by
    cases htick
    exact ⟨h.anchor_le, Nat.lt_succ_self _⟩

/-- Handing out ticks stays on the grid. -/
theorem OnGrid.advanceBy {loop : Loop Rat} (h : loop.OnGrid) (n : Nat) :
    (loop.advanceBy n).OnGrid := by
  induction n with
  | zero => exact h
  | succ n ih => exact ih.advance

/-- A loop that has handed out ticks has so many fewer before a time. -/
theorem OnGrid.countUntil_advanceBy {loop : Loop Rat} (h : loop.OnGrid) (n : Nat) (time : Rat) :
    (loop.advanceBy n).countUntil time = loop.countUntil time - n := by
  refine eq_of_forall_ge_iff fun k => ?_
  rw [(h.advanceBy n).countUntil_le_iff, Nat.sub_le_iff_le_add', h.countUntil_le_iff,
    clock_advanceBy, nextTick_advanceBy, Nat.add_assoc]

/-- No fewer ticks come before a later time. -/
theorem OnGrid.countUntil_mono {loop : Loop Rat} (h : loop.OnGrid) {a b : Rat} (hab : a ≤ b) :
    loop.countUntil a ≤ loop.countUntil b :=
  h.countUntil_le_iff.mpr (hab.trans (h.countUntil_le_iff.mp le_rfl))

/-- A new tempo makes a new grid, anchored at the last tick handed out or at the next one. -/
theorem OnGrid.retempo {loop : Loop Rat} (h : loop.OnGrid) {duration : Rat}
    (hduration : 0 < duration) : (loop.retempo duration).OnGrid where
  duration_pos := hduration
  anchor_le := by
    show loop.lastTick.getD loop.nextTick ≤ loop.nextTick
    cases hlast : loop.lastTick with
    | none => exact le_rfl
    | some tick => exact le_of_lt (h.lastTick_mem tick hlast).2
  lastTick_mem tick htick := by
    have htick : loop.lastTick = some tick := htick
    refine ⟨?_, (h.lastTick_mem tick htick).2⟩
    show loop.lastTick.getD loop.nextTick ≤ tick
    rw [htick, Option.getD_some]

end Loop

/-! ## Runs stay on the grid -/

namespace Sequencer

/-- A loop that has just been installed stands at its first tick, which is at the time asked for and
plays the step the sequencer is at. -/
theorem loop_installLoop {seq : Sequencer Rat} {time : Rat} {loop : Loop Rat}
    (hloop : (seq.installLoop time).loop = some loop) :
    loop.nextTime = time ∧ loop.nextStep = seq.step ∧ loop.patterns = seq.patterns ∧
      loop.clock.stepDuration = seq.stepDuration := by
  cases hloop
  refine ⟨?_, rfl, rfl, rfl⟩
  rw [Loop.nextTime, StepClock.timeOf_def, Nat.sub_self, Nat.cast_zero, zero_mul, add_zero]

/-- What a poll does with the running loop, counted in ticks. -/
theorem window_eq (seq : Sequencer Rat) {loop : Loop Rat} (h : loop.OnGrid)
    (hstep : loop.nextStep < loop.cycle) (now : Rat) :
    seq.window loop now =
      let late := loop.skip (loop.countUntil (now - seq.config.lookahead))
      let count := late.countUntil (now + seq.config.lookahead)
      (late.nextTicks count, late.advanceBy count) := by
  rw [window, h.skipBefore_eq_skip hstep, (h.skip _).ticksBefore_eq_nextTicks]

/-- While no tick of its loop is overdue, a poll hands out those before the end of its window. -/
theorem window_of_le_nextTime (seq : Sequencer Rat) {loop : Loop Rat} (h : loop.OnGrid)
    (hstep : loop.nextStep < loop.cycle) {now : Rat}
    (hearly : now - seq.config.lookahead ≤ loop.nextTime) :
    seq.window loop now =
      (loop.nextTicks (loop.countUntil (now + seq.config.lookahead)),
        loop.advanceBy (loop.countUntil (now + seq.config.lookahead))) := by
  have hzero : loop.countUntil (now - seq.config.lookahead) = 0 := by
    rw [← Nat.le_zero, h.countUntil_le_iff]
    exact hearly
  rw [seq.window_eq h hstep, hzero, Loop.skip_zero hstep]

/-- A coherent sequencer whose tempo is in range and whose loop stands on its grid. -/
structure OnTime (seq : Sequencer Rat) : Prop extends seq.Coherent where
  tempo_inRange : seq.tempo.InRange
  loop_onGrid : ∀ loop, seq.loop = some loop → loop.OnGrid

theorem onTime_new (config : SequencerConfig Rat) : (new config).OnTime :=
  ⟨coherent_new config, Tempo.inRange_standard, fun _ hloop => by cases hloop⟩

/-- A loop that is installed begins on its grid. -/
theorem onGrid_installLoop {seq : Sequencer Rat} {time : Rat} {loop : Loop Rat}
    (hloop : (seq.installLoop time).loop = some loop) (h : seq.tempo.InRange) : loop.OnGrid := by
  cases hloop
  exact ⟨h.stepDuration_pos _, le_rfl, fun _ hlast => by cases hlast⟩

/-- Every transition keeps the loop on its grid. -/
theorem OnTime.transition {seq after : Sequencer Rat} {op : Operation Rat} (h : seq.OnTime)
    (htrans : Transition seq op after) : after.OnTime := by
  have hcoherent : after.Coherent := h.toCoherent.transition htrans
  have htempo := h.tempo_inRange
  cases htrans with
  | subscribe => exact ⟨hcoherent, htempo, h.loop_onGrid⟩
  | stage => exact ⟨hcoherent, htempo, h.loop_onGrid⟩
  | silence => exact ⟨hcoherent, htempo, fun _ hloop => by cases hloop⟩
  | swap => exact ⟨hcoherent, htempo, fun _ hloop => onGrid_installLoop hloop htempo⟩
  | startIgnored => exact h
  | startRefused => exact ⟨hcoherent, htempo, h.loop_onGrid⟩
  | start => exact ⟨hcoherent, htempo, fun _ hloop => onGrid_installLoop hloop htempo⟩
  | pauseIgnored => exact h
  | pause => exact ⟨hcoherent, htempo, fun _ hloop => by cases hloop⟩
  | resumeIgnored => exact h
  | resumeRefused =>
    refine ⟨hcoherent, ?_, ?_⟩
    · rw [tempo_rewindToStaged]
      exact htempo
    · rw [loop_rewindToStaged]
      exact h.loop_onGrid
  | resume =>
    rw [← tempo_rewindToStaged] at htempo
    exact ⟨hcoherent, htempo, fun _ hloop => onGrid_installLoop hloop htempo⟩
  | stop => exact ⟨hcoherent, htempo, fun _ hloop => by cases hloop⟩
  | setTempo =>
    refine ⟨hcoherent, Tempo.inRange_ofBpm _, ?_⟩
    intro loop hloop
    obtain ⟨loop', hloop', rfl⟩ := Option.map_eq_some_iff.mp hloop
    exact (h.loop_onGrid loop' hloop').retempo ((Tempo.inRange_ofBpm _).stepDuration_pos _)
  | pollIdle => exact ⟨hcoherent, htempo, h.loop_onGrid⟩
  | @poll now loop _ hloop =>
    refine ⟨hcoherent, htempo, ?_⟩
    intro rest hrest
    cases hrest
    have hgrid := h.loop_onGrid loop hloop
    rw [seq.window_eq hgrid (h.loop_plays hloop).2.nextStep_lt_cycle]
    exact (hgrid.skip _).advanceBy _

theorem OnTime.apply {seq : Sequencer Rat} (h : seq.OnTime) (op : Operation Rat) :
    (seq.apply op).sequencer.OnTime :=
  h.transition (transition_apply seq op)

theorem OnTime.after {seq : Sequencer Rat} (h : seq.OnTime) (ops : List (Operation Rat)) :
    (seq.after ops).OnTime :=
  after_induction h (fun _ op h => h.apply op) ops

/-- Every sequencer that a run leads to is on time. -/
theorem onTime_after (config : SequencerConfig Rat) (ops : List (Operation Rat)) :
    ((new config).after ops).OnTime :=
  (onTime_new config).after ops

end Sequencer

end Groovebox
