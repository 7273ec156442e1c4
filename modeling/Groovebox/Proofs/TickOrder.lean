import Groovebox.Proofs.Grid

/-!
# The order of the ticks dispatched

While the transport runs, each tick is dispatched for a later time than the one before, through
polls, tempo changes and live swaps.  `Loop.PlaysAfter` is what keeps it so: all that a loop still
hands out is later than a given time, whatever its tempo becomes.

There is one exception.  A swap to a set without steps drops the loop, and with the loop goes the
time of the last tick that was dispatched ahead.  The next set begins at the time it is handed in
(`RestartsAt`), be a tick dispatched for that time or a later one.  The order holds if and only if
no restart makes use of that (`dispatched_increasing_iff`).
-/

namespace Groovebox

/-! ## Loops after a time -/

namespace Loop

/-- The ticks that a loop still hands out are later than a time, and the last one handed out, at
which a new tempo is anchored, is not before it. -/
structure PlaysAfter (loop : Loop Rat) (time : Rat) : Prop where
  lt_nextTime : time < loop.nextTime
  le_lastTick : ∀ tick, loop.lastTick = some tick → time ≤ loop.clock.timeOf tick

theorem PlaysAfter.skip {loop : Loop Rat} {time : Rat} (h : loop.PlaysAfter time)
    (hgrid : loop.OnGrid) (n : Nat) : (loop.skip n).PlaysAfter time where
  lt_nextTime := by
    have hlater : 0 ≤ (n : Rat) * loop.clock.stepDuration :=
      mul_nonneg (Nat.cast_nonneg n) (le_of_lt hgrid.duration_pos)
    show time < loop.clock.timeOf (loop.nextTick + n)
    rw [hgrid.timeOf_add]
    have hnext := h.lt_nextTime
    linarith
  le_lastTick := h.le_lastTick

/-- A loop that has handed out a tick plays after that tick. -/
theorem OnGrid.advance_playsAfter {loop : Loop Rat} (h : loop.OnGrid) :
    loop.advance.PlaysAfter loop.nextTime where
  lt_nextTime := by
    have hlater := h.duration_pos
    show loop.nextTime < loop.clock.timeOf (loop.nextTick + 1)
    rw [h.timeOf_add, Nat.cast_one, one_mul]
    linarith
  le_lastTick tick htick := by
    cases htick
    exact le_rfl

theorem PlaysAfter.trans {loop : Loop Rat} {a b : Rat} (h : loop.PlaysAfter b) (hab : a ≤ b) :
    loop.PlaysAfter a where
  lt_nextTime := lt_of_le_of_lt hab h.lt_nextTime
  le_lastTick tick htick := le_trans hab (h.le_lastTick tick htick)

theorem PlaysAfter.advanceBy {loop : Loop Rat} {time : Rat} (h : loop.PlaysAfter time)
    (hgrid : loop.OnGrid) (n : Nat) : (loop.advanceBy n).PlaysAfter time := by
  induction n with
  | zero => exact h
  | succ n ih => exact (hgrid.advanceBy n).advance_playsAfter.trans (le_of_lt ih.lt_nextTime)

/-- After some ticks a loop plays after each of them. -/
theorem OnGrid.advanceBy_playsAfter {loop : Loop Rat} (h : loop.OnGrid) {i n : Nat} (hi : i < n) :
    (loop.advanceBy n).PlaysAfter (loop.advanceBy i).nextTime := by
  induction n with
  | zero => exact absurd hi (Nat.not_lt_zero i)
  | succ n ih =>
    have hlast := (h.advanceBy n).advance_playsAfter
    by_cases hin : i = n
    · rw [hin]
      exact hlast
    · have hlt : i < n := by omega
      exact hlast.trans (le_of_lt (ih hlt).lt_nextTime)

/-- A new tempo moves no tick to a time that is already past. -/
theorem PlaysAfter.retempo {loop : Loop Rat} {time : Rat} (h : loop.PlaysAfter time)
    (hgrid : loop.OnGrid) {duration : Rat} (hduration : 0 < duration) :
    (loop.retempo duration).PlaysAfter time where
  lt_nextTime := by
    show time <
      (loop.clock.retempo (loop.lastTick.getD loop.nextTick) duration).timeOf loop.nextTick
    cases hlast : loop.lastTick with
    | none =>
      rw [Option.getD_none, StepClock.timeOf_retempo_self]
      exact h.lt_nextTime
    | some tick =>
      -- the next tick comes at least one new step after the last one
      obtain ⟨n, hn⟩ := Nat.exists_eq_add_of_lt (hgrid.lastTick_mem tick hlast).2
      have hstep : 0 < ((n + 1 : Nat) : Rat) * duration :=
        mul_pos (by exact_mod_cast Nat.succ_pos n) hduration
      have hlasttime := h.le_lastTick tick hlast
      rw [Option.getD_some, hn, Nat.add_assoc, StepClock.timeOf_retempo]
      linarith
  le_lastTick tick htick := by
    have hlast : loop.lastTick = some tick := htick
    show time ≤ (loop.clock.retempo (loop.lastTick.getD loop.nextTick) duration).timeOf tick
    rw [hlast, Option.getD_some, StepClock.timeOf_retempo_self]
    exact h.le_lastTick tick hlast

/-- The next ticks of a loop come one after another. -/
theorem OnGrid.pairwise_nextTicks {loop : Loop Rat} (h : loop.OnGrid) (n : Nat) :
    (loop.nextTicks n).Pairwise (·.time < ·.time) := by
  rw [nextTicks, List.pairwise_map]
  refine List.pairwise_lt_range.imp ?_
  intro i j hij
  exact (h.advanceBy_playsAfter hij).lt_nextTime

end Loop

/-! ## Sequencers past a time -/

namespace Sequencer

/-- The transport runs, and if it has a loop, that plays after a time. -/
def Beyond (seq : Sequencer Rat) (time : Rat) : Prop :=
  seq.state = .running ∧ ∀ loop, seq.loop = some loop → loop.PlaysAfter time

/-- An edit that begins a loop at a time while the transport runs without one. -/
def RestartsAt (seq : Sequencer Rat) (op : Operation Rat) (now : Rat) : Prop :=
  seq.state = .running ∧ seq.loop = none ∧
    ∃ patterns, op.edit? = some (patterns, now) ∧ 0 < patterns.cycleLength

/-- A loop that is installed after a time plays after it. -/
theorem playsAfter_installLoop {seq : Sequencer Rat} {time slot : Rat} (h : time < slot)
    {loop : Loop Rat} (hloop : (seq.installLoop slot).loop = some loop) : loop.PlaysAfter time where
  lt_nextTime := by
    rw [(loop_installLoop hloop).1]
    exact h
  le_lastTick tick htick := by
    cases hloop
    cases htick

/-- Nothing but a halt or an early restart leads back to a time. -/
theorem Beyond.transition {seq after : Sequencer Rat} {op : Operation Rat} {time : Rat}
    (h : seq.Beyond time) (hontime : seq.OnTime) (hhalts : op.halts = false)
    (hrestart : ∀ now, seq.RestartsAt op now → time < now) (htrans : Transition seq op after) :
    after.Beyond time := by
  obtain ⟨hrun, hloop⟩ := h
  have hstate : ∀ state, seq.state = state → state = .running := fun _ h => h.symm.trans hrun
  cases htrans with
  | subscribe => exact ⟨hrun, hloop⟩
  | stage _ hne => exact absurd hrun hne
  | silence => exact ⟨hrun, fun _ hnone => by cases hnone⟩
  | @swap _ patterns now hedit _ hcycle =>
    refine ⟨hrun, fun new hnew => playsAfter_installLoop ?_ hnew⟩
    -- the new loop takes the slot of the old one; only without an old one can it come too early
    rw [slot]
    cases hold : seq.loop with
    | none => exact hrestart now ⟨hrun, hold, patterns, hedit, hcycle⟩
    | some loop =>
      exact lt_of_lt_of_le (hloop loop hold).lt_nextTime (TimeScale.le_latest _ _)
  | startIgnored => exact ⟨hrun, hloop⟩
  | startRefused hstopped => cases hstate _ hstopped
  | start hstopped => cases hstate _ hstopped
  | pauseIgnored => exact ⟨hrun, hloop⟩
  | pause => cases hhalts
  | resumeIgnored => exact ⟨hrun, hloop⟩
  | resumeRefused hpaused => cases hstate _ hpaused
  | resume hpaused => cases hstate _ hpaused
  | stop => cases hhalts
  | setTempo =>
    refine ⟨hrun, fun new hnew => ?_⟩
    obtain ⟨loop, hold, rfl⟩ := Option.map_eq_some_iff.mp hnew
    exact (hloop loop hold).retempo (hontime.loop_onGrid loop hold)
      ((Tempo.inRange_ofBpm _).stepDuration_pos _)
  | pollIdle => exact ⟨hrun, hloop⟩
  | @poll now loop _ hold =>
    refine ⟨hrun, fun rest hrest => ?_⟩
    cases hrest
    have hgrid : loop.OnGrid := hontime.loop_onGrid loop hold
    rw [seq.window_eq hgrid (hontime.loop_plays hold).2.nextStep_lt_cycle]
    exact ((hloop loop hold).skip hgrid _).advanceBy (hgrid.skip _) _

/-- The ticks that an operation dispatches come one after another. -/
theorem OnTime.pairwise_dispatchedBy {seq : Sequencer Rat} (h : seq.OnTime) (op : Operation Rat) :
    (seq.dispatchedBy op).Pairwise (·.time < ·.time) := by
  by_cases hempty : seq.dispatchedBy op = []
  · rw [hempty]
    exact List.Pairwise.nil
  · obtain ⟨tick, htick⟩ := List.exists_mem_of_ne_nil _ hempty
    obtain ⟨now, loop, rfl, hrun, hloop, _⟩ := exists_window_of_mem_dispatchedBy htick
    have hgrid : loop.OnGrid := h.loop_onGrid loop hloop
    rw [dispatchedBy_poll_of_loop hrun hloop,
      seq.window_eq hgrid (h.loop_plays hloop).2.nextStep_lt_cycle]
    exact (hgrid.skip _).pairwise_nextTicks _

/-- A tick that is dispatched is later than what its sequencer is beyond. -/
theorem Beyond.lt_of_mem_dispatchedBy {seq : Sequencer Rat} {op : Operation Rat} {time : Rat}
    (h : seq.Beyond time) (hontime : seq.OnTime) {tick : Tick Rat}
    (htick : tick ∈ seq.dispatchedBy op) : time < tick.time := by
  obtain ⟨now, loop, rfl, hrun, hloop, hwindow⟩ := exists_window_of_mem_dispatchedBy htick
  have hgrid : loop.OnGrid := hontime.loop_onGrid loop hloop
  rw [seq.window_eq hgrid (hontime.loop_plays hloop).2.nextStep_lt_cycle] at hwindow
  obtain ⟨i, _, rfl⟩ := Loop.mem_nextTicks.mp hwindow
  exact (((h.2 loop hloop).skip hgrid _).advanceBy (hgrid.skip _) i).lt_nextTime

/-- After an operation the sequencer is beyond the ticks that the operation dispatches. -/
theorem OnTime.beyond_of_mem_dispatchedBy {seq : Sequencer Rat} (h : seq.OnTime)
    {op : Operation Rat} {tick : Tick Rat} (htick : tick ∈ seq.dispatchedBy op) :
    (seq.apply op).sequencer.Beyond tick.time := by
  obtain ⟨now, loop, rfl, hrun, hloop, hwindow⟩ := exists_window_of_mem_dispatchedBy htick
  have hgrid : loop.OnGrid := h.loop_onGrid loop hloop
  have heq := seq.window_eq hgrid (h.loop_plays hloop).2.nextStep_lt_cycle now
  rw [apply_poll_of_loop hrun hloop]
  rw [heq] at hwindow ⊢
  obtain ⟨i, hi, rfl⟩ := Loop.mem_nextTicks.mp hwindow
  refine ⟨hrun, ?_⟩
  intro rest hrest
  cases hrest
  exact (hgrid.skip _).advanceBy_playsAfter hi

/-! ## Running stretches -/

/-- The first tick that a restart plays is later than every tick dispatched before it in the
stretch, and so at every restart. -/
def RestartsLate (seq : Sequencer Rat) (stretch : List (Operation Rat)) : Prop :=
  ∀ first op now rest, stretch = first ++ op :: rest → (seq.after first).RestartsAt op now →
    ∀ tick ∈ seq.dispatched first,
      ∀ next ∈ (((seq.after first).apply op).sequencer.dispatched rest).head?,
        tick.time < next.time

/-- The next tick dispatched is later than what the sequencer is beyond, unless it is the first one
after a restart. -/
theorem Beyond.lt_head_dispatched {seq : Sequencer Rat} {stretch : List (Operation Rat)}
    {time : Rat} (h : seq.Beyond time) (hontime : seq.OnTime)
    (hstretch : ∀ op ∈ stretch, op.halts = false)
    (hrestart : ∀ first op now rest, stretch = first ++ op :: rest →
      (seq.after first).RestartsAt op now →
        ∀ next ∈ (((seq.after first).apply op).sequencer.dispatched rest).head?, time < next.time) :
    ∀ next ∈ (seq.dispatched stretch).head?, time < next.time := by
  induction stretch generalizing seq with
  | nil =>
    intro next hnext
    cases hnext
  | cons op rest ih =>
    have hrest : ∀ op' ∈ rest, op'.halts = false := fun op' hop' => hstretch op' (.tail _ hop')
    intro next hnext
    rw [dispatched, collect, ← dispatched] at hnext
    -- the next tick is the first of this operation, or that of the operations after it
    cases hticks : seq.dispatchedBy op with
    | cons tick ticks =>
      rw [hticks] at hnext
      cases hnext
      have hmem : next ∈ seq.dispatchedBy op := by
        rw [hticks]
        exact List.mem_cons_self
      exact h.lt_of_mem_dispatchedBy hontime hmem
    | nil =>
      rw [hticks, List.nil_append] at hnext
      by_cases hop : ∃ now, seq.RestartsAt op now
      · obtain ⟨now, hop⟩ := hop
        exact hrestart [] op now rest rfl hop next hnext
      · have hbeyond : (seq.apply op).sequencer.Beyond time :=
          h.transition hontime (hstretch op List.mem_cons_self)
            (fun now hnow => absurd ⟨now, hnow⟩ hop) (transition_apply seq op)
        refine ih hbeyond (hontime.apply op) hrest ?_ next hnext
        intro first op' now rest' heq
        exact hrestart (op :: first) op' now rest' (congrArg (op :: ·) heq)

/-- If no restart comes at or before a time that the sequencer is beyond, all ticks are later. -/
theorem Beyond.lt_of_mem_dispatched {seq : Sequencer Rat} {stretch : List (Operation Rat)}
    {time : Rat} (h : seq.Beyond time) (hontime : seq.OnTime)
    (hstretch : ∀ op ∈ stretch, op.halts = false)
    (hrestart : ∀ first op now rest, stretch = first ++ op :: rest →
      (seq.after first).RestartsAt op now → time < now)
    {next : Tick Rat} (hnext : next ∈ seq.dispatched stretch) : time < next.time := by
  induction stretch generalizing seq with
  | nil => exact absurd hnext List.not_mem_nil
  | cons op rest ih =>
    rw [dispatched, collect, ← dispatched, List.mem_append] at hnext
    rcases hnext with hnext | hnext
    · exact h.lt_of_mem_dispatchedBy hontime hnext
    · have hbeyond : (seq.apply op).sequencer.Beyond time :=
        h.transition hontime (hstretch op List.mem_cons_self)
          (fun now hnow => hrestart [] op now rest rfl hnow) (transition_apply seq op)
      refine ih hbeyond (hontime.apply op) (fun op' hop' => hstretch op' (.tail _ hop')) ?_ hnext
      intro first op' now rest' heq
      exact hrestart (op :: first) op' now rest' (congrArg (op :: ·) heq)

/-- A time before the first of some ticks in order is before all of them. -/
theorem lt_of_lt_head {ticks : List (Tick Rat)} (h : ticks.Pairwise (·.time < ·.time)) {time : Rat}
    (hhead : ∀ next ∈ ticks.head?, time < next.time) {tick : Tick Rat} (htick : tick ∈ ticks) :
    time < tick.time := by
  cases ticks with
  | nil => exact absurd htick List.not_mem_nil
  | cons first rest =>
    have hfirst : time < first.time := hhead first rfl
    rcases List.mem_cons.mp htick with rfl | hrest
    · exact hfirst
    · exact lt_trans hfirst ((List.pairwise_cons.mp h).1 tick hrest)

/-- Late restarts keep the ticks in order. -/
theorem OnTime.pairwise_dispatched {seq : Sequencer Rat} (h : seq.OnTime)
    {stretch : List (Operation Rat)} (hstretch : ∀ op ∈ stretch, op.halts = false)
    (hlate : seq.RestartsLate stretch) : (seq.dispatched stretch).Pairwise (·.time < ·.time) := by
  induction stretch generalizing seq with
  | nil => exact List.Pairwise.nil
  | cons op rest ih =>
    have hrest : ∀ op' ∈ rest, op'.halts = false := fun op' hop' => hstretch op' (.tail _ hop')
    have hsorted : ((seq.apply op).sequencer.dispatched rest).Pairwise (·.time < ·.time) := by
      refine ih (h.apply op) hrest ?_
      intro first op' now rest' heq hrestarts tick htick
      exact hlate (op :: first) op' now rest' (congrArg (op :: ·) heq) hrestarts tick
        (List.mem_append_right _ htick)
    rw [dispatched, collect, ← dispatched, List.pairwise_append]
    -- the later ticks are in order, so it is enough to be before the first of them
    refine ⟨h.pairwise_dispatchedBy op, hsorted, ?_⟩
    intro tick htick next hnext
    refine lt_of_lt_head hsorted ?_ hnext
    refine (h.beyond_of_mem_dispatchedBy htick).lt_head_dispatched (h.apply op) hrest ?_
    intro first op' now rest' heq hrestarts
    exact hlate (op :: first) op' now rest' (congrArg (op :: ·) heq) hrestarts tick
      (List.mem_append_left _ htick)

/-- Ticks in order restart late. -/
theorem restartsLate_of_pairwise {seq : Sequencer Rat} {stretch : List (Operation Rat)}
    (h : (seq.dispatched stretch).Pairwise (·.time < ·.time)) : seq.RestartsLate stretch := by
  intro first op now rest heq _ tick htick next hnext
  rw [heq, dispatched, collect_append, ← dispatched, List.pairwise_append] at h
  refine h.2.2 tick htick next ?_
  rw [collect, ← dispatched]
  exact List.mem_append_right _ (List.mem_of_mem_head? hnext)

/-- Restarts after all ticks dispatched before them are late. -/
theorem OnTime.restartsLate {seq : Sequencer Rat} (h : seq.OnTime) {stretch : List (Operation Rat)}
    (hstretch : ∀ op ∈ stretch, op.halts = false)
    (hafter : ∀ first op now rest, stretch = first ++ op :: rest →
      (seq.after first).RestartsAt op now → ∀ tick ∈ seq.dispatched first, tick.time < now) :
    seq.RestartsLate stretch := by
  intro first op now rest heq hrestarts tick htick next hnext
  obtain ⟨hrun, hidle, patterns, hedit, hcycle⟩ := hrestarts
  have hontime : (seq.after first).OnTime := h.after first
  -- without a loop the sequencer is beyond any time, and the restart leaves it beyond the tick
  have hbeyond : ((seq.after first).apply op).sequencer.Beyond tick.time := by
    refine Beyond.transition ⟨hrun, ?_⟩ hontime ?_ ?_ (transition_apply _ op)
    · intro loop hloop
      rw [hidle] at hloop
      cases hloop
    · refine hstretch op ?_
      rw [heq]
      exact List.mem_append_right _ List.mem_cons_self
    · intro now' hrestarts'
      exact hafter first op now' rest heq hrestarts' tick htick
  refine hbeyond.lt_of_mem_dispatched (hontime.apply op) ?_ ?_ (List.mem_of_mem_head? hnext)
  · intro op' hop'
    refine hstretch op' ?_
    rw [heq]
    exact List.mem_append_right _ (.tail _ hop')
  · intro first' op' now' rest' heq' hrestarts'
    refine hafter (first ++ op :: first') op' now' rest' ?_ ?_ tick ?_
    · rw [heq, heq', List.append_assoc, List.cons_append]
    · rw [after_append]
      exact hrestarts'
    · rw [dispatched, collect_append]
      exact List.mem_append_left _ htick

/-- A restart installs a loop at the time of the edit. -/
theorem RestartsAt.apply_eq {seq : Sequencer Rat} {op : Operation Rat} {now : Rat}
    (h : seq.RestartsAt op now) :
    ∃ patterns, (seq.apply op).sequencer = (seq.idleWith patterns).installLoop now := by
  obtain ⟨hrun, hidle, patterns, hedit, hcycle⟩ := h
  have hreplace : (seq.replacePatterns patterns now).sequencer =
      (seq.idleWith patterns).installLoop now := by
    rw [replacePatterns_of_running hrun hcycle, slot, hidle]
  refine ⟨patterns, ?_⟩
  cases op with
  | replacePatterns patterns' now' =>
    cases hedit
    exact hreplace
  | submitText text now' =>
    cases hedit
    exact hreplace
  | _ => cases hedit

/-- A poll at the time of the next tick dispatches that tick. -/
theorem OnTime.exists_mem_dispatchedBy_poll {seq : Sequencer Rat} (h : seq.OnTime)
    (hlookahead : 0 < seq.config.lookahead) {loop : Loop Rat} (hloop : seq.loop = some loop) :
    ∃ tick ∈ seq.dispatchedBy (.poll loop.nextTime), tick.time = loop.nextTime := by
  obtain ⟨hrun, hplays⟩ := h.loop_plays hloop
  have hgrid : loop.OnGrid := h.loop_onGrid loop hloop
  have hstep : loop.nextStep < loop.cycle := hplays.nextStep_lt_cycle
  have hearly : loop.countUntil (loop.nextTime - seq.config.lookahead) = 0 := by
    rw [← Nat.le_zero, hgrid.countUntil_le_iff, Nat.add_zero]
    show loop.nextTime - seq.config.lookahead ≤ loop.nextTime
    linarith
  have hahead : 0 < loop.countUntil (loop.nextTime + seq.config.lookahead) := by
    rw [hgrid.lt_countUntil_iff, Nat.add_zero]
    show loop.nextTime < loop.nextTime + seq.config.lookahead
    linarith
  rw [dispatchedBy_poll_of_loop hrun hloop, seq.window_eq hgrid hstep, hearly,
    Loop.skip_zero hstep]
  exact ⟨loop.tick, Loop.mem_nextTicks.mpr ⟨0, hahead, rfl⟩, rfl⟩

/-- A restart that is polled at once plays its first tick at once. -/
theorem OnTime.exists_mem_dispatched_restart {seq : Sequencer Rat} (h : seq.OnTime)
    (hlookahead : 0 < seq.config.lookahead) {op : Operation Rat} {now : Rat}
    (hrestarts : seq.RestartsAt op now) (rest : List (Operation Rat)) :
    ∃ tick ∈ (seq.apply op).sequencer.dispatched (.poll now :: rest), tick.time = now := by
  obtain ⟨patterns, heq⟩ := hrestarts.apply_eq
  have hontime := h.apply op
  rw [heq] at hontime ⊢
  obtain ⟨loop, hloop⟩ :
      ∃ loop, ((seq.idleWith patterns).installLoop now).loop = some loop := ⟨_, rfl⟩
  have hnext : loop.nextTime = now := (loop_installLoop hloop).1
  obtain ⟨tick, htick, htime⟩ := hontime.exists_mem_dispatchedBy_poll hlookahead hloop
  rw [hnext] at htick htime
  exact ⟨tick, List.mem_append_left _ htick, htime⟩

/-- While nothing halts the transport, the ticks dispatched come one after another if and only if
each restart plays its first tick later than all ticks dispatched before it.  It does when it comes
after those ticks; when it is polled at once, it does not otherwise. -/
theorem dispatched_increasing_iff (config : SequencerConfig Rat)
    (before stretch : List (Operation Rat)) (hstretch : ∀ op ∈ stretch, op.halts = false) :
    ((((new config).after before).dispatched stretch).Pairwise (·.time < ·.time) ↔
        ((new config).after before).RestartsLate stretch) ∧
      ((∀ first op now rest, stretch = first ++ op :: rest →
          (((new config).after before).after first).RestartsAt op now →
            ∀ tick ∈ ((new config).after before).dispatched first, tick.time < now) →
        (((new config).after before).dispatched stretch).Pairwise (·.time < ·.time)) ∧
      (∀ first op now rest, stretch = first ++ op :: .poll now :: rest →
        (((new config).after before).after first).RestartsAt op now → 0 < config.lookahead →
          (((new config).after before).dispatched stretch).Pairwise (·.time < ·.time) →
            ∀ tick ∈ ((new config).after before).dispatched first, tick.time < now) := by
  have hontime := onTime_after config before
  refine ⟨⟨restartsLate_of_pairwise, hontime.pairwise_dispatched hstretch⟩, ?_, ?_⟩
  · intro hafter
    exact hontime.pairwise_dispatched hstretch (hontime.restartsLate hstretch hafter)
  · intro first op now rest heq hrestarts hlookahead hsorted tick htick
    have hconfig : (((new config).after before).after first).config = config := by
      rw [config_after, config_after]
      rfl
    rw [← hconfig] at hlookahead
    obtain ⟨next, hnext, htime⟩ :=
      (hontime.after first).exists_mem_dispatched_restart hlookahead hrestarts rest
    rw [heq, dispatched, collect_append, List.pairwise_append] at hsorted
    rw [← htime]
    exact hsorted.2.2 tick htick next (List.mem_append_right _ hnext)

/-- A loop of kicks, an eighth of a bar apart, begins at time 0. -/
def kicksStarted : List (Operation Rat) :=
  [.replacePatterns ⟨some (.ofWords ["kick", "kick"]), none, none⟩ 0, .start ⟨0, true, none⟩]

/-- The second kick is dispatched ahead, the set is emptied, and a new one is handed in. -/
def emptiedAndRestarted (now : Rat) : List (Operation Rat) :=
  [.poll 0, .poll (3 / 16), .replacePatterns .empty (3 / 16),
    .replacePatterns ⟨some (.ofWords ["kick"]), none, none⟩ now, .poll now]

/-- A set that is handed in after the second kick restarts late. -/
theorem dispatched_increasing_iff_emptied :
    (∀ op ∈ emptiedAndRestarted (5 / 16), op.halts = false) ∧
      ((new .standard).after kicksStarted).RestartsLate (emptiedAndRestarted (5 / 16)) := by
  have hstretch : ∀ op ∈ emptiedAndRestarted (5 / 16), op.halts = false := by decide
  have hsorted : (((new .standard).after kicksStarted).dispatched
      (emptiedAndRestarted (5 / 16))).Pairwise (·.time < ·.time) := by
    decide +kernel
  exact ⟨hstretch, (dispatched_increasing_iff .standard kicksStarted _ hstretch).1.mp hsorted⟩

/-- A set that is handed in at the slot of the second kick uses that slot again, though times never
go back and nothing halts the transport. -/
theorem early_restart_repeats_slot :
    ((kicksStarted ++ emptiedAndRestarted (1 / 4)).filterMap Operation.time?).Pairwise (· ≤ ·) ∧
      ((new .standard).after kicksStarted).state = .running ∧
      (∀ op ∈ emptiedAndRestarted (1 / 4), op.halts = false) ∧
      (((new .standard).after kicksStarted).dispatched (emptiedAndRestarted (1 / 4))).map (·.time) =
        [0, 1 / 4, 1 / 4] ∧
      ¬ (((new .standard).after kicksStarted).dispatched
        (emptiedAndRestarted (1 / 4))).Pairwise (·.time < ·.time) := by
  refine ⟨?_, rfl, ?_, ?_, ?_⟩ <;> decide +kernel

end Sequencer

end Groovebox
