import Groovebox.Proofs.Refusals
import Groovebox.Proofs.TempoChanges

/-!
# The last tempo wins

A new tempo anchors the grid of the running loop anew, at a tick that it leaves where it is.  So of
several new tempos in a row the last one sets the grid (`setTempo_setTempo`), and the present tempo
set once more gives the grid another anchor and no tick another time (`SameGrid`).  That a grid has
another anchor, nothing that is asked of the sequencer later shows (`Reanchored.run`).
-/

namespace Groovebox

/-- A tempo in range is the one that is nearest to it. -/
theorem Tempo.InRange.ofBpm_bpm {tempo : Tempo Rat} (h : tempo.InRange) :
    ofBpm tempo.bpm = tempo := by
  have hslow : ¬ tempo.bpm < slowest := not_lt.mpr h.1
  have hfast : ¬ fastest < tempo.bpm := not_lt.mpr h.2
  unfold ofBpm
  rw [if_pos (show TimeScale.isFinite tempo.bpm = true from rfl), if_neg hslow, if_neg hfast]

/-! ## Grids with another anchor -/

namespace Loop

/-- The tick that a new tempo leaves where it is. -/
def pivot (loop : Loop Rat) : Nat :=
  loop.lastTick.getD loop.nextTick

theorem OnGrid.pivot_le {loop : Loop Rat} (h : loop.OnGrid) : loop.pivot ≤ loop.nextTick := by
  unfold pivot
  cases hlast : loop.lastTick with
  | none => exact le_rfl
  | some tick => exact (h.lastTick_mem tick hlast).2.le

theorem OnGrid.anchor_le_pivot {loop : Loop Rat} (h : loop.OnGrid) :
    loop.clock.anchorTick ≤ loop.pivot := by
  unfold pivot
  cases hlast : loop.lastTick with
  | none => exact h.anchor_le
  | some tick => exact (h.lastTick_mem tick hlast).1

/-- Of two new tempos the second sets the grid. -/
theorem retempo_retempo (loop : Loop Rat) (first second : Rat) :
    (loop.retempo first).retempo second = loop.retempo second := by
  show { loop with clock := (loop.clock.retempo loop.pivot first).retempo loop.pivot second } =
    { loop with clock := loop.clock.retempo loop.pivot second }
  rw [StepClock.retempo, StepClock.timeOf_retempo_self]
  rfl

/-- Two loops that differ in the anchors of their grids only. -/
structure SameGrid (x y : Loop Rat) : Prop where
  eq_withClock : y = { x with clock := y.clock }
  duration_eq : y.clock.stepDuration = x.clock.stepDuration
  timeOf_eq : ∀ tick, x.pivot ≤ tick → y.clock.timeOf tick = x.clock.timeOf tick

/-- The present tempo set once more. -/
theorem OnGrid.sameGrid_retempo {loop : Loop Rat} (h : loop.OnGrid) :
    loop.SameGrid (loop.retempo loop.clock.stepDuration) where
  eq_withClock := rfl
  duration_eq := rfl
  timeOf_eq tick htick := by
    obtain ⟨n, rfl⟩ := Nat.exists_eq_add_of_le htick
    show (loop.clock.retempo loop.pivot _).timeOf _ = _
    rw [StepClock.timeOf_retempo, StepClock.timeOf_add h.anchor_le_pivot]

section

variable {x y : Loop Rat}

theorem SameGrid.timeOf_next (h : x.SameGrid y) (hgrid : x.OnGrid) (n : Nat) :
    y.clock.timeOf (y.nextTick + n) = x.clock.timeOf (x.nextTick + n) := by
  have hnext : y.nextTick = x.nextTick := by
    rw [h.eq_withClock]
  rw [hnext]
  exact h.timeOf_eq _ (hgrid.pivot_le.trans (Nat.le_add_right _ _))

theorem SameGrid.nextTime_eq (h : x.SameGrid y) (hgrid : x.OnGrid) : y.nextTime = x.nextTime :=
  h.timeOf_next hgrid 0

/-- The next tick and all later ones are the same. -/
theorem SameGrid.nthTick_eq (h : x.SameGrid y) (hgrid : x.OnGrid) (k : Nat) :
    y.nthTick k = x.nthTick k := by
  unfold nthTick
  rw [h.timeOf_next hgrid, h.duration_eq, cycle, h.eq_withClock]
  rfl

theorem SameGrid.countUntil_eq (h : x.SameGrid y) (hgrid : x.OnGrid) (time : Rat) :
    y.countUntil time = x.countUntil time := by
  unfold countUntil
  rw [h.nextTime_eq hgrid, h.duration_eq]

theorem SameGrid.skip (h : x.SameGrid y) (n : Nat) : (x.skip n).SameGrid (y.skip n) where
  eq_withClock := by
    rw [h.eq_withClock]
    rfl
  duration_eq := h.duration_eq
  timeOf_eq tick htick := by
    refine h.timeOf_eq tick (le_trans ?_ htick)
    show x.lastTick.getD x.nextTick ≤ x.lastTick.getD (x.nextTick + n)
    cases x.lastTick with
    | none => exact Nat.le_add_right _ _
    | some tick => exact le_rfl

theorem SameGrid.advance (h : x.SameGrid y) (hgrid : x.OnGrid) :
    x.advance.SameGrid y.advance where
  eq_withClock := by
    rw [h.eq_withClock]
    rfl
  duration_eq := h.duration_eq
  timeOf_eq tick htick := h.timeOf_eq tick (hgrid.pivot_le.trans htick)

theorem SameGrid.advanceBy (h : x.SameGrid y) (hgrid : x.OnGrid) (n : Nat) :
    (x.advanceBy n).SameGrid (y.advanceBy n) := by
  induction n with
  | zero => exact h
  | succ n ih => exact ih.advance (hgrid.advanceBy n)

/-- A new tempo gives both the same grid. -/
theorem SameGrid.retempo_eq (h : x.SameGrid y) (duration : Rat) :
    y.retempo duration = x.retempo duration := by
  have hpivot : y.pivot = x.pivot := by
    unfold pivot
    rw [h.eq_withClock]
  have hclock : y.clock.retempo y.pivot duration = x.clock.retempo x.pivot duration := by
    rw [StepClock.retempo, hpivot, h.timeOf_eq _ le_rfl]
    rfl
  show { y with clock := y.clock.retempo y.pivot duration } = _
  rw [hclock, h.eq_withClock]
  rfl

end

end Loop

namespace Sequencer

/-! ## Two tempos in a row -/

/-- The last of two tempos wins. -/
theorem setTempo_setTempo (seq : Sequencer Rat) (first last : Rat) :
    (seq.setTempo first).setTempo last = seq.setTempo last := by
  unfold setTempo
  dsimp only
  rw [Option.map_map]
  congr 2
  funext loop
  exact loop.retempo_retempo _ _

/-- Of a row of tempos the last wins. -/
theorem after_tempos (seq : Sequencer Rat) (tempos : List Rat) (last : Rat) :
    seq.after ((tempos ++ [last]).map .setTempo) = seq.setTempo last := by
  induction tempos generalizing seq with
  | nil => rfl
  | cons first rest ih => exact (ih (seq.setTempo first)).trans (seq.setTempo_setTempo first last)

/-! ## Sequencers whose loops have another anchor -/

/-- Two running sequencers that differ in the anchors of their loops' grids only. -/
structure Reanchored (a b : Sequencer Rat) (x y : Loop Rat) : Prop where
  left : a.Playing x
  right : b.Playing y
  grid : x.SameGrid y
  eq_withLoop : b = { a with loop := some y }

section

variable {a b : Sequencer Rat} {x y : Loop Rat}

/-- Both loops step over the same ticks in a poll and hand out the same. -/
theorem Reanchored.window (h : Reanchored a b x y) (now : Rat) :
    (b.window y now).1 = (a.window x now).1 ∧
      (a.window x now).2.SameGrid (b.window y now).2 := by
  have hconfig : b.config = a.config := by
    rw [h.eq_withLoop]
  rw [a.window_eq h.left.onGrid h.left.nextStep_lt, b.window_eq h.right.onGrid h.right.nextStep_lt,
    hconfig]
  dsimp only
  -- The grids are the same up to any time, so as many ticks are missed and then handed out in both.
  rw [h.grid.countUntil_eq h.left.onGrid]
  generalize x.countUntil (now - a.config.lookahead) = missed
  have hgrid : (x.skip missed).OnGrid := h.left.onGrid.skip missed
  have hskip : (x.skip missed).SameGrid (y.skip missed) := h.grid.skip missed
  have hx : (x.skip missed).nextStep < (x.skip missed).cycle :=
    Nat.mod_lt _ (Nat.zero_lt_of_lt h.left.nextStep_lt)
  have hy : (y.skip missed).nextStep < (y.skip missed).cycle :=
    Nat.mod_lt _ (Nat.zero_lt_of_lt h.right.nextStep_lt)
  rw [hskip.countUntil_eq hgrid]
  generalize (x.skip missed).countUntil (now + a.config.lookahead) = count
  refine ⟨?_, hskip.advanceBy hgrid count⟩
  rw [Loop.nextTicks_eq_map hx, Loop.nextTicks_eq_map hy]
  exact List.map_congr_left fun k _ => hskip.nthTick_eq hgrid k

/-- A poll leaves a loop that plays on. -/
theorem Playing.window (h : a.Playing x) (now : Rat) :
    (a.poll now).sequencer.Playing (a.window x now).2 := by
  have hafter : (a.poll now).sequencer =
      (a.handedOut (a.window x now).1 (a.window x now).2).delivered now :=
    apply_poll_of_loop h.running h.loop_eq now
  obtain ⟨_, _, hpatterns, hstep⟩ := a.window_rest h.nextStep_lt now
  rw [hafter]
  refine ⟨h.running, rfl, ?_, ?_⟩
  · rw [a.window_eq h.onGrid h.nextStep_lt]
    exact (h.onGrid.skip _).advanceBy _
  · rw [Loop.cycle, hpatterns]
    exact hstep

theorem Reanchored.handedOut (h : Reanchored a b x y) (ticks : List (Tick Rat)) {x' y' : Loop Rat}
    (hrest : x'.SameGrid y') :
    b.handedOut ticks y' = { a.handedOut ticks x' with loop := some y' } := by
  rw [h.eq_withLoop, hrest.eq_withClock]
  rfl

theorem Reanchored.poll (h : Reanchored a b x y) (now : Rat) :
    b.dispatchedBy (.poll now) = a.dispatchedBy (.poll now) ∧
      (b.poll now).effects = (a.poll now).effects ∧
      Reanchored (a.poll now).sequencer (b.poll now).sequencer (a.window x now).2
        (b.window y now).2 := by
  obtain ⟨hticks, hrest⟩ := h.window now
  have ha := fillWindow_of_loop h.left.running h.left.loop_eq now
  have hb := fillWindow_of_loop h.right.running h.right.loop_eq now
  rw [hticks, h.handedOut _ hrest] at hb
  refine ⟨?_, ?_, h.left.window now, h.right.window now, hrest, ?_⟩
  · show (b.fillWindow now).2 = (a.fillWindow now).2
    rw [ha, hb]
  · have hconfig : b.config = a.config := by
      rw [h.eq_withLoop]
    unfold Sequencer.poll
    rw [ha, hb, hconfig]
    rfl
  · unfold Sequencer.poll
    rw [ha, hb]
    rfl

/-- A set that is handed in takes the same slot in both. -/
theorem Reanchored.replacePatterns (h : Reanchored a b x y) (patterns : PatternSet) (now : Rat) :
    b.replacePatterns patterns now = a.replacePatterns patterns now := by
  have hslot : b.slot now = a.slot now := by
    unfold slot
    rw [h.left.loop_eq, h.right.loop_eq]
    dsimp only
    rw [h.grid.nextTime_eq h.left.onGrid]
  have hidle : b.idleWith patterns = a.idleWith patterns := by
    rw [h.eq_withLoop]
    rfl
  rw [replacePatterns_eq_of_running h.left.running, replacePatterns_eq_of_running h.right.running,
    hslot, hidle]

/-- Nothing is left of the loops when they are dropped. -/
theorem Reanchored.voidPending (h : Reanchored a b x y) (now : Rat) :
    b.voidPending now = a.voidPending now := by
  have hid : y.id = x.id := by
    rw [h.grid.eq_withClock]
  have hstep : y.nextStep = x.nextStep := by
    rw [h.grid.eq_withClock]
  rw [h.eq_withLoop]
  unfold Sequencer.voidPending deliverDue
  dsimp only
  rw [h.left.loop_eq]
  dsimp only
  rw [hid, hstep]

theorem Reanchored.dispatchedBy (h : Reanchored a b x y) (op : Operation Rat) :
    b.dispatchedBy op = a.dispatchedBy op := by
  cases op with
  | poll now => exact (h.poll now).1
  | _ => rfl

/-- Whatever is asked of both, they do the same, and then they are the same or still differ in the
anchors of their loops' grids only. -/
theorem Reanchored.apply (h : Reanchored a b x y) (op : Operation Rat) :
    b.apply op = a.apply op ∨
      shown (b.apply op) = shown (a.apply op) ∧
        ∃ x' y', Reanchored (a.apply op).sequencer (b.apply op).sequencer x' y' := by
  cases op with
  | subscribe =>
    refine Or.inr ⟨rfl, x, y, ?_, ?_, h.grid, ?_⟩
    · exact ⟨h.left.running, h.left.loop_eq, h.left.onGrid, h.left.nextStep_lt⟩
    · exact ⟨h.right.running, h.right.loop_eq, h.right.onGrid, h.right.nextStep_lt⟩
    · rw [h.eq_withLoop]
      rfl
  | replacePatterns patterns now =>
    refine Or.inl ?_
    rw [Sequencer.apply, Sequencer.apply, h.replacePatterns]
  | submitText text now =>
    refine Or.inl ?_
    rw [Sequencer.apply, Sequencer.apply, submitText, submitText, h.replacePatterns]
  | start clock =>
    have hignored : ∀ {seq : Sequencer Rat}, seq.state = .running →
        seq.apply (.start clock) = ⟨.ok (), seq, []⟩ := fun hrun =>
      apply_start_of_not_stopped (by simp [hrun]) clock
    rw [hignored h.left.running, hignored h.right.running]
    exact Or.inr ⟨rfl, x, y, h⟩
  | pause now =>
    refine Or.inl ?_
    rw [Sequencer.apply, Sequencer.apply, pause, pause, h.left.running, h.right.running]
    dsimp only
    rw [h.voidPending]
  | resume now =>
    have hignored : ∀ {seq : Sequencer Rat}, seq.state = .running →
        seq.apply (.resume now) = ⟨.ok (), seq, []⟩ := fun hrun =>
      resume_of_not_paused (by simp [hrun]) now
    rw [hignored h.left.running, hignored h.right.running]
    exact Or.inr ⟨rfl, x, y, h⟩
  | stop now =>
    refine Or.inl ?_
    rw [Sequencer.apply, Sequencer.apply, stop, stop, h.voidPending]
  | setTempo bpm =>
    refine Or.inl ?_
    have hloop : y.retempo = x.retempo := funext h.grid.retempo_eq
    rw [Sequencer.apply, Sequencer.apply, h.eq_withLoop]
    unfold setTempo
    dsimp only
    rw [h.left.loop_eq, Option.map_some, Option.map_some, hloop]
    rfl
  | poll now =>
    obtain ⟨_, heffects, hafter⟩ := h.poll now
    exact Or.inr ⟨congrArg (Prod.mk _) heffects, _, _, hafter⟩

/-- In every run both do the same. -/
theorem Reanchored.run (h : Reanchored a b x y) (later : List (Operation Rat)) :
    (b.run later).map shown = (a.run later).map shown ∧
      b.dispatched later = a.dispatched later := by
  induction later generalizing a b x y with
  | nil => exact ⟨rfl, rfl⟩
  | cons op rest ih =>
    have hticks := h.dispatchedBy op
    rw [Sequencer.run, Sequencer.run, List.map_cons, List.map_cons, dispatched, dispatched, collect,
      collect, hticks]
    rcases h.apply op with hsame | ⟨hshown, x', y', hafter⟩
    · rw [hsame]
      exact ⟨rfl, rfl⟩
    · obtain ⟨hrest, hdispatched⟩ := ih hafter
      rw [hshown, hrest]
      exact ⟨rfl, congrArg (_ ++ ·) hdispatched⟩

end

/-! ## The present tempo -/

/-- The present tempo set once more gives the running loop another anchor, if there is one. -/
theorem OnTime.setTempo_bpm {seq : Sequencer Rat} (h : seq.OnTime) :
    seq.setTempo seq.tempo.bpm = seq ∨
      ∃ loop, Reanchored seq (seq.setTempo seq.tempo.bpm) loop
        (loop.retempo loop.clock.stepDuration) := by
  have htempo : Tempo.ofBpm seq.tempo.bpm = seq.tempo := h.tempo_inRange.ofBpm_bpm
  have hset : seq.setTempo seq.tempo.bpm =
      { seq with loop := seq.loop.map (·.retempo seq.stepDuration) } := by
    unfold setTempo
    dsimp only
    rw [htempo]
  cases hloop : seq.loop with
  | none =>
    refine Or.inl ?_
    rw [hset, hloop, Option.map_none, ← hloop]
  | some loop =>
    have hplaying := h.playing hloop
    have hgrid := hplaying.onGrid
    have hduration : loop.clock.stepDuration = seq.stepDuration :=
      (h.loop_plays hloop).2.duration_eq
    rw [hloop, Option.map_some, ← hduration] at hset
    refine Or.inr ⟨loop, hplaying, ?_, hgrid.sameGrid_retempo, hset⟩
    rw [hset]
    exact ⟨hplaying.running, rfl, hgrid.retempo hgrid.duration_pos, hplaying.nextStep_lt⟩

/-- Of several tempos that are set in a row the last wins: the sequencer is left as if it had been
set alone, and nothing is done meanwhile.  The present tempo set once more leaves the tempo, the
time between steps and the next tick and all later ones as they are, and nothing that is asked of
the sequencer later shows that it was set: not its answers and effects, and not the ticks that it
dispatches. -/
theorem last_tempo_wins (config : SequencerConfig Rat) (ops : List (Operation Rat)) :
    let seq := (new config).after ops
    let again := seq.setTempo seq.tempo.bpm
    (∀ first last, (seq.setTempo first).setTempo last = seq.setTempo last) ∧
      (∀ tempos last,
        seq.after ((tempos ++ [last]).map .setTempo) = seq.setTempo last ∧
          seq.effects ((tempos ++ [last]).map .setTempo) = []) ∧
      again.tempo = seq.tempo ∧ again.stepDuration = seq.stepDuration ∧
      (∀ k, again.loop.map (·.nthTick k) = seq.loop.map (·.nthTick k)) ∧
      ∀ later, (again.run later).map shown = (seq.run later).map shown ∧
        again.dispatched later = seq.dispatched later := by
  intro seq again
  have hontime : seq.OnTime := onTime_after config ops
  have htempo : again.tempo = seq.tempo := hontime.tempo_inRange.ofBpm_bpm
  refine ⟨seq.setTempo_setTempo, fun tempos last => ⟨seq.after_tempos tempos last, ?_⟩, htempo, ?_,
    ?_⟩
  · rw [effects_eq_collect]
    exact collect_append_tempos (fun _ _ => rfl) seq [] (tempos ++ [last])
  · unfold stepDuration
    rw [htempo]
    rfl
  · rcases hontime.setTempo_bpm with hsame | ⟨loop, hreanchored⟩
    · rw [show again = seq from hsame]
      exact ⟨fun _ => rfl, fun _ => ⟨rfl, rfl⟩⟩
    · refine ⟨fun k => ?_, hreanchored.run⟩
      rw [hreanchored.left.loop_eq, hreanchored.right.loop_eq, Option.map_some, Option.map_some,
        hreanchored.grid.nthTick_eq hreanchored.left.onGrid]

end Sequencer

end Groovebox
