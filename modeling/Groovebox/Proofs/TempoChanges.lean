import Groovebox.Proofs.LiveSwap
import Groovebox.Proofs.StepGroups

/-!
# Ticks that a tempo change loses

A host that polls often enough finds every tick in time, as long as the tempo stays: what a poll
leaves is at least `lookahead` ahead of it, so that the next poll does not find it overdue.  A new
tempo moves the next tick to one new step after the last one dispatched, and that can be long past.
The next poll then steps over it, though the host has not stalled.

While no tick is stepped over, the loop's next tick is one step after the last one dispatched
(`Loop.Unbroken.nextTime_eq`).  So what a poll steps over is known from the last tick dispatched and
the tempo (`skippedBy_poll_of_last`), and no tick is lost if and only if no tempo change has moved
the next one out of the next poll's window (`no_tick_skipped_iff`).
-/

namespace Groovebox

/-- Whether an operation is a poll or a change of the tempo. -/
def Operation.steers {τ : Type} : Operation τ → Bool
  | poll _ => true
  | setTempo _ => true
  | _ => false

/-! ## Loops that step over nothing -/

namespace Loop

/-- A loop that began at a time, has handed out ticks from its first one on and has stepped over
none. -/
structure Unbroken (loop : Loop Rat) (start : Rat) (ticks : List (Tick Rat)) : Prop where
  nextTick_eq : loop.nextTick = ticks.length
  nextStep_eq : loop.nextStep = ticks.length % loop.cycle
  lastTick_eq : loop.lastTick = ticks.getLast?.map fun _ => ticks.length - 1
  start_eq : ticks = [] → loop.nextTime = start
  time_eq : ∀ last ∈ ticks.getLast?, loop.clock.timeOf (ticks.length - 1) = last.time
  inOrder : InOrder loop.patterns ticks

/-- The next tick is one step after the last one handed out. -/
theorem Unbroken.nextTime_eq {loop : Loop Rat} {start : Rat} {ticks : List (Tick Rat)}
    (h : loop.Unbroken start ticks) (hgrid : loop.OnGrid) {last : Tick Rat}
    (hlast : last ∈ ticks.getLast?) : loop.nextTime = last.time + loop.clock.stepDuration := by
  have htick : loop.lastTick = some (ticks.length - 1) := by
    rw [h.lastTick_eq, hlast]
    rfl
  obtain ⟨hanchor, hbefore⟩ := hgrid.lastTick_mem _ htick
  have hnext : loop.nextTick = ticks.length - 1 + 1 := by
    rw [h.nextTick_eq] at hbefore ⊢
    omega
  rw [nextTime, hnext, StepClock.timeOf_add hanchor, h.time_eq last hlast, Nat.cast_one, one_mul]

theorem Unbroken.advance {loop : Loop Rat} {start : Rat} {ticks : List (Tick Rat)}
    (h : loop.Unbroken start ticks) (hstep : loop.nextStep < loop.cycle) :
    loop.advance.Unbroken start (ticks ++ [loop.tick]) where
  nextTick_eq := by
    show loop.nextTick + 1 = _
    rw [h.nextTick_eq, List.length_append, List.length_singleton]
  nextStep_eq := by
    show (loop.nextStep + 1) % loop.cycle = _ % loop.cycle
    rw [h.nextStep_eq, Nat.mod_add_mod, List.length_append, List.length_singleton]
  lastTick_eq := by
    show some loop.nextTick = _
    rw [List.getLast?_concat, Option.map_some, h.nextTick_eq, List.length_append,
      List.length_singleton, Nat.add_sub_cancel]
  start_eq hnil := absurd hnil (by simp)
  time_eq last hlast := by
    rw [List.getLast?_concat] at hlast
    cases hlast
    show loop.clock.timeOf _ = loop.clock.timeOf loop.nextTick
    rw [h.nextTick_eq, List.length_append, List.length_singleton, Nat.add_sub_cancel]
  inOrder := h.inOrder.append_nextTicks hstep h.nextStep_eq 1

/-- Handing out the next ticks breaks nothing. -/
theorem Unbroken.advanceBy {loop : Loop Rat} {start : Rat} {ticks : List (Tick Rat)}
    (h : loop.Unbroken start ticks) (hstep : loop.nextStep < loop.cycle) (n : Nat) :
    (loop.advanceBy n).Unbroken start (ticks ++ loop.nextTicks n) := by
  induction n with
  | zero =>
    show loop.Unbroken start (ticks ++ [])
    rwa [List.append_nil]
  | succ n ih =>
    rw [nextTicks_concat, ← List.append_assoc]
    exact ih.advance (nextStep_advanceBy_lt hstep n)

/-- A new tempo keeps the first tick at its time until it is handed out. -/
theorem nextTime_retempo_of_none {loop : Loop Rat} (h : loop.lastTick = none) (duration : Rat) :
    (loop.retempo duration).nextTime = loop.nextTime := by
  show (loop.clock.retempo (loop.lastTick.getD loop.nextTick) duration).timeOf loop.nextTick = _
  rw [h, Option.getD_none, StepClock.timeOf_retempo_self, nextTime]

/-- A new tempo keeps the last tick handed out at its time. -/
theorem Unbroken.retempo {loop : Loop Rat} {start : Rat} {ticks : List (Tick Rat)}
    (h : loop.Unbroken start ticks) (duration : Rat) :
    (loop.retempo duration).Unbroken start ticks where
  nextTick_eq := h.nextTick_eq
  nextStep_eq := h.nextStep_eq
  lastTick_eq := h.lastTick_eq
  start_eq hnil := by
    have hnone : loop.lastTick = none := by
      rw [h.lastTick_eq, hnil]
      rfl
    rw [nextTime_retempo_of_none hnone, h.start_eq hnil]
  time_eq last hlast := by
    have htick : loop.lastTick = some (ticks.length - 1) := by
      rw [h.lastTick_eq, hlast]
      rfl
    show (loop.clock.retempo (loop.lastTick.getD loop.nextTick) duration).timeOf _ = _
    rw [htick, Option.getD_some, StepClock.timeOf_retempo_self, h.time_eq last hlast]
  inOrder := h.inOrder

end Loop

namespace Sequencer

/-! ## Operations on a loop that is played -/

/-- A poll steps over nothing if and only if its window reaches back to the next tick. -/
theorem Playing.skippedBy_eq_nil_iff {seq : Sequencer Rat} {loop : Loop Rat} (h : seq.Playing loop)
    (now : Rat) :
    seq.skippedBy (.poll now) = [] ↔ now - seq.config.lookahead ≤ loop.nextTime := by
  rw [skippedBy, h.running, h.loop_eq]
  dsimp only
  rw [List.range'_eq_nil_iff, h.onGrid.skipBefore_eq_skip h.nextStep_lt]
  show loop.nextTick + loop.countUntil (now - seq.config.lookahead) - loop.nextTick = 0 ↔ _
  rw [Nat.add_sub_cancel_left, ← Nat.le_zero, h.onGrid.countUntil_le_iff, Nat.add_zero]
  rfl

/-- A poll that steps over nothing hands out the next ticks, and the tick after them is out of its
window. -/
theorem Playing.poll {seq : Sequencer Rat} {loop : Loop Rat} (h : seq.Playing loop) {now : Rat}
    (hskip : seq.skippedBy (.poll now) = []) :
    ∃ n, seq.dispatchedBy (.poll now) = loop.nextTicks n ∧
      (seq.apply (.poll now)).sequencer.Playing (loop.advanceBy n) ∧
      now + seq.config.lookahead ≤ (loop.advanceBy n).nextTime := by
  obtain ⟨hticks, _, hplaying⟩ := h.apply_poll ((h.skippedBy_eq_nil_iff now).mp hskip) rfl
  refine ⟨_, hticks, hplaying, ?_⟩
  rw [Loop.nextTime_advanceBy]
  exact h.onGrid.countUntil_le_iff.mp le_rfl

theorem Playing.setTempo {seq : Sequencer Rat} {loop : Loop Rat} (h : seq.Playing loop)
    (bpm : Rat) :
    (seq.apply (.setTempo bpm)).sequencer.Playing
      (loop.retempo (seq.apply (.setTempo bpm)).sequencer.stepDuration) where
  running := h.running
  loop_eq := congrArg (Option.map _) h.loop_eq
  onGrid := h.onGrid.retempo ((Tempo.inRange_ofBpm bpm).stepDuration_pos _)
  nextStep_lt := h.nextStep_lt

/-- A start that is granted begins a loop of the set that is active then. -/
theorem OnTime.playing_start {seq : Sequencer Rat} (h : seq.OnTime) (hstate : seq.state = .stopped)
    {clock : ManualClock Rat} (hstart : (seq.apply (.start clock)).result = .ok ()) :
    ∃ loop, (seq.apply (.start clock)).sequencer.Playing loop ∧
      loop.Unbroken clock.now [] ∧
      loop.clock.stepDuration = (seq.apply (.start clock)).sequencer.stepDuration ∧
      loop.patterns = (seq.apply (.start clock)).sequencer.patterns := by
  have hontime := h.apply (.start clock)
  rw [apply_start_of_stopped hstate] at hstart hontime ⊢
  dsimp only at hstart hontime ⊢
  rw [hstart] at hontime ⊢
  dsimp only at hontime ⊢
  obtain ⟨hnext, hstep, hpatterns, hduration⟩ := loop_installLoop rfl
  obtain ⟨hrun, hplays⟩ := hontime.loop_plays rfl
  refine ⟨_, ⟨hrun, rfl, hontime.loop_onGrid _ rfl, hplays.nextStep_lt_cycle⟩, ?_, hduration,
    hpatterns⟩
  exact {
    nextTick_eq := rfl
    nextStep_eq := hstep.trans (Nat.zero_mod _).symm
    lastTick_eq := rfl
    start_eq := fun _ => hnext
    time_eq := fun _ hlast => by cases hlast
    inOrder := InOrder.nil _ }

/-! ## Runs of polls and tempo changes -/

/-- A sequencer whose loop has handed out ticks and stepped over none, and is at its tempo. -/
structure Going (seq : Sequencer Rat) (loop : Loop Rat) (start : Rat) (ticks : List (Tick Rat)) :
    Prop extends seq.Playing loop where
  unbroken : loop.Unbroken start ticks
  duration_eq : loop.clock.stepDuration = seq.stepDuration

section Runs

variable {seq : Sequencer Rat} {first : Loop Rat} {start : Rat}

/-- Until a tick is stepped over, the loop goes on from tick to tick. -/
theorem Going.after (h : seq.Going first start []) {ops : List (Operation Rat)}
    (hops : ∀ op ∈ ops, op.steers = true) (hskip : seq.skipped ops = []) :
    ∃ loop, (seq.after ops).Going loop start (seq.dispatched ops) ∧
      loop.patterns = first.patterns := by
  induction ops using List.reverseRecOn with
  | nil => exact ⟨first, h, rfl⟩
  | append_singleton front op ih =>
    rw [skipped, collect_concat, List.append_eq_nil_iff] at hskip
    obtain ⟨loop, hloop, hpatterns⟩ :=
      ih (fun op' hop' => hops op' (List.mem_append_left _ hop')) hskip.1
    rw [after_concat, dispatched, collect_concat, ← dispatched]
    cases op with
    | poll now =>
      obtain ⟨n, hticks, hplaying, _⟩ := hloop.toPlaying.poll hskip.2
      refine ⟨loop.advanceBy n, ⟨hplaying, ?_, ?_⟩, ?_⟩
      · rw [hticks]
        exact hloop.unbroken.advanceBy hloop.nextStep_lt n
      · rw [Loop.clock_advanceBy, hloop.duration_eq,
          apply_poll_of_loop hloop.running hloop.loop_eq]
        rfl
      · rw [Loop.patterns_advanceBy, hpatterns]
    | setTempo bpm =>
      refine ⟨_, ⟨hloop.toPlaying.setTempo bpm, ?_, rfl⟩, hpatterns⟩
      show Loop.Unbroken _ start (seq.dispatched front ++ [])
      rw [List.append_nil]
      exact hloop.unbroken.retempo _
    | _ => exact absurd (hops _ (List.mem_append_right _ List.mem_cons_self)) Bool.false_ne_true

/-- What a poll steps over is known from the last tick dispatched and the tempo. -/
theorem Going.skippedBy_poll_of_last (h : seq.Going first start []) {front : List (Operation Rat)}
    (hops : ∀ op ∈ front, op.steers = true) (hskip : seq.skipped front = []) {last : Tick Rat}
    (hlast : last ∈ (seq.dispatched front).getLast?) (now : Rat) :
    (seq.after front).skippedBy (.poll now) = [] ↔
      now - seq.config.lookahead ≤ last.time + (seq.after front).stepDuration := by
  obtain ⟨loop, hloop, _⟩ := h.after hops hskip
  rw [hloop.skippedBy_eq_nil_iff, hloop.unbroken.nextTime_eq hloop.onGrid hlast, hloop.duration_eq,
    config_after]

/-- Before the first tick is dispatched, it stays where it was. -/
theorem Going.skippedBy_poll_of_nil (h : seq.Going first start []) {front : List (Operation Rat)}
    (hops : ∀ op ∈ front, op.steers = true) (hskip : seq.skipped front = [])
    (hnil : seq.dispatched front = []) (now : Rat) :
    (seq.after front).skippedBy (.poll now) = [] ↔ now - seq.config.lookahead ≤ start := by
  obtain ⟨loop, hloop, _⟩ := h.after hops hskip
  rw [hloop.skippedBy_eq_nil_iff, hloop.unbroken.start_eq hnil, config_after]

/-- After a poll that steps over nothing, the tick after the last one dispatched, or the first one
of all, is out of the poll's window. -/
theorem Going.le_after_poll (h : seq.Going first start []) {front : List (Operation Rat)}
    {now : Rat} (hops : ∀ op ∈ front ++ [.poll now], op.steers = true)
    (hskip : seq.skipped (front ++ [.poll now]) = []) :
    (seq.dispatched (front ++ [.poll now]) = [] → now + seq.config.lookahead ≤ start) ∧
      ∀ last ∈ (seq.dispatched (front ++ [.poll now])).getLast?,
        now + seq.config.lookahead ≤
          last.time + (seq.after (front ++ [.poll now])).stepDuration := by
  obtain ⟨loop, hloop, _⟩ := h.after hops hskip
  rw [skipped, collect_concat, List.append_eq_nil_iff] at hskip
  obtain ⟨before, hbefore, _⟩ :=
    h.after (fun op hop => hops op (List.mem_append_left _ hop)) hskip.1
  obtain ⟨n, _, hplaying, hnext⟩ := hbefore.toPlaying.poll hskip.2
  -- the loop after the poll is the one that the poll leaves
  rw [← after_concat] at hplaying
  obtain rfl : loop = before.advanceBy n := by
    have heq := hloop.loop_eq.symm.trans hplaying.loop_eq
    exact Option.some.inj heq
  rw [config_after] at hnext
  constructor
  · intro hnil
    rwa [hloop.unbroken.start_eq hnil] at hnext
  · intro last hlast
    rwa [hloop.unbroken.nextTime_eq hloop.onGrid hlast, hloop.duration_eq] at hnext

/-! ## Polls that come often enough -/

/-- Some operations are all tempo changes, or there is a last poll among them. -/
theorem tempos_or_last_poll {ops : List (Operation Rat)} (hops : ∀ op ∈ ops, op.steers = true) :
    (∃ tempos : List Rat, ops = tempos.map .setTempo) ∨
      ∃ front poll, ∃ tempos : List Rat, ops = front ++ .poll poll :: tempos.map .setTempo := by
  induction ops using List.reverseRecOn with
  | nil => exact Or.inl ⟨[], rfl⟩
  | append_singleton front op ih =>
    have hop := hops op (List.mem_append_right _ List.mem_cons_self)
    cases op with
    | poll poll => exact Or.inr ⟨front, poll, [], rfl⟩
    | setTempo bpm =>
      rcases ih fun op' hop' => hops op' (List.mem_append_left _ hop') with
        ⟨tempos, rfl⟩ | ⟨front, poll, tempos, rfl⟩
      · exact Or.inl ⟨tempos ++ [bpm], by rw [List.map_append, List.map_singleton]⟩
      · exact Or.inr ⟨front, poll, tempos ++ [bpm], by simp⟩
    | _ => exact absurd hop Bool.false_ne_true

/-- Tempo changes leave nothing behind in a record of polls. -/
theorem collect_append_tempos {α : Type} {record : Sequencer Rat → Operation Rat → List α}
    (hrecord : ∀ seq bpm, record seq (.setTempo bpm) = []) (seq : Sequencer Rat)
    (front : List (Operation Rat)) (tempos : List Rat) :
    seq.collect record (front ++ tempos.map .setTempo) = seq.collect record front := by
  have htempos : ∀ seq : Sequencer Rat, seq.collect record (tempos.map .setTempo) = [] := by
    induction tempos with
    | nil => exact fun _ => rfl
    | cons bpm rest ih =>
      intro seq
      rw [List.map_cons, collect, hrecord, ih, List.append_nil]
  rw [collect_append, htempos, List.append_nil]

/-- Tempo changes after a poll dispatch nothing. -/
theorem dispatched_poll_tempos (seq : Sequencer Rat) (front : List (Operation Rat)) (poll : Rat)
    (tempos : List Rat) :
    seq.dispatched (front ++ .poll poll :: tempos.map .setTempo) =
      seq.dispatched (front ++ [.poll poll]) := by
  rw [← List.singleton_append, ← List.append_assoc]
  exact collect_append_tempos (fun _ _ => rfl) seq _ tempos

theorem stepDuration_after_setTempo (seq : Sequencer Rat) (front : List (Operation Rat))
    (bpm : Rat) :
    (seq.after (front ++ [.setTempo bpm])).stepDuration =
      (Tempo.ofBpm bpm).stepDuration seq.config.stepsPerBeat := by
  rw [after_concat, ← config_after seq front]
  rfl

/-- No poll of a run steps over a tick if none does that comes first to do so. -/
theorem skipped_eq_nil {seq : Sequencer Rat} {ops : List (Operation Rat)}
    (hpoll : ∀ front now rest, ops = front ++ .poll now :: rest → seq.skipped front = [] →
      (seq.after front).skippedBy (.poll now) = []) : seq.skipped ops = [] := by
  induction ops using List.reverseRecOn with
  | nil => rfl
  | append_singleton front op ih =>
    have hfront : seq.skipped front = [] := by
      refine ih fun front' now rest heq => hpoll front' now (rest ++ [op]) ?_
      rw [heq, List.append_assoc, List.cons_append]
    rw [skipped, collect_concat, ← skipped, hfront, List.nil_append]
    cases op with
    | poll now => exact hpoll front now [] rfl hfront
    | _ => rfl

/-- The times at which a run is polled are each at most a span after the one before. -/
def PolledWithin (span start : Rat) (ops : List (Operation Rat)) : Prop :=
  (start :: ops.filterMap Operation.time?).IsChain fun earlier later => later ≤ earlier + span

theorem filterMap_time?_tempos (tempos : List Rat) :
    (tempos.map Operation.setTempo).filterMap Operation.time? = [] := by
  rw [List.filterMap_map, List.filterMap_eq_nil_iff]
  exact fun _ _ => rfl

theorem PolledWithin.le_of_tempos {span : Rat} {tempos : List Rat} {now : Rat}
    {rest : List (Operation Rat)}
    (h : PolledWithin span start (tempos.map .setTempo ++ .poll now :: rest)) :
    now ≤ start + span := by
  rw [PolledWithin, List.filterMap_append, filterMap_time?_tempos, List.nil_append] at h
  exact (List.isChain_cons_cons.mp h).1

theorem PolledWithin.le_of_last_poll {span : Rat} {front : List (Operation Rat)} {poll : Rat}
    {tempos : List Rat} {now : Rat} {rest : List (Operation Rat)}
    (h : PolledWithin span start
      (front ++ .poll poll :: tempos.map .setTempo ++ .poll now :: rest)) :
    now ≤ poll + span := by
  have htimes : (front ++ Operation.poll poll :: tempos.map Operation.setTempo ++
      Operation.poll now :: rest).filterMap Operation.time? =
        front.filterMap Operation.time? ++ poll :: now :: rest.filterMap Operation.time? := by
    rw [List.filterMap_append, List.filterMap_append, List.append_assoc]
    show _ ++ (poll :: (tempos.map Operation.setTempo).filterMap Operation.time? ++ _) = _
    rw [filterMap_time?_tempos]
    rfl
  rw [PolledWithin, htimes, ← List.cons_append] at h
  exact (List.isChain_cons_cons.mp (List.isChain_append.mp h).2.1).1

/-- While no tick has been stepped over, a poll that comes soon enough after the one before steps
over none either, unless the tempo has changed in between. -/
theorem Going.not_skipped (h : seq.Going first start []) (hlookahead : 0 ≤ seq.config.lookahead)
    {front rest : List (Operation Rat)} {now : Rat} (hops : ∀ op ∈ front, op.steers = true)
    (hskip : seq.skipped front = [])
    (hpolled : PolledWithin seq.config.lookahead start (front ++ .poll now :: rest))
    (htempo : ∀ before poll bpm, ∀ tempos : List Rat,
      front = before ++ .poll poll :: (tempos ++ [bpm]).map .setTempo →
        now ≤ poll + seq.config.lookahead →
          ∀ last ∈ (seq.dispatched (before ++ [.poll poll])).getLast?,
            poll + seq.config.lookahead ≤
                last.time + (seq.after (before ++ [.poll poll])).stepDuration →
              now - seq.config.lookahead ≤ last.time + (seq.after front).stepDuration) :
    (seq.after front).skippedBy (.poll now) = [] := by
  rcases tempos_or_last_poll hops with ⟨tempos, rfl⟩ | ⟨before, poll, tempos, rfl⟩
  · -- the first poll comes soon enough after the start
    have hnil : seq.dispatched (tempos.map .setTempo) = [] :=
      collect_append_tempos (fun _ _ => rfl) seq [] tempos
    rw [h.skippedBy_poll_of_nil hops hskip hnil]
    have hle := hpolled.le_of_tempos
    linarith
  · have hle := hpolled.le_of_last_poll
    have hsplit : before ++ .poll poll :: tempos.map .setTempo =
        before ++ [.poll poll] ++ tempos.map .setTempo := by
      rw [List.append_assoc, List.singleton_append]
    have hticks := dispatched_poll_tempos seq before poll tempos
    have hskipped : seq.skipped (before ++ [.poll poll]) = [] := by
      rw [hsplit] at hskip
      rwa [skipped, collect_append_tempos fun _ _ => rfl] at hskip
    have hbefore : ∀ op ∈ before ++ [.poll poll], op.steers = true := by
      intro op hop
      refine hops op ?_
      rw [hsplit]
      exact List.mem_append_left _ hop
    obtain ⟨hfirst, hnext⟩ := h.le_after_poll hbefore hskipped
    by_cases hnil : seq.dispatched (before ++ [.poll poll]) = []
    · rw [h.skippedBy_poll_of_nil hops hskip (hticks.trans hnil)]
      have hstart := hfirst hnil
      linarith
    · obtain ⟨last, hlast⟩ : ∃ last, last ∈ (seq.dispatched (before ++ [.poll poll])).getLast? :=
        ⟨_, List.getLast?_eq_some_getLast hnil⟩
      have hmem : last ∈
          (seq.dispatched (before ++ .poll poll :: tempos.map .setTempo)).getLast? := by
        rw [hticks]
        exact hlast
      rw [h.skippedBy_poll_of_last hops hskip hmem]
      have hahead := hnext last hlast
      rcases List.eq_nil_or_concat' tempos with rfl | ⟨earlier, bpm, rfl⟩
      · show now - seq.config.lookahead ≤ _
        rw [List.map_nil]
        linarith
      · exact htempo before poll bpm earlier rfl hle last hlast hahead

/-- No tick is stepped over if none is by a poll that comes right after tempo changes. -/
theorem Going.skipped_eq_nil (h : seq.Going first start []) (hlookahead : 0 ≤ seq.config.lookahead)
    {run : List (Operation Rat)} (hrun : ∀ op ∈ run, op.steers = true)
    (hpolled : PolledWithin seq.config.lookahead start run)
    (htempo : ∀ before poll bpm now rest, ∀ tempos : List Rat,
      run = before ++ .poll poll :: (tempos ++ [bpm]).map .setTempo ++ .poll now :: rest →
        now ≤ poll + seq.config.lookahead →
          ∀ last ∈ (seq.dispatched (before ++ [.poll poll])).getLast?,
            poll + seq.config.lookahead ≤
                last.time + (seq.after (before ++ [.poll poll])).stepDuration →
              now - seq.config.lookahead ≤ last.time +
                (seq.after (before ++ .poll poll :: (tempos ++ [bpm]).map .setTempo)).stepDuration) :
    seq.skipped run = [] := by
  refine Sequencer.skipped_eq_nil ?_
  rintro front now rest rfl hskip
  have hfront : ∀ op ∈ front, op.steers = true := fun op hop => hrun op (List.mem_append_left _ hop)
  refine h.not_skipped hlookahead hfront hskip hpolled ?_
  rintro before poll bpm tempos rfl
  exact htempo before poll bpm now rest tempos rfl

/-- If no tick is stepped over, the poll after a tempo change finds the next tick not overdue. -/
theorem Going.le_of_setTempo (h : seq.Going first start []) {front rest : List (Operation Rat)}
    {bpm now : Rat} (hops : ∀ op ∈ front ++ .setTempo bpm :: .poll now :: rest, op.steers = true)
    (hskip : seq.skipped (front ++ .setTempo bpm :: .poll now :: rest) = []) {last : Tick Rat}
    (hlast : last ∈ (seq.dispatched front).getLast?) :
    now - seq.config.lookahead ≤
      last.time + (Tempo.ofBpm bpm).stepDuration seq.config.stepsPerBeat := by
  rw [List.append_cons] at hops hskip
  rw [skipped, collect_append, collect, ← skipped, List.append_eq_nil_iff,
    List.append_eq_nil_iff] at hskip
  have hticks : seq.dispatched (front ++ [.setTempo bpm]) = seq.dispatched front :=
    collect_append_tempos (fun _ _ => rfl) seq front [bpm]
  have hmem : last ∈ (seq.dispatched (front ++ [.setTempo bpm])).getLast? := by
    rw [hticks]
    exact hlast
  rw [← stepDuration_after_setTempo seq front]
  have hfront : ∀ op ∈ front ++ [.setTempo bpm], op.steers = true :=
    fun op hop => hops op (List.mem_append_left _ hop)
  exact (h.skippedBy_poll_of_last hfront hskip.1 hmem now).mp hskip.2.1

end Runs

/-! ## Tempo changes -/

/-- Of a run that starts and then consists of polls and tempo changes, where the polls are at most
the lookahead apart: no tick is stepped over if and only if, whenever a poll comes right after a
tempo change, one new step after the last tick dispatched is not yet before the poll's window.  So
it is if from poll to poll the step does not become shorter by more than the lookahead.  While
no tick is stepped over, the steps dispatched are 0, 1, 2 and so on in the cycle. -/
theorem no_tick_skipped_iff (config : SequencerConfig Rat) (hlookahead : 0 ≤ config.lookahead)
    (ops : List (Operation Rat)) (hstopped : ((new config).after ops).state = .stopped)
    {clock : ManualClock Rat}
    (hstart : (((new config).after ops).apply (.start clock)).result = .ok ())
    {run : List (Operation Rat)} (hrun : ∀ op ∈ run, op.steers = true)
    (hpolled : PolledWithin config.lookahead clock.now run) :
    let seq := (((new config).after ops).apply (.start clock)).sequencer
    (seq.skipped run = [] ↔
      ∀ front bpm now rest, run = front ++ .setTempo bpm :: .poll now :: rest →
        ∀ last ∈ (seq.dispatched front).getLast?,
          now - config.lookahead ≤
            last.time + (Tempo.ofBpm bpm).stepDuration config.stepsPerBeat) ∧
    ((∀ front poll now rest, ∀ tempos : List Rat,
        run = front ++ .poll poll :: tempos.map .setTempo ++ .poll now :: rest →
          (seq.after (front ++ [.poll poll])).stepDuration - config.lookahead ≤
            (seq.after (front ++ .poll poll :: tempos.map .setTempo)).stepDuration) →
      seq.skipped run = []) ∧
    (seq.skipped run = [] →
      (seq.dispatched run).map (·.step) =
        (List.range (seq.dispatched run).length).map (· % seq.patterns.cycleLength)) := by
  intro seq
  obtain ⟨loop, hplaying, hunbroken, hduration, hpatterns⟩ :=
    (onTime_after config ops).playing_start hstopped hstart
  have hgoing : seq.Going loop clock.now [] := ⟨hplaying, hunbroken, hduration⟩
  have hconfig : seq.config = config := by
    rw [config_apply, config_after]
    rfl
  rw [← hconfig] at hlookahead hpolled ⊢
  refine ⟨⟨?_, ?_⟩, ?_, ?_⟩
  · rintro hskip front bpm now rest rfl last hlast
    exact hgoing.le_of_setTempo hrun hskip hlast
  · intro hcond
    refine hgoing.skipped_eq_nil hlookahead hrun hpolled ?_
    intro before poll bpm now rest tempos heq _ last hlast _
    -- only the last of the tempo changes counts, and the ones before it dispatch nothing
    rw [List.map_append, List.map_singleton, ← List.cons_append, ← List.append_assoc] at heq ⊢
    rw [stepDuration_after_setTempo]
    refine hcond (before ++ .poll poll :: tempos.map .setTempo) bpm now rest ?_ last ?_
    · rw [heq, List.append_assoc, List.singleton_append]
    · rw [dispatched_poll_tempos]
      exact hlast
  · intro hcond
    refine hgoing.skipped_eq_nil hlookahead hrun hpolled ?_
    intro before poll bpm now rest tempos heq hnow last _ hahead
    have hstep := hcond before poll now rest (tempos ++ [bpm]) heq
    linarith
  · intro hskip
    obtain ⟨loop', hloop', hsame⟩ := hgoing.after hrun hskip
    have hsteps := hloop'.unbroken.inOrder.steps_eq
    rwa [hsame, hpatterns] at hsteps

/-- Three drum hits are handed in. -/
def threeHits : List (Operation Rat) :=
  [.replacePatterns ⟨some (.ofWords ["kick", "snare", "clap"]), none, none⟩ 0]

/-- The three hits begin at time 0. -/
def hitsStarted : Sequencer Rat :=
  (((new .standard).after threeHits).apply (.start ⟨0, true, none⟩)).sequencer

/-- The tempo is doubled less than a fifth of a second after the first hit. -/
def doubledEarly : List (Operation Rat) :=
  [.setTempo 60, .poll 0, .poll (3 / 32), .setTempo 120, .poll (3 / 16)]

/-- The tempo is doubled when the first hit is more than a quarter of a second past. -/
def doubledLate : List (Operation Rat) :=
  [.setTempo 60, .poll 0, .poll (3 / 32), .poll (3 / 16), .poll (9 / 32), .poll (3 / 8),
    .setTempo 120, .poll (13 / 32)]

/-- The second hit moves to a quarter of a second after the first, which is still to come. -/
theorem no_tick_skipped_iff_early :
    0 ≤ (SequencerConfig.standard : SequencerConfig Rat).lookahead ∧
      ((new .standard).after threeHits).state = .stopped ∧
      (((new .standard).after threeHits).apply (.start ⟨0, true, none⟩)).result = .ok () ∧
      (∀ op ∈ doubledEarly, op.steers = true) ∧
      PolledWithin (SequencerConfig.standard : SequencerConfig Rat).lookahead 0 doubledEarly ∧
      hitsStarted.skipped doubledEarly = [] ∧
      ∀ last ∈ (hitsStarted.dispatched [.setTempo 60, .poll 0, .poll (3 / 32)]).getLast?,
        3 / 16 - (SequencerConfig.standard : SequencerConfig Rat).lookahead ≤
          last.time + (Tempo.ofBpm 120).stepDuration 2 := by
  have hlookahead : 0 ≤ (SequencerConfig.standard : SequencerConfig Rat).lookahead := by
    decide +kernel
  have hrun : ∀ op ∈ doubledEarly, op.steers = true := by decide
  have hpolled : PolledWithin (SequencerConfig.standard : SequencerConfig Rat).lookahead 0
      doubledEarly := by
    rw [PolledWithin]
    decide +kernel
  have hskip : hitsStarted.skipped doubledEarly = [] := by decide +kernel
  refine ⟨hlookahead, rfl, rfl, hrun, hpolled, hskip, ?_⟩
  exact (no_tick_skipped_iff .standard hlookahead threeHits rfl rfl hrun hpolled).1.mp hskip
    [.setTempo 60, .poll 0, .poll (3 / 32)] 120 (3 / 16) [] rfl

/-- Every poll comes in time, and the one after the tempo change steps over the second hit. -/
theorem late_tempo_change_skips_tick :
    0 < (SequencerConfig.standard : SequencerConfig Rat).lookahead ∧
      ((new .standard).after threeHits).state = .stopped ∧
      (((new .standard).after threeHits).apply (.start ⟨0, true, none⟩)).result = .ok () ∧
      (∀ op ∈ doubledLate, op.steers = true) ∧
      PolledWithin (SequencerConfig.standard : SequencerConfig Rat).lookahead 0 doubledLate ∧
      hitsStarted.skipped doubledLate = [1] ∧
      (hitsStarted.dispatched doubledLate).map (·.step) = [0, 2] := by
  refine ⟨?_, rfl, rfl, ?_, ?_, ?_, ?_⟩
  · decide +kernel
  · decide
  · rw [PolledWithin]
    decide +kernel
  · decide +kernel
  · decide +kernel

end Sequencer

end Groovebox
