import Groovebox.Proofs.TempoChanges
import Mathlib.Data.Nat.ModEq

/-!
# Ticks lost since the last one

A poll that finds ticks overdue steps over them and goes on with the tick after them.  That one may
still be out of its window, and then the loop has moved on though nothing was dispatched.  Two
things go by the last tick dispatched and do not move along:

* the sequencer's own step stays where it was, as many steps behind the loop's as ticks were lost
  (`step_eq_nextStep_iff`);
* a new tempo is anchored at the last tick dispatched, and the lost ticks are counted in when the
  next one is placed (`setTempo_places_next_tick`).

Both are as they should be if and only if no tick has been lost since (`lost`), for the step up to
whole cycles.
-/

namespace Groovebox

/-! ## Loops that are some ticks ahead -/

/-- A loop has stepped over some ticks since it last handed one out, when the sequencer was at a
step, or since it began. -/
structure Loop.AheadBy {τ : Type} (loop : Loop τ) (step lost : Nat) : Prop where
  nextTick_eq : loop.nextTick = loop.lastTick.elim 0 (· + 1) + lost
  nextStep_eq : loop.nextStep = (step + lost) % loop.cycle
  step_lt : step < loop.cycle

namespace Loop.AheadBy

variable {τ : Type} {loop : Loop τ} {step lost : Nat}

theorem skip (h : loop.AheadBy step lost) (n : Nat) : (loop.skip n).AheadBy step (lost + n) where
  nextTick_eq := by
    show loop.nextTick + n = loop.lastTick.elim 0 (· + 1) + (lost + n)
    rw [h.nextTick_eq, Nat.add_assoc]
  nextStep_eq := by
    show (loop.nextStep + n % loop.cycle) % loop.cycle = (step + (lost + n)) % loop.cycle
    rw [h.nextStep_eq, ← Nat.add_mod, Nat.add_assoc]
  step_lt := h.step_lt

/-- The ticks before a deadline that a loop steps over are lost. -/
theorem skipBefore [TimeScale τ] (h : loop.AheadBy step lost) (deadline : τ) :
    (loop.skipBefore deadline).AheadBy step
      (lost + ((loop.skipBefore deadline).nextTick - loop.nextTick)) := by
  rcases loop.skipBefore_eq deadline with heq | ⟨n, heq⟩
  · rw [heq, Nat.sub_self, Nat.add_zero]
    exact h
  · have hcount : (loop.skip (n + 1)).nextTick - loop.nextTick = n + 1 :=
      Nat.add_sub_cancel_left _ _
    rw [heq, hcount]
    exact h.skip (n + 1)

/-- A new tempo moves the loop to no other tick. -/
theorem retempo [TimeScale τ] (h : loop.AheadBy step lost) (duration : τ) :
    (loop.retempo duration).AheadBy step lost :=
  ⟨h.nextTick_eq, h.nextStep_eq, h.step_lt⟩

/-- The step is the loop's next one if and only if whole cycles are lost. -/
theorem step_eq_iff (h : loop.AheadBy step lost) : step = loop.nextStep ↔ loop.cycle ∣ lost := by
  have hmod : step = (step + lost) % loop.cycle ↔ step + lost ≡ step [MOD loop.cycle] := by
    rw [Nat.ModEq, Nat.mod_eq_of_lt h.step_lt, eq_comm]
  rw [h.nextStep_eq, hmod, Nat.add_modEq_left_iff]

end Loop.AheadBy

/-- A loop that has just handed out a tick is ahead by none. -/
theorem Loop.advance_aheadBy {τ : Type} (loop : Loop τ) (h : 0 < loop.cycle) :
    loop.advance.AheadBy loop.advance.nextStep 0 where
  nextTick_eq := rfl
  nextStep_eq := (Nat.mod_mod _ _).symm
  step_lt := Nat.mod_lt _ h

namespace Sequencer

section Lost

variable {τ : Type}

/-- The running loop is as far ahead of the sequencer's step as ticks are lost. -/
def Behind (seq : Sequencer τ) (count : Nat) : Prop :=
  ∀ loop, seq.loop = some loop → loop.AheadBy seq.step count

theorem behind_of_loop_eq_none {seq : Sequencer τ} (h : seq.loop = none) (count : Nat) :
    seq.Behind count := by
  intro loop hloop
  rw [h] at hloop
  cases hloop

variable [TimeScale τ]

/-! ## What becomes of a loop -/

/-- The things that operations do to the loop. -/
inductive LoopChange (seq : Sequencer τ) : Operation τ → Sequencer τ → Prop where
  /-- There is no loop afterwards. -/
  | ended {op : Operation τ} {after : Sequencer τ} (hquiet : seq.dispatchedBy op = [])
      (hid : after.nextLoopId = seq.nextLoopId) (hloop : after.loop = none) :
      LoopChange seq op after
  | kept {op : Operation τ} {after : Sequencer τ} (hquiet : seq.dispatchedBy op = [])
      (hskip : seq.skippedBy op = []) (hid : after.nextLoopId = seq.nextLoopId)
      (hloop : after.loop = seq.loop) (hstep : after.step = seq.step) : LoopChange seq op after
  | respaced {bpm : τ} : LoopChange seq (.setTempo bpm) (seq.setTempo bpm)
  /-- A loop begins, at the step that the sequencer is at then. -/
  | begun {op : Operation τ} {before : Sequencer τ} {time : τ} (hquiet : seq.dispatchedBy op = [])
      (hid : before.nextLoopId = seq.nextLoopId)
      (hstep : before.step < before.patterns.cycleLength) :
      LoopChange seq op (before.installLoop time)
  | played {now : τ} {loop : Loop τ} (hrun : seq.state = .running) (hloop : seq.loop = some loop) :
      LoopChange seq (.poll now)
        ((seq.handedOut (seq.window loop now).1 (seq.window loop now).2).delivered now)

theorem dispatchedBy_of_edit {seq : Sequencer τ} {op : Operation τ} {patterns : PatternSet}
    {now : τ} (hedit : op.edit? = some (patterns, now)) : seq.dispatchedBy op = [] := by
  cases op with
  | poll => cases hedit
  | _ => rfl

/-- Every operation does one of these things to the loop. -/
theorem Coherent.loopChange {seq after : Sequencer τ} (h : seq.Coherent) {op : Operation τ}
    (htrans : Transition seq op after) : LoopChange seq op after := by
  have hnone : seq.state ≠ .running → seq.loop = none := fun hrun => (h.of_not_running hrun).1
  cases htrans with
  | subscribe => exact .kept rfl rfl rfl rfl rfl
  | stage hedit hrun => exact .ended (dispatchedBy_of_edit hedit) rfl (hnone hrun)
  | silence hedit => exact .ended (dispatchedBy_of_edit hedit) rfl rfl
  | swap hedit _ hcycle => exact .begun (dispatchedBy_of_edit hedit) rfl hcycle
  | startIgnored => exact .kept rfl rfl rfl rfl rfl
  | startRefused => exact .kept rfl rfl rfl rfl rfl
  | start _ hcycle => exact .begun rfl rfl hcycle
  | pauseIgnored => exact .kept rfl rfl rfl rfl rfl
  | pause => exact .ended rfl rfl rfl
  | resumeIgnored => exact .kept rfl rfl rfl rfl rfl
  | resumeRefused hpaused =>
    refine .ended rfl seq.nextLoopId_rewindToStaged ?_
    rw [loop_rewindToStaged]
    exact hnone (by simp [hpaused])
  | resume _ hcycle => exact .begun rfl seq.nextLoopId_rewindToStaged (Nat.mod_lt _ hcycle)
  | stop => exact .ended rfl rfl rfl
  | setTempo => exact .respaced
  | @pollIdle now hidle =>
    refine .ended (dispatchedBy_poll_of_idle hidle now) rfl ?_
    by_cases hrun : seq.state = .running
    · exact hidle hrun
    · exact hnone hrun
  | poll hrun hloop => exact .played hrun hloop

/-! ## Counting lost ticks -/

/-- The count of lost ticks after an operation, given the count before.  A tick that is dispatched
and a loop that begins or ends set it back. -/
def countLost (seq : Sequencer τ) (count : Nat) (op : Operation τ) : Nat :=
  if seq.dispatchedBy op = [] ∧ (seq.apply op).sequencer.loop.map (·.id) = seq.loop.map (·.id) then
    count + (seq.skippedBy op).length
  else 0

/-- How many ticks have been stepped over, at the end of a run, since the last one that the running
loop dispatched, or since the loop began; `count` of them were lost before the run. -/
def lost (seq : Sequencer τ) (count : Nat) : List (Operation τ) → Nat
  | [] => count
  | op :: rest => (seq.apply op).sequencer.lost (seq.countLost count op) rest

/-- A new loop is none of those before it. -/
theorem Coherent.some_nextLoopId_ne {seq : Sequencer τ} (h : seq.Coherent) :
    some seq.nextLoopId ≠ seq.loop.map (·.id) := by
  intro heq
  obtain ⟨loop, hloop, hid⟩ := Option.map_eq_some_iff.mp heq.symm
  exact Nat.ne_of_lt (h.loop_id_lt loop hloop) hid

/-- A loop begins at the step that the sequencer is at. -/
theorem behind_installLoop {seq : Sequencer τ} (h : seq.step < seq.patterns.cycleLength)
    (time : τ) : (seq.installLoop time).Behind 0 := by
  intro loop hloop
  cases hloop
  exact ⟨rfl, (Nat.mod_eq_of_lt h).symm, h⟩

/-- A poll that dispatches ticks sets the step to the loop's next one; any other leaves it, and the
ticks stepped over are lost. -/
theorem Behind.handedOut {seq : Sequencer τ} {count : Nat} (h : seq.Behind count) {loop : Loop τ}
    (hloop : seq.loop = some loop) (hrun : seq.state = .running) (now : τ) :
    (seq.handedOut (seq.window loop now).1 (seq.window loop now).2).Behind
      (if (seq.window loop now).1 = [] then count + (seq.skippedBy (.poll now)).length else 0) := by
  intro rest hrest
  cases hrest
  have hlate := (h loop hloop).skipBefore (now - seq.config.lookahead)
  have hskipped : (seq.skippedBy (.poll now)).length =
      (loop.skipBefore (now - seq.config.lookahead)).nextTick - loop.nextTick := by
    rw [skippedBy, hrun, hloop]
    exact List.length_range'
  rw [← hskipped] at hlate
  obtain ⟨n, heq⟩ := seq.exists_window_eq loop now
  rw [heq]
  cases n with
  | zero => exact hlate
  | succ n =>
    have hne : (loop.skipBefore (now - seq.config.lookahead)).nextTicks (n + 1) ≠ [] := by
      rw [Loop.nextTicks_succ]
      exact List.cons_ne_nil _ _
    have hcycle : 0 < ((loop.skipBefore (now - seq.config.lookahead)).advanceBy n).cycle := by
      rw [Loop.cycle_advanceBy]
      exact Nat.zero_lt_of_lt hlate.step_lt
    rw [if_neg hne]
    unfold Sequencer.handedOut
    dsimp only
    rw [if_neg (by rwa [List.isEmpty_iff])]
    exact Loop.advance_aheadBy _ hcycle

/-- What is lost at a poll of the running loop. -/
theorem countLost_poll {seq : Sequencer τ} (h : seq.Coherent) {loop : Loop τ}
    (hloop : seq.loop = some loop) (count : Nat) (now : τ) :
    seq.countLost count (.poll now) =
      if (seq.window loop now).1 = [] then count + (seq.skippedBy (.poll now)).length else 0 := by
  obtain ⟨hrun, hplays⟩ := h.loop_plays hloop
  have hid : ((seq.apply (.poll now)).sequencer.loop.map (·.id)) = seq.loop.map (·.id) := by
    rw [apply_poll_of_loop hrun hloop, hloop]
    exact congrArg some (seq.window_rest hplays.nextStep_lt_cycle now).1
  rw [countLost, dispatchedBy_poll_of_loop hrun hloop]
  simp only [hid, and_true]

/-- Every operation keeps the step as far behind as ticks are lost. -/
theorem Behind.apply {seq : Sequencer τ} {count : Nat} (h : seq.Behind count)
    (hcoherent : seq.Coherent) (op : Operation τ) :
    (seq.apply op).sequencer.Behind (seq.countLost count op) := by
  have hchange := hcoherent.loopChange (transition_apply seq op)
  obtain ⟨after, hafter⟩ : ∃ after, (seq.apply op).sequencer = after := ⟨_, rfl⟩
  have hcount : seq.countLost count op =
      if seq.dispatchedBy op = [] ∧ after.loop.map (·.id) = seq.loop.map (·.id) then
        count + (seq.skippedBy op).length
      else 0 := by
    rw [← hafter, countLost]
  rw [hafter] at hchange ⊢
  cases hchange with
  | ended _ _ hloop => exact behind_of_loop_eq_none hloop _
  | kept hquiet hskip _ hloop hstep =>
    rw [hcount, if_pos ⟨hquiet, congrArg _ hloop⟩, hskip]
    intro loop hafterloop
    rw [hstep]
    exact h loop (hloop.symm.trans hafterloop)
  | @respaced bpm =>
    have hid : (seq.setTempo bpm).loop.map (·.id) = seq.loop.map (·.id) := by
      show (seq.loop.map _).map _ = _
      rw [Option.map_map]
      rfl
    rw [hcount, if_pos ⟨rfl, hid⟩]
    intro loop hloop
    obtain ⟨loop', hloop', rfl⟩ := Option.map_eq_some_iff.mp hloop
    exact (h loop' hloop').retempo _
  | begun _ hid hstep =>
    have hnew : some seq.nextLoopId ≠ seq.loop.map (·.id) := hcoherent.some_nextLoopId_ne
    rw [← hid] at hnew
    rw [hcount, if_neg fun heq => hnew heq.2]
    exact behind_installLoop hstep _
  | played hrun hloop =>
    rw [countLost_poll hcoherent hloop]
    exact h.handedOut hloop hrun _

/-- Through every run the step is as far behind as ticks are lost. -/
theorem Behind.after {seq : Sequencer τ} {count : Nat} (h : seq.Behind count)
    (hcoherent : seq.Coherent) (ops : List (Operation τ)) :
    (seq.after ops).Behind (seq.lost count ops) := by
  induction ops generalizing seq count with
  | nil => exact h
  | cons op rest ih =>
    exact ih (h.apply hcoherent op) (hcoherent.transition (transition_apply seq op))

/-- After every run, the loop is ahead of the sequencer's step by the ticks lost. -/
theorem aheadBy_after (config : SequencerConfig τ) (ops : List (Operation τ)) {loop : Loop τ}
    (hloop : ((new config).after ops).loop = some loop) :
    loop.AheadBy ((new config).after ops).step ((new config).lost 0 ops) := by
  have hnew : (new config).Behind 0 := behind_of_loop_eq_none rfl 0
  exact hnew.after (coherent_new config) ops loop hloop

/-- Nothing is lost if no poll steps over a tick and dispatches none. -/
theorem lost_eq_zero {seq : Sequencer τ} {ops : List (Operation τ)}
    (hpoll : ∀ before now rest, ops = before ++ .poll now :: rest →
      (seq.after before).dispatchedBy (.poll now) = [] →
        (seq.after before).skippedBy (.poll now) = []) : seq.lost 0 ops = 0 := by
  induction ops generalizing seq with
  | nil => rfl
  | cons op rest ih =>
    have hcount : seq.countLost 0 op = 0 := by
      rw [countLost]
      split
      · next hquiet =>
        have hskip : seq.skippedBy op = [] := by
          cases op with
          | poll now => exact hpoll [] now rest rfl hquiet.1
          | _ => rfl
        rw [hskip, List.length_nil]
      · rfl
    rw [lost, hcount]
    refine ih fun before now rest' heq => hpoll (op :: before) now rest' ?_
    rw [heq, List.cons_append]

/-! ## The step behind the loop -/

/-- While a loop runs, the step that it plays next is the sequencer's step and as many steps more as
ticks are lost, in the cycle; the two are the same if and only if whole cycles are lost.  So they
are in particular if no poll has stepped over a tick and dispatched none. -/
theorem step_eq_nextStep_iff (config : SequencerConfig τ) (ops : List (Operation τ))
    {loop : Loop τ} (hloop : ((new config).after ops).loop = some loop) :
    let seq := (new config).after ops
    loop.nextStep = (seq.step + (new config).lost 0 ops) % loop.patterns.cycleLength ∧
      (seq.step = loop.nextStep ↔ loop.patterns.cycleLength ∣ (new config).lost 0 ops) ∧
      ((∀ before now rest, ops = before ++ .poll now :: rest →
        ((new config).after before).dispatchedBy (.poll now) = [] →
          ((new config).after before).skippedBy (.poll now) = []) →
        seq.step = loop.nextStep) := by
  intro seq
  have hahead := aheadBy_after config ops hloop
  refine ⟨hahead.nextStep_eq, hahead.step_eq_iff, ?_⟩
  intro hpoll
  rw [lost_eq_zero hpoll] at hahead
  exact hahead.step_eq_iff.mpr (Nat.dvd_zero _)

end Lost

/-- The second of three hits is stepped over, and the third is not in the window yet. -/
def oneHitLost : List (Operation Rat) :=
  threeHits ++ [.start ⟨0, true, none⟩, .poll 0, .poll (3 / 8)]

/-- The loop of the three hits when the first was dispatched and the second stepped over. -/
def loopPastLostHit : Loop Rat :=
  ⟨0, ⟨0, 0, 1 / 4⟩, 2, 2, ⟨some (.ofWords ["kick", "snare", "clap"]), none, none⟩, some 0⟩

/-- When one hit of three is lost, the step shown is not the one that the loop plays next. -/
theorem step_eq_nextStep_iff_one_lost :
    ((new .standard).after oneHitLost).loop = some loopPastLostHit ∧
      (new .standard).lost 0 oneHitLost = 1 ∧
      ((new .standard).after oneHitLost).step ≠ loopPastLostHit.nextStep := by
  have hloop : ((new .standard).after oneHitLost).loop = some loopPastLostHit := by decide +kernel
  have hlost : (new .standard).lost 0 oneHitLost = 1 := by decide +kernel
  refine ⟨hloop, hlost, ?_⟩
  rw [Ne, (step_eq_nextStep_iff .standard oneHitLost hloop).2.1, hlost]
  decide

/-- After a late poll the step shown is that of the lost hit, and the next hit is the third. -/
theorem late_poll_leaves_step_behind :
    ((new .standard).after oneHitLost).state = .running ∧
      ((new .standard).after oneHitLost).step = 1 ∧
      ((new .standard).after oneHitLost).loop.map (·.nextStep) = some 2 := by
  decide +kernel

end Sequencer

/-! ## The last tick handed out -/

namespace Loop

/-- The time of the last tick that a loop has handed out, if it has handed out any. -/
def lastTime (loop : Loop Rat) : Option Rat :=
  loop.lastTick.map loop.clock.timeOf

/-- A new tempo keeps the last tick at its time. -/
theorem lastTime_retempo (loop : Loop Rat) (duration : Rat) :
    (loop.retempo duration).lastTime = loop.lastTime := by
  show loop.lastTick.map (loop.clock.retempo (loop.lastTick.getD loop.nextTick) duration).timeOf = _
  cases hlast : loop.lastTick with
  | none => rw [lastTime, hlast, Option.map_none, Option.map_none]
  | some tick =>
    rw [lastTime, hlast, Option.map_some, Option.map_some, Option.getD_some,
      StepClock.timeOf_retempo_self]

/-- Stepping over ticks hands out none. -/
theorem lastTime_skipBefore {loop : Loop Rat} (h : loop.nextStep < loop.cycle) (deadline : Rat) :
    (loop.skipBefore deadline).lastTime = loop.lastTime := by
  obtain ⟨_, hclock, _, hlast, _⟩ := skipBefore_frame h deadline
  rw [lastTime, hclock, hlast, lastTime]

theorem lastTime_advanceBy (loop : Loop Rat) (n : Nat) :
    (loop.advanceBy n).lastTime =
      ((loop.nextTicks n).getLast?.map (·.time)).or loop.lastTime := by
  cases n with
  | zero => rfl
  | succ n =>
    rw [nextTicks_concat, List.getLast?_concat]
    rfl

/-- With a new tempo the next tick is as many new steps after the last one handed out as it is ticks
after it. -/
theorem AheadBy.nextTime_retempo {loop : Loop Rat} {step lost : Nat} (h : loop.AheadBy step lost)
    {time : Rat} (hlast : loop.lastTime = some time) (duration : Rat) :
    (loop.retempo duration).nextTime = time + (lost + 1) * duration := by
  obtain ⟨tick, htick, rfl⟩ := Option.map_eq_some_iff.mp hlast
  have hnext : loop.nextTick = tick + (1 + lost) := by
    rw [h.nextTick_eq, htick, Option.elim_some, Nat.add_assoc]
  show (loop.clock.retempo (loop.lastTick.getD loop.nextTick) duration).timeOf loop.nextTick = _
  rw [htick, Option.getD_some, hnext, StepClock.timeOf_retempo]
  push_cast
  ring

end Loop

namespace Sequencer

/-- Of the ticks that have been dispatched, the last one of the running loop is at the time of the
loop's last tick, and none is of a loop to come. -/
structure LastDispatched (seq : Sequencer Rat) (ticks : List (Tick Rat)) : Prop where
  loopId_lt : ∀ tick ∈ ticks, tick.loopId < seq.nextLoopId
  lastTime_eq : ∀ loop, seq.loop = some loop →
    loop.lastTime = ((ticks.filter (·.loopId = loop.id)).getLast?).map (·.time)

namespace LastDispatched

variable {seq : Sequencer Rat} {ticks : List (Tick Rat)}

/-- A loop that begins has dispatched nothing. -/
theorem installLoop_of_lt (h : ∀ tick ∈ ticks, tick.loopId < seq.nextLoopId) (time : Rat) :
    (seq.installLoop time).LastDispatched ticks where
  loopId_lt tick htick := Nat.lt_succ_of_lt (h tick htick)
  lastTime_eq loop hloop := by
    cases hloop
    have hnone : ticks.filter (·.loopId = seq.nextLoopId) = [] := by
      rw [List.filter_eq_nil_iff]
      intro tick htick
      simpa using Nat.ne_of_lt (h tick htick)
    show none = ((ticks.filter (·.loopId = seq.nextLoopId)).getLast?).map _
    rw [hnone]
    rfl

/-- Ticks that a poll hands out are dispatched last. -/
theorem handedOut (h : seq.LastDispatched ticks) (hcoherent : seq.Coherent) {loop : Loop Rat}
    (hloop : seq.loop = some loop) (now : Rat) :
    (seq.handedOut (seq.window loop now).1 (seq.window loop now).2).LastDispatched
      (ticks ++ (seq.window loop now).1) where
  loopId_lt tick htick := by
    rcases List.mem_append.mp htick with htick | htick
    · exact h.loopId_lt tick htick
    · have hstep := (hcoherent.loop_plays hloop).2.nextStep_lt_cycle
      rw [(of_mem_window hstep htick).1]
      exact hcoherent.loop_id_lt loop hloop
  lastTime_eq rest hrest := by
    cases hrest
    have hstep := (hcoherent.loop_plays hloop).2.nextStep_lt_cycle
    have hown : (seq.window loop now).1.filter (·.loopId = (seq.window loop now).2.id) =
        (seq.window loop now).1 := by
      rw [List.filter_eq_self]
      intro tick htick
      rw [(of_mem_window hstep htick).1, (seq.window_rest hstep now).1]
      exact decide_eq_true rfl
    rw [List.filter_append, hown, (seq.window_rest hstep now).1, List.getLast?_append,
      Option.map_or, ← h.lastTime_eq loop hloop]
    obtain ⟨n, heq⟩ := seq.exists_window_eq loop now
    rw [heq, Loop.lastTime_advanceBy, Loop.lastTime_skipBefore hstep]

/-- Every operation keeps track of the last tick. -/
theorem apply (h : seq.LastDispatched ticks) (hcoherent : seq.Coherent) (op : Operation Rat) :
    (seq.apply op).sequencer.LastDispatched (ticks ++ seq.dispatchedBy op) := by
  have hchange := hcoherent.loopChange (transition_apply seq op)
  generalize (seq.apply op).sequencer = after at hchange ⊢
  cases hchange with
  | ended hquiet hid hloop =>
    rw [hquiet, List.append_nil]
    refine ⟨hid ▸ h.loopId_lt, fun loop hafter => ?_⟩
    rw [hloop] at hafter
    cases hafter
  | kept hquiet _ hid hloop =>
    rw [hquiet, List.append_nil]
    exact ⟨hid ▸ h.loopId_lt, hloop ▸ h.lastTime_eq⟩
  | respaced =>
    show LastDispatched _ (ticks ++ [])
    rw [List.append_nil]
    refine ⟨h.loopId_lt, fun loop hloop => ?_⟩
    obtain ⟨loop', hloop', rfl⟩ := Option.map_eq_some_iff.mp hloop
    rw [Loop.lastTime_retempo]
    exact h.lastTime_eq loop' hloop'
  | begun hquiet hid =>
    rw [hquiet, List.append_nil]
    exact installLoop_of_lt (hid ▸ h.loopId_lt) _
  | @played now loop hrun hloop =>
    rw [dispatchedBy_poll_of_loop hrun hloop]
    have hplayed := h.handedOut hcoherent hloop now
    exact ⟨hplayed.loopId_lt, hplayed.lastTime_eq⟩

/-- Every run keeps track of the last tick. -/
theorem after (h : seq.LastDispatched ticks) (hcoherent : seq.Coherent)
    (ops : List (Operation Rat)) :
    (seq.after ops).LastDispatched (ticks ++ seq.dispatched ops) := by
  induction ops generalizing seq ticks with
  | nil =>
    show seq.LastDispatched (ticks ++ [])
    rwa [List.append_nil]
  | cons op rest ih =>
    have hrest := ih (h.apply hcoherent op) (hcoherent.transition (transition_apply seq op))
    rwa [List.append_assoc] at hrest

end LastDispatched

/-- What the running loop has dispatched last, after a run. -/
theorem lastTime_after (config : SequencerConfig Rat) (ops : List (Operation Rat))
    {loop : Loop Rat} (hloop : ((new config).after ops).loop = some loop) :
    loop.lastTime =
      ((((new config).dispatched ops).filter (·.loopId = loop.id)).getLast?).map (·.time) := by
  have hnew : (new config).LastDispatched [] :=
    ⟨fun _ htick => absurd htick List.not_mem_nil, fun _ hnone => by cases hnone⟩
  exact (hnew.after (coherent_new config) ops).lastTime_eq loop hloop

/-! ## A new tempo after lost ticks -/

/-- A tempo change leaves the pending ticks as they are and spaces the loop's ticks, from the next
one on, by the new step.  If the loop has dispatched no tick yet, the next one keeps its time; else
it comes one new step after the last one dispatched and one more for each tick lost since, so that
it comes right one new step after it if and only if none is lost. -/
theorem setTempo_places_next_tick (config : SequencerConfig Rat) (ops : List (Operation Rat))
    {loop : Loop Rat} (hloop : ((new config).after ops).loop = some loop) (bpm : Rat) :
    let seq := (new config).after ops
    let own := ((new config).dispatched ops).filter (·.loopId = loop.id)
    let lost := (new config).lost 0 ops
    let duration := (Tempo.ofBpm bpm).stepDuration config.stepsPerBeat
    (seq.setTempo bpm).pending = seq.pending ∧
      ∃ after, (seq.setTempo bpm).loop = some after ∧
        (∀ k, after.nthTick k =
          { loopId := loop.id
            time := after.nextTime + k * duration
            step := (loop.nextStep + k) % loop.patterns.cycleLength
            patterns := loop.patterns
            duration := duration }) ∧
        (own = [] → after.nextTime = loop.nextTime) ∧
        ∀ last ∈ own.getLast?, after.nextTime = last.time + (lost + 1) * duration ∧
          (after.nextTime = last.time + duration ↔ lost = 0) := by
  intro seq own lost duration
  have hpos : 0 < duration := (Tempo.inRange_ofBpm bpm).stepDuration_pos _
  have hgrid : (loop.retempo duration).OnGrid :=
    ((onTime_after config ops).loop_onGrid loop hloop).retempo hpos
  have hahead := aheadBy_after config ops hloop
  have hlast : loop.lastTime = own.getLast?.map (·.time) := lastTime_after config ops hloop
  have hconfig : seq.config = config := config_after _ ops
  refine ⟨rfl, loop.retempo duration, ?_, hgrid.nthTick_eq, ?_, ?_⟩
  · show seq.loop.map (·.retempo ((Tempo.ofBpm bpm).stepDuration seq.config.stepsPerBeat)) = _
    rw [hloop, hconfig]
    rfl
  · intro hnil
    rw [hnil] at hlast
    exact Loop.nextTime_retempo_of_none (Option.map_eq_none_iff.mp hlast) duration
  · intro last hmem
    rw [hmem] at hlast
    have hnext : (loop.retempo duration).nextTime = last.time + (lost + 1) * duration :=
      hahead.nextTime_retempo hlast duration
    refine ⟨hnext, ?_⟩
    -- the lost ticks are counted in, and a step has a length
    have hsplit : last.time + (lost + 1) * duration =
        last.time + duration + lost * duration := by ring
    rw [hnext, hsplit, add_eq_left, mul_eq_zero, or_iff_left hpos.ne', Nat.cast_eq_zero]

/-- The tempo is halved when one hit is lost: the next hit is two long steps after the first. -/
theorem setTempo_places_next_tick_one_lost :
    ((new .standard).after oneHitLost).loop = some loopPastLostHit ∧
      (new .standard).lost 0 oneHitLost = 1 ∧
      (((new .standard).dispatched oneHitLost).filter (·.loopId = loopPastLostHit.id)).getLast? =
        some ⟨0, 0, 0, loopPastLostHit.patterns, 1 / 4⟩ ∧
      ∃ after, (((new .standard).after oneHitLost).setTempo 60).loop = some after ∧
        after.nextTime = 0 + (1 + 1) * (Tempo.ofBpm 60).stepDuration 2 := by
  have hloop : ((new .standard).after oneHitLost).loop = some loopPastLostHit := by decide +kernel
  have hlost : (new .standard).lost 0 oneHitLost = 1 := by decide +kernel
  have hlast : (((new .standard).dispatched oneHitLost).filter
      (·.loopId = loopPastLostHit.id)).getLast? =
        some ⟨0, 0, 0, loopPastLostHit.patterns, 1 / 4⟩ := by
    decide +kernel
  obtain ⟨_, after, hafter, _, _, hnext⟩ :=
    setTempo_places_next_tick .standard oneHitLost hloop 60
  have htime := (hnext _ hlast).1
  rw [hlost, Nat.cast_one] at htime
  exact ⟨hloop, hlost, hlast, after, hafter, htime⟩

/-- The first hit is the only one dispatched, at time 0; with the new tempo a step is half a second
long, and the next hit is a whole second after the first. -/
theorem late_poll_delays_new_tempo :
    ((new .standard).after oneHitLost).state = .running ∧
      ((new .standard).dispatched oneHitLost).map (fun tick => (tick.loopId, tick.time)) =
        [(0, 0)] ∧
      (((new .standard).after oneHitLost).setTempo 60).stepDuration = 1 / 2 ∧
      (((new .standard).after oneHitLost).setTempo 60).loop.map
        (fun loop => (loop.id, loop.nextTime)) = some (0, 1) := by
  refine ⟨rfl, ?_, ?_, ?_⟩
  · decide +kernel
  · decide +kernel
  · decide +kernel

end Sequencer

end Groovebox
