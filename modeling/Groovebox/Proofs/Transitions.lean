import Groovebox.Proofs.Loops
import Groovebox.Sequencer.Run

/-!
# What an operation can do to a sequencer

Each operation does one of a few things, depending on the state of the transport and on whether
there is something to play.  `Transition` lists them, with the condition of each and the sequencer
that comes of it, and `transition_apply` says that the list is complete.  What every operation keeps
is proved by going through that list.
-/

namespace Groovebox

namespace Operation

variable {τ : Type}

/-- The pattern set that an operation hands in, and when. -/
def edit? : Operation τ → Option (PatternSet × τ)
  | replacePatterns patterns now => some (patterns, now)
  | submitText text now => some (PatternText.compile text, now)
  | _ => none

/-- The time that an operation is given, if it is given one. -/
def time? : Operation τ → Option τ
  | replacePatterns _ now => some now
  | submitText _ now => some now
  | start clock => some clock.now
  | pause now => some now
  | resume now => some now
  | stop now => some now
  | poll now => some now
  | _ => none

/-- Whether an operation ends a running stretch. -/
def halts : Operation τ → Bool
  | pause _ => true
  | stop _ => true
  | _ => false

end Operation

/-- Activation leaves the time of a clock that is set by hand. -/
theorem ManualClock.now_activate {τ : Type} (clock : ManualClock τ) {clock' : ManualClock τ}
    {answer : Except Refusal Unit} (h : AudioClock.activate clock = (clock', answer)) :
    clock'.now = clock.now := by
  change clock.activate = _ at h
  rw [ManualClock.activate] at h
  split at h <;> cases h <;> rfl

namespace Sequencer

variable {τ : Type}

/-! ## Parts of the operations -/

/-- Makes the staged set the active one, if there is a staged set. -/
def takeStaged (seq : Sequencer τ) : Sequencer τ :=
  { seq with patterns := seq.staged.getD seq.patterns, staged := none }

/-- Makes the staged set the active one and goes back to its first step, if there is one. -/
def rewindToStaged (seq : Sequencer τ) : Sequencer τ :=
  match seq.staged with
  | some patterns => { seq with patterns := patterns, staged := none, step := 0 }
  | none => seq

theorem staged_rewindToStaged (seq : Sequencer τ) : seq.rewindToStaged.staged = none := by
  rw [rewindToStaged]
  split
  · rfl
  · assumption

@[simp] theorem state_rewindToStaged (seq : Sequencer τ) :
    seq.rewindToStaged.state = seq.state := by
  rw [rewindToStaged]
  split <;> rfl

@[simp] theorem tempo_rewindToStaged (seq : Sequencer τ) :
    seq.rewindToStaged.tempo = seq.tempo := by
  rw [rewindToStaged]
  split <;> rfl

@[simp] theorem loop_rewindToStaged (seq : Sequencer τ) :
    seq.rewindToStaged.loop = seq.loop := by
  rw [rewindToStaged]
  split <;> rfl

@[simp] theorem nextLoopId_rewindToStaged (seq : Sequencer τ) :
    seq.rewindToStaged.nextLoopId = seq.nextLoopId := by
  rw [rewindToStaged]
  split <;> rfl

@[simp] theorem pending_rewindToStaged (seq : Sequencer τ) :
    seq.rewindToStaged.pending = seq.pending := by
  rw [rewindToStaged]
  split <;> rfl

/-- A set is active, from its first step on, and no loop plays it. -/
def idleWith (seq : Sequencer τ) (patterns : PatternSet) : Sequencer τ :=
  { seq with patterns := patterns, staged := none, loop := none, step := 0 }

/-- Nothing plays and nothing is pending. -/
def halted (seq : Sequencer τ) (state : TransportState) (step : Nat) : Sequencer τ :=
  { seq with state := state, step := step, loop := none, pending := [] }

/-- The sequencer of which the loop has handed out ticks. -/
def handedOut (seq : Sequencer τ) (ticks : List (Tick τ)) (rest : Loop τ) : Sequencer τ :=
  { seq with
    loop := some rest
    pending := seq.pending ++ ticks
    step := if ticks.isEmpty then seq.step else rest.nextStep }

/-- What a start of a stopped transport answers, given the set that it would play, and the statuses
that it announces. -/
def startAnswer (patterns : PatternSet) (clock : ManualClock τ) :
    Except Refusal Unit × List TransportStatus :=
  if patterns.cycleLength = 0 then (.error .nothingToPlay, [.stopped])
  else if clock.active then (.ok (), [.playing])
  else match clock.activate.2 with
    | .error refusal => (.error refusal, [.waitingForAudio, .stopped])
    | .ok () => (.ok (), [.waitingForAudio, .playing])

/-- Only a set with steps is started. -/
theorem cycleLength_pos_of_startAnswer {patterns : PatternSet} {clock : ManualClock τ}
    (h : (startAnswer patterns clock).1 = .ok ()) : 0 < patterns.cycleLength := by
  rw [startAnswer] at h
  split at h
  · cases h
  · next hcycle => exact Nat.pos_of_ne_zero hcycle

variable [TimeScale τ]

/-- When a set that is handed in now begins to play: at the slot of the running loop's next tick, or
at once. -/
def slot (seq : Sequencer τ) (now : τ) : τ :=
  match seq.loop with
  | some loop => TimeScale.latest loop.nextTime now
  | none => now

/-- The pending ticks that are announced at a time. -/
def due (seq : Sequencer τ) (now : τ) : List (Tick τ) :=
  seq.pending.takeWhile (·.time ≤ now)

/-- The pending ticks that are left after those that are due. -/
def undue (seq : Sequencer τ) (now : τ) : List (Tick τ) :=
  seq.pending.dropWhile (·.time ≤ now)

/-- The step that a pause goes back to. -/
def unheardStep (seq : Sequencer τ) (now : τ) : Nat :=
  match seq.loop with
  | some loop =>
    match (seq.undue now).find? (·.loopId = loop.id) with
    | some tick => tick.step
    | none => loop.nextStep
  | none => seq.step

/-- The ticks that are due are no longer pending. -/
def delivered (seq : Sequencer τ) (now : τ) : Sequencer τ :=
  { seq with pending := seq.undue now }

/-- The ticks that a poll hands out and the running loop after it. -/
def window (seq : Sequencer τ) (loop : Loop τ) (now : τ) : List (Tick τ) × Loop τ :=
  (loop.skipBefore (now - seq.config.lookahead)).ticksBefore (now + seq.config.lookahead)

/-- Each pending tick is due or left. -/
theorem due_append_undue (seq : Sequencer τ) (now : τ) :
    seq.due now ++ seq.undue now = seq.pending :=
  List.takeWhile_append_dropWhile

/-- What is left pending was pending. -/
theorem mem_of_mem_undue {seq : Sequencer τ} {now : τ} {tick : Tick τ} (h : tick ∈ seq.undue now) :
    tick ∈ seq.pending :=
  (List.dropWhile_suffix _).subset h

/-- A poll hands out the next ticks of the loop that has stepped over those before its window. -/
theorem exists_window_eq (seq : Sequencer τ) (loop : Loop τ) (now : τ) :
    ∃ n, seq.window loop now =
      ((loop.skipBefore (now - seq.config.lookahead)).nextTicks n,
        (loop.skipBefore (now - seq.config.lookahead)).advanceBy n) := by
  obtain ⟨n, heq, _⟩ := (loop.skipBefore (now - seq.config.lookahead)).ticksBefore_eq
    (now + seq.config.lookahead)
  exact ⟨n, heq⟩

/-- The loop after a poll differs from the one before in where it stands only. -/
theorem window_rest (seq : Sequencer τ) {loop : Loop τ} (h : loop.nextStep < loop.cycle) (now : τ) :
    (seq.window loop now).2.id = loop.id ∧ (seq.window loop now).2.clock = loop.clock ∧
      (seq.window loop now).2.patterns = loop.patterns ∧
      (seq.window loop now).2.nextStep < loop.cycle := by
  obtain ⟨hid, hclock, hpatterns, _, hstep⟩ :=
    Loop.skipBefore_frame h (now - seq.config.lookahead)
  have hcycle : (loop.skipBefore (now - seq.config.lookahead)).cycle = loop.cycle := by
    rw [Loop.cycle, hpatterns, Loop.cycle]
  obtain ⟨n, heq⟩ := seq.exists_window_eq loop now
  rw [heq]
  refine ⟨?_, ?_, ?_, ?_⟩
  · rw [Loop.id_advanceBy, hid]
  · rw [Loop.clock_advanceBy, hclock]
  · rw [Loop.patterns_advanceBy, hpatterns]
  · rw [← hcycle] at hstep ⊢
    have hlt := Loop.nextStep_advanceBy_lt hstep n
    rwa [Loop.cycle_advanceBy] at hlt

/-- The ticks of a poll are ticks of the running loop. -/
theorem of_mem_window {seq : Sequencer τ} {loop : Loop τ} (h : loop.nextStep < loop.cycle) {now : τ}
    {tick : Tick τ} (hmem : tick ∈ (seq.window loop now).1) :
    tick.loopId = loop.id ∧ tick.patterns = loop.patterns ∧ tick.step < loop.cycle := by
  obtain ⟨hid, _, hpatterns, _, hstep⟩ := Loop.skipBefore_frame h (now - seq.config.lookahead)
  have hcycle : (loop.skipBefore (now - seq.config.lookahead)).cycle = loop.cycle := by
    rw [Loop.cycle, hpatterns, Loop.cycle]
  obtain ⟨n, heq⟩ := seq.exists_window_eq loop now
  rw [heq] at hmem
  obtain ⟨i, _, rfl⟩ := Loop.mem_nextTicks.mp hmem
  refine ⟨?_, ?_, ?_⟩
  · exact (Loop.id_advanceBy _ i).trans hid
  · exact (Loop.patterns_advanceBy _ i).trans hpatterns
  · rw [← hcycle] at hstep ⊢
    have hlt := Loop.nextStep_advanceBy_lt hstep i
    rwa [Loop.cycle_advanceBy] at hlt

theorem fillWindow_of_loop {seq : Sequencer τ} {loop : Loop τ} (hrun : seq.state = .running)
    (hloop : seq.loop = some loop) (now : τ) :
    seq.fillWindow now =
      (seq.handedOut (seq.window loop now).1 (seq.window loop now).2, (seq.window loop now).1) := by
  rw [fillWindow]
  split
  · next loop' _ hloop' =>
    rw [hloop] at hloop'
    cases hloop'
    rfl
  · next h => exact absurd hloop (h loop hrun)

/-- A poll dispatches nothing unless the transport runs and has a loop. -/
theorem fillWindow_of_idle {seq : Sequencer τ} (h : seq.state = .running → seq.loop = none)
    (now : τ) : seq.fillWindow now = (seq, []) := by
  rw [fillWindow]
  split
  · next loop hrun hloop =>
    rw [h hrun] at hloop
    cases hloop
  · rfl

theorem apply_start_of_not_stopped {seq : Sequencer τ} (h : seq.state ≠ .stopped)
    (clock : ManualClock τ) : seq.apply (.start clock) = ⟨.ok (), seq, []⟩ := by
  rw [apply, start, if_pos h]

/-- A stopped transport starts with the staged set, if there is one, unless that has no steps or the
clock does not become active. -/
theorem apply_start_of_stopped {seq : Sequencer τ} (h : seq.state = .stopped)
    (clock : ManualClock τ) :
    seq.apply (.start clock) =
      { result := (startAnswer seq.takeStaged.patterns clock).1
        sequencer := match (startAnswer seq.takeStaged.patterns clock).1 with
          | .ok () => { seq.takeStaged with step := 0, state := .running }.installLoop clock.now
          | .error _ => seq.takeStaged
        effects := (startAnswer seq.takeStaged.patterns clock).2.map announce } := by
  have hstate : ¬ seq.state ≠ .stopped := not_not_intro h
  have hactive : AudioClock.isActive clock = clock.active := rfl
  simp only [apply, start, if_neg hstate, startAnswer, takeStaged, hactive]
  by_cases hcycle : (seq.staged.getD seq.patterns).cycleLength = 0
  · simp only [hcycle, if_true, List.map_cons, List.map_nil]
  · by_cases hclock : clock.active = true
    · simp only [hcycle, hclock, if_true, if_false]
      rfl
    · simp only [hcycle, hclock, if_false]
      -- activation does not move a clock that is set by hand
      cases hact : clock.activate with
      | mk clock' answer =>
        change AudioClock.activate clock = _ at hact
        rw [hact]
        cases answer with
        | error refusal => rfl
        | ok _ =>
          rw [← clock.now_activate hact]
          rfl

theorem resume_of_not_paused {seq : Sequencer τ} (h : seq.state ≠ .paused) (now : τ) :
    seq.resume now = ⟨.ok (), seq, []⟩ := by
  rw [resume]
  split
  · contradiction
  · rfl

/-- A paused transport resumes with the staged set, if there is one, unless that has no steps. -/
theorem resume_of_paused {seq : Sequencer τ} (h : seq.state = .paused) (now : τ) :
    seq.resume now =
      if seq.rewindToStaged.patterns.cycleLength = 0 then
        ⟨.error .nothingToPlay, seq.rewindToStaged, []⟩
      else
        ⟨.ok (),
          { seq.rewindToStaged with
            step := seq.rewindToStaged.step % seq.rewindToStaged.patterns.cycleLength
            state := .running }.installLoop now,
          [announce .playing]⟩ := by
  rw [resume]
  split
  · rfl
  · contradiction

/-! ## The transitions -/

/-- The things that operations do. -/
inductive Transition (seq : Sequencer τ) : Operation τ → Sequencer τ → Prop where
  | subscribe : Transition seq .subscribe seq.subscribe
  /-- A set handed in while the transport does not run is staged. -/
  | stage {op : Operation τ} {patterns : PatternSet} {now : τ}
      (hedit : op.edit? = some (patterns, now)) (hstate : seq.state ≠ .running) :
      Transition seq op { seq with staged := some patterns }
  /-- A running transport goes on without a loop when the new set has no steps. -/
  | silence {op : Operation τ} {patterns : PatternSet} {now : τ}
      (hedit : op.edit? = some (patterns, now)) (hstate : seq.state = .running)
      (hcycle : patterns.cycleLength = 0) :
      Transition seq op (seq.idleWith patterns)
  /-- A live swap. -/
  | swap {op : Operation τ} {patterns : PatternSet} {now : τ}
      (hedit : op.edit? = some (patterns, now)) (hstate : seq.state = .running)
      (hcycle : 0 < patterns.cycleLength) :
      Transition seq op ((seq.idleWith patterns).installLoop (seq.slot now))
  | startIgnored {clock : ManualClock τ} (hstate : seq.state ≠ .stopped) :
      Transition seq (.start clock) seq
  /-- A refused start keeps the staged set as the active one. -/
  | startRefused {clock : ManualClock τ} (hstate : seq.state = .stopped) :
      Transition seq (.start clock) seq.takeStaged
  | start {clock : ManualClock τ} (hstate : seq.state = .stopped)
      (hcycle : 0 < seq.takeStaged.patterns.cycleLength) :
      Transition seq (.start clock)
        ({ seq.takeStaged with step := 0, state := .running }.installLoop clock.now)
  | pauseIgnored {now : τ} (hstate : seq.state ≠ .running) : Transition seq (.pause now) seq
  | pause {now : τ} (hstate : seq.state = .running) :
      Transition seq (.pause now) (seq.halted .paused (seq.unheardStep now))
  | resumeIgnored {now : τ} (hstate : seq.state ≠ .paused) : Transition seq (.resume now) seq
  | resumeRefused {now : τ} (hstate : seq.state = .paused)
      (hcycle : seq.rewindToStaged.patterns.cycleLength = 0) :
      Transition seq (.resume now) seq.rewindToStaged
  | resume {now : τ} (hstate : seq.state = .paused)
      (hcycle : 0 < seq.rewindToStaged.patterns.cycleLength) :
      Transition seq (.resume now)
        ({ seq.rewindToStaged with
            step := seq.rewindToStaged.step % seq.rewindToStaged.patterns.cycleLength
            state := .running }.installLoop now)
  | stop {now : τ} : Transition seq (.stop now) (seq.halted .stopped 0)
  | setTempo {bpm : τ} : Transition seq (.setTempo bpm) (seq.setTempo bpm)
  /-- A poll with no loop to play only delivers. -/
  | pollIdle {now : τ} (hidle : seq.state = .running → seq.loop = none) :
      Transition seq (.poll now) (seq.delivered now)
  | poll {now : τ} {loop : Loop τ} (hstate : seq.state = .running) (hloop : seq.loop = some loop) :
      Transition seq (.poll now)
        ((seq.handedOut (seq.window loop now).1 (seq.window loop now).2).delivered now)

/-- A running transport takes a set at its slot, and goes on without a loop if the set has no
steps. -/
theorem replacePatterns_eq_of_running {seq : Sequencer τ} (hrun : seq.state = .running)
    (patterns : PatternSet) (now : τ) :
    seq.replacePatterns patterns now =
      ⟨(), if patterns.cycleLength = 0 then seq.idleWith patterns
        else (seq.idleWith patterns).installLoop (seq.slot now),
        [.display (.patternSetChanged patterns)]⟩ := by
  rw [replacePatterns]
  split
  · rfl
  · contradiction

theorem replacePatterns_of_running {seq : Sequencer τ} (hrun : seq.state = .running)
    {patterns : PatternSet} (hcycle : 0 < patterns.cycleLength) (now : τ) :
    (seq.replacePatterns patterns now).sequencer =
      (seq.idleWith patterns).installLoop (seq.slot now) := by
  rw [replacePatterns_eq_of_running hrun]
  exact if_neg (Nat.ne_of_gt hcycle)

/-- A set handed in is staged, or swapped in at once, or leaves the transport idle. -/
theorem transition_edit {seq : Sequencer τ} {op : Operation τ} {patterns : PatternSet} {now : τ}
    (hedit : op.edit? = some (patterns, now)) :
    Transition seq op (seq.replacePatterns patterns now).sequencer := by
  rw [replacePatterns]
  split
  · next hstate =>
    show Transition seq op (if patterns.cycleLength = 0 then seq.idleWith patterns
      else (seq.idleWith patterns).installLoop (seq.slot now))
    split
    · next hcycle => exact .silence hedit hstate hcycle
    · next hcycle => exact .swap hedit hstate (Nat.pos_of_ne_zero hcycle)
  · next hstate => exact .stage hedit hstate

theorem transition_start (seq : Sequencer τ) (clock : ManualClock τ) :
    Transition seq (.start clock) (seq.start clock).sequencer := by
  show Transition seq (.start clock) (seq.apply (.start clock)).sequencer
  by_cases hstate : seq.state = .stopped
  · rw [apply_start_of_stopped hstate]
    dsimp only
    split
    · next hok => exact .start hstate (cycleLength_pos_of_startAnswer hok)
    · exact .startRefused hstate
  · rw [apply_start_of_not_stopped hstate]
    exact .startIgnored hstate

theorem transition_pause (seq : Sequencer τ) (now : τ) :
    Transition seq (.pause now) (seq.pause now).sequencer := by
  rw [pause]
  split
  · next hstate => exact .pause hstate
  · next hstate => exact .pauseIgnored hstate

theorem transition_resume (seq : Sequencer τ) (now : τ) :
    Transition seq (.resume now) (seq.resume now).sequencer := by
  by_cases hstate : seq.state = .paused
  · rw [resume_of_paused hstate]
    split
    · next hcycle => exact .resumeRefused hstate hcycle
    · next hcycle => exact .resume hstate (Nat.pos_of_ne_zero hcycle)
  · rw [resume_of_not_paused hstate]
    exact .resumeIgnored hstate

theorem transition_poll (seq : Sequencer τ) (now : τ) :
    Transition seq (.poll now) (seq.poll now).sequencer := by
  by_cases hidle : seq.state = .running → seq.loop = none
  · rw [poll, fillWindow_of_idle hidle]
    exact .pollIdle hidle
  · obtain ⟨hrun, hne⟩ := Classical.not_imp.mp hidle
    obtain ⟨loop, hloop⟩ := Option.ne_none_iff_exists'.mp hne
    rw [poll, fillWindow_of_loop hrun hloop]
    exact .poll hrun hloop

/-- Every operation makes one of the transitions. -/
theorem transition_apply (seq : Sequencer τ) (op : Operation τ) :
    Transition seq op (seq.apply op).sequencer := by
  cases op with
  | subscribe => exact .subscribe
  | replacePatterns patterns now => exact transition_edit rfl
  | submitText text now => exact transition_edit rfl
  | start clock => exact transition_start seq clock
  | pause now => exact transition_pause seq now
  | resume now => exact transition_resume seq now
  | stop now => exact .stop
  | setTempo bpm => exact .setTempo
  | poll now => exact transition_poll seq now

end Sequencer

end Groovebox
