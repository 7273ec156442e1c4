import Groovebox.Proofs.Loops
import Groovebox.Proofs.Runs

/-!
# The fields of a sequencer agree

A sequencer keeps its state in several places: the transport, the step, the loop, the pending ticks,
the active and the staged set.  `Consistent` says how they agree after every run.  It is not kept by
the operations on its own: a pause goes back to a step of the running loop's pending ticks, which is
a step of the active set only because those ticks were taken from it.  `Coherent` adds what is
needed, namely that loops have numbers of their own and that a loop's pending ticks show its set.
-/

namespace Groovebox

variable {τ : Type}

/-- A loop plays a set, at a step of its cycle, with a time between steps. -/
structure Loop.Plays (loop : Loop τ) (patterns : PatternSet) (duration : τ) : Prop where
  patterns_eq : loop.patterns = patterns
  cycle_pos : 0 < patterns.cycleLength
  nextStep_lt : loop.nextStep < patterns.cycleLength
  duration_eq : loop.clock.stepDuration = duration

/-- A loop that plays a set stands at a step of its own cycle. -/
theorem Loop.Plays.nextStep_lt_cycle {loop : Loop τ} {patterns : PatternSet} {duration : τ}
    (h : loop.Plays patterns duration) : loop.nextStep < loop.cycle := by
  rw [Loop.cycle, h.patterns_eq]
  exact h.nextStep_lt

variable [TimeScale τ]

namespace Sequencer

/-! ## Consistent and coherent sequencers -/

/-- How the fields of a sequencer agree. -/
structure Consistent (seq : Sequencer τ) : Prop where
  /-- Unless the transport runs there is no loop and nothing is pending. -/
  of_not_running : seq.state ≠ .running → seq.loop = none ∧ seq.pending = []
  /-- While it runs nothing is staged, and a loop plays the active set if that has steps. -/
  of_running : seq.state = .running → seq.staged = none ∧
    ((seq.patterns.cycleLength = 0 ∧ seq.loop = none ∧ seq.step = 0) ∨
      ∃ loop, seq.loop = some loop ∧ loop.Plays seq.patterns seq.stepDuration)
  of_stopped : seq.state = .stopped → seq.step = 0
  of_paused : seq.state = .paused → seq.step < max 1 seq.patterns.cycleLength
  /-- A pending tick plays a step of the set that it was taken from. -/
  of_pending : ∀ tick ∈ seq.pending, tick.step < tick.patterns.cycleLength

/-- A consistent sequencer whose loops have numbers of their own. -/
structure Coherent (seq : Sequencer τ) : Prop extends seq.Consistent where
  loop_id_lt : ∀ loop, seq.loop = some loop → loop.id < seq.nextLoopId
  pending_id_lt : ∀ tick ∈ seq.pending, tick.loopId < seq.nextLoopId
  /-- The pending ticks of the running loop are ticks of its set. -/
  pending_patterns : ∀ loop, seq.loop = some loop → ∀ tick ∈ seq.pending,
    tick.loopId = loop.id → tick.patterns = loop.patterns

/-- A coherent sequencer has a loop only while it runs, and the loop plays the active set. -/
theorem Coherent.loop_plays {seq : Sequencer τ} (h : seq.Coherent) {loop : Loop τ}
    (hloop : seq.loop = some loop) :
    seq.state = .running ∧ loop.Plays seq.patterns seq.stepDuration := by
  by_cases hrun : seq.state = .running
  · refine ⟨hrun, ?_⟩
    rcases (h.of_running hrun).2 with ⟨_, hnone, _⟩ | ⟨loop', hloop', hplays⟩
    · rw [hloop] at hnone
      cases hnone
    · rw [hloop] at hloop'
      cases hloop'
      exact hplays
  · have hnone := (h.of_not_running hrun).1
    rw [hloop] at hnone
    cases hnone

theorem coherent_new (config : SequencerConfig τ) : (new config).Coherent where
  of_not_running _ := ⟨rfl, rfl⟩
  of_running h := by cases h
  of_stopped _ := rfl
  of_paused h := by cases h
  of_pending _ h := absurd h List.not_mem_nil
  loop_id_lt _ h := by cases h
  pending_id_lt _ h := absurd h List.not_mem_nil
  pending_patterns _ h := by cases h

/-! ## Each transition keeps coherence -/

/-- A loop may be installed for a set that has steps. -/
theorem coherent_installLoop {seq : Sequencer τ} (time : τ) (hrun : seq.state = .running)
    (hstaged : seq.staged = none) (hstep : seq.step < seq.patterns.cycleLength)
    (hpending : ∀ tick ∈ seq.pending, tick.step < tick.patterns.cycleLength)
    (hid : ∀ tick ∈ seq.pending, tick.loopId < seq.nextLoopId) :
    (seq.installLoop time).Coherent where
  of_not_running h := absurd hrun h
  of_running _ := ⟨hstaged, Or.inr ⟨_, rfl, rfl, Nat.zero_lt_of_lt hstep, hstep, rfl⟩⟩
  of_stopped h := by
    have h : seq.state = .stopped := h
    rw [hrun] at h
    cases h
  of_paused h := by
    have h : seq.state = .paused := h
    rw [hrun] at h
    cases h
  of_pending := hpending
  loop_id_lt loop h := by
    cases h
    exact Nat.lt_succ_self _
  pending_id_lt tick h := Nat.lt_succ_of_lt (hid tick h)
  pending_patterns loop h tick hmem heq := by
    -- the new loop's number is not that of any pending tick
    cases h
    exact absurd heq (Nat.ne_of_lt (hid tick hmem))

/-- Nothing is left to disagree once the transport has halted. -/
theorem coherent_halted {seq : Sequencer τ} {state : TransportState} {step : Nat}
    (hstate : state ≠ .running) (hstopped : state = .stopped → step = 0)
    (hpaused : state = .paused → step < max 1 seq.patterns.cycleLength) :
    (seq.halted state step).Coherent where
  of_not_running _ := ⟨rfl, rfl⟩
  of_running h := absurd h hstate
  of_stopped := hstopped
  of_paused := hpaused
  of_pending _ h := absurd h List.not_mem_nil
  loop_id_lt _ h := by cases h
  pending_id_lt _ h := absurd h List.not_mem_nil
  pending_patterns _ h := by cases h

/-- A pause goes back to a step of the active set's cycle, or to step 0 if there is none. -/
theorem Coherent.unheardStep_lt {seq : Sequencer τ} (h : seq.Coherent)
    (hrun : seq.state = .running) (now : τ) :
    seq.unheardStep now < max 1 seq.patterns.cycleLength := by
  rcases (h.of_running hrun).2 with ⟨_, hloop, hstep⟩ | ⟨loop, hloop, hplays⟩
  · rw [unheardStep, hloop, hstep]
    exact Nat.lt_of_lt_of_le Nat.zero_lt_one (Nat.le_max_left _ _)
  · refine Nat.lt_of_lt_of_le ?_ (Nat.le_max_right _ _)
    rw [unheardStep, hloop]
    dsimp only
    split
    · next tick hfind =>
      -- the tick found is one of the loop's own, so its step is one of the loop's set
      have hmem : tick ∈ seq.pending := mem_of_mem_undue (List.mem_of_find?_eq_some hfind)
      have hid : tick.loopId = loop.id := by simpa using List.find?_some hfind
      have hlt := h.of_pending tick hmem
      rwa [h.pending_patterns loop hloop tick hmem hid, hplays.patterns_eq] at hlt
    · exact hplays.nextStep_lt

/-- Announcing ticks leaves fewer of them to agree with. -/
theorem Coherent.delivered {seq : Sequencer τ} (h : seq.Coherent) (now : τ) :
    (seq.delivered now).Coherent where
  of_not_running hstate := by
    obtain ⟨hloop, hpending⟩ := h.of_not_running hstate
    refine ⟨hloop, ?_⟩
    show seq.undue now = []
    rw [undue, hpending, List.dropWhile_nil]
  of_running := h.of_running
  of_stopped := h.of_stopped
  of_paused := h.of_paused
  of_pending tick hmem := h.of_pending tick (mem_of_mem_undue hmem)
  loop_id_lt := h.loop_id_lt
  pending_id_lt tick hmem := h.pending_id_lt tick (mem_of_mem_undue hmem)
  pending_patterns loop hloop tick hmem :=
    h.pending_patterns loop hloop tick (mem_of_mem_undue hmem)

/-- The ticks that a poll hands out agree with the loop that they come from. -/
theorem Coherent.handedOut {seq : Sequencer τ} (h : seq.Coherent) {loop : Loop τ}
    (hloop : seq.loop = some loop) (now : τ) :
    (seq.handedOut (seq.window loop now).1 (seq.window loop now).2).Coherent := by
  obtain ⟨hrun, hplays⟩ := h.loop_plays hloop
  have hstep : loop.nextStep < loop.cycle := hplays.nextStep_lt_cycle
  obtain ⟨hid, hclock, hpatterns, hnext⟩ := seq.window_rest hstep now
  have hcycle : loop.cycle = seq.patterns.cycleLength := congrArg _ hplays.patterns_eq
  refine
    { of_not_running := fun hstate => absurd hrun hstate
      of_running := fun _ => ⟨(h.of_running hrun).1, Or.inr ⟨_, rfl, ?_⟩⟩
      of_stopped := ?_
      of_paused := ?_
      of_pending := ?_
      loop_id_lt := ?_
      pending_id_lt := ?_
      pending_patterns := ?_ }
  · exact ⟨hpatterns.trans hplays.patterns_eq, hplays.cycle_pos, hcycle ▸ hnext,
      (congrArg _ hclock).trans hplays.duration_eq⟩
  · intro hstate
    have hstate : seq.state = .stopped := hstate
    rw [hrun] at hstate
    cases hstate
  · intro hstate
    have hstate : seq.state = .paused := hstate
    rw [hrun] at hstate
    cases hstate
  · intro tick hmem
    rcases List.mem_append.mp hmem with hmem | hmem
    · exact h.of_pending tick hmem
    · obtain ⟨_, hset, hlt⟩ := of_mem_window hstep hmem
      rw [hset]
      exact hlt
  · intro rest hrest
    cases hrest
    rw [hid]
    exact h.loop_id_lt loop hloop
  · intro tick hmem
    rcases List.mem_append.mp hmem with hmem | hmem
    · exact h.pending_id_lt tick hmem
    · rw [(of_mem_window hstep hmem).1]
      exact h.loop_id_lt loop hloop
  · intro rest hrest tick hmem heq
    cases hrest
    rw [hid] at heq
    rcases List.mem_append.mp hmem with hmem | hmem
    · rw [hpatterns]
      exact h.pending_patterns loop hloop tick hmem heq
    · rw [hpatterns]
      exact (of_mem_window hstep hmem).2.1

/-- A new tempo respaces the running loop and keeps its step and its set. -/
theorem Coherent.setTempo {seq : Sequencer τ} (h : seq.Coherent) (bpm : τ) :
    (seq.setTempo bpm).Coherent where
  of_not_running hstate := by
    obtain ⟨hloop, hpending⟩ := h.of_not_running hstate
    refine ⟨?_, hpending⟩
    show seq.loop.map _ = none
    rw [hloop, Option.map_none]
  of_running hstate := by
    obtain ⟨hstaged, hcase⟩ := h.of_running hstate
    refine ⟨hstaged, ?_⟩
    rcases hcase with ⟨hcycle, hloop, hstep⟩ | ⟨loop, hloop, hplays⟩
    · refine Or.inl ⟨hcycle, ?_, hstep⟩
      show seq.loop.map _ = none
      rw [hloop, Option.map_none]
    · refine Or.inr ⟨_, congrArg (Option.map _) hloop, ?_⟩
      exact ⟨hplays.patterns_eq, hplays.cycle_pos, hplays.nextStep_lt, rfl⟩
  of_stopped := h.of_stopped
  of_paused := h.of_paused
  of_pending := h.of_pending
  loop_id_lt loop hloop := by
    obtain ⟨loop', hloop', rfl⟩ := Option.map_eq_some_iff.mp hloop
    exact h.loop_id_lt loop' hloop'
  pending_id_lt := h.pending_id_lt
  pending_patterns loop hloop := by
    obtain ⟨loop', hloop', rfl⟩ := Option.map_eq_some_iff.mp hloop
    exact h.pending_patterns loop' hloop'

/-- Handing in a set for later changes nothing that has to agree. -/
theorem Coherent.stage {seq : Sequencer τ} (h : seq.Coherent) (hstate : seq.state ≠ .running)
    (patterns : PatternSet) : { seq with staged := some patterns }.Coherent where
  of_not_running := h.of_not_running
  of_running hrun := absurd hrun hstate
  of_stopped := h.of_stopped
  of_paused := h.of_paused
  of_pending := h.of_pending
  loop_id_lt := h.loop_id_lt
  pending_id_lt := h.pending_id_lt
  pending_patterns := h.pending_patterns

/-- A running transport may go idle. -/
theorem Coherent.idleWith {seq : Sequencer τ} (h : seq.Coherent) (hrun : seq.state = .running)
    {patterns : PatternSet} (hcycle : patterns.cycleLength = 0) :
    (seq.idleWith patterns).Coherent where
  of_not_running hstate := absurd hrun hstate
  of_running _ := ⟨rfl, Or.inl ⟨hcycle, rfl, rfl⟩⟩
  of_stopped _ := rfl
  of_paused _ := Nat.lt_of_lt_of_le Nat.zero_lt_one (Nat.le_max_left _ _)
  of_pending := h.of_pending
  loop_id_lt _ hloop := by cases hloop
  pending_id_lt := h.pending_id_lt
  pending_patterns _ hloop := by cases hloop

/-- A stopped transport stays at step 0 when a start is refused. -/
theorem Coherent.takeStaged {seq : Sequencer τ} (h : seq.Coherent) (hstate : seq.state = .stopped) :
    seq.takeStaged.Coherent where
  of_not_running := h.of_not_running
  of_running hrun := by
    have hrun : seq.state = .running := hrun
    rw [hstate] at hrun
    cases hrun
  of_stopped := h.of_stopped
  of_paused hpaused := by
    have hpaused : seq.state = .paused := hpaused
    rw [hstate] at hpaused
    cases hpaused
  of_pending := h.of_pending
  loop_id_lt := h.loop_id_lt
  pending_id_lt := h.pending_id_lt
  pending_patterns := h.pending_patterns

/-- A paused transport keeps a step of the set that it would resume with. -/
theorem Coherent.rewindToStaged {seq : Sequencer τ} (h : seq.Coherent)
    (hstate : seq.state = .paused) : seq.rewindToStaged.Coherent := by
  rw [Sequencer.rewindToStaged]
  split
  · have hne : seq.state ≠ .running := by simp [hstate]
    exact
      { of_not_running := h.of_not_running
        of_running := fun hrun => absurd hrun hne
        of_stopped := fun _ => rfl
        of_paused := fun _ => Nat.lt_of_lt_of_le Nat.zero_lt_one (Nat.le_max_left _ _)
        of_pending := h.of_pending
        loop_id_lt := h.loop_id_lt
        pending_id_lt := h.pending_id_lt
        pending_patterns := fun loop hloop => h.pending_patterns loop hloop }
  · exact h

/-- Every transition keeps coherence. -/
theorem Coherent.transition {seq after : Sequencer τ} {op : Operation τ} (h : seq.Coherent)
    (htrans : Transition seq op after) : after.Coherent := by
  cases htrans with
  | subscribe =>
    exact ⟨⟨h.of_not_running, h.of_running, h.of_stopped, h.of_paused, h.of_pending⟩,
      h.loop_id_lt, h.pending_id_lt, h.pending_patterns⟩
  | stage _ hstate => exact h.stage hstate _
  | silence _ hrun hcycle => exact h.idleWith hrun hcycle
  | swap _ hrun hcycle =>
    exact coherent_installLoop _ hrun rfl hcycle h.of_pending h.pending_id_lt
  | startIgnored => exact h
  | startRefused hstate => exact h.takeStaged hstate
  | start hstate hcycle =>
    exact coherent_installLoop _ rfl rfl hcycle h.of_pending h.pending_id_lt
  | pauseIgnored => exact h
  | pause hrun =>
    exact coherent_halted (by decide) (fun hstate => by cases hstate)
      fun _ => h.unheardStep_lt hrun _
  | resumeIgnored => exact h
  | resumeRefused hstate => exact h.rewindToStaged hstate
  | resume hstate hcycle =>
    have hrewind := h.rewindToStaged hstate
    exact coherent_installLoop _ rfl seq.staged_rewindToStaged (Nat.mod_lt _ hcycle)
      hrewind.of_pending hrewind.pending_id_lt
  | stop =>
    exact coherent_halted (by decide) (fun _ => rfl) fun hstate => by cases hstate
  | setTempo => exact h.setTempo _
  | pollIdle => exact h.delivered _
  | poll _ hloop => exact (h.handedOut hloop _).delivered _

/-- Every sequencer that a run leads to is coherent. -/
theorem coherent_after (config : SequencerConfig τ) (ops : List (Operation τ)) :
    ((new config).after ops).Coherent :=
  after_induction (coherent_new config) (fun seq op h => h.transition (transition_apply seq op)) ops

/-! ## Steps stay in their cycle -/

/-- The numbers by which an operation reduces a step to one of a cycle: the running loop's cycle for
a poll, the active set's for a resume that is granted. -/
def moduli (seq : Sequencer τ) : Operation τ → List Nat
  | .poll _ => if seq.state = .running then seq.loop.toList.map (·.cycle) else []
  | .resume now =>
    match seq.state, (seq.resume now).result with
    | .paused, .ok () => [(seq.resume now).sequencer.patterns.cycleLength]
    | _, _ => []
  | _ => []

/-- A resume that is granted installs a loop. -/
theorem exists_loop_of_resume {seq : Sequencer τ} {now : τ} (hstate : seq.state = .paused)
    (hok : (seq.resume now).result = .ok ()) :
    ∃ loop, (seq.resume now).sequencer.loop = some loop := by
  rw [resume_of_paused hstate] at hok ⊢
  split
  · next hcycle =>
    rw [if_pos hcycle] at hok
    cases hok
  · exact ⟨_, rfl⟩

/-- A coherent sequencer reduces steps by positive numbers only. -/
theorem Coherent.moduli_pos {seq : Sequencer τ} (h : seq.Coherent) {op : Operation τ} {n : Nat}
    (hmem : n ∈ seq.moduli op) : 0 < n := by
  cases op with
  | poll now =>
    rw [moduli] at hmem
    split at hmem
    · obtain ⟨loop, hloop, rfl⟩ := List.mem_map.mp hmem
      obtain ⟨_, hplays⟩ := h.loop_plays (Option.mem_toList.mp hloop)
      rw [Loop.cycle, hplays.patterns_eq]
      exact hplays.cycle_pos
    · exact absurd hmem List.not_mem_nil
  | resume now =>
    rw [moduli] at hmem
    split at hmem
    · next hpaused hok =>
      rw [List.mem_singleton] at hmem
      rw [hmem]
      -- a granted resume leaves the transport running with a loop of the active set
      have hafter : (seq.resume now).sequencer.Coherent := h.transition (transition_resume seq now)
      obtain ⟨loop, hloop⟩ := exists_loop_of_resume hpaused hok
      exact (hafter.loop_plays hloop).2.cycle_pos
    · exact absurd hmem List.not_mem_nil
  | _ => exact absurd hmem List.not_mem_nil

/-- A coherent sequencer dispatches steps of the snapshots that go with them. -/
theorem Coherent.dispatchedBy_step_lt {seq : Sequencer τ} (h : seq.Coherent) {op : Operation τ}
    {tick : Tick τ} (hmem : tick ∈ seq.dispatchedBy op) :
    tick.step < tick.patterns.cycleLength := by
  obtain ⟨now, loop, _, _, hloop, hwindow⟩ := exists_window_of_mem_dispatchedBy hmem
  have hstep : loop.nextStep < loop.cycle := (h.loop_plays hloop).2.nextStep_lt_cycle
  obtain ⟨_, hpatterns, hlt⟩ := of_mem_window hstep hwindow
  rw [hpatterns]
  exact hlt

/-- A halted transport is silent: a poll plays nothing and tells nothing. -/
theorem Coherent.effects_poll_of_not_running {seq : Sequencer τ} (h : seq.Coherent)
    (hstate : seq.state ≠ .running) (now : τ) : (seq.poll now).effects = [] := by
  rw [poll, fillWindow_of_idle fun hrun => absurd hrun hstate]
  simp [deliverDue, (h.of_not_running hstate).2]

/-- After every run the fields of the sequencer agree and a halted transport is silent; no run
reduces a step modulo zero, and each step that observers are told is one of its snapshot's. -/
theorem fields_agree_after_run (config : SequencerConfig τ) (ops : List (Operation τ)) :
    ((new config).after ops).Consistent ∧
      (((new config).after ops).state ≠ .running →
        ∀ now, (((new config).after ops).poll now).effects = []) ∧
      (∀ n ∈ (new config).collect moduli ops, 0 < n) ∧
      (∀ step patterns, Effect.display (.stepAdvance step patterns) ∈ (new config).effects ops →
        step < patterns.cycleLength) := by
  have hcoherent : ∀ ops, ((new config).after ops).Coherent := coherent_after config
  refine ⟨(hcoherent ops).toConsistent, (hcoherent ops).effects_poll_of_not_running, ?_, ?_⟩
  · intro n hn
    obtain ⟨before, op, _, _, hmem⟩ := exists_of_mem_collect hn
    exact (hcoherent before).moduli_pos hmem
  · intro step patterns heffect
    -- the event comes from a tick that was pending or is dispatched at the same operation
    obtain ⟨tick, htick, heq⟩ := exists_announced_of_stepAdvance heffect
    obtain ⟨before, op, _, _, hmem⟩ := exists_of_mem_collect htick
    have hlt : tick.step < tick.patterns.cycleLength := by
      rcases mem_of_mem_announcedBy hmem with hpending | hdispatched
      · exact (hcoherent before).of_pending tick hpending
      · exact (hcoherent before).dispatchedBy_step_lt hdispatched
    cases heq
    exact hlt

end Sequencer

end Groovebox
