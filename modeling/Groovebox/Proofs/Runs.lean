import Groovebox.Proofs.Transitions
import Mathlib.Data.List.Basic

/-!
# Runs, tick by tick

What a run of the sequencer does to the outside, said in ticks.  Every operation dispatches a list
of ticks to the backend (only a poll does) and announces a list of ticks to the observers (a poll, a
pause and a stop do).  The calls and step events of a run are those of its ticks:

* `sounds_eq_dispatched`: the sounding calls are the calls of the ticks dispatched;
* `stepAdvances_eq_announced`: the step events are the ticks announced;
* `start_eq_start_manual`: a start by any clock is a start by some clock that is set by hand, so
  that runs lose nothing by knowing only those.
-/

namespace Groovebox

/-! ## What effects tell -/

namespace Effect

variable {τ : Type}

/-- The backend call that makes a sound, if the effect is one. -/
def sound? : Effect τ → Option (BackendCall τ)
  | .sound call => call.soundTime?.map fun _ => call
  | .display _ => none

/-- The step and the snapshot that observers are told, if the effect tells them. -/
def stepAdvance? : Effect τ → Option (Nat × PatternSet)
  | .display (.stepAdvance step patterns) => some (step, patterns)
  | _ => none

end Effect

namespace Tick

/-- The backend calls of a tick. -/
def calls {τ : Type} (tick : Tick τ) (policy : WrapPolicy) : List (BackendCall τ) :=
  tick.patterns.dispatch policy tick.step tick.duration tick.time

/-- What observers are told of a tick. -/
def announcement {τ : Type} (tick : Tick τ) : Effect τ :=
  .display (.stepAdvance tick.step tick.patterns)

/-- A dispatched call is one that makes a sound. -/
theorem sounds_soundTick {τ : Type} (policy : WrapPolicy) (tick : Tick τ) :
    (Sequencer.soundTick policy tick).filterMap Effect.sound? = tick.calls policy := by
  rw [Sequencer.soundTick, List.filterMap_map, calls]
  have hsome : ∀ call ∈ tick.patterns.dispatch policy tick.step tick.duration tick.time,
      (Effect.sound? ∘ Effect.sound) call = some call := by
    intro call hcall
    rw [PatternSet.dispatch, List.mem_filterMap] at hcall
    obtain ⟨⟨track, pattern⟩, _, hpattern⟩ := hcall
    obtain ⟨token, _, heq⟩ := Option.bind_eq_some_iff.mp hpattern
    cases heq
    rw [Function.comp_apply, Effect.sound?, Track.soundCall]
    split <;> rfl
  rw [List.filterMap_congr hsome, List.filterMap_some]

end Tick

namespace Sequencer

variable {τ : Type} [TimeScale τ]

/-! ## Ticks of an operation -/

/-- The ticks that an operation dispatches to the backend. -/
def dispatchedBy (seq : Sequencer τ) : Operation τ → List (Tick τ)
  | .poll now => (seq.fillWindow now).2
  | _ => []

/-- The ticks whose steps an operation announces to the observers. -/
def announcedBy (seq : Sequencer τ) : Operation τ → List (Tick τ)
  | .poll now => (seq.fillWindow now).1.due now
  | .pause now => if seq.state = .running then seq.due now else []
  | .stop now => seq.due now
  | _ => []

/-! ## Records of a run -/

/-- What a run leaves behind when something is written down at each of its operations. -/
def collect {α : Type} (record : Sequencer τ → Operation τ → List α) (seq : Sequencer τ) :
    List (Operation τ) → List α
  | [] => []
  | op :: rest => record seq op ++ (seq.apply op).sequencer.collect record rest

/-- The ticks that a run dispatches, in order. -/
def dispatched (seq : Sequencer τ) (ops : List (Operation τ)) : List (Tick τ) :=
  seq.collect dispatchedBy ops

/-- The ticks that a run announces, in order. -/
def announced (seq : Sequencer τ) (ops : List (Operation τ)) : List (Tick τ) :=
  seq.collect announcedBy ops

@[simp] theorem after_cons (seq : Sequencer τ) (op : Operation τ) (rest : List (Operation τ)) :
    seq.after (op :: rest) = (seq.apply op).sequencer.after rest := rfl

theorem after_append (seq : Sequencer τ) (a b : List (Operation τ)) :
    seq.after (a ++ b) = (seq.after a).after b := by
  rw [after, List.foldl_append]
  rfl

/-- A record of two runs in a row is the records of both. -/
theorem collect_append {α : Type} (record : Sequencer τ → Operation τ → List α)
    (seq : Sequencer τ) (a b : List (Operation τ)) :
    seq.collect record (a ++ b) = seq.collect record a ++ (seq.after a).collect record b := by
  induction a generalizing seq with
  | nil => rfl
  | cons op rest ih =>
    rw [List.cons_append, collect, collect, ih, after_cons, List.append_assoc]

theorem after_concat (seq : Sequencer τ) (ops : List (Operation τ)) (op : Operation τ) :
    seq.after (ops ++ [op]) = ((seq.after ops).apply op).sequencer :=
  seq.after_append ops [op]

theorem collect_concat {α : Type} (record : Sequencer τ → Operation τ → List α)
    (seq : Sequencer τ) (ops : List (Operation τ)) (op : Operation τ) :
    seq.collect record (ops ++ [op]) = seq.collect record ops ++ record (seq.after ops) op := by
  rw [collect_append, collect, collect, List.append_nil]

/-- What is in a record was written down at one of the operations. -/
theorem exists_of_mem_collect {α : Type} {record : Sequencer τ → Operation τ → List α}
    {seq : Sequencer τ} {ops : List (Operation τ)} {x : α} (hx : x ∈ seq.collect record ops) :
    ∃ before op rest, ops = before ++ op :: rest ∧ x ∈ record (seq.after before) op := by
  induction ops generalizing seq with
  | nil => exact absurd hx List.not_mem_nil
  | cons op rest ih =>
    rw [collect, List.mem_append] at hx
    rcases hx with hx | hx
    · exact ⟨[], op, rest, rfl, hx⟩
    · obtain ⟨before, op', rest', heq, hmem⟩ := ih hx
      refine ⟨op :: before, op', rest', ?_, hmem⟩
      rw [heq, List.cons_append]

/-- The effects of a run are those of its operations. -/
theorem effects_eq_collect (seq : Sequencer τ) (ops : List (Operation τ)) :
    seq.effects ops = seq.collect (fun seq op => (seq.apply op).effects) ops := by
  induction ops generalizing seq with
  | nil => rfl
  | cons op rest ih =>
    rw [collect, ← ih]
    rfl

/-- What holds at first and is kept by every operation holds after every run. -/
theorem after_induction {P : Sequencer τ → Prop} {seq : Sequencer τ} (h : P seq)
    (hstep : ∀ seq op, P seq → P (seq.apply op).sequencer) (ops : List (Operation τ)) :
    P (seq.after ops) := by
  induction ops generalizing seq with
  | nil => exact h
  | cons op rest ih => exact ih (hstep seq op h)

/-! ## Ticks and effects -/

/-- The settings of a sequencer are those that it was made with. -/
theorem config_apply (seq : Sequencer τ) (op : Operation τ) :
    (seq.apply op).sequencer.config = seq.config := by
  have htrans := transition_apply seq op
  generalize (seq.apply op).sequencer = after at htrans ⊢
  cases htrans with
  | resumeRefused | resume => cases h : seq.staged <;> simp [rewindToStaged, installLoop, h]
  | _ => rfl

theorem config_after (seq : Sequencer τ) (ops : List (Operation τ)) :
    (seq.after ops).config = seq.config := by
  induction ops generalizing seq with
  | nil => rfl
  | cons op rest ih => rw [after_cons, ih, config_apply]

theorem dispatchedBy_poll_of_loop {seq : Sequencer τ} {loop : Loop τ} (hrun : seq.state = .running)
    (hloop : seq.loop = some loop) (now : τ) :
    seq.dispatchedBy (.poll now) = (seq.window loop now).1 := by
  rw [dispatchedBy, fillWindow_of_loop hrun hloop]

theorem apply_poll_of_loop {seq : Sequencer τ} {loop : Loop τ} (hrun : seq.state = .running)
    (hloop : seq.loop = some loop) (now : τ) :
    (seq.apply (.poll now)).sequencer =
      (seq.handedOut (seq.window loop now).1 (seq.window loop now).2).delivered now := by
  show (seq.poll now).sequencer = _
  rw [poll, fillWindow_of_loop hrun hloop]
  rfl

/-- A poll without a loop to play dispatches nothing. -/
theorem dispatchedBy_poll_of_idle {seq : Sequencer τ} (h : seq.state = .running → seq.loop = none)
    (now : τ) : seq.dispatchedBy (.poll now) = [] := by
  rw [dispatchedBy, fillWindow_of_idle h]

/-- Such a poll only delivers. -/
theorem apply_poll_of_idle {seq : Sequencer τ} (h : seq.state = .running → seq.loop = none)
    (now : τ) : (seq.apply (.poll now)).sequencer = seq.delivered now := by
  show (seq.poll now).sequencer = _
  rw [poll, fillWindow_of_idle h]
  rfl

/-- Ticks are dispatched by the polls of a running loop only. -/
theorem exists_window_of_mem_dispatchedBy {seq : Sequencer τ} {op : Operation τ} {tick : Tick τ}
    (h : tick ∈ seq.dispatchedBy op) :
    ∃ now loop, op = .poll now ∧ seq.state = .running ∧ seq.loop = some loop ∧
      tick ∈ (seq.window loop now).1 := by
  cases op with
  | poll now =>
    by_cases hidle : seq.state = .running → seq.loop = none
    · rw [dispatchedBy, fillWindow_of_idle hidle] at h
      exact absurd h List.not_mem_nil
    · obtain ⟨hrun, hne⟩ := Classical.not_imp.mp hidle
      obtain ⟨loop, hloop⟩ := Option.ne_none_iff_exists'.mp hne
      rw [dispatchedBy_poll_of_loop hrun hloop] at h
      exact ⟨now, loop, rfl, hrun, hloop, h⟩
  | _ => exact absurd h List.not_mem_nil

/-- A start does no more than announce statuses. -/
theorem effects_start (seq : Sequencer τ) (clock : ManualClock τ) :
    ∃ statuses : List TransportStatus, (seq.start clock).effects = statuses.map announce := by
  show ∃ statuses : List TransportStatus, (seq.apply (.start clock)).effects = statuses.map announce
  by_cases hstate : seq.state = .stopped
  · rw [apply_start_of_stopped hstate]
    exact ⟨_, rfl⟩
  · rw [apply_start_of_not_stopped hstate]
    exact ⟨[], rfl⟩

/-- A resume does no more than announce statuses. -/
theorem effects_resume (seq : Sequencer τ) (now : τ) :
    ∃ statuses : List TransportStatus, (seq.resume now).effects = statuses.map announce := by
  by_cases hstate : seq.state = .paused
  · rw [resume_of_paused hstate]
    split
    · exact ⟨[], rfl⟩
    · exact ⟨[.playing], rfl⟩
  · rw [resume_of_not_paused hstate]
    exact ⟨[], rfl⟩

/-- What is announced was pending or is dispatched at the same poll. -/
theorem mem_of_mem_announcedBy {seq : Sequencer τ} {op : Operation τ} {tick : Tick τ}
    (h : tick ∈ seq.announcedBy op) : tick ∈ seq.pending ∨ tick ∈ seq.dispatchedBy op := by
  cases op with
  | poll now =>
    rw [announcedBy, due] at h
    have hmem := (List.takeWhile_sublist _).subset h
    by_cases hidle : seq.state = .running → seq.loop = none
    · rw [fillWindow_of_idle hidle] at hmem
      exact Or.inl hmem
    · obtain ⟨hrun, hne⟩ := Classical.not_imp.mp hidle
      obtain ⟨loop, hloop⟩ := Option.ne_none_iff_exists'.mp hne
      rw [fillWindow_of_loop hrun hloop] at hmem
      rw [dispatchedBy, fillWindow_of_loop hrun hloop]
      exact List.mem_append.mp hmem
  | pause now =>
    rw [announcedBy] at h
    split at h
    · exact Or.inl ((List.takeWhile_sublist _).subset h)
    · exact absurd h List.not_mem_nil
  | stop now => exact Or.inl ((List.takeWhile_sublist _).subset h)
  | _ => exact absurd h List.not_mem_nil

/-- An operation plays the ticks that it dispatches, tells of those that it announces, and beyond
that makes no sound and tells of no step. -/
theorem effects_apply (seq : Sequencer τ) (op : Operation τ) :
    ∃ rest, (seq.apply op).effects =
        (seq.dispatchedBy op).flatMap (soundTick seq.config.wrapPolicy) ++
          (seq.announcedBy op).map Tick.announcement ++ rest ∧
      ∀ effect ∈ rest, effect.sound? = none ∧ effect.stepAdvance? = none := by
  cases op with
  | subscribe => exact ⟨[], rfl, by simp⟩
  | replacePatterns patterns now =>
    refine ⟨[.display (.patternSetChanged patterns)], ?_,
      by simp [Effect.sound?, Effect.stepAdvance?]⟩
    simp only [apply, replacePatterns]
    split <;> rfl
  | submitText text now =>
    refine ⟨[.display (.patternSetChanged (PatternText.compile text))], ?_,
      by simp [Effect.sound?, Effect.stepAdvance?]⟩
    simp only [apply, submitText, replacePatterns]
    split <;> rfl
  | start clock =>
    obtain ⟨statuses, hstatuses⟩ := effects_start seq clock
    refine ⟨statuses.map announce, hstatuses, ?_⟩
    simp [announce, Effect.sound?, Effect.stepAdvance?]
  | pause now =>
    simp only [apply, pause, announcedBy]
    split
    · next h =>
      rw [if_pos h]
      refine ⟨[.sound (.cancelAfter now), announce .paused], ?_, ?_⟩
      · exact List.append_assoc ..
      · simp [announce, Effect.sound?, BackendCall.soundTime?, Effect.stepAdvance?]
    · next h =>
      rw [if_neg h]
      exact ⟨[], rfl, by simp⟩
  | resume now =>
    obtain ⟨statuses, hstatuses⟩ := effects_resume seq now
    refine ⟨statuses.map announce, hstatuses, ?_⟩
    simp [announce, Effect.sound?, Effect.stepAdvance?]
  | stop now =>
    refine ⟨[.sound (.cancelAfter now), announce .stopped], ?_, ?_⟩
    · exact List.append_assoc ..
    · simp [announce, Effect.sound?, BackendCall.soundTime?, Effect.stepAdvance?]
  | setTempo bpm => exact ⟨[], rfl, by simp⟩
  | poll now => exact ⟨[], (List.append_nil _).symm, by simp⟩

/-- The step events of a run are the ticks that it announces. -/
theorem stepAdvances_eq_announced (seq : Sequencer τ) (ops : List (Operation τ)) :
    (seq.effects ops).filterMap Effect.stepAdvance? =
      (seq.announced ops).map fun tick => (tick.step, tick.patterns) := by
  rw [effects_eq_collect, announced]
  induction ops generalizing seq with
  | nil => rfl
  | cons op rest ih =>
    -- of the effects of an operation, only those of its announced ticks tell of a step
    obtain ⟨others, heq, hothers⟩ := effects_apply seq op
    rw [collect, collect, List.filterMap_append, List.map_append, ih, heq, List.filterMap_append,
      List.filterMap_append, List.filterMap_eq_nil_iff.mpr fun e he => (hothers e he).2,
      List.filterMap_flatMap]
    simp [soundTick, Tick.announcement, Effect.stepAdvance?, Function.comp_def]

/-- A step event tells of a tick that the run announces. -/
theorem exists_announced_of_stepAdvance {seq : Sequencer τ} {ops : List (Operation τ)} {step : Nat}
    {patterns : PatternSet} (h : Effect.display (.stepAdvance step patterns) ∈ seq.effects ops) :
    ∃ tick ∈ seq.announced ops, (tick.step, tick.patterns) = (step, patterns) := by
  have hmem : (step, patterns) ∈ (seq.effects ops).filterMap Effect.stepAdvance? :=
    List.mem_filterMap.mpr ⟨_, h, rfl⟩
  rw [stepAdvances_eq_announced] at hmem
  exact List.mem_map.mp hmem

/-- The sounding calls of a run are those of the ticks that it dispatches. -/
theorem sounds_eq_dispatched (seq : Sequencer τ) (ops : List (Operation τ)) :
    (seq.effects ops).filterMap Effect.sound? =
      (seq.dispatched ops).flatMap (·.calls seq.config.wrapPolicy) := by
  rw [effects_eq_collect, dispatched]
  induction ops generalizing seq with
  | nil => rfl
  | cons op rest ih =>
    obtain ⟨others, heq, hothers⟩ := effects_apply seq op
    rw [collect, collect, List.filterMap_append, List.flatMap_append, ih, heq, config_apply,
      List.filterMap_append, List.filterMap_append,
      List.filterMap_eq_nil_iff.mpr fun e he => (hothers e he).1, List.filterMap_flatMap]
    simp [Tick.sounds_soundTick, Tick.announcement, Effect.sound?]

/-! ## Starts by any clock -/

/-- A start by any clock is a start by some clock that is set by hand. -/
theorem start_eq_start_manual {κ : Type} [AudioClock κ τ] (seq : Sequencer τ) (clock : κ) :
    ∃ manual : ManualClock τ,
      (seq.start manual).sequencer = (seq.start clock).sequencer ∧
        (seq.start manual).effects = (seq.start clock).effects := by
  by_cases hactive : AudioClock.isActive clock = true
  · refine ⟨⟨AudioClock.now clock, true, none⟩, ?_⟩
    have hmanual :
        AudioClock.isActive (⟨AudioClock.now clock, true, none⟩ : ManualClock τ) = true := rfl
    simp only [start, hactive, hmanual, if_true]
    split
    · exact ⟨rfl, rfl⟩
    · split <;> exact ⟨rfl, rfl⟩
  · cases hact : AudioClock.activate clock with
    | mk clock' answer =>
      cases answer with
      | error refusal =>
        refine ⟨⟨AudioClock.now clock, false, some ""⟩, ?_⟩
        simp only [start, hactive, hact]
        split
        · exact ⟨rfl, rfl⟩
        · split <;> exact ⟨rfl, rfl⟩
      | ok _ =>
        refine ⟨⟨AudioClock.now clock', false, none⟩, ?_⟩
        simp only [start, hactive, hact]
        split
        · exact ⟨rfl, rfl⟩
        · split <;> exact ⟨rfl, rfl⟩

end Sequencer

end Groovebox
