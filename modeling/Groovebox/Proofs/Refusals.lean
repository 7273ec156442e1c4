import Groovebox.Proofs.Consistency

/-!
# A refused call leaves no trace

A start or a resume that is refused has used up the staged set all the same, and a resume has gone
back to step 0 for it.  So the fields of the sequencer do differ from what they were.  But a halted
transport reads the two sets together only: what it would play next is the staged set, or else the
active one, and the step at which a resume would begin is 0 if a set is staged.  Two halted
sequencers that agree on this are `Alike`, and nothing that is asked of them later tells them apart.
-/

namespace Groovebox

namespace Sequencer

variable {τ : Type}

/-! ## What a halted transport would play -/

/-- The set that the next start or resume would play. -/
def upcoming (seq : Sequencer τ) : PatternSet :=
  seq.staged.getD seq.patterns

/-- The step at which the next resume would begin. -/
def upcomingStep (seq : Sequencer τ) : Nat :=
  if seq.staged.isSome then 0 else seq.step

/-- The sequencer with other sets and at another step. -/
def holding (seq : Sequencer τ) (patterns : PatternSet) (staged : Option PatternSet) (step : Nat) :
    Sequencer τ :=
  { seq with patterns := patterns, staged := staged, step := step }

theorem takeStaged_eq (seq : Sequencer τ) :
    seq.takeStaged = seq.holding seq.upcoming none seq.step := rfl

theorem rewindToStaged_eq (seq : Sequencer τ) :
    seq.rewindToStaged = seq.holding seq.upcoming none seq.upcomingStep := by
  rw [rewindToStaged, upcoming, upcomingStep]
  cases hstaged : seq.staged with
  | some patterns => rfl
  | none =>
    show seq = { seq with patterns := seq.patterns, staged := none, step := seq.step }
    rw [← hstaged]

/-- Two halted sequencers that differ in their sets and their step, but would play the same set
next, and resume it at the same step. -/
structure Alike (a b : Sequencer τ) : Prop where
  halted : a.state ≠ .running
  eq_holding : b = a.holding b.patterns b.staged b.step
  upcoming_eq : a.upcoming = b.upcoming
  upcomingStep_eq : a.state = .paused → a.upcomingStep = b.upcomingStep

theorem Alike.state_eq {a b : Sequencer τ} (h : Alike a b) : b.state = a.state := by
  rw [h.eq_holding]
  rfl

/-- Sequencers that are alike make the same thing of their staged sets when they resume. -/
theorem Alike.rewindToStaged_eq {a b : Sequencer τ} (h : Alike a b) (hpaused : a.state = .paused) :
    b.rewindToStaged = a.rewindToStaged := by
  rw [Sequencer.rewindToStaged_eq, Sequencer.rewindToStaged_eq, ← h.upcoming_eq,
    ← h.upcomingStep_eq hpaused, h.eq_holding]
  rfl

variable [TimeScale τ]

/-! ## Refused calls -/

/-- Only a start of a stopped transport and a resume of a paused one are refused, and both use up
the staged set. -/
theorem of_refused {seq : Sequencer τ} {op : Operation τ} {refusal : Refusal}
    (h : (seq.apply op).result = .error refusal) :
    ((∃ clock, op = .start clock) ∧ seq.state = .stopped ∧
        (seq.apply op).sequencer = seq.takeStaged) ∨
      ((∃ now, op = .resume now) ∧ seq.state = .paused ∧
        (seq.apply op).sequencer = seq.rewindToStaged) := by
  cases op with
  | start clock =>
    by_cases hstate : seq.state = .stopped
    · rw [apply_start_of_stopped hstate] at h ⊢
      dsimp only at h ⊢
      rw [h]
      exact Or.inl ⟨⟨clock, rfl⟩, hstate, rfl⟩
    · rw [apply_start_of_not_stopped hstate] at h
      cases h
  | resume now =>
    change (seq.resume now).result = _ at h
    by_cases hstate : seq.state = .paused
    · refine Or.inr ⟨⟨now, rfl⟩, hstate, ?_⟩
      show (seq.resume now).sequencer = _
      rw [resume_of_paused hstate] at h ⊢
      split at h
      · next hcycle => rw [if_pos hcycle]
      · cases h
    · rw [resume_of_not_paused hstate] at h
      cases h
  | _ => cases h

/-- A refused call makes no backend call. -/
theorem sound_not_mem_of_refused {seq : Sequencer τ} {op : Operation τ} {refusal : Refusal}
    (h : (seq.apply op).result = .error refusal) (call : BackendCall τ) :
    .sound call ∉ (seq.apply op).effects := by
  have hstatuses : ∀ statuses : List TransportStatus, .sound call ∉ statuses.map (@announce τ) := by
    intro statuses hmem
    obtain ⟨_, _, heq⟩ := List.mem_map.mp hmem
    cases heq
  rcases of_refused h with ⟨⟨clock, rfl⟩, _⟩ | ⟨⟨now, rfl⟩, _⟩
  · obtain ⟨statuses, heq⟩ := effects_start seq clock
    show _ ∉ (seq.start clock).effects
    rw [heq]
    exact hstatuses statuses
  · obtain ⟨statuses, heq⟩ := effects_resume seq now
    show _ ∉ (seq.resume now).effects
    rw [heq]
    exact hstatuses statuses

/-- A refused call leaves a sequencer that is like the one before. -/
theorem alike_of_refused {seq : Sequencer τ} {op : Operation τ} {refusal : Refusal}
    (h : (seq.apply op).result = .error refusal) : Alike seq (seq.apply op).sequencer := by
  rcases of_refused h with ⟨_, hstate, heq⟩ | ⟨_, hstate, heq⟩
  · rw [heq, takeStaged_eq]
    exact ⟨by simp [hstate], rfl, rfl, by simp [hstate]⟩
  · rw [heq, rewindToStaged_eq]
    exact ⟨by simp [hstate], rfl, rfl, fun _ => rfl⟩

/-! ## Nothing tells them apart -/

/-- Two outcomes with the same answer and the same effects, after which the sequencers are the same
or alike. -/
structure Agree (x y : Outcome τ (Except Refusal Unit)) : Prop where
  result_eq : x.result = y.result
  effects_eq : x.effects = y.effects
  after : x.sequencer = y.sequencer ∨ Alike x.sequencer y.sequencer

/-- A start of a stopped transport goes by the set that it would play. -/
theorem Alike.start {a b : Sequencer τ} (h : Alike a b) (clock : ManualClock τ) :
    Agree (a.apply (.start clock)) (b.apply (.start clock)) := by
  by_cases hstate : a.state = .stopped
  · have hset : b.takeStaged.patterns = a.takeStaged.patterns := h.upcoming_eq.symm
    have htaken : b.takeStaged = { a.takeStaged with step := b.step } := by
      rw [takeStaged_eq, takeStaged_eq, ← h.upcoming_eq, h.eq_holding]
      rfl
    rw [apply_start_of_stopped hstate, apply_start_of_stopped (h.state_eq.trans hstate), hset]
    refine ⟨rfl, rfl, ?_⟩
    dsimp only
    split
    · exact Or.inl (by rw [htaken])
    · refine Or.inr ?_
      rw [htaken]
      exact ⟨h.halted, rfl, rfl, fun hpaused => absurd (hstate.symm.trans hpaused) (by decide)⟩
  · rw [apply_start_of_not_stopped hstate,
      apply_start_of_not_stopped (fun hb => hstate (h.state_eq.symm.trans hb))]
    exact ⟨rfl, rfl, Or.inr h⟩

/-- A resume of a paused transport goes by the set that it would play, and by the step. -/
theorem Alike.resume {a b : Sequencer τ} (h : Alike a b) (now : τ) :
    Agree (a.resume now) (b.resume now) := by
  by_cases hstate : a.state = .paused
  · rw [resume_of_paused hstate, resume_of_paused (h.state_eq.trans hstate),
      h.rewindToStaged_eq hstate]
    exact ⟨rfl, rfl, Or.inl rfl⟩
  · rw [resume_of_not_paused hstate,
      resume_of_not_paused (fun hb => hstate (h.state_eq.symm.trans hb))]
    exact ⟨rfl, rfl, Or.inr h⟩

/-- Both stage a set that is handed in. -/
theorem Alike.replacePatterns {a b : Sequencer τ} (h : Alike a b) (patterns : PatternSet) (now : τ) :
    (a.replacePatterns patterns now).effects = (b.replacePatterns patterns now).effects ∧
      Alike (a.replacePatterns patterns now).sequencer
        (b.replacePatterns patterns now).sequencer := by
  have hstages : ∀ {seq : Sequencer τ}, seq.state ≠ .running →
      seq.replacePatterns patterns now =
        ⟨(), { seq with staged := some patterns }, [.display (.patternSetChanged patterns)]⟩ := by
    intro seq hstate
    rw [Sequencer.replacePatterns]
    split
    · contradiction
    · rfl
  have hb : b.state ≠ .running := fun hrun => h.halted (h.state_eq.symm.trans hrun)
  rw [hstages h.halted, hstages hb]
  refine ⟨rfl, h.halted, ?_, rfl, fun _ => rfl⟩
  rw [h.eq_holding]
  rfl

/-- A stop leaves both at step 0. -/
theorem Alike.stop {a b : Sequencer τ} (h : Alike a b) (now : τ) :
    (a.stop now).effects = (b.stop now).effects ∧
      Alike (a.stop now).sequencer (b.stop now).sequencer := by
  rw [h.eq_holding]
  exact ⟨rfl, (by decide : TransportState.stopped ≠ .running), rfl, h.upcoming_eq,
    fun hpaused => absurd hpaused (by decide : TransportState.stopped ≠ .paused)⟩

/-- A poll finds the same ticks pending in both. -/
theorem Alike.poll {a b : Sequencer τ} (h : Alike a b) (now : τ) :
    (a.poll now).effects = (b.poll now).effects ∧
      Alike (a.poll now).sequencer (b.poll now).sequencer := by
  have hb : b.state ≠ .running := fun hrun => h.halted (h.state_eq.symm.trans hrun)
  rw [Sequencer.poll, Sequencer.poll, fillWindow_of_idle fun hrun => absurd hrun h.halted,
    fillWindow_of_idle fun hrun => absurd hrun hb]
  rw [h.eq_holding]
  exact ⟨rfl, h.halted, rfl, h.upcoming_eq, h.upcomingStep_eq⟩

/-- Sequencers that are alike agree on every operation. -/
theorem Alike.apply {a b : Sequencer τ} (h : Alike a b) (op : Operation τ) :
    Agree (a.apply op) (b.apply op) := by
  have hb : b.state ≠ .running := fun hrun => h.halted (h.state_eq.symm.trans hrun)
  cases op with
  | subscribe =>
    refine ⟨rfl, rfl, Or.inr ⟨h.halted, ?_, h.upcoming_eq, h.upcomingStep_eq⟩⟩
    rw [h.eq_holding]
    rfl
  | replacePatterns patterns now =>
    exact ⟨rfl, (h.replacePatterns patterns now).1, Or.inr (h.replacePatterns patterns now).2⟩
  | submitText text now =>
    exact ⟨rfl, (h.replacePatterns _ now).1, Or.inr (h.replacePatterns _ now).2⟩
  | start clock => exact h.start clock
  | pause now =>
    have hignored : ∀ {seq : Sequencer τ}, seq.state ≠ .running → seq.pause now = ⟨(), seq, []⟩ := by
      intro seq hstate
      rw [pause]
      split
      · contradiction
      · rfl
    rw [Sequencer.apply, Sequencer.apply, hignored h.halted, hignored hb]
    exact ⟨rfl, rfl, Or.inr h⟩
  | resume now => exact h.resume now
  | stop now => exact ⟨rfl, (h.stop now).1, Or.inr (h.stop now).2⟩
  | setTempo bpm =>
    refine ⟨rfl, rfl, Or.inr ⟨h.halted, ?_, h.upcoming_eq, h.upcomingStep_eq⟩⟩
    rw [h.eq_holding]
    rfl
  | poll now => exact ⟨rfl, (h.poll now).1, Or.inr (h.poll now).2⟩

/-! ## Runs -/

/-- What an operation shows to the outside: its answer, and what it does. -/
def shown (outcome : Outcome τ (Except Refusal Unit)) : Except Refusal Unit × List (Effect τ) :=
  (outcome.result, outcome.effects)

/-- Sequencers that are alike show the same in every run.  They stay alike until the transport runs,
and are the same from then on. -/
theorem Alike.run {a b : Sequencer τ} (h : Alike a b) (later : List (Operation τ)) :
    (b.run later).map shown = (a.run later).map shown ∧
      (b.after later = a.after later ∨
        Alike (a.after later) (b.after later) ∧
          ∀ first, first <+: later → (a.after first).state ≠ .running) := by
  induction later generalizing a b with
  | nil =>
    refine ⟨rfl, Or.inr ⟨h, ?_⟩⟩
    intro first hfirst
    rw [List.prefix_nil.mp hfirst]
    exact h.halted
  | cons op rest ih =>
    obtain ⟨hresult, heffects, hafter⟩ := h.apply op
    have hshown : shown (b.apply op) = shown (a.apply op) := by
      rw [shown, shown, hresult, heffects]
    rw [Sequencer.run, Sequencer.run, List.map_cons, List.map_cons, hshown, after_cons, after_cons]
    rcases hafter with hsame | halike
    · rw [hsame]
      exact ⟨rfl, Or.inl rfl⟩
    · obtain ⟨hrest, hend⟩ := ih halike
      rw [hrest]
      refine ⟨rfl, hend.imp_right ?_⟩
      rintro ⟨hstill, hhalted⟩
      refine ⟨hstill, ?_⟩
      intro first hfirst
      rcases List.prefix_cons_iff.mp hfirst with rfl | ⟨tail, rfl, htail⟩
      · exact h.halted
      · exact hhalted tail htail

/-- Only a running transport becomes paused. -/
theorem paused_of_apply {seq : Sequencer τ} {op : Operation τ} (hhalted : seq.state ≠ .running)
    (hpaused : (seq.apply op).sequencer.state = .paused) : seq.state = .paused := by
  have htrans := transition_apply seq op
  generalize (seq.apply op).sequencer = after at htrans hpaused
  cases htrans with
  | silence _ hrun | swap _ hrun | pause hrun | poll hrun => exact absurd hrun hhalted
  | start | resume | stop => cases hpaused
  | resumeRefused hstate => exact hstate
  | _ => exact hpaused

/-- A transport that is paused and has not run was paused all along. -/
theorem paused_throughout {seq : Sequencer τ} {ops : List (Operation τ)}
    (hhalted : ∀ first, first <+: ops → (seq.after first).state ≠ .running)
    (hpaused : (seq.after ops).state = .paused) :
    ∀ first, first <+: ops → (seq.after first).state = .paused := by
  induction ops generalizing seq with
  | nil =>
    intro first hfirst
    rw [List.prefix_nil.mp hfirst]
    exact hpaused
  | cons op rest ih =>
    have hrest := @ih (seq.apply op).sequencer
      (fun first hfirst => hhalted (op :: first) (List.cons_prefix_cons.mpr ⟨rfl, hfirst⟩)) hpaused
    intro first hfirst
    rcases List.prefix_cons_iff.mp hfirst with rfl | ⟨tail, rfl, htail⟩
    · exact paused_of_apply (hhalted [] List.nil_prefix) (hrest [] List.nil_prefix)
    · exact hrest tail htail

/-- A start or resume that is refused calls no backend, and changes no more than the sets and the
step.  Whatever is asked of the sequencer later, it shows what it would have shown without the
refused call, from the same states.  Its sets may be others until the transport runs; its step may
be another after a refused resume, as long as the transport stays paused. -/
theorem refused_call_leaves_no_trace (config : SequencerConfig τ) (before : List (Operation τ))
    {op : Operation τ} {refusal : Refusal}
    (h : (((new config).after before).apply op).result = .error refusal) :
    let seq := (new config).after before
    let refused := (seq.apply op).sequencer
    (∀ call, .sound call ∉ (seq.apply op).effects) ∧
      refused = seq.holding refused.patterns refused.staged refused.step ∧
      seq.loop = none ∧ seq.pending = [] ∧
      ∀ later,
        (refused.run later).map shown = (seq.run later).map shown ∧
        (refused.after later).state = (seq.after later).state ∧
        refused.after later = (seq.after later).holding (refused.after later).patterns
          (refused.after later).staged (refused.after later).step ∧
        ((∃ first, first <+: later ∧ (seq.after first).state = .running) →
          refused.after later = seq.after later) ∧
        ((refused.after later).step ≠ (seq.after later).step →
          (∃ now, op = .resume now) ∧
            ∀ first, first <+: later → (seq.after first).state = .paused) := by
  intro seq refused
  have halike : Alike seq refused := alike_of_refused h
  have hcoherent : seq.Coherent := coherent_after config before
  obtain ⟨hloop, hpending⟩ := hcoherent.of_not_running halike.halted
  refine ⟨sound_not_mem_of_refused h, halike.eq_holding, hloop, hpending, ?_⟩
  intro later
  obtain ⟨hshown, hend⟩ := halike.run later
  refine ⟨hshown, ?_⟩
  rcases hend with hsame | ⟨hlater, hhalted⟩
  · rw [hsame]
    exact ⟨rfl, rfl, fun _ => rfl, fun hne => absurd rfl hne⟩
  · refine ⟨hlater.state_eq, hlater.eq_holding, ?_, ?_⟩
    · rintro ⟨first, hfirst, hrun⟩
      exact absurd hrun (hhalted first hfirst)
    · intro hne
      -- a stopped transport is at step 0, with or without the refused call
      have hseq : (seq.after later).Coherent := by
        rw [← after_append]
        exact coherent_after config (before ++ later)
      have hrefused : (refused.after later).Coherent := by
        rw [← after_cons, ← after_append]
        exact coherent_after config (before ++ op :: later)
      have hpaused : (seq.after later).state = .paused := by
        cases hstate : (seq.after later).state with
        | running => exact absurd hstate hlater.halted
        | paused => rfl
        | stopped =>
          have hstop := hlater.state_eq.trans hstate
          exact absurd ((hrefused.of_stopped hstop).trans (hseq.of_stopped hstate).symm) hne
      have hall := paused_throughout hhalted hpaused
      refine ⟨?_, hall⟩
      rcases of_refused h with ⟨_, hstopped, _⟩ | ⟨hresume, _⟩
      · have hstate : seq.state = .paused := hall [] List.nil_prefix
        rw [hstopped] at hstate
        cases hstate
      · exact hresume

/-- A kick is paused, an empty set is staged, and the resume is refused. -/
def emptiedWhilePaused : List (Operation Rat) :=
  [.replacePatterns ⟨some (.ofWords ["kick", "snare"]), none, none⟩ 0, .start ⟨0, true, none⟩,
    .poll 0, .pause (1 / 16), .replacePatterns .empty (1 / 16)]

/-- The refused resume goes back to step 0, where the pause had kept step 1; a stop makes the two
steps the same. -/
theorem refused_call_leaves_no_trace_emptied :
    let seq := (new .standard).after emptiedWhilePaused
    (seq.apply (.resume (1 / 8))).result = .error .nothingToPlay ∧
      seq.step = 1 ∧ (seq.apply (.resume (1 / 8))).sequencer.step = 0 ∧
      ((seq.apply (.resume (1 / 8))).sequencer.after [.stop (1 / 4)]).step =
        (seq.after [.stop (1 / 4)]).step := by
  intro seq
  have hrefused : (seq.apply (.resume (1 / 8))).result = .error .nothingToPlay := by rfl
  refine ⟨hrefused, by decide +kernel, by decide +kernel, ?_⟩
  obtain ⟨_, _, _, _, hlater⟩ := refused_call_leaves_no_trace .standard emptiedWhilePaused hrefused
  obtain ⟨_, _, _, _, hstep⟩ := hlater [.stop (1 / 4)]
  by_contra hne
  have hstopped := (hstep hne).2 [.stop (1 / 4)] (List.prefix_refl _)
  cases hstopped

/-- A stop does not bring the sets together: a set that is staged stays staged, unless a refused
start has used it up. -/
theorem stop_keeps_staged_set :
    let seq := (new (.standard : SequencerConfig Rat)).apply (.replacePatterns .empty 0)
    let refused := seq.sequencer.apply (.start ⟨0, true, none⟩)
    refused.result = .error .nothingToPlay ∧
      (seq.sequencer.after [.stop 0]).staged = some .empty ∧
      (refused.sequencer.after [.stop 0]).staged = none := by
  exact ⟨rfl, rfl, rfl⟩

end Sequencer

end Groovebox
