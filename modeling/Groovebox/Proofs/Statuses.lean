import Groovebox.Proofs.TickFates

/-!
# The status that is shown, and the gate before the first sound

Observers are told a status whenever the state of the transport changes, so that the last one they
were told is the state's own (`getLast?_statuses`).  A start that finds the clock inactive tells
them that it waits, and then how that ended.

A stopped transport is left by a start only, and only by one that finds something to play and an
active clock, or activates it (`grantsStart_of_leaves_stopped`).  So in every run there is such a
start before the first sound (`exists_grant_of_ne_stopped`).  How often a start activates its clock
is seen by a clock that counts.
-/

namespace Groovebox

/-- The status that observers are told, if the event tells one. -/
def DisplayEvent.status? : DisplayEvent → Option TransportStatus
  | .status shown => some shown
  | _ => none

/-- The status that observers are told, if the effect tells them one. -/
def Effect.status? {τ : Type} (effect : Effect τ) : Option TransportStatus :=
  effect.display?.bind DisplayEvent.status?

/-! ## A clock that counts its activations -/

/-- A clock and how often it has been asked to become active. -/
structure CountedClock (κ : Type) where
  clock : κ
  activations : Nat

namespace CountedClock

variable {κ τ : Type} [AudioClock κ τ]

/-- Asks the clock and counts that it was asked. -/
def activate (counted : CountedClock κ) : CountedClock κ × Except Refusal Unit :=
  (⟨(AudioClock.activate counted.clock).1, counted.activations + 1⟩,
    (AudioClock.activate counted.clock).2)

instance : AudioClock (CountedClock κ) τ where
  now counted := AudioClock.now counted.clock
  isActive counted := AudioClock.isActive counted.clock
  activate := activate

end CountedClock

/-- A clock that is set by hand never says that there is nothing to play. -/
theorem ManualClock.activate_ne_nothingToPlay {τ : Type} (clock : ManualClock τ) :
    (AudioClock.activate clock).2 ≠ .error .nothingToPlay := by
  show clock.activate.2 ≠ _
  rw [ManualClock.activate]
  split <;> simp

namespace Sequencer

variable {τ : Type}

/-! ## Statuses -/

/-- The statuses that an operation announces. -/
def statusesBy (seq : Sequencer τ) : Operation τ → List TransportStatus
  | .start clock =>
    if seq.state = .stopped then (startAnswer seq.takeStaged.patterns clock).2 else []
  | .pause _ => if seq.state = .running then [.paused] else []
  | .resume _ =>
    if seq.state = .paused ∧ seq.rewindToStaged.patterns.cycleLength ≠ 0 then [.playing] else []
  | .stop _ => [.stopped]
  | _ => []

theorem status?_announce (status : TransportStatus) :
    (@announce τ status).status? = some status := rfl

theorem filterMap_status?_announce (statuses : List TransportStatus) :
    (statuses.map (@announce τ)).filterMap Effect.status? = statuses := by
  rw [List.filterMap_map]
  exact List.filterMap_some

theorem filterMap_status?_announcement (ticks : List (Tick τ)) :
    (ticks.map Tick.announcement).filterMap Effect.status? = [] := by
  rw [List.filterMap_map, List.filterMap_eq_nil_iff]
  exact fun _ _ => rfl

/-- A start that is granted tells last that the transport plays, and one that is refused that it is
stopped. -/
theorem getLast?_startAnswer (patterns : PatternSet) (clock : ManualClock τ) :
    (startAnswer patterns clock).2.getLast? =
      match (startAnswer patterns clock).1 with
      | .ok () => some .playing
      | .error _ => some .stopped := by
  rw [startAnswer]
  split
  · rfl
  · split
    · rfl
    · split <;> rfl

/-- A start is granted if and only if there is something to play and the clock is or becomes
active. -/
theorem startAnswer_eq_ok_iff {patterns : PatternSet} {clock : ManualClock τ} :
    (startAnswer patterns clock).1 = .ok () ↔
      0 < patterns.cycleLength ∧ (clock.active = true ∨ clock.activate.2 = .ok ()) := by
  rw [startAnswer, Nat.pos_iff_ne_zero]
  by_cases hcycle : patterns.cycleLength = 0
  · simp [hcycle]
  · by_cases hactive : clock.active = true
    · simp [hcycle, hactive]
    · cases clock.activate.2 with
      | ok _ => simp [hcycle, hactive]
      | error _ => simp [hcycle, hactive]

theorem statusesBy_of_edit {seq : Sequencer τ} {op : Operation τ} {edit : PatternSet × τ}
    (h : op.edit? = some edit) : seq.statusesBy op = [] := by
  cases op with
  | replacePatterns | submitText => rfl
  | _ => cases h

/-- A start that tells that it waits tells next how that ended. -/
theorem statusesBy_of_waiting {seq : Sequencer τ} {op : Operation τ}
    (h : .waitingForAudio ∈ seq.statusesBy op) :
    (∃ clock, op = .start clock) ∧
      (seq.statusesBy op = [.waitingForAudio, .playing] ∨
        seq.statusesBy op = [.waitingForAudio, .stopped]) := by
  cases op with
  | start clock =>
    refine ⟨⟨clock, rfl⟩, ?_⟩
    rw [statusesBy] at h ⊢
    split at h
    · next hstate =>
      rw [if_pos hstate]
      simp only [startAnswer] at h ⊢
      split at h
      · simp at h
      · next hcycle =>
        rw [if_neg hcycle]
        split at h
        · simp at h
        · next hactive =>
          rw [if_neg hactive]
          cases clock.activate.2 with
          | ok _ => exact Or.inl rfl
          | error _ => exact Or.inr rfl
    · exact absurd h List.not_mem_nil
  | pause now =>
    rw [statusesBy] at h
    split at h <;> simp at h
  | resume now =>
    rw [statusesBy] at h
    split at h <;> simp at h
  | stop now => simp [statusesBy] at h
  | _ => exact absurd h List.not_mem_nil

variable [TimeScale τ]

/-- Nothing that a halt does before it is told has a status. -/
theorem filterMap_status?_voidPending (seq : Sequencer τ) (now : τ) :
    (seq.voidPending now).effects.filterMap Effect.status? = [] := by
  show ((seq.due now).map Tick.announcement ++ [Effect.sound (.cancelAfter now)]).filterMap
    Effect.status? = []
  rw [List.filterMap_append, filterMap_status?_announcement]
  rfl

/-- The statuses among the effects of an operation. -/
theorem statuses_apply (seq : Sequencer τ) (op : Operation τ) :
    (seq.apply op).effects.filterMap Effect.status? = seq.statusesBy op := by
  cases op with
  | replacePatterns patterns now =>
    simp only [apply, replacePatterns]
    split <;> rfl
  | submitText text now =>
    simp only [apply, submitText, replacePatterns]
    split <;> rfl
  | start clock =>
    rw [statusesBy]
    split
    · next hstate =>
      rw [apply_start_of_stopped hstate]
      exact filterMap_status?_announce _
    · next hstate =>
      rw [apply_start_of_not_stopped hstate]
      rfl
  | pause now =>
    simp only [apply, pause, statusesBy]
    split
    · next hrun =>
      rw [if_pos hrun, List.filterMap_append, filterMap_status?_voidPending]
      rfl
    · next hne =>
      rw [if_neg hne]
      rfl
  | resume now =>
    show (seq.resume now).effects.filterMap Effect.status? = _
    rw [statusesBy]
    by_cases hstate : seq.state = .paused
    · rw [resume_of_paused hstate]
      by_cases hcycle : seq.rewindToStaged.patterns.cycleLength = 0
      · simp [hcycle]
      · simp [hstate, hcycle, status?_announce]
    · rw [resume_of_not_paused hstate]
      simp [hstate]
  | stop now =>
    show ((seq.voidPending now).effects ++ [announce .stopped]).filterMap Effect.status? = _
    rw [List.filterMap_append, filterMap_status?_voidPending]
    rfl
  | poll now =>
    show ((seq.fillWindow now).2.flatMap (soundTick seq.config.wrapPolicy) ++
      ((seq.fillWindow now).1.due now).map Tick.announcement).filterMap Effect.status? = []
    have hsounds : ∀ tick : Tick τ,
        (soundTick seq.config.wrapPolicy tick).filterMap Effect.status? = [] := by
      intro tick
      rw [soundTick, List.filterMap_map, List.filterMap_eq_nil_iff]
      exact fun _ _ => rfl
    rw [List.filterMap_append, filterMap_status?_announcement, List.filterMap_flatMap]
    simp [hsounds]
  | _ => rfl

/-- The last status that an operation announces is that of the state after it; without one the state
is as before. -/
theorem getLast?_statusesBy (seq : Sequencer τ) (op : Operation τ) :
    (seq.statusesBy op).getLast?.getD seq.state.status =
      (seq.apply op).sequencer.state.status := by
  by_cases hstart : ∃ clock, op = .start clock
  · obtain ⟨clock, rfl⟩ := hstart
    rw [statusesBy]
    split
    · next hstate =>
      rw [getLast?_startAnswer, apply_start_of_stopped hstate]
      dsimp only
      cases (startAnswer seq.takeStaged.patterns clock).1 with
      | ok _ => rfl
      | error _ =>
        show TransportStatus.stopped = seq.state.status
        rw [hstate]
        rfl
    · next hstate =>
      rw [apply_start_of_not_stopped hstate]
      rfl
  · have htrans := transition_apply seq op
    generalize (seq.apply op).sequencer = after at htrans ⊢
    cases htrans with
    | startIgnored | startRefused | start => exact absurd ⟨_, rfl⟩ hstart
    | stage hedit | silence hedit | swap hedit =>
      rw [statusesBy_of_edit hedit]
      rfl
    | pauseIgnored hstate =>
      rw [statusesBy, if_neg hstate]
      rfl
    | pause hstate =>
      rw [statusesBy, if_pos hstate]
      rfl
    | resumeIgnored hstate =>
      rw [statusesBy, if_neg fun hresumed => hstate hresumed.1]
      rfl
    | resumeRefused hstate hcycle =>
      rw [statusesBy, if_neg fun hresumed => hresumed.2 hcycle, rewindToStaged]
      split <;> rfl
    | resume hstate hcycle =>
      rw [statusesBy, if_pos ⟨hstate, Nat.ne_of_gt hcycle⟩]
      rfl
    | _ => rfl

/-- The last status that a run announces is that of the state after it. -/
theorem getLast?_statuses (seq : Sequencer τ) (ops : List (Operation τ)) :
    ((seq.effects ops).filterMap Effect.status?).getLast?.getD seq.state.status =
      (seq.after ops).state.status := by
  rw [effects_eq_collect]
  induction ops generalizing seq with
  | nil => rfl
  | cons op rest ih =>
    rw [collect, List.filterMap_append, List.getLast?_append, statuses_apply, after_cons, ← ih,
      ← getLast?_statusesBy]
    cases ((seq.apply op).sequencer.collect _ rest |>.filterMap Effect.status?).getLast? <;> rfl

/-- An observer that has subscribed is told every status. -/
theorem statuses_told {observer : Nat} {seq : Sequencer τ} (h : observer < seq.observers)
    (ops : List (Operation τ)) :
    (seq.told observer ops).filterMap DisplayEvent.status? =
      (seq.effects ops).filterMap Effect.status? := by
  rw [told_eq_effects h, List.filterMap_filterMap]
  rfl

/-! ## The gate -/

/-- A start that is granted: the clock is active, or it is activated, and the set that is active
after it has steps. -/
def GrantsStart (seq : Sequencer τ) (op : Operation τ) : Prop :=
  ∃ clock, op = .start clock ∧ (seq.apply op).result = .ok () ∧
    (clock.active = true ∨ clock.activate.2 = .ok ()) ∧
    0 < (seq.apply op).sequencer.patterns.cycleLength

/-- A stopped transport is left by a start that is granted. -/
theorem grantsStart_of_leaves_stopped {seq : Sequencer τ} (hstate : seq.state = .stopped)
    {op : Operation τ} (h : (seq.apply op).sequencer.state ≠ .stopped) : seq.GrantsStart op := by
  by_cases hstart : ∃ clock, op = .start clock
  · obtain ⟨clock, rfl⟩ := hstart
    rw [GrantsStart]
    rw [apply_start_of_stopped hstate] at h ⊢
    dsimp only at h ⊢
    cases hanswer : (startAnswer seq.takeStaged.patterns clock).1 with
    | ok _ =>
      obtain ⟨hcycle, hgate⟩ := startAnswer_eq_ok_iff.mp hanswer
      exact ⟨clock, rfl, rfl, hgate, hcycle⟩
    | error _ =>
      rw [hanswer] at h
      exact absurd hstate h
  · have htrans := transition_apply seq op
    generalize (seq.apply op).sequencer = after at htrans h
    cases htrans with
    | startIgnored | startRefused | start => exact absurd ⟨_, rfl⟩ hstart
    | silence _ hrun | swap _ hrun | pause hrun | poll hrun =>
      rw [hstate] at hrun
      cases hrun
    | resumeRefused hpaused | resume hpaused =>
      rw [hstate] at hpaused
      cases hpaused
    | stop => exact absurd rfl h
    | _ => exact absurd hstate h

/-- A run that is not stopped has come through a start that was granted. -/
theorem exists_grant_of_ne_stopped {seq : Sequencer τ} (hstate : seq.state = .stopped)
    {ops : List (Operation τ)} (h : (seq.after ops).state ≠ .stopped) :
    ∃ before op rest, ops = before ++ op :: rest ∧ (seq.after before).state = .stopped ∧
      (seq.after before).GrantsStart op := by
  induction ops generalizing seq with
  | nil => exact absurd hstate h
  | cons op rest ih =>
    by_cases hnext : (seq.apply op).sequencer.state = .stopped
    · obtain ⟨before, op', rest', heq, hbefore, hgrant⟩ := ih hnext h
      exact ⟨op :: before, op', rest', by rw [heq, List.cons_append], hbefore, hgrant⟩
    · exact ⟨[], op, rest, rfl, hstate, grantsStart_of_leaves_stopped hstate hnext⟩

/-- Only a running transport makes a sound. -/
theorem running_of_sound {seq : Sequencer τ} {op : Operation τ} {call : BackendCall τ}
    (h : .sound call ∈ (seq.apply op).effects) (hsound : call.soundTime?.isSome = true) :
    seq.state = .running := by
  obtain ⟨time, htime⟩ := Option.isSome_iff_exists.mp hsound
  have hcall : (Effect.sound call).sound? = some call := by
    rw [Effect.sound?, htime]
    rfl
  obtain ⟨others, heq, hothers⟩ := effects_apply seq op
  rw [heq, List.mem_append, List.mem_append] at h
  rcases h with (h | h) | h
  · obtain ⟨tick, htick, _⟩ := List.mem_flatMap.mp h
    obtain ⟨_, _, _, hrun, _⟩ := exists_window_of_mem_dispatchedBy htick
    exact hrun
  · obtain ⟨_, _, hevent⟩ := List.mem_map.mp h
    cases hevent
  · rw [(hothers _ h).1] at hcall
    cases hcall

/-! ## Activations -/

section Clocks

variable {κ : Type} [AudioClock κ τ]

/-- What a start of a stopped transport does by any clock. -/
theorem start_of_stopped {seq : Sequencer τ} (h : seq.state = .stopped) (clock : κ) :
    seq.start clock =
      if seq.takeStaged.patterns.cycleLength = 0 then
        ⟨(clock, .error .nothingToPlay), seq.takeStaged, [announce .stopped]⟩
      else if AudioClock.isActive clock then
        ⟨(clock, .ok ()),
          { seq.takeStaged with step := 0, state := .running }.installLoop (AudioClock.now clock),
          [announce .playing]⟩
      else match AudioClock.activate clock with
        | (clock, .error refusal) =>
          ⟨(clock, .error refusal), seq.takeStaged,
            [announce .waitingForAudio, announce .stopped]⟩
        | (clock, .ok ()) =>
          ⟨(clock, .ok ()),
            { seq.takeStaged with step := 0, state := .running }.installLoop
              (AudioClock.now clock),
            [announce .waitingForAudio, announce .playing]⟩ := by
  rw [start, if_neg (not_not_intro h)]
  rfl

/-- A start by any clock leaves a stopped transport only if the clock is active, or is activated,
and there is something to play. -/
theorem start_of_leaves_stopped {seq : Sequencer τ} (hstate : seq.state = .stopped) {clock : κ}
    (h : (seq.start clock).sequencer.state ≠ .stopped) :
    (seq.start clock).result.2 = .ok () ∧
      (AudioClock.isActive clock = true ∨ (AudioClock.activate clock).2 = .ok ()) ∧
      0 < (seq.start clock).sequencer.patterns.cycleLength := by
  rw [start_of_stopped hstate] at h ⊢
  split at h
  · exact absurd hstate h
  · next hcycle =>
    have hpos : 0 < seq.takeStaged.patterns.cycleLength := Nat.pos_of_ne_zero hcycle
    rw [if_neg hcycle]
    split at h
    · next hactive =>
      rw [if_pos hactive]
      exact ⟨rfl, Or.inl hactive, hpos⟩
    · next hactive =>
      rw [if_neg hactive]
      split at h
      · exact absurd hstate h
      · next hactivate =>
        rw [hactivate]
        exact ⟨rfl, Or.inr rfl, hpos⟩

/-- A start asks its clock to become active if and only if the transport is stopped, there is
something to play and the clock is not active yet. -/
theorem activations_start (seq : Sequencer τ) (clock : κ) :
    (seq.start (⟨clock, 0⟩ : CountedClock κ)).result.1.activations =
      if seq.state = .stopped ∧ 0 < seq.takeStaged.patterns.cycleLength ∧
        AudioClock.isActive clock = false then 1 else 0 := by
  by_cases hstate : seq.state = .stopped
  · rw [start_of_stopped hstate]
    by_cases hcycle : seq.takeStaged.patterns.cycleLength = 0
    · simp [hcycle]
    · have hpos : 0 < seq.takeStaged.patterns.cycleLength := Nat.pos_of_ne_zero hcycle
      have hactive : AudioClock.isActive (⟨clock, 0⟩ : CountedClock κ) =
          AudioClock.isActive clock := rfl
      have hactivate : AudioClock.activate (⟨clock, 0⟩ : CountedClock κ) =
          (⟨(AudioClock.activate clock).1, 1⟩, (AudioClock.activate clock).2) := rfl
      rw [if_neg hcycle, hactive, hactivate]
      cases AudioClock.isActive clock with
      | true => simp
      | false =>
        simp only [hstate, hpos, and_self, if_true]
        cases (AudioClock.activate clock).2 <;> rfl
  · rw [start, if_pos hstate, if_neg fun hasked => hstate hasked.1]

/-- A start that is refused for want of steps does not ask its clock, unless the clock itself would
answer so. -/
theorem activations_of_nothingToPlay {seq : Sequencer τ} {clock : κ}
    (hclock : (AudioClock.activate clock).2 ≠ .error .nothingToPlay)
    (h : (seq.start (⟨clock, 0⟩ : CountedClock κ)).result.2 = .error .nothingToPlay) :
    (seq.start (⟨clock, 0⟩ : CountedClock κ)).result.1.activations = 0 := by
  rw [activations_start]
  refine if_neg ?_
  rintro ⟨hstate, hpos, hinactive⟩
  -- once the clock is asked, the answer is its own
  have hactive : AudioClock.isActive (⟨clock, 0⟩ : CountedClock κ) = false := hinactive
  have hactivate : AudioClock.activate (⟨clock, 0⟩ : CountedClock κ) =
      (⟨(AudioClock.activate clock).1, 1⟩, (AudioClock.activate clock).2) := rfl
  rw [start_of_stopped hstate, if_neg (Nat.ne_of_gt hpos), hactive, hactivate] at h
  cases hanswer : (AudioClock.activate clock).2 with
  | ok _ =>
    rw [hanswer] at h
    cases h
  | error refusal =>
    rw [hanswer] at h hclock
    exact hclock h

end Clocks

/-! ## Runs -/

/-- After every operation the last status that an observer from the outset was told is the one of
the state, and where it was told to wait for audio, the same start told it how that ended.  The
transport leaves the stopped state in granted starts only, before every sound there was one, and a
start asks its clock to become active only if there is something to play. -/
theorem status_shown_and_gate_kept (config : SequencerConfig τ) (observers : Nat)
    (ops : List (Operation τ)) :
    let seq := (new config).after (List.replicate observers .subscribe)
    (∀ observer < observers,
      ((seq.told observer ops).filterMap DisplayEvent.status?).getLast?.getD .stopped =
        (seq.after ops).state.status) ∧
    (∀ op, .waitingForAudio ∈ ((seq.after ops).apply op).effects.filterMap Effect.status? →
      (∃ clock, op = .start clock) ∧
        (((seq.after ops).apply op).effects.filterMap Effect.status? =
            [.waitingForAudio, .playing] ∨
          ((seq.after ops).apply op).effects.filterMap Effect.status? =
            [.waitingForAudio, .stopped])) ∧
    (∀ op, (seq.after ops).state = .stopped →
      ((seq.after ops).apply op).sequencer.state ≠ .stopped → (seq.after ops).GrantsStart op) ∧
    (∀ op call, .sound call ∈ ((seq.after ops).apply op).effects →
      call.soundTime?.isSome = true →
        ∃ before start rest, ops = before ++ start :: rest ∧
          (seq.after before).state = .stopped ∧ (seq.after before).GrantsStart start) ∧
    (∀ {κ : Type} [AudioClock κ τ] (clock : κ),
      ((seq.after ops).state = .stopped →
        ((seq.after ops).start clock).sequencer.state ≠ .stopped →
          ((seq.after ops).start clock).result.2 = .ok () ∧
            (AudioClock.isActive clock = true ∨ (AudioClock.activate clock).2 = .ok ()) ∧
            0 < ((seq.after ops).start clock).sequencer.patterns.cycleLength) ∧
      (((seq.after ops).start (⟨clock, 0⟩ : CountedClock κ)).result.1.activations =
        if (seq.after ops).state = .stopped ∧
          0 < (seq.after ops).takeStaged.patterns.cycleLength ∧
          AudioClock.isActive clock = false then 1 else 0) ∧
      ((AudioClock.activate clock).2 ≠ .error .nothingToPlay →
        ((seq.after ops).start (⟨clock, 0⟩ : CountedClock κ)).result.2 = .error .nothingToPlay →
          ((seq.after ops).start (⟨clock, 0⟩ : CountedClock κ)).result.1.activations = 0)) ∧
    ∀ clock : ManualClock τ,
      ((seq.after ops).start (⟨clock, 0⟩ : CountedClock (ManualClock τ))).result.2 =
          .error .nothingToPlay →
        ((seq.after ops).start (⟨clock, 0⟩ : CountedClock (ManualClock τ))).result.1.activations =
          0 := by
  intro seq
  have hseq : seq = { new config with observers := observers } := after_subscribe config observers
  have hstopped : seq.state = .stopped := by rw [hseq]; rfl
  refine ⟨?_, ?_, ?_, ?_, ?_, ?_⟩
  · intro observer hobserver
    have hsubscribed : observer < seq.observers := by rw [hseq]; exact hobserver
    rw [statuses_told hsubscribed, ← getLast?_statuses, hstopped]
    rfl
  · intro op hwaiting
    rw [statuses_apply] at hwaiting ⊢
    exact statusesBy_of_waiting hwaiting
  · exact fun op hstate hleaves => grantsStart_of_leaves_stopped hstate hleaves
  · intro op call hcall hsound
    refine exists_grant_of_ne_stopped hstopped ?_
    rw [running_of_sound hcall hsound]
    exact TransportState.noConfusion
  · intro κ _ clock
    exact ⟨fun hstate hleaves => start_of_leaves_stopped hstate hleaves,
      activations_start _ clock, activations_of_nothingToPlay⟩
  · exact fun clock => activations_of_nothingToPlay clock.activate_ne_nothingToPlay

end Sequencer

end Groovebox
