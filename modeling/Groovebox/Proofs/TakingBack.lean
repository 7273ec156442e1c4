import Groovebox.Proofs.Frames
import Groovebox.Proofs.Timeliness

/-!
# What a pause takes back

A pause gives up the ticks that the sequencer has dispatched for later times, and has the renderer
drop the notes for later frames.  The two agree on the ticks whose frame is later than the pause's
own and has not been rendered yet: none of their notes is heard, unless it is sent again.  They
agree on the ticks that have been announced as well, none of whose notes is dropped.

Nothing holds the renderer back while the sequencer reads the clock and acts on it.  With an old
reading, a pause can give up a tick that has been heard, and drop the notes of one that has been
announced (`pause_misses_kick`).
-/

namespace Groovebox

namespace Rig

variable {τ : Type} [TimeScale τ]

/-! ## Taking back -/

/-- Nothing is sent while the transport is neither running nor started or resumed. -/
theorem sent_eq_nil {rig : Rig τ} (hstate : rig.sequencer.state ≠ .running) {cues : List (Cue τ)}
    (hstart : ∀ clock, .call (.start clock) ∉ cues)
    (hresume : ∀ now, .call (.resume now) ∉ cues) : rig.sent cues = [] := by
  induction cues generalizing rig with
  | nil => rfl
  | cons cue rest ih =>
    have hcue : rig.sentBy cue = [] ∧ (rig.next cue).sequencer.state ≠ .running := by
      cases cue with
      | fill samples sampleRate channels => exact ⟨rfl, hstate⟩
      | call op =>
        refine ⟨?_, Sequencer.state_ne_running_apply hstate ?_ ?_⟩
        · rw [sentBy, List.flatMap_eq_nil_iff]
          intro tick htick
          obtain ⟨_, _, _, hrun, _⟩ := Sequencer.exists_window_of_mem_dispatchedBy htick
          exact absurd hrun hstate
        · rintro clock rfl
          exact hstart clock List.mem_cons_self
        · rintro now rfl
          exact hresume now List.mem_cons_self
    rw [sent, collect, hcue.1, List.nil_append]
    exact ih hcue.2 (fun clock h => hstart clock (.tail _ h)) fun now h => hresume now (.tail _ h)

/-- A pause leaves the waiting notes of its own frame and of earlier ones. -/
theorem backlog_pause {rig : Rig τ} (hopen : rig.link.channel.isOpen = true) {first : List (Cue τ)}
    (hrun : (rig.after first).sequencer.state = .running) (now : τ) :
    (rig.after (first ++ [.call (.pause now)])).backlog =
      (rig.after first).backlog.filter (·.frame ≤ rig.link.state.frameAt now) := by
  have hcancels : (rig.after first).sequencer.cancels? (.pause now) = some now := if_pos hrun
  have hbacklog := backlog_call (link_after hopen first).1 (.pause now)
  rw [hcancels] at hbacklog
  rw [after_append, ← frameAt_after hopen first]
  exact hbacklog.trans (congrArg (List.filter _) (List.append_nil _))

/-- A note for a frame that is later than that of a halt, and that the clock has not passed, is not
started unless it is sent after the halt. -/
theorem started_filter_subperm {rig : Rig τ} (hopen : rig.link.channel.isOpen = true)
    (before after : List (Cue τ)) {op : Operation τ} {now : τ}
    (hop : (rig.after before).sequencer.cancels? op = some now) {frame : Nat}
    (hlater : (rig.after before).link.state.frameAt now < frame)
    (hclock : (rig.after before).clock ≤ frame) :
    ((rig.started (before ++ .call op :: after)).filter (·.frame = frame)).Subperm
      ((((rig.after before).next (.call op)).sent after).filter (·.frame = frame)) := by
  have hthere := (link_after hopen before).1
  have hstill := isOpen_next hthere (.call op)
  -- what was started before is before the clock
  have hbefore : (rig.started before).filter (·.frame = frame) = [] := by
    rw [List.filter_eq_nil_iff]
    intro note hnote
    have hlt := lt_clock_of_mem_started hopen hnote
    simp only [decide_eq_true_eq]
    omega
  -- what waited or was sent with the halt is taken back
  have htaken : (((rig.after before).next (.call op)).backlog).filter (·.frame = frame) = [] := by
    rw [backlog_call hthere, hop, List.filter_filter, List.filter_eq_nil_iff]
    intro note _
    simp only [Bool.and_eq_true, decide_eq_true_eq]
    omega
  have hall := (started_append_backlog hstill after).filter (·.frame = frame)
  rw [List.filter_append, List.filter_append, htaken, List.nil_append] at hall
  rw [started, collect_append, collect, List.filter_append, List.filter_append, ← started, hbefore,
    List.nil_append]
  exact (List.sublist_append_left _ _).subperm.trans hall

/-! ## Pauses -/

/-- The renderer of a rig that has not played yet will read the channel. -/
theorem isOpen_new (config : SequencerConfig τ) (noise : Noise) (rate : Nat) :
    (new config noise rate).link.channel.isOpen = true := rfl

/-- A pause gives up ticks whose notes it takes back.  Of the notes for a later frame than its own
that has not been rendered, none is started that is not sent after the pause, which takes a start or
a resume; every later frame is one when the pause goes by the clock as it stands.  The notes of the
pause's own frame and of earlier ones are left to be started, and all notes of the ticks that have
been announced are among them if no operation goes back in time. -/
theorem pause_takes_back (config : SequencerConfig Rat) (noise : Noise) (rate : Nat)
    (before after : List (Cue Rat)) (now : Rat)
    (hrun : ((new config noise rate).after before).sequencer.state = .running) :
    let rig : Rig Rat := new config noise rate
    let there := rig.after before
    let paused := there.next (.call (.pause now))
    let frame : Rat → Nat := there.link.state.frameAt
    (∀ tick ∈ there.sequencer.voidedBy (.pause now),
        frame now < frame tick.time → there.clock ≤ frame tick.time →
          (∀ note ∈ there.notesOf tick, note.frame = frame tick.time) ∧
            ((rig.started (before ++ .call (.pause now) :: after)).filter
              (·.frame = frame tick.time)).Subperm
                ((paused.sent after).filter (·.frame = frame tick.time))) ∧
      (∀ first rest, after = first ++ rest → (∀ clock, .call (.start clock) ∉ first) →
        (∀ time, .call (.resume time) ∉ first) →
          paused.sent after = (paused.after first).sent rest) ∧
      (0 < rate → now = there.link.state.now →
        ∀ time, frame now < frame time → there.clock ≤ frame time) ∧
      paused.backlog = there.backlog.filter (·.frame ≤ frame now) ∧
      (((Cue.operations before ++ [Operation.pause now]).filterMap Operation.time?).Pairwise
          (· ≤ ·) →
        ∀ tick ∈ rig.sequencer.announced (Cue.operations before ++ [.pause now]),
          ∀ note ∈ there.notesOf tick, note.frame ≤ frame now) := by
  intro rig there paused frame
  have hopen : rig.link.channel.isOpen = true := isOpen_new config noise rate
  obtain ⟨hthere, _, hrate⟩ := link_after hopen before
  have hcancels : there.sequencer.cancels? (.pause now) = some now := if_pos hrun
  refine ⟨?_, ?_, ?_, ?_, ?_⟩
  · intro tick _ hlater hclock
    refine ⟨?_, started_filter_subperm hopen before after hcancels hlater hclock⟩
    exact fun note hnote => EngineState.frame_of_mem_notesOf hnote
  · rintro first rest rfl hstart hresume
    have hstate : paused.sequencer.state ≠ .running := by
      show (there.sequencer.pause now).sequencer.state ≠ .running
      rw [Sequencer.pause, hrun]
      exact TransportState.noConfusion
    have hfirst : paused.sent first = [] := sent_eq_nil hstate hstart hresume
    rw [sent, collect_append, ← sent, hfirst, List.nil_append, sent]
  · rintro hpos rfl time hlater
    have hpos : 0 < there.link.state.sampleRate := hrate.symm ▸ hpos
    have hframe : frame there.link.state.now = min there.clock EngineState.lastFrame :=
      EngineState.frameAt_now hpos
    have hlast : frame time ≤ EngineState.lastFrame := Nat.min_le_right _ _
    omega
  · have hbacklog := backlog_pause hopen hrun now
    rwa [after_append, ← frameAt_after hopen before] at hbacklog
  · intro htimes tick htick note hnote
    rw [EngineState.frame_of_mem_notesOf hnote]
    refine EngineState.frameAt_mono ?_
    rw [Sequencer.announced, Sequencer.collect_append, List.mem_append] at htick
    rcases htick with htick | htick
    · exact Sequencer.le_of_mem_announced htimes htick List.mem_cons_self
    · rw [Sequencer.collect, Sequencer.collect, List.append_nil] at htick
      obtain ⟨time, htime, hle⟩ := Sequencer.le_of_mem_announcedBy htick
      cases htime
      exact hle

/-- Two kicks are started, and the first buffer has some frames. -/
def kicksBegun (frames : Nat) : List (Cue Rat) :=
  Sequencer.kicksStarted.map .call ++ [.call (.poll 0), .fill frames 44100 1]

/-- The second kick is sent a fifth of a second in. -/
def kicksPlayed : List (Cue Rat) :=
  kicksBegun 8820 ++ [.call (.poll (1 / 5))]

/-- The second kick, a quarter of a second in. -/
def secondKick : Tick Rat :=
  ⟨0, 1 / 4, 1, ⟨some (.ofWords ["kick", "kick"]), none, none⟩, 1 / 4⟩

/-- A pause at the time that the clock shows takes the second kick back. -/
theorem pause_takes_back_kick :
    let rig : Rig Rat := new .standard ⟨0⟩ 44100
    let there := rig.after kicksPlayed
    there.sequencer.state = .running ∧ there.clock = 8820 ∧
      secondKick ∈ there.sequencer.voidedBy (.pause (1 / 5)) ∧
      there.link.state.frameAt secondKick.time = 11025 ∧
      ∀ note ∈ rig.started (kicksPlayed ++ [.call (.pause (1 / 5)), .fill 8820 44100 1]),
        note.frame ≠ 11025 := by
  intro rig there
  have hopen : rig.link.channel.isOpen = true := rfl
  have hsequencer : there.sequencer = (Sequencer.new .standard).after
      (Cue.operations kicksPlayed) :=
    rig.sequencer_after kicksPlayed
  have hrun : there.sequencer.state = .running := by
    rw [hsequencer]
    decide +kernel
  have hvoided : secondKick ∈ there.sequencer.voidedBy (.pause (1 / 5)) := by
    rw [hsequencer]
    decide +kernel
  have hclock : there.clock = 8820 := by
    rw [(link_after hopen kicksPlayed).2.1]
    decide +kernel
  have hpause : there.link.state.frameAt (1 / 5 : Rat) = 8820 := by
    rw [frameAt_after hopen]
    decide +kernel
  have hkick : there.link.state.frameAt secondKick.time = 11025 := by
    rw [frameAt_after hopen]
    decide +kernel
  have hback := (pause_takes_back .standard ⟨0⟩ 44100 kicksPlayed [.fill 8820 44100 1] (1 / 5)
    hrun).1 secondKick hvoided
  change there.link.state.frameAt (1 / 5 : Rat) < there.link.state.frameAt secondKick.time →
    there.clock ≤ there.link.state.frameAt secondKick.time → _ at hback
  rw [hpause, hclock, hkick] at hback
  refine ⟨hrun, hclock, hvoided, hkick, ?_⟩
  -- nothing is sent after the pause
  have hnone := List.subperm_nil.mp (hback (by decide) (by decide)).2
  intro note hnote hframe
  exact List.filter_eq_nil_iff.mp hnone note hnote (decide_eq_true hframe)

/-! ## Old readings -/

/-- Each operation among some cues is given a time that the clock shows then or has shown before. -/
def ReadsClock (rig : Rig τ) (cues : List (Cue τ)) : Prop :=
  ∀ i < cues.length, ∀ now ∈ (cues[i]?).bind Cue.time?,
    ∃ j ≤ i, (rig.after (cues.take j)).link.state.now = now

theorem readsClock_new {config : SequencerConfig Rat} {noise : Noise} {rate : Nat}
    {cues : List (Cue Rat)}
    (h : ∀ i < cues.length, ∀ now ∈ (cues[i]?).bind Cue.time?,
      ∃ j ≤ i, (((cues.take j).map framesOf).sum : Rat) / rate = now) :
    (new config noise rate).ReadsClock cues := by
  intro i hi now hnow
  obtain ⟨j, hj, heq⟩ := h i hi now hnow
  refine ⟨j, hj, Eq.trans ?_ heq⟩
  obtain ⟨_, hclock, hrate⟩ := link_after (isOpen_new config noise rate) (cues.take j)
  show ((clock _ : Nat) : Rat) / ((EngineState.sampleRate _ : Nat) : Rat) = _
  rw [hclock, hrate]
  show ((0 + _ : Nat) : Rat) / (rate : Rat) = _
  rw [Nat.zero_add]

/-- The notes of a tick that is dispatched go to the backlog. -/
theorem mem_backlog_call {rig : Rig τ} (hopen : rig.link.channel.isOpen = true)
    {first : List (Cue τ)} {op : Operation τ}
    (hcancels : (rig.after first).sequencer.cancels? op = none) {tick : Tick τ}
    (htick : tick ∈ (rig.after first).sequencer.dispatchedBy op) {note : ScheduledNote}
    (hnote : note ∈ rig.notesOf tick) : note ∈ (rig.after (first ++ [.call op])).backlog := by
  rw [← notesOf_after hopen first] at hnote
  rw [after_append]
  show note ∈ ((rig.after first).next (.call op)).backlog
  rw [backlog_call (link_after hopen first).1, hcancels]
  exact List.mem_append_right _ (List.mem_flatMap.mpr ⟨tick, htick, hnote⟩)

/-- A buffer that reaches the frame of a waiting note starts it. -/
theorem mem_started_of_backlog {rig : Rig τ} (hopen : rig.link.channel.isOpen = true)
    {first : List (Cue τ)} {samples sampleRate channels : Nat} (hsamples : 0 < samples)
    {note : ScheduledNote} (hnote : note ∈ (rig.after first).backlog)
    (hframe : note.frame <
      rig.clock + (first.map framesOf).sum + framesOf (.fill samples sampleRate channels : Cue τ)) :
    note ∈ rig.started (first ++ [.fill samples sampleRate channels]) := by
  obtain ⟨hthere, hclock, _⟩ := link_after hopen first
  rw [started, collect_append]
  refine List.mem_append_right _ (List.mem_append_left _ ?_)
  refine mem_startedBy_fill hthere hsamples hnote ?_
  rw [(clock_next hthere _).1, hclock]
  exact hframe

/-- The next buffer has the second kick. -/
def kickStarted : List (Cue Rat) :=
  kicksPlayed ++ [.fill 4410 44100 1]

/-- The second kick is announced as soon as it is sent. -/
def kickAnnounced : List (Cue Rat) :=
  kicksBegun 11025 ++ [.call (.poll (1 / 4))]

/-- The tempo puts the second kick less than half a frame behind the frame that the clock shows. -/
def kickBetweenFrames : List (Cue Rat) :=
  .call (.setTempo 133) :: kicksBegun 9947 ++ [.call (.poll (9947 / 44100))]

/-- A pause that goes by an old reading of the clock gives up a kick that has been started already,
and goes back over it; or it drops a kick that has been announced.  A kick in the frame of the pause
itself, though given up, is started after the pause. -/
theorem pause_misses_kick :
    let rig : Rig Rat := new .standard ⟨0⟩ 44100
    (rig.ReadsClock (kickStarted ++ [.call (.pause (1 / 5))]) ∧
      secondKick ∈ (rig.after kickStarted).sequencer.voidedBy (.pause (1 / 5)) ∧
      (rig.after (kickStarted ++ [.call (.pause (1 / 5))])).sequencer.step = secondKick.step ∧
      ∃ note ∈ rig.notesOf secondKick, note ∈ rig.started kickStarted) ∧
    (rig.ReadsClock (kickAnnounced ++ [.call (.pause 0)]) ∧
      secondKick ∈ rig.sequencer.announced (Cue.operations kickAnnounced) ∧
      ∃ note ∈ rig.notesOf secondKick, note ∈ (rig.after kickAnnounced).backlog ∧
        note ∉ (rig.after (kickAnnounced ++ [.call (.pause 0)])).backlog) ∧
    (rig.ReadsClock (kickBetweenFrames ++ [.call (.pause (9947 / 44100))]) ∧
      ∃ tick ∈ (rig.after kickBetweenFrames).sequencer.voidedBy (.pause (9947 / 44100)),
        (rig.after (kickBetweenFrames ++ [.call (.pause (9947 / 44100))])).sequencer.step =
            tick.step ∧
          ∃ note ∈ rig.notesOf tick,
            note ∈ (rig.after (kickBetweenFrames ++ [.call (.pause (9947 / 44100))])).started
              [.fill 1024 44100 1]) := by
  intro rig
  have hopen : rig.link.channel.isOpen = true := rfl
  have hkick : ∃ note ∈ rig.notesOf secondKick, note.frame = 11025 :=
    List.mem_map.mp (by decide +kernel : 11025 ∈ (rig.notesOf secondKick).map (·.frame))
  refine ⟨?_, ?_, ?_⟩
  · obtain ⟨note, hnote, hframe⟩ := hkick
    have hwaits : note ∈ (rig.after kicksPlayed).backlog := by
      refine mem_backlog_call hopen rfl ?_ hnote
      rw [sequencer_after]
      decide +kernel
    refine ⟨readsClock_new (by decide +kernel), ?_, ?_, note, hnote, ?_⟩
    · rw [sequencer_after]
      decide +kernel
    · rw [sequencer_after]
      decide +kernel
    · refine mem_started_of_backlog hopen (by decide) hwaits ?_
      rw [hframe]
      decide +kernel
  · obtain ⟨note, hnote, hframe⟩ := hkick
    have hrun : (rig.after kickAnnounced).sequencer.state = .running := by
      rw [sequencer_after]
      decide +kernel
    have hwaits : note ∈ (rig.after kickAnnounced).backlog := by
      refine mem_backlog_call hopen rfl ?_ hnote
      rw [sequencer_after]
      decide +kernel
    refine ⟨readsClock_new (by decide +kernel), by decide +kernel, note, hnote, hwaits, ?_⟩
    rw [backlog_pause hopen hrun, List.mem_filter, hframe]
    exact fun hkept => absurd hkept.2 (by decide +kernel)
  · let tick : Tick Rat := { secondKick with time := 30 / 133, duration := 30 / 133 }
    obtain ⟨note, hnote, hframe⟩ : ∃ note ∈ rig.notesOf tick, note.frame = 9947 :=
      List.mem_map.mp (by decide +kernel : 9947 ∈ (rig.notesOf tick).map (·.frame))
    have hrun : (rig.after kickBetweenFrames).sequencer.state = .running := by
      rw [sequencer_after]
      decide +kernel
    have hwaits : note ∈ (rig.after kickBetweenFrames).backlog := by
      refine mem_backlog_call hopen rfl ?_ hnote
      rw [sequencer_after]
      decide +kernel
    refine ⟨readsClock_new (by decide +kernel), tick, ?_, ?_, note, hnote, ?_⟩
    · rw [sequencer_after]
      decide +kernel
    · rw [sequencer_after]
      decide +kernel
    · have hkept : note ∈
          (rig.after (kickBetweenFrames ++ [.call (.pause (9947 / 44100))])).backlog := by
        rw [backlog_pause hopen hrun, List.mem_filter, hframe]
        exact ⟨hwaits, by decide +kernel⟩
      obtain ⟨hstill, hclock, _⟩ :=
        link_after hopen (kickBetweenFrames ++ [.call (.pause (9947 / 44100))])
      rw [started, collect, collect, List.append_nil]
      refine mem_startedBy_fill hstill (by decide) hkept ?_
      rw [(clock_next hstill _).1, hclock, hframe]
      decide +kernel

end Rig

end Groovebox
