import Groovebox.Proofs.NoteQueue
import Groovebox.Proofs.Runs
import Mathlib.Data.List.Perm.Subperm

/-!
# Sequencer and renderer

A sequencer plays through an engine link while a renderer fills buffers from it.  The two meet in
the link's channel and clock only, and a `Rig` puts them together: its cues are the sequencer's
operations and the renderer's buffers, in any order.

The sequencer goes by seconds and the renderer by frames.  What the sequencer sends waits in the
channel and then in the renderer's queue, the `backlog`; a buffer starts some of these notes, a
pause takes others back, and there are no more than were sent (`started_append_backlog`).
-/

namespace Groovebox

variable {τ : Type}

/-! ## What an operation sends -/

/-- The backend call that an effect makes, if it makes one. -/
def Effect.call? : Effect τ → Option (BackendCall τ)
  | .sound call => some call
  | .display _ => none

namespace Tick

theorem calls_soundTick (policy : WrapPolicy) (tick : Tick τ) :
    (Sequencer.soundTick policy tick).filterMap Effect.call? = tick.calls policy := by
  rw [Sequencer.soundTick, List.filterMap_map]
  exact List.filterMap_some

/-- The calls of a tick sound tokens at the tick's time. -/
theorem exists_of_mem_calls {policy : WrapPolicy} {tick : Tick τ} {call : BackendCall τ}
    (h : call ∈ tick.calls policy) :
    ∃ (track : Track) (token : String), call = track.soundCall token tick.duration tick.time := by
  rw [calls, PatternSet.dispatch, List.mem_filterMap] at h
  obtain ⟨⟨track, pattern⟩, _, hpattern⟩ := h
  obtain ⟨token, _, heq⟩ := Option.bind_eq_some_iff.mp hpattern
  cases heq
  exact ⟨track, token, rfl⟩

end Tick

variable [TimeScale τ]

namespace Sequencer

/-- The time after which an operation takes back what has been scheduled, if it does. -/
def cancels? (seq : Sequencer τ) : Operation τ → Option τ
  | .pause now => if seq.state = .running then some now else none
  | .stop now => some now
  | _ => none

/-- Only a start and a resume make the transport run. -/
theorem state_ne_running_apply {seq : Sequencer τ} (h : seq.state ≠ .running) {op : Operation τ}
    (hstart : ∀ clock, op ≠ .start clock) (hresume : ∀ now, op ≠ .resume now) :
    (seq.apply op).sequencer.state ≠ .running := by
  have htrans := transition_apply seq op
  generalize (seq.apply op).sequencer = after at htrans ⊢
  cases htrans with
  | silence _ hrun | swap _ hrun | pause hrun | poll hrun => exact absurd hrun h
  | startIgnored | startRefused | start => exact absurd rfl (hstart _)
  | resumeIgnored | resumeRefused | resume => exact absurd rfl (hresume _)
  | stop => exact TransportState.noConfusion
  | _ => exact h

/-- An operation calls the backend for the ticks that it dispatches, and to take back. -/
theorem calls_apply (seq : Sequencer τ) (op : Operation τ) :
    (seq.apply op).effects.filterMap Effect.call? =
      (seq.dispatchedBy op).flatMap (·.calls seq.config.wrapPolicy) ++
        (seq.cancels? op).toList.map .cancelAfter := by
  have hstatuses : ∀ statuses : List TransportStatus,
      (statuses.map (@announce τ)).filterMap Effect.call? = [] := by
    intro statuses
    rw [List.filterMap_map, List.filterMap_eq_nil_iff]
    exact fun _ _ => rfl
  have hevents : ∀ ticks : List (Tick τ),
      (ticks.map Tick.announcement).filterMap Effect.call? = [] := by
    intro ticks
    rw [List.filterMap_map, List.filterMap_eq_nil_iff]
    exact fun _ _ => rfl
  cases op with
  | subscribe => rfl
  | replacePatterns patterns now =>
    show (seq.replacePatterns patterns now).effects.filterMap Effect.call? = []
    rw [replacePatterns]
    split <;> rfl
  | submitText text now =>
    show (seq.replacePatterns _ now).effects.filterMap Effect.call? = []
    rw [replacePatterns]
    split <;> rfl
  | start clock =>
    obtain ⟨statuses, heq⟩ := effects_start seq clock
    show (seq.start clock).effects.filterMap Effect.call? = []
    rw [heq, hstatuses]
  | pause now =>
    show (seq.pause now).effects.filterMap Effect.call? =
      ((if seq.state = .running then some now else none).toList.map _)
    rw [pause]
    split
    · next hrun =>
      rw [if_pos hrun]
      show ((seq.due now).map Tick.announcement ++ [Effect.sound (.cancelAfter now)] ++
        [announce .paused]).filterMap Effect.call? = _
      rw [List.filterMap_append, List.filterMap_append, hevents]
      rfl
    · next hne =>
      rw [if_neg hne]
      rfl
  | resume now =>
    obtain ⟨statuses, heq⟩ := effects_resume seq now
    show (seq.resume now).effects.filterMap Effect.call? = []
    rw [heq, hstatuses]
  | stop now =>
    show ((seq.due now).map Tick.announcement ++ [Effect.sound (.cancelAfter now)] ++
      [announce .stopped]).filterMap Effect.call? = _
    rw [List.filterMap_append, List.filterMap_append, hevents]
    rfl
  | setTempo bpm => rfl
  | poll now =>
    show ((seq.fillWindow now).2.flatMap (soundTick seq.config.wrapPolicy) ++
      ((seq.fillWindow now).1.due now).map Tick.announcement).filterMap Effect.call? =
        (seq.fillWindow now).2.flatMap (·.calls seq.config.wrapPolicy) ++ []
    rw [List.filterMap_append, hevents, List.filterMap_flatMap]
    simp only [Tick.calls_soundTick]

end Sequencer

/-! ## Calls and commands -/

namespace EngineState

/-- The note that a backend call schedules, if it schedules one. -/
def noteFor? (state : EngineState) (call : BackendCall τ) : Option ScheduledNote :=
  match state.commandFor? call with
  | some (.schedule note) => some note
  | _ => none

/-- The notes that are scheduled for a tick. -/
def notesOf (state : EngineState) (policy : WrapPolicy) (tick : Tick τ) : List ScheduledNote :=
  (tick.calls policy).filterMap state.noteFor?

/-- A token that is sounded schedules a note for the frame of its time, or nothing. -/
theorem commandFor?_soundCall (state : EngineState) (track : Track) (token : String)
    (duration time : τ) :
    state.commandFor? (track.soundCall token duration time) =
        (state.noteFor? (track.soundCall token duration time)).map .schedule ∧
      ∀ note, state.noteFor? (track.soundCall token duration time) = some note →
        note.frame = state.frameAt time := by
  rw [noteFor?, Track.soundCall]
  split
  · rw [commandFor?]
    cases DrumHit.ofName? token with
    | none => exact ⟨rfl, fun _ h => by cases h⟩
    | some drum => exact ⟨rfl, fun _ h => by cases h; rfl⟩
  · rw [commandFor?]
    cases Pitch.ofString? token with
    | none => exact ⟨rfl, fun _ h => by cases h⟩
    | some pitch => exact ⟨rfl, fun _ h => by cases h; rfl⟩

theorem framesIn_congr {a b : EngineState} (h : a.sampleRate = b.sampleRate) (span : τ) :
    a.framesIn span = b.framesIn span := by
  rw [framesIn, framesIn, h]

/-- The notes of a tick depend on the sample rate alone. -/
theorem notesOf_congr {a b : EngineState} (h : a.sampleRate = b.sampleRate) (policy : WrapPolicy)
    (tick : Tick τ) : a.notesOf policy tick = b.notesOf policy tick := by
  have hframes : ∀ span : τ, a.framesIn span = b.framesIn span := framesIn_congr h
  have hcommand : ∀ call : BackendCall τ, a.commandFor? call = b.commandFor? call := by
    intro call
    cases call <;> simp only [commandFor?, frameAt, noteFrames, hframes]
  refine List.filterMap_congr fun call _ => ?_
  rw [noteFor?, noteFor?, hcommand]

/-- The notes of a tick are for the frame of its time. -/
theorem frame_of_mem_notesOf {state : EngineState} {policy : WrapPolicy} {tick : Tick τ}
    {note : ScheduledNote} (h : note ∈ state.notesOf policy tick) :
    note.frame = state.frameAt tick.time := by
  obtain ⟨call, hcall, hnote⟩ := List.mem_filterMap.mp h
  obtain ⟨track, token, rfl⟩ := Tick.exists_of_mem_calls hcall
  exact (state.commandFor?_soundCall track token _ _).2 note hnote

/-- The commands for a tick schedule its notes. -/
theorem commands_of_tick (state : EngineState) (policy : WrapPolicy) (tick : Tick τ) :
    (tick.calls policy).filterMap state.commandFor? =
      (state.notesOf policy tick).map .schedule := by
  rw [notesOf, List.map_filterMap]
  refine List.filterMap_congr fun call hcall => ?_
  obtain ⟨track, token, rfl⟩ := Tick.exists_of_mem_calls hcall
  exact (state.commandFor?_soundCall track token _ _).1

end EngineState

namespace EngineLink

/-- What an effect does to the link. -/
def follow (link : EngineLink) : Effect τ → EngineLink
  | .sound call => link.perform call
  | .display _ => link

theorem foldl_follow (link : EngineLink) (effects : List (Effect τ)) :
    effects.foldl follow link = (effects.filterMap Effect.call?).foldl perform link := by
  induction effects generalizing link with
  | nil => rfl
  | cons effect rest ih =>
    cases effect with
    | sound call => exact ih (link.perform call)
    | display event => exact ih link

/-- The link after commands are sent, if anyone will read them. -/
def sendAll (link : EngineLink) (commands : List EngineCommand) : EngineLink :=
  { link with channel := { link.channel with waiting := link.channel.waiting ++ commands } }

theorem sendAll_sendAll (link : EngineLink) (a b : List EngineCommand) :
    (link.sendAll a).sendAll b = link.sendAll (a ++ b) := by
  rw [sendAll, sendAll, sendAll, List.append_assoc]

/-- A call that leaves the level alone sends its command. -/
theorem perform_eq_sendAll {link : EngineLink} (hopen : link.channel.isOpen = true)
    {call : BackendCall τ} (hcall : ∀ db, call ≠ .volume db) :
    link.perform call = link.sendAll (link.state.commandFor? call).toList := by
  rw [perform.eq_2 link call hcall]
  cases link.state.commandFor? call with
  | none =>
    show link = link.sendAll []
    rw [sendAll, List.append_nil]
  | some command =>
    show { link with channel := link.channel.send command } = link.sendAll [command]
    rw [CommandChannel.send, if_pos hopen, sendAll]

/-- Calls that leave the level alone send their commands. -/
theorem foldl_perform {link : EngineLink} (hopen : link.channel.isOpen = true)
    {calls : List (BackendCall τ)} (hcalls : ∀ call ∈ calls, ∀ db, call ≠ .volume db) :
    calls.foldl perform link = link.sendAll (calls.filterMap link.state.commandFor?) := by
  induction calls generalizing link with
  | nil =>
    rw [List.foldl_nil, List.filterMap_nil, sendAll, List.append_nil]
  | cons call rest ih =>
    have hstill : (link.sendAll (link.state.commandFor? call).toList).channel.isOpen = true := hopen
    rw [List.foldl_cons, perform_eq_sendAll hopen (hcalls call List.mem_cons_self),
      ih hstill fun call' hcall' => hcalls call' (.tail _ hcall'), sendAll_sendAll,
      List.filterMap_cons]
    show link.sendAll (_ ++ rest.filterMap link.state.commandFor?) = _
    cases link.state.commandFor? call <;> rfl

end EngineLink

/-! ## A rig -/

/-- A sequencer, the link that it plays through, and the renderer on the other side of the link. -/
structure Rig (τ : Type) where
  sequencer : Sequencer τ
  link : EngineLink
  renderer : Renderer

/-- What happens to a rig. -/
inductive Cue (τ : Type) where
  /-- The sequencer is called. -/
  | call (op : Operation τ)
  /-- The renderer fills a buffer. -/
  | fill (samples sampleRate channels : Nat)

/-- The operations among some cues. -/
def Cue.operations (cues : List (Cue τ)) : List (Operation τ) :=
  cues.filterMap fun cue => match cue with
    | call op => some op
    | fill _ _ _ => none

/-- The time that a cue is given, if it is given one. -/
def Cue.time? : Cue τ → Option τ
  | call op => op.time?
  | fill _ _ _ => none

namespace Rig

/-- A rig that has not played yet. -/
def new (config : SequencerConfig τ) (noise : Noise) (sampleRate : Nat) : Rig τ where
  sequencer := .new config
  link := { EngineLink.fresh noise with
    state := { EngineState.fresh with sampleRate := sampleRate } }
  renderer := .new sampleRate

/-- The rig after a cue. -/
def next (rig : Rig τ) : Cue τ → Rig τ
  | .call op =>
    let outcome := rig.sequencer.apply op
    { rig with
      sequencer := outcome.sequencer
      link := outcome.effects.foldl EngineLink.follow rig.link }
  | .fill samples sampleRate channels =>
    let (_, renderer, link) := rig.renderer.render rig.link samples sampleRate channels
    { rig with renderer := renderer, link := link }

/-- The rig after some cues. -/
def after (rig : Rig τ) (cues : List (Cue τ)) : Rig τ :=
  cues.foldl next rig

/-- The notes that the sequencer has sent and the renderer has not started. -/
def backlog (rig : Rig τ) : List ScheduledNote :=
  rig.renderer.backlog rig.link

/-- The notes of a tick. -/
def notesOf (rig : Rig τ) (tick : Tick τ) : List ScheduledNote :=
  rig.link.state.notesOf rig.sequencer.config.wrapPolicy tick

/-- The notes of the ticks that the sequencer dispatches at a cue. -/
def sentBy (rig : Rig τ) : Cue τ → List ScheduledNote
  | .call op => (rig.sequencer.dispatchedBy op).flatMap rig.notesOf
  | .fill _ _ _ => []

/-- The notes that the renderer starts at a cue. -/
def startedBy (rig : Rig τ) : Cue τ → List ScheduledNote
  | .call _ => []
  | .fill samples sampleRate channels =>
    rig.renderer.startedBy rig.link samples sampleRate channels

/-- The notes that are written down at each of some cues. -/
def collect (record : Rig τ → Cue τ → List ScheduledNote) (rig : Rig τ) :
    List (Cue τ) → List ScheduledNote
  | [] => []
  | cue :: rest => record rig cue ++ (rig.next cue).collect record rest

/-- The notes that are sent at some cues. -/
def sent (rig : Rig τ) (cues : List (Cue τ)) : List ScheduledNote :=
  rig.collect sentBy cues

/-- The notes that are started at some cues. -/
def started (rig : Rig τ) (cues : List (Cue τ)) : List ScheduledNote :=
  rig.collect startedBy cues

theorem after_append (rig : Rig τ) (a b : List (Cue τ)) :
    rig.after (a ++ b) = (rig.after a).after b := by
  rw [after, List.foldl_append]
  rfl

theorem collect_append (record : Rig τ → Cue τ → List ScheduledNote) (rig : Rig τ)
    (a b : List (Cue τ)) :
    rig.collect record (a ++ b) = rig.collect record a ++ (rig.after a).collect record b := by
  induction a generalizing rig with
  | nil => rfl
  | cons cue rest ih =>
    rw [List.cons_append, collect, collect, ih, List.append_assoc]
    rfl

/-- The sequencer goes through the operations among the cues. -/
theorem sequencer_after (rig : Rig τ) (cues : List (Cue τ)) :
    (rig.after cues).sequencer = rig.sequencer.after (Cue.operations cues) := by
  induction cues generalizing rig with
  | nil => rfl
  | cons cue rest ih =>
    cases cue with
    | call op => exact ih (rig.next (.call op))
    | fill samples sampleRate channels => exact ih (rig.next (.fill samples sampleRate channels))

/-! ## Conservation -/

/-- A call sends the notes of the ticks that it dispatches, and then takes back. -/
theorem link_call {rig : Rig τ} (hopen : rig.link.channel.isOpen = true) (op : Operation τ) :
    (rig.next (.call op)).link = rig.link.sendAll ((rig.sentBy (.call op)).map .schedule ++
      (rig.sequencer.cancels? op).toList.map fun time =>
        .cancelAfter (rig.link.state.frameAt time)) := by
  show (rig.sequencer.apply op).effects.foldl EngineLink.follow rig.link = _
  rw [EngineLink.foldl_follow, Sequencer.calls_apply, EngineLink.foldl_perform hopen,
    List.filterMap_append, List.filterMap_flatMap, List.filterMap_map]
  · congr 2
    · rw [sentBy, List.map_flatMap]
      exact List.flatMap_congr fun tick _ => rig.link.state.commands_of_tick _ tick
    · exact congrFun List.filterMap_eq_map (rig.sequencer.cancels? op).toList
  · -- no call is about the level
    intro call hcall db
    rcases List.mem_append.mp hcall with hcall | hcall
    · obtain ⟨tick, _, htick⟩ := List.mem_flatMap.mp hcall
      obtain ⟨track, token, rfl⟩ := Tick.exists_of_mem_calls htick
      rw [Track.soundCall]
      split <;> exact fun hvolume => by cases hvolume
    · obtain ⟨time, _, rfl⟩ := List.mem_map.mp hcall
      exact fun hvolume => by cases hvolume

/-- Someone reads the channel throughout. -/
theorem isOpen_next {rig : Rig τ} (hopen : rig.link.channel.isOpen = true) (cue : Cue τ) :
    (rig.next cue).link.channel.isOpen = true := by
  cases cue with
  | call op =>
    rw [link_call hopen]
    exact hopen
  | fill samples sampleRate channels =>
    have hchannel := (rig.renderer.render_link rig.link samples sampleRate channels).2.2
    show (rig.renderer.render rig.link samples sampleRate channels).2.2.channel.isOpen = true
    rw [hchannel]
    exact hopen

/-- The backlog after a call: the notes sent are behind those that waited, and if the call takes
back, the notes later than its frame are gone. -/
theorem backlog_call {rig : Rig τ} (hopen : rig.link.channel.isOpen = true) (op : Operation τ) :
    (rig.next (.call op)).backlog = match rig.sequencer.cancels? op with
      | none => rig.backlog ++ rig.sentBy (.call op)
      | some time => (rig.backlog ++ rig.sentBy (.call op)).filter
          (·.frame ≤ rig.link.state.frameAt time) := by
  have hschedule : ∀ (notes queue : List ScheduledNote),
      (notes.map EngineCommand.schedule).foldl Renderer.obey queue = queue ++ notes := by
    intro notes
    induction notes with
    | nil => exact fun queue => (List.append_nil queue).symm
    | cons note rest ih =>
      intro queue
      rw [List.map_cons, List.foldl_cons, ih, Renderer.obey, List.append_assoc]
      rfl
  rw [backlog, link_call hopen, Renderer.backlog, EngineLink.sendAll]
  show List.foldl Renderer.obey rig.renderer.queue (rig.link.channel.waiting ++ _) = _
  rw [List.foldl_append, List.foldl_append, hschedule]
  cases rig.sequencer.cancels? op <;> rfl

/-- A cue starts notes that waited or are sent, leaves others, and takes back the rest. -/
theorem startedBy_append_backlog {rig : Rig τ} (hopen : rig.link.channel.isOpen = true)
    (cue : Cue τ) :
    (rig.startedBy cue ++ (rig.next cue).backlog).Subperm (rig.backlog ++ rig.sentBy cue) := by
  cases cue with
  | call op =>
    rw [startedBy, List.nil_append, backlog_call hopen]
    split
    · exact List.Subperm.refl _
    · exact List.filter_sublist.subperm
  | fill samples sampleRate channels =>
    have hperm := rig.renderer.startedBy_append_queue rig.link samples sampleRate channels
    have hchannel := (rig.renderer.render_link rig.link samples sampleRate channels).2.2
    have hbacklog : (rig.next (.fill samples sampleRate channels)).backlog =
        (rig.renderer.render rig.link samples sampleRate channels).2.1.queue := by
      show Renderer.backlog _ (rig.renderer.render rig.link samples sampleRate channels).2.2 = _
      rw [Renderer.backlog, hchannel]
      rfl
    rw [hbacklog, sentBy, List.append_nil]
    exact hperm.subperm

/-- The notes that are started and those that wait in the end are among those that waited at first
and those that were sent, each at most as often. -/
theorem started_append_backlog {rig : Rig τ} (hopen : rig.link.channel.isOpen = true)
    (cues : List (Cue τ)) :
    (rig.started cues ++ (rig.after cues).backlog).Subperm (rig.backlog ++ rig.sent cues) := by
  induction cues generalizing rig with
  | nil =>
    rw [started, sent, collect, collect, List.append_nil]
    exact List.Subperm.refl _
  | cons cue rest ih =>
    have hfirst := startedBy_append_backlog hopen cue
    have hrest := ih (isOpen_next hopen cue)
    have hsent := (List.subperm_append_right ((rig.next cue).sent rest)).mpr hfirst
    have hstarted := (List.subperm_append_left (rig.startedBy cue)).mpr hrest
    rw [List.append_assoc, List.append_assoc] at hsent
    rw [started, sent, collect, collect, List.append_assoc]
    exact hstarted.trans hsent

/-! ## The clock -/

/-- The audio clock, in frames. -/
def clock (rig : Rig τ) : Nat :=
  rig.link.state.framesRendered

/-- The frames by which a cue moves the clock. -/
def framesOf : Cue τ → Nat
  | .call _ => 0
  | .fill samples _ channels => samples / max channels 1

/-- A cue moves the clock by its frames and leaves the sample rate. -/
theorem clock_next {rig : Rig τ} (hopen : rig.link.channel.isOpen = true) (cue : Cue τ) :
    (rig.next cue).clock = rig.clock + framesOf cue ∧
      (rig.next cue).link.state.sampleRate = rig.link.state.sampleRate := by
  cases cue with
  | call op =>
    rw [clock, link_call hopen]
    exact ⟨rfl, rfl⟩
  | fill samples sampleRate channels =>
    have hlink := rig.renderer.render_link rig.link samples sampleRate channels
    exact ⟨hlink.1, hlink.2.1⟩

/-- What is started is before the frame that the clock comes to. -/
theorem lt_clock_of_mem_startedBy {rig : Rig τ} (hopen : rig.link.channel.isOpen = true)
    {cue : Cue τ} {note : ScheduledNote} (h : note ∈ rig.startedBy cue) :
    note.frame < (rig.next cue).clock := by
  rw [(clock_next hopen cue).1]
  cases cue with
  | call op => exact absurd h List.not_mem_nil
  | fill samples sampleRate channels => exact rig.renderer.lt_of_mem_startedBy rig.link h

/-- What holds of the channel, the clock and the sample rate after some cues. -/
theorem link_after {rig : Rig τ} (hopen : rig.link.channel.isOpen = true) (cues : List (Cue τ)) :
    (rig.after cues).link.channel.isOpen = true ∧
      (rig.after cues).clock = rig.clock + (cues.map framesOf).sum ∧
      (rig.after cues).link.state.sampleRate = rig.link.state.sampleRate := by
  induction cues generalizing rig with
  | nil => exact ⟨hopen, rfl, rfl⟩
  | cons cue rest ih =>
    obtain ⟨hclock, hrate⟩ := clock_next hopen cue
    obtain ⟨hstill, hclock', hrate'⟩ := ih (isOpen_next hopen cue)
    refine ⟨hstill, hclock'.trans ?_, hrate'.trans hrate⟩
    rw [hclock, List.map_cons, List.sum_cons, Nat.add_assoc]

/-- What has been started is before the clock. -/
theorem lt_clock_of_mem_started {rig : Rig τ} (hopen : rig.link.channel.isOpen = true)
    {cues : List (Cue τ)} {note : ScheduledNote} (h : note ∈ rig.started cues) :
    note.frame < (rig.after cues).clock := by
  induction cues generalizing rig with
  | nil => exact absurd h List.not_mem_nil
  | cons cue rest ih =>
    have hstill := isOpen_next hopen cue
    rw [started, collect, List.mem_append] at h
    rcases h with h | h
    · have hlater := (link_after hstill rest).2.1
      have hlt := lt_clock_of_mem_startedBy hopen h
      show note.frame < ((rig.next cue).after rest).clock
      omega
    · exact ih hstill h

/-- Frames and notes do not change, as the sample rate does not. -/
theorem frameAt_after {rig : Rig τ} (hopen : rig.link.channel.isOpen = true) (cues : List (Cue τ))
    (time : τ) : (rig.after cues).link.state.frameAt time = rig.link.state.frameAt time := by
  rw [EngineState.frameAt, EngineState.frameAt,
    EngineState.framesIn_congr (link_after hopen cues).2.2]

theorem notesOf_after {rig : Rig τ} (hopen : rig.link.channel.isOpen = true) (cues : List (Cue τ))
    (tick : Tick τ) : (rig.after cues).notesOf tick = rig.notesOf tick := by
  rw [notesOf, notesOf, sequencer_after, Sequencer.config_after,
    EngineState.notesOf_congr (link_after hopen cues).2.2]

/-- A buffer starts every waiting note of its frames. -/
theorem mem_startedBy_fill {rig : Rig τ} (hopen : rig.link.channel.isOpen = true)
    {samples sampleRate channels : Nat} (hsamples : 0 < samples) {note : ScheduledNote}
    (hnote : note ∈ rig.backlog)
    (hframe : note.frame < (rig.next (.fill samples sampleRate channels)).clock) :
    note ∈ rig.startedBy (.fill samples sampleRate channels) := by
  rw [(clock_next hopen _).1] at hframe
  exact rig.renderer.mem_startedBy rig.link hsamples hnote hframe

end Rig

end Groovebox
