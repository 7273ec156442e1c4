import Groovebox.Engine.Basic
import Groovebox.Proofs.Performance

/-!
# Restarts of the engine

A start opens a new stream, whose renderer has an empty queue and whose clock is at zero.  The notes
that the old stream had read are gone with it.  The channel is the same as before, though: what the
old stream had not read, and what was sent while there was no stream, is read by the new one, and
the frames of the old clock are taken for frames of the new clock (`kick_of_last_run_started`).

So a stream starts notes that are sent to it and notes that the channel held when it was opened
(`started_append_backlog`), and the former alone exactly if the channel held none
(`starts_clean_iff`).
-/

namespace Groovebox

/-- A device that opens whenever it is asked to. -/
structure OutputDevice.Opens (device : OutputDevice) : Prop where
  config : device.configError = none
  stream : device.streamError = none
  play : device.playError = none

/-- What happens to an engine. -/
inductive EngineCue (τ : Type) where
  /-- The backend is called. -/
  | call (call : BackendCall τ)
  /-- The device asks for a buffer. -/
  | pull (samples : Nat)
  | start
  | stop

variable {τ : Type} [TimeScale τ]

/-- A call puts its note, if it has one, behind those that wait, or takes some of these back. -/
theorem Renderer.backlog_perform (renderer : Renderer) (link : EngineLink)
    (call : BackendCall τ) :
    (renderer.backlog (link.perform call)).Subperm
      (renderer.backlog link ++ (link.state.noteFor? call).toList) := by
  by_cases hvolume : ∃ db, call = .volume db
  · obtain ⟨db, rfl⟩ := hvolume
    exact (List.append_nil (renderer.backlog link)).symm ▸ List.Subperm.refl _
  have hcall : ∀ db, call ≠ .volume db := not_exists.mp hvolume
  rw [EngineLink.perform.eq_2 link call hcall, EngineState.noteFor?]
  cases link.state.commandFor? call with
  | none => exact List.sublist_append_left _ _ |>.subperm
  | some command =>
    -- a command that is lost leaves the notes as they are
    have hsend : renderer.backlog { link with channel := link.channel.send command } =
        if link.channel.isOpen then obey (renderer.backlog link) command
        else renderer.backlog link := by
      rw [CommandChannel.send]
      split
      · exact List.foldl_append
      · rfl
    show (renderer.backlog { link with channel := link.channel.send command }).Subperm _
    rw [hsend]
    split
    · cases command with
      | schedule note => exact List.Subperm.refl _
      | cancelAfter frame =>
        exact (List.filter_sublist.trans (List.sublist_append_left _ _)).subperm
    · exact (List.sublist_append_left _ _).subperm

namespace AudioEngine

/-! ## Runs of an engine -/

/-- The engine after a cue. -/
def next (engine : AudioEngine) : EngineCue τ → AudioEngine
  | .call call => { engine with link := engine.link.perform call }
  | .pull samples => (engine.pull samples).1
  | .start => engine.start.1
  | .stop => engine.stop.1

/-- The engine after some cues. -/
def after (engine : AudioEngine) (cues : List (EngineCue τ)) : AudioEngine :=
  cues.foldl next engine

/-- The notes that are sent to an engine at a cue. -/
def sentBy (engine : AudioEngine) : EngineCue τ → List ScheduledNote
  | .call call => (engine.link.state.noteFor? call).toList
  | _ => []

/-- The notes that the stream of an engine starts at a cue. -/
def startedBy (engine : AudioEngine) : EngineCue τ → List ScheduledNote
  | .pull samples =>
    match engine.stream with
    | some stream =>
      if stream.stopped then []
      else stream.renderer.startedBy engine.link samples stream.sampleRate stream.channels
    | none => []
  | _ => []

/-- The notes that are written down at each of some cues. -/
def collect (record : AudioEngine → EngineCue τ → List ScheduledNote) (engine : AudioEngine) :
    List (EngineCue τ) → List ScheduledNote
  | [] => []
  | cue :: rest => record engine cue ++ (engine.next cue).collect record rest

/-- The notes that are sent to an engine at some cues. -/
def sent (engine : AudioEngine) (cues : List (EngineCue τ)) : List ScheduledNote :=
  engine.collect sentBy cues

/-- The notes that the streams of an engine start at some cues. -/
def started (engine : AudioEngine) (cues : List (EngineCue τ)) : List ScheduledNote :=
  engine.collect startedBy cues

/-- The notes that whoever reads the channel next finds there. -/
def leftover (engine : AudioEngine) : List ScheduledNote :=
  engine.link.channel.waiting.foldl Renderer.obey []

/-! ## Streams that play -/

/-- A stream plays for an engine that runs and has not stopped it. -/
structure PlaysOn (engine : AudioEngine) (stream : OutputStream) : Prop where
  running : engine.isRunning = true
  holds : engine.stream = some stream
  unstopped : ¬ stream.stopped = true

/-- The stream of an engine that is started on a device. -/
def firstStream (device : OutputDevice) : OutputStream :=
  ⟨.new device.sampleRate, device.sampleRate, device.channels, false⟩

/-- A start that is not refused opens a stream whose renderer has nothing to play, and sets the
clock to zero. -/
theorem start_of_opens {engine : AudioEngine} {device : OutputDevice}
    (hidle : engine.isRunning = false) (hdevice : engine.device = some device)
    (hopens : device.Opens) :
    engine.start =
      ({ (engine.rewind device.sampleRate).setRunning true with
          stream := some (firstStream device) },
        .ok ()) := by
  have hnot : ¬ engine.isRunning = true := by rw [hidle]; exact Bool.false_ne_true
  rw [start, if_neg hnot, hdevice]
  simp only [startOn, OutputDevice.info, hopens.config, openStream, hopens.stream, hopens.play]
  rfl

/-- A start is refused while the engine runs. -/
theorem start_of_isRunning {engine : AudioEngine} (h : engine.isRunning = true) :
    engine.start = (engine, .error .alreadyRunning) := by
  rw [start, if_pos h]

/-- The device stays, and so does what it does when it is asked to open. -/
theorem device_next {engine : AudioEngine} {device : OutputDevice}
    (hdevice : engine.device = some device) (hopens : device.Opens) (cue : EngineCue τ) :
    (engine.next cue).device = some device := by
  cases cue with
  | call call => exact hdevice
  | pull samples =>
    show (engine.pull samples).1.device = _
    rw [pull]
    split <;> exact hdevice
  | start =>
    show engine.start.1.device = _
    cases hrunning : engine.isRunning with
    | true => rw [start_of_isRunning hrunning, hdevice]
    | false =>
      rw [start_of_opens hrunning hdevice hopens]
      exact hdevice
  | stop =>
    show engine.stop.1.device = _
    rw [stop]
    split <;> exact hdevice

theorem device_after {engine : AudioEngine} {device : OutputDevice}
    (hdevice : engine.device = some device) (hopens : device.Opens) (cues : List (EngineCue τ)) :
    (engine.after cues).device = some device := by
  induction cues generalizing engine with
  | nil => exact hdevice
  | cons cue rest ih => exact ih (device_next hdevice hopens cue)

section Playing

variable {engine : AudioEngine} {stream : OutputStream}

omit [TimeScale τ] in
theorem startedBy_pull (h : engine.PlaysOn stream) (samples : Nat) :
    engine.startedBy (.pull samples : EngineCue τ) =
      stream.renderer.startedBy engine.link samples stream.sampleRate stream.channels := by
  show (match engine.stream with
    | some stream => _
    | none => []) = _
  rw [h.holds]
  exact if_neg h.unstopped

/-- A buffer that the stream of an engine fills. -/
theorem next_pull (h : engine.PlaysOn stream) (samples : Nat) :
    engine.next (.pull samples : EngineCue τ) =
      let (_, renderer, link) :=
        stream.renderer.render engine.link samples stream.sampleRate stream.channels
      { engine with stream := some { stream with renderer := renderer }, link := link } := by
  show (engine.pull samples).1 = _
  rw [pull, h.holds]
  simp only [OutputStream.fill]
  rw [if_neg h.unstopped]

/-- The notes that a stream has read or will read next, and has not started. -/
def backlog (engine : AudioEngine) (stream : OutputStream) : List ScheduledNote :=
  stream.renderer.backlog engine.link

/-- A stream goes on until it is stopped.  A cue has it start notes that waited or are sent, leaves
others, and takes back the rest. -/
theorem startedBy_append_backlog (h : engine.PlaysOn stream) {cue : EngineCue τ}
    (hcue : cue ≠ .stop) :
    ∃ stream', (engine.next cue).PlaysOn stream' ∧
      (engine.startedBy cue ++ (engine.next cue).backlog stream').Subperm
        (engine.backlog stream ++ engine.sentBy cue) := by
  cases cue with
  | call call =>
    exact ⟨stream, ⟨h.running, h.holds, h.unstopped⟩,
      stream.renderer.backlog_perform engine.link call⟩
  | pull samples =>
    have hperm := stream.renderer.startedBy_append_queue engine.link samples stream.sampleRate
      stream.channels
    have hchannel := (stream.renderer.render_link engine.link samples stream.sampleRate
      stream.channels).2.2
    rw [startedBy_pull h, next_pull h]
    refine ⟨_, ⟨h.running, rfl, h.unstopped⟩, ?_⟩
    show (_ ++ Renderer.backlog _ (stream.renderer.render engine.link samples stream.sampleRate
      stream.channels).2.2).Subperm (_ ++ [])
    rw [Renderer.backlog, hchannel, List.append_nil]
    exact hperm.subperm
  | start =>
    show ∃ stream', engine.start.1.PlaysOn stream' ∧
      (engine.start.1.backlog stream').Subperm (engine.backlog stream ++ [])
    rw [start_of_isRunning h.running, List.append_nil]
    exact ⟨stream, h, List.Subperm.refl _⟩
  | stop => exact absurd rfl hcue

/-- The notes that a stream starts before it is stopped, and those that wait for it then, are among
those that waited at first and those that were sent, each at most as often. -/
theorem started_append_backlog (h : engine.PlaysOn stream) {cues : List (EngineCue τ)}
    (hcues : .stop ∉ cues) :
    ∃ stream', (engine.after cues).PlaysOn stream' ∧
      (engine.started cues ++ (engine.after cues).backlog stream').Subperm
        (engine.backlog stream ++ engine.sent cues) := by
  induction cues generalizing engine stream with
  | nil =>
    refine ⟨stream, h, ?_⟩
    rw [started, sent, collect, collect, List.append_nil]
    exact List.Subperm.refl _
  | cons cue rest ih =>
    obtain ⟨hcue, hrest⟩ := not_or.mp (mt List.mem_cons.mpr hcues)
    obtain ⟨next, hnext, hfirst⟩ := startedBy_append_backlog h (Ne.symm hcue)
    obtain ⟨last, hlast, hlater⟩ := ih hnext hrest
    refine ⟨last, hlast, ?_⟩
    have hsent := (List.subperm_append_right ((engine.next cue).sent rest)).mpr hfirst
    have hstarted := (List.subperm_append_left (engine.startedBy cue)).mpr hlater
    rw [List.append_assoc, List.append_assoc] at hsent
    rw [started, sent, collect, collect, List.append_assoc]
    exact hstarted.trans hsent

omit [TimeScale τ] in
/-- A buffer starts every waiting note of its frames. -/
theorem mem_startedBy_pull (h : engine.PlaysOn stream) {samples : Nat} (hsamples : 0 < samples)
    {note : ScheduledNote} (hnote : note ∈ engine.backlog stream)
    (hframe : note.frame < engine.link.state.framesRendered + samples / max stream.channels 1) :
    note ∈ engine.startedBy (.pull samples : EngineCue τ) := by
  rw [startedBy_pull h]
  exact stream.renderer.mem_startedBy engine.link hsamples hnote hframe

omit [TimeScale τ] in
/-- Every waiting note is started by a buffer that is long enough. -/
theorem exists_pull_starts (h : engine.PlaysOn stream) {note : ScheduledNote}
    (hnote : note ∈ engine.backlog stream) :
    ∃ samples, note ∈ engine.startedBy (.pull samples : EngineCue τ) := by
  have hchannels : 0 < max stream.channels 1 := Renderer.channels_pos stream.channels
  have hsamples : 0 < (note.frame + 1) * max stream.channels 1 :=
    Nat.mul_pos note.frame.succ_pos hchannels
  refine ⟨_, mem_startedBy_pull h hsamples hnote ?_⟩
  rw [Nat.mul_div_cancel _ hchannels]
  omega

/-- A buffer leaves nothing in the channel. -/
theorem leftover_pull (h : engine.PlaysOn stream) (samples : Nat) :
    (engine.next (.pull samples : EngineCue τ)).leftover = [] := by
  have hchannel := (stream.renderer.render_link engine.link samples stream.sampleRate
    stream.channels).2.2
  rw [next_pull h]
  show List.foldl Renderer.obey [] (stream.renderer.render engine.link samples stream.sampleRate
    stream.channels).2.2.channel.waiting = []
  rw [hchannel]
  rfl

/-- A stop takes nothing out of the channel. -/
theorem leftover_stop (engine : AudioEngine) :
    (engine.next (.stop : EngineCue τ)).leftover = engine.leftover := by
  show engine.stop.1.leftover = _
  rw [stop]
  split <;> rfl

end Playing

/-! ## Restarts -/

/-- A stream that has just been opened has what the channel holds before it, and nothing else. -/
theorem backlog_firstStream (engine : AudioEngine) (device : OutputDevice) :
    engine.backlog (firstStream device) = engine.leftover := rfl

/-- A start of an engine that is not running gives it a new stream and sets its clock to zero.  Until
it is stopped, the stream starts no notes but those that are left over in the channel and those that
are sent to it.  It starts the latter alone, whatever happens, exactly if nothing is left over. -/
theorem starts_clean_iff {device : OutputDevice} (hopens : device.Opens) (noise : Noise)
    (before : List (EngineCue τ))
    (hidle : ((AudioEngine.new (some device) noise).after before).isRunning = false) :
    let engine := (AudioEngine.new (some device) noise).after before
    let opened := engine.next (.start : EngineCue τ)
    engine.start.2 = .ok () ∧
      opened.isRunning = true ∧
      opened.link.state.framesRendered = 0 ∧
      opened.link.state.sampleRate = device.sampleRate ∧
      (∀ cues : List (EngineCue τ), .stop ∉ cues →
        (opened.started cues).Subperm (engine.leftover ++ opened.sent cues)) ∧
      ((∀ cues : List (EngineCue τ), .stop ∉ cues →
          (opened.started cues).Subperm (opened.sent cues)) ↔ engine.leftover = []) := by
  intro engine opened
  have hdevice : engine.device = some device := device_after rfl hopens before
  have hstart := start_of_opens hidle hdevice hopens
  have hopened : opened = { (engine.rewind device.sampleRate).setRunning true with
      stream := some (firstStream device) } := congrArg Prod.fst hstart
  have hplays : opened.PlaysOn (firstStream device) := by
    rw [hopened]
    exact ⟨rfl, rfl, Bool.false_ne_true⟩
  have hleftover : opened.leftover = engine.leftover := by
    rw [hopened]
    rfl
  have hclock : opened.link.state.framesRendered = 0 := by
    rw [hopened]
    rfl
  have hall : ∀ cues : List (EngineCue τ), .stop ∉ cues →
      (opened.started cues).Subperm (engine.leftover ++ opened.sent cues) := by
    intro cues hcues
    obtain ⟨stream, _, hsub⟩ := started_append_backlog hplays hcues
    rw [backlog_firstStream, hleftover] at hsub
    exact (List.sublist_append_left _ _).subperm.trans hsub
  refine ⟨congrArg Prod.snd hstart, hplays.running, hclock, ?_, hall, ?_, ?_⟩
  · rw [hopened]
    rfl
  · -- a note that is left over is started by some buffer, before anything is sent
    intro hclean
    rw [List.eq_nil_iff_forall_not_mem]
    intro note hnote
    rw [← hleftover, ← backlog_firstStream opened device] at hnote
    obtain ⟨samples, hmem⟩ := exists_pull_starts (τ := τ) hplays hnote
    have hnone := hclean [.pull samples] (by simp)
    exact absurd (hnone.subset (List.mem_append_left _ hmem)) List.not_mem_nil
  · intro hempty cues hcues
    have hsub := hall cues hcues
    rwa [hempty] at hsub

/-- A device with two channels that opens. -/
def speakers : OutputDevice := ⟨some "Speakers", 44100, 2, none, none, none⟩

/-- A kick that is read before the stop is not heard after it. -/
theorem starts_clean_iff_kick_read :
    let engine := (AudioEngine.new (some speakers) ⟨0⟩).after
      [.start, .call (.hit "kick" (1 / 100 : Rat)), .pull 512, .stop]
    engine.isRunning = false ∧
      ∀ cues : List (EngineCue Rat), .stop ∉ cues →
        ((engine.next (.start : EngineCue Rat)).started cues).Subperm
          ((engine.next (.start : EngineCue Rat)).sent cues) := by
  intro engine
  let playing := (AudioEngine.new (some speakers) ⟨0⟩).after
    [.start, .call (.hit "kick" (1 / 100 : Rat))]
  have hplaying : playing.PlaysOn (firstStream speakers) := ⟨rfl, rfl, Bool.false_ne_true⟩
  have hidle : engine.isRunning = false := rfl
  have hleftover : engine.leftover = [] :=
    (leftover_stop (τ := Rat) _).trans (leftover_pull hplaying 512)
  have hclean := starts_clean_iff ⟨rfl, rfl, rfl⟩ ⟨0⟩ _ hidle
  exact ⟨hidle, hclean.2.2.2.2.2.mpr hleftover⟩

/-- A kick that is not read before the stop is heard after it, at its frame on the new clock, though
nothing has been sent since the start. -/
theorem kick_of_last_run_started :
    let engine := (AudioEngine.new (some speakers) ⟨0⟩).after
      [.start, .call (.hit "kick" (1 / 100 : Rat)), .stop]
    let opened := engine.next (.start : EngineCue Rat)
    engine.start.2 = .ok () ∧
      opened.link.state.framesRendered = 0 ∧
      opened.sent [(.pull 1024 : EngineCue Rat)] = [] ∧
      ∃ note ∈ opened.started [(.pull 1024 : EngineCue Rat)],
        note.frame = 441 ∧ note.track = .drums := by
  intro engine opened
  have hplays : opened.PlaysOn (firstStream speakers) := ⟨rfl, rfl, Bool.false_ne_true⟩
  obtain ⟨note, hnote, hkick⟩ := List.mem_map.mp
    (by decide +kernel : (441, Track.drums) ∈
      (opened.backlog (firstStream speakers)).map fun note => (note.frame, note.track))
  obtain ⟨hframe, htrack⟩ := Prod.mk.inj hkick
  refine ⟨rfl, rfl, rfl, note, ?_, hframe, htrack⟩
  refine List.mem_append_left _ (mem_startedBy_pull hplays (by decide) hnote ?_)
  rw [hframe]
  decide

end AudioEngine

end Groovebox
