import Groovebox.Proofs.NoteQueue

/-!
# A renderer, step by step

What a renderer goes through while it fills its buffers is a list of steps: it follows a sample
rate, reads a command, or renders a block.  A `Deck` is a renderer with the link that it reads from.
Whatever is sent to it and whatever buffers are asked of it, its renderer, its noise and its clock
come out as its steps make them (`playing_after`); so what is to be shown of all runs is shown of
one step and then, by induction, of a list of steps.

A block first hands each note that is due to the instrument of its track, and then has the
instruments render: `load_eq` says which calls each instrument is given.
-/

namespace Groovebox

/-! ## Queues of an instrument -/

namespace Queued

variable {α β : Type}

/-- Counts the offset from a later frame; what is late is at the frame itself. -/
def sooner (frames : Nat) (queued : Queued α) : Queued α :=
  { queued with offset := queued.offset - frames }

/-- What is left of a queue when each of its items is changed or left out. -/
def select (item? : α → Option β) (queue : List (Queued α)) : List (Queued β) :=
  queue.filterMap fun queued => (item? queued.item).map (⟨·, queued.offset⟩)

theorem select_cons (item? : α → Option β) (queued : Queued α) (queue : List (Queued α)) :
    select item? (queued :: queue) =
      ((item? queued.item).map (⟨·, queued.offset⟩)).toList ++ select item? queue := by
  rw [select, List.filterMap_cons, select]
  cases item? queued.item <;> rfl

theorem select_append (item? : α → Option β) (a b : List (Queued α)) :
    select item? (a ++ b) = select item? a ++ select item? b :=
  List.filterMap_append ..

theorem select_map_sooner (item? : α → Option β) (frames : Nat) (queue : List (Queued α)) :
    select item? (queue.map (sooner frames)) = (select item? queue).map (sooner frames) := by
  rw [select, select, List.filterMap_map, List.map_filterMap]
  refine List.filterMap_congr fun queued _ => ?_
  rw [Function.comp_apply, sooner, Option.map_map]
  rfl

theorem exists_of_mem_select {item? : α → Option β} {queue : List (Queued α)} {queued : Queued β}
    (h : queued ∈ select item? queue) : ∃ call ∈ queue, call.offset = queued.offset := by
  obtain ⟨call, hcall, hitem⟩ := List.mem_filterMap.mp h
  obtain ⟨item, _, rfl⟩ := Option.map_eq_some_iff.mp hitem
  exact ⟨call, hcall, rfl⟩

end Queued

/-- Notes that are queued one after another wait behind those that waited, if they are hits. -/
theorem DrumKit.foldl_queue (kit : DrumKit) (calls : List (Queued Note)) :
    calls.foldl (fun kit call => kit.queue call.item call.offset) kit =
      { kit with waiting := kit.waiting ++ Queued.select Note.hit? calls } := by
  induction calls generalizing kit with
  | nil => simp [Queued.select]
  | cons call rest ih =>
    rw [List.foldl_cons, ih, queue, Queued.select_cons]
    cases call.item.hit? <;> simp

/-- Notes that are queued one after another wait behind those that waited, if they are tones. -/
theorem MonoSynth.foldl_queue (synth : MonoSynth) (calls : List (Queued Note)) :
    calls.foldl (fun synth call => synth.queue call.item call.offset) synth =
      { synth with waiting := synth.waiting ++ Queued.select Note.tone? calls } := by
  induction calls generalizing synth with
  | nil => simp [Queued.select]
  | cons call rest ih =>
    rw [List.foldl_cons, ih, queue, Queued.select_cons]
    cases call.item.tone? <;> simp

namespace Renderer

/-! ## Handing notes over -/

/-- The notes of a track, each at its frame. -/
def onTrack (track : Track) (notes : List ScheduledNote) : List (Queued Note) :=
  (notes.filter (·.track = track)).map fun note => ⟨note.note, note.frame⟩

/-- The calls that hand the notes of a track over at a frame: the note, and how far its own frame is
ahead. -/
def callsOn (track : Track) (clock : Nat) (notes : List ScheduledNote) : List (Queued Note) :=
  (onTrack track notes).map (Queued.sooner clock)

/-- The renderer when each instrument has been given the calls for its track. -/
def receive (renderer : Renderer) (calls : Track → List (Queued Note)) : Renderer :=
  { renderer with
    drums := (calls .drums).foldl (fun kit call => kit.queue call.item call.offset) renderer.drums
    bass := (calls .bass).foldl (fun synth call => synth.queue call.item call.offset) renderer.bass
    synth := (calls .synth).foldl (fun synth call => synth.queue call.item call.offset)
      renderer.synth }

/-- The renderer at the beginning of a block, when the notes that are due are handed over. -/
def load (renderer : Renderer) (clock frames : Nat) : Renderer :=
  (takeDue (clock + frames) renderer.queue).1.foldl (·.handOver clock ·)
    { renderer with queue := (takeDue (clock + frames) renderer.queue).2 }

theorem callsOn_cons (track : Track) (clock : Nat) (note : ScheduledNote)
    (notes : List ScheduledNote) :
    callsOn track clock (note :: notes) =
      if note.track = track then ⟨note.note, note.frame - clock⟩ :: callsOn track clock notes
      else callsOn track clock notes := by
  rw [callsOn, onTrack, List.filter_cons]
  by_cases h : note.track = track
  · simp [h, callsOn, onTrack, Queued.sooner]
  · simp [h, callsOn, onTrack]

/-- Each instrument is handed the notes of its own track. -/
theorem foldl_handOver (clock : Nat) (notes : List ScheduledNote) (renderer : Renderer) :
    notes.foldl (·.handOver clock ·) renderer = renderer.receive (callsOn · clock notes) := by
  induction notes generalizing renderer with
  | nil => rfl
  | cons note rest ih =>
    rw [List.foldl_cons, ih, receive, receive, callsOn_cons, callsOn_cons, callsOn_cons, handOver]
    cases htrack : note.track <;> rfl

/-- A block takes the notes that are due out of the queue and hands each to the instrument of its
track. -/
theorem load_eq (renderer : Renderer) (clock frames : Nat) :
    renderer.load clock frames =
      { renderer with queue := (takeDue (clock + frames) renderer.queue).2 }.receive
        (callsOn · clock (takeDue (clock + frames) renderer.queue).1) :=
  foldl_handOver ..

end Renderer

/-! ## Steps -/

/-- One thing that a renderer does. -/
inductive RenderStep where
  /-- It follows a sample rate. -/
  | rate (sampleRate : Nat)
  | read (command : EngineCommand)
  | block (frames : Nat)

/-- The command that a step reads, if it reads one. -/
def RenderStep.command? : RenderStep → Option EngineCommand
  | read command => some command
  | rate _ | block _ => none

/-- A block is not empty, and no longer than an instrument renders at once. -/
def RenderStep.Fits : RenderStep → Prop
  | block frames => 0 < frames ∧ frames ≤ maxBlock
  | rate _ | read _ => True

/-- What the steps of a renderer change: the renderer, the noise that its instruments draw from, and
the frames rendered so far. -/
structure RenderState where
  renderer : Renderer
  noise : Noise
  clock : Nat

namespace RenderState

/-- The state after a step. -/
def step (state : RenderState) : RenderStep → RenderState
  | .rate sampleRate => { state with renderer := state.renderer.setRate sampleRate }
  | .read command =>
    { state with
      renderer := { state.renderer with queue := Renderer.obey state.renderer.queue command } }
  | .block frames =>
    let (renderer, noise) := (state.renderer.load state.clock frames).mixBlock state.noise frames
    ⟨renderer, noise, state.clock + frames⟩

/-- The state after some steps. -/
def run (state : RenderState) (steps : List RenderStep) : RenderState :=
  steps.foldl step state

theorem run_append (state : RenderState) (a b : List RenderStep) :
    state.run (a ++ b) = (state.run a).run b :=
  List.foldl_append ..

/-- What every step that fits keeps is kept by a run of them. -/
theorem run_induction {P : RenderState → Prop}
    (hstep : ∀ state step, step.Fits → P state → P (state.step step)) {steps : List RenderStep}
    (hfits : ∀ step ∈ steps, step.Fits) {state : RenderState} (h : P state) :
    P (state.run steps) := by
  induction steps generalizing state with
  | nil => exact h
  | cons step rest ih =>
    obtain ⟨hfirst, hrest⟩ := List.forall_mem_cons.mp hfits
    exact ih hrest (hstep state step hfirst h)

/-- The queue after a step: a block leaves the notes that are not due. -/
theorem queue_step (state : RenderState) (step : RenderStep) :
    (state.step step).renderer.queue = match step with
      | .rate _ => state.renderer.queue
      | .read command => Renderer.obey state.renderer.queue command
      | .block frames => (Renderer.takeDue (state.clock + frames) state.renderer.queue).2 := by
  cases step with
  | rate sampleRate => exact state.renderer.queue_setRate sampleRate
  | read command => rfl
  | block frames =>
    show (state.renderer.load state.clock frames).queue = _
    rw [Renderer.load_eq, Renderer.receive]

/-- Commands that are read one after another. -/
theorem run_read (state : RenderState) (commands : List EngineCommand) :
    state.run (commands.map .read) =
      { state with
        renderer := { state.renderer with
          queue := commands.foldl Renderer.obey state.renderer.queue } } := by
  induction commands generalizing state with
  | nil => rfl
  | cons command rest ih => exact ih (state.step (.read command))

end RenderState

/-! ## Decks -/

/-- A renderer with the link that it reads from. -/
structure Deck where
  renderer : Renderer
  link : EngineLink

/-- What is asked of a deck. -/
inductive DeckCue where
  /-- A command is sent through the link. -/
  | send (command : EngineCommand)
  /-- A buffer of whole frames is to be filled. -/
  | fill (frames sampleRate channels : Nat)

/-- The command that is sent at a cue, if one is. -/
def DeckCue.sent? : DeckCue → Option EngineCommand
  | send command => some command
  | fill _ _ _ => none

namespace Deck

/-- A deck that has played nothing, at 44.1 kHz. -/
def new : Deck := ⟨.new 44100, .fresh ⟨0⟩⟩

/-- The samples of a buffer of whole frames. -/
def samples (frames channels : Nat) : Nat :=
  frames * max channels 1

/-- The deck after a cue. -/
def next (deck : Deck) : DeckCue → Deck
  | .send command =>
    { deck with link := { deck.link with channel := deck.link.channel.send command } }
  | .fill frames sampleRate channels =>
    let (_, renderer, link) :=
      deck.renderer.render deck.link (samples frames channels) sampleRate channels
    ⟨renderer, link⟩

/-- The deck after some cues. -/
def after (deck : Deck) (cues : List DeckCue) : Deck :=
  cues.foldl next deck

/-- The part of a deck that the renderer's steps change. -/
def playing (deck : Deck) : RenderState :=
  ⟨deck.renderer, deck.link.noise, deck.link.state.framesRendered⟩

/-- The steps of the renderer at a cue.  A buffer is rendered in blocks, the commands that wait are
read before. -/
def stepsAt (deck : Deck) : DeckCue → List RenderStep
  | .send _ => []
  | .fill frames sampleRate _ =>
    .rate sampleRate :: deck.link.channel.waiting.map .read ++
      (Renderer.pieces maxBlock frames).map .block

/-- The steps of the renderer at some cues. -/
def steps (deck : Deck) : List DeckCue → List RenderStep
  | [] => []
  | cue :: rest => deck.stepsAt cue ++ (deck.next cue).steps rest

/-! ## Blocks of a buffer -/

theorem mem_pieces {limit total size : Nat} (hlimit : 0 < limit)
    (h : size ∈ Renderer.pieces limit total) : 0 < size ∧ size ≤ limit := by
  rw [Renderer.pieces, List.mem_append] at h
  rcases h with h | h
  · obtain ⟨_, rfl⟩ := List.mem_replicate.mp h
    exact ⟨hlimit, Nat.le_refl _⟩
  · split at h
    · exact absurd h List.not_mem_nil
    · next hrest =>
      rw [List.mem_singleton.mp h]
      exact ⟨Nat.pos_of_ne_zero hrest, Nat.le_of_lt (Nat.mod_lt _ hlimit)⟩

theorem fits_of_mem_stepsAt {deck : Deck} {cue : DeckCue} {step : RenderStep}
    (h : step ∈ deck.stepsAt cue) : step.Fits := by
  cases cue with
  | send command => exact absurd h List.not_mem_nil
  | fill frames sampleRate channels =>
    rw [stepsAt, List.mem_append, List.mem_cons] at h
    rcases h with (rfl | h) | h
    · trivial
    · obtain ⟨command, _, rfl⟩ := List.mem_map.mp h
      trivial
    · obtain ⟨size, hsize, rfl⟩ := List.mem_map.mp h
      exact mem_pieces (by decide) hsize

theorem fits_of_mem_steps {deck : Deck} {cues : List DeckCue} {step : RenderStep}
    (h : step ∈ deck.steps cues) : step.Fits := by
  induction cues generalizing deck with
  | nil => exact absurd h List.not_mem_nil
  | cons cue rest ih =>
    rw [steps, List.mem_append] at h
    rcases h with h | h
    · exact fits_of_mem_stepsAt h
    · exact ih h

/-! ## The steps make the run -/

/-- The blocks of a buffer of whole frames have whole frames. -/
theorem pieces_samples (frames channels : Nat) :
    Renderer.pieces (maxBlock * max channels 1) (samples frames channels) =
      (Renderer.pieces maxBlock frames).map (samples · channels) := by
  have hcount := Renderer.channels_pos channels
  rw [Renderer.pieces, Renderer.pieces, samples, Nat.mul_div_mul_right _ _ hcount,
    Nat.mul_mod_mul_right, List.map_append, List.map_replicate, samples]
  congr 1
  by_cases hrest : frames % maxBlock = 0
  · rw [if_pos hrest, hrest, Nat.zero_mul, if_pos rfl, List.map_nil]
  · have hne : frames % maxBlock * max channels 1 ≠ 0 :=
      Nat.mul_ne_zero hrest (Nat.ne_of_gt hcount)
    rw [if_neg hrest, if_neg hne]
    rfl

/-- A block of whole frames is the step of a block. -/
theorem playing_renderBlock (renderer : Renderer) (link : EngineLink) (gain : Float32)
    (frames channels : Nat) :
    let (_, renderer', link') :=
      renderer.renderBlock link gain (max channels 1) (samples frames channels)
    playing ⟨renderer', link'⟩ = (playing ⟨renderer, link⟩).step (.block frames) := by
  have hcount := Renderer.channels_pos channels
  have hframes : samples frames channels / max channels 1 = frames := Nat.mul_div_cancel _ hcount
  simp only [Renderer.renderBlock, hframes]
  rfl

/-- Blocks of whole frames are the steps of blocks. -/
theorem playing_renderBlocks (renderer : Renderer) (link : EngineLink) (gain : Float32)
    (sizes : List Nat) (channels : Nat) :
    let (_, renderer', link') :=
      Renderer.renderBlocks gain (max channels 1) (sizes.map (samples · channels)) renderer link
    playing ⟨renderer', link'⟩ = (playing ⟨renderer, link⟩).run (sizes.map .block) := by
  induction sizes generalizing renderer link with
  | nil => rfl
  | cons frames rest ih =>
    have hblock := playing_renderBlock renderer link gain frames channels
    have hrest := ih
      (renderer.renderBlock link gain (max channels 1) (samples frames channels)).2.1
      (renderer.renderBlock link gain (max channels 1) (samples frames channels)).2.2
    rw [List.map_cons, List.map_cons, Renderer.renderBlocks]
    dsimp only at hblock hrest ⊢
    rw [hrest, hblock]
    rfl

theorem playing_next (deck : Deck) (cue : DeckCue) :
    (deck.next cue).playing = deck.playing.run (deck.stepsAt cue) := by
  cases cue with
  | send command => rfl
  | fill frames sampleRate channels =>
    have hblocks := playing_renderBlocks
      { deck.renderer.setRate sampleRate with
        queue := deck.link.channel.waiting.foldl Renderer.obey
          (deck.renderer.setRate sampleRate).queue }
      { deck.link with channel := deck.link.channel.drained } deck.link.state.masterGain
      (Renderer.pieces maxBlock frames) channels
    rw [← pieces_samples] at hblocks
    rw [stepsAt, List.cons_append, ← List.singleton_append, RenderState.run_append,
      RenderState.run_append, RenderState.run_read]
    exact hblocks

/-- The renderer, the noise and the clock of a deck come out as its steps make them. -/
theorem playing_after (deck : Deck) (cues : List DeckCue) :
    (deck.after cues).playing = deck.playing.run (deck.steps cues) := by
  induction cues generalizing deck with
  | nil => rfl
  | cons cue rest ih =>
    rw [steps, RenderState.run_append, ← playing_next]
    exact ih (deck.next cue)

/-! ## Commands -/

theorem isOpen_next (deck : Deck) (cue : DeckCue) :
    (deck.next cue).link.channel.isOpen = deck.link.channel.isOpen := by
  cases cue with
  | send command =>
    show (deck.link.channel.send command).isOpen = _
    rw [CommandChannel.send]
    split <;> rfl
  | fill frames sampleRate channels =>
    obtain ⟨_, _, hchannel⟩ :=
      deck.renderer.render_link deck.link (samples frames channels) sampleRate channels
    exact congrArg (·.isOpen) hchannel

/-- A buffer reads the commands that wait. -/
theorem commands_stepsAt_fill (deck : Deck) (frames sampleRate channels : Nat) :
    (deck.stepsAt (.fill frames sampleRate channels)).filterMap RenderStep.command? =
      deck.link.channel.waiting := by
  have hread : (deck.link.channel.waiting.map .read).filterMap RenderStep.command? =
      deck.link.channel.waiting := by
    rw [List.filterMap_map]
    exact List.filterMap_some
  have hblocks : ((Renderer.pieces maxBlock frames).map .block).filterMap
      RenderStep.command? = [] := by
    rw [List.filterMap_map]
    exact List.filterMap_eq_nil_iff.mpr fun _ _ => rfl
  rw [stepsAt, List.filterMap_append, hblocks, List.append_nil]
  exact hread

/-- What is sent waits in the channel until the next buffer. -/
theorem waiting_append_sent? (deck : Deck) (cue : DeckCue) :
    deck.link.channel.waiting ++ (if deck.link.channel.isOpen then cue.sent?.toList else []) =
      (deck.stepsAt cue).filterMap RenderStep.command? ++ (deck.next cue).link.channel.waiting := by
  cases cue with
  | send command =>
    show _ = [] ++ (deck.link.channel.send command).waiting
    rw [CommandChannel.send]
    split
    · rfl
    · exact List.append_nil _
  | fill frames sampleRate channels =>
    obtain ⟨_, _, hchannel⟩ :=
      deck.renderer.render_link deck.link (samples frames channels) sampleRate channels
    have hwaiting : (deck.next (.fill frames sampleRate channels)).link.channel.waiting = [] :=
      congrArg (·.waiting) hchannel
    rw [commands_stepsAt_fill, hwaiting, DeckCue.sent?, Option.toList_none, ite_self]

/-- Commands are read in the order in which they are sent; what is not read yet waits. -/
theorem waiting_append_sent (deck : Deck) (cues : List DeckCue) :
    deck.link.channel.waiting ++
        (if deck.link.channel.isOpen then cues.filterMap DeckCue.sent? else []) =
      (deck.steps cues).filterMap RenderStep.command? ++
        (deck.after cues).link.channel.waiting := by
  induction cues generalizing deck with
  | nil =>
    rw [List.filterMap_nil, ite_self]
    exact List.append_nil _
  | cons cue rest ih =>
    have hcue := deck.waiting_append_sent? cue
    have hrest := ih (deck.next cue)
    rw [isOpen_next] at hrest
    have hsent : (if deck.link.channel.isOpen then (cue :: rest).filterMap DeckCue.sent? else []) =
        (if deck.link.channel.isOpen then cue.sent?.toList else []) ++
          (if deck.link.channel.isOpen then rest.filterMap DeckCue.sent? else []) := by
      split
      · rw [List.filterMap_cons]
        cases cue.sent? <;> rfl
      · rfl
    rw [hsent, ← List.append_assoc, hcue, List.append_assoc, hrest, ← List.append_assoc, steps,
      List.filterMap_append]
    rfl

end Deck

end Groovebox
