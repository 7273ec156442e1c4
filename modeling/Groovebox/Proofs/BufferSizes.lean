import Groovebox.Proofs.Playing

/-!
# Buffers of any size

What a renderer plays does not depend on how its frames are cut into blocks, as long as no note is
late and no two notes of a track share a frame.  The reference is a renderer without blocks, whose
instruments play straight from the queue, each note in its own frame (`playThrough`).  Frames that
it plays in two parts are the same frames (`playThrough_add`), and one block is as many of its
frames (`playThrough_block`); so the blocks of a buffer are, and buffers of any sizes
(`fill_add`).
-/

namespace Groovebox

/-! ## Scores -/

/-- The notes of a track that an instrument can play, in the order of their frames. -/
def score {β : Type} (item? : Note → Option β) (track : Track) (queue : List ScheduledNote) :
    List (Queued β) :=
  Player.inOrder (Queued.select item? (Renderer.onTrack track queue))

/-- The notes of each track have frames of their own. -/
def Apart (queue : List ScheduledNote) : Prop :=
  queue.Pairwise fun a b => a.track = b.track → a.frame ≠ b.frame

section Score

variable {β : Type} {item? : Note → Option β} {track : Track} {queue : List ScheduledNote}

theorem Apart.perm {a b : List ScheduledNote} (h : Apart a) (hperm : a.Perm b) : Apart b :=
  hperm.pairwise h fun hne htrack => (hne htrack.symm).symm

theorem Apart.filter (h : Apart queue) (p : ScheduledNote → Bool) : Apart (queue.filter p) :=
  List.Pairwise.filter p h

/-- On a track that an instrument plays, no two notes share a frame. -/
theorem Apart.select (h : Apart queue) :
    (Queued.select item? (Renderer.onTrack track queue)).Pairwise (·.offset ≠ ·.offset) := by
  have hcalls : (Renderer.onTrack track queue).Pairwise (·.offset ≠ ·.offset) := by
    rw [Renderer.onTrack, List.pairwise_map]
    refine (List.Pairwise.filter _ h).imp_of_mem fun {a b} ha hb hne => hne ?_
    have ha := of_decide_eq_true (List.mem_filter.mp ha).2
    have hb := of_decide_eq_true (List.mem_filter.mp hb).2
    exact ha.trans hb.symm
  refine hcalls.filterMap _ fun a b hne a' ha' b' hb' => ?_
  obtain ⟨_, _, rfl⟩ := Option.map_eq_some_iff.mp ha'
  obtain ⟨_, _, rfl⟩ := Option.map_eq_some_iff.mp hb'
  exact hne

theorem perm_score {a b : List ScheduledNote} (h : a.Perm b) :
    (score item? track a).Perm (Queued.select item? (Renderer.onTrack track b)) :=
  (sortedBy_perm ..).trans (((h.filter _).map _).filterMap _)

/-- The order of the queue does not matter to a score. -/
theorem score_perm {a b : List ScheduledNote} (hb : Apart b) (h : a.Perm b) :
    score item? track a = score item? track b :=
  eq_sortedBy_of_distinct (pairwise_sortedBy ..) (perm_score h) hb.select

theorem exists_of_mem_score {timed : Queued β} (h : timed ∈ score item? track queue) :
    ∃ note ∈ queue, note.frame = timed.offset := by
  obtain ⟨call, hcall, hoffset⟩ :=
    Queued.exists_of_mem_select ((sortedBy_perm ..).subset h)
  obtain ⟨note, hnote, rfl⟩ := List.mem_map.mp hcall
  exact ⟨note, List.mem_of_mem_filter hnote, hoffset⟩

theorem le_of_mem_score {frame : Nat} (h : ∀ note ∈ queue, frame ≤ note.frame) {timed : Queued β}
    (hmem : timed ∈ score item? track queue) : frame ≤ timed.offset := by
  obtain ⟨note, hnote, hframe⟩ := exists_of_mem_score hmem
  rw [← hframe]
  exact h note hnote

theorem lt_of_mem_score {frame : Nat} (h : ∀ note ∈ queue, note.frame < frame) {timed : Queued β}
    (hmem : timed ∈ score item? track queue) : timed.offset < frame := by
  obtain ⟨note, hnote, hframe⟩ := exists_of_mem_score hmem
  rw [← hframe]
  exact h note hnote

/-- A score goes on with what comes later. -/
theorem score_append {due left : List ScheduledNote} (h : Apart (due ++ left)) {frame : Nat}
    (hdue : ∀ note ∈ due, note.frame < frame) (hleft : ∀ note ∈ left, frame ≤ note.frame) :
    score item? track (due ++ left) = score item? track due ++ score item? track left := by
  have hsorted : (score item? track due ++ score item? track left).Pairwise
      (·.offset ≤ ·.offset) := by
    refine List.pairwise_append.mpr ⟨pairwise_sortedBy .., pairwise_sortedBy .., ?_⟩
    intro early hearly late hlate
    have hlt := lt_of_mem_score hdue hearly
    have hle := le_of_mem_score hleft hlate
    omega
  have hperm : (score item? track due ++ score item? track left).Perm
      (Queued.select item? (Renderer.onTrack track (due ++ left))) := by
    rw [Renderer.onTrack, List.filter_append, List.map_append, Queued.select_append]
    exact (perm_score (.refl _)).append (perm_score (.refl _))
  exact (eq_sortedBy_of_distinct hsorted hperm h.select).symm

/-- Before the first frame of a score there is nothing of it. -/
theorem cut_score {frame : Nat} (h : ∀ note ∈ queue, frame ≤ note.frame) :
    (score item? track queue).takeWhile (·.offset < frame) = [] ∧
      (score item? track queue).dropWhile (·.offset < frame) = score item? track queue := by
  have hnone : (score item? track queue).takeWhile (·.offset < frame) = [] := by
    refine List.takeWhile_eq_nil_iff.mpr fun hlength hlt => ?_
    exact absurd (of_decide_eq_true hlt)
      (Nat.not_lt.mpr (le_of_mem_score h (List.get_mem _ ⟨0, hlength⟩)))
  have hsplit := List.takeWhile_append_dropWhile (p := (·.offset < frame))
    (l := score item? track queue)
  rw [hnone, List.nil_append] at hsplit
  exact ⟨hnone, hsplit⟩

/-- The score of the notes from a frame on is what is left of the score. -/
theorem dropWhile_score (h : Apart queue) (frame : Nat) :
    (score item? track queue).dropWhile (·.offset < frame) =
      score item? track (queue.filter (frame ≤ ·.frame)) := by
  have hperm := Renderer.filter_frame_append_perm frame queue
  have hdue : ∀ note ∈ queue.filter (·.frame < frame), note.frame < frame :=
    fun _ hmem => of_decide_eq_true (List.mem_filter.mp hmem).2
  have hleft : ∀ note ∈ queue.filter (frame ≤ ·.frame), frame ≤ note.frame :=
    fun _ hmem => of_decide_eq_true (List.mem_filter.mp hmem).2
  rw [← score_perm h hperm, score_append (h.perm hperm.symm) hdue hleft,
    List.dropWhile_append_of_pos, (cut_score hleft).2]
  exact fun timed htimed => decide_eq_true (lt_of_mem_score hdue htimed)

end Score

/-! ## Blocks of one instrument -/

section Instrument

variable {σ β : Type} (player : Player σ β) {item? : Note → Option β} {track : Track}
  {queue : List ScheduledNote} {clock : Nat}

/-- The calls that are made for a block are in the order of the score, at frames of the block. -/
theorem inOrder_select_callsOn (h : ∀ note ∈ queue, clock ≤ note.frame) :
    Player.inOrder (Queued.select item? (Renderer.callsOn track clock queue)) =
      (score item? track queue).map (Queued.sooner clock) := by
  have hclock : ∀ timed ∈ Queued.select item? (Renderer.onTrack track queue),
      clock ≤ timed.offset :=
    fun timed htimed => le_of_mem_score h ((sortedBy_perm ..).symm.subset htimed)
  rw [Renderer.callsOn, Queued.select_map_sooner]
  refine (map_sortedBy Queued.offset fun a ha b hb => ?_).symm
  have hale := hclock a ha
  have hble := hclock b hb
  show _ ↔ a.offset - clock ≤ b.offset - clock
  omega

/-- A block of an instrument that is given the notes that are due plays as much of the score. -/
theorem renderBlock_select (hclock : ∀ note ∈ queue, clock ≤ note.frame) (h : Apart queue)
    {frames : Nat} (hfits : (RenderStep.block frames).Fits) (state : σ) :
    player.renderBlock frames (Queued.select item? (Renderer.callsOn track clock
        (Renderer.takeDue (clock + frames) queue).1)) state =
      { player.renderFrom frames clock (score item? track queue) state with waiting := [] } := by
  let due := (Renderer.takeDue (clock + frames) queue).1
  let left := (Renderer.takeDue (clock + frames) queue).2
  have hqueue : (due ++ left).Perm queue := Renderer.takeDue_append_perm (clock + frames) queue
  -- notes are taken out in no order, but a score of distinct frames has just one
  have hscore : score item? track queue = score item? track due ++ score item? track left := by
    rw [← score_perm h hqueue]
    exact score_append (h.perm hqueue.symm) (fun _ => Renderer.lt_of_mem_takeDue)
      fun _ => Renderer.le_of_mem_takeDue
  have hlater : ∀ timed ∈ score item? track left, clock + frames ≤ timed.offset :=
    fun _ => le_of_mem_score fun _ => Renderer.le_of_mem_takeDue
  have hcalls : ∀ call ∈ Queued.select item? (Renderer.callsOn track clock due),
      call.offset < frames := fun _ => Renderer.offset_lt_of_mem_select hfits.1
  have horder : Player.inOrder (Queued.select item? (Renderer.callsOn track clock due)) =
      (score item? track due).map (Queued.sooner clock) :=
    inOrder_select_callsOn fun note hnote =>
      hclock note (hqueue.subset (List.mem_append_left _ hnote))
  have hwaiting := (player.renderBlock_noting hfits.2 hcalls state).1
  rw [Player.renderBlock, Nat.min_eq_left hfits.2, horder, player.renderFrom_sooner,
    Nat.zero_add] at hwaiting ⊢
  rw [hscore, player.renderFrom_append hlater]
  dsimp only at hwaiting ⊢
  rw [hwaiting]

/-- Frames that an instrument plays in two parts are the same frames. -/
theorem renderFrom_score_add (hclock : ∀ note ∈ queue, clock ≤ note.frame) (h : Apart queue)
    (n m : Nat) (state : σ) :
    player.renderFrom (n + m) clock (score item? track queue) state =
      (player.renderFrom m (clock + n)
        (score item? track (queue.filter (clock + n ≤ ·.frame)))
        (player.renderFrom n clock (score item? track queue) state).state).behind
          (player.renderFrom n clock (score item? track queue) state).samples := by
  rw [player.renderFrom_add, player.waiting_renderFrom (cut_score hclock).1, dropWhile_score h]

end Instrument

/-! ## The reference -/

/-- The samples of the instruments, added up. -/
def mixed (drums bass synth : List Float32) : List Float32 :=
  ((drums.map (0 + ·)).zipWith (· + ·) bass).zipWith (· + ·) synth

theorem mixed_append {drums bass synth : List Float32} (hbass : drums.length = bass.length)
    (hsynth : drums.length = synth.length) (drums' bass' synth' : List Float32) :
    mixed (drums ++ drums') (bass ++ bass') (synth ++ synth') =
      mixed drums bass synth ++ mixed drums' bass' synth' := by
  rw [mixed, List.map_append, List.zipWith_append, List.zipWith_append]
  · rfl
  · rw [List.length_zipWith, List.length_map, ← hbass, Nat.min_self, hsynth]
  · rw [List.length_map, hbass]

namespace RenderState

/-- The instruments are idle, no queued note is late, and the notes of each track have frames of
their own. -/
structure Ready (state : RenderState) : Prop where
  idle : state.renderer.Idle
  inTime : ∀ note ∈ state.renderer.queue, state.clock ≤ note.frame
  apart : Apart state.renderer.queue

/-- The drums play frames straight from the queue. -/
def playDrums (state : RenderState) (frames : Nat) : Rendered (List DrumVoice × Noise) DrumHit :=
  let kit := state.renderer.drums
  (DrumKit.player kit.rate kit.params).renderFrom frames state.clock
    (score Note.hit? .drums state.renderer.queue) (kit.voices, state.noise)

/-- A synth plays frames of a track straight from the queue. -/
def playTones (state : RenderState) (synth : MonoSynth) (track : Track) (frames : Nat) :
    Rendered (List ToneVoice × Lowpass) (Float × Nat) :=
  (MonoSynth.player synth.rate.toFloat synth.preset).renderFrom frames state.clock
    (score Note.tone? track state.renderer.queue) (synth.voices, synth.filter)

/-- The mix of frames that the instruments have played, and the state after them. -/
def gather (state : RenderState) (frames : Nat) (drums : Rendered (List DrumVoice × Noise) DrumHit)
    (bass synth : Rendered (List ToneVoice × Lowpass) (Float × Nat)) :
    List Float32 × RenderState :=
  (mixed drums.samples bass.samples synth.samples,
    { renderer := { state.renderer with
        queue := state.renderer.queue.filter (state.clock + frames ≤ ·.frame)
        drums := { state.renderer.drums with voices := drums.state.1 }
        bass := { state.renderer.bass with voices := bass.state.1, filter := bass.state.2 }
        synth := { state.renderer.synth with voices := synth.state.1, filter := synth.state.2 } }
      noise := drums.state.2
      clock := state.clock + frames })

/-- All instruments play frames straight from the queue. -/
def playThrough (state : RenderState) (frames : Nat) : List Float32 × RenderState :=
  state.gather frames (state.playDrums frames) (state.playTones state.renderer.bass .bass frames)
    (state.playTones state.renderer.synth .synth frames)

theorem Ready.playThrough {state : RenderState} (h : state.Ready) (frames : Nat) :
    (state.playThrough frames).2.Ready where
  idle := ⟨h.idle.drums, h.idle.bass, h.idle.synth⟩
  inTime := fun _ hmem => of_decide_eq_true (List.mem_filter.mp hmem).2
  apart := h.apart.filter _

/-- The reference does not depend on how frames are cut. -/
theorem playThrough_add {state : RenderState} (h : state.Ready) (n m : Nat) :
    state.playThrough (n + m) =
      ((state.playThrough n).1 ++ ((state.playThrough n).2.playThrough m).1,
        ((state.playThrough n).2.playThrough m).2) := by
  have hdrums : state.playDrums (n + m) =
      ((state.playThrough n).2.playDrums m).behind (state.playDrums n).samples :=
    renderFrom_score_add _ h.inTime h.apart n m _
  have hbass : state.playTones state.renderer.bass .bass (n + m) =
      ((state.playThrough n).2.playTones (state.playThrough n).2.renderer.bass .bass m).behind
        (state.playTones state.renderer.bass .bass n).samples :=
    renderFrom_score_add _ h.inTime h.apart n m _
  have hsynth : state.playTones state.renderer.synth .synth (n + m) =
      ((state.playThrough n).2.playTones (state.playThrough n).2.renderer.synth .synth m).behind
        (state.playTones state.renderer.synth .synth n).samples :=
    renderFrom_score_add _ h.inTime h.apart n m _
  have hlength : ∀ (synth : MonoSynth) (track : Track),
      (state.playDrums n).samples.length = (state.playTones synth track n).samples.length :=
    fun _ _ => (Player.length_samples_renderFrom ..).trans
      (Player.length_samples_renderFrom ..).symm
  have hqueue : state.renderer.queue.filter (state.clock + (n + m) ≤ ·.frame) =
      (state.renderer.queue.filter (state.clock + n ≤ ·.frame)).filter
        (state.clock + n + m ≤ ·.frame) := by
    rw [List.filter_filter]
    refine List.filter_congr fun note _ => ?_
    rw [← Bool.decide_and]
    exact decide_eq_decide.mpr (by omega)
  rw [playThrough, hdrums, hbass, hsynth]
  refine Prod.ext (mixed_append (hlength _ _) (hlength _ _) _ _ _) ?_
  rw [gather, hqueue, ← Nat.add_assoc]
  rfl

/-- Two states that differ at most in the order of their queues, and in what is left in the buffer
of the mix. -/
structure Agrees (a b : RenderState) : Prop where
  queue : a.renderer.queue.Perm b.renderer.queue
  drums : a.renderer.drums = b.renderer.drums
  bass : a.renderer.bass = b.renderer.bass
  synth : a.renderer.synth = b.renderer.synth
  sampleRate : a.renderer.sampleRate = b.renderer.sampleRate
  noise : a.noise = b.noise
  clock : a.clock = b.clock

theorem Agrees.trans {a b c : RenderState} (hab : a.Agrees b) (hbc : b.Agrees c) : a.Agrees c where
  queue := hab.queue.trans hbc.queue
  drums := hab.drums.trans hbc.drums
  bass := hab.bass.trans hbc.bass
  synth := hab.synth.trans hbc.synth
  sampleRate := hab.sampleRate.trans hbc.sampleRate
  noise := hab.noise.trans hbc.noise
  clock := hab.clock.trans hbc.clock

theorem Agrees.symm {a b : RenderState} (h : a.Agrees b) : b.Agrees a where
  queue := h.queue.symm
  drums := h.drums.symm
  bass := h.bass.symm
  synth := h.synth.symm
  sampleRate := h.sampleRate.symm
  noise := h.noise.symm
  clock := h.clock.symm

theorem Agrees.ready {a b : RenderState} (h : a.Agrees b) (hb : b.Ready) : a.Ready where
  idle := ⟨h.drums ▸ hb.idle.drums, h.bass ▸ hb.idle.bass, h.synth ▸ hb.idle.synth⟩
  inTime := fun note hmem => h.clock ▸ hb.inTime note (h.queue.subset hmem)
  apart := hb.apart.perm h.queue.symm

/-- From states that agree the same is played, and they agree again after it. -/
theorem Agrees.playThrough {a b : RenderState} (h : a.Agrees b) (hb : b.Ready) (frames : Nat) :
    (a.playThrough frames).1 = (b.playThrough frames).1 ∧
      (a.playThrough frames).2.Agrees (b.playThrough frames).2 := by
  have hdrums : a.playDrums frames = b.playDrums frames := by
    rw [playDrums, playDrums, h.drums, h.noise, h.clock, score_perm hb.apart h.queue]
  have htones : ∀ (synth : MonoSynth) (track : Track),
      a.playTones synth track frames = b.playTones synth track frames := by
    intro synth track
    rw [playTones, playTones, h.clock, score_perm hb.apart h.queue]
  have hqueue : (a.renderer.queue.filter (a.clock + frames ≤ ·.frame)).Perm
      (b.renderer.queue.filter (b.clock + frames ≤ ·.frame)) := by
    rw [h.clock]
    exact h.queue.filter _
  rw [RenderState.playThrough, RenderState.playThrough, hdrums, htones, htones, h.bass, h.synth]
  refine ⟨rfl, hqueue, ?_, ?_, ?_, h.sampleRate, rfl, congrArg (· + frames) h.clock⟩
  · rw [gather, gather, h.drums]
  · rw [gather, gather, h.bass]
  · rw [gather, gather, h.synth]

/-- What the drums render in a block in which they are given the notes that are due. -/
theorem process_drums {state : RenderState} (h : state.Ready) {frames : Nat}
    (hfits : (RenderStep.block frames).Fits) :
    ((Renderer.callsOn .drums state.clock
        (Renderer.takeDue (state.clock + frames) state.renderer.queue).1).foldl
          (fun kit call => kit.queue call.item call.offset) state.renderer.drums).process
            state.noise frames =
      ((state.playDrums frames).samples,
        { state.renderer.drums with voices := (state.playDrums frames).state.1 },
        (state.playDrums frames).state.2) := by
  rw [DrumKit.foldl_queue, DrumKit.process]
  dsimp only
  rw [h.idle.drums, List.nil_append, renderBlock_select _ h.inTime h.apart hfits]
  rfl

/-- What a synth renders in a block in which it is given the notes of its track that are due. -/
theorem process_synth {state : RenderState} (h : state.Ready) {frames : Nat}
    (hfits : (RenderStep.block frames).Fits) {synth : MonoSynth} (hidle : synth.waiting = [])
    (track : Track) :
    ((Renderer.callsOn track state.clock
        (Renderer.takeDue (state.clock + frames) state.renderer.queue).1).foldl
          (fun synth call => synth.queue call.item call.offset) synth).process frames =
      ((state.playTones synth track frames).samples,
        { synth with
          voices := (state.playTones synth track frames).state.1
          filter := (state.playTones synth track frames).state.2 }) := by
  rw [MonoSynth.foldl_queue, MonoSynth.process]
  dsimp only
  rw [hidle, List.nil_append, renderBlock_select _ h.inTime h.apart hfits]
  rfl

theorem length_playThrough (state : RenderState) (frames : Nat) :
    (state.playThrough frames).1.length = frames := by
  have hdrums : (state.playDrums frames).samples.length = frames :=
    Player.length_samples_renderFrom ..
  have htones : ∀ (synth : MonoSynth) (track : Track),
      (state.playTones synth track frames).samples.length = frames :=
    fun _ _ => Player.length_samples_renderFrom ..
  rw [playThrough, gather, mixed, List.length_zipWith, List.length_zipWith, List.length_map,
    hdrums, htones, htones, Nat.min_self, Nat.min_self]

/-- A block is as many frames of the reference. -/
theorem playThrough_block {state : RenderState} (h : state.Ready) {frames : Nat}
    (hfits : (RenderStep.block frames).Fits) :
    (state.step (.block frames)).renderer.mix.take frames = (state.playThrough frames).1 ∧
      (state.step (.block frames)).Agrees (state.playThrough frames).2 := by
  have hqueue := (Renderer.perm_takeDue (state.clock + frames) state.renderer.queue).2
  rw [step, Renderer.load_eq, Renderer.receive, Renderer.mixBlock]
  dsimp only
  rw [process_drums h hfits, process_synth h hfits h.idle.bass .bass,
    process_synth h hfits h.idle.synth .synth]
  refine ⟨?_, hqueue, rfl, rfl, rfl, rfl, rfl, rfl⟩
  exact List.take_left' (state.length_playThrough frames)

/-! ## Blocks -/

/-- What some blocks play, one after another. -/
def sound (state : RenderState) : List Nat → List Float32
  | [] => []
  | frames :: rest =>
    (state.step (.block frames)).renderer.mix.take frames ++
      (state.step (.block frames)).sound rest

/-- Blocks play as many frames of the reference as they have. -/
theorem playThrough_blocks {state : RenderState} (h : state.Ready) {sizes : List Nat}
    (hfits : ∀ frames ∈ sizes, (RenderStep.block frames).Fits) :
    state.sound sizes = (state.playThrough sizes.sum).1 ∧
      (state.run (sizes.map .block)).Agrees (state.playThrough sizes.sum).2 := by
  induction sizes generalizing state with
  | nil =>
    have hnone : (state.playThrough 0).1 = [] := List.eq_nil_of_length_eq_zero
      (state.length_playThrough 0)
    have hall : state.renderer.queue.filter (state.clock ≤ ·.frame) = state.renderer.queue :=
      List.filter_eq_self.mpr fun note hmem => decide_eq_true (h.inTime note hmem)
    exact ⟨hnone.symm, .of_eq hall.symm, rfl, rfl, rfl, rfl, rfl, rfl⟩
  | cons frames rest ih =>
    obtain ⟨hmix, hblock⟩ := playThrough_block h (hfits frames List.mem_cons_self)
    have hready := h.playThrough frames
    -- the other blocks begin where the reference is by then, but for the order of the queue
    obtain ⟨hsound, hrun⟩ := ih (hblock.ready hready) fun frames hmem =>
      hfits frames (List.mem_cons_of_mem _ hmem)
    obtain ⟨hsame, hagrees⟩ := hblock.playThrough hready rest.sum
    rw [List.sum_cons, playThrough_add h, sound, hmix, hsound, hsame]
    exact ⟨rfl, hrun.trans hagrees⟩

end RenderState

/-! ## Buffers -/

namespace Deck

theorem interleave_samples (mix : List Float32) (gain : Float32) (frames channels : Nat) :
    Renderer.interleave mix gain (samples frames channels) (max channels 1) =
      (mix.take frames).flatMap fun sample => List.replicate (max channels 1) (sample * gain) := by
  have hcount := Renderer.channels_pos channels
  have hframes : (samples frames channels + max channels 1 - 1) / max channels 1 = frames := by
    refine Nat.div_eq_of_lt_le ?_ ?_
    · show frames * max channels 1 ≤ frames * max channels 1 + max channels 1 - 1
      omega
    · rw [Nat.succ_mul]
      show frames * max channels 1 + max channels 1 - 1 < frames * max channels 1 + max channels 1
      omega
  rw [Renderer.interleave, hframes]
  refine List.take_of_length_le ?_
  simp only [List.length_flatMap, List.length_replicate, List.map_const', List.sum_replicate_nat]
  exact Nat.mul_le_mul_right _ (List.length_take_le _ _)

/-- The samples of blocks of whole frames. -/
theorem buffer_renderBlocks (renderer : Renderer) (link : EngineLink) (gain : Float32)
    (sizes : List Nat) (channels : Nat) :
    (Renderer.renderBlocks gain (max channels 1) (sizes.map (samples · channels)) renderer link).1 =
      ((playing ⟨renderer, link⟩).sound sizes).flatMap fun sample =>
        List.replicate (max channels 1) (sample * gain) := by
  induction sizes generalizing renderer link with
  | nil => rfl
  | cons frames rest ih =>
    have hblock := playing_renderBlock renderer link gain frames channels
    have hrest := ih
      (renderer.renderBlock link gain (max channels 1) (samples frames channels)).2.1
      (renderer.renderBlock link gain (max channels 1) (samples frames channels)).2.2
    have hmix := congrArg (·.renderer.mix) hblock
    rw [List.map_cons, Renderer.renderBlocks, RenderState.sound, List.flatMap_append]
    dsimp only at hblock hrest hmix ⊢
    rw [hrest, hblock, ← hmix, ← interleave_samples]
    rfl

/-- The samples of a buffer of whole frames. -/
def buffer (deck : Deck) (frames sampleRate channels : Nat) : List Float32 :=
  (deck.renderer.render deck.link (samples frames channels) sampleRate channels).1

/-- What is played from, when the waiting commands are read. -/
def begun (deck : Deck) (sampleRate : Nat) : RenderState :=
  ⟨{ deck.renderer.setRate sampleRate with queue := deck.renderer.backlog deck.link },
    deck.link.noise, deck.link.state.framesRendered⟩

theorem run_read_begun (deck : Deck) (sampleRate : Nat) :
    deck.playing.run (.rate sampleRate :: deck.link.channel.waiting.map .read) =
      deck.begun sampleRate := by
  have hqueue : (deck.playing.step (.rate sampleRate)).renderer.queue = deck.renderer.queue :=
    deck.renderer.queue_setRate sampleRate
  refine ((deck.playing.step (.rate sampleRate)).run_read deck.link.channel.waiting).trans ?_
  rw [hqueue]
  rfl

theorem playing_fill (deck : Deck) (frames sampleRate channels : Nat) :
    (deck.next (.fill frames sampleRate channels)).playing =
      (deck.begun sampleRate).run ((Renderer.pieces maxBlock frames).map .block) := by
  rw [playing_next, stepsAt, RenderState.run_append, run_read_begun]

theorem buffer_eq (deck : Deck) (frames sampleRate channels : Nat) :
    deck.buffer frames sampleRate channels =
      ((deck.begun sampleRate).sound (Renderer.pieces maxBlock frames)).flatMap fun sample =>
        List.replicate (max channels 1) (sample * deck.link.state.masterGain) := by
  have hblocks := buffer_renderBlocks (deck.begun sampleRate).renderer
    { deck.link with channel := deck.link.channel.drained } deck.link.state.masterGain
    (Renderer.pieces maxBlock frames) channels
  rw [← pieces_samples] at hblocks
  have hqueue : deck.link.channel.waiting.foldl Renderer.obey
      (deck.renderer.setRate sampleRate).queue = deck.renderer.backlog deck.link := by
    rw [Renderer.queue_setRate, Renderer.backlog]
  rw [buffer, Renderer.render, hqueue]
  exact hblocks

/-- A buffer plays as many frames of the reference as it has. -/
theorem fill_of_ready {deck : Deck} {sampleRate : Nat} (h : (deck.begun sampleRate).Ready)
    (frames channels : Nat) :
    (deck.buffer frames sampleRate channels =
        ((deck.begun sampleRate).playThrough frames).1.flatMap fun sample =>
          List.replicate (max channels 1) (sample * deck.link.state.masterGain)) ∧
      (deck.next (.fill frames sampleRate channels)).playing.Agrees
        ((deck.begun sampleRate).playThrough frames).2 := by
  have hsum : (Renderer.pieces maxBlock frames).sum = frames := by
    simpa using Renderer.sum_pieces frames Nat.one_pos
  have hfits : ∀ size ∈ Renderer.pieces maxBlock frames, (RenderStep.block size).Fits :=
    fun _ hmem => mem_pieces (by decide) hmem
  obtain ⟨hsound, hagrees⟩ := RenderState.playThrough_blocks h hfits
  rw [hsum] at hsound hagrees
  rw [buffer_eq, playing_fill, hsound]
  exact ⟨rfl, hagrees⟩

/-- A buffer leaves no command and the sample rate that it was asked for, so the next one goes on
where it has ended. -/
theorem begun_fill {deck : Deck} {sampleRate : Nat} (h : (deck.begun sampleRate).Ready)
    (frames channels : Nat) :
    (deck.next (.fill frames sampleRate channels)).begun sampleRate =
      (deck.next (.fill frames sampleRate channels)).playing := by
  let filled := deck.next (.fill frames sampleRate channels)
  have hset : (deck.renderer.setRate sampleRate).sampleRate = sampleRate := by
    rw [Renderer.setRate]
    split
    · next heq => exact heq.symm
    · rfl
  have hrate : sampleRate = filled.renderer.sampleRate :=
    ((fill_of_ready h frames channels).2.sampleRate.trans hset).symm
  obtain ⟨_, _, hchannel⟩ :=
    deck.renderer.render_link deck.link (samples frames channels) sampleRate channels
  have hread : filled.renderer.backlog filled.link = filled.renderer.queue := by
    have hwaiting : filled.link.channel.waiting = [] := congrArg (·.waiting) hchannel
    rw [Renderer.backlog, hwaiting]
    rfl
  show filled.begun sampleRate = filled.playing
  rw [begun, hread, Renderer.setRate, if_pos hrate]
  rfl

/-- A buffer does not change the level. -/
theorem masterGain_fill (deck : Deck) (frames sampleRate channels : Nat) :
    (deck.next (.fill frames sampleRate channels)).link.state.masterGain =
      deck.link.state.masterGain := by
  obtain ⟨hstate, _⟩ := Renderer.renderBlocks_link deck.link.state.masterGain (max channels 1)
    (Renderer.pieces (maxBlock * max channels 1) (samples frames channels))
    { deck.renderer.setRate sampleRate with
      queue := deck.link.channel.waiting.foldl Renderer.obey
        (deck.renderer.setRate sampleRate).queue }
    { deck.link with channel := deck.link.channel.drained }
  exact congrArg (·.masterGain) hstate

/-- Whether frames are asked for in one buffer or in two, the same is played and left, but for the
order of the queue; and all channels of a frame carry what a single channel would. -/
theorem fill_add {deck : Deck} (hidle : deck.renderer.Idle)
    (hinTime : ∀ note ∈ deck.renderer.backlog deck.link,
      deck.link.state.framesRendered ≤ note.frame)
    (hapart : (deck.renderer.backlog deck.link).Pairwise fun a b =>
      a.track = b.track → a.frame ≠ b.frame)
    (n m sampleRate channels : Nat) :
    let whole := deck.next (.fill (n + m) sampleRate channels)
    let half := deck.next (.fill n sampleRate channels)
    let both := half.next (.fill m sampleRate channels)
    deck.buffer (n + m) sampleRate channels =
        deck.buffer n sampleRate channels ++ half.buffer m sampleRate channels ∧
      whole.link.state.framesRendered = both.link.state.framesRendered ∧
      whole.link.noise = both.link.noise ∧
      whole.renderer.drums = both.renderer.drums ∧
      whole.renderer.bass = both.renderer.bass ∧
      whole.renderer.synth = both.renderer.synth ∧
      whole.renderer.queue.Perm both.renderer.queue ∧
      deck.buffer n sampleRate channels =
        (deck.buffer n sampleRate 1).flatMap (List.replicate (max channels 1)) := by
  intro whole half both
  have hready : (deck.begun sampleRate).Ready :=
    ⟨⟨(hidle.setRate sampleRate).drums, (hidle.setRate sampleRate).bass,
      (hidle.setRate sampleRate).synth⟩, hinTime, hapart⟩
  obtain ⟨hwhole, hwholeEnd⟩ := fill_of_ready hready (n + m) channels
  obtain ⟨hhalf, hhalfEnd⟩ := fill_of_ready hready n channels
  have hbegun : half.begun sampleRate = half.playing := begun_fill hready n channels
  have hgain : half.link.state.masterGain = deck.link.state.masterGain :=
    deck.masterGain_fill n sampleRate channels
  -- the second buffer goes on from a state that agrees with the reference
  have hhalfReady : (half.begun sampleRate).Ready := by
    rw [hbegun]
    exact hhalfEnd.ready (hready.playThrough n)
  obtain ⟨hboth, hbothEnd⟩ := fill_of_ready hhalfReady m channels
  rw [hbegun, hgain] at hboth
  rw [hbegun] at hbothEnd
  obtain ⟨hsame, hsameEnd⟩ := hhalfEnd.playThrough (hready.playThrough n) m
  rw [RenderState.playThrough_add hready] at hwhole hwholeEnd
  have hend := hwholeEnd.trans (hbothEnd.trans hsameEnd).symm
  refine ⟨?_, hend.clock, hend.noise, hend.drums, hend.bass, hend.synth, hend.queue, ?_⟩
  · rw [hwhole, hhalf, hboth, hsame, List.flatMap_append]
  · rw [buffer_eq, buffer_eq, List.flatMap_assoc]
    refine List.flatMap_congr fun sample _ => ?_
    rw [Nat.max_self, List.replicate_one, List.flatMap_singleton]

/-- A new deck with two hits and a tone in its queue, out of order. -/
def threeQueued : Deck :=
  { new with
    renderer := { new.renderer with
      queue := [⟨5000, .drums, .hit .hihat⟩, ⟨100, .bass, .tone 110 4410⟩,
        ⟨100, .drums, .hit .kick⟩] } }

/-- One buffer of 8000 frames, which makes two blocks, is a buffer of 3000 frames and then one of
5000. -/
theorem fill_add_threeQueued :
    threeQueued.buffer 8000 44100 2 =
      threeQueued.buffer 3000 44100 2 ++
        (threeQueued.next (.fill 3000 44100 2)).buffer 5000 44100 2 := by
  have hapart : (threeQueued.renderer.backlog threeQueued.link).Pairwise fun a b =>
      a.track = b.track → a.frame ≠ b.frame := by
    decide
  exact (fill_add ⟨rfl, rfl, rfl⟩ (fun _ _ => Nat.zero_le _) hapart 3000 5000 44100 2).1

end Deck

end Groovebox
