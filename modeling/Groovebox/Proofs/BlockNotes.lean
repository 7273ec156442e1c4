import Groovebox.Proofs.BlockParts
import Groovebox.Proofs.DrumVoices
import Groovebox.Proofs.StolenVoices

/-!
# The notes of a block

Of the notes that wait, a block starts those before its end, each in the frame of its offset, and
leaves the others.  The moments of a block tell which notes it starts and, by the frames that are
rendered before, when (`Moment.starts`); one start and one frame keep what they tell
(`Moment.Tells`), and so does a block.  What a block leaves is not before its end, so that the
offsets can be counted from there (`PlaysBlock`).

A renderer gives its instruments, before each block, only notes of that block.  So none of them has
a note that waits when the block is over, and the mix has room for the next one as for every other
(`Renderer.Rested`).
-/

namespace Groovebox

/-! ## What moments tell -/

namespace Moment

variable {σ α : Type} {moments : List (Moment σ α)} {frames : Nat} {notes : List (Queued α)}

/-- The notes that are started, the first one first, when the latest moment is first.  The offset of
each is the frame in which it starts: as many frames are rendered before. -/
def starts : List (Moment σ α) → List (Queued α)
  | [] => []
  | .start _ item :: earlier => starts earlier ++ [⟨item, earlier.countP (·.isFrame)⟩]
  | .frame _ :: earlier => starts earlier

/-- Moments in which so many frames are rendered and these notes are started, each in the frame of
its offset. -/
structure Tells (moments : List (Moment σ α)) (frames : Nat) (notes : List (Queued α)) : Prop where
  countP_eq : moments.countP (·.isFrame) = frames
  starts_eq : starts moments = notes

theorem tells_nil : Tells ([] : List (Moment σ α)) 0 [] :=
  ⟨rfl, rfl⟩

theorem Tells.frame (h : Tells moments frames notes) (state : σ) :
    Tells (.frame state :: moments) (frames + 1) notes where
  countP_eq := by rw [List.countP_cons_of_pos rfl, h.countP_eq]
  starts_eq := h.starts_eq

theorem Tells.start (h : Tells moments frames notes) (state : σ) {note : Queued α}
    (hnote : note.offset = frames) :
    Tells (.start state note.item :: moments) frames (notes ++ [note]) where
  countP_eq := by rw [List.countP_cons_of_neg (by simp [isFrame]), h.countP_eq]
  starts_eq := by rw [starts, h.starts_eq, h.countP_eq, ← hnote]

end Moment

/-! ## Blocks -/

/-- What becomes of the notes that wait before a block of so many frames: these are the moments of
the block, the notes that it leaves, and what waits when it is over. -/
structure PlaysBlock {σ α : Type} (frames : Nat) (waiting : List (Queued α))
    (moments : List (Moment σ α)) (left after : List (Queued α)) : Prop where
  frames_eq : moments.countP (·.isFrame) = frames
  /-- The notes before the end of the block are started, each in the frame of its offset. -/
  starts_perm : (Moment.starts moments).Perm (waiting.filter (·.offset < frames))
  left_perm : left.Perm (waiting.filter (frames ≤ ·.offset))
  /-- No offset is less than what is taken off it. -/
  le_offset : ∀ note ∈ left, frames ≤ note.offset
  after_eq : after = left.map fun note => { note with offset := note.offset - frames }

namespace Player

open Moment

variable {σ α : Type} (player : Player σ α) {log : List (Moment σ α)} {frame : Nat}
  {notes : List (Queued α)}

/-- The notes that a block leaves, their offsets as they were. -/
def leftOver (count : Nat) (waiting : List (Queued α)) (state : σ) : List (Queued α) :=
  (player.renderFrom (min count maxBlock) 0 (inOrder waiting) state).waiting

theorem tells_startAll (h : Tells log frame notes) {due : List (Queued α)}
    (hdue : ∀ note ∈ due, note.offset = frame) (state : σ) :
    Tells (player.watched.startAll due (state, log)).2 frame (notes ++ due) := by
  induction due generalizing state log notes with
  | nil => rwa [List.append_nil]
  | cons note rest ih =>
    obtain ⟨hnote, hrest⟩ := List.forall_mem_cons.mp hdue
    rw [List.append_cons]
    exact ih (h.start state hnote) hrest (player.start state note.item)

/-- Frames start the notes that are theirs.  Those of earlier frames have been started before. -/
theorem tells_renderFrom (h : Tells log frame notes) {waiting : List (Queued α)}
    (hsorted : waiting.Pairwise (·.offset ≤ ·.offset))
    (hlater : ∀ note ∈ waiting, frame ≤ note.offset) (count : Nat) (state : σ) :
    Tells (player.watched.renderFrom count frame waiting (state, log)).state.2 (frame + count)
      (notes ++ waiting.takeWhile (·.offset < frame + count)) := by
  induction count generalizing frame waiting state log notes with
  | zero =>
    have hnone : waiting.takeWhile (·.offset < frame) = [] := by
      rw [takeWhile_eq_filter hsorted, List.filter_eq_nil_iff]
      intro note hmem
      have hle := hlater note hmem
      simp only [decide_eq_true_eq]
      omega
    rw [Nat.add_zero, hnone, List.append_nil]
    exact h
  | succ count ih =>
    -- what is due is of this very frame, as nothing that waits is of an earlier one
    have hdue : ∀ note ∈ waiting.takeWhile (·.offset ≤ frame), note.offset = frame := by
      intro note hmem
      have hfrom := hlater note ((List.takeWhile_sublist _).subset hmem)
      have hle : note.offset ≤ frame := by simpa using List.mem_takeWhile_imp hmem
      omega
    have hrest : ∀ note ∈ waiting.dropWhile (·.offset ≤ frame), frame + 1 ≤ note.offset := by
      have hdrop := dropWhile_eq_filter hsorted (frame + 1)
      simp only [Nat.lt_succ_iff] at hdrop
      intro note hmem
      rw [hdrop] at hmem
      exact of_decide_eq_true (List.mem_filter.mp hmem).2
    obtain ⟨_, hcut, _⟩ := cut_succ frame count waiting
    let started := player.watched.startAll (waiting.takeWhile (·.offset ≤ frame)) (state, log)
    have hstarted := (player.tells_startAll h hdue state).frame started.1
    have hplayed := ih hstarted (hsorted.sublist (List.dropWhile_sublist _)) hrest
      (player.frame started.1).2
    rw [List.append_assoc, hcut, Nat.add_right_comm] at hplayed
    exact hplayed

/-- A block starts the notes before its end and leaves the others. -/
theorem playsBlock (count : Nat) (waiting : List (Queued α)) (state : σ) :
    PlaysBlock (min count maxBlock) waiting (player.moments count waiting state)
      (player.leftOver count waiting state) (player.renderBlock count waiting state).waiting := by
  have hsorted := pairwise_inOrder waiting
  have hperm : (inOrder waiting).Perm waiting := List.mergeSort_perm ..
  have htells := player.tells_renderFrom tells_nil hsorted (fun _ _ => Nat.zero_le _)
    (min count maxBlock) state
  have hleft := player.waiting_renderFrom_inOrder (min count maxBlock) waiting state
  rw [Nat.zero_add, List.nil_append, takeWhile_eq_filter hsorted] at htells
  refine ⟨htells.countP_eq, ?_, ?_, ?_, rfl⟩
  · rw [moments, renderBlock, htells.starts_eq]
    exact hperm.filter _
  · rw [leftOver, hleft]
    exact hperm.filter _
  · rw [leftOver, hleft]
    exact fun note hmem => of_decide_eq_true (List.mem_filter.mp hmem).2

theorem length_samples_renderBlock (count : Nat) (waiting : List (Queued α)) (state : σ) :
    (player.renderBlock count waiting state).samples.length = min count maxBlock :=
  player.length_samples_renderFrom ..

end Player

/-! ## Between blocks -/

namespace Renderer

/-- A renderer between blocks: no note waits in an instrument, and the mix has room for the longest
block. -/
structure Rested (renderer : Renderer) : Prop extends renderer.Idle where
  length_mix : renderer.mix.length = maxBlock

theorem rested_new (sampleRate : Nat) : (new sampleRate).Rested where
  drums := rfl
  bass := rfl
  synth := rfl
  length_mix := List.length_replicate

/-- The instruments render as many frames as they are asked for, and the rest of the mix stays. -/
theorem length_mix_mixBlock (renderer : Renderer) (noise : Noise) {frames : Nat}
    (hfits : frames ≤ maxBlock) (hroom : frames ≤ renderer.mix.length) :
    (renderer.mixBlock noise frames).1.mix.length = renderer.mix.length := by
  have hdrums : (renderer.drums.process noise frames).1.length = min frames maxBlock :=
    Player.length_samples_renderBlock ..
  have htones : ∀ synth : MonoSynth, (synth.process frames).1.length = min frames maxBlock :=
    fun _ => Player.length_samples_renderBlock ..
  simp only [mixBlock, List.length_append, List.length_drop, List.length_zipWith, List.length_map,
    hdrums, htones]
  omega

theorem Rested.step {state : RenderState} (h : state.renderer.Rested) {step : RenderStep}
    (hfits : step.Fits) : (state.step step).renderer.Rested := by
  refine ⟨h.toIdle.step hfits, ?_⟩
  cases step with
  | rate sampleRate =>
    show (state.renderer.setRate sampleRate).mix.length = maxBlock
    rw [setRate]
    split <;> exact h.length_mix
  | read command => exact h.length_mix
  | block frames =>
    have hload : (state.renderer.load state.clock frames).mix.length = maxBlock := by
      rw [load_eq]
      exact h.length_mix
    refine (length_mix_mixBlock _ state.noise hfits.2 ?_).trans hload
    rw [hload]
    exact hfits.2

theorem Rested.run {state : RenderState} (h : state.renderer.Rested) {steps : List RenderStep}
    (hfits : ∀ step ∈ steps, step.Fits) : (state.run steps).renderer.Rested :=
  RenderState.run_induction (P := fun state => state.renderer.Rested)
    (fun _ _ hfits hrested => hrested.step hfits) hfits h

end Renderer

/-! ## Buffers -/

/-- A buffer of whole frames that a renderer is to fill, with the link as it is by then. -/
structure FillCall where
  link : EngineLink
  frames : Nat
  sampleRate : Nat
  channels : Nat

namespace FillCall

/-- The cue at which a deck fills the buffer. -/
def cue (call : FillCall) : DeckCue :=
  .fill call.frames call.sampleRate call.channels

/-- The renderer, put to the link of a call. -/
def deck (call : FillCall) (renderer : Renderer) : Deck :=
  ⟨renderer, call.link⟩

end FillCall

namespace Renderer

/-- The renderer when it has filled some buffers. -/
def filled (renderer : Renderer) (calls : List FillCall) : Renderer :=
  calls.foldl (fun renderer call => ((call.deck renderer).next call.cue).renderer) renderer

theorem Rested.filled {renderer : Renderer} (h : renderer.Rested) (calls : List FillCall) :
    (renderer.filled calls).Rested := by
  induction calls generalizing renderer with
  | nil => exact h
  | cons call rest ih =>
    have hrun : ((call.deck renderer).playing.run
        ((call.deck renderer).stepsAt call.cue)).renderer.Rested :=
      Rested.run h fun _ => Deck.fits_of_mem_stepsAt
    rw [← Deck.playing_next] at hrun
    exact ih hrun

end Renderer

/-- Whatever waits in an instrument and however many frames are asked of it, a block starts exactly
the notes before its end, each in the frame of its offset, and keeps exactly the others, whose
offsets are never less than what is taken off them.

Whatever buffers of whole frames a renderer has filled, and whatever it has found on its link each
time, no note waits in its instruments before or after a block of the next buffer, and no block is
longer than what an instrument renders at once, or than the mix. -/
theorem blocks_play_their_notes :
    (∀ (kit : DrumKit) (noise : Noise) (count : Nat),
      PlaysBlock (min count maxBlock) kit.waiting (kit.moments noise count)
        ((DrumKit.player kit.rate kit.params).leftOver count kit.waiting (kit.voices, noise))
        (kit.process noise count).2.1.waiting) ∧
    (∀ (synth : MonoSynth) (count : Nat),
      PlaysBlock (min count maxBlock) synth.waiting (synth.moments (.process count))
        ((MonoSynth.player synth.rate.toFloat synth.preset).leftOver count synth.waiting
          (synth.voices, synth.filter))
        (synth.process count).2.waiting) ∧
    ∀ (sampleRate : Nat) (calls : List FillCall) (call : FillCall),
      let deck := call.deck ((Renderer.new sampleRate).filled calls)
      deck.renderer.Idle ∧
      (deck.next call.cue).playing = deck.playing.run (deck.stepsAt call.cue) ∧
      ∀ first size rest, deck.stepsAt call.cue = first ++ .block size :: rest →
        let before := deck.playing.run first
        before.renderer.Idle ∧ size ≤ maxBlock ∧ size ≤ before.renderer.mix.length ∧
          (before.step (.block size)).renderer.Idle := by
  refine ⟨fun kit noise count => Player.playsBlock .., fun synth count => Player.playsBlock .., ?_⟩
  intro sampleRate calls call deck
  have hdeck : deck.renderer.Rested := (Renderer.rested_new sampleRate).filled calls
  refine ⟨hdeck.toIdle, deck.playing_next call.cue, ?_⟩
  intro first size rest hsteps before
  have hfits : ∀ step ∈ first ++ .block size :: rest, step.Fits :=
    fun _ hmem => Deck.fits_of_mem_stepsAt (hsteps ▸ hmem)
  obtain ⟨hfirst, hblock, _⟩ := List.forall_mem_append.mp hfits |>.imp_right List.forall_mem_cons.mp
  have hbefore : before.renderer.Rested := Renderer.Rested.run hdeck hfirst
  exact ⟨hbefore.toIdle, hblock.2, hbefore.length_mix ▸ hblock.2, hbefore.toIdle.step hblock⟩

/-- A buffer of two blocks, with a kick on the link that is for the second. -/
def kickInSecondBlock : FillCall :=
  ⟨(Deck.new.next (.send (.schedule ⟨4500, .drums, .hit .kick⟩))).link, 5000, 44100, 2⟩

/-- Before the second block, of 904 frames, no note waits in an instrument, and the mix has room for
the block; after it no note waits again. -/
theorem blocks_play_their_notes_kickInSecondBlock :
    let deck := kickInSecondBlock.deck ((Renderer.new 44100).filled [])
    let before := deck.playing.run
      [.rate 44100, .read (.schedule ⟨4500, .drums, .hit .kick⟩), .block 4096]
    before.renderer.Idle ∧ 904 ≤ maxBlock ∧ 904 ≤ before.renderer.mix.length ∧
      (before.step (.block 904)).renderer.Idle := by
  obtain ⟨_, _, hblocks⟩ := blocks_play_their_notes.2.2 44100 [] kickInSecondBlock
  exact hblocks [.rate 44100, .read (.schedule ⟨4500, .drums, .hit .kick⟩), .block 4096] 904 [] rfl

end Groovebox
