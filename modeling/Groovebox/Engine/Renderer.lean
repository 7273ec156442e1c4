import Groovebox.Engine.Backend
import Groovebox.Instrument.DrumKit
import Groovebox.Instrument.MonoSynth

/-! # The renderer

The audio side of the engine.  It reads the commands, hands each queued note to its instrument in
the block that reaches the note's frame, mixes the instruments and writes the mix to every channel
of an interleaved buffer.
-/

namespace Groovebox

/-- The audio side of an engine. -/
structure Renderer where
  queue : List ScheduledNote
  drums : DrumKit
  bass : MonoSynth
  synth : MonoSynth
  /-- The mix of the last block, in front of what earlier and longer blocks have left. -/
  mix : List Float32
  sampleRate : Nat

namespace Renderer

/-- A silent renderer. -/
def new (sampleRate : Nat) : Renderer :=
  let rate := Float32.ofNat sampleRate
  ⟨[], .new rate .standard, .new .bass rate, .new .lead rate, List.replicate maxBlock 0, sampleRate⟩

/-- Follows a new sample rate. -/
def setRate (renderer : Renderer) (sampleRate : Nat) : Renderer :=
  if sampleRate = renderer.sampleRate then renderer
  else
    let rate := Float32.ofNat sampleRate
    { renderer with
      sampleRate := sampleRate
      drums := renderer.drums.setRate rate
      bass := renderer.bass.setRate rate
      synth := renderer.synth.setRate rate }

/-! ## The queue -/

/-- The queue after a command. -/
def obey (queue : List ScheduledNote) : EngineCommand → List ScheduledNote
  | .schedule note => queue ++ [note]
  | .cancelAfter frame => queue.filter (·.frame ≤ frame)

/-- A list with its last entry moved to the front. -/
def lastToFront {α : Type} (xs : List α) : List α :=
  match xs.getLast? with
  | some last => last :: xs.dropLast
  | none => []

/-- Moving the last entry keeps the length. -/
@[simp] theorem length_lastToFront {α : Type} (xs : List α) :
    (lastToFront xs).length = xs.length := by
  unfold lastToFront
  split
  · next h =>
    have hne : xs ≠ [] := by rintro rfl; simp at h
    have := List.length_pos_iff.mpr hne
    simp only [List.length_cons, List.length_dropLast]
    omega
  · next h => simp_all

/-- Takes the notes before a frame out of the queue, the first list, and leaves the others.  The
last note of the queue takes the place of each note taken out. -/
def takeDue (blockEnd : Nat) : List ScheduledNote → List ScheduledNote × List ScheduledNote
  | [] => ([], [])
  | note :: rest =>
    if blockEnd ≤ note.frame then
      let (due, left) := takeDue blockEnd rest
      (due, note :: left)
    else
      let (due, left) := takeDue blockEnd (lastToFront rest)
      (note :: due, left)
termination_by queue => queue.length

/-- Hands a note to the instrument of its track.  A note of the past plays at the top of the
block. -/
def handOver (renderer : Renderer) (blockStart : Nat) (note : ScheduledNote) : Renderer :=
  let offset := note.frame - blockStart
  match note.track with
  | .drums => { renderer with drums := renderer.drums.queue note.note offset }
  | .bass => { renderer with bass := renderer.bass.queue note.note offset }
  | .synth => { renderer with synth := renderer.synth.queue note.note offset }

/-! ## Rendering -/

/-- The instruments render a block, which becomes the front of the mix. -/
def mixBlock (renderer : Renderer) (noise : Noise) (frames : Nat) : Renderer × Noise :=
  let (drums, kit, noise) := renderer.drums.process noise frames
  let (low, bass) := renderer.bass.process frames
  let (high, synth) := renderer.synth.process frames
  let block := ((drums.map (0 + ·)).zipWith (· + ·) low).zipWith (· + ·) high
  ({ renderer with
      drums := kit, bass := bass, synth := synth, mix := block ++ renderer.mix.drop frames },
    noise)

/-- The interleaved samples of the mix at a gain.  Samples after the last whole frame of the block
take the mix on from there. -/
def interleave (mix : List Float32) (gain : Float32) (samples channels : Nat) : List Float32 :=
  ((mix.take ((samples + channels - 1) / channels)).flatMap fun sample =>
    List.replicate channels (sample * gain)).take samples

/-- Renders samples that make at most one block. -/
def renderBlock (renderer : Renderer) (link : EngineLink) (gain : Float32)
    (channels samples : Nat) : List Float32 × Renderer × EngineLink :=
  let frames := samples / channels
  let blockStart := link.state.framesRendered
  let blockEnd := blockStart + frames
  let (due, left) := takeDue blockEnd renderer.queue
  let renderer := due.foldl (·.handOver blockStart ·) { renderer with queue := left }
  let (renderer, noise) := renderer.mixBlock link.noise frames
  (interleave renderer.mix gain samples channels, renderer,
    { link with noise := noise, state := { link.state with framesRendered := blockEnd } })

/-- The sizes of the pieces, each as large as the limit but the last, that a number is cut into. -/
def pieces (limit total : Nat) : List Nat :=
  List.replicate (total / limit) limit ++ if total % limit = 0 then [] else [total % limit]

/-- Renders blocks of the given sizes one after another. -/
def renderBlocks (gain : Float32) (channels : Nat) :
    List Nat → Renderer → EngineLink → List Float32 × Renderer × EngineLink
  | [], renderer, link => ([], renderer, link)
  | samples :: rest, renderer, link =>
    let (block, renderer, link) := renderer.renderBlock link gain channels samples
    let (blocks, renderer, link) := renderBlocks gain channels rest renderer link
    (block ++ blocks, renderer, link)

/-- Fills an interleaved buffer of a number of samples.  The commands are read first, and the peak
of the buffer is noted last. -/
def render (renderer : Renderer) (link : EngineLink) (samples sampleRate channels : Nat) :
    List Float32 × Renderer × EngineLink :=
  let renderer := renderer.setRate sampleRate
  let renderer := { renderer with queue := link.channel.waiting.foldl obey renderer.queue }
  let link := { link with channel := link.channel.drained }
  let channels := max channels 1
  let (buffer, renderer, link) :=
    renderBlocks link.state.masterGain channels (pieces (maxBlock * channels) samples) renderer link
  let peak := buffer.foldl Signal.peakWith 0
  (buffer, renderer, { link with state := { link.state with peak := peak } })

end Renderer

end Groovebox
