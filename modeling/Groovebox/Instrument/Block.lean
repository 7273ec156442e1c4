import Groovebox.DrumHit

/-! # Notes and blocks

An instrument is asked to play notes, and renders its sound in blocks of frames.  Notes wait with an
offset in frames from the start of the next block; each starts in the frame of its offset, notes of
one frame in the order in which they were queued, and those beyond the block wait on.
-/

namespace Groovebox

/-! ## Notes -/

/-- A note for an instrument. -/
inductive Note where
  | hit (drum : DrumHit)
  /-- A tone of a frequency in hertz, held for a number of frames. -/
  | tone (frequency : Float) (frames : Nat)

namespace Note

/-- The drum hit that a note plays, if it plays one. -/
def hit? : Note → Option DrumHit
  | .hit drum => some drum
  | .tone _ _ => none

/-- The frequency and length of the tone that a note plays, if it plays one. -/
def tone? : Note → Option (Float × Nat)
  | .hit _ => none
  | .tone frequency frames => some (frequency, frames)

end Note

/-! ## Blocks -/

/-- The most frames that an instrument renders in one block. -/
def maxBlock : Nat := 4096

/-- Something that waits for its frame. -/
structure Queued (α : Type) where
  item : α
  /-- Frames from the start of the next block. -/
  offset : Nat
deriving DecidableEq, Repr

/-- How an instrument starts a note, and how it renders one frame. -/
structure Player (σ α : Type) where
  start : σ → α → σ
  frame : σ → Float32 × σ

/-- What a block yields. -/
structure Rendered (σ α : Type) where
  samples : List Float32
  /-- The notes that were not started. -/
  waiting : List (Queued α)
  state : σ

namespace Player

variable {σ α : Type}

/-- Starts notes one after another. -/
def startAll (player : Player σ α) (notes : List (Queued α)) (state : σ) : σ :=
  notes.foldl (fun state note => player.start state note.item) state

/-- Renders a number of frames from a given one on.  The waiting notes are sorted by offset. -/
@[specialize] def renderFrom (player : Player σ α) :
    Nat → Nat → List (Queued α) → σ → Rendered σ α
  | 0, _, waiting, state => ⟨[], waiting, state⟩
  | count + 1, frame, waiting, state =>
    let started := player.startAll (waiting.takeWhile (·.offset ≤ frame)) state
    let (sample, played) := player.frame started
    let rest :=
      player.renderFrom count (frame + 1) (waiting.dropWhile (·.offset ≤ frame)) played
    { rest with samples := sample :: rest.samples }

/-- The notes that wait, in the order in which they start. -/
def inOrder (waiting : List (Queued α)) : List (Queued α) :=
  waiting.mergeSort fun a b => a.offset ≤ b.offset

/-- Renders a block of at most `maxBlock` frames and counts the offsets of the notes that wait on
from the block's end. -/
@[specialize] def renderBlock (player : Player σ α) (count : Nat) (waiting : List (Queued α))
    (state : σ) : Rendered σ α :=
  let frames := min count maxBlock
  let rendered := player.renderFrom frames 0 (inOrder waiting) state
  { rendered with
    waiting := rendered.waiting.map fun note => { note with offset := note.offset - frames } }

end Player

/-- The place of the last of the greatest entries. -/
def lastMaxIndex (entries : List Nat) : Nat :=
  (entries.zipIdx.foldl (fun best entry => if best.1 ≤ entry.1 then entry else best) (0, 0)).2

end Groovebox
