import Groovebox.Proofs.Playing

/-!
# Blocks in parts

At the beginning of a block an instrument sorts all that waits, and at the end it counts the offsets
of what waits on from there.  So of two blocks in a row the second sorts what is sorted already, and
counts a second time.  Neither makes a difference: `stretch` is what a block would be if it could be
of any length, and a stretch is a part of it and then the rest (`stretch_add`).  So a stretch is
played and left alike however it is cut into blocks (`renderBlocks_eq_stretch`).
-/

namespace Groovebox

/-- To count from a later frame and from a still later one is to count from the last. -/
theorem Queued.sooner_sooner {α : Type} (n m : Nat) (queued : Queued α) :
    (queued.sooner n).sooner m = queued.sooner (n + m) :=
  congrArg (Queued.mk queued.item) (Nat.sub_sub queued.offset n m)

theorem Queued.map_sooner_map_sooner {α : Type} (n m : Nat) (queue : List (Queued α)) :
    (queue.map (sooner n)).map (sooner m) = queue.map (sooner (n + m)) := by
  rw [List.map_map]
  exact List.map_congr_left fun queued _ => sooner_sooner n m queued

namespace Player

variable {σ α : Type}

/-! ## What waits in order -/

theorem pairwise_inOrder (waiting : List (Queued α)) :
    (inOrder waiting).Pairwise (·.offset ≤ ·.offset) :=
  pairwise_sortedBy (·.offset) waiting

/-- What is in order is left as it is. -/
theorem inOrder_eq_self {waiting : List (Queued α)}
    (h : waiting.Pairwise (·.offset ≤ ·.offset)) : inOrder waiting = waiting :=
  List.mergeSort_of_pairwise (h.imp decide_eq_true)

variable (player : Player σ α)

/-- The notes that are beyond some frames are left, in their order. -/
theorem waiting_renderFrom_inOrder (count : Nat) (waiting : List (Queued α)) (state : σ) :
    (player.renderFrom count 0 (inOrder waiting) state).waiting =
      (inOrder waiting).filter (count ≤ ·.offset) := by
  rw [player.waiting_renderFrom (takeWhile_lt_zero _), Nat.zero_add,
    dropWhile_eq_filter (pairwise_inOrder waiting)]

/-! ## Stretches -/

/-- Renders a number of frames as one block does, however many they are. -/
def stretch (count : Nat) (waiting : List (Queued α)) (state : σ) : Rendered σ α :=
  let rendered := player.renderFrom count 0 (inOrder waiting) state
  { rendered with waiting := rendered.waiting.map (Queued.sooner count) }

theorem renderBlock_eq_stretch {count : Nat} (h : count ≤ maxBlock) (waiting : List (Queued α))
    (state : σ) : player.renderBlock count waiting state = player.stretch count waiting state := by
  rw [renderBlock, Nat.min_eq_left h]
  rfl

/-- The notes beyond a stretch wait on in their order, and each is as far from its end as it was
from the first frame after it: no offset is less than what is taken off it. -/
theorem waiting_stretch (count : Nat) (waiting : List (Queued α)) (state : σ) :
    (player.stretch count waiting state).waiting =
      ((inOrder waiting).filter (count ≤ ·.offset)).map (Queued.sooner count) := by
  rw [stretch, waiting_renderFrom_inOrder]

/-- What waits on is in order. -/
theorem inOrder_waiting_stretch (count : Nat) (waiting : List (Queued α)) (state : σ) :
    inOrder (player.stretch count waiting state).waiting =
      (player.stretch count waiting state).waiting := by
  refine inOrder_eq_self ?_
  rw [waiting_stretch]
  refine ((pairwise_inOrder waiting).filter _).map (Queued.sooner count) ?_
  exact fun _ _ hle => Nat.sub_le_sub_right hle count

/-- A stretch is its first part and then the rest. -/
theorem stretch_add (n m : Nat) (waiting : List (Queued α)) (state : σ) :
    player.stretch (n + m) waiting state =
      (player.stretch m (player.stretch n waiting state).waiting
        (player.stretch n waiting state).state).behind
          (player.stretch n waiting state).samples := by
  rw [stretch.eq_def _ m, inOrder_waiting_stretch]
  simp only [stretch, renderFrom_sooner, Queued.map_sooner_map_sooner, renderFrom_add _ n m,
    Nat.zero_add]
  rfl

/-! ## Blocks -/

/-- Two blocks are one block of both their lengths, if there is one so long. -/
theorem renderBlock_add {n m : Nat} (h : n + m ≤ maxBlock) (waiting : List (Queued α))
    (state : σ) :
    let first := player.renderBlock n waiting state
    player.renderBlock (n + m) waiting state =
      (player.renderBlock m first.waiting first.state).behind first.samples := by
  intro first
  have hn : n ≤ maxBlock := by omega
  have hm : m ≤ maxBlock := by omega
  have hfirst : first = player.stretch n waiting state :=
    player.renderBlock_eq_stretch hn waiting state
  rw [player.renderBlock_eq_stretch h, player.renderBlock_eq_stretch hm, hfirst, stretch_add]

/-- Renders blocks of some lengths one after another. -/
def renderBlocks : List Nat → List (Queued α) → σ → Rendered σ α
  | [], waiting, state => ⟨[], waiting, state⟩
  | count :: counts, waiting, state =>
    let first := player.renderBlock count waiting state
    (renderBlocks counts first.waiting first.state).behind first.samples

/-- However a stretch is cut into blocks, it is played and left alike. -/
theorem renderBlocks_eq_stretch {counts : List Nat} (hne : counts ≠ [])
    (h : ∀ count ∈ counts, count ≤ maxBlock) (waiting : List (Queued α)) (state : σ) :
    player.renderBlocks counts waiting state = player.stretch counts.sum waiting state := by
  induction counts generalizing waiting state with
  | nil => exact absurd rfl hne
  | cons count counts ih =>
    obtain ⟨hcount, hcounts⟩ := List.forall_mem_cons.mp h
    rw [renderBlocks, player.renderBlock_eq_stretch hcount, List.sum_cons]
    cases counts with
    | nil =>
      rw [renderBlocks, Rendered.behind, List.append_nil]
      rfl
    | cons next counts => rw [ih (List.cons_ne_nil next counts) hcounts, ← stretch_add]

end Player

/-! ## Instruments -/

theorem DrumKit.process_add {a b : Nat} (h : a + b ≤ maxBlock) (kit : DrumKit) (noise : Noise) :
    let first := kit.process noise a
    let second := first.2.1.process first.2.2 b
    kit.process noise (a + b) = (first.1 ++ second.1, second.2) := by
  intro first second
  rw [process, (player kit.rate kit.params).renderBlock_add h]
  rfl

theorem MonoSynth.process_add {a b : Nat} (h : a + b ≤ maxBlock) (synth : MonoSynth) :
    let first := synth.process a
    let second := first.2.process b
    synth.process (a + b) = (first.1 ++ second.1, second.2) := by
  intro first second
  rw [process, (player synth.rate.toFloat synth.preset).renderBlock_add h]
  rfl

/-- An instrument plays the same and is left the same, with all that waits in it, whether it renders
a block or the block's frames in two blocks. -/
theorem process_in_two_blocks {a b : Nat} (h : a + b ≤ maxBlock) :
    (∀ (kit : DrumKit) (noise : Noise),
      let first := kit.process noise a
      let second := first.2.1.process first.2.2 b
      kit.process noise (a + b) = (first.1 ++ second.1, second.2)) ∧
    ∀ synth : MonoSynth,
      let first := synth.process a
      let second := first.2.process b
      synth.process (a + b) = (first.1 ++ second.1, second.2) :=
  ⟨DrumKit.process_add h, MonoSynth.process_add h⟩

/-- A new kit with hits that wait out of order, two of them for one frame. -/
def fourWaiting : DrumKit :=
  { DrumKit.new 44100 .standard with
    waiting := [⟨.openhat, 3⟩, ⟨.kick, 1⟩, ⟨.hihat, 3⟩, ⟨.clap, 9⟩] }

/-- Five frames are played alike in one block and in two, of which the second starts the hats; the
clap waits on after both. -/
theorem process_in_two_blocks_fourWaiting :
    2 + 3 ≤ maxBlock ∧
      let first := fourWaiting.process ⟨1⟩ 2
      let second := first.2.1.process first.2.2 3
      fourWaiting.process ⟨1⟩ 5 = (first.1 ++ second.1, second.2) := by
  have hfits : 2 + 3 ≤ maxBlock := by decide
  exact ⟨hfits, (process_in_two_blocks hfits).1 fourWaiting ⟨1⟩⟩

end Groovebox
