import Groovebox.Proofs.Lists
import Groovebox.Proofs.RenderSteps
import Mathlib.Data.List.TakeWhile

/-!
# How an instrument plays what waits

An instrument sorts the notes that wait and starts each in its frame.  Rendering frames in one go is
rendering them in parts (`renderFrom_add`), notes that come later make no difference
(`renderFrom_append`), and neither does the frame that is counted from (`renderFrom_sooner`).
Frames start the waiting notes that are theirs, in the order in which they are sorted
(`renderFrom_noting`), and leave the others (`waiting_renderFrom`); so an instrument that is given
only notes of a block is idle again when the block is over (`Renderer.Idle.step`).
-/

namespace Groovebox

/-- What is rendered when some samples come first. -/
def Rendered.behind {σ α : Type} (samples : List Float32) (rendered : Rendered σ α) :
    Rendered σ α :=
  { rendered with samples := samples ++ rendered.samples }

namespace Player

variable {σ α : Type} (player : Player σ α)

/-! ## Frames in parts -/

/-- A frame, when the notes that are due have been started. -/
def playFrame (frame : Nat) (waiting : List (Queued α)) (state : σ) : Float32 × σ :=
  player.frame (player.startAll (waiting.takeWhile (·.offset ≤ frame)) state)

theorem renderFrom_succ (count frame : Nat) (waiting : List (Queued α)) (state : σ) :
    player.renderFrom (count + 1) frame waiting state =
      (player.renderFrom count (frame + 1) (waiting.dropWhile (·.offset ≤ frame))
        (player.playFrame frame waiting state).2).behind
          [(player.playFrame frame waiting state).1] := rfl

theorem length_samples_renderFrom (count frame : Nat) (waiting : List (Queued α)) (state : σ) :
    (player.renderFrom count frame waiting state).samples.length = count := by
  induction count generalizing frame waiting state with
  | zero => rfl
  | succ count ih =>
    rw [renderFrom_succ, Rendered.behind, List.singleton_append, List.length_cons, ih]

/-- Frames that are rendered in two parts are the same frames. -/
theorem renderFrom_add (n m frame : Nat) (waiting : List (Queued α)) (state : σ) :
    player.renderFrom (n + m) frame waiting state =
      (player.renderFrom m (frame + n) (player.renderFrom n frame waiting state).waiting
        (player.renderFrom n frame waiting state).state).behind
          (player.renderFrom n frame waiting state).samples := by
  induction n generalizing frame waiting state with
  | zero =>
    rw [Nat.zero_add]
    rfl
  | succ n ih =>
    rw [Nat.succ_add, renderFrom_succ, renderFrom_succ, ih, Nat.add_right_comm frame 1 n]
    rfl

/-- It does not matter which frame the offsets are counted from. -/
theorem renderFrom_sooner (count frame base : Nat) (waiting : List (Queued α)) (state : σ) :
    player.renderFrom count frame (waiting.map (Queued.sooner base)) state =
      let rendered := player.renderFrom count (frame + base) waiting state
      { rendered with waiting := rendered.waiting.map (Queued.sooner base) } := by
  induction count generalizing frame waiting state with
  | zero => rfl
  | succ count ih =>
    have hdue : (fun note : Queued α => decide (note.offset ≤ frame)) ∘ Queued.sooner base =
        fun note => decide (note.offset ≤ frame + base) := by
      funext note
      exact decide_eq_decide.mpr Nat.sub_le_iff_le_add
    have hplay : player.playFrame frame (waiting.map (Queued.sooner base)) state =
        player.playFrame (frame + base) waiting state := by
      rw [playFrame, playFrame, List.takeWhile_map, hdue, startAll, startAll, List.foldl_map]
      rfl
    rw [renderFrom_succ, renderFrom_succ, hplay, List.dropWhile_map, hdue, ih,
      Nat.add_right_comm]
    rfl

/-- Notes that come later make no difference. -/
theorem renderFrom_append {later : List (Queued α)} {count frame : Nat}
    (h : ∀ note ∈ later, frame + count ≤ note.offset) (waiting : List (Queued α)) (state : σ) :
    player.renderFrom count frame (waiting ++ later) state =
      let rendered := player.renderFrom count frame waiting state
      { rendered with waiting := rendered.waiting ++ later } := by
  induction count generalizing frame waiting state with
  | zero => rfl
  | succ count ih =>
    have hnone : later.takeWhile (·.offset ≤ frame) = [] := by
      refine List.takeWhile_eq_nil_iff.mpr fun hlength hdue => ?_
      have hle := h _ (List.get_mem later ⟨0, hlength⟩)
      have hdue := of_decide_eq_true hdue
      omega
    have htake : (waiting ++ later).takeWhile (·.offset ≤ frame) =
        waiting.takeWhile (·.offset ≤ frame) := by
      rw [List.takeWhile_append, hnone, List.append_nil]
      split
      · next hlength => exact ((List.takeWhile_prefix _).eq_of_length hlength).symm
      · rfl
    have hdrop : (waiting ++ later).dropWhile (·.offset ≤ frame) =
        waiting.dropWhile (·.offset ≤ frame) ++ later := by
      have hwhole :=
        List.takeWhile_append_dropWhile (p := (·.offset ≤ frame)) (l := waiting ++ later)
      have hfirst := List.takeWhile_append_dropWhile (p := (·.offset ≤ frame)) (l := waiting)
      rw [htake] at hwhole
      refine List.append_cancel_left (hwhole.trans ?_)
      rw [← List.append_assoc, hfirst]
    have hrest : ∀ note ∈ later, frame + 1 + count ≤ note.offset := by
      intro note hmem
      have hle := h note hmem
      omega
    rw [renderFrom_succ, renderFrom_succ, playFrame, playFrame, htake, hdrop, ih hrest]
    rfl

/-! ## The notes of a block -/

/-- The notes of some frames are those of the first frame and then those of the others. -/
theorem cut_succ (frame count : Nat) (waiting : List (Queued α)) :
    let later := waiting.dropWhile (·.offset ≤ frame)
    later.takeWhile (·.offset < frame + 1) = [] ∧
      waiting.takeWhile (·.offset ≤ frame) ++ later.takeWhile (·.offset < frame + 1 + count) =
        waiting.takeWhile (·.offset < frame + (count + 1)) ∧
      later.dropWhile (·.offset < frame + 1 + count) =
        waiting.dropWhile (·.offset < frame + (count + 1)) := by
  have hdue : (fun note : Queued α => decide (note.offset < frame + 1)) =
      fun note => decide (note.offset ≤ frame) := by
    funext note
    exact decide_eq_decide.mpr Nat.lt_succ_iff
  have hlater : ∀ note : Queued α, decide (note.offset ≤ frame) →
      decide (note.offset < frame + 1 + count) := by
    intro note hle
    have hle := of_decide_eq_true hle
    exact decide_eq_true (by omega)
  rw [Nat.add_comm count 1, ← Nat.add_assoc, hdue]
  exact ⟨List.append_right_eq_self.mp
    (takeWhile_append_takeWhile_dropWhile (fun _ => id) waiting).1,
    takeWhile_append_takeWhile_dropWhile hlater waiting⟩

/-- There is no frame before the first. -/
theorem takeWhile_lt_zero (waiting : List (Queued α)) :
    waiting.takeWhile (·.offset < 0) = [] := by
  cases waiting <;> rfl

/-- Frames leave the notes that come later. -/
theorem waiting_renderFrom {frame : Nat} {waiting : List (Queued α)}
    (h : waiting.takeWhile (·.offset < frame) = []) (count : Nat) (state : σ) :
    (player.renderFrom count frame waiting state).waiting =
      waiting.dropWhile (·.offset < frame + count) := by
  induction count generalizing frame waiting state with
  | zero =>
    have hall := List.takeWhile_append_dropWhile (p := (·.offset < frame)) (l := waiting)
    rw [h, List.nil_append] at hall
    exact hall.symm
  | succ count ih =>
    obtain ⟨hnext, _, hrest⟩ := cut_succ frame count waiting
    rw [renderFrom_succ, ← hrest]
    exact ih hnext (player.playFrame frame waiting state).2

/-- A player that notes down what it starts. -/
def noting : Player (σ × List α) α where
  start := fun (state, started) item => (player.start state item, started ++ [item])
  frame := fun (state, started) =>
    let (sample, state) := player.frame state
    (sample, state, started)

theorem startAll_noting (notes : List (Queued α)) (state : σ) (started : List α) :
    player.noting.startAll notes (state, started) =
      (player.startAll notes state, started ++ notes.map (·.item)) := by
  induction notes generalizing state started with
  | nil =>
    rw [List.map_nil, List.append_nil]
    rfl
  | cons note rest ih =>
    rw [List.map_cons, List.append_cons]
    exact ih (player.start state note.item) (started ++ [note.item])

theorem playFrame_noting (frame : Nat) (waiting : List (Queued α)) (state : σ) (started : List α) :
    player.noting.playFrame frame waiting (state, started) =
      ((player.playFrame frame waiting state).1, (player.playFrame frame waiting state).2,
        started ++ (waiting.takeWhile (·.offset ≤ frame)).map (·.item)) := by
  rw [playFrame, startAll_noting]
  rfl

/-- Frames start the notes that wait for one of them, in their order; to note them down changes
nothing else. -/
theorem renderFrom_noting {frame : Nat} {waiting : List (Queued α)}
    (h : waiting.takeWhile (·.offset < frame) = []) (count : Nat) (state : σ) (started : List α) :
    player.noting.renderFrom count frame waiting (state, started) =
      let rendered := player.renderFrom count frame waiting state
      ⟨rendered.samples, rendered.waiting, rendered.state,
        started ++ (waiting.takeWhile (·.offset < frame + count)).map (·.item)⟩ := by
  induction count generalizing frame waiting state started with
  | zero =>
    rw [Nat.add_zero, h, List.map_nil, List.append_nil]
    rfl
  | succ count ih =>
    obtain ⟨hnext, hcut, _⟩ := cut_succ frame count waiting
    rw [renderFrom_succ, renderFrom_succ, playFrame_noting, ih hnext, ← hcut, List.map_append,
      ← List.append_assoc]
    rfl

/-- A block starts all the notes that wait, if it is long enough, and none waits on. -/
theorem renderBlock_noting {frames : Nat} (hframes : frames ≤ maxBlock) {waiting : List (Queued α)}
    (h : ∀ note ∈ waiting, note.offset < frames) (state : σ) :
    (player.renderBlock frames waiting state).waiting = [] ∧
      (player.noting.renderBlock frames waiting (state, [])).state.2 =
        (inOrder waiting).map (·.item) := by
  have hnone := takeWhile_lt_zero (inOrder waiting)
  have hall : (inOrder waiting).takeWhile (·.offset < 0 + frames) = inOrder waiting := by
    rw [List.takeWhile_eq_self_iff, Nat.zero_add]
    intro note hmem
    exact decide_eq_true (h note ((sortedBy_perm _ waiting).subset hmem))
  have hrest : (inOrder waiting).dropWhile (·.offset < 0 + frames) = [] := by
    have hsplit := List.takeWhile_append_dropWhile (p := (·.offset < 0 + frames))
      (l := inOrder waiting)
    rwa [hall, List.append_right_eq_self] at hsplit
  have hwaiting := player.waiting_renderFrom hnone frames state
  have hnoting := player.renderFrom_noting hnone frames state []
  rw [hrest] at hwaiting
  rw [hall, List.nil_append] at hnoting
  rw [renderBlock, renderBlock, Nat.min_eq_left hframes, hnoting, hwaiting]
  exact ⟨rfl, rfl⟩

end Player

/-! ## Idle instruments -/

theorem DrumKit.waiting_process {kit : DrumKit} {frames : Nat} (hframes : frames ≤ maxBlock)
    (h : ∀ note ∈ kit.waiting, note.offset < frames) (noise : Noise) :
    (kit.process noise frames).2.1.waiting = [] :=
  ((player kit.rate kit.params).renderBlock_noting hframes h (kit.voices, noise)).1

theorem MonoSynth.waiting_process {synth : MonoSynth} {frames : Nat} (hframes : frames ≤ maxBlock)
    (h : ∀ note ∈ synth.waiting, note.offset < frames) :
    (synth.process frames).2.waiting = [] :=
  ((player synth.rate.toFloat synth.preset).renderBlock_noting hframes h
    (synth.voices, synth.filter)).1

/-- No instrument has a note that waits. -/
structure Renderer.Idle (renderer : Renderer) : Prop where
  drums : renderer.drums.waiting = []
  bass : renderer.bass.waiting = []
  synth : renderer.synth.waiting = []

namespace Renderer

/-- What is handed over for a block plays within the block. -/
theorem offset_lt_of_mem_select {β : Type} {item? : Note → Option β} {track : Track}
    {clock frames : Nat} (hframes : 0 < frames) {queue : List ScheduledNote} {queued : Queued β}
    (h : queued ∈ Queued.select item? (callsOn track clock (takeDue (clock + frames) queue).1)) :
    queued.offset < frames := by
  obtain ⟨call, hcall, hoffset⟩ := Queued.exists_of_mem_select h
  obtain ⟨timed, htimed, rfl⟩ := List.mem_map.mp hcall
  obtain ⟨note, hnote, rfl⟩ := List.mem_map.mp htimed
  have hlt := lt_of_mem_takeDue (List.mem_of_mem_filter hnote)
  rw [← hoffset]
  show note.frame - clock < frames
  omega

theorem Idle.setRate {renderer : Renderer} (h : renderer.Idle) (sampleRate : Nat) :
    (renderer.setRate sampleRate).Idle := by
  rw [Renderer.setRate]
  split
  · exact h
  · exact ⟨h.drums, h.bass, h.synth⟩

/-- What waits in idle instruments at the beginning of a block. -/
theorem Idle.load {renderer : Renderer} (h : renderer.Idle) (clock frames : Nat) :
    let due := (takeDue (clock + frames) renderer.queue).1
    (renderer.load clock frames).drums.waiting =
        Queued.select Note.hit? (callsOn .drums clock due) ∧
      (renderer.load clock frames).bass.waiting =
        Queued.select Note.tone? (callsOn .bass clock due) ∧
      (renderer.load clock frames).synth.waiting =
        Queued.select Note.tone? (callsOn .synth clock due) := by
  intro due
  rw [load_eq, receive, DrumKit.foldl_queue, MonoSynth.foldl_queue, MonoSynth.foldl_queue]
  exact ⟨congrArg (· ++ _) h.drums, congrArg (· ++ _) h.bass, congrArg (· ++ _) h.synth⟩

/-- Instruments that are idle are idle again after a step. -/
theorem Idle.step {state : RenderState} (h : state.renderer.Idle) {step : RenderStep}
    (hfits : step.Fits) : (state.step step).renderer.Idle := by
  cases step with
  | rate sampleRate => exact h.setRate sampleRate
  | read command => exact ⟨h.drums, h.bass, h.synth⟩
  | block frames =>
    obtain ⟨hdrums, hbass, hsynth⟩ := h.load state.clock frames
    refine ⟨DrumKit.waiting_process hfits.2 ?_ _, MonoSynth.waiting_process hfits.2 ?_,
      MonoSynth.waiting_process hfits.2 ?_⟩
    · rw [hdrums]
      exact fun _ => offset_lt_of_mem_select hfits.1
    · rw [hbass]
      exact fun _ => offset_lt_of_mem_select hfits.1
    · rw [hsynth]
      exact fun _ => offset_lt_of_mem_select hfits.1

theorem Idle.run {state : RenderState} (h : state.renderer.Idle) {steps : List RenderStep}
    (hfits : ∀ step ∈ steps, step.Fits) : (state.run steps).renderer.Idle :=
  RenderState.run_induction (P := fun state => state.renderer.Idle)
    (fun _ _ hfits hidle => hidle.step hfits) hfits h

end Renderer

end Groovebox
