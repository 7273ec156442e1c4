import Groovebox.Instrument.Block

/-!
# Moments of a block

While an instrument renders a block it starts notes and renders frames, one after another.  Each of
these is a `Moment`, kept with the state in which the instrument is then.  A player that is watched
keeps its moments, and plays as it would unwatched (`renderBlock_watched`).  So what is to be shown
of everything that happens within blocks is shown of one start and of one frame, and follows for
blocks by `renderBlock_induction` and for their moments by `of_mem_moments`.
-/

namespace Groovebox

/-- What a player does at a moment, with the state in which it does it. -/
inductive Moment (σ α : Type) where
  | start (state : σ) (item : α)
  | frame (state : σ)

/-- The state in which a player does something. -/
def Moment.before {σ α : Type} : Moment σ α → σ
  | start state _ => state
  | frame state => state

/-- Whether a frame is rendered. -/
def Moment.isFrame {σ α : Type} : Moment σ α → Bool
  | start .. => false
  | frame _ => true

namespace Player

variable {σ α : Type} (player : Player σ α)

/-- A player that keeps what it does, the latest first. -/
def watched : Player (σ × List (Moment σ α)) α where
  start := fun (state, moments) item => (player.start state item, .start state item :: moments)
  frame := fun (state, moments) =>
    let (sample, after) := player.frame state
    (sample, after, .frame state :: moments)

/-- The moments of a block, the latest first. -/
def moments (count : Nat) (waiting : List (Queued α)) (state : σ) : List (Moment σ α) :=
  (player.watched.renderBlock count waiting (state, [])).state.2

/-! ## Induction over blocks -/

variable {player}

theorem startAll_induction {P : σ → Prop}
    (hstart : ∀ state item, P state → P (player.start state item)) (notes : List (Queued α))
    {state : σ} (h : P state) : P (player.startAll notes state) := by
  induction notes generalizing state with
  | nil => exact h
  | cons note rest ih => exact ih (hstart state note.item h)

theorem renderFrom_induction {P : σ → Prop}
    (hstart : ∀ state item, P state → P (player.start state item))
    (hframe : ∀ state, P state → P (player.frame state).2) (count frame : Nat)
    (waiting : List (Queued α)) {state : σ} (h : P state) :
    P (player.renderFrom count frame waiting state).state := by
  induction count generalizing frame waiting state with
  | zero => exact h
  | succ count ih =>
    have hstarted := startAll_induction hstart (waiting.takeWhile (·.offset ≤ frame)) h
    exact ih (frame + 1) (waiting.dropWhile (·.offset ≤ frame)) (hframe _ hstarted)

/-- What every start and every frame keeps is kept by a block. -/
theorem renderBlock_induction {P : σ → Prop}
    (hstart : ∀ state item, P state → P (player.start state item))
    (hframe : ∀ state, P state → P (player.frame state).2) (count : Nat)
    (waiting : List (Queued α)) {state : σ} (h : P state) :
    P (player.renderBlock count waiting state).state :=
  renderFrom_induction hstart hframe (min count maxBlock) 0 (inOrder waiting) h

/-! ## Watching changes nothing -/

variable (player)

theorem startAll_watched (notes : List (Queued α)) (state : σ) (log : List (Moment σ α)) :
    (player.watched.startAll notes (state, log)).1 = player.startAll notes state := by
  induction notes generalizing state log with
  | nil => rfl
  | cons note rest ih => exact ih (player.start state note.item) (.start state note.item :: log)

theorem renderFrom_watched (count frame : Nat) (waiting : List (Queued α)) (state : σ)
    (log : List (Moment σ α)) :
    let rendered := player.watched.renderFrom count frame waiting (state, log)
    player.renderFrom count frame waiting state =
      ⟨rendered.samples, rendered.waiting, rendered.state.1⟩ := by
  induction count generalizing frame waiting state log with
  | zero => rfl
  | succ count ih =>
    have hstarted := player.startAll_watched (waiting.takeWhile (·.offset ≤ frame)) state log
    simp only [renderFrom]
    generalize player.watched.startAll (waiting.takeWhile (·.offset ≤ frame)) (state, log) =
      started at hstarted ⊢
    obtain ⟨started, log'⟩ := started
    subst hstarted
    simp only [watched]
    rw [ih]
    rfl

/-- A watched player plays as it would unwatched. -/
theorem renderBlock_watched (count : Nat) (waiting : List (Queued α)) (state : σ) :
    let rendered := player.watched.renderBlock count waiting (state, [])
    player.renderBlock count waiting state =
      ⟨rendered.samples, rendered.waiting, rendered.state.1⟩ := by
  unfold renderBlock
  simp only [player.renderFrom_watched _ _ _ state []]

/-- What every start and every frame keeps holds at every moment of a block. -/
theorem of_mem_moments {P : σ → Prop} (hstart : ∀ state item, P state → P (player.start state item))
    (hframe : ∀ state, P state → P (player.frame state).2) (count : Nat)
    (waiting : List (Queued α)) {state : σ} (h : P state) :
    ∀ moment ∈ player.moments count waiting state, P moment.before := by
  let Kept (watched : σ × List (Moment σ α)) : Prop :=
    P watched.1 ∧ ∀ moment ∈ watched.2, P moment.before
  have hnew : Kept (state, []) := ⟨h, by simp⟩
  have hkept : Kept (player.watched.renderBlock count waiting (state, [])).state := by
    refine renderBlock_induction ?_ ?_ count waiting hnew
    · rintro ⟨state, log⟩ item ⟨hstate, hlog⟩
      exact ⟨hstart state item hstate, List.forall_mem_cons.mpr ⟨hstate, hlog⟩⟩
    · rintro ⟨state, log⟩ ⟨hstate, hlog⟩
      exact ⟨hframe state hstate, List.forall_mem_cons.mpr ⟨hstate, hlog⟩⟩
  exact hkept.2

end Player

end Groovebox
