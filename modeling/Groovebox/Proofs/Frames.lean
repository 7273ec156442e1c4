import Groovebox.Proofs.Grid
import Groovebox.Proofs.Performance

/-!
# The frames of the grid

The engine puts every time at the nearest frame, and gives every note a whole number of frames.
Both are rounded from the exact numbers of seconds, never from one another, so that no error is
added up: however far a tick is from its anchor, its frame is off by at most half a frame
(`abs_roundNat_sub_le`), and a note that lasts one step ends at most one frame from the next tick
(`abs_roundNat_add_sub_le`).
-/

namespace Groovebox

/-! ## Rounding -/

namespace TimeScale

theorem roundNat_le_iff {x : Rat} {n : Nat} : roundNat x ≤ n ↔ x < n + 1 / 2 := by
  show (x + 1 / 2).floor.toNat ≤ n ↔ x < n + 1 / 2
  rw [Int.toNat_le, ← Int.lt_add_one_iff, ← not_le, Rat.le_floor_iff, not_le]
  push_cast
  constructor
  · intro h
    linarith
  · intro h
    linarith

theorem roundNat_mono {a b : Rat} (h : a ≤ b) : roundNat a ≤ roundNat b :=
  roundNat_le_iff.mpr (lt_of_le_of_lt h (roundNat_le_iff.mp le_rfl))

/-- A number is less than half above what it is rounded to. -/
theorem lt_roundNat_add_half (x : Rat) : x < roundNat x + 1 / 2 :=
  roundNat_le_iff.mp le_rfl

/-- A number that is not negative is at most half below what it is rounded to. -/
theorem roundNat_sub_half_le {x : Rat} (h : 0 ≤ x) : (roundNat x : Rat) - 1 / 2 ≤ x := by
  cases hround : roundNat x with
  | zero =>
    rw [Nat.cast_zero]
    linarith
  | succ n =>
    have hnot : ¬ roundNat x ≤ n := by omega
    rw [roundNat_le_iff, not_lt] at hnot
    push_cast
    linarith

theorem roundNat_natCast (n : Nat) : roundNat (n : Rat) = n := by
  apply le_antisymm
  · rw [roundNat_le_iff]
    linarith
  · by_contra hlt
    have hless : (n : Rat) < ((n - 1 : Nat) : Rat) + 1 / 2 :=
      roundNat_le_iff.mp (Nat.le_sub_one_of_lt (not_le.mp hlt))
    have hpos : 1 ≤ n := by omega
    rw [Nat.cast_sub hpos, Nat.cast_one] at hless
    linarith

/-- Rounding is off by at most a half. -/
theorem abs_roundNat_sub_le {x : Rat} (h : 0 ≤ x) : |(roundNat x : Rat) - x| ≤ 1 / 2 := by
  have hbelow := lt_roundNat_add_half x
  have habove := roundNat_sub_half_le h
  rw [abs_le]
  constructor <;> linarith

/-- Two numbers that are rounded each make at most one more or less than their sum rounded. -/
theorem abs_roundNat_add_sub_le {x y : Rat} (hx : 0 ≤ x) (hy : 0 ≤ y) :
    |((roundNat x + roundNat y : Nat) : Int) - (roundNat (x + y) : Nat)| ≤ 1 := by
  have hxbelow := lt_roundNat_add_half x
  have hybelow := lt_roundNat_add_half y
  have hsumbelow := lt_roundNat_add_half (x + y)
  have hxabove := roundNat_sub_half_le hx
  have hyabove := roundNat_sub_half_le hy
  have hsumabove := roundNat_sub_half_le (add_nonneg hx hy)
  -- the errors are less than one and a half together, and the difference is a whole number
  have hmore : roundNat x + roundNat y < roundNat (x + y) + 2 := by
    have hless : ((roundNat x + roundNat y : Nat) : Rat) < (roundNat (x + y) + 2 : Nat) := by
      push_cast
      linarith
    exact_mod_cast hless
  have hless : roundNat (x + y) < roundNat x + roundNat y + 2 := by
    have hless : (roundNat (x + y) : Rat) < (roundNat x + roundNat y + 2 : Nat) := by
      push_cast
      linarith
    exact_mod_cast hless
  rw [abs_le]
  omega

end TimeScale

/-! ## Frames of exact times -/

namespace EngineState

variable {state : EngineState}

/-- A time that is not negative is put at the nearest frame. -/
theorem framesIn_of_nonneg {time : Rat} (h : 0 ≤ time) :
    state.framesIn time = TimeScale.roundNat (time * state.sampleRate) := by
  show TimeScale.roundNat (TimeScale.latest time ((0 : Nat) : Rat) * state.sampleRate) = _
  rw [TimeScale.latest_eq_max, Nat.cast_zero, max_eq_left h]

theorem framesIn_mono {a b : Rat} (h : a ≤ b) : state.framesIn a ≤ state.framesIn b := by
  have hrate : (0 : Rat) ≤ state.sampleRate := Nat.cast_nonneg _
  refine TimeScale.roundNat_mono ?_
  rw [TimeScale.latest_eq_max, TimeScale.latest_eq_max]
  exact mul_le_mul_of_nonneg_right (max_le_max_right _ h) hrate

/-- Earlier times have earlier frames, or the same. -/
theorem frameAt_mono {a b : Rat} (h : a ≤ b) : state.frameAt a ≤ state.frameAt b :=
  min_le_min_right lastFrame (framesIn_mono h)

/-- The frame of the time that the clock shows is the one that is rendered next. -/
theorem frameAt_now (hrate : 0 < state.sampleRate) :
    state.frameAt (state.now : Rat) = min state.framesRendered lastFrame := by
  have hrate : (0 : Rat) < state.sampleRate := Nat.cast_pos.mpr hrate
  have hnow : (0 : Rat) ≤ (state.framesRendered : Rat) / state.sampleRate :=
    div_nonneg (Nat.cast_nonneg _) (le_of_lt hrate)
  have hspan : state.framesIn (state.now : Rat) = state.framesRendered := by
    show state.framesIn ((state.framesRendered : Rat) / state.sampleRate) = _
    rw [framesIn_of_nonneg hnow, div_mul_cancel₀ _ (ne_of_gt hrate), TimeScale.roundNat_natCast]
  rw [frameAt, hspan]

end EngineState

/-! ## Steps of the grid -/

/-- No step is longer than a second. -/
theorem Tempo.InRange.stepDuration_le_one {tempo : Tempo Rat} (h : tempo.InRange)
    (stepsPerBeat : Nat) : tempo.stepDuration stepsPerBeat ≤ 1 := by
  have hbpm : 0 < tempo.bpm := lt_of_lt_of_le (by norm_num) h.1
  have hsteps : (1 : Rat) ≤ (max stepsPerBeat 1 : Nat) := by
    exact_mod_cast Nat.le_max_right stepsPerBeat 1
  have hbeat : ((60 : Nat) : Rat) / tempo.bpm ≤ 1 := (div_le_one hbpm).mpr h.1
  show ((60 : Nat) : Rat) / tempo.bpm / (max stepsPerBeat 1 : Nat) ≤ 1
  exact (div_le_one (lt_of_lt_of_le one_pos hsteps)).mpr (hbeat.trans hsteps)

/-- The time of a tick, counted from the anchor. -/
theorem StepClock.timeOf_anchorTick_add (clock : StepClock Rat) (k : Nat) :
    clock.timeOf (clock.anchorTick + k) = clock.anchorTime + k * clock.stepDuration := by
  rw [timeOf_def, Nat.add_sub_cancel_left]

namespace EngineState

variable {state : EngineState}

/-- Whether the frame of a time is one that the engine can count to. -/
def Reaches (state : EngineState) (time : Rat) : Prop :=
  state.framesIn time ≤ lastFrame

theorem Reaches.frameAt_eq {time : Rat} (h : state.Reaches time) :
    state.frameAt time = state.framesIn time :=
  Nat.min_eq_left h

/-- A frame is at most half a frame from its time. -/
theorem Reaches.abs_frameAt_sub_le {time : Rat} (h : state.Reaches time) (htime : 0 ≤ time) :
    |(state.frameAt time : Rat) - time * state.sampleRate| ≤ 1 / 2 := by
  rw [h.frameAt_eq, framesIn_of_nonneg htime]
  exact TimeScale.abs_roundNat_sub_le (mul_nonneg htime (Nat.cast_nonneg _))

/-- A span that is laid on from a frame ends at most one frame from the time at which it is over. -/
theorem Reaches.abs_frameAt_add_sub_le {time span : Rat} (h : state.Reaches time)
    (htime : 0 ≤ time) (hspan : 0 ≤ span) :
    |((state.frameAt time + state.framesIn span : Nat) : Int) -
      (state.framesIn (time + span) : Nat)| ≤ 1 := by
  have hrate : (0 : Rat) ≤ state.sampleRate := Nat.cast_nonneg _
  rw [h.frameAt_eq, framesIn_of_nonneg htime, framesIn_of_nonneg hspan,
    framesIn_of_nonneg (add_nonneg htime hspan), add_mul]
  exact TimeScale.abs_roundNat_add_sub_le (mul_nonneg htime hrate) (mul_nonneg hspan hrate)

/-- A second has no more frames than a note can have. -/
theorem noteFrames_of_le_one (hword : state.sampleRate < 2 ^ 32) {duration : Rat}
    (hduration : 0 ≤ duration) (hle : duration ≤ 1) :
    state.noteFrames duration = state.framesIn duration := by
  have hspan : duration * state.sampleRate ≤ state.sampleRate := by
    have h := mul_le_mul_of_nonneg_right hle (Nat.cast_nonneg (α := Rat) state.sampleRate)
    rwa [one_mul] at h
  have hframes : state.framesIn duration ≤ state.sampleRate := by
    have h := TimeScale.roundNat_mono hspan
    rwa [TimeScale.roundNat_natCast, ← framesIn_of_nonneg hduration] at h
  refine Nat.min_eq_left (hframes.trans ?_)
  show state.sampleRate ≤ 2 ^ 32 - 1
  omega

/-- Each tick of a grid is put at the frame nearest to its exact place, at most half a frame off,
and no tick before an earlier one.  A tone that lasts one step is given the nearest number of
frames, which is never cut off, and ends at most one frame from the next tick.  How many ticks have
passed since the anchor does not matter. -/
theorem grid_frames_without_drift (state : EngineState) (hword : state.sampleRate < 2 ^ 32)
    (bpm : Rat) (stepsPerBeat : Nat) (clock : StepClock Rat) (hanchor : 0 ≤ clock.anchorTime)
    (hduration : clock.stepDuration = (Tempo.ofBpm bpm).stepDuration stepsPerBeat) :
    let rate : Rat := state.sampleRate
    let time (k : Nat) : Rat := clock.timeOf (clock.anchorTick + k)
    let frame (k : Nat) : Nat := state.frameAt (time k)
    let length : Nat := state.noteFrames clock.stepDuration
    (∀ k, state.Reaches (time k) →
        |(frame k : Rat) - (clock.anchorTime * rate + k * clock.stepDuration * rate)| ≤ 1 / 2) ∧
      (∀ j k, j ≤ k → frame j ≤ frame k) ∧
      length = state.framesIn clock.stepDuration ∧
      (∀ k token drum, DrumHit.ofName? token = some drum →
        state.noteFor? (.hit token (time k)) = some ⟨frame k, .drums, .hit drum⟩) ∧
      (∀ k track token pitch, Pitch.ofString? token = some pitch →
        state.noteFor? (.tone track token clock.stepDuration (time k)) =
          some ⟨frame k, track, .tone pitch.frequency length⟩) ∧
      ∀ k, state.Reaches (time k) →
        |((frame k + length : Nat) : Int) - (state.framesIn (time (k + 1)) : Nat)| ≤ 1 ∧
          (state.Reaches (time (k + 1)) →
            |((frame k + length : Nat) : Int) - (frame (k + 1) : Nat)| ≤ 1) := by
  intro rate time frame length
  have hrange := Tempo.inRange_ofBpm bpm
  have hpos : 0 ≤ clock.stepDuration := hduration ▸ le_of_lt (hrange.stepDuration_pos stepsPerBeat)
  have hlength : length = state.framesIn clock.stepDuration :=
    noteFrames_of_le_one hword hpos (hduration ▸ hrange.stepDuration_le_one stepsPerBeat)
  have htime : ∀ k, time k = clock.anchorTime + k * clock.stepDuration :=
    clock.timeOf_anchorTick_add
  have hnonneg : ∀ k, 0 ≤ time k := by
    intro k
    rw [htime]
    positivity
  have hnext : ∀ k, time (k + 1) = time k + clock.stepDuration := by
    intro k
    rw [htime, htime]
    push_cast
    ring
  have hend : ∀ k, state.Reaches (time k) →
      |((frame k + length : Nat) : Int) - (state.framesIn (time (k + 1)) : Nat)| ≤ 1 := by
    intro k hreaches
    rw [hlength, hnext]
    exact hreaches.abs_frameAt_add_sub_le (hnonneg k) hpos
  refine ⟨?_, ?_, hlength, ?_, ?_, ?_⟩
  · intro k hreaches
    have herror := hreaches.abs_frameAt_sub_le (hnonneg k)
    rwa [htime, add_mul, ← htime] at herror
  · intro j k hjk
    refine frameAt_mono ?_
    have hsteps : (j : Rat) * clock.stepDuration ≤ k * clock.stepDuration :=
      mul_le_mul_of_nonneg_right (Nat.cast_le.mpr hjk) hpos
    rw [htime, htime]
    linarith
  · intro k token drum hdrum
    rw [noteFor?, commandFor?, hdrum]
    rfl
  · intro k track token pitch hpitch
    rw [noteFor?, commandFor?, hpitch]
    rfl
  · intro k hreaches
    refine ⟨hend k hreaches, fun hreachesNext => ?_⟩
    show |_ - ((state.frameAt (time (k + 1)) : Nat) : Int)| ≤ 1
    rw [hreachesNext.frameAt_eq]
    exact hend k hreaches

/-- At 133 beats per minute a step has 9947.4 frames: two ticks on, a frame has been gained on the
end of the note. -/
theorem grid_frames_without_drift_uneven :
    let state : EngineState := .fresh
    let clock : StepClock Rat := ⟨0, 0, 30 / 133⟩
    state.sampleRate < 2 ^ 32 ∧ 0 ≤ clock.anchorTime ∧
      clock.stepDuration = (Tempo.ofBpm 133).stepDuration 2 ∧ state.Reaches (clock.timeOf 1) ∧
      state.frameAt (clock.timeOf 1) = 9947 ∧ state.noteFrames clock.stepDuration = 9947 ∧
      state.frameAt (clock.timeOf 2) = 19895 ∧
      |((9947 + 9947 : Nat) : Int) - (19895 : Nat)| ≤ 1 := by
  intro state clock
  have hword : state.sampleRate < 2 ^ 32 := by decide
  have hanchor : 0 ≤ clock.anchorTime := le_rfl
  have hduration : clock.stepDuration = (Tempo.ofBpm 133).stepDuration 2 := by decide +kernel
  have hreaches : state.framesIn (clock.timeOf 1) ≤ lastFrame ∧
      state.framesIn (clock.timeOf 2) ≤ lastFrame := by
    decide +kernel
  have hframes : state.frameAt (clock.timeOf 1) = 9947 ∧
      state.noteFrames clock.stepDuration = 9947 ∧ state.frameAt (clock.timeOf 2) = 19895 := by
    decide +kernel
  obtain ⟨_, _, _, _, _, hend⟩ :=
    state.grid_frames_without_drift hword 133 2 clock hanchor hduration
  have hnext := (hend 1 hreaches.1).2 hreaches.2
  change |((state.frameAt (clock.timeOf 1) + state.noteFrames clock.stepDuration : Nat) : Int) -
    (state.frameAt (clock.timeOf 2) : Nat)| ≤ 1 at hnext
  rw [hframes.1, hframes.2.1, hframes.2.2] at hnext
  exact ⟨hword, hanchor, hduration, hreaches.1, hframes.1, hframes.2.1, hframes.2.2, hnext⟩

end EngineState

end Groovebox
