import Groovebox.Clock.TimeScale

/-! # Tempo and step clocks

A tempo is a number of beats per minute between 60 and 200, and says how far apart steps are.  A
step clock maps tick numbers to times.  Each tick's time is computed from the anchor in one step, so
that a long loop gathers no rounding from tick to tick.
-/

namespace Groovebox

/-! ## Tempo -/

/-- Beats per minute. -/
structure Tempo (τ : Type) where
  bpm : τ
deriving DecidableEq, Repr

namespace Tempo

variable {τ : Type} [TimeScale τ]

/-- The slowest tempo. -/
def slowest : τ := TimeScale.ofNat 60

/-- The fastest tempo. -/
def fastest : τ := TimeScale.ofNat 200

/-- The tempo of a machine that was told none. -/
def standard : Tempo τ := ⟨TimeScale.ofNat 120⟩

/-- The tempo nearest to a requested one; a request that is not finite gives the standard tempo. -/
def ofBpm (bpm : τ) : Tempo τ :=
  if TimeScale.isFinite bpm then
    if bpm < slowest then ⟨slowest⟩
    else if fastest < bpm then ⟨fastest⟩
    else ⟨bpm⟩
  else standard

/-- Seconds for a step when a beat is split into a number of steps; a split into none counts as
one. -/
def stepDuration (tempo : Tempo τ) (stepsPerBeat : Nat) : τ :=
  TimeScale.ofNat 60 / tempo.bpm / TimeScale.ofNat (max stepsPerBeat 1)

end Tempo

/-! ## Step clocks -/

/-- A grid of ticks: one tick's number and time, and the time from each tick to the next. -/
structure StepClock (τ : Type) where
  anchorTick : Nat
  anchorTime : τ
  stepDuration : τ
deriving DecidableEq, Repr

namespace StepClock

variable {τ : Type} [TimeScale τ]

/-- The time of a tick; a tick before the anchor is given the anchor's time. -/
def timeOf (clock : StepClock τ) (tick : Nat) : τ :=
  clock.anchorTime + TimeScale.ofNat (tick - clock.anchorTick) * clock.stepDuration

/-- Keeps one tick where it is and spaces the later ones anew. -/
def retempo (clock : StepClock τ) (tick : Nat) (stepDuration : τ) : StepClock τ :=
  ⟨tick, clock.timeOf tick, stepDuration⟩

end StepClock

end Groovebox
