import Groovebox.Clock.TimeScale
import Groovebox.Signal

/-! # The state of the engine

What the control side and the audio side share.  The frames rendered so far are the audio clock.
-/

namespace Groovebox

/-- The state that both sides of the engine see. -/
structure EngineState where
  /-- Frames rendered since the stream opened. -/
  framesRendered : Nat
  /-- Frames in a second. -/
  sampleRate : Nat
  running : Bool
  masterGain : Float32
  /-- The greatest magnitude in the last rendered buffer. -/
  peak : Float32

namespace EngineState

/-- The state of an engine that has not been started: full level, at 44.1 kHz. -/
def fresh : EngineState := ⟨0, 44100, false, 1, 0⟩

/-- The last frame that a 64-bit counter reaches. -/
def lastFrame : Nat := Nat.pow 2 64 - 1

/-- The longest note, in frames, that a 32-bit counter holds. -/
def longestNote : Nat := Nat.pow 2 32 - 1

section Time

variable {τ : Type} [TimeScale τ]

/-- The audio time in seconds. -/
def now (state : EngineState) : τ :=
  TimeScale.ofNat state.framesRendered / TimeScale.ofNat state.sampleRate

/-- The whole number of frames nearest to a span; none in a negative one. -/
def framesIn (state : EngineState) (span : τ) : Nat :=
  TimeScale.roundNat (TimeScale.latest span (TimeScale.ofNat 0) * TimeScale.ofNat state.sampleRate)

/-- The frame of an audio time. -/
def frameAt (state : EngineState) (time : τ) : Nat :=
  min (state.framesIn time) lastFrame

/-- The length of a note in frames. -/
def noteFrames (state : EngineState) (duration : τ) : Nat :=
  min (state.framesIn duration) longestNote

end Time

/-! ## Master level -/

/-- The lowest master level in decibels. -/
def minVolume : Float := -40.0

/-- The highest master level in decibels. -/
def maxVolume : Float := 0.0

/-- Sets the master level to the nearest one in range; what is not a number changes nothing. -/
def setVolume (state : EngineState) (db : Float) : EngineState :=
  if db.isNaN then state
  else
    let db := if db < minVolume then minVolume else if maxVolume < db then maxVolume else db
    { state with masterGain := Signal.amplitude db.toFloat32 }

end EngineState

end Groovebox
