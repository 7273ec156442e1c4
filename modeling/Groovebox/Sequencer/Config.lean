import Groovebox.Clock.TimeScale
import Groovebox.Pattern

/-! # Sequencer settings -/

namespace Groovebox

/-- How a sequencer is tuned. -/
structure SequencerConfig (τ : Type) where
  /-- Steps in a beat; two make eighth notes. -/
  stepsPerBeat : Nat
  /-- How far ahead of the audio clock ticks are dispatched, in seconds. -/
  lookahead : τ
  /-- How often the host should poll, in milliseconds. -/
  pollMillis : Nat
  wrapPolicy : WrapPolicy
deriving DecidableEq, Repr

namespace SequencerConfig

/-- Eighth notes, a tenth of a second ahead, polled forty times a second. -/
def standard {τ : Type} [TimeScale τ] : SequencerConfig τ where
  stepsPerBeat := 2
  lookahead := TimeScale.ofNat 1 / TimeScale.ofNat 10
  pollMillis := 25
  wrapPolicy := .silent

/-- The time between two polls in milliseconds, at least one. -/
def pollInterval {τ : Type} (config : SequencerConfig τ) : Nat :=
  max config.pollMillis 1

end SequencerConfig

end Groovebox
