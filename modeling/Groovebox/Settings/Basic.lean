import Groovebox.Clock.StepClock
import Groovebox.Sequencer.Config

/-! # Settings

What the program remembers from one run to the next.
-/

namespace Groovebox

/-- The settings of the program. -/
structure Settings where
  /-- The tempo to begin with, in beats per minute. -/
  tempo : Float
  sequencer : SequencerConfig Float
  /-- The master level in decibels. -/
  volume : Float

namespace Settings

/-- The settings of a program that was told none. -/
def standard : Settings where
  tempo := Tempo.standard.bpm
  sequencer := .standard
  volume := -6.0

/-- Whether all settings are the standard ones. -/
def isStandard (settings : Settings) : Bool :=
  settings.tempo == standard.tempo &&
    settings.volume == standard.volume &&
    settings.sequencer.stepsPerBeat == standard.sequencer.stepsPerBeat &&
    settings.sequencer.lookahead == standard.sequencer.lookahead &&
    settings.sequencer.pollMillis == standard.sequencer.pollMillis &&
    settings.sequencer.wrapPolicy == standard.sequencer.wrapPolicy

end Settings

end Groovebox
