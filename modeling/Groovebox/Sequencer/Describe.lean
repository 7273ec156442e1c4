import Groovebox.Decimal.Layout
import Groovebox.Sequencer.Basic

/-! # What a sequencer tells

A sequencer tells its observers of its status, of the pattern sets that are handed in and of the
steps that are reached; a listener is an observer that keeps all this until it is asked.  For logs a
sequencer describes itself in one line.
-/

namespace Groovebox

/-! ## Listeners -/

/-- An observer that keeps what it is told until it is asked, and nothing once it is closed. -/
structure Listener where
  isOpen : Bool
  heard : List DisplayEvent
deriving Repr

namespace Listener

/-- A listener that has heard nothing yet. -/
def fresh : Listener := ⟨true, []⟩

/-- The listener after it is told an event. -/
def tell (listener : Listener) (event : DisplayEvent) : Listener :=
  if listener.isOpen then { listener with heard := listener.heard ++ [event] } else listener

/-- The listener after it is closed; what it has heard is lost. -/
def close (_ : Listener) : Listener := ⟨false, []⟩

/-- What a listener has heard since it was last asked. -/
def drain (listener : Listener) : List DisplayEvent × Listener :=
  (listener.heard, { listener with heard := [] })

end Listener

/-! ## A sequencer in one line -/

/-- The name of a state in summaries. -/
def TransportState.label : TransportState → String
  | stopped => "Stopped"
  | running => "Running"
  | paused => "Paused"

/-- A tempo in summaries. -/
def Tempo.describe (tempo : Tempo Float) : String :=
  "Tempo(" ++ doubleText tempo.bpm .compact "NaN" ++ ")"

/-- A sequencer in one line. -/
def Sequencer.describe (seq : Sequencer Float) : String :=
  Text.record "Sequencer" [
    ("state", seq.state.label),
    ("step", toString seq.step),
    ("tempo", seq.tempo.describe),
    ("cycle_length", toString seq.patterns.cycleLength),
    ("sinks", toString seq.observers)]

end Groovebox
