import Groovebox.Instrument.Block
import Groovebox.Track

/-! # Engine commands

The control side sends commands through a channel to the audio side, which reads them in the order
in which they were sent.
-/

namespace Groovebox

/-- A note for a track's instrument at an absolute frame of the output. -/
structure ScheduledNote where
  frame : Nat
  track : Track
  note : Note

/-- What the control side tells the audio side. -/
inductive EngineCommand where
  | schedule (note : ScheduledNote)
  /-- Drop the queued notes later than a frame. -/
  | cancelAfter (frame : Nat)

/-- The commands that are sent and not read yet, the oldest first. -/
structure CommandChannel where
  waiting : List EngineCommand
  /-- Whether anyone will read the channel. -/
  isOpen : Bool

namespace CommandChannel

/-- An open channel without commands. -/
def empty : CommandChannel := ⟨[], true⟩

/-- Sends a command; it is lost when no one will read it. -/
def send (channel : CommandChannel) (command : EngineCommand) : CommandChannel :=
  if channel.isOpen then { channel with waiting := channel.waiting ++ [command] } else channel

/-- The channel after all commands are read. -/
def drained (channel : CommandChannel) : CommandChannel :=
  { channel with waiting := [] }

/-- The channel after its reader is gone, with what it had not read. -/
def close (_ : CommandChannel) : CommandChannel := ⟨[], false⟩

end CommandChannel

end Groovebox
