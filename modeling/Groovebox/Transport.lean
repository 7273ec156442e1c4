import Groovebox.Pattern

/-! # Transport and display

The transport is stopped, running or paused.  Observers of the machine are told its status, the
pattern sets that are handed in, and each step when its audio time is reached.
-/

namespace Groovebox

/-- What the transport is doing. -/
inductive TransportState where
  | stopped
  | running
  | paused
deriving DecidableEq, Inhabited, Repr

/-- What observers are told of the transport. -/
inductive TransportStatus where
  | playing
  | paused
  | stopped
  /-- A start is asked for and the audio clock is being activated. -/
  | waitingForAudio
deriving DecidableEq, Inhabited, Repr

/-- The status that a state shows. -/
def TransportState.status : TransportState → TransportStatus
  | stopped => .stopped
  | running => .playing
  | paused => .paused

/-- What observers are told. -/
inductive DisplayEvent where
  /-- A tick's audio time is reached. -/
  | stepAdvance (step : Nat) (patterns : PatternSet)
  /-- A pattern set was handed in. -/
  | patternSetChanged (patterns : PatternSet)
  /-- The transport has a status. -/
  | status (status : TransportStatus)
deriving DecidableEq, Repr

end Groovebox
