import Groovebox.Dispatch
import Groovebox.Engine.Command
import Groovebox.Engine.State
import Groovebox.Pitch
import Groovebox.Signal
import Groovebox.Text

/-! # The engine as a sound backend

Backend calls become engine commands bound to frames of the output.  Tokens that no instrument can
play are passed over.
-/

namespace Groovebox

/-- What the control side and the audio side of an engine work on together. -/
structure EngineLink where
  state : EngineState
  channel : CommandChannel
  /-- The noise that all instruments draw from. -/
  noise : Noise

namespace EngineLink

/-- The link of an engine that has not been started. -/
def fresh (noise : Noise) : EngineLink := ⟨.fresh, .empty, noise⟩

end EngineLink

/-- The command that a backend call becomes, if it becomes one. -/
def EngineState.commandFor? {τ : Type} [TimeScale τ] (state : EngineState) :
    BackendCall τ → Option EngineCommand
  | .hit token time =>
    (DrumHit.ofName? token).map fun drum =>
      .schedule ⟨state.frameAt time, .drums, .hit drum⟩
  | .tone track token duration time =>
    (Pitch.ofString? token).map fun pitch =>
      .schedule ⟨state.frameAt time, track, .tone pitch.frequency (state.noteFrames duration)⟩
  | .volume _ => none
  | .cancelAfter time => some (.cancelAfter (state.frameAt time))

namespace EngineLink

/-- Performs a backend call. -/
def perform {τ : Type} [TimeScale τ] (link : EngineLink) (call : BackendCall τ) : EngineLink :=
  match call with
  | .volume db => { link with state := link.state.setVolume db }
  | call =>
    match link.state.commandFor? call with
    | some command => { link with channel := link.channel.send command }
    | none => link

/-- The backend in one line. -/
def describe (link : EngineLink) : String :=
  Text.record "EngineBackend" [("queued", toString link.channel.waiting.length)]

end EngineLink

end Groovebox
