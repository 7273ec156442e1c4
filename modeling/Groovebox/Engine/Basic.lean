import Groovebox.Clock.AudioClock
import Groovebox.Engine.Output

/-! # The audio engine

The engine opens a stream on the default output device.  It is an audio clock, which counts the
frames of the running stream, and a sound backend, whose notes that stream plays.
-/

namespace Groovebox

/-- Why an engine does not start or stop. -/
inductive EngineError where
  | output (error : OutputError)
  | alreadyRunning
  | notRunning
deriving DecidableEq, Repr

/-- An engine error in words. -/
def EngineError.message : EngineError → String
  | output error => "Audio output error: " ++ error.message
  | alreadyRunning => "Engine already running"
  | notRunning => "Engine not running"

/-- An engine and the device that it plays on. -/
structure AudioEngine where
  link : EngineLink
  device : Option OutputDevice
  /-- The stream that the device plays; it stays with the device when the engine is done with it. -/
  stream : Option OutputStream
  /-- Whether the engine holds a stream. -/
  isRunning : Bool

namespace AudioEngine

/-- An engine that has not been started. -/
def new (device : Option OutputDevice) (noise : Noise) : AudioEngine :=
  ⟨.fresh noise, device, none, false⟩

/-- Puts another device in the place of the default one; its stream is gone with it. -/
def replaceDevice (engine : AudioEngine) (device : Option OutputDevice) : AudioEngine :=
  { engine with device := device, stream := none }

/-- The engine with its audio clock at zero, at a sample rate. -/
def rewind (engine : AudioEngine) (sampleRate : Nat) : AudioEngine :=
  { engine with
    link := { engine.link with
      state := { engine.link.state with framesRendered := 0, sampleRate := sampleRate } } }

/-- Opens a stream on a device.  The device takes the stream on before it is asked to play it. -/
def openStream (engine : AudioEngine) (device : OutputDevice) (info : OutputInfo) :
    AudioEngine × Except OutputError Unit :=
  match device.streamError with
  | some reason => (engine, .error (.stream reason))
  | none =>
    let stream := ⟨.new info.sampleRate, info.sampleRate, info.channels, false⟩
    let engine := { engine with stream := some stream }
    match device.playError with
    | some reason => (engine, .error (.stream reason))
    | none => (engine, .ok ())

/-- Notes whether the engine holds a stream, for itself and for those who see its state. -/
def setRunning (engine : AudioEngine) (running : Bool) : AudioEngine :=
  { engine with
    isRunning := running
    link := { engine.link with state := { engine.link.state with running := running } } }

/-- Starts the engine on a device. -/
def startOn (engine : AudioEngine) (device : OutputDevice) :
    AudioEngine × Except OutputError Unit :=
  match device.info with
  | .error error => (engine, .error error)
  | .ok info =>
    match (engine.rewind info.sampleRate).openStream device info with
    | (engine, .error error) => (engine, .error error)
    | (engine, .ok ()) => (engine.setRunning true, .ok ())

/-- Starts the engine on the default device; its audio clock begins at zero. -/
def start (engine : AudioEngine) : AudioEngine × Except EngineError Unit :=
  if engine.isRunning then (engine, .error .alreadyRunning)
  else match engine.device with
    | none => (engine, .error (.output .noDevice))
    | some device =>
      let (engine, result) := engine.startOn device
      (engine, result.mapError .output)

/-- Stops the engine; its stream falls silent. -/
def stop (engine : AudioEngine) : AudioEngine × Except EngineError Unit :=
  if engine.isRunning then
    let silenced := engine.stream.map fun stream => { stream with stopped := true }
    ({ engine with stream := silenced }.setRunning false, .ok ())
  else (engine, .error .notRunning)

/-- The engine as it leaves the stage: stopped, if it was running. -/
def release (engine : AudioEngine) : AudioEngine := engine.stop.1

/-- Starting the engine activates the audio clock. -/
def activate (engine : AudioEngine) : AudioEngine × Except Refusal Unit :=
  match engine.start with
  | (engine, .ok ()) => (engine, .ok ())
  | (engine, .error error) => (engine, .error (.audioInactive error.message))

/-- The device asks its stream for a buffer, if it has one. -/
def pull (engine : AudioEngine) (samples : Nat) : AudioEngine × Option (List Float32) :=
  match engine.stream with
  | none => (engine, none)
  | some stream =>
    let (buffer, stream, link) := stream.fill engine.link samples
    ({ engine with stream := some stream, link := link }, some buffer)

instance : AudioOutput AudioEngine Float where
  now engine := engine.link.state.now
  isActive := AudioEngine.isRunning
  activate := AudioEngine.activate
  perform engine call := { engine with link := engine.link.perform call }

end AudioEngine

end Groovebox
