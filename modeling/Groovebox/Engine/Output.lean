import Groovebox.Engine.Renderer

/-! # Output devices

The host has at most one default output device.  It can be asked for its name and format, and a
stream can be opened on it, which the device then asks for buffer after buffer.
-/

namespace Groovebox

/-- Why there is no output. -/
inductive OutputError where
  | noDevice
  | config (reason : String)
  | stream (reason : String)
deriving DecidableEq, Repr

/-- An output error in words. -/
def OutputError.message : OutputError → String
  | noDevice => "No audio output devices found"
  | config reason => "Failed to get default output config: " ++ reason
  | stream reason => "Failed to build output stream: " ++ reason

/-- An output device; each reason, where there is one, is what the respective request fails with. -/
structure OutputDevice where
  /-- The name, unless the device does not tell it. -/
  name : Option String
  sampleRate : Nat
  channels : Nat
  configError : Option String
  streamError : Option String
  playError : Option String

/-- What is known of an output device. -/
structure OutputInfo where
  name : String
  sampleRate : Nat
  channels : Nat
deriving DecidableEq, Repr

/-- The name and format of a device. -/
def OutputDevice.info (device : OutputDevice) : Except OutputError OutputInfo :=
  match device.configError with
  | some reason => .error (.config reason)
  | none => .ok ⟨device.name.getD "", device.sampleRate, device.channels⟩

/-- The name and format of the default device, if there is one. -/
def outputInfo : Option OutputDevice → Except OutputError OutputInfo
  | none => .error .noDevice
  | some device => device.info

/-- A stream as the device plays it, at the format that it was opened with. -/
structure OutputStream where
  renderer : Renderer
  sampleRate : Nat
  channels : Nat
  /-- A stopped stream plays nothing but silence. -/
  stopped : Bool

/-- The next buffer of a stream. -/
def OutputStream.fill (stream : OutputStream) (link : EngineLink) (samples : Nat) :
    List Float32 × OutputStream × EngineLink :=
  if stream.stopped then (List.replicate samples 0, stream, link)
  else
    let (buffer, renderer, link) :=
      stream.renderer.render link samples stream.sampleRate stream.channels
    (buffer, { stream with renderer := renderer }, link)

end Groovebox
