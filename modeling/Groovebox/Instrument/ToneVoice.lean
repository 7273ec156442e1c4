import Groovebox.Signal

/-! # Tone voices

A tone voice is one or two oscillators with a sine an octave below, under an envelope that rises
while the note is held and then fades.
-/

namespace Groovebox

/-- The shape of an oscillator. -/
inductive Waveform where
  | saw
  | square
  | triangle
deriving DecidableEq, Repr

/-- The sample of a waveform at a phase in turns. -/
def Waveform.sample (waveform : Waveform) (phase : Float) : Float :=
  let t := phase - (if phase < 0 then phase.ceil else phase.floor)
  match waveform with
  | saw => 2.0 * t - 1.0
  | square => if t < 0.5 then 1.0 else -1.0
  | triangle => 1.0 - 4.0 * (t - 0.5).abs

/-- The settings of a melodic track. -/
structure SynthPreset where
  name : String
  waveform : Waveform
  /-- How far the second oscillator is out of tune, in cents; 0 switches it off. -/
  detuneCents : Float
  cutoffHz : Float32
  attackSecs : Float
  releaseSecs : Float
  level : Float32

namespace SynthPreset

/-- The bass track: one dark saw. -/
def bass : SynthPreset where
  name := "Bass"
  waveform := .saw
  detuneCents := 0.0
  cutoffHz := 700.0
  attackSecs := 0.005
  releaseSecs := 0.06
  level := 0.6

/-- The synth track: two squares. -/
def lead : SynthPreset where
  name := "Synth"
  waveform := .square
  detuneCents := 7.0
  cutoffHz := 2800.0
  attackSecs := 0.01
  releaseSecs := 0.12
  level := 0.35

end SynthPreset

/-- One voice of a synth. -/
structure ToneVoice where
  active : Bool
  frequency : Float
  phase : Float
  phase2 : Float
  envelope : Float
  /-- Frames until the note is let go. -/
  gate : Nat
  /-- Frames since the note began. -/
  age : Nat

namespace ToneVoice

/-- A voice that does not sound. -/
def idle : ToneVoice := ⟨false, 0, 0, 0, 0, 0, 0⟩

/-- Starts a note of at least one frame.  The envelope goes on from where it is, so that a voice
taken from another note does not click. -/
def start (voice : ToneVoice) (frequency : Float) (frames : Nat) : ToneVoice :=
  { idle with
    active := true
    frequency := frequency
    gate := max frames 1
    envelope := voice.envelope }

/-- The envelope one frame later: it rises to 1 while the note is held, then fades until it is too
low to hear. -/
def stepEnvelope (voice : ToneVoice) (rate : Float) (preset : SynthPreset) : ToneVoice :=
  if 0 < voice.gate then
    let rise := 1.0 / Signal.atLeast 1.0 (preset.attackSecs * rate)
    { voice with
      gate := voice.gate - 1
      envelope := Signal.atMost 1.0 (voice.envelope + rise) }
  else
    let fade := Float.exp (-1.0 / Signal.atLeast 1.0 (preset.releaseSecs * rate))
    let envelope := voice.envelope * fade
    { voice with envelope := envelope, active := !(envelope < 0.0001) }

/-- The oscillators one frame later, with their mix. -/
def stepOscillators (voice : ToneVoice) (rate : Float) (preset : SynthPreset) :
    Float × ToneVoice :=
  let phase := voice.phase + voice.frequency / rate
  let first := preset.waveform.sample phase
  if preset.detuneCents != 0.0 then
    let ratio := Float.pow 2.0 (preset.detuneCents / 1200.0)
    let phase2 := voice.phase2 + voice.frequency * ratio / rate
    ((first + preset.waveform.sample phase2) * 0.5,
      { voice with phase := phase, phase2 := phase2 })
  else (first, { voice with phase := phase })

/-- One frame of a voice. -/
def tick (voice : ToneVoice) (rate : Float) (preset : SynthPreset) : Float × ToneVoice :=
  if !voice.active then (0, voice)
  else
    let voice := { voice with age := voice.age + 1 }.stepEnvelope rate preset
    let (mix, voice) := voice.stepOscillators rate preset
    let sub := Float.sin (voice.phase * Signal.turn * 0.5) * 0.2
    ((mix + sub) * voice.envelope, voice)

end ToneVoice

end Groovebox
