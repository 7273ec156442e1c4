import Groovebox.DrumHit
import Groovebox.Signal

/-! # Drum voices

Each voice synthesises one hit from decaying sines, squares and filtered noise.
-/

namespace Groovebox

/-- Levels and decays of the kit, from 0 to 1. -/
structure DrumParams where
  master : Float32
  kickLevel : Float32
  kickDecay : Float32
  snareLevel : Float32
  snareTone : Float32
  hatLevel : Float32
  hatDecay : Float32
  clapLevel : Float32
  tomLevel : Float32
  cymbalLevel : Float32
  /-- The level of the rim and the cowbell. -/
  percLevel : Float32

/-- The kit as it comes. -/
def DrumParams.standard : DrumParams where
  master := 0.8
  kickLevel := 0.9
  kickDecay := 0.5
  snareLevel := 0.8
  snareTone := 0.4
  hatLevel := 0.5
  hatDecay := 0.3
  clapLevel := 0.7
  tomLevel := 0.7
  cymbalLevel := 0.5
  percLevel := 0.6

/-- The closed and the open hat. -/
def DrumHit.isHat : DrumHit → Bool
  | hihat | openhat => true
  | _ => false

/-- The hits that have noise in their sound. -/
def DrumHit.isNoisy : DrumHit → Bool
  | snare | clap | hihat | openhat | rim | crash => true
  | kick | tom | cowbell => false

/-- One voice of the kit. -/
structure DrumVoice where
  hit : DrumHit
  active : Bool
  /-- Frames since the voice was struck. -/
  age : Nat
  phase : Float
  phase2 : Float
  ampEnv : Float
  pitchEnv : Float
  noiseEnv : Float
  /-- The bursts of a clap that are still to come. -/
  bursts : Nat
  /-- Frames since the last burst. -/
  burstTimer : Nat
  low : Float
  low2 : Float

namespace DrumVoice

/-- Envelopes below this level are not heard. -/
def silence : Float := 0.0001

/-- A voice that does not sound. -/
def idle : DrumVoice where
  hit := .kick
  active := false
  age := 0
  phase := 0
  phase2 := 0
  ampEnv := 0
  pitchEnv := 0
  noiseEnv := 0
  bursts := 0
  burstTimer := 0
  low := 0
  low2 := 0

/-- A voice that has just been struck. -/
def struck (hit : DrumHit) : DrumVoice :=
  { idle with
    hit := hit
    active := true
    ampEnv := 1
    pitchEnv := 1
    noiseEnv := 1
    bursts := if hit = .clap then 3 else 0 }

/-- The factor by which an envelope of a time constant falls in a time. -/
def fall (dt constant : Float) : Float :=
  Float.exp (-dt / constant)

/-- The sine of a phase in turns. -/
def sine (phase : Float) : Float :=
  Float.sin (phase * Signal.turn)

/-- The square of a phase in turns. -/
def square (phase : Float) : Float :=
  if 0 < sine phase then 1 else -1

/-! ## The sound of each hit -/

/-- A sine with a pitch sweep from four times 55 Hz. -/
def kick (voice : DrumVoice) (dt : Float) (params : DrumParams) : Float × DrumVoice :=
  let pitchEnv := voice.pitchEnv * fall dt 0.03
  let phase := voice.phase + 55.0 * (1.0 + pitchEnv * 3.0) * dt
  let ampEnv := voice.ampEnv * fall dt (0.1 + params.kickDecay.toFloat * 0.4)
  (sine phase * ampEnv * params.kickLevel.toFloat,
    { voice with pitchEnv := pitchEnv, phase := phase, ampEnv := ampEnv, noiseEnv := 0 })

/-- Two sines and a band of noise. -/
def snare (voice : DrumVoice) (dt white : Float) (params : DrumParams) : Float × DrumVoice :=
  let phase := voice.phase + 185.0 * dt
  let phase2 := voice.phase2 + 330.0 * dt
  let body := sine phase * 0.6 + sine phase2 * 0.4
  let ampEnv := voice.ampEnv * fall dt 0.03
  let low := voice.low + 0.15 * (white - voice.low)
  let low2 := voice.low2 + 0.1 * (low - voice.low2)
  let rattle := low - low2
  let noiseEnv := voice.noiseEnv * fall dt 0.1
  let tone := params.snareTone.toFloat
  let mix := body * ampEnv * tone + rattle * noiseEnv * 1.5 * (1.0 - tone * 0.3)
  (mix * params.snareLevel.toFloat,
    { voice with
      phase := phase, phase2 := phase2, ampEnv := ampEnv, low := low, low2 := low2,
      noiseEnv := noiseEnv })

/-- The burst of a clap: while bursts remain, the noise is struck anew every 17 ms. -/
def burst (voice : DrumVoice) (rate : Float32) : DrumVoice :=
  if voice.bursts = 0 then voice
  else if rate * 0.017 < Float32.ofNat (voice.burstTimer + 1) then
    { voice with burstTimer := 0, bursts := voice.bursts - 1, noiseEnv := 0.9 }
  else { voice with burstTimer := voice.burstTimer + 1 }

/-- Four bursts of noise. -/
def clap (voice : DrumVoice) (dt white : Float) (rate : Float32) (params : DrumParams) :
    Float × DrumVoice :=
  let voice := voice.burst rate
  let low := voice.low + 0.12 * (white - voice.low)
  let band := white - low * 1.8
  let noiseEnv := voice.noiseEnv * fall dt (if 0 < voice.bursts then 0.004 else 0.15)
  (Float.tanh (band * 1.5) * noiseEnv * params.clapLevel.toFloat,
    { voice with low := low, noiseEnv := noiseEnv, ampEnv := 0 })

/-- High noise. -/
def metal (voice : DrumVoice) (dt white decay : Float) (level : Float32) : Float × DrumVoice :=
  let low := voice.low + 0.3 * (white - voice.low)
  let ampEnv := voice.ampEnv * fall dt decay
  ((white - low) * ampEnv * level.toFloat,
    { voice with low := low, ampEnv := ampEnv, noiseEnv := 0 })

/-- A sine with a small pitch sweep to 120 Hz. -/
def tom (voice : DrumVoice) (dt : Float) (params : DrumParams) : Float × DrumVoice :=
  let pitchEnv := voice.pitchEnv * fall dt 0.05
  let phase := voice.phase + 120.0 * (1.0 + pitchEnv * 0.5) * dt
  let ampEnv := voice.ampEnv * fall dt 0.3
  (sine phase * ampEnv * params.tomLevel.toFloat,
    { voice with pitchEnv := pitchEnv, phase := phase, ampEnv := ampEnv, noiseEnv := 0 })

/-- A short tone with a click of noise. -/
def rim (voice : DrumVoice) (dt white : Float) (params : DrumParams) : Float × DrumVoice :=
  let phase := voice.phase + 500.0 * dt
  let ampEnv := voice.ampEnv * fall dt 0.015
  let noiseEnv := voice.noiseEnv * fall dt 0.005
  ((sine phase * 0.7 + white * noiseEnv * 0.3) * ampEnv * params.percLevel.toFloat,
    { voice with phase := phase, ampEnv := ampEnv, noiseEnv := noiseEnv })

/-- Two squares out of tune. -/
def cowbell (voice : DrumVoice) (dt : Float) (params : DrumParams) : Float × DrumVoice :=
  let phase := voice.phase + 560.0 * dt
  let phase2 := voice.phase2 + 845.0 * dt
  let mix := (square phase + square phase2) * 0.3
  let ampEnv := voice.ampEnv * fall dt 0.15
  (mix * ampEnv * params.percLevel.toFloat,
    { voice with phase := phase, phase2 := phase2, ampEnv := ampEnv, noiseEnv := 0 })

/-! ## One frame -/

/-- One frame of a voice's hit, with one draw of noise at hand. -/
def sound (voice : DrumVoice) (dt white : Float) (rate : Float32) (params : DrumParams) :
    Float × DrumVoice :=
  match voice.hit with
  | .kick => voice.kick dt params
  | .snare => voice.snare dt white params
  | .clap => voice.clap dt white rate params
  | .hihat => voice.metal dt white (0.02 + params.hatDecay.toFloat * 0.03) params.hatLevel
  | .openhat => voice.metal dt white (0.2 + params.hatDecay.toFloat * 0.3) params.hatLevel
  | .crash => voice.metal dt white 1.2 params.cymbalLevel
  | .tom => voice.tom dt params
  | .rim => voice.rim dt white params
  | .cowbell => voice.cowbell dt params

/-- A voice ends when both envelopes are silent. -/
def endSilent (voice : DrumVoice) : DrumVoice :=
  if voice.ampEnv < silence ∧ voice.noiseEnv < silence then { voice with active := false }
  else voice

/-- One frame of a voice.  Noise is drawn only for a sounding voice whose hit has noise in it. -/
def tick (voice : DrumVoice) (rate : Float32) (params : DrumParams) (noise : Noise) :
    Float32 × DrumVoice × Noise :=
  if !voice.active then (0, voice, noise)
  else
    let (white, noise) := if voice.hit.isNoisy then noise.draw else (0, noise)
    let (sample, voice) :=
      { voice with age := voice.age + 1 }.sound (1.0 / rate.toFloat) white rate params
    (sample.toFloat32, voice.endSilent, noise)

end DrumVoice

end Groovebox
