import Groovebox.Decimal.Layout
import Groovebox.Instrument.Block
import Groovebox.Instrument.DrumVoice
import Groovebox.Text

/-! # The drum kit

Twelve voices of one-shot drums.  A hit strikes the voice that sounds it already, else a free one,
and the two hats choke each other.
-/

namespace Groovebox

/-- The drum kit. -/
structure DrumKit where
  rate : Float32
  voices : List DrumVoice
  waiting : List (Queued DrumHit)
  params : DrumParams

namespace DrumKit

/-- The number of voices. -/
def voiceCount : Nat := 12

/-- A silent kit. -/
def new (rate : Float32) (params : DrumParams) : DrumKit :=
  ⟨rate, List.replicate voiceCount .idle, [], params⟩

/-- The name of the instrument. -/
def name : String := "Drum Kit"

/-- The number of voices that sound. -/
def activeVoices (kit : DrumKit) : Nat :=
  kit.voices.countP (·.active)

/-- Lets a note wait, if it is a hit. -/
def queue (kit : DrumKit) (note : Note) (offset : Nat) : DrumKit :=
  match note.hit? with
  | some hit => { kit with waiting := kit.waiting ++ [⟨hit, offset⟩] }
  | none => kit

/-- Silences every voice and drops the notes that wait. -/
def allOff (kit : DrumKit) : DrumKit :=
  { kit with
    waiting := []
    voices := kit.voices.map fun voice => { voice with active := false } }

/-- Sets the sample rate. -/
def setRate (kit : DrumKit) (rate : Float32) : DrumKit :=
  { kit with rate := rate }

/-! ## Striking -/

/-- A hat silences both hats. -/
def choke (voices : List DrumVoice) (hit : DrumHit) : List DrumVoice :=
  if hit.isHat then
    voices.map fun voice => if voice.hit.isHat then { voice with active := false } else voice
  else voices

/-- The voice to strike: the one that sounds the hit, else the first free one, else the oldest. -/
def voiceFor (voices : List DrumVoice) (hit : DrumHit) : Nat :=
  match voices.findIdx? fun voice => voice.active && voice.hit == hit with
  | some index => index
  | none =>
    match voices.findIdx? fun voice => !voice.active with
    | some index => index
    | none => lastMaxIndex (voices.map (·.age))

/-- Strikes a hit. -/
def strike (voices : List DrumVoice) (hit : DrumHit) : List DrumVoice :=
  let voices := choke voices hit
  voices.set (voiceFor voices hit) (.struck hit)

/-! ## Rendering -/

/-- One frame of each voice in turn, their samples added to a sum. -/
def tickVoices (rate : Float32) (params : DrumParams) (sum : Float32) :
    List DrumVoice → Noise → Float32 × List DrumVoice × Noise
  | [], noise => (sum, [], noise)
  | voice :: voices, noise =>
    let (sample, voice, noise) := voice.tick rate params noise
    let (sum, voices, noise) := tickVoices rate params (sum + sample) voices noise
    (sum, voice :: voices, noise)

/-- How the kit plays: the voices and the noise that they share are its state. -/
def player (rate : Float32) (params : DrumParams) : Player (List DrumVoice × Noise) DrumHit where
  start := fun (voices, noise) hit => (strike voices hit, noise)
  frame := fun (voices, noise) =>
    let (mix, voices, noise) := tickVoices rate params 0 voices noise
    (Float32.tanh (mix * params.master), voices, noise)

/-- Renders a block. -/
def process (kit : DrumKit) (noise : Noise) (frames : Nat) : List Float32 × DrumKit × Noise :=
  let rendered := (player kit.rate kit.params).renderBlock frames kit.waiting (kit.voices, noise)
  (rendered.samples,
    { kit with voices := rendered.state.1, waiting := rendered.waiting }, rendered.state.2)

/-- The kit in one line. -/
def describe (kit : DrumKit) : String :=
  Text.record "DrumKit" [
    ("sample_rate", singleText kit.rate .compact "NaN"),
    ("active_voices", toString kit.activeVoices)]

end DrumKit

end Groovebox
