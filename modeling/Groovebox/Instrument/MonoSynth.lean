import Groovebox.Decimal.Layout
import Groovebox.Instrument.Block
import Groovebox.Instrument.ToneVoice
import Groovebox.Signal
import Groovebox.Text

/-! # The synth

Four tone voices through one lowpass filter.  A new tone takes a free voice, else the voice of the
oldest tone.
-/

namespace Groovebox

/-- A synth for one melodic track. -/
structure MonoSynth where
  rate : Float32
  preset : SynthPreset
  voices : List ToneVoice
  /-- Frequencies and lengths of the tones that wait. -/
  waiting : List (Queued (Float × Nat))
  filter : Lowpass

namespace MonoSynth

/-- The number of voices. -/
def voiceCount : Nat := 4

/-- A silent synth. -/
def new (preset : SynthPreset) (rate : Float32) : MonoSynth :=
  ⟨rate, preset, List.replicate voiceCount .idle, [],
    .new preset.cutoffHz.toFloat (0.707 : Float32).toFloat rate.toFloat⟩

/-- The number of voices that sound. -/
def activeVoices (synth : MonoSynth) : Nat :=
  synth.voices.countP (·.active)

/-- Lets a note wait, if it is a tone. -/
def queue (synth : MonoSynth) (note : Note) (offset : Nat) : MonoSynth :=
  match note.tone? with
  | some tone => { synth with waiting := synth.waiting ++ [⟨tone, offset⟩] }
  | none => synth

/-- Silences every voice and drops the notes that wait. -/
def allOff (synth : MonoSynth) : MonoSynth :=
  { synth with
    waiting := []
    voices := synth.voices.map fun voice => { voice with active := false, envelope := 0 } }

/-- Sets the sample rate. -/
def setRate (synth : MonoSynth) (rate : Float32) : MonoSynth :=
  { synth with rate := rate, filter := synth.filter.setRate rate.toFloat }

/-! ## Starting tones -/

/-- The voice for a new tone: the first free one, else the oldest. -/
def freeVoice (voices : List ToneVoice) : Nat :=
  match voices.findIdx? fun voice => !voice.active with
  | some index => index
  | none => lastMaxIndex (voices.map (·.age))

/-- Starts a tone. -/
def noteOn (voices : List ToneVoice) (tone : Float × Nat) : List ToneVoice :=
  voices.modify (freeVoice voices) (·.start tone.1 tone.2)

/-! ## Rendering -/

/-- One frame of each voice in turn, their samples added to a sum. -/
def tickVoices (rate : Float) (preset : SynthPreset) (sum : Float) :
    List ToneVoice → Float × List ToneVoice
  | [] => (sum, [])
  | voice :: voices =>
    let (sample, voice) := voice.tick rate preset
    let (sum, voices) := tickVoices rate preset (sum + sample) voices
    (sum, voice :: voices)

/-- How the synth plays: the voices and the filter are its state. -/
def player (rate : Float) (preset : SynthPreset) : Player (List ToneVoice × Lowpass) (Float × Nat)
    where
  start := fun (voices, filter) tone => (noteOn voices tone, filter)
  frame := fun (voices, filter) =>
    let (mix, voices) := tickVoices rate preset 0 voices
    let (filtered, filter) := filter.tick mix.toFloat32.toFloat
    (filtered.toFloat32 * preset.level, voices, filter)

/-- Renders a block. -/
def process (synth : MonoSynth) (frames : Nat) : List Float32 × MonoSynth :=
  let rendered := (player synth.rate.toFloat synth.preset).renderBlock frames synth.waiting
    (synth.voices, synth.filter)
  (rendered.samples,
    { synth with
      voices := rendered.state.1, filter := rendered.state.2, waiting := rendered.waiting })

/-- The synth in one line. -/
def describe (synth : MonoSynth) : String :=
  Text.record "MonoSynth" [
    ("preset", "\"" ++ synth.preset.name ++ "\""),
    ("sample_rate", singleText synth.rate .compact "NaN"),
    ("active_voices", toString synth.activeVoices)]

end MonoSynth

end Groovebox
