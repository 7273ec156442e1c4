import Groovebox.Settings.Basic
import Groovebox.Toml.Document

/-! # Reading settings

Settings are read from a document.  A setting that is not there keeps its standard value, and keys
that name no setting are passed over.  When the document is malformed, or one value is of the wrong
type or out of range, all settings are the standard ones; so they are when a key that is passed over
holds a number too large for its type.
-/

namespace Groovebox

/-! ## Values of settings -/

/-- A number of any kind.  Integers count when they fit into 64 bits, signed or not. -/
def Toml.Value.number? : Toml.Value → Option Float
  | .number x => some x
  | .integer n => if -Int.pow 2 63 ≤ n ∧ n < Int.pow 2 64 then some (Float.ofInt n) else none
  | _ => none

/-- An integer from 0 up to a limit. -/
def Toml.Value.natBelow? (limit : Nat) : Toml.Value → Option Nat
  | .integer n => if 0 ≤ n ∧ n < limit then some n.toNat else none
  | _ => none

/-- The wrap policy of a name. -/
def WrapPolicy.ofName? (name : String) : Option WrapPolicy :=
  if name = "silent" then some .silent else if name = "loop" then some .loop else none

/-- A wrap policy, by its name; the name may also be the only key of a table, with nothing in
it. -/
def Toml.Value.wrapPolicy? : Toml.Value → Option WrapPolicy
  | .text name => WrapPolicy.ofName? name
  | .table _ [(name, .array [])] => WrapPolicy.ofName? name
  | .table _ [(name, .table _ [])] => WrapPolicy.ofName? name
  | _ => none

/-! ## Sections -/

/-- What a section says about each of its settings. -/
abbrev Section := String → Option Toml.Value

/-- The section of settings with given names that a value holds.  A table gives them by name, and
its other entries are passed over if they fit; an array gives them in the order of the names; a date
gives none. -/
def Toml.Value.section? (names : List String) : Toml.Value → Option Section
  | .table _ entries =>
    if Value.entriesFit (entries.filter fun entry => !names.contains entry.1) then
      some (Toml.Entries.find? entries)
    else none
  | .array items => some fun name => items[names.idxOf name]?
  | .tables all => some fun name => all[names.idxOf name]?.map (.table .header ·)
  | .moment => some fun _ => none
  | _ => none

/-- A setting of a section, or its standard value if the section does not say. -/
def Section.read {α : Type} (fields : Section) (name : String) (read : Toml.Value → Option α)
    (standard : α) : Option α :=
  match fields name with
  | none => some standard
  | some value => read value

namespace Settings

/-- Reads the settings of the sequencer. -/
def sequencer? (value : Toml.Value) : Option (SequencerConfig Float) := do
  let fields ←
    value.section? ["steps_per_beat", "lookahead_secs", "poll_interval_ms", "wrap_policy"]
  let d := standard.sequencer
  return {
    stepsPerBeat := ← fields.read "steps_per_beat" (·.natBelow? (Nat.pow 2 32)) d.stepsPerBeat
    lookahead := ← fields.read "lookahead_secs" (·.number?) d.lookahead
    pollMillis := ← fields.read "poll_interval_ms" (·.natBelow? (Nat.pow 2 64)) d.pollMillis
    wrapPolicy := ← fields.read "wrap_policy" (·.wrapPolicy?) d.wrapPolicy }

/-- Reads the settings of the sound. -/
def volume? (value : Toml.Value) : Option Float := do
  let fields ← value.section? ["volume_db"]
  fields.read "volume_db" (·.number?) standard.volume

/-- Reads all settings. -/
def ofText? (text : String) : Option Settings := do
  let document : Toml.Value := .table .header (← Toml.document? text)
  let fields ← document.section? ["tempo", "sequencer", "audio"]
  return {
    tempo := ← fields.read "tempo" (·.number?) standard.tempo
    sequencer := ← fields.read "sequencer" sequencer? standard.sequencer
    volume := ← fields.read "audio" volume? standard.volume }

/-- The settings that a text gives; the standard ones if it does not give settings. -/
def ofText (text : String) : Settings :=
  (ofText? text).getD standard

end Settings

end Groovebox
