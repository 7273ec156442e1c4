import Groovebox.Panel.Label
import Groovebox.PatternText.Check

/-! # The editor

The editor holds the pattern text and shows the diagnostics of the text as it stands.
-/

namespace Groovebox

/-- A pattern text with its diagnostics. -/
structure Editor where
  text : String
  diagnostics : List PatternText.Diagnostic

namespace Editor

/-- The text of an editor that was given none. -/
def starterText : String :=
  "// one line per track, `-` is a rest\n" ++
    "drums: kick - hihat - snare - hihat -\n" ++
    "bass:  C2 - - C2 - - G1 -\n" ++
    "synth: - E4 - G4 - - B4 -\n"

/-- An editor of a text. -/
def new (text : String) : Editor :=
  ⟨text, PatternText.check text⟩

/-- Selects the whole text and pastes another one over it; pasting nothing changes nothing. -/
def paste (editor : Editor) (text : String) : Editor × Option String :=
  if text = "" then (editor, none) else (new text, some text)

/-- Selects the whole text and deletes it, which counts as a change in any case. -/
def erase (_ : Editor) : Editor × Option String :=
  (new "", some "")

/-- A replaced line is a lesser fault than the others. -/
def faultColour : PatternText.Fault → Colour
  | .overridden _ _ => .grey 150
  | _ => ⟨220, 170, 80⟩

/-- The labels under the text: one for each diagnostic, or a tick. -/
def labels (editor : Editor) : List Label :=
  if editor.diagnostics.isEmpty then [.coloured "\u2714 ok" ⟨100, 180, 100⟩]
  else editor.diagnostics.map fun diagnostic =>
    .coloured diagnostic.message (faultColour diagnostic.fault)

end Editor

end Groovebox
