import Groovebox.Text

/-! # Tracks

A pattern line is written for one of three tracks: the drums, which play unpitched hits, and two
melodic voices.
-/

namespace Groovebox

/-- An instrument channel that a pattern line is written for. -/
inductive Track where
  | drums
  | bass
  | synth
deriving DecidableEq, Inhabited, Repr

namespace Track

/-- The tracks in channel order. -/
def all : List Track := [drums, bass, synth]

/-- Every track is listed. -/
theorem mem_all (t : Track) : t ∈ all := by
  cases t <;> simp [all]

/-- The name that pattern text uses for a track. -/
def name : Track → String
  | drums => "drums"
  | bass => "bass"
  | synth => "synth"

/-- The track that a name stands for; the case of ASCII letters does not matter. -/
def ofName? (name : List Char) : Option Track :=
  all.find? fun track => Text.sameName track.name.toList name

/-- The drums play hits. -/
def isPercussion : Track → Bool
  | drums => true
  | bass | synth => false

/-- The other tracks play pitches. -/
def isMelodic (track : Track) : Bool :=
  !track.isPercussion

end Track

end Groovebox
