/-! # Drum hits

The vocabulary of the drum track.
-/

namespace Groovebox

/-- A sound of the drum kit. -/
inductive DrumHit where
  | kick
  | snare
  | clap
  | hihat
  | openhat
  | tom
  | rim
  | cowbell
  | crash
deriving DecidableEq, Inhabited, Repr

namespace DrumHit

/-- The hits in the order of the kit. -/
def all : List DrumHit :=
  [kick, snare, clap, hihat, openhat, tom, rim, cowbell, crash]

/-- Every hit is listed. -/
theorem mem_all (hit : DrumHit) : hit ∈ all := by
  cases hit <;> simp [all]

/-- The token that plays a hit. -/
def name : DrumHit → String
  | kick => "kick"
  | snare => "snare"
  | clap => "clap"
  | hihat => "hihat"
  | openhat => "openhat"
  | tom => "tom"
  | rim => "rim"
  | cowbell => "cowbell"
  | crash => "crash"

/-- The hit that a token plays; tokens are matched exactly. -/
def ofName? (token : String) : Option DrumHit :=
  all.find? fun hit => hit.name == token

/-- A hit's own name plays it. -/
theorem ofName?_name (hit : DrumHit) : ofName? hit.name = some hit := by
  cases hit <;> decide

end DrumHit

end Groovebox
