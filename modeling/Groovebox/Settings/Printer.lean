import Groovebox.Decimal.Layout
import Groovebox.Settings.Basic

/-! # Writing settings

Settings are written one to a line, in sections.  Numbers are written positionally, with the fewest
digits that read back.
-/

namespace Groovebox

/-- The name of a wrap policy. -/
def WrapPolicy.name : WrapPolicy → String
  | silent => "silent"
  | loop => "loop"

namespace Settings

/-- A line that sets a key. -/
def line (key value : String) : String :=
  key ++ " = " ++ value ++ "\n"

/-- A number as it stands in a settings text. -/
def numberText (x : Float) : String :=
  doubleText x .plain "nan"

/-- The text of settings. -/
def render (settings : Settings) : String :=
  line "tempo" (numberText settings.tempo) ++
    "\n[sequencer]\n" ++
    line "steps_per_beat" (toString settings.sequencer.stepsPerBeat) ++
    line "lookahead_secs" (numberText settings.sequencer.lookahead) ++
    line "poll_interval_ms" (toString settings.sequencer.pollMillis) ++
    line "wrap_policy" ("\"" ++ settings.sequencer.wrapPolicy.name ++ "\"") ++
    "\n[audio]\n" ++
    line "volume_db" (numberText settings.volume)

end Settings

end Groovebox
