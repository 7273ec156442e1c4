import Groovebox.Settings.Printer
import Groovebox.Settings.Reader

/-! # The settings file

Settings are kept in one file in a directory of their own.  Saving creates the directory; when
something else stands in the way nothing is saved, and what cannot be read gives the standard
settings.
-/

namespace Groovebox

/-- What is found where the settings file belongs. -/
inductive SettingsFile where
  /-- There is no file. -/
  | missing
  /-- There is a file with some bytes. -/
  | bytes (content : ByteArray)
  /-- A directory stands in the file's place. -/
  | directory
  /-- A file stands in the place of the directory that would hold the settings file. -/
  | obstructed

namespace SettingsFile

/-- The place of the settings file in the user's configuration directory. -/
def path : String := "stepcode/config.toml"

/-- Puts bytes into the file, where nothing stands in the way. -/
def write (file : SettingsFile) (content : ByteArray) : SettingsFile :=
  match file with
  | missing => .bytes content
  | bytes _ => .bytes content
  | directory => .directory
  | obstructed => .obstructed

/-- The text of the file, if there is a file and its bytes are a text. -/
def text? : SettingsFile → Option String
  | bytes content => String.fromUTF8? content
  | _ => none

/-- Saves settings. -/
def save (file : SettingsFile) (settings : Settings) : SettingsFile :=
  file.write settings.render.toUTF8

/-- The settings in the file, or the standard ones. -/
def load (file : SettingsFile) : Settings :=
  match file.text? with
  | some text => .ofText text
  | none => .standard

end SettingsFile

end Groovebox
