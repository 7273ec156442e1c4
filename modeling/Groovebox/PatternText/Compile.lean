import Groovebox.DrumHit
import Groovebox.Pattern
import Groovebox.Pitch
import Groovebox.Text

/-! # From text to patterns

A line of pattern text is `name: token token ...`.  Blank lines and lines that begin with `//` say
nothing.  Every other line is either written for a track, or has an unknown name, or has no colon.
Compiling never fails: lines that say nothing about a track are passed over, and of two lines for
one track the later one stands.
-/

namespace Groovebox.PatternText

/-! ## Lines -/

/-- What a line of pattern text says. -/
inductive Line where
  /-- A blank line or a comment. -/
  | skip
  /-- A line without a colon. -/
  | malformed
  /-- A line for a track that there is not. -/
  | unknownTrack (name : List Char)
  /-- A line for a track, with the text after the colon. -/
  | forTrack (track : Track) (body : List Char)
deriving DecidableEq, Repr

/-- The two parts of a text around its first colon, or none if it has no colon. -/
def splitColon? : List Char → Option (List Char × List Char)
  | [] => none
  | ':' :: cs => some ([], cs)
  | c :: cs => (splitColon? cs).map fun (name, body) => (c :: name, body)

/-- A comment begins with two slashes. -/
def isComment : List Char → Bool
  | '/' :: '/' :: _ => true
  | _ => false

/-- Reads a line. -/
def Line.ofChars (line : List Char) : Line :=
  let line := Text.trim line
  if line.isEmpty || isComment line then .skip
  else match splitColon? line with
    | none => .malformed
    | some (name, body) =>
      let name := Text.trimEnd name
      match Track.ofName? name with
      | some track => .forTrack track body
      | none => .unknownTrack name

/-- The words of a line's body. -/
def tokens (body : List Char) : List String :=
  (Text.words body).map String.ofList

/-- Whether a token can sound on a track: a rest always can, the drums play hits and the other
tracks play pitches. -/
def isValidToken (token : String) (track : Track) : Bool :=
  token == StepToken.restText ||
    if track.isPercussion then (DrumHit.ofName? token).isSome
    else (Pitch.ofString? token).isSome

/-- The lines of a text, each read. -/
def readLines (text : String) : List Line :=
  (Text.lines text.toList).map Line.ofChars

/-! ## Pattern sets -/

/-- The set after one more line. -/
def addLine (set : PatternSet) : Line → PatternSet
  | .forTrack track body => set.insert track (Pattern.ofWords (tokens body))
  | _ => set

/-- The pattern set that a text describes. -/
def compile (text : String) : PatternSet :=
  (readLines text).foldl addLine .empty

end Groovebox.PatternText
