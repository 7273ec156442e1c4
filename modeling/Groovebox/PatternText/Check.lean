import Groovebox.PatternText.Compile

/-! # Advice on pattern text

`check` lists what `compile` passes over or lets through: lines that are not for a track, tokens
that cannot sound, and lines that a later one replaces.  The diagnostics come in line order.
-/

namespace Groovebox.PatternText

/-- A fault of a line. -/
inductive Fault where
  /-- The line is not of the form `name: tokens`. -/
  | malformed
  /-- The line names a track that there is not. -/
  | unknownTrack (name : String)
  /-- The token cannot sound on the line's track. -/
  | invalidToken (track : Track) (token : String)
  /-- A later line for the same track replaces this one. -/
  | overridden (track : Track) (byLine : Nat)
deriving DecidableEq, Repr

/-- A fault and the number of its line; lines count from 1. -/
structure Diagnostic where
  line : Nat
  fault : Fault
deriving DecidableEq, Repr

/-- What a fault is called in words. -/
def Fault.message : Fault → String
  | malformed => "expected `track: tokens`"
  | unknownTrack name => "unknown track '" ++ name ++ "'"
  | invalidToken track token => "'" ++ token ++ "' is not playable on " ++ track.name
  | overridden track byLine => track.name ++ " is replaced by line " ++ toString byLine

/-- A diagnostic in words. -/
def Diagnostic.message (diagnostic : Diagnostic) : String :=
  "line " ++ toString diagnostic.line ++ ": " ++ diagnostic.fault.message

/-! ## Scanning the lines -/

/-- The last line met so far for each track. -/
abbrev LastLines := Track → Option Nat

/-- The lines for a track, one more met. -/
def LastLines.note (last : LastLines) (track : Track) (line : Nat) : LastLines :=
  fun other => if other = track then some line else last other

/-- The diagnostics that arise when a line is met, in the order in which they arise: the line that
it replaces comes before its own tokens. -/
def faultsAt (last : LastLines) (number : Nat) : Line → List Diagnostic
  | .skip => []
  | .malformed => [⟨number, .malformed⟩]
  | .unknownTrack name => [⟨number, .unknownTrack (String.ofList name)⟩]
  | .forTrack track body =>
    ((last track).toList.map fun previous => ⟨previous, .overridden track number⟩) ++
      ((tokens body).filter fun token => !isValidToken token track).map fun token =>
        ⟨number, .invalidToken track token⟩

/-- The last lines after a line is met. -/
def lastAfter (last : LastLines) (number : Nat) : Line → LastLines
  | .forTrack track _ => last.note track number
  | _ => last

/-- The diagnostics of the lines from a given number on, in the order in which they arise. -/
def scan (last : LastLines) (number : Nat) : List Line → List Diagnostic
  | [] => []
  | line :: rest => faultsAt last number line ++ scan (lastAfter last number line) (number + 1) rest

/-- All diagnostics of a text in line order; those of one line stay in the order in which they
arise. -/
def check (text : String) : List Diagnostic :=
  (scan (fun _ => none) 1 (readLines text)).mergeSort fun a b => a.line ≤ b.line

end Groovebox.PatternText
