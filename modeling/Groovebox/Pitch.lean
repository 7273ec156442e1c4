/-! # Pitches

A pitch is a letter from A to G, an optional sharp or flat sign and an octave from 0 to 8, such as
`C#4`.  It has a note number, with C4 at 60, and a frequency in equal temperament, with A4 at
440 Hz.
-/

namespace Groovebox

namespace Pitch

/-- The letter that names a white key. -/
inductive Letter where
  | c
  | d
  | e
  | f
  | g
  | a
  | b
deriving DecidableEq, Inhabited, Repr

/-- How a pitch departs from its white key. -/
inductive Accidental where
  | natural
  | sharp
  | flat
deriving DecidableEq, Inhabited, Repr

/-- The letter as it is displayed. -/
def Letter.toChar : Letter → Char
  | c => 'C'
  | d => 'D'
  | e => 'E'
  | f => 'F'
  | g => 'G'
  | a => 'A'
  | b => 'B'

/-- A letter is read in either case. -/
def Letter.ofChar? (char : Char) : Option Letter :=
  match char.toUpper with
  | 'C' => some c
  | 'D' => some d
  | 'E' => some e
  | 'F' => some f
  | 'G' => some g
  | 'A' => some a
  | 'B' => some b
  | _ => none

/-- Semitones above the C of the same octave. -/
def Letter.semitone : Letter → Int
  | c => 0
  | d => 2
  | e => 4
  | f => 5
  | g => 7
  | a => 9
  | b => 11

/-- The sign of an accidental; a natural has none. -/
def Accidental.sign : Accidental → List Char
  | natural => []
  | sharp => ['#']
  | flat => ['b']

/-- The semitones that an accidental adds. -/
def Accidental.shift : Accidental → Int
  | natural => 0
  | sharp => 1
  | flat => -1

end Pitch

/-- A letter, an accidental and an octave from 0 to 8. -/
structure Pitch where
  letter : Pitch.Letter
  accidental : Pitch.Accidental
  octave : Fin 9
deriving DecidableEq, Inhabited, Repr

namespace Pitch

/-- One decimal digit from 0 to 8. -/
def octaveOfChar? (char : Char) : Option (Fin 9) :=
  let digit := char.toNat - '0'.toNat
  if h : '0'.toNat ≤ char.toNat ∧ digit < 9 then some ⟨digit, h.2⟩ else none

/-- Reads a pitch from its characters; nothing may stand before or after it. -/
def ofChars? : List Char → Option Pitch
  | [letter, digit] => do
    return ⟨← Letter.ofChar? letter, .natural, ← octaveOfChar? digit⟩
  | [letter, '#', digit] => do
    return ⟨← Letter.ofChar? letter, .sharp, ← octaveOfChar? digit⟩
  | [letter, 'b', digit] => do
    return ⟨← Letter.ofChar? letter, .flat, ← octaveOfChar? digit⟩
  | _ => none

/-- Reads a pitch token. -/
def ofString? (token : String) : Option Pitch :=
  ofChars? token.toList

/-- The characters of a pitch, its letter in upper case. -/
def toChars (pitch : Pitch) : List Char :=
  pitch.letter.toChar :: (pitch.accidental.sign ++ [Char.ofNat ('0'.toNat + pitch.octave)])

/-- The text of a pitch. -/
def toText (pitch : Pitch) : String :=
  String.ofList pitch.toChars

/-- The note number as an integer: twelve for each octave above −1, and the semitones above C. -/
def noteNumber (pitch : Pitch) : Int :=
  (pitch.octave + 1) * 12 + pitch.letter.semitone + pitch.accidental.shift

/-- The note number in one byte. -/
def midiNote (pitch : Pitch) : UInt8 :=
  UInt8.ofInt pitch.noteNumber

/-- The frequency in hertz, twelve equal semitones to an octave, with note 69 at 440. -/
def frequency (pitch : Pitch) : Float :=
  440.0 * Float.pow 2.0 ((pitch.midiNote.toFloat - 69.0) / 12.0)

end Pitch

end Groovebox
